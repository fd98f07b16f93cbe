import IpaDiagnose.Engine.Model
import IpaDiagnose.Lib.Regex

/-!
# Expired certificates

The rule for certificates whose expiry the health check reports, at its
threshold or past it.
-/

namespace IpaDiagnose.Certificates

open Regex (Re)

def PACK_ID : String := "certificates"

def EXPIRY_CHECKS : List String := ["IPACertmongerExpirationCheck", "IPACertfileExpirationCheck"]

/-- `\bexpires in \d+ days?\b|\bexpired on\b|\bhas expired\b|\bis expired\b` -/
def EXPIRY_TEXT_RE : Re :=
  .altAll [
    .seqAll [.wordB, .lit "expires in ", .plus (.cls Unicode.isDecimal), .lit " day",
      .opt (.char 's'), .wordB],
    .seqAll [.wordB, .lit "expired on", .wordB], .seqAll [.wordB, .lit "has expired", .wordB],
    .seqAll [.wordB, .lit "is expired", .wordB]]

def isExternalCertMessage (f : Finding) : Bool :=
  PyStr.contains (PyStr.lower f.message) "not an ipa-issued"

/-- A result that is about a date: the checks report other errors too. -/
def isExpiryResult (f : Finding) : Bool :=
  if isExternalCertMessage f then false
  else ((f.keywords.lookup "expiration_date").elim false Py.Value.truthy)
    || EXPIRY_TEXT_RE.search (PyStr.lower f.message)

def certFindings (findings : List Finding) (sources checks : List String) : List Finding :=
  (findings.filter fun f => sources.any (PyStr.startsWith f.source)).filter fun f =>
    checks.contains f.check

def expiryFindings (findings : List Finding) : List Finding :=
  (certFindings findings ["ipahealthcheck.ipa.certs"] EXPIRY_CHECKS).filter fun f =>
    decide (Severity.warning.rank ≤ f.severity.rank) && isExpiryResult f

/-- The first finding of the highest severity. -/
def worstOf : Finding → List Finding → Finding
  | worst, [] => worst
  | worst, f :: fs => worstOf (if worst.severity.rank < f.severity.rank then f else worst) fs

def refOf (f : Finding) : EvidenceRef where
  evidenceId := f.findingId
  kind := .finding
  whyRelevant := f.check ++ " reported " ++ f.severity.value ++ ": " ++ f.message

def expiredActions : List Action :=
  [{ description := "Confirm the current certmonger tracking state for this request before acting."
     risk := .safe
     command := some "getcert list"
     rationale := "Read-only - establishes whether certmonger already has a renewal in flight "
      ++ "before intervening manually." },
    { description := "Ask certmonger to resubmit the renewal now."
      risk := .caution
      command := some "getcert resubmit -i <request-id>"
      rationale := "Standard, reversible certmonger renewal path - try this before any destructive "
        ++ "recovery step." },
    { description := "Run ipa-cert-fix to recover from expired IPA system certificates."
      risk := .highRisk
      command := some "ipa-cert-fix"
      rationale := "recovery-only per official guidance (freeipa.org/page/Troubleshooting/PKI, "
        ++ "Fraser Tweedale's ipa-cert-fix writeup) - back up certs/keys first, use only when "
        ++ "expired certs are actively blocking normal operation, and expect to need `getcert "
        ++ "resubmit` on remaining CA masters afterward."
      reference := some "https://www.freeipa.org/page/Troubleshooting/PKI" }]

def expired (worst : Finding) (evidence_for : List EvidenceRef) : Diagnosis where
  packId := PACK_ID
  ruleId := "cert-expired"
  status := .diagnosed
  title := "Tracked certificate has passed its expiration threshold"
  why := worst.check ++ " reports " ++ worst.severity.value ++ " for this certificate: "
    ++ worst.message ++ ". Per Red Hat KCS 7007191 and freeipa.org/page/V4/CA_certificate_renewal, "
    ++ "an ERROR/CRITICAL result here means the certificate is at or past expiry and effectively "
    ++ "already service-impacting."
  confidence :=
    { level := .high
      rationale := "[HIGH] Directly reported by ipa-healthcheck's own IPACertmongerExpirationCheck/"
        ++ "IPACertfileExpirationCheck, which reads the certificate's notAfter date - a direct "
        ++ "measurement, not an inference."
      corroboratingEvidenceCount := evidence_for.length }
  severity := .critical
  evidenceFor := evidence_for
  impact := "Services relying on this certificate (LDAPS, HTTPS/Apache, or CA/KRA agent TLS) will "
    ++ "fail TLS negotiation until it is renewed."
  actions := expiredActions
  limitations := "Confirming the fix fully also requires checking that dependent services "
    ++ "(httpd/dirsrv) actually reloaded the new certificate, not just that certmonger wrote a new "
    ++ "file to disk; this pack's collectors do not check service-side TLS reload."
  has_next_step := no_step_needed
  is_confident := fun _ => .inl rfl

def approaching (worst : Finding) (evidence_for : List EvidenceRef) : Diagnosis where
  packId := PACK_ID
  ruleId := "cert-expired"
  status := .diagnosed
  title := "Tracked certificate is approaching its expiration window"
  why := worst.check ++ " reports WARNING: " ++ worst.message ++ ". This is inside "
    ++ "ipa-healthcheck's configurable pre-expiry warning window (default 28 days, "
    ++ "/etc/ipahealthcheck/ipahealthcheck.conf) - not yet broken, but worth confirming automated "
    ++ "renewal is on track."
  confidence :=
    { level := .high
      rationale := "[HIGH] Directly reported by ipa-healthcheck's own expiration check reading the "
        ++ "cert's notAfter date against its configured warning threshold - a direct measurement, "
        ++ "not an inference."
      corroboratingEvidenceCount := evidence_for.length }
  severity := .warning
  evidenceFor := evidence_for
  impact := "No current service impact; becomes service-impacting only if automated renewal fails to "
    ++ "complete before actual expiry."
  actions :=
    [{ description := "Confirm certmonger auto-renewal is tracking this certificate on the happy "
        ++ "path."
       risk := .safe
       command := some "getcert list"
       rationale := "Read-only - confirms the request is in MONITORING/CA_WORKING rather than a "
        ++ "failure state." }]
  has_next_step := no_step_needed
  is_confident := fun _ => .inl rfl

def certificateExpired (findings : List Finding) : Option Diagnosis :=
  match expiryFindings findings with
  | [] => none
  | f :: fs =>
      let worst := worstOf f fs
      let evidence_for := (f :: fs).map refOf
      if Severity.error.rank ≤ worst.severity.rank then some (expired worst evidence_for)
      else some (approaching worst evidence_for)

end IpaDiagnose.Certificates
