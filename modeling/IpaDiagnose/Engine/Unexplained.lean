import IpaDiagnose.Engine.Model
import IpaDiagnose.TextSafe

/-!
# The safety net

A finding of rank ERROR or worse that no pack rule claimed must not
vanish. A service the health check reports as not running becomes a
diagnosis of its own; checks that crashed, and everything else, are
collected in one diagnosis each.
-/

namespace IpaDiagnose

open Py (Value Dict)
open Regex (Re)

def PACK_ID : String := "healthcheck"

/-! ## Patterns and tables -/

/-- `[A-Za-z0-9_]` in a case-insensitive pattern, and the same with the
other characters a unit name may have. -/
def serviceStart (c : Char) : Bool := asciiWordI c || c == '_'

def serviceChar (c : Char) : Bool := serviceStart c || ".@-".toList.contains c

/-- `<service>: not running`, the service in group 1. -/
def NOT_RUNNING_RE : Re :=
  .seqAll [.bos, .star space, .group 1 (.seq (.cls serviceStart) (.star (.cls serviceChar))),
    .char ':', .star space, .litI "not running", .star space, .eos]

def SOURCE_RE : Re := .seq (alnumOr "_") (.star (alnumOr "_."))

def CHECK_RE : Re := .plus (alnumOr "_")

def IPACTL_SERVICES : List String :=
  ["dirsrv", "krb5kdc", "kadmin", "named", "named-pkcs11", "httpd", "ipa-custodia", "pki-tomcatd",
    "ipa-otpd", "ipa-dnskeysyncd", "ipa"]

def CORE_SERVICES : List String :=
  ["dirsrv", "krb5kdc", "kadmin", "httpd", "named", "named-pkcs11", "pki-tomcatd", "pki_tomcatd"]

def MAX_GROUPED : Nat := 6

/-- Packs whose stopped service can explain a pile of failing checks. -/
def SERVICE_UPSTREAMS : List String := ["directory-server", "kerberos", "dns", "certificates"]

/-! ## Single findings -/

/-- The result is an exception raised inside the check itself. -/
def isCheckCrash (f : Finding) : Bool :=
  ((f.keywords.lookup "exception").getD .null).truthy
    || ((f.keywords.lookup "traceback").getD .null).truthy

/-- The service a finding reports as not running. -/
def stoppedService? (f : Finding) : Option String :=
  if PyStr.endsWith f.source "meta.services" then
    (NOT_RUNNING_RE.match? f.message).bind fun m => m.group? 1
  else none

/-- The message, or the keywords of a finding without one. -/
def messageOrKeywords (f : Finding) : String :=
  if f.message != "" then f.message else (Value.dict f.keywords).toStr

/-- The read-only command that repeats a check; its names only if they
are plain identifiers. -/
def recheckCommand (f : Finding) : String :=
  if SOURCE_RE.fullmatch f.source && CHECK_RE.fullmatch f.check then
    "ipa-healthcheck --source " ++ f.source ++ " --check " ++ f.check ++ " --failures-only"
  else "ipa-healthcheck --failures-only"

theorem recheckCommand_ne (f : Finding) : recheckCommand f ≠ "" := by
  unfold recheckCommand
  split
  · simp [String.append_eq_empty_iff]
  · decide

/-- What is left out of a listing of `n` findings that shows six. -/
def moreNote (n : Nat) : String :=
  if MAX_GROUPED < n then " (+" ++ toString (n - MAX_GROUPED) ++ " more)" else ""

def refFor (why : String) (f : Finding) : EvidenceRef := ⟨f.findingId, .finding, why⟩

def worstOf (fs : List Finding) : Severity := Severity.maxOf .success (fs.map Finding.severity)

/-! ## The three diagnoses -/

def checkFailedDiagnosis (first : Finding) (rest : List Finding) : Diagnosis :=
  let findings := first :: rest
  let shown := findings.take MAX_GROUPED
  let lines := PyStr.join "; " (shown.map fun f =>
    sanitizeText f.check 60 ++ ": " ++ sanitizeText (messageOrKeywords f) 90)
  { packId := PACK_ID
    ruleId := "healthcheck-check-failed"
    status := .unknownInsufficientEvidence
    title := "One or more ipa-healthcheck checks failed to run"
    why := toString findings.length ++ " ipa-healthcheck check(s) raised an exception instead of "
      ++ "returning a result, so they say nothing about the state of the system: " ++ lines
      ++ moreNote findings.length ++ ". This is most often a consequence of another problem in "
      ++ "this report (for example a stopped service the check needs)."
    confidence :=
      { level := .insufficient
        rationale := "A check that crashed produced no result; it is reported so it is never "
          ++ "silently dropped." }
    severity := worstOf findings
    evidenceFor := shown.map (refFor "ipa-healthcheck check raised an exception.")
    impact := "Health of whatever these checks cover is not established."
    nextDiagnosticStep := some (recheckCommand first)
    actions :=
      [{ description := "Re-run the failing check after resolving any other problem in this report."
         risk := .safe
         command := some (recheckCommand first)
         rationale := "Read-only." }]
    limitations := "No conclusion about the affected subsystem can be drawn from a crashed check."
    upstreamCandidates := SERVICE_UPSTREAMS
    has_next_step := fun _ => ⟨_, rfl, recheckCommand_ne first⟩
    is_confident := nofun }

def groupedUnknown (first : Finding) (rest : List Finding) : Diagnosis :=
  let findings := first :: rest
  let shown := findings.take MAX_GROUPED
  let lines := PyStr.join "; " (shown.map fun f =>
    sanitizeText f.qualifiedCheck 80 ++ " (" ++ f.severity.value ++ "): "
      ++ sanitizeText (messageOrKeywords f) 110)
  { packId := PACK_ID
    ruleId := "unexplained-findings"
    status := .unknownInsufficientEvidence
    title := "ipa-healthcheck reports ERROR/CRITICAL findings that no diagnostic rule explains"
    why := toString findings.length ++ " finding(s) from ipa-healthcheck are at ERROR or CRITICAL "
      ++ "and are not covered by any ipa-diagnose rule, so their cause is not determined: "
      ++ lines ++ moreNote findings.length ++ ". They may be consequences of another problem in "
      ++ "this report (for example a stopped service) or independent problems."
    confidence :=
      { level := .insufficient
        rationale := "No rule links these findings to a cause; shown so they are never silently "
          ++ "dropped." }
    severity := worstOf findings
    evidenceFor := shown.map (refFor "Unexplained ipa-healthcheck finding.")
    impact := "Unknown - depends on what the underlying checks were verifying."
    nextDiagnosticStep := some (recheckCommand first)
    actions :=
      [{ description := "Re-run the specific failing check for full detail."
         risk := .safe
         command := some (recheckCommand first)
         rationale := "Read-only." }]
    limitations := "ipa-diagnose has no rule for these findings; this is a visibility safeguard, "
      ++ "not a diagnosis."
    upstreamCandidates := SERVICE_UPSTREAMS
    has_next_step := fun _ => ⟨_, rfl, recheckCommand_ne first⟩
    is_confident := nofun }

def SERVICE_PREFIX : String := "service-not-running-"

def serviceDiagnosis (f : Finding) (service : String) : Diagnosis :=
  let ipactl := IPACTL_SERVICES.contains (PyStr.before service '@')
  { packId := PACK_ID
    ruleId := SERVICE_PREFIX ++ service
    status := .diagnosed
    title := "Required service '" ++ service ++ "' is not running"
    why := "ipa-healthcheck (" ++ sanitizeText f.qualifiedCheck 80 ++ ") directly reports: "
      ++ sanitizeText f.message 160 ++ ". This is the check's own statement, not an inference. "
      ++ "Why the service is not running is NOT determined by this finding."
    confidence :=
      { level := .high
        rationale := "Direct report from ipa-healthcheck's service status check."
        corroboratingEvidenceCount := 1 }
    severity := if CORE_SERVICES.contains (PyStr.before service '@') then .critical else .error
    evidenceFor := [refFor "ipa-healthcheck states this service is not running." f]
    impact := "Functions that depend on this service are unavailable or degraded. Other failures "
      ++ "in this report (for example ipa-healthcheck checks that could not connect) may be "
      ++ "consequences."
    actions :=
      [{ description := "Check why the service is not running before starting it."
         risk := .safe
         command := some (if ipactl then "ipactl status"
           else "systemctl status --no-pager -- " ++ service
             ++ "; journalctl --no-pager -n 50 -u " ++ service)
         rationale := if ipactl then "Read-only: lists the state of every FreeIPA-managed service."
           else "Read-only: shows the unit state and its most recent log lines." }]
    limitations := "Root cause of the outage is not established by this finding alone."
    resolutionKey := some "healthcheck.service-not-running"
    bindings := [("service", .str service)]
    has_next_step := no_step_needed
    is_confident := fun _ => .inl rfl }

/-! ## Sorting the unclaimed findings -/

/-- Ids a diagnosis cites, for or against. -/
def Diagnosis.citedIds (d : Diagnosis) : List String :=
  d.evidenceFor.map (·.evidenceId) ++ d.evidenceAgainst.map (·.evidenceId)

def claimedIds (ds : List Diagnosis) : List String := ds.flatMap Diagnosis.citedIds

/-- ERROR or worse, and not claimed; an id two findings share is never claimed. -/
def unclaimed (b : EvidenceBundle) (ds : List Diagnosis) : List Finding :=
  b.findings.filter fun f =>
    Severity.error.rank ≤ f.severity.rank
      && (!(claimedIds ds).contains f.findingId || 1 < b.idCount f.findingId)

/-- What the loop over the unclaimed findings has collected: a diagnosis
for every stopped service seen, the other findings, the crashed checks. -/
structure Net where
  services : List (Finding × String)
  others : List Finding
  crashed : List Finding

def Net.add (n : Net) (f : Finding) : Net :=
  if isCheckCrash f then { n with crashed := n.crashed ++ [f] }
  else
    match stoppedService? f with
    | some s =>
        if (n.services.map (·.2)).contains s then n
        else { n with services := n.services ++ [(f, s)] }
    | none => { n with others := n.others ++ [f] }

def net (b : EvidenceBundle) (ds : List Diagnosis) : Net :=
  (unclaimed b ds).foldl Net.add ⟨[], [], []⟩

/-- The diagnosis of a group, if there is anything in it. -/
def grouped (mk : Finding → List Finding → Diagnosis) : List Finding → List Diagnosis
  | [] => []
  | f :: fs => [mk f fs]

def unexplainedFindingDiagnoses (b : EvidenceBundle) (ds : List Diagnosis) : List Diagnosis :=
  (net b ds).services.map (fun fs => serviceDiagnosis fs.1 fs.2)
    ++ grouped groupedUnknown (net b ds).others
    ++ grouped checkFailedDiagnosis (net b ds).crashed

end IpaDiagnose
