import Mathlib.Data.List.Sort
import IpaDiagnose.Engine.Registry
import IpaDiagnose.Engine.Unexplained
import IpaDiagnose.Evidence.HealthcheckCatalog

/-!
# Correlation

Which diagnosis is the primary problem, which are symptoms of another,
and what the report says overall. A diagnosis is demoted only by one it
names as a possible cause: by pack (`upstreamCandidates`), or by id
(`IMPLICIT_RULE_UPSTREAMS`).

The source fills in `why`, `priority` and the like in place. Here the
report gets new values, and a position in the list stands for the
identity of a diagnosis.
-/

namespace IpaDiagnose

open Py (Value Dict)
open Regex (Re)

/-! ## Weights -/

/-- The double a decimal literal stands for. -/
def literal (hundredths : Nat) : ℚ := Float64.round53 (hundredths / 100)

def STATUS_WEIGHT : DiagnosisStatus → ℚ
  | .diagnosed => literal 100
  | .unknownConflictingEvidence => literal 85
  | .unknownInsufficientEvidence => literal 70
  | .transientSuspected => literal 50

def CONFIDENCE_WEIGHT : ConfidenceLevel → ℚ
  | .high => literal 100
  | .medium => literal 70
  | .low => literal 40
  | .insufficient => literal 20

/-- The lower of the severity claimed and the severity of the evidence. -/
def evidenceRank (d : Diagnosis) : Nat :=
  match d.evidenceSeverity with
  | none => d.severity.rank
  | some s => min d.severity.rank s.rank

def score (d : Diagnosis) : ℚ :=
  let r := Float64.round53 ((evidenceRank d + 1 : Nat) * STATUS_WEIGHT d.status)
  let r := Float64.round53 (r * CONFIDENCE_WEIGHT d.confidence.level)
  let c := Float64.round53 (literal 5 * (min d.confidence.corroboratingEvidenceCount 6 : Nat))
  Float64.round53 (r * Float64.round53 (1 + c))

/-- A real problem, not a benign heads-up. -/
def isRealProblem (d : Diagnosis) : Bool := Severity.error.rank ≤ d.severity.rank

/-! ## Causes by name -/

def SERVICE_PACK : List (String × String) :=
  [("dirsrv", "directory-server"), ("krb5kdc", "kerberos"), ("named", "dns"),
    ("named-pkcs11", "dns"), ("pki-tomcatd", "certificates"), ("pki_tomcatd", "certificates"),
    ("certmonger", "certificates")]

/-- The service a rule id names: what follows the prefix, up to an `@`. -/
def serviceOf (ruleId : String) : String :=
  PyStr.before (PyStr.drop ruleId SERVICE_PREFIX.toList.length) '@'

/-- A stopped service stands for the pack that depends on it. -/
def effectivePack (d : Diagnosis) : String :=
  if d.packId == PACK_ID && PyStr.startsWith d.ruleId SERVICE_PREFIX then
    (SERVICE_PACK.lookup (serviceOf d.ruleId)).getD d.packId
  else d.packId

/-- An id, or every id with a prefix. -/
inductive IdPattern where
  | exact (id : String)
  | startingWith (p : String)
deriving DecidableEq

def IdPattern.matches : IdPattern → String → Bool
  | .exact s, id => id == s
  | .startingWith s, id => PyStr.startsWith id s

def serviceId (service : String) : String := PACK_ID ++ "." ++ SERVICE_PREFIX ++ service

/-- IPA services that need the Directory Server of their host. -/
def DIRSRV_DEPENDENTS : List String :=
  ["krb5kdc", "kadmin", "httpd", "ipa-custodia", "pki-tomcatd", "pki_tomcatd",
    "ipa-dnskeysyncd", "named", "named-pkcs11"]

/-- The stopped certificate authority, in both spellings. -/
def PKI_DOWN : List IdPattern :=
  [.startingWith (serviceId "pki-tomcatd"), .startingWith (serviceId "pki_tomcatd")]

def IMPLICIT_RULE_UPSTREAMS : List (IdPattern × List IdPattern) :=
  [(.exact "kerberos.kdc-discovery-failure", [.startingWith (serviceId "dirsrv")]),
    (.exact "dns.srv-autodiscovery",
      [.exact "dns.named-service-down", .exact (serviceId "named"),
        .exact (serviceId "named-pkcs11")]),
    (.exact "certificates.certmonger-tracking-stuck", PKI_DOWN),
    (.exact "certificates.ra-agent-desync", PKI_DOWN),
    (.startingWith (serviceId "dirsrv"), [.exact "directory-server.disk-space-exhaustion"])]
  ++ DIRSRV_DEPENDENTS.map fun svc =>
    (.exact (serviceId svc), [.startingWith (serviceId "dirsrv")])

def implicitCause (d u : Diagnosis) : Bool :=
  u.explainsDownstream && IMPLICIT_RULE_UPSTREAMS.any fun row =>
    row.1.matches d.diagnosisId && row.2.any (·.matches u.diagnosisId)

/-! ## Safety nets -/

def CHECK_FAILED : String := "healthcheck-check-failed"

def UNEXPLAINED : String := "unexplained-findings"

def SAFETY_NETS : List String := [CHECK_FAILED, UNEXPLAINED]

/-- Checks whose answer comes from the service itself. -/
def CHECKS_ASKING_SERVICE : List (String × List String) := [("certmonger", ["IPACertmongerCA"])]

def isSafetyNet (d : Diagnosis) : Bool := d.packId == PACK_ID && SAFETY_NETS.contains d.ruleId

def isServiceDown (u : Diagnosis) : Bool :=
  (u.packId == PACK_ID && PyStr.startsWith u.ruleId SERVICE_PREFIX)
    || u.diagnosisId == "dns.named-service-down"

/-- Whether a stopped service explains a crashed (or unexplained) finding,
given as `source::check`. -/
def explainsSource (u : Diagnosis) (key : String) (crashed : Bool) : Bool :=
  let source := (PyStr.partition key "::").1
  let check := (PyStr.partition key "::").2
  if PyStr.startsWith source "ipahealthcheck.system.filesystemspace" then false
  -- everything in the product asks the Directory Server
  else if u.packId == PACK_ID && serviceOf u.ruleId == "dirsrv" && crashed then true
  else if PyStr.startsWith source "ipahealthcheck.meta.services" then true
  else if !crashed then
    let service := if PyStr.startsWith u.ruleId SERVICE_PREFIX then serviceOf u.ruleId else ""
    ((CHECKS_ASKING_SERVICE.lookup service).getD []).contains check
  else (packSources (effectivePack u)).any (PyStr.startsWith source)

/-! ## Demotion -/

/-- A real problem that can break other subsystems, and is backed by
evidence as severe. -/
def canCause (u : Diagnosis) : Bool :=
  isRealProblem u && u.explainsDownstream && Severity.error.rank ≤ evidenceRank u

/-- The diagnoses `d` names, by pack and then by id, as what may have
caused it. -/
def namedCauses (ds : List Diagnosis) (d : Diagnosis) : List Diagnosis :=
  let byPack := (ds.filter canCause).filter fun u =>
    d.upstreamCandidates.contains (effectivePack u) && effectivePack u != d.packId
      && !d.notCausedBy.contains (effectivePack u)
  byPack ++ ds.filter fun u =>
    implicitCause d u && isRealProblem u && !byPack.contains u
      && !d.notCausedBy.contains (effectivePack u)

/-- The sources of the findings a diagnosis cites. -/
def citedSources (sources : String → String) (d : Diagnosis) : List String :=
  (d.evidenceFor.filter (·.kind == .finding)).map fun r => sources r.evidenceId

/-- Whether a named cause may absorb `d`. -/
def absorbs (sources : String → String) (d u : Diagnosis) : Bool :=
  if isSafetyNet d then
    let crashed := d.ruleId == CHECK_FAILED
    u.status == .diagnosed && isServiceDown u && !(citedSources sources d).isEmpty
      && (citedSources sources d).all (explainsSource u · crashed)
      && (crashed || decide (evidenceRank d ≤ evidenceRank u))
  else
    u.status == .diagnosed
      || (d.status != .diagnosed && decide (evidenceRank d ≤ evidenceRank u))

def causesOf (sources : String → String) (ds : List Diagnosis) (d : Diagnosis) : List Diagnosis :=
  (namedCauses ds d).filter (absorbs sources d)

/-- What a demotion records: the packs of the causes, and their titles. -/
structure Demotion where
  packs : List String
  titles : List String

def demotion? (sources : String → String) (ds : List Diagnosis) (d : Diagnosis) :
    Option Demotion :=
  match causesOf sources ds d with
  | [] => none
  | us => some
      { packs := (us.map effectivePack).eraseDups
        titles := (us.filter fun u => u.title != d.title).map Diagnosis.title }

/-- The demotions by id, the one of the last diagnosis with an id first. -/
def demoteViaCausality (sources : String → String) (ds : List Diagnosis) :
    List (String × Demotion) :=
  (ds.filterMap fun d => (demotion? sources ds d).map (d.diagnosisId, ·)).reverse

/-! ## Priorities -/

/-- `certmonger` was stopped when it was checked, and is running now. -/
def noteCertmonger (d : Diagnosis) : Diagnosis :=
  if d.packId == PACK_ID && d.ruleId == SERVICE_PREFIX ++ "certmonger" then
    { d with
      why := d.why ++ "\n\nNote: certmonger is running now - ipa-healthcheck's certificate checks "
        ++ "started it during this run (see the note at the top). If it had been stopped on "
        ++ "purpose, stop or mask it again."
      severity := .warning }
  else d

def certmongerStarted (b : EvidenceBundle) : Bool :=
  b.sideEffects.any (PyStr.contains · "certmonger was not running")

/-- The diagnoses the correlation works on. -/
def prepared (b : EvidenceBundle) (ds : List Diagnosis) : List Diagnosis :=
  if certmongerStarted b then ds.map noteCertmonger else ds

/-- What is added to the explanation of a demoted diagnosis. -/
def demotionNote (ds : List Diagnosis) (d : Diagnosis) (m : Demotion) : String :=
  if d.status = .diagnosed then
    "\n\nLikely a downstream symptom of the " ++ PyStr.join " and " m.packs
      ++ " problem reported above."
      ++ (if isServiceDown d
            && ds.any (fun u => PyStr.contains u.diagnosisId "service-not-running-dirsrv") then
          " It does not start by itself when the Directory Server is started: once dirsrv is "
            ++ "running, run ipa-diagnose again (or verify), which then shows its own fix."
        else "")
  else
    "\n\nMay be a downstream symptom of the " ++ PyStr.join " and " m.packs
      ++ " problem reported above (not established)."

/-- A diagnosed heads-up. -/
def isDiagnosedWarning (d : Diagnosis) : Bool := d.severity == .warning && d.status == .diagnosed

/-- `a` ranks at least as high as `b`: error evidence first, then the score. -/
def ranksBefore (a b : Diagnosis × Nat) : Prop :=
  let ea := Severity.error.rank ≤ evidenceRank a.1
  let eb := Severity.error.rank ≤ evidenceRank b.1
  (ea ∧ ¬ eb) ∨ ((ea ↔ eb) ∧ score b.1 ≤ score a.1)

instance : DecidableRel ranksBefore := fun _ _ => inferInstanceAs (Decidable (_ ∨ _))

section Buckets

variable (sources : String → String) (ds : List Diagnosis)

def demotedAs (d : Diagnosis) : Option Demotion :=
  (demoteViaCausality sources ds).lookup d.diagnosisId

/-- Neither demoted nor a diagnosed warning. -/
def isRootCandidate (d : Diagnosis) : Bool :=
  (demotedAs sources ds d).isNone && !isDiagnosedWarning d

/-- The root candidates with their positions, the first one the primary
problem. -/
def rootCandidates : List (Diagnosis × Nat) :=
  (ds.zipIdx.filter fun p => isRootCandidate sources ds p.1).insertionSort ranksBefore

def primaryIndex : Option Nat := (rootCandidates sources ds).head?.map (·.2)

/-- The diagnosis at a position, as the report shows it. -/
def bucketed (p : Diagnosis × Nat) : Diagnosis :=
  match demotedAs sources ds p.1 with
  | some m =>
      { p.1 with
        priority := .relatedSymptom
        relatedToTitles := m.titles.eraseDups
        why := p.1.why ++ demotionNote ds p.1 m }
  | none =>
      if isDiagnosedWarning p.1 then { p.1 with priority := .warning }
      else if primaryIndex sources ds = some p.2 then { p.1 with priority := .primary }
      else { p.1 with priority := .secondaryIndependent }

def prioritized : List Diagnosis := ds.zipIdx.map (bucketed sources ds)

end Buckets

/-! ## Undiagnosed findings -/

def PLACEHOLDER_RE : Re :=
  .seqAll [.char '\x7b',
    .group 1 (.seq (.cls fun c => Unicode.isAsciiAlnum c && !Regex.digit c || c == '_')
      (.rept 0 40 (alnumOr "_"))),
    .char '\x7d']

/-- The message with its placeholders filled in from the keywords; of a
finding without one, the names of its fields. -/
def displayMessage (f : Finding) : String :=
  if f.message = "" then
    let names := PyStr.join ", " ((f.keywords.take 8).map fun kv => sanitizeText kv.1 40)
    if names = "" then "(no message)" else "(no message; fields: " ++ names ++ ")"
  else
    let text :=
      if PyStr.hasChar f.message '\x7b' then
        let values := (f.keywords.take 64).map fun kv => (kv.1, sanitizeText kv.2.toStr 80)
        let fill (m : Regex.Match) :=
          ((m.group? 1).bind (List.lookup · values)).getD (String.ofList m.text)
        PLACEHOLDER_RE.sub fill (PyStr.take f.message 2000)
      else f.message
    redactText (sanitizeText text 300)

/-- The `key` of a finding, if it is a text or a number other than the
name of the check. -/
def keyText (f : Finding) : Option String :=
  let key := (f.keywords.lookup "key").getD .null
  let usable := match key with
    | .str _ => true
    | .int _ => true
    | .bool _ => true
    | _ => false
  if usable && key.toStr != f.check then some (sanitizeText key.toStr 160) else none

/-- A version there is something in. -/
def healthcheckVersion (b : EvidenceBundle) : Option String :=
  (b.environment.bind (·.ipaHealthcheckVersion)).filter (· != "")

def undiagnosedFinding (b : EvidenceBundle) (f : Finding) : UndiagnosedFinding :=
  let known := CATALOG.lookup f.qualifiedCheck
  { source := sanitizeText f.source 120
    check := sanitizeText f.check 120
    severity := f.severity.value
    message := displayMessage f
    reason :=
      if isCheckCrash f then
        "The check raised an exception instead of returning a result, so it says nothing about "
          ++ "the system."
      else if known.isNone then
        "ipa-diagnose has no rule for this check, and it is not in this build's catalog of "
          ++ "upstream checks (possibly newer or custom)."
      else
        "ipa-diagnose has no rule that explains this finding; it may or may not matter."
    crashed := isCheckCrash f
    checkKnownSince := known
    ipaHealthcheckVersion := (healthcheckVersion b).map (sanitizeText · 40)
    findingId := sanitizeText f.findingId 120
    key := keyText f }

/-- Cited as evidence for some diagnosis, under an id of its own. -/
def isExplained (b : EvidenceBundle) (ds : List Diagnosis) (f : Finding) : Bool :=
  (ds.flatMap fun d => d.evidenceFor.map (·.evidenceId)).contains f.findingId
    && b.idCount f.findingId == 1

def severityWeight (severity : String) : Nat :=
  ([("CRITICAL", 4), ("ERROR", 3), ("UNKNOWN", 3), ("WARNING", 1)].lookup severity).getD 2

/-- The most severe first, then by source and check. -/
def listedBefore (u v : UndiagnosedFinding) : Prop :=
  severityWeight v.severity < severityWeight u.severity
    ∨ (severityWeight u.severity = severityWeight v.severity
      ∧ (u.source < v.source ∨ (u.source = v.source ∧ u.check ≤ v.check)))

instance : DecidableRel listedBefore := fun _ _ => inferInstanceAs (Decidable (_ ∨ _))

def undiagnosedFindings (b : EvidenceBundle) (ds : List Diagnosis) : List UndiagnosedFinding :=
  ((b.findings.filter fun f => f.severity != .success && !isExplained b ds f).map
    (undiagnosedFinding b)).insertionSort listedBefore

/-! ## Completeness -/

def HEALTHCHECK : String := "ipa-healthcheck"

def CAPABILITY_LABELS : List (String × String) :=
  [(HEALTHCHECK, "ipa-healthcheck (base health evidence)"),
    ("ipa-healthcheck-coverage", "ipa-healthcheck coverage (Directory Server and IPA checks)"),
    ("replication_agreements", "Replication agreements / RUV")]

def sanitizeErrorText (text : String) : String := sanitizeText text 300

def hintFor (collector reason : String) : String :=
  let low := PyStr.lower reason
  let mentions := PyStr.contains low
  if mentions "ldapsearch is not installed" then
    "Install the OpenLDAP client tools (dnf install openldap-clients) and run as root."
  else if mentions "not running as root" then "Run ipa-diagnose as root (sudo ipa-diagnose)."
  else if collector == HEALTHCHECK && mentions "not installed" then
    "Install ipa-healthcheck (dnf install freeipa-healthcheck)."
  else if collector == HEALTHCHECK && mentions "timed out" then
    "ipa-healthcheck did not finish in time. A stopped or unreachable DNS, LDAP or Kerberos "
      ++ "service is a common cause - check those services, then re-run."
  else if collector == HEALTHCHECK
      && (mentions "no output" || mentions "could not parse" || mentions "no usable") then
    "ipa-healthcheck produced no usable output; it normally needs root - re-run with sudo."
  else if mentions "directory manager password" then
    "ipa-diagnose never asks for the Directory Manager password; as root it reads the replica "
      ++ "update vector over the local LDAPI socket instead."
  else ""

def assessCompleteness (b : EvidenceBundle) : EvidenceCompleteness :=
  let unverified := b.collectionErrors.map fun e =>
    { capability := (CAPABILITY_LABELS.lookup e.collector).getD e.collector
      collector := e.collector
      reason := sanitizeErrorText e.message
      permissionRelated := e.permissionRelated
      hint := hintFor e.collector (sanitizeErrorText e.message) : UnverifiedCapability }
  let healthcheckOk := !b.collectionErrors.any (·.collector == HEALTHCHECK)
  let ruvError := b.collectionErrors.find? (·.collector == "replication_agreements")
  let hasRuvItems := b.items.any (·.kind == "replication_ruv")
  let noReplication := b.items.any fun i =>
    i.kind == "replication_topology"
      && ((i.data.lookup "state").getD .null).pyEq (.str "no_replication_configured")
  { level := if !healthcheckOk then .insufficient
      else if !unverified.isEmpty then .partly else .complete
    healthcheckCollected := healthcheckOk
    unverified := unverified
    ruvState := if noReplication && !hasRuvItems then .noneConfigured
      else if hasRuvItems then .verified
      else if ruvError.isSome then .notVerified else .notCollected
    ruvReason := if hasRuvItems || noReplication then none
      else ruvError.map fun e => sanitizeErrorText e.message }

def applyCompleteness (status : OverallStatus) (c : EvidenceCompleteness)
    (hasUndiagnosed : Bool) : OverallStatus :=
  if c.level = .insufficient ∧ status ∈ [.healthy, .unknown, .notFullyVerified] then .unknown
  else if status = .unknown then .notFullyVerified
  else if status ≠ .healthy then status
  else if c.level = .partly ∨ hasUndiagnosed then .notFullyVerified
  else .healthy

/-! ## The report -/

def unknownSeverityNotes (b : EvidenceBundle) : List String :=
  let notes := (b.findings.filter (·.severity == .unknown)).map fun f =>
    sanitizeText (f.qualifiedCheck ++ ": unrecognized severity "
      ++ ((f.raw.lookup "result").getD .null).repr
      ++ " - treated as ERROR-equivalent, not dropped") 300
  if 20 < notes.length then
    notes.take 20 ++ ["(+" ++ toString (notes.length - 20)
      ++ " more unrecognized severity value(s) not shown)"]
  else notes

def priorityOrder : PriorityBucket → Nat
  | .primary => 0
  | .secondaryIndependent => 1
  | .relatedSymptom => 2
  | .warning => 3
  | .informational => 4

def shownBefore (a b : Diagnosis) : Prop :=
  priorityOrder a.priority < priorityOrder b.priority
    ∨ (priorityOrder a.priority = priorityOrder b.priority ∧ score b ≤ score a)

instance : DecidableRel shownBefore := fun _ _ => inferInstanceAs (Decidable (_ ∨ _))

def overallStatus (ds : List Diagnosis) : OverallStatus :=
  if ds.isEmpty then .healthy
  else
    -- only the primary problem: an open secondary one does not bury a known primary
    let unresolved := ds.any fun d => d.priority == .primary && d.status != .diagnosed
    let max := Severity.maxOf .success (ds.map Diagnosis.severity)
    if unresolved ∧ Severity.error.rank ≤ max.rank then .unknown
    else if Severity.critical.rank ≤ max.rank then .critical
    else if Severity.error.rank ≤ max.rank then .degraded
    else if ds.any fun d => d.priority != .informational then .degraded
    else .healthy

def buildReport (now : String) (b : EvidenceBundle) (diagnoses : List Diagnosis)
    (packsEvaluated : List String) : DiagnosisReport :=
  let ds := prioritized b.findingSources (prepared b diagnoses)
  let undiagnosed := undiagnosedFindings b ds
  { generatedAt := now
    hostname := b.hostname
    overallStatus :=
      applyCompleteness (overallStatus ds) (assessCompleteness b) (!undiagnosed.isEmpty)
    diagnoses := ds.insertionSort shownBefore
    collectionErrors := b.collectionErrors.map fun e =>
      e.collector ++ ": " ++ sanitizeErrorText e.message
    packsEvaluated := packsEvaluated
    replaySource := b.replaySource
    environment := b.environment
    evidenceCompleteness := assessCompleteness b
    unclaimedWarnings := b.findings.countP fun f =>
      f.severity == .warning && !(claimedIds ds).contains f.findingId
    undiagnosedFindings := undiagnosed
    serviceStates := b.serviceStates
    sideEffects := b.sideEffects
    unknownSeverityFindings := unknownSeverityNotes b }

/-- The report on what the packs returned, with the safety net under it. -/
def runDiagnosis (now : String) (b : EvidenceBundle) (packs : List Diagnosis) : DiagnosisReport :=
  buildReport now b (packs ++ unexplainedFindingDiagnoses b packs) (allPacks.map (·.packId))

end IpaDiagnose
