import IpaDiagnose.Verify.Saved

/-!
# Comparing two reports

What `verify` says of every diagnosis of the saved report, given a
fresh one: gone, still there, partly there, or not to be decided. A
diagnosis that is gone is only resolved if nothing stands in the way of
seeing it, and if the checks of the fix that was shown for it pass.
-/

namespace IpaDiagnose.Verify

open Py (Value Dict)
open Resolver (E Entry Runner Criterion Verdict Rebuilt RebuildProblem field evaluateVerify
  rebuildVerify)

variable {σ : Type}

inductive VerifyOutcome where
  | resolved
  | stillPresent
  | partiallyResolved
  | unableToVerify
  | changed
deriving DecidableEq, Repr

structure VerifyItem where
  diagnosisId : String
  title : String
  outcome : VerifyOutcome
  detail : String
deriving DecidableEq

structure VerifyResult where
  items : List VerifyItem
  newConditions : List Diagnosis
  previousGeneratedAt : Option String
  currentReport : DiagnosisReport

/-- Something found earlier is neither confirmed resolved nor in the
fresh report: the baseline must be kept. -/
def VerifyResult.keepBaseline (r : VerifyResult) : Bool :=
  r.items.any fun i => i.outcome != .resolved
    && !(r.currentReport.diagnoses.map Diagnosis.diagnosisId).contains i.diagnosisId

/-! ## What was saved -/

/-- A diagnosis kept for its fix, unless one of its id is there already. -/
def addCarried (prev : List (String × SavedDiagnosis)) (entry : Dict) :
    List (String × SavedDiagnosis) :=
  match field entry "diagnosis_id" with
  | .str id =>
      if (Assoc.keys prev).contains id then prev
      else
        match readDiagnosis entry with
        | some d => Assoc.put d.diagnosisId d prev
        | none => prev
  | _ => prev

/-- The saved and the carried diagnoses by id. -/
def SavedReport.prevById (p : SavedReport) : List (String × SavedDiagnosis) :=
  p.carriedEntries.foldl addCarried
    (Assoc.update [] (p.diagnoses.map fun d => (d.diagnosisId, d)))

/-! ## What can be seen this time -/

/-- The targeted collectors of each pack. -/
def PACK_COLLECTORS : List (String × List String) :=
  [("directory-server", ["filesystem", "journal_dirsrv"]),
    ("dns", ["dns_lookup", "journal_named"]),
    ("kerberos", ["kerberos_client", "journal_krb5kdc"]),
    ("replication", ["ldap_query", "replication_agreements"]),
    ("certificates", ["certmonger", "journal_pki"])]

def packCollectors (packId : String) : List String := (PACK_COLLECTORS.lookup packId).getD []

section Fresh

variable (current : DiagnosisReport)

/-- The collectors that reported an error. -/
def failedCollectors : List String :=
  current.collectionErrors.map fun e => PyStr.strip (PyStr.before e ':')

/-- The full set of health checks did not run. -/
def healthcheckMissing : Bool :=
  !current.evidenceCompleteness.healthcheckCollected
    || current.collectionErrors.any (PyStr.startsWith · "ipa-healthcheck-coverage")

/-- A collector of this pack failed. -/
def packGap (packId : String) : Bool :=
  packId != "" && ((failedCollectors current).any (PyStr.contains · packId)
    || (packCollectors packId).any (failedCollectors current).contains)

def crashedChecks : Bool := current.diagnoses.any fun d => d.ruleId == CHECK_FAILED

/-- The fresh diagnoses by id. -/
def currById : List (String × Diagnosis) :=
  Assoc.update [] (current.diagnoses.map fun d => (d.diagnosisId, d))

end Fresh

def isRootTier (b : PriorityBucket) : Bool := b == .primary || b == .secondaryIndependent

def ROOT_TIER_VALUES : List String := [bucketValue .primary, bucketValue .secondaryIndependent]

/-! ## One diagnosis -/

def GONE : String := "The condition that triggered this diagnosis is no longer present in fresh evidence."

/-- A line for each of the fix's own checks. -/
def verdictLine (v : Verdict) : String :=
  (match v.ok with
    | some true => "✓"
    | some false => "✗"
    | none => "?") ++ " " ++ v.text

/-- What the fix's own checks say of a diagnosis that is gone. -/
def verdictsOutcome (replay : Bool) (results : List Verdict) : VerifyOutcome × String :=
  let lines := PyStr.join "; " (results.map verdictLine)
  let own := if replay then "the fix's own checks (recorded in the replay fixture, not run now)"
    else "the fix's own checks"
  if results.isEmpty || results.any (·.ok == none) then
    (.unableToVerify, "The diagnosis is gone, but " ++ own ++ " could not all be run: " ++ lines)
  else if results.all (·.ok == some true) then
    (.resolved, "The diagnosis is gone and " ++ own ++ " pass: " ++ lines)
  else
    (.partiallyResolved,
      "The diagnosis is gone, but not every one of " ++ own ++ " passes yet: " ++ lines)

/-- The outcome for a diagnosis that is gone: without a record of a fix
it is resolved, with one its criteria are rebuilt and evaluated. -/
def fixOutcome (sha256 : String → String) (cat : List Entry) (fix : Option Dict)
    (runner : Option (Runner σ)) (s : σ) : Except E (VerifyOutcome × String) × σ :=
  match fix, runner with
  | some fix, some runner =>
      match rebuildVerify sha256 cat (.dict fix) runner s with
      | (.error e, s) => (.error e, s)
      | (.ok ⟨none, _, why⟩, s) =>
          (.ok (.unableToVerify, "The diagnosis is gone, but the fix that was shown cannot be checked: "
            ++ why ++ ". Run ipa-diagnose again."), s)
      | (.ok ⟨some _, some .changed, why⟩, s) =>
          (.ok (.changed, "The diagnosis is gone, but " ++ why ++ ". Run ipa-diagnose again."), s)
      | (.ok ⟨some criteria, _, _⟩, s) =>
          match evaluateVerify runner criteria s with
          | (.error e, s) => (.error e, s)
          | (.ok results, s) => (.ok (verdictsOutcome runner.replay results), s)
  | _, _ => (.ok (.resolved, GONE), s)

/-- A diagnosis that was found again. -/
def foundAgain (d : SavedDiagnosis) (now : Diagnosis) : VerifyOutcome × String :=
  if ROOT_TIER_VALUES.contains d.priority && !isRootTier now.priority then
    (.partiallyResolved, "Still detected, but no longer a primary problem (now "
      ++ bucketValue now.priority ++ ").")
  else if d.status == statusValue .diagnosed && now.status != .diagnosed then
    (.partiallyResolved,
      "No longer confidently diagnosed, but related symptoms are still present.")
  else (.stillPresent, "Fresh evidence still shows this condition.")

/-- What decides without the fix's own checks; nothing for a diagnosis
that is gone and can be seen to be. -/
def decided (p : SavedReport) (current : DiagnosisReport) (id : String) (d : SavedDiagnosis) :
    Option (VerifyOutcome × String) :=
  match (p.baselineProblem current).or p.baselineDamage with
  | some why => some (.unableToVerify, why)
  | none =>
      if !knownDiagnosisId id then
        some (.unableToVerify, "This version of ipa-diagnose does not produce this diagnosis any "
          ++ "more (or the saved report is damaged), so its absence proves nothing. "
          ++ "Run ipa-diagnose again.")
      else if healthcheckMissing current then
        some (.unableToVerify, "ipa-healthcheck could not run (or did not run its full set of "
          ++ "checks) this time, so nothing can be confirmed resolved.")
      else if packGap current d.packId then
        some (.unableToVerify, "Fresh evidence for this pack could not be collected this run.")
      else
        match (currById current).lookup id with
        | some now => some (foundAgain d now)
        | none =>
            if crashedChecks current then
              some (.unableToVerify, "Some ipa-healthcheck checks failed to run this time, so this "
                ++ "cannot be confirmed resolved.")
            else if p.offeredWithoutRecord.contains id then
              some (.unableToVerify, "A fix was shown for this, but the saved record needed to check "
                ++ "it is missing. Run ipa-diagnose again.")
            else none

def compareOne (sha256 : String → String) (cat : List Entry) (p : SavedReport)
    (current : DiagnosisReport) (runner : Option (Runner σ)) (id : String) (d : SavedDiagnosis)
    (s : σ) : Except E VerifyItem × σ :=
  match decided p current id d with
  | some (outcome, detail) => (.ok ⟨id, d.title, outcome, detail⟩, s)
  | none =>
      match fixOutcome sha256 cat (p.baselineFixes.lookup id) runner s with
      | (.error e, s) => (.error e, s)
      | (.ok (outcome, detail), s) => (.ok ⟨id, d.title, outcome, detail⟩, s)

def compareEach (sha256 : String → String) (cat : List Entry) (p : SavedReport)
    (current : DiagnosisReport) (runner : Option (Runner σ)) :
    List (String × SavedDiagnosis) → σ → Except E (List VerifyItem) × σ
  | [], s => (.ok [], s)
  | (id, d) :: rest, s =>
      match compareOne sha256 cat p current runner id d s with
      | (.error e, s) => (.error e, s)
      | (.ok item, s) =>
          match compareEach sha256 cat p current runner rest s with
          | (.error e, s) => (.error e, s)
          | (.ok items, s) => (.ok (item :: items), s)

/-! ## All of them -/

/-- Fixes saved, or shown, for a diagnosis that is not in the saved report. -/
def orphanIds (p : SavedReport) : List String :=
  ((Assoc.keys p.baselineFixes ++ p.offeredIds).dedup.filter fun id =>
    !(Assoc.keys p.prevById).contains id).mergeSort PyStr.le

def orphanItem (id : String) : VerifyItem :=
  { diagnosisId := savedId id
    title := savedId id
    outcome := .unableToVerify
    detail := "The saved diagnosis is damaged: a fix was saved for this, but the diagnosis itself is "
      ++ "missing. Run ipa-diagnose again." }

def newConditions (p : SavedReport) (current : DiagnosisReport) : List Diagnosis :=
  ((currById current).filter fun d =>
    !(Assoc.keys p.prevById).contains d.1 && isRootTier d.2.priority).map (·.2)

def compare (sha256 : String → String) (cat : List Entry) (previous : Option SavedReport)
    (current : DiagnosisReport) (runner : Option (Runner σ)) (s : σ) :
    Except E VerifyResult × σ :=
  match previous with
  | none => (.ok ⟨[], [], none, current⟩, s)
  | some p =>
      match compareEach sha256 cat p current runner p.prevById s with
      | (.error e, s) => (.error e, s)
      | (.ok items, s) =>
          (.ok ⟨items ++ (orphanIds p).map orphanItem, newConditions p current,
            some p.generatedAt, current⟩, s)

end IpaDiagnose.Verify
