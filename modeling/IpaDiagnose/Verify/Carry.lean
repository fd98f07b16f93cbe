import IpaDiagnose.Engine.Causality
import IpaDiagnose.Lib.Journal
import IpaDiagnose.Verify.Compare

/-!
# What a run leaves for the next one

A run saves its report as the baseline of a later `verify`. A fix that
was shown before and is not confirmed yet is carried into it, together
with the diagnosis it was shown for. A plain run always saves; `verify`
keeps the old file while something in it is neither confirmed resolved
nor found again.
-/

namespace IpaDiagnose.Verify

open Py (Value Dict)
open Resolver (E Entry Runner Resolution Verdict field evaluateVerify rebuildVerify
  resolveDiagnosis)

variable {σ : Type}

/-! ## Fixes to carry -/

/-- The fix of a record can be checked, and its checks do not all pass. -/
def stillUnfixed (sha256 : String → String) (cat : List Entry) (fix : Dict) (runner : Runner σ)
    (s : σ) : Except E Bool × σ :=
  match rebuildVerify sha256 cat (.dict fix) runner s with
  | (.error e, s) => (.error e, s)
  | (.ok ⟨some criteria, none, _⟩, s) =>
      match evaluateVerify runner criteria s with
      | (.error e, s) => (.error e, s)
      | (.ok results, s) => (.ok (results.any (·.ok != some true)), s)
  | (.ok _, s) => (.ok false, s)

def shownNow (r : ResolvedReport) : List String :=
  (r.resolutions.filter fun x => x.2.status == .offered).map (·.1)

def freshIds (r : DiagnosisReport) : List String := r.diagnoses.map Diagnosis.diagnosisId

/-- Of the records, those not shown again and not confirmed; one whose
diagnosis is gone only while its checks still fail. -/
def keepFixes (sha256 : String → String) (cat : List Entry) (skip fresh : List String)
    (runner : Runner σ) : List (String × Dict) → σ → Except E (List Dict) × σ
  | [], s => (.ok [], s)
  | (id, fix) :: rest, s =>
      if skip.contains id then keepFixes sha256 cat skip fresh runner rest s
      else if fresh.contains id then
        match keepFixes sha256 cat skip fresh runner rest s with
        | (.error e, s) => (.error e, s)
        | (.ok kept, s) => (.ok (fix :: kept), s)
      else
        match stillUnfixed sha256 cat fix runner s with
        | (.error e, s) => (.error e, s)
        | (.ok false, s) => keepFixes sha256 cat skip fresh runner rest s
        | (.ok true, s) =>
            match keepFixes sha256 cat skip fresh runner rest s with
            | (.error e, s) => (.error e, s)
            | (.ok kept, s) => (.ok (fix :: kept), s)

/-- Only from a usable baseline of this host and mode. -/
def carryForwardFixes (sha256 : String → String) (cat : List Entry)
    (previous : Option SavedReport) (r : ResolvedReport) (confirmed : List String)
    (runner : Runner σ) (s : σ) : Except E (List Dict) × σ :=
  match previous with
  | none => (.ok [], s)
  | some p =>
      if ((p.baselineProblem r.toDiagnosisReport).or p.baselineDamage).isSome then (.ok [], s)
      else
        keepFixes sha256 cat (shownNow r ++ confirmed) (freshIds r.toDiagnosisReport) runner
          p.baselineFixes s

/-! ## Diagnoses to carry -/

def SavedDiagnosis.toDict (d : SavedDiagnosis) : Dict :=
  [("diagnosis_id", .str d.diagnosisId), ("title", .str d.title), ("pack_id", .str d.packId),
    ("priority", .str d.priority), ("status", .str d.status)]

/-- The first entry for each of some ids. -/
def entriesFor (wanted : List String) : List String → List Dict → List Dict
  | _, [] => []
  | seen, d :: ds =>
      match field d "diagnosis_id" with
      | .str id =>
          if wanted.contains id && !seen.contains id then d :: entriesFor wanted (id :: seen) ds
          else entriesFor wanted seen ds
      | _ => entriesFor wanted seen ds

def recordIds (fixes : List Dict) : List String :=
  fixes.filterMap fun f => (SavedReport.byDiagnosis f).map (·.1)

/-- The saved entries of carried fixes whose diagnosis is gone. -/
def carriedDiagnoses (previous : Option SavedReport) (r : DiagnosisReport) (carried : List Dict) :
    List Dict :=
  match previous with
  | none => []
  | some p =>
      entriesFor ((recordIds carried).filter fun id => !(freshIds r).contains id) []
        (p.diagnoses.map SavedDiagnosis.toDict ++ p.carriedEntries)

/-! ## The commands -/

def previousOf (file : StateFile) : Option SavedReport :=
  match loadPreviousReport file false with
  | .ok p => p
  | .error _ => none

/-- Save a report as the new baseline; a run without the health check leaves the last one. -/
def saveBaseline (sha256 : String → String) (cat : List Entry) (file : StateFile)
    (r : ResolvedReport) (confirmed : List String) (runner : Runner σ) (s : σ) :
    Except E StateFile × σ :=
  if r.evidenceCompleteness.healthcheckCollected then
    match carryForwardFixes sha256 cat (previousOf file) r confirmed runner s with
    | (.error e, s) => (.error e, s)
    | (.ok fixes, s) =>
        (.ok (saveReport
          { r with
            carriedFixes := fixes
            carriedDiagnoses :=
              carriedDiagnoses (previousOf file) r.toDiagnosisReport fixes }), s)
  else (.ok file, s)

def confirmedIds (result : VerifyResult) : List String :=
  (result.items.filter (·.outcome == .resolved)).map VerifyItem.diagnosisId

/-- `verify`: nothing to compare with if the file cannot be read. -/
def cmdVerify (sha256 : String → String) (cat : List Entry) (file : StateFile)
    (r : ResolvedReport) (runner : Runner σ) (s : σ) :
    Except E (Option VerifyResult × StateFile) × σ :=
  match loadPreviousReport file true with
  | .error _ => (.ok (none, file), s)
  | .ok previous =>
      match compare sha256 cat previous r.toDiagnosisReport (some runner) s with
      | (.error e, s) => (.error e, s)
      | (.ok result, s) =>
          if result.keepBaseline then (.ok (some result, file), s)
          else
            match saveBaseline sha256 cat file r (confirmedIds result) runner s with
            | (.error e, s) => (.error e, s)
            | (.ok file, s) => (.ok (some result, file), s)

/-! ## Runs -/

/-- What the resolver made of a diagnosis, or that it failed. -/
def ResolvesTo (sha256 : String → String) (cat : List Entry) (env : Option EnvironmentInfo)
    (runner : Runner σ) (d : Diagnosis) (r : Resolution) : Prop :=
  (∃ s s', resolveDiagnosis sha256 cat d env runner s = .ok (some r, s'))
    ∨ (r.diagnosisId = d.diagnosisId ∧ r.status = .withheld ∧ r.baseline = none)

/-- One run: its evidence, what the packs make of it, its checks, and
the fixes found with them (by diagnosis id, the last one of an id). -/
structure Run (sha256 : String → String) (cat : List Entry) (σ : Type) where
  now : String
  bundle : EvidenceBundle
  packs : List Diagnosis
  runner : Runner σ
  /-- What a rejected catalogue adds to the errors. -/
  catalogueError : Option String
  found : List (Diagnosis × Resolution)
  emitted : ∀ d ∈ packs, PackEmits d
  resolved : ∀ x ∈ found, x.1 ∈ (runDiagnosis now bundle packs).diagnoses
    ∧ ResolvesTo sha256 cat bundle.environment runner x.1 x.2

namespace Run

variable {sha256 : String → String} {cat : List Entry} (run : Run sha256 cat σ)

def diagnosisReport : DiagnosisReport :=
  let r := runDiagnosis run.now run.bundle run.packs
  { r with collectionErrors := r.collectionErrors ++ run.catalogueError.toList.map (sanitizeText · 300) }

def report : ResolvedReport :=
  { toDiagnosisReport := run.diagnosisReport
    resolutions := Assoc.update [] (run.found.map fun x => (x.1.diagnosisId, x.2)) }

/-- The run showed a fix for this diagnosis. -/
def Shows (id : String) : Prop := id ∈ shownNow run.report

end Run

/-- What can happen to the state file. A file that cannot be written stays as it was. -/
inductive Event (sha256 : String → String) (cat : List Entry) (σ : Type) where
  | diagnose (run : Run sha256 cat σ)
  | verify (run : Run sha256 cat σ) (result : Option VerifyResult) (saved : Bool)
  | unwritable (run : Run sha256 cat σ)

namespace Event

variable {sha256 : String → String} {cat : List Entry}

def run : Event sha256 cat σ → Run sha256 cat σ
  | .diagnose run => run
  | .verify run _ _ => run
  | .unwritable run => run

/-- The report of the run became the baseline. -/
def Saves : Event sha256 cat σ → Prop
  | .diagnose _ => True
  | .verify _ _ saved => saved = true
  | .unwritable _ => False

end Event

inductive Step (sha256 : String → String) (cat : List Entry) :
    StateFile → Event sha256 cat σ → StateFile → Prop where
  | diagnose {file file' : StateFile} {run : Run sha256 cat σ} {s s' : σ}
      (h : saveBaseline sha256 cat file run.report [] run.runner s = (.ok file', s')) :
      Step sha256 cat file (.diagnose run) file'
  | verify {file file' : StateFile} {run : Run sha256 cat σ} {result : Option VerifyResult}
      {s s' : σ} (h : cmdVerify sha256 cat file run.report run.runner s = (.ok (result, file'), s')) :
      Step sha256 cat file
        (.verify run result (result.any fun r => !r.keepBaseline)) file'
  | unwritable {file : StateFile} {run : Run sha256 cat σ} :
      Step sha256 cat file (.unwritable run) file

end IpaDiagnose.Verify
