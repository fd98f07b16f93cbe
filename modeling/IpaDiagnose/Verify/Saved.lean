import IpaDiagnose.Engine.Correlate
import IpaDiagnose.Lib.Assoc
import IpaDiagnose.Resolution.Criteria

/-!
# The saved report

A run leaves its report in a state file, and `verify` compares the next
one with it. The file is not trusted: it may be missing, unreadable or
edited by hand. Here is what is written, what is read back of it, and
what of it can be relied on.

Writing a document as JSON and reading it again gives it back, so a
file is the document in it.
-/

namespace IpaDiagnose.Verify

open Py (Value Dict)
open Regex (Re)
open Resolver (Baseline Resolution ResolutionStatus field)

/-! ## Writing -/

/-- A report with the fixes found for its diagnoses (by diagnosis id),
and with what is kept of earlier ones. -/
structure ResolvedReport extends DiagnosisReport where
  resolutions : List (String × Resolution) := []
  carriedFixes : List Dict := []
  carriedDiagnoses : List Dict := []

def statusValue : DiagnosisStatus → String
  | .diagnosed => "DIAGNOSED"
  | .unknownInsufficientEvidence => "UNKNOWN_INSUFFICIENT_EVIDENCE"
  | .unknownConflictingEvidence => "UNKNOWN_CONFLICTING_EVIDENCE"
  | .transientSuspected => "TRANSIENT_SUSPECTED"

def bucketValue : PriorityBucket → String
  | .primary => "PRIMARY_PROBLEM"
  | .relatedSymptom => "RELATED_SYMPTOM"
  | .secondaryIndependent => "SECONDARY_INDEPENDENT_PROBLEM"
  | .warning => "WARNING"
  | .informational => "INFORMATIONAL"

def resolutionStatusValue : ResolutionStatus → String
  | .offered => "OFFERED"
  | .withheld => "WITHHELD"
  | .none => "NONE"

def diagnosisToDict (d : Diagnosis) : Dict :=
  [("diagnosis_id", .str d.diagnosisId), ("pack_id", .str d.packId),
    ("status", .str (statusValue d.status)), ("priority", .str (bucketValue d.priority)),
    ("title", .str d.title)]

def resolutionToDict (r : Resolution) : Dict :=
  [("diagnosis_id", .str r.diagnosisId), ("status", .str (resolutionStatusValue r.status))]

/-- The record of a fix that was shown. -/
def fixRecord (b : Baseline) (diagnosisId : String) : Dict :=
  [("procedure_id", .str b.procedureId), ("procedure_digest", .str b.procedureDigest),
    ("bindings", .dict b.bindings), ("criteria_digest", .str b.criteriaDigest),
    ("diagnosis_id", .str diagnosisId)]

def shownFix (r : Resolution) : Option Dict :=
  if r.status = .offered then r.baseline.map (fixRecord · r.diagnosisId) else none

def fixesToSave (r : ResolvedReport) : List Dict :=
  (r.resolutions.map (·.2)).filterMap shownFix ++ r.carriedFixes

def dicts (ds : List Dict) : Value := .list (ds.map Value.dict)

/-- What `verify` may rely on later. -/
def v2ToDict (r : ResolvedReport) : Dict :=
  [("resolutions", dicts (r.resolutions.map fun x => resolutionToDict x.2)),
    ("verify_baseline", .dict [("schema", .int 1), ("fixes", dicts (fixesToSave r))]),
    ("carried_diagnoses", dicts r.carriedDiagnoses)]

def optStr : Option String → Value
  | some s => .str s
  | none => .null

def reportToDict (r : ResolvedReport) : Dict :=
  [("generated_at", .str r.generatedAt), ("hostname", .str r.hostname),
    ("replay_source", optStr r.replaySource),
    ("diagnoses", dicts (r.diagnoses.map diagnosisToDict)),
    ("report_schema_version", .int 2), ("v2", .dict (v2ToDict r))]

/-! ## Reading -/

/-- The state file: not there, there but not to be trusted or no JSON, or a document. -/
inductive StateFile where
  | absent
  | unreadable
  | document (v : Value)
deriving DecidableEq

def saveReport (r : ResolvedReport) : StateFile := .document (.dict (reportToDict r))

/-- What is read of a saved diagnosis. -/
structure SavedDiagnosis where
  diagnosisId : String
  title : String
  packId : String
  priority : String
  status : String
deriving DecidableEq

def ID_LIMIT : Nat := 160

def savedId (id : String) : String := sanitizeText id ID_LIMIT

def textOr (default : String) : Value → String
  | .str s => s
  | _ => default

/-- An entry whose id is a text; a value of another type never reaches a comparison. -/
def readDiagnosis (d : Dict) : Option SavedDiagnosis :=
  match field d "diagnosis_id" with
  | .str id => some
      { diagnosisId := savedId id
        title := match field d "title" with
          | .str t => sanitizeText t ID_LIMIT
          | _ => savedId id
        packId := textOr "" (field d "pack_id")
        priority := textOr "" (field d "priority")
        status := textOr "" (field d "status") }
  | _ => none

def dictsOf : List Value → List Dict := List.filterMap fun v =>
  match v with
  | .dict d => some d
  | _ => none

/-- A report read from the state file. `v2` is none if the key is missing. -/
structure SavedReport where
  generatedAt : String
  hostname : Value
  replaySource : Value
  schemaVersion : Value
  v2 : Option Value
  diagnoses : List SavedDiagnosis
deriving DecidableEq

def readReport : Value → Option SavedReport
  | .dict data =>
      match (data.lookup "diagnoses").getD (.list []) with
      | .list ds => some
          { generatedAt := textOr "an unknown time" (field data "generated_at")
            hostname := field data "hostname"
            replaySource := field data "replay_source"
            schemaVersion := field data "report_schema_version"
            v2 := data.lookup "v2"
            diagnoses := (dictsOf ds).filterMap readDiagnosis }
      | _ => none
  | _ => none

/-- The saved diagnosis exists but cannot be read. -/
structure UnreadableBaseline where

def loadPreviousReport (file : StateFile) (strict : Bool) :
    Except UnreadableBaseline (Option SavedReport) :=
  match file with
  | .absent => .ok none
  | .unreadable => if strict then .error ⟨⟩ else .ok none
  | .document v =>
      match readReport v with
      | some r => .ok (some r)
      | none => if strict then .error ⟨⟩ else .ok none

/-! ## What the report says about fixes -/

/-- A run from a fixture. -/
def isReplay (current : DiagnosisReport) : Bool := current.replaySource.any (· != "")

namespace SavedReport

variable (p : SavedReport)

/-- The part added in 1.0, if it has the right shape. -/
def extra : Dict :=
  match p.v2 with
  | some (.dict d) => d
  | _ => []

def listIn (d : Dict) (key : String) : List Value :=
  match field d key with
  | .list vs => vs
  | _ => []

def verifyBaseline : Dict :=
  match field p.extra "verify_baseline" with
  | .dict d => d
  | _ => []

/-- A value under its `diagnosis_id`, if that is a text. -/
def byDiagnosis (d : Dict) : Option (String × Dict) :=
  match field d "diagnosis_id" with
  | .str id => some (id, d)
  | _ => none

/-- The fix records by diagnosis id; of several for one id the last. -/
def baselineFixes : List (String × Dict) :=
  Assoc.update [] ((dictsOf (listIn p.verifyBaseline "fixes")).filterMap byDiagnosis)

def carriedEntries : List Dict := dictsOf (listIn p.extra "carried_diagnoses")

/-- Ids of the fixes the report showed. -/
def offeredIds : List String :=
  ((dictsOf (listIn p.extra "resolutions")).filter fun r =>
    (field r "status").pyEq (.str "OFFERED")).filterMap fun r => (byDiagnosis r).map (·.1)

/-- Fixes that were shown, but have no record. -/
def offeredWithoutRecord : List String :=
  p.offeredIds.filter fun id => !(Assoc.keys p.baselineFixes).contains id

def DATA_DAMAGED : String :=
  "The saved diagnosis is damaged (its verification data is missing or malformed). Run ipa-diagnose again."

def HOST_DAMAGED : String :=
  "The saved diagnosis is damaged (it does not say which host it is from). Run ipa-diagnose again."

/-- A report of the first version: it has no verification data. -/
def isFirstVersion : Bool := !p.schemaVersion.pyEq (.int 2) && p.v2.isNone

/-- The verification data has the shape this version writes. -/
def baselineWellFormed : Bool :=
  match p.v2 with
  | some (.dict v2) =>
      match field v2 "verify_baseline" with
      | .dict base => (field base "schema").pyEq (.int 1) && (field base "fixes").isList
      | _ => false
  | _ => false

def namesHost : Bool :=
  match p.hostname with
  | .str h => PyStr.strip h != ""
  | _ => false

/-- Why the report cannot be relied on, if it cannot. -/
def baselineDamage : Option String :=
  if p.isFirstVersion then none
  else if !p.baselineWellFormed then some DATA_DAMAGED
  else if !p.namesHost then some HOST_DAMAGED
  else none

/-- The report names another host; an unknown name is not compared. -/
def otherHost (current : DiagnosisReport) : Option String :=
  match p.hostname with
  | .str h => if h ≠ "" ∧ current.hostname ≠ "" ∧ h ≠ current.hostname then some h else none
  | _ => none

/-- Why the report is no baseline for this run: another host, another mode. -/
def baselineProblem (current : DiagnosisReport) : Option String :=
  match p.otherHost current with
  | some h => some ("The saved diagnosis is from host " ++ sanitizeText h 80 ++ ", not this host ("
      ++ sanitizeText current.hostname 80 ++ "). Run ipa-diagnose here first.")
  | none =>
      if p.replaySource.truthy != isReplay current then
        some ("The saved diagnosis came from "
          ++ (if p.replaySource.truthy then "a replay fixture" else "a live run")
          ++ ", but this run is " ++ (if isReplay current then "a replay" else "live")
          ++ ". Run ipa-diagnose again.")
      else none

end SavedReport

/-! ## Known diagnoses -/

def SERVICE_NAME_RE : Re := .seq (alnumOr "_") (.rept 0 80 (alnumOr "_.@-"))

/-- The ids of the rules and of the safety net. -/
def ruleIds : List String :=
  (allPacks.flatMap fun p => p.rules.map fun r => p.packId ++ "." ++ r.ruleId)
    ++ [PACK_ID ++ "." ++ CHECK_FAILED, PACK_ID ++ "." ++ UNEXPLAINED]

/-- A diagnosis this version can produce, so that its absence means something. -/
def knownDiagnosisId (id : String) : Bool :=
  ruleIds.contains id
    || (PyStr.startsWith id (serviceId "")
      && SERVICE_NAME_RE.fullmatch (PyStr.drop id (serviceId "").toList.length))

end IpaDiagnose.Verify
