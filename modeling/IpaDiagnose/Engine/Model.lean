import IpaDiagnose.Evidence.Model

/-!
# Diagnoses and reports

The contract between the diagnostic packs and everything downstream. A
`Diagnosis` carries the two checks its constructor makes: an undiagnosed
one names a next step, a diagnosed one is confident.
-/

namespace IpaDiagnose

open Py (Value Dict)

inductive DiagnosisStatus where
  | diagnosed
  | unknownInsufficientEvidence
  | unknownConflictingEvidence
  | transientSuspected
deriving DecidableEq, Repr

inductive PriorityBucket where
  | primary
  | relatedSymptom
  | secondaryIndependent
  | warning
  | informational
deriving DecidableEq, Repr

inductive RiskLevel where
  | safe
  | caution
  | highRisk
deriving DecidableEq, Repr

inductive ConfidenceLevel where
  | high
  | medium
  | low
  | insufficient
deriving DecidableEq, Repr

structure Confidence where
  level : ConfidenceLevel
  rationale : String
  corroboratingEvidenceCount : Nat := 0
  contradictingEvidenceCount : Nat := 0
deriving DecidableEq

inductive EvidenceKind where
  | finding
  | item
deriving DecidableEq, Repr

structure EvidenceRef where
  evidenceId : String
  kind : EvidenceKind
  whyRelevant : String
deriving DecidableEq

structure Action where
  description : String
  risk : RiskLevel
  command : Option String := none
  rationale : String := ""
  reference : Option String := none
deriving DecidableEq

/-- One diagnostic rule's output for one run. -/
structure Diagnosis where
  packId : String
  ruleId : String
  status : DiagnosisStatus
  title : String
  why : String
  confidence : Confidence
  severity : Severity := .warning
  evidenceFor : List EvidenceRef := []
  evidenceAgainst : List EvidenceRef := []
  impact : String := ""
  priority : PriorityBucket := .informational
  actions : List Action := []
  limitations : String := ""
  nextDiagnosticStep : Option String := none
  upstreamCandidates : List String := []
  diagnosisId : String := packId ++ "." ++ ruleId
  relatedToTitles : List String := []
  resolutionKey : Option String := none
  variant : Option String := none
  bindings : Dict := []
  evidenceSeverity : Option Severity := none
  notCausedBy : List String := []
  explainsDownstream : Bool := true
  /-- Undiagnosed: there is a step that would disambiguate. -/
  has_next_step : status ≠ .diagnosed → ∃ s, nextDiagnosticStep = some s ∧ s ≠ ""
  /-- Diagnosed: the confidence is high or medium. -/
  is_confident : status = .diagnosed →
    confidence.level = .high ∨ confidence.level = .medium
deriving DecidableEq

/-- A diagnosed finding needs no step that would disambiguate it. -/
theorem no_step_needed : DiagnosisStatus.diagnosed ≠ .diagnosed →
    ∃ s, (none : Option String) = some s ∧ s ≠ "" :=
  fun h => absurd rfl h

/-! ## Reports -/

inductive OverallStatus where
  | healthy
  | degraded
  | critical
  | unknown
  | notFullyVerified
deriving DecidableEq, Repr

structure UnverifiedCapability where
  capability : String
  collector : String
  reason : String
  permissionRelated : Bool
  hint : String
deriving DecidableEq

inductive Completeness where
  | complete
  | partly
  | insufficient
deriving DecidableEq, Repr

inductive RuvState where
  | verified
  | notVerified
  | notCollected
  | noneConfigured
deriving DecidableEq, Repr

structure EvidenceCompleteness where
  level : Completeness
  healthcheckCollected : Bool
  unverified : List UnverifiedCapability
  ruvState : RuvState
  ruvReason : Option String
deriving DecidableEq

structure UndiagnosedFinding where
  source : String
  check : String
  severity : String
  message : String
  reason : String
  crashed : Bool
  checkKnownSince : Option String
  ipaHealthcheckVersion : Option String
  findingId : String
  key : Option String
deriving DecidableEq

structure DiagnosisReport where
  generatedAt : String
  hostname : String
  overallStatus : OverallStatus
  diagnoses : List Diagnosis
  collectionErrors : List String
  packsEvaluated : List String
  replaySource : Option String
  environment : Option EnvironmentInfo
  evidenceCompleteness : EvidenceCompleteness
  unclaimedWarnings : Nat
  undiagnosedFindings : List UndiagnosedFinding
  serviceStates : List (String × String)
  sideEffects : List String
  unknownSeverityFindings : List String

end IpaDiagnose
