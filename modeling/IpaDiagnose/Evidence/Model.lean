import IpaDiagnose.Lib.PyValue

/-!
# Evidence

Findings of the health check, items of the targeted collectors, and the
bundle that holds everything collected for one run.
-/

namespace IpaDiagnose

open Py (Value Dict)

/-! ## Severity -/

inductive Severity where
  | success
  | warning
  | error
  | critical
  | unknown
deriving DecidableEq, Repr

namespace Severity

def value : Severity → String
  | .success => "SUCCESS"
  | .warning => "WARNING"
  | .error => "ERROR"
  | .critical => "CRITICAL"
  | .unknown => "UNKNOWN"

/-- An unrecognized severity ranks with `error`: neither benign nor critical. -/
def rank : Severity → Nat
  | .success => 0
  | .warning => 1
  | .error => 2
  | .unknown => 2
  | .critical => 3

/-- The first of the severities with the highest rank. -/
def maxOf (default : Severity) : List Severity → Severity
  | [] => default
  | s :: ss => ss.foldl (fun m s => if m.rank < s.rank then s else m) s

theorem rank_eq_zero {s : Severity} : s.rank = 0 ↔ s = .success := by
  cases s <;> simp [rank]

end Severity

/-! ## Findings and items -/

structure Finding where
  findingId : String
  source : String
  check : String
  severity : Severity
  message : String
  keywords : Dict
  raw : Dict
deriving DecidableEq

namespace Finding

def qualifiedCheck (f : Finding) : String := f.source ++ "." ++ f.check

/-- The key the causality test works with: `source::check`. -/
def sourceKey (f : Finding) : String := f.source ++ "::" ++ f.check

end Finding

structure EvidenceItem where
  itemId : String
  kind : String
  data : Dict
deriving DecidableEq

structure CollectionError where
  collector : String
  message : String
  permissionRelated : Bool
deriving DecidableEq

structure EnvironmentInfo where
  distro : Option String
  distroVersion : Option String
  pythonVersion : Option String
  freeipaVersion : Option String
  ipaHealthcheckVersion : Option String
  directoryServerVersion : Option String
  detectedLive : Bool
deriving DecidableEq

structure EvidenceBundle where
  hostname : String
  findings : List Finding
  items : List EvidenceItem
  collectionErrors : List CollectionError
  environment : Option EnvironmentInfo
  replaySource : Option String
  serviceStates : List (String × String)
  sideEffects : List String

namespace EvidenceBundle

/-- How many findings carry an id. -/
def idCount (b : EvidenceBundle) (id : String) : Nat :=
  b.findings.countP fun f => f.findingId == id

/-- The `finding id ↦ source::check` map: of several findings with one id
the last one is kept. -/
def findingSources (b : EvidenceBundle) (id : String) : String :=
  ((b.findings.reverse.find? fun f => f.findingId == id).map Finding.sourceKey).getD ""

end EvidenceBundle

end IpaDiagnose
