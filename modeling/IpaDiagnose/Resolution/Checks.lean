import IpaDiagnose.Resolution.Types

/-!
# Read-only checks

What the planner and the resolution engine know of a check: the
parameters it takes and their types, what it needs, and the fields a
successful answer carries.
-/

namespace IpaDiagnose

open Py (Value Dict)

def OK : String := "OK"

def FAILED : String := "FAILED"

def NOT_RUN : String := "NOT_RUN"

def DENIED : String := "DENIED"

structure CheckResult where
  checkId : String
  params : Dict
  status : String
  fields : Dict := []
  display : String := ""
  command : String := ""
deriving DecidableEq

def CheckResult.ok (r : CheckResult) : Bool := r.status == OK

structure CheckSpec where
  checkId : String
  /-- Parameter name and type name. -/
  params : List (String × String)
  describe : String
  privilege : String := "any"
  sideEffects : String := "none"
  evidence : List String := []
deriving DecidableEq

abbrev Registry := List (String × CheckSpec)

end IpaDiagnose
