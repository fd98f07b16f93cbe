import IpaDiagnose.Resolution.Checks
import IpaDiagnose.TextSafe

/-!
# Plans

A plan is a list of steps and bounded templates. A step names one check,
what it requires of earlier steps, and callables that gate it, classify
its answer and may stop the run. Callables are functions of the context
they are given; a callable that raises is an error in `Except`.
-/

namespace IpaDiagnose.Planner

open Py (Value Dict Exc)

def MAX_STEPS : Nat := 48

def MAX_DEPTH : Nat := 12

def MAX_FANOUT : Nat := 10

def MAX_RETRIES : Int := 1

def MAX_INSTANCES : Int := 16

def HARD_MAX_STEPS : Nat := 200

def NOT_RUN_ON_PURPOSE : String := "not run on purpose:"

inductive Outcome where
  | pass
  | warn
  | fail
  | unknown
  | skipped
deriving DecidableEq, Repr

def Outcome.value : Outcome → String
  | .pass => "PASS"
  | .warn => "WARN"
  | .fail => "FAIL"
  | .unknown => "UNKNOWN"
  | .skipped => "SKIPPED"

/-- The plan is refused, with a message. -/
structure PlanError where
  message : String
deriving DecidableEq, Repr

abbrev E := Exc PlanError

/-- What a gate, a classifier or a stop rule may raise without ending the
run; a `PlanError` is a value error. -/
def caught : E → Bool
  | .typeError | .valueError | .attributeError | .keyError | .overflowError | .indexError => true
  | .own _ => true
  | .keyboardInterrupt | .other => false

/-! ## Records and the context -/

structure Record where
  stepId : String
  capability : String
  check : String
  title : String
  why : String
  outcome : Outcome
  summary : String := ""
  selectedBecause : String := ""
  skipReason : String := ""
  params : Dict := []
  command : String := ""
  seconds : ℚ := 0
  collectedAt : Option String := none
  source : String := ""
  status : String := ""
  reused : Bool := false
  sideEffects : String := "none"
  privilege : String := "any"
  facts : Dict := []
  fields : Dict := []
  attempts : Nat := 0
  blockedBy : Option String := none
  subject : Option String := none
  template : Option String := none
  baseStep : Option String := none
deriving DecidableEq

/-- What gates and classifiers may read: the inputs and the records so
far, newest first. In a template the ids of its own steps (`locals`)
mean the instances of the subject. -/
structure Context where
  inputs : Dict
  isRoot : Bool
  records : List Record
  subject : Option String := none
  item : Dict := []
  locals : List String := []

namespace Context

def key (c : Context) (stepId : String) : String :=
  if c.locals.contains stepId then stepId ++ "@" ++ c.subject.getD "" else stepId

def find (c : Context) (stepId : String) : Option Record :=
  c.records.find? fun r => r.stepId == c.key stepId

def outcome (c : Context) (stepId : String) : Option Outcome := (c.find stepId).map Record.outcome

def ran (c : Context) (stepId : String) : Bool :=
  match c.find stepId with
  | some r => r.outcome != .skipped
  | none => false

/-- A fact or a field of a step that ran. -/
def fact (c : Context) (ref : String) (default : Value := .null) : Value :=
  match c.find (PyStr.rpartition ref '.').1 with
  | none => default
  | some r =>
      if r.outcome = .skipped then default
      else
        match r.facts.lookup (PyStr.rpartition ref '.').2 with
        | some v => v
        | none => (r.fields.lookup (PyStr.rpartition ref '.').2).getD default

def input (c : Context) (name : String) (default : Value := .null) : Value :=
  (c.inputs.lookup name).getD default

/-- The context once a record is under way. -/
def withRecord (c : Context) (r : Record) : Context := { c with records := r :: c.records }

end Context

/-! ## Steps -/

structure Req where
  step : String
  accept : List Outcome := [.pass, .warn]

structure Classified where
  outcome : Outcome
  summary : String
  facts : Dict := []

/-- A parameter: a literal, or a tuple that refers to a fact, an input or
the item. -/
inductive Param where
  | lit (v : Value)
  | tuple (vs : List Value)

def Param.repr : Param → String
  | .lit v => v.repr
  | .tuple [v] => "(" ++ v.repr ++ ",)"
  | .tuple vs => "(" ++ PyStr.join ", " (vs.map Value.repr) ++ ")"

abbrev Gate := Context → Except E (Bool × String)

structure Step where
  stepId : String
  capability : String
  check : String
  title : String
  why : String
  params : List (String × Param) := []
  requires : List Req := []
  after : List String := []
  when : Option Gate := none
  classify : Option (CheckResult → Context → Except E Classified) := none
  stop : Option (Context → Except E (Option String)) := none
  needsRoot : Bool := false
  applies : Option Gate := none
  retries : Int := 0
  stopSubject : Option (Context → Except E (Option String)) := none

/-- A bounded template: its steps run once for each subject an earlier
step listed. -/
structure ForEach where
  templateId : String
  source : String
  subjectType : String
  steps : List Step
  maxInstances : Int
  title : String := ""
  completeFact : Option String := none
  subjectSeconds : Option ℚ := none

inductive PlanItem where
  | step (s : Step)
  | forEach (t : ForEach)

/-- The steps an item is made of. -/
def PlanItem.steps : PlanItem → List Step
  | .step s => [s]
  | .forEach t => t.steps

/-- The step a reference `step.field` names. -/
def refStep (ref : String) : String := (PyStr.rpartition ref '.').1

def deps (s : Step) : List String := s.requires.map Req.step ++ s.after

/-! ## What a run returns -/

inductive EnumStatus where
  | complete
  | partly
  | failed
  | notAsked
deriving DecidableEq, Repr

structure Enumeration where
  source : String
  status : EnumStatus
  subjects : List String := []
  dropped : List String := []
  rejected : List String := []
  reason : String := ""
  budget : Int
  unfinished : List String := []
deriving DecidableEq

structure Trace where
  records : List Record
  stopReason : String
  startedAt : String
  seconds : ℚ
  bounds : Dict
  checksRun : Int
  checksReused : Nat
  cancelled : Bool
  enumerations : List (String × Enumeration)

def Trace.get (t : Trace) (stepId : String) : Option Record :=
  t.records.find? fun r => r.stepId == stepId

/-- The record of a template's step for one subject. -/
def Trace.getFor (t : Trace) (stepId subject : String) : Option Record :=
  t.records.find? fun r => r.baseStep == some stepId && r.subject == some subject

end IpaDiagnose.Planner
