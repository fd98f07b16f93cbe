import Mathlib.Data.List.Sort
import Mathlib.Data.String.Basic
import IpaDiagnose.Planner.Validate

/-!
# Running a plan

One ordered pass over a plan. The runner of checks is a state machine of
its own that answers or raises; the clock and the calendar are streams of
readings. `Visit` keeps, next to each record, what the step saw when it
was visited: it is history that the run itself never reads.
-/

namespace IpaDiagnose.Planner

open Py (Value Dict Exc)

/-- Why a visit ended the run: a shared budget, or the operator. -/
inductive Halt where
  | steps
  | time
  | cancelled
deriving DecidableEq, Repr

/-- What a run is given, besides the plan. -/
structure Env (σ : Type) where
  run : σ → String → Dict → Bool → Except E CheckResult × σ
  runs : σ → Nat
  replay : Bool
  clock : Nat → ℚ
  utc : Nat → String
  registry : Registry
  inputs : Dict
  isRoot : Bool
  maxSeconds : ℚ
  maxSteps : Nat
  privilegeHint : String

/-- The view of a step when it was visited, its own record under way, and
the record it left. -/
structure Visit where
  step : Step
  view : Context
  record : Record
  stopBefore : String
  stopAfter : String
  halted : Option Halt

structure RunState (σ : Type) where
  runner : σ
  ticks : Nat
  stamps : Nat
  executed : Nat
  stopReason : String
  cancelled : Bool
  /-- Newest first. -/
  visits : List Visit
  enumerations : List (String × Enumeration)

namespace RunState

variable {σ : Type}

def records (st : RunState σ) : List Record := st.visits.map Visit.record

def context (env : Env σ) (st : RunState σ) : Context :=
  { inputs := env.inputs, isRoot := env.isRoot, records := st.records }

end RunState

variable {σ : Type}

/-! ## Callables -/

def UNUSABLE : String := "the evidence this decision needs has an unexpected type or value"

/-- A gate that cannot read the evidence it needs does not run its step. -/
def safeGate (fn : Option Gate) (ctx : Context) : Except E (Bool × String) :=
  match fn with
  | none => .ok (true, "")
  | some fn =>
      match fn ctx with
      | .ok r => .ok r
      | .error e => if caught e then .ok (false, UNUSABLE) else .error e

def safeStop (fn : Option (Context → Except E (Option String))) (ctx : Context) :
    Except E (Option String) :=
  match fn with
  | none => .ok none
  | some fn =>
      match fn ctx with
      | .ok r => .ok r
      | .error e => if caught e then .ok none else .error e

def defaultClassify (res : CheckResult) (_ : Context) : Except E Classified :=
  .ok { outcome := if res.ok then .pass else .unknown, summary := res.display }

/-! ## Parameters -/

/-- The value a reference has in a context. -/
def refValue (ctx : Context) (kind ref : Value) : Except E Value :=
  if kind.pyEq (.str "fact") then
    match ref with
    | .str r => .ok (ctx.fact r)
    | _ => .error .attributeError
  else if kind.pyEq (.str "item") then do
    let v ← Py.lookupKey ctx.item ref
    pure (v.getD .null)
  else do
    let v ← Py.lookupKey ctx.inputs ref
    pure (v.getD .null)

/-- All parameters, or why there is no value for one. -/
def resolveParams (ctx : Context) : List (String × Param) → Except E (Except String Dict)
  | [] => .ok (.ok [])
  | (k, .lit v) :: ps => do
      let rest ← resolveParams ctx ps
      pure (rest.map ((k, v) :: ·))
  | (k, .tuple (kind :: ref :: _)) :: ps => do
      let v ← refValue ctx kind ref
      if v.pyEq .null || v.pyEq (.str "") then
        pure (.error ("no value for " ++ k ++ " (" ++ ref.toStr ++ " is unknown)"))
      else
        let rest ← resolveParams ctx ps
        pure (rest.map ((k, v) :: ·))
  | (_, .tuple _) :: _ => .error .indexError

/-! ## Admission -/

/-- The first requirement without an accepted outcome. -/
def blocked? (step : Step) (ctx : Context) : Option Req :=
  step.requires.find? fun r =>
    match ctx.outcome r.step with
    | some o => !r.accept.contains o
    | none => true

def blockedReason (b : Req) (ctx : Context) : String :=
  "blocked: needs '" ++ ((ctx.find b.step).map Record.title).getD b.step
    ++ "' to pass first (it was " ++ ((ctx.outcome b.step).map Outcome.value).getD "not visited"
    ++ ")"

/-- The reason of a gate leaves its question open. -/
def isGap (why : String) : Bool :=
  PyStr.startsWith why "the evidence this decision needs" || PyStr.startsWith why NOT_RUN_ON_PURPOSE

/-- What is decided about a step before its check is run; the number is
the clock readings taken so far. -/
inductive Admission where
  | refused (record : Record) (ticks : Nat)
  | halted (why : Halt) (record : Record) (stopReason : String) (ticks : Nat)
  | admitted (record : Record) (params : Dict) (ticks : Nat)

/-- Past the gates: privilege, the shared budgets, the parameters. -/
def admitBudget (env : Env σ) (st : RunState σ) (step : Step) (record : Record) (ctx : Context) :
    Except E Admission :=
  if step.needsRoot && !env.isRoot then
    .ok (.refused { record with
      skipReason := "privilege: needs root (" ++ env.privilegeHint ++ ")" } st.ticks)
  else if env.maxSteps ≤ st.executed then
    .ok (.halted .steps record
      ("step budget of " ++ toString env.maxSteps ++ " checks used up") st.ticks)
  else if env.maxSeconds < env.clock st.ticks - env.clock 0 then
    .ok (.halted .time record
      ("time budget of " ++ Float64.fixed0 env.maxSeconds ++ " s used up") (st.ticks + 1))
  else do
    match ← resolveParams ctx step.params with
    | .error why =>
        pure (.refused { record with skipReason := "blocked: " ++ why } (st.ticks + 1))
    | .ok params => pure (.admitted record params (st.ticks + 1))

def admitStep (env : Env σ) (st : RunState σ) (step : Step) (record : Record) (ctx : Context) :
    Except E Admission :=
  if st.stopReason ≠ "" then
    .ok (.refused { record with skipReason := "stopped: " ++ st.stopReason } st.ticks)
  else
    match blocked? step ctx with
    | some b =>
        .ok (.refused { record with
          skipReason := blockedReason b ctx
          blockedBy := some (ctx.key b.step) } st.ticks)
    | none => do
        let (ok, why) ← safeGate step.applies ctx
        if !ok then
          pure (.refused { record with skipReason := "not applicable: " ++ why } st.ticks)
        else
          let (ok, why) ← safeGate step.when ctx
          let record :=
            if step.when.isSome then { record with selectedBecause := why } else record
          if !ok then
            pure (.refused { record with
              skipReason := (if isGap why then "not applicable: " else "not needed: ") ++ why }
              st.ticks)
          else admitBudget env st step record ctx

/-! ## Execution -/

/-- What the attempts at a check came to. -/
structure Attempts (σ : Type) where
  result : Except E (Option CheckResult)
  attempts : Nat
  reused : Bool
  runner : σ

/-- The attempts at a check, the first of `n` being number `k`: another
one only after a time-out. -/
def tryRun (env : Env σ) (check : String) (params : Dict) :
    Nat → Nat → Attempts σ → Attempts σ
  | 0, _, a => a
  | n + 1, k, a =>
      match env.run a.runner check params (0 < k) with
      | (.error e, runner) => { a with result := .error e, attempts := k + 1, runner := runner }
      | (.ok res, runner) =>
          let a' :=
            { result := .ok (some res)
              attempts := k + 1
              reused := env.runs runner == env.runs a.runner && k == 0
              runner := runner }
          if res.status != NOT_RUN || !PyStr.contains res.display "timed out" then a'
          else tryRun env check params n (k + 1) a'

/-- Why a check gave no answer. -/
def noAnswer (res : CheckResult) : String :=
  let what := ([(DENIED, "not permitted"), (NOT_RUN, "could not run"),
    (FAILED, "failed")].lookup res.status).getD res.status
  if res.display = "" then what else what ++ ": " ++ res.display

/-- Outcome, summary and facts of an answer. Classifiers only see
successful results of the shape the check promises. -/
def interpret (spec : CheckSpec) (step : Step) (res : CheckResult) (ctx : Context) :
    Except E Classified :=
  let missing := spec.evidence.filter fun f => res.ok && (res.fields.lookup f).isNone
  if !missing.isEmpty then
    .ok ⟨.unknown, "unexpected evidence shape (missing " ++ PyStr.join ", " missing ++ ")", []⟩
  else if !res.ok then .ok ⟨.unknown, noAnswer res, []⟩
  else
    match (step.classify.getD defaultClassify) res ctx with
    | .ok c => .ok ⟨c.outcome, sanitizeText c.summary 400, c.facts⟩
    | .error e =>
        if caught e then
          .ok ⟨.unknown, sanitizeText
            "the evidence has an unexpected type or value and was not interpreted" 400, []⟩
        else .error e

/-- What a visit leaves. -/
structure Visited (σ : Type) where
  record : Record
  state : RunState σ
  subjectStop : Option String := none
  halted : Option Halt := none

/-- The answer of a check, entered in the record. -/
def answered (env : Env σ) (st : RunState σ) (record : Record) (res : CheckResult) (t0 : ℚ) :
    Record :=
  { record with
    seconds := Float64.round3 (env.clock st.ticks - t0)
    collectedAt := some (env.utc st.stamps)
    source := if env.replay then "REPLAY" else "LIVE"
    status := res.status
    params := res.params.map fun kv => (kv.1, .str (sanitizeText kv.2.toStr 253))
    command := res.command
    fields := res.fields }

def Record.classified (record : Record) (c : Classified) : Record :=
  { record with outcome := c.outcome, summary := c.summary, facts := c.facts }

/-- A stop rule with a reason ends the run. -/
def stopAfter (stopReason : String) (why : Option String) : String :=
  match why with
  | some w => if w = "" then stopReason else w
  | none => stopReason

def execute (env : Env σ) (st : RunState σ) (spec : CheckSpec) (step : Step) (record : Record)
    (base : Context) (params : Dict) : Except E (Visited σ) := do
  let t0 := env.clock st.ticks
  let a := tryRun env step.check params (1 + step.retries).toNat 0
    { result := .ok none, attempts := record.attempts, reused := record.reused, runner := st.runner }
  let record := { record with attempts := a.attempts, reused := a.reused }
  let st := { st with runner := a.runner, executed := st.executed + 1, ticks := st.ticks + 1 }
  match a.result with
  | .error .keyboardInterrupt =>
      let reason := "cancelled by the operator"
      pure
        { record := { record with skipReason := "stopped: " ++ reason }
          state := { st with stopReason := reason, cancelled := true }
          halted := some .cancelled }
  | .error e => .error e
  -- no attempt was made at all: there is no result to read
  | .ok none => .error .attributeError
  | .ok (some res) =>
      let record := answered env st record res t0
      let st := { st with ticks := st.ticks + 1, stamps := st.stamps + 1 }
      let c ← interpret spec step res (base.withRecord record)
      let record := record.classified c
      let why ← safeStop step.stop (base.withRecord record)
      let sub ← safeStop step.stopSubject (base.withRecord record)
      pure
        { record := record
          state := { st with stopReason := stopAfter st.stopReason why }
          subjectStop := sub }

/-- Decide and, if admitted, run one step; `base` is the context before it. -/
def visit (env : Env σ) (st : RunState σ) (spec : CheckSpec) (step : Step) (record : Record)
    (base : Context) : Except E (Visited σ) := do
  match ← admitStep env st step record (base.withRecord record) with
  | .refused record ticks => pure { record := record, state := { st with ticks := ticks } }
  | .halted why record reason ticks =>
      pure
        { record := { record with skipReason := "stopped: " ++ reason }
          state := { st with stopReason := reason, ticks := ticks }
          halted := some why }
  | .admitted record params ticks =>
      execute env { st with ticks := ticks } spec step record base params

/-! ## Plan steps -/

/-- The record of a step before it is visited. -/
def newRecord (spec : CheckSpec) (step : Step) : Record :=
  { stepId := step.stepId
    capability := step.capability
    check := step.check
    title := step.title
    why := step.why
    outcome := .skipped
    sideEffects := spec.sideEffects
    privilege := spec.privilege }

def specOf (env : Env σ) (step : Step) : Except E CheckSpec :=
  match env.registry.lookup step.check with
  | some spec => .ok spec
  | none => .error .keyError

/-- Keep a visit. -/
def RunState.log (st : RunState σ) (v : Visit) : RunState σ := { st with visits := v :: st.visits }

def visitLogged (env : Env σ) (st : RunState σ) (spec : CheckSpec) (step : Step)
    (record : Record) (base : Context) : Except E (Visited σ) := do
  let v ← visit env st spec step record base
  pure { v with
    state := v.state.log
      { step := step
        view := base.withRecord record
        record := v.record
        stopBefore := st.stopReason
        stopAfter := v.state.stopReason
        halted := v.halted } }

def runStep (env : Env σ) (st : RunState σ) (step : Step) : Except E (RunState σ) := do
  let spec ← specOf env step
  let v ← visitLogged env st spec step (newRecord spec step) (st.context env)
  pure v.state

/-! ## Subjects -/

def ENTRIES_READ : Nat := 1000

def entryKey : Value → Value
  | .dict kvs => (kvs.lookup "subject").getD .null
  | v => v

/-- How a rejected entry is named. -/
def shownKey : Value → String
  | .str s => sanitizeText s 120
  | _ => "(not a name)"

/-- `d[k] = v`. -/
def setKey (k : String) (v : Value) : Dict → Dict
  | [] => [(k, v)]
  | (k', v') :: kvs => if k' = k then (k, v) :: kvs else (k', v') :: setKey k v kvs

def entryItem (valid : String) : Value → Dict
  | .dict kvs => setKey "subject" (.str valid) kvs
  | _ => [("subject", .str valid)]

/-- The validated subjects with their items, and the rejected entries. -/
structure Entries where
  good : List (String × Dict) := []
  rejected : List String := []

def Entries.add (type : String) (acc : Entries) (entry : Value) : Except E Entries := do
  match ← T.validate type (entryKey entry) with
  | none => pure { acc with rejected := acc.rejected ++ [shownKey (entryKey entry)] }
  | some valid =>
      if (acc.good.lookup valid).isSome then pure acc
      else pure { acc with good := acc.good ++ [(valid, entryItem valid entry)] }

def readEntries (type : String) : Entries → List Value → Except E Entries
  | acc, [] => .ok acc
  | acc, e :: es => do
      let acc ← acc.add type e
      readEntries type acc es

/-- The source said it read the whole list, if it is asked to. -/
def readWhole (t : ForEach) (ctx : Context) : Bool :=
  match t.completeFact with
  | none => true
  | some ref => ctx.fact ref == .bool true

/-- What an enumeration makes of the entries read. -/
def enumerationOf (t : ForEach) (ctx : Context) (e : Entries) : Enumeration :=
  let ordered := (e.good.map (·.1)).insertionSort (· ≤ ·)
  let kept := ordered.take t.maxInstances.toNat
  let dropped := ordered.drop t.maxInstances.toNat
  let reasons :=
    (if dropped.isEmpty then [] else
      [toString dropped.length ++ " subject(s) not investigated: the budget is "
        ++ toString t.maxInstances])
    ++ (if e.rejected.isEmpty then [] else
      [toString e.rejected.length ++ " listed subject(s) have a name that does not validate"])
    ++ (if readWhole t ctx then [] else
      ["the source did not establish that it read the whole list"])
  { source := t.source
    status := if reasons.isEmpty then .complete else .partly
    subjects := kept
    dropped := dropped
    rejected := e.rejected
    reason := PyStr.join "; " reasons
    budget := t.maxInstances }

/-- The list fact of a template, if its source step established one. -/
def listFact? (t : ForEach) (ctx : Context) : Option (List Value) :=
  match ctx.outcome (refStep t.source), ctx.fact t.source with
  | some .pass, .list xs => some xs
  | some .warn, .list xs => some xs
  | _, _ => none

/-- An enumeration without subjects. -/
def noSubjects (t : ForEach) (status : EnumStatus) (reason : String) : Enumeration :=
  { source := t.source, status := status, reason := reason, budget := t.maxInstances }

/-- The subjects of a template: validated, without repetition, sorted,
cut to the budget. -/
def subjects (t : ForEach) (ctx : Context) : Except E (List (String × Dict) × Enumeration) :=
  if ctx.ran (refStep t.source) = false then
    .ok ([], noSubjects t .notAsked "the step that lists the subjects did not run")
  else
    match listFact? t ctx with
    | none => .ok ([], noSubjects t .failed "the list of subjects could not be established")
    | some raw => do
        let e ← readEntries t.subjectType {} (raw.take ENTRIES_READ)
        let enum := enumerationOf t ctx e
        pure (enum.subjects.map fun k => (k, (e.good.lookup k).getD []), enum)

/-! ## Templates -/

/-- The record of an instance before it is visited. -/
def newInstance (spec : CheckSpec) (t : ForEach) (subject : String) (step : Step) : Record :=
  { newRecord spec step with
    stepId := step.stepId ++ "@" ++ subject
    subject := some subject
    template := some t.templateId
    baseStep := some step.stepId }

/-- The context of a template's step: its own steps are the subject's instances. -/
def subjectContext (env : Env σ) (st : RunState σ) (t : ForEach) (subject : String)
    (item : Dict) : Context :=
  { st.context env with
    subject := some subject
    item := item
    locals := t.steps.map Step.stepId }

/-- How far a subject has come. -/
structure SubjectRun (σ : Type) where
  state : RunState σ
  stop : String := ""
  unfinished : Bool := false

/-- Skip a step without a visit. -/
def skipInstance (r : SubjectRun σ) (base : Context) (step : Step) (record : Record)
    (reason : String) : SubjectRun σ :=
  { r with
    state := r.state.log
      { step := step
        view := base.withRecord record
        record := { record with skipReason := reason }
        stopBefore := r.state.stopReason
        stopAfter := r.state.stopReason
        halted := none } }

/-- Visit a step of a subject. -/
def visitInstance (env : Env σ) (r : SubjectRun σ) (spec : CheckSpec) (step : Step)
    (record : Record) (base : Context) : Except E (SubjectRun σ) := do
  let v ← visitLogged env r.state spec step record base
  pure
    { state := v.state
      stop := match v.subjectStop with
        | some why => if why = "" then r.stop else sanitizeText why 300
        | none => r.stop
      unfinished := r.unfinished || PyStr.startsWith v.record.skipReason "stopped:" }

def sliceText (seconds : ℚ) : String :=
  "its time slice of " ++ Float64.fixed0 seconds ++ " s is used up"

/-- One step of a subject: its time slice, then its own stop, then the visit. -/
def runInstance (env : Env σ) (t : ForEach) (subject : String) (item : Dict) (started : ℚ)
    (r : SubjectRun σ) (step : Step) : Except E (SubjectRun σ) := do
  let spec ← specOf env step
  let record := newInstance spec t subject step
  let base := subjectContext env r.state t subject item
  if r.stop ≠ "" then
    pure (skipInstance r base step record
      (if r.unfinished then "stopped: " ++ r.stop ++ " (this subject only)"
      else "not needed: stopped for this subject: " ++ r.stop))
  else
    match t.subjectSeconds with
    | none => visitInstance env r spec step record base
    | some seconds =>
        let late := seconds < env.clock r.state.ticks - started
        let r := { r with state := { r.state with ticks := r.state.ticks + 1 } }
        if late then
          pure (skipInstance { r with stop := sliceText seconds, unfinished := true } base step
            record ("stopped: " ++ sliceText seconds ++ " (this subject only)"))
        else visitInstance env r spec step record base

def runInstances (env : Env σ) (t : ForEach) (subject : String) (item : Dict) (started : ℚ) :
    SubjectRun σ → List Step → Except E (SubjectRun σ)
  | r, [] => .ok r
  | r, step :: steps => do
      let r ← runInstance env t subject item started r step
      runInstances env t subject item started r steps

def runSubject (env : Env σ) (t : ForEach) (st : RunState σ) (subject : String) (item : Dict) :
    Except E (SubjectRun σ) :=
  runInstances env t subject item (env.clock st.ticks)
    { state := { st with ticks := st.ticks + 1 } } t.steps

/-- All subjects, with the ones left unfinished. -/
def runSubjects (env : Env σ) (t : ForEach) :
    RunState σ → List String → List (String × Dict) → Except E (RunState σ × List String)
  | st, unfinished, [] => .ok (st, unfinished)
  | st, unfinished, (subject, item) :: rest => do
      let r ← runSubject env t st subject item
      runSubjects env t r.state
        (if r.unfinished then unfinished ++ [subject] else unfinished) rest

def Enumeration.withUnfinished (e : Enumeration) (unfinished : List String) : Enumeration :=
  if unfinished.isEmpty then e
  else
    { e with
      status := .partly
      unfinished := unfinished
      reason := PyStr.join "; " ([e.reason, "the run stopped before "
        ++ toString unfinished.length ++ " subject(s) were fully investigated"].filter (· != "")) }

def askSubjects (env : Env σ) (st : RunState σ) (t : ForEach) :
    Except E (List (String × Dict) × Enumeration) :=
  if st.stopReason ≠ "" then
    .ok ([], noSubjects t .notAsked ("stopped: " ++ st.stopReason))
  else subjects t (st.context env)

def runTemplate (env : Env σ) (st : RunState σ) (t : ForEach) : Except E (RunState σ) := do
  let (subs, enum) ← askSubjects env st t
  let (st, unfinished) ← runSubjects env t st [] subs
  pure { st with
    enumerations := st.enumerations ++ [(t.templateId, enum.withUnfinished unfinished)] }

/-! ## The run -/

def runItem (env : Env σ) (st : RunState σ) : PlanItem → Except E (RunState σ)
  | .forEach t => runTemplate env st t
  | .step s => runStep env st s

def runItems (env : Env σ) : RunState σ → List PlanItem → Except E (RunState σ)
  | st, [] => .ok st
  | st, item :: rest => do
      let st ← runItem env st item
      runItems env st rest

/-- At the start, the clock has been read once, and the calendar. -/
def startState (runner : σ) : RunState σ :=
  { runner := runner
    ticks := 1
    stamps := 1
    executed := 0
    stopReason := ""
    cancelled := false
    visits := []
    enumerations := [] }

def boundsOf (env : Env σ) (st : RunState σ) : Dict :=
  [("max_steps", .int env.maxSteps), ("max_depth", .int MAX_DEPTH),
    ("max_fanout", .int MAX_FANOUT), ("max_wall_seconds", .float (.fin env.maxSeconds)),
    ("max_retries", .int MAX_RETRIES),
    ("per_check_timeout", .str "declared per check (CheckSpec.timeout)")]
  ++ (if st.enumerations.isEmpty then [] else
    [("max_instances_per_template", .int MAX_INSTANCES), ("hard_max_steps", .int HARD_MAX_STEPS)])

def traceOf (env : Env σ) (runner : σ) (st : RunState σ) : Trace :=
  { records := st.records.reverse
    stopReason := if st.stopReason = "" then "every relevant check in the plan was visited"
      else st.stopReason
    startedAt := env.utc 0
    seconds := env.clock st.ticks - env.clock 0
    bounds := boundsOf env st
    checksRun := env.runs st.runner - env.runs runner
    checksReused := st.records.countP Record.reused
    cancelled := st.cancelled
    enumerations := st.enumerations }

/-- The step budget is never more than the hard bound. -/
def Env.bounded (env : Env σ) : Env σ := { env with maxSteps := min env.maxSteps HARD_MAX_STEPS }

/-- The last state of a run, with its history. -/
def runPlanState (plan : List PlanItem) (env : Env σ) (runner : σ) : Except E (RunState σ) := do
  validatePlan plan env.registry
  runItems env.bounded (startState runner) plan

def runPlan (plan : List PlanItem) (env : Env σ) (runner : σ) : Except E Trace :=
  (runPlanState plan env runner).map (traceOf env.bounded runner)

end IpaDiagnose.Planner
