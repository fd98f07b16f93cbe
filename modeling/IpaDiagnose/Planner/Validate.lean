import IpaDiagnose.Planner.Model

/-!
# Plan validation

Checked before anything runs. `seen` maps the ids declared so far to a
step or a template; a template's own steps enter it after the template's
last step. The depth of the graph is computed by a pass of its own, which
knows a template's steps only inside the template.
-/

namespace IpaDiagnose.Planner

open Py (Value Dict Exc)

inductive Declared where
  | step (s : Step)
  | forEach (t : ForEach)

abbrev Seen := List (String × Declared)

def refuse {α : Type} (message : String) : Except E α := .error (.own ⟨message⟩)

def refuseIf (bad : Prop) [Decidable bad] (message : String) : Except E Unit :=
  if bad then refuse message else .ok ()

/-! ## Depth -/

/-- The greatest of some numbers, 0 if there are none. -/
def worst (ns : List Nat) : Nat := ns.foldl max 0

/-- The depth of a template's steps, in order. -/
def localDepths (depth : List (String × Nat)) (base : Nat) :
    List Step → List (String × Nat) → List (String × Nat)
  | [], acc => acc
  | s :: ss, acc =>
      let ds := (deps s).map fun d => (acc.lookup d).getD ((depth.lookup d).getD 0)
      localDepths depth base ss ((s.stepId, 1 + worst (base :: ds)) :: acc)

/-- `depth[d]` for every dependency: an id without a depth is a key error. -/
def depthsOf (depth : List (String × Nat)) : List String → Except E (List Nat)
  | [] => .ok []
  | d :: ds =>
      match depth.lookup d with
      | none => .error .keyError
      | some n => (depthsOf depth ds).map (n :: ·)

def depthItem (depth : List (String × Nat)) : PlanItem → Except E (List (String × Nat))
  | .forEach t =>
      let base := (depth.lookup (refStep t.source)).getD 0
      let inner := localDepths depth base t.steps []
      .ok ((t.templateId, if inner.isEmpty then base else worst (inner.map (·.2))) :: depth)
  | .step s => (depthsOf depth (deps s)).map fun ns => (s.stepId, 1 + worst ns) :: depth

def depthItems : List (String × Nat) → List PlanItem → Except E (List (String × Nat))
  | depth, [] => .ok depth
  | depth, item :: rest => do
      let depth ← depthItem depth item
      depthItems depth rest

/-- The dependency depth of a plan. An id declared again would replace its depth. -/
def depthOf (plan : List PlanItem) : Except E Nat :=
  (depthItems [] plan).map fun depth => worst (depth.map (·.2))

/-! ## Steps -/

def sortedNames (xs : List String) : List String := xs.mergeSort PyStr.le

/-- The key sets of two mappings are equal. -/
def sameKeys {α β : Type} (xs : List (String × α)) (ys : List (String × β)) : Bool :=
  xs.all (fun x => ys.any (·.1 == x.1)) && ys.all (fun y => xs.any (·.1 == y.1))

/-- One dependency: declared before the step, and not a template. -/
def checkDep (s : Step) (seen : Seen) (local_ : List String) (dep : String) : Except E Unit :=
  if (seen.lookup dep).isNone ∧ dep ∉ local_ then
    refuse (s.stepId ++ ": depends on " ++ dep ++ ", which is not declared before it")
  else
    match seen.lookup dep with
    | some (.forEach _) =>
        refuse (s.stepId ++ ": depends on the template " ++ dep ++ "; depend on a plan step instead")
    | _ => .ok ()

def checkDeps (s : Step) (seen : Seen) (local_ : List String) : List String → Except E Unit
  | [] => .ok ()
  | d :: ds => do
      checkDep s seen local_ d
      checkDeps s seen local_ ds

/-- The kinds of references a parameter may be. -/
def refKinds (inTemplate : Bool) : List Value :=
  if inTemplate then [.str "fact", .str "input", .str "item"] else [.str "fact", .str "input"]

/-- One parameter. A fact is split at its last dot, which only a text has. -/
def checkParam (s : Step) (seen : Seen) (local_ : List String) (inTemplate : Bool) :
    Param → Except E Unit
  | .lit _ => .ok ()
  | .tuple [kind, ref] =>
      if !(refKinds inTemplate).any kind.pyEq then
        refuse (s.stepId ++ ": bad parameter reference " ++ (Param.tuple [kind, ref]).repr)
      else if kind.pyEq (.str "fact") then
        match ref with
        | .str r =>
            if (seen.lookup (refStep r)).isNone ∧ refStep r ∉ local_ then
              refuse (s.stepId ++ ": parameter refers to a later or unknown step (" ++ r ++ ")")
            else .ok ()
        | _ => .error .attributeError
      else .ok ()
  | p => refuse (s.stepId ++ ": bad parameter reference " ++ p.repr)

def checkParams (s : Step) (seen : Seen) (local_ : List String) (inTemplate : Bool) :
    List (String × Param) → Except E Unit
  | [] => .ok ()
  | p :: ps => do
      checkParam s seen local_ inTemplate p.2
      checkParams s seen local_ inTemplate ps

/-- What is checked of a step besides its references. -/
def checkRules (s : Step) (spec : CheckSpec) (inTemplate : Bool) : Except E Unit :=
  if MAX_RETRIES < s.retries then
    refuse (s.stepId ++ ": at most " ++ toString MAX_RETRIES ++ " retry")
  else if spec.privilege == "root" && !s.needsRoot then
    refuse (s.stepId ++ ": " ++ s.check ++ " needs root; the step must declare needs_root")
  else if inTemplate then
    if s.stop.isSome then
      refuse (s.stepId ++ ": a template step may not stop the whole run (use stop_subject)")
    else if s.retries ≠ 0 then refuse (s.stepId ++ ": template steps do not retry")
    else .ok ()
  else if s.stopSubject.isSome then
    refuse (s.stepId ++ ": stop_subject is for template steps only")
  else .ok ()

def validateStep (s : Step) (spec : CheckSpec) (seen : Seen) (local_ : List String)
    (inTemplate : Bool) : Except E Unit := do
  refuseIf (PyStr.hasChar s.stepId '@' ∨ s.stepId = "")
    (Py.reprStr s.stepId ++ ": '@' is reserved for template instances")
  refuseIf (sameKeys s.params spec.params = false)
    (s.stepId ++ ": parameters must be exactly "
      ++ (Value.list ((sortedNames (spec.params.map (·.1))).map Value.str)).repr)
  checkDeps s seen local_ (deps s)
  checkParams s seen local_ inTemplate s.params
  checkRules s spec inTemplate

/-- A step with an id of its own, and a check of the registry. -/
def validateNew (registry : Registry) (s : Step) (seen : Seen) (local_ : List String)
    (inTemplate : Bool) : Except E Unit :=
  if (seen.lookup s.stepId).isSome ∨ s.stepId ∈ local_ then
    refuse ("duplicate step " ++ s.stepId)
  else
    match registry.lookup s.check with
    | none => refuse (s.stepId ++ ": " ++ s.check ++ " is not in the closed check registry")
    | some spec => validateStep s spec seen local_ inTemplate

/-! ## Templates -/

/-- A source of subjects is a plan step, declared before the template. -/
def isPlanStep (seen : Seen) (id : String) : Bool :=
  match seen.lookup id with
  | some (.step _) =>
      !seen.any fun d =>
        match d.2 with
        | .forEach t => t.steps.any (·.stepId == id)
        | .step _ => false
  | _ => false

def checkSource (t : ForEach) (seen : Seen) (ref : String) : Except E Unit :=
  if isPlanStep seen (refStep ref) then .ok ()
  else refuse (t.templateId ++ ": subjects must come from an earlier plan step (" ++ ref ++ ")")

def checkComplete (t : ForEach) (seen : Seen) : Except E Unit :=
  match t.completeFact with
  | none => .ok ()
  | some ref => checkSource t seen ref

/-- The steps of a template, in order; their ids, newest first. -/
def validateSteps (registry : Registry) (seen : Seen) :
    List Step → List String → Except E (List String)
  | [], local_ => .ok local_
  | s :: ss, local_ => do
      validateNew registry s seen local_ true
      validateSteps registry seen ss (s.stepId :: local_)

/-- The ids of a template's steps enter `seen`, then the template's own. -/
def declareTemplate (t : ForEach) (seen : Seen) : Seen :=
  (t.templateId, .forEach t) :: ((t.steps.map fun s => (s.stepId, .step s)).reverse ++ seen)

def validateTemplate (registry : Registry) (t : ForEach) (seen : Seen) : Except E Seen := do
  refuseIf ((seen.lookup t.templateId).isSome ∨ PyStr.hasChar t.templateId '@'
      ∨ t.templateId = "")
    ("duplicate or invalid template id " ++ t.templateId)
  refuseIf (¬ (1 ≤ t.maxInstances ∧ t.maxInstances ≤ MAX_INSTANCES))
    (t.templateId ++ ": instance budget must be 1.." ++ toString MAX_INSTANCES)
  refuseIf (T.isType t.subjectType = false)
    (t.templateId ++ ": unknown subject type " ++ t.subjectType)
  checkSource t seen t.source
  checkComplete t seen
  refuseIf (t.steps = [])
    (t.templateId ++ ": a template needs at least one step")
  let _ ← validateSteps registry seen t.steps []
  pure (declareTemplate t seen)

/-! ## Plans -/

def validateItem (registry : Registry) (seen : Seen) : PlanItem → Except E Seen
  | .forEach t => validateTemplate registry t seen
  | .step s => do
      validateNew registry s seen [] false
      pure ((s.stepId, .step s) :: seen)

def validateItems (registry : Registry) : Seen → List PlanItem → Except E Seen
  | seen, [] => .ok seen
  | seen, item :: rest => do
      let seen ← validateItem registry seen item
      validateItems registry seen rest

def PlanItem.declared : PlanItem → Int
  | .step _ => 1
  | .forEach t => t.steps.length

def PlanItem.expanded : PlanItem → Int
  | .step _ => 1
  | .forEach t => t.steps.length * t.maxInstances

/-- How many dependencies name an id. -/
def fanout (plan : List PlanItem) (id : String) : Nat :=
  (plan.flatMap PlanItem.steps).flatMap deps |>.count id

def worstFanout (plan : List PlanItem) : Nat :=
  worst (((plan.flatMap PlanItem.steps).flatMap deps).map (fanout plan))

/-- Everything but the depth. -/
def validateRules (plan : List PlanItem) (registry : Registry) : Except E Unit := do
  let declared := (plan.map PlanItem.declared).sum
  refuseIf ((MAX_STEPS : Int) < declared)
    ("plan has " ++ toString declared ++ " steps (bound " ++ toString MAX_STEPS ++ ")")
  let expanded := (plan.map PlanItem.expanded).sum
  refuseIf ((HARD_MAX_STEPS : Int) < expanded)
    ("plan can expand to " ++ toString expanded ++ " steps (hard bound "
      ++ toString HARD_MAX_STEPS ++ ")")
  let _ ← validateItems registry [] plan
  refuseIf (MAX_FANOUT < worstFanout plan)
    ("a step has " ++ toString (worstFanout plan) ++ " dependents (bound "
      ++ toString MAX_FANOUT ++ ")")

def validatePlan (plan : List PlanItem) (registry : Registry) : Except E Unit := do
  validateRules plan registry
  let depth ← depthOf plan
  refuseIf (MAX_DEPTH < depth)
    ("dependency depth " ++ toString depth ++ " exceeds " ++ toString MAX_DEPTH)

end IpaDiagnose.Planner
