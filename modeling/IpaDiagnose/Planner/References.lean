import IpaDiagnose.Planner.History
import IpaDiagnose.Planner.Refused

/-!
# References to earlier steps

Three notions of "declared before" meet here: the ids a validator has
seen, the places of a plan, and the records in the view of a step when it
is visited. They agree on the steps of the plan and on the step's own
template. A step of another template is declared, but it is recorded once
for each subject, and no view finds it under the id it was declared by.
-/

namespace IpaDiagnose.Planner

open Py (Value Dict Exc)
open Result Journal

variable {σ : Type}

/-! ## Places -/

/-- A place, with the places before it: the item it is in, and what comes
before it in that item. -/
def Placed (plan : List PlanItem) (before : List Slot) (s : Slot) : Prop :=
  ∃ pre item post, plan = pre ++ item :: post
    ∧ (∀ id, (∃ x ∈ before, x.instance_ = none ∧ x.step.stepId = id) ↔ id ∈ planIds pre)
    ∧ (s.instance_ = none → item = .step s.step)
    ∧ ∀ t subject, s.instance_ = some (t, subject) → item = .forEach t
      ∧ ∃ ss ss', t.steps = ss ++ s.step :: ss' ∧ ∀ x ∈ ss, ⟨x, some (t, subject)⟩ ∈ before

theorem planIds_step (s : Step) (rest : List PlanItem) :
    planIds (.step s :: rest) = s.stepId :: planIds rest := rfl

theorem planIds_forEach (t : ForEach) (rest : List PlanItem) :
    planIds (.forEach t :: rest) = planIds rest := rfl

theorem slotsOf_instance {t : ForEach} {steps : List Step} {subject : String} {x : Slot}
    (h : x ∈ slotsOf t steps subject) : x.instance_ = some (t, subject) := by
  obtain ⟨s, -, rfl⟩ := List.mem_map.mp h
  rfl

/-- A place of a template comes after the same subject's earlier steps. -/
theorem templateSlots_split {t : ForEach} {subjects : List String} {before after : List Slot}
    {s : Slot} (h : templateSlots t subjects = before ++ s :: after) :
    (∀ x ∈ before, x.instance_ ≠ none) ∧ ∃ subject, s.instance_ = some (t, subject)
      ∧ ∃ ss ss', t.steps = ss ++ s.step :: ss' ∧ ∀ x ∈ ss, ⟨x, some (t, subject)⟩ ∈ before := by
  induction subjects generalizing before with
  | nil => simp [templateSlots] at h
  | cons subject subjects ih =>
      rw [templateSlots_cons] at h
      rcases place_in_parts h with ⟨rest, hfirst⟩ | ⟨mid, rfl, hmid⟩
      · obtain ⟨ss, more, hsteps, hss, hmore⟩ := List.map_eq_append_iff.mp hfirst
        obtain ⟨s', ss', rfl, rfl, -⟩ := List.map_eq_cons_iff.mp hmore
        subst hss
        refine ⟨fun x hx => ?_, subject, rfl, ss, ss', hsteps,
          fun x hx => List.mem_map_of_mem hx⟩
        rw [slotsOf_instance hx]
        exact Option.some_ne_none _
      · obtain ⟨hmids, subject', hs, ss, ss', hsteps, hss⟩ := ih hmid
        refine ⟨fun x hx => ?_, subject', hs, ss, ss', hsteps,
          fun x hx => List.mem_append_right _ (hss x hx)⟩
        rcases List.mem_append.mp hx with hx | hx
        · rw [slotsOf_instance hx]
          exact Option.some_ne_none _
        · exact hmids x hx

theorem templateSlots_instance {t : ForEach} {subjects : List String} {x : Slot}
    (h : x ∈ templateSlots t subjects) : x.instance_ ≠ none := by
  obtain ⟨subject, -, hx⟩ := List.mem_flatMap.mp h
  rw [slotsOf_instance hx]
  exact Option.some_ne_none _

theorem Placed.cons {plan : List PlanItem} {before first : List Slot} {s : Slot} {item : PlanItem}
    (hfirst : ∀ id, (∃ x ∈ first, x.instance_ = none ∧ x.step.stepId = id) ↔ id ∈ planIds [item])
    (h : Placed plan before s) : Placed (item :: plan) (first ++ before) s := by
  obtain ⟨pre, i, post, rfl, hids, hstep, hinst⟩ := h
  refine ⟨item :: pre, i, post, rfl, fun id => ?_, hstep, fun t subject ht => ?_⟩
  · have hparts : id ∈ planIds (item :: pre) ↔ id ∈ planIds [item] ∨ id ∈ planIds pre := by
      rw [← List.mem_append, planIds, planIds, planIds, ← List.filterMap_append]
      rfl
    rw [hparts, ← hfirst id, ← hids id]
    simp only [List.mem_append, or_and_right, exists_or]
  · obtain ⟨hi, ss, ss', hsteps, hss⟩ := hinst t subject ht
    exact ⟨hi, ss, ss', hsteps, fun x hx => List.mem_append_right _ (hss x hx)⟩

theorem slots_split {plan : List PlanItem} {enums : List (String × Enumeration)}
    {before after : List Slot} {s : Slot} (h : slots plan enums = before ++ s :: after) :
    Placed plan before s := by
  induction plan generalizing before enums with
  | nil => simp [slots] at h
  | cons item rest ih =>
      cases item with
      | step p =>
          cases before with
          | nil =>
              injection h with hs _
              subst hs
              refine ⟨[], .step p, rest, rfl, fun id => by simp [planIds], fun _ => rfl, ?_⟩
              intro t subject hinst
              cases hinst
          | cons b before =>
              injection h with hb h
              subst hb
              have hfirst : ∀ id, (∃ x ∈ [({ step := p } : Slot)], x.instance_ = none
                  ∧ x.step.stepId = id) ↔ id ∈ planIds [.step p] := by
                intro id
                simp [planIds, eq_comm]
              exact Placed.cons hfirst (ih h)
      | forEach t =>
          rcases place_in_parts h with ⟨more, hslots⟩ | ⟨mid, rfl, hmid⟩
          · obtain ⟨hbefore, subject, hs, ss, ss', hsteps, hss⟩ := templateSlots_split hslots
            refine ⟨[], .forEach t, rest, rfl, fun id => ?_, fun hnone => ?_, fun t' subj ht => ?_⟩
            · constructor
              · rintro ⟨x, hx, hnone, -⟩
                exact absurd hnone (hbefore x hx)
              · intro hid
                cases hid
            · rw [hs] at hnone
              cases hnone
            · obtain ⟨rfl, rfl⟩ : t = t' ∧ subject = subj := by simpa [hs] using ht
              exact ⟨rfl, ss, ss', hsteps, hss⟩
          · refine Placed.cons (fun id => ?_) (ih hmid)
            constructor
            · rintro ⟨x, hx, hnone, -⟩
              exact absurd hnone (templateSlots_instance hx)
            · intro hid
              cases hid

/-! ## What a step reads -/

/-- The steps whose facts a step's parameters refer to. -/
def Step.factSteps (s : Step) : List String :=
  s.params.filterMap fun p =>
    match p.2 with
    | .tuple [kind, .str ref] => if kind.pyEq (.str "fact") then some (refStep ref) else none
    | _ => none

/-- The steps a step refers to: what it requires, what it comes after,
and where its parameters come from. -/
def Step.reads (s : Step) : List String := deps s ++ s.factSteps

/-- A step that was visited before, in the view of this one. -/
def Visit.Knows (v : Visit) (id : String) : Prop :=
  ∃ r ∈ v.view.records.tail, r.stepId = v.view.key id

theorem StepOk.reads {registry : Registry} {seen : Seen} {local_ : List String}
    {inTemplate : Bool} {s : Step} (h : StepOk registry seen local_ inTemplate s) {d : String}
    (hd : d ∈ s.reads) : d ∈ local_ ∨ seen.lookup d ≠ none := by
  rcases List.mem_append.mp hd with hd | hd
  · rcases h.deps d hd with hlocal | ⟨s', hs'⟩
    · exact .inl hlocal
    · exact .inr (by rw [hs']; exact Option.some_ne_none _)
  · obtain ⟨p, hp, hf⟩ := List.mem_filterMap.mp hd
    have hok := h.params p hp
    split at hf
    · rename_i kind ref heq
      split at hf
      · rename_i hfact
        obtain rfl : refStep ref = d := by simpa using hf
        rw [heq] at hok
        obtain ⟨r, hr, hseen⟩ := hok hfact
        injection hr with hr
        subst hr
        refine hseen.imp_right fun hsome => ?_
        intro hnone
        rw [hnone] at hsome
        cases hsome
      · cases hf
    · cases hf

theorem at_mem_of_instance {x : Slot} (h : x.instance_ ≠ none) : '@' ∈ x.identity.stepId.toList := by
  rcases x with ⟨s, _ | ⟨t, subject⟩⟩
  · exact absurd rfl h
  · simp [Slot.identity, String.toList_append]

/-- A plan step's id that was declared before an item was declared by a plan step before it. -/
theorem Accepted.mem_planIds_pre {registry : Registry} {pre post : List PlanItem}
    (h : Accepted registry [] (pre ++ post)) {d : String}
    (hdecl : (declareAll [] pre).lookup d ≠ none) (hd : d ∈ planIds (pre ++ post)) :
    d ∈ planIds pre := by
  obtain ⟨i, hi, hid⟩ : ∃ i ∈ pre, d ∈ i.ids := by
    by_contra hnone
    push Not at hnone
    exact hdecl (lookup_declareAll_none.mpr ⟨hnone, rfl⟩)
  obtain ⟨s, hs, rfl⟩ := mem_planIds.mp hd
  obtain rfl := h.eq_of_mem_ids (List.mem_append_left _ hi) hs hid (step_ids s)
  exact mem_planIds.mpr ⟨s, hi, rfl⟩

/-- What was declared before an item has no character reserved for instances. -/
theorem Accepted.named {registry : Registry} {pre post : List PlanItem}
    (h : Accepted registry [] (pre ++ post)) {d : String}
    (hdecl : (declareAll [] pre).lookup d ≠ none) : '@' ∉ d.toList := by
  obtain ⟨i, hi, hid⟩ : ∃ i ∈ pre, d ∈ i.ids := by
    by_contra hnone
    push Not at hnone
    exact hdecl (lookup_declareAll_none.mpr ⟨hnone, rfl⟩)
  exact (h.fresh i (List.mem_append_left _ hi) d hid).2

theorem planIds_subset {pre post : List PlanItem} : planIds pre ⊆ planIds (pre ++ post) := by
  rw [planIds, planIds, List.filterMap_append]
  exact List.subset_append_left _ _

/-- Which of the ids a step refers to have a record before it, in its own view. -/
theorem Placed.knows_iff {registry : Registry} {plan : List PlanItem} {before : List Slot}
    {s : Slot} {v : Visit} (hacc : Accepted registry [] plan) (hplaced : Placed plan before s)
    (hfills : v.Fills s)
    (hview : ∀ id, v.Knows id ↔ ∃ x ∈ before, x.identity.stepId = v.view.key id) {d : String}
    (hd : d ∈ v.step.reads) : v.Knows d ↔ d ∈ planIds plan ∨ d ∈ v.view.locals := by
  obtain ⟨pre, item, post, rfl, hids, hstep, hinst⟩ := hplaced
  have hitem := hacc.item
  rw [hview, hfills.locals]
  rw [hfills.step] at hd
  have hplanStep : (declareAll [] pre).lookup d ≠ none → d ∈ planIds (pre ++ item :: post) →
      ∃ x ∈ before, x.identity.stepId = d := by
    intro hdecl hplan
    obtain ⟨x, hx, hnone, hid⟩ := (hids d).mpr (hacc.mem_planIds_pre hdecl hplan)
    exact ⟨x, hx, by rw [Slot.identity, hnone]; exact hid⟩
  have hrecorded : (declareAll [] pre).lookup d ≠ none →
      (∃ x ∈ before, x.identity.stepId = d) → d ∈ planIds (pre ++ item :: post) := by
    rintro hdecl ⟨x, hx, hid⟩
    by_cases hnone : x.instance_ = none
    · refine planIds_subset ((hids d).mp ⟨x, hx, hnone, ?_⟩)
      rw [Slot.identity, hnone] at hid
      exact hid
    · exact absurd (hid ▸ at_mem_of_instance hnone) (hacc.named hdecl)
  rcases hs : s.instance_ with _ | ⟨t, subject⟩
  · -- a step of the plan: only what was declared before it
    have hlocals : s.locals = [] := by rw [Slot.locals, hs]
    have hkey : v.view.key d = d := by
      rw [Context.key, hfills.locals, hlocals]
      rfl
    obtain rfl := hstep hs
    have hdecl : (declareAll [] pre).lookup d ≠ none :=
      (StepOk.reads hitem hd).resolve_left (List.not_mem_nil)
    rw [hkey, hlocals]
    constructor
    · exact fun h => .inl (hrecorded hdecl h)
    · rintro (h | h)
      · exact hplanStep hdecl h
      · cases h
  · -- a step of a template: its own template's earlier steps as well
    obtain ⟨rfl, ss, ss', hsteps, hss⟩ := hinst t subject hs
    have hlocals : s.locals = t.steps.map Step.stepId := by rw [Slot.locals, hs]
    have hsubject : v.view.subject = some subject := by
      rw [hfills.subject, Slot.subject, hs]
      rfl
    have hok := TemplateOk.steps hitem
    rw [hsteps] at hok
    have hlocalDecl : d ∈ t.steps.map Step.stepId → (declareAll [] pre).lookup d = none :=
      fun hmem => (ItemOk.fresh hitem d (List.mem_cons_of_mem _ hmem)).1
    have hdecl : d ∈ ss.map Step.stepId ∨ (declareAll [] pre).lookup d ≠ none := by
      simpa using hok.mem.reads hd
    rw [hlocals]
    by_cases hlocal : d ∈ t.steps.map Step.stepId
    · have hkey : v.view.key d = d ++ "@" ++ subject := by
        have hcontains : (t.steps.map Step.stepId).contains d = true :=
          List.contains_iff_mem.mpr hlocal
        rw [Context.key, hfills.locals, hlocals, if_pos hcontains, hsubject]
        rfl
      refine iff_of_true ?_ (.inr hlocal)
      have hearlier : d ∈ ss.map Step.stepId :=
        hdecl.resolve_right fun hseen => hseen (hlocalDecl hlocal)
      obtain ⟨x, hx, rfl⟩ := List.mem_map.mp hearlier
      exact ⟨⟨x, some (t, subject)⟩, hss x hx, by rw [hkey]; rfl⟩
    · have hkey : v.view.key d = d := by
        have hcontains : ¬ (t.steps.map Step.stepId).contains d = true :=
          fun h => hlocal (List.contains_iff_mem.mp h)
        rw [Context.key, hfills.locals, hlocals, if_neg hcontains]
      have hseen : (declareAll [] pre).lookup d ≠ none := by
        refine hdecl.resolve_left fun hmem => hlocal ?_
        rw [hsteps, List.map_append]
        exact List.mem_append_left _ hmem
      rw [hkey, or_iff_left hlocal]
      exact ⟨hrecorded hseen, hplanStep hseen⟩

/-- All a step refers to is a step of the plan, or of the step's own template. -/
def Step.ReadsVisible (plan : List PlanItem) (s : Step) : Prop :=
  ∀ item ∈ plan, s ∈ item.steps →
    ∀ d ∈ s.reads, d ∈ planIds plan ∨ d ∈ item.steps.map Step.stepId

/-- All a step refers to was visited before it, in its own view. -/
def Visit.ReadsVisited (v : Visit) : Prop := ∀ d ∈ v.step.reads, v.Knows d

theorem PlanItem.mem_ids_of_steps {item : PlanItem} {s : Step} (h : s ∈ item.steps) :
    s.stepId ∈ item.ids := by
  cases item with
  | step s' =>
      obtain rfl := List.mem_singleton.mp h
      exact step_ids s
  | forEach t => exact List.mem_cons_of_mem _ (List.mem_map_of_mem h)

/-- The item a place is in, and what its view means by the ids of that item. -/
theorem Placed.item {plan : List PlanItem} {before : List Slot} {s : Slot}
    (h : Placed plan before s) :
    ∃ item ∈ plan, s.step ∈ item.steps ∧ ∀ d, d ∈ planIds plan ∨ d ∈ s.locals
      ↔ d ∈ planIds plan ∨ d ∈ item.steps.map Step.stepId := by
  obtain ⟨pre, item, post, rfl, -, hstep, hinst⟩ := h
  refine ⟨item, by simp, ?_⟩
  rcases hs : s.instance_ with _ | ⟨t, subject⟩
  · obtain rfl := hstep hs
    refine ⟨List.mem_singleton_self _, fun d => ?_⟩
    have hown : d ∈ (PlanItem.step s.step).steps.map Step.stepId →
        d ∈ planIds (pre ++ .step s.step :: post) := by
      intro hd
      obtain rfl : d = s.step.stepId := List.mem_singleton.mp hd
      exact mem_planIds.mpr ⟨s.step, by simp, rfl⟩
    rw [Slot.locals, hs, or_iff_left List.not_mem_nil, or_iff_left_of_imp hown]
  · obtain ⟨rfl, ss, ss', hsteps, -⟩ := hinst t subject hs
    refine ⟨?_, fun d => ?_⟩
    · show s.step ∈ t.steps
      simp [hsteps]
    · rw [Slot.locals, hs]
      rfl

/-- In every state a run of an accepted plan reaches, a visit had what its
step refers to exactly if that is visible to the step. -/
theorem Reached.readsVisited_iff {env : Env σ} {registry : Registry} {plan : List PlanItem}
    {runner : σ} {st : RunState σ} (hacc : Accepted registry [] plan)
    (h : Reached env plan runner st) {v : Visit} (hv : v ∈ st.visits) :
    v.ReadsVisited ↔ v.step.ReadsVisible plan := by
  obtain ⟨enums, earlier, before, s, after, hslots, hfills, hfill, hseen⟩ := h.visit_at hv
  have hplaced := slots_split hslots
  have hids : earlier.map (fun u => u.record.stepId) = before.map fun x => x.identity.stepId :=
    map_eq_of_scheduled (fun u x hx => congrArg Identity.stepId hx.identity) hfill
  have hview : ∀ id, v.Knows id ↔ ∃ x ∈ before, x.identity.stepId = v.view.key id := by
    intro id
    have hknows : v.Knows id ↔ v.view.key id ∈ earlier.map fun u => u.record.stepId := by
      simp [Visit.Knows, hseen]
    rw [hknows, hids, List.mem_map]
  obtain ⟨item, hitem, hmem, hvisible⟩ := hplaced.item
  rw [← hfills.step] at hmem
  constructor
  · intro hread i hi hsi d hd
    obtain rfl : i = item := hacc.eq_of_mem_ids hi hitem (PlanItem.mem_ids_of_steps hsi)
      (PlanItem.mem_ids_of_steps hmem)
    have hknown := (hplaced.knows_iff hacc hfills hview hd).mp (hread d hd)
    rw [hfills.locals] at hknown
    exact (hvisible d).mp hknown
  · intro hreads d hd
    refine (hplaced.knows_iff hacc hfills hview hd).mpr ?_
    rw [hfills.locals]
    exact (hvisible d).mpr (hreads item hitem hmem d hd)

/-- Validation answers for every plan that has no fact named by something
else than a text and no plan step that depends on a template's step, or
that the rules refuse before that matters. And in the runs of an accepted
plan, all that the visited steps refer to was visited before, in their
own views, exactly if no visited step refers to a step of another
template, or to a template. -/
theorem validatePlan_sound_iff (plan : List PlanItem) (registry : Registry) :
    (Answered plan registry ↔
        RefusedByRules plan registry ∨ (¬ BadFact plan ∧ ¬ DependsInside plan))
      ∧ (validatePlan plan registry = .ok () →
          ∀ (σ : Type) (env : Env σ) (runner : σ) (st : RunState σ), Reached env plan runner st →
            ((∀ v ∈ st.visits, v.ReadsVisited) ↔ ∀ v ∈ st.visits, v.step.ReadsVisible plan)) := by
  refine ⟨answered_iff plan registry, fun hok σ env runner st hreached => ?_⟩
  have hacc := validatePlan_ok hok
  exact forall₂_congr fun v hv => hreached.readsVisited_iff hacc hv

/-! ## A source of subjects -/

namespace Listing

/-- A check that lists hosts. -/
def spec : CheckSpec :=
  { checkId := "replica_list", params := [], describe := "the replicas", evidence := ["hosts"] }

def registry : Registry := [("replica_list", spec)]

def step (id : String) : Step :=
  { stepId := id, capability := "replication", check := "replica_list", title := id, why := "" }

def template (id : String) (subjectType : String) (steps : List Step) : ForEach :=
  { templateId := id, source := "list.hosts", subjectType := subjectType, steps := steps,
    maxInstances := 16 }

/-- The check answers with some hosts; the runner counts its runs. -/
def env (hosts : List Value) : Env Nat :=
  { run := fun runs check params _ =>
      (.ok { checkId := check, params := params, status := OK, fields := [("hosts", .list hosts)] },
        runs + 1)
    runs := id
    replay := false
    clock := fun _ => 0
    utc := fun _ => ""
    registry := registry
    inputs := []
    isRoot := true
    maxSeconds := 60
    maxSteps := 48
    privilegeHint := "" }

end Listing

open Listing in
/-- A plan whose template requires the plan step it takes its subjects from. -/
def listedPlan : List PlanItem :=
  [.step (step "list"),
    .forEach (template "each" "fqdn" [step "ping",
      { step "sync" with requires := [{ step := "list" }, { step := "ping" }] }])]

theorem listed_runs :
    returns (fun st : RunState Nat => st.visits.length == 3)
      (runPlanState listedPlan (Listing.env [.str "r1.example.test"]) 0) = true := by
  decide +kernel

theorem validatePlan_sound_iff_listed :
    ∃ st, runPlanState listedPlan (Listing.env [.str "r1.example.test"]) 0 = .ok st
      ∧ st.visits.length = 3
      ∧ ((∀ v ∈ st.visits, v.ReadsVisited) ↔ ∀ v ∈ st.visits, v.step.ReadsVisible listedPlan) := by
  obtain ⟨st, hst, hlen⟩ := returns_iff.mp listed_runs
  obtain ⟨hvalid, hreached⟩ := runPlanState_ok hst
  exact ⟨st, hst, eq_of_beq hlen,
    (validatePlan_sound_iff listedPlan Listing.registry).2 hvalid Nat _ 0 st hreached⟩

open Listing in
/-- A plan whose last step depends on a template's step. -/
def insidePlan : List PlanItem :=
  [.step (step "list"), .forEach (template "each" "fqdn" [step "ping"]),
    .step { step "after" with after := ["ping"] }]

open Listing in
/-- A plan with a template that requires a step of another one. -/
def acrossPlan : List PlanItem :=
  [.step (step "list"), .forEach (template "first" "fqdn" [step "ping"]),
    .forEach (template "second" "fqdn" [{ step "sync" with requires := [{ step := "ping" }] }])]

instance (v : Visit) : DecidablePred v.Knows := fun _ =>
  inferInstanceAs (Decidable (∃ r ∈ v.view.records.tail, _))

instance : DecidablePred Visit.ReadsVisited := fun v =>
  inferInstanceAs (Decidable (∀ d ∈ v.step.reads, v.Knows d))

/-- Validating the first plan is a key error; the second is accepted, and
its run visits a step before what it requires. -/
theorem templates_not_in_one_namespace :
    validatePlan insidePlan Listing.registry = .error .keyError
      ∧ validatePlan acrossPlan Listing.registry = .ok ()
      ∧ ∃ st, runPlanState acrossPlan (Listing.env [.str "r1.example.test"]) 0 = .ok st
          ∧ ∃ v ∈ st.visits, ¬ v.ReadsVisited := by
  refine ⟨by decide +kernel, by decide +kernel, ?_⟩
  have hrun : returns (fun st : RunState Nat => decide (∃ v ∈ st.visits, ¬ v.ReadsVisited))
      (runPlanState acrossPlan (Listing.env [.str "r1.example.test"]) 0) = true := by
    decide +kernel
  obtain ⟨st, hst, hv⟩ := returns_iff.mp hrun
  exact ⟨st, hst, of_decide_eq_true hv⟩

end IpaDiagnose.Planner
