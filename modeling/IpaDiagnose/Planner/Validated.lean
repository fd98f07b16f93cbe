import IpaDiagnose.Lib.Ranked
import IpaDiagnose.Lib.Result
import IpaDiagnose.Planner.Validate

/-!
# What validation establishes

`Accepted` says of a plan, item by item, what `validatePlan` has checked
of it against the items before. Later proofs use it and never unfold the
validator. The second half is about ids: no id is declared by two items,
and none has the character reserved for the instances of templates.
-/

namespace IpaDiagnose.Planner

open Py (Value Dict Exc)
open Result

/-! ## What is checked of a step -/

/-- A dependency on an earlier step. -/
def DepOk (seen : Seen) (local_ : List String) (d : String) : Prop :=
  d ∈ local_ ∨ ∃ s, seen.lookup d = some (.step s)

/-- A parameter: a literal, or a reference, one to a fact of something
declared before. -/
def ParamOk (seen : Seen) (local_ : List String) : Param → Prop
  | .lit _ => True
  | .tuple [kind, ref] =>
      kind.pyEq (.str "fact") = true →
        ∃ r, ref = .str r ∧ (refStep r ∈ local_ ∨ (seen.lookup (refStep r)).isSome = true)
  | .tuple _ => False

structure StepOk (registry : Registry) (seen : Seen) (local_ : List String) (inTemplate : Bool)
    (s : Step) : Prop where
  fresh : seen.lookup s.stepId = none ∧ s.stepId ∉ local_
  named : '@' ∉ s.stepId.toList ∧ s.stepId ≠ ""
  registered : ∃ spec, registry.lookup s.check = some spec
  deps : ∀ d ∈ deps s, DepOk seen local_ d
  params : ∀ p ∈ s.params, ParamOk seen local_ p.2
  retries : s.retries ≤ MAX_RETRIES
  template : inTemplate = true → s.stop = none ∧ s.retries = 0
  plan : inTemplate = false → s.stopSubject = none

theorem refuseIf_ok {bad : Prop} [Decidable bad] {m : String} {u : Unit}
    (h : refuseIf bad m = .ok u) : ¬ bad := by
  intro hbad
  rw [refuseIf, if_pos hbad] at h
  cases h

theorem checkDep_ok {s : Step} {seen : Seen} {local_ : List String} {d : String} {u : Unit}
    (h : checkDep s seen local_ d = .ok u) : DepOk seen local_ d := by
  unfold checkDep at h
  split at h
  · cases h
  · rename_i hdecl
    rcases hl : seen.lookup d with _ | e
    · exact .inl (by simpa [hl] using hdecl)
    · rcases e with s' | t
      · exact .inr ⟨s', hl⟩
      · simp [hl, refuse] at h

theorem checkDeps_ok {s : Step} {seen : Seen} {local_ : List String} {ds : List String} {u : Unit}
    (h : checkDeps s seen local_ ds = .ok u) : ∀ d ∈ ds, DepOk seen local_ d := by
  induction ds with
  | nil => exact nofun
  | cons d ds ih =>
      obtain ⟨_, hd, h⟩ := bind_ok.mp h
      intro e he
      rcases List.mem_cons.mp he with rfl | he
      · exact checkDep_ok hd
      · exact ih h e he

theorem checkParam_ok {s : Step} {seen : Seen} {local_ : List String} {inTemplate : Bool}
    {p : Param} {u : Unit} (h : checkParam s seen local_ inTemplate p = .ok u) :
    ParamOk seen local_ p := by
  unfold checkParam at h
  split at h
  · trivial
  · rename_i kind ref
    intro hfact
    split at h
    · cases h
    · split at h
      · rename_i r
        split at h
        · cases h
        · rename_i hdecl
          refine ⟨r, rfl, ?_⟩
          by_cases hl : refStep r ∈ local_
          · exact .inl hl
          · exact .inr (by simpa [hl] using hdecl)
      · cases h
  · cases h

theorem checkParams_ok {s : Step} {seen : Seen} {local_ : List String} {inTemplate : Bool}
    {ps : List (String × Param)} {u : Unit}
    (h : checkParams s seen local_ inTemplate ps = .ok u) :
    ∀ p ∈ ps, ParamOk seen local_ p.2 := by
  induction ps with
  | nil => exact nofun
  | cons p ps ih =>
      obtain ⟨_, hp, h⟩ := bind_ok.mp h
      intro q hq
      rcases List.mem_cons.mp hq with rfl | hq
      · exact checkParam_ok hp
      · exact ih h q hq

theorem checkRules_ok {s : Step} {spec : CheckSpec} {inTemplate : Bool} {u : Unit}
    (h : checkRules s spec inTemplate = .ok u) :
    s.retries ≤ MAX_RETRIES ∧ (inTemplate = true → s.stop = none ∧ s.retries = 0)
      ∧ (inTemplate = false → s.stopSubject = none) := by
  unfold checkRules at h
  split at h
  · cases h
  · rename_i hretries
    refine ⟨not_lt.mp hretries, ?_⟩
    split at h
    · cases h
    · split at h
      · rename_i hin
        refine ⟨fun _ => ?_, fun hout => by simp [hin] at hout⟩
        split at h
        · cases h
        · rename_i hstop
          split at h
          · cases h
          · rename_i hzero
            exact ⟨by simpa using hstop, not_not.mp hzero⟩
      · rename_i hin
        refine ⟨fun h' => absurd h' hin, fun _ => ?_⟩
        split at h
        · cases h
        · rename_i hsub
          simpa using hsub

theorem validateNew_ok {registry : Registry} {s : Step} {seen : Seen} {local_ : List String}
    {inTemplate : Bool} {u : Unit} (h : validateNew registry s seen local_ inTemplate = .ok u) :
    StepOk registry seen local_ inTemplate s := by
  unfold validateNew at h
  split at h
  · cases h
  · rename_i hfresh
    split at h
    · cases h
    · rename_i spec hspec
      unfold validateStep at h
      obtain ⟨_, hname, h⟩ := bind_ok.mp h
      obtain ⟨_, -, h⟩ := bind_ok.mp h
      obtain ⟨_, hdeps, h⟩ := bind_ok.mp h
      obtain ⟨_, hparams, h⟩ := bind_ok.mp h
      obtain ⟨hretries, htemplate, hplan⟩ := checkRules_ok h
      have hname := refuseIf_ok hname
      simp only [PyStr.hasChar, List.contains_iff_mem, not_or] at hname
      simp only [not_or, Bool.not_eq_true, Option.isSome_eq_false_iff, Option.isNone_iff_eq_none]
        at hfresh
      exact ⟨hfresh, hname, ⟨spec, hspec⟩, checkDeps_ok hdeps, checkParams_ok hparams, hretries,
        htemplate, hplan⟩

/-! ## Items -/

/-- The steps of a template, each against the ids before it, newest first. -/
def StepsOk (registry : Registry) (seen : Seen) : List Step → List String → Prop
  | [], _ => True
  | s :: ss, local_ => StepOk registry seen local_ true s
      ∧ StepsOk registry seen ss (s.stepId :: local_)

theorem validateSteps_ok {registry : Registry} {seen : Seen} {ss : List Step}
    {local_ out : List String} (h : validateSteps registry seen ss local_ = .ok out) :
    StepsOk registry seen ss local_ := by
  induction ss generalizing local_ with
  | nil => trivial
  | cons s ss ih =>
      obtain ⟨_, hs, h⟩ := bind_ok.mp h
      exact ⟨validateNew_ok hs, ih h⟩

structure TemplateOk (registry : Registry) (seen : Seen) (t : ForEach) : Prop where
  fresh : seen.lookup t.templateId = none
  named : '@' ∉ t.templateId.toList
  instances : 1 ≤ t.maxInstances ∧ t.maxInstances ≤ MAX_INSTANCES
  subjectType : T.isType t.subjectType = true
  source : isPlanStep seen (refStep t.source) = true
  complete : ∀ ref, t.completeFact = some ref → isPlanStep seen (refStep ref) = true
  nonempty : t.steps ≠ []
  steps : StepsOk registry seen t.steps []

theorem checkSource_ok {t : ForEach} {seen : Seen} {ref : String} {u : Unit}
    (h : checkSource t seen ref = .ok u) : isPlanStep seen (refStep ref) = true := by
  unfold checkSource at h
  split at h
  · assumption
  · cases h

theorem validateTemplate_ok {registry : Registry} {t : ForEach} {seen seen' : Seen}
    (h : validateTemplate registry t seen = .ok seen') :
    seen' = declareTemplate t seen ∧ TemplateOk registry seen t := by
  unfold validateTemplate at h
  obtain ⟨_, hid, h⟩ := bind_ok.mp h
  obtain ⟨_, hmax, h⟩ := bind_ok.mp h
  obtain ⟨_, htype, h⟩ := bind_ok.mp h
  obtain ⟨_, hsource, h⟩ := bind_ok.mp h
  obtain ⟨_, hcomplete, h⟩ := bind_ok.mp h
  obtain ⟨_, hne, h⟩ := bind_ok.mp h
  obtain ⟨local_, hsteps, h⟩ := bind_ok.mp h
  have hid := refuseIf_ok hid
  simp only [PyStr.hasChar, List.contains_iff_mem, not_or, Bool.not_eq_true,
    Option.isSome_eq_false_iff, Option.isNone_iff_eq_none] at hid
  refine ⟨(pure_ok.mp h).symm, hid.1, hid.2.1, not_not.mp (refuseIf_ok hmax),
    by simpa using refuseIf_ok htype, checkSource_ok hsource, ?_, refuseIf_ok hne,
    validateSteps_ok hsteps⟩
  intro ref hc
  rw [checkComplete, hc] at hcomplete
  exact checkSource_ok hcomplete

/-- What an item adds to the declarations. -/
def declare (seen : Seen) : PlanItem → Seen
  | .forEach t => declareTemplate t seen
  | .step s => (s.stepId, .step s) :: seen

def ItemOk (registry : Registry) (seen : Seen) : PlanItem → Prop
  | .forEach t => TemplateOk registry seen t
  | .step s => StepOk registry seen [] false s

/-- Every item of a plan is as checked, against the items before it. -/
def Accepted (registry : Registry) : Seen → List PlanItem → Prop
  | _, [] => True
  | seen, item :: rest =>
      ItemOk registry seen item ∧ Accepted registry (declare seen item) rest

theorem validateItem_ok {registry : Registry} {seen seen' : Seen} {item : PlanItem}
    (h : validateItem registry seen item = .ok seen') :
    seen' = declare seen item ∧ ItemOk registry seen item := by
  cases item with
  | forEach t => exact validateTemplate_ok h
  | step s =>
      obtain ⟨_, hs, h⟩ := bind_ok.mp h
      exact ⟨(pure_ok.mp h).symm, validateNew_ok hs⟩

theorem validateItems_ok {registry : Registry} {seen out : Seen} {plan : List PlanItem}
    (h : validateItems registry seen plan = .ok out) : Accepted registry seen plan := by
  induction plan generalizing seen with
  | nil => trivial
  | cons item rest ih =>
      obtain ⟨seen', hitem, h⟩ := bind_ok.mp h
      obtain ⟨rfl, hok⟩ := validateItem_ok hitem
      exact ⟨hok, ih h⟩

theorem validateRules_ok {plan : List PlanItem} {registry : Registry} {u : Unit}
    (h : validateRules plan registry = .ok u) : Accepted registry [] plan := by
  unfold validateRules at h
  obtain ⟨_, -, h⟩ := bind_ok.mp h
  obtain ⟨_, -, h⟩ := bind_ok.mp h
  obtain ⟨_, hitems, h⟩ := bind_ok.mp h
  exact validateItems_ok hitems

theorem validatePlan_ok {plan : List PlanItem} {registry : Registry} {u : Unit}
    (h : validatePlan plan registry = .ok u) : Accepted registry [] plan := by
  obtain ⟨_, hrules, -⟩ := bind_ok.mp h
  exact validateRules_ok hrules

/-! ## Ids -/

/-- The ids an item declares. -/
def PlanItem.ids : PlanItem → List String
  | .step s => [s.stepId]
  | .forEach t => t.templateId :: t.steps.map Step.stepId

/-- The id an item goes by in its plan. -/
def PlanItem.id : PlanItem → String
  | .step s => s.stepId
  | .forEach t => t.templateId

/-- The ids of the steps of a plan, without those of its templates. -/
def planIds (plan : List PlanItem) : List String :=
  plan.filterMap fun
    | .step s => some s.stepId
    | .forEach _ => none

/-- What a plan has declared. -/
def declareAll (seen : Seen) (plan : List PlanItem) : Seen := plan.foldl declare seen

theorem mem_planIds {plan : List PlanItem} {id : String} :
    id ∈ planIds plan ↔ ∃ s, .step s ∈ plan ∧ s.stepId = id := by
  constructor
  · intro h
    obtain ⟨item, hitem, hid⟩ := List.mem_filterMap.mp h
    cases item with
    | step s => exact ⟨s, hitem, by simpa using hid⟩
    | forEach t => cases hid
  · rintro ⟨s, hs, rfl⟩
    exact List.mem_filterMap.mpr ⟨_, hs, rfl⟩

theorem lookup_declare_none {seen : Seen} {item : PlanItem} {id : String} :
    (declare seen item).lookup id = none ↔ id ∉ item.ids ∧ seen.lookup id = none := by
  cases item with
  | step s => simp [declare, PlanItem.ids]
  | forEach t =>
      simp only [declare, declareTemplate, PlanItem.ids, List.lookup_eq_none_iff, List.mem_cons,
        List.mem_append, List.mem_reverse, List.mem_map, not_or]
      constructor
      · intro h
        refine ⟨⟨by simpa using h _ (.inl rfl), ?_⟩, fun d hd => h d (.inr (.inr hd))⟩
        rintro ⟨s, hs, rfl⟩
        simpa using h _ (.inr (.inl ⟨s, hs, rfl⟩))
      · rintro ⟨⟨hid, hsteps⟩, hseen⟩ d (rfl | ⟨s, hs, rfl⟩ | hd)
        · simpa using hid
        · simpa using fun heq => hsteps ⟨s, hs, heq.symm⟩
        · exact hseen d hd

/-- An id that means a step was declared by that step or by its template. -/
theorem lookup_declare_step {seen : Seen} {item : PlanItem} {id : String} {s : Step}
    (h : (declare seen item).lookup id = some (.step s)) :
    seen.lookup id = some (.step s) ∨ (s.stepId = id ∧ item = .step s)
      ∨ (s.stepId = id ∧ ∃ t, item = .forEach t ∧ s ∈ t.steps ∧ t.templateId ≠ id) := by
  cases item with
  | step s' =>
      rw [declare, List.lookup_cons] at h
      split at h
      · rename_i hid
        injection h with h
        injection h with h
        subst h
        exact .inr (.inl ⟨(eq_of_beq hid).symm, rfl⟩)
      · exact .inl h
  | forEach t =>
      rw [declare, declareTemplate, List.lookup_cons] at h
      split at h
      · cases h
      · rename_i hid
        rw [List.lookup_append, Option.or_eq_some_iff] at h
        rcases h with h | ⟨-, h⟩
        · obtain ⟨l₁, l₂, hl, -⟩ := List.lookup_eq_some_iff.mp h
          have hmem : (id, Declared.step s) ∈ (t.steps.map fun s => (s.stepId, Declared.step s)) := by
            rw [← List.mem_reverse, hl]
            simp
          obtain ⟨s', hs', heq⟩ := List.mem_map.mp hmem
          injection heq with hid' hs''
          injection hs'' with hs''
          subst hs''
          refine .inr (.inr ⟨hid', t, rfl, hs', ?_⟩)
          rintro rfl
          simp at hid
        · exact .inl h

theorem lookup_declareAll_none {seen : Seen} {plan : List PlanItem} {id : String} :
    (declareAll seen plan).lookup id = none
      ↔ (∀ item ∈ plan, id ∉ item.ids) ∧ seen.lookup id = none := by
  induction plan generalizing seen with
  | nil => simp [declareAll]
  | cons item rest ih =>
      rw [declareAll, List.foldl_cons, ← declareAll, ih, lookup_declare_none]
      simp [and_assoc, and_left_comm]

/-- In an accepted plan an id that means a step is a plan step's, or one of
a template's steps other than the template's own. -/
theorem lookup_declareAll_step {plan : List PlanItem} {id : String} {s : Step} {seen : Seen}
    (h : (declareAll seen plan).lookup id = some (.step s)) :
    seen.lookup id = some (.step s) ∨ (s.stepId = id ∧ .step s ∈ plan)
      ∨ (s.stepId = id ∧ ∃ t, .forEach t ∈ plan ∧ s ∈ t.steps ∧ t.templateId ≠ id) := by
  induction plan generalizing seen with
  | nil => exact .inl h
  | cons item rest ih =>
      rcases ih h with h | ⟨hid, h⟩ | ⟨hid, t, ht, hs, hne⟩
      · rcases lookup_declare_step h with h | ⟨hid, rfl⟩ | ⟨hid, t, rfl, hs, hne⟩
        · exact .inl h
        · exact .inr (.inl ⟨hid, List.mem_cons_self⟩)
        · exact .inr (.inr ⟨hid, t, List.mem_cons_self, hs, hne⟩)
      · exact .inr (.inl ⟨hid, List.mem_cons_of_mem _ h⟩)
      · exact .inr (.inr ⟨hid, t, List.mem_cons_of_mem _ ht, hs, hne⟩)

theorem StepsOk.fresh {registry : Registry} {seen : Seen} {ss : List Step} {local_ : List String}
    (h : StepsOk registry seen ss local_) :
    (∀ s ∈ ss, seen.lookup s.stepId = none ∧ s.stepId ∉ local_ ∧ '@' ∉ s.stepId.toList)
      ∧ (ss.map Step.stepId).Nodup := by
  induction ss generalizing local_ with
  | nil => exact ⟨nofun, List.nodup_nil⟩
  | cons s ss ih =>
      obtain ⟨hs, h⟩ := h
      obtain ⟨hfresh, hnodup⟩ := ih h
      constructor
      · intro s' hs'
        rcases List.mem_cons.mp hs' with rfl | hs'
        · exact ⟨hs.fresh.1, hs.fresh.2, hs.named.1⟩
        · obtain ⟨hseen, hlocal, hname⟩ := hfresh s' hs'
          exact ⟨hseen, fun hmem => hlocal (List.mem_cons_of_mem _ hmem), hname⟩
      · rw [List.map_cons, List.nodup_cons]
        refine ⟨fun hmem => ?_, hnodup⟩
        obtain ⟨s', hs', hid⟩ := List.mem_map.mp hmem
        exact (hfresh s' hs').2.1 (by rw [hid]; exact List.mem_cons_self)

theorem ItemOk.fresh {registry : Registry} {seen : Seen} {item : PlanItem}
    (h : ItemOk registry seen item) :
    ∀ id ∈ item.ids, seen.lookup id = none ∧ '@' ∉ id.toList := by
  intro id hid
  cases item with
  | step s =>
      obtain rfl := List.mem_singleton.mp hid
      exact ⟨(StepOk.fresh h).1, (StepOk.named h).1⟩
  | forEach t =>
      rcases List.mem_cons.mp hid with rfl | hid
      · exact ⟨TemplateOk.fresh h, TemplateOk.named h⟩
      · obtain ⟨s, hs, rfl⟩ := List.mem_map.mp hid
        obtain ⟨hseen, -, hname⟩ := (TemplateOk.steps h).fresh.1 s hs
        exact ⟨hseen, hname⟩

/-- Every item of an accepted plan is checked against the items before it. -/
theorem Accepted.item {registry : Registry} {seen : Seen} {pre post : List PlanItem}
    {item : PlanItem} (h : Accepted registry seen (pre ++ item :: post)) :
    ItemOk registry (declareAll seen pre) item := by
  induction pre generalizing seen with
  | nil => exact h.1
  | cons i pre ih => exact ih h.2

theorem Accepted.fresh {registry : Registry} {seen : Seen} {plan : List PlanItem}
    (h : Accepted registry seen plan) :
    ∀ item ∈ plan, ∀ id ∈ item.ids, seen.lookup id = none ∧ '@' ∉ id.toList := by
  intro item hitem id hid
  obtain ⟨pre, post, rfl⟩ := List.append_of_mem hitem
  obtain ⟨hnone, hname⟩ := h.item.fresh id hid
  exact ⟨(lookup_declareAll_none.mp hnone).2, hname⟩

theorem Accepted.disjoint {registry : Registry} {seen : Seen} {plan : List PlanItem}
    (h : Accepted registry seen plan) : plan.Pairwise fun i j => i.ids.Disjoint j.ids := by
  induction plan generalizing seen with
  | nil => exact .nil
  | cons item rest ih =>
      refine .cons (fun j hj id hid hid' => ?_) (ih h.2)
      have hnone := (h.2.fresh j hj id hid').1
      exact (lookup_declare_none.mp hnone).1 hid

/-- Two items that declare one id are the same item. -/
theorem Accepted.eq_of_mem_ids {registry : Registry} {seen : Seen} {plan : List PlanItem}
    (h : Accepted registry seen plan) {i j : PlanItem} (hi : i ∈ plan) (hj : j ∈ plan)
    {id : String} (hid : id ∈ i.ids) (hid' : id ∈ j.ids) : i = j := by
  by_contra hne
  have hsymm : Std.Symm fun i j : PlanItem => i.ids.Disjoint j.ids :=
    ⟨fun _ _ hd _ hi hj => hd hj hi⟩
  have hdis : i.ids.Disjoint j.ids := h.disjoint.forall hi hj hne
  exact hdis hid hid'

end IpaDiagnose.Planner
