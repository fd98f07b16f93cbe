import IpaDiagnose.Planner.Validated

/-!
# How validation fails

A plan is refused with a `PlanError`. Two plans escape that: one with a
fact whose name is no text, which has no step to look up, and one with a
plan step that depends on a template's step, which the pass over the
depths does not know.
-/

namespace IpaDiagnose.Planner

open Py (Value Dict Exc)
open Result

/-! ## The rules -/

/-- A reference to a fact by something that is no text. -/
def Param.BadFact : Param → Prop
  | .tuple [kind, ref] => kind.pyEq (.str "fact") = true ∧ ∀ r, ref ≠ .str r
  | _ => False

def Step.BadFact (s : Step) : Prop := ∃ p ∈ s.params, p.2.BadFact

def BadFact (plan : List PlanItem) : Prop := ∃ item ∈ plan, ∃ s ∈ item.steps, s.BadFact

/-- Nothing is raised but a `PlanError`, unless the plan is bad. -/
def Refuses (bad : Prop) {α : Type} (x : Except E α) : Prop :=
  ∀ e, x = .error e → (∃ m, e = .own m) ∨ bad

namespace Refuses

variable {bad : Prop} {α β : Type}

theorem ok (a : α) : Refuses bad (.ok a : Except E α) := nofun

theorem refuse (m : String) : Refuses bad (refuse m : Except E α) := by
  intro e h
  injection h with h
  exact .inl ⟨_, h.symm⟩

theorem bind {x : Except E α} {f : α → Except E β} (hx : Refuses bad x)
    (hf : ∀ a, Refuses bad (f a)) : Refuses bad (x >>= f) := by
  intro e h
  rcases bind_error.mp h with h | ⟨a, -, h⟩
  · exact hx e h
  · exact hf a e h

theorem refuseIf (c : Prop) [Decidable c] (m : String) : Refuses bad (refuseIf c m) := by
  unfold Planner.refuseIf
  split
  · exact refuse m
  · exact ok ()

theorem mono {bad' : Prop} {x : Except E α} (h : Refuses bad x) (hb : bad → bad') :
    Refuses bad' x := by
  intro e he
  exact (h e he).imp_right hb

end Refuses

theorem checkDep_refuses (s : Step) (seen : Seen) (local_ : List String) (d : String) :
    Refuses False (checkDep s seen local_ d) := by
  unfold checkDep
  split
  · exact .refuse _
  · split
    · exact .refuse _
    · exact .ok ()

theorem checkDeps_refuses (s : Step) (seen : Seen) (local_ ds : List String) :
    Refuses False (checkDeps s seen local_ ds) := by
  induction ds with
  | nil => exact .ok ()
  | cons d ds ih => exact .bind (checkDep_refuses s seen local_ d) fun _ => ih

theorem checkParam_refuses (s : Step) (seen : Seen) (local_ : List String) (inTemplate : Bool)
    (p : Param) : Refuses p.BadFact (checkParam s seen local_ inTemplate p) := by
  unfold checkParam
  split
  · exact .ok ()
  · rename_i kind ref
    split
    · exact .refuse _
    · split
      · rename_i hfact
        split
        · split
          · exact .refuse _
          · exact .ok ()
        · rename_i hstr
          intro e _
          exact .inr ⟨hfact, hstr⟩
      · exact .ok ()
  · exact .refuse _

theorem checkParams_refuses (s : Step) (seen : Seen) (local_ : List String) (inTemplate : Bool)
    (ps : List (String × Param)) :
    Refuses (∃ p ∈ ps, p.2.BadFact) (checkParams s seen local_ inTemplate ps) := by
  induction ps with
  | nil => exact .ok ()
  | cons p ps ih =>
      refine .bind ((checkParam_refuses s seen local_ inTemplate p.2).mono ?_) fun _ => ih.mono ?_
      · exact fun hbad => ⟨p, List.mem_cons_self, hbad⟩
      · rintro ⟨q, hq, hbad⟩
        exact ⟨q, List.mem_cons_of_mem _ hq, hbad⟩

theorem checkRules_refuses (s : Step) (spec : CheckSpec) (inTemplate : Bool) :
    Refuses False (checkRules s spec inTemplate) := by
  unfold checkRules
  repeat' split
  all_goals first | exact .refuse _ | exact .ok ()

theorem validateNew_refuses (registry : Registry) (s : Step) (seen : Seen) (local_ : List String)
    (inTemplate : Bool) : Refuses s.BadFact (validateNew registry s seen local_ inTemplate) := by
  unfold validateNew
  split
  · exact .refuse _
  · split
    · exact .refuse _
    · exact .bind (.refuseIf _ _) fun _ => .bind (.refuseIf _ _) fun _ =>
        .bind ((checkDeps_refuses s seen local_ _).mono False.elim) fun _ =>
          .bind (checkParams_refuses s seen local_ inTemplate _) fun _ =>
            (checkRules_refuses s _ inTemplate).mono False.elim

theorem validateSteps_refuses (registry : Registry) (seen : Seen) (ss : List Step)
    (local_ : List String) :
    Refuses (∃ s ∈ ss, s.BadFact) (validateSteps registry seen ss local_) := by
  induction ss generalizing local_ with
  | nil => exact .ok _
  | cons s ss ih =>
      refine .bind ((validateNew_refuses registry s seen local_ true).mono ?_) fun _ =>
        (ih _).mono ?_
      · exact fun hbad => ⟨s, List.mem_cons_self, hbad⟩
      · rintro ⟨s', hs', hbad⟩
        exact ⟨s', List.mem_cons_of_mem _ hs', hbad⟩

theorem checkSource_refuses (t : ForEach) (seen : Seen) (ref : String) :
    Refuses False (checkSource t seen ref) := by
  unfold checkSource
  split
  · exact .ok ()
  · exact .refuse _

theorem checkComplete_refuses (t : ForEach) (seen : Seen) :
    Refuses False (checkComplete t seen) := by
  unfold checkComplete
  split
  · exact .ok ()
  · exact checkSource_refuses t seen _

theorem validateItem_refuses (registry : Registry) (seen : Seen) (item : PlanItem) :
    Refuses (∃ s ∈ item.steps, s.BadFact) (validateItem registry seen item) := by
  cases item with
  | step s =>
      refine .bind ((validateNew_refuses registry s seen [] false).mono ?_) fun _ => .ok _
      exact fun hbad => ⟨s, List.mem_singleton_self s, hbad⟩
  | forEach t =>
      exact .bind (.refuseIf _ _) fun _ => .bind (.refuseIf _ _) fun _ =>
        .bind (.refuseIf _ _) fun _ =>
          .bind ((checkSource_refuses t seen _).mono False.elim) fun _ =>
            .bind ((checkComplete_refuses t seen).mono False.elim) fun _ =>
              .bind (.refuseIf _ _) fun _ =>
                .bind (validateSteps_refuses registry seen t.steps []) fun _ => .ok _

theorem validateItems_refuses (registry : Registry) (seen : Seen) (plan : List PlanItem) :
    Refuses (BadFact plan) (validateItems registry seen plan) := by
  induction plan generalizing seen with
  | nil => exact .ok _
  | cons item rest ih =>
      refine .bind ((validateItem_refuses registry seen item).mono ?_) fun _ => (ih _).mono ?_
      · exact fun hbad => ⟨item, List.mem_cons_self, hbad⟩
      · rintro ⟨i, hi, hbad⟩
        exact ⟨i, List.mem_cons_of_mem _ hi, hbad⟩

theorem validateRules_refuses (plan : List PlanItem) (registry : Registry) :
    Refuses (BadFact plan) (validateRules plan registry) :=
  .bind (.refuseIf _ _) fun _ => .bind (.refuseIf _ _) fun _ =>
    .bind (validateItems_refuses registry [] plan) fun _ => .refuseIf _ _

theorem ParamOk.not_badFact {seen : Seen} {local_ : List String} {p : Param}
    (h : ParamOk seen local_ p) : ¬ p.BadFact := by
  unfold Param.BadFact
  split
  · rintro ⟨hfact, hstr⟩
    obtain ⟨r, hr, -⟩ := h hfact
    exact hstr r hr
  · exact id

theorem StepsOk.mem {registry : Registry} {seen : Seen} {pre post : List Step} {s : Step}
    {local_ : List String} (h : StepsOk registry seen (pre ++ s :: post) local_) :
    StepOk registry seen ((pre.map Step.stepId).reverse ++ local_) true s := by
  induction pre generalizing local_ with
  | nil => exact h.1
  | cons s' pre ih =>
      rw [List.map_cons, List.reverse_cons, List.append_assoc]
      exact ih h.2

theorem Accepted.not_badFact {registry : Registry} {seen : Seen} {plan : List PlanItem}
    (h : Accepted registry seen plan) : ¬ BadFact plan := by
  rintro ⟨item, hitem, s, hs, p, hp, hbad⟩
  obtain ⟨pre, post, rfl⟩ := List.append_of_mem hitem
  have hok := h.item
  cases item with
  | step s' =>
      obtain rfl := List.mem_singleton.mp hs
      exact (StepOk.params hok p hp).not_badFact hbad
  | forEach t =>
      obtain ⟨ss, ss', heq⟩ := List.append_of_mem hs
      have hsteps := TemplateOk.steps hok
      rw [show t.steps = ss ++ s :: ss' from heq] at hsteps
      exact (hsteps.mem.params p hp).not_badFact hbad

/-! ## The depth -/

theorem depthsOf_ok {depth : List (String × Nat)} {ds : List String} :
    (∃ ns, depthsOf depth ds = .ok ns) ↔ ∀ d ∈ ds, depth.lookup d ≠ none := by
  induction ds with
  | nil => simp [depthsOf]
  | cons d ds ih =>
      rw [depthsOf, List.forall_mem_cons, ← ih]
      rcases hd : depth.lookup d with _ | n
      · simp
      · simp [map_ok]

/-- An item gives a depth to its own id, if the dependencies of a plan step have one. -/
theorem depthItem_ok {depth : List (String × Nat)} {item : PlanItem} :
    (∃ depth', depthItem depth item = .ok depth') ↔
      ∀ s, item = .step s → ∀ d ∈ deps s, depth.lookup d ≠ none := by
  cases item with
  | forEach t =>
      constructor
      · intro _ s h
        cases h
      · intro _
        exact ⟨_, rfl⟩
  | step s =>
      constructor
      · rintro ⟨depth', h⟩ s' heq
        injection heq with heq
        subst heq
        obtain ⟨ns, hns, -⟩ := map_ok.mp h
        exact depthsOf_ok.mp ⟨ns, hns⟩
      · intro h
        obtain ⟨ns, hns⟩ := depthsOf_ok.mpr (h s rfl)
        exact ⟨_, map_ok.mpr ⟨ns, hns, rfl⟩⟩

theorem depthItem_lookup {depth depth' : List (String × Nat)} {item : PlanItem}
    (h : depthItem depth item = .ok depth') (id : String) :
    depth'.lookup id = none ↔ id ≠ item.id ∧ depth.lookup id = none := by
  have hcons : ∃ n, depth' = (item.id, n) :: depth := by
    cases item with
    | forEach t =>
        injection h with h
        exact ⟨_, h.symm⟩
    | step s =>
        obtain ⟨ns, -, h⟩ := map_ok.mp h
        exact ⟨_, h.symm⟩
  obtain ⟨n, rfl⟩ := hcons
  simp [List.lookup_eq_none_iff]

/-- A depth is found for a plan if and only if the plan steps depend only on
what has one: the items before. -/
theorem depthItems_ok {depth : List (String × Nat)} {plan : List PlanItem} :
    (∃ depth', depthItems depth plan = .ok depth') ↔
      ∀ pre s post, plan = pre ++ .step s :: post →
        ∀ d ∈ deps s, depth.lookup d ≠ none ∨ d ∈ pre.map PlanItem.id := by
  induction plan generalizing depth with
  | nil => exact ⟨fun _ pre s post h => by simp at h, fun _ => ⟨depth, rfl⟩⟩
  | cons item rest ih =>
      constructor
      · rintro ⟨depth', h⟩ pre s post heq d hd
        obtain ⟨depth₁, h₁, h⟩ := bind_ok.mp h
        cases pre with
        | nil =>
            injection heq with heq _
            exact .inl (depthItem_ok.mp ⟨_, h₁⟩ s heq d hd)
        | cons i pre =>
            injection heq with hi heq
            subst hi
            rcases ih.mp ⟨depth', h⟩ pre s post heq d hd with hl | hmem
            · by_cases hid : d = item.id
              · exact .inr (by simp [hid])
              · exact .inl fun hn => hl ((depthItem_lookup h₁ d).mpr ⟨hid, hn⟩)
            · exact .inr (List.mem_cons_of_mem _ hmem)
      · intro h
        have hfirst : ∃ depth₁, depthItem depth item = .ok depth₁ := by
          refine depthItem_ok.mpr fun s hs d hd => ?_
          subst hs
          simpa using h [] s rest rfl d hd
        obtain ⟨depth₁, h₁⟩ := hfirst
        have hrest : ∃ depth', depthItems depth₁ rest = .ok depth' := by
          refine ih.mpr fun pre s post heq d hd => ?_
          rcases h (item :: pre) s post (by rw [heq]; rfl) d hd with hl | hmem
          · exact .inl fun hn => hl ((depthItem_lookup h₁ d).mp hn).2
          · rcases List.mem_cons.mp hmem with hid | hmem
            · exact .inl fun hn => ((depthItem_lookup h₁ d).mp hn).1 hid
            · exact .inr hmem
        obtain ⟨depth', h'⟩ := hrest
        exact ⟨depth', bind_ok.mpr ⟨depth₁, h₁, h'⟩⟩

theorem depthItems_error {depth : List (String × Nat)} {plan : List PlanItem} {e : E}
    (h : depthItems depth plan = .error e) : e = .keyError := by
  have hds : ∀ (depth : List (String × Nat)) (ds : List String) (e : E),
      depthsOf depth ds = .error e → e = .keyError := by
    intro depth ds e h
    induction ds with
    | nil => cases h
    | cons d ds ih =>
        rw [depthsOf] at h
        split at h
        · injection h with h
          exact h.symm
        · exact ih (map_error.mp h)
  induction plan generalizing depth with
  | nil => cases h
  | cons item rest ih =>
      rcases bind_error.mp h with h | ⟨_, -, h⟩
      · cases item with
        | forEach t => cases h
        | step s => exact hds _ _ _ (map_error.mp h)
      · exact ih h

/-- A plan step depends on a step of a template. -/
def DependsInside (plan : List PlanItem) : Prop :=
  ∃ s, .step s ∈ plan ∧ ∃ d ∈ deps s, ∃ t, .forEach t ∈ plan ∧ d ∈ t.steps.map Step.stepId

theorem PlanItem.id_mem_ids (item : PlanItem) : item.id ∈ item.ids := by
  cases item <;> simp [PlanItem.id, PlanItem.ids]

theorem step_ids (s : Step) : s.stepId ∈ (PlanItem.step s).ids := List.mem_singleton_self _

/-- In an accepted plan every dependency of a plan step has a depth, unless
it is on a step of a template. -/
theorem Accepted.depth_iff {registry : Registry} {plan : List PlanItem}
    (h : Accepted registry [] plan) :
    (∃ depth, depthItems [] plan = .ok depth) ↔ ¬ DependsInside plan := by
  rw [depthItems_ok]
  constructor
  · rintro hdeps ⟨s, hs, d, hd, t, ht, hdt⟩
    obtain ⟨pre, post, rfl⟩ := List.append_of_mem hs
    have hstep := (StepOk.deps h.item) d hd
    rcases hdeps pre s post rfl d hd with hl | hmem
    · exact hl rfl
    · obtain ⟨item, hitem, rfl⟩ := List.mem_map.mp hmem
      have hpre : item ∈ pre ++ .step s :: post := List.mem_append_left _ hitem
      obtain rfl := h.eq_of_mem_ids hpre ht item.id_mem_ids (List.mem_cons_of_mem _ hdt)
      rcases hstep with hlocal | ⟨s', hs'⟩
      · cases hlocal
      · rcases lookup_declareAll_step hs' with hnil | ⟨hid, hs'⟩ | ⟨hid, t', ht', hs', hne⟩
        · cases hnil
        · have heq : PlanItem.step s' = .forEach t :=
            h.eq_of_mem_ids (List.mem_append_left _ hs') hpre (step_ids s')
              (by rw [hid]; exact PlanItem.id_mem_ids _)
          cases heq
        · have heq : PlanItem.forEach t' = .forEach t :=
            h.eq_of_mem_ids (List.mem_append_left _ ht') hpre
              (List.mem_cons_of_mem _ (List.mem_map_of_mem hs'))
              (by rw [hid]; exact PlanItem.id_mem_ids _)
          cases heq
          exact hne rfl
  · intro hinside pre s post heq d hd
    subst heq
    rcases (StepOk.deps h.item) d hd with hlocal | ⟨s', hs'⟩
    · cases hlocal
    · rcases lookup_declareAll_step hs' with hnil | ⟨hid, hs'⟩ | ⟨hid, t, ht, hs', -⟩
      · cases hnil
      · refine .inr (List.mem_map.mpr ⟨_, hs', hid⟩)
      · refine absurd ⟨s, by simp, d, hd, t, List.mem_append_left _ ht, ?_⟩ hinside
        exact List.mem_map.mpr ⟨s', hs', hid⟩

/-! ## The whole plan -/

/-- The plan is accepted or refused with a `PlanError`. -/
def Answered (plan : List PlanItem) (registry : Registry) : Prop :=
  ∀ e, validatePlan plan registry = .error e → ∃ m, e = .own m

/-- The rules checked before the depth refuse the plan. -/
def RefusedByRules (plan : List PlanItem) (registry : Registry) : Prop :=
  ∃ m, validateRules plan registry = .error (.own m)

theorem answered_iff (plan : List PlanItem) (registry : Registry) :
    Answered plan registry ↔
      RefusedByRules plan registry ∨ (¬ BadFact plan ∧ ¬ DependsInside plan) := by
  rcases hrules : validateRules plan registry with e | u
  · -- the depth is never computed
    have hvalidate : validatePlan plan registry = .error e := by rw [validatePlan, hrules]; rfl
    constructor
    · intro h
      obtain ⟨m, rfl⟩ := h e hvalidate
      exact .inl ⟨m, hrules⟩
    · intro h e' he'
      obtain rfl : e = e' := by rw [hvalidate] at he'; injection he'
      rcases h with ⟨m, hm⟩ | ⟨hbad, -⟩
      · rw [hrules] at hm
        injection hm with hm
        exact ⟨m, hm⟩
      · exact (validateRules_refuses plan registry e hrules).resolve_right hbad
  · have hacc := validateRules_ok hrules
    have hnotRefused : ¬ RefusedByRules plan registry := by
      rintro ⟨m, hm⟩
      rw [hrules] at hm
      cases hm
    have hbody : validatePlan plan registry
        = (depthOf plan >>= fun depth => refuseIf (MAX_DEPTH < depth)
            ("dependency depth " ++ toString depth ++ " exceeds " ++ toString MAX_DEPTH)) := by
      rw [validatePlan, hrules]
      rfl
    rw [or_iff_right hnotRefused, and_iff_right hacc.not_badFact, ← hacc.depth_iff]
    constructor
    · intro h
      rcases hd : depthItems [] plan with e | depth
      · have herr : validatePlan plan registry = .error e := by
          rw [hbody, depthOf, hd]
          rfl
        obtain ⟨m, rfl⟩ := h e herr
        cases depthItems_error hd
      · exact ⟨depth, rfl⟩
    · rintro ⟨depth, hd⟩ e he
      rw [hbody, depthOf, hd] at he
      have hrefuse : Refuses False _ := Refuses.refuseIf (MAX_DEPTH < worst (depth.map (·.2)))
        ("dependency depth " ++ toString (worst (depth.map (·.2))) ++ " exceeds "
          ++ toString MAX_DEPTH)
      exact (hrefuse e he).resolve_right id

end IpaDiagnose.Planner
