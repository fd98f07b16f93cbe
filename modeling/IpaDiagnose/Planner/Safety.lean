import IpaDiagnose.Lib.Ranked
import IpaDiagnose.Planner.References
import IpaDiagnose.Planner.Total

/-!
# The safety of a run

What the history of a run comes to, for an accepted plan: one record for
each place, with an id of its own; checks run only where they are
permitted, within the budget and before any stop; and a reason with every
record that was not run. A run that returns is safe whatever the gates,
the answers and the clock do (`runPlanState_safe`).
-/

namespace IpaDiagnose.Planner

open Py (Value Dict Exc)
open Result Journal

variable {σ : Type}

/-! ## Runs of the ledger -/

namespace Ledger

variable {env : Env σ} {l l' : Ledger} {vs before after : List Visit} {v : Visit}

/-- Once there is a reason to stop, nothing is run. -/
theorem idle (h : Journal.Emits (Ledger.Step env) l vs l') (hs : l.stopReason ≠ "") :
    ∀ v ∈ vs, ¬ v.ran := by
  induction h with
  | nil =>
      intro v hv
      cases hv
  | cons hstep _ ih =>
      intro v hv
      rcases List.mem_cons.mp hv with rfl | hv
      · intro hran
        exact hs (hstep.ran hran).1
      · exact ih (by rw [hstep.stopped hs]; exact hs) v hv

theorem executed_eq (h : Journal.Emits (Ledger.Step env) l vs l') :
    l'.executed = l.executed + vs.countP fun v => decide v.ran := by
  refine h.count (fun l v l' hstep hran => ?_) fun l v l' hstep hran => ?_
  · exact (hstep.ran (of_decide_eq_true hran)).2.2.2
  · exact (hstep.skipped (of_decide_eq_false hran)).2.2

def Within (env : Env σ) (l : Ledger) : Prop := l.executed ≤ env.maxSteps

theorem Step.within (hl : l.Within env) (h : Ledger.Step env l v l') : l'.Within env := by
  unfold Within at hl ⊢
  by_cases hran : v.ran
  · have hbudget := (h.ran hran).2.2
    omega
  · have hsame := (h.skipped hran).2.2
    omega

theorem within (h : Journal.Emits (Ledger.Step env) l vs l') (hl : l.Within env) :
    l'.Within env :=
  h.inv (fun _ _ _ hl hstep => hstep.within hl) hl

end Ledger

/-! ## The places of a plan, by the ids of its templates -/

/-- The subjects a run kept for a template. -/
def keptSubjects (enums : List (String × Enumeration)) (t : ForEach) : List String :=
  ((enums.lookup t.templateId).map Enumeration.subjects).getD []

/-- The places of a run: one for each plan step, and one for each step of
a template and subject kept, in the order of the plan. -/
def placesOf (plan : List PlanItem) (enums : List (String × Enumeration)) : List Slot :=
  plan.flatMap fun
    | .step s => [{ step := s }]
    | .forEach t => templateSlots t (keptSubjects enums t)

theorem slots_eq_placesOf {plan : List PlanItem} {enums all : List (String × Enumeration)}
    (hids : enums.map (·.1) = (templates plan).map ForEach.templateId)
    (hall : ∀ p ∈ enums, all.lookup p.1 = some p.2) : slots plan enums = placesOf plan all := by
  induction plan generalizing enums with
  | nil => rfl
  | cons item rest ih =>
      cases item with
      | step s =>
          have hrest : slots rest enums = placesOf rest all := ih hids hall
          rw [slots, hrest]
          rfl
      | forEach t =>
          cases enums with
          | nil => cases hids
          | cons p enums =>
              injection hids with hid hids
              have hrest : slots rest enums = placesOf rest all :=
                ih hids fun q hq => hall q (List.mem_cons_of_mem _ hq)
              have hkept : keptSubjects all t = p.2.subjects := by
                rw [keptSubjects, show t.templateId = p.1 from hid.symm, hall p List.mem_cons_self]
                rfl
              rw [slots, List.tail_cons, hrest]
              show templateSlots t p.2.subjects ++ _ = templateSlots t (keptSubjects all t) ++ _
              rw [hkept]
              rfl

theorem templateIds_nodup {registry : Registry} {seen : Seen} {plan : List PlanItem}
    (h : Accepted registry seen plan) : ((templates plan).map ForEach.templateId).Nodup := by
  induction plan generalizing seen with
  | nil => exact List.nodup_nil
  | cons item rest ih =>
      cases item with
      | step s => exact ih h.2
      | forEach t =>
          refine List.nodup_cons.mpr ⟨fun hmem => ?_, ih h.2⟩
          obtain ⟨t', ht', hid⟩ := List.mem_map.mp hmem
          obtain ⟨i, hi, hi'⟩ := List.mem_filterMap.mp ht'
          cases i with
          | step s => cases hi'
          | forEach t'' =>
              injection hi' with hi'
              subst hi'
              have hnone := (h.2.fresh _ hi _ (PlanItem.id_mem_ids _)).1
              exact (lookup_declare_none.mp hnone).1 (by
                rw [PlanItem.id, hid]
                exact PlanItem.id_mem_ids (.forEach t))

/-! ## The ids of records -/

/-- What an id is made of. -/
def Slot.key (s : Slot) : String × Option String := (s.step.stepId, s.subject)

theorem slotsOf_keys (t : ForEach) (steps : List Step) (subject : String) :
    (slotsOf t steps subject).map Slot.key
      = (steps.map Step.stepId).map fun id => (id, some subject) := by
  rw [slotsOf, List.map_map, List.map_map]
  rfl

theorem mem_templateSlots {t : ForEach} {subjects : List String} {x : Slot} :
    x ∈ templateSlots t subjects
      ↔ ∃ subject ∈ subjects, ∃ s ∈ t.steps, x = ⟨s, some (t, subject)⟩ := by
  rw [templateSlots, List.mem_flatMap]
  refine exists_congr fun subject => and_congr_right fun _ => ?_
  rw [slotsOf, List.mem_map]
  simp only [eq_comm]

theorem templateSlots_keys_nodup {t : ForEach} {subjects : List String}
    (hsteps : (t.steps.map Step.stepId).Nodup) (hsub : subjects.Nodup) :
    ((templateSlots t subjects).map Slot.key).Nodup := by
  induction subjects with
  | nil => exact List.nodup_nil
  | cons subject subjects ih =>
      obtain ⟨hfresh, hsub⟩ := List.nodup_cons.mp hsub
      rw [templateSlots_cons, List.map_append, List.nodup_append']
      refine ⟨?_, ih hsub, ?_⟩
      · rw [slotsOf_keys]
        exact hsteps.map fun a b hab => by injection hab
      · intro k hk hk'
        rw [slotsOf_keys] at hk
        obtain ⟨id, -, rfl⟩ := List.mem_map.mp hk
        obtain ⟨x, hx, heq⟩ := List.mem_map.mp hk'
        obtain ⟨subject', hsubject', s, -, rfl⟩ := mem_templateSlots.mp hx
        injection heq with _ heq
        injection heq with heq
        subst heq
        exact hfresh hsubject'

/-- A place is a place of an item of the plan. -/
theorem mem_placesOf {plan : List PlanItem} {enums : List (String × Enumeration)} {x : Slot}
    (h : x ∈ placesOf plan enums) : ∃ item ∈ plan, x.step ∈ item.steps := by
  obtain ⟨item, hitem, hx⟩ := List.mem_flatMap.mp h
  refine ⟨item, hitem, ?_⟩
  cases item with
  | step s =>
      obtain rfl := List.mem_singleton.mp hx
      exact List.mem_singleton_self s
  | forEach t =>
      obtain ⟨_, -, s, hs, rfl⟩ := mem_templateSlots.mp hx
      exact hs

theorem placesOf_keys_nodup {registry : Registry} {seen : Seen} {plan : List PlanItem}
    {enums : List (String × Enumeration)} (h : Accepted registry seen plan)
    (hsub : ∀ t, (keptSubjects enums t).Nodup) : ((placesOf plan enums).map Slot.key).Nodup := by
  induction plan generalizing seen with
  | nil => exact List.nodup_nil
  | cons item rest ih =>
      have happart : ∀ x y : Slot, x.step ∈ item.steps → y ∈ placesOf rest enums →
          x.step.stepId ≠ y.step.stepId := by
        intro x y hx hy heq
        obtain ⟨i, hi, hstep⟩ := mem_placesOf hy
        have hnone := (h.2.fresh i hi _ (PlanItem.mem_ids_of_steps hstep)).1
        exact (lookup_declare_none.mp hnone).1 (heq ▸ PlanItem.mem_ids_of_steps hx)
      rw [placesOf, List.flatMap_cons, List.map_append, List.nodup_append']
      refine ⟨?_, ih h.2, ?_⟩
      · cases item with
        | step s => exact List.nodup_singleton _
        | forEach t => exact templateSlots_keys_nodup (TemplateOk.steps h.1).fresh.2 (hsub t)
      · intro k hk hk'
        obtain ⟨x, hx, rfl⟩ := List.mem_map.mp hk
        obtain ⟨y, hy, heq⟩ := List.mem_map.mp hk'
        injection heq with heq _
        refine happart x y ?_ hy heq.symm
        cases item with
        | step s =>
            obtain rfl := List.mem_singleton.mp hx
            exact List.mem_singleton_self s
        | forEach t =>
            obtain ⟨_, -, s, hs, rfl⟩ := mem_templateSlots.mp hx
            exact hs

/-- An id without the reserved character, and what follows it, are read off the record's id. -/
theorem append_at_inj {a b s t : List Char} (ha : '@' ∉ a) (hb : '@' ∉ b)
    (h : a ++ '@' :: s = b ++ '@' :: t) : a = b ∧ s = t := by
  induction a generalizing b with
  | nil =>
      cases b with
      | nil => exact ⟨rfl, by injection h⟩
      | cons c b =>
          injection h with hc _
          exact absurd (hc ▸ List.mem_cons_self) hb
  | cons c a ih =>
      cases b with
      | nil =>
          injection h with hc _
          exact absurd (hc ▸ List.mem_cons_self) ha
      | cons d b =>
          injection h with hc h
          obtain ⟨rfl, rfl⟩ := ih (fun hm => ha (List.mem_cons_of_mem _ hm))
            (fun hm => hb (List.mem_cons_of_mem _ hm)) h
          exact ⟨by rw [hc], rfl⟩

theorem Slot.key_of_id {x y : Slot} (hx : '@' ∉ x.step.stepId.toList)
    (hy : '@' ∉ y.step.stepId.toList) (h : x.identity.stepId = y.identity.stepId) :
    x.key = y.key := by
  have hat : ("@" : String).toList = ['@'] := rfl
  rcases x with ⟨s, _ | ⟨t, subject⟩⟩ <;> rcases y with ⟨s', _ | ⟨t', subject'⟩⟩
  · exact congrArg (fun id => (id, none)) h
  · replace h : s.stepId = s'.stepId ++ "@" ++ subject' := h
    rw [show ({ step := s } : Slot).step.stepId = s.stepId from rfl, h] at hx
    simp [String.toList_append] at hx
  · replace h : s.stepId ++ "@" ++ subject = s'.stepId := h
    rw [show ({ step := s' } : Slot).step.stepId = s'.stepId from rfl, ← h] at hy
    simp [String.toList_append] at hy
  · replace h : s.stepId ++ "@" ++ subject = s'.stepId ++ "@" ++ subject' := h
    have hchars := congrArg String.toList h
    simp only [String.toList_append, hat, List.append_assoc, List.singleton_append] at hchars
    obtain ⟨hid, hsub⟩ := append_at_inj hx hy hchars
    have hid : s.stepId = s'.stepId := String.toList_inj.mp hid
    have hsub : subject = subject' := String.toList_inj.mp hsub
    show (s.stepId, some subject) = (s'.stepId, some subject')
    rw [hid, hsub]

/-! ## Subjects -/

theorem readEntries_nodup {type : String} {acc e : Entries} {xs : List Value}
    (h : readEntries type acc xs = .ok e) (hacc : (acc.good.map (·.1)).Nodup) :
    (e.good.map (·.1)).Nodup := by
  induction xs generalizing acc with
  | nil =>
      injection h with h
      exact h ▸ hacc
  | cons x xs ih =>
      obtain ⟨acc', hadd, h⟩ := bind_ok.mp h
      refine ih h ?_
      obtain ⟨valid, -, hadd⟩ := bind_ok.mp hadd
      cases valid with
      | none =>
          obtain rfl := pure_ok.mp hadd
          exact hacc
      | some valid =>
          dsimp only at hadd
          split at hadd
          · obtain rfl := pure_ok.mp hadd
            exact hacc
          · rename_i hnew
            obtain rfl := pure_ok.mp hadd
            rw [List.map_append, List.nodup_append']
            refine ⟨hacc, List.nodup_singleton _, ?_⟩
            intro k hk hk'
            obtain rfl : k = valid := List.mem_singleton.mp hk'
            obtain ⟨p, hp, rfl⟩ := List.mem_map.mp hk
            refine hnew (List.lookup_isSome_iff.mpr ⟨p, hp, ?_⟩)
            simp

/-- The subjects of an enumeration are sorted, each once. -/
theorem askSubjects_sorted {env : Env σ} {st : RunState σ} {t : ForEach}
    {subs : List (String × Dict)} {e : Enumeration} (h : askSubjects env st t = .ok (subs, e)) :
    e.subjects.Pairwise (· < ·) := by
  unfold askSubjects at h
  split at h
  · injection h with h
    injection h with _ h
    subst h
    exact .nil
  · unfold subjects at h
    split at h
    · injection h with h
      injection h with _ h
      subst h
      exact .nil
    · split at h
      · injection h with h
        injection h with _ h
        subst h
        exact .nil
      · obtain ⟨entries, hread, h⟩ := bind_ok.mp h
        injection pure_ok.mp h with _ h
        subst h
        have hnodup := readEntries_nodup hread List.nodup_nil
        exact (Ranked.strict_insertionSort hnodup).sublist (List.take_sublist _ _)

theorem runItems_sorted {env : Env σ} {plan : List PlanItem} {st st' : RunState σ}
    (h : runItems env st plan = .ok st')
    (hst : ∀ p ∈ st.enumerations, p.2.subjects.Pairwise (· < ·)) :
    ∀ p ∈ st'.enumerations, p.2.subjects.Pairwise (· < ·) := by
  induction plan generalizing st with
  | nil =>
      injection h with h
      exact h ▸ hst
  | cons item rest ih =>
      obtain ⟨st₁, h₁, h⟩ := bind_ok.mp h
      refine ih h ?_
      cases item with
      | step s =>
          obtain ⟨v, -, -, hen⟩ := runStep_step h₁
          rw [hen]
          exact hst
      | forEach t =>
          obtain ⟨vs, subs, e, cut, hask, -, -, hen, -⟩ := runTemplate_emits h₁
          rw [hen]
          intro p hp
          rcases List.mem_append.mp hp with hp | hp
          · exact hst p hp
          · obtain rfl := List.mem_singleton.mp hp
            show (e.withUnfinished cut).subjects.Pairwise (· < ·)
            rw [withUnfinished_subjects]
            exact askSubjects_sorted hask

/-! ## Safe runs -/

/-- What a whole run keeps to. Its visits stand newest first. -/
structure SafeRun (env : Env σ) (plan : List PlanItem) (st : RunState σ) : Prop where
  /-- One record for each place, in the order of the plan. -/
  places : Fill st.visits.reverse (placesOf plan st.enumerations)
  templates : st.enumerations.map (·.1) = (templates plan).map ForEach.templateId
  distinct : (st.records.map Record.stepId).Nodup
  sorted : ∀ p ∈ st.enumerations, p.2.subjects.Pairwise (· < ·)
  /-- A step's view has its own record, and those before it. -/
  views : ∀ later v earlier, st.visits = later ++ v :: earlier →
    v.view.records.tail = earlier.map Visit.record
  permitted : ∀ v ∈ st.visits, v.ran → v.stopBefore = "" ∧ Permitted env v.step v.view
  budget : (st.visits.countP fun v => decide v.ran) ≤ env.maxSteps
  skipped : ∀ v ∈ st.visits, ¬ v.ran → v.record.outcome = .skipped ∧ v.record.skipReason ≠ ""
  stopped : ∀ later v earlier, st.visits = later ++ v :: earlier → v.stopAfter ≠ "" →
    ∀ u ∈ later, ¬ u.ran

/-- The facts of a run that do not depend on its plan. -/
theorem ledger_safe {env : Env σ} {runner : σ} {st : RunState σ} {vs : List Visit}
    (h : (startState runner).Emits env vs st) {later earlier : List Visit} {v : Visit}
    (hsplit : st.visits = later ++ v :: earlier) :
    v.view.records.tail = earlier.map Visit.record
      ∧ (v.ran → v.stopBefore = "" ∧ Permitted env v.step v.view)
      ∧ (¬ v.ran → v.record.outcome = .skipped ∧ v.record.skipReason ≠ "")
      ∧ (v.stopAfter ≠ "" → ∀ u ∈ later, ¬ u.ran) := by
  have hvisits : st.visits = vs.reverse ++ [] := Ledger.emits_visits h
  have hvs : vs = earlier.reverse ++ v :: later.reverse := by
    rw [← List.reverse_reverse vs, ← List.append_nil vs.reverse, ← hvisits, hsplit]
    simp
  subst hvs
  obtain ⟨l, l', hbefore, hstep, hafter⟩ := Journal.Emits.fired h
  refine ⟨?_, fun hran => ?_, fun hran => ?_, fun hs u hu => ?_⟩
  · rw [RunState.Emits.seen h, List.map_reverse, List.reverse_reverse]
  · obtain ⟨hs, hp, -⟩ := hstep.ran hran
    exact ⟨hstep.before.trans hs, hp⟩
  · obtain ⟨ho, hr, -⟩ := hstep.skipped hran
    exact ⟨ho, hr⟩
  · rw [hstep.after] at hs
    exact Ledger.idle hafter hs u (List.mem_reverse.mpr hu)

/-- Every run that returns is safe. -/
theorem runPlanState_safe {plan : List PlanItem} {env : Env σ} {runner : σ} {st : RunState σ}
    (h : runPlanState plan env runner = .ok st) : SafeRun env.bounded plan st := by
  obtain ⟨_, hvalid, hrun⟩ := bind_ok.mp h
  have hacc := validatePlan_ok hvalid
  obtain ⟨vs, enums, hemits, hen, hids, hfill⟩ := runItems_emits hrun
  have hvisits : st.visits = vs.reverse ++ [] := Ledger.emits_visits hemits
  rw [List.append_nil] at hvisits
  have henums : st.enumerations = enums := hen
  have hsorted := runItems_sorted hrun nofun
  have hnodup : (enums.map Prod.fst).Nodup := hids ▸ templateIds_nodup hacc
  have hplaces : slots plan enums = placesOf plan enums :=
    slots_eq_placesOf hids fun p hp => Ranked.lookup_of_mem hnodup hp
  have hfill' : Fill st.visits.reverse (placesOf plan st.enumerations) := by
    rw [hvisits, List.reverse_reverse, henums, ← hplaces]
    exact hfill
  refine ⟨hfill', henums ▸ hids, ?_, hsorted, ?_, ?_, ?_, ?_, ?_⟩
  · have hkept : ∀ t, (keptSubjects st.enumerations t).Nodup := by
      intro t
      unfold keptSubjects
      rcases hl : st.enumerations.lookup t.templateId with _ | e
      · exact List.nodup_nil
      · obtain ⟨l₁, l₂, hsplit, -⟩ := List.lookup_eq_some_iff.mp hl
        have hmem : (t.templateId, e) ∈ st.enumerations := by
          rw [hsplit]
          simp
        exact (hsorted _ hmem).imp ne_of_lt
    have hkeys := placesOf_keys_nodup hacc hkept
    have hnamed : ∀ x ∈ placesOf plan st.enumerations, '@' ∉ x.step.stepId.toList := by
      intro x hx
      obtain ⟨item, hitem, hstep⟩ := mem_placesOf hx
      exact (hacc.fresh item hitem _ (PlanItem.mem_ids_of_steps hstep)).2
    have hplaceIds : ((placesOf plan st.enumerations).map fun x => x.identity.stepId).Nodup :=
      Ranked.nodup_map_of_key hkeys fun x hx y hy => Slot.key_of_id (hnamed x hx) (hnamed y hy)
    have hrecords : st.visits.reverse.map (fun v => v.record.stepId)
        = (placesOf plan st.enumerations).map fun x => x.identity.stepId :=
      map_eq_of_scheduled (fun v x hx => congrArg Identity.stepId hx.identity) hfill'
    rw [← hrecords, List.map_reverse, List.nodup_reverse] at hplaceIds
    rw [RunState.records, List.map_map]
    exact hplaceIds
  · exact fun later v earlier hsplit => (ledger_safe hemits hsplit).1
  · intro v hv
    obtain ⟨later, earlier, hsplit⟩ := List.append_of_mem hv
    exact (ledger_safe hemits hsplit).2.1
  · have hwithin : st.ledger.Within env.bounded := Ledger.within hemits (Nat.zero_le _)
    have hexecuted := Ledger.executed_eq hemits
    rw [hvisits, List.countP_reverse]
    unfold Ledger.Within at hwithin
    rw [hexecuted] at hwithin
    exact le_trans (Nat.le_add_left _ _) hwithin
  · intro v hv
    obtain ⟨later, earlier, hsplit⟩ := List.append_of_mem hv
    exact (ledger_safe hemits hsplit).2.2.1
  · exact fun later v earlier hsplit => (ledger_safe hemits hsplit).2.2.2

/-- Each template the run comes to can read the entries of its list. -/
def ListsReadable (env : Env σ) (plan : List PlanItem) (runner : σ) : Prop :=
  ∀ pre t post st, plan = pre ++ .forEach t :: post →
    runItems env (startState runner) pre = .ok st → Readable env t st

/-- A step without callables and parameters is tame. -/
theorem Step.Tame.of_plain {s : Step} (happlies : s.applies = none) (hwhen : s.when = none)
    (hstop : s.stop = none) (hsub : s.stopSubject = none) (hclassify : s.classify = none)
    (hparams : s.params = []) (hretries : s.retries = 0) : s.Tame := by
  refine ⟨?_, ?_, ?_, ?_, ?_, ?_, by omega⟩
  · exact fun f hf => by rw [happlies] at hf; cases hf
  · exact fun f hf => by rw [hwhen] at hf; cases hf
  · exact fun f hf => by rw [hstop] at hf; cases hf
  · exact fun f hf => by rw [hsub] at hf; cases hf
  · exact fun f hf => by rw [hclassify] at hf; cases hf
  · rw [hparams]
    exact nofun

theorem Listing.answers (hosts : List Value) : (Listing.env hosts).Answers := by
  intro runner check params fresh e runner' h
  cases h

theorem listed_tame (hosts : List Value) : Tame (Listing.env hosts) listedPlan := by
  refine ⟨fun item hitem s hs => ?_, Listing.answers hosts⟩
  have hplain : s ∈ [Listing.step "list", Listing.step "ping",
      { Listing.step "sync" with requires := [{ step := "list" }, { step := "ping" }] }] := by
    simp only [listedPlan, List.mem_cons, List.not_mem_nil, or_false] at hitem
    rcases hitem with rfl | rfl
    · obtain rfl := List.mem_singleton.mp hs
      exact List.mem_cons_self
    · exact List.mem_cons_of_mem _ hs
  simp only [List.mem_cons, List.not_mem_nil, or_false] at hplain
  rcases hplain with rfl | rfl | rfl <;> exact .of_plain rfl rfl rfl rfl rfl rfl rfl

open Listing in
/-- A plan over port numbers. -/
def portPlan : List PlanItem :=
  [.step (step "list"), .forEach (template "each" "ldap_port" [step "probe"])]

end IpaDiagnose.Planner
