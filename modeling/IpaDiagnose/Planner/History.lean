import IpaDiagnose.Lib.Journal
import IpaDiagnose.Planner.Visits

/-!
# The history of a run

A run is a machine that keeps a journal of visits. Of its state only the
ledger matters to what it may do: how many checks were executed, whether
there is a reason to stop, and the visits so far. `Ledger.Step` is what
one visit may do to it, and everything a run does is a run of that
machine (`runItems_emits`), whatever the plan, the gates, the budgets and
the answers. What follows from that for a whole run is in the second half.
-/

namespace IpaDiagnose.Planner

open Py (Value Dict Exc)
open Result Journal

variable {σ : Type}

/-! ## The ledger -/

structure Ledger where
  executed : Nat
  stopReason : String
  /-- Newest first. -/
  visits : List Visit

def RunState.ledger (st : RunState σ) : Ledger := ⟨st.executed, st.stopReason, st.visits⟩

def Visit.ran (v : Visit) : Prop := v.record.attempts ≠ 0

instance (v : Visit) : Decidable v.ran := inferInstanceAs (Decidable (_ ≠ _))

/-- What one visit may do. -/
structure Ledger.Step (env : Env σ) (l : Ledger) (v : Visit) (l' : Ledger) : Prop where
  visits : l'.visits = v :: l.visits
  /-- The step saw its own record, and those of the visits before. -/
  seen : v.view.records.tail = l.visits.map Visit.record
  before : v.stopBefore = l.stopReason
  after : v.stopAfter = l'.stopReason
  ran : v.ran → l.stopReason = "" ∧ Permitted env v.step v.view ∧ l.executed < env.maxSteps
    ∧ l'.executed = l.executed + 1
  skipped : ¬ v.ran → v.record.outcome = .skipped ∧ v.record.skipReason ≠ ""
    ∧ l'.executed = l.executed
  stopped : l.stopReason ≠ "" → l'.stopReason = l.stopReason

/-- A place in a plan: a step of the plan, or a template's step for one subject. -/
structure Slot where
  step : Step
  instance_ : Option (ForEach × String) := none

namespace Slot

def identity (s : Slot) : Identity :=
  match s.instance_ with
  | none => ⟨s.step.stepId, none, none, none⟩
  | some (t, subject) =>
      ⟨s.step.stepId ++ "@" ++ subject, some subject, some t.templateId, some s.step.stepId⟩

def locals (s : Slot) : List String :=
  match s.instance_ with
  | none => []
  | some (t, _) => t.steps.map Step.stepId

def subject (s : Slot) : Option String := s.instance_.map Prod.snd

end Slot

/-- The visit of a place. -/
structure Visit.Fills (v : Visit) (s : Slot) : Prop where
  step : v.step = s.step
  identity : v.record.identity = s.identity
  locals : v.view.locals = s.locals
  subject : v.view.subject = s.subject

/-! ## One visit -/

theorem newRecord_identity (spec : CheckSpec) (s : Step) :
    (newRecord spec s).identity = Slot.identity { step := s } := rfl

theorem newInstance_identity (spec : CheckSpec) (t : ForEach) (subject : String) (s : Step) :
    (newInstance spec t subject s).identity = Slot.identity ⟨s, some (t, subject)⟩ := rfl

/-- A visit that is kept is a step of the ledger. -/
theorem visitLogged_step {env : Env σ} {st : RunState σ} {spec : CheckSpec} {step : Step}
    {record : Record} {base : Context} {r : Visited σ} (hrun : record.attempts = 0)
    (hskip : record.outcome = .skipped) (hbase : base.records = st.records)
    (h : visitLogged env st spec step record base = .ok r) :
    ∃ v : Visit, Ledger.Step env st.ledger v r.state.ledger ∧ v.step = step
      ∧ v.record = r.record ∧ v.view = base.withRecord record
      ∧ v.record.identity = record.identity ∧ r.state.enumerations = st.enumerations := by
  obtain ⟨r', hv, h⟩ := bind_ok.mp h
  obtain rfl := pure_ok.mp h
  have hvis := visit_spec hrun hskip hv
  refine ⟨{ step := step, view := base.withRecord record, record := r'.record,
            stopBefore := st.stopReason, stopAfter := r'.state.stopReason, halted := r'.halted },
    ⟨?_, hbase, rfl, rfl, ?_, ?_, hvis.stopped⟩, rfl, rfl, rfl, hvis.identity,
    hvis.enumerations⟩
  · show _ :: r'.state.visits = _
    rw [hvis.visits]
    rfl
  · intro hran
    obtain ⟨hs, hp, hb, hex⟩ := hvis.ran hran
    exact ⟨hs, hp, hb, hex⟩
  · intro hran
    exact hvis.skipped (not_not.mp hran)

theorem runStep_step {env : Env σ} {st st' : RunState σ} {s : Step}
    (h : runStep env st s = .ok st') :
    ∃ v : Visit, Ledger.Step env st.ledger v st'.ledger ∧ v.Fills { step := s }
      ∧ st'.enumerations = st.enumerations := by
  obtain ⟨spec, -, h⟩ := bind_ok.mp h
  obtain ⟨r, hv, h⟩ := bind_ok.mp h
  obtain rfl := pure_ok.mp h
  obtain ⟨v, hstep, hs, -, hview, hid, hen⟩ := visitLogged_step rfl rfl rfl hv
  refine ⟨v, hstep, ⟨hs, hid, ?_, ?_⟩, hen⟩
  · rw [hview]
    rfl
  · rw [hview]
    rfl

/-- The record says that the run or a time slice stopped before the check. -/
def Visit.cutShort (v : Visit) : Prop := PyStr.startsWith v.record.skipReason "stopped:" = true

instance (v : Visit) : Decidable v.cutShort := inferInstanceAs (Decidable (_ = true))

/-- What one step of a subject does: it keeps one visit of the step's place,
and the subject is unfinished once a visit of it was cut short. -/
structure Instancing (env : Env σ) (t : ForEach) (subject : String) (item : Dict) (s : Step)
    (r : SubjectRun σ) (v : Visit) (r' : SubjectRun σ) : Prop where
  step : Ledger.Step env r.state.ledger v r'.state.ledger
  fills : v.Fills ⟨s, some (t, subject)⟩
  item : v.view.item = item
  enumerations : r'.state.enumerations = r.state.enumerations
  unfinished : r'.unfinished = true ↔ r.unfinished = true ∨ v.cutShort

section Instance

variable {env : Env σ} {t : ForEach} {subject : String} {item : Dict} {spec : CheckSpec}
  {s : Step} {r r' : SubjectRun σ}

theorem instance_fills {v : Visit} (hs : v.step = s)
    (hview : v.view
      = (subjectContext env r.state t subject item).withRecord (newInstance spec t subject s))
    (hid : v.record.identity = (newInstance spec t subject s).identity) :
    v.Fills ⟨s, some (t, subject)⟩ ∧ v.view.item = item := by
  refine ⟨⟨hs, hid, ?_, ?_⟩, ?_⟩ <;> rw [hview] <;> rfl

/-- A step may be skipped without a visit. -/
theorem skipInstance_step (env : Env σ) (t : ForEach) (subject : String) (item : Dict)
    (spec : CheckSpec) (s : Step) (r : SubjectRun σ) {reason : String} (hreason : reason ≠ "") :
    ∃ v : Visit, Ledger.Step env r.state.ledger v
        (skipInstance r (subjectContext env r.state t subject item) s
          (newInstance spec t subject s) reason).state.ledger
      ∧ v.Fills ⟨s, some (t, subject)⟩ ∧ v.view.item = item ∧ v.record.skipReason = reason :=
  ⟨{ step := s
     view := (subjectContext env r.state t subject item).withRecord (newInstance spec t subject s)
     record := { newInstance spec t subject s with skipReason := reason }
     stopBefore := r.state.stopReason
     stopAfter := r.state.stopReason
     halted := none },
    ⟨rfl, rfl, rfl, rfl, fun hran => absurd rfl hran, fun _ => ⟨rfl, hreason, rfl⟩,
      fun _ => rfl⟩,
    ⟨rfl, rfl, rfl, rfl⟩, rfl, rfl⟩

theorem visitInstance_step
    (h : visitInstance env r spec s (newInstance spec t subject s)
      (subjectContext env r.state t subject item) = .ok r') :
    ∃ v, Instancing env t subject item s r v r' := by
  obtain ⟨w, hw, h⟩ := bind_ok.mp h
  obtain rfl := pure_ok.mp h
  obtain ⟨v, hstep, hs, hrec, hview, hid, hen⟩ := visitLogged_step rfl rfl rfl hw
  obtain ⟨hfills, hitem⟩ := instance_fills hs hview hid
  refine ⟨v, hstep, hfills, hitem, hen, ?_⟩
  show (r.unfinished || _) = true ↔ _
  rw [Bool.or_eq_true, ← hrec]
  rfl

theorem runInstance_step {started : ℚ}
    (h : runInstance env t subject item started r s = .ok r') :
    ∃ v, Instancing env t subject item s r v r' := by
  obtain ⟨spec, -, h⟩ := bind_ok.mp h
  split at h
  · obtain rfl := pure_ok.mp h
    by_cases hun : r.unfinished
    · have hne : "stopped: " ++ r.stop ++ " (this subject only)" ≠ "" :=
        append_ne_empty (append_ne_empty (by decide))
      obtain ⟨v, hstep, hfills, hitem, -⟩ := skipInstance_step env t subject item
        spec s r hne
      rw [if_pos hun]
      exact ⟨v, hstep, hfills, hitem, rfl, ⟨fun h => .inl h, fun _ => hun⟩⟩
    · have hne : "not needed: stopped for this subject: " ++ r.stop ≠ "" :=
        append_ne_empty (by decide)
      obtain ⟨v, hstep, hfills, hitem, hreason⟩ := skipInstance_step env t subject item
        spec s r hne
      rw [if_neg hun]
      refine ⟨v, hstep, hfills, hitem, rfl, ⟨fun h => .inl h, ?_⟩⟩
      rintro (h | h)
      · exact h
      · rw [Visit.cutShort, hreason, PyStr.startsWith_iff] at h
        obtain ⟨rest, hrest⟩ := h
        exact absurd hrest (PyStr.append_ne_append rfl rfl (by decide))
  · split at h
    · exact visitInstance_step h
    · rename_i seconds hseconds
      dsimp only at h
      split at h
      · obtain rfl := pure_ok.mp h
        have hne : "stopped: " ++ sliceText seconds ++ " (this subject only)" ≠ "" :=
          append_ne_empty (append_ne_empty (by decide))
        obtain ⟨v, hstep, hfills, hitem, hreason⟩ := skipInstance_step env t subject item
          spec s r hne
        refine ⟨v, hstep, hfills, hitem, rfl, ⟨fun _ => .inr ?_, fun _ => rfl⟩⟩
        rw [Visit.cutShort, hreason, String.append_assoc]
        exact PyStr.startsWith_append_of (by decide) _
      · obtain ⟨v, hv⟩ := visitInstance_step h
        exact ⟨v, hv.step, hv.fills, hv.item, hv.enumerations, hv.unfinished⟩

end Instance

/-! ## Runs -/

/-- The visits of some places, in order. -/
abbrev Fill (vs : List Visit) (slots : List Slot) : Prop := List.Forall₂ Visit.Fills vs slots

abbrev RunState.Emits (env : Env σ) (st : RunState σ) (vs : List Visit) (st' : RunState σ) : Prop :=
  Journal.Emits (Ledger.Step env) st.ledger vs st'.ledger

/-- The places of one subject. -/
def slotsOf (t : ForEach) (steps : List Step) (subject : String) : List Slot :=
  steps.map fun s => ⟨s, some (t, subject)⟩

theorem runInstances_emits {env : Env σ} {t : ForEach} {subject : String} {item : Dict}
    {started : ℚ} {steps : List Step} {r r' : SubjectRun σ}
    (h : runInstances env t subject item started r steps = .ok r') :
    ∃ vs, r.state.Emits env vs r'.state ∧ Fill vs (slotsOf t steps subject)
      ∧ r'.state.enumerations = r.state.enumerations
      ∧ (r'.unfinished = true ↔ r.unfinished = true ∨ ∃ v ∈ vs, v.cutShort) := by
  induction steps generalizing r with
  | nil =>
      injection h with h
      subst h
      exact ⟨[], .nil _, .nil, rfl, by simp⟩
  | cons s steps ih =>
      obtain ⟨r₁, h₁, h⟩ := bind_ok.mp h
      obtain ⟨v, hv⟩ := runInstance_step h₁
      obtain ⟨vs, hemits, hfill, hen, hun⟩ := ih h
      refine ⟨v :: vs, .cons hv.step hemits, .cons hv.fills hfill, hen.trans hv.enumerations, ?_⟩
      rw [hun, hv.unfinished, or_assoc, List.exists_mem_cons_iff]

theorem runSubject_emits {env : Env σ} {t : ForEach} {subject : String} {item : Dict}
    {st : RunState σ} {r : SubjectRun σ} (h : runSubject env t st subject item = .ok r) :
    ∃ vs, st.Emits env vs r.state ∧ Fill vs (slotsOf t t.steps subject)
      ∧ r.state.enumerations = st.enumerations
      ∧ (r.unfinished = true ↔ ∃ v ∈ vs, v.cutShort) := by
  obtain ⟨vs, hemits, hfill, hen, hun⟩ := runInstances_emits h
  refine ⟨vs, hemits, hfill, hen, ?_⟩
  rw [hun]
  simp

/-- The places of a template, subject by subject. -/
def templateSlots (t : ForEach) (subjects : List String) : List Slot :=
  subjects.flatMap (slotsOf t t.steps)

theorem templateSlots_cons (t : ForEach) (subject : String) (subjects : List String) :
    templateSlots t (subject :: subjects) = slotsOf t t.steps subject ++ templateSlots t subjects :=
  rfl

theorem templateSlots_append (t : ForEach) (xs ys : List String) :
    templateSlots t (xs ++ ys) = templateSlots t xs ++ templateSlots t ys :=
  List.flatMap_append

/-- The subjects that had a visit cut short. -/
def CutShort (vs : List Visit) (subject : String) : Prop :=
  ∃ v ∈ vs, v.record.subject = some subject ∧ v.cutShort

theorem runSubjects_emits {env : Env σ} {t : ForEach} {subs : List (String × Dict)}
    {st st' : RunState σ} {before after : List String}
    (h : runSubjects env t st before subs = .ok (st', after)) :
    ∃ vs cut, st.Emits env vs st' ∧ Fill vs (templateSlots t (subs.map (·.1)))
      ∧ st'.enumerations = st.enumerations ∧ after = before ++ cut
      ∧ ∀ x, x ∈ cut ↔ CutShort vs x := by
  induction subs generalizing st before with
  | nil =>
      injection h with h
      injection h with h₁ h₂
      subst h₁ h₂
      exact ⟨[], [], .nil _, .nil, rfl, by simp, by simp [CutShort]⟩
  | cons sub subs ih =>
      obtain ⟨subject, item⟩ := sub
      obtain ⟨r, hr, h⟩ := bind_ok.mp h
      obtain ⟨vs, hemits, hfill, hen, hun⟩ := runSubject_emits hr
      obtain ⟨ws, cut, hemits', hfill', hen', hafter, hcut⟩ := ih h
      have hsub : ∀ v ∈ vs, v.record.subject = some subject := by
        intro v hv
        obtain ⟨slot, hslot, hf⟩ := scheduled hfill hv
        obtain ⟨s, -, rfl⟩ := List.mem_map.mp hslot
        exact congrArg Identity.subject hf.identity
      refine ⟨vs ++ ws, (if r.unfinished then [subject] else []) ++ cut, hemits.append hemits',
        List.rel_append hfill hfill', hen'.trans hen, ?_, ?_⟩
      · rw [hafter]
        split <;> simp
      · intro x
        have hparts : CutShort (vs ++ ws) x ↔ CutShort vs x ∨ CutShort ws x := by
          simp only [CutShort, List.mem_append, or_and_right, exists_or]
        rw [List.mem_append, hcut x, hparts]
        refine or_congr_left ⟨fun hx => ?_, fun ⟨v, hv, hx, hcs⟩ => ?_⟩
        · by_cases hunf : r.unfinished = true
          · obtain rfl : x = subject := by simpa [hunf] using hx
            obtain ⟨v, hv, hcs⟩ := hun.mp hunf
            exact ⟨v, hv, hsub v hv, hcs⟩
          · simp [hunf] at hx
        · obtain rfl : subject = x := by simpa [hsub v hv] using hx
          rw [if_pos (hun.mpr ⟨v, hv, hcs⟩)]
          exact List.mem_singleton_self _

theorem withUnfinished_subjects (e : Enumeration) (cut : List String) :
    (e.withUnfinished cut).subjects = e.subjects := by
  unfold Enumeration.withUnfinished
  split <;> rfl

theorem askSubjects_subjects {env : Env σ} {st : RunState σ} {t : ForEach}
    {subs : List (String × Dict)} {e : Enumeration} (h : askSubjects env st t = .ok (subs, e)) :
    subs.map (·.1) = e.subjects := by
  unfold askSubjects at h
  split at h
  · injection h with h
    injection h with h₁ h₂
    subst h₁ h₂
    rfl
  · unfold subjects at h
    split at h
    · injection h with h
      injection h with h₁ h₂
      subst h₁ h₂
      rfl
    · split at h
      · injection h with h
        injection h with h₁ h₂
        subst h₁ h₂
        rfl
      · obtain ⟨entries, -, h⟩ := bind_ok.mp h
        injection pure_ok.mp h with h₁ h₂
        subst h₁ h₂
        rw [List.map_map]
        exact List.map_id _

/-- What a template leaves: the visits of its places, and its enumeration. -/
theorem runTemplate_emits {env : Env σ} {st st' : RunState σ} {t : ForEach}
    (h : runTemplate env st t = .ok st') :
    ∃ vs subs e cut, askSubjects env st t = .ok (subs, e) ∧ st.Emits env vs st'
      ∧ Fill vs (templateSlots t e.subjects)
      ∧ st'.enumerations = st.enumerations ++ [(t.templateId, e.withUnfinished cut)]
      ∧ ∀ x, x ∈ cut ↔ CutShort vs x := by
  obtain ⟨⟨subs, e⟩, hask, h⟩ := bind_ok.mp h
  obtain ⟨⟨st₁, unfinished⟩, hruns, h⟩ := bind_ok.mp h
  obtain rfl := pure_ok.mp h
  obtain ⟨vs, cut, hemits, hfill, hen, hafter, hcut⟩ := runSubjects_emits hruns
  obtain rfl : unfinished = cut := hafter
  refine ⟨vs, subs, e, unfinished, hask, hemits, ?_, ?_, hcut⟩
  · rw [← askSubjects_subjects hask]
    exact hfill
  · show st₁.enumerations ++ _ = _
    rw [hen]

/-- The places of a plan, the subjects of its templates being those of
their enumerations, in order. -/
def slots : List PlanItem → List (String × Enumeration) → List Slot
  | [], _ => []
  | .step s :: rest, enums => { step := s } :: slots rest enums
  | .forEach t :: rest, enums =>
      templateSlots t ((enums.head?.map (·.2.subjects)).getD []) ++ slots rest enums.tail

def templates (plan : List PlanItem) : List ForEach :=
  plan.filterMap fun
    | .step _ => none
    | .forEach t => some t

/-- A run visits the places of its plan, in order, each once. -/
theorem runItems_emits {env : Env σ} {plan : List PlanItem} {st st' : RunState σ}
    (h : runItems env st plan = .ok st') :
    ∃ vs enums, st.Emits env vs st' ∧ st'.enumerations = st.enumerations ++ enums
      ∧ enums.map (·.1) = (templates plan).map ForEach.templateId ∧ Fill vs (slots plan enums) := by
  induction plan generalizing st with
  | nil =>
      injection h with h
      subst h
      exact ⟨[], [], .nil _, by simp, rfl, .nil⟩
  | cons item rest ih =>
      obtain ⟨st₁, h₁, h⟩ := bind_ok.mp h
      obtain ⟨ws, enums, hemits', hen', hids, hfill'⟩ := ih h
      cases item with
      | step s =>
          obtain ⟨v, hstep, hf, hen⟩ := runStep_step h₁
          exact ⟨v :: ws, enums, .cons hstep hemits', by rw [hen', hen], hids, .cons hf hfill'⟩
      | forEach t =>
          obtain ⟨vs, subs, e, cut, -, hemits, hfill, hen, -⟩ := runTemplate_emits h₁
          refine ⟨vs ++ ws, (t.templateId, e.withUnfinished cut) :: enums, hemits.append hemits',
            ?_, ?_, List.rel_append ?_ hfill'⟩
          · rw [hen', hen, List.append_assoc]
            rfl
          · rw [List.map_cons, hids]
            rfl
          · show Fill vs (templateSlots t (e.withUnfinished cut).subjects)
            rw [withUnfinished_subjects]
            exact hfill

/-- The visits of a run are the ones of its journal. -/
theorem Ledger.emits_visits {env : Env σ} {l l' : Ledger} {vs : List Visit}
    (h : Journal.Emits (Ledger.Step env) l vs l') : l'.visits = vs.reverse ++ l.visits := by
  induction h with
  | nil => rfl
  | cons hstep _ ih => rw [ih, hstep.visits, List.reverse_cons, List.append_assoc]; rfl

/-- Every visit saw the records of the visits before it. -/
theorem RunState.Emits.seen {env : Env σ} {runner : σ} {st : RunState σ} {before after : List Visit}
    {v : Visit} (h : (startState runner).Emits env (before ++ v :: after) st) :
    v.view.records.tail = (before.map Visit.record).reverse := by
  obtain ⟨l, l', hbefore, hstep, -⟩ := Journal.Emits.fired h
  rw [hstep.seen, Ledger.emits_visits hbefore]
  show List.map _ (before.reverse ++ []) = _
  rw [List.append_nil, List.map_reverse]

/-! ## States a run reaches -/

/-- A state of a run: between two items of its plan, or between two steps
of a subject. -/
inductive Reached (env : Env σ) (plan : List PlanItem) (runner : σ) : RunState σ → Prop where
  | between {pre post : List PlanItem} {st : RunState σ} (hplan : plan = pre ++ post)
      (h : runItems env (startState runner) pre = .ok st) : Reached env plan runner st
  | within {pre post : List PlanItem} {t : ForEach} {st st' : RunState σ}
      {done todo : List (String × Dict)} {e : Enumeration} {unfinished : List String}
      {subject : String} {item : Dict} {steps rest : List Step} {r : SubjectRun σ}
      (hplan : plan = pre ++ .forEach t :: post)
      (h : runItems env (startState runner) pre = .ok st)
      (hask : askSubjects env st t = .ok (done ++ (subject, item) :: todo, e))
      (hdone : runSubjects env t st [] done = .ok (st', unfinished))
      (hsteps : t.steps = steps ++ rest)
      (hr : runInstances env t subject item (env.clock st'.ticks)
        { state := { st' with ticks := st'.ticks + 1 } } steps = .ok r) :
      Reached env plan runner r.state

theorem runPlanState_ok {plan : List PlanItem} {env : Env σ} {runner : σ} {st : RunState σ}
    (h : runPlanState plan env runner = .ok st) :
    validatePlan plan env.registry = .ok () ∧ Reached env.bounded plan runner st := by
  obtain ⟨_, hvalid, hrun⟩ := bind_ok.mp h
  exact ⟨hvalid, .between (List.append_nil plan).symm hrun⟩

theorem slots_append {pre post : List PlanItem} {enums more : List (String × Enumeration)}
    (h : enums.map (·.1) = (templates pre).map ForEach.templateId) :
    slots (pre ++ post) (enums ++ more) = slots pre enums ++ slots post more := by
  induction pre generalizing enums with
  | nil =>
      obtain rfl : enums = [] := List.map_eq_nil_iff.mp h
      rfl
  | cons item pre ih =>
      cases item with
      | step s =>
          have hrest : slots (pre ++ post) (enums ++ more) = _ := ih h
          rw [List.cons_append, slots, hrest]
          rfl
      | forEach t =>
          cases enums with
          | nil => cases h
          | cons e enums =>
              injection h with _ h
              have hrest : slots (pre ++ post) (enums ++ more) = _ := ih h
              rw [List.cons_append, slots, List.cons_append, List.tail_cons, hrest, slots,
                List.append_assoc]
              rfl

/-- The visits of a reached state fill the first places of the plan. -/
theorem Reached.emits {env : Env σ} {plan : List PlanItem} {runner : σ} {st : RunState σ}
    (h : Reached env plan runner st) :
    ∃ vs places enums, (startState runner).Emits env vs st ∧ Fill vs places
      ∧ places <+: slots plan enums := by
  cases h with
  | between hplan h =>
      obtain ⟨vs, enums, hemits, -, hids, hfill⟩ := runItems_emits h
      refine ⟨vs, _, enums ++ [], hemits, hfill, ?_⟩
      rw [hplan, slots_append hids]
      exact List.prefix_append _ _
  | @within pre post t st st' done todo e _ subject item steps rest r hplan h hask hdone hsteps
      hr =>
      obtain ⟨vs, enums, hemits, -, hids, hfill⟩ := runItems_emits h
      obtain ⟨ws, _, hemits', hfill', -⟩ := runSubjects_emits hdone
      obtain ⟨us, hemits'', hfill'', -⟩ := runInstances_emits hr
      refine ⟨vs ++ (ws ++ us), slots pre enums ++ (templateSlots t (done.map (·.1))
        ++ slotsOf t steps subject), enums ++ [(t.templateId, e)],
        hemits.append (hemits'.append hemits''),
        List.rel_append hfill (List.rel_append hfill' hfill''), ?_⟩
      have hsub : e.subjects = done.map (·.1) ++ subject :: todo.map (·.1) := by
        rw [← askSubjects_subjects hask, List.map_append, List.map_cons]
      rw [hplan, slots_append hids]
      refine List.prefix_append_right_inj _ |>.mpr ?_
      show _ <+: templateSlots t e.subjects ++ _
      rw [hsub, templateSlots_append, templateSlots_cons, List.append_assoc, List.append_assoc]
      refine List.prefix_append_right_inj _ |>.mpr ?_
      rw [slotsOf, slotsOf, hsteps, List.map_append, List.append_assoc]
      exact List.prefix_append _ _

/-- Every visit of a reached state was of some place, after the visits of the places before. -/
theorem Reached.visit_at {env : Env σ} {plan : List PlanItem} {runner : σ} {st : RunState σ}
    (h : Reached env plan runner st) {v : Visit} (hv : v ∈ st.visits) :
    ∃ enums earlier before s after, slots plan enums = before ++ s :: after ∧ v.Fills s
      ∧ Fill earlier before ∧ v.view.records.tail = (earlier.map Visit.record).reverse := by
  obtain ⟨vs, places, enums, hemits, hfill, rest, hplaces⟩ := h.emits
  have hvisits : st.visits = vs.reverse ++ [] := Ledger.emits_visits hemits
  have hmem : v ∈ vs := by simpa [hvisits] using hv
  obtain ⟨earlier, later, rfl⟩ := List.append_of_mem hmem
  obtain ⟨before, s, after, rfl, hbefore, hs⟩ := scheduled_at hfill
  exact ⟨enums, earlier, before, s, after ++ rest, by rw [← hplaces]; simp, hs, hbefore,
    RunState.Emits.seen hemits⟩

end IpaDiagnose.Planner
