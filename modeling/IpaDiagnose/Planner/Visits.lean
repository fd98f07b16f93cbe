import IpaDiagnose.Lib.Result
import IpaDiagnose.Planner.Run

/-!
# What a visit can do

A visit refuses a step, ends the run at a shared budget, or runs the
check (`Visiting`). Everything later proofs need of a visit is said here
once, and they never unfold it.
-/

namespace IpaDiagnose.Planner

open Py (Value Dict Exc)
open Result

variable {σ : Type}

/-! ## Admission -/

/-- A gate is absent or returned true. -/
def Opens (fn : Option Gate) (ctx : Context) : Prop := ∃ why, safeGate fn ctx = .ok (true, why)

/-- All that must hold for a step to be run. -/
structure Permitted (env : Env σ) (step : Step) (ctx : Context) : Prop where
  requires : ∀ r ∈ step.requires, ∃ o ∈ r.accept, ctx.outcome r.step = some o
  applies : Opens step.applies ctx
  when : Opens step.when ctx
  root : step.needsRoot = true → env.isRoot = true
  params : ∃ p, resolveParams ctx step.params = .ok (.ok p)

/-- The record is as before but for what a refusal fills in. -/
def Record.SkippedFrom (r r₀ : Record) : Prop :=
  { r with
    selectedBecause := r₀.selectedBecause
    skipReason := r₀.skipReason
    blockedBy := r₀.blockedBy } = r₀

theorem blocked?_eq_none {step : Step} {ctx : Context} (h : blocked? step ctx = none) :
    ∀ r ∈ step.requires, ∃ o ∈ r.accept, ctx.outcome r.step = some o := by
  intro r hr
  have hacc := List.find?_eq_none.mp h r hr
  rcases ho : ctx.outcome r.step with _ | o
  · simp [ho] at hacc
  · refine ⟨o, ?_, rfl⟩
    simpa [ho] using hacc

/-- What admission can come to. -/
inductive Admitting (env : Env σ) (st : RunState σ) (step : Step) (record : Record)
    (ctx : Context) : Admission → Prop where
  | refused {r : Record} {ticks : Nat} (h : r.SkippedFrom record) (hr : r.skipReason ≠ "") :
      Admitting env st step record ctx (.refused r ticks)
  | halted {why : Halt} {r : Record} {reason : String} {ticks : Nat} (h : r.SkippedFrom record)
      (hs : st.stopReason = "") (hr : reason ≠ "") :
      Admitting env st step record ctx (.halted why r reason ticks)
  | admitted {r : Record} {params : Dict} {ticks : Nat} (h : r.SkippedFrom record)
      (hs : st.stopReason = "") (hp : Permitted env step ctx) (hb : st.executed < env.maxSteps)
      (hv : resolveParams ctx step.params = .ok (.ok params)) :
      Admitting env st step record ctx (.admitted r params ticks)

theorem append_ne_empty {s t : String} (h : s ≠ "") : s ++ t ≠ "" := by
  simp [String.append_eq_empty_iff, h]

theorem blockedReason_ne (b : Req) (ctx : Context) : blockedReason b ctx ≠ "" := by
  unfold blockedReason
  exact append_ne_empty (append_ne_empty (append_ne_empty (append_ne_empty (by decide))))

theorem admitBudget_cases {env : Env σ} {st : RunState σ} {step : Step} {record r₀ : Record}
    {ctx : Context} {a : Admission} (hrec : record.SkippedFrom r₀) (hs : st.stopReason = "")
    (hreq : ∀ r ∈ step.requires, ∃ o ∈ r.accept, ctx.outcome r.step = some o)
    (happ : Opens step.applies ctx) (hwhen : Opens step.when ctx)
    (h : admitBudget env st step record ctx = .ok a) : Admitting env st step r₀ ctx a := by
  unfold admitBudget at h
  split at h
  · injection h with h
    subst h
    exact .refused hrec (append_ne_empty (append_ne_empty (by decide)))
  · rename_i hroot
    split at h
    · injection h with h
      subst h
      exact .halted hrec hs (append_ne_empty (append_ne_empty (by decide)))
    · rename_i hsteps
      split at h
      · injection h with h
        subst h
        exact .halted hrec hs (append_ne_empty (append_ne_empty (by decide)))
      · obtain ⟨p, hp, h⟩ := bind_ok.mp h
        cases p with
        | error why =>
            obtain rfl := pure_ok.mp h
            exact .refused hrec (append_ne_empty (by decide))
        | ok params =>
            obtain rfl := pure_ok.mp h
            refine .admitted hrec hs ⟨hreq, happ, hwhen, ?_, params, hp⟩ (by omega) hp
            simpa using hroot

theorem admitStep_cases {env : Env σ} {st : RunState σ} {step : Step} {record : Record}
    {ctx : Context} {a : Admission} (h : admitStep env st step record ctx = .ok a) :
    Admitting env st step record ctx a := by
  unfold admitStep at h
  split at h
  · injection h with h
    subst h
    exact .refused rfl (append_ne_empty (by decide))
  · rename_i hs
    have hs : st.stopReason = "" := not_not.mp hs
    split at h
    · injection h with h
      subst h
      exact .refused rfl (blockedReason_ne _ ctx)
    · rename_i hblocked
      obtain ⟨⟨ok₁, why₁⟩, hg₁, h⟩ := bind_ok.mp h
      cases ok₁ with
      | false =>
          obtain rfl := pure_ok.mp h
          exact .refused rfl (append_ne_empty (by decide))
      | true =>
          obtain ⟨⟨ok₂, why₂⟩, hg₂, h⟩ := bind_ok.mp h
          have hrec : Record.SkippedFrom
              (if step.when.isSome then { record with selectedBecause := why₂ } else record)
              record := by
            split <;> rfl
          cases ok₂ with
          | false =>
              obtain rfl := pure_ok.mp h
              refine .refused ?_ ?_
              · split <;> rfl
              · exact append_ne_empty (by split <;> decide)
          | true =>
              exact admitBudget_cases hrec hs (blocked?_eq_none hblocked) ⟨why₁, hg₁⟩
                ⟨why₂, hg₂⟩ h

/-! ## Execution -/

theorem tryRun_attempts (env : Env σ) (check : String) (params : Dict) (n k : Nat)
    (a : Attempts σ) (hn : n ≠ 0) : (tryRun env check params n k a).attempts ≠ 0 := by
  induction n generalizing k a with
  | zero => exact absurd rfl hn
  | succ n ih =>
      rcases hrun : env.run a.runner check params (0 < k) with ⟨e | res, runner⟩
      · simp [tryRun, hrun]
      · simp only [tryRun, hrun]
        split
        · simp
        · rcases n with _ | n
          · simp [tryRun]
          · exact ih (k + 1) _ (by simp)

/-- What a record is a record of. -/
structure Identity where
  stepId : String
  subject : Option String
  template : Option String
  baseStep : Option String
deriving DecidableEq

def Record.identity (r : Record) : Identity := ⟨r.stepId, r.subject, r.template, r.baseStep⟩

theorem Record.SkippedFrom.identity_eq {r r₀ : Record} (h : r.SkippedFrom r₀) :
    r.identity = r₀.identity := by
  unfold Record.SkippedFrom at h
  rw [← h]
  rfl

theorem Record.SkippedFrom.attempts_eq {r r₀ : Record} (h : r.SkippedFrom r₀) :
    r.attempts = r₀.attempts := by
  unfold Record.SkippedFrom at h
  rw [← h]

theorem Record.SkippedFrom.outcome_eq {r r₀ : Record} (h : r.SkippedFrom r₀) :
    r.outcome = r₀.outcome := by
  unfold Record.SkippedFrom at h
  rw [← h]

/-- What holds of a visit that began in `st` with a fresh record. -/
structure Visiting (env : Env σ) (st : RunState σ) (step : Step) (record : Record)
    (base : Context) (v : Visited σ) : Prop where
  identity : v.record.identity = record.identity
  visits : v.state.visits = st.visits
  enumerations : v.state.enumerations = st.enumerations
  /-- A check is run only if the step is permitted, inside the budget, before any stop. -/
  ran : v.record.attempts ≠ 0 → st.stopReason = "" ∧ Permitted env step (base.withRecord record)
    ∧ st.executed < env.maxSteps ∧ v.state.executed = st.executed + 1
  skipped : v.record.attempts = 0 → v.record.outcome = .skipped ∧ v.record.skipReason ≠ ""
    ∧ v.state.executed = st.executed
  stopped : st.stopReason ≠ "" → v.state.stopReason = st.stopReason

theorem execute_spec {env : Env σ} {st : RunState σ} {spec : CheckSpec} {step : Step}
    {record : Record} {base : Context} {params : Dict} {v : Visited σ}
    (h : execute env st spec step record base params = .ok v) :
    v.record.identity = record.identity ∧ v.state.visits = st.visits
      ∧ v.state.enumerations = st.enumerations ∧ v.record.attempts ≠ 0
      ∧ v.state.executed = st.executed + 1 := by
  simp only [execute] at h
  have hattempts := tryRun_attempts env step.check params (1 + step.retries).toNat 0
    { result := .ok none, attempts := record.attempts, reused := record.reused, runner := st.runner }
  generalize ha : tryRun env step.check params (1 + step.retries).toNat 0
    { result := .ok none, attempts := record.attempts, reused := record.reused,
      runner := st.runner } = a at h hattempts
  have hpos : a.result ≠ .ok none → a.attempts ≠ 0 := by
    intro hres
    refine hattempts fun h0 => hres ?_
    rw [← ha, h0]
    rfl
  split at h
  · rename_i hres
    obtain rfl := pure_ok.mp h
    exact ⟨rfl, rfl, rfl, hpos (by simp [hres]), rfl⟩
  · cases h
  · cases h
  · rename_i res hres
    obtain ⟨c, -, h⟩ := bind_ok.mp h
    obtain ⟨why, -, h⟩ := bind_ok.mp h
    obtain ⟨sub, -, h⟩ := bind_ok.mp h
    obtain rfl := pure_ok.mp h
    exact ⟨rfl, rfl, rfl, hpos (by simp [hres]), rfl⟩

/-- An execution that was not interrupted: the answer, and what was made of it. -/
structure Executed (env : Env σ) (st : RunState σ) (spec : CheckSpec) (step : Step)
    (record : Record) (base : Context) (a : Attempts σ) (v : Visited σ) : Prop where
  run : ∃ res u r₀ c why,
    a.result = .ok (some res)
      ∧ r₀ = answered env u { record with attempts := a.attempts, reused := a.reused } res
          (env.clock st.ticks)
      ∧ interpret spec step res (base.withRecord r₀) = .ok c
      ∧ v.record = r₀.classified c
      ∧ safeStop step.stop (base.withRecord v.record) = .ok why
      ∧ v.state.stopReason = stopAfter st.stopReason why
      ∧ safeStop step.stopSubject (base.withRecord v.record) = .ok v.subjectStop

theorem execute_cases {env : Env σ} {st : RunState σ} {spec : CheckSpec} {step : Step}
    {record : Record} {base : Context} {params : Dict} {v : Visited σ}
    (h : execute env st spec step record base params = .ok v) :
    v.halted = some .cancelled ∨ Executed env st spec step record base
      (tryRun env step.check params (1 + step.retries).toNat 0
        { result := .ok none, attempts := record.attempts, reused := record.reused,
          runner := st.runner }) v := by
  simp only [execute] at h
  generalize tryRun env step.check params (1 + step.retries).toNat 0 _ = a at h ⊢
  split at h
  · obtain rfl := pure_ok.mp h
    exact .inl rfl
  · cases h
  · cases h
  · rename_i res hres
    obtain ⟨c, hc, h⟩ := bind_ok.mp h
    obtain ⟨why, hwhy, h⟩ := bind_ok.mp h
    obtain ⟨sub, hsub, h⟩ := bind_ok.mp h
    obtain rfl := pure_ok.mp h
    exact .inr ⟨res, _, _, c, why, hres, rfl, hc, rfl, hwhy, rfl, hsub⟩

theorem visit_spec {env : Env σ} {st : RunState σ} {spec : CheckSpec} {step : Step}
    {record : Record} {base : Context} {v : Visited σ} (hrun : record.attempts = 0)
    (hskip : record.outcome = .skipped) (h : visit env st spec step record base = .ok v) :
    Visiting env st step record base v := by
  simp only [visit] at h
  obtain ⟨a, ha, h⟩ := bind_ok.mp h
  cases admitStep_cases ha with
  | refused hr hne =>
      obtain rfl := pure_ok.mp h
      refine ⟨hr.identity_eq, rfl, rfl, fun hn => absurd (hr.attempts_eq.trans hrun) hn,
        fun _ => ⟨hr.outcome_eq.trans hskip, hne, rfl⟩, fun _ => rfl⟩
  | halted hr hs hne =>
      obtain rfl := pure_ok.mp h
      refine ⟨hr.identity_eq, rfl, rfl, fun hn => absurd (hr.attempts_eq.trans hrun) hn,
        fun _ => ⟨hr.outcome_eq.trans hskip, append_ne_empty (by decide), rfl⟩,
        fun hn => absurd hs hn⟩
  | admitted hr hs hp hb hv =>
      obtain ⟨hid, hvis, hen, hatt, hex⟩ := execute_spec h
      exact ⟨hid.trans hr.identity_eq, hvis, hen, fun _ => ⟨hs, hp, hb, hex⟩,
        fun hn => absurd hn hatt, fun hn => absurd hs hn⟩

/-! ## What an answer leaves -/

/-- An answer the runner may give to a check. -/
def Env.Gives (env : Env σ) (check : String) (res : CheckResult) : Prop :=
  ∃ runner params fresh runner', env.run runner check params fresh = (.ok res, runner')

theorem tryRun_gives (env : Env σ) (check : String) (params : Dict) (n k : Nat) (a : Attempts σ)
    (ha : ∀ res, a.result = .ok (some res) → env.Gives check res) :
    ∀ res, (tryRun env check params n k a).result = .ok (some res) → env.Gives check res := by
  induction n generalizing k a with
  | zero => exact ha
  | succ n ih =>
      rcases hrun : env.run a.runner check params (0 < k) with ⟨e | res, runner⟩
      · intro res hres
        simp [tryRun, hrun] at hres
      · have hgives : env.Gives check res := ⟨_, _, _, _, hrun⟩
        have hnew : ∀ r, (Except.ok (some res) : Except E _) = .ok (some r) → env.Gives check r := by
          intro r hr
          cases hr
          exact hgives
        simp only [tryRun, hrun]
        split
        · exact hnew
        · exact ih (k + 1) _ hnew

/-- A record of an answer: its fields, and what was made of it. -/
structure Record.Holds (r : Record) (spec : CheckSpec) (step : Step) (res : CheckResult) : Prop where
  fields : r.fields = res.fields
  made : ∃ ctx c, interpret spec step res ctx = .ok c ∧ r.outcome = c.outcome ∧ r.facts = c.facts

/-- An answer has no facts, or those of the classifier. -/
theorem interpret_facts {spec : CheckSpec} {step : Step} {res : CheckResult} {ctx : Context}
    {c : Classified} (h : interpret spec step res ctx = .ok c) :
    c.facts = [] ∨ ∃ c', (step.classify.getD defaultClassify) res ctx = .ok c'
      ∧ c.facts = c'.facts := by
  unfold interpret at h
  dsimp only at h
  split at h
  · cases h
    exact .inl rfl
  · split at h
    · cases h
      exact .inl rfl
    · split at h
      · rename_i c' hc'
        cases h
        exact .inr ⟨c', hc', rfl⟩
      · split at h
        · cases h
          exact .inl rfl
        · cases h

/-- A visit leaves a step that was not run, or the record of an answer. -/
theorem visit_holds {env : Env σ} {st : RunState σ} {spec : CheckSpec} {step : Step}
    {record : Record} {base : Context} {v : Visited σ} (hskip : record.outcome = .skipped)
    (h : visit env st spec step record base = .ok v) :
    v.record.outcome = .skipped
      ∨ ∃ res, env.Gives step.check res ∧ v.record.Holds spec step res := by
  simp only [visit] at h
  obtain ⟨a, ha, h⟩ := bind_ok.mp h
  cases admitStep_cases ha with
  | refused hr =>
      obtain rfl := pure_ok.mp h
      exact .inl (hr.outcome_eq.trans hskip)
  | halted hr =>
      obtain rfl := pure_ok.mp h
      exact .inl (hr.outcome_eq.trans hskip)
  | @admitted r params ticks hr =>
      simp only [execute] at h
      have hgives := tryRun_gives env step.check params (1 + step.retries).toNat 0
        { result := .ok none, attempts := r.attempts, reused := r.reused, runner := st.runner } nofun
      generalize tryRun env step.check params (1 + step.retries).toNat 0 _ = b at h hgives
      split at h
      · obtain rfl := pure_ok.mp h
        exact .inl (hr.outcome_eq.trans hskip)
      · cases h
      · cases h
      · rename_i res hres
        obtain ⟨c, hc, h⟩ := bind_ok.mp h
        obtain ⟨why, -, h⟩ := bind_ok.mp h
        obtain ⟨sub, -, h⟩ := bind_ok.mp h
        obtain rfl := pure_ok.mp h
        exact .inr ⟨res, hgives res hres, rfl, _, c, hc, rfl, rfl⟩

/-! ## Logged visits -/

/-- A visit in the history, as the run that made it left it. -/
structure Visit.Sound (env : Env σ) (v : Visit) : Prop where
  permitted : v.record.attempts ≠ 0 → v.stopBefore = "" ∧ Permitted env v.step v.view
  skipped : v.record.attempts = 0 → v.record.outcome = .skipped ∧ v.record.skipReason ≠ ""
  stopped : v.stopBefore ≠ "" → v.stopAfter = v.stopBefore

end IpaDiagnose.Planner
