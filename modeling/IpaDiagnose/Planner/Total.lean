import IpaDiagnose.Planner.History
import IpaDiagnose.Planner.Validated

/-!
# When a run returns

The callables of a plan may raise what the run catches, and the runner may
be interrupted. Beyond that, a run of an accepted plan ends early in one
place only: where the subjects of a template are validated, on a port
number that is a digit text and no number.
-/

namespace IpaDiagnose.Planner

open Py (Value Dict Exc)
open Result

variable {σ : Type}

/-! ## Callables that raise only what is caught -/

/-- A callable raises nothing but what the run catches. -/
def Catchable {α : Type} (fn : Option (Context → Except E α)) : Prop :=
  ∀ f, fn = some f → ∀ ctx e, f ctx = .error e → caught e = true

/-- A parameter whose name can be looked up. -/
def Param.Hashable : Param → Prop
  | .tuple [_, .list _] => False
  | .tuple [_, .dict _] => False
  | _ => True

structure Step.Tame (s : Step) : Prop where
  applies : Catchable s.applies
  when : Catchable s.when
  stop : Catchable s.stop
  stopSubject : Catchable s.stopSubject
  classify : ∀ f, s.classify = some f → ∀ res ctx e, f res ctx = .error e → caught e = true
  params : ∀ p ∈ s.params, p.2.Hashable
  retries : 0 ≤ s.retries

/-- The runner raises nothing but the operator's interrupt. -/
def Env.Answers (env : Env σ) : Prop :=
  ∀ runner check params fresh e runner',
    env.run runner check params fresh = (.error e, runner') → e = .keyboardInterrupt

structure Tame (env : Env σ) (plan : List PlanItem) : Prop where
  steps : ∀ item ∈ plan, ∀ s ∈ item.steps, s.Tame
  runner : env.Answers

theorem safeGate_returns {fn : Option Gate} (h : Catchable fn) (ctx : Context) :
    ∃ r, safeGate fn ctx = .ok r := by
  unfold safeGate
  cases fn with
  | none => exact ⟨_, rfl⟩
  | some f =>
      rcases hf : f ctx with e | r
      · have hcaught := h f rfl ctx e hf
        simp only [hf, hcaught]
        exact ⟨_, rfl⟩
      · simp only [hf]
        exact ⟨_, rfl⟩

theorem safeStop_returns {fn : Option (Context → Except E (Option String))} (h : Catchable fn)
    (ctx : Context) : ∃ r, safeStop fn ctx = .ok r := by
  unfold safeStop
  cases fn with
  | none => exact ⟨_, rfl⟩
  | some f =>
      rcases hf : f ctx with e | r
      · have hcaught := h f rfl ctx e hf
        simp only [hf, hcaught]
        exact ⟨_, rfl⟩
      · simp only [hf]
        exact ⟨_, rfl⟩

theorem interpret_returns {spec : CheckSpec} {s : Step} (h : s.Tame) (res : CheckResult)
    (ctx : Context) : ∃ c, interpret spec s res ctx = .ok c := by
  simp only [interpret]
  split
  · exact ⟨_, rfl⟩
  · split
    · exact ⟨_, rfl⟩
    · split
      · exact ⟨_, rfl⟩
      · rename_i e he
        have hcaught : caught e = true := by
          rcases hc : s.classify with _ | f
          · simp [hc, defaultClassify] at he
          · exact h.classify f hc res ctx e (by simpa [hc] using he)
        rw [if_pos hcaught]
        exact ⟨_, rfl⟩

/-! ## Parameters -/

theorem lookupKey_returns {α : Type} {kvs : List (String × α)} {ref : Value}
    (hlist : ∀ xs, ref ≠ .list xs) (hdict : ∀ xs, ref ≠ .dict xs) :
    ∃ v, (Py.lookupKey kvs ref : Except E _) = .ok v := by
  unfold Py.lookupKey
  split
  · exact ⟨_, rfl⟩
  · exact absurd rfl (hlist _)
  · exact absurd rfl (hdict _)
  · exact ⟨_, rfl⟩

theorem refValue_returns {seen : Seen} {local_ : List String} {ctx : Context} {kind ref : Value}
    (hok : ParamOk seen local_ (.tuple [kind, ref])) (hhash : (Param.tuple [kind, ref]).Hashable) :
    ∃ v, refValue ctx kind ref = .ok v := by
  have hlist : ∀ xs, ref ≠ .list xs := by
    rintro xs rfl
    exact hhash
  have hdict : ∀ xs, ref ≠ .dict xs := by
    rintro xs rfl
    exact hhash
  unfold refValue
  split
  · rename_i hfact
    obtain ⟨r, rfl, -⟩ := hok hfact
    exact ⟨_, rfl⟩
  · split
    · exact exists_bind_ok (lookupKey_returns hlist hdict) fun v _ => ⟨_, rfl⟩
    · exact exists_bind_ok (lookupKey_returns hlist hdict) fun v _ => ⟨_, rfl⟩

theorem resolveParams_returns {seen : Seen} {local_ : List String} {ctx : Context}
    {ps : List (String × Param)} (hok : ∀ p ∈ ps, ParamOk seen local_ p.2)
    (hhash : ∀ p ∈ ps, p.2.Hashable) : ∃ r, resolveParams ctx ps = .ok r := by
  induction ps with
  | nil => exact ⟨_, rfl⟩
  | cons p ps ih =>
      have hrest : ∃ r, resolveParams ctx ps = .ok r :=
        ih (fun q hq => hok q (List.mem_cons_of_mem _ hq))
          fun q hq => hhash q (List.mem_cons_of_mem _ hq)
      have hp := hok p List.mem_cons_self
      have hh := hhash p List.mem_cons_self
      obtain ⟨k, v | vs⟩ := p
      · rw [resolveParams]
        exact exists_bind_ok hrest fun _ _ => ⟨_, rfl⟩
      · match vs, hp, hh with
        | [kind, ref], hp, hh =>
            rw [resolveParams]
            refine exists_bind_ok (refValue_returns hp hh) fun v _ => ?_
            split
            · exact ⟨_, rfl⟩
            · exact exists_bind_ok hrest fun _ _ => ⟨_, rfl⟩

/-! ## One visit -/

section Visit

variable {env : Env σ} {st : RunState σ} {s : Step} {seen : Seen} {local_ : List String}

theorem admitBudget_returns (htame : s.Tame) (hparams : ∀ p ∈ s.params, ParamOk seen local_ p.2)
    (record : Record) (ctx : Context) : ∃ a, admitBudget env st s record ctx = .ok a := by
  unfold admitBudget
  split
  · exact ⟨_, rfl⟩
  · split
    · exact ⟨_, rfl⟩
    · split
      · exact ⟨_, rfl⟩
      · refine exists_bind_ok (resolveParams_returns hparams htame.params) fun r _ => ?_
        cases r with
        | error why => exact ⟨_, rfl⟩
        | ok params => exact ⟨_, rfl⟩

theorem admitStep_returns (htame : s.Tame) (hparams : ∀ p ∈ s.params, ParamOk seen local_ p.2)
    (record : Record) (ctx : Context) : ∃ a, admitStep env st s record ctx = .ok a := by
  unfold admitStep
  split
  · exact ⟨_, rfl⟩
  · split
    · exact ⟨_, rfl⟩
    · refine exists_bind_ok (safeGate_returns htame.applies ctx) fun r _ => ?_
      obtain ⟨ok, why⟩ := r
      cases ok with
      | false => exact ⟨_, rfl⟩
      | true =>
          refine exists_bind_ok (safeGate_returns htame.when ctx) fun r _ => ?_
          obtain ⟨ok, why⟩ := r
          cases ok with
          | false => exact ⟨_, rfl⟩
          | true => exact admitBudget_returns htame hparams _ ctx

theorem tryRun_result (henv : env.Answers) (check : String) (params : Dict) (n k : Nat)
    (a : Attempts σ) (hn : n ≠ 0) :
    (tryRun env check params n k a).result = .error .keyboardInterrupt
      ∨ ∃ res, (tryRun env check params n k a).result = .ok (some res) := by
  induction n generalizing k a with
  | zero => exact absurd rfl hn
  | succ n ih =>
      rcases hrun : env.run a.runner check params (0 < k) with ⟨e | res, runner⟩
      · obtain rfl := henv _ _ _ _ _ _ hrun
        exact .inl (by simp [tryRun, hrun])
      · simp only [tryRun, hrun]
        split
        · exact .inr ⟨res, rfl⟩
        · rcases n with _ | n
          · exact .inr ⟨res, rfl⟩
          · exact ih (k + 1) _ (by omega)

theorem execute_returns (henv : env.Answers) (htame : s.Tame) (spec : CheckSpec) (record : Record)
    (base : Context) (params : Dict) : ∃ v, execute env st spec s record base params = .ok v := by
  have hn : (1 + s.retries).toNat ≠ 0 := by
    have := htame.retries
    omega
  have hresult := tryRun_result henv s.check params (1 + s.retries).toNat 0
    { result := .ok none, attempts := record.attempts, reused := record.reused,
      runner := st.runner } hn
  simp only [execute]
  rcases hresult with hres | ⟨res, hres⟩
  · rw [hres]
    exact ⟨_, rfl⟩
  · rw [hres]
    refine exists_bind_ok (interpret_returns htame res _) fun c _ => ?_
    refine exists_bind_ok (safeStop_returns htame.stop _) fun why _ => ?_
    refine exists_bind_ok (safeStop_returns htame.stopSubject _) fun sub _ => ?_
    exact ⟨_, rfl⟩

theorem visitLogged_returns (henv : env.Answers) (htame : s.Tame)
    (hparams : ∀ p ∈ s.params, ParamOk seen local_ p.2) (spec : CheckSpec) (record : Record)
    (base : Context) : ∃ v, visitLogged env st spec s record base = .ok v := by
  refine exists_bind_ok ?_ fun v _ => ⟨_, rfl⟩
  refine exists_bind_ok (admitStep_returns htame hparams record _) fun a _ => ?_
  cases a with
  | refused record ticks => exact ⟨_, rfl⟩
  | halted why record reason ticks => exact ⟨_, rfl⟩
  | admitted record params ticks => exact execute_returns henv htame spec record base params

theorem specOf_returns {registry : Registry} {inTemplate : Bool} (hreg : env.registry = registry)
    (hok : StepOk registry seen local_ inTemplate s) : ∃ spec, specOf env s = .ok spec := by
  obtain ⟨spec, hspec⟩ := hok.registered
  refine ⟨spec, ?_⟩
  rw [specOf, hreg, hspec]

end Visit

/-! ## Items -/

section Items

variable {env : Env σ} {registry : Registry} (henv : env.Answers) (hreg : env.registry = registry)
include henv hreg

theorem runStep_returns {st : RunState σ} {s : Step} {seen : Seen} (htame : s.Tame)
    (hok : StepOk registry seen [] false s) : ∃ st', runStep env st s = .ok st' := by
  refine exists_bind_ok (specOf_returns hreg hok) fun spec _ => ?_
  exact exists_bind_ok (visitLogged_returns henv htame hok.params spec _ _) fun v _ => ⟨_, rfl⟩

theorem runInstance_returns {t : ForEach} {subject : String} {item : Dict} {started : ℚ}
    {r : SubjectRun σ} {s : Step} {seen : Seen} {local_ : List String} (htame : s.Tame)
    (hok : StepOk registry seen local_ true s) :
    ∃ r', runInstance env t subject item started r s = .ok r' := by
  have hvisit : ∀ (r : SubjectRun σ) spec record base,
      ∃ r', visitInstance env r spec s record base = .ok r' := fun r spec record base =>
    exists_bind_ok (visitLogged_returns henv htame hok.params spec record base) fun v _ => ⟨_, rfl⟩
  refine exists_bind_ok (specOf_returns hreg hok) fun spec _ => ?_
  dsimp only
  split
  · exact ⟨_, rfl⟩
  · split
    · exact hvisit r spec _ _
    · split
      · exact ⟨_, rfl⟩
      · exact hvisit _ spec _ _

theorem runInstances_returns {t : ForEach} {subject : String} {item : Dict} {started : ℚ}
    {steps : List Step} {r : SubjectRun σ} {seen : Seen} {local_ : List String}
    (htame : ∀ s ∈ steps, s.Tame) (hok : StepsOk registry seen steps local_) :
    ∃ r', runInstances env t subject item started r steps = .ok r' := by
  induction steps generalizing r local_ with
  | nil => exact ⟨r, rfl⟩
  | cons s steps ih =>
      refine exists_bind_ok
        (runInstance_returns henv hreg (htame s List.mem_cons_self) hok.1) fun r' _ => ?_
      exact ih (fun s' hs' => htame s' (List.mem_cons_of_mem _ hs')) hok.2

theorem runSubjects_returns {t : ForEach} {subs : List (String × Dict)} {st : RunState σ}
    {before : List String} {seen : Seen} (htame : ∀ s ∈ t.steps, s.Tame)
    (hok : StepsOk registry seen t.steps []) :
    ∃ r, runSubjects env t st before subs = .ok r := by
  induction subs generalizing st before with
  | nil => exact ⟨_, rfl⟩
  | cons sub subs ih =>
      refine exists_bind_ok ?_ fun r _ => ih
      exact runInstances_returns henv hreg htame hok

end Items

/-! ## Subjects -/

theorem readEntries_returns_iff (type : String) (acc : Entries) (xs : List Value) :
    (∃ e, readEntries type acc xs = .ok e) ↔
      ∀ x ∈ xs, ¬ T.Raises type (entryKey x) := by
  induction xs generalizing acc with
  | nil => exact iff_of_true ⟨acc, rfl⟩ nofun
  | cons x xs ih =>
      have hadd : (∃ acc', acc.add type x = .ok acc') ↔ ¬ T.Raises type (entryKey x) := by
        rw [← T.validate_returns_iff]
        constructor
        · rintro ⟨acc', h⟩
          obtain ⟨r, hr, -⟩ := bind_ok.mp h
          exact ⟨r, hr⟩
        · intro hr
          refine exists_bind_ok hr fun r _ => ?_
          cases r with
          | none => exact ⟨_, rfl⟩
          | some valid =>
              dsimp only
              split
              · exact ⟨_, rfl⟩
              · exact ⟨_, rfl⟩
      rw [List.forall_mem_cons]
      constructor
      · rintro ⟨e, h⟩
        obtain ⟨acc', h₁, h₂⟩ := bind_ok.mp h
        exact ⟨hadd.mp ⟨acc', h₁⟩, (ih acc').mp ⟨e, h₂⟩⟩
      · rintro ⟨hx, hxs⟩
        exact exists_bind_ok (hadd.mpr hx) fun acc' _ => (ih acc').mpr hxs

/-- The list a template asks for has no port among the entries read that
cannot be read. -/
def Readable (env : Env σ) (t : ForEach) (st : RunState σ) : Prop :=
  st.stopReason = "" → ∀ raw, listFact? t (st.context env) = some raw →
    ∀ x ∈ raw.take ENTRIES_READ, ¬ T.Raises t.subjectType (entryKey x)

/-- The step that established a list ran. -/
theorem ran_of_listFact {t : ForEach} {ctx : Context} {raw : List Value}
    (h : listFact? t ctx = some raw) : ctx.ran (refStep t.source) = true := by
  unfold listFact? Context.outcome at h
  unfold Context.ran
  rcases hfind : ctx.find (refStep t.source) with _ | r
  · simp [hfind] at h
  · rcases ho : r.outcome with _ | _ | _ | _ | _ <;> simp_all

theorem askSubjects_returns_iff {env : Env σ} {t : ForEach} {st : RunState σ} :
    (∃ r, askSubjects env st t = .ok r) ↔ Readable env t st := by
  unfold askSubjects Readable
  split
  · rename_i hstop
    exact iff_of_true ⟨_, rfl⟩ fun h => absurd h hstop
  · rename_i hstop
    rw [forall_prop_of_true (not_not.mp hstop)]
    unfold subjects
    split
    · rename_i hran
      refine iff_of_true ⟨_, rfl⟩ fun raw hraw => ?_
      rw [ran_of_listFact hraw] at hran
      cases hran
    · rcases hraw : listFact? t (st.context env) with _ | raw
      · exact iff_of_true ⟨_, rfl⟩ nofun
      · simp only [Option.some.injEq, forall_eq']
        rw [← readEntries_returns_iff t.subjectType {} (raw.take ENTRIES_READ)]
        constructor
        · rintro ⟨r, h⟩
          obtain ⟨e, he, -⟩ := bind_ok.mp h
          exact ⟨e, he⟩
        · exact fun h => exists_bind_ok h fun e _ => ⟨_, rfl⟩

/-! ## Plans -/

theorem runTemplate_returns_iff {env : Env σ} {registry : Registry} (henv : env.Answers)
    (hreg : env.registry = registry) {t : ForEach} {st : RunState σ} {seen : Seen}
    (htame : ∀ s ∈ t.steps, s.Tame) (hok : TemplateOk registry seen t) :
    (∃ st', runTemplate env st t = .ok st') ↔ Readable env t st := by
  rw [← askSubjects_returns_iff]
  constructor
  · rintro ⟨st', h⟩
    obtain ⟨r, hr, -⟩ := bind_ok.mp h
    exact ⟨r, hr⟩
  · intro h
    refine exists_bind_ok h fun r _ => ?_
    exact exists_bind_ok (runSubjects_returns henv hreg htame hok.steps) fun _ _ => ⟨_, rfl⟩

/-- A run of a checked plan returns exactly if every template it comes to
can read the entries of its list. -/
theorem runItems_returns_iff {env : Env σ} {registry : Registry} (henv : env.Answers)
    (hreg : env.registry = registry) {plan : List PlanItem} {st : RunState σ} {seen : Seen}
    (htame : ∀ item ∈ plan, ∀ s ∈ item.steps, s.Tame) (hacc : Accepted registry seen plan) :
    (∃ st', runItems env st plan = .ok st') ↔
      ∀ pre t post st₁, plan = pre ++ .forEach t :: post → runItems env st pre = .ok st₁ →
        Readable env t st₁ := by
  induction plan generalizing st seen with
  | nil => exact iff_of_true ⟨st, rfl⟩ fun pre t post st₁ h => by simp at h
  | cons item rest ih =>
      have htameRest : ∀ i ∈ rest, ∀ s ∈ i.steps, s.Tame :=
        fun i hi => htame i (List.mem_cons_of_mem _ hi)
      have hitem : (∃ st₁, runItem env st item = .ok st₁) ↔
          ∀ t, item = .forEach t → Readable env t st := by
        cases item with
        | step s =>
            refine iff_of_true ?_ fun t h => by cases h
            exact runStep_returns henv hreg
              (htame _ List.mem_cons_self s (List.mem_singleton_self s)) hacc.1
        | forEach t =>
            rw [show runItem env st (.forEach t) = runTemplate env st t from rfl,
              runTemplate_returns_iff henv hreg (htame _ List.mem_cons_self) hacc.1]
            exact ⟨fun h t' ht' => by cases ht'; exact h, fun h => h t rfl⟩
      constructor
      · rintro ⟨st', h⟩ pre t post st₁ hplan hpre
        obtain ⟨st₂, h₂, h⟩ := bind_ok.mp h
        cases pre with
        | nil =>
            injection hplan with hhead _
            injection hpre with hpre
            subst hpre
            exact hitem.mp ⟨st₂, h₂⟩ t hhead
        | cons i pre =>
            injection hplan with hhead htail
            subst hhead
            obtain ⟨st₃, h₃, hpre⟩ := bind_ok.mp hpre
            obtain rfl : st₂ = st₃ := by rw [h₂] at h₃; injection h₃
            exact (ih htameRest hacc.2).mp ⟨st', h⟩ pre t post st₁ htail hpre
      · intro h
        refine exists_bind_ok (hitem.mpr fun t ht => ?_) fun st₁ h₁ => ?_
        · exact h [] t rest st (by rw [ht]; rfl) rfl
        · refine (ih htameRest hacc.2).mpr fun pre t post st₂ hplan hpre => ?_
          exact h (item :: pre) t post st₂ (by rw [hplan]; rfl) (bind_ok.mpr ⟨st₁, h₁, hpre⟩)

end IpaDiagnose.Planner
