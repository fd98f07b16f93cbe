import Mathlib.Data.List.Find
import IpaDiagnose.Planner.Safety

/-!
# Subjects do not interfere

Two runs of one plan whose answers differ only for the checks of one
subject leave the same records for every other subject, but for what
depends on the clock or on the runner's own bookkeeping: how long a check
took, when it was collected, and whether its answer was reused.

The proof relates the states of the two runs by the records that concern
one subject: those of plan steps, and its own. What a step of that subject
does is determined by these; a step of any other subject leaves them
alone.
-/

namespace IpaDiagnose.Planner

open Py (Value Dict Exc)
open Result Journal

variable {σ σ₁ σ₂ : Type}

/-! ## What two runs share -/

/-- A record without what depends on the clock and the runner's bookkeeping. -/
def Record.erased (r : Record) : Record :=
  { r with seconds := 0, collectedAt := none, reused := false }

/-- Contexts that look alike to a step that refers to some ids. -/
structure Agree (ids : List String) (c₁ c₂ : Context) : Prop where
  inputs : c₁.inputs = c₂.inputs
  item : c₁.item = c₂.item
  locals : c₁.locals = c₂.locals
  subject : c₁.subject = c₂.subject
  find : ∀ id ∈ ids, (c₁.find id).map Record.erased = (c₂.find id).map Record.erased

/-- Contexts that look alike to a callable that reads the facts, the
outcomes, the inputs and the item. -/
structure SameReads (ids : List String) (c₁ c₂ : Context) : Prop where
  outcome : ∀ id ∈ ids, c₁.outcome id = c₂.outcome id
  ran : ∀ id ∈ ids, c₁.ran id = c₂.ran id
  fact : ∀ ref default, refStep ref ∈ ids → c₁.fact ref default = c₂.fact ref default
  input : ∀ name default, c₁.input name default = c₂.input name default
  item : c₁.item = c₂.item

/-- A callable reads nothing else of its context, and only of these steps. -/
def Confined {α : Type} (ids : List String) (fn : Option (Context → Except E α)) : Prop :=
  ∀ f, fn = some f → ∀ c₁ c₂, SameReads ids c₁ c₂ → f c₁ = f c₂

structure Step.Confined (ids : List String) (s : Step) : Prop where
  applies : Planner.Confined ids s.applies
  when : Planner.Confined ids s.when
  stop : Planner.Confined ids s.stop
  stopSubject : Planner.Confined ids s.stopSubject
  classify : ∀ f, s.classify = some f →
    ∀ res c₁ c₂, SameReads ids c₁ c₂ → f res c₁ = f res c₂

/-- Two runs with the same inputs, on the same host. -/
structure SameSetting (env₁ : Env σ₁) (env₂ : Env σ₂) : Prop where
  inputs : env₁.inputs = env₂.inputs
  isRoot : env₁.isRoot = env₂.isRoot
  registry : env₁.registry = env₂.registry
  replay : env₁.replay = env₂.replay
  privilegeHint : env₁.privilegeHint = env₂.privilegeHint

abbrev Answering := String → Dict → Bool → Except E CheckResult

/-- The runner's answers are those of a function of the check and its parameters. -/
def Env.AnswersBy (env : Env σ) (ans : Answering) : Prop :=
  ∀ runner check params fresh, (env.run runner check params fresh).1 = ans check params fresh

/-- The fact of a record that a reference names. -/
def factIn (ref : String) (default : Value) (r : Record) : Value :=
  if r.outcome = .skipped then default
  else
    match r.facts.lookup (PyStr.rpartition ref '.').2 with
    | some v => v
    | none => (r.fields.lookup (PyStr.rpartition ref '.').2).getD default

/-! ## Contexts -/

namespace Agree

variable {ids : List String} {c₁ c₂ : Context} (h : Agree ids c₁ c₂)
include h

theorem key (id : String) : c₁.key id = c₂.key id := by
  rw [Context.key, Context.key, h.locals, h.subject]

/-- Whatever does not depend on what is erased is the same of both records. -/
theorem read {α : Type} (f : Record → α) (hf : ∀ r, f r = f r.erased) {id : String}
    (hid : id ∈ ids) : (c₁.find id).map f = (c₂.find id).map f := by
  have hcomp : f = f ∘ Record.erased := funext hf
  rw [hcomp, ← Option.map_map, ← Option.map_map, h.find id hid]

theorem outcome {id : String} (hid : id ∈ ids) : c₁.outcome id = c₂.outcome id :=
  h.read Record.outcome (fun _ => rfl) hid

theorem ran {id : String} (hid : id ∈ ids) : c₁.ran id = c₂.ran id := by
  have hread := h.read (fun r => r.outcome != .skipped) (fun _ => rfl) hid
  have hran : ∀ c : Context, c.ran id = ((c.find id).map fun r => r.outcome != .skipped).getD false := by
    intro c
    rw [Context.ran]
    cases c.find id <;> rfl
  rw [hran, hran, hread]

theorem fact (ref : String) (default : Value) (hid : refStep ref ∈ ids) :
    c₁.fact ref default = c₂.fact ref default := by
  have hread := h.read (factIn ref default) (fun _ => rfl) hid
  have hfact : ∀ c : Context,
      c.fact ref default = ((c.find (refStep ref)).map (factIn ref default)).getD default := by
    intro c
    rw [Context.fact, refStep]
    cases c.find (PyStr.rpartition ref '.').1 <;> rfl
  rw [hfact, hfact, hread]

theorem sameReads : SameReads ids c₁ c₂ where
  outcome _ hid := h.outcome hid
  ran _ hid := h.ran hid
  fact ref default hid := h.fact ref default hid
  input name default := by rw [Context.input, Context.input, h.inputs]
  item := h.item

/-- A record under way looks alike in both. -/
theorem withRecord {r₁ r₂ : Record} (hr : r₁.erased = r₂.erased) :
    Agree ids (c₁.withRecord r₁) (c₂.withRecord r₂) := by
  refine ⟨h.inputs, h.item, h.locals, h.subject, fun id hid => ?_⟩
  have hstepId : r₁.erased.stepId = r₂.erased.stepId := by rw [hr]
  replace hstepId : r₁.stepId = r₂.stepId := hstepId
  have hkey := h.key id
  have hfind : ∀ (c : Context) (r : Record), (c.withRecord r).find id
      = if r.stepId == c.key id then some r else c.find id := by
    intro c r
    show List.find? _ (r :: c.records) = _
    rw [List.find?_cons]
    show (match r.stepId == c.key id with | true => _ | false => _) = _
    cases r.stepId == c.key id <;> rfl
  rw [hfind, hfind, hstepId, hkey]
  split
  · exact congrArg some hr
  · exact h.find id hid

end Agree

/-! ## One visit in two runs -/

theorem safeGate_agree {ids : List String} {fn : Option Gate} (hfn : Confined ids fn)
    {c₁ c₂ : Context} (h : Agree ids c₁ c₂) : safeGate fn c₁ = safeGate fn c₂ := by
  unfold safeGate
  cases fn with
  | none => rfl
  | some f => simp only [hfn f rfl c₁ c₂ h.sameReads]

theorem safeStop_agree {ids : List String} {fn : Option (Context → Except E (Option String))}
    (hfn : Confined ids fn) {c₁ c₂ : Context} (h : Agree ids c₁ c₂) :
    safeStop fn c₁ = safeStop fn c₂ := by
  unfold safeStop
  cases fn with
  | none => rfl
  | some f => simp only [hfn f rfl c₁ c₂ h.sameReads]

theorem interpret_agree {ids : List String} {s : Step} (hs : s.Confined ids) {c₁ c₂ : Context}
    (h : Agree ids c₁ c₂) (spec : CheckSpec) (res : CheckResult) :
    interpret spec s res c₁ = interpret spec s res c₂ := by
  have hclassify : (s.classify.getD defaultClassify) res c₁
      = (s.classify.getD defaultClassify) res c₂ := by
    rcases hc : s.classify with _ | f
    · rfl
    · exact hs.classify f hc res c₁ c₂ h.sameReads
  simp only [interpret, hclassify]

/-- The ids a step may refer to are among those looked at. -/
def Covers (ids : List String) (seen : Seen) (local_ : List String) : Prop :=
  ∀ d, d ∈ local_ ∨ seen.lookup d ≠ none → d ∈ ids

section Visit

variable {ids : List String} {seen : Seen} {local_ : List String} {c₁ c₂ : Context}
  {env₁ : Env σ₁} {env₂ : Env σ₂} {st₁ : RunState σ₁} {st₂ : RunState σ₂} {s : Step}
  {registry : Registry} {inTemplate : Bool}

theorem refValue_agree (h : Agree ids c₁ c₂) (hids : Covers ids seen local_) {kind ref : Value}
    (hok : ParamOk seen local_ (.tuple [kind, ref])) :
    refValue c₁ kind ref = refValue c₂ kind ref := by
  unfold refValue
  split
  · rename_i hfact
    obtain ⟨r, rfl, hr⟩ := hok hfact
    have hmem : refStep r ∈ ids := by
      refine hids _ (hr.imp_right fun hsome hnone => ?_)
      rw [hnone] at hsome
      cases hsome
    show Except.ok (c₁.fact r) = Except.ok (c₂.fact r)
    rw [h.fact r .null hmem]
  · rw [h.item, h.inputs]

theorem resolveParams_agree (h : Agree ids c₁ c₂) (hids : Covers ids seen local_)
    {ps : List (String × Param)} (hok : ∀ p ∈ ps, ParamOk seen local_ p.2) :
    resolveParams c₁ ps = resolveParams c₂ ps := by
  induction ps with
  | nil => rfl
  | cons p ps ih =>
      have hrest := ih fun q hq => hok q (List.mem_cons_of_mem _ hq)
      have hp := hok p List.mem_cons_self
      obtain ⟨k, v | vs⟩ := p
      · rw [resolveParams, resolveParams, hrest]
      · rcases vs with _ | ⟨kind, _ | ⟨ref, _ | ⟨_, _⟩⟩⟩
        · exact hp.elim
        · exact hp.elim
        · rw [resolveParams, resolveParams, hrest, refValue_agree h hids hp]
        · exact hp.elim

/-- Two admissions that differ in the clock readings only. -/
def SameAdmission : Admission → Admission → Prop
  | .refused r₁ _, .refused r₂ _ => r₁ = r₂
  | .admitted r₁ p₁ _, .admitted r₂ p₂ _ => r₁ = r₂ ∧ p₁ = p₂
  | _, _ => False

def Admission.isHalted : Admission → Bool
  | .halted .. => true
  | _ => false

theorem blocked?_agree (h : Agree ids c₁ c₂) (hreq : ∀ r ∈ s.requires, r.step ∈ ids) :
    blocked? s c₁ = blocked? s c₂ := by
  unfold blocked?
  exact List.find?_congr fun r hr => by rw [h.outcome (hreq r hr)]

theorem blockedReason_agree (h : Agree ids c₁ c₂) {b : Req} (hb : b.step ∈ ids) :
    blockedReason b c₁ = blockedReason b c₂ := by
  unfold blockedReason
  rw [h.read Record.title (fun _ => rfl) hb, h.outcome hb]

theorem admitBudget_agree (hset : SameSetting env₁ env₂) (h : Agree ids c₁ c₂)
    (hids : Covers ids seen local_) (hok : StepOk registry seen local_ inTemplate s)
    {record : Record} {a₁ a₂ : Admission}
    (h₁ : admitBudget env₁ st₁ s record c₁ = .ok a₁)
    (h₂ : admitBudget env₂ st₂ s record c₂ = .ok a₂)
    (hq₁ : a₁.isHalted = false) (hq₂ : a₂.isHalted = false) : SameAdmission a₁ a₂ := by
  unfold admitBudget at h₁ h₂
  rw [← hset.isRoot, ← hset.privilegeHint] at h₂
  by_cases hroot : (s.needsRoot && !env₁.isRoot) = true
  · rw [if_pos hroot] at h₁ h₂
    injection h₁ with h₁
    injection h₂ with h₂
    subst h₁ h₂
    rfl
  · rw [if_neg hroot] at h₁ h₂
    split at h₁
    · injection h₁ with h₁
      subst h₁
      cases hq₁
    · split at h₁
      · injection h₁ with h₁
        subst h₁
        cases hq₁
      · split at h₂
        · injection h₂ with h₂
          subst h₂
          cases hq₂
        · split at h₂
          · injection h₂ with h₂
            subst h₂
            cases hq₂
          · rw [← resolveParams_agree h hids hok.params] at h₂
            obtain ⟨r₁, hr₁, h₁⟩ := bind_ok.mp h₁
            obtain ⟨r₂, hr₂, h₂⟩ := bind_ok.mp h₂
            obtain rfl : r₁ = r₂ := by
              rw [hr₁] at hr₂
              injection hr₂
            cases r₁ with
            | error why =>
                obtain rfl := pure_ok.mp h₁
                obtain rfl := pure_ok.mp h₂
                rfl
            | ok params =>
                obtain rfl := pure_ok.mp h₁
                obtain rfl := pure_ok.mp h₂
                exact ⟨rfl, rfl⟩

theorem admitStep_agree (hset : SameSetting env₁ env₂) (hstop : st₁.stopReason = st₂.stopReason)
    (h : Agree ids c₁ c₂) (hids : Covers ids seen local_)
    (hok : StepOk registry seen local_ inTemplate s) (hs : s.Confined ids)
    {record : Record} {a₁ a₂ : Admission}
    (h₁ : admitStep env₁ st₁ s record c₁ = .ok a₁) (h₂ : admitStep env₂ st₂ s record c₂ = .ok a₂)
    (hq₁ : a₁.isHalted = false) (hq₂ : a₂.isHalted = false) : SameAdmission a₁ a₂ := by
  have hreq : ∀ r ∈ s.requires, r.step ∈ ids := by
    intro r hr
    refine hids _ ?_
    have hmem : r.step ∈ s.reads :=
      List.mem_append_left _ (List.mem_append_left _ (List.mem_map_of_mem hr))
    exact hok.reads hmem
  unfold admitStep at h₁ h₂
  rw [← hstop, ← blocked?_agree h hreq, ← safeGate_agree hs.applies h, ← safeGate_agree hs.when h]
    at h₂
  by_cases hs₀ : st₁.stopReason ≠ ""
  · rw [if_pos hs₀] at h₁ h₂
    injection h₁ with h₁
    injection h₂ with h₂
    subst h₁ h₂
    rfl
  · rw [if_neg hs₀] at h₁ h₂
    rcases hb : blocked? s c₁ with _ | b
    · simp only [hb] at h₁ h₂
      obtain ⟨⟨ok₁, why₁⟩, hg₁, h₁⟩ := bind_ok.mp h₁
      obtain ⟨⟨ok₂, why₂⟩, hg₂, h₂⟩ := bind_ok.mp h₂
      obtain ⟨rfl, rfl⟩ : ok₁ = ok₂ ∧ why₁ = why₂ := by
        rw [hg₁] at hg₂
        injection hg₂ with hg₂
        injection hg₂ with h₁ h₂
        exact ⟨h₁, h₂⟩
      cases ok₁ with
      | false =>
          obtain rfl := pure_ok.mp h₁
          obtain rfl := pure_ok.mp h₂
          rfl
      | true =>
          obtain ⟨⟨ok₁, why₁⟩, hg₁, h₁⟩ := bind_ok.mp h₁
          obtain ⟨⟨ok₂, why₂⟩, hg₂, h₂⟩ := bind_ok.mp h₂
          obtain ⟨rfl, rfl⟩ : ok₁ = ok₂ ∧ why₁ = why₂ := by
            rw [hg₁] at hg₂
            injection hg₂ with hg₂
            injection hg₂ with h₁ h₂
            exact ⟨h₁, h₂⟩
          cases ok₁ with
          | false =>
              obtain rfl := pure_ok.mp h₁
              obtain rfl := pure_ok.mp h₂
              rfl
          | true => exact admitBudget_agree hset h hids hok h₁ h₂ hq₁ hq₂
    · simp only [hb] at h₁ h₂
      have hmem : b.step ∈ ids := hreq b (List.mem_of_find?_eq_some hb)
      rw [← blockedReason_agree h hmem, ← h.key] at h₂
      injection h₁ with h₁
      injection h₂ with h₂
      subst h₁ h₂
      rfl

/-! ## Execution in two runs -/

/-- The attempts come to the same if the answers to this check do. -/
theorem tryRun_agree {ans₁ ans₂ : Answering} (hans₁ : env₁.AnswersBy ans₁)
    (hans₂ : env₂.AnswersBy ans₂) {check : String} {params : Dict}
    (hans : ∀ fresh, ans₁ check params fresh = ans₂ check params fresh) (n k : Nat)
    {a₁ : Attempts σ₁} {a₂ : Attempts σ₂} (hres : a₁.result = a₂.result)
    (hatt : a₁.attempts = a₂.attempts) :
    (tryRun env₁ check params n k a₁).result = (tryRun env₂ check params n k a₂).result
      ∧ (tryRun env₁ check params n k a₁).attempts = (tryRun env₂ check params n k a₂).attempts := by
  induction n generalizing k a₁ a₂ with
  | zero => exact ⟨hres, hatt⟩
  | succ n ih =>
      have hsame : (env₁.run a₁.runner check params (0 < k)).1
          = (env₂.run a₂.runner check params (0 < k)).1 := by rw [hans₁, hans₂, hans]
      rcases h₁ : env₁.run a₁.runner check params (0 < k) with ⟨res₁, runner₁⟩
      rcases h₂ : env₂.run a₂.runner check params (0 < k) with ⟨res₂, runner₂⟩
      obtain rfl : res₁ = res₂ := by simpa only [h₁, h₂] using hsame
      cases res₁ with
      | error e => simp [tryRun, h₁, h₂]
      | ok res =>
          simp only [tryRun, h₁, h₂]
          split
          · exact ⟨rfl, rfl⟩
          · exact ih (k + 1) rfl rfl

/-- Two visits that came to the same, but for what is erased of the record. -/
structure SameVisited (v₁ : Visited σ₁) (v₂ : Visited σ₂) : Prop where
  record : v₁.record.erased = v₂.record.erased
  stopReason : v₁.state.stopReason = v₂.state.stopReason
  subjectStop : v₁.subjectStop = v₂.subjectStop

theorem answered_erased (hset : SameSetting env₁ env₂) {r₁ r₂ : Record}
    (hr : r₁.erased = r₂.erased) (res : CheckResult) (t₁ t₂ : ℚ) :
    (answered env₁ st₁ r₁ res t₁).erased = (answered env₂ st₂ r₂ res t₂).erased := by
  have hcopy : ∀ (σ : Type) (env : Env σ) (st : RunState σ) (r : Record) (t : ℚ),
      (answered env st r res t).erased = { r.erased with
        source := if env.replay then "REPLAY" else "LIVE"
        status := res.status
        params := res.params.map fun kv => (kv.1, .str (sanitizeText kv.2.toStr 253))
        command := res.command
        fields := res.fields } := fun _ _ _ _ _ => rfl
  rw [hcopy, hcopy, hr, hset.replay]

theorem execute_agree (hset : SameSetting env₁ env₂) (hstop : st₁.stopReason = st₂.stopReason)
    (h : Agree ids c₁ c₂) (hs : s.Confined ids) {ans₁ ans₂ : Answering}
    (hans₁ : env₁.AnswersBy ans₁) (hans₂ : env₂.AnswersBy ans₂) {spec : CheckSpec}
    {record : Record} {params : Dict}
    (hans : ∀ fresh, ans₁ s.check params fresh = ans₂ s.check params fresh)
    {v₁ : Visited σ₁} {v₂ : Visited σ₂}
    (h₁ : execute env₁ st₁ spec s record c₁ params = .ok v₁)
    (h₂ : execute env₂ st₂ spec s record c₂ params = .ok v₂)
    (hq₁ : v₁.halted = none) (hq₂ : v₂.halted = none) : SameVisited v₁ v₂ := by
  have hattempts := tryRun_agree hans₁ hans₂ hans (1 + s.retries).toNat 0
    (show ({ result := .ok none, attempts := record.attempts, reused := record.reused,
             runner := st₁.runner } : Attempts σ₁).result
        = ({ result := .ok none, attempts := record.attempts, reused := record.reused,
             runner := st₂.runner } : Attempts σ₂).result from rfl) rfl
  have hrun₁ := (execute_cases h₁).resolve_left (by rw [hq₁]; exact nofun)
  have hrun₂ := (execute_cases h₂).resolve_left (by rw [hq₂]; exact nofun)
  obtain ⟨res₁, u₁, r₁, k₁, why₁, hres₁, hr₁, hk₁, hrec₁, hwhy₁, hst₁, hsub₁⟩ := hrun₁
  obtain ⟨res₂, u₂, r₂, k₂, why₂, hres₂, hr₂, hk₂, hrec₂, hwhy₂, hst₂, hsub₂⟩ := hrun₂
  obtain ⟨hres, hatt⟩ := hattempts
  obtain rfl : res₁ = res₂ := by
    rw [hres₁, hres₂] at hres
    injection hres with hres
    injection hres
  have herased : r₁.erased = r₂.erased := by
    rw [hr₁, hr₂]
    refine answered_erased hset ?_ _ _ _
    rw [hatt]
    rfl
  obtain rfl : k₁ = k₂ := by
    rw [interpret_agree hs (h.withRecord herased), hk₂] at hk₁
    injection hk₁ with hk₁
    exact hk₁.symm
  have hrecord : v₁.record.erased = v₂.record.erased := by
    have hclassified : ∀ r : Record, (r.classified k₁).erased = r.erased.classified k₁ :=
      fun _ => rfl
    rw [hrec₁, hrec₂, hclassified, hclassified, herased]
  refine ⟨hrecord, ?_, ?_⟩
  · rw [safeStop_agree hs.stop (h.withRecord hrecord), hwhy₂] at hwhy₁
    injection hwhy₁ with hwhy₁
    rw [hst₁, hst₂, hstop, hwhy₁]
  · rw [safeStop_agree hs.stopSubject (h.withRecord hrecord), hsub₂] at hsub₁
    injection hsub₁ with hsub₁
    exact hsub₁.symm

theorem visit_agree (hset : SameSetting env₁ env₂) (hstop : st₁.stopReason = st₂.stopReason)
    (h : Agree ids c₁ c₂) (hids : Covers ids seen local_)
    (hok : StepOk registry seen local_ inTemplate s) (hs : s.Confined ids)
    {ans₁ ans₂ : Answering} (hans₁ : env₁.AnswersBy ans₁) (hans₂ : env₂.AnswersBy ans₂)
    {spec : CheckSpec} {record : Record}
    {v₁ : Visited σ₁} {v₂ : Visited σ₂}
    (hans : v₁.record.attempts ≠ 0 →
      ∀ p, resolveParams (c₁.withRecord record) s.params = .ok (.ok p) →
        ∀ fresh, ans₁ s.check p fresh = ans₂ s.check p fresh)
    (h₁ : visit env₁ st₁ spec s record c₁ = .ok v₁)
    (h₂ : visit env₂ st₂ spec s record c₂ = .ok v₂)
    (hq₁ : v₁.halted = none) (hq₂ : v₂.halted = none) : SameVisited v₁ v₂ := by
  obtain ⟨a₁, ha₁, h₁⟩ := bind_ok.mp h₁
  obtain ⟨a₂, ha₂, h₂⟩ := bind_ok.mp h₂
  have hn₁ : a₁.isHalted = false := by
    cases a₁ with
    | halted why r reason ticks =>
        obtain rfl := pure_ok.mp h₁
        cases hq₁
    | _ => rfl
  have hn₂ : a₂.isHalted = false := by
    cases a₂ with
    | halted why r reason ticks =>
        obtain rfl := pure_ok.mp h₂
        cases hq₂
    | _ => rfl
  have hsame := admitStep_agree hset hstop (h.withRecord rfl) hids hok hs ha₁ ha₂ hn₁ hn₂
  cases a₁ with
  | halted why r reason ticks => cases hn₁
  | refused r₁ t₁ =>
      cases a₂ with
      | refused r₂ t₂ =>
          obtain rfl : r₁ = r₂ := hsame
          obtain rfl := pure_ok.mp h₁
          obtain rfl := pure_ok.mp h₂
          exact ⟨rfl, hstop, rfl⟩
      | _ => cases hsame
  | admitted r₁ p₁ t₁ =>
      cases a₂ with
      | admitted r₂ p₂ t₂ =>
          obtain ⟨rfl, rfl⟩ : r₁ = r₂ ∧ p₁ = p₂ := hsame
          cases admitStep_cases ha₁ with
          | admitted _ _ _ _ hparams =>
              have hstop' : ({ st₁ with ticks := t₁ } : RunState σ₁).stopReason
                  = ({ st₂ with ticks := t₂ } : RunState σ₂).stopReason := hstop
              obtain ⟨-, -, -, hran, -⟩ := execute_spec h₁
              exact execute_agree hset hstop' h hs hans₁ hans₂ (hans hran p₁ hparams) h₁ h₂ hq₁ hq₂
      | _ => cases hsame

/-- A step that may not stop the run leaves the reason to stop as it is. -/
theorem visit_keeps_stop {env : Env σ} {st : RunState σ} {spec : CheckSpec} {record : Record}
    {base : Context} {v : Visited σ} (hstop : s.stop = none)
    (h : visit env st spec s record base = .ok v) (hq : v.halted = none) :
    v.state.stopReason = st.stopReason := by
  obtain ⟨a, -, h⟩ := bind_ok.mp h
  cases a with
  | refused r t =>
      obtain rfl := pure_ok.mp h
      rfl
  | halted why r reason t =>
      obtain rfl := pure_ok.mp h
      cases hq
  | admitted r p t =>
      have hrun := (execute_cases h).resolve_left (by rw [hq]; exact nofun)
      obtain ⟨_, _, _, _, why, -, -, -, -, hwhy, hst, -⟩ := hrun
      rw [hstop] at hwhy
      injection hwhy with hwhy
      rw [hst, ← hwhy]
      rfl

end Visit

/-! ## The records that concern a subject -/

/-- A record of a plan step, or of this subject. -/
def concerns (A : String) (r : Record) : Bool := r.subject == none || r.subject == some A

def lowRecords (A : String) (rs : List Record) : List Record :=
  (rs.filter (concerns A)).map Record.erased

/-- Every record is of a place whose step has no reserved character in its id. -/
def RunState.Named (st : RunState σ) : Prop :=
  ∀ r ∈ st.records, ∃ x : Slot, '@' ∉ x.step.stepId.toList ∧ r.identity = x.identity

/-- Two states that look alike to one subject. -/
structure Alike (A : String) (st₁ : RunState σ₁) (st₂ : RunState σ₂) : Prop where
  records : lowRecords A st₁.records = lowRecords A st₂.records
  stopReason : st₁.stopReason = st₂.stopReason
  named₁ : st₁.Named
  named₂ : st₂.Named

theorem named_start (runner : σ) : (startState runner).Named := by
  intro r hr
  have hempty : (startState runner).records = [] := rfl
  rw [hempty] at hr
  cases hr

theorem Alike.start (A : String) (runner₁ : σ₁) (runner₂ : σ₂) :
    Alike A (startState runner₁) (startState runner₂) where
  records := rfl
  stopReason := rfl
  named₁ := named_start runner₁
  named₂ := named_start runner₂

/-- Where a subject looks, only records that concern it are found. -/
theorem concerns_of_key {A : String} {r : Record} {k id : String} {x : Slot}
    (hx : '@' ∉ x.step.stepId.toList) (hr : r.identity = x.identity) (hid : '@' ∉ id.toList)
    (hk : k = id ∨ k = id ++ "@" ++ A) (h : r.stepId = k) : concerns A r = true := by
  have hstepId : r.stepId = x.identity.stepId := congrArg Identity.stepId hr
  have hsubject : r.subject = x.identity.subject := congrArg Identity.subject hr
  rcases x with ⟨s, _ | ⟨t, C⟩⟩
  · have hnone : r.subject = none := hsubject
    simp [concerns, hnone]
  · have hat : ("@" : String).toList = ['@'] := rfl
    have hchars : r.stepId.toList = s.stepId.toList ++ '@' :: C.toList := by
      rw [hstepId]
      show (s.stepId ++ "@" ++ C).toList = _
      rw [String.toList_append, String.toList_append, hat, List.append_assoc,
        List.singleton_append]
    rcases hk with rfl | rfl
    · refine absurd ?_ hid
      rw [← h, hchars]
      simp
    · rw [h, String.toList_append, String.toList_append, hat, List.append_assoc,
        List.singleton_append] at hchars
      obtain ⟨-, hsame⟩ := append_at_inj hid hx hchars
      obtain rfl : A = C := String.toList_inj.mp hsame
      have hsome : r.subject = some A := hsubject
      simp [concerns, hsome]

/-- Looking a record up finds the same among the records that concern the subject. -/
theorem find_low {A k : String} {rs : List Record}
    (h : ∀ r ∈ rs, r.stepId = k → concerns A r = true) :
    (rs.find? fun r => r.stepId == k).map Record.erased
      = (lowRecords A rs).find? fun r => r.stepId == k := by
  have hcongr : rs.find? (fun r => r.stepId == k)
      = (rs.filter (concerns A)).find? fun r => r.stepId == k := by
    rw [List.find?_filter]
    refine List.find?_congr fun r hr => ?_
    by_cases hk : r.stepId = k
    · simp [hk, h r hr hk]
    · simp [hk]
  rw [hcongr, lowRecords, List.find?_map]
  rfl

theorem Alike.agree {A : String} {st₁ : RunState σ₁} {st₂ : RunState σ₂} (h : Alike A st₁ st₂)
    {ids : List String} (hids : ∀ id ∈ ids, '@' ∉ id.toList) {c₁ c₂ : Context}
    (hr₁ : c₁.records = st₁.records) (hr₂ : c₂.records = st₂.records)
    (hinputs : c₁.inputs = c₂.inputs) (hitem : c₁.item = c₂.item)
    (hlocals : c₁.locals = c₂.locals) (hsubject : c₁.subject = c₂.subject)
    (hkey : ∀ id, c₁.key id = id ∨ c₁.key id = id ++ "@" ++ A) : Agree ids c₁ c₂ := by
  refine ⟨hinputs, hitem, hlocals, hsubject, fun id hid => ?_⟩
  have hkeys : c₂.key id = c₁.key id := by rw [Context.key, Context.key, hlocals, hsubject]
  rw [Context.find, Context.find, hkeys, hr₁, hr₂, find_low (A := A), find_low (A := A), h.records]
  · intro r hr hk
    obtain ⟨x, hx, hid'⟩ := h.named₂ r hr
    exact concerns_of_key hx hid' (hids id hid) (hkey id) hk
  · intro r hr hk
    obtain ⟨x, hx, hid'⟩ := h.named₁ r hr
    exact concerns_of_key hx hid' (hids id hid) (hkey id) hk

theorem lowRecords_cons (A : String) (r : Record) (rs : List Record) :
    lowRecords A (r :: rs)
      = if concerns A r = true then r.erased :: lowRecords A rs else lowRecords A rs := by
  rw [lowRecords, List.filter_cons]
  split <;> rfl

/-- One record more, alike in both. -/
theorem Alike.log {A : String} {st₁ st₁' : RunState σ₁} {st₂ st₂' : RunState σ₂}
    (h : Alike A st₁ st₂) {r₁ r₂ : Record} {x : Slot} (hx : '@' ∉ x.step.stepId.toList)
    (hr₁ : r₁.identity = x.identity) (hr₂ : r₂.identity = x.identity)
    (herased : r₁.erased = r₂.erased) (hrec₁ : st₁'.records = r₁ :: st₁.records)
    (hrec₂ : st₂'.records = r₂ :: st₂.records) (hstop : st₁'.stopReason = st₂'.stopReason) :
    Alike A st₁' st₂' := by
  have hsame : concerns A r₁ = concerns A r₂ := by
    show concerns A r₁.erased = concerns A r₂.erased
    rw [herased]
  refine ⟨?_, hstop, ?_, ?_⟩
  · rw [hrec₁, hrec₂, lowRecords_cons, lowRecords_cons, hsame, herased, h.records]
  · intro r hr
    rw [hrec₁] at hr
    rcases List.mem_cons.mp hr with rfl | hr
    · exact ⟨x, hx, hr₁⟩
    · exact h.named₁ r hr
  · intro r hr
    rw [hrec₂] at hr
    rcases List.mem_cons.mp hr with rfl | hr
    · exact ⟨x, hx, hr₂⟩
    · exact h.named₂ r hr

/-! ## What the two runs keep to -/

/-- The step was stopped by its subject's time slice. -/
def Visit.Sliced (v : Visit) : Prop :=
  ∃ seconds, v.record.skipReason = "stopped: " ++ sliceText seconds ++ " (this subject only)"

/-- No visit hit a shared budget or was cancelled, and none of the subject
was stopped by its time slice. -/
def Calm (A : String) (st : RunState σ) : Prop :=
  ∀ v ∈ st.visits, v.halted = none ∧ (v.record.subject = some A → ¬ v.Sliced)

/-- The answers to every check run for another subject than `B`, or for a
plan step, are the same. -/
def Separate (B : String) (ans₁ ans₂ : Answering) (st : RunState σ) : Prop :=
  ∀ v ∈ st.visits, v.ran → v.record.subject ≠ some B →
    ∀ p, resolveParams v.view v.step.params = .ok (.ok p) →
      ∀ fresh, ans₁ v.step.check p fresh = ans₂ v.step.check p fresh

theorem Calm.mono {A : String} {st st' : RunState σ} (h : Calm A st')
    (hsub : st.visits ⊆ st'.visits) : Calm A st := fun v hv => h v (hsub hv)

theorem Separate.mono {B : String} {ans₁ ans₂ : Answering} {st st' : RunState σ}
    (h : Separate B ans₁ ans₂ st') (hsub : st.visits ⊆ st'.visits) : Separate B ans₁ ans₂ st :=
  fun v hv => h v (hsub hv)

theorem RunState.Emits.subset {env : Env σ} {st st' : RunState σ} {vs : List Visit}
    (h : st.Emits env vs st') : st.visits ⊆ st'.visits := by
  have hvisits : st'.visits = vs.reverse ++ st.visits := Ledger.emits_visits h
  rw [hvisits]
  exact List.subset_append_right _ _

/-- A step of another subject: nothing the subject sees is changed. -/
structure Hidden (A : String) (st st' : RunState σ) : Prop where
  records : lowRecords A st'.records = lowRecords A st.records
  stopReason : st'.stopReason = st.stopReason
  named : st.Named → st'.Named

theorem Hidden.trans {A : String} {st st₁ st₂ : RunState σ} (h : Hidden A st st₁)
    (h' : Hidden A st₁ st₂) : Hidden A st st₂ :=
  ⟨h'.records.trans h.records, h'.stopReason.trans h.stopReason, fun hn => h'.named (h.named hn)⟩

theorem Alike.hidden {A : String} {st₁ st₁' : RunState σ₁} {st₂ st₂' : RunState σ₂}
    (h : Alike A st₁ st₂) (h₁ : Hidden A st₁ st₁') (h₂ : Hidden A st₂ st₂') :
    Alike A st₁' st₂' := by
  refine ⟨?_, ?_, h₁.named h.named₁, h₂.named h.named₂⟩
  · rw [h₁.records, h₂.records, h.records]
  · rw [h₁.stopReason, h₂.stopReason, h.stopReason]

section Others

variable {env : Env σ} {A C : String} {t : ForEach} {item : Dict} {started : ℚ}

theorem Hidden.log {st st' : RunState σ} {r : Record} {x : Slot}
    (hx : '@' ∉ x.step.stepId.toList) (hr : r.identity = x.identity)
    (hC : x.identity.subject = some C) (hAC : C ≠ A) (hrec : st'.records = r :: st.records)
    (hstop : st'.stopReason = st.stopReason) : Hidden A st st' := by
  have hsubject : r.subject = some C := (congrArg Identity.subject hr).trans hC
  have hother : concerns A r = false := by simp [concerns, hsubject, hAC]
  refine ⟨?_, hstop, fun hnamed r' hr' => ?_⟩
  · rw [hrec, lowRecords_cons, hother]
    rfl
  · rw [hrec] at hr'
    rcases List.mem_cons.mp hr' with rfl | hr'
    · exact ⟨x, hx, hr⟩
    · exact hnamed r' hr'

theorem runInstance_hidden {r r' : SubjectRun σ} {s : Step} (hAC : C ≠ A)
    (hname : '@' ∉ s.stepId.toList) (hstop : s.stop = none)
    (hcalm : ∀ v ∈ r'.state.visits, v.halted = none)
    (h : runInstance env t C item started r s = .ok r') : Hidden A r.state r'.state := by
  obtain ⟨v, hv⟩ := runInstance_step h
  have hrec : r'.state.records = v.record :: r.state.records := by
    have hvisits : r'.state.visits = v :: r.state.visits := hv.step.visits
    rw [RunState.records, hvisits]
    rfl
  refine Hidden.log hname hv.fills.identity rfl hAC hrec ?_
  have hvisit : ∀ (q : SubjectRun σ) spec record base, q.state.stopReason = r.state.stopReason →
      visitInstance env q spec s record base = .ok r' →
      r'.state.stopReason = r.state.stopReason := by
    intro q spec record base hq h
    obtain ⟨w, hw, h⟩ := bind_ok.mp h
    obtain rfl := pure_ok.mp h
    obtain ⟨u, hu, hw⟩ := bind_ok.mp hw
    obtain rfl := pure_ok.mp hw
    have hhalted : u.halted = none := hcalm _ List.mem_cons_self
    exact (visit_keeps_stop hstop hu hhalted).trans hq
  obtain ⟨spec, -, h⟩ := bind_ok.mp h
  dsimp only at h
  split at h
  · obtain rfl := pure_ok.mp h
    rfl
  · split at h
    · exact hvisit r spec _ _ rfl h
    · split at h
      · obtain rfl := pure_ok.mp h
        rfl
      · exact hvisit { r with state := { r.state with ticks := r.state.ticks + 1 } } spec _ _ rfl h

theorem runInstances_hidden {steps : List Step} {r r' : SubjectRun σ} (hAC : C ≠ A)
    (hname : ∀ s ∈ steps, '@' ∉ s.stepId.toList) (hstop : ∀ s ∈ steps, s.stop = none)
    (hcalm : ∀ v ∈ r'.state.visits, v.halted = none)
    (h : runInstances env t C item started r steps = .ok r') : Hidden A r.state r'.state := by
  induction steps generalizing r with
  | nil =>
      injection h with h
      subst h
      exact ⟨rfl, rfl, id⟩
  | cons s steps ih =>
      obtain ⟨r₁, h₁, h⟩ := bind_ok.mp h
      obtain ⟨vs, hemits, -⟩ := runInstances_emits h
      have hcalm₁ : ∀ v ∈ r₁.state.visits, v.halted = none := fun v hv => hcalm v (hemits.subset hv)
      have hfirst := runInstance_hidden hAC (hname s List.mem_cons_self)
        (hstop s List.mem_cons_self) hcalm₁ h₁
      exact hfirst.trans (ih (fun s' hs' => hname s' (List.mem_cons_of_mem _ hs'))
        (fun s' hs' => hstop s' (List.mem_cons_of_mem _ hs')) h)

end Others

/-! ## Steps in two runs -/

section TwoRuns

variable {env₁ : Env σ₁} {env₂ : Env σ₂} {ans₁ ans₂ : Answering} {A B : String}
  {ids : List String} {registry : Registry} {seen : Seen}
  (hset : SameSetting env₁ env₂) (hans₁ : env₁.AnswersBy ans₁) (hans₂ : env₂.AnswersBy ans₂)
  (hnames : ∀ id ∈ ids, '@' ∉ id.toList)

include hset hans₁ hans₂ in
theorem visitLogged_alike {st₁ : RunState σ₁} {st₂ : RunState σ₂} {s : Step} {x : Slot}
    {record : Record} {c₁ c₂ : Context} {spec : CheckSpec} {local_ : List String}
    {inTemplate : Bool} {w₁ : Visited σ₁} {w₂ : Visited σ₂} (h : Alike A st₁ st₂)
    (hc : Agree ids c₁ c₂) (hids : Covers ids seen local_) (hok : StepOk registry seen local_ inTemplate s)
    (hs : s.Confined ids) (hx : '@' ∉ x.step.stepId.toList) (hfits : record.identity = x.identity)
    (hB : record.subject ≠ some B) (hfresh : record.attempts = 0)
    (hskipped : record.outcome = .skipped)
    (hcalm₁ : Calm A w₁.state) (hcalm₂ : Calm A w₂.state) (hsep : Separate B ans₁ ans₂ w₁.state)
    (h₁ : visitLogged env₁ st₁ spec s record c₁ = .ok w₁)
    (h₂ : visitLogged env₂ st₂ spec s record c₂ = .ok w₂) :
    Alike A w₁.state w₂.state ∧ w₁.record.erased = w₂.record.erased
      ∧ w₁.subjectStop = w₂.subjectStop := by
  obtain ⟨v₁, hv₁, h₁⟩ := bind_ok.mp h₁
  obtain ⟨v₂, hv₂, h₂⟩ := bind_ok.mp h₂
  obtain rfl := pure_ok.mp h₁
  obtain rfl := pure_ok.mp h₂
  have hq₁ : v₁.halted = none := (hcalm₁ _ List.mem_cons_self).1
  have hq₂ : v₂.halted = none := (hcalm₂ _ List.mem_cons_self).1
  have hvis₁ := visit_spec hfresh hskipped hv₁
  have hvis₂ := visit_spec hfresh hskipped hv₂
  have hsubject : v₁.record.subject = record.subject := congrArg Identity.subject hvis₁.identity
  have hans : v₁.record.attempts ≠ 0 →
      ∀ p, resolveParams (c₁.withRecord record) s.params = .ok (.ok p) →
        ∀ fresh, ans₁ s.check p fresh = ans₂ s.check p fresh := by
    intro hran p hp
    exact hsep _ List.mem_cons_self hran (by rw [← hsubject] at hB; exact hB) p hp
  have hsame := visit_agree hset h.stopReason hc hids hok hs hans₁ hans₂ hans hv₁ hv₂ hq₁ hq₂
  refine ⟨?_, hsame.record, hsame.subjectStop⟩
  refine h.log hx (hvis₁.identity.trans hfits) (hvis₂.identity.trans hfits) hsame.record ?_ ?_
    hsame.stopReason
  · show v₁.record :: v₁.state.visits.map Visit.record = _
    rw [hvis₁.visits]
    rfl
  · show v₂.record :: v₂.state.visits.map Visit.record = _
    rw [hvis₂.visits]
    rfl

include hset in
theorem specOf_agree (s : Step) : specOf env₁ s = specOf env₂ s := by
  rw [specOf, specOf, hset.registry]

include hset hnames in
theorem context_agree {st₁ : RunState σ₁} {st₂ : RunState σ₂} (h : Alike A st₁ st₂) :
    Agree ids (st₁.context env₁) (st₂.context env₂) :=
  h.agree hnames rfl rfl hset.inputs rfl rfl rfl fun _ => .inl rfl

include hset hnames in
theorem subjectContext_agree {st₁ : RunState σ₁} {st₂ : RunState σ₂} (h : Alike A st₁ st₂)
    (t : ForEach) (item : Dict) :
    Agree ids (subjectContext env₁ st₁ t A item) (subjectContext env₂ st₂ t A item) := by
  refine h.agree hnames rfl rfl hset.inputs rfl rfl rfl fun id => ?_
  show (if _ then id ++ "@" ++ A else id) = id ∨ (if _ then id ++ "@" ++ A else id) = id ++ "@" ++ A
  split
  · exact .inr rfl
  · exact .inl rfl

include hset hans₁ hans₂ hnames in
theorem runStep_alike {st₁ st₁' : RunState σ₁} {st₂ st₂' : RunState σ₂} {s : Step}
    (h : Alike A st₁ st₂) (hids : Covers ids seen []) (hok : StepOk registry seen [] false s)
    (hs : s.Confined ids) (hcalm₁ : Calm A st₁') (hcalm₂ : Calm A st₂')
    (hsep : Separate B ans₁ ans₂ st₁') (h₁ : runStep env₁ st₁ s = .ok st₁')
    (h₂ : runStep env₂ st₂ s = .ok st₂') : Alike A st₁' st₂' := by
  obtain ⟨spec, hspec, h₁⟩ := bind_ok.mp h₁
  obtain ⟨spec', hspec', h₂⟩ := bind_ok.mp h₂
  obtain rfl : spec = spec' := by
    rw [← specOf_agree hset, hspec] at hspec'
    injection hspec'
  obtain ⟨w₁, hw₁, h₁⟩ := bind_ok.mp h₁
  obtain ⟨w₂, hw₂, h₂⟩ := bind_ok.mp h₂
  obtain rfl := pure_ok.mp h₁
  obtain rfl := pure_ok.mp h₂
  exact (visitLogged_alike hset hans₁ hans₂ h (context_agree hset hnames h) hids hok hs
    hok.named.1 (newRecord_identity spec s) nofun rfl rfl hcalm₁ hcalm₂ hsep hw₁ hw₂).1

/-- How far a subject has come, alike in both. -/
structure AlikeRun (A : String) (r₁ : SubjectRun σ₁) (r₂ : SubjectRun σ₂) : Prop where
  state : Alike A r₁.state r₂.state
  stop : r₁.stop = r₂.stop
  unfinished : r₁.unfinished = r₂.unfinished

include hset hans₁ hans₂ hnames in
theorem visitInstance_alike {r₁ r₁' : SubjectRun σ₁} {r₂ r₂' : SubjectRun σ₂} {s : Step}
    {t : ForEach} {item : Dict} {spec : CheckSpec} {local_ : List String} (hAB : A ≠ B)
    (h : AlikeRun A r₁ r₂) (hids : Covers ids seen local_)
    (hok : StepOk registry seen local_ true s) (hs : s.Confined ids)
    (hcalm₁ : Calm A r₁'.state) (hcalm₂ : Calm A r₂'.state) (hsep : Separate B ans₁ ans₂ r₁'.state)
    (h₁ : visitInstance env₁ r₁ spec s (newInstance spec t A s)
      (subjectContext env₁ r₁.state t A item) = .ok r₁')
    (h₂ : visitInstance env₂ r₂ spec s (newInstance spec t A s)
      (subjectContext env₂ r₂.state t A item) = .ok r₂') : AlikeRun A r₁' r₂' := by
  obtain ⟨w₁, hw₁, h₁⟩ := bind_ok.mp h₁
  obtain ⟨w₂, hw₂, h₂⟩ := bind_ok.mp h₂
  obtain rfl := pure_ok.mp h₁
  obtain rfl := pure_ok.mp h₂
  have hB : (newInstance spec t A s).subject ≠ some B := by
    intro heq
    injection heq with heq
    exact hAB heq
  obtain ⟨hstate, hrecord, hsub⟩ := visitLogged_alike hset hans₁ hans₂ h.state
    (subjectContext_agree hset hnames h.state t item) hids hok hs hok.named.1
    (newInstance_identity spec t A s) hB rfl rfl hcalm₁ hcalm₂ hsep hw₁ hw₂
  have hreason : w₁.record.skipReason = w₂.record.skipReason := by
    show w₁.record.erased.skipReason = w₂.record.erased.skipReason
    rw [hrecord]
  refine ⟨hstate, ?_, ?_⟩
  · simp only [hsub, h.stop]
  · show (r₁.unfinished || _) = (r₂.unfinished || _)
    rw [h.unfinished, hreason]

/-- A step skipped for the same reason in both. -/
theorem skipInstance_alike {r₁ : SubjectRun σ₁} {r₂ : SubjectRun σ₂} {s : Step} {t : ForEach}
    {spec : CheckSpec} {c₁ c₂ : Context} {reason : String} (h : AlikeRun A r₁ r₂)
    (hname : '@' ∉ s.stepId.toList) :
    AlikeRun A (skipInstance r₁ c₁ s (newInstance spec t A s) reason)
      (skipInstance r₂ c₂ s (newInstance spec t A s) reason) :=
  have hidentity : ({ newInstance spec t A s with skipReason := reason } : Record).identity
      = Slot.identity ⟨s, some (t, A)⟩ := rfl
  ⟨h.state.log hname hidentity hidentity rfl rfl rfl h.state.stopReason, h.stop, h.unfinished⟩

include hset hans₁ hans₂ hnames in
theorem runInstance_alike {r₁ r₁' : SubjectRun σ₁} {r₂ r₂' : SubjectRun σ₂} {s : Step}
    {t : ForEach} {item : Dict} {started₁ started₂ : ℚ} {local_ : List String} (hAB : A ≠ B)
    (h : AlikeRun A r₁ r₂) (hids : Covers ids seen local_)
    (hok : StepOk registry seen local_ true s) (hs : s.Confined ids)
    (hcalm₁ : Calm A r₁'.state) (hcalm₂ : Calm A r₂'.state) (hsep : Separate B ans₁ ans₂ r₁'.state)
    (h₁ : runInstance env₁ t A item started₁ r₁ s = .ok r₁')
    (h₂ : runInstance env₂ t A item started₂ r₂ s = .ok r₂') : AlikeRun A r₁' r₂' := by
  obtain ⟨spec, hspec, h₁⟩ := bind_ok.mp h₁
  obtain ⟨spec', hspec', h₂⟩ := bind_ok.mp h₂
  obtain rfl : spec = spec' := by
    rw [← specOf_agree hset, hspec] at hspec'
    injection hspec'
  dsimp only at h₁ h₂
  rw [← h.stop] at h₂
  by_cases hstop : r₁.stop ≠ ""
  · rw [if_pos hstop] at h₁ h₂
    rw [← h.unfinished] at h₂
    obtain rfl := pure_ok.mp h₁
    obtain rfl := pure_ok.mp h₂
    exact skipInstance_alike h hok.named.1
  · rw [if_neg hstop] at h₁ h₂
    rcases hseconds : t.subjectSeconds with _ | seconds
    · simp only [hseconds] at h₁ h₂
      exact visitInstance_alike hset hans₁ hans₂ hnames hAB h hids hok hs hcalm₁ hcalm₂ hsep h₁ h₂
    · simp only [hseconds] at h₁ h₂
      split at h₁
      · -- the first run would have stopped this subject by its time slice
        obtain rfl := pure_ok.mp h₁
        exact absurd ⟨seconds, rfl⟩ ((hcalm₁ _ List.mem_cons_self).2 rfl)
      · split at h₂
        · obtain rfl := pure_ok.mp h₂
          exact absurd ⟨seconds, rfl⟩ ((hcalm₂ _ List.mem_cons_self).2 rfl)
        · have hlater : AlikeRun A
              { r₁ with state := { r₁.state with ticks := r₁.state.ticks + 1 } }
              { r₂ with state := { r₂.state with ticks := r₂.state.ticks + 1 }, stop := r₁.stop } :=
            ⟨⟨h.state.records, h.state.stopReason, h.state.named₁, h.state.named₂⟩, rfl,
              h.unfinished⟩
          exact visitInstance_alike hset hans₁ hans₂ hnames hAB hlater hids hok hs hcalm₁ hcalm₂
            hsep h₁ h₂

include hset hans₁ hans₂ hnames in
theorem runInstances_alike {steps : List Step} {r₁ r₁' : SubjectRun σ₁} {r₂ r₂' : SubjectRun σ₂}
    {t : ForEach} {item : Dict} {started₁ started₂ : ℚ} {local_ : List String} (hAB : A ≠ B)
    (h : AlikeRun A r₁ r₂) (hids : Covers ids seen local_)
    (hok : StepsOk registry seen steps local_) (hs : ∀ s ∈ steps, s.Confined ids)
    (hmem : ∀ s ∈ steps, s.stepId ∈ ids)
    (hcalm₁ : Calm A r₁'.state) (hcalm₂ : Calm A r₂'.state) (hsep : Separate B ans₁ ans₂ r₁'.state)
    (h₁ : runInstances env₁ t A item started₁ r₁ steps = .ok r₁')
    (h₂ : runInstances env₂ t A item started₂ r₂ steps = .ok r₂') : AlikeRun A r₁' r₂' := by
  induction steps generalizing r₁ r₂ local_ with
  | nil =>
      injection h₁ with h₁
      injection h₂ with h₂
      subst h₁ h₂
      exact h
  | cons s steps ih =>
      obtain ⟨q₁, hq₁, h₁⟩ := bind_ok.mp h₁
      obtain ⟨q₂, hq₂, h₂⟩ := bind_ok.mp h₂
      obtain ⟨vs₁, hemits₁, -⟩ := runInstances_emits h₁
      obtain ⟨vs₂, hemits₂, -⟩ := runInstances_emits h₂
      have hfirst := runInstance_alike hset hans₁ hans₂ hnames hAB h hids hok.1
        (hs s List.mem_cons_self) (hcalm₁.mono hemits₁.subset) (hcalm₂.mono hemits₂.subset)
        (hsep.mono hemits₁.subset) hq₁ hq₂
      have hids' : Covers ids seen (s.stepId :: local_) := by
        intro d hd
        rcases hd with hd | hd
        · rcases List.mem_cons.mp hd with rfl | hd
          · exact hmem s List.mem_cons_self
          · exact hids d (.inl hd)
        · exact hids d (.inr hd)
      exact ih hfirst hids' hok.2 (fun s' hs' => hs s' (List.mem_cons_of_mem _ hs'))
        (fun s' hs' => hmem s' (List.mem_cons_of_mem _ hs')) h₁ h₂

/-- What is checked of every step of a template. -/
theorem StepsOk.all {ss : List Step} {local_ : List String}
    (h : StepsOk registry seen ss local_) :
    ∀ s ∈ ss, '@' ∉ s.stepId.toList ∧ s.stop = none := by
  intro s hs
  obtain ⟨pre, post, rfl⟩ := List.append_of_mem hs
  exact ⟨h.mem.named.1, (h.mem.template rfl).1⟩

include hset hans₁ hans₂ hnames in
theorem runSubjects_alike {t : ForEach} {subs : List (String × Dict)} {st₁ st₁' : RunState σ₁}
    {st₂ st₂' : RunState σ₂} {before₁ before₂ after₁ after₂ : List String} (hAB : A ≠ B)
    (h : Alike A st₁ st₂) (hids : Covers ids seen []) (hok : StepsOk registry seen t.steps [])
    (hs : ∀ s ∈ t.steps, s.Confined ids) (hmem : ∀ s ∈ t.steps, s.stepId ∈ ids)
    (hcalm₁ : Calm A st₁') (hcalm₂ : Calm A st₂') (hsep : Separate B ans₁ ans₂ st₁')
    (h₁ : runSubjects env₁ t st₁ before₁ subs = .ok (st₁', after₁))
    (h₂ : runSubjects env₂ t st₂ before₂ subs = .ok (st₂', after₂)) : Alike A st₁' st₂' := by
  induction subs generalizing st₁ st₂ before₁ before₂ with
  | nil =>
      injection h₁ with h₁
      injection h₂ with h₂
      injection h₁ with h₁ _
      injection h₂ with h₂ _
      subst h₁ h₂
      exact h
  | cons sub subs ih =>
      obtain ⟨C, item⟩ := sub
      obtain ⟨r₁, hr₁, h₁⟩ := bind_ok.mp h₁
      obtain ⟨r₂, hr₂, h₂⟩ := bind_ok.mp h₂
      obtain ⟨vs₁, cut₁, hemits₁, -⟩ := runSubjects_emits h₁
      obtain ⟨vs₂, cut₂, hemits₂, -⟩ := runSubjects_emits h₂
      have hcalm₁' : Calm A r₁.state := hcalm₁.mono hemits₁.subset
      have hcalm₂' : Calm A r₂.state := hcalm₂.mono hemits₂.subset
      refine ih ?_ h₁ h₂
      by_cases hC : C = A
      · subst hC
        have hstart : AlikeRun C
            ({ state := { st₁ with ticks := st₁.ticks + 1 } } : SubjectRun σ₁)
            ({ state := { st₂ with ticks := st₂.ticks + 1 } } : SubjectRun σ₂) :=
          ⟨⟨h.records, h.stopReason, h.named₁, h.named₂⟩, rfl, rfl⟩
        exact (runInstances_alike hset hans₁ hans₂ hnames hAB hstart hids hok hs hmem hcalm₁' hcalm₂'
          (hsep.mono hemits₁.subset) hr₁ hr₂).state
      · have hnamed := fun s hs => (hok.all s hs).1
        have hstop := fun s hs => (hok.all s hs).2
        have hid₁ := runInstances_hidden hC hnamed hstop (fun v hv => (hcalm₁' v hv).1) hr₁
        have hid₂ := runInstances_hidden hC hnamed hstop (fun v hv => (hcalm₂' v hv).1) hr₂
        exact h.hidden ⟨hid₁.records, hid₁.stopReason, hid₁.named⟩
          ⟨hid₂.records, hid₂.stopReason, hid₂.named⟩

/-- The subjects of a template depend on its source step only. -/
theorem subjects_agree {t : ForEach} {c₁ c₂ : Context} (h : Agree ids c₁ c₂)
    (hsource : refStep t.source ∈ ids) {subs₁ subs₂ : List (String × Dict)} {e₁ e₂ : Enumeration}
    (h₁ : subjects t c₁ = .ok (subs₁, e₁)) (h₂ : subjects t c₂ = .ok (subs₂, e₂)) :
    subs₁ = subs₂ := by
  have hlist : listFact? t c₁ = listFact? t c₂ := by
    rw [listFact?, listFact?, h.outcome hsource, h.fact t.source .null hsource]
  unfold subjects at h₁ h₂
  rw [← h.ran hsource, ← hlist] at h₂
  split at h₁
  · rename_i hran
    rw [if_pos hran] at h₂
    injection h₁ with h₁
    injection h₂ with h₂
    injection h₁ with h₁ _
    injection h₂ with h₂ _
    rw [← h₁, ← h₂]
  · rename_i hran
    rw [if_neg hran] at h₂
    rcases hraw : listFact? t c₁ with _ | raw
    · simp only [hraw] at h₁ h₂
      injection h₁ with h₁
      injection h₂ with h₂
      injection h₁ with h₁ _
      injection h₂ with h₂ _
      rw [← h₁, ← h₂]
    · simp only [hraw] at h₁ h₂
      obtain ⟨entries₁, hread₁, h₁⟩ := bind_ok.mp h₁
      obtain ⟨entries₂, hread₂, h₂⟩ := bind_ok.mp h₂
      obtain rfl : entries₁ = entries₂ := by
        rw [hread₁] at hread₂
        injection hread₂
      injection pure_ok.mp h₁ with h₁ _
      injection pure_ok.mp h₂ with h₂ _
      rw [← h₁, ← h₂]
      rfl

include hset hans₁ hans₂ hnames in
theorem runTemplate_alike {t : ForEach} {st₁ st₁' : RunState σ₁} {st₂ st₂' : RunState σ₂}
    (hAB : A ≠ B) (h : Alike A st₁ st₂) (hids : Covers ids seen [])
    (hok : TemplateOk registry seen t) (hs : ∀ s ∈ t.steps, s.Confined ids)
    (hmem : ∀ s ∈ t.steps, s.stepId ∈ ids) (hcalm₁ : Calm A st₁') (hcalm₂ : Calm A st₂')
    (hsep : Separate B ans₁ ans₂ st₁') (h₁ : runTemplate env₁ st₁ t = .ok st₁')
    (h₂ : runTemplate env₂ st₂ t = .ok st₂') : Alike A st₁' st₂' := by
  obtain ⟨⟨subs₁, e₁⟩, hask₁, h₁⟩ := bind_ok.mp h₁
  obtain ⟨⟨subs₂, e₂⟩, hask₂, h₂⟩ := bind_ok.mp h₂
  obtain ⟨⟨u₁, after₁⟩, hruns₁, h₁⟩ := bind_ok.mp h₁
  obtain ⟨⟨u₂, after₂⟩, hruns₂, h₂⟩ := bind_ok.mp h₂
  obtain rfl := pure_ok.mp h₁
  obtain rfl := pure_ok.mp h₂
  have hsource : refStep t.source ∈ ids := by
    refine hids _ (.inr fun hnone => ?_)
    have hplan := hok.source
    rw [isPlanStep, hnone] at hplan
    cases hplan
  obtain rfl : subs₁ = subs₂ := by
    unfold askSubjects at hask₁ hask₂
    rw [← h.stopReason] at hask₂
    split at hask₁
    · rename_i hstop
      rw [if_pos hstop] at hask₂
      injection hask₁ with hask₁
      injection hask₂ with hask₂
      injection hask₁ with hask₁ _
      injection hask₂ with hask₂ _
      rw [← hask₁, ← hask₂]
    · rename_i hstop
      rw [if_neg hstop] at hask₂
      exact subjects_agree (context_agree hset hnames h) hsource hask₁ hask₂
  have hruns := runSubjects_alike hset hans₁ hans₂ hnames hAB h hids hok.steps hs hmem
    (show Calm A u₁ from hcalm₁) (show Calm A u₂ from hcalm₂)
    (show Separate B ans₁ ans₂ u₁ from hsep) hruns₁ hruns₂
  exact ⟨hruns.records, hruns.stopReason, hruns.named₁, hruns.named₂⟩

include hset hans₁ hans₂ hnames in
theorem runItems_alike {plan : List PlanItem} {st₁ st₁' : RunState σ₁} {st₂ st₂' : RunState σ₂}
    (hAB : A ≠ B) (h : Alike A st₁ st₂) (hids : Covers ids seen [])
    (hacc : Accepted registry seen plan) (hs : ∀ item ∈ plan, ∀ s ∈ item.steps, s.Confined ids)
    (hmem : ∀ item ∈ plan, ∀ id ∈ item.ids, id ∈ ids) (hcalm₁ : Calm A st₁')
    (hcalm₂ : Calm A st₂') (hsep : Separate B ans₁ ans₂ st₁')
    (h₁ : runItems env₁ st₁ plan = .ok st₁') (h₂ : runItems env₂ st₂ plan = .ok st₂') :
    Alike A st₁' st₂' := by
  induction plan generalizing st₁ st₂ seen with
  | nil =>
      injection h₁ with h₁
      injection h₂ with h₂
      subst h₁ h₂
      exact h
  | cons item rest ih =>
      obtain ⟨u₁, hu₁, h₁⟩ := bind_ok.mp h₁
      obtain ⟨u₂, hu₂, h₂⟩ := bind_ok.mp h₂
      obtain ⟨vs₁, enums₁, hemits₁, -⟩ := runItems_emits h₁
      obtain ⟨vs₂, enums₂, hemits₂, -⟩ := runItems_emits h₂
      have hcalm₁' : Calm A u₁ := hcalm₁.mono hemits₁.subset
      have hcalm₂' : Calm A u₂ := hcalm₂.mono hemits₂.subset
      have hsep' : Separate B ans₁ ans₂ u₁ := hsep.mono hemits₁.subset
      have hids' : Covers ids (declare seen item) [] := by
        intro d hd
        rcases hd with hd | hd
        · cases hd
        · by_cases hown : d ∈ item.ids
          · exact hmem item List.mem_cons_self d hown
          · exact hids d (.inr fun hnone => hd (lookup_declare_none.mpr ⟨hown, hnone⟩))
      refine ih ?_ hids' hacc.2 (fun i hi => hs i (List.mem_cons_of_mem _ hi))
        (fun i hi => hmem i (List.mem_cons_of_mem _ hi)) h₁ h₂
      cases item with
      | step s =>
          exact runStep_alike hset hans₁ hans₂ hnames h hids hacc.1
            (hs _ List.mem_cons_self s (List.mem_singleton_self s)) hcalm₁' hcalm₂' hsep' hu₁ hu₂
      | forEach t =>
          refine runTemplate_alike hset hans₁ hans₂ hnames hAB h hids hacc.1
            (hs _ List.mem_cons_self) (fun s hs => ?_) hcalm₁' hcalm₂' hsep' hu₁ hu₂
          exact hmem _ List.mem_cons_self _ (List.mem_cons_of_mem _ (List.mem_map_of_mem hs))

end TwoRuns

/-! ## Two runs of a plan -/

/-- The ids a plan declares. -/
def declaredIds (plan : List PlanItem) : List String := plan.flatMap PlanItem.ids

/-- The records of a subject of a template. -/
def subjectRecords (template A : String) (rs : List Record) : List Record :=
  rs.filter fun r => r.template == some template && r.subject == some A

theorem subjectRecords_low (template A : String) (rs : List Record) :
    (subjectRecords template A rs).map Record.erased
      = (lowRecords A rs).filter fun r => r.template == some template && r.subject == some A := by
  rw [lowRecords, List.filter_map, List.filter_filter, subjectRecords]
  congr 1
  refine List.filter_congr fun r _ => ?_
  show _ = ((r.template == some template && r.subject == some A) && concerns A r)
  by_cases hA : r.subject = some A
  · simp [concerns, hA]
  · simp [hA]

/-- Two runs whose answers differ only for the checks of one subject leave
every other subject of a template the same records, but for the time they
took, when they were collected and whether the answer was reused. -/
theorem subjects_do_not_interfere (plan : List PlanItem) (env₁ : Env σ₁) (env₂ : Env σ₂)
    (runner₁ : σ₁) (runner₂ : σ₂) (st₁ : RunState σ₁) (st₂ : RunState σ₂) (ans₁ ans₂ : Answering)
    (template A B : String) (ofB : String → Dict → Prop) (hAB : A ≠ B)
    (hconfined : ∀ item ∈ plan, ∀ s ∈ item.steps, s.Confined (declaredIds plan))
    (hset : SameSetting env₁ env₂)
    (hans₁ : env₁.AnswersBy ans₁) (hans₂ : env₂.AnswersBy ans₂)
    (hdiffer : ∀ check params, ¬ ofB check params →
      ∀ fresh, ans₁ check params fresh = ans₂ check params fresh)
    (h₁ : runPlanState plan env₁ runner₁ = .ok st₁) (h₂ : runPlanState plan env₂ runner₂ = .ok st₂)
    (hofB : ∀ v ∈ st₁.visits, v.ran → v.record.subject ≠ some B →
      ∀ params, resolveParams v.view v.step.params = .ok (.ok params) → ¬ ofB v.step.check params)
    (hcalm₁ : Calm A st₁) (hcalm₂ : Calm A st₂) :
    (subjectRecords template A st₁.records).map Record.erased
      = (subjectRecords template A st₂.records).map Record.erased := by
  obtain ⟨_, hvalid, hitems₁⟩ := bind_ok.mp h₁
  obtain ⟨_, -, hitems₂⟩ := bind_ok.mp h₂
  have hacc := validatePlan_ok hvalid
  have hset' : SameSetting env₁.bounded env₂.bounded :=
    ⟨hset.inputs, hset.isRoot, hset.registry, hset.replay, hset.privilegeHint⟩
  have hans₁' : env₁.bounded.AnswersBy ans₁ := hans₁
  have hans₂' : env₂.bounded.AnswersBy ans₂ := hans₂
  have hnames : ∀ id ∈ declaredIds plan, '@' ∉ id.toList := by
    intro id hid
    obtain ⟨item, hitem, hid⟩ := List.mem_flatMap.mp hid
    exact (hacc.fresh item hitem id hid).2
  have hstart := Alike.start A runner₁ runner₂
  have hids : Covers (declaredIds plan) [] [] := by
    rintro d (hd | hd)
    · cases hd
    · exact absurd rfl hd
  have hsep : Separate B ans₁ ans₂ st₁ :=
    fun v hv hran hB p hp => hdiffer _ _ (hofB v hv hran hB p hp)
  have halike := runItems_alike hset' hans₁' hans₂' hnames hAB hstart hids hacc hconfined
    (fun item hitem id hid => List.mem_flatMap.mpr ⟨item, hitem, hid⟩) hcalm₁ hcalm₂ hsep hitems₁
    hitems₂
  rw [subjectRecords_low, subjectRecords_low, halike.records]

theorem Step.confined_of_none {ids : List String} {s : Step} (h₁ : s.applies = none)
    (h₂ : s.when = none) (h₃ : s.stop = none) (h₄ : s.stopSubject = none)
    (h₅ : s.classify = none) : s.Confined ids := by
  refine ⟨?_, ?_, ?_, ?_, ?_⟩
  · intro f hf
    rw [h₁] at hf
    cases hf
  · intro f hf
    rw [h₂] at hf
    cases hf
  · intro f hf
    rw [h₃] at hf
    cases hf
  · intro f hf
    rw [h₄] at hf
    cases hf
  · intro f hf
    rw [h₅] at hf
    cases hf

/-! ## Replicas that share a check -/

namespace Probing

def registry : Registry :=
  [("replica_list", Listing.spec),
    ("probe", { checkId := "probe", params := [("host", "fqdn")], describe := "one replica" }),
    ("level", { checkId := "level", params := [], describe := "the domain level" })]

/-- Each replica is probed; where that works, the domain level is read. -/
def template (seconds : Option ℚ) : ForEach :=
  { Listing.template "each" "fqdn"
      [{ Listing.step "probe" with
          check := "probe", params := [("host", .tuple [.str "item", .str "subject"])] },
        { Listing.step "level" with check := "level", requires := [{ step := "probe" }] }] with
    subjectSeconds := seconds }

def plan (seconds : Option ℚ) : List PlanItem :=
  [.step (Listing.step "list"), .forEach (template seconds)]

/-- The probe of this replica. -/
def ofHost (host check : String) (params : Dict) : Prop :=
  check = "probe" ∧ params = [("host", .str host)]

instance (host check : String) (params : Dict) : Decidable (ofHost host check params) :=
  inferInstanceAs (Decidable (_ ∧ _))

/-- All answers are good, but for the probe of a replica that is down. -/
def answer (down : Option String) : Answering := fun check params _ =>
  .ok
    { checkId := check
      params := params
      status := if ∃ host ∈ down, ofHost host check params then FAILED else OK
      fields := [("hosts", .list [.str "r1.example.test", .str "r2.example.test"])] }

/-- A runner that keeps what it has run, and answers from it unless asked
for a fresh run; the clock is read at uneven times. -/
def env (down : Option String) : Env (List (String × Dict)) where
  run := fun done check params fresh =>
    (answer down check params fresh,
      if !fresh && done.contains (check, params) then done else (check, params) :: done)
  runs := List.length
  replay := false
  clock := fun n => n * n
  utc := fun n => toString n
  registry := registry
  inputs := []
  isRoot := true
  maxSeconds := 600
  maxSteps := 48
  privilegeHint := ""

theorem confined (seconds : Option ℚ) :
    ∀ item ∈ plan seconds, ∀ s ∈ item.steps, s.Confined (declaredIds (plan seconds)) := by
  intro item hitem s hs
  rcases List.mem_cons.mp hitem with rfl | hitem
  · obtain rfl := List.mem_singleton.mp hs
    exact Step.confined_of_none rfl rfl rfl rfl rfl
  · obtain rfl := List.mem_singleton.mp hitem
    rcases List.mem_cons.mp hs with rfl | hs
    · exact Step.confined_of_none rfl rfl rfl rfl rfl
    · obtain rfl := List.mem_singleton.mp hs
      exact Step.confined_of_none rfl rfl rfl rfl rfl

theorem sameSetting (down₁ down₂ : Option String) : SameSetting (env down₁) (env down₂) :=
  ⟨rfl, rfl, rfl, rfl, rfl⟩

theorem answersBy (down : Option String) : (env down).AnswersBy (answer down) :=
  fun _ _ _ _ => rfl

theorem answer_differs {host check : String} {params : Dict} (h : ¬ ofHost host check params)
    (fresh : Bool) : answer (some host) check params fresh = answer none check params fresh := by
  have hnone : ¬ ∃ other ∈ (none : Option String), ofHost other check params := by
    rintro ⟨_, hmem, -⟩
    cases hmem
  have hsome : ¬ ∃ other ∈ some host, ofHost other check params := by
    rintro ⟨other, hmem, hother⟩
    obtain rfl : host = other := by simpa using hmem
    exact h hother
  rw [answer, answer, if_neg hnone, if_neg hsome]

/-- A visit that ran a check for another subject than this host did not probe it. -/
def Apart (host : String) (v : Visit) : Prop :=
  v.record.attempts ≠ 0 → v.record.subject ≠ some host →
    match resolveParams v.view v.step.params with
    | .ok (.ok params) => ¬ ofHost host v.step.check params
    | _ => True

instance (host : String) (v : Visit) : Decidable (Apart host v) := by
  unfold Apart
  split <;> infer_instance

theorem not_ofHost_of_apart {host : String} {v : Visit} (h : Apart host v) (hran : v.ran)
    (hhost : v.record.subject ≠ some host) :
    ∀ params, resolveParams v.view v.step.params = .ok (.ok params) →
      ¬ ofHost host v.step.check params := by
  intro params hparams
  have happly := h hran hhost
  rw [hparams] at happly
  exact happly

end Probing

/-- No visit was halted or stopped, and no other replica's check was a
probe of the first one. -/
def Undisturbed (st : RunState (List (String × Dict))) : Prop :=
  ∀ v ∈ st.visits, v.halted = none ∧ Probing.Apart "r1.example.test" v
    ∧ PyStr.startsWith v.record.skipReason "stopped:" = false

instance : DecidablePred Undisturbed := fun st =>
  inferInstanceAs (Decidable (∀ v ∈ st.visits, _))

theorem Undisturbed.calm {st : RunState (List (String × Dict))} (h : Undisturbed st)
    (A : String) : Calm A st := by
  intro v hv
  obtain ⟨hhalted, -, hstopped⟩ := h v hv
  refine ⟨hhalted, fun _ => ?_⟩
  rintro ⟨seconds, hreason⟩
  have hstarts : PyStr.startsWith v.record.skipReason "stopped:" = true := by
    have hprefix : PyStr.startsWith "stopped: " "stopped:" = true := by decide
    rw [hreason, String.append_assoc]
    exact PyStr.startsWith_append_of hprefix _
  rw [hstarts] at hstopped
  cases hstopped

open Probing in
theorem probed_runs :
    returns (fun st => decide (Undisturbed st))
        (runPlanState (plan none) (env (some "r1.example.test")) []) = true
      ∧ returns (fun st => decide (Undisturbed st)) (runPlanState (plan none) (env none) []) = true := by
  constructor <;> decide +kernel

open Probing in
/-- The first replica fails in one run only: the second one's records are
the same, as far as they can be. -/
theorem subjects_do_not_interfere_probed :
    ∃ st₁ st₂ : RunState (List (String × Dict)),
      runPlanState (plan none) (env (some "r1.example.test")) [] = .ok st₁
      ∧ runPlanState (plan none) (env none) [] = .ok st₂
      ∧ (subjectRecords "each" "r2.example.test" st₁.records).map Record.erased
        = (subjectRecords "each" "r2.example.test" st₂.records).map Record.erased := by
  obtain ⟨st₁, h₁, hquiet₁⟩ := returns_iff.mp probed_runs.1
  obtain ⟨st₂, h₂, hquiet₂⟩ := returns_iff.mp probed_runs.2
  have hun₁ : Undisturbed st₁ := of_decide_eq_true hquiet₁
  have hun₂ : Undisturbed st₂ := of_decide_eq_true hquiet₂
  refine ⟨st₁, st₂, h₁, h₂, ?_⟩
  exact subjects_do_not_interfere (plan none) _ _ [] [] st₁ st₂ (answer (some "r1.example.test"))
    (answer none) "each" "r2.example.test" "r1.example.test" (ofHost "r1.example.test")
    (by decide) (confined none) (sameSetting _ _) (answersBy _) (answersBy _)
    (fun _ _ hother fresh => answer_differs hother fresh) h₁ h₂
    (fun v hv hran hhost => not_ofHost_of_apart (hun₁ v hv).2.1 hran hhost)
    (hun₁.calm _) (hun₂.calm _)

open Probing in
/-- The second replica's records tell the two runs apart: whether the
domain level was read again, and when. With a time slice, even whether it
was read. -/
theorem replicas_share_answers_and_clock :
    (∃ st₁ st₂ : RunState (List (String × Dict)),
      runPlanState (plan none) (env (some "r1.example.test")) [] = .ok st₁
      ∧ runPlanState (plan none) (env none) [] = .ok st₂
      ∧ (∀ v ∈ st₁.visits ++ st₂.visits, v.halted = none)
      ∧ (subjectRecords "each" "r2.example.test" st₁.records).map Record.reused
        ≠ (subjectRecords "each" "r2.example.test" st₂.records).map Record.reused)
    ∧ ∃ st₁ st₂ : RunState (List (String × Dict)),
      runPlanState (plan (some 140)) (env (some "r1.example.test")) [] = .ok st₁
      ∧ runPlanState (plan (some 140)) (env none) [] = .ok st₂
      ∧ (∀ v ∈ st₁.visits ++ st₂.visits, v.halted = none)
      ∧ (subjectRecords "each" "r2.example.test" st₁.records).map Record.outcome
        ≠ (subjectRecords "each" "r2.example.test" st₂.records).map Record.outcome := by
  have hreused : returns (fun st₁ => returns (fun st₂ => decide
      ((∀ v ∈ st₁.visits ++ st₂.visits, v.halted = none)
        ∧ (subjectRecords "each" "r2.example.test" st₁.records).map Record.reused
          ≠ (subjectRecords "each" "r2.example.test" st₂.records).map Record.reused))
      (runPlanState (plan none) (env none) []))
      (runPlanState (plan none) (env (some "r1.example.test")) []) = true := by
    decide +kernel
  have hsliced : returns (fun st₁ => returns (fun st₂ => decide
      ((∀ v ∈ st₁.visits ++ st₂.visits, v.halted = none)
        ∧ (subjectRecords "each" "r2.example.test" st₁.records).map Record.outcome
          ≠ (subjectRecords "each" "r2.example.test" st₂.records).map Record.outcome))
      (runPlanState (plan (some 140)) (env none) []))
      (runPlanState (plan (some 140)) (env (some "r1.example.test")) []) = true := by
    decide +kernel
  obtain ⟨st₁, h₁, hrest⟩ := returns_iff.mp hreused
  obtain ⟨st₂, h₂, hdiffer⟩ := returns_iff.mp hrest
  obtain ⟨u₁, k₁, hrest'⟩ := returns_iff.mp hsliced
  obtain ⟨u₂, k₂, hdiffer'⟩ := returns_iff.mp hrest'
  obtain ⟨hcalm, hne⟩ := of_decide_eq_true hdiffer
  obtain ⟨hcalm', hne'⟩ := of_decide_eq_true hdiffer'
  exact ⟨⟨st₁, st₂, h₁, h₂, hcalm, hne⟩, ⟨u₁, u₂, k₁, k₂, hcalm', hne'⟩⟩

end IpaDiagnose.Planner
