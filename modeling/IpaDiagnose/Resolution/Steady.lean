import IpaDiagnose.Resolution.Criteria

/-!
# Checks that always answer the same

When a check answers the same whenever it is asked, so does everything
that is built on checks: the criteria of a fix are rebuilt and evaluated
to the same result, whatever was asked before.
-/

namespace IpaDiagnose.Resolver

open Py (Value Dict)

variable {σ : Type}

/-- A check answers the same in every state. -/
def Runner.Steady (runner : Runner σ) : Prop :=
  ∀ s s' check params, (runner.run s check params).1 = (runner.run s' check params).1

/-- A computation whose result does not depend on the state it starts in. -/
def SameAnswer {α : Type} (f : σ → α × σ) : Prop := ∀ s s', (f s).1 = (f s').1

theorem SameAnswer.both {α : Type} {f : σ → α × σ} (h : SameAnswer f) (s s' : σ) :
    ∃ a t t', f s = (a, t) ∧ f s' = (a, t') :=
  ⟨(f s).1, (f s).2, (f s').2, rfl, Prod.ext (h s' s) rfl⟩

variable {runner : Runner σ} (h : runner.Steady)

include h

theorem evaluateOne_same (c : Criterion) : SameAnswer (evaluateOne runner c) := by
  intro s s'
  unfold evaluateOne
  split
  · have hsame := h s s' c.check c.params
    dsimp only
    rw [hsame]
  · rfl

theorem evaluateVerify_same (cs : List Criterion) : SameAnswer (evaluateVerify runner cs) := by
  intro s s'
  induction cs generalizing s s' with
  | nil => rfl
  | cons c cs ih =>
      obtain ⟨x, t, t', ht, ht'⟩ := (evaluateOne_same h c).both s s'
      unfold evaluateVerify
      rw [ht, ht']
      cases x with
      | error e => rfl
      | ok v =>
          obtain ⟨x, u, u', hu, hu'⟩ := SameAnswer.both (fun s s' => ih s s') t t'
          dsimp only
          rw [hu, hu']
          cases x with
          | error e => rfl
          | ok vs => rfl

theorem askAgain_same (inv : Inv) (sc : Scope) : SameAnswer (askAgain runner inv sc) := by
  intro s s'
  unfold askAgain
  cases valuesOf sc inv.params with
  | error e => rfl
  | ok params => exact h s s' inv.check params

theorem askEachAgain_same (inv : Inv) (ev : Evidence) (ts : List Target) :
    SameAnswer (askEachAgain runner inv ev ts) := by
  intro s s'
  induction ts generalizing s s' with
  | nil => rfl
  | cons target ts ih =>
      obtain ⟨x, t, t', ht, ht'⟩ := (askAgain_same h inv (ev.scopeOf target)).both s s'
      unfold askEachAgain
      rw [ht, ht']
      cases x with
      | error e => rfl
      | ok res =>
          obtain ⟨x, u, u', hu, hu'⟩ := SameAnswer.both (fun s s' => ih s s') t t'
          dsimp only
          rw [hu, hu']
          cases x with
          | error e => rfl
          | ok rest => rfl

theorem investigateAgain_same (invs : List Inv) (ev : Evidence) :
    SameAnswer (investigateAgain runner invs ev) := by
  intro s s'
  induction invs generalizing ev s s' with
  | nil => rfl
  | cons inv invs ih =>
      unfold investigateAgain
      split
      · cases ev.targets inv.forEach with
        | error e => rfl
        | ok ts =>
            obtain ⟨x, t, t', ht, ht'⟩ := (askEachAgain_same h inv ev ts).both s s'
            dsimp only
            rw [ht, ht']
            cases x with
            | error e => rfl
            | ok ts => exact ih _ t t'
      · obtain ⟨x, t, t', ht, ht'⟩ := (askAgain_same h inv ev.base).both s s'
        rw [ht, ht']
        cases x with
        | error e => rfl
        | ok res => exact ih _ t t'

theorem rebuildCriteria_same (p : Procedure) (saved : Value) :
    SameAnswer (rebuildCriteria p saved runner) := by
  intro s s'
  unfold rebuildCriteria
  cases savedValues p saved with
  | error e => rfl
  | ok bound =>
      cases bound with
      | none => rfl
      | some bound =>
          obtain ⟨x, t, t', ht, ht'⟩ :=
            (investigateAgain_same h p.investigate (Evidence.start bound)).both s s'
          dsimp only
          rw [ht, ht']
          cases x with
          | error e => rfl
          | ok ev => rfl

theorem rebuildVerify_same (sha256 : String → String) (cat : List Entry) (fix : Value) :
    SameAnswer (rebuildVerify sha256 cat fix runner) := by
  intro s s'
  unfold rebuildVerify
  split
  · rename_i fix
    split
    · rfl
    · rename_i p hp
      split
      · obtain ⟨x, t, t', ht, ht'⟩ :=
          (rebuildCriteria_same h p (field fix "bindings")).both s s'
        rw [ht, ht']
        cases x with
        | error e => rfl
        | ok criteria =>
            cases criteria with
            | none => rfl
            | some criteria => rfl
      · rfl
  · rfl

end IpaDiagnose.Resolver
