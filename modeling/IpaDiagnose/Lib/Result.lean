/-!
# Computations that may raise

What it means for a sequence of steps in `Except` to return: every step
returned, the next one on the value of the one before.
-/

namespace Result

variable {ε α β : Type}

@[simp] theorem pure_ok {a b : α} : (pure a : Except ε α) = .ok b ↔ a = b :=
  ⟨fun h => by injection h, fun h => by rw [h]; rfl⟩

theorem ok_bind (a : α) (f : α → Except ε β) : (.ok a >>= f) = f a := rfl

theorem bind_ok {x : Except ε α} {f : α → Except ε β} {b : β} :
    x >>= f = .ok b ↔ ∃ a, x = .ok a ∧ f a = .ok b := by
  cases x with
  | error e => exact ⟨nofun, nofun⟩
  | ok a => exact ⟨fun h => ⟨a, rfl, h⟩, fun ⟨_, h, hf⟩ => by injection h with h; rw [h]; exact hf⟩

theorem bind_error {x : Except ε α} {f : α → Except ε β} {e : ε} :
    x >>= f = .error e ↔ x = .error e ∨ ∃ a, x = .ok a ∧ f a = .error e := by
  cases x with
  | error e' =>
      constructor
      · intro h
        injection h with h
        exact .inl (by rw [h])
      · rintro (h | ⟨_, h, -⟩)
        · injection h with h
          rw [h]
          rfl
        · cases h
  | ok a =>
      constructor
      · exact fun h => .inr ⟨a, rfl, h⟩
      · rintro (h | ⟨_, h, hf⟩)
        · cases h
        · injection h with h
          rw [h]
          exact hf

theorem map_ok {x : Except ε α} {f : α → β} {b : β} :
    x.map f = .ok b ↔ ∃ a, x = .ok a ∧ f a = b := by
  cases x with
  | error e => exact ⟨nofun, nofun⟩
  | ok a =>
      refine ⟨fun h => ⟨a, rfl, by injection h⟩, fun ⟨_, h, hf⟩ => ?_⟩
      injection h with h
      rw [h, ← hf]
      rfl

theorem map_error {x : Except ε α} {f : α → β} {e : ε} :
    x.map f = .error e ↔ x = .error e := by
  cases x with
  | error e' => exact ⟨fun h => by injection h with h; rw [h], fun h => by rw [h]; rfl⟩
  | ok a => exact ⟨nofun, nofun⟩

theorem exists_bind_ok {x : Except ε α} {f : α → Except ε β} (hx : ∃ a, x = .ok a)
    (hf : ∀ a, x = .ok a → ∃ b, f a = .ok b) : ∃ b, x >>= f = .ok b := by
  obtain ⟨a, ha⟩ := hx
  obtain ⟨b, hb⟩ := hf a ha
  exact ⟨b, bind_ok.mpr ⟨a, ha, hb⟩⟩

/-- It returned, with a value that passes a test. -/
def returns (p : α → Bool) : Except ε α → Bool
  | .ok a => p a
  | .error _ => false

theorem returns_iff {x : Except ε α} {p : α → Bool} :
    returns p x = true ↔ ∃ a, x = .ok a ∧ p a = true := by
  cases x with
  | error e => exact ⟨nofun, nofun⟩
  | ok a => exact ⟨fun h => ⟨a, rfl, h⟩, fun ⟨_, h, hp⟩ => by injection h with h; rw [h]; exact hp⟩

/-! ## What a computation ensures -/

/-- It returns a value that satisfies `Q`, or raises what satisfies `R`. -/
def Ensures (x : Except ε α) (Q : α → Prop) (R : ε → Prop) : Prop :=
  match x with
  | .ok a => Q a
  | .error e => R e

section Ensures

variable {x : Except ε α} {Q Q' : α → Prop} {R : ε → Prop}

theorem Ensures.pure {a : α} (h : Q a) : Ensures (pure a : Except ε α) Q R := h

theorem Ensures.error {e : ε} (h : R e) : Ensures (.error e : Except ε α) Q R := h

theorem Ensures.mono (h : Ensures x Q R) (hQ : ∀ a, x = .ok a → Q a → Q' a) :
    Ensures x Q' R := by
  cases x with
  | error e => exact h
  | ok a => exact hQ a rfl h

/-- What the first step ensures, the second one may use. -/
theorem Ensures.bind {f : α → Except ε β} {P : β → Prop} (hx : Ensures x Q R)
    (hf : ∀ a, x = .ok a → Q a → Ensures (f a) P R) : Ensures (x >>= f) P R := by
  cases x with
  | error e => exact hx
  | ok a => exact hf a rfl hx

theorem Ensures.of_ok {a : α} (h : Ensures x Q R) (hx : x = .ok a) : Q a := by
  subst hx
  exact h

theorem Ensures.of_error {e : ε} (h : Ensures x Q R) (hx : x = .error e) : R e := by
  subst hx
  exact h

theorem Ensures.and {R' : ε → Prop} (h : Ensures x Q R) (h' : Ensures x Q' R') :
    Ensures x (fun a => Q a ∧ Q' a) fun e => R e ∧ R' e := by
  cases x with
  | error e => exact ⟨h, h'⟩
  | ok a => exact ⟨h, h'⟩

theorem Ensures.raises {R' : ε → Prop} (h : Ensures x Q R) (hR : ∀ e, R e → R' e) :
    Ensures x Q R' := by
  cases x with
  | error e => exact hR e h
  | ok a => exact h

/-- It returns, when nothing may be raised. -/
theorem Ensures.returns (h : Ensures x Q fun _ => False) : ∃ a, x = .ok a ∧ Q a := by
  cases x with
  | error e => exact absurd h id
  | ok a => exact ⟨a, rfl, h⟩

/-- A computation whose value does not matter. -/
theorem Ensures.trivial (h : ∀ e, x = .error e → R e) : Ensures x (fun _ => True) R := by
  cases x with
  | error e => exact h e rfl
  | ok a => exact True.intro

end Ensures

/-- What it raised, if it did. -/
def raised : Except ε α → Option ε
  | .ok _ => none
  | .error e => some e

theorem raised_iff {x : Except ε α} {e : ε} : raised x = some e ↔ x = .error e := by
  cases x with
  | error e' => exact ⟨fun h => by injection h with h; rw [h], fun h => by injection h with h; rw [h]; rfl⟩
  | ok a => exact ⟨nofun, nofun⟩

end Result
