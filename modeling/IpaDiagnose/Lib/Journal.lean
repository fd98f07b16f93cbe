import Mathlib.Data.List.Forall2

/-!
# Machines that keep a journal

A machine takes steps, each of which enters one event in a journal. What
one step keeps, a run keeps (`Emits.inv`); and every event of a journal
was entered by a step from a state that the events before it lead to
(`Emits.fired`).
-/

namespace Journal

universe u v w

variable {S : Type u} {E : Type v}

/-- A run from one state to another, with its events, oldest first. -/
inductive Emits (step : S → E → S → Prop) : S → List E → S → Prop where
  | nil (s : S) : Emits step s [] s
  | cons {s s₁ s₂ : S} {e : E} {es : List E} (h : step s e s₁) (hs : Emits step s₁ es s₂) :
      Emits step s (e :: es) s₂

namespace Emits

variable {step : S → E → S → Prop} {s s₁ s₂ : S} {e : E} {es fs : List E}

theorem one (h : step s e s₁) : Emits step s [e] s₁ := .cons h (.nil s₁)

theorem append (h : Emits step s es s₁) (h' : Emits step s₁ fs s₂) :
    Emits step s (es ++ fs) s₂ := by
  induction h with
  | nil => exact h'
  | cons hstep _ ih => exact .cons hstep (ih h')

/-- A run with its events in two parts passes through a state between them. -/
theorem split (h : Emits step s (es ++ fs) s₂) :
    ∃ s₁, Emits step s es s₁ ∧ Emits step s₁ fs s₂ := by
  induction es generalizing s with
  | nil => exact ⟨s, .nil s, h⟩
  | cons e es ih =>
      cases h with
      | cons hstep hs =>
          obtain ⟨s₁, h₁, h₂⟩ := ih hs
          exact ⟨s₁, .cons hstep h₁, h₂⟩

/-- Every event was entered by a step, from a state the events before it lead to. -/
theorem fired (h : Emits step s (es ++ e :: fs) s₂) :
    ∃ s₁ s₁', Emits step s es s₁ ∧ step s₁ e s₁' ∧ Emits step s₁' fs s₂ := by
  obtain ⟨s₁, h₁, h₂⟩ := h.split
  cases h₂ with
  | cons hstep hs => exact ⟨s₁, _, h₁, hstep, hs⟩

/-- What every step keeps, a run keeps. -/
theorem inv {I : S → Prop} (hI : ∀ s e s', I s → step s e s' → I s') (h : Emits step s es s₁)
    (h₀ : I s) : I s₁ := by
  induction h with
  | nil => exact h₀
  | cons hstep _ ih => exact ih (hI _ _ _ h₀ hstep)

/-- A counter that some events raise has grown by their number. -/
theorem count {f : S → Nat} {p : E → Bool} (hp : ∀ s e s', step s e s' → p e = true → f s' = f s + 1)
    (hn : ∀ s e s', step s e s' → p e = false → f s' = f s) (h : Emits step s es s₁) :
    f s₁ = f s + es.countP p := by
  induction h with
  | nil => rfl
  | cons hstep _ ih =>
      rename_i e es _
      rw [ih]
      rcases he : p e with _ | _
      · rw [hn _ _ _ hstep he, List.countP_cons_of_neg (by simp [he])]
      · rw [hp _ _ _ hstep he, List.countP_cons_of_pos he]
        omega

end Emits

/-! ## Journals that follow a schedule -/

section Schedule

variable {F : Type w} {R : E → F → Prop} {es : List E} {fs : List F}

theorem scheduled (h : List.Forall₂ R es fs) {e : E} (he : e ∈ es) : ∃ f ∈ fs, R e f := by
  induction h with
  | nil => cases he
  | cons hr _ ih =>
      rcases List.mem_cons.mp he with rfl | he
      · exact ⟨_, List.mem_cons_self, hr⟩
      · obtain ⟨f, hf, hr⟩ := ih he
        exact ⟨f, List.mem_cons_of_mem _ hf, hr⟩

theorem kept (h : List.Forall₂ R es fs) {f : F} (hf : f ∈ fs) : ∃ e ∈ es, R e f := by
  induction h with
  | nil => cases hf
  | cons hr _ ih =>
      rcases List.mem_cons.mp hf with rfl | hf
      · exact ⟨_, List.mem_cons_self, hr⟩
      · obtain ⟨e, he, hr⟩ := ih hf
        exact ⟨e, List.mem_cons_of_mem _ he, hr⟩

/-- An event of a journal, with its place. -/
theorem scheduled_at {as bs : List E} {e : E} (h : List.Forall₂ R (as ++ e :: bs) fs) :
    ∃ cs f ds, fs = cs ++ f :: ds ∧ List.Forall₂ R as cs ∧ R e f := by
  induction as generalizing fs with
  | nil =>
      cases h with
      | cons hr _ => exact ⟨[], _, _, rfl, .nil, hr⟩
  | cons a as ih =>
      cases h with
      | cons hr h =>
          obtain ⟨cs, f, ds, rfl, hcs, hf⟩ := ih h
          exact ⟨_ :: cs, f, ds, rfl, .cons hr hcs, hf⟩

/-- A place of a schedule in two parts is in the first, or in the second
after all of the first. -/
theorem place_in_parts {xs ys before after : List F} {a : F}
    (h : xs ++ ys = before ++ a :: after) :
    (∃ rest, xs = before ++ a :: rest) ∨ ∃ mid, before = xs ++ mid ∧ ys = mid ++ a :: after := by
  rcases List.append_eq_append_iff.mp h with ⟨mid, hbefore, hys⟩ | ⟨mid, hxs, hrest⟩
  · exact .inr ⟨mid, hbefore, hys⟩
  · cases mid with
    | nil => exact .inr ⟨[], by simpa using hxs.symm, hrest.symm⟩
    | cons m mid =>
        injection hrest with hm _
        subst hm
        exact .inl ⟨mid, hxs⟩

/-- What the schedule determines of each event, it determines of the journal. -/
theorem map_eq_of_scheduled {β : Type w} {f : E → β} {g : F → β}
    (hR : ∀ e a, R e a → f e = g a) (h : List.Forall₂ R es fs) : es.map f = fs.map g := by
  induction h with
  | nil => rfl
  | cons hr _ ih => rw [List.map_cons, List.map_cons, ih, hR _ _ hr]

end Schedule

end Journal
