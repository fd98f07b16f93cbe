import Mathlib.Data.List.Basic

/-!
# Three-valued logic

Truth values that may be unknown, with the strong connectives over lists:
a conjunction is false as soon as a member is, and unknown only if nothing
decides it. The order of the members does not matter.
-/

namespace Kleene

/-- True, false, or unknown. -/
abbrev Truth := Option Bool

def neg (t : Truth) : Truth := t.map (!·)

def conj (ts : List Truth) : Truth :=
  if some false ∈ ts then some false else if none ∈ ts then none else some true

def disj (ts : List Truth) : Truth :=
  if some true ∈ ts then some true else if none ∈ ts then none else some false

variable {ts ts' : List Truth}

theorem conj_eq_false : conj ts = some false ↔ some false ∈ ts := by
  unfold conj
  split
  · simp [*]
  · split <;> simp [*]

theorem disj_eq_true : disj ts = some true ↔ some true ∈ ts := by
  unfold disj
  split
  · simp [*]
  · split <;> simp [*]

theorem conj_eq_true : conj ts = some true ↔ ∀ t ∈ ts, t = some true := by
  have hall : (∀ t ∈ ts, t = some true) ↔ some false ∉ ts ∧ none ∉ ts := by
    constructor
    · intro h
      exact ⟨fun hf => absurd (h _ hf) (by simp), fun hn => absurd (h _ hn) (by simp)⟩
    · rintro ⟨hf, hn⟩ t ht
      match t with
      | some true => rfl
      | some false => exact absurd ht hf
      | none => exact absurd ht hn
  rw [hall]
  unfold conj
  split
  · simp [*]
  · split <;> simp [*]

/-- A disjunction is the negation of the conjunction of the negations. -/
theorem disj_eq_neg (ts : List Truth) : disj ts = neg (conj (ts.map neg)) := by
  have hmem : ∀ b : Bool, some (!b) ∈ ts.map neg ↔ some b ∈ ts := by
    intro b
    rw [List.mem_map]
    constructor
    · rintro ⟨t, ht, heq⟩
      cases t with
      | none => cases heq
      | some c =>
          obtain rfl : c = b := by simpa [neg] using heq
          exact ht
    · exact fun h => ⟨some b, h, rfl⟩
  have hnone : none ∈ ts.map neg ↔ none ∈ ts := by
    rw [List.mem_map]
    constructor
    · rintro ⟨t, ht, heq⟩
      cases t with
      | none => exact ht
      | some c => cases heq
    · exact fun h => ⟨none, h, rfl⟩
  have htrue := hmem true
  rw [Bool.not_true] at htrue
  unfold disj conj
  rw [if_congr htrue rfl rfl, if_congr hnone rfl rfl]
  split
  · rfl
  · split <;> rfl

theorem disj_eq_false : disj ts = some false ↔ ∀ t ∈ ts, t = some false := by
  have hneg : ∀ {t : Truth}, neg t = some false ↔ t = some true := by
    intro t
    cases t <;> simp [neg]
  have hneg' : ∀ {t : Truth}, neg t = some true ↔ t = some false := by
    intro t
    cases t <;> simp [neg]
  rw [disj_eq_neg, hneg, conj_eq_true]
  simp only [List.forall_mem_map, hneg']

theorem conj_perm (h : ts.Perm ts') : conj ts = conj ts' := by
  unfold conj
  rw [if_congr h.mem_iff rfl rfl, if_congr h.mem_iff rfl rfl]

theorem disj_perm (h : ts.Perm ts') : disj ts = disj ts' := by
  unfold disj
  rw [if_congr h.mem_iff rfl rfl, if_congr h.mem_iff rfl rfl]

/-! ## Learning more -/

/-- What is known stays known. -/
def Kept (t t' : Truth) : Prop := ∀ b, t = some b → t' = some b

theorem mem_kept {b : Bool} (h : List.Forall₂ Kept ts ts') (hb : some b ∈ ts) : some b ∈ ts' := by
  induction h with
  | nil => exact hb
  | cons ht _ ih =>
      rcases List.mem_cons.mp hb with heq | hb
      · rw [ht b heq.symm]
        exact List.mem_cons_self
      · exact List.mem_cons_of_mem _ (ih hb)

theorem forall_kept {b : Bool} (h : List.Forall₂ Kept ts ts') (hb : ∀ t ∈ ts, t = some b) :
    ∀ t ∈ ts', t = some b := by
  induction h with
  | nil => exact hb
  | cons ht _ ih =>
      intro t hmem
      rcases List.mem_cons.mp hmem with rfl | hmem
      · exact ht b (hb _ List.mem_cons_self)
      · exact ih (fun t ht => hb t (List.mem_cons_of_mem _ ht)) t hmem

theorem conj_kept (h : List.Forall₂ Kept ts ts') : Kept (conj ts) (conj ts') := by
  intro b hb
  cases b with
  | false => exact conj_eq_false.mpr (mem_kept h (conj_eq_false.mp hb))
  | true => exact conj_eq_true.mpr (forall_kept h (conj_eq_true.mp hb))

theorem disj_kept (h : List.Forall₂ Kept ts ts') : Kept (disj ts) (disj ts') := by
  intro b hb
  cases b with
  | false => exact disj_eq_false.mpr (forall_kept h (disj_eq_false.mp hb))
  | true => exact disj_eq_true.mpr (mem_kept h (disj_eq_true.mp hb))

theorem neg_kept {t t' : Truth} (h : Kept t t') : Kept (neg t) (neg t') := by
  intro b hb
  obtain ⟨a, ha, rfl⟩ := Option.map_eq_some_iff.mp hb
  rw [h a ha]
  rfl

end Kleene
