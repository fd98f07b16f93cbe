import Mathlib.Order.WellFounded
import Mathlib.Data.List.Sort
import Mathlib.Data.List.Sigma

/-!
# Ranked relations and ranked lists

A relation whose steps go down in rank is followed only finitely often:
it has no cycles, and from every point it ends. And the first element of
a list sorted by a total preorder comes before every other one.
-/

namespace Ranked

open Relation

/-! ## Relations that go down -/

section Descent

variable {α : Type*} {r : α → α → Prop}

theorem wellFounded (rank : α → ℕ) (h : ∀ a b, r a b → rank b < rank a) :
    WellFounded (Function.swap r) :=
  Subrelation.wf (fun {b a} hba => h a b hba) (measure rank).wf

variable (hwf : WellFounded (Function.swap r))
include hwf

theorem not_transGen_self (a : α) : ¬ TransGen r a a := by
  intro h
  have hwf' := hwf.transGen
  rw [Relation.transGen_swap] at h
  exact hwf'.irrefl.irrefl a h

/-- Following the relation from any point ends. -/
theorem exists_terminal (a : α) : ∃ b, ReflTransGen r a b ∧ ∀ c, ¬ r b c := by
  induction a using hwf.induction with
  | _ a ih =>
      by_cases h : ∃ c, r a c
      · obtain ⟨c, hc⟩ := h
        obtain ⟨b, hb, hend⟩ := ih c hc
        exact ⟨b, hb.head hc, hend⟩
      · exact ⟨a, .refl, fun c hc => h ⟨c, hc⟩⟩

end Descent

/-- What every step reaches, every path reaches. -/
theorem of_transGen {α : Type*} {r : α → α → Prop} {P : α → Prop} (h : ∀ a b, r a b → P b)
    {a b : α} (hab : TransGen r a b) : P b := by
  cases hab with
  | single hr => exact h _ _ hr
  | tail _ hr => exact h _ _ hr

/-! ## Lists without repeated keys -/

section Keys

variable {α β : Type*}

/-- Two members with one key are equal. -/
theorem eq_of_key_eq {key : α → β} {l : List α} (hnd : (l.map key).Nodup) {a b : α} (ha : a ∈ l)
    (hb : b ∈ l) (h : key a = key b) : a = b :=
  List.inj_on_of_nodup_map hnd ha hb h

theorem countP_eq_one {p : α → Bool} {l : List α} (hnd : l.Nodup) {a : α} (ha : a ∈ l)
    (h : ∀ b ∈ l, p b = true ↔ b = a) : l.countP p = 1 := by
  classical
  have hcongr : l.countP p = l.countP (· == a) :=
    List.countP_congr fun b hb => by rw [h b hb, beq_iff_eq]
  rw [hcongr, ← List.count.eq_1]
  exact List.count_eq_one_of_mem hnd ha

theorem lookup_of_mem [DecidableEq α] {l : List (α × β)} (hnd : (l.map Prod.fst).Nodup)
    {p : α × β} (hp : p ∈ l) : l.lookup p.1 = some p.2 := by
  induction l with
  | nil => cases hp
  | cons q l ih =>
      rw [List.map_cons, List.nodup_cons] at hnd
      rcases List.mem_cons.mp hp with rfl | hp
      · exact List.lookup_cons_self
      · have hne : p.1 ≠ q.1 := by
          intro heq
          exact hnd.1 (heq ▸ List.mem_map_of_mem hp)
        rw [List.lookup_cons, beq_false_of_ne hne]
        exact ih hnd.2 hp

/-- A second key that tells apart what the first one does has no repetition either. -/
theorem nodup_map_of_key {γ : Type*} {key : α → β} {f : α → γ} {l : List α}
    (hnd : (l.map key).Nodup) (h : ∀ a ∈ l, ∀ b ∈ l, f a = f b → key a = key b) :
    (l.map f).Nodup := by
  rw [List.Nodup, List.pairwise_map] at hnd ⊢
  exact hnd.imp_of_mem fun ha hb hne heq => hne (h _ ha _ hb heq)

end Keys

/-! ## The head of a sorted list -/

/-- Sorted and without repetition: each is strictly below the next. -/
theorem strict_insertionSort {α : Type*} [LinearOrder α] {l : List α} (hnd : l.Nodup) :
    (l.insertionSort (· ≤ ·)).Pairwise (· < ·) := by
  have hle := List.pairwise_insertionSort (· ≤ ·) l
  have hne : (l.insertionSort (· ≤ ·)).Nodup := (List.perm_insertionSort _ l).nodup_iff.mpr hnd
  exact (hle.and hne).imp fun ⟨hle, hne⟩ => lt_of_le_of_ne hle hne

theorem head_insertionSort {α : Type*} {r : α → α → Prop} [DecidableRel r] [Std.Total r]
    [IsTrans α r] {l : List α} {a : α} (h : (l.insertionSort r).head? = some a) :
    a ∈ l ∧ ∀ b ∈ l, b ≠ a → r a b := by
  have hs := List.pairwise_insertionSort r l
  rcases hl : l.insertionSort r with _ | ⟨x, xs⟩
  · simp [hl] at h
  · rw [hl] at hs h
    obtain rfl : x = a := by simpa using h
    have hmem : ∀ b, b ∈ l ↔ b ∈ x :: xs := fun b => by
      rw [← hl, List.mem_insertionSort]
    refine ⟨(hmem x).mpr (by simp), fun b hb hne => ?_⟩
    rcases List.mem_cons.mp ((hmem b).mp hb) with rfl | hb
    · exact absurd rfl hne
    · exact List.rel_of_pairwise_cons hs hb

/-! ## Part of a sorted list -/

section Filter

variable {α : Type*} {r : α → α → Prop} [DecidableRel r] [Std.Total r] [IsTrans α r]

omit [Std.Total r] in
theorem filter_orderedInsert {l : List α} (hs : l.Pairwise r) (q : α → Bool) (a : α) :
    (l.orderedInsert r a).filter q
      = if q a = true then (l.filter q).orderedInsert r a else l.filter q := by
  induction l with
  | nil =>
      by_cases hq : q a = true
      · simp [hq]
      · simp [hq]
  | cons b l ih =>
      rw [List.pairwise_cons] at hs
      by_cases hab : r a b
      · rw [List.orderedInsert_cons, if_pos hab]
        by_cases hq : q a = true
        · have hfirst : ∀ c ∈ (b :: l).filter q, r a c := by
            intro c hc
            rcases List.mem_cons.mp (List.mem_filter.mp hc).1 with rfl | hc
            · exact hab
            · exact IsTrans.trans _ _ _ hab (hs.1 c hc)
          rw [if_pos hq, List.filter_cons_of_pos hq]
          rcases hl : (b :: l).filter q with _ | ⟨c, l'⟩
          · rfl
          · rw [List.orderedInsert_cons, if_pos (hfirst c (by rw [hl]; simp))]
        · rw [if_neg hq, List.filter_cons_of_neg hq]
      · rw [List.orderedInsert_cons, if_neg hab]
        by_cases hb : q b = true
        · rw [List.filter_cons_of_pos hb, List.filter_cons_of_pos hb, ih hs.2]
          split
          · rw [List.orderedInsert_cons, if_neg hab]
          · rfl
        · rw [List.filter_cons_of_neg hb, List.filter_cons_of_neg hb, ih hs.2]

/-- Sorting the chosen elements chooses among the sorted ones. -/
theorem filter_insertionSort (q : α → Bool) (l : List α) :
    (l.insertionSort r).filter q = (l.filter q).insertionSort r := by
  induction l with
  | nil => rfl
  | cons a l ih =>
      rw [List.insertionSort_cons, filter_orderedInsert (List.pairwise_insertionSort r l), ih]
      by_cases hq : q a = true
      · rw [if_pos hq, List.filter_cons_of_pos hq, List.insertionSort_cons]
      · rw [if_neg hq, List.filter_cons_of_neg hq]

end Filter

end Ranked
