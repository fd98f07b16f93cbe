import Mathlib.Data.List.Basic
import Mathlib.Data.List.Nodup

/-!
# Dictionaries as lists of pairs

A dictionary keeps its keys in the order they were first put in; putting
a key in again replaces its value and keeps its place. `keys` is what an
iteration visits: no key twice, whatever was put in.
-/

namespace Assoc

variable {α β : Type} [DecidableEq α]

/-- `d[k] = v`. -/
def put (k : α) (v : β) : List (α × β) → List (α × β)
  | [] => [(k, v)]
  | (k', v') :: d => if k' = k then (k', v) :: d else (k', v') :: put k v d

def keys (d : List (α × β)) : List α := d.map Prod.fst

/-- The dictionary of some pairs put in one after the other. -/
def update (d : List (α × β)) (ps : List (α × β)) : List (α × β) :=
  ps.foldl (fun d p => put p.1 p.2 d) d

variable {d : List (α × β)} {ps : List (α × β)} {k l : α} {v w : β}

omit [DecidableEq α] in
theorem mem_keys : k ∈ keys d ↔ ∃ v, (k, v) ∈ d := by
  simp [keys]

/-! ## Putting one pair in -/

theorem keys_put : keys (put k v d) = if k ∈ keys d then keys d else keys d ++ [k] := by
  induction d with
  | nil => simp [put, keys]
  | cons p d ih =>
      obtain ⟨k', v'⟩ := p
      rw [put]
      by_cases h : k' = k
      · rw [if_pos h, if_pos (by simp [keys, h])]
        rfl
      · rw [if_neg h]
        have hcons : ∀ (x : β) (e : List (α × β)), keys ((k', x) :: e) = k' :: keys e :=
          fun _ _ => rfl
        rw [hcons, hcons, ih]
        by_cases hk : k ∈ keys d
        · rw [if_pos hk, if_pos (List.mem_cons_of_mem _ hk)]
        · have hnot : k ∉ k' :: keys d := by
            rintro (_ | ⟨_, hmem⟩)
            · exact h rfl
            · exact hk hmem
          rw [if_neg hk, if_neg hnot, List.cons_append]

theorem mem_keys_put : l ∈ keys (put k v d) ↔ l = k ∨ l ∈ keys d := by
  rw [keys_put]
  split
  · rename_i h
    exact ⟨.inr, fun hl => hl.elim (fun e => e ▸ h) id⟩
  · rw [List.mem_append, List.mem_singleton, or_comm]

theorem nodup_keys_put (h : (keys d).Nodup) : (keys (put k v d)).Nodup := by
  rw [keys_put]
  split
  · exact h
  · rename_i hk
    exact h.append (List.nodup_singleton k) fun x hx hx' =>
      hk (List.mem_singleton.mp hx' ▸ hx)

theorem mem_put {p : α × β} (h : p ∈ put k v d) : p = (k, v) ∨ p ∈ d := by
  induction d with
  | nil => exact .inl (List.mem_singleton.mp h)
  | cons q d ih =>
      obtain ⟨k', v'⟩ := q
      rw [put] at h
      split at h
      · rename_i hk
        rcases List.mem_cons.mp h with rfl | h
        · exact .inl (by rw [hk])
        · exact .inr (List.mem_cons_of_mem _ h)
      · rcases List.mem_cons.mp h with rfl | h
        · exact .inr List.mem_cons_self
        · exact (ih h).imp_right (List.mem_cons_of_mem _)

section Lookup

variable [BEq α] [LawfulBEq α]

theorem lookup_put_self : (put k v d).lookup k = some v := by
  induction d with
  | nil => simp [put]
  | cons p d ih =>
      obtain ⟨k', v'⟩ := p
      rw [put]
      by_cases h : k' = k
      · rw [if_pos h, h, List.lookup_cons_self]
      · rw [if_neg h, List.lookup_cons]
        have hne : (k == k') = false := beq_eq_false_iff_ne.mpr (Ne.symm h)
        simp only [hne, ih]

theorem lookup_put_ne (h : l ≠ k) : (put k v d).lookup l = d.lookup l := by
  induction d with
  | nil =>
      have hne : (l == k) = false := beq_eq_false_iff_ne.mpr h
      simp [put, List.lookup_cons, hne]
  | cons p d ih =>
      obtain ⟨k', v'⟩ := p
      rw [put]
      by_cases hk : k' = k
      · subst hk
        have hne : (l == k') = false := beq_eq_false_iff_ne.mpr h
        rw [if_pos rfl, List.lookup_cons, List.lookup_cons]
        simp only [hne]
      · rw [if_neg hk, List.lookup_cons, List.lookup_cons, ih]

omit [DecidableEq α] in
theorem lookup_isSome : (d.lookup k).isSome = true ↔ k ∈ keys d := by
  rw [List.lookup_isSome_iff, keys, List.mem_map]
  constructor
  · rintro ⟨p, hp, hk⟩
    exact ⟨p, hp, (beq_iff_eq.mp hk).symm⟩
  · rintro ⟨p, hp, rfl⟩
    exact ⟨p, hp, beq_self_eq_true _⟩

omit [DecidableEq α] in
theorem lookup_of_mem (hd : (keys d).Nodup) (h : (k, v) ∈ d) : d.lookup k = some v := by
  induction d with
  | nil => cases h
  | cons p d ih =>
      obtain ⟨k', v'⟩ := p
      obtain ⟨hk', hd⟩ := List.nodup_cons.mp hd
      rcases List.mem_cons.mp h with heq | hmem
      · obtain ⟨rfl, rfl⟩ := Prod.mk.inj heq
        exact List.lookup_cons_self
      · have hne : (k == k') = false := by
          rw [beq_eq_false_iff_ne]
          rintro rfl
          exact hk' (mem_keys.mpr ⟨v, hmem⟩)
        rw [List.lookup_cons]
        simp only [hne, ih hd hmem]

omit [DecidableEq α] in
theorem mem_of_lookup (h : d.lookup k = some v) : (k, v) ∈ d := by
  obtain ⟨l₁, l₂, rfl, -⟩ := List.lookup_eq_some_iff.mp h
  simp

/-- Under its key a pair put in is the only one. -/
theorem mem_put_of_nodup {p : α × β} (hd : (keys d).Nodup) (h : p ∈ put k v d) :
    p = (k, v) ∨ p ∈ d ∧ p.1 ≠ k := by
  by_cases hk : p.1 = k
  · have hp := lookup_of_mem (nodup_keys_put (k := k) (v := v) hd) h
    rw [hk, lookup_put_self, Option.some.injEq] at hp
    exact .inl (Prod.ext hk hp.symm)
  · exact .inr ⟨(mem_put h).resolve_left fun heq => hk (congrArg Prod.fst heq), hk⟩

end Lookup

/-! ## Putting many in -/

theorem mem_keys_update : k ∈ keys (update d ps) ↔ k ∈ keys d ∨ k ∈ keys ps := by
  induction ps generalizing d with
  | nil => simp [update, keys]
  | cons p ps ih =>
      rw [update, List.foldl_cons]
      have hrest := ih (d := put p.1 p.2 d)
      rw [update] at hrest
      rw [hrest, mem_keys_put]
      have hcons : keys (p :: ps) = p.1 :: keys ps := rfl
      rw [hcons, List.mem_cons]
      tauto

theorem nodup_keys_update (h : (keys d).Nodup) : (keys (update d ps)).Nodup := by
  induction ps generalizing d with
  | nil => exact h
  | cons p ps ih =>
      rw [update, List.foldl_cons]
      exact ih (nodup_keys_put h)

/-- Every pair of the result was there, or was put in. -/
theorem mem_update {p : α × β} (h : p ∈ update d ps) : p ∈ d ∨ p ∈ ps := by
  induction ps generalizing d with
  | nil => exact .inl h
  | cons q ps ih =>
      rw [update, List.foldl_cons] at h
      rcases ih h with h | h
      · rcases mem_put h with rfl | h
        · exact .inr List.mem_cons_self
        · exact .inl h
      · exact .inr (List.mem_cons_of_mem _ h)

/-- Every pair put in is found in the first entries, exactly when there are
no more keys than these and no key was put in with two values. -/
theorem lookup_take_update [BEq α] [LawfulBEq α] (n : Nat) (ps : List (α × β)) :
    (∀ p ∈ ps, ((update [] ps).take n).lookup p.1 = some p.2)
      ↔ (update [] ps).length ≤ n ∧ ∀ p ∈ ps, ∀ q ∈ ps, p.1 = q.1 → p.2 = q.2 := by
  have hnodup : (keys (update [] ps)).Nodup := nodup_keys_update List.nodup_nil
  constructor
  · intro h
    refine ⟨?_, fun p hp q hq hkey => ?_⟩
    · by_contra hlong
      have hn : n < (update [] ps).length := by omega
      have hmem : (update [] ps)[n] ∈ ps :=
        (mem_update (List.getElem_mem hn)).resolve_left List.not_mem_nil
      have hfound := mem_keys.mpr ⟨_, mem_of_lookup (h _ hmem)⟩
      -- its key is one of the first `n` keys, and comes again after them
      have hsplit : keys (update [] ps)
          = keys ((update [] ps).take n) ++ keys ((update [] ps).drop n) := by
        rw [keys, keys, keys, ← List.map_append, List.take_append_drop]
      have hlater : (update [] ps)[n].1 ∈ keys ((update [] ps).drop n) := by
        rw [List.drop_eq_getElem_cons hn]
        exact List.mem_cons_self
      rw [hsplit] at hnodup
      exact (List.nodup_append.mp hnodup).2.2 _ hfound _ hlater rfl
    · have hlookup := h p hp
      rw [hkey, h q hq] at hlookup
      exact (Option.some.inj hlookup).symm
  · rintro ⟨hlength, hsame⟩ p hp
    rw [List.take_of_length_le hlength]
    obtain ⟨v, hv⟩ := mem_keys.mp
      (mem_keys_update.mpr (.inr (mem_keys.mpr ⟨p.2, hp⟩)) : p.1 ∈ keys (update [] ps))
    have hmem : (p.1, v) ∈ ps := (mem_update hv).resolve_left List.not_mem_nil
    rw [lookup_of_mem hnodup hv, hsame p hp _ hmem rfl]

theorem put_of_not_mem (h : k ∉ keys d) : put k v d = d ++ [(k, v)] := by
  induction d with
  | nil => rfl
  | cons p d ih =>
      obtain ⟨k', v'⟩ := p
      obtain ⟨hne, hd⟩ := not_or.mp (fun hmem => h (List.mem_cons.mpr hmem))
      rw [put, if_neg (Ne.symm hne), ih hd, List.cons_append]

/-- New keys are put in at the end, one after the other. -/
theorem update_of_nodup (h : (keys (d ++ ps)).Nodup) : update d ps = d ++ ps := by
  induction ps generalizing d with
  | nil => simp [update]
  | cons p ps ih =>
      have hnew : p.1 ∉ keys d := by
        intro hmem
        rw [keys, List.map_append, List.map_cons] at h
        exact (List.nodup_append.mp h).2.2 _ hmem _ List.mem_cons_self rfl
      have hstep : update d (p :: ps) = update (put p.1 p.2 d) ps := rfl
      rw [hstep, put_of_not_mem hnew]
      have hrest := ih (d := d ++ [(p.1, p.2)]) (by simpa using h)
      rw [hrest, List.append_assoc, List.singleton_append]

theorem put_map {γ : Type} (f : β → γ) (d : List (α × β)) :
    put k (f v) (d.map (Prod.map id f)) = (put k v d).map (Prod.map id f) := by
  induction d with
  | nil => rfl
  | cons p d ih =>
      obtain ⟨k', v'⟩ := p
      by_cases h : k' = k
      · simp only [List.map_cons, Prod.map_apply, id_eq, put, if_pos h]
      · simp only [List.map_cons, Prod.map_apply, id_eq, put, if_neg h, ih]

theorem update_map {γ : Type} (f : β → γ) (d ps : List (α × β)) :
    update (d.map (Prod.map id f)) (ps.map (Prod.map id f))
      = (update d ps).map (Prod.map id f) := by
  induction ps generalizing d with
  | nil => rfl
  | cons p ps ih =>
      have hstep : update (d.map (Prod.map id f)) ((p :: ps).map (Prod.map id f))
          = update (put p.1 (f p.2) (d.map (Prod.map id f))) (ps.map (Prod.map id f)) := rfl
      rw [hstep, put_map, ih]
      rfl

end Assoc
