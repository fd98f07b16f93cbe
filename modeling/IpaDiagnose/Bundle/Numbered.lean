import IpaDiagnose.Bundle.Pseudonyms

/-!
# The numbers of pseudonyms

While the evidence is gone through, identifiers are registered and the
numbers that already occur in it are reserved, in any order. Whatever the
order, an identifier keeps the pseudonym it was given, no two share one,
and none is given a number that was reserved before.
-/

namespace IpaDiagnose.Bundle

/-! ## Reading a number back -/

theorem ofDigitChars_padded (n : Nat) : Nat.ofDigitChars 10 (padded n) 0 = n := by
  rw [padded, Nat.ofDigitChars_append, Nat.ofDigitChars_replicate_zero, Nat.mul_zero,
    Nat.ofDigitChars_ten_toDigits]

theorem Cls.name_inj {cls cls' : Cls} (h : cls.name = cls'.name) : cls = cls' := by
  cases cls <;> cases cls' <;> first | rfl | exact absurd h (by simp [Cls.name])

theorem Cls.name_plain (cls : Cls) : '-' ∉ cls.name.toList := by
  cases cls <;> simp [Cls.name]

/-- Two texts with a dash, cut at the first one. -/
theorem cut_at_dash {a b x y : List Char} (ha : '-' ∉ a) (hb : '-' ∉ b)
    (h : a ++ '-' :: x = b ++ '-' :: y) : a = b ∧ x = y := by
  induction a generalizing b with
  | nil =>
      cases b with
      | nil => exact ⟨rfl, (List.cons.inj h).2⟩
      | cons c b =>
          obtain ⟨rfl, -⟩ := List.cons.inj h
          exact absurd List.mem_cons_self hb
  | cons c a ih =>
      cases b with
      | nil =>
          obtain ⟨rfl, -⟩ := List.cons.inj h
          exact absurd List.mem_cons_self ha
      | cons c' b =>
          obtain ⟨rfl, hrest⟩ := List.cons.inj h
          obtain ⟨rfl, hxy⟩ := ih (fun hm => ha (List.mem_cons_of_mem _ hm))
            (fun hm => hb (List.mem_cons_of_mem _ hm)) hrest
          exact ⟨rfl, hxy⟩

/-- A pseudonym says its class and its number. -/
theorem pseudonym_inj {cls cls' : Cls} {n m : Nat} (h : pseudonym cls n = pseudonym cls' m) :
    cls = cls' ∧ n = m := by
  have hchars : cls.name.toList ++ '-' :: padded n = cls'.name.toList ++ '-' :: padded m :=
    String.ofList_injective h
  obtain ⟨hname, hdigits⟩ := cut_at_dash cls.name_plain cls'.name_plain hchars
  refine ⟨Cls.name_inj (String.toList_injective hname), ?_⟩
  rw [← ofDigitChars_padded n, hdigits, ofDigitChars_padded]

/-! ## The next number -/

theorem le_firstFree (taken : List Nat) (fuel n : Nat) : n ≤ firstFree taken fuel n := by
  induction fuel generalizing n with
  | zero => exact Nat.le_refl n
  | succ fuel ih =>
      rw [firstFree]
      split
      · exact Nat.le_of_succ_le (ih (n + 1))
      · exact Nat.le_refl n

/-- When even the last number tried is taken, so are all the numbers from
the first one on. -/
theorem firstFree_taken {taken : List Nat} {fuel n : Nat} (h : firstFree taken fuel n ∈ taken) :
    ∀ m ∈ List.range' n (fuel + 1), m ∈ taken := by
  induction fuel generalizing n with
  | zero =>
      intro m hm
      obtain rfl : m = n := by simpa using hm
      exact h
  | succ fuel ih =>
      rw [firstFree] at h
      intro m hm
      split at h
      · rename_i hn
        rw [List.range'_succ, List.mem_cons] at hm
        rcases hm with rfl | hm
        · exact hn
        · exact ih h m hm
      · rename_i hn
        exact absurd h hn

theorem firstFree_free (taken : List Nat) (n : Nat) :
    firstFree taken taken.length n ∉ taken := by
  intro h
  have hsub : List.range' n (taken.length + 1) ⊆ taken := fun m hm => firstFree_taken h m hm
  have hlen := (List.subperm_of_subset List.nodup_range' hsub).length_le
  rw [List.length_range'] at hlen
  omega

/-! ## Runs -/

/-- `reserve` comes upon a pseudonym in the evidence. -/
def Names.reserve (s : Names) (cls : Cls) (n : Nat) : Names :=
  { s with taken := fun c => if c = cls then n :: s.taken c else s.taken c }

/-- What is asked of the mapping while the evidence is gone through. -/
inductive Call where
  | register (cls : Cls) (canon : String) (form : Option { f : String // f ≠ "" })
  | reserve (cls : Cls) (n : Nat)

def Names.call (s : Names) : Call → Names
  | .register cls canon form => s.register cls canon form
  | .reserve cls n => s.reserve cls n

def Names.run (s : Names) (calls : List Call) : Names := calls.foldl Names.call s

/-- Every pseudonym has a number its class has come to, and says whose it is. -/
structure Names.Numbered (s : Names) : Prop where
  distinct : (Assoc.keys s.map).Nodup
  below : ∀ e ∈ s.map, ∃ n, e.2 = pseudonym e.1.1 n ∧ n ≤ s.next e.1.1
  own : ∀ e ∈ s.map, ∀ e' ∈ s.map, e.2 = e'.2 → e.1 = e'.1

/-- What a later mapping keeps of an earlier one: the pseudonyms, what the
forms stand for, and which numbers are not to be given. -/
structure Names.Extends (t s : Names) : Prop where
  map : ∀ k p, s.map.lookup k = some p → t.map.lookup k = some p
  forms : ∀ v k, s.variants.lookup v = some k → t.variants.lookup v = some k
  taken : ∀ cls, ∀ n ∈ s.taken cls, n ∈ t.taken cls
  unreserved : ∀ k p, t.map.lookup k = some p → s.map.lookup k = none →
    ∀ n ∈ s.taken k.1, p ≠ pseudonym k.1 n

theorem Names.Extends.refl (s : Names) : s.Extends s where
  map _ _ h := h
  forms _ _ h := h
  taken _ _ h := h
  unreserved k p h hnone := by
    rw [hnone] at h
    cases h

theorem Names.Extends.trans {s t u : Names} (h : t.Extends s) (h' : u.Extends t) :
    u.Extends s where
  map k p hk := h'.map k p (h.map k p hk)
  forms v k hv := h'.forms v k (h.forms v k hv)
  taken cls n hn := h'.taken cls n (h.taken cls n hn)
  unreserved k p hk hnone n hn := by
    cases hmid : t.map.lookup k with
    | none => exact h'.unreserved k p hk hmid n (h.taken k.1 n hn)
    | some q =>
        rw [h'.map k q hmid] at hk
        obtain rfl := Option.some.inj hk
        exact h.unreserved k q hmid hnone n hn

theorem lookup_append_of_some {α β : Type} [BEq α] {d : List (α × β)} {k : α} {v : β}
    (more : List (α × β)) (h : d.lookup k = some v) : (d ++ more).lookup k = some v := by
  rw [List.lookup_append, h, Option.some_or]

/-- The next number is above those the class has come to. -/
theorem Names.Numbered.alloc_new {s : Names} (h : s.Numbered) (cls : Cls) :
    ∀ e ∈ s.map, e.2 ≠ pseudonym cls (s.alloc cls) := by
  intro e he heq
  have habove : s.next cls < s.alloc cls := le_firstFree _ _ _
  obtain ⟨n, hn, hle⟩ := h.below e he
  obtain ⟨hcls, rfl⟩ := pseudonym_inj (hn.symm.trans heq)
  rw [hcls] at hle
  omega

/-- Giving a pseudonym keeps the others, and gives a number above those of
the class that is not reserved. -/
theorem Names.assign_numbered {s : Names} (h : s.Numbered) (key : Ident) :
    (s.assign key).Numbered ∧ (s.assign key).Extends s := by
  rw [Names.assign]
  split
  · exact ⟨h, .refl s⟩
  · rename_i hnew
    have habove : s.next key.1 < s.alloc key.1 := le_firstFree _ _ _
    have hfree : s.alloc key.1 ∉ s.taken key.1 := firstFree_free _ _
    have hother := h.alloc_new key.1
    refine ⟨⟨?_, ?_, ?_⟩, ⟨?_, fun _ _ hv => hv, fun _ _ hn => hn, ?_⟩⟩
    · have hput := Assoc.nodup_keys_put (k := key) (v := pseudonym key.1 (s.alloc key.1)) h.distinct
      rwa [Assoc.put_of_not_mem hnew] at hput
    · intro e he
      rcases List.mem_append.mp he with he | he
      · obtain ⟨n, hn, hle⟩ := h.below e he
        refine ⟨n, hn, ?_⟩
        dsimp only
        split
        · rename_i hcls
          rw [hcls] at hle
          omega
        · exact hle
      · obtain rfl := List.mem_singleton.mp he
        exact ⟨_, rfl, by simp⟩
    · intro e he e' he' heq
      rcases List.mem_append.mp he with he | he
      · rcases List.mem_append.mp he' with he' | he'
        · exact h.own e he e' he' heq
        · obtain rfl := List.mem_singleton.mp he'
          exact absurd heq (hother e he)
      · obtain rfl := List.mem_singleton.mp he
        rcases List.mem_append.mp he' with he' | he'
        · exact absurd heq.symm (hother e' he')
        · rw [List.mem_singleton.mp he']
    · exact fun k p hk => lookup_append_of_some _ hk
    · intro k p hk hnone n hn
      dsimp only at hk
      rw [List.lookup_append, hnone, Option.none_or] at hk
      have hmem := Assoc.mem_of_lookup hk
      obtain ⟨rfl, rfl⟩ := Prod.mk.inj (List.mem_singleton.mp hmem)
      intro heq
      obtain ⟨-, rfl⟩ := pseudonym_inj heq
      exact hfree hn

theorem Names.addVariant_numbered {s : Names} (h : s.Numbered) (variant key : Ident)
    (hform : variant.2 ≠ "") (hkey : key ∈ Assoc.keys s.map) :
    (s.addVariant variant key hform hkey).Numbered
      ∧ (s.addVariant variant key hform hkey).Extends s := by
  have hsame := Names.Extends.refl s
  rw [Names.addVariant]
  split
  · exact ⟨h, hsame⟩
  · exact ⟨⟨h.distinct, h.below, h.own⟩, hsame.map, fun v k hv => lookup_append_of_some _ hv,
      hsame.taken, hsame.unreserved⟩

theorem Names.call_numbered {s : Names} (h : s.Numbered) (c : Call) :
    (s.call c).Numbered ∧ (s.call c).Extends s := by
  have hsame := Names.Extends.refl s
  cases c with
  | register cls canon form =>
      rw [Names.call, Names.register]
      split
      · exact ⟨h, hsame⟩
      · obtain ⟨hassign, hext⟩ := Names.assign_numbered h (cls, canon)
        obtain ⟨hadd, hext'⟩ := Names.addVariant_numbered hassign
          (cls, (form.map Subtype.val).getD canon) (cls, canon) _ (s.mem_keys_assign (cls, canon))
        exact ⟨hadd, hext.trans hext'⟩
  | reserve cls n =>
      refine ⟨⟨h.distinct, h.below, h.own⟩, hsame.map, hsame.forms, fun c m hm => ?_,
        hsame.unreserved⟩
      rw [Names.call, Names.reserve]
      dsimp only
      split
      · exact List.mem_cons_of_mem _ hm
      · exact hm

/-- A run keeps what it found, whatever is asked. -/
theorem Names.run_numbered {s : Names} (h : s.Numbered) (calls : List Call) :
    (s.run calls).Numbered ∧ (s.run calls).Extends s := by
  induction calls generalizing s with
  | nil => exact ⟨h, .refl s⟩
  | cons c calls ih =>
      obtain ⟨hcall, hext⟩ := Names.call_numbered h c
      obtain ⟨hrest, hext'⟩ := ih hcall
      exact ⟨hrest, hext.trans hext'⟩

theorem Names.empty_numbered : Names.empty.Numbered where
  distinct := .nil
  below _ he := absurd he List.not_mem_nil
  own _ he := absurd he List.not_mem_nil

/-- Pseudonyms in a run over the evidence: what was given before stays, two
identifiers never share a pseudonym, a form keeps what it stands for, and
no identifier gets a number that was reserved when it was still unknown. -/
theorem pseudonyms_stable (before after : List Call) :
    ((Names.empty.run before).run after).Extends (Names.empty.run before)
      ∧ ∀ k k' p, ((Names.empty.run before).run after).map.lookup k = some p →
        ((Names.empty.run before).run after).map.lookup k' = some p → k = k' := by
  obtain ⟨hbefore, -⟩ := Names.run_numbered Names.empty_numbered before
  obtain ⟨hafter, hext⟩ := Names.run_numbered hbefore after
  refine ⟨hext, fun k k' p hk hk' => ?_⟩
  exact hafter.own (k, p) (Assoc.mem_of_lookup hk) (k', p) (Assoc.mem_of_lookup hk') rfl

end IpaDiagnose.Bundle
