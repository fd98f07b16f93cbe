import IpaDiagnose.Bundle.Sanitize

/-!
# What is written was offered before

The two walks visit the same positions: every text the transformation puts
out is one the discovery offered, whatever the rules make of it. A
dictionary is copied entry by entry, in order, under keys that stay apart;
only raw tool output is left out.
-/

namespace IpaDiagnose.Bundle

open Py (Value Dict)

/-! ## Keys that stay apart -/

def marks (n : Nat) : String := String.ofList (List.replicate n '#')

theorem marks_succ (k : String) (n : Nat) : k ++ marks (n + 1) = k ++ "#" ++ marks n := by
  rw [← String.toList_inj]
  simp [marks, List.replicate_succ]

theorem marks_zero (k : String) : k ++ marks 0 = k := by
  rw [← String.toList_inj]
  simp [marks]

theorem marks_injective (k : String) : Function.Injective fun n => k ++ marks n := by
  intro m n h
  have hlen := congrArg (fun s => s.toList.length) h
  simpa [marks] using hlen

/-- The key that is not there is the first of the marked ones. -/
theorem freshen_spec (keys : List String) : ∀ (rounds : Nat) (k : String),
    ∃ n ≤ rounds, freshen keys rounds k = k ++ marks n ∧ (∀ m < n, k ++ marks m ∈ keys)
      ∧ (n < rounds → k ++ marks n ∉ keys)
  | 0, k => ⟨0, Nat.le_refl 0, (marks_zero k).symm, fun m hm => absurd hm (Nat.not_lt_zero m),
      fun h => absurd h (Nat.not_lt_zero 0)⟩
  | rounds + 1, k => by
      rw [freshen]
      by_cases hk : k ∈ keys
      · rw [if_pos hk]
        obtain ⟨n, hn, heq, hbefore, hfresh⟩ := freshen_spec keys rounds (k ++ "#")
        refine ⟨n + 1, by omega, by rw [heq, marks_succ], ?_, ?_⟩
        · intro m hm
          cases m with
          | zero => rwa [marks_zero]
          | succ m =>
              rw [marks_succ]
              exact hbefore m (by omega)
        · intro hlt
          rw [marks_succ]
          exact hfresh (by omega)
      · rw [if_neg hk]
        refine ⟨0, Nat.zero_le _, (marks_zero k).symm, fun m hm => absurd hm (Nat.not_lt_zero m), ?_⟩
        intro _
        rwa [marks_zero]

/-- As many marked keys as there are keys cannot all be taken. -/
theorem freshKey_spec (keys : List String) (k : String) :
    freshKey keys k ∉ keys ∧ ∃ n, freshKey keys k = k ++ marks n := by
  obtain ⟨n, hn, heq, hbefore, hfresh⟩ := freshen_spec keys keys.length k
  refine ⟨?_, n, heq⟩
  rw [freshKey, heq]
  rcases Nat.lt_or_ge n keys.length with hlt | hge
  · exact hfresh hlt
  · intro hmem
    have hall : ∀ x ∈ (List.range (n + 1)).map (fun m => k ++ marks m), x ∈ keys := by
      intro x hx
      obtain ⟨m, hm, rfl⟩ := List.mem_map.mp hx
      rcases Nat.lt_succ_iff_lt_or_eq.mp (List.mem_range.mp hm) with h | rfl
      · exact hbefore m h
      · exact hmem
    have hnd : ((List.range (n + 1)).map fun m => k ++ marks m).Nodup :=
      List.nodup_range.map (marks_injective k)
    have hle := (List.subperm_of_subset hnd hall).length_le
    rw [List.length_map, List.length_range] at hle
    omega

section Walks

variable {S : Type} {rules : Rules S}

/-! ## Texts put out -/

/-- What was put out on the way was offered. -/
def Puts (p p' : Pass S) (offers : List Offer) : Prop :=
  ∃ more, p'.emitted = p.emitted ++ more ∧ ∀ t ∈ more, t ∈ offers.filterMap Offer.text?

theorem Puts.none {p p' : Pass S} (h : p'.emitted = p.emitted) (offers : List Offer) :
    Puts p p' offers :=
  ⟨[], by rw [h, List.append_nil], fun t ht => absurd ht List.not_mem_nil⟩

theorem Puts.trans {p₁ p₂ p₃ : Pass S} {offers offers' : List Offer} (h : Puts p₁ p₂ offers)
    (h' : Puts p₂ p₃ offers') : Puts p₁ p₃ (offers ++ offers') := by
  obtain ⟨more, heq, hall⟩ := h
  obtain ⟨more', heq', hall'⟩ := h'
  refine ⟨more ++ more', by rw [heq', heq, List.append_assoc], fun t ht => ?_⟩
  rw [List.filterMap_append]
  rcases List.mem_append.mp ht with ht | ht
  · exact List.mem_append_left _ (hall t ht)
  · exact List.mem_append_right _ (hall' t ht)

theorem Puts.mono {p p' : Pass S} {offers offers' : List Offer} (h : Puts p p' offers)
    (hsub : ∀ o ∈ offers, o ∈ offers') : Puts p p' offers' := by
  obtain ⟨more, heq, hall⟩ := h
  refine ⟨more, heq, fun t ht => ?_⟩
  obtain ⟨o, ho, hot⟩ := List.mem_filterMap.mp (hall t ht)
  exact List.mem_filterMap.mpr ⟨o, hsub o ho, hot⟩

/-- A text puts out itself, or nothing. -/
theorem text_puts {value : String} {limit : Nat} {p p' : Pass S} {out : String}
    (h : text rules value limit p = .ok (out, p')) :
    p'.emitted = p.emitted
      ∨ (PyStr.len value ≤ HARD_LIMIT ∧ p'.emitted = p.emitted ++ [value]) := by
  unfold text at h
  split at h
  · obtain ⟨-, rfl⟩ := Prod.mk.inj (Except.ok.inj h)
    exact .inl rfl
  · rename_i hlen
    split at h
    · cases h
    · obtain ⟨-, rfl⟩ := Prod.mk.inj (Except.ok.inj h)
      exact .inr ⟨Nat.le_of_not_lt hlen, rfl⟩

theorem text_puts_offer {value : String} {limit : Nat} {p p' : Pass S} {out : String}
    (h : text rules value limit p = .ok (out, p')) {offers : List Offer}
    (hoffer : PyStr.len value ≤ HARD_LIMIT → ∃ key, Offer.text value key ∈ offers) :
    Puts p p' offers := by
  rcases text_puts h with heq | ⟨hlen, heq⟩
  · exact .none heq _
  · obtain ⟨key, hmem⟩ := hoffer hlen
    refine ⟨[value], heq, fun t ht => ?_⟩
    obtain rfl := List.mem_singleton.mp ht
    exact List.mem_filterMap.mpr ⟨_, hmem, rfl⟩

/-- A value is left out with a note, or copied. -/
theorem atDepth_cases {depth : Nat} {p : Pass S}
    {copy : Pass S → Except SanitizeTimeout (Value × Pass S)} {r : Value × Pass S}
    (h : atDepth depth p copy = .ok r) :
    (MAX_DEPTH < depth ∧ r = (.str "[OMITTED: nested too deeply]",
        { p with structureTrimmed := p.structureTrimmed + 1 }))
      ∨ (¬ MAX_DEPTH < depth ∧ copy p = .ok r) := by
  unfold atDepth at h
  split at h
  · rename_i hdeep
    exact .inl ⟨hdeep, (Except.ok.inj h).symm⟩
  · rename_i hdepth
    exact .inr ⟨hdepth, h⟩

theorem atDepth_scalar {depth : Nat} {p : Pass S} {v : Value} {r : Value × Pass S}
    (h : atDepth depth p (fun p => .ok (v, p)) = .ok r) : r.2.emitted = p.emitted := by
  rcases atDepth_cases h with ⟨-, rfl⟩ | ⟨-, h⟩
  · rfl
  · obtain rfl := Except.ok.inj h
    rfl

theorem trimming_emitted (trimmed : Bool) (p : Pass S) :
    (trimming trimmed p).emitted = p.emitted := by
  cases trimmed <;> rfl

/-! ## The two walks together -/

mutual

theorem transform_puts (depth : Nat) (key : String) :
    ∀ (v : Value) (p : Pass S) (r : Value × Pass S),
      transform rules depth key v p = .ok r → Puts p r.2 (discover rules depth key v)
  | .dict kvs, p, r, h => by
      rw [transform] at h
      rcases atDepth_cases h with ⟨-, rfl⟩ | ⟨hdepth, h⟩
      · exact .none rfl _
      · obtain ⟨r', hr', rfl⟩ := Result.map_ok.mp h
        rw [discover, if_neg hdepth]
        exact (Puts.none (trimming_emitted _ p) []).trans
          (transformEntries_puts depth (ownerKind kvs) _ kvs [] _ _ hr')
  | .list xs, p, r, h => by
      rw [transform] at h
      rcases atDepth_cases h with ⟨-, rfl⟩ | ⟨hdepth, h⟩
      · exact .none rfl _
      · obtain ⟨r', hr', rfl⟩ := Result.map_ok.mp h
        rw [discover, if_neg hdepth]
        exact (Puts.none (trimming_emitted _ p) []).trans
          (transformElements_puts depth key _ xs _ _ hr')
  | .str s, p, r, h => by
      rw [transform] at h
      rcases atDepth_cases h with ⟨-, rfl⟩ | ⟨hdepth, h⟩
      · exact .none rfl _
      · obtain ⟨r', hr', rfl⟩ := Result.map_ok.mp h
        rw [discover, if_neg hdepth]
        refine text_puts_offer hr' fun hlen => ⟨key, ?_⟩
        rw [if_pos hlen]
        exact List.mem_singleton.mpr rfl
  | .float x, p, r, h => by
      rw [transform] at h
      exact .none (atDepth_scalar h) _
  | .int n, p, r, h => by
      rw [transform] at h
      exact .none (atDepth_scalar h) _
  | .bool b, p, r, h => by
      rw [transform] at h
      exact .none (atDepth_scalar h) _
  | .null, p, r, h => by
      rw [transform] at h
      exact .none (atDepth_scalar h) _

theorem transformEntries_puts (depth : Nat) (owner : Option String) :
    ∀ (room : Nat) (kvs : Dict) (out : Dict) (p : Pass S) (r : Dict × Pass S),
      transformEntries rules depth room kvs out p = .ok r →
        Puts p r.2 (discoverEntries rules depth owner room kvs)
  | 0, kvs, out, p, r, h => by
      rw [transformEntries] at h
      obtain rfl := Except.ok.inj h
      exact .none rfl _
  | room + 1, [], out, p, r, h => by
      rw [transformEntries] at h
      · obtain rfl := Except.ok.inj h
        exact .none rfl _
      · exact fun h => by cases h
  | room + 1, (k, v) :: kvs, out, p, r, h => by
      rw [transformEntries] at h
      rw [discoverEntries]
      split at h
      · have hrest := transformEntries_puts depth owner room kvs _ _ r h
        exact (Puts.none rfl _ : Puts p { p with rawFieldsDropped := p.rawFieldsDropped + 1 }
          (offerEntry rules owner k v ++ discover rules (depth + 1) k v)).trans hrest
      · split at h
        · cases h
        · rename_i nk p' htext
          have hkey : Puts p p' (offerEntry rules owner k v) :=
            text_puts_offer htext fun _ => ⟨"", List.mem_cons_self⟩
          dsimp only at h
          split at h
          · have hrest := transformEntries_puts depth owner room kvs _ _ r h
            refine Puts.trans ?_ hrest
            exact hkey.trans (Puts.none rfl _)
          · split at h
            · have hrest := transformEntries_puts depth owner room kvs _ _ r h
              refine Puts.trans ?_ hrest
              exact hkey.trans (Puts.none rfl _)
            · split at h
              · cases h
              · rename_i nv p'' hvalue
                have hsub := transform_puts (depth + 1) k v p' _ hvalue
                have hrest := transformEntries_puts depth owner room kvs _ _ r h
                exact (hkey.trans hsub).trans hrest

theorem transformElements_puts (depth : Nat) (key : String) :
    ∀ (room : Nat) (xs : List Value) (p : Pass S) (r : List Value × Pass S),
      transformElements rules depth key room xs p = .ok r →
        Puts p r.2 (discoverElements rules depth key room xs)
  | 0, xs, p, r, h => by
      rw [transformElements] at h
      obtain rfl := Except.ok.inj h
      exact .none rfl _
  | room + 1, [], p, r, h => by
      rw [transformElements] at h
      · obtain rfl := Except.ok.inj h
        exact .none rfl _
      · exact fun h => by cases h
  | room + 1, x :: xs, p, r, h => by
      rw [transformElements] at h
      rw [discoverElements]
      split at h
      · cases h
      · rename_i y p' hx
        obtain ⟨r', hr', rfl⟩ := Result.map_ok.mp h
        exact (transform_puts (depth + 1) key x p _ hx).trans
          (transformElements_puts depth key room xs p' r' hr')

end

/-! ## Entries that stay apart -/

/-- The entries of a dictionary that are copied: those it looks at, but
for raw output. -/
def kept (depth : Nat) (kvs : Dict) : Dict :=
  (kvs.take (width MAX_DICT_KEYS 1 depth kvs.length)).filter fun entry => !isRaw entry.1

/-- A field that is removed whatever its value is. -/
def withheld (rules : Rules S) (k : String) (v : Value) : Bool :=
  (rules.secretKey k || rules.serialKey k) && !isFlag v

/-- An entry and its copy: the key is the rewritten one with marks
appended, the value the transformed one unless it is withheld. -/
structure Copied (rules : Rules S) (depth : Nat) (entry copy : String × Value) : Prop where
  key : ∃ p base p' n, text rules entry.1 KEY_LIMIT p = .ok (base, p') ∧ copy.1 = base ++ marks n
  value : if withheld rules entry.1 entry.2 then copy.2 = REMOVED
    else ∃ p r, transform rules (depth + 1) entry.1 entry.2 p = .ok r ∧ copy.2 = r.1

theorem nodup_keys_snoc {out : Dict} (h : (Assoc.keys out).Nodup) (base : String) (v : Value) :
    (Assoc.keys (out ++ [(freshKey (Assoc.keys out) base, v)])).Nodup := by
  have hkeys : Assoc.keys (out ++ [(freshKey (Assoc.keys out) base, v)])
      = Assoc.keys out ++ [freshKey (Assoc.keys out) base] := by
    simp [Assoc.keys]
  rw [hkeys]
  refine h.append (List.nodup_singleton _) fun x hx hx' => ?_
  obtain rfl := List.mem_singleton.mp hx'
  exact (freshKey_spec (Assoc.keys out) base).1 hx

/-- What an entry adds to the copy, and where the walk goes on. -/
theorem transformEntries_cons {depth room : Nat} {k : String} {v : Value} {kvs out : Dict}
    {p : Pass S} {r : Dict × Pass S} (hraw : isRaw k = false)
    (h : transformEntries rules depth (room + 1) ((k, v) :: kvs) out p = .ok r) :
    ∃ base nv p', Copied rules depth (k, v) (freshKey (Assoc.keys out) base, nv)
      ∧ transformEntries rules depth room kvs
          (out ++ [(freshKey (Assoc.keys out) base, nv)]) p' = .ok r := by
  rw [transformEntries, hraw, if_neg Bool.false_ne_true] at h
  split at h
  · cases h
  · rename_i base p' htext
    obtain ⟨n, hn⟩ := (freshKey_spec (Assoc.keys out) base).2
    have hkey : ∃ p base' p' n', text rules k KEY_LIMIT p = .ok (base', p')
        ∧ freshKey (Assoc.keys out) base = base' ++ marks n' := ⟨p, base, p', n, htext, hn⟩
    dsimp only at h
    split at h
    · rename_i hsecret
      refine ⟨base, REMOVED, _, ⟨hkey, ?_⟩, h⟩
      have hwithheld : withheld rules k v = true := by
        simp only [withheld, Bool.and_eq_true, Bool.or_eq_true] at hsecret ⊢
        exact ⟨.inl hsecret.1, hsecret.2⟩
      rw [if_pos hwithheld]
    · rename_i hsecret
      split at h
      · rename_i hserial
        refine ⟨base, REMOVED, _, ⟨hkey, ?_⟩, h⟩
        have hwithheld : withheld rules k v = true := by
          simp only [withheld, Bool.and_eq_true, Bool.or_eq_true] at hserial ⊢
          exact ⟨.inr hserial.1, hserial.2⟩
        rw [if_pos hwithheld]
      · rename_i hserial
        split at h
        · cases h
        · rename_i nv p'' hvalue
          refine ⟨base, nv, p'', ⟨hkey, ?_⟩, h⟩
          have hkeep : ¬ withheld rules k v = true := by
            simp only [withheld, Bool.and_eq_true, Bool.or_eq_true] at hsecret hserial ⊢
            rintro ⟨hs | hs, hflag⟩
            · exact hsecret ⟨hs, hflag⟩
            · exact hserial ⟨hs, hflag⟩
          rw [if_neg hkeep]
          exact ⟨p', (nv, p''), hvalue, rfl⟩

/-- The invariant of the walk over the entries: the copies so far have
keys of their own, and each entry still to be looked at adds its copy. -/
theorem transformEntries_copied (depth : Nat) :
    ∀ (room : Nat) (kvs : Dict) (out : Dict) (p : Pass S) (r : Dict × Pass S),
      transformEntries rules depth room kvs out p = .ok r → (Assoc.keys out).Nodup →
        ∃ more, r.1 = out ++ more ∧ (Assoc.keys r.1).Nodup
          ∧ List.Forall₂ (Copied rules depth)
              ((kvs.take room).filter fun entry => !isRaw entry.1) more
  | 0, kvs, out, p, r, h, hnd => by
      rw [transformEntries] at h
      obtain rfl := Except.ok.inj h
      exact ⟨[], (List.append_nil out).symm, hnd, by simp⟩
  | room + 1, [], out, p, r, h, hnd => by
      rw [transformEntries] at h
      · obtain rfl := Except.ok.inj h
        exact ⟨[], (List.append_nil out).symm, hnd, by simp⟩
      · exact fun h => by cases h
  | room + 1, (k, v) :: kvs, out, p, r, h, hnd => by
      rw [List.take_succ_cons]
      cases hraw : isRaw k with
      | true =>
          rw [transformEntries, if_pos hraw] at h
          rw [List.filter_cons_of_neg (by simp [hraw])]
          exact transformEntries_copied depth room kvs out _ r h hnd
      | false =>
          obtain ⟨base, nv, p', hcopied, hrest⟩ := transformEntries_cons hraw h
          obtain ⟨more, heq, hkeys, hall⟩ :=
            transformEntries_copied depth room kvs _ p' r hrest (nodup_keys_snoc hnd base nv)
          rw [List.filter_cons_of_pos (by simp [hraw])]
          refine ⟨(freshKey (Assoc.keys out) base, nv) :: more, ?_, hkeys, .cons hcopied hall⟩
          rw [heq, List.append_assoc, List.singleton_append]

/-- A dictionary within the bounds is copied entry by entry. -/
theorem transform_dict {depth : Nat} {key : String} {kvs : Dict} {p : Pass S}
    {r : Value × Pass S} (hdepth : depth ≤ MAX_DEPTH)
    (h : transform rules depth key (.dict kvs) p = .ok r) :
    ∃ out, r.1 = .dict out ∧ (Assoc.keys out).Nodup
      ∧ List.Forall₂ (Copied rules depth) (kept depth kvs) out := by
  rw [transform] at h
  rcases atDepth_cases h with ⟨hdeep, -⟩ | ⟨-, h⟩
  · omega
  · obtain ⟨r', hr', rfl⟩ := Result.map_ok.mp h
    obtain ⟨more, heq, hkeys, hall⟩ :=
      transformEntries_copied depth _ kvs [] _ r' hr' List.nodup_nil
    rw [List.nil_append] at heq
    exact ⟨r'.1, rfl, hkeys, heq ▸ hall⟩

/-! ## Discovery covers transformation -/

theorem discovery_covers {depth : Nat} {key : String} {value : Value} {p : Pass S}
    {r : Value × Pass S} (h : transform rules depth key value p = .ok r) :
    (∃ more, r.2.emitted = p.emitted ++ more
        ∧ ∀ t ∈ more, t ∈ (discover rules depth key value).filterMap Offer.text?)
      ∧ ∀ kvs, value = .dict kvs → depth ≤ MAX_DEPTH →
        ∃ out, r.1 = .dict out ∧ (Assoc.keys out).Nodup
          ∧ List.Forall₂ (Copied rules depth) (kept depth kvs) out := by
  refine ⟨transform_puts depth key value p r h, ?_⟩
  rintro kvs rfl hdepth
  exact transform_dict hdepth h

end Walks

/-! ## Two keys that become one -/

namespace Renamed

def rules : Rules Unit where
  secretKey k := k = "password"
  serialKey _ := false
  rewrite s st := .ok (if s = "b" then "a" else s, st)

def member : Value :=
  .dict [("a", .str "b"), ("b", .int 1), ("stdout", .str "x"), ("password", .str "y")]

def copy : Value := .dict [("a", .str "a"), ("a#", .int 1), ("password", REMOVED)]

def done : Pass Unit :=
  { state := (), removedFields := 1, rawFieldsDropped := 1, emitted := ["a", "b", "b", "password"] }

theorem member_copied : transform rules 0 "" member { state := () } = .ok (copy, done) := by
  rfl

theorem member_covered :
    (∃ more, done.emitted = [] ++ more
        ∧ ∀ t ∈ more, t ∈ (discover rules 0 "" member).filterMap Offer.text?)
      ∧ ∀ kvs, member = .dict kvs → 0 ≤ MAX_DEPTH →
        ∃ out, copy = .dict out ∧ (Assoc.keys out).Nodup
          ∧ List.Forall₂ (Copied rules 0) (kept 0 kvs) out :=
  discovery_covers member_copied

end Renamed

end IpaDiagnose.Bundle
