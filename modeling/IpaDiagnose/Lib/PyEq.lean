import IpaDiagnose.Lib.Assoc
import IpaDiagnose.Lib.PyValue

/-!
# Equality of dynamic values

`==` compares numbers across their types and dictionaries without regard
to order. It is transitive, and symmetric on values whose dictionaries
have each key once; it is not reflexive, since a number may be none. Two
values are the same when they are equal or one and the same, which is an
equivalence.
-/

namespace Py

/-! ## Well-formed values -/

mutual

/-- No dictionary in the value has a key twice. -/
def Value.WellFormed : Value → Prop
  | .list xs => WellFormedList xs
  | .dict kvs => (Assoc.keys kvs).Nodup ∧ WellFormedDict kvs
  | _ => True

def WellFormedList : List Value → Prop
  | [] => True
  | x :: xs => x.WellFormed ∧ WellFormedList xs

def WellFormedDict : List (String × Value) → Prop
  | [] => True
  | (_, x) :: kvs => x.WellFormed ∧ WellFormedDict kvs

end

theorem wellFormedList_iff {xs : List Value} : WellFormedList xs ↔ ∀ x ∈ xs, x.WellFormed := by
  induction xs with
  | nil => simp [WellFormedList]
  | cons x xs ih => simp [WellFormedList, ih]

theorem wellFormedDict_iff {kvs : Dict} : WellFormedDict kvs ↔ ∀ e ∈ kvs, e.2.WellFormed := by
  induction kvs with
  | nil => simp [WellFormedDict]
  | cons e kvs ih => simp [WellFormedDict, ih]

/-! ## Numbers -/

theorem numEq_symm {a b : Float64} (h : Value.numEq a b = true) : Value.numEq b a = true := by
  unfold Value.numEq at h ⊢
  cases ha : a.rat? <;> cases hb : b.rat? <;> rw [ha, hb] at h <;> dsimp only at h ⊢
  · obtain ⟨hnan, heq⟩ := Bool.and_eq_true_iff.mp h
    obtain rfl := eq_of_beq heq
    exact h
  · cases h
  · cases h
  · rw [eq_of_beq h]
    exact beq_self_eq_true _

theorem numEq_trans {a b c : Float64} (h : Value.numEq a b = true)
    (h' : Value.numEq b c = true) : Value.numEq a c = true := by
  unfold Value.numEq at h h' ⊢
  cases hb : b.rat? with
  | none =>
      rw [hb] at h h'
      cases ha : a.rat? with
      | some p => rw [ha] at h; cases h
      | none =>
          cases hc : c.rat? with
          | some q => rw [hc] at h'; cases h'
          | none =>
              rw [ha] at h
              rw [hc] at h'
              dsimp only at h h' ⊢
              obtain ⟨hnan, heq⟩ := Bool.and_eq_true_iff.mp h
              obtain rfl := eq_of_beq heq
              exact h'
  | some q =>
      rw [hb] at h h'
      cases ha : a.rat? with
      | none => rw [ha] at h; cases h
      | some p =>
          cases hc : c.rat? with
          | none => rw [hc] at h'; cases h'
          | some r =>
              rw [ha] at h
              rw [hc] at h'
              dsimp only at h h' ⊢
              rw [eq_of_beq h, eq_of_beq h']
              exact beq_self_eq_true r

/-- A number is equal to the numbers of the same value. -/
theorem pyEq_num {a b : Value} {x : Float64} (ha : a.num? = some x) :
    a.pyEq b = true ↔ ∃ y, b.num? = some y ∧ Value.numEq x y = true := by
  have hV : ∀ {x : Float64} {b : Value},
      Value.numEqV x b = true ↔ ∃ y, b.num? = some y ∧ Value.numEq x y = true := by
    intro x b
    cases b <;> simp [Value.numEqV, Value.num?]
  cases a with
  | bool b' => obtain rfl := Option.some.inj ha; simpa [Value.pyEq] using hV
  | int n => obtain rfl := Option.some.inj ha; simpa [Value.pyEq] using hV
  | float f => obtain rfl := Option.some.inj ha; simpa [Value.pyEq] using hV
  | null => cases ha
  | str s => cases ha
  | list xs => cases ha
  | dict kvs => cases ha

theorem pyEq_num_symm {a b : Value} {x : Float64} (ha : a.num? = some x) (h : a.pyEq b = true) :
    b.pyEq a = true := by
  obtain ⟨y, hb, heq⟩ := (pyEq_num ha).mp h
  exact (pyEq_num hb).mpr ⟨x, ha, numEq_symm heq⟩

theorem pyEq_num_trans {a b c : Value} {x : Float64} (ha : a.num? = some x)
    (h : a.pyEq b = true) (h' : b.pyEq c = true) : a.pyEq c = true := by
  obtain ⟨y, hb, heq⟩ := (pyEq_num ha).mp h
  obtain ⟨z, hc, heq'⟩ := (pyEq_num hb).mp h'
  exact (pyEq_num ha).mpr ⟨z, hc, numEq_trans heq heq'⟩

/-! ## Containers -/

theorem pyEq_null {b : Value} : Value.null.pyEq b = true ↔ b = .null := by
  cases b <;> simp [Value.pyEq]

theorem pyEq_str {s : String} {b : Value} : (Value.str s).pyEq b = true ↔ b = .str s := by
  cases b with
  | str t => rw [Value.pyEq, beq_iff_eq, Value.str.injEq, eq_comm]
  | _ => simp [Value.pyEq]

theorem pyEq_list {xs : List Value} {b : Value} :
    (Value.list xs).pyEq b = true ↔ ∃ ys, b = .list ys ∧ Value.pyEqList xs ys = true := by
  cases b <;> simp [Value.pyEq]

theorem pyEq_dict {kvs : Dict} {b : Value} :
    (Value.dict kvs).pyEq b = true
      ↔ ∃ lvs, b = .dict lvs ∧ kvs.length = lvs.length ∧ Value.pyEqDict kvs lvs = true := by
  cases b <;> simp [Value.pyEq]

theorem pyEqDict_iff {kvs lvs : Dict} :
    Value.pyEqDict kvs lvs = true
      ↔ ∀ e ∈ kvs, ∃ y, lvs.lookup e.1 = some y ∧ e.2.pyEq y = true := by
  induction kvs with
  | nil => simp [Value.pyEqDict]
  | cons e kvs ih =>
      obtain ⟨k, x⟩ := e
      rw [Value.pyEqDict, Bool.and_eq_true, ih, List.forall_mem_cons]
      refine and_congr_left fun _ => ?_
      cases hlookup : lvs.lookup k with
      | none => simp
      | some y => simp

/-- As many keys as the other dictionary has, and all of them there. -/
theorem keys_subset {kvs lvs : Dict} (hkvs : (Assoc.keys kvs).Nodup)
    (hlen : kvs.length = lvs.length) (h : Assoc.keys kvs ⊆ Assoc.keys lvs) :
    Assoc.keys lvs ⊆ Assoc.keys kvs := by
  have hsub : List.Subperm (Assoc.keys kvs) (Assoc.keys lvs) := List.subperm_of_subset hkvs h
  have hle : (Assoc.keys lvs).length ≤ (Assoc.keys kvs).length := by
    simp [Assoc.keys, hlen]
  exact (hsub.perm_of_length_le hle).symm.subset

/-! ## Symmetric and transitive -/

mutual

theorem pyEq_trans : ∀ {a b c : Value}, a.pyEq b = true → b.pyEq c = true → a.pyEq c = true
  | .null, b, c, h, h' => by
      rw [pyEq_null.mp h] at h'
      exact h'
  | .str s, b, c, h, h' => by
      rw [pyEq_str.mp h] at h'
      exact h'
  | .bool _, b, c, h, h' => pyEq_num_trans rfl h h'
  | .int _, b, c, h, h' => pyEq_num_trans rfl h h'
  | .float _, b, c, h, h' => pyEq_num_trans rfl h h'
  | .list xs, b, c, h, h' => by
      obtain ⟨ys, rfl, hys⟩ := pyEq_list.mp h
      obtain ⟨zs, rfl, hzs⟩ := pyEq_list.mp h'
      exact pyEq_list.mpr ⟨zs, rfl, pyEqList_trans hys hzs⟩
  | .dict kvs, b, c, h, h' => by
      obtain ⟨lvs, rfl, hlen, hlvs⟩ := pyEq_dict.mp h
      obtain ⟨mvs, rfl, hlen', hmvs⟩ := pyEq_dict.mp h'
      refine pyEq_dict.mpr ⟨mvs, rfl, hlen.trans hlen', pyEqDict_iff.mpr ?_⟩
      exact pyEqDict_trans kvs (pyEqDict_iff.mp hlvs) (pyEqDict_iff.mp hmvs)

theorem pyEqList_trans : ∀ {xs ys zs : List Value}, Value.pyEqList xs ys = true →
    Value.pyEqList ys zs = true → Value.pyEqList xs zs = true
  | [], [], [], _, _ => rfl
  | x :: xs, y :: ys, z :: zs, h, h' => by
      rw [Value.pyEqList, Bool.and_eq_true] at h h' ⊢
      exact ⟨pyEq_trans h.1 h'.1, pyEqList_trans h.2 h'.2⟩

theorem pyEqDict_trans : ∀ (kvs : List (String × Value)) {lvs mvs : Dict},
    (∀ e ∈ kvs, ∃ y, lvs.lookup e.1 = some y ∧ e.2.pyEq y = true) →
    (∀ e ∈ lvs, ∃ z, mvs.lookup e.1 = some z ∧ e.2.pyEq z = true) →
      ∀ e ∈ kvs, ∃ z, mvs.lookup e.1 = some z ∧ e.2.pyEq z = true
  | [], _, _, _, _ => fun e he => absurd he List.not_mem_nil
  | (k, x) :: kvs, lvs, mvs, h, h' => by
      intro e he
      rcases List.mem_cons.mp he with rfl | he
      · obtain ⟨y, hy, hxy⟩ := h _ List.mem_cons_self
        obtain ⟨z, hz, hyz⟩ := h' _ (Assoc.mem_of_lookup hy)
        exact ⟨z, hz, pyEq_trans hxy hyz⟩
      · exact pyEqDict_trans kvs (fun e he => h e (List.mem_cons_of_mem _ he)) h' e he

end

mutual

theorem pyEq_symm : ∀ {a b : Value}, a.WellFormed → b.WellFormed → a.pyEq b = true →
    b.pyEq a = true
  | .null, b, _, _, h => by
      rw [pyEq_null.mp h]
      rfl
  | .str s, b, _, _, h => by
      rw [pyEq_str.mp h]
      exact pyEq_str.mpr rfl
  | .bool _, b, _, _, h => pyEq_num_symm rfl h
  | .int _, b, _, _, h => pyEq_num_symm rfl h
  | .float _, b, _, _, h => pyEq_num_symm rfl h
  | .list xs, b, ha, hb, h => by
      obtain ⟨ys, rfl, hys⟩ := pyEq_list.mp h
      rw [Value.WellFormed] at ha hb
      exact pyEq_list.mpr ⟨xs, rfl, pyEqList_symm ha hb hys⟩
  | .dict kvs, b, ha, hb, h => by
      obtain ⟨lvs, rfl, hlen, hlvs⟩ := pyEq_dict.mp h
      rw [Value.WellFormed] at ha hb
      have hback := pyEqDict_symm kvs ha.2 (wellFormedDict_iff.mp hb.2) (pyEqDict_iff.mp hlvs)
      have hkeys : Assoc.keys kvs ⊆ Assoc.keys lvs := by
        intro k hk
        obtain ⟨x, hx⟩ := Assoc.mem_keys.mp hk
        obtain ⟨y, hy, -⟩ := hback _ hx
        exact Assoc.mem_keys.mpr ⟨y, Assoc.mem_of_lookup hy⟩
      refine pyEq_dict.mpr ⟨kvs, rfl, hlen.symm, pyEqDict_iff.mpr ?_⟩
      rintro ⟨k, y⟩ he
      obtain ⟨x, hx⟩ := Assoc.mem_keys.mp
        (keys_subset ha.1 hlen hkeys (Assoc.mem_keys.mpr ⟨y, he⟩))
      obtain ⟨y', hy', hyx⟩ := hback _ hx
      rw [Assoc.lookup_of_mem hb.1 he] at hy'
      obtain rfl := Option.some.inj hy'
      exact ⟨x, Assoc.lookup_of_mem ha.1 hx, hyx⟩

theorem pyEqList_symm : ∀ {xs ys : List Value}, WellFormedList xs → WellFormedList ys →
    Value.pyEqList xs ys = true → Value.pyEqList ys xs = true
  | [], [], _, _, _ => rfl
  | x :: xs, y :: ys, hxs, hys, h => by
      rw [WellFormedList] at hxs hys
      rw [Value.pyEqList, Bool.and_eq_true] at h ⊢
      exact ⟨pyEq_symm hxs.1 hys.1 h.1, pyEqList_symm hxs.2 hys.2 h.2⟩

theorem pyEqDict_symm : ∀ (kvs : List (String × Value)) {lvs : Dict}, WellFormedDict kvs →
    (∀ e ∈ lvs, e.2.WellFormed) →
    (∀ e ∈ kvs, ∃ y, lvs.lookup e.1 = some y ∧ e.2.pyEq y = true) →
      ∀ e ∈ kvs, ∃ y, lvs.lookup e.1 = some y ∧ y.pyEq e.2 = true
  | [], _, _, _, _ => fun e he => absurd he List.not_mem_nil
  | (k, x) :: kvs, lvs, hkvs, hlvs, h => by
      rw [WellFormedDict] at hkvs
      intro e he
      rcases List.mem_cons.mp he with rfl | he
      · obtain ⟨y, hy, hxy⟩ := h _ List.mem_cons_self
        exact ⟨y, hy, pyEq_symm hkvs.1 (hlvs _ (Assoc.mem_of_lookup hy)) hxy⟩
      · exact pyEqDict_symm kvs hkvs.2 hlvs (fun e he => h e (List.mem_cons_of_mem _ he)) e he

end

/-! ## The same value -/

/-- One and the same value, or equal ones. -/
def Same (a b : Value) : Prop := a = b ∨ a.pyEq b = true

theorem Same.refl (a : Value) : Same a a := .inl rfl

theorem Same.symm {a b : Value} (ha : a.WellFormed) (hb : b.WellFormed) (h : Same a b) :
    Same b a := by
  rcases h with rfl | h
  · exact .refl a
  · exact .inr (pyEq_symm ha hb h)

theorem Same.trans {a b c : Value} (h : Same a b) (h' : Same b c) : Same a c := by
  rcases h with rfl | h
  · exact h'
  · rcases h' with rfl | h'
    · exact .inr h
    · exact .inr (pyEq_trans h h')

end Py
