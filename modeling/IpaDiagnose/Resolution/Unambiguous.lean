import IpaDiagnose.Resolution.Allowed
import IpaDiagnose.Resolution.Criteria

/-!
# Selection is unambiguous

An accepted catalogue has no id and no target twice. The entry for a
diagnosis and variant, and the procedure that a saved fix names, is then
the only one there is, and the order of the entries does not matter.
-/

namespace IpaDiagnose.Resolver

open Py (Value)
open Result

/-! ## No id and no target twice -/

/-- No two entries have one id, and no later one the target of an earlier one. -/
structure Unambiguous (cat : List Entry) : Prop where
  ids : (cat.map Entry.id).Nodup
  targets : cat.Pairwise fun a b => sameTarget b.target a.target = false

/-- What was seen before an entry was is not seen again. -/
theorem validateEntries_unambiguous {registry : Registry} {vs : List Value} {seen : List String}
    {targets : List (Value × Value)} {cat : List Entry}
    (h : validateEntries registry seen targets vs = .ok cat) :
    Unambiguous cat ∧ (∀ e ∈ cat, e.id ∉ seen)
      ∧ ∀ e ∈ cat, ∀ t ∈ targets, sameTarget e.target t = false := by
  induction vs generalizing seen targets cat with
  | nil =>
      obtain rfl := Except.ok.inj h
      exact ⟨⟨.nil, .nil⟩, fun _ he => absurd he List.not_mem_nil,
        fun _ he => absurd he List.not_mem_nil⟩
  | cons v vs ih =>
      obtain ⟨entry, -, h⟩ := bind_ok.mp h
      obtain ⟨⟨⟩, hid, h⟩ := bind_ok.mp h
      have hid : entry.id ∉ seen := failIf_ok.mp hid
      split at h
      · cases h
      · obtain ⟨⟨⟩, htarget, h⟩ := bind_ok.mp h
        have htarget : ∀ t ∈ targets, sameTarget entry.target t = false := by
          intro t ht
          rw [← Bool.not_eq_true]
          exact fun hsame => failIf_ok.mp htarget (List.any_eq_true.mpr ⟨t, ht, hsame⟩)
        obtain ⟨rest, hrest, h⟩ := bind_ok.mp h
        obtain rfl := pure_ok.mp h
        obtain ⟨⟨hids, hpairs⟩, hfresh, hnew⟩ := ih hrest
        refine ⟨⟨?_, ?_⟩, ?_, ?_⟩
        · rw [List.map_cons, List.nodup_cons]
          refine ⟨fun hmem => ?_, hids⟩
          obtain ⟨e, he, heq⟩ := List.mem_map.mp hmem
          exact hfresh e he (heq ▸ List.mem_cons_self)
        · exact List.pairwise_cons.mpr
            ⟨fun e he => hnew e he entry.target List.mem_cons_self, hpairs⟩
        · intro e he
          rcases List.mem_cons.mp he with rfl | he
          · exact hid
          · exact fun hmem => hfresh e he (List.mem_cons_of_mem _ hmem)
        · intro e he t ht
          rcases List.mem_cons.mp he with rfl | he
          · exact htarget t ht
          · exact hnew e he t (List.mem_cons_of_mem _ ht)

theorem validateCatalogue_unambiguous {registry : Registry} {data : Value} {cat : List Entry}
    (h : validateCatalogue registry data = .ok cat) : Unambiguous cat := by
  unfold validateCatalogue at h
  split at h
  · dsimp only at h
    split at h
    · split at h
      · exact (validateEntries_unambiguous h).1
      · cases h
    · cases h
  · cases h

/-! ## The entry for a diagnosis -/

/-- A variant as the catalogue has it. -/
def variantValue : Option String → Value
  | some v => .str v
  | none => .null

theorem eq_str_of_pyEq {v : Value} {s : String} (h : v.pyEq (.str s) = true) : v = .str s := by
  cases v with
  | str t =>
      rw [Value.pyEq, beq_iff_eq] at h
      rw [h]
  | _ => simp [Value.pyEq, Value.numEqV] at h

theorem eq_null_of_pyEq {v : Value} (h : v.pyEq .null = true) : v = .null := by
  cases v with
  | null => rfl
  | _ => simp [Value.pyEq, Value.numEqV] at h

theorem pyEq_variant {v : Value} {variant : Option String} :
    v.pyEq (variantValue variant) = true ↔ v = variantValue variant := by
  cases variant with
  | none =>
      refine ⟨eq_null_of_pyEq, ?_⟩
      rintro rfl
      rfl
  | some s =>
      refine ⟨eq_str_of_pyEq, ?_⟩
      rintro rfl
      simp [variantValue, Value.pyEq]

/-- The entry is for a diagnosis and its variant. -/
def Entry.isFor (key : String) (variant : Option String) (e : Entry) : Bool :=
  e.target.1.pyEq (.str key) && e.target.2.pyEq (variantValue variant)

theorem Entry.isFor_iff {key : String} {variant : Option String} {e : Entry} :
    e.isFor key variant = true ↔ e.target = (.str key, variantValue variant) := by
  rw [Entry.isFor, Bool.and_eq_true, pyEq_variant, Prod.ext_iff]
  refine and_congr_left fun _ => ⟨eq_str_of_pyEq, fun h => ?_⟩
  rw [h]
  simp [Value.pyEq]

theorem selected_eq (cat : List Entry) (key : String) (variant : Option String) :
    selected cat key variant
      = ((cat.filter (Entry.isFor key variant)).mergeSort fun a b => PyStr.le a.id b.id).head? := by
  cases variant with
  | none => rfl
  | some v => rfl

theorem Unambiguous.filter_isFor {cat : List Entry} (h : Unambiguous cat) (key : String)
    (variant : Option String) : cat.filter (Entry.isFor key variant) = []
      ∨ ∃ e, cat.filter (Entry.isFor key variant) = [e] := by
  have hpairs := h.targets.filter (Entry.isFor key variant)
  cases hfound : cat.filter (Entry.isFor key variant) with
  | nil => exact .inl rfl
  | cons a found =>
      cases found with
      | nil => exact .inr ⟨a, rfl⟩
      | cons b found =>
          have htarget : ∀ e ∈ a :: b :: found, e.target = (.str key, variantValue variant) := by
            intro e he
            rw [← hfound] at he
            exact Entry.isFor_iff.mp (List.of_mem_filter he)
          rw [hfound] at hpairs
          have hdiff := (List.pairwise_cons.mp hpairs).1 b List.mem_cons_self
          rw [htarget a List.mem_cons_self, htarget b (by simp), sameTarget,
            pyEq_variant.mpr rfl] at hdiff
          simp [Value.pyEq] at hdiff

theorem Unambiguous.selected_iff {cat : List Entry} (h : Unambiguous cat) {key : String}
    {variant : Option String} {e : Entry} : selected cat key variant = some e
      ↔ e ∈ cat ∧ e.target = (.str key, variantValue variant) := by
  rw [← Entry.isFor_iff, ← List.mem_filter, selected_eq]
  rcases h.filter_isFor key variant with hfound | ⟨a, hfound⟩
  · rw [hfound]
    simp
  · rw [hfound, List.mergeSort_singleton, List.head?_cons, List.mem_singleton, Option.some.injEq]
    exact eq_comm

/-- In whatever order the entries stand, the same one is selected. -/
theorem Unambiguous.selected_perm {cat cat' : List Entry} (h : Unambiguous cat)
    (hperm : cat.Perm cat') (key : String) (variant : Option String) :
    selected cat' key variant = selected cat key variant := by
  have hfilter := hperm.filter (Entry.isFor key variant)
  rw [selected_eq, selected_eq]
  rcases h.filter_isFor key variant with hfound | ⟨a, hfound⟩
  · rw [hfound] at hfilter ⊢
    rw [List.nil_perm.mp hfilter]
  · rw [hfound] at hfilter ⊢
    rw [← List.singleton_perm.mp hfilter]

theorem Unambiguous.resolveDiagnosis_perm {σ : Type} {cat cat' : List Entry} (h : Unambiguous cat)
    (hperm : cat.Perm cat') (sha256 : String → String) (d : Diagnosis)
    (env : Option EnvironmentInfo) (runner : Runner σ) (s : σ) :
    resolveDiagnosis sha256 cat' d env runner s = resolveDiagnosis sha256 cat d env runner s := by
  unfold resolveDiagnosis
  cases d.resolutionKey with
  | none => rfl
  | some key =>
      dsimp only
      rw [h.selected_perm hperm]

/-! ## The procedure with an id -/

theorem procedureWith_iff {cat : List Entry} (h : (cat.map Entry.id).Nodup) {id : String}
    {p : Procedure} :
    procedureWith cat (.str id) = some p ↔ .procedure p ∈ cat ∧ p.id = id := by
  induction cat with
  | nil => simp [procedureWith]
  | cons e cat ih =>
      rw [List.map_cons, List.nodup_cons] at h
      have ih := ih h.2
      unfold procedureWith at ih ⊢
      rw [List.findSome?_cons]
      cases e with
      | noProcedure i d v r =>
          dsimp only
          rw [ih, List.mem_cons]
          simp
      | procedure q =>
          dsimp only
          by_cases hid : q.id = id
          · rw [if_pos (by simp [Value.pyEq, hid])]
            constructor
            · intro hq
              obtain rfl := Option.some.inj hq
              exact ⟨List.mem_cons_self, hid⟩
            · rintro ⟨hmem, hp⟩
              rcases List.mem_cons.mp hmem with heq | hmem
              · rw [Entry.procedure.inj heq]
              · exact absurd (List.mem_map.mpr ⟨_, hmem, hp.trans hid.symm⟩) h.1
          · rw [if_neg (by simp [Value.pyEq, hid])]
            dsimp only
            rw [ih, List.mem_cons]
            refine and_congr_left fun hp => (or_iff_right ?_).symm
            intro heq
            rw [Entry.procedure.inj heq] at hp
            exact hid hp

/-- The entry for a diagnosis, and the procedure with an id, of an accepted
catalogue are the only ones, and the order of the entries does not matter. -/
theorem catalogue_unambiguous {registry : Registry} {data : Value} {cat : List Entry}
    (h : validateCatalogue registry data = .ok cat) :
    (∀ key variant e, selected cat key variant = some e
        ↔ e ∈ cat ∧ e.target = (.str key, variantValue variant))
      ∧ (∀ id p, procedureWith cat (.str id) = some p ↔ .procedure p ∈ cat ∧ p.id = id)
      ∧ ∀ cat', cat.Perm cat' → ∀ {σ : Type} (sha256 : String → String) (d : Diagnosis)
        (env : Option EnvironmentInfo) (runner : Runner σ) (s : σ),
        resolveDiagnosis sha256 cat' d env runner s
          = resolveDiagnosis sha256 cat d env runner s := by
  have hcat := validateCatalogue_unambiguous h
  exact ⟨fun _ _ _ => hcat.selected_iff, fun _ _ => procedureWith_iff hcat.ids,
    fun _ hperm _ sha256 d env runner s => hcat.resolveDiagnosis_perm hperm sha256 d env runner s⟩

namespace Explained

/-- A diagnosis without a procedure, and a variant of it. -/
def noProcedure (id : String) (resolves : List (String × Value)) : Value :=
  .dict [("kind", .str "no_procedure"), ("id", .str id), ("resolves", .dict resolves),
    ("reason", .str "It needs a decision.")]

def data : Value :=
  .dict [("schema", .int 1), ("procedures", .list
    [noProcedure "web-a" [("diagnosis", .str "web.stopped")],
      noProcedure "web-b" [("diagnosis", .str "web.stopped"), ("variant", .str "masked")]])]

def plain : Entry := .noProcedure "web-a" (.str "web.stopped") .null "It needs a decision."

def masked : Entry :=
  .noProcedure "web-b" (.str "web.stopped") (.str "masked") "It needs a decision."

end Explained

open Explained in
theorem catalogue_unambiguous_masked :
    validateCatalogue [] data = .ok [plain, masked]
      ∧ selected [plain, masked] "web.stopped" (some "masked") = some masked := by
  have hcat : validateCatalogue [] data = .ok [plain, masked] := by rfl
  exact ⟨hcat, ((catalogue_unambiguous hcat).1 "web.stopped" (some "masked") masked).mpr
    ⟨by simp, rfl⟩⟩

end IpaDiagnose.Resolver
