import Mathlib.Data.List.Induction
import Mathlib.Data.List.Perm.Lattice
import IpaDiagnose.Environment.Graph

/-!
# What the graph keeps of contradicting reports

Reports about one thing end in one fact. What it says depends on the first
established value and the first that differs from it: `shape_factAfter`.
So two values that contradict each other are kept whatever their order,
and a third is not; `contradictions_kept_iff` says exactly when the fact
says all that was established.
-/

namespace IpaDiagnose.Environment

open Py (Value Dict Same)

/-! ## Values that were established -/

/-- The value a report establishes, as the graph keeps it. -/
def establishedBy (r : Report) : Option Value :=
  if r.fact.state = .established then some r.fact.value else none

def established (reports : List Report) : List Value := reports.filterMap establishedBy

def stateOf (g : Graph) (key : Key) : Option State := (g.facts.lookup key).map Fact.state

/-- The values a fact has. -/
def Fact.values (f : Fact) : List Value := (f.value :: f.conflicting).filter (· ≠ .null)

def valuesOf (g : Graph) (key : Key) : List Value := ((g.facts.lookup key).map Fact.values).getD []

/-- Every value of one list is in the other, up to equality. -/
def SameValues (xs ys : List Value) : Prop :=
  (∀ x ∈ xs, ∃ y ∈ ys, Same x y) ∧ ∀ y ∈ ys, ∃ x ∈ xs, Same y x

/-- Two different values were established. -/
def Contradict (reports : List Report) : Prop :=
  ∃ a ∈ established reports, ∃ b ∈ established reports, ¬ Same a b

/-- Reports the graph has room for, and none of the thing before. -/
structure Admissible (g : Graph) (key : Key) (reports : List Report) : Prop where
  subject : key.subject ∈ g.entities
  new : g.facts.lookup key = none
  room : g.facts.length < MAX_FACTS
  sources : ∀ r ∈ reports, r.source = "LIVE" ∨ r.source = "REPLAY"

/-- The fact is contradicted just when two different values were
established, it has the values that were, and the order of the reports
does not matter for either. -/
def ContradictionsKept (g : Graph) (key : Key) (reports : List Report) : Prop :=
  ∃ g', g.addFacts key reports = .ok g'
    ∧ (stateOf g' key = some .contradicted ↔ Contradict reports)
    ∧ SameValues (valuesOf g' key) (established reports)
    ∧ ∀ reports', reports'.Perm reports → ∃ g'', g.addFacts key reports' = .ok g''
      ∧ stateOf g'' key = stateOf g' key ∧ SameValues (valuesOf g'' key) (valuesOf g' key)

/-- Reports that leave nothing out: none is given as a contradiction, none
gives a value that is not known while none is established, no more than
two different values are established, and none that differs from itself
twice. -/
structure Agreeable (reports : List Report) : Prop where
  states : ∀ r ∈ reports, r.state ≠ .contradicted
  unknown : established reports = [] → ∀ r ∈ reports, r.fact.value = .null
  two : ∀ a ∈ established reports, ∀ b ∈ established reports, ∀ c ∈ established reports,
    Same a b ∨ Same a c ∨ Same b c
  reflexive : ∀ v : Value, v.pyEq v = false → (established reports).count v ≤ 1

/-! ## Values that are kept are well-formed -/

mutual

theorem wellFormed_clean : ∀ v : Value, (clean v).WellFormed
  | .null => by simp only [clean, Value.WellFormed]
  | .bool _ => by simp only [clean, Value.WellFormed]
  | .int _ => by simp only [clean, Value.WellFormed]
  | .float _ => by simp only [clean, Value.WellFormed]
  | .str _ => by simp only [clean, Value.WellFormed]
  | .list xs => by
      rw [clean, Value.WellFormed, Py.wellFormedList_iff]
      exact wellFormed_cleanList 64 xs
  | .dict kvs => by
      rw [clean, Value.WellFormed, Py.wellFormedDict_iff]
      exact wellFormed_cleanDict 64 [] kvs List.nodup_nil fun e he => absurd he List.not_mem_nil

theorem wellFormed_cleanList : ∀ (room : Nat) (xs : List Value),
    ∀ x ∈ cleanList room xs, x.WellFormed
  | 0, xs, x, hx => by rw [cleanList] at hx; cases hx
  | room + 1, [], x, hx => by rw [cleanList] at hx; cases hx; exact nofun
  | room + 1, y :: xs, x, hx => by
      rw [cleanList] at hx
      rcases List.mem_cons.mp hx with rfl | hx
      · exact wellFormed_clean y
      · exact wellFormed_cleanList room xs x hx

theorem wellFormed_cleanDict : ∀ (room : Nat) (out : Dict) (kvs : List (String × Value)),
    (Assoc.keys out).Nodup → (∀ e ∈ out, e.2.WellFormed) →
      (Assoc.keys (cleanDict room out kvs)).Nodup
        ∧ ∀ e ∈ cleanDict room out kvs, e.2.WellFormed
  | 0, out, kvs, hnd, hall => by
      rw [cleanDict]
      exact ⟨hnd, hall⟩
  | room + 1, out, [], hnd, hall => by
      rw [cleanDict]
      · exact ⟨hnd, hall⟩
      · exact nofun
  | room + 1, out, (k, x) :: kvs, hnd, hall => by
      rw [cleanDict]
      refine wellFormed_cleanDict room _ kvs (Assoc.nodup_keys_put hnd) fun e he => ?_
      rcases Assoc.mem_put he with rfl | he
      · exact wellFormed_clean x
      · exact hall e he

end

theorem wellFormed_established {reports : List Report} {v : Value}
    (h : v ∈ established reports) : v.WellFormed := by
  obtain ⟨r, -, hr⟩ := List.mem_filterMap.mp h
  unfold establishedBy at hr
  split at hr
  · obtain rfl := Option.some.inj hr
    exact wellFormed_clean r.value
  · cases hr

/-- An established fact has a value. -/
theorem established_ne_null {reports : List Report} {v : Value}
    (h : v ∈ established reports) : v ≠ .null := by
  obtain ⟨r, -, hr⟩ := List.mem_filterMap.mp h
  unfold establishedBy at hr
  split at hr
  · rename_i hstate
    obtain rfl := Option.some.inj hr
    intro hnull
    have hvalue : clean r.value = .null := hnull
    simp only [Report.fact, hvalue, true_and] at hstate
    split at hstate
    · cases hstate
    · rename_i hne
      exact hne hstate
  · cases hr

theorem same_symm {reports : List Report} {a b : Value} (ha : a ∈ established reports)
    (hb : b ∈ established reports) (h : Same a b) : Same b a :=
  h.symm (wellFormed_established ha) (wellFormed_established hb)

theorem established_perm {reports reports' : List Report} (h : reports'.Perm reports) :
    (established reports').Perm (established reports) := h.filterMap _

/-! ## The fact after some reports -/

/-- The fact after one more report. -/
def next (f : Option Fact) (r : Report) : Fact :=
  match f with
  | none => r.fact
  | some old => merge old r.fact

def factAfter (reports : List Report) : Option Fact :=
  reports.foldl (fun f r => some (next f r)) none

theorem factAfter_snoc (reports : List Report) (r : Report) :
    factAfter (reports ++ [r]) = some (next (factAfter reports) r) := by
  simp [factAfter]

/-- One report, and the fact that is known then. -/
theorem addFact_next {g : Graph} {key : Key} {r : Report} (hsubject : key.subject ∈ g.entities)
    (hroom : g.facts.lookup key = none → g.facts.length < MAX_FACTS)
    (hsource : r.source = "LIVE" ∨ r.source = "REPLAY") :
    ∃ g', g.addFact (some key.subject) key.name key.observedFrom r = .ok g'
      ∧ g'.entities = g.entities
      ∧ g'.facts.lookup key = some (next (g.facts.lookup key) r) := by
  have hvalid : ¬ (r.source ≠ "LIVE" ∧ r.source ≠ "REPLAY") := by
    rintro ⟨hlive, hreplay⟩
    exact hsource.elim hlive hreplay
  unfold Graph.addFact
  dsimp only
  rw [if_neg (not_not.mpr hsubject), if_neg hvalid]
  cases hold : g.facts.lookup key with
  | some old =>
      refine ⟨_, rfl, rfl, ?_⟩
      exact Assoc.lookup_put_self
  | none =>
      dsimp only
      rw [if_neg (Nat.not_le.mpr (hroom hold))]
      exact ⟨_, rfl, rfl, Assoc.lookup_put_self⟩

theorem addFacts_from {key : Key} {reports : List Report} : ∀ {g : Graph},
    key.subject ∈ g.entities → (g.facts.lookup key = none → g.facts.length < MAX_FACTS) →
    (∀ r ∈ reports, r.source = "LIVE" ∨ r.source = "REPLAY") →
      ∃ g', g.addFacts key reports = .ok g' ∧ g'.facts.lookup key
        = reports.foldl (fun f r => some (next f r)) (g.facts.lookup key) := by
  induction reports with
  | nil => exact fun _ _ _ => ⟨_, rfl, rfl⟩
  | cons r reports ih =>
      intro g hsubject hroom hsources
      obtain ⟨g₁, hadd, hentities, hlookup⟩ :=
        addFact_next hsubject hroom (hsources r List.mem_cons_self)
      have hroom₁ : g₁.facts.lookup key = none → g₁.facts.length < MAX_FACTS := by
        rw [hlookup]
        exact nofun
      obtain ⟨g₂, hrest, hfinal⟩ := ih (hentities ▸ hsubject) hroom₁
        fun r' hr' => hsources r' (List.mem_cons_of_mem r hr')
      refine ⟨g₂, ?_, ?_⟩
      · rw [Graph.addFacts, List.foldlM_cons, hadd]
        exact hrest
      · rw [hfinal, hlookup, List.foldl_cons]

theorem Admissible.addFacts {g : Graph} {key : Key} {reports : List Report}
    (h : Admissible g key reports) :
    ∃ g', g.addFacts key reports = .ok g' ∧ g'.facts.lookup key = factAfter reports := by
  have hall := addFacts_from h.subject (fun _ => h.room) h.sources
  rwa [h.new] at hall

theorem Admissible.perm {g : Graph} {key : Key} {reports reports' : List Report}
    (h : Admissible g key reports) (hperm : reports'.Perm reports) :
    Admissible g key reports' :=
  ⟨h.subject, h.new, h.room, fun r hr => h.sources r (hperm.mem_iff.mp hr)⟩

/-! ## The shape of the fact -/

/-- The first established value, and the first that differs from it. -/
def Shape (reports : List Report) (f : Fact) : Prop :=
  match established reports with
  | [] => f.state = .unknown ∧ f.conflicting = []
      ∧ (reports.head?.map fun r => r.fact.value) = some f.value
  | e :: rest => f.value = e ∧
      match rest.find? fun x => !e.pyEq x with
      | none => f.state = .established ∧ f.conflicting = []
      | some d => f.state = .contradicted ∧ f.conflicting = [d]

@[simp] theorem fact_conflicting (r : Report) : r.fact.conflicting = [] := rfl

theorem fact_state {r : Report} (h : r.state ≠ .contradicted) :
    (establishedBy r = some r.fact.value ∧ r.fact.state = .established)
      ∨ (establishedBy r = none ∧ r.fact.state = .unknown) := by
  unfold establishedBy
  by_cases hstate : r.fact.state = .established
  · exact .inl ⟨if_pos hstate, hstate⟩
  · refine .inr ⟨if_neg hstate, ?_⟩
    simp only [Report.fact] at hstate ⊢
    split
    · rfl
    · rename_i hne
      rw [if_neg hne] at hstate
      cases hr : r.state with
      | established => exact absurd hr hstate
      | unknown => rfl
      | contradicted => exact absurd hr h

theorem established_snoc (reports : List Report) (r : Report) :
    established (reports ++ [r]) = established reports ++ (establishedBy r).toList := by
  cases hr : establishedBy r <;> simp [established, hr]

theorem shape_single {r : Report} (h : r.state ≠ .contradicted) : Shape [r] r.fact := by
  unfold Shape
  rcases fact_state h with ⟨hr, hstate⟩ | ⟨hr, hstate⟩
  · simp [established, hr, hstate]
  · simp [established, hr, hstate]

/-- One more report changes the fact where its value is the first, or the
first that differs. -/
theorem Shape.merge {reports : List Report} {r : Report} {old : Fact} (hne : reports ≠ [])
    (h : Shape reports old) (hr : r.state ≠ .contradicted) :
    Shape (reports ++ [r]) (merge old r.fact) := by
  have hhead : (reports ++ [r]).head? = reports.head? := List.head?_append_of_ne_nil _ hne
  unfold Shape at h ⊢
  rw [established_snoc, hhead]
  cases hest : established reports with
  | nil =>
      rw [hest] at h
      dsimp only at h
      obtain ⟨hstate, hconflict, hvalue⟩ := h
      rcases fact_state hr with ⟨hby, hnew⟩ | ⟨hby, hnew⟩
      · rw [hby]
        simp [Environment.merge, hstate, hnew]
      · rw [hby]
        simp [Environment.merge, hstate, hnew, hconflict, hvalue]
  | cons e rest =>
      rw [hest] at h
      dsimp only at h
      obtain ⟨hvalue, h⟩ := h
      cases hfind : rest.find? fun x => !e.pyEq x with
      | some d =>
          rw [hfind] at h
          obtain ⟨hstate, hconflict⟩ : old.state = .contradicted ∧ old.conflicting = [d] := h
          have hkeep : Environment.merge old r.fact = old := by
            simp [Environment.merge, hstate]
          simp [hkeep, hvalue, hstate, hconflict, List.find?_append, hfind]
      | none =>
          rw [hfind] at h
          obtain ⟨hstate, hconflict⟩ : old.state = .established ∧ old.conflicting = [] := h
          rcases fact_state hr with ⟨hby, hnew⟩ | ⟨hby, hnew⟩
          · rw [hby]
            cases heq : e.pyEq r.fact.value with
            | true =>
                simp [Environment.merge, hstate, hnew, hvalue, heq, hconflict, List.find?_append,
                  hfind]
            | false =>
                simp [Environment.merge, hstate, hnew, hvalue, heq, hconflict, List.find?_append,
                  hfind]
          · rw [hby]
            simp [Environment.merge, hstate, hnew, hvalue, hconflict, hfind]

theorem shape_factAfter {reports : List Report} (h : ∀ r ∈ reports, r.state ≠ .contradicted)
    (hne : reports ≠ []) : ∃ f, factAfter reports = some f ∧ Shape reports f := by
  induction reports using List.reverseRecOn with
  | nil => exact absurd rfl hne
  | append_singleton reports r ih =>
      have hr : r.state ≠ .contradicted := h r (by simp)
      rw [factAfter_snoc]
      refine ⟨_, rfl, ?_⟩
      by_cases hreports : reports = []
      · rw [hreports]
        exact shape_single hr
      · obtain ⟨f, hf, hshape⟩ := ih (fun r' hr' => h r' (by simp [hr'])) hreports
        rw [hf]
        exact hshape.merge hreports hr

/-! ## Nothing is left out -/

theorem values_single {f : Fact} (hvalue : f.value ≠ .null) (h : f.conflicting = []) :
    f.values = [f.value] := by
  simp [Fact.values, h, hvalue]

theorem values_pair {f : Fact} {d : Value} (hvalue : f.value ≠ .null) (hd : d ≠ .null)
    (h : f.conflicting = [d]) : f.values = [f.value, d] := by
  simp [Fact.values, h, hvalue, hd]

theorem Agreeable.perm {reports reports' : List Report} (h : Agreeable reports)
    (hperm : reports'.Perm reports) : Agreeable reports' := by
  have hmem : ∀ {v}, v ∈ established reports' ↔ v ∈ established reports :=
    (established_perm hperm).mem_iff
  refine ⟨fun r hr => h.states r (hperm.mem_iff.mp hr), fun hnone r hr => ?_, ?_, fun v hv => ?_⟩
  · refine h.unknown ?_ r (hperm.mem_iff.mp hr)
    exact (hnone ▸ established_perm hperm).nil_eq.symm
  · intro a ha b hb c hc
    exact h.two a (hmem.mp ha) b (hmem.mp hb) c (hmem.mp hc)
  · rw [(established_perm hperm).count_eq]
    exact h.reflexive v hv

/-- The fact that agreeable reports make. -/
theorem Agreeable.fact {reports : List Report} {f : Fact} (h : Agreeable reports)
    (hshape : Shape reports f) :
    (f.state = .contradicted ↔ Contradict reports)
      ∧ (f.state = .unknown ↔ established reports = [])
      ∧ SameValues f.values (established reports) := by
  unfold Shape at hshape
  cases hest : established reports with
  | nil =>
      rw [hest] at hshape
      obtain ⟨hstate, hconflict, hhead⟩ := hshape
      obtain ⟨r, hr, hvalue⟩ := Option.map_eq_some_iff.mp hhead
      have hnull : f.value = .null := by
        rw [← hvalue]
        exact h.unknown hest r (List.mem_of_mem_head? hr)
      refine ⟨?_, by simp [hstate], ?_⟩
      · simp [hstate, Contradict, hest]
      · simp [SameValues, Fact.values, hnull, hconflict]
  | cons e rest =>
      have hin : ∀ {v}, v ∈ e :: rest → v ∈ established reports := fun hv => hest ▸ hv
      rw [hest] at hshape
      obtain ⟨hvalue, hshape⟩ := hshape
      have he : f.value ≠ .null := hvalue ▸ established_ne_null (hin List.mem_cons_self)
      cases hfind : rest.find? fun x => !e.pyEq x with
      | none =>
          rw [hfind] at hshape
          obtain ⟨hstate, hconflict⟩ : f.state = .established ∧ f.conflicting = [] := hshape
          have hsame : ∀ v ∈ e :: rest, Same e v := by
            intro v hv
            rcases List.mem_cons.mp hv with rfl | hv
            · exact .refl v
            · exact .inr (by simpa using List.find?_eq_none.mp hfind v hv)
          refine ⟨?_, by simp [hstate], ?_⟩
          · simp only [hstate, reduceCtorEq, false_iff, Contradict, hest]
            rintro ⟨a, ha, b, hb, hne⟩
            exact hne ((same_symm (hin List.mem_cons_self) (hin ha) (hsame a ha)).trans (hsame b hb))
          · rw [values_single he hconflict, hvalue]
            refine ⟨fun x hx => ?_, fun y hy => ?_⟩
            · obtain rfl := List.mem_singleton.mp hx
              exact ⟨x, List.mem_cons_self, .refl x⟩
            · exact ⟨e, List.mem_singleton.mpr rfl,
                same_symm (hin List.mem_cons_self) (hin hy) (hsame y hy)⟩
      | some d =>
          rw [hfind] at hshape
          obtain ⟨hstate, hconflict⟩ : f.state = .contradicted ∧ f.conflicting = [d] := hshape
          have hd : d ∈ rest := List.mem_of_find?_eq_some hfind
          have hneq : e.pyEq d = false := by simpa using List.find?_some hfind
          have hdiffer : ¬ Same e d := by
            rintro (rfl | heq)
            · -- the same value twice, one that differs from itself
              have hcount := h.reflexive e hneq
              rw [hest, List.count_cons_self] at hcount
              have hpos := List.count_pos_iff.mpr hd
              omega
            · rw [heq] at hneq
              cases hneq
          have hed : e ∈ e :: rest ∧ d ∈ e :: rest :=
            ⟨List.mem_cons_self, List.mem_cons_of_mem e hd⟩
          refine ⟨?_, by simp [hstate], ?_⟩
          · simp only [hstate, true_iff, Contradict, hest]
            exact ⟨e, hed.1, d, hed.2, hdiffer⟩
          · rw [values_pair he (established_ne_null (hin hed.2)) hconflict, hvalue]
            refine ⟨fun x hx => ?_, fun y hy => ?_⟩
            · rcases List.mem_cons.mp hx with rfl | hx
              · exact ⟨x, hed.1, .refl x⟩
              · obtain rfl := List.mem_singleton.mp hx
                exact ⟨x, hed.2, .refl x⟩
            · rcases h.two e (hin hed.1) d (hin hed.2) y (hin hy) with hs | hs | hs
              · exact absurd hs hdiffer
              · exact ⟨e, by simp, same_symm (hin hed.1) (hin hy) hs⟩
              · exact ⟨d, by simp, same_symm (hin hed.2) (hin hy) hs⟩

/-! ## In terms of the fact -/

def stateAfter (reports : List Report) : Option State := (factAfter reports).map Fact.state

def valuesAfter (reports : List Report) : List Value :=
  ((factAfter reports).map Fact.values).getD []

/-- What is kept does not depend on the rest of the graph. -/
theorem contradictionsKept_iff {g : Graph} {key : Key} {reports : List Report}
    (h : Admissible g key reports) :
    ContradictionsKept g key reports
      ↔ (stateAfter reports = some .contradicted ↔ Contradict reports)
        ∧ SameValues (valuesAfter reports) (established reports)
        ∧ ∀ reports', reports'.Perm reports → stateAfter reports' = stateAfter reports
          ∧ SameValues (valuesAfter reports') (valuesAfter reports) := by
  have hafter : ∀ {reports'}, reports'.Perm reports →
      ∃ g', g.addFacts key reports' = .ok g' ∧ stateOf g' key = stateAfter reports'
        ∧ valuesOf g' key = valuesAfter reports' := by
    intro reports' hperm
    obtain ⟨g', hg', hlookup⟩ := (h.perm hperm).addFacts
    exact ⟨g', hg', by rw [stateOf, hlookup, stateAfter], by rw [valuesOf, hlookup, valuesAfter]⟩
  obtain ⟨g₀, hg₀, hstate₀, hvalues₀⟩ := hafter (List.Perm.refl reports)
  constructor
  · rintro ⟨g', hg', hstate, hvalues, horder⟩
    obtain rfl := Except.ok.inj (hg₀.symm.trans hg')
    rw [hstate₀] at hstate
    rw [hvalues₀] at hvalues
    refine ⟨hstate, hvalues, fun reports' hperm => ?_⟩
    obtain ⟨g₁, hg₁, hstate₁, hvalues₁⟩ := hafter hperm
    obtain ⟨g'', hg'', hsame, hsame'⟩ := horder reports' hperm
    obtain rfl := Except.ok.inj (hg₁.symm.trans hg'')
    rw [← hstate₁, ← hvalues₁, ← hstate₀, ← hvalues₀]
    exact ⟨hsame, hsame'⟩
  · rintro ⟨hstate, hvalues, horder⟩
    refine ⟨g₀, hg₀, hstate₀ ▸ hstate, hvalues₀ ▸ hvalues, fun reports' hperm => ?_⟩
    obtain ⟨g₁, hg₁, hstate₁, hvalues₁⟩ := hafter hperm
    refine ⟨g₁, hg₁, ?_⟩
    rw [hstate₁, hvalues₁, hstate₀, hvalues₀]
    exact horder reports' hperm

theorem SameValues.trans {xs ys zs : List Value} (h : SameValues xs ys) (h' : SameValues ys zs) :
    SameValues xs zs := by
  refine ⟨fun x hx => ?_, fun z hz => ?_⟩
  · obtain ⟨y, hy, hxy⟩ := h.1 x hx
    obtain ⟨z, hz, hyz⟩ := h'.1 y hy
    exact ⟨z, hz, hxy.trans hyz⟩
  · obtain ⟨y, hy, hzy⟩ := h'.2 z hz
    obtain ⟨x, hx, hyx⟩ := h.2 y hy
    exact ⟨x, hx, hzy.trans hyx⟩

theorem SameValues.symm {xs ys : List Value} (h : SameValues xs ys) : SameValues ys xs :=
  ⟨h.2, h.1⟩

/-! ## When nothing is left out -/

theorem Agreeable.kept {g : Graph} {key : Key} {reports : List Report}
    (h : Agreeable reports) (hadm : Admissible g key reports) :
    ContradictionsKept g key reports := by
  rw [contradictionsKept_iff hadm]
  by_cases hne : reports = []
  · subst hne
    refine ⟨by simp [stateAfter, factAfter, Contradict, established],
      by simp [SameValues, valuesAfter, factAfter, established], fun reports' hperm => ?_⟩
    rw [hperm.eq_nil]
    exact ⟨rfl, by simp [SameValues, valuesAfter, factAfter]⟩
  · have hfact : ∀ {reports'}, reports'.Perm reports →
        ∃ f, factAfter reports' = some f ∧ (f.state = .contradicted ↔ Contradict reports')
          ∧ (f.state = .unknown ↔ established reports' = [])
          ∧ SameValues f.values (established reports') := by
      intro reports' hperm
      have hagree := h.perm hperm
      have hne' : reports' ≠ [] := by
        rintro rfl
        exact hne hperm.nil_eq.symm
      obtain ⟨f, hf, hshape⟩ := shape_factAfter hagree.states hne'
      exact ⟨f, hf, hagree.fact hshape⟩
    obtain ⟨f, hf, hcontradicted, hunknown, hvalues⟩ := hfact (List.Perm.refl reports)
    refine ⟨by simpa [stateAfter, hf] using hcontradicted, by simpa [valuesAfter, hf] using hvalues,
      fun reports' hperm => ?_⟩
    obtain ⟨f', hf', hcontradicted', hunknown', hvalues'⟩ := hfact hperm
    have hmem : ∀ {v}, v ∈ established reports' ↔ v ∈ established reports :=
      (established_perm hperm).mem_iff
    have hstate : f'.state = f.state := by
      have hc : f'.state = .contradicted ↔ f.state = .contradicted := by
        rw [hcontradicted, hcontradicted']
        simp only [Contradict, hmem]
      have hu : f'.state = .unknown ↔ f.state = .unknown := by
        rw [hunknown, hunknown', ← List.isEmpty_iff, ← List.isEmpty_iff]
        rw [List.isEmpty_iff, List.isEmpty_iff, List.eq_nil_iff_forall_not_mem,
          List.eq_nil_iff_forall_not_mem]
        simp only [hmem]
      cases hs : f.state <;> cases hs' : f'.state <;> simp_all
    refine ⟨by simp [stateAfter, hf, hf', hstate], ?_⟩
    have hest : SameValues (established reports') (established reports) :=
      ⟨fun v hv => ⟨v, hmem.mp hv, .refl v⟩, fun v hv => ⟨v, hmem.mpr hv, .refl v⟩⟩
    simpa [valuesAfter, hf, hf'] using (hvalues'.trans hest).trans hvalues.symm

/-! ## What is left out otherwise -/

/-- In some order the fact is contradicted though it has one value. -/
theorem not_kept {reports reports' : List Report} {v : Value} (hv : v.WellFormed)
    (hstate : stateAfter reports = some .contradicted ↔ Contradict reports)
    (hvalues : SameValues (valuesAfter reports) (established reports))
    (horder : stateAfter reports' = stateAfter reports
      ∧ SameValues (valuesAfter reports') (valuesAfter reports))
    (hone : stateAfter reports' = some .contradicted ∧ ∀ x ∈ valuesAfter reports', x = v) :
    False := by
  obtain ⟨a, ha, b, hb, hne⟩ := hstate.mp (horder.1 ▸ hone.1)
  have hsame : ∀ x ∈ established reports, Same x v := by
    intro x hx
    obtain ⟨y, hy, hxy⟩ := (horder.2.trans hvalues).2 x hx
    rwa [hone.2 y hy] at hxy
  exact hne ((hsame a ha).trans ((hsame b hb).symm (wellFormed_established hb) hv))

/-- A fact that was given as a contradiction stays as it is. -/
theorem foldl_contradicted {reports : List Report} {f : Fact} (h : f.state = .contradicted) :
    reports.foldl (fun f r => some (next f r)) (some f) = some f := by
  induction reports with
  | nil => rfl
  | cons r reports ih =>
      have hkeep : next (some f) r = f := by simp [next, merge, h]
      rw [List.foldl_cons, hkeep, ih]

/-- Any report may come first. -/
theorem first_of_mem {reports : List Report} {r : Report} (h : r ∈ reports) :
    ∃ rest, (r :: rest).Perm reports := by
  obtain ⟨s, t, rfl⟩ := List.append_of_mem h
  exact ⟨s ++ t, List.perm_middle.symm⟩

theorem shape_values {reports : List Report} {f : Fact} (h : Shape reports f) :
    established reports = [] ∨ ∃ a ∈ established reports, ∃ b ∈ established reports,
      ∀ v ∈ f.values, v = a ∨ v = b := by
  unfold Shape at h
  cases hest : established reports with
  | nil => exact .inl rfl
  | cons e rest =>
      rw [hest] at h
      obtain ⟨hvalue, h⟩ := h
      refine .inr ?_
      cases hfind : rest.find? fun x => !e.pyEq x with
      | none =>
          rw [hfind] at h
          refine ⟨e, List.mem_cons_self, e, List.mem_cons_self, fun v hv => ?_⟩
          simp only [Fact.values, h.2, hvalue] at hv
          simp only [List.mem_filter, List.mem_singleton] at hv
          exact .inl hv.1
      | some d =>
          rw [hfind] at h
          refine ⟨e, List.mem_cons_self, d,
            List.mem_cons_of_mem e (List.mem_of_find?_eq_some hfind), fun v hv => ?_⟩
          simp only [Fact.values, h.2, hvalue, List.mem_filter, List.mem_cons, List.not_mem_nil,
            or_false] at hv
          exact hv.1

/-- A value that differs from itself, established twice, hides any other. -/
theorem shape_twice {reports : List Report} {f : Fact} {v : Value} {rest : List Value}
    (hv : v.pyEq v = false) (hest : established reports = v :: v :: rest)
    (h : Shape reports f) : f.state = .contradicted ∧ ∀ x ∈ f.values, x = v := by
  unfold Shape at h
  rw [hest] at h
  have hfind : (v :: rest).find? (fun x => !v.pyEq x) = some v := by
    rw [List.find?_cons_of_pos]
    simp [hv]
  dsimp only at h
  rw [hfind] at h
  obtain ⟨hvalue, hstate, hconflict⟩ := h
  refine ⟨hstate, fun x hx => ?_⟩
  simp only [Fact.values, hconflict, hvalue, List.mem_filter, List.mem_cons, List.not_mem_nil,
    or_false, or_self] at hx
  exact hx.1

theorem Agreeable.of_kept {g : Graph} {key : Key} {reports : List Report}
    (hadm : Admissible g key reports) (h : ContradictionsKept g key reports) :
    Agreeable reports := by
  obtain ⟨hstate, hvalues, horder⟩ := (contradictionsKept_iff hadm).mp h
  have hstates : ∀ r ∈ reports, r.state ≠ .contradicted := by
    intro r hr hc
    obtain ⟨rest, hperm⟩ := first_of_mem hr
    have hfact : factAfter (r :: rest) = some r.fact := by
      refine foldl_contradicted ?_
      simp [next, Report.fact, hc]
    refine not_kept (wellFormed_clean r.value) hstate hvalues (horder _ hperm) ⟨?_, ?_⟩
    · simp [stateAfter, hfact, Report.fact, hc]
    · simp [valuesAfter, hfact, Fact.values, Report.fact]
  have hshapes : ∀ {reports'}, reports'.Perm reports → reports' ≠ [] →
      ∃ f, factAfter reports' = some f ∧ Shape reports' f := fun hperm hne =>
    shape_factAfter (fun r hr => hstates r (hperm.mem_iff.mp hr)) hne
  refine ⟨hstates, fun hnone r hr => ?_, fun a ha b hb c hc => ?_, fun v hv => ?_⟩
  · -- the value that is not known comes first, and stays
    obtain ⟨rest, hperm⟩ := first_of_mem hr
    obtain ⟨f, hf, hshape⟩ := hshapes hperm (List.cons_ne_nil r rest)
    have hnone' : established (r :: rest) = [] :=
      (hnone ▸ established_perm hperm).eq_nil
    unfold Shape at hshape
    rw [hnone'] at hshape
    obtain ⟨-, hconflict, hvalue⟩ := hshape
    have hvalue : r.fact.value = f.value := by simpa using hvalue
    by_contra hne
    have hmem : r.fact.value ∈ valuesAfter (r :: rest) := by
      have hsingle := values_single (hvalue ▸ hne) hconflict
      simp [valuesAfter, hf, hsingle, hvalue]
    obtain ⟨x, hx, -⟩ := ((horder _ hperm).2.trans hvalues).1 _ hmem
    rw [hnone] at hx
    cases hx
  · have hne : reports ≠ [] := by
      rintro rfl
      cases ha
    obtain ⟨f, hf, hshape⟩ := hshapes (List.Perm.refl reports) hne
    have hafter : valuesAfter reports = f.values := by simp [valuesAfter, hf]
    rcases shape_values hshape with hnil | ⟨e, he, d, hd, hall⟩
    · rw [hnil] at ha
      cases ha
    · have hone : ∀ v ∈ established reports, Same v e ∨ Same v d := by
        intro v hv
        obtain ⟨x, hx, hvx⟩ := hvalues.2 v hv
        rcases hall x (hafter ▸ hx) with rfl | rfl
        · exact .inl hvx
        · exact .inr hvx
      have hjoin : ∀ {x y z}, x ∈ established reports → y ∈ established reports →
          z ∈ established reports → Same x z → Same y z → Same x y :=
        fun _ hy hz hxz hyz => hxz.trans (same_symm hy hz hyz)
      rcases hone a ha with hae | had
      · rcases hone b hb with hbe | hbd
        · exact .inl (hjoin ha hb he hae hbe)
        · rcases hone c hc with hce | hcd
          · exact .inr (.inl (hjoin ha hc he hae hce))
          · exact .inr (.inr (hjoin hb hc hd hbd hcd))
      · rcases hone b hb with hbe | hbd
        · rcases hone c hc with hce | hcd
          · exact .inr (.inr (hjoin hb hc he hbe hce))
          · exact .inr (.inl (hjoin ha hc hd had hcd))
        · exact .inl (hjoin ha hb hd had hbd)
  · by_contra hcount
    have hsub : [v, v].Sublist (established reports) :=
      List.replicate_sublist_iff.mpr (by omega : 2 ≤ (established reports).count v)
    obtain ⟨pair, hpair, hfilter⟩ := List.sublist_filterMap_iff.mp hsub
    obtain ⟨rest, hperm⟩ := hpair.exists_perm_append
    have hest : established (pair ++ rest) = v :: v :: established rest := by
      rw [established, List.filterMap_append, ← hfilter]
      rfl
    have hwf : v.WellFormed := wellFormed_established (hsub.subset List.mem_cons_self)
    have hne : pair ++ rest ≠ [] := by
      intro hnil
      rw [hnil] at hest
      cases hest
    obtain ⟨f, hf, hshape⟩ := hshapes hperm.symm hne
    obtain ⟨hcontradicted, hall⟩ := shape_twice hv hest hshape
    exact not_kept hwf hstate hvalues (horder _ hperm.symm)
      ⟨by simp [stateAfter, hf, hcontradicted], by simpa [valuesAfter, hf] using hall⟩

theorem kept_iff_agreeable {g : Graph} {key : Key} {reports : List Report}
    (hadm : Admissible g key reports) :
    ContradictionsKept g key reports ↔ Agreeable reports :=
  ⟨.of_kept hadm, fun h => h.kept hadm⟩

namespace Ports

def graph : Graph := { entities := ["SERVER:a.lab.test"] }

def key : Key := ⟨"SERVER:a.lab.test", "port", none⟩

def reports : List Report := [{ value := .int 389 }, { value := .int 636 }, { value := .int 3389 }]

theorem admissible : Admissible graph key reports := by
  refine ⟨by decide, rfl, by decide, ?_⟩
  simp [reports]

theorem established_ports : established reports = [.int 389, .int 636, .int 3389] := by
  simp [established, reports, establishedBy, Report.fact, clean]

end Ports

end IpaDiagnose.Environment
