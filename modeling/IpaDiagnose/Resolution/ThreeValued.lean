import IpaDiagnose.Lib.Kleene
import IpaDiagnose.Lib.Result
import IpaDiagnose.Resolution.Engine

/-!
# Predicates and three-valued logic

A comparison is true, false, or unknown, and a tree of them has the value
the strong connectives give it: `kleene`. Evaluation looks at the members
of a connective in order, and an exception ends it. What it finds is right,
`pred_sound`; `pred_kleene_iff` says when it finds all there is to find.
-/

namespace IpaDiagnose.Resolver

open Kleene (Truth)

/-! ## The value of a tree -/

mutual

/-- The strong value of a predicate. -/
def kleene (sc : Scope) : Pred → Truth
  | .all _ ps => Kleene.conj (kleeneList sc ps)
  | .any _ ps => Kleene.disj (kleeneList sc ps)
  | .not _ p => Kleene.neg (kleene sc p)
  | .cmp kvs => (compareIn sc kvs).toOption
  | .other _ => none

def kleeneList (sc : Scope) : List Pred → List Truth
  | [] => []
  | p :: ps => kleene sc p :: kleeneList sc ps

end

/-- What evaluation finds. An exception leaves the value unknown. -/
def found (sc : Scope) (p : Pred) : Truth := (pred sc p).toOption

/-- An exception other than an unknown value. -/
def Raises {α : Type} (x : Except E α) : Prop :=
  ∃ e, x = .error e ∧ ∀ why, e ≠ .own (.unknown why)

/-! ## What is come to in order -/

mutual

/-- What decides the predicate is come to before an exception ends its
evaluation. -/
def InOrder (sc : Scope) : Pred → Prop
  | .all _ ps => (Kleene.conj (kleeneList sc ps) = some true → AllInOrder sc ps)
      ∧ (Kleene.conj (kleeneList sc ps) = some false → FalseFirst sc ps)
  | .any _ ps => (Kleene.disj (kleeneList sc ps) = some true → TrueFirst sc ps)
      ∧ (Kleene.disj (kleeneList sc ps) = some false → AllInOrder sc ps)
  | .not _ p => InOrder sc p
  | .cmp _ => True
  | .other _ => True

def AllInOrder (sc : Scope) : List Pred → Prop
  | [] => True
  | p :: ps => InOrder sc p ∧ AllInOrder sc ps

/-- A false member comes before any that is unknown. -/
def FalseFirst (sc : Scope) : List Pred → Prop
  | [] => False
  | p :: ps => InOrder sc p
      ∧ (kleene sc p = some false ∨ (kleene sc p = some true ∧ FalseFirst sc ps))

/-- A true member comes before any that raises. -/
def TrueFirst (sc : Scope) : List Pred → Prop
  | [] => False
  | p :: ps => (kleene sc p = some true ∧ InOrder sc p) ∨ (¬ Stops sc p ∧ TrueFirst sc ps)

/-- A comparison that is come to raises something else than that its value
is unknown. -/
def Stops (sc : Scope) : Pred → Prop
  | .all _ ps => AllStops sc ps
  | .any _ ps => AnyStops sc ps
  | .not _ p => Stops sc p
  | .cmp kvs => Raises (compareIn sc kvs)
  | .other _ => True

def AllStops (sc : Scope) : List Pred → Prop
  | [] => False
  | p :: ps => Stops sc p ∨ ((kleene sc p = some true ∧ InOrder sc p) ∧ AllStops sc ps)

def AnyStops (sc : Scope) : List Pred → Prop
  | [] => False
  | p :: ps => Stops sc p ∨ (¬ (kleene sc p = some true ∧ InOrder sc p) ∧ AnyStops sc ps)

end

section Evaluation

variable {sc : Scope}

theorem falseFirst_mem {ps : List Pred} (h : FalseFirst sc ps) :
    some false ∈ kleeneList sc ps := by
  induction ps with
  | nil => exact absurd h (by simp [FalseFirst])
  | cons p ps ih =>
      rw [FalseFirst] at h
      rw [kleeneList]
      rcases h.2 with hp | ⟨-, hps⟩
      · rw [hp]
        exact List.mem_cons_self
      · exact List.mem_cons_of_mem _ (ih hps)

theorem trueFirst_mem {ps : List Pred} (h : TrueFirst sc ps) : some true ∈ kleeneList sc ps := by
  induction ps with
  | nil => exact absurd h (by simp [TrueFirst])
  | cons p ps ih =>
      rw [TrueFirst] at h
      rw [kleeneList]
      rcases h with ⟨hp, -⟩ | ⟨-, hps⟩
      · rw [hp]
        exact List.mem_cons_self
      · exact List.mem_cons_of_mem _ (ih hps)

/-! ## What evaluation finds -/

/-- A result is a value, an unknown value, or another exception. -/
theorem result_cases (x : Except E Bool) :
    x = .ok true ∨ x = .ok false ∨ (∃ why, x = .error (.own (.unknown why))) ∨ Raises x := by
  match x with
  | .ok true => exact .inl rfl
  | .ok false => exact .inr (.inl rfl)
  | .error e =>
      by_cases h : ∃ why, e = .own (.unknown why)
      · obtain ⟨why, rfl⟩ := h
        exact .inr (.inr (.inl ⟨why, rfl⟩))
      · exact .inr (.inr (.inr ⟨e, rfl, fun why heq => h ⟨why, heq⟩⟩))

theorem raises_ok {α : Type} (a : α) : ¬ Raises (.ok a : Except E α) := by
  rintro ⟨e, h, -⟩
  cases h

theorem raises_unknown {α : Type} (why : String) :
    ¬ Raises (.error (.own (.unknown why)) : Except E α) := by
  rintro ⟨e, h, hne⟩
  exact hne why (Except.error.inj h).symm

theorem raises_map {x : Except E Bool} {f : Bool → Bool} : Raises (x.map f) ↔ Raises x := by
  unfold Raises
  simp only [Result.map_error]

/-- One member of a conjunction. -/
theorem predAll_cons (sc : Scope) (p : Pred) (ps : List Pred) :
    (pred sc p = .ok true → predAll sc (p :: ps) = predAll sc ps)
      ∧ (pred sc p = .ok false → predAll sc (p :: ps) = .ok false)
      ∧ (∀ e, pred sc p = .error e → predAll sc (p :: ps) = .error e) := by
  refine ⟨fun h => ?_, fun h => ?_, fun e h => ?_⟩ <;> rw [predAll, h] <;> rfl

/-- One member of a disjunction. -/
theorem predAny_cons (sc : Scope) (p : Pred) (ps : List Pred) (open_ : Option String) :
    (pred sc p = .ok true → predAny sc open_ (p :: ps) = .ok true)
      ∧ (pred sc p = .ok false → predAny sc open_ (p :: ps) = predAny sc open_ ps)
      ∧ (∀ why, pred sc p = .error (.own (.unknown why)) →
          predAny sc open_ (p :: ps) = predAny sc (some why) ps)
      ∧ (∀ e, pred sc p = .error e → (∀ why, e ≠ .own (.unknown why)) →
          predAny sc open_ (p :: ps) = .error e) := by
  refine ⟨fun h => ?_, fun h => ?_, fun why h => ?_, fun e h hne => ?_⟩
  · rw [predAny, h]
  · rw [predAny, h]
  · rw [predAny, h]
  · rw [predAny, h]
    split
    · rename_i heq; cases heq
    · rename_i heq; cases heq
    · rename_i why heq
      exact absurd (Except.error.inj heq) (hne why)
    · rename_i heq
      exact congrArg _ (Except.error.inj heq).symm

/-- What one evaluation finds, raises, and leaves. -/
structure Evaluates (sc : Scope) (p : Pred) : Prop where
  ok : ∀ b, pred sc p = .ok b ↔ kleene sc p = some b ∧ InOrder sc p
  raises : Raises (pred sc p) ↔ Stops sc p
  unknown : kleene sc p = none → InOrder sc p

theorem predAll_spec {ps : List Pred} (h : ∀ p ∈ ps, Evaluates sc p) :
    (predAll sc ps = .ok true ↔ (∀ t ∈ kleeneList sc ps, t = some true) ∧ AllInOrder sc ps)
      ∧ (predAll sc ps = .ok false ↔ FalseFirst sc ps)
      ∧ (Raises (predAll sc ps) ↔ AllStops sc ps) := by
  induction ps with
  | nil => simp [predAll, kleeneList, AllInOrder, FalseFirst, AllStops, raises_ok]
  | cons p ps ih =>
      obtain ⟨htrue, hfalse, hraise⟩ := ih fun q hq => h q (List.mem_cons_of_mem p hq)
      obtain ⟨hok, hstops, -⟩ := h p List.mem_cons_self
      obtain ⟨hnext, hend, herr⟩ := predAll_cons sc p ps
      rw [kleeneList, List.forall_mem_cons, AllInOrder, FalseFirst, AllStops]
      rcases result_cases (pred sc p) with hp | hp | ⟨why, hp⟩ | hp
      · obtain ⟨hk, ho⟩ := (hok true).mp hp
        have hs : ¬ Stops sc p := fun hs => raises_ok true (hp ▸ hstops.mpr hs)
        rw [hnext hp, htrue, hfalse, hraise]
        simp [hk, ho, hs]
      · obtain ⟨hk, ho⟩ := (hok false).mp hp
        have hs : ¬ Stops sc p := fun hs => raises_ok false (hp ▸ hstops.mpr hs)
        rw [hend hp]
        simp [hk, ho, hs, raises_ok]
      · have hs : ¬ Stops sc p := fun hs => raises_unknown why (hp ▸ hstops.mpr hs)
        have hnot : ∀ b, ¬ (kleene sc p = some b ∧ InOrder sc p) := by
          intro b hb
          rw [(hok b).mpr hb] at hp
          cases hp
        rw [herr _ hp]
        simp only [reduceCtorEq, false_iff, raises_unknown, hs, false_or]
        refine ⟨?_, ?_, fun hb => hnot true hb.1⟩
        · rintro ⟨⟨hk, -⟩, ho, -⟩
          exact hnot true ⟨hk, ho⟩
        · rintro ⟨ho, hk | ⟨hk, -⟩⟩
          · exact hnot false ⟨hk, ho⟩
          · exact hnot true ⟨hk, ho⟩
      · obtain ⟨e, hpe, hne⟩ := hp
        have hs : Stops sc p := hstops.mp ⟨e, hpe, hne⟩
        have hnot : ∀ b, ¬ (kleene sc p = some b ∧ InOrder sc p) := by
          intro b hb
          rw [(hok b).mpr hb] at hpe
          cases hpe
        rw [herr _ hpe]
        refine ⟨⟨nofun, ?_⟩, ⟨nofun, ?_⟩, fun _ => .inl hs, fun _ => ⟨e, rfl, hne⟩⟩
        · rintro ⟨⟨hk, -⟩, ho, -⟩
          exact absurd ⟨hk, ho⟩ (hnot true)
        · rintro ⟨ho, hk | ⟨hk, -⟩⟩
          · exact absurd ⟨hk, ho⟩ (hnot false)
          · exact absurd ⟨hk, ho⟩ (hnot true)

theorem predAny_spec {ps : List Pred} (h : ∀ p ∈ ps, Evaluates sc p) :
    ∀ open_ : Option String,
      (predAny sc open_ ps = .ok true ↔ TrueFirst sc ps)
        ∧ (predAny sc open_ ps = .ok false ↔ open_ = none
          ∧ (∀ t ∈ kleeneList sc ps, t = some false) ∧ AllInOrder sc ps)
        ∧ (Raises (predAny sc open_ ps) ↔ AnyStops sc ps) := by
  induction ps with
  | nil =>
      intro open_
      cases open_ with
      | none => simp [predAny, kleeneList, AllInOrder, TrueFirst, AnyStops, raises_ok]
      | some why => simp [predAny, TrueFirst, AnyStops, unknown, raises_unknown]
  | cons p ps ih =>
      intro open_
      have ih := ih fun q hq => h q (List.mem_cons_of_mem p hq)
      obtain ⟨hok, hstops, -⟩ := h p List.mem_cons_self
      obtain ⟨hend, hnext, hopen, herr⟩ := predAny_cons sc p ps open_
      rw [kleeneList, List.forall_mem_cons, AllInOrder, TrueFirst, AnyStops]
      rcases result_cases (pred sc p) with hp | hp | ⟨why, hp⟩ | hp
      · obtain ⟨hk, ho⟩ := (hok true).mp hp
        have hs : ¬ Stops sc p := fun hs => raises_ok true (hp ▸ hstops.mpr hs)
        rw [hend hp]
        simp [hk, ho, hs, raises_ok]
      · obtain ⟨hk, ho⟩ := (hok false).mp hp
        have hs : ¬ Stops sc p := fun hs => raises_ok false (hp ▸ hstops.mpr hs)
        obtain ⟨htrue, hfalse, hraise⟩ := ih open_
        rw [hnext hp, htrue, hfalse, hraise]
        simp [hk, ho, hs]
      · have hs : ¬ Stops sc p := fun hs => raises_unknown why (hp ▸ hstops.mpr hs)
        have hnot : ∀ b, ¬ (kleene sc p = some b ∧ InOrder sc p) := by
          intro b hb
          rw [(hok b).mpr hb] at hp
          cases hp
        obtain ⟨htrue, hfalse, hraise⟩ := ih (some why)
        rw [hopen why hp, htrue, hfalse, hraise]
        refine ⟨by simp [hnot true, hs], ⟨nofun, ?_⟩, by simp [hnot true, hs]⟩
        rintro ⟨-, ⟨hk, -⟩, ho, -⟩
        exact absurd ⟨hk, ho⟩ (hnot false)
      · obtain ⟨e, hpe, hne⟩ := hp
        have hs : Stops sc p := hstops.mp ⟨e, hpe, hne⟩
        have hnot : ∀ b, ¬ (kleene sc p = some b ∧ InOrder sc p) := by
          intro b hb
          rw [(hok b).mpr hb] at hpe
          cases hpe
        rw [herr e hpe hne]
        refine ⟨⟨nofun, ?_⟩, ⟨nofun, ?_⟩, fun _ => .inl hs, fun _ => ⟨e, rfl, hne⟩⟩
        · rintro (hb | ⟨hb, -⟩)
          · exact absurd hb (hnot true)
          · exact absurd hs hb
        · rintro ⟨-, ⟨hk, -⟩, ho, -⟩
          exact absurd ⟨hk, ho⟩ (hnot false)

mutual

theorem evaluates : ∀ p : Pred, Evaluates sc p
  | .all alone ps => by
      obtain ⟨htrue, hfalse, hraise⟩ := predAll_spec (evaluatesList ps)
      refine ⟨fun b => ?_, by rw [pred, Stops, hraise], fun hk => ?_⟩
      · rw [pred, InOrder, kleene]
        cases b with
        | true =>
            rw [htrue, ← Kleene.conj_eq_true]
            constructor
            · rintro ⟨hk, ho⟩
              refine ⟨hk, fun _ => ho, fun hf => ?_⟩
              rw [hk] at hf
              cases hf
            · rintro ⟨hk, ho, -⟩
              exact ⟨hk, ho hk⟩
        | false =>
            rw [hfalse]
            constructor
            · intro hf
              have hk := Kleene.conj_eq_false.mpr (falseFirst_mem hf)
              refine ⟨hk, fun ht => ?_, fun _ => hf⟩
              rw [hk] at ht
              cases ht
            · rintro ⟨hk, -, hf⟩
              exact hf hk
      · rw [kleene] at hk
        rw [InOrder, hk]
        exact ⟨nofun, nofun⟩
  | .any alone ps => by
      obtain ⟨htrue, hfalse, hraise⟩ := predAny_spec (evaluatesList ps) none
      refine ⟨fun b => ?_, by rw [pred, Stops, hraise], fun hk => ?_⟩
      · rw [pred, InOrder, kleene]
        cases b with
        | true =>
            rw [htrue]
            constructor
            · intro ht
              have hk := Kleene.disj_eq_true.mpr (trueFirst_mem ht)
              refine ⟨hk, fun _ => ht, fun hf => ?_⟩
              rw [hk] at hf
              cases hf
            · rintro ⟨hk, ht, -⟩
              exact ht hk
        | false =>
            rw [hfalse, ← Kleene.disj_eq_false]
            constructor
            · rintro ⟨-, hk, ho⟩
              refine ⟨hk, fun ht => ?_, fun _ => ho⟩
              rw [hk] at ht
              cases ht
            · rintro ⟨hk, -, ho⟩
              exact ⟨rfl, hk, ho hk⟩
      · rw [kleene] at hk
        rw [InOrder, hk]
        exact ⟨nofun, nofun⟩
  | .not alone p => by
      obtain ⟨hok, hraise, hunknown⟩ := evaluates p
      refine ⟨fun b => ?_, by rw [pred, Stops, raises_map, hraise], fun hk => ?_⟩
      · rw [pred, Result.map_ok, InOrder, kleene]
        constructor
        · rintro ⟨c, hc, rfl⟩
          obtain ⟨hk, ho⟩ := (hok c).mp hc
          exact ⟨by rw [hk]; rfl, ho⟩
        · rintro ⟨hk, ho⟩
          obtain ⟨c, hc, rfl⟩ := Option.map_eq_some_iff.mp hk
          exact ⟨c, (hok c).mpr ⟨hc, ho⟩, rfl⟩
      · rw [kleene] at hk
        rw [InOrder]
        exact hunknown (Option.map_eq_none_iff.mp hk)
  | .cmp kvs => by
      refine ⟨fun b => ?_, by rw [pred, Stops], fun _ => by rw [InOrder]; exact trivial⟩
      rw [pred, kleene, InOrder]
      cases hcmp : compareIn sc kvs <;> simp [Except.toOption]
  | .other why => by
      refine ⟨fun b => ?_, ?_, fun _ => by rw [InOrder]; exact trivial⟩
      · rw [pred, kleene]
        exact ⟨nofun, fun h => by cases h.1⟩
      · rw [pred, Stops, iff_true]
        exact ⟨.typeError, rfl, nofun⟩

theorem evaluatesList : ∀ ps : List Pred, ∀ p ∈ ps, Evaluates sc p
  | [], _, h => absurd h List.not_mem_nil
  | p :: ps, q, h => by
      rcases List.mem_cons.mp h with heq | h
      · rw [heq]
        exact evaluates p
      · exact evaluatesList ps q h

end

/-- Evaluation never finds a value that the tree does not have. -/
theorem pred_sound {p : Pred} {b : Bool} (h : pred sc p = .ok b) : kleene sc p = some b :=
  (((evaluates p).ok b).mp h).1

/-- The value does not depend on the order of the members. -/
theorem kleene_all_perm {alone : Bool} {ps ps' : List Pred} (h : ps.Perm ps') :
    kleene sc (.all alone ps) = kleene sc (.all alone ps')
      ∧ kleene sc (.any alone ps) = kleene sc (.any alone ps') := by
  have hmap : ∀ ps : List Pred, kleeneList sc ps = ps.map (kleene sc) := by
    intro ps
    induction ps with
    | nil => rfl
    | cons p ps ih => rw [kleeneList, ih, List.map_cons]
  have hperm : (kleeneList sc ps).Perm (kleeneList sc ps') := by
    rw [hmap, hmap]
    exact h.map _
  simp only [kleene, Kleene.conj_perm hperm, Kleene.disj_perm hperm, and_self]

theorem found_eq_kleene_iff {p : Pred} : found sc p = kleene sc p ↔ InOrder sc p := by
  have hspec : Evaluates sc p := evaluates p
  have hsome : ∀ {b}, found sc p = some b ↔ pred sc p = .ok b := by
    intro b
    rw [found]
    cases pred sc p <;> simp [Except.toOption]
  cases hk : kleene sc p with
  | none =>
      simp only [hspec.unknown hk, iff_true]
      cases hf : found sc p with
      | none => rfl
      | some b =>
          rw [pred_sound (hsome.mp hf)] at hk
          cases hk
  | some b => rw [hsome, hspec.ok b, hk, eq_self, true_and]

end Evaluation

namespace UnknownFirst

def scope : Scope := { bindings := [], checks := [] }

/-- The field of a check that was not run. -/
def notRun : Pred :=
  .cmp [("left", .dict [("ref", .str "unit"), ("field", .str "state")]), ("op", .str "is_true")]

def no : Pred := .cmp [("left", .bool false), ("op", .str "is_true")]

theorem kleene_no : kleene scope (.all true [notRun, no]) = some false := by decide +kernel

theorem found_no : found scope (.all true [notRun, no]) = none
    ∧ found scope (.all true [no, notRun]) = some false := by decide +kernel

end UnknownFirst

end IpaDiagnose.Resolver
