import IpaDiagnose.Resolution.ThreeValued

/-!
# Learning more

While a fix is worked out, checks are run one after the other and their
results are recorded. A result that is recorded under a new id takes no
value away, so a condition that was decided keeps its value.
-/

namespace IpaDiagnose.Resolver

open Py (Value Dict)
open Result

/-- Every value that is read in the one scope is read in the other. -/
def Scope.Within (sc sc' : Scope) : Prop := ∀ v a, sc.value v = .ok a → sc'.value v = .ok a

theorem compareIn_within {sc sc' : Scope} (h : sc.Within sc') (kvs : Dict) :
    Kleene.Kept (compareIn sc kvs).toOption (compareIn sc' kvs).toOption := by
  intro b hb
  have hok : compareIn sc kvs = .ok b := by
    cases hc : compareIn sc kvs with
    | error e =>
        rw [hc] at hb
        cases hb
    | ok a =>
        rw [hc] at hb
        rw [Option.some.inj hb]
  suffices hok' : compareIn sc' kvs = .ok b by
    rw [hok']
    rfl
  unfold compareIn at hok ⊢
  split at hok
  · obtain ⟨x, hx, hok⟩ := bind_ok.mp hok
    obtain ⟨y, hy, hok⟩ := bind_ok.mp hok
    rw [h _ x hx, ok_bind, h _ y hy, ok_bind]
    exact hok
  · cases hok

mutual

/-- A value that a condition has in a scope it has in a scope with more. -/
theorem kleene_within {sc sc' : Scope} (h : sc.Within sc') :
    ∀ p : Pred, Kleene.Kept (kleene sc p) (kleene sc' p)
  | .all _ ps => by
      rw [kleene, kleene]
      exact Kleene.conj_kept (kleeneList_within h ps)
  | .any _ ps => by
      rw [kleene, kleene]
      exact Kleene.disj_kept (kleeneList_within h ps)
  | .not _ p => by
      rw [kleene, kleene]
      exact Kleene.neg_kept (kleene_within h p)
  | .cmp kvs => by
      rw [kleene, kleene]
      exact compareIn_within h kvs
  | .other _ => by
      rw [kleene]
      intro b hb
      cases hb

theorem kleeneList_within {sc sc' : Scope} (h : sc.Within sc') :
    ∀ ps : List Pred, List.Forall₂ Kleene.Kept (kleeneList sc ps) (kleeneList sc' ps)
  | [] => .nil
  | p :: ps => by
      rw [kleeneList, kleeneList]
      exact .cons (kleene_within h p) (kleeneList_within h ps)

end

/-! ## Recording a result -/

theorem get?_cons (k id : Value) (r : CheckResult) (cs : Checks) :
    Checks.get? ((k, r) :: cs) id = if k.pyEq id then some r else cs.get? id := by
  unfold Checks.get?
  cases hk : k.pyEq id with
  | true => simp [hk]
  | false => simp [hk]

/-- Under a new id a result is put behind the others. -/
theorem get?_set {cs : Checks} {id : Value} (res : CheckResult) (h : cs.get? id = none)
    (other : Value) : (cs.set id res).get? other
      = (cs.get? other).or (if id.pyEq other then some res else none) := by
  induction cs with
  | nil =>
      rw [Checks.set, get?_cons]
      rfl
  | cons c cs ih =>
      obtain ⟨k, r⟩ := c
      rw [get?_cons] at h
      split at h
      · cases h
      · rename_i hk
        rw [Checks.set, if_neg hk, get?_cons, get?_cons, ih h]
        split
        · rfl
        · rfl

theorem eq_of_pyEq_str {s : String} {v : Value} (h : (Value.str s).pyEq v = true) : v = .str s := by
  cases v with
  | str t =>
      rw [Value.pyEq, beq_iff_eq] at h
      rw [h]
  | _ => simp [Value.pyEq] at h

/-- A result that is found is still found, and is the same. -/
theorem check?_record {sc : Scope} {inv : Inv} {s : String} {res : CheckResult}
    (hid : inv.id = .str s) (hnew : sc.check? inv.id = none) {id : Value} {r : CheckResult}
    (h : sc.check? id = some r) : (sc.record inv res).check? id = some r := by
  have hother : inv.id.pyEq id = false := by
    cases heq : inv.id.pyEq id with
    | false => rfl
    | true =>
        rw [hid] at heq
        rw [eq_of_pyEq_str heq, ← hid, hnew] at h
        cases h
  obtain ⟨hitem, hchecks⟩ : sc.itemChecks.get? inv.id = none ∧ sc.checks.get? inv.id = none := by
    cases hone : sc.itemChecks.get? inv.id with
    | none =>
        rw [Scope.check?, hone, Option.none_or] at hnew
        exact ⟨rfl, hnew⟩
    | some r =>
        rw [Scope.check?, hone] at hnew
        cases hnew
  unfold Scope.record
  split
  · show ((sc.itemChecks.set inv.id res).get? id).or (sc.checks.get? id) = some r
    rw [get?_set res hitem, hother, if_neg Bool.false_ne_true, Option.or_none]
    exact h
  · show (sc.itemChecks.get? id).or ((sc.checks.set inv.id res).get? id) = some r
    rw [get?_set res hchecks, hother, if_neg Bool.false_ne_true, Option.or_none]
    exact h

theorem result_record {sc : Scope} {inv : Inv} {s : String} {res : CheckResult}
    (hid : inv.id = .str s) (hnew : sc.check? inv.id = none) {ref : Dict} {a : Value}
    (h : sc.result ref = .ok a) : (sc.record inv res).result ref = .ok a := by
  unfold Scope.result at h ⊢
  cases href : ref.lookup "ref" with
  | none =>
      rw [href] at h
      cases h
  | some id =>
      rw [href] at h
      dsimp only at h ⊢
      by_cases hhash : id.hashable = false
      · rw [if_pos hhash] at h
        cases h
      · rw [if_neg hhash] at h ⊢
        cases hfound : sc.check? id with
        | none =>
            rw [hfound] at h
            cases h
        | some r =>
            rw [check?_record hid hnew hfound]
            rw [hfound] at h
            exact h

/-- Recording changes neither the bindings nor the item. -/
theorem record_given (sc : Scope) (inv : Inv) (res : CheckResult) :
    (sc.record inv res).bindings = sc.bindings ∧ (sc.record inv res).item = sc.item := by
  unfold Scope.record
  split
  · exact ⟨rfl, rfl⟩
  · exact ⟨rfl, rfl⟩

theorem record_within {sc : Scope} {inv : Inv} {s : String} {res : CheckResult}
    (hid : inv.id = .str s) (hnew : sc.check? inv.id = none) : sc.Within (sc.record inv res) := by
  obtain ⟨hbindings, hitem⟩ := record_given sc inv res
  intro v a ha
  cases v with
  | dict ref =>
      unfold Scope.value at ha ⊢
      dsimp only at ha ⊢
      rw [hbindings, hitem]
      cases hbind : ref.lookup "bind" with
      | some name =>
          rw [hbind] at ha
          exact ha
      | none =>
          rw [hbind] at ha
          cases hname : ref.lookup "item" with
          | some name =>
              rw [hname] at ha
              exact ha
          | none =>
              rw [hname] at ha
              exact result_record hid hnew ha
  | _ => exact ha

/-! ## Runs -/

/-- The one scope after more checks, each recorded under a text that no
result was recorded under before. -/
inductive Learns (sc : Scope) : Scope → Prop where
  | refl : Learns sc sc
  | record {sc' : Scope} (h : Learns sc sc') {inv : Inv} {s : String} (res : CheckResult)
      (hid : inv.id = .str s) (hnew : sc'.check? inv.id = none) : Learns sc (sc'.record inv res)

theorem Learns.within {sc sc' : Scope} (h : Learns sc sc') : sc.Within sc' := by
  induction h with
  | refl => exact fun _ _ ha => ha
  | record _ res hid hnew ih => exact fun v a ha => record_within hid hnew v a (ih v a ha)

/-- A condition that evaluation decides keeps its value through every run
of checks: a later evaluation that decides it, its members in any order,
decides it the same way. -/
theorem verdict_kept {sc sc' : Scope} (h : Learns sc sc') {alone : Bool} {ps ps' : List Pred}
    (hperm : ps.Perm ps') {b b' : Bool} :
    (pred sc (.all alone ps) = .ok b → pred sc' (.all alone ps') = .ok b' → b = b')
      ∧ (pred sc (.any alone ps) = .ok b → pred sc' (.any alone ps') = .ok b' → b = b') := by
  obtain ⟨hall, hany⟩ := @kleene_all_perm sc' alone ps ps' hperm
  constructor
  · intro hb hb'
    have hkept := kleene_within h.within _ b (pred_sound hb)
    rw [hall, pred_sound hb'] at hkept
    exact (Option.some.inj hkept).symm
  · intro hb hb'
    have hkept := kleene_within h.within _ b (pred_sound hb)
    rw [hany, pred_sound hb'] at hkept
    exact (Option.some.inj hkept).symm

namespace Learned

/-- A unit was asked for, and is active. -/
def units : Scope :=
  { bindings := []
    checks := [(.str "unit", { checkId := "systemd.unit", params := [], status := OK
                               fields := [("active", .bool true)] })] }

def active : Pred :=
  .cmp [("left", .dict [("ref", .str "unit"), ("field", .str "active")]), ("op", .str "is_true")]

def enabled : Pred := .cmp [("left", .bool true), ("op", .str "is_true")]

def storage : Inv :=
  { id := .str "storage", check := "fs.usage", params := [], label := .str "", forEach := .null }

def full : CheckResult := { checkId := "fs.usage", params := [], status := OK }

end Learned

open Learned in
/-- The unit is not found inactive once the storage was looked at too. -/
theorem verdict_kept_active : pred units (.all true [active, enabled]) = .ok true
    ∧ pred (units.record storage full) (.all true [enabled, active]) ≠ .ok false := by
  have hactive : pred units (.all true [active, enabled]) = .ok true := by decide
  refine ⟨hactive, fun hno => ?_⟩
  have hlearns : Learns units (units.record storage full) := .record .refl full rfl (by decide)
  have hsame := (verdict_kept hlearns (List.Perm.swap enabled active [])).1 hactive hno
  cases hsame

end IpaDiagnose.Resolver
