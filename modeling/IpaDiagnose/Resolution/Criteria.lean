import IpaDiagnose.Resolution.Engine

/-!
# Verifying a fix

What `verify` does with the record of a fix: rebuild its criteria from
the current catalogue, the saved values and fresh checks, and evaluate
them. Whatever goes wrong on the way is a result, not an exception.
-/

namespace IpaDiagnose.Resolver

open Py (Value Dict Exc)

variable {σ : Type}

/-- What a handler of all errors catches: everything but an interrupt. -/
def isError : E → Bool
  | .keyboardInterrupt => false
  | _ => true

def errorName : E → String
  | .keyError => "KeyError"
  | .typeError => "TypeError"
  | .valueError => "ValueError"
  | .attributeError => "AttributeError"
  | .overflowError => "OverflowError"
  | .indexError => "IndexError"
  | .keyboardInterrupt => "KeyboardInterrupt"
  | .own (.knowledge _) => "KnowledgeError"
  | _ => "Exception"

/-! ## Evaluating criteria -/

def VERIFY_OPS : List String :=
  ["eq", "ne", "in", "not_in", "lt", "le", "gt", "ge", "abs_lt", "abs_ge", "is_true", "is_false"]

/-- A field of the fresh result, by name. -/
def isThisField (v : Value) : Bool :=
  match v with
  | .dict ref =>
      ref.all (fun kv => kv.1 == "ref" || kv.1 == "field")
        && (ref.lookup "ref").any (·.pyEq (.str "this")) && (ref.lookup "field").any Value.isStr
  | _ => false

/-- A comparison of a field of the fresh result with a literal. -/
def testsThis (p : Dict) : Bool :=
  p.all (fun kv => kv.1 == "left" || kv.1 == "op" || kv.1 == "right")
    && VERIFY_OPS.any (fun op => (field p "op").pyEq (.str op))
    && isThisField (field p "left") && !(field p "right").isDict

mutual

/-- Every comparison of the condition tests the fresh result. -/
def refersToThis : Pred → Bool
  | .all true ps => !ps.isEmpty && allReferToThis ps
  | .any true ps => !ps.isEmpty && allReferToThis ps
  | .not true p => refersToThis p
  | .cmp kvs => testsThis kvs
  | _ => false

def allReferToThis : List Pred → Bool
  | [] => true
  | p :: ps => refersToThis p && allReferToThis ps

end

structure Verdict where
  text : String
  ok : Option Bool
  detail : String
deriving DecidableEq

def thisScope (res : CheckResult) : Scope :=
  { bindings := [], checks := [(.str "this", res)] }

/-- The verdict on an answer, and what to say with it. -/
def judge (c : Criterion) (answer : Except E CheckResult) : Except E (Bool × String) := do
  let res ← answer
  if res.status ≠ OK then
    unknown (if res.display = "" then "the check could not run" else res.display)
  else
    let ok ← pred (thisScope res) (readPred c.when)
    pure (ok, res.display)

/-- A criterion that is malformed or cannot be established has no verdict. -/
def verdict (c : Criterion) : Except E (Bool × String) → Except E Verdict
  | .ok (ok, detail) => .ok ⟨sanitizeText c.text 200, some ok, detail⟩
  | .error (.own (.unknown why)) => .ok ⟨sanitizeText c.text 200, none, why⟩
  | .error e =>
      if isError e then .ok ⟨sanitizeText c.text 200, none, "malformed criterion"⟩ else .error e

def evaluateOne (runner : Runner σ) (c : Criterion) (s : σ) : Except E Verdict × σ :=
  if refersToThis (readPred c.when) then
    let (answer, s) := runner.run s c.check c.params
    (verdict c (judge c answer), s)
  else
    (.ok ⟨sanitizeText c.text 200, none,
      "criterion is malformed or does not test the fresh check result"⟩, s)

def evaluateVerify (runner : Runner σ) : List Criterion → σ → Except E (List Verdict) × σ
  | [], s => (.ok [], s)
  | c :: cs, s =>
      match evaluateOne runner c s with
      | (.error e, s) => (.error e, s)
      | (.ok v, s) =>
          match evaluateVerify runner cs s with
          | (.error e, s) => (.error e, s)
          | (.ok vs, s) => (.ok (v :: vs), s)

/-! ## Rebuilding criteria -/

inductive RebuildProblem where
  /-- cannot rebuild: no such procedure, a changed definition, invalid values, a failed check -/
  | unknown
  /-- rebuilt, but the fix now points at something else than when it was offered -/
  | changed
deriving DecidableEq, Repr

structure Rebuilt where
  criteria : Option (List Criterion)
  problem : Option RebuildProblem
  reason : String
deriving DecidableEq

def notRebuilt (reason : String) : Rebuilt := ⟨none, some .unknown, reason⟩

/-- The procedure of the catalogue with this id. -/
def procedureWith (cat : List Entry) (id : Value) : Option Procedure :=
  cat.findSome? fun e =>
    match e with
    | .procedure p => if (Value.str p.id).pyEq id then some p else none
    | .noProcedure .. => none

/-- Run one check of an investigation again. -/
def askAgain (runner : Runner σ) (inv : Inv) (sc : Scope) (s : σ) : Except E CheckResult × σ :=
  match valuesOf sc inv.params with
  | .error e => (.error e, s)
  | .ok params => runner.run s inv.check params

def askEachAgain (runner : Runner σ) (inv : Inv) (ev : Evidence) :
    List Target → σ → Except E (List Target) × σ
  | [], s => (.ok [], s)
  | t :: ts, s =>
      match askAgain runner inv (ev.scopeOf t) s with
      | (.error e, s) => (.error e, s)
      | (.ok res, s) =>
          match askEachAgain runner inv ev ts s with
          | (.error e, s) => (.error e, s)
          | (.ok rest, s) => (.ok ({ t with checks := t.checks.set inv.id res } :: rest), s)

def investigateAgain (runner : Runner σ) : List Inv → Evidence → σ → Except E Evidence × σ
  | [], ev, s => (.ok ev, s)
  | inv :: invs, ev, s =>
      if inv.forEach.truthy then
        match ev.targets inv.forEach with
        | .error e => (.error e, s)
        | .ok ts =>
            match askEachAgain runner inv ev ts s with
            | (.error e, s) => (.error e, s)
            | (.ok ts, s) => investigateAgain runner invs (ev.narrow inv.forEach ts) s
      else
        match askAgain runner inv ev.base s with
        | (.error e, s) => (.error e, s)
        | (.ok res, s) =>
            investigateAgain runner invs { ev with checks := ev.checks.set inv.id res } s

/-- `len(v or [])`. -/
def lengthOf (v : Value) : Except E Nat :=
  if v.truthy = false then .ok 0
  else
    match v with
    | .list xs => .ok xs.length
    | .dict kvs => .ok kvs.length
    | .str s => .ok (PyStr.len s)
    | _ => .error .typeError

/-- Some list does not have the length it was saved with. -/
def lengthsDiffer (saved : Value) : List (String × List Dict) → Except E Bool
  | [] => .ok false
  | (name, items) :: ls => do
      let n ← lengthOf (← saved.get name .null)
      if items.length ≠ n then pure true else lengthsDiffer saved ls

def asDict : Value → Dict
  | .dict kvs => kvs
  | _ => []

/-- The saved values, if all of them are usable. -/
def savedValues (p : Procedure) (saved : Value) : Except E (Option Bound) := do
  match ← readBindings p.bindings (asDict saved) with
  | (some bound, []) => do
      if ← lengthsDiffer saved bound.lists then pure none else pure (some bound)
  | _ => pure none

/-- The criteria, unless the saved values are not usable. -/
def rebuildCriteria (p : Procedure) (saved : Value) (runner : Runner σ) (s : σ) :
    Except E (Option (List Criterion)) × σ :=
  match savedValues p saved with
  | .error e => (.error e, s)
  | .ok none => (.ok none, s)
  | .ok (some bound) =>
      match investigateAgain runner p.investigate (Evidence.start bound) s with
      | (.error e, s) => (.error e, s)
      | (.ok ev, s) => ((buildVerify p ev).map some, s)

/-- Compare the criteria with the digest they were saved with. -/
def compareDigest (sha256 : String → String) (fix : Dict) (criteria : List Criterion) : Rebuilt :=
  let diagnosisId := ((fix.lookup "diagnosis_id").getD (.str "")).toStr
  if (Value.str (criteriaDigest sha256 criteria diagnosisId)).pyEq (field fix "criteria_digest") then
    ⟨some criteria, none, ""⟩
  else
    ⟨some criteria, some .changed, "the fix's checks no longer match what was saved when the fix "
      ++ "was shown: either its target changed (for example another file location or instance) or "
      ++ "the saved diagnosis was modified"⟩

/-- What an error on the way means. -/
def rebuildError : E → Except E Rebuilt
  | .own (.unknown why) =>
      .ok (notRebuilt ("a fresh check needed to rebuild the fix's criteria failed: " ++ why))
  | e =>
      if isError e then
        .ok (notRebuilt ("the saved fix record could not be used (" ++ errorName e ++ ")"))
      else .error e

/-- Rebuild the criteria of a saved fix. -/
def rebuildVerify (sha256 : String → String) (cat : List Entry) (fix : Value) (runner : Runner σ)
    (s : σ) : Except E Rebuilt × σ :=
  match fix with
  | .dict fix =>
      match procedureWith cat (field fix "procedure_id") with
      | none => (.ok (notRebuilt "this version of ipa-diagnose has no such fix procedure"), s)
      | some p =>
          if (Value.str (procedureDigest sha256 p)).pyEq (field fix "procedure_digest") then
            match rebuildCriteria p (field fix "bindings") runner s with
            | (.ok (some criteria), s) => (.ok (compareDigest sha256 fix criteria), s)
            | (.ok none, s) =>
                (.ok (notRebuilt "the values saved for the fix are not valid values of their type"), s)
            | (.error e, s) => (rebuildError e, s)
          else
            (.ok (notRebuilt ("the fix procedure is not the one that was shown (ipa-diagnose or its "
              ++ "procedure catalogue changed since)")), s)
  | _ => (.ok (notRebuilt "the saved fix record is malformed"), s)

/-! ## Only an interrupt ends them -/

theorem rebuildVerify_error {sha256 : String → String} {cat : List Entry} {fix : Value}
    {runner : Runner σ} {s s' : σ} {e : E}
    (h : rebuildVerify sha256 cat fix runner s = (.error e, s')) : e = .keyboardInterrupt := by
  unfold rebuildVerify at h
  split at h
  · split at h
    · cases h
    · split at h
      · split at h
        · cases h
        · cases h
        · obtain ⟨hr, -⟩ := Prod.mk.inj h
          unfold rebuildError at hr
          split at hr
          · cases hr
          · split at hr
            · cases hr
            · rename_i herror
              obtain rfl := Except.error.inj hr
              unfold isError at herror
              split at herror
              · rfl
              · exact absurd rfl herror
      · cases h
  · cases h

theorem evaluateVerify_error {runner : Runner σ} {e : E} : ∀ {criteria : List Criterion}
    {s s' : σ}, evaluateVerify runner criteria s = (.error e, s') → e = .keyboardInterrupt := by
  intro criteria
  induction criteria with
  | nil => intro s s' h; cases h
  | cons c cs ih =>
      intro s s' h
      rw [evaluateVerify] at h
      split at h
      · rename_i e' s₁ hone
        obtain ⟨he, -⟩ := Prod.mk.inj h
        obtain rfl := Except.error.inj he
        unfold evaluateOne at hone
        split at hone
        · obtain ⟨hv, -⟩ := Prod.mk.inj hone
          unfold verdict at hv
          split at hv
          · cases hv
          · cases hv
          · split at hv
            · cases hv
            · rename_i herror
              obtain rfl := Except.error.inj hv
              unfold isError at herror
              split at herror
              · rfl
              · exact absurd rfl herror
        · cases hone
      · split at h
        · rename_i hrest
          obtain ⟨he, -⟩ := Prod.mk.inj h
          obtain rfl := Except.error.inj he
          exact ih hrest
        · cases h

end IpaDiagnose.Resolver
