import IpaDiagnose.Engine.Model
import IpaDiagnose.Resolution.Catalogue

/-!
# Resolving a diagnosis

For a diagnosis the catalogue has a procedure for: read the values the
procedure needs, run its checks, drop or withhold what the evidence
contradicts, and only then render its steps. Every gate can only
withhold. The runner of checks is a state machine that answers or raises.
-/

namespace IpaDiagnose.Resolver

open Py (Value Dict Exc)

/-- A runner of read-only checks. -/
structure Runner (σ : Type) where
  run : σ → String → Dict → Except E CheckResult × σ
  replay : Bool

variable {σ : Type}

def unknown {α : Type} (why : String) : Except E α := .error (.own (.unknown why))

def sanitizeValue (v : Value) (limit : Nat) : String := sanitizeText v.toStr limit

/-! ## Scopes -/

/-- Results by the id of their check; ids are compared as dictionary keys. -/
abbrev Checks := List (Value × CheckResult)

def Checks.set (id : Value) (res : CheckResult) : Checks → Checks
  | [] => [(id, res)]
  | (k, r) :: cs => if k.pyEq id then (k, res) :: cs else (k, r) :: Checks.set id res cs

def Checks.get? (cs : Checks) (id : Value) : Option CheckResult :=
  (cs.find? fun c => c.1.pyEq id).map (·.2)

/-- What the values of a procedure are read from. -/
structure Scope where
  bindings : Dict
  checks : Checks
  item : Option Dict := none
  itemChecks : Checks := []

def Scope.check? (sc : Scope) (id : Value) : Option CheckResult :=
  (sc.itemChecks.get? id).or (sc.checks.get? id)

/-- The field of a check that ran. -/
def Scope.result (sc : Scope) (ref : Dict) : Except E Value :=
  match ref.lookup "ref" with
  | none => .error .keyError
  | some id =>
      if id.hashable = false then .error .typeError
      else
        match sc.check? id with
        | none => unknown (id.toStr ++ " could not be checked")
        | some res =>
            if res.status ≠ OK then
              unknown (if res.display ≠ "" then res.display else id.toStr ++ " could not be checked")
            else
              match ref.lookup "field" with
              | none => .error .keyError
              | some name => do
                  match ← Py.lookupKey res.fields name with
                  | none => unknown (id.toStr ++ " did not report " ++ name.toStr)
                  | some v => pure v

def Scope.value (sc : Scope) : Value → Except E Value
  | .dict ref =>
      match ref.lookup "bind", ref.lookup "item" with
      | some name, _ => do
          match ← Py.lookupKey sc.bindings name with
          | some v => pure v
          | none => .error .keyError
      | none, some name =>
          match sc.item with
          | none => unknown "missing item value"
          | some item => do
              match ← Py.lookupKey item name with
              | some v => pure v
              | none => unknown "missing item value"
      | none, none => sc.result ref
  | v => .ok v

/-! ## Predicates -/

def notFinite : Value → Bool
  | .float (.inf _) => true
  | .float .nan => true
  | _ => false

/-- An order comparison; values without an order are not comparable. -/
def ordered (accept : Ordering → Bool) (a b : Value) : Except E Bool :=
  match Value.order accept a b with
  | some r => .ok r
  | none => unknown "values are not comparable"

def member (a b : Value) : Except E Bool :=
  match a.isIn (if b.truthy then b else .list []) with
  | some r => .ok r
  | none => unknown "values are not comparable"

def absolute (a : Value) : Except E Value :=
  match a.abs? with
  | some r => .ok r
  | none => unknown "values are not comparable"

/-- Operators that need both values. -/
def compareOrdered (op : String) (a b : Value) : Except E Bool :=
  if a = .null ∨ b = .null then unknown "value missing"
  else if notFinite a || notFinite b then unknown "value is not a finite number"
  else if op = "lt" then ordered (· == .lt) a b
  else if op = "le" then ordered (· != .gt) a b
  else if op = "gt" then ordered (· == .gt) a b
  else if op = "ge" then ordered (· != .lt) a b
  else if op = "abs_lt" then do ordered (· == .lt) (← absolute a) b
  else if op = "abs_ge" then do ordered (· != .lt) (← absolute a) b
  else unknown ("unknown operator " ++ op)

def compare (op : String) (a b : Value) : Except E Bool :=
  if op = "eq" then .ok (a.pyEq b)
  else if op = "ne" then .ok (!a.pyEq b)
  else if op = "in" then member a b
  else if op = "not_in" then (member a b).map (!·)
  else if op = "is_true" then .ok (a == .bool true)
  else if op = "is_false" then .ok (a == .bool false)
  else if op = "is_empty" then
    .ok ([Value.null, .str "", .list [], .dict []].any a.pyEq)
  else compareOrdered op a b

def compareIn (sc : Scope) (p : Dict) : Except E Bool :=
  match p.lookup "op", p.lookup "left" with
  | some op, some left => do
      let a ← sc.value left
      let b ← sc.value (field p "right")
      compare op.toStr a b
  | _, _ => .error .keyError

mutual

/-- True or false, or an unknown value. A shape the validator refuses is a type error. -/
def pred (sc : Scope) : Pred → Except E Bool
  | .all _ ps => predAll sc ps
  | .any _ ps => predAny sc none ps
  | .not _ p => (pred sc p).map (!·)
  | .cmp kvs => compareIn sc kvs
  | .other _ => .error .typeError

def predAll (sc : Scope) : List Pred → Except E Bool
  | [] => .ok true
  | p :: ps => do
      if ← pred sc p then predAll sc ps else pure false

/-- One that holds decides; otherwise one that is unknown leaves it unknown. -/
def predAny (sc : Scope) (open_ : Option String) : List Pred → Except E Bool
  | [] =>
      match open_ with
      | some why => unknown why
      | none => .ok false
  | p :: ps =>
      match pred sc p with
      | .ok true => .ok true
      | .ok false => predAny sc open_ ps
      | .error (.own (.unknown why)) => predAny sc (some why) ps
      | .error e => .error e

end

/-! ## Texts and commands -/

/-- A text with its values; one that is not known reads as a question mark. -/
def text (sc : Scope) (template : String) : String :=
  TEMPLATE_RE.sub
    (fun m =>
      match sc.value (.dict (placeholderRef m)) with
      | .ok v => sanitizeValue v 160
      | .error _ => "?")
    template

/-- A label, which need not be a text. -/
def labelText (sc : Scope) : Value → Except E String
  | .str template => .ok (text sc template)
  | _ => .error .typeError

def strictParts (sc : Scope) : List (Char ⊕ Regex.Match) → Except E (List Char)
  | [] => .ok []
  | .inl c :: rest => do
      let cs ← strictParts sc rest
      pure (c :: cs)
  | .inr m :: rest => do
      let v ← sc.value (.dict (placeholderRef m))
      if sanitizeValue v 4096 = "" then unknown ("no value for " ++ String.ofList m.text)
      else
        let cs ← strictParts sc rest
        pure ((sanitizeValue v 4096).toList ++ cs)

/-- A text all of whose values must be known. -/
def textStrict (sc : Scope) (template : String) : Except E String :=
  (strictParts sc (TEMPLATE_RE.tokens template)).map String.ofList

def argOf (sc : Scope) : Arg → Except E String
  | .lit s => .ok s
  | .hole ref type => do
      let raw ← sc.value (.dict ref)
      match ← T.validate type raw with
      | none => unknown ("a value needed for the command did not validate as " ++ type)
      | some v => pure v

def argv (sc : Scope) : List Arg → Except E (List String)
  | [] => .ok []
  | a :: as => do
      let v ← argOf sc a
      let rest ← argv sc as
      pure (v :: rest)

/-! ## Bindings -/

/-- A field of an item: free text is cleaned, everything else must validate. -/
def readField (type : String) (v : Value) : Except E (Option String) :=
  match type, v with
  | "any_text", .str s => .ok (some (sanitizeText s 64))
  | type, v => T.validate type v

/-- The fields of an item, or the first one without a usable value. -/
def readItem (it : Dict) : List (String × String) → Except E (Dict ⊕ String)
  | [] => .ok (.inl [])
  | (f, t) :: fields => do
      match ← readField t (field it f) with
      | none => pure (.inr f)
      | some s =>
          if s = "" then pure (.inr f)
          else
            match ← readItem it fields with
            | .inl good => pure (.inl ((f, .str s) :: good))
            | .inr bad => pure (.inr bad)

/-- Why an item is left out. -/
def skipReason (fields : List (String × String)) (it : Dict) (bad : String) : String :=
  let where_ := sanitizeValue ((it.lookup "path").getD (.str "a reported item")) 120
  match it.lookup "withhold_reason" with
  | some (.str why) => "Skipped " ++ where_ ++ ": " ++ sanitizeText why 200 ++ "."
  | _ =>
      let label :=
        if bad = "got" then "current"
        else if bad = "expected" then "expected"
        else if bad = "" then "reported"
        else bad
      let shown := if bad = "" then "" else sanitizeValue ((it.lookup bad).getD (.str "")) 60
      let why :=
        if fields.lookup bad = some "ipa_account" then "is not one of the IPA service accounts"
        else "is not a single value that can be used safely"
      "Skipped " ++ where_ ++ ": the " ++ label ++ " value"
        ++ (if shown = "" then "" else " (" ++ shown ++ ")") ++ " " ++ why ++ "."

/-- The items of a list that can be used, and why the others cannot. -/
def readItems (fields : List (String × String)) :
    List Value → Except E (List Dict × List String)
  | [] => .ok ([], [])
  | .dict it :: vs => do
      let got ← readItem it fields
      let (items, reasons) ← readItems fields vs
      match got with
      | .inl good => pure (good :: items, reasons)
      | .inr bad => pure (items, skipReason fields it bad :: reasons)
  | _ :: vs => readItems fields vs

/-- The values a procedure is filled with; a list is kept as its items too. -/
structure Bound where
  values : Dict
  lists : List (String × List Dict)

def asList : Value → List Value
  | .list xs => xs
  | _ => []

def itemsValue (items : List Dict) : Value := .list (items.map Value.dict)

/-- The bindings in order, until one has no usable value. -/
def readSpecs (given : Dict) : List (String × BindingSpec) → Except E (Option Bound × List String)
  | [] => .ok (some ⟨[], []⟩, [])
  | (name, spec) :: specs =>
      if spec.type = "list" then do
        let (items, reasons) ← readItems spec.fields (asList (field given name))
        let (rest, more) ← readSpecs given specs
        pure (rest.map fun b => ⟨(name, itemsValue items) :: b.values, (name, items) :: b.lists⟩,
          reasons ++ more)
      else do
        match ← T.validate spec.type (field given name) with
        | none => pure (none, [])
        | some v => do
            let (rest, more) ← readSpecs given specs
            pure (rest.map fun b => { b with values := (name, .str v) :: b.values }, more)

/-- Lists that are all empty leave nothing to fix. -/
def readBindings (specs : List (String × BindingSpec)) (given : Dict) :
    Except E (Option Bound × List String) := do
  let (bound, reasons) ← readSpecs given specs
  match bound with
  | none => pure (none, reasons)
  | some b =>
      if !b.lists.isEmpty && b.lists.all (·.2.isEmpty) then pure (none, reasons)
      else pure (some b, reasons)

/-! ## Versions -/

def digits : Regex.Re := .plus (.cls fun c => (Unicode.decimalValue? c).isSome)

def VERSION_RE : Regex.Re :=
  .seqAll [.star space, .group 1 digits, .char '.', .group 2 digits,
    .opt (.seq (.char '.') (.group 3 digits)), .opt (.seq (.char '-') (.plus (alnumOr "._+~"))),
    .star space]

def version (s : String) : Option (List Nat) :=
  (VERSION_RE.fullmatch? s).map fun m =>
    [1, 2, 3].filterMap fun i => (m.group? i).map fun g => (T.parseNat g).getD 0

/-- The version this host runs. -/
def hereVersion (env : Option EnvironmentInfo) : Option (List Nat) :=
  (env.bind EnvironmentInfo.freeipaVersion).bind version

/-- `here < bound`; a bound without a version cannot be compared with. -/
def below (here : List Nat) (bound : String) : Except E Bool :=
  match version bound with
  | none => .error .typeError
  | some v => .ok (decide (here < v))

/-- Below a bound, if there is one. -/
def belowBound (here : List Nat) (unbounded : Bool) : Option String → Except E Bool
  | none => .ok unbounded
  | some bound => below here bound

def versionMissing (p : Procedure) (replay : Bool) : String :=
  if replay then
    (if p.clientRole then "This recorded evidence does not include the IPA client version"
      else "This recorded evidence does not include the FreeIPA version")
      ++ " or the checks a fix needs, so no fix can be confirmed from it."
  else if p.clientRole then
    "Could not read the IPA client version (rpm -q freeipa-client), so it is not established "
      ++ "that this procedure applies here."
  else
    "Could not read the FreeIPA server version (rpm -q freeipa-server), so it is not "
      ++ "established that this procedure applies here."

def versionText (env : Option EnvironmentInfo) : String :=
  (env.bind EnvironmentInfo.freeipaVersion).getD "None"

/-- Why the procedure does not apply to this version, if it does not. -/
def inapplicable (p : Procedure) (env : Option EnvironmentInfo) (replay : Bool) :
    Except E (Option String) :=
  match hereVersion env with
  | none => .ok (some (versionMissing p replay))
  | some here => do
      let early ← belowBound here false p.freeipaMin
      if early then
        pure (some ("This procedure applies to FreeIPA " ++ p.freeipaMin.getD ""
          ++ " or later; this server runs " ++ versionText env ++ "."))
      else do
        let before ← belowBound here true p.freeipaBelow
        if before then pure none
        else
          pure (some ("This procedure has not been established for FreeIPA "
            ++ p.freeipaBelow.getD "" ++ " or later (this server runs " ++ versionText env ++ ")."))

/-! ## Evidence -/

/-- An item of a list, with the results of its own checks. -/
structure Target where
  item : Dict
  checks : Checks

/-- What has been established. -/
structure Evidence where
  bindings : Dict
  checks : Checks
  lists : List (String × List Target)

namespace Evidence

def start (b : Bound) : Evidence :=
  { bindings := b.values
    checks := []
    lists := b.lists.map fun l => (l.1, l.2.map fun it => ⟨it, []⟩) }

def base (ev : Evidence) : Scope := { bindings := ev.bindings, checks := ev.checks }

def scopeOf (ev : Evidence) (t : Target) : Scope :=
  { bindings := ev.bindings, checks := ev.checks, item := some t.item, itemChecks := t.checks }

/-- The items of the list `for_each` names. -/
def targets (ev : Evidence) (forEach : Value) : Except E (List Target) := do
  match ← Py.lookupKey ev.lists forEach with
  | none => .error .keyError
  | some ts => pure ts

def scopes (ev : Evidence) (forEach : Value) : Except E (List Scope) :=
  if forEach.truthy then do
    let ts ← ev.targets forEach
    pure (ts.map ev.scopeOf)
  else .ok [ev.base]

def setTargets (name : Value) (ts : List Target) :
    List (String × List Target) → List (String × List Target)
  | [] => []
  | (n, old) :: ls =>
      if Value.str n = name then (n, ts) :: ls else (n, old) :: setTargets name ts ls

def narrow (ev : Evidence) (name : Value) (ts : List Target) : Evidence :=
  { ev with lists := setTargets name ts ev.lists }

/-- The lists as they are now are the values of their bindings. -/
def rebound (ev : Evidence) : Evidence :=
  { ev with
    bindings := ev.bindings.map fun b =>
      match ev.lists.lookup b.1 with
      | some ts => (b.1, itemsValue (ts.map Target.item))
      | none => b }

end Evidence

/-! ## Investigations -/

/-- The checks shown so far, and the runner. -/
structure Session (σ : Type) where
  runner : σ
  shown : List (String × CheckResult)

inductive Progress (σ α : Type) where
  | done (a : α) (s : Session σ)
  | stuck (reason : String) (s : Session σ)

/-- The values of the parameters, in order. -/
def valuesOf (sc : Scope) : Dict → Except E Dict
  | [] => .ok []
  | (k, v) :: kvs => do
      let x ← sc.value v
      let rest ← valuesOf sc kvs
      pure ((k, x) :: rest)

/-- The scope once the result of an investigation is known. -/
def Scope.record (sc : Scope) (inv : Inv) (res : CheckResult) : Scope :=
  if inv.forEach.truthy then { sc with itemChecks := sc.itemChecks.set inv.id res }
  else { sc with checks := sc.checks.set inv.id res }

/-- Run one check. A parameter without a value leaves it unchecked. -/
def ask (runner : Runner σ) (inv : Inv) (sc : Scope) (s : Session σ) :
    Except E (Progress σ CheckResult) :=
  match valuesOf sc inv.params with
  | .error (.own (.unknown why)) => do
      let label ← labelText sc inv.label
      pure (.stuck ("Could not check " ++ label ++ ": " ++ why) s)
  | .error e => .error e
  | .ok params => do
      let (answer, next) := runner.run s.runner inv.check params
      let res ← answer
      let label ← labelText (sc.record inv res) inv.label
      pure (.done res { runner := next, shown := s.shown ++ [(label, res)] })

/-- Run a check for every item. -/
def askEach (runner : Runner σ) (inv : Inv) (ev : Evidence) :
    List Target → Session σ → Except E (Progress σ (List Target))
  | [], s => .ok (.done [] s)
  | t :: ts, s => do
      match ← ask runner inv (ev.scopeOf t) s with
      | .stuck why s => pure (.stuck why s)
      | .done res s =>
          match ← askEach runner inv ev ts s with
          | .stuck why s => pure (.stuck why s)
          | .done rest s => pure (.done ({ t with checks := t.checks.set inv.id res } :: rest) s)

def investigateOne (runner : Runner σ) (inv : Inv) (ev : Evidence) (s : Session σ) :
    Except E (Progress σ Evidence) :=
  if inv.forEach.truthy then do
    let ts ← ev.targets inv.forEach
    match ← askEach runner inv ev ts s with
    | .stuck why s => pure (.stuck why s)
    | .done ts s => pure (.done (ev.narrow inv.forEach ts) s)
  else do
    match ← ask runner inv ev.base s with
    | .stuck why s => pure (.stuck why s)
    | .done res s => pure (.done { ev with checks := ev.checks.set inv.id res } s)

def investigate (runner : Runner σ) :
    List Inv → Evidence → Session σ → Except E (Progress σ Evidence)
  | [], ev, s => .ok (.done ev s)
  | inv :: invs, ev, s => do
      match ← investigateOne runner inv ev s with
      | .stuck why s => pure (.stuck why s)
      | .done ev s => investigate runner invs ev s

/-! ## Contradicting evidence -/

/-- The real target an item reaches, if a check of it says so. -/
def Target.reached (t : Target) : Option String :=
  t.checks.findSome? fun c =>
    if c.2.status = OK ∧ (field c.2.fields "target").truthy then
      some (field c.2.fields "target").toStr
    else none

/-- What is expected of an item, apart from its path. -/
def Target.expectation (t : Target) : String :=
  (Value.dict (t.item.filter (·.1 != "path"))).jsonDumps

/-- The first target that two items expect different things of. -/
def clashIn (ts : List Target) : Option String :=
  (ts.find? fun t =>
    t.reached.isSome
      && ts.any fun u => u.reached == t.reached && u.expectation != t.expectation).bind Target.reached

def clashReason (target : String) : String :=
  "Two findings expect different values for the same file (" ++ sanitizeText target 160
    ++ "), so ipa-diagnose cannot tell which one is right."

def clash (ev : Evidence) : Option String :=
  (ev.lists.findSome? fun l => clashIn l.2).map clashReason

/-- What a gate decides. -/
inductive Gate (α : Type) where
  | pass (a : α)
  | withhold (reasons : List String)

/-- Is an item dropped, and why? -/
def dropTarget (w : Withhold) (ev : Evidence) (t : Target) : Except E (Option String) :=
  match pred (ev.scopeOf t) w.when with
  | .ok true => .ok (some (text (ev.scopeOf t) w.reason))
  | .ok false => .ok none
  | .error (.own (.unknown why)) =>
      .ok (some ("Could not establish the current state of "
        ++ sanitizeValue ((t.item.lookup "path").getD (.str "a target")) 120 ++ ": " ++ why))
  | .error e => .error e

/-- The items kept, and why the others are dropped. -/
def dropTargets (w : Withhold) (ev : Evidence) :
    List Target → Except E (List Target × List String)
  | [] => .ok ([], [])
  | t :: ts => do
      let why ← dropTarget w ev t
      let (kept, reasons) ← dropTargets w ev ts
      match why with
      | some why => pure (kept, why :: reasons)
      | none => pure (t :: kept, reasons)

def withholdOne (w : Withhold) (ev : Evidence) (reasons : List String) :
    Except E (Gate (Evidence × List String)) :=
  if w.forEach.truthy then do
    let (kept, more) ← dropTargets w ev (← ev.targets w.forEach)
    pure (.pass (ev.narrow w.forEach kept, reasons ++ more))
  else
    match pred ev.base w.when with
    | .ok true => .ok (.withhold (reasons ++ [text ev.base w.reason]))
    | .ok false => .ok (.pass (ev, reasons))
    | .error (.own (.unknown why)) =>
        .ok (.withhold (reasons ++ ["Could not establish the current state: " ++ why]))
    | .error e => .error e

def withholdAll : List Withhold → Evidence → List String →
    Except E (Gate (Evidence × List String))
  | [], ev, reasons => .ok (.pass (ev, reasons))
  | w :: ws, ev, reasons => do
      match ← withholdOne w ev reasons with
      | .withhold reasons => pure (.withhold reasons)
      | .pass (ev, reasons) => withholdAll ws ev reasons

/-! ## Prerequisites -/

structure Prerequisite where
  text : String
  /-- met, unmet, unknown or confirm -/
  state : String
deriving DecidableEq

def prerequisite (sc : Scope) (pr : PrerequisiteSpec) : Except E Prerequisite :=
  match pr.when with
  | none => .ok ⟨text sc pr.text, "confirm"⟩
  | some when =>
      match pred sc when with
      | .ok true => .ok ⟨text sc pr.text, "met"⟩
      | .ok false => .ok ⟨text sc pr.text, "unmet"⟩
      | .error (.own (.unknown why)) =>
          .ok ⟨text sc pr.text ++ " (could not check: " ++ why ++ ")", "unknown"⟩
      | .error e => .error e

def prerequisites (sc : Scope) : List PrerequisiteSpec → Except E (List Prerequisite)
  | [] => .ok []
  | pr :: prs => do
      let p ← prerequisite sc pr
      let rest ← prerequisites sc prs
      pure (p :: rest)

def Prerequisite.open_ (p : Prerequisite) : Bool := p.state == "unmet" || p.state == "unknown"

/-! ## The fix -/

structure Confirm where
  text : String
  argv : List String
  expect : String
deriving DecidableEq

structure Step where
  stepId : Value
  text : String
  argv : List String
  risk : String
  changes : List String
  expected : String
  runOn : String
deriving DecidableEq

structure Rollback where
  text : String
  argv : Option (List String)
deriving DecidableEq

/-- A criterion of success; its condition is kept as the document it is saved as. -/
structure Criterion where
  text : String
  check : String
  params : Dict
  when : Value
deriving DecidableEq

/-- Keep the first of the elements that are the same. -/
def dedupeFrom {α : Type} (same : α → α → Bool) : List α → List α → List α
  | _, [] => []
  | seen, x :: xs =>
      if seen.any (same x) then dedupeFrom same seen xs
      else x :: dedupeFrom same (x :: seen) xs

def dedupe {α : Type} (same : α → α → Bool) (xs : List α) : List α := dedupeFrom same [] xs

/-- The same by a key. -/
def byKey {α β : Type} [BEq β] (key : α → β) (x y : α) : Bool := key x == key y

/-- Does an entry apply in a scope? -/
def appliesIn (onlyIf : Option Pred) (sc : Scope) : Except E Bool :=
  match onlyIf with
  | none => .ok true
  | some p => pred sc p

/-- Render an entry in every scope it applies to. -/
def renderIn {α : Type} (onlyIf : Option Pred) (f : Scope → Except E α) :
    List Scope → Except E (List α)
  | [] => .ok []
  | sc :: scs => do
      let applies ← appliesIn onlyIf sc
      if applies then do
        let a ← f sc
        let rest ← renderIn onlyIf f scs
        pure (a :: rest)
      else renderIn onlyIf f scs

/-- Render the entries of a list, each in the scopes of its `for_each`. -/
def renderAll {α β : Type} (ev : Evidence) (forEach : β → Value) (onlyIf : β → Option Pred)
    (f : β → Scope → Except E α) : List β → Except E (List α)
  | [] => .ok []
  | b :: bs => do
      let scs ← ev.scopes (forEach b)
      let here ← renderIn (onlyIf b) (f b) scs
      let rest ← renderAll ev forEach onlyIf f bs
      pure (here ++ rest)

def renderConfirm (c : ConfirmSpec) (sc : Scope) : Except E Confirm := do
  let command ← argv sc c.command
  let expect ← textStrict sc c.expect
  pure ⟨text sc c.text, command, expect⟩

def renderStep (s : StepSpec) (sc : Scope) : Except E Step := do
  let command ← argv sc s.command
  pure { stepId := s.id, text := text sc s.text, argv := command, risk := s.risk,
         changes := s.changes, expected := text sc s.expected, runOn := s.runOn }

def renderRollback (e : EntrySpec) (sc : Scope) : Except E Rollback :=
  match e.command with
  | none => .ok ⟨text sc e.text, none⟩
  | some command => do
      let command ← argv sc command
      pure ⟨text sc e.text, some command⟩

def renderChange (e : EntrySpec) (sc : Scope) : Except E String := .ok (text sc e.text)

/-- A value with its reference replaced; a reference to the criterion's own check stays. -/
def concrete (sc : Scope) (v : Value) : Except E Value :=
  match v with
  | .dict ref =>
      if (field ref "ref").pyEq (.str "this") then .ok v
      else if (["bind", "item", "ref"].any fun k => (ref.lookup k).isSome) then sc.value v
      else .ok v
  | _ => .ok v

def concreteCmp (sc : Scope) (p : Dict) : Except E Value :=
  match p.lookup "left", p.lookup "op" with
  | some left, some op => do
      let l ← concrete sc left
      match p.lookup "right" with
      | none => pure (.dict [("left", l), ("op", op)])
      | some right => do
          let r ← concrete sc right
          pure (.dict [("left", l), ("op", op), ("right", r)])
  | _, _ => .error .keyError

mutual

def concretePred (sc : Scope) : Pred → Except E Value
  | .all _ ps => do
      let vs ← concretePreds sc ps
      pure (.dict [("all", .list vs)])
  | .any _ ps => do
      let vs ← concretePreds sc ps
      pure (.dict [("any", .list vs)])
  | .not _ p => do
      let v ← concretePred sc p
      pure (.dict [("not", v)])
  | .cmp kvs => concreteCmp sc kvs
  | .other _ => .error .typeError

def concretePreds (sc : Scope) : List Pred → Except E (List Value)
  | [] => .ok []
  | p :: ps => do
      let v ← concretePred sc p
      let rest ← concretePreds sc ps
      pure (v :: rest)

end

def concreteParams (sc : Scope) : Dict → Except E Dict
  | [] => .ok []
  | (k, v) :: kvs => do
      let x ← concrete sc v
      let rest ← concreteParams sc kvs
      pure ((k, x) :: rest)

def renderCriterion (v : VerifySpec) (sc : Scope) : Except E Criterion := do
  let params ← concreteParams sc v.params
  let when ← concretePred sc v.when
  pure { text := text sc v.text, check := v.check, params := params, when := when }

/-- What makes two criteria the same check. -/
def Criterion.key (c : Criterion) : String :=
  (Value.dict [("check", .str c.check), ("params", .dict c.params), ("when", c.when)]).jsonDumps

def buildVerify (p : Procedure) (ev : Evidence) : Except E (List Criterion) := do
  let out ← renderAll ev VerifySpec.forEach (fun _ => none) renderCriterion p.verify
  pure (dedupe (byKey Criterion.key) out)

/-- All that a fix shows. -/
structure Fix where
  confirmFirst : List Confirm
  steps : List Step
  whatChanges : List String
  rollback : List Rollback
  verify : List Criterion

def render (p : Procedure) (ev : Evidence) : Except E Fix := do
  let confirmFirst ← renderAll ev ConfirmSpec.forEach (fun _ => none) renderConfirm p.confirmFirst
  let steps ← renderAll ev StepSpec.forEach StepSpec.onlyIf renderStep p.steps
  let whatChanges ← renderAll ev EntrySpec.forEach EntrySpec.onlyIf renderChange p.whatChanges
  let rollback ← renderAll ev EntrySpec.forEach EntrySpec.onlyIf renderRollback p.rollback
  let verify ← buildVerify p ev
  pure { confirmFirst := dedupe (byKey Confirm.argv) confirmFirst, steps := steps,
         whatChanges := whatChanges, rollback := rollback, verify := verify }

def Step.lastArg (s : Step) : String := s.argv.getLast?.getD ""

/-- The same step; ids are compared as dictionary keys. -/
def Step.same (s t : Step) : Bool := s.stepId.pyEq t.stepId && s.argv == t.argv

/-- The last argument of the first step that repeats another one with
different arguments. A step id that is no key cannot be looked up. -/
def contradiction : List Step → List Step → Except E (Option String)
  | _, [] => .ok none
  | seen, s :: ss =>
      if s.stepId.hashable = false then .error .typeError
      else if seen.any (fun t => t.stepId.pyEq s.stepId && t.lastArg == s.lastArg
          && t.argv != s.argv) then
        .ok (some s.lastArg)
      else contradiction (s :: seen) ss

/-! ## Digests -/

def criterionValue (c : Criterion) : Value :=
  .dict [("text", .str c.text), ("check", .str c.check), ("params", .dict c.params),
    ("when", c.when)]

def procedureDigest (sha256 : String → String) (p : Procedure) : String := sha256 p.raw.jsonDumps

/-- A digest of criteria, bound to the diagnosis they were shown for. -/
def criteriaDigest (sha256 : String → String) (criteria : List Criterion) (diagnosisId : String) :
    String :=
  sha256 (Value.list [.str diagnosisId, .list (criteria.map criterionValue)]).jsonDumps

/-! ## Resolutions -/

inductive ResolutionStatus where
  | offered
  | withheld
  | none
deriving DecidableEq, Repr

/-- The record `verify` needs of a fix that was shown. -/
structure Baseline where
  procedureId : String
  procedureDigest : String
  bindings : Dict
  criteriaDigest : String
deriving DecidableEq

structure Resolution where
  diagnosisId : String
  status : ResolutionStatus
  procedureId : Option String
  reasons : List String := []
  checks : List (String × CheckResult) := []
  prerequisites : List Prerequisite := []
  steps : List Step := []
  whatChanges : List String := []
  rollback : List Rollback := []
  risk : String := "READ_ONLY"
  verify : List Criterion := []
  replay : Bool := false
  confirmFirst : List Confirm := []
  baseline : Option Baseline := none
deriving DecidableEq

def blank (p : Procedure) (d : Diagnosis) (replay : Bool) : Resolution :=
  { diagnosisId := d.diagnosisId, status := .withheld, procedureId := some p.id, replay := replay }

def confidenceRank : ConfidenceLevel → Nat
  | .high => 2
  | .medium => 1
  | _ => 0

def neededRank (p : Procedure) : Nat := if p.minConfidence = "HIGH" then 2 else 1

/-- Why no fix of its own is shown for a symptom, or for a cause that is
not established well enough. -/
def doubt (p : Procedure) (d : Diagnosis) : Option String :=
  if d.priority = .relatedSymptom then
    let causes := PyStr.join "; " d.relatedToTitles
    some ("This is reported as a symptom of: "
      ++ sanitizeText (if causes = "" then "another problem reported above" else causes) 200
      ++ ". Fix that first, then run ipa-diagnose again.")
  else if d.status ≠ .diagnosed ∨ confidenceRank d.confidence.level < neededRank p then
    some ("The cause is not established with " ++ PyStr.lower p.minConfidence
      ++ " confidence, so no fix is shown.")
  else none

def noBinding (reasons : List String) : String :=
  if reasons.isEmpty then "The evidence does not name values that can be used safely in a command."
  else "No reported item can be changed safely (see above)."

/-- The worst of the risks of some steps. -/
def worstRisk : List Step → String
  | [] => "READ_ONLY"
  | s :: ss => ss.foldl (fun m t => if rank m < rank t.risk then t.risk else m) s.risk

def Rollback.key (r : Rollback) : List String ⊕ String :=
  match r.argv with
  | some (a :: as) => .inl (a :: as)
  | _ => .inr r.text

/-- A fix that is shown. -/
def offered (sha256 : String → String) (p : Procedure) (d : Diagnosis) (ev : Evidence) (fix : Fix)
    (r : Resolution) : Resolution :=
  let steps := dedupe Step.same fix.steps
  { r with
    status := .offered
    steps := steps
    whatChanges := dedupe (byKey id) fix.whatChanges
    rollback := dedupe (byKey Rollback.key) fix.rollback
    verify := fix.verify
    confirmFirst := fix.confirmFirst
    risk := worstRisk steps
    baseline := some
      { procedureId := p.id
        procedureDigest := procedureDigest sha256 p
        bindings := ev.bindings
        criteriaDigest := criteriaDigest sha256 fix.verify d.diagnosisId } }

/-- Render the fix, and show it unless something speaks against it. -/
def offer (sha256 : String → String) (p : Procedure) (d : Diagnosis) (ev : Evidence)
    (r : Resolution) : Except E Resolution :=
  match render p ev with
  | .error (.own (.unknown why)) =>
      .ok { r with reasons := r.reasons
        ++ ["A value needed for the fix could not be established safely: " ++ why] }
  | .error e => .error e
  | .ok fix =>
      if fix.steps.isEmpty then
        -- what was rendered besides the steps stays in the result
        .ok { r with
          whatChanges := fix.whatChanges
          rollback := fix.rollback
          verify := fix.verify
          confirmFirst := fix.confirmFirst
          reasons := r.reasons ++ ["No step applies to the current state."] }
      else do
        match ← contradiction [] fix.steps with
        | some target => pure { r with reasons := r.reasons ++ [clashReason target] }
        | none => pure (offered sha256 p d ev fix r)

/-- The lists are not all empty, if there are any. -/
def somethingLeft (ev : Evidence) : Bool := ev.lists.isEmpty || ev.lists.any fun l => !l.2.isEmpty

/-- From the evidence to a fix, or to why none is shown. -/
def decideFix (sha256 : String → String) (p : Procedure) (d : Diagnosis) (ev : Evidence)
    (r : Resolution) : Except E Resolution :=
  match clash ev with
  | some why => .ok { r with reasons := r.reasons ++ [why] }
  | none => do
      match ← withholdAll p.withholdIf ev r.reasons with
      | .withhold reasons => pure { r with reasons := reasons }
      | .pass (ev, reasons) =>
          if somethingLeft ev = false then
            pure { r with
              reasons := reasons ++ ["Nothing left to fix after checking the current state."] }
          else
            let ev := ev.rebound
            let prs ← prerequisites ev.base p.prerequisites
            let r := { r with reasons := reasons, prerequisites := prs }
            if prs.any Prerequisite.open_ then
              pure { r with reasons := reasons
                ++ ["A prerequisite is not met or could not be checked, so the fix is not shown."] }
            else offer sha256 p d ev r

/-- Resolve a diagnosis by a procedure. -/
def resolveProcedure (sha256 : String → String) (p : Procedure) (d : Diagnosis)
    (env : Option EnvironmentInfo) (runner : Runner σ) (s : σ) : Except E (Resolution × σ) :=
  let r := blank p d runner.replay
  match doubt p d with
  | some why => .ok ({ r with reasons := [why] }, s)
  | none => do
      match ← readBindings p.bindings d.bindings with
      | (none, reasons) => pure ({ r with reasons := reasons ++ [noBinding reasons] }, s)
      | (some bound, reasons) =>
          match ← inapplicable p env runner.replay with
          | some why => pure ({ r with reasons := reasons ++ [why] }, s)
          | none =>
              match ← investigate runner p.investigate (Evidence.start bound) ⟨s, []⟩ with
              | .stuck why ses =>
                  pure ({ r with reasons := reasons ++ [why], checks := ses.shown }, ses.runner)
              | .done ev ses => do
                  let out ← decideFix sha256 p d ev { r with reasons := reasons, checks := ses.shown }
                  pure (out, ses.runner)

/-- The entries for a diagnosis and its variant; of several, the one with the first id. -/
def selected (cat : List Entry) (key : String) (variant : Option String) : Option Entry :=
  let variant : Value := match variant with
    | some v => .str v
    | none => .null
  let found := cat.filter fun e => e.target.1.pyEq (.str key) && e.target.2.pyEq variant
  (found.mergeSort fun a b => PyStr.le a.id b.id).head?

def resolveDiagnosis (sha256 : String → String) (cat : List Entry) (d : Diagnosis)
    (env : Option EnvironmentInfo) (runner : Runner σ) (s : σ) :
    Except E (Option Resolution × σ) :=
  match d.resolutionKey with
  | none => .ok (none, s)
  | some key =>
      if key = "" then .ok (none, s)
      else
        match selected cat key d.variant with
        | none => .ok (none, s)
        | some (.noProcedure id _ _ reason) =>
            .ok (some { diagnosisId := d.diagnosisId, status := .none, procedureId := some id,
                        reasons := [reason] }, s)
        | some (.procedure p) => do
            let (r, s) ← resolveProcedure sha256 p d env runner s
            pure (some r, s)

end IpaDiagnose.Resolver
