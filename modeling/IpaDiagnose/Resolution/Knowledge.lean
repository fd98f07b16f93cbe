import IpaDiagnose.Resolution.Checks
import IpaDiagnose.TextSafe

/-!
# The procedure catalogue

A catalogue is a JSON document. Validation reads it into procedures: what
it checks gets a type of its own, and what it does not check stays the
value it was (a label, the id of a step, the name in `for_each`). An
invalid catalogue yields no procedure at all.
-/

namespace IpaDiagnose.Resolver

open Py (Value Dict Exc)
open Regex (Re)

/-- A value that could not be established, and a document that is not valid. -/
inductive ResolutionError where
  | unknown (why : String)
  | knowledge (message : String)
deriving DecidableEq, Repr

abbrev E := Exc ResolutionError

def fail {α : Type} (pid message : String) : Except E α :=
  .error (.own (.knowledge (pid ++ ": " ++ message)))

def failIf (bad : Prop) [Decidable bad] (pid message : String) : Except E Unit :=
  if bad then fail pid message else .ok ()

/-! ## Tables -/

/-- Risks, and what a step that makes a change must at least be labelled with. -/
def RISK_RANK : List (String × Nat) := [("READ_ONLY", 0), ("LOW", 1), ("MEDIUM", 2), ("HIGH", 3)]

def CHANGES_MIN_RISK : List (String × String) :=
  [("file-permission", "LOW"), ("certmonger-request", "LOW"), ("service-start", "MEDIUM"),
    ("service-restart", "MEDIUM"), ("time-resync", "MEDIUM"), ("cache-expire", "LOW"),
    ("cache-remove", "HIGH")]

def OPS : List String :=
  ["eq", "ne", "in", "not_in", "lt", "le", "gt", "ge", "abs_lt", "abs_ge", "is_true", "is_false",
    "is_empty"]

/-- Operators without a right side. -/
def UNARY_OPS : List String := ["is_true", "is_false", "is_empty"]

/-- Programs a confirmation may run, with the options allowed (none: any). -/
def CONFIRM_PROGRAMS : List (String × Option (List String)) :=
  [("stat", none), ("readlink", some ["-f"])]

def FIX_PROGRAMS : List String :=
  ["systemctl", "chmod", "chown", "chgrp", "chronyc", "getcert", "sss_cache", "sssctl"]

def SSSCTL_FIX_COMMANDS : List String := ["cache-remove"]

def reOf (first rest : Char → Bool) (lo hi : Nat) : Re := .seq (.cls first) (.rept lo hi (.cls rest))

def ID_RE : Re :=
  reOf Regex.lower (fun c => Regex.lower c || Regex.digit c || "_.-".toList.contains c) 2 80

def PROGRAM_RE : Re :=
  reOf Regex.lower (fun c => Regex.lower c || Regex.digit c || "_-".toList.contains c) 0 30

def ARG_LITERAL_RE : Re :=
  .rept 1 128 (.cls fun c => Unicode.isAsciiAlnum c || "@._/=:+%-".toList.contains c)

def RANGE_VERSION_RE : Re :=
  .seq (.rept 1 3 (.cls Regex.digit)) (.rept 1 3 (.seq (.char '.') (.rept 1 4 (.cls Regex.digit))))

def nameRe : Re := .plus (.cls fun c => Unicode.isAsciiAlnum c || c == '_')

/-- `{bind.x}`, `{item.x}`, `{ref.id.field}`: kind, name and field in groups 1 to 3. -/
def TEMPLATE_RE : Re :=
  .seqAll [.char '\x7b', .group 1 (.altAll [.lit "bind", .lit "item", .lit "ref"]), .char '.',
    .group 2 nameRe, .opt (.seq (.char '.') (.group 3 nameRe)), .char '\x7d']

/-! ## Predicates -/

/-- A predicate by its shape. `alone`: its key is the only one. What has no
such shape keeps what is wrong with it. -/
inductive Pred where
  | all (alone : Bool) (ps : List Pred)
  | any (alone : Bool) (ps : List Pred)
  | not (alone : Bool) (p : Pred)
  | cmp (kvs : Dict)
  | other (why : String)

def keyAlone (key : String) (kvs : Dict) : Bool := kvs.all (·.1 == key)

mutual

def readPred : Value → Pred
  | .dict kvs =>
      if (kvs.lookup "all").isSome then
        match readSubs "all" kvs with
        | some ps => .all (keyAlone "all" kvs) ps
        | none => .other ".all must be a non-empty list"
      else if (kvs.lookup "any").isSome then
        match readSubs "any" kvs with
        | some ps => .any (keyAlone "any" kvs) ps
        | none => .other ".any must be a non-empty list"
      else if (kvs.lookup "not").isSome then .not (keyAlone "not" kvs) (readNot kvs)
      else .cmp kvs
  | .str _ => .other ": predicates must be structured, not strings"
  | _ => .other ": predicate must be an object"

def readSubs (key : String) : List (String × Value) → Option (List Pred)
  | [] => none
  | (k, .list vs) :: kvs => if k = key then some (readPreds vs) else readSubs key kvs
  | (k, _) :: kvs => if k = key then none else readSubs key kvs

def readNot : List (String × Value) → Pred
  | [] => .other ": predicate must be an object"
  | (k, v) :: kvs => if k = "not" then readPred v else readNot kvs

def readPreds : List Value → List Pred
  | [] => []
  | v :: vs => readPred v :: readPreds vs

end

/-! ## Procedures -/

/-- A binding, and for a list the types of its items' fields. -/
structure BindingSpec where
  type : String
  item : Value
  fields : List (String × String)

/-- An argument of a command: a literal, or a reference with its type. -/
inductive Arg where
  | lit (s : String)
  | hole (ref : Dict) (type : String)

structure Inv where
  id : Value
  check : String
  params : Dict
  label : Value
  forEach : Value

structure Withhold where
  when : Pred
  reason : String
  forEach : Value

/-- A prerequisite; without a condition the administrator confirms it. -/
structure PrerequisiteSpec where
  text : String
  when : Option Pred

structure ConfirmSpec where
  text : String
  command : List Arg
  expect : String
  forEach : Value

structure StepSpec where
  id : Value
  text : String
  runOn : String
  command : List Arg
  risk : String
  changes : List String
  expected : String
  forEach : Value
  onlyIf : Option Pred

/-- What changes, or how to roll it back. -/
structure EntrySpec where
  text : String
  command : Option (List Arg)
  forEach : Value
  onlyIf : Option Pred

structure VerifySpec where
  text : String
  check : String
  params : Dict
  when : Pred
  forEach : Value

structure Procedure where
  id : String
  diagnosis : Value
  variant : Value
  minConfidence : String
  bindings : List (String × BindingSpec)
  freeipaMin : Option String
  freeipaBelow : Option String
  clientRole : Bool
  investigate : List Inv
  withholdIf : List Withhold
  prerequisites : List PrerequisiteSpec
  confirmFirst : List ConfirmSpec
  steps : List StepSpec
  whatChanges : List EntrySpec
  rollback : List EntrySpec
  verify : List VerifySpec
  /-- The definition itself, for its digest. -/
  raw : Value

/-- An entry of the catalogue: a procedure, or why there is none. -/
inductive Entry where
  | procedure (p : Procedure)
  | noProcedure (id : String) (diagnosis variant : Value) (reason : String)

def Entry.id : Entry → String
  | .procedure p => p.id
  | .noProcedure id _ _ _ => id

def Entry.target : Entry → Value × Value
  | .procedure p => (p.diagnosis, p.variant)
  | .noProcedure _ diagnosis variant _ => (diagnosis, variant)

/-! ## Checks on values -/

def sortedRepr (names : List String) : String :=
  (Value.list ((names.mergeSort PyStr.le).map Value.str)).repr

/-- An object with no unknown field and no required one missing. -/
def only (pid : String) (obj : Value) (where_ : String) (allowed required : List String) :
    Except E Dict :=
  match obj with
  | .dict kvs => do
      let extra := (kvs.map (·.1)).filter fun k => !allowed.contains k
      failIf (extra ≠ []) pid (where_ ++ ": unknown field(s) " ++ sortedRepr extra)
      let missing := required.filter fun k => (kvs.lookup k).isNone
      failIf (missing ≠ []) pid (where_ ++ ": missing field(s) " ++ sortedRepr missing)
      pure kvs
  | _ => fail pid (where_ ++ " must be an object")

/-- What references are checked against. `item` is what `for_each` says. -/
structure Ctx where
  pid : String
  bindings : List (String × BindingSpec)
  checks : List Value
  item : Value := .null

/-- `kvs[key]` where the key is known to be there. -/
def field (kvs : Dict) (key : String) : Value := (kvs.lookup key).getD .null

/-- The item fields a reference may name. -/
def Ctx.itemFields (ctx : Ctx) : Except E Value := do
  match ← Py.lookupKey ctx.bindings ctx.item with
  | none => .error .keyError
  | some spec => pure spec.item

def checkRef (ctx : Ctx) (where_ : String) (ref : Dict) : Except E Unit :=
  if (["bind", "item", "ref"].filter fun k => (ref.lookup k).isSome).length ≠ 1 then
    fail ctx.pid (where_ ++ ": a value reference needs exactly one of bind/item/ref")
  else if (ref.lookup "bind").isSome then do
    let bad := fail ctx.pid (where_ ++ ": unknown scalar binding " ++ (field ref "bind").repr)
    match ← Py.lookupKey ctx.bindings (field ref "bind") with
    | none => bad
    | some spec => if spec.type = "list" then bad else pure ()
  else if (ref.lookup "item").isSome then do
    failIf (ctx.item = .null) ctx.pid (where_ ++ ": item reference outside for_each")
    match (field ref "item").isIn (← ctx.itemFields) with
    | none => .error .typeError
    | some known =>
        failIf (known = false) ctx.pid
          (where_ ++ ": unknown item field " ++ (field ref "item").repr)
  else if (field ref "ref").hashable = false then .error .typeError
  else do
    failIf (ctx.checks.any (field ref "ref").pyEq = false) ctx.pid
      (where_ ++ ": unknown check reference " ++ (field ref "ref").repr)
    failIf ((field ref "field").truthy = false) ctx.pid
      (where_ ++ ": a check reference needs a field")

def EXPRESSION_TOKENS : List String := [" and ", " or ", "==", "!=", ">=", "<=", "now+", "("]

def checkValue (ctx : Ctx) (where_ : String) : Value → Except E Unit
  | .dict kvs => do
      let extra := (kvs.map (·.1)).filter fun k =>
        !(["bind", "item", "ref", "field", "type"].contains k)
      failIf (extra ≠ []) ctx.pid (where_ ++ ": unknown value fields " ++ sortedRepr extra)
      checkRef ctx where_ kvs
  | .str s =>
      failIf (EXPRESSION_TOKENS.any (PyStr.contains s) = true) ctx.pid
        (where_ ++ ": expressions are not allowed in knowledge (" ++ Py.reprStr s ++ ")")
  | _ => .ok ()

/-- A comparison: an operator, a left side, and a right side if the operator takes one. -/
def checkCmp (ctx : Ctx) (where_ : String) (p : Dict) : Except E Unit := do
  let _ ← only ctx.pid (.dict p) where_ ["left", "op", "right"] ["left", "op"]
  failIf (OPS.any (fun op => (field p "op").pyEq (.str op)) = false) ctx.pid
    (where_ ++ ": unknown operator " ++ (field p "op").repr)
  checkValue ctx (where_ ++ ".left") (field p "left")
  if UNARY_OPS.any (fun op => (field p "op").pyEq (.str op)) then pure ()
  else do
    failIf ((p.lookup "right").isNone = true) ctx.pid
      (where_ ++ ": operator " ++ (field p "op").toStr ++ " needs 'right'")
    checkValue ctx (where_ ++ ".right") (field p "right")

mutual

def checkPred (ctx : Ctx) (where_ : String) : Pred → Except E Unit
  | .all alone ps => do
      failIf (alone = false) ctx.pid (where_ ++ ": unknown field(s)")
      failIf (ps.isEmpty = true) ctx.pid (where_ ++ ".all must be a non-empty list")
      checkPreds ctx (where_ ++ ".all") 0 ps
  | .any alone ps => do
      failIf (alone = false) ctx.pid (where_ ++ ": unknown field(s)")
      failIf (ps.isEmpty = true) ctx.pid (where_ ++ ".any must be a non-empty list")
      checkPreds ctx (where_ ++ ".any") 0 ps
  | .not alone p => do
      failIf (alone = false) ctx.pid (where_ ++ ": unknown field(s)")
      checkPred ctx (where_ ++ ".not") p
  | .cmp kvs => checkCmp ctx where_ kvs
  | .other why => fail ctx.pid (where_ ++ why)

def checkPreds (ctx : Ctx) (where_ : String) (i : Nat) : List Pred → Except E Unit
  | [] => .ok ()
  | p :: ps => do
      checkPred ctx (where_ ++ "[" ++ toString i ++ "]") p
      checkPreds ctx where_ (i + 1) ps

end

/-! ## Checks on texts and commands -/

/-- The reference a placeholder of a text makes. -/
def placeholderRef (m : Regex.Match) : Dict :=
  ((m.group? 1).getD "", .str ((m.group? 2).getD "")) ::
    (match m.group? 3 with
      | some field => [("field", .str field)]
      | none => [])

def checkRefs (ctx : Ctx) (where_ : String) : List Regex.Match → Except E Unit
  | [] => .ok ()
  | m :: ms => do
      checkRef ctx where_ (placeholderRef m)
      checkRefs ctx where_ ms

def checkText (ctx : Ctx) (where_ : String) : Value → Except E String
  | .str text => do
      failIf (PyStr.strip text = "") ctx.pid (where_ ++ " must be non-empty text")
      checkRefs ctx where_ (TEMPLATE_RE.findall text)
      let stripped := TEMPLATE_RE.sub (fun _ => "") text
      failIf (PyStr.hasChar stripped '\x7b' ∨ PyStr.hasChar stripped '\x7d') ctx.pid
        (where_ ++ ": only \x7bbind.x\x7d, \x7bitem.x\x7d and \x7bref.id.field\x7d placeholders are allowed")
      pure text
  | _ => fail ctx.pid (where_ ++ " must be non-empty text")

def checkArg (ctx : Ctx) (where_ : String) : Value → Except E Arg
  | .str s => do
      failIf (ARG_LITERAL_RE.fullmatch s = false) ctx.pid
        (where_ ++ ": literal argument contains characters that are not allowed: " ++ Py.reprStr s)
      pure (.lit s)
  | .dict ref =>
      match ref.lookup "type" with
      | some (.str type) => do
          failIf (T.isType type = false) ctx.pid
            (where_ ++ ": a placeholder argument must declare a known type")
          checkValue ctx where_ (.dict ref)
          pure (.hole ref type)
      | some (.list _) => .error .typeError
      | some (.dict _) => .error .typeError
      | _ => fail ctx.pid (where_ ++ ": a placeholder argument must declare a known type")
  | _ => fail ctx.pid (where_ ++ ": unsupported argument")

def checkArgs (ctx : Ctx) (where_ : String) (i : Nat) : List Value → Except E (List Arg)
  | [] => .ok []
  | v :: vs => do
      let a ← checkArg ctx (where_ ++ "[" ++ toString i ++ "]") v
      let rest ← checkArgs ctx where_ (i + 1) vs
      pure (a :: rest)

/-- A command: the program, as a literal, and its arguments. -/
def checkArgv (ctx : Ctx) (where_ : String) : Value → Except E (List Arg)
  | .list (.str program :: vs) => do
      failIf (PROGRAM_RE.fullmatch program = false) ctx.pid
        (where_ ++ ": argv[0] must be a literal program name")
      checkArgs ctx where_ 0 (.str program :: vs)
  | .list (_ :: _) => fail ctx.pid (where_ ++ ": argv[0] must be a literal program name")
  | _ => fail ctx.pid (where_ ++ ": command must be a non-empty argv list")

/-- The program a command runs. -/
def program? : List Arg → Option String
  | .lit p :: _ => some p
  | _ => none

end IpaDiagnose.Resolver
