import IpaDiagnose.Resolution.Knowledge

/-!
# Validating a catalogue

Entry by entry, in the order of the document. Every list of a procedure
has a reader of its own; the ids of the investigations read so far are
what the later parts may refer to.
-/

namespace IpaDiagnose.Resolver

open Py (Value Dict Exc)

/-- Read every element of a list, with its index. -/
def checkEach {α : Type} (f : Nat → Value → Except E α) : Nat → List Value → Except E (List α)
  | _, [] => .ok []
  | i, v :: vs => do
      let a ← f i v
      let rest ← checkEach f (i + 1) vs
      pure (a :: rest)

/-- The elements of `proc[key]`, none if the key is missing. -/
def elements (proc : Dict) (key : String) : Except E (List Value) :=
  match proc.lookup key with
  | none => .ok []
  | some v => v.iter

def index (where_ : String) (i : Nat) : String := where_ ++ "[" ++ toString i ++ "]"

/-! ## Bindings -/

/-- The field types of a list binding's items. -/
def checkFields (pid where_ : String) : Dict → Except E (List (String × String))
  | [] => .ok []
  | (f, .str t) :: kvs => do
      failIf (T.isType t = false ∧ t ≠ "any_text") pid
        (where_ ++ ".item." ++ f ++ ": unknown type " ++ Py.reprStr t)
      let rest ← checkFields pid where_ kvs
      pure ((f, t) :: rest)
  | (_, .list _) :: _ => .error .typeError
  | (_, .dict _) :: _ => .error .typeError
  | (f, t) :: _ => fail pid (where_ ++ ".item." ++ f ++ ": unknown type " ++ t.repr)

def checkBinding (pid : String) (name : String) (v : Value) : Except E BindingSpec := do
  let where_ := "bindings." ++ name
  let spec ← only pid v where_ ["type", "item"] ["type"]
  let item := (spec.lookup "item").getD (.dict [])
  match field spec "type" with
  | .str "list" =>
      match spec.lookup "item" with
      | some (.dict (kv :: kvs)) => do
          let fields ← checkFields pid where_ (kv :: kvs)
          pure { type := "list", item := item, fields := fields }
      | _ => fail pid (where_ ++ ": list bindings need item field types")
  | .str type => do
      failIf (T.isType type = false) pid (where_ ++ ": unknown type " ++ Py.reprStr type)
      pure { type := type, item := item, fields := [] }
  | .list _ => .error .typeError
  | .dict _ => .error .typeError
  | t => fail pid (where_ ++ ": unknown type " ++ t.repr)

def checkBindings (pid : String) : Dict → Except E (List (String × BindingSpec))
  | [] => .ok []
  | (name, v) :: kvs => do
      let spec ← checkBinding pid name v
      let rest ← checkBindings pid kvs
      pure ((name, spec) :: rest)

/-! ## Applicability -/

/-- A version bound: missing, or a version from 4 on. -/
def checkBound (pid key : String) (v : Value) : Except E (Option String) :=
  let bad := fail pid ("applies_to." ++ key ++ " must be a FreeIPA version (4.x or later)")
  match v with
  | .null => .ok none
  | .str s =>
      if RANGE_VERSION_RE.fullmatch s = true ∧ 4 ≤ (T.parseNat (PyStr.before s '.')).getD 0 then
        .ok (some s)
      else bad
  | _ => bad

structure AppliesTo where
  freeipaMin : Option String
  freeipaBelow : Option String
  clientRole : Bool

def checkAppliesTo (pid : String) (v : Value) : Except E AppliesTo := do
  let a ← only pid v "applies_to" ["freeipa_min", "freeipa_below", "roles"] ["roles"]
  let freeipaMin ← checkBound pid "freeipa_min" (field a "freeipa_min")
  let freeipaBelow ← checkBound pid "freeipa_below" (field a "freeipa_below")
  if (field a "roles").pyEq (.list [.str "ipa-server"]) then pure ⟨freeipaMin, freeipaBelow, false⟩
  else if (field a "roles").pyEq (.list [.str "ipa-client"]) then
    pure ⟨freeipaMin, freeipaBelow, true⟩
  else fail pid "applies_to.roles: exactly one of ipa-server or ipa-client"

/-! ## The parts of a procedure -/

def checkValues (ctx : Ctx) (where_ : String) : Dict → Except E Unit
  | [] => .ok ()
  | (name, v) :: kvs => do
      checkValue ctx (where_ ++ "." ++ name) v
      checkValues ctx where_ kvs

/-- The same names, without regard to order. -/
def sameNames (params : Dict) (spec : CheckSpec) : Bool :=
  params.all (fun kv => (spec.params.lookup kv.1).isSome)
    && spec.params.all (fun kv => (params.lookup kv.1).isSome)

/-- A check of the registry with exactly its parameters. Parameters that are
no object have no items to check. -/
def checkCall (registry : Registry) (pid unknown wrong : String) (check params : Value) :
    Except E (String × Dict) := do
  match ← Py.lookupKey registry check, check, params with
  | some spec, .str name, .dict kvs => do
      failIf (sameNames kvs spec = false) pid wrong
      pure (name, kvs)
  | some _, .str _, _ => .error .attributeError
  | _, _, _ => fail pid unknown

/-- `for_each` of an investigation names a list. -/
def checkForEach (ctx : Ctx) (message : String) (forEach : Value) : Except E Unit :=
  if forEach = .null then .ok ()
  else do
    match ← Py.lookupKey ctx.bindings forEach with
    | some spec => failIf (spec.type ≠ "list") ctx.pid message
    | none => fail ctx.pid message

def checkInv (registry : Registry) (ctx : Ctx) (v : Value) : Except E Inv := do
  let inv ← only ctx.pid v "investigate[]" ["id", "check", "params", "label", "for_each"]
    ["id", "check", "params", "label"]
  let where_ := "investigate " ++ (field inv "id").toStr
  let (check, params) ← checkCall registry ctx.pid
    (where_ ++ ": unknown check " ++ (field inv "check").repr)
    (where_ ++ ": parameters must be exactly those of the check") (field inv "check")
    (field inv "params")
  let ctx := { ctx with item := field inv "for_each" }
  checkForEach ctx (where_ ++ ": for_each must name a list binding") ctx.item
  checkValues ctx where_ params
  if (field inv "id").hashable then
    pure { id := field inv "id", check := check, params := params, label := field inv "label",
           forEach := field inv "for_each" }
  else .error .typeError

/-- The investigations, each one's id known to the later ones. -/
def checkInvs (registry : Registry) (ctx : Ctx) : List Value → Except E (List Inv)
  | [] => .ok []
  | v :: vs => do
      let inv ← checkInv registry ctx v
      let rest ← checkInvs registry { ctx with checks := ctx.checks ++ [inv.id] } vs
      pure (inv :: rest)

def checkWithhold (ctx : Ctx) (i : Nat) (v : Value) : Except E Withhold := do
  let w ← only ctx.pid v "withhold_if[]" ["when", "reason", "for_each"] ["when", "reason"]
  let ctx := { ctx with item := field w "for_each" }
  let when := readPred (field w "when")
  checkPred ctx (index "withhold_if" i) when
  let reason ← checkText ctx (index "withhold_if" i ++ ".reason") (field w "reason")
  pure { when := when, reason := reason, forEach := field w "for_each" }

def checkPrerequisite (ctx : Ctx) (i : Nat) (v : Value) : Except E PrerequisiteSpec := do
  let pr ← only ctx.pid v "prerequisites[]" ["id", "text", "when", "kind"] ["id", "text"]
  let kind := (pr.lookup "kind").getD (.str "check")
  if kind.pyEq (.str "check") then
    match pr.lookup "when" with
    | none => fail ctx.pid ("prerequisite " ++ (field pr "id").toStr ++ " needs 'when'")
    | some when => do
        checkPred ctx (index "prerequisites" i) (readPred when)
        let text ← checkText ctx (index "prerequisites" i ++ ".text") (field pr "text")
        pure { text := text, when := some (readPred when) }
  else if kind.pyEq (.str "confirm_by_admin") then do
    let text ← checkText ctx (index "prerequisites" i ++ ".text") (field pr "text")
    pure { text := text, when := none }
  else fail ctx.pid "prerequisite kind must be check or confirm_by_admin"

/-- The options among a command's literal arguments. -/
def optionsOf (command : List Arg) : List String :=
  command.tail.filterMap fun a =>
    match a with
    | .lit s => if PyStr.startsWith s "-" then some s else none
    | .hole _ _ => none

/-- A confirmation runs an inspection program, with no option it may not have. -/
def checkConfirmProgram (pid where_ : String) (command : List Arg) : Except E Unit :=
  match CONFIRM_PROGRAMS.lookup ((program? command).getD "") with
  | none =>
      fail pid (where_ ++ ": " ++ Py.reprStr ((program? command).getD "")
        ++ " is not a read-only inspection program")
  | some none => .ok ()
  | some (some options) =>
      failIf ((optionsOf command).all options.contains = false) pid
        (where_ ++ ": option not allowed for " ++ (program? command).getD "")

def checkConfirm (ctx : Ctx) (i : Nat) (v : Value) : Except E ConfirmSpec := do
  let c ← only ctx.pid v "confirm_first[]" ["text", "command", "expect", "for_each"]
    ["text", "command", "expect"]
  let where_ := index "confirm_first" i
  let ctx := { ctx with item := field c "for_each" }
  let command ← checkArgv ctx (where_ ++ ".command") (field c "command")
  checkConfirmProgram ctx.pid where_ command
  let text ← checkText ctx (where_ ++ ".text") (field c "text")
  let expect ← checkText ctx (where_ ++ ".expect") (field c "expect")
  pure { text := text, command := command, expect := expect, forEach := field c "for_each" }

def rank (risk : String) : Nat := (RISK_RANK.lookup risk).getD 0

/-- What a step says it changes, and that its risk is not understated. -/
def checkChanges (pid where_ risk : String) : List Value → Except E (List String)
  | [] => .ok []
  | .str c :: vs =>
      match CHANGES_MIN_RISK.lookup c with
      | none => fail pid (where_ ++ ": unknown change " ++ Py.reprStr c)
      | some min => do
          failIf (rank risk < rank min) pid
            (where_ ++ ": risk " ++ risk ++ " is lower than required for " ++ Py.reprStr c)
          let rest ← checkChanges pid where_ risk vs
          pure (c :: rest)
  | .list _ :: _ => .error .typeError
  | .dict _ :: _ => .error .typeError
  | v :: _ => fail pid (where_ ++ ": unknown change " ++ v.repr)

/-- A fix runs an allowed program; of `sssctl`, an allowed command. -/
def checkStepProgram (pid where_ : String) (command : List Arg) : Except E Unit := do
  failIf (FIX_PROGRAMS.contains ((program? command).getD "") = false) pid
    (where_ ++ ": " ++ Py.reprStr ((program? command).getD "") ++ " is not an allowed fix program")
  if program? command = some "sssctl" then
    match command with
    | _ :: .lit sub :: _ =>
        failIf (SSSCTL_FIX_COMMANDS.contains sub = false) pid
          (where_ ++ ": only these sssctl commands may be a fix step: "
            ++ sortedRepr SSSCTL_FIX_COMMANDS)
    | _ :: .hole _ _ :: _ => .error .typeError
    | _ =>
        fail pid (where_ ++ ": only these sssctl commands may be a fix step: "
          ++ sortedRepr SSSCTL_FIX_COMMANDS)
  else pure ()

def checkOnlyIf (ctx : Ctx) (where_ : String) (entry : Dict) : Except E (Option Pred) :=
  match entry.lookup "only_if" with
  | none => .ok none
  | some v => do
      checkPred ctx (where_ ++ ".only_if") (readPred v)
      pure (some (readPred v))

def checkRisk (pid where_ : String) (v : Value) : Except E String :=
  match v with
  | .str risk =>
      if (RISK_RANK.lookup risk).isSome ∧ risk ≠ "READ_ONLY" then .ok risk
      else fail pid (where_ ++ ": a fix step must be LOW, MEDIUM or HIGH")
  | _ => fail pid (where_ ++ ": a fix step must be LOW, MEDIUM or HIGH")

def checkStep (ctx : Ctx) (v : Value) : Except E StepSpec := do
  let s ← only ctx.pid v "steps[]"
    ["id", "text", "run_on", "command", "risk", "changes", "expected", "for_each", "only_if"]
    ["id", "text", "run_on", "command", "risk", "changes", "expected"]
  let where_ := "step " ++ (field s "id").toStr
  failIf ((field s "run_on").pyEq (.str "local") = false) ctx.pid
    (where_ ++ ": run_on must be one of ('local',)")
  let risk ← checkRisk ctx.pid where_ (field s "risk")
  failIf ((field s "changes").truthy = false) ctx.pid (where_ ++ ": changes must be declared")
  let changes ← checkChanges ctx.pid where_ risk (← (field s "changes").iter)
  let ctx := { ctx with item := field s "for_each" }
  let command ← checkArgv ctx (where_ ++ ".command") (field s "command")
  checkStepProgram ctx.pid where_ command
  let onlyIf ← checkOnlyIf ctx where_ s
  let text ← checkText ctx (where_ ++ ".text") (field s "text")
  let expected ← checkText ctx (where_ ++ ".expected") (field s "expected")
  pure { id := field s "id", text := text, runOn := "local", command := command, risk := risk,
         changes := changes, expected := expected, forEach := field s "for_each",
         onlyIf := onlyIf }

/-- The command of an entry: an allowed program, with any arguments. -/
def checkCommand (ctx : Ctx) (where_ : String) (entry : Dict) : Except E (Option (List Arg)) :=
  match entry.lookup "command" with
  | none => .ok none
  | some v => do
      let command ← checkArgv ctx (where_ ++ ".command") v
      failIf (FIX_PROGRAMS.contains ((program? command).getD "") = false) ctx.pid
        (where_ ++ ": " ++ Py.reprStr ((program? command).getD "")
          ++ " is not an allowed fix program")
      pure (some command)

def checkEntry (key : String) (ctx : Ctx) (i : Nat) (v : Value) : Except E EntrySpec := do
  let entry ← only ctx.pid v (key ++ "[]") ["text", "command", "for_each", "only_if"] ["text"]
  let where_ := index key i
  let ctx := { ctx with item := field entry "for_each" }
  let text ← checkText ctx (where_ ++ ".text") (field entry "text")
  let command ← checkCommand ctx where_ entry
  let onlyIf ← checkOnlyIf ctx where_ entry
  pure { text := text, command := command, forEach := field entry "for_each", onlyIf := onlyIf }

/-- A criterion may refer to `this`, its own check. -/
def checkVerify (registry : Registry) (ctx : Ctx) (i : Nat) (v : Value) : Except E VerifySpec := do
  let c ← only ctx.pid v "verify[]" ["text", "check", "params", "when", "for_each"]
    ["text", "check", "params", "when"]
  let where_ := index "verify" i
  let message := where_ ++ ": unknown check or wrong parameters"
  let (check, params) ← checkCall registry ctx.pid message message (field c "check")
    (field c "params")
  let ctx := { ctx with item := field c "for_each", checks := ctx.checks ++ [.str "this"] }
  checkValues ctx where_ params
  let when := readPred (field c "when")
  checkPred ctx (where_ ++ ".when") when
  let text ← checkText ctx (where_ ++ ".text") (field c "text")
  pure { text := text, check := check, params := params, when := when,
         forEach := field c "for_each" }

/-! ## Procedures -/

def PROCEDURE_FIELDS : List String :=
  ["kind", "id", "title", "resolves", "min_confidence", "bindings", "applies_to", "provenance",
    "investigate", "withhold_if", "prerequisites", "confirm_first", "steps", "what_changes",
    "rollback", "verify", "impact_note", "limitations"]

def PROCEDURE_REQUIRED : List String :=
  ["kind", "id", "title", "resolves", "min_confidence", "bindings", "applies_to", "provenance",
    "steps", "what_changes", "rollback", "verify"]

def checkResolves (pid : String) (v : Value) : Except E (Value × Value) := do
  let r ← only pid v "resolves" ["diagnosis", "variant"] ["diagnosis"]
  pure (field r "diagnosis", field r "variant")

def checkConfidence (pid : String) (v : Value) : Except E String :=
  match v with
  | .str s =>
      if s = "HIGH" ∨ s = "MEDIUM" then .ok s
      else fail pid "min_confidence must be HIGH or MEDIUM"
  | _ => fail pid "min_confidence must be HIGH or MEDIUM"

def checkProcedure (registry : Registry) (pid : String) (raw : Value) : Except E Procedure := do
  let proc ← only pid raw "procedure" PROCEDURE_FIELDS PROCEDURE_REQUIRED
  failIf ((field proc "kind").pyEq (.str "procedure") = false) pid
    "kind must be procedure or no_procedure"
  let (diagnosis, variant) ← checkResolves pid (field proc "resolves")
  let minConfidence ← checkConfidence pid (field proc "min_confidence")
  let bindings ← match field proc "bindings" with
    | .dict kvs => checkBindings pid kvs
    | _ => fail pid "bindings must be an object"
  let appliesTo ← checkAppliesTo pid (field proc "applies_to")
  let ctx : Ctx := { pid := pid, bindings := bindings, checks := [] }
  let investigate ← checkInvs registry ctx (← elements proc "investigate")
  let ctx := { ctx with checks := investigate.map Inv.id }
  let withholdIf ← checkEach (checkWithhold ctx) 0 (← elements proc "withhold_if")
  let prerequisites ← checkEach (checkPrerequisite ctx) 0 (← elements proc "prerequisites")
  let confirmFirst ← checkEach (checkConfirm ctx) 0 (← elements proc "confirm_first")
  failIf ((field proc "steps").truthy = false) pid "a procedure needs at least one step"
  let steps ← checkEach (fun _ => checkStep ctx) 0 (← elements proc "steps")
  let whatChanges ← checkEach (checkEntry "what_changes" ctx) 0 (← elements proc "what_changes")
  let rollback ← checkEach (checkEntry "rollback" ctx) 0 (← elements proc "rollback")
  failIf ((field proc "verify").truthy = false) pid "verify criteria are required"
  let verify ← checkEach (checkVerify registry ctx) 0 (← elements proc "verify")
  pure { id := pid, diagnosis := diagnosis, variant := variant, minConfidence := minConfidence,
         bindings := bindings, freeipaMin := appliesTo.freeipaMin,
         freeipaBelow := appliesTo.freeipaBelow, clientRole := appliesTo.clientRole,
         investigate := investigate, withholdIf := withholdIf, prerequisites := prerequisites,
         confirmFirst := confirmFirst, steps := steps, whatChanges := whatChanges,
         rollback := rollback, verify := verify, raw := raw }

def checkNoProcedure (pid : String) (raw : Value) : Except E Entry := do
  let entry ← only pid raw "no_procedure"
    ["kind", "id", "resolves", "reason", "reference", "provenance"]
    ["kind", "id", "resolves", "reason"]
  let (diagnosis, variant) ← checkResolves pid (field entry "resolves")
  match field entry "reason" with
  | .str reason => do
      failIf (PyStr.strip reason = "") pid "reason must be text"
      pure (.noProcedure pid diagnosis variant reason)
  | _ => fail pid "reason must be text"

def validateProcedure (registry : Registry) (proc : Value) : Except E Entry := do
  match ← proc.get "id" (.str "<no id>") with
  | .str pid => do
      failIf (ID_RE.fullmatch pid = false) pid "invalid id"
      let kind ← proc.get "kind" .null
      if kind.pyEq (.str "no_procedure") then checkNoProcedure pid proc
      else do
        let p ← checkProcedure registry pid proc
        pure (.procedure p)
  | v => fail v.toStr "invalid id"

/-! ## The catalogue -/

def sameTarget (a b : Value × Value) : Bool := a.1.pyEq b.1 && a.2.pyEq b.2

/-- The entries, no id and no target twice. -/
def validateEntries (registry : Registry) (seen : List String) (targets : List (Value × Value)) :
    List Value → Except E (List Entry)
  | [] => .ok []
  | v :: vs => do
      let entry ← validateProcedure registry v
      failIf (entry.id ∈ seen) "duplicate id" entry.id
      if !entry.target.1.hashable || !entry.target.2.hashable then .error .typeError
      else do
        failIf (targets.any (sameTarget entry.target) = true) entry.id
          "more than one entry for its target (selection must be unambiguous)"
        let rest ← validateEntries registry (entry.id :: seen) (entry.target :: targets) vs
        pure (entry :: rest)

def validateCatalogue (registry : Registry) (data : Value) : Except E (List Entry) :=
  let bad := fail "catalogue" "expected \x7bschema: 1, procedures: [...]\x7d"
  match data with
  | .dict kvs =>
      match field kvs "procedures" with
      | .list procs =>
          if (field kvs "schema").pyEq (.int 1) then validateEntries registry [] [] procs else bad
      | _ => bad
  | _ => bad

end IpaDiagnose.Resolver
