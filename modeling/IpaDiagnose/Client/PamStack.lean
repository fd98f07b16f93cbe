import IpaDiagnose.Lib.Lines
import IpaDiagnose.Planner.Model
import IpaDiagnose.TextSafe

/-!
# The PAM stack of a service

`pam.stack` reads the service's file under `/etc/pam.d`, follows its
includes, and lists the modules of the auth and account lines it meets.
The walk is bounded in depth and in files; a bound that is hit, an
include that cannot be read or a list that is too long leaves the module
list unknown. The planner reads the list before it runs the PAM account
phase, which some modules would use to reset the failed-login counters.
-/

namespace IpaDiagnose.Client

open Py (Value Dict)
open Regex (Re)
open Planner (Outcome Classified Context E)

/-! ## Bounds -/

def PAM_D : String := "/etc/pam.d"

/-- The characters read of one file. -/
def PAM_FILE_CHARS : Nat := 65536

def PAM_MAX_DEPTH : Nat := 5

def PAM_MAX_FILES : Nat := 12

def PAM_MAX_MODULES : Nat := 24

def PAM_MODULE_CHARS : Nat := 40

/-! ## Lines -/

def pamType : Re :=
  .altAll [.lit "auth", .lit "account", .lit "password", .lit "session"]

def PAM_LINE : Re :=
  .seqAll [.bos, .star space, .opt (.char '-'), .group 1 pamType, .plus space,
    .group 2 (.alt (.seqAll [.char '[', .star (notOneOf [']']), .char ']']) (.plus nonSpace)),
    .plus space, .group 3 (.plus nonSpace)]

def PAM_INCLUDE : Re :=
  .alt
    (.seqAll [.bos, .star space, .opt (.char '-'), .opt pamType, .star space,
      .altAll [.lit "include", .lit "substack"], .plus space, .group 1 (.plus nonSpace)])
    (.seqAll [.bos, .star space, .lit "@include", .plus space, .group 2 (.plus nonSpace)])

def PAM_NAME : Re :=
  .seq (.cls Unicode.isAsciiAlnum) (.rept 0 63 (alnumOr "_.+-"))

def uncommented (line : String) : String := PyStr.before line '#'

/-- The file an include line names. -/
def includeTarget (line : String) : Option String :=
  (PAM_INCLUDE.match? line).bind fun m => (m.group? 1).or (m.group? 2)

/-- The type of another line, and the path of its module. -/
def moduleLine (line : String) : Option (String × String) :=
  (PAM_LINE.match? line).bind fun m => (m.group? 1).bind fun t => (m.group? 3).map fun p => (t, p)

def basename (path : String) : String := (PyStr.rpartition path '/').2

/-! ## Files -/

inductive PamFile where
  | text (t : String)
  | missing
  | unreadable
deriving DecidableEq

/-- The files by their path. -/
abbrev PamFiles := String → PamFile

/-- `os.path.join(PAM_D, name)`. -/
def joinPamD (name : String) : String :=
  if PyStr.startsWith name "/" then name else PAM_D ++ "/" ++ name

inductive Gap where
  | missing
  | unreadable
deriving DecidableEq

def Gap.text : Gap → String
  | .missing => "missing"
  | .unreadable => "unreadable"

/-- The lines read of a text. -/
def linesRead (t : String) : List String :=
  (Lines.splitlines (PyStr.take t PAM_FILE_CHARS)).map uncommented

/-! ## The walk -/

structure Stack where
  seen : List String := []
  auth : List String := []
  account : List String := []
  nested : List (String × Gap) := []
  truncated : Bool := false
deriving DecidableEq

def addModule (mods : List String) (mod : String) : List String :=
  if mods.contains mod then mods else mods ++ [sanitizeText mod PAM_MODULE_CHARS]

/-- One line; `walk` follows an include. -/
def readLine (walk : String → Stack → Option Gap × Stack) (st : Stack) (line : String) : Stack :=
  match includeTarget line with
  | some target =>
      match walk target st with
      | (some why, st) => { st with nested := st.nested ++ [(target, why)] }
      | (none, st) => st
  | none =>
      match moduleLine line with
      | some ("auth", path) => { st with auth := addModule st.auth (basename path) }
      | some ("account", path) => { st with account := addModule st.account (basename path) }
      | _ => st

/-- Read a file and what it includes; the number is the depth left. -/
def walk (files : PamFiles) : Nat → String → Stack → Option Gap × Stack
  | 0, _, st => (none, { st with truncated := true })
  | left + 1, name, st =>
      if PAM_MAX_FILES ≤ st.seen.length then (none, { st with truncated := true })
      else if st.seen.contains name || !PAM_NAME.fullmatch name then (none, st)
      else
        match files (joinPamD name) with
        | .missing => (some .missing, st)
        | .unreadable => (some .unreadable, st)
        | .text t =>
            (none, (linesRead t).foldl (readLine (walk files left))
              { st with seen := st.seen ++ [name] })

/-! ## The check -/

def pamResult (svc : String) (status : String) (fields : Dict) (display : String)
    (command : String := "") : CheckResult where
  checkId := "pam.stack"
  params := [("service", .str svc)]
  status := status
  fields := fields
  display := sanitizeText display 240
  command := sanitizeText command 240

def Gap.status : Gap → String
  | .unreadable => DENIED
  | .missing => FAILED

def texts (xs : List String) : Value := .list (xs.map .str)

/-- The list is complete if no bound was hit. -/
def Stack.complete (st : Stack) : Bool := !st.truncated && st.account.length ≤ PAM_MAX_MODULES

def Stack.fields (st : Stack) (present : Bool) : Dict :=
  [("service_file", .bool present),
    ("files", texts st.seen),
    ("account_modules", if st.complete then texts (st.account.take PAM_MAX_MODULES) else .null),
    ("auth_modules", texts (st.auth.take PAM_MAX_MODULES)),
    ("account_has_sss", .bool (st.account.contains "pam_sss.so")),
    ("auth_has_sss", .bool (st.auth.contains "pam_sss.so"))]

/-- What the walk from the service's file, or from `other`, came to. -/
def report (svc : String) (present : Bool) (st : Stack) : CheckResult :=
  match st.nested with
  | (target, why) :: _ =>
      pamResult svc why.status []
        (PAM_D ++ "/" ++ sanitizeText target 64 ++ " (included by "
          ++ (if present then svc else "other") ++ ") is " ++ why.text
          ++ ": the stack cannot be evaluated")
  | [] =>
      pamResult svc OK (st.fields present)
        ("PAM service " ++ svc ++ (if present then "" else " (no file: PAM uses 'other')")
          ++ ": pam_sss in account "
          ++ (if st.account.contains "pam_sss.so" then "yes" else "NO")
          ++ ", in auth " ++ (if st.auth.contains "pam_sss.so" then "yes" else "NO"))
        ("read " ++ PAM_D ++ "/" ++ svc ++ " and the files it includes")

def pamStack (files : PamFiles) (svc : String) : CheckResult :=
  match walk files (PAM_MAX_DEPTH + 1) svc {} with
  | (some .unreadable, _) => pamResult svc DENIED [] (PAM_D ++ "/" ++ svc ++ ": not readable")
  | (none, st) => report svc true st
  | (some .missing, st) =>
      match walk files (PAM_MAX_DEPTH + 1) "other" st with
      | (some why, _) =>
          pamResult svc why.status []
            (PAM_D ++ "/" ++ svc ++ " does not exist and " ++ PAM_D ++ "/other is " ++ why.text
              ++ ": the stack cannot be evaluated")
      | (none, st) => report svc false st

/-! ## The plan's gate -/

def c_pam_stack (res : CheckResult) (_ : Context) : Except E Classified :=
  let get := fun k => (res.fields.lookup k).getD .null
  if !(get "account_has_sss").truthy then
    .ok ⟨.fail, res.display, [("account_has_sss", .bool false), ("auth_has_sss", get "auth_has_sss")]⟩
  else if !(get "auth_has_sss").truthy then
    .ok ⟨.warn, res.display, [("account_has_sss", .bool true), ("auth_has_sss", .bool false)]⟩
  else .ok ⟨.pass, res.display, [("account_has_sss", .bool true), ("auth_has_sss", .bool true)]⟩

def COUNTER_RESETTING : List String := ["pam_faillock.so", "pam_tally2.so", "pam_tally.so"]

/-- The modules of a list that reset the counters. -/
def resetting (mods : List Value) : List String :=
  mods.filterMap fun
    | .str m => if COUNTER_RESETTING.contains m then some m else none
    | _ => none

def g_user_checks (ctx : Context) : Except E (Bool × String) :=
  if !((ctx.input "user").truthy && (ctx.input "service").truthy) then
    .ok (false, "needs --user and --service")
  else if ctx.outcome "id.user" ≠ some .pass then
    .ok (false,
      "SSSD does not resolve the user; the PAM account phase would only repeat that failure")
  else
    match ctx.fact "pam.stack.account_modules" with
    | .list mods =>
        if resetting mods ≠ [] then
          .ok (false, Planner.NOT_RUN_ON_PURPOSE
            ++ " the service's PAM account phase includes a failed-login counter module ("
            ++ PyStr.join ", " (resetting mods)
            ++ ") that resets the user's counters; ipa-diagnose does not run it (it could unlock a "
            ++ "locked account)")
        else
          .ok (true, "the user resolves: does SSSD's account check (HBAC and account state, as at "
            ++ "login) accept it here?")
    | _ =>
        .ok (false, Planner.NOT_RUN_ON_PURPOSE
          ++ " the service's PAM stack could not be read (or was too large to read completely), so "
          ++ "it is unknown whether its account phase would reset failed-login counters "
          ++ "(pam_faillock / pam_tally2)")

def g_service (ctx : Context) : Except E (Bool × String) :=
  let s := ctx.input "service"
  if s.truthy then .ok (true, "the PAM service " ++ s.toStr ++ " was asked about")
  else .ok (false, "no --service given")

def pamStackStep : Planner.Step where
  stepId := "pam.stack"
  capability := "PAM"
  check := "pam.stack"
  title := "PAM service reaches SSSD"
  why := "The service's PAM stack must call pam_sss for IPA users to authenticate and for HBAC "
    ++ "to be enforced."
  params := [("service", .tuple [.str "input", .str "service"])]
  when := some g_service
  classify := some c_pam_stack

end IpaDiagnose.Client
