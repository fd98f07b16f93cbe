import IpaDiagnose.Access.Relations
import IpaDiagnose.TextSafe

/-!
# The read-only API

One call after the other, under a budget of calls and of time. What the
server answers is a script: one answer for each call, by its place in the
run. Only the methods there are can be called.
-/

namespace IpaDiagnose.Access

open Py (Value Dict)

/-- The read-only commands that are ever sent. -/
inductive Method where
  | user_show
  | host_show
  | hbacsvc_show
  | hbacrule_show
  | group_show
  | hostgroup_show
  | hbactest
  | ping
deriving DecidableEq, Repr

structure Call where
  method : Method
  args : List String
  options : Dict := []

inductive ErrorKind where
  | api
  | not_found
  | denied
  | auth
  | unavailable
  | timeout
  | malformed
  | budget
  | not_recorded
deriving DecidableEq, Repr

structure ApiError where
  kind : ErrorKind
  message : String
deriving DecidableEq

structure ApiResponse where
  result : Value := .null
  error : Option ApiError := none
  messages : List Dict := []

namespace ApiResponse

def ok (r : ApiResponse) : Bool := r.error.isNone

/-- The whole output of a command. -/
def fields (r : ApiResponse) : Dict :=
  match r.result with
  | .dict result => result
  | _ => []

/-- The object of a `*_show` command, empty when there is none. -/
def entry (r : ApiResponse) : Dict :=
  match get r.fields "result" with
  | .dict inner => inner
  | _ => []

def failed (kind : ErrorKind) (message : String) : ApiResponse :=
  { error := some ⟨kind, message⟩ }

end ApiResponse

def clean (v : Value) (limit : Nat := 300) : String := sanitizeText v.toStr limit

def error_kind (name : Option String) (code : Option Int) : ErrorKind :=
  if name = some "NotFound" ∨ code = some 4001 then .not_found
  else if name = some "ACIError" ∨ name = some "AuthorizationError" ∨ code = some 2100
      ∨ code = some 2101 then .denied
  else .api

/-- The answer a JSON-RPC document is. -/
def from_jsonrpc (doc : Value) : ApiResponse :=
  match doc with
  | .dict doc =>
      let err := get doc "error"
      if err.truthy then
        match err with
        | .dict err =>
            let name := match get err "name" with | .str s => some s | _ => none
            let code := match get err "code" with | .int n => some n | _ => none
            .failed (error_kind name code) (clean ((err.lookup "message").getD (.str "error")))
        | _ => .failed .malformed "the API error is not a JSON object"
      else
        match get doc "result" with
        | .dict result =>
            let msgs := match get result "messages" with | .list ms => ms | _ => []
            { result := .dict result
              messages := msgs.filterMap fun | .dict m => some m | _ => none }
        | _ => .failed .malformed "the API answer has no result object"
  | _ => .failed .malformed "the API answer is not a JSON object"

/-- What the world does with the calls of a run: the answer to each, by
its place, and whether the time was up by then. -/
structure Script where
  answer : Nat → Call → ApiResponse
  late : Nat → Bool := fun _ => false

/-- Two scripts say the same to the calls before the `n`th. -/
def Script.AgreeUpTo (s t : Script) (n : Nat) : Prop :=
  ∀ i < n, s.answer i = t.answer i ∧ s.late i = t.late i

structure Api where
  unavailable : Option String := none
  max_calls : Nat := 60
  calls_made : Nat := 0
  /-- Calls so far, the refused ones among them. -/
  asked : Nat := 0

/-- The truth of an optional text. -/
def given : Option String → Bool
  | some s => s != ""
  | none => false

/-- A call. The clock of the time budget starts with the first one sent. -/
def Api.call (s : Script) (api : Api) (c : Call) : ApiResponse × Api :=
  let api' := { api with asked := api.asked + 1 }
  if given api.unavailable then (.failed .unavailable (api.unavailable.getD ""), api')
  else if api.calls_made ≥ api.max_calls || (api.calls_made ≠ 0 && s.late api.asked) then
    (.failed .budget "the API call or time budget was used up", api')
  else (s.answer api.asked c, { api' with calls_made := api.calls_made + 1 })

/-! ## Facts -/

@[simp] theorem Api.call_asked (s : Script) (api : Api) (c : Call) :
    (api.call s c).2.asked = api.asked + 1 := by
  unfold Api.call
  dsimp only
  split
  · rfl
  · split <;> rfl

@[simp] theorem Api.call_unavailable (s : Script) (api : Api) (c : Call) :
    (api.call s c).2.unavailable = api.unavailable := by
  unfold Api.call
  dsimp only
  split
  · rfl
  · split <;> rfl

/-- A call depends on what the script says at its place alone. -/
theorem Api.call_congr {s t : Script} {n : Nat} (h : s.AgreeUpTo t n) {api : Api}
    (hn : api.asked < n) (c : Call) : api.call s c = api.call t c := by
  obtain ⟨hanswer, hlate⟩ := h api.asked hn
  simp only [Api.call, hanswer, hlate]

/-- A server that cannot be asked answers with an error. -/
theorem Api.call_of_unavailable {s : Script} {api : Api} (h : given api.unavailable = true)
    (c : Call) : (api.call s c).1 = .failed .unavailable (api.unavailable.getD "") := by
  simp [Api.call, h]

end IpaDiagnose.Access
