import Mathlib.Data.List.Dedup
import IpaDiagnose.Access.Api
import IpaDiagnose.Access.Explain
import IpaDiagnose.Lib.Timestamp

/-!
# One access question

A fixed, bounded sequence of read-only calls: the user, the host and the
service, then the evaluator's own decision, and after it the rules and
the nested groups, which only explain it.
-/

namespace IpaDiagnose.Access

open Py (Value Dict)

def MAX_RULES : Nat := 10

def MAX_GROUP_FETCHES : Nat := 40

inductive State where
  | pass
  | fail
  | unknown
  | notVerified
deriving DecidableEq, Repr

structure Verdict where
  state : State
  summary : String
  reasons : List String := []
deriving DecidableEq

inductive FindingCode where
  | evaluatorUnavailable
  | trustedIdentityUnsupported
  | userNotFound
  | objectUnreadable
  | userPreserved
  | userDisabled
  | userPrincipalExpired
  | userPasswordExpired
  | hostNotFound
  | hostNoKeytab
  | serviceNotDefined
  | evaluatorFailed
  | evaluatorTruncated
  | evaluatorRuleErrors
  | explanationContradicts
  | relationshipIncomplete
  | hbacDenied
deriving DecidableEq, Repr

structure AccessFinding where
  code : FindingCode
  /-- It is part of why access is refused or undetermined. -/
  blocking : Bool
deriving DecidableEq

/-- The evaluator's own answer, as received. -/
structure Evaluation where
  ran : Bool
  granted : Option Bool := none
  matched : List String := []
  not_matched_count : Nat := 0
  error_rules : List String := []
  /-- The error rules that name the user. -/
  error_rules_own : List String := []
  truncated : Bool := false
  error : Option String := none
  summary : Option String := none

/-- What was read of the user. -/
structure AccountState where
  exists_ : Option Bool := none
  canonical : Option String := none
  disabled : Option Bool := none
  principal_expires : Option Timestamp.Stamp := none
  principal_expired : Option Bool := none
  password_expires : Option Timestamp.Stamp := none
  password_expired : Option Bool := none
  preserved : Option Bool := none

structure HostState where
  exists_ : Option Bool := none
  canonical : Option String := none
  has_keytab : Option Bool := none

/-- The three targets; `user_domain` marks an identity of a trusted domain. -/
structure Targets where
  user : String
  host : String
  service : String
  user_domain : Option String := none

/-! ## Helpers -/

def strs : Value → List String
  | .str s => [s]
  | .list vs => vs.filterMap fun | .str s => if s = "" then none else some s | _ => none
  | _ => []

/-- A generalized time. -/
def time (v : Value) : Option Timestamp.Stamp :=
  let v := match first v with
    | .dict d => get d "__datetime__"
    | v => v
  match v with
  | .str s => (Timestamp.strptime Timestamp.compact s).or (Timestamp.strptime Timestamp.extended s)
  | _ => none

def describe_error (resp : ApiResponse) : String :=
  match resp.error with
  | none => ""
  | some e =>
      match e.kind with
      | .not_found => "not found"
      | .denied => "not permitted for this identity (" ++ e.message ++ ")"
      | .unavailable => "IPA API unavailable: " ++ e.message
      | .timeout => "timed out: " ++ e.message
      | .malformed => "unusable answer: " ++ e.message
      | .auth | .budget | .not_recorded | .api => e.message

def is_truncated (resp : ApiResponse) : Bool :=
  resp.messages.any fun m =>
    let name := match get m "name" with | .str s => s | _ => ""
    PyStr.contains (PyStr.lower name) "truncat" || Value.pyEq (get m "code") (.int 13017)

def lowers (names : List String) : List String := names.map PyStr.lower

/-- In the order of their lower case. -/
def sortedLower (names : List String) : List String :=
  names.mergeSort fun a b => PyStr.le (PyStr.lower a) (PyStr.lower b)

/-! ## The state of a run -/

/-- A ticket that is refused ends all further calls. -/
def Api.heed (api : Api) (resp : ApiResponse) : Api :=
  match resp.error with
  | some ⟨.auth, message⟩ =>
      if given api.unavailable then api else { api with unavailable := some message }
  | _ => api

def Api.ask (s : Script) (api : Api) (c : Call) : ApiResponse × Api :=
  let (resp, api) := api.call s c
  (resp, api.heed resp)

structure Run where
  api : Api
  findings : List AccessFinding := []
  index : RelationshipIndex := {}
  rules_unread : List String := []
  rules_cut : Bool := false
  chain_reads : Nat := 0
  /-- The rules that name the user. -/
  user_rules : List String := []
  /-- The objects asked about and their own groups, in lower case: the only
  names a rule may contribute. -/
  relevant : SideName → List String

namespace Run

def call (s : Script) (run : Run) (c : Call) : ApiResponse × Run :=
  let (resp, api) := run.api.ask s c
  (resp, { run with api })

/-- A finding. That an object cannot be read says nothing about it when
the server could not be asked at all. -/
def find (run : Run) (code : FindingCode) (blocking : Bool) : Run :=
  if code = .objectUnreadable ∧ given run.api.unavailable = true then run
  else { run with findings := run.findings ++ [⟨code, blocking⟩] }

def findIf (run : Run) (b : Bool) (code : FindingCode) (blocking : Bool) : Run :=
  if b then run.find code blocking else run

/-- The name an entry gives its object. -/
def nameOf (entry : Dict) (attr : String) : Option String :=
  match first (get entry attr) with
  | .str s => if s = "" then none else some s
  | _ => none

theorem nameOf_ne_empty {entry : Dict} {attr : String} : nameOf entry attr ≠ some "" := by
  unfold nameOf
  split
  · split
    · nofun
    · rename_i hne
      intro h
      exact hne (Option.some.inj h)
  · nofun

def expired (now : Nat) (t : Option Timestamp.Stamp) : Option Bool :=
  t.map fun t => t.seconds * 1000000 ≤ now

/-! ## The user, the host and the service -/

def userCall (t : Targets) : Call := ⟨.user_show, [t.user], [("all", .bool true)]⟩

def hostCall (t : Targets) : Call := { method := .host_show, args := [t.host] }

def serviceCall (t : Targets) : Call := { method := .hbacsvc_show, args := [t.service] }

def testCall (user host service : String) : Call :=
  ⟨.hbactest, [], [("user", .str user), ("targethost", .str host), ("service", .str service),
    ("nodetail", .bool false)]⟩

def user (s : Script) (t : Targets) (now : Nat) (run : Run) :
    AccountState × Option Membership × Run :=
  let (r, run) := run.call s (userCall t)
  match r.error with
  | some e =>
      if e.kind = .not_found then ({ exists_ := some false }, none, run.find .userNotFound true)
      else ({}, none, run.find .objectUnreadable true)
  | none =>
      let res := r.entry
      match nameOf res "uid" with
      | none => ({}, none, run.find .objectUnreadable true)
      | some uid =>
          if flag (get res "preserved") = some true then
            ({ exists_ := some true, canonical := some uid, preserved := some true }, none,
              run.find .userPreserved true)
          else
            let pe := time (get res "krbprincipalexpiration")
            let pw := time (get res "krbpasswordexpiration")
            let st : AccountState :=
              { exists_ := some true
                canonical := some uid
                disabled := flag (get res "nsaccountlock")
                principal_expires := pe
                principal_expired := expired now pe
                password_expires := pw
                password_expired := expired now pw }
            let (node, index) := run.index.node .user uid
            let direct := (strs (get res "memberof_group")).dedup
            let indirect := (strs (get res "memberofindirect_group")).dedup
            let run :=
              { run with
                index := index.add_memberships node .group direct indirect ("user_show " ++ uid)
                relevant := Function.update run.relevant .user
                  (PyStr.lower uid :: lowers (direct ++ indirect))
                user_rules := (strs (get res "memberof_hbacrule")
                  ++ strs (get res "memberofindirect_hbacrule")).dedup }
            let run := run.findIf (st.disabled == some true) .userDisabled true
            let run := run.findIf (st.principal_expired == some true) .userPrincipalExpired true
            let run := run.findIf (st.password_expired == some true) .userPasswordExpired false
            (st, node.map fun node => ⟨node, direct, indirect⟩, run)

def host (s : Script) (t : Targets) (run : Run) : HostState × Option Membership × Run :=
  let (r, run) := run.call s (hostCall t)
  match r.error with
  | some e =>
      if e.kind = .not_found then ({ exists_ := some false }, none, run.find .hostNotFound true)
      else ({}, none, run.find .objectUnreadable true)
  | none =>
      let res := r.entry
      match nameOf res "fqdn" with
      | none => ({}, none, run.find .objectUnreadable true)
      | some fqdn =>
          let st : HostState :=
            { exists_ := some true, canonical := some fqdn
              has_keytab := flag (get res "has_keytab") }
          let (node, index) := run.index.node .host fqdn
          let direct := (strs (get res "memberof_hostgroup")).dedup
          let indirect := (strs (get res "memberofindirect_hostgroup")).dedup
          let run :=
            { run with
              index := index.add_memberships node .hostgroup direct indirect ("host_show " ++ fqdn)
              relevant := Function.update run.relevant .host
                (PyStr.lower fqdn :: lowers (direct ++ indirect)) }
          let run := run.findIf (st.has_keytab == some false) .hostNoKeytab false
          (st, node.map fun node => ⟨node, direct, indirect⟩, run)

def service (s : Script) (t : Targets) (run : Run) : ServiceState × Run :=
  let (r, run) := run.call s (serviceCall t)
  match r.error with
  | some e =>
      if e.kind = .not_found then
        ({ exists_ := some false }, run.find .serviceNotDefined false)
      else ({}, run)
  | none =>
      let res := r.entry
      match hcn : nameOf res "cn" with
      | none => ({}, run)
      | some cn =>
          let groups := (strs (get res "memberof_hbacsvcgroup")).dedup.mergeSort PyStr.le
          let (node, index) := run.index.node .hbacService cn
          ({ exists_ := some true, canonical := some cn, groups
             named := fun _ => ⟨cn, rfl, by
               rintro rfl
               exact nameOf_ne_empty hcn⟩ },
            { run with
              index :=
                index.add_memberships node .hbacServiceGroup groups [] ("hbacsvc_show " ++ cn)
              relevant := Function.update run.relevant .service
                (PyStr.lower cn :: lowers groups) })

/-! ## The decision -/

/-- What the evaluator's answer says of the rules. -/
def rulesOf (r : ApiResponse) (user_rules : List String) : Evaluation :=
  let error_rules := strs (get r.fields "error")
  { ran := true
    matched := strs (get r.fields "matched")
    not_matched_count := (strs (get r.fields "notmatched")).length
    error_rules
    error_rules_own := error_rules.filter fun x => PyStr.lower x ∈ lowers user_rules
    truncated := is_truncated r
    summary := match first (get r.fields "summary") with | .str s => some s | _ => none }

/-- The evaluator's answer, taken apart. Granted without a matched rule and
denied with one are no usable answers. -/
def evaluationOf (r : ApiResponse) (user_rules : List String) : Evaluation :=
  match r.error with
  | some _ => { ran := true, error := some (describe_error r) }
  | none =>
      match get r.fields "value" with
      | .bool granted =>
          let ev := rulesOf r user_rules
          if granted && ev.matched.isEmpty then
            { ev with error := some "the evaluation says granted but names no matched rule" }
          else if !granted && !ev.matched.isEmpty then
            { ev with error := some "the evaluation says denied but names matched rules" }
          else { ev with granted := some granted }
      | _ => { ran := true, error := some "the evaluation answer has no boolean verdict" }

def hbactest (s : Script) (run : Run) (user host service : String) : Evaluation × Run :=
  let (r, run) := run.call s (testCall user host service)
  (evaluationOf r run.user_rules, run)

/-! ## The explanation -/

/-- The edges from a rule to the names it lists of those that matter. -/
def addListed (rule_node : Option Node) (source : String) (side : SideName) (kind : NodeKind)
    (relevant : List String) (index : RelationshipIndex) (listed : List String) :
    RelationshipIndex :=
  listed.foldl (fun index n =>
    if PyStr.lower n ∈ relevant then
      let (obj, index) := index.node kind n
      index.add_edge rule_node obj .ruleAppliesTo source (some side)
    else index) index

def addSide (rule_node : Option Node) (source : String) (side : SideName)
    (obj_kind grp_kind : NodeKind) (relevant : List String) (rs : RuleSide)
    (index : RelationshipIndex) : RelationshipIndex :=
  addListed rule_node source side grp_kind relevant
    (addListed rule_node source side obj_kind relevant index rs.names) rs.groups

def rule (s : Script) (run : Run) (name : String) : Option HbacRule × Run :=
  let (r, run) := run.call s { method := .hbacrule_show, args := [name] }
  let unread := { run with rules_unread := run.rules_unread ++ [name] }
  if r.ok then
    match HbacRule.from_api (.dict r.entry) ("hbacrule_show " ++ name) with
    | none => (none, unread)
    | some rule =>
        let (rn, index) := run.index.node .hbacRule rule.name
        let index := addSide rn rule.source .user .user .group (run.relevant .user) rule.user index
        let index :=
          addSide rn rule.source .host .host .hostgroup (run.relevant .host) rule.host index
        let index := addSide rn rule.source .service .hbacService .hbacServiceGroup
          (run.relevant .service) rule.service index
        (some rule, { run with index })
  else (none, unread)

def rules (s : Script) : List String → Run → List HbacRule × Run
  | [], run => ([], run)
  | n :: ns, run =>
      let (r, run) := rule s run n
      let (rest, run) := rules s ns run
      (r.toList ++ rest, run)

end Run

/-! ## Nested chains

The search walks down from a listed group through its member groups and
keeps to the groups the object itself is in.
-/

/-- A group the object is in. -/
structure OwnGroup (m : Membership) where
  name : String
  own : PyStr.lower name ∈ m.all_groups
deriving DecidableEq

namespace OwnGroup

variable {m : Membership}

def key (g : OwnGroup m) : String := PyStr.lower g.name

/-- The groups of a list the object is in. -/
def among (m : Membership) (gs : List String) : List (OwnGroup m) :=
  gs.filterMap fun g => if h : PyStr.lower g ∈ m.all_groups then some ⟨g, h⟩ else none

end OwnGroup

def sortedGroups {m : Membership} (gs : List (OwnGroup m)) : List (OwnGroup m) :=
  gs.mergeSort fun a b => PyStr.le a.key b.key

/-- What a search knows: the run, the children of the groups it has read,
and whether some could not be. -/
structure Chase (m : Membership) where
  run : Run
  children : List (String × List (OwnGroup m)) := []
  complete : Bool := true

/-- One side: the command that reads a group and its attribute. -/
structure SideKind where
  method : Method
  command : String
  attr : String
  kind : NodeKind

def groupSide : SideKind := ⟨.group_show, "group_show", "member_group", .group⟩

def hostgroupSide : SideKind :=
  ⟨.hostgroup_show, "hostgroup_show", "member_hostgroup", .hostgroup⟩

namespace Chase

variable {m : Membership}

/-- Whether the chain from the object to a group is known; a group the
index has no room for has none. -/
def known (k : SideKind) (c : Chase m) (w : String) : Bool × Chase m :=
  let (target, index) := c.run.index.node k.kind w
  let c := { c with run := { c.run with index } }
  match target with
  | none => (false, c)
  | some target => ((index.membership_path m.node target).isSome, c)

/-- Read the children of a group; `false` when that fails. -/
def read (s : Script) (k : SideKind) (c : Chase m) (g : OwnGroup m) : Bool × Chase m :=
  let run := { c.run with chain_reads := c.run.chain_reads + 1 }
  let (r, run) := run.call s { method := k.method, args := [g.name] }
  if r.ok then
    let children := OwnGroup.among m (strs (get r.entry k.attr))
    let (parent, index) := run.index.node k.kind g.name
    let index := children.foldl (fun index child =>
      let (n, index) := index.node k.kind child.name
      index.add_edge n parent .memberOf (k.command ++ " " ++ g.name) none) index
    (true,
      { c with run := { run with index }, children := (g.key, children) :: c.children })
  else (false, { run, children := (g.key, []) :: c.children, complete := false })

/-- A group with its children at hand, those of one that was read before
too; `none` when the reads are used up. -/
def opened (s : Script) (k : SideKind) (c : Chase m) (g : OwnGroup m) :
    Option (Bool × Chase m) :=
  if (c.children.lookup g.key).isSome then some (true, c)
  else if c.run.chain_reads ≥ MAX_GROUP_FETCHES then none
  else some (c.read s k g)

/-- How a round over the frontier ends. -/
inductive Round (m : Membership) where
  /-- The reads are used up. -/
  | spent (c : Chase m)
  | next (found : List (OwnGroup m)) (visited : List String) (c : Chase m)

/-- Visit the groups of the frontier, until the chain is known. -/
def visit (s : Script) (k : SideKind) (w : String) :
    List (OwnGroup m) → List (OwnGroup m) → List String → Chase m → Round m
  | [], found, visited, c => .next found visited c
  | g :: gs, found, visited, c =>
      if g.key ∈ visited then visit s k w gs found visited c
      else
        let visited := g.key :: visited
        match c.opened s k g with
        | none => .spent c
        | some (false, c) => visit s k w gs found visited c
        | some (true, c) =>
            let found := found ++ ((c.children.lookup g.key).getD []).filter (·.key ∉ visited)
            let (isKnown, c) := c.known k w
            if isKnown then .next found visited c else visit s k w gs found visited c

/-- A round finds nothing new unless it visits a group the first time. -/
theorem visit_measure {s : Script} {k : SideKind} {w : String}
    {gs found found' : List (OwnGroup m)} {visited visited' : List String} {c c' : Chase m}
    (h : visit s k w gs found visited c = .next found' visited' c') :
    (found' = found ∧ visited' = visited) ∨
      (remaining m.all_groups visited').length < (remaining m.all_groups visited).length := by
  induction gs generalizing found visited c with
  | nil =>
      cases h
      exact .inl ⟨rfl, rfl⟩
  | cons g gs ih =>
      rw [visit] at h
      split at h
      · exact ih h
      · rename_i hnew
        have hlt := remaining_cons_lt g.own hnew
        have hrest : ∀ {found₁ : List (OwnGroup m)} {c₁ : Chase m},
            visit s k w gs found₁ (g.key :: visited) c₁ = .next found' visited' c' →
            (remaining m.all_groups visited').length < (remaining m.all_groups visited).length := by
          intro found₁ c₁ h₁
          rcases ih h₁ with ⟨-, rfl⟩ | hle
          · exact hlt
          · exact hle.trans hlt
        split at h
        · exact nomatch h
        · exact .inr (hrest h)
        · dsimp only at h
          split at h
          · cases h
            exact .inr hlt
          · exact .inr (hrest h)

/-- Follow the children of a group until the chain to it is known or there
is nothing left to visit; `false` when the reads are used up. -/
def follow (s : Script) (k : SideKind) (w : String) (frontier : List (OwnGroup m))
    (visited : List String) (c : Chase m) : Bool × Chase m :=
  if frontier = [] then (true, c)
  else
    let (isKnown, c) := c.known k w
    if isKnown then (true, c)
    else
      match _h : visit s k w frontier [] visited c with
      | .spent c => (false, c)
      | .next found visited c => follow s k w (sortedGroups found.dedup) visited c
termination_by ((remaining m.all_groups visited).length, if frontier = [] then 0 else 1)
decreasing_by
  rcases visit_measure _h with ⟨rfl, rfl⟩ | hlt
  · rename_i hne _
    right
    simp [hne, sortedGroups, List.dedup_nil]
  · left
    exact hlt

/-- Find the chain to each wanted group; `false` when the reads are used
up. -/
def followAll (s : Script) (k : SideKind) : List (OwnGroup m) → Chase m → Bool × Chase m
  | [], c => (true, c)
  | w :: ws, c =>
      match follow s k w.name [w] [] c with
      | (false, c) => (false, c)
      | (true, c) => followAll s k ws c

/-- Whether the chain to every wanted group is known. -/
def allKnown (k : SideKind) : List (OwnGroup m) → Chase m → Bool × Chase m
  | [], c => (true, c)
  | w :: ws, c =>
      match c.known k w.name with
      | (false, c) => (false, c)
      | (true, c) => allKnown k ws c

end Chase

/-- The nested groups of the object the sides list. -/
def wantedGroups (m : Membership) (sides : List RuleSide) : List (OwnGroup m) :=
  ((sides.filter (!·.category_all)).flatMap fun side => side.groups.filterMap fun g =>
    if h : PyStr.lower g ∈ lowers m.indirect then
      some ⟨g, by
        rw [Membership.all_groups, List.map_append]
        exact List.mem_append_right _ h⟩
    else none).dedup

/-- Find the chain from the object to each listed group it is nested in;
`false` when bounds or errors left one unknown. -/
def expand_chain (s : Script) (run : Run) (member : Option Membership) (sides : List RuleSide)
    (k : SideKind) : Bool × Run :=
  match member with
  | none => (true, run)
  | some m =>
      let wanted := wantedGroups m sides
      if wanted = [] then (true, run)
      else
        match Chase.followAll s k (sortedGroups wanted) { run } with
        | (false, c) => (false, c.run)
        | (true, c) =>
            if c.complete then
              let (known, c) := Chase.allKnown k wanted c
              (known, c.run)
            else (false, c.run)

/-! ## The answer -/

structure AccessResult where
  authentication : Verdict
  authorization : Verdict
  runtime : Verdict
  evaluation : Evaluation
  account : AccountState
  host : HostState
  service : ServiceState
  user_groups : Option Membership
  host_groups : Option Membership
  rules : List RuleExplanation
  /-- `none` when nothing was explained. -/
  explanation_status : Option ExplanationStatus
  findings : List AccessFinding
  index : RelationshipIndex

/-- What was read before the rules. -/
structure Known where
  account : AccountState := {}
  user_m : Option Membership := none
  host_st : HostState := {}
  host_m : Option Membership := none
  svc_st : ServiceState := {}
  evaluation : Evaluation := { ran := false }

namespace Known

def user_c (k : Known) : String := k.account.canonical.getD ""

def host_c (k : Known) : String := k.host_st.canonical.getD ""

def svc_c (k : Known) (t : Targets) : String :=
  if given k.svc_st.canonical then k.svc_st.canonical.getD "" else t.service

/-- The user and the host are there and the user is not preserved. -/
def askable (k : Known) : Bool :=
  k.account.exists_ == some true && k.account.preserved != some true
    && k.host_st.exists_ == some true

/-- Why the evaluator was not asked. -/
def notEvaluated (k : Known) : String :=
  if k.account.preserved = some true then "not evaluated: the user is a preserved (deleted) user"
  else if k.account.exists_ = some false ∨ k.host_st.exists_ = some false then
    "not evaluated: the user or the host does not exist in FreeIPA"
  else "not evaluated: the user or the host could not be read"

end Known

/-- The user, the host and the service. -/
def read_objects (s : Script) (t : Targets) (now : Nat) (run : Run) : Known × Run :=
  let user := run.user s t now
  let host := user.2.2.host s t
  let service := host.2.2.service s t
  ({ account := user.1, user_m := user.2.1, host_st := host.1, host_m := host.2.1,
     svc_st := service.1 }, service.2)

/-- The evaluator's decision, when it can be asked for one. -/
def evaluate (s : Script) (t : Targets) (k : Known) (run : Run) : Known × Run :=
  if k.askable then
    let (evaluation, run) := run.hbactest s k.user_c k.host_c (k.svc_c t)
    ({ k with evaluation }, run)
  else ({ k with evaluation := { ran := false, error := some k.notEvaluated } }, run)

/-- The reads up to the decision. -/
def decide_access (s : Script) (t : Targets) (now : Nat) (run : Run) : Known × Run :=
  if given run.api.unavailable then ({}, run.find .evaluatorUnavailable true)
  else if given t.user_domain then
    let run := run.find .trustedIdentityUnsupported true
    let (host_st, host_m, run) := run.host s t
    let (svc_st, run) := run.service s t
    ({ host_st, host_m, svc_st }, run)
  else
    let (k, run) := read_objects s t now run
    evaluate s t k run

/-- The decision is there, and no later call can take it back. -/
def decided (k : Known) (run : Run) : Bool :=
  k.evaluation.error.isNone && k.evaluation.granted.isSome && !given run.api.unavailable

def explainAll (k : Known) (t : Targets) :
    List HbacRule → RelationshipIndex → List RuleExplanation × RelationshipIndex
  | [], index => ([], index)
  | r :: rs, index =>
      let (e, index) := explain index r k.user_m k.host_m k.user_c k.host_c (k.svc_c t) k.svc_st
        (PyStr.lower r.name ∈ lowers k.evaluation.matched)
      let (es, index) := explainAll k t rs index
      (e :: es, index)

/-- The explanation of the decision, from the rules it names, or of those
that name the user. -/
def explanation (s : Script) (t : Targets) (k : Known) (run : Run) :
    List RuleExplanation × Run :=
  if k.evaluation.ran && k.evaluation.error.isNone then
    let related := sortedLower run.user_rules
    let denied := k.evaluation.granted != some true
    let names := if denied then related.take MAX_RULES else k.evaluation.matched.take MAX_RULES
    let run :=
      { run with rules_cut := run.rules_cut || (denied && decide (related.length > MAX_RULES)) }
    let (rules, run) := Run.rules s names run
    let (_, run) := expand_chain s run k.user_m (rules.map (·.user)) groupSide
    let (_, run) := expand_chain s run k.host_m (rules.map (·.host)) hostgroupSide
    let (explanations, index) := explainAll k t rules run.index
    (explanations,
      { run with
        index
        rules_cut := run.rules_cut || decide (k.evaluation.matched.length > MAX_RULES) })
  else ([], run)

/-- A ticket refused after the decision leaves the explanation short; one
refused before it is no different from having none. -/
def settle (wasDecided : Bool) (run : Run) : Run :=
  let run :=
    if wasDecided && given run.api.unavailable then
      { run with api := { run.api with unavailable := none }, rules_cut := true }
    else run
  if given run.api.unavailable && !run.findings.any (·.code = .evaluatorUnavailable) then
    run.find .evaluatorUnavailable true
  else run

def expires (t : Option Timestamp.Stamp) : String := (t.map (·.text)).getD "None"

def authentication (unavailable : Option String) (t : Targets) (account : AccountState) :
    Verdict :=
  if given unavailable && account.exists_.isNone then
    ⟨.unknown, t.user ++ "'s account was not read: ipa-diagnose could not query FreeIPA",
      unavailable.toList⟩
  else if given t.user_domain then
    ⟨.unknown, "trusted-domain identity: not evaluated by this version", []⟩
  else if account.exists_ = some false then ⟨.fail, "no IPA user named " ++ t.user, []⟩
  else if account.preserved = some true then
    ⟨.fail, account.canonical.getD "" ++ " is a preserved (deleted) user", []⟩
  else if account.exists_ = none then ⟨.unknown, "the user could not be read", []⟩
  else
    let disabled :=
      if account.disabled = some true then ["the account is disabled"] else []
    let expired :=
      if account.principal_expired = some true then
        ["the Kerberos principal expired at " ++ expires account.principal_expires]
      else []
    let reasons := disabled ++ expired
    if reasons ≠ [] then ⟨.fail, PyStr.join "; " reasons, reasons⟩
    else if account.disabled = none then
      ⟨.unknown, "the account's enabled/disabled state is not readable by this identity", []⟩
    else
      let note :=
        if account.password_expired = some true then
          ["the password expired at " ++ expires account.password_expires
            ++ ": a password login must change it first"]
        else []
      ⟨.notVerified, "the IPA account exists and is enabled; no credential was tested", note⟩

/-- What the explanations come to, with the finding that says so. -/
def explanationSummary (run : Run) (ev : Evaluation) (explanations : List RuleExplanation) :
    ExplanationStatus × Run :=
  if explanations.any (·.status = .contradicting) then
    (.contradicting, run.find .explanationContradicts false)
  else if explanations.any (·.status = .incomplete)
      || (ev.granted == some true && explanations.isEmpty)
      || !run.rules_unread.isEmpty || run.rules_cut then
    (.incomplete, run.find .relationshipIncomplete false)
  else (.complete, run)

/-- The verdict of the evaluator, where there is one to be trusted. -/
def authorization (run : Run) (t : Targets) (k : Known) (explanations : List RuleExplanation) :
    Verdict × Option ExplanationStatus × Run :=
  let unavailable := run.api.unavailable
  let ev := k.evaluation
  if given unavailable then
    (⟨.unknown, "not evaluated: ipa-diagnose could not query FreeIPA", unavailable.toList⟩, none,
      run)
  else if given t.user_domain then
    (⟨.unknown, "trusted-domain identity: not evaluated by this version", []⟩, none, run)
  else if k.account.preserved = some true then
    (⟨.unknown, "not evaluated: a preserved (deleted) user has no policy decision", []⟩, none, run)
  else if k.account.exists_ = some false ∨ k.host_st.exists_ = some false then
    let who := if k.account.exists_ = some false then "user" else "host"
    (⟨.unknown, "not evaluated: the " ++ who
      ++ " does not exist in FreeIPA, so there is no policy decision about it", []⟩, none, run)
  else if ev.ran = false then
    (⟨.unknown, if given ev.error then ev.error.getD "" else "not evaluated", []⟩, none, run)
  else if given ev.error then
    (⟨.unknown, "FreeIPA's HBAC evaluation gave no usable answer", ev.error.toList⟩, none,
      run.find .evaluatorFailed true)
  else if ev.truncated then
    (⟨.unknown, "FreeIPA evaluated only part of the HBAC rules (size limit)", []⟩, none,
      run.find .evaluatorTruncated true)
  else if ev.error_rules ≠ [] then
    (⟨.unknown, "FreeIPA reported HBAC rules it could not evaluate", []⟩, none,
      run.find .evaluatorRuleErrors true)
  else
    let (status, run) := explanationSummary run ev explanations
    if ev.granted = some true then
      let plural := if ev.matched.length > 1 then "s" else ""
      (⟨.pass, "FreeIPA HBAC policy allows this request (rule" ++ plural ++ ": "
        ++ PyStr.join ", " (ev.matched.take MAX_RULES) ++ ")", []⟩, some status, run)
    else
      (⟨.fail, "FreeIPA HBAC policy does not authorize this request", []⟩, some status,
        run.find .hbacDenied true)

def runtime (authn authz : Verdict) (host_st : HostState) : Verdict :=
  let reasons := ["no login was attempted; the host's SSSD, PAM configuration, network path and "
    ++ "keytab were not checked"]
  if authn.state = .fail ∨ authz.state = .fail then
    ⟨.notVerified, "not tested; a login is expected to be refused where the host enforces FreeIPA "
      ++ "through SSSD", reasons⟩
  else if host_st.has_keytab = some false then
    ⟨.notVerified, "not tested; the host has no keytab in FreeIPA, so it may not be enrolled",
      reasons⟩
  else ⟨.notVerified, "not tested: FreeIPA policy is only one part of a real login", reasons⟩

def newRun (api : Api) (t : Targets) : Run where
  api := api
  relevant
    | .service => [PyStr.lower t.service]
    | _ => []

/-- The whole answer. `now` counts the microseconds since the year 1. -/
def diagnose (s : Script) (api : Api) (t : Targets) (now : Nat) : AccessResult :=
  let (k, run) := decide_access s t now (newRun api t)
  let wasDecided := decided k run
  let (explanations, run) := explanation s t k run
  let run := settle wasDecided run
  let authn := authentication run.api.unavailable t k.account
  let (authz, status, run) := authorization run t k explanations
  { authentication := authn
    authorization := authz
    runtime := runtime authn authz k.host_st
    evaluation := k.evaluation
    account := k.account
    host := k.host_st
    service := k.svc_st
    user_groups := k.user_m
    host_groups := k.host_m
    rules := explanations
    explanation_status := status
    findings := run.findings
    index := run.index }

end IpaDiagnose.Access
