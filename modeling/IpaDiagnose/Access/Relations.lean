import Mathlib.Data.List.Basic
import IpaDiagnose.Lib.PyValue

/-!
# The relationships of one access question

What the question needs: the user, the host and the service asked about,
the groups they belong to and the rules that were read. The index is
bounded; what does not fit is left out, and the index says so. It
explains the decision and never makes it.
-/

namespace IpaDiagnose.Access

open Py (Value Dict)

/-! ## What a search has still to see -/

def remaining {α : Type} [DecidableEq α] (all seen : List α) : List α := all.filter (· ∉ seen)

/-- What is seen the first time leaves the rest. -/
theorem remaining_cons_lt {α : Type} [DecidableEq α] {all seen : List α} {k : α} (hk : k ∈ all)
    (hnew : k ∉ seen) : (remaining all (k :: seen)).length < (remaining all seen).length := by
  have hsub : (remaining all (k :: seen)).Sublist (remaining all seen) := by
    apply List.monotone_filter_right
    intro x hx
    simp only [List.mem_cons, not_or, decide_eq_true_eq] at hx ⊢
    exact hx.2
  have hmem : k ∈ remaining all seen := by
    rw [remaining, List.mem_filter]
    exact ⟨hk, by simpa using hnew⟩
  have hnot : k ∉ remaining all (k :: seen) := by
    simp [remaining]
  rcases hsub.length_le.lt_or_eq with h | h
  · exact h
  · rw [hsub.eq_of_length h] at hnot
    exact absurd hmem hnot

/-! ## The index -/

def MAX_NODES : Nat := 2000

def MAX_EDGES : Nat := 5000

/-- Above the 40 group reads a chain may use, so that a chain that was
read is always found. -/
def MAX_DEPTH : Nat := 50

def MAX_SIDE_EXPLANATIONS : Nat := 20

inductive NodeKind where
  | user
  | group
  | host
  | hostgroup
  | hbacRule
  | hbacService
  | hbacServiceGroup
  | trustedDomain
deriving DecidableEq, Repr

inductive EdgeKind where
  /-- Child to parent, a direct membership. -/
  | memberOf
  /-- Child to ancestor; the chain between them may be unknown. -/
  | memberOfIndirect
  /-- A rule to an object it lists. -/
  | ruleAppliesTo
deriving DecidableEq, Repr

/-- The side of a rule. -/
inductive SideName where
  | user
  | host
  | service
deriving DecidableEq, Repr

structure Node where
  kind : NodeKind
  name : String
deriving DecidableEq

abbrev Key := NodeKind × String

def Node.key (n : Node) : Key := (n.kind, PyStr.lower n.name)

structure Edge where
  src : Node
  dst : Node
  kind : EdgeKind
  /-- The call the edge came from. -/
  source : String
  side : Option SideName := none
deriving DecidableEq

def Edge.key (e : Edge) : Key × Key × EdgeKind × Option SideName :=
  (e.src.key, e.dst.key, e.kind, e.side)

theorem no_nodes_le : ([] : List Node).length ≤ MAX_NODES := Nat.zero_le MAX_NODES

theorem no_edges_le : ([] : List Edge).length ≤ MAX_EDGES := Nat.zero_le MAX_EDGES

/-- Nodes and edges in the order they were added, no key twice. The
edges out of a node are those of the whole list that begin there. -/
structure RelationshipIndex where
  max_nodes : Nat := MAX_NODES
  max_edges : Nat := MAX_EDGES
  nodes : List Node := []
  edges : List Edge := []
  truncated : Bool := false
  nodes_le : nodes.length ≤ max_nodes := by exact no_nodes_le
  edges_le : edges.length ≤ max_edges := by exact no_edges_le

namespace RelationshipIndex

def find (index : RelationshipIndex) (key : Key) : Option Node :=
  index.nodes.find? (·.key = key)

/-- The node of a name, added when there is room. -/
def node (index : RelationshipIndex) (kind : NodeKind) (name : String) :
    Option Node × RelationshipIndex :=
  match index.find (Node.key ⟨kind, name⟩) with
  | some existing => (some existing, index)
  | none =>
      if h : index.nodes.length < index.max_nodes then
        (some ⟨kind, name⟩,
          { index with
            nodes := index.nodes ++ [⟨kind, name⟩]
            nodes_le := by rw [List.length_append]; exact h })
      else (none, { index with truncated := true })

/-- An edge between two nodes that are there; of two with one key the
first is kept. -/
def add_edge (index : RelationshipIndex) (src dst : Option Node) (kind : EdgeKind)
    (source : String) (side : Option SideName) : RelationshipIndex :=
  match src, dst with
  | some s, some d =>
      let e : Edge := ⟨s, d, kind, source, side⟩
      if index.edges.any (·.key = e.key) then index
      else if h : index.edges.length < index.max_edges then
        { index with
          edges := index.edges ++ [e]
          edges_le := by rw [List.length_append]; exact h }
      else { index with truncated := true }
  | _, _ => index

def add_parent (child : Option Node) (kind : NodeKind) (edge : EdgeKind) (source : String)
    (index : RelationshipIndex) (name : String) : RelationshipIndex :=
  let (parent, index) := index.node kind name
  index.add_edge child parent edge source none

def add_memberships (index : RelationshipIndex) (child : Option Node) (kind : NodeKind)
    (direct indirect : List String) (source : String) : RelationshipIndex :=
  indirect.foldl (add_parent child kind .memberOfIndirect source)
    (direct.foldl (add_parent child kind .memberOf source) index)

/-- The direct memberships out of a node. -/
def parents (index : RelationshipIndex) (cur : Key) : List Edge :=
  index.edges.filter fun e => e.src.key = cur ∧ e.kind = .memberOf

/-! ## The chain of memberships -/

/-- What a search has still to visit, each with the way there, and what it
has seen. -/
structure Search where
  seen : List Key
  queue : List (Key × List Edge)

/-- Go through the edges out of a node: the way to the target, or the
search with the new nodes behind the others. -/
def scan (target : Key) (path : List Edge) : List Edge → Search → Except (List Edge) Search
  | [], st => .ok st
  | e :: es, st =>
      if e.dst.key ∈ st.seen then scan target path es st
      else if e.dst.key = target then .error (path ++ [e])
      else scan target path es
        ⟨e.dst.key :: st.seen, st.queue ++ [(e.dst.key, path ++ [e])]⟩

/-- The nodes an edge leads to that were not seen. -/
def unseen (edges : List Edge) (seen : List Key) : List Key :=
  remaining (edges.map (·.dst.key)) seen

theorem scan_measure {edges es : List Edge} {target : Key} {path : List Edge}
    (hes : ∀ e ∈ es, e ∈ edges) {st st' : Search} (h : scan target path es st = .ok st') :
    st'.queue.length + (unseen edges st'.seen).length
      ≤ st.queue.length + (unseen edges st.seen).length := by
  induction es generalizing st with
  | nil =>
      cases h
      exact Nat.le_refl _
  | cons e es ih =>
      have hes' : ∀ x ∈ es, x ∈ edges := fun x hx => hes x (List.mem_cons_of_mem _ hx)
      rw [scan] at h
      split at h
      · exact ih hes' h
      · rename_i hnew
        split at h
        · exact nomatch h
        · have hrest := ih hes' h
          have hlt : (unseen edges (e.dst.key :: st.seen)).length < (unseen edges st.seen).length :=
            remaining_cons_lt
              (List.mem_map_of_mem (f := fun x : Edge => x.dst.key) (hes e List.mem_cons_self)) hnew
          simp only [List.length_append, List.length_cons, List.length_nil] at hrest
          omega

def search (index : RelationshipIndex) (target : Key) (max_depth : Nat) :
    Search → Option (List Edge)
  | ⟨_, []⟩ => none
  | ⟨seen, (cur, path) :: rest⟩ =>
      if path.length ≥ max_depth then search index target max_depth ⟨seen, rest⟩
      else
        match _hs : scan target path (index.parents cur) ⟨seen, rest⟩ with
        | .error found => some found
        | .ok st => search index target max_depth st
termination_by st => st.queue.length + (unseen index.edges st.seen).length
decreasing_by
  · simp
  · have hle := scan_measure (fun e he => List.mem_of_mem_filter he) _hs
    simp only [List.length_cons] at hle ⊢
    omega

/-- A shortest chain of direct memberships, breadth first; `none` when the
index holds none. -/
def membership_path (index : RelationshipIndex) (start target : Node)
    (max_depth : Nat := MAX_DEPTH) : Option (List Edge) :=
  if start.key = target.key then some []
  else index.search target.key max_depth ⟨[start.key], [(start.key, [])]⟩

/-! ## Facts -/

theorem node_of_find {index : RelationshipIndex} {kind : NodeKind} {name : String} {n : Node}
    (h : index.find (Node.key ⟨kind, name⟩) = some n) : index.node kind name = (some n, index) := by
  rw [node, h]

/-- A node is there to be had unless it is new and the index is full. -/
theorem node_fst_eq_none {index : RelationshipIndex} {kind : NodeKind} {name : String} :
    (index.node kind name).1 = none ↔
      index.find (Node.key ⟨kind, name⟩) = none ∧ index.max_nodes ≤ index.nodes.length := by
  unfold node
  split
  · rename_i n hn
    simp [hn]
  · rename_i hn
    split
    · rename_i hlt
      simp [hn]
      omega
    · rename_i hge
      simp [hn]
      omega

end RelationshipIndex

/-! ## HBAC rules -/

/-- `d.get(key)` on the attributes of an entry. -/
def get (entry : Dict) (key : String) : Value := (entry.lookup key).getD .null

def first : Value → Value
  | .list [] => .null
  | .list (v :: _) => v
  | v => v

def names : Value → List String
  | .str s => [s]
  | .list vs => vs.filterMap fun | .str s => some s | _ => none
  | _ => []

def flag (v : Value) : Option Bool :=
  match first v with
  | .bool b => some b
  | .str s =>
      if PyStr.upper s = "TRUE" then some true
      else if PyStr.upper s = "FALSE" then some false
      else none
  | _ => none

structure RuleSide where
  category_all : Bool
  names : List String
  groups : List String
deriving DecidableEq

structure HbacRule where
  name : String
  enabled : Option Bool
  user : RuleSide
  host : RuleSide
  service : RuleSide
  source : String
deriving DecidableEq

def categoryAll : Value → Bool
  | .str s => PyStr.lower s = "all"
  | _ => false

/-- One side of a rule, from the attributes of its entry. -/
def HbacRule.side (entry : Dict) (pre member obj grp : String) : RuleSide where
  category_all := categoryAll (first (get entry (pre ++ "category")))
  names := names (get entry (member ++ "_" ++ obj))
  groups := names (get entry (member ++ "_" ++ grp))

def HbacRule.from_api (result : Value) (source : String) : Option HbacRule :=
  match result with
  | .dict entry =>
      match first (get entry "cn") with
      | .str name =>
          if name = "" then none
          else some {
            name
            enabled := flag (get entry "ipaenabledflag")
            user := side entry "user" "memberuser" "user" "group"
            host := side entry "host" "memberhost" "host" "hostgroup"
            service := side entry "service" "memberservice" "hbacsvc" "hbacsvcgroup"
            source }
      | _ => none
  | _ => none

/-! ## Why a side covers an object -/

inductive How where
  | all
  | direct
  | group
  | nestedGroup
  | more
  | none
  | unknown
deriving DecidableEq, Repr

structure SideExplanation where
  side : SideName
  how : How
  via : Option String := .none
  chain : List String := []
  chain_complete : Bool := true
  count : Nat := 0
deriving DecidableEq

/-- What was reported for one object: its node, and its direct and nested
groups. -/
structure Membership where
  node : Node
  direct : List String
  indirect : List String

def Membership.all_groups (m : Membership) : List String :=
  (m.direct ++ m.indirect).map PyStr.lower

/-- The reason a listed group of the object gives. -/
def explain_group (index : RelationshipIndex) (side : SideName) (member : Membership)
    (group_kind : NodeKind) (g : String) : SideExplanation × RelationshipIndex :=
  if PyStr.lower g ∈ member.direct.map PyStr.lower then
    ({ side, how := .group, via := some g, chain := [member.node.name, g] }, index)
  else
    let (target, index) := index.node group_kind g
    let path := target.bind fun t => index.membership_path member.node t
    match path with
    | some (e :: es) =>
        ({ side, how := .nestedGroup, via := some g,
           chain := member.node.name :: (e :: es).map (·.dst.name) }, index)
    | _ =>
        ({ side, how := .nestedGroup, via := some g, chain := [member.node.name, "...", g],
           chain_complete := false }, index)

def explain_groups (side : SideName) (member : Membership) (group_kind : NodeKind) :
    List String → RelationshipIndex → List SideExplanation × RelationshipIndex
  | [], index => ([], index)
  | g :: gs, index =>
      let (s, index) := explain_group index side member group_kind g
      let (rest, index) := explain_groups side member group_kind gs index
      (s :: rest, index)

/-- The groups of a side the object is in. -/
def RuleSide.listed (rule_side : RuleSide) (member : Membership) : List String :=
  (rule_side.groups.mergeSort fun a b => PyStr.le (PyStr.lower a) (PyStr.lower b)).filter
    fun g => PyStr.lower g ∈ member.all_groups

/-- Every reason why a side covers the object, the first 20 groups of
them; `none` when there is none, `unknown` when the side lists groups and
the groups of the object were never read. -/
def explain_side (index : RelationshipIndex) (side : SideName) (rule_side : RuleSide)
    (member : Option Membership) (object_name : String) (group_kind : NodeKind)
    (groups_known : Bool := true) : List SideExplanation × RelationshipIndex :=
  if rule_side.category_all then ([{ side, how := .all }], index)
  else
    let direct : List SideExplanation :=
      if PyStr.lower object_name ∈ rule_side.names.map PyStr.lower then [{ side, how := .direct }]
      else []
    match member with
    | some m =>
        let listed := rule_side.listed m
        let extra := listed.length - MAX_SIDE_EXPLANATIONS
        let (groups, index) :=
          explain_groups side m group_kind (listed.take MAX_SIDE_EXPLANATIONS) index
        let more : List SideExplanation :=
          if extra ≠ 0 then [{ side, how := .more, count := extra }] else []
        let out := direct ++ groups ++ more
        (if out.isEmpty then [{ side, how := .none }] else out, index)
    | none =>
        if direct.isEmpty && !groups_known && !rule_side.groups.isEmpty then
          ([{ side, how := .unknown }], index)
        else (if direct.isEmpty then [{ side, how := .none }] else direct, index)

end IpaDiagnose.Access
