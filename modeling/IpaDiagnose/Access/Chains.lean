import Mathlib.Logic.Relation
import IpaDiagnose.Access.Evaluate
import IpaDiagnose.Access.Paths
import IpaDiagnose.Lib.Assoc

/-!
# Reading nested groups

The groups form a graph, whatever its shape: a group is a direct member of
others. A search for nested chains looks groups up and reads them, one at
a time. It reads a group at most once, under a budget, and what it adds to
the index are memberships there are.
-/

namespace IpaDiagnose.Access

open Relation (ReflTransGen)

/-- The direct memberships between groups, by their names in lower case:
a group, and one it is a member of. -/
abbrev Groups := String → String → Prop

/-- The group is the object's, directly or through others. -/
def Groups.Reaches (G : Groups) (m : Membership) (g : String) : Prop :=
  ∃ d ∈ lowers m.direct, ReflTransGen G d g

/-- The groups are as the server tells: a group that can be read lists its
member groups, and of the groups the object is in none is left out. -/
structure Mirrors (s : Script) (k : SideKind) (m : Membership) (G : Groups) : Prop where
  answers : ∀ i g, (s.answer i { method := k.method, args := [g] }).ok = true → ∀ c,
    c ∈ lowers (strs (get (s.answer i { method := k.method, args := [g] }).entry k.attr))
      ↔ G c (PyStr.lower g)
  indirect : ∀ g, G.Reaches m g → g ∈ m.all_groups

/-- The index before the search: the object's direct memberships, and none
of a group of this kind. -/
structure Fresh (m : Membership) (k : SideKind) (index : RelationshipIndex) : Prop where
  direct : ∀ b, index.Linked m.node.key b → b.1 = k.kind ∧ b.2 ∈ lowers m.direct
  apart : ∀ a b, index.Linked a b → a.1 ≠ k.kind
  listed : index.truncated = false →
    ∀ d ∈ lowers m.direct, index.Linked m.node.key (k.kind, d)

namespace Chase

variable {m : Membership} {s : Script} {k : SideKind}

/-! ## Steps -/

/-- A group is looked up, or one that was not read is read, within the
budget. -/
inductive Step (s : Script) (k : SideKind) : Chase m → Chase m → Prop where
  | look {c : Chase m} (w : String) : Step s k c (c.known k w).2
  | read {c : Chase m} (g : OwnGroup m) (hnew : c.children.lookup g.key = none)
      (hroom : c.run.chain_reads < MAX_GROUP_FETCHES) : Step s k c (c.read s k g).2

abbrev Steps (s : Script) (k : SideKind) : Chase m → Chase m → Prop := ReflTransGen (Step s k)

theorem opened_steps {c : Chase m} {g : OwnGroup m} {r : Bool × Chase m}
    (h : c.opened s k g = some r) : Steps s k c r.2 := by
  unfold opened at h
  split at h
  · cases h
    exact .refl
  · rename_i hnew
    split at h
    · cases h
    · rename_i hroom
      cases h
      exact .single (.read g (Option.not_isSome_iff_eq_none.mp hnew) (Nat.not_le.mp hroom))

/-- The state a round ends in. -/
def Round.state : Round m → Chase m
  | .spent c => c
  | .next _ _ c => c

theorem visit_steps (w : String) (gs found : List (OwnGroup m)) (visited : List String)
    (c : Chase m) : Steps s k c (visit s k w gs found visited c).state := by
  induction gs generalizing found visited c with
  | nil => exact .refl
  | cons g gs ih =>
      rw [visit]
      split
      · exact ih found visited c
      · dsimp only
        split
        · exact .refl
        · rename_i hopen
          exact (opened_steps hopen).trans (ih _ _ _)
        · rename_i c₁ hopen
          have hlook := (opened_steps hopen).tail (.look w)
          split
          · exact hlook
          · exact hlook.trans (ih _ _ _)

theorem known_steps {c c' : Chase m} {w : String} {b : Bool} (h : c.known k w = (b, c')) :
    Steps s k c c' := by
  have hlook : Step s k c (c.known k w).2 := .look w
  rw [h] at hlook
  exact .single hlook

theorem follow_steps (w : String) (frontier : List (OwnGroup m)) (visited : List String)
    (c : Chase m) : Steps s k c (follow s k w frontier visited c).2 := by
  fun_induction follow s k w frontier visited c with
  | case1 => exact .refl
  | case2 frontier visited c hne c₁ hlook => exact known_steps hlook
  | case3 frontier visited c hne isKnown c₁ hlook hno c₂ hvisit =>
      have hround := visit_steps (s := s) (k := k) w frontier [] visited c₁
      rw [hvisit] at hround
      exact (known_steps hlook).trans hround
  | case4 frontier visited c hne isKnown c₁ hlook hno found visited' c₂ hvisit ih =>
      have hround := visit_steps (s := s) (k := k) w frontier [] visited c₁
      rw [hvisit] at hround
      exact (known_steps hlook).trans (hround.trans ih)

theorem followAll_steps (ws : List (OwnGroup m)) (c : Chase m) :
    Steps s k c (followAll s k ws c).2 := by
  induction ws generalizing c with
  | nil => exact .refl
  | cons w ws ih =>
      have hfollow := follow_steps (s := s) (k := k) w.name [w] [] c
      rw [followAll]
      split
      · rename_i c₁ h
        rw [h] at hfollow
        exact hfollow
      · rename_i c₁ h
        rw [h] at hfollow
        exact hfollow.trans (ih c₁)

theorem allKnown_steps (ws : List (OwnGroup m)) (c : Chase m) :
    Steps s k c (allKnown k ws c).2 := by
  induction ws generalizing c with
  | nil => exact .refl
  | cons w ws ih =>
      rw [allKnown]
      split
      · rename_i c₁ h
        exact known_steps h
      · rename_i c₁ h
        exact (known_steps h).trans (ih c₁)

/-- Looking a group up adds at most its node. -/
theorem known_state (k : SideKind) (c : Chase m) (w : String) :
    (c.known k w).2 = { c with run := { c.run with index := (c.run.index.node k.kind w).2 } } := by
  unfold known
  dsimp only
  split
  · rfl
  · rfl

/-! ## What is counted -/

/-- The groups read, the last first. -/
def groupsRead (c : Chase m) : List String := c.children.map Prod.fst

/-- Each group is read once, by one call, under the budget. -/
structure Counted (run : Run) (c : Chase m) : Prop where
  nodup : c.groupsRead.Nodup
  reads : c.run.chain_reads = run.chain_reads + c.groupsRead.length
  asked : c.run.api.asked = run.api.asked + c.groupsRead.length
  budget : c.run.chain_reads ≤ max run.chain_reads MAX_GROUP_FETCHES

theorem counted_start (run : Run) : Counted run ({ run } : Chase m) where
  nodup := List.nodup_nil
  reads := rfl
  asked := rfl
  budget := Nat.le_max_left _ _

/-- What a read leaves besides the index. -/
structure HasRead (c : Chase m) (g : OwnGroup m) (c' : Chase m) : Prop where
  groups : c'.groupsRead = g.key :: c.groupsRead
  reads : c'.run.chain_reads = c.run.chain_reads + 1
  asked : c'.run.api.asked = c.run.api.asked + 1

theorem heed_asked (api : Api) (r : ApiResponse) : (api.heed r).asked = api.asked := by
  unfold Api.heed
  split
  · split
    · rfl
    · rfl
  · rfl

theorem read_hasRead (s : Script) (k : SideKind) (c : Chase m) (g : OwnGroup m) :
    HasRead c g (c.read s k g).2 := by
  have hasked : ∀ api : Api, ∀ call, (api.ask s call).2.asked = api.asked + 1 := by
    intro api call
    rw [Api.ask]
    exact (heed_asked _ _).trans (Api.call_asked s api call)
  unfold read
  dsimp only
  split
  · exact ⟨rfl, rfl, hasked _ _⟩
  · exact ⟨rfl, rfl, hasked _ _⟩

theorem mem_groupsRead {c : Chase m} {x : String} :
    x ∈ c.groupsRead ↔ (c.children.lookup x).isSome = true :=
  Assoc.lookup_isSome.symm

theorem Counted.step {run : Run} {c c' : Chase m} (h : Counted run c) (hstep : Step s k c c') :
    Counted run c' := by
  cases hstep with
  | look w =>
      rw [known_state]
      exact ⟨h.nodup, h.reads, h.asked, h.budget⟩
  | read g hnew hroom =>
      have hread := read_hasRead s k c g
      refine ⟨?_, ?_, ?_, ?_⟩
      · rw [hread.groups, List.nodup_cons, mem_groupsRead, hnew]
        exact ⟨nofun, h.nodup⟩
      · rw [hread.groups, hread.reads, h.reads, List.length_cons]
        omega
      · rw [hread.groups, hread.asked, h.asked, List.length_cons]
        omega
      · rw [hread.reads]
        omega

theorem Counted.steps {run : Run} {c c' : Chase m} (h : Counted run c) (hsteps : Steps s k c c') :
    Counted run c' := by
  induction hsteps with
  | refl => exact h
  | tail _ hstep ih => exact ih.step hstep

/-! ## What the index holds of the graph -/

/-- The edges from some groups to one they are in. -/
def addMembers (kind : NodeKind) (source : String) (parent : Option Node)
    (index : RelationshipIndex) (children : List (OwnGroup m)) : RelationshipIndex :=
  children.foldl (fun index child =>
    let (n, index) := index.node kind child.name
    index.add_edge n parent .memberOf source none) index

/-- A group and its edge to one it is in. -/
theorem addMember_grows (kind : NodeKind) (source : String) (parent : Option Node)
    (child : OwnGroup m) (i : RelationshipIndex) {new : Key → Key → Prop}
    (hnew : ∀ n, parent = some n → new (kind, child.key) n.key) :
    i.Grows ((i.node kind child.name).2.add_edge (i.node kind child.name).1 parent .memberOf
      source none) new := by
  refine (i.node_grows kind child.name new).trans
    (RelationshipIndex.add_edge_grows _ _ _ _ _ _ ?_)
  intro src dst hsrc hdst _
  rw [RelationshipIndex.node_key hsrc]
  exact hnew dst hdst

theorem addMembers_grows (kind : NodeKind) (source : String) (parent : Option Node)
    (i : RelationshipIndex) (children : List (OwnGroup m)) :
    i.Grows (addMembers kind source parent i children) fun a b =>
      ∃ child ∈ children, a = (kind, child.key) ∧ ∃ n, parent = some n ∧ b = n.key := by
  refine RelationshipIndex.foldl_grows (fun child hchild i => ?_) i
  exact addMember_grows kind source parent child i fun n hn => ⟨child, hchild, rfl, n, hn, rfl⟩

theorem addMembers_linked {kind : NodeKind} {source : String} {parent : Node}
    {i : RelationshipIndex} {children : List (OwnGroup m)}
    (h : (addMembers kind source (some parent) i children).truncated = false) :
    ∀ child ∈ children, (addMembers kind source (some parent) i children).Linked
      (kind, child.key) parent.key := by
  refine RelationshipIndex.foldl_linked (fun child i => ?_) (fun child i hwhole => ?_) h
  · exact addMember_grows kind source (some parent) child i fun _ _ => trivial
  · have hadd : RelationshipIndex.Grows _ _ fun _ _ => True :=
      RelationshipIndex.add_edge_grows (i.node kind child.name).2 (i.node kind child.name).1
        (some parent) .memberOf source none fun _ _ _ _ _ => trivial
    obtain ⟨n, hn, hkey⟩ := RelationshipIndex.node_of_whole (hadd.whole hwhole)
    dsimp only at hwhole ⊢
    rw [hn] at hwhole ⊢
    have hlinked := RelationshipIndex.add_edge_linked hwhole
    rwa [hkey] at hlinked

/-- The memberships in the groups that were read. -/
def Members (G : Groups) (k : SideKind) (read : List String) (a b : Key) : Prop :=
  ∃ x y, a = (k.kind, x) ∧ b = (k.kind, y) ∧ G x y ∧ y ∈ read

/-- What the index and the lists of children have to do with the graph. -/
structure Held (G : Groups) (k : SideKind) (run : Run) (c : Chase m) : Prop where
  grows : run.index.Grows c.run.index (Members G k c.groupsRead)
  all : c.complete = true → ∀ y cs, c.children.lookup y = some cs →
    ∀ x ∈ m.all_groups, G x y → ∃ g ∈ cs, g.key = x
  there : c.run.index.truncated = false → ∀ y cs, c.children.lookup y = some cs →
    ∀ g ∈ cs, c.run.index.Linked (k.kind, g.key) (k.kind, y)

theorem held_start (G : Groups) (k : SideKind) (run : Run) : Held G k run ({ run } : Chase m) where
  grows := .refl _ _
  all := nofun
  there := nofun

theorem Held.look {G : Groups} {run : Run} {c : Chase m} (h : Held G k run c) (w : String) :
    Held G k run (c.known k w).2 := by
  rw [known_state]
  have hnode := c.run.index.node_grows k.kind w (Members G k c.groupsRead)
  exact ⟨h.grows.trans hnode, h.all, fun hwhole y cs hcs g hg =>
    hnode.linked (h.there (hnode.whole hwhole) y cs hcs g hg)⟩

theorem among_key {gs : List String} {x : String} (hx : x ∈ m.all_groups) :
    (∃ g ∈ OwnGroup.among m gs, g.key = x) ↔ x ∈ lowers gs := by
  unfold OwnGroup.among lowers
  rw [List.mem_map]
  constructor
  · rintro ⟨g, hg, rfl⟩
    obtain ⟨n, hn, hsome⟩ := List.mem_filterMap.mp hg
    split at hsome
    · cases hsome
      exact ⟨n, hn, rfl⟩
    · cases hsome
  · rintro ⟨n, hn, rfl⟩
    exact ⟨⟨n, hx⟩, List.mem_filterMap.mpr ⟨n, hn, dif_pos hx⟩, rfl⟩

/-- An answer to a call that succeeded is the script's. -/
theorem call_answer {run : Run} {call : Call} (h : (run.call s call).1.ok = true) :
    (run.call s call).1 = s.answer run.api.asked call := by
  unfold Run.call Api.ask Api.call at h ⊢
  dsimp only at h ⊢
  split at h
  · cases h
  · rename_i havailable
    rw [if_neg havailable]
    split at h
    · cases h
    · rename_i hbudget
      rw [if_neg hbudget]

/-- A read failed, or it added what the script lists. -/
theorem read_cases (s : Script) (k : SideKind) (c : Chase m) (g : OwnGroup m) :
    ((c.read s k g).1 = false ∧ (c.read s k g).2.complete = false
      ∧ (c.read s k g).2.children = (g.key, []) :: c.children
      ∧ (c.read s k g).2.run.index = c.run.index)
    ∨ (c.read s k g).1 = true ∧ ∃ i children,
      (s.answer i { method := k.method, args := [g.name] }).ok = true
      ∧ children = OwnGroup.among m
        (strs (get (s.answer i { method := k.method, args := [g.name] }).entry k.attr))
      ∧ (c.read s k g).2.complete = c.complete
      ∧ (c.read s k g).2.children = (g.key, children) :: c.children
      ∧ (c.read s k g).2.run.index = addMembers k.kind (k.command ++ " " ++ g.name)
        (c.run.index.node k.kind g.name).1 (c.run.index.node k.kind g.name).2 children := by
  unfold read
  dsimp only
  split
  · rename_i hok
    refine .inr ⟨rfl, c.run.api.asked, _, ?_, rfl, rfl, ?_, ?_⟩
    · rwa [call_answer hok] at hok
    · rw [call_answer hok]
    · rw [call_answer hok]
      rfl
  · exact .inl ⟨rfl, rfl, rfl, rfl⟩

theorem Held.read {G : Groups} {run : Run} {c : Chase m} (hG : Mirrors s k m G)
    (h : Held G k run c) (g : OwnGroup m) : Held G k run (c.read s k g).2 := by
  have hgroups : (c.read s k g).2.groupsRead = g.key :: c.groupsRead := (read_hasRead s k c g).groups
  have hmono : run.index.Grows c.run.index (Members G k (c.read s k g).2.groupsRead) := by
    refine h.grows.mono ?_
    rintro a b ⟨x, y, ha, hb, hxy, hy⟩
    rw [hgroups]
    exact ⟨x, y, ha, hb, hxy, List.mem_cons_of_mem _ hy⟩
  rcases read_cases s k c g with ⟨-, hfailed, hchildren, hindex⟩ | ⟨-, i, children, hok, hamong,
    hcomplete, hchildren, hindex⟩
  · refine ⟨?_, ?_, ?_⟩
    · rw [hindex]
      exact hmono
    · intro hc
      rw [hfailed] at hc
      cases hc
    · rw [hindex, hchildren]
      intro hwhole y cs hcs child hchild
      rw [List.lookup_cons] at hcs
      split at hcs
      · cases hcs
        cases hchild
      · exact h.there hwhole y cs hcs child hchild
  · have hnode := c.run.index.node_grows k.kind g.name
      (Members G k (c.read s k g).2.groupsRead)
    have hadd := addMembers_grows k.kind (k.command ++ " " ++ g.name)
      (c.run.index.node k.kind g.name).1 (c.run.index.node k.kind g.name).2 children
    have hlisted : ∀ child ∈ children, G child.key g.key := by
      intro child hchild
      refine (hG.answers i g.name hok child.key).mp ?_
      rw [hamong] at hchild
      exact (among_key child.own).mp ⟨child, hchild, rfl⟩
    have hnew : ∀ a b, (∃ child ∈ children, a = (k.kind, child.key)
        ∧ ∃ n, (c.run.index.node k.kind g.name).1 = some n ∧ b = n.key) →
        Members G k (c.read s k g).2.groupsRead a b := by
      rintro a b ⟨child, hchild, rfl, n, hn, rfl⟩
      refine ⟨child.key, g.key, rfl, RelationshipIndex.node_key hn, hlisted child hchild, ?_⟩
      rw [hgroups]
      exact List.mem_cons_self
    have hgrows := hnode.trans (hadd.mono hnew)
    refine ⟨?_, ?_, ?_⟩
    · rw [hindex]
      exact hmono.trans hgrows
    · rw [hcomplete, hchildren]
      intro hc y cs hcs x hx hxy
      rw [List.lookup_cons] at hcs
      split at hcs
      · rename_i hkey
        cases hcs
        obtain rfl := beq_iff_eq.mp hkey
        rw [hamong, among_key hx]
        exact (hG.answers i g.name hok x).mpr hxy
      · exact h.all hc y cs hcs x hx hxy
    · rw [hindex, hchildren]
      intro hwhole y cs hcs child hchild
      rw [List.lookup_cons] at hcs
      split at hcs
      · rename_i hkey
        cases hcs
        obtain rfl := beq_iff_eq.mp hkey
        obtain ⟨n, hn, hnkey⟩ := RelationshipIndex.node_of_whole (hadd.whole hwhole)
        rw [hn] at hwhole ⊢
        have hlinked := addMembers_linked hwhole child hchild
        rwa [hnkey] at hlinked
      · exact hgrows.linked (h.there (hgrows.whole hwhole) y cs hcs child hchild)

theorem Held.steps {G : Groups} {run : Run} {c c' : Chase m} (hG : Mirrors s k m G)
    (h : Held G k run c) (hsteps : Steps s k c c') : Held G k run c' := by
  induction hsteps with
  | refl => exact h
  | tail _ hstep ih =>
      cases hstep with
      | look w => exact ih.look w
      | read g _ _ => exact ih.read hG g

end Chase

/-! ## The index a search starts with -/

section Start

variable {m : Membership} {k : SideKind}

theorem add_parent_grows (child : Node) (kind : NodeKind) (edge : EdgeKind) (source name : String)
    (i : RelationshipIndex) :
    i.Grows (RelationshipIndex.add_parent (some child) kind edge source i name) fun a b =>
      edge = .memberOf ∧ a = child.key ∧ b = Node.key ⟨kind, name⟩ := by
  refine (i.node_grows kind name _).trans
    (RelationshipIndex.add_edge_grows _ _ _ _ _ _ fun s d hs hd hedge => ⟨hedge, ?_, ?_⟩)
  · rw [Option.some.inj hs]
  · exact RelationshipIndex.node_key hd

theorem add_parent_linked {child : Node} {kind : NodeKind} {source name : String}
    {i : RelationshipIndex}
    (h : (RelationshipIndex.add_parent (some child) kind .memberOf source i name).truncated
      = false) :
    (RelationshipIndex.add_parent (some child) kind .memberOf source i name).Linked child.key
      (Node.key ⟨kind, name⟩) := by
  have hadd : RelationshipIndex.Grows _ _ fun _ _ => True :=
    RelationshipIndex.add_edge_grows (i.node kind name).2 (some child) (i.node kind name).1
      .memberOf source none fun _ _ _ _ _ => trivial
  unfold RelationshipIndex.add_parent at h ⊢
  obtain ⟨n, hn, hkey⟩ := RelationshipIndex.node_of_whole (hadd.whole h)
  dsimp only at h ⊢
  rw [hn] at h ⊢
  rw [← hkey]
  exact RelationshipIndex.add_edge_linked h

/-- The direct memberships of an object, with the groups it is in. -/
theorem add_direct_grows (index : RelationshipIndex) (source : String) :
    index.Grows
      (m.direct.foldl (RelationshipIndex.add_parent (some m.node) k.kind .memberOf source) index)
      fun a b => a = m.node.key ∧ b.1 = k.kind ∧ b.2 ∈ lowers m.direct := by
  refine RelationshipIndex.foldl_grows (fun d hd i => ?_) index
  refine (add_parent_grows m.node k.kind .memberOf source d i).mono ?_
  rintro a b ⟨-, rfl, rfl⟩
  exact ⟨rfl, rfl, List.mem_map_of_mem hd⟩

theorem add_indirect_grows (index : RelationshipIndex) (source : String) :
    index.Grows (m.indirect.foldl
      (RelationshipIndex.add_parent (some m.node) k.kind .memberOfIndirect source) index)
      fun _ _ => False := by
  refine RelationshipIndex.foldl_grows (fun d _ i => ?_) index
  refine (add_parent_grows m.node k.kind .memberOfIndirect source d i).mono ?_
  rintro a b ⟨hedge, -⟩
  cases hedge

/-- The memberships of an object, in an index that has none of it and none
of a group of this kind. -/
theorem fresh_add_memberships {index : RelationshipIndex} (source : String)
    (hkind : m.node.kind ≠ k.kind)
    (hnone : ∀ a b, index.Linked a b → a ≠ m.node.key ∧ a.1 ≠ k.kind) :
    Fresh m k (index.add_memberships (some m.node) k.kind m.direct m.indirect source) := by
  have hdirect := add_direct_grows (m := m) (k := k) index source
  have hindirect := add_indirect_grows (m := m) (k := k)
    (m.direct.foldl (RelationshipIndex.add_parent (some m.node) k.kind .memberOf source) index)
    source
  have hall : ∀ a b, (index.add_memberships (some m.node) k.kind m.direct m.indirect source).Linked
      a b → index.Linked a b ∨ (a = m.node.key ∧ b.1 = k.kind ∧ b.2 ∈ lowers m.direct) :=
    fun a b h => (hindirect.added a b h).elim (hdirect.added a b) False.elim
  constructor
  · intro b hb
    rcases hall _ _ hb with h | ⟨-, h⟩
    · exact absurd rfl (hnone _ _ h).1
    · exact h
  · intro a b hab
    rcases hall a b hab with h | ⟨rfl, -⟩
    · exact (hnone a b h).2
    · exact hkind
  · intro hwhole d hd
    obtain ⟨name, hname, rfl⟩ := List.mem_map.mp hd
    have hlinked : ∀ name ∈ m.direct, (m.direct.foldl
        (RelationshipIndex.add_parent (some m.node) k.kind .memberOf source) index).Linked
        m.node.key (Node.key ⟨k.kind, name⟩) := by
      refine RelationshipIndex.foldl_linked (fun name i => ?_) (fun name i h => ?_)
        (hindirect.whole hwhole)
      · exact (add_parent_grows m.node k.kind .memberOf source name i).mono fun _ _ _ => trivial
      · exact add_parent_linked h
    obtain ⟨e, he, hkey⟩ := hlinked name hname
    exact ⟨e, hindirect.kept e he, hkey⟩

/-- What is added later of other objects and kinds does not matter. -/
theorem Fresh.grows {i j : RelationshipIndex} {new : Key → Key → Prop} (h : Fresh m k i)
    (hgrows : i.Grows j new) (hnew : ∀ a b, new a b → a ≠ m.node.key ∧ a.1 ≠ k.kind) :
    Fresh m k j where
  direct b hb := (hgrows.added _ _ hb).elim (h.direct b) fun hb => absurd rfl (hnew _ _ hb).1
  apart a b hab := (hgrows.added a b hab).elim (h.apart a b) fun hab => (hnew a b hab).2
  listed hwhole d hd := by
    obtain ⟨e, he, hkey⟩ := h.listed (hgrows.whole hwhole) d hd
    exact ⟨e, hgrows.kept e he, hkey⟩

end Start

end IpaDiagnose.Access
