import IpaDiagnose.Access.Chains

/-!
# An index built in any order

A run puts nodes, edges and memberships into the index as it reads them.
Whatever the order, the index has no key twice and no edge without its
ends; as long as it is whole, it holds the direct memberships that were
put in and no others, so that a search finds a chain exactly if what was
put in has one.
-/

namespace IpaDiagnose.Access

/-- What a run puts into the index. -/
inductive Addition where
  | node (n : Node)
  /-- Each end is added when it is new. -/
  | edge (src dst : Node) (kind : EdgeKind) (source : String) (side : Option SideName)
  | memberships (child : Node) (kind : NodeKind) (direct indirect : List String) (source : String)

/-- The direct memberships among it, by the keys of their ends. -/
def Addition.Links : Addition → Key → Key → Prop
  | .node _, _, _ => False
  | .edge src dst kind _ _, a, b => kind = .memberOf ∧ a = src.key ∧ b = dst.key
  | .memberships child kind direct _ _, a, b =>
      a = child.key ∧ ∃ n ∈ direct, b = Node.key ⟨kind, n⟩

namespace RelationshipIndex

def addition (index : RelationshipIndex) : Addition → RelationshipIndex
  | .node n => (index.node n.kind n.name).2
  | .edge src dst kind source side =>
      let (s, index) := index.node src.kind src.name
      let (d, index) := index.node dst.kind dst.name
      index.add_edge s d kind source side
  | .memberships child kind direct indirect source =>
      let (c, index) := index.node child.kind child.name
      index.add_memberships c kind direct indirect source

/-- The index after a run of additions. -/
def ofRun (additions : List Addition) : RelationshipIndex := additions.foldl addition {}

/-! ## No key twice, no edge without its ends -/

structure Sound (i : RelationshipIndex) : Prop where
  nodes : (i.nodes.map Node.key).Nodup
  edges : (i.edges.map Edge.key).Nodup
  ends : ∀ e ∈ i.edges, e.src ∈ i.nodes ∧ e.dst ∈ i.nodes

/-- A node at hand is one of the index. -/
def Holds (i : RelationshipIndex) (n : Option Node) : Prop := ∀ x, n = some x → x ∈ i.nodes

theorem node_sound {i : RelationshipIndex} (h : i.Sound) (kind : NodeKind) (name : String) :
    (i.node kind name).2.Sound ∧ (i.node kind name).2.Holds (i.node kind name).1
      ∧ ∀ n ∈ i.nodes, n ∈ (i.node kind name).2.nodes := by
  unfold node
  split
  · rename_i n hn
    refine ⟨h, fun x hx => ?_, fun _ hm => hm⟩
    obtain rfl := Option.some.inj hx
    exact List.mem_of_find?_eq_some hn
  · rename_i hnone
    split
    · have hnew : Node.key ⟨kind, name⟩ ∉ i.nodes.map Node.key := by
        intro hmem
        obtain ⟨n, hn, hkey⟩ := List.mem_map.mp hmem
        exact List.find?_eq_none.mp hnone n hn (decide_eq_true hkey)
      refine ⟨⟨?_, h.edges, fun e he => ?_⟩, fun x hx => ?_, fun n hn => ?_⟩
      · rw [List.map_append, List.map_singleton, ← List.concat_eq_append]
        exact List.Nodup.concat hnew h.nodes
      · obtain ⟨hsrc, hdst⟩ := h.ends e he
        exact ⟨List.mem_append_left _ hsrc, List.mem_append_left _ hdst⟩
      · obtain rfl := Option.some.inj hx
        exact List.mem_append_right _ (List.mem_singleton_self _)
      · exact List.mem_append_left _ hn
    · refine ⟨⟨h.nodes, h.edges, h.ends⟩, fun x hx => ?_, fun _ hm => hm⟩
      cases hx

theorem add_edge_sound {i : RelationshipIndex} (h : i.Sound) {src dst : Option Node}
    (hsrc : i.Holds src) (hdst : i.Holds dst) (kind : EdgeKind) (source : String)
    (side : Option SideName) :
    (i.add_edge src dst kind source side).Sound
      ∧ (i.add_edge src dst kind source side).nodes = i.nodes := by
  unfold add_edge
  split
  · rename_i s d
    dsimp only
    split
    · exact ⟨h, rfl⟩
    · rename_i hnew
      split
      · refine ⟨⟨h.nodes, ?_, fun e he => ?_⟩, rfl⟩
        · rw [List.map_append, List.map_singleton, ← List.concat_eq_append]
          refine List.Nodup.concat (fun hmem => hnew ?_) h.edges
          obtain ⟨e, he, hkey⟩ := List.mem_map.mp hmem
          exact List.any_eq_true.mpr ⟨e, he, decide_eq_true hkey⟩
        · rcases List.mem_append.mp he with he | he
          · exact h.ends e he
          · obtain rfl := List.mem_singleton.mp he
            exact ⟨hsrc s rfl, hdst d rfl⟩
      · exact ⟨⟨h.nodes, h.edges, h.ends⟩, rfl⟩
  · exact ⟨h, rfl⟩

theorem add_parent_sound {i : RelationshipIndex} (h : i.Sound) {child : Option Node}
    (hchild : i.Holds child) (kind : NodeKind) (edge : EdgeKind) (source name : String) :
    (add_parent child kind edge source i name).Sound
      ∧ (add_parent child kind edge source i name).Holds child := by
  obtain ⟨hnode, hparent, hkept⟩ := node_sound h kind name
  have hchild' : (i.node kind name).2.Holds child := fun x hx => hkept x (hchild x hx)
  obtain ⟨hadd, hnodes⟩ := add_edge_sound hnode hchild' hparent edge source none
  refine ⟨hadd, fun x hx => ?_⟩
  show x ∈ ((i.node kind name).2.add_edge child (i.node kind name).1 edge source none).nodes
  rw [hnodes]
  exact hchild' x hx

theorem foldl_parent_sound {i : RelationshipIndex} (h : i.Sound) {child : Option Node}
    (hchild : i.Holds child) (kind : NodeKind) (edge : EdgeKind) (source : String)
    (names : List String) :
    (names.foldl (add_parent child kind edge source) i).Sound
      ∧ (names.foldl (add_parent child kind edge source) i).Holds child := by
  induction names generalizing i with
  | nil => exact ⟨h, hchild⟩
  | cons name names ih =>
      obtain ⟨hone, hkeep⟩ := add_parent_sound h hchild kind edge source name
      exact ih hone hkeep

theorem addition_sound {i : RelationshipIndex} (h : i.Sound) (a : Addition) :
    (i.addition a).Sound := by
  cases a with
  | node n => exact (node_sound h n.kind n.name).1
  | edge src dst kind source side =>
      obtain ⟨hsrc, hs, -⟩ := node_sound h src.kind src.name
      obtain ⟨hdst, hd, hkept⟩ := node_sound hsrc dst.kind dst.name
      exact (add_edge_sound hdst (fun x hx => hkept x (hs x hx)) hd kind source side).1
  | memberships child kind direct indirect source =>
      obtain ⟨hchild, hc, -⟩ := node_sound h child.kind child.name
      obtain ⟨hdirect, hc⟩ := foldl_parent_sound hchild hc kind .memberOf source direct
      exact (foldl_parent_sound hdirect hc kind .memberOfIndirect source indirect).1

/-! ## The direct memberships it holds -/

/-- Without a child nothing is linked; the parents may be added. -/
theorem foldl_parent_grows (c : Option Node) (kind : NodeKind) (edge : EdgeKind) (source : String)
    (names : List String) (i : RelationshipIndex) {new : Key → Key → Prop}
    (hnew : ∀ child, c = some child → edge = .memberOf → ∀ n ∈ names,
      new child.key (Node.key ⟨kind, n⟩)) :
    i.Grows (names.foldl (add_parent c kind edge source) i) new := by
  refine foldl_grows (fun n hn j => ?_) i
  cases c with
  | none =>
      show j.Grows (j.node kind n).2 new
      exact j.node_grows kind n new
  | some child =>
      refine (add_parent_grows child kind edge source n j).mono ?_
      rintro a b ⟨hedge, rfl, rfl⟩
      exact hnew child rfl hedge n hn

theorem addition_grows (i : RelationshipIndex) (a : Addition) : i.Grows (i.addition a) a.Links := by
  cases a with
  | node n => exact i.node_grows n.kind n.name _
  | edge src dst kind source side =>
      refine (i.node_grows src.kind src.name _).trans ((node_grows _ dst.kind dst.name _).trans
        (add_edge_grows _ _ _ kind source side fun s d hs hd hkind => ⟨hkind, ?_, ?_⟩))
      · exact node_key hs
      · exact node_key hd
  | memberships child kind direct indirect source =>
      refine (i.node_grows child.kind child.name _).trans
        ((foldl_parent_grows _ kind .memberOf source direct _ ?_).trans
          (foldl_parent_grows _ kind .memberOfIndirect source indirect _ ?_))
      · intro c hc _ n hn
        exact ⟨node_key hc, n, hn, rfl⟩
      · intro c _ hedge
        cases hedge

theorem addition_linked {i : RelationshipIndex} {a : Addition}
    (h : (i.addition a).truncated = false) {x y : Key} (hxy : a.Links x y) :
    (i.addition a).Linked x y := by
  cases a with
  | node n => exact hxy.elim
  | edge src dst kind source side =>
      obtain ⟨rfl, rfl, rfl⟩ := hxy
      have hadd : RelationshipIndex.Grows _ _ fun _ _ => True :=
        add_edge_grows ((i.node src.kind src.name).2.node dst.kind dst.name).2
          (i.node src.kind src.name).1 ((i.node src.kind src.name).2.node dst.kind dst.name).1
          .memberOf source side fun _ _ _ _ _ => trivial
      have hdst := hadd.whole h
      have hsrc := (node_grows (i.node src.kind src.name).2 dst.kind dst.name
        fun _ _ => True).whole hdst
      obtain ⟨s, hs, hskey⟩ := node_of_whole hsrc
      obtain ⟨d, hd, hdkey⟩ := node_of_whole hdst
      have hsame : i.addition (.edge src dst .memberOf source side)
          = ((i.node src.kind src.name).2.node dst.kind dst.name).2.add_edge (some s) (some d)
            .memberOf source side := by
        rw [← hs, ← hd]
        rfl
      rw [hsame] at h ⊢
      have hlinked := add_edge_linked h
      rwa [hskey, hdkey] at hlinked
  | memberships child kind direct indirect source =>
      obtain ⟨rfl, n, hn, rfl⟩ := hxy
      have hindirect : RelationshipIndex.Grows _ _ fun _ _ => True :=
        foldl_parent_grows (i.node child.kind child.name).1 kind .memberOfIndirect source indirect
          (direct.foldl (add_parent (i.node child.kind child.name).1 kind .memberOf source)
            (i.node child.kind child.name).2) fun _ _ _ _ _ => trivial
      have hdirect : RelationshipIndex.Grows _ _ fun _ _ => True :=
        foldl_parent_grows (i.node child.kind child.name).1 kind .memberOf source direct
          (i.node child.kind child.name).2 fun _ _ _ _ _ => trivial
      have hwhole := hindirect.whole h
      obtain ⟨c, hc, hckey⟩ := node_of_whole (hdirect.whole hwhole)
      refine hindirect.linked ?_
      rw [hc] at hwhole ⊢
      rw [← hckey]
      exact foldl_linked
        (fun n j => (add_parent_grows c kind .memberOf source n j).mono fun _ _ _ => trivial)
        (fun n j hj => add_parent_linked hj) hwhole n hn

/-! ## Runs -/

theorem foldl_addition (additions : List Addition) {i : RelationshipIndex} (h : i.Sound) :
    (additions.foldl addition i).Sound
      ∧ i.Grows (additions.foldl addition i) (fun x y => ∃ a ∈ additions, a.Links x y)
      ∧ ((additions.foldl addition i).truncated = false →
        ∀ a ∈ additions, ∀ x y, a.Links x y → (additions.foldl addition i).Linked x y) := by
  induction additions generalizing i with
  | nil => exact ⟨h, .refl i _, fun _ a ha => absurd ha List.not_mem_nil⟩
  | cons a additions ih =>
      obtain ⟨hsound, hgrows, hlinked⟩ := ih (addition_sound h a)
      refine ⟨hsound, ?_, fun hwhole b hb x y hxy => ?_⟩
      · refine ((i.addition_grows a).mono fun x y hxy => ?_).trans (hgrows.mono fun x y hxy => ?_)
        · exact ⟨a, List.mem_cons_self, hxy⟩
        · obtain ⟨b, hb, hxy⟩ := hxy
          exact ⟨b, List.mem_cons_of_mem _ hb, hxy⟩
      · rcases List.mem_cons.mp hb with rfl | hb
        · exact hgrows.linked (addition_linked (hgrows.whole hwhole) hxy)
        · exact hlinked hwhole b hb x y hxy

theorem empty_sound : ({} : RelationshipIndex).Sound where
  nodes := .nil
  edges := .nil
  ends _ he := absurd he List.not_mem_nil

/-- The direct memberships a run puts in, one after the other. -/
inductive Chained (additions : List Addition) : Key → Nat → Key → Prop where
  | nil (x : Key) : Chained additions x 0 x
  | snoc {x y z : Key} {n : Nat} (h : Chained additions x n y) {a : Addition}
      (ha : a ∈ additions) (hyz : a.Links y z) : Chained additions x (n + 1) z

theorem not_linked_empty (x y : Key) : ¬ ({} : RelationshipIndex).Linked x y := by
  rintro ⟨e, he, -⟩
  cases he

theorem chained_of_walk {additions : List Addition} {x y : Key} {p : List Edge}
    (h : (ofRun additions).Walk x p y) : Chained additions x p.length y := by
  obtain ⟨-, hgrows, -⟩ := foldl_addition additions empty_sound
  induction h with
  | nil => exact .nil x
  | @snoc p u e _ he ih =>
      obtain ⟨hmem, hsrc, hkind⟩ := mem_parents.mp he
      have hlinked : (ofRun additions).Linked u e.dst.key := ⟨e, hmem, hsrc, rfl, hkind⟩
      obtain ⟨a, ha, hxy⟩ := (hgrows.added _ _ hlinked).resolve_left (not_linked_empty _ _)
      rw [List.length_append, List.length_singleton]
      exact ih.snoc ha hxy

theorem walk_of_chained {additions : List Addition} (hwhole : (ofRun additions).truncated = false)
    {x y : Key} {n : Nat} (h : Chained additions x n y) :
    ∃ p, (ofRun additions).Walk x p y ∧ p.length = n := by
  obtain ⟨-, -, hlinked⟩ := foldl_addition additions empty_sound
  induction h with
  | nil => exact ⟨[], .nil, rfl⟩
  | @snoc u z n _ a ha hyz ih =>
      obtain ⟨p, hp, rfl⟩ := ih
      obtain ⟨e, he, hsrc, rfl, hkind⟩ := hlinked hwhole a ha u z hyz
      exact ⟨p ++ [e], hp.snoc (mem_parents.mpr ⟨he, hsrc, hkind⟩), by simp⟩

end RelationshipIndex

end IpaDiagnose.Access
