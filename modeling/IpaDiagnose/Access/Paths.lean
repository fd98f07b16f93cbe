import IpaDiagnose.Access.Relations
import IpaDiagnose.Lib.Bfs

/-!
# The direct memberships of the index

How they come into the index, and the search for a chain of them, which
goes breadth first: what it returns is a shortest chain of those the index
holds, and where it returns none, the index holds none within the bound on
depth.
-/

namespace IpaDiagnose.Access.RelationshipIndex

open Bfs (Searching)

/-! ## What the index holds -/

/-- The index holds a direct membership of the one in the other. -/
def Linked (index : RelationshipIndex) (a b : Key) : Prop :=
  ∃ e ∈ index.edges, e.src.key = a ∧ e.dst.key = b ∧ e.kind = .memberOf

/-- An index with more in it: what it held is kept, of direct memberships
only those of `new` are added, and an index that is whole was so before. -/
structure Grows (i j : RelationshipIndex) (new : Key → Key → Prop) : Prop where
  kept : ∀ e ∈ i.edges, e ∈ j.edges
  added : ∀ a b, j.Linked a b → i.Linked a b ∨ new a b
  whole : j.truncated = false → i.truncated = false

theorem Grows.refl (i : RelationshipIndex) (new : Key → Key → Prop) : i.Grows i new :=
  ⟨fun _ he => he, fun _ _ h => .inl h, fun h => h⟩

theorem Grows.trans {i j l : RelationshipIndex} {new : Key → Key → Prop} (h : i.Grows j new)
    (h' : j.Grows l new) : i.Grows l new where
  kept := fun e he => h'.kept e (h.kept e he)
  added := fun a b hab => (h'.added a b hab).elim (h.added a b) .inr
  whole := fun hl => h.whole (h'.whole hl)

theorem Grows.mono {i j : RelationshipIndex} {new new' : Key → Key → Prop} (h : i.Grows j new)
    (hnew : ∀ a b, new a b → new' a b) : i.Grows j new' :=
  ⟨h.kept, fun a b hab => (h.added a b hab).imp_right (hnew a b), h.whole⟩

theorem Grows.linked {i j : RelationshipIndex} {new : Key → Key → Prop} (h : i.Grows j new)
    {a b : Key} (hab : i.Linked a b) : j.Linked a b := by
  obtain ⟨e, he, hkeys⟩ := hab
  exact ⟨e, h.kept e he, hkeys⟩

theorem node_grows (i : RelationshipIndex) (kind : NodeKind) (name : String)
    (new : Key → Key → Prop) : i.Grows (i.node kind name).2 new := by
  unfold node
  split
  · exact .refl i new
  · split
    · exact ⟨fun _ he => he, fun _ _ h => .inl h, fun h => h⟩
    · refine ⟨fun _ he => he, fun _ _ h => .inl h, fun h => ?_⟩
      cases h

/-- The node of a name, unless the index is full. -/
theorem node_spec (i : RelationshipIndex) (kind : NodeKind) (name : String) :
    (∃ n, (i.node kind name).1 = some n ∧ n.key = Node.key ⟨kind, name⟩)
      ∨ ((i.node kind name).1 = none ∧ (i.node kind name).2.truncated = true) := by
  unfold node
  split
  · rename_i n hn
    refine .inl ⟨n, rfl, ?_⟩
    simpa using List.find?_some hn
  · split
    · exact .inl ⟨_, rfl, rfl⟩
    · exact .inr ⟨rfl, rfl⟩

theorem node_key {i : RelationshipIndex} {kind : NodeKind} {name : String} {n : Node}
    (h : (i.node kind name).1 = some n) : n.key = Node.key ⟨kind, name⟩ := by
  rcases node_spec i kind name with ⟨n', hn', hkey⟩ | ⟨hnone, -⟩
  · rw [hn'] at h
    cases h
    exact hkey
  · rw [hnone] at h
    cases h

theorem node_of_whole {i : RelationshipIndex} {kind : NodeKind} {name : String}
    (h : (i.node kind name).2.truncated = false) :
    ∃ n, (i.node kind name).1 = some n ∧ n.key = Node.key ⟨kind, name⟩ := by
  refine (node_spec i kind name).resolve_right fun ⟨_, hcut⟩ => ?_
  rw [h] at hcut
  cases hcut

theorem add_edge_grows (i : RelationshipIndex) (src dst : Option Node) (kind : EdgeKind)
    (source : String) (side : Option SideName) {new : Key → Key → Prop}
    (hnew : ∀ s d, src = some s → dst = some d → kind = .memberOf → new s.key d.key) :
    i.Grows (i.add_edge src dst kind source side) new := by
  unfold add_edge
  split
  · rename_i s d
    dsimp only
    split
    · exact .refl i new
    · split
      · refine ⟨fun e he => List.mem_append_left _ he, fun a b hab => ?_, fun h => h⟩
        obtain ⟨e, he, rfl, rfl, hkind⟩ := hab
        rcases List.mem_append.mp he with he | he
        · exact .inl ⟨e, he, rfl, rfl, hkind⟩
        · obtain rfl := List.mem_singleton.mp he
          exact .inr (hnew s d rfl rfl hkind)
      · refine ⟨fun _ he => he, fun _ _ h => .inl h, fun h => ?_⟩
        cases h
  · exact .refl i new

/-- An edge between two nodes that are there is added, or was there. -/
theorem add_edge_linked {i : RelationshipIndex} {s d : Node} {source : String}
    {side : Option SideName}
    (h : (i.add_edge (some s) (some d) .memberOf source side).truncated = false) :
    (i.add_edge (some s) (some d) .memberOf source side).Linked s.key d.key := by
  unfold add_edge at h ⊢
  dsimp only at h ⊢
  split at h
  · rename_i hthere
    rw [if_pos hthere]
    obtain ⟨e, he, hkey⟩ := List.any_eq_true.mp hthere
    have hkey : e.key = Edge.key ⟨s, d, .memberOf, source, side⟩ := of_decide_eq_true hkey
    simp only [Edge.key, Prod.mk.injEq] at hkey
    exact ⟨e, he, hkey.1, hkey.2.1, hkey.2.2.1⟩
  · rename_i hnew
    rw [if_neg hnew]
    split at h
    · rename_i hroom
      rw [dif_pos hroom]
      exact ⟨_, List.mem_append_right _ (List.mem_singleton_self _), rfl, rfl, rfl⟩
    · cases h

/-- Names added one after the other only add what each adds. -/
theorem foldl_grows {α : Type} {f : RelationshipIndex → α → RelationshipIndex}
    {new : Key → Key → Prop} {xs : List α} (h : ∀ x ∈ xs, ∀ i : RelationshipIndex, i.Grows (f i x) new)
    (i : RelationshipIndex) : i.Grows (xs.foldl f i) new := by
  induction xs generalizing i with
  | nil => exact .refl i new
  | cons x xs ih =>
      have hx := h x List.mem_cons_self i
      exact hx.trans (ih (fun y hy => h y (List.mem_cons_of_mem _ hy)) _)

/-- What each of them links is linked in the end, in an index that is whole. -/
theorem foldl_linked {α : Type} {f : RelationshipIndex → α → RelationshipIndex} {xs : List α}
    {src dst : α → Key} (hgrows : ∀ (x : α) (i : RelationshipIndex), i.Grows (f i x) fun _ _ => True)
    (hlink : ∀ x i, (f i x).truncated = false → (f i x).Linked (src x) (dst x))
    {i : RelationshipIndex} (h : (xs.foldl f i).truncated = false) :
    ∀ x ∈ xs, (xs.foldl f i).Linked (src x) (dst x) := by
  induction xs generalizing i with
  | nil => exact fun x hx => nomatch hx
  | cons x xs ih =>
      intro y hy
      rcases List.mem_cons.mp hy with rfl | hy
      · have hrest := @foldl_grows _ f _ xs (fun x _ i => hgrows x i) (f i y)
        exact hrest.linked (hlink y i (hrest.whole h))
      · exact ih h y hy

/-! ## Chains -/

/-- A chain of direct memberships of the index. -/
abbrev Walk (index : RelationshipIndex) : Key → List Edge → Key → Prop :=
  Bfs.Walk index.parents fun e => e.dst.key

/-- A chain no other of the index is shorter than. -/
abbrev Shortest (index : RelationshipIndex) : Key → List Edge → Key → Prop :=
  Bfs.Shortest index.parents fun e => e.dst.key

theorem mem_parents {index : RelationshipIndex} {cur : Key} {e : Edge} :
    e ∈ index.parents cur ↔ e ∈ index.edges ∧ e.src.key = cur ∧ e.kind = .memberOf := by
  rw [parents, List.mem_filter, decide_eq_true_eq]

variable {index : RelationshipIndex} {start target u : Key} {bound : Nat}

/-- Going through the edges out of the oldest open node finds a shortest
chain, or closes the node. -/
theorem scan_spec {p : List Edge} (hp : p.length < bound) {es : List Edge} {st : Search}
    (h : Searching index.parents (fun e => e.dst.key) start target bound st.seen ((u, p) :: st.queue))
    (hes : ∀ e ∈ es, e ∈ index.parents u)
    (hdone : ∀ e ∈ index.parents u, e ∈ es ∨ e.dst.key ∈ st.seen) :
    match scan target p es st with
    | .error path => index.Shortest start path target
    | .ok st' =>
        Searching index.parents (fun e => e.dst.key) start target bound st'.seen st'.queue := by
  induction es generalizing st with
  | nil => exact h.pop (.inr fun e he => (hdone e he).resolve_left List.not_mem_nil)
  | cons e es ih =>
      have he : e ∈ index.parents u := hes e List.mem_cons_self
      have hes' : ∀ x ∈ es, x ∈ index.parents u := fun x hx => hes x (List.mem_cons_of_mem _ hx)
      rw [scan]
      by_cases hseen : e.dst.key ∈ st.seen
      · rw [if_pos hseen]
        refine ih h hes' fun x hx => ?_
        rcases hdone x hx with hmem | hx
        · rcases List.mem_cons.mp hmem with rfl | hmem
          · exact .inr hseen
          · exact .inl hmem
        · exact .inr hx
      · rw [if_neg hseen]
        by_cases htarget : e.dst.key = target
        · rw [if_pos htarget]
          have hshort := h.discover hp he hseen
          rwa [htarget] at hshort
        · rw [if_neg htarget]
          refine ih (h.push hp he hseen htarget) hes' fun x hx => ?_
          rcases hdone x hx with hmem | hx
          · rcases List.mem_cons.mp hmem with rfl | hmem
            · exact .inr List.mem_cons_self
            · exact .inl hmem
          · exact .inr (List.mem_cons_of_mem _ hx)

theorem search_spec {st : Search}
    (h : Searching index.parents (fun e => e.dst.key) start target bound st.seen st.queue) :
    match index.search target bound st with
    | some path => index.Shortest start path target
    | none => ∀ q, index.Walk start q target → bound < q.length := by
  fun_induction search index target bound st with
  | case1 seen => exact fun q hq => h.stuck hq
  | case2 seen cur path rest hdeep ih => exact ih (h.pop (.inl hdeep))
  | case3 seen cur path rest hdeep found hs =>
      have hscan := @scan_spec index start target cur bound path (Nat.not_le.mp hdeep)
        (index.parents cur) ⟨seen, rest⟩ h (fun e he => he) fun e he => .inl he
      rw [hs] at hscan
      exact hscan
  | case4 seen cur path rest hdeep st hs ih =>
      have hscan := @scan_spec index start target cur bound path (Nat.not_le.mp hdeep)
        (index.parents cur) ⟨seen, rest⟩ h (fun e he => he) fun e he => .inl he
      rw [hs] at hscan
      exact ih hscan

/-- The chain returned is a shortest one; without one, every chain is
longer than the bound. -/
theorem membership_path_spec (index : RelationshipIndex) (start target : Node) (max_depth : Nat) :
    match index.membership_path start target max_depth with
    | some path => index.Shortest start.key path target.key
    | none => ∀ q, index.Walk start.key q target.key → max_depth < q.length := by
  unfold membership_path
  by_cases hsame : start.key = target.key
  · rw [if_pos hsame, ← hsame]
    exact .nil
  · rw [if_neg hsame]
    exact search_spec (.init hsame max_depth)

theorem shortest_of_path {start target : Node} {max_depth : Nat} {path : List Edge}
    (h : index.membership_path start target max_depth = some path) :
    index.Shortest start.key path target.key := by
  have hspec := index.membership_path_spec start target max_depth
  rwa [h] at hspec

/-- A chain within the bound is found. -/
theorem path_of_walk {start target : Node} {max_depth : Nat} {q : List Edge}
    (hq : index.Walk start.key q target.key) (hlen : q.length ≤ max_depth) :
    (index.membership_path start target max_depth).isSome = true := by
  have hspec := index.membership_path_spec start target max_depth
  rcases hpath : index.membership_path start target max_depth with _ | path
  · rw [hpath] at hspec
    exact absurd (hspec q hq) (Nat.not_lt.mpr hlen)
  · rfl

end IpaDiagnose.Access.RelationshipIndex
