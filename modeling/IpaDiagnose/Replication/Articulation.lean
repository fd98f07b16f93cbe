import Mathlib.Data.String.Basic
import IpaDiagnose.Replication.Rounds

/-!
# The articulation points are the cuts

A search settles the component of its root, and the searches together all
nodes there are: `articulation_points` returns, in order, the nodes whose
removal makes the components more.
-/

namespace IpaDiagnose.Topology

open Cut

/-! ## Searches one after the other -/

section Searches

variable {V : Type} [DecidableEq V] {G : SimpleGraph V} {N : Set V} {adj : V → List V}
  {done : Set V} {root : V} {s : Search V} {S : Set V} {nodes : List V}

/-- What the searches so far have settled. -/
structure Settled (G : SimpleGraph V) (N : Set V) (done : Set V) (s : Search V) : Prop where
  closed : Closed G N done
  known : ∀ x, (s.disc x).isSome ↔ x ∈ done
  counter : ∀ x d, s.disc x = some d → d < s.counter
  sound : ∀ x ∈ s.points, IsCut G N x
  complete : ∀ x ∈ done, IsCut G N x → x ∈ s.points

theorem Settled.enter (h : Settled G N done s) (hroot : root ∈ N) (hnew : root ∉ done) :
    Inv G N adj done root (s.enter adj root) [(⟨root, none, adj root⟩, {root})] := by
  have hnum : (s.enter adj root).num root = s.counter := by
    simp [Search.enter, Search.num]
  have hlow : (s.enter adj root).low root = s.counter := by
    simp [Search.enter]
  refine ⟨rfl, ⟨.single hroot rfl (fun _ h => (by cases h)) (hlow.trans hnum.symm)
    (fun y hy => absurd hy List.not_mem_nil) fun _ => ?_, trivial⟩, ?_⟩
  · exact ⟨fun _ => ⟨rfl, rfl⟩, fun h => (by cases h), fun _ h => (by cases h),
      fun h => absurd rfl h, fun h => (by cases h)⟩
  · refine ⟨List.pairwise_singleton _ _, ?_, ?_, ?_, rfl, h.sound, ?_⟩
    · intro g hg
      obtain rfl := List.mem_singleton.mp hg
      exact Set.disjoint_singleton_left.mpr hnew
    · intro x
      by_cases hx : x = root
      · subst hx
        simp [Search.enter, spots]
      · simp [Search.enter, spots, hx, h.known x]
    · intro x d hd
      show d < s.counter + 1
      by_cases hx : x = root
      · simp only [Search.enter, hx, Function.update_self, Option.some.injEq] at hd
        omega
      · simp only [Search.enter, Function.update_of_ne hx] at hd
        have hlt := h.counter x d hd
        omega
    · rintro x hcut (hx | ⟨g, hg, hx, hne⟩)
      · exact h.complete x hx hcut
      · obtain rfl := List.mem_singleton.mp hg
        exact absurd hx hne

theorem Ended.settled (h : Ended G N done root s S) (hdone : Closed G N done)
    (points : List V) (hpoints : points = if 1 < s.children then s.points.insert root
      else s.points) : Settled G N (done ∪ S) { s with points := points } := by
  have hmem : ∀ x, x ∈ points ↔ x ∈ s.points ∨ x = root ∧ 1 < s.children := by
    intro x
    rw [hpoints]
    split
    · rename_i hmany
      rw [List.mem_insert_iff, or_comm]
      simp [hmany]
    · rename_i hfew
      simp [hfew]
  refine ⟨?_, ?_, h.counter, ?_, ?_⟩
  · rintro x (hx | hx) y hy hadj
    · exact .inl (hdone x hx y hy hadj)
    · exact .inr (h.closed x hx y hy hadj)
  · exact h.known
  · intro x hx
    rcases (hmem x).mp hx with hx | ⟨rfl, hmany⟩
    · exact h.sound x hx
    · exact h.rooted.mpr hmany
  · intro x hx hcut
    refine (hmem x).mpr ?_
    by_cases heq : x = root
    · subst heq
      exact .inr ⟨rfl, h.rooted.mp hcut⟩
    · exact .inl (h.complete x hcut (hx.imp_right fun hS => ⟨hS, heq⟩))

/-- A search from a root settles the root, and all that was settled
stays so. -/
theorem Settled.fromRoot (h : Settled G N done s) (hspans : Spans G N adj)
    (hadj : ∀ n, ∀ y ∈ adj n, y ∈ nodes) (hN : root ∈ N) (hroot : root ∈ nodes) :
    ∃ done', Settled G N done' (Search.fromRoot adj nodes s root) ∧ done ⊆ done'
      ∧ root ∈ done' := by
  unfold Search.fromRoot
  split
  · rename_i hknown
    exact ⟨done, h, subset_rfl, (h.known root).mp hknown⟩
  · rename_i hunknown
    have hnone : s.disc root = none := by simpa using hunknown
    have hnew : root ∉ done := fun hin => hunknown ((h.known root).mpr hin)
    have hfed : Fed nodes (s.enter adj root) := by
      intro f hf y hy
      obtain rfl := List.mem_singleton.mp hf
      exact hadj root y hy
    have hwork : work adj nodes (s.enter adj root) ≤ Search.rounds adj nodes := by
      have hless := unfound_update (w := fun n => (adj n).length + 1) (d := s.counter) hnone hroot
      have hall : ((nodes.filter fun n => (s.disc n).isNone).map fun n => (adj n).length + 1).sum
          ≤ Search.rounds adj nodes :=
        (List.filter_sublist.map _).sum_le_sum fun _ _ => Nat.zero_le _
      show ((adj root).length + 1) + 0 + _ ≤ _
      have hsame : ((nodes.filter fun n => ((s.enter adj root).disc n).isNone).map
          fun n => (adj n).length + 1).sum
            = ((nodes.filter fun n => (Function.update s.disc root (some s.counter) n).isNone).map
              fun n => (adj n).length + 1).sum := rfl
      omega
    have hstack : (Search.run adj root (Search.rounds adj nodes) (s.enter adj root)).stack = [] :=
      run_stack hadj _ hfed hwork
    have hrun := Searching.run hspans h.closed (Search.rounds adj nodes)
      (.inl ⟨_, h.enter hN hnew⟩)
    obtain ⟨segs, hinv⟩ | ⟨S, hended⟩ := hrun
    · have hsegs : segs = [] := by
        have hlen := congrArg List.length (hinv.stack.symm.trans hstack)
        simpa using hlen
      rw [hsegs] at hinv
      cases hinv.marks.root
    · refine ⟨done ∪ S, ?_, Set.subset_union_left, .inr hended.mem⟩
      have hsettled := hended.settled h.closed _ rfl
      dsimp only
      split
      · rename_i hmany
        rwa [if_pos hmany] at hsettled
      · rename_i hfew
        rwa [if_neg hfew] at hsettled

theorem Settled.searches (hspans : Spans G N adj) (hadj : ∀ n, ∀ y ∈ adj n, y ∈ nodes) :
    ∀ {todo : List V} {done : Set V} {s : Search V}, Settled G N done s →
      (∀ n ∈ todo, n ∈ N ∧ n ∈ nodes) →
      ∃ done', Settled G N done' (todo.foldl (Search.fromRoot adj nodes) s) ∧ done ⊆ done'
        ∧ ∀ n ∈ todo, n ∈ done'
  | [], done, s, h, _ => ⟨done, h, subset_rfl, fun _ hn => absurd hn List.not_mem_nil⟩
  | root :: todo, done, s, h, htodo => by
      obtain ⟨hN, hroot⟩ := htodo root List.mem_cons_self
      obtain ⟨done₁, h₁, hsub₁, hmem₁⟩ := h.fromRoot hspans hadj hN hroot
      obtain ⟨done₂, h₂, hsub₂, hall₂⟩ := Settled.searches hspans hadj h₁
        fun n hn => htodo n (List.mem_cons_of_mem _ hn)
      refine ⟨done₂, h₂, hsub₁.trans hsub₂, fun n hn => ?_⟩
      rcases List.mem_cons.mp hn with rfl | hn
      · exact hsub₂ hmem₁
      · exact hall₂ n hn

/-- The searches from all nodes put down exactly the cuts. -/
theorem searches_points (hspans : Spans G {n | n ∈ nodes} adj)
    (hadj : ∀ n, ∀ y ∈ adj n, y ∈ nodes) (x : V) :
    x ∈ (nodes.foldl (Search.fromRoot adj nodes) {}).points ↔ IsCut G {n | n ∈ nodes} x := by
  have hinit : Settled G {n | n ∈ nodes} ∅ ({} : Search V) := by
    refine ⟨fun x hx => absurd hx (Set.notMem_empty x), fun x => ?_, fun x d hd => ?_,
      fun x hx => absurd hx List.not_mem_nil, fun x hx => absurd hx (Set.notMem_empty x)⟩
    · simp
    · cases hd
  have htodo : ∀ n ∈ nodes, n ∈ {n | n ∈ nodes} ∧ n ∈ nodes := fun n hn => ⟨hn, hn⟩
  obtain ⟨done, h, -, hall⟩ := hinit.searches hspans hadj htodo
  exact ⟨h.sound x, fun hcut => h.complete x (hall x hcut.1) hcut⟩

end Searches

/-! ## The topology of a suffix -/

/-- The undirected graph of a list of edges: no self-loops, and an edge
listed twice is one. -/
def graph (edges : List (String × String)) : SimpleGraph String where
  Adj a b := a ≠ b ∧ ((a, b) ∈ edges ∨ (b, a) ∈ edges)
  symm := ⟨fun _ _ h => ⟨h.1.symm, h.2.symm⟩⟩
  loopless := ⟨fun _ h => h.1 rfl⟩

theorem mem_sortedSet {names : List String} {x : String} : x ∈ sortedSet names ↔ x ∈ names := by
  rw [sortedSet, List.mem_insertionSort, List.mem_dedup]

theorem sortedSet_length (names : List String) :
    (sortedSet names).length = names.dedup.length :=
  (List.perm_insertionSort _ _).length_eq

theorem sortedSet_strict (names : List String) : (sortedSet names).Pairwise (· < ·) := by
  have hsorted : (sortedSet names).Pairwise (· ≤ ·) := List.pairwise_insertionSort _ _
  have hnodup : (sortedSet names).Pairwise (· ≠ ·) :=
    (List.perm_insertionSort _ _).nodup_iff.mpr (List.nodup_dedup _)
  exact (hsorted.and hnodup).imp fun h => lt_of_le_of_ne h.1 h.2

theorem mem_neighbours {nodes : List String} {edges : List (String × String)} {n x : String} :
    x ∈ neighbours nodes edges n ↔ n ∈ nodes ∧ x ∈ nodes ∧ (graph edges).Adj n x := by
  rw [neighbours, mem_sortedSet, List.mem_flatMap]
  constructor
  · rintro ⟨⟨a, b⟩, he, hx⟩
    dsimp only at hx
    rw [List.mem_ite_nil_right, List.mem_append, List.mem_ite_nil_right, List.mem_ite_nil_right,
      List.mem_singleton, List.mem_singleton] at hx
    obtain ⟨⟨ha, hb, hne⟩, ⟨rfl, rfl⟩ | ⟨rfl, rfl⟩⟩ := hx
    · exact ⟨ha, hb, hne, .inl he⟩
    · exact ⟨hb, ha, hne.symm, .inr he⟩
  · rintro ⟨hn, hx, hne, he | he⟩
    · refine ⟨(n, x), he, ?_⟩
      simp [hn, hx, hne]
    · refine ⟨(x, n), he, ?_⟩
      simp [hn, hx, hne.symm]

theorem spans_neighbours (nodes : List String) (edges : List (String × String)) :
    Spans (graph edges) {n | n ∈ nodes} (neighbours nodes edges) := by
  intro n hn x
  rw [mem_neighbours]
  exact ⟨fun h => h.2, fun h => ⟨hn, h⟩⟩

/-- Up to the bound, what is returned are the nodes whose removal makes
the components more, in order and each once. -/
theorem articulation_points_exact (nodes : List String) (edges : List (String × String))
    (h : nodes.dedup.length ≤ MAX_NODES) :
    (articulation_points nodes edges).Pairwise (· < ·)
      ∧ ∀ v, v ∈ articulation_points nodes edges
        ↔ v ∈ nodes ∧ components (graph edges) {n | n ∈ nodes}
          < components (graph edges) ({n | n ∈ nodes} \ {v}) := by
  have htake : (sortedSet nodes).take MAX_NODES = sortedSet nodes :=
    List.take_of_length_le ((sortedSet_length nodes).le.trans h)
  have hset : {n | n ∈ sortedSet nodes} = {n | n ∈ nodes} :=
    Set.ext fun n => mem_sortedSet
  refine ⟨sortedSet_strict _, fun v => ?_⟩
  unfold articulation_points
  dsimp only
  rw [htake, mem_sortedSet, searches_points (spans_neighbours _ edges)
    (fun n y hy => (mem_neighbours.mp hy).2.1), hset]
  have hfin : {n | n ∈ nodes}.Finite := List.finite_toSet nodes
  constructor
  · exact fun hcut => ⟨hcut.1, (components_lt_iff_cut hfin hcut.1).mpr hcut⟩
  · exact fun hv => (components_lt_iff_cut hfin hv.1).mp hv.2

/-- Three servers in a row. -/
theorem articulation_points_row :
    (articulation_points ["a", "b", "c"] [("a", "b"), ("b", "c")]).Pairwise (· < ·)
      ∧ ∀ v, v ∈ articulation_points ["a", "b", "c"] [("a", "b"), ("b", "c")]
        ↔ v ∈ ["a", "b", "c"]
          ∧ components (graph [("a", "b"), ("b", "c")]) {n | n ∈ ["a", "b", "c"]}
            < components (graph [("a", "b"), ("b", "c")]) ({n | n ∈ ["a", "b", "c"]} \ {v}) :=
  articulation_points_exact ["a", "b", "c"] [("a", "b"), ("b", "c")] (by decide)

example : articulation_points ["a", "b", "c"] [("a", "b"), ("b", "c")] = ["b"] := by
  decide +kernel

end IpaDiagnose.Topology
