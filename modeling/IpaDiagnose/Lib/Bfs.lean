import Mathlib.Data.List.Induction
import Mathlib.Data.Nat.Find

/-!
# Breadth-first search

A search over the edges out of each node that takes the oldest open node
first and does not go on from nodes at a bound. What is open and what is
seen satisfy `Searching`, whichever step is taken; so the first way to the
target it comes upon is a shortest one, and a search with nothing left
open has missed only what is beyond the bound.
-/

namespace IpaDiagnose.Bfs

variable {κ ε : Type} (next : κ → List ε) (dst : ε → κ)

/-! ## Walks -/

/-- The edges from one node to another, one after the other. -/
inductive Walk (start : κ) : List ε → κ → Prop where
  | nil : Walk start [] start
  | snoc {p : List ε} {v : κ} {e : ε} (h : Walk start p v) (he : e ∈ next v) :
      Walk start (p ++ [e]) (dst e)

/-- A walk with as few edges as any. -/
structure Shortest (start : κ) (p : List ε) (v : κ) : Prop where
  walk : Walk next dst start p v
  least : ∀ q, Walk next dst start q v → p.length ≤ q.length

variable {next dst} {start : κ}

theorem Walk.snoc_cases {p : List ε} {e : ε} {v : κ} (h : Walk next dst start (p ++ [e]) v) :
    ∃ u, Walk next dst start p u ∧ e ∈ next u ∧ v = dst e := by
  generalize hq : p ++ [e] = q at h
  cases h with
  | nil => exact absurd hq (List.concat_ne_nil _ _)
  | @snoc p' u e' h he =>
      obtain ⟨rfl, hlast⟩ := List.append_inj' hq rfl
      obtain rfl := List.singleton_inj.mp hlast
      exact ⟨u, h, he, rfl⟩

/-- A walk over fewer edges is one over more. -/
theorem Walk.mono {next' : κ → List ε} (hsub : ∀ v, ∀ e ∈ next v, e ∈ next' v) {p : List ε} {v : κ}
    (h : Walk next dst start p v) : Walk next' dst start p v := by
  induction h with
  | nil => exact .nil
  | snoc _ he ih => exact ih.snoc (hsub _ _ he)

theorem Walk.take {p q : List ε} {v : κ} (h : Walk next dst start (p ++ q) v) :
    ∃ u, Walk next dst start p u := by
  induction q using List.reverseRecOn generalizing v with
  | nil => exact ⟨v, by rwa [List.append_nil] at h⟩
  | append_singleton q e ih =>
      rw [← List.append_assoc] at h
      obtain ⟨u, hu, -, -⟩ := h.snoc_cases
      exact ih hu

theorem Shortest.nil : Shortest next dst start [] start :=
  ⟨.nil, fun _ _ => Nat.zero_le _⟩

theorem Shortest.snoc_cases {p : List ε} {e : ε} {v : κ}
    (h : Shortest next dst start (p ++ [e]) v) :
    ∃ u, Shortest next dst start p u ∧ e ∈ next u ∧ v = dst e := by
  obtain ⟨u, hu, he, rfl⟩ := h.walk.snoc_cases
  refine ⟨u, ⟨hu, fun q hq => ?_⟩, he, rfl⟩
  have hle := h.least _ (hq.snoc he)
  simpa using hle

/-- A shortest walk comes to no node twice. -/
theorem Shortest.nodup {p : List ε} {v : κ} (h : Shortest next dst start p v) :
    (p.map dst).Nodup := by
  induction p using List.reverseRecOn generalizing v with
  | nil => exact List.nodup_nil
  | append_singleton p e ih =>
      obtain ⟨u, hu, -, rfl⟩ := h.snoc_cases
      rw [List.map_append, List.map_singleton, List.nodup_append]
      refine ⟨ih hu, List.pairwise_singleton _ _, ?_⟩
      rintro x hx y hy rfl
      obtain rfl := List.mem_singleton.mp hy
      obtain ⟨f, hf, hdst⟩ := List.mem_map.mp hx
      obtain ⟨q, r, rfl⟩ := List.append_of_mem hf
      -- the walk to the earlier visit is shorter
      have hearly : Walk next dst start (q ++ [f]) (dst e) := by
        have hfirst : Walk next dst start (q ++ [f] ++ r) u := by
          simpa using hu.walk
        obtain ⟨w, hw⟩ := hfirst.take
        obtain ⟨-, -, -, rfl⟩ := hw.snoc_cases
        rwa [hdst] at hw
      have hle := h.least _ hearly
      simp only [List.length_append, List.length_cons, List.length_nil] at hle
      omega

/-- Where there is a walk there is a shortest one. -/
theorem Walk.exists_shortest {p : List ε} {v : κ} (h : Walk next dst start p v) :
    ∃ q, Shortest next dst start q v := by
  classical
  have hex : ∃ n, ∃ q, Walk next dst start q v ∧ q.length = n := ⟨p.length, p, h, rfl⟩
  obtain ⟨q, hq, hlen⟩ := Nat.find_spec hex
  refine ⟨q, hq, fun r hr => ?_⟩
  rw [hlen]
  exact Nat.find_min' hex ⟨r, hr, rfl⟩

/-! ## The search -/

variable (next dst)

/-- What is seen and what is open, the oldest first: open nodes come with
a shortest walk, none of them much longer than another, and from the nodes
that are not open the search has gone on, unless they are at the bound. -/
structure Searching (start target : κ) (bound : Nat) (seen : List κ)
    (opened : List (κ × List ε)) : Prop where
  begun : start ∈ seen
  missing : target ∉ seen
  shortest : ∀ x ∈ opened, Shortest next dst start x.2 x.1
  near : opened.Pairwise fun x y =>
    x.2.length ≤ y.2.length ∧ y.2.length ≤ x.2.length + 1
  closed : ∀ v ∈ seen, (∃ x ∈ opened, x.1 = v)
    ∨ (∃ p, Shortest next dst start p v ∧ bound ≤ p.length) ∨ ∀ e ∈ next v, dst e ∈ seen

variable {next dst} {target : κ} {bound : Nat} {seen : List κ}

theorem Searching.init (h : start ≠ target) (bound : Nat) :
    Searching next dst start target bound [start] [(start, [])] where
  begun := List.mem_singleton_self _
  missing := by simpa using h.symm
  shortest := by simpa using Shortest.nil
  near := List.pairwise_singleton _ _
  closed := by simp

/-- On a walk to a node that was not seen there is an open one, unless the
bound is there first. -/
theorem Searching.open_of_unseen {opened : List (κ × List ε)}
    (h : Searching next dst start target bound seen opened) {q : List ε} {v : κ}
    (hq : Walk next dst start q v) (hv : v ∉ seen) :
    (∃ x ∈ opened, x.2.length < q.length) ∨ bound < q.length := by
  induction hq with
  | nil => exact absurd h.begun hv
  | @snoc p u e hp he ih =>
      rw [List.length_append, List.length_singleton]
      by_cases hu : u ∈ seen
      · rcases h.closed u hu with ⟨x, hx, rfl⟩ | ⟨r, hr, hbound⟩ | hall
        · have hle := (h.shortest x hx).least p hp
          exact .inl ⟨x, hx, by omega⟩
        · have hle := hr.least p hp
          exact .inr (by omega)
        · exact absurd (hall e he) hv
      · rcases ih hu with ⟨x, hx, hlt⟩ | hlt
        · exact .inl ⟨x, hx, by omega⟩
        · exact .inr (by omega)

variable {u : κ} {p : List ε} {rest : List (κ × List ε)}

/-- The way from the oldest open node to a node that was not seen is a
shortest one. -/
theorem Searching.discover (h : Searching next dst start target bound seen ((u, p) :: rest))
    (hp : p.length < bound) {e : ε} (he : e ∈ next u) (hnew : dst e ∉ seen) :
    Shortest next dst start (p ++ [e]) (dst e) := by
  have hu : Shortest next dst start p u := h.shortest _ List.mem_cons_self
  refine ⟨hu.walk.snoc he, fun q hq => ?_⟩
  rw [List.length_append, List.length_singleton]
  rcases h.open_of_unseen hq hnew with ⟨x, hx, hlt⟩ | hlt
  · rcases List.mem_cons.mp hx with rfl | hx
    · exact hlt
    · have hle := ((List.pairwise_cons.mp h.near).1 x hx).1
      dsimp only at hle
      omega
  · omega

/-- It becomes the last open node. -/
theorem Searching.push (h : Searching next dst start target bound seen ((u, p) :: rest))
    (hp : p.length < bound) {e : ε} (he : e ∈ next u) (hnew : dst e ∉ seen)
    (hne : dst e ≠ target) :
    Searching next dst start target bound (dst e :: seen)
      ((u, p) :: (rest ++ [(dst e, p ++ [e])])) := by
  have hshort := h.discover hp he hnew
  obtain ⟨hhead, hrest⟩ := List.pairwise_cons.mp h.near
  constructor
  · exact List.mem_cons_of_mem _ h.begun
  · intro hmem
    rcases List.mem_cons.mp hmem with heq | hmem
    · exact hne heq.symm
    · exact h.missing hmem
  · intro x hx
    rw [← List.cons_append] at hx
    rcases List.mem_append.mp hx with hx | hx
    · exact h.shortest x hx
    · obtain rfl := List.mem_singleton.mp hx
      exact hshort
  · rw [List.pairwise_cons, List.pairwise_append]
    refine ⟨fun x hx => ?_, hrest, List.pairwise_singleton _ _, fun x hx y hy => ?_⟩
    · rcases List.mem_append.mp hx with hx | hx
      · exact hhead x hx
      · obtain rfl := List.mem_singleton.mp hx
        simp
    · obtain rfl := List.mem_singleton.mp hy
      have hx := hhead x hx
      simp only [List.length_append, List.length_singleton] at hx ⊢
      omega
  · intro v hv
    rcases List.mem_cons.mp hv with rfl | hv
    · exact .inl ⟨_, List.mem_cons_of_mem _ List.mem_concat_self, rfl⟩
    · rcases h.closed v hv with ⟨x, hx, rfl⟩ | hbound | hall
      · refine .inl ⟨x, ?_, rfl⟩
        rw [← List.cons_append]
        exact List.mem_append_left _ hx
      · exact .inr (.inl hbound)
      · exact .inr (.inr fun e' he' => List.mem_cons_of_mem _ (hall e' he'))

/-- A node from which the search does not go on, or all of whose
successors were seen, need not stay open. -/
theorem Searching.pop (h : Searching next dst start target bound seen ((u, p) :: rest))
    (hu : bound ≤ p.length ∨ ∀ e ∈ next u, dst e ∈ seen) :
    Searching next dst start target bound seen rest where
  begun := h.begun
  missing := h.missing
  shortest := fun x hx => h.shortest x (List.mem_cons_of_mem _ hx)
  near := (List.pairwise_cons.mp h.near).2
  closed := by
    intro v hv
    rcases h.closed v hv with ⟨x, hx, rfl⟩ | hother
    · rcases List.mem_cons.mp hx with rfl | hx
      · refine .inr (hu.imp_left fun hbound => ⟨p, ?_, hbound⟩)
        exact h.shortest _ List.mem_cons_self
      · exact .inl ⟨x, hx, rfl⟩
    · exact .inr hother

/-- With nothing open, the target is beyond the bound. -/
theorem Searching.stuck (h : Searching next dst start target bound seen []) {q : List ε}
    (hq : Walk next dst start q target) : bound < q.length :=
  (h.open_of_unseen hq h.missing).resolve_left fun ⟨_, hx, _⟩ => nomatch hx

end IpaDiagnose.Bfs
