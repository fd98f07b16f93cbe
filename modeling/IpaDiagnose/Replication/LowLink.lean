import IpaDiagnose.Lib.Cut
import IpaDiagnose.Replication.Topology

/-!
# What the search knows of a node on its stack

Each node on the stack has a segment: what was found from it on and left
again. Segments are connected, lie apart, and touch the rest of the graph
only where the stack is below them; `low` says how far down. From this a
node that is left is a cut or not once and for all.
-/

namespace IpaDiagnose.Topology

open Cut

variable {V : Type}

/-! ## Segments -/

/-- A frame with the segment of its node. -/
abbrev Segment (V : Type) := Frame V × Set V

def path (segs : List (Segment V)) : List V := segs.map fun g => g.1.node

/-- The neighbours that are visited are those of the graph. -/
def Spans (G : SimpleGraph V) (N : Set V) (adj : V → List V) : Prop :=
  ∀ n ∈ N, ∀ x, x ∈ adj n ↔ x ∈ N ∧ G.Adj n x

section Invariant

variable (G : SimpleGraph V) (N : Set V) (adj : V → List V)

/-- A segment is connected, and what it touches is on the stack below;
`above` is the node that is being visited from this one. -/
structure Grown (above : Option V) (f : Frame V) (S : Set V) (rest : List (Segment V)) :
    Prop where
  parent : f.parent = (path rest).head?
  linked : ∀ p, f.parent = some p → G.Adj p f.node
  mem : f.node ∈ S
  sub : S ⊆ N
  inside : ∀ x ∈ S, Joined G S f.node x
  closed : ∀ x ∈ S, x ≠ f.node → ∀ y ∈ N, G.Adj x y → y ∈ S ∨ y ∈ path rest
  it : ∀ y ∈ f.it, y ∈ adj f.node
  seen : ∀ y ∈ adj f.node, y ∉ f.it → y ∈ S ∨ y ∈ path rest ∨ above = some y

/-- `low` is the lowest number on the stack that a segment touches, but
for the edge its node was found by. -/
structure Lowest (num low : V → Nat) (f : Frame V) (S : Set V) (rest : List (Segment V)) :
    Prop where
  before : ∀ y ∈ path rest, num y < num f.node
  after : ∀ x ∈ S, num f.node ≤ num x
  le : low f.node ≤ num f.node
  found : low f.node = num f.node
    ∨ ∃ y ∈ path rest, ∃ x ∈ S, G.Adj x y ∧ low f.node = num y
  below : ∀ y ∈ path rest, ∀ x ∈ S, x ≠ f.node → G.Adj x y → low f.node ≤ num y
  own : ∀ y ∈ path rest, y ∈ adj f.node → y ∉ f.it → f.parent ≠ some y → low f.node ≤ num y

/-- What is below a node that is no root and was not put down as a cut is
held by the stack below. -/
def Held (points : List V) (f : Frame V) (S : Set V) (rest : List (Segment V)) : Prop :=
  rest ≠ [] → f.node ∉ points →
    ∀ x ∈ S, x ≠ f.node → ∃ y ∈ path rest, Joined G (N \ {f.node}) x y

/-- What the number of a root's children says of it. -/
structure Rooted (children : Nat) (above : Option V) (r : V) (S : Set V) : Prop where
  zero : children = 0 → above = none ∧ S = {r}
  one : children = 1 → above = none →
    ∀ x ∈ S, ∀ y ∈ S, x ≠ r → y ≠ r → Joined G (N \ {r}) x y
  first : ∀ c, children = 1 → above = some c → S = {r}
  child : children ≠ 0 → above = none → ∃ c ∈ S, c ≠ r ∧ G.Adj r c
  many : 1 < children → IsCut G N r

structure FrameOk (num low : V → Nat) (points : List V) (children : Nat) (above : Option V)
    (f : Frame V) (S : Set V) (rest : List (Segment V)) : Prop where
  grown : Grown G N adj above f S rest
  lowest : Lowest G adj num low f S rest
  held : Held G N points f S rest
  rooted : rest = [] → Rooted G N children above f.node S

/-- Every frame of a stack is in order. -/
def Chain (num low : V → Nat) (points : List V) (children : Nat) :
    Option V → List (Segment V) → Prop
  | _, [] => True
  | above, (f, S) :: rest =>
      FrameOk G N adj num low points children above f S rest
        ∧ Chain num low points children (some f.node) rest

end Invariant

section Lemmas

variable {G : SimpleGraph V} {N : Set V} {adj : V → List V} {num low num' low' : V → Nat}
  {points points' : List V} {children : Nat} {above : Option V} {f : Frame V} {S : Set V}
  {rest segs : List (Segment V)}

/-! ## The stack below -/

theorem Chain.mem : ∀ {above : Option V} {segs : List (Segment V)},
    Chain G N adj num low points children above segs → ∀ g ∈ segs, g.1.node ∈ g.2 ∧ g.2 ⊆ N
  | _, [], _ => fun _ hg => absurd hg List.not_mem_nil
  | _, (f, S) :: rest, h => by
      intro g hg
      rcases List.mem_cons.mp hg with rfl | hg
      · exact ⟨h.1.grown.mem, h.1.grown.sub⟩
      · exact Chain.mem h.2 g hg

theorem mem_path {y : V} : y ∈ path segs ↔ ∃ g ∈ segs, g.1.node = y := by
  simp [path]

theorem path_cons : path ((f, S) :: rest) = f.node :: path rest := rfl

/-- The stack is a path of the graph: it holds together without a node
that is not on it. -/
theorem Chain.joined : ∀ {above : Option V} {segs : List (Segment V)},
    Chain G N adj num low points children above segs → ∀ {v : V}, v ∉ path segs →
      ∀ y ∈ path segs, ∀ z ∈ path segs, Joined G (N \ {v}) y z
  | _, [], _, _, _ => fun _ hy => absurd hy List.not_mem_nil
  | _, (f, S) :: rest, h, v, hv => by
      rw [path_cons, List.mem_cons, not_or] at hv
      have hnode : f.node ∈ N \ {v} := ⟨h.1.grown.sub h.1.grown.mem, fun heq => hv.1 heq.symm⟩
      have hrest := Chain.joined h.2 hv.2
      have hdown : ∀ z ∈ path rest, Joined G (N \ {v}) f.node z := by
        intro z hz
        obtain ⟨p, hp⟩ : ∃ p, (path rest).head? = some p := by
          cases hpath : path rest with
          | nil =>
              rw [hpath] at hz
              cases hz
          | cons p ps => exact ⟨p, rfl⟩
        have hadj := h.1.grown.linked p (h.1.grown.parent.trans hp)
        have hpz := hrest p (List.mem_of_head? hp) z hz
        exact (Joined.of_adj hnode hpz.left hadj.symm).trans hpz
      intro y hy z hz
      rw [path_cons] at hy hz
      rcases List.mem_cons.mp hy with rfl | hy
      · rcases List.mem_cons.mp hz with rfl | hz
        · exact .refl hnode
        · exact hdown z hz
      · rcases List.mem_cons.mp hz with rfl | hz
        · exact (hdown y hy).symm
        · exact hrest y hy z hz

/-! ## Frames that a step does not touch -/

theorem FrameOk.congr (h : FrameOk G N adj num low points children above f S rest)
    (hrest : ∀ g ∈ rest, g.1.node ∈ g.2) (hnum : ∀ x ∈ S, num' x = num x)
    (hnums : ∀ g ∈ rest, ∀ x ∈ g.2, num' x = num x) (hlow : low' f.node = low f.node)
    (hpoints : ∀ x ∈ points, x ∈ points') :
    FrameOk G N adj num' low' points' children above f S rest := by
  have hpath : ∀ y ∈ path rest, num' y = num y := by
    intro y hy
    obtain ⟨g, hg, rfl⟩ := mem_path.mp hy
    exact hnums g hg _ (hrest g hg)
  have hnode := hnum f.node h.grown.mem
  refine ⟨h.grown, ⟨?_, ?_, ?_, ?_, ?_, ?_⟩, ?_, h.rooted⟩
  · intro y hy
    rw [hpath y hy, hnode]
    exact h.lowest.before y hy
  · intro x hx
    rw [hnum x hx, hnode]
    exact h.lowest.after x hx
  · rw [hlow, hnode]
    exact h.lowest.le
  · rw [hlow, hnode]
    rcases h.lowest.found with heq | ⟨y, hy, x, hx, hadj, heq⟩
    · exact .inl heq
    · exact .inr ⟨y, hy, x, hx, hadj, by rw [heq, hpath y hy]⟩
  · intro y hy x hx hne hadj
    rw [hlow, hpath y hy]
    exact h.lowest.below y hy x hx hne hadj
  · intro y hy hmem hit hparent
    rw [hlow, hpath y hy]
    exact h.lowest.own y hy hmem hit hparent
  · exact fun hne hnot => h.held hne fun hmem => hnot (hpoints _ hmem)

theorem Chain.congr : ∀ {above : Option V} {segs : List (Segment V)},
    Chain G N adj num low points children above segs →
    (∀ g ∈ segs, ∀ x ∈ g.2, num' x = num x) → (∀ y ∈ path segs, low' y = low y) →
    (∀ x ∈ points, x ∈ points') → Chain G N adj num' low' points' children above segs
  | _, [], _, _, _, _ => trivial
  | _, (f, S) :: rest, h, hnum, hlow, hpoints => by
      have hnums : ∀ g ∈ rest, ∀ x ∈ g.2, num' x = num x :=
        fun g hg => hnum g (List.mem_cons_of_mem _ hg)
      refine ⟨h.1.congr (fun g hg => (Chain.mem h.2 g hg).1) (hnum (f, S) List.mem_cons_self) hnums
        (hlow f.node List.mem_cons_self) hpoints, ?_⟩
      exact Chain.congr h.2 hnums (fun y hy => hlow y (List.mem_cons_of_mem _ hy)) hpoints

/-! ## A neighbour is looked at -/

theorem Grown.consume {node nxt : V} {parent : Option V} {it : List V}
    (h : Grown G N adj none ⟨node, parent, nxt :: it⟩ S rest)
    (hnxt : nxt ∈ S ∨ nxt ∈ path rest ∨ above = some nxt) :
    Grown G N adj above ⟨node, parent, it⟩ S rest := by
  refine ⟨h.parent, h.linked, h.mem, h.sub, h.inside, h.closed,
    fun y hy => h.it y (List.mem_cons_of_mem _ hy), ?_⟩
  intro y hy hit
  by_cases heq : y = nxt
  · rw [heq]
    exact hnxt
  · have hold := h.seen y hy fun hmem => (List.mem_cons.mp hmem).elim heq hit
    rcases hold with hS | hpath | hnone
    · exact .inl hS
    · exact .inr (.inl hpath)
    · cases hnone

theorem Lowest.consume {node nxt : V} {parent : Option V} {it : List V}
    (h : Lowest G adj num low ⟨node, parent, nxt :: it⟩ S rest) (hle : low' node ≤ low node)
    (hfound : low' node = num node
      ∨ ∃ y ∈ path rest, ∃ x ∈ S, G.Adj x y ∧ low' node = num y)
    (hown : nxt ∈ path rest → parent ≠ some nxt → low' node ≤ num nxt) :
    Lowest G adj num low' ⟨node, parent, it⟩ S rest := by
  refine ⟨h.before, h.after, hle.trans h.le, hfound, ?_, ?_⟩
  · exact fun y hy x hx hne hadj => hle.trans (h.below y hy x hx hne hadj)
  · intro y hy hmem hit hparent
    by_cases heq : y = nxt
    · rw [heq] at hy hparent ⊢
      exact hown hy hparent
    · refine hle.trans (h.own y hy hmem (fun hin => ?_) hparent)
      exact (List.mem_cons.mp hin).elim heq hit

/-! ## A node is left -/

/-- What a segment touches once all neighbours of its node were looked
at. -/
theorem Grown.touches {node : V} {parent : Option V}
    (h : Grown G N adj none ⟨node, parent, []⟩ S rest) (hspans : Spans G N adj) :
    ∀ x ∈ S, ∀ y ∈ N, G.Adj x y → y ∈ S ∨ y ∈ path rest := by
  intro x hx y hy hadj
  by_cases hnode : x = node
  · subst hnode
    have hmem : y ∈ adj x := (hspans x (h.sub hx) y).mpr ⟨hy, hadj⟩
    rcases h.seen y hmem List.not_mem_nil with hS | hpath | hnone
    · exact .inl hS
    · exact .inr hpath
    · cases hnone
  · exact h.closed x hx hnode y hy hadj

/-- A segment whose node has been left: its only way to a set it does not
meet is over the stack. -/
theorem Grown.apart {node : V} {parent : Option V} {v x y : V}
    (h : Grown G N adj none ⟨node, parent, []⟩ S rest) (hspans : Spans G N adj) (hx : x ∈ S)
    (hstack : ∀ z ∈ path rest, z ≠ v → ∀ w ∈ S, ¬ G.Adj w z) (hy : y ∉ S) :
    ¬ Joined G (N \ {v}) x y := by
  intro hjoined
  refine hy (hjoined.induction (P := fun z => z ∈ S) hx ?_)
  intro w _ z hz hadj hw
  rcases h.touches hspans w hw z hz.1 hadj with hS | hpath
  · exact hS
  · exact absurd hadj (hstack z hpath hz.2 w hw)

section Leave

variable {c p : V} {g : Frame V} {Sc Sp : Set V}

/-- What the segment touches below its parent, `low` knows. -/
theorem low_le (hc : FrameOk G N adj num low points children none ⟨c, some p, []⟩ Sc
      ((g, Sp) :: rest)) (hg : Lowest G adj num low g Sp rest) (hspans : Spans G N adj) :
    ∀ y ∈ path rest, ∀ x ∈ Sc, y ∈ N → G.Adj x y → low c ≤ num y := by
  intro y hy x hx hyN hadj
  have hmem : y ∈ path ((g, Sp) :: rest) := List.mem_cons_of_mem _ hy
  by_cases hnode : x = c
  · subst hnode
    refine hc.lowest.own y hmem ((hspans x (hc.grown.sub hx) y).mpr ⟨hyN, hadj⟩)
      List.not_mem_nil fun heq => ?_
    have hlt := hg.before y hy
    rw [← Option.some.inj heq, Option.some.inj hc.grown.parent] at hlt
    exact absurd hlt (Nat.lt_irrefl _)
  · exact hc.lowest.below y hmem x hx hnode hadj

theorem merge_grown (hc : Grown G N adj none ⟨c, some p, []⟩ Sc ((g, Sp) :: rest))
    (hg : Grown G N adj (some c) g Sp rest) (hspans : Spans G N adj) :
    Grown G N adj none g (Sp ∪ Sc) rest := by
  obtain rfl : p = g.node := Option.some.inj hc.parent
  refine ⟨hg.parent, hg.linked, .inl hg.mem, Set.union_subset hg.sub hc.sub, ?_, ?_, hg.it, ?_⟩
  · rintro x (hx | hx)
    · exact (hg.inside x hx).mono Set.subset_union_left
    · have hadj : G.Adj g.node c := hc.linked _ rfl
      exact (Joined.of_adj (.inl hg.mem) (.inr hc.mem) hadj).trans
        ((hc.inside x hx).mono Set.subset_union_right)
  · rintro x (hx | hx) hne y hy hadj
    · rcases hg.closed x hx hne y hy hadj with hS | hpath
      · exact .inl (.inl hS)
      · exact .inr hpath
    · rcases hc.touches hspans x hx y hy hadj with hS | hpath
      · exact .inl (.inr hS)
      · rcases List.mem_cons.mp hpath with rfl | hpath
        · exact .inl (.inl hg.mem)
        · exact .inr hpath
  · intro y hy hit
    rcases hg.seen y hy hit with hS | hpath | hchild
    · exact .inl (.inl hS)
    · exact .inr (.inl hpath)
    · exact .inl (.inr (Option.some.inj hchild ▸ hc.mem))

theorem merge_lowest (hc : FrameOk G N adj num low points children none ⟨c, some p, []⟩ Sc
      ((g, Sp) :: rest)) (hg : Lowest G adj num low g Sp rest) (hspans : Spans G N adj)
    (hrest : ∀ y ∈ path rest, y ∈ N) (hlow : low' g.node = min (low g.node) (low c)) :
    Lowest G adj num low' g (Sp ∪ Sc) rest := by
  have hbefore : num g.node < num c := hc.lowest.before g.node List.mem_cons_self
  have hmin : low' g.node ≤ low g.node ∧ low' g.node ≤ low c := by omega
  refine ⟨hg.before, ?_, hmin.1.trans hg.le, ?_, ?_, ?_⟩
  · rintro x (hx | hx)
    · exact hg.after x hx
    · exact (Nat.le_of_lt hbefore).trans (hc.lowest.after x hx)
  · rcases Nat.lt_or_ge (low c) (low g.node) with hlt | hge
    · rcases hc.lowest.found with heq | ⟨y, hy, x, hx, hadj, heq⟩
      · have hle := hg.le
        dsimp only at heq
        omega
      · dsimp only at heq
        rcases List.mem_cons.mp hy with rfl | hy
        · have hle := hg.le
          dsimp only at heq
          omega
        · exact .inr ⟨y, hy, x, .inr hx, hadj, by omega⟩
    · rcases hg.found with heq | ⟨y, hy, x, hx, hadj, heq⟩
      · exact .inl (by omega)
      · exact .inr ⟨y, hy, x, .inl hx, hadj, by omega⟩
  · rintro y hy x (hx | hx) hne hadj
    · exact hmin.1.trans (hg.below y hy x hx hne hadj)
    · exact hmin.2.trans (low_le hc hg hspans y hy x hx (hrest y hy) hadj)
  · exact fun y hy hmem hit hparent => hmin.1.trans (hg.own y hy hmem hit hparent)

/-- A segment that reaches no lower than its parent hangs on it. -/
theorem cut_of_low (hc : FrameOk G N adj num low points children none ⟨c, some p, []⟩ Sc
      ((g, Sp) :: rest)) (hg : FrameOk G N adj num low points children (some c) g Sp rest)
    (hspans : Spans G N adj) (hrest : ∀ h ∈ rest, h.1.node ∈ N ∧ h.1.node ∉ Sc)
    (hne : rest ≠ []) (hlow : num g.node ≤ low c) : IsCut G N g.node := by
  obtain ⟨⟨b, Sb⟩, rest', rfl⟩ := List.exists_cons_of_ne_nil hne
  obtain rfl : p = g.node := Option.some.inj hc.grown.parent
  have hb := hrest (b, Sb) List.mem_cons_self
  refine ⟨hg.grown.sub hg.grown.mem, c, hc.grown.sub hc.grown.mem, b.node, hb.1, hc.grown.linked _ rfl,
    (hg.grown.linked b.node hg.grown.parent).symm, ?_⟩
  refine hc.grown.apart hspans hc.grown.mem ?_ hb.2
  intro z hz hzp w hw hadj
  rcases List.mem_cons.mp hz with rfl | hz
  · exact hzp rfl
  · obtain ⟨h, hh, rfl⟩ := mem_path.mp hz
    have hle := low_le hc hg.lowest hspans _ hz w hw (hrest h hh).1 hadj
    have hlt := hg.lowest.before _ hz
    omega

/-- A segment that reaches lower is held without its parent. -/
theorem held_of_low (hc : FrameOk G N adj num low points children none ⟨c, some p, []⟩ Sc
      ((g, Sp) :: rest)) (hrest : ∀ h ∈ rest, h.1.node ∈ N ∧ h.1.node ≠ g.node)
    (hapart : g.node ∉ Sc) (hlow : low c < num g.node) :
    ∀ x ∈ Sc, ∃ y ∈ path rest, Joined G (N \ {g.node}) x y := by
  obtain ⟨y, hy, z, hz, hadj, heq⟩ : ∃ y ∈ path rest, ∃ z ∈ Sc, G.Adj z y ∧ low c = num y := by
    rcases hc.lowest.found with heq | ⟨y, hy, z, hz, hadj, heq⟩
    · have hlt : num g.node < num c := hc.lowest.before g.node List.mem_cons_self
      dsimp only at heq
      omega
    · dsimp only at heq
      rcases List.mem_cons.mp hy with rfl | hy
      · dsimp only at heq
        omega
      · exact ⟨y, hy, z, hz, hadj, heq⟩
  have hsub : Sc ⊆ N \ {g.node} := by
    intro x hx
    refine ⟨hc.grown.sub hx, ?_⟩
    rintro rfl
    exact hapart hx
  obtain ⟨h, hh, rfl⟩ := mem_path.mp hy
  intro x hx
  have hxz : Joined G (N \ {g.node}) x z :=
    ((hc.grown.inside x hx).symm.trans (hc.grown.inside z hz)).mono hsub
  exact ⟨h.1.node, hy, hxz.step ⟨(hrest h hh).1, (hrest h hh).2⟩ hadj⟩

theorem merge_held (hc : FrameOk G N adj num low points children none ⟨c, some p, []⟩ Sc
      ((g, Sp) :: rest)) (hg : Held G N points g Sp rest)
    (hrest : ∀ h ∈ rest, h.1.node ∈ N ∧ h.1.node ≠ g.node) (hapart : g.node ∉ Sc)
    (hpoints : ∀ x ∈ points, x ∈ points')
    (hput : rest ≠ [] → num g.node ≤ low c → g.node ∈ points') :
    Held G N points' g (Sp ∪ Sc) rest := by
  rintro hne hnot x (hx | hx) hxg
  · exact hg hne (fun hmem => hnot (hpoints _ hmem)) x hx hxg
  · refine held_of_low hc hrest hapart ?_ x hx
    exact Nat.lt_of_not_le fun hle => hnot (hput hne hle)

/-- A node that is left without being put down is no cut: all it touches
holds together without it. -/
theorem not_cut_of_held (hc : FrameOk G N adj num low points children none ⟨c, some p, []⟩ Sc
      rest) (hchain : Chain G N adj num low points children (some c) rest)
    (hspans : Spans G N adj) (hpath : c ∉ path rest) (hne : rest ≠ []) (hnot : c ∉ points) :
    ¬ IsCut G N c := by
  have hstack := hchain.joined hpath
  have hheld : ∀ y ∈ N, G.Adj c y → ∃ z ∈ path rest, Joined G (N \ {c}) y z := by
    intro y hy hadj
    rcases hc.grown.touches hspans c hc.grown.mem y hy hadj with hS | hbelow
    · exact hc.held hne hnot y hS hadj.ne'
    · exact ⟨y, hbelow, hstack y hbelow y hbelow⟩
  rintro ⟨-, a, ha, b, hb, hca, hcb, hapart⟩
  obtain ⟨y, hy, hay⟩ := hheld a ha hca
  obtain ⟨z, hz, hbz⟩ := hheld b hb hcb
  exact hapart ((hay.trans (hstack y hy z hz)).trans hbz.symm)

theorem merge_rooted {r : V} (hc : Grown G N adj none ⟨c, some r, []⟩ Sc ((g, Sp) :: rest))
    (hr : Rooted G N children (some c) r Sp) (hapart : r ∉ Sc) :
    Rooted G N children none r (Sp ∪ Sc) := by
  have hsub : Sc ⊆ N \ {r} := by
    intro x hx
    refine ⟨hc.sub hx, ?_⟩
    rintro rfl
    exact hapart hx
  refine ⟨fun h => ?_, fun h _ => ?_, fun _ _ h => (by cases h),
    fun _ _ => ?_, hr.many⟩
  · cases (hr.zero h).1
  · have hsingle := hr.first c h rfl
    have hin : ∀ x ∈ Sp ∪ Sc, x ≠ r → x ∈ Sc := by
      rintro x (hx | hx) hne
      · rw [hsingle] at hx
        exact absurd hx hne
      · exact hx
    intro x hx y hy hxr hyr
    exact ((hc.inside x (hin x hx hxr)).symm.trans (hc.inside y (hin y hy hyr))).mono hsub
  · have hadj : G.Adj r c := hc.linked r rfl
    exact ⟨c, .inr hc.mem, hadj.ne', hadj⟩

/-- A root that is left: it is a cut exactly when it had several
children. -/
theorem root_cut_iff {r : V} (hc : Grown G N adj none ⟨r, none, []⟩ S [])
    (hr : Rooted G N children none r S) (hspans : Spans G N adj) :
    IsCut G N r ↔ 1 < children := by
  refine ⟨fun hcut => ?_, hr.many⟩
  by_contra hfew
  obtain ⟨-, a, ha, b, hb, hra, hrb, hapart⟩ := hcut
  have hin : ∀ y ∈ N, G.Adj r y → y ∈ S := by
    intro y hy hadj
    rcases hc.touches hspans r hc.mem y hy hadj with hS | hpath
    · exact hS
    · cases hpath
  rcases Nat.lt_or_ge children 1 with hzero | hone
  · have hS := (hr.zero (by omega)).2
    have haS := hin a ha hra
    rw [hS] at haS
    exact hra.ne' haS
  · exact hapart (hr.one (by omega) rfl a (hin a ha hra) b (hin b hb hrb) hra.ne' hrb.ne')

end Leave

end Lemmas

end IpaDiagnose.Topology
