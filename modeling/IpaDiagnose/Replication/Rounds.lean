import Mathlib.Algebra.Order.BigOperators.Group.List
import IpaDiagnose.Replication.LowLink
import Mathlib.Order.CompletePartialOrder

/-!
# One search, round by round

A round looks at one more neighbour of the top node or leaves it; each
kind of round keeps the segments in order (`Inv.step`). When the stack is
empty the search has found one closed set and settled which of its nodes
are cuts, and the rounds it is given are enough for that (`run_stack`).
-/

namespace IpaDiagnose.Topology

open Cut

variable {V : Type}

/-! ## The invariant of one search -/

/-- The nodes of a stack, each with what its segment holds. -/
def spots (segs : List (Segment V)) : List (V × Set V) := segs.map fun g => (g.1.node, g.2)

section Invariant

variable (G : SimpleGraph V) (N : Set V) (adj : V → List V)

/-- What was found lies in one segment each, or was found by an earlier
search; nodes that were left are put down if they are cuts. -/
structure Marks (done : Set V) (root : V) (s : Search V) (spots : List (V × Set V)) : Prop where
  disjoint : spots.Pairwise fun a b => Disjoint a.2 b.2
  fresh : ∀ g ∈ spots, Disjoint g.2 done
  known : ∀ x, (s.disc x).isSome ↔ x ∈ done ∨ ∃ g ∈ spots, x ∈ g.2
  counter : ∀ x d, s.disc x = some d → d < s.counter
  root : (spots.map Prod.fst).getLast? = some root
  sound : ∀ x ∈ s.points, IsCut G N x
  complete : ∀ x, IsCut G N x → (x ∈ done ∨ ∃ g ∈ spots, x ∈ g.2 ∧ x ≠ g.1) → x ∈ s.points

/-- A search under way: `done` is what earlier searches found. -/
structure Inv (done : Set V) (root : V) (s : Search V) (segs : List (Segment V)) : Prop where
  stack : s.stack = segs.map Prod.fst
  chain : Chain G N adj s.num s.low s.points s.children none segs
  marks : Marks G N done root s (spots segs)

/-- A search that is over found one closed set, and what the root is. -/
structure Ended (done : Set V) (root : V) (s : Search V) (S : Set V) : Prop where
  stack : s.stack = []
  mem : root ∈ S
  sub : S ⊆ N
  closed : ∀ x ∈ S, ∀ y ∈ N, G.Adj x y → y ∈ S
  known : ∀ x, (s.disc x).isSome ↔ x ∈ done ∨ x ∈ S
  counter : ∀ x d, s.disc x = some d → d < s.counter
  sound : ∀ x ∈ s.points, IsCut G N x
  complete : ∀ x, IsCut G N x → (x ∈ done ∨ x ∈ S ∧ x ≠ root) → x ∈ s.points
  rooted : IsCut G N root ↔ 1 < s.children

/-- Nothing that was found before is next to what was not. -/
def Closed (done : Set V) : Prop := ∀ x ∈ done, ∀ y ∈ N, G.Adj x y → y ∈ done

end Invariant

section Steps

variable {G : SimpleGraph V} {N : Set V} {adj : V → List V} {done : Set V} {root : V}
  {s : Search V} {f : Frame V} {S : Set V} {rest segs : List (Segment V)}

theorem num_of_disc {x : V} {d : Nat} (h : s.disc x = some d) : s.num x = d := by
  rw [Search.num, h]
  rfl

theorem spots_cons : spots ((f, S) :: rest) = (f.node, S) :: spots rest := rfl

theorem mem_spots {g : Segment V} (h : g ∈ segs) : (g.1.node, g.2) ∈ spots segs :=
  List.mem_map_of_mem h

theorem Marks.congr {s' : Search V} {spots : List (V × Set V)}
    (h : Marks G N done root s spots) (hdisc : s'.disc = s.disc)
    (hcounter : s'.counter = s.counter) (hpoints : s'.points = s.points) :
    Marks G N done root s' spots := by
  obtain ⟨hdisjoint, hfresh, hknown, hcount, hroot, hsound, hcomplete⟩ := h
  refine ⟨hdisjoint, hfresh, ?_, ?_, hroot, ?_, ?_⟩
  · rwa [hdisc]
  · rwa [hdisc, hcounter]
  · rwa [hpoints]
  · rwa [hpoints]

theorem Marks.node_apart (h : Marks G N done root s (spots ((f, S) :: rest)))
    (hmem : ∀ g ∈ (f, S) :: rest, g.1.node ∈ g.2) :
    ∀ g ∈ rest, f.node ∉ g.2 ∧ g.1.node ∉ S ∧ g.1.node ≠ f.node := by
  intro g hg
  have hdisjoint : Disjoint S g.2 := (List.pairwise_cons.mp h.disjoint).1 _ (mem_spots hg)
  have hnode : f.node ∈ S := hmem _ List.mem_cons_self
  have hbelow := hmem g (List.mem_cons_of_mem _ hg)
  refine ⟨fun hf => Set.disjoint_left.mp hdisjoint hnode hf,
    fun hS => Set.disjoint_left.mp hdisjoint hS hbelow, ?_⟩
  intro heq
  exact Set.disjoint_left.mp hdisjoint hnode (heq ▸ hbelow)

theorem Inv.node_apart (h : Inv G N adj done root s ((f, S) :: rest)) :
    ∀ g ∈ rest, f.node ∉ g.2 ∧ g.1.node ∉ S ∧ g.1.node ≠ f.node :=
  h.marks.node_apart fun g hg => (h.chain.mem g hg).1

theorem Inv.node_not_below (h : Inv G N adj done root s ((f, S) :: rest)) :
    f.node ∉ path rest := by
  intro hpath
  obtain ⟨g, hg, heq⟩ := mem_path.mp hpath
  exact (h.node_apart g hg).2.2 heq

theorem Chain.frame {num low : V → Nat} {points : List V} {children : Nat} :
    ∀ {above : Option V} {segs : List (Segment V)},
      Chain G N adj num low points children above segs → ∀ g ∈ segs, ∃ above' rest,
        FrameOk G N adj num low points children above' g.1 g.2 rest ∧ ∀ h ∈ rest, h ∈ segs
  | _, [], _ => fun _ hg => absurd hg List.not_mem_nil
  | above, (f, S) :: rest, h => by
      intro g hg
      rcases List.mem_cons.mp hg with rfl | hg
      · exact ⟨above, rest, h.1, fun _ hh => List.mem_cons_of_mem _ hh⟩
      · obtain ⟨above', rest', hok, hsub⟩ := Chain.frame h.2 g hg
        exact ⟨above', rest', hok, fun h' hh => List.mem_cons_of_mem _ (hsub h' hh)⟩

/-- A neighbour of the top node that was found before is in its segment or
on the stack. -/
theorem Inv.found_where (h : Inv G N adj done root s ((f, S) :: rest))
    (hdone : Closed G N done) {nxt : V} (hadj : G.Adj f.node nxt)
    (hknown : (s.disc nxt).isSome) : nxt ∈ S ∨ nxt ∈ path rest := by
  have hnode := h.chain.mem (f, S) List.mem_cons_self
  have hN : f.node ∈ N := hnode.2 hnode.1
  have hfresh : Disjoint S done := h.marks.fresh (f.node, S) List.mem_cons_self
  rcases (h.marks.known nxt).mp hknown with hin | ⟨spot, hspot, hin⟩
  · have hback := hdone nxt hin f.node hN hadj.symm
    exact absurd hback (Set.disjoint_left.mp hfresh hnode.1)
  · obtain ⟨g, hg, rfl⟩ := List.mem_map.mp hspot
    rcases List.mem_cons.mp hg with rfl | hg
    · exact .inl hin
    · by_cases heq : nxt = g.1.node
      · exact .inr (mem_path.mpr ⟨g, hg, heq.symm⟩)
      · obtain ⟨_, rest', hok, hsub⟩ := h.chain.2.frame g hg
        rcases hok.grown.closed nxt hin heq f.node hN hadj.symm with hback | hback
        · exact absurd hback (h.node_apart g hg).1
        · obtain ⟨g', hg', hnode'⟩ := mem_path.mp hback
          exact absurd hnode' (h.node_apart g' (hsub g' hg')).2.2

/-- The root is at the bottom of the stack. -/
theorem Inv.root_iff (h : Inv G N adj done root s ((f, S) :: rest)) :
    f.node = root ↔ rest = [] := by
  have hlast : (f.node :: path rest).getLast? = some root := by
    have hroot := h.marks.root
    rw [spots_cons, List.map_cons, spots, List.map_map] at hroot
    exact hroot
  constructor
  · rintro rfl
    cases rest with
    | nil => rfl
    | cons g rest =>
        rw [path_cons, List.getLast?_cons_cons] at hlast
        exact absurd (List.mem_of_getLast? hlast) h.node_not_below
  · rintro rfl
    exact Option.some.inj hlast

/-! ## A round that looks at a neighbour -/

section Look

variable {node nxt : V} {parent : Option V} {it : List V}

/-- The top frame has one neighbour less to look at; nothing else of its
segment changes. -/
theorem FrameOk.look {num low : V → Nat} (low' : V → Nat) {points : List V} {children : Nat}
    (h : FrameOk G N adj num low points children none ⟨node, parent, nxt :: it⟩ S rest)
    (hnxt : nxt ∈ S ∨ nxt ∈ path rest) (hle : low' node ≤ low node)
    (hfound : low' node = num node
      ∨ ∃ y ∈ path rest, ∃ x ∈ S, G.Adj x y ∧ low' node = num y)
    (hown : nxt ∈ path rest → parent ≠ some nxt → low' node ≤ num nxt) :
    FrameOk G N adj num low' points children none ⟨node, parent, it⟩ S rest :=
  ⟨h.grown.consume (hnxt.imp_right .inl), h.lowest.consume hle hfound hown, h.held, h.rooted⟩

theorem Inv.parent_step
    (h : Inv G N adj done root s ((⟨node, some nxt, nxt :: it⟩, S) :: rest)) :
    Inv G N adj done root { s with stack := ⟨node, some nxt, it⟩ :: rest.map Prod.fst }
      ((⟨node, some nxt, it⟩, S) :: rest) := by
  have hpath : nxt ∈ path rest := List.mem_of_head? h.chain.1.grown.parent.symm
  have htop := h.chain.1.look s.low (.inr hpath) (Nat.le_refl _) h.chain.1.lowest.found
    fun _ hne => absurd rfl hne
  exact ⟨rfl, ⟨htop, h.chain.2⟩, h.marks.congr rfl rfl rfl⟩

/-- The node that is visited is a neighbour among the nodes. -/
theorem Inv.visited (h : Inv G N adj done root s ((⟨node, parent, nxt :: it⟩, S) :: rest))
    (hspans : Spans G N adj) : nxt ∈ N ∧ G.Adj node nxt := by
  have hnode := h.chain.mem _ List.mem_cons_self
  exact (hspans node (hnode.2 hnode.1) nxt).mp (h.chain.1.grown.it nxt List.mem_cons_self)

/-- A new child of a root: with one before it, the root is a cut. -/
theorem Rooted.visit {children : Nat} {r : V} (h : Rooted G N children none r S)
    (hmem : r ∈ S) (hnxt : nxt ∈ N) (hnew : nxt ∉ S) (hadj : G.Adj r nxt)
    (hsub : S ⊆ N) (hclosed : ∀ x ∈ S, x ≠ r → ∀ y ∈ N, G.Adj x y → y ∈ S) :
    Rooted G N (children + 1) (some nxt) r S := by
  refine ⟨fun h => absurd h (Nat.succ_ne_zero _), fun _ h => (by cases h), fun c h' _ => ?_,
    fun _ h => (by cases h), fun hmany => ?_⟩
  · exact (h.zero (by omega)).2
  · obtain ⟨c, hc, hcr, hrc⟩ := h.child (by omega) rfl
    refine ⟨hsub hmem, c, hsub hc, nxt, hnxt, hrc, hadj, fun hjoined => hnew ?_⟩
    have hin := hjoined.induction (P := fun x => x ∈ S ∧ x ≠ r) ⟨hc, hcr⟩
      fun x _ y hy hxy hx => ⟨hclosed x hx.1 hx.2 y hy.1 hxy, hy.2⟩
    exact hin.1

/-- A segment of one node. -/
theorem FrameOk.single {num low : V → Nat} {points : List V} {children : Nat}
    (hnode : nxt ∈ N) (hparent : parent = (path rest).head?)
    (hlinked : ∀ p, parent = some p → G.Adj p nxt) (hlow : low nxt = num nxt)
    (hbefore : ∀ y ∈ path rest, num y < num nxt)
    (hrooted : rest = [] → Rooted G N children none nxt {nxt}) :
    FrameOk G N adj num low points children none ⟨nxt, parent, adj nxt⟩ {nxt} rest := by
  refine ⟨⟨hparent, hlinked, rfl, ?_, ?_, ?_, fun _ h => h, fun _ h h' => absurd h h'⟩,
    ⟨hbefore, ?_, Nat.le_of_eq hlow, .inl hlow, ?_, fun _ _ h h' => absurd h h'⟩, ?_, hrooted⟩
  · rintro x rfl
    exact hnode
  · rintro x rfl
    exact .refl rfl
  · exact fun x hx hne => absurd hx hne
  · rintro x rfl
    exact Nat.le_refl _
  · exact fun _ _ x hx hne => absurd hx hne
  · exact fun _ _ x hx hne => absurd hx hne

variable [DecidableEq V]

theorem Inv.known_step {d : Nat}
    (h : Inv G N adj done root s ((⟨node, parent, nxt :: it⟩, S) :: rest))
    (hspans : Spans G N adj) (hdone : Closed G N done) (hdisc : s.disc nxt = some d) :
    Inv G N adj done root
      { s with stack := ⟨node, parent, it⟩ :: rest.map Prod.fst, low := s.lower node d }
      ((⟨node, parent, it⟩, S) :: rest) := by
  have hadj := (h.visited hspans).2
  have hmem : node ∈ S := h.chain.1.grown.mem
  have hwhere : nxt ∈ S ∨ nxt ∈ path rest :=
    h.found_where hdone hadj (by rw [hdisc]; rfl)
  have hnum : s.num nxt = d := num_of_disc hdisc
  have hlow : s.lower node d node = min (s.low node) (s.num nxt) := by
    rw [hnum, Search.lower, Function.update_self]
  have hfound : s.lower node d node = s.num node
      ∨ ∃ y ∈ path rest, ∃ x ∈ S, G.Adj x y ∧ s.lower node d node = s.num y := by
    rcases Nat.lt_or_ge (s.num nxt) (s.low node) with hlt | hge
    · rcases hwhere with hS | hpath
      · have hafter : s.num node ≤ s.num nxt := h.chain.1.lowest.after nxt hS
        have hle : s.low node ≤ s.num node := h.chain.1.lowest.le
        omega
      · exact .inr ⟨nxt, hpath, node, hmem, hadj, by omega⟩
    · have hsame : s.lower node d node = s.low node := by omega
      rw [hsame]
      exact h.chain.1.lowest.found
  have hbelow : ∀ y ∈ path rest, s.lower node d y = s.low y := by
    intro y hy
    refine Function.update_of_ne ?_ _ _
    rintro rfl
    exact h.node_not_below hy
  have htop := h.chain.1.look (s.lower node d) hwhere (by omega) hfound
    fun _ _ => by omega
  exact ⟨rfl, ⟨htop, h.chain.2.congr (fun _ _ _ _ => rfl) hbelow fun _ hx => hx⟩,
    h.marks.congr rfl rfl rfl⟩

theorem Marks.visit {spots : List (V × Set V)} {s' : Search V}
    (h : Marks G N done root s spots) (hfresh : nxt ∉ done) (hunknown : ∀ g ∈ spots, nxt ∉ g.2)
    (hdisc : s'.disc = Function.update s.disc nxt (some s.counter))
    (hcounter : s'.counter = s.counter + 1) (hpoints : s'.points = s.points) :
    Marks G N done root s' ((nxt, {nxt}) :: spots) := by
  refine ⟨List.pairwise_cons.mpr ⟨?_, h.disjoint⟩, ?_, ?_, ?_, ?_, ?_, ?_⟩
  · exact fun g hg => Set.disjoint_singleton_left.mpr (hunknown g hg)
  · intro g hg
    rcases List.mem_cons.mp hg with rfl | hg
    · exact Set.disjoint_singleton_left.mpr hfresh
    · exact h.fresh g hg
  · intro x
    rw [hdisc, List.exists_mem_cons_iff]
    by_cases hx : x = nxt
    · subst hx
      simp
    · rw [Function.update_of_ne hx, h.known x]
      simp [hx]
  · intro x d hd
    rw [hdisc] at hd
    rw [hcounter]
    by_cases hx : x = nxt
    · rw [hx, Function.update_self] at hd
      have heq := Option.some.inj hd
      omega
    · rw [Function.update_of_ne hx] at hd
      have hlt := h.counter x d hd
      omega
  · have hroot := h.root
    cases spots with
    | nil => cases hroot
    | cons g spots => rwa [List.map_cons, List.map_cons, List.getLast?_cons_cons]
  · rw [hpoints]
    exact h.sound
  · rw [hpoints]
    intro x hcut hx
    refine h.complete x hcut (hx.imp_right ?_)
    rintro ⟨g, hg, hin, hne⟩
    rcases List.mem_cons.mp hg with rfl | hg
    · exact absurd hin hne
    · exact ⟨g, hg, hin, hne⟩

theorem Inv.new_step (h : Inv G N adj done root s ((⟨node, parent, nxt :: it⟩, S) :: rest))
    (hspans : Spans G N adj) (hdisc : s.disc nxt = none) :
    Inv G N adj done root
      { s with
        disc := Function.update s.disc nxt (some s.counter)
        low := Function.update s.low nxt s.counter
        counter := s.counter + 1
        children := if node = root then s.children + 1 else s.children
        stack := ⟨nxt, some node, adj nxt⟩ :: ⟨node, parent, it⟩ :: rest.map Prod.fst }
      ((⟨nxt, some node, adj nxt⟩, {nxt}) :: (⟨node, parent, it⟩, S) :: rest) := by
  obtain ⟨hnxt, hadj⟩ := h.visited hspans
  have hmem : node ∈ S := h.chain.1.grown.mem
  obtain ⟨hfresh, hunknown⟩ : nxt ∉ done
      ∧ ∀ g ∈ (⟨node, parent, nxt :: it⟩, S) :: rest, nxt ∉ g.2 := by
    have hnot : ¬ (s.disc nxt).isSome := by simp [hdisc]
    rw [h.marks.known, not_or] at hnot
    exact ⟨hnot.1, fun g hg hin => hnot.2 ⟨_, mem_spots hg, hin⟩⟩
  have hnewS : nxt ∉ S := hunknown _ List.mem_cons_self
  have hnewPath : nxt ∉ node :: path rest := by
    intro hpath
    have hmem : nxt ∈ path ((⟨node, parent, nxt :: it⟩, S) :: rest) := hpath
    obtain ⟨g, hg, rfl⟩ := mem_path.mp hmem
    exact hunknown g hg (h.chain.mem g hg).1
  let num' : V → Nat := fun x => (Function.update s.disc nxt (some s.counter) x).getD 0
  let low' : V → Nat := Function.update s.low nxt s.counter
  have hnew : num' nxt = s.counter ∧ low' nxt = s.counter := by
    simp [num', low']
  have hnum : ∀ x, x ≠ nxt → num' x = s.num x := by
    intro x hx
    simp [num', Search.num, hx]
  have hlow : ∀ x, x ≠ nxt → low' x = s.low x := fun x hx => Function.update_of_ne hx _ _
  have hnums : ∀ g ∈ (⟨node, parent, nxt :: it⟩, S) :: rest, ∀ x ∈ g.2, num' x = s.num x := by
    rintro g hg x hx
    refine hnum x ?_
    rintro rfl
    exact hunknown g hg hx
  have hlows : ∀ y ∈ node :: path rest, low' y = s.low y := by
    intro y hy
    refine hlow y ?_
    rintro rfl
    exact hnewPath hy
  have hchain := h.chain.congr hnums hlows fun _ hx => hx
  have hcount : ∀ y ∈ node :: path rest, num' y < num' nxt := by
    intro y hy
    have hmem : y ∈ path ((⟨node, parent, nxt :: it⟩, S) :: rest) := hy
    obtain ⟨g, hg, rfl⟩ := mem_path.mp hmem
    have hin := (h.chain.mem g hg).1
    obtain ⟨d, hd⟩ := Option.isSome_iff_exists.mp
      ((h.marks.known g.1.node).mpr (.inr ⟨_, mem_spots hg, hin⟩))
    rw [hnums g hg _ hin, hnew.1, num_of_disc hd]
    exact h.marks.counter _ d hd
  have hsingle : ∀ children, FrameOk G N adj num' low' s.points children none
      ⟨nxt, some node, adj nxt⟩ {nxt} ((⟨node, parent, it⟩, S) :: rest) := fun children =>
    .single hnxt rfl (fun p hp => by rwa [← Option.some.inj hp]) (hnew.2.trans hnew.1.symm) hcount
      nofun
  have hgrown : Grown G N adj (some nxt) ⟨node, parent, it⟩ S rest :=
    hchain.1.grown.consume (.inr (.inr rfl))
  have hlowest := hchain.1.lowest.consume (Nat.le_refl _) hchain.1.lowest.found
    fun hpath _ => absurd (List.mem_cons_of_mem _ hpath) hnewPath
  refine ⟨rfl, ⟨hsingle _, ?_⟩, ?_⟩
  · by_cases hroot : node = root
    · obtain rfl := h.root_iff.mp hroot
      rw [if_pos hroot]
      refine ⟨⟨hgrown, hlowest, hchain.1.held, fun _ => ?_⟩, trivial⟩
      refine (h.chain.1.rooted rfl).visit hmem hnxt hnewS hadj h.chain.1.grown.sub ?_
      intro x hx hne y hy hxy
      exact (h.chain.1.grown.closed x hx hne y hy hxy).resolve_right List.not_mem_nil
    · rw [if_neg hroot]
      refine ⟨⟨hgrown, hlowest, hchain.1.held, fun hrest => ?_⟩, hchain.2⟩
      exact absurd (h.root_iff.mpr hrest) hroot
  · refine h.marks.visit hfresh ?_ rfl rfl rfl
    intro spot hspot
    obtain ⟨g, hg, rfl⟩ := List.mem_map.mp hspot
    exact hunknown g hg

end Look

/-! ## A round that leaves a node -/

section Leave

variable {c p : V} {g : Frame V} {Sc Sp : Set V}

theorem Marks.merge {s' : Search V} {spots : List (V × Set V)}
    (h : Marks G N done root s ((c, Sc) :: (p, Sp) :: spots)) (hdisc : s'.disc = s.disc)
    (hcounter : s'.counter = s.counter) (hpoints : ∀ x ∈ s.points, x ∈ s'.points)
    (hsound : ∀ x ∈ s'.points, IsCut G N x) (hleft : IsCut G N c → c ∈ s.points) :
    Marks G N done root s' ((p, Sp ∪ Sc) :: spots) := by
  obtain ⟨hdisjoint, hfresh, hknown, hcount, hroot, -, hcomplete⟩ := h
  obtain ⟨hc, hp, hrest⟩ :
      (∀ g ∈ (p, Sp) :: spots, Disjoint Sc g.2) ∧ (∀ g ∈ spots, Disjoint Sp g.2)
        ∧ spots.Pairwise fun a b => Disjoint a.2 b.2 := by
    rw [List.pairwise_cons, List.pairwise_cons] at hdisjoint
    exact ⟨hdisjoint.1, hdisjoint.2.1, hdisjoint.2.2⟩
  refine ⟨List.pairwise_cons.mpr ⟨?_, hrest⟩, ?_, ?_, ?_, ?_, hsound, ?_⟩
  · intro g hg
    exact Set.disjoint_union_left.mpr ⟨hp g hg, hc g (List.mem_cons_of_mem _ hg)⟩
  · intro g hg
    rcases List.mem_cons.mp hg with rfl | hg
    · exact Set.disjoint_union_left.mpr ⟨hfresh (p, Sp) (by simp), hfresh (c, Sc) (by simp)⟩
    · exact hfresh g (by simp [hg])
  · intro x
    rw [hdisc, hknown x]
    simp only [List.exists_mem_cons_iff, Set.mem_union]
    tauto
  · rwa [hdisc, hcounter]
  · rwa [List.map_cons, List.map_cons, List.getLast?_cons_cons] at hroot
  · intro x hcut hx
    by_cases hxc : x = c
    · subst hxc
      exact hpoints x (hleft hcut)
    · refine hpoints x (hcomplete x hcut ?_)
      simp only [List.exists_mem_cons_iff, Set.mem_union] at hx ⊢
      tauto

variable [DecidableEq V]

/-- The points once a child of a node is left. -/
def pointsAfter (s : Search V) (c p : V) (inner : Bool) : List V :=
  if inner ∧ s.num p ≤ s.low c then s.points.insert p else s.points

theorem leave_eq (hne : c ≠ g.node) (below : List (Frame V)) :
    s.leave c (some g.node) (g :: below)
      = { s with
          stack := g :: below
          low := s.lower g.node (s.low c)
          points := pointsAfter s c g.node g.parent.isSome } := by
  have hlow : s.lower g.node (s.low c) c = s.low c := Function.update_of_ne hne _ _
  unfold Search.leave
  dsimp only
  rw [hlow]
  rfl

theorem Inv.leave_step (h : Inv G N adj done root s ((⟨c, some p, []⟩, Sc) :: (g, Sp) :: rest))
    (hspans : Spans G N adj) :
    Inv G N adj done root (s.leave c (some p) (g :: rest.map Prod.fst))
      ((g, Sp ∪ Sc) :: rest) := by
  obtain ⟨hc, hg, hrest⟩ := h.chain
  obtain rfl : p = g.node := Option.some.inj hc.grown.parent
  have hapart := h.node_apart
  have hgc := hapart (g, Sp) List.mem_cons_self
  have hbelow : ∀ b ∈ rest, b.1.node ∈ N ∧ b.1.node ∉ Sc ∧ b.1.node ≠ g.node := by
    intro b hb
    have hb' := hapart b (List.mem_cons_of_mem _ hb)
    have hmem := hrest.mem b hb
    have hlt := hg.lowest.before _ (mem_path.mpr ⟨b, hb, rfl⟩)
    exact ⟨hmem.2 hmem.1, hb'.2.1, fun heq => by rw [heq] at hlt; omega⟩
  have hinner : g.parent.isSome = true ↔ rest ≠ [] := by
    have hparent := hg.grown.parent
    cases rest with
    | nil => simp [hparent, path]
    | cons b rest => simp [hparent, path]
  have hcut : rest ≠ [] → s.num g.node ≤ s.low c → IsCut G N g.node := fun hne hlow =>
    cut_of_low hc hg hspans (fun b hb => ⟨(hbelow b hb).1, (hbelow b hb).2.1⟩) hne hlow
  have hpoints : ∀ x ∈ s.points, x ∈ pointsAfter s c g.node g.parent.isSome := by
    intro x hx
    unfold pointsAfter
    split
    · exact List.mem_insert_of_mem hx
    · exact hx
  have hput : rest ≠ [] → s.num g.node ≤ s.low c →
      g.node ∈ pointsAfter s c g.node g.parent.isSome := by
    intro hne hlow
    rw [pointsAfter, if_pos ⟨hinner.mpr hne, hlow⟩]
    exact List.mem_insert_self
  have hsound : ∀ x ∈ pointsAfter s c g.node g.parent.isSome, IsCut G N x := by
    intro x hx
    unfold pointsAfter at hx
    split at hx
    · rename_i hboth
      rcases List.mem_insert_iff.mp hx with rfl | hx
      · exact hcut (hinner.mp hboth.1) hboth.2
      · exact h.marks.sound x hx
    · exact h.marks.sound x hx
  have hlow : s.lower g.node (s.low c) g.node = min (s.low g.node) (s.low c) :=
    Function.update_self _ _ _
  have hlows : ∀ y ∈ path rest, s.lower g.node (s.low c) y = s.low y := by
    intro y hy
    obtain ⟨b, hb, rfl⟩ := mem_path.mp hy
    exact Function.update_of_ne (hbelow b hb).2.2 _ _
  have hpathN : ∀ y ∈ path rest, y ∈ N := by
    intro y hy
    obtain ⟨b, hb, rfl⟩ := mem_path.mp hy
    exact (hbelow b hb).1
  rw [leave_eq hgc.2.2.symm]
  refine ⟨rfl, ⟨⟨?_, ?_, ?_, ?_⟩, hrest.congr (fun _ _ _ _ => rfl) hlows hpoints⟩, ?_⟩
  · exact merge_grown hc.grown hg.grown hspans
  · exact merge_lowest hc hg.lowest hspans hpathN hlow
  · exact merge_held hc hg.held (fun b hb => ⟨(hbelow b hb).1, (hbelow b hb).2.2⟩) hgc.2.1
      hpoints hput
  · exact fun hroot => merge_rooted hc.grown (hg.rooted hroot) hgc.2.1
  · refine h.marks.merge rfl rfl hpoints hsound fun hcutc => ?_
    by_contra hnot
    exact not_cut_of_held hc ⟨hg, hrest⟩ hspans h.node_not_below (by simp) hnot hcutc

theorem Inv.last_step (h : Inv G N adj done root s ((⟨c, none, []⟩, Sc) :: rest))
    (hspans : Spans G N adj) :
    Ended G N done root (s.leave c none (rest.map Prod.fst)) Sc := by
  have hrest : rest = [] := by
    have hparent : none = (path rest).head? := h.chain.1.grown.parent
    cases rest with
    | nil => rfl
    | cons b rest => cases hparent
  subst hrest
  obtain rfl : c = root := h.root_iff.mpr rfl
  have hgrown := h.chain.1.grown
  refine ⟨rfl, hgrown.mem, hgrown.sub, ?_, ?_, h.marks.counter, h.marks.sound, ?_,
    root_cut_iff hgrown (h.chain.1.rooted rfl) hspans⟩
  · intro x hx y hy hadj
    exact (hgrown.touches hspans x hx y hy hadj).resolve_right List.not_mem_nil
  · intro x
    show (s.disc x).isSome = true ↔ x ∈ done ∨ x ∈ Sc
    rw [h.marks.known x]
    simp [spots]
  · intro x hcut hx
    refine h.marks.complete x hcut (hx.imp_right fun hin => ?_)
    exact ⟨_, List.mem_cons_self, hin⟩

end Leave

/-! ## A whole search -/

section Run

variable [DecidableEq V]

/-- A search is under way, or over. -/
def Searching (G : SimpleGraph V) (N : Set V) (adj : V → List V) (done : Set V) (root : V)
    (s : Search V) : Prop :=
  (∃ segs, Inv G N adj done root s segs) ∨ ∃ S, Ended G N done root s S

theorem Inv.step (h : Inv G N adj done root s segs) (hspans : Spans G N adj)
    (hdone : Closed G N done) : Searching G N adj done root (s.step adj root) := by
  cases segs with
  | nil => cases h.marks.root
  | cons g rest =>
      obtain ⟨⟨node, parent, it⟩, S⟩ := g
      have hstack : s.stack = ⟨node, parent, it⟩ :: rest.map Prod.fst := h.stack
      unfold Search.step
      rw [hstack]
      cases it with
      | nil =>
          cases parent with
          | none => exact .inr ⟨S, h.last_step hspans⟩
          | some p =>
              cases rest with
              | nil => cases h.chain.1.grown.parent
              | cons b rest => exact .inl ⟨_, h.leave_step hspans⟩
      | cons nxt it =>
          dsimp only
          split
          · rename_i hparent
            subst hparent
            exact .inl ⟨_, h.parent_step⟩
          · unfold Search.visit
            dsimp only
            split
            · rename_i d hdisc
              exact .inl ⟨_, h.known_step hspans hdone hdisc⟩
            · rename_i hdisc
              exact .inl ⟨_, h.new_step hspans hdisc⟩

theorem Searching.run (hspans : Spans G N adj) (hdone : Closed G N done) :
    ∀ (n : Nat) {s : Search V}, Searching G N adj done root s →
      Searching G N adj done root (Search.run adj root n s)
  | 0, _, h => h
  | n + 1, s, h => by
      rw [Search.run]
      split
      · exact h
      · rename_i hstack
        refine Searching.run hspans hdone n ?_
        rcases h with ⟨segs, h⟩ | ⟨S, h⟩
        · exact h.step hspans hdone
        · rw [h.stack] at hstack
          exact absurd rfl hstack

/-! ## The rounds suffice -/

/-- What the loop has still to do: the neighbours on the stack, and those
of the nodes not found yet. -/
def work (adj : V → List V) (nodes : List V) (s : Search V) : Nat :=
  (s.stack.map fun f => f.it.length + 1).sum
    + ((nodes.filter fun n => (s.disc n).isNone).map fun n => (adj n).length + 1).sum

/-- All that is looked at is among the nodes. -/
def Fed (nodes : List V) (s : Search V) : Prop := ∀ f ∈ s.stack, ∀ y ∈ f.it, y ∈ nodes

/-- A node that is found is work less. -/
theorem unfound_update {w : V → Nat} {disc : V → Option Nat} {x : V} {d : Nat}
    (hnew : disc x = none) : ∀ {nodes : List V}, x ∈ nodes →
      ((nodes.filter fun n => (Function.update disc x (some d) n).isNone).map w).sum + w x
        ≤ ((nodes.filter fun n => (disc n).isNone).map w).sum := by
  have hle : ∀ nodes : List V,
      ((nodes.filter fun n => (Function.update disc x (some d) n).isNone).map w).sum
        ≤ ((nodes.filter fun n => (disc n).isNone).map w).sum := by
    intro nodes
    refine (List.Sublist.map w ?_).sum_le_sum fun _ _ => Nat.zero_le _
    refine List.monotone_filter_right nodes fun n hn => ?_
    by_cases hx : n = x
    · rw [hx, hnew]
      rfl
    · rwa [Function.update_of_ne hx] at hn
  intro nodes hmem
  induction nodes with
  | nil => cases hmem
  | cons n nodes ih =>
      by_cases hx : n = x
      · subst hx
        have hrest := hle nodes
        rw [List.filter_cons_of_neg (by simp), List.filter_cons_of_pos (by simp [hnew]),
          List.map_cons, List.sum_cons]
        omega
      · have hrest := ih ((List.mem_cons.mp hmem).resolve_left (Ne.symm hx))
        rw [List.filter_cons, List.filter_cons, Function.update_of_ne hx]
        split
        · rw [List.map_cons, List.sum_cons, List.map_cons, List.sum_cons]
          omega
        · exact hrest

theorem Fed.step {nodes : List V} (hadj : ∀ n, ∀ y ∈ adj n, y ∈ nodes) (h : Fed nodes s) :
    Fed nodes (s.step adj root) := by
  unfold Search.step
  split
  · exact h
  · rename_i node parent rest hstack
    have hrest : Fed nodes (s.leave node parent rest) := by
      intro f hf
      refine h f ?_
      rw [hstack]
      unfold Search.leave at hf
      split at hf <;> exact List.mem_cons_of_mem _ hf
    exact hrest
  · rename_i node parent nxt it rest hstack
    have hold : ∀ f ∈ (⟨node, parent, it⟩ : Frame V) :: rest, ∀ y ∈ f.it, y ∈ nodes := by
      intro f hf y hy
      rcases List.mem_cons.mp hf with rfl | hf
      · refine h ⟨node, parent, nxt :: it⟩ ?_ y (List.mem_cons_of_mem _ hy)
        rw [hstack]
        exact List.mem_cons_self
      · refine h f ?_ y hy
        rw [hstack]
        exact List.mem_cons_of_mem _ hf
    dsimp only
    split
    · exact hold
    · unfold Search.visit
      dsimp only
      split
      · exact hold
      · intro f hf
        rcases List.mem_cons.mp hf with rfl | hf
        · exact hadj nxt
        · exact hold f hf

theorem step_work (adj : V → List V) (root : V) {nodes : List V} (h : Fed nodes s) (hne : s.stack ≠ []) :
    work adj nodes (s.step adj root) < work adj nodes s := by
  unfold Search.step
  split
  · rename_i hstack
    exact absurd hstack hne
  · rename_i node parent rest hstack
    have hleave : (s.leave node parent rest).stack = rest
        ∧ (s.leave node parent rest).disc = s.disc := by
      unfold Search.leave
      split <;> exact ⟨rfl, rfl⟩
    rw [work, work, hleave.1, hleave.2, hstack, List.map_cons, List.sum_cons]
    omega
  · rename_i node parent nxt it rest hstack
    have hnxt : nxt ∈ nodes := by
      refine h ⟨node, parent, nxt :: it⟩ ?_ nxt List.mem_cons_self
      rw [hstack]
      exact List.mem_cons_self
    dsimp only
    split
    · rw [work, work, hstack]
      simp only [List.map_cons, List.sum_cons, List.length_cons]
      omega
    · unfold Search.visit
      dsimp only
      split
      · rw [work, work, hstack]
        simp only [List.map_cons, List.sum_cons, List.length_cons]
        omega
      · rename_i hdisc
        have hless := unfound_update (w := fun n => (adj n).length + 1) (d := s.counter) hdisc hnxt
        rw [work, work, hstack]
        simp only [List.map_cons, List.sum_cons, List.length_cons]
        omega

theorem run_stack {nodes : List V} (hadj : ∀ n, ∀ y ∈ adj n, y ∈ nodes) :
    ∀ (n : Nat) {s : Search V}, Fed nodes s → work adj nodes s ≤ n →
      (Search.run adj root n s).stack = []
  | 0, s, _, hle => by
      rw [Search.run]
      cases hstack : s.stack with
      | nil => rfl
      | cons f rest =>
          rw [work, hstack, List.map_cons, List.sum_cons] at hle
          omega
  | n + 1, s, h, hle => by
      rw [Search.run]
      split
      · rename_i hstack
        exact List.isEmpty_iff.mp hstack
      · rename_i hstack
        have hne : s.stack ≠ [] := fun heq => hstack (by rw [heq]; rfl)
        have hless := step_work adj root h hne
        exact run_stack hadj n (h.step hadj) (by omega)

end Run

end Steps

end IpaDiagnose.Topology
