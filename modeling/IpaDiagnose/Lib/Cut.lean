import Mathlib.Combinatorics.SimpleGraph.Connectivity.Connected
import Mathlib.SetTheory.Cardinal.NatCard

/-!
# Cut vertices

The vertices of a graph whose removal splits what was connected. A set of
vertices has as many components as the graph has on it; removing a vertex
makes them more exactly when two of its neighbours are no longer joined
(`components_lt_iff_cut`).
-/

namespace Cut

variable {V : Type*} (G : SimpleGraph V)

/-- A path within a set of vertices. -/
def Joined (s : Set V) (a b : V) : Prop :=
  ∃ (ha : a ∈ s) (hb : b ∈ s), (G.induce s).Reachable ⟨a, ha⟩ ⟨b, hb⟩

/-- How many components the graph has on a set of vertices. -/
noncomputable def components (s : Set V) : Nat := Nat.card (G.induce s).ConnectedComponent

/-- Two neighbours of the vertex are not joined without it. -/
def IsCut (s : Set V) (v : V) : Prop :=
  v ∈ s ∧ ∃ a ∈ s, ∃ b ∈ s, G.Adj v a ∧ G.Adj v b ∧ ¬ Joined G (s \ {v}) a b

variable {G} {s t : Set V} {a b c v : V}

/-! ## Paths within a set -/

theorem Joined.left (h : Joined G s a b) : a ∈ s := h.1

theorem Joined.right (h : Joined G s a b) : b ∈ s := h.2.1

theorem Joined.refl (ha : a ∈ s) : Joined G s a a := ⟨ha, ha, .refl _⟩

theorem Joined.symm (h : Joined G s a b) : Joined G s b a := by
  obtain ⟨ha, hb, hab⟩ := h
  exact ⟨hb, ha, hab.symm⟩

theorem Joined.trans (h : Joined G s a b) (h' : Joined G s b c) : Joined G s a c := by
  obtain ⟨ha, hb, hab⟩ := h
  obtain ⟨_, hc, hbc⟩ := h'
  exact ⟨ha, hc, hab.trans hbc⟩

theorem Joined.of_adj (ha : a ∈ s) (hb : b ∈ s) (h : G.Adj a b) : Joined G s a b :=
  ⟨ha, hb, SimpleGraph.Adj.reachable (G := G.induce s) h⟩

theorem Joined.step (h : Joined G s a b) (hc : c ∈ s) (hadj : G.Adj b c) : Joined G s a c :=
  h.trans (.of_adj h.right hc hadj)

/-- What holds of the beginning and goes over to neighbours holds of the
end. -/
theorem Joined.induction {P : V → Prop} (h : Joined G s a b) (hstart : P a)
    (hstep : ∀ x ∈ s, ∀ y ∈ s, G.Adj x y → P x → P y) : P b := by
  obtain ⟨ha, hb, hab⟩ := h
  rw [SimpleGraph.reachable_iff_reflTransGen] at hab
  have hall : ∀ y : s, Relation.ReflTransGen (G.induce s).Adj ⟨a, ha⟩ y → P y := by
    intro y hy
    induction hy with
    | refl => exact hstart
    | tail _ hadj ih => exact hstep _ (Subtype.property _) _ (Subtype.property _) hadj ih
  exact hall ⟨b, hb⟩ hab

theorem Joined.mono (h : Joined G s a b) (hst : s ⊆ t) : Joined G t a b :=
  h.induction (P := fun x => Joined G t a x) (.refl (hst h.left))
    fun _ _ _ hy hadj hx => hx.step (hst hy) hadj

/-! ## Components and cuts -/

theorem mk_eq_iff_joined (ha : a ∈ s) (hb : b ∈ s) :
    (G.induce s).connectedComponentMk ⟨a, ha⟩ = (G.induce s).connectedComponentMk ⟨b, hb⟩
      ↔ Joined G s a b := by
  rw [SimpleGraph.ConnectedComponent.eq]
  exact ⟨fun h => ⟨ha, hb, h⟩, fun h => h.2.2⟩

/-- Without a cut, what was joined stays joined. -/
theorem joined_of_not_cut (hv : v ∈ s) (hcut : ¬ IsCut G s v) (ha : a ≠ v) (hb : b ≠ v)
    (h : Joined G s a b) : Joined G (s \ {v}) a b := by
  have hnear : ∀ x ∈ s, ∀ y ∈ s, G.Adj v x → G.Adj v y → Joined G (s \ {v}) x y := by
    intro x hx y hy hvx hvy
    by_contra hnot
    exact hcut ⟨hv, x, hx, y, hy, hvx, hvy, hnot⟩
  -- a path through the vertex leaves it by a neighbour joined to the one it came by
  have hall := h.induction
    (P := fun x => (x ≠ v → Joined G (s \ {v}) a x)
      ∧ (x = v → ∀ y ∈ s, G.Adj v y → Joined G (s \ {v}) a y))
    ⟨fun hne => .refl ⟨h.left, hne⟩, fun heq => absurd heq ha⟩ ?_
  · exact hall.1 hb
  · rintro x hx y hy hadj ⟨hother, hself⟩
    by_cases hxv : x = v
    · subst hxv
      exact ⟨fun _ => hself rfl y hy hadj, fun heq => absurd heq hadj.ne'⟩
    · have hax := hother hxv
      refine ⟨fun hyv => hax.step ⟨hy, hyv⟩ hadj, ?_⟩
      rintro rfl z hz hvz
      exact hax.trans (hnear x hx z hz hadj.symm hvz)

/-- Removing a vertex makes the components more exactly when it is a
cut. -/
theorem components_lt_iff_cut (hs : s.Finite) (hv : v ∈ s) :
    components G s < components G (s \ {v}) ↔ IsCut G s v := by
  have hsub : s \ {v} ⊆ s := Set.sdiff_subset
  have hfin : Finite s := hs
  have hfin' : Finite ↑(s \ {v}) := hs.subset hsub
  let f : (G.induce (s \ {v})).ConnectedComponent → (G.induce s).ConnectedComponent :=
    SimpleGraph.ConnectedComponent.map (G.induceHomOfLE hsub).toHom
  have hf : ∀ (x : V) (hx : x ∈ s \ {v}),
      f ((G.induce _).connectedComponentMk ⟨x, hx⟩)
        = (G.induce s).connectedComponentMk ⟨x, hsub hx⟩ := fun x hx => rfl
  constructor
  · intro hlt
    by_contra hcut
    refine absurd (Nat.card_le_card_of_injective f ?_) (Nat.not_le.mpr hlt)
    intro C D
    induction C using SimpleGraph.ConnectedComponent.ind with
    | _ x =>
        induction D using SimpleGraph.ConnectedComponent.ind with
        | _ y =>
            obtain ⟨x, hx⟩ := x
            obtain ⟨y, hy⟩ := y
            rw [hf, hf, mk_eq_iff_joined, mk_eq_iff_joined]
            exact joined_of_not_cut hv hcut hx.2 hy.2
  · rintro ⟨-, a, ha, b, hb, hva, hvb, hnot⟩
    have ha' : a ∈ s \ {v} := ⟨ha, hva.ne'⟩
    have hb' : b ∈ s \ {v} := ⟨hb, hvb.ne'⟩
    have hsurj : Function.Surjective f := by
      intro C
      induction C using SimpleGraph.ConnectedComponent.ind with
      | _ x =>
          obtain ⟨x, hx⟩ := x
          by_cases hxv : x = v
          · subst hxv
            refine ⟨(G.induce _).connectedComponentMk ⟨a, ha'⟩, ?_⟩
            rw [hf, mk_eq_iff_joined]
            exact .of_adj ha hv hva.symm
          · exact ⟨(G.induce _).connectedComponentMk ⟨x, hx, hxv⟩, hf x ⟨hx, hxv⟩⟩
    have hnotinj : ¬ Function.Injective f := by
      intro hinj
      refine hnot ((mk_eq_iff_joined ha' hb').mp (hinj ?_))
      rw [hf, hf, mk_eq_iff_joined]
      exact (Joined.of_adj ha hv hva.symm).step hb hvb
    have hfc : Fintype (G.induce s).ConnectedComponent := Fintype.ofFinite _
    have hfc' : Fintype (G.induce (s \ {v})).ConnectedComponent := Fintype.ofFinite _
    have hlt := Fintype.card_lt_of_surjective_not_injective f hsurj hnotinj
    rwa [components, components, Nat.card_eq_fintype_card, Nat.card_eq_fintype_card]

end Cut
