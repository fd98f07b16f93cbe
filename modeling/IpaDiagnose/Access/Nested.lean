import Mathlib.Data.List.Chain
import IpaDiagnose.Access.Chains

/-!
# Nested chains are found

Unless a read failed, the budget was used up or the index was cut, the
search knows in the end a chain to every listed group the object is nested
in: it has come upon one, or has read everything below the group.
-/

namespace IpaDiagnose.Access

open Relation (ReflTransGen)

namespace Chase

variable {m : Membership} {s : Script} {k : SideKind}

/-! ## What a search leaves -/

/-- A search adds memberships of groups only. -/
theorem step_grows {c c' : Chase m} (h : Step s k c c') :
    c.run.index.Grows c'.run.index fun a _ => a.1 = k.kind := by
  cases h with
  | look w =>
      rw [known_state]
      exact c.run.index.node_grows _ _ _
  | read g _ _ =>
      rcases read_cases s k c g with ⟨-, -, -, hindex⟩ | ⟨-, i, children, -, -, -, -, hindex⟩
      · rw [hindex]
        exact .refl _ _
      · rw [hindex]
        refine (c.run.index.node_grows _ _ _).trans ((addMembers_grows _ _ _ _ _).mono ?_)
        rintro a b ⟨child, -, rfl, -⟩
        rfl

theorem Steps.grows {c c' : Chase m} (h : Steps s k c c') :
    c.run.index.Grows c'.run.index fun a _ => a.1 = k.kind := by
  induction h with
  | refl => exact .refl _ _
  | tail _ hstep ih => exact ih.trans (step_grows hstep)

/-- The children of a group that was read stay. -/
theorem Steps.lookup {c c' : Chase m} (h : Steps s k c c') {x : String} {cs : List (OwnGroup m)}
    (hx : c.children.lookup x = some cs) : c'.children.lookup x = some cs := by
  induction h with
  | refl => exact hx
  | @tail c₁ c₂ _ hstep ih =>
      cases hstep with
      | look w =>
          rw [known_state]
          exact ih
      | read g hnew _ =>
          have hne : (x == g.key) = false := by
            rw [beq_eq_false_iff_ne]
            rintro rfl
            rw [hnew] at ih
            cases ih
          rcases read_cases s k c₁ g with ⟨-, -, hchildren, -⟩ | ⟨-, i, children, -, -, -, hchildren, -⟩
          · rw [hchildren, List.lookup_cons, hne]
            exact ih
          · rw [hchildren, List.lookup_cons, hne]
            exact ih

/-- The index holds a chain to the group. -/
def Chained (k : SideKind) (c : Chase m) (w : String) : Prop :=
  ∃ p, c.run.index.Walk m.node.key p (k.kind, PyStr.lower w)

theorem Chained.steps {c c' : Chase m} {w : String} (h : Chained k c w) (hsteps : Steps s k c c') :
    Chained k c' w := by
  obtain ⟨p, hp⟩ := h
  refine ⟨p, hp.mono fun v e he => ?_⟩
  rw [RelationshipIndex.mem_parents] at he ⊢
  exact ⟨hsteps.grows.kept e he.1, he.2⟩

/-- A group whose chain is known. -/
theorem chained_of_known {c c' : Chase m} {w : String} (h : c.known k w = (true, c')) :
    Chained k c' w := by
  unfold known at h
  dsimp only at h
  split at h
  · cases h
  · rename_i target htarget
    have hsome := congrArg Prod.fst h
    obtain ⟨path, hpath⟩ := Option.isSome_iff_exists.mp hsome
    have hwalk := (RelationshipIndex.shortest_of_path hpath).walk
    rw [RelationshipIndex.node_key htarget] at hwalk
    obtain rfl := congrArg Prod.snd h
    exact ⟨path, hwalk⟩

/-- The children of the groups visited were visited, or are pending. -/
def Below (c : Chase m) (visited : List String) (pending : List (OwnGroup m)) : Prop :=
  ∀ x ∈ visited, ∃ cs, c.children.lookup x = some cs
    ∧ ∀ g ∈ cs, g.key ∈ visited ∨ ∃ g' ∈ pending, g'.key = g.key

theorem Below.steps {c c' : Chase m} {visited : List String} {pending : List (OwnGroup m)}
    (h : Below c visited pending) (hsteps : Steps s k c c') : Below c' visited pending := by
  intro x hx
  obtain ⟨cs, hcs, hall⟩ := h x hx
  exact ⟨cs, hsteps.lookup hcs, hall⟩

theorem Below.congr {c : Chase m} {visited : List String} {pending pending' : List (OwnGroup m)}
    (h : Below c visited pending) (hsub : ∀ g ∈ pending, g.key ∈ visited ∨ g ∈ pending') :
    Below c visited pending' := by
  intro x hx
  obtain ⟨cs, hcs, hall⟩ := h x hx
  refine ⟨cs, hcs, fun g hg => ?_⟩
  rcases hall g hg with hv | ⟨g', hg', hkey⟩
  · exact .inl hv
  · rcases hsub g' hg' with hv | hp
    · rw [hkey] at hv
      exact .inl hv
    · exact .inr ⟨g', hp, hkey⟩

/-- A group with its children at hand. -/
theorem opened_lookup {c c' : Chase m} {g : OwnGroup m} {b : Bool}
    (h : c.opened s k g = some (b, c')) :
    ∃ cs, c'.children.lookup g.key = some cs ∧ (b = false → cs = []) := by
  unfold opened at h
  split at h
  · rename_i hthere
    cases h
    obtain ⟨cs, hcs⟩ := Option.isSome_iff_exists.mp hthere
    exact ⟨cs, hcs, nofun⟩
  · split at h
    · cases h
    · have hread := Option.some.inj h
      rcases read_cases s k c g with ⟨-, -, hchildren, -⟩ | ⟨hb, i, children, -, -, -, hchildren, -⟩
      · rw [hread] at hchildren
        exact ⟨[], by rw [hchildren, List.lookup_cons_self], fun _ => rfl⟩
      · rw [hread] at hb hchildren
        refine ⟨children, by rw [hchildren, List.lookup_cons_self], fun hfalse => ?_⟩
        cases hfalse.symm.trans hb

/-- A round over the frontier comes upon the chain, or visits the whole
frontier and puts off what is below it. -/
theorem visit_below {w : String} {gs found : List (OwnGroup m)} {visited : List String}
    {c : Chase m} (h : Below c visited (gs ++ found)) {found' : List (OwnGroup m)}
    {visited' : List String} {c' : Chase m}
    (hvisit : visit s k w gs found visited c = .next found' visited' c') :
    Chained k c' w ∨ (Below c' visited' found' ∧ (∀ g ∈ gs, g.key ∈ visited')
      ∧ ∀ x ∈ visited, x ∈ visited') := by
  induction gs generalizing found visited c with
  | nil =>
      cases hvisit
      exact .inr ⟨h, fun _ hg => absurd hg List.not_mem_nil, fun _ hx => hx⟩
  | cons g gs ih =>
      rw [visit] at hvisit
      split at hvisit
      · rename_i hseen
        have hrest : Below c visited (gs ++ found) := by
          refine h.congr fun g' hg' => ?_
          rcases List.mem_cons.mp hg' with rfl | hg'
          · exact .inl hseen
          · exact .inr hg'
        rcases ih hrest hvisit with hchain | hbelow
        · exact .inl hchain
        · refine .inr ⟨hbelow.1, ?_, hbelow.2.2⟩
          exact List.forall_mem_cons.mpr ⟨hbelow.2.2 _ hseen, hbelow.2.1⟩
      · dsimp only at hvisit
        -- what is pending after the group is visited, its children among it
        have hnext : ∀ {b : Bool} {c₁ : Chase m}, c.opened s k g = some (b, c₁) →
            ∀ more : List (OwnGroup m),
              (∀ cs, c₁.children.lookup g.key = some cs → ∀ x ∈ cs,
                x.key ∈ g.key :: visited ∨ x ∈ more) →
              Below c₁ (g.key :: visited) (gs ++ (found ++ more)) := by
          intro b c₁ hopen more hmore
          have hsteps : Steps s k c c₁ := opened_steps hopen
          obtain ⟨cs, hcs, -⟩ := opened_lookup hopen
          intro x hx
          rcases List.mem_cons.mp hx with rfl | hx
          · refine ⟨cs, hcs, fun g' hg' => ?_⟩
            refine (hmore cs hcs g' hg').imp_right fun hg' => ⟨g', ?_, rfl⟩
            exact List.mem_append_right _ (List.mem_append_right _ hg')
          · obtain ⟨cs', hcs', hall⟩ := h.steps hsteps x hx
            refine ⟨cs', hcs', fun g' hg' => ?_⟩
            rcases hall g' hg' with hv | ⟨g'', hg'', hkey⟩
            · exact .inl (List.mem_cons_of_mem _ hv)
            · rcases List.mem_cons.mp hg'' with rfl | hg''
              · rw [← hkey]
                exact .inl List.mem_cons_self
              · refine .inr ⟨g'', ?_, hkey⟩
                rw [← List.append_assoc]
                exact List.mem_append_left _ hg''
        have hdone : ∀ {c₁ : Chase m} {found₁ : List (OwnGroup m)},
            Below c₁ (g.key :: visited) (gs ++ found₁) →
            visit s k w gs found₁ (g.key :: visited) c₁ = .next found' visited' c' →
            Chained k c' w ∨ (Below c' visited' found' ∧ (∀ x ∈ g :: gs, x.key ∈ visited')
              ∧ ∀ x ∈ visited, x ∈ visited') := by
          intro c₁ found₁ hbelow h₁
          rcases ih hbelow h₁ with hchain | hrest
          · exact .inl hchain
          · refine .inr ⟨hrest.1, ?_, fun x hx => hrest.2.2 x (List.mem_cons_of_mem _ hx)⟩
            exact List.forall_mem_cons.mpr ⟨hrest.2.2 _ List.mem_cons_self, hrest.2.1⟩
        split at hvisit
        · cases hvisit
        · rename_i c₁ hopen
          obtain ⟨cs, hcs, hnil⟩ := opened_lookup hopen
          have hbelow := hnext hopen [] fun cs' hcs' x hx => by
            obtain rfl := Option.some.inj (hcs'.symm.trans hcs)
            rw [hnil rfl] at hx
            cases hx
          rw [List.append_nil] at hbelow
          exact hdone hbelow hvisit
        · rename_i c₁ hopen
          obtain ⟨cs, hcs, -⟩ := opened_lookup hopen
          have hbelow := hnext hopen
            (((c₁.children.lookup g.key).getD []).filter fun x => x.key ∉ g.key :: visited)
            fun cs' hcs' x hx => by
              rw [hcs', Option.getD_some, List.mem_filter, decide_eq_true_eq]
              by_cases hv : x.key ∈ g.key :: visited
              · exact .inl hv
              · exact .inr ⟨hx, hv⟩
          rcases hlook : c₁.known k w with ⟨b, c₂⟩
          rw [hlook] at hvisit
          dsimp only at hvisit
          cases b with
          | true =>
              cases hvisit
              exact .inl (chained_of_known hlook)
          | false => exact hdone (hbelow.steps (known_steps (s := s) hlook)) hvisit

/-- A search that is not cut short by the budget comes upon the chain, or
visits everything below the group. -/
theorem follow_below {w : String} {frontier : List (OwnGroup m)} {visited : List String}
    {c : Chase m} (h : Chained k c w ∨ (Below c visited frontier
      ∧ (PyStr.lower w ∈ visited ∨ ∃ g ∈ frontier, g.key = PyStr.lower w)))
    (hdone : (follow s k w frontier visited c).1 = true) :
    Chained k (follow s k w frontier visited c).2 w
      ∨ ∃ visited', Below (follow s k w frontier visited c).2 visited' []
        ∧ PyStr.lower w ∈ visited' := by
  fun_induction follow s k w frontier visited c with
  | case1 visited c =>
      rcases h with h | ⟨hbelow, hw⟩
      · exact .inl h
      · refine .inr ⟨visited, hbelow, hw.resolve_right fun hleft => ?_⟩
        obtain ⟨g, hg, -⟩ := hleft
        exact absurd hg List.not_mem_nil
  | case2 frontier visited c hne c₁ hlook => exact .inl (chained_of_known hlook)
  | case3 => cases hdone
  | case4 frontier visited c hne isKnown c₁ hlook hno found visited' c₂ hvisit ih =>
      have hround := visit_steps (s := s) (k := k) w frontier [] visited c₁
      rw [hvisit] at hround
      have hsteps : Steps s k c c₁ := known_steps hlook
      refine ih ?_ hdone
      rcases h with h | ⟨hbelow, hw⟩
      · exact .inl (h.steps (hsteps.trans hround))
      · have hstart : Below c₁ visited (frontier ++ []) := by
          rw [List.append_nil]
          exact hbelow.steps hsteps
        rcases visit_below hstart hvisit with hchain | hrest
        · exact .inl hchain
        · refine .inr ⟨?_, .inl ?_⟩
          · refine hrest.1.congr fun g hg => .inr ?_
            rwa [sortedGroups, List.mem_mergeSort, List.mem_dedup]
          · rcases hw with hw | ⟨g, hg, hkey⟩
            · exact hrest.2.2 _ hw
            · rw [← hkey]
              exact hrest.2.1 g hg

/-- A search is cut short only when the reads are used up. -/
theorem visit_spent {w : String} {gs found : List (OwnGroup m)} {visited : List String}
    {c c' : Chase m} (h : visit s k w gs found visited c = .spent c') :
    MAX_GROUP_FETCHES ≤ c'.run.chain_reads := by
  induction gs generalizing found visited c with
  | nil => cases h
  | cons g gs ih =>
      rw [visit] at h
      split at h
      · exact ih h
      · dsimp only at h
        split at h
        · rename_i hnone
          cases h
          unfold opened at hnone
          split at hnone
          · cases hnone
          · split at hnone
            · assumption
            · cases hnone
        · exact ih h
        · split at h
          · cases h
          · exact ih h

theorem follow_spent {w : String} {frontier : List (OwnGroup m)} {visited : List String}
    {c : Chase m} (h : (follow s k w frontier visited c).1 = false) :
    MAX_GROUP_FETCHES ≤ (follow s k w frontier visited c).2.run.chain_reads := by
  fun_induction follow s k w frontier visited c with
  | case1 => cases h
  | case2 => cases h
  | case3 frontier visited c hne isKnown c₁ hlook hno c₂ hvisit => exact visit_spent hvisit
  | case4 frontier visited c hne isKnown c₁ hlook hno found visited' c₂ hvisit ih => exact ih h

theorem followAll_spent {ws : List (OwnGroup m)} {c : Chase m}
    (h : (followAll s k ws c).1 = false) :
    MAX_GROUP_FETCHES ≤ (followAll s k ws c).2.run.chain_reads := by
  induction ws generalizing c with
  | nil => cases h
  | cons w ws ih =>
      have hfollow := @follow_spent m s k w.name [w] [] c
      rw [followAll] at h ⊢
      rcases hresult : follow s k w.name [w] [] c with ⟨b, c₁⟩
      rw [hresult] at h hfollow
      cases b with
      | false => exact hfollow rfl
      | true => exact ih h

theorem followAll_below {ws : List (OwnGroup m)} {c : Chase m}
    (hdone : (followAll s k ws c).1 = true) : ∀ w ∈ ws,
    Chained k (followAll s k ws c).2 w.name
      ∨ ∃ visited, Below (followAll s k ws c).2 visited [] ∧ w.key ∈ visited := by
  induction ws generalizing c with
  | nil => exact fun w hw => nomatch hw
  | cons w ws ih =>
      have hfollow := follow_steps (s := s) (k := k) w.name [w] [] c
      have hstart : Below c [] [w] := fun x hx => nomatch hx
      have hbelow := follow_below (s := s) (k := k) (w := w.name) (.inr ⟨hstart,
        .inr ⟨w, List.mem_singleton_self _, rfl⟩⟩)
      rw [followAll] at hdone ⊢
      rcases hresult : follow s k w.name [w] [] c with ⟨b, c₁⟩
      rw [hresult] at hdone hbelow hfollow
      cases b with
      | false => cases hdone
      | true =>
          dsimp only at hdone hbelow hfollow ⊢
          have hrest := followAll_steps (s := s) (k := k) ws c₁
          intro w' hw'
          rcases List.mem_cons.mp hw' with rfl | hw'
          · refine (hbelow rfl).imp (fun h => h.steps hrest) ?_
            rintro ⟨visited, hb, hmem⟩
            exact ⟨visited, hb.steps hrest, hmem⟩
          · exact ih hdone w' hw'

/-! ## Chains of memberships -/

section Whole

variable {G : Groups} {run : Run} {c : Chase m}

/-- The edges are a chain of direct memberships, from the object to a
group. -/
structure ChainTo (G : Groups) (m : Membership) (k : SideKind) (p : List Edge) (g : String) :
    Prop where
  begins : ∃ e rest, p = e :: rest ∧ e.src.key = m.node.key ∧ e.dst.key.1 = k.kind
    ∧ e.dst.key.2 ∈ lowers m.direct
  steps : (p.map fun e => e.dst.key.2).IsChain G
  ends : p.getLast?.map (fun e => e.dst.key) = some (k.kind, g)

/-- A chain of the index that leaves the object is one of real memberships,
those between groups from groups that were read. -/
theorem walk_cases (hheld : Held G k run c) (hfresh : Fresh m k run.index)
    (hkind : m.node.kind ≠ k.kind) {p : List Edge} {v : Key}
    (h : c.run.index.Walk m.node.key p v) :
    (p = [] ∧ v = m.node.key) ∨ (v.1 = k.kind ∧ G.Reaches m v.2 ∧ ChainTo G m k p v.2
      ∧ ∀ e ∈ p.tail, ∃ y ∈ c.groupsRead, e.dst.key = (k.kind, y)) := by
  induction h with
  | nil => exact .inl ⟨rfl, rfl⟩
  | @snoc p v e hp he ih =>
      obtain ⟨hmem, hsrc, hmember⟩ := RelationshipIndex.mem_parents.mp he
      have hlinked := hheld.grows.added v e.dst.key ⟨e, hmem, hsrc, rfl, hmember⟩
      refine .inr ?_
      rcases ih with ⟨rfl, rfl⟩ | ⟨hv, hreach, hchain, htail⟩
      · rcases hlinked with hlinked | ⟨x, y, hx, -⟩
        · obtain ⟨hdst, hdirect⟩ := hfresh.direct _ hlinked
          refine ⟨hdst, ⟨_, hdirect, .refl⟩, ⟨⟨e, [], rfl, hsrc, hdst, hdirect⟩, ?_, ?_⟩, ?_⟩
          · exact List.isChain_singleton _
          · exact congrArg some (Prod.ext hdst rfl)
          · exact fun x hx => nomatch hx
        · exact absurd (congrArg Prod.fst hx) hkind
      · rcases hlinked with hlinked | ⟨x, y, hx, hy, hxy, hread⟩
        · exact absurd hv (hfresh.apart _ _ hlinked)
        · obtain ⟨d, hd, hpath⟩ := hreach
          subst hx
          rw [hy]
          obtain ⟨e₀, rest, rfl, hbegins⟩ := hchain.begins
          refine ⟨rfl, ⟨d, hd, hpath.tail hxy⟩, ⟨⟨e₀, rest ++ [e], rfl, hbegins⟩, ?_, ?_⟩, ?_⟩
          · rw [List.map_append, List.isChain_append]
            refine ⟨hchain.steps, List.isChain_singleton _, fun a ha b hb => ?_⟩
            have hends := hchain.ends
            rw [List.getLast?_map, Option.mem_def, Option.map_eq_some_iff] at ha
            obtain ⟨l, hl, rfl⟩ := ha
            rw [hl, Option.map_some, Option.some.injEq] at hends
            obtain rfl : e.dst.key.2 = b := by simpa using hb
            rw [hends, hy]
            exact hxy
          · rw [List.getLast?_append, List.getLast?_singleton]
            exact congrArg some hy
          · intro f hf
            rcases List.mem_append.mp hf with hf | hf
            · exact htail f hf
            · obtain rfl := List.mem_singleton.mp hf
              exact ⟨y, hread, hy⟩

/-- A shortest chain is no longer than the groups read make it. -/
theorem shortest_length (hheld : Held G k run c) (hfresh : Fresh m k run.index)
    (hkind : m.node.kind ≠ k.kind) {p : List Edge} {v : Key}
    (h : c.run.index.Shortest m.node.key p v) : p.length ≤ c.groupsRead.length + 1 := by
  rcases walk_cases hheld hfresh hkind h.walk with ⟨rfl, -⟩ | ⟨-, -, hchain, htail⟩
  · exact Nat.zero_le _
  · obtain ⟨e, rest, rfl, -⟩ := hchain.begins
    have hnodup : (rest.map fun e => e.dst.key).Nodup := (List.nodup_cons.mp h.nodup).2
    have hsub : (rest.map fun e => e.dst.key) ⊆ c.groupsRead.map fun y => (k.kind, y) := by
      intro x hx
      obtain ⟨f, hf, rfl⟩ := List.mem_map.mp hx
      obtain ⟨y, hy, hkey⟩ := htail f hf
      exact List.mem_map.mpr ⟨y, hy, hkey.symm⟩
    have hle := (List.subperm_of_subset hnodup hsub).length_le
    rw [List.length_map, List.length_map] at hle
    rw [List.length_cons]
    omega

/-- So the bound on depth cuts nothing off. -/
theorem path_of_chained (hheld : Held G k run c) (hcounted : Counted run c)
    (hfresh : Fresh m k run.index) (hkind : m.node.kind ≠ k.kind) {w : String}
    (h : Chained k c w) {target : Node} (htarget : target.key = (k.kind, PyStr.lower w)) :
    (c.run.index.membership_path m.node target).isSome = true := by
  obtain ⟨p, hp⟩ := h
  obtain ⟨q, hq⟩ := hp.exists_shortest
  have hlen := shortest_length hheld hfresh hkind hq
  have hreads := hcounted.reads
  have hbudget := hcounted.budget
  refine @RelationshipIndex.path_of_walk _ _ _ _ q ?_ ?_
  · rw [htarget]
    exact hq.walk
  · unfold MAX_GROUP_FETCHES at hbudget
    unfold MAX_DEPTH
    omega

/-- Below a group everything was read: if the object reaches the group,
the index holds a chain to it. -/
theorem chained_of_below (hG : Mirrors s k m G) (hheld : Held G k run c)
    (hfresh : Fresh m k run.index) (hcomplete : c.complete = true)
    (hwhole : c.run.index.truncated = false) {visited : List String}
    (hbelow : Below c visited []) {w : String} (hw : PyStr.lower w ∈ visited)
    (hreach : G.Reaches m (PyStr.lower w)) : Chained k c w := by
  obtain ⟨d, hd, hpath⟩ := hreach
  -- a member of a visited group that the object is in was visited and linked
  have hstep : ∀ x y, ReflTransGen G d x → G x y → y ∈ visited →
      x ∈ visited ∧ c.run.index.Linked (k.kind, x) (k.kind, y) := by
    intro x y hdx hxy hy
    obtain ⟨cs, hcs, hall⟩ := hbelow y hy
    obtain ⟨g, hg, rfl⟩ := hheld.all hcomplete y cs hcs x (hG.indirect x ⟨d, hd, hdx⟩) hxy
    refine ⟨(hall g hg).resolve_right (fun ⟨_, hmem, _⟩ => nomatch hmem), ?_⟩
    exact hheld.there hwhole y cs hcs g hg
  have hvisited : ∀ x, ReflTransGen G x (PyStr.lower w) → ReflTransGen G d x → x ∈ visited := by
    intro x hxw
    induction hxw using ReflTransGen.head_induction_on with
    | refl => exact fun _ => hw
    | head hxy _ ih => exact fun hdx => (hstep _ _ hdx hxy (ih (hdx.tail hxy))).1
  have hwalk : ∀ x, ReflTransGen G d x → ReflTransGen G x (PyStr.lower w) →
      ∃ p, c.run.index.Walk m.node.key p (k.kind, x) := by
    intro x hdx
    induction hdx with
    | refl =>
        intro _
        have hlinked := hheld.grows.linked (hfresh.listed (hheld.grows.whole hwhole) d hd)
        obtain ⟨e, he, hsrc, hdst, hkind⟩ := hlinked
        have hnil : c.run.index.Walk m.node.key [] m.node.key := .nil
        have hone := hnil.snoc (RelationshipIndex.mem_parents.mpr ⟨he, hsrc, hkind⟩)
        rw [hdst] at hone
        exact ⟨_, hone⟩
    | @tail x y hdx hxy ih =>
        intro hyw
        obtain ⟨p, hp⟩ := ih (hyw.head hxy)
        obtain ⟨e, he, hsrc, hdst, hkind⟩ :=
          (hstep x y hdx hxy (hvisited y hyw (hdx.tail hxy))).2
        have hmore := hp.snoc (RelationshipIndex.mem_parents.mpr ⟨he, hsrc, hkind⟩)
        rw [hdst] at hmore
        exact ⟨_, hmore⟩
  exact hwalk _ hpath .refl

theorem allKnown_groupsRead (ws : List (OwnGroup m)) (c : Chase m) :
    (allKnown k ws c).2.groupsRead = c.groupsRead := by
  induction ws generalizing c with
  | nil => rfl
  | cons w ws ih =>
      have hstate := known_state k c w.name
      rw [allKnown]
      rcases hresult : c.known k w.name with ⟨b, c₁⟩
      rw [hresult] at hstate
      have hsame : c₁.groupsRead = c.groupsRead := by
        rw [show c₁ = _ from hstate]
        rfl
      cases b with
      | false => exact hsame
      | true => exact (ih c₁).trans hsame

theorem chained_of_allKnown (s : Script) {ws : List (OwnGroup m)} (h : (allKnown k ws c).1 = true) :
    ∀ w ∈ ws, Chained k (allKnown k ws c).2 w.name := by
  induction ws generalizing c with
  | nil => exact fun w hw => nomatch hw
  | cons w ws ih =>
      have hsteps := fun c' : Chase m => allKnown_steps (s := s) (k := k) ws c'
      rw [allKnown] at h ⊢
      rcases hlook : c.known k w.name with ⟨b, c₁⟩
      rw [hlook] at h
      cases b with
      | false => cases h
      | true =>
          intro w' hw'
          rcases List.mem_cons.mp hw' with rfl | hw'
          · exact (chained_of_known hlook).steps (hsteps c₁)
          · exact ih h w' hw'

/-- Every chain the index holds is known, if the index is whole. -/
theorem allKnown_of_chained (s : Script) {ws : List (OwnGroup m)} (hheld : Held G k run c)
    (hcounted : Counted run c) (hfresh : Fresh m k run.index) (hkind : m.node.kind ≠ k.kind)
    (hall : ∀ w ∈ ws, Chained k c w.name)
    (hwhole : (allKnown k ws c).2.run.index.truncated = false) : (allKnown k ws c).1 = true := by
  induction ws generalizing c with
  | nil => rfl
  | cons w ws ih =>
      have hlook : Step s k c (c.known k w.name).2 := .look w.name
      have hheld₁ := hheld.look w.name
      have hcounted₁ := hcounted.step hlook
      have hchained := fun w' hw' => (hall w' hw').steps (.single hlook)
      have hstate := known_state k c w.name
      have hknown : (c.known k w.name).2.run.index.truncated = false →
          (c.known k w.name).1 = true := by
        intro hw
        have hpath := fun target => @path_of_chained m k G run _ hheld₁ hcounted₁ hfresh hkind
          w.name (hchained w List.mem_cons_self) target
        rw [hstate] at hw hpath
        obtain ⟨target, htarget, hkey⟩ := RelationshipIndex.node_of_whole hw
        unfold known
        dsimp only
        rw [htarget]
        exact hpath target hkey
      rw [allKnown] at hwhole ⊢
      rcases hresult : c.known k w.name with ⟨b, c₁⟩
      rw [hresult] at hwhole hknown hheld₁ hcounted₁ hchained
      cases b with
      | false => exact hknown hwhole
      | true =>
          exact ih hheld₁ hcounted₁ (fun w' hw' => hchained w' (List.mem_cons_of_mem _ hw')) hwhole

end Whole

end Chase

/-! ## The expansion -/

/-- What the searches for all the listed groups leave. -/
def chase (s : Script) (run : Run) (m : Membership) (sides : List RuleSide) (k : SideKind) :
    Bool × Chase m :=
  Chase.followAll s k (sortedGroups (wantedGroups m sides)) { run }

/-- An expansion searches, and then looks every group up. -/
theorem expand_chain_eq (s : Script) (run : Run) (m : Membership) (sides : List RuleSide)
    (k : SideKind) :
    expand_chain s run (some m) sides k =
      if (chase s run m sides k).1 = true ∧ (chase s run m sides k).2.complete = true then
        ((Chase.allKnown k (wantedGroups m sides) (chase s run m sides k).2).1,
          (Chase.allKnown k (wantedGroups m sides) (chase s run m sides k).2).2.run)
      else (false, (chase s run m sides k).2.run) := by
  unfold expand_chain chase
  dsimp only
  by_cases hnone : wantedGroups m sides = []
  · have hsorted : sortedGroups ([] : List (OwnGroup m)) = [] := List.mergeSort_nil
    rw [if_pos hnone, hnone, hsorted]
    rfl
  · rw [if_neg hnone]
    rcases Chase.followAll s k (sortedGroups (wantedGroups m sides)) { run } with ⟨_ | _, c⟩
    · rfl
    · dsimp only
      by_cases hcomplete : c.complete = true
      · rw [if_pos hcomplete, if_pos ⟨rfl, hcomplete⟩]
      · rw [if_neg hcomplete, if_neg fun h => hcomplete h.2]

/-- The state the expansion ends in. -/
theorem expand_chain_ends (s : Script) (run : Run) (m : Membership) (sides : List RuleSide)
    (k : SideKind) :
    ∃ c : Chase m, Chase.Steps s k (chase s run m sides k).2 c
      ∧ c.groupsRead = (chase s run m sides k).2.groupsRead
      ∧ (expand_chain s run (some m) sides k).2 = c.run
      ∧ ((expand_chain s run (some m) sides k).1 = true →
        ∀ w ∈ wantedGroups m sides, Chase.Chained k c w.name) := by
  rw [expand_chain_eq]
  split
  · exact ⟨_, Chase.allKnown_steps _ _, Chase.allKnown_groupsRead _ _, rfl,
      Chase.chained_of_allKnown s⟩
  · exact ⟨_, .refl, rfl, rfl, nofun⟩

/-- The search for one side leaves the index as it has to be for another. -/
theorem expand_chain_fresh {m' : Membership} {k' : SideKind} (s : Script) (run : Run)
    (m : Membership) (sides : List RuleSide) (k : SideKind) (h : Fresh m' k' run.index)
    (hkinds : k.kind ≠ k'.kind) (hobject : m'.node.kind ≠ k.kind) :
    Fresh m' k' (expand_chain s run (some m) sides k).2.index := by
  obtain ⟨c, hsteps, -, hrun, -⟩ := expand_chain_ends s run m sides k
  have hsearch : Chase.Steps s k { run } c :=
    (Chase.followAll_steps (sortedGroups (wantedGroups m sides)) { run }).trans hsteps
  have hgrows : run.index.Grows c.run.index fun a _ => a.1 = k.kind := hsearch.grows
  rw [hrun]
  refine h.grows hgrows fun a b hab => ⟨?_, fun hk => hkinds (hab.symm.trans hk)⟩
  rintro rfl
  exact hobject hab

/-- **Nested chains are found, and read once.** Whatever the graph of the
groups, each group is read at most once, by one call each, and never more
than the budget allows. If no read failed, the budget was not used up and
the index is whole, the answer is `true` exactly if the object reaches
every listed group; and where it is `true`, the path search returns a
chain of direct memberships to each, as short as any the index holds. -/
theorem expand_chain_exact {G : Groups} (s : Script) (run : Run) (m : Membership)
    (sides : List RuleSide) (k : SideKind) (hkind : m.node.kind ≠ k.kind)
    (hG : Mirrors s k m G) (hfresh : Fresh m k run.index) :
    ((chase s run m sides k).2.groupsRead.Nodup
      ∧ (expand_chain s run (some m) sides k).2.chain_reads
        = run.chain_reads + (chase s run m sides k).2.groupsRead.length
      ∧ (expand_chain s run (some m) sides k).2.api.asked
        = run.api.asked + (chase s run m sides k).2.groupsRead.length
      ∧ (expand_chain s run (some m) sides k).2.chain_reads
        ≤ max run.chain_reads MAX_GROUP_FETCHES)
    ∧ ((chase s run m sides k).2.complete = true →
      (expand_chain s run (some m) sides k).2.chain_reads < MAX_GROUP_FETCHES →
      (expand_chain s run (some m) sides k).2.index.truncated = false →
      ((expand_chain s run (some m) sides k).1 = true
        ↔ ∀ w ∈ wantedGroups m sides, G.Reaches m w.key))
    ∧ ((expand_chain s run (some m) sides k).1 = true → ∀ w ∈ wantedGroups m sides,
      ∀ target : Node, target.key = (k.kind, w.key) →
        ∃ p, (expand_chain s run (some m) sides k).2.index.membership_path m.node target = some p
          ∧ Chase.ChainTo G m k p w.key
          ∧ ∀ q, (expand_chain s run (some m) sides k).2.index.Walk m.node.key q target.key →
            p.length ≤ q.length) := by
  obtain ⟨c, hsteps, hread, hrun, htrue⟩ := expand_chain_ends s run m sides k
  have hsearch : Chase.Steps s k { run } (chase s run m sides k).2 := Chase.followAll_steps _ _
  have hcounted : Chase.Counted run c := (Chase.counted_start run).steps (hsearch.trans hsteps)
  have hheld : Chase.Held G k run c :=
    (Chase.held_start G k run).steps hG (hsearch.trans hsteps)
  have hchain : ∀ {p : List Edge} {w : String},
      c.run.index.Walk m.node.key p (k.kind, w) → G.Reaches m w ∧ Chase.ChainTo G m k p w := by
    intro p w hp
    rcases Chase.walk_cases hheld hfresh hkind hp with ⟨-, hv⟩ | ⟨-, hreach, hchain, -⟩
    · exact absurd (congrArg Prod.fst hv).symm hkind
    · exact ⟨hreach, hchain⟩
  refine ⟨?_, ?_, ?_⟩
  · rw [hrun, ← hread]
    exact ⟨hcounted.nodup, hcounted.reads, hcounted.asked, hcounted.budget⟩
  · intro hcomplete hbudget hwhole
    constructor
    · intro h w hw
      obtain ⟨p, hp⟩ := htrue h w hw
      exact (hchain hp).1
    · intro hreach
      have hdone : (chase s run m sides k).1 = true := by
        by_contra hspent
        have hused := Chase.followAll_spent (Bool.eq_false_iff.mpr hspent)
        rw [expand_chain_eq, if_neg fun h => hspent h.1] at hbudget
        exact absurd hused (Nat.not_le.mpr hbudget)
      rw [expand_chain_eq, if_pos ⟨hdone, hcomplete⟩] at hwhole ⊢
      have hcounted₀ := (Chase.counted_start run).steps hsearch
      have hheld₀ := (Chase.held_start G k run).steps hG hsearch
      have hlooks := Chase.allKnown_steps (s := s) (k := k) (wantedGroups m sides)
        (chase s run m sides k).2
      refine Chase.allKnown_of_chained s hheld₀ hcounted₀ hfresh hkind (fun w hw => ?_) hwhole
      have hsorted : w ∈ sortedGroups (wantedGroups m sides) := by
        rwa [sortedGroups, List.mem_mergeSort]
      rcases Chase.followAll_below hdone w hsorted with h | ⟨visited, hbelow, hmem⟩
      · exact h
      · exact Chase.chained_of_below hG hheld₀ hfresh hcomplete (hlooks.grows.whole hwhole)
          hbelow hmem (hreach w hw)
  · intro h w hw target htarget
    rw [hrun]
    obtain ⟨p, hp⟩ := Option.isSome_iff_exists.mp
      (Chase.path_of_chained hheld hcounted hfresh hkind (htrue h w hw) htarget)
    have hshort := RelationshipIndex.shortest_of_path hp
    refine ⟨p, hp, ?_, hshort.least⟩
    have hwalk := hshort.walk
    rw [htarget] at hwalk
    exact (hchain hwalk).2

/-! ## A chain that is not the shortest -/

namespace Chase

variable {m : Membership} {s : Script} {k : SideKind}

/-- `follow` where every round finds its groups in their order, for at
most some rounds. -/
def followFor (s : Script) (k : SideKind) (w : String) :
    Nat → List (OwnGroup m) → List String → Chase m → Option (Bool × Chase m)
  | 0, _, _, _ => none
  | n + 1, frontier, visited, c =>
      if frontier = [] then some (true, c)
      else
        match c.known k w with
        | (true, c) => some (true, c)
        | (false, c) =>
            match visit s k w frontier [] visited c with
            | .spent c => some (false, c)
            | .next found visited c =>
                if found.dedup.Pairwise (PyStr.le ·.key ·.key) then
                  followFor s k w n found.dedup visited c
                else none

theorem follow_of_rounds {w : String} {n : Nat} {frontier : List (OwnGroup m)}
    {visited : List String} {c : Chase m} {r : Bool × Chase m}
    (h : followFor s k w n frontier visited c = some r) : follow s k w frontier visited c = r := by
  induction n generalizing frontier visited c with
  | zero => cases h
  | succ n ih =>
      rw [followFor] at h
      rw [follow.eq_1]
      split at h
      · rename_i hnil
        rw [if_pos hnil]
        exact Option.some.inj h
      · rename_i hne
        rw [if_neg hne]
        split at h
        · rename_i c₁ hlook
          rw [hlook]
          exact Option.some.inj h
        · rename_i c₁ hlook
          rw [hlook]
          dsimp only
          split at h
          · rename_i c₂ hvisit
            rw [hvisit]
            exact Option.some.inj h
          · rename_i found visited' c₂ hvisit
            rw [hvisit]
            split at h
            · rename_i hsorted
              dsimp only
              rw [sortedGroups, List.mergeSort_of_pairwise (by simpa using hsorted)]
              exact ih h
            · cases h

def followAllFor (s : Script) (k : SideKind) (n : Nat) :
    List (OwnGroup m) → Chase m → Option (Bool × Chase m)
  | [], c => some (true, c)
  | w :: ws, c =>
      match followFor s k w.name n [w] [] c with
      | some (true, c) => followAllFor s k n ws c
      | r => r

theorem followAll_of_rounds {n : Nat} {ws : List (OwnGroup m)} {c : Chase m}
    {r : Bool × Chase m} (h : followAllFor s k n ws c = some r) : followAll s k ws c = r := by
  induction ws generalizing c with
  | nil => exact Option.some.inj h
  | cons w ws ih =>
      rw [followAllFor] at h
      rw [followAll]
      rcases hfollow : followFor s k w.name n [w] [] c with _ | ⟨_ | _, c₁⟩
      · rw [hfollow] at h
        cases h
      · rw [hfollow] at h
        rw [follow_of_rounds hfollow]
        exact Option.some.inj h
      · rw [hfollow] at h
        rw [follow_of_rounds hfollow]
        exact ih h

end Chase

namespace Detour

/-- A graph in which one group has two ways down to the object. -/
def table : List (String × List String) :=
  [("w1", ["a", "w2"]), ("w2", ["a", "b"]), ("a", ["a2"]), ("a2", ["d1"]), ("b", ["d"])]

def members (g : String) : List String := (table.lookup g).getD []

def script : Script where
  answer _ c :=
    match c.args with
    | [g] =>
        { result := .dict [("result", .dict [("member_group",
            .list ((members (PyStr.lower g)).map .str))])] }
    | _ => {}

def member : Membership := ⟨⟨.user, "m"⟩, ["d", "d1"], ["a", "a2", "b", "w1", "w2"]⟩

def sides : List RuleSide := [⟨false, [], ["w1", "w2"]⟩]

def start : RelationshipIndex := (({} : RelationshipIndex).node .user "m").2

def run : Run where
  api := {}
  relevant _ := []
  index := start.add_memberships (some member.node) groupSide.kind member.direct member.indirect
    "user_show m"

def graph : Groups := fun c g => c ∈ members g

theorem members_cases (g : String) : members g = [] ∨ (g, members g) ∈ table := by
  rw [members]
  rcases hl : table.lookup g with _ | l
  · exact .inl rfl
  · exact .inr (Assoc.mem_of_lookup hl)

theorem lowers_members (g : String) :
    lowers (strs (.list ((members g).map .str))) = members g := by
  have htable : ∀ e ∈ table, lowers (strs (.list (e.2.map .str))) = e.2 := by decide
  rcases members_cases g with h | h
  · rw [h]
    rfl
  · exact htable _ h

theorem mirrors : Mirrors script groupSide member graph where
  answers i g _ c := by
    show c ∈ lowers (strs (.list ((members (PyStr.lower g)).map .str))) ↔ _
    rw [lowers_members]
    rfl
  indirect g hreach := by
    have hkeys : ∀ e ∈ table, e.1 ∈ member.all_groups := by decide
    have hdirect : ∀ d ∈ lowers member.direct, d ∈ member.all_groups := by decide
    obtain ⟨d, hd, hdg⟩ := hreach
    rcases Relation.ReflTransGen.cases_tail hdg with rfl | ⟨b, -, hb⟩
    · exact hdirect _ hd
    · rcases members_cases g with hnone | hmem
      · rw [graph, hnone] at hb
        cases hb
      · exact hkeys _ hmem

theorem start_edges : start.edges = [] := by
  rw [start, RelationshipIndex.node]
  rfl

theorem start_unlinked (a b : Key) (h : start.Linked a b) :
    a ≠ member.node.key ∧ a.1 ≠ groupSide.kind := by
  obtain ⟨e, he, -⟩ := h
  rw [start_edges] at he
  cases he

theorem fresh : Fresh member groupSide run.index := by
  have h : Fresh member groupSide (start.add_memberships (some member.node) groupSide.kind
      member.direct member.indirect "user_show m") :=
    fresh_add_memberships "user_show m" (by decide) start_unlinked
  exact h

/-- What the search finds out, and how long the chain to `w2` is. -/
def outcome : Option ((Bool × Bool × Bool) × (Nat × Bool) × Option Nat) :=
  (Chase.followAllFor script groupSide 9 (wantedGroups member sides) { run }).map fun r =>
    let known := Chase.allKnown groupSide (wantedGroups member sides) r.2
    ((r.1, r.2.complete, known.1), (known.2.run.chain_reads, known.2.run.index.truncated),
      (known.2.run.index.membership_path member.node ⟨.group, "w2"⟩).map List.length)

theorem outcome_eq : outcome = some ((true, true, true), (4, false), some 4) := by
  decide +kernel

theorem sorted_wanted : sortedGroups (wantedGroups member sides) = wantedGroups member sides := by
  rw [sortedGroups]
  exact List.mergeSort_of_pairwise (by decide)

theorem run_ends :
    (chase script run member sides groupSide).2.complete = true
      ∧ (expand_chain script run (some member) sides groupSide).2.chain_reads = 4
      ∧ (expand_chain script run (some member) sides groupSide).2.index.truncated = false
      ∧ (expand_chain script run (some member) sides groupSide).1 = true
      ∧ ((expand_chain script run (some member) sides groupSide).2.index.membership_path
          member.node ⟨.group, "w2"⟩).map List.length = some 4 := by
  obtain ⟨r, hr, hout⟩ := Option.map_eq_some_iff.mp outcome_eq
  have hchase : chase script run member sides groupSide = r := by
    rw [chase, sorted_wanted]
    exact Chase.followAll_of_rounds hr
  simp only [Prod.mk.injEq] at hout
  obtain ⟨⟨hdone, hcomplete, hknown⟩, ⟨hreads, hwhole⟩, hpath⟩ := hout
  have hexpand : expand_chain script run (some member) sides groupSide
      = ((Chase.allKnown groupSide (wantedGroups member sides) r.2).1,
        (Chase.allKnown groupSide (wantedGroups member sides) r.2).2.run) := by
    rw [expand_chain_eq, hchase, if_pos ⟨hdone, hcomplete⟩]
  rw [hexpand, hchase]
  exact ⟨hcomplete, hreads, hwhole, hknown, hpath⟩

end Detour

/-- On the two ways of the example: both groups are reached, each group is
read once, and the path search finds a chain. -/
theorem expand_chain_exact_detour :
    (chase Detour.script Detour.run Detour.member Detour.sides groupSide).2.groupsRead.Nodup
      ∧ (∀ w ∈ wantedGroups Detour.member Detour.sides,
        Detour.graph.Reaches Detour.member w.key) := by
  have hexact := expand_chain_exact Detour.script Detour.run Detour.member Detour.sides groupSide
    (by decide) Detour.mirrors Detour.fresh
  obtain ⟨hcomplete, hreads, hwhole, htrue, -⟩ := Detour.run_ends
  exact ⟨hexact.1.1, (hexact.2.1 hcomplete (hreads ▸ by decide) hwhole).mp htrue⟩

/-- The search for `w1` comes upon a chain of four to `w2` as well, and
stops there: that there is one of three it does not find out. -/
theorem expand_chain_detour :
    Mirrors Detour.script groupSide Detour.member Detour.graph
      ∧ Fresh Detour.member groupSide Detour.run.index
      ∧ (chase Detour.script Detour.run Detour.member Detour.sides groupSide).2.complete = true
      ∧ (expand_chain Detour.script Detour.run (some Detour.member) Detour.sides
          groupSide).2.chain_reads < MAX_GROUP_FETCHES
      ∧ (expand_chain Detour.script Detour.run (some Detour.member) Detour.sides
          groupSide).2.index.truncated = false
      ∧ (expand_chain Detour.script Detour.run (some Detour.member) Detour.sides
          groupSide).1 = true
      ∧ ((expand_chain Detour.script Detour.run (some Detour.member) Detour.sides
          groupSide).2.index.membership_path Detour.member.node ⟨.group, "w2"⟩).map List.length
        = some 4
      ∧ "d" ∈ Detour.member.direct ∧ Detour.graph "d" "b" ∧ Detour.graph "b" "w2" := by
  obtain ⟨hcomplete, hreads, hwhole, htrue, hpath⟩ := Detour.run_ends
  refine ⟨Detour.mirrors, Detour.fresh, hcomplete, hreads ▸ by decide, hwhole, htrue, hpath,
    by decide, ?_, ?_⟩
  · show "d" ∈ Detour.members "b"
    decide +kernel
  · show "b" ∈ Detour.members "w2"
    decide +kernel

end IpaDiagnose.Access
