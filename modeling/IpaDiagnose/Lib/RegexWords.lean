import IpaDiagnose.Lib.Regex

/-!
# Words of a character class

A pattern's run is a list of cursors. For the patterns identifiers are
written with (one class, then a bounded or unbounded repetition of
another, perhaps captured) what the list holds is said here in terms of
the text alone: which words such a pattern accepts, what its group
captures, and that a substitution whose pattern needs a character the
text does not have changes nothing.
-/

namespace Regex

/-! ## Single constructors -/

theorem Re.mem_seq {a b : Re} {c c' : Cursor} :
    c' ∈ (Re.seq a b).run c ↔ ∃ c₁ ∈ a.run c, c' ∈ b.run c₁ := by
  simp [Re.run]

theorem Re.mem_cls {p : Char → Bool} {c c' : Cursor} :
    c' ∈ (Re.cls p).run c
      ↔ ∃ x xs, c.rest = x :: xs ∧ p x = true ∧ c' = ⟨some x, xs, c.caps⟩ := by
  rcases hr : c.rest with _ | ⟨x, xs⟩
  · simp [Re.run, hr]
  · by_cases hp : p x = true
    · simp [Re.run, hr, hp]
    · simp [Re.run, hr, hp]

theorem Re.mem_group {i : Nat} {r : Re} {c c' : Cursor} :
    c' ∈ (Re.group i r).run c ↔ ∃ c₁ ∈ r.run c, c' =
      { c₁ with caps := c₁.caps ++ [(i, c.rest.take (c.rest.length - c₁.rest.length))] } := by
  simp only [Re.run, List.mem_map]
  constructor
  · rintro ⟨c₁, h, rfl⟩
    exact ⟨c₁, h, rfl⟩
  · rintro ⟨c₁, h, rfl⟩
    exact ⟨c₁, h, rfl⟩

/-- Greedy or lazy, a repetition stops here or goes on. -/
theorem mem_iter_succ {f : Cursor → List Cursor} {greedy : Bool} {fuel lo : Nat}
    {hi : Option Nat} {c c' : Cursor} :
    c' ∈ iter f greedy (fuel + 1) lo hi c ↔ (lo = 0 ∧ c' = c) ∨
      (hi ≠ some 0 ∧ ∃ c₁ ∈ f c, c₁.rest.length < c.rest.length
        ∧ c' ∈ iter f greedy fuel (lo - 1) (hi.map (· - 1)) c₁) := by
  have hstop : c' ∈ (if lo = 0 then [c] else []) ↔ lo = 0 ∧ c' = c := by
    by_cases h : lo = 0 <;> simp [h]
  have hmore : c' ∈ (if hi = some 0 then [] else (f c).flatMap fun c₁ =>
      if c₁.rest.length < c.rest.length then iter f greedy fuel (lo - 1) (hi.map (· - 1)) c₁
      else []) ↔ hi ≠ some 0 ∧ ∃ c₁ ∈ f c, c₁.rest.length < c.rest.length
        ∧ c' ∈ iter f greedy fuel (lo - 1) (hi.map (· - 1)) c₁ := by
    by_cases h : hi = some 0
    · simp [h]
    · rw [if_neg h, List.mem_flatMap]
      constructor
      · rintro ⟨c₁, hc₁, hmem⟩
        split at hmem
        · rename_i hlt
          exact ⟨h, c₁, hc₁, hlt, hmem⟩
        · cases hmem
      · rintro ⟨-, c₁, hc₁, hlt, hmem⟩
        exact ⟨c₁, hc₁, by rwa [if_pos hlt]⟩
  cases greedy with
  | true => rw [iter, if_pos rfl, List.mem_append, hstop, hmore, or_comm]
  | false => rw [iter, if_neg Bool.false_ne_true, List.mem_append, hstop, hmore]

/-! ## A repeated class -/

/-- The bounds of a repetition hold of a number of rounds. -/
def Within (lo : Nat) (hi : Option Nat) (n : Nat) : Prop := lo ≤ n ∧ ∀ m, hi = some m → n ≤ m

theorem Within.pred {lo n : Nat} {hi : Option Nat} (h : Within lo hi (n + 1)) :
    Within (lo - 1) (hi.map (· - 1)) n := by
  refine ⟨by have := h.1; omega, fun m hm => ?_⟩
  obtain ⟨k, hk, rfl⟩ := Option.map_eq_some_iff.mp hm
  have := h.2 k hk
  omega

theorem Within.succ {lo n : Nat} {hi : Option Nat} (hhi : hi ≠ some 0)
    (h : Within (lo - 1) (hi.map (· - 1)) n) : Within lo hi (n + 1) := by
  refine ⟨by have := h.1; omega, fun m hm => ?_⟩
  have hle := h.2 (m - 1) (by rw [hm]; rfl)
  have hm0 : m ≠ 0 := by
    rintro rfl
    exact hhi hm
  omega

theorem iter_cls_sound {p : Char → Bool} {greedy : Bool} {fuel : Nat} :
    ∀ {lo : Nat} {hi : Option Nat} {c c' : Cursor},
      c' ∈ iter (Re.cls p).run greedy fuel lo hi c →
        ∃ w, c.rest = w ++ c'.rest ∧ (∀ x ∈ w, p x = true) ∧ Within lo hi w.length
          ∧ c'.caps = c.caps := by
  induction fuel with
  | zero =>
      intro lo hi c c' h
      rw [iter] at h
      split at h
      · rename_i hlo
        obtain rfl := List.mem_singleton.mp h
        exact ⟨[], rfl, fun _ hx => absurd hx List.not_mem_nil,
          ⟨by simp [hlo], fun m _ => Nat.zero_le m⟩, rfl⟩
      · cases h
  | succ fuel ih =>
      intro lo hi c c' h
      rcases mem_iter_succ.mp h with ⟨hlo, rfl⟩ | ⟨hhi, c₁, hc₁, -, hmem⟩
      · exact ⟨[], rfl, fun _ hx => absurd hx List.not_mem_nil,
          ⟨by simp [hlo], fun m _ => Nat.zero_le m⟩, rfl⟩
      · obtain ⟨x, xs, hrest, hp, rfl⟩ := Re.mem_cls.mp hc₁
        obtain ⟨w, hw, hall, hin, hcaps⟩ := ih hmem
        refine ⟨x :: w, ?_, ?_, Within.succ hhi hin, hcaps⟩
        · rw [hrest, List.cons_append]
          exact congrArg (x :: ·) hw
        · intro y hy
          rcases List.mem_cons.mp hy with rfl | hy
          · exact hp
          · exact hall y hy

theorem iter_cls_complete {p : Char → Bool} {greedy : Bool} {rest : List Char} :
    ∀ {w : List Char} {fuel lo : Nat} {hi : Option Nat} {c : Cursor},
      c.rest = w ++ rest → w.length ≤ fuel → (∀ x ∈ w, p x = true) → Within lo hi w.length →
        ∃ c' ∈ iter (Re.cls p).run greedy fuel lo hi c, c'.rest = rest ∧ c'.caps = c.caps := by
  intro w
  induction w with
  | nil =>
      intro fuel lo hi c hrest _ _ hin
      have hlo : lo = 0 := Nat.le_zero.mp hin.1
      refine ⟨c, ?_, hrest, rfl⟩
      cases fuel with
      | zero => rw [iter, if_pos hlo]; exact List.mem_singleton.mpr rfl
      | succ fuel => exact mem_iter_succ.mpr (.inl ⟨hlo, rfl⟩)
  | cons x w ih =>
      intro fuel lo hi c hrest hfuel hall hin
      cases fuel with
      | zero => exact absurd hfuel (by simp)
      | succ fuel =>
          have hhi : hi ≠ some 0 := fun h => absurd (hin.2 0 h) (by simp)
          have hall' : ∀ y ∈ w, p y = true := fun y hy => hall y (List.mem_cons_of_mem _ hy)
          obtain ⟨c', hc', hr, hcaps⟩ := @ih fuel (lo - 1) (hi.map (· - 1))
            ⟨some x, w ++ rest, c.caps⟩ rfl (Nat.le_of_succ_le_succ hfuel) hall' (Within.pred hin)
          refine ⟨c', mem_iter_succ.mpr (.inr ⟨hhi, _, ?_, ?_, hc'⟩), hr, hcaps⟩
          · exact Re.mem_cls.mpr ⟨x, w ++ rest, hrest, hall x List.mem_cons_self, rfl⟩
          · rw [hrest]
            exact Nat.lt_succ_self _

theorem Re.mem_rep_cls {p : Char → Bool} {greedy : Bool} {lo : Nat} {hi : Option Nat}
    {c : Cursor} {rest : List Char} :
    (∃ c' ∈ (Re.rep greedy lo hi (.cls p)).run c, c'.rest = rest ∧ c'.caps = c.caps)
      ↔ ∃ w, c.rest = w ++ rest ∧ (∀ x ∈ w, p x = true) ∧ Within lo hi w.length := by
  constructor
  · rintro ⟨c', hc', rfl, -⟩
    obtain ⟨w, hw, hall, hin, -⟩ := iter_cls_sound hc'
    exact ⟨w, hw, hall, hin⟩
  · rintro ⟨w, hw, hall, hin⟩
    exact iter_cls_complete hw (by rw [hw]; simp) hall hin

/-! ## Words -/

theorem Re.fullmatch_iff {r : Re} {s : String} :
    r.fullmatch s = true ↔ ∃ c ∈ r.run (Cursor.start s.toList), c.rest = [] := by
  rw [Re.fullmatch, Re.fullmatch?, Option.isSome_map, List.find?_isSome]
  simp only [List.isEmpty_iff]

/-- A text made of one character of the first class and up to `n` of the second. -/
theorem Re.fullmatch_word {p q : Char → Bool} {n : Nat} {s : String} :
    (Re.seq (.cls p) (.rept 0 n (.cls q))).fullmatch s = true
      ↔ ∃ x w, s.toList = x :: w ∧ p x = true ∧ (∀ y ∈ w, q y = true) ∧ w.length ≤ n := by
  rw [Re.fullmatch_iff]
  constructor
  · rintro ⟨c', hc', hend⟩
    obtain ⟨c₁, hc₁, hc'⟩ := Re.mem_seq.mp hc'
    obtain ⟨x, w, hrest, hp, rfl⟩ := Re.mem_cls.mp hc₁
    obtain ⟨w', hw', hall, hin, -⟩ := iter_cls_sound hc'
    rw [hend, List.append_nil] at hw'
    have hww : w = w' := hw'
    subst hww
    exact ⟨x, w, hrest, hp, hall, hin.2 n rfl⟩
  · rintro ⟨x, w, hs, hp, hall, hle⟩
    have hin : Within 0 (some n) w.length :=
      ⟨Nat.zero_le _, fun m hm => Option.some.inj hm ▸ hle⟩
    obtain ⟨c', hc', hend, -⟩ := (@Re.mem_rep_cls q true 0 (some n) ⟨some x, w, []⟩ []).mpr
      ⟨w, (List.append_nil w).symm, hall, hin⟩
    exact ⟨c', Re.mem_seq.mpr ⟨_, Re.mem_cls.mpr ⟨x, w, hs, hp, rfl⟩, hc'⟩, hend⟩

/-! ## Groups -/

/-- No group: nothing is captured. -/
def Re.groupless : Re → Bool
  | .seq a b => a.groupless && b.groupless
  | .alt a b => a.groupless && b.groupless
  | .rep _ _ _ r => r.groupless
  | .group _ _ => false
  | _ => true

theorem iter_caps {f : Cursor → List Cursor} (hf : ∀ c, ∀ c' ∈ f c, c'.caps = c.caps)
    {greedy : Bool} {fuel : Nat} : ∀ {lo : Nat} {hi : Option Nat} {c c' : Cursor},
      c' ∈ iter f greedy fuel lo hi c → c'.caps = c.caps := by
  induction fuel with
  | zero =>
      intro lo hi c c' h
      rw [iter] at h
      split at h
      · obtain rfl := List.mem_singleton.mp h
        rfl
      · cases h
  | succ fuel ih =>
      intro lo hi c c' h
      rcases mem_iter_succ.mp h with ⟨-, rfl⟩ | ⟨-, c₁, hc₁, -, hmem⟩
      · rfl
      · exact (ih hmem).trans (hf c c₁ hc₁)

theorem Re.run_caps : ∀ {r : Re}, r.groupless = true → ∀ c, ∀ c' ∈ r.run c, c'.caps = c.caps
  | .eps, _, c, c', h => by
      obtain rfl := List.mem_singleton.mp h
      rfl
  | .cls p, _, c, c', h => by
      obtain ⟨x, xs, -, -, rfl⟩ := Re.mem_cls.mp h
      rfl
  | .seq a b, hg, c, c', h => by
      obtain ⟨ha, hb⟩ := Bool.and_eq_true_iff.mp hg
      obtain ⟨c₁, h₁, h₂⟩ := Re.mem_seq.mp h
      exact (Re.run_caps hb c₁ c' h₂).trans (Re.run_caps ha c c₁ h₁)
  | .alt a b, hg, c, c', h => by
      obtain ⟨ha, hb⟩ := Bool.and_eq_true_iff.mp hg
      rcases List.mem_append.mp h with h | h
      · exact Re.run_caps ha c c' h
      · exact Re.run_caps hb c c' h
  | .rep greedy lo hi r, hg, c, c', h =>
      iter_caps (f := r.run) (fun c => Re.run_caps (r := r) hg c) h
  | .group i r, hg, c, c', h => nomatch hg
  | .bos, _, c, c', h => by
      simp only [Re.run] at h
      split at h
      · obtain rfl := List.mem_singleton.mp h
        rfl
      · cases h
  | .eos, _, c, c', h => by
      simp only [Re.run] at h
      split at h
      · obtain rfl := List.mem_singleton.mp h
        rfl
      · cases h
  | .wordB, _, c, c', h => by
      simp only [Re.run] at h
      split at h
      · obtain rfl := List.mem_singleton.mp h
        rfl
      · cases h

/-- A captured word: one character of the first class, then any number of the second. -/
theorem Re.captured_word {b : Re} {p q : Char → Bool} {i : Nat} {c c' : Cursor}
    (hb : b.groupless = true) (hc : c.caps = [])
    (h : c' ∈ (Re.seq (.group i (.seq (.cls p) (.star (.cls q)))) b).run c) :
    ∃ x w, c'.caps = [(i, x :: w)] ∧ p x = true ∧ ∀ y ∈ w, q y = true := by
  obtain ⟨c₁, hgroup, hrest⟩ := Re.mem_seq.mp h
  obtain ⟨c₂, hword, rfl⟩ := Re.mem_group.mp hgroup
  obtain ⟨c₃, hfirst, hmore⟩ := Re.mem_seq.mp hword
  obtain ⟨x, xs, hx, hp, rfl⟩ := Re.mem_cls.mp hfirst
  obtain ⟨w, hw, hall, -, hcaps⟩ := iter_cls_sound hmore
  have hsplit : c.rest = (x :: w) ++ c₂.rest := by
    rw [hx, List.cons_append, ← hw]
  have htaken : c.rest.take (c.rest.length - c₂.rest.length) = x :: w := by
    rw [hsplit, List.length_append, Nat.add_sub_cancel, List.take_left]
  refine ⟨x, w, ?_, hp, hall⟩
  have hcaps' : c₂.caps = [] := hcaps.trans hc
  have hend := Re.run_caps hb _ _ hrest
  rw [htaken, hcaps', List.nil_append] at hend
  exact hend

/-- What a group that was captured once reads. -/
theorem Match.group?_of_caps {m : Match} {i : Nat} {w : List Char} (h : m.caps = [(i, w)]) :
    m.group? i = some (String.ofList w) := by
  simp [Match.group?, h]

/-- The characters a group may capture. -/
def Re.GroupReads : Re → Nat → Char → Prop
  | .seq a b, i, x => a.GroupReads i x ∨ b.GroupReads i x
  | .alt a b, i, x => a.GroupReads i x ∨ b.GroupReads i x
  | .rep _ _ _ r, i, x => r.GroupReads i x
  | .group j r, i, x => (j = i ∧ r.Reads x) ∨ r.GroupReads i x
  | _, _, _ => False

/-- What was captured on the way from one cursor to another. -/
def Captures (A : Nat → Char → Prop) (c c' : Cursor) : Prop :=
  ∀ g ∈ c'.caps, g ∈ c.caps ∨ ∀ x ∈ g.2, A g.1 x

theorem Captures.refl {A : Nat → Char → Prop} {c c' : Cursor} (h : c'.caps = c.caps) :
    Captures A c c' := fun _ hg => .inl (h ▸ hg)

theorem Captures.trans {A : Nat → Char → Prop} {c₁ c₂ c₃ : Cursor} (h₁ : Captures A c₁ c₂)
    (h₂ : Captures A c₂ c₃) : Captures A c₁ c₃ := by
  intro g hg
  rcases h₂ g hg with h | h
  · exact h₁ g h
  · exact .inr h

theorem Captures.mono {A B : Nat → Char → Prop} {c c' : Cursor} (hAB : ∀ i x, A i x → B i x)
    (h : Captures A c c') : Captures B c c' := by
  intro g hg
  rcases h g hg with h | h
  · exact .inl h
  · exact .inr fun x hx => hAB _ x (h x hx)

theorem iter_captures {A : Nat → Char → Prop} {f : Cursor → List Cursor}
    (hf : ∀ c, ∀ c' ∈ f c, Captures A c c') {greedy : Bool} {fuel : Nat} :
    ∀ {lo : Nat} {hi : Option Nat} {c c' : Cursor}, c' ∈ iter f greedy fuel lo hi c →
      Captures A c c' := by
  induction fuel with
  | zero =>
      intro lo hi c c' h
      rw [iter] at h
      split at h
      · obtain rfl := List.mem_singleton.mp h
        exact .refl rfl
      · cases h
  | succ fuel ih =>
      intro lo hi c c' h
      rcases mem_iter_succ.mp h with ⟨-, rfl⟩ | ⟨-, c₁, hc₁, -, hmem⟩
      · exact .refl rfl
      · exact (hf c c₁ hc₁).trans (ih hmem)

/-- A group captures only characters its pattern reads. -/
theorem Re.run_captures : ∀ (r : Re) (c : Cursor), ∀ c' ∈ r.run c, Captures r.GroupReads c c'
  | .eps, c, c', h => .refl (Re.run_caps (r := .eps) rfl c c' h)
  | .cls p, c, c', h => .refl (Re.run_caps (r := .cls p) rfl c c' h)
  | .bos, c, c', h => .refl (Re.run_caps (r := .bos) rfl c c' h)
  | .eos, c, c', h => .refl (Re.run_caps (r := .eos) rfl c c' h)
  | .wordB, c, c', h => .refl (Re.run_caps (r := .wordB) rfl c c' h)
  | .seq a b, c, c', h => by
      obtain ⟨c₁, h₁, h₂⟩ := Re.mem_seq.mp h
      exact ((a.run_captures c c₁ h₁).mono fun _ _ => Or.inl).trans
        ((b.run_captures c₁ c' h₂).mono fun _ _ => Or.inr)
  | .alt a b, c, c', h => by
      rcases List.mem_append.mp h with h | h
      · exact (a.run_captures c c' h).mono fun _ _ => Or.inl
      · exact (b.run_captures c c' h).mono fun _ _ => Or.inr
  | .rep greedy lo hi r, c, c', h =>
      iter_captures (f := r.run) (fun c => r.run_captures c) h
  | .group j r, c, c', h => by
      obtain ⟨c₁, hc₁, rfl⟩ := Re.mem_group.mp h
      intro g hg
      rcases List.mem_append.mp hg with hg | hg
      · rcases r.run_captures c c₁ hc₁ g hg with hold | hread
        · exact .inl hold
        · exact .inr fun x hx => .inr (hread x hx)
      · obtain rfl := List.mem_singleton.mp hg
        obtain ⟨w, hw, hread⟩ := r.run_advance c c₁ hc₁
        have htaken : c.rest.take (c.rest.length - c₁.rest.length) = w := by
          rw [hw, List.length_append, Nat.add_sub_cancel, List.take_left]
        refine .inr fun x hx => .inl ⟨rfl, hread x ?_⟩
        rwa [← htaken]

/-- The captures of a match are read by their groups. -/
def Match.Good (r : Re) (m : Match) : Prop := ∀ g ∈ m.caps, ∀ x ∈ g.2, r.GroupReads g.1 x

theorem Re.good_of_run {r : Re} {c c' : Cursor} (hc : c.caps = []) (h : c' ∈ r.run c) :
    (Match.ofCursors c c').Good r := by
  intro g hg x hx
  rcases r.run_captures c c' h g hg with hold | hread
  · rw [hc] at hold
    cases hold
  · exact hread x hx

theorem Re.good_of_match {r : Re} {s : String} {m : Match} (h : r.match? s = some m) :
    m.Good r := by
  obtain ⟨c', hc', rfl⟩ := Option.map_eq_some_iff.mp h
  exact Re.good_of_run rfl (List.mem_of_head? hc')

theorem Re.good_of_scan {r : Re} : ∀ (fuel : Nat) (c : Cursor) (m : Match),
    .inr m ∈ r.scan fuel c → m.Good r
  | 0, c, m, h => by cases h
  | fuel + 1, c, m, h => by
      rw [Re.scan] at h
      split at h
      · cases h
      · split at h
        · rename_i c' hc'
          split at h
          · rcases List.mem_cons.mp h with heq | h
            · obtain rfl := Sum.inr.inj heq
              exact Re.good_of_run (c := { c with caps := [] }) rfl (List.mem_of_head? hc')
            · exact Re.good_of_scan fuel c' m h
          · rcases List.mem_cons.mp h with heq | h
            · cases heq
            · exact Re.good_of_scan fuel _ m h
        · rcases List.mem_cons.mp h with heq | h
          · cases heq
          · exact Re.good_of_scan fuel _ m h

theorem Re.good_of_findall {r : Re} {s : String} {m : Match} (h : m ∈ r.findall s) :
    m.Good r := by
  obtain ⟨t, ht, hm⟩ := List.mem_filterMap.mp h
  cases t with
  | inl c => cases hm
  | inr m' =>
      obtain rfl := Option.some.inj hm
      exact Re.good_of_scan _ _ _ ht

/-- The text of a group, all of it read by the group. -/
theorem Match.Good.group? {r : Re} {m : Match} {i : Nat} {t : String} (h : m.Good r)
    (ht : m.group? i = some t) : ∀ x ∈ t.toList, r.GroupReads i x := by
  obtain ⟨g, hg, rfl⟩ := Option.map_eq_some_iff.mp ht
  have hi : g.1 = i := by simpa using List.find?_some hg
  intro x hx
  rw [String.toList_ofList] at hx
  rw [← hi]
  exact h g (List.mem_reverse.mp (List.mem_of_find?_eq_some hg)) x hx

/-! ## Substitutions that find nothing -/

theorem Re.scan_untouched {p : Char → Bool} {r : Re} : ∀ (cs : List Char) (prev : Option Char)
    (caps : List (Nat × List Char)), (∀ x ∈ cs, p x = false) →
      (Re.seq (.cls p) r).scan cs.length ⟨prev, cs, caps⟩ = cs.map Sum.inl := by
  intro cs
  induction cs with
  | nil => intro prev caps _; rfl
  | cons x xs ih =>
      intro prev caps h
      have hx : p x = false := h x List.mem_cons_self
      have hrun : (Re.seq (.cls p) r).run ⟨prev, x :: xs, []⟩ = [] := by
        simp [Re.run, hx]
      have hrest := ih (some x) [] fun y hy => h y (List.mem_cons_of_mem _ hy)
      simp only [List.length_cons, Re.scan, hrun, List.head?_nil, List.map_cons, hrest]

/-- A pattern that begins with a class no character of the text is in. -/
theorem Re.sub_untouched {p : Char → Bool} {r : Re} {f : Match → String} {s : String}
    (h : ∀ x ∈ s.toList, p x = false) : (Re.seq (.cls p) r).sub f s = s := by
  rw [Re.sub, Re.tokens, Cursor.start, Re.scan_untouched s.toList none [] h]
  rw [← String.toList_inj]
  simp [List.flatMap_map]

/-- A pattern that matches nowhere leaves every character over. -/
theorem Re.scan_of_search {r : Re} : ∀ (cs : List Char) (prev : Option Char)
    (caps : List (Nat × List Char)), r.searchFrom prev cs = false →
      r.scan cs.length ⟨prev, cs, caps⟩ = cs.map Sum.inl
  | [], _, _, _ => rfl
  | x :: xs, prev, caps, h => by
      rw [Re.searchFrom, Bool.or_eq_false_iff] at h
      have hrun : r.run ⟨prev, x :: xs, []⟩ = [] := by simpa using h.1
      have hrest := Re.scan_of_search xs (some x) [] h.2
      simp only [List.length_cons, Re.scan, hrun, List.head?_nil, List.map_cons, hrest]

theorem Re.sub_of_search {r : Re} {f : Match → String} {s : String}
    (h : r.search s = false) : r.sub f s = s := by
  rw [Re.sub, Re.tokens, Cursor.start, Re.scan_of_search s.toList none [] h,
    ← String.toList_inj]
  simp [List.flatMap_map]

/-- A character that is left over was in the text. -/
theorem Re.scan_chars {r : Re} : ∀ (fuel : Nat) (c : Cursor) (x : Char),
    .inl x ∈ r.scan fuel c → x ∈ c.rest
  | 0, _, _, h => by cases h
  | fuel + 1, ⟨prev, rest, caps⟩, x, h => by
      rw [Re.scan] at h
      cases rest with
      | nil => cases h
      | cons y ys =>
          dsimp only at h
          split at h
          · rename_i c' hc'
            split at h
            · rcases List.mem_cons.mp h with heq | h
              · cases heq
              · obtain ⟨w, hw, -⟩ := r.run_advance _ c' (List.mem_of_head? hc')
                have hmem := Re.scan_chars fuel c' x h
                dsimp only at hw
                rw [hw]
                exact List.mem_append_right w hmem
            · rcases List.mem_cons.mp h with heq | h
              · obtain rfl := Sum.inl.inj heq
                exact List.mem_cons_self
              · exact List.mem_cons_of_mem y (Re.scan_chars fuel _ x h)
          · rcases List.mem_cons.mp h with heq | h
            · obtain rfl := Sum.inl.inj heq
              exact List.mem_cons_self
            · exact List.mem_cons_of_mem y (Re.scan_chars fuel _ x h)

end Regex
