import IpaDiagnose.Lib.RegexWords

/-!
# Patterns at the end of a text

A pattern is read in front of a character as it is read at the end of a
text, as far as it does not read that character. And what a match reads,
as a word: built from the words of the pattern's parts.
-/

namespace Regex

/-! ## A text that goes on -/

def Cursor.extend (b : List Char) (c : Cursor) : Cursor := { c with rest := c.rest ++ b }

/-- The pattern does not ask for the end of the text. -/
def Re.endless : Re → Bool
  | .eos => false
  | .seq a b => a.endless && b.endless
  | .alt a b => a.endless && b.endless
  | .rep _ _ _ r => r.endless
  | .group _ r => r.endless
  | _ => true

theorem Re.endless_seqAll : ∀ {rs : List Re}, (∀ r ∈ rs, r.endless = true) →
    (Re.seqAll rs).endless = true
  | [], _ => rfl
  | [r], h => h r (by simp)
  | _ :: _ :: _, h => Bool.and_eq_true_iff.mpr
      ⟨h _ (by simp), Re.endless_seqAll fun r hr => h r (List.mem_cons_of_mem _ hr)⟩

theorem Re.endless_altAll : ∀ {rs : List Re}, (∀ r ∈ rs, r.endless = true) →
    (Re.altAll rs).endless = true
  | [], _ => rfl
  | [r], h => h r (by simp)
  | _ :: _ :: _, h => Bool.and_eq_true_iff.mpr
      ⟨h _ (by simp), Re.endless_altAll fun r hr => h r (List.mem_cons_of_mem _ hr)⟩

theorem Advance.length_le {A : Char → Prop} {c c' : Cursor} (h : Advance A c c') :
    c'.rest.length ≤ c.rest.length := by
  obtain ⟨w, hw, -⟩ := h
  rw [hw, List.length_append]
  exact Nat.le_add_left _ _

/-- More fuel than characters makes no difference. -/
theorem iter_fuel {f : Cursor → List Cursor} {greedy : Bool} {n : Nat} :
    ∀ {m lo : Nat} {hi : Option Nat} {c : Cursor}, c.rest.length ≤ n → c.rest.length ≤ m →
      iter f greedy n lo hi c = iter f greedy m lo hi c := by
  have hzero : ∀ {m lo : Nat} {hi : Option Nat} {c : Cursor}, c.rest.length ≤ 0 →
      iter f greedy m lo hi c = if lo = 0 then [c] else [] := by
    intro m lo hi c hc
    cases m with
    | zero => rfl
    | succ m =>
        have hnone : (f c).flatMap (fun c' => if c'.rest.length < c.rest.length
            then iter f greedy m (lo - 1) (hi.map (· - 1)) c' else []) = [] := by
          refine List.flatMap_eq_nil_iff.mpr fun c' _ => ?_
          rw [if_neg (by omega)]
        simp only [iter, hnone]
        cases greedy <;> simp
  induction n with
  | zero =>
      intro m lo hi c hc _
      rw [hzero hc, hzero hc]
  | succ n ih =>
      intro m lo hi c hn hm
      cases m with
      | zero => rw [hzero hm, hzero hm]
      | succ m =>
          have hsame : (f c).flatMap (fun c' => if c'.rest.length < c.rest.length
              then iter f greedy n (lo - 1) (hi.map (· - 1)) c' else [])
                = (f c).flatMap fun c' => if c'.rest.length < c.rest.length
              then iter f greedy m (lo - 1) (hi.map (· - 1)) c' else [] := by
            rw [List.flatMap_def, List.flatMap_def]
            congr 1
            refine List.map_congr_left fun c' _ => ?_
            split
            · exact ih (by omega) (by omega)
            · rfl
          simp only [iter, hsame]

/-- The cursors that leave the added text unread. -/
def inside (b : List Char) (cs : List Cursor) : List Cursor :=
  cs.filter fun c => b.length ≤ c.rest.length

theorem inside_append (b : List Char) (cs cs' : List Cursor) :
    inside b (cs ++ cs') = inside b cs ++ inside b cs' := List.filter_append ..

theorem inside_extend (b : List Char) (c : Cursor) : inside b [c.extend b] = [c.extend b] := by
  simp [inside, Cursor.extend]

/-- A cursor that has read of the added text does not come back. -/
theorem inside_flatMap {b : List Char} {cs cs' : List Cursor} {f g : Cursor → List Cursor}
    (hcs : inside b cs = cs'.map (Cursor.extend b))
    (hf : ∀ c ∈ cs, ∀ c' ∈ f c, c'.rest.length ≤ c.rest.length)
    (hfg : ∀ c ∈ cs', inside b (f (c.extend b)) = (g c).map (Cursor.extend b)) :
    inside b (cs.flatMap f) = (cs'.flatMap g).map (Cursor.extend b) := by
  have hin : inside b (cs.flatMap f) = (inside b cs).flatMap fun c => inside b (f c) := by
    clear hcs hfg
    induction cs with
    | nil => rfl
    | cons c cs ih =>
        have ih := ih fun d hd => hf d (List.mem_cons_of_mem _ hd)
        rw [List.flatMap_cons, inside_append, ih]
        by_cases hc : b.length ≤ c.rest.length
        · have hcons : inside b (c :: cs) = c :: inside b cs :=
            List.filter_cons_of_pos (by simpa using hc)
          rw [hcons, List.flatMap_cons]
        · have hnone : inside b (f c) = [] := by
            refine List.filter_eq_nil_iff.mpr fun c' hc' => ?_
            have := hf c (by simp) c' hc'
            simp only [decide_eq_true_eq]
            omega
          have hcons : inside b (c :: cs) = inside b cs :=
            List.filter_cons_of_neg (by simpa using hc)
          rw [hnone, hcons, List.nil_append]
  rw [hin, hcs, List.flatMap_map, List.map_flatMap, List.flatMap_def, List.flatMap_def]
  congr 1
  exact List.map_congr_left hfg

theorem iter_extend {A : Char → Prop} {b : List Char} {f : Cursor → List Cursor} {greedy : Bool}
    (hf : ∀ c, ∀ c' ∈ f c, Advance A c c')
    (hrun : ∀ c, inside b (f (c.extend b)) = (f c).map (Cursor.extend b)) (n : Nat) :
    ∀ lo hi c, inside b (iter f greedy n lo hi (c.extend b))
      = (iter f greedy n lo hi c).map (Cursor.extend b) := by
  have hstop : ∀ (lo : Nat) (c : Cursor), inside b (if lo = 0 then [c.extend b] else [])
      = (if lo = 0 then [c] else []).map (Cursor.extend b) := by
    intro lo c
    split
    · exact inside_extend b c
    · rfl
  induction n with
  | zero => exact fun lo hi c => hstop lo c
  | succ n ih =>
      intro lo hi c
      have hmore : inside b (if hi = some 0 then [] else (f (c.extend b)).flatMap fun c' =>
          if c'.rest.length < (c.extend b).rest.length
          then iter f greedy n (lo - 1) (hi.map (· - 1)) c' else [])
            = (if hi = some 0 then [] else (f c).flatMap fun c' =>
          if c'.rest.length < c.rest.length
          then iter f greedy n (lo - 1) (hi.map (· - 1)) c' else []).map (Cursor.extend b) := by
        split
        · rfl
        refine inside_flatMap (hrun c) ?_ ?_
        · intro c₁ _ c' hc'
          split at hc'
          · exact (iter_advance hf _ _ _ _ _ c' hc').length_le
          · cases hc'
        · intro c₁ _
          have hlt : (c₁.extend b).rest.length < (c.extend b).rest.length
              ↔ c₁.rest.length < c.rest.length := by
            simp [Cursor.extend]
          rw [if_congr hlt rfl rfl]
          split
          · exact ih _ _ _
          · rfl
      simp only [iter]
      split
      · rw [inside_append, hmore, hstop, List.map_append]
      · rw [inside_append, hmore, hstop, List.map_append]

/-- The pattern is found in front of an added text as at the end, as far
as it leaves the added text unread. -/
theorem Re.run_extend {b : List Char} (hb : wordAt b.head? = false) : ∀ (r : Re),
    r.endless = true → ∀ c, inside b (r.run (c.extend b)) = (r.run c).map (Cursor.extend b)
  | .eps, _, c => inside_extend b c
  | .cls p, _, c => by
      rcases hr : c.rest with _ | ⟨x, xs⟩
      · have hnone : (Re.cls p).run c = [] := by simp [Re.run, hr]
        rw [hnone, List.map_nil]
        refine List.filter_eq_nil_iff.mpr fun c' hc' => ?_
        obtain ⟨x, xs, hx, -, rfl⟩ := Re.mem_cls.mp hc'
        replace hx : c.rest ++ b = x :: xs := hx
        rw [hr, List.nil_append] at hx
        simp [hx]
      · simp only [Re.run, Cursor.extend, hr, List.cons_append]
        split
        · exact inside_extend b ⟨some x, xs, c.caps⟩
        · rfl
  | .seq p q, h, c => by
      obtain ⟨hp, hq⟩ := Bool.and_eq_true_iff.mp h
      exact inside_flatMap (Re.run_extend hb p hp c)
        (fun c₁ _ c' hc' => (q.run_advance c₁ c' hc').length_le)
        fun c₁ _ => Re.run_extend hb q hq c₁
  | .alt p q, h, c => by
      obtain ⟨hp, hq⟩ := Bool.and_eq_true_iff.mp h
      simp only [Re.run]
      rw [inside_append, Re.run_extend hb p hp, Re.run_extend hb q hq, List.map_append]
  | .rep greedy lo hi r, h, c => by
      have hfuel : (Re.rep greedy lo hi r).run c
          = iter r.run greedy (c.extend b).rest.length lo hi c :=
        iter_fuel (Nat.le_refl _) (by simp [Cursor.extend])
      rw [hfuel]
      exact iter_extend (fun c c' => r.run_advance c c') (Re.run_extend hb r h) _ lo hi c
  | .group i r, h, c => by
      have hrun := Re.run_extend hb r h c
      simp only [Re.run]
      have hcap : ∀ c' ∈ r.run c, Cursor.extend b { c' with
            caps := c'.caps ++ [(i, c.rest.take (c.rest.length - c'.rest.length))] }
          = { c'.extend b with caps := c'.caps ++ [(i, (c.extend b).rest.take
              ((c.extend b).rest.length - (c'.extend b).rest.length))] } := by
        intro c' _
        have hlen : (c.rest ++ b).length - (c'.rest ++ b).length
            = c.rest.length - c'.rest.length := by
          rw [List.length_append, List.length_append]
          omega
        simp only [Cursor.extend, hlen]
        rw [List.take_append_of_le_length (Nat.sub_le _ _)]
      rw [List.map_map, inside, List.filter_map]
      show ((inside b (r.run (c.extend b))).map _) = _
      rw [hrun, List.map_map]
      exact List.map_congr_left fun c' hc' => (hcap c' hc').symm
  | .bos, _, c => by
      simp only [Re.run]
      show inside b (if c.prev.isNone then [c.extend b] else []) = _
      split
      · exact inside_extend b c
      · rfl
  | .wordB, _, c => by
      have hhead : wordAt (c.extend b).rest.head? = wordAt c.rest.head? := by
        rcases hr : c.rest with _ | ⟨x, xs⟩
        · rw [Cursor.extend, hr, List.nil_append, hb]
          rfl
        · rw [Cursor.extend, hr]
          rfl
      simp only [Re.run]
      rw [hhead]
      show inside b (if wordAt c.prev != wordAt c.rest.head? then _ else _) = _
      split
      · exact inside_extend b c
      · rfl

/-! ## In front of a character that is not read -/

theorem find?_inside {b : List Char} {q : Cursor → Bool} {cs : List Cursor}
    (h : ∀ c ∈ cs, q c = true → b.length ≤ c.rest.length) :
    (inside b cs).find? q = cs.find? q := by
  induction cs with
  | nil => rfl
  | cons c cs ih =>
      have ih := ih fun d hd => h d (List.mem_cons_of_mem _ hd)
      by_cases hc : b.length ≤ c.rest.length
      · have hcons : inside b (c :: cs) = c :: inside b cs :=
          List.filter_cons_of_pos (by simpa using hc)
        rw [hcons, List.find?_cons, List.find?_cons, ih]
      · have hcons : inside b (c :: cs) = inside b cs :=
          List.filter_cons_of_neg (by simpa using hc)
        have hq : ¬ q c = true := fun hq => hc (h c (by simp) hq)
        rw [hcons, List.find?_cons_of_neg hq, ih]

/-- The first match that is asked for in front of a character is the one
at the end of a text, if none that is asked for reads the character. -/
theorem Re.find?_append {r : Re} {q : List Char → Bool} {prev : Option Char} {xs ys : List Char}
    {w : Char} (hw : word w = false) (hend : r.endless = true)
    (hq : ∀ zs, q (zs ++ w :: ys) = q zs)
    (hstay : ∀ c ∈ r.run ⟨prev, xs ++ w :: ys, []⟩, q c.rest = true →
      ys.length < c.rest.length) :
    (r.run ⟨prev, xs ++ w :: ys, []⟩).find? (fun c => q c.rest)
      = ((r.run ⟨prev, xs, []⟩).find? fun c => q c.rest).map (Cursor.extend (w :: ys)) := by
  have hrun := Re.run_extend (b := w :: ys) hw r hend ⟨prev, xs, []⟩
  rw [← find?_inside (b := w :: ys) fun c hc hq => hstay c hc hq]
  show (inside (w :: ys) (r.run (Cursor.extend (w :: ys) ⟨prev, xs, []⟩))).find? _ = _
  rw [hrun, List.find?_map]
  congr 2
  funext c
  exact hq c.rest

/-! ## The words of a pattern -/

/-- Whatever a match of the pattern reads has the property. -/
def Re.Words (P : List Char → Prop) (r : Re) : Prop :=
  ∀ c, ∀ c' ∈ r.run c, ∃ m, c.rest = m ++ c'.rest ∧ P m

variable {P Q : List Char → Prop} {a b r : Re}

theorem Re.Words.mono (h : r.Words P) (hPQ : ∀ m, P m → Q m) : r.Words Q := by
  intro c c' hc'
  obtain ⟨m, hm, hP⟩ := h c c' hc'
  exact ⟨m, hm, hPQ m hP⟩

theorem Re.Words.eps (h : P []) : Re.eps.Words P := by
  intro c c' hc'
  obtain rfl := List.mem_singleton.mp hc'
  exact ⟨[], rfl, h⟩

theorem Re.Words.cls {p : Char → Bool} (h : ∀ x, p x = true → P [x]) : (Re.cls p).Words P := by
  intro c c' hc'
  obtain ⟨x, xs, hx, hp, rfl⟩ := Re.mem_cls.mp hc'
  exact ⟨[x], hx, h x hp⟩

theorem Re.Words.seq {R : List Char → Prop} (ha : a.Words P) (hb : b.Words Q)
    (h : ∀ m n, P m → Q n → R (m ++ n)) : (Re.seq a b).Words R := by
  intro c c' hc'
  obtain ⟨c₁, h₁, h₂⟩ := Re.mem_seq.mp hc'
  obtain ⟨m, hm, hP⟩ := ha c c₁ h₁
  obtain ⟨n, hn, hQ⟩ := hb c₁ c' h₂
  exact ⟨m ++ n, by rw [hm, hn, List.append_assoc], h m n hP hQ⟩

theorem Re.Words.alt (ha : a.Words P) (hb : b.Words P) : (Re.alt a b).Words P := by
  intro c c' hc'
  rcases List.mem_append.mp hc' with h | h
  · exact ha c c' h
  · exact hb c c' h

theorem Re.Words.altAll : ∀ {rs : List Re}, (∀ r ∈ rs, r.Words P) → (Re.altAll rs).Words P
  | [], _ => .cls nofun
  | [r], h => h r (by simp)
  | _ :: _ :: _, h => .alt (h _ (by simp)) (.altAll fun r hr => h r (List.mem_cons_of_mem _ hr))

/-- A match reads characters of the pattern's classes. -/
theorem Re.Words.reads (r : Re) : r.Words fun m => ∀ x ∈ m, r.Reads x := by
  intro c c' hc'
  obtain ⟨m, hm, hA⟩ := r.run_advance c c' hc'
  exact ⟨m, hm, hA⟩

/-- A sequence of classes reads a word of the same length. -/
theorem Re.Words.seqAll {β : Type} {p : β → Char → Bool} (xs : List β) :
    (Re.seqAll (xs.map fun x => Re.cls (p x))).Words
      (List.Forall₂ (fun x y => p x y = true) xs) := by
  induction xs with
  | nil => exact .eps .nil
  | cons x xs ih =>
      cases xs with
      | nil => exact .cls fun y hy => .cons hy .nil
      | cons x' xs =>
          refine .seq (P := fun m => ∃ y, m = [y] ∧ p x y = true)
            (.cls fun y hy => ⟨y, rfl, hy⟩) ih ?_
          rintro _ n ⟨y, rfl, hy⟩ hn
          exact .cons hy hn

end Regex
