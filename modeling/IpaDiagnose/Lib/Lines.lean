import Mathlib.Data.List.Basic

/-!
# Lines of a text

A text is cut at its line boundaries; a line that begins with a space
continues the one before it. `unfold_fold` says that folding, at any
places, changes nothing the reader sees: the physical lines of a text
unfold to the logical lines they were folded from.
-/

namespace Lines

/-! ## Cutting -/

/-- The characters that end a line. -/
def isBreak (c : Char) : Bool :=
  (10 ≤ c.toNat && c.toNat ≤ 13) || (28 ≤ c.toNat && c.toNat ≤ 30) || c.toNat == 0x85
    || c.toNat == 0x2028 || c.toNat == 0x2029

/-- One more character on the first line. -/
def consHead (c : Char) : List (List Char) → List (List Char)
  | [] => [[c]]
  | l :: ls => (c :: l) :: ls

/-- The lines of a text, without what ends them. A line feed after a
carriage return ends the same line. -/
def splitChars : List Char → List (List Char)
  | [] => []
  | '\r' :: '\n' :: cs => [] :: splitChars cs
  | c :: cs => if isBreak c then [] :: splitChars cs else consHead c (splitChars cs)

/-- No character of the line ends a line. -/
def Unbroken (l : List Char) : Prop := ∀ c ∈ l, isBreak c = false

theorem Unbroken.cons {c : Char} {l : List Char} (hc : isBreak c = false) (hl : Unbroken l) :
    Unbroken (c :: l) := by
  rintro d (_ | ⟨_, hd⟩)
  · exact hc
  · exact hl d hd

theorem Unbroken.append {l m : List Char} (hl : Unbroken l) (hm : Unbroken m) :
    Unbroken (l ++ m) := by
  intro c hc
  rcases List.mem_append.mp hc with h | h
  · exact hl c h
  · exact hm c h

theorem splitChars_cons {c : Char} {cs : List Char} (h : isBreak c = false) :
    splitChars (c :: cs) = consHead c (splitChars cs) := by
  have hr : c ≠ '\r' := by
    rintro rfl
    revert h
    decide
  rw [splitChars.eq_3 c cs (fun _ hc _ => hr hc), if_neg (by simp [h])]

theorem splitChars_newline (cs : List Char) : splitChars ('\n' :: cs) = [] :: splitChars cs := by
  rw [splitChars.eq_3 '\n' cs (fun _ hc _ => absurd hc (by decide)), if_pos (by decide)]

/-- A line and the line feed after it. -/
theorem splitChars_line {l : List Char} (hl : Unbroken l) (cs : List Char) :
    splitChars (l ++ '\n' :: cs) = l :: splitChars cs := by
  induction l with
  | nil => exact splitChars_newline cs
  | cons c l ih =>
      rw [List.cons_append, splitChars_cons (hl c List.mem_cons_self),
        ih fun d hd => hl d (List.mem_cons_of_mem _ hd)]
      rfl

/-- The lines of a text are unbroken. -/
theorem unbroken_of_mem {cs : List Char} : ∀ l ∈ splitChars cs, Unbroken l := by
  induction cs using splitChars.induct with
  | case1 => intro l hl; cases hl
  | case2 cs ih =>
      intro l hl
      rw [splitChars] at hl
      rcases List.mem_cons.mp hl with rfl | hl
      · exact fun c hc => absurd hc List.not_mem_nil
      · exact ih l hl
  | case3 c cs hne hbreak ih =>
      intro l hl
      rw [splitChars.eq_3 c cs hne, if_pos hbreak] at hl
      rcases List.mem_cons.mp hl with rfl | hl
      · exact fun c hc => absurd hc List.not_mem_nil
      · exact ih l hl
  | case4 c cs hne hbreak ih =>
      intro l hl
      have hc : isBreak c = false := by simpa using hbreak
      rw [splitChars.eq_3 c cs hne, if_neg hbreak] at hl
      cases hs : splitChars cs with
      | nil =>
          rw [hs] at hl
          obtain rfl := List.mem_singleton.mp hl
          exact Unbroken.cons hc fun c hc => absurd hc List.not_mem_nil
      | cons m ms =>
          rw [hs] at hl ih
          rcases List.mem_cons.mp hl with rfl | hl
          · exact Unbroken.cons hc (ih m List.mem_cons_self)
          · exact ih l (List.mem_cons_of_mem _ hl)

def splitlines (s : String) : List String := (splitChars s.toList).map String.ofList

/-! ## Folded lines -/

/-- What a physical line adds to the logical lines read so far, the last
one first. -/
def unfoldStep (back : List (List Char)) (raw : List Char) : List (List Char) :=
  match raw, back with
  | ' ' :: more, last :: back => (last ++ more) :: back
  | _, _ => raw :: back

/-- A line that begins with a space continues the one before it. -/
def unfoldChars (lines : List (List Char)) : List (List Char) :=
  (lines.foldl unfoldStep []).reverse

/-- The physical lines of a logical line that was folded between its
pieces. -/
def fold : List (List Char) → List (List Char)
  | [] => []
  | first :: more => first :: more.map (' ' :: ·)

theorem foldl_continuations (last : List Char) (back : List (List Char))
    (more : List (List Char)) :
    (more.map (' ' :: ·)).foldl unfoldStep (last :: back) = (last ++ more.flatten) :: back := by
  induction more generalizing last with
  | nil => simp
  | cons piece more ih =>
      simp only [List.map_cons, List.foldl_cons, unfoldStep, List.flatten_cons]
      rw [ih, List.append_assoc]

/-- A folding a writer may choose: the first piece is there, and does not
look like a continuation. -/
def Foldable : List (List Char) → Prop
  | [] => False
  | first :: _ => first.head? ≠ some ' '

theorem foldl_fold {pieces : List (List Char)} (h : Foldable pieces) (back : List (List Char)) :
    (fold pieces).foldl unfoldStep back = pieces.flatten :: back := by
  cases pieces with
  | nil => exact absurd h id
  | cons first more =>
      have hstep : unfoldStep back first = first :: back := by
        unfold unfoldStep
        split
        · exact absurd rfl h
        · rfl
      simp only [fold, List.foldl_cons, hstep, foldl_continuations, List.flatten_cons]

theorem foldl_folded {folds : List (List (List Char))} (h : ∀ p ∈ folds, Foldable p)
    (back : List (List Char)) :
    (folds.flatMap fold).foldl unfoldStep back
      = (folds.map List.flatten).reverse ++ back := by
  induction folds generalizing back with
  | nil => rfl
  | cons p folds ih =>
      have hrest := ih (fun q hq => h q (List.mem_cons_of_mem _ hq)) (p.flatten :: back)
      simp only [List.flatMap_cons, List.foldl_append, foldl_fold (h p List.mem_cons_self), hrest,
        List.map_cons, List.reverse_cons, List.append_assoc, List.singleton_append]

/-- Each physical line, ended by a line feed. -/
def ended (lines : List (List Char)) : List Char := lines.flatMap (· ++ ['\n'])

theorem splitChars_ended {lines : List (List Char)} (h : ∀ l ∈ lines, Unbroken l) :
    splitChars (ended lines) = lines := by
  induction lines with
  | nil => rfl
  | cons l lines ih =>
      have hrest := ih fun m hm => h m (List.mem_cons_of_mem _ hm)
      have hcons : ended (l :: lines) = l ++ '\n' :: ended lines := by simp [ended]
      rw [hcons, splitChars_line (h l List.mem_cons_self), hrest]

theorem unbroken_fold {pieces : List (List Char)} (h : Unbroken pieces.flatten) :
    ∀ l ∈ fold pieces, Unbroken l := by
  have hpiece : ∀ p ∈ pieces, Unbroken p :=
    fun p hp c hc => h c (List.mem_flatten.mpr ⟨p, hp, hc⟩)
  cases pieces with
  | nil => exact fun l hl => absurd hl List.not_mem_nil
  | cons first more =>
      intro l hl
      rcases List.mem_cons.mp hl with rfl | hl
      · exact hpiece _ List.mem_cons_self
      · obtain ⟨p, hp, rfl⟩ := List.mem_map.mp hl
        exact Unbroken.cons (by decide) (hpiece p (List.mem_cons_of_mem _ hp))

/-- However its lines are folded, a text unfolds to them. -/
theorem unfold_fold {folds : List (List (List Char))} (hfold : ∀ p ∈ folds, Foldable p)
    (hline : ∀ p ∈ folds, Unbroken p.flatten) :
    unfoldChars (splitChars (ended (folds.flatMap fold))) = folds.map List.flatten := by
  have hunbroken : ∀ l ∈ folds.flatMap fold, Unbroken l := by
    intro l hl
    obtain ⟨p, hp, hl⟩ := List.mem_flatMap.mp hl
    exact unbroken_fold (hline p hp) l hl
  rw [splitChars_ended hunbroken, unfoldChars, foldl_folded hfold, List.append_nil,
    List.reverse_reverse]

end Lines
