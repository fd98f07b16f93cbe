import Mathlib.Data.List.Infix

/-!
# Replacing names in a text, whole or in pieces

A finder says which name begins at a place of a text and how long it is.
A text is read from left to right, and a name is passed over once found.
Where a finder for each piece of a text agrees with the finder for the
text at every place of the piece, the pieces are read as the text is.
-/

namespace Pieces

variable {σ α : Type}

/-- From what is before a place, nearest first, and what is after it, the
name that begins there and its length. -/
abbrev Finder (σ α : Type) := List σ → List σ → Option (α × Nat)

inductive Token (σ α : Type) where
  | kept (x : σ)
  | name (a : α) (text : List σ)

/-! ## Reading -/

/-- What is read after so many characters that belong to a name. A name
without a character is none. -/
def tokens (find : Finder σ α) : Nat → List σ → List σ → List (Token σ α)
  | _, _, [] => []
  | skip + 1, before, x :: xs => tokens find skip (x :: before) xs
  | 0, before, x :: xs =>
      match find before (x :: xs) with
      | some (a, n + 1) => .name a ((x :: xs).take (n + 1)) :: tokens find n (x :: before) xs
      | _ => .kept x :: tokens find 0 (x :: before) xs

def Token.source : Token σ α → List σ
  | .kept x => [x]
  | .name _ text => text

def Token.render (f : α → List σ → List σ) : Token σ α → List σ
  | .kept x => [x]
  | .name a text => f a text

def source (toks : List (Token σ α)) : List σ := toks.flatMap Token.source

def render (f : α → List σ → List σ) (toks : List (Token σ α)) : List σ :=
  toks.flatMap (Token.render f)

variable {find find' : Finder σ α} {f : α → List σ → List σ} {toks : List (Token σ α)}

theorem render_name (a : α) (text : List σ) :
    render f (.name a text :: toks) = f a text ++ render f toks := rfl

theorem tokens_zero_cons (find : Finder σ α) (before : List σ) (x : σ) (xs : List σ) :
    (∃ a n, find before (x :: xs) = some (a, n + 1) ∧ tokens find 0 before (x :: xs)
        = .name a ((x :: xs).take (n + 1)) :: tokens find n (x :: before) xs)
      ∨ ((∀ a n, find before (x :: xs) ≠ some (a, n + 1)) ∧ tokens find 0 before (x :: xs)
        = .kept x :: tokens find 0 (x :: before) xs) := by
  rw [tokens]
  split
  · rename_i a n hfind
    exact .inl ⟨a, n, hfind, rfl⟩
  · rename_i hnone
    exact .inr ⟨hnone, rfl⟩

/-- Nothing of the text is lost. -/
theorem source_tokens (skip : Nat) (before xs : List σ) :
    source (tokens find skip before xs) = xs.drop skip := by
  induction xs generalizing skip before with
  | nil => cases skip <;> rfl
  | cons x xs ih =>
      cases skip with
      | succ skip => rw [tokens, ih, List.drop_succ_cons]
      | zero =>
          rcases tokens_zero_cons find before x xs with ⟨a, n, -, htok⟩ | ⟨-, htok⟩
          · have h := ih n (x :: before)
            rw [htok]
            show (x :: xs).take (n + 1) ++ source _ = _
            rw [h, List.take_succ_cons, List.cons_append, List.take_append_drop, List.drop_zero]
          · have h := ih 0 (x :: before)
            rw [htok]
            show [x] ++ source _ = _
            rw [h, List.drop_zero, List.drop_zero, List.singleton_append]

theorem replicate_append_cons (n : Nat) (x : σ) (xs : List σ) :
    List.replicate n x ++ x :: xs = List.replicate (n + 1) x ++ xs := by
  rw [List.replicate_succ', List.append_assoc, List.singleton_append]

/-- A character that no name begins with is passed by. -/
theorem tokens_replicate {x : σ} (h : ∀ seen rest, find seen (x :: rest) = none) (n : Nat)
    (before xs : List σ) : tokens find 0 before (List.replicate n x ++ xs)
      = List.replicate n (.kept x) ++ tokens find 0 (List.replicate n x ++ before) xs := by
  induction n generalizing before with
  | zero => rfl
  | succ n ih =>
      rw [← replicate_append_cons n x before, List.replicate_succ, List.cons_append, tokens, h]
      dsimp only
      rw [ih]
      rfl

/-- A name that is read was found. -/
theorem of_mem_tokens {skip : Nat} {before xs : List σ} {a : α} {text : List σ}
    (h : Token.name a text ∈ tokens find skip before xs) :
    ∃ seen rest n, find seen rest = some (a, n) := by
  induction xs generalizing skip before with
  | nil => cases skip <;> cases h
  | cons x xs ih =>
      cases skip with
      | succ skip => exact ih h
      | zero =>
          rcases tokens_zero_cons find before x xs with ⟨b, n, hfind, htok⟩ | ⟨-, htok⟩
          · rw [htok] at h
            rcases List.mem_cons.mp h with heq | h
            · obtain ⟨rfl, -⟩ := Token.name.inj heq
              exact ⟨before, x :: xs, n + 1, hfind⟩
            · exact ih h
          · rw [htok] at h
            rcases List.mem_cons.mp h with heq | h
            · cases heq
            · exact ih h

theorem render_eq_source (h : ∀ a text, Token.name a text ∈ toks → f a text = text) :
    render f toks = source toks := by
  rw [render, source, List.flatMap_def, List.flatMap_def]
  congr 1
  refine List.map_congr_left fun tok htok => ?_
  cases tok with
  | kept x => rfl
  | name a text => exact h a text htok

/-! ## Pieces -/

/-- A finder for a piece finds what the finder for the text finds. -/
def Agree (find find' : Finder σ α) (before after piece : List σ) : Prop :=
  ∀ u v, piece = u ++ v → v ≠ [] →
    find (u.reverse ++ before) (v ++ after) = find' u.reverse v

/-- What is found is in the text. -/
def Fits (find : Finder σ α) : Prop :=
  ∀ before after a n, find before after = some (a, n) → n ≤ after.length

theorem tokens_append {piece after before before' : List σ} {skip : Nat} (hfits : Fits find')
    (hagree : ∀ u v, piece = u ++ v → v ≠ [] →
      find (u.reverse ++ before) (v ++ after) = find' (u.reverse ++ before') v)
    (hskip : skip ≤ piece.length) :
    tokens find skip before (piece ++ after)
      = tokens find' skip before' piece ++ tokens find 0 (piece.reverse ++ before) after := by
  induction piece generalizing skip before before' with
  | nil =>
      obtain rfl : skip = 0 := Nat.le_zero.mp hskip
      rfl
  | cons x piece ih =>
      have hnext : ∀ u v, piece = u ++ v → v ≠ [] →
          find (u.reverse ++ (x :: before)) (v ++ after)
            = find' (u.reverse ++ (x :: before')) v := by
        intro u v hp hv
        have h := hagree (x :: u) v (by rw [hp, List.cons_append]) hv
        simpa using h
      have hrest : ∀ skip ≤ piece.length,
          tokens find skip (x :: before) (piece ++ after)
            = tokens find' skip (x :: before') piece
              ++ tokens find 0 ((x :: piece).reverse ++ before) after := by
        intro skip hskip
        rw [ih hnext hskip, List.reverse_cons, List.append_assoc, List.singleton_append]
      rw [List.cons_append]
      cases skip with
      | succ skip =>
          rw [tokens, tokens]
          exact hrest skip (Nat.le_of_succ_le_succ hskip)
      | zero =>
          have hhere : find before (x :: (piece ++ after)) = find' before' (x :: piece) :=
            hagree [] (x :: piece) rfl (by simp)
          rcases tokens_zero_cons find' before' x piece
            with ⟨a, n, hfind, htok⟩ | ⟨hnone, htok⟩
          · have hn : n ≤ piece.length := Nat.le_of_succ_le_succ (hfits _ _ _ _ hfind)
            have htake : (x :: (piece ++ after)).take (n + 1) = (x :: piece).take (n + 1) := by
              rw [List.take_succ_cons, List.take_succ_cons, List.take_append_of_le_length hn]
            rw [htok, tokens, hhere, hfind]
            dsimp only
            rw [hrest n hn, htake, List.cons_append]
          · rcases tokens_zero_cons find before x (piece ++ after)
              with ⟨a, n, hfind, -⟩ | ⟨-, htok'⟩
            · exact absurd (hhere.symm.trans hfind) (hnone a n)
            · rw [htok, htok', hrest 0 (Nat.zero_le _), List.cons_append]

/-- A text in pieces, each with its own finder. -/
def text (pieces : List (Finder σ α × List σ)) : List σ := pieces.flatMap (·.2)

/-- The pieces are read as the text is, if each finder agrees at its
piece. -/
theorem tokens_pieces {pieces : List (Finder σ α × List σ)} {before : List σ}
    (hfits : ∀ p ∈ pieces, Fits p.1)
    (hagree : ∀ l p r, pieces = l ++ p :: r →
      Agree find p.1 ((text l).reverse ++ before) (text r) p.2) :
    tokens find 0 before (text pieces) = pieces.flatMap fun p => tokens p.1 0 [] p.2 := by
  induction pieces generalizing before with
  | nil => rfl
  | cons p pieces ih =>
      have hhead : ∀ u v, p.2 = u ++ v → v ≠ [] →
          find (u.reverse ++ before) (v ++ text pieces) = p.1 (u.reverse ++ []) v := by
        intro u v hp hv
        have h := hagree [] p pieces rfl u v hp hv
        simpa [text] using h
      have htail : ∀ l q r, pieces = l ++ q :: r →
          Agree find q.1 ((text l).reverse ++ (p.2.reverse ++ before)) (text r) q.2 := by
        intro l q r hp
        have h := hagree (p :: l) q r (by rw [hp, List.cons_append])
        simpa [text] using h
      show tokens find 0 before (p.2 ++ text pieces) = _
      rw [tokens_append (hfits p (by simp)) hhead (Nat.zero_le _),
        ih (fun q hq => hfits q (List.mem_cons_of_mem _ hq)) htail, List.flatMap_cons]

/-! ## What stays at an end -/

theorem render_append (toks toks' : List (Token σ α)) :
    render f (toks ++ toks') = render f toks ++ render f toks' := List.flatMap_append

theorem source_append (toks toks' : List (Token σ α)) :
    source (toks ++ toks') = source toks ++ source toks' := List.flatMap_append

/-- No name is replaced by a text that is within `w`. -/
def Foreign (f : α → List σ → List σ) (w : List σ) (toks : List (Token σ α)) : Prop :=
  ∀ a text, Token.name a text ∈ toks → f a text ≠ text → ¬ f a text <:+: w

theorem Foreign.mono {v w : List σ} (h : Foreign f w toks) (hvw : v <:+: w) :
    Foreign f v toks :=
  fun a text hmem hne hin => h a text hmem hne (hin.trans hvw)

theorem Foreign.tail {w : List σ} {tok : Token σ α} (h : Foreign f w (tok :: toks)) :
    Foreign f w toks :=
  fun a text hmem => h a text (List.mem_cons_of_mem _ hmem)

theorem Foreign.source_eq {w : List σ} (h : Foreign f w toks) (hw : render f toks <:+: w) :
    source toks = render f toks := by
  refine (render_eq_source fun a text hmem => ?_).symm
  by_contra hne
  refine h a text hmem hne (List.IsInfix.trans ?_ hw)
  obtain ⟨l, r, rfl⟩ := List.append_of_mem hmem
  exact ⟨render f l, render f r, by simp [render, Token.render]⟩

/-- A token with a character that no replacement has stays. -/
theorem Token.render_eq_source {q : σ} {tok : Token σ α} (hq : q ∈ tok.render f)
    (h : ∀ a text, tok = .name a text → f a text ≠ text → q ∉ f a text) :
    tok.render f = tok.source := by
  cases tok with
  | kept x => rfl
  | name a text =>
      by_contra hne
      exact h a text rfl hne hq

/-- What the replaced text ends with, from a character on that no
replacement has, the text ended with. -/
theorem source_suffix {q : σ} {w : List σ} (hw : Foreign f w toks)
    (hq : ∀ a text, Token.name a text ∈ toks → f a text ≠ text → q ∉ f a text)
    (h : q :: w <:+ render f toks) : q :: w <:+ source toks := by
  induction toks with
  | nil => exact h
  | cons tok toks ih =>
      obtain ⟨u, hu⟩ := h
      replace hu : u ++ q :: w = tok.render f ++ render f toks := hu
      show q :: w <:+ tok.source ++ source toks
      rcases List.append_eq_append_iff.mp hu with ⟨t, htok, hqw⟩ | ⟨t, -, hrest⟩
      · cases t with
        | nil =>
            have hin : q :: w <:+ render f toks := by rw [hqw]; exact List.suffix_refl _
            exact (ih hw.tail (fun a text hmem => hq a text (List.mem_cons_of_mem _ hmem))
              hin).trans (List.suffix_append _ _)
        | cons q' t =>
            obtain ⟨rfl, rfl⟩ := List.cons.inj hqw
            have hstay : tok.render f = tok.source :=
              Token.render_eq_source (q := q) (by rw [htok]; simp)
                fun a text heq => hq a text (by rw [heq]; simp)
            rw [hw.tail.source_eq (List.suffix_append t _).isInfix, ← hstay, htok]
            exact ⟨u, by simp⟩
      · have hin : q :: w <:+ render f toks := ⟨t, hrest.symm⟩
        exact (ih hw.tail (fun a text hmem => hq a text (List.mem_cons_of_mem _ hmem)) hin).trans
          (List.suffix_append _ _)

/-- What the replaced text begins with, up to a character that no
replacement has, the text began with. -/
theorem source_prefix {q : σ} {w : List σ} (hw : Foreign f w toks)
    (hq : ∀ a text, Token.name a text ∈ toks → f a text ≠ text → q ∉ f a text)
    (h : w ++ [q] <+: render f toks) : w ++ [q] <+: source toks := by
  induction toks generalizing w with
  | nil => exact h
  | cons tok toks ih =>
      obtain ⟨u, hu⟩ := h
      replace hu : (w ++ [q]) ++ u = tok.render f ++ render f toks := hu
      show w ++ [q] <+: tok.source ++ source toks
      rcases List.append_eq_append_iff.mp hu with ⟨t, htok, -⟩ | ⟨t, hwq, hrest⟩
      · have hstay : tok.render f = tok.source :=
          Token.render_eq_source (q := q) (by rw [htok]; simp)
            fun a text heq => hq a text (by rw [heq]; simp)
        rw [← hstay, htok]
        exact ⟨t ++ source toks, by simp⟩
      · rcases List.eq_nil_or_concat t with rfl | ⟨t, q', rfl⟩
        · rw [List.append_nil] at hwq
          have hstay : tok.render f = tok.source :=
            Token.render_eq_source (q := q) (by rw [← hwq]; simp)
              fun a text heq => hq a text (by rw [heq]; simp)
          rw [← hstay, ← hwq]
          exact List.prefix_append _ _
        · rw [List.concat_eq_append] at hwq hrest
          rw [← List.append_assoc] at hwq
          obtain ⟨rfl, hq'⟩ := List.append_inj' hwq rfl
          obtain rfl : q = q' := by simpa using hq'
          have hstay : tok.render f = tok.source := by
            cases tok with
            | kept x => rfl
            | name a text =>
                by_contra hne
                exact hw a text (by simp) (fun h => hne h) (List.prefix_append _ t).isInfix
          have hin : t ++ [q] <+: source toks :=
            ih (hw.tail.mono (List.suffix_append _ t).isInfix)
              (fun a text hmem => hq a text (List.mem_cons_of_mem _ hmem)) ⟨u, hrest.symm⟩
          rw [← hstay, List.append_assoc]
          exact (List.prefix_append_right_inj _).mpr hin

end Pieces
