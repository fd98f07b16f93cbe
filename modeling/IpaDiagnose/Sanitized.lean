import Mathlib.Data.List.DropRight
import IpaDiagnose.Lib.Lines
import IpaDiagnose.Lib.RegexWords
import IpaDiagnose.TextSafe

/-!
# What sanitizing leaves alone

A text is clean if it is words of visible characters with one space
between any two. Sanitizing makes every text clean and short, and
changes nothing of a text that is both: it is idempotent, and a name
made of ASCII letters, digits and punctuation passes through it as long
as it fits.
-/

namespace IpaDiagnose

open Regex (Re)

/-! ## Clean texts -/

/-- A character of a word. -/
def ink (c : Char) : Bool := Unicode.isPrintable c && !Unicode.isSpace c

/-- Words of visible characters, with single spaces between them; `gap`
if no space may come now. -/
def spaced (gap : Bool) : List Char → Bool
  | [] => true
  | c :: cs => if c = ' ' then !gap && spaced true cs else ink c && spaced false cs

structure Clean (cs : List Char) : Prop where
  spaced : spaced true cs = true
  ends : cs.getLast? ≠ some ' '

theorem isSpace_space : Unicode.isSpace ' ' = true := by decide

theorem ink_ne_space {c : Char} (h : ink c = true) : c ≠ ' ' := by
  rintro rfl
  simp [ink, isSpace_space] at h

theorem spaced_word {gap : Bool} {w : List Char} (h : ∀ c ∈ w, ink c = true) :
    spaced gap w = true := by
  induction w generalizing gap with
  | nil => rfl
  | cons c w ih =>
      have hc : ink c = true := h c List.mem_cons_self
      rw [spaced, if_neg (ink_ne_space hc), hc, Bool.true_and]
      exact ih fun x hx => h x (List.mem_cons_of_mem _ hx)

theorem spaced_append_left {gap : Bool} {a b : List Char} (h : spaced gap (a ++ b) = true) :
    spaced gap a = true := by
  induction a generalizing gap with
  | nil => rfl
  | cons c a ih =>
      rw [List.cons_append, spaced] at h
      rw [spaced]
      split at h
      · rename_i hc
        rw [if_pos hc, (Bool.and_eq_true_iff.mp h).1, Bool.true_and]
        exact ih (Bool.and_eq_true_iff.mp h).2
      · rename_i hc
        rw [if_neg hc, (Bool.and_eq_true_iff.mp h).1, Bool.true_and]
        exact ih (Bool.and_eq_true_iff.mp h).2

theorem spaced_mono {gap : Bool} {a b : List Char} (hab : a <+: b) (h : spaced gap b = true) :
    spaced gap a = true := by
  obtain ⟨t, rfl⟩ := hab
  exact spaced_append_left h

theorem spaced_append_word {gap : Bool} {a w : List Char} (ha : spaced gap a = true)
    (hw : ∀ c ∈ w, ink c = true) : spaced gap (a ++ w) = true := by
  induction a generalizing gap with
  | nil => exact spaced_word hw
  | cons c a ih =>
      rw [spaced] at ha
      rw [List.cons_append, spaced]
      split at ha
      · rename_i hc
        rw [if_pos hc, (Bool.and_eq_true_iff.mp ha).1, Bool.true_and]
        exact ih (Bool.and_eq_true_iff.mp ha).2
      · rename_i hc
        rw [if_neg hc, (Bool.and_eq_true_iff.mp ha).1, Bool.true_and]
        exact ih (Bool.and_eq_true_iff.mp ha).2

theorem mem_of_spaced {gap : Bool} {cs : List Char} (h : spaced gap cs = true) :
    ∀ c ∈ cs, c = ' ' ∨ ink c = true := by
  induction cs generalizing gap with
  | nil => exact nofun
  | cons c cs ih =>
      rw [spaced] at h
      intro x hx
      split at h
      · rename_i hc
        rcases List.mem_cons.mp hx with rfl | hx
        · exact .inl hc
        · exact ih (Bool.and_eq_true_iff.mp h).2 x hx
      · rcases List.mem_cons.mp hx with rfl | hx
        · exact .inr (Bool.and_eq_true_iff.mp h).1
        · exact ih (Bool.and_eq_true_iff.mp h).2 x hx

theorem Clean.word {w : List Char} (h : ∀ c ∈ w, ink c = true) : Clean w where
  spaced := spaced_word h
  ends hl := ink_ne_space (h ' ' (List.mem_of_getLast? hl)) rfl

/-! ## Words -/

section Words

variable {p : Char → Bool} {c d : Char} {cs ds : List Char}

theorem wordsBy_skip (hc : p c = true) : PyStr.wordsBy p (c :: cs) = PyStr.wordsBy p cs := by
  conv_lhs => unfold PyStr.wordsBy
  rw [if_pos hc]

theorem wordsBy_last (hc : p c = false) : PyStr.wordsBy p [c] = [[c]] := by
  conv_lhs => unfold PyStr.wordsBy
  exact if_neg (Bool.eq_false_iff.mp hc)

theorem wordsBy_break (hc : p c = false) (hd : p d = true) :
    PyStr.wordsBy p (c :: d :: ds) = [c] :: PyStr.wordsBy p (d :: ds) := by
  conv_lhs => unfold PyStr.wordsBy
  rw [if_neg (Bool.eq_false_iff.mp hc)]
  rcases PyStr.wordsBy p (d :: ds) with _ | ⟨w, ws⟩
  · rfl
  · exact if_pos hd

theorem wordsBy_grow (hc : p c = false) (hd : p d = false) {w : List Char} {ws : List (List Char)}
    (hws : PyStr.wordsBy p (d :: ds) = w :: ws) :
    PyStr.wordsBy p (c :: d :: ds) = (c :: w) :: ws := by
  conv_lhs => unfold PyStr.wordsBy
  rw [if_neg (Bool.eq_false_iff.mp hc), hws]
  exact if_neg (Bool.eq_false_iff.mp hd)

theorem wordsBy_ne_nil (hc : p c = false) : PyStr.wordsBy p (c :: cs) ≠ [] := by
  unfold PyStr.wordsBy
  rw [if_neg (Bool.eq_false_iff.mp hc)]
  split
  · split <;> exact List.cons_ne_nil _ _
  · exact List.cons_ne_nil _ _

/-- A word is not empty, and holds only what is not white space. -/
theorem mem_wordsBy {w : List Char} (h : w ∈ PyStr.wordsBy p cs) :
    w ≠ [] ∧ ∀ x ∈ w, x ∈ cs ∧ p x = false := by
  induction cs generalizing w with
  | nil => cases h
  | cons c cs ih =>
      have hlater : ∀ {w}, w ∈ PyStr.wordsBy p cs →
          w ≠ [] ∧ ∀ x ∈ w, x ∈ c :: cs ∧ p x = false := fun hw =>
        ⟨(ih hw).1, fun x hx =>
          ⟨List.mem_cons_of_mem _ ((ih hw).2 x hx).1, ((ih hw).2 x hx).2⟩⟩
      rcases hc : p c with _ | _
      · have hcons : ∀ {w}, (∀ x ∈ w, x ∈ c :: cs ∧ p x = false) →
            c :: w ≠ [] ∧ ∀ x ∈ c :: w, x ∈ c :: cs ∧ p x = false := by
          intro w hw
          refine ⟨List.cons_ne_nil _ _, fun x hx => ?_⟩
          rcases List.mem_cons.mp hx with rfl | hx
          · exact ⟨List.mem_cons_self, hc⟩
          · exact hw x hx
        rcases cs with _ | ⟨d, ds⟩
        · rw [wordsBy_last hc] at h
          obtain rfl := List.mem_singleton.mp h
          exact hcons nofun
        · rcases hd : p d with _ | _
          · rcases hws : PyStr.wordsBy p (d :: ds) with _ | ⟨v, ws⟩
            · exact absurd hws (wordsBy_ne_nil hd)
            · rw [wordsBy_grow hc hd hws] at h
              rcases List.mem_cons.mp h with rfl | h
              · exact hcons (hlater (hws ▸ List.mem_cons_self)).2
              · exact hlater (hws ▸ List.mem_cons_of_mem _ h)
          · rw [wordsBy_break hc hd] at h
            rcases List.mem_cons.mp h with rfl | h
            · exact hcons nofun
            · exact hlater h
      · rw [wordsBy_skip hc] at h
        exact hlater h

end Words

/-- Words joined by single spaces are clean. -/
theorem Clean.joined {ws : List (List Char)}
    (h : ∀ w ∈ ws, w ≠ [] ∧ ∀ c ∈ w, ink c = true) : Clean ([' '].intercalate ws) := by
  have step : ∀ (w rest : List Char) (gap : Bool), w ≠ [] → (∀ c ∈ w, ink c = true) →
      IpaDiagnose.spaced true rest = true → IpaDiagnose.spaced gap (w ++ ' ' :: rest) = true := by
    intro w
    induction w with
    | nil => exact fun _ _ h => absurd rfl h
    | cons c w ih =>
        intro rest gap _ hink hrest
        have hc : ink c = true := hink c List.mem_cons_self
        rw [List.cons_append, IpaDiagnose.spaced, if_neg (ink_ne_space hc), hc, Bool.true_and]
        by_cases hw : w = []
        · rw [hw, List.nil_append, IpaDiagnose.spaced, if_pos rfl, hrest]
          rfl
        · exact ih rest false hw (fun x hx => hink x (List.mem_cons_of_mem _ hx)) hrest
  induction ws with
  | nil => exact ⟨rfl, by simp⟩
  | cons w ws ih =>
      obtain ⟨hne, hink⟩ := h w List.mem_cons_self
      cases ws with
      | nil =>
          rw [List.intercalate_singleton]
          exact Clean.word hink
      | cons w' ws =>
          have hrest := ih fun v hv => h v (List.mem_cons_of_mem _ hv)
          rw [List.intercalate_cons_cons, List.append_assoc, List.singleton_append]
          refine ⟨step w _ true hne hink hrest.spaced, ?_⟩
          rw [List.getLast?_append_cons, List.getLast?_cons]
          have hw' : w' ≠ [] := (h w' (by simp)).1
          have hnil : [' '].intercalate (w' :: ws) ≠ [] := by
            cases ws with
            | nil => rwa [List.intercalate_singleton]
            | cons v vs =>
                rw [List.intercalate_cons_cons, List.append_assoc]
                exact List.append_ne_nil_of_left_ne_nil hw' _
          intro heq
          rw [Option.some.injEq] at heq
          refine hrest.ends ?_
          rcases hl : ([' '].intercalate (w' :: ws)).getLast? with _ | x
          · exact absurd (List.getLast?_eq_none_iff.mp hl) hnil
          · rw [hl] at heq
            exact congrArg some heq

/-- Splitting a spaced text and joining its words gives it back, up to a
space in front. -/
theorem intercalate_wordsBy {cs : List Char} : ∀ {gap : Bool}, spaced gap cs = true →
    cs.getLast? ≠ some ' ' →
      [' '].intercalate (PyStr.wordsBy Unicode.isSpace cs)
        = if cs.head? = some ' ' then cs.tail else cs := by
  induction cs with
  | nil => exact fun _ _ => rfl
  | cons c cs ih =>
      intro gap h hends
      have hends' : cs.getLast? ≠ some ' ' := by
        intro hl
        refine hends ?_
        rw [List.getLast?_cons, hl]
        rfl
      rw [spaced] at h
      split at h
      · rename_i hc
        -- a space: the text behind it does not start with another one
        subst hc
        have htail := ih (Bool.and_eq_true_iff.mp h).2 hends'
        have hhead : cs.head? ≠ some ' ' := by
          rcases cs with _ | ⟨d, ds⟩
          · simp
          · intro hd
            obtain rfl : d = ' ' := by simpa using hd
            have := (Bool.and_eq_true_iff.mp h).2
            rw [spaced, if_pos rfl] at this
            simp at this
        rw [if_neg hhead] at htail
        rw [wordsBy_skip isSpace_space, htail, List.head?_cons, if_pos rfl, List.tail_cons]
      · rename_i hc
        obtain ⟨hink, hrest⟩ := Bool.and_eq_true_iff.mp h
        have hsp : Unicode.isSpace c = false := by
          simpa using (Bool.and_eq_true_iff.mp hink).2
        have hhead : ¬ (c :: cs).head? = some ' ' := by simpa using hc
        rw [if_neg hhead]
        have htail := ih hrest hends'
        rcases cs with _ | ⟨d, ds⟩
        · rw [wordsBy_last hsp, List.intercalate_singleton]
        · by_cases hd : d = ' '
          · subst hd
            rw [List.head?_cons, if_pos rfl, List.tail_cons] at htail
            rw [wordsBy_break hsp isSpace_space]
            rcases hws : PyStr.wordsBy Unicode.isSpace (' ' :: ds) with _ | ⟨w, ws⟩
            · -- a text that ends in the space
              rw [hws, List.intercalate_nil] at htail
              exact absurd (by rw [← htail]; rfl) hends'
            · rw [List.intercalate_cons_cons, ← hws, htail]
              rfl
          · have hdi : ink d = true := (mem_of_spaced hrest d List.mem_cons_self).resolve_left hd
            have hdsp : Unicode.isSpace d = false := by
              simpa using (Bool.and_eq_true_iff.mp hdi).2
            have hdhead : ¬ (d :: ds).head? = some ' ' := by simpa using hd
            rw [if_neg hdhead] at htail
            rcases hws : PyStr.wordsBy Unicode.isSpace (d :: ds) with _ | ⟨w, ws⟩
            · exact absurd hws (wordsBy_ne_nil hdsp)
            · rw [wordsBy_grow hsp hdsp hws, List.intercalate_cons_cons_left, ← hws, htail]

/-! ## Cutting -/

theorem sliceTo_isPrefix (cs : List Char) (i : Int) : sliceTo cs i <+: cs := by
  unfold sliceTo
  split
  · exact List.take_prefix _ _
  · exact List.take_prefix _ _

theorem rstripChars_isPrefix (p : Char → Bool) (cs : List Char) :
    PyStr.rstripChars p cs <+: cs :=
  List.rdropWhile_prefix p cs

/-- What is kept of a text that is too long: a prefix, and the mark of the cut. -/
theorem ellipsize_cut {text : List Char} {limit : Nat} (hlong : limit < text.length)
    (hlimit : 4 ≤ limit) :
    ∃ cut, cut <+: text ∧ cut.length ≤ limit - 3
      ∧ ellipsize text limit = cut ++ "...".toList := by
  have hkept : ∀ cut : List Char, cut <+: text.take (limit - 3) →
      PyStr.rstripChars (" ,;:-".toList.contains ·) cut <+: text ∧
        (PyStr.rstripChars (" ,;:-".toList.contains ·) cut).length ≤ limit - 3 := by
    intro cut hcut
    have hstrip := (rstripChars_isPrefix (" ,;:-".toList.contains ·) cut).trans hcut
    refine ⟨hstrip.trans (List.take_prefix _ _), ?_⟩
    have hlen := hstrip.length_le
    rw [List.length_take] at hlen
    omega
  rw [ellipsize, if_neg (by omega), if_neg (by omega)]
  dsimp only
  split
  · obtain ⟨h, hlen⟩ := hkept _ (sliceTo_isPrefix (text.take (limit - 3)) _)
    exact ⟨_, h, hlen, rfl⟩
  · obtain ⟨h, hlen⟩ := hkept _ (List.prefix_refl _)
    exact ⟨_, h, hlen, rfl⟩

theorem ellipsize_length_le {text : List Char} {limit : Nat} (hlimit : 4 ≤ limit) :
    (ellipsize text limit).length ≤ limit := by
  by_cases h : text.length ≤ limit
  · rw [ellipsize, if_pos h]
    exact h
  · obtain ⟨cut, -, hlen, heq⟩ := ellipsize_cut (Nat.lt_of_not_le h) hlimit
    have hdots : "...".toList.length = 3 := by decide
    rw [heq, List.length_append, hdots]
    omega

theorem Clean.ellipsize {text : List Char} {limit : Nat} (h : Clean text) (hlimit : 4 ≤ limit) :
    Clean (ellipsize text limit) := by
  by_cases hlen : text.length ≤ limit
  · rw [IpaDiagnose.ellipsize, if_pos hlen]
    exact h
  · obtain ⟨cut, hcut, -, heq⟩ := ellipsize_cut (Nat.lt_of_not_le hlen) hlimit
    have hdots : ∀ c ∈ "...".toList, ink c = true := by decide
    rw [heq]
    refine ⟨spaced_append_word (spaced_mono hcut h.spaced) hdots, ?_⟩
    have hlast : "...".toList.getLast? = some '.' := by decide
    rw [List.getLast?_append, hlast, Option.some_or]
    decide

/-! ## Sanitizing -/

theorem ne_esc_of_ink {c : Char} (h : c = ' ' ∨ ink c = true) : (c == Char.ofNat 27) = false := by
  rw [beq_eq_false_iff_ne]
  rintro rfl
  rcases h with h | h
  · exact absurd h (by decide)
  · exact absurd h (by decide)

theorem visible_of_ink {c : Char} (h : c = ' ' ∨ ink c = true) : visible c = c := by
  have hc : c = ' ' ∨ Unicode.isPrintable c = true :=
    h.imp_right fun hi => (Bool.and_eq_true_iff.mp hi).1
  rw [visible, if_pos hc]

theorem erase_untouched {r : Re} {s : String} (h : ∀ c ∈ s.toList, c = ' ' ∨ ink c = true) :
    erase (.seq esc r) s = s :=
  Re.sub_untouched fun c hc => ne_esc_of_ink (h c hc)

/-- The text of a sanitized value before it is cut. -/
theorem clean_words (cs : List Char) :
    Clean ([' '].intercalate (PyStr.wordsBy Unicode.isSpace (cs.map visible))) := by
  refine Clean.joined fun w hw => ?_
  obtain ⟨hne, hall⟩ := mem_wordsBy hw
  refine ⟨hne, fun c hc => ?_⟩
  obtain ⟨hmem, hsp⟩ := hall c hc
  obtain ⟨x, -, rfl⟩ := List.mem_map.mp hmem
  unfold visible at hsp ⊢
  split
  · rename_i hx
    rw [if_pos hx] at hsp
    rcases hx with rfl | hx
    · exact absurd isSpace_space (Bool.eq_false_iff.mp hsp)
    · rw [ink, hx, hsp]
      rfl
  · rename_i hx
    rw [if_neg hx] at hsp
    exact absurd isSpace_space (Bool.eq_false_iff.mp hsp)

theorem toList_spaced_words (ws : List (List Char)) :
    (" ".intercalate (ws.map String.ofList)).toList = [' '].intercalate ws := by
  simp

theorem clean_sanitizeText (s : String) {limit : Nat} (hlimit : 4 ≤ limit) :
    Clean (sanitizeText s limit).toList := by
  rw [sanitizeText, String.toList_ofList, toList_spaced_words]
  exact (clean_words _).ellipsize hlimit

theorem length_sanitizeText_le (s : String) {limit : Nat} (hlimit : 4 ≤ limit) :
    (sanitizeText s limit).toList.length ≤ limit := by
  rw [sanitizeText, String.toList_ofList]
  exact ellipsize_length_le hlimit

/-- A clean text that fits is left alone. -/
theorem sanitizeText_of_clean {s : String} {limit : Nat} (h : Clean s.toList)
    (hlen : s.toList.length ≤ limit) (hread : s.toList.length ≤ PRE_BOUND) :
    sanitizeText s limit = s := by
  have hmarks := mem_of_spaced h.spaced
  have htake : PyStr.take s PRE_BOUND = s := by
    rw [PyStr.take, List.take_of_length_le hread, String.ofList_toList]
  have hvisible : s.toList.map visible = s.toList := by
    conv_rhs => rw [← List.map_id s.toList]
    exact List.map_congr_left fun c hc => visible_of_ink (hmarks c hc)
  have hhead : ¬ s.toList.head? = some ' ' := by
    intro hh
    have hs := h.spaced
    rcases hl : s.toList with _ | ⟨c, cs⟩
    · rw [hl] at hh
      cases hh
    · rw [hl, List.head?_cons, Option.some.injEq] at hh
      rw [hl, spaced, if_pos hh] at hs
      simp at hs
  have hwords := intercalate_wordsBy h.spaced h.ends
  rw [if_neg hhead] at hwords
  have hcsi : erase csiRe s = s := erase_untouched hmarks
  have hosc : erase oscRe s = s := erase_untouched hmarks
  have hdcs : erase dcsRe s = s := erase_untouched hmarks
  have hpair : erase escPairRe s = s := erase_untouched hmarks
  rw [sanitizeText, htake, hcsi, hosc, hdcs, hpair, hvisible, toList_spaced_words, hwords,
    ellipsize, if_pos hlen, String.ofList_toList]

/-! ## No step makes a text longer -/

/-- The characters a scan leaves over are some of those it reads. -/
theorem length_scan_left_le (r : Re) (fuel : Nat) (c : Regex.Cursor) :
    ((r.scan fuel c).flatMap fun t => t.elim (fun x => [x]) fun _ => []).length
      ≤ c.rest.length := by
  induction fuel generalizing c with
  | zero => exact Nat.zero_le _
  | succ fuel ih =>
      rw [Re.scan]
      rcases hrest : c.rest with _ | ⟨x, xs⟩
      · simp
      · have hskip := ih ⟨some x, xs, []⟩
        dsimp only
        split
        · rename_i c' _
          split
          · rename_i hless
            exact (ih c').trans (by simpa [hrest] using hless.le)
          · simpa using hskip
        · simpa using hskip

theorem length_erase_le (r : Re) (s : String) :
    (erase r s).toList.length ≤ s.toList.length := by
  have h := length_scan_left_le r s.toList.length (Regex.Cursor.start s.toList)
  simpa [erase, Re.sub, Re.tokens, Regex.Cursor.start] using h

/-- The space between two words stands for at least one blank. -/
theorem length_spaced_words_le (p : Char → Bool) : ∀ cs : List Char,
    ([' '].intercalate (PyStr.wordsBy p cs)).length ≤ cs.length
  | [] => Nat.le_refl 0
  | [c] => by
      rcases hc : p c with _ | _
      · rw [wordsBy_last hc, List.intercalate_singleton]
      · rw [wordsBy_skip hc]
        exact Nat.zero_le _
  | c :: d :: ds => by
      rcases hc : p c with _ | _
      · rcases hd : p d with _ | _
        · have htail := length_spaced_words_le p (d :: ds)
          rcases hws : PyStr.wordsBy p (d :: ds) with _ | ⟨w, ws⟩
          · exact absurd hws (wordsBy_ne_nil hd)
          · rw [wordsBy_grow hc hd hws, List.intercalate_cons_cons_left, ← hws]
            exact Nat.succ_le_succ htail
        · have htail := length_spaced_words_le p ds
          rw [wordsBy_break hc hd, wordsBy_skip hd]
          rcases hws : PyStr.wordsBy p ds with _ | ⟨w, ws⟩
          · simp
          · rw [List.intercalate_cons_cons, ← hws]
            simpa using htail
      · rw [wordsBy_skip hc]
        exact (length_spaced_words_le p (d :: ds)).trans (Nat.le_succ _)

theorem length_ellipsize_le_self {text : List Char} {limit : Nat} :
    (ellipsize text limit).length ≤ text.length := by
  by_cases h : text.length ≤ limit
  · rw [ellipsize, if_pos h]
  · by_cases hlimit : limit ≤ 3
    · rw [ellipsize, if_neg h, if_pos hlimit]
      exact List.length_take_le' _ _
    · exact (ellipsize_length_le (by omega)).trans (Nat.le_of_not_le h)

/-- What the text is cut to before anything else bounds the result. -/
theorem length_sanitizeText_le_bound (s : String) (limit : Nat) :
    (sanitizeText s limit).toList.length ≤ PRE_BOUND := by
  have hread : (PyStr.take s PRE_BOUND).toList.length ≤ PRE_BOUND := by
    rw [PyStr.take, String.toList_ofList]
    exact List.length_take_le _ _
  rw [sanitizeText, String.toList_ofList, toList_spaced_words]
  refine length_ellipsize_le_self.trans ((length_spaced_words_le _ _).trans ?_)
  rw [List.length_map]
  calc (erase escPairRe (erase dcsRe (erase oscRe
          (erase csiRe (PyStr.take s PRE_BOUND))))).toList.length
      ≤ (erase dcsRe (erase oscRe (erase csiRe (PyStr.take s PRE_BOUND)))).toList.length :=
        length_erase_le _ _
    _ ≤ (erase oscRe (erase csiRe (PyStr.take s PRE_BOUND))).toList.length :=
        length_erase_le _ _
    _ ≤ (erase csiRe (PyStr.take s PRE_BOUND)).toList.length := length_erase_le _ _
    _ ≤ (PyStr.take s PRE_BOUND).toList.length := length_erase_le _ _
    _ ≤ PRE_BOUND := hread

theorem sanitizeText_idem (s : String) {limit : Nat} (hlimit : 4 ≤ limit) :
    sanitizeText (sanitizeText s limit) limit = sanitizeText s limit :=
  sanitizeText_of_clean (clean_sanitizeText s hlimit) (length_sanitizeText_le s hlimit)
    (length_sanitizeText_le_bound s limit)

/-! ## One line of printable characters -/

/-- A character of a clean text has a glyph, or is the space. -/
theorem printable_of_clean {cs : List Char} (h : Clean cs) :
    ∀ c ∈ cs, Unicode.isPrintable c = true := by
  intro c hc
  rcases mem_of_spaced h.spaced c hc with rfl | hink
  · decide
  · exact (Bool.and_eq_true_iff.mp hink).1

/-- What ends a line is white space. -/
theorem isSpace_of_isBreak {c : Char} (h : Lines.isBreak c = true) : Unicode.isSpace c = true := by
  simp only [Lines.isBreak, Bool.or_eq_true, Bool.and_eq_true, decide_eq_true_eq,
    beq_iff_eq] at h
  simp only [Unicode.isSpace, Unicode.inRanges, List.any_cons, List.any_nil, Bool.or_eq_true,
    Bool.and_eq_true, decide_eq_true_eq]
  omega

/-- No character of a clean text ends a line. -/
theorem unbroken_of_clean {cs : List Char} (h : Clean cs) : Lines.Unbroken cs := by
  intro c hc
  rcases mem_of_spaced h.spaced c hc with rfl | hink
  · decide
  · have hspace : Unicode.isSpace c = false := by
      simpa using (Bool.and_eq_true_iff.mp hink).2
    rw [Bool.eq_false_iff]
    exact fun hbreak => Bool.eq_false_iff.mp hspace (isSpace_of_isBreak hbreak)

/-- A character of ASCII with a glyph. -/
def graphic (c : Char) : Bool := 33 ≤ c.toNat && c.toNat ≤ 126

theorem ink_of_graphic {c : Char} (h : graphic c = true) : ink c = true := by
  obtain ⟨hlo, hhi⟩ := Bool.and_eq_true_iff.mp h
  have hlo : 33 ≤ c.toNat := of_decide_eq_true hlo
  have hhi : c.toNat ≤ 126 := of_decide_eq_true hhi
  have hprint : Unicode.isPrintable c = true := by
    rw [Unicode.isPrintable, if_pos (by omega)]
    simp only [Bool.and_eq_true, decide_eq_true_eq]
    omega
  have hspace : Unicode.isSpace c = false := by
    simp only [Unicode.isSpace, Unicode.inRanges, List.any_cons, List.any_nil, Bool.or_eq_false_iff,
      Bool.and_eq_false_iff, decide_eq_false_iff_not, and_true]
    refine ⟨?_, ?_, ?_, ?_, ?_, ?_, ?_, ?_, ?_, ?_⟩ <;> omega
  rw [ink, hprint, hspace]
  rfl

/-- A name in plain ASCII. -/
theorem sanitizeText_of_graphic {s : String} {limit : Nat}
    (h : ∀ c ∈ s.toList, graphic c = true) (hlen : s.toList.length ≤ limit)
    (hlimit : limit ≤ PRE_BOUND) : sanitizeText s limit = s :=
  sanitizeText_of_clean (Clean.word fun c hc => ink_of_graphic (h c hc)) hlen (hlen.trans hlimit)

end IpaDiagnose
