import IpaDiagnose.Bundle.Pseudonyms

/-!
# Names at a cut

Where a text is cut in front of white space, a name that does not itself
lie across the cut is found in front of it as at the end of a text, and
behind it as at the beginning. An LDAP suffix may be written with white
space, but only next to a comma or an equals sign (as such or escaped),
so that a cut at other white space takes no suffix apart.
-/

namespace IpaDiagnose.Bundle

open Regex (Re)
open Unicode (isSpace)

/-! ## White space -/

def spaces : List Char :=
  ([9, 10, 11, 12, 13, 28, 29, 30, 31, 32, 133, 160, 5760, 8192, 8193, 8194, 8195, 8196, 8197,
    8198, 8199, 8200, 8201, 8202, 8232, 8233, 8239, 8287, 12288] : List Nat).map Char.ofNat

theorem mem_spaces {c : Char} (h : isSpace c = true) : c ∈ spaces := by
  rw [← Char.ofNat_toNat c]
  refine List.mem_map_of_mem ?_
  simp only [isSpace, Unicode.inRanges, List.any_cons, List.any_nil, Bool.or_false, Bool.or_eq_true,
    Bool.and_eq_true, decide_eq_true_eq] at h
  simp only [List.mem_cons, List.not_mem_nil, or_false]
  omega

/-- A class that has no white space. -/
def Spaceless (p : Char → Bool) : Prop := ∀ w, isSpace w = true → p w = false

theorem spaceless_of {p : Char → Bool} (h : ∀ w ∈ spaces, p w = false) : Spaceless p :=
  fun w hw => h w (mem_spaces hw)

theorem spaceless_alnum : Spaceless Unicode.isAsciiAlnum := spaceless_of (by decide)

theorem spaceless_wordI : Spaceless asciiWordI := spaceless_of (by decide)

theorem spaceless_word : Spaceless Regex.word := spaceless_of (by decide +kernel)

theorem spaceless_hex : Spaceless hexLetter := spaceless_of (by decide)

theorem spaceless_decimal : Spaceless Unicode.isDecimal := spaceless_of (by decide)

/-- Only the character itself is taken for one that is not a letter. -/
theorem foldCase_eq {c w : Char} (hw : ¬ (97 ≤ w.toNat ∧ w.toNat ≤ 122)) (h : foldCase c = w) :
    c = w := by
  have hupper : ∀ n < 91, 65 ≤ n → 97 ≤ (Char.ofNat n).toLower.toNat
      ∧ (Char.ofNat n).toLower.toNat ≤ 122 := by decide
  rw [foldCase] at h
  split at h
  · exact absurd (by rw [← h]; decide) hw
  split at h
  · exact absurd (by rw [← h]; decide) hw
  split at h
  · exact absurd (by rw [← h]; decide) hw
  · by_cases hup : c.val ≥ 'A'.val ∧ c.val ≤ 'Z'.val
    · have hlow : 65 ≤ c.toNat := UInt32.le_iff_toNat_le.mp hup.1
      have hhigh : c.toNat ≤ 90 := UInt32.le_iff_toNat_le.mp hup.2
      have hmem := hupper c.toNat (by omega) hlow
      rw [Char.ofNat_toNat, h] at hmem
      exact absurd hmem hw
    · delta Char.toLower at h
      rwa [dif_neg hup] at h

theorem foldCase_space {c w : Char} (hw : isSpace w = true) (h : foldCase c = foldCase w) :
    c = w := by
  have hfixed : ∀ x ∈ spaces, foldCase x = x ∧ ¬ (97 ≤ x.toNat ∧ x.toNat ≤ 122) := by
    decide
  obtain ⟨hw', hlower⟩ := hfixed w (mem_spaces hw)
  exact foldCase_eq hlower (h.trans hw')

/-! ## Checks next to a place -/

/-- The check sees nothing behind white space. -/
def Blind (look : List Char → Bool) : Prop :=
  ∀ w, isSpace w = true → ∀ xs ys, look (xs ++ w :: ys) = look xs

theorem blind_anywhere : Blind anywhere := fun _ _ _ _ => rfl

theorem blind_noneOf {p : Char → Bool} (h : Spaceless p) : Blind (noneOf p) := by
  intro w hw xs ys
  cases xs with
  | nil => simp [noneOf, h w hw]
  | cons x xs => rfl

theorem blind_noneOf₂ {p q : Char → Bool} (hp : Spaceless p) (hq : Spaceless q) :
    Blind (noneOf₂ p q) := by
  intro w hw xs ys
  match xs with
  | [] => cases ys <;> simp [noneOf₂, hp w hw]
  | [x] => simp [noneOf₂, hq w hw]
  | x :: y :: xs => rfl

theorem Blind.and {f g : List Char → Bool} (hf : Blind f) (hg : Blind g) :
    Blind fun cs => f cs && g cs := by
  intro w hw xs ys
  show (f _ && g _) = _
  rw [hf w hw, hg w hw]

/-! ## White space of a suffix -/

/-- What an LDAP suffix has in front of white space, and what it has
behind. -/
def marksBefore : List String :=
  [",", "\\,", "\\2C", "%2C", "=", "\\=", "\\3D", "%3D"]

def marksAfter : List Char := [',', '=', '\\', '%']

/-- The text ends with a mark, or the other begins with one. -/
def Marked (p q : List Char) : Prop :=
  (∃ t ∈ marksBefore, t.toList.map foldCase <:+ p.map foldCase) ∨ ∃ c ∈ marksAfter, [c] <+: q

theorem Marked.extend {p q : List Char} (h : Marked p q) (l r : List Char) :
    Marked (l ++ p) (q ++ r) := by
  rcases h with ⟨t, ht, hsuf⟩ | ⟨c, hc, hpre⟩
  · refine .inl ⟨t, ht, hsuf.trans ?_⟩
    rw [List.map_append]
    exact List.suffix_append _ _
  · exact .inr ⟨c, hc, hpre.trans (List.prefix_append q r)⟩

/-- The white space in a word, up to its ends, is next to a mark. -/
def Tight (m : List Char) : Prop :=
  ∀ p s q, m = p ++ s ++ q → s ≠ [] → (∀ c ∈ s, isSpace c = true) →
    (∀ c ∈ p.getLast?, isSpace c = false) → (∀ c ∈ q.head?, isSpace c = false) → Marked p q

theorem tight_of_solid {m : List Char} (h : ∀ c ∈ m, isSpace c = false) : Tight m := by
  rintro p s q rfl hs hspace - -
  obtain ⟨c, hc⟩ := List.exists_mem_of_ne_nil s hs
  exact absurd (hspace c hc) (by simp [h c (by simp [hc])])

theorem Tight.append {m n : List Char} (hm : Tight m) (hn : Tight n) : Tight (m ++ n) := by
  intro p s q h hs hspace hp hq
  rcases List.append_eq_append_iff.mp h with ⟨t, hps, hnt⟩ | ⟨t, hmt, hqt⟩
  · -- the white space ends behind `m`
    rcases List.append_eq_append_iff.mp hps with ⟨t', hm', hst⟩ | ⟨t', rfl, rfl⟩
    · rcases List.eq_nil_or_concat t' with rfl | ⟨t₀, c, rfl⟩
      · -- and begins behind it
        obtain rfl : s = t := by simpa using hst
        have hin : Marked [] q := hn [] s q (by simpa using hnt) hs hspace nofun hq
        simpa using hin.extend p []
      · -- `m` ends in it
        have hin : Marked p [] := by
          refine hm p (t₀.concat c) [] (by simpa using hm') (by simp) (fun d hd => hspace d ?_) hp
            nofun
          rw [hst]
          exact List.mem_append_left t hd
        simpa using hin.extend [] q
    · have hin : Marked t' q := by
        refine hn t' s q hnt hs hspace (fun c hc => hp c ?_) hq
        rw [Option.mem_def] at hc ⊢
        rw [List.getLast?_append, hc]
        rfl
      exact (by simpa using hin.extend m [])
  · have hin : Marked p t := by
      refine hm p s t hmt hs hspace hp fun c hc => hq c ?_
      rw [hqt, Option.mem_def, List.head?_append, Option.mem_def.mp hc]
      rfl
    rw [hqt]
    simpa using hin.extend [] n

/-- A word without white space is on one side of some white space. -/
theorem beside {s t s' p w q : List Char} (h : s ++ t ++ s' = p ++ w ++ q) (hw : w ≠ [])
    (hspace : ∀ c ∈ w, isSpace c = true) (hne : t ≠ []) (ht : ∀ c ∈ t, isSpace c = false) :
    (∃ a, p = s ++ t ++ a ∧ s' = a ++ w ++ q) ∨ ∃ b, q = b ++ t ++ s' ∧ s = p ++ w ++ b := by
  have hapart : ∀ {a b c d : List Char}, a ≠ [] → c ≠ [] → a ++ b = c ++ d →
      (∀ x ∈ a, isSpace x = true) → (∀ x ∈ c, isSpace x = false) → False := by
    intro a b c d ha hc hab hspaces hnone
    obtain ⟨x, a, rfl⟩ := List.exists_cons_of_ne_nil ha
    obtain ⟨y, c, rfl⟩ := List.exists_cons_of_ne_nil hc
    obtain rfl : x = y := (List.cons.inj hab).1
    exact absurd (hspaces x (by simp)) (by simp [hnone x (by simp)])
  rw [List.append_assoc p w q] at h
  rcases List.append_eq_append_iff.mp h with ⟨a, hp, hs'⟩ | ⟨b, hst, hwq⟩
  · exact .inl ⟨a, hp, by rw [hs', List.append_assoc]⟩
  · rcases List.append_eq_append_iff.mp hst with ⟨t₁, rfl, rfl⟩ | ⟨b₁, rfl, rfl⟩
    · rcases List.eq_nil_or_concat b with rfl | ⟨b₀, c, rfl⟩
      · exact .inl ⟨[], by simp, by simpa using hwq.symm⟩
      · exact (hapart hw (by simp) hwq hspace fun x hx => ht x (List.mem_append_right _ hx)).elim
    · rw [List.append_assoc] at hwq
      rcases List.append_eq_append_iff.mp hwq with ⟨b, rfl, hq⟩ | ⟨w₂, rfl, hq⟩
      · exact .inr ⟨b, by rw [hq, List.append_assoc], by rw [List.append_assoc]⟩
      · rcases List.eq_nil_or_concat w₂ with rfl | ⟨w₀, c, rfl⟩
        · exact .inr ⟨[], by simpa using hq.symm, by simp⟩
        · exact (hapart (by simp) hne hq.symm
            (fun x hx => hspace x (List.mem_append_right _ hx)) ht).elim

/-- White space around a mark. -/
theorem tight_mark {s t s' : List Char} (hs : ∀ c ∈ s, isSpace c = true)
    (hs' : ∀ c ∈ s', isSpace c = true) (ht : ∀ c ∈ t, isSpace c = false)
    (hbefore : ∃ u ∈ marksBefore, u.toList.map foldCase = t.map foldCase)
    (hafter : ∃ c ∈ marksAfter, [c] <+: t) : Tight (s ++ t ++ s') := by
  intro p w q h hw hspace hp hq
  -- the mark is not in the white space, so it is in front of it or behind it
  have hne : t ≠ [] := by
    rintro rfl
    obtain ⟨c, -, hc⟩ := hafter
    simp at hc
  rcases beside h hw hspace hne ht with ⟨a, rfl, ha⟩ | ⟨b, rfl, hb⟩
  · have hnil : a = [] := by
      rcases List.eq_nil_or_concat a with rfl | ⟨a₀, c, rfl⟩
      · rfl
      · have hc := hs' c (by rw [ha]; simp)
        have := hp c (by simp)
        simp [hc] at this
    obtain ⟨u, hu, hut⟩ := hbefore
    refine .inl ⟨u, hu, ?_⟩
    rw [hnil, hut, List.append_nil, List.map_append]
    exact List.suffix_append _ _
  · have hnil : b = [] := by
      rcases b with _ | ⟨c, b⟩
      · rfl
      · have hc := hs c (by rw [hb]; simp)
        have := hq c (by simp)
        simp [hc] at this
    obtain ⟨c, hc, hct⟩ := hafter
    refine .inr ⟨c, hc, ?_⟩
    rw [hnil, List.nil_append]
    exact hct.trans (List.prefix_append _ _)

/-! ## Words of the patterns -/

/-- The word begins with a character, and its white space is next to
marks. -/
def Tidy (m : List Char) : Prop := (∃ c m', m = c :: m' ∧ isSpace c = false) ∧ Tight m

theorem Tidy.append {m n : List Char} (hm : Tidy m) (hn : Tight n) : Tidy (m ++ n) := by
  obtain ⟨⟨c, m', rfl, hc⟩, htight⟩ := hm
  exact ⟨⟨c, m' ++ n, rfl, hc⟩, htight.append hn⟩

theorem tidy_of_solid {m : List Char} (hne : m ≠ []) (h : ∀ c ∈ m, isSpace c = false) : Tidy m := by
  obtain ⟨c, m, rfl⟩ := List.exists_cons_of_ne_nil hne
  exact ⟨⟨c, m, rfl, h c (by simp)⟩, tight_of_solid h⟩

def Solid (form : String) : Prop := ∀ c ∈ form.toList, isSpace c = false

instance (form : String) : Decidable (Solid form) := inferInstanceAs (Decidable (∀ c ∈ _, _))

/-- A name in any case. -/
theorem words_formI (form : String) : (formI form).Words fun m =>
    m.map foldCase = form.toList.map foldCase := by
  refine (Re.Words.seqAll (p := fun c x => foldCase c == foldCase x) form.toList).mono
    fun m hm => ?_
  generalize form.toList = cs at hm ⊢
  induction hm with
  | nil => rfl
  | cons hxy _ ih => rw [List.map_cons, List.map_cons, ih, beq_iff_eq.mp hxy]

theorem words_lit (s : String) : (Re.lit s).Words fun m => m = s.toList := by
  refine (Re.Words.seqAll (p := fun c x => x == c) s.toList).mono fun m hm => ?_
  generalize s.toList = cs at hm ⊢
  induction hm with
  | nil => rfl
  | cons hxy _ ih => rw [ih, beq_iff_eq.mp hxy]

theorem solid_of_fold {form : String} (hform : Solid form) {m : List Char}
    (h : m.map foldCase = form.toList.map foldCase) : ∀ c ∈ m, isSpace c = false := by
  intro c hc
  by_contra hspace
  rw [Bool.not_eq_false] at hspace
  obtain ⟨d, hd, hdc⟩ := List.mem_map.mp (h ▸ List.mem_map_of_mem (f := foldCase) hc)
  have heq : d = c := foldCase_space hspace hdc
  exact absurd (hform d hd) (by simp [heq, hspace])

theorem ne_nil_of_fold {form : String} (hne : form ≠ "") {m : List Char}
    (h : m.map foldCase = form.toList.map foldCase) : m ≠ [] := by
  rintro rfl
  refine hne ?_
  have hnil : form.toList = [] := List.map_eq_nil_iff.mp h.symm
  simpa using hnil

theorem tidy_formI {form : String} (hne : form ≠ "") (hform : Solid form) :
    (formI form).Words Tidy :=
  (words_formI form).mono fun _ hm => tidy_of_solid (ne_nil_of_fold hne hm) (solid_of_fold hform hm)

theorem tight_formI {form : String} (hform : Solid form) : (formI form).Words Tight :=
  (words_formI form).mono fun _ hm => tight_of_solid (solid_of_fold hform hm)

theorem tidy_lit {form : String} (hne : form ≠ "") (hform : Solid form) :
    (Re.lit form).Words Tidy :=
  (words_lit form).mono fun m hm => by
    subst hm
    exact tidy_of_solid (by simpa using hne) hform

/-! ## Words of a suffix -/

theorem words_spaces : (Re.star space).Words fun m => ∀ c ∈ m, isSpace c = true :=
  Re.Words.reads _

def MarkWord (t : List Char) : Prop :=
  (∀ c ∈ t, isSpace c = false) ∧ (∃ u ∈ marksBefore, u.toList.map foldCase = t.map foldCase)
    ∧ ∃ c ∈ marksAfter, [c] <+: t

theorem fold_mark {u : String} (hu : u ∈ marksBefore) {t : List Char}
    (ht : t.map foldCase = u.toList.map foldCase) : ∃ c ∈ marksAfter, ∃ v, t = c :: v := by
  have hhead : ∀ u ∈ marksBefore, ∃ c ∈ marksAfter, (u.toList.map foldCase).head? = some c
      ∧ ¬ (97 ≤ c.toNat ∧ c.toNat ≤ 122) := by decide
  obtain ⟨c, hc, hfirst, hlower⟩ := hhead u hu
  rw [← ht, List.head?_map] at hfirst
  obtain ⟨d, hd, hdc⟩ := Option.map_eq_some_iff.mp hfirst
  obtain rfl : d = c := foldCase_eq hlower hdc
  exact ⟨d, hc, List.head?_eq_some_iff.mp hd⟩

theorem words_mark {u : String} (hu : u ∈ marksBefore) : (formI u).Words MarkWord := by
  refine (words_formI u).mono fun t ht => ?_
  have hsolid : ∀ u ∈ marksBefore, Solid u := by decide
  obtain ⟨c, hc, v, rfl⟩ := fold_mark hu ht
  exact ⟨solid_of_fold (hsolid u hu) ht, ⟨u, hu, ht.symm⟩, c, hc, v, rfl⟩

/-- A mark between white space. -/
theorem tight_marks {marks : List String} (h : ∀ u ∈ marks, u ∈ marksBefore) :
    (Re.seqAll [.star space, .altAll (marks.map formI), .star space]).Words Tight := by
  have hmark : (Re.altAll (marks.map formI)).Words MarkWord := by
    refine .altAll fun r hr => ?_
    obtain ⟨u, hu, rfl⟩ := List.mem_map.mp hr
    exact words_mark (h u hu)
  have htail : (Re.seq (.altAll (marks.map formI)) (.star space)).Words fun m =>
      ∃ t s, m = t ++ s ∧ MarkWord t ∧ ∀ c ∈ s, isSpace c = true :=
    hmark.seq words_spaces fun t s ht hs => ⟨t, s, rfl, ht, hs⟩
  refine words_spaces.seq htail ?_
  rintro s _ hs ⟨t, s', rfl, ⟨ht, hbefore, hafter⟩, hs'⟩
  rw [← List.append_assoc]
  exact tight_mark hs hs' ht hbefore hafter

theorem tidy_suffixDC : SUFFIX_DC.Words Tidy := by
  have hdc : (formI "dc").Words Tidy := tidy_formI (by decide) (by decide)
  have hmarks : ∀ u ∈ ["=", "\\=", "\\3D", "%3D"], u ∈ marksBefore := by decide
  exact hdc.seq (tight_marks hmarks) fun _ _ => Tidy.append

theorem tight_suffixSEP : SUFFIX_SEP.Words Tight := by
  have hmarks : ∀ u ∈ [",", "\\,", "\\2C", "%2C"], u ∈ marksBefore := by decide
  exact tight_marks hmarks

theorem tight_suffixBody : ∀ {labels : List String}, (∀ lb ∈ labels, Solid lb) →
    (suffixBody labels).Words Tight
  | [], _ => .eps (tight_of_solid nofun)
  | [lb], h => tidy_suffixDC.seq (tight_formI (h lb (by simp))) fun _ _ hm hn => hm.2.append hn
  | lb :: lb' :: lbs, h =>
      have hrest : (suffixBody (lb' :: lbs)).Words Tight :=
        tight_suffixBody fun l hl => h l (List.mem_cons_of_mem _ hl)
      tidy_suffixDC.seq ((tight_formI (h lb (by simp))).seq
        (tight_suffixSEP.seq hrest fun _ _ hm hn => hm.append hn) fun _ _ hm hn => hm.append hn)
        fun _ _ hm hn => hm.2.append hn

theorem tidy_suffixBody {labels : List String} (hne : labels ≠ []) (h : ∀ lb ∈ labels, Solid lb) :
    (suffixBody labels).Words Tidy := by
  match labels, hne with
  | [lb], _ => exact tidy_suffixDC.seq (tight_formI (h lb (by simp))) fun _ _ => Tidy.append
  | lb :: lb' :: lbs, _ =>
      have hrest : (suffixBody (lb' :: lbs)).Words Tight :=
        tight_suffixBody fun l hl => h l (List.mem_cons_of_mem _ hl)
      exact tidy_suffixDC.seq ((tight_formI (h lb (by simp))).seq
        (tight_suffixSEP.seq hrest fun _ _ hm hn => hm.append hn) fun _ _ hm hn => hm.append hn)
        fun _ _ => Tidy.append

theorem mem_intercalate {x c : Char} {cs : List Char} : ∀ {css : List (List Char)}, cs ∈ css →
    c ∈ cs → c ∈ [x].intercalate css
  | [ds], hcs, hc => by
      obtain rfl := List.mem_singleton.mp hcs
      simpa using hc
  | ds :: es :: css, hcs, hc => by
      rw [List.intercalate_cons_cons]
      rcases List.mem_cons.mp hcs with rfl | hcs
      · simp [hc]
      · exact List.mem_append_right _ (mem_intercalate hcs hc)

theorem solid_labelsOf {form : String} (h : Solid form) : ∀ lb ∈ labelsOf form, Solid lb := by
  intro lb hlb c hc
  obtain ⟨cs, hcs, rfl⟩ := List.mem_map.mp hlb
  rw [String.toList_ofList] at hc
  have hform : ['.'].intercalate (form.toList.splitOn '.') = form.toList :=
    List.intercalate_splitOn '.'
  refine h c ?_
  rw [← hform]
  exact mem_intercalate hcs hc

theorem labelsOf_ne_nil (form : String) : labelsOf form ≠ [] := by
  simp [labelsOf]

/-! ## The patterns -/

/-- A text form, in any case, or a tidy word. -/
def Tame (form : String) (m : List Char) : Prop :=
  form ≠ "" ∧ m.map foldCase = form.toList.map foldCase ∨ Tidy m

/-- A pattern for a text form: it sees nothing behind white space, and
reads the form or a tidy word. -/
structure Pattern.Tame (form : String) (P : Pattern) : Prop where
  before : Blind P.before
  after : Blind P.after
  endless : P.body.endless = true
  words : P.body.Words (Bundle.Tame form)

theorem tame_formI {form : String} (hne : form ≠ "") : (formI form).Words (Tame form) :=
  (words_formI form).mono fun _ hm => .inl ⟨hne, hm⟩

theorem tame_lit {form : String} (hne : form ≠ "") : (Re.lit form).Words (Tame form) :=
  (words_lit form).mono fun m hm => .inl ⟨hne, by rw [hm]⟩

theorem endless_formI (form : String) : (formI form).endless = true := by
  refine Re.endless_seqAll fun r hr => ?_
  obtain ⟨c, -, rfl⟩ := List.mem_map.mp hr
  rfl

theorem endless_lit (s : String) : (Re.lit s).endless = true := by
  refine Re.endless_seqAll fun r hr => ?_
  obtain ⟨c, -, rfl⟩ := List.mem_map.mp hr
  rfl

theorem endless_suffixBody : ∀ labels, (suffixBody labels).endless = true
  | [] => rfl
  | [lb] => Bool.and_eq_true_iff.mpr ⟨by decide, endless_formI lb⟩
  | lb :: lb' :: lbs =>
      Bool.and_eq_true_iff.mpr ⟨by decide, Bool.and_eq_true_iff.mpr ⟨endless_formI lb,
        Bool.and_eq_true_iff.mpr ⟨by decide, endless_suffixBody (lb' :: lbs)⟩⟩⟩

theorem Spaceless.or {p q : Char → Bool} (hp : Spaceless p) (hq : Spaceless q) :
    Spaceless fun c => p c || q c := by
  intro w hw
  show (p w || q w) = false
  rw [hp w hw, hq w hw, Bool.or_false]

theorem spaceless_beq {x : Char} (h : x ∉ spaces) : Spaceless (· == x) := by
  refine spaceless_of fun w hw => ?_
  rw [beq_eq_false_iff_ne]
  rintro rfl
  exact h hw

theorem spaceless_dot : Spaceless (· == '.') := spaceless_beq (by decide)

theorem spaceless_colon : Spaceless (· == ':') := spaceless_beq (by decide)

theorem spaceless_dash : Spaceless (· == '-') := spaceless_beq (by decide)

theorem spaceless_underscore : Spaceless (· == '_') := spaceless_beq (by decide)

theorem spaceless_nameCharI : Spaceless nameCharI :=
  ((spaceless_wordI.or spaceless_underscore).or spaceless_dot).or spaceless_dash

theorem blind_wholeName (loose : Bool) : Blind (wholeName loose) := by
  intro w hw xs ys
  rw [wholeName, wholeName, blind_noneOf₂ spaceless_dot spaceless_alnum w hw]

theorem blind_slash : Blind fun rest => rest.head? == some '/' := by
  intro w hw xs ys
  cases xs with
  | nil =>
      have hne : w ≠ '/' := by
        rintro rfl
        exact absurd hw (by decide)
      simpa using hne
  | cons x xs => rfl

theorem ipPattern_tame {form : String} (hne : form ≠ "") : (ipPattern form).Tame form := by
  rw [ipPattern]
  split
  · exact {
      before := (blind_noneOf (spaceless_hex.or spaceless_dot)).and
        (blind_noneOf₂ spaceless_colon spaceless_hex)
      after := ((blind_noneOf spaceless_hex).and
        (blind_noneOf₂ spaceless_colon (spaceless_hex.or spaceless_colon))).and
          (blind_noneOf₂ spaceless_dot spaceless_decimal)
      endless := endless_formI form
      words := tame_formI hne }
  · have hdigit : Spaceless Regex.digit := spaceless_of (by decide)
    exact {
      before := (blind_noneOf hdigit).and (blind_noneOf₂ spaceless_dot hdigit)
      after := (blind_noneOf spaceless_decimal).and (blind_noneOf₂ spaceless_dot spaceless_decimal)
      endless := endless_lit form
      words := tame_lit hne }

theorem variantPattern_tame (loose : Bool) {cls : Cls} {form : String} (hne : form ≠ "")
    (hsuffix : cls = .SUFFIX → Solid form) : (variantPattern loose cls form).Tame form := by
  have hletter : Spaceless asciiLetter := spaceless_of (by decide)
  have hword := (spaceless_alnum.or spaceless_underscore).or spaceless_dash
  have hsoft := spaceless_alnum.or spaceless_dash
  have hname : ∀ {before after : List Char → Bool}, Blind before → Blind after →
      Pattern.Tame form ⟨before, formI form, after⟩ := fun hb ha =>
    ⟨hb, ha, endless_formI form, tame_formI hne⟩
  cases cls with
  | HOST =>
      rw [variantPattern]
      split
      · exact hname blind_anywhere ((blind_noneOf spaceless_alnum).and (blind_wholeName loose))
      · exact hname (blind_noneOf spaceless_nameCharI) (blind_noneOf hword)
  | DOMAIN =>
      rw [variantPattern]
      split
      · exact hname (blind_noneOf (spaceless_wordI.or spaceless_dash)) (blind_noneOf hsoft)
      · exact hname
          (blind_noneOf ((spaceless_wordI.or spaceless_underscore).or spaceless_dash))
          ((blind_noneOf spaceless_alnum).and (blind_wholeName loose))
  | REALM => exact ⟨blind_noneOf hletter, blind_noneOf spaceless_alnum, endless_lit form,
      tame_lit hne⟩
  | SUFFIX => exact ⟨blind_anywhere, blind_noneOf hsoft, endless_suffixBody _,
      (tidy_suffixBody (labelsOf_ne_nil form) (solid_labelsOf (hsuffix rfl))).mono fun _ => .inr⟩
  | INSTANCE => exact hname (blind_noneOf spaceless_wordI) (blind_noneOf hsoft)
  | IP => exact ipPattern_tame hne
  | EMAIL => exact hname blind_anywhere (blind_noneOf hword)
  | SERVICE => exact hname (blind_noneOf spaceless_nameCharI) blind_slash
  | USER | GROUP | HOSTGROUP => exact hname (blind_noneOf spaceless_nameCharI) (blind_noneOf hword)

theorem words_boundary : Re.wordB.Words (· = []) := by
  intro c c' hc'
  simp only [Re.run] at hc'
  split at hc'
  · obtain rfl := List.mem_singleton.mp hc'
    exact ⟨[], rfl, rfl⟩
  · cases hc'

theorem words_class :
    (Re.altAll (CLASSES.map Re.lit)).Words fun m => ∃ s ∈ CLASSES, m = s.toList := by
  refine .altAll fun r hr => ?_
  obtain ⟨s, hs, rfl⟩ := List.mem_map.mp hr
  exact (words_lit s).mono fun m hm => ⟨s, hs, hm⟩

theorem keepPattern_tame : keepPattern.Tame "" where
  before := blind_anywhere
  after := blind_noneOf₂ spaceless_dot spaceless_alnum
  endless := by decide
  words := by
    have hclass : (Re.altAll (CLASSES.map Re.lit)).Words Tidy := by
      refine words_class.mono ?_
      rintro _ ⟨s, hs, rfl⟩
      have hall : ∀ s ∈ CLASSES, s.toList ≠ [] ∧ Solid s := by decide
      exact tidy_of_solid (hall s hs).1 (hall s hs).2
    have hdash : (Re.char '-').Words Tight := by
      refine .cls fun x hx => tight_of_solid fun c hc => ?_
      rw [List.mem_singleton.mp hc, beq_iff_eq.mp hx]
      decide
    have hdigits : (Re.rep true 3 none (.cls Unicode.isDecimal)).Words Tight :=
      (Re.Words.reads _).mono fun m hm => tight_of_solid fun c hc => by
        by_contra hspace
        rw [Bool.not_eq_false] at hspace
        exact absurd (hm c hc) (by simp [Re.Reads, spaceless_decimal c hspace])
    have htail := hdash.seq (hdigits.seq words_boundary fun m n hm hn =>
      (by rw [hn, List.append_nil]; exact hm : Tight (m ++ n))) fun _ _ => Tight.append
    exact words_boundary.seq (hclass.seq htail fun _ _ => Tidy.append) fun m n hm hn =>
      (by rw [hm, List.nil_append]; exact .inr hn : Bundle.Tame "" (m ++ n))

/-- A pseudonym begins as the name of a class does. -/
theorem keepPattern_reads?_none {x : Char} (h : ∀ s ∈ CLASSES, s.toList.head? ≠ some x)
    (seen rest : List Char) : keepPattern.reads? seen (x :: rest) = none := by
  have hwords : keepPattern.body.Words fun m => ∃ s ∈ CLASSES, s.toList <+: m := by
    have htail : (Re.seq (.altAll (CLASSES.map Re.lit)) (.seqAll [.char '-',
        .rep true 3 none (.cls Unicode.isDecimal), .wordB])).Words fun m =>
          ∃ s ∈ CLASSES, s.toList <+: m := by
      refine words_class.seq (Re.Words.reads _) ?_
      rintro _ n ⟨s, hs, rfl⟩ -
      exact ⟨s, hs, List.prefix_append _ _⟩
    refine words_boundary.seq htail ?_
    rintro m n rfl hn
    exact hn
  have hnone : keepPattern.body.run ⟨seen.head?, x :: rest, []⟩ = [] := by
    refine List.eq_nil_iff_forall_not_mem.mpr fun c hc => ?_
    obtain ⟨m, hm, s, hs, t, rfl⟩ := hwords _ c hc
    have hne : ∀ s ∈ CLASSES, s.toList ≠ [] := by decide
    obtain ⟨y, ys, hy⟩ := List.exists_cons_of_ne_nil (hne s hs)
    rw [hy] at hm
    obtain ⟨rfl, -⟩ := List.cons.inj hm
    exact h s hs (by rw [hy]; rfl)
  rw [Pattern.reads?, hnone]
  simp

/-- A form begins with its first character, in any case. -/
theorem reads?_formI_none {P : Pattern} {form : String} {c x : Char}
    (hbody : P.body = formI form) (hhead : form.toList.head? = some c)
    (h : foldCase x ≠ foldCase c) (seen rest : List Char) : P.reads? seen (x :: rest) = none := by
  have hnone : P.body.run ⟨seen.head?, x :: rest, []⟩ = [] := by
    refine List.eq_nil_iff_forall_not_mem.mpr fun d hd => ?_
    rw [hbody] at hd
    obtain ⟨m, hm, hfold⟩ := words_formI form _ d hd
    obtain ⟨cs, hcs⟩ := List.head?_eq_some_iff.mp hhead
    rw [hcs] at hfold
    rcases m with _ | ⟨y, m⟩
    · cases hfold
    · obtain ⟨rfl, -⟩ := List.cons.inj hm
      exact h (List.cons.inj hfold).1
  rw [Pattern.reads?, hnone]
  simp

/-! ## At a cut -/

/-- The white space at a cut is next to no mark. -/
def Apart (l r : List Char) : Prop :=
  ∀ p s s' q, l = p ++ s → r = s' ++ q → (∀ c ∈ s, isSpace c = true) →
    (∀ c ∈ s', isSpace c = true) → ¬ Marked p q

theorem trailing_spaces (xs : List Char) : ∃ p s, xs = p ++ s ∧ (∀ c ∈ s, isSpace c = true)
    ∧ ∀ c ∈ p.getLast?, isSpace c = false := by
  induction xs using List.reverseRecOn with
  | nil => exact ⟨[], [], rfl, nofun, nofun⟩
  | append_singleton xs x ih =>
      by_cases hx : isSpace x = true
      · obtain ⟨p, s, rfl, hs, hp⟩ := ih
        refine ⟨p, s ++ [x], by rw [List.append_assoc], fun c hc => ?_, hp⟩
        rcases List.mem_append.mp hc with hc | hc
        · exact hs c hc
        · rwa [List.mem_singleton.mp hc]
      · exact ⟨xs ++ [x], [], by simp, nofun, by simpa using hx⟩

theorem leading_spaces (xs : List Char) : ∃ s q, xs = s ++ q ∧ (∀ c ∈ s, isSpace c = true)
    ∧ ∀ c ∈ q.head?, isSpace c = false := by
  refine ⟨xs.takeWhile isSpace, xs.dropWhile isSpace, (List.takeWhile_append_dropWhile ..).symm,
    fun c hc => List.all_eq_true.mp List.all_takeWhile c hc, fun c hc => ?_⟩
  have h := List.head?_dropWhile_not isSpace xs
  rw [Option.mem_def.mp hc] at h
  simpa using h

/-- The form begins at the cut, or in front of it, and goes on behind. -/
def Across (form l r : List Char) : Prop :=
  ∃ x y, form = x ++ y ∧ y ≠ [] ∧ x.map foldCase <:+ l.map foldCase
    ∧ y.map foldCase <+: r.map foldCase

theorem Across.mono {form l r : List Char} (h : Across form l r) (l₀ r₀ : List Char) :
    Across form (l₀ ++ l) (r ++ r₀) := by
  obtain ⟨x, y, hform, hy, hx, hpre⟩ := h
  refine ⟨x, y, hform, hy, ?_, ?_⟩
  · rw [List.map_append]
    exact hx.trans (List.suffix_append _ _)
  · rw [List.map_append]
    exact hpre.trans (List.prefix_append _ _)

section Places

variable {form : String} {P : Pattern} {w : Char} {l xs ys seen seen' : List Char}

/-- A tidy word does not read across a cut. -/
theorem Tight.stays {m rest : List Char} (htight : Tight m) (hw : isSpace w = true)
    (hapart : Apart (l ++ xs) (w :: ys)) (hm : xs ++ w :: ys = m ++ rest) :
    ys.length < rest.length := by
  by_contra hlen
  rcases List.append_eq_append_iff.mp hm with ⟨t, rfl, hcut⟩ | ⟨t, -, hrest⟩
  · obtain ⟨p, s, rfl, hs, hp⟩ := trailing_spaces xs
    obtain ⟨s', q, rfl, hs', hq⟩ := leading_spaces t
    have hne : s ++ s' ≠ [] := by
      intro hnil
      obtain ⟨rfl, rfl⟩ := List.append_eq_nil_iff.mp hnil
      rcases q with _ | ⟨x, q⟩
      · rw [List.nil_append, List.nil_append] at hcut
        rw [← hcut] at hlen
        simp at hlen
      · obtain ⟨rfl, -⟩ := List.cons.inj hcut
        have := hq w rfl
        simp [hw] at this
    have hspaces : ∀ c ∈ s ++ s', isSpace c = true := by
      intro c hc
      exact (List.mem_append.mp hc).elim (hs c) (hs' c)
    have hmark := htight p (s ++ s') q (by simp) hne hspaces hp hq
    exact hapart (l ++ p) s s' (q ++ rest) (by simp) (by rw [hcut]; simp) hs hs'
      (hmark.extend l rest)
  · rw [hrest, List.length_append, List.length_cons] at hlen
    omega

/-- A form that does not lie across a cut is not read across it. -/
theorem stays_of_fold {m rest : List Char} (hfold : m.map foldCase = form.toList.map foldCase)
    (hacross : ¬ Across form.toList (l ++ xs) (w :: ys)) (hm : xs ++ w :: ys = m ++ rest) :
    ys.length < rest.length := by
  by_contra hlen
  rcases List.append_eq_append_iff.mp hm with ⟨t, rfl, hcut⟩ | ⟨t, -, hrest⟩
  · rw [List.map_append] at hfold
    obtain ⟨x, y, hform, hx, hy⟩ := List.map_eq_append_iff.mp hfold.symm
    refine hacross ⟨x, y, hform, ?_, ?_, ?_⟩
    · rintro rfl
      obtain rfl : t = [] := List.map_eq_nil_iff.mp hy.symm
      rw [List.nil_append] at hcut
      rw [← hcut] at hlen
      simp at hlen
    · rw [hx, List.map_append]
      exact List.suffix_append _ _
    · rw [hy, hcut, List.map_append]
      exact List.prefix_append _ _
  · rw [hrest, List.length_append, List.length_cons] at hlen
    omega

/-- No match reads across a cut. -/
theorem Pattern.Tame.stays (hP : P.Tame form) (hw : isSpace w = true)
    (hapart : Apart (l ++ xs) (w :: ys)) (hacross : ¬ Across form.toList (l ++ xs) (w :: ys))
    (prev : Option Char) :
    ∀ c ∈ P.body.run ⟨prev, xs ++ w :: ys, []⟩, ys.length < c.rest.length := by
  intro c hc
  obtain ⟨m, hm, ⟨-, hfold⟩ | ⟨-, htight⟩⟩ := hP.words _ c hc
  · exact stays_of_fold hfold hacross hm
  · exact htight.stays hw hapart hm

/-- No match begins with the white space at a cut. -/
theorem Pattern.Tame.reads?_space (hP : P.Tame form) (hw : isSpace w = true)
    (hacross : ¬ Across form.toList l (w :: ys)) : P.reads? seen (w :: ys) = none := by
  have hnone : P.body.run ⟨seen.head?, w :: ys, []⟩ = [] := by
    refine List.eq_nil_iff_forall_not_mem.mpr fun c hc => ?_
    obtain ⟨m, hm, ⟨hne, hfold⟩ | ⟨⟨x, m', rfl, hx⟩, -⟩⟩ := hP.words _ c hc
    · refine hacross ⟨[], form.toList, rfl, by simpa using hne, List.nil_suffix, ?_⟩
      rw [← hfold, show w :: ys = m ++ c.rest from hm, List.map_append]
      exact List.prefix_append _ _
    · obtain ⟨rfl, -⟩ := List.cons.inj hm
      simp [hw] at hx
  rw [Pattern.reads?, hnone]
  simp

theorem Pattern.Tame.reads?_cut (hP : P.Tame form) (hw : isSpace w = true)
    (hapart : Apart (l ++ xs) (w :: ys)) (hacross : ¬ Across form.toList (l ++ xs) (w :: ys)) :
    P.reads? seen (xs ++ w :: ys) = P.reads? seen xs := by
  have hfind := @Re.find?_append P.body P.after seen.head? xs ys w (spaceless_word w hw) hP.endless
    (hP.after w hw · ys) fun c hc _ => hP.stays hw hapart hacross _ c hc
  rw [Pattern.reads?, Pattern.reads?, hfind]
  split
  · rw [Option.map_map]
    congr 1
    funext c
    simp only [Function.comp_apply, Regex.Cursor.extend, List.length_append]
    omega
  · rfl

/-- A match is not empty. -/
theorem Pattern.Tame.reads?_pos (hP : P.Tame form) {n : Nat} (h : P.reads? seen xs = some n) :
    0 < n := by
  rw [Pattern.reads?] at h
  split at h
  · obtain ⟨c, hc, rfl⟩ := Option.map_eq_some_iff.mp h
    obtain ⟨m, hm, hword⟩ := hP.words _ c (List.mem_of_find?_eq_some hc)
    have hne : m ≠ [] := by
      rintro rfl
      rcases hword with ⟨hne, hfold⟩ | ⟨⟨x, m', hnil, -⟩, -⟩
      · exact ne_nil_of_fold hne hfold rfl
      · cases hnil
    replace hm : xs = m ++ c.rest := hm
    have hpos := List.length_pos_iff.mpr hne
    rw [hm, List.length_append]
    omega
  · cases h

/-- A form without white space lies across no cut in front of white
space. -/
theorem not_across_of_solid (hform : Solid form) (hw : isSpace w = true) :
    ¬ Across form.toList l (w :: ys) := by
  rintro ⟨x, y, hxy, hy, -, hpre⟩
  obtain ⟨c, y, rfl⟩ := List.exists_cons_of_ne_nil hy
  rw [List.map_cons, List.map_cons, List.cons_prefix_cons] at hpre
  obtain rfl := foldCase_space hw hpre.1
  exact absurd hw (by simp [hform c (by rw [hxy]; simp)])

/-- What stands before white space is not seen behind it. -/
theorem Pattern.Tame.reads?_behind (hP : P.Tame form) (hw : isSpace w = true)
    (xs ys rest : List Char) : P.reads? (xs ++ w :: ys) rest = P.reads? (xs ++ [w]) rest := by
  have hhead : (xs ++ w :: ys).head? = (xs ++ [w]).head? := by cases xs <;> rfl
  rw [Pattern.reads?, Pattern.reads?, hP.before w hw xs ys, hP.before w hw xs [], hhead]

/-- The text is cut here in front of white space that is next to no mark,
and none of the forms lies across. -/
structure Cut (forms : List String) (l r : List Char) : Prop where
  soft : ∃ w ys, r = w :: ys ∧ isSpace w = true
  apart : Apart l r
  across : ∀ form ∈ forms, ¬ Across form.toList l r

/-- In the piece between two cuts, or an end of the text and a cut, the
name is found as in the text. -/
theorem Pattern.Tame.reads?_piece {forms : List String} {before piece after : List Char}
    (hP : P.Tame form) (hform : form ≠ "" → form ∈ forms)
    (hfirst : before ≠ [] → piece ≠ [] ∧ Cut forms before (piece ++ after))
    (hnext : after ≠ [] → Cut forms (before ++ piece) after) {u v : List Char}
    (hpiece : piece = u ++ v) :
    P.reads? (u.reverse ++ before.reverse) (v ++ after) = P.reads? u.reverse v := by
  have hnot : ∀ {l r : List Char}, Cut forms l r → ¬ Across form.toList l r := by
    intro l r hcut hacross
    by_cases hne : form = ""
    · obtain ⟨x, y, hxy, hy, -⟩ := hacross
      rw [hne] at hxy
      exact hy (List.append_eq_nil_iff.mp hxy.symm).2
    · exact hcut.across form (hform hne) hacross
  have hafter : ∀ seen, P.reads? seen (v ++ after) = P.reads? seen v := by
    intro seen
    by_cases hne : after = []
    · rw [hne, List.append_nil]
    · have hcut := hnext hne
      obtain ⟨w, ys, rfl, hw⟩ := hcut.soft
      rw [hpiece, ← List.append_assoc] at hcut
      exact hP.reads?_cut hw hcut.apart (hnot hcut)
  rw [hafter]
  by_cases hne : before = []
  · rw [hne, List.reverse_nil, List.append_nil]
  · obtain ⟨hpne, hcut⟩ := hfirst hne
    obtain ⟨w, ys, hwys, hw⟩ := hcut.soft
    obtain ⟨x, rest, rfl⟩ := List.exists_cons_of_ne_nil hpne
    obtain ⟨rfl, -⟩ := List.cons.inj hwys
    cases u with
    | nil =>
        have hnone : ¬ Across form.toList before (x :: rest) := fun h =>
          hnot hcut (h.mono [] after)
        rw [← (show x :: rest = v from hpiece), hP.reads?_space hw hnone,
          hP.reads?_space hw hnone]
    | cons y u =>
        obtain ⟨rfl, -⟩ := List.cons.inj hpiece
        rw [List.reverse_cons, List.append_assoc, List.singleton_append]
        exact hP.reads?_behind hw _ _ _

end Places

end IpaDiagnose.Bundle
