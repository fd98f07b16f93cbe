import IpaDiagnose.Bundle.Cuts
import IpaDiagnose.Lib.Ranked

/-!
# Chunks and the whole text

The chunks make up the text. Each is rewritten as in the text where every
cut falls in front of white space, neither a suffix nor a form lies
across it, and no form that a chunk leaves out is found in it. At a hard
cut a name is taken apart and stays.
-/

namespace IpaDiagnose.Bundle

open Pieces (Agree Fits)
open Unicode (isSpace)

/-! ## The forms that take part -/

/-- Whether the alternative of a form is tried first; both passes agree
on it. -/
def triedFirst (v w : Ident × Ident) : Prop := tried (alternative false v) (alternative false w)

instance : DecidableRel triedFirst := fun _ _ => inferInstanceAs (Decidable (tried _ _))

instance : Std.Total triedFirst where
  total v w := by
    unfold triedFirst tried
    omega

instance : IsTrans (Ident × Ident) triedFirst where
  trans u v w huv hvw := by
    unfold triedFirst tried at *
    omega

instance : Std.Total variantLe := ⟨fun _ _ => List.le_total _ _⟩

instance : IsTrans (Ident × Ident) variantLe := ⟨fun _ _ _ h h' => List.le_trans h h'⟩

/-- The forms as they are tried: the longest first, else in their order. -/
def ordered (present : List (Ident × Ident)) : List (Ident × Ident) :=
  (present.insertionSort variantLe).insertionSort triedFirst

def regexOf (loose : Bool) (present : List (Ident × Ident)) : List Alternative :=
  buildRegex loose (present.insertionSort variantLe)

theorem regexOf_eq (loose : Bool) (present : List (Ident × Ident)) :
    regexOf loose present = (ordered present).map (alternative loose) := by
  rw [regexOf, buildRegex, ordered]
  exact (List.map_insertionSort triedFirst tried (alternative loose) _
    fun _ _ _ _ => Iff.rfl).symm

theorem ordered_filter (q : Ident × Ident → Bool) (present : List (Ident × Ident)) :
    ordered (present.filter q) = (ordered present).filter q := by
  rw [ordered, ordered, Ranked.filter_insertionSort, Ranked.filter_insertionSort]

theorem mem_ordered {v : Ident × Ident} {present : List (Ident × Ident)} :
    v ∈ ordered present ↔ v ∈ present := by
  rw [ordered, List.mem_insertionSort, List.mem_insertionSort]

/-! ## Finding names in a piece -/

/-- The name is nowhere in the text. -/
def Nowhere (P : Pattern) (text : List Char) : Prop :=
  ∀ u v, text = u ++ v → v ≠ [] → P.reads? u.reverse v = none

/-- The forms are not empty, and the name of a suffix has no white
space. -/
def Proper (present : List (Ident × Ident)) : Prop :=
  ∀ v ∈ present, v.1.2 ≠ "" ∧ (v.1.1 = .SUFFIX → Solid v.1.2)

def formsOf (present : List (Ident × Ident)) : List String := present.map fun v => v.1.2

theorem mem_formsOf {present : List (Ident × Ident)} {v : Ident × Ident} (hv : v ∈ present) :
    v.1.2 ∈ formsOf present :=
  List.mem_map.mpr ⟨v, hv, rfl⟩

def hit (loose : Bool) (v : Ident × Ident) (seen rest : List Char) :
    Option (Option Ident × Nat) :=
  ((variantPattern loose v.1.1 v.1.2).reads? seen rest).map fun n => (some v.2, n)

theorem finder_eq (loose : Bool) (present : List (Ident × Ident)) (seen rest : List Char) :
    finder (regexOf loose present) seen rest
      = match keepPattern.reads? seen rest with
        | some n => some (none, n)
        | none => (ordered present).findSome? fun v => hit loose v seen rest := by
  rw [finder, regexOf_eq, List.findSome?_map]
  rfl

theorem findSome?_congr {α β : Type} {f g : α → Option β} {l : List α} (h : ∀ a ∈ l, f a = g a) :
    l.findSome? f = l.findSome? g := by
  induction l with
  | nil => rfl
  | cons a l ih =>
      rw [List.findSome?_cons, List.findSome?_cons, h a (by simp),
        ih fun b hb => h b (List.mem_cons_of_mem _ hb)]

theorem findSome?_filter {α β : Type} {f : α → Option β} {q : α → Bool} {l : List α}
    (h : ∀ a ∈ l, q a = false → f a = none) : (l.filter q).findSome? f = l.findSome? f := by
  induction l with
  | nil => rfl
  | cons a l ih =>
      have ih := ih fun b hb => h b (List.mem_cons_of_mem _ hb)
      by_cases hq : q a = true
      · rw [List.filter_cons_of_pos hq, List.findSome?_cons, List.findSome?_cons, ih]
      · have hnone : f a = none := h a (by simp) (Bool.not_eq_true _ ▸ hq)
        rw [List.filter_cons_of_neg hq, ih, List.findSome?_cons, hnone]

/-- With the forms that are found in a piece, it is read as in the text. -/
theorem finder_piece {loose : Bool} {present : List (Ident × Ident)} {q : Ident × Ident → Bool}
    {before piece after : List Char} (hproper : Proper present)
    (hfirst : before ≠ [] → piece ≠ [] ∧ Cut (formsOf present) before (piece ++ after))
    (hnext : after ≠ [] → Cut (formsOf present) (before ++ piece) after)
    (hout : ∀ v ∈ present, q v = false → Nowhere (variantPattern loose v.1.1 v.1.2) piece) :
    Agree (finder (regexOf loose present)) (finder (regexOf loose (present.filter q)))
      before.reverse after piece := by
  intro u v hpiece hv
  have hkeep := keepPattern_tame.reads?_piece (fun h => absurd rfl h) hfirst hnext hpiece
  have hpart : ∀ w ∈ ordered present,
      hit loose w (u.reverse ++ before.reverse) (v ++ after) = hit loose w u.reverse v := by
    intro w hw
    replace hw := mem_ordered.mp hw
    obtain ⟨hne, hsuffix⟩ := hproper w hw
    rw [hit, hit, (variantPattern_tame loose hne hsuffix).reads?_piece
      (fun _ => mem_formsOf hw) hfirst hnext hpiece]
  rw [finder_eq, finder_eq, hkeep, findSome?_congr hpart, ordered_filter, findSome?_filter]
  intro w hw hq
  rw [hit, hout w (mem_ordered.mp hw) hq u v hpiece hv, Option.map_none]

theorem fits_finder (alts : List Alternative) : Pieces.Fits (finder alts) := by
  have hle : ∀ (P : Pattern) (seen rest : List Char) (n : Nat), P.reads? seen rest = some n →
      n ≤ rest.length := by
    intro P seen rest n h
    rw [Pattern.reads?] at h
    split at h
    · obtain ⟨c, -, rfl⟩ := Option.map_eq_some_iff.mp h
      exact Nat.sub_le _ _
    · cases h
  intro seen rest a n h
  rw [finder] at h
  split at h
  · rename_i k hk
    obtain ⟨-, rfl⟩ := Prod.mk.inj (Option.some.inj h)
    exact hle _ _ _ _ hk
  · obtain ⟨b, -, hb⟩ := List.exists_of_findSome?_eq_some h
    obtain ⟨k, hk, heq⟩ := Option.map_eq_some_iff.mp hb
    obtain ⟨-, rfl⟩ := Prod.mk.inj heq
    exact hle _ _ _ _ hk

/-! ## A pass over chunks -/

def Names.pass (s : Names) (loose : Bool) (present : List (Ident × Ident)) (text : List Char) :
    List Char :=
  s.subOnce (regexOf loose present) text

theorem Names.sub_eq (s : Names) (present : List (Ident × Ident)) (text : List Char) :
    s.sub present text = s.pass true present (s.pass false present text) := rfl

/-- A text in pieces that is cut apart nowhere. -/
structure Sealed (forms : List String) (pieces : List (List Char)) : Prop where
  nonempty : ∀ l p r, pieces = l ++ p :: r → l ≠ [] → p ≠ []
  cuts : ∀ l r, pieces = l ++ r → l ≠ [] → r ≠ [] → Cut forms l.flatten r.flatten

theorem ne_nil_of_flatten {l : List (List Char)} (h : l.flatten ≠ []) : l ≠ [] :=
  fun hnil => h (by rw [hnil, List.flatten_nil])

theorem Sealed.first {forms : List String} {pieces l r : List (List Char)} {p : List Char}
    (h : Sealed forms pieces) (hp : pieces = l ++ p :: r) (hl : l.flatten ≠ []) :
    p ≠ [] ∧ Cut forms l.flatten (p ++ r.flatten) :=
  ⟨h.nonempty l p r hp (ne_nil_of_flatten hl),
    h.cuts l (p :: r) hp (ne_nil_of_flatten hl) (List.cons_ne_nil p r)⟩

theorem Sealed.next {forms : List String} {pieces l r : List (List Char)} {p : List Char}
    (h : Sealed forms pieces) (hp : pieces = l ++ p :: r) (hr : r.flatten ≠ []) :
    Cut forms (l.flatten ++ p) r.flatten := by
  have hcut := h.cuts (l ++ [p]) r (by rw [hp]; simp) (by simp) (ne_nil_of_flatten hr)
  rwa [List.flatten_append, List.flatten_singleton] at hcut

/-- A pass over what was made of the chunks. -/
theorem Names.pass_chunks (s : Names) {loose : Bool} {present : List (Ident × Ident)}
    {f : List Char → List Char} {cs : List (List Char)} (hproper : Proper present)
    (hsealed : Sealed (formsOf present) (cs.map f))
    (hout : ∀ c ∈ cs, ∀ v ∈ present, mayOccur c v = false →
      Nowhere (variantPattern loose v.1.1 v.1.2) (f c)) :
    s.pass loose present (cs.map f).flatten
      = (cs.map fun c => s.pass loose (present.filter (mayOccur c)) (f c)).flatten := by
  let piece := fun c => (finder (regexOf loose (present.filter (mayOccur c))), f c)
  have htext : ∀ l : List (List Char), Pieces.text (l.map piece) = (l.map f).flatten := by
    intro l
    rw [Pieces.text, List.flatMap_map, List.flatMap_def]
  have hagree : ∀ l p r, cs.map piece = l ++ p :: r →
      Agree (finder (regexOf loose present)) p.1 ((Pieces.text l).reverse ++ []) (Pieces.text r)
        p.2 := by
    intro l p r hp
    obtain ⟨l', r', rfl, rfl, hr⟩ := List.map_eq_append_iff.mp hp
    obtain ⟨c, r', rfl, rfl, rfl⟩ := List.map_eq_cons_iff.mp hr
    rw [List.append_nil, htext, htext]
    show Agree _ (finder (regexOf loose (present.filter (mayOccur c)))) _ _ (f c)
    have hsplit : (l' ++ c :: r').map f = l'.map f ++ f c :: r'.map f := by
      rw [List.map_append, List.map_cons]
    exact finder_piece hproper (hsealed.first hsplit) (hsealed.next hsplit) (hout c (by simp))
  have hfits : ∀ p ∈ cs.map piece, Pieces.Fits p.1 := by
    intro p hp
    obtain ⟨c, -, rfl⟩ := List.mem_map.mp hp
    exact fits_finder _
  show Pieces.render s.replace (Pieces.tokens (finder (regexOf loose present)) 0 [] _) = _
  rw [← htext, Pieces.tokens_pieces hfits hagree, List.flatMap_map, Pieces.render,
    List.flatMap_assoc, List.flatMap_def]
  rfl

/-! ## What a pass leaves at a cut -/

/-- A pseudonym, which has a dash and no mark. -/
def Made (t : List Char) : Prop := ∃ cls n, t = (pseudonym cls n).toList

theorem Made.chars {t : List Char} (h : Made t) :
    '-' ∈ t ∧ ∀ c ∈ t, isSpace c = false ∧ c ∉ marksAfter := by
  obtain ⟨cls, n, rfl⟩ := h
  rw [pseudonym, String.toList_ofList]
  refine ⟨by simp, fun c hc => ?_⟩
  have hname : ∀ c ∈ cls.name.toList, isSpace c = false ∧ c ∉ marksAfter := by
    cases cls <;> decide
  have hdigit : c.isDigit = true → isSpace c = false ∧ c ∉ marksAfter := by
    intro hdigit
    have hspaces : ∀ w ∈ spaces ++ marksAfter, w.isDigit = false := by decide
    constructor
    · by_contra hspace
      rw [Bool.not_eq_false] at hspace
      exact absurd hdigit (by simp [hspaces c (List.mem_append_left _ (mem_spaces hspace))])
    · intro hmark
      exact absurd hdigit (by simp [hspaces c (List.mem_append_right _ hmark)])
  rcases List.mem_append.mp hc with hc | hc
  · exact hname c hc
  rcases List.mem_cons.mp hc with rfl | hc
  · decide
  rcases List.mem_append.mp hc with hc | hc
  · rw [(List.mem_replicate.mp hc).2]
    decide
  · exact hdigit (Nat.isDigit_of_mem_toDigits (by decide) (by decide) hc)

/-- A form is written as a pseudonym of its class. -/
theorem Names.replace_variant (s : Names) {v : Ident × Ident} (hv : v ∈ s.variants)
    (text : List Char) : ∃ n, s.replace (some v.2) text = (pseudonym v.2.1 n).toList := by
  obtain ⟨p, hp⟩ := Option.isSome_iff_exists.mp (Assoc.lookup_isSome.mpr (s.mapped v hv))
  obtain ⟨n, hn⟩ := s.numbered _ (Assoc.mem_of_lookup hp)
  refine ⟨n, ?_⟩
  rw [Names.replace, hp, Option.getD_some]
  exact congrArg String.toList hn

/-- A name that is found is kept, or its pseudonym is written. -/
theorem Names.replace_made (s : Names) {loose : Bool} {present : List (Ident × Ident)}
    (hpresent : ∀ v ∈ present, v ∈ s.variants) {seen rest : List Char} {a : Option Ident} {n : Nat}
    (h : finder (regexOf loose present) seen rest = some (a, n)) (text : List Char) :
    s.replace a text = text ∨ Made (s.replace a text) := by
  rw [finder_eq] at h
  split at h
  · obtain ⟨rfl, -⟩ := Prod.mk.inj (Option.some.inj h)
    exact .inl rfl
  · obtain ⟨v, hv, hhit⟩ := List.exists_of_findSome?_eq_some h
    obtain ⟨k, -, heq⟩ := Option.map_eq_some_iff.mp hhit
    obtain ⟨rfl, -⟩ := Prod.mk.inj heq
    obtain ⟨n, hn⟩ := s.replace_variant (hpresent v (mem_ordered.mp hv)) text
    exact .inr ⟨v.2.1, n, hn⟩

/-- The names among the tokens are kept, or their pseudonyms are written. -/
def Replaced (f : Option Ident → List Char → List Char)
    (toks : List (Pieces.Token Char (Option Ident))) : Prop :=
  ∀ a text, .name a text ∈ toks → f a text = text ∨ Made (f a text)

section Apart

variable {f : Option Ident → List Char → List Char}
  {toks toks' : List (Pieces.Token Char (Option Ident))}

theorem Replaced.foreign (h : Replaced f toks) {w : List Char} (hw : '-' ∉ w) :
    Pieces.Foreign f w toks := by
  intro a text hmem hne hin
  rcases h a text hmem with heq | hmade
  · exact hne heq
  · exact hw (hin.subset hmade.chars.1)

theorem Replaced.not_mem (h : Replaced f toks) {c : Char} (hc : c ∈ marksAfter) :
    ∀ a text, .name a text ∈ toks → f a text ≠ text → c ∉ f a text := by
  intro a text hmem hne hin
  rcases h a text hmem with heq | hmade
  · exact hne heq
  · exact (hmade.chars.2 c hin).2 hc

/-- No mark comes to the white space at a cut. -/
theorem Apart.replaced (h : Replaced f toks) (h' : Replaced f toks')
    (hapart : Apart (Pieces.source toks) (Pieces.source toks')) :
    Apart (Pieces.render f toks) (Pieces.render f toks') := by
  have hdash : ∀ {s : List Char}, (∀ c ∈ s, isSpace c = true) → '-' ∉ s := fun hs hmem =>
    absurd (hs '-' hmem) (by decide)
  intro p s s' q hp hq hs hs' hmark
  rcases hmark with ⟨u, hu, hsuf⟩ | ⟨c, hc, hpre⟩
  · obtain ⟨b, hb⟩ := hsuf
    obtain ⟨p, t, rfl, -, ht⟩ := List.map_eq_append_iff.mp hb.symm
    obtain ⟨c, hc, v, rfl⟩ := fold_mark hu ht
    have hnone : '-' ∉ v ++ s := by
      have hmarks : ∀ u ∈ marksBefore, foldCase '-' ∉ u.toList.map foldCase := by decide
      intro hmem
      rcases List.mem_append.mp hmem with hmem | hmem
      · refine hmarks u hu ?_
        rw [← ht]
        exact List.mem_map_of_mem (List.mem_cons_of_mem c hmem)
      · exact hdash hs hmem
    have hin : c :: (v ++ s) <:+ Pieces.source toks :=
      Pieces.source_suffix (h.foreign hnone) (h.not_mem hc) ⟨p, by rw [hp]; simp⟩
    obtain ⟨l, hl⟩ := hin
    refine hapart (l ++ c :: v) s [] (Pieces.source toks') (by rw [← hl]; simp) (by simp) hs nofun
      (.inl ⟨u, hu, ?_⟩)
    rw [← ht, List.map_append]
    exact List.suffix_append _ _
  · obtain ⟨q, rfl⟩ := hpre
    have hin : s' ++ [c] <+: Pieces.source toks' :=
      Pieces.source_prefix (h'.foreign (hdash hs')) (h'.not_mem hc) ⟨q, by rw [hq]; simp⟩
    obtain ⟨r, hr⟩ := hin
    exact hapart (Pieces.source toks) [] s' (c :: r) (by simp) (by rw [← hr]; simp) nofun hs'
      (.inr ⟨c, hc, r, rfl⟩)

end Apart

/-- The white space at a cut stays. -/
theorem Names.pass_space (s : Names) (loose : Bool) {present : List (Ident × Ident)}
    {l rest : List Char} {w : Char} (hproper : Proper present) (hw : isSpace w = true)
    (hacross : ∀ form ∈ formsOf present, ¬ Across form.toList l (w :: rest)) :
    ∃ rest', s.pass loose present (w :: rest) = w :: rest' := by
  have hnone : finder (regexOf loose present) [] (w :: rest) = none := by
    have hkeep : ¬ Across "".toList l (w :: rest) := by
      rintro ⟨x, y, hxy, hy, -⟩
      exact hy (List.append_eq_nil_iff.mp hxy.symm).2
    rw [finder_eq, keepPattern_tame.reads?_space hw hkeep]
    refine List.findSome?_eq_none_iff.mpr fun v hv => ?_
    replace hv := mem_ordered.mp hv
    obtain ⟨hne, hsuffix⟩ := hproper v hv
    rw [hit, (variantPattern_tame loose hne hsuffix).reads?_space hw
      (hacross _ (mem_formsOf hv)), Option.map_none]
  rcases Pieces.tokens_zero_cons (finder (regexOf loose present)) [] w rest
    with ⟨a, n, hfind, -⟩ | ⟨-, htok⟩
  · rw [hnone] at hfind
    cases hfind
  · refine ⟨Pieces.render s.replace (Pieces.tokens (finder (regexOf loose present)) 0 [w] rest), ?_⟩
    show Pieces.render s.replace (Pieces.tokens _ 0 [] (w :: rest)) = _
    rw [htok]
    rfl

/-- What a pass over sealed chunks makes of them is sealed, if no form
comes to lie across a cut. -/
theorem Names.sealed_pass (s : Names) {loose : Bool} {present : List (Ident × Ident)}
    {q : List Char → Ident × Ident → Bool} {cs : List (List Char)}
    (hpresent : ∀ v ∈ present, v ∈ s.variants) (hproper : Proper present)
    (hsealed : Sealed (formsOf present) cs)
    (hacross : ∀ l r, cs = l ++ r → l ≠ [] → r ≠ [] → ∀ form ∈ formsOf present,
      ¬ Across form.toList (l.map fun c => s.pass loose (present.filter (q c)) c).flatten
        (r.map fun c => s.pass loose (present.filter (q c)) c).flatten) :
    Sealed (formsOf present) (cs.map fun c => s.pass loose (present.filter (q c)) c) := by
  let toks := fun c => Pieces.tokens (finder (regexOf loose (present.filter (q c)))) 0 [] c
  have hrender : ∀ cs : List (List Char),
      (cs.map fun c => s.pass loose (present.filter (q c)) c).flatten
        = Pieces.render s.replace (cs.flatMap toks) := by
    intro cs
    rw [Pieces.render, List.flatMap_assoc, List.flatMap_def]
    rfl
  have hsource : ∀ cs : List (List Char), Pieces.source (cs.flatMap toks) = cs.flatten := by
    intro cs
    have hone : ∀ c, (toks c).flatMap Pieces.Token.source = c :=
      fun c => Pieces.source_tokens 0 [] c
    rw [Pieces.source, List.flatMap_assoc, List.flatMap_def]
    simp only [hone, List.map_id']
  have hreplaced : ∀ cs : List (List Char), Replaced s.replace (cs.flatMap toks) := by
    intro cs a text hmem
    obtain ⟨c, -, hmem⟩ := List.mem_flatMap.mp hmem
    obtain ⟨seen, rest, n, hfind⟩ := Pieces.of_mem_tokens hmem
    exact s.replace_made (fun v hv => hpresent v (List.mem_filter.mp hv).1) hfind text
  have hhead : ∀ l c r, cs = l ++ c :: r → l ≠ [] →
      ∃ w rest, s.pass loose (present.filter (q c)) c = w :: rest ∧ isSpace w = true := by
    intro l c r hcs hl
    obtain ⟨w, rest, rfl⟩ := List.exists_cons_of_ne_nil (hsealed.nonempty l c r hcs hl)
    have hcut := hsealed.cuts l _ hcs hl (List.cons_ne_nil _ r)
    obtain ⟨x, ys, hx, hspace⟩ := hcut.soft
    obtain ⟨rfl, -⟩ := List.cons.inj hx
    have hproper' : Proper (present.filter (q (w :: rest))) := fun v hv =>
      hproper v (List.mem_filter.mp hv).1
    obtain ⟨rest', hrest⟩ := s.pass_space loose (l := l.flatten) hproper' hspace
      fun form hform h => by
        obtain ⟨v, hv, rfl⟩ := List.mem_map.mp hform
        exact hcut.across _ (mem_formsOf (List.mem_filter.mp hv).1) (h.mono [] r.flatten)
    exact ⟨w, rest', hrest, hspace⟩
  constructor
  · intro l p r hp hl
    obtain ⟨l', r', hcs, rfl, hr⟩ := List.map_eq_append_iff.mp hp
    obtain ⟨c, r', rfl, rfl, -⟩ := List.map_eq_cons_iff.mp hr
    obtain ⟨w, rest, hw, -⟩ := hhead l' c r' hcs fun hnil => hl (by rw [hnil]; rfl)
    show s.pass loose (present.filter (q c)) c ≠ []
    rw [hw]
    exact List.cons_ne_nil w rest
  · intro l r hp hl hr
    obtain ⟨l', r', rfl, rfl, rfl⟩ := List.map_eq_append_iff.mp hp
    have hl' : l' ≠ [] := fun hnil => hl (by rw [hnil]; rfl)
    obtain ⟨c, r', rfl⟩ := List.exists_cons_of_ne_nil (fun hnil => hr (by rw [hnil]; rfl) : r' ≠ [])
    have hr' : c :: r' ≠ [] := List.cons_ne_nil c r'
    refine ⟨?_, ?_, hacross l' (c :: r') rfl hl' hr'⟩
    · obtain ⟨w, rest, hw, hspace⟩ := hhead l' c r' rfl hl'
      exact ⟨w, _, by rw [List.map_cons, List.flatten_cons, hw, List.cons_append], hspace⟩
    · rw [hrender, hrender]
      refine Apart.replaced (hreplaced l') (hreplaced (c :: r')) ?_
      rw [hsource, hsource]
      exact (hsealed.cuts l' (c :: r') rfl hl' hr').apart

/-! ## The whole text -/

theorem flatten_chunks (size : Nat) (h : 0 < size) (text : List Char) :
    (chunks size h text).flatten = text := by
  induction text using chunks.induct size h with
  | case1 text hlong ih =>
      rw [chunks, if_pos hlong, List.flatten_cons, ih, List.take_append_drop]
  | case2 text hshort => rw [chunks, if_neg hshort, List.flatten_singleton]

/-- Without a form the text stays. -/
theorem Names.pass_nil (s : Names) (loose : Bool) (text : List Char) :
    s.pass loose [] text = text := by
  show Pieces.render s.replace (Pieces.tokens (finder (regexOf loose [])) 0 [] text) = text
  rw [Pieces.render_eq_source, Pieces.source_tokens, List.drop_zero]
  intro a t hmem
  obtain ⟨seen, rest, n, hfind⟩ := Pieces.of_mem_tokens hmem
  rw [finder_eq] at hfind
  split at hfind
  · obtain ⟨rfl, -⟩ := Prod.mk.inj (Option.some.inj hfind)
    rfl
  · cases hfind

theorem Names.sub_nil (s : Names) (text : List Char) : s.sub [] text = text := by
  rw [Names.sub_eq, s.pass_nil, s.pass_nil]

theorem Names.subChunk_eq (s : Names) (present : List (Ident × Ident)) (chunk : List Char) :
    s.subChunk present chunk = s.sub (present.filter (mayOccur chunk)) chunk := by
  rw [Names.subChunk]
  split
  · rename_i hnone
    rw [hnone, s.sub_nil]
  · rfl

theorem ne_nil_of_mem_chunks {size : Nat} (h : 0 < size) {text c : List Char} (hne : text ≠ [])
    (hc : c ∈ chunks size h text) : c ≠ [] := by
  induction text using chunks.induct size h with
  | case1 text hlong ih =>
      have hle : cutAt size text ≤ size := by
        rw [cutAt]
        cases hfind : ((List.range (size - size / 2)).map (size - ·)).find? _ with
        | none => exact Nat.le_refl size
        | some i =>
            obtain ⟨k, -, rfl⟩ := List.mem_map.mp (List.mem_of_find?_eq_some hfind)
            exact Nat.sub_le size k
      have hpos := cutAt_pos h text
      rw [chunks, if_pos hlong] at hc
      rcases List.mem_cons.mp hc with rfl | hc
      · intro hnil
        have hlen := congrArg List.length hnil
        rw [List.length_take, List.length_nil] at hlen
        omega
      · refine ih (fun hnil => ?_) hc
        have hlen := congrArg List.length hnil
        rw [List.length_drop, List.length_nil] at hlen
        omega
  | case2 text hshort =>
      rw [chunks, if_neg hshort] at hc
      rwa [List.mem_singleton.mp hc]

/-- Every cut falls in front of white space that is next to no mark, and
no form that may occur in the text lies across one, in the text or in
what the first pass makes of the chunks; nor is a form that a chunk
leaves out found in it, or in what the first pass makes of it. -/
structure Unbroken (s : Names) (text : List Char) : Prop where
  suffixes : ∀ v ∈ s.present text, v.1.1 = .SUFFIX → Solid v.1.2
  cuts : ∀ l r, chunks CHUNK (by decide) text = l ++ r → l ≠ [] → r ≠ [] →
    Cut (formsOf (s.present text)) l.flatten r.flatten
  across : ∀ l r, chunks CHUNK (by decide) text = l ++ r → l ≠ [] → r ≠ [] →
    ∀ form ∈ formsOf (s.present text), ¬ Across form.toList
      (l.map fun c => s.pass false ((s.present text).filter (mayOccur c)) c).flatten
      (r.map fun c => s.pass false ((s.present text).filter (mayOccur c)) c).flatten
  left : ∀ c ∈ chunks CHUNK (by decide) text, ∀ v ∈ s.present text, mayOccur c v = false →
    Nowhere (variantPattern false v.1.1 v.1.2) c
      ∧ Nowhere (variantPattern true v.1.1 v.1.2)
        (s.pass false ((s.present text).filter (mayOccur c)) c)

theorem Unbroken.sealed {s : Names} {text : List Char} (h : Unbroken s text) :
    Sealed (formsOf (s.present text)) (chunks CHUNK (by decide) text) where
  nonempty l p r hp hl := by
    have hmem : p ∈ chunks CHUNK (by decide) text := by
      rw [hp]
      simp
    refine ne_nil_of_mem_chunks (by decide) (fun hnil => ?_) hmem
    rw [hnil, chunks, if_neg (by simp)] at hp
    rcases l with _ | ⟨c, l⟩
    · exact hl rfl
    · simp at hp
  cuts := h.cuts

theorem Names.subChunked_eq (s : Names) {text : List Char} (h : Unbroken s text) :
    s.subChunked text = s.subWhole text := by
  have hpresent : ∀ v ∈ s.present text, v ∈ s.variants := fun v hv => (List.mem_filter.mp hv).1
  have hproper : Proper (s.present text) := fun v hv =>
    ⟨s.nonempty v (hpresent v hv), h.suffixes v hv⟩
  let cs := chunks CHUNK (by decide) text
  let here := fun c => (s.present text).filter (mayOccur c)
  have hfirst : s.pass false (s.present text) (cs.map id).flatten
      = (cs.map fun c => s.pass false (here c) c).flatten :=
    s.pass_chunks hproper (by simpa using h.sealed)
      fun c hc v hv hout => (h.left c hc v hv hout).1
  have hsealed : Sealed (formsOf (s.present text)) (cs.map fun c => s.pass false (here c) c) :=
    s.sealed_pass hpresent hproper h.sealed h.across
  have hsecond : s.pass true (s.present text) (cs.map fun c => s.pass false (here c) c).flatten
      = (cs.map fun c => s.pass true (here c) (s.pass false (here c) c)).flatten :=
    s.pass_chunks hproper hsealed fun c hc v hv hout => (h.left c hc v hv hout).2
  calc s.subChunked text
      = (cs.map fun c => s.pass true (here c) (s.pass false (here c) c)).flatten := by
        rw [Names.subChunked, List.flatMap_def]
        congr 1
        exact List.map_congr_left fun c _ => s.subChunk_eq _ c
    _ = s.pass true (s.present text) (s.pass false (s.present text) (cs.map id).flatten) := by
        rw [hfirst, hsecond]
    _ = s.subWhole text := by
        rw [List.map_id, flatten_chunks]
        rfl

/-- The whole text in one pass, unless the time is over. -/
def Names.wholeText (s : Names) (late : Bool) (text : String) : Except SanitizeTimeout String :=
  if late then .error ⟨⟩ else .ok (String.ofList (s.subWhole text.toList))

/-- The text is not cut, or nothing is on both sides of a cut. -/
def Uncut (s : Names) (text : String) : Prop :=
  PyStr.len text ≤ 2 * CHUNK ∨ (s.present text.toList).length ≤ 32 ∨ Unbroken s text.toList

theorem mayOccur_of_infix {cls : Cls} {form : String} (hcls : cls ≠ .SUFFIX) {text : List Char}
    (h : form.toList <:+: text) (key : Ident) : mayOccur text ((cls, form), key) = true := by
  have hprobe : probeOf cls.name form = PyStr.lower form := by
    rw [probeOf, if_neg]
    cases cls <;> first | exact absurd rfl hcls | decide
  obtain ⟨a, b, rfl⟩ := h
  rw [mayOccur, hprobe, PyStr.containsChars_iff, PyStr.lower, String.toList_ofList,
    List.flatMap_append, List.flatMap_append]
  exact ⟨_, _, rfl⟩

/-- Where no white space comes after half a chunk, or it is behind the
chunk, the whole chunk is taken. -/
theorem cutAt_size {size : Nat} {rest : List Char} (h : (∀ c ∈ rest, isSpace c = false)
    ∨ (rest[size]?.any isSpace = true ∧ rest[size - 1]? ≠ some ',')) : cutAt size rest = size := by
  rw [cutAt]
  rcases h with hnone | ⟨hspace, hcomma⟩
  · rw [List.find?_eq_none.mpr, Option.getD_none]
    intro i _
    have hany : rest[i]?.any isSpace = false := by
      cases hi : rest[i]? with
      | none => rfl
      | some c => exact hnone c (List.mem_of_getElem? hi)
    simp [hany]
  · rcases hsize : size - size / 2 with _ | k
    · have hzero : size = 0 := by omega
      rw [List.range_zero, List.map_nil, List.find?_nil, Option.getD_none]
    · have hbehind : (rest[size - 1]? != some ',') = true := bne_iff_ne.mpr hcomma
      rw [List.range_succ_eq_map, List.map_cons, List.find?_cons, Nat.sub_zero, hspace, hbehind]
      rfl

/-- White space behind white space, and no mark behind it. -/
theorem apart_of_plain {l r : List Char} (hl : ∀ c ∈ l, isSpace c = true)
    (hr : ∀ c ∈ r, c ∉ marksAfter) : Apart l r := by
  rintro p s s' q rfl rfl - - (⟨u, hu, b, hb⟩ | ⟨c, hc, q, rfl⟩)
  · obtain ⟨p, t, rfl, -, ht⟩ := List.map_eq_append_iff.mp hb.symm
    obtain ⟨c, hc, v, rfl⟩ := fold_mark hu ht
    have hspaces : ∀ c ∈ marksAfter, isSpace c = false := by decide
    exact absurd (hl c (by simp)) (by simp [hspaces c hc])
  · exact hr c (by simp) hc

namespace Staff

def user (n : Nat) : String := String.ofList ('u' :: 's' :: padded n)

def numbers : List Nat := (List.range 33).map (· + 1)

/-- Thirty-three users: us001 to us033. -/
def names : Names := numbers.foldl (fun s n => s.register .USER (user n) none) .empty

theorem variants_eq :
    names.variants = numbers.map fun n => ((.USER, user n), (.USER, user n)) := by
  decide +kernel

/-- The users of a list, each behind a character. -/
def listed (c : Char) (ns : List Nat) : List Char := ns.flatMap fun n => c :: (user n).toList

/-- With spaces or with commas the list is short; there are no marks in the
one and no spaces in the other. -/
theorem listed_plain : (listed ' ' numbers).length ≤ CHUNK
    ∧ (∀ c ∈ listed ' ' numbers, c ∉ marksAfter)
    ∧ (∀ c ∈ listed ',' numbers, isSpace c = false) ∧ (listed ',' numbers).length = 198 := by
  decide +kernel

theorem infix_listed {c : Char} {ns : List Nat} {n : Nat} (hn : n ∈ ns) :
    (user n).toList <:+: listed c ns := by
  obtain ⟨a, b, rfl⟩ := List.append_of_mem hn
  rw [listed, List.flatMap_append, List.flatMap_cons]
  exact ⟨a.flatMap (fun n => c :: (user n).toList) ++ [c],
    b.flatMap fun n => c :: (user n).toList, by simp⟩

/-- In a text with all the users every form may occur. -/
theorem mayOccur_listed {text : List Char} (h : ∀ n ∈ numbers, (user n).toList <:+: text) :
    ∀ v ∈ names.variants, mayOccur text v = true := by
  intro v hv
  rw [variants_eq] at hv
  obtain ⟨n, hn, rfl⟩ := List.mem_map.mp hv
  exact mayOccur_of_infix (by decide) (h n hn) _

theorem present_eq {text : List Char} (h : ∀ n ∈ numbers, (user n).toList <:+: text) :
    names.present text = names.variants :=
  List.filter_eq_self.mpr (mayOccur_listed h)

/-- Without the digit that all forms have, none may occur. -/
theorem not_mayOccur {text : List Char} (h : '0' ∉ text.flatMap PyStr.lowerChar) :
    ∀ v ∈ names.variants, mayOccur text v = false := by
  intro v hv
  rw [← Bool.not_eq_true, mayOccur, PyStr.containsChars_iff]
  intro hin
  refine h (hin.subset ?_)
  have hzero : ∀ v ∈ names.variants, '0' ∈ (probeOf v.1.1.name v.1.2).toList := by
    rw [variants_eq]
    decide
  exact hzero v hv

/-! ### A cut in white space -/

/-- The users, each behind a space, after two chunks of spaces. -/
def spaced : List Char := List.replicate 2048 ' ' ++ listed ' ' numbers

/-- A chunk of spaces in front of a space. -/
theorem chunks_spaces (k : Nat) (rest : List Char) :
    chunks CHUNK (by decide) (List.replicate (CHUNK + k) ' ' ++ ' ' :: rest)
      = List.replicate CHUNK ' '
        :: chunks CHUNK (by decide) (List.replicate k ' ' ++ ' ' :: rest) := by
  have hsplit : List.replicate (CHUNK + k) ' ' ++ ' ' :: rest
      = List.replicate CHUNK ' ' ++ (List.replicate k ' ' ++ ' ' :: rest) := by
    rw [← List.replicate_append_replicate, List.append_assoc]
  have hlen : (List.replicate CHUNK ' ').length = CHUNK := List.length_replicate
  have hcut : cutAt CHUNK (List.replicate CHUNK ' ' ++ (List.replicate k ' ' ++ ' ' :: rest))
      = CHUNK := by
    refine cutAt_size (.inr ⟨?_, ?_⟩)
    · have hspace : isSpace ' ' = true := by decide
      rw [List.getElem?_append_right (by rw [hlen]), hlen, Nat.sub_self]
      cases k with
      | zero => exact hspace
      | succ k => exact hspace
    · rw [List.getElem?_append_left (by rw [hlen]; decide), List.getElem?_replicate,
        if_pos (by decide)]
      decide
  rw [hsplit, chunks, if_pos (by rw [List.length_append, hlen]; simp), hcut,
    List.take_left' hlen, List.drop_left' hlen]

theorem chunks_spaced : chunks CHUNK (by decide) spaced
    = [List.replicate CHUNK ' ', List.replicate CHUNK ' ', listed ' ' numbers] := by
  obtain ⟨rest, hrest⟩ : ∃ rest, listed ' ' numbers = ' ' :: rest := ⟨_, rfl⟩
  have hshort : (listed ' ' numbers).length ≤ CHUNK := listed_plain.1
  rw [spaced, hrest, show 2048 = CHUNK + (CHUNK + 0) from rfl, chunks_spaces, chunks_spaces,
    List.replicate_zero, List.nil_append, ← hrest, chunks, if_neg (Nat.not_lt.mpr hshort)]

theorem user_variant {v : Ident × Ident} (hv : v ∈ names.variants) :
    ∃ n ∈ numbers, v = ((.USER, user n), (.USER, user n)) := by
  rw [variants_eq] at hv
  obtain ⟨n, hn, rfl⟩ := List.mem_map.mp hv
  exact ⟨n, hn, rfl⟩

theorem user_solid {n : Nat} (hn : n ∈ numbers) : user n ≠ "" ∧ Solid (user n) := by
  have h : ∀ n ∈ numbers, user n ≠ "" ∧ Solid (user n) := by decide
  exact h n hn

theorem spaced_present : names.present spaced = names.variants :=
  present_eq fun _ hn => (infix_listed hn).trans (List.suffix_append _ _).isInfix

theorem spaced_across {form : String} (hform : form ∈ formsOf (names.present spaced))
    {l r : List Char} (hr : ∃ w ys, r = w :: ys ∧ isSpace w = true) :
    ¬ Across form.toList l r := by
  obtain ⟨w, ys, rfl, hw⟩ := hr
  obtain ⟨v, hv, rfl⟩ := List.mem_map.mp hform
  rw [spaced_present] at hv
  obtain ⟨n, hn, rfl⟩ := user_variant hv
  exact not_across_of_solid (user_solid hn).2 hw

/-- Of the three chunks, each begins with a space; those in front of a cut
are spaces, and no mark is behind it. -/
theorem spaced_split {l r : List (List Char)} (h : chunks CHUNK (by decide) spaced = l ++ r)
    (hl : l ≠ []) (hr : r ≠ []) : (∀ c ∈ l.flatten, isSpace c = true)
      ∧ (∀ c ∈ r.flatten, c ∉ marksAfter) ∧ ∃ c r', r = (' ' :: c) :: r' := by
  have hspaces : ∀ c ∈ List.replicate CHUNK ' ', isSpace c = true ∧ c ∉ marksAfter := by
    intro c hc
    rw [List.eq_of_mem_replicate hc]
    decide
  have hlisted : ∀ c ∈ listed ' ' numbers, c ∉ marksAfter := listed_plain.2.1
  rw [chunks_spaced] at h
  match l, r, hl, hr with
  | [_], _ :: _, _, _ =>
      obtain ⟨rfl, rfl, rfl⟩ : _ ∧ _ ∧ _ := by simpa using h
      refine ⟨fun c hc => ?_, fun c hc => ?_, List.replicate 1023 ' ', [listed ' ' numbers], rfl⟩
      · rw [List.flatten_singleton] at hc
        exact (hspaces c hc).1
      · rw [List.flatten_cons, List.flatten_singleton] at hc
        exact (List.mem_append.mp hc).elim (fun hc => (hspaces c hc).2) (hlisted c)
  | [_, _], _ :: _, _, _ =>
      obtain ⟨rfl, rfl, rfl, rfl⟩ : _ ∧ _ ∧ _ ∧ _ := by simpa using h
      refine ⟨fun c hc => ?_, fun c hc => ?_, (listed ' ' numbers).tail, [], rfl⟩
      · rw [List.flatten_cons, List.flatten_singleton] at hc
        exact (List.mem_append.mp hc).elim (fun hc => (hspaces c hc).1) fun hc => (hspaces c hc).1
      · rw [List.flatten_singleton] at hc
        exact hlisted c hc
  | _ :: _ :: _ :: _, _ :: _, _, _ => simp at h

theorem spaced_unbroken : Unbroken names spaced where
  suffixes := by
    intro v hv hcls
    rw [spaced_present] at hv
    obtain ⟨n, -, rfl⟩ := user_variant hv
    cases hcls
  cuts := by
    intro l r h hl hr
    obtain ⟨hspaces, hplain, c, r', rfl⟩ := spaced_split h hl hr
    have hsoft : ∃ w ys, ((' ' :: c) :: r').flatten = w :: ys ∧ isSpace w = true :=
      ⟨' ', c ++ r'.flatten, rfl, by decide⟩
    exact ⟨hsoft, apart_of_plain hspaces hplain, fun form hform => spaced_across hform hsoft⟩
  across := by
    intro l r h hl hr form hform
    obtain ⟨-, -, c, r', rfl⟩ := spaced_split h hl hr
    refine spaced_across hform ?_
    have hproper : Proper ((names.present spaced).filter (mayOccur (' ' :: c))) := by
      intro v hv
      have hmem := (List.mem_filter.mp hv).1
      rw [spaced_present] at hmem
      obtain ⟨n, hn, rfl⟩ := user_variant hmem
      exact ⟨(user_solid hn).1, fun _ => (user_solid hn).2⟩
    have hsub : ∀ form ∈ formsOf ((names.present spaced).filter (mayOccur (' ' :: c))),
        ¬ Across form.toList [] (' ' :: c) := by
      intro form hform
      obtain ⟨v, hv, rfl⟩ := List.mem_map.mp hform
      exact spaced_across (mem_formsOf (List.mem_filter.mp hv).1) ⟨' ', c, rfl, by decide⟩
    obtain ⟨rest, hrest⟩ := names.pass_space false hproper (by decide) hsub
    rw [List.map_cons, List.flatten_cons, hrest]
    exact ⟨' ', _, rfl, by decide⟩
  left := by
    intro c hc v hv hout
    rw [spaced_present] at hv ⊢
    have hspaces : c = List.replicate CHUNK ' ' := by
      rw [chunks_spaced] at hc
      have hlisted : c ≠ listed ' ' numbers := by
        rintro rfl
        rw [mayOccur_listed (fun _ hn => infix_listed hn) v hv] at hout
        cases hout
      simpa [hlisted] using hc
    have hnone : names.variants.filter (mayOccur c) = [] := by
      refine List.filter_eq_nil_iff.mpr fun w hw => ?_
      rw [not_mayOccur (fun hzero => ?_) w hw]
      · simp
      · obtain ⟨x, hx, hzero⟩ := List.mem_flatMap.mp hzero
        rw [hspaces] at hx
        rw [List.eq_of_mem_replicate hx] at hzero
        exact absurd hzero (by decide)
    obtain ⟨n, hn, rfl⟩ := user_variant hv
    have hnowhere : ∀ loose, Nowhere (variantPattern loose .USER (user n)) c := by
      intro loose x y hxy hy
      obtain ⟨w, y, rfl⟩ := List.exists_cons_of_ne_nil hy
      obtain rfl : w = ' ' := List.eq_of_mem_replicate (hspaces ▸ hxy ▸ by simp :
        w ∈ List.replicate CHUNK ' ')
      have htame : (variantPattern loose .USER (user n)).Tame (user n) :=
        variantPattern_tame loose (user_solid hn).1 nofun
      have hspace : isSpace ' ' = true := by decide
      exact htame.reads?_space hspace (l := []) (not_across_of_solid (user_solid hn).2 hspace)
    rw [hnone, names.pass_nil]
    exact ⟨hnowhere false, hnowhere true⟩

/-- The users, each behind a comma, the first at the end of a chunk. -/
def joined : List Char := List.replicate 1021 ',' ++ (listed ',' numbers ++ List.replicate 900 ',')

theorem joined_eq : ∃ rest, joined
    = List.replicate 1022 ',' ++ 'u' :: 's' :: '0' :: '0' :: '1' :: ',' :: rest := by
  obtain ⟨rest, hrest⟩ : ∃ rest, listed ',' numbers
      = ',' :: 'u' :: 's' :: '0' :: '0' :: '1' :: ',' :: rest := ⟨_, rfl⟩
  refine ⟨rest ++ List.replicate 900 ',', ?_⟩
  rw [joined, hrest, List.cons_append, Pieces.replicate_append_cons]
  rfl

theorem joined_present : names.present joined = names.variants :=
  present_eq fun _ hn => (infix_listed hn).trans ⟨List.replicate 1021 ',', List.replicate 900 ',',
    by rw [joined, List.append_assoc]⟩

/-- The first chunk ends in the first name, and stays. -/
theorem joined_chunked : ∃ rest,
    names.subChunked joined = List.replicate 1022 ',' ++ 'u' :: rest := by
  have hspaces : ∀ c ∈ joined, isSpace c = false := by
    have hcomma : isSpace ',' = false := by decide
    have hlisted : ∀ c ∈ listed ',' numbers, isSpace c = false := listed_plain.2.2.1
    intro c hc
    rcases List.mem_append.mp hc with hc | hc
    · rwa [List.eq_of_mem_replicate hc]
    rcases List.mem_append.mp hc with hc | hc
    · exact hlisted c hc
    · rwa [List.eq_of_mem_replicate hc]
  have hlong : CHUNK < joined.length := by
    rw [joined, List.length_append, List.length_append, List.length_replicate,
      List.length_replicate, listed_plain.2.2.2]
    decide
  have hfirst : joined.take CHUNK = List.replicate 1022 ',' ++ ['u', 's'] := by
    obtain ⟨rest, hrest⟩ := joined_eq
    have hlen : (List.replicate 1022 ',').length = 1022 := List.length_replicate
    rw [hrest, CHUNK, List.take_append, hlen, List.take_of_length_le (by rw [hlen]; decide)]
    rfl
  have hstay : names.subChunk names.variants (List.replicate 1022 ',' ++ ['u', 's'])
      = List.replicate 1022 ',' ++ ['u', 's'] := by
    have hnone : names.variants.filter (mayOccur (List.replicate 1022 ',' ++ ['u', 's'])) = [] := by
      refine List.filter_eq_nil_iff.mpr fun w hw => ?_
      rw [not_mayOccur (fun hzero => ?_) w hw]
      · simp
      · obtain ⟨x, hx, hzero⟩ := List.mem_flatMap.mp hzero
        have hchars : ∀ x ∈ [',', 'u', 's'], '0' ∉ PyStr.lowerChar x := by decide
        refine hchars x ?_ hzero
        rcases List.mem_append.mp hx with hx | hx
        · rw [List.eq_of_mem_replicate hx]
          simp
        · exact List.mem_cons_of_mem _ hx
    rw [Names.subChunk, hnone]
    rfl
  rw [Names.subChunked, joined_present, chunks, if_pos hlong, cutAt_size (.inl hspaces),
    List.flatMap_cons, hfirst, hstay]
  exact ⟨_, by rw [List.append_assoc]; rfl⟩

theorem user_head {v : Ident × Ident} (hv : v ∈ names.variants) :
    v.1.1 = .USER ∧ v.2.1 = .USER ∧ v.1.2.toList.head? = some 'u' := by
  obtain ⟨n, hn, rfl⟩ := user_variant hv
  exact ⟨rfl, rfl, by rw [user, String.toList_ofList]; rfl⟩

/-- No name begins with a comma. -/
theorem finder_comma (loose : Bool) (seen rest : List Char) :
    finder (regexOf loose names.variants) seen (',' :: rest) = none := by
  rw [finder_eq, keepPattern_reads?_none (by decide)]
  refine List.findSome?_eq_none_iff.mpr fun v hv => ?_
  obtain ⟨hcls, -, hhead⟩ := user_head (mem_ordered.mp hv)
  have hbody : (variantPattern loose v.1.1 v.1.2).body = formI v.1.2 := by rw [hcls]; rfl
  rw [hit, reads?_formI_none hbody hhead (by decide), Option.map_none]

theorem pass_commas (loose : Bool) (n : Nat) (text : List Char) :
    names.pass loose names.variants (List.replicate n ',' ++ text) = List.replicate n ','
      ++ Pieces.render names.replace (Pieces.tokens (finder (regexOf loose names.variants)) 0
        (List.replicate n ',') text) := by
  have hkept : ∀ k, Pieces.render names.replace (List.replicate k (.kept ','))
      = List.replicate k ',' := by
    intro k
    induction k with
    | zero => rfl
    | succ k ih =>
        rw [List.replicate_succ, List.replicate_succ, ← ih]
        rfl
  show Pieces.render _ (Pieces.tokens _ 0 [] _) = _
  rw [Pieces.tokens_replicate (finder_comma loose), Pieces.render_append, List.append_nil, hkept]

/-- Every name that is found is written as a user. -/
theorem replace_user {loose : Bool} {seen rest : List Char} {key : Ident} {n : Nat}
    (h : finder (regexOf loose names.variants) seen rest = some (some key, n))
    (text : List Char) : ∃ more, names.replace (some key) text = 'U' :: more := by
  rw [finder_eq] at h
  split at h
  · cases h
  · obtain ⟨v, hv, hhit⟩ := List.exists_of_findSome?_eq_some h
    obtain ⟨k, -, heq⟩ := Option.map_eq_some_iff.mp hhit
    obtain ⟨hkey, -⟩ := Prod.mk.inj heq
    obtain ⟨-, huser, -⟩ := user_head (mem_ordered.mp hv)
    obtain ⟨m, hm⟩ := names.replace_variant (mem_ordered.mp hv) text
    rw [← hkey, hm, huser, pseudonym, String.toList_ofList]
    exact ⟨_, rfl⟩

/-- The first name is found behind a comma and in front of one. -/
theorem finder_user (seen rest : List Char) : ∃ key n,
    finder (regexOf false names.variants) (',' :: seen)
      ('u' :: 's' :: '0' :: '0' :: '1' :: ',' :: rest) = some (some key, n + 1) := by
  have hone : user 1 = "us001" := by decide
  have hmem : ((.USER, "us001"), (.USER, "us001")) ∈ ordered names.variants := by
    rw [mem_ordered, variants_eq, ← hone]
    exact List.mem_map.mpr ⟨1, by decide, rfl⟩
  have hhit : (hit false ((.USER, "us001"), (.USER, "us001")) (',' :: seen)
      ('u' :: 's' :: '0' :: '0' :: '1' :: ',' :: rest)).isSome = true := rfl
  rw [finder_eq, keepPattern_reads?_none (by decide)]
  dsimp only
  have hsome : ((ordered names.variants).findSome? fun v => hit false v (',' :: seen)
      ('u' :: 's' :: '0' :: '0' :: '1' :: ',' :: rest)).isSome = true :=
    List.findSome?_isSome_iff.mpr ⟨_, hmem, hhit⟩
  obtain ⟨x, hx⟩ := Option.isSome_iff_exists.mp hsome
  obtain ⟨v, hv, hhit⟩ := List.exists_of_findSome?_eq_some hx
  obtain ⟨n, hn, rfl⟩ := Option.map_eq_some_iff.mp hhit
  obtain ⟨k, hk, rfl⟩ := user_variant (mem_ordered.mp hv)
  have htame : (variantPattern false .USER (user k)).Tame (user k) :=
    variantPattern_tame false (user_solid hk).1 nofun
  obtain ⟨m, rfl⟩ := Nat.exists_eq_add_of_lt (htame.reads?_pos hn)
  exact ⟨_, _, by rw [hx, Nat.zero_add]⟩

/-- The first name is written as a user. -/
theorem joined_whole : ∃ rest,
    names.subWhole joined = List.replicate 1022 ',' ++ 'U' :: rest := by
  obtain ⟨tail, hjoined⟩ := joined_eq
  -- the first pass writes a user there
  have hfirst : ∃ rest, names.pass false names.variants joined
      = List.replicate 1022 ',' ++ 'U' :: rest := by
    have hcommas : List.replicate 1022 ',' = ',' :: List.replicate 1021 ',' := List.replicate_succ
    obtain ⟨key, n, hfind⟩ := finder_user (List.replicate 1021 ',') tail
    obtain ⟨more, hmore⟩ := replace_user hfind
      (('u' :: 's' :: '0' :: '0' :: '1' :: ',' :: tail).take (n + 1))
    rw [hjoined, pass_commas, Pieces.tokens, hcommas, hfind]
    dsimp only
    rw [Pieces.render_name, hmore]
    exact ⟨_, rfl⟩
  -- and the second pass keeps it, or writes a user
  obtain ⟨rest, hfirst⟩ := hfirst
  have hsecond : ∃ rest', names.pass true names.variants (List.replicate 1022 ',' ++ 'U' :: rest)
      = List.replicate 1022 ',' ++ 'U' :: rest' := by
    rw [pass_commas]
    rcases Pieces.tokens_zero_cons (finder (regexOf true names.variants)) (List.replicate 1022 ',')
      'U' rest with ⟨a, n, hfind, htok⟩ | ⟨-, htok⟩
    · cases a with
      | none => exact ⟨_, by rw [htok]; rfl⟩
      | some key =>
          obtain ⟨more, hmore⟩ := replace_user hfind (('U' :: rest).take (n + 1))
          rw [htok, Pieces.render_name, hmore]
          exact ⟨_, rfl⟩
    · exact ⟨_, by rw [htok]; rfl⟩
  rw [Names.subWhole, joined_present, Names.sub_eq, hfirst]
  exact hsecond

end Staff

end IpaDiagnose.Bundle
