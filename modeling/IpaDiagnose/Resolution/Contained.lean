import IpaDiagnose.Resolution.SafeValues

/-!
# Paths stay in their directories

A path that validates is printed into commands that change its owner or
mode, as root. Read component by component it only ever goes down: none is
empty, `.` or `..`, and what it names is a listed file or lies below a
listed directory. Every such path is accepted.
-/

namespace IpaDiagnose.T

open Py (Value Exc)
open Regex (Re)

/-! ## Components -/

/-- A component that names an entry of the directory it is read in. -/
structure NamesEntry (c : List Char) : Prop where
  nonempty : c ≠ []
  notSame : c ≠ ['.']
  notUp : c ≠ ['.', '.']
  noSlash : '/' ∉ c

theorem splitSlash_append (xs ys : List Char) :
    splitSlash (xs ++ '/' :: ys) = splitSlash xs ++ splitSlash ys :=
  List.splitOnP_append_cons xs ys rfl

theorem intercalate_splitSlash (cs : List Char) : ['/'].intercalate (splitSlash cs) = cs :=
  List.intercalate_splitOn '/'

theorem splitSlash_ne_nil (cs : List Char) : splitSlash cs ≠ [] := List.splitOnP_ne_nil _ cs

theorem splitSlash_cons (c : Char) (cs : List Char) : splitSlash (c :: cs)
    = if c == '/' then [] :: splitSlash cs else (splitSlash cs).modifyHead (c :: ·) :=
  List.splitOnP_cons_eq_if_modifyHead c cs

theorem noSlash_of_mem {cs c : List Char} (h : c ∈ splitSlash cs) : '/' ∉ c := by
  induction cs generalizing c with
  | nil =>
      obtain rfl := List.mem_singleton.mp h
      exact List.not_mem_nil
  | cons x cs ih =>
      rw [splitSlash_cons] at h
      split at h
      · rcases List.mem_cons.mp h with rfl | h
        · exact List.not_mem_nil
        · exact ih h
      · rename_i hx
        obtain ⟨first, rest, hsplit⟩ := List.exists_cons_of_ne_nil (splitSlash_ne_nil cs)
        rw [hsplit, List.modifyHead_cons] at h
        rw [hsplit] at ih
        rcases List.mem_cons.mp h with rfl | h
        · intro hmem
          rcases List.mem_cons.mp hmem with rfl | hmem
          · exact hx rfl
          · exact ih List.mem_cons_self hmem
        · exact ih (List.mem_cons_of_mem _ h)

theorem intercalate_append {xs ys : List (List Char)} (hx : xs ≠ []) (hy : ys ≠ []) :
    ['/'].intercalate (xs ++ ys) = ['/'].intercalate xs ++ '/' :: ['/'].intercalate ys := by
  induction xs with
  | nil => exact absurd rfl hx
  | cons x xs ih =>
      cases xs with
      | nil =>
          rw [List.singleton_append, List.intercalate_cons_of_ne_nil hy,
            List.intercalate_singleton, List.append_assoc, List.singleton_append]
      | cons x' xs =>
          have ih := ih (List.cons_ne_nil x' xs)
          rw [List.cons_append] at ih
          rw [List.cons_append, List.cons_append, List.intercalate_cons_cons, ih,
            List.intercalate_cons_cons]
          simp only [List.append_assoc]

/-- A text with a component between two slashes. -/
theorem mem_of_infix {cs c : List Char} (hc : '/' ∉ c) (h : '/' :: c ++ ['/'] <:+: cs) :
    c ∈ (splitSlash cs).tail := by
  obtain ⟨a, b, rfl⟩ := h
  have hone : splitSlash c = [c] := List.splitOnP_eq_singleton fun x hx => by
    rw [beq_eq_false_iff_ne]
    rintro rfl
    exact hc hx
  have hcut : a ++ ('/' :: c ++ ['/']) ++ b = a ++ '/' :: (c ++ '/' :: b) := by simp
  obtain ⟨first, rest, hsplit⟩ := List.exists_cons_of_ne_nil (splitSlash_ne_nil a)
  rw [hcut, splitSlash_append, splitSlash_append, hone, hsplit]
  simp

theorem mem_of_suffix {cs c : List Char} (hc : '/' ∉ c) (h : '/' :: c <:+ cs) :
    c ∈ (splitSlash cs).tail := by
  obtain ⟨a, rfl⟩ := h
  have hone : splitSlash c = [c] := List.splitOnP_eq_singleton fun x hx => by
    rw [beq_eq_false_iff_ne]
    rintro rfl
    exact hc hx
  obtain ⟨first, rest, hsplit⟩ := List.exists_cons_of_ne_nil (splitSlash_ne_nil a)
  rw [splitSlash_append, hone, hsplit]
  simp

/-! ## Normal paths -/

/-- Below the root, resolving keeps names only. -/
theorem pathStep_names {acc : List (List Char)} (hacc : ∀ c ∈ acc, NamesEntry c)
    {comp : List Char} (hcomp : '/' ∉ comp) : ∀ c ∈ pathStep true acc comp, NamesEntry c := by
  unfold pathStep
  split
  · exact hacc
  · rename_i hskip
    split
    · rename_i hpush
      -- `..` would be kept behind another `..` only
      have hup : comp ≠ ['.', '.'] := by
        rcases hpush with h | ⟨h, -⟩ | h
        · exact h
        · exact absurd rfl h
        · exact absurd rfl (hacc _ (List.mem_of_mem_head? h)).notUp
      intro c hc
      rcases List.mem_cons.mp hc with rfl | hc
      · exact ⟨fun h => hskip (.inl h), fun h => hskip (.inr h), hup, hcomp⟩
      · exact hacc c hc
    · exact fun c hc => hacc c (List.mem_of_mem_drop hc)

theorem foldl_pathStep_names {comps acc : List (List Char)} (hacc : ∀ c ∈ acc, NamesEntry c)
    (hcomps : ∀ c ∈ comps, '/' ∉ c) : ∀ c ∈ comps.foldl (pathStep true) acc, NamesEntry c := by
  induction comps generalizing acc with
  | nil => exact hacc
  | cons comp comps ih =>
      exact ih (pathStep_names hacc (hcomps comp List.mem_cons_self)) fun c hc =>
        hcomps c (List.mem_cons_of_mem _ hc)

theorem pathStep_entry {acc : List (List Char)} {c : List Char} (h : NamesEntry c) :
    pathStep true acc c = c :: acc := by
  rw [pathStep, if_neg (not_or.mpr ⟨h.nonempty, h.notSame⟩), if_pos (.inl h.notUp)]

theorem foldl_pathStep_entries {comps : List (List Char)} (h : ∀ c ∈ comps, NamesEntry c)
    (acc : List (List Char)) : comps.foldl (pathStep true) acc = comps.reverse ++ acc := by
  induction comps generalizing acc with
  | nil => rfl
  | cons c comps ih =>
      rw [List.foldl_cons, pathStep_entry (h c List.mem_cons_self),
        ih fun c hc => h c (List.mem_cons_of_mem _ hc), List.reverse_cons, List.append_assoc]
      rfl

/-- Read from the root: the components of a path that only goes down. -/
def Descends (cs : List Char) (names : List (List Char)) : Prop :=
  splitSlash cs = [] :: names ∧ names ≠ [] ∧ ∀ c ∈ names, NamesEntry c

theorem leadingSlashes_root (cs : List Char) :
    leadingSlashes ('/' :: cs) = 1 ∨ leadingSlashes ('/' :: cs) = 2 := by
  unfold leadingSlashes
  rw [List.takeWhile_cons_of_pos rfl, List.length_cons]
  split
  · rename_i h
    cases h
  · exact .inr rfl
  · exact .inl rfl

theorem normpath_root {cs : List Char} :
    normpath (String.ofList ('/' :: cs))
      = String.ofList (List.replicate (leadingSlashes ('/' :: cs)) '/'
        ++ ['/'].intercalate ((splitSlash ('/' :: cs)).foldl (pathStep true) []).reverse) := by
  have hne : String.ofList ('/' :: cs) ≠ "" := by simp
  unfold normpath
  rw [if_neg hne, String.toList_ofList]
  dsimp only
  rcases leadingSlashes_root cs with h | h
  · rw [h]
    rfl
  · rw [h]
    rfl

/-- A normal path from the root, of more than the root, only goes down. -/
theorem descends_of_normal {cs : List Char} (hcs : cs ≠ [])
    (hpath : normpath (String.ofList ('/' :: cs)) = String.ofList ('/' :: cs))
    (hsingle : ¬ ['/', '/'] <:+: '/' :: cs) : ∃ names, Descends ('/' :: cs) names := by
  rw [normpath_root] at hpath
  have hchars := String.ofList_injective hpath
  obtain ⟨names, hdef⟩ : ∃ names,
    names = ((splitSlash ('/' :: cs)).foldl (pathStep true) []).reverse := ⟨_, rfl⟩
  rw [← hdef] at hchars
  rcases leadingSlashes_root cs with hlead | hlead
  · rw [hlead] at hchars
    have hjoin : ['/'].intercalate names = cs := (List.cons.inj hchars).2
    have hentries : ∀ c ∈ names, NamesEntry c := by
      intro c hc
      rw [hdef, List.mem_reverse] at hc
      exact foldl_pathStep_names (fun c hc => absurd hc List.not_mem_nil)
        (fun c hc => noSlash_of_mem hc) c hc
    have hne : names ≠ [] := by
      rintro rfl
      exact hcs hjoin.symm
    have hsplit : splitSlash cs = names :=
      (congrArg splitSlash hjoin.symm).trans
        (List.splitOn_intercalate '/' (fun c hc => (hentries c hc).noSlash) hne)
    exact ⟨names, by rw [splitSlash_cons, hsplit]; rfl, hne, hentries⟩
  · rw [hlead] at hchars
    exact absurd ⟨[], ['/'].intercalate names, hchars⟩ hsingle

theorem Descends.chars {cs : List Char} {names : List (List Char)} (h : Descends cs names) :
    cs = '/' :: ['/'].intercalate names := by
  rw [← intercalate_splitSlash cs, h.1, List.intercalate_cons_of_ne_nil h.2.1]
  rfl

/-- A path that only goes down is normal. -/
theorem Descends.normal {cs : List Char} {names : List (List Char)} (h : Descends cs names) :
    normpath (String.ofList cs) = String.ofList cs := by
  obtain rfl := h.chars
  obtain ⟨hsplit, hne, hentries⟩ := h
  have hlead : leadingSlashes ('/' :: ['/'].intercalate names) = 1 := by
    obtain ⟨c, rest, rfl⟩ := List.exists_cons_of_ne_nil hne
    have hc := hentries c List.mem_cons_self
    obtain ⟨x, c', rfl⟩ := List.exists_cons_of_ne_nil hc.nonempty
    obtain ⟨tl, htl⟩ : ∃ tl, ['/'].intercalate ((x :: c') :: rest) = x :: tl := by
      cases rest with
      | nil => exact ⟨c', List.intercalate_singleton⟩
      | cons d rest => exact ⟨_, List.intercalate_cons_cons⟩
    have hx : ¬ (x == '/') = true := by
      rw [beq_iff_eq]
      rintro rfl
      exact hc.noSlash List.mem_cons_self
    have htake : (x :: tl).takeWhile (· == '/') = [] := List.takeWhile_cons_of_neg hx
    rw [htl]
    unfold leadingSlashes
    rw [List.takeWhile_cons_of_pos rfl, htake]
    rfl
  have hstart : pathStep true [] [] = [] := rfl
  rw [normpath_root, hlead, hsplit, List.foldl_cons, hstart, foldl_pathStep_entries hentries,
    List.append_nil, List.reverse_reverse]
  rfl

theorem Descends.not_infix {cs c : List Char} {names : List (List Char)} (h : Descends cs names)
    (hc : '/' ∉ c) (hbad : ¬ NamesEntry c) : ¬ '/' :: c ++ ['/'] <:+: cs := by
  intro hin
  have hmem := mem_of_infix hc hin
  rw [h.1] at hmem
  exact hbad (h.2.2 c hmem)

theorem Descends.not_suffix {cs c : List Char} {names : List (List Char)} (h : Descends cs names)
    (hc : '/' ∉ c) (hbad : ¬ NamesEntry c) : ¬ '/' :: c <:+ cs := by
  intro hin
  have hmem := mem_of_suffix hc hin
  rw [h.1] at hmem
  exact hbad (h.2.2 c hmem)

/-! ## Accepted paths -/

/-- The path goes into the directory and on from there. -/
def Below (dir p : String) : Prop :=
  ∃ below, below ≠ [] ∧ splitSlash p.toList = (splitSlash dir.toList).dropLast ++ below

theorem startsWith_iff_below {dir p : String} {d : List Char} (hdir : dir.toList = d ++ ['/']) :
    PyStr.startsWith p dir = true ↔ Below dir p := by
  have hdrop : (splitSlash dir.toList).dropLast = splitSlash d := by
    rw [hdir, splitSlash_append]
    exact List.dropLast_concat
  unfold Below PyStr.startsWith
  rw [List.isPrefixOf_iff_prefix, hdrop]
  constructor
  · rintro ⟨rest, hrest⟩
    refine ⟨splitSlash rest, splitSlash_ne_nil rest, ?_⟩
    rw [← hrest, hdir, List.append_assoc, List.singleton_append, splitSlash_append]
  · rintro ⟨below, hne, hsplit⟩
    refine ⟨['/'].intercalate below, ?_⟩
    rw [← intercalate_splitSlash p.toList, hsplit,
      intercalate_append (splitSlash_ne_nil d) hne, intercalate_splitSlash, hdir,
      List.append_assoc, List.singleton_append]

theorem prefixes_end : ∀ dir ∈ IPA_PATH_PREFIXES, ∃ d, dir.toList = d ++ ['/'] := by
  have hlast : ∀ dir ∈ IPA_PATH_PREFIXES, dir.toList.getLast? = some '/' := by decide
  exact fun dir hdir => List.getLast?_eq_some_iff.mp (hlast dir hdir)

/-- A path that only goes down, to a listed file or below a listed directory. -/
structure Contained (p : String) : Prop where
  descends : ∃ names, Descends p.toList names
  listed : p ∈ IPA_PATH_EXACT ∨ ∃ dir ∈ IPA_PATH_PREFIXES, Below dir p

theorem accepting_iff {p : String → Bool} {v : Value} {t : String} :
    accepting p v = some t ↔ v = .str t ∧ p t = true := by
  cases v with
  | str s =>
      unfold accepting ofStr
      dsimp only
      split
      · rename_i hp
        constructor
        · intro h
          obtain rfl := Option.some.inj h
          exact ⟨rfl, hp⟩
        · rintro ⟨h, -⟩
          rw [Value.str.inj h]
      · rename_i hp
        refine iff_of_false (fun h => by cases h) ?_
        rintro ⟨h, ht⟩
        rw [Value.str.inj h] at hp
        exact hp ht
  | null | bool | int | float | list | dict =>
      exact iff_of_false (fun h => by cases h) fun h => by cases h.1

theorem listed_iff (p : String) :
    (IPA_PATH_PREFIXES.any (PyStr.startsWith p) || IPA_PATH_EXACT.contains p) = true
      ↔ p ∈ IPA_PATH_EXACT ∨ ∃ dir ∈ IPA_PATH_PREFIXES, Below dir p := by
  rw [Bool.or_eq_true, List.any_eq_true, List.contains_iff_mem, or_comm]
  refine or_congr_right (exists_congr fun dir => and_congr_right fun hdir => ?_)
  obtain ⟨d, hd⟩ := prefixes_end dir hdir
  exact startsWith_iff_below hd

theorem root_of_listed {p : String}
    (h : p ∈ IPA_PATH_EXACT ∨ ∃ dir ∈ IPA_PATH_PREFIXES, Below dir p) :
    ∃ cs, p.toList = '/' :: cs ∧ cs ≠ [] := by
  have hexact : ∀ q ∈ IPA_PATH_EXACT, q.toList.take 1 = ['/'] ∧ q.toList.drop 1 ≠ [] := by decide
  have hprefix : ∀ q ∈ IPA_PATH_PREFIXES, q.toList.take 1 = ['/'] ∧ q.toList.drop 1 ≠ [] := by
    decide
  rcases h with h | ⟨dir, hdir, hbelow⟩
  · obtain ⟨hhead, htail⟩ := hexact p h
    exact ⟨p.toList.drop 1, by rw [← List.singleton_append, ← hhead, List.take_append_drop], htail⟩
  · obtain ⟨d, hd⟩ := prefixes_end dir hdir
    obtain ⟨rest, hrest⟩ := List.isPrefixOf_iff_prefix.mp ((startsWith_iff_below hd).mpr hbelow)
    obtain ⟨hhead, htail⟩ := hprefix dir hdir
    refine ⟨dir.toList.drop 1 ++ rest, ?_, List.append_ne_nil_of_left_ne_nil htail rest⟩
    rw [← hrest, ← List.cons_append, ← List.singleton_append, ← hhead, List.take_append_drop]

theorem Descends.not_contains {p sub : String} {c : List Char} {names : List (List Char)}
    (h : Descends p.toList names) (hsub : sub.toList = '/' :: c ++ ['/']) (hc : '/' ∉ c)
    (hbad : ¬ NamesEntry c) : PyStr.contains p sub = false := by
  rw [← Bool.not_eq_true]
  intro hin
  refine h.not_infix hc hbad ?_
  rw [← hsub]
  exact PyStr.containsChars_iff.mp hin

theorem Descends.checks {p : String} {names : List (List Char)} (h : Descends p.toList names) :
    (normpath p != p || PyStr.contains p "//" || PyStr.contains p "/../"
      || PyStr.endsWith p "/.." || PyStr.contains p "/./") = false := by
  have hup : ¬ NamesEntry ['.', '.'] := fun hup => hup.notUp rfl
  have hnormal : (normpath p != p) = false := by
    rw [bne_eq_false_iff_eq, ← String.ofList_toList (s := p)]
    exact h.normal
  have hdouble : PyStr.contains p "//" = false :=
    h.not_contains (c := []) rfl (by decide) fun hempty => hempty.nonempty rfl
  have hdots : PyStr.contains p "/../" = false := h.not_contains rfl (by decide) hup
  have hdot : PyStr.contains p "/./" = false :=
    h.not_contains (c := ['.']) rfl (by decide) fun hsame => hsame.notSame rfl
  have hend : PyStr.endsWith p "/.." = false := by
    rw [← Bool.not_eq_true]
    exact fun hsuffix => h.not_suffix (by decide) hup (List.isSuffixOf_iff_suffix.mp hsuffix)
  rw [hnormal, hdouble, hdots, hend, hdot]
  rfl

/-- A text of the characters of a path is accepted exactly if it is
contained, and comes back as it is. -/
theorem ipaPath_iff {ε : Type} (v : Value) (p : String) :
    (validate "ipa_path" v : Except (Exc ε) _) = .ok (some p)
      ↔ v = .str p ∧ PATH_RE.fullmatch p = true ∧ Contained p := by
  have hvalidate : (validate "ipa_path" v : Except (Exc ε) _) = .ok (absPath v) := rfl
  rw [hvalidate, Except.ok.injEq]
  unfold absPath
  rw [accepting_iff]
  refine and_congr_right fun _ => ?_
  rw [Bool.and_eq_true, Bool.and_eq_true, listed_iff, and_assoc]
  refine and_congr_right fun _ => ?_
  constructor
  · rintro ⟨hchecks, hlisted⟩
    refine ⟨?_, hlisted⟩
    obtain ⟨cs, hcs, hne⟩ := root_of_listed hlisted
    rw [hcs]
    simp only [Bool.not_eq_true', Bool.or_eq_false_iff, bne_eq_false_iff_eq] at hchecks
    obtain ⟨⟨⟨⟨hnormal, hdouble⟩, -⟩, -⟩, -⟩ := hchecks
    refine descends_of_normal hne ?_ fun hin => ?_
    · rw [← hcs, String.ofList_toList]
      exact hnormal
    · have hcontains : PyStr.contains p "//" = true := by
        refine PyStr.containsChars_iff.mpr ?_
        rw [hcs]
        exact hin
      rw [hdouble] at hcontains
      cases hcontains
  · intro h
    obtain ⟨names, hdesc⟩ := h.descends
    refine ⟨?_, h.listed⟩
    rw [hdesc.checks]
    rfl

end IpaDiagnose.T
