import IpaDiagnose.Bundle.Written

/-!
# When the content of a bundle is accepted

Every text of every member is scanned, one after the other, until the
limits are reached. Members that are clean in themselves are accepted when
all their texts fit and they say the mode the manifest says.
-/

namespace IpaDiagnose.Bundle

open Py (Value Dict)

/-! ## Within the limits -/

def charCount (texts : List (String × String)) : Nat := (texts.map fun t => PyStr.len t.2).sum

def Budget.after (b : Budget) (texts : List (String × String)) : Budget :=
  ⟨b.strings + texts.length, b.chars + charCount texts⟩

/-- The texts can be scanned within the limits, and in time. -/
structure Fits (tools : Tools) (b : Budget) (texts : List (String × String)) : Prop where
  strings : b.strings + texts.length ≤ MAX_SCAN_STRINGS
  chars : b.chars + charCount texts ≤ MAX_SCAN_CHARS
  time : ∀ n, b.strings < n → n ≤ b.strings + texts.length → n % 256 = 0 → tools.late n = false

theorem charCount_append (texts texts' : List (String × String)) :
    charCount (texts ++ texts') = charCount texts + charCount texts' := by
  simp [charCount]

theorem after_append (b : Budget) (texts texts' : List (String × String)) :
    b.after (texts ++ texts') = (b.after texts).after texts' := by
  simp [Budget.after, charCount_append, Nat.add_assoc]

theorem fits_append {tools : Tools} {b : Budget} {texts texts' : List (String × String)} :
    Fits tools b (texts ++ texts') ↔ Fits tools b texts ∧ Fits tools (b.after texts) texts' := by
  constructor
  · rintro ⟨hstrings, hchars, htime⟩
    rw [List.length_append] at hstrings htime
    rw [charCount_append] at hchars
    refine ⟨⟨by omega, by omega, fun n hlo hhi => htime n hlo (by omega)⟩, ?_, ?_, ?_⟩
    · simp only [Budget.after]
      omega
    · simp only [Budget.after]
      omega
    · simp only [Budget.after]
      exact fun n hlo hhi => htime n (by omega) (by omega)
  · rintro ⟨⟨-, -, htime⟩, hstrings', hchars', htime'⟩
    simp only [Budget.after] at hstrings' hchars' htime'
    refine ⟨?_, ?_, ?_⟩
    · rw [List.length_append]
      omega
    · rw [charCount_append]
      omega
    · intro n hlo hhi hmod
      rw [List.length_append] at hhi
      rcases Nat.lt_or_ge (b.strings + texts.length) n with hlt | hge
      · exact htime' n hlt (by omega) hmod
      · exact htime n hlo hge hmod

theorem spend_eq (tools : Tools) (b : Budget) (key text : String) :
    (Fits tools b [(key, text)] → b.spend tools text = some (b.after [(key, text)]))
      ∧ (¬ Fits tools b [(key, text)] → b.spend tools text = none) := by
  have hafter : b.after [(key, text)] = ⟨b.strings + 1, b.chars + PyStr.len text⟩ := by
    simp [Budget.after, charCount]
  rw [hafter]
  constructor
  · rintro ⟨hstrings, hchars, htime⟩
    have hchars : b.chars + PyStr.len text ≤ MAX_SCAN_CHARS := by simpa [charCount] using hchars
    unfold Budget.spend
    dsimp only
    rw [if_neg]
    rintro (h | h | ⟨hmod, hlate⟩)
    · exact absurd hstrings (Nat.not_le.mpr h)
    · exact absurd hchars (Nat.not_le.mpr h)
    · rw [htime _ (Nat.lt_succ_self _) (Nat.le_refl _) hmod] at hlate
      cases hlate
  · intro hnot
    unfold Budget.spend
    dsimp only
    rw [if_pos]
    by_contra hgood
    simp only [not_or, not_lt, not_and] at hgood
    refine hnot ⟨hgood.1, ?_, fun n hlo hhi hmod => ?_⟩
    · simpa [charCount] using hgood.2.1
    · obtain rfl : n = b.strings + 1 := by
        rw [List.length_singleton] at hhi
        omega
      exact Bool.eq_false_iff.mpr (hgood.2.2 hmod)

/-- A budget that is not overdrawn. -/
def Budget.Sound (b : Budget) : Prop := b.strings ≤ MAX_SCAN_STRINGS ∧ b.chars ≤ MAX_SCAN_CHARS

theorem Fits.sound {tools : Tools} {b : Budget} {texts : List (String × String)}
    (h : Fits tools b texts) : (b.after texts).Sound := ⟨h.strings, h.chars⟩

theorem fits_nil {tools : Tools} {b : Budget} (h : b.Sound) : Fits tools b [] :=
  ⟨h.1, h.2, fun _ hlo hhi => absurd hhi (Nat.not_le.mpr hlo)⟩

theorem scanAll_clean {tools : Tools} {multiline : Bool} {texts : List (String × String)} :
    ∀ {b : Budget}, b.Sound → (∀ t ∈ texts, tools.scanText t.2 t.1 multiline = []) →
      (Fits tools b texts → scanAll tools multiline texts b = some ([], b.after texts))
        ∧ (¬ Fits tools b texts → scanAll tools multiline texts b = none) := by
  induction texts with
  | nil =>
      intro b hb _
      exact ⟨fun _ => rfl, fun h => absurd (fits_nil hb) h⟩
  | cons t texts ih =>
      intro b hb hclean
      obtain ⟨key, text⟩ := t
      have hhead : tools.scanText text key multiline = [] := hclean _ List.mem_cons_self
      have htail : ∀ t ∈ texts, tools.scanText t.2 t.1 multiline = [] :=
        fun t ht => hclean t (List.mem_cons_of_mem _ ht)
      have hsplit : Fits tools b ((key, text) :: texts)
          ↔ Fits tools b [(key, text)] ∧ Fits tools (b.after [(key, text)]) texts := by
        rw [← fits_append, List.singleton_append]
      constructor
      · intro h
        obtain ⟨hfirst, hrest⟩ := hsplit.mp h
        rw [scanAll, (spend_eq tools b key text).1 hfirst]
        dsimp only
        rw [(ih hfirst.sound htail).1 hrest, ← after_append, hhead]
        rfl
      · intro h
        by_cases hfirst : Fits tools b [(key, text)]
        · have hrest : ¬ Fits tools (b.after [(key, text)]) texts :=
            fun hrest => h (hsplit.mpr ⟨hfirst, hrest⟩)
          rw [scanAll, (spend_eq tools b key text).1 hfirst]
          dsimp only
          rw [(ih hfirst.sound htail).2 hrest]
          rfl
        · rw [scanAll, (spend_eq tools b key text).2 hfirst]

/-! ## Members that are clean -/

/-- Whether a member is a JSON document. -/
def isJson (name : String) : Bool := PyStr.endsWith name ".json"

/-- The texts of a member that are scanned. -/
def memberTexts (tools : Tools) (name : String) (data : Content) : List (String × String) :=
  if isJson name then
    match strictJson tools data with
    | some (.dict obj) => jsonStrings "" (.dict obj)
    | _ => []
  else ((utf8? data).map fun text => ("", text)).toList

/-- A member without a problem of its own. -/
structure Clean (tools : Tools) (name : String) (data : Content) : Prop where
  text : ∃ text, utf8? data = some text
  json : isJson name = true → ∃ obj, strictJson tools data = some (.dict obj)
    ∧ (name ∈ EVIDENCE_MEMBERS → unremovedFields tools.secretKey (.dict obj) = 0)
  scanned : ∀ t ∈ memberTexts tools name data, tools.scanText t.2 t.1 (!isJson name) = []

/-- A document says the mode the manifest says. -/
def SaysMode (tools : Tools) (mode : Value) (name : String) (data : Content) : Prop :=
  isJson name = true → name ≠ "manifest.json" → mode.truthy = true →
    ∀ obj, strictJson tools data = some (.dict obj) →
      (field obj "source_mode").pyEq mode = true

theorem checkMember_json {tools : Tools} {mode : Value} {name : String} {data : Content}
    {b : Budget} (hjson : isJson name = true) (hb : b.Sound) (h : Clean tools name data) :
    (Fits tools b (memberTexts tools name data) →
        ∃ problems, checkMember tools mode name data b
            = some (problems, b.after (memberTexts tools name data))
          ∧ (problems = [] ↔ SaysMode tools mode name data))
      ∧ (¬ Fits tools b (memberTexts tools name data) →
        checkMember tools mode name data b = none) := by
  obtain ⟨text, htext⟩ := h.text
  obtain ⟨obj, hobj, hunremoved⟩ := h.json hjson
  have htexts : memberTexts tools name data = jsonStrings "" (.dict obj) := by
    rw [memberTexts, if_pos hjson, hobj]
  have hscanned := h.scanned
  rw [htexts, hjson, Bool.not_true] at hscanned
  rw [htexts]
  have hscan := scanAll_clean hb hscanned
  have hnone : (EVIDENCE_MEMBERS.contains name
      && decide (unremovedFields tools.secretKey (.dict obj) ≠ 0)) = false := by
    by_cases hname : name ∈ EVIDENCE_MEMBERS
    · rw [hunremoved hname]
      simp
    · have hnot : EVIDENCE_MEMBERS.contains name = false := by simpa using hname
      rw [hnot]
      rfl
  have hcheck : checkMember tools mode name data b
      = (scanAll tools false (jsonStrings "" (.dict obj)) b).map fun r =>
        ((if name ≠ "manifest.json" && mode.truthy && !(field obj "source_mode").pyEq mode then
            [name ++ " says source_mode "
              ++ Py.reprStr (PyStr.take (field obj "source_mode").toStr 10)
              ++ ", the manifest says " ++ mode.toStr]
          else []) ++ (((r.1 ++ []).eraseDups.insertionSort (· ≤ ·)).map fun cat =>
            name ++ ": " ++ cat ++ " - do not share this bundle"), r.2) := by
    unfold checkMember
    rw [htext]
    dsimp only
    rw [← isJson, if_pos hjson, hobj]
    dsimp only
    rw [hnone]
    rfl
  rw [hcheck]
  refine ⟨fun hfits => ?_, fun hnot => ?_⟩
  · rw [hscan.1 hfits]
    refine ⟨_, rfl, ?_⟩
    have hreport : ((([] : List String) ++ []).eraseDups.insertionSort (· ≤ ·)) = [] := by
      simp
    dsimp only
    rw [hreport, List.map_nil, List.append_nil, ite_eq_right_iff]
    simp only [Bool.and_eq_true, decide_eq_true_eq, Bool.not_eq_true', List.cons_ne_nil, imp_false]
    constructor
    · intro hright _ hname hmode obj' hobj'
      obtain rfl := Value.dict.inj (Option.some.inj (hobj.symm.trans hobj'))
      by_contra hwrong
      exact hright ⟨⟨hname, hmode⟩, Bool.eq_false_iff.mpr hwrong⟩
    · rintro hmodes ⟨⟨hname, hmode⟩, hwrong⟩
      rw [hmodes hjson hname hmode obj hobj] at hwrong
      cases hwrong
  · rw [hscan.2 hnot]
    rfl

theorem checkMember_text {tools : Tools} {mode : Value} {name : String} {data : Content}
    {b : Budget} (hjson : isJson name = false) (hb : b.Sound) (h : Clean tools name data) :
    (Fits tools b (memberTexts tools name data) →
        checkMember tools mode name data b
          = some ([], b.after (memberTexts tools name data)))
      ∧ (¬ Fits tools b (memberTexts tools name data) →
        checkMember tools mode name data b = none) := by
  obtain ⟨text, htext⟩ := h.text
  have htexts : memberTexts tools name data = [("", text)] := by
    rw [memberTexts, hjson, if_neg Bool.false_ne_true, htext]
    rfl
  have hscanned := h.scanned
  rw [htexts, hjson, Bool.not_false] at hscanned
  rw [htexts]
  have hscan := scanAll_clean hb hscanned
  have hcheck : checkMember tools mode name data b
      = (scanAll tools true [("", text)] b).map fun r =>
        ((r.1.eraseDups.insertionSort (· ≤ ·)).map fun cat =>
          name ++ ": " ++ cat ++ " - do not share this bundle", r.2) := by
    unfold checkMember
    rw [htext]
    dsimp only
    rw [← isJson, hjson, if_neg Bool.false_ne_true]
  rw [hcheck]
  refine ⟨fun hfits => ?_, fun hnot => ?_⟩
  · rw [hscan.1 hfits]
    simp
  · rw [hscan.2 hnot]
    rfl

theorem saysMode_text {tools : Tools} {mode : Value} {name : String} {data : Content}
    (hjson : isJson name = false) : SaysMode tools mode name data := by
  intro h
  rw [hjson] at h
  cases h

/-- A clean member has no problem but the mode it says, if its texts can
be scanned. -/
theorem checkMember_clean {tools : Tools} (mode : Value) {name : String} {data : Content}
    {b : Budget} (hb : b.Sound) (h : Clean tools name data) :
    (Fits tools b (memberTexts tools name data) →
        ∃ problems, checkMember tools mode name data b
            = some (problems, b.after (memberTexts tools name data))
          ∧ (problems = [] ↔ SaysMode tools mode name data))
      ∧ (¬ Fits tools b (memberTexts tools name data) →
        checkMember tools mode name data b = none) := by
  cases hjson : isJson name with
  | true => exact checkMember_json hjson hb h
  | false =>
      obtain ⟨hfits, hnot⟩ : (Fits tools b (memberTexts tools name data) →
          checkMember tools mode name data b
            = some ([], b.after (memberTexts tools name data)))
          ∧ (¬ Fits tools b (memberTexts tools name data) →
            checkMember tools mode name data b = none) := checkMember_text hjson hb h
      exact ⟨fun hf => ⟨[], hfits hf, by simp [saysMode_text hjson]⟩, hnot⟩

/-! ## All members -/

/-- The texts that are scanned for a name. -/
def namedTexts (tools : Tools) (members : List (String × Content)) (name : String) :
    List (String × String) :=
  match members.lookup name with
  | none => []
  | some data => if name = "SHA256SUMS" then [] else memberTexts tools name data

/-- The texts of some members, in the order they are scanned. -/
def scanned (tools : Tools) (members : List (String × Content)) (names : List String) :
    List (String × String) := names.flatMap (namedTexts tools members)

theorem checkContent_clean {tools : Tools} {members : List (String × Content)} {mode : Value}
    {names : List String} : ∀ {b : Budget}, b.Sound →
      (∀ name ∈ names, ∀ data, members.lookup name = some data → name ≠ "SHA256SUMS" →
        Clean tools name data) →
      (checkContent tools members mode names b = some [] ↔
        Fits tools b (scanned tools members names)
          ∧ ∀ name ∈ names, ∀ data, members.lookup name = some data → name ≠ "SHA256SUMS" →
            SaysMode tools mode name data) := by
  induction names with
  | nil =>
      intro b hb _
      exact ⟨fun _ => ⟨fits_nil hb, fun name h => absurd h List.not_mem_nil⟩, fun _ => rfl⟩
  | cons name names ih =>
      intro b hb hclean
      have htail := fun name' h => hclean name' (List.mem_cons_of_mem name h)
      rw [checkContent, scanned, List.flatMap_cons, ← scanned, List.forall_mem_cons, namedTexts]
      cases hlookup : members.lookup name with
      | none =>
          dsimp only
          rw [List.nil_append, ih hb htail]
          simp
      | some data =>
          dsimp only
          by_cases hname : name = "SHA256SUMS"
          · rw [if_pos hname, if_pos hname, List.nil_append, ih hb htail]
            simp [hname]
          · have hmember := checkMember_clean mode hb
              (hclean name List.mem_cons_self data hlookup hname)
            rw [if_neg hname, if_neg hname, fits_append]
            by_cases hfits : Fits tools b (memberTexts tools name data)
            · obtain ⟨problems, hcheck, hproblems⟩ := hmember.1 hfits
              have hrest := ih hfits.sound htail
              rw [hcheck]
              dsimp only
              rw [Option.map_eq_some_iff]
              constructor
              · rintro ⟨rest, hcontent, happend⟩
                obtain ⟨hnone, rfl⟩ := List.append_eq_nil_iff.mp happend
                obtain ⟨hrestFits, hmodes⟩ := hrest.mp hcontent
                refine ⟨⟨hfits, hrestFits⟩, ?_, hmodes⟩
                intro data' hdata' _
                obtain rfl := Option.some.inj hdata'
                exact hproblems.mp hnone
              · rintro ⟨⟨-, hrestFits⟩, hmode, hmodes⟩
                refine ⟨[], hrest.mpr ⟨hrestFits, hmodes⟩, ?_⟩
                rw [hproblems.mpr (hmode data rfl hname)]
                rfl
            · rw [hmember.2 hfits]
              exact ⟨nofun, fun h => absurd h.1.1 hfits⟩

end IpaDiagnose.Bundle
