import IpaDiagnose.Lib.PyValue
import IpaDiagnose.Lib.RegexWords
import IpaDiagnose.TextSafe

/-!
# Redaction

What is masked in a text, and in the fields of a mapping, with the names
of what was found. A pattern that matches nowhere masks nothing; masking
brings in no character that sanitizing takes out.
-/

namespace IpaDiagnose

open Py (Value Dict)
open Regex (Re)

/-! ## Sanitized texts of several lines -/

/-- A character that is kept: of a line, or between lines. -/
def keptInLines (c : Char) : Bool := c == '\n' || c == '\t' || Unicode.isPrintable c

def cleanMultiline (text : String) : String :=
  let text := erase escPairRe (erase dcsRe (erase oscRe (erase csiRe (PyStr.take text 20000))))
  String.ofList (text.toList.map fun c => if keptInLines c then c else ' ')

def SanitizedLines (text : String) : Prop := ∀ c ∈ text.toList, keptInLines c = true

theorem sanitizedLines_clean (text : String) : SanitizedLines (cleanMultiline text) := by
  intro c hc
  unfold cleanMultiline at hc
  rw [String.toList_ofList] at hc
  obtain ⟨x, -, rfl⟩ := List.mem_map.mp hc
  by_cases hx : keptInLines x = true
  · rw [if_pos hx]
    exact hx
  · rw [if_neg hx]
    decide +kernel

theorem SanitizedLines.take {text : String} (h : SanitizedLines text) (n : Nat) :
    SanitizedLines (PyStr.take text n) := by
  intro c hc
  rw [PyStr.take, String.toList_ofList] at hc
  exact h c (List.mem_of_mem_take hc)

/-! ## Masking -/

def mark (name : String) : String := "[REDACTED:" ++ name ++ "]"

/-- The masked text, and the names of the patterns, once for each match. -/
def redactReport (text : String) : String × List String :=
  REDACT_PATTERNS.foldl (fun r p =>
    (p.2.sub (fun _ => mark p.1) r.1, r.2 ++ (p.2.findall r.1).map fun _ => p.1)) (text, [])

theorem redactReport_text (text : String) : (redactReport text).1 = redactText text := by
  have hfold : ∀ (ps : List (String × Re)) (r : String × List String),
      (ps.foldl (fun r p =>
        (p.2.sub (fun _ => mark p.1) r.1, r.2 ++ (p.2.findall r.1).map fun _ => p.1)) r).1
      = ps.foldl (fun result p => p.2.sub (fun _ => "[REDACTED:" ++ p.1 ++ "]") result) r.1 := by
    intro ps
    induction ps with
    | nil => intro r; rfl
    | cons p ps ih =>
        intro r
        rw [List.foldl_cons, List.foldl_cons, ih]
        rfl
  exact hfold REDACT_PATTERNS (text, [])

def SENSITIVE_KEY_MARKERS : List String :=
  ["password", "passwd", "pwd", "secret", "token", "apikey", "api_key", "bearer", "private_key",
    "privatekey", "keytab", "credential", "bindpw", "bind_pw", "access_key", "secret_key", "session",
    "cookie", "authorization"]

def isSensitiveKey (key : String) : Bool :=
  SENSITIVE_KEY_MARKERS.any (PyStr.contains (PyStr.lower key))

mutual

/-- A value with its secrets masked, and what was found. -/
def redactValue : Value → Value × List String
  | .str s => (.str (redactReport s).1, (redactReport s).2)
  | .list xs => (.list (redactElements xs).1, (redactElements xs).2)
  | .dict kvs => (.dict (redactMapping kvs).1, (redactMapping kvs).2)
  | v => (v, [])

def redactElements : List Value → List Value × List String
  | [] => ([], [])
  | x :: xs =>
      ((redactValue x).1 :: (redactElements xs).1, (redactValue x).2 ++ (redactElements xs).2)

def redactMapping : List (String × Value) → List (String × Value) × List String
  | [] => ([], [])
  | (k, v) :: kvs =>
      let entry : Value × List String :=
        if v.isStr && isSensitiveKey k then (.str "[REDACTED]", ["field:" ++ k]) else redactValue v
      ((k, entry.1) :: (redactMapping kvs).1, entry.2 ++ (redactMapping kvs).2)

end

/-! ## Texts without a match -/

/-- No pattern matches anywhere in the text. -/
def Unmatched (text : String) : Prop := ∀ p ∈ REDACT_PATTERNS, p.2.search text = false

instance (text : String) : Decidable (Unmatched text) :=
  inferInstanceAs (Decidable (∀ p ∈ REDACT_PATTERNS, p.2.search text = false))

/-- A text without a match is not changed. -/
theorem redactText_of_unmatched {text : String} (h : Unmatched text) : redactText text = text := by
  have hfold : ∀ ps : List (String × Re), (∀ p ∈ ps, p.2.search text = false) →
      ps.foldl (fun result p => p.2.sub (fun _ => "[REDACTED:" ++ p.1 ++ "]") result) text
        = text := by
    intro ps
    induction ps with
    | nil => intro _; rfl
    | cons p ps ih =>
        intro hps
        rw [List.foldl_cons, Regex.Re.sub_of_search (hps p List.mem_cons_self)]
        exact ih fun q hq => hps q (List.mem_cons_of_mem _ hq)
  exact hfold REDACT_PATTERNS h

/-! ## What masking brings in -/

theorem SanitizedLines.sub {r : Re} {f : Regex.Match → String} {text : String}
    (h : SanitizedLines text) (hf : ∀ m, SanitizedLines (f m)) : SanitizedLines (r.sub f text) := by
  intro c hc
  rw [Regex.Re.sub, String.toList_ofList, List.mem_flatMap] at hc
  obtain ⟨t, ht, hc⟩ := hc
  cases t with
  | inl x =>
      obtain rfl := List.mem_singleton.mp hc
      exact h c (Regex.Re.scan_chars _ _ c ht)
  | inr m => exact hf m c hc

theorem sanitizedLines_marks : ∀ p ∈ REDACT_PATTERNS, SanitizedLines (mark p.1) := by
  have hmarks : (REDACT_PATTERNS.map fun p => (mark p.1).toList).all (·.all keptInLines) = true := by
    decide +kernel
  intro p hp c hc
  exact List.all_eq_true.mp (List.all_eq_true.mp hmarks _ (List.mem_map_of_mem hp)) c hc

/-- Masking keeps a text sanitized. -/
theorem SanitizedLines.redactText {text : String} (h : SanitizedLines text) :
    SanitizedLines (redactText text) := by
  have hfold : ∀ (ps : List (String × Re)), (∀ p ∈ ps, SanitizedLines (mark p.1)) →
      ∀ {text : String}, SanitizedLines text → SanitizedLines
        (ps.foldl (fun result p => p.2.sub (fun _ => "[REDACTED:" ++ p.1 ++ "]") result) text) := by
    intro ps
    induction ps with
    | nil => exact fun _ _ h => h
    | cons p ps ih =>
        intro hps text h
        exact ih (fun q hq => hps q (List.mem_cons_of_mem _ hq))
          (h.sub fun _ => hps p List.mem_cons_self)
  exact hfold REDACT_PATTERNS sanitizedLines_marks h

/-! ## Redacted texts -/

/-- The image of redaction on a sanitized text, without a match. -/
def Redacted (text : String) : Prop :=
  (∃ raw, SanitizedLines raw ∧ text = redactText raw) ∧ Unmatched text

theorem redacted_iff {text : String} : Redacted text ↔ SanitizedLines text ∧ Unmatched text := by
  constructor
  · rintro ⟨⟨raw, hraw, rfl⟩, hunmatched⟩
    exact ⟨hraw.redactText, hunmatched⟩
  · rintro ⟨hclean, hunmatched⟩
    exact ⟨⟨text, hclean, (redactText_of_unmatched hunmatched).symm⟩, hunmatched⟩

end IpaDiagnose
