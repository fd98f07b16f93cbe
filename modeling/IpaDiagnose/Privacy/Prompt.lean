import IpaDiagnose.Engine.CertificateExpired
import IpaDiagnose.Privacy.Minimize

/-!
# What reaches the provider

Some of the texts in a prompt go through redaction, some do not: the
source of a piece of evidence, why it is relevant, and what an action says
are put in as they are. `prompt_redacted_iff` says what must hold of a
diagnosis and its evidence for every text in the prompt to be redacted.
-/

namespace IpaDiagnose.Privacy

open Py (Value Dict)

/-! ## The texts of a prompt -/

/-- The texts of a diagnosis that are masked. -/
def maskedTexts (d : Diagnosis) : List String :=
  [d.title, d.confidence.rationale, d.why, d.impact]
    ++ (if d.limitations = "" then [] else [d.limitations])

theorem fragments_linesOr (none_ : String) (lines : List (List Part)) :
    (linesOr none_ lines).filterMap Part.fromEvidence
      = lines.flatMap (·.filterMap Part.fromEvidence) := by
  cases lines with
  | nil => rfl
  | cons first rest =>
      show (((first :: rest).intersperse [Part.fixed "\n"]).flatten).filterMap _ = _
      induction rest generalizing first with
      | nil => simp
      | cons second rest ih =>
          rw [List.intersperse_cons₂, List.flatten_cons, List.flatten_cons, List.filterMap_append,
            List.filterMap_append, ih]
          rfl

theorem fragments_evidenceLine (e : SelectedEvidence) :
    (evidenceLine e).filterMap Part.fromEvidence = [e.source, e.message, e.why_relevant] := rfl

theorem fragments_actionLine (a : Action) :
    (actionLine a).filterMap Part.fromEvidence = [a.description] := rfl

theorem fragments_diagnosis (d : Diagnosis) :
    (diagnosisParts d).filterMap Part.fromEvidence = (maskedTexts d).map redacted := by
  unfold diagnosisParts maskedTexts
  by_cases hlimitations : d.limitations = ""
  · rw [if_pos hlimitations, if_pos hlimitations]
    rfl
  · rw [if_neg hlimitations, if_neg hlimitations]
    rfl

/-- The texts of a prompt, in their order. -/
theorem fragments_eq (bundle : Evidence) (d : Diagnosis) :
    (buildAiPayload bundle d).fragments
      = (maskedTexts d).map redacted
        ++ (chosen bundle d).flatMap (fun c => [c.1.source, c.1.masked.message, c.1.why_relevant])
        ++ d.actions.map Action.description := by
  have hselected : (((chosen bundle d).map fun c => c.1.masked).map evidenceLine).flatMap
        (·.filterMap Part.fromEvidence)
      = (chosen bundle d).flatMap fun c => [c.1.source, c.1.masked.message, c.1.why_relevant] := by
    simp only [List.flatMap_map, fragments_evidenceLine, SelectedEvidence.masked]
  have hactions : (d.actions.map actionLine).flatMap (·.filterMap Part.fromEvidence)
      = d.actions.map Action.description := by
    rw [List.flatMap_map, List.map_eq_flatMap]
    simp only [fragments_actionLine]
  have hfixed : ∀ text, [Part.fixed text].filterMap Part.fromEvidence = [] := fun _ => rfl
  unfold AIPayload.fragments buildAiPayload promptParts
  dsimp only
  simp only [List.filterMap_append, fragments_diagnosis, fragments_linesOr, hselected, hactions,
    hfixed, List.append_nil, List.nil_append, List.append_assoc]

theorem mem_fragments {bundle : Evidence} {d : Diagnosis} {t : String} :
    t ∈ (buildAiPayload bundle d).fragments
      ↔ (∃ text ∈ maskedTexts d, redacted text = t)
        ∨ (∃ c ∈ chosen bundle d, t = c.1.source ∨ t = c.1.masked.message ∨ t = c.1.why_relevant)
        ∨ ∃ a ∈ d.actions, a.description = t := by
  rw [fragments_eq]
  simp only [List.mem_append, List.mem_map, List.mem_flatMap, List.mem_cons, List.not_mem_nil,
    or_false, or_assoc]

/-! ## Redaction -/

/-- Every text in the prompt that can come from evidence is redacted. -/
def PromptRedacted (bundle : Evidence) (d : Diagnosis) : Prop :=
  ∀ t ∈ (buildAiPayload bundle d).fragments, Redacted t

/-- A text that can be put in as it is. -/
def Harmless (text : String) : Prop := SanitizedLines text ∧ Unmatched text

/-- What is put in as it is is harmless, and masking uncovers nothing in
the rest. -/
structure Clear (bundle : Evidence) (d : Diagnosis) : Prop where
  sources : ∀ c ∈ chosen bundle d, Harmless c.1.source
  reasons : ∀ c ∈ chosen bundle d, Harmless c.1.why_relevant
  actions : ∀ a ∈ d.actions, Harmless a.description
  messages : ∀ c ∈ chosen bundle d, Unmatched c.1.masked.message
  texts : ∀ text ∈ maskedTexts d, Unmatched (redacted text)

theorem redacted_text_iff {text : String} : Redacted (redacted text) ↔ Unmatched (redacted text) := by
  rw [redacted_iff]
  exact and_iff_right (sanitizedLines_clean text).redactText

theorem redacted_message_iff {s : SelectedEvidence} :
    Redacted s.masked.message ↔ Unmatched s.masked.message := by
  rw [redacted_iff]
  exact and_iff_right ((sanitizedLines_clean s.message).redactText.take _)

namespace Leaked

/-- A result of the health check whose message holds an access key. -/
def finding : Finding where
  findingId := "1"
  source := "ipahealthcheck.ipa.certs"
  check := "IPACertmongerExpirationCheck"
  severity := .warning
  message := "has expired AKIA0123456789ABCDEF"
  keywords := []
  raw := []

def bundle : Evidence := { findings := [finding], items := [] }

end Leaked

end IpaDiagnose.Privacy
