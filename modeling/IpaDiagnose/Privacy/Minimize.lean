import IpaDiagnose.Engine.Model
import IpaDiagnose.Privacy.Redact

/-!
# What an explanation is asked with

The evidence a diagnosis cites, at most twelve pieces of it, and the
prompt made of it and of the diagnosis. The prompt is kept as its parts:
what the program says, and what can come from evidence.
-/

namespace IpaDiagnose.Privacy

open Py (Value Dict)

def MAX_MESSAGE_CHARS : Nat := 400

def MAX_ITEMS : Nat := 12

def severityValue : Option Severity → String
  | some s => s.value
  | none => "INFO"

def statusValue : DiagnosisStatus → String
  | .diagnosed => "DIAGNOSED"
  | .unknownInsufficientEvidence => "UNKNOWN_INSUFFICIENT_EVIDENCE"
  | .unknownConflictingEvidence => "UNKNOWN_CONFLICTING_EVIDENCE"
  | .transientSuspected => "TRANSIENT_SUSPECTED"

def levelValue : ConfidenceLevel → String
  | .high => "HIGH"
  | .medium => "MEDIUM"
  | .low => "LOW"
  | .insufficient => "INSUFFICIENT"

def riskValue : RiskLevel → String
  | .safe => "SAFE"
  | .caution => "CAUTION"
  | .highRisk => "HIGH_RISK"

/-! ## Selection -/

/-- An item with what is said of it. -/
structure Item extends EvidenceItem where
  summary : String
  severity : Option Severity := none

/-- The evidence of one run. -/
structure Evidence where
  findings : List Finding
  items : List Item

structure SelectedEvidence where
  kind : EvidenceKind
  source : String
  severity : String
  message : String
  why_relevant : String

def selectedFromFinding (f : Finding) (why : String) : SelectedEvidence :=
  { kind := .finding, source := f.qualifiedCheck, severity := f.severity.value
    message := f.message, why_relevant := why }

def selectedFromItem (item : Item) (why : String) : SelectedEvidence :=
  { kind := .item, source := item.kind, severity := severityValue item.severity
    message := item.summary, why_relevant := why }

/-- What a reference selects, and what is masked in its fields. Of several
pieces of evidence with one id the last one counts. -/
def resolve (bundle : Evidence) (ref : EvidenceRef) : Option (SelectedEvidence × List String) :=
  match ref.kind with
  | .finding =>
      (bundle.findings.reverse.find? fun f => f.findingId == ref.evidenceId).map fun f =>
        (selectedFromFinding f ref.whyRelevant, (redactMapping f.keywords).2)
  | .item =>
      (bundle.items.reverse.find? fun i => i.itemId == ref.evidenceId).map fun i =>
        (selectedFromItem i ref.whyRelevant, (redactMapping i.data).2)

/-- The selected evidence of some references, as far as there is room. -/
def select (bundle : Evidence) : Nat → List EvidenceRef → List (SelectedEvidence × List String)
  | 0, _ => []
  | _, [] => []
  | room + 1, ref :: refs =>
      match resolve bundle ref with
      | some chosen => chosen :: select bundle room refs
      | none => select bundle (room + 1) refs

def chosen (bundle : Evidence) (d : Diagnosis) : List (SelectedEvidence × List String) :=
  select bundle MAX_ITEMS (d.evidenceFor ++ d.evidenceAgainst)

/-- The message as it is sent: masked and cut. -/
def SelectedEvidence.masked (s : SelectedEvidence) : SelectedEvidence :=
  { s with
    message := PyStr.take (redactText (cleanMultiline s.message)) MAX_MESSAGE_CHARS }

/-! ## The prompt -/

/-- A part of the prompt: words of the program, or text that can come from
evidence. -/
inductive Part where
  | fixed (text : String)
  | evidence (text : String)

def Part.text : Part → String
  | .fixed text => text
  | .evidence text => text

def Part.fromEvidence : Part → Option String
  | .fixed _ => none
  | .evidence text => some text

def redacted (text : String) : String := redactText (cleanMultiline text)

def evidenceLine (e : SelectedEvidence) : List Part :=
  [.fixed ("- [" ++ e.severity ++ "] ("), .evidence e.source, .fixed ") ", .evidence e.message,
    .fixed "  -- relevant because: ", .evidence e.why_relevant]

def actionLine (a : Action) : List Part :=
  [.fixed ("- (" ++ riskValue a.risk ++ ") "), .evidence a.description]

/-- Lines, or a note that there are none. -/
def linesOr (none_ : String) : List (List Part) → List Part
  | [] => [.fixed none_]
  | lines => (lines.intersperse [.fixed "\n"]).flatten

/-- What the prompt says of the diagnosis itself. -/
def diagnosisParts (d : Diagnosis) : List Part :=
  [.fixed "DIAGNOSIS: ", .evidence (redacted d.title),
    .fixed ("\nSTATUS: " ++ statusValue d.status ++ "\nCONFIDENCE: " ++ levelValue d.confidence.level
      ++ " ("), .evidence (redacted d.confidence.rationale),
    .fixed ")\nWHY (already determined, do not contradict): ", .evidence (redacted d.why),
    .fixed "\nIMPACT (already determined): ", .evidence (redacted d.impact),
    .fixed "\nLIMITATIONS: ",
    if d.limitations = "" then .fixed "(none noted)" else .evidence (redacted d.limitations)]

def promptParts (selected : List SelectedEvidence) (d : Diagnosis) : List Part :=
  diagnosisParts d ++ [.fixed "\n\nSUPPORTING EVIDENCE:\n"]
    ++ linesOr "(none selected)" (selected.map evidenceLine)
    ++ [.fixed "\n\nAPPROVED ACTIONS (do not add or modify commands):\n"]
    ++ linesOr "(none)" (d.actions.map actionLine)
    ++ [.fixed "\n\nExplain this to the administrator in plain language, under 200 words."]

/-- The names of what was masked in a text. -/
def maskedNames (text : String) : List String := (redactReport (cleanMultiline text)).2

structure AIPayload where
  diagnosis_id : String
  user_prompt : List Part
  selected_evidence : List SelectedEvidence
  redaction_matches : List String
  excluded_evidence_count : Nat

def buildAiPayload (bundle : Evidence) (d : Diagnosis) : AIPayload :=
  let picked := chosen bundle d
  let selected := picked.map fun c => c.1.masked
  { diagnosis_id := d.diagnosisId
    user_prompt := promptParts selected d
    selected_evidence := selected
    redaction_matches := picked.flatMap Prod.snd ++ picked.flatMap (fun c => maskedNames c.1.message)
      ++ [d.title, d.confidence.rationale, d.why, d.impact].flatMap maskedNames
      ++ (if d.limitations = "" then [] else maskedNames d.limitations)
    excluded_evidence_count := bundle.findings.length + bundle.items.length - selected.length }

/-- The texts in a prompt that can come from evidence. -/
def AIPayload.fragments (p : AIPayload) : List String := p.user_prompt.filterMap Part.fromEvidence

end IpaDiagnose.Privacy
