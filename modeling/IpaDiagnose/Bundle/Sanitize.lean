import IpaDiagnose.Lib.Assoc
import IpaDiagnose.Lib.PyValue
import IpaDiagnose.Lib.Result

/-!
# Sanitizing a member

Two walks over the same value. `discover` offers every key and string to
the recognisers of names, so that a name is known before anything is
written; `transform` copies the value with keys dropped, fields removed
and every text rewritten, bounded in depth, width and length. What a text
is rewritten to, and what a recogniser registers, are the sanitizer's
rules; the walks and their bounds are here.
-/

namespace IpaDiagnose.Bundle

open Py (Value Dict)

/-! ## Bounds and keys -/

def TEXT_LIMIT : Nat := 500

def PROSE_LIMIT : Nat := 2000

def KEY_LIMIT : Nat := 120

def HARD_LIMIT : Nat := 65536

def MAX_DICT_KEYS : Nat := 60

def MAX_LIST_ITEMS : Nat := 200

def MAX_DEPTH : Nat := 8

def PROSE_KEYS : List String :=
  ["why", "impact", "limitations", "rationale", "description", "next_diagnostic_step",
    "verification_label", "note", "hint", "reason", "impact_note", "text", "summary", "message",
    "detail"]

/-- Keys whose value is raw tool output. -/
def RAW_KEYS : List String :=
  ["raw", "stdout", "stderr", "output", "raw_output", "environ", "environment_variables"]

def isRaw (k : String) : Bool := RAW_KEYS.contains (PyStr.lower k)

/-- The processing took longer than it may. -/
structure SanitizeTimeout : Type

/-- What the walks leave to the sanitizer: which keys name a secret or a
serial number, and how a text is redacted and pseudonymized. -/
structure Rules (S : Type) where
  secretKey : String → Bool
  serialKey : String → Bool
  rewrite : String → S → Except SanitizeTimeout (String × S)

/-! ## Discovery -/

/-- What the discovery hands on. -/
inductive Offer where
  | text (text key : String)
  | secret (value : Value)
  | owner (kind : String) (value : Value)

def Offer.text? : Offer → Option String
  | .text t _ => some t
  | _ => none

/-- `"owner"` or `"group"`, if that is what the dictionary is about. -/
def ownerKind (kvs : Dict) : Option String :=
  match kvs.lookup "type" with
  | some (.str kind) =>
      let kind := PyStr.lower (PyStr.strip kind)
      if kind = "owner" ∨ kind = "group" then some kind else none
  | _ => none

/-- How many entries of a dictionary, or elements of a list, are looked
at: all of them above a depth. -/
def width (limit above depth length : Nat) : Nat :=
  if above ≤ depth then min limit length else length

section Walks

variable {S : Type} (rules : Rules S)

/-- What is offered of an entry besides its value. -/
def offerEntry (owner : Option String) (k : String) (v : Value) : List Offer :=
  .text k ""
    :: ((if rules.secretKey k then [.secret v] else [])
      ++ match owner with
        | some kind =>
            if PyStr.lower k = "got" ∨ PyStr.lower k = "expected" then [.owner kind v] else []
        | none => [])

mutual

def discover (depth : Nat) (key : String) : Value → List Offer
  | .dict kvs =>
      if MAX_DEPTH < depth then []
      else discoverEntries depth (ownerKind kvs) (width MAX_DICT_KEYS 1 depth kvs.length) kvs
  | .list xs =>
      if MAX_DEPTH < depth then []
      else discoverElements depth key (width MAX_LIST_ITEMS 2 depth xs.length) xs
  | .str s =>
      if MAX_DEPTH < depth then []
      else if PyStr.len s ≤ HARD_LIMIT then [.text s key] else []
  | _ => []

def discoverEntries (depth : Nat) (owner : Option String) : Nat → Dict → List Offer
  | 0, _ => []
  | _, [] => []
  | room + 1, (k, v) :: kvs =>
      offerEntry rules owner k v ++ discover (depth + 1) k v ++ discoverEntries depth owner room kvs

def discoverElements (depth : Nat) (key : String) : Nat → List Value → List Offer
  | 0, _ => []
  | _, [] => []
  | room + 1, x :: xs => discover (depth + 1) key x ++ discoverElements depth key room xs

end

/-- The texts that were offered. -/
def offered (value : Value) : List String := (discover rules 0 "" value).filterMap Offer.text?

/-! ## Transformation -/

/-- A sanitizer at work: its state, its counters, and the texts it has
put out so far. -/
structure Pass (S : Type) where
  state : S
  omitted : Nat := 0
  truncated : Nat := 0
  structureTrimmed : Nat := 0
  removedFields : Nat := 0
  serialFieldsRemoved : Nat := 0
  rawFieldsDropped : Nat := 0
  emitted : List String := []

/-- White space collapsed, and the text cut to its limit. -/
def bound (limit : Nat) (text : String) : String × Bool :=
  let text := PyStr.join " " ((PyStr.wordsBy Unicode.isSpace text.toList).map String.ofList)
  if limit < PyStr.len text then
    (String.ofList (PyStr.rstripChars Unicode.isSpace (text.toList.take (limit - 14)))
      ++ " [truncated]", true)
  else (text, false)

/-- A text as it is put out. A text too large to process is left out. -/
def text (value : String) (limit : Nat) (p : Pass S) :
    Except SanitizeTimeout (String × Pass S) :=
  if HARD_LIMIT < PyStr.len value then
    .ok ("[OMITTED: text too large to process safely (" ++ toString (PyStr.len value)
      ++ " characters)]", { p with omitted := p.omitted + 1 })
  else
    match rules.rewrite value p.state with
    | .error e => .error e
    | .ok (out, state) =>
        let out := bound limit out
        .ok (out.1, { p with
          state := state
          truncated := p.truncated + (if out.2 then 1 else 0)
          emitted := p.emitted ++ [value] })

/-- A key that is not there yet: marks are appended to one that is. -/
def freshen (keys : List String) : Nat → String → String
  | 0, k => k
  | rounds + 1, k => if k ∈ keys then freshen keys rounds (k ++ "#") else k

def freshKey (keys : List String) (k : String) : String := freshen keys keys.length k

def REMOVED : Value := .str "[REMOVED]"

/-- A value that is kept even where a field is removed. -/
def isFlag : Value → Bool
  | .null => true
  | .bool _ => true
  | _ => false

/-- A number that JSON has. -/
def finiteOrNull : Float64 → Value
  | .inf _ => .null
  | .nan => .null
  | x => .float x

/-- The value is copied, unless it is nested too deeply. -/
def atDepth (depth : Nat) (p : Pass S)
    (copy : Pass S → Except SanitizeTimeout (Value × Pass S)) :
    Except SanitizeTimeout (Value × Pass S) :=
  if MAX_DEPTH < depth then
    .ok (.str "[OMITTED: nested too deeply]",
      { p with structureTrimmed := p.structureTrimmed + 1 })
  else copy p

/-- Whether a dictionary or a list was trimmed is counted. -/
def trimming (trimmed : Bool) (p : Pass S) : Pass S :=
  if trimmed then { p with structureTrimmed := p.structureTrimmed + 1 } else p

mutual

def transform (depth : Nat) (key : String) : Value → Pass S →
    Except SanitizeTimeout (Value × Pass S)
  | .dict kvs, p => atDepth depth p fun p =>
      let room := width MAX_DICT_KEYS 1 depth kvs.length
      (transformEntries depth room kvs [] (trimming (room < kvs.length) p)).map fun r =>
        (.dict r.1, r.2)
  | .list xs, p => atDepth depth p fun p =>
      let room := width MAX_LIST_ITEMS 2 depth xs.length
      (transformElements depth key room xs (trimming (room < xs.length) p)).map fun r =>
        (.list r.1, r.2)
  | .str s, p => atDepth depth p fun p =>
      let limit := if PROSE_KEYS.contains key then PROSE_LIMIT else TEXT_LIMIT
      (text rules s limit p).map fun r => (.str r.1, r.2)
  | .float x, p => atDepth depth p fun p => .ok (finiteOrNull x, p)
  | .int n, p => atDepth depth p fun p => .ok (.int n, p)
  | .bool b, p => atDepth depth p fun p => .ok (.bool b, p)
  | .null, p => atDepth depth p fun p => .ok (.null, p)

def transformEntries (depth : Nat) : Nat → Dict → Dict → Pass S →
    Except SanitizeTimeout (Dict × Pass S)
  | 0, _, out, p => .ok (out, p)
  | _, [], out, p => .ok (out, p)
  | room + 1, (k, v) :: kvs, out, p =>
      if isRaw k then
        transformEntries depth room kvs out { p with rawFieldsDropped := p.rawFieldsDropped + 1 }
      else
        match text rules k KEY_LIMIT p with
        | .error e => .error e
        | .ok (nk, p) =>
            let nk := freshKey (Assoc.keys out) nk
            if rules.secretKey k && !isFlag v then
              transformEntries depth room kvs (out ++ [(nk, REMOVED)])
                { p with removedFields := p.removedFields + 1 }
            else if rules.serialKey k && !isFlag v then
              transformEntries depth room kvs (out ++ [(nk, REMOVED)])
                { p with serialFieldsRemoved := p.serialFieldsRemoved + 1 }
            else
              match transform (depth + 1) k v p with
              | .error e => .error e
              | .ok (nv, p) => transformEntries depth room kvs (out ++ [(nk, nv)]) p

def transformElements (depth : Nat) (key : String) : Nat → List Value → Pass S →
    Except SanitizeTimeout (List Value × Pass S)
  | 0, _, p => .ok ([], p)
  | _, [], p => .ok ([], p)
  | room + 1, x :: xs, p =>
      match transform (depth + 1) key x p with
      | .error e => .error e
      | .ok (y, p) => (transformElements depth key room xs p).map fun r => (y :: r.1, r.2)

end

end Walks

end IpaDiagnose.Bundle
