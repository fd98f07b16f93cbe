import IpaDiagnose.Bundle.Prefilter
import IpaDiagnose.Bundle.Sanitize
import IpaDiagnose.Bundle.SelfTest
import IpaDiagnose.Lib.Assoc
import IpaDiagnose.Lib.Pieces
import IpaDiagnose.Lib.RegexEnd
import Mathlib.Data.List.Sort

/-!
# Pseudonyms

The sanitizer knows the text forms of the identifiers it has seen and the
pseudonym of each. A text is rewritten in two passes over the forms that
may occur in it, whole names first. A long text with many known forms is
rewritten in chunks, each with the forms that may occur in the chunk.
-/

namespace IpaDiagnose.Bundle

open Regex (Re)
open Pieces (Finder)

/-! ## Identifiers -/

inductive Cls where
  | HOST | DOMAIN | REALM | SUFFIX | INSTANCE | IP | USER | GROUP | HOSTGROUP | SERVICE | EMAIL
deriving DecidableEq

def Cls.name : Cls → String
  | .HOST => "HOST"
  | .DOMAIN => "DOMAIN"
  | .REALM => "REALM"
  | .SUFFIX => "SUFFIX"
  | .INSTANCE => "INSTANCE"
  | .IP => "IP"
  | .USER => "USER"
  | .GROUP => "GROUP"
  | .HOSTGROUP => "HOSTGROUP"
  | .SERVICE => "SERVICE"
  | .EMAIL => "EMAIL"

/-- A class with a text form, or with the canonical form. -/
abbrev Ident := Cls × String

/-- At least three digits. -/
def padded (n : Nat) : List Char :=
  List.replicate (3 - (Nat.toDigits 10 n).length) '0' ++ Nat.toDigits 10 n

def pseudonym (cls : Cls) (n : Nat) : String :=
  String.ofList (cls.name.toList ++ '-' :: padded n)

/-- The identity mapping. Every text form is of an identifier that has a
pseudonym, and no form is empty. -/
structure Names where
  map : List (Ident × String)
  next : Cls → Nat
  taken : Cls → List Nat
  variants : List (Ident × Ident)
  nonempty : ∀ v ∈ variants, v.1.2 ≠ ""
  mapped : ∀ v ∈ variants, v.2 ∈ Assoc.keys map
  numbered : ∀ e ∈ map, ∃ n, e.2 = pseudonym e.1.1 n
  nodup : (Assoc.keys variants).Nodup

def Names.empty : Names where
  map := []
  next := fun _ => 0
  taken := fun _ => []
  variants := []
  nonempty := nofun
  mapped := nofun
  numbered := nofun
  nodup := .nil

/-! ## Registration -/

/-- The first number from `n` on that is not taken; at most as many are
tried as numbers are taken. -/
def firstFree (taken : List Nat) : Nat → Nat → Nat
  | 0, n => n
  | fuel + 1, n => if n ∈ taken then firstFree taken fuel (n + 1) else n

/-- The number of the next pseudonym of a class. -/
def Names.alloc (s : Names) (cls : Cls) : Nat :=
  firstFree (s.taken cls) (s.taken cls).length (s.next cls + 1)

/-- The identifier has a pseudonym. -/
def Names.assign (s : Names) (key : Ident) : Names :=
  if key ∈ Assoc.keys s.map then s
  else { s with
    map := s.map ++ [(key, pseudonym key.1 (s.alloc key.1))]
    next := fun cls => if cls = key.1 then s.alloc key.1 else s.next cls
    mapped := by
      intro v hv
      rw [Assoc.keys, List.map_append]
      exact List.mem_append_left _ (s.mapped v hv)
    numbered := by
      intro e he
      rcases List.mem_append.mp he with he | he
      · exact s.numbered e he
      · rw [List.mem_singleton.mp he]
        exact ⟨_, rfl⟩ }

theorem Names.mem_keys_assign (s : Names) (key : Ident) : key ∈ Assoc.keys (s.assign key).map := by
  rw [Names.assign]
  split
  · assumption
  · rw [Assoc.keys, List.map_append]
    exact List.mem_append_right _ (by simp)

/-- A text form is known as one of the identifier. -/
def Names.addVariant (s : Names) (variant key : Ident) (hform : variant.2 ≠ "")
    (hkey : key ∈ Assoc.keys s.map) : Names :=
  if h : variant ∈ Assoc.keys s.variants then s
  else { s with
    variants := s.variants ++ [(variant, key)]
    nonempty := by
      intro v hv
      rcases List.mem_append.mp hv with hv | hv
      · exact s.nonempty v hv
      · rw [List.mem_singleton.mp hv]
        exact hform
    mapped := by
      intro v hv
      rcases List.mem_append.mp hv with hv | hv
      · exact s.mapped v hv
      · rw [List.mem_singleton.mp hv]
        exact hkey
    nodup := by
      rw [← Assoc.put_of_not_mem h]
      exact Assoc.nodup_keys_put s.nodup }

/-- `_register`; a form is the canonical one or another text that is not
empty. -/
def Names.register (s : Names) (cls : Cls) (canon : String)
    (form : Option { f : String // f ≠ "" }) : Names :=
  if h : canon = "" then s
  else
    (s.assign (cls, canon)).addVariant (cls, (form.map Subtype.val).getD canon) (cls, canon)
      (by
        cases form with
        | none => exact h
        | some f => exact f.2)
      (s.mem_keys_assign _)

/-! ## Patterns -/

def nameCharI (c : Char) : Bool := asciiWordI c || c == '_' || c == '.' || c == '-'

/-- How many characters the first match at a place reads. -/
def Pattern.reads? (p : Pattern) (seen rest : List Char) : Option Nat :=
  if p.before seen then
    ((p.body.run ⟨seen.head?, rest, []⟩).find? fun c => p.after c.rest).map
      fun c => rest.length - c.rest.length
  else none

/-- Not in front of a dot and a letter or digit; the second pass leaves
this out. -/
def wholeName (loose : Bool) (rest : List Char) : Bool :=
  loose || noneOf₂ (· == '.') Unicode.isAsciiAlnum rest

def variantPattern (loose : Bool) (cls : Cls) (form : String) : Pattern :=
  match cls with
  | .HOST =>
      if PyStr.hasChar form '.' then
        { before := anywhere
          body := formI form
          after := fun rest => noneOf Unicode.isAsciiAlnum rest && wholeName loose rest }
      else
        { before := noneOf nameCharI
          body := formI form
          after := noneOf fun c => Unicode.isAsciiAlnum c || c == '_' || c == '-' }
  | .REALM =>
      { before := noneOf asciiLetter, body := .lit form, after := noneOf Unicode.isAsciiAlnum }
  | .DOMAIN =>
      if PyStr.hasChar form '_' then
        { before := noneOf fun c => asciiWordI c || c == '-'
          body := formI form
          after := noneOf fun c => Unicode.isAsciiAlnum c || c == '-' }
      else
        { before := noneOf fun c => asciiWordI c || c == '_' || c == '-'
          body := formI form
          after := fun rest => noneOf Unicode.isAsciiAlnum rest && wholeName loose rest }
  | .SUFFIX =>
      { before := anywhere
        body := suffixBody (labelsOf form)
        after := noneOf fun c => Unicode.isAsciiAlnum c || c == '-' }
  | .INSTANCE =>
      { before := noneOf asciiWordI
        body := formI form
        after := noneOf fun c => Unicode.isAsciiAlnum c || c == '-' }
  | .IP => ipPattern form
  | .EMAIL =>
      { before := anywhere
        body := formI form
        after := noneOf fun c => Unicode.isAsciiAlnum c || c == '_' || c == '-' }
  | .SERVICE =>
      { before := noneOf nameCharI
        body := formI form
        after := fun rest => rest.head? == some '/' }
  | .USER | .GROUP | .HOSTGROUP =>
      { before := noneOf nameCharI
        body := formI form
        after := noneOf fun c => Unicode.isAsciiAlnum c || c == '_' || c == '-' }

/-- A pseudonym in the text, as it is: `\b(?:HOST|…)-\d{3,}\b(?!\.[A-Za-z0-9])`. -/
def keepPattern : Pattern where
  before := anywhere
  body := .seqAll [.wordB, .altAll (CLASSES.map Re.lit), .char '-',
    .rep true 3 none (.cls Unicode.isDecimal), .wordB]
  after := noneOf₂ (· == '.') Unicode.isAsciiAlnum

structure Alternative where
  length : Nat
  prio : Nat
  pattern : Pattern
  key : Ident

def alternative (loose : Bool) (v : Ident × Ident) : Alternative where
  length := PyStr.len v.1.2
  prio := if v.1.1 = .REALM then 0 else 1
  pattern := variantPattern loose v.1.1 v.1.2
  key := v.2

/-- The longest form first; a realm before a domain of its length. -/
def tried (a b : Alternative) : Prop :=
  b.length < a.length ∨ a.length = b.length ∧ a.prio ≤ b.prio

instance : DecidableRel tried := fun _ _ => inferInstanceAs (Decidable (_ ∨ _ ∧ _))

def buildRegex (loose : Bool) (variants : List (Ident × Ident)) : List Alternative :=
  (variants.map (alternative loose)).insertionSort tried

/-- The first alternative that matches at a place: a pseudonym, or a known
form. -/
def finder (alts : List Alternative) : Finder Char (Option Ident) := fun seen rest =>
  match keepPattern.reads? seen rest with
  | some n => some (none, n)
  | none => alts.findSome? fun a => (a.pattern.reads? seen rest).map fun n => (some a.key, n)

/-! ## Rewriting -/

def Names.replace (s : Names) : Option Ident → List Char → List Char
  | none, text => text
  | some key, _ => ((s.map.lookup key).getD "").toList

def Names.subOnce (s : Names) (alts : List Alternative) (text : List Char) : List Char :=
  Pieces.render s.replace (Pieces.tokens (finder alts) 0 [] text)

/-- The order of the sorted text forms, and of what they are forms of. -/
def variantLe (v w : Ident × Ident) : Prop :=
  ¬ [w.1.1.name, w.1.2, w.2.1.name, w.2.2] < [v.1.1.name, v.1.2, v.2.1.name, v.2.2]

instance : DecidableRel variantLe := fun _ _ => inferInstanceAs (Decidable (¬ _ < _))

/-- Whole names first, then any remaining occurrence of a known form. -/
def Names.sub (s : Names) (present : List (Ident × Ident)) (text : List Char) : List Char :=
  let variants := present.insertionSort variantLe
  s.subOnce (buildRegex true variants) (s.subOnce (buildRegex false variants) text)

/-- A text that must occur in lower case for the form to match. -/
def mayOccur (text : List Char) (v : Ident × Ident) : Bool :=
  PyStr.containsChars (probeOf v.1.1.name v.1.2).toList (text.flatMap PyStr.lowerChar)

/-- Where the next chunk of a text that is longer than a chunk ends: in
front of the last white space that does not follow a comma. -/
def cutAt (size : Nat) (rest : List Char) : Nat :=
  (((List.range (size - size / 2)).map (size - ·)).find? fun i =>
    (rest[i]?.any Unicode.isSpace) && (rest[i - 1]? != some ',')).getD size

theorem cutAt_pos {size : Nat} (h : 0 < size) (rest : List Char) : 0 < cutAt size rest := by
  rw [cutAt]
  cases hfind : ((List.range (size - size / 2)).map (size - ·)).find? _ with
  | none => exact h
  | some i =>
      obtain ⟨k, hk, rfl⟩ := List.mem_map.mp (List.mem_of_find?_eq_some hfind)
      have := List.mem_range.mp hk
      simp only [Option.getD_some]
      omega

/-- `_chunks`, for chunks that are not empty. -/
def chunks (size : Nat) (h : 0 < size) (rest : List Char) : List (List Char) :=
  if size < rest.length then
    rest.take (cutAt size rest) :: chunks size h (rest.drop (cutAt size rest))
  else [rest]
termination_by rest.length
decreasing_by
  rw [List.length_drop]
  have := cutAt_pos h rest
  omega

def CHUNK : Nat := 1024

def Names.present (s : Names) (text : List Char) : List (Ident × Ident) :=
  s.variants.filter (mayOccur text)

/-- The text in one pass. -/
def Names.subWhole (s : Names) (text : List Char) : List Char := s.sub (s.present text) text

/-- One chunk, with those of the forms that may occur in it. -/
def Names.subChunk (s : Names) (present : List (Ident × Ident)) (chunk : List Char) : List Char :=
  let here := present.filter (mayOccur chunk)
  if here = [] then chunk else s.sub here chunk

def Names.subChunked (s : Names) (text : List Char) : List Char :=
  (chunks CHUNK (by decide) text).flatMap (s.subChunk (s.present text))

/-- `late`: the time for all processing is over. -/
def Names.pseudonymize (s : Names) (late : Bool) (text : String) :
    Except SanitizeTimeout String :=
  if late then .error ⟨⟩
  else if s.present text.toList = [] then .ok text
  else if PyStr.len text ≤ 2 * CHUNK ∨ (s.present text.toList).length ≤ 32 then
    .ok (String.ofList (s.subWhole text.toList))
  else .ok (String.ofList (s.subChunked text.toList))

end IpaDiagnose.Bundle
