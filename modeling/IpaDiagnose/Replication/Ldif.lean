import IpaDiagnose.Lib.Assoc
import IpaDiagnose.Lib.Bytes
import IpaDiagnose.Lib.Lines
import IpaDiagnose.Lib.PyStr
import Mathlib.Data.List.Induction

/-!
# A bounded LDIF reader

Entries as `ldapsearch -LLL` prints them: folded lines are joined, base64
values decoded, and a line that is no field is passed over.
`parse_rendered` is the round trip: whatever way a list of entries within
the bounds is written (which values are in base64, where lines are folded,
where comments stand and how many blank lines), reading gives it back.
-/

namespace IpaDiagnose.Ldif

abbrev Line := List Char

/-! ## The reader -/

def MAX_ENTRIES : Nat := 500

def MAX_VALUES : Nat := 64

def MAX_VALUE_LEN : Nat := 4096

structure Entry where
  dn : String
  attrs : List (String × List String)
deriving DecidableEq

/-- One more value of an attribute, if it has not had all it may have. -/
def Entry.add (e : Entry) (key value : String) : Entry :=
  let vals := (e.attrs.lookup key).getD []
  let vals := if vals.length < MAX_VALUES then vals ++ [value] else vals
  { e with attrs := Assoc.put key vals e.attrs }

def strip (cs : Line) : Line := PyStr.rstripChars Unicode.isSpace (cs.dropWhile Unicode.isSpace)

def isBlank (line : Line) : Bool := line.all Unicode.isSpace

/-- The value after an attribute's colon: base64 after a second one. -/
def value? : Line → Option Line
  | ':' :: more => (Bytes.b64decode (strip more)).map Bytes.decode
  | ' ' :: more => some more
  | rest => some rest

/-- The key and the value of a line that is a field. -/
def field? (line : Line) : Option (String × String) :=
  if line.head? = some '#' then none
  else
    match PyStr.cutChars [':'] line with
    | none => none
    | some (attr, rest) =>
        if attr = [] ∨ ' ' ∈ attr then none
        else (value? rest).map fun v =>
          (PyStr.lower (String.ofList attr), String.ofList (v.take MAX_VALUE_LEN))

/-- The entries that are complete, and the one being read. -/
structure Reading where
  entries : List Entry := []
  cur : Option Entry := none

def Reading.close (r : Reading) : Reading := ⟨r.entries ++ r.cur.toList, none⟩

def Reading.field (r : Reading) (key value : String) : Reading :=
  if key = "dn" then { r.close with cur := some ⟨value, []⟩ }
  else
    match r.cur with
    | none => r
    | some e => { r with cur := some (e.add key value) }

def read : List Line → Reading → Reading
  | [], r => r
  | line :: lines, r =>
      if isBlank line then
        if MAX_ENTRIES ≤ r.close.entries.length then r.close else read lines r.close
      else
        match field? line with
        | none => read lines r
        | some (key, value) => read lines (r.field key value)

def Reading.result (r : Reading) : List Entry :=
  let entries := if r.entries.length < MAX_ENTRIES then r.close.entries else r.entries
  entries.take MAX_ENTRIES

def parse (text : String) : List Entry :=
  (read (Lines.unfoldChars (Lines.splitChars text.toList)) {}).result

def first (e : Entry) (attr default : String) : String :=
  match e.attrs.lookup (PyStr.lower attr) with
  | some (v :: _) => v
  | _ => default

def values (e : Entry) (attr : String) : List String :=
  (e.attrs.lookup (PyStr.lower attr)).getD []

/-! ## The writer

What may be written of an entry, as a relation: a value that is not safe
is in base64, any other may be. -/

/-- An entry of a directory: its name, and its attributes' values in
order. -/
structure Record where
  dn : String
  attrs : List (String × String)

/-- Printable ASCII. -/
def Printable (c : Char) : Prop := 32 ≤ c.toNat ∧ c.toNat < 127

/-- A value that may be written as it is. -/
def Safe (value : Line) : Prop :=
  (∀ c ∈ value, Printable c) ∧ (∀ c ∈ value.head?, c ∉ [' ', ':', '<'])
    ∧ value.getLast? ≠ some ' '

/-- The line of a field. An empty value may have no blank before it. -/
def Written (name value line : Line) : Prop :=
  line = name ++ ":: ".toList ++ Bytes.b64encode (Bytes.encode value)
    ∨ (Safe value ∧ line = name ++ ": ".toList ++ value)
    ∨ (value = [] ∧ line = name ++ [':'])

/-- The lines of an entry's fields, comments anywhere between them. -/
inductive Fields : List (String × String) → List Line → Prop
  | nil : Fields [] []
  | comment {fs lines} (text : Line) : Lines.Unbroken text → Fields fs lines →
      Fields fs (('#' :: text) :: lines)
  | field {name value fs line lines} : Written name.toList value.toList line → Fields fs lines →
      Fields ((name, value) :: fs) (line :: lines)

/-- The lines of a list of entries: blank lines and comments anywhere, and
an entry ends with a blank line or with the text. -/
inductive Body : List Record → List Line → Prop
  | nil : Body [] []
  | blank {rs lines} : Body rs lines → Body rs ([] :: lines)
  | comment {rs lines} (text : Line) : Lines.Unbroken text → Body rs lines →
      Body rs (('#' :: text) :: lines)
  | entry {r block rs lines} : Fields (("dn", r.dn) :: r.attrs) block → Body rs lines →
      (lines = [] ∨ lines.head? = some []) → Body (r :: rs) (block ++ lines)

/-- A text of these lines, each folded in whatever pieces. -/
def Rendered (rs : List Record) (text : String) : Prop :=
  ∃ (lines : List Line) (folds : List (List Line)), Body rs lines
    ∧ folds.map List.flatten = lines ∧ (∀ p ∈ folds, p ≠ [])
    ∧ text = String.ofList (Lines.ended (folds.flatMap Lines.fold))

/-- An attribute's name: printable, without a blank or a colon, and
neither a comment nor the name of the entry. -/
structure IsName (name : String) : Prop where
  nonempty : name.toList ≠ []
  printable : ∀ c ∈ name.toList, Printable c ∧ c ≠ ' ' ∧ c ≠ ':'
  noComment : name.toList.head? ≠ some '#'
  ne_dn : PyStr.lower name ≠ "dn"

/-- The values of one attribute, its name in any case. -/
def Record.valuesOf (r : Record) (attr : String) : List String :=
  (r.attrs.filter fun f => PyStr.lower f.1 = PyStr.lower attr).map Prod.snd

/-- What the reader reads of an entry is all of it. -/
structure Record.Fits (r : Record) : Prop where
  dn : r.dn.toList.length ≤ MAX_VALUE_LEN
  names : ∀ f ∈ r.attrs, IsName f.1
  lengths : ∀ f ∈ r.attrs, f.2.toList.length ≤ MAX_VALUE_LEN
  counts : ∀ attr, (r.valuesOf attr).length ≤ MAX_VALUES

/-- An entry as it was written: its name, its attributes' names in lower
case in the order they first appear, and every attribute's values. -/
structure Gives (r : Record) (e : Entry) : Prop where
  dn : e.dn = r.dn
  names : Assoc.keys e.attrs = (r.attrs.map fun f => PyStr.lower f.1).eraseDups
  values : ∀ attr, values e attr = r.valuesOf attr

/-! ## Lines of a field -/

theorem not_isSpace {c : Char} (h : Printable c) (hne : c ≠ ' ') : Unicode.isSpace c = false := by
  obtain ⟨hlo, hhi⟩ := h
  have hne : c.toNat ≠ 32 := fun h => hne (Char.toNat_inj.mp h)
  simp only [Unicode.isSpace, Unicode.inRanges, List.any_cons, List.any_nil, Bool.or_false,
    Bool.or_eq_false_iff, Bool.and_eq_false_iff, decide_eq_false_iff_not]
  omega

theorem not_isBreak {c : Char} (h : Printable c) : Lines.isBreak c = false := by
  obtain ⟨hlo, hhi⟩ := h
  simp only [Lines.isBreak, Bool.or_eq_false_iff, Bool.and_eq_false_iff,
    decide_eq_false_iff_not, beq_eq_false_iff_ne]
  omega

theorem b64_printable (value : Line) :
    ∀ c ∈ Bytes.b64encode (Bytes.encode value), Printable c ∧ c ≠ ' ' := by
  intro c hc
  have hplain := Bytes.b64encode_plain (Bytes.encode_lt value) c hc
  refine ⟨⟨by omega, hplain.2⟩, ?_⟩
  rintro rfl
  exact absurd hplain.1 (by decide)

/-- Cutting at the first colon. -/
theorem cutChars_colon {name : Line} (h : ':' ∉ name) (rest : Line) :
    PyStr.cutChars [':'] (name ++ ':' :: rest) = some (name, rest) := by
  induction name with
  | nil =>
      rw [List.nil_append, PyStr.cutChars, if_pos (by simp)]
      rfl
  | cons c name ih =>
      have hc : ':' ≠ c := fun hc => h (hc ▸ List.mem_cons_self)
      rw [List.cons_append, PyStr.cutChars, if_neg (by simpa using hc),
        ih fun hmem => h (List.mem_cons_of_mem _ hmem)]
      rfl

theorem dropWhile_id {p : Char → Bool} {cs : Line} (h : ∀ c ∈ cs, p c = false) :
    cs.dropWhile p = cs := by
  cases cs with
  | nil => rfl
  | cons c cs => rw [List.dropWhile_cons_of_neg (by simp [h c List.mem_cons_self])]

theorem strip_space {cs : Line} (h : ∀ c ∈ cs, Unicode.isSpace c = false) :
    strip (' ' :: cs) = cs := by
  have hspace : Unicode.isSpace ' ' = true := by decide
  rw [strip, List.dropWhile_cons_of_pos hspace, dropWhile_id h, PyStr.rstripChars,
    dropWhile_id fun c hc => h c (List.mem_reverse.mp hc), List.reverse_reverse]

theorem value?_b64 (value : Line) :
    value? (':' :: ' ' :: Bytes.b64encode (Bytes.encode value)) = some value := by
  have hspace : ∀ c ∈ Bytes.b64encode (Bytes.encode value), Unicode.isSpace c = false :=
    fun c hc => not_isSpace (b64_printable value c hc).1 (b64_printable value c hc).2
  rw [value?, strip_space hspace, Bytes.b64decode_b64encode (Bytes.encode_lt value),
    Option.map_some, Bytes.decode_encode]

/-- A field's name, as far as the reader of a line is concerned. -/
structure Reads (name : Line) : Prop where
  nonempty : name ≠ []
  chars : ∀ c ∈ name, Printable c ∧ c ≠ ' ' ∧ c ≠ ':'
  noComment : name.head? ≠ some '#'

theorem IsName.reads {name : String} (h : IsName name) : Reads name.toList :=
  ⟨h.nonempty, h.printable, h.noComment⟩

theorem reads_dn : Reads "dn".toList := by
  refine ⟨by decide, ?_, by decide⟩
  intro c hc
  have hc : c = 'd' ∨ c = 'n' := by simpa using hc
  rcases hc with rfl | rfl
  · exact ⟨by unfold Printable; decide, by decide, by decide⟩
  · exact ⟨by unfold Printable; decide, by decide, by decide⟩

/-- The line of a field is the name, a colon and what the value is read
from. -/
theorem written_shape {name value line : Line} (h : Written name value line) :
    ∃ rest, line = name ++ ':' :: rest ∧ value? rest = some value
      ∧ ∀ c ∈ rest, Printable c := by
  have hcolon : Printable ':' := by unfold Printable; decide
  have hspace : Printable ' ' := by unfold Printable; decide
  rcases h with rfl | ⟨hsafe, rfl⟩ | ⟨rfl, rfl⟩
  · refine ⟨_, List.append_assoc name _ _, value?_b64 value, ?_⟩
    intro c hc
    rcases List.mem_cons.mp hc with rfl | hc
    · exact hcolon
    · rcases List.mem_cons.mp hc with rfl | hc
      · exact hspace
      · exact (b64_printable value c hc).1
  · refine ⟨_, List.append_assoc name _ _, rfl, ?_⟩
    intro c hc
    rcases List.mem_cons.mp hc with rfl | hc
    · exact hspace
    · exact hsafe.1 c hc
  · exact ⟨[], rfl, rfl, fun c hc => absurd hc List.not_mem_nil⟩

theorem field?_written {name value line : Line} (hname : Reads name)
    (hlen : value.length ≤ MAX_VALUE_LEN) (h : Written name value line) :
    isBlank line = false ∧ field? line
      = some (PyStr.lower (String.ofList name), String.ofList value) := by
  obtain ⟨rest, rfl, hvalue, -⟩ := written_shape h
  obtain ⟨c, cs, rfl⟩ := List.exists_cons_of_ne_nil hname.nonempty
  have hc := hname.chars c List.mem_cons_self
  refine ⟨?_, ?_⟩
  · rw [isBlank, List.cons_append, List.all_cons, not_isSpace hc.1 hc.2.1, Bool.false_and]
  · have hcomment : (c :: cs ++ ':' :: rest).head? ≠ some '#' := hname.noComment
    have hcolon : ':' ∉ c :: cs := fun hmem => (hname.chars _ hmem).2.2 rfl
    have hblank : ¬ (c :: cs = [] ∨ ' ' ∈ c :: cs) := by
      rintro (h | h)
      · cases h
      · exact (hname.chars _ h).2.1 rfl
    rw [field?, if_neg hcomment, cutChars_colon hcolon]
    dsimp only
    rw [if_neg hblank, hvalue, Option.map_some, List.take_of_length_le hlen]

theorem field?_comment (text : Line) : field? ('#' :: text) = none := rfl

theorem isBlank_comment (text : Line) : isBlank ('#' :: text) = false := rfl

/-! ## Reading what was written -/

/-- The fields of an entry, added in order. -/
def addAll (e : Entry) (fs : List (String × String)) : Entry :=
  fs.foldl (fun e f => e.add (PyStr.lower f.1) f.2) e

def Record.entry (r : Record) : Entry := addAll ⟨r.dn, []⟩ r.attrs

/-- The lines of fields, read into the entry they belong to. -/
theorem read_fields {fs : List (String × String)} {block : List Line} (h : Fields fs block)
    (hnames : ∀ f ∈ fs, IsName f.1) (hlens : ∀ f ∈ fs, f.2.toList.length ≤ MAX_VALUE_LEN)
    (es : List Entry) (e : Entry) (rest : List Line) :
    read (block ++ rest) ⟨es, some e⟩ = read rest ⟨es, some (addAll e fs)⟩ := by
  induction h generalizing e with
  | nil => rfl
  | comment text _ _ ih =>
      rw [List.cons_append, read, isBlank_comment, if_neg Bool.false_ne_true, field?_comment]
      exact ih hnames hlens e
  | @field name value fs line lines hline _ ih =>
      have hname := hnames _ List.mem_cons_self
      obtain ⟨hblank, hfield⟩ :=
        field?_written hname.reads (hlens _ List.mem_cons_self) hline
      rw [String.ofList_toList, String.ofList_toList] at hfield
      rw [List.cons_append, read, hblank, if_neg Bool.false_ne_true, hfield]
      have hadd : Reading.field ⟨es, some e⟩ (PyStr.lower name) value
          = ⟨es, some (e.add (PyStr.lower name) value)⟩ := by
        rw [Reading.field, if_neg hname.ne_dn]
      dsimp only
      rw [hadd, ih (fun f hf => hnames f (List.mem_cons_of_mem _ hf))
        (fun f hf => hlens f (List.mem_cons_of_mem _ hf))]
      rfl

/-- The lines of an entry, its name first. -/
theorem read_entry {r : Record} {block : List Line} (hr : r.Fits)
    (h : Fields (("dn", r.dn) :: r.attrs) block) (es : List Entry) (rest : List Line) :
    read (block ++ rest) ⟨es, none⟩ = read rest ⟨es, some r.entry⟩ := by
  generalize hfs : ("dn", r.dn) :: r.attrs = fs at h
  induction h with
  | nil => cases hfs
  | comment text _ _ ih =>
      rw [List.cons_append, read, isBlank_comment, if_neg Bool.false_ne_true, field?_comment]
      exact ih hfs
  | @field name value fs line lines hline hrest ih =>
      obtain ⟨⟨rfl, rfl⟩, rfl⟩ : (("dn" = name ∧ r.dn = value) ∧ r.attrs = fs) := by
        simpa using hfs
      obtain ⟨hblank, hfield⟩ := field?_written reads_dn hr.dn hline
      rw [String.ofList_toList, String.ofList_toList] at hfield
      have hdn : PyStr.lower "dn" = "dn" := by decide
      rw [List.cons_append, read, hblank, if_neg Bool.false_ne_true, hfield]
      dsimp only
      have hstart : Reading.field ⟨es, none⟩ (PyStr.lower "dn") r.dn = ⟨es, some ⟨r.dn, []⟩⟩ := by
        rw [hdn, Reading.field, if_pos rfl, Reading.close, Option.toList_none, List.append_nil]
      rw [hstart, read_fields hrest hr.names hr.lengths]
      rfl

theorem read_empty (lines : List Line) (r : Reading) :
    read ([] :: lines) r
      = if MAX_ENTRIES ≤ r.close.entries.length then r.close else read lines r.close := by
  have hblank : isBlank [] = true := rfl
  rw [read, if_pos hblank]

/-- A blank line closes an entry, so that one read so far and one
complete before it are the same. -/
theorem read_blank (es : List Entry) (e : Entry) (lines : List Line) :
    read ([] :: lines) ⟨es, some e⟩ = read ([] :: lines) ⟨es ++ [e], none⟩ := by
  have hclose : Reading.close ⟨es, some e⟩ = Reading.close ⟨es ++ [e], none⟩ := by
    simp [Reading.close]
  rw [read_empty, read_empty, hclose]

theorem read_body {rs : List Record} {lines : List Line} (h : Body rs lines)
    (hfits : ∀ r ∈ rs, r.Fits) (es : List Entry) (hroom : es.length + rs.length ≤ MAX_ENTRIES) :
    (read lines ⟨es, none⟩).close.entries = es ++ rs.map Record.entry := by
  induction h generalizing es with
  | nil => simp [read, Reading.close]
  | @blank rs lines _ ih =>
      have hclose : Reading.close ⟨es, none⟩ = ⟨es, none⟩ := by simp [Reading.close]
      rw [read_empty, hclose]
      by_cases hfull : MAX_ENTRIES ≤ es.length
      · have hrs : rs = [] := List.eq_nil_of_length_eq_zero (by omega)
        rw [if_pos hfull, hclose, hrs, List.map_nil, List.append_nil]
      · rw [if_neg hfull]
        exact ih hfits es hroom
  | comment text _ _ ih =>
      rw [read, isBlank_comment, if_neg Bool.false_ne_true, field?_comment]
      exact ih hfits es hroom
  | @entry r block rs lines hblock _ hend ih =>
      have hroom' : (es ++ [r.entry]).length + rs.length ≤ MAX_ENTRIES := by
        rw [List.length_append, List.length_singleton]
        rw [List.length_cons] at hroom
        omega
      have hrest := ih (fun r hr => hfits r (List.mem_cons_of_mem _ hr)) _ hroom'
      rw [read_entry (hfits r List.mem_cons_self) hblock, List.map_cons]
      rcases hend with rfl | hend
      · have hnone : rs.map Record.entry = [] := by simpa [read, Reading.close] using hrest
        simp [read, Reading.close, hnone]
      · obtain ⟨lines, rfl⟩ : ∃ more, lines = [] :: more := by
          cases lines with
          | nil => cases hend
          | cons l more =>
              have hl : l = [] := by simpa using hend
              exact ⟨more, by rw [hl]⟩
        rw [read_blank, hrest, List.append_assoc, List.singleton_append]

/-! ## What an entry was read to -/

@[simp] theorem addAll_dn (e : Entry) (fs : List (String × String)) : (addAll e fs).dn = e.dn := by
  induction fs generalizing e with
  | nil => rfl
  | cons f fs ih => exact ih _

theorem addAll_snoc (e : Entry) (fs : List (String × String)) (f : String × String) :
    addAll e (fs ++ [f]) = (addAll e fs).add (PyStr.lower f.1) f.2 := by
  rw [addAll, List.foldl_append]
  rfl

theorem eraseDups_snoc (ks : List String) (k : String) :
    (ks ++ [k]).eraseDups = if k ∈ ks.eraseDups then ks.eraseDups else ks.eraseDups ++ [k] := by
  rw [List.eraseDups_append]
  by_cases h : k ∈ ks
  · rw [if_pos (List.mem_eraseDups.mpr h)]
    simp [List.removeAll, h]
  · have hone : [k].eraseDups = [k] := by rw [List.eraseDups_cons]; rfl
    rw [if_neg fun hmem => h (List.mem_eraseDups.mp hmem)]
    simp [List.removeAll, h, hone]

theorem keys_addAll (dn : String) (fs : List (String × String)) :
    Assoc.keys (addAll ⟨dn, []⟩ fs).attrs = (fs.map fun f => PyStr.lower f.1).eraseDups := by
  induction fs using List.reverseRecOn with
  | nil => rfl
  | append_singleton fs f ih =>
      rw [addAll_snoc, List.map_append, List.map_singleton, eraseDups_snoc, ← ih]
      exact Assoc.keys_put

/-- While no attribute has more values than it may have, none is lost. -/
theorem lookup_addAll (dn : String) (fs : List (String × String))
    (hcount : ∀ key, (fs.filter fun f => PyStr.lower f.1 = key).length ≤ MAX_VALUES)
    (key : String) :
    ((addAll ⟨dn, []⟩ fs).attrs.lookup key).getD []
      = (fs.filter fun f => PyStr.lower f.1 = key).map Prod.snd := by
  induction fs using List.reverseRecOn generalizing key with
  | nil => rfl
  | append_singleton fs f ih =>
      have hfewer : ∀ key, (fs.filter fun f => PyStr.lower f.1 = key).length ≤ MAX_VALUES := by
        intro key
        have hkey := hcount key
        rw [List.filter_append, List.length_append] at hkey
        omega
      rw [addAll_snoc, List.filter_append, List.map_append]
      by_cases hk : PyStr.lower f.1 = key
      · subst hk
        have hroom := hcount (PyStr.lower f.1)
        rw [List.filter_append, List.length_append] at hroom
        simp only [decide_true, List.filter_cons_of_pos, List.filter_nil, List.length_singleton]
          at hroom
        have hvals := ih hfewer (PyStr.lower f.1)
        unfold Entry.add
        dsimp only
        rw [Assoc.lookup_put_self, Option.getD_some, hvals, List.length_map, if_pos (by omega)]
        simp
      · unfold Entry.add
        rw [Assoc.lookup_put_ne (Ne.symm hk), ih hfewer key]
        simp [hk]

theorem gives_entry {r : Record} (hr : r.Fits) : Gives r r.entry := by
  have hcount : ∀ key, (r.attrs.filter fun f => PyStr.lower f.1 = key).length ≤ MAX_VALUES := by
    intro key
    by_cases hkey : ∃ f ∈ r.attrs, PyStr.lower f.1 = key
    · obtain ⟨f, -, rfl⟩ := hkey
      have hlen := hr.counts f.1
      rwa [Record.valuesOf, List.length_map] at hlen
    · have hnone : (r.attrs.filter fun f => PyStr.lower f.1 = key) = [] := by
        rw [List.filter_eq_nil_iff]
        intro f hf h
        exact hkey ⟨f, hf, by simpa using h⟩
      rw [hnone]
      exact Nat.zero_le _
  exact
    { dn := addAll_dn _ _
      names := keys_addAll _ _
      values := fun attr => lookup_addAll r.dn r.attrs hcount (PyStr.lower attr) }

/-! ## The lines of a text -/

/-- A line that is written neither breaks nor looks like a continuation. -/
def Whole (line : Line) : Prop := Lines.Unbroken line ∧ line.head? ≠ some ' '

theorem whole_comment {text : Line} (h : Lines.Unbroken text) : Whole ('#' :: text) :=
  ⟨Lines.Unbroken.cons (by decide) h, by simp⟩

theorem whole_written {name value line : Line} (hname : Reads name)
    (h : Written name value line) : Whole line := by
  obtain ⟨rest, rfl, -, hrest⟩ := written_shape h
  obtain ⟨c, cs, rfl⟩ := List.exists_cons_of_ne_nil hname.nonempty
  refine ⟨?_, ?_⟩
  · refine Lines.Unbroken.append (fun d hd => not_isBreak (hname.chars d hd).1) ?_
    exact Lines.Unbroken.cons (by decide) fun d hd => not_isBreak (hrest d hd)
  · intro hhead
    have hc : c = ' ' := by simpa using hhead
    exact (hname.chars c List.mem_cons_self).2.1 hc

theorem whole_fields {fs : List (String × String)} {block : List Line} (h : Fields fs block)
    (hnames : ∀ f ∈ fs, Reads f.1.toList) : ∀ line ∈ block, Whole line := by
  induction h with
  | nil => exact fun line hline => absurd hline List.not_mem_nil
  | comment text htext _ ih =>
      intro line hline
      rcases List.mem_cons.mp hline with rfl | hline
      · exact whole_comment htext
      · exact ih hnames line hline
  | field hwritten _ ih =>
      intro line hline
      rcases List.mem_cons.mp hline with rfl | hline
      · exact whole_written (hnames _ List.mem_cons_self) hwritten
      · exact ih (fun f hf => hnames f (List.mem_cons_of_mem _ hf)) line hline

theorem whole_body {rs : List Record} {lines : List Line} (h : Body rs lines)
    (hfits : ∀ r ∈ rs, r.Fits) : ∀ line ∈ lines, Whole line := by
  induction h with
  | nil => exact fun line hline => absurd hline List.not_mem_nil
  | blank _ ih =>
      intro line hline
      rcases List.mem_cons.mp hline with rfl | hline
      · exact ⟨fun c hc => absurd hc List.not_mem_nil, by simp⟩
      · exact ih hfits line hline
  | comment text htext _ ih =>
      intro line hline
      rcases List.mem_cons.mp hline with rfl | hline
      · exact whole_comment htext
      · exact ih hfits line hline
  | @entry r block rs lines hblock _ _ ih =>
      have hr := hfits r List.mem_cons_self
      have hnames : ∀ f ∈ ("dn", r.dn) :: r.attrs, Reads f.1.toList := by
        intro f hf
        rcases List.mem_cons.mp hf with rfl | hf
        · exact reads_dn
        · exact (hr.names f hf).reads
      intro line hline
      rcases List.mem_append.mp hline with hline | hline
      · exact whole_fields hblock hnames line hline
      · exact ih (fun r hr => hfits r (List.mem_cons_of_mem _ hr)) line hline

theorem Whole.foldable {pieces : List Line} (hne : pieces ≠ []) (h : Whole pieces.flatten) :
    Lines.Foldable pieces := by
  cases pieces with
  | nil => exact hne rfl
  | cons first more =>
      intro hfirst
      apply h.2
      rw [List.flatten_cons, List.head?_append, hfirst, Option.some_or]

/-- Reading a text that renders a list of entries gives it back. -/
theorem parse_rendered {rs : List Record} {text : String} (hfits : ∀ r ∈ rs, r.Fits)
    (hlen : rs.length ≤ MAX_ENTRIES) (h : Rendered rs text) :
    List.Forall₂ Gives rs (parse text) := by
  obtain ⟨lines, folds, hbody, rfl, hne, rfl⟩ := h
  have hwhole : ∀ p ∈ folds, Whole p.flatten :=
    fun p hp => whole_body hbody hfits _ (List.mem_map_of_mem hp)
  have hunfold := Lines.unfold_fold (fun p hp => (hwhole p hp).foldable (hne p hp))
    fun p hp => (hwhole p hp).1
  have hread := read_body hbody hfits [] (by simpa using hlen)
  rw [List.nil_append] at hread
  have hparse : parse (String.ofList (Lines.ended (folds.flatMap Lines.fold)))
      = rs.map Record.entry := by
    rw [parse, String.toList_ofList, hunfold, Reading.result]
    generalize read (folds.map List.flatten) {} = r at hread ⊢
    have hlength : (rs.map Record.entry).length ≤ MAX_ENTRIES := by simpa using hlen
    split
    · rw [hread, List.take_of_length_le hlength]
    · rename_i hfull
      rw [← hread, Reading.close, List.length_append] at hlength
      have hcur : r.cur.toList = [] := List.eq_nil_of_length_eq_zero (by omega)
      rw [← hread, Reading.close, hcur, List.append_nil, List.take_of_length_le (by omega)]
  rw [hparse, List.forall₂_map_right_iff, List.forall₂_same]
  exact fun r hr => gives_entry (hfits r hr)

/-- Two entries: a value in base64, a folded name, a comment and two
blank lines. -/
theorem accented_entry_read_back :
    List.Forall₂ Gives [⟨"cn=a", [("CN", "a"), ("cn", "é")]⟩, ⟨"cn=b", []⟩]
      (parse "dn: c\n n=a\nCN: a\n# kept\ncn:: w6k=\n\n\ndn: cn=b\n") := by
  have hcn : ∀ name ∈ ["CN", "cn"], IsName name := by
    intro name hname
    have hcases : name = "CN" ∨ name = "cn" := by simpa using hname
    rcases hcases with rfl | rfl
    · exact ⟨by decide, by unfold Printable; decide, by decide, by decide⟩
    · exact ⟨by decide, by unfold Printable; decide, by decide, by decide⟩
  have hsafe : ∀ value ∈ ["cn=a", "a", "cn=b"], Safe value.toList := by
    unfold Safe Printable
    decide
  refine parse_rendered ?_ (by decide) ?_
  · intro r hr
    have hcases : r = ⟨"cn=a", [("CN", "a"), ("cn", "é")]⟩ ∨ r = ⟨"cn=b", []⟩ := by
      simpa using hr
    rcases hcases with rfl | rfl
    · refine ⟨by decide, ?_, by decide, fun attr => ?_⟩
      · intro f hf
        exact hcn f.1 (List.mem_map_of_mem hf)
      · rw [Record.valuesOf, List.length_map]
        exact Nat.le_trans (List.length_filter_le _ _) (by decide)
    · exact ⟨by decide, by simp, by decide, fun attr => Nat.zero_le _⟩
  · refine ⟨_, [["dn: c".toList, "n=a".toList], ["CN: a".toList], ["# kept".toList],
      ["cn:: w6k=".toList], [[]], [[]], ["dn: cn=b".toList]], ?_, rfl, by decide, by decide⟩
    have hfirst : Fields [("dn", "cn=a"), ("CN", "a"), ("cn", "é")]
        ["dn: cn=a".toList, "CN: a".toList, '#' :: " kept".toList, "cn:: w6k=".toList] :=
      .field (.inr (.inl ⟨hsafe _ (by simp), by decide⟩))
        (.field (.inr (.inl ⟨hsafe _ (by simp), by decide⟩))
          (.comment _ (by unfold Lines.Unbroken; decide) (.field (.inl (by decide)) .nil)))
    have hsecond : Fields [("dn", "cn=b")] ["dn: cn=b".toList] :=
      .field (.inr (.inl ⟨hsafe _ (by simp), by decide⟩)) .nil
    exact .entry (r := ⟨"cn=a", [("CN", "a"), ("cn", "é")]⟩) hfirst
      (.blank (.blank (.entry (r := ⟨"cn=b", []⟩) hsecond .nil (.inl rfl)))) (.inr rfl)

end IpaDiagnose.Ldif
