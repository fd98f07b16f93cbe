import IpaDiagnose.Lib.Assoc
import IpaDiagnose.Lib.PyValue

/-!
# JSON as it is written to a file

The indented form of a value: one element or entry on a line, every
character as it is but the few that JSON has to escape. A value is
writable when a strict reader takes its text for the value again: no key
of a dictionary twice, and no number that JSON does not have.
`length_pretty_le` bounds the text of a value whose own texts are short.
-/

namespace Py

/-! ## Writing -/

/-- A character of a string; only what JSON does not allow is escaped. -/
def textChar (c : Char) : List Char :=
  if c.toNat < 32 ∨ c = '"' ∨ c = '\\' then jsonChar c else [c]

def quoted (s : String) : List Char := '"' :: (s.toList.flatMap textChar ++ ['"'])

/-- The end of a line, and the next one's indentation. -/
def newLine (indent : Nat) : List Char := '\n' :: List.replicate (2 * indent) ' '

/-- Parts between brackets, each on a line of its own. -/
def enclosed (opening closing : Char) (indent : Nat) (parts : List (List Char)) : List Char :=
  if parts.isEmpty then [opening, closing]
  else opening :: (((parts.map (newLine (indent + 1) ++ ·)).intersperse [',']).flatten
    ++ newLine indent ++ [closing])

mutual

/-- `json.dumps(v, indent=2, ensure_ascii=False)` of a value whose numbers
are finite. -/
def Value.pretty (indent : Nat) : Value → List Char
  | .null => "null".toList
  | .bool b => if b then "true".toList else "false".toList
  | .int n => (toString n).toList
  | .float x => x.text.toList
  | .str s => quoted s
  | .list xs => enclosed '[' ']' indent (prettyList (indent + 1) xs)
  | .dict kvs => enclosed '\x7b' '\x7d' indent (prettyDict (indent + 1) kvs)

def prettyList (indent : Nat) : List Value → List (List Char)
  | [] => []
  | x :: xs => x.pretty indent :: prettyList indent xs

def prettyDict (indent : Nat) : List (String × Value) → List (List Char)
  | [] => []
  | (k, x) :: kvs => (quoted k ++ ": ".toList ++ x.pretty indent) :: prettyDict indent kvs

end

theorem pretty_dict_head (indent : Nat) (kvs : Dict) :
    ((Value.dict kvs).pretty indent).head? = some '\x7b' := by
  rw [Value.pretty, enclosed]
  split
  · rfl
  · rfl

/-! ## Writable values -/

mutual

def Value.Writable : Value → Prop
  | .float x => x.isFinite = true
  | .list xs => WritableList xs
  | .dict kvs => (Assoc.keys kvs).Nodup ∧ WritableDict kvs
  | _ => True

def WritableList : List Value → Prop
  | [] => True
  | x :: xs => x.Writable ∧ WritableList xs

def WritableDict : List (String × Value) → Prop
  | [] => True
  | (_, x) :: kvs => x.Writable ∧ WritableDict kvs

end

theorem writableList_iff {xs : List Value} : WritableList xs ↔ ∀ x ∈ xs, x.Writable := by
  induction xs with
  | nil => simp [WritableList]
  | cons x xs ih => simp [WritableList, ih]

theorem writableDict_iff {kvs : Dict} : WritableDict kvs ↔ ∀ e ∈ kvs, e.2.Writable := by
  induction kvs with
  | nil => simp [WritableDict]
  | cons e kvs ih => simp [WritableDict, ih]

theorem writable_list {xs : List Value} : (Value.list xs).Writable ↔ ∀ x ∈ xs, x.Writable := by
  rw [Value.Writable, writableList_iff]

theorem writable_dict {kvs : Dict} :
    (Value.dict kvs).Writable ↔ (Assoc.keys kvs).Nodup ∧ ∀ e ∈ kvs, e.2.Writable := by
  rw [Value.Writable, writableDict_iff]

/-! ## The length of the text -/

mutual

/-- The values a value is made of. -/
def Value.nodes : Value → Nat
  | .list xs => 1 + nodesList xs
  | .dict kvs => 1 + nodesDict kvs
  | _ => 1

def nodesList : List Value → Nat
  | [] => 0
  | x :: xs => x.nodes + nodesList xs

def nodesDict : List (String × Value) → Nat
  | [] => 0
  | (_, x) :: kvs => x.nodes + nodesDict kvs

end

mutual

/-- No text, key or number in the value is longer than `n`. -/
def Value.Short (n : Nat) : Value → Prop
  | .int k => (toString k).toList.length ≤ n
  | .float x => x.text.toList.length ≤ n
  | .str s => s.toList.length ≤ n
  | .list xs => ShortList n xs
  | .dict kvs => ShortDict n kvs
  | _ => True

def ShortList (n : Nat) : List Value → Prop
  | [] => True
  | x :: xs => x.Short n ∧ ShortList n xs

def ShortDict (n : Nat) : List (String × Value) → Prop
  | [] => True
  | (k, x) :: kvs => k.toList.length ≤ n ∧ x.Short n ∧ ShortDict n kvs

end

theorem length_textChar_le (c : Char) : (textChar c).length ≤ 6 := by
  unfold textChar
  split
  · rename_i hc
    have hsmall : c.toNat < 65536 := by
      rcases hc with hc | rfl | rfl
      · omega
      · decide
      · decide
    simp only [jsonChar, if_pos hsmall]
    repeat' split
    all_goals simp [hex]
  · simp

theorem length_quoted_le (s : String) : (quoted s).length ≤ 6 * s.toList.length + 2 := by
  have hchars : ∀ cs : List Char, (cs.flatMap textChar).length ≤ 6 * cs.length := by
    intro cs
    induction cs with
    | nil => exact Nat.le_refl 0
    | cons c cs ih =>
        have hc := length_textChar_le c
        rw [List.flatMap_cons, List.length_append, List.length_cons]
        omega
  have hs := hchars s.toList
  simp only [quoted, List.length_cons, List.length_append, List.length_nil]
  omega

theorem length_newLine (indent : Nat) : (newLine indent).length = 2 * indent + 1 := by
  simp [newLine]

/-- What the parts of a container take, each with its line and a comma. -/
def partsLength (indent : Nat) (parts : List (List Char)) : Nat :=
  (parts.map fun p => p.length + (2 * indent + 2)).sum

theorem length_enclosed_le (opening closing : Char) (indent : Nat) (parts : List (List Char)) :
    (enclosed opening closing indent parts).length
      ≤ partsLength (indent + 1) parts + 2 * indent + 3 := by
  have hparts : ∀ parts : List (List Char),
      (((parts.map (newLine (indent + 1) ++ ·)).intersperse [',']).flatten).length
        ≤ partsLength (indent + 1) parts := by
    intro parts
    induction parts with
    | nil => exact Nat.le_refl 0
    | cons p parts ih =>
        cases parts with
        | nil => simp [partsLength, length_newLine]; omega
        | cons q parts =>
            simp only [List.map_cons, List.intersperse_cons_cons, List.flatten_cons,
              List.length_append, length_newLine, List.length_singleton, partsLength,
              List.sum_cons] at ih ⊢
            omega
  unfold enclosed
  split
  · simp
  · have h := hparts parts
    simp only [List.length_cons, List.length_append, length_newLine, List.length_nil]
    omega

section Length

variable {n K : Nat}

mutual

/-- A text is bounded by the number of values in it, the length of theirs
and the indentation. -/
theorem length_pretty_le : ∀ (v : Value) (indent : Nat), indent + v.nodes ≤ K → v.Short n →
    (v.pretty indent).length + (2 * indent + 6 * n + 8) ≤ v.nodes * (12 * n + 4 * K + 16)
  | .null, indent, hK, _ => by
      simp only [Value.nodes, Value.pretty] at hK ⊢
      have hlen : "null".toList.length = 4 := rfl
      omega
  | .bool b, indent, hK, _ => by
      simp only [Value.nodes, Value.pretty] at hK ⊢
      have hlen : (if b then "true".toList else "false".toList).length ≤ 5 := by
        cases b <;> decide
      omega
  | .int k, indent, hK, h => by
      simp only [Value.nodes, Value.pretty, Value.Short] at hK h ⊢
      omega
  | .float x, indent, hK, h => by
      simp only [Value.nodes, Value.pretty, Value.Short] at hK h ⊢
      omega
  | .str s, indent, hK, h => by
      have hs := length_quoted_le s
      simp only [Value.nodes, Value.pretty, Value.Short] at hK h ⊢
      omega
  | .list xs, indent, hK, h => by
      simp only [Value.nodes, Value.pretty, Value.Short] at hK h ⊢
      have hparts := length_prettyList_le xs (indent + 1) (by omega) h
      have hlen := length_enclosed_le '[' ']' indent (prettyList (indent + 1) xs)
      rw [Nat.add_mul, Nat.one_mul]
      omega
  | .dict kvs, indent, hK, h => by
      simp only [Value.nodes, Value.pretty, Value.Short] at hK h ⊢
      have hparts := length_prettyDict_le kvs (indent + 1) (by omega) h
      have hlen := length_enclosed_le '\x7b' '\x7d' indent (prettyDict (indent + 1) kvs)
      rw [Nat.add_mul, Nat.one_mul]
      omega

theorem length_prettyList_le : ∀ (xs : List Value) (indent : Nat), indent + nodesList xs ≤ K →
    ShortList n xs →
      partsLength indent (prettyList indent xs) ≤ nodesList xs * (12 * n + 4 * K + 16)
  | [], indent, _, _ => Nat.zero_le _
  | x :: xs, indent, hK, h => by
      simp only [nodesList, ShortList] at hK h
      have hx := length_pretty_le x indent (by omega) h.1
      have hxs := length_prettyList_le xs indent (by omega) h.2
      simp only [prettyList, partsLength, List.map_cons, List.sum_cons, nodesList] at hxs ⊢
      rw [Nat.add_mul]
      omega

theorem length_prettyDict_le : ∀ (kvs : List (String × Value)) (indent : Nat),
    indent + nodesDict kvs ≤ K → ShortDict n kvs →
      partsLength indent (prettyDict indent kvs) ≤ nodesDict kvs * (12 * n + 4 * K + 16)
  | [], indent, _, _ => Nat.zero_le _
  | (k, x) :: kvs, indent, hK, h => by
      simp only [nodesDict, ShortDict] at hK h
      have hk := length_quoted_le k
      have hx := length_pretty_le x indent (by omega) h.2.1
      have hkvs := length_prettyDict_le kvs indent (by omega) h.2.2
      have hcolon : ": ".toList.length = 2 := rfl
      simp only [prettyDict, partsLength, List.map_cons, List.sum_cons, nodesDict,
        List.length_append] at hkvs ⊢
      rw [Nat.add_mul]
      omega

end

end Length

end Py
