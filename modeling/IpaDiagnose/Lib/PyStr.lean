import IpaDiagnose.Lib.Unicode

/-!
# String methods

The string methods dynamic languages share, on `String` by way of its
characters: prefixes and suffixes, searching, cutting, case and white
space.
-/

namespace PyStr

def startsWith (s p : String) : Bool := p.toList.isPrefixOf s.toList

def endsWith (s p : String) : Bool := p.toList.isSuffixOf s.toList

/-- Drop the first `n` characters. -/
def drop (s : String) (n : Nat) : String := String.ofList (s.toList.drop n)

def take (s : String) (n : Nat) : String := String.ofList (s.toList.take n)

def len (s : String) : Nat := s.toList.length

/-- The text before the first occurrence of a character (the whole text
if there is none). -/
def before (s : String) (c : Char) : String := String.ofList (s.toList.takeWhile (· != c))

/-- Split a list around the first occurrence of a nonempty infix. -/
def cutChars (sep : List Char) : List Char → Option (List Char × List Char)
  | [] => none
  | x :: xs =>
      if sep.isPrefixOf (x :: xs) then some ([], (x :: xs).drop sep.length)
      else (cutChars sep xs).map fun (a, b) => (x :: a, b)

/-- `partition`: the text before and after the first separator; the text
and an empty string if there is none. -/
def partition (s sep : String) : String × String :=
  match cutChars sep.toList s.toList with
  | some (a, b) => (String.ofList a, String.ofList b)
  | none => (s, "")

/-- `rpartition` on one character: the text before and after its last
occurrence; an empty string and the text if there is none. -/
def rpartition (s : String) (c : Char) : String × String :=
  let back := s.toList.reverse
  match back.dropWhile (· != c) with
  | [] => ("", s)
  | _ :: front => (String.ofList front.reverse, String.ofList (back.takeWhile (· != c)).reverse)

def containsChars (sub : List Char) : List Char → Bool
  | [] => sub.isEmpty
  | x :: xs => sub.isPrefixOf (x :: xs) || containsChars sub xs

theorem containsChars_iff {sub cs : List Char} : containsChars sub cs = true ↔ sub <:+: cs := by
  induction cs with
  | nil => rw [containsChars, List.isEmpty_iff, List.infix_nil]
  | cons x xs ih =>
      rw [containsChars, Bool.or_eq_true, List.isPrefixOf_iff_prefix, ih, List.infix_cons_iff]

/-- `sub in s`. -/
def contains (s sub : String) : Bool := containsChars sub.toList s.toList

def hasChar (s : String) (c : Char) : Bool := s.toList.contains c

/-- Lower case. Outside ASCII only the two characters whose lower case
has an ASCII letter are mapped; every other one keeps itself, and so
stays outside ASCII as its lower case does. -/
def lowerChar (c : Char) : List Char :=
  if c.toNat = 0x130 then ['i', Char.ofNat 0x307]
  else if c.toNat = 0x212a then ['k']
  else [c.toLower]

def lower (s : String) : String := String.ofList (s.toList.flatMap lowerChar)

/-- Upper case. Outside ASCII only the characters whose upper case is in
ASCII are mapped; every other one keeps itself, and so stays outside
ASCII as its upper case does. -/
def upperChar (c : Char) : List Char :=
  match [(0xdf, "SS"), (0x131, "I"), (0x17f, "S"), (0xfb00, "FF"), (0xfb01, "FI"),
      (0xfb02, "FL"), (0xfb03, "FFI"), (0xfb04, "FFL"), (0xfb05, "ST"),
      (0xfb06, "ST")].lookup c.toNat with
  | some s => s.toList
  | none => [c.toUpper]

def upper (s : String) : String := String.ofList (s.toList.flatMap upperChar)

def rstripChars (p : Char → Bool) (cs : List Char) : List Char :=
  (cs.reverse.dropWhile p).reverse

def strip (s : String) : String :=
  String.ofList (rstripChars Unicode.isSpace (s.toList.dropWhile Unicode.isSpace))

/-- The words of a text: its maximal runs of characters outside `p`. -/
def wordsBy (p : Char → Bool) : List Char → List (List Char)
  | [] => []
  | c :: cs =>
      if p c then wordsBy p cs
      else match cs, wordsBy p cs with
        | d :: _, w :: ws => if p d then [c] :: w :: ws else (c :: w) :: ws
        | _, ws => [c] :: ws

def join (sep : String) (xs : List String) : String := sep.intercalate xs

/-- Lexicographic order on code points. -/
def le (a b : String) : Bool := decide (a ≤ b)

/-! ## Case -/

theorem toLower_toLower (c : Char) : c.toLower.toLower = c.toLower := by
  by_cases h : c.val ≥ 'A'.val ∧ c.val ≤ 'Z'.val
  · have hval : c.toLower.val = c.val + 32 := by
      delta Char.toLower
      rw [dif_pos h]
      rfl
    have hnot : ¬ (c.toLower.val ≥ 'A'.val ∧ c.toLower.val ≤ 'Z'.val) := by
      have hlow : 65 ≤ c.val.toNat := UInt32.le_iff_toNat_le.mp h.1
      have hhigh : c.val.toNat ≤ 90 := UInt32.le_iff_toNat_le.mp h.2
      intro hn
      have hle : c.toLower.val.toNat ≤ 90 := UInt32.le_iff_toNat_le.mp hn.2
      rw [hval, UInt32.toNat_add] at hle
      have h32 : (32 : UInt32).toNat = 32 := rfl
      omega
    generalize c.toLower = d at hnot
    delta Char.toLower
    rw [dif_neg hnot]
  · have hc : c.toLower = c := by
      delta Char.toLower
      rw [dif_neg h]
    rw [hc, hc]

/-! ## Prefixes of concatenations -/

@[simp] theorem startsWith_append (p s : String) : startsWith (p ++ s) p = true := by
  simp [startsWith, List.isPrefixOf_iff_prefix]

@[simp] theorem drop_append (p s : String) : drop (p ++ s) p.toList.length = s := by
  simp [drop]

theorem startsWith_iff {s p : String} : startsWith s p = true ↔ ∃ t, s = p ++ t := by
  rw [startsWith, List.isPrefixOf_iff_prefix]
  constructor
  · rintro ⟨t, ht⟩
    exact ⟨String.ofList t, by rw [← String.toList_inj]; simp [ht]⟩
  · rintro ⟨t, rfl⟩
    exact ⟨t.toList, by simp⟩

/-- A concatenation differs from a text its first part is no prefix of. -/
theorem append_ne {p s t : String} (h : startsWith t p = false) : p ++ s ≠ t := by
  rintro rfl
  simp at h

theorem startsWith_append_of {p q : String} (h : startsWith p q = true) (s : String) :
    startsWith (p ++ s) q = true := by
  obtain ⟨t, rfl⟩ := startsWith_iff.mp h
  exact startsWith_iff.mpr ⟨t ++ s, String.append_assoc⟩

theorem mem_cutChars {sep : List Char} {cs a b : List Char} (h : cutChars sep cs = some (a, b))
    {c : Char} (hc : c ∈ cs) : c ∈ a ∨ c ∈ sep ∨ c ∈ b := by
  induction cs generalizing a with
  | nil => cases hc
  | cons x xs ih =>
      rw [cutChars] at h
      split at h
      · rename_i hsep
        obtain ⟨rfl, rfl⟩ := Prod.mk.inj (Option.some.inj h)
        rw [← List.prefix_iff_eq_append.mp (List.isPrefixOf_iff_prefix.mp hsep)] at hc
        exact .inr (List.mem_append.mp hc)
      · obtain ⟨⟨a', b'⟩, hcut, heq⟩ := Option.map_eq_some_iff.mp h
        obtain ⟨rfl, rfl⟩ := Prod.mk.inj heq
        rcases List.mem_cons.mp hc with rfl | hc
        · exact .inl List.mem_cons_self
        · exact (ih hcut hc).imp_left (List.mem_cons_of_mem _)

theorem cutChars_prefix {sep : List Char} {cs a b : List Char}
    (h : cutChars sep cs = some (a, b)) : a <+: cs := by
  induction cs generalizing a with
  | nil => cases h
  | cons x xs ih =>
      rw [cutChars] at h
      split at h
      · obtain ⟨rfl, -⟩ := Prod.mk.inj (Option.some.inj h)
        exact List.nil_prefix
      · obtain ⟨⟨a', b'⟩, hcut, heq⟩ := Option.map_eq_some_iff.mp h
        obtain ⟨rfl, rfl⟩ := Prod.mk.inj heq
        exact List.cons_prefix_cons.mpr ⟨rfl, ih hcut⟩

theorem startsWith_partition (s sep : String) : startsWith s (partition s sep).1 = true := by
  rw [startsWith, List.isPrefixOf_iff_prefix]
  unfold partition
  split
  · rename_i a b hcut
    simpa using cutChars_prefix hcut
  · exact List.prefix_rfl

/-- A text has no characters but those of its parts and of the separator. -/
theorem mem_partition {s : String} (sep : String) {c : Char} (hc : c ∈ s.toList) :
    c ∈ (partition s sep).1.toList ∨ c ∈ sep.toList ∨ c ∈ (partition s sep).2.toList := by
  unfold partition
  split
  · rename_i a b hcut
    simpa using mem_cutChars hcut hc
  · exact .inl hc

/-- Texts that begin with different characters are different. -/
theorem append_ne_append {p q s t : String} {a b : Char} (hp : p.toList.head? = some a)
    (hq : q.toList.head? = some b) (h : a ≠ b) : p ++ s ≠ q ++ t := by
  intro heq
  have hhead := congrArg (fun u => u.toList.head?) heq
  simp only [String.toList_append, List.head?_append, hp, hq, Option.some_or, Option.some.injEq]
    at hhead
  exact h hhead

end PyStr
