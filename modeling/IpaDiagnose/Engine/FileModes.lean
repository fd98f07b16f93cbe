import Mathlib.Tactic.IntervalCases
import IpaDiagnose.Lib.PyValue
import IpaDiagnose.Lib.RegexWords

/-!
# File modes and what chmod makes of them

`modeDelta` compares a reported mode with the expected one and writes down
the symbolic `chmod` that takes away what is too much, and the one that
puts it back. `chmod` is what the command does with such an argument.
-/

namespace IpaDiagnose.DirectoryServer

open Py (Value)
open Regex (Re)

/-- The bits of a file's mode; the upper three are not permissions. -/
abbrev Mode := BitVec 12

/-! ## Comparing two modes -/

/-- `0?[0-7]{3}` -/
def OCTAL_RE : Re := .seq (.opt (.char '0')) (.rept 3 3 (.cls fun c => '0' ≤ c && c ≤ '7'))

/-- `int(s, 8)` of three or four octal digits. -/
def ofOctal (s : String) : Mode :=
  BitVec.ofNat 12 (s.toList.foldl (fun n c => 8 * n + (c.toNat - '0'.toNat)) 0)

inductive Loosens where
  | yes
  | no
  | unknown
deriving DecidableEq, Repr

def Loosens.word : Loosens → String
  | .yes => "yes"
  | .no => "no"
  | .unknown => "unknown"

structure Delta where
  remove : String
  restore : String
  loosens : Loosens
deriving DecidableEq, Repr

def CLASSES : List (Char × Nat) := [('u', 6), ('g', 3), ('o', 0)]

def letters (b : Mode) : List Char :=
  [('r', 4#12), ('w', 2#12), ('x', 1#12)].filterMap fun l =>
    if b &&& l.2 ≠ 0 then some l.1 else none

/-- The three bits of a class. -/
def digit (bits : Mode) (shift : Nat) : Mode := (bits >>> shift) &&& 7

def part (bits : Mode) (sign : Char) (who : Char × Nat) : Option (List Char) :=
  let letters := letters (digit bits who.2)
  if letters = [] then none else some (who.1 :: sign :: letters)

def symbolic (bits : Mode) (sign : Char) : String :=
  let parts := CLASSES.filterMap (part bits sign)
  if parts = [] then "none" else String.ofList ([','].intercalate parts)

/-- A symbolic chmod that only removes permissions. -/
def modeDelta (got expected : Value) : Delta :=
  match got, expected with
  | .str got, .str expected =>
      if OCTAL_RE.fullmatch got && OCTAL_RE.fullmatch expected then
        let g := ofOctal got
        let e := ofOctal expected
        let removed := g &&& ~~~ e &&& 0o777
        let added := e &&& ~~~ g &&& 0o777
        ⟨symbolic removed '-', symbolic removed '+', if added ≠ 0 then .yes else .no⟩
      else ⟨"none", "none", .unknown⟩
  | _, _ => ⟨"none", "none", .unknown⟩

/-! ## Symbolic modes -/

def shift? (c : Char) : Option Nat := CLASSES.lookup c

def permission? : Char → Option Mode
  | 'r' => some 4
  | 'w' => some 2
  | 'x' => some 1
  | _ => none

def change (sign : Char) (mask m : Mode) : Option Mode :=
  match sign with
  | '-' => some (m &&& ~~~ mask)
  | '+' => some (m ||| mask)
  | _ => none

/-- One clause: whose permissions, taken or given, and which. -/
def clause (m : Mode) : List Char → Option Mode
  | who :: sign :: letters => do
      let shift ← shift? who
      let bits ← letters.foldlM (fun b c => (permission? c).map (b ||| ·)) 0
      change sign (bits <<< shift) m
  | _ => none

/-- The mode of a file after `chmod` with a symbolic argument. -/
def chmod (text : String) (m : Mode) : Option Mode := (text.toList.splitOn ',').foldlM clause m

example : chmod "u-x,o-rw" 0o766 = some 0o660 := by decide +kernel

/-! ## What is written is what chmod reads -/

theorem letters_spec : ∀ k < 8,
    (letters (BitVec.ofNat 12 k)).foldlM (fun b c => (permission? c).map (b ||| ·)) 0
      = some (BitVec.ofNat 12 k) := by
  decide

/-- The three permissions of a class, as letters and back. -/
theorem letters_digit (bits : Mode) (shift : Nat) :
    (letters (digit bits shift)).foldlM (fun b c => (permission? c).map (b ||| ·)) 0
      = some (digit bits shift) := by
  have hlt : (digit bits shift).toNat < 8 := by
    rw [digit, BitVec.toNat_and]
    exact Nat.and_le_right.trans_lt (by decide)
  have hspec := letters_spec _ hlt
  rwa [BitVec.ofNat_toNat, BitVec.setWidth_eq] at hspec

/-- One class after the other; a class without a letter has no clause. -/
theorem clauses_parts (bits : Mode) {sign : Char} {f : Mode → Mode → Mode}
    (hsign : ∀ mask m, change sign mask m = some (f mask m)) (hzero : ∀ m, f 0 m = m)
    (classes : List (Char × Nat)) (hclasses : ∀ w ∈ classes, shift? w.1 = some w.2) (m : Mode) :
    (classes.filterMap (part bits sign)).foldlM clause m
      = some (classes.foldl (fun m w => f (digit bits w.2 <<< w.2) m) m) := by
  induction classes generalizing m with
  | nil => rfl
  | cons w classes ih =>
      have ih := ih fun v hv => hclasses v (List.mem_cons_of_mem _ hv)
      have hbits := letters_digit bits w.2
      by_cases hnone : letters (digit bits w.2) = []
      · have hzeroBits : digit bits w.2 <<< w.2 = 0 := by
          rw [hnone] at hbits
          rw [← Option.some.inj hbits]
          exact BitVec.zero_shiftLeft _
        have hpart : part bits sign w = none := if_pos hnone
        rw [List.filterMap_cons_none hpart, ih, List.foldl_cons, hzeroBits, hzero]
      · have hpart : part bits sign w = some (w.1 :: sign :: letters (digit bits w.2)) :=
          if_neg hnone
        have hclause : clause m (w.1 :: sign :: letters (digit bits w.2))
            = some (f (digit bits w.2 <<< w.2) m) := by
          rw [clause, hclasses w List.mem_cons_self, hbits]
          exact hsign _ _
        rw [List.filterMap_cons_some hpart, List.foldlM_cons, hclause, List.foldl_cons]
        exact ih _

theorem comma_not_mem_part {bits : Mode} {sign : Char} {w : Char × Nat} {p : List Char}
    (hsign : sign ≠ ',') (hw : w.1 ≠ ',') (h : part bits sign w = some p) : ',' ∉ p := by
  have hletters : ',' ∉ letters (digit bits w.2) := by
    intro hmem
    obtain ⟨l, hl, hc⟩ := List.mem_filterMap.mp hmem
    simp only [List.mem_cons, List.not_mem_nil, or_false] at hl
    rcases hl with rfl | rfl | rfl <;> simp at hc
  rw [part] at h
  split at h
  · cases h
  · obtain rfl := Option.some.inj h
    simp [hsign.symm, hw.symm, hletters]

/-- A symbolic argument says what to change of each class, and nothing is
written only if nothing is to change. -/
theorem chmod_symbolic (bits : Mode) (sign : Char) (f : Mode → Mode → Mode) (hcomma : sign ≠ ',')
    (hsign : ∀ mask m, change sign mask m = some (f mask m)) (hzero : ∀ m, f 0 m = m) :
    symbolic bits sign = "none" ∧ (∀ m, CLASSES.foldl
        (fun m w => f (digit bits w.2 <<< w.2) m) m = m)
      ∨ ∀ m, chmod (symbolic bits sign) m
        = some (CLASSES.foldl (fun m w => f (digit bits w.2 <<< w.2) m) m) := by
  have hfold := clauses_parts bits hsign hzero CLASSES (by decide)
  by_cases hparts : CLASSES.filterMap (part bits sign) = []
  · refine .inl ⟨if_pos hparts, fun m => ?_⟩
    have := hfold m
    rw [hparts] at this
    exact (Option.some.inj this).symm
  · refine .inr fun m => ?_
    have hplain : ∀ p ∈ CLASSES.filterMap (part bits sign), ',' ∉ p := by
      intro p hp
      obtain ⟨w, hw, hpart⟩ := List.mem_filterMap.mp hp
      refine comma_not_mem_part hcomma ?_ hpart
      simp only [CLASSES, List.mem_cons, List.not_mem_nil, or_false] at hw
      rcases hw with rfl | rfl | rfl <;> decide
    have htext : symbolic bits sign
        = String.ofList ([','].intercalate (CLASSES.filterMap (part bits sign))) := if_neg hparts
    rw [chmod, htext, String.toList_ofList, List.splitOn_intercalate ',' hplain hparts]
    exact hfold m

/-! ## Taking away and putting back -/

/-- The permissions of a mode are those of its three classes. -/
theorem or_digits (bits : Mode) :
    digit bits 6 <<< 6 ||| digit bits 3 <<< 3 ||| digit bits 0 <<< 0 = bits &&& 0o777 := by
  apply BitVec.eq_of_getElem_eq
  intro i hi
  interval_cases i <;> simp [digit]

theorem chmod_take (bits : Mode) :
    symbolic bits '-' = "none" ∧ bits &&& 0o777 = 0
      ∨ ∀ m, chmod (symbolic bits '-') m = some (m &&& ~~~ (bits &&& 0o777)) := by
  have hfold : ∀ m, CLASSES.foldl (fun m w => m &&& ~~~ (digit bits w.2 <<< w.2)) m
      = m &&& ~~~ (bits &&& 0o777) := by
    intro m
    rw [← or_digits, BitVec.not_or, BitVec.not_or, ← BitVec.and_assoc, ← BitVec.and_assoc]
    rfl
  have hsymbolic := chmod_symbolic bits '-' (fun mask m => m &&& ~~~ mask)
    (by decide) (fun _ _ => rfl) (fun _ => BitVec.and_allOnes)
  simp only [hfold] at hsymbolic
  refine hsymbolic.imp_left fun h => ⟨h.1, ?_⟩
  have hself := h.2 (bits &&& 0o777)
  rwa [BitVec.and_not_self, eq_comm] at hself

theorem chmod_give (bits : Mode) :
    symbolic bits '+' = "none" ∧ bits &&& 0o777 = 0
      ∨ ∀ m, chmod (symbolic bits '+') m = some (m ||| bits &&& 0o777) := by
  have hfold : ∀ m, CLASSES.foldl (fun m w => m ||| digit bits w.2 <<< w.2) m
      = m ||| bits &&& 0o777 := by
    intro m
    rw [← or_digits, ← BitVec.or_assoc, ← BitVec.or_assoc]
    rfl
  have hsymbolic := chmod_symbolic bits '+' (fun mask m => m ||| mask)
    (by decide) (fun _ _ => rfl) (fun m => by simp)
  simp only [hfold] at hsymbolic
  refine hsymbolic.imp_left fun h => ⟨h.1, ?_⟩
  have hself := h.2 0#12
  rwa [BitVec.zero_or] at hself

theorem octal_le {c : Char} (h : (decide ('0' ≤ c) && decide (c ≤ '7')) = true) :
    c.toNat - '0'.toNat ≤ 7 := by
  have hle : c ≤ '7' := of_decide_eq_true (Bool.and_eq_true_iff.mp h).2
  have hnat : c.toNat ≤ '7'.toNat := hle
  exact Nat.sub_le_sub_right hnat _

/-- Three octal digits have no bit above the permissions. -/
theorem ofOctal_permissions {s : String} (h : OCTAL_RE.fullmatch s = true) :
    ofOctal s &&& 0o777 = ofOctal s := by
  obtain ⟨c, hc, hend⟩ := Re.fullmatch_iff.mp h
  obtain ⟨c₁, h₁, hc⟩ := Re.mem_seq.mp hc
  obtain ⟨w, hw, hzeros, hone, -⟩ := Regex.iter_cls_sound h₁
  obtain ⟨v, hv, hoctal, hthree, -⟩ := Regex.iter_cls_sound hc
  rw [hv, hend, List.append_nil] at hw
  replace hw : s.toList = w ++ v := hw
  obtain ⟨x, y, z, rfl⟩ := List.length_eq_three.mp (Nat.le_antisymm (hthree.2 3 rfl) hthree.1)
  have hx := octal_le (hoctal x (by simp))
  have hy := octal_le (hoctal y (by simp))
  have hz := octal_le (hoctal z (by simp))
  have hlead : w.foldl (fun n c => 8 * n + (c.toNat - '0'.toNat)) 0 = 0 := by
    rcases w with _ | ⟨c, w⟩
    · rfl
    · obtain rfl : w = [] := List.eq_nil_of_length_eq_zero (by
        have := hone.2 1 rfl
        rw [List.length_cons] at this
        omega)
      rw [beq_iff_eq.mp (hzeros c (by simp))]
      rfl
  rw [ofOctal, hw, List.foldl_append, hlead]
  simp only [List.foldl_cons, List.foldl_nil]
  generalize hn : 8 * (8 * (8 * 0 + (x.toNat - '0'.toNat)) + (y.toNat - '0'.toNat))
    + (z.toNat - '0'.toNat) = n
  have hlt : n < 2 ^ 9 := by omega
  apply BitVec.eq_of_toNat_eq
  rw [BitVec.toNat_and, BitVec.toNat_ofNat, Nat.mod_eq_of_lt (hlt.trans (by decide))]
  exact Nat.and_two_pow_sub_one_of_lt_two_pow hlt

/-- The chmod of a delta takes permissions away only, makes one mode of
another, and its rollback makes the first of the second. -/
def Tightens (δ : Delta) (g e : Mode) : Prop :=
  (g = e ∧ δ.remove = "none" ∧ δ.restore = "none")
    ∨ chmod δ.remove g = some e ∧ chmod δ.restore e = some g
      ∧ ∀ m, ∃ m', chmod δ.remove m = some m' ∧ m' &&& m = m'

/-- Taking from a mode what another lacks, and putting it back. -/
theorem tightens_of_le {g e : Mode} {loosens : Loosens} (hg : g &&& 0o777 = g)
    (hle : e &&& g = e) :
    Tightens ⟨symbolic (g &&& ~~~ e &&& 0o777) '-', symbolic (g &&& ~~~ e &&& 0o777) '+', loosens⟩
      g e := by
  have hmask : g &&& ~~~ e &&& 0o777 = g &&& ~~~ e := by
    rw [BitVec.and_assoc, BitVec.and_comm (~~~ e), ← BitVec.and_assoc, hg]
  have htake : g &&& ~~~ (g &&& ~~~ e) = e := by
    rw [BitVec.not_and, BitVec.not_not, ← hle]
    ext i hi
    simp only [BitVec.getElem_and, BitVec.getElem_or, BitVec.getElem_not]
    cases g[i] <;> cases e[i] <;> rfl
  have hgive : e ||| (g &&& ~~~ e) = g := by
    rw [← hle]
    ext i hi
    simp only [BitVec.getElem_and, BitVec.getElem_or, BitVec.getElem_not]
    cases g[i] <;> cases e[i] <;> rfl
  rw [hmask]
  have htaken := chmod_take (g &&& ~~~ e)
  have hgiven := chmod_give (g &&& ~~~ e)
  rw [hmask] at htaken hgiven
  by_cases hsame : g &&& ~~~ e = 0
  · -- nothing to take: the modes are the same
    refine .inl ⟨?_, ?_, ?_⟩
    · rw [hsame] at hgive
      exact hgive.symm.trans BitVec.or_zero
    · rw [hsame]
      show symbolic 0 '-' = "none"
      decide
    · rw [hsame]
      show symbolic 0 '+' = "none"
      decide
  · have htaken := htaken.resolve_left fun h => hsame h.2
    have hgiven := hgiven.resolve_left fun h => hsame h.2
    refine .inr ⟨(htaken g).trans (congrArg some htake), (hgiven e).trans (congrArg some hgive),
      fun m => ⟨_, htaken m, ?_⟩⟩
    rw [BitVec.and_comm m, BitVec.and_assoc, BitVec.and_self]

/-- Where the expected mode adds nothing. -/
theorem modeDelta_no {got expected : Value} (h : (modeDelta got expected).loosens = .no) :
    ∃ g e, got = .str g ∧ expected = .str e
      ∧ Tightens (modeDelta got expected) (ofOctal g) (ofOctal e) := by
  unfold modeDelta at h ⊢
  split at h
  · rename_i g e
    split at h
    · rename_i hmatch
      obtain ⟨hg, he⟩ := Bool.and_eq_true_iff.mp hmatch
      refine ⟨g, e, rfl, rfl, ?_⟩
      dsimp only
      rw [if_pos hmatch]
      refine tightens_of_le (ofOctal_permissions hg) ?_
      have hadded : ofOctal e &&& ~~~ ofOctal g &&& 0o777 = 0 := by
        by_contra hne
        dsimp only at h
        rw [if_pos hne] at h
        cases h
      have hmask := ofOctal_permissions he
      rw [BitVec.and_assoc, BitVec.and_comm (~~~ ofOctal g), ← BitVec.and_assoc, hmask] at hadded
      ext i hi
      have hbit := congrArg (fun b : Mode => b[i]) hadded
      simp only [BitVec.getElem_and, BitVec.getElem_not, BitVec.ofNat_eq_ofNat,
        BitVec.getElem_zero] at hbit ⊢
      cases hg : (ofOctal g)[i] <;> simp_all
    · cases h
  · cases h

end IpaDiagnose.DirectoryServer
