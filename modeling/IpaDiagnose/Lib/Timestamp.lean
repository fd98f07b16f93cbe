import Mathlib.Algebra.BigOperators.Group.List.Basic
import Mathlib.Tactic.IntervalCases
import IpaDiagnose.Lib.Unicode

/-!
# UTC timestamps

A point in time to the second, as its calendar fields, and its text
`YYYY-MM-DDTHH:MM:SSZ`. Reading the text back gives the fields
(`read_text`); times are compared by the seconds since the year 1.
-/

namespace Timestamp

/-! ## The calendar -/

structure Fields where
  year : Nat
  month : Nat
  day : Nat
  hour : Nat
  minute : Nat
  second : Nat
deriving DecidableEq, Repr

def leap (y : Nat) : Bool := y % 4 == 0 && (y % 100 != 0 || y % 400 == 0)

def monthLength (y m : Nat) : Nat :=
  if m = 2 then (if leap y then 29 else 28)
  else if m = 4 ∨ m = 6 ∨ m = 9 ∨ m = 11 then 30
  else 31

structure Fields.Valid (f : Fields) : Prop where
  year : 1 ≤ f.year ∧ f.year ≤ 9999
  month : 1 ≤ f.month ∧ f.month ≤ 12
  day : 1 ≤ f.day ∧ f.day ≤ monthLength f.year f.month
  hour : f.hour < 24
  minute : f.minute < 60
  second : f.second < 60

instance (f : Fields) : Decidable f.Valid :=
  decidable_of_iff ((1 ≤ f.year ∧ f.year ≤ 9999) ∧ (1 ≤ f.month ∧ f.month ≤ 12)
      ∧ (1 ≤ f.day ∧ f.day ≤ monthLength f.year f.month) ∧ f.hour < 24 ∧ f.minute < 60
      ∧ f.second < 60)
    ⟨fun ⟨a, b, c, d, e, g⟩ => ⟨a, b, c, d, e, g⟩, fun ⟨a, b, c, d, e, g⟩ => ⟨a, b, c, d, e, g⟩⟩

/-- A time that a calendar has. -/
structure Stamp extends Fields where
  valid : toFields.Valid
deriving DecidableEq

def daysBeforeYear (y : Nat) : Nat := 365 * (y - 1) + (y - 1) / 4 + (y - 1) / 400 - (y - 1) / 100

def daysBeforeMonth (y m : Nat) : Nat := ((List.range' 1 (m - 1)).map (monthLength y)).sum

/-- The seconds since the beginning of the year 1. -/
def Stamp.seconds (t : Stamp) : Nat :=
  (((daysBeforeYear t.year + daysBeforeMonth t.year t.month + (t.day - 1)) * 24 + t.hour) * 60
    + t.minute) * 60 + t.second

/-! ## Text -/

def digit (n : Nat) : Char := Char.ofNat (48 + n % 10)

def two (n : Nat) : List Char := [digit (n / 10), digit n]

def four (n : Nat) : List Char := [digit (n / 1000), digit (n / 100), digit (n / 10), digit n]

def Stamp.text (t : Stamp) : String :=
  String.ofList (four t.year ++ '-' :: two t.month ++ '-' :: two t.day ++ 'T' :: two t.hour
    ++ ':' :: two t.minute ++ ':' :: two t.second ++ ['Z'])

/-- The value of a digit, of the ASCII ones only. -/
def asciiValue? (c : Char) : Option Nat :=
  if 48 ≤ c.toNat ∧ c.toNat ≤ 57 then some (c.toNat - 48) else none

/-- A field whose first digit is an ASCII one; so is the second, unless
the first leaves it free. -/
def field? (free : Nat → Bool) (a b : Char) : Option Nat :=
  (asciiValue? a).bind fun x =>
    (if free x then Unicode.decimalValue? b else asciiValue? b).map fun y => 10 * x + y

def year? (a b c d : Char) : Option Nat :=
  (Unicode.decimalValue? a).bind fun a => (Unicode.decimalValue? b).bind fun b =>
    (Unicode.decimalValue? c).bind fun c => (Unicode.decimalValue? d).map fun d =>
      1000 * a + 100 * b + 10 * c + d

/-- The fields of a text of the right shape. -/
def fields? : List Char → Option Fields
  | [y₁, y₂, y₃, y₄, _, m₁, m₂, _, d₁, d₂, _, h₁, h₂, _, n₁, n₂, _, s₁, s₂, _] =>
      (year? y₁ y₂ y₃ y₄).bind fun year =>
        (field? (fun _ => false) m₁ m₂).bind fun month =>
          (field? (fun x => x == 1 || x == 2) d₁ d₂).bind fun day =>
            (field? (fun x => x == 0 || x == 1) h₁ h₂).bind fun hour =>
              (field? (· ≤ 5) n₁ n₂).bind fun minute =>
                (field? (· ≤ 5) s₁ s₂).map fun second =>
                  ⟨year, month, day, hour, minute, second⟩
  | _ => none

/-- Digits where the shape has them, and its separators. -/
def shaped : List Char → Bool
  | [y₁, y₂, y₃, y₄, a, m₁, m₂, b, d₁, d₂, c, h₁, h₂, d, n₁, n₂, e, s₁, s₂, f] =>
      [y₁, y₂, y₃, y₄, m₁, m₂, d₁, d₂, h₁, h₂, n₁, n₂, s₁, s₂].all Unicode.isDecimal
        && a == '-' && b == '-' && c == 'T' && d == ':' && e == ':' && f == 'Z'
  | _ => false

/-- What a text says. -/
inductive Read where
  /-- It does not have the shape of a timestamp. -/
  | unshaped
  /-- It has the shape, but the calendar has no such time. -/
  | invalid
  | stamp (t : Stamp)
deriving DecidableEq

def read (s : String) : Read :=
  if shaped s.toList then
    match fields? s.toList with
    | some f => if h : f.Valid then .stamp ⟨f, h⟩ else .invalid
    | none => .invalid
  else .unshaped

/-! ## Texts without fixed widths

A field of `strptime` takes one digit or two; the readings of a text are
tried in order, the wider field first, and the first that goes through
has to end with the text.
-/

/-- The readings of a field: two characters, or one. -/
def loose (wide : Char → Char → Option Nat) (narrow : Char → Option Nat) :
    List Char → List (Nat × List Char)
  | a :: b :: cs =>
      ((wide a b).toList.map fun n => (n, cs)) ++ (narrow a).toList.map fun n => (n, b :: cs)
  | [a] => (narrow a).toList.map fun n => (n, [])
  | [] => []

/-- Two digits from `lo` to `hi`, of the ASCII ones only. -/
def asciiPair (lo hi : Nat) (a b : Char) : Option Nat :=
  (asciiValue? a).bind fun x => (asciiValue? b).bind fun y =>
    if lo ≤ 10 * x + y ∧ 10 * x + y ≤ hi then some (10 * x + y) else none

/-- A first digit from `lo` to `hi`, and any digit. -/
def freePair (lo hi : Nat) (a b : Char) : Option Nat :=
  (asciiValue? a).bind fun x =>
    if lo ≤ x ∧ x ≤ hi then (Unicode.decimalValue? b).map fun y => 10 * x + y else none

def positive (a : Char) : Option Nat := (asciiValue? a).filter (0 < ·)

def looseMonth : List Char → List (Nat × List Char) := loose (asciiPair 1 12) positive

/-- A day; of a day after a blank, the digit. -/
def looseDay : List Char → List (Nat × List Char) :=
  loose (fun a b =>
    (((asciiPair 30 31 a b).or (freePair 1 2 a b)).or (asciiPair 1 9 a b)).or
      (if a = ' ' then positive b else none)) positive

def looseHour : List Char → List (Nat × List Char) :=
  loose (fun a b => (asciiPair 20 23 a b).or (freePair 0 1 a b)) Unicode.decimalValue?

def looseMinute : List Char → List (Nat × List Char) :=
  loose (freePair 0 5) Unicode.decimalValue?

def looseSecond : List Char → List (Nat × List Char) :=
  loose (fun a b => (asciiPair 60 61 a b).or (freePair 0 5 a b)) Unicode.decimalValue?

/-- A letter of the format, in either case. -/
def letter (c : Char) : List Char → List (List Char)
  | x :: cs => if x.toLower = c.toLower then [cs] else []
  | [] => []

def looseYear : List Char → List (Nat × List Char)
  | a :: b :: c :: d :: cs => (year? a b c d).toList.map fun n => (n, cs)
  | _ => []

/-- The readings of a date and a time, `between` what separates a field
from the one before it: the month, the day, the hour, the minute, the
second and the end. -/
def looseFields (between : List (List Char → List (List Char))) (cs : List Char) :
    List (Fields × List Char) :=
  let sep (i : Nat) (cs : List Char) := (between.getD i fun cs => [cs]) cs
  (looseYear cs).flatMap fun (year, cs) => (sep 0 cs).flatMap fun cs =>
    (looseMonth cs).flatMap fun (month, cs) => (sep 1 cs).flatMap fun cs =>
      (looseDay cs).flatMap fun (day, cs) => (sep 2 cs).flatMap fun cs =>
        (looseHour cs).flatMap fun (hour, cs) => (sep 3 cs).flatMap fun cs =>
          (looseMinute cs).flatMap fun (minute, cs) => (sep 4 cs).flatMap fun cs =>
            (looseSecond cs).flatMap fun (second, cs) => (sep 5 cs).map fun cs =>
              (⟨year, month, day, hour, minute, second⟩, cs)

/-- `strptime`: the time a text says, `none` where it raises. -/
def strptime (between : List (List Char → List (List Char))) (s : String) : Option Stamp :=
  match looseFields between s.toList with
  | (f, []) :: _ => if h : f.Valid then some ⟨f, h⟩ else none
  | _ => none

/-- `%Y%m%d%H%M%SZ`. -/
def compact : List (List Char → List (List Char)) :=
  let nothing (cs : List Char) := [cs]
  [nothing, nothing, nothing, nothing, nothing, letter 'Z']

/-- `%Y-%m-%dT%H:%M:%SZ`. -/
def extended : List (List Char → List (List Char)) :=
  [letter '-', letter '-', letter 'T', letter ':', letter ':', letter 'Z']

example : (strptime compact "20261231000000Z").map Stamp.text = some "2026-12-31T00:00:00Z" := by
  decide +kernel

/-! ## Round trip -/

theorem digit_toNat (n : Nat) : (digit n).toNat = 48 + n % 10 := by
  have h : n % 10 < 10 := Nat.mod_lt _ (by decide)
  rw [digit]
  interval_cases n % 10 <;> rfl

theorem asciiValue_digit (n : Nat) : asciiValue? (digit n) = some (n % 10) := by
  rw [asciiValue?, digit_toNat, if_pos (by omega)]
  simp

theorem decimalValue_digit (n : Nat) : Unicode.decimalValue? (digit n) = some (n % 10) := by
  have h : n % 10 < 10 := Nat.mod_lt _ (by decide)
  rw [digit]
  interval_cases n % 10 <;> decide

theorem field_two (free : Nat → Bool) {n : Nat} (h : n < 100) :
    field? free (digit (n / 10)) (digit n) = some n := by
  have hvalue : 10 * (n / 10 % 10) + n % 10 = n := by omega
  rw [field?, asciiValue_digit, Option.bind_some, decimalValue_digit, asciiValue_digit, ite_self,
    Option.map_some, hvalue]

theorem year_four {n : Nat} (h : n < 10000) :
    year? (digit (n / 1000)) (digit (n / 100)) (digit (n / 10)) (digit n) = some n := by
  have hvalue : 1000 * (n / 1000 % 10) + 100 * (n / 100 % 10) + 10 * (n / 10 % 10) + n % 10 = n := by
    omega
  simp only [year?, decimalValue_digit, Option.bind_some, Option.map_some, hvalue]

theorem isDecimal_digit (n : Nat) : Unicode.isDecimal (digit n) = true := by
  rw [Unicode.isDecimal, decimalValue_digit]
  rfl

theorem monthLength_le (y m : Nat) : monthLength y m ≤ 31 := by
  unfold monthLength
  split
  · split <;> omega
  · split <;> omega

/-- A timestamp is read back from its text. -/
@[simp] theorem read_text (t : Stamp) : read t.text = .stamp t := by
  obtain ⟨f, hf⟩ := t
  have hday := monthLength_le f.year f.month
  have hyear : f.year < 10000 := by have := hf.year; omega
  have hmonth : f.month < 100 := by have := hf.month; omega
  have hd : f.day < 100 := by have := hf.day; omega
  have hhour : f.hour < 100 := by have := hf.hour; omega
  have hminute : f.minute < 100 := by have := hf.minute; omega
  have hsecond : f.second < 100 := by have := hf.second; omega
  have hchars : (Stamp.text ⟨f, hf⟩).toList = four f.year ++ '-' :: two f.month ++ '-' :: two f.day
      ++ 'T' :: two f.hour ++ ':' :: two f.minute ++ ':' :: two f.second ++ ['Z'] :=
    String.toList_ofList
  have hshaped : shaped (Stamp.text ⟨f, hf⟩).toList = true := by
    rw [hchars]
    simp [shaped, four, two, isDecimal_digit]
  have hfields : fields? (Stamp.text ⟨f, hf⟩).toList = some f := by
    rw [hchars]
    simp [fields?, four, two, year_four hyear, field_two _ hmonth, field_two _ hd,
      field_two _ hhour, field_two _ hminute, field_two _ hsecond]
  rw [read, if_pos hshaped, hfields]
  exact dif_pos hf

end Timestamp
