import Mathlib.Data.Nat.Log
import Mathlib.Data.Rat.Floor

/-!
# Binary floating point on rationals

A finite double is the rational it stands for, so arithmetic is exact
arithmetic followed by rounding to 53 significant bits (ties to even,
away from overflow and underflow). `text` is the shortest decimal text
that reads back as the same double.
-/

inductive Float64 where
  | fin (q : ℚ)
  | negZero
  | inf (neg : Bool)
  | nan
deriving DecidableEq

namespace Float64

/-! ## Rounding -/

/-- The nearest integer, the even one of two equally near. -/
def roundHalfEven (q : ℚ) : ℤ :=
  let f := q.floor
  if q - f < 1 / 2 then f
  else if 1 / 2 < q - f then f + 1
  else if f % 2 = 0 then f else f + 1

def pow2 (e : ℤ) : ℚ := if 0 ≤ e then (2 ^ e.toNat : ℚ) else 1 / (2 ^ (-e).toNat : ℚ)

def pow10 (e : ℤ) : ℚ := if 0 ≤ e then (10 ^ e.toNat : ℚ) else 1 / (10 ^ (-e).toNat : ℚ)

/-- The exponent of the last of 53 significant bits. -/
def ulpExponent (q : ℚ) : ℤ :=
  let e : ℤ := (Nat.log2 q.num.natAbs : ℤ) - Nat.log2 q.den
  if |q| < pow2 e then e - 53 else e - 52

/-- Rounding to the nearest double. -/
def round53 (q : ℚ) : ℚ :=
  if q = 0 then 0 else roundHalfEven (q / pow2 (ulpExponent q)) * pow2 (ulpExponent q)

/-- The value of a double that has one. -/
def rat? : Float64 → Option ℚ
  | .fin q => some q
  | .negZero => some 0
  | .inf _ => none
  | .nan => none

def isFinite (x : Float64) : Bool := x.rat?.isSome

/-! ## Decimal text -/

/-- The exponent of the leading decimal digit of a positive rational. -/
def leadExponent (q : ℚ) : ℤ :=
  if 1 ≤ q then (Nat.log 10 q.floor.toNat : ℤ)
  else
    match (List.range 400).find? fun j => 1 ≤ q * pow10 j with
    | some j => -(j : ℤ)
    | none => 0

/-- `q` rounded to `n` significant decimal digits: digits and exponent. -/
def toDigits (n : Nat) (q : ℚ) : ℕ × ℤ :=
  let e := leadExponent q - n + 1
  ((roundHalfEven (q / pow10 e)).toNat, e)

/-- The fewest digits that still round to the double `q`. -/
def shortest (q : ℚ) : ℕ × ℤ :=
  let good := (List.range 17).find? fun n =>
    let (m, e) := toDigits (n + 1) q
    round53 (m * pow10 e) = q
  toDigits (good.getD 16 + 1) q

def dropZeros (ds : List Char) : List Char :=
  match (ds.reverse.dropWhile (· == '0')).reverse with
  | [] => ['0']
  | ds => ds

def formatPos (q : ℚ) : String :=
  let (m, e) := shortest q
  let ds := (Nat.repr m).toList
  let lead : ℤ := e + ds.length - 1
  let sig := dropZeros ds
  if 16 ≤ lead ∨ lead < -4 then
    let frac := sig.drop 1
    let mant := sig.take 1 ++ (if frac.isEmpty then [] else '.' :: frac)
    let digits := (Nat.repr lead.natAbs).toList
    String.ofList (mant ++ ['e', if lead < 0 then '-' else '+']
      ++ (if digits.length < 2 then '0' :: digits else digits))
  else if lead < 0 then
    String.ofList ("0.".toList ++ List.replicate (-lead - 1).toNat '0' ++ sig)
  else
    let n := lead.toNat + 1
    let whole := sig.take n ++ List.replicate (n - sig.length) '0'
    let frac := sig.drop n
    String.ofList (whole ++ '.' :: (if frac.isEmpty then ['0'] else frac))

def text : Float64 → String
  | .fin q =>
      if q = 0 then "0.0" else if q < 0 then "-" ++ formatPos (-q) else formatPos q
  | .negZero => "-0.0"
  | .inf false => "inf"
  | .inf true => "-inf"
  | .nan => "nan"

/-- Rounding to three decimals. -/
def round3 (q : ℚ) : ℚ := round53 ((roundHalfEven (q * 1000) : ℚ) / 1000)

/-- A number of whole units, as `:.0f` writes it. -/
def fixed0 (q : ℚ) : String := toString (roundHalfEven q)

example : text (.fin (round53 (1 / 10))) = "0.1" := by decide +kernel

end Float64
