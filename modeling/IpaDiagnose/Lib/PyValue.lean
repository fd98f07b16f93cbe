import Mathlib.Data.List.Sort
import IpaDiagnose.Lib.Binary64
import IpaDiagnose.Lib.PyStr

/-!
# Dynamic values

The values a JSON document or a loosely typed answer can hold, with the
operations of a dynamic language on them: equality across the numeric
types, ordering, membership, truth, item access, text. An operation that
such a language refuses at run time is an exception here, in
`Except (Exc ε)` with `ε` the exceptions the program itself declares.
-/

namespace Py

/-- The exceptions of the language, and the program's own. -/
inductive Exc (ε : Type) where
  | keyError
  | typeError
  | valueError
  | attributeError
  | overflowError
  | indexError
  | keyboardInterrupt
  | other
  | own (e : ε)
deriving DecidableEq, Repr

inductive Value where
  | null
  | bool (b : Bool)
  | int (n : Int)
  | float (x : Float64)
  | str (s : String)
  | list (xs : List Value)
  | dict (kvs : List (String × Value))

abbrev Dict := List (String × Value)

namespace Value

/-! ## Structural equality is decidable -/

mutual

def decEq : (a b : Value) → Decidable (a = b)
  | .null, .null => isTrue rfl
  | .bool a, .bool b =>
      if h : a = b then isTrue (by rw [h]) else isFalse fun e => h (by injection e)
  | .int a, .int b =>
      if h : a = b then isTrue (by rw [h]) else isFalse fun e => h (by injection e)
  | .float a, .float b =>
      if h : a = b then isTrue (by rw [h]) else isFalse fun e => h (by injection e)
  | .str a, .str b =>
      if h : a = b then isTrue (by rw [h]) else isFalse fun e => h (by injection e)
  | .list a, .list b =>
      match decEqList a b with
      | isTrue h => isTrue (by rw [h])
      | isFalse h => isFalse fun e => h (by injection e)
  | .dict a, .dict b =>
      match decEqDict a b with
      | isTrue h => isTrue (by rw [h])
      | isFalse h => isFalse fun e => h (by injection e)
  | .null, .bool _ | .null, .int _ | .null, .float _ | .null, .str _ | .null, .list _
  | .null, .dict _ | .bool _, .null | .bool _, .int _ | .bool _, .float _ | .bool _, .str _
  | .bool _, .list _ | .bool _, .dict _ | .int _, .null | .int _, .bool _ | .int _, .float _
  | .int _, .str _ | .int _, .list _ | .int _, .dict _ | .float _, .null | .float _, .bool _
  | .float _, .int _ | .float _, .str _ | .float _, .list _ | .float _, .dict _
  | .str _, .null | .str _, .bool _ | .str _, .int _ | .str _, .float _ | .str _, .list _
  | .str _, .dict _ | .list _, .null | .list _, .bool _ | .list _, .int _ | .list _, .float _
  | .list _, .str _ | .list _, .dict _ | .dict _, .null | .dict _, .bool _ | .dict _, .int _
  | .dict _, .float _ | .dict _, .str _ | .dict _, .list _ => isFalse nofun

def decEqList : (a b : List Value) → Decidable (a = b)
  | [], [] => isTrue rfl
  | [], _ :: _ | _ :: _, [] => isFalse nofun
  | x :: xs, y :: ys =>
      match decEq x y, decEqList xs ys with
      | isTrue h, isTrue hs => isTrue (by rw [h, hs])
      | isFalse h, _ => isFalse fun e => h (by injection e)
      | _, isFalse hs => isFalse fun e => hs (by injection e)

def decEqDict : (a b : List (String × Value)) → Decidable (a = b)
  | [], [] => isTrue rfl
  | [], _ :: _ | _ :: _, [] => isFalse nofun
  | (k, x) :: xs, (l, y) :: ys =>
      if hk : k = l then
        match decEq x y, decEqDict xs ys with
        | isTrue h, isTrue hs => isTrue (by rw [hk, h, hs])
        | isFalse h, _ => isFalse fun e => h (by injection e with e; injection e)
        | _, isFalse hs => isFalse fun e => hs (by injection e)
      else isFalse fun e => hk (by injection e with e; injection e)

end

instance : DecidableEq Value := decEq

/-! ## Kinds and truth -/

def isDict : Value → Bool
  | .dict _ => true
  | _ => false

def isList : Value → Bool
  | .list _ => true
  | _ => false

def isStr : Value → Bool
  | .str _ => true
  | _ => false

def truthy : Value → Bool
  | .null => false
  | .bool b => b
  | .int n => n != 0
  | .float (.fin q) => q != 0
  | .float .negZero => false
  | .float _ => true
  | .str s => s != ""
  | .list xs => !xs.isEmpty
  | .dict kvs => !kvs.isEmpty

/-- Lists and dictionaries cannot be hashed: they are no dictionary keys
and no set members. -/
def hashable : Value → Bool
  | .list _ => false
  | .dict _ => false
  | _ => true

/-- The number a numeric value stands for; a boolean is a number. -/
def num? : Value → Option Float64
  | .bool b => some (.fin (if b then 1 else 0))
  | .int n => some (.fin n)
  | .float x => some x
  | _ => none

/-! ## Equality and order -/

def numEq (a b : Float64) : Bool :=
  match a.rat?, b.rat? with
  | some p, some q => p == q
  | none, none => a != .nan && a == b
  | _, _ => false

mutual

/-- `==`: numbers by value, containers element by element, dictionaries
without regard to order. -/
def pyEq : Value → Value → Bool
  | .null, .null => true
  | .str a, .str b => a == b
  | .list a, .list b => pyEqList a b
  | .dict a, .dict b => a.length == b.length && pyEqDict a b
  | .bool a, v => numEqV (.fin (if a then 1 else 0)) v
  | .int a, v => numEqV (.fin a) v
  | .float a, v => numEqV a v
  | _, _ => false

def pyEqList : List Value → List Value → Bool
  | [], [] => true
  | x :: xs, y :: ys => pyEq x y && pyEqList xs ys
  | _, _ => false

def pyEqDict : List (String × Value) → List (String × Value) → Bool
  | [], _ => true
  | (k, x) :: xs, ys =>
      (match ys.lookup k with
        | some y => pyEq x y
        | none => false) && pyEqDict xs ys

def numEqV (a : Float64) : Value → Bool
  | .bool b => numEq a (.fin (if b then 1 else 0))
  | .int n => numEq a (.fin n)
  | .float x => numEq a x
  | _ => false

end

/-- The comparison of two doubles, none if one is not a number. -/
def numCmp (a b : Float64) : Option Ordering :=
  match a, b with
  | .nan, _ => none
  | _, .nan => none
  | .inf s, .inf t => some (if s = t then .eq else if s then .lt else .gt)
  | .inf s, _ => some (if s then .lt else .gt)
  | _, .inf t => some (if t then .gt else .lt)
  | a, b => some (compare (a.rat?.getD 0) (b.rat?.getD 0))

mutual

/-- An order comparison, by the orderings it accepts. `none`: the values
cannot be compared. -/
def order (accept : Ordering → Bool) : Value → Value → Option Bool
  | .str a, .str b => some (accept (compare a b))
  | .list a, .list b => orderList accept a b
  | a, b =>
      match a.num?, b.num? with
      | some x, some y => some ((numCmp x y).elim false accept)
      | _, _ => none

/-- Lists are compared at their first differing elements. -/
def orderList (accept : Ordering → Bool) : List Value → List Value → Option Bool
  | [], [] => some (accept .eq)
  | [], _ :: _ => some (accept .lt)
  | _ :: _, [] => some (accept .gt)
  | x :: xs, y :: ys =>
      if pyEq x y then orderList accept xs ys else order accept x y

end

def abs? : Value → Option Value
  | .bool b => some (.int (if b then 1 else 0))
  | .int n => some (.int n.natAbs)
  | .float (.fin q) => some (.float (.fin |q|))
  | .float .negZero => some (.float (.fin 0))
  | .float (.inf _) => some (.float (.inf false))
  | .float .nan => some (.float .nan)
  | _ => none

/-- An integer; a boolean is one. -/
def isInt : Value → Bool
  | .bool _ => true
  | .int _ => true
  | _ => false

def isNumber (v : Value) : Bool := v.num?.isSome

/-- A number whose absolute value is at least `n`. -/
def beyond (v : Value) (n : ℚ) : Bool :=
  match v.num? with
  | some x =>
      match x.rat? with
      | some q => decide (n ≤ |q|)
      | none => x != .nan
  | none => false

/-- `a < b`. `none`: a type error. -/
def lt? (a b : Value) : Option Bool := order (· == .lt) a b

/-- `a in b`. `none`: a type error. -/
def isIn (a : Value) : Value → Option Bool
  | .list xs => some (xs.any (pyEq a))
  | .dict kvs =>
      if a.hashable then
        some (match a with
          | .str s => kvs.any (·.1 == s)
          | _ => false)
      else none
  | .str t =>
      match a with
      | .str s => some (PyStr.contains t s)
      | _ => none
  | _ => none

end Value

/-! ## Access -/

section Access

variable {ε : Type}

/-- `v[k]` for a string key. -/
def Value.getItem (v : Value) (k : String) : Except (Exc ε) Value :=
  match v with
  | .dict kvs =>
      match kvs.lookup k with
      | some x => .ok x
      | none => .error .keyError
  | _ => .error .typeError

/-- `v.get(k, default)`. -/
def Value.get (v : Value) (k : String) (default : Value) : Except (Exc ε) Value :=
  match v with
  | .dict kvs => .ok ((kvs.lookup k).getD default)
  | _ => .error .attributeError

/-- `k in v` for a string. -/
def Value.hasKey (v : Value) (k : String) : Except (Exc ε) Bool :=
  match (Value.str k).isIn v with
  | some b => .ok b
  | none => .error .typeError

/-- `v.items()`. -/
def Value.items (v : Value) : Except (Exc ε) Dict :=
  match v with
  | .dict kvs => .ok kvs
  | _ => .error .attributeError

/-- The elements a `for` loop visits. -/
def Value.iter (v : Value) : Except (Exc ε) (List Value) :=
  match v with
  | .list xs => .ok xs
  | .dict kvs => .ok (kvs.map fun kv => .str kv.1)
  | .str s => .ok (s.toList.map fun c => .str (String.ofList [c]))
  | _ => .error .typeError

/-- A lookup by any value: only hashable ones can be looked up, and only
strings are keys. -/
def lookupKey {α : Type} (kvs : List (String × α)) (k : Value) : Except (Exc ε) (Option α) :=
  match k with
  | .str s => .ok (kvs.lookup s)
  | .list _ => .error .typeError
  | .dict _ => .error .typeError
  | _ => .ok none

/-- `v[:n]`. -/
def Value.sliceTo (v : Value) (n : Nat) : Except (Exc ε) Value :=
  match v with
  | .str s => .ok (.str (PyStr.take s n))
  | .list xs => .ok (.list (xs.take n))
  | _ => .error .typeError

/-- `sep.join(v)`: strings only. -/
def Value.joined (sep : String) (v : Value) : Except (Exc ε) String := do
  let xs ← v.iter
  let ss ← xs.mapM fun x =>
    match x with
    | .str s => .ok s
    | _ => .error .typeError
  pure (PyStr.join sep ss)

/-- `sorted(vs)`: every two elements must have an order. -/
def sortedValues (vs : List Value) : Except (Exc ε) (List Value) :=
  if vs.Pairwise fun a b => (a.lt? b).isSome then
    .ok (vs.insertionSort fun a b => b.lt? a ≠ some true)
  else .error .typeError

/-- Each value once, in the order they came. -/
def distinct (vs : List Value) : List Value :=
  vs.foldl (fun seen v => if seen.any (v.pyEq ·) then seen else seen ++ [v]) []

/-- The members of `set(vs)`. -/
def setOf (vs : List Value) : Except (Exc ε) (List Value) :=
  if vs.all Value.hashable then .ok (distinct vs) else .error .typeError

/-- The smallest integer that no double is near. -/
@[irreducible] def FLOAT_OVERFLOW : Nat := 2 ^ 1024 - 2 ^ 970

/-- `format(abs(v), '.0f')`: an integer beyond every double overflows. -/
def Value.fixed0 (v : Value) : Except (Exc ε) String :=
  match v with
  | .int n =>
      if FLOAT_OVERFLOW ≤ n.natAbs then .error .overflowError
      else .ok (Float64.fixed0 (Float64.round53 n.natAbs))
  | .bool b => .ok (if b then "1" else "0")
  | .float x =>
      .ok (match x.rat? with
        | some q => Float64.fixed0 |q|
        | none => if x = .nan then "nan" else "inf")
  | _ => .error .typeError

end Access

/-! ## Text -/

def hexDigit (n : Nat) : Char :=
  if n < 10 then Char.ofNat (48 + n) else Char.ofNat (87 + n)

def hex (width n : Nat) : List Char :=
  (List.range width).reverse.map fun i => hexDigit (n / 16 ^ i % 16)

/-- One character of a quoted string. -/
def reprChar (quote c : Char) : List Char :=
  if c == quote || c == '\\' then ['\\', c]
  else if c == '\n' then ['\\', 'n']
  else if c == '\r' then ['\\', 'r']
  else if c == '\t' then ['\\', 't']
  else if Unicode.isPrintable c then [c]
  else if c.toNat < 256 then '\\' :: 'x' :: hex 2 c.toNat
  else if c.toNat < 65536 then '\\' :: 'u' :: hex 4 c.toNat
  else '\\' :: 'U' :: hex 8 c.toNat

def reprStr (s : String) : String :=
  let quote := if s.toList.contains '\'' && !s.toList.contains '"' then '"' else '\''
  String.ofList (quote :: s.toList.flatMap (reprChar quote) ++ [quote])

mutual

def Value.repr : Value → String
  | .null => "None"
  | .bool b => if b then "True" else "False"
  | .int n => toString n
  | .float x => x.text
  | .str s => reprStr s
  | .list xs => "[" ++ PyStr.join ", " (reprList xs) ++ "]"
  | .dict kvs => "\x7b" ++ PyStr.join ", " (reprDict kvs) ++ "\x7d"

def reprList : List Value → List String
  | [] => []
  | x :: xs => x.repr :: reprList xs

def reprDict : List (String × Value) → List String
  | [] => []
  | (k, v) :: kvs => (reprStr k ++ ": " ++ v.repr) :: reprDict kvs

end

/-- `str(v)`. -/
def Value.toStr : Value → String
  | .str s => s
  | v => v.repr

def jsonChar (c : Char) : List Char :=
  if c == '"' || c == '\\' then ['\\', c]
  else if c == '\n' then ['\\', 'n']
  else if c == '\r' then ['\\', 'r']
  else if c == '\t' then ['\\', 't']
  else if c == Char.ofNat 8 then ['\\', 'b']
  else if c == Char.ofNat 12 then ['\\', 'f']
  else if 32 ≤ c.toNat && c.toNat < 127 then [c]
  else if c.toNat < 65536 then '\\' :: 'u' :: hex 4 c.toNat
  else '\\' :: 'u' :: hex 4 (0xd800 + (c.toNat - 65536) / 1024)
    ++ '\\' :: 'u' :: hex 4 (0xdc00 + (c.toNat - 65536) % 1024)

def jsonStr (s : String) : String :=
  String.ofList ('"' :: s.toList.flatMap jsonChar ++ ['"'])

mutual

/-- JSON text with sorted keys, ASCII only. -/
def Value.jsonDumps : Value → String
  | .null => "null"
  | .bool b => if b then "true" else "false"
  | .int n => toString n
  | .float (.inf false) => "Infinity"
  | .float (.inf true) => "-Infinity"
  | .float .nan => "NaN"
  | .float x => x.text
  | .str s => jsonStr s
  | .list xs => "[" ++ PyStr.join ", " (jsonList xs) ++ "]"
  | .dict kvs =>
      "\x7b" ++ PyStr.join ", " (((jsonDict kvs).mergeSort fun a b => PyStr.le a.1 b.1).map
        fun kv => jsonStr kv.1 ++ ": " ++ kv.2) ++ "\x7d"

def jsonList : List Value → List String
  | [] => []
  | x :: xs => x.jsonDumps :: jsonList xs

def jsonDict : List (String × Value) → List (String × String)
  | [] => []
  | (k, v) :: kvs => (k, v.jsonDumps) :: jsonDict kvs

end

end Py
