import Mathlib.Data.List.Basic

/-!
# Bytes of a text

UTF-8 with replacement, and base64 read without regard to what is not in
its alphabet. Each reader is a machine that takes one byte or character
after the other; `decode_encode` and `b64decode_b64encode` say that what
a writer wrote is read back, whatever follows for UTF-8.
-/

namespace Bytes

/-! ## UTF-8 -/

/-- The bytes of a character. -/
def utf8Char (c : Char) : List Nat :=
  let n := c.toNat
  if n < 0x80 then [n]
  else if n < 0x800 then [0xc0 + n / 64, 0x80 + n % 64]
  else if n < 0x10000 then [0xe0 + n / 4096, 0x80 + n / 64 % 64, 0x80 + n % 64]
  else [0xf0 + n / 262144, 0x80 + n / 4096 % 64, 0x80 + n / 64 % 64, 0x80 + n % 64]

def encode (cs : List Char) : List Nat := cs.flatMap utf8Char

/-- A character of several bytes being read: what its bytes so far stand
for, the bounds of the next byte, and how many follow that one. -/
structure Pending where
  acc : Nat
  lo : Nat
  hi : Nat
  more : Nat

/-- The first byte of a character of several bytes. -/
def lead? (b : Nat) : Option Pending :=
  if 0xc2 ≤ b ∧ b ≤ 0xdf then some ⟨b - 0xc0, 0x80, 0xbf, 0⟩
  else if b = 0xe0 then some ⟨b - 0xe0, 0xa0, 0xbf, 1⟩
  else if b = 0xed then some ⟨b - 0xe0, 0x80, 0x9f, 1⟩
  else if 0xe1 ≤ b ∧ b ≤ 0xef then some ⟨b - 0xe0, 0x80, 0xbf, 1⟩
  else if b = 0xf0 then some ⟨b - 0xf0, 0x90, 0xbf, 2⟩
  else if 0xf1 ≤ b ∧ b ≤ 0xf3 then some ⟨b - 0xf0, 0x80, 0xbf, 2⟩
  else if b = 0xf4 then some ⟨b - 0xf0, 0x80, 0x8f, 2⟩
  else none

def replacement : Char := Char.ofNat 0xfffd

/-- What a byte at the start of a character gives, and what it leaves
pending. -/
def start (b : Nat) : List Char × Option Pending :=
  if b < 0x80 then ([Char.ofNat b], none)
  else
    match lead? b with
    | some p => ([], some p)
    | none => ([replacement], none)

/-- One more byte. A byte that does not continue the pending character
ends it, replaced, and is read as the start of another. -/
def step (pending : Option Pending) (b : Nat) : List Char × Option Pending :=
  match pending with
  | none => start b
  | some p =>
      if p.lo ≤ b ∧ b ≤ p.hi then
        let acc := p.acc * 64 + (b - 0x80)
        if p.more = 0 then ([Char.ofNat acc], none) else ([], some ⟨acc, 0x80, 0xbf, p.more - 1⟩)
      else (replacement :: (start b).1, (start b).2)

def decodeFrom : Option Pending → List Nat → List Char
  | none, [] => []
  | some _, [] => [replacement]
  | pending, b :: bs => (step pending b).1 ++ decodeFrom (step pending b).2 bs

def decode (bs : List Nat) : List Char := decodeFrom none bs

theorem decodeFrom_cons (pending : Option Pending) (b : Nat) (bs : List Nat) :
    decodeFrom pending (b :: bs) = (step pending b).1 ++ decodeFrom (step pending b).2 bs := by
  cases pending <;> rfl

/-- No character is a surrogate, and none is beyond the last plane. -/
theorem toNat_bounds (c : Char) :
    c.toNat < 0xd800 ∨ (0xdfff < c.toNat ∧ c.toNat < 0x110000) := c.valid

/-- A byte a pending character goes on with. -/
theorem step_continue {p : Pending} {b : Nat} (hlo : p.lo ≤ b) (hhi : b ≤ p.hi)
    (hmore : p.more ≠ 0) :
    step (some p) b = ([], some ⟨p.acc * 64 + (b - 0x80), 0x80, 0xbf, p.more - 1⟩) := by
  simp only [step, if_pos (And.intro hlo hhi), if_neg hmore]

/-- A byte a pending character ends with. -/
theorem step_last {p : Pending} {b : Nat} (hlo : p.lo ≤ b) (hhi : b ≤ p.hi) (hmore : p.more = 0) :
    step (some p) b = ([Char.ofNat (p.acc * 64 + (b - 0x80))], none) := by
  simp only [step, if_pos (And.intro hlo hhi), if_pos hmore]

theorem step_lead {b : Nat} {p : Pending} (hb : 0x80 ≤ b) (hp : lead? b = some p) :
    step none b = ([], some p) := by
  simp only [step, start, if_neg (Nat.not_lt.mpr hb), hp]

theorem decodeFrom_utf8Char (c : Char) (bs : List Nat) :
    decodeFrom none (utf8Char c ++ bs) = c :: decodeFrom none bs := by
  have hbounds := toNat_bounds c
  have hchar : ∀ n, n = c.toNat → Char.ofNat n = c := by
    rintro n rfl
    exact Char.ofNat_toNat c
  unfold utf8Char
  dsimp only
  by_cases h1 : c.toNat < 0x80
  · rw [if_pos h1, List.singleton_append, decodeFrom_cons]
    simp only [step, start, if_pos h1, Char.ofNat_toNat, List.singleton_append]
  rw [if_neg h1]
  by_cases h2 : c.toNat < 0x800
  · have hlead : lead? (0xc0 + c.toNat / 64) = some ⟨c.toNat / 64, 0x80, 0xbf, 0⟩ := by
      rw [lead?, if_pos (by omega), Nat.add_sub_cancel_left]
    rw [if_pos h2, List.cons_append, List.cons_append, List.nil_append, decodeFrom_cons,
      step_lead (by omega) hlead, decodeFrom_cons,
      step_last (by dsimp only; omega) (by dsimp only; omega) rfl]
    dsimp only
    rw [hchar _ (by omega), List.nil_append, List.singleton_append]
  rw [if_neg h2]
  by_cases h3 : c.toNat < 0x10000
  · obtain ⟨p, hlead, hacc, hmore, hlo, hhi⟩ : ∃ p, lead? (0xe0 + c.toNat / 4096) = some p
        ∧ p.acc = c.toNat / 4096 ∧ p.more = 1 ∧ p.lo ≤ 0x80 + c.toNat / 64 % 64
        ∧ 0x80 + c.toNat / 64 % 64 ≤ p.hi := by
      unfold lead?
      rw [if_neg (by omega)]
      split
      · exact ⟨_, rfl, by dsimp only; omega, rfl, by dsimp only; omega, by dsimp only; omega⟩
      · split
        · exact ⟨_, rfl, by dsimp only; omega, rfl, by dsimp only; omega, by dsimp only; omega⟩
        · rw [if_pos (by omega)]
          exact ⟨_, rfl, by dsimp only; omega, rfl, by dsimp only; omega, by dsimp only; omega⟩
    rw [if_pos h3, List.cons_append, List.cons_append, List.cons_append, List.nil_append,
      decodeFrom_cons, step_lead (by omega) hlead, decodeFrom_cons,
      step_continue hlo hhi (by omega), decodeFrom_cons,
      step_last (by dsimp only; omega) (by dsimp only; omega) (by dsimp only; omega)]
    dsimp only
    rw [hchar _ (by omega), List.nil_append, List.nil_append, List.singleton_append]
  · obtain ⟨p, hlead, hacc, hmore, hlo, hhi⟩ : ∃ p, lead? (0xf0 + c.toNat / 262144) = some p
        ∧ p.acc = c.toNat / 262144 ∧ p.more = 2 ∧ p.lo ≤ 0x80 + c.toNat / 4096 % 64
        ∧ 0x80 + c.toNat / 4096 % 64 ≤ p.hi := by
      unfold lead?
      rw [if_neg (by omega), if_neg (by omega), if_neg (by omega), if_neg (by omega)]
      split
      · exact ⟨_, rfl, by dsimp only; omega, rfl, by dsimp only; omega, by dsimp only; omega⟩
      · split
        · exact ⟨_, rfl, by dsimp only; omega, rfl, by dsimp only; omega, by dsimp only; omega⟩
        · rw [if_pos (by omega)]
          exact ⟨_, rfl, by dsimp only; omega, rfl, by dsimp only; omega, by dsimp only; omega⟩
    rw [if_neg h3, List.cons_append, List.cons_append, List.cons_append, List.cons_append,
      List.nil_append, decodeFrom_cons, step_lead (by omega) hlead, decodeFrom_cons,
      step_continue hlo hhi (by omega), decodeFrom_cons,
      step_continue (by dsimp only; omega) (by dsimp only; omega) (by dsimp only; omega),
      decodeFrom_cons,
      step_last (by dsimp only; omega) (by dsimp only; omega) (by dsimp only; omega)]
    dsimp only
    rw [hchar _ (by omega), List.nil_append, List.nil_append, List.nil_append,
      List.singleton_append]

/-- A text is read back from its bytes. -/
theorem decode_encode (cs : List Char) : decode (encode cs) = cs := by
  unfold decode encode
  induction cs with
  | nil => rfl
  | cons c cs ih => rw [List.flatMap_cons, decodeFrom_utf8Char, ih]

theorem utf8Char_lt (c : Char) : ∀ b ∈ utf8Char c, b < 256 := by
  have hbounds := toNat_bounds c
  intro b hb
  unfold utf8Char at hb
  dsimp only at hb
  split at hb
  · simp only [List.mem_cons, List.not_mem_nil, or_false] at hb
    omega
  · split at hb
    · simp only [List.mem_cons, List.not_mem_nil, or_false] at hb
      omega
    · split at hb
      · simp only [List.mem_cons, List.not_mem_nil, or_false] at hb
        omega
      · simp only [List.mem_cons, List.not_mem_nil, or_false] at hb
        omega

theorem encode_lt (cs : List Char) : ∀ b ∈ encode cs, b < 256 := by
  intro b hb
  obtain ⟨c, -, hc⟩ := List.mem_flatMap.mp hb
  exact utf8Char_lt c b hc

/-! ## Base64 -/

def ALPHABET : List Char :=
  "ABCDEFGHIJKLMNOPQRSTUVWXYZabcdefghijklmnopqrstuvwxyz0123456789+/".toList

def symbol (v : Nat) : Char := ALPHABET.getD v '='

/-- The value of a character of the alphabet. -/
def value? (c : Char) : Option Nat := ALPHABET.findIdx? (· == c)

/-- Three bytes as four characters, padded at the end. -/
def b64encode : List Nat → List Char
  | [] => []
  | [a] => [symbol (a / 4), symbol (a % 4 * 16), '=', '=']
  | [a, b] => [symbol (a / 4), symbol (a % 4 * 16 + b / 16), symbol (b % 16 * 4), '=']
  | a :: b :: c :: bs =>
      [symbol (a / 4), symbol (a % 4 * 16 + b / 16), symbol (b % 16 * 4 + c / 64),
        symbol (c % 64)] ++ b64encode bs

/-- `quad` characters of the group were read, `left` is what they leave
for the next byte, `pads` counts the padding read since. Characters
outside the alphabet are passed over, padding that completes a group
ends the text, and a group that is not complete is an error. -/
def a2b (quad left pads : Nat) : List Char → Option (List Nat)
  | [] => if quad = 0 then some [] else none
  | c :: cs =>
      if c = '=' then
        if 2 ≤ quad then
          if 4 ≤ quad + (pads + 1) then some [] else a2b quad left (pads + 1) cs
        else a2b quad left pads cs
      else
        match value? c with
        | none => a2b quad left pads cs
        | some v =>
            match quad with
            | 0 => a2b 1 v 0 cs
            | 1 => (a2b 2 (v % 16) 0 cs).map ((left * 4 + v / 16) :: ·)
            | 2 => (a2b 3 (v % 4) 0 cs).map ((left * 16 + v / 4) :: ·)
            | _ => (a2b 0 0 0 cs).map ((left * 64 + v) :: ·)

/-- The bytes of a text in ASCII. -/
def b64decode (cs : List Char) : Option (List Nat) :=
  if cs.all (·.toNat < 128) then a2b 0 0 0 cs else none

/-- Every character of the alphabet has its value, and is printable. -/
theorem alphabet_values : ∀ v < 64, value? (symbol v) = some v
    ∧ symbol v ≠ '=' ∧ 32 < (symbol v).toNat ∧ (symbol v).toNat < 127 := by
  decide +kernel

theorem value?_symbol {v : Nat} (h : v < 64) : value? (symbol v) = some v :=
  (alphabet_values v h).1

theorem symbol_plain {v : Nat} (h : v < 64) :
    symbol v ≠ '=' ∧ 32 < (symbol v).toNat ∧ (symbol v).toNat < 127 :=
  (alphabet_values v h).2

section Symbols

variable {v : Nat} (h : v < 64) (left pads : Nat) (cs : List Char)

include h

/-- A character of the alphabet is read by its place in the group. -/
theorem a2b_symbol (quad : Nat) : a2b quad left pads (symbol v :: cs) =
    match quad with
    | 0 => a2b 1 v 0 cs
    | 1 => (a2b 2 (v % 16) 0 cs).map ((left * 4 + v / 16) :: ·)
    | 2 => (a2b 3 (v % 4) 0 cs).map ((left * 16 + v / 4) :: ·)
    | _ => (a2b 0 0 0 cs).map ((left * 64 + v) :: ·) := by
  rw [a2b, if_neg (symbol_plain h).1, value?_symbol h]

theorem a2b_first : a2b 0 left pads (symbol v :: cs) = a2b 1 v 0 cs :=
  a2b_symbol h left pads cs 0

theorem a2b_second : a2b 1 left pads (symbol v :: cs)
    = (a2b 2 (v % 16) 0 cs).map ((left * 4 + v / 16) :: ·) :=
  a2b_symbol h left pads cs 1

theorem a2b_third : a2b 2 left pads (symbol v :: cs)
    = (a2b 3 (v % 4) 0 cs).map ((left * 16 + v / 4) :: ·) :=
  a2b_symbol h left pads cs 2

theorem a2b_fourth : a2b 3 left pads (symbol v :: cs)
    = (a2b 0 0 0 cs).map ((left * 64 + v) :: ·) :=
  a2b_symbol h left pads cs 3

end Symbols

theorem a2b_b64encode {bs : List Nat} (h : ∀ b ∈ bs, b < 256) :
    a2b 0 0 0 (b64encode bs) = some bs := by
  induction bs using b64encode.induct with
  | case1 => rfl
  | case2 a =>
      have ha : a < 256 := h a (by simp)
      have hend : ∀ left, a2b 2 left 0 ['=', '='] = some [] := fun _ => rfl
      have hbyte : a / 4 * 4 + a % 4 * 16 / 16 = a := by omega
      rw [b64encode, a2b_first (by omega), a2b_second (by omega), hend, Option.map_some, hbyte]
  | case3 a b =>
      have ha : a < 256 := h a (by simp)
      have hb : b < 256 := h b (by simp)
      have hend : ∀ left, a2b 3 left 0 ['='] = some [] := fun _ => rfl
      have hbyte : a / 4 * 4 + (a % 4 * 16 + b / 16) / 16 = a := by omega
      have hbyte' : (a % 4 * 16 + b / 16) % 16 * 16 + b % 16 * 4 / 4 = b := by omega
      rw [b64encode, a2b_first (by omega), a2b_second (by omega), a2b_third (by omega), hend,
        Option.map_some, Option.map_some, hbyte, hbyte']
  | case4 a b c bs ih =>
      have ha : a < 256 := h a (by simp)
      have hb : b < 256 := h b (by simp)
      have hc : c < 256 := h c (by simp)
      have hbs := ih fun x hx => h x (by simp [hx])
      have hbyte : a / 4 * 4 + (a % 4 * 16 + b / 16) / 16 = a := by omega
      have hbyte' : (a % 4 * 16 + b / 16) % 16 * 16 + (b % 16 * 4 + c / 64) / 4 = b := by omega
      have hbyte'' : (b % 16 * 4 + c / 64) % 4 * 64 + c % 64 = c := by omega
      rw [b64encode, List.cons_append, List.cons_append, List.cons_append, List.cons_append,
        List.nil_append, a2b_first (by omega), a2b_second (by omega), a2b_third (by omega),
        a2b_fourth (by omega), hbs, Option.map_some, Option.map_some, Option.map_some, hbyte,
        hbyte', hbyte'']

/-- The encoding is printable ASCII without a blank. -/
theorem b64encode_plain {bs : List Nat} (h : ∀ b ∈ bs, b < 256) :
    ∀ c ∈ b64encode bs, 32 < c.toNat ∧ c.toNat < 127 := by
  have hpad : 32 < '='.toNat ∧ '='.toNat < 127 := by decide
  induction bs using b64encode.induct with
  | case1 => intro c hc; cases hc
  | case2 a =>
      have ha : a < 256 := h a (by simp)
      intro c hc
      simp only [b64encode, List.mem_cons, List.not_mem_nil, or_false] at hc
      rcases hc with rfl | rfl | rfl | rfl
      · exact (symbol_plain (by omega)).2
      · exact (symbol_plain (by omega)).2
      · exact hpad
      · exact hpad
  | case3 a b =>
      have ha : a < 256 := h a (by simp)
      have hb : b < 256 := h b (by simp)
      intro c hc
      simp only [b64encode, List.mem_cons, List.not_mem_nil, or_false] at hc
      rcases hc with rfl | rfl | rfl | rfl
      · exact (symbol_plain (by omega)).2
      · exact (symbol_plain (by omega)).2
      · exact (symbol_plain (by omega)).2
      · exact hpad
  | case4 a b c bs ih =>
      have ha : a < 256 := h a (by simp)
      have hb : b < 256 := h b (by simp)
      have hc : c < 256 := h c (by simp)
      intro d hd
      rw [b64encode, List.mem_append] at hd
      rcases hd with hd | hd
      · simp only [List.mem_cons, List.not_mem_nil, or_false] at hd
        rcases hd with rfl | rfl | rfl | rfl
        · exact (symbol_plain (by omega)).2
        · exact (symbol_plain (by omega)).2
        · exact (symbol_plain (by omega)).2
        · exact (symbol_plain (by omega)).2
      · exact ih (fun x hx => h x (by simp [hx])) d hd

/-- Bytes are read back from their encoding. -/
theorem b64decode_b64encode {bs : List Nat} (h : ∀ b ∈ bs, b < 256) :
    b64decode (b64encode bs) = some bs := by
  have hascii : (b64encode bs).all (·.toNat < 128) = true := by
    rw [List.all_eq_true]
    intro c hc
    have hplain := b64encode_plain h c hc
    exact decide_eq_true (by omega)
  rw [b64decode, if_pos hascii, a2b_b64encode h]

end Bytes
