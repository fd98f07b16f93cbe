import IpaDiagnose.Lib.DnsWire
import IpaDiagnose.Lib.PyValue
import IpaDiagnose.Lib.Result

/-!
# The DNS client's answers

The parser of a response to an SRV query. The message is whatever came
over the network: names may point elsewhere, and every length in it is
the sender's. The parser is written over what a slice gives that does
not lie within the message (`Outside`), which is nothing it ever asks for
(`parse_srv_response_exact`).
-/

namespace IpaDiagnose.Client.Dnsq

open DnsWire
open Py (Exc)
open Result

/-! ## The parser -/

def MAX_ANSWERS : Nat := 32

def QTYPE_SRV : Nat := 33

structure DnsError where
  why : String
deriving DecidableEq, Repr

abbrev E := Exc DnsError

def dnsError {α : Type} (why : String) : Except E α := .error (.own ⟨why⟩)

/-- What a slice of a message is that does not lie within it. -/
abbrev Outside := List UInt8 → Nat → Nat → Except E (List UInt8)

/-- The language cuts it at the end of the message. -/
def cut : Outside := fun msg off n => .ok (bytesAt msg off n)

def RCODES : List (Nat × String) :=
  [(0, "NOERROR"), (1, "FORMERR"), (2, "SERVFAIL"), (3, "NXDOMAIN"), (4, "NOTIMP"), (5, "REFUSED")]

def rcodeText (code : Nat) : String := (RCODES.lookup code).getD ("RCODE" ++ toString code)

/-- `bytes.decode("ascii", "replace")` -/
def decodeAscii (bs : List UInt8) : List Char :=
  bs.map fun b => if b.toNat < 128 then Char.ofNat b.toNat else Char.ofNat 0xFFFD

/-- `".".join(labels).lower()` -/
def nameText (labels : List (List Char)) : List Char :=
  (List.intercalate ['.'] labels).flatMap PyStr.lowerChar

section Parser

variable (outside : Outside) (msg : List UInt8)

/-- `msg[off]` -/
def index (off : Nat) : Except E Nat :=
  match msg[off]? with
  | some b => .ok b.toNat
  | none => .error .indexError

/-- `msg[off:off + n]` -/
def slice (off n : Nat) : Except E (List UInt8) :=
  if off + n ≤ msg.length then .ok (bytesAt msg off n) else outside msg off n

/-- The words of a structure that has nothing else, in network order. -/
def unpack : List UInt8 → List Nat
  | a :: b :: rest => (a.toNat * 256 + b.toNat) :: unpack rest
  | _ => []

/-- The loop of `_read_name`: every turn takes a label, or a pointer of
which there are sixteen. -/
def readNameFrom (pos jumps : Nat) (stop : Option Nat) (labels : List (List Char)) :
    Except E (List Char × Nat) :=
  if _ : msg.length ≤ pos then dnsError "truncated name"
  else
    match index msg pos with
    | .error e => .error e
    | .ok n =>
        if n = 0 then .ok (nameText labels, stop.getD (pos + 1))
        else if n &&& 0xC0 = 0xC0 then
          if msg.length ≤ pos + 1 then dnsError "truncated pointer"
          else
            match index msg (pos + 1) with
            | .error e => .error e
            | .ok low =>
                let ptr := ((n &&& 0x3F) <<< 8) ||| low
                if _ : pos ≤ ptr ∨ 16 ≤ jumps then dnsError "bad compression pointer"
                else readNameFrom ptr (jumps + 1) (some (stop.getD (pos + 2))) labels
        else if n &&& 0xC0 ≠ 0 then dnsError "unsupported label type"
        else if msg.length < pos + 1 + n then dnsError "truncated label"
        else
          match slice outside msg (pos + 1) n with
          | .error e => .error e
          | .ok label =>
              let labels := labels ++ [decodeAscii label]
              if 127 < labels.length then dnsError "name too long"
              else readNameFrom (pos + 1 + n) jumps stop labels
termination_by (16 - jumps, msg.length - pos)

def readName (off : Nat) : Except E (List Char × Nat) := readNameFrom outside msg off 0 none []

structure Answer where
  priority : Nat
  weight : Nat
  port : Nat
  target : String
deriving DecidableEq, Repr

def skipQuestions : Nat → Nat → Except E Nat
  | 0, off => .ok off
  | k + 1, off => do
      let (_, off) ← readName outside msg off
      skipQuestions k (off + 4)

/-- The data of a record that names a service. -/
def readAnswer (off : Nat) : Except E Answer := do
  let fields ← slice outside msg off 6
  match unpack fields with
  | [prio, weight, port] => do
      let (target, _) ← readName outside msg (off + 6)
      pure ⟨prio, weight, port, String.ofList (target.take 253)⟩
  | _ => .error .other

def readAnswers : Nat → Nat → Except E (List Answer)
  | 0, _ => .ok []
  | k + 1, off => do
      let (_, off) ← readName outside msg off
      if msg.length < off + 10 then dnsError "truncated record"
      else do
        let header ← slice outside msg off 10
        match unpack header with
        | [rtype, _, _, _, rdlen] =>
            let off := off + 10
            if msg.length < off + rdlen then dnsError "truncated record data"
            else if rtype = QTYPE_SRV ∧ 7 ≤ rdlen then do
              let answer ← readAnswer outside msg off
              let answers ← readAnswers k (off + rdlen)
              pure (answer :: answers)
            else readAnswers k (off + rdlen)
        | _ => .error .other

def parseSrvResponseWith (qid : Nat) : Except E (String × List Answer) :=
  if msg.length < 12 then dnsError "short answer"
  else do
    let header ← slice outside msg 0 12
    match unpack header with
    | [rid, flags, qd, an, _, _] =>
        if rid ≠ qid ∨ flags &&& 0x8000 = 0 then dnsError "not an answer to this question"
        else do
          let off ← skipQuestions outside msg (min qd 4) 12
          let answers ← readAnswers outside msg (min an MAX_ANSWERS) off
          pure (rcodeText (flags &&& 0x000F), answers)
    | _ => .error .other

end Parser

def parseSrvResponse (msg : List UInt8) (qid : Nat) : Except E (String × List Answer) :=
  parseSrvResponseWith cut msg qid

/-! ## Nothing is read outside the message -/

/-- A value, or the parser's own exception. -/
def Safe {α : Type} (r : Except E α) : Prop := (∃ a, r = .ok a) ∨ ∃ why, r = .error (.own ⟨why⟩)

theorem safe_dnsError {α : Type} (why : String) : Safe (dnsError why : Except E α) := .inr ⟨why, rfl⟩

theorem safe_ok {α : Type} (a : α) : Safe (.ok a : Except E α) := .inl ⟨a, rfl⟩

theorem Safe.bind {α β : Type} {x : Except E α} {f : α → Except E β} (hx : Safe x)
    (hf : ∀ a, Safe (f a)) : Safe (x >>= f) := by
  rcases hx with ⟨a, rfl⟩ | ⟨why, rfl⟩
  · exact hf a
  · exact .inr ⟨why, rfl⟩

section Bounds

variable (outside : Outside) {msg : List UInt8}

theorem index_inside {off : Nat} (h : off < msg.length) : index msg off = .ok (byteAt msg off) := by
  simp [index, byteAt, h]

theorem slice_inside {off n : Nat} (h : off + n ≤ msg.length) :
    slice outside msg off n = .ok (bytesAt msg off n) := if_pos h

/-- What is read is safe, and does not depend on what is outside. -/
theorem readNameFrom_safe (pos jumps : Nat) (stop : Option Nat) (labels : List (List Char)) :
    Safe (readNameFrom outside msg pos jumps stop labels)
      ∧ readNameFrom outside msg pos jumps stop labels = readNameFrom cut msg pos jumps stop labels := by
  fun_induction readNameFrom outside msg pos jumps stop labels with
  | case1 pos jumps stop labels hpos =>
      rw [readNameFrom, dif_pos hpos]
      exact ⟨safe_dnsError _, rfl⟩
  | case2 pos jumps stop labels hpos e he =>
      rw [index_inside (by omega)] at he
      cases he
  | case3 pos jumps stop labels hpos hn =>
      refine ⟨safe_ok _, ?_⟩
      rw [readNameFrom, dif_neg hpos]
      simp [hn]
  | case4 pos jumps stop labels hpos n hn hzero hmark hshort =>
      refine ⟨safe_dnsError _, ?_⟩
      rw [readNameFrom, dif_neg hpos]
      simp [hn, hzero, hmark, hshort]
  | case5 pos jumps stop labels hpos n hn hzero hmark hshort e he =>
      rw [index_inside (by omega)] at he
      cases he
  | case6 pos jumps stop labels hpos n hn hzero hmark hshort low hlow ptr hbad =>
      refine ⟨safe_dnsError _, ?_⟩
      rw [readNameFrom, dif_neg hpos]
      simp only [hn, hlow, if_neg hzero, if_pos hmark, if_neg hshort]
      split
      · rfl
      · exact absurd hbad ‹_›
  | case7 pos jumps stop labels hpos n hn hzero hmark hshort low hlow ptr hback ih =>
      refine ⟨ih.1, ih.2.trans ?_⟩
      rw [readNameFrom.eq_1 cut msg pos, dif_neg hpos]
      simp only [hn, hlow, if_neg hzero, if_pos hmark, if_neg hshort]
      split
      · exact absurd ‹_› hback
      · rfl
  | case8 pos jumps stop labels hpos n hn hzero hmark hreserved =>
      refine ⟨safe_dnsError _, ?_⟩
      rw [readNameFrom, dif_neg hpos]
      simp only [hn, if_neg hzero, if_neg hmark, if_pos hreserved]
  | case9 pos jumps stop labels hpos n hn hzero hmark hplain hlong =>
      refine ⟨safe_dnsError _, ?_⟩
      rw [readNameFrom, dif_neg hpos]
      simp only [hn, if_neg hzero, if_neg hmark, if_neg hplain, if_pos hlong]
  | case10 pos jumps stop labels hpos n hn hzero hmark hplain hshort e he =>
      rw [slice_inside _ (by omega)] at he
      cases he
  | case11 pos jumps stop labels hpos n hn hzero hmark hplain hshort label hlabel labels' hmany =>
      refine ⟨safe_dnsError _, ?_⟩
      rw [slice_inside _ (by omega)] at hlabel
      rw [readNameFrom, dif_neg hpos]
      simp only [hn, if_neg hzero, if_neg hmark, if_neg hplain, if_neg hshort,
        slice_inside _ (show pos + 1 + n ≤ msg.length by omega), Except.ok.inj hlabel]
      exact (if_pos hmany).symm
  | case12 pos jumps stop labels hpos n hn hzero hmark hplain hshort label hlabel labels' hmany ih =>
      refine ⟨ih.1, ih.2.trans ?_⟩
      rw [slice_inside _ (by omega)] at hlabel
      rw [readNameFrom.eq_1 cut msg pos, dif_neg hpos]
      simp only [hn, if_neg hzero, if_neg hmark, if_neg hplain, if_neg hshort,
        slice_inside _ (show pos + 1 + n ≤ msg.length by omega), Except.ok.inj hlabel]
      exact (if_neg hmany).symm

theorem readName_safe (off : Nat) : Safe (readName outside msg off) := (readNameFrom_safe _ _ _ _ _).1

theorem readName_same (off : Nat) : readName outside msg off = readName cut msg off :=
  (readNameFrom_safe _ _ _ _ _).2

theorem unpack_bytesAt {off k : Nat} (h : off + 2 * k ≤ msg.length) :
    unpack (bytesAt msg off (2 * k)) = (List.range k).map fun i => wordAt msg (off + 2 * i) := by
  induction k generalizing off with
  | zero => rfl
  | succ k ih =>
      have hrest := @ih (off + 2) (by omega)
      have htwo : bytesAt msg off (2 * k + 1 + 1)
          = msg.getD off 0 :: msg.getD (off + 1) 0 :: bytesAt msg (off + 2) (2 * k) := by
        rw [bytesAt_succ (show off < msg.length by omega),
          bytesAt_succ (show off + 1 < msg.length by omega)]
      rw [Nat.mul_succ, htwo, unpack, hrest, List.range_succ_eq_map, List.map_cons, List.map_map]
      refine congrArg _ (List.map_congr_left fun i _ => ?_)
      rw [Function.comp_apply, Nat.succ_eq_add_one, Nat.mul_succ, Nat.add_assoc, Nat.add_comm 2]

/-- The data of a service record within the message. -/
theorem readAnswer_inside {off : Nat} (h : off + 6 ≤ msg.length) :
    readAnswer outside msg off = (readName outside msg (off + 6)).map fun r =>
      ⟨wordAt msg off, wordAt msg (off + 2), wordAt msg (off + 4), String.ofList (r.1.take 253)⟩ := by
  have hwords : unpack (bytesAt msg off 6) = [wordAt msg off, wordAt msg (off + 2), wordAt msg (off + 4)] :=
    by simpa [List.range_succ] using unpack_bytesAt (k := 3) h
  unfold readAnswer
  rw [slice_inside _ h, ok_bind, hwords]
  rfl

/-- One record: its owner, its head, and its data. -/
theorem readAnswers_succ (k off : Nat) : readAnswers outside msg (k + 1) off = (do
    let (_, off) ← readName outside msg off
    if msg.length < off + 10 then dnsError "truncated record"
    else if msg.length < off + 10 + wordAt msg (off + 8) then dnsError "truncated record data"
    else if wordAt msg off = QTYPE_SRV ∧ 7 ≤ wordAt msg (off + 8) then do
      let answer ← readAnswer outside msg (off + 10)
      let answers ← readAnswers outside msg k (off + 10 + wordAt msg (off + 8))
      pure (answer :: answers)
    else readAnswers outside msg k (off + 10 + wordAt msg (off + 8))) := by
  rw [readAnswers]
  refine bind_congr fun ⟨_, next⟩ => ?_
  dsimp only
  split
  · rfl
  · have hinside : next + 10 ≤ msg.length := by omega
    have hwords : unpack (bytesAt msg next 10) = [wordAt msg next, wordAt msg (next + 2),
        wordAt msg (next + 4), wordAt msg (next + 6), wordAt msg (next + 8)] :=
      by simpa [List.range_succ] using unpack_bytesAt (k := 5) hinside
    rw [slice_inside _ hinside, ok_bind, hwords]

theorem readAnswer_safe {off : Nat} (h : off + 6 ≤ msg.length) :
    Safe (readAnswer outside msg off) ∧ readAnswer outside msg off = readAnswer cut msg off := by
  rw [readAnswer_inside _ h, readAnswer_inside _ h, readName_same]
  refine ⟨?_, rfl⟩
  rcases readName_safe cut (off + 6) with ⟨r, hr⟩ | ⟨why, hwhy⟩
  · rw [hr]
    exact safe_ok _
  · rw [hwhy]
    exact .inr ⟨why, rfl⟩

theorem readAnswers_safe (k off : Nat) :
    Safe (readAnswers outside msg k off) ∧ readAnswers outside msg k off = readAnswers cut msg k off := by
  induction k generalizing off with
  | zero => exact ⟨safe_ok _, rfl⟩
  | succ k ih =>
      rw [readAnswers_succ, readAnswers_succ, readName_same]
      rcases readName_safe cut off with ⟨⟨_, next⟩, hr⟩ | ⟨why, hwhy⟩
      · rw [hr, ok_bind, ok_bind]
        dsimp only
        split
        · exact ⟨safe_dnsError _, rfl⟩
        · split
          · exact ⟨safe_dnsError _, rfl⟩
          · rename_i hhead hdata
            split
            · rename_i hsrv
              obtain ⟨hsafe, hsame⟩ := readAnswer_safe outside (show next + 10 + 6 ≤ msg.length by omega)
              obtain ⟨hrest, hrest'⟩ := ih (next + 10 + wordAt msg (next + 8))
              rw [hsame, hrest']
              rw [hsame] at hsafe
              rw [hrest'] at hrest
              exact ⟨hsafe.bind fun _ => hrest.bind fun _ => safe_ok _, rfl⟩
            · exact ih _
      · rw [hwhy]
        exact ⟨.inr ⟨why, rfl⟩, rfl⟩

theorem skipQuestions_safe (k off : Nat) : Safe (skipQuestions outside msg k off)
    ∧ skipQuestions outside msg k off = skipQuestions cut msg k off := by
  induction k generalizing off with
  | zero => exact ⟨safe_ok _, rfl⟩
  | succ k ih =>
      rw [skipQuestions, skipQuestions, readName_same]
      refine ⟨?_, bind_congr fun r => (ih (r.2 + 4)).2⟩
      exact (readName_safe _ _).bind fun r => (ih (r.2 + 4)).1

/-- A message with a header, by its words. -/
theorem parseSrvResponseWith_header {qid : Nat} (h : 12 ≤ msg.length) :
    parseSrvResponseWith outside msg qid =
      if wordAt msg 0 ≠ qid ∨ wordAt msg 2 &&& 0x8000 = 0 then
        dnsError "not an answer to this question"
      else (do
        let off ← skipQuestions outside msg (min (wordAt msg 4) 4) 12
        let answers ← readAnswers outside msg (min (wordAt msg 6) MAX_ANSWERS) off
        pure (rcodeText (wordAt msg 2 &&& 0x000F), answers)) := by
  have hinside : 0 + 12 ≤ msg.length := by omega
  have hwords : unpack (bytesAt msg 0 12) = [wordAt msg 0, wordAt msg 2, wordAt msg 4, wordAt msg 6,
      wordAt msg 8, wordAt msg 10] := by
    simpa [List.range_succ] using unpack_bytesAt (k := 6) hinside
  unfold parseSrvResponseWith
  rw [if_neg (by omega), slice_inside _ hinside, ok_bind, hwords]

theorem parseSrvResponseWith_safe (qid : Nat) : Safe (parseSrvResponseWith outside msg qid)
    ∧ parseSrvResponseWith outside msg qid = parseSrvResponseWith cut msg qid := by
  by_cases hshort : msg.length < 12
  · unfold parseSrvResponseWith
    rw [if_pos hshort, if_pos hshort]
    exact ⟨safe_dnsError _, rfl⟩
  · rw [parseSrvResponseWith_header _ (by omega), parseSrvResponseWith_header _ (by omega)]
    split
    · exact ⟨safe_dnsError _, rfl⟩
    · obtain ⟨hskip, hskip'⟩ := @skipQuestions_safe outside msg (min (wordAt msg 4) 4) 12
      refine ⟨hskip.bind fun off => (readAnswers_safe _ _ off).1.bind fun _ => safe_ok _, ?_⟩
      rw [hskip']
      refine bind_congr fun off => ?_
      rw [(readAnswers_safe outside _ off).2]

end Bounds

/-! ## What a well-formed message says is read -/

/-- A name as a text in lower case, its labels separated by dots. -/
def dotted (labels : List Label) : List Char :=
  (List.intercalate ['.'] (labels.map fun l => l.map fun b => Char.ofNat b.toNat)).map Char.toLower

def answerOf : Record → Option Answer
  | .srv priority weight port target => some ⟨priority, weight, port, String.ofList (dotted target)⟩
  | .other _ => none

theorem label_bits {n : Nat} (h : n < 64) : n &&& 0xC0 = 0 := by
  revert n
  decide

theorem pointer_bits {n : Nat} (h : n < 256) (hmark : 192 ≤ n) :
    n &&& 0xC0 = 0xC0 ∧ n &&& 0x3F = n - 192 := by
  revert n
  decide +kernel

theorem pointer_value {n low : Nat} (hn : n < 256) (hmark : 192 ≤ n) (hlow : low < 256) :
    ((n &&& 0x3F) <<< 8) ||| low = (n - 192) * 256 + low := by
  have hor := Nat.shiftLeft_add_eq_or_of_lt (show low < 2 ^ 8 from hlow) (n &&& 0x3F)
  rw [← hor, (pointer_bits hn hmark).2, Nat.shiftLeft_eq]

section Exact

variable (outside : Outside) {msg : List UInt8}

/-- A name is read with what was read of it before, as long as there are
not too many pointers and labels. -/
theorem readNameFrom_name {pos next pointers : Nat} {ls : List Label}
    (h : NameAt msg pos ls next pointers) (jumps : Nat) (stop : Option Nat)
    (labels : List (List Char)) (hjumps : jumps + pointers ≤ 16)
    (hlabels : labels.length + ls.length ≤ 127) :
    readNameFrom outside msg pos jumps stop labels
      = .ok (nameText (labels ++ ls.map decodeAscii), stop.getD next) := by
  induction h generalizing jumps stop labels with
  | root inside zero =>
      rw [readNameFrom.eq_1, dif_neg (by omega), index_inside inside, zero]
      simp
  | @label off next pointers ls inside size rest ih =>
      have hzero : byteAt msg off ≠ 0 := by omega
      have hbits := label_bits size.2
      rw [List.length_cons] at hlabels
      have hlength : ¬127 < (labels ++ [decodeAscii (bytesAt msg (off + 1) (byteAt msg off))]).length := by
        rw [List.length_append, List.length_singleton]
        omega
      have hrest := ih jumps stop (labels ++ [decodeAscii (bytesAt msg (off + 1) (byteAt msg off))])
        hjumps (by rw [List.length_append, List.length_singleton]; omega)
      rw [readNameFrom.eq_1, dif_neg (by omega), index_inside (by omega)]
      dsimp only
      rw [if_neg hzero, if_neg (by rw [hbits]; decide), if_neg (by simp [hbits]), if_neg (by omega),
        slice_inside _ inside]
      dsimp only
      rw [if_neg hlength, hrest, List.append_assoc, List.map_cons, List.singleton_append]
  | @pointer off next pointers ls inside mark back rest ih =>
      have hbyte := byteAt_lt msg off
      have hvalue := pointer_value hbyte mark (byteAt_lt msg (off + 1))
      have hback : ¬(off ≤ ((byteAt msg off &&& 0x3F) <<< 8 ||| byteAt msg (off + 1)) ∨ 16 ≤ jumps) := by
        rw [hvalue]
        omega
      have hrest := ih (jumps + 1) (some (stop.getD (off + 2))) labels (by omega) hlabels
      rw [readNameFrom.eq_1, dif_neg (by omega), index_inside (by omega)]
      dsimp only
      rw [if_neg (by omega), if_pos (pointer_bits hbyte mark).1, if_neg (by omega),
        index_inside inside]
      dsimp only
      simp only [hvalue] at hback ⊢
      rw [dif_neg hback, hrest]
      rfl

theorem length_labels_le {labels : List Label} {off next pointers : Nat}
    (h : NameAt msg off labels next pointers) (hplain : Plain labels) : labels.length ≤ 127 := by
  have hmany := two_mul_length_lt h.labels_ne_nil
  have hsize := hplain.size
  omega

theorem lowerChar_ascii {c : Char} (h : c.toNat < 128) : PyStr.lowerChar c = [c.toLower] := by
  rw [PyStr.lowerChar, if_neg (by omega), if_neg (by omega)]

theorem toNat_ascii {n : Nat} (h : n < 128) : (Char.ofNat n).toNat = n := by
  revert n
  decide +kernel

theorem forall_mem_intercalate {α : Type} {P : α → Prop} {sep : List α} {xs : List (List α)}
    (hsep : ∀ a ∈ sep, P a) (hxs : ∀ x ∈ xs, ∀ a ∈ x, P a) : ∀ a ∈ List.intercalate sep xs, P a := by
  intro a ha
  induction xs with
  | nil => cases ha
  | cons x xs ih =>
      have hx := hxs x List.mem_cons_self
      have hrest := fun y hy => hxs y (List.mem_cons_of_mem _ hy)
      by_cases hne : xs = []
      · subst hne
        rw [List.intercalate_singleton] at ha
        exact hx a ha
      · rw [List.intercalate_cons_of_ne_nil hne] at ha
        rcases List.mem_append.mp ha with ha | ha
        · exact (List.mem_append.mp ha).elim (hx a) (hsep a)
        · exact ih hrest ha

theorem nameText_plain {labels : List Label} (h : Plain labels) :
    nameText (labels.map decodeAscii) = dotted labels := by
  have hdecode : labels.map decodeAscii
      = labels.map fun l => l.map fun b => Char.ofNat b.toNat := by
    refine List.map_congr_left fun l hl => List.map_congr_left fun b hb => ?_
    exact if_pos (h.ascii l hl b hb)
  have hall : ∀ cs ∈ labels.map fun l => l.map fun b => Char.ofNat b.toNat, ∀ c ∈ cs,
      c.toNat < 128 := by
    intro cs hcs c hc
    obtain ⟨l, hl, rfl⟩ := List.mem_map.mp hcs
    obtain ⟨b, hb, rfl⟩ := List.mem_map.mp hc
    rw [toNat_ascii (h.ascii l hl b hb)]
    exact h.ascii l hl b hb
  rw [nameText, dotted, hdecode]
  have hchars := forall_mem_intercalate (show ∀ c ∈ ['.'], c.toNat < 128 by decide) hall
  rw [List.flatMap_congr fun c hc => lowerChar_ascii (hchars c hc),
    List.map_eq_flatMap (f := Char.toLower)]

/-- The text of a name is shorter than the name by two. -/
theorem length_dotted {labels : List Label} (hne : labels ≠ []) :
    (dotted labels).length + 2 = octets labels := by
  induction labels with
  | nil => exact absurd rfl hne
  | cons l labels ih =>
      by_cases hrest : labels = []
      · subst hrest
        simp [dotted, octets]
      · have hlength := ih hrest
        simp only [dotted, List.length_map] at hlength
        rw [octets_cons, dotted, List.length_map, List.map_cons,
          List.intercalate_cons_of_ne_nil (by simpa using hrest)]
        simp only [List.length_append, List.length_map, List.length_singleton]
        omega

theorem take_dotted {labels : List Label} (h : Plain labels) :
    (dotted labels).take 253 = dotted labels := by
  refine List.take_of_length_le ?_
  by_cases hne : labels = []
  · rw [hne]
    decide
  · have hlength := length_dotted hne
    have hsize := h.size
    omega

theorem readName_name {off next pointers : Nat} {labels : List Label}
    (h : NameAt msg off labels next pointers) (hplain : Plain labels) (hbounded : pointers ≤ 16) :
    readName outside msg off = .ok (dotted labels, next) := by
  have hread := readNameFrom_name outside h 0 none [] (by omega)
    (by simpa using length_labels_le h hplain)
  rw [readName, hread, List.nil_append, nameText_plain hplain]
  rfl

theorem skipQuestions_exact {count off stop : Nat} (h : QuestionsAt msg count off stop) :
    skipQuestions outside msg count off = .ok stop := by
  induction h with
  | nil => rfl
  | cons name plain bounded inside rest ih =>
      rw [skipQuestions, readName_name outside name plain bounded, ok_bind]
      exact ih

theorem next_gt {off next pointers : Nat} {labels : List Label}
    (h : NameAt msg off labels next pointers) : off < next := by
  induction h with
  | root => omega
  | label inside size rest ih => omega
  | pointer => omega

theorem readAnswers_exact {off stop : Nat} {rs : List Record} (h : RecordsAt msg off rs stop) :
    readAnswers outside msg rs.length off = .ok (rs.filterMap answerOf) := by
  induction h with
  | nil => rfl
  | @cons off next stop r rs first rest ih =>
      rw [List.length_cons, readAnswers_succ]
      cases first with
      | @srv data size pointers target head name plain bounded =>
          obtain ⟨owner, k, hname, hplain, hbounded⟩ := head.owner
          have hinside := head.inside
          have hsize := next_gt name
          rw [readName_name outside hname hplain hbounded, ok_bind]
          dsimp only
          rw [if_neg (by omega), head.size_is, if_neg (by omega),
            if_pos ⟨head.type_is, show 7 ≤ size by omega⟩, readAnswer_inside _ (by omega),
            readName_name outside name plain bounded, ih]
          simp only [Except.map, ok_bind, take_dotted plain, List.filterMap_cons, answerOf]
          rfl
      | @other data type size head type_ne =>
          obtain ⟨owner, k, hname, hplain, hbounded⟩ := head.owner
          have hinside := head.inside
          have htype : ¬(wordAt msg data = QTYPE_SRV ∧ 7 ≤ size) := fun hsrv =>
            type_ne (head.type_is.symm.trans hsrv.1)
          rw [readName_name outside hname hplain hbounded, ok_bind]
          dsimp only
          rw [if_neg (by omega), head.size_is, if_neg (by omega), if_neg htype, ih]
          rfl

theorem response_bit {flags : Nat} (h : flags / 32768 % 2 = 1) : flags &&& 0x8000 ≠ 0 := by
  have hbit : flags.testBit 15 = true := by
    rw [Nat.testBit_eq_decide_div_mod_eq]
    exact decide_eq_true h
  intro hzero
  have hand : (flags &&& 0x8000).testBit 15 = true := by
    rw [Nat.testBit_and, hbit]
    decide
  rw [hzero] at hand
  cases hand

end Exact

/-- **The parser ends with an answer or its own exception and never looks
outside the message; what a well-formed response says is what it answers.** -/
theorem parseSrvResponse_exact (msg : List UInt8) (qid : Nat) :
    Safe (parseSrvResponse msg qid)
      ∧ (∀ outside, parseSrvResponseWith outside msg qid = parseSrvResponse msg qid)
      ∧ ∀ answers, ResponseTo qid msg answers → parseSrvResponse msg qid
          = .ok (rcodeText (wordAt msg 2 &&& 0x000F), answers.filterMap answerOf) := by
  refine ⟨(parseSrvResponseWith_safe cut qid).1, fun outside => (parseSrvResponseWith_safe outside qid).2,
    fun answers h => ?_⟩
  obtain ⟨start, stop, hquestions, hrecords⟩ := h.sections
  have hcount : min (wordAt msg 6) MAX_ANSWERS = answers.length := by
    rw [h.answer_count]
    exact Nat.min_eq_left h.few_answers
  rw [parseSrvResponse, parseSrvResponseWith_header cut h.header, if_neg ?_,
    Nat.min_eq_left h.few_questions, skipQuestions_exact cut hquestions, ok_bind, hcount,
    readAnswers_exact cut hrecords]
  · rfl
  · rintro (hid | hbit)
    · exact hid h.id
    · exact response_bit h.response hbit

/-! ## A compressed response -/

namespace Compressed

/-- A question for `_ldap._tcp.ipa.test`, a service of it at
`IPA1.ipa.test`, and an address. -/
def message : List UInt8 :=
  [0x12, 0x34, 0x81, 0x80, 0, 1, 0, 2, 0, 0, 0, 0,
    5, 0x5f, 0x6c, 0x64, 0x61, 0x70, 4, 0x5f, 0x74, 0x63, 0x70,
    3, 0x69, 0x70, 0x61, 4, 0x74, 0x65, 0x73, 0x74, 0, 0, 33, 0, 1,
    0xc0, 12, 0, 33, 0, 1, 0, 0, 14, 16, 0, 13, 0, 0, 0, 100, 1, 0x85,
    4, 0x49, 0x50, 0x41, 0x31, 0xc0, 23,
    0xc0, 23, 0, 1, 0, 1, 0, 0, 14, 16, 0, 4, 192, 0, 2, 1]

def domain : List Label := [[0x69, 0x70, 0x61], [0x74, 0x65, 0x73, 0x74]]

def host : List Label := [0x49, 0x50, 0x41, 0x31] :: domain

def service : List Label := [0x5f, 0x6c, 0x64, 0x61, 0x70] :: [0x5f, 0x74, 0x63, 0x70] :: domain

theorem domain_at : NameAt message 23 domain 33 0 :=
  .label (by decide) (by decide)
    (.label (by decide) (by decide) (.root (by decide) (by decide)))

theorem service_at : NameAt message 12 service 33 0 :=
  .label (by decide) (by decide) (.label (by decide) (by decide) domain_at)

theorem service_pointer : NameAt message 37 service 39 1 :=
  .pointer (by decide) (by decide) (by decide) service_at

theorem host_at : NameAt message 55 host 62 1 :=
  .label (by decide) (by decide)
    (.pointer (by decide) (by decide) (by decide) domain_at)

theorem domain_pointer : NameAt message 62 domain 64 1 :=
  .pointer (by decide) (by decide) (by decide) domain_at

theorem service_plain : Plain service := ⟨by decide, by decide⟩

theorem domain_plain : Plain domain := ⟨by decide, by decide⟩

theorem host_plain : Plain host := ⟨by decide, by decide⟩

theorem response : ResponseTo 0x1234 message [.srv 0 100 389 host, .other 1] where
  header := by decide
  id := by decide
  response := by decide
  few_questions := by decide
  answer_count := by decide
  few_answers := by decide
  sections := ⟨37, 78, .cons service_at service_plain (by decide) (by decide) .nil,
    .cons (.srv ⟨⟨_, _, service_pointer, service_plain, by decide⟩, rfl, rfl, by decide⟩ host_at host_plain (by decide))
      (.cons (.other ⟨⟨_, _, domain_pointer, domain_plain, by decide⟩, rfl, rfl, by decide⟩
        (by decide)) .nil)⟩

end Compressed

/-- A target whose name goes on in the question is read in full. -/
theorem compressed_response_read : parseSrvResponse Compressed.message 0x1234
    = .ok ("NOERROR", [⟨0, 100, 389, "ipa1.ipa.test"⟩]) := by
  rw [(parseSrvResponse_exact _ _).2.2 _ Compressed.response]
  decide +kernel

end IpaDiagnose.Client.Dnsq
