import Mathlib.Algebra.BigOperators.Group.List.Basic
import Mathlib.Algebra.GroupWithZero.Nat

/-!
# DNS messages

What a message in DNS wire format says. A name is a sequence of labels
that may go on elsewhere in the message: a compression pointer takes the
rest of it from an earlier place. The relations say which name, question
or record stands at an offset and where the next thing starts, for any
way of compressing names.
-/

namespace DnsWire

abbrev Label := List UInt8

/-- Bytes of a message: fewer, where it ends. -/
def bytesAt (msg : List UInt8) (off n : Nat) : List UInt8 := (msg.drop off).take n

def byteAt (msg : List UInt8) (off : Nat) : Nat := (msg.getD off 0).toNat

/-- Two bytes, the higher one first. -/
def wordAt (msg : List UInt8) (off : Nat) : Nat := byteAt msg off * 256 + byteAt msg (off + 1)

theorem byteAt_lt (msg : List UInt8) (off : Nat) : byteAt msg off < 256 := UInt8.toNat_lt _

theorem length_bytesAt {msg : List UInt8} {off n : Nat} (h : off + n ≤ msg.length) :
    (bytesAt msg off n).length = n := by
  simp only [bytesAt, List.length_take, List.length_drop]
  omega

/-- Bytes within the message, one after the other. -/
theorem bytesAt_succ {msg : List UInt8} {off n : Nat} (h : off < msg.length) :
    bytesAt msg off (n + 1) = msg.getD off 0 :: bytesAt msg (off + 1) n := by
  have hfirst : msg.getD off 0 = msg[off] := by simp [h]
  rw [bytesAt, List.drop_eq_getElem_cons h, List.take_succ_cons, bytesAt, hfirst]

/-! ## Names -/

/-- The name at an offset, where it ends, and how many pointers it takes. -/
inductive NameAt (msg : List UInt8) : Nat → List Label → Nat → Nat → Prop
  | root {off : Nat} (inside : off < msg.length) (zero : byteAt msg off = 0) :
      NameAt msg off [] (off + 1) 0
  | label {off next pointers : Nat} {labels : List Label}
      (inside : off + 1 + byteAt msg off ≤ msg.length)
      (size : 0 < byteAt msg off ∧ byteAt msg off < 64)
      (rest : NameAt msg (off + 1 + byteAt msg off) labels next pointers) :
      NameAt msg off (bytesAt msg (off + 1) (byteAt msg off) :: labels) next pointers
  | pointer {off next pointers : Nat} {labels : List Label}
      (inside : off + 1 < msg.length) (mark : 192 ≤ byteAt msg off)
      (back : (byteAt msg off - 192) * 256 + byteAt msg (off + 1) < off)
      (rest : NameAt msg ((byteAt msg off - 192) * 256 + byteAt msg (off + 1)) labels next pointers) :
      NameAt msg off labels (off + 2) (pointers + 1)

/-- The length of a name that is not compressed. -/
def octets (labels : List Label) : Nat := (labels.map fun l => l.length + 1).sum + 1

theorem octets_cons (l : Label) (labels : List Label) :
    octets (l :: labels) = l.length + 1 + octets labels := by
  simp only [octets, List.map_cons, List.sum_cons]
  omega

/-- A name of ASCII labels, no longer than names may be. -/
structure Plain (labels : List Label) : Prop where
  size : octets labels ≤ 255
  ascii : ∀ l ∈ labels, ∀ b ∈ l, b.toNat < 128

/-- A statement about the bytes of a label is decided along the label. -/
instance (priority := high) decidableForallMem {p : UInt8 → Prop} [DecidablePred p]
    {l : Label} : Decidable (∀ b ∈ l, p b) :=
  List.decidableBAll p l

theorem NameAt.labels_ne_nil {msg : List UInt8} {off next pointers : Nat} {labels : List Label}
    (h : NameAt msg off labels next pointers) : ∀ l ∈ labels, 0 < l.length := by
  induction h with
  | root => simp
  | label inside size rest ih =>
      intro l hl
      rcases List.mem_cons.mp hl with rfl | hl
      · rw [length_bytesAt inside]
        exact size.1
      · exact ih l hl
  | pointer inside mark back rest ih => exact ih

/-- No label is empty, so that there are not many. -/
theorem two_mul_length_lt {labels : List Label} (h : ∀ l ∈ labels, 0 < l.length) :
    2 * labels.length < octets labels := by
  induction labels with
  | nil => decide
  | cons l labels ih =>
      have hl := h l List.mem_cons_self
      have hrest := ih fun l hl => h l (List.mem_cons_of_mem _ hl)
      rw [octets_cons, List.length_cons]
      omega

/-! ## Sections -/

/-- Questions one after the other: a name, a type and a class each. -/
inductive QuestionsAt (msg : List UInt8) : Nat → Nat → Nat → Prop
  | nil {off : Nat} : QuestionsAt msg 0 off off
  | cons {count off next stop pointers : Nat} {labels : List Label}
      (name : NameAt msg off labels next pointers) (plain : Plain labels)
      (bounded : pointers ≤ 16) (inside : next + 4 ≤ msg.length)
      (rest : QuestionsAt msg count (next + 4) stop) : QuestionsAt msg (count + 1) off stop

/-- A resource record, as far as it matters which service it names. -/
inductive Record where
  | srv (priority weight port : Nat) (target : List Label)
  | other (type : Nat)

def SRV : Nat := 33

/-- What stands before the data of a record: the owner's name up to
`next`, the type and, behind class and time to live, the size of the data. -/
structure HeadAt (msg : List UInt8) (off next type size : Nat) : Prop where
  owner : ∃ labels pointers, NameAt msg off labels next pointers ∧ Plain labels ∧ pointers ≤ 16
  type_is : wordAt msg next = type
  size_is : wordAt msg (next + 8) = size
  inside : next + 10 + size ≤ msg.length

/-- The record at an offset, and where the next one is. The target of a
service fills the rest of the data. -/
inductive RecordAt (msg : List UInt8) : Nat → Record → Nat → Prop
  | srv {off next size pointers : Nat} {target : List Label} (head : HeadAt msg off next SRV size)
      (name : NameAt msg (next + 16) target (next + 10 + size) pointers) (plain : Plain target)
      (bounded : pointers ≤ 16) :
      RecordAt msg off (.srv (wordAt msg (next + 10)) (wordAt msg (next + 12))
        (wordAt msg (next + 14)) target) (next + 10 + size)
  | other {off next type size : Nat} (head : HeadAt msg off next type size) (type_ne : type ≠ SRV) :
      RecordAt msg off (.other type) (next + 10 + size)

inductive RecordsAt (msg : List UInt8) : Nat → List Record → Nat → Prop
  | nil {off : Nat} : RecordsAt msg off [] off
  | cons {off next stop : Nat} {r : Record} {rs : List Record} (first : RecordAt msg off r next)
      (rest : RecordsAt msg next rs stop) : RecordsAt msg off (r :: rs) stop

/-- A response to a query: its question section and its answer section,
whatever follows them. -/
structure ResponseTo (qid : Nat) (msg : List UInt8) (answers : List Record) : Prop where
  header : 12 ≤ msg.length
  id : wordAt msg 0 = qid
  response : wordAt msg 2 / 32768 % 2 = 1
  few_questions : wordAt msg 4 ≤ 4
  answer_count : wordAt msg 6 = answers.length
  few_answers : answers.length ≤ 32
  sections : ∃ start stop, QuestionsAt msg (wordAt msg 4) 12 start
    ∧ RecordsAt msg start answers stop

end DnsWire
