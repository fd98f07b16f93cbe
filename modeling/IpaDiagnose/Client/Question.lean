import IpaDiagnose.Client.Dnsq

/-!
# The question of an SRV query

What `query_srv` writes in front of the wire: the name, label by label, in
a question of class IN. A name that can be written is read back by the
parser of the answers, in lower case and without a dot at its end, wherever
in a message it stands.
-/

namespace IpaDiagnose.Client.Dnsq

open DnsWire
open Result

/-! ## Writing a name -/

/-- `label.encode("ascii")` -/
def encodeAscii (label : List Char) : Except E (List UInt8) :=
  if label.all (·.toNat < 128) then .ok (label.map fun c => UInt8.ofNat c.toNat)
  else .error .valueError

def encodeLabels : List (List Char) → Except E (List UInt8)
  | [] => .ok []
  | label :: labels => do
      let raw ← encodeAscii label
      if 0 < raw.length ∧ raw.length < 64 then do
        let rest ← encodeLabels labels
        pure (UInt8.ofNat raw.length :: raw ++ rest)
      else dnsError "invalid label"

/-- `name.rstrip(".")` -/
def undotted (name : String) : List Char := PyStr.rstripChars (· == '.') name.toList

def encodeName (name : String) : Except E (List UInt8) := do
  let out ← encodeLabels ((undotted name).splitOn '.')
  pure (out ++ [0])

/-- A word of two bytes, the higher one first. -/
def word (n : Nat) : List UInt8 := [UInt8.ofNat (n / 256), UInt8.ofNat (n % 256)]

/-- `struct.pack("!HHHHHH", qid, 0x0100, 1, 0, 0, 0)` -/
def queryHeader (qid : Nat) : List UInt8 :=
  word qid ++ word 0x0100 ++ word 1 ++ word 0 ++ word 0 ++ word 0

/-- `struct.pack("!HH", _QTYPE_SRV, 1)` -/
def questionTail : List UInt8 := word QTYPE_SRV ++ word 1

def queryPacket (qid : Nat) (name : String) : Except E (List UInt8) := do
  let encoded ← encodeName name
  pure (queryHeader qid ++ encoded ++ questionTail)

/-! ## What can be written -/

/-- A label of a name that can be written. -/
def LabelFits (label : List Char) : Prop :=
  (∀ c ∈ label, c.toNat < 128) ∧ 0 < label.length ∧ label.length < 64

/-- The bytes of a label. -/
def asciiBytes (label : List Char) : Label := label.map fun c => UInt8.ofNat c.toNat

theorem encodeAscii_ok {label : List Char} (h : ∀ c ∈ label, c.toNat < 128) :
    encodeAscii label = .ok (asciiBytes label) := by
  rw [encodeAscii, if_pos]
  · rfl
  · simpa [List.all_eq_true] using h

theorem encodeLabels_cons {label : List Char} {labels : List (List Char)} {out : List UInt8}
    (h : encodeLabels (label :: labels) = .ok out) :
    LabelFits label ∧ ∃ rest, encodeLabels labels = .ok rest
      ∧ out = UInt8.ofNat label.length :: asciiBytes label ++ rest := by
  rw [encodeLabels] at h
  by_cases hascii : ∀ c ∈ label, c.toNat < 128
  · rw [encodeAscii_ok hascii, ok_bind, asciiBytes, List.length_map] at h
    by_cases hsize : 0 < label.length ∧ label.length < 64
    · rw [if_pos hsize] at h
      cases hrest : encodeLabels labels with
      | error e =>
          rw [hrest] at h
          cases h
      | ok rest =>
          rw [hrest] at h
          exact ⟨⟨hascii, hsize⟩, rest, rfl, (Except.ok.inj h).symm⟩
    · rw [if_neg hsize] at h
      cases h
  · rw [encodeAscii, if_neg] at h
    · cases h
    · simpa [List.all_eq_true] using hascii

theorem encodeLabels_ok {labels : List (List Char)} (h : ∀ l ∈ labels, LabelFits l) :
    ∃ out, encodeLabels labels = .ok out := by
  induction labels with
  | nil => exact ⟨[], rfl⟩
  | cons label labels ih =>
      obtain ⟨hascii, hsize⟩ := h label List.mem_cons_self
      obtain ⟨rest, hrest⟩ := ih fun l hl => h l (List.mem_cons_of_mem _ hl)
      refine ⟨UInt8.ofNat label.length :: asciiBytes label ++ rest, ?_⟩
      rw [encodeLabels, encodeAscii_ok hascii, ok_bind, asciiBytes, List.length_map, if_pos hsize,
        hrest]
      rfl

theorem encodeLabels_fits {labels : List (List Char)} {out : List UInt8}
    (h : encodeLabels labels = .ok out) : ∀ l ∈ labels, LabelFits l := by
  induction labels generalizing out with
  | nil => exact fun l hl => absurd hl List.not_mem_nil
  | cons label labels ih =>
      obtain ⟨hfits, rest, hrest, -⟩ := encodeLabels_cons h
      intro l hl
      rcases List.mem_cons.mp hl with rfl | hl
      · exact hfits
      · exact ih hrest l hl

/-! ## Reading it back -/

theorem toNat_byte {n : Nat} (h : n < 256) : (UInt8.ofNat n).toNat = n := by
  rw [UInt8.toNat_ofNat']
  exact Nat.mod_eq_of_lt h

theorem getD_append_cons (pre post : List UInt8) (b : UInt8) :
    (pre ++ b :: post).getD pre.length 0 = b := by
  simp

theorem byteAt_here (pre post : List UInt8) (n : Nat) (h : n < 256) :
    byteAt (pre ++ UInt8.ofNat n :: post) pre.length = n := by
  rw [byteAt, getD_append_cons, toNat_byte h]

theorem bytesAt_here (pre bytes post : List UInt8) (b : UInt8) :
    bytesAt (pre ++ b :: (bytes ++ post)) (pre.length + 1) bytes.length = bytes := by
  have hsplit : pre ++ b :: (bytes ++ post) = (pre ++ [b]) ++ (bytes ++ post) := by simp
  have hlen : (pre ++ [b]).length = pre.length + 1 := by simp
  rw [bytesAt, hsplit, ← hlen, List.drop_left, List.take_left]

/-- A label that was written in front of a name is its first label. -/
theorem nameAt_label {labels : List Label} {next pointers : Nat} (pre bytes tail : List UInt8)
    (hsize : 0 < bytes.length ∧ bytes.length < 64)
    (h : NameAt (pre ++ UInt8.ofNat bytes.length :: (bytes ++ tail))
      (pre.length + 1 + bytes.length) labels next pointers) :
    NameAt (pre ++ UInt8.ofNat bytes.length :: (bytes ++ tail)) pre.length (bytes :: labels)
      next pointers := by
  have hbyte := byteAt_here pre (bytes ++ tail) bytes.length (by omega)
  have hinside : pre.length + 1 + byteAt (pre ++ UInt8.ofNat bytes.length :: (bytes ++ tail))
      pre.length ≤ (pre ++ UInt8.ofNat bytes.length :: (bytes ++ tail)).length := by
    rw [hbyte]
    simp
    omega
  have hstep := NameAt.label hinside (by rw [hbyte]; exact hsize) (by rw [hbyte]; exact h)
  rwa [hbyte, bytesAt_here] at hstep

/-- The labels that were written stand in the message, and end with the
byte that ends a name. -/
theorem encodeLabels_nameAt {labels : List (List Char)} {out : List UInt8}
    (h : encodeLabels labels = .ok out) (pre post : List UInt8) :
    NameAt (pre ++ (out ++ 0 :: post)) pre.length (labels.map asciiBytes)
      (pre.length + out.length + 1) 0 ∧ octets (labels.map asciiBytes) = out.length + 1 := by
  induction labels generalizing out pre with
  | nil =>
      obtain rfl := Except.ok.inj h
      refine ⟨.root ?_ ?_, rfl⟩
      · simp
      · exact byteAt_here pre post 0 (by decide)
  | cons label labels ih =>
      obtain ⟨⟨-, hsize⟩, rest, hrest, rfl⟩ := encodeLabels_cons h
      have hlen : (asciiBytes label).length = label.length := by rw [asciiBytes, List.length_map]
      rw [← hlen] at hsize ⊢
      obtain ⟨hname, hoctets⟩ :=
        ih hrest (pre ++ UInt8.ofNat (asciiBytes label).length :: asciiBytes label)
      have hnext : (pre ++ UInt8.ofNat (asciiBytes label).length :: asciiBytes label).length
          = pre.length + 1 + (asciiBytes label).length := by
        rw [List.length_append, List.length_cons]
        omega
      have hend : pre.length + 1 + (asciiBytes label).length + rest.length + 1
          = pre.length + (UInt8.ofNat (asciiBytes label).length :: asciiBytes label
            ++ rest).length + 1 := by
        rw [List.length_append, List.length_cons]
        omega
      rw [hnext, hend, List.append_assoc, List.cons_append] at hname
      refine ⟨?_, ?_⟩
      · rw [List.append_assoc, List.cons_append]
        exact nameAt_label pre (asciiBytes label) (rest ++ 0 :: post) hsize hname
      · rw [List.map_cons, octets_cons, hoctets, List.length_append, List.length_cons]
        omega

theorem ofNat_asciiBytes {label : List Char} (h : ∀ c ∈ label, c.toNat < 128) :
    (asciiBytes label).map (fun b => Char.ofNat b.toNat) = label := by
  rw [asciiBytes, List.map_map]
  refine (List.map_congr_left fun c hc => ?_).trans (List.map_id label)
  show Char.ofNat (UInt8.ofNat c.toNat).toNat = c
  have hlt := h c hc
  rw [toNat_byte (by omega), Char.ofNat_toNat]

theorem asciiBytes_lt {label : List Char} (h : ∀ c ∈ label, c.toNat < 128) :
    ∀ b ∈ asciiBytes label, b.toNat < 128 := by
  intro b hb
  obtain ⟨c, hc, rfl⟩ := List.mem_map.mp hb
  have hlt := h c hc
  rwa [toNat_byte (by omega)]

/-- What was read of a name that was written: the name in lower case. -/
theorem dotted_encoded {name : String}
    (h : ∀ l ∈ (undotted name).splitOn '.', LabelFits l) :
    dotted (((undotted name).splitOn '.').map asciiBytes) = (undotted name).map Char.toLower := by
  have hback : (((undotted name).splitOn '.').map asciiBytes).map
      (fun l => l.map fun b => Char.ofNat b.toNat) = (undotted name).splitOn '.' := by
    rw [List.map_map]
    refine (List.map_congr_left fun l hl => ?_).trans (List.map_id _)
    exact ofNat_asciiBytes (h l hl).1
  rw [dotted, hback, List.intercalate_splitOn]

theorem encodeName_labels {name : String} {out : List UInt8} (h : encodeName name = .ok out) :
    ∃ body, encodeLabels ((undotted name).splitOn '.') = .ok body ∧ out = body ++ [0] := by
  rw [encodeName] at h
  cases hlabels : encodeLabels ((undotted name).splitOn '.') with
  | error e =>
      rw [hlabels] at h
      cases h
  | ok body =>
      rw [hlabels] at h
      exact ⟨body, rfl, (Except.ok.inj h).symm⟩

theorem encodeName_ok {name : String} (h : ∀ l ∈ (undotted name).splitOn '.', LabelFits l) :
    ∃ out, encodeName name = .ok out := by
  obtain ⟨body, hbody⟩ := encodeLabels_ok h
  exact ⟨body ++ [0], by rw [encodeName, hbody]; rfl⟩

theorem readName_encoded (outside : Outside) {name : String} {out : List UInt8}
    (h : encodeName name = .ok out) (hshort : out.length ≤ 255) (pre post : List UInt8) :
    readName outside (pre ++ (out ++ post)) pre.length
      = .ok ((undotted name).map Char.toLower, pre.length + out.length) := by
  obtain ⟨body, hlabels, rfl⟩ := encodeName_labels h
  obtain ⟨hname, hoctets⟩ := encodeLabels_nameAt hlabels pre post
  have hfits := encodeLabels_fits hlabels
  rw [List.length_append, List.length_singleton] at hshort ⊢
  have hplain : Plain (((undotted name).splitOn '.').map asciiBytes) := by
    refine ⟨?_, fun l hl => ?_⟩
    · rw [hoctets]
      exact hshort
    · obtain ⟨label, hlabel, rfl⟩ := List.mem_map.mp hl
      exact asciiBytes_lt (hfits label hlabel).1
  have hat := readName_name outside hname hplain (Nat.zero_le 16)
  rw [dotted_encoded hfits] at hat
  rw [List.append_assoc body, List.singleton_append, ← Nat.add_assoc]
  exact hat

/-- A name of which each label is ASCII of 1 to 63 characters can be
written, and no other. Of at most 255 bytes, it is read back in lower case
wherever it stands; the packet asks one question, and an answer that
repeats it behind a header of its own is read on from behind it. -/
theorem encodeName_read (outside : Outside) (name : String) :
    ((∃ out, encodeName name = .ok out) ↔ ∀ l ∈ (undotted name).splitOn '.', LabelFits l)
      ∧ ∀ out, encodeName name = .ok out → out.length ≤ 255 →
        (∀ pre post, readName outside (pre ++ (out ++ post)) pre.length
          = .ok ((undotted name).map Char.toLower, pre.length + out.length))
        ∧ ∀ header answers, header.length = 12 →
          skipQuestions outside (header ++ (out ++ (questionTail ++ answers))) 1 12
            = .ok (12 + out.length + 4)
              ∧ ∀ qid, queryPacket qid name = .ok (queryHeader qid ++ (out ++ questionTail)) := by
  refine ⟨⟨?_, encodeName_ok⟩, fun out h hshort => ?_⟩
  · rintro ⟨out, h⟩
    obtain ⟨body, hlabels, -⟩ := encodeName_labels h
    exact encodeLabels_fits hlabels
  · have hread := readName_encoded outside h hshort
    refine ⟨hread, fun header answers hheader => ?_⟩
    have hquestion := hread header (questionTail ++ answers)
    rw [hheader] at hquestion
    refine ⟨?_, fun qid => ?_⟩
    · rw [skipQuestions, hquestion, ok_bind]
      rfl
    · rw [queryPacket, h, ok_bind, List.append_assoc]
      rfl

/-- A query for a name with capitals and a dot at its end. -/
theorem encodeName_read_ldap (outside : Outside) :
    encodeName "_ldap._tcp.IPA.Test." = .ok [5, 95, 108, 100, 97, 112, 4, 95, 116, 99, 112, 3, 73, 80, 65,
        4, 84, 101, 115, 116, 0]
      ∧ readName outside ([7] ++ ([5, 95, 108, 100, 97, 112, 4, 95, 116, 99, 112, 3, 73, 80, 65,
        4, 84, 101, 115, 116, 0] ++ [])) 1 = .ok ("_ldap._tcp.ipa.test".toList, 22) := by
  have hencoded : encodeName "_ldap._tcp.IPA.Test." = .ok [5, 95, 108, 100, 97, 112, 4, 95, 116, 99,
      112, 3, 73, 80, 65, 4, 84, 101, 115, 116, 0] := by
    decide
  refine ⟨hencoded, ?_⟩
  exact ((encodeName_read outside "_ldap._tcp.IPA.Test.").2 _ hencoded (by decide)).1 [7] []

end IpaDiagnose.Client.Dnsq
