import IpaDiagnose.Lib.RegexWords
import IpaDiagnose.Resolution.Types

/-!
# Typed values are safe for commands

A value that validates is put into a printed command and into the checks,
and `verify` validates it again. Its text must hold no control character,
quote or other character a shell gives a meaning to, must not read as an
option, and must come back unchanged. The patterns keep to such texts; a
port number is the exception, for it is read with the digits of every
script.
-/

namespace IpaDiagnose.T

open Py (Value Exc)
open Regex (Re iter_cls_sound)

/-! ## Safe texts -/

/-- Letters, digits, spaces and the punctuation of names, paths and DNs. -/
def plainChar (c : Char) : Bool := Unicode.isAsciiAlnum c || " ._-@+/:=,".toList.contains c

/-- A text that a command line takes as one plain word: plain characters
and at most one `$`, at its end. -/
structure SafeText (s : String) : Prop where
  nonempty : s.toList ≠ []
  plain : ∃ body tail, s.toList = body ++ tail ∧ (∀ c ∈ body, plainChar c = true)
    ∧ (tail = [] ∨ tail = ['$'])
  noOption : s.toList.head? ≠ some '-'

theorem SafeText.of_plain {s : String} {x : Char} (hhead : s.toList.head? = some x)
    (hx : x ≠ '-') (h : ∀ c ∈ s.toList, plainChar c = true) : SafeText s where
  nonempty hnil := by rw [hnil] at hhead; cases hhead
  plain := ⟨s.toList, [], by rw [List.append_nil], h, .inl rfl⟩
  noOption hdash := hx (by rw [hhead] at hdash; exact Option.some.inj hdash)

/-! ## The characters of the patterns -/

theorem plain_alnum {x : Char} (h : alnumC x = true) : plainChar x = true := by
  rw [plainChar]
  exact Bool.or_eq_true_iff.mpr (.inl h)

theorem alnum_ne_dash {x : Char} (h : alnumC x = true) : x ≠ '-' := by
  rintro rfl
  revert h
  decide

theorem alnum_of_lower {x : Char} (h : Regex.lower x = true) : alnumC x = true := by
  simp only [Regex.lower, alnumC, Unicode.isAsciiAlnum, Bool.or_eq_true, Bool.and_eq_true,
    decide_eq_true_eq] at h ⊢
  omega

theorem alnum_of_digit {x : Char} (h : Regex.digit x = true) : alnumC x = true := by
  simp only [Regex.digit, alnumC, Unicode.isAsciiAlnum, Bool.or_eq_true, Bool.and_eq_true,
    decide_eq_true_eq] at h ⊢
  omega

theorem alnum_of_upper {x : Char} (h : Regex.upper x = true) : alnumC x = true := by
  simp only [Regex.upper, alnumC, Unicode.isAsciiAlnum, Bool.or_eq_true, Bool.and_eq_true,
    decide_eq_true_eq] at h ⊢
  omega

theorem alnum_of_lowerDigit {x : Char} (h : lowerDigit x = true) : alnumC x = true :=
  (Bool.or_eq_true_iff.mp h).elim alnum_of_lower alnum_of_digit

theorem alnum_of_upperDigit {x : Char} (h : upperDigit x = true) : alnumC x = true :=
  (Bool.or_eq_true_iff.mp h).elim alnum_of_upper alnum_of_digit

/-! ## Patterns over plain characters -/

/-- A pattern that reads plain characters only. -/
def Over (r : Re) : Prop := ∀ x, r.Reads x → plainChar x = true

/-- And whose matches begin with one that does not make an option. -/
structure Plain (r : Re) : Prop where
  consumes : r.consumes = true
  chars : Over r
  heads : ∀ x, r.Heads x → x ≠ '-'

theorem Plain.safe {r : Re} (hr : Plain r) {s : String} (h : r.fullmatch s = true) :
    SafeText s := by
  obtain ⟨x, hx, hhead⟩ := Re.fullmatch_heads hr.consumes h
  exact .of_plain hx (hr.heads x hhead) fun c hc => hr.chars c (Re.fullmatch_reads h c hc)

section Patterns

variable {a b r : Re} {p : Char → Bool}

theorem Over.seq (ha : Over a) (hb : Over b) : Over (.seq a b) :=
  fun x hx => hx.elim (ha x) (hb x)

theorem Over.rep {greedy : Bool} {lo : Nat} {hi : Option Nat} (hr : Over r) :
    Over (.rep greedy lo hi r) := fun x hx => hr x hx

theorem Over.alnum (hp : ∀ x, p x = true → alnumC x = true) : Over (.cls p) :=
  fun x hx => plain_alnum (hp x hx)

theorem Over.among {s : String} (hs : s.toList.all plainChar = true) : Over (.oneOf s) :=
  fun x hx => List.all_eq_true.mp hs x (by simpa [Re.oneOf, Re.Reads] using hx)

/-- A class of alphanumeric characters and some plain ones. -/
theorem Over.cls {s : String} (hp : ∀ x, p x = true → alnumC x = true)
    (hs : s.toList.all plainChar = true) : Over (oneOfClass p s) := by
  intro x hx
  rcases Bool.or_eq_true_iff.mp hx with h | h
  · exact plain_alnum (hp x h)
  · exact List.all_eq_true.mp hs x (by simpa using h)

theorem Over.lit {s : String} (hs : s.toList.all plainChar = true) : Over (.lit s) := by
  unfold Re.lit
  generalize s.toList = cs at hs
  induction cs with
  | nil => exact fun _ => False.elim
  | cons c cs ih =>
      rw [List.all_cons, Bool.and_eq_true] at hs
      have hc : Over (Re.char c) := by
        intro x hx
        obtain rfl := beq_iff_eq.mp hx
        exact hs.1
      cases cs with
      | nil => exact hc
      | cons d cs => exact hc.seq (ih hs.2)

theorem Plain.seq (ha : Plain a) (hb : Over b) : Plain (.seq a b) where
  consumes := by rw [Re.consumes, ha.consumes, Bool.true_or]
  chars := ha.chars.seq hb
  heads x hx := hx.elim (ha.heads x) fun h => absurd h.1 (by simp [ha.consumes])

theorem Plain.alnum (hp : ∀ x, p x = true → alnumC x = true) : Plain (.cls p) where
  consumes := rfl
  chars := .alnum hp
  heads x hx := alnum_ne_dash (hp x hx)

theorem Plain.char {c : Char} (hc : plainChar c = true) (hdash : c ≠ '-') : Plain (.char c) where
  consumes := rfl
  chars x hx := by
    obtain rfl := beq_iff_eq.mp hx
    exact hc
  heads x hx := by
    obtain rfl := beq_iff_eq.mp hx
    exact hdash

theorem Plain.among {s : String} (hs : s.toList.all plainChar = true)
    (hdash : s.toList.contains '-' = false) : Plain (.oneOf s) where
  consumes := rfl
  chars := .among hs
  heads x hx hx' := by
    subst hx'
    rw [show s.toList.contains '-' = true from hx] at hdash
    cases hdash

theorem Plain.cls {s : String} (hp : ∀ x, p x = true → alnumC x = true)
    (hs : s.toList.all plainChar = true) (hdash : s.toList.contains '-' = false) :
    Plain (oneOfClass p s) where
  consumes := rfl
  chars := .cls hp hs
  heads x hx hx' := by
    subst hx'
    rcases Bool.or_eq_true_iff.mp hx with h | h
    · exact alnum_ne_dash (hp _ h) rfl
    · rw [h] at hdash
      cases hdash

end Patterns

theorem path_plain : Plain PATH_RE :=
  (Plain.char (by decide) (by decide)).seq (Over.cls (fun _ => id) (by decide)).rep

theorem mode_plain : Plain MODE_RE := by
  refine (Plain.char (by decide) (by decide)).seq (Over.alnum fun x hx => ?_).rep
  have hrange : 48 ≤ x.toNat ∧ x.toNat ≤ 55 := by
    simpa [Re.Reads, Char.le_def, UInt32.le_iff_toNat_le] using hx
  refine alnum_of_digit ?_
  simp only [Regex.digit, Bool.and_eq_true, decide_eq_true_eq]
  omega

theorem posixName_plain : Plain POSIX_NAME_RE :=
  (Plain.cls (fun _ => alnum_of_lower) (by decide) (by decide)).seq
    (Over.cls (fun _ => alnum_of_lowerDigit) (by decide)).rep

theorem nickname_plain : Plain NICKNAME_RE :=
  (Plain.alnum fun _ => id).seq (Over.cls (fun _ => id) (by decide)).rep

theorem instance_plain : Plain INSTANCE_RE :=
  (Plain.alnum fun _ => id).seq (Over.cls (fun _ => id) (by decide)).rep

theorem unit_plain : Plain UNIT_RE :=
  (Plain.alnum fun _ => id).seq ((Over.cls (fun _ => id) (by decide)).rep.seq
    (.lit (by decide)))

theorem chmod_plain {sign : Char} (hsign : plainChar sign = true) : Plain (chmodRe sign) := by
  have hclause : Plain (chmodClause sign) :=
    (Plain.among (by decide) (by decide)).seq
      (Over.seq (fun x hx => by obtain rfl := beq_iff_eq.mp hx; exact hsign)
        (Over.among (by decide)).rep)
  exact hclause.seq (Over.seq (fun x hx => by obtain rfl := beq_iff_eq.mp hx; decide)
    hclause.chars).rep

theorem label_plain : Plain LABEL :=
  (Plain.alnum fun _ => alnum_of_lowerDigit).seq
    ((Over.cls (fun _ => alnum_of_lowerDigit) (by decide)).rep.seq
      (.alnum fun _ => alnum_of_lowerDigit)).rep

theorem fqdn_plain : Plain FQDN_RE :=
  label_plain.seq (Over.seq (Plain.char (by decide) (by decide)).chars label_plain.chars).rep

theorem realm_plain : Plain REALM_RE :=
  (Plain.alnum fun _ => alnum_of_upperDigit).seq
    ((Over.cls (fun _ => alnum_of_upperDigit) (by decide)).rep.seq
      (.alnum fun _ => alnum_of_upperDigit)).rep

theorem pamService_plain : Plain PAM_SERVICE_RE :=
  (Plain.alnum fun _ => id).seq (Over.cls (fun _ => id) (by decide)).rep

theorem sssdDomain_plain : Plain SSSD_DOMAIN_RE :=
  (Plain.alnum fun _ => id).seq (Over.cls (fun _ => id) (by decide)).rep

theorem dcSuffix_plain : Plain DC_SUFFIX_RE := by
  have hdc : Plain (.lit "dc=") :=
    (Plain.char (by decide) (by decide)).seq ((Plain.char (by decide) (by decide)).chars.seq
      (Plain.char (by decide) (by decide)).chars)
  exact hdc.seq (label_plain.chars.seq ((Over.lit (by decide)).seq label_plain.chars).rep)

/-- A name may end in the `$` of a machine account. -/
theorem ipaName_safe {s : String} (h : IPA_NAME_RE.fullmatch s = true) : SafeText s := by
  obtain ⟨c₃, hc₃, hend⟩ := Re.fullmatch_iff.mp h
  obtain ⟨c₁, hc₁, hrest⟩ := Re.mem_seq.mp hc₃
  obtain ⟨c₂, hc₂, hlast⟩ := Re.mem_seq.mp hrest
  obtain ⟨x, xs, hs, hx, rfl⟩ := Re.mem_cls.mp hc₁
  obtain ⟨w, hw, hmiddle, -, -⟩ := iter_cls_sound hc₂
  obtain ⟨tail, htail, hdollar, hin, -⟩ := iter_cls_sound hlast
  rw [hend, List.append_nil] at htail
  have hxs : s.toList = x :: (w ++ tail) := by rw [show s.toList = x :: xs from hs,
    show xs = w ++ c₂.rest from hw, htail]
  have hfirst : Plain (oneOfClass alnumC "_.") :=
    .cls (fun _ => id) (by decide) (by decide)
  have hplain : ∀ c ∈ x :: w, plainChar c = true := by
    intro c hc
    rcases List.mem_cons.mp hc with rfl | hc
    · exact hfirst.chars c hx
    · exact Over.cls (s := "_.-") (fun _ => id) (by decide) c (hmiddle c hc)
  have hshort : tail.length ≤ 1 := hin.2 1 rfl
  refine ⟨by simp [hxs], ?_, fun hdash => ?_⟩
  · rcases tail with _ | ⟨y, _ | ⟨z, tail⟩⟩
    · exact ⟨x :: w, [], hxs, hplain, .inl rfl⟩
    · have hy : alnumC y = true ∨ y = '_' ∨ y = '.' ∨ y = '$' ∨ y = '-' := by
        simpa [Bool.or_eq_true] using hdollar y List.mem_cons_self
      by_cases hyd : y = '$'
      · subst hyd
        exact ⟨x :: w, ['$'], hxs, hplain, .inr rfl⟩
      · have hyp : plainChar y = true := by
          rcases hy with h | rfl | rfl | rfl | rfl
          · exact plain_alnum h
          · decide
          · decide
          · exact absurd rfl hyd
          · decide
        refine ⟨x :: w ++ [y], [], by rw [hxs]; simp, fun c hc => ?_, .inl rfl⟩
        rcases List.mem_append.mp hc with hc | hc
        · exact hplain c hc
        · obtain rfl := List.mem_singleton.mp hc
          exact hyp
    · simp at hshort
  · rw [hxs] at hdash
    exact hfirst.heads x hx (Option.some.inj hdash)

/-- A request id may hold a dash anywhere but in front. -/
theorem requestId_safe (s : String)
    (h : (REQUEST_ID_RE.fullmatch s && !PyStr.startsWith s "-") = true) : SafeText s := by
  rw [Bool.and_eq_true, Bool.not_eq_true'] at h
  obtain ⟨x, hx, -⟩ := Re.fullmatch_heads (r := REQUEST_ID_RE) rfl h.1
  have hover : Over REQUEST_ID_RE := (Over.cls (fun _ => id) (by decide)).rep
  refine .of_plain hx ?_ fun c hc => hover c (Re.fullmatch_reads h.1 c hc)
  rintro rfl
  obtain ⟨w, hw⟩ := List.head?_eq_some_iff.mp hx
  have hstart : PyStr.startsWith s "-" = true := by
    simp [PyStr.startsWith, hw]
  rw [hstart] at h
  cases h.2

/-! ## Lower case -/

theorem ascii_of_plain {c : Char} (h : plainChar c = true) : c.toNat < 128 := by
  rcases Bool.or_eq_true_iff.mp h with h | h
  · simp only [Unicode.isAsciiAlnum, Bool.or_eq_true, Bool.and_eq_true, decide_eq_true_eq] at h
    omega
  · have hc : c = ' ' ∨ c = '.' ∨ c = '_' ∨ c = '-' ∨ c = '@' ∨ c = '+' ∨ c = '/' ∨ c = ':'
        ∨ c = '=' ∨ c = ',' := by simpa using h
    rcases hc with rfl | rfl | rfl | rfl | rfl | rfl | rfl | rfl | rfl | rfl <;> decide

/-- A character whose lower case is plain has one character as its lower
case, and that is in lower case. -/
theorem lowerChar_plain {c : Char} (h : ∀ y ∈ PyStr.lowerChar c, plainChar y = true) :
    ∃ y, PyStr.lowerChar c = [y] ∧ PyStr.lowerChar y = [y] := by
  unfold PyStr.lowerChar at h ⊢
  split at h
  · exact absurd (h _ (List.mem_cons_of_mem _ List.mem_cons_self)) (by decide)
  · rename_i h₁
    rw [if_neg h₁]
    split at h
    · rename_i h₂
      rw [if_pos h₂]
      exact ⟨'k', rfl, by decide⟩
    · rename_i h₂
      rw [if_neg h₂]
      have hascii := ascii_of_plain (h _ List.mem_cons_self)
      refine ⟨c.toLower, rfl, ?_⟩
      rw [if_neg (by omega), if_neg (by omega), PyStr.toLower_toLower]

theorem lower_plain {s : String} (h : ∀ c ∈ (PyStr.lower s).toList, plainChar c = true) :
    PyStr.lower (PyStr.lower s) = PyStr.lower s ∧ PyStr.len (PyStr.lower s) = PyStr.len s := by
  simp only [PyStr.lower, PyStr.len, String.toList_ofList, String.ofList_inj] at h ⊢
  generalize s.toList = cs at h
  induction cs with
  | nil => exact ⟨rfl, rfl⟩
  | cons c cs ih =>
      rw [List.flatMap_cons, List.forall_mem_append] at h
      obtain ⟨y, hy, hyy⟩ := lowerChar_plain h.1
      obtain ⟨h₁, h₂⟩ := ih h.2
      rw [List.flatMap_cons, hy, List.singleton_append, List.flatMap_cons, hyy, h₁, List.length_cons,
        h₂]
      exact ⟨rfl, rfl⟩

/-! ## The validators -/

/-- Whatever the validator returns is safe, and it returns it again. -/
def Stable (f : Value → Option String) : Prop :=
  ∀ v s, f v = some s → SafeText s ∧ f (.str s) = some s

theorem Stable.accepting {p : String → Bool} (hp : ∀ s, p s = true → SafeText s) :
    Stable (accepting p) := by
  intro v s h
  cases v with
  | str t =>
      have hpt : p t = true := by
        by_contra hn
        rw [T.accepting, ofStr, if_neg hn] at h
        cases h
      obtain rfl : t = s := by
        rw [T.accepting, ofStr, if_pos hpt] at h
        exact Option.some.inj h
      exact ⟨hp t hpt, if_pos hpt⟩
  | null | bool | int | float | list | dict => cases h

theorem Stable.pattern {r : Re} (hr : Plain r) : Stable (T.accepting r.fullmatch) :=
  .accepting fun _ => hr.safe

/-- A word of a table: plain, and no option. -/
def plainWord (s : String) : Bool :=
  s.toList.all plainChar && s.toList.head?.any (· != '-')

theorem SafeText.of_word {s : String} (h : plainWord s = true) : SafeText s := by
  rw [plainWord, Bool.and_eq_true, List.all_eq_true, Option.any_eq_true] at h
  obtain ⟨hall, x, hx, hdash⟩ := h
  exact .of_plain hx (by simpa using hdash) hall

theorem safe_of_table {table : List String} (h : table.all plainWord = true) {s : String}
    (hs : table.contains s = true) : SafeText s :=
  .of_word (List.all_eq_true.mp h s (by simpa using hs))

theorem Stable.table {table : List String} (h : table.all plainWord = true) :
    Stable (T.accepting table.contains) := .accepting fun _ hs => safe_of_table h hs

theorem fqdn_stable : Stable fqdn := by
  intro v s h
  cases v with
  | str t =>
      rw [fqdn, ofStr] at h
      split at h
      · cases h
      · rename_i hlen
        split at h
        · rename_i hmatch
          obtain rfl := Option.some.inj h
          obtain ⟨hlower, hsame⟩ := lower_plain fun c hc =>
            fqdn_plain.chars c (Re.fullmatch_reads hmatch c hc)
          refine ⟨fqdn_plain.safe hmatch, ?_⟩
          rw [fqdn, ofStr, hlower, hsame, if_neg hlen, if_pos hmatch]
        · cases h
  | null | bool | int | float | list | dict => cases h

theorem domainSuffix_stable : Stable domainSuffix := by
  intro v s h
  cases v with
  | str t =>
      rw [domainSuffix, ofStr] at h
      split at h
      · cases h
      · rename_i hlen
        split at h
        · rename_i hmatch
          obtain rfl := Option.some.inj h
          obtain ⟨hlower, hsame⟩ := lower_plain fun c hc =>
            dcSuffix_plain.chars c (Re.fullmatch_reads hmatch c hc)
          refine ⟨dcSuffix_plain.safe hmatch, ?_⟩
          rw [domainSuffix, ofStr, hlower, hsame, if_neg hlen, if_pos hmatch]
        · cases h
  | null | bool | int | float | list | dict => cases h

/-- The leading zero a mode of three digits gets. -/
def padded (s : String) : String := if PyStr.len s = 3 ∧ isDigits s then "0" ++ s else s

theorem padded_padded (s : String) : padded (padded s) = padded s := by
  by_cases h : PyStr.len s = 3 ∧ isDigits s = true
  · have hs : padded s = "0" ++ s := if_pos h
    have hlen : PyStr.len ("0" ++ s) = PyStr.len s + 1 := by simp [PyStr.len, Nat.add_comm]
    rw [hs, padded, if_neg (by rw [hlen]; omega)]
  · have hs : padded s = s := if_neg h
    rw [hs, hs]

theorem mode_stable : Stable mode := by
  intro v s h
  cases v with
  | str t =>
      replace h : (if MODE_RE.fullmatch (padded t) then some (padded t) else none) = some s := h
      show _ ∧ (if MODE_RE.fullmatch (padded s) then some (padded s) else none) = some s
      by_cases hmatch : MODE_RE.fullmatch (padded t) = true
      · rw [if_pos hmatch] at h
        obtain rfl := Option.some.inj h
        rw [padded_padded, if_pos hmatch]
        exact ⟨mode_plain.safe hmatch, rfl⟩
      · rw [if_neg hmatch] at h
        cases h
  | null | bool | int | float | list | dict => cases h

/-! ## Values made of parts -/

def PlainText (s : String) : Prop := ∀ c ∈ s.toList, plainChar c = true

theorem plain_of_fqdn {s : String} (h : fqdn (.str s) = some s) : PlainText s := by
  rw [fqdn, ofStr] at h
  split at h
  · cases h
  · split at h
    · rename_i hmatch
      rw [Option.some.inj h] at hmatch
      exact fun c hc => fqdn_plain.chars c (Re.fullmatch_reads hmatch c hc)
    · cases h

theorem accepting_str {p : String → Bool} {s t : String} (h : accepting p (.str s) = some t) :
    p s = true := by
  by_contra hn
  rw [accepting, ofStr, if_neg hn] at h
  cases h

theorem plain_of_realm {s : String} (h : realm (.str s) = some s) : PlainText s := by
  have hmatch := (Bool.and_eq_true_iff.mp (accepting_str h)).2
  exact fun c hc => realm_plain.chars c (Re.fullmatch_reads hmatch c hc)

theorem SafeText.append {p t : String} (hp : plainWord p = true) (ht : PlainText t) :
    SafeText (p ++ t) := by
  rw [plainWord, Bool.and_eq_true, List.all_eq_true, Option.any_eq_true] at hp
  obtain ⟨hall, x, hx, hdash⟩ := hp
  have hhead : (p ++ t).toList.head? = some x := by
    rw [String.toList_append, List.head?_append, hx, Option.some_or]
  refine .of_plain hhead (by simpa using hdash) fun c hc => ?_
  rw [String.toList_append, List.mem_append] at hc
  exact hc.elim (hall c) (ht c)

theorem principal_stable {service : String} (hservice : plainWord service = true) :
    Stable (principal service) := by
  refine .accepting fun s hs => ?_
  simp only [Bool.and_eq_true, beq_iff_eq] at hs
  obtain ⟨⟨hstart, -⟩, hhost, hrealm⟩ := hs
  obtain ⟨t, rfl⟩ := PyStr.startsWith_iff.mp hstart
  rw [PyStr.len, PyStr.drop_append] at hhost hrealm
  refine .append hservice fun c hc => ?_
  rcases PyStr.mem_partition "@" hc with h | h | h
  · exact plain_of_fqdn hhost c h
  · obtain rfl : c = '@' := by simpa using h
    decide
  · exact plain_of_realm hrealm c h

theorem srvName_stable : Stable srvName := by
  refine .accepting fun s hs => ?_
  obtain ⟨p, hp, hs⟩ := List.any_eq_true.mp hs
  rw [Bool.and_eq_true, beq_iff_eq] at hs
  obtain ⟨t, rfl⟩ := PyStr.startsWith_iff.mp hs.1
  have ht := hs.2
  rw [PyStr.len, PyStr.drop_append] at ht
  have hwords : ["_ldap._tcp.", "_kerberos._tcp.", "_kerberos._udp."].all plainWord = true := by
    decide
  exact .append (List.all_eq_true.mp hwords p hp) (plain_of_fqdn ht)

theorem agreementSubject_stable : Stable agreementSubject := by
  refine .accepting fun s hs => ?_
  simp only [Bool.and_eq_true, beq_iff_eq] at hs
  obtain ⟨⟨-, hkind⟩, hhost⟩ := hs
  have hkinds : SUFFIX_KINDS.all plainWord = true := by decide
  have hword := List.all_eq_true.mp hkinds _ (by simpa using hkind)
  have hplain : PlainText s := by
    intro c hc
    rcases PyStr.mem_partition ":" hc with h | h | h
    · exact List.all_eq_true.mp (Bool.and_eq_true_iff.mp hword).1 c h
    · obtain rfl : c = ':' := by simpa using h
      decide
    · exact plain_of_fqdn hhost c h
  obtain ⟨t, ht⟩ := PyStr.startsWith_iff.mp (PyStr.startsWith_partition s ":")
  rw [ht]
  refine .append hword fun c hc => hplain c ?_
  rw [ht, String.toList_append]
  exact List.mem_append_right _ hc

/-- Every type but the two of port numbers. -/
theorem validators_stable {ε : Type} : ∀ row ∈ VALIDATORS (ε := ε),
    row.1 = "ipa_port" ∨ row.1 = "ldap_port" ∨ ∃ g, row.2 = total g ∧ Stable g := by
  have hipaName : Stable ipaName := .accepting fun s hs =>
    ipaName_safe (Bool.and_eq_true_iff.mp (Bool.and_eq_true_iff.mp hs).1).1
  have hpam : Stable pamService := .accepting fun s hs =>
    pamService_plain.safe (Bool.and_eq_true_iff.mp hs).1
  have hsssd : Stable sssdDomain := .accepting fun s hs =>
    sssdDomain_plain.safe (Bool.and_eq_true_iff.mp hs).1
  have hrealm : Stable realm := .accepting fun s hs =>
    realm_plain.safe (Bool.and_eq_true_iff.mp hs).2
  have hpath : Stable absPath := .accepting fun s hs =>
    path_plain.safe (Bool.and_eq_true_iff.mp (Bool.and_eq_true_iff.mp hs).1).1
  have hnickname : Stable nickname := .accepting fun s hs =>
    nickname_plain.safe (Bool.and_eq_true_iff.mp hs).1
  have hservice : Stable ipaService := .accepting fun s hs => by
    obtain ⟨row, hrow, hkey⟩ := List.lookup_isSome_iff.mp hs
    have hnames : (IPA_SERVICES.map (·.1)).all plainWord = true := by decide
    rw [beq_iff_eq.mp hkey]
    exact .of_word (List.all_eq_true.mp hnames _ (List.mem_map_of_mem hrow))
  have hrequest : Stable requestId := .accepting requestId_safe
  unfold VALIDATORS
  simp only [List.forall_mem_cons, List.not_mem_nil, false_implies, implies_true, and_true]
  exact ⟨.inr (.inr ⟨_, rfl, hipaName⟩), .inr (.inr ⟨_, rfl, hipaName⟩),
    .inr (.inr ⟨_, rfl, fqdn_stable⟩), .inr (.inr ⟨_, rfl, principal_stable (by decide)⟩),
    .inr (.inr ⟨_, rfl, hpam⟩), .inr (.inr ⟨_, rfl, hsssd⟩), .inr (.inr ⟨_, rfl, srvName_stable⟩),
    .inl trivial, .inr (.inr ⟨_, rfl, hrealm⟩), .inr (.inr ⟨_, rfl, hservice⟩),
    .inr (.inr ⟨_, rfl, hpath⟩), .inr (.inr ⟨_, rfl, mode_stable⟩),
    .inr (.inr ⟨_, rfl, .pattern posixName_plain⟩), .inr (.inr ⟨_, rfl, hnickname⟩),
    .inr (.inr ⟨_, rfl, hrequest⟩), .inr (.inr ⟨_, rfl, .pattern instance_plain⟩),
    .inr (.inr ⟨_, rfl, .pattern unit_plain⟩), .inr (.inr ⟨_, rfl, .table (by decide)⟩),
    .inr (.inr ⟨_, rfl, .table (by decide)⟩),
    .inr (.inr ⟨_, rfl, .pattern (chmod_plain (by decide))⟩),
    .inr (.inr ⟨_, rfl, .pattern (chmod_plain (by decide))⟩), .inr (.inl trivial),
    .inr (.inr ⟨_, rfl, .table (by decide)⟩), .inr (.inr ⟨_, rfl, domainSuffix_stable⟩),
    .inr (.inr ⟨_, rfl, principal_stable (by decide)⟩),
    .inr (.inr ⟨_, rfl, agreementSubject_stable⟩)⟩

/-! ## Port numbers -/

/-- A text of digits that a port number may have, some of them of another
script, unless they are decimal and no port. -/
def ForeignPort (s : String) : Prop :=
  isDigits s = true ∧ PyStr.len s ≤ 5 ∧ PyStr.startsWith s "0" = false ∧ ascii s = false
    ∧ ∀ n, parseNat s = some n → 1 ≤ n ∧ n ≤ 65535

section Ports

variable {ε : Type}

/-- The digits of ASCII are alphanumeric. -/
theorem digit_of_ascii {c : Char} (hd : Unicode.isDigit c = true) (hc : c.toNat < 128) :
    alnumC c = true := by
  obtain ⟨n, hn⟩ := Option.isSome_iff_exists.mp (decimal_of_ascii hd hc)
  obtain ⟨z, hz, -⟩ := Option.map_eq_some_iff.mp hn
  have hbounds := List.find?_some hz
  rw [Bool.and_eq_true, decide_eq_true_eq, decide_eq_true_eq] at hbounds
  have hzeros : ∀ z ∈ Unicode.decimalZeros, z < 128 → z = 48 := by decide
  have hz48 := hzeros z (List.mem_of_find?_eq_some hz) (by omega)
  refine alnum_of_digit ?_
  rw [Regex.digit, Bool.and_eq_true, decide_eq_true_eq, decide_eq_true_eq]
  omega

theorem safe_of_digits {s : String} (hd : isDigits s = true) (hs : ascii s = true) :
    SafeText s := by
  rw [isDigits, Bool.and_eq_true, Bool.not_eq_true', List.all_eq_true] at hd
  rw [ascii, List.all_eq_true] at hs
  have halnum : ∀ c ∈ s.toList, alnumC c = true := by
    intro c hc
    exact digit_of_ascii (hd.2 c hc) (of_decide_eq_true (hs c hc))
  rcases hcs : s.toList with _ | ⟨x, xs⟩
  · rw [hcs] at hd
    cases hd.1
  · have hx := halnum x (by rw [hcs]; exact List.mem_cons_self)
    exact .of_plain (by rw [hcs]; rfl) (alnum_ne_dash hx) fun c hc => plain_alnum (halnum c hc)

theorem portOfText_ok {s t : String} (h : (portOfText s : Except (Exc ε) _) = .ok (some t)) :
    t = s ∧ isDigits s = true ∧ PyStr.len s ≤ 5 ∧ PyStr.startsWith s "0" = false
      ∧ ∃ n, parseNat s = some n ∧ 1 ≤ n ∧ n ≤ 65535 := by
  unfold portOfText at h
  split at h
  · cases h
  · rename_i hshape
    simp only [Bool.or_eq_true, Bool.not_eq_true', decide_eq_true_eq, not_or, Bool.not_eq_false,
      not_lt, Bool.not_eq_true] at hshape
    split at h
    · cases h
    · rename_i n hn
      split at h
      · rename_i hrange
        cases h
        exact ⟨rfl, hshape.1.1, hshape.1.2, hshape.2, n, hn, hrange⟩
      · cases h

theorem portOfText_again {s t : String} (h : (portOfText s : Except (Exc ε) _) = .ok (some t)) :
    (portOfText t : Except (Exc ε) _) = .ok (some t) := by
  obtain ⟨rfl, -⟩ := portOfText_ok h
  exact h

/-- A port number given as a text is safe exactly if it is not foreign. -/
theorem portOfText_safe_iff (s : String) :
    (∃ r, (portOfText s : Except (Exc ε) _) = .ok r
        ∧ ∀ t, r = some t → SafeText t ∧ (portOfText t : Except (Exc ε) _) = .ok (some t))
      ↔ ¬ ForeignPort s := by
  constructor
  · rintro ⟨r, hr, hsafe⟩ ⟨hd, hlen, hzero, hascii, hrange⟩
    have hshape : (!isDigits s || decide (5 < PyStr.len s) || PyStr.startsWith s "0") = false := by
      simp [hd, hzero, hlen]
    rw [portOfText, hshape, if_neg Bool.false_ne_true] at hr
    split at hr
    · cases hr
    · rename_i n hn
      rw [if_pos (hrange n hn)] at hr
      cases hr
      obtain ⟨body, tail, hs, hbody, htail⟩ := (hsafe s rfl).1.plain
      have hnodollar : tail = [] := by
        refine htail.resolve_right fun h => ?_
        rw [isDigits, Bool.and_eq_true, List.all_eq_true] at hd
        exact absurd (hd.2 '$' (by rw [hs, h]; simp)) (by decide +kernel)
      rw [hnodollar, List.append_nil] at hs
      have hall : ascii s = true := by
        rw [ascii, List.all_eq_true]
        exact fun c hc => decide_eq_true (ascii_of_plain (hbody c (by rwa [← hs])))
      rw [hall] at hascii
      cases hascii
  · intro hforeign
    have hreadable : ¬ UnreadableText s := by
      rintro ⟨hd, hlen, hzero, hnone⟩
      refine hforeign ⟨hd, hlen, hzero, ?_, fun n hn => by rw [hnone] at hn; cases hn⟩
      by_contra hascii
      have hsome := parseNat_of_ascii hd (by simpa using hascii)
      rw [hnone] at hsome
      cases hsome
    obtain ⟨r, hr⟩ := (portOfText_returns_iff (ε := ε) s).mpr hreadable
    refine ⟨r, hr, fun t ht => ?_⟩
    rw [ht] at hr
    obtain ⟨rfl, hd, hlen, hzero, n, hn, hrange⟩ := portOfText_ok hr
    refine ⟨safe_of_digits hd ?_, hr⟩
    by_contra hascii
    refine hforeign ⟨hd, hlen, hzero, by simpa using hascii, fun m hm => ?_⟩
    rw [hn] at hm
    rwa [← Option.some.inj hm]

theorem not_foreign_int (n : Int) : ¬ ForeignPort (toString n) := fun h => by
  have hascii := h.2.2.2.1
  rw [ascii_toString] at hascii
  cases hascii

theorem ldapPort_str (s : String) :
    (ldapPort (.str s) : Except (Exc ε) _) = portOfText s := rfl

theorem ldapPort_safe_iff (v : Value) :
    (∃ r, (ldapPort v : Except (Exc ε) _) = .ok r
        ∧ ∀ t, r = some t → SafeText t ∧ (ldapPort (.str t) : Except (Exc ε) _) = .ok (some t))
      ↔ ¬ HugeInt v ∧ ∀ s, v = .str s → ¬ ForeignPort s := by
  simp only [ldapPort_str]
  unfold ldapPort
  rcases intText_cases (ε := ε) v with ⟨h, he⟩ | ⟨h, n, rfl, he⟩ | ⟨h, hint, he⟩
  · rw [he]
    exact iff_of_false (fun ⟨r, hr, _⟩ => by cases hr) fun hn => hn.1 h
  · rw [he]
    exact iff_of_true ((portOfText_safe_iff _).mpr (not_foreign_int n)) ⟨h, nofun⟩
  · rw [he]
    cases v with
    | str s =>
        refine (portOfText_safe_iff s).trans ⟨fun hs => ⟨h, fun t ht => ?_⟩, fun hs => hs.2 s rfl⟩
        cases ht
        exact hs
    | int n => exact absurd rfl (hint n)
    | null | bool | float | list | dict =>
        exact iff_of_true ⟨none, rfl, nofun⟩ ⟨h, nofun⟩

theorem ipaPort_safe_iff (v : Value) :
    (∃ r, (ipaPort v : Except (Exc ε) _) = .ok r
        ∧ ∀ t, r = some t → SafeText t ∧ (ipaPort (.str t) : Except (Exc ε) _) = .ok (some t))
      ↔ ¬ HugeInt v := by
  have hstable : Stable (accepting IPA_PORTS.contains) := .table (by decide)
  have hok : ∀ w t, accepting IPA_PORTS.contains w = some t →
      SafeText t ∧ (ipaPort (.str t) : Except (Exc ε) _) = .ok (some t) := by
    intro w t ht
    obtain ⟨hsafe, hagain⟩ := hstable w t ht
    exact ⟨hsafe, congrArg Except.ok hagain⟩
  unfold ipaPort at hok ⊢
  rcases intText_cases (ε := ε) v with ⟨h, he⟩ | ⟨h, n, -, he⟩ | ⟨h, -, he⟩
  · rw [he]
    exact iff_of_false (fun ⟨r, hr, _⟩ => by cases hr) fun hn => hn h
  · rw [he]
    exact iff_of_true ⟨_, rfl, hok _⟩ h
  · rw [he]
    exact iff_of_true ⟨_, rfl, hok _⟩ h

end Ports

/-! ## Every type -/

/-- What a type's validator raises on, or takes in the digits of another script. -/
def Misread (name : String) (v : Value) : Prop :=
  ((name = "ipa_port" ∨ name = "ldap_port") ∧ HugeInt v)
    ∨ (name = "ldap_port" ∧ ∃ s, v = .str s ∧ ForeignPort s)

/-- For every type and value: the validator returns, and what it returns
is a safe text that validates as itself, exactly if the value is not an
integer without a text or a port in foreign digits. -/
theorem validate_safe_iff {ε : Type} (name : String) (v : Value) :
    (∃ r, (validate name v : Except (Exc ε) _) = .ok r
        ∧ ∀ s, r = some s →
          SafeText s ∧ (validate name (.str s) : Except (Exc ε) _) = .ok (some s))
      ↔ ¬ Misread name v := by
  unfold Misread
  by_cases h₁ : name = "ipa_port"
  · subst h₁
    have hport : "ipa_port" ≠ "ldap_port" := by decide
    refine (ipaPort_safe_iff v).trans ?_
    simp [hport]
  · by_cases h₂ : name = "ldap_port"
    · subst h₂
      refine (ldapPort_safe_iff v).trans ?_
      simp
    · refine iff_of_true ?_ (by simp [h₁, h₂])
      unfold validate
      rcases hf : (VALIDATORS (ε := ε)).lookup name with _ | f
      · exact ⟨none, rfl, nofun⟩
      · rcases validators_stable _ (Assoc.mem_of_lookup hf) with h | h | ⟨g, h, hg⟩
        · exact absurd h h₁
        · exact absurd h h₂
        · obtain rfl : f = total g := h
          refine ⟨g v, rfl, fun s hs => ?_⟩
          obtain ⟨hsafe, hagain⟩ := hg v s hs
          exact ⟨hsafe, congrArg Except.ok hagain⟩

/-- The superscript two is a digit that `int` refuses; an Arabic port
number comes back in Arabic digits. -/
theorem foreign_digits_not_safe :
    (validate "ldap_port" (.str "²") : Except (Exc Unit) _) = .error .valueError
      ∧ (validate "ldap_port" (.str "٣٨٩") : Except (Exc Unit) _) = .ok (some "٣٨٩")
      ∧ ¬ SafeText "٣٨٩" := by
  refine ⟨by decide +kernel, by decide +kernel, fun h => ?_⟩
  obtain ⟨body, tail, hs, hbody, htail⟩ := h.plain
  have hs' : ['٣', '٨', '٩'] = body ++ tail := hs
  rcases body with _ | ⟨c, body⟩
  · rcases htail with rfl | rfl <;> simp at hs'
  · have hc : c = '٣' := (List.cons.inj hs').1.symm
    have hplain := hbody c List.mem_cons_self
    rw [hc] at hplain
    exact absurd hplain (by decide)

end IpaDiagnose.T
