import IpaDiagnose.Collectors.StatusReaders
import IpaDiagnose.Lib.Assoc
import IpaDiagnose.Lib.Result

/-!
# When a status is green

A status is taken from JSON or from a text, both cut to a length, and is
OK if a success is reported and no failure is seen. A code that is there
but is no number counts as none, the state is only asked whether it is
green, and what lies past the cut is not seen. `green_sound_iff` says when
that matters.
-/

namespace IpaDiagnose.Replication

open Py (Value Dict Exc)
open ReplicationAgreements (leadingCode readText_codes readText_fields)

/-! ## What a status reports -/

/-- The first failure phrase of the table that a text matches. -/
def phraseOf (text : String) : Option StatusClass :=
  (PHRASES.find? fun p => p.2.search text).map Prod.fst

/-- A result code as it stands in a status. -/
inductive ResultCode where
  | absent
  /-- There is something, but no number of the form that is read. -/
  | malformed
  | number (n : Int)
deriving DecidableEq

def ResultCode.clear : ResultCode → Bool
  | .absent => true
  | .malformed => false
  | .number n => n == 0

def jsonCode : Value → ResultCode
  | .null => .absent
  | v =>
      match toInt v with
      | some n => .number n
      | none => .malformed

/-- What a text with a code begins with. -/
def CODE_START_RE : Regex.Re :=
  .seqAll [.bos, .star blank, .lit "Error", .star blank, .char '(']

def textCode (text : String) : ResultCode :=
  match (TEXT_RE.match? text).bind fun m => (m.group? 1).bind parseCode with
  | some n => .number n
  | none => if CODE_START_RE.search text then .malformed else .absent

structure StatusReport where
  message : String
  codes : List ResultCode
  state : String

/-- The text of an argument that is there and not empty. -/
def given (s : Option String) : Option String := s.filter (· ≠ "")

/-- Everything a status says, nothing of it cut off: what the JSON says if
it is a dictionary, else what the text says. -/
def statusReport (loads : String → Option Value) (text json : Option String) : StatusReport :=
  match (given json).bind loads with
  | some (.dict doc) =>
      { message := (readJson doc).message
        codes := [jsonCode ((doc.lookup "ldap_rc").getD .null),
          jsonCode ((doc.lookup "repl_rc").getD .null)]
        state := (readJson doc).state }
  | _ =>
      let text := text.getD ""
      { message := text, codes := [textCode text], state := "" }

/-- The state is one of those that are not green. -/
def StatusReport.alarmed (s : StatusReport) : Bool := s.state == "red" || s.state == "amber"

/-- OK is only said if nothing says otherwise, and a failure phrase decides. -/
structure ClassSound (s : StatusReport) (cls : StatusClass) : Prop where
  no_phrase : cls = .ok → phraseOf s.message = none
  codes_clear : cls = .ok → ∀ code ∈ s.codes, code.clear = true
  not_alarmed : cls = .ok → s.alarmed = false
  phrase : ∀ p, phraseOf s.message = some p → cls = p ∨ cls = .noSessions

/-! ## What is read of it -/

/-- What is read: the JSON up to its limit, else the text up to its limit. -/
def readOf (loads : String → Option Value) (text json : Option String) : StatusRead :=
  match (given json).bind fun s => loads (PyStr.take s 8192) with
  | some (.dict doc) => readJson doc
  | _ => ((given text).map readText).getD {}

def argument : Option String → Value
  | some s => .str s
  | none => .null

theorem textOf_argument {ε : Type} (s : Option String) :
    (textOf (argument s) : Except (Exc ε) _) = .ok (given s) := by
  cases s with
  | none => rfl
  | some s =>
      by_cases hs : s = ""
      · subst hs
        rfl
      · simp [textOf, argument, given, Value.truthy, Option.filter, hs]

theorem readStatus_arguments {ε : Type} (loads : String → Option Value) (text json : Option String) :
    (readStatus loads (argument text) (argument json) : Except (Exc ε) _)
      = .ok (readOf loads text json) := by
  unfold readStatus readOf
  rw [textOf_argument, textOf_argument, Result.ok_bind]
  cases (given json).bind fun s => loads (PyStr.take s 8192) with
  | none => rfl
  | some v => cases v with
    | _ => rfl

/-- The phrase table looks at the beginning of a message. -/
def phraseSeen (r : StatusRead) : Option StatusClass := phraseOf (PyStr.take r.message 4096)

theorem classifyText_message (r : StatusRead) :
    classifyText r.message = (phraseSeen r).getD .unclassified := by
  unfold classifyText phraseSeen phraseOf
  cases PHRASES.find? fun p => p.2.search (PyStr.take r.message 4096) with
  | none => rfl
  | some p => rfl

theorem phraseOf_mem {text : String} {p : StatusClass} (h : phraseOf text = some p) :
    p ∈ PHRASES.map Prod.fst := by
  obtain ⟨x, hx, rfl⟩ := Option.map_eq_some_iff.mp h
  exact List.mem_map_of_mem (List.mem_of_find?_eq_some hx)

theorem phrase_ne {text : String} {p : StatusClass} (h : phraseOf text = some p) :
    p ≠ .ok ∧ p ≠ .unclassified ∧ p ≠ .noSessions := by
  have hall : ∀ p ∈ PHRASES.map Prod.fst, p ≠ .ok ∧ p ≠ .unclassified ∧ p ≠ .noSessions := by
    decide
  exact hall p (phraseOf_mem h)

/-- A success is reported, and no failure is seen. -/
def saysSuccess (r : StatusRead) : Bool :=
  noFailureCode r.ldapRc && noFailureCode r.replRc && (phraseSeen r).isNone
    && (SUCCESS_RE.search r.message
      || (r.state == "green" && r.ldapRc == some 0 && r.replRc == some 0))

/-- The class the LDAP code alone stands for. -/
def codeClass : Option Int → StatusClass
  | none => .unclassified
  | some code =>
      match LDAP_RC.lookup code with
      | some cls => cls
      | none => if code = -2 then .gssapiOther else .unclassified

/-- No session was started, a success, a phrase, or the code: in that order. -/
theorem classify_eq (r : StatusRead) : r.classify =
    if NO_SESSIONS_RE.search r.message then .noSessions
    else if saysSuccess r then .ok
    else (phraseSeen r).getD (codeClass r.ldapRc) := by
  unfold StatusRead.classify saysSuccess
  rw [classifyText_message]
  by_cases hstarted : NO_SESSIONS_RE.search r.message = true
  · rw [if_pos hstarted, if_pos hstarted]
  · rw [if_neg hstarted, if_neg hstarted]
    cases hphrase : phraseSeen r with
    | none =>
        dsimp only
        generalize (noFailureCode r.ldapRc && noFailureCode r.replRc) = clear
        generalize (SUCCESS_RE.search r.message
          || (r.state == "green" && r.ldapRc == some 0 && r.replRc == some 0)) = success
        cases clear with
        | false => rfl
        | true => cases success with
          | false => rfl
          | true => rfl
    | some p =>
        obtain ⟨hok, hun, -⟩ := phrase_ne hphrase
        simp [hok, hun]

/-- Nothing given is unclassified, as nothing read would be. -/
theorem status_cls (loads : String → Option Value) (text json : Option String) :
    (readOf loads text json).status.cls = (readOf loads text json).classify := by
  have hsource {r : StatusRead} (h : r.source ≠ "none") : r.status.cls = r.classify := by
    rw [StatusRead.status, if_neg h]
  unfold readOf
  split
  · exact hsource (show "json" ≠ "none" by decide)
  · cases given text with
    | none => decide
    | some s => exact hsource (by rw [Option.map_some, Option.getD_some, (readText_fields s).2.1]; decide)

/-! ## When the class is sound -/

/-- What the reading of a status has to do with all that it says. -/
structure Faithful (s : StatusReport) (r : StatusRead) : Prop where
  /-- A success is only read where nothing says otherwise. -/
  success : NO_SESSIONS_RE.search r.message = false → saysSuccess r = true →
    phraseOf s.message = none ∧ (∀ code ∈ s.codes, code.clear = true) ∧ s.alarmed = false
  /-- A phrase is seen where it stands, or the code stands for the same. -/
  phrase : ∀ p, phraseOf s.message = some p → NO_SESSIONS_RE.search r.message = true
    ∨ phraseSeen r = some p
    ∨ (phraseSeen r = none ∧ saysSuccess r = false ∧ codeClass r.ldapRc = p)

theorem saysSuccess_phrase {r : StatusRead} (h : saysSuccess r = true) : phraseSeen r = none := by
  unfold saysSuccess at h
  cases hphrase : phraseSeen r with
  | none => rfl
  | some p => simp [hphrase] at h

theorem codeClass_ne (code : Option Int) : codeClass code ≠ .ok ∧ codeClass code ≠ .noSessions := by
  unfold codeClass
  split
  · decide
  · split
    · rename_i cls hlookup
      have hall : ∀ x ∈ LDAP_RC, x.2 ≠ .ok ∧ x.2 ≠ .noSessions := by decide
      exact hall _ (Assoc.mem_of_lookup hlookup)
    · split
      · decide
      · decide

theorem sound_iff_faithful (s : StatusReport) (r : StatusRead) :
    ClassSound s r.classify ↔ Faithful s r := by
  rw [classify_eq]
  cases hstarted : NO_SESSIONS_RE.search r.message with
  | true =>
      rw [if_pos rfl]
      exact iff_of_true ⟨nofun, nofun, nofun, fun _ _ => .inr rfl⟩
        ⟨fun h => absurd (h.symm.trans hstarted) nofun, fun _ _ => .inl hstarted⟩
  | false =>
      rw [if_neg nofun]
      cases hsuccess : saysSuccess r with
      | true =>
          rw [if_pos rfl]
          have hseen := saysSuccess_phrase hsuccess
          constructor
          · intro h
            refine ⟨fun _ _ => ⟨h.no_phrase rfl, h.codes_clear rfl, h.not_alarmed rfl⟩, fun p hp => ?_⟩
            rw [h.no_phrase rfl] at hp
            cases hp
          · intro h
            obtain ⟨hphrase, hcodes, hcalm⟩ := h.success hstarted hsuccess
            refine ⟨fun _ => hphrase, fun _ => hcodes, fun _ => hcalm, fun p hp => ?_⟩
            rw [hphrase] at hp
            cases hp
      | false =>
          rw [if_neg nofun]
          have hno : ∀ {P : Prop}, saysSuccess r = true → P := fun h => by
            rw [hsuccess] at h
            cases h
          cases hseen : phraseSeen r with
          | none =>
              rw [Option.getD_none]
              obtain ⟨hok, hsessions⟩ := codeClass_ne r.ldapRc
              constructor
              · intro h
                exact ⟨fun _ => hno, fun p hp => .inr (.inr ⟨hseen, hsuccess,
                  (h.phrase p hp).resolve_right hsessions⟩)⟩
              · intro h
                refine ⟨fun h => absurd h hok, fun h => absurd h hok, fun h => absurd h hok, fun p hp => ?_⟩
                rcases h.phrase p hp with h | h | ⟨-, -, h⟩
                · rw [hstarted] at h
                  cases h
                · rw [hseen] at h
                  cases h
                · exact .inl h
          | some q =>
              rw [Option.getD_some]
              obtain ⟨hok, -, hsessions⟩ := phrase_ne hseen
              constructor
              · intro h
                refine ⟨fun _ => hno, fun p hp => .inr (.inl ?_)⟩
                rw [(h.phrase p hp).resolve_right hsessions] at hseen
                exact hseen
              · intro h
                refine ⟨fun h => absurd h hok, fun h => absurd h hok, fun h => absurd h hok, fun p hp => ?_⟩
                rcases h.phrase p hp with h | h | ⟨h, -⟩
                · rw [hstarted] at h
                  cases h
                · rw [hseen] at h
                  exact .inl (Option.some.inj h)
                · rw [hseen] at h
                  cases h

/-! ## Within the limits -/

/-- Neither the JSON nor the message is longer than what is looked at. -/
structure Within (loads : String → Option Value) (text json : Option String) : Prop where
  json_short : ∀ s, given json = some s → s.toList.length ≤ 8192
  message_short : (statusReport loads text json).message.toList.length ≤ 4096

/-- Where a success is read, no code is garbled and the state is not one
that is not green. -/
def Unequivocal (s : StatusReport) (r : StatusRead) : Prop :=
  NO_SESSIONS_RE.search r.message = false → saysSuccess r = true →
    (∀ code ∈ s.codes, code ≠ .malformed) ∧ s.alarmed = false

theorem take_short {s : String} {n : Nat} (h : s.toList.length ≤ n) : PyStr.take s n = s := by
  rw [PyStr.take, List.take_of_length_le h, String.ofList_toList]

theorem jsonCode_eq {v : Value} (h : v ≠ .null) : jsonCode v =
    match toInt v with
    | some n => .number n
    | none => .malformed := by
  unfold jsonCode
  split
  · exact absurd rfl h
  · rfl

theorem jsonCode_clear {v : Value} (hcode : noFailureCode (toInt v) = true)
    (h : jsonCode v ≠ .malformed) : (jsonCode v).clear = true := by
  by_cases hnull : v = .null
  · rw [hnull]
    rfl
  · rw [jsonCode_eq hnull] at h ⊢
    unfold noFailureCode at hcode
    cases hint : toInt v with
    | none =>
        rw [hint] at h
        exact absurd rfl h
    | some n =>
        rw [hint] at hcode
        simpa [ResultCode.clear] using hcode

/-- Whose code it is in a text does not matter if there is no failure. -/
theorem textCode_clear {text : String} (hshort : text.toList.length ≤ 4096)
    (hcodes : (noFailureCode (readText text).ldapRc && noFailureCode (readText text).replRc) = true)
    (h : textCode text ≠ .malformed) : (textCode text).clear = true := by
  have hleading : leadingCode text
      = (TEXT_RE.match? text).bind fun m => (m.group? 1).bind parseCode := by
    rw [leadingCode, ReplicationAgreements.leading, ReplicationAgreements.cut, take_short hshort]
    cases TEXT_RE.match? text with
    | none => rfl
    | some m => rfl
  unfold textCode at h ⊢
  rw [← hleading] at h ⊢
  rcases (readText_codes text).2.mp hcodes with hnone | hzero
  · rw [hnone] at h ⊢
    dsimp only at h ⊢
    split
    · rename_i hstart
      rw [if_pos hstart] at h
      exact absurd rfl h
    · rfl
  · rw [hzero]
    rfl

theorem readText_message {text : String} (h : text.toList.length ≤ 4096) :
    (readText text).message = text := (readText_fields text).1.trans (take_short h)

/-- Within the limits the message is read as it is, and codes that are
read as no failure and are not garbled are clear. -/
theorem Within.reads {loads : String → Option Value} {text json : Option String}
    (h : Within loads text json) :
    (readOf loads text json).message = (statusReport loads text json).message
      ∧ ((noFailureCode (readOf loads text json).ldapRc
          && noFailureCode (readOf loads text json).replRc) = true →
        ∀ code ∈ (statusReport loads text json).codes, code ≠ .malformed → code.clear = true) := by
  have hmessage := h.message_short
  have hloads : ((given json).bind fun s => loads (PyStr.take s 8192)) = (given json).bind loads := by
    cases hjson : given json with
    | none => rfl
    | some s => rw [Option.bind_some, Option.bind_some, take_short (h.json_short s hjson)]
  unfold statusReport at hmessage ⊢
  unfold readOf
  rw [hloads]
  split
  · refine ⟨rfl, fun hcodes code hcode hread => ?_⟩
    obtain ⟨hldap, hrepl⟩ := Bool.and_eq_true_iff.mp hcodes
    rcases List.mem_cons.mp hcode with rfl | hcode
    · exact jsonCode_clear hldap hread
    · obtain rfl := List.mem_singleton.mp hcode
      exact jsonCode_clear hrepl hread
  · rename_i hother
    have hshort : (text.getD "").toList.length ≤ 4096 := by
      split at hmessage
      · rename_i doc hdoc
        exact (hother doc hdoc).elim
      · exact hmessage
    have hnone : given text = none → text.getD "" = "" := by
      intro hnone
      cases text with
      | none => rfl
      | some s => simpa [given, Option.filter] using hnone
    cases htext : given text with
    | none =>
        rw [hnone htext]
        refine ⟨rfl, fun _ code hcode _ => ?_⟩
        obtain rfl := List.mem_singleton.mp hcode
        decide +kernel
    | some s =>
        have hs : text = some s := by
          unfold given at htext
          exact (Option.filter_eq_some_iff.mp htext).1
        subst hs
        rw [Option.map_some, Option.getD_some]
        refine ⟨readText_message hshort, fun hcodes code hcode hread => ?_⟩
        obtain rfl := List.mem_singleton.mp hcode
        exact textCode_clear hshort hcodes hread

theorem faithful_iff_unequivocal {loads : String → Option Value} {text json : Option String}
    (h : Within loads text json) :
    Faithful (statusReport loads text json) (readOf loads text json)
      ↔ Unequivocal (statusReport loads text json) (readOf loads text json) := by
  obtain ⟨hmessage, hclear⟩ := h.reads
  have hseen : phraseSeen (readOf loads text json) = phraseOf (statusReport loads text json).message := by
    rw [phraseSeen, hmessage, take_short h.message_short]
  constructor
  · intro hf hstarted hsuccess
    obtain ⟨-, hcodes, hcalm⟩ := hf.success hstarted hsuccess
    refine ⟨fun code hcode hgarbled => ?_, hcalm⟩
    have hno := hcodes code hcode
    rw [hgarbled] at hno
    cases hno
  · intro hu
    refine ⟨fun hstarted hsuccess => ?_, fun p hp => .inr (.inl (hseen.trans hp))⟩
    obtain ⟨hcodes, hcalm⟩ := hu hstarted hsuccess
    refine ⟨hseen ▸ saysSuccess_phrase hsuccess, fun code hcode => ?_, hcalm⟩
    refine hclear ?_ code hcode (hcodes code hcode)
    unfold saysSuccess at hsuccess
    exact (Bool.and_eq_true_iff.mp (Bool.and_eq_true_iff.mp hsuccess).1).1

namespace Overlooked

/-- A code of more digits than are read. -/
def longCode : String := "Error (1000081) total update succeeded"

/-- A state that says it failed. -/
def redState : Dict :=
  [("state", .str "red"), ("ldap_rc", .str "0"), ("repl_rc", .str "0"),
    ("message", .str "total update succeeded")]

def readsRed (_ : String) : Option Value := some (.dict redState)

theorem longCode_ok : (readOf (fun _ => none) (some longCode) none).classify = .ok := by
  decide +kernel

theorem redState_ok : (readOf readsRed none (some "status")).classify = .ok := by
  decide +kernel

end Overlooked

end IpaDiagnose.Replication
