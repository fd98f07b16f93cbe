import IpaDiagnose.Collectors.Agreements

/-!
# Two readers of one status

The collector looks for `error` and `error (0)`; `parseStatus` reads the
number in front, then an ordered table of failure phrases, then a list of
success phrases. `readers_agree_iff` gives the texts on which the two do
not contradict each other, in terms of what the text says.
-/

namespace IpaDiagnose.ReplicationAgreements

open Py (Value Exc)
open Replication (StatusClass StatusRead classifyText readText parseStatus)

/-! ## What a text says -/

/-- The part of a text that is read. -/
def cut (text : String) : String := PyStr.take text 4096

/-- The number and the message of a text that begins with `Error (n)`. -/
def leading (text : String) : Option (Option Int × String) :=
  (Replication.TEXT_RE.match? (cut text)).map fun m =>
    ((m.group? 1).bind Replication.parseCode, PyStr.lower ((m.group? 2).getD ""))

def leadingCode (text : String) : Option Int := (leading text).bind Prod.fst

/-- The number in front, unless the message says that the replication
protocol gave it. -/
def ldapCode (text : String) : Option Int :=
  (leading text).bind fun l =>
    if PyStr.contains l.2 "problem connecting to replica" then l.1
    else if PyStr.contains l.2 "replication error acquiring replica" then none
    else l.1

theorem leadingCode_of_ldapCode {text : String} {code : Int} (h : ldapCode text = some code) :
    leadingCode text = some code := by
  unfold ldapCode at h
  obtain ⟨l, hl, hcode⟩ := Option.bind_eq_some_iff.mp h
  rw [leadingCode, hl, Option.bind_some]
  split at hcode
  · exact hcode
  · split at hcode
    · cases hcode
    · exact hcode

/-- The supplier retries by itself: no session yet, a phrase or the LDAP
code of a busy peer, a backoff. -/
def Retried (text : String) : Prop :=
  Replication.NO_SESSIONS_RE.search (cut text) = true
    ∨ classifyText (cut text) = .busy ∨ classifyText (cut text) = .backoff
    ∨ (classifyText (cut text) = .unclassified ∧ ldapCode text = some 51)

/-- A success phrase, no phrase of a failure, and no number but 0 in
front. -/
def Succeeded (text : String) : Prop :=
  Replication.SUCCESS_RE.search (cut text) = true ∧ classifyText (cut text) = .unclassified
    ∧ (leadingCode text = none ∨ leadingCode text = some 0)

/-- The text is empty, or the supplier retries, or `error` is there
exactly when the text reports no success. -/
def ToldAlike (text : String) : Prop :=
  text = "" ∨ Retried text ∨ (saysError text = true ↔ ¬ Succeeded text)

/-! ## What `parseStatus` reads -/

theorem classifyText_mem (text : String) :
    classifyText text = .unclassified ∨ classifyText text ∈ Replication.PHRASES.map Prod.fst := by
  unfold classifyText
  split
  · rename_i p hfind
    exact .inr (List.mem_map_of_mem (List.mem_of_find?_eq_some hfind))
  · exact .inl rfl

theorem classifyText_ne {cls : StatusClass} (hun : cls ≠ .unclassified)
    (htable : cls ∉ Replication.PHRASES.map Prod.fst) (text : String) :
    classifyText text ≠ cls := by
  rintro rfl
  rcases classifyText_mem text with h | h
  · exact hun h
  · exact htable h

theorem classifyText_ne_ok (text : String) : classifyText text ≠ .ok :=
  classifyText_ne (by decide) (by decide) text

theorem classifyText_ne_noSessions (text : String) : classifyText text ≠ .noSessions :=
  classifyText_ne (by decide) (by decide) text

/-- The text form has no state, and is classified by the text that was
read. -/
theorem readText_fields (text : String) :
    (readText text).message = cut text ∧ (readText text).source = "text"
      ∧ (readText text).state = "" := by
  unfold readText
  dsimp only
  split
  · exact ⟨rfl, rfl, rfl⟩
  · split
    · exact ⟨rfl, rfl, rfl⟩
    · split
      · exact ⟨rfl, rfl, rfl⟩
      · split <;> exact ⟨rfl, rfl, rfl⟩

/-- One number at most is read, and the LDAP one where it is LDAP's. -/
theorem readText_codes (text : String) :
    (readText text).ldapRc = ldapCode text
      ∧ ((Replication.noFailureCode (readText text).ldapRc
          && Replication.noFailureCode (readText text).replRc) = true
        ↔ leadingCode text = none ∨ leadingCode text = some 0) := by
  unfold readText leadingCode ldapCode leading cut
  dsimp only
  cases Replication.TEXT_RE.match? (PyStr.take text 4096) with
  | none => simp [Replication.noFailureCode]
  | some m =>
      dsimp only [Option.map_some, Option.bind_some]
      generalize (m.group? 1).bind Replication.parseCode = code
      generalize PyStr.lower ((m.group? 2).getD "") = body
      by_cases hldap : PyStr.contains body "problem connecting to replica" = true
      · simp [hldap, Replication.noFailureCode, or_comm]
      · by_cases hrepl : PyStr.contains body "replication error acquiring replica" = true
        · simp [hldap, hrepl, Replication.noFailureCode, or_comm]
        · by_cases hzero : code = some 0
          · simp [hldap, hrepl, hzero, Replication.noFailureCode]
          · simp [hldap, hrepl, hzero, Replication.noFailureCode]

/-- The class of what has no state. -/
theorem classify_stateless {r : StatusRead} (h : r.state = "") :
    r.classify =
      if Replication.NO_SESSIONS_RE.search r.message then .noSessions
      else if classifyText r.message ≠ .unclassified then classifyText r.message
      else if Replication.SUCCESS_RE.search r.message = true
          ∧ (Replication.noFailureCode r.ldapRc && Replication.noFailureCode r.replRc) = true
        then .ok
      else
        match r.ldapRc with
        | none => .unclassified
        | some code =>
            match Replication.LDAP_RC.lookup code with
            | some cls => cls
            | none => if code = -2 then .gssapiOther else .unclassified := by
  have hok := classifyText_ne_ok r.message
  have hgreen : (r.state == "green") = false := by
    rw [h]
    decide
  unfold StatusRead.classify
  rw [hgreen]
  generalize Replication.NO_SESSIONS_RE.search r.message = silent
  generalize Replication.SUCCESS_RE.search r.message = success
  generalize classifyText r.message = phrase at hok ⊢
  generalize (Replication.noFailureCode r.ldapRc && Replication.noFailureCode r.replRc) = fine
  cases silent with
  | true => rfl
  | false =>
      by_cases hphrase : phrase = .unclassified
      · subst hphrase
        cases success <;> cases fine <;> rfl
      · have hne : (phrase == StatusClass.unclassified) = false := by simpa using hphrase
        have hnok : (phrase == StatusClass.ok) = false := by simpa using hok
        simp [hphrase, hne, hnok]

/-- The class of a text, by what it says. -/
theorem classify_readText (text : String) :
    (readText text).classify =
      if Replication.NO_SESSIONS_RE.search (cut text) then .noSessions
      else if classifyText (cut text) ≠ .unclassified then classifyText (cut text)
      else if Replication.SUCCESS_RE.search (cut text) = true
          ∧ (leadingCode text = none ∨ leadingCode text = some 0) then .ok
      else
        match ldapCode text with
        | none => .unclassified
        | some code =>
            match Replication.LDAP_RC.lookup code with
            | some cls => cls
            | none => if code = -2 then .gssapiOther else .unclassified := by
  obtain ⟨hmessage, -, hstate⟩ := readText_fields text
  obtain ⟨hldap, hcodes⟩ := readText_codes text
  rw [classify_stateless hstate, hmessage]
  simp only [hcodes]
  rw [hldap]

theorem class_ok_iff (text : String) :
    (readText text).classify = .ok
      ↔ Succeeded text ∧ Replication.NO_SESSIONS_RE.search (cut text) = false := by
  rw [classify_readText]
  by_cases hnone : Replication.NO_SESSIONS_RE.search (cut text) = true
  · simp [hnone]
  · by_cases hphrase : classifyText (cut text) = .unclassified
    · by_cases hsuccess : Replication.SUCCESS_RE.search (cut text) = true
          ∧ (leadingCode text = none ∨ leadingCode text = some 0)
      · simp [hnone, hphrase, hsuccess, Succeeded]
      · have hcode : ∀ code cls, Replication.LDAP_RC.lookup code = some cls → cls ≠ .ok := by
          intro code cls hlookup
          have hmem := Assoc.mem_of_lookup hlookup
          have htable : ∀ p ∈ Replication.LDAP_RC, p.2 ≠ .ok := by decide
          exact htable _ hmem
        have hnot : ¬ Succeeded text := fun h => hsuccess ⟨h.1, h.2.2⟩
        simp only [hnone, hphrase, hsuccess, hnot, false_and, iff_false, if_false, ne_eq,
          not_true_eq_false, Bool.false_eq_true]
        split
        · exact fun h => by cases h
        · split
          · exact hcode _ _ ‹_›
          · split <;> exact fun h => by cases h
    · have hnot : ¬ Succeeded text := fun h => hphrase h.2.1
      simp [hnone, hphrase, hnot, classifyText_ne_ok]

theorem class_transient_iff (text : String) (hok : ¬ Succeeded text) :
    (readText text).classify ∈ Replication.TRANSIENT ↔ Retried text := by
  rw [classify_readText]
  by_cases hnone : Replication.NO_SESSIONS_RE.search (cut text) = true
  · simp [hnone, Retried, Replication.TRANSIENT]
  · by_cases hphrase : classifyText (cut text) = .unclassified
    · have hsuccess : ¬ (Replication.SUCCESS_RE.search (cut text) = true
          ∧ (leadingCode text = none ∨ leadingCode text = some 0)) :=
        fun h => hok ⟨h.1, hphrase, h.2⟩
      have hcode : ∀ code cls, Replication.LDAP_RC.lookup code = some cls →
          (cls ∈ Replication.TRANSIENT ↔ code = 51) := by
        intro code cls hlookup
        have hmem := Assoc.mem_of_lookup hlookup
        have htable : ∀ p ∈ Replication.LDAP_RC,
            (p.2 ∈ Replication.TRANSIENT ↔ p.1 = 51) := by decide
        exact htable _ hmem
      simp only [hnone, hphrase, hsuccess, Retried, if_false, ne_eq, not_true_eq_false,
        Bool.false_eq_true, false_or, true_and, reduceCtorEq]
      split
      · rename_i hldap
        simp [hldap, Replication.TRANSIENT]
      · rename_i code hldap
        rw [hldap, Option.some.injEq]
        split
        · exact hcode _ _ ‹_›
        · rename_i hlookup
          have h51 : code ≠ 51 := by
            rintro rfl
            revert hlookup
            decide
          split <;> simp [h51, Replication.TRANSIENT]
    · simp [hnone, hphrase, classifyText_ne_noSessions, Retried, Replication.TRANSIENT]

/-! ## When the two readers agree -/

/-- Green is a success or a transient class to `parseStatus`, and its
success is not red. -/
def ReadersAgree {ε : Type} (loads : String → Option Value) (mark text : String) : Prop :=
  ∃ s, (parseStatus loads (.str text) .null : Except (Exc ε) _) = .ok s
    ∧ (mark = "green" → s.cls = .ok ∨ s.cls ∈ Replication.TRANSIENT)
    ∧ (s.cls = .ok → mark ≠ "red")

theorem parseStatus_text {ε : Type} (loads : String → Option Value) (text : String) :
    (parseStatus loads (.str text) .null : Except (Exc ε) _)
      = .ok (if text = "" then StatusRead.status {} else (readText text).status) := by
  by_cases h : text = ""
  · subst h
    rfl
  · have htruthy : (Value.str text).truthy = true := by simp [Value.truthy, h]
    rw [if_neg h]
    have htext : Replication.textOf (ε := ε) (.str text) = .ok (some text) := by
      rw [Replication.textOf, htruthy]
      rfl
    have hread : Replication.readStatus (ε := ε) loads (.str text) .null = .ok (readText text) := by
      unfold Replication.readStatus
      rw [htext]
      show Except.ok (((some text).map readText).getD {}) = Except.ok (readText text)
      rw [Option.map_some, Option.getD_some]
    rw [parseStatus, hread]
    rfl

theorem status_cls (text : String) : (readText text).status.cls = (readText text).classify := by
  obtain ⟨-, hsource, -⟩ := readText_fields text
  unfold StatusRead.status
  rw [if_neg (by rw [hsource]; decide)]

/-- The marks and the classes tell the same story exactly of the texts
that are empty, retried, or say `error` when they report no success. -/
theorem readers_agree_iff {ε : Type} (loads : String → Option Value) :
    (∀ text, ReadersAgree (ε := ε) loads (markOf text) text ↔ ToldAlike text)
      ∧ ∀ stdout, ∀ a ∈ parseListOutput stdout, a.status = markOf a.lastUpdateStatus := by
  refine ⟨fun text => ?_, marked_parseListOutput⟩
  unfold ReadersAgree
  rw [parseStatus_text]
  by_cases hempty : text = ""
  · subst hempty
    refine ⟨fun _ => .inl rfl, fun _ => ⟨_, rfl, ?_, ?_⟩⟩
    · exact fun h => absurd h (by decide)
    · exact fun h => absurd h (by decide)
  · have hmark : markOf text = if saysError text then "red" else "green" := by
      rw [markOf, if_neg hempty]
    have hgreen : markOf text = "green" ↔ saysError text = false := by
      rw [hmark]
      cases saysError text <;> decide
    have hred : markOf text ≠ "red" ↔ saysError text = false := by
      rw [hmark]
      cases saysError text <;> decide
    rw [if_neg hempty]
    simp only [Except.ok.injEq, exists_eq_left', status_cls, hgreen, hred,
      class_ok_iff, ToldAlike, hempty, false_or]
    by_cases hnone : Replication.NO_SESSIONS_RE.search (cut text) = true
    · have hretried : Retried text := .inl hnone
      have hclass : (readText text).classify = .noSessions := by
        rw [classify_readText, if_pos hnone]
      simp [hclass, hretried, hnone, Replication.TRANSIENT]
    · have hnone : Replication.NO_SESSIONS_RE.search (cut text) = false := by simpa using hnone
      by_cases hok : Succeeded text
      · have hnot : ¬ Retried text := by
          rintro (h | h | h | ⟨-, h⟩)
          · rw [hnone] at h
            cases h
          · rw [hok.2.1] at h
            cases h
          · rw [hok.2.1] at h
            cases h
          · have hlead := leadingCode_of_ldapCode h
            rcases hok.2.2 with h0 | h0
            · rw [h0] at hlead
              cases hlead
            · rw [h0] at hlead
              cases hlead
        simp [hok, hnone, hnot]
      · simp only [hok, false_and, false_or, class_transient_iff text hok, false_implies,
          and_true, not_false_eq_true, iff_true]
        cases saysError text with
        | false => simp
        | true => simp

/-- The list of a server whose only peer refused it. -/
def refusedOutput : String :=
  "ipa02.example.test: replica\n"
    ++ "  last update status: 3 Unable to acquire replica: permission denied\n"

/-- A supplier that was refused: no word `error`, and so green. -/
theorem refused_supplier_marked_green :
    ¬ ∀ stdout, ∀ a ∈ parseListOutput stdout,
      ReadersAgree (ε := Empty) (fun _ => none) a.status a.lastUpdateStatus := by
  intro h
  have hread : parseListOutput refusedOutput
      = [⟨"ipa02.example.test", "green", "3 Unable to acquire replica: permission denied", none⟩] := by
    decide +kernel
  obtain ⟨s, hs, hgreen, -⟩ := h _ _ (hread ▸ List.mem_singleton.mpr rfl)
  have hcls : (parseStatus (fun _ => none) (.str "3 Unable to acquire replica: permission denied")
      .null : Except (Exc Empty) _).map (·.cls) = .ok StatusClass.insufficientAccess := by
    decide +kernel
  rw [hs] at hcls
  have hs : s.cls = .insufficientAccess := Except.ok.inj hcls
  rcases hgreen rfl with h | h
  · rw [hs] at h
    cases h
  · rw [hs] at h
    revert h
    decide

end IpaDiagnose.ReplicationAgreements
