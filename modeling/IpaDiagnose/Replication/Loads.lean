import IpaDiagnose.Lib.PyEq
import IpaDiagnose.Replication.Order
import IpaDiagnose.Replication.Window

/-!
# Reading back what a run saved

The reader checks most of a document and refuses it if a check fails.
Five things it takes as they are: that a text of the form of a time is a
time, of the result itself and of what is pending; that what a finding
rests on and what it explained can be read through; that the fixes are a
dictionary. The comparison then adds the length of the window to what is
pending, which ends past the last year. There is nothing else that
raises (`load_total_iff`).
-/

namespace IpaDiagnose.Replication

open Py (Value Dict Exc)
open Resolver (Entry Runner isError)
open Result

variable {σ : Type}

/-! ## What the reader relies on -/

/-- A text of the form of a time, of which the calendar has none. -/
def impossibleTime : Value → Bool
  | .str s => Timestamp.read s == .invalid
  | _ => false

theorem parseTime_error {ε : Type} {v : Value} {e : Exc ε} :
    parseTime v = .error e ↔ impossibleTime v = true ∧ e = .valueError := by
  cases v with
  | str s =>
      simp only [parseTime, impossibleTime]
      cases Timestamp.read s with
      | invalid => simp [eq_comm]
      | unshaped => simp
      | stamp t => simp
  | _ => simp [parseTime, impossibleTime]

/-- What can be read through, with nothing for what is falsy. -/
def readableThrough (v : Value) : Bool :=
  !v.truthy ||
    match v with
    | .str _ | .list _ | .dict _ => true
    | _ => false

theorem elementsOf_error {v : Value} {e : LE} :
    elementsOf v = .error e ↔ readableThrough v = false ∧ e = .typeError := by
  unfold elementsOf orElse readableThrough
  cases htruthy : v.truthy with
  | false => simp [Value.iter]
  | true => cases v with
    | _ => simp [Value.iter, eq_comm]

theorem elementsOf_ok {v : Value} : (∃ vs, elementsOf v = .ok vs) ↔ readableThrough v = true := by
  cases h : elementsOf v with
  | ok vs =>
      refine ⟨fun _ => ?_, fun _ => ⟨vs, rfl⟩⟩
      by_contra hnot
      have herror := elementsOf_error.mpr ⟨by simpa using hnot, rfl⟩
      rw [h] at herror
      cases herror
  | error e =>
      have hnot := (elementsOf_error.mp h).1
      simp [hnot]

/-! ## A finding -/

/-- A record with a code and a subject of the right forms. -/
def shapedRecord : Value → Bool
  | .dict d =>
      match getField d "code", getField d "subject" with
      | .str code, .str subject => CODE_RE.fullmatch code && SUBJECT_RE.fullmatch subject
      | _, _ => false
  | _ => false

/-- What it rests on and what it explained can be read through. -/
def listsReadable : Value → Bool
  | .dict d => readableThrough (getField d "evidence") && readableThrough (getField d "explains")
  | _ => true

def malformed : LE := .own (.unreadable "malformed diagnosis record")

theorem readFinding_malformed {v : Value} (h : shapedRecord v = false) :
    readFinding v = .error malformed := by
  cases v with
  | dict d =>
      unfold shapedRecord at h
      unfold readFinding
      dsimp only at h ⊢
      cases hcode : getField d "code" with
      | str code =>
          cases hsubject : getField d "subject" with
          | str subject =>
              rw [hcode, hsubject] at h
              dsimp only at h ⊢
              rw [if_neg (by simp [h])]
              rfl
          | _ => rfl
      | _ => rfl
  | _ => rfl

/-- A record of the right form has a code and a subject of theirs. -/
theorem shapedRecord_dict {d : Dict} (h : shapedRecord (.dict d) = true) :
    ∃ code subject, getField d "code" = .str code ∧ getField d "subject" = .str subject
      ∧ (CODE_RE.fullmatch code && SUBJECT_RE.fullmatch subject) = true := by
  unfold shapedRecord at h
  dsimp only at h
  cases hcode : getField d "code" with
  | str code =>
      cases hsubject : getField d "subject" with
      | str subject =>
          rw [hcode, hsubject] at h
          exact ⟨code, subject, rfl, rfl, h⟩
      | _ =>
          rw [hcode, hsubject] at h
          cases h
  | _ =>
      rw [hcode] at h
      cases h

/-- A finding of the right form is read, or one of its lists is not. -/
theorem readFinding_shaped_cases {v : Value} (h : shapedRecord v = true) :
    (listsReadable v = true ∧ ∃ d, readFinding v = .ok d)
      ∨ (listsReadable v = false ∧ readFinding v = .error .typeError) := by
  cases v with
  | dict d =>
      obtain ⟨code, subject, hcode, hsubject, hmatch⟩ := shapedRecord_dict h
      unfold readFinding
      dsimp only [listsReadable]
      rw [hcode, hsubject]
      dsimp only
      rw [if_pos hmatch]
      cases hevidence : elementsOf (getField d "evidence") with
      | error e =>
          obtain ⟨hno, rfl⟩ := elementsOf_error.mp hevidence
          exact .inr ⟨by rw [hno]; rfl, rfl⟩
      | ok evidence =>
          rw [elementsOf_ok.mp ⟨_, hevidence⟩, Bool.true_and]
          cases hexplains : elementsOf (getField d "explains") with
          | error e =>
              obtain ⟨hno, rfl⟩ := elementsOf_error.mp hexplains
              exact .inr ⟨hno, rfl⟩
          | ok explains => exact .inl ⟨elementsOf_ok.mp ⟨_, hexplains⟩, _, rfl⟩
  | _ => cases h

/-- The findings are read, or the first that is not decides how it ends:
malformed, or with a list that is none. -/
theorem readFindings_cases (vs : List Value) :
    ((∃ ds, readFindings vs = .ok ds) ∧ vs.all shapedRecord = true
        ∧ (vs.takeWhile shapedRecord).all listsReadable = true)
      ∨ (readFindings vs = .error malformed ∧ vs.all shapedRecord = false
        ∧ (vs.takeWhile shapedRecord).all listsReadable = true)
      ∨ (readFindings vs = .error .typeError
        ∧ (vs.takeWhile shapedRecord).all listsReadable = false) := by
  induction vs with
  | nil => exact .inl ⟨⟨[], rfl⟩, rfl, rfl⟩
  | cons v vs ih =>
      unfold readFindings
      cases hshape : shapedRecord v with
      | false =>
          rw [readFinding_malformed hshape]
          exact .inr (.inl ⟨rfl, by simp [hshape], by simp [hshape]⟩)
      | true =>
          rw [List.takeWhile_cons_of_pos hshape, List.all_cons, List.all_cons, hshape]
          rcases readFinding_shaped_cases hshape with ⟨hlists, d, hd⟩ | ⟨hlists, herror⟩
          · rw [hd, ok_bind, hlists]
            rcases ih with ⟨⟨ds, hds⟩, hall, hread⟩ | ⟨herror, hnot, hread⟩ | ⟨herror, hnot⟩
            · exact .inl ⟨⟨d :: ds, by rw [hds]; rfl⟩, hall, hread⟩
            · exact .inr (.inl ⟨by rw [herror]; rfl, hnot, hread⟩)
            · exact .inr (.inr ⟨by rw [herror]; rfl, hnot⟩)
          · rw [herror, hlists]
            exact .inr (.inr ⟨rfl, rfl⟩)

/-! ## Fixes and pending findings -/

def fixesReadable (v : Value) : Bool := !v.truthy || v.isDict

theorem readFixes_cases (v : Value) :
    (fixesReadable v = true ∧ ∃ fixes, readFixes v = .ok fixes)
      ∨ (fixesReadable v = false ∧ readFixes v = .error .attributeError) := by
  unfold readFixes fixesReadable
  cases v.truthy with
  | false => exact .inl ⟨rfl, [], rfl⟩
  | true => cases v with
    | dict d => exact .inl ⟨rfl, _, rfl⟩
    | _ => exact .inr ⟨rfl, rfl⟩

/-- Since when the findings of a document are pending, as far as it is read. -/
def pendingEntries (doc : Dict) : Dict := (dictOr (getField doc "pending")).take 200

def noImpossibleTime (entries : Dict) : Bool := entries.all fun x => !impossibleTime x.2

theorem readPending_cases (entries : Dict) :
    (noImpossibleTime entries = true ∧ ∃ pending, readPending entries = .ok pending)
      ∨ (noImpossibleTime entries = false ∧ readPending entries = .error .valueError) := by
  induction entries with
  | nil => exact .inl ⟨rfl, [], rfl⟩
  | cons x entries ih =>
      unfold readPending
      rw [noImpossibleTime, List.all_cons]
      cases hx : impossibleTime x.2 with
      | true =>
          rw [parseTime_error.mpr ⟨hx, rfl⟩]
          exact .inr ⟨rfl, rfl⟩
      | false =>
          cases htime : (parseTime x.2 : Except LE _) with
          | error e =>
              rw [(parseTime_error.mp htime).1] at hx
              cases hx
          | ok since =>
              rw [ok_bind]
              rcases ih with ⟨hall, more, hmore⟩ | ⟨hnot, herror⟩
              · exact .inl ⟨hall, _, by rw [hmore, ok_bind]; rfl⟩
              · exact .inr ⟨hnot, by rw [herror]; rfl⟩

/-! ## The document -/

/-- A record of this kind and version, with a list of findings. -/
def isRecord (doc : Dict) : Bool :=
  (getField doc "state_version").pyEq (.int STATE_VERSION)
    && (getField doc "kind").pyEq (.str STATE_KIND) && (getField doc "diagnoses").isList

/-- Its findings, as far as they are read. -/
def findingRecords (doc : Dict) : List Value :=
  match getField doc "diagnoses" with
  | .list ds => ds.take 200
  | _ => []

/-- It says when it was made. -/
def dated (doc : Dict) : Bool :=
  match getField doc "generated_at" with
  | .str s => !(Timestamp.read s == .invalid) && !(Timestamp.read s == .unshaped)
  | _ => false

/-- What the reader takes as it is can be used, as far as the reader comes. -/
structure Usable (doc : Dict) : Prop where
  time : impossibleTime (getField doc "generated_at") = false
  lists : dated doc = true → ((findingRecords doc).takeWhile shapedRecord).all listsReadable = true
  fixes : dated doc = true → (findingRecords doc).all shapedRecord = true →
    fixesReadable (getField doc "fixes") = true
  pending : dated doc = true → (findingRecords doc).all shapedRecord = true →
    noImpossibleTime (pendingEntries doc) = true

def Loadable : Value → Prop
  | .dict doc => isRecord doc = true → Usable doc
  | _ => True

/-- There is a record, or it is refused. -/
def LoadsOrRefuses (doc : Value) : Prop :=
  (∃ p, load doc = .ok p) ∨ ∃ why, load doc = .error (.own (.unreadable why))

theorem parseTime_dated {doc : Dict} {t : Option Timestamp.Stamp}
    (h : (parseTime (getField doc "generated_at") : Except LE _) = .ok t) :
    dated doc = t.isSome ∧ impossibleTime (getField doc "generated_at") = false := by
  unfold dated impossibleTime
  cases hs : getField doc "generated_at" with
  | str s =>
      rw [hs, parseTime] at h
      dsimp only
      cases hread : Timestamp.read s with
      | stamp at_ =>
          rw [hread] at h
          obtain rfl := Except.ok.inj h
          exact ⟨rfl, rfl⟩
      | unshaped =>
          rw [hread] at h
          obtain rfl := Except.ok.inj h
          exact ⟨rfl, rfl⟩
      | invalid =>
          rw [hread] at h
          cases h
  | _ =>
      rw [hs] at h
      obtain rfl := Except.ok.inj h
      exact ⟨rfl, rfl⟩

theorem not_loads {doc : Value} {e : LE} (h : load doc = .error e)
    (hother : ∀ why, e ≠ .own (.unreadable why)) : ¬LoadsOrRefuses doc := by
  rintro (⟨p, hp⟩ | ⟨why, hwhy⟩)
  · rw [h] at hp
    cases hp
  · rw [h] at hwhy
    exact hother why (Except.error.inj hwhy)

/-- What is read of a record, once its time is. -/
def readFrom (doc : Dict) (ds : List Value) : Option Timestamp.Stamp → Except LE LoadedState
  | none => unreadable "no valid timestamp"
  | some at_ => do
      let diagnoses ← readFindings (ds.take 200)
      let fixes ← readFixes (getField doc "fixes")
      let pending ← readPending (pendingEntries doc)
      pure
        { generatedAt := at_
          host := textOnly (getField doc "host")
          diagnoses := diagnoses
          relationships := readRelationships (getField doc "relationships")
          fixes := fixes
          pending := pending
          peer := textOnly (getField (dictOr (getField doc "inputs")) "peer") }

/-- A record of the right kind, by what the reader comes to in it. -/
theorem loads_record {doc : Dict} (hrecord : isRecord doc = true) :
    LoadsOrRefuses (.dict doc) ↔ Usable doc := by
  obtain ⟨hheader, hlist⟩ := Bool.and_eq_true_iff.mp hrecord
  obtain ⟨ds, hds⟩ : ∃ ds, getField doc "diagnoses" = .list ds := by
    cases hds : getField doc "diagnoses" with
    | list ds => exact ⟨ds, rfl⟩
    | _ => simp [hds, Value.isList] at hlist
  have hfindings : findingRecords doc = ds.take 200 := by rw [findingRecords, hds]
  have hload : load (.dict doc) = parseTime (getField doc "generated_at") >>= readFrom doc ds := by
    simp only [load, hds, hheader, if_pos]
    rfl
  cases htime : (parseTime (getField doc "generated_at") : Except LE _) with
  | error e =>
      obtain ⟨himpossible, rfl⟩ := parseTime_error.mp htime
      rw [htime] at hload
      refine iff_of_false (not_loads hload fun why h => by cases h) fun h => ?_
      rw [h.time] at himpossible
      cases himpossible
  | ok stamp =>
      obtain ⟨hdated, hpossible⟩ := parseTime_dated htime
      rw [htime, ok_bind] at hload
      cases stamp with
      | none =>
          have hno {P : Prop} (h : dated doc = true) : P := by simp [hdated] at h
          exact iff_of_true (.inr ⟨_, hload⟩) ⟨hpossible, hno, hno, hno⟩
      | some at_ =>
          have hyes : dated doc = true := hdated
          dsimp only [readFrom] at hload
          rcases readFindings_cases (ds.take 200) with
            ⟨⟨findings, hread⟩, hall, hlists⟩ | ⟨hread, hnot, hlists⟩ | ⟨hread, hlists⟩
          · rw [hread, ok_bind] at hload
            rcases readFixes_cases (getField doc "fixes") with
              ⟨hfixes, fixes, hok⟩ | ⟨hfixes, herror⟩
            · rw [hok, ok_bind] at hload
              rcases readPending_cases (pendingEntries doc) with
                ⟨hpending, pending, hok⟩ | ⟨hpending, herror⟩
              · rw [hok, ok_bind] at hload
                exact iff_of_true (.inl ⟨_, hload⟩) ⟨hpossible, fun _ => by rw [hfindings]; exact hlists,
                  fun _ _ => hfixes, fun _ _ => hpending⟩
              · rw [herror] at hload
                refine iff_of_false (not_loads hload fun why h => by cases h) fun h => ?_
                rw [h.pending hyes (by rw [hfindings]; exact hall)] at hpending
                cases hpending
            · rw [herror] at hload
              refine iff_of_false (not_loads hload fun why h => by cases h) fun h => ?_
              rw [h.fixes hyes (by rw [hfindings]; exact hall)] at hfixes
              cases hfixes
          · rw [hread] at hload
            have hno {P : Prop} (h : (findingRecords doc).all shapedRecord = true) : P := by
              rw [hfindings, hnot] at h
              cases h
            exact iff_of_true (.inr ⟨_, hload⟩) ⟨hpossible, fun _ => by rw [hfindings]; exact hlists,
              fun _ => hno, fun _ => hno⟩
          · rw [hread] at hload
            refine iff_of_false (not_loads hload fun why h => by cases h) fun h => ?_
            have hsame := h.lists hyes
            rw [hfindings, hlists] at hsame
            cases hsame

theorem loads_iff (doc : Value) : LoadsOrRefuses doc ↔ Loadable doc := by
  cases doc with
  | dict doc =>
      by_cases hrecord : isRecord doc = true
      · exact (loads_record hrecord).trans ⟨fun h _ => h, fun h => h hrecord⟩
      · refine iff_of_true (.inr ⟨"not a replication state record", ?_⟩) fun h => absurd h hrecord
        unfold load
        dsimp only
        split
        · rename_i ds hds
          refine if_neg fun hheader => hrecord ?_
          rw [isRecord, hheader, hds]
          rfl
        · rfl
  | _ => exact iff_of_true (.inr ⟨_, rfl⟩) trivial

/-! ## Comparing with what was read -/

section Compare

variable {sha256 : String → String} {cat : List Entry} {p : LoadedState}
  {fresh : ReplicationResult} {runner : Runner σ} {now : Now} {d : Finding} {so : Outcomes}
  {s s' : σ}

/-- The calendar has a time so many seconds later. -/
def inCalendar (time seconds : Nat) : Bool :=
  decide (time + seconds * 1000000 < (lastStamp.seconds + 1) * 1000000)

theorem later_cases (time seconds : Nat) :
    (inCalendar time seconds = true ∧ later time seconds = .ok (time + seconds * 1000000))
      ∨ (inCalendar time seconds = false ∧ later time seconds = .error .overflowError) := by
  unfold inCalendar later
  split
  · rename_i h
    exact .inl ⟨decide_eq_true h, rfl⟩
  · rename_i h
    exact .inr ⟨decide_eq_false h, rfl⟩

theorem green_state {v : Value} (h : v.pyEq StatusClass.ok.value = true) : v = .str "OK" := by
  cases v with
  | str x =>
      have hx : x = StatusClass.ok.text := by simpa [StatusClass.value, Value.pyEq] using h
      exact congrArg Value.str hx
  | _ => cases h

theorem sessionState_error {x : Relationship} {e : Resolver.E} :
    sessionState p x = .error e ↔ impossibleTime x.lastUpdateEnd = true ∧ e = .valueError := by
  unfold sessionState
  rw [bind_error, parseTime_error]
  refine or_iff_left ?_
  rintro ⟨ended, -, h⟩
  cases ended with
  | none => cases h
  | some ended =>
      dsimp only at h
      split at h
      · cases h
      · split at h
        · cases h
        · cases h

theorem agreementState_error {subject : String} {e : Resolver.E} :
    agreementState p fresh subject = .error e ↔
      (∃ x, relationshipOf fresh subject = some x ∧ x.state.pyEq StatusClass.ok.value = true
        ∧ impossibleTime x.lastUpdateEnd = true) ∧ e = .valueError := by
  unfold agreementState
  cases hx : relationshipOf fresh subject with
  | none => simp
  | some x =>
      dsimp only
      by_cases hgreen : x.state.pyEq StatusClass.ok.value = true
      · have hstate := green_state hgreen
        rw [if_neg (by rw [hstate]; decide), if_neg (by rw [hstate]; decide), if_pos hgreen,
          sessionState_error]
        simp [hgreen]
      · rw [if_neg hgreen]
        refine iff_of_false (fun h => ?_) ?_
        · split at h
          · cases h
          · split at h
            · cases h
            · split at h
              · cases h
              · cases h
        · rintro ⟨⟨y, hy, hok, -⟩, -⟩
          obtain rfl := Option.some.inj hy
          exact hgreen hok

theorem pendingOr_returns {key : String} {still : ItemOutcome} :
    (∃ v, pendingOr p now key still = .ok v) ↔
      inCalendar (pendingSince p now key).2 CONVERGENCE_WINDOW = true
        ∧ (waits p now key = true → inCalendar now.time RECHECK = true) := by
  unfold pendingOr
  rcases later_cases (pendingSince p now key).2 CONVERGENCE_WINDOW with ⟨hyes, hok⟩ | ⟨hno, herror⟩
  · rw [hok, ok_bind, hyes]
    by_cases hwaits : waits p now key = true
    · rw [if_pos hwaits]
      rcases later_cases now.time RECHECK with ⟨hyes, hok⟩ | ⟨hno, herror⟩
      · rw [hok, ok_bind]
        exact iff_of_true ⟨_, rfl⟩ ⟨rfl, fun _ => hyes⟩
      · rw [herror, hno]
        refine iff_of_false (fun ⟨_, h⟩ => by cases h) fun h => ?_
        cases h.2 hwaits
    · rw [if_neg hwaits]
      exact iff_of_true ⟨_, rfl⟩ ⟨rfl, fun h => absurd h hwaits⟩
  · rw [herror, hno]
    exact iff_of_false (fun ⟨_, h⟩ => by cases h) fun h => by cases h.1

/-- The times that judging an agreement needs exist. -/
structure Timed (p : LoadedState) (fresh : ReplicationResult) (now : Now) (d : Finding) : Prop where
  session : ∀ x, relationshipOf fresh d.subject = some x →
    x.state.pyEq StatusClass.ok.value = true → impossibleTime x.lastUpdateEnd = false
  window : agreementState p fresh d.subject = .ok .noFresh
      ∨ agreementState p fresh d.subject = .ok .transient →
    inCalendar (pendingSince p now d.key).2 CONVERGENCE_WINDOW = true
      ∧ (waits p now d.key = true → inCalendar now.time RECHECK = true)

theorem judgeAgreement_returns :
    (∃ v, judgeAgreement p fresh now d = .ok v) ↔ Timed p fresh now d := by
  unfold judgeAgreement
  cases hstate : agreementState p fresh d.subject with
  | error e =>
      obtain ⟨⟨x, hx, hgreen, himpossible⟩, -⟩ := agreementState_error.mp hstate
      refine iff_of_false (fun ⟨_, h⟩ => by cases h) fun h => ?_
      rw [h.session x hx hgreen] at himpossible
      cases himpossible
  | ok state =>
      have hsession : ∀ x, relationshipOf fresh d.subject = some x →
          x.state.pyEq StatusClass.ok.value = true → impossibleTime x.lastUpdateEnd = false := by
        intro x hx hgreen
        by_contra himpossible
        have herror := agreementState_error (p := p) |>.mpr
          ⟨⟨x, hx, hgreen, by simpa using himpossible⟩, rfl⟩
        rw [hstate] at herror
        cases herror
      have hcalm (h : state ≠ .noFresh) (h' : state ≠ .transient) : Timed p fresh now d := by
        refine ⟨hsession, fun hpending => ?_⟩
        rw [hstate] at hpending
        rcases hpending with hpending | hpending
        · exact absurd (Except.ok.inj hpending) h
        · exact absurd (Except.ok.inj hpending) h'
      rw [ok_bind]
      cases state with
      | noFresh =>
          exact pendingOr_returns.trans ⟨fun h => ⟨hsession, fun _ => h⟩, fun h => h.window (.inl hstate)⟩
      | transient =>
          exact pendingOr_returns.trans ⟨fun h => ⟨hsession, fun _ => h⟩, fun h => h.window (.inr hstate)⟩
      | failing =>
          refine iff_of_true ?_ (hcalm nofun nofun)
          dsimp only
          split
          · exact ⟨_, rfl⟩
          · exact ⟨_, rfl⟩
      | ok => exact iff_of_true ⟨_, rfl⟩ (hcalm nofun nofun)
      | unobserved => exact iff_of_true ⟨_, rfl⟩ (hcalm nofun nofun)

theorem pendingOr_error {key : String} {still : ItemOutcome} {e : Resolver.E}
    (h : pendingOr p now key still = .error e) : e = .overflowError := by
  have hlater {time seconds : Nat} (h : later time seconds = .error e) : e = .overflowError := by
    unfold later at h
    split at h
    · cases h
    · exact (Except.error.inj h).symm
  rcases bind_error.mp h with h | ⟨_, -, h⟩
  · exact hlater h
  · split at h
    · rcases bind_error.mp h with h | ⟨_, -, h⟩
      · exact hlater h
      · cases h
    · cases h

/-- What judging an agreement raises is an error. -/
theorem judgeAgreement_error {e : Resolver.E} (h : judgeAgreement p fresh now d = .error e) :
    isError e = true := by
  rcases bind_error.mp h with h | ⟨state, -, h⟩
  · rw [(agreementState_error.mp h).2]
    rfl
  · cases state with
    | noFresh =>
        rw [pendingOr_error h]
        rfl
    | transient =>
        rw [pendingOr_error h]
        rfl
    | failing =>
        dsimp only at h
        split at h
        · cases h
        · cases h
    | ok => cases h
    | unobserved => cases h

/-- Judging a cause only ends with an interrupt. -/
theorem judge_cause_error {e : Resolver.E} (hcause : isAgreement d.subject = false)
    (h : judge sha256 cat p fresh runner now so d s = (.error e, s')) : e = .keyboardInterrupt := by
  have hfix {fix : Value} {s : σ} (h : judgeFix sha256 cat fix runner s = (.error e, s')) :
      e = .keyboardInterrupt := by
    unfold judgeFix at h
    split at h
    · rename_i hrebuild
      obtain rfl := Except.error.inj (Prod.mk.inj h).1
      exact Resolver.rebuildVerify_error hrebuild
    · split at h
      · rename_i heval
        obtain rfl := Except.error.inj (Prod.mk.inj h).1
        exact Resolver.evaluateVerify_error heval
      · split at h
        · cases h
        · split at h
          · cases h
          · cases h
    · cases h
  unfold judge at h
  split at h
  · cases h
  · rw [if_neg (by rw [hcause]; decide)] at h
    split at h
    · rename_i e' s₁ hjudged
      obtain ⟨he, rfl⟩ := Prod.mk.inj h
      obtain rfl := Except.error.inj he
      unfold judgeCause at hjudged
      split at hjudged
      · cases hjudged
      · unfold judgeOwn at hjudged
        split at hjudged
        · cases hjudged
        · split at hjudged
          · cases hjudged
          · split at hjudged
            · cases hjudged
            · cases hjudged
            · exact hfix hjudged
    · cases h

/-- Every agreement that is judged has its times. -/
def Comparable (p : LoadedState) (fresh : ReplicationResult) (now : Now) : Prop :=
  ∀ d ∈ oldItems p, refused p fresh d = none → isAgreement d.subject = true → Timed p fresh now d

theorem agreementVerdict_returns :
    (∃ v, agreementVerdict p fresh now d = .ok v) ↔
      (refused p fresh d = none → Timed p fresh now d) := by
  unfold agreementVerdict
  cases refused p fresh d with
  | some o => simp
  | none => simpa using judgeAgreement_returns

/-- No error ends a comparison; an interrupt may. -/
def Compares (sha256 : String → String) (cat : List Entry) (p : LoadedState)
    (fresh : ReplicationResult) (runner : Runner σ) (now : Now) (s : σ) : Prop :=
  ∀ e s', compare sha256 cat p fresh runner now s = (.error e, s') → isError e = false

theorem causes_interrupted {ds : List Finding} (hds : ∀ d ∈ ds, isAgreement d.subject = false)
    {c : Compared} {e : Resolver.E}
    (h : compareFindings sha256 cat p fresh runner now ds c s = (.error e, s')) :
    e = .keyboardInterrupt := by
  induction ds generalizing c s with
  | nil => cases h
  | cons d ds ih =>
      unfold compareFindings at h
      split at h
      · rename_i hjudge
        obtain ⟨he, rfl⟩ := Prod.mk.inj h
        obtain rfl := Except.error.inj he
        exact judge_cause_error (hds d List.mem_cons_self) hjudge
      · exact ih (fun d hd => hds d (List.mem_cons_of_mem _ hd)) h

/-- Agreements come first, and are judged without asking anything. -/
theorem compareFindings_error {agreements causes : List Finding}
    (hagreements : ∀ d ∈ agreements, isAgreement d.subject = true)
    (hcauses : ∀ d ∈ causes, isAgreement d.subject = false) (c : Compared) (s : σ) :
    (∃ e s', compareFindings sha256 cat p fresh runner now (agreements ++ causes) c s
        = (.error e, s') ∧ isError e = true) ↔
      ¬∀ d ∈ agreements, refused p fresh d = none → Timed p fresh now d := by
  induction agreements generalizing c with
  | nil =>
      refine iff_of_false ?_ (by simp)
      rintro ⟨e, s', h, herror⟩
      obtain rfl := causes_interrupted hcauses h
      cases herror
  | cons d ds ih =>
      rw [List.forall_mem_cons, List.cons_append]
      unfold compareFindings
      rw [judge_agreement (hagreements d List.mem_cons_self)]
      cases hverdict : agreementVerdict p fresh now d with
      | error e =>
          refine iff_of_true ⟨e, s, rfl, ?_⟩ fun h => ?_
          · unfold agreementVerdict at hverdict
            split at hverdict
            · cases hverdict
            · exact judgeAgreement_error hverdict
          · obtain ⟨v, hv⟩ := agreementVerdict_returns.mpr h.1
            rw [hverdict] at hv
            cases hv
      | ok v =>
          have hd := agreementVerdict_returns.mp ⟨v, hverdict⟩
          dsimp only
          rw [ih (fun d hd => hagreements d (List.mem_cons_of_mem _ hd))]
          exact not_congr ⟨fun h => ⟨hd, h⟩, fun h => h.2⟩

theorem compares_iff :
    Compares sha256 cat p fresh runner now s ↔ Comparable p fresh now := by
  have hagreements : ∀ d ∈ (p.diagnoses.filter followedUp).filter (fun d => isAgreement d.subject),
      isAgreement d.subject = true := fun d hd => (List.mem_filter.mp hd).2
  have hcauses : ∀ d ∈ (p.diagnoses.filter followedUp).filter (fun d => !isAgreement d.subject),
      isAgreement d.subject = false := fun d hd => by simpa using (List.mem_filter.mp hd).2
  have herror : (∃ e s', compareFindings sha256 cat p fresh runner now (_ ++ _) {} s
      = (.error e, s') ∧ isError e = true) ↔ _ := compareFindings_error hagreements hcauses {} s
  constructor
  · intro h d hd hasked hagreement
    by_contra hnot
    obtain ⟨e, s', hraises, hiserror⟩ := herror.mpr fun hall => by
      refine hnot (hall d (List.mem_filter.mpr ⟨?_, hagreement⟩) hasked)
      rcases List.mem_append.mp hd with hd | hd
      · exact (List.mem_filter.mp hd).1
      · exact (List.mem_filter.mp hd).1
    have hno := h e s' (by unfold Replication.compare oldItems; rw [hraises])
    rw [hiserror] at hno
    cases hno
  · intro h e s' hraises
    by_contra hiserror
    unfold Replication.compare at hraises
    split at hraises
    · rename_i e' s₁ hfindings
      obtain ⟨he, -⟩ := Prod.mk.inj hraises
      obtain rfl := Except.error.inj he
      refine herror.mp ⟨e', s₁, hfindings, by simpa using hiserror⟩ fun d hd hasked => ?_
      exact h d (List.mem_append_left _ hd) hasked (hagreements d hd)
    · cases hraises

end Compare

/-- **Reading a document gives a record or refuses it, and the record can
be compared, exactly if nothing the code takes as it is is amiss.** -/
theorem load_total_iff (sha256 : String → String) (cat : List Entry) (runner : Runner σ)
    (doc : Value) (fresh : ReplicationResult) (now : Now) (s : σ) :
    (LoadsOrRefuses doc
        ∧ ∀ p, load doc = .ok p → Compares sha256 cat p fresh runner now s) ↔
      Loadable doc ∧ ∀ p, load doc = .ok p → Comparable p fresh now :=
  and_congr (loads_iff doc) (forall_congr' fun _ => imp_congr_right fun _ => compares_iff)

/-! ## Times that do not exist -/

namespace Leap

/-- A saved result without findings, made at some time. -/
def madeAt (time : String) : Value :=
  .dict [("state_version", .int STATE_VERSION), ("kind", .str STATE_KIND),
    ("generated_at", .str time), ("diagnoses", .list [])]

/-- An agreement that is pending since the last second there is. -/
def pendingToTheEnd : Value := withPending [(Unseen.forth.key, lastStamp)] Unseen.doc

theorem pendingToTheEnd_loaded :
    load pendingToTheEnd = .ok (Unseen.saved [(Unseen.forth.key, lastStamp)]) := by
  decide

theorem pendingToTheEnd_raises :
    (compare id [] (Unseen.saved [(Unseen.forth.key, lastStamp)]) (Unseen.fresh .pass) Unseen.runner
      ⟨Unseen.at5, 0, by decide⟩ ()).1 = .error .overflowError := by
  decide

end Leap

/-- A thirtieth of February is neither read nor refused; and a record is
read whose window ends after the last year, which cannot be compared. -/
theorem impossible_times_raise :
    (¬∀ doc, LoadsOrRefuses doc)
      ∧ ¬∀ (sha256 : String → String) (cat : List Entry) (runner : Runner Unit) (doc : Value)
          (p : LoadedState) (fresh : ReplicationResult) (now : Now),
        load doc = .ok p → fresh.Investigated → Compares sha256 cat p fresh runner now () := by
  constructor
  · intro h
    have hloads := (loads_iff (Leap.madeAt "2026-02-30T00:00:00Z")).mp (h _)
    have htime := (hloads (by decide +kernel)).time
    revert htime
    decide +kernel
  · intro h
    have hcompares := h id [] Unseen.runner Leap.pendingToTheEnd _ _ ⟨Unseen.at5, 0, by decide⟩
      Leap.pendingToTheEnd_loaded (Unseen.fresh_investigated .pass (.inl rfl))
    have hno := hcompares _ () (Prod.ext Leap.pendingToTheEnd_raises rfl)
    cases hno

end IpaDiagnose.Replication
