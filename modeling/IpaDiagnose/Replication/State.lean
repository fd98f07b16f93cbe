import IpaDiagnose.Lib.Assoc
import IpaDiagnose.Lib.Timestamp
import IpaDiagnose.Replication.Roles
import IpaDiagnose.Verify.Saved

/-!
# What a replication run leaves for `--verify`

The result of an investigation as far as a later run looks at it: the
diagnoses, the state of every relationship in both directions, and the
fixes that were shown. It is written to a state file, and read back from
there with bounds and patterns of the reader's own.
-/

namespace IpaDiagnose.Replication

open Py (Value Dict Exc)
open Planner (Outcome Record Trace Enumeration)
open Regex (Re)
open Resolver (Resolution)
open Result

/-! ## The result of an investigation -/

/-- One direction of an agreement, by suffix, supplier and consumer. -/
structure Relationship where
  subject : String
  inbound : Bool
  /-- A status class, or one of `OK`, `FAILING`, `TRANSIENT` and `UNKNOWN`. -/
  state : Value
  lastUpdateEnd : Value
  updateInProgress : Value
deriving DecidableEq

def ReverseState.text : ReverseState → String
  | .unknown => "UNKNOWN"
  | .ok => StatusClass.ok.text
  | .transient => "TRANSIENT"
  | .failing => "FAILING"

/-- What is looked up in a dictionary of texts. -/
def lookupText {α : Type} (d : List (String × α)) : Value → Except E (Option α)
  | .str s => .ok (d.lookup s)
  | v => do
      hashed v
      pure none

/-- The record of a step for the subject an item names. -/
def recordFor (t : Trace) (base : String) : Value → Option Record
  | .str subj => t.getFor base subj
  | _ => none

/-- The two directions of a listed agreement. -/
def relationshipsOf (t : Trace) (me : Value) (reverses : Reverses) (item : Dict) :
    Except E (List Relationship) := do
  let subj ← needItem item "subject"
  let suffix ← needItem item "suffix_kind"
  let consumer ← needItem item "consumer"
  let state ← lookupText reverses subj
  let read := recordFor t "reverse" subj
  let fact (name : String) : Value := (read.map fun r => getField r.facts name).getD .null
  pure [
    { subject := rel suffix me consumer, inbound := false
      state := getField item "status_class"
      lastUpdateEnd := getField item "last_update_end"
      updateInProgress := getField item "update_in_progress" },
    { subject := rel suffix consumer me, inbound := true
      state := .str (state.getD .unknown).text
      lastUpdateEnd := fact "last_update_end"
      updateInProgress := fact "update_in_progress" }]

def relationshipsOfAll (t : Trace) (me : Value) (reverses : Reverses) :
    List Value → Except E (List Relationship)
  | [] => .ok []
  | .dict item :: rest => do
      let two ← relationshipsOf t me reverses item
      let more ← relationshipsOfAll t me reverses rest
      pure (two ++ more)
  | _ :: rest => relationshipsOfAll t me reverses rest

/-- Every listed agreement, in both directions. -/
def relationships (t : Trace) (me : Value) (reverses : Reverses) :
    Except E (List Relationship) :=
  match t.get "agreements" with
  | none => .ok []
  | some r =>
      if r.outcome = .skipped ∨ r.outcome = .unknown ∨ me.truthy = false then .ok []
      else do
        let listed ← (orElse (getField r.facts "subjects") (.list [])).iter
        relationshipsOfAll t me reverses listed

structure ReplicationResult where
  mode : String
  generatedAt : Timestamp.Stamp
  /-- `environment["host"]` -/
  host : Value
  /-- `inputs["peer"]` -/
  peer : Option String
  trace : Trace
  diagnoses : List ReplDiagnosis
  /-- By key, in the order they were made. -/
  resolutions : List (String × Resolution)
  relationships : List Relationship
  keyed : (resolutions.map Prod.fst).Nodup := by simp

/-- Without resolutions there are no keys. -/
theorem no_keys : (([] : List (String × Resolution)).map Prod.fst).Nodup := List.nodup_nil

/-- What an investigation puts together from its trace. -/
def ReplicationResult.Investigated (r : ReplicationResult) : Prop :=
  ∃ ago inputs out, diagnose r.trace ago inputs = .ok out ∧ r.diagnoses = out.diags
    ∧ Replication.relationships r.trace r.host out.reverse = .ok r.relationships

/-! ## Writing -/

def STATE_VERSION : Int := 1

def STATE_KIND : String := "ipa-diagnose.replication.state"

def Severity.text : Severity → String
  | .fail => "FAIL"
  | .warn => "WARN"

def Kind.text : Kind → String
  | .undiagnosed => "UNDIAGNOSED"
  | .contradicting => "CONTRADICTING"
  | .transient => "TRANSIENT"

def optText : Option String → Value
  | some s => .str s
  | none => .null

def texts (ss : List String) : Value := .list (ss.map Value.str)

/-- The record of a fix that was offered; an entry with a leading underscore is no fix. -/
def stateFix (x : String × Resolution) : Option (String × Value) :=
  if PyStr.startsWith x.1 "_" then none
  else if x.2.status = .offered then
    x.2.baseline.map fun b => (x.1, .dict (Verify.fixRecord b ("replication." ++ x.1)))
  else none

def stateDiagnosis (d : ReplDiagnosis) : Dict :=
  [("key", .str d.key), ("code", .str d.code.text), ("subject", .str d.subject),
    ("severity", .str d.severity.text), ("kind", optText (d.kind.map Kind.text)),
    ("related_to", optText d.relatedTo), ("explains", texts d.explains),
    ("evidence", texts d.evidence)]

/-- By subject; of several the last. -/
def stateRelationships (rs : List Relationship) : List (String × Value) :=
  Assoc.update [] (rs.map fun x =>
    (x.subject, .dict [("state", x.state), ("last_update_end", x.lastUpdateEnd)]))

def toState (r : ReplicationResult) (pending : List (String × Timestamp.Stamp)) : Value :=
  .dict [("state_version", .int STATE_VERSION), ("kind", .str STATE_KIND),
    ("generated_at", .str r.generatedAt.text), ("mode", .str r.mode), ("host", r.host),
    ("inputs", .dict [("peer", optText r.peer)]),
    ("diagnoses", .list (r.diagnoses.map fun d => .dict (stateDiagnosis d))),
    ("relationships", .dict (stateRelationships r.relationships)),
    ("fixes", .dict (Assoc.update [] (r.resolutions.filterMap stateFix))),
    ("pending", .dict (pending.map fun p => (p.1, .str p.2.text)))]

/-! ## Reading -/

def CODE_RE : Re :=
  .seq (.cls Regex.upper)
    (.rept 1 60 (.cls fun c => Regex.upper c || Regex.digit c || c == '_'))

def SUBJECT_RE : Re :=
  .seq (.rept 2 12 (.cls Regex.lower)) (.seq (.char ':')
    (.rept 1 300 (.cls fun c => Regex.lower c || Regex.upper c || Regex.digit c
      || " .:>|/@_-".toList.contains c)))

/-- A name of a step, with the subject it is for. -/
def STEP_RE : Re :=
  .seq (.cls Regex.lower)
    (.seq (.rept 0 40 (.cls fun c => Regex.lower c || Regex.digit c || c == '_' || c == '.'))
      (.opt (.seq (.char '@') (.seq (.rept 2 8 (.cls Regex.lower)) (.seq (.char ':')
        (.rept 1 253 (.cls fun c => Regex.lower c || Regex.digit c || c == '.' || c == '-')))))))

inductive LoadError where
  /-- `UnreadableState` -/
  | unreadable (why : String)
deriving DecidableEq, Repr

abbrev LE := Exc LoadError

def unreadable {α : Type} (why : String) : Except LE α := .error (.own (.unreadable why))

/-- A saved finding. Its key is made of its code and its subject again. -/
structure Finding where
  code : String
  subject : String
  severity : Severity
  kind : Option Kind
  explains : List String
  evidence : List String
deriving DecidableEq

def Finding.key (d : Finding) : String := d.code ++ "@" ++ d.subject

structure LoadedState where
  generatedAt : Timestamp.Stamp
  host : Option String
  diagnoses : List Finding
  relationships : List (String × Dict)
  fixes : List (String × Value)
  /-- Since when a finding has been pending. -/
  pending : List (String × Timestamp.Stamp)
  peer : Option String
deriving DecidableEq

/-- A time that is no time of the calendar raises. -/
def parseTime {ε : Type} : Value → Except (Exc ε) (Option Timestamp.Stamp)
  | .str s =>
      match Timestamp.read s with
      | .stamp t => .ok (some t)
      | .unshaped => .ok none
      | .invalid => .error .valueError
  | _ => .ok none

def textsOf : List Value → List String := List.filterMap fun v =>
  match v with
  | .str s => some s
  | _ => none

/-- `v or []`, read through. -/
def elementsOf (v : Value) : Except LE (List Value) := (orElse v (.list [])).iter

def readSeverity (v : Value) : Severity :=
  if v.pyEq (.str "WARN") then .warn else .fail

def readKind (v : Value) : Option Kind :=
  if v.pyEq (.str "UNDIAGNOSED") then some .undiagnosed
  else if v.pyEq (.str "CONTRADICTING") then some .contradicting
  else if v.pyEq (.str "TRANSIENT") then some .transient
  else none

def EVIDENCE_LIMIT : Nat := 20

def EXPLAINS_LIMIT : Nat := 50

def readFinding : Value → Except LE Finding
  | .dict d =>
      match getField d "code", getField d "subject" with
      | .str code, .str subject =>
          if CODE_RE.fullmatch code && SUBJECT_RE.fullmatch subject then do
            let evidence ← elementsOf (getField d "evidence")
            let explains ← elementsOf (getField d "explains")
            pure
              { code := code
                subject := subject
                severity := readSeverity (getField d "severity")
                kind := readKind (getField d "kind")
                explains := (textsOf explains).take EXPLAINS_LIMIT
                evidence := ((textsOf evidence).filter STEP_RE.fullmatch).take EVIDENCE_LIMIT }
          else unreadable "malformed diagnosis record"
      | _, _ => unreadable "malformed diagnosis record"
  | _ => unreadable "malformed diagnosis record"

def readFindings : List Value → Except LE (List Finding)
  | [] => .ok []
  | v :: vs => do
      let d ← readFinding v
      let ds ← readFindings vs
      pure (d :: ds)

def dictOr : Value → Dict
  | .dict d => d
  | _ => []

def readRelationships (v : Value) : List (String × Dict) :=
  ((dictOr v).take 200).filterMap fun x =>
    match x.2 with
    | .dict d => some (x.1, d)
    | _ => none

/-- `(doc.get("fixes") or {}).items()` -/
def readFixes (v : Value) : Except LE (List (String × Value)) :=
  if v.truthy then
    match v with
    | .dict d => .ok (d.take 20)
    | _ => .error .attributeError
  else .ok []

def readPending : Dict → Except LE (List (String × Timestamp.Stamp))
  | [] => .ok []
  | (k, v) :: rest => do
      let since ← parseTime v
      let more ← readPending rest
      pure (match since with
        | some t => (k, t) :: more
        | none => more)

def textOnly : Value → Option String
  | .str s => some s
  | _ => none

/-- A document that was read from the state file. -/
def load : Value → Except LE LoadedState
  | .dict doc =>
      match getField doc "diagnoses" with
      | .list ds =>
          if (getField doc "state_version").pyEq (.int STATE_VERSION)
              && (getField doc "kind").pyEq (.str STATE_KIND) then do
            match ← parseTime (getField doc "generated_at") with
            | none => unreadable "no valid timestamp"
            | some at_ => do
                let diagnoses ← readFindings (ds.take 200)
                let fixes ← readFixes (getField doc "fixes")
                let pending ← readPending ((dictOr (getField doc "pending")).take 200)
                pure
                  { generatedAt := at_
                    host := textOnly (getField doc "host")
                    diagnoses := diagnoses
                    relationships := readRelationships (getField doc "relationships")
                    fixes := fixes
                    pending := pending
                    peer := textOnly (getField (dictOr (getField doc "inputs")) "peer") }
          else unreadable "not a replication state record"
      | _ => unreadable "not a replication state record"
  | _ => unreadable "not a replication state record"

/-! ## What is loaded -/

theorem readFinding_of {d : Dict} {code subject : String} {evidence explains : List Value}
    (hcode : getField d "code" = .str code) (hsubject : getField d "subject" = .str subject)
    (hshape : CODE_RE.fullmatch code = true ∧ SUBJECT_RE.fullmatch subject = true)
    (hevidence : elementsOf (getField d "evidence") = .ok evidence)
    (hexplains : elementsOf (getField d "explains") = .ok explains) :
    readFinding (.dict d) = .ok
      { code := code, subject := subject, severity := readSeverity (getField d "severity")
        kind := readKind (getField d "kind")
        explains := (textsOf explains).take EXPLAINS_LIMIT
        evidence := ((textsOf evidence).filter STEP_RE.fullmatch).take EVIDENCE_LIMIT } := by
  unfold readFinding
  simp only [hcode, hsubject, hshape.1, hshape.2, hevidence, hexplains]
  rfl

@[simp] theorem parseTime_text {ε : Type} (t : Timestamp.Stamp) :
    (parseTime (.str t.text) : Except (Exc ε) _) = .ok (some t) := by
  simp only [parseTime, Timestamp.read_text]

/-- What a document is read as, field by field. -/
structure Reads (doc : Dict) (p : LoadedState) : Prop where
  version : (getField doc "state_version").pyEq (.int STATE_VERSION) = true
  kind : (getField doc "kind").pyEq (.str STATE_KIND) = true
  time : (parseTime (getField doc "generated_at") : Except LE _) = .ok (some p.generatedAt)
  findings : ∃ ds, getField doc "diagnoses" = .list ds
    ∧ readFindings (ds.take 200) = .ok p.diagnoses
  fixes : readFixes (getField doc "fixes") = .ok p.fixes
  pending : readPending ((dictOr (getField doc "pending")).take 200) = .ok p.pending
  relationships : readRelationships (getField doc "relationships") = p.relationships
  host : textOnly (getField doc "host") = p.host
  peer : textOnly (getField (dictOr (getField doc "inputs")) "peer") = p.peer

theorem load_iff {v : Value} {p : LoadedState} :
    load v = .ok p ↔ ∃ doc, v = .dict doc ∧ Reads doc p := by
  constructor
  · intro h
    unfold load at h
    split at h
    · rename_i doc
      split at h
      · rename_i ds hds
        split at h
        · rename_i hheader
          obtain ⟨hversion, hkind⟩ := Bool.and_eq_true_iff.mp hheader
          obtain ⟨at_, htime, h⟩ := bind_ok.mp h
          cases at_ with
          | none => cases h
          | some at_ =>
              obtain ⟨findings, hfindings, h⟩ := bind_ok.mp h
              obtain ⟨fixes, hfixes, h⟩ := bind_ok.mp h
              obtain ⟨pending, hpending, h⟩ := bind_ok.mp h
              obtain rfl := pure_ok.mp h
              exact ⟨doc, rfl, hversion, hkind, htime, ⟨ds, hds, hfindings⟩, hfixes, hpending,
                rfl, rfl, rfl⟩
        · cases h
      · cases h
    · cases h
  · rintro ⟨doc, rfl, h⟩
    obtain ⟨ds, hds, hfindings⟩ := h.findings
    unfold load
    simp only [hds, h.version, h.kind, h.time, hfindings, h.fixes, h.pending, h.relationships,
      h.host, h.peer]
    rfl

theorem getField_put_ne {doc : Dict} {k name : String} {v : Value} (h : name ≠ k) :
    getField (Assoc.put k v doc) name = getField doc name := by
  rw [getField, getField, Assoc.lookup_put_ne h]

theorem getField_put_self {doc : Dict} {k : String} {v : Value} :
    getField (Assoc.put k v doc) k = v := by
  rw [getField, Assoc.lookup_put_self]
  rfl

/-- The record of pending findings, as it is written. -/
def pendingDoc (pending : List (String × Timestamp.Stamp)) : Value :=
  .dict (pending.map fun x => (x.1, .str x.2.text))

theorem readPending_written (pending : List (String × Timestamp.Stamp)) :
    readPending (pending.map fun x => (x.1, .str x.2.text)) = .ok pending := by
  induction pending with
  | nil => rfl
  | cons x pending ih =>
      rw [List.map_cons]
      unfold readPending
      rw [parseTime_text, ok_bind, ih]
      rfl

/-- Writing pending findings anew changes nothing else. -/
theorem Reads.withPending {doc : Dict} {p : LoadedState} (h : Reads doc p)
    {pending : List (String × Timestamp.Stamp)} (hsize : pending.length ≤ 200) :
    Reads (Assoc.put "pending" (pendingDoc pending) doc) { p with pending := pending } where
  version := by rw [getField_put_ne (by decide)]; exact h.version
  kind := by rw [getField_put_ne (by decide)]; exact h.kind
  time := by rw [getField_put_ne (by decide)]; exact h.time
  findings := by rw [getField_put_ne (by decide)]; exact h.findings
  fixes := by rw [getField_put_ne (by decide)]; exact h.fixes
  pending := by
    have hall : (pending.map fun x => (x.1, Value.str x.2.text)).length ≤ 200 := by simpa using hsize
    rw [getField_put_self, pendingDoc, dictOr, List.take_of_length_le hall]
    exact readPending_written pending
  relationships := by rw [getField_put_ne (by decide)]; exact h.relationships
  host := by rw [getField_put_ne (by decide)]; exact h.host
  peer := by rw [getField_put_ne (by decide)]; exact h.peer

/-- Code and subject of a finding are of the forms the reader asks for. -/
structure Finding.Shaped (d : Finding) : Prop where
  code : CODE_RE.fullmatch d.code = true
  subject : SUBJECT_RE.fullmatch d.subject = true

theorem readFinding_shaped {v : Value} {d : Finding} (h : readFinding v = .ok d) : d.Shaped := by
  unfold readFinding at h
  split at h
  · split at h
    · split at h
      · rename_i hshape
        obtain ⟨hcode, hsubject⟩ := Bool.and_eq_true_iff.mp hshape
        obtain ⟨evidence, -, h⟩ := bind_ok.mp h
        obtain ⟨explains, -, h⟩ := bind_ok.mp h
        obtain rfl := pure_ok.mp h
        exact ⟨hcode, hsubject⟩
      · cases h
    · cases h
  · cases h

theorem readFindings_shaped {vs : List Value} {ds : List Finding} (h : readFindings vs = .ok ds) :
    ∀ d ∈ ds, d.Shaped := by
  induction vs generalizing ds with
  | nil =>
      obtain rfl : [] = ds := Except.ok.inj h
      exact fun d hd => (nomatch hd)
  | cons v vs ih =>
      obtain ⟨d, hd, h⟩ := bind_ok.mp h
      obtain ⟨ds', hds, h⟩ := bind_ok.mp h
      obtain rfl := pure_ok.mp h
      intro e he
      rcases List.mem_cons.mp he with rfl | he
      · exact readFinding_shaped hd
      · exact ih hds e he

theorem load_shaped {doc : Value} {p : LoadedState} (h : load doc = .ok p) :
    ∀ d ∈ p.diagnoses, d.Shaped := by
  obtain ⟨doc, -, hreads⟩ := load_iff.mp h
  obtain ⟨ds, -, hfindings⟩ := hreads.findings
  exact readFindings_shaped hfindings

theorem readFindings_length {vs : List Value} {ds : List Finding} (h : readFindings vs = .ok ds) :
    ds.length = vs.length := by
  induction vs generalizing ds with
  | nil =>
      obtain rfl : [] = ds := Except.ok.inj h
      rfl
  | cons v vs ih =>
      obtain ⟨d, -, h⟩ := bind_ok.mp h
      obtain ⟨ds', hds, h⟩ := bind_ok.mp h
      obtain rfl := pure_ok.mp h
      rw [List.length_cons, List.length_cons, ih hds]

theorem load_bounded {doc : Value} {p : LoadedState} (h : load doc = .ok p) :
    p.diagnoses.length ≤ 200 := by
  obtain ⟨doc, -, hreads⟩ := load_iff.mp h
  obtain ⟨ds, -, hfindings⟩ := hreads.findings
  rw [readFindings_length hfindings, List.length_take]
  exact Nat.min_le_left _ _

theorem Finding.Shaped.code_no_at {d : Finding} (h : d.Shaped) :
    ∀ x ∈ d.code.toList, (x != '@') = true := by
  intro x hx
  rw [bne_iff_ne]
  rintro rfl
  rcases Re.fullmatch_reads h.code _ hx with hupper | hother
  · have hno : Regex.upper '@' = true := hupper
    revert hno
    decide
  · have hno : (Regex.upper '@' || Regex.digit '@' || '@' == '_') = true := hother
    revert hno
    decide

end IpaDiagnose.Replication
