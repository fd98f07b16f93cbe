import Mathlib.Data.Prod.Lex
import IpaDiagnose.Replication.Diagnose

/-!
# The diagnoses of an investigation

All agreements one after the other, then what the topology and the
replica update vectors say; and the role each diagnosis plays among all
of them.
-/

namespace IpaDiagnose.Replication

open Py (Value Dict Exc)
open Planner (Outcome Record Trace Enumeration)

/-! ## Topology and update vectors -/

section Context

variable (t : Trace) (me : Value)

/-- `{(i["suffix_kind"], i["consumer"]) ...}`; a pair is a list of two. -/
def havePairs : List Value → Except E (List Value)
  | [] => .ok []
  | .dict item :: rest => do
      let suffix ← needItem item "suffix_kind"
      let consumer ← needItem item "consumer"
      hashed suffix
      hashed consumer
      let more ← havePairs rest
      pure (.list [suffix, consumer] :: more)
  | _ :: rest => havePairs rest

/-- The other end of a segment of this server. -/
def segmentPair (s : Dict) : Option (Value × Value) :=
  let suffix := getField s "suffix"
  if !among suffix [.str "domain", .str "ca"] then none
  else if (getField s "left").pyEq me then some (suffix, getField s "right")
  else if (getField s "right").pyEq me then some (suffix, getField s "left")
  else none

def expectedPairs : List Value → Except E (List Value)
  | [] => .ok []
  | .dict s :: rest =>
      match segmentPair me s with
      | some (suffix, other) => do
          hashed other
          let more ← expectedPairs rest
          pure (.list [suffix, other] :: more)
      | none => expectedPairs rest
  | _ :: rest => expectedPairs rest

/-- The second of a pair is no empty value. -/
def named : Value → Bool
  | .list [_, other] => other.truthy
  | _ => false

/-- `sorted(x for x in set(xs) - set(ys) if x[1])` -/
def missingPairs (xs ys : List Value) : Except E (List Value) :=
  Py.sortedValues (Py.distinct (xs.filter fun x => !among x ys && named x))

def pairDiagnosis (code : Code) (suffix other : Value) : ReplDiagnosis :=
  { code := code, subject := rel suffix me other, capability := .topology, severity := .warn
    confidence := .medium, evidence := ["topology", "agreements"], kind := some .contradicting }

/-- Report pairs that only one of the two sides has. -/
def addPairs (code : Code) (b : Builder) (pairs : List Value) : Builder :=
  pairs.foldl (fun b pair =>
    match pair with
    | .list [suffix, other] => (b.add (pairDiagnosis me code suffix other)).2
    | _ => b) b

/-- The topology and this server's agreements must name the same pairs. -/
def topology_checks (b : Builder) (peer : Value) : Except E Builder :=
  if peer.truthy ∨ outcomeOf t "topology" ≠ some .pass ∨ outcomeOf t "agreements" ≠ some .pass
      ∨ isTrue (factOf t "agreements" "complete") = false then .ok b
  else do
    let segs ← (orElse (factOf t "topology" "segments") (.list [])).iter
    let listed ← (orElse (factOf t "agreements" "subjects") (.list [])).iter
    let haves ← havePairs listed
    let expected ← expectedPairs me segs
    let absent ← missingPairs expected haves
    let b := addPairs me .segmentWithoutAgreement b absent
    let extra ← missingPairs haves expected
    pure (addPairs me .agreementWithoutSegment b extra)

def ruvDiagnosis (suffix : String) (rid : Value) : ReplDiagnosis :=
  { code := .ruvElementWithoutServer, subject := "ruv:" ++ suffix ++ ":" ++ rid.toStr
    capability := .replicaData, severity := .warn, confidence := .medium
    evidence := ["agreements", "topology"], resolutionKey := some "replication.ruv-candidate" }

/-- Elements whose host is no current server. -/
def addRuv (masters : List Value) (suffix : String) : Builder → List Value → Except E Builder
  | b, [] => .ok b
  | b, .dict el :: rest => do
      let host := getField el "host"
      hashed host
      let b := if among host masters then b else (b.add (ruvDiagnosis suffix (getField el "rid"))).2
      addRuv masters suffix b rest
  | b, _ :: rest => addRuv masters suffix b rest

def ruvSuffix (masters : List Value) (ruv : Value) (b : Builder) (suffix : String) :
    Except E Builder := do
  let els ← ruv.get suffix .null
  let els ← (orElse els (.list [])).iter
  addRuv masters suffix b els

/-- Candidates only, from a complete topology view, with no clean task running. -/
def ruv_context (b : Builder) : Except E Builder :=
  match t.get "agreements" with
  | none => .ok b
  | some rec_ =>
      if (rec_.outcome ≠ .pass ∧ rec_.outcome ≠ .warn) ∨ outcomeOf t "topology" ≠ some .pass
          ∨ isTrue (factOf t "topology" "complete") = false then .ok b
      else
        let tasks := getField rec_.fields "clean_tasks"
        if tasks = .null ∨ tasks.truthy then .ok b
        else do
          let masters ← (orElse (factOf t "topology" "masters") (.list [])).iter
          let masters ← Py.setOf masters
          let ruv := orElse (getField rec_.fields "ruv") (.dict [])
          let b ← ruvSuffix masters ruv b "domain"
          ruvSuffix masters ruv b "ca"

end Context

/-! ## Roles -/

def LAYER : Capability → Nat
  | .storage => 0
  | .localDs => 1
  | .localKdc => 2
  | .keytab => 3
  | .time => 4
  | .principal => 5
  | .dns => 6
  | .network => 7
  | .peerDs => 8
  | .tls => 9
  | .kerberos => 10
  | .authorization => 11
  | .replicaData => 12
  | .replication => 13
  | .topology => 14

def scopeRank : CauseScope → Nat
  | .here => 0
  | .directory => 1
  | .pair => 2
  | .peer => 3

def bit (b : Bool) : Nat := if b then 1 else 0

/-- A place in an order: by the numbers, then by subject and code. -/
abbrev Place := Lex (List Nat × Lex (String × String))

def isSymptom (d : ReplDiagnosis) : Bool :=
  d.code == .replicationFailing || d.code == .reverseReplicationFailing

/-- Failures first, causes before symptoms, local ones first. -/
def causeOrder (d : ReplDiagnosis) : Place :=
  toLex ([bit (d.severity != .fail), bit (isSymptom d), scopeRank d.scope, LAYER d.capability],
    toLex (d.subject, d.code.text))

def roleRank : Option Role → Nat
  | some .primary => 0
  | some .independent => 1
  | some .undiagnosed => 2
  | some .contradicting => 3
  | some .related => 4
  | some .warning => 5
  | none => 6

def roleOrder (d : ReplDiagnosis) : Place :=
  toLex ([roleRank d.role, scopeRank d.scope, LAYER d.capability], toLex (d.subject, d.code.text))

/-- A relation to a diagnosis that is not there is none. -/
def undangle (keys : List String) (d : ReplDiagnosis) : ReplDiagnosis :=
  if d.relatedTo.all keys.contains then d else { d with relatedTo := none }

def roleOf (primarySet : Bool) (d : ReplDiagnosis) : Role :=
  if d.kind = some .contradicting then .contradicting
  else if d.severity = .warn then .warning
  else if d.relatedTo.isSome then .related
  else if d.kind = some .undiagnosed then .undiagnosed
  else if primarySet then .independent
  else .primary

/-- The first of the causes is the primary one. -/
def assignRoles : Bool → List ReplDiagnosis → List ReplDiagnosis
  | _, [] => []
  | primarySet, d :: ds =>
      let role := roleOf primarySet d
      { d with role := some role } :: assignRoles (primarySet || role = .primary) ds

def sortedBy (place : ReplDiagnosis → Place) (ds : List ReplDiagnosis) : List ReplDiagnosis :=
  ds.insertionSort fun a b => place a ≤ place b

def roles (out : List ReplDiagnosis) : List ReplDiagnosis :=
  let keys := out.map ReplDiagnosis.key
  sortedBy roleOrder (assignRoles false (sortedBy causeOrder (out.map (undangle keys))))

/-! ## The investigation -/

section Diagnose

variable (t : Trace) (ago : String → Option ℚ)

/-- Whether a listed subject is one of those named: a set is looked up by it. -/
def namesSubject (subjects : List String) (v : Value) : Except E (Option String) := do
  hashed v
  pure (match v with
    | .str s => if s ∈ subjects then some s else none
    | _ => none)

/-- The listed agreements of some subjects. -/
def selectItems (subjects : List String) : List Value → Except E (List (String × Dict))
  | [] => .ok []
  | .dict item :: rest => do
      let subj ← namesSubject subjects (getField item "subject")
      let more ← selectItems subjects rest
      pure (match subj with
        | some s => (s, item) :: more
        | none => more)
  | _ :: rest => selectItems subjects rest

/-- Sorted by subject. -/
def itemsOf (subjects : List String) : Except E (List (String × Dict)) := do
  let listed ← (orElse (factOf t "agreements" "subjects") (.list [])).iter
  let items ← selectItems subjects listed
  pure (items.insertionSort fun a b => a.1 ≤ b.1)

def agreementOf (subj : String) (item : Dict) : Except E Agreement := do
  let consumer ← needItem item "consumer"
  let suffix ← needItem item "suffix_kind"
  pure ⟨subj, item, consumer, suffix⟩

/-- The state of each reverse direction, by subject. -/
abbrev Reverses := List (String × ReverseState)

def setReverse (subj : String) (state : ReverseState) (rs : Reverses) : Reverses :=
  (subj, state) :: rs.filter fun r => r.1 != subj

/-- Each investigated agreement, and its reverse direction. -/
def agreements (me realm : Value) (roots : Roots) :
    List (String × Dict) → Reverses → Builder → Except E (Reverses × Builder)
  | [], rs, b => .ok (rs, b)
  | (subj, item) :: rest, rs, b => do
      let a ← agreementOf subj item
      let b ← agreement t me realm ago b a roots
      let (state, b) ← reverse t me b a roots
      agreements me realm roots rest (setReverse subj state rs) b

def droppedAll (me : Value) : List (String × Dict) → Builder → Except E Builder
  | [], b => .ok b
  | (subj, item) :: rest, b => do
      let a ← agreementOf subj item
      let b ← dropped me b a
      droppedAll me rest b

def localNtp (me : Value) (b : Builder) : Builder :=
  if outcomeOf t "time.local" = some .warn ∧ isFalse (factOf t "time.local" "synchronized")
      ∧ b.diags.all (·.code != .pairClockSkew) then
    (b.add
      { code := .localNtpNotSynchronized, subject := serverSubject me, capability := .time
        severity := .warn, confidence := .high, evidence := ["time.local"] }).2
  else b

/-- The enumeration of the agreements. -/
def agreementEnum : Option Enumeration := t.enumerations.lookup "agreement"

structure Diagnosed where
  diags : List ReplDiagnosis := []
  chains : List Chain := []
  reverse : Reverses := []

/-- Everything a trace says, before the roles. -/
def collect (inputs : Dict) (me realm : Value) : Except E (Reverses × Builder) := do
  let (roots, b) ← localRoots t (serverSubject me) {}
  let items ← itemsOf t (((agreementEnum t).map Enumeration.subjects).getD [])
  let (rs, b) ← agreements t ago me realm roots items [] b
  let left ← itemsOf t (((agreementEnum t).map Enumeration.dropped).getD [])
  let b ← droppedAll me left b
  let b ← topology_checks t me (localNtp t me b) (getField inputs "peer")
  let b ← ruv_context t b
  pure (rs, b)

def diagnose (inputs : Dict) : Except E Diagnosed :=
  if outcomeOf t "server" ≠ some .pass then .ok {}
  else do
    let (rs, b) ← collect t ago inputs (factOf t "server" "host")
      (orElse (factOf t "server" "realm") (.str "REALM"))
    pure { diags := roles b.diags, chains := b.chains, reverse := rs }

end Diagnose

end IpaDiagnose.Replication
