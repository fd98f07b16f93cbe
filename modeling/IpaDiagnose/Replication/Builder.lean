import IpaDiagnose.Replication.Causal
import IpaDiagnose.Replication.Plan

/-!
# Diagnoses and how they are collected

A diagnosis is named by its code and its subject. Diagnoses of one name
are one: the first stays, later ones only add their evidence. Texts that
are only shown (titles, explanations, next steps) are left out; what can
go wrong in writing them is not.
-/

namespace IpaDiagnose.Replication

open Py (Value Dict Exc)
open Planner (Outcome Record Trace)

/-! ## Diagnoses -/

inductive Code where
  | dsStorageProblem
  | localDsNotRunning
  | localKdcNotRunning
  | dsKeytabProblem
  | dsKeytabExposed
  | dsStorageLow
  | peerLdapPrincipalMissing
  | dsKeyRejected
  | pairClockSkew
  | peerNameUnresolved
  | peerDsNotAccepting
  | peerUnreachable
  | peerDsNotAnswering
  | agreementDisabled
  | longRunningSession
  | pairClockDrift
  | replicationTransient
  | replicationNotReproduced
  | peerRejectsGssapi
  | notAReplicationManager
  | replicaNeedsAdminAction
  | replicationFailing
  | peerTlsFailed
  | reverseReplicationFailing
  | segmentWithoutAgreement
  | agreementWithoutSegment
  | ruvElementWithoutServer
  | localNtpNotSynchronized
  | evidenceUnusable
deriving DecidableEq, Repr

def Code.text : Code → String
  | .dsStorageProblem => "DS_STORAGE_PROBLEM"
  | .localDsNotRunning => "LOCAL_DS_NOT_RUNNING"
  | .localKdcNotRunning => "LOCAL_KDC_NOT_RUNNING"
  | .dsKeytabProblem => "DS_KEYTAB_PROBLEM"
  | .dsKeytabExposed => "DS_KEYTAB_EXPOSED"
  | .dsStorageLow => "DS_STORAGE_LOW"
  | .peerLdapPrincipalMissing => "PEER_LDAP_PRINCIPAL_MISSING"
  | .dsKeyRejected => "DS_KEY_REJECTED"
  | .pairClockSkew => "PAIR_CLOCK_SKEW"
  | .peerNameUnresolved => "PEER_NAME_UNRESOLVED"
  | .peerDsNotAccepting => "PEER_DS_NOT_ACCEPTING"
  | .peerUnreachable => "PEER_UNREACHABLE"
  | .peerDsNotAnswering => "PEER_DS_NOT_ANSWERING"
  | .agreementDisabled => "AGREEMENT_DISABLED"
  | .longRunningSession => "LONG_RUNNING_SESSION"
  | .pairClockDrift => "PAIR_CLOCK_DRIFT"
  | .replicationTransient => "REPLICATION_TRANSIENT"
  | .replicationNotReproduced => "REPLICATION_NOT_REPRODUCED"
  | .peerRejectsGssapi => "PEER_REJECTS_GSSAPI"
  | .notAReplicationManager => "NOT_A_REPLICATION_MANAGER"
  | .replicaNeedsAdminAction => "REPLICA_NEEDS_ADMIN_ACTION"
  | .replicationFailing => "REPLICATION_FAILING"
  | .peerTlsFailed => "PEER_TLS_FAILED"
  | .reverseReplicationFailing => "REVERSE_REPLICATION_FAILING"
  | .segmentWithoutAgreement => "SEGMENT_WITHOUT_AGREEMENT"
  | .agreementWithoutSegment => "AGREEMENT_WITHOUT_SEGMENT"
  | .ruvElementWithoutServer => "RUV_ELEMENT_WITHOUT_SERVER"
  | .localNtpNotSynchronized => "LOCAL_NTP_NOT_SYNCHRONIZED"
  | .evidenceUnusable => "EVIDENCE_UNUSABLE"

inductive Severity where
  | fail
  | warn
deriving DecidableEq, Repr

inductive Confidence where
  | high
  | medium
  | low
deriving DecidableEq, Repr

inductive Kind where
  | undiagnosed
  | contradicting
  | transient
deriving DecidableEq, Repr

inductive Role where
  | primary
  | independent
  | undiagnosed
  | contradicting
  | related
  | warning
deriving DecidableEq, Repr

structure ReplDiagnosis where
  code : Code
  subject : String
  capability : Capability
  severity : Severity
  confidence : Confidence
  evidence : List String
  scope : CauseScope := .here
  kind : Option Kind := none
  chainIds : List String := []
  /-- The key of the diagnosis that explains this one. -/
  relatedTo : Option String := none
  explains : List String := []
  handoff : Option Value := none
  resolutionKey : Option String := none
  variant : Value := .null
  bindings : Dict := []
  role : Option Role := none
deriving DecidableEq

def keyOf (code : Code) (subject : String) : String := code.text ++ "@" ++ subject

def ReplDiagnosis.key (d : ReplDiagnosis) : String := keyOf d.code d.subject

theorem Code.text_no_at (c : Code) : ∀ x ∈ c.text.toList, (x != '@') = true := by
  cases c <;> decide

theorem Code.text_injective : Function.Injective Code.text := by
  intro a b h
  cases a <;> cases b <;> first | rfl | exact absurd h (by decide)

theorem before_at_inj {c c' s s' : String} (hc : ∀ x ∈ c.toList, (x != '@') = true)
    (hc' : ∀ x ∈ c'.toList, (x != '@') = true) :
    c ++ "@" ++ s = c' ++ "@" ++ s' ↔ c = c' ∧ s = s' := by
  constructor
  · intro h
    have hl : c.toList ++ '@' :: s.toList = c'.toList ++ '@' :: s'.toList := by
      have := congrArg String.toList h
      simpa [String.toList_append] using this
    have hcode : c.toList = c'.toList := by
      have htake := congrArg (List.takeWhile (· != '@')) hl
      rw [List.takeWhile_append_of_pos hc, List.takeWhile_append_of_pos hc'] at htake
      simpa using htake
    rw [hcode] at hl
    have htail := List.append_cancel_left hl
    injection htail with _ htail
    exact ⟨String.toList_inj.mp hcode, String.toList_inj.mp htail⟩
  · rintro ⟨rfl, rfl⟩
    rfl

/-- A key names its code and its subject. -/
theorem keyOf_inj {c c' : Code} {s s' : String} : keyOf c s = keyOf c' s' ↔ c = c' ∧ s = s' := by
  rw [keyOf, keyOf, before_at_inj c.text_no_at c'.text_no_at]
  exact and_congr_left fun _ => ⟨fun h => Code.text_injective h, congrArg Code.text⟩

/-! ## The builder -/

structure Builder where
  /-- In the order they were first made, no two of one key. -/
  diags : List ReplDiagnosis := []
  chains : List Chain := []

namespace Builder

def find? (b : Builder) (key : String) : Option ReplDiagnosis := b.diags.find? fun d => d.key == key

def get (b : Builder) (code : Code) (subject : String) : Option ReplDiagnosis :=
  b.find? (keyOf code subject)

/-- `sorted(set(xs) | set(ys))` -/
def evidenceUnion (xs ys : List String) : List String := (xs ++ ys).dedup.insertionSort (· ≤ ·)

/-- Change the diagnosis of a key. -/
def modify (b : Builder) (key : String) (f : ReplDiagnosis → ReplDiagnosis) : Builder :=
  { b with diags := b.diags.map fun d => if d.key = key then f d else d }

def mergeEvidence (evidence : List String) (d : ReplDiagnosis) : ReplDiagnosis :=
  { d with evidence := evidenceUnion d.evidence evidence }

/-- A diagnosis whose key is there already only adds its evidence. -/
def add (b : Builder) (d : ReplDiagnosis) : ReplDiagnosis × Builder :=
  match b.find? d.key with
  | some old => (mergeEvidence d.evidence old, b.modify d.key (mergeEvidence d.evidence))
  | none => (d, { b with diags := b.diags ++ [d] })

def chain (b : Builder) (subject : String) (links : List Link) (bounded : Bool)
    (handoff : Option Value) : Except E (Chain × Builder) := do
  let c : Chain :=
    { chainId := "chain-" ++ toString (b.chains.length + 1) ++ ":" ++ subject
      subject := subject, links := links, bounded := bounded, handoff := handoff }
  checkChain c
  pure (c, { b with chains := b.chains ++ [c] })

/-- `root.explains.append(key)` -/
def explain (b : Builder) (root key : String) : Builder :=
  b.modify root fun d => { d with explains := d.explains ++ [key] }

def explainOnce (b : Builder) (root key : String) : Builder :=
  b.modify root fun d => if key ∈ d.explains then d else { d with explains := d.explains ++ [key] }

/-- `root.chain_ids.append(c.chain_id)` -/
def rest (b : Builder) (root : String) (c : Chain) : Builder :=
  b.modify root fun d => { d with chainIds := d.chainIds ++ [c.chainId] }

def restOnce (b : Builder) (root : String) (c : Chain) : Builder :=
  b.modify root fun d =>
    if c.chainId ∈ d.chainIds then d else { d with chainIds := d.chainIds ++ [c.chainId] }

end Builder

/-! ## Reading the trace -/

/-- The outcome of a step of the plan. -/
def outcomeOf (t : Trace) (stepId : String) : Option Outcome := (t.get stepId).map Record.outcome

/-- A fact, or a field, of a step that was not skipped. -/
def factOf (t : Trace) (stepId name : String) : Value :=
  match t.get stepId with
  | none => .null
  | some r =>
      if r.outcome = .skipped then .null
      else (r.facts.lookup name).getD (getField r.fields name)

/-- The status class an agreement was recorded with. -/
inductive Recorded where
  | known (cls : StatusClass)
  | other (v : Value)
deriving DecidableEq

def Recorded.ofValue (v : Value) : Recorded :=
  match v with
  | .str s => (StatusClass.ofText? s).elim (.other (.str s)) .known
  | v => .other v

def recordedClass (item : Dict) : Recorded :=
  .ofValue (orElse (getField item "status_class") StatusClass.unclassified.value)

/-- A table is looked up by a value. -/
def hashed (v : Value) : Except E Unit := if v.hashable then .ok () else .error .typeError

/-- What a class means is looked up in a table. -/
def Recorded.meaning : Recorded → Except E Unit
  | .known _ => .ok ()
  | .other v => hashed v

/-- `item[name]` -/
def needItem (item : Dict) (name : String) : Except E Value :=
  match item.lookup name with
  | some v => .ok v
  | none => .error .keyError

/-- A replication relationship: suffix and direction. -/
def rel (suffix supplier consumer : Value) : String :=
  suffix.toStr ++ ":" ++ supplier.toStr ++ ">" ++ consumer.toStr

def serverSubject (host : Value) : String := "server:" ++ host.toStr

def pairSubject (me consumer : Value) : String := "pair:" ++ me.toStr ++ ">" ++ consumer.toStr

/-- The peer's clock offset as measured from this host: from its root
DSE, or from its HTTPS Date header. -/
def peer_offset (t : Trace) (subj : String) : Option (Value × Record) :=
  ["peer.rootdse", "peer.time"].findSome? fun base =>
    (t.getFor base subj).bind fun r =>
      if r.outcome ≠ .skipped ∧ (getField r.facts "offset").isNumber then
        some (getField r.facts "offset", r)
      else none

end IpaDiagnose.Replication
