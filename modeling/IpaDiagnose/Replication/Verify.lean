import IpaDiagnose.Replication.State
import IpaDiagnose.Resolution.Criteria

/-!
# `replication --verify`

What became of every earlier finding, from fresh evidence. An agreement
is judged by its own last session, a cause by the checks it rested on
and by its fix. Agreements are looked at first, so that a cause can wait
for those it explained. What is not failing any more but not confirmed
either is pending, for a time.
-/

namespace IpaDiagnose.Replication

open Py (Value Dict Exc)
open Planner (Outcome Record Trace)
open Regex (Re)
open Resolver (Entry Runner Criterion Verdict Rebuilt rebuildVerify evaluateVerify)

variable {σ : Type}

/-- Seconds from the first pending observation. -/
def CONVERGENCE_WINDOW : Nat := 600

/-- Seconds until the next look at something pending. -/
def RECHECK : Nat := 60

inductive ItemOutcome where
  | resolved
  | pending
  | stillPresent
  | changed
  | partiallyResolved
  | unableToVerify
deriving DecidableEq, Repr

structure VerifyItem where
  key : String
  code : String
  subject : String
  outcome : ItemOutcome
deriving DecidableEq

/-- The time of a run: a second of the calendar and the microseconds into it. -/
structure Now where
  stamp : Timestamp.Stamp
  micros : Nat
  in_second : micros < 1000000

/-- At the start of a second. -/
theorem zero_in_second : 0 < 1000000 := by decide

/-- In microseconds. -/
def Now.time (now : Now) : Nat := now.stamp.seconds * 1000000 + now.micros

/-- The last second of the calendar. -/
def lastStamp : Timestamp.Stamp := ⟨⟨9999, 12, 31, 23, 59, 59⟩, by decide⟩

/-- A time some seconds later: past the end of the calendar there is none. -/
def later (time seconds : Nat) : Except Resolver.E Nat :=
  if time + seconds * 1000000 < (lastStamp.seconds + 1) * 1000000 then
    .ok (time + seconds * 1000000)
  else .error .overflowError

/-! ## Subjects -/

/-- The characters of a host name in the subject of an agreement. -/
def hostPart : Re :=
  .plus (.cls fun c => Regex.lower c || Regex.digit c || c == '.' || c == '-')

def AGREEMENT_RE : Re :=
  .seq (.altAll [.lit "domain", .lit "ca"])
    (.seq (.char ':') (.seq hostPart (.seq (.char '>') hostPart)))

def isAgreement (subject : String) : Bool := AGREEMENT_RE.fullmatch subject

/-- A text that is not empty. -/
def nonempty (s : String) : Option String := if s = "" then none else some s

/-- The peer a subject is about. -/
def peerOf (subject : String) : Option String :=
  if PyStr.hasChar subject ':' = false then none
  else
    let (kind, rest) := PyStr.partition subject ":"
    if kind = "server" then nonempty rest
    else if PyStr.hasChar rest '>' then nonempty (PyStr.partition rest ">").2
    else none

def peerCode (code : String) : Bool :=
  PyStr.startsWith code "PEER_" || PyStr.startsWith code "PAIR_"

/-! ## What the fresh run can say -/

section Fresh

variable (p : LoadedState) (fresh : ReplicationResult)

/-- This server's own agreements could be read. -/
def collectorOk : Bool :=
  outcomeOf fresh.trace "server" == some .pass
    && (outcomeOf fresh.trace "agreements" == some .pass
      || outcomeOf fresh.trace "agreements" == some .warn)

def hostChanged : Bool :=
  match p.host with
  | some h => h != "" && !fresh.host.pyEq (.str h)
  | none => false

def scopeChanged : Bool := p.peer != fresh.peer

/-- The fresh finding of a key; of several the last. -/
def freshWith (key : String) : Option ReplDiagnosis :=
  (fresh.diagnoses.filter fun d => d.key == key).getLast?

/-- Found again, and not only as something that passes by itself. -/
def foundAgain (key : String) : Bool :=
  (freshWith fresh key).any fun d => d.kind != some .transient

def relationshipOf (subject : String) : Option Relationship :=
  (fresh.relationships.filter fun x => x.subject == subject).getLast?

/-- The failures the fresh run found on a subject. -/
def failuresOn (subject : String) : List ReplDiagnosis :=
  fresh.diagnoses.filter fun d => d.subject == subject && d.severity == .fail

inductive AgreementState where
  | unobserved
  | transient
  | failing
  | noFresh
  | ok
deriving DecidableEq, Repr

/-- All that was found of the agreement passes by itself. -/
def onlyTransient (subject : String) : Bool :=
  let here := fresh.diagnoses.filter fun d => d.subject == subject
  !here.isEmpty && here.all fun d => d.kind == some .transient && d.severity != .fail

/-- A green agreement counts for a session that ended after the saved result. -/
def sessionState (x : Relationship) : Except Resolver.E AgreementState := do
  match ← parseTime x.lastUpdateEnd with
  | none => pure .noFresh
  | some ended =>
      if ended.seconds ≤ p.generatedAt.seconds then pure .noFresh
      else if x.updateInProgress.truthy then pure .noFresh
      else pure .ok

def agreementState (subject : String) : Except Resolver.E AgreementState :=
  match relationshipOf fresh subject with
  | none => .ok .unobserved
  | some x =>
      if among x.state [.null, .str "UNKNOWN"] then .ok .unobserved
      else if among x.state (TRANSIENT.map StatusClass.value ++ [.str "TRANSIENT"]) then
        .ok .transient
      else if x.state.pyEq StatusClass.ok.value then sessionState p x
      else if onlyTransient fresh subject then .ok .transient
      else .ok .failing

/-! ## Pending -/

/-- Since when a finding is pending: as recorded, or from now on. -/
def pendingSince (now : Now) (key : String) : Timestamp.Stamp × Nat :=
  match p.pending.lookup key with
  | some t => (t, t.seconds * 1000000)
  | none => (now.stamp, now.time)

/-- The window is still open. -/
def waits (now : Now) (key : String) : Bool :=
  decide (now.time < (pendingSince p now key).2 + CONVERGENCE_WINDOW * 1000000)

/-- An outcome, and what is recorded of a pending one. -/
abbrev Judged := ItemOutcome × Option (String × Timestamp.Stamp)

def pendingOr (now : Now) (key : String) (still : ItemOutcome) : Except Resolver.E Judged := do
  let _ ← later (pendingSince p now key).2 CONVERGENCE_WINDOW
  if waits p now key then do
    let _ ← later now.time RECHECK
    pure (.pending, some (key, (pendingSince p now key).1))
  else pure (still, none)

/-! ## One finding -/

/-- What decides for agreements and causes alike. -/
def refused (d : Finding) : Option ItemOutcome :=
  if hostChanged p fresh then some .unableToVerify
  else if scopeChanged p fresh then some .unableToVerify
  else if collectorOk fresh = false then some .unableToVerify
  else if foundAgain fresh d.key then some .stillPresent
  else none

def judgeAgreement (now : Now) (d : Finding) : Except Resolver.E Judged := do
  match ← agreementState p fresh d.subject with
  | .ok => pure (if (failuresOn fresh d.subject).isEmpty then .resolved else .changed, none)
  | .noFresh => pendingOr p now d.key .unableToVerify
  | .transient => pendingOr p now d.key .stillPresent
  | .failing =>
      if !(failuresOn fresh d.subject).isEmpty && (freshWith fresh d.key).isNone then
        pure (.changed, none)
      else pure (.stillPresent, none)
  | .unobserved => pure (.unableToVerify, none)

/-- A check answered, or is not needed any more. -/
def stepAnswered (sid : String) : Bool :=
  match fresh.trace.get sid with
  | none => false
  | some r => r.outcome != .unknown
      && (r.outcome != .skipped || PyStr.startsWith r.skipReason "not needed")

def measuresOffset (r : Option Record) : Bool :=
  r.any fun r => (getField r.facts "offset").isNumber

/-- The base of a step's name, and the subject it is for. -/
def stepBase (sid : String) : String := (PyStr.partition sid "@").1

def stepSubject (sid : String) : Option String :=
  if PyStr.hasChar sid '@' then some (PyStr.partition sid "@").2 else none

/-- A clock difference was measured again. -/
def clockMeasured (d : Finding) : Bool :=
  (d.evidence.filter fun sid => ["peer.rootdse", "peer.time"].contains (stepBase sid)).any
      (fun sid => measuresOffset (fresh.trace.get sid))
    || ((d.evidence.findSome? stepSubject).bind nonempty).any fun subj =>
      ["peer.rootdse", "peer.time"].any fun base => measuresOffset (fresh.trace.getFor base subj)

def answered (d : Finding) : Bool :=
  d.evidence.all (stepAnswered fresh)
    && (!PyStr.startsWith d.code "PAIR_CLOCK" || clockMeasured fresh d)

/-- Another failure on the subject of a cause. -/
def failuresBeside (d : Finding) : List ReplDiagnosis :=
  (failuresOn fresh d.subject).filter fun x => x.key != d.key

/-- A failure that is new on the peer of a peer's cause. -/
def failuresOnPeer (d : Finding) : List ReplDiagnosis :=
  match if peerCode d.code then peerOf d.subject else none with
  | none => []
  | some peer => fresh.diagnoses.filter fun x => x.severity == .fail && x.key != d.key
      && !(p.diagnoses.map Finding.key).contains x.key && peerOf x.subject == some peer
      && peerCode x.code.text

def otherFailure (d : Finding) : Bool :=
  !(failuresBeside fresh d).isEmpty || !(failuresOnPeer p fresh d).isEmpty

end Fresh

/-- What the fix's own criteria say. -/
def judgeFix (sha256 : String → String) (cat : List Entry) (fix : Value) (runner : Runner σ)
    (s : σ) : Except Resolver.E ItemOutcome × σ :=
  match rebuildVerify sha256 cat fix runner s with
  | (.error e, s) => (.error e, s)
  | (.ok ⟨some criteria, none, _⟩, s) =>
      match evaluateVerify runner criteria s with
      | (.error e, s) => (.error e, s)
      | (.ok results, s) =>
          if results.any (·.ok == none) then (.ok .unableToVerify, s)
          else if results.all (·.ok == some true) then (.ok .resolved, s)
          else (.ok .partiallyResolved, s)
  | (.ok _, s) => (.ok .unableToVerify, s)

/-- A cause by its own checks. -/
def judgeOwn (sha256 : String → String) (cat : List Entry) (p : LoadedState)
    (fresh : ReplicationResult) (runner : Runner σ) (d : Finding) (s : σ) :
    Except Resolver.E ItemOutcome × σ :=
  if answered fresh d = false then (.ok .unableToVerify, s)
  else if otherFailure p fresh d then (.ok .changed, s)
  else
    match p.fixes.lookup d.key with
    | none | some .null => (.ok .resolved, s)
    | some fix => judgeFix sha256 cat fix runner s

/-- The outcomes so far, by key. -/
abbrev Outcomes := List (String × ItemOutcome)

/-- The first finding a cause explained that is not resolved, of those looked at so far. -/
def openEffect (so : Outcomes) (d : Finding) : Option ItemOutcome :=
  d.explains.findSome? fun x =>
    match so.lookup x with
    | none | some .resolved => none
    | some o => some o

def judgeCause (sha256 : String → String) (cat : List Entry) (p : LoadedState)
    (fresh : ReplicationResult) (runner : Runner σ) (so : Outcomes) (d : Finding) (s : σ) :
    Except Resolver.E ItemOutcome × σ :=
  match judgeOwn sha256 cat p fresh runner d s with
  | (.ok .resolved, s) => (.ok ((openEffect so d).getD .resolved), s)
  | other => other

def judge (sha256 : String → String) (cat : List Entry) (p : LoadedState)
    (fresh : ReplicationResult) (runner : Runner σ) (now : Now) (so : Outcomes) (d : Finding)
    (s : σ) : Except Resolver.E Judged × σ :=
  match refused p fresh d with
  | some o => (.ok (o, none), s)
  | none =>
      if isAgreement d.subject then (judgeAgreement p fresh now d, s)
      else
        match judgeCause sha256 cat p fresh runner so d s with
        | (.error e, s) => (.error e, s)
        | (.ok o, s) => (.ok (o, none), s)

/-! ## All of them -/

def itemOf (d : Finding) (o : ItemOutcome) : VerifyItem := ⟨d.key, d.code, d.subject, o⟩

structure Compared where
  items : List VerifyItem := []
  /-- The pending findings, by key. -/
  pending : List (String × Timestamp.Stamp) := []

def Compared.add (c : Compared) (d : Finding) (o : ItemOutcome)
    (since : Option (String × Timestamp.Stamp)) : Compared :=
  { items := c.items ++ [itemOf d o]
    pending := match since with
      | some (k, t) => Assoc.put k t c.pending
      | none => c.pending }

@[simp] theorem Compared.add_items (c : Compared) (d : Finding) (o : ItemOutcome)
    (since : Option (String × Timestamp.Stamp)) :
    (c.add d o since).items = c.items ++ [itemOf d o] := rfl

/-- The outcomes of some items; of several for a key the last. -/
def outcomesOf (items : List VerifyItem) : Outcomes :=
  Assoc.update [] (items.map fun i => (i.key, i.outcome))

def compareFindings (sha256 : String → String) (cat : List Entry) (p : LoadedState)
    (fresh : ReplicationResult) (runner : Runner σ) (now : Now) :
    List Finding → Compared → σ → Except Resolver.E Compared × σ
  | [], c, s => (.ok c, s)
  | d :: ds, c, s =>
      match judge sha256 cat p fresh runner now (outcomesOf c.items) d s with
      | (.error e, s) => (.error e, s)
      | (.ok (o, since), s) => compareFindings sha256 cat p fresh runner now ds (c.add d o since) s

/-- What is followed up: failures, and what was transient. -/
def followedUp (d : Finding) : Bool := d.severity == .fail || d.kind == some .transient

/-- Agreements first. -/
def oldItems (p : LoadedState) : List Finding :=
  let old := p.diagnoses.filter followedUp
  (old.filter fun d => isAgreement d.subject) ++ old.filter fun d => !isAgreement d.subject

structure CompareResult where
  items : List VerifyItem
  newConditions : List ReplDiagnosis
  pending : List (String × Timestamp.Stamp)
deriving DecidableEq

def newFailures (p : LoadedState) (fresh : ReplicationResult) : List ReplDiagnosis :=
  fresh.diagnoses.filter fun x => !(p.diagnoses.map Finding.key).contains x.key && x.severity == .fail

def compare (sha256 : String → String) (cat : List Entry) (p : LoadedState)
    (fresh : ReplicationResult) (runner : Runner σ) (now : Now) (s : σ) :
    Except Resolver.E CompareResult × σ :=
  match compareFindings sha256 cat p fresh runner now (oldItems p) {} s with
  | (.error e, s) => (.error e, s)
  | (.ok c, s) => (.ok ⟨c.items, newFailures p fresh, c.pending⟩, s)

def exit_code (result : CompareResult) (freshCode : Int) : Int :=
  let outs := result.items.map VerifyItem.outcome
  if outs.contains .stillPresent || outs.contains .partiallyResolved
      || !result.newConditions.isEmpty then 1
  else if outs.contains .pending then 3
  else if outs.contains .unableToVerify || outs.contains .changed then 4
  else freshCode

theorem outcomesOf_some {items : List VerifyItem} {k : String} {o : ItemOutcome}
    (h : (outcomesOf items).lookup k = some o) : ∃ i ∈ items, i.key = k ∧ i.outcome = o := by
  have hmem := Assoc.mem_update (Assoc.mem_of_lookup h)
  rcases hmem with hmem | hmem
  · cases hmem
  · obtain ⟨i, hi, heq⟩ := List.mem_map.mp hmem
    exact ⟨i, hi, (Prod.mk.inj heq).1, (Prod.mk.inj heq).2⟩

theorem outcomesOf_mem {items : List VerifyItem} {i : VerifyItem} (h : i ∈ items) :
    ∃ o, (outcomesOf items).lookup i.key = some o := by
  refine Option.isSome_iff_exists.mp (Assoc.lookup_isSome.mpr (Assoc.mem_keys_update.mpr (.inr ?_)))
  exact Assoc.mem_keys.mpr ⟨i.outcome, List.mem_map.mpr ⟨i, h, rfl⟩⟩

/-! ## Finding by finding -/

/-- Findings judged one after another, each after those before it. -/
inductive Judges (sha256 : String → String) (cat : List Entry) (p : LoadedState)
    (fresh : ReplicationResult) (runner : Runner σ) (now : Now) :
    List Finding → Compared → σ → Compared → σ → Prop where
  | nil (c : Compared) (s : σ) : Judges sha256 cat p fresh runner now [] c s c s
  | cons {d : Finding} {ds : List Finding} {c c' : Compared} {o : ItemOutcome}
      {since : Option (String × Timestamp.Stamp)} {s s₁ s' : σ}
      (first : judge sha256 cat p fresh runner now (outcomesOf c.items) d s = (.ok (o, since), s₁))
      (rest : Judges sha256 cat p fresh runner now ds (c.add d o since) s₁ c' s') :
      Judges sha256 cat p fresh runner now (d :: ds) c s c' s'

section Runs

variable {sha256 : String → String} {cat : List Entry} {p : LoadedState}
  {fresh : ReplicationResult} {runner : Runner σ} {now : Now}

theorem judges_of_compareFindings {ds : List Finding} {c c' : Compared} {s s' : σ}
    (h : compareFindings sha256 cat p fresh runner now ds c s = (.ok c', s')) :
    Judges sha256 cat p fresh runner now ds c s c' s' := by
  induction ds generalizing c s with
  | nil =>
      obtain ⟨hc, hs⟩ := Prod.mk.inj h
      obtain rfl := Except.ok.inj hc
      subst hs
      exact .nil _ _
  | cons d ds ih =>
      unfold compareFindings at h
      split at h
      · cases h
      · rename_i o since s₁ hjudge
        exact .cons hjudge (ih h)

theorem Judges.compareFindings {ds : List Finding} {c c' : Compared} {s s' : σ}
    (h : Judges sha256 cat p fresh runner now ds c s c' s') :
    compareFindings sha256 cat p fresh runner now ds c s = (.ok c', s') := by
  induction h with
  | nil c s => rfl
  | cons first rest ih =>
      unfold Replication.compareFindings
      rw [first]
      exact ih

/-- What every judgement gives its item, if the items before have it, all items have. -/
theorem Judges.items {P : VerifyItem → Prop} {ds : List Finding} {c c' : Compared} {s s' : σ}
    (h : Judges sha256 cat p fresh runner now ds c s c' s') (hc : ∀ i ∈ c.items, P i)
    (hstep : ∀ d ∈ ds, ∀ before, (∀ i ∈ before, P i) → ∀ o since s s₁,
      judge sha256 cat p fresh runner now (outcomesOf before) d s = (.ok (o, since), s₁) →
        P (itemOf d o)) : ∀ i ∈ c'.items, P i := by
  induction h with
  | nil c s => exact hc
  | cons first rest ih =>
      refine ih (fun i hi => ?_) (fun d hd => hstep d (List.mem_cons_of_mem _ hd))
      rcases List.mem_append.mp hi with hi | hi
      · exact hc i hi
      · obtain rfl := List.mem_singleton.mp hi
        exact hstep _ List.mem_cons_self _ hc _ _ _ _ first

/-- Every finding adds its item. -/
theorem Judges.grows {ds : List Finding} {c c' : Compared} {s s' : σ}
    (h : Judges sha256 cat p fresh runner now ds c s c' s') :
    ∃ more, c'.items = c.items ++ more ∧ more.length = ds.length := by
  induction h with
  | nil c s => exact ⟨[], by simp, rfl⟩
  | @cons d ds c c' o since s s₁ s' first rest ih =>
      obtain ⟨more, hitems, hlength⟩ := ih
      refine ⟨itemOf d o :: more, ?_, by simp [hlength]⟩
      rw [hitems, Compared.add_items, List.append_assoc, List.singleton_append]

/-- A finding is judged after those before it. -/
theorem Judges.at {pre post : List Finding} {d : Finding} {c c' : Compared} {s s' : σ}
    (h : Judges sha256 cat p fresh runner now (pre ++ d :: post) c s c' s') :
    ∃ c₁ s₁ o since s₂, Judges sha256 cat p fresh runner now pre c s c₁ s₁
      ∧ judge sha256 cat p fresh runner now (outcomesOf c₁.items) d s₁ = (.ok (o, since), s₂)
      ∧ Judges sha256 cat p fresh runner now post (c₁.add d o since) s₂ c' s' := by
  induction pre generalizing c s with
  | nil =>
      cases h with
      | cons first rest => exact ⟨c, s, _, _, _, .nil c s, first, rest⟩
  | cons e pre ih =>
      cases h with
      | cons first rest =>
          obtain ⟨c₁, s₁, o, since, s₂, hpre, hjudge, hpost⟩ := ih rest
          exact ⟨c₁, s₁, o, since, s₂, .cons first hpre, hjudge, hpost⟩

theorem compare_ok {result : CompareResult} {s s' : σ}
    (h : compare sha256 cat p fresh runner now s = (.ok result, s')) :
    ∃ c, Judges sha256 cat p fresh runner now (oldItems p) {} s c s'
      ∧ result = ⟨c.items, newFailures p fresh, c.pending⟩ := by
  unfold Replication.compare at h
  split at h
  · cases h
  · rename_i c s₁ hfindings
    obtain ⟨hresult, hs⟩ := Prod.mk.inj h
    subst hs
    exact ⟨c, judges_of_compareFindings hfindings, (Except.ok.inj hresult).symm⟩

end Runs

end IpaDiagnose.Replication
