import IpaDiagnose.Replication.Collected

/-!
# Which cause is found

The key of the cause of a failing agreement, as a function of the trace
alone: whatever was diagnosed before, the cascade finds it.
-/

namespace IpaDiagnose.Replication

open Result
open Py (Value Dict)
open Planner (Outcome Record Trace)

/-! ## This server -/

section Local

variable (t : Trace) (me : Value)

def storageKey : Option String :=
  if outcomeOf t "local.storage" = some .fail then
    some (keyOf .dsStorageProblem (serverSubject me))
  else none

def dsKey : Option String :=
  if outcomeOf t "local.ds" = some .fail then
    some (keyOf .localDsNotRunning (serverSubject me))
  else none

def kdcKey : Option String :=
  if outcomeOf t "local.kdc" = some .fail then
    some (keyOf .localKdcNotRunning (serverSubject me))
  else none

def keytabKey : Option String :=
  if outcomeOf t "local.keytab" = some .fail then
    some (keyOf .dsKeytabProblem (serverSubject me))
  else none

/-- The causes on this server, by their keys. -/
structure RootsOf (roots : Roots) : Prop where
  ds : roots.ds.map ReplDiagnosis.key = dsKey t me
  kdc : roots.kdc.map ReplDiagnosis.key = kdcKey t me
  keytab : roots.keytab.map ReplDiagnosis.key = keytabKey t me
  related : ∀ kdc, roots.kdc = some kdc → kdc.relatedTo.isSome = roots.ds.isSome

end Local

/-! ## The path to the peer -/

section Path

variable (t : Trace) (me : Value) (a : Agreement)

/-- What the path to the peer shows. -/
inductive PathTold where
  | cause (key : String)
  | answers
  | nothing
deriving DecidableEq

def PathFound.told : PathFound → PathTold
  | .cause root _ _ => .cause root.key
  | .answers => .answers
  | .nothing => .nothing

def silentKey (isOpen : Bool) : String :=
  keyOf .peerDsNotAnswering (if isOpen then a.peerHere else a.pair me)

def noAnswerKey : String :=
  let pstate := tcpState (t.getFor "peer.port" a.subj)
  let hstate := tcpState (t.getFor "peer.https" a.subj)
  match t.getFor "peer.port" a.subj, t.getFor "peer.https" a.subj with
  | some _, some _ =>
      if pstate = .str "refused" ∧ hstate = .str "open" then keyOf .peerDsNotAccepting a.peerHere
      else if gaveUp pstate && gaveUp hstate then keyOf .peerUnreachable (a.pair me)
      else silentKey me a (pstate = .str "open")
  | _, _ => silentKey me a (pstate = .str "open")

def pathTold : PathTold :=
  match (t.getFor "peer.dns" a.subj).filter fun r => r.outcome = .fail with
  | some _ => .cause (keyOf .peerNameUnresolved (a.pair me))
  | none =>
      match t.getFor "peer.rootdse" a.subj with
      | none => .nothing
      | some rd =>
          match rd.outcome with
          | .skipped | .unknown => .nothing
          | .pass | .warn => .answers
          | .fail =>
              if getField rd.facts "error_class" = StatusClass.tls.value then
                .cause (keyOf .peerTlsFailed (a.pair me))
              else .cause (noAnswerKey t me a)

end Path

/-! ## The cascade -/

section Cascade

variable (t : Trace) (me realm : Value) (a : Agreement)

def gssapiKey (eff : StatusClass) (gs : Option Record) : Option String :=
  if eff = .gssapiNoKdc then (kdcKey t me).map fun kdc => (dsKey t me).getD kdc
  else if eff = .gssapiClockSkew then
    (measuredSkew t a).map fun _ => keyOf .pairClockSkew (a.pair me)
  else if eff = .gssapiServerNotFound then
    if principalAbsent t a then some (keyOf .peerLdapPrincipalMissing (principalSubject realm a))
    else none
  else if eff = .gssapiCredentials ∨ (keyFault gs).isSome then
    (keytabKey t me).or ((keyFault gs).map fun _ => keyOf .dsKeyRejected (serverSubject me))
  else none

def statusKey (cls : Recorded) : Option String :=
  match cls with
  | .known .insufficientAccess =>
      if notAManager t me then some (keyOf .notAReplicationManager MANAGERS) else none
  | .known .tls => some (keyOf .peerTlsFailed (a.pair me))
  | .known cls =>
      if cls ∈ NEEDS_ADMIN then some (keyOf .replicaNeedsAdminAction (a.relKey me)) else none
  | .other _ => none

/-- The cause a Kerberos agreement is reported with. `none`: it is not
reported as failing. -/
def gssapiTold (kc : KerberosClass × KerberosSource) (gs : Option Record) :
    Option (Option String) :=
  if a.cls = .known .invalidCredentials ∧ kc.2 = .kinit then some none
  else
    match chainClass? kc.1, isCredentials a.cls with
    | some eff, true => some (gssapiKey t me realm a eff gs)
    | _, _ =>
        if kc.1 = .skew49 then some (some (keyOf .pairClockSkew (a.pair me)))
        else if a.cls = .known .invalidCredentials ∧ kc.1 = .peerRejects then
          some (some (keyOf .peerRejectsGssapi a.peerHere))
        else if isCredentials a.cls ∧ kc.1 = .notReproduced then none
        else some (statusKey t me a a.cls)

def transportTold : Option (Option String) :=
  match pathTold t me a with
  | .cause key => some (some key)
  | .nothing => some none
  | .answers => none

/-- The cause a failing agreement is reported with. -/
def causeTold : Option (Option String) :=
  if a.cls = .known .transport then transportTold t me a
  else if usesGssapi a then
    match a.kerberos t with
    | .ok kc => gssapiTold t me realm a kc (t.getFor "gssapi" a.subj)
    | .error _ => none
  else some (statusKey t me a a.cls)

/-- Whether an agreement is reported as failing, and with which cause. -/
def reports : Option (Option String) :=
  if isFalse (getField a.item "enabled") ∨ a.cls = .known .ok ∨ isTransient a.cls then none
  else causeTold t me realm a

/-- The same of its reverse direction. -/
def reverseReports : Option (Option String) :=
  match t.getFor "reverse" a.subj with
  | none => none
  | some r =>
      match r.outcome with
      | .skipped | .unknown | .pass => none
      | .warn | .fail =>
          match reverseClass r with
          | .error _ => none
          | .ok cls =>
              if isTransient cls ∨ (cls = .known .transport ∧ dsNotStopped t) then none
              else if acceptorClass cls ∧ measuredSkew t a = none then some (keytabKey t me)
              else some none

def Cause.told : Cause → Option (Option String)
  | .found root _ _ => some (root.map ReplDiagnosis.key)
  | .settled _ => none

end Cascade

/-! ## The cascade finds it -/

/-- Whatever may be raised. -/
def Anything (_ : E) : Prop := True

section Found

variable {t : Trace} {me realm : Value} {b : Builder} {a : Agreement} {roots : Roots}
  {links base : List Link} {ev : List String}

theorem chain_any (links : List Link) (subject : String) (bounded : Bool) (handoff : Option Value) :
    Ensures (b.chain subject links bounded handoff) (fun _ => True) Anything :=
  Ensures.trivial fun _ _ => trivial

theorem fixed0_any (v : Value) : Ensures (v.fixed0 : Except E String) (fun _ => True) Anything :=
  Ensures.trivial fun _ _ => trivial

theorem add_key (b : Builder) (d : ReplDiagnosis) : (b.add d).1.key = d.key := (b.add_spec d).2

theorem tls_root_key (disc : String) :
    Ensures (tls_root me b a base ev disc)
      (fun r => r.1.key = keyOf .peerTlsFailed (a.pair me)) Anything :=
  (chain_any _ _ _ _).bind fun _ _ _ => Ensures.pure (add_key _ _)

theorem silentPath_told (disc : PeerDisc) (isOpen : Bool) :
    Ensures (silentPath me b a base disc isOpen ev)
      (fun r => r.told = .cause (silentKey me a isOpen)) Anything :=
  (chain_any _ _ _ _).bind fun _ _ _ => Ensures.pure (congrArg PathTold.cause (add_key _ _))

theorem noAnswerPath_told (now : Bool) (rd : Record) :
    Ensures (noAnswerPath t me b a base now rd)
      (fun r => r.told = .cause (noAnswerKey t me a)) Anything := by
  unfold noAnswerPath noAnswerKey
  dsimp only
  cases t.getFor "peer.port" a.subj with
  | none => exact silentPath_told _ _
  | some p =>
      cases t.getFor "peer.https" a.subj with
      | none => exact silentPath_told _ _
      | some h =>
          dsimp only
          split
          · exact (chain_any _ _ _ _).bind fun _ _ _ =>
              Ensures.pure (congrArg PathTold.cause (add_key _ _))
          · split
            · exact (chain_any _ _ _ _).bind fun _ _ _ =>
                Ensures.pure (congrArg PathTold.cause (add_key _ _))
            · exact silentPath_told _ _

theorem peer_path_told (now : Bool) :
    Ensures (peer_path t me b a base now) (fun r => r.told = pathTold t me a) Anything := by
  unfold peer_path pathTold
  cases (t.getFor "peer.dns" a.subj).filter fun r => r.outcome = .fail with
  | some dns =>
      exact (chain_any _ _ _ _).bind fun _ _ _ => Ensures.pure (congrArg PathTold.cause (add_key _ _))
  | none =>
      cases t.getFor "peer.rootdse" a.subj with
      | none => exact rfl
      | some rd =>
          dsimp only
          cases rd.outcome with
          | skipped => exact rfl
          | unknown => exact rfl
          | pass => exact rfl
          | warn => exact rfl
          | fail =>
              dsimp only
              split
              · refine (tls_root_key _).bind ?_
                rintro ⟨root, c, b₂⟩ - h
                exact Ensures.pure (congrArg PathTold.cause h)
              · exact noAnswerPath_told now rd

theorem pair_skew_key (off : Value) (viaChain : Bool) :
    Ensures (pair_skew t me b a off viaChain)
      (fun r => r.1.key = keyOf .pairClockSkew (a.pair me)) Anything := by
  unfold pair_skew
  split
  · rename_i existing hget
    exact (Builder.find?_some hget).2
  · refine Ensures.bind (Q := fun _ => True) (Ensures.trivial fun _ _ => trivial) fun _ _ _ => ?_
    split
    · trivial
    · refine (fixed0_any _).bind fun _ _ _ => ?_
      split
      · exact Ensures.pure (add_key _ _)
      · exact (chain_any _ _ _ _).bind fun _ _ _ => Ensures.pure (add_key _ _)

/-- A root, and its key. -/
def Rooted.Keyed (r : Rooted) (key : Option String) : Prop := r.1.map ReplDiagnosis.key = key

theorem chain_noRoot (subject : String) (handoff : Option Value) :
    Ensures (do
      let (c, b) ← b.chain subject links true handoff
      pure (none, c, b) : Except E Rooted) (fun r => r.Keyed none) Anything :=
  (chain_any _ _ _ _).bind fun _ _ _ => Ensures.pure rfl

theorem noKdcChain_key (hroots : RootsOf t me roots) :
    Ensures (noKdcChain me b a links ev roots)
      (fun r => r.Keyed ((kdcKey t me).map fun kdc => (dsKey t me).getD kdc)) Anything := by
  rw [← hroots.kdc, ← hroots.ds]
  unfold noKdcChain
  cases hkdc : roots.kdc with
  | none => exact chain_noRoot _ _
  | some kdc =>
      have hrel := hroots.related kdc hkdc
      refine (chain_any _ _ _ _).bind fun _ _ _ => Ensures.pure ?_
      unfold Rooted.Keyed
      rw [hrel]
      cases roots.ds with
      | none => rfl
      | some ds => rfl

theorem clockSkewChain_key :
    Ensures (clockSkewChain t me b a links ev)
      (fun r => r.Keyed ((measuredSkew t a).map fun _ => keyOf .pairClockSkew (a.pair me)))
      Anything := by
  unfold clockSkewChain
  cases measuredSkew t a with
  | none => exact chain_noRoot _ _
  | some m =>
      refine (fixed0_any _).bind fun _ _ _ => ?_
      refine (pair_skew_key _ _).bind fun r _ hkey => ?_
      exact (chain_any _ _ _ _).bind fun _ _ _ => Ensures.pure (congrArg some hkey)

theorem serverNotFoundChain_key :
    Ensures (serverNotFoundChain t me realm b a links ev)
      (fun r => r.Keyed (if principalAbsent t a then
        some (keyOf .peerLdapPrincipalMissing (principalSubject realm a)) else none)) Anything := by
  unfold serverNotFoundChain
  split
  · exact (chain_any _ _ _ _).bind fun _ _ _ => Ensures.pure (congrArg some (add_key _ _))
  · exact chain_noRoot _ _

theorem credentialsChain_key (hroots : RootsOf t me roots) (gs : Option Record) :
    Ensures (credentialsChain me b a links ev gs roots)
      (fun r => r.Keyed ((keytabKey t me).or
        ((keyFault gs).map fun _ => keyOf .dsKeyRejected (serverSubject me)))) Anything := by
  rw [← hroots.keytab]
  unfold credentialsChain
  cases roots.keytab with
  | some keytab => exact (chain_any _ _ _ _).bind fun _ _ _ => Ensures.pure rfl
  | none =>
      cases keyFault gs with
      | some kc =>
          exact (chain_any _ _ _ _).bind fun _ _ _ => Ensures.pure (congrArg some (add_key _ _))
      | none => exact chain_noRoot _ _

theorem gssapi_chain_key (hroots : RootsOf t me roots) (eff : StatusClass) (gs : Option Record) :
    Ensures (gssapi_chain t me realm b a eff base gs roots)
      (fun r => r.Keyed (gssapiKey t me realm a eff gs)) Anything := by
  unfold gssapi_chain gssapiKey
  dsimp only
  split
  · exact noKdcChain_key hroots
  · split
    · exact clockSkewChain_key
    · split
      · exact serverNotFoundChain_key
      · split
        · exact credentialsChain_key hroots gs
        · exact chain_noRoot _ _

theorem statusCause_told (cls : Recorded) :
    Ensures (statusCause t me b a cls) (fun r => r.told = some (statusKey t me a cls)) Anything := by
  cases cls with
  | other v => exact Ensures.pure rfl
  | known c =>
      by_cases haccess : c = .insufficientAccess
      · subst haccess
        unfold statusCause statusKey insufficientAccessCause
        dsimp only
        split
        · exact (chain_any _ _ _ _).bind fun _ _ _ =>
            Ensures.pure (congrArg (fun k => some (some k)) (add_key _ _))
        · exact (chain_any _ _ _ _).bind fun _ _ _ => Ensures.pure rfl
      · by_cases htls : c = .tls
        · subst htls
          refine (tls_root_key _).bind ?_
          rintro ⟨root, c, b₂⟩ - h
          exact Ensures.pure (congrArg (fun k => some (some k)) h)
        · have hcause : statusCause t me b a (.known c)
              = if c ∈ NEEDS_ADMIN then needsAdminCause me b a c else pure (.found none none b) := by
            cases c <;> first | rfl | exact absurd rfl haccess | exact absurd rfl htls
          have hkey : statusKey t me a (.known c) = if c ∈ NEEDS_ADMIN then
              some (keyOf .replicaNeedsAdminAction (a.relKey me)) else none := by
            cases c <;> first | rfl | exact absurd rfl haccess | exact absurd rfl htls
          rw [hcause, hkey]
          split
          · exact (chain_any _ _ _ _).bind fun _ _ _ =>
              Ensures.pure (congrArg (fun k => some (some k)) (add_key _ _))
          · exact Ensures.pure rfl

theorem skew49Cause_told_key (gs : Option Record) :
    Ensures (skew49Cause t me b a gs)
      (fun r => r.told = some (some (keyOf .pairClockSkew (a.pair me)))) Anything := by
  unfold skew49Cause
  split
  · refine (pair_skew_key _ _).bind fun r _ hkey => ?_
    refine (fixed0_any _).bind fun _ _ _ => ?_
    exact (chain_any _ _ _ _).bind fun _ _ _ =>
      Ensures.pure (congrArg (fun k => some (some k)) hkey)
  · trivial

theorem peerRejectsCause_told (gs : Option Record) :
    Ensures (peerRejectsCause me b a gs)
      (fun r => r.told = some (some (keyOf .peerRejectsGssapi a.peerHere))) Anything := by
  unfold peerRejectsCause
  split
  · exact (chain_any _ _ _ _).bind fun _ _ _ =>
      Ensures.pure (congrArg (fun k => some (some k)) (add_key _ _))
  · trivial

theorem gssapiCause_told (hroots : RootsOf t me roots) (kc : KerberosClass × KerberosSource)
    (gs : Option Record) :
    Ensures (gssapiCause t me realm b a a.cls (isCredentials a.cls) kc gs roots)
      (fun r => r.told = gssapiTold t me realm a kc gs) Anything := by
  unfold gssapiCause gssapiTold
  split
  · exact (chain_any _ _ _ _).bind fun _ _ _ => Ensures.pure rfl
  · have hrest : Ensures
        (if kc.1 = .skew49 then skew49Cause t me b a gs
          else if a.cls = .known .invalidCredentials ∧ kc.1 = .peerRejects then
            peerRejectsCause me b a gs
          else if isCredentials a.cls ∧ kc.1 = .notReproduced then
            pure (.settled (b.add (notReproduced me a
              ("agreements" :: gs.toList.map Record.stepId))).2)
          else statusCause t me b a a.cls)
        (fun r => r.told = if kc.1 = .skew49 then some (some (keyOf .pairClockSkew (a.pair me)))
          else if a.cls = .known .invalidCredentials ∧ kc.1 = .peerRejects then
            some (some (keyOf .peerRejectsGssapi a.peerHere))
          else if isCredentials a.cls ∧ kc.1 = .notReproduced then none
          else some (statusKey t me a a.cls)) Anything := by
      split
      · exact skew49Cause_told_key gs
      · split
        · exact peerRejectsCause_told gs
        · split
          · exact Ensures.pure rfl
          · exact statusCause_told a.cls
    cases chainClass? kc.1 with
    | none => exact hrest
    | some eff =>
        cases hcred : isCredentials a.cls with
        | true =>
            refine (gssapi_chain_key hroots eff gs).bind fun r _ hkey => ?_
            exact Ensures.pure (congrArg some hkey)
        | false =>
            rw [hcred] at hrest
            exact hrest

theorem failingCause_told (hroots : RootsOf t me roots) :
    Ensures (failingCause t me realm b a roots) (fun r => r.told = causeTold t me realm a)
      Anything := by
  unfold failingCause causeTold
  dsimp only
  split
  · unfold transportCause transportTold
    refine (peer_path_told false).bind fun r _ htold => ?_
    rw [← htold]
    cases r with
    | cause root c b₂ => exact Ensures.pure rfl
    | answers => exact Ensures.pure rfl
    | nothing => exact Ensures.pure rfl
  · split
    · unfold Agreement.kerberos
      cases kerberos_class a.cls (t.getFor "gssapi" a.subj)
          ((peer_offset t a.subj).map Prod.fst) with
      | error e => trivial
      | ok kc => exact gssapiCause_told hroots kc _
    · exact statusCause_told a.cls

end Found

end IpaDiagnose.Replication
