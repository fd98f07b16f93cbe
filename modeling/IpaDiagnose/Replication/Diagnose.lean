import IpaDiagnose.Replication.Builder

/-!
# Cause chains and diagnoses

From the trace of an investigation to its diagnoses: what is wrong on
this server, then each outbound agreement, then its reverse direction.
The chain of an agreement starts at its recorded status; a link is added
only on established evidence, and a chain that cannot be continued says
why.
-/

namespace IpaDiagnose.Replication

open Py (Value Dict Exc)
open Planner (Outcome Record Trace Enumeration)

def LONG_SESSION_SECONDS : ℚ := 1800

/-! ## This server -/

/-- What is wrong on this server, if anything. -/
structure Roots where
  ds : Option ReplDiagnosis := none
  kdc : Option ReplDiagnosis := none
  storage : Option ReplDiagnosis := none
  keytab : Option ReplDiagnosis := none

section Local

variable (t : Trace) (here : String)

def localStorage (b : Builder) : Except E (Option ReplDiagnosis × Builder) :=
  if outcomeOf t "local.storage" = some .fail then do
    let (c, b) ← b.chain here [⟨here, .storage, ["local.storage"], "local-storage", .here⟩] true none
    let (d, b) := b.add
      { code := .dsStorageProblem, subject := here, capability := .storage, severity := .fail
        confidence := .high, evidence := ["local.storage"], chainIds := [c.chainId] }
    pure (some d, b)
  else pure (none, b)

def dsLinks (storage : Option ReplDiagnosis) : List Link :=
  ⟨here, .localDs, ["local.ds"], "local-ds-down", .here⟩ ::
    (if storage.isSome then
      [⟨here, .storage, ["local.storage", "local.ds"], "storage-under-ds", .here⟩] else [])

/-- The file system under the Directory Server is established fine. -/
def storageFine : Bool :=
  outcomeOf t "local.storage" == some .pass || outcomeOf t "local.storage" == some .warn

def START_SERVICE : String := "healthcheck.service-not-running"

def dsDiagnosis (storage : Option ReplDiagnosis) (c : Chain) : ReplDiagnosis :=
  { code := .localDsNotRunning, subject := here, capability := .localDs, severity := .fail
    confidence := .high, evidence := ["local.ds"], chainIds := [c.chainId]
    relatedTo := storage.map ReplDiagnosis.key
    -- the start is offered only when the file system is established fine
    resolutionKey := if storageFine t then some START_SERVICE else none
    bindings := if storageFine t then [("service", .str "dirsrv")] else [] }

def localDs (storage : Option ReplDiagnosis) (b : Builder) :
    Except E (Option ReplDiagnosis × Builder) :=
  if outcomeOf t "local.ds" = some .fail then do
    let (c, b) ← b.chain here (dsLinks here storage) (!storage.isSome) none
    let (d, b) := b.add (dsDiagnosis t here storage c)
    match storage with
    | some s => pure (some d, b.explain s.key d.key)
    | none => pure (some d, b)
  else pure (none, b)

def kdcLinks (ds : Option ReplDiagnosis) : List Link :=
  ⟨here, .localKdc, ["local.kdc"], "local-kdc-down", .here⟩ ::
    (if ds.isSome then
      [⟨here, .localDs, ["local.ds", "local.kdc"], "kdc-needs-local-ds", .here⟩] else [])

def kdcDiagnosis (ds : Option ReplDiagnosis) (c : Chain) : ReplDiagnosis :=
  { code := .localKdcNotRunning, subject := here, capability := .localKdc, severity := .fail
    confidence := .high, evidence := ["local.kdc"], chainIds := [c.chainId]
    relatedTo := ds.map ReplDiagnosis.key
    resolutionKey := if ds.isSome then none else some START_SERVICE
    bindings := if ds.isSome then [] else [("service", .str "krb5kdc")] }

def localKdc (ds : Option ReplDiagnosis) (b : Builder) : Except E (Option ReplDiagnosis × Builder) :=
  if outcomeOf t "local.kdc" = some .fail then do
    let (c, b) ← b.chain here (kdcLinks here ds) false none
    let (d, b) := b.add (kdcDiagnosis here ds c)
    match ds with
    | some s => pure (some d, b.explain s.key d.key)
    | none => pure (some d, b)
  else pure (none, b)

def localKeytab (b : Builder) : Except E (Option ReplDiagnosis × Builder) :=
  let kt := factOf t "local.keytab" "state"
  if outcomeOf t "local.keytab" = some .fail then do
    hashed kt
    let (c, b) ← b.chain here [⟨here, .keytab, ["local.keytab"], "ds-keytab-local", .here⟩] true none
    let (d, b) := b.add
      { code := .dsKeytabProblem, subject := here, capability := .keytab, severity := .fail
        confidence := .high, evidence := ["local.keytab"], chainIds := [c.chainId]
        resolutionKey := some "replication.ds-keytab-problem", variant := kt }
    pure (some d, b)
  else if outcomeOf t "local.keytab" = some .warn ∧ kt = .str "world_readable" then
    pure (none, (b.add
      { code := .dsKeytabExposed, subject := here, capability := .keytab, severity := .warn
        confidence := .high, evidence := ["local.keytab"] }).2)
  else pure (none, b)

def localStorageLow (b : Builder) : Builder :=
  if outcomeOf t "local.storage" = some .warn then
    (b.add
      { code := .dsStorageLow, subject := here, capability := .storage, severity := .warn
        confidence := .high, evidence := ["local.storage"] }).2
  else b

/-- The prerequisites on this server. -/
def localRoots (b : Builder) : Except E (Roots × Builder) := do
  let (storage, b) ← localStorage t here b
  let (ds, b) ← localDs t here storage b
  let (kdc, b) ← localKdc t here ds b
  let (keytab, b) ← localKeytab t here b
  pure ({ ds := ds, kdc := kdc, storage := storage, keytab := keytab }, localStorageLow t here b)

end Local

/-! ## Kerberos -/

/-- What the Kerberos failure of an agreement is. -/
inductive KerberosClass where
  | cls (c : StatusClass)
  | notReproduced
  | peerRejects
  | skew49
  | noReproduction
deriving DecidableEq

/-- Where that is known from. -/
inductive KerberosSource where
  | status
  | nothing
  | reproduction
  | kinit
  | bind
deriving DecidableEq

def SPECIFIC : List StatusClass :=
  [.gssapiNoKdc, .gssapiClockSkew, .gssapiServerNotFound, .gssapiCredentials]

def KINIT_TO_CLASS : List (String × StatusClass) :=
  [("kdc_unreachable", .gssapiNoKdc), ("kdc_unresolvable", .gssapiNoKdc),
    ("key_rejected", .gssapiCredentials), ("keytab_no_entry", .gssapiCredentials),
    ("principal_unknown", .gssapiCredentials), ("principal_revoked", .gssapiCredentials)]

/-- The class of a failed kinit; a clock skew is one against this host's
KDC, not the consumer. -/
def kinitClass (kc : Value) : Except E StatusClass := do
  let found ← Py.lookupKey KINIT_TO_CLASS kc
  pure (if kc = .str "clock_skew" then .gssapiOther else found.getD .gssapiOther)

def specific? : Recorded → Option StatusClass
  | .known c => if c ∈ SPECIFIC then some c else none
  | .other _ => none

/-- The class of a reproduced bind that failed. -/
def bindClass (gs : Record) (off : Option Value) : KerberosClass :=
  match specific? (.ofValue (getField gs.facts "error_class")) with
  | some c => .cls c
  | none =>
      if getField gs.facts "error_class" = StatusClass.invalidCredentials.value then
        if off.any fun v => v.beyond KRB_TOLERANCE then .skew49 else .peerRejects
      else .cls .gssapiOther

/-- From the status when it names a specific class, otherwise from the
reproduction of the supplier's bind. -/
def kerberos_class (cls : Recorded) (gs : Option Record) (off : Option Value) :
    Except E (KerberosClass × KerberosSource) :=
  match specific? cls with
  | some c => .ok (.cls c, .status)
  | none =>
      match gs with
      | none => .ok (.noReproduction, .nothing)
      | some gs =>
          if gs.outcome = .skipped ∨ gs.outcome = .unknown then .ok (.noReproduction, .nothing)
          else if gs.outcome = .pass then .ok (.notReproduced, .reproduction)
          else if getField gs.facts "kinit_ok" = .bool false then do
            let c ← kinitClass (getField gs.facts "kinit_class")
            pure (.cls c, .kinit)
          else .ok (bindClass gs off, .bind)

def KEY_FAULTS : List String := ["key_rejected", "keytab_no_entry", "principal_unknown"]

/-- The reproduction's kinit shows a fault of this server's own key. -/
def keyFault (gs : Option Record) : Option String :=
  match gs.map fun gs => getField gs.facts "kinit_class" with
  | some (.str kc) => if kc ∈ KEY_FAULTS then some kc else none
  | _ => none

/-! ## One outbound agreement -/

structure Agreement where
  subj : String
  item : Dict
  consumer : Value
  suffix : Value

section OneAgreement

variable (t : Trace) (me realm : Value)

def Agreement.relKey (a : Agreement) : String := rel a.suffix me a.consumer

def Agreement.pair (a : Agreement) : String := pairSubject me a.consumer

def Agreement.peerHere (a : Agreement) : String := serverSubject a.consumer

/-- What this host's own time service says is shown with an offset. -/
def localClockShown : Except E Unit :=
  if (outcomeOf t "time.local").all (fun o => o = .skipped ∨ o = .unknown) then .ok ()
  else if (factOf t "time.local" "offset").isNumber then do
    let _ ← (factOf t "time.local" "offset").fixed0
    pure ()
  else .ok ()

/-- What a measured clock difference rests on. -/
def skewEvidence (measured : Record) : List String :=
  measured.stepId ::
    (if (outcomeOf t "time.local").all (· = .skipped) then [] else ["time.local"])

def skewDiagnosis (a : Agreement) (ev : List String) (c : Option Chain) : ReplDiagnosis :=
  { code := .pairClockSkew, subject := a.pair me, capability := .time, severity := .fail
    confidence := .high, evidence := ev, scope := .pair
    chainIds := c.toList.map Chain.chainId, handoff := some a.consumer
    resolutionKey := some "replication.pair-clock-skew" }

def skewLink (a : Agreement) (ev : List String) : Link :=
  ⟨a.pair me, .time, ev, "pair-clock-skew", .pair⟩

/-- The clock difference of the pair, made once; on its own it has a
chain of its own. -/
def pair_skew (b : Builder) (a : Agreement) (off : Value) (viaChain : Bool) :
    Except E (ReplDiagnosis × Builder) :=
  match b.get .pairClockSkew (a.pair me) with
  | some existing => .ok (existing, b)
  | none => do
      localClockShown t
      match peer_offset t a.subj with
      | none => .error .attributeError
      | some (_, measured) =>
          let _ ← off.fixed0
          let ev := skewEvidence t measured
          if viaChain then pure (b.add (skewDiagnosis me a ev none))
          else
            let (c, b) ← b.chain (a.pair me) [skewLink me a ev] true (some a.consumer)
            pure (b.add (skewDiagnosis me a ev (some c)))

def measuredSkew (a : Agreement) : Option (Value × Record) :=
  (peer_offset t a.subj).filter fun m => m.1.beyond KRB_TOLERANCE

def evGssapi (gs : Option Record) : List String :=
  "agreements" :: (gs.filter fun gs => gs.outcome != .skipped).toList.map Record.stepId

/-- The deepest proven link of a Kerberos failure, and its chain. -/
abbrev Rooted := Option ReplDiagnosis × Chain × Builder

def kdcDownLinks (ev : List String) (roots : Roots) : List Link :=
  ⟨serverSubject me, .localKdc, ev ++ ["local.kdc"], "kerberos-no-kdc-local-down", .here⟩ ::
    (if roots.ds.isSome then
      [⟨serverSubject me, .localDs, ["local.ds", "local.kdc"], "kdc-needs-local-ds", .here⟩]
    else [])

def noKdcChain (b : Builder) (a : Agreement) (links : List Link) (ev : List String)
    (roots : Roots) : Except E Rooted :=
  match roots.kdc with
  | some kdc => do
      let (c, b) ← b.chain (a.relKey me) (links ++ kdcDownLinks me ev roots) false none
      pure (if roots.ds.isSome ∧ kdc.relatedTo.isSome then roots.ds else some kdc, c, b)
  | none => do
      let (c, b) ← b.chain (a.relKey me) links true none
      pure (none, c, b)

def clockSkewChain (b : Builder) (a : Agreement) (links : List Link) (ev : List String) :
    Except E Rooted :=
  match measuredSkew t a with
  | some (off, measured) => do
      let _ ← off.fixed0
      let (root, b) ← pair_skew t me b a off true
      let (c, b) ← b.chain (a.relKey me)
        (links ++ [⟨a.pair me, .time, ev ++ [measured.stepId], "kerberos-clock-skew", .pair⟩])
        true root.handoff
      pure (some root, c, b.rest root.key c)
  | none => do
      let (c, b) ← b.chain (a.relKey me) links true none
      pure (none, c, b)

/-- `ldap/<consumer>@<realm>` -/
def principalName (host : Value) : String := "ldap/" ++ host.toStr ++ "@" ++ realm.toStr

def principalSubject (a : Agreement) : String := "principal:" ++ principalName realm a.consumer

/-- The list of principals was read whole, and the peer's is not in it. -/
def principalAbsent (a : Agreement) : Bool :=
  match factOf t "principals" "ldap_principals" with
  | .list ps => isTrue (factOf t "principals" "complete") && !among a.consumer ps
  | _ => false

def serverNotFoundChain (b : Builder) (a : Agreement) (links : List Link) (ev : List String) :
    Except E Rooted :=
  if principalAbsent t a then do
    let (c, b) ← b.chain (a.relKey me)
      (links ++ [⟨principalSubject realm a, .principal, ev ++ ["principals"],
        "kerberos-server-principal-absent", .directory⟩]) true none
    let (root, b) := b.add
      { code := .peerLdapPrincipalMissing, subject := principalSubject realm a
        capability := .principal, severity := .fail, confidence := .high
        evidence := ev ++ ["principals"], scope := .directory
        resolutionKey := some "replication.peer-principal-missing" }
    pure (some root, c, b)
  else do
    let (c, b) ← b.chain (a.relKey me) links true none
    pure (none, c, b)

def keyRejected (ev : List String) (kc : String) : ReplDiagnosis :=
  { code := .dsKeyRejected, subject := serverSubject me, capability := .keytab, severity := .fail
    confidence := .high, evidence := ev
    resolutionKey := some "replication.ds-keytab-problem", variant := .str kc }

def keytabLink (ev : List String) : Link :=
  ⟨serverSubject me, .keytab, ev ++ ["local.keytab"], "kerberos-local-credentials", .here⟩

def credentialsChain (b : Builder) (a : Agreement) (links : List Link) (ev : List String)
    (gs : Option Record) (roots : Roots) : Except E Rooted :=
  match roots.keytab with
  | some keytab => do
      let (c, b) ← b.chain (a.relKey me) (links ++ [keytabLink me ev]) true none
      pure (some keytab, c, b)
  | none =>
      match keyFault gs with
      | some kc => do
          let (c, b) ← b.chain (a.relKey me) (links ++ [keytabLink me ev]) true none
          let (root, b) := b.add (keyRejected me ev kc)
          pure (some root, c, b)
      | none => do
          let (c, b) ← b.chain (a.relKey me) links true none
          pure (none, c, b)

/-- The chain of a failure that is a Kerberos one. -/
def gssapi_chain (b : Builder) (a : Agreement) (eff : StatusClass) (base : List Link)
    (gs : Option Record) (roots : Roots) : Except E Rooted :=
  let ev := evGssapi gs
  let links := base ++ [⟨a.relKey me, .kerberos, ev, "status-gssapi", .here⟩]
  if eff = .gssapiNoKdc then noKdcChain me b a links ev roots
  else if eff = .gssapiClockSkew then clockSkewChain t me b a links ev
  else if eff = .gssapiServerNotFound then serverNotFoundChain t me realm b a links ev
  else if eff = .gssapiCredentials ∨ (keyFault gs).isSome then
    credentialsChain me b a links ev gs roots
  else do
    let (c, b) ← b.chain (a.relKey me) links true none
    pure (none, c, b)

/-- This server's own key is refused by the KDC, as a diagnosis of its own. -/
def ds_key_root (b : Builder) (gs : Record) (kc : String) : Builder :=
  match b.get .dsKeyRejected (serverSubject me) with
  | some _ => b
  | none => (b.add (keyRejected me ["agreements", gs.stepId] kc)).2

/-! ### The path to the peer -/

/-- The discriminators of the links to the peer: after a failing status,
or as the first link when only this host's own checks fail now. -/
structure PeerDisc where
  dns : String
  refused : String
  noanswer : String
  tls : String

def PEER_DISC (now : Bool) : PeerDisc :=
  if now then
    ⟨"peer-name-unresolved-now", "peer-ds-refused-now", "peer-no-ldap-answer-now",
      "peer-tls-fails-now"⟩
  else ⟨"peer-name-unresolved", "peer-ds-refused-host-up", "status-transport", "status-tls"⟩

/-- The state of a TCP check that ran. -/
def tcpState (r : Option Record) : Value :=
  match r with
  | some r => if r.outcome = .pass ∨ r.outcome = .fail then getField r.facts "state" else .null
  | none => .null

def gaveUp (state : Value) : Bool := among state [.str "timeout", .str "unreachable"]

inductive PathFound where
  | cause (root : ReplDiagnosis) (c : Chain) (b : Builder)
  | answers
  | nothing

def tls_root (b : Builder) (a : Agreement) (base : List Link) (ev : List String) (disc : String) :
    Except E (ReplDiagnosis × Chain × Builder) := do
  let (c, b) ← b.chain (a.relKey me) (base ++ [⟨a.pair me, .tls, ev, disc, .pair⟩]) true
    (some a.consumer)
  let (root, b) := b.add
    { code := .peerTlsFailed, subject := a.pair me, capability := .tls, severity := .fail
      confidence := .medium, evidence := ev, scope := .pair, handoff := c.handoff }
  pure (root, c, b)

def unresolvedPath (b : Builder) (a : Agreement) (base : List Link) (disc : PeerDisc)
    (dns : Record) : Except E PathFound := do
  let (c, b) ← b.chain (a.relKey me)
    (base ++ [⟨a.pair me, .dns, [dns.stepId], disc.dns, .here⟩]) true none
  let (root, b) := b.add
    { code := .peerNameUnresolved, subject := a.pair me, capability := .dns, severity := .fail
      confidence := .high, evidence := [dns.stepId] }
  pure (.cause root c b)

def refusedPath (b : Builder) (a : Agreement) (base : List Link) (disc : PeerDisc)
    (ev : List String) : Except E PathFound := do
  let (c, b) ← b.chain (a.relKey me)
    (base ++ [⟨a.peerHere, .peerDs, ev, disc.refused, .peer⟩]) true (some a.consumer)
  let (root, b) := b.add
    { code := .peerDsNotAccepting, subject := a.peerHere, capability := .peerDs, severity := .fail
      confidence := .high, evidence := ev, scope := .peer, handoff := c.handoff }
  pure (.cause root c b)

def unreachablePath (b : Builder) (a : Agreement) (base : List Link) (disc : PeerDisc)
    (rd prt https : Record) : Except E PathFound := do
  let (c, b) ← b.chain (a.relKey me)
    (base ++ [⟨a.peerHere, .peerDs, [rd.stepId], disc.noanswer, .peer⟩,
      ⟨a.pair me, .network, [prt.stepId, https.stepId], "peer-unreachable", .pair⟩])
    true (some a.consumer)
  let (root, b) := b.add
    { code := .peerUnreachable, subject := a.pair me, capability := .network, severity := .fail
      confidence := .high, evidence := [prt.stepId, https.stepId, rd.stepId], scope := .pair
      handoff := c.handoff }
  pure (.cause root c b)

def silentPath (b : Builder) (a : Agreement) (base : List Link) (disc : PeerDisc)
    (isOpen : Bool) (ev : List String) : Except E PathFound := do
  let (c, b) ← b.chain (a.relKey me)
    (base ++ [⟨a.peerHere, .peerDs, ev, disc.noanswer, .peer⟩]) true (some a.consumer)
  let (root, b) := b.add
    { code := .peerDsNotAnswering, subject := if isOpen then a.peerHere else a.pair me
      capability := .peerDs, severity := .fail
      confidence := if isOpen then .high else .medium, evidence := ev
      scope := if isOpen then .peer else .pair, handoff := c.handoff }
  pure (.cause root c b)

/-- The peer's root DSE gives no LDAP answer: is it its port, or the host? -/
def noAnswerPath (b : Builder) (a : Agreement) (base : List Link) (now : Bool) (rd : Record) :
    Except E PathFound :=
  let disc := PEER_DISC now
  let prt := t.getFor "peer.port" a.subj
  let https := t.getFor "peer.https" a.subj
  let pstate := tcpState prt
  let hstate := tcpState https
  match prt, https with
  | some p, some h =>
      if pstate = .str "refused" ∧ hstate = .str "open" then
        refusedPath me b a base disc [p.stepId, h.stepId, rd.stepId]
      else if gaveUp pstate && gaveUp hstate then unreachablePath me b a base disc rd p h
      else silentPath me b a base disc (pstate = .str "open") [p.stepId, rd.stepId]
  | prt, _ =>
      silentPath me b a base disc (pstate = .str "open")
        (prt.toList.map Record.stepId ++ [rd.stepId])

/-- Name resolution, port, root DSE and reachability of the consumer, as
observed from this host now. -/
def peer_path (b : Builder) (a : Agreement) (base : List Link) (now : Bool) : Except E PathFound :=
  match (t.getFor "peer.dns" a.subj).filter fun r => r.outcome = .fail with
  | some dns => unresolvedPath me b a base (PEER_DISC now) dns
  | none =>
      match t.getFor "peer.rootdse" a.subj with
      | none => .ok .nothing
      | some rd =>
          match rd.outcome with
          | .skipped | .unknown => .ok .nothing
          | .pass | .warn => .ok .answers
          | .fail =>
              if getField rd.facts "error_class" = StatusClass.tls.value then do
                let (root, c, b) ← tls_root me b a base [rd.stepId] (PEER_DISC now).tls
                pure (.cause root c b)
              else noAnswerPath t me b a base now rd

def failedNow (r : Option Record) : Bool := r.any fun r => r.outcome = .fail

/-- This host's own checks show that the consumer does not answer now,
whatever the recorded status says: a chain of its own. -/
def peer_now (b : Builder) (a : Agreement) : Except E Builder :=
  if failedNow (t.getFor "peer.dns" a.subj) || failedNow (t.getFor "peer.rootdse" a.subj) then do
    match ← peer_path t me b a [] true with
    | .cause root c b => pure (b.restOnce root.key c)
    | .answers => pure b
    | .nothing => pure b
  else .ok b

/-! ### The cascade -/

def Agreement.cls (a : Agreement) : Recorded := recordedClass a.item

def usesGssapi (a : Agreement) : Bool := bindMethod a.item == SASL_GSSAPI

/-- What the cascade makes of a failing agreement. -/
inductive Cause where
  /-- The deepest proven cause and the chain, as far as they are known. -/
  | found (root : Option ReplDiagnosis) (c : Option Chain) (b : Builder)
  /-- There is no failure to report. -/
  | settled (b : Builder)

/-- The link every chain of a failing agreement starts with. -/
def statusLink (a : Agreement) : Link :=
  ⟨a.relKey me, .replication, ["agreements"], "agreement-status", .pair⟩

def notReproduced (a : Agreement) (ev : List String) : ReplDiagnosis :=
  { code := .replicationNotReproduced, subject := a.relKey me, capability := .replication
    severity := .warn, confidence := .medium, evidence := ev, scope := .pair
    kind := some .transient }

def transportCause (b : Builder) (a : Agreement) : Except E Cause := do
  match ← peer_path t me b a [statusLink me a] false with
  | .cause root c b => pure (.found (some root) (some c) b)
  | .nothing => pure (.found none none b)
  | .answers =>
      let rd := (t.getFor "peer.rootdse" a.subj).toList.map Record.stepId
      pure (.settled (b.add (notReproduced me a ("agreements" :: rd))).2)

/-- LDAP 49 while kinit fails now: the local fault is a diagnosis of its
own, and does not explain the refused bind. -/
def kinitFailedCause (b : Builder) (a : Agreement) (gs : Option Record) (roots : Roots) :
    Except E Cause := do
  let b := match gs, keyFault gs, roots.keytab with
    | some gs, some kc, none => ds_key_root me b gs kc
    | _, _, _ => b
  let (c, b) ← b.chain (a.relKey me) [statusLink me a] true none
  pure (.found none (some c) b)

/-- LDAP 49 and a measured clock difference. -/
def skew49Cause (b : Builder) (a : Agreement) (gs : Option Record) : Except E Cause :=
  match gs, peer_offset t a.subj with
  | some gs, some (off, measured) => do
      let (root, b) ← pair_skew t me b a off true
      let _ ← off.fixed0
      let (c, b) ← b.chain (a.relKey me)
        [statusLink me a,
          ⟨a.relKey me, .kerberos, ["agreements", gs.stepId], "status-invalid-credentials-gssapi",
            .peer⟩,
          ⟨a.pair me, .time, [gs.stepId, measured.stepId], "kerberos-49-with-measured-skew",
            .pair⟩] true root.handoff
      pure (.found (some root) (some c) (b.rest root.key c))
  | _, _ => .error .attributeError

def peerRejectsCause (b : Builder) (a : Agreement) (gs : Option Record) : Except E Cause :=
  match gs with
  | some gs => do
      let (c, b) ← b.chain (a.relKey me)
        [statusLink me a,
          ⟨a.peerHere, .kerberos, ["agreements", gs.stepId], "status-invalid-credentials-gssapi",
            .peer⟩] true (some a.consumer)
      let (root, b) := b.add
        { code := .peerRejectsGssapi, subject := a.peerHere, capability := .kerberos
          severity := .fail, confidence := .medium, evidence := ["agreements", gs.stepId]
          scope := .peer, handoff := c.handoff }
      pure (.found (some root) (some c) b)
  | none => .error .attributeError

/-- The list of replication managers was read whole, without this server. -/
def notAManager : Bool :=
  match factOf t "principals" "managers" with
  | .list ms => isTrue (factOf t "principals" "complete") && !among me ms
  | _ => false

def accessLink (a : Agreement) : Link :=
  ⟨a.relKey me, .authorization, ["agreements"], "status-access", .peer⟩

def MANAGERS : String := "group:replication managers"

def insufficientAccessCause (b : Builder) (a : Agreement) : Except E Cause :=
  if notAManager t me then do
    let (c, b) ← b.chain (a.relKey me)
      [statusLink me a, accessLink me a,
        ⟨MANAGERS, .principal, ["principals"], "access-not-a-manager", .directory⟩] true none
    let (root, b) := b.add
      { code := .notAReplicationManager, subject := MANAGERS, capability := .principal
        severity := .fail, confidence := .medium, evidence := ["principals"], scope := .directory
        resolutionKey := some "replication.not-a-manager" }
    pure (.found (some root) (some c) b)
  else do
    let (c, b) ← b.chain (a.relKey me) [statusLink me a, accessLink me a] true (some a.consumer)
    pure (.found none (some c) b)

def adminDiagnosis (a : Agreement) (cls : StatusClass) : ReplDiagnosis :=
  { code := .replicaNeedsAdminAction, subject := a.relKey me, capability := .replicaData
    severity := .fail, confidence := .high, evidence := ["agreements"], scope := .pair
    resolutionKey := some "replication.needs-admin-action", variant := cls.value }

def needsAdminCause (b : Builder) (a : Agreement) (cls : StatusClass) : Except E Cause := do
  let (c, b) ← b.chain (a.relKey me)
    [statusLink me a, ⟨a.relKey me, .replicaData, ["agreements"], "status-data", .pair⟩] true none
  let (root, b) := b.add (adminDiagnosis me a cls)
  pure (.found (some root) (some c) b)

def tlsCause (b : Builder) (a : Agreement) : Except E Cause := do
  let (root, c, b) ← tls_root me b a [statusLink me a] ["agreements"] "status-tls"
  pure (.found (some root) (some c) b)

/-- A Kerberos failure that has a chain: one of the specific classes, or
an unspecific one. -/
def chainClass? (kc : KerberosClass) : Option StatusClass :=
  match kc with
  | .cls c => if c ∈ SPECIFIC ++ [.gssapiOther] then some c else none
  | _ => none

def credentialsClass (cls : StatusClass) : Bool :=
  cls ∈ GSSAPI || cls == .invalidCredentials

/-- The cases after the ones only a SASL/GSSAPI agreement has. -/
def statusCause (b : Builder) (a : Agreement) (cls : Recorded) : Except E Cause :=
  match cls with
  | .known .insufficientAccess => insufficientAccessCause t me b a
  | .known .tls => tlsCause me b a
  | .known cls =>
      if cls ∈ NEEDS_ADMIN then needsAdminCause me b a cls else pure (.found none none b)
  | .other _ => pure (.found none none b)

/-- The cases of a SASL/GSSAPI agreement, in their order; `isCredentials`:
the recorded class is a Kerberos one, or LDAP 49. -/
def gssapiCause (b : Builder) (a : Agreement) (cls : Recorded) (isCredentials : Bool)
    (kc : KerberosClass × KerberosSource) (gs : Option Record) (roots : Roots) : Except E Cause :=
  if cls = .known .invalidCredentials ∧ kc.2 = .kinit then kinitFailedCause me b a gs roots
  else
    match chainClass? kc.1, isCredentials with
    | some eff, true => do
        let (root, c, b) ← gssapi_chain t me realm b a eff [statusLink me a] gs roots
        pure (.found root (some c) b)
    | _, _ =>
        if kc.1 = .skew49 then skew49Cause t me b a gs
        else if cls = .known .invalidCredentials ∧ kc.1 = .peerRejects then
          peerRejectsCause me b a gs
        else if isCredentials ∧ kc.1 = .notReproduced then
          pure (.settled (b.add (notReproduced me a
            ("agreements" :: gs.toList.map Record.stepId))).2)
        else statusCause t me b a cls

def isCredentials : Recorded → Bool
  | .known cls => credentialsClass cls
  | .other _ => false

/-- What explains a failing agreement. -/
def failingCause (b : Builder) (a : Agreement) (roots : Roots) : Except E Cause :=
  let gs := t.getFor "gssapi" a.subj
  if a.cls = .known .transport then transportCause t me b a
  else if usesGssapi a then do
    -- whichever case applies, the Kerberos class is asked for
    let kc ← kerberos_class a.cls gs ((peer_offset t a.subj).map Prod.fst)
    gssapiCause t me realm b a a.cls (isCredentials a.cls) kc gs roots
  else statusCause t me b a a.cls

/-- A clock difference beyond the tolerance is established, whatever else fails. -/
def noteSkew (b : Builder) (a : Agreement) : Except E Builder :=
  match measuredSkew t a, b.get .pairClockSkew (a.pair me) with
  | some (off, _), none => do
      let (_, b) ← pair_skew t me b a off false
      pure b
  | _, _ => .ok b

/-- A symptom whose chain ends at once is undiagnosed. -/
def symptomKind (cls : Recorded) (root : Option ReplDiagnosis) (c : Chain) : Option Kind :=
  if root.isSome then none
  else if cls = .known .unclassified then some .undiagnosed
  else if c.handoff.isNone ∧ c.links.length ≤ 2 ∧ c.bounded then
    match c.links.getLast? with
    | some link =>
        if link.capability = .replication ∨ link.capability = .kerberos then some .undiagnosed
        else none
    | none => none
  else none

def failingDiagnosis (a : Agreement) (root : Option ReplDiagnosis) (c : Chain) : ReplDiagnosis :=
  let kind := symptomKind a.cls root c
  { code := .replicationFailing, subject := a.relKey me, capability := .replication
    severity := .fail
    confidence := if root.isSome then .high else if kind.isSome then .low else .medium
    evidence := ["agreements"], scope := .pair, kind := kind, chainIds := [c.chainId]
    relatedTo := root.map ReplDiagnosis.key, handoff := c.handoff }

/-- The failing agreement itself, related to what explains it. -/
def reportFailing (b : Builder) (a : Agreement) (root : Option ReplDiagnosis) (c : Chain) :
    Builder :=
  let (d, b) := b.add (failingDiagnosis me a root c)
  match root with
  | some root => (b.restOnce root.key c).explainOnce root.key d.key
  | none => b

/-- Without a cause, what the checks of now show is told as well. -/
def unexplainedNow (b : Builder) (a : Agreement) (root : Option ReplDiagnosis) : Except E Builder :=
  if root.isNone ∧ a.cls ≠ .known .transport then peer_now t me b a else .ok b

def failing (b : Builder) (a : Agreement) (roots : Roots) : Except E Builder := do
  a.cls.meaning
  match ← failingCause t me realm b a roots with
  | .settled b => pure b
  | .found root c b => do
      let b ← noteSkew t me b a
      let b ← unexplainedNow t me b a root
      match c with
      | some c => pure (reportFailing me b a root c)
      | none => do
          let (c, b) ← b.chain (a.relKey me) [statusLink me a] true none
          pure (reportFailing me b a root c)

/-! ### Agreements that do not fail -/

variable (ago : String → Option ℚ)

/-- How long ago a timestamp was. -/
def agoOf (v : Value) : Except E (Option ℚ) :=
  if v.truthy = false then .ok none
  else
    match v with
    | .str s => .ok (ago s)
    | _ => .error .typeError

def longSession (b : Builder) (a : Agreement) : Except E Builder := do
  let age ← agoOf ago (getField a.item "last_update_start")
  if (getField a.item "update_in_progress").truthy ∧ age.any (LONG_SESSION_SECONDS < ·) then
    pure (b.add
      { code := .longRunningSession, subject := a.relKey me, capability := .replication
        severity := .warn, confidence := .medium, evidence := ["agreements"], scope := .pair
        kind := some .transient }).2
  else pure b

def clockDrift (b : Builder) (a : Agreement) : Except E Builder :=
  match peer_offset t a.subj with
  | none => .ok b
  | some (off, measured) =>
      if off.beyond KRB_TOLERANCE then do
        let (_, b) ← pair_skew t me b a off false
        pure b
      else if off.beyond CLOCK_WARN then do
        let _ ← off.fixed0
        pure (b.add
          { code := .pairClockDrift, subject := a.pair me, capability := .time, severity := .warn
            confidence := .high, evidence := [measured.stepId], scope := .pair }).2
      else .ok b

/-- The last session succeeded. -/
def green (b : Builder) (a : Agreement) : Except E Builder := do
  let b ← longSession me ago b a
  clockDrift t me b a

def disabledDiagnosis (a : Agreement) : ReplDiagnosis :=
  { code := .agreementDisabled, subject := a.relKey me, capability := .replication
    severity := .warn, confidence := .high, evidence := ["agreements"] }

def transientDiagnosis (a : Agreement) : ReplDiagnosis :=
  { code := .replicationTransient, subject := a.relKey me, capability := .replication
    severity := .warn, confidence := .high, evidence := ["agreements"], scope := .pair
    kind := some .transient }

def isTransient : Recorded → Bool
  | .known c => c ∈ TRANSIENT
  | .other _ => false

def agreement (b : Builder) (a : Agreement) (roots : Roots) : Except E Builder :=
  if isFalse (getField a.item "enabled") then .ok (b.add (disabledDiagnosis me a)).2
  else if a.cls = .known .ok then do
    let b ← peer_now t me b a
    green t me ago b a
  else if isTransient a.cls then do
    let b ← peer_now t me b a
    pure (b.add (transientDiagnosis me a)).2
  else failing t me realm b a roots

/-- An agreement the budget left out is still reported when its status is failing. -/
def dropped (b : Builder) (a : Agreement) : Except E Builder :=
  if a.cls = .known .ok ∨ isTransient a.cls ∨ isFalse (getField a.item "enabled") then .ok b
  else do
    a.cls.meaning
    let (c, b) ← b.chain (a.relKey me) [statusLink me a] true none
    pure (b.add
      { code := .replicationFailing, subject := a.relKey me, capability := .replication
        severity := .fail, confidence := .low, evidence := ["agreements"], scope := .pair
        kind := some .undiagnosed, chainIds := [c.chainId] }).2

/-! ### The reverse direction -/

inductive ReverseState where
  | unknown
  | ok
  | transient
  | failing
deriving DecidableEq, Repr

def Agreement.reverseKey (a : Agreement) : String := rel a.suffix a.consumer me

/-- The class the reverse direction is judged by: the first that is not green. -/
def reverseClass (r : Record) : Except E Recorded := do
  let classes ← (orElse (getField r.facts "classes") (.list [])).iter
  pure (.ofValue ((classes.find? fun c => !c.pyEq StatusClass.ok.value).getD
    StatusClass.unclassified.value))

/-- The local Directory Server is not shown stopped. -/
def dsNotStopped : Bool :=
  (outcomeOf t "local.ds").any fun o => o = .pass ∨ o = .warn ∨ o = .unknown

def reverseTransient (a : Agreement) (evidence : List String) (confidence : Confidence)
    (handoff : Option Value) : ReplDiagnosis :=
  { code := .replicationTransient, subject := a.reverseKey me, capability := .replication
    severity := .warn, confidence := confidence, evidence := evidence, scope := .peer
    kind := some .transient, handoff := handoff }

def reverseLink (a : Agreement) (r : Record) : Link :=
  ⟨a.reverseKey me, .replication, [r.stepId], "agreement-status", .peer⟩

/-- The classes only the accepting side of a bind produces. -/
def acceptorClass (cls : Recorded) : Bool :=
  cls = .known .invalidCredentials || cls = .known .gssapiOther

def reverseDiagnosis (a : Agreement) (r : Record) (c : Chain) : ReplDiagnosis :=
  { code := .reverseReplicationFailing, subject := a.reverseKey me, capability := .replication
    severity := .fail, confidence := .high, evidence := [r.stepId], scope := .peer
    chainIds := [c.chainId] }

def acceptorLinks (a : Agreement) (r : Record) : List Link :=
  [reverseLink me a r,
    ⟨a.reverseKey me, .kerberos, [r.stepId], "reverse-acceptor-kerberos", .here⟩,
    ⟨serverSubject me, .keytab, [r.stepId, "local.keytab"], "acceptor-keytab-unusable", .here⟩]

/-- It is explained by this server's keytab; LDAP 49 says so, an
unspecific Kerberos class only suggests it. -/
def acceptorDiagnosis (a : Agreement) (r : Record) (c : Chain) (cls : Recorded)
    (kt : ReplDiagnosis) : ReplDiagnosis :=
  { reverseDiagnosis me a r c with
    relatedTo := some kt.key
    handoff := if cls = .known .gssapiOther then some a.consumer else none }

/-- This server accepts the bind, and its own keytab is unusable. -/
def reverseAcceptor (b : Builder) (a : Agreement) (r : Record) (cls : Recorded)
    (kt : ReplDiagnosis) : Except E Builder := do
  let (c, b) ← b.chain (a.reverseKey me) (acceptorLinks me a r) true none
  let (d, b) := b.add (acceptorDiagnosis me a r c cls kt)
  let b := if cls = .known .gssapiOther then
    b.modify d.key fun d => { d with confidence := .medium } else b
  pure ((b.rest kt.key c).explain kt.key d.key)

def reverseFailing (b : Builder) (a : Agreement) (r : Record) : Except E Builder := do
  let (c, b) ← b.chain (a.reverseKey me) [reverseLink me a r] true (some a.consumer)
  pure (b.add { reverseDiagnosis me a r c with handoff := c.handoff }).2

/-- The reverse direction failed by its record. -/
def reverseFailed (b : Builder) (a : Agreement) (roots : Roots) (r : Record) :
    Except E (ReverseState × Builder) := do
  let cls ← reverseClass r
  if isTransient cls then
    pure (.transient, (b.add (reverseTransient me a [r.stepId] .high none)).2)
  else if cls = .known .transport ∧ dsNotStopped t then
    -- the record may be from before this Directory Server ran: the next session decides
    pure (.transient,
      (b.add (reverseTransient me a [r.stepId, "local.ds"] .medium (some a.consumer))).2)
  else do
    cls.meaning
    match roots.keytab with
    | some kt =>
        if acceptorClass cls ∧ measuredSkew t a = none then do
          let b ← reverseAcceptor me b a r cls kt
          pure (.failing, b)
        else do
          let b ← reverseFailing me b a r
          pure (.failing, b)
    | none => do
        let b ← reverseFailing me b a r
        pure (.failing, b)

/-- The reverse direction: only what was read from the peer. -/
def reverse (b : Builder) (a : Agreement) (roots : Roots) : Except E (ReverseState × Builder) :=
  match t.getFor "reverse" a.subj with
  | none => .ok (.unknown, b)
  | some r =>
      match r.outcome with
      | .skipped | .unknown => .ok (.unknown, b)
      | .pass => .ok (.ok, b)
      | .warn | .fail => reverseFailed t me b a roots r

end OneAgreement

end IpaDiagnose.Replication
