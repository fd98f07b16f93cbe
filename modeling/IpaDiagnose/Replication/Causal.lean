import Mathlib.Data.List.Chain
import IpaDiagnose.Lib.PyValue
import IpaDiagnose.Lib.Ranked
import IpaDiagnose.Lib.Result

/-!
# Cause chains

A cause chain leads from a symptom to the deepest proven cause. Every
link comes from a registered discriminator for exactly the step it takes,
along an edge of the capability graph. The graph says where a cause may
be looked for; it has no cycle, so a chain names no capability twice.
-/

namespace IpaDiagnose.Replication

open Py (Value Exc)
open Result

/-! ## Capabilities -/

inductive Capability where
  | replication
  | kerberos
  | peerDs
  | network
  | localDs
  | localKdc
  | authorization
  | tls
  | dns
  | time
  | principal
  | keytab
  | storage
  | replicaData
  | topology
deriving DecidableEq, Repr

/-- The capabilities a capability may depend on. -/
def DEPENDS_ON : Capability → List Capability
  | .replication =>
      [.localDs, .dns, .network, .peerDs, .tls, .kerberos, .authorization, .replicaData]
  | .kerberos => [.localKdc, .time, .principal, .keytab, .dns, .network]
  | .peerDs => [.network]
  | .network => [.dns]
  | .localDs => [.storage]
  | .localKdc => [.localDs]
  | .authorization => [.principal]
  | .tls => [.time]
  | .topology => [.localDs]
  | .dns | .time | .principal | .keytab | .storage | .replicaData => []

/-- A discriminator may establish one link, from `source` (none: from the
symptom) to `target`. -/
structure Discriminator where
  discId : String
  source : Option Capability
  target : Capability

def DISCRIMINATORS : List Discriminator :=
  [⟨"agreement-status", none, .replication⟩,
    ⟨"local-ds-down", none, .localDs⟩,
    ⟨"local-kdc-down", none, .localKdc⟩,
    ⟨"local-storage", none, .storage⟩,
    ⟨"ds-keytab-local", none, .keytab⟩,
    ⟨"pair-clock-skew", none, .time⟩,
    ⟨"peer-name-unresolved-now", none, .dns⟩,
    ⟨"peer-ds-refused-now", none, .peerDs⟩,
    ⟨"peer-no-ldap-answer-now", none, .peerDs⟩,
    ⟨"peer-tls-fails-now", none, .tls⟩,
    ⟨"reverse-acceptor-kerberos", some .replication, .kerberos⟩,
    ⟨"acceptor-keytab-unusable", some .kerberos, .keytab⟩,
    ⟨"status-transport", some .replication, .peerDs⟩,
    ⟨"peer-ds-refused-host-up", some .replication, .peerDs⟩,
    ⟨"peer-name-unresolved", some .replication, .dns⟩,
    ⟨"peer-unreachable", some .peerDs, .network⟩,
    ⟨"status-gssapi", some .replication, .kerberos⟩,
    ⟨"kerberos-no-kdc-local-down", some .kerberos, .localKdc⟩,
    ⟨"kdc-needs-local-ds", some .localKdc, .localDs⟩,
    ⟨"kerberos-clock-skew", some .kerberos, .time⟩,
    ⟨"kerberos-server-principal-absent", some .kerberos, .principal⟩,
    ⟨"kerberos-local-credentials", some .kerberos, .keytab⟩,
    ⟨"status-invalid-credentials-gssapi", some .replication, .kerberos⟩,
    ⟨"status-access", some .replication, .authorization⟩,
    ⟨"access-not-a-manager", some .authorization, .principal⟩,
    ⟨"status-data", some .replication, .replicaData⟩,
    ⟨"status-tls", some .replication, .tls⟩,
    ⟨"kerberos-49-with-measured-skew", some .kerberos, .time⟩,
    ⟨"storage-under-ds", some .localDs, .storage⟩]

/-! ## Chains -/

/-- Where a cause lives. -/
inductive CauseScope where
  | here
  | peer
  | pair
  | directory
deriving DecidableEq, Repr

structure Link where
  subject : String
  capability : Capability
  evidence : List String
  discriminator : String
  scope : CauseScope
deriving DecidableEq

structure Chain where
  chainId : String
  subject : String
  links : List Link
  /-- It says why it goes no deeper. -/
  bounded : Bool
  /-- The host the remaining evidence is local to. -/
  handoff : Option Value
deriving DecidableEq

/-- A chain that is not made of registered links. -/
structure ChainError where
  message : String
deriving DecidableEq, Repr

abbrev E := Exc ChainError

def Capability.text : Capability → String
  | .replication => "REPLICATION"
  | .kerberos => "KERBEROS"
  | .peerDs => "PEER_DS"
  | .network => "NETWORK"
  | .localDs => "LOCAL_DS"
  | .localKdc => "LOCAL_KDC"
  | .authorization => "AUTHORIZATION"
  | .tls => "TLS"
  | .dns => "DNS"
  | .time => "TIME"
  | .principal => "PRINCIPAL"
  | .keytab => "KEYTAB"
  | .storage => "STORAGE"
  | .replicaData => "REPLICA_DATA"
  | .topology => "TOPOLOGY"

def sourceText (source : Option Capability) : String := (source.map Capability.text).getD "SYMPTOM"

def DISCRIMINATOR? (discId : String) : Option Discriminator :=
  DISCRIMINATORS.find? fun d => d.discId == discId

/-- `capability` may come after `prev` in a chain. -/
def edge (prev : Option Capability) (capability : Capability) : Bool :=
  match prev with
  | none => true
  | some p => (DEPENDS_ON p).contains capability

def badLink (chainId : String) (i : Nat) (why : String) : Except E Unit :=
  .error (.own ⟨"link " ++ toString i ++ " of " ++ chainId ++ ": " ++ why⟩)

def checkLink (chainId : String) (i : Nat) (prev : Option Capability) (link : Link) :
    Except E Unit :=
  match DISCRIMINATOR? link.discriminator with
  | none => badLink chainId i ("unknown discriminator " ++ link.discriminator)
  | some d =>
      if d.source ≠ prev ∨ d.target ≠ link.capability then
        badLink chainId i (d.discId ++ " is for " ++ sourceText d.source ++ "->" ++ d.target.text
          ++ ", not " ++ sourceText prev ++ "->" ++ link.capability.text)
      else if edge prev link.capability = false then
        badLink chainId i (sourceText prev ++ "->" ++ link.capability.text
          ++ " is not in the capability DAG")
      else if link.evidence = [] then badLink chainId i "no evidence"
      else .ok ()

/-- The links from number `i` on, after `prev`. -/
def checkLinks (chainId : String) : Nat → Option Capability → List Link → Except E Unit
  | _, _, [] => .ok ()
  | i, prev, link :: links => do
      checkLink chainId i prev link
      checkLinks chainId (i + 1) (some link.capability) links

def checkChain (chain : Chain) : Except E Unit := checkLinks chain.chainId 0 none chain.links

/-! ## What a legal chain is -/

/-- A link that follows `prev`: it has evidence, and its discriminator is
registered for exactly this step, which is an edge of the graph. -/
structure Link.Follows (link : Link) (prev : Option Capability) : Prop where
  registered : ∃ d ∈ DISCRIMINATORS, d.discId = link.discriminator ∧ d.source = prev
    ∧ d.target = link.capability
  edge : ∀ p, prev = some p → link.capability ∈ DEPENDS_ON p
  evidence : link.evidence ≠ []

/-- Links that follow each other, the first one `prev`. -/
def Legal : Option Capability → List Link → Prop
  | _, [] => True
  | prev, link :: links => link.Follows prev ∧ Legal (some link.capability) links

def Chain.Legal (c : Chain) : Prop := Replication.Legal none c.links

theorem edge_iff {prev : Option Capability} {capability : Capability} :
    edge prev capability = true ↔ ∀ p, prev = some p → capability ∈ DEPENDS_ON p := by
  cases prev with
  | none => simp [edge]
  | some p => simp [edge]

/-- Discriminators are registered once. -/
theorem DISCRIMINATOR?_of_mem :
    ∀ d ∈ DISCRIMINATORS, DISCRIMINATOR? d.discId = some d := by
  intro d hd
  simp only [DISCRIMINATORS, List.mem_cons, List.not_mem_nil, or_false] at hd
  rcases hd with rfl | rfl | rfl | rfl | rfl | rfl | rfl | rfl | rfl | rfl | rfl | rfl | rfl | rfl
    | rfl | rfl | rfl | rfl | rfl | rfl | rfl | rfl | rfl | rfl | rfl | rfl | rfl | rfl | rfl <;> rfl

theorem checkLink_ok {chainId : String} {i : Nat} {prev : Option Capability} {link : Link} :
    checkLink chainId i prev link = .ok () ↔ link.Follows prev := by
  unfold checkLink
  cases hd : DISCRIMINATOR? link.discriminator with
  | none =>
      refine ⟨nofun, fun h => ?_⟩
      obtain ⟨d, hmem, hid, -⟩ := h.registered
      rw [← hid, DISCRIMINATOR?_of_mem d hmem] at hd
      cases hd
  | some d =>
      have hmem := List.mem_of_find?_eq_some hd
      have hid : d.discId = link.discriminator := by simpa using List.find?_some hd
      dsimp only
      split
      · rename_i hne
        refine ⟨nofun, fun h => ?_⟩
        obtain ⟨d', hmem', hid', hsrc, htgt⟩ := h.registered
        have hd' := DISCRIMINATOR?_of_mem d' hmem'
        rw [hid', hd] at hd'
        injection hd' with hd'
        subst hd'
        rcases hne with hne | hne
        · exact absurd hsrc hne
        · exact absurd htgt hne
      · rename_i hsame
        obtain ⟨hsrc, htgt⟩ := not_or.mp hsame
        split
        · rename_i hedge
          refine ⟨nofun, fun h => ?_⟩
          rw [edge_iff.mpr h.edge] at hedge
          cases hedge
        · rename_i hedge
          split
          · rename_i hev
            exact ⟨nofun, fun h => absurd hev h.evidence⟩
          · rename_i hev
            exact ⟨fun _ => ⟨⟨d, hmem, hid, not_not.mp hsrc, not_not.mp htgt⟩,
              edge_iff.mp (by simpa using hedge), hev⟩, fun _ => rfl⟩

theorem checkLinks_ok {chainId : String} {links : List Link} :
    ∀ {i : Nat} {prev : Option Capability},
      checkLinks chainId i prev links = .ok () ↔ Legal prev links := by
  induction links with
  | nil => exact ⟨fun _ => trivial, fun _ => rfl⟩
  | cons link links ih =>
      intro i prev
      have hcheck := @checkLink_ok chainId i prev link
      rw [checkLinks, bind_ok, Legal, ← hcheck]
      constructor
      · rintro ⟨u, hlink, hlinks⟩
        exact ⟨hlink, ih.mp hlinks⟩
      · rintro ⟨hlink, hlinks⟩
        exact ⟨(), hlink, ih.mpr hlinks⟩

/-- The check accepts the legal chains, and no others. -/
theorem checkChain_ok {c : Chain} : checkChain c = .ok () ↔ c.Legal := checkLinks_ok

/-! ## No capability twice -/

/-- How far down the graph a capability is. -/
def depth : Capability → Nat
  | .replication => 4
  | .kerberos => 3
  | .localKdc | .peerDs | .tls | .authorization | .topology => 2
  | .localDs | .network => 1
  | .dns | .time | .principal | .keytab | .storage | .replicaData => 0

theorem depth_lt {a b : Capability} (h : b ∈ DEPENDS_ON a) : depth b < depth a := by
  revert h
  cases a <;> cases b <;> decide

/-- Down a chain, the capabilities lie deeper and deeper. -/
theorem Legal.descends {prev : Option Capability} {links : List Link} (h : Legal prev links) :
    (links.map Link.capability).Pairwise (fun a b => depth b < depth a)
      ∧ ∀ p, prev = some p → ∀ link ∈ links, depth link.capability < depth p := by
  induction links generalizing prev with
  | nil => exact ⟨.nil, fun _ _ _ hlink => nomatch hlink⟩
  | cons link links ih =>
      obtain ⟨hlink, hlinks⟩ := h
      obtain ⟨hpair, hbelow⟩ := ih hlinks
      have hrest := hbelow link.capability rfl
      constructor
      · rw [List.map_cons, List.pairwise_cons]
        refine ⟨fun b hb => ?_, hpair⟩
        obtain ⟨l, hl, rfl⟩ := List.mem_map.mp hb
        exact hrest l hl
      · intro p hp l hl
        have hfirst := depth_lt (hlink.edge p hp)
        rcases List.mem_cons.mp hl with rfl | hl
        · exact hfirst
        · have := hrest l hl
          omega

theorem Legal.nodup {prev : Option Capability} {links : List Link} (h : Legal prev links) :
    (links.map Link.capability).Nodup :=
  h.descends.1.imp fun hlt heq => by rw [heq] at hlt; omega

end IpaDiagnose.Replication
