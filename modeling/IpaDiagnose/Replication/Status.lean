import IpaDiagnose.Lib.PyValue
import IpaDiagnose.TextSafe
import IpaDiagnose.Resolution.Types

/-!
# Agreement statuses

The outcome of an agreement's last session, as the Directory Server
records it in text or in JSON, falls into one of a closed list of
classes: by the numeric codes, and by the phrases the server, the
Kerberos library or the SASL plugin write. Reading JSON is a function the
classification is given; a text that is no JSON reads as nothing.
-/

namespace IpaDiagnose.Replication

open Py (Value Dict Exc)
open Regex (Re)

/-! ## Classes -/

inductive StatusClass where
  | ok
  | noSessions
  | transport
  | tls
  | gssapiServerNotFound
  | gssapiClockSkew
  | gssapiNoKdc
  | gssapiCredentials
  | gssapiOther
  | invalidCredentials
  | insufficientAccess
  | busy
  | backoff
  | changelogPurged
  | generationMismatch
  | replicaIdConflict
  | adminAction
  | unclassified
deriving DecidableEq, Repr

def CLASSES : List (StatusClass × String) :=
  [(.ok, "OK"), (.noSessions, "NO_SESSIONS"), (.transport, "TRANSPORT"), (.tls, "TLS"),
    (.gssapiServerNotFound, "GSSAPI_SERVER_NOT_FOUND"), (.gssapiClockSkew, "GSSAPI_CLOCK_SKEW"),
    (.gssapiNoKdc, "GSSAPI_NO_KDC"), (.gssapiCredentials, "GSSAPI_CREDENTIALS"),
    (.gssapiOther, "GSSAPI_OTHER"), (.invalidCredentials, "INVALID_CREDENTIALS"),
    (.insufficientAccess, "INSUFFICIENT_ACCESS"), (.busy, "BUSY"), (.backoff, "BACKOFF"),
    (.changelogPurged, "CHANGELOG_PURGED"), (.generationMismatch, "GENERATION_MISMATCH"),
    (.replicaIdConflict, "REPLICA_ID_CONFLICT"), (.adminAction, "ADMIN_ACTION"),
    (.unclassified, "UNCLASSIFIED")]

def StatusClass.text (c : StatusClass) : String := (CLASSES.lookup c).getD ""

def StatusClass.value (c : StatusClass) : Value := .str c.text

/-- The class a text names. -/
def StatusClass.ofText? (s : String) : Option StatusClass :=
  (CLASSES.find? fun p => p.2 == s).map Prod.fst

@[simp] theorem StatusClass.ofText?_text (c : StatusClass) : ofText? c.text = some c := by
  cases c <;> decide

theorem StatusClass.text_injective : Function.Injective StatusClass.text := by
  intro a b h
  have hab := congrArg ofText? h
  simpa using hab

theorem StatusClass.ofText?_some {s : String} {c : StatusClass} (h : ofText? s = some c) :
    s = c.text := by
  obtain ⟨p, hp, rfl⟩ := Option.map_eq_some_iff.mp h
  have htext : p.2 = s := by simpa using List.find?_some hp
  have hmem := List.mem_of_find?_eq_some hp
  rw [← htext]
  revert hmem
  exact (by decide : ∀ p ∈ CLASSES, p.2 = p.1.text) p

/-- The supplier retries by itself. -/
def TRANSIENT : List StatusClass := [.busy, .backoff, .noSessions]

/-- The replica's data needs an administrator. -/
def NEEDS_ADMIN : List StatusClass :=
  [.changelogPurged, .generationMismatch, .replicaIdConflict, .adminAction]

def GSSAPI : List StatusClass :=
  [.gssapiServerNotFound, .gssapiClockSkew, .gssapiNoKdc, .gssapiCredentials, .gssapiOther]

/-! ## Phrases -/

def blank : Re := .cls Unicode.isSpace

def nonBlank : Re := .cls fun c => !Unicode.isSpace c

/-- An optional word, and the space after it. -/
def aWord : Re := .opt (.seq (.rept 1 300 nonBlank) (.char ' '))

/-- One of several literal texts, whatever their case. -/
def anyOf (ss : List String) : Re := .altAll (ss.map Re.litI)

def optI (s : String) : Re := .opt (.litI s)

/-- `(?:re-?)?initiali[sz]` -/
def initialiRe : Re :=
  .seqAll [.opt (.seq (.litI "re") (optI "-")), .litI "initiali",
    .altAll [.charI 's', .charI 'z']]

/-- The phrase table: the first match wins. -/
def PHRASES : List (StatusClass × Re) :=
  [(.gssapiServerNotFound,
      .seqAll [.litI "server ", aWord, .litI "not found in kerberos database"]),
    (.gssapiClockSkew, .litI "clock skew too great"),
    (.gssapiNoKdc, anyOf ["cannot contact any kdc", "cannot find kdc for realm",
      "unable to reach any kdc"]),
    (.gssapiCredentials, .altAll
      [.litI "keytab contains no suitable keys", .litI "no key table entry found",
        .litI "key table entry not found", .litI "preauthentication failed",
        .litI "password incorrect",
        .seqAll [.litI "client ", aWord, .litI "not found in kerberos database"],
        .litI "no kerberos credentials available", .litI "no credentials cache found",
        .seqAll [.litI "credentials cache file ", .rept 0 200 (.cls (· != '\n')),
          .litI " not found"],
        .litI "ticket expired",
        .seqAll [.litI "client", optI "'", optI "s", .litI " credentials have been revoked"],
        .litI "key version number for principal in key table is incorrect",
        .litI "decrypt integrity check failed"]),
    (.gssapiOther, .altAll
      [.seqAll [.litI "gssapi ", anyOf ["error", "failure"]], .litI "unspecified gss failure",
        .litI "sasl(-1): generic failure"]),
    (.changelogPurged, .altAll
      [.litI "purged from the changelog", .seqAll [.litI "changelog ", optI "has been ",
        .litI "purged"],
        .seqAll [.litI "below ", optI "the ", .litI "purge", optI " ", .litI "point"],
        .litI "csn below purge point"]),
    (.generationMismatch, .altAll
      [.seqAll [.litI "different ", optI "database ", .litI "generation id"],
        .litI "generation id mismatch", .litI "different data version"]),
    (.replicaIdConflict, .litI "duplicate replica id"),
    (.adminAction, .altAll
      [.seqAll [.altAll [.litI "must", .seqAll [.litI "need", optI "s", .litI " to"],
          .litI "should"], .litI " be ", initialiRe, .litI "ed"],
        .seqAll [.litI "require", optI "s", .litI " ", optI "a ", initialiRe, .litI "ation"]]),
    (.busy, anyOf ["replica busy", "currently being updated by another supplier",
      "can't acquire busy replica"]),
    (.backoff, .altAll
      [.seqAll [.wordB, .litI "backing off", .wordB], .seqAll [.wordB, .litI "backoff", .wordB],
        .litI "transient error"]),
    (.insufficientAccess, anyOf ["insufficient access", "permission denied",
      "does not have permission"]),
    (.invalidCredentials, .litI "invalid credentials"),
    (.tls, .altAll
      [.seqAll [.litI "tls ", anyOf ["negotiation", "handshake", "error"]],
        .seqAll [.litI "ssl ", anyOf ["handshake", "error"]], .litI "certificate verify failed",
        .litI "peer's certificate", .litI "tls: hostname does not match",
        .litI "unable to get local issuer"]),
    (.transport, .altAll
      [.seqAll [.litI "can", optI "'", .litI "t contact ldap server"],
        .litI "server is unavailable", .litI "connect error", .litI "connection refused",
        .litI "timed out", .litI "timeout", .litI "server down", .litI "no route to host",
        .litI "network is unreachable"])]

/-! ## Classification -/

/-- LDAP result codes. -/
def LDAP_RC : List (Int × StatusClass) :=
  [(-1, .transport), (81, .transport), (91, .transport), (-11, .transport), (-5, .transport),
    (85, .transport), (51, .busy), (49, .invalidCredentials), (50, .insufficientAccess)]

def NO_SESSIONS_RE : Re := .litI "no replication sessions started"

def SUCCESS_RE : Re :=
  anyOf ["replica acquired successfully", "incremental update succeeded",
    "incremental update has succeeded", "total update succeeded",
    "replication session successful"]

/-- A sign and up to six digits. -/
def codeRe : Re := .seq (.opt (.char '-')) (.rept 1 6 (.cls Unicode.isDecimal))

def TEXT_RE : Re :=
  .seqAll [.bos, .star blank, .lit "Error", .star blank, .char '(', .group 1 codeRe, .char ')',
    .star blank, .group 2 (.star (.cls fun _ => true)), .eos]

structure AgreementStatus where
  cls : StatusClass
  ldapRc : Option Int
  replRc : Option Int
  state : String
  message : String
  source : String
deriving DecidableEq

def classifyText (text : String) : StatusClass :=
  match PHRASES.find? fun p => p.2.search (PyStr.take text 4096) with
  | some p => p.1
  | none => .unclassified

/-- The number a sign and digits stand for. -/
def parseCode (s : String) : Option Int :=
  match s.toList with
  | '-' :: ds => (T.parseNat (String.ofList ds)).map fun n => -(n : Int)
  | _ => (T.parseNat s).map Int.ofNat

def toInt : Value → Option Int
  | .int n => some n
  | .str s => if codeRe.fullmatch (PyStr.strip s) then parseCode (PyStr.strip s) else none
  | _ => none

/-- What was read of a status, before it is classified. -/
structure StatusRead where
  ldapRc : Option Int := none
  replRc : Option Int := none
  state : String := ""
  message : String := ""
  source : String := "none"

/-- `doc.get(k, "")`, as text. -/
def fieldText (doc : Dict) (k : String) : String := ((doc.lookup k).getD (.str "")).toStr

def readJson (doc : Dict) : StatusRead :=
  { ldapRc := toInt ((doc.lookup "ldap_rc").getD .null)
    replRc := toInt ((doc.lookup "repl_rc").getD .null)
    state := PyStr.lower (PyStr.take (fieldText doc "state") 10)
    message := PyStr.join " " (["message", "ldap_rc_text", "repl_rc_text"].map (fieldText doc))
    source := "json" }

def readText (text : String) : StatusRead :=
  let text := PyStr.take text 4096
  let read : StatusRead := { message := text, source := "text" }
  match TEXT_RE.match? text with
  | none => read
  | some m =>
      let code := (m.group? 1).bind parseCode
      let body := PyStr.lower ((m.group? 2).getD "")
      if PyStr.contains body "problem connecting to replica" then { read with ldapRc := code }
      else if PyStr.contains body "replication error acquiring replica" then
        { read with replRc := code }
      else if code = some 0 then { read with ldapRc := some 0, replRc := some 0 }
      -- an unknown shape: the number is kept, the phrases decide
      else { read with ldapRc := code }

def noFailureCode (code : Option Int) : Bool := code == some 0 || code == none

/-- The class of what was read. -/
def StatusRead.classify (r : StatusRead) : StatusClass :=
  if NO_SESSIONS_RE.search r.message then .noSessions
  else
    let phrase := classifyText r.message
    if noFailureCode r.ldapRc && noFailureCode r.replRc
        && (phrase == .unclassified || phrase == .ok)
        && (SUCCESS_RE.search r.message
          || (r.state == "green" && r.ldapRc == some 0 && r.replRc == some 0)) then .ok
    else if phrase ≠ .unclassified then phrase
    else
      match r.ldapRc with
      | none => .unclassified
      | some code =>
          match LDAP_RC.lookup code with
          | some cls => cls
          | none => if code = -2 then .gssapiOther else .unclassified

def StatusRead.status (r : StatusRead) : AgreementStatus :=
  if r.source = "none" then ⟨.unclassified, none, none, "", "", "none"⟩
  else ⟨r.classify, r.ldapRc, r.replRc, r.state, sanitizeText r.message 600, r.source⟩

section Parse

variable {ε : Type} (loads : String → Option Value)

/-- A status text: nothing, or a string. -/
def textOf (v : Value) : Except (Exc ε) (Option String) :=
  if v.truthy = false then .ok none
  else
    match v with
    | .str s => .ok (some s)
    | _ => .error .typeError

def readStatus (text json : Value) : Except (Exc ε) StatusRead := do
  let json ← textOf json
  match json.bind fun s => loads (PyStr.take s 8192) with
  | some (.dict doc) => pure (readJson doc)
  | _ =>
      let text ← textOf text
      pure ((text.map readText).getD {})

/-- The status of an agreement, from its text and its JSON. -/
def parseStatus (text json : Value) : Except (Exc ε) AgreementStatus :=
  (readStatus loads text json).map StatusRead.status

end Parse

end IpaDiagnose.Replication
