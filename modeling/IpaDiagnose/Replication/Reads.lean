import IpaDiagnose.Lib.Timestamp
import IpaDiagnose.Replication.Ldif
import IpaDiagnose.Replication.Plan
import IpaDiagnose.Replication.Topology

/-!
# The reads of the local directory

The checks `repl.agreements` and `repl.principals` read the local
Directory Server with `ldapsearch` over its socket. What a program prints
is bounded, and so is what is read of it; a read that was cut there is
remembered by its base, and a check that lists what it read says whether
the list is complete. How standard error is redacted is a function the
checks are given.
-/

namespace IpaDiagnose.Replication

open Py (Value Dict Exc)
open Regex (Re)
open IpaDiagnose.Topology (sortedSet)

/-! ## Programs -/

def EXEC_MAX : Nat := 256 * 1024

/-- What a program printed, all of it; no exit code if it could not be run. -/
structure Printed where
  rc : Option Int
  out : String := ""
  err : String := ""

/-- What is kept of it. -/
def Printed.exec (p : Printed) : Printed :=
  { p with out := PyStr.take p.out EXEC_MAX, err := PyStr.take p.err EXEC_MAX }

structure Query where
  base : String
  scope : String
  filter : String
  attrs : List String
deriving DecidableEq

/-- The local directory: the base of its tree or why it cannot be asked,
what each search prints, and what `ldapwhoami` prints. -/
structure LocalDs where
  ldapi : Except String String
  search : Query → Printed
  whoami : Printed

def SECRET_ATTRS : List String :=
  ["nsds5replicacredentials", "userpassword", "nsds5replicabootstrapcredentials"]

def dropSecrets (e : Ldif.Entry) : Ldif.Entry :=
  { e with attrs := e.attrs.filter fun a => !SECRET_ATTRS.contains a.1 }

structure Found where
  rc : Option Int
  entries : List Ldif.Entry
  err : String
  /-- The base, if the read was cut. -/
  truncated : List String

section Searching

variable (redact : String → String) (ds : LocalDs)

def ldapi_search (q : Query) : Found :=
  let p := (ds.search q).exec
  let entries := if p.rc = some 0 then Ldif.parse p.out else []
  { rc := p.rc
    entries := entries.map dropSecrets
    err := sanitizeText (redact p.err) 200
    truncated :=
      if p.rc = some 0 ∧ (EXEC_MAX ≤ PyStr.len p.out ∨ Ldif.MAX_ENTRIES ≤ entries.length) then
        [q.base]
      else [] }

def whoami_dm : Option Bool :=
  let p := ds.whoami.exec
  if p.rc = none then none
  else some (p.rc = some 0 && PyStr.contains (PyStr.lower p.out) "cn=directory manager")

def exitText : Option Int → String
  | none => "None"
  | some n => toString n

def boolValue : Option Bool → Value
  | none => .null
  | some b => .bool b

def textValue : Option String → Value
  | none => .null
  | some s => .str s

def readResult (check : String) (params : Dict) (status : String) (fields : Dict)
    (display : String) (command : String := "") : CheckResult where
  checkId := check
  params := params
  status := status
  fields := fields
  display := sanitizeText display 240
  command := sanitizeText command 240

/-- The directory cannot be asked. -/
def notAsked (check : String) (params : Dict) (err : String) : CheckResult :=
  readResult check params (if PyStr.contains err "root" then DENIED else NOT_RUN) [] err

/-- The first search failed. -/
def notRead (check : String) (params : Dict) (what : String) (r : Found) : CheckResult :=
  readResult check params (if r.rc = none then NOT_RUN else FAILED) []
    ("reading " ++ what ++ " failed (exit " ++ exitText r.rc ++ "): " ++ r.err)
    "ldapsearch -LLL -o ldif-wrap=no -Q -Y EXTERNAL -H ..."

/-! ## Principals and replication managers -/

def hostChars : Re := alnumOr ".-"

/-- `ldap/([A-Za-z0-9.-]{1,253})@[A-Z0-9.-]{1,253}` -/
def LDAP_PRINCIPAL : Re :=
  .seqAll [.lit "ldap/", .group 1 (.rept 1 253 hostChars), .char '@',
    .rept 1 253 (T.oneOfClass T.upperDigit ".-")]

/-- `(?i)krbprincipalname=ldap/([A-Za-z0-9.-]{1,253})@` -/
def MANAGER : Re :=
  .seqAll [.litI "krbprincipalname=ldap/",
    .group 1 (.rept 1 253 (.cls fun c => asciiWordI c || c == '.' || c == '-')), .char '@']

/-- A host name a pattern found. -/
def hostOf (m : Regex.Match) : Option String :=
  (m.group? 1).bind fun h => if (T.fqdn (.str h)).isSome then some (PyStr.lower h) else none

/-- The servers whose LDAP service has a principal. -/
def principalHosts (entries : List Ldif.Entry) : List String :=
  entries.flatMap fun e =>
    (Ldif.values e "krbprincipalname").filterMap fun p =>
      (LDAP_PRINCIPAL.fullmatch? (PyStr.strip p)).bind hostOf

/-- The servers that may send updates. -/
def managerHosts (entries : List Ldif.Entry) : List String :=
  entries.flatMap fun g =>
    (Ldif.values g "member").filterMap fun m => (MANAGER.match? (PyStr.strip m)).bind hostOf

def principalsQuery (basedn : String) : Query :=
  ⟨"cn=services,cn=accounts," ++ basedn, "one", "(krbprincipalname=ldap/*)", ["krbprincipalname"]⟩

def managersQuery (basedn : String) : Query :=
  ⟨"cn=replication managers,cn=sysaccounts,cn=etc," ++ basedn, "base", "(objectClass=*)",
    ["member"]⟩

def principalsComplete (ps ms : Found) : Bool :=
  whoami_dm ds == some true && ms.rc == some 0 && (ps.truncated ++ ms.truncated).isEmpty

def repl_principals (params : Dict) : CheckResult :=
  match ds.ldapi with
  | .error err => notAsked "repl.principals" params err
  | .ok basedn =>
      let ps := ldapi_search redact ds (principalsQuery basedn)
      if ps.rc ≠ some 0 then
        notRead "repl.principals" params "the LDAP service principals" ps
      else
        let hosts := sortedSet (principalHosts ps.entries)
        let ms := ldapi_search redact ds (managersQuery basedn)
        let managers := sortedSet (if ms.rc = some 0 then managerHosts ms.entries else [])
        readResult "repl.principals" params OK
          [("ldap_principals", .list (hosts.map .str)),
            ("replication_managers", .list (managers.map .str)),
            ("managers_read", .bool (ms.rc == some 0)),
            ("complete", .bool (principalsComplete ds ps ms))]
          (toString hosts.length ++ " ldap/ service principal(s); " ++ toString managers.length
            ++ " in cn=replication managers (this server's copy of the directory)")
          ("ldapsearch -Y EXTERNAL (LDAPI, read-only) cn=services and cn=replication managers")

/-! ## Agreements -/

def decimalRe : Re := .cls Unicode.isDecimal

/-- `(\d{4})(\d{2})(\d{2})(\d{2})(\d{2})(\d{2})(?:\.\d+)?Z` -/
def GENTIME : Re :=
  .seqAll [.group 1 (.rept 4 4 decimalRe), .group 2 (.rept 2 2 decimalRe),
    .group 3 (.rept 2 2 decimalRe), .group 4 (.rept 2 2 decimalRe), .group 5 (.rept 2 2 decimalRe),
    .group 6 (.rept 2 2 decimalRe), .opt (.seq (.char '.') (.plus decimalRe)), .char 'Z']

/-- An LDAP time in ISO form; nothing for an empty one, one of 1970 or one
no calendar has. -/
def gentime (v : String) : Option String :=
  (GENTIME.fullmatch? (PyStr.strip v)).bind fun m =>
    if m.group? 1 = some "1970" then none
    else
      let number := fun i => ((m.group? i).bind T.parseNat).getD 0
      let f : Timestamp.Fields :=
        ⟨number 1, number 2, number 3, number 4, number 5, number 6⟩
      if h : f.Valid then some (Timestamp.Stamp.text ⟨f, h⟩) else none

def AGREEMENT_ATTRS : List String :=
  ["cn", "objectClass", "nsDS5ReplicaHost", "nsDS5ReplicaPort", "nsDS5ReplicaTransportInfo",
    "nsDS5ReplicaBindMethod", "nsDS5ReplicaRoot", "nsds5ReplicaEnabled",
    "nsds5replicaLastUpdateStatus", "nsds5replicaLastUpdateStatusJSON",
    "nsds5replicaLastUpdateStart", "nsds5replicaLastUpdateEnd", "nsds5replicaUpdateInProgress",
    "nsds5replicaLastInitStatus", "nsds5replicaLastInitEnd"]

def BIND_METHODS : List String := ["SIMPLE", "SASL/GSSAPI", "SASL/DIGEST-MD5", "SSLCLIENTAUTH"]

/-- The suffix a replica root is of. -/
def suffixKind (basedn root : String) : String :=
  if root = PyStr.lower basedn then "domain" else if root = "o=ipaca" then "ca" else "other"

/-- `value if value in known else 'other'` -/
def knownOr (known : List String) (value : String) : String :=
  if known.contains value then value else "other"

/-- `text or default` -/
def textOr (text default : String) : String := if text = "" then default else text

/-- An agreement as its entry has it; a port that cannot be read raises. -/
def agreement_projection {ε : Type} (e : Ldif.Entry) (basedn : String) : Except (Exc ε) Dict := do
  let get := fun attr => Ldif.first e attr ""
  let root := PyStr.lower (PyStr.strip (get "nsDS5ReplicaRoot"))
  let kind := suffixKind basedn root
  let consumer := T.fqdn (.str (get "nsDS5ReplicaHost"))
  let transport := textOr
    (PyStr.upper (PyStr.strip (Ldif.first e "nsDS5ReplicaTransportInfo" "LDAP"))) "LDAP"
  let bind := textOr
    (PyStr.upper (PyStr.strip (Ldif.first e "nsDS5ReplicaBindMethod" "SIMPLE"))) "SIMPLE"
  let port ← T.ldapPort (.str (PyStr.strip (Ldif.first e "nsDS5ReplicaPort" "389")))
  let json := PyStr.take (get "nsds5replicaLastUpdateStatusJSON") 4096
  pure
    [("subject", textValue
        (if kind = "other" then none else consumer.map fun c => kind ++ ":" ++ c)),
      ("suffix_kind", .str kind),
      ("suffix_root", .str (sanitizeText root 200)),
      ("consumer", textValue consumer),
      ("consumer_raw", textValue
        (if consumer.isSome then none else some (sanitizeText (get "nsDS5ReplicaHost") 120))),
      ("port", textValue port),
      ("transport", .str (knownOr T.REPL_TRANSPORTS transport)),
      ("bind_method", .str (knownOr BIND_METHODS bind)),
      ("enabled", .bool
        (PyStr.lower (PyStr.strip (Ldif.first e "nsds5ReplicaEnabled" "on")) != "off")),
      ("status_text", .str (sanitizeText (get "nsds5replicaLastUpdateStatus") 800)),
      ("status_json", textValue (if json = "" then none else some json)),
      ("last_update_start", textValue (gentime (get "nsds5replicaLastUpdateStart"))),
      ("last_update_end", textValue (gentime (get "nsds5replicaLastUpdateEnd"))),
      ("update_in_progress", .bool
        (PyStr.upper (PyStr.strip (get "nsds5replicaUpdateInProgress")) == "TRUE")),
      ("last_init_status", .str (sanitizeText (get "nsds5replicaLastInitStatus") 400)),
      ("last_init_end", textValue (gentime (get "nsds5replicaLastInitEnd"))),
      ("name", .str (sanitizeText (get "cn") 120))]

/-- What an entry is: an agreement, or something listed apart. -/
def sortEntry {ε : Type} (basedn : String) (e : Ldif.Entry) : Except (Exc ε) (Dict ⊕ Dict) := do
  let ocs := (Ldif.values e "objectClass").map PyStr.lower
  if ocs.contains "nsdswindowsreplicationagreement" then
    pure (.inr
      [("kind", .str "winsync"), ("name", .str (sanitizeText (Ldif.first e "cn" "") 120))])
  else
    let a ← agreement_projection e basedn
    if (getField a "subject").truthy then pure (.inl a)
    else
      pure (.inr
        [("kind", getField a "suffix_kind"), ("name", getField a "name"),
          ("suffix_root", getField a "suffix_root"),
          ("consumer", orElse (getField a "consumer") (getField a "consumer_raw"))])

/-- A replica of this server; a digit text that is no number raises. -/
def replicaOf {ε : Type} (basedn : String) (e : Ldif.Entry) : Except (Exc ε) Dict := do
  let root := PyStr.lower (PyStr.strip (Ldif.first e "nsDS5ReplicaRoot" ""))
  let rid := PyStr.strip (Ldif.first e "nsDS5ReplicaId" "")
  let number ← if T.isDigits rid then
      match T.parseNat rid with
      | none => throw .valueError
      | some n => pure (Value.int n)
    else pure .null
  pure
    [("suffix_kind", .str (suffixKind basedn root)), ("replica_id", number),
      ("bind_dn_group", .bool (Ldif.first e "nsds5ReplicaBindDNGroup" "" != ""))]

/-- The replica's id, host and port, and up to two words after them. -/
def NSDS50RUV : Re :=
  .seqAll [.lit "\x7breplica", .plus space, .group 1 (.rept 1 5 decimalRe), .plus space,
    .lit "ldap://", .group 2 (.rept 1 253 hostChars), .char ':', .group 3 (.rept 1 5 decimalRe),
    .char '\x7d', .opt (.seq (.plus space) (.group 4 (.rept 1 40 nonSpace))),
    .opt (.seq (.plus space) (.group 5 (.rept 1 40 nonSpace)))]

/-- An element of an update vector. -/
structure RuvElement where
  rid : Nat
  host : String
  port : String
  max_csn : Option String

def RuvElement.dict (x : RuvElement) : Dict :=
  [("rid", .int x.rid), ("host", .str x.host), ("port", .str x.port),
    ("max_csn", textValue x.max_csn)]

def ruvElement (m : Regex.Match) : RuvElement :=
  let host := (m.group? 2).getD ""
  let csn := sanitizeText ((m.group? 5).getD "") 40
  { rid := ((m.group? 1).bind T.parseNat).getD 0
    host := (T.fqdn (.str host)).getD (sanitizeText host 120)
    port := (m.group? 3).getD ""
    max_csn := if csn = "" then none else some csn }

/-- The elements among some values, or nothing if one cannot be read. -/
def ruvElements : List String → Option (List RuvElement)
  | [] => some []
  | v :: vs =>
      if !PyStr.startsWith (PyStr.lower v) "\x7breplica " then ruvElements vs
      else
        (NSDS50RUV.match? (PyStr.strip v)).bind fun m =>
          (ruvElements vs).map (ruvElement m :: ·)

def ruvQuery (base : String) : Query :=
  ⟨base, "sub", "(&(nsuniqueid=ffffffff-ffffffff-ffffffff-ffffffff)(objectClass=nsTombstone))",
    ["nsds50ruv"]⟩

/-- The update vector of a suffix, by replica id, or why it is not known. -/
def ruv_of (base : String) : Option (List RuvElement) × String :=
  let r := ldapi_search redact ds (ruvQuery base)
  if r.rc = some 32 then (some [], "")
  else if r.rc ≠ some 0 then (none, textOr r.err ("exit " ++ exitText r.rc))
  else
    match ruvElements (r.entries.flatMap fun e => Ldif.values e "nsds50ruv") with
    | none => (none, "an RUV element could not be parsed")
    | some els => (some (els.insertionSort fun x y => x.rid ≤ y.rid), "")

def MAPPING_TREE : String := "cn=mapping tree,cn=config"

def agreementsQuery : Query :=
  ⟨MAPPING_TREE, "sub",
    "(|(objectClass=nsds5replicationagreement)(objectClass=nsDSWindowsReplicationAgreement))",
    AGREEMENT_ATTRS⟩

def replicasQuery : Query :=
  ⟨MAPPING_TREE, "sub", "(objectClass=nsds5replica)",
    ["nsDS5ReplicaRoot", "nsDS5ReplicaId", "nsDS5ReplicaType", "nsds5ReplicaBindDNGroup"]⟩

def cleanTasksQuery : Query :=
  ⟨"cn=cleanallruv,cn=tasks,cn=config", "one", "(objectClass=*)", ["cn"]⟩

def cleanTasks (r : Found) : Option Nat :=
  if r.rc = some 0 then some r.entries.length else if r.rc = some 32 then some 0 else none

def ruvValue (els : Option (List RuvElement)) : Value :=
  match els with
  | none => .null
  | some els => .list (els.map fun x => .dict x.dict)

/-- An agreement of an IPA suffix that could not become a subject. -/
def unusable (other : Dict) : Bool := among (getField other "kind") (T.SUFFIX_KINDS.map .str)

/-- Only the reads of the mapping tree count. -/
def agreementsComplete (truncated : List String) (reps : Found) (other : List Dict) : Bool :=
  whoami_dm ds == some true && reps.rc == some 0 && !truncated.contains MAPPING_TREE
    && !other.any unusable

def subjectText (a : Dict) : String := (getField a "subject").toStr

def agreementShown (a : Dict) : String :=
  subjectText a ++ " (" ++ (getField a "transport").toStr ++ "/"
    ++ (getField a "bind_method").toStr ++ ", port " ++ (getField a "port").toStr ++ ")"

def repl_agreements {ε : Type} (params : Dict) : Except (Exc ε) CheckResult :=
  match ds.ldapi with
  | .error err => .ok (notAsked "repl.agreements" params err)
  | .ok basedn => do
      let found := ldapi_search redact ds agreementsQuery
      if found.rc ≠ some 0 then
        pure (notRead "repl.agreements" params "the replication agreements" found)
      else
        let sorted ← found.entries.mapM (sortEntry basedn)
        let other := sorted.filterMap Sum.getRight?
        let reps := ldapi_search redact ds replicasQuery
        let replicas ← (if reps.rc = some 0 then reps.entries else []).mapM (replicaOf basedn)
        let domain := ruv_of redact ds basedn
        let ca := ruv_of redact ds "o=ipaca"
        let tasks := ldapi_search redact ds cleanTasksQuery
        let truncated := found.truncated ++ reps.truncated
          ++ (ldapi_search redact ds (ruvQuery basedn)).truncated
          ++ (ldapi_search redact ds (ruvQuery "o=ipaca")).truncated ++ tasks.truncated
        let agreements := (sorted.filterMap Sum.getLeft?).insertionSort
          fun a b => subjectText a ≤ subjectText b
        let errors := PyStr.join "; " ([domain.2, ca.2].filter (· ≠ ""))
        let shown := PyStr.join ", " ((agreements.take 4).map agreementShown)
        pure (readResult "repl.agreements" params OK
          [("agreements", .list (agreements.map .dict)),
            ("other_agreements", .list ((other.take 16).map .dict)),
            ("replicas", .list (replicas.map .dict)),
            ("ruv", .dict [("domain", ruvValue domain.1), ("ca", ruvValue ca.1)]),
            ("ruv_error", textValue (if errors = "" then none else some errors)),
            ("clean_tasks", ((cleanTasks tasks).map fun n => Value.int n).getD .null),
            ("identity_directory_manager", boolValue (whoami_dm ds)),
            ("complete", .bool (agreementsComplete ds truncated reps other)),
            ("count", .int agreements.length)]
          (toString agreements.length ++ " outbound agreement(s) on this server: "
            ++ textOr shown "none")
          ("ldapsearch -Y EXTERNAL (LDAPI, read-only) cn=mapping tree,cn=config: agreements, "
            ++ "replicas, RUV"))

end Searching

end IpaDiagnose.Replication
