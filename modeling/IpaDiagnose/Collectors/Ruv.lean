import IpaDiagnose.Collectors.Agreements

/-!
# Replica update vectors

Which replica ids the servers of a topology still carry, as
`ipa-replica-manage list-ruv` prints them or, where that is not to be had,
as the directory itself gives them over its local socket. An id without a
live server is marked; what was read in part is reported as an error.
-/

namespace IpaDiagnose.ReplicationAgreements

open Regex (Re)
open Replication (blank nonBlank)

/-! ## Elements of a vector -/

inductive Suffix where
  | domain
  | ca
deriving DecidableEq

structure Element where
  suffix : Suffix
  replica_id : Nat
  host : String
  port : String
  csn : Option String := none
deriving DecidableEq

def decimal : Re := .cls Unicode.isDecimal

/-- `[\w.-]` -/
def hostChar : Re := .cls fun c => Regex.word c || c == '.' || c == '-'

/-- `int` of a text of decimal digits. -/
def intOf (s : String) : Nat := (T.parseNat s).getD 0

def CS_RUV_HEADER_RE : Re :=
  .seqAll [.bos, .litI "certificate server replica update vectors", .star blank,
    .opt (.char ':'), .star blank, .eos]

def RUV_HEADER_RE : Re :=
  .seqAll [.bos, .litI "replica update vectors", .star blank, .opt (.char ':'), .star blank, .eos]

/-- `^\s*(?:ldap://)?([\w.-]+):(\d+):\s*(\d+)\s*$` -/
def RUV_LINE_RE : Re :=
  .seqAll [.bos, .star blank, .opt (.lit "ldap://"), .group 1 (.plus hostChar), .char ':',
    .group 2 (.plus decimal), .char ':', .star blank, .group 3 (.plus decimal), .star blank, .eos]

/-- `[\w.-]+:\d{2,5}\b` -/
def HOST_PORT_RE : Re := .seqAll [.plus hostChar, .char ':', .rept 2 5 decimal, .wordB]

def isHeader (stripped : String) : Bool :=
  (CS_RUV_HEADER_RE.match? stripped).isSome || (RUV_HEADER_RE.match? stripped).isSome

/-- Lines that look like elements but match none of the known shapes. -/
def countUnparsedRuvLines (stdout : String) : Nat :=
  ((cutLines stdout).filter fun raw =>
    let stripped := PyStr.strip raw
    stripped != "" && !isHeader stripped && (RUV_LINE_RE.match? raw).isNone
      && HOST_PORT_RE.search stripped).length

/-- What a line of `list-ruv` does: the section it stands in or begins,
and the element it holds. -/
def listLine (suffix : Suffix) (raw : String) : Suffix × Option Element :=
  let stripped := PyStr.strip raw
  if stripped = "" then (suffix, none)
  else if (CS_RUV_HEADER_RE.match? stripped).isSome then (.ca, none)
  else if (RUV_HEADER_RE.match? stripped).isSome then (.domain, none)
  else
    (suffix, (RUV_LINE_RE.match? raw).map fun m =>
      { suffix := suffix, replica_id := intOf (group m 3), host := group m 1, port := group m 2 })

/-- A value of `nsds50ruv` that is about a replica: its id, host and port,
and a change sequence number. -/
def NSDS50RUV_RE : Re :=
  .seqAll [.lit "\x7breplica", .plus blank, .group 1 (.plus decimal), .plus blank,
    .lit "ldap://", .group 2 (.plus hostChar), .char ':', .group 3 (.plus decimal), .char '\x7d',
    .star blank, .group 4 (.star nonBlank)]

/-- What a line of LDIF does: an entry begins, or a value is an element. -/
def ldifLine (suffix : Suffix) (line : String) : Suffix × Option Element :=
  let lowered := PyStr.lower line
  if PyStr.startsWith lowered "dn:" then
    (if PyStr.contains lowered "ipaca" then .ca else .domain, none)
  else if !PyStr.startsWith lowered "nsds50ruv:" then (suffix, none)
  else
    (suffix, (NSDS50RUV_RE.findall line).head?.map fun m =>
      { suffix := suffix, replica_id := intOf (group m 1), host := group m 2, port := group m 3
        csn := if group m 4 = "" then none else some (group m 4) })

/-! ## Items -/

/-- A replica id in a vector; its `ldap_url` is the host and the port. -/
structure RuvItem where
  replica_id : Nat
  host : String
  port : String
  suffix : Suffix
  csn : Option String
  alive : Option Bool
  duplicate_host : Bool := false
  method : Option String := none
deriving DecidableEq

def RuvItem.ldap_url (i : RuvItem) : String := i.host ++ ":" ++ i.port

/-- What an item is named by. -/
def RuvItem.item_id (i : RuvItem) : Suffix × Nat := (i.suffix, i.replica_id)

/-- The hosts that are known, and whether they are all there are. -/
structure KnownHosts where
  hosts : List String
  complete : Bool

/-- A host that is not known is not alive if all hosts are known. -/
def KnownHosts.alive (known : KnownHosts) (host : String) : Option Bool :=
  if host ∈ known.hosts then some true
  else if known.complete then some false
  else none

def itemOf (known : KnownHosts) (method : Option String) (e : Element) : RuvItem :=
  { replica_id := e.replica_id, host := e.host, port := e.port, suffix := e.suffix, csn := e.csn
    alive := known.alive e.host, method := method }

/-- Items of one server: the same suffix and the same host and port. -/
def sameServer (i j : RuvItem) : Bool := i.suffix == j.suffix && i.ldap_url == j.ldap_url

/-- The first item with the highest replica id. -/
def newest : List RuvItem → Option RuvItem
  | [] => none
  | i :: items =>
      match newest items with
      | none => some i
      | some j => if i.replica_id < j.replica_id then some j else some i

/-- An older id of a server that has a newer one is marked. -/
def flagDuplicate (items : List RuvItem) (i : RuvItem) : RuvItem :=
  let grp := items.filter (sameServer i)
  match newest grp with
  | none => i
  | some keep =>
      if 2 ≤ grp.length ∧ i.item_id ≠ keep.item_id then
        { i with alive := some false, duplicate_host := true }
      else i

def flagDuplicateHostIds (items : List RuvItem) : List RuvItem :=
  items.map (flagDuplicate items)

instance : LawfulBEq (Suffix × Nat) := inferInstance

/-- An output being read: the section, the ids that were seen, and the
items of the first element with each id. -/
structure RuvReading where
  suffix : Suffix := .domain
  seen : List (Suffix × Nat) := []
  items : List RuvItem := []

def RuvReading.line (read : Suffix → String → Suffix × Option Element) (known : KnownHosts)
    (method : Option String) (r : RuvReading) (raw : String) : RuvReading :=
  match read r.suffix raw with
  | (suffix, none) => { r with suffix := suffix }
  | (suffix, some e) =>
      if (e.suffix, e.replica_id) ∈ r.seen then { r with suffix := suffix }
      else
        { suffix := suffix
          seen := (e.suffix, e.replica_id) :: r.seen
          items := r.items ++ [itemOf known method e] }

/-- The items of an output, line by line. -/
def parseRuv (read : Suffix → String → Suffix × Option Element) (known : KnownHosts)
    (method : Option String) (lines : List String) : List RuvItem :=
  flagDuplicateHostIds (lines.foldl (RuvReading.line read known method) {}).items

def parseListRuvOutput (stdout : String) (known : KnownHosts) : List RuvItem :=
  parseRuv listLine known none (cutLines stdout)

def ldifLines (stdout : String) : List String :=
  (Lines.unfoldChars (Lines.splitChars stdout.toList)).map String.ofList

def parseLdapiRuvLdif (stdout : String) (known : KnownHosts) : List RuvItem :=
  parseRuv ldifLine known (some "ldapi-external-read-only") (ldifLines stdout)

/-! ## What is run -/

structure Proc where
  returncode : Int
  stdout : String
  stderr : String

/-- A command that ran, or the exception it ended with. -/
abbrev Ran := Except String Proc

/-- What the directory gives over its local socket. -/
structure Ldapi where
  masters : Ran
  domainRuv : Ran
  caRuv : Ran
  directoryManager : Bool

/-- What a server gives to one collection. -/
structure Server where
  hostname : String
  installed : Bool
  list : Ran
  listMasters : Ran
  listRuv : Ran
  ldapi : Except String Ldapi

def exited (command : String) (proc : Proc) : String :=
  command ++ " exited " ++ toString proc.returncode ++ ": "
    ++ PyStr.take (PyStr.strip proc.stderr) 300

def tryRunList (server : Server) : List Agreement × Option String :=
  let command := "ipa-replica-manage list -v " ++ server.hostname
  match server.list with
  | .error e => ([], some (command ++ " failed: " ++ e))
  | .ok proc =>
      if proc.returncode ≠ 0 then ([], some (exited command proc))
      else (parseListOutput proc.stdout, none)

/-- The hosts that were read, if there are any. -/
def orNone (hosts : List String) : Option (List String) :=
  if hosts = [] then none else some hosts.dedup

def tryListMasters (server : Server) : Option (List String) :=
  match server.listMasters with
  | .error _ => none
  | .ok proc =>
      if proc.returncode ≠ 0 then none
      else orNone ((Lines.splitlines proc.stdout).filterMap fun line =>
        (ROLE_LINE_RE.match? line).map fun m => group m 1)

/-- `dn:\s*cn=([A-Za-z0-9.-]+),cn=masters,` in any case. -/
def MASTER_DN_RE : Re :=
  .seqAll [.litI "dn:", .star blank, .litI "cn=",
    .group 1 (.plus (.cls fun c => asciiWordI c || c == '.' || c == '-')), .litI ",cn=masters,"]

/-- The text from each of its line starts on. -/
def lineStarts : List Char → List (List Char)
  | [] => []
  | c :: cs => if c = '\n' then cs :: lineStarts cs else lineStarts cs

def masterNames (stdout : String) : List String :=
  (stdout.toList :: lineStarts stdout.toList).filterMap fun text =>
    (MASTER_DN_RE.match? (String.ofList text)).map fun m => group m 1

def ldapiMasters (server : Server) : Option (List String) :=
  match server.ldapi with
  | .error _ => none
  | .ok ldapi =>
      match ldapi.masters with
      | .error _ => none
      | .ok proc => if proc.returncode ≠ 0 then none else orNone (masterNames proc.stdout)

def masters (server : Server) : Option (List String) :=
  (ldapiMasters server).or (tryListMasters server)

/-- This host, the peers of its agreements, and the masters. -/
def knownHosts (server : Server) : KnownHosts :=
  { hosts := server.hostname
      :: ((tryRunList server).1.map (·.peer) ++ (masters server).getD [])
    complete := (tryRunList server).2.isNone || (masters server).isSome }

/-! ## Reading the vectors -/

/-- What begins like a replica, readable or not. -/
def REPLICA_RE : Re := .seq (.lit "\x7breplica") blank

/-- One search for vectors: its items, or what went wrong. -/
def ldapiSearch (known : KnownHosts) (required : Bool) (ran : Ran) :
    Except String (List RuvItem) :=
  let where_ := if required then "" else " (CA suffix)"
  match ran with
  | .error e => .error ("ldapsearch failed" ++ where_ ++ ": " ++ e)
  | .ok proc =>
      if proc.returncode ≠ 0 then
        if required = false ∧ proc.returncode = 32 then .ok []
        else .error ("ldapsearch exited " ++ toString proc.returncode ++ where_ ++ ": "
          ++ PyStr.take (PyStr.strip proc.stderr) 200)
      else
        let parsed := parseLdapiRuvLdif proc.stdout known
        if (NSDS50RUV_RE.findall proc.stdout).length < (REPLICA_RE.findall proc.stdout).length then
          .error "RUV entries were returned but could not all be parsed"
        else if required && parsed.isEmpty && PyStr.contains (PyStr.lower proc.stdout) "nsds50ruv:" then
          .error "RUV entries were returned but could not be parsed"
        else .ok parsed

def errorOf {α : Type} : Except String α → Option String
  | .error e => some e
  | .ok _ => none

/-- The items of each search, or why there are none. -/
def ldapiReadRuv (ldapi : Except String Ldapi) (known : KnownHosts) :
    List (List RuvItem) × Option String :=
  match ldapi with
  | .error e => ([], some e)
  | .ok ldapi =>
      match ldapiSearch known true ldapi.domainRuv, ldapiSearch known false ldapi.caRuv with
      | .ok domain, .ok ca =>
          if domain = [] ∧ ca = [] then
            if ldapi.directoryManager then ([], none)
            else ([], some ("no RUV entry was returned and the LDAPI identity could not be "
              ++ "confirmed as able to see it"))
          else ([domain, ca], none)
      | domain, ca =>
          ([], some (PyStr.join "; " ((errorOf domain).toList ++ (errorOf ca).toList)))

/-- The items read, those of one read together; or that there is no
replication; or what went wrong. -/
structure RuvRead where
  reads : List (List RuvItem) := []
  noReplication : Bool := false
  error : Option String := none

def ldapiFallback (server : Server) (known : KnownHosts) (primary_error : String) : RuvRead :=
  match ldapiReadRuv server.ldapi known with
  | (_ :: _, none) => { reads := (ldapiReadRuv server.ldapi known).1 }
  | ([], none) => { noReplication := true }
  | (_, some fallback_error) =>
      { error := some (primary_error ++ "; read-only LDAPI fallback unavailable: "
          ++ fallback_error) }

def LIST_RUV_COMMAND : String := "ipa-replica-manage list-ruv"

def tryRunListRuv (server : Server) (known : KnownHosts) : RuvRead :=
  match server.listRuv with
  | .error e => ldapiFallback server known (LIST_RUV_COMMAND ++ " failed: " ++ e)
  | .ok proc =>
      if proc.returncode ≠ 0 then ldapiFallback server known (exited LIST_RUV_COMMAND proc)
      else
        let items := parseListRuvOutput proc.stdout known
        if items = [] then
          ldapiFallback server known (LIST_RUV_COMMAND ++ " returned no parseable RUV entries")
        else if countUnparsedRuvLines proc.stdout ≠ 0 then
          ldapiFallback server known (LIST_RUV_COMMAND ++ " output could not be fully parsed")
        else { reads := [items] }

/-! ## The collection -/

/-- What is collected: agreements, the items of the vectors, and that
there is no replication. -/
structure Collected where
  agreements : List Agreement := []
  reads : List (List RuvItem) := []
  noReplication : Bool := false

def Collected.ruv (c : Collected) : List RuvItem := c.reads.flatten

structure CollectorError where
  message : String
  permission_related : Bool := false
  partial_items : Collected := {}

def permissionRelated (message : String) : Bool :=
  ["permission", "password", "insufficient access", "not allowed", "denied", "root"].any
    (PyStr.contains (PyStr.lower message))

/-- The error of the agreements that is left once the vectors were read. -/
def listErrorLeft (server : Server) (read : RuvRead) : Option String :=
  if (masters server).isSome ∧ read.reads.flatten ≠ [] then none
  else if read.noReplication then none
  else (tryRunList server).2

/-- The vectors that go with the agreements: agreements contradict that
there is no replication. -/
def consistentRead (server : Server) : RuvRead :=
  let read := tryRunListRuv server (knownHosts server)
  if (tryRunList server).1 ≠ [] ∧ read.noReplication then
    { error := some "replication agreements exist but no RUV was found (contradictory evidence)" }
  else read

def collectLive (server : Server) : Except CollectorError Collected :=
  if server.installed then
    let read := consistentRead server
    let items : Collected :=
      { agreements := (tryRunList server).1, reads := read.reads
        noReplication := read.noReplication }
    match (listErrorLeft server read).toList ++ read.error.toList with
    | [] => .ok items
    | errors =>
        let message := PyStr.join "; " (errors.filter (· != ""))
        .error { message := message, permission_related := permissionRelated message
                 partial_items := items }
  else .error { message := "ipa-replica-manage is not installed or not on PATH" }

end IpaDiagnose.ReplicationAgreements
