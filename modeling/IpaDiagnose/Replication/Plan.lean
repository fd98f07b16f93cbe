import IpaDiagnose.Planner.Run
import IpaDiagnose.Replication.Status

/-!
# The replication investigation plan

Which checks exist, what each depends on, when each is worth running. A
subject is one outbound agreement of this server, `domain:<consumer>` or
`ca:<consumer>`; the reverse direction is only ever read, never inferred
from the outbound one.
-/

namespace IpaDiagnose.Replication

open Py (Value Dict Exc)
open Planner (Outcome Req Step ForEach PlanItem Param Context Classified PlanError)

def KRB_TOLERANCE : Nat := 300

def CLOCK_WARN : Nat := 60

def AGREEMENT_BUDGET : Int := 8

def SUBJECT_SECONDS : ℚ := 60

def MIN_FREE_BYTES : Int := 100 * 1024 * 1024

def WARN_FREE_PERCENT : Int := 5

def SASL_GSSAPI : String := "SASL/GSSAPI"

def DS_KEYTAB : String := "/etc/dirsrv/ds.keytab"

/-- `f.get(name)`. -/
def getField (f : Dict) (name : String) : Value := (f.lookup name).getD .null

/-- `v or default`. -/
def orElse (v default : Value) : Value := if v.truthy then v else default

/-- `v is True`. -/
def isTrue (v : Value) : Bool := v == .bool true

def isFalse (v : Value) : Bool := v == .bool false

def among (v : Value) (vs : List Value) : Bool := vs.any (v.pyEq ·)

/-! ## Classifiers -/

section Classifiers

/-- What a classifier may raise ends in an unknown outcome. -/
abbrev PE := Exc PlanError

def c_server (res : CheckResult) (_ : Context) : Except PE Classified :=
  if (getField res.fields "is_ipa_server").truthy = false then
    .ok ⟨.fail, res.display, [("state", .str "not_server")]⟩
  else .ok ⟨.pass, res.display, [("state", .str "server")]⟩

def c_unit (res : CheckResult) (_ : Context) : Except PE Classified :=
  let f := res.fields
  let st := getField f "active_state"
  let unit := (orElse (getField f "unit") (.str "the unit")).toStr
  let result := getField f "result"
  if !among (getField f "load_state") [.null, .str "", .str "loaded"] then
    .ok ⟨.fail, unit ++ " is not a loaded unit (" ++ (getField f "load_state").toStr ++ ")",
      [("state", st)]⟩
  else if st = .str "active" then .ok ⟨.pass, unit ++ " is running", [("state", st)]⟩
  else if among st [.str "activating", .str "reloading", .str "deactivating"] then
    .ok ⟨.warn, unit ++ " is " ++ st.toStr, [("state", st)]⟩
  else
    .ok ⟨.fail, unit ++ " is " ++ (orElse st (.str "not running")).toStr
      ++ (if among result [.null, .str "", .str "success"] then ""
        else " (last result " ++ result.toStr ++ ")"), [("state", st)]⟩

def c_storage (res : CheckResult) (_ : Context) : Except PE Classified :=
  let f := res.fields
  let freeBytes := getField f "free_bytes"
  let freePercent := getField f "free_percent"
  if (getField f "read_only").truthy then .ok ⟨.fail, res.display, [("state", .str "read_only")]⟩
  else if freeBytes.isInt && freeBytes.lt? (.int MIN_FREE_BYTES) == some true then
    .ok ⟨.fail, res.display, [("state", .str "full")]⟩
  else if freePercent.isNumber && freePercent.lt? (.int WARN_FREE_PERCENT) == some true then
    .ok ⟨.warn, res.display, [("state", .str "low")]⟩
  else .ok ⟨.pass, res.display, [("state", .str "ok")]⟩

/-- `(v or 1) > 1` -/
def moreThanOne (v : Value) : Except PE Bool :=
  match (Value.int 1).lt? (orElse v (.int 1)) with
  | some b => .ok b
  | none => .error .typeError

/-- `expected not in principals` -/
def keyMissing (expected principals : Value) : Except PE Bool :=
  match expected.isIn principals with
  | some b => .ok (!b)
  | none => .error .typeError

def principalMissing (expected principals : Value) : Except PE Classified := do
  let has ← if principals.truthy then do
      let shown ← principals.sliceTo 2
      let shown ← shown.joined ", "
      pure (" (it has " ++ shown ++ ")")
    else pure " (it is empty)"
  pure ⟨.fail, DS_KEYTAB ++ " has no key for " ++ expected.toStr ++ has,
    [("state", .str "principal_missing")]⟩

/-- The keytab has a plain file; what is in it? -/
def keytabContent (res : CheckResult) (expected : Value) : Except PE Classified := do
  let f := res.fields
  let principals := orElse (getField f "principals") (.list [])
  let missing ← if expected.truthy && (getField f "klist_ok").truthy then
      keyMissing expected principals else pure false
  if missing then principalMissing expected principals
  else if (getField f "world_readable").truthy then
    pure ⟨.warn, DS_KEYTAB ++ " is world-readable (mode " ++ (getField f "mode").toStr ++ ")",
      [("state", .str "world_readable")]⟩
  else pure ⟨.pass, res.display, [("state", .str "ok")]⟩

def c_ds_keytab (res : CheckResult) (ctx : Context) : Except PE Classified := do
  let f := res.fields
  if (getField f "present").truthy = false then
    pure ⟨.fail, DS_KEYTAB ++ " does not exist", [("state", .str "missing")]⟩
  else
    let irregular ← if (getField f "is_symlink").truthy || !(getField f "is_regular").truthy then
        pure true else moreThanOne (getField f "links")
    if irregular then pure ⟨.fail, res.display, [("state", .str "not_regular")]⟩
    else if isFalse (getField f "dirsrv_can_read") then
      pure ⟨.fail, DS_KEYTAB ++ " is not readable by the dirsrv user (owner "
        ++ (getField f "owner").toStr ++ ":" ++ (getField f "group").toStr ++ ", mode "
        ++ (getField f "mode").toStr ++ ")", [("state", .str "unreadable_for_dirsrv")]⟩
    else if isFalse (getField f "klist_ok") then
      pure ⟨.fail, DS_KEYTAB ++ " cannot be listed ("
        ++ (orElse (getField f "error") (.str "klist failed")).toStr ++ ")",
        [("state", .str "unreadable")]⟩
    else keytabContent res (ctx.fact "server.ldap_principal")

def c_topology (res : CheckResult) (_ : Context) : Except PE Classified :=
  let f := res.fields
  let facts := [("masters", orElse (getField f "masters") (.list [])),
    ("complete", .bool (isTrue (getField f "complete")))]
  if (getField f "complete").truthy = false then
    .ok ⟨.warn, res.display ++ " (not every part could be read with a confirmed identity)", facts⟩
  else .ok ⟨.pass, res.display, facts⟩

section Agreements

variable (loads : String → Option Value)

/-- The fields of an agreement's subject that are copied. -/
def ITEM_FIELDS : List String :=
  ["subject", "consumer", "port", "transport", "bind_method", "suffix_kind", "suffix_root",
    "enabled", "status_text", "last_update_start", "last_update_end", "update_in_progress",
    "last_init_status", "name"]

def codeValue (code : Option Int) : Value := (code.map Value.int).getD .null

/-- The agreement an entry stands for, if it does for one of those asked for. -/
def agreementItem (peer : Value) (entry : Value) : Except PE (Option Dict) :=
  match entry with
  | .dict a =>
      if (getField a "subject").truthy = false then .ok none
      else if peer.truthy && !(getField a "consumer").pyEq peer then .ok none
      else do
        let st ← parseStatus loads (getField a "status_text") (getField a "status_json")
        pure (some (ITEM_FIELDS.map (fun k => (k, getField a k))
          ++ [("status_class", st.cls.value), ("ldap_rc", codeValue st.ldapRc),
            ("repl_rc", codeValue st.replRc)]))
  | _ => .ok none

def consumersOf (entries : List Value) : List Value :=
  entries.filterMap fun entry =>
    match entry with
    | .dict a => if (getField a "consumer").truthy then some (getField a "consumer") else none
    | _ => none

/-- The subjects of the per-agreement template, and all consumers. -/
def agreement_items (fields : Dict) (peer : Value) : Except PE (List Dict × List Value) := do
  let entries ← (orElse (getField fields "agreements") (.list [])).iter
  let items ← entries.mapM (agreementItem loads peer)
  let consumers ← Py.setOf (consumersOf entries)
  let consumers ← Py.sortedValues consumers
  pure (items.filterMap id, consumers)

def isFailing (item : Dict) : Bool := !(getField item "status_class").pyEq StatusClass.ok.value

def noAgreementTowards (peer : Value) (consumers : List Value) (facts : Dict) :
    Except PE Classified := do
  let shown ← (Value.list consumers).joined ", "
  pure ⟨.warn, "this server has no outbound agreement towards " ++ peer.toStr
    ++ " (its agreements go to " ++ (if shown = "" then "no server" else shown) ++ ")", facts⟩

def c_agreements (res : CheckResult) (ctx : Context) : Except PE Classified := do
  let f := res.fields
  let peer := ctx.input "peer"
  let (items, consumers) ← agreement_items loads f peer
  let failing ← Py.sortedValues ((items.filter isFailing).map (getField · "subject"))
  let facts : Dict := [("subjects", .list (items.map Value.dict)),
    ("complete", .bool (isTrue (getField f "complete"))), ("consumers", .list consumers),
    ("peer_found", if peer.truthy then .bool (among peer consumers) else .null),
    ("failing", .list failing)]
  if peer.truthy && !among peer consumers then noAgreementTowards peer consumers facts
  else if (getField f "complete").truthy = false then
    pure ⟨.warn, res.display ++ " (the read could not be confirmed complete)", facts⟩
  else pure ⟨.pass, res.display, facts⟩

end Agreements

def c_principals (res : CheckResult) (_ : Context) : Except PE Classified :=
  let f := res.fields
  let complete := isTrue (getField f "complete")
  .ok ⟨if complete then .pass else .warn, res.display,
    [("ldap_principals", orElse (getField f "ldap_principals") (.list [])),
      ("managers", orElse (getField f "replication_managers") (.list [])),
      ("complete", .bool complete)]⟩

def c_dns (res : CheckResult) (_ : Context) : Except PE Classified :=
  let resolved := (getField res.fields "resolved").truthy
  .ok ⟨if resolved then .pass else .fail, res.display, [("resolved", .bool resolved)]⟩

def c_tcp (res : CheckResult) (_ : Context) : Except PE Classified :=
  let st := getField res.fields "state"
  .ok ⟨if st = .str "open" then .pass else .fail, res.display, [("state", st)]⟩

def c_rootdse (res : CheckResult) (_ : Context) : Except PE Classified :=
  let f := res.fields
  let off := getField f "offset_seconds"
  let facts := [("answered", getField f "answered"), ("offset", off),
    ("error_class", getField f "error_class")]
  if (getField f "ok").truthy then
    -- the peer answered; a clock difference is judged by the diagnosis
    if off.beyond KRB_TOLERANCE then
      .ok ⟨.warn, res.display ++ ": beyond Kerberos' 300 s tolerance", facts⟩
    else if off.beyond CLOCK_WARN then .ok ⟨.warn, res.display, facts⟩
    else .ok ⟨.pass, res.display, facts⟩
  else if (getField f "answered").truthy then
    .ok ⟨.warn, res.display
      ++ " (the Directory Server answered, but the root DSE was not readable)", facts⟩
  else .ok ⟨.fail, res.display, facts⟩

def c_peer_time (res : CheckResult) (_ : Context) : Except PE Classified := do
  let off := getField res.fields "offset_seconds"
  if off.isNumber = false then
    pure ⟨.unknown, "the peer's clock could not be read over HTTPS", [("offset", .null)]⟩
  else
    let seconds ← off.fixed0
    pure ⟨if off.beyond CLOCK_WARN then .warn else .pass,
      "this host's clock is " ++ seconds ++ " s "
        ++ (if off.order (· != .lt) (.int 0) = some true then "ahead of" else "behind")
        ++ " the peer's ("
        ++ (orElse (getField res.fields "date_source") (.str "HTTPS")).toStr ++ " Date header)",
      [("offset", off)]⟩

def c_gssapi (res : CheckResult) (_ : Context) : Except PE Classified :=
  let f := res.fields
  let facts := [("kinit_ok", getField f "kinit_ok"), ("kinit_class", getField f "kinit_class"),
    ("bind_ok", getField f "bind_ok"), ("error_class", getField f "bind_error_class"),
    ("ccache_removed", getField f "ccache_removed")]
  .ok ⟨if (getField f "bind_ok").truthy then .pass else .fail, res.display, facts⟩

section Reverse

variable (loads : String → Option Value)

/-- The peer's agreements of one suffix. -/
def sameSuffix (kind : Value) (entries : List Value) : List Dict :=
  entries.filterMap fun entry =>
    match entry with
    | .dict a => if (getField a "suffix_kind").pyEq kind then some a else none
    | _ => none

/-- The classes of agreements, each once, in the order of their names. -/
def classesOf (same : List Dict) : Except PE (List StatusClass) := do
  let sts ← same.mapM fun a =>
    parseStatus loads (getField a "status_text") (getField a "status_json")
  pure ((sts.map AgreementStatus.cls).dedup.insertionSort fun a b => a.text ≤ b.text)

/-- `(v or "")[:600]` -/
def shortText (v : Value) : Except PE Value := (orElse v (.str "")).sliceTo 600

def reverseText (ctx : Context) (kind : Value) (what : String) : String :=
  "reverse direction (" ++ (getField ctx.item "consumer").toStr ++ " -> this server, "
    ++ kind.toStr ++ "): " ++ what

/-- The agreements of the suffix, read: their classes; the rest is taken
from the first one. -/
def reverseRead (ctx : Context) (kind : Value) (first : Dict) (same : List Dict) :
    Except PE Classified := do
  let classes ← classesOf loads same
  let text ← shortText (getField first "status_text")
  let facts := [("visible", .bool true), ("classes", .list (classes.map StatusClass.value)),
    ("status_text", text), ("last_update_end", getField first "last_update_end"),
    ("update_in_progress", getField first "update_in_progress"),
    ("enabled", getField first "enabled")]
  if classes = [.ok] then
    pure ⟨.pass, reverseText ctx kind "the last session succeeded", facts⟩
  else
    pure ⟨.fail, reverseText ctx kind (PyStr.join ", " (classes.map StatusClass.text)), facts⟩

def c_reverse (res : CheckResult) (ctx : Context) : Except PE Classified := do
  let f := res.fields
  let kind := getField ctx.item "suffix_kind"
  let entries ← (orElse (getField f "agreements") (.list [])).iter
  if (getField f "visible").truthy = false then
    pure ⟨.unknown, res.display, [("visible", .bool false)]⟩
  else
    match sameSuffix kind entries with
    | [] =>
        pure ⟨.unknown, "the peer's agreements towards this server are visible, but none for the "
          ++ kind.toStr ++ " suffix", [("visible", .bool false)]⟩
    | first :: rest => reverseRead loads ctx kind first (first :: rest)

end Reverse

/-- `abs(v or 0) < 1` -/
def underOneSecond (v : Value) : Except PE Bool :=
  if (orElse v (.int 0)).isNumber then
    .ok (((orElse v (.int 0)).num?.bind Float64.rat?).any fun q => |q| < 1)
  else .error .typeError

def c_chrony (res : CheckResult) (_ : Context) : Except PE Classified := do
  let f := res.fields
  let synchronized := (getField f "synchronized").truthy
  let near ← if synchronized then underOneSecond (getField f "offset_seconds") else pure false
  let facts := [("synchronized", .bool synchronized), ("offset", getField f "offset_seconds")]
  if near then pure ⟨.pass, res.display, facts⟩
  else
    pure ⟨.warn, res.display ++ (if synchronized then "" else "; chronyd is not synchronized"), facts⟩

end Classifiers

/-! ## Gates -/

def stop_not_server (ctx : Context) : Except PE (Option String) :=
  if ctx.fact "server.state" = .str "not_server" then
    .ok (some ("this host is not an IPA server: replication is investigated on the IPA servers "
      ++ "themselves (nothing was guessed)"))
  else .ok none

def g_https (ctx : Context) : Except PE (Bool × String) :=
  if ctx.outcome "peer.port" = some .fail then
    .ok (true, "the agreement's LDAP port does not answer: is the peer host up at all (HTTPS, 443)?")
  else .ok (false, "the agreement's LDAP port answers")

def g_peer_time (ctx : Context) : Except PE (Bool × String) :=
  if ctx.outcome "peer.dns" ≠ some .pass then
    .ok (false, "the peer's name does not resolve here")
  else if (ctx.fact "peer.rootdse.offset").isNumber then
    .ok (false, "the peer's root DSE already gave its clock")
  else
    .ok (true, "the peer's root DSE gave no clock: read it from the peer's HTTPS Date header (for "
      ++ "Kerberos, clocks must agree within 300 s)")

/-- `str(v or "").upper()` -/
def bindMethod (item : Dict) : String :=
  PyStr.upper (orElse (getField item "bind_method") (.str "")).toStr

def g_gssapi_applies (ctx : Context) : Except PE (Bool × String) :=
  let bm := bindMethod ctx.item
  let kt := ctx.fact "server.krb5_ktname"
  if bm ≠ SASL_GSSAPI then
    .ok (false, "the agreement binds with " ++ (if bm = "" then "an unknown method" else bm)
      ++ ", not SASL/GSSAPI"
      ++ (if bm = "SIMPLE" then " (its stored credential is never read)" else ""))
  else if !among kt [.null, .str DS_KEYTAB] then
    .ok (false, "the Directory Server is configured with another keytab (" ++ kt.toStr
      ++ "); the reproduction would not use the same key")
  else .ok (true, "the agreement binds with SASL/GSSAPI as this server's ldap/ principal")

def g_gssapi (ctx : Context) : Except PE (Bool × String) :=
  if isFailing ctx.item then
    .ok (true, "the agreement's last session is " ++ (getField ctx.item "status_class").toStr
      ++ ": reproduce the supplier's Kerberos bind to see what fails now")
  else if ctx.outcome "local.kdc" = some .fail then
    .ok (true, "this server's KDC is not running: can the supplier still obtain new Kerberos tickets?")
  else .ok (false, "the agreement's last session succeeded (not probed further)")

/-- A clock question a record raises. -/
def clockQuestion (r : Planner.Record) : Option String :=
  let off := getField r.facts "offset"
  if (r.baseStep = some "peer.rootdse" ∨ r.baseStep = some "peer.time") ∧ off.beyond CLOCK_WARN then
    some ("this host's clock differs from " ++ r.subject.getD "None" ++ "'s: is this host's NTP working?")
  else if r.baseStep = some "gssapi" ∧
      ((getField r.facts "error_class").pyEq StatusClass.gssapiClockSkew.value
        ∨ (getField r.facts "kinit_class").pyEq (.str "clock_skew")) then
    some "Kerberos reported clock skew: is this host's NTP working?"
  else none

def ofClass (cls : StatusClass) (v : Value) : Bool :=
  match v with
  | .dict item => (getField item "status_class").pyEq cls.value
  | _ => false

/-- The subjects a record lists. -/
def subjectsOf (r : Planner.Record) : Except PE (List Value) :=
  (orElse (getField r.facts "subjects") (.list [])).iter

def g_chrony (ctx : Context) : Except PE (Bool × String) := do
  match ctx.records.reverse.findSome? clockQuestion with
  | some why => pure (true, why)
  | none =>
      let listed ← (ctx.records.reverse.filter fun r => r.stepId == "agreements").mapM subjectsOf
      if listed.any fun items => items.any (ofClass .gssapiClockSkew) then
        pure (true, "an agreement reports Kerberos clock skew: is this host's NTP working?")
      else pure (false, "no clock difference is in view")

def notOk (v : Value) : Bool :=
  match v with
  | .dict item => isFailing item
  | _ => false

def g_principals (ctx : Context) : Except PE (Bool × String) := do
  let items ← (orElse (ctx.fact "agreements.subjects") (.list [])).iter
  if items.any notOk then
    pure (true, "an agreement is failing: which ldap/ principals and replication managers does this "
      ++ "server know?")
  else pure (false, "every agreement's last session succeeded")

/-! ## The plan -/

def ofItem (name : String) : Param := .tuple [.str "item", .str name]

def ofFact (ref : String) : Param := .tuple [.str "fact", .str ref]

section ThePlan

variable (loads : String → Option Value)

/-- The steps of one outbound agreement. -/
def agreementSteps : List Step :=
  [{ stepId := "peer.dns", capability := "DNS", check := "dns.address"
     title := "Peer name resolves (from this host)"
     why := "The supplier reaches the consumer by the name in the agreement, through this host's "
       ++ "resolver."
     params := [("name", ofItem "consumer")], classify := some c_dns },
    { stepId := "peer.port", capability := "NETWORK", check := "net.tcp"
      title := "Agreement port answers (TCP)"
      why := "The agreement connects to this port of the consumer."
      params := [("host", ofItem "consumer"), ("port", ofItem "port")]
      requires := [{ step := "peer.dns" }], classify := some c_tcp },
    { stepId := "peer.rootdse", capability := "PEER_DS", check := "repl.peer_rootdse"
      title := "Peer Directory Server answers (root DSE)"
      why := "An anonymous read of the consumer's root DSE shows whether its Directory Server "
        ++ "answers LDAP, and its clock (currentTime)."
      params := [("host", ofItem "consumer"), ("port", ofItem "port"),
        ("transport", ofItem "transport")]
      requires := [{ step := "peer.dns" }], after := ["peer.port"], classify := some c_rootdse },
    { stepId := "peer.time", capability := "TIME", check := "ipa.https"
      title := "Peer clock (HTTPS Date header)"
      why := "Only when the root DSE gives no time: the peer's clock from its HTTPS Date header "
        ++ "(anonymous HEAD request, TLS verified with /etc/ipa/ca.crt)."
      params := [("server", ofItem "consumer")], after := ["peer.dns", "peer.rootdse"]
      when := some g_peer_time, classify := some c_peer_time },
    { stepId := "peer.https", capability := "NETWORK", check := "net.tcp"
      title := "Peer host answers on 443 (is it up?)"
      why := "Only when the agreement's port does not answer: separates a stopped Directory Server "
        ++ "on a running host from a host that cannot be reached."
      params := [("host", ofItem "consumer"), ("port", .lit (.str "443"))]
      requires := [{ step := "peer.dns" }], after := ["peer.port"], when := some g_https
      classify := some c_tcp },
    { stepId := "gssapi", capability := "KERBEROS", check := "repl.gssapi_bind"
      title := "Supplier's GSSAPI bind to the peer (reproduced)"
      why := "The supplier authenticates with its own ldap/ key from /etc/dirsrv/ds.keytab and binds "
        ++ "with SASL GSSAPI; reproducing it separates KDC, clock, principal, key and peer-side "
        ++ "failures."
      params := [("host", ofItem "consumer"), ("port", ofItem "port"),
        ("transport", ofItem "transport"), ("principal", ofFact "server.ldap_principal")]
      requires := [{ step := "peer.port" }], after := ["peer.rootdse"]
      applies := some g_gssapi_applies, when := some g_gssapi, classify := some c_gssapi
      needsRoot := true },
    { stepId := "reverse", capability := "REPLICATION", check := "repl.peer_agreement"
      title := "Reverse direction (peer -> this server)"
      why := "The peer's own agreement towards this server, read from the peer (read-only, with "
        ++ "your own Kerberos ticket). Never inferred from the outbound direction."
      params := [("host", ofItem "consumer"), ("port", ofItem "port"),
        ("transport", ofItem "transport"), ("self_host", ofFact "server.host")]
      requires := [{ step := "peer.rootdse" }], after := ["gssapi"]
      classify := some (c_reverse loads) }]

def perAgreement : ForEach :=
  { templateId := "agreement", source := "agreements.subjects"
    subjectType := "agreement_subject", steps := agreementSteps loads
    maxInstances := AGREEMENT_BUDGET, title := "per outbound agreement"
    completeFact := some "agreements.complete", subjectSeconds := some SUBJECT_SECONDS }

def onServer : List Req := [{ step := "server" }]

def onLocalDs : List Req := [{ step := "local.ds" }]

def serverStep : Step :=
  { stepId := "server", capability := "TOPOLOGY", check := "repl.server"
    title := "This host is an IPA server"
    why := "Replication agreements live on IPA servers; the realm, suffix and this server's name "
      ++ "come from here."
    classify := some c_server, stop := some stop_not_server }

def localDsStep : Step :=
  { stepId := "local.ds", capability := "LOCAL_DS", check := "systemd.unit"
    title := "Local Directory Server running"
    why := "Every agreement of this server is run by its Directory Server; its data is read over "
      ++ "its LDAPI socket."
    params := [("service", .lit (.str "dirsrv"))], requires := onServer, classify := some c_unit }

def localKdcStep : Step :=
  { stepId := "local.kdc", capability := "LOCAL_KDC", check := "systemd.unit"
    title := "Local KDC running"
    why := "The supplier obtains its Kerberos tickets for GSSAPI agreements from the KDC its "
      ++ "Kerberos configuration names (on an IPA server: itself)."
    params := [("service", .lit (.str "krb5kdc"))], requires := onServer, classify := some c_unit }

def localStorageStep : Step :=
  { stepId := "local.storage", capability := "STORAGE", check := "repl.storage"
    title := "Directory Server file system writable, with space"
    why := "A read-only or full file system stops the Directory Server and its changelog."
    requires := onServer, classify := some c_storage }

def localKeytabStep : Step :=
  { stepId := "local.keytab", capability := "KEYTAB", check := "repl.ds_keytab"
    title := "Directory Server keytab (ds.keytab)"
    why := "GSSAPI agreements authenticate with this server's ldap/ key from "
      ++ "/etc/dirsrv/ds.keytab (metadata only)."
    requires := onServer, classify := some c_ds_keytab, needsRoot := true }

def topologyStep : Step :=
  { stepId := "topology", capability := "TOPOLOGY", check := "repl.topology"
    title := "Topology: servers, roles, segments"
    why := "Which servers exist, what roles they hold (CA, KRA, DNS, renewal master) and which "
      ++ "segments connect them per suffix: context for impact and for what may never be changed "
      ++ "lightly."
    requires := onLocalDs, classify := some c_topology, needsRoot := true }

def agreementsStep : Step :=
  { stepId := "agreements", capability := "REPLICATION", check := "repl.agreements"
    title := "Outbound replication agreements of this server"
    why := "Each agreement is one direction (this server -> consumer) of one suffix; its own status "
      ++ "says how its last session ended."
    requires := onLocalDs, after := ["topology"], classify := some (c_agreements loads)
    needsRoot := true }

def principalsStep : Step :=
  { stepId := "principals", capability := "PRINCIPAL", check := "repl.principals"
    title := "ldap/ principals and replication managers"
    why := "Only when an agreement fails: whether the peers' ldap/ service principals exist and "
      ++ "this server is a replication manager (this server's copy of the directory)."
    requires := onLocalDs, after := ["agreements"], when := some g_principals
    classify := some c_principals, needsRoot := true }

def timeLocalStep : Step :=
  { stepId := "time.local", capability := "TIME", check := "chrony.tracking"
    title := "This host's NTP synchronization"
    why := "Only when a clock difference is in view: is this host's own time service synchronized?"
    when := some g_chrony, classify := some c_chrony }

def replication_plan : List PlanItem :=
  [.step serverStep, .step localDsStep, .step localKdcStep, .step localStorageStep,
    .step localKeytabStep, .step topologyStep, .step (agreementsStep loads), .step principalsStep,
    .forEach (perAgreement loads), .step timeLocalStep]

end ThePlan

def plan_inputs (peer : Option String) : Dict := [("peer", (peer.map Value.str).getD .null)]

end IpaDiagnose.Replication
