import IpaDiagnose.Bundle.Sanitize
import IpaDiagnose.Bundle.Written
import IpaDiagnose.Lib.JsonText

/-!
# Building a bundle

The documents that a run's evidence and report are projected to go through
the sanitizer, one after the other; counts, a report on the redaction, a
manifest and checksums are added, and everything is written, unless a
member or the whole would be too large. The projections are given, as are
the sanitizer's rules and what it counted.
-/

namespace IpaDiagnose.Bundle

open Py (Value Dict Exc)

/-! ## Words and limits -/

inductive Mode where
  | live
  | replay
deriving DecidableEq

def Mode.word : Mode → String
  | .live => "LIVE"
  | .replay => "REPLAY"

def Mode.source : Mode → String
  | .live => "LIVE - collected from the diagnosed host when the bundle was created"
  | .replay => "REPLAY - read from a recorded fixture directory; it describes no live system"

def Mode.description : Mode → String
  | .live =>
      "LIVE: collected from the diagnosed host (HOST-001) when the bundle was created"
  | .replay =>
      "REPLAY: read from a recorded fixture directory (path not included); describes no live system"

def TOTAL_BYTES : Nat := 32 * 1024 * 1024

def PROCESSING_SECONDS : Nat := 300

def LIMITS : Dict :=
  [("max_findings", .int 1000), ("max_evidence_items", .int 500),
    ("max_collection_errors", .int 200), ("max_diagnoses", .int 200),
    ("max_undiagnosed_findings", .int 500), ("max_baseline_diagnoses", .int 100),
    ("text_chars", .int TEXT_LIMIT), ("prose_chars", .int PROSE_LIMIT),
    ("key_chars", .int KEY_LIMIT), ("unprocessed_text_chars", .int HARD_LIMIT),
    ("max_mapping_keys", .int MAX_DICT_KEYS), ("max_list_items", .int MAX_LIST_ITEMS),
    ("max_nesting", .int MAX_DEPTH), ("member_bytes", .int MEMBER_BYTES),
    ("total_bytes", .int TOTAL_BYTES), ("processing_seconds", .int PROCESSING_SECONDS)]

def VOLATILE_FIELDS : List String :=
  ["manifest.json:created_at", "README.txt:Created", "report.json:generated_at",
    "healthcheck.json:findings[].when", "evidence.json:items[].collected_at"]

def EXCLUDED_CLASSES : List String :=
  ["passwords and Directory Manager credentials", "private keys (TLS, SSH, CA)",
    "keytab contents", "Kerberos tickets and credential caches",
    "API, bearer and cloud tokens", "cookies and authorization headers",
    "AI provider credentials", "environment variables and shell history",
    "raw journals and raw tool output", "full LDAP entries and configuration files",
    "commands of offered fixes and rollbacks", "the local replay fixture path",
    "the pseudonym mapping itself"]

def DESCRIPTIONS : List (String × String) :=
  [("access.json", "one access question (ipa-diagnose access): states, FreeIPA's decision, "
      ++ "rule paths; pseudonymized"),
    ("client.json", "one client investigation (ipa-diagnose client): states, diagnosis codes, "
      ++ "step outcomes; pseudonymized, structure only"),
    ("replication.json", "one replication investigation (ipa-diagnose replication): per-suffix, "
      ++ "per-direction states, diagnosis codes, cause-chain structure, step outcomes; "
      ++ "pseudonymized, structure only"),
    ("README.txt", "what this bundle is and is not, and how to inspect it"),
    ("manifest.json", "bundle format, versions, source mode, sanitization status, truncation, "
      ++ "member checksums"),
    ("environment.json", "OS and FreeIPA component versions of the diagnosed host"),
    ("report.json", "the diagnosis: status, completeness, diagnoses, undiagnosed findings, "
      ++ "resolutions (commands omitted)"),
    ("healthcheck.json", "ipa-healthcheck results, normalized (problems in full, successes as "
      ++ "check names only)"),
    ("evidence.json", "targeted evidence items ipa-diagnose collected, structured"),
    ("collection-errors.json", "what could not be collected and what that leaves unverified"),
    ("topology.json", "replication agreements and RUV entries seen from this host"),
    ("verification.json", "context about a saved verify baseline (context only)"),
    ("redaction-report.json", "counts of what was pseudonymized, redacted, removed and truncated"),
    ("SHA256SUMS", "SHA-256 of every other member (sha256sum -c format)")]

/-- The lines of `README.txt`. -/
def readmeLines (mode : Mode) (createdAt version : String) (localHost : Option String) :
    List String :=
  ["ipa-diagnose support bundle",
    "===========================",
    "",
    "Format:  " ++ BUNDLE_FORMAT ++ ", schema " ++ toString BUNDLE_SCHEMA_VERSION,
    "Created: " ++ createdAt ++ " by ipa-diagnose " ++ version,
    "Source:  " ++ mode.source,
    "Host:    " ++ localHost.getD "HOST-001" ++ " (the host this bundle describes)",
    "",
    "WHAT THIS IS",
    "  One structured, sanitized snapshot of a single ipa-diagnose run, made to be reviewed",
    "  and then shared with someone helping you troubleshoot FreeIPA / IdM. It was created on",
    "  request; nothing was uploaded, and ipa-diagnose never sends a bundle anywhere.",
    "",
    "WHAT THIS IS NOT",
    "  Not a backup, not a sosreport, not a copy of logs, LDAP entries or configuration.",
    "  Not live evidence: it records what one host reported at one time.",
    "  Not instructions: fixes are listed by procedure and status only, without commands.",
    "  Not encrypted: share it over a channel you trust.",
    "  A recorded fix is never a fix for another machine; re-run ipa-diagnose there.",
    "",
    "PRIVACY",
    "  Host names, DNS domains, Kerberos realms, LDAP suffixes, Directory Server instance",
    "  names, IP addresses, user, group, host group and service names that ipa-diagnose could",
    "  identify are replaced by pseudonyms such as HOST-002 or REALM-001. Pseudonyms are",
    "  numbered in this bundle only and are consistent across all of its files; the mapping",
    "  to real names is not stored anywhere.",
    "  Values that look like credentials are replaced with [REDACTED:category] and",
    "  secret-named fields with [REMOVED]. Excluded by design: credentials of any kind,",
    "  private keys, keytab contents, Kerberos tickets and caches, tokens, cookies, raw",
    "  journals and raw tool output, full LDAP entries, configuration files, environment",
    "  variables, shell history, and fix commands.",
    "  Before the bundle was written, every file was scanned for the real identifiers that",
    "  were replaced and for credential patterns; the bundle is only written if that scan",
    "  finds nothing.",
    "  Detection is pattern-based and cannot be perfect. The bundle still contains",
    "  operational detail: service and unit names, versions, error text, timestamps,",
    "  certificate expiry dates and the shape of the topology. Review it before sharing.",
    "  redaction-report.json lists what was changed (counts only).",
    "",
    "EVIDENCE TIERS",
    "  manifest.json source_mode is LIVE or REPLAY; every other file repeats it.",
    "  In report.json each resolution carries its knowledge tier and whether it was",
    "  definitive for the diagnosed host: FIXTURE_ONLY (tested on recorded evidence only),",
    "  LIVE_VERIFIED (applied and verified in a live lab), BUILT_IN_VERIFIED (also reviewed",
    "  and promoted; definitive only on the exact live-verified FreeIPA version and OS).",
    "",
    "CHECKING IT",
    "  ipa-diagnose bundle validate <this file>     (reads the archive, extracts nothing)",
    "  or, after extracting: sha256sum -c SHA256SUMS",
    "  Checksums detect accidental change. They are not a signature and do not prove who",
    "  made the bundle: anyone who edits it can recompute them.",
    "",
    "IF YOU RECEIVED THIS BUNDLE",
    "  Treat it as untrusted input. Prefer ipa-diagnose bundle validate over extracting it,",
    "  and never run anything from it. Its content describes another system at another",
    "  time and is never a diagnosis of the machine you are on."]

/-! ## What is built from -/

/-- Names with how often each was counted. -/
structure Counter where
  entries : List (String × Nat)
  nodup : (Assoc.keys entries).Nodup

def Counter.toDict (c : Counter) : Dict := c.entries.map fun e => (e.1, .int e.2)

/-- `dict(sorted(c.items()))` -/
def Counter.sorted (c : Counter) : Dict :=
  (c.entries.insertionSort fun a b => a.1 ≤ b.1).map fun e => (e.1, .int e.2)

/-- The sanitizer: the rules of its walks, and what it says of the names
and secrets it has come across. -/
structure Sanitizer (S : Type) extends Rules S where
  pseudonymCounts : S → Counter
  heuristicHosts : S → Nat
  pseudonymShapedInput : S → Nat
  redactions : S → Counter
  localHostPseudonym : S → Option String

/-- A run as it is projected to documents, with what the projections have
dropped. -/
structure Projected where
  mode : Mode
  createdAt : String
  version : String
  environment : Dict
  report : Dict
  healthcheck : Dict
  evidence : Dict
  errors : Dict
  topology : Dict
  verification : Dict
  access : Option Dict := none
  client : Option Dict := none
  replication : Option Dict := none
  dropped : Counter

/-- The documents in the order they were projected. -/
def Projected.raw (run : Projected) : List (String × Dict) :=
  [("environment.json", run.environment), ("report.json", run.report),
    ("healthcheck.json", run.healthcheck), ("evidence.json", run.evidence),
    ("collection-errors.json", run.errors), ("topology.json", run.topology),
    ("verification.json", run.verification)]
    ++ (run.access.map fun doc => ("access.json", doc)).toList
    ++ (run.client.map fun doc => ("client.json", doc)).toList
    ++ (run.replication.map fun doc => ("replication.json", doc)).toList

/-- `BundleTooLarge` -/
structure TooLarge where
  message : String

/-! ## Documents -/

section Documents

variable {S : Type} (sanitizer : Sanitizer S)

/-- `s.transform(doc)` of a document. -/
def transformDocument (doc : Dict) (p : Pass S) : Except SanitizeTimeout (Dict × Pass S) :=
  transformEntries sanitizer.toRules 0 doc.length doc [] p

def transformAll : List (String × Dict) → Pass S →
    Except SanitizeTimeout (List (String × Dict) × Pass S)
  | [], p => .ok ([], p)
  | (name, doc) :: docs, p =>
      match transformDocument sanitizer doc p with
      | .error e => .error e
      | .ok (doc, p) => (transformAll docs p).map fun r => ((name, doc) :: r.1, r.2)

end Documents

/-- A document by its name. -/
def document (final : List (String × Dict)) (name : String) : Value :=
  .dict ((final.lookup name).getD [])

/-- The environment document says which host it is about. -/
def noteHost (localHost : Option String) (final : List (String × Dict)) : List (String × Dict) :=
  final.map fun d =>
    if d.1 = "environment.json" then
      (d.1, Assoc.put "note"
        (.str (localHost.getD "HOST-001" ++ " is the host this bundle describes.")) d.2)
    else d

/-- `len(v)` -/
def lengthOf : Value → Except (Exc TooLarge) Nat
  | .list xs => .ok xs.length
  | .dict kvs => .ok kvs.length
  | .str s => .ok (PyStr.len s)
  | _ => .error .typeError

structure Counts where
  diagnoses : Nat
  resolutions : Nat
  undiagnosedFindings : Nat
  healthcheckFindings : Nat
  healthcheckProblems : Nat
  evidenceItems : Nat
  collectionErrors : Nat
  replicationAgreements : Nat

def Counts.toDict (c : Counts) : Dict :=
  [("diagnoses", .int c.diagnoses), ("resolutions", .int c.resolutions),
    ("undiagnosed_findings", .int c.undiagnosedFindings),
    ("healthcheck_findings", .int c.healthcheckFindings),
    ("healthcheck_problems", .int c.healthcheckProblems),
    ("evidence_items", .int c.evidenceItems), ("collection_errors", .int c.collectionErrors),
    ("replication_agreements", .int c.replicationAgreements)]

/-- Whether a finding is not a success. -/
def isProblem (finding : Value) : Except (Exc TooLarge) Bool := do
  let severity ← finding.getItem "severity"
  pure (!severity.pyEq (.str "SUCCESS"))

def countsOf (final : List (String × Dict)) : Except (Exc TooLarge) Counts := do
  let diagnoses ← lengthOf (← (document final "report.json").getItem "diagnoses")
  let resolutions ← lengthOf (← (document final "report.json").getItem "resolutions")
  let undiagnosed ← lengthOf (← (document final "report.json").getItem "undiagnosed_findings")
  let findings ← (document final "healthcheck.json").getItem "findings"
  let findingCount ← lengthOf findings
  let problems ← (← findings.iter).filterM isProblem
  let items ← lengthOf (← (document final "evidence.json").getItem "items")
  let errors ← lengthOf (← (document final "collection-errors.json").getItem "errors")
  let agreements ← lengthOf (← (document final "topology.json").getItem "agreements")
  pure ⟨diagnoses, resolutions, undiagnosed, findingCount, problems.length, items, errors,
    agreements⟩

/-- What the manifest repeats of the report. -/
structure Headline where
  schemaVersion : Value
  overallStatus : Value
  level : Value
  tiers : List Value

/-- The tier of a resolution, if it has one. -/
def tierOf (resolution : Value) : Except (Exc TooLarge) (Option Value) := do
  let tier ← resolution.get "tier" .null
  pure (if tier.truthy then some tier else none)

def headlineOf (report : Value) : Except (Exc TooLarge) Headline := do
  let schemaVersion ← report.getItem "report_schema_version"
  let overallStatus ← report.getItem "overall_status"
  let completeness ← report.getItem "evidence_completeness"
  let level ← completeness.getItem "level"
  let resolutions ← (← report.getItem "resolutions").iter
  let tiers ← resolutions.mapM tierOf
  let tiers ← Py.sortedValues (← Py.setOf tiers.reduceOption)
  pure ⟨schemaVersion, overallStatus, level, tiers⟩

/-! ## Report on the redaction and manifest -/

section Written

variable {S : Type} (sanitizer : Sanitizer S) (run : Projected) (p : Pass S)

def truncation : Dict :=
  [("strings_truncated", .int p.truncated), ("strings_omitted_as_too_large", .int p.omitted),
    ("structures_trimmed", .int p.structureTrimmed),
    ("entries_dropped_by_limits", .dict run.dropped.sorted)]

/-- Nothing was cut, omitted or dropped. -/
def complete : Bool :=
  p.truncated == 0 && p.omitted == 0 && p.structureTrimmed == 0 && run.dropped.entries.isEmpty

def texts (ss : List String) : Value := .list (ss.map .str)

def privacy : Dict :=
  [("source_mode", .str run.mode.word),
    ("pseudonymized_identifiers", .dict (sanitizer.pseudonymCounts p.state).toDict),
    ("identifiers_found_only_by_host_name_heuristic", .int (sanitizer.heuristicHosts p.state)),
    ("pseudonym_shaped_text_in_input", .int (sanitizer.pseudonymShapedInput p.state)),
    ("redacted_values", .dict (sanitizer.redactions p.state).sorted),
    ("secret_named_fields_removed", .int p.removedFields),
    ("raw_output_fields_dropped", .int p.rawFieldsDropped),
    ("certificate_serial_fields_removed", .int p.serialFieldsRemoved),
    ("truncation", .dict (truncation run p)),
    ("excluded_by_design", texts EXCLUDED_CLASSES),
    ("pseudonym_mapping_stored", .bool false),
    ("leak_self_test", .str "passed"),
    ("limitations", texts
      ["Secret and identity detection is pattern-based and cannot be complete.",
        "Names that appear only in free text and match no known host, domain, realm or pattern "
          ++ "stay as written.",
        "Operational detail (unit names, versions, error text, timestamps, topology shape) "
          ++ "remains."])]

/-- What the manifest says of a member. -/
def memberEntry (sha256 : Content → String) (member : String × Content) : Dict :=
  [("name", .str member.1), ("sha256", .str (sha256 member.2)),
    ("bytes", .int member.2.length),
    ("content", .str ((DESCRIPTIONS.lookup member.1).getD ""))]

def manifest (sha256 : Content → String) (headline : Headline) (counts : Counts)
    (members : List (String × Content)) : Dict :=
  [("bundle_format", .str BUNDLE_FORMAT),
    ("bundle_schema_version", .int BUNDLE_SCHEMA_VERSION),
    ("created_at", .str run.createdAt),
    ("created_by", .dict [("tool", .str "ipa-diagnose"), ("version", .str run.version),
      ("command", .str "ipa-diagnose bundle")]),
    ("source_mode", .str run.mode.word),
    ("source_description", .str run.mode.description),
    ("report_schema_version", headline.schemaVersion),
    ("overall_status", headline.overallStatus),
    ("evidence_completeness", headline.level),
    ("evidence_tiers", .dict [("diagnostic_evidence", .str run.mode.word),
      ("resolution_knowledge", .list headline.tiers)]),
    ("counts", .dict counts.toDict),
    ("sanitization", .dict [
      ("pipeline", texts ["structure", "remove prohibited fields", "redact", "pseudonymize",
        "bound", "leak self-test"]),
      ("pseudonymization", .str
        "bundle-local sequential pseudonyms; the mapping is not stored"),
      ("leak_self_test", .str "passed"), ("secret_detection_complete", .bool false)]),
    ("truncation", .dict (truncation run p)),
    ("content_complete", .bool (complete run p)),
    ("limits", .dict LIMITS),
    ("volatile_fields", texts VOLATILE_FIELDS),
    ("integrity", .str ("SHA-256 values detect accidental change. They are not a signature: "
      ++ "anyone who edits the bundle can recompute them.")),
    ("members", .list (members.map fun m => .dict (memberEntry sha256 m)))]

end Written

/-! ## Members -/

def readme (run : Projected) (localHost : Option String) : Content :=
  Bytes.encode ((readmeLines run.mode run.createdAt run.version localHost).flatMap
    fun line => line.toList ++ ['\n'])

/-- The text of a document. -/
def dumpsText (doc : Dict) : List Char := (Value.dict doc).pretty 0 ++ ['\n']

def dumps (doc : Dict) : Content := Bytes.encode (dumpsText doc)

/-- Members in the order a bundle has them. -/
def inOrder (members : List (String × Content)) : List (String × Content) :=
  ALL_MEMBERS.filterMap fun name => (members.lookup name).map fun data => (name, data)

/-- A bundle that was built, with the documents its members were written
from. -/
structure Built where
  members : List (String × Content)
  documents : List (String × Dict)
  mode : Mode

/-- The first limit that members exceed. -/
def tooLarge? (members : List (String × Content)) : Option String :=
  match members.find? fun m => MEMBER_BYTES < m.2.length with
  | some m => some (m.1 ++ " would be " ++ toString m.2.length ++ " bytes (limit "
      ++ toString MEMBER_BYTES ++ ")")
  | none =>
      if TOTAL_BYTES < (members.map fun m => m.2.length).sum then
        some ("the bundle would exceed " ++ toString TOTAL_BYTES ++ " bytes")
      else none

/-- The members of a bundle: what was written, the manifest and the
checksums. -/
def withChecksums (sha256 : Content → String) (written : List (String × Content))
    (manifest : Content) : List (String × Content) :=
  let members := inOrder (written ++ [("manifest.json", manifest)])
  inOrder (members ++ [("SHA256SUMS", sumsContent (members.map fun m => (m.1, sha256 m.2)))])

/-- The bundle of a run. `prepared` is the sanitizer when all names were
discovered and all documents projected. -/
def build {S : Type} (sanitizer : Sanitizer S) (sha256 : Content → String)
    (prepared : Except SanitizeTimeout S) (run : Projected) : Except (Exc TooLarge) Built :=
  match prepared.bind fun state => transformAll sanitizer run.raw { state := state } with
  | .error _ => .error (.own ⟨"sanitizing the evidence took longer than "
      ++ toString PROCESSING_SECONDS ++ " seconds"⟩)
  | .ok (final, p) => do
      let localHost := sanitizer.localHostPseudonym p.state
      let final := noteHost localHost final
      let counts ← countsOf final
      let documents := final ++ [("redaction-report.json", privacy sanitizer run p)]
      let written := inOrder (("README.txt", readme run localHost)
        :: documents.map fun d => (d.1, dumps d.2))
      let headline ← headlineOf (document final "report.json")
      let manifest := manifest run p sha256 headline counts written
      let members := withChecksums sha256 written (dumps manifest)
      match tooLarge? members with
      | some message => .error (.own ⟨message⟩)
      | none => .ok ⟨members, documents ++ [("manifest.json", manifest)], run.mode⟩

/-! ## The archive -/

def MAX_ARCHIVE_BYTES : Nat := 16 * 1024 * 1024

def MAX_UNCOMPRESSED : Nat := TOTAL_BYTES + 1024 * 1024

/-- The size of a tar of members: a header of 512 bytes and the content in
whole blocks for each, two empty blocks at the end, in records of twenty
blocks. -/
def tarSize (members : List (String × Content)) : Nat :=
  let blocks := (members.map fun m => 1 + (m.2.length + 511) / 512).sum + 2
  (blocks + 19) / 20 * 20 * 512

/-- What is read of the archive that members were written to, `size` bytes
long when it is compressed. -/
def readBack (size : Nat) (members : List (String × Content)) : Archive :=
  if MAX_ARCHIVE_BYTES < size then
    .error ("larger than " ++ toString MAX_ARCHIVE_BYTES ++ " bytes")
  else if MAX_UNCOMPRESSED < tarSize members then
    .error ("decompresses to more than " ++ toString MAX_UNCOMPRESSED ++ " bytes; not read further")
  else .ok ⟨members.map plainEntry, none, false⟩

end IpaDiagnose.Bundle
