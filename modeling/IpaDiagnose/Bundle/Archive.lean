import Mathlib.Data.List.Sort
import IpaDiagnose.Lib.Bytes
import IpaDiagnose.Lib.PyValue

/-!
# Validation of a received bundle

A received archive is hostile: its entries are read one by one, only the
expected names are accepted, and structure, checksums, manifest and
content are checked, every fault as one more problem. An archive without
a problem is accepted. What reading the file, decompressing it and
walking its entries gives is the `Archive`; hashing, reading JSON and the
scan for secrets are tools the validation is given.
-/

namespace IpaDiagnose.Bundle

open Py (Value Dict)

/-! ## Members and limits -/

abbrev Content := List Nat

def BUNDLE_FORMAT : String := "ipa-diagnose-support-bundle"

def BUNDLE_SCHEMA_VERSION : Int := 1

def TOP_DIR : String := "ipa-diagnose-bundle"

def MEMBERS : List String :=
  ["README.txt", "manifest.json", "environment.json", "report.json", "healthcheck.json",
    "evidence.json", "collection-errors.json", "topology.json", "verification.json",
    "redaction-report.json", "SHA256SUMS"]

/-- Members present only when asked for. -/
def OPTIONAL_MEMBERS : List String := ["access.json", "client.json", "replication.json"]

def ALL_MEMBERS : List String :=
  ["README.txt", "manifest.json", "environment.json", "report.json", "healthcheck.json",
    "evidence.json", "collection-errors.json", "topology.json", "verification.json"]
    ++ OPTIONAL_MEMBERS ++ ["redaction-report.json", "SHA256SUMS"]

/-- The members that carry evidence. -/
def EVIDENCE_MEMBERS : List String :=
  ["environment.json", "access.json", "client.json", "replication.json", "report.json",
    "healthcheck.json", "evidence.json", "collection-errors.json", "topology.json",
    "verification.json"]

def MEMBER_BYTES : Nat := 8 * 1024 * 1024

def MAX_ENTRIES : Nat := 64

def MAX_JSON_DEPTH : Nat := 64

def MAX_SCAN_STRINGS : Nat := 200000

def MAX_SCAN_CHARS : Nat := 24 * 1024 * 1024

def MAX_SCAN_SECONDS : Nat := 60

/-- How the files of other archive and compression formats begin. -/
def MAGIC : List Content :=
  [[0x1f, 0x8b], [0x50, 0x4b, 3, 4], [0x42, 0x5a, 0x68], [0xfd, 0x37, 0x7a, 0x58, 0x5a],
    [0x37, 0x7a, 0xbc, 0xaf], [0x28, 0xb5, 0x2f, 0xfd]]

/-! ## What is read of an archive -/

structure TarEntry where
  name : String
  paxHeaders : Bool
  regular : Bool
  data : Content

/-- The entries an archive's reader gives, the exception it ended with,
and whether anything but zeros follows the last entry. -/
structure Tar where
  entries : List TarEntry
  broken : Option String
  trailing : Bool

/-- A file that was read and decompressed, or why it was not. -/
abbrev Archive := Except String Tar

/-- What the validation does not do itself: hexadecimal SHA-256 digests,
JSON without duplicate keys and non-finite numbers, the categories of
secrets in a text, the keys that name a secret, and whether the time for
the scan is over at a string. -/
structure Tools where
  sha256 : Content → String
  loads : Content → Option Value
  scanText : String → String → Bool → List String
  secretKey : String → Bool
  late : Nat → Bool

structure Validation where
  problems : List String := []
  warnings : List String := []
  summary : Dict := []

/-! ## Entries -/

def unexpectedName (name : String) : Bool :=
  name.toList.any (fun c => 128 ≤ c.toNat || c == '\\' || c.toNat == 0)
    || PyStr.startsWith name "/"
    || (name.toList.splitOn '/').contains "..".toList
    || !PyStr.startsWith name (TOP_DIR ++ "/")
    || !ALL_MEMBERS.contains (PyStr.drop name (TOP_DIR.toList.length + 1))

/-- The name of the member an entry holds. -/
def memberName (name : String) : String := PyStr.drop name (TOP_DIR.toList.length + 1)

structure ReadEntries where
  problems : List String := []
  contents : List (String × Content) := []

def ReadEntries.refuse (r : ReadEntries) (problem : String) : ReadEntries :=
  { r with problems := r.problems ++ [problem] }

def readEntry (r : ReadEntries) (e : TarEntry) : ReadEntries :=
  let shown := Py.reprStr (PyStr.take e.name 80)
  if e.paxHeaders then
    r.refuse ("entry " ++ shown
      ++ " carries extended (pax) headers, which this format never uses")
  else if !e.regular then
    r.refuse ("entry " ++ shown
      ++ " is not a regular file (links, devices and directories are refused)")
  else if unexpectedName e.name then r.refuse ("unexpected entry name " ++ shown)
  else if (r.contents.lookup (memberName e.name)).isSome then
    r.refuse ("duplicate entry " ++ shown)
  else if MEMBER_BYTES < e.data.length then
    r.refuse ("entry " ++ shown ++ " is larger than " ++ toString MEMBER_BYTES ++ " bytes")
  else { r with contents := r.contents ++ [(memberName e.name, e.data)] }

def readEntries (entries : List TarEntry) : ReadEntries := entries.foldl readEntry {}

/-! ## Texts of a member -/

/-- The text of bytes in ASCII. -/
def ascii? (data : Content) : Option (List Char) :=
  if data.all (· < 128) then some (data.map Char.ofNat) else none

/-- The text of bytes in UTF-8. -/
def utf8? (data : Content) : Option String :=
  if Bytes.encode (Bytes.decode data) = data then some (String.ofList (Bytes.decode data))
  else none

mutual

/-- Nesting no deeper than `room` levels. -/
def depthOk : Nat → Value → Bool
  | 0, _ => false
  | room + 1, .list xs => depthOkList room xs
  | room + 1, .dict kvs => depthOkDict room kvs
  | _ + 1, _ => true

def depthOkList : Nat → List Value → Bool
  | _, [] => true
  | room, x :: xs => depthOk room x && depthOkList room xs

def depthOkDict : Nat → List (String × Value) → Bool
  | _, [] => true
  | room, (_, x) :: kvs => depthOk room x && depthOkDict room kvs

end

mutual

/-- Every string of a document with the key it stands under; a key itself
stands under none. -/
def jsonStrings (key : String) : Value → List (String × String)
  | .str s => [(key, s)]
  | .list xs => jsonStringsList key xs
  | .dict kvs => jsonStringsDict kvs
  | _ => []

def jsonStringsList (key : String) : List Value → List (String × String)
  | [] => []
  | x :: xs => jsonStrings key x ++ jsonStringsList key xs

def jsonStringsDict : List (String × Value) → List (String × String)
  | [] => []
  | (k, x) :: kvs => ("", k) :: jsonStrings k x ++ jsonStringsDict kvs

end

mutual

/-- How many fields that `named` selects hold anything but a marker, null
or a boolean. -/
def unremovedFields (named : String → Bool) : Value → Nat
  | .list xs => unremovedFieldsList named xs
  | .dict kvs => unremovedFieldsDict named kvs
  | _ => 0

def unremovedFieldsList (named : String → Bool) : List Value → Nat
  | [] => 0
  | x :: xs => unremovedFields named x + unremovedFieldsList named xs

def unremovedFieldsDict (named : String → Bool) : List (String × Value) → Nat
  | [] => 0
  | (k, x) :: kvs =>
      let removed : Bool :=
        match x with
        | .str s => s == "[REMOVED]"
        | .null => true
        | .bool _ => true
        | _ => false
      (if named k && !removed then 1 else unremovedFields named x) + unremovedFieldsDict named kvs

end

section Checks

variable (tools : Tools)

def strictJson (data : Content) : Option Value :=
  (tools.loads data).filter (depthOk MAX_JSON_DEPTH)

/-! ## Checksums -/

/-- A line of checksums: a digest, two blanks and a name. -/
def sumsLine? (line : List Char) : Option (String × String) :=
  match PyStr.cutChars "  ".toList line with
  | none => none
  | some (digest, name) =>
      if digest.length ≠ 64 || digest.any (fun c => !"0123456789abcdef".toList.contains c)
          || !ALL_MEMBERS.contains (String.ofList name) || String.ofList name == "SHA256SUMS" then
        none
      else some (String.ofList name, String.ofList digest)

/-- The digests listed, by name, or the problem of the first line that is
wrong. -/
def listLines : List (List Char) → List (String × String) → Except String (List (String × String))
  | [], listed => .ok listed
  | line :: lines, listed =>
      match sumsLine? line with
      | none => .error "SHA256SUMS has a malformed line"
      | some (name, digest) =>
          if (listed.lookup name).isSome then .error ("SHA256SUMS lists " ++ name ++ " twice")
          else listLines lines (listed ++ [(name, digest)])

/-- The problem a member has with the digests listed. -/
def sumProblem (contents : List (String × Content)) (listed : List (String × String))
    (name : String) : Option String :=
  if name = "SHA256SUMS" then none
  else
    match contents.lookup name with
    | none => none
    | some content =>
        match listed.lookup name with
        | none => some ("SHA256SUMS does not list " ++ name)
        | some digest =>
            if tools.sha256 content ≠ digest then
              some ("checksum mismatch for " ++ name ++ " (changed after the bundle was created)")
            else none

def checkSums (contents : List (String × Content)) : List String :=
  match contents.lookup "SHA256SUMS" with
  | none => []
  | some sums =>
      match ascii? sums with
      | none => ["SHA256SUMS is not plain ASCII"]
      | some text =>
          let lines := text.splitOn '\n'
          let unended := if lines.getLast? = some [] then []
            else ["SHA256SUMS does not end with a newline"]
          unended ++
            match listLines lines.dropLast [] with
            | .error problem => [problem]
            | .ok listed => ALL_MEMBERS.filterMap (sumProblem tools contents listed)

/-! ## Manifest -/

def KNOWN_FIELDS : List String :=
  ["bundle_format", "bundle_schema_version", "created_at", "created_by", "source_mode",
    "source_description", "report_schema_version", "overall_status", "evidence_completeness",
    "evidence_tiers", "counts", "sanitization", "truncation", "content_complete", "limits",
    "volatile_fields", "integrity", "members"]

def field (d : Dict) (k : String) : Value := (d.lookup k).getD .null

def strings (vs : List Value) : List String :=
  vs.filterMap fun v =>
    match v with
    | .str s => some s
    | _ => none

/-- The members a manifest must list. -/
def expectedMembers (contents : List (String × Content)) : List String :=
  ALL_MEMBERS.filter fun n => n != "manifest.json" && n != "SHA256SUMS"
    && (MEMBERS.contains n || (contents.lookup n).isSome)

def entryProblem (contents : List (String × Content)) (e : Dict) : Option String :=
  match field e "name" with
  | .str n =>
      match contents.lookup n with
      | none => none
      | some content =>
          if !(field e "sha256").pyEq (.str (tools.sha256 content))
              || !(field e "bytes").pyEq (.int content.length) then
            some ("manifest.json checksum or size mismatch for " ++ n)
          else none
  | _ => none

/-- The entries of the members list, if all are objects. -/
def entryDicts (v : Value) : Option (List Dict) :=
  match v with
  | .list xs => xs.mapM fun x =>
      match x with
      | .dict d => some d
      | _ => none
  | _ => none

def checkMembers (contents : List (String × Content)) (m : Dict) : List String :=
  match entryDicts (field m "members") with
  | none => ["manifest.json members list is malformed"]
  | some entries =>
      let names := entries.map (field · "name")
      let expected := expectedMembers contents
      (if !(strings names).isPerm expected || names.length ≠ expected.length then
        ["manifest.json members do not match the archive"] else [])
        ++ entries.filterMap (entryProblem tools contents)

/-- The problems and the warnings of the manifest, and the manifest if it
describes a bundle. -/
def checkManifest (contents : List (String × Content)) :
    List String × List String × Option Dict :=
  match contents.lookup "manifest.json" with
  | none => ([], [], none)
  | some data =>
      match strictJson tools data with
      | none => (["manifest.json is not valid JSON (duplicate keys and NaN/Infinity are refused)"],
          [], none)
      | some (.dict m) =>
          if !(field m "bundle_format").pyEq (.str BUNDLE_FORMAT) then
            (["manifest.json does not describe an ipa-diagnose support bundle"], [], none)
          else
            match field m "bundle_schema_version" with
            | .int ver =>
                if ver ≠ BUNDLE_SCHEMA_VERSION then
                  (["bundle schema " ++ toString ver
                    ++ " is not supported by this ipa-diagnose (it reads schema "
                    ++ toString BUNDLE_SCHEMA_VERSION ++ ")"], [], none)
                else
                  let mode := field m "source_mode"
                  let unknown := m.filter fun f => !KNOWN_FIELDS.contains f.1
                  ((if mode.pyEq (.str "LIVE") || mode.pyEq (.str "REPLAY") then []
                      else ["manifest.json source_mode is neither LIVE nor REPLAY"])
                      ++ checkMembers tools contents m,
                    if unknown.isEmpty then []
                    else ["manifest.json has " ++ toString unknown.length
                      ++ " field(s) this version does not know; ignored"],
                    some m)
            | _ => (["manifest.json has no valid bundle_schema_version"], [], none)
      | some _ => (["manifest.json is not a JSON object"], [], none)

/-! ## Content -/

/-- How many strings and characters were scanned. -/
structure Budget where
  strings : Nat := 0
  chars : Nat := 0

/-- One more text; nothing when the scan would go beyond its limits. -/
def Budget.spend (b : Budget) (text : String) : Option Budget :=
  let b : Budget := ⟨b.strings + 1, b.chars + PyStr.len text⟩
  if MAX_SCAN_STRINGS < b.strings ∨ MAX_SCAN_CHARS < b.chars
      ∨ (b.strings % 256 = 0 ∧ tools.late b.strings = true) then none
  else some b

def scanAll (multiline : Bool) : List (String × String) → Budget → Option (List String × Budget)
  | [], b => some ([], b)
  | (key, text) :: texts, b =>
      match b.spend tools text with
      | none => none
      | some b =>
          (scanAll multiline texts b).map fun r =>
            (tools.scanText text key multiline ++ r.1, r.2)

/-- The problems of one member. -/
def checkMember (mode : Value) (name : String) (data : Content) (b : Budget) :
    Option (List String × Budget) :=
  let report (found : List String) : List String :=
    (found.eraseDups.insertionSort (· ≤ ·)).map fun cat =>
      name ++ ": " ++ cat ++ " - do not share this bundle"
  match utf8? data with
  | none => some ([name ++ " is not valid UTF-8"], b)
  | some text =>
      if PyStr.endsWith name ".json" then
        match strictJson tools data with
        | none => some ([name ++ " is not valid JSON (duplicate keys and NaN/Infinity are refused)"],
            b)
        | some (.dict obj) =>
            let said := field obj "source_mode"
            let wrongMode := if name ≠ "manifest.json" && mode.truthy && !said.pyEq mode then
                [name ++ " says source_mode " ++ Py.reprStr (PyStr.take said.toStr 10)
                  ++ ", the manifest says " ++ mode.toStr]
              else []
            let unremoved := if EVIDENCE_MEMBERS.contains name
                && unremovedFields tools.secretKey (.dict obj) ≠ 0 then
                ["secret-named field not removed"] else []
            (scanAll tools false (jsonStrings "" (.dict obj)) b).map fun r =>
              (wrongMode ++ report (r.1 ++ unremoved), r.2)
        | some _ => some ([name ++ " is not a JSON object"], b)
      else (scanAll tools true [("", text)] b).map fun r => (report r.1, r.2)

def checkContent (contents : List (String × Content)) (mode : Value) :
    List String → Budget → Option (List String)
  | [], _ => some []
  | name :: names, b =>
      match contents.lookup name with
      | none => checkContent contents mode names b
      | some data =>
          if name = "SHA256SUMS" then checkContent contents mode names b
          else
            match checkMember tools mode name data b with
            | none => none
            | some (problems, b) => (checkContent contents mode names b).map (problems ++ ·)

/-! ## The whole validation -/

def missingMembers (contents : List (String × Content)) : List String :=
  MEMBERS.filter fun m => (contents.lookup m).isNone

def nested (contents : List (String × Content)) : List String :=
  (contents.filter fun c => MAGIC.any (·.isPrefixOf c.2)).map fun c =>
    c.1 ++ " contains a nested archive or compressed data"

/-- A value that is shown as it is. -/
def plain : Value → Value
  | .list _ => .null
  | .dict _ => .null
  | .float _ => .null
  | v => v

def summaryOf (m : Dict) : Dict :=
  (["created_at", "source_mode", "overall_status", "evidence_completeness",
      "bundle_schema_version"].map fun k => (k, plain (field m k)))
    ++ [("ipa_diagnose_version",
        match field m "created_by" with
        | .dict by_ => plain (field by_ "version")
        | _ => .null),
      ("content_complete", plain (field m "content_complete"))]

/-- The checks of the members that were read. -/
def checkMembersRead (contents : List (String × Content)) : Validation :=
  let missing := missingMembers contents
  let manifest := checkManifest tools contents
  let mode := (manifest.2.2.map (field · "source_mode")).getD .null
  match checkContent tools contents mode ALL_MEMBERS {} with
  | none =>
      { problems := ["too large to check within the validation limits ("
          ++ toString MAX_SCAN_STRINGS ++ " strings, " ++ toString MAX_SCAN_CHARS
          ++ " characters, " ++ toString MAX_SCAN_SECONDS ++ " s); not validated"] }
  | some content =>
      { problems := (if missing.isEmpty then [] else ["missing members: " ++ PyStr.join ", " missing])
          ++ nested contents ++ checkSums tools contents ++ manifest.1 ++ content
        warnings := manifest.2.1
        summary := (manifest.2.2.map summaryOf).getD [] }

def validate (archive : Archive) : Validation :=
  match archive with
  | .error problem => { problems := [problem] }
  | .ok tar =>
      let read := readEntries (tar.entries.take MAX_ENTRIES)
      if MAX_ENTRIES < tar.entries.length then
        { problems := read.problems ++ ["more than " ++ toString MAX_ENTRIES ++ " archive entries"] }
      else
        match tar.broken with
        | some exc => { problems := read.problems ++ ["not a readable tar archive (" ++ exc ++ ")"] }
        | none =>
            if tar.trailing then
              { problems := read.problems ++ ["data after the last readable archive entry"
                  ++ " (other tar programs may extract hidden files)"] }
            else
              let checked := checkMembersRead tools read.contents
              { checked with problems := read.problems ++ checked.problems }

end Checks

end IpaDiagnose.Bundle
