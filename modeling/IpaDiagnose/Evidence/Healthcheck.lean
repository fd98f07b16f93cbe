import IpaDiagnose.Evidence.Model
import IpaDiagnose.Lib.Bytes
import IpaDiagnose.Lib.Regex

/-!
# The health check

What becomes of the output of a run, or of a recorded one: an array of
results, each of them a finding with an id of its own, or an error that
says what was not read.
-/

namespace IpaDiagnose.Healthcheck

open Py (Value Dict)
open Regex (Re)

/-! ## Results -/

def severities : List Severity := [.success, .warning, .error, .critical, .unknown]

def parseSeverity : Value → Severity
  | .str raw => (severities.find? fun s => s.value == PyStr.upper raw).getD .unknown
  | _ => .unknown

/-- `([^\n]+)\s*$` -/
def TRACEBACK_LAST_LINE_RE : Re :=
  .seqAll [.group 1 (.plus (.cls (· != '\n'))), .star (.cls Unicode.isSpace), .eos]

/-- A value of a dictionary, if it is true. -/
def truthyField (entry : Dict) (key : String) : Option Value :=
  (entry.lookup key).filter Value.truthy

/-- The message of a result; a check that failed itself has only its
exception, or the last line of its traceback. -/
def extractMessage (kw : Dict) : String :=
  match truthyField kw "msg" with
  | some msg => msg.toStr
  | none =>
      match truthyField kw "exception" with
      | some exception => exception.toStr
      | none =>
          match truthyField kw "traceback" with
          | some traceback =>
              let text := String.ofList (PyStr.rstripChars Unicode.isSpace traceback.toStr.toList)
              match (TRACEBACK_LAST_LINE_RE.findall text).head?.bind (·.group? 1) with
              | some line => PyStr.strip line
              | none => ""
          | none => ""

/-- The text of a field, or of what stands for it. -/
def fieldText (entry : Dict) (key default : String) : String :=
  ((entry.lookup key).getD (.str default)).toStr

def sourceOf (entry : Dict) : String := fieldText entry "source" "unknown"

def checkOf (entry : Dict) : String := fieldText entry "check" "unknown"

def keywordsOf (entry : Dict) : Dict :=
  match entry.lookup "kw" with
  | some (.dict kw) => kw
  | _ => []

/-- What a result is called: its uuid, or its check and its position. -/
def nameOf (idx : Nat) (entry : Dict) : String :=
  match truthyField entry "uuid" with
  | some uuid => uuid.toStr
  | none => sourceOf entry ++ "." ++ checkOf entry ++ "." ++ toString idx

/-- A name with a position after it. -/
def numbered (name : String) (idx : Nat) : String := name ++ "#" ++ toString idx

/-- The id of a result after those that are used. -/
def findingId (used : List String) (idx : Nat) (name : String) : String :=
  if name ∈ used then numbered name idx else name

def findingOf (id : String) (entry : Dict) : Finding where
  findingId := id
  source := sourceOf entry
  check := checkOf entry
  severity := parseSeverity ((entry.lookup "result").getD .null)
  message := extractMessage (keywordsOf entry)
  keywords := keywordsOf entry
  raw := entry

/-- The findings so far, and the ids they use, the last one first. -/
structure Parsed where
  findings : List Finding := []
  used_ids : List String := []

def Parsed.entry (p : Parsed) (result : Value × Nat) : Parsed :=
  match result.1 with
  | .dict entry =>
      let id := findingId p.used_ids result.2 (nameOf result.2 entry)
      { findings := p.findings ++ [findingOf id entry], used_ids := id :: p.used_ids }
  | _ => p

def parseHealthcheckResults (raw_results : List Value) : List Finding :=
  (raw_results.zipIdx.foldl Parsed.entry {}).findings

/-! ## Documents -/

/-- How the decoding of a document ends: a `JSONDecodeError` is one kind of
`ValueError`, a number with too many digits is another. -/
inductive Loaded where
  | value (v : Value)
  | decodeError (message : String)
  | valueError (message : String)
  | recursionError (message : String)

/-- The results of an output, or the message of the exception. -/
def parseHealthcheckJsonText (loads : String → Loaded) (text : String) :
    Except String (List Value) :=
  match loads text with
  | .decodeError e | .valueError e | .recursionError e => .error e
  | .value data =>
      let data := match data with
        | .dict kvs => (kvs.lookup "results").getD data
        | _ => data
      match data with
      | .list raw_results => .ok raw_results
      | _ => .error "expected a JSON array of healthcheck results"

/-! ## What is added to the bundle -/

structure Added where
  findings : List Finding := []
  errors : List CollectionError := []

def failure (message : String) (permission_related : Bool := false) : CollectionError :=
  { collector := "ipa-healthcheck", message := message, permissionRelated := permission_related }

def failed (message : String) (permission_related : Bool := false) : Added :=
  { errors := [failure message permission_related] }

/-- A real run always includes these. -/
def coreServices (f : Finding) : Bool := PyStr.endsWith f.source "meta.services"

def FAMILIES : List String := ["ipahealthcheck.ds.", "ipahealthcheck.ipa."]

def healthcheckCoverageGap (findings : List Finding) : Option String :=
  let missing := FAMILIES.filter fun fam => !findings.any fun f => PyStr.startsWith f.source fam
  if missing = [] then none
  else some ("ipa-healthcheck reported no "
    ++ PyStr.join " and no " (missing.map (· ++ "* checks"))
    ++ "; a full run always does, so health cannot be verified from this output")

/-- The results that can be used, and an error for those that cannot, for
core services that were not checked and, in a live run, for a family of
checks that is missing. -/
def addResults (live : Bool) (none_usable : String) (raw_results : List Value) : Added :=
  let usable := raw_results.filter Value.isDict
  if usable = [] then failed none_usable
  else
    let parsed := parseHealthcheckResults raw_results
    { findings := parsed
      errors :=
        (if usable.length ≠ raw_results.length then
          [failure (toString (raw_results.length - usable.length)
            ++ " ipa-healthcheck result entries could not be read")]
        else [])
        ++ (if parsed.any coreServices then []
          else [failure ("ipa-healthcheck did not report the core service checks "
            ++ "(incomplete output)")])
        ++ (if live then
          (healthcheckCoverageGap parsed).toList.map fun gap =>
            { collector := "ipa-healthcheck-coverage", message := gap
              permissionRelated := false }
        else []) }

structure Proc where
  returncode : Int
  stdout : String
  stderr : String

/-- A run of the health check: there is none, it could not be run, or it
ran. -/
inductive Run where
  | notInstalled
  | notRun (message : String)
  | finished (proc : Proc)

def collectLive (loads : String → Loaded) : Run → Added
  | .notInstalled => failed "ipa-healthcheck is not installed or not on PATH"
  | .notRun message => failed message
  | .finished proc =>
      if proc.returncode ≠ 0 ∧ proc.returncode ≠ 1 then
        let stderr := PyStr.lower proc.stderr
        failed ("exited " ++ toString proc.returncode ++ ": "
            ++ PyStr.take (PyStr.strip proc.stderr) 300)
          (PyStr.contains stderr "permission" || PyStr.contains stderr "root")
      else if PyStr.strip proc.stdout = "" then
        failed "ipa-healthcheck produced no output (it normally needs root)" true
      else
        match parseHealthcheckJsonText loads proc.stdout with
        | .error e => failed ("could not parse output: " ++ e)
        | .ok raw_results =>
            addResults true "ipa-healthcheck returned no usable results" raw_results

/-- The recorded output in a replay directory. -/
inductive File where
  | missing
  | unreadable (message : String)
  | content (bytes : List Nat)

/-- The exceptions that leave the collection. -/
inductive Raised where
  | unicodeDecodeError
  | valueError
  | recursionError
deriving DecidableEq

/-- A text, if its bytes are one. -/
def readText (bytes : List Nat) : Option String :=
  let chars := Bytes.decode bytes
  if Bytes.encode chars = bytes then some (String.ofList chars) else none

def collectReplay (loads : String → Loaded) (fixture_path : String) :
    File → Except Raised Added
  | .missing => .ok (failed ("no healthcheck.json in replay directory " ++ fixture_path))
  | .unreadable message =>
      .ok (failed ("malformed fixture " ++ fixture_path ++ "/healthcheck.json: " ++ message))
  | .content bytes =>
      let hc_file := fixture_path ++ "/healthcheck.json"
      match readText bytes with
      | none => .error .unicodeDecodeError
      | some text =>
          match loads text with
          | .valueError _ => .error .valueError
          | .recursionError _ => .error .recursionError
          | .decodeError e => .ok (failed ("malformed fixture " ++ hc_file ++ ": " ++ e))
          | .value (.list raw_results) =>
              .ok (addResults false ("fixture " ++ hc_file ++ " contains no usable results")
                raw_results)
          | .value _ => .ok (failed ("fixture " ++ hc_file ++ " is not a JSON array"))

/-- Where the results come from. -/
inductive Source where
  | live (run : Run)
  | replay (fixture_path : String) (file : File)

def collectHealthcheck (loads : String → Loaded) : Source → Except Raised Added
  | .live run => .ok (collectLive loads run)
  | .replay fixture_path file => collectReplay loads fixture_path file

end IpaDiagnose.Healthcheck
