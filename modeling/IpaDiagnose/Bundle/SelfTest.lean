import IpaDiagnose.Bundle.Archive
import IpaDiagnose.TextSafe

/-!
# The leak self-test

Every finished member is read back before anything is written: a real
identifier, a secret, a local path or malformed content in it refuses the
bundle. An identifier is looked for by its detector, and a detector is
tried only where its probe occurs: in the member as it is encoded, and in
the lower case of the string.
-/

namespace IpaDiagnose.Bundle

open Py (Value Dict)
open Regex (Re)

/-! ## Patterns between looks -/

/-- A pattern and what it looks at on both sides: what stands before it,
the nearest character first, and what stands after it. -/
structure Pattern where
  before : List Char → Bool
  body : Re
  after : List Char → Bool

def Pattern.at (p : Pattern) (seen rest : List Char) : Bool :=
  p.before seen && (p.body.run ⟨seen.head?, rest, []⟩).any fun c => p.after c.rest

def Pattern.searchFrom (p : Pattern) : List Char → List Char → Bool
  | seen, [] => p.at seen []
  | seen, x :: xs => p.at seen (x :: xs) || p.searchFrom (x :: seen) xs

def Pattern.search (p : Pattern) (text : String) : Bool := p.searchFrom [] text.toList

def anywhere : List Char → Bool := fun _ => true

/-- The text does not go on with a character of the class. -/
def noneOf (p : Char → Bool) : List Char → Bool
  | x :: _ => !p x
  | [] => true

/-- The text does not go on with a character of one class and, behind it,
one of another. -/
def noneOf₂ (p q : Char → Bool) : List Char → Bool
  | x :: y :: _ => !(p x && q y)
  | _ => true

/-! ## Detectors -/

/-- The letter that a case-insensitive pattern takes a character for. -/
def foldCase (c : Char) : Char :=
  if c.toNat = 0x130 ∨ c.toNat = 0x131 then 'i'
  else if c.toNat = 0x17f then 's'
  else if c.toNat = 0x212a then 'k'
  else c.toLower

def letterI (c : Char) : Re := .cls fun x => foldCase c == foldCase x

/-- A name in any case. -/
def formI (form : String) : Re := .seqAll (form.toList.map letterI)

/-- `dc\s*(?:=|\\=|\\3D|%3D)\s*` -/
def SUFFIX_DC : Re :=
  .seqAll [formI "dc", .star space, .altAll [formI "=", formI "\\=", formI "\\3D", formI "%3D"],
    .star space]

/-- `\s*(?:,|\\,|\\2C|%2C)\s*` -/
def SUFFIX_SEP : Re :=
  .seqAll [.star space, .altAll [formI ",", formI "\\,", formI "\\2C", formI "%2C"], .star space]

def labelsOf (form : String) : List String := (form.toList.splitOn '.').map String.ofList

/-- The components of an LDAP suffix, one label for each. -/
def suffixBody : List String → Re
  | [] => .eps
  | [lb] => .seq SUFFIX_DC (formI lb)
  | lb :: lbs => .seq SUFFIX_DC (.seq (formI lb) (.seq SUFFIX_SEP (suffixBody lbs)))

def asciiLetter (c : Char) : Bool := Regex.lower c || Regex.upper c

def hexLetter (c : Char) : Bool :=
  Regex.digit c || (65 ≤ c.toNat && c.toNat ≤ 70) || (97 ≤ c.toNat && c.toNat ≤ 102)

def ipPattern (form : String) : Pattern :=
  if PyStr.hasChar form ':' then
    { before := fun seen => noneOf (fun c => hexLetter c || c == '.') seen
        && noneOf₂ (· == ':') hexLetter seen
      body := formI form
      after := fun rest => noneOf hexLetter rest
        && noneOf₂ (· == ':') (fun c => hexLetter c || c == ':') rest
        && noneOf₂ (· == '.') Unicode.isDecimal rest }
  else
    { before := fun seen => noneOf Regex.digit seen && noneOf₂ (· == '.') Regex.digit seen
      body := .lit form
      after := fun rest => noneOf Unicode.isDecimal rest
        && noneOf₂ (· == '.') Unicode.isDecimal rest }

def patternOf (cls form : String) : Pattern :=
  if cls = "HOST" ∧ PyStr.hasChar form '.' = true then
    { before := anywhere, body := formI form, after := noneOf asciiWordI }
  else if cls = "SUFFIX" then
    { before := anywhere, body := suffixBody (labelsOf form), after := anywhere }
  else if cls = "IP" then ipPattern form
  else if cls = "REALM" then
    { before := noneOf asciiLetter, body := .lit form, after := noneOf Unicode.isAsciiAlnum }
  else { before := noneOf asciiWordI, body := formI form, after := noneOf asciiWordI }

/-- What must occur in a text in lower case for the name to be found in
it. -/
def probeOf (cls form : String) : String :=
  if cls = "SUFFIX" then PyStr.lower ((labelsOf form).headD "") else PyStr.lower form

structure Detector where
  cls : String
  pattern : Pattern
  probe : String

/-- One detector for each class and text form. -/
def iterOriginals (originals : List (String × String)) : List Detector :=
  originals.map fun o => ⟨o.1, patternOf o.1 o.2, probeOf o.1 o.2⟩

/-- The detectors whose probe occurs in a member. -/
def active (detectors : List Detector) (member : String) : List Detector :=
  detectors.filter fun d => PyStr.contains (PyStr.lower member) d.probe

/-- The identifiers found in a string by detectors whose probe occurs in
it. -/
def probed (detectors : List Detector) (text : String) : List String :=
  (detectors.filter fun d => PyStr.contains (PyStr.lower text) d.probe && d.pattern.search text).map
    Detector.cls

/-- The identifiers that any detector finds in a string. -/
def found (detectors : List Detector) (text : String) : List String :=
  (detectors.filter fun d => d.pattern.search text).map Detector.cls

/-! ## The test -/

inductive Category where
  | scanned (category : String)
  | realIdentifier (cls : String)
  | localPath
  | notUtf8
  | malformedSums
  | notJson
  | secretField
  | serialField
  | secretValue
deriving DecidableEq

def Category.text : Category → String
  | .scanned category => category
  | .realIdentifier cls => "real identifier (" ++ cls ++ ")"
  | .localPath => "local path"
  | .notUtf8 => "not valid UTF-8"
  | .malformedSums => "malformed checksum line"
  | .notJson => "not valid JSON"
  | .secretField => "secret-named field not removed"
  | .serialField => "certificate serial field not removed"
  | .secretValue => "value of a secret-named field"

/-- What the test does not do itself: reading JSON, the categories of
secrets in a text, the keys that name a secret or a serial number, and
whether a secret value stands in a text. -/
structure Scanner where
  loads : String → Option Value
  scanText : String → String → Bool → List String
  secretKey : String → Bool
  serialKey : String → Bool
  secretFound : String → String → Bool

/-- What a bundle must not contain. -/
structure Withheld where
  originals : List (String × String)
  forbidden : List String := []
  secrets : List String := []

/-- `[0-9a-f]{64}  [A-Za-z0-9._-]{1,64}` -/
def SUMS_LINE : Re :=
  .seqAll [.rept 64 64 (.cls fun c => Regex.digit c || (97 ≤ c.toNat && c.toNat ≤ 102)), .lit "  ",
    .rept 1 64 (.cls fun c => Unicode.isAsciiAlnum c || c == '.' || c == '_' || c == '-')]

section SelfTest

variable (scanner : Scanner) (withheld : Withheld)

/-- The local paths that are long enough to be looked for. -/
def literals : List String :=
  (withheld.forbidden.filter fun f => 4 ≤ PyStr.len f).map PyStr.lower

def scanString (identify : String → List String) (multiline : Bool) (t : String × String) :
    List Category :=
  (scanner.scanText t.2 t.1 multiline).map .scanned
    ++ (identify t.2).map .realIdentifier
    ++ (if (literals withheld).any (PyStr.contains (PyStr.lower t.2)) then [.localPath] else [])

/-- The problems of a member; `identify` finds the identifiers in a string
of the member. -/
def checkWith (identify : String → String → List String) (name : String) (data : Content) :
    List Category :=
  match utf8? data with
  | none => [.notUtf8]
  | some text =>
      if name = "SHA256SUMS" then
        let lines := text.toList.splitOn '\n'
        if lines.getLast? = some []
            ∧ lines.dropLast.all (fun l => SUMS_LINE.fullmatch (String.ofList l)) = true then []
        else [.malformedSums]
      else if PyStr.endsWith name ".json" then
        match scanner.loads text with
        | none => [.notJson]
        | some obj =>
            let texts := jsonStrings "" obj
            texts.flatMap (scanString scanner withheld (identify text) false)
              ++ (if EVIDENCE_MEMBERS.contains name then
                (if unremovedFields scanner.secretKey obj ≠ 0 then [.secretField] else [])
                  ++ (if unremovedFields scanner.serialKey obj ≠ 0 then [.serialField] else [])
                  ++ (if texts.any fun t => withheld.secrets.any fun v =>
                      PyStr.contains t.2 v && scanner.secretFound v t.2 then [.secretValue] else [])
              else [])
      else scanString scanner withheld (identify text) true ("", text)

/-- The test as it is run: a detector is tried only where its probe
occurs. -/
def selfTestMember : String → Content → List Category :=
  checkWith scanner withheld fun member =>
    probed (active (iterOriginals withheld.originals) member)

/-- The test with every detector on every string. -/
def plainTestMember : String → Content → List Category :=
  checkWith scanner withheld fun _ => found (iterOriginals withheld.originals)

/-- The problems of all members. A bundle is refused if there is one. -/
def selfTest (members : List (String × Content)) : List (String × Category) :=
  members.flatMap fun m => (selfTestMember scanner withheld m.1 m.2).map fun c => (m.1, c)

end SelfTest

end IpaDiagnose.Bundle
