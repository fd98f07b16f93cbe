import IpaDiagnose.Lib.PyStr
import IpaDiagnose.Lib.Regex

/-!
# Untrusted text

`sanitizeText` is what every text that did not originate in this program
goes through before it is stored or shown; `redactText` masks what looks
like a secret.
-/

namespace IpaDiagnose

open Regex

/-! ## Terminal escape sequences -/

def esc : Re := .char (Char.ofNat 27)

def between (lo hi : Char) : Re := .cls fun c => lo ≤ c && c ≤ hi

def notOneOf (s : List Char) : Re := .cls fun c => !s.contains c

def csiRe : Re :=
  .seqAll [esc, .char '[', .star (between '0' '?'), .star (between ' ' '/'), between '@' '~']

def oscRe : Re :=
  .seqAll [esc, .char ']', .star (notOneOf [Char.ofNat 7, Char.ofNat 27]),
    .opt (.altAll [.char (Char.ofNat 7), .seq esc (.char '\\')])]

def dcsRe : Re :=
  .seqAll [esc, .oneOf "P^_X", .star (notOneOf [Char.ofNat 27]), .opt (.seq esc (.char '\\'))]

def escPairRe : Re := .seq esc (.altAll [between '@' 'Z', between '\\' '_'])

def erase (r : Re) (s : String) : String := r.sub (fun _ => "") s

/-! ## Sanitizing -/

def DEFAULT_LIMIT : Nat := 300

def PRE_BOUND : Nat := 4096

/-- The index of the last space, `-1` if there is none. -/
def rfindSpace (cs : List Char) : Int :=
  (cs.length : Int) - (cs.reverse.takeWhile (· != ' ')).length - 1

/-- `cs[:i]`: a negative index counts from the end. -/
def sliceTo (cs : List Char) (i : Int) : List Char :=
  if 0 ≤ i then cs.take i.toNat else cs.take (cs.length - (-i).toNat)

/-- Cut a text that is longer than the limit, at a word boundary if one
is close, and mark the cut. -/
def ellipsize (text : List Char) (limit : Nat) : List Char :=
  if text.length ≤ limit then text
  else if limit ≤ 3 then text.take limit
  else
    let room := limit - 3
    let cut := text.take room
    let space := rfindSpace cut
    let cut := if (room : Int) - 40 ≤ space then sliceTo cut space else cut
    PyStr.rstripChars (" ,;:-".toList.contains ·) cut ++ "...".toList

def visible (c : Char) : Char := if c = ' ' ∨ Unicode.isPrintable c then c else ' '

def sanitizeText (text : String) (limit : Nat) : String :=
  let text := PyStr.take text PRE_BOUND
  let text := erase escPairRe (erase dcsRe (erase oscRe (erase csiRe text)))
  let text := text.toList.map visible
  let text := " ".intercalate ((PyStr.wordsBy Unicode.isSpace text).map String.ofList)
  String.ofList (ellipsize text.toList limit)

/-! ## Redaction -/

/-- A character class matched without regard to case: the four letters
outside ASCII that count as ASCII letters are in it too. -/
def asciiWordI (c : Char) : Bool :=
  Unicode.isAsciiAlnum c || c.toNat == 0x130 || c.toNat == 0x131 || c.toNat == 0x17f
    || c.toNat == 0x212a

def space : Re := .cls Unicode.isSpace

def nonSpace : Re := .cls fun c => !Unicode.isSpace c

def alnum : Re := .cls Unicode.isAsciiAlnum

def alnumOr (s : String) : Re := .cls fun c => Unicode.isAsciiAlnum c || s.toList.contains c

def pemLine (word : String) : Re :=
  .seqAll [.lit ("-----" ++ word ++ " "), .star (.cls fun c => upper c || c == ' '),
    .lit "PRIVATE KEY-----"]

def urlPart : Re := .plus (.cls fun c => !(Unicode.isSpace c || ":@/".toList.contains c))

def REDACT_PATTERNS : List (String × Re) :=
  [("aws_access_key",
      .seqAll [.wordB, .group 1 (.altAll [.lit "AKIA", .lit "ASIA"]),
        .rept 16 16 (.cls fun c => digit c || upper c), .wordB]),
    ("aws_secret_key",
      .seqAll [.litI "aws_secret_access_key", .star space, .oneOf "=:", .star space,
        .plus nonSpace]),
    ("private_key_block",
      .seqAll [pemLine "BEGIN", .rep false 0 none (.cls fun _ => true), pemLine "END"]),
    ("openai_key", .seqAll [.wordB, .lit "sk-", .rep true 16 none alnum, .wordB]),
    ("github_token",
      .seqAll [.wordB, .lit "gh", .oneOf "oprsu", .char '_', .rep true 20 none alnum, .wordB]),
    ("anthropic_key",
      .seqAll [.wordB, .lit "sk-ant-", .rep true 16 none (alnumOr "-_"), .wordB]),
    ("slack_token",
      .seqAll [.wordB, .lit "xox", .oneOf "baprs", .char '-', .rep true 10 none (alnumOr "-"),
        .wordB]),
    ("bearer_token",
      .seqAll [.wordB, .litI "bearer", .plus space,
        .rep true 10 none (.cls fun c => asciiWordI c || "-_.=".toList.contains c), .wordB]),
    ("basic_auth_url",
      .seqAll [.wordB, .plus (.cls word), .lit "://", urlPart, .char ':', urlPart, .char '@']),
    ("krb5_keytab_hex",
      .seqAll [.wordB, .litI "keytab", .star nonSpace, .oneOf ":=", .star space,
        .rep true 32 none (.cls fun c => digit c || ('a' ≤ c.toLower && c.toLower ≤ 'f')),
        .wordB]),
    ("high_entropy_token",
      .seqAll [.wordB, .rep true 40 none (alnumOr "+/_-"), .rept 0 2 (.char '='), .wordB])]

def redactText (text : String) : String :=
  REDACT_PATTERNS.foldl (fun result p => p.2.sub (fun _ => "[REDACTED:" ++ p.1 ++ "]") result) text

end IpaDiagnose
