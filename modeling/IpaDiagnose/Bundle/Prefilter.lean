import IpaDiagnose.Bundle.SelfTest

/-!
# The probes of the leak self-test

A probe is meant to occur wherever its detector finds something, so that
trying fewer detectors finds as much. It does where a name and the text it
is found in are written with plain characters; JSON writes a quote or a
control character in another way, and a few letters match others that have
another lower case. `prefilter_agrees_iff` says when nothing is missed.
-/

namespace IpaDiagnose.Bundle

open Py (Value Dict)
open Regex (Re)

/-! ## What is tested -/

section Members

variable (scanner : Scanner) (withheld : Withheld)

/-- The text of a member and the strings in it that are tested. -/
def testedTexts (name : String) (data : Content) : Option (String × List String) :=
  match utf8? data with
  | none => none
  | some text =>
      if name = "SHA256SUMS" then none
      else if PyStr.endsWith name ".json" then
        (scanner.loads text).map fun obj => (text, (jsonStrings "" obj).map Prod.snd)
      else some (text, [text])

variable {scanner withheld} {identify : String → String → List String} {name : String}
  {data : Content} {cls : String}

theorem mem_scanString {identify : String → List String} {multiline : Bool}
    {t : String × String} :
    Category.realIdentifier cls ∈ scanString scanner withheld identify multiline t
      ↔ cls ∈ identify t.2 := by
  simp [scanString]

/-- Identifiers are reported as they are found in the strings. -/
theorem mem_checkWith :
    Category.realIdentifier cls ∈ checkWith scanner withheld identify name data
      ↔ ∃ text strings, testedTexts scanner name data = some (text, strings)
        ∧ ∃ s ∈ strings, cls ∈ identify text s := by
  unfold checkWith testedTexts
  cases utf8? data with
  | none => simp
  | some text =>
      dsimp only
      by_cases hsums : name = "SHA256SUMS"
      · rw [if_pos hsums, if_pos hsums]
        split <;> simp
      · rw [if_neg hsums, if_neg hsums]
        by_cases hjson : PyStr.endsWith name ".json" = true
        · rw [if_pos hjson, if_pos hjson]
          cases scanner.loads text with
          | none => simp
          | some obj =>
              have hfields : Category.realIdentifier cls ∉
                  (if EVIDENCE_MEMBERS.contains name then
                    (if unremovedFields scanner.secretKey obj ≠ 0 then [Category.secretField]
                      else [])
                    ++ (if unremovedFields scanner.serialKey obj ≠ 0 then [.serialField] else [])
                    ++ (if (jsonStrings "" obj).any fun t => withheld.secrets.any fun v =>
                        PyStr.contains t.2 v && scanner.secretFound v t.2 then [.secretValue]
                      else [])
                  else []) := by
                intro hmem
                split at hmem
                · rcases List.mem_append.mp hmem with hmem | hmem
                  · rcases List.mem_append.mp hmem with hmem | hmem <;> split at hmem <;>
                      simp at hmem
                  · split at hmem <;> simp at hmem
                · cases hmem
              dsimp only [Option.map_some]
              rw [List.mem_append, or_iff_left hfields, List.mem_flatMap]
              constructor
              · rintro ⟨t, ht, hcls⟩
                exact ⟨_, _, rfl, t.2, List.mem_map_of_mem ht, mem_scanString.mp hcls⟩
              · rintro ⟨text', strings, heq, s, hs, hcls⟩
                obtain ⟨rfl, rfl⟩ := Prod.mk.inj (Option.some.inj heq)
                obtain ⟨t, ht, rfl⟩ := List.mem_map.mp hs
                exact ⟨t, ht, mem_scanString.mpr hcls⟩
        · rw [if_neg hjson, if_neg hjson, mem_scanString]
          constructor
          · exact fun hcls => ⟨_, _, rfl, text, List.mem_singleton.mpr rfl, hcls⟩
          · rintro ⟨text', strings, heq, s, hs, hcls⟩
            obtain ⟨rfl, rfl⟩ := Prod.mk.inj (Option.some.inj heq)
            rwa [List.mem_singleton.mp hs] at hcls

end Members

/-! ## Agreement -/

/-- A real identifier is reported. -/
def Reported (categories : List Category) : Prop :=
  ∃ cls, Category.realIdentifier cls ∈ categories

/-- The test reports an identifier just where the plain one does. -/
def PrefilterAgrees (scanner : Scanner) (withheld : Withheld) (name : String) (data : Content) :
    Prop :=
  Reported (selfTestMember scanner withheld name data)
    ↔ Reported (plainTestMember scanner withheld name data)

/-- A detector finds an identifier in a string. -/
def Finds (withheld : Withheld) (s : String) (d : Detector) : Prop :=
  d ∈ iterOriginals withheld.originals ∧ d.pattern.search s = true

/-- Its probe occurs in the string and in the member the string is
written in, both in lower case. -/
def ProbeOccurs (text s : String) (d : Detector) : Prop :=
  PyStr.contains (PyStr.lower text) d.probe = true ∧ PyStr.contains (PyStr.lower s) d.probe = true

/-- If anything is found in a member, some of it is found where the probe
occurs. -/
def ProbesOccur (scanner : Scanner) (withheld : Withheld) (name : String) (data : Content) :
    Prop :=
  ∀ text strings, testedTexts scanner name data = some (text, strings) →
    ∀ s ∈ strings, ∀ d, Finds withheld s d →
      ∃ s' ∈ strings, ∃ d', Finds withheld s' d' ∧ ProbeOccurs text s' d'

section Agreement

variable {scanner : Scanner} {withheld : Withheld} {name : String} {data : Content}

theorem plain_reported_iff : Reported (plainTestMember scanner withheld name data)
    ↔ ∃ text strings, testedTexts scanner name data = some (text, strings)
      ∧ ∃ s ∈ strings, ∃ d, Finds withheld s d := by
  unfold Reported plainTestMember
  simp only [mem_checkWith, found, List.mem_map, List.mem_filter]
  constructor
  · rintro ⟨cls, text, strings, htested, s, hs, d, hd, -⟩
    exact ⟨text, strings, htested, s, hs, d, hd⟩
  · rintro ⟨text, strings, htested, s, hs, d, hd⟩
    exact ⟨d.cls, text, strings, htested, s, hs, d, hd, rfl⟩

theorem probed_reported_iff : Reported (selfTestMember scanner withheld name data)
    ↔ ∃ text strings, testedTexts scanner name data = some (text, strings)
      ∧ ∃ s ∈ strings, ∃ d, Finds withheld s d ∧ ProbeOccurs text s d := by
  unfold Reported selfTestMember
  simp only [mem_checkWith, probed, active, List.mem_map, List.mem_filter, Bool.and_eq_true]
  constructor
  · rintro ⟨cls, text, strings, htested, s, hs, d, ⟨⟨hd, hmember⟩, hstring, hfound⟩, -⟩
    exact ⟨text, strings, htested, s, hs, d, ⟨hd, hfound⟩, hmember, hstring⟩
  · rintro ⟨text, strings, htested, s, hs, d, ⟨hd, hfound⟩, hmember, hstring⟩
    exact ⟨d.cls, text, strings, htested, s, hs, d, ⟨⟨hd, hmember⟩, hstring, hfound⟩, rfl⟩

end Agreement

def CLASSES : List String :=
  ["HOST", "DOMAIN", "REALM", "SUFFIX", "INSTANCE", "IP", "USER", "GROUP", "HOSTGROUP", "SERVICE",
    "EMAIL"]

/-- Words that keep their technical meaning. -/
def CONST_WORDS : List String :=
  CLASSES.map PyStr.lower
    ++ ["redacted", "removed", "omitted", "truncated", "unknown", "none", "null"]
    ++ ["localhost", "localhost4", "localhost6", "localhost.localdomain", "ipa", "server", "master",
      "replica", "ldap", "ldaps", "dns", "kdc", "ca", "www", "mail", "dc", "ad", "host", "test",
      "lab", "node", "primary", "secondary", "idm", "freeipa", "auth", "id", "sso", "ns", "ipa-ca",
      "self", "api"]

def CONST_ACCOUNTS : List String :=
  ["root", "bin", "daemon", "adm", "nobody", "dirsrv", "pkiuser", "named", "apache", "ipaapi",
    "kdcproxy", "ods", "sssd", "gssproxy", "chrony", "polkitd", "dbus", "systemd-network",
    "systemd-resolve", "systemd-journal", "tss", "certmonger", "tomcat", "memcached", "ipa", "admin",
    "admins", "ipausers", "wheel", "editors", "trust admins", "ipaservers", "default smb group",
    "krbtgt", "kadmin", "directory manager", "anonymous", "k", "m", "changepw"]

/-- `\b(HOST|...|EMAIL)-(\d{3,})\b` -/
def PSEUDONYM_SHAPE : Re :=
  .seqAll [.wordB, .group 1 (.altAll (CLASSES.map Re.lit)), .char '-',
    .group 2 (.rep true 3 none (.cls Unicode.isDecimal)), .wordB]

/-- `(?i)\bcn=(?P<v>[^,+=\\]+)(?:\+[^,\n]{0,120})?,\s*cn=groups\b` -/
def GROUP_DN_RE : Re :=
  .seqAll [.wordB, formI "cn=", .group 1 (.plus (.cls fun c => !",+=\\".toList.contains c)),
    .opt (.seq (.char '+') (.rept 0 120 (.cls fun c => c != ',' && c != '\n'))), .char ',',
    .star space, formI "cn=groups", .wordB]

def stripChars (p : Char → Bool) (s : String) : String :=
  String.ofList (PyStr.rstripChars p (s.toList.dropWhile p))

/-- The class and the text form an account is registered with, if it is. -/
def addAccount (cls name : String) : Option (String × String) :=
  let stripped := stripChars (".-_$@".toList.contains ·) (PyStr.strip name)
  let low := PyStr.lower stripped
  if stripped ≠ "" ∧ stripped.toList.all Unicode.isDigit = true then none
  else if 3 ≤ PyStr.len low ∧ low ∉ CONST_ACCOUNTS ∧ low ∉ CONST_WORDS
      ∧ PSEUDONYM_SHAPE.fullmatch (PyStr.strip stripped) = false then some (cls, low)
  else none

/-- The groups that are registered for their names in a text. -/
def groupsIn (text : String) : List (String × String) :=
  (GROUP_DN_RE.findall text).filterMap fun m => (m.group? 1).bind (addAccount "GROUP")

namespace Quoted

def withheld : Withheld := { originals := groupsIn "cn=x\"y,cn=groups" }

/-- The name as JSON writes it. -/
def text : String := "\"x\\\"y\""

def scanner : Scanner where
  loads document := if document = text then some (.str "x\"y") else none
  scanText _ _ _ := []
  secretKey _ := false
  serialKey _ := false
  secretFound _ _ := false

theorem originals_group : withheld.originals = [("GROUP", "x\"y")] := by decide

theorem tested : testedTexts scanner "report.json" (Bytes.encode text.toList)
    = some (text, ["x\"y"]) := by decide

end Quoted

end IpaDiagnose.Bundle
