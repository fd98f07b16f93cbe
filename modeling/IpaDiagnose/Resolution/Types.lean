import IpaDiagnose.Lib.Assoc
import IpaDiagnose.Lib.PyValue
import IpaDiagnose.Lib.Regex

/-!
# Typed values

Every value that reaches a command line or a check comes from untrusted
evidence. It is accepted only if it validates as one of these types. A
validator returns the canonical text, or nothing.
-/

namespace IpaDiagnose.T

open Py (Value Exc)
open Regex (Re)

/-! ## Tables -/

/-- Services with a deterministic start procedure: unit template, and
how the service is started. -/
def IPA_SERVICES : List (String × String × String) :=
  [("dirsrv", "dirsrv@\x7binstance\x7d.service", "ipactl"),
    ("krb5kdc", "krb5kdc.service", "ipactl"),
    ("kadmin", "kadmin.service", "ipactl"),
    ("httpd", "httpd.service", "ipactl"),
    ("ipa-custodia", "ipa-custodia.service", "ipactl"),
    ("pki-tomcatd", "pki-tomcatd@pki-tomcat.service", "ipactl"),
    ("ipa-dnskeysyncd", "ipa-dnskeysyncd.service", "ipactl"),
    ("certmonger", "certmonger.service", "systemctl"),
    ("sssd", "sssd.service", "systemctl"),
    ("chronyd", "chronyd.service", "systemctl"),
    ("gssproxy", "gssproxy.service", "systemctl")]

def IPA_PATH_PREFIXES : List String :=
  ["/etc/ipa/", "/etc/pki/pki-tomcat/", "/var/lib/pki/", "/etc/dirsrv/", "/var/lib/ipa/",
    "/var/log/dirsrv/", "/var/log/pki/", "/var/log/httpd/", "/var/log/ipa/", "/etc/httpd/",
    "/var/named/", "/var/kerberos/krb5kdc/", "/etc/sssd/", "/etc/gssproxy/", "/usr/share/ipa/"]

def IPA_PATH_EXACT : List String :=
  ["/etc/named.conf", "/etc/named.keytab", "/etc/krb5.keytab", "/etc/krb5.conf",
    "/var/log/krb5kdc.log", "/var/log/kadmind.log", "/var/log/ipaserver-install.log",
    "/var/log/ipareplica-install.log", "/var/log/ipaclient-install.log",
    "/var/log/ipaupgrade.log"]

def IPA_ACCOUNTS : List String :=
  ["root", "dirsrv", "pkiuser", "named", "apache", "ipaapi", "kdcproxy", "sssd", "ods", "gssproxy"]

def IPA_PORTS : List String := ["88", "389", "443", "464", "636"]

def REPL_TRANSPORTS : List String := ["LDAP", "TLS", "SSL"]

def SUFFIX_KINDS : List String := ["domain", "ca"]

/-! ## Patterns -/

def oneOfClass (p : Char → Bool) (s : String) : Re := .cls fun c => p c || s.toList.contains c

def alnumC : Char → Bool := Unicode.isAsciiAlnum

def lowerDigit (c : Char) : Bool := Regex.lower c || Regex.digit c

def upperDigit (c : Char) : Bool := Regex.upper c || Regex.digit c

def PATH_RE : Re := .seq (.char '/') (.rept 1 4095 (oneOfClass alnumC "._@+/-"))

def MODE_RE : Re := .seq (.char '0') (.rept 3 3 (.cls fun c => '0' ≤ c && c ≤ '7'))

def POSIX_NAME_RE : Re :=
  .seq (oneOfClass Regex.lower "_") (.rept 0 31 (oneOfClass lowerDigit "_.-"))

def NICKNAME_RE : Re := .seq (.cls alnumC) (.rept 0 63 (oneOfClass alnumC " ._-"))

def REQUEST_ID_RE : Re := .rept 1 40 (oneOfClass alnumC "_.-")

def INSTANCE_RE : Re := .seq (.cls alnumC) (.rept 0 63 (oneOfClass alnumC "_.-"))

def UNIT_RE : Re :=
  .seqAll [.cls alnumC, .rept 0 126 (oneOfClass alnumC "@._-"), .lit ".service"]

def chmodClause (sign : Char) : Re :=
  .seqAll [.oneOf "ugo", .char sign, .rept 1 3 (.oneOf "rwx")]

def chmodRe (sign : Char) : Re :=
  .seq (chmodClause sign) (.rept 0 2 (.seq (.char ',') (chmodClause sign)))

def CHMOD_REMOVE_RE : Re := chmodRe '-'

def CHMOD_ADD_RE : Re := chmodRe '+'

def IPA_NAME_RE : Re :=
  .seqAll [oneOfClass alnumC "_.", .rept 0 254 (oneOfClass alnumC "_.-"),
    .opt (oneOfClass alnumC "_.$-")]

def LABEL : Re :=
  .seq (.cls lowerDigit) (.opt (.seq (.rept 0 61 (oneOfClass lowerDigit "-")) (.cls lowerDigit)))

def FQDN_RE : Re := .seq LABEL (.plus (.seq (.char '.') LABEL))

def REALM_RE : Re :=
  .seq (.cls upperDigit)
    (.opt (.seq (.rept 0 251 (oneOfClass upperDigit ".-")) (.cls upperDigit)))

def PAM_SERVICE_RE : Re := .seq (.cls alnumC) (.rept 0 63 (oneOfClass alnumC "_.+-"))

def SSSD_DOMAIN_RE : Re := .seq (.cls alnumC) (.rept 0 252 (oneOfClass alnumC "_.-"))

def DC_SUFFIX_RE : Re :=
  .seqAll [.lit "dc=", LABEL, .star (.seq (.lit ",dc=") LABEL)]

/-! ## Text -/

/-- Not empty, and digits only (superscripts are digits too). -/
def isDigits (s : String) : Bool := !s.toList.isEmpty && s.toList.all Unicode.isDigit

/-- The number a text of decimal digits stands for. -/
def parseNat (s : String) : Option Nat :=
  s.toList.foldl (fun acc c =>
    match acc, Unicode.decimalValue? c with
    | some n, some d => some (n * 10 + d)
    | _, _ => none) (some 0)

/-- The components of a path, `.` and empty ones dropped, `..` resolved. -/
def pathStep (rooted : Bool) (acc : List (List Char)) (comp : List Char) : List (List Char) :=
  if comp = [] ∨ comp = ['.'] then acc
  else if comp ≠ ['.', '.'] ∨ (¬ rooted ∧ acc = []) ∨ acc.head? = some ['.', '.'] then comp :: acc
  else acc.drop 1

/-- The number of slashes a normal path keeps in front: two only if there
are exactly two. -/
def leadingSlashes (cs : List Char) : Nat :=
  match (cs.takeWhile (· == '/')).length with
  | 0 => 0
  | 2 => 2
  | _ => 1

def splitSlash (cs : List Char) : List (List Char) := cs.splitOnP (· == '/')

def normpath (s : String) : String :=
  if s = "" then "."
  else
    let slashes := leadingSlashes s.toList
    let comps := ((splitSlash s.toList).foldl (pathStep (slashes != 0)) []).reverse
    let path := List.replicate slashes '/' ++ ['/'].intercalate comps
    if path.isEmpty then "." else String.ofList path

/-! ## Validators -/

/-- A validator of texts. -/
def ofStr (p : String → Option String) : Value → Option String
  | .str s => p s
  | _ => none

/-- The text itself, if it passes. -/
def accepting (p : String → Bool) : Value → Option String :=
  ofStr fun s => if p s then some s else none

/-- The digits of the longest integer that has a text. -/
def INT_MAX_STR_DIGITS : Nat := 4300

/-- An integer counts as its text. -/
def intText {ε : Type} : Value → Except (Exc ε) Value
  | .int n =>
      if INT_MAX_STR_DIGITS < PyStr.len (toString n.natAbs) then .error .valueError
      else .ok (.str (toString n))
  | v => .ok v

def ipaService : Value → Option String := accepting fun s => (IPA_SERVICES.lookup s).isSome

def absPath : Value → Option String := accepting fun s =>
  PATH_RE.fullmatch s
    && !(normpath s != s || PyStr.contains s "//" || PyStr.contains s "/../"
      || PyStr.endsWith s "/.." || PyStr.contains s "/./")
    && (IPA_PATH_PREFIXES.any (PyStr.startsWith s) || IPA_PATH_EXACT.contains s)

def mode : Value → Option String := ofStr fun s =>
  let s := if PyStr.len s = 3 ∧ isDigits s then "0" ++ s else s
  if MODE_RE.fullmatch s then some s else none

def posixName : Value → Option String := accepting POSIX_NAME_RE.fullmatch

def nickname : Value → Option String :=
  accepting fun s => NICKNAME_RE.fullmatch s && !PyStr.endsWith s " "

def requestId : Value → Option String :=
  accepting fun s => REQUEST_ID_RE.fullmatch s && !PyStr.startsWith s "-"

def instanceName : Value → Option String := accepting INSTANCE_RE.fullmatch

def unit : Value → Option String := accepting UNIT_RE.fullmatch

def ipaAccount : Value → Option String := accepting IPA_ACCOUNTS.contains

def chmodRemove : Value → Option String := accepting CHMOD_REMOVE_RE.fullmatch

def chmodAdd : Value → Option String := accepting CHMOD_ADD_RE.fullmatch

def permType : Value → Option String := accepting ["mode", "owner", "group"].contains

def ipaName : Value → Option String := accepting fun s =>
  IPA_NAME_RE.fullmatch s && !isDigits s && PyStr.lower s != "all"

def fqdn : Value → Option String := ofStr fun s =>
  if 253 < PyStr.len s then none
  else if FQDN_RE.fullmatch (PyStr.lower s) then some (PyStr.lower s) else none

def realm : Value → Option String :=
  accepting fun s => PyStr.len s ≤ 253 && REALM_RE.fullmatch s

/-- `service/host@REALM`, host and realm in canonical form. -/
def principal (service : String) : Value → Option String := accepting fun s =>
  PyStr.startsWith s service && s.toList.count '@' == 1
    && (let parts := PyStr.partition (PyStr.drop s (PyStr.len service)) "@"
      fqdn (.str parts.1) == some parts.1 && realm (.str parts.2) == some parts.2)

def hostPrincipal : Value → Option String := principal "host/"

def pamService : Value → Option String :=
  accepting fun s => PAM_SERVICE_RE.fullmatch s && PyStr.lower s != "all"

def sssdDomain : Value → Option String :=
  accepting fun s => SSSD_DOMAIN_RE.fullmatch s && !PyStr.contains s ".."

def srvName : Value → Option String := accepting fun s =>
  ["_ldap._tcp.", "_kerberos._tcp.", "_kerberos._udp."].any fun p =>
    PyStr.startsWith s p
      && fqdn (.str (PyStr.drop s (PyStr.len p))) == some (PyStr.drop s (PyStr.len p))

def ipaPort {ε : Type} (v : Value) : Except (Exc ε) (Option String) :=
  (intText v).map (accepting IPA_PORTS.contains)

/-- A port number given as a text. A text of up to five digits that are
not all decimal is a digit text that is no number. -/
def portOfText {ε : Type} (s : String) : Except (Exc ε) (Option String) :=
  if !isDigits s || 5 < PyStr.len s || PyStr.startsWith s "0" then .ok none
  else
    match parseNat s with
    | none => .error .valueError
    | some n => .ok (if 1 ≤ n ∧ n ≤ 65535 then some s else none)

def ldapPort {ε : Type} (v : Value) : Except (Exc ε) (Option String) := do
  match ← intText v with
  | .str s => portOfText s
  | _ => pure none

def replTransport : Value → Option String := accepting REPL_TRANSPORTS.contains

def domainSuffix : Value → Option String := ofStr fun s =>
  if 512 < PyStr.len s then none
  else if DC_SUFFIX_RE.fullmatch (PyStr.lower s) then some (PyStr.lower s) else none

def ldapPrincipal : Value → Option String := principal "ldap/"

/-- `domain:FQDN` or `ca:FQDN`. -/
def agreementSubject : Value → Option String := accepting fun s =>
  let parts := PyStr.partition s ":"
  PyStr.hasChar s ':' && SUFFIX_KINDS.contains parts.1 && fqdn (.str parts.2) == some parts.2

/-- A validator that never raises. -/
def total {ε : Type} (f : Value → Option String) (v : Value) : Except (Exc ε) (Option String) :=
  .ok (f v)

def VALIDATORS {ε : Type} : List (String × (Value → Except (Exc ε) (Option String))) :=
  [("ipa_user", total ipaName), ("ipa_group", total ipaName), ("fqdn", total fqdn),
    ("host_principal", total hostPrincipal), ("pam_service", total pamService),
    ("sssd_domain", total sssdDomain), ("srv_name", total srvName), ("ipa_port", ipaPort),
    ("realm", total realm), ("ipa_service", total ipaService), ("ipa_path", total absPath),
    ("file_mode", total mode), ("posix_name", total posixName), ("cert_nickname", total nickname),
    ("certmonger_request_id", total requestId), ("ds_instance", total instanceName),
    ("systemd_unit", total unit), ("permission_type", total permType),
    ("ipa_account", total ipaAccount), ("chmod_remove", total chmodRemove),
    ("chmod_add", total chmodAdd), ("ldap_port", ldapPort), ("repl_transport", total replTransport),
    ("domain_suffix", total domainSuffix), ("ldap_principal", total ldapPrincipal),
    ("agreement_subject", total agreementSubject)]

def isType (name : String) : Bool := ((VALIDATORS (ε := Unit)).lookup name).isSome

/-- The validated value, or nothing if it is not a safe value of that type. -/
def validate {ε : Type} (name : String) (v : Value) : Except (Exc ε) (Option String) :=
  match VALIDATORS.lookup name with
  | some f => f v
  | none => .ok none

example : (validate "fqdn" (.str "IPA.Example.test") : Except (Exc Unit) _)
    = .ok (some "ipa.example.test") := by decide +kernel

/-! ## Which values raise -/

/-- An integer too long to have a text. -/
def HugeInt : Value → Prop
  | .int n => INT_MAX_STR_DIGITS < PyStr.len (toString n.natAbs)
  | _ => False

/-- A digit text of a port number's length that is no number. -/
def UnreadableText (s : String) : Prop :=
  isDigits s = true ∧ PyStr.len s ≤ 5 ∧ PyStr.startsWith s "0" = false ∧ parseNat s = none

/-- What the validator of a type does not return from. -/
def Raises (name : String) (v : Value) : Prop :=
  ((name = "ipa_port" ∨ name = "ldap_port") ∧ HugeInt v)
    ∨ (name = "ldap_port" ∧ ∃ s, v = .str s ∧ UnreadableText s)

def ascii (s : String) : Bool := s.toList.all fun c => c.toNat < 128

theorem ascii_toString_nat (n : Nat) : ascii (toString n) = true := by
  rw [ascii, List.all_eq_true]
  intro c hc
  have hdigit : c.isDigit = true :=
    Nat.isDigit_of_mem_toDigits (by decide) (by decide) (Nat.toList_repr ▸ hc)
  have hbound := (Char.isDigit_iff_toNat.mp hdigit).2
  have h9 : '9'.toNat = 57 := rfl
  exact decide_eq_true (by omega)

theorem ascii_toString (n : Int) : ascii (toString n) = true := by
  rcases n with n | n
  · exact ascii_toString_nat n
  · have hneg : toString (Int.negSucc n) = "-" ++ toString (n + 1) := rfl
    rw [ascii, hneg, String.toList_append, List.all_append]
    exact ascii_toString_nat (n + 1)

theorem decimal_of_ascii {c : Char} (hd : Unicode.isDigit c = true) (hc : c.toNat < 128) :
    (Unicode.decimalValue? c).isSome = true := by
  rw [Unicode.isDigit, Bool.or_eq_true] at hd
  refine hd.resolve_right fun h => ?_
  have hnone : ∀ n < 128, Unicode.inRanges Unicode.nonDecimalDigitRanges n = false := by
    decide +kernel
  rw [hnone _ hc] at h
  cases h

/-- Digits of ASCII are decimal, so that their text is a number. -/
theorem parseNat_of_ascii {s : String} (hd : isDigits s = true) (hs : ascii s = true) :
    (parseNat s).isSome = true := by
  rw [isDigits, Bool.and_eq_true, List.all_eq_true] at hd
  rw [ascii, List.all_eq_true] at hs
  have hfold : ∀ (cs : List Char) (n : Nat), (∀ c ∈ cs, (Unicode.decimalValue? c).isSome = true) →
      (cs.foldl (fun acc c =>
        match acc, Unicode.decimalValue? c with
        | some n, some d => some (n * 10 + d)
        | _, _ => none) (some n)).isSome = true := by
    intro cs
    induction cs with
    | nil => exact fun _ _ => rfl
    | cons c cs ih =>
        intro n hcs
        obtain ⟨d, hd⟩ := Option.isSome_iff_exists.mp (hcs c List.mem_cons_self)
        rw [List.foldl_cons, hd]
        exact ih _ fun x hx => hcs x (List.mem_cons_of_mem _ hx)
  exact hfold _ 0 fun c hc => decimal_of_ascii (hd.2 c hc) (of_decide_eq_true (hs c hc))

section Returning

variable {ε : Type}

theorem portOfText_returns_iff (s : String) :
    (∃ r, (portOfText s : Except (Exc ε) _) = .ok r) ↔ ¬ UnreadableText s := by
  unfold portOfText UnreadableText
  split
  · rename_i hshape
    refine iff_of_true ⟨_, rfl⟩ fun ⟨hd, hl, h0, _⟩ => ?_
    rw [hd, h0] at hshape
    simp only [Bool.not_true, Bool.false_or, Bool.or_false, decide_eq_true_eq] at hshape
    omega
  · rename_i hshape
    simp only [Bool.or_eq_true, Bool.not_eq_true', decide_eq_true_eq, not_or, Bool.not_eq_false,
      not_lt, Bool.not_eq_true] at hshape
    split
    · rename_i hnone
      exact iff_of_false (by simp) fun h => h ⟨hshape.1.1, hshape.1.2, hshape.2, hnone⟩
    · rename_i n hn
      exact iff_of_true ⟨_, rfl⟩ fun h => by simp [hn] at h

theorem not_unreadable_int (n : Int) : ¬ UnreadableText (toString n) := by
  rintro ⟨hd, -, -, hnone⟩
  have hsome := parseNat_of_ascii hd (ascii_toString n)
  rw [hnone] at hsome
  cases hsome

theorem intText_cases (v : Value) :
    (HugeInt v ∧ (intText v : Except (Exc ε) _) = .error .valueError)
      ∨ (¬ HugeInt v ∧ ∃ n, v = .int n ∧ (intText v : Except (Exc ε) _) = .ok (.str (toString n)))
      ∨ (¬ HugeInt v ∧ (∀ n, v ≠ .int n) ∧ (intText v : Except (Exc ε) _) = .ok v) := by
  cases v with
  | int n =>
      by_cases h : HugeInt (.int n)
      · exact .inl ⟨h, if_pos h⟩
      · exact .inr (.inl ⟨h, n, rfl, if_neg h⟩)
  | null | bool | float | str | list | dict => exact .inr (.inr ⟨id, nofun, rfl⟩)

theorem ipaPort_returns_iff (v : Value) :
    (∃ r, (ipaPort v : Except (Exc ε) _) = .ok r) ↔ ¬ HugeInt v := by
  unfold ipaPort
  rcases intText_cases (ε := ε) v with ⟨h, he⟩ | ⟨h, n, -, he⟩ | ⟨h, -, he⟩
  · rw [he]
    exact iff_of_false (by simp [Except.map]) fun hn => hn h
  · rw [he]
    exact iff_of_true ⟨_, rfl⟩ h
  · rw [he]
    exact iff_of_true ⟨_, rfl⟩ h

theorem ldapPort_returns_iff (v : Value) :
    (∃ r, (ldapPort v : Except (Exc ε) _) = .ok r) ↔
      ¬ HugeInt v ∧ ∀ s, v = .str s → ¬ UnreadableText s := by
  unfold ldapPort
  rcases intText_cases (ε := ε) v with ⟨h, he⟩ | ⟨h, n, rfl, he⟩ | ⟨h, hint, he⟩
  · rw [he]
    exact iff_of_false (fun ⟨r, hr⟩ => by cases hr) fun hn => hn.1 h
  · rw [he]
    exact iff_of_true ((portOfText_returns_iff _).mpr (not_unreadable_int n)) ⟨h, nofun⟩
  · rw [he]
    cases v with
    | str s => exact (portOfText_returns_iff s).trans ⟨fun hs => ⟨h, fun t ht => by cases ht; exact hs⟩,
        fun hs => hs.2 s rfl⟩
    | int n => exact absurd rfl (hint n)
    | null | bool | float | list | dict => exact iff_of_true ⟨_, rfl⟩ ⟨h, nofun⟩

/-- Only the two port types have a validator that may raise. -/
theorem validators_total : ∀ row ∈ VALIDATORS (ε := ε),
    row.1 = "ipa_port" ∨ row.1 = "ldap_port" ∨ ∃ g, row.2 = total g := by
  unfold VALIDATORS
  simp only [List.forall_mem_cons, List.not_mem_nil, false_implies, implies_true, and_true]
  refine ⟨?_, ?_, ?_, ?_, ?_, ?_, ?_, ?_, ?_, ?_, ?_, ?_, ?_, ?_, ?_, ?_, ?_, ?_, ?_, ?_, ?_, ?_,
    ?_, ?_, ?_, ?_⟩ <;> first | exact .inr (.inr ⟨_, rfl⟩) | simp

theorem validate_total {name : String} (h₁ : name ≠ "ipa_port") (h₂ : name ≠ "ldap_port")
    (v : Value) : ∃ r, (validate name v : Except (Exc ε) _) = .ok r := by
  unfold validate
  split
  · rename_i f hf
    rcases validators_total _ (Assoc.mem_of_lookup hf) with h | h | ⟨g, h⟩
    · exact absurd h h₁
    · exact absurd h h₂
    · exact ⟨g v, by rw [show f = total g from h]; rfl⟩
  · exact ⟨none, rfl⟩

/-- A validator returns from every value but those it raises on. -/
theorem validate_returns_iff (name : String) (v : Value) :
    (∃ r, (validate name v : Except (Exc ε) _) = .ok r) ↔ ¬ Raises name v := by
  unfold Raises
  by_cases h₁ : name = "ipa_port"
  · subst h₁
    have hport : "ipa_port" ≠ "ldap_port" := by decide
    refine (ipaPort_returns_iff v).trans ?_
    simp [hport]
  · by_cases h₂ : name = "ldap_port"
    · subst h₂
      refine (ldapPort_returns_iff v).trans ?_
      simp
    · exact iff_of_true (validate_total h₁ h₂ v) (by simp [h₁, h₂])

end Returning

end IpaDiagnose.T
