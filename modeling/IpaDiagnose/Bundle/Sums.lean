import IpaDiagnose.Bundle.Scanned

/-!
# What the checksums of an accepted archive cover

An archive without a problem has exactly the members its entries name,
each with the digest `SHA256SUMS` lists for it. What the check of the
checksums does not ask is whether every name listed is there:
`accepted_sums_iff` says that the list covers exactly the archive unless
it names an optional member the archive does not have.
-/

namespace IpaDiagnose.Bundle

open Py (Value Dict)

/-! ## Lines of checksums -/

theorem cutChars_spec {sep : List Char} : ∀ {cs a b : List Char},
    PyStr.cutChars sep cs = some (a, b) → cs = a ++ sep ++ b
  | [], a, b, h => by cases h
  | c :: cs, a, b, h => by
      rw [PyStr.cutChars] at h
      split at h
      · rename_i hprefix
        obtain ⟨t, ht⟩ := List.isPrefixOf_iff_prefix.mp hprefix
        obtain ⟨rfl, rfl⟩ : [] = a ∧ (c :: cs).drop sep.length = b := by simpa using h
        rw [List.nil_append, ← ht, List.drop_left]
      · obtain ⟨⟨a', b'⟩, hcut, heq⟩ := Option.map_eq_some_iff.mp h
        obtain ⟨rfl, rfl⟩ : c :: a' = a ∧ b' = b := by simpa using heq
        rw [cutChars_spec hcut]
        rfl

theorem sumsLine?_some {line : List Char} {p : String × String} (h : sumsLine? line = some p) :
    line = sumsLine p ∧ p.1 ∈ ALL_MEMBERS ∧ p.1 ≠ "SHA256SUMS" := by
  unfold sumsLine? at h
  split at h
  · cases h
  · rename_i digest name hcut
    split at h
    · cases h
    · rename_i hgood
      obtain rfl := Option.some.inj h
      simp only [ne_eq, Bool.or_eq_true, not_or, Bool.not_eq_true, Bool.not_eq_false',
        List.contains_iff_mem, beq_eq_false_iff_ne] at hgood
      refine ⟨?_, by simpa using hgood.1.2, by simpa using hgood.2⟩
      simp only [cutChars_spec hcut, sumsLine, String.toList_ofList]

/-- The lines that were accepted are the lines of what is listed, no name
twice. -/
theorem listLines_ok {lines : List (List Char)} : ∀ {listed out : List (String × String)},
    listLines lines listed = .ok out → (listed.map Prod.fst).Nodup →
      ∃ more, out = listed ++ more ∧ lines = more.map sumsLine
        ∧ (∀ p ∈ more, p.1 ∈ ALL_MEMBERS ∧ p.1 ≠ "SHA256SUMS") ∧ (out.map Prod.fst).Nodup := by
  induction lines with
  | nil =>
      intro listed out h hnd
      obtain rfl := Except.ok.inj h
      exact ⟨[], (List.append_nil _).symm, rfl, fun p hp => absurd hp List.not_mem_nil, hnd⟩
  | cons line lines ih =>
      intro listed out h hnd
      rw [listLines] at h
      split at h
      · cases h
      · rename_i name digest hline
        split at h
        · cases h
        · rename_i hnew
          have hfresh : name ∉ listed.map Prod.fst := fun hmem =>
            hnew (Assoc.lookup_isSome.mpr hmem)
          have hnd' : ((listed ++ [(name, digest)]).map Prod.fst).Nodup := by
            rw [List.map_append, List.nodup_append]
            refine ⟨hnd, List.nodup_singleton _, ?_⟩
            rintro a ha b hb rfl
            obtain rfl := List.mem_singleton.mp hb
            exact hfresh ha
          obtain ⟨more, rfl, rfl, hmore, hout⟩ := ih h hnd'
          obtain ⟨rfl, hname⟩ := sumsLine?_some hline
          refine ⟨(name, digest) :: more, by simp, rfl, ?_, hout⟩
          intro p hp
          rcases List.mem_cons.mp hp with rfl | hp
          · exact hname
          · exact hmore p hp

/-! ## Members of an accepted archive -/

/-- The members an archive's entries name. -/
def Archive.members : Archive → List (String × Content)
  | .error _ => []
  | .ok tar => tar.entries.map fun e => (memberName e.name, e.data)

/-- An entry is a problem, or one more member under a new and expected
name. -/
theorem readEntry_cases (r : ReadEntries) (e : TarEntry) :
    (readEntry r e).problems ≠ [] ∨
      ((readEntry r e).problems = r.problems
        ∧ (readEntry r e).contents = r.contents ++ [(memberName e.name, e.data)]
        ∧ memberName e.name ∈ ALL_MEMBERS ∧ memberName e.name ∉ r.contents.map Prod.fst) := by
  have hrefuse : ∀ problem, (r.refuse problem).problems ≠ [] := by
    intro problem h
    simp [ReadEntries.refuse] at h
  unfold readEntry
  dsimp only
  split
  · exact .inl (hrefuse _)
  · split
    · exact .inl (hrefuse _)
    · split
      · exact .inl (hrefuse _)
      · rename_i hname
        split
        · exact .inl (hrefuse _)
        · rename_i hnew
          split
          · exact .inl (hrefuse _)
          · refine .inr ⟨rfl, rfl, ?_, fun hmem => hnew (Assoc.lookup_isSome.mpr hmem)⟩
            simp only [unexpectedName, Bool.or_eq_true, not_or, Bool.not_eq_true,
              Bool.not_eq_false', List.contains_iff_mem] at hname
            exact hname.2

theorem readEntries_from {entries : List TarEntry} : ∀ {r : ReadEntries},
    (entries.foldl readEntry r).problems = [] → (r.contents.map Prod.fst).Nodup →
    (∀ c ∈ r.contents, c.1 ∈ ALL_MEMBERS) →
      (entries.foldl readEntry r).contents
          = r.contents ++ entries.map (fun e => (memberName e.name, e.data))
        ∧ ((entries.foldl readEntry r).contents.map Prod.fst).Nodup
        ∧ ∀ c ∈ (entries.foldl readEntry r).contents, c.1 ∈ ALL_MEMBERS := by
  have hkeep : ∀ (entries : List TarEntry) (r : ReadEntries),
      (entries.foldl readEntry r).problems = [] → r.problems = [] := by
    intro entries
    induction entries with
    | nil => exact fun r h => h
    | cons e entries ih =>
        intro r h
        rcases readEntry_cases r e with hbad | ⟨hproblems, -⟩
        · exact absurd (ih _ h) hbad
        · rw [← hproblems]
          exact ih _ h
  induction entries with
  | nil => exact fun _ hnd hall => ⟨(List.append_nil _).symm, hnd, hall⟩
  | cons e entries ih =>
      intro r h hnd hall
      rcases readEntry_cases r e with hbad | ⟨-, hcontents, hname, hfresh⟩
      · exact absurd (hkeep entries _ h) hbad
      · have hnd' : ((readEntry r e).contents.map Prod.fst).Nodup := by
          rw [hcontents, List.map_append, List.nodup_append]
          refine ⟨hnd, List.nodup_singleton _, ?_⟩
          rintro a ha b hb rfl
          obtain rfl := List.mem_singleton.mp hb
          exact hfresh ha
        have hall' : ∀ c ∈ (readEntry r e).contents, c.1 ∈ ALL_MEMBERS := by
          rw [hcontents]
          intro c hc
          rcases List.mem_append.mp hc with hc | hc
          · exact hall c hc
          · obtain rfl := List.mem_singleton.mp hc
            exact hname
        obtain ⟨heq, hmore⟩ := ih h hnd' hall'
        refine ⟨?_, hmore⟩
        rw [List.foldl_cons, heq, hcontents]
        simp

/-- What an accepted archive's members are like. -/
structure Sound (tools : Tools) (members : List (String × Content)) : Prop where
  nodup : (members.map Prod.fst).Nodup
  known : ∀ m ∈ members, m.1 ∈ ALL_MEMBERS
  complete : ∀ name ∈ MEMBERS, ∃ data, (name, data) ∈ members
  sums : checkSums tools members = []

theorem Accepted.sound {tools : Tools} {archive : Archive} (h : Accepted tools archive) :
    Sound tools archive.members := by
  unfold Accepted validate at h
  split at h
  · simp at h
  · rename_i tar
    dsimp only at h
    split at h
    · simp at h
    · rename_i hcount
      split at h
      · simp at h
      · split at h
        · simp at h
        · obtain ⟨hread, hchecked⟩ := List.append_eq_nil_iff.mp h
          rw [List.take_of_length_le (by omega)] at hread hchecked
          obtain ⟨hcontents, hnd, hknown⟩ :=
            readEntries_from hread List.nodup_nil (fun c hc => absurd hc List.not_mem_nil)
          obtain ⟨hmissing, -, hsums, -⟩ := checkMembersRead_clean.mp hchecked
          have heq : (readEntries tar.entries).contents = Archive.members (.ok tar) := by
            rw [readEntries, hcontents]
            rfl
          rw [heq] at hmissing hsums
          have hnd : ((Archive.members (.ok tar)).map Prod.fst).Nodup := by
            rw [← heq]
            exact hnd
          refine ⟨hnd, ?_, ?_, hsums⟩
          · rw [← heq]
            exact hknown
          · intro name hname
            have hsome := (List.filter_eq_nil_iff.mp hmissing) name hname
            cases hlookup : (Archive.members (.ok tar)).lookup name with
            | none => rw [hlookup] at hsome; exact absurd rfl hsome
            | some data => exact ⟨data, Assoc.mem_of_lookup hlookup⟩

/-! ## Coverage -/

/-- The member `SHA256SUMS` is a list of lines, one for each other member
with its digest, and none for a name that is no member. -/
def SumsExact (tools : Tools) (members : List (String × Content)) : Prop :=
  ∃ (sums : Content) (listed : List (String × String)), ("SHA256SUMS", sums) ∈ members
    ∧ sumsLines sums = listed.map sumsLine ++ [[]]
    ∧ (listed.map Prod.fst).Nodup
    ∧ (∀ m ∈ members, m.1 ≠ "SHA256SUMS" → (m.1, tools.sha256 m.2) ∈ listed)
    ∧ ∀ p ∈ listed, ∃ data, (p.1, data) ∈ members

/-- A line of `SHA256SUMS` names an optional member that is not there. -/
def ListsAbsent (members : List (String × Content)) : Prop :=
  ∃ name ∈ OPTIONAL_MEMBERS, (∀ m ∈ members, m.1 ≠ name)
    ∧ ∃ (sums : Content) (digest : List Char), ("SHA256SUMS", sums) ∈ members
      ∧ digest ++ "  ".toList ++ name.toList ∈ sumsLines sums

/-- A name without a blank is read back from the end of its line. -/
theorem name_of_line {digest digest' name name' : List Char} (hname : ' ' ∉ name)
    (hname' : ' ' ∉ name') (h : digest ++ "  ".toList ++ name = digest' ++ "  ".toList ++ name') :
    name = name' := by
  have hend : ∀ {d n : List Char}, ' ' ∉ n →
      ((d ++ "  ".toList ++ n).reverse.takeWhile (· != ' ')).reverse = n := by
    intro d n hn
    have hall : ∀ c ∈ n.reverse, (c != ' ') = true := by
      intro c hc
      have hne : c ≠ ' ' := fun heq => hn (heq ▸ List.mem_reverse.mp hc)
      simpa using hne
    rw [List.reverse_append, List.takeWhile_append_of_pos hall, List.reverse_append]
    simp
  have hread := hend (d := digest) hname
  rw [h, hend hname'] at hread
  exact hread.symm

theorem no_blank {name : String} (h : name ∈ ALL_MEMBERS) : ' ' ∉ name.toList := by
  revert h
  exact (by decide : ∀ name ∈ ALL_MEMBERS, ' ' ∉ name.toList) name

/-- What the check of the checksums found in order. -/
theorem sums_in_order {tools : Tools} {members : List (String × Content)} {sums : Content}
    (hnd : (members.map Prod.fst).Nodup) (hmem : ("SHA256SUMS", sums) ∈ members)
    (h : checkSums tools members = []) :
    ∃ listed, sumsLines sums = listed.map sumsLine ++ [[]] ∧ (listed.map Prod.fst).Nodup
      ∧ (∀ p ∈ listed, p.1 ∈ ALL_MEMBERS ∧ p.1 ≠ "SHA256SUMS")
      ∧ ∀ name ∈ ALL_MEMBERS, sumProblem tools members listed name = none := by
  unfold checkSums at h
  rw [Assoc.lookup_of_mem hnd hmem] at h
  dsimp only at h
  unfold ascii? at h
  split at h
  · cases h
  · rename_i text htext
    split at htext
    · obtain rfl := Option.some.inj htext
      obtain ⟨hend, hlist⟩ := List.append_eq_nil_iff.mp h
      have hlast : (sumsLines sums).getLast? = some [] := by
        by_contra hne
        unfold sumsLines at hne
        rw [if_neg hne] at hend
        cases hend
      split at hlist
      · cases hlist
      · rename_i listed hlines
        obtain ⟨more, rfl, hmore, hnames, hnodup⟩ := listLines_ok hlines List.nodup_nil
        refine ⟨_, ?_, hnodup, hnames, ?_⟩
        · rw [← hmore]
          exact (List.dropLast_append_getLast? _ hlast).symm
        · intro name hname
          by_contra hne
          obtain ⟨p, hp⟩ := Option.ne_none_iff_exists'.mp hne
          exact List.ne_nil_of_mem (List.mem_filterMap.mpr ⟨name, hname, hp⟩) hlist
    · cases htext

theorem Sound.sums_unique {tools : Tools} {members : List (String × Content)}
    (h : Sound tools members) {sums sums' : Content} (hs : ("SHA256SUMS", sums) ∈ members)
    (hs' : ("SHA256SUMS", sums') ∈ members) : sums = sums' := by
  have hlookup := Assoc.lookup_of_mem h.nodup hs
  rw [Assoc.lookup_of_mem h.nodup hs'] at hlookup
  exact (Option.some.inj hlookup).symm

theorem Sound.not_listsAbsent {tools : Tools} {members : List (String × Content)}
    (h : Sound tools members) (hexact : SumsExact tools members) : ¬ ListsAbsent members := by
  obtain ⟨sums, listed, hsums, hlines, -, -, hthere⟩ := hexact
  rintro ⟨name, hopt, habsent, sums', digest, hsums', hline⟩
  have hname : name ∈ ALL_MEMBERS :=
    (by decide : ∀ name ∈ OPTIONAL_MEMBERS, name ∈ ALL_MEMBERS) name hopt
  rw [h.sums_unique hsums' hsums, hlines] at hline
  rcases List.mem_append.mp hline with hline | hline
  · obtain ⟨p, hp, heq⟩ := List.mem_map.mp hline
    obtain ⟨data, hdata⟩ := hthere p hp
    have hsame := name_of_line (no_blank (h.known _ hdata)) (no_blank hname) heq
    exact habsent _ hdata (String.toList_inj.mp hsame)
  · simp at hline

theorem Sound.sumsExact {tools : Tools} {members : List (String × Content)}
    (h : Sound tools members) (hpresent : ¬ ListsAbsent members) : SumsExact tools members := by
  obtain ⟨sums, hmem⟩ := h.complete "SHA256SUMS" (by decide)
  obtain ⟨listed, hlines, hnodup, hnames, hproblems⟩ := sums_in_order h.nodup hmem h.sums
  refine ⟨sums, listed, hmem, hlines, hnodup, ?_, ?_⟩
  · intro m hm hne
    have hproblem := hproblems m.1 (h.known m hm)
    rw [sumProblem, if_neg hne, Assoc.lookup_of_mem h.nodup hm] at hproblem
    dsimp only at hproblem
    split at hproblem
    · cases hproblem
    · rename_i digest hlisted
      split at hproblem
      · cases hproblem
      · rename_i heq
        rw [not_ne_iff.mp heq]
        exact Assoc.mem_of_lookup hlisted
  · intro p hp
    by_contra hnone
    obtain ⟨hall, hne⟩ := hnames p hp
    have hopt : p.1 ∈ OPTIONAL_MEMBERS := by
      have hsplit : ∀ name ∈ ALL_MEMBERS, name ∈ MEMBERS ∨ name ∈ OPTIONAL_MEMBERS := by decide
      rcases hsplit _ hall with hmember | hopt
      · exact absurd (h.complete _ hmember) hnone
      · exact hopt
    refine hpresent ⟨p.1, hopt, ?_, sums, p.2.toList, hmem, ?_⟩
    · rintro m hm heq
      exact hnone ⟨m.2, heq ▸ hm⟩
    · rw [hlines]
      exact List.mem_append_left _ (List.mem_map_of_mem hp)

/-- The checksums of an accepted archive cover exactly its members unless
they name an optional member it does not have. -/
theorem accepted_sums_iff (tools : Tools) (archive : Archive) (h : Accepted tools archive) :
    SumsExact tools archive.members ↔ ¬ ListsAbsent archive.members :=
  ⟨h.sound.not_listsAbsent, h.sound.sumsExact⟩

/-! ## A small bundle -/

namespace Small

def readme : Content := Bytes.encode "ipa-diagnose support bundle\n".toList

/-- Every JSON member but the manifest. -/
def document : Content := Bytes.encode "\x7b\"source_mode\": \"LIVE\"\x7d\n".toList

def readmeDigest : String := "6b0a9d6943eaff068960223eb065534a45e8c8c715b200e80d62457bc718e268"

def documentDigest : String := "e566519929234cb1c7f7050998de378128d3b0a3b374969ac83dc8521cb5250c"

def manifestDigest : String := "d77b04a439f375c99507c32fad133f495b44732fbdd4a7d2ae8b08c4f887ff3a"

def documents : List String :=
  ["environment.json", "report.json", "healthcheck.json", "evidence.json",
    "collection-errors.json", "topology.json", "verification.json", "redaction-report.json"]

/-- The members the manifest speaks of, with their digests. -/
def documented : List ((String × Content) × String) :=
  (("README.txt", readme), readmeDigest)
    :: documents.map fun name => ((name, document), documentDigest)

/-- What the manifest says of a member, as it is written and as it is
read. -/
def entryText (member : (String × Content) × String) : List Char :=
  "\x7b\"name\": \"".toList ++ member.1.1.toList ++ "\", \"sha256\": \"".toList
    ++ member.2.toList ++ "\", \"bytes\": ".toList ++ (toString member.1.2.length).toList
    ++ "\x7d".toList

def entryDict (member : (String × Content) × String) : Dict :=
  [("name", .str member.1.1), ("sha256", .str member.2), ("bytes", .int member.1.2.length)]

def manifest : Content :=
  Bytes.encode ("\x7b\"bundle_format\": \"ipa-diagnose-support-bundle\", ".toList
    ++ "\"bundle_schema_version\": 1, \"source_mode\": \"LIVE\", \"members\": [".toList
    ++ ((documented.map entryText).intersperse ", ".toList).flatten ++ "]\x7d".toList)

def manifestDict : Dict :=
  [("bundle_format", .str BUNDLE_FORMAT), ("bundle_schema_version", .int 1),
    ("source_mode", .str "LIVE"),
    ("members", .list ((documented.map entryDict).map Value.dict))]

def documentDict : Dict := [("source_mode", .str "LIVE")]

def sha256 (data : Content) : String :=
  if data = readme then readmeDigest
  else if data = document then documentDigest
  else manifestDigest

def loads (data : Content) : Option Value :=
  if data = document then some (.dict documentDict)
  else if data = manifest then some (.dict manifestDict)
  else none

/-- Digests and documents of these texts; nothing in them is a secret. -/
def tools : Tools where
  sha256 := sha256
  loads := loads
  scanText _ _ _ := []
  secretKey _ := false
  late _ := false

/-- The lines of `SHA256SUMS`. -/
def sums : List (String × String) :=
  ("manifest.json", manifestDigest) :: documented.map fun member => (member.1.1, member.2)

def members (listed : List (String × String)) : List (String × Content) :=
  ("manifest.json", manifest) :: ("SHA256SUMS", sumsContent listed) :: documented.map Prod.fst

def archive (listed : List (String × String)) : Archive :=
  .ok ⟨(members listed).map plainEntry, none, false⟩

theorem readme_ne : readme ≠ document := by decide

/-- The manifest and the other documents differ in their third byte. -/
theorem manifest_ne : manifest ≠ document ∧ manifest ≠ readme := by
  refine ⟨fun h => ?_, fun h => ?_⟩
  · have hbyte : manifest[2]? = document[2]? := by rw [h]
    revert hbyte
    decide
  · have hbyte : manifest[2]? = readme[2]? := by rw [h]
    revert hbyte
    decide

theorem digest_readme : sha256 readme = readmeDigest := by
  rw [sha256, if_pos rfl]

theorem digest_document : sha256 document = documentDigest := by
  rw [sha256, if_neg readme_ne.symm, if_pos rfl]

theorem digest_manifest : sha256 manifest = manifestDigest := by
  rw [sha256, if_neg manifest_ne.2, if_neg manifest_ne.1]

theorem digest_documented : ∀ member ∈ documented, sha256 member.1.2 = member.2 := by
  intro member h
  rcases List.mem_cons.mp h with rfl | h
  · exact digest_readme
  · obtain ⟨name, -, rfl⟩ := List.mem_map.mp h
    exact digest_document

theorem tools_loads (data : Content) : tools.loads data = loads data := rfl

theorem json_document : strictJson tools document = some (.dict documentDict) := by
  have hloads : tools.loads document = some (.dict documentDict) := by
    rw [tools_loads, loads, if_pos rfl]
  have hdepth : depthOk MAX_JSON_DEPTH (.dict documentDict) = true := by decide
  rw [strictJson, hloads, Option.filter_some_pos hdepth]

theorem json_manifest : strictJson tools manifest = some (.dict manifestDict) := by
  have hloads : tools.loads manifest = some (.dict manifestDict) := by
    rw [tools_loads, loads, if_neg manifest_ne.1, if_pos rfl]
  have hdepth : depthOk MAX_JSON_DEPTH (.dict manifestDict) = true := by decide
  rw [strictJson, hloads, Option.filter_some_pos hdepth]

theorem digests : IsDigest readmeDigest ∧ IsDigest documentDigest ∧ IsDigest manifestDigest := by
  unfold IsDigest
  decide +kernel

theorem listable_sums : ∀ p ∈ sums, Listable p := by
  obtain ⟨hreadme, hdocument, hmanifest⟩ := digests
  intro p hp
  rcases List.mem_cons.mp hp with rfl | hp
  · exact ⟨by decide, by decide, hmanifest⟩
  · obtain ⟨member, hmember, rfl⟩ := List.mem_map.mp hp
    rcases List.mem_cons.mp hmember with rfl | hmember
    · exact ⟨by decide, by decide, hreadme⟩
    · obtain ⟨name, hname, rfl⟩ := List.mem_map.mp hmember
      have hall : ∀ name ∈ documents, name ∈ ALL_MEMBERS ∧ name ≠ "SHA256SUMS" := by decide
      exact ⟨(hall name hname).1, (hall name hname).2, hdocument⟩

theorem members_names (listed : List (String × String)) :
    (members listed).map Prod.fst
      = ["manifest.json", "SHA256SUMS", "README.txt"] ++ documents := by
  simp [members, documented, Function.comp_def]

/-- A member is the manifest, the checksums, or described with its digest. -/
theorem mem_members {listed : List (String × String)} {m : String × Content}
    (h : m ∈ members listed) :
    m = ("manifest.json", manifest) ∨ m = ("SHA256SUMS", sumsContent listed)
      ∨ m = ("README.txt", readme) ∨ ∃ name ∈ documents, m = (name, document) := by
  simp only [members, documented, List.map_cons, List.map_map, List.mem_cons, List.mem_map,
    Function.comp_apply] at h
  rcases h with rfl | rfl | rfl | ⟨name, hname, rfl⟩
  · exact .inl rfl
  · exact .inr (.inl rfl)
  · exact .inr (.inr (.inl rfl))
  · exact .inr (.inr (.inr ⟨name, hname, rfl⟩))

theorem known_members {listed : List (String × String)} :
    ∀ m ∈ members listed, m.1 ∈ ALL_MEMBERS := by
  intro m hm
  have hmem := List.mem_map_of_mem (f := Prod.fst) hm
  rw [members_names] at hmem
  exact (by decide : ∀ name ∈ ["manifest.json", "SHA256SUMS", "README.txt"] ++ documents,
    name ∈ ALL_MEMBERS) _ hmem

theorem complete_members (listed : List (String × String)) :
    ∀ name ∈ MEMBERS, ∃ data, (name, data) ∈ members listed := by
  intro name hname
  rw [← Assoc.mem_keys, Assoc.keys, members_names]
  exact (by decide : ∀ name ∈ MEMBERS,
    name ∈ ["manifest.json", "SHA256SUMS", "README.txt"] ++ documents) name hname

theorem described_members (listed : List (String × String)) :
    described (members listed) = documented.map Prod.fst := by
  rw [members, described, List.filter_cons_of_neg (by simp), List.filter_cons_of_neg (by simp),
    List.filter_eq_self]
  intro m hm
  have hmem := List.mem_map_of_mem (f := Prod.fst) hm
  exact (by decide : ∀ name ∈ (documented.map Prod.fst).map Prod.fst,
    (name != "manifest.json" && name != "SHA256SUMS") = true) _ hmem

theorem describes (listed : List (String × String)) :
    Describes tools (members listed) manifestDict := by
  refine ⟨rfl, rfl, .inl rfl, documented.map entryDict, rfl, ?_⟩
  rw [described_members, List.forall₂_map_left_iff, List.forall₂_map_right_iff, List.forall₂_same]
  intro member hmember
  refine ⟨rfl, ?_, rfl⟩
  show Value.str member.2 = Value.str (sha256 member.1.2)
  rw [digest_documented member hmember]

theorem utf8_encode (cs : List Char) : utf8? (Bytes.encode cs) = some (String.ofList cs) := by
  rw [utf8?, Bytes.decode_encode, if_pos rfl]

/-- Nothing in any of the members is refused. -/
theorem clean_members {listed : List (String × String)} {name : String} {data : Content}
    (hmem : (name, data) ∈ members listed) (hname : name ≠ "SHA256SUMS") :
    Clean tools name data := by
  rcases mem_members hmem with heq | heq | heq | ⟨name', hname', heq⟩
  · obtain ⟨rfl, rfl⟩ := Prod.mk.inj heq
    refine ⟨⟨_, utf8_encode _⟩, fun _ => ⟨manifestDict, json_manifest, ?_⟩, fun _ _ => rfl⟩
    exact fun h => absurd h (by decide)
  · exact absurd (Prod.mk.inj heq).1 hname
  · obtain ⟨rfl, rfl⟩ := Prod.mk.inj heq
    exact ⟨⟨_, utf8_encode _⟩, fun h => absurd h (by decide), fun _ _ => rfl⟩
  · obtain ⟨rfl, rfl⟩ := Prod.mk.inj heq
    exact ⟨⟨_, utf8_encode _⟩, fun _ => ⟨documentDict, json_document, fun _ => rfl⟩,
      fun _ _ => rfl⟩

theorem saysMode_members {listed : List (String × String)} {name : String} {data : Content}
    (hmem : (name, data) ∈ members listed) : SaysMode tools (.str "LIVE") name data := by
  intro hjson hname _ obj hobj
  rcases mem_members hmem with heq | heq | heq | ⟨name', hname', heq⟩
  · exact absurd (Prod.mk.inj heq).1 hname
  · obtain ⟨rfl, -⟩ := Prod.mk.inj heq
    exact absurd hjson (by decide)
  · obtain ⟨rfl, -⟩ := Prod.mk.inj heq
    exact absurd hjson (by decide)
  · obtain ⟨-, rfl⟩ := Prod.mk.inj heq
    obtain rfl := Value.dict.inj (Option.some.inj (json_document.symm.trans hobj))
    decide

/-- The texts of a member of a small bundle. -/
theorem memberTexts_le {listed : List (String × String)} {name : String} {data : Content}
    (hmem : (name, data) ∈ members listed) (hname : name ≠ "SHA256SUMS") :
    (memberTexts tools name data).length ≤ 100
      ∧ charCount (memberTexts tools name data) ≤ 2000 := by
  rcases mem_members hmem with heq | heq | heq | ⟨name', hname', heq⟩
  · obtain ⟨rfl, rfl⟩ := Prod.mk.inj heq
    have hjson : isJson "manifest.json" = true := by decide +kernel
    rw [memberTexts, if_pos hjson, json_manifest]
    decide +kernel
  · exact absurd (Prod.mk.inj heq).1 hname
  · obtain ⟨rfl, rfl⟩ := Prod.mk.inj heq
    have hjson : isJson "README.txt" = false := by decide +kernel
    rw [memberTexts, hjson, if_neg Bool.false_ne_true, readme, utf8_encode]
    decide +kernel
  · obtain ⟨rfl, rfl⟩ := Prod.mk.inj heq
    have hjson : isJson name = true := (by decide +kernel : ∀ name ∈ documents, isJson name = true) _ hname'
    rw [memberTexts, if_pos hjson, json_document]
    decide +kernel

theorem scanned_le (listed : List (String × String)) (names : List String) :
    (scanned tools (members listed) names).length ≤ 100 * names.length
      ∧ charCount (scanned tools (members listed) names) ≤ 2000 * names.length := by
  induction names with
  | nil => exact ⟨Nat.le_refl 0, Nat.le_refl 0⟩
  | cons name names ih =>
      rw [scanned, List.flatMap_cons, ← scanned, List.length_append, charCount_append,
        List.length_cons]
      have hname : (namedTexts tools (members listed) name).length ≤ 100
          ∧ charCount (namedTexts tools (members listed) name) ≤ 2000 := by
        rw [namedTexts]
        split
        · exact ⟨Nat.zero_le _, Nat.zero_le _⟩
        · rename_i data hdata
          split
          · exact ⟨Nat.zero_le _, Nat.zero_le _⟩
          · rename_i hname
            exact memberTexts_le (Assoc.mem_of_lookup hdata) hname
      obtain ⟨hlength, hchars⟩ := hname
      omega

theorem fits_members (listed : List (String × String)) :
    Fits tools {} (scanned tools (members listed) ALL_MEMBERS) := by
  obtain ⟨hlength, hchars⟩ := scanned_le listed ALL_MEMBERS
  have hnames : ALL_MEMBERS.length = 14 := rfl
  rw [hnames] at hlength hchars
  refine ⟨?_, ?_, fun _ _ _ _ => rfl⟩
  · show 0 + _ ≤ 200000
    omega
  · show 0 + _ ≤ 24 * 1024 * 1024
    omega

/-- The list of checksums has every member with its digest. -/
structure Covers (listed : List (String × String)) : Prop where
  listable : ∀ p ∈ listed, Listable p
  nodup : (listed.map Prod.fst).Nodup
  all : ∀ p ∈ sums, p ∈ listed

theorem Covers.checkSums {listed : List (String × String)} (h : Covers listed) :
    checkSums tools (members listed) = [] := by
  refine checkSums_content h.listable h.nodup rfl fun name data hlookup hname => ?_
  rcases mem_members (Assoc.mem_of_lookup hlookup) with heq | heq | heq | ⟨name', hname', heq⟩
  · obtain ⟨rfl, rfl⟩ := Prod.mk.inj heq
    have hdigest : tools.sha256 manifest = manifestDigest := digest_manifest
    rw [hdigest]
    exact h.all _ List.mem_cons_self
  · exact absurd (Prod.mk.inj heq).1 hname
  · obtain ⟨rfl, rfl⟩ := Prod.mk.inj heq
    have hdigest : tools.sha256 readme = readmeDigest := digest_readme
    rw [hdigest]
    exact h.all _ (by simp [sums, documented])
  · obtain ⟨rfl, rfl⟩ := Prod.mk.inj heq
    have hdigest : tools.sha256 document = documentDigest := digest_document
    rw [hdigest]
    refine h.all _ ?_
    simp [sums, documented, hname']

/-- A member is small, and is no archive. -/
theorem Covers.member {listed : List (String × String)} (h : Covers listed) :
    ∀ m ∈ members listed,
      m.2.length ≤ MEMBER_BYTES ∧ MAGIC.any (·.isPrefixOf m.2) = false := by
  intro m hm
  rcases mem_members hm with rfl | rfl | rfl | ⟨name, -, rfl⟩
  · decide +kernel
  · exact ⟨sumsContent_length h.listable h.nodup, sumsContent_unnested h.listable⟩
  · decide
  · show document.length ≤ MEMBER_BYTES ∧ MAGIC.any (·.isPrefixOf document) = false
    decide

theorem Covers.accepted {listed : List (String × String)} (h : Covers listed) :
    Accepted tools (archive listed) := by
  have hmember := h.member
  have hnd : ((members listed).map Prod.fst).Nodup := by
    rw [members_names]
    decide
  have hmanifest := checkManifest_describes hnd known_members (complete_members listed) rfl
    json_manifest (describes listed)
  refine (accepted_plain hnd known_members fun m hm => (hmember m hm).1).mpr
    (checkMembersRead_clean.mpr ⟨?_, ?_, h.checkSums, hmanifest.1, ?_⟩)
  · rw [missingMembers, List.filter_eq_nil_iff]
    intro name hname
    obtain ⟨data, hdata⟩ := complete_members listed name hname
    rw [Assoc.lookup_of_mem hnd hdata]
    exact Bool.false_ne_true
  · rw [nested, List.map_eq_nil_iff, List.filter_eq_nil_iff]
    intro m hm
    rw [(hmember m hm).2]
    exact Bool.false_ne_true
  · rw [hmanifest.2]
    refine (checkContent_clean (by exact ⟨Nat.zero_le _, Nat.zero_le _⟩) ?_).mpr
      ⟨fits_members listed, ?_⟩
    · exact fun name _ data hdata hname => clean_members (Assoc.mem_of_lookup hdata) hname
    · exact fun name _ data hdata _ => saysMode_members (Assoc.mem_of_lookup hdata)

theorem covers_sums : Covers sums := ⟨listable_sums, by decide, fun _ h => h⟩

theorem sums_accepted : Accepted tools (archive sums) :=
  covers_sums.accepted

/-- The sums of the small bundle, and one for `access.json`. -/
def moreSums : List (String × String) := sums ++ [("access.json", documentDigest)]

theorem covers_moreSums : Covers moreSums := by
  refine ⟨fun p hp => ?_, by decide, fun p h => List.mem_append_left _ h⟩
  rcases List.mem_append.mp hp with hp | hp
  · exact listable_sums p hp
  · obtain rfl := List.mem_singleton.mp hp
    exact ⟨by decide, by decide, digests.2.1⟩

theorem moreSums_accepted : Accepted tools (archive moreSums) :=
  covers_moreSums.accepted

theorem archive_members (listed : List (String × String)) :
    (archive listed).members = members listed := by
  rw [archive, Archive.members, List.map_map]
  refine (List.map_congr_left fun m _ => ?_).trans (List.map_id _)
  rw [Function.comp_apply, memberName_plain]
  rfl

end Small

/-- A bundle as it is built lists its members and no other. -/
theorem small_sums_exact :
    SumsExact Small.tools (Small.archive Small.sums).members
      ↔ ¬ ListsAbsent (Small.archive Small.sums).members :=
  accepted_sums_iff Small.tools (Small.archive Small.sums) Small.sums_accepted

/-- A digest for `access.json`, which is not there, is accepted. -/
theorem absent_member_accepted :
    ¬ ∀ tools archive, Accepted tools archive → SumsExact tools archive.members := by
  intro h
  have hexact := h _ _ Small.moreSums_accepted
  refine Small.moreSums_accepted.sound.not_listsAbsent hexact ?_
  rw [Small.archive_members]
  refine ⟨"access.json", by decide, ?_, sumsContent Small.moreSums, Small.documentDigest.toList,
    by simp [Small.members], ?_⟩
  · intro m hm heq
    have hmem := List.mem_map_of_mem (f := Prod.fst) hm
    rw [Small.members_names, heq] at hmem
    revert hmem
    decide
  · rw [sumsLines_content Small.covers_moreSums.listable]
    refine List.mem_append_left _ (List.mem_map.mpr ⟨("access.json", Small.documentDigest), ?_, rfl⟩)
    exact List.mem_append_right _ List.mem_cons_self

end IpaDiagnose.Bundle
