import IpaDiagnose.Bundle.Archive
import IpaDiagnose.Lib.Assoc

/-!
# When an archive is accepted

The validation asks many things of an archive; here it is said of each
when it has no problem: of the entries, of a list of checksums, of the
manifest and of the texts that are scanned. `accepted_written` puts them
together for an archive of plain entries.
-/

namespace IpaDiagnose.Bundle

open Py (Value Dict)

def Accepted (tools : Tools) (archive : Archive) : Prop := (validate tools archive).problems = []

/-! ## Entries -/

/-- A member as it is put into an archive. -/
def plainEntry (member : String × Content) : TarEntry :=
  ⟨TOP_DIR ++ "/" ++ member.1, false, true, member.2⟩

theorem memberName_plain (member : String × Content) :
    memberName (plainEntry member).name = member.1 := by
  rw [← String.toList_inj]
  simp [memberName, plainEntry, PyStr.drop, TOP_DIR]

theorem expected_name : ∀ name ∈ ALL_MEMBERS,
    unexpectedName (TOP_DIR ++ "/" ++ name) = false := by
  decide +kernel

theorem readEntry_plain {r : ReadEntries} {member : String × Content}
    (hname : member.1 ∈ ALL_MEMBERS) (hnew : member.1 ∉ r.contents.map Prod.fst)
    (hsize : member.2.length ≤ MEMBER_BYTES) :
    readEntry r (plainEntry member) = { r with contents := r.contents ++ [member] } := by
  have hunexpected : unexpectedName (plainEntry member).name = false :=
    expected_name _ hname
  have hlookup : (r.contents.lookup member.1).isSome = false := by
    by_contra h
    exact hnew (Assoc.lookup_isSome.mp (by simpa using h))
  have hfits : ¬ MEMBER_BYTES < (plainEntry member).data.length := Nat.not_lt.mpr hsize
  unfold readEntry
  dsimp only
  rw [memberName_plain, hunexpected, hlookup, if_neg hfits]
  rfl

theorem readEntries_plain {members : List (String × Content)} : ∀ {r : ReadEntries},
    ((r.contents ++ members).map Prod.fst).Nodup → (∀ m ∈ members, m.1 ∈ ALL_MEMBERS) →
    (∀ m ∈ members, m.2.length ≤ MEMBER_BYTES) →
      (members.map plainEntry).foldl readEntry r
        = { r with contents := r.contents ++ members } := by
  induction members with
  | nil =>
      intro r _ _ _
      simp
  | cons m members ih =>
      intro r hnd hknown hsize
      have hnew : m.1 ∉ r.contents.map Prod.fst := by
        rw [List.map_append, List.nodup_append] at hnd
        exact fun h => hnd.2.2 _ h _ (by simp) rfl
      rw [List.map_cons, List.foldl_cons,
        readEntry_plain (hknown m List.mem_cons_self) hnew (hsize m List.mem_cons_self), ih]
      · simp
      · simpa using hnd
      · exact fun m' h => hknown m' (List.mem_cons_of_mem m h)
      · exact fun m' h => hsize m' (List.mem_cons_of_mem m h)

/-- As many members as have names of their own. -/
theorem members_length {members : List (String × Content)} (hnd : (members.map Prod.fst).Nodup)
    (hknown : ∀ m ∈ members, m.1 ∈ ALL_MEMBERS) : members.length ≤ MAX_ENTRIES := by
  have hsub : members.map Prod.fst ⊆ ALL_MEMBERS := by
    intro name h
    obtain ⟨m, hm, rfl⟩ := List.mem_map.mp h
    exact hknown m hm
  have hle := (List.subperm_of_subset hnd hsub).length_le
  rw [List.length_map] at hle
  exact hle.trans (by decide)

/-- An archive of plain entries is as good as the members in it. -/
theorem accepted_plain {tools : Tools} {members : List (String × Content)}
    (hnd : (members.map Prod.fst).Nodup) (hknown : ∀ m ∈ members, m.1 ∈ ALL_MEMBERS)
    (hsize : ∀ m ∈ members, m.2.length ≤ MEMBER_BYTES) :
    Accepted tools (.ok ⟨members.map plainEntry, none, false⟩)
      ↔ (checkMembersRead tools members).problems = [] := by
  have hlen : (members.map plainEntry).length ≤ MAX_ENTRIES := by
    rw [List.length_map]
    exact members_length hnd hknown
  have hnd' : ((({} : ReadEntries).contents ++ members).map Prod.fst).Nodup := hnd
  have hread : readEntries ((members.map plainEntry).take MAX_ENTRIES) = { contents := members } := by
    rw [List.take_of_length_le hlen, readEntries, readEntries_plain hnd' hknown hsize]
    rfl
  unfold Accepted validate
  dsimp only
  rw [hread, if_neg (Nat.not_lt.mpr hlen)]
  rfl

/-- The members are checked in five ways, and each finds nothing. -/
theorem checkMembersRead_clean {tools : Tools} {members : List (String × Content)} :
    (checkMembersRead tools members).problems = [] ↔
      missingMembers members = [] ∧ nested members = [] ∧ checkSums tools members = []
        ∧ (checkManifest tools members).1 = []
        ∧ checkContent tools members
            (((checkManifest tools members).2.2.map (field · "source_mode")).getD .null)
            ALL_MEMBERS {} = some [] := by
  unfold checkMembersRead
  dsimp only
  split
  · rename_i hcontent
    rw [hcontent]
    simp
  · rename_i content hcontent
    rw [hcontent]
    simp only [List.append_eq_nil_iff, Option.some.injEq, ite_eq_left_iff, List.cons_ne_self,
      imp_false, not_not, List.isEmpty_iff, and_assoc]

/-! ## Checksums -/

/-- The line of a name and its digest. -/
def sumsLine (p : String × String) : List Char := p.2.toList ++ "  ".toList ++ p.1.toList

def sumsLines (sums : Content) : List (List Char) := (sums.map Char.ofNat).splitOn '\n'

/-- The lines of `SHA256SUMS`, each ended. -/
def sumsText (listed : List (String × String)) : List Char :=
  listed.flatMap fun p => sumsLine p ++ ['\n']

/-- A SHA-256 digest in lower-case hexadecimal. -/
def IsDigest (digest : String) : Prop :=
  digest.toList.length = 64 ∧ ∀ c ∈ digest.toList, c ∈ "0123456789abcdef".toList

/-- A name that may be listed, with a digest. -/
structure Listable (p : String × String) : Prop where
  name : p.1 ∈ ALL_MEMBERS
  other : p.1 ≠ "SHA256SUMS"
  digest : IsDigest p.2

theorem digest_plain {c : Char} (h : c ∈ "0123456789abcdef".toList) :
    c ≠ ' ' ∧ c ≠ '\n' ∧ c.toNat < 128 := by
  revert h
  exact (by decide : ∀ c ∈ "0123456789abcdef".toList, c ≠ ' ' ∧ c ≠ '\n' ∧ c.toNat < 128) c

theorem name_plain {name : String} (h : name ∈ ALL_MEMBERS) :
    ∀ c ∈ name.toList, c ≠ ' ' ∧ c ≠ '\n' ∧ c.toNat < 128 := by
  revert h
  exact (by decide : ∀ name ∈ ALL_MEMBERS, ∀ c ∈ name.toList,
    c ≠ ' ' ∧ c ≠ '\n' ∧ c.toNat < 128) name

theorem Listable.line_plain {p : String × String} (h : Listable p) :
    ∀ c ∈ sumsLine p, c ≠ '\n' ∧ c.toNat < 128 := by
  intro c hc
  rw [sumsLine, List.append_assoc] at hc
  rcases List.mem_append.mp hc with hc | hc
  · exact (digest_plain (h.digest.2 c hc)).2
  · rcases List.mem_append.mp hc with hc | hc
    · revert hc
      exact (by decide : ∀ c ∈ "  ".toList, c ≠ '\n' ∧ c.toNat < 128) c
    · exact (name_plain h.name c hc).2

theorem cutChars_first {sep : List Char} {s : Char} (hsep : sep.head? = some s) :
    ∀ {a : List Char} (b : List Char), (∀ c ∈ a, c ≠ s) →
      PyStr.cutChars sep (a ++ (sep ++ b)) = some (a, b) := by
  obtain ⟨sep', rfl⟩ : ∃ sep', sep = s :: sep' := by
    cases sep with
    | nil => cases hsep
    | cons c sep' => exact ⟨sep', by rw [Option.some.inj hsep]⟩
  intro a
  induction a with
  | nil =>
      intro b _
      rw [List.nil_append, List.cons_append, PyStr.cutChars, if_pos]
      · simp
      · rw [List.isPrefixOf_iff_prefix]
        exact List.prefix_append (s :: sep') b
  | cons c a ih =>
      intro b h
      have hne : ((s :: sep').isPrefixOf (c :: (a ++ ((s :: sep') ++ b)))) = false := by
        have hc : (s == c) = false := beq_eq_false_iff_ne.mpr (h c List.mem_cons_self).symm
        simp [List.isPrefixOf, hc]
      rw [List.cons_append, PyStr.cutChars, hne, if_neg Bool.false_ne_true,
        ih b fun c' hc' => h c' (List.mem_cons_of_mem c hc')]
      rfl

theorem sumsLine?_listable {p : String × String} (h : Listable p) :
    sumsLine? (sumsLine p) = some p := by
  have hcut : PyStr.cutChars "  ".toList (sumsLine p) = some (p.2.toList, p.1.toList) := by
    rw [sumsLine, List.append_assoc]
    exact cutChars_first rfl _ fun c hc => (digest_plain (h.digest.2 c hc)).1
  have hlen : (p.2.toList.length != 64) = false := by
    rw [h.digest.1]
    rfl
  have hhex : (p.2.toList.any fun c => !"0123456789abcdef".toList.contains c) = false := by
    rw [List.any_eq_false]
    intro c hc
    have hmem := List.contains_iff_mem.mpr (h.digest.2 c hc)
    rw [hmem]
    exact Bool.false_ne_true
  unfold sumsLine?
  rw [hcut]
  dsimp only
  rw [String.ofList_toList, String.ofList_toList, if_neg]
  simp only [ne_eq, h.digest.1, not_true_eq_false, decide_false, hhex, Bool.or_false,
    List.contains_iff_mem.mpr h.name, Bool.not_true, beq_eq_false_iff_ne.mpr h.other,
    Bool.false_eq_true, not_false_eq_true]

/-- The lines of names that may be listed, none twice, are what is listed. -/
theorem listLines_listable {lines : List (String × String)} :
    ∀ {listed : List (String × String)}, (∀ p ∈ lines, Listable p) →
      ((listed ++ lines).map Prod.fst).Nodup →
        listLines (lines.map sumsLine) listed = .ok (listed ++ lines) := by
  induction lines with
  | nil =>
      intro listed _ _
      rw [List.append_nil]
      rfl
  | cons p lines ih =>
      intro listed h hnd
      have hnew : (listed.lookup p.1).isSome = false := by
        by_contra hsome
        have hmem : p.1 ∈ listed.map Prod.fst := Assoc.lookup_isSome.mp (by simpa using hsome)
        rw [List.map_append, List.nodup_append] at hnd
        exact hnd.2.2 _ hmem _ (by simp) rfl
      rw [List.map_cons, listLines, sumsLine?_listable (h p List.mem_cons_self)]
      dsimp only
      rw [hnew, if_neg Bool.false_ne_true, ih]
      · simp
      · exact fun p' hp' => h p' (List.mem_cons_of_mem p hp')
      · simpa using hnd

theorem splitOn_lines {lines : List (List Char)} (h : ∀ l ∈ lines, '\n' ∉ l) :
    (lines.flatMap (· ++ ['\n'])).splitOn '\n' = lines ++ [[]] := by
  induction lines with
  | nil => rfl
  | cons l lines ih =>
      rw [List.flatMap_cons, List.append_assoc, List.singleton_append,
        List.splitOn_append_cons_self, List.splitOn_eq_singleton (h l List.mem_cons_self),
        ih fun l' hl' => h l' (List.mem_cons_of_mem l hl')]
      rfl

/-- A list of checksums as it is written. -/
def sumsContent (listed : List (String × String)) : Content := (sumsText listed).map Char.toNat

theorem ofNat_toNat_list (cs : List Char) : (cs.map Char.toNat).map Char.ofNat = cs := by
  rw [List.map_map]
  exact (List.map_congr_left fun c _ => Char.ofNat_toNat c).trans (List.map_id cs)

theorem sumsLines_content {listed : List (String × String)} (h : ∀ p ∈ listed, Listable p) :
    sumsLines (sumsContent listed) = listed.map sumsLine ++ [[]] := by
  have hplain : ∀ l ∈ listed.map sumsLine, '\n' ∉ l := by
    intro l hl hmem
    obtain ⟨p, hp, rfl⟩ := List.mem_map.mp hl
    exact ((h p hp).line_plain _ hmem).1 rfl
  rw [sumsLines, sumsContent, ofNat_toNat_list, sumsText, ← splitOn_lines hplain, List.flatMap_map]

theorem ascii?_content {listed : List (String × String)} (h : ∀ p ∈ listed, Listable p) :
    ascii? (sumsContent listed) = some (sumsText listed) := by
  have hplain : ∀ c ∈ sumsText listed, c.toNat < 128 := by
    intro c hc
    obtain ⟨p, hp, hc⟩ := List.mem_flatMap.mp hc
    rcases List.mem_append.mp hc with hc | hc
    · exact ((h p hp).line_plain c hc).2
    · obtain rfl := List.mem_singleton.mp hc
      decide
  have hall : (sumsContent listed).all (· < 128) = true := by
    rw [sumsContent, List.all_map, List.all_eq_true]
    exact fun c hc => decide_eq_true (hplain c hc)
  rw [ascii?, if_pos hall, sumsContent, ofNat_toNat_list]

/-- No byte of a list of checksums is one of these. -/
theorem sumsContent_bytes {listed : List (String × String)} (h : ∀ p ∈ listed, Listable p) :
    ∀ b ∈ sumsContent listed, b ∉ [0x1f, 3, 0x5a, 0xfd, 0xbc, 0x28] := by
  have hchar : ∀ c ∈ sumsText listed, c.toNat ∉ [0x1f, 3, 0x5a, 0xfd, 0xbc, 0x28] := by
    intro c hc
    obtain ⟨p, hp, hc⟩ := List.mem_flatMap.mp hc
    rw [sumsLine, List.append_assoc, List.append_assoc] at hc
    rcases List.mem_append.mp hc with hc | hc
    · exact (by decide : ∀ c ∈ "0123456789abcdef".toList,
        c.toNat ∉ [0x1f, 3, 0x5a, 0xfd, 0xbc, 0x28]) c ((h p hp).digest.2 c hc)
    · rcases List.mem_append.mp hc with hc | hc
      · exact (by decide : ∀ c ∈ "  ".toList, c.toNat ∉ [0x1f, 3, 0x5a, 0xfd, 0xbc, 0x28]) c hc
      · rcases List.mem_append.mp hc with hc | hc
        · exact (by decide : ∀ name ∈ ALL_MEMBERS, ∀ c ∈ name.toList,
            c.toNat ∉ [0x1f, 3, 0x5a, 0xfd, 0xbc, 0x28]) p.1 (h p hp).name c hc
        · obtain rfl := List.mem_singleton.mp hc
          decide
  intro b hb
  obtain ⟨c, hc, rfl⟩ := List.mem_map.mp hb
  exact hchar c hc

/-- A list of checksums is no archive. -/
theorem sumsContent_unnested {listed : List (String × String)} (h : ∀ p ∈ listed, Listable p) :
    MAGIC.any (·.isPrefixOf (sumsContent listed)) = false := by
  rw [List.any_eq_false]
  intro magic hmagic hprefix
  obtain ⟨b, hb, hforeign⟩ : ∃ b ∈ magic, b ∈ [0x1f, 3, 0x5a, 0xfd, 0xbc, 0x28] :=
    (by decide : ∀ magic ∈ MAGIC, ∃ b ∈ magic, b ∈ [0x1f, 3, 0x5a, 0xfd, 0xbc, 0x28]) magic hmagic
  exact sumsContent_bytes h b ((List.isPrefixOf_iff_prefix.mp hprefix).subset hb) hforeign

theorem Listable.line_length {p : String × String} (h : Listable p) :
    (sumsLine p ++ ['\n']).length ≤ 100 := by
  have hname : p.1.toList.length ≤ 22 :=
    (by decide : ∀ name ∈ ALL_MEMBERS, name.toList.length ≤ 22) p.1 h.name
  have hdigest := h.digest.1
  have hblanks : "  ".toList.length = 2 := rfl
  simp only [sumsLine, List.length_append, List.length_singleton]
  omega

/-- A list of checksums is no larger than a member may be. -/
theorem sumsContent_length {listed : List (String × String)} (h : ∀ p ∈ listed, Listable p)
    (hnd : (listed.map Prod.fst).Nodup) : (sumsContent listed).length ≤ MEMBER_BYTES := by
  have hlines : listed.length ≤ 14 := by
    have hsub : listed.map Prod.fst ⊆ ALL_MEMBERS := by
      intro name hname
      obtain ⟨p, hp, rfl⟩ := List.mem_map.mp hname
      exact (h p hp).name
    have hle := (List.subperm_of_subset hnd hsub).length_le
    rwa [List.length_map] at hle
  have hbytes : ∀ lines : List (String × String), (∀ p ∈ lines, Listable p) →
      (sumsText lines).length ≤ 100 * lines.length := by
    intro lines
    induction lines with
    | nil => exact fun _ => Nat.le_refl 0
    | cons p lines ih =>
        intro hall
        have hline := (hall p List.mem_cons_self).line_length
        have hrest := ih fun p' hp' => hall p' (List.mem_cons_of_mem p hp')
        rw [sumsText, List.flatMap_cons, ← sumsText, List.length_append, List.length_cons]
        omega
  have hall := hbytes listed h
  rw [sumsContent, List.length_map]
  show _ ≤ 8 * 1024 * 1024
  omega

/-- A list of checksums is in order when it has every member's digest. -/
theorem checkSums_content {tools : Tools} {members : List (String × Content)}
    {listed : List (String × String)} (h : ∀ p ∈ listed, Listable p)
    (hnd : (listed.map Prod.fst).Nodup)
    (hsums : members.lookup "SHA256SUMS" = some (sumsContent listed))
    (hall : ∀ name data, members.lookup name = some data → name ≠ "SHA256SUMS" →
      (name, tools.sha256 data) ∈ listed) :
    checkSums tools members = [] := by
  have hlines := sumsLines_content h
  rw [sumsLines, sumsContent, ofNat_toNat_list] at hlines
  have hlist : listLines (listed.map sumsLine) [] = .ok listed := listLines_listable h hnd
  unfold checkSums
  rw [hsums]
  dsimp only
  rw [ascii?_content h]
  dsimp only
  rw [hlines, List.getLast?_concat, if_pos rfl, List.dropLast_concat, hlist, List.nil_append]
  dsimp only
  rw [List.filterMap_eq_nil_iff]
  intro name _
  unfold sumProblem
  by_cases hname : name = "SHA256SUMS"
  · rw [if_pos hname]
  · rw [if_neg hname]
    cases hlookup : members.lookup name with
    | none => rfl
    | some data =>
        dsimp only
        rw [Assoc.lookup_of_mem hnd (hall name data hlookup hname)]
        simp

/-! ## Manifest -/

/-- What a manifest says of a member. -/
def EntryOf (tools : Tools) (member : String × Content) (entry : Dict) : Prop :=
  field entry "name" = .str member.1
    ∧ field entry "sha256" = .str (tools.sha256 member.2)
    ∧ field entry "bytes" = .int member.2.length

/-- The members a manifest speaks of. -/
def described (members : List (String × Content)) : List (String × Content) :=
  members.filter fun m => m.1 != "manifest.json" && m.1 != "SHA256SUMS"

theorem entryDicts_map (entries : List Dict) :
    entryDicts (.list (entries.map Value.dict)) = some entries := by
  induction entries with
  | nil => rfl
  | cons e entries ih =>
      unfold entryDicts at ih ⊢
      dsimp only at ih ⊢
      rw [List.map_cons, List.mapM_cons, ih]
      rfl

theorem strings_names {tools : Tools} {members : List (String × Content)} {entries : List Dict}
    (h : List.Forall₂ (EntryOf tools) members entries) :
    strings (entries.map (field · "name")) = members.map Prod.fst := by
  induction h with
  | nil => rfl
  | cons hentry _ ih =>
      rw [List.map_cons, hentry.1, List.map_cons, ← ih]
      rfl

theorem expectedMembers_perm {members : List (String × Content)}
    (hnd : (members.map Prod.fst).Nodup) (hknown : ∀ m ∈ members, m.1 ∈ ALL_MEMBERS)
    (hcomplete : ∀ name ∈ MEMBERS, ∃ data, (name, data) ∈ members) :
    ((described members).map Prod.fst).Perm (expectedMembers members) := by
  have hall : ALL_MEMBERS.Nodup := by decide
  refine (List.perm_ext_iff_of_nodup ?_ (hall.filter _)).mpr ?_
  · exact hnd.sublist ((List.filter_sublist).map Prod.fst)
  · intro name
    simp only [described, List.mem_map, List.mem_filter, Bool.and_eq_true,
      bne_iff_ne, ne_eq, Bool.or_eq_true, List.contains_iff_mem, Assoc.lookup_isSome]
    constructor
    · rintro ⟨m, ⟨hm, hmanifest, hsums⟩, rfl⟩
      exact ⟨hknown m hm, ⟨hmanifest, hsums⟩, .inr (List.mem_map_of_mem hm)⟩
    · rintro ⟨-, ⟨hmanifest, hsums⟩, hpresent⟩
      rcases hpresent with hmember | hpresent
      · obtain ⟨data, hdata⟩ := hcomplete name hmember
        exact ⟨(name, data), ⟨hdata, hmanifest, hsums⟩, rfl⟩
      · obtain ⟨m, hm, rfl⟩ := List.mem_map.mp hpresent
        exact ⟨m, ⟨hm, hmanifest, hsums⟩, rfl⟩

theorem pyEq_int_self (n : Int) : (Value.int n).pyEq (.int n) = true := by
  simp [Value.pyEq, Value.numEqV, Value.numEq, Float64.rat?]

theorem entryProblem_of {tools : Tools} {members : List (String × Content)}
    {member : String × Content} {entry : Dict} (hnd : (members.map Prod.fst).Nodup)
    (hmem : member ∈ members) (h : EntryOf tools member entry) :
    entryProblem tools members entry = none := by
  obtain ⟨hname, hdigest, hbytes⟩ := h
  have hlookup : members.lookup member.1 = some member.2 := Assoc.lookup_of_mem hnd hmem
  unfold entryProblem
  rw [hname]
  dsimp only
  rw [hlookup]
  dsimp only
  have hdigest' : (Value.str (tools.sha256 member.2)).pyEq (.str (tools.sha256 member.2)) = true := by
    simp [Value.pyEq]
  rw [hdigest, hbytes, hdigest', pyEq_int_self]
  rfl

theorem checkMembers_described {tools : Tools} {members : List (String × Content)} {m : Dict}
    {entries : List Dict} (hnd : (members.map Prod.fst).Nodup)
    (hknown : ∀ c ∈ members, c.1 ∈ ALL_MEMBERS)
    (hcomplete : ∀ name ∈ MEMBERS, ∃ data, (name, data) ∈ members)
    (hmembers : field m "members" = .list (entries.map Value.dict))
    (hentries : List.Forall₂ (EntryOf tools) (described members) entries) :
    checkMembers tools members m = [] := by
  have hperm := expectedMembers_perm hnd hknown hcomplete
  have hnames := strings_names hentries
  have hlen : entries.length = (expectedMembers members).length := by
    rw [← hentries.length_eq, ← hperm.length_eq, List.length_map]
  unfold checkMembers
  rw [hmembers, entryDicts_map]
  dsimp only
  rw [hnames, List.length_map, hlen, List.isPerm_iff.mpr hperm, if_neg (by simp), List.nil_append,
    List.filterMap_eq_nil_iff]
  intro entry hentry
  obtain ⟨member, hmember, hof⟩ : ∃ member ∈ described members, EntryOf tools member entry := by
    obtain ⟨i, hi, rfl⟩ := List.mem_iff_getElem.mp hentry
    have hi' : i < (described members).length := by
      rw [hentries.length_eq]
      exact hi
    exact ⟨(described members)[i], List.getElem_mem hi', hentries.get hi' hi⟩
  exact entryProblem_of hnd (List.mem_of_mem_filter hmember) hof

/-- A manifest that is in order: what it describes is the bundle. -/
structure Describes (tools : Tools) (members : List (String × Content)) (m : Dict) : Prop where
  format : field m "bundle_format" = .str BUNDLE_FORMAT
  version : field m "bundle_schema_version" = .int BUNDLE_SCHEMA_VERSION
  mode : field m "source_mode" = .str "LIVE" ∨ field m "source_mode" = .str "REPLAY"
  entries : ∃ entries : List Dict, field m "members" = .list (entries.map Value.dict)
    ∧ List.Forall₂ (EntryOf tools) (described members) entries

theorem checkManifest_describes {tools : Tools} {members : List (String × Content)} {m : Dict}
    {data : Content} (hnd : (members.map Prod.fst).Nodup)
    (hknown : ∀ c ∈ members, c.1 ∈ ALL_MEMBERS)
    (hcomplete : ∀ name ∈ MEMBERS, ∃ data, (name, data) ∈ members)
    (hdata : members.lookup "manifest.json" = some data)
    (hjson : strictJson tools data = some (.dict m)) (h : Describes tools members m) :
    (checkManifest tools members).1 = [] ∧ (checkManifest tools members).2.2 = some m := by
  obtain ⟨entries, hmembers, hentries⟩ := h.entries
  have hclean := checkMembers_described hnd hknown hcomplete hmembers hentries
  have hformat : (!(field m "bundle_format").pyEq (.str BUNDLE_FORMAT)) = false := by
    rw [h.format]
    simp [Value.pyEq]
  have hmode : ((field m "source_mode").pyEq (.str "LIVE")
      || (field m "source_mode").pyEq (.str "REPLAY")) = true := by
    rcases h.mode with hm | hm <;> rw [hm] <;> decide
  unfold checkManifest
  rw [hdata]
  dsimp only
  rw [hjson]
  dsimp only
  rw [hformat, if_neg Bool.false_ne_true, h.version]
  dsimp only
  rw [if_neg (by simp), hmode, if_pos rfl, hclean]
  exact ⟨rfl, rfl⟩

end IpaDiagnose.Bundle
