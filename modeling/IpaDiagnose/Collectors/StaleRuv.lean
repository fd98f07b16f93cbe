import IpaDiagnose.Collectors.Ruv
import IpaDiagnose.Lib.RegexWords

/-!
# Stale replica ids, neither made up nor lost

An item is not alive when its host is not listed, or when its server has a
newer id; each element of an output has an item. Two things stand in the
way: hosts are compared as they are written, and of the elements with one
id in one section only the first is kept. `stale_ruv_iff` says that
nothing else does.
-/

namespace IpaDiagnose.ReplicationAgreements

open Regex (Re)

/-! ## The elements of an output -/

/-- The elements of some lines, each with its section. -/
def sections (read : Suffix → String → Suffix × Option Element) : Suffix → List String →
    List Element
  | _, [] => []
  | suffix, raw :: lines => (read suffix raw).2.toList ++ sections read (read suffix raw).1 lines

def Element.key (e : Element) : Suffix × Nat := (e.suffix, e.replica_id)

/-- The first element with the key of another. -/
def firstWith (es : List Element) (key : Suffix × Nat) : Option Element :=
  es.find? fun e => e.key = key

/-- The elements whose key was not seen before. -/
def firsts : List (Suffix × Nat) → List Element → List Element
  | _, [] => []
  | seen, e :: es => if e.key ∈ seen then firsts seen es else e :: firsts (e.key :: seen) es

theorem mem_firsts {e : Element} : ∀ {es : List Element} {seen : List (Suffix × Nat)},
    e ∈ firsts seen es ↔ e.key ∉ seen ∧ firstWith es e.key = some e
  | [], seen => by simp [firsts, firstWith]
  | k :: es, seen => by
      rw [firsts, firstWith, List.find?_cons, ← firstWith]
      by_cases hk : k.key = e.key
      · have htrue : decide (k.key = e.key) = true := decide_eq_true hk
        rw [htrue]
        split
        · rename_i hseen
          rw [mem_firsts, ← hk]
          exact ⟨fun h => absurd hseen h.1, fun h => absurd hseen h.1⟩
        · rename_i hseen
          rw [List.mem_cons, mem_firsts]
          constructor
          · rintro (rfl | ⟨hnot, -⟩)
            · exact ⟨hseen, rfl⟩
            · exact absurd (hk ▸ List.mem_cons_self) hnot
          · exact fun h => .inl (Option.some.inj h.2).symm
      · have hfalse : decide (k.key = e.key) = false := decide_eq_false hk
        rw [hfalse]
        have hne : e ≠ k := fun heq => hk (by rw [heq])
        split
        · exact mem_firsts
        · rw [List.mem_cons, mem_firsts, List.mem_cons, not_or]
          exact ⟨fun h => (h.resolve_left hne).imp_left And.right,
            fun h => .inr ⟨⟨fun heq => hk heq.symm, h.1⟩, h.2⟩⟩

theorem firsts_nodup : ∀ {es : List Element} {seen : List (Suffix × Nat)},
    ((firsts seen es).map Element.key).Nodup
  | [], _ => List.nodup_nil
  | e :: es, seen => by
      rw [firsts]
      split
      · exact firsts_nodup
      · rw [List.map_cons, List.nodup_cons]
        refine ⟨fun hmem => ?_, firsts_nodup⟩
        obtain ⟨k, hk, heq⟩ := List.mem_map.mp hmem
        exact (mem_firsts.mp hk).1 (heq ▸ List.mem_cons_self)

/-! ## The items of an output -/

section Items

variable {read : Suffix → String → Suffix × Option Element} {known : KnownHosts}
  {method : Option String} {lines : List String} {i j : RuvItem} {items : List RuvItem}

/-- The loop makes an item of the first element with each key. -/
theorem loop_items : ∀ (lines : List String) (r : RuvReading),
    (lines.foldl (RuvReading.line read known method) r).items
      = r.items ++ (firsts r.seen (sections read r.suffix lines)).map (itemOf known method)
  | [], r => by simp [sections, firsts]
  | raw :: lines, r => by
      rw [List.foldl_cons, loop_items lines, sections]
      unfold RuvReading.line
      rcases hread : read r.suffix raw with ⟨suffix, _ | e⟩
      · rfl
      · dsimp only
        rw [Option.toList_some, List.singleton_append, firsts]
        by_cases hseen : e.key ∈ r.seen
        · have hkey : (e.suffix, e.replica_id) ∈ r.seen := hseen
          rw [if_pos hseen, if_pos hkey]
        · have hkey : (e.suffix, e.replica_id) ∉ r.seen := hseen
          rw [if_neg hseen, if_neg hkey, List.map_cons, List.append_assoc]
          rfl

/-- The items of some elements, before older ids are marked. -/
def firstItems (known : KnownHosts) (method : Option String) (es : List Element) : List RuvItem :=
  (firsts [] es).map (itemOf known method)

theorem parseRuv_eq : parseRuv read known method lines
    = flagDuplicateHostIds (firstItems known method (sections read .domain lines)) := by
  rw [parseRuv, loop_items, firstItems, List.nil_append]

theorem mem_firstItems {es : List Element} : i ∈ firstItems known method es
    ↔ ∃ e, firstWith es e.key = some e ∧ itemOf known method e = i := by
  simp [firstItems, mem_firsts]

/-- Items are named apart. -/
theorem firstItems_nodup {es : List Element} :
    ((firstItems known method es).map RuvItem.item_id).Nodup := by
  have hids : (firstItems known method es).map RuvItem.item_id
      = (firsts [] es).map Element.key := by
    rw [firstItems, List.map_map]
    rfl
  rw [hids]
  exact firsts_nodup

theorem eq_of_item_id (hnd : (items.map RuvItem.item_id).Nodup) (hi : i ∈ items) (hj : j ∈ items)
    (h : i.item_id = j.item_id) : i = j :=
  List.inj_on_of_nodup_map hnd hi hj h

/-! ## Older ids -/

theorem newest_spec : ∀ {items : List RuvItem}, items ≠ [] →
    ∃ keep ∈ items, newest items = some keep ∧ ∀ i ∈ items, i.replica_id ≤ keep.replica_id
  | [], h => absurd rfl h
  | [i], _ => ⟨i, List.mem_singleton.mpr rfl, rfl, fun j hj => by
      rw [List.mem_singleton.mp hj]⟩
  | i :: j :: items, _ => by
      obtain ⟨keep, hmem, hnewest, hall⟩ := newest_spec (List.cons_ne_nil j items)
      rw [newest, hnewest]
      dsimp only
      split
      · rename_i hlt
        refine ⟨keep, List.mem_cons_of_mem _ hmem, rfl, fun k hk => ?_⟩
        rcases List.mem_cons.mp hk with rfl | hk
        · exact Nat.le_of_lt hlt
        · exact hall k hk
      · rename_i hge
        refine ⟨i, List.mem_cons_self, rfl, fun k hk => ?_⟩
        rcases List.mem_cons.mp hk with rfl | hk
        · exact Nat.le_refl _
        · exact (hall k hk).trans (Nat.le_of_not_lt hge)

theorem sameServer_iff : sameServer i j = true ↔ i.suffix = j.suffix ∧ i.ldap_url = j.ldap_url := by
  simp [sameServer]

/-- An item is left as it is, and then it has the highest id of its
server; or it is marked, and its server has a higher one. -/
theorem flagDuplicate_cases (hnd : (items.map RuvItem.item_id).Nodup) (hi : i ∈ items) :
    (flagDuplicate items i = i ∧ ∀ j ∈ items, sameServer i j = true → j.replica_id ≤ i.replica_id)
      ∨ (flagDuplicate items i = { i with alive := some false, duplicate_host := true }
        ∧ ∃ j ∈ items, sameServer i j = true ∧ i.replica_id < j.replica_id) := by
  have hself : i ∈ items.filter (sameServer i) :=
    List.mem_filter.mpr ⟨hi, sameServer_iff.mpr ⟨rfl, rfl⟩⟩
  obtain ⟨keep, hkeep, hnewest, hall⟩ := newest_spec (List.ne_nil_of_mem hself)
  obtain ⟨hkeep, hserver⟩ := List.mem_filter.mp hkeep
  have hle : i.replica_id ≤ keep.replica_id := hall i hself
  unfold flagDuplicate
  dsimp only
  rw [hnewest]
  dsimp only
  by_cases heq : i.item_id = keep.item_id
  · obtain rfl := eq_of_item_id hnd hi hkeep heq
    rw [if_neg fun h => h.2 rfl]
    exact .inl ⟨rfl, fun j hj hs => hall j (List.mem_filter.mpr ⟨hj, hs⟩)⟩
  · have hne : i.replica_id ≠ keep.replica_id := by
      intro hid
      exact heq (Prod.ext (sameServer_iff.mp hserver).1 hid)
    have hlen : 2 ≤ (items.filter (sameServer i)).length := by
      have hkeep' : keep ∈ items.filter (sameServer i) := List.mem_filter.mpr ⟨hkeep, hserver⟩
      by_contra hshort
      obtain ⟨k, hk⟩ := List.length_eq_one_iff.mp
        (Nat.le_antisymm (Nat.le_of_lt_succ (Nat.lt_of_not_le hshort))
          (List.length_pos_of_mem hself))
      rw [hk] at hself hkeep'
      rw [List.mem_singleton.mp hself, List.mem_singleton.mp hkeep'] at hne
      exact hne rfl
    rw [if_pos ⟨hlen, heq⟩]
    exact .inr ⟨rfl, keep, hkeep, hserver, by omega⟩

theorem flagDuplicate_same (items : List RuvItem) (i : RuvItem) :
    (flagDuplicate items i).suffix = i.suffix ∧ (flagDuplicate items i).host = i.host
      ∧ (flagDuplicate items i).port = i.port
      ∧ (flagDuplicate items i).replica_id = i.replica_id := by
  unfold flagDuplicate
  dsimp only
  split
  · exact ⟨rfl, rfl, rfl, rfl⟩
  · split <;> exact ⟨rfl, rfl, rfl, rfl⟩

theorem flag_alive (items : List RuvItem) (i : RuvItem) :
    flagDuplicate items i = i ∨ (flagDuplicate items i).alive = some false := by
  unfold flagDuplicate
  dsimp only
  split
  · exact .inl rfl
  · split
    · exact .inr rfl
    · exact .inl rfl

end Items

/-! ## Hosts and ports -/

/-- The host and the port end where the text between them says. -/
def Element.Plain (e : Element) : Prop := ':' ∉ e.host.toList ∧ ':' ∉ e.port.toList

theorem group_plain {r : Re} {m : Regex.Match} {i : Nat} (h : m.Good r)
    (hreads : ¬ r.GroupReads i ':') : ':' ∉ (group m i).toList := by
  unfold group
  cases ht : m.group? i with
  | none => simp
  | some t => exact fun hmem => hreads (h.group? ht ':' hmem)

/-- The characters of a literal are in no group. -/
theorem lit_groupless (t : String) (i : Nat) (x : Char) : ¬ (Re.lit t).GroupReads i x := by
  unfold Re.lit
  induction t.toList with
  | nil => exact id
  | cons c cs ih =>
      cases cs with
      | nil => exact id
      | cons d ds => exact fun h => h.elim id ih

theorem colon_plain : hostChar.Reads ':' = False ∧ decimal.Reads ':' = False := by
  have hhost : (Regex.word ':' || ':' == '.' || ':' == '-') = false := by decide
  have hdecimal : Unicode.isDecimal ':' = false := by decide
  constructor
  · rw [hostChar, Re.Reads, hhost]
    simp
  · rw [decimal, Re.Reads, hdecimal]
    simp

theorem cls_groupless (i : Nat) (x : Char) :
    ¬ hostChar.GroupReads i x ∧ ¬ decimal.GroupReads i x
      ∧ ¬ Replication.nonBlank.GroupReads i x := ⟨id, id, id⟩

theorem ruvLine_reads : ¬ RUV_LINE_RE.GroupReads 1 ':' ∧ ¬ RUV_LINE_RE.GroupReads 2 ':' := by
  constructor <;>
    simp [RUV_LINE_RE, Re.seqAll, Re.GroupReads, Re.Reads, Re.star, Re.plus, Re.opt, Re.char,
      Replication.blank, lit_groupless, cls_groupless, colon_plain]

theorem nsds50ruv_reads : ¬ NSDS50RUV_RE.GroupReads 2 ':' ∧ ¬ NSDS50RUV_RE.GroupReads 3 ':' := by
  constructor <;>
    simp [NSDS50RUV_RE, Re.seqAll, Re.GroupReads, Re.Reads, Re.star, Re.plus, Re.char,
      Replication.blank, lit_groupless, cls_groupless, colon_plain]

theorem listLine_plain {suffix : Suffix} {raw : String} {e : Element}
    (h : (listLine suffix raw).2 = some e) : e.Plain := by
  unfold listLine at h
  dsimp only at h
  split at h
  · cases h
  · split at h
    · cases h
    · split at h
      · cases h
      · obtain ⟨m, hm, rfl⟩ := Option.map_eq_some_iff.mp h
        have hgood := Re.good_of_match hm
        exact ⟨group_plain hgood ruvLine_reads.1, group_plain hgood ruvLine_reads.2⟩

theorem ldifLine_plain {suffix : Suffix} {line : String} {e : Element}
    (h : (ldifLine suffix line).2 = some e) : e.Plain := by
  unfold ldifLine at h
  dsimp only at h
  split at h
  · cases h
  · split at h
    · cases h
    · obtain ⟨m, hm, rfl⟩ := Option.map_eq_some_iff.mp h
      have hgood := Re.good_of_findall (List.mem_of_head? hm)
      exact ⟨group_plain hgood nsds50ruv_reads.1, group_plain hgood nsds50ruv_reads.2⟩

theorem sections_plain {read : Suffix → String → Suffix × Option Element}
    (hread : ∀ suffix raw e, (read suffix raw).2 = some e → e.Plain) :
    ∀ {lines : List String} {suffix : Suffix}, ∀ e ∈ sections read suffix lines, e.Plain
  | [], _, _, h => by cases h
  | raw :: lines, suffix, e, h => by
      rw [sections] at h
      rcases List.mem_append.mp h with h | h
      · exact hread suffix raw e (Option.mem_toList.mp h)
      · exact sections_plain hread e h

/-- One text for the host and the port is one host. -/
theorem host_of_url {i j : RuvItem} (hi : ':' ∉ i.host.toList) (hport : ':' ∉ i.port.toList)
    (h : i.ldap_url = j.ldap_url) : i.host = j.host := by
  have hchars : i.host.toList ++ ':' :: i.port.toList = j.host.toList ++ ':' :: j.port.toList := by
    have := congrArg String.toList h
    simpa [RuvItem.ldap_url] using this
  have hparts := (List.append_cons_inj_of_notMem hi hport).mp hchars
  exact String.toList_inj.mp hparts.1

/-! ## Outputs -/

/-- An output that vectors are read from: of `list-ruv`, or of a search
below a base. -/
inductive Output where
  | list (stdout : String)
  | search (base : Suffix) (stdout : String)

/-- The elements the collector reads in it. -/
def Output.read : Output → List Element
  | .list stdout => sections listLine .domain (cutLines stdout)
  | .search _ stdout => sections ldifLine .domain (ldifLines stdout)

/-- The elements it holds: no line is cut, and what was searched is of one
suffix. -/
def Output.elements : Output → List Element
  | .list stdout => sections listLine .domain (Lines.splitlines stdout)
  | .search base stdout =>
      (sections ldifLine .domain (ldifLines stdout)).map fun e => { e with suffix := base }

def Output.items (known : KnownHosts) : Output → List RuvItem
  | .list stdout => parseListRuvOutput stdout known
  | .search _ stdout => parseLdapiRuvLdif stdout known

theorem Output.items_eq (known : KnownHosts) (o : Output) :
    ∃ method, o.items known = flagDuplicateHostIds (firstItems known method o.read) := by
  cases o with
  | list stdout => exact ⟨_, parseRuv_eq⟩
  | search base stdout => exact ⟨_, parseRuv_eq⟩

theorem Output.plain : ∀ (o : Output), ∀ e ∈ o.read, e.Plain
  | .list _ => sections_plain fun _ _ _ => listLine_plain
  | .search _ _ => sections_plain fun _ _ _ => ldifLine_plain

theorem Output.items_nil {known : KnownHosts} {o : Output} : o.items known = [] ↔ o.read = [] := by
  obtain ⟨method, heq⟩ := o.items_eq known
  rw [heq, flagDuplicateHostIds, firstItems, List.map_eq_nil_iff, List.map_eq_nil_iff]
  cases o.read with
  | nil => simp [firsts]
  | cons e es => simp [firsts]

/-! ## Marks -/

/-- A host is known, as host names are compared. -/
def KnownHosts.Knows (known : KnownHosts) (host : String) : Prop :=
  ∃ h ∈ known.hosts, PyStr.lower h = PyStr.lower host

/-- An item is rightly marked: its host is in none of the lists, and they
were read; or its server has a newer id. -/
def RightlyMarked (known : KnownHosts) (items : List RuvItem) (i : RuvItem) : Prop :=
  (known.complete = true ∧ ¬ known.Knows i.host)
    ∨ ∃ j ∈ items, sameServer i j = true ∧ i.replica_id < j.replica_id

/-- The hosts of the first elements are written as the lists write them. -/
def Output.SpelledAlike (known : KnownHosts) (o : Output) : Prop :=
  ∀ e, firstWith o.read e.key = some e → known.Knows e.host → e.host ∈ known.hosts

section Marks

variable {known : KnownHosts} {items : List RuvItem} {i j : RuvItem}

theorem alive_false {host : String} :
    known.alive host = some false ↔ known.complete = true ∧ host ∉ known.hosts := by
  unfold KnownHosts.alive
  split
  · rename_i h
    exact ⟨fun hfalse => (by cases hfalse), fun hnot => absurd h hnot.2⟩
  · rename_i h
    cases known.complete <;> simp [h]

theorem sameServer_flag (items : List RuvItem) (i j : RuvItem) :
    sameServer i (flagDuplicate items j) = sameServer i j := by
  obtain ⟨hsuffix, hhost, hport, -⟩ := flagDuplicate_same items j
  unfold sameServer RuvItem.ldap_url
  rw [hsuffix, hhost, hport]

/-- Marking older ids leaves servers and ids as they are. -/
theorem newer_flagged : (∃ j ∈ flagDuplicateHostIds items, sameServer i j = true
      ∧ i.replica_id < j.replica_id)
    ↔ ∃ j ∈ items, sameServer i j = true ∧ i.replica_id < j.replica_id := by
  constructor
  · rintro ⟨j, hj, hserver, hlt⟩
    obtain ⟨k, hk, rfl⟩ := List.mem_map.mp hj
    rw [sameServer_flag] at hserver
    rw [(flagDuplicate_same items k).2.2.2] at hlt
    exact ⟨k, hk, hserver, hlt⟩
  · rintro ⟨j, hj, hserver, hlt⟩
    refine ⟨flagDuplicate items j, List.mem_map_of_mem hj, ?_, ?_⟩
    · rwa [sameServer_flag]
    · rwa [(flagDuplicate_same items j).2.2.2]

/-- Marks are right where no host is known by another spelling. -/
theorem Output.rightly_of_spelled {o : Output}
    (h : known.complete = true → o.SpelledAlike known) :
    ∀ i ∈ o.items known, i.alive = some false → RightlyMarked known (o.items known) i := by
  obtain ⟨method, heq⟩ := o.items_eq known
  rw [heq]
  intro i hi halive
  obtain ⟨i₀, hi₀, rfl⟩ := List.mem_map.mp hi
  rcases flagDuplicate_cases firstItems_nodup hi₀ with ⟨hsame, -⟩ | ⟨hmarked, hnewer⟩
  · obtain ⟨e, hfirst, rfl⟩ := mem_firstItems.mp hi₀
    rw [hsame] at halive ⊢
    obtain ⟨hcomplete, hnot⟩ := alive_false.mp halive
    exact .inl ⟨hcomplete, fun hknows => hnot (h hcomplete e hfirst hknows)⟩
  · rw [hmarked]
    exact .inr (newer_flagged.mpr hnewer)

/-- A host known by another spelling has an item wrongly marked: that of
the newest id of its server. -/
theorem Output.spelled_of_rightly {o : Output}
    (h : ∀ i ∈ o.items known, i.alive = some false → RightlyMarked known (o.items known) i)
    (hcomplete : known.complete = true) : o.SpelledAlike known := by
  obtain ⟨method, heq⟩ := o.items_eq known
  rw [heq] at h
  intro e hfirst hknows
  by_contra hnot
  let items := firstItems known method o.read
  let i := itemOf known method e
  have hi : i ∈ items := mem_firstItems.mpr ⟨e, hfirst, rfl⟩
  have hself : i ∈ items.filter (sameServer i) :=
    List.mem_filter.mpr ⟨hi, sameServer_iff.mpr ⟨rfl, rfl⟩⟩
  obtain ⟨j, hgroup, -, hnewest⟩ := newest_spec (List.ne_nil_of_mem hself)
  obtain ⟨hj, hserver⟩ := List.mem_filter.mp hgroup
  obtain ⟨hsuffix, hurl⟩ := sameServer_iff.mp hserver
  have hplain : e.Plain := o.plain e (List.mem_of_find?_eq_some hfirst)
  have hhost : e.host = j.host := host_of_url hplain.1 hplain.2 hurl
  -- nothing of the server is newer, so the item stays as its host made it
  have hlast : ¬ ∃ k ∈ items, sameServer j k = true ∧ j.replica_id < k.replica_id := by
    rintro ⟨k, hk, hjk, hlt⟩
    obtain ⟨hsuffix', hurl'⟩ := sameServer_iff.mp hjk
    have hik : sameServer i k = true :=
      sameServer_iff.mpr ⟨hsuffix.trans hsuffix', hurl.trans hurl'⟩
    exact absurd (hnewest k (List.mem_filter.mpr ⟨hk, hik⟩)) (Nat.not_le_of_lt hlt)
  have hkept : flagDuplicate items j = j := by
    rcases flagDuplicate_cases firstItems_nodup hj with ⟨hsame, -⟩ | ⟨-, hnewer⟩
    · exact hsame
    · exact absurd hnewer hlast
  have halive : j.alive = some false := by
    obtain ⟨k, -, rfl⟩ := mem_firstItems.mp hj
    refine alive_false.mpr ⟨hcomplete, ?_⟩
    rwa [hhost] at hnot
  have hmem : j ∈ flagDuplicateHostIds items := by
    rw [← hkept]
    exact List.mem_map_of_mem hj
  rcases h j hmem halive with ⟨-, hunknown⟩ | hnewer
  · rw [hhost] at hknows
    exact hunknown hknows
  · exact hlast (newer_flagged.mp hnewer)

/-- An element is there in the items. -/
def Represented (items : List RuvItem) (e : Element) : Prop :=
  ∃ i ∈ items, i.suffix = e.suffix ∧ i.replica_id = e.replica_id ∧ i.host = e.host

/-- The first element with the id of this one is of the same host. -/
def Output.Keeps (o : Output) (e : Element) : Prop :=
  ∃ k, firstWith o.read e.key = some k ∧ k.host = e.host

theorem firstWith_key {es : List Element} {key : Suffix × Nat} {k : Element}
    (h : firstWith es key = some k) : k.key = key := by
  simpa using List.find?_some h

theorem Output.represented_iff {o : Output} {e : Element} :
    Represented (o.items known) e ↔ o.Keeps e := by
  obtain ⟨method, heq⟩ := o.items_eq known
  rw [heq]
  constructor
  · rintro ⟨i, hi, hsuffix, hid, hhost⟩
    obtain ⟨i₀, hi₀, rfl⟩ := List.mem_map.mp hi
    obtain ⟨hsuffix', hhost', -, hid'⟩ := flagDuplicate_same (firstItems known method o.read) i₀
    obtain ⟨k, hfirst, rfl⟩ := mem_firstItems.mp hi₀
    have hkey : k.key = e.key := Prod.ext (hsuffix'.symm.trans hsuffix) (hid'.symm.trans hid)
    exact ⟨k, hkey ▸ hfirst, hhost'.symm.trans hhost⟩
  · rintro ⟨k, hfirst, hhost⟩
    have hkey : k.key = e.key := firstWith_key hfirst
    have hk : itemOf known method k ∈ firstItems known method o.read :=
      mem_firstItems.mpr ⟨k, by rw [hkey]; exact hfirst, rfl⟩
    obtain ⟨hsuffix', hhost', -, hid'⟩ :=
      flagDuplicate_same (firstItems known method o.read) (itemOf known method k)
    exact ⟨_, List.mem_map_of_mem hk, hsuffix'.trans (congrArg Prod.fst hkey),
      hid'.trans (congrArg Prod.snd hkey), hhost'.trans hhost⟩

end Marks

/-! ## What a collection reads -/

/-- The output of a search that succeeded. -/
def searched (base : Suffix) : Ran → List Output
  | .error _ => []
  | .ok proc => if proc.returncode ≠ 0 then [] else [.search base proc.stdout]

/-- The outputs of the two searches, if both can be used. -/
def ldapiOutputs (server : Server) : List Output :=
  match server.ldapi with
  | .error _ => []
  | .ok ldapi =>
      match ldapiSearch (knownHosts server) true ldapi.domainRuv,
          ldapiSearch (knownHosts server) false ldapi.caRuv with
      | .ok _, .ok _ => searched .domain ldapi.domainRuv ++ searched .ca ldapi.caRuv
      | _, _ => []

/-- The outputs the vectors of a server are read from: that of `list-ruv`
if all of it is understood, else those of the searches. -/
def outputs (server : Server) : List Output :=
  if server.installed then
    match server.listRuv with
    | .error _ => ldapiOutputs server
    | .ok proc =>
        if proc.returncode ≠ 0 then ldapiOutputs server
        else if (Output.list proc.stdout).read = [] then ldapiOutputs server
        else if countUnparsedRuvLines proc.stdout ≠ 0 then ldapiOutputs server
        else [.list proc.stdout]
  else []

/-- What is collected, with an error or without. -/
def collected (server : Server) : Collected :=
  match collectLive server with
  | .ok c => c
  | .error e => e.partial_items

/-- The items that were read are those of the outputs. -/
def ReadFrom (known : KnownHosts) (outs : List Output) (reads : List (List RuvItem)) : Prop :=
  (∀ items ∈ reads, items = [] ∨ ∃ o ∈ outs, o.items known = items)
    ∧ ∀ o ∈ outs, o.items known = [] ∨ o.items known ∈ reads

theorem ReadFrom.nil (known : KnownHosts) : ReadFrom known [] [] :=
  ⟨fun _ h => (by cases h), fun _ h => (by cases h)⟩

/-- Reads without an item might as well be none. -/
theorem ReadFrom.empty {known : KnownHosts} {outs : List Output} {reads : List (List RuvItem)}
    (h : ReadFrom known outs reads) (hempty : ∀ items ∈ reads, items = []) :
    ReadFrom known outs [] :=
  ⟨fun _ hmem => (by cases hmem), fun o ho => .inl ((h.2 o ho).elim id (hempty _))⟩

theorem ldapiSearch_items {known : KnownHosts} {required : Bool} {ran : Ran}
    {items : List RuvItem} (base : Suffix) (h : ldapiSearch known required ran = .ok items) :
    (searched base ran = [] ∧ items = [])
      ∨ ∃ stdout, searched base ran = [.search base stdout]
        ∧ (Output.search base stdout).items known = items := by
  unfold ldapiSearch at h
  cases ran with
  | error e => cases h
  | ok proc =>
      dsimp only at h
      unfold searched
      by_cases hcode : proc.returncode ≠ 0
      · rw [if_pos hcode] at h
        split at h
        · cases h
          exact .inl ⟨if_pos hcode, rfl⟩
        · cases h
      · rw [if_neg hcode] at h
        split at h
        · cases h
        · split at h
          · cases h
          · cases h
            exact .inr ⟨proc.stdout, if_neg hcode, rfl⟩

theorem ldapiFallback_reads (server : Server) (primary_error : String) :
    ReadFrom (knownHosts server) (ldapiOutputs server)
        (ldapiFallback server (knownHosts server) primary_error).reads
      ∧ ((ldapiFallback server (knownHosts server) primary_error).noReplication = true →
        (ldapiFallback server (knownHosts server) primary_error).reads = []) := by
  unfold ldapiFallback ldapiReadRuv ldapiOutputs
  cases server.ldapi with
  | error e => exact ⟨.nil _, fun _ => rfl⟩
  | ok ldapi =>
      dsimp only
      rcases hdomain : ldapiSearch (knownHosts server) true ldapi.domainRuv with e | domain
      · exact ⟨.nil _, fun _ => rfl⟩
      · rcases hca : ldapiSearch (knownHosts server) false ldapi.caRuv with e | ca
        · exact ⟨.nil _, fun _ => rfl⟩
        · dsimp only
          have hread : ReadFrom (knownHosts server)
              (searched .domain ldapi.domainRuv ++ searched .ca ldapi.caRuv) [domain, ca] := by
            rcases ldapiSearch_items .domain hdomain with ⟨hd, rfl⟩ | ⟨out, hd, rfl⟩ <;>
              rcases ldapiSearch_items .ca hca with ⟨hc, rfl⟩ | ⟨out', hc, rfl⟩ <;>
              rw [hd, hc] <;> simp [ReadFrom]
          by_cases hnone : domain = [] ∧ ca = []
          · obtain ⟨rfl, rfl⟩ := hnone
            rw [if_pos ⟨rfl, rfl⟩]
            have hempty := hread.empty (by simp)
            cases ldapi.directoryManager <;> exact ⟨hempty, fun _ => rfl⟩
          · rw [if_neg hnone]
            exact ⟨hread, nofun⟩

theorem tryRunListRuv_reads (server : Server) (hinstalled : server.installed = true) :
    ReadFrom (knownHosts server) (outputs server) (tryRunListRuv server (knownHosts server)).reads
      ∧ ((tryRunListRuv server (knownHosts server)).noReplication = true →
        (tryRunListRuv server (knownHosts server)).reads = []) := by
  unfold tryRunListRuv outputs
  rw [if_pos hinstalled]
  cases server.listRuv with
  | error e => exact ldapiFallback_reads server _
  | ok proc =>
      dsimp only
      by_cases hcode : proc.returncode ≠ 0
      · rw [if_pos hcode, if_pos hcode]
        exact ldapiFallback_reads server _
      · rw [if_neg hcode, if_neg hcode]
        by_cases hnone : (Output.list proc.stdout).read = []
        · have hitems : parseListRuvOutput proc.stdout (knownHosts server) = [] :=
            Output.items_nil.mpr hnone
          rw [if_pos hnone, if_pos hitems]
          exact ldapiFallback_reads server _
        · have hitems : parseListRuvOutput proc.stdout (knownHosts server) ≠ [] :=
            fun h => hnone (Output.items_nil.mp h)
          rw [if_neg hnone, if_neg hitems]
          by_cases hcount : countUnparsedRuvLines proc.stdout ≠ 0
          · rw [if_pos hcount, if_pos hcount]
            exact ldapiFallback_reads server _
          · rw [if_neg hcount, if_neg hcount]
            refine ⟨⟨fun items hmem => .inr ⟨.list proc.stdout, List.mem_singleton.mpr rfl, ?_⟩,
              fun o ho => .inr ?_⟩, nofun⟩
            · exact (List.mem_singleton.mp hmem).symm
            · rw [List.mem_singleton.mp ho]
              exact List.mem_singleton.mpr rfl

/-- Agreements contradict only a read without items. -/
theorem consistentRead_reads (server : Server) (hinstalled : server.installed = true) :
    (consistentRead server).reads = (tryRunListRuv server (knownHosts server)).reads := by
  unfold consistentRead
  dsimp only
  split
  · rename_i h
    exact ((tryRunListRuv_reads server hinstalled).2 h.2).symm
  · rfl

theorem collectLive_reads (server : Server) (hinstalled : server.installed = true) :
    (collected server).reads = (consistentRead server).reads := by
  unfold collected collectLive
  rw [if_pos hinstalled]
  dsimp only
  cases (listErrorLeft server (consistentRead server)).toList
      ++ (consistentRead server).error.toList with
  | nil => rfl
  | cons e es => rfl

/-- The items collected, error or not, are those of the outputs. -/
theorem collected_reads (server : Server) :
    ReadFrom (knownHosts server) (outputs server) (collected server).reads := by
  by_cases hinstalled : server.installed = true
  · rw [collectLive_reads server hinstalled, consistentRead_reads server hinstalled]
    exact (tryRunListRuv_reads server hinstalled).1
  · have hnone : (collected server).reads = [] := by
      unfold collected collectLive
      rw [if_neg hinstalled]
    have houts : outputs server = [] := if_neg hinstalled
    rw [hnone, houts]
    exact .nil _

/-! ## Neither made up nor lost -/

/-- No item is wrongly marked. -/
def NotManufactured (server : Server) : Prop :=
  ∀ items ∈ (collected server).reads, ∀ i ∈ items, i.alive = some false →
    RightlyMarked (knownHosts server) items i

/-- Where no error is reported, each element of the outputs has an item. -/
def NotLost (server : Server) : Prop :=
  ∀ c, collectLive server = .ok c → ∀ o ∈ outputs server, ∀ e ∈ o.elements, Represented c.ruv e

/-- Where the lists were read, they write the hosts as the vectors do. -/
def SpelledAlike (server : Server) : Prop :=
  (knownHosts server).complete = true → ∀ o ∈ outputs server, o.SpelledAlike (knownHosts server)

/-- Of each element of an output, the first that is read with its suffix
and its id is of the same host. -/
def FirstsKept (server : Server) : Prop :=
  ∀ o ∈ outputs server, ∀ e ∈ o.elements, ∃ o' ∈ outputs server, o'.Keeps e

theorem notManufactured_iff (server : Server) : NotManufactured server ↔ SpelledAlike server := by
  obtain ⟨hreads, houts⟩ := collected_reads server
  constructor
  · intro h hcomplete o ho
    refine Output.spelled_of_rightly (fun i hi => ?_) hcomplete
    rcases houts o ho with hnone | hmem
    · rw [hnone] at hi
      cases hi
    · exact h _ hmem i hi
  · intro h items hmem i hi
    rcases hreads items hmem with rfl | ⟨o, ho, rfl⟩
    · cases hi
    · exact Output.rightly_of_spelled (fun hcomplete => h hcomplete o ho) i hi

/-- The items of a collection are those of all its outputs. -/
theorem represented_ruv {server : Server} {c : Collected} (hc : collectLive server = .ok c)
    (e : Element) : Represented c.ruv e ↔ ∃ o ∈ outputs server, o.Keeps e := by
  obtain ⟨hreads, houts⟩ := collected_reads server
  have hcollected : collected server = c := by
    unfold collected
    rw [hc]
  rw [hcollected] at hreads houts
  constructor
  · rintro ⟨i, hi, hsame⟩
    obtain ⟨items, hmem, hi⟩ := List.mem_flatten.mp hi
    rcases hreads items hmem with rfl | ⟨o, ho, rfl⟩
    · cases hi
    · exact ⟨o, ho, Output.represented_iff.mp ⟨i, hi, hsame⟩⟩
  · rintro ⟨o, ho, hkeeps⟩
    have hrepresented : Represented (o.items (knownHosts server)) e :=
      Output.represented_iff.mpr hkeeps
    obtain ⟨i, hi, hsame⟩ := hrepresented
    rcases houts o ho with hnone | hmem
    · rw [hnone] at hi
      cases hi
    · exact ⟨i, List.mem_flatten.mpr ⟨_, hmem, hi⟩, hsame⟩

theorem notLost_iff (server : Server) :
    NotLost server ↔ ((∃ c, collectLive server = .ok c) → FirstsKept server) := by
  constructor
  · rintro h ⟨c, hc⟩ o ho e he
    exact (represented_ruv hc e).mp (h c hc o ho e he)
  · intro h c hc o ho e he
    exact (represented_ruv hc e).mpr (h ⟨c, hc⟩ o ho e he)

namespace Capital

/-- A server that calls itself `A` and stands in its vector as `a`. -/
def server : Server where
  hostname := "A"
  installed := true
  list := .ok { returncode := 0, stdout := "", stderr := "" }
  listMasters := .error ""
  listRuv := .ok { returncode := 0, stdout := "a:389: 4", stderr := "" }
  ldapi := .error ""

def item : RuvItem where
  replica_id := 4
  host := "a"
  port := "389"
  suffix := .domain
  csn := none
  alive := some false

theorem reads_item : (collected server).reads = [[item]] := by
  rw [collectLive_reads server rfl, consistentRead_reads server rfl]
  decide

end Capital

end IpaDiagnose.ReplicationAgreements
