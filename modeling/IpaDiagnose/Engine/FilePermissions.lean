import IpaDiagnose.Engine.FileModes
import IpaDiagnose.Engine.Model
import IpaDiagnose.Lib.Assoc
import IpaDiagnose.Lib.PyEq

/-!
# Wrong owners, groups and modes of files

The health check's file results are merged to one target a file and kind.
The resolution engine is given the targets; it validates their values by
type.
-/

namespace IpaDiagnose.DirectoryServer

open Py (Value)

def FILE_SOURCE : String := "ipahealthcheck.ipa.files"

def FILE_CHECKS : List String := ["IPAFileCheck", "IPAFileNSSDBCheck", "TomcatFileCheck"]

/-! ## The results -/

def kwGet (f : Finding) (k : String) (default : Value) : Value :=
  (f.keywords.lookup k).getD default

/-- An owner, group or mode result, with text for the path and both values. -/
def isFileResult (f : Finding) : Bool :=
  ["owner", "group", "mode"].contains (PyStr.lower (kwGet f "type" (.str "")).toStr)
    && ["path", "expected", "got"].all (fun k => (kwGet f k .null).isStr)
    && !PyStr.startsWith (PyStr.lower (kwGet f "got" (.str "")).toStr) "unknown "

def fileFindings (findings : List Finding) : List Finding :=
  (findings.filter fun f => f.source == FILE_SOURCE && FILE_CHECKS.contains f.check).filter
    isFileResult

/-! ## Key material -/

def SECRET_DIRS : List String :=
  ["private", "custodia", "dnssec", "backup", "passwds", "keys", "secrets", "tokens"]

def SECRET_WORDS : List String :=
  ["key", "pass", "pwd", "pin", "secret", "token", "ccache", "cred", "stash", "authtok", "p12",
    "pfx"]

/-- Files whose ownership is never changed automatically. -/
def isKeyMaterial (path : String) : Bool :=
  let low := PyStr.lower path
  let parts := (low.toList.splitOn '/').map String.ofList
  let name := parts.getLastD ""
  parts.dropLast.any SECRET_DIRS.contains || PyStr.startsWith name "."
    || SECRET_WORDS.any (PyStr.contains name) || PyStr.startsWith name "dse.ldif"
    || PyStr.startsWith low "/etc/sssd/"

/-! ## The targets -/

inductive Kind where
  | mode
  | owner
  | group
deriving DecidableEq, Repr

def Kind.word : Kind → String
  | .mode => "mode"
  | .owner => "owner"
  | .group => "group"

def Kind.ofWord? : String → Option Kind
  | "mode" => some .mode
  | "owner" => some .owner
  | "group" => some .group
  | _ => none

/-- Unlike `isFileResult` this takes a type as it is written: the lists have
no item for a result whose type is in capitals. -/
def kindOf (f : Finding) : Option Kind := Kind.ofWord? (kwGet f "type" (.str "")).toStr

structure Target where
  path : Value
  expected : Value
  got : Value
  delta : Option Delta
  withhold_reason : Option String
deriving DecidableEq

def KEY_MATERIAL_REASON : String :=
  "it holds keys or secrets, so ipa-diagnose never suggests changing its owner or "
    ++ "group - review it and change it yourself if appropriate"

def conflictReason (a b : Value) : String :=
  "ipa-healthcheck reported conflicting expected values " ++ "(" ++ a.toStr ++ " / " ++ b.toStr
    ++ "), so none is chosen"

/-- The item of the first result for a file and kind. -/
def newTarget (kind : Kind) (path expected got : Value) : Target :=
  match kind with
  | .mode => ⟨path, expected, got, some (modeDelta got expected), none⟩
  | _ =>
      if isKeyMaterial path.toStr then ⟨path, .null, got, none, some KEY_MATERIAL_REASON⟩
      else ⟨path, expected, got, none, none⟩

/-- The items so far, by kind and path and in the order they came in. The
lists the source returns hold the same items; a path is a text here. -/
abbrev Seen := List ((Kind × Value) × Target)

def addResult (seen : Seen) (f : Finding) : Seen :=
  match kindOf f with
  | none => seen
  | some kind =>
      let path := kwGet f "path" .null
      let expected := kwGet f "expected" .null
      match seen.lookup (kind, path) with
      | some item =>
          -- different expected values make the item unusable: never pick one
          if !item.expected.pyEq expected then
            Assoc.put (kind, path)
              { item with
                expected := .null
                withhold_reason := some (conflictReason item.expected expected) } seen
          else seen
      | none => Assoc.put (kind, path) (newTarget kind path expected (kwGet f "got" .null)) seen

/-- The items of one kind. -/
def permissionTargets (findings : List Finding) (kind : Kind) : List Target :=
  ((findings.foldl addResult []).filter fun e => e.1.1 = kind).map (·.2)

/-! ## What the merge keeps -/

/-- The result is for this file and kind. -/
def About (k : Kind × Value) (f : Finding) : Prop :=
  kindOf f = some k.1 ∧ kwGet f "path" .null = k.2

theorem About.unique {k l : Kind × Value} {f : Finding} (hk : About k f) (hl : About l f) :
    k = l :=
  Prod.ext (Option.some.inj (hk.1.symm.trans hl.1)) (hk.2.symm.trans hl.2)

/-- The item was made of this result, and has lost at most its value. -/
structure MadeOf (item : Target) (kind : Kind) (f : Finding) : Prop where
  path : item.path = kwGet f "path" .null
  got : item.got = kwGet f "got" .null
  delta : kind = .mode → item.delta = some (modeDelta item.got (kwGet f "expected" .null))
  expected : item.expected ≠ .null → item.expected = kwGet f "expected" .null

structure Merged (fs : List Finding) (seen : Seen) : Prop where
  nodup : (Assoc.keys seen).Nodup
  made : ∀ e ∈ seen, ∃ f ∈ fs, About e.1 f ∧ MadeOf e.2 e.1.1 f
  agree : ∀ e ∈ seen, e.2.expected ≠ .null →
    ∀ f ∈ fs, About e.1 f → kwGet f "expected" .null = e.2.expected
  known : ∀ f ∈ fs, ∀ k, About k f → k ∈ Assoc.keys seen

theorem newTarget_madeOf {kind : Kind} (f : Finding) :
    MadeOf (newTarget kind (kwGet f "path" .null) (kwGet f "expected" .null)
      (kwGet f "got" .null)) kind f := by
  cases kind with
  | mode => exact ⟨rfl, rfl, fun _ => rfl, fun _ => rfl⟩
  | owner =>
      rw [newTarget.eq_2 _ _ _ _ (by simp)]
      split
      · exact ⟨rfl, rfl, (fun h => by cases h), fun h => absurd rfl h⟩
      · exact ⟨rfl, rfl, (fun h => by cases h), fun _ => rfl⟩
  | group =>
      rw [newTarget.eq_2 _ _ _ _ (by simp)]
      split
      · exact ⟨rfl, rfl, (fun h => by cases h), fun h => absurd rfl h⟩
      · exact ⟨rfl, rfl, (fun h => by cases h), fun _ => rfl⟩

theorem MadeOf.withheld {item : Target} {kind : Kind} {f : Finding} (h : MadeOf item kind f)
    (reason : Option String) :
    MadeOf { item with expected := .null, withhold_reason := reason } kind f :=
  ⟨h.path, h.got, h.delta, fun hne => absurd rfl hne⟩

theorem isStr_of_isFileResult {f : Finding} (h : isFileResult f = true) {k : String}
    (hk : k ∈ ["path", "expected", "got"]) : (kwGet f k .null).isStr = true := by
  simp only [isFileResult, Bool.and_eq_true, List.all_eq_true] at h
  exact h.1.2 k hk

/-- A result of no kind is passed over. -/
theorem Merged.skip {fs : List Finding} {seen : Seen} {f : Finding} (h : Merged fs seen)
    (hnew : ∀ k, About k f → k ∈ Assoc.keys seen ∧ ∀ e ∈ seen, e.1 = k →
      e.2.expected ≠ .null → kwGet f "expected" .null = e.2.expected) :
    Merged (fs ++ [f]) seen where
  nodup := h.nodup
  made e he := by
    obtain ⟨g, hg, hmade⟩ := h.made e he
    exact ⟨g, List.mem_append_left _ hg, hmade⟩
  agree e he hne g hg hkey := by
    rcases List.mem_append.mp hg with hg | hg
    · exact h.agree e he hne g hg hkey
    · rw [List.mem_singleton.mp hg] at hkey ⊢
      exact (hnew e.1 hkey).2 e he rfl hne
  known g hg k hkey := by
    rcases List.mem_append.mp hg with hg | hg
    · exact h.known g hg k hkey
    · rw [List.mem_singleton.mp hg] at hkey
      exact (hnew k hkey).1

/-- A result puts in an item made of this or an earlier result, with a
value only if it is theirs. -/
theorem Merged.insert {fs : List Finding} {seen : Seen} {f : Finding} {k : Kind × Value}
    {item : Target} (h : Merged fs seen) (hf : About k f)
    (hmade : ∃ g ∈ fs ++ [f], About k g ∧ MadeOf item k.1 g)
    (hagree : item.expected ≠ .null → ∀ g ∈ fs ++ [f], About k g →
      kwGet g "expected" .null = item.expected) :
    Merged (fs ++ [f]) (Assoc.put k item seen) where
  nodup := Assoc.nodup_keys_put h.nodup
  made e he := by
    rcases Assoc.mem_put_of_nodup h.nodup he with rfl | ⟨he, -⟩
    · exact hmade
    · obtain ⟨g, hg, hmade⟩ := h.made e he
      exact ⟨g, List.mem_append_left _ hg, hmade⟩
  agree e he hne g hg hkey := by
    rcases Assoc.mem_put_of_nodup h.nodup he with rfl | ⟨he, hother⟩
    · exact hagree hne g hg hkey
    · rcases List.mem_append.mp hg with hg | hg
      · exact h.agree e he hne g hg hkey
      · rw [List.mem_singleton.mp hg] at hkey
        exact absurd (hkey.unique hf) hother
  known g hg k' hkey := by
    rw [Assoc.mem_keys_put]
    rcases List.mem_append.mp hg with hg | hg
    · exact .inr (h.known g hg k' hkey)
    · rw [List.mem_singleton.mp hg] at hkey
      exact .inl (hkey.unique hf)

/-- One more result. -/
theorem addResult_merged {fs : List Finding} {seen : Seen} {f : Finding} (h : Merged fs seen)
    (hfs : ∀ f ∈ fs, isFileResult f = true) : Merged (fs ++ [f]) (addResult seen f) := by
  unfold addResult
  split
  · rename_i hnone
    exact h.skip fun k hk => absurd (hnone.symm.trans hk.1) nofun
  · rename_i kind hkind
    dsimp only
    have habout : About (kind, kwGet f "path" .null) f := ⟨hkind, rfl⟩
    split
    · rename_i item hlookup
      have hitem := Assoc.mem_of_lookup hlookup
      obtain ⟨g, hg, hgkey, hmade⟩ := h.made _ hitem
      split
      · exact h.insert habout ⟨g, List.mem_append_left _ hg, hgkey, hmade.withheld _⟩
          fun hne => absurd rfl hne
      · rename_i hsame
        refine h.skip fun k hk => ?_
        obtain rfl := hk.unique habout
        refine ⟨Assoc.mem_keys.mpr ⟨item, hitem⟩, fun e he hek hne => ?_⟩
        obtain rfl : e.2 = item := by
          have hl := Assoc.lookup_of_mem h.nodup he
          rw [hek, hlookup] at hl
          exact (Option.some.inj hl).symm
        -- the value kept is a text, and equal texts are the same
        have htext := isStr_of_isFileResult (hfs g hg) (show "expected" ∈ _ by simp)
        rw [← hmade.expected hne] at htext
        rw [Bool.not_eq_true', Bool.not_eq_false] at hsame
        rcases hexp : e.2.expected with _ | _ | _ | _ | s | _ | _
        case str =>
          rw [hexp] at hsame
          exact Py.pyEq_str.mp hsame
        all_goals
          rw [hexp] at htext
          cases htext
    · rename_i hlookup
      have hnew : (kind, kwGet f "path" .null) ∉ Assoc.keys seen := fun hk => by
        have := Assoc.lookup_isSome.mpr hk
        rw [hlookup] at this
        cases this
      refine h.insert habout ⟨f, by simp, habout, newTarget_madeOf f⟩ fun hne g hg hgkey => ?_
      rcases List.mem_append.mp hg with hg | hg
      · exact absurd (h.known g hg _ hgkey) hnew
      · rw [List.mem_singleton.mp hg]
        exact ((newTarget_madeOf f).expected hne).symm

/-- The results one after the other. -/
theorem foldl_addResult_merged {fs done : List Finding} {seen : Seen} (h : Merged done seen)
    (hdone : ∀ f ∈ done, isFileResult f = true) (hfs : ∀ f ∈ fs, isFileResult f = true) :
    Merged (done ++ fs) (fs.foldl addResult seen) := by
  induction fs generalizing done seen with
  | nil => rwa [List.append_nil]
  | cons f fs ih =>
      rw [List.append_cons, List.foldl_cons]
      refine ih (addResult_merged h hdone) ?_ fun g hg => hfs g (List.mem_cons_of_mem _ hg)
      intro g hg
      rcases List.mem_append.mp hg with hg | hg
      · exact hdone g hg
      · rw [List.mem_singleton.mp hg]
        exact hfs f List.mem_cons_self

theorem merged_results {fs : List Finding} (hfs : ∀ f ∈ fs, isFileResult f = true) :
    Merged fs (fs.foldl addResult []) :=
  @foldl_addResult_merged fs [] [] ⟨List.nodup_nil, nofun, nofun, nofun⟩ nofun hfs

/-! ## Conflicting results change nothing -/

theorem mem_permissionTargets {fs : List Finding} {kind : Kind} {item : Target}
    (h : item ∈ permissionTargets fs kind) :
    ∃ path, ((kind, path), item) ∈ fs.foldl addResult [] := by
  obtain ⟨⟨⟨kind', path⟩, item'⟩, he, rfl⟩ := List.mem_map.mp h
  obtain ⟨hmem, hkind⟩ := List.mem_filter.mp he
  obtain rfl : kind' = kind := of_decide_eq_true hkind
  exact ⟨path, hmem⟩

/-- No two targets of a kind are for the same file. -/
theorem Merged.nodup_paths {fs : List Finding} (h : Merged fs (fs.foldl addResult []))
    (kind : Kind) : ((permissionTargets fs kind).map (·.path)).Nodup := by
  have hpath : (permissionTargets fs kind).map (·.path)
      = ((fs.foldl addResult []).filter fun e => e.1.1 = kind).map (·.1.2) := by
    rw [permissionTargets, List.map_map]
    refine List.map_congr_left fun e he => ?_
    obtain ⟨f, -, hkey, hmade⟩ := h.made e (List.mem_of_mem_filter he)
    exact hmade.path.trans hkey.2
  rw [hpath]
  refine List.Nodup.map_on (fun a ha b hb hab => ?_) (h.nodup.of_map.filter _)
  have hkey : a.1 = b.1 := by
    obtain ⟨-, hakind⟩ := List.mem_filter.mp ha
    obtain ⟨-, hbkind⟩ := List.mem_filter.mp hb
    exact Prod.ext ((of_decide_eq_true hakind).trans (of_decide_eq_true hbkind).symm) hab
  have hla := Assoc.lookup_of_mem h.nodup (List.mem_of_mem_filter ha)
  have hlb := Assoc.lookup_of_mem h.nodup (List.mem_of_mem_filter hb)
  rw [hkey, hlb] at hla
  exact Prod.ext hkey (Option.some.inj hla).symm

/-- One target a file and kind; a target has an expected value only if all
results agree on it; and the mode change that loosens nothing makes the
expected mode of the reported one, by removing only, and can be undone. -/
theorem permissionTargets_settled (fs : List Finding) (hfs : ∀ f ∈ fs, isFileResult f = true)
    (kind : Kind) :
    ((permissionTargets fs kind).map (·.path)).Nodup
      ∧ (∀ item ∈ permissionTargets fs kind, item.expected ≠ .null →
          ∀ f ∈ fs, kindOf f = some kind → kwGet f "path" .null = item.path →
            kwGet f "expected" .null = item.expected)
      ∧ (kind = .mode → ∀ item ∈ permissionTargets fs kind, ∃ δ, item.delta = some δ
          ∧ (δ.loosens = .no → ∃ f ∈ fs, kindOf f = some .mode
            ∧ kwGet f "path" .null = item.path ∧ kwGet f "got" .null = item.got
            ∧ ∃ g e, item.got = .str g ∧ kwGet f "expected" .null = .str e
              ∧ (item.expected ≠ .null → item.expected = .str e)
              ∧ Tightens δ (ofOctal g) (ofOctal e))) := by
  have hmerged := merged_results hfs
  refine ⟨hmerged.nodup_paths kind, ?_, ?_⟩
  · intro item hitem hne f hf hkind hpath
    obtain ⟨path, hmem⟩ := mem_permissionTargets hitem
    obtain ⟨g, -, hkey, hmade⟩ := hmerged.made _ hmem
    exact hmerged.agree _ hmem hne f hf ⟨hkind, hpath.trans (hmade.path.trans hkey.2)⟩
  · rintro rfl item hitem
    obtain ⟨path, hmem⟩ := mem_permissionTargets hitem
    obtain ⟨f, hf, hkey, hmade⟩ := hmerged.made _ hmem
    refine ⟨_, hmade.delta rfl, fun hno => ⟨f, hf, hkey.1, hmade.path.symm, hmade.got.symm, ?_⟩⟩
    obtain ⟨g, e, hg, he, htight⟩ := modeDelta_no hno
    exact ⟨g, e, hg, he, fun hne => (hmade.expected hne).trans he, htight⟩

def modeResult (path expected got : String) : Finding where
  findingId := "f"
  source := FILE_SOURCE
  check := "IPAFileCheck"
  severity := .warning
  message := ""
  keywords := [("type", .str "mode"), ("path", .str path), ("expected", .str expected),
    ("got", .str got)]
  raw := []

/-- Two results on which value is expected, and one on another file. -/
theorem permissionTargets_settled_conflict :
    let fs := [modeResult "/etc/a" "0600" "0664", modeResult "/etc/b" "0640" "0664",
      modeResult "/etc/a" "0640" "0664"]
    ((permissionTargets fs .mode).map fun t => (t.path, t.expected))
        = [(.str "/etc/a", .null), (.str "/etc/b", .str "0640")]
      ∧ ((permissionTargets fs .mode).map (·.path)).Nodup :=
  ⟨by decide +kernel,
    (permissionTargets_settled _ (by decide +kernel) .mode).1⟩

end IpaDiagnose.DirectoryServer
