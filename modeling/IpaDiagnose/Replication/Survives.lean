import IpaDiagnose.Lib.RegexWords
import IpaDiagnose.Replication.State

/-!
# What survives saving

A result is written to the state file without any limit, and read back
with several: patterns for subjects and steps, and limits on counts and
on the size of the file. It survives exactly when it is within them all
(`state_survives_iff`); two long host names are enough for it not to
(`long_names_lost`).
-/

namespace IpaDiagnose.Replication

open Py (Value Dict Exc)
open Planner (Outcome Record Trace)
open Regex (Re iter_cls_sound)
open Resolver (Resolution)
open Result

/-! ## The file -/

def SIZE_LIMIT : Nat := 2 * 1024 * 1024

/-- A file of some size, with a document in it. -/
def loadFile (size : Nat) (doc : Value) : Except LE LoadedState :=
  if SIZE_LIMIT < size then unreadable "too large" else load doc

/-- A diagnosis as far as it is saved. -/
def ReplDiagnosis.saved (d : ReplDiagnosis) : Finding :=
  { code := d.code.text, subject := d.subject, severity := d.severity, kind := d.kind
    explains := d.explains, evidence := d.evidence }

/-- What was saved is what is read back. -/
structure Preserved (r : ReplicationResult) (pending : List (String × Timestamp.Stamp))
    (p : LoadedState) : Prop where
  diagnoses : p.diagnoses = r.diagnoses.map ReplDiagnosis.saved
  relationships : ∀ x ∈ r.relationships, p.relationships.lookup x.subject
    = some [("state", x.state), ("last_update_end", x.lastUpdateEnd)]
  fixes : ∀ x ∈ r.resolutions.filterMap stateFix, p.fixes.lookup x.1 = some x.2
  pending : p.pending = pending

/-- A diagnosis within the limits of the reader. -/
structure ReplDiagnosis.Fits (d : ReplDiagnosis) : Prop where
  subject : SUBJECT_RE.fullmatch d.subject = true
  explains : d.explains.length ≤ EXPLAINS_LIMIT
  evidence : d.evidence.length ≤ EVIDENCE_LIMIT
  steps : ∀ sid ∈ d.evidence, STEP_RE.fullmatch sid = true

structure Fits (r : ReplicationResult) (pending : List (String × Timestamp.Stamp)) : Prop where
  diagnoses : r.diagnoses.length ≤ 200
  each : ∀ d ∈ r.diagnoses, d.Fits
  relationships : (stateRelationships r.relationships).length ≤ 200
  /-- Two agreements between the same servers are in the same state. -/
  single : ∀ x ∈ r.relationships, ∀ y ∈ r.relationships, x.subject = y.subject →
    x.state = y.state ∧ x.lastUpdateEnd = y.lastUpdateEnd
  fixes : (r.resolutions.filterMap stateFix).length ≤ 20
  pending : pending.length ≤ 200

/-! ## One diagnosis -/

theorem elementsOf_texts (ss : List String) : elementsOf (texts ss) = .ok (ss.map Value.str) := by
  cases ss with
  | nil => rfl
  | cons s ss => rfl

theorem textsOf_str (ss : List String) : textsOf (ss.map Value.str) = ss := by
  induction ss with
  | nil => rfl
  | cons s ss ih => exact congrArg (s :: ·) ih

theorem Code.shaped (c : Code) : CODE_RE.fullmatch c.text = true := by
  cases c <;> decide +kernel

theorem readSeverity_text (s : Severity) : readSeverity (.str s.text) = s := by
  cases s with
  | fail => decide
  | warn => decide

theorem readKind_text (k : Option Kind) : readKind (optText (k.map Kind.text)) = k := by
  cases k with
  | none => decide
  | some k => cases k <;> decide

/-- What is left of a diagnosis when it is read. -/
def ReplDiagnosis.cut (d : ReplDiagnosis) : Finding :=
  { d.saved with
    explains := d.explains.take EXPLAINS_LIMIT
    evidence := (d.evidence.filter STEP_RE.fullmatch).take EVIDENCE_LIMIT }

theorem stateDiagnosis_read {d : ReplDiagnosis} (h : SUBJECT_RE.fullmatch d.subject = true) :
    readFinding (.dict (stateDiagnosis d)) = .ok d.cut := by
  rw [readFinding_of (d := stateDiagnosis d) rfl rfl ⟨d.code.shaped, h⟩ (elementsOf_texts d.evidence)
    (elementsOf_texts d.explains), textsOf_str, textsOf_str]
  have hseverity : readSeverity (getField (stateDiagnosis d) "severity") = d.severity :=
    readSeverity_text d.severity
  have hkind : readKind (getField (stateDiagnosis d) "kind") = d.kind := readKind_text d.kind
  rw [hseverity, hkind]
  rfl

theorem take_filter_eq {α : Type} {q : α → Bool} {n : Nat} {xs : List α} :
    (xs.filter q).take n = xs ↔ xs.length ≤ n ∧ ∀ x ∈ xs, q x = true := by
  constructor
  · intro h
    have hle := congrArg List.length h
    rw [List.length_take] at hle
    have hfilter := List.length_filter_le q xs
    have hall : xs.filter q = xs := List.filter_eq_self.mpr ?_
    · exact ⟨by omega, List.filter_eq_self.mp hall⟩
    · have hlen : (xs.filter q).length = xs.length := by omega
      exact List.length_filter_eq_length_iff.mp hlen
  · rintro ⟨hlength, hall⟩
    rw [List.filter_eq_self.mpr hall, List.take_of_length_le hlength]

theorem cut_eq_saved {d : ReplDiagnosis} (h : SUBJECT_RE.fullmatch d.subject = true) :
    d.cut = d.saved ↔ d.Fits := by
  have hexplains : d.explains.take EXPLAINS_LIMIT = d.explains ↔ d.explains.length ≤ EXPLAINS_LIMIT :=
    ⟨fun hsame => by
      have hle := congrArg List.length hsame
      rw [List.length_take] at hle
      omega, List.take_of_length_le⟩
  constructor
  · intro hsame
    have hevidence := take_filter_eq.mp (congrArg Finding.evidence hsame)
    exact ⟨h, hexplains.mp (congrArg Finding.explains hsame), hevidence.1, hevidence.2⟩
  · intro hfits
    unfold ReplDiagnosis.cut
    rw [hexplains.mpr hfits.explains, take_filter_eq.mpr ⟨hfits.evidence, hfits.steps⟩]
    rfl

theorem readFindings_cut {ds : List ReplDiagnosis}
    (h : ∀ d ∈ ds, SUBJECT_RE.fullmatch d.subject = true) :
    readFindings (ds.map fun d => .dict (stateDiagnosis d)) = .ok (ds.map ReplDiagnosis.cut) := by
  induction ds with
  | nil => rfl
  | cons d ds ih =>
      rw [List.map_cons]
      unfold readFindings
      rw [stateDiagnosis_read (h d List.mem_cons_self),
        ih fun e he => h e (List.mem_cons_of_mem _ he)]
      rfl

/-! ## The other fields -/

def relationDict (x : Relationship) : Dict :=
  [("state", x.state), ("last_update_end", x.lastUpdateEnd)]

theorem relationDict_inj {x y : Relationship} :
    relationDict x = relationDict y ↔ x.state = y.state ∧ x.lastUpdateEnd = y.lastUpdateEnd := by
  simp [relationDict]

/-- The dictionary of the relationships. -/
def relationDicts (rs : List Relationship) : List (String × Dict) :=
  Assoc.update [] (rs.map fun x => (x.subject, relationDict x))

theorem stateRelationships_eq (rs : List Relationship) :
    stateRelationships rs = (relationDicts rs).map (Prod.map id Value.dict) := by
  have hmap := Assoc.update_map Value.dict [] (rs.map fun x => (x.subject, relationDict x))
  rw [List.map_map] at hmap
  exact hmap

theorem readRelationships_written (rs : List Relationship) :
    readRelationships (.dict (stateRelationships rs)) = (relationDicts rs).take 200 := by
  rw [readRelationships, dictOr, stateRelationships_eq, ← List.map_take, List.filterMap_map]
  exact List.filterMap_some

theorem relationships_preserved (rs : List Relationship) :
    (∀ x ∈ rs, ((relationDicts rs).take 200).lookup x.subject = some (relationDict x))
      ↔ (stateRelationships rs).length ≤ 200
        ∧ ∀ x ∈ rs, ∀ y ∈ rs, x.subject = y.subject →
          x.state = y.state ∧ x.lastUpdateEnd = y.lastUpdateEnd := by
  have hkept := Assoc.lookup_take_update 200 (rs.map fun x => (x.subject, relationDict x))
  simp only [List.forall_mem_map, relationDict_inj] at hkept
  rw [stateRelationships_eq, List.length_map]
  exact hkept

theorem readFixes_written (fixes : List (String × Value)) :
    readFixes (.dict fixes) = .ok (fixes.take 20) := by
  cases fixes with
  | nil => rfl
  | cons x fixes => rfl

theorem stateFix_key {x : String × Resolution} {y : String × Value} (h : stateFix x = some y) :
    y.1 = x.1 := by
  unfold stateFix at h
  split at h
  · cases h
  · split at h
    · obtain ⟨b, -, rfl⟩ := Option.map_eq_some_iff.mp h
      rfl
    · cases h

theorem stateFixes_keys (rs : List (String × Resolution)) :
    (Assoc.keys (rs.filterMap stateFix)).Sublist (rs.map Prod.fst) := by
  induction rs with
  | nil => exact .slnil
  | cons x rs ih =>
      rw [List.filterMap_cons]
      split
      · exact ih.cons _
      · rename_i y hy
        have hkeys : Assoc.keys (y :: rs.filterMap stateFix)
            = x.1 :: Assoc.keys (rs.filterMap stateFix) := by rw [← stateFix_key hy]; rfl
        rw [hkeys]
        exact ih.cons_cons _

theorem stateFixes_keyed (r : ReplicationResult) :
    (Assoc.keys (r.resolutions.filterMap stateFix)).Nodup :=
  r.keyed.sublist (stateFixes_keys r.resolutions)

theorem fixes_preserved (r : ReplicationResult) :
    (∀ x ∈ r.resolutions.filterMap stateFix,
        ((Assoc.update [] (r.resolutions.filterMap stateFix)).take 20).lookup x.1 = some x.2)
      ↔ (r.resolutions.filterMap stateFix).length ≤ 20 := by
  have hkeyed := stateFixes_keyed r
  rw [Assoc.lookup_take_update, Assoc.update_of_nodup (by simpa using hkeyed), List.nil_append]
  refine and_iff_left fun x hx y hy hkey => ?_
  have hsame : x = y := List.inj_on_of_nodup_map hkeyed hx hy hkey
  rw [hsame]

/-! ## Reading back -/

/-- What is left of a result when it is read. -/
def cutState (r : ReplicationResult) (pending : List (String × Timestamp.Stamp)) : LoadedState :=
  { generatedAt := r.generatedAt, host := textOnly r.host
    diagnoses := r.diagnoses.map ReplDiagnosis.cut
    relationships := (relationDicts r.relationships).take 200
    fixes := (Assoc.update [] (r.resolutions.filterMap stateFix)).take 20
    pending := pending.take 200, peer := r.peer }

theorem toState_read {r : ReplicationResult} (pending : List (String × Timestamp.Stamp))
    (hlength : r.diagnoses.length ≤ 200)
    (h : ∀ d ∈ r.diagnoses, SUBJECT_RE.fullmatch d.subject = true) :
    load (toState r pending) = .ok (cutState r pending) := by
  refine load_iff.mpr ⟨_, rfl, rfl, rfl, parseTime_text _, ⟨_, rfl, ?_⟩, readFixes_written _, ?_,
    readRelationships_written _, rfl, ?_⟩
  · rw [List.take_of_length_le (by simpa using hlength)]
    exact readFindings_cut h
  · have hwritten := readPending_written (pending.take 200)
    rw [List.map_take] at hwritten
    exact hwritten
  · show textOnly (optText r.peer) = r.peer
    cases r.peer with
    | none => rfl
    | some peer => rfl

theorem toState_shaped {r : ReplicationResult} {pending : List (String × Timestamp.Stamp)}
    {p : LoadedState} (h : load (toState r pending) = .ok p)
    (hsaved : p.diagnoses = r.diagnoses.map ReplDiagnosis.saved) :
    r.diagnoses.length ≤ 200 ∧ ∀ d ∈ r.diagnoses, SUBJECT_RE.fullmatch d.subject = true := by
  constructor
  · have hbounded := load_bounded h
    rw [hsaved, List.length_map] at hbounded
    exact hbounded
  · intro d hd
    have hmem : d.saved ∈ p.diagnoses := by
      rw [hsaved]
      exact List.mem_map_of_mem hd
    exact (load_shaped h d.saved hmem).subject

/-- **A saved result is read back as it was, exactly when it is within the
limits of the reader.** -/
theorem state_survives_iff (r : ReplicationResult) (pending : List (String × Timestamp.Stamp))
    (size : Nat) :
    (∃ p, loadFile size (toState r pending) = .ok p ∧ Preserved r pending p)
      ↔ size ≤ SIZE_LIMIT ∧ Fits r pending := by
  by_cases hsize : SIZE_LIMIT < size
  · have hlarge : loadFile size (toState r pending) = unreadable "too large" := if_pos hsize
    constructor
    · rintro ⟨p, hload, -⟩
      rw [hlarge] at hload
      cases hload
    · rintro ⟨hle, -⟩
      omega
  · have hfile : loadFile size (toState r pending) = load (toState r pending) := if_neg hsize
    rw [hfile]
    constructor
    · rintro ⟨p, hload, hpreserved⟩
      obtain ⟨hlength, hsubjects⟩ := toState_shaped hload hpreserved.diagnoses
      obtain rfl := Except.ok.inj ((toState_read pending hlength hsubjects).symm.trans hload)
      obtain ⟨hrelations, hsingle⟩ := (relationships_preserved _).mp hpreserved.relationships
      refine ⟨by omega, hlength, fun d hd => ?_, hrelations, hsingle,
        (fixes_preserved r).mp hpreserved.fixes, ?_⟩
      · have hcut := List.map_inj_left.mp hpreserved.diagnoses d hd
        exact (cut_eq_saved (hsubjects d hd)).mp hcut
      · have hall := congrArg List.length hpreserved.pending
        rw [cutState, List.length_take] at hall
        omega
    · rintro ⟨-, hfits⟩
      refine ⟨cutState r pending, toState_read pending hfits.diagnoses fun d hd =>
        (hfits.each d hd).subject, ?_, ?_, (fixes_preserved r).mpr hfits.fixes, ?_⟩
      · exact List.map_congr_left fun d hd =>
          (cut_eq_saved (hfits.each d hd).subject).mpr (hfits.each d hd)
      · exact (relationships_preserved _).mpr ⟨hfits.relationships, hfits.single⟩
      · exact List.take_of_length_le hfits.pending

/-! ## Two long names -/

theorem subject_length {s : String} (h : SUBJECT_RE.fullmatch s = true) :
    s.toList.length ≤ 313 := by
  obtain ⟨c, hc, hend⟩ := Re.fullmatch_iff.mp h
  obtain ⟨c₁, hc₁, hc⟩ := Re.mem_seq.mp hc
  obtain ⟨c₂, hc₂, hc⟩ := Re.mem_seq.mp hc
  obtain ⟨kind, hkind, -, hshort, -⟩ := iter_cls_sound hc₁
  obtain ⟨x, w, hcolon, -, rfl⟩ := Re.mem_cls.mp hc₂
  obtain ⟨name, hname, -, hlong, -⟩ := iter_cls_sound hc
  have htext : s.toList = kind ++ x :: name := by
    rw [hend, List.append_nil] at hname
    have hstart : s.toList = kind ++ c₁.rest := hkind
    have hrest : w = name := hname
    rw [hstart, hcolon, hrest]
  have hkindLength := hshort.2 12 rfl
  have hnameLength := hlong.2 300 rfl
  rw [htext, List.length_append, List.length_cons]
  omega

namespace Long

def record (stepId : String) (facts : Dict) : Record :=
  { stepId := stepId, capability := "replication.local", check := stepId, title := stepId
    why := "", outcome := .pass, facts := facts }

/-- A host name of 160 characters, of labels of 60 at most. -/
def name (c : Char) : String :=
  String.ofList (List.replicate 60 c ++ '.' :: List.replicate 60 c ++ '.' :: List.replicate 30 c
    ++ ".example".toList)

def trace : Trace :=
  { records :=
      [record "server" [("host", .str (name 'a')), ("realm", .str "EXAMPLE")],
        record "agreements" [("subjects", .list [.dict [("subject", .str ("domain:" ++ name 'b')),
          ("consumer", .str (name 'b')), ("suffix_kind", .str "domain"),
          ("status_class", .str "BUSY"), ("bind_method", .str "SIMPLE")]])]]
    stopReason := "complete", startedAt := "", seconds := 0, bounds := [], checksRun := 2
    checksReused := 0, cancelled := false
    enumerations := [("agreement",
      { source := "agreements", status := .complete, subjects := ["domain:" ++ name 'b']
        budget := 16 })] }

theorem newYear_real : Timestamp.Fields.Valid ⟨2026, 1, 1, 0, 0, 0⟩ := by decide

def newYear : Timestamp.Stamp := ⟨⟨2026, 1, 1, 0, 0, 0⟩, newYear_real⟩

def subject : String := "domain:" ++ name 'a' ++ ">" ++ name 'b'

theorem subject_long : subject.toList.length = 328 := by
  simp only [subject, name, String.toList_append, List.length_append, String.toList_ofList,
    List.length_cons, List.length_replicate]
  rfl

theorem investigated : returns (fun out => out.diags.any (fun d => d.subject = subject)
      && returns (fun _ => true) (Replication.relationships trace (.str (name 'a')) out.reverse))
    (diagnose trace (fun _ => none) []) = true := by
  decide +kernel

end Long

/-- The agreement of two servers with long names is found, saved, and not read again. -/
theorem long_names_lost :
    ¬∀ (r : ReplicationResult) (pending : List (String × Timestamp.Stamp)) (size : Nat),
      r.Investigated → size ≤ SIZE_LIMIT →
      ∃ p, loadFile size (toState r pending) = .ok p ∧ Preserved r pending p := by
  intro h
  obtain ⟨out, hout, htest⟩ := returns_iff.mp Long.investigated
  obtain ⟨hlong, hrelations⟩ := Bool.and_eq_true_iff.mp htest
  obtain ⟨d, hd, hlength⟩ := List.any_eq_true.mp hlong
  obtain ⟨rs, hrs, -⟩ := returns_iff.mp hrelations
  have hsurvives := h
    { mode := "live", generatedAt := Long.newYear, host := .str (Long.name 'a'), peer := none
      trace := Long.trace, diagnoses := out.diags, resolutions := [], relationships := rs } [] 4096
    ⟨_, _, out, hout, rfl, hrs⟩ (by decide)
  obtain ⟨-, hfits⟩ := (state_survives_iff _ _ _).mp hsurvives
  have hshort := subject_length (hfits.each d hd).subject
  rw [of_decide_eq_true hlength, Long.subject_long] at hshort
  omega

end IpaDiagnose.Replication
