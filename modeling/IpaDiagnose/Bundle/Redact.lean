import IpaDiagnose.Lib.Spans

/-!
# Redacting secret spans

Detectors report spans of a text; `pass` writes a marker in the place of
every run of overlapping spans. A marker can expose a new match, so that
`redact` makes up to four passes. The detectors are given.
-/

namespace IpaDiagnose.Bundle

open Spans (Span Runs)

/-- What a detector found: a category, and from where to where. -/
abbrev Found := Span String Nat

/-! ## One pass -/

/-- By the start; of those that start together, the longest first. -/
def sortedBefore (s t : Found) : Bool :=
  s.start < t.start || (s.start == t.start && t.stop ≤ s.stop)

/-- One more span; the last run is the first of the list. -/
def mergeStep : List Found → Found → List Found
  | last :: merged, s =>
      if s.start < last.stop then { last with stop := max last.stop s.stop } :: merged
      else s :: last :: merged
  | [], s => [s]

/-- Overlapping spans are merged; the first category is reported. -/
def mergeSpans (found : List Found) : List Found :=
  ((found.mergeSort sortedBefore).foldl mergeStep []).reverse

def marker (name : String) : List Char := ("[REDACTED:" ++ name ++ "]").toList

def writeOut (text : List Char) : Nat → List Found → List Char
  | pos, [] => text.drop pos
  | pos, s :: merged =>
      (text.take s.start).drop pos ++ marker s.name ++ writeOut text s.stop merged

def pass (found : List Found) (text : String) : String :=
  String.ofList (writeOut text.toList 0 (mergeSpans found))

/-! ## The passes -/

/-- The text after so many passes at most, and the categories counted. -/
def redactFrom (find : String → List Found) : Nat → String → List String → String × List String
  | 0, text, counts => (text, counts)
  | n + 1, text, counts =>
      match find text with
      | [] => (text, counts)
      | s :: found =>
          redactFrom find n (pass (s :: found) text)
            (counts ++ (mergeSpans (s :: found)).map (·.name))

def redact (find : String → List Found) (text : String) : String × List String :=
  redactFrom find 4 text []

/-- The text is what some of the passes make of it, and a detector still
finds something only after the last of them. -/
theorem redactFrom_passes (find : String → List Found) (n : Nat) (text : String)
    (counts : List String) :
    ∃ k ≤ n, (redactFrom find n text counts).1 = (fun t => pass (find t) t)^[k] text
      ∧ (k < n → find (redactFrom find n text counts).1 = []) := by
  induction n generalizing text counts with
  | zero => exact ⟨0, Nat.le_refl 0, rfl, fun h => absurd h (Nat.lt_irrefl 0)⟩
  | succ n ih =>
      rw [redactFrom]
      split
      · rename_i hnone
        exact ⟨0, Nat.zero_le _, rfl, fun _ => hnone⟩
      · rename_i s found hfound
        obtain ⟨k, hk, heq, hend⟩ := ih (pass (s :: found) text)
          (counts ++ (mergeSpans (s :: found)).map (·.name))
        refine ⟨k + 1, Nat.succ_le_succ hk, ?_, fun h => hend (Nat.lt_of_succ_lt_succ h)⟩
        rw [heq, Function.iterate_succ_apply, hfound]

/-! ## The sweep -/

theorem sortedBefore_trans (s t u : Found) (hst : sortedBefore s t = true)
    (htu : sortedBefore t u = true) : sortedBefore s u = true := by
  simp only [sortedBefore, Bool.or_eq_true, Bool.and_eq_true, decide_eq_true_eq,
    beq_iff_eq] at hst htu ⊢
  omega

theorem sortedBefore_total (s t : Found) : (sortedBefore s t || sortedBefore t s) = true := by
  simp only [sortedBefore, Bool.or_eq_true, Bool.and_eq_true, decide_eq_true_eq, beq_iff_eq]
  omega

theorem start_le_of_sortedBefore {s t : Found} (h : sortedBefore s t = true) :
    s.start ≤ t.start := by
  simp only [sortedBefore, Bool.or_eq_true, Bool.and_eq_true, decide_eq_true_eq,
    beq_iff_eq] at h
  omega

/-- A span that starts behind those merged already keeps the runs. -/
theorem mergeStep_runs {spans merged : List Found} {s : Found}
    (h : Runs spans merged.reverse) (hs : s.start ≤ s.stop)
    (hbehind : ∀ t ∈ spans, t.start ≤ s.start) :
    Runs (spans ++ [s]) (mergeStep merged s).reverse := by
  cases merged with
  | nil =>
      rw [mergeStep, List.reverse_singleton]
      exact h.begin hs nofun
  | cons last merged =>
      rw [List.reverse_cons] at h
      rw [mergeStep]
      split
      · rename_i hin
        obtain ⟨t, ht, -, hstart, -⟩ := h.begins last (by simp)
        rw [List.reverse_cons]
        exact h.extend (hstart ▸ hbehind t ht) hin
      · rename_i hout
        rw [List.reverse_cons, List.reverse_cons]
        exact h.begin hs fun r hr => (h.stop_le r hr).trans (Nat.le_of_not_lt hout)

theorem foldl_mergeStep_runs {spans more merged : List Found} (h : Runs spans merged.reverse)
    (hproper : ∀ s ∈ more, s.start ≤ s.stop)
    (hsorted : (spans ++ more).Pairwise fun s t => s.start ≤ t.start) :
    Runs (spans ++ more) (more.foldl mergeStep merged).reverse := by
  induction more generalizing spans merged with
  | nil => rwa [List.append_nil]
  | cons s more ih =>
      have hstep := mergeStep_runs h (hproper s List.mem_cons_self) fun t ht =>
        (List.pairwise_append.mp hsorted).2.2 t ht s List.mem_cons_self
      rw [List.append_cons] at hsorted ⊢
      exact ih hstep (fun t ht => hproper t (List.mem_cons_of_mem _ ht)) hsorted

theorem mergeSpans_runs {found : List Found} (h : ∀ s ∈ found, s.start ≤ s.stop) :
    Runs found (mergeSpans found) := by
  have hsorted : (found.mergeSort sortedBefore).Pairwise fun s t => s.start ≤ t.start :=
    (List.pairwise_mergeSort sortedBefore_trans sortedBefore_total found).imp
      start_le_of_sortedBefore
  have hruns := @foldl_mergeStep_runs [] _ [] Runs.nil
    (fun s hs => h s (List.mem_mergeSort.mp hs)) hsorted
  exact hruns.congr fun s => List.mem_mergeSort

theorem flatMap_kept (cs : List Char) :
    (cs.map Sum.inr).flatMap (Sum.elim (fun r : Found => marker r.name) fun c => [c]) = cs := by
  simp [List.flatMap_map]

theorem writeOut_eq (text : List Char) (pos : Nat) (merged : List Found) :
    writeOut text pos merged = (Spans.cutOut text pos merged).flatMap
      (Sum.elim (fun r => marker r.name) fun c => [c]) := by
  induction merged generalizing pos with
  | nil => rw [writeOut, Spans.cutOut, flatMap_kept]
  | cons s merged ih =>
      rw [writeOut, Spans.cutOut, List.flatMap_append, List.flatMap_cons, flatMap_kept, ih,
        Sum.elim_inl, List.append_assoc]

/-- One pass replaces exactly what the spans cover: each run of linked
spans becomes one marker, and every other character stays where it was. -/
theorem pass_exact (text : String) (found : List Found)
    (hin : ∀ s ∈ found, s.start ≤ s.stop ∧ s.stop ≤ text.toList.length) :
    (pass found text).toList
        = (Spans.masked found (mergeSpans found) 0 text.toList).flatMap
          (Sum.elim (fun r => marker r.name) fun c => [c])
      ∧ Runs found (mergeSpans found)
      ∧ ∀ r ∈ mergeSpans found, ∀ s ∈ found, s.start < s.stop → Spans.Within r s →
          ∀ t ∈ found, t.start < t.stop → (Spans.Within r t ↔ Spans.Linked found s t) := by
  have hruns := mergeSpans_runs fun s hs => (hin s hs).1
  have hinside : ∀ r ∈ mergeSpans found,
      r.start ≤ r.stop ∧ r.stop ≤ text.toList.length ∧ 0 ≤ r.start := by
    intro r hr
    obtain ⟨s, hs, hstop, -⟩ := hruns.ends r hr
    exact ⟨hruns.proper r hr, hstop ▸ (hin s hs).2, Nat.zero_le _⟩
  refine ⟨?_, hruns, fun r hr s hs hspos hrs t ht htpos =>
    hruns.within_iff_linked hr hrs hs hspos ht htpos⟩
  rw [pass, String.toList_ofList, writeOut_eq, Spans.cutOut_eq_masked _ _ hinside hruns.apart
    fun j _ => hruns.covered_iff.symm, List.drop_zero]

/-- Three spans out of order: the shorter of two that start together and
one that reaches further become a run with the longer. -/
theorem pass_exact_overlapping :
    let found : List Found := [⟨"secret_line", 6, 9⟩, ⟨"openai_key", 2, 4⟩, ⟨"bearer_token", 2, 7⟩]
    (pass found "a:0123456 b").toList
        = (Spans.masked found (mergeSpans found) 0 "a:0123456 b".toList).flatMap
          (Sum.elim (fun r => marker r.name) fun c => [c])
      ∧ Runs found (mergeSpans found)
      ∧ ∀ r ∈ mergeSpans found, ∀ s ∈ found, s.start < s.stop → Spans.Within r s →
          ∀ t ∈ found, t.start < t.stop → (Spans.Within r t ↔ Spans.Linked found s t) :=
  pass_exact "a:0123456 b"
    [⟨"secret_line", 6, 9⟩, ⟨"openai_key", 2, 4⟩, ⟨"bearer_token", 2, 7⟩] (by decide +kernel)

end IpaDiagnose.Bundle
