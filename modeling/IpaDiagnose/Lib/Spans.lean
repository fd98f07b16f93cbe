import Mathlib.Logic.Relation
import Mathlib.Order.MinMax

/-!
# Spans and the runs they form

Half-open spans on a line, each with a name. Spans that overlap, directly
or over others, form a run. `Runs` says what the runs of a list of spans
are; a sweep over the spans by their start finds them (`Runs.begin`,
`Runs.extend`). `masked` is a text with its spans taken out and a mark
where each run begins.
-/

namespace Spans

structure Span (ν τ : Type) where
  name : ν
  start : τ
  stop : τ
deriving DecidableEq, Repr

/-! ## Overlap -/

section Overlap

variable {ν τ : Type} [LinearOrder τ] {spans runs : List (Span ν τ)} {r s t u : Span ν τ} {p : τ}

def Covered (spans : List (Span ν τ)) (p : τ) : Prop := ∃ s ∈ spans, s.start ≤ p ∧ p < s.stop

instance (p : τ) : Decidable (Covered spans p) :=
  inferInstanceAs (Decidable (∃ s ∈ spans, _))

/-- A span has something on both sides of the point. -/
def Crossed (spans : List (Span ν τ)) (p : τ) : Prop := ∃ s ∈ spans, s.start < p ∧ p < s.stop

def Within (r s : Span ν τ) : Prop := r.start ≤ s.start ∧ s.stop ≤ r.stop

def Overlap (s t : Span ν τ) : Prop := s.start < t.stop ∧ t.start < s.stop

/-- From one span to another over spans that overlap. -/
def Linked (spans : List (Span ν τ)) : Span ν τ → Span ν τ → Prop :=
  Relation.ReflTransGen fun s t => t ∈ spans ∧ Overlap s t

/-! ## Runs -/

/-- The runs of some spans, in their order. A run has the name of a span
it begins with. -/
structure Runs (spans runs : List (Span ν τ)) : Prop where
  proper : ∀ r ∈ runs, r.start ≤ r.stop
  apart : runs.Pairwise fun r r' => r.stop ≤ r'.start
  holds : ∀ s ∈ spans, ∃ r ∈ runs, Within r s
  begins : ∀ r ∈ runs, ∃ s ∈ spans, s.name = r.name ∧ s.start = r.start ∧ s.stop ≤ r.stop
  ends : ∀ r ∈ runs, ∃ s ∈ spans, s.stop = r.stop ∧ r.start ≤ s.start
  covers : ∀ r ∈ runs, ∀ p, r.start ≤ p → p < r.stop → Covered spans p
  crossed : ∀ r ∈ runs, ∀ p, r.start < p → p < r.stop → Crossed spans p

theorem Runs.nil : Runs ([] : List (Span ν τ)) [] where
  proper := nofun
  apart := .nil
  holds := nofun
  begins := nofun
  ends := nofun
  covers := nofun
  crossed := nofun

theorem Covered.cons_iff : Covered (s :: spans) p ↔ s.start ≤ p ∧ p < s.stop ∨ Covered spans p := by
  simp [Covered]

theorem Covered.append (h : Covered spans p) : Covered (spans ++ [s]) p := by
  obtain ⟨t, ht, hp⟩ := h
  exact ⟨t, List.mem_append_left _ ht, hp⟩

theorem Crossed.append (h : Crossed spans p) : Crossed (spans ++ [s]) p := by
  obtain ⟨t, ht, hp⟩ := h
  exact ⟨t, List.mem_append_left _ ht, hp⟩

/-- The runs before the last one end where it begins. -/
theorem Runs.stop_le (h : Runs spans (runs ++ [r])) : ∀ q ∈ runs ++ [r], q.stop ≤ r.stop := by
  intro q hq
  rcases List.mem_append.mp hq with hq | hq
  · have hqr : q.stop ≤ r.start := (List.pairwise_append.mp h.apart).2.2 q hq r (by simp)
    exact hqr.trans (h.proper r (by simp))
  · rw [List.mem_singleton.mp hq]

/-- A span behind every run begins a new one. -/
theorem Runs.begin (h : Runs spans runs) (hs : s.start ≤ s.stop)
    (hbehind : ∀ r ∈ runs, r.stop ≤ s.start) : Runs (spans ++ [s]) (runs ++ [s]) where
  proper := by
    intro r hr
    rcases List.mem_append.mp hr with hr | hr
    · exact h.proper r hr
    · rwa [List.mem_singleton.mp hr]
  apart := by
    rw [List.pairwise_append]
    refine ⟨h.apart, List.pairwise_singleton _ _, fun r hr q hq => ?_⟩
    rw [List.mem_singleton.mp hq]
    exact hbehind r hr
  holds := by
    intro t ht
    rcases List.mem_append.mp ht with ht | ht
    · obtain ⟨r, hr, hrt⟩ := h.holds t ht
      exact ⟨r, List.mem_append_left _ hr, hrt⟩
    · rw [List.mem_singleton.mp ht]
      exact ⟨s, by simp, le_refl _, le_refl _⟩
  begins := by
    intro r hr
    rcases List.mem_append.mp hr with hr | hr
    · obtain ⟨t, ht, hrt⟩ := h.begins r hr
      exact ⟨t, List.mem_append_left _ ht, hrt⟩
    · rw [List.mem_singleton.mp hr]
      exact ⟨s, by simp, rfl, rfl, le_refl _⟩
  ends := by
    intro r hr
    rcases List.mem_append.mp hr with hr | hr
    · obtain ⟨t, ht, hrt⟩ := h.ends r hr
      exact ⟨t, List.mem_append_left _ ht, hrt⟩
    · rw [List.mem_singleton.mp hr]
      exact ⟨s, by simp, rfl, le_refl _⟩
  covers := by
    intro r hr p hlo hhi
    rcases List.mem_append.mp hr with hr | hr
    · exact (h.covers r hr p hlo hhi).append
    · rw [List.mem_singleton.mp hr] at hlo hhi
      exact ⟨s, by simp, hlo, hhi⟩
  crossed := by
    intro r hr p hlo hhi
    rcases List.mem_append.mp hr with hr | hr
    · exact (h.crossed r hr p hlo hhi).append
    · rw [List.mem_singleton.mp hr] at hlo hhi
      exact ⟨s, by simp, hlo, hhi⟩

/-- A span that begins inside the last run goes into it. -/
theorem Runs.extend (h : Runs spans (runs ++ [r])) (hlo : r.start ≤ s.start)
    (hhi : s.start < r.stop) :
    Runs (spans ++ [s]) (runs ++ [{ r with stop := max r.stop s.stop }]) where
  proper := by
    intro q hq
    rcases List.mem_append.mp hq with hq | hq
    · exact h.proper q (List.mem_append_left _ hq)
    · rw [List.mem_singleton.mp hq]
      exact (h.proper r (by simp)).trans (le_max_left _ _)
  apart := by
    obtain ⟨hruns, -, hr⟩ := List.pairwise_append.mp h.apart
    rw [List.pairwise_append]
    refine ⟨hruns, List.pairwise_singleton _ _, fun q hq q' hq' => ?_⟩
    rw [List.mem_singleton.mp hq']
    exact hr q hq r (by simp)
  holds := by
    intro t ht
    rcases List.mem_append.mp ht with ht | ht
    · obtain ⟨q, hq, hqt⟩ := h.holds t ht
      rcases List.mem_append.mp hq with hq | hq
      · exact ⟨q, List.mem_append_left _ hq, hqt⟩
      · rw [List.mem_singleton.mp hq] at hqt
        exact ⟨_, List.mem_append_right _ (List.mem_singleton_self _), hqt.1,
          hqt.2.trans (le_max_left _ _)⟩
    · rw [List.mem_singleton.mp ht]
      exact ⟨_, List.mem_append_right _ (List.mem_singleton_self _), hlo, le_max_right _ _⟩
  begins := by
    intro q hq
    rcases List.mem_append.mp hq with hq | hq
    · obtain ⟨t, ht, hqt⟩ := h.begins q (List.mem_append_left _ hq)
      exact ⟨t, List.mem_append_left _ ht, hqt⟩
    · obtain ⟨t, ht, hname, hstart, hstop⟩ := h.begins r (by simp)
      rw [List.mem_singleton.mp hq]
      exact ⟨t, List.mem_append_left _ ht, hname, hstart, hstop.trans (le_max_left _ _)⟩
  ends := by
    intro q hq
    rcases List.mem_append.mp hq with hq | hq
    · obtain ⟨t, ht, hqt⟩ := h.ends q (List.mem_append_left _ hq)
      exact ⟨t, List.mem_append_left _ ht, hqt⟩
    · rw [List.mem_singleton.mp hq]
      rcases le_total r.stop s.stop with hle | hle
      · exact ⟨s, by simp, (max_eq_right hle).symm, hlo⟩
      · obtain ⟨t, ht, hstop, hstart⟩ := h.ends r (by simp)
        exact ⟨t, List.mem_append_left _ ht, hstop.trans (max_eq_left hle).symm, hstart⟩
  covers := by
    intro q hq p hp hp'
    rcases List.mem_append.mp hq with hq | hq
    · exact (h.covers q (List.mem_append_left _ hq) p hp hp').append
    · rw [List.mem_singleton.mp hq] at hp hp'
      rcases lt_or_ge p r.stop with hin | hout
      · exact (h.covers r (by simp) p hp hin).append
      · exact ⟨s, by simp, hhi.le.trans hout, (lt_max_iff.mp hp').resolve_left (not_lt.mpr hout)⟩
  crossed := by
    intro q hq p hp hp'
    rcases List.mem_append.mp hq with hq | hq
    · exact (h.crossed q (List.mem_append_left _ hq) p hp hp').append
    · rw [List.mem_singleton.mp hq] at hp hp'
      rcases lt_or_ge p r.stop with hin | hout
      · exact (h.crossed r (by simp) p hp hin).append
      · -- past the old end: the span itself reaches over the point
        exact ⟨s, by simp, hhi.trans_le hout, (lt_max_iff.mp hp').resolve_left (not_lt.mpr hout)⟩

/-- The order of the spans does not matter. -/
theorem Runs.congr {spans' : List (Span ν τ)} (h : Runs spans runs)
    (hmem : ∀ s, s ∈ spans ↔ s ∈ spans') : Runs spans' runs where
  proper := h.proper
  apart := h.apart
  holds s hs := h.holds s ((hmem s).mpr hs)
  begins r hr := by
    obtain ⟨s, hs, hrs⟩ := h.begins r hr
    exact ⟨s, (hmem s).mp hs, hrs⟩
  ends r hr := by
    obtain ⟨s, hs, hrs⟩ := h.ends r hr
    exact ⟨s, (hmem s).mp hs, hrs⟩
  covers r hr p hlo hhi := by
    obtain ⟨s, hs, hp⟩ := h.covers r hr p hlo hhi
    exact ⟨s, (hmem s).mp hs, hp⟩
  crossed r hr p hlo hhi := by
    obtain ⟨s, hs, hp⟩ := h.crossed r hr p hlo hhi
    exact ⟨s, (hmem s).mp hs, hp⟩

/-- The spans and their runs cover the same points. -/
theorem Runs.covered_iff (h : Runs spans runs) : Covered runs p ↔ Covered spans p := by
  constructor
  · rintro ⟨r, hr, hlo, hhi⟩
    exact h.covers r hr p hlo hhi
  · rintro ⟨s, hs, hlo, hhi⟩
    obtain ⟨r, hr, hrs⟩ := h.holds s hs
    exact ⟨r, hr, hrs.1.trans hlo, hhi.trans_le hrs.2⟩

/-- Runs that share a point of two overlapping spans are one. -/
theorem Runs.within_of_overlap (h : Runs spans runs) (hr : r ∈ runs) (hs : Within r s)
    (ht : t ∈ spans) (hst : Overlap s t) : Within r t := by
  obtain ⟨q, hq, hqt⟩ := h.holds t ht
  obtain ⟨i, hi, rfl⟩ := List.getElem_of_mem hr
  obtain ⟨j, hj, rfl⟩ := List.getElem_of_mem hq
  have hapart := List.pairwise_iff_getElem.mp h.apart
  rcases lt_trichotomy i j with hij | rfl | hji
  · exact absurd (hst.2.trans_le (hs.2.trans ((hapart i j hi hj hij).trans hqt.1))) (lt_irrefl _)
  · exact hqt
  · exact absurd (hst.1.trans_le (hqt.2.trans ((hapart j i hj hi hji).trans hs.1))) (lt_irrefl _)

/-- What is linked is in one run. -/
theorem Runs.within_of_linked (h : Runs spans runs) (hr : r ∈ runs) (hs : Within r s)
    (hst : Linked spans s t) : Within r t := by
  induction hst with
  | refl => exact hs
  | tail _ hstep ih => exact h.within_of_overlap hr ih hstep.1 hstep.2

theorem Linked.symm (h : Linked spans s t) (hs : s ∈ spans) : Linked spans t s := by
  have hback : t ∈ spans ∧ Linked spans t s := by
    induction h with
    | refl => exact ⟨hs, .refl⟩
    | tail _ hstep ih => exact ⟨hstep.1, .head ⟨ih.1, hstep.2.symm⟩ ih.2⟩
  exact hback.2

end Overlap

/-! ## Positions in a text -/

section Text

variable {ν α : Type} {spans runs : List (Span ν Nat)} {r s t : Span ν Nat}

/-- As long as the links from one span have not come as far as another of
its run, the last of them can be left for a span that reaches further. -/
theorem Runs.linked_of_start_le {u : Span ν Nat} (h : Runs spans runs) (hr : r ∈ runs)
    (hs : Within r s) (ht : t ∈ spans) (hrt : Within r t) (htpos : t.start < t.stop)
    (hu : Linked spans s u) (hupos : u.start < u.stop) (hut : u.start ≤ t.start) :
    Linked spans s t := by
  by_cases hmeet : t.start < u.stop
  · exact hu.tail ⟨ht, hut.trans_lt htpos, hmeet⟩
  · have hru := h.within_of_linked hr hs hu
    obtain ⟨w, hw, hlo, hhi⟩ := h.crossed r hr u.stop (hru.1.trans_lt hupos)
      ((Nat.le_of_not_lt hmeet).trans_lt (htpos.trans_le hrt.2))
    have hw' : Linked spans s w := hu.tail ⟨hw, hupos.trans hhi, hlo⟩
    exact h.linked_of_start_le hr hs ht hrt htpos hw' (hlo.trans hhi)
      (hlo.le.trans (Nat.le_of_not_lt hmeet))
  termination_by t.start + 1 - u.stop

/-- Two spans that hold something are in one run exactly if they are
linked. -/
theorem Runs.within_iff_linked (h : Runs spans runs) (hr : r ∈ runs) (hrs : Within r s)
    (hs : s ∈ spans) (hspos : s.start < s.stop) (ht : t ∈ spans) (htpos : t.start < t.stop) :
    Within r t ↔ Linked spans s t := by
  refine ⟨fun hrt => ?_, h.within_of_linked hr hrs⟩
  rcases Nat.le_total s.start t.start with hst | hts
  · exact h.linked_of_start_le hr hrs ht hrt htpos .refl hspos hst
  · exact (h.linked_of_start_le hr hrt hs hrs hspos .refl htpos hts).symm ht

/-- A text without its spans: a mark where a run begins, and every
character that no span covers. -/
def masked (spans runs : List (Span ν Nat)) : Nat → List α → List (Span ν Nat ⊕ α)
  | i, [] => (runs.filter (·.start = i)).map .inl
  | i, c :: cs =>
      (runs.filter (·.start = i)).map .inl
        ++ (if Covered spans i then [] else [.inr c]) ++ masked spans runs (i + 1) cs

/-- The text between the runs, and each run as a mark. -/
def cutOut (text : List α) : Nat → List (Span ν Nat) → List (Span ν Nat ⊕ α)
  | pos, [] => (text.drop pos).map .inr
  | pos, r :: runs =>
      ((text.take r.start).drop pos).map .inr ++ .inl r :: cutOut text r.stop runs

theorem filter_start_eq_nil {i : Nat} (h : ∀ r ∈ runs, i < r.start) :
    runs.filter (·.start = i) = [] := by
  rw [List.filter_eq_nil_iff]
  intro r hr
  have := h r hr
  simp only [decide_eq_true_eq]
  omega

/-- Up to the first run, uncovered characters stay. -/
theorem masked_kept {a b : List α} {i : Nat} (hfree : ∀ j, i ≤ j → j < i + a.length →
    ¬ Covered spans j) (hruns : ∀ r ∈ runs, i + a.length ≤ r.start) :
    masked spans runs i (a ++ b) = a.map .inr ++ masked spans runs (i + a.length) b := by
  induction a generalizing i with
  | nil => rfl
  | cons c a ih =>
      rw [List.length_cons] at hfree hruns
      have htail := ih (i := i + 1) (fun j hlo hhi => hfree j (by omega) (by omega))
        (fun r hr => (hruns r hr).trans' (by omega))
      have hnone := filter_start_eq_nil (i := i) fun r hr => by
        have := hruns r hr
        omega
      rw [List.cons_append, masked, hnone, if_neg (hfree i (Nat.le_refl _) (by omega)), htail,
        List.length_cons, Nat.add_right_comm, Nat.add_assoc]
      rfl

/-- Inside a run, covered characters go. -/
theorem masked_gone {a b : List α} {i : Nat} (hcov : ∀ j, i ≤ j → j < i + a.length →
    Covered spans j) (hruns : ∀ r ∈ runs, i + a.length ≤ r.start) :
    masked spans runs i (a ++ b) = masked spans runs (i + a.length) b := by
  induction a generalizing i with
  | nil => rfl
  | cons c a ih =>
      rw [List.length_cons] at hcov hruns
      have htail := ih (i := i + 1) (fun j hlo hhi => hcov j (by omega) (by omega))
        (fun r hr => (hruns r hr).trans' (by omega))
      have hnone := filter_start_eq_nil (i := i) fun r hr => by
        have := hruns r hr
        omega
      rw [List.cons_append, masked, hnone, if_pos (hcov i (Nat.le_refl _) (by omega)), htail,
        List.length_cons, Nat.add_right_comm, Nat.add_assoc]
      rfl

/-- A run that begins here has its mark here, and nowhere behind. -/
theorem masked_mark {cs : List α} {i : Nat} (hi : r.start = i) :
    masked spans (r :: runs) i cs = .inl r :: masked spans runs i cs := by
  have hbehind : ∀ (cs : List α) (j : Nat), i < j →
      masked spans (r :: runs) j cs = masked spans runs j cs := by
    intro cs
    induction cs with
    | nil =>
        intro j hj
        rw [masked, masked, List.filter_cons_of_neg (by simp; omega)]
    | cons c cs ih =>
        intro j hj
        rw [masked, masked, List.filter_cons_of_neg (by simp; omega), ih (j + 1) (by omega)]
  cases cs with
  | nil => rw [masked, masked, List.filter_cons_of_pos (by simp [hi]), List.map_cons]
  | cons c cs =>
      rw [masked, masked, List.filter_cons_of_pos (by simp [hi]), hbehind cs (i + 1) (by omega)]
      rfl

/-- A text from one position to the end, split at another. -/
theorem drop_eq_slice_append {text : List α} {i j : Nat} (hij : i ≤ j) :
    text.drop i = (text.take j).drop i ++ text.drop j := by
  conv_lhs => rw [← List.take_append_drop j text, List.drop_append]
  rcases Nat.le_total j text.length with hj | hj
  · rw [List.length_take, Nat.min_eq_left hj, Nat.sub_eq_zero_of_le hij, List.drop_zero]
  · rw [List.drop_of_length_le hj, List.drop_nil]

/-- Cutting the runs out of a text leaves what no span covers, and one
mark a run where it begins. -/
theorem cutOut_eq_masked {text : List α} : ∀ (runs : List (Span ν Nat)) (pos : Nat),
    (∀ r ∈ runs, r.start ≤ r.stop ∧ r.stop ≤ text.length ∧ pos ≤ r.start) →
    runs.Pairwise (fun r r' => r.stop ≤ r'.start) →
    (∀ j, pos ≤ j → (Covered spans j ↔ Covered runs j)) →
    cutOut text pos runs = masked spans runs pos (text.drop pos)
  | [], pos, _, _, hcov => by
      have hkept : masked spans [] pos (text.drop pos ++ []) = (text.drop pos).map .inr
          ++ masked spans [] (pos + (text.drop pos).length) [] :=
        masked_kept (fun j hlo _ hj => by simpa [Covered] using (hcov j hlo).mp hj) nofun
      rw [List.append_nil] at hkept
      rw [cutOut, hkept, masked]
      simp
  | r :: runs, pos, hin, hapart, hcov => by
      obtain ⟨hproper, hstop, hpos⟩ := hin r List.mem_cons_self
      obtain ⟨hbehind, hapart⟩ := List.pairwise_cons.mp hapart
      have hbefore : ((text.take r.start).drop pos).length = r.start - pos := by
        rw [List.length_drop, List.length_take]
        omega
      have hinside : ((text.take r.stop).drop r.start).length = r.stop - r.start := by
        rw [List.length_drop, List.length_take]
        omega
      have hfree : ∀ j, pos ≤ j → j < r.start → ¬ Covered spans j := by
        intro j hlo hhi hj
        obtain ⟨q, hq, hqlo, -⟩ := (hcov j hlo).mp hj
        rcases List.mem_cons.mp hq with rfl | hq
        · omega
        · have := hbehind q hq
          omega
      have hcovered : ∀ j, r.start ≤ j → j < r.stop → Covered spans j := fun j hlo hhi =>
        (hcov j (hpos.trans hlo)).mpr ⟨r, List.mem_cons_self, hlo, hhi⟩
      have hrest : ∀ j, r.stop ≤ j → (Covered spans j ↔ Covered runs j) := by
        intro j hj
        rw [hcov j (hpos.trans (hproper.trans hj)), Covered.cons_iff]
        exact or_iff_right fun hr => absurd hr.2 (Nat.not_lt.mpr hj)
      have ih := cutOut_eq_masked runs r.stop
        (fun q hq => ⟨(hin q (List.mem_cons_of_mem _ hq)).1,
          (hin q (List.mem_cons_of_mem _ hq)).2.1, hbehind q hq⟩) hapart hrest
      have hkept : masked spans (r :: runs) pos
          ((text.take r.start).drop pos ++ text.drop r.start)
          = ((text.take r.start).drop pos).map .inr
            ++ masked spans (r :: runs) (pos + ((text.take r.start).drop pos).length)
              (text.drop r.start) := by
        refine masked_kept (fun j hlo hhi => hfree j hlo (by omega)) fun q hq => ?_
        rcases List.mem_cons.mp hq with rfl | hq
        · omega
        · have := hbehind q hq
          omega
      have hgone : masked spans runs r.start ((text.take r.stop).drop r.start ++ text.drop r.stop)
          = masked spans runs (r.start + ((text.take r.stop).drop r.start).length)
            (text.drop r.stop) :=
        masked_gone (fun j hlo hhi => hcovered j hlo (by omega)) fun q hq => by
          have := hbehind q hq
          omega
      rw [hbefore, Nat.add_sub_cancel' hpos, ← drop_eq_slice_append hpos] at hkept
      rw [hinside, Nat.add_sub_cancel' hproper, ← drop_eq_slice_append hproper] at hgone
      rw [cutOut, ih, hkept, masked_mark rfl, hgone]

end Text

end Spans
