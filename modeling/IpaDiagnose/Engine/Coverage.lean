import IpaDiagnose.Engine.Correlate

/-!
# No finding is lost

A finding can leave the report at four places: a pack rule may cite it,
the safety net may put it in a group, the report may count it as
explained, and the headline may ignore it. Here each place is shown to
keep it, for any diagnoses the packs return.

- **the net** (`Net.Covers`): the loop over the unclaimed findings puts
  each of them in a group, a repeated service in the group of the first;
- **the report** (`Diagnosis.Shows`): it shows every diagnosis it is
  given, and nothing else, up to the fields the correlation fills in;
- **the headline** (`overallStatus_eq_healthy`): once a priority is
  given to every diagnosis, only an empty report is healthy.
-/

namespace IpaDiagnose

/-! ## The groups of the safety net -/

/-- Every one of the findings is in a group. -/
structure Net.Covers (n : Net) (fs : List Finding) : Prop where
  covered : ∀ f ∈ fs,
    (isCheckCrash f = true ∧ f ∈ n.crashed)
      ∨ (isCheckCrash f = false ∧ stoppedService? f = none ∧ f ∈ n.others)
      ∨ (isCheckCrash f = false ∧ ∃ g s, stoppedService? f = some s ∧ (g, s) ∈ n.services)

theorem Net.add_crashed (n : Net) {f : Finding} (h : isCheckCrash f = true) :
    n.add f = { n with crashed := n.crashed ++ [f] } := by
  simp [Net.add, h]

theorem Net.add_other (n : Net) {f : Finding} (h : isCheckCrash f = false)
    (hs : stoppedService? f = none) : n.add f = { n with others := n.others ++ [f] } := by
  simp [Net.add, h, hs]

theorem Net.add_seen (n : Net) {f : Finding} {s : String} (h : isCheckCrash f = false)
    (hs : stoppedService? f = some s) (hm : s ∈ n.services.map (·.2)) : n.add f = n := by
  simp only [Net.add, h, hs, List.contains_iff_mem, hm]
  rfl

theorem Net.add_service (n : Net) {f : Finding} {s : String} (h : isCheckCrash f = false)
    (hs : stoppedService? f = some s) (hm : s ∉ n.services.map (·.2)) :
    n.add f = { n with services := n.services ++ [(f, s)] } := by
  simp only [Net.add, h, hs, List.contains_iff_mem, hm]
  rfl

theorem Net.Covers.add {n : Net} {fs : List Finding} (h : n.Covers fs) (f : Finding) :
    (n.add f).Covers (fs ++ [f]) := by
  refine ⟨fun g hg => ?_⟩
  rcases hc : isCheckCrash f with _ | _
  · rcases hs : stoppedService? f with _ | s
    · rw [Net.add_other n hc hs]
      rcases List.mem_append.mp hg with hg | hg
      · rcases h.covered g hg with h | ⟨h₁, h₂, h₃⟩ | h
        · exact .inl h
        · exact .inr (.inl ⟨h₁, h₂, List.mem_append_left _ h₃⟩)
        · exact .inr (.inr h)
      · obtain rfl := List.mem_singleton.mp hg
        exact .inr (.inl ⟨hc, hs, by simp⟩)
    · by_cases hm : s ∈ n.services.map (·.2)
      · rw [Net.add_seen n hc hs hm]
        rcases List.mem_append.mp hg with hg | hg
        · exact h.covered g hg
        · obtain rfl := List.mem_singleton.mp hg
          obtain ⟨⟨g', s'⟩, hg', rfl⟩ := List.mem_map.mp hm
          exact .inr (.inr ⟨hc, g', s', hs, hg'⟩)
      · rw [Net.add_service n hc hs hm]
        rcases List.mem_append.mp hg with hg | hg
        · rcases h.covered g hg with h | h | ⟨h₁, g', s', h₂, h₃⟩
          · exact .inl h
          · exact .inr (.inl h)
          · exact .inr (.inr ⟨h₁, g', s', h₂, List.mem_append_left _ h₃⟩)
        · obtain rfl := List.mem_singleton.mp hg
          exact .inr (.inr ⟨hc, g, s, hs, by simp⟩)
  · rw [Net.add_crashed n hc]
    rcases List.mem_append.mp hg with hg | hg
    · rcases h.covered g hg with ⟨h₁, h₂⟩ | h | h
      · exact .inl ⟨h₁, List.mem_append_left _ h₂⟩
      · exact .inr (.inl h)
      · exact .inr (.inr h)
    · obtain rfl := List.mem_singleton.mp hg
      exact .inl ⟨hc, by simp⟩

theorem Net.Covers.foldl {n : Net} {fs : List Finding} (h : n.Covers fs) (gs : List Finding) :
    (gs.foldl Net.add n).Covers (fs ++ gs) := by
  induction gs generalizing n fs with
  | nil => simpa using h
  | cons g gs ih =>
      have := ih (h.add g)
      simpa [List.append_assoc] using this

theorem net_covers (b : EvidenceBundle) (ds : List Diagnosis) :
    (net b ds).Covers (unclaimed b ds) := by
  have h : Net.Covers ⟨[], [], []⟩ [] := ⟨by simp⟩
  exact List.nil_append (unclaimed b ds) ▸ h.foldl (unclaimed b ds)

/-- The findings a diagnosis of the safety net was built from. -/
inductive StandsFor (b : EvidenceBundle) (ds : List Diagnosis) : Diagnosis → Finding → Prop where
  | service {f g : Finding} {s : String} (hg : (g, s) ∈ (net b ds).services)
      (hf : f ∈ unclaimed b ds) (hc : isCheckCrash f = false) (hs : stoppedService? f = some s) :
      StandsFor b ds (serviceDiagnosis g s) f
  | others {f g : Finding} {gs : List Finding} (h : (net b ds).others = g :: gs)
      (hf : f ∈ g :: gs) : StandsFor b ds (groupedUnknown g gs) f
  | crashed {f g : Finding} {gs : List Finding} (h : (net b ds).crashed = g :: gs)
      (hf : f ∈ g :: gs) : StandsFor b ds (checkFailedDiagnosis g gs) f

theorem mem_unexplained_of_standsFor {b : EvidenceBundle} {ds : List Diagnosis} {d : Diagnosis}
    {f : Finding} (h : StandsFor b ds d f) : d ∈ unexplainedFindingDiagnoses b ds := by
  unfold unexplainedFindingDiagnoses
  cases h with
  | service hg hf hc hs =>
      refine List.mem_append_left _ (List.mem_append_left _ ?_)
      exact List.mem_map.mpr ⟨_, hg, rfl⟩
  | others h hf =>
      refine List.mem_append_left _ (List.mem_append_right _ ?_)
      simp [h, grouped]
  | crashed h hf =>
      refine List.mem_append_right _ ?_
      simp [h, grouped]

theorem exists_standsFor {b : EvidenceBundle} {ds : List Diagnosis} {f : Finding}
    (hf : f ∈ unclaimed b ds) : ∃ d, StandsFor b ds d f := by
  rcases (net_covers b ds).covered f hf with ⟨-, h⟩ | ⟨-, -, h⟩ | ⟨hc, g, s, hs, hg⟩
  · rcases hn : (net b ds).crashed with _ | ⟨g, gs⟩
    · simp [hn] at h
    · exact ⟨_, .crashed hn (hn ▸ h)⟩
  · rcases hn : (net b ds).others with _ | ⟨g, gs⟩
    · simp [hn] at h
    · exact ⟨_, .others hn (hn ▸ h)⟩
  · exact ⟨_, .service hg hf hc hs⟩

/-- A severe finding no diagnosis cites is unclaimed. -/
theorem mem_unclaimed {b : EvidenceBundle} {ds : List Diagnosis} {f : Finding}
    (hf : f ∈ b.findings) (hr : Severity.error.rank ≤ f.severity.rank)
    (hn : f.findingId ∉ claimedIds ds) : f ∈ unclaimed b ds := by
  simp [unclaimed, hf, hr, hn]

/-! ## What the report shows -/

/-- The same diagnosis, but for what the correlation fills in. -/
def Diagnosis.Shows (d' d : Diagnosis) : Prop :=
  { d' with
    why := d.why
    severity := d.severity
    priority := d.priority
    relatedToTitles := d.relatedToTitles } = d

theorem Diagnosis.Shows.refl (d : Diagnosis) : d.Shows d := rfl

theorem Diagnosis.Shows.trans {a b c : Diagnosis} (h₁ : a.Shows b) (h₂ : b.Shows c) :
    a.Shows c := by
  unfold Diagnosis.Shows at *
  rw [← h₂, ← h₁]

theorem noteCertmonger_shows (d : Diagnosis) : (noteCertmonger d).Shows d := by
  unfold noteCertmonger
  split
  · rfl
  · exact .refl d

theorem bucketed_shows (sources : String → String) (ds : List Diagnosis) (p : Diagnosis × Nat) :
    (bucketed sources ds p).Shows p.1 := by
  unfold bucketed
  split
  · rfl
  · split
    · rfl
    · split <;> rfl

theorem bucketed_priority_ne (sources : String → String) (ds : List Diagnosis)
    (p : Diagnosis × Nat) : (bucketed sources ds p).priority ≠ .informational := by
  unfold bucketed
  split
  · exact nofun
  · split
    · exact nofun
    · split <;> exact nofun

theorem mem_prepared {b : EvidenceBundle} {ds : List Diagnosis} {d : Diagnosis} (h : d ∈ ds) :
    ∃ d' ∈ prepared b ds, d'.Shows d := by
  unfold prepared
  split
  · exact ⟨_, List.mem_map_of_mem h, noteCertmonger_shows d⟩
  · exact ⟨d, h, .refl d⟩

theorem mem_prioritized {sources : String → String} {ds : List Diagnosis} {d : Diagnosis}
    (h : d ∈ ds) : ∃ d' ∈ prioritized sources ds, d'.Shows d := by
  obtain ⟨i, hi, rfl⟩ := List.getElem_of_mem h
  refine ⟨bucketed sources ds (ds[i], i), ?_, bucketed_shows sources ds (ds[i], i)⟩
  exact List.mem_map_of_mem (by simp [List.mem_zipIdx_iff_getElem?])

theorem buildReport_shows (now : String) {b : EvidenceBundle} {ds : List Diagnosis}
    (names : List String) {d : Diagnosis} (h : d ∈ ds) :
    ∃ d' ∈ (buildReport now b ds names).diagnoses, d'.Shows d := by
  obtain ⟨d₁, h₁, hs₁⟩ : ∃ d₁ ∈ prepared b ds, d₁.Shows d := mem_prepared h
  obtain ⟨d₂, h₂, hs₂⟩ : ∃ d₂ ∈ prioritized b.findingSources (prepared b ds), d₂.Shows d₁ :=
    mem_prioritized h₁
  exact ⟨d₂, (List.mem_insertionSort _).mpr h₂, hs₂.trans hs₁⟩

/-! ## The headline -/

theorem overallStatus_eq_healthy {ds : List Diagnosis}
    (h : ∀ d ∈ ds, d.priority ≠ .informational) : overallStatus ds = .healthy ↔ ds = [] := by
  unfold overallStatus
  rcases ds with _ | ⟨d, ds⟩
  · simp
  · have hd : (d :: ds).any (fun d => d.priority != .informational) = true := by
      simp [h d (by simp)]
    simp only [List.isEmpty_cons, Bool.false_eq_true, if_false, hd, if_true]
    refine iff_of_false ?_ (by simp)
    split_ifs <;> simp

theorem applyCompleteness_eq_healthy {s : OverallStatus} {c : EvidenceCompleteness} {u : Bool} :
    applyCompleteness s c u = .healthy ↔ s = .healthy ∧ c.level = .complete ∧ u = false := by
  unfold applyCompleteness
  rcases hc : c.level <;> cases s <;> cases u <;> simp

theorem assessCompleteness_complete {b : EvidenceBundle} :
    (assessCompleteness b).level = .complete ↔ b.collectionErrors = [] := by
  simp only [assessCompleteness]
  rcases b.collectionErrors with _ | ⟨e, es⟩
  · simp
  · simp only [List.map_cons, List.isEmpty_cons, Bool.not_false, if_true]
    refine iff_of_false ?_ (by simp)
    split <;> simp

theorem prioritized_eq_nil {sources : String → String} {ds : List Diagnosis} :
    prioritized sources ds = [] ↔ ds = [] := by
  simp [prioritized]

theorem prioritized_priority_ne {sources : String → String} {ds : List Diagnosis} :
    ∀ d ∈ prioritized sources ds, d.priority ≠ .informational := by
  intro d hd
  obtain ⟨p, -, rfl⟩ := List.mem_map.mp hd
  exact bucketed_priority_ne sources ds p

theorem undiagnosedFindings_eq_nil {b : EvidenceBundle} {ds : List Diagnosis} :
    undiagnosedFindings b ds = [] ↔
      ∀ f ∈ b.findings, f.severity ≠ .success → isExplained b ds f = true := by
  rw [undiagnosedFindings, ← List.length_eq_zero_iff, List.length_insertionSort,
    List.length_eq_zero_iff]
  simp [List.filter_eq_nil_iff]

theorem mem_undiagnosedFindings {b : EvidenceBundle} {ds : List Diagnosis} {f : Finding}
    (hf : f ∈ b.findings) (hs : f.severity ≠ .success) (hn : isExplained b ds f = false) :
    undiagnosedFinding b f ∈ undiagnosedFindings b ds := by
  refine (List.mem_insertionSort _).mpr (List.mem_map_of_mem ?_)
  simp [hf, hs, hn]

theorem buildReport_healthy (now : String) (b : EvidenceBundle) (ds : List Diagnosis)
    (names : List String) :
    (buildReport now b ds names).overallStatus = .healthy ↔
      (buildReport now b ds names).diagnoses = []
        ∧ (buildReport now b ds names).collectionErrors = []
        ∧ ∀ f ∈ b.findings, f.severity = .success := by
  have hd : (buildReport now b ds names).diagnoses = [] ↔
      prioritized b.findingSources (prepared b ds) = [] := by
    rw [← List.length_eq_zero_iff, buildReport, List.length_insertionSort,
      List.length_eq_zero_iff]
  have hc : (buildReport now b ds names).collectionErrors = [] ↔ b.collectionErrors = [] := by
    simp [buildReport]
  rw [hd, hc, buildReport, applyCompleteness_eq_healthy, assessCompleteness_complete,
    overallStatus_eq_healthy prioritized_priority_ne]
  simp only [Bool.not_eq_false', List.isEmpty_iff, undiagnosedFindings_eq_nil]
  refine and_congr_right fun hnil => and_congr_right fun _ => ?_
  rw [hnil]
  refine forall₂_congr fun f _ => ?_
  simp [isExplained]

/-! ## Nothing is lost -/

/-- Cited as evidence in the report, under an id no other finding has. -/
def DiagnosisReport.Cites (r : DiagnosisReport) (b : EvidenceBundle) (f : Finding) : Prop :=
  b.idCount f.findingId = 1 ∧ ∃ d ∈ r.diagnoses, ∃ e ∈ d.evidenceFor, e.evidenceId = f.findingId

theorem cites_of_isExplained {now : String} {b : EvidenceBundle} {ds : List Diagnosis}
    {names : List String} {f : Finding}
    (h : isExplained b (prioritized b.findingSources (prepared b ds)) f = true) :
    (buildReport now b ds names).Cites b f := by
  simp only [isExplained, Bool.and_eq_true, List.contains_iff_mem, List.mem_flatMap, List.mem_map,
    beq_iff_eq] at h
  obtain ⟨⟨d, hd, e, he, hid⟩, hcount⟩ := h
  exact ⟨hcount, d, (List.mem_insertionSort _).mpr hd, e, he, hid⟩

end IpaDiagnose
