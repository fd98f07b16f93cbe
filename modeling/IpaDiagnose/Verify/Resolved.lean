import Mathlib.Data.List.Dedup
import IpaDiagnose.Engine.Causality
import IpaDiagnose.Lib.Result
import IpaDiagnose.Sanitized
import IpaDiagnose.Verify.Compare

/-!
# What `verify` calls resolved

Two things are shown of a comparison with any saved file. An outcome
RESOLVED was earned (`Clear`, `FixPasses`): no branch of the cascade
falls through to it. And nothing that was saved is left out
(`Accounted`): every saved or carried diagnosis has one item, and so has
every id that is only known from a fix.
-/

namespace IpaDiagnose.Verify

open Py (Value Dict)
open Resolver (E Entry Runner Criterion Verdict Rebuilt RebuildProblem field evaluateOne
  evaluateVerify isError rebuildVerify)

variable {σ : Type}

/-! ## Nothing stands in the way -/

/-- The comparison can see that the diagnosis is gone. Host names are
compared if both are known. -/
structure Clear (p : SavedReport) (current : DiagnosisReport) (id : String)
    (d : SavedDiagnosis) : Prop where
  same_host : ∀ h, p.hostname = .str h → h ≠ "" → current.hostname ≠ "" → h = current.hostname
  same_mode : p.replaySource.truthy = isReplay current
  undamaged : p.baselineDamage = none
  known : knownDiagnosisId id = true
  collected : current.evidenceCompleteness.healthcheckCollected = true
  covered : ∀ e ∈ current.collectionErrors,
    PyStr.startsWith e "ipa-healthcheck-coverage" = false
  no_pack_gap : d.packId ≠ "" → ∀ c ∈ failedCollectors current,
    PyStr.contains c d.packId = false ∧ c ∉ packCollectors d.packId
  gone : ∀ x ∈ current.diagnoses, x.diagnosisId ≠ id
  no_crash : ∀ x ∈ current.diagnoses, x.ruleId ≠ CHECK_FAILED
  recorded : id ∈ p.offeredIds → id ∈ Assoc.keys p.baselineFixes

theorem baselineProblem_none {p : SavedReport} {current : DiagnosisReport}
    (h : p.baselineProblem current = none) :
    (∀ h, p.hostname = .str h → h ≠ "" → current.hostname ≠ "" → h = current.hostname)
      ∧ p.replaySource.truthy = isReplay current := by
  unfold SavedReport.baselineProblem at h
  split at h
  · cases h
  · rename_i hother
    refine ⟨fun name hname hne hcur => ?_, ?_⟩
    · by_contra hdiff
      unfold SavedReport.otherHost at hother
      rw [hname] at hother
      simp only at hother
      rw [if_pos ⟨hne, hcur, hdiff⟩] at hother
      cases hother
    · split at h
      · cases h
      · rename_i hmode
        simpa using hmode

theorem currById_lookup_none {current : DiagnosisReport} {id : String}
    (h : (currById current).lookup id = none) : ∀ x ∈ current.diagnoses, x.diagnosisId ≠ id := by
  intro x hx hid
  have hkey : id ∈ Assoc.keys (currById current) := by
    refine Assoc.mem_keys_update.mpr (.inr (Assoc.mem_keys.mpr ⟨x, ?_⟩))
    exact List.mem_map.mpr ⟨x, hx, by rw [hid]⟩
  have hsome := Assoc.lookup_isSome.mpr hkey
  rw [h] at hsome
  cases hsome

theorem packGap_false {current : DiagnosisReport} {packId : String}
    (h : packGap current packId = false) : packId ≠ "" → ∀ c ∈ failedCollectors current,
      PyStr.contains c packId = false ∧ c ∉ packCollectors packId := by
  intro hne c hc
  have hgap : ((failedCollectors current).any (PyStr.contains · packId)
      || (packCollectors packId).any (failedCollectors current).contains) = false := by
    rcases Bool.and_eq_false_iff.mp h with h | h
    · exact absurd (by simpa using h) hne
    · exact h
  obtain ⟨hsub, hcoll⟩ := Bool.or_eq_false_iff.mp hgap
  refine ⟨?_, fun hmem => ?_⟩
  · exact Bool.eq_false_iff.mpr (List.any_eq_false.mp hsub c hc)
  · exact List.any_eq_false.mp hcoll c hmem (List.contains_iff_mem.mpr hc)

/-- What is left undecided is clear. -/
theorem clear_of_undecided {p : SavedReport} {current : DiagnosisReport} {id : String}
    {d : SavedDiagnosis} (h : decided p current id d = none) : Clear p current id d := by
  unfold decided at h
  split at h
  · cases h
  · rename_i hbase
    obtain ⟨hproblem, hdamage⟩ := Option.or_eq_none_iff.mp hbase
    obtain ⟨hhost, hmode⟩ := baselineProblem_none hproblem
    split at h
    · cases h
    · rename_i hknown
      split at h
      · cases h
      · rename_i hmissing
        split at h
        · cases h
        · rename_i hgap
          split at h
          · cases h
          · rename_i hgone
            split at h
            · cases h
            · rename_i hcrash
              split at h
              · cases h
              · rename_i hrecord
                have hmissing : healthcheckMissing current = false := by simpa using hmissing
                obtain ⟨hcoll, hcov⟩ := Bool.or_eq_false_iff.mp hmissing
                have hcrash : crashedChecks current = false := by simpa using hcrash
                exact
                  { same_host := hhost
                    same_mode := hmode
                    undamaged := hdamage
                    known := by simpa using hknown
                    collected := by simpa using hcoll
                    covered := fun e he => Bool.eq_false_iff.mpr (List.any_eq_false.mp hcov e he)
                    no_pack_gap := packGap_false (by simpa using hgap)
                    gone := currById_lookup_none hgone
                    no_crash := fun x hx hrule =>
                      List.any_eq_false.mp hcrash x hx (beq_iff_eq.mpr hrule)
                    recorded := fun hoff => by
                      by_contra hno
                      refine hrecord (List.contains_iff_mem.mpr (List.mem_filter.mpr ⟨hoff, ?_⟩))
                      rw [Bool.not_eq_true', Bool.eq_false_iff]
                      exact fun hc => hno (List.contains_iff_mem.mp hc) }

theorem decided_not_resolved {p : SavedReport} {current : DiagnosisReport} {id : String}
    {d : SavedDiagnosis} {o : VerifyOutcome × String} (h : decided p current id d = some o) :
    o.1 ≠ .resolved := by
  have hfound : ∀ now, (foundAgain d now).1 ≠ .resolved := by
    intro now
    unfold foundAgain
    split
    · exact nofun
    · split
      · exact nofun
      · exact nofun
  unfold decided at h
  split at h
  · obtain rfl := Option.some.inj h
    exact nofun
  · split at h
    · obtain rfl := Option.some.inj h
      exact nofun
    · split at h
      · obtain rfl := Option.some.inj h
        exact nofun
      · split at h
        · obtain rfl := Option.some.inj h
          exact nofun
        · split at h
          · obtain rfl := Option.some.inj h
            exact hfound _
          · split at h
            · obtain rfl := Option.some.inj h
              exact nofun
            · split at h
              · obtain rfl := Option.some.inj h
                exact nofun
              · cases h

/-! ## The fix's own checks -/

/-- The criteria of a fix can be rebuilt as they were, and fresh checks
satisfy all of them. -/
def FixPasses (sha256 : String → String) (cat : List Entry) (runner : Runner σ)
    (fix : Dict) : Prop :=
  ∃ s₁ criteria why s₂ results s₃,
    rebuildVerify sha256 cat (.dict fix) runner s₁ = (.ok ⟨some criteria, none, why⟩, s₂)
      ∧ evaluateVerify runner criteria s₂ = (.ok results, s₃)
      ∧ criteria ≠ [] ∧ ∀ v ∈ results, v.ok = some true

theorem length_evaluateVerify {runner : Runner σ} : ∀ {criteria : List Criterion} {s s' : σ}
    {results : List Verdict}, evaluateVerify runner criteria s = (.ok results, s') →
      results.length = criteria.length := by
  intro criteria
  induction criteria with
  | nil =>
      intro s s' results h
      obtain ⟨hres, -⟩ := Prod.mk.inj h
      obtain rfl := Except.ok.inj hres
      rfl
  | cons c cs ih =>
      intro s s' results h
      rw [evaluateVerify] at h
      split at h
      · cases h
      · split at h
        · cases h
        · rename_i vs s₂ hrest
          obtain ⟨hres, -⟩ := Prod.mk.inj h
          obtain rfl := Except.ok.inj hres
          rw [List.length_cons, List.length_cons, ih hrest]

/-- Criteria are rebuilt unchanged, changed, or not at all. -/
theorem rebuildVerify_problem {sha256 : String → String} {cat : List Entry} {fix : Value}
    {runner : Runner σ} {s s' : σ} {r : Rebuilt}
    (h : rebuildVerify sha256 cat fix runner s = (.ok r, s')) :
    r.criteria = none ∨ r.problem = none ∨ r.problem = some .changed := by
  have hnot : ∀ why, (Resolver.notRebuilt why).criteria = none := fun _ => rfl
  have hof : ∀ {why : String} {t : σ},
      ((.ok (Resolver.notRebuilt why), t) : Except E Rebuilt × σ) = (.ok r, s') →
        r.criteria = none := by
    intro why t heq
    obtain ⟨hr, -⟩ := Prod.mk.inj heq
    obtain rfl := Except.ok.inj hr
    exact hnot _
  unfold rebuildVerify at h
  split at h
  · split at h
    · exact .inl (hof h)
    · split at h
      · split at h
        · obtain ⟨hr, -⟩ := Prod.mk.inj h
          obtain rfl := Except.ok.inj hr
          unfold Resolver.compareDigest
          simp only
          split
          · exact .inr (.inl rfl)
          · exact .inr (.inr rfl)
        · exact .inl (hof h)
        · obtain ⟨hr, -⟩ := Prod.mk.inj h
          unfold Resolver.rebuildError at hr
          split at hr
          · obtain rfl := Except.ok.inj hr
            exact .inl (hnot _)
          · split at hr
            · obtain rfl := Except.ok.inj hr
              exact .inl (hnot _)
            · cases hr
      · exact .inl (hof h)
  · exact .inl (hof h)

theorem verdicts_resolved {replay : Bool} {results : List Verdict}
    (h : (verdictsOutcome replay results).1 = .resolved) :
    results ≠ [] ∧ ∀ v ∈ results, v.ok = some true := by
  unfold verdictsOutcome at h
  dsimp only at h
  split at h
  · cases h
  · rename_i hopen
    split at h
    · rename_i hall
      refine ⟨fun hnil => hopen (by rw [hnil]; rfl), fun v hv => ?_⟩
      exact beq_iff_eq.mp (List.all_eq_true.mp hall v hv)
    · cases h

/-- With a record, RESOLVED takes the fix's own checks. -/
theorem fixOutcome_resolved {sha256 : String → String} {cat : List Entry} {fix : Option Dict}
    {runner : Runner σ} {s s' : σ} {o : VerifyOutcome × String}
    (h : fixOutcome sha256 cat fix (some runner) s = (.ok o, s')) (ho : o.1 = .resolved) :
    ∀ f, fix = some f → FixPasses sha256 cat runner f := by
  rintro f rfl
  unfold fixOutcome at h
  simp only at h
  split at h
  · cases h
  · obtain ⟨hr, -⟩ := Prod.mk.inj h
    obtain rfl := Except.ok.inj hr
    cases ho
  · obtain ⟨hr, -⟩ := Prod.mk.inj h
    obtain rfl := Except.ok.inj hr
    cases ho
  · rename_i criteria problem why s₁ hunchanged hrebuild
    split at h
    · cases h
    · rename_i results s₂ heval
      obtain ⟨hr, -⟩ := Prod.mk.inj h
      obtain rfl := Except.ok.inj hr
      obtain ⟨hne, hall⟩ := verdicts_resolved ho
      have hproblem : problem = none := by
        rcases rebuildVerify_problem hrebuild with h | h | h
        · cases h
        · exact h
        · exact absurd h hunchanged
      subst hproblem
      refine ⟨s, criteria, why, s₁, results, s₂, hrebuild, heval, ?_, hall⟩
      rintro rfl
      exact hne (List.length_eq_zero_iff.mp (length_evaluateVerify heval))

/-! ## Only an interrupt ends a comparison -/

theorem fixOutcome_error {sha256 : String → String} {cat : List Entry} {fix : Option Dict}
    {runner : Option (Runner σ)} {s s' : σ} {e : E}
    (h : fixOutcome sha256 cat fix runner s = (.error e, s')) : e = .keyboardInterrupt := by
  unfold fixOutcome at h
  split at h
  · split at h
    · rename_i hrebuild
      obtain ⟨he, -⟩ := Prod.mk.inj h
      obtain rfl := Except.error.inj he
      exact Resolver.rebuildVerify_error hrebuild
    · cases h
    · cases h
    · split at h
      · rename_i heval
        obtain ⟨he, -⟩ := Prod.mk.inj h
        obtain rfl := Except.error.inj he
        exact Resolver.evaluateVerify_error heval
      · cases h
  · cases h

/-! ## One item for every saved diagnosis -/

/-- An item for this entry, RESOLVED only if it was earned. -/
def Earned (sha256 : String → String) (cat : List Entry) (p : SavedReport)
    (current : DiagnosisReport) (runner : Runner σ) (entry : String × SavedDiagnosis)
    (item : VerifyItem) : Prop :=
  item.diagnosisId = entry.1 ∧ (item.outcome = .resolved → Clear p current entry.1 entry.2
    ∧ ∀ fix, p.baselineFixes.lookup entry.1 = some fix → FixPasses sha256 cat runner fix)

section Runs

variable {sha256 : String → String} {cat : List Entry} {p : SavedReport}
  {current : DiagnosisReport} {runner : Runner σ}

theorem compareOne_earned {id : String} {d : SavedDiagnosis} {s s' : σ} {item : VerifyItem}
    (h : compareOne sha256 cat p current (some runner) id d s = (.ok item, s')) :
    Earned sha256 cat p current runner (id, d) item := by
  unfold compareOne at h
  split at h
  · rename_i o detail hdecided
    obtain ⟨hr, -⟩ := Prod.mk.inj h
    obtain rfl := Except.ok.inj hr
    exact ⟨rfl, fun ho => absurd ho (decided_not_resolved hdecided)⟩
  · rename_i hundecided
    split at h
    · cases h
    · rename_i o detail s₁ hfix
      obtain ⟨hr, -⟩ := Prod.mk.inj h
      obtain rfl := Except.ok.inj hr
      exact ⟨rfl, fun ho => ⟨clear_of_undecided hundecided, fixOutcome_resolved hfix ho⟩⟩

theorem compareEach_earned : ∀ {entries : List (String × SavedDiagnosis)} {s s' : σ}
    {items : List VerifyItem},
      compareEach sha256 cat p current (some runner) entries s = (.ok items, s') →
        List.Forall₂ (Earned sha256 cat p current runner) entries items := by
  intro entries
  induction entries with
  | nil =>
      intro s s' items h
      obtain ⟨hr, -⟩ := Prod.mk.inj h
      obtain rfl := Except.ok.inj hr
      exact .nil
  | cons entry rest ih =>
      intro s s' items h
      obtain ⟨id, d⟩ := entry
      rw [compareEach] at h
      split at h
      · cases h
      · rename_i item s₁ hone
        split at h
        · cases h
        · rename_i items' s₂ hrest
          obtain ⟨hr, -⟩ := Prod.mk.inj h
          obtain rfl := Except.ok.inj hr
          exact .cons (compareOne_earned hone) (ih hrest)

theorem compareEach_error {e : E} : ∀ {entries : List (String × SavedDiagnosis)} {s s' : σ},
    compareEach sha256 cat p current (some runner) entries s = (.error e, s') →
      e = .keyboardInterrupt := by
  intro entries
  induction entries with
  | nil => intro s s' h; cases h
  | cons entry rest ih =>
      intro s s' h
      obtain ⟨id, d⟩ := entry
      rw [compareEach] at h
      split at h
      · rename_i hone
        obtain ⟨he, -⟩ := Prod.mk.inj h
        obtain rfl := Except.error.inj he
        unfold compareOne at hone
        split at hone
        · cases hone
        · split at hone
          · rename_i hfix
            obtain ⟨he, -⟩ := Prod.mk.inj hone
            obtain rfl := Except.error.inj he
            exact fixOutcome_error hfix
          · cases hone
      · split at h
        · rename_i hrest
          obtain ⟨he, -⟩ := Prod.mk.inj h
          obtain rfl := Except.error.inj he
          exact ih hrest
        · cases h

end Runs

/-! ## The ids that are looked at -/

theorem savedId_idem (id : String) : savedId (savedId id) = savedId id :=
  sanitizeText_idem id (by decide)

theorem readDiagnosis_id {d : Dict} {x : SavedDiagnosis} (h : readDiagnosis d = some x) :
    ∃ raw, field d "diagnosis_id" = .str raw ∧ x.diagnosisId = savedId raw := by
  unfold readDiagnosis at h
  split at h
  · rename_i raw hraw
    obtain rfl := Option.some.inj h
    exact ⟨raw, hraw, rfl⟩
  · cases h

/-- The ids of a report that was read are in the form sanitizing leaves them in. -/
theorem savedId_of_read {v : Value} {p : SavedReport} (h : readReport v = some p) :
    ∀ d ∈ p.diagnoses, savedId d.diagnosisId = d.diagnosisId := by
  unfold readReport at h
  split at h
  · split at h
    · obtain rfl := Option.some.inj h
      intro d hd
      obtain ⟨e, -, he⟩ := List.mem_filterMap.mp hd
      obtain ⟨raw, -, hid⟩ := readDiagnosis_id he
      rw [hid, savedId_idem]
    · cases h
  · cases h

/-- A saved or carried diagnosis has this id, once sanitized. -/
def SavedOrCarried (p : SavedReport) (id : String) : Prop :=
  (∃ d ∈ p.diagnoses, d.diagnosisId = id)
    ∨ ∃ entry ∈ p.carriedEntries, ∃ raw, field entry "diagnosis_id" = .str raw ∧ savedId raw = id

theorem mem_keys_addCarried {prev : List (String × SavedDiagnosis)} {entry : Dict} {id : String}
    (hprev : ∀ k ∈ Assoc.keys prev, savedId k = k) :
    id ∈ Assoc.keys (addCarried prev entry) ↔ id ∈ Assoc.keys prev
      ∨ ∃ raw, field entry "diagnosis_id" = .str raw ∧ savedId raw = id := by
  unfold addCarried
  split
  · rename_i raw hraw
    split
    · rename_i hmem
      have hmem := List.contains_iff_mem.mp hmem
      refine ⟨.inl, fun h => h.elim (fun h => h) ?_⟩
      rintro ⟨raw', hraw', rfl⟩
      obtain rfl : raw = raw' := by
        rw [hraw] at hraw'
        exact Value.str.inj hraw'
      rw [hprev raw hmem]
      exact hmem
    · have hread : ∃ x, readDiagnosis entry = some x ∧ x.diagnosisId = savedId raw := by
        unfold readDiagnosis
        rw [hraw]
        exact ⟨_, rfl, rfl⟩
      obtain ⟨x, hx, hid⟩ := hread
      simp only [hx]
      rw [Assoc.mem_keys_put, hid, or_comm]
      refine or_congr_right ⟨fun h => ⟨raw, hraw, h.symm⟩, ?_⟩
      rintro ⟨raw', hraw', rfl⟩
      rw [hraw] at hraw'
      rw [Value.str.inj hraw']
  · rename_i hno
    exact ⟨.inl, fun h => h.elim (fun h => h) fun ⟨raw, hraw, _⟩ => absurd hraw (hno raw)⟩

theorem nodup_keys_addCarried {prev : List (String × SavedDiagnosis)} {entry : Dict}
    (h : (Assoc.keys prev).Nodup) : (Assoc.keys (addCarried prev entry)).Nodup := by
  unfold addCarried
  split
  · split
    · exact h
    · split
      · exact Assoc.nodup_keys_put h
      · exact h
  · exact h

theorem mem_keys_carried : ∀ {entries : List Dict} {prev : List (String × SavedDiagnosis)}
    {id : String}, (∀ k ∈ Assoc.keys prev, savedId k = k) →
      (id ∈ Assoc.keys (entries.foldl addCarried prev) ↔ id ∈ Assoc.keys prev
        ∨ ∃ e ∈ entries, ∃ raw, field e "diagnosis_id" = .str raw ∧ savedId raw = id) := by
  intro entries
  induction entries with
  | nil => intro prev id _; simp
  | cons e entries ih =>
      intro prev id hprev
      have hnext : ∀ k ∈ Assoc.keys (addCarried prev e), savedId k = k := by
        intro k hk
        rcases (mem_keys_addCarried hprev).mp hk with hk | ⟨raw, -, rfl⟩
        · exact hprev k hk
        · exact savedId_idem raw
      rw [List.foldl_cons, ih hnext, mem_keys_addCarried hprev, List.exists_mem_cons_iff, or_assoc]

theorem mem_keys_prevById {v : Value} {p : SavedReport} (h : readReport v = some p) {id : String} :
    id ∈ Assoc.keys p.prevById ↔ SavedOrCarried p id := by
  have hsaved : ∀ k, k ∈ Assoc.keys (Assoc.update [] (p.diagnoses.map fun d => (d.diagnosisId, d)))
      ↔ ∃ d ∈ p.diagnoses, d.diagnosisId = k := by
    intro k
    rw [Assoc.mem_keys_update]
    simp [Assoc.keys]
  have hform : ∀ k ∈ Assoc.keys (Assoc.update [] (p.diagnoses.map fun d => (d.diagnosisId, d))),
      savedId k = k := by
    intro k hk
    obtain ⟨d, hd, rfl⟩ := (hsaved k).mp hk
    exact savedId_of_read h d hd
  rw [SavedReport.prevById, mem_keys_carried hform, hsaved]
  rfl

theorem nodup_keys_prevById (p : SavedReport) : (Assoc.keys p.prevById).Nodup := by
  have run : ∀ (entries : List Dict) (prev : List (String × SavedDiagnosis)),
      (Assoc.keys prev).Nodup → (Assoc.keys (entries.foldl addCarried prev)).Nodup := by
    intro entries
    induction entries with
    | nil => exact fun _ h => h
    | cons e entries ih => exact fun prev h => ih _ (nodup_keys_addCarried h)
  exact run _ _ (Assoc.nodup_keys_update List.nodup_nil)

/-- Only a fix tells of this id. -/
def OnlyFix (p : SavedReport) (id : String) : Prop :=
  (id ∈ Assoc.keys p.baselineFixes ∨ id ∈ p.offeredIds) ∧ ¬ SavedOrCarried p id

theorem mem_orphanIds {v : Value} {p : SavedReport} (h : readReport v = some p) {id : String} :
    id ∈ orphanIds p ↔ OnlyFix p id := by
  rw [orphanIds, (List.mergeSort_perm _ _).mem_iff, List.mem_filter, List.mem_dedup,
    List.mem_append, OnlyFix, ← mem_keys_prevById h, Bool.not_eq_true', Bool.eq_false_iff,
    Ne, List.contains_iff_mem]

theorem nodup_orphanIds (p : SavedReport) : (orphanIds p).Nodup :=
  (List.mergeSort_perm _ _).nodup_iff.mpr ((List.nodup_dedup _).filter _)

/-- Nothing that was saved is left out: one item for the sanitized id of
every saved or carried diagnosis, and one, under the sanitized id, for
every id that only a fix tells of. -/
structure Accounted (p : SavedReport) (items : List VerifyItem) : Prop where
  parts : ∃ (own orphans : List VerifyItem) (ids : List String), items = own ++ orphans
    ∧ (own.map VerifyItem.diagnosisId).Nodup
    ∧ (∀ id, id ∈ own.map VerifyItem.diagnosisId ↔ SavedOrCarried p id)
    ∧ ids.Nodup ∧ (∀ id, id ∈ ids ↔ OnlyFix p id)
    ∧ orphans.map VerifyItem.diagnosisId = ids.map savedId
  /-- In a file with ids in that form no id has two items. -/
  once : (∀ id, OnlyFix p id → savedId id = id) → (items.map VerifyItem.diagnosisId).Nodup

theorem ids_of_earned {sha256 : String → String} {cat : List Entry} {p : SavedReport}
    {current : DiagnosisReport} {runner : Runner σ} {entries : List (String × SavedDiagnosis)}
    {items : List VerifyItem} (h : List.Forall₂ (Earned sha256 cat p current runner) entries items) :
    items.map VerifyItem.diagnosisId = Assoc.keys entries := by
  induction h with
  | nil => rfl
  | cons hone _ ih =>
      rw [List.map_cons, hone.1, ih]
      rfl

theorem earned_of_mem {sha256 : String → String} {cat : List Entry} {p : SavedReport}
    {current : DiagnosisReport} {runner : Runner σ} {entries : List (String × SavedDiagnosis)}
    {items : List VerifyItem} (h : List.Forall₂ (Earned sha256 cat p current runner) entries items)
    {item : VerifyItem} (hitem : item ∈ items) :
    ∃ entry ∈ entries, Earned sha256 cat p current runner entry item := by
  induction h with
  | nil => cases hitem
  | @cons entry first _ _ hone _ ih =>
      rcases List.mem_cons.mp hitem with rfl | hitem
      · exact ⟨entry, List.mem_cons_self, hone⟩
      · obtain ⟨e, he, hearned⟩ := ih hitem
        exact ⟨e, List.mem_cons_of_mem _ he, hearned⟩

theorem accounted_of_earned {sha256 : String → String} {cat : List Entry} {v : Value}
    {p : SavedReport} (hp : readReport v = some p) {current : DiagnosisReport}
    {runner : Runner σ} {own : List VerifyItem}
    (h : List.Forall₂ (Earned sha256 cat p current runner) p.prevById own) :
    Accounted p (own ++ (orphanIds p).map orphanItem) := by
  have hids := ids_of_earned h
  have horphans : ((orphanIds p).map orphanItem).map VerifyItem.diagnosisId
      = (orphanIds p).map savedId := by
    rw [List.map_map]
    rfl
  have hown : (own.map VerifyItem.diagnosisId).Nodup := by
    rw [hids]
    exact nodup_keys_prevById p
  refine ⟨⟨own, _, orphanIds p, rfl, hown, fun id => ?_, nodup_orphanIds p,
    fun id => mem_orphanIds hp, horphans⟩, fun hform => ?_⟩
  · rw [hids]
    exact mem_keys_prevById hp
  · have hsame : (orphanIds p).map savedId = orphanIds p := by
      conv_rhs => rw [← List.map_id (orphanIds p)]
      exact List.map_congr_left fun id hid => hform id ((mem_orphanIds hp).mp hid)
    rw [List.map_append, horphans, hsame, hids]
    refine (nodup_keys_prevById p).append (nodup_orphanIds p) fun id hkey horphan => ?_
    exact ((mem_orphanIds hp).mp horphan).2 ((mem_keys_prevById hp).mp hkey)

/-- A comparison with a file that can be read only ends by an interrupt
or with a result; there RESOLVED was earned, and nothing is left out. -/
theorem compare_sound (sha256 : String → String) (cat : List Entry) (v : Value) (p : SavedReport)
    (hp : readReport v = some p) (current : DiagnosisReport) (runner : Runner σ) (s : σ) :
    (compare sha256 cat (some p) current (some runner) s).1 = .error .keyboardInterrupt
      ∨ ∃ result s', compare sha256 cat (some p) current (some runner) s = (.ok result, s')
        ∧ (∀ item ∈ result.items, item.outcome = .resolved →
            ∃ d, (item.diagnosisId, d) ∈ p.prevById ∧ Clear p current item.diagnosisId d
              ∧ ∀ fix, p.baselineFixes.lookup item.diagnosisId = some fix →
                  FixPasses sha256 cat runner fix)
        ∧ Accounted p result.items := by
  rcases hrun : compareEach sha256 cat p current (some runner) p.prevById s with ⟨e | own, s'⟩
  · refine .inl ?_
    rw [compare]
    simp only [hrun]
    rw [compareEach_error hrun]
  · refine .inr ⟨_, s', by rw [compare]; simp only [hrun]; rfl, fun item hitem hres => ?_, ?_⟩
    · have hearned := compareEach_earned hrun
      rcases List.mem_append.mp hitem with hitem | hitem
      · obtain ⟨⟨id, d⟩, hentry, hid, hclear⟩ := earned_of_mem hearned hitem
        have hid : item.diagnosisId = id := hid
        obtain ⟨hc, hfix⟩ := hclear hres
        rw [hid]
        exact ⟨d, hentry, hc, hfix⟩
      · obtain ⟨id, -, rfl⟩ := List.mem_map.mp hitem
        cases hres
    · exact accounted_of_earned hp (compareEach_earned hrun)

/-- A file from a host, with one diagnosis and no fix. -/
def savedElsewhere : Value :=
  .dict [("hostname", .str "a.example.test"),
    ("diagnoses", .list [.dict [("diagnosis_id", .str "dns.forward-zone-conflict")]]),
    ("report_schema_version", .int 2),
    ("v2", .dict [("verify_baseline", .dict [("schema", .int 1), ("fixes", .list [])])])]

def elsewhere : SavedReport :=
  { generatedAt := "an unknown time"
    hostname := .str "a.example.test"
    replaySource := .null
    schemaVersion := .int 2
    v2 := some (.dict [("verify_baseline", .dict [("schema", .int 1), ("fixes", .list [])])])
    diagnoses :=
      [⟨"dns.forward-zone-conflict", "dns.forward-zone-conflict", "", "", ""⟩] }

theorem read_elsewhere : readReport savedElsewhere = some elsewhere := by decide +kernel

/-- A healthy host that does not know its name. -/
def namelessHost : DiagnosisReport :=
  runDiagnosis "" { stoppedHost with hostname := "", findings := [] } []

def noChecks : Runner Unit := { run := fun s _ _ => (.error .other, s), replay := false }

theorem elsewhere_resolved : Result.returns (fun r => r.items.any (·.outcome == .resolved))
    (compare id [] (some elsewhere) namelessHost (some noChecks) ()).1 = true := by
  decide +kernel

/-- Nothing is lost of that file. -/
theorem accounted_elsewhere : ∃ result s',
    compare id [] (some elsewhere) namelessHost (some noChecks) () = (.ok result, s')
      ∧ Accounted elsewhere result.items := by
  rcases compare_sound id [] savedElsewhere elsewhere read_elsewhere namelessHost noChecks ()
    with h | ⟨result, s', hrun, -, hall⟩
  · have hok := elsewhere_resolved
    rw [h] at hok
    cases hok
  · exact ⟨result, s', hrun, hall⟩

/-- RESOLVED does not mean that the report is from this host: a host
without a name is not compared. -/
theorem resolved_elsewhere :
    ¬ ∀ (cat : List Entry) (v : Value) (p : SavedReport) (current : DiagnosisReport)
      (runner : Runner Unit), readReport v = some p → ∀ result,
        (compare id cat (some p) current (some runner) ()).1 = .ok result →
          ∀ item ∈ result.items, item.outcome = .resolved →
            p.hostname = .str current.hostname := by
  intro h
  obtain ⟨result, hrun, hany⟩ := Result.returns_iff.mp elsewhere_resolved
  obtain ⟨item, hitem, hres⟩ := List.any_eq_true.mp hany
  have hsame := h [] savedElsewhere elsewhere namelessHost noChecks read_elsewhere result hrun item
    hitem (beq_iff_eq.mp hres)
  exact absurd hsame (by decide +kernel)

end IpaDiagnose.Verify
