import IpaDiagnose.Resolution.Offered
import IpaDiagnose.Resolution.StartService
import IpaDiagnose.Verify.Carry
import IpaDiagnose.Verify.Known
import IpaDiagnose.Verify.Resolved

/-!
# A shown fix is not forgotten

Once a run that saved its report has shown a fix for a diagnosis, the
baseline holds a record of it and an entry for the diagnosis (`Holds`).
A step of the file keeps both, or releases them for a reason the user
can see (`Released`): `verify` called the diagnosis resolved, or a plain
run no longer found it and the fix's own checks pass, or cannot be
rebuilt as they were. By induction this is so after any number of runs
on the same host in the same mode.
-/

namespace IpaDiagnose.Verify

open Py (Value Dict)
open Resolver (E Entry Runner Resolution Verdict Rebuilt field evaluateVerify rebuildVerify
  resolveDiagnosis selected)

variable {σ : Type} {sha256 : String → String} {cat : List Entry}

/-! ## The diagnoses fixes are shown for -/

/-- The procedure for a stopped service takes its name as a service of FreeIPA. -/
def TypesService (cat : List Entry) : Prop :=
  ∀ p, selected cat "healthcheck.service-not-running" none = some (.procedure p) →
    ∃ spec, ("service", spec) ∈ p.bindings ∧ spec.type = "ipa_service"

theorem mem_report_shows {now : String} {b : EvidenceBundle} {ds : List Diagnosis}
    {names : List String} {x : Diagnosis} (h : x ∈ (buildReport now b ds names).diagnoses) :
    ∃ d ∈ ds, x.Shows d := by
  obtain ⟨p, hp, rfl⟩ := mem_report.mp h
  have hmem := fst_mem_of_mem_zipIdx hp
  have hshows : ∃ d ∈ ds, p.1.Shows d := by
    unfold prepared at hmem
    split at hmem
    · obtain ⟨d, hd, heq⟩ := List.mem_map.mp hmem
      exact ⟨d, hd, heq ▸ noteCertmonger_shows d⟩
    · exact ⟨p.1, hmem, .refl p.1⟩
  obtain ⟨d, hd, hs⟩ := hshows
  exact ⟨d, hd, (bucketed_shows _ _ p).trans hs⟩

/-- The services of FreeIPA have plain names. -/
theorem ipa_services_plain : ∀ row ∈ T.IPA_SERVICES,
    SERVICE_NAME_RE.fullmatch row.1 = true := by
  decide

theorem plain_of_ipaService {s v : String}
    (h : (T.validate "ipa_service" (.str s) : Except E (Option String)) = .ok (some v)) :
    SERVICE_NAME_RE.fullmatch s = true := by
  have hlookup : (T.VALIDATORS.lookup "ipa_service" : Option (_ → Except E _))
      = some (T.total T.ipaService) := by rfl
  rw [T.validate, hlookup] at h
  have hsome := Except.ok.inj h
  have hmem : (T.IPA_SERVICES.lookup s).isSome = true := by
    by_contra hno
    have hnone : T.ipaService (.str s) = none := if_neg hno
    rw [hnone] at hsome
    cases hsome
  obtain ⟨row, hrow, hkey⟩ := List.lookup_isSome_iff.mp hmem
  rw [beq_iff_eq.mp hkey]
  exact ipa_services_plain row hrow

/-- `verify` knows every diagnosis a fix was found for. -/
theorem known_of_offered (hcat : TypesService cat) {now : String} {b : EvidenceBundle}
    {packs : List Diagnosis} (hpacks : ∀ d ∈ packs, PackEmits d) {x : Diagnosis}
    (hx : x ∈ (runDiagnosis now b packs).diagnoses) {env : Option EnvironmentInfo}
    {runner : Runner σ} {s s' : σ} {r : Resolution}
    (h : resolveDiagnosis sha256 cat x env runner s = .ok (some r, s'))
    (hr : r.status = .offered) : knownDiagnosisId x.diagnosisId = true := by
  obtain ⟨-, key, p, bound, reasons, hkey, hselected, hbound⟩ :=
    Resolver.resolveDiagnosis_offered h hr
  obtain ⟨d, hd, hshows⟩ := mem_report_shows hx
  have hid : x.diagnosisId = d.diagnosisId := by rw [← hshows]
  have hres : x.resolutionKey = d.resolutionKey := by rw [← hshows]
  have hvariant : x.variant = d.variant := by rw [← hshows]
  have hbindings : x.bindings = d.bindings := by rw [← hshows]
  rw [hid]
  rcases List.mem_append.mp hd with hd | hd
  · exact known_of_packEmits (hpacks d hd)
  · rcases List.mem_append.mp hd with hd | hd
    · rcases List.mem_append.mp hd with hd | hd
      · obtain ⟨⟨f, service⟩, -, rfl⟩ := List.mem_map.mp hd
        rw [hres] at hkey
        obtain rfl : "healthcheck.service-not-running" = key := Option.some.inj hkey
        rw [hvariant] at hselected
        obtain ⟨spec, hspec, htype⟩ := hcat p hselected
        rw [hbindings] at hbound
        obtain ⟨v, hv⟩ := Resolver.validate_of_readBindings hbound hspec (by rw [htype]; decide)
        rw [htype] at hv
        rw [serviceDiagnosis_id, known_serviceId]
        exact plain_of_ipaService hv
      · obtain ⟨g, gs, hg⟩ : ∃ g gs, d = groupedUnknown g gs := by
          rcases ho : (net b packs).others with _ | ⟨g, gs⟩
          · rw [ho] at hd
            cases hd
          · rw [ho] at hd
            exact ⟨g, gs, List.mem_singleton.mp hd⟩
        subst hg
        rw [hres] at hkey
        cases hkey
    · obtain ⟨g, gs, hg⟩ : ∃ g gs, d = checkFailedDiagnosis g gs := by
        rcases hc : (net b packs).crashed with _ | ⟨g, gs⟩
        · rw [hc] at hd
          cases hd
        · rw [hc] at hd
          exact ⟨g, gs, List.mem_singleton.mp hd⟩
      subst hg
      rw [hres] at hkey
      cases hkey

/-! ## What is in a file that was written -/

theorem read_saveReport (r : ResolvedReport) :
    readReport (.dict (reportToDict r)) = some (savedReport r) := by
  have hload := load_saveReport r true
  rw [saveReport, loadPreviousReport] at hload
  split at hload
  · rename_i p hp
    rw [hp, Option.some.inj (Except.ok.inj hload)]
  · cases hload

theorem baselineFixes_saved (r : ResolvedReport) : (savedReport r).baselineFixes
    = Assoc.update [] ((fixesToSave r).filterMap SavedReport.byDiagnosis) := by
  have hfixes : dictsOf (SavedReport.listIn (savedReport r).verifyBaseline "fixes")
      = fixesToSave r := dictsOf_map_dict (fixesToSave r)
  rw [SavedReport.baselineFixes, hfixes]

theorem carriedEntries_saved (r : ResolvedReport) :
    (savedReport r).carriedEntries = r.carriedDiagnoses :=
  dictsOf_map_dict r.carriedDiagnoses

theorem byDiagnosis_eq {d : Dict} {x : String × Dict} (h : SavedReport.byDiagnosis d = some x) :
    x.2 = d ∧ field d "diagnosis_id" = .str x.1 := by
  unfold SavedReport.byDiagnosis at h
  split at h
  · rename_i id hid
    obtain rfl := Option.some.inj h
    exact ⟨rfl, hid⟩
  · cases h

theorem byDiagnosis_of_id {d : Dict} {id : String} (h : field d "diagnosis_id" = .str id) :
    SavedReport.byDiagnosis d = some (id, d) := by
  rw [SavedReport.byDiagnosis, h]

/-- Every record is kept under its own id. -/
theorem field_of_baselineFixes {p : SavedReport} {id : String} {fix : Dict}
    (h : (id, fix) ∈ p.baselineFixes) : field fix "diagnosis_id" = .str id := by
  rcases Assoc.mem_update h with h | h
  · cases h
  · obtain ⟨d, -, hd⟩ := List.mem_filterMap.mp h
    obtain ⟨rfl, hid⟩ := byDiagnosis_eq hd
    exact hid

theorem mem_keys_saved {r : ResolvedReport} {id : String} :
    id ∈ Assoc.keys (savedReport r).baselineFixes
      ↔ ∃ fix ∈ fixesToSave r, field fix "diagnosis_id" = .str id := by
  rw [baselineFixes_saved, Assoc.mem_keys_update]
  constructor
  · rintro (h | h)
    · cases h
    · obtain ⟨fix, h⟩ := Assoc.mem_keys.mp h
      obtain ⟨d, hd, hby⟩ := List.mem_filterMap.mp h
      exact ⟨d, hd, (byDiagnosis_eq hby).2⟩
  · rintro ⟨fix, hfix, hid⟩
    have hby := List.mem_filterMap.mpr ⟨fix, hfix, byDiagnosis_of_id hid⟩
    exact .inr (Assoc.mem_keys.mpr ⟨fix, hby⟩)

/-- A file says which host it is from, if that host has a name. -/
theorem undamaged_saved {r : ResolvedReport} (h : PyStr.strip r.hostname ≠ "") :
    (savedReport r).baselineDamage = none := by
  have hfirst : (savedReport r).isFirstVersion = false := rfl
  have hformed : (savedReport r).baselineWellFormed = true := rfl
  have hnames : (savedReport r).namesHost = true := by
    show (PyStr.strip r.hostname != "") = true
    simpa using h
  rw [SavedReport.baselineDamage, hfirst, hformed, hnames]
  rfl

/-! ## Which fixes are kept -/

/-- The criteria of a fix pass, or can no longer be rebuilt as they were. -/
def Settled (sha256 : String → String) (cat : List Entry) (runner : Runner σ) (fix : Dict) :
    Prop :=
  ∃ s₁ rebuilt s₂, rebuildVerify sha256 cat (.dict fix) runner s₁ = (.ok rebuilt, s₂)
    ∧ (rebuilt.criteria = none ∨ rebuilt.problem ≠ none
      ∨ ∃ criteria results s₃, rebuilt.criteria = some criteria
        ∧ evaluateVerify runner criteria s₂ = (.ok results, s₃) ∧ ∀ v ∈ results, v.ok = some true)

theorem settled_of_stillUnfixed {runner : Runner σ} {fix : Dict} {s s' : σ}
    (h : stillUnfixed sha256 cat fix runner s = (.ok false, s')) :
    Settled sha256 cat runner fix := by
  unfold stillUnfixed at h
  split at h
  · cases h
  · rename_i criteria why s₁ hrebuild
    split at h
    · cases h
    · rename_i results s₂ heval
      have hany : (results.any (·.ok != some true)) = false :=
        Except.ok.inj (Prod.mk.inj h).1
      refine ⟨s, _, s₁, hrebuild, .inr (.inr ⟨criteria, results, s₂, rfl, heval, ?_⟩)⟩
      intro v hv
      have hok := List.any_eq_false.mp hany v hv
      simpa using hok
  · rename_i rebuilt s₁ hnot hrebuild
    refine ⟨s, rebuilt, s₁, hrebuild, ?_⟩
    obtain ⟨criteria, problem, why⟩ := rebuilt
    rcases criteria with _ | criteria
    · exact .inl rfl
    · rcases problem with _ | problem
      · exact (hnot criteria why rfl).elim
      · exact .inr (.inl (by simp))

/-- A record that is not skipped is kept, unless its diagnosis is gone and it is settled. -/
theorem keepFixes_kept {skip fresh : List String} {runner : Runner σ} {id : String} {fix : Dict}
    (hskip : id ∉ skip) : ∀ {fixes : List (String × Dict)} {s s' : σ} {kept : List Dict},
      keepFixes sha256 cat skip fresh runner fixes s = (.ok kept, s') → (id, fix) ∈ fixes →
        fix ∈ kept ∨ (id ∉ fresh ∧ Settled sha256 cat runner fix) := by
  intro fixes
  induction fixes with
  | nil => exact fun _ hmem => nomatch hmem
  | cons first rest ih =>
      obtain ⟨id', fix'⟩ := first
      intro s s' kept h hmem
      rw [keepFixes] at h
      split at h
      · rename_i hskipped
        rcases List.mem_cons.mp hmem with heq | hmem
        · obtain ⟨rfl, rfl⟩ := Prod.mk.inj heq
          exact absurd (List.contains_iff_mem.mp hskipped) hskip
        · exact ih h hmem
      · -- the record itself is kept, and so are the ones after it
        have hkeep : ∀ {t : σ} {more : List Dict} {t' : σ},
            keepFixes sha256 cat skip fresh runner rest t = (.ok more, t') → kept = fix' :: more →
              fix ∈ kept ∨ (id ∉ fresh ∧ Settled sha256 cat runner fix) := by
          rintro t more t' hrest rfl
          rcases List.mem_cons.mp hmem with heq | hmem
          · obtain ⟨-, rfl⟩ := Prod.mk.inj heq
            exact .inl List.mem_cons_self
          · exact (ih hrest hmem).imp_left (List.mem_cons_of_mem _)
        split at h
        · split at h
          · cases h
          · rename_i more t' hrest
            exact hkeep hrest (Except.ok.inj (Prod.mk.inj h).1).symm
        · rename_i hgone
          split at h
          · cases h
          · rename_i t hsettled
            rcases List.mem_cons.mp hmem with heq | hmem
            · obtain ⟨rfl, rfl⟩ := Prod.mk.inj heq
              refine .inr ⟨fun hfresh => hgone (List.contains_iff_mem.mpr hfresh), ?_⟩
              exact settled_of_stillUnfixed hsettled
            · exact ih h hmem
          · split at h
            · cases h
            · rename_i more t' hrest
              exact hkeep hrest (Except.ok.inj (Prod.mk.inj h).1).symm

/-- A diagnosis that is asked for and was saved is carried. -/
theorem mem_entriesFor {wanted : List String} {id : String} (hwanted : id ∈ wanted) :
    ∀ {pool : List Dict} {seen : List String}, id ∉ seen →
      (∃ d ∈ pool, field d "diagnosis_id" = .str id) →
        ∃ e ∈ entriesFor wanted seen pool, field e "diagnosis_id" = .str id := by
  intro pool
  induction pool with
  | nil => exact fun _ h => nomatch h
  | cons d ds ih =>
      rintro seen hseen ⟨e, he, hid⟩
      rw [entriesFor]
      split
      · rename_i id' hid'
        split
        · by_cases heq : id' = id
          · exact ⟨d, List.mem_cons_self, heq ▸ hid'⟩
          · have htail : e ∈ ds := by
              rcases List.mem_cons.mp he with rfl | he
              · rw [hid] at hid'
                exact absurd (Value.str.inj hid').symm heq
              · exact he
            have hseen' : id ∉ id' :: seen := by
              rw [List.mem_cons]
              rintro (h | h)
              · exact heq h.symm
              · exact hseen h
            obtain ⟨e', he', hid''⟩ := ih hseen' ⟨e, htail, hid⟩
            exact ⟨e', List.mem_cons_of_mem _ he', hid''⟩
        · rename_i hskipped
          rcases List.mem_cons.mp he with rfl | he
          · rw [hid] at hid'
            obtain rfl := Value.str.inj hid'
            refine absurd ?_ hskipped
            rw [List.contains_iff_mem.mpr hwanted, Bool.true_and, Bool.not_eq_true',
              Bool.eq_false_iff]
            exact fun hc => hseen (List.contains_iff_mem.mp hc)
          · exact ih hseen ⟨e, he, hid⟩
      · rename_i hno
        rcases List.mem_cons.mp he with rfl | he
        · exact absurd hid (hno id)
        · exact ih hseen ⟨e, he, hid⟩

/-! ## What a baseline remembers -/

/-- An entry for the diagnosis, of the run itself or carried. -/
def HasEntry (p : SavedReport) (id : String) : Prop :=
  (∃ d ∈ p.diagnoses, d.diagnosisId = id)
    ∨ ∃ e ∈ p.carriedEntries, field e "diagnosis_id" = .str id

/-- The file is a usable baseline with a record of a fix for the diagnosis and an entry for it. -/
def Remembers (file : StateFile) (id : String) : Prop :=
  ∃ p, loadPreviousReport file true = .ok (some p) ∧ p.baselineDamage = none
    ∧ id ∈ Assoc.keys p.baselineFixes ∧ HasEntry p id

/-- The run is on this host, in this mode, and the health check was collected. -/
structure Run.On (run : Run sha256 cat σ) (host : String) (replay : Bool) : Prop where
  hostname : run.bundle.hostname = host
  mode : isReplay run.diagnosisReport = replay
  collected : run.diagnosisReport.evidenceCompleteness.healthcheckCollected = true

/-- A report of this host and mode was written, and remembers the diagnosis. -/
structure Baseline (host : String) (replay : Bool) (id : String) (r : ResolvedReport) : Prop where
  hostname : r.hostname = host
  mode : isReplay r.toDiagnosisReport = replay
  record : id ∈ Assoc.keys (savedReport r).baselineFixes
  entry : HasEntry (savedReport r) id

theorem remembers_of_baseline {host : String} (hhost : PyStr.strip host ≠ "") {replay : Bool}
    {id : String} {r : ResolvedReport} (h : Baseline host replay id r) :
    Remembers (saveReport r) id := by
  refine ⟨savedReport r, load_saveReport r true, ?_, h.record, h.entry⟩
  exact undamaged_saved (h.hostname ▸ hhost)

theorem truthy_optStr (r : DiagnosisReport) : (optStr r.replaySource).truthy = isReplay r := by
  rw [isReplay]
  cases r.replaySource with
  | none => rfl
  | some s => rfl

/-- A file of this host and mode is a baseline for the next run. -/
theorem usable_saved {host : String} (hhost : PyStr.strip host ≠ "") {replay : Bool}
    {r : ResolvedReport} {current : DiagnosisReport} (hr : r.hostname = host)
    (hmode : isReplay r.toDiagnosisReport = replay) (hc : current.hostname = host)
    (hcmode : isReplay current = replay) :
    ((savedReport r).baselineProblem current).or (savedReport r).baselineDamage = none := by
  have hother : (savedReport r).otherHost current = none := by
    show (if r.hostname ≠ "" ∧ current.hostname ≠ "" ∧ r.hostname ≠ current.hostname
      then some r.hostname else none) = none
    exact if_neg fun h => h.2.2 (hr.trans hc.symm)
  have hreplay : ((savedReport r).replaySource.truthy != isReplay current) = false := by
    show ((optStr r.replaySource).truthy != isReplay current) = false
    rw [truthy_optStr, hmode, hcmode]
    simp
  have hproblem : (savedReport r).baselineProblem current = none := by
    unfold SavedReport.baselineProblem
    rw [hother]
    simp only [hreplay]
    rfl
  rw [hproblem, undamaged_saved (hr ▸ hhost)]
  rfl

/-! ## Saving -/

/-- A report with what it carries from the last one. -/
def carrying (file : StateFile) (r : ResolvedReport) (fixes : List Dict) : ResolvedReport :=
  { r with
    carriedFixes := fixes
    carriedDiagnoses := carriedDiagnoses (previousOf file) r.toDiagnosisReport fixes }

theorem saveBaseline_saves {file file' : StateFile} {r : ResolvedReport} {confirmed : List String}
    {runner : Runner σ} {s s' : σ}
    (h : saveBaseline sha256 cat file r confirmed runner s = (.ok file', s'))
    (hcoll : r.evidenceCompleteness.healthcheckCollected = true) :
    ∃ fixes, carryForwardFixes sha256 cat (previousOf file) r confirmed runner s = (.ok fixes, s')
      ∧ file' = saveReport (carrying file r fixes) := by
  rw [saveBaseline, if_pos hcoll] at h
  split at h
  · cases h
  · rename_i fixes s₁ hcarry
    obtain ⟨hfile, rfl⟩ := Prod.mk.inj h
    exact ⟨fixes, hcarry, (Except.ok.inj hfile).symm⟩

theorem mem_recordIds {fixes : List Dict} {fix : Dict} {id : String} (hfix : fix ∈ fixes)
    (hid : field fix "diagnosis_id" = .str id) : id ∈ recordIds fixes :=
  List.mem_filterMap.mpr ⟨fix, hfix, by rw [byDiagnosis_of_id hid]; rfl⟩

theorem previousOf_saved (r : ResolvedReport) : previousOf (saveReport r) = some (savedReport r) := by
  rw [previousOf, load_saveReport]

section Saved

variable {id : String} {r : ResolvedReport}

/-- A diagnosis of the report has an entry. -/
theorem hasEntry_of_fresh (hknown : knownDiagnosisId id = true)
    (h : id ∈ freshIds r.toDiagnosisReport) : HasEntry (savedReport r) id := by
  obtain ⟨d, hd, rfl⟩ := List.mem_map.mp h
  exact .inl ⟨savedDiagnosis d, List.mem_map_of_mem hd, savedId_of_known hknown⟩

/-- So has a carried one. -/
theorem hasEntry_of_carried {e : Dict} (he : e ∈ r.carriedDiagnoses)
    (hid : field e "diagnosis_id" = .str id) : HasEntry (savedReport r) id := by
  refine .inr ⟨e, ?_, hid⟩
  rw [carriedEntries_saved]
  exact he

/-- An entry of the last baseline is in the pool carried diagnoses are looked up in. -/
theorem mem_pool {p : SavedReport} (h : HasEntry p id) :
    ∃ d ∈ p.diagnoses.map SavedDiagnosis.toDict ++ p.carriedEntries,
      field d "diagnosis_id" = .str id := by
  rcases h with ⟨d, hd, rfl⟩ | ⟨e, he, hid⟩
  · exact ⟨d.toDict, List.mem_append_left _ (List.mem_map_of_mem hd), rfl⟩
  · exact ⟨e, List.mem_append_right _ he, hid⟩

/-- What is carried keeps its record and its entry. -/
theorem carrying_remembers {p : SavedReport} {file : StateFile} (hp : previousOf file = some p)
    (hknown : knownDiagnosisId id = true) (hentry : HasEntry p id) {fixes : List Dict} {fix : Dict}
    (hfix : fix ∈ fixes) (hid : field fix "diagnosis_id" = .str id) :
    id ∈ Assoc.keys (savedReport (carrying file r fixes)).baselineFixes
      ∧ HasEntry (savedReport (carrying file r fixes)) id := by
  refine ⟨mem_keys_saved.mpr ⟨fix, List.mem_append_right _ hfix, hid⟩, ?_⟩
  by_cases hfresh : id ∈ freshIds r.toDiagnosisReport
  · exact hasEntry_of_fresh (r := carrying file r fixes) hknown hfresh
  · have hwanted : id ∈ (recordIds fixes).filter
        fun i => !(freshIds r.toDiagnosisReport).contains i := by
      refine List.mem_filter.mpr ⟨mem_recordIds hfix hid, ?_⟩
      rw [Bool.not_eq_true', Bool.eq_false_iff]
      exact fun hc => hfresh (List.contains_iff_mem.mp hc)
    have hnew : id ∉ ([] : List String) := List.not_mem_nil
    obtain ⟨e, he, heid⟩ := mem_entriesFor hwanted hnew (mem_pool hentry)
    have hcarried : (carrying file r fixes).carriedDiagnoses
        = entriesFor ((recordIds fixes).filter
            fun i => !(freshIds r.toDiagnosisReport).contains i) []
          (p.diagnoses.map SavedDiagnosis.toDict ++ p.carriedEntries) := by
      show carriedDiagnoses (previousOf file) r.toDiagnosisReport fixes = _
      rw [hp]
      rfl
    exact hasEntry_of_carried (hcarried ▸ he) heid

end Saved

/-! ## A fix that was just shown -/

theorem freshIds_run (run : Run sha256 cat σ) {d : Diagnosis}
    (h : d ∈ (runDiagnosis run.now run.bundle run.packs).diagnoses) :
    d.diagnosisId ∈ freshIds run.report.toDiagnosisReport :=
  List.mem_map_of_mem h

/-- A shown fix has a record under the id of a diagnosis of the run, which `verify` knows. -/
theorem shown_record (hcat : TypesService cat) {run : Run sha256 cat σ} {id : String}
    (h : run.Shows id) : knownDiagnosisId id = true
      ∧ id ∈ freshIds run.report.toDiagnosisReport
      ∧ ∃ fix ∈ (run.report.resolutions.map (·.2)).filterMap shownFix,
        field fix "diagnosis_id" = .str id := by
  obtain ⟨⟨key, r⟩, hmem, hkey⟩ := List.mem_map.mp h
  obtain rfl : key = id := hkey
  obtain ⟨hmem, hstatus⟩ := List.mem_filter.mp hmem
  have hoff : r.status = .offered := beq_iff_eq.mp hstatus
  have hfound : (key, r) ∈ run.found.map fun x => (x.1.diagnosisId, x.2) :=
    (Assoc.mem_update hmem).resolve_left List.not_mem_nil
  obtain ⟨⟨d, r'⟩, hd, heq⟩ := List.mem_map.mp hfound
  obtain ⟨rfl, rfl⟩ := Prod.mk.inj heq
  obtain ⟨hdiag, hres⟩ := run.resolved (d, r') hd
  rcases hres with ⟨s, s', hres⟩ | ⟨-, hwithheld, -⟩
  · refine ⟨known_of_offered hcat run.emitted hdiag hres hoff, freshIds_run run hdiag, ?_⟩
    obtain ⟨b, hb⟩ := Option.isSome_iff_exists.mp (Resolver.resolveDiagnosis_offered hres hoff).1
    refine ⟨fixRecord b r'.diagnosisId, ?_, ?_⟩
    · refine List.mem_filterMap.mpr ⟨r', List.mem_map.mpr ⟨_, hmem, rfl⟩, ?_⟩
      rw [shownFix, if_pos hoff, hb]
      rfl
    · rw [Resolver.resolveDiagnosis_id hres]
      rfl
  · rw [hoff] at hwithheld
    cases hwithheld

/-! ## One step -/

/-- Why a baseline may forget a fix: `verify` called its diagnosis resolved, or a plain run
did not find the diagnosis and the fix is settled. -/
def Released (file : StateFile) (e : Event sha256 cat σ) (id : String) : Prop :=
  match e with
  | .diagnose run => id ∉ freshIds run.report.toDiagnosisReport
      ∧ ∃ p fix, loadPreviousReport file true = .ok (some p) ∧ (id, fix) ∈ p.baselineFixes
        ∧ Settled sha256 cat run.runner fix
  | .verify _ result _ => ∃ r ∈ result, ∃ item ∈ r.items,
      item.diagnosisId = id ∧ item.outcome = .resolved
  | .unwritable _ => False

section Steps

variable {host : String} {replay : Bool} {id : String}

theorem hostname_run {run : Run sha256 cat σ} (h : run.On host replay) :
    run.report.hostname = host := h.hostname

/-- What is saved after a run that showed a fix remembers it, whatever was saved before. -/
theorem saved_shown (hcat : TypesService cat) {run : Run sha256 cat σ} (hon : run.On host replay)
    (hshows : run.Shows id) (file : StateFile) (fixes : List Dict) :
    Baseline host replay id (carrying file run.report fixes) := by
  obtain ⟨hknown, hfresh, fix, hfix, hid⟩ := shown_record hcat hshows
  exact
    { hostname := hostname_run hon
      mode := hon.mode
      record := mem_keys_saved.mpr ⟨fix, List.mem_append_left _ hfix, hid⟩
      entry := hasEntry_of_fresh (r := carrying file run.report fixes) hknown hfresh }

/-- A baseline that is replaced is remembered in the new one, unless the diagnosis was
confirmed, or is gone and its fix settled. -/
theorem saved_keeps (hhost : PyStr.strip host ≠ "") (hcat : TypesService cat)
    (hknown : knownDiagnosisId id = true) {r₀ : ResolvedReport} (h₀ : Baseline host replay id r₀)
    {run : Run sha256 cat σ} (hon : run.On host replay) {confirmed : List String}
    {s s' : σ} {file' : StateFile}
    (h : saveBaseline sha256 cat (saveReport r₀) run.report confirmed run.runner s
      = (.ok file', s')) :
    (∃ r, file' = saveReport r ∧ Baseline host replay id r) ∨ id ∈ confirmed
      ∨ (id ∉ freshIds run.report.toDiagnosisReport
        ∧ ∃ fix, (id, fix) ∈ (savedReport r₀).baselineFixes
          ∧ Settled sha256 cat run.runner fix) := by
  obtain ⟨fixes, hcarry, rfl⟩ := saveBaseline_saves h hon.collected
  by_cases hshows : run.Shows id
  · exact .inl ⟨_, rfl, saved_shown hcat hon hshows _ fixes⟩
  · by_cases hconf : id ∈ confirmed
    · exact .inr (.inl hconf)
    · rw [previousOf_saved, carryForwardFixes,
        if_neg (by rw [usable_saved hhost h₀.hostname h₀.mode (hostname_run hon) hon.mode]; simp)]
        at hcarry
      obtain ⟨fix, hfix⟩ := Assoc.mem_keys.mp h₀.record
      have hskip : id ∉ shownNow run.report ++ confirmed := by
        rw [List.mem_append]
        rintro (hs | hc)
        · exact hshows hs
        · exact hconf hc
      rcases keepFixes_kept hskip hcarry hfix with hkept | ⟨hgone, hsettled⟩
      · obtain ⟨hrecord, hentry⟩ := carrying_remembers (r := run.report) (previousOf_saved r₀) hknown
          h₀.entry hkept (field_of_baselineFixes hfix)
        exact .inl ⟨_, rfl, ⟨hostname_run hon, hon.mode, hrecord, hentry⟩⟩
      · exact .inr (.inr ⟨hgone, fix, hfix, hsettled⟩)

/-- Every diagnosis with an entry has an item in a comparison. -/
theorem item_of_entry {p : SavedReport} {v : Value} (hread : readReport v = some p)
    (hsaved : savedId id = id) (hentry : HasEntry p id) {current : DiagnosisReport}
    {runner : Runner σ} {s s' : σ} {result : VerifyResult}
    (h : compare sha256 cat (some p) current (some runner) s = (.ok result, s')) :
    ∃ item ∈ result.items, item.diagnosisId = id := by
  have hkey : id ∈ Assoc.keys p.prevById := by
    rw [mem_keys_prevById hread]
    rcases hentry with hentry | ⟨e, he, hid⟩
    · exact .inl hentry
    · exact .inr ⟨e, he, id, hid, hsaved⟩
  rw [compare] at h
  split at h
  · cases h
  · rename_i items s₁ heach
    obtain ⟨hr, -⟩ := Prod.mk.inj h
    obtain rfl := Except.ok.inj hr
    rw [← ids_of_earned (compareEach_earned heach)] at hkey
    obtain ⟨item, hitem, hid⟩ := List.mem_map.mp hkey
    exact ⟨item, List.mem_append_left _ hitem, hid⟩

theorem currentReport_compare {p : Option SavedReport} {current : DiagnosisReport}
    {runner : Option (Runner σ)} {s s' : σ} {result : VerifyResult}
    (h : compare sha256 cat p current runner s = (.ok result, s')) :
    result.currentReport = current := by
  unfold compare at h
  split at h
  · obtain rfl := Except.ok.inj (Prod.mk.inj h).1
    rfl
  · split at h
    · cases h
    · obtain rfl := Except.ok.inj (Prod.mk.inj h).1
      rfl

/-- A comparison of which nothing has to be kept has confirmed what was not found again. -/
theorem confirmed_of_gone {r₀ : ResolvedReport} (hsaved : savedId id = id)
    (hentry : HasEntry (savedReport r₀) id) {current : DiagnosisReport} {runner : Runner σ}
    {s s' : σ} {result : VerifyResult}
    (h : compare sha256 cat (some (savedReport r₀)) current (some runner) s = (.ok result, s'))
    (hdone : result.keepBaseline = false) (hgone : id ∉ freshIds current) :
    id ∈ confirmedIds result := by
  obtain ⟨item, hitem, rfl⟩ := item_of_entry (read_saveReport r₀) hsaved hentry h
  refine List.mem_map.mpr ⟨item, List.mem_filter.mpr ⟨hitem, ?_⟩, rfl⟩
  have hkeep : ¬ (item.outcome != .resolved
      && !(result.currentReport.diagnoses.map Diagnosis.diagnosisId).contains item.diagnosisId)
      = true :=
    List.any_eq_false.mp hdone item hitem
  by_contra hres
  refine hkeep (Bool.and_eq_true_iff.mpr ⟨?_, ?_⟩)
  · rw [bne, Bool.not_eq_true', Bool.eq_false_iff]
    exact hres
  · rw [currentReport_compare h, Bool.not_eq_true', Bool.eq_false_iff]
    exact fun hc => hgone (List.contains_iff_mem.mp hc)

/-- A step keeps what the baseline remembers, or releases it. -/
theorem step_keeps (hhost : PyStr.strip host ≠ "") (hcat : TypesService cat)
    (hknown : knownDiagnosisId id = true) {r₀ : ResolvedReport} (h₀ : Baseline host replay id r₀)
    {e : Event sha256 cat σ} {file' : StateFile} (h : Step sha256 cat (saveReport r₀) e file')
    (hon : e.run.On host replay) :
    (∃ r, file' = saveReport r ∧ Baseline host replay id r) ∨ Released (saveReport r₀) e id := by
  cases h with
  | diagnose h =>
      rcases saved_keeps hhost hcat hknown h₀ hon h with hkept | hconf | ⟨hgone, fix, hfix, hsettled⟩
      · exact .inl hkept
      · cases hconf
      · exact .inr ⟨hgone, _, fix, load_saveReport r₀ true, hfix, hsettled⟩
  | unwritable => exact .inl ⟨r₀, rfl, h₀⟩
  | @verify _ run result s s' h =>
      have hconfirmed : ∀ r : VerifyResult, id ∈ confirmedIds r →
          Released (saveReport r₀) (.verify run (some r) (!r.keepBaseline)) id := by
        intro r hr
        obtain ⟨item, hitem, hid⟩ := List.mem_map.mp hr
        obtain ⟨hitem, hres⟩ := List.mem_filter.mp hitem
        exact ⟨r, rfl, item, hitem, hid, beq_iff_eq.mp hres⟩
      rw [cmdVerify, load_saveReport] at h
      simp only at h
      split at h
      · cases h
      · rename_i r s₁ hcompare
        split at h
        · obtain ⟨-, rfl⟩ := Prod.mk.inj (Except.ok.inj (Prod.mk.inj h).1)
          exact .inl ⟨r₀, rfl, h₀⟩
        · rename_i hdone
          split at h
          · cases h
          · rename_i file s₂ hsave
            obtain ⟨rfl, rfl⟩ := Prod.mk.inj (Except.ok.inj (Prod.mk.inj h).1)
            rcases saved_keeps hhost hcat hknown h₀ hon hsave with hkept | hconf | ⟨hgone, -⟩
            · exact .inl hkept
            · exact .inr (hconfirmed r hconf)
            · refine .inr (hconfirmed r ?_)
              exact confirmed_of_gone (savedId_of_known hknown) h₀.entry hcompare
                (Bool.eq_false_iff.mpr hdone) hgone

/-- A run that saves writes its own report, with what it carries. -/
theorem step_saves {file file' : StateFile} {e : Event sha256 cat σ}
    (h : Step sha256 cat file e file') (hon : e.run.On host replay) (hsaves : e.Saves) :
    ∃ r, file' = saveReport r ∧ ∃ fixes, r = carrying file e.run.report fixes := by
  cases h with
  | diagnose h =>
      obtain ⟨fixes, -, rfl⟩ := saveBaseline_saves h hon.collected
      exact ⟨_, rfl, fixes, rfl⟩
  | unwritable => exact hsaves.elim
  | @verify _ run result s s' h =>
      rw [cmdVerify] at h
      split at h
      · obtain ⟨rfl, -⟩ := Prod.mk.inj (Except.ok.inj (Prod.mk.inj h).1)
        cases hsaves
      · split at h
        · cases h
        · split at h
          · rename_i r s₁ hcompare hkeep
            obtain ⟨rfl, -⟩ := Prod.mk.inj (Except.ok.inj (Prod.mk.inj h).1)
            have hsaved : (!r.keepBaseline) = true := hsaves
            rw [hkeep] at hsaved
            cases hsaved
          · split at h
            · cases h
            · rename_i hsave
              obtain ⟨rfl, rfl⟩ := Prod.mk.inj (Except.ok.inj (Prod.mk.inj h).1)
              obtain ⟨fixes, -, rfl⟩ := saveBaseline_saves hsave hon.collected
              exact ⟨_, rfl, fixes, rfl⟩

/-- A run that saved its report leaves a file that remembers the fixes it showed. -/
theorem step_shows (hcat : TypesService cat) {file file' : StateFile} {e : Event sha256 cat σ}
    (h : Step sha256 cat file e file') (hon : e.run.On host replay) (hsaves : e.Saves)
    (hshows : e.run.Shows id) : ∃ r, file' = saveReport r ∧ Baseline host replay id r := by
  obtain ⟨r, hfile, hr⟩ := step_saves h hon hsaves
  obtain ⟨fixes, rfl⟩ := hr
  exact ⟨_, hfile, saved_shown hcat hon hshows file fixes⟩

end Steps

/-! ## Runs -/

/-- On a host with a name, every file a run writes is undamaged; and
once a run that saved its report has shown a fix, every later file
remembers it until a step releases it. -/
theorem shown_fix_kept (sha256 : String → String) (cat : List Entry) (hcat : TypesService cat)
    (host : String) (hhost : PyStr.strip host ≠ "") (replay : Bool) :
    (∀ (file file' : StateFile) (e : Event sha256 cat σ), Step sha256 cat file e file' →
        e.run.On host replay → e.Saves →
        ∃ p, loadPreviousReport file' true = .ok (some p) ∧ p.baselineDamage = none)
      ∧ ∀ (id : String) (file₀ file₁ file₂ : StateFile) (e : Event sha256 cat σ)
          (es : List (Event sha256 cat σ)), Step sha256 cat file₀ e file₁ → e.run.On host replay →
          e.Saves → e.run.Shows id →
          Journal.Emits (fun file e file' => Step sha256 cat file e file' ∧ e.run.On host replay
            ∧ ¬ Released file e id) file₁ es file₂ →
          Remembers file₂ id := by
  refine ⟨fun file file' e hstep hon hsaves => ?_, ?_⟩
  · obtain ⟨r, rfl, fixes, rfl⟩ := step_saves hstep hon hsaves
    refine ⟨_, load_saveReport _ true, undamaged_saved ?_⟩
    show PyStr.strip e.run.report.hostname ≠ ""
    rw [hostname_run hon]
    exact hhost
  · intro id file₀ file₁ file₂ e es hfirst hon hsaves hshows hrun
    have hknown := (shown_record hcat hshows).1
    have hkeep : ∃ r, file₂ = saveReport r ∧ Baseline host replay id r := by
      refine Journal.Emits.inv (I := fun file => ∃ r, file = saveReport r
        ∧ Baseline host replay id r) (fun file e file' hfile hstep => ?_) hrun
        (step_shows hcat hfirst hon hsaves hshows)
      obtain ⟨r, rfl, hr⟩ := hfile
      obtain ⟨hstep, hon, hnot⟩ := hstep
      exact (step_keeps hhost hcat hknown hr hstep hon).resolve_right hnot
    obtain ⟨r, rfl, hr⟩ := hkeep
    exact remembers_of_baseline hhost hr

/-! ## A host whose services stop -/

/-- A digest of texts that are compared with themselves. -/
def digest (_ : String) : String := ""

/-- The run of a host whose checks have no state: every diagnosis is resolved. -/
def Run.ofHost (cat : List Entry) (b : EvidenceBundle) (runner : Runner Unit) :
    Run digest cat Unit where
  now := ""
  bundle := b
  packs := []
  runner := runner
  catalogueError := none
  found := (runDiagnosis "" b []).diagnoses.filterMap fun d =>
    match resolveDiagnosis digest cat d b.environment runner () with
    | .ok (some r, _) => some (d, r)
    | _ => none
  emitted := by simp
  resolved := by
    intro x hx
    obtain ⟨d, hd, hsome⟩ := List.mem_filterMap.mp hx
    split at hsome
    · rename_i r s hres
      obtain rfl := Option.some.inj hsome
      exact ⟨hd, .inl ⟨(), s, hres⟩⟩
    · cases hsome

/-- A host on which some services do not run. -/
def hostWith (hostname : String) (stopped : List String) : EvidenceBundle :=
  { hostname := hostname
    findings := stopped.map fun service =>
      { findingId := service
        source := "ipahealthcheck.meta.services"
        check := service
        severity := .error
        message := service ++ ": not running"
        keywords := []
        raw := [] }
    items := []
    collectionErrors := []
    environment := some
      { distro := some "fedora", distroVersion := some "43", pythonVersion := none
        freeipaVersion := some "4.13.3", ipaHealthcheckVersion := none
        directoryServerVersion := none, detectedLive := true }
    replaySource := none
    serviceStates := []
    sideEffects := [] }

/-- Asked for a unit, systemd says that it failed. -/
def unitsFailed : Runner Unit where
  run := fun _ check params =>
    let unit := (field params "service").toStr ++ ".service"
    (.ok { checkId := check, params := params, status := OK
           fields := [("is_root", .bool true), ("unit", .str unit), ("load_state", .str "loaded"),
             ("active_state", .str "failed"), ("start_method", .str "ipactl"),
             ("unit_file_state", .str "disabled")] }, ())
  replay := false

/-- A run on the host `a.example.test`, with some services stopped. -/
def runWith (stopped : List String) :
    Run digest Resolver.StartService.catalogue Unit :=
  Run.ofHost Resolver.StartService.catalogue (hostWith "a.example.test" stopped) unitsFailed

theorem runWith_on (stopped : List String) : (runWith stopped).On "a.example.test" false where
  hostname := rfl
  mode := rfl
  collected := rfl

theorem pair_of_fst {α : Type} {x : α × Unit} {a : α} (h : x.1 = a) : x = (a, ()) :=
  Prod.ext h (Subsingleton.elim _ _)

/-- Saving the report of a plain run. -/
def saving (file : StateFile) (stopped : List String) : Except E StateFile × Unit :=
  saveBaseline digest Resolver.StartService.catalogue file (runWith stopped).report []
    unitsFailed ()

/-- The file after a plain run. -/
def fileAfter (file : StateFile) (stopped : List String) : StateFile :=
  match (saving file stopped).1 with
  | .ok file => file
  | .error _ => .unreadable

theorem step_fileAfter {file : StateFile} {stopped : List String}
    (h : Result.returns (fun _ => true) (saving file stopped).1 = true) :
    Step digest Resolver.StartService.catalogue file (.diagnose (runWith stopped))
      (fileAfter file stopped) := by
  obtain ⟨file', hsave, -⟩ := Result.returns_iff.mp h
  rw [fileAfter, hsave]
  exact .diagnose (pair_of_fst hsave)

theorem not_settled {cat : List Entry} {runner : Runner Unit} {fix : Dict}
    (h : Result.returns (fun unfixed => unfixed)
      (stillUnfixed sha256 cat fix runner ()).1 = true) : ¬ Settled sha256 cat runner fix := by
  rintro ⟨s₁, ⟨criteria, problem, why⟩, s₂, hrebuild, hcase⟩
  obtain ⟨unfixed, hunfixed, hyes⟩ := Result.returns_iff.mp h
  have hunit : () = s₁ := rfl
  rw [stillUnfixed, hunit, hrebuild] at hunfixed
  rcases hcase with rfl | hproblem | ⟨cs, results, s₃, rfl, heval, hall⟩
  · rw [← Except.ok.inj hunfixed] at hyes
    cases hyes
  · rcases problem with _ | problem
    · exact hproblem rfl
    · rcases criteria with _ | criteria
      · rw [← Except.ok.inj hunfixed] at hyes
        cases hyes
      · rw [← Except.ok.inj hunfixed] at hyes
        cases hyes
  · rcases problem with _ | problem
    · simp only [heval] at hunfixed
      rw [← Except.ok.inj hunfixed] at hyes
      obtain ⟨v, hv, hbad⟩ := List.any_eq_true.mp hyes
      rw [hall v hv] at hbad
      cases hbad
    · rw [← Except.ok.inj hunfixed] at hyes
      cases hyes

/-- The fix for the web server that a run showed. -/
def HTTPD : String := "healthcheck.service-not-running-httpd"

/-- The checks of every fix in the file still fail. -/
def allFail (file : StateFile) : Bool :=
  match loadPreviousReport file true with
  | .ok (some p) => p.baselineFixes.all fun x =>
      Result.returns (fun unfixed => unfixed)
        (stillUnfixed digest Resolver.StartService.catalogue x.2 unitsFailed ()).1
  | _ => false

theorem not_released {file : StateFile} (h : allFail file = true)
    (stopped : List String) (id : String) :
    ¬ Released file (.diagnose (runWith stopped)) id := by
  rintro ⟨-, p, fix, hload, hfix, hsettled⟩
  rw [allFail, hload] at h
  exact not_settled (List.all_eq_true.mp h (id, fix) hfix) hsettled

theorem types_startService : TypesService Resolver.StartService.catalogue := by
  intro p h
  have hselected : some (Entry.procedure (Resolver.StartService.procedure .null))
      = some (.procedure p) := Resolver.StartService.selected_catalogue.symm.trans h
  obtain rfl := Entry.procedure.inj (Option.some.inj hselected)
  exact Resolver.StartService.types_service .null

/-- The web server is stopped and its fix is shown; its checks still fail
after that run. -/
theorem httpd_stopped : (shownNow (runWith ["httpd"]).report).contains HTTPD = true
    ∧ allFail (fileAfter .absent ["httpd"]) = true := by
  decide +kernel

theorem shows_httpd : (runWith ["httpd"]).Shows HTTPD :=
  List.contains_iff_mem.mp httpd_stopped.1

/-- A plain run of the host, and the file it leaves. -/
abbrev plain (stopped : List String) : Event digest Resolver.StartService.catalogue Unit :=
  .diagnose (runWith stopped)

theorem plain_on (stopped : List String) : (plain stopped).run.On "a.example.test" false :=
  runWith_on stopped

theorem fails_httpd : allFail (fileAfter .absent ["httpd"]) = true := httpd_stopped.2

/-- The next run does not find it, but its unit still failed. -/
theorem restart_remembered :
    Remembers (fileAfter (fileAfter .absent ["httpd"]) []) HTTPD := by
  have hfirst : Step digest Resolver.StartService.catalogue .absent (plain ["httpd"])
      (fileAfter .absent ["httpd"]) := step_fileAfter (by decide +kernel)
  have hnext : Step digest Resolver.StartService.catalogue (fileAfter .absent ["httpd"])
      (plain []) (fileAfter (fileAfter .absent ["httpd"]) []) :=
    step_fileAfter (by decide +kernel)
  have hkept : ¬ Released (fileAfter .absent ["httpd"]) (plain []) HTTPD :=
    not_released fails_httpd [] HTTPD
  have hsaves : (plain ["httpd"]).Saves := trivial
  have hshows : (plain ["httpd"]).run.Shows HTTPD := shows_httpd
  obtain ⟨-, hrun⟩ := shown_fix_kept (σ := Unit) digest Resolver.StartService.catalogue
    types_startService "a.example.test" (by decide) false
  have hlater : Journal.Emits (fun file e file' =>
      Step digest Resolver.StartService.catalogue file e file'
        ∧ e.run.On "a.example.test" false ∧ ¬ Released file e HTTPD)
      (fileAfter .absent ["httpd"]) [plain []] (fileAfter (fileAfter .absent ["httpd"]) []) :=
    .one ⟨hnext, plain_on [], hkept⟩
  exact hrun HTTPD .absent (fileAfter .absent ["httpd"]) _ (plain ["httpd"]) [plain []] hfirst
    (plain_on ["httpd"]) hsaves hshows hlater

/-! ## Fixes that no file remembers -/

/-- The file after a first run that found the KDC stopped. -/
def kdcFile : StateFile := fileAfter .absent ["krb5kdc"]

/-- `verify` finds the web server stopped instead. -/
def verifying : Except E (Option VerifyResult × StateFile) × Unit :=
  cmdVerify digest Resolver.StartService.catalogue kdcFile (runWith ["httpd"]).report unitsFailed ()

/-- The fix for the KDC is not confirmed, so `verify` keeps the file; the
checks of the fix that was shown still fail, and the file of the next run
does not have it. -/
theorem kdc_run :
    Result.returns (fun out => out.1.any VerifyResult.keepBaseline) verifying.1 = true
      ∧ allFail kdcFile = true
      ∧ Result.returns (fun file => match loadPreviousReport file true with
          | .ok (some p) => !(Assoc.keys p.baselineFixes).contains HTTPD
          | _ => false) (saving kdcFile []).1 = true
      ∧ ((fixesToSave (runWith ["httpd"]).report).all fun fix =>
          Result.returns (fun unfixed => unfixed)
            (stillUnfixed digest Resolver.StartService.catalogue fix unitsFailed ()).1) = true := by
  decide +kernel

theorem file_of_keep {file file' : StateFile} {r : ResolvedReport} {runner : Runner σ} {s s' : σ}
    {result : VerifyResult}
    (h : cmdVerify sha256 cat file r runner s = (.ok (some result, file'), s'))
    (hkeep : result.keepBaseline = true) : file' = file := by
  unfold cmdVerify at h
  split at h
  · cases (Prod.mk.inj (Except.ok.inj (Prod.mk.inj h).1)).1
  · split at h
    · cases h
    · split at h
      · exact (Prod.mk.inj (Except.ok.inj (Prod.mk.inj h).1)).2.symm
      · rename_i hdone
        split at h
        · cases h
        · obtain ⟨hr, -⟩ := Prod.mk.inj (Except.ok.inj (Prod.mk.inj h).1)
          obtain rfl := Option.some.inj hr
          exact absurd hkeep hdone

/-- Shown by a `verify` that keeps the old baseline, a fix is not in the
file of the next run; and the file of a host without a name is damaged. -/
theorem shown_not_kept :
    (¬ ∀ (file₀ file₁ file₂ : StateFile)
        (e₁ e₂ : Event digest Resolver.StartService.catalogue Unit),
        Step digest Resolver.StartService.catalogue file₀ e₁ file₁ →
        Step digest Resolver.StartService.catalogue file₁ e₂ file₂ →
        e₁.run.On "a.example.test" false → e₂.run.On "a.example.test" false → e₂.Saves →
        e₁.run.Shows HTTPD → ¬ Released file₁ e₂ HTTPD →
        (∀ fix ∈ fixesToSave e₁.run.report,
          ¬ Settled digest Resolver.StartService.catalogue e₂.run.runner fix) →
        Remembers file₂ HTTPD)
      ∧ ¬ ∀ b : EvidenceBundle,
        (savedReport (withoutFixes (runDiagnosis "" b []))).baselineDamage = none := by
  constructor
  · intro h
    obtain ⟨⟨result, file⟩, hverify, hkeep⟩ := Result.returns_iff.mp kdc_run.1
    obtain ⟨r, rfl⟩ : ∃ r, result = some r := by
      rcases result with _ | r
      · cases hkeep
      · exact ⟨r, rfl⟩
    have hrun : cmdVerify digest Resolver.StartService.catalogue kdcFile (runWith ["httpd"]).report
        unitsFailed () = (.ok (some r, file), ()) := pair_of_fst hverify
    obtain rfl : file = kdcFile := file_of_keep hrun hkeep
    obtain ⟨after, hsave, hnone⟩ := Result.returns_iff.mp kdc_run.2.2.1
    have hshown : Step digest Resolver.StartService.catalogue kdcFile
        (.verify (runWith ["httpd"]) (some r) _) kdcFile := .verify hrun
    have hnext : Step digest Resolver.StartService.catalogue kdcFile (plain []) after :=
      .diagnose (pair_of_fst hsave)
    have hfails : ∀ fix ∈ fixesToSave (runWith ["httpd"]).report,
        ¬ Settled digest Resolver.StartService.catalogue unitsFailed fix :=
      fun fix hfix => not_settled (List.all_eq_true.mp kdc_run.2.2.2 fix hfix)
    have hkept : ¬ Released kdcFile (plain []) HTTPD := not_released kdc_run.2.1 [] HTTPD
    have hsaves : (plain []).Saves := trivial
    have hlost := h kdcFile kdcFile after _ (plain []) hshown hnext (runWith_on ["httpd"])
      (plain_on []) hsaves shows_httpd hkept hfails
    obtain ⟨p, hload, -, hrecord, -⟩ := hlost
    rw [hload] at hnone
    have hnone : (!(Assoc.keys p.baselineFixes).contains HTTPD) = true := hnone
    rw [List.contains_iff_mem.mpr hrecord] at hnone
    cases hnone
  · intro h
    exact absurd (h (hostWith "" [])) (by decide +kernel)

end IpaDiagnose.Verify
