import IpaDiagnose.Engine.Causality
import IpaDiagnose.Sanitized
import IpaDiagnose.Verify.Saved

/-!
# Which diagnoses `verify` recognises

A diagnosis that is gone can only be called resolved if its id is one
this version produces, and if the id survived the state file. The ids
of the rules and of the safety net do. The id of a stopped service ends
in the name the health check reported, and there the two patterns
differ: the message may name a service of any length, and a letter in it
may be one of the four outside ASCII that a case-insensitive match
accepts; a known name has at most 81 characters, all ASCII.
-/

namespace IpaDiagnose.Verify

open Py (Value Dict)
open Regex (Re)
open Resolver (field)

/-! ## Through the state file -/

@[simp] theorem dictsOf_map_dict (ds : List Dict) : dictsOf (ds.map Value.dict) = ds := by
  induction ds with
  | nil => rfl
  | cons d ds ih =>
      rw [List.map_cons]
      show d :: dictsOf (ds.map Value.dict) = d :: ds
      rw [ih]

/-- A diagnosis as it is read back. -/
def savedDiagnosis (d : Diagnosis) : SavedDiagnosis :=
  { diagnosisId := savedId d.diagnosisId
    title := sanitizeText d.title ID_LIMIT
    packId := d.packId
    priority := bucketValue d.priority
    status := statusValue d.status }

theorem readDiagnosis_toDict (d : Diagnosis) :
    readDiagnosis (diagnosisToDict d) = some (savedDiagnosis d) := rfl

/-- A report as it is read back. -/
def savedReport (r : ResolvedReport) : SavedReport :=
  { generatedAt := r.generatedAt
    hostname := .str r.hostname
    replaySource := optStr r.replaySource
    schemaVersion := .int 2
    v2 := some (.dict (v2ToDict r))
    diagnoses := r.diagnoses.map savedDiagnosis }

/-- Every file the tool writes is a report it can read. -/
theorem load_saveReport (r : ResolvedReport) (strict : Bool) :
    loadPreviousReport (saveReport r) strict = .ok (some (savedReport r)) := by
  have hread : (dictsOf ((r.diagnoses.map diagnosisToDict).map Value.dict)).filterMap readDiagnosis
      = r.diagnoses.map savedDiagnosis := by
    rw [dictsOf_map_dict, List.filterMap_map, ← List.filterMap_eq_map]
    exact List.filterMap_congr fun d _ => readDiagnosis_toDict d
  show Except.ok (some (SavedReport.mk _ _ _ _ _ _)) = _
  exact congrArg (fun ds => Except.ok (some (SavedReport.mk r.generatedAt (.str r.hostname)
    (optStr r.replaySource) (.int 2) (some (.dict (v2ToDict r))) ds))) hread

/-- `verify` knows every diagnosis of the report, and finds it under its
own id in the saved one. -/
structure Recognised (r : ResolvedReport) : Prop where
  known : ∀ d ∈ r.diagnoses, knownDiagnosisId d.diagnosisId = true
  kept : ∀ strict, ∃ p, loadPreviousReport (saveReport r) strict = .ok (some p)
    ∧ p.diagnoses.map SavedDiagnosis.diagnosisId = r.diagnoses.map Diagnosis.diagnosisId

/-! ## Known ids -/

/-- A service name that `verify` accepts, of those the message pattern does. -/
def PlainService (s : String) : Prop := PyStr.len s ≤ 81 ∧ ∀ c ∈ s.toList, c.toNat < 128

instance (s : String) : Decidable (PlainService s) := inferInstanceAs (Decidable (_ ∧ _))

theorem serviceStart_ascii {c : Char} (h : c.toNat < 128) :
    serviceStart c = (Unicode.isAsciiAlnum c || "_".toList.contains c) := by
  have hword : asciiWordI c = Unicode.isAsciiAlnum c := by
    have h1 : (c.toNat == 0x130) = false := beq_eq_false_iff_ne.mpr (by omega)
    have h2 : (c.toNat == 0x131) = false := beq_eq_false_iff_ne.mpr (by omega)
    have h3 : (c.toNat == 0x17f) = false := beq_eq_false_iff_ne.mpr (by omega)
    have h4 : (c.toNat == 0x212a) = false := beq_eq_false_iff_ne.mpr (by omega)
    rw [asciiWordI, h1, h2, h3, h4]
    simp
  rw [serviceStart, hword]
  simp [Bool.beq_eq_decide_eq]

theorem serviceChar_ascii {c : Char} (h : c.toNat < 128) :
    serviceChar c = (Unicode.isAsciiAlnum c || "_.@-".toList.contains c) := by
  rw [serviceChar, serviceStart_ascii h]
  simp [Bool.or_assoc]

/-- The characters of a known name are ASCII with a glyph. -/
theorem graphic_of_name {c : Char} {s : String} (hs : ∀ x ∈ s.toList, graphic x = true)
    (h : (Unicode.isAsciiAlnum c || s.toList.contains c) = true) : graphic c = true := by
  rcases Bool.or_eq_true_iff.mp h with h | h
  · simp only [Unicode.isAsciiAlnum, Bool.or_eq_true, Bool.and_eq_true, decide_eq_true_eq] at h
    simp only [graphic, Bool.and_eq_true, decide_eq_true_eq]
    omega
  · exact hs c (List.contains_iff_mem.mp h)

theorem graphic_name {s : String} (h : SERVICE_NAME_RE.fullmatch s = true) :
    (∀ c ∈ s.toList, graphic c = true) ∧ s.toList.length ≤ 81 := by
  obtain ⟨x, w, hs, hx, hw, hlen⟩ := Re.fullmatch_word.mp h
  rw [hs]
  refine ⟨fun c hc => ?_, by rw [List.length_cons]; omega⟩
  rcases List.mem_cons.mp hc with rfl | hc
  · exact graphic_of_name (by decide) hx
  · exact graphic_of_name (by decide) (hw c hc)

/-- Of the names the message pattern accepts, the plain ones are known. -/
theorem fullmatch_iff_plain {s : String} {x : Char} {w : List Char} (hs : s.toList = x :: w)
    (hx : serviceStart x = true) (hw : ∀ c ∈ w, serviceChar c = true) :
    SERVICE_NAME_RE.fullmatch s = true ↔ PlainService s := by
  constructor
  · intro h
    obtain ⟨hgraphic, hlen⟩ := graphic_name h
    refine ⟨hlen, fun c hc => ?_⟩
    have hc := of_decide_eq_true (Bool.and_eq_true_iff.mp (hgraphic c hc)).2
    omega
  · rintro ⟨hlen, hascii⟩
    rw [hs] at hascii
    rw [PyStr.len, hs, List.length_cons] at hlen
    refine Re.fullmatch_word.mpr ⟨x, w, hs, ?_, fun c hc => ?_, by omega⟩
    · rw [← serviceStart_ascii (hascii x List.mem_cons_self)]
      exact hx
    · rw [← serviceChar_ascii (hascii c (List.mem_cons_of_mem _ hc))]
      exact hw c hc

theorem rule_ids_apart : ∀ id ∈ ruleIds, PyStr.startsWith id (serviceId "") = false := by
  decide +kernel

theorem serviceId_split (s : String) : serviceId s = serviceId "" ++ s := by
  simp [serviceId]

theorem known_serviceId {s : String} :
    knownDiagnosisId (serviceId s) = true ↔ SERVICE_NAME_RE.fullmatch s = true := by
  have hstart : PyStr.startsWith (serviceId s) (serviceId "") = true := by
    rw [serviceId_split s]
    exact PyStr.startsWith_append _ _
  have hnot : ruleIds.contains (serviceId s) = false := by
    rw [Bool.eq_false_iff]
    intro h
    have := rule_ids_apart _ (List.contains_iff_mem.mp h)
    rw [hstart] at this
    cases this
  have hdrop : PyStr.drop (serviceId s) (serviceId "").toList.length = s := by
    rw [serviceId_split s]
    exact PyStr.drop_append _ _
  rw [knownDiagnosisId, hnot, hstart, hdrop]
  simp

theorem ruleIds_plain : ∀ id ∈ ruleIds,
    (∀ c ∈ id.toList, graphic c = true) ∧ id.toList.length ≤ ID_LIMIT := by
  decide +kernel

/-- A known id is short and plain: the state file does not change it. -/
theorem savedId_of_known {id : String} (h : knownDiagnosisId id = true) : savedId id = id := by
  rcases Bool.or_eq_true_iff.mp h with h | h
  · obtain ⟨hgraphic, hlen⟩ := ruleIds_plain id (List.contains_iff_mem.mp h)
    exact sanitizeText_of_graphic hgraphic hlen (by decide)
  · obtain ⟨hstart, hname⟩ := Bool.and_eq_true_iff.mp h
    obtain ⟨s, rfl⟩ := PyStr.startsWith_iff.mp hstart
    rw [PyStr.drop_append] at hname
    obtain ⟨hgraphic, hlen⟩ := graphic_name hname
    have hpre : (∀ c ∈ (serviceId "").toList, graphic c = true)
        ∧ (serviceId "").toList.length = 32 := by decide
    refine sanitizeText_of_graphic (fun c hc => ?_) ?_ (by decide)
    · rw [String.toList_append] at hc
      rcases List.mem_append.mp hc with hc | hc
      · exact hpre.1 c hc
      · exact hgraphic c hc
    · rw [String.toList_append, List.length_append, hpre.2, ID_LIMIT]
      omega

/-- Knowing the ids is all: known ids are kept. -/
theorem recognised_iff_known {r : ResolvedReport} :
    Recognised r ↔ ∀ d ∈ r.diagnoses, knownDiagnosisId d.diagnosisId = true := by
  refine ⟨Recognised.known, fun h => ⟨h, fun strict => ⟨savedReport r, load_saveReport r strict, ?_⟩⟩⟩
  show (r.diagnoses.map savedDiagnosis).map SavedDiagnosis.diagnosisId = _
  rw [List.map_map]
  exact List.map_congr_left fun d hd => savedId_of_known (h d hd)

/-! ## The ids of a report -/

theorem mem_report_ids {now : String} {b : EvidenceBundle} {ds : List Diagnosis}
    {names : List String} {id : String} :
    (∃ d ∈ (buildReport now b ds names).diagnoses, d.diagnosisId = id)
      ↔ id ∈ ds.map Diagnosis.diagnosisId := by
  rw [← prepared_ids b ds, List.mem_map]
  constructor
  · rintro ⟨d, hd, rfl⟩
    obtain ⟨p, hp, rfl⟩ := mem_report.mp hd
    exact ⟨p.1, fst_mem_of_mem_zipIdx hp, (bucketed_id p).symm⟩
  · rintro ⟨d, hd, rfl⟩
    obtain ⟨i, hi, hget⟩ := List.getElem_of_mem hd
    have hmem : (d, i) ∈ (prepared b ds).zipIdx := by
      rw [List.mem_zipIdx_iff_getElem?]
      rw [List.getElem?_eq_getElem hi, hget]
    exact ⟨_, mem_report.mpr ⟨(d, i), hmem, rfl⟩, bucketed_id (d, i)⟩

/-- The services the safety net reports are those of the unclaimed findings. -/
theorem mem_net_services {b : EvidenceBundle} {ds : List Diagnosis} {s : String} :
    s ∈ (net b ds).services.map (·.2)
      ↔ ∃ f ∈ unclaimed b ds, isCheckCrash f = false ∧ stoppedService? f = some s := by
  have step : ∀ (fs : List Finding) (n : Net), s ∈ (fs.foldl Net.add n).services.map (·.2)
      ↔ s ∈ n.services.map (·.2)
        ∨ ∃ f ∈ fs, isCheckCrash f = false ∧ stoppedService? f = some s := by
    intro fs
    induction fs with
    | nil => simp
    | cons f fs ih =>
        intro n
        rw [List.foldl_cons, ih, List.exists_mem_cons_iff, ← or_assoc]
        refine or_congr_left ?_
        rcases hc : isCheckCrash f with _ | _
        · rcases hs : stoppedService? f with _ | t
          · rw [Net.add_other n hc hs]
            simp
          · by_cases hm : t ∈ n.services.map (·.2)
            · rw [Net.add_seen n hc hs hm]
              simp only [Option.some.injEq, true_and]
              exact ⟨.inl, fun h => h.elim id fun h => h ▸ hm⟩
            · rw [Net.add_service n hc hs hm, List.map_append, List.mem_append]
              simp only [List.map_cons, List.map_nil, List.mem_singleton, Option.some.injEq,
                true_and, eq_comm]
        · rw [Net.add_crashed n hc]
          simp
  rw [net, step]
  simp

/-- What the pattern for the message of a stopped service captures. -/
theorem stoppedService_word {f : Finding} {s : String} (h : stoppedService? f = some s) :
    ∃ x w, s.toList = x :: w ∧ serviceStart x = true ∧ ∀ c ∈ w, serviceChar c = true := by
  unfold stoppedService? at h
  split at h
  · obtain ⟨m, hm, hg⟩ := Option.bind_eq_some_iff.mp h
    obtain ⟨c', hhead, rfl⟩ := Option.map_eq_some_iff.mp hm
    obtain ⟨c₁, h₁, hrest⟩ := Re.mem_seq.mp (List.mem_of_mem_head? hhead)
    obtain ⟨c₂, h₂, hrest⟩ := Re.mem_seq.mp hrest
    have hnone : c₂.caps = [] := by
      rw [Re.run_caps (by rfl) _ _ h₂, Re.run_caps (by rfl) _ _ h₁]
      rfl
    obtain ⟨x, w, hcaps, hx, hw⟩ := Re.captured_word (by rfl) hnone hrest
    rw [Regex.Match.group?_of_caps hcaps] at hg
    obtain rfl := Option.some.inj hg
    exact ⟨x, w, String.toList_ofList, hx, hw⟩
  · cases h

/-- The ids of the packs are known. -/
theorem known_of_packEmits {d : Diagnosis} (h : PackEmits d) :
    knownDiagnosisId d.diagnosisId = true := by
  obtain ⟨p, hp, r, hr, -, -, hid, -⟩ := h
  have hmem : d.diagnosisId ∈ ruleIds := by
    rw [hid]
    exact List.mem_append_left _ (List.mem_flatMap.mpr ⟨p, hp, List.mem_map.mpr ⟨r, hr, rfl⟩⟩)
  rw [knownDiagnosisId, List.contains_iff_mem.mpr hmem, Bool.true_or]

/-- The ids of the safety net are known, up to the names of the services. -/
theorem unexplained_known_iff {b : EvidenceBundle} {ds : List Diagnosis} :
    (∀ id ∈ (unexplainedFindingDiagnoses b ds).map Diagnosis.diagnosisId,
        knownDiagnosisId id = true)
      ↔ ∀ f ∈ unclaimed b ds, isCheckCrash f = false → ∀ s ∈ stoppedService? f,
          PlainService s := by
  have hservice : ∀ f s, stoppedService? f = some s →
      (knownDiagnosisId (serviceId s) = true ↔ PlainService s) := by
    intro f s hs
    obtain ⟨x, w, hw, hx, hall⟩ := stoppedService_word hs
    rw [known_serviceId, fullmatch_iff_plain hw hx hall]
  rw [unexplained_ids]
  constructor
  · intro h f hf hc s hs
    refine (hservice f s hs).mp (h _ (List.mem_append_left _ (List.mem_append_left _ ?_)))
    exact List.mem_map_of_mem (mem_net_services.mpr ⟨f, hf, hc, hs⟩)
  · intro h id hid
    rcases List.mem_append.mp hid with hid | hid
    · rcases List.mem_append.mp hid with hid | hid
      · obtain ⟨s, hs, rfl⟩ := List.mem_map.mp hid
        obtain ⟨f, hf, hc, hfs⟩ := mem_net_services.mp hs
        exact (hservice f s hfs).mpr (h f hf hc s hfs)
      · rw [eq_of_mem_grouped hid]
        decide
    · rw [eq_of_mem_grouped hid]
      decide

/-- What the packs report is known; the rest is the safety net's. -/
theorem recognised_iff_net {now : String} {b : EvidenceBundle} {packs : List Diagnosis}
    (hpacks : ∀ d ∈ packs, PackEmits d) {r : ResolvedReport}
    (hr : r.toDiagnosisReport = runDiagnosis now b packs) :
    Recognised r ↔ ∀ id ∈ (unexplainedFindingDiagnoses b packs).map Diagnosis.diagnosisId,
      knownDiagnosisId id = true := by
  rw [recognised_iff_known, hr]
  constructor
  · intro h id hid
    have hmem : id ∈ (packs ++ unexplainedFindingDiagnoses b packs).map Diagnosis.diagnosisId := by
      rw [List.map_append]
      exact List.mem_append_right _ hid
    obtain ⟨d, hd, rfl⟩ := mem_report_ids.mpr hmem
    exact h d hd
  · intro h d hd
    have hmem := mem_report_ids.mp ⟨d, hd, rfl⟩
    rw [List.map_append] at hmem
    rcases List.mem_append.mp hmem with hid | hid
    · obtain ⟨e, he, heq⟩ := List.mem_map.mp hid
      rw [← heq]
      exact known_of_packEmits (hpacks e he)
    · exact h _ hid

/-- `verify` recognises every diagnosis of a run exactly if the stopped
services it reports have plain names. -/
theorem recognised_iff (now : String) (b : EvidenceBundle) (packs : List Diagnosis)
    (hpacks : ∀ d ∈ packs, PackEmits d) (r : ResolvedReport)
    (hr : r.toDiagnosisReport = runDiagnosis now b packs) :
    Recognised r ↔ ∀ f ∈ unclaimed b packs, isCheckCrash f = false →
      ∀ s ∈ stoppedService? f, PlainService s :=
  (recognised_iff_net hpacks hr).trans unexplained_known_iff

/-- A report without fixes. -/
def withoutFixes (r : DiagnosisReport) : ResolvedReport := { toDiagnosisReport := r }

theorem withoutFixes_report (r : DiagnosisReport) : (withoutFixes r).toDiagnosisReport = r := rfl

/-- The two stopped services of a host are recognised. -/
theorem recognised_stoppedHost : Recognised (withoutFixes (runDiagnosis "" stoppedHost [])) := by
  have hplain : ∀ f ∈ unclaimed stoppedHost [], isCheckCrash f = false →
      ∀ s ∈ stoppedService? f, PlainService s := by
    decide +kernel
  exact (recognised_iff "" stoppedHost [] (by simp) _ (withoutFixes_report _)).mpr hplain

/-- A host where a service with a name of 82 characters is stopped. -/
def longNamedHost : EvidenceBundle :=
  { stoppedHost with
    findings :=
      [{ findingId := "f1"
         source := "ipahealthcheck.meta.services"
         check := "longname"
         severity := .error
         message := String.ofList (List.replicate 82 'a') ++ ": not running"
         keywords := []
         raw := [] }] }

/-- The diagnosis of that service is in the report, and unknown to `verify`. -/
theorem longNamedHost_unrecognised :
    ¬ ∀ (b : EvidenceBundle) (packs : List Diagnosis), (∀ d ∈ packs, PackEmits d) →
      ∀ r : ResolvedReport, r.toDiagnosisReport = runDiagnosis "" b packs → Recognised r := by
  intro h
  have hknown := h longNamedHost [] (by simp) _ (withoutFixes_report _)
  have hplain := unexplained_known_iff.mp
    ((recognised_iff_net (by simp) (withoutFixes_report _)).mp hknown)
  have hlong : ¬ ∀ f ∈ unclaimed longNamedHost [], isCheckCrash f = false →
      ∀ s ∈ stoppedService? f, PlainService s := by
    decide +kernel
  exact hlong hplain

end IpaDiagnose.Verify
