import IpaDiagnose.Engine.Coverage
import IpaDiagnose.Lib.Ranked

/-!
# Correlation is well founded

Every diagnosis the packs and the safety net can emit has a tier, read
off its id: the Directory Server's diagnoses first, then its service,
the services that need it, DNS, Kerberos, replication, the
certificates, and last the safety net. A cause always has a lower tier
than what it demotes (`tier_lt_of_mem_causesOf`): by pack, because no
rule names a pack above its own tier, and by id, because no row of the
table does. So following causes ends, at a diagnosis nothing demotes.
-/

namespace IpaDiagnose

open Ranked Relation

/-! ## What can be emitted -/

/-- A registered pack can return this: the ids and the causes of one of
its rules, everything else open. -/
def PackEmits (d : Diagnosis) : Prop :=
  ∃ p ∈ allPacks, ∃ r ∈ p.rules, d.packId = p.packId ∧ d.ruleId = r.ruleId
    ∧ d.diagnosisId = p.packId ++ "." ++ r.ruleId ∧ d.upstreamCandidates ∈ r.upstreams

inductive Emittable (d : Diagnosis) : Prop where
  | pack (h : PackEmits d)
  | fallback {b : EvidenceBundle} {ds : List Diagnosis} (h : d ∈ unexplainedFindingDiagnoses b ds)

/-- The diagnoses of one run: each can be emitted, and no rule and no
service has two. -/
structure Emitted (ds : List Diagnosis) : Prop where
  emittable : ∀ d ∈ ds, Emittable d
  distinct : (ds.map Diagnosis.diagnosisId).Nodup

/-! ## Tiers -/

def PACK_TIERS : List (String × Nat) :=
  [("directory-server", 0), ("dns", 3), ("kerberos", 5), ("replication", 6), ("certificates", 7)]

def tier (id : String) : Nat :=
  if PyStr.startsWith id (serviceId "dirsrv") then 1
  else if PyStr.startsWith id (serviceId "") then 2
  else if id = "dns.srv-autodiscovery" then 4
  else (PACK_TIERS.lookup (PyStr.before id '.')).getD 8

/-- The highest tier of a diagnosis that stands for a pack. -/
def packTier (pack : String) : Nat :=
  ([("directory-server", 1), ("dns", 4), ("kerberos", 5), ("replication", 6),
    ("certificates", 7)].lookup pack).getD 8

/-- A diagnosis is no higher than what it stands for, and higher than
every pack it names. -/
structure Tiered (d : Diagnosis) : Prop where
  below : tier d.diagnosisId ≤ packTier (effectivePack d)
  above : ∀ up ∈ d.upstreamCandidates, packTier up < tier d.diagnosisId

theorem packs_tiered : ∀ p ∈ allPacks, ∀ r ∈ p.rules,
    p.packId ≠ PACK_ID ∧ tier (p.packId ++ "." ++ r.ruleId) ≤ packTier p.packId
      ∧ ∀ ups ∈ r.upstreams, ∀ up ∈ ups, packTier up < tier (p.packId ++ "." ++ r.ruleId) := by
  decide +kernel

theorem Tiered.of_pack {d : Diagnosis} (h : PackEmits d) : Tiered d := by
  obtain ⟨p, hp, r, hr, hpack, -, hid, hups⟩ := h
  obtain ⟨hne, hle, hlt⟩ := packs_tiered p hp r hr
  have heff : effectivePack d = p.packId := by
    simp [effectivePack, hpack, hne]
  exact ⟨by rw [hid, heff]; exact hle, by rw [hid]; exact hlt _ hups⟩

theorem serviceDiagnosis_id (f : Finding) (s : String) :
    (serviceDiagnosis f s).diagnosisId = serviceId s := by
  simp [serviceDiagnosis, serviceId, String.append_assoc]

theorem effectivePack_serviceDiagnosis (f : Finding) (s : String) :
    effectivePack (serviceDiagnosis f s)
      = (SERVICE_PACK.lookup (PyStr.before s '@')).getD PACK_ID := by
  simp [effectivePack, serviceDiagnosis, serviceOf]

theorem startsWith_of_before {s p : String} {c : Char} (h : PyStr.before s c = p) :
    PyStr.startsWith s p = true := by
  subst h
  rw [PyStr.startsWith, List.isPrefixOf_iff_prefix, PyStr.before, String.toList_ofList]
  exact List.takeWhile_prefix _

theorem startsWith_serviceId {s p : String} :
    PyStr.startsWith (serviceId s) (serviceId p) = PyStr.startsWith s p := by
  rw [Bool.eq_iff_iff]
  simp [PyStr.startsWith, serviceId, List.isPrefixOf_iff_prefix, List.prefix_append_right_inj]

theorem tier_of_dirsrv {id : String} (h : PyStr.startsWith id (serviceId "dirsrv") = true) :
    tier id = 1 := by
  simp [tier, h]

theorem tier_of_service {id : String} (h : PyStr.startsWith id (serviceId "") = true) :
    1 ≤ tier id ∧ tier id ≤ 2 := by
  unfold tier
  rw [if_pos h]
  split <;> simp

/-- Only the Directory Server's own service stands for its pack. -/
theorem service_packs_tiered : ∀ row ∈ SERVICE_PACK, row.1 ≠ "dirsrv" → 2 ≤ packTier row.2 := by
  decide

theorem Tiered.of_service (f : Finding) (s : String) : Tiered (serviceDiagnosis f s) := by
  refine ⟨?_, by simp [serviceDiagnosis]⟩
  rw [serviceDiagnosis_id, effectivePack_serviceDiagnosis]
  have h2 : tier (serviceId s) ≤ 2 := (tier_of_service (startsWith_serviceId.trans (by simp
    [PyStr.startsWith]))).2
  rcases hl : SERVICE_PACK.lookup (PyStr.before s '@') with _ | pack
  · exact h2.trans (by decide)
  · have hmem : (PyStr.before s '@', pack) ∈ SERVICE_PACK := by
      obtain ⟨l₁, l₂, hsplit, -⟩ := List.lookup_eq_some_iff.mp hl
      rw [hsplit]
      simp
    by_cases hd : PyStr.before s '@' = "dirsrv"
    · have ht : tier (serviceId s) = 1 :=
        tier_of_dirsrv (startsWith_serviceId.trans (startsWith_of_before hd))
      rw [hd] at hl
      obtain rfl : "directory-server" = pack := by
        simpa [SERVICE_PACK] using hl
      rw [ht]
      decide
    · exact h2.trans (service_packs_tiered _ hmem hd)

theorem nets_tiered : (∀ up ∈ SERVICE_UPSTREAMS, packTier up < 8) ∧ packTier PACK_ID = 8
    ∧ ∀ rule ∈ SAFETY_NETS, tier (PACK_ID ++ "." ++ rule) = 8
      ∧ PyStr.startsWith rule SERVICE_PREFIX = false := by
  decide

theorem Tiered.of_net {d : Diagnosis} (hp : d.packId = PACK_ID) (hr : d.ruleId ∈ SAFETY_NETS)
    (hid : d.diagnosisId = PACK_ID ++ "." ++ d.ruleId)
    (hup : d.upstreamCandidates = SERVICE_UPSTREAMS) : Tiered d := by
  obtain ⟨hlt, hpack, hrules⟩ := nets_tiered
  obtain ⟨ht, hs⟩ := hrules _ hr
  have heff : effectivePack d = PACK_ID := by simp [effectivePack, hp, hs]
  exact ⟨by rw [hid, ht, heff, hpack], by rw [hid, ht, hup]; exact hlt⟩

/-- What the safety net emits: a stopped service, or one of the groups. -/
theorem mem_unexplained {b : EvidenceBundle} {ds : List Diagnosis} {d : Diagnosis}
    (h : d ∈ unexplainedFindingDiagnoses b ds) :
    (∃ f s, (f, s) ∈ (net b ds).services ∧ d = serviceDiagnosis f s)
      ∨ (∃ f fs, (net b ds).others = f :: fs ∧ d = groupedUnknown f fs)
      ∨ (∃ f fs, (net b ds).crashed = f :: fs ∧ d = checkFailedDiagnosis f fs) := by
  rw [unexplainedFindingDiagnoses, List.mem_append, List.mem_append] at h
  rcases h with (h | h) | h
  · obtain ⟨⟨f, s⟩, hfs, rfl⟩ := List.mem_map.mp h
    exact .inl ⟨f, s, hfs, rfl⟩
  · rcases ho : (net b ds).others with _ | ⟨f, fs⟩
    · simp [ho, grouped] at h
    · exact .inr (.inl ⟨f, fs, rfl, by simpa [ho, grouped] using h⟩)
  · rcases hc : (net b ds).crashed with _ | ⟨f, fs⟩
    · simp [hc, grouped] at h
    · exact .inr (.inr ⟨f, fs, rfl, by simpa [hc, grouped] using h⟩)

theorem Emittable.tiered {d : Diagnosis} (h : Emittable d) : Tiered d := by
  cases h with
  | pack h => exact .of_pack h
  | fallback h =>
      rcases mem_unexplained h with ⟨f, s, -, rfl⟩ | ⟨f, fs, -, rfl⟩ | ⟨f, fs, -, rfl⟩
      · exact .of_service f s
      · exact .of_net rfl (by simp [groupedUnknown, SAFETY_NETS, UNEXPLAINED]) rfl rfl
      · exact .of_net rfl (by simp [checkFailedDiagnosis, SAFETY_NETS, CHECK_FAILED]) rfl rfl

theorem Tiered.noteCertmonger {d : Diagnosis} (h : Tiered d) : Tiered (noteCertmonger d) := by
  unfold IpaDiagnose.noteCertmonger
  split
  · exact ⟨h.below, h.above⟩
  · exact h

/-! ## Causes have a lower tier -/

/-- Bounds on the tiers of the ids a pattern matches. -/
def IdPattern.low : IdPattern → Nat
  | .exact id => tier id
  | .startingWith _ => 1

def IdPattern.high : IdPattern → Nat
  | .exact id => tier id
  | .startingWith p => if PyStr.startsWith p (serviceId "dirsrv") then 1 else 2

/-- A prefix in the table is one of service ids. -/
def IdPattern.ofServices : IdPattern → Bool
  | .exact _ => true
  | .startingWith p => PyStr.startsWith p (serviceId "")

theorem startsWith_trans {s p q : String} (h₁ : PyStr.startsWith s p = true)
    (h₂ : PyStr.startsWith p q = true) : PyStr.startsWith s q = true := by
  rw [PyStr.startsWith, List.isPrefixOf_iff_prefix] at *
  exact h₂.trans h₁

theorem IdPattern.tier_mem {p : IdPattern} {id : String} (hp : p.ofServices = true)
    (h : p.matches id = true) : p.low ≤ tier id ∧ tier id ≤ p.high := by
  cases p with
  | exact s =>
      obtain rfl : id = s := by simpa [IdPattern.matches] using h
      exact ⟨le_rfl, le_rfl⟩
  | startingWith s =>
      have hs : PyStr.startsWith id s = true := h
      have hserv := tier_of_service (startsWith_trans hs hp)
      refine ⟨hserv.1, ?_⟩
      simp only [IdPattern.high]
      by_cases hd : PyStr.startsWith s (serviceId "dirsrv") = true
      · rw [if_pos hd]
        exact (tier_of_dirsrv (startsWith_trans hs hd)).le
      · rw [if_neg hd]
        exact hserv.2

theorem implicit_rows_tiered : ∀ row ∈ IMPLICIT_RULE_UPSTREAMS, row.1.ofServices = true
    ∧ ∀ c ∈ row.2, c.ofServices = true ∧ c.high < row.1.low := by
  decide +kernel

theorem implicitCause_tier {d u : Diagnosis} (h : implicitCause d u = true) :
    tier u.diagnosisId < tier d.diagnosisId := by
  simp only [implicitCause, Bool.and_eq_true, List.any_eq_true] at h
  obtain ⟨-, row, hrow, hd, c, hc, hu⟩ := h
  obtain ⟨hkey, hcauses⟩ := implicit_rows_tiered row hrow
  obtain ⟨hserv, hlt⟩ := hcauses c hc
  have h₁ := (IdPattern.tier_mem hserv hu).2
  have h₂ := (IdPattern.tier_mem hkey hd).1
  omega

/-- `u` is named by `d` as a possible cause, by pack or by id. -/
def Names (d u : Diagnosis) : Prop :=
  (canCause u = true ∧ effectivePack u ∈ d.upstreamCandidates ∧ effectivePack u ≠ d.packId
      ∧ effectivePack u ∉ d.notCausedBy)
    ∨ (implicitCause d u = true ∧ isRealProblem u = true ∧ effectivePack u ∉ d.notCausedBy)

theorem mem_namedCauses {ds : List Diagnosis} {d u : Diagnosis} :
    u ∈ namedCauses ds d ↔ u ∈ ds ∧ Names d u := by
  simp only [namedCauses, Names, List.mem_append, List.mem_filter, Bool.and_eq_true,
    List.contains_iff_mem, bne_iff_ne, Bool.not_eq_true', ← Bool.not_eq_true]
  tauto

theorem mem_causesOf {sources : String → String} {ds : List Diagnosis} {d u : Diagnosis} :
    u ∈ causesOf sources ds d ↔ u ∈ ds ∧ Names d u ∧ absorbs sources d u = true := by
  rw [causesOf, List.mem_filter, mem_namedCauses, and_assoc]

theorem Names.isRealProblem {d u : Diagnosis} (h : Names d u) :
    Severity.error.rank ≤ u.severity.rank := by
  rcases h with ⟨h, -⟩ | ⟨-, h, -⟩
  · simp only [canCause, IpaDiagnose.isRealProblem, Bool.and_eq_true, decide_eq_true_eq] at h
    exact h.1.1
  · simpa [IpaDiagnose.isRealProblem] using h

theorem Names.tier_lt {d u : Diagnosis} (hd : Tiered d) (hu : Tiered u) (h : Names d u) :
    tier u.diagnosisId < tier d.diagnosisId := by
  rcases h with ⟨-, hmem, -⟩ | ⟨h, -⟩
  · exact hu.below.trans_lt (hd.above _ hmem)
  · exact implicitCause_tier h

/-- A diagnosis is never demoted by an unconfirmed one if it is confirmed
itself. -/
theorem absorbs_diagnosed {sources : String → String} {d u : Diagnosis}
    (h : absorbs sources d u = true) (hd : d.status = .diagnosed) : u.status = .diagnosed := by
  unfold absorbs at h
  split at h
  · simp only [Bool.and_eq_true, beq_iff_eq] at h
    exact h.1.1.1.1
  · simpa [hd] using h

/-! ## Which diagnoses are demoted -/

theorem demotion?_isSome {sources : String → String} {ds : List Diagnosis} {d : Diagnosis} :
    (demotion? sources ds d).isSome = true ↔ ∃ u, u ∈ causesOf sources ds d := by
  unfold demotion?
  rcases causesOf sources ds d with _ | ⟨u, us⟩
  · simp
  · simp

theorem demotedAs_isSome {sources : String → String} {ds : List Diagnosis} {d : Diagnosis}
    (hnd : (ds.map Diagnosis.diagnosisId).Nodup) (hd : d ∈ ds) :
    (demotedAs sources ds d).isSome = true ↔ ∃ u, u ∈ causesOf sources ds d := by
  rw [demotedAs, List.lookup_isSome_iff, ← demotion?_isSome]
  constructor
  · rintro ⟨⟨id, m⟩, hmem, hid⟩
    obtain ⟨e, he, hem⟩ := List.mem_filterMap.mp (List.mem_reverse.mp hmem)
    obtain ⟨m', hm', heq⟩ := Option.map_eq_some_iff.mp hem
    obtain ⟨rfl, rfl⟩ := Prod.mk.inj heq
    obtain rfl := eq_of_key_eq hnd he hd (beq_iff_eq.mp hid).symm
    simp [hm']
  · intro h
    obtain ⟨m, hm⟩ := Option.isSome_iff_exists.mp h
    refine ⟨(d.diagnosisId, m), List.mem_reverse.mpr (List.mem_filterMap.mpr ⟨d, hd, ?_⟩), ?_⟩
    · simp [hm]
    · simp

/-! ## Positions -/

/-- Neither demoted nor a diagnosed warning. -/
def Diagnosis.IsCandidate (x : Diagnosis) : Prop :=
  x.priority ≠ .relatedSymptom ∧ isDiagnosedWarning x = false

section Buckets

variable {sources : String → String} {ds : List Diagnosis}

@[simp] theorem bucketed_id (p : Diagnosis × Nat) :
    (bucketed sources ds p).diagnosisId = p.1.diagnosisId := by
  unfold bucketed
  split
  · rfl
  · split
    · rfl
    · split <;> rfl

@[simp] theorem bucketed_severity (p : Diagnosis × Nat) :
    (bucketed sources ds p).severity = p.1.severity := by
  unfold bucketed
  split
  · rfl
  · split
    · rfl
    · split <;> rfl

@[simp] theorem bucketed_status (p : Diagnosis × Nat) :
    (bucketed sources ds p).status = p.1.status := by
  unfold bucketed
  split
  · rfl
  · split
    · rfl
    · split <;> rfl

@[simp] theorem bucketed_evidenceRank (p : Diagnosis × Nat) :
    evidenceRank (bucketed sources ds p) = evidenceRank p.1 := by
  unfold bucketed
  split
  · rfl
  · split
    · rfl
    · split <;> rfl

theorem bucketed_related {p : Diagnosis × Nat} :
    (bucketed sources ds p).priority = .relatedSymptom ↔
      (demotedAs sources ds p.1).isSome = true := by
  unfold bucketed
  rcases demotedAs sources ds p.1 with _ | m
  · simp only [Option.isSome_none, Bool.false_eq_true, iff_false]
    split
    · simp
    · split <;> simp
  · simp

theorem bucketed_primary {p : Diagnosis × Nat} :
    (bucketed sources ds p).priority = .primary ↔
      isRootCandidate sources ds p.1 = true ∧ primaryIndex sources ds = some p.2 := by
  unfold bucketed isRootCandidate
  rcases demotedAs sources ds p.1 with _ | m
  · by_cases hw : isDiagnosedWarning p.1 = true
    · simp [hw]
    · by_cases hp : primaryIndex sources ds = some p.2 <;> simp [hw, hp]
  · simp

theorem isRootCandidate_iff {p : Diagnosis × Nat} :
    isRootCandidate sources ds p.1 = true ↔ (bucketed sources ds p).IsCandidate := by
  have hw : isDiagnosedWarning (bucketed sources ds p) = isDiagnosedWarning p.1 := by
    simp [isDiagnosedWarning]
  rw [Diagnosis.IsCandidate, Ne, bucketed_related, hw, isRootCandidate]
  simp

theorem mem_prioritized_iff {x : Diagnosis} :
    x ∈ prioritized sources ds ↔ ∃ p ∈ ds.zipIdx, bucketed sources ds p = x :=
  List.mem_map

theorem fst_mem_of_mem_zipIdx {α : Type*} {l : List α} {p : α × Nat} (h : p ∈ l.zipIdx) :
    p.1 ∈ l := by
  obtain ⟨x, i⟩ := p
  exact List.mem_of_getElem? (List.mem_zipIdx_iff_getElem?.mp h)

instance : Std.Total ranksBefore where
  total a b := by
    unfold ranksBefore
    rcases le_total (score a.1) (score b.1) with h | h <;> tauto

instance : IsTrans (Diagnosis × Nat) ranksBefore where
  trans a b c := by
    unfold ranksBefore
    rintro (⟨ha, hb⟩ | ⟨hab, hs⟩) (⟨hb', hc⟩ | ⟨hbc, hs'⟩)
    · exact absurd hb' hb
    · exact .inl ⟨ha, fun hc => hb (hbc.mpr hc)⟩
    · exact .inl ⟨hab.mpr hb', hc⟩
    · exact .inr ⟨hab.trans hbc, hs'.trans hs⟩

/-- The primary problem is the root candidate that ranks before every
other one. -/
theorem primaryIndex_spec {i : Nat} (h : primaryIndex sources ds = some i) :
    ∃ d, (d, i) ∈ ds.zipIdx ∧ isRootCandidate sources ds d = true
      ∧ ∀ p ∈ ds.zipIdx, isRootCandidate sources ds p.1 = true → p ≠ (d, i) →
        ranksBefore (d, i) p := by
  obtain ⟨⟨d, j⟩, hhead, rfl⟩ := Option.map_eq_some_iff.mp h
  obtain ⟨hmem, hfirst⟩ := head_insertionSort hhead
  rw [List.mem_filter] at hmem
  exact ⟨d, hmem.1, hmem.2, fun p hp hroot hne => hfirst p (List.mem_filter.mpr ⟨hp, hroot⟩) hne⟩

theorem primaryIndex_isSome {p : Diagnosis × Nat} (hp : p ∈ ds.zipIdx)
    (hroot : isRootCandidate sources ds p.1 = true) :
    ∃ i, primaryIndex sources ds = some i := by
  have hmem : p ∈ rootCandidates sources ds :=
    (List.mem_insertionSort _).mpr (List.mem_filter.mpr ⟨hp, hroot⟩)
  rcases hr : rootCandidates sources ds with _ | ⟨q, qs⟩
  · simp [hr] at hmem
  · exact ⟨q.2, by simp [primaryIndex, hr]⟩

theorem eq_of_mem_zipIdx {α : Type*} {l : List α} {p q : α × Nat} (hp : p ∈ l.zipIdx)
    (hq : q ∈ l.zipIdx) (h : p.2 = q.2) : p = q :=
  eq_of_key_eq (List.nodup_zipIdx_map_snd l) hp hq h

/-- Exactly one diagnosis is primary if there is a root candidate. -/
theorem prioritized_one_primary {p : Diagnosis × Nat} (hp : p ∈ ds.zipIdx)
    (hroot : isRootCandidate sources ds p.1 = true) :
    (prioritized sources ds).countP (·.priority == .primary) = 1 := by
  obtain ⟨i, hi⟩ := primaryIndex_isSome hp hroot
  obtain ⟨d, hd, hdroot, -⟩ := primaryIndex_spec hi
  rw [prioritized, List.countP_map]
  refine countP_eq_one (List.nodup_zipIdx_map_snd ds).of_map hd fun q hq => ?_
  simp only [Function.comp_apply, beq_iff_eq, bucketed_primary, hi, Option.some.injEq]
  constructor
  · rintro ⟨-, h⟩
    exact eq_of_mem_zipIdx hq hd h.symm
  · rintro rfl
    exact ⟨hdroot, rfl⟩

end Buckets

/-! ## The causes in a report -/

theorem prepared_ids (b : EvidenceBundle) (ds : List Diagnosis) :
    (prepared b ds).map Diagnosis.diagnosisId = ds.map Diagnosis.diagnosisId := by
  unfold prepared
  split
  · rw [List.map_map]
    refine List.map_congr_left fun d _ => ?_
    simp only [Function.comp_apply, noteCertmonger]
    split <;> rfl
  · rfl

theorem prepared_tiered {b : EvidenceBundle} {ds : List Diagnosis} (h : Emitted ds) :
    ∀ d ∈ prepared b ds, Tiered d := by
  unfold prepared
  split
  · intro d hd
    obtain ⟨e, he, rfl⟩ := List.mem_map.mp hd
    exact (h.emittable e he).tiered.noteCertmonger
  · exact fun d hd => (h.emittable d hd).tiered

theorem prepared_perm {b : EvidenceBundle} {ds ds' : List Diagnosis} (h : ds'.Perm ds) :
    (prepared b ds').Perm (prepared b ds) := by
  unfold prepared
  split
  · exact h.map _
  · exact h

theorem mem_report {now : String} {b : EvidenceBundle} {ds : List Diagnosis}
    {names : List String} {x : Diagnosis} :
    x ∈ (buildReport now b ds names).diagnoses ↔
      ∃ p ∈ (prepared b ds).zipIdx, bucketed b.findingSources (prepared b ds) p = x := by
  rw [buildReport, List.mem_insertionSort, mem_prioritized_iff]

/-- What the correlation sees of a diagnosis of the report: the one it was given under its id. -/
theorem report_of_id {now : String} {b : EvidenceBundle} {ds : List Diagnosis}
    {names : List String} (h : Emitted ds) {x d : Diagnosis}
    (hx : x ∈ (buildReport now b ds names).diagnoses) (hd : d ∈ prepared b ds)
    (hid : x.diagnosisId = d.diagnosisId) :
    ∃ i, (d, i) ∈ (prepared b ds).zipIdx
      ∧ bucketed b.findingSources (prepared b ds) (d, i) = x := by
  obtain ⟨⟨e, i⟩, he, rfl⟩ := mem_report.mp hx
  have hnd : ((prepared b ds).map Diagnosis.diagnosisId).Nodup := prepared_ids b ds ▸ h.distinct
  obtain rfl := eq_of_key_eq hnd (fst_mem_of_mem_zipIdx he) hd (bucketed_id (e, i) ▸ hid)
  exact ⟨i, he, rfl⟩

/-- `x` is demoted because of `y`. -/
def BecauseOf (b : EvidenceBundle) (ds : List Diagnosis) (r : DiagnosisReport)
    (x y : Diagnosis) : Prop :=
  x ∈ r.diagnoses ∧ y ∈ r.diagnoses ∧
    ∃ d ∈ prepared b ds, ∃ u ∈ causesOf b.findingSources (prepared b ds) d,
      x.diagnosisId = d.diagnosisId ∧ y.diagnosisId = u.diagnosisId

def DiagnosisReport.demotedIds (r : DiagnosisReport) : Set String :=
  {id | ∃ x ∈ r.diagnoses, x.priority = .relatedSymptom ∧ x.diagnosisId = id}

section Report

variable {now : String} {b : EvidenceBundle} {ds : List Diagnosis} {names : List String}
  (h : Emitted ds)
include h

theorem becauseOf_tier_lt (x y : Diagnosis)
    (hxy : BecauseOf b ds (buildReport now b ds names) x y) :
    tier y.diagnosisId < tier x.diagnosisId := by
  obtain ⟨-, -, d, hd, u, hu, hx, hy⟩ := hxy
  obtain ⟨hmem, hn, -⟩ := mem_causesOf.mp hu
  rw [hx, hy]
  exact hn.tier_lt (prepared_tiered h d hd) (prepared_tiered h u hmem)

theorem becauseOf_severe (x y : Diagnosis)
    (hxy : BecauseOf b ds (buildReport now b ds names) x y) :
    Severity.error.rank ≤ y.severity.rank := by
  obtain ⟨-, hy, d, hd, u, hu, -, hid⟩ := hxy
  obtain ⟨hmem, hn, -⟩ := mem_causesOf.mp hu
  obtain ⟨i, -, rfl⟩ := report_of_id h hy hmem hid
  simpa using hn.isRealProblem

theorem becauseOf_confirmed {x y : Diagnosis}
    (hxy : BecauseOf b ds (buildReport now b ds names) x y) (hx : x.status = .diagnosed) :
    y.status = .diagnosed := by
  obtain ⟨hxr, hyr, d, hd, u, hu, hxid, hyid⟩ := hxy
  obtain ⟨hmem, -, ha⟩ := mem_causesOf.mp hu
  obtain ⟨i, -, rfl⟩ := report_of_id h hxr hd hxid
  obtain ⟨j, -, rfl⟩ := report_of_id h hyr hmem hyid
  rw [bucketed_status] at hx ⊢
  exact absorbs_diagnosed ha hx

/-- A diagnosis is demoted exactly if there is one it is demoted because of. -/
theorem related_iff {x : Diagnosis} (hx : x ∈ (buildReport now b ds names).diagnoses) :
    x.priority = .relatedSymptom ↔
      ∃ y, BecauseOf b ds (buildReport now b ds names) x y := by
  have hnd : ((prepared b ds).map Diagnosis.diagnosisId).Nodup := prepared_ids b ds ▸ h.distinct
  obtain ⟨⟨d, i⟩, hp, hbx⟩ := mem_report.mp hx
  have hd := fst_mem_of_mem_zipIdx hp
  rw [← hbx, bucketed_related, demotedAs_isSome hnd hd]
  constructor
  · rintro ⟨u, hu⟩
    obtain ⟨j, hj, hju⟩ := List.getElem_of_mem (mem_causesOf.mp hu).1
    refine ⟨bucketed b.findingSources (prepared b ds) (u, j), mem_report.mpr ⟨_, hp, rfl⟩,
      mem_report.mpr ⟨_, ?_, rfl⟩, d, hd, u, hu, bucketed_id _, bucketed_id _⟩
    simp [List.mem_zipIdx_iff_getElem?, hju, List.getElem?_eq_getElem hj]
  · rintro ⟨y, -, -, e, he, u, hu, hid, -⟩
    obtain rfl := eq_of_key_eq hnd hd he ((bucketed_id (d, i)).symm.trans hid)
    exact ⟨u, hu⟩

theorem mem_demotedIds {id : String} :
    id ∈ (buildReport now b ds names).demotedIds ↔
      ∃ d ∈ prepared b ds, d.diagnosisId = id
        ∧ ∃ u, u ∈ causesOf b.findingSources (prepared b ds) d := by
  have hnd : ((prepared b ds).map Diagnosis.diagnosisId).Nodup := prepared_ids b ds ▸ h.distinct
  constructor
  · rintro ⟨x, hx, hrel, rfl⟩
    obtain ⟨⟨d, i⟩, hp, rfl⟩ := mem_report.mp hx
    have hd := fst_mem_of_mem_zipIdx hp
    rw [bucketed_related, demotedAs_isSome hnd hd] at hrel
    exact ⟨d, hd, (bucketed_id (d, i)).symm, hrel⟩
  · rintro ⟨d, hd, rfl, hu⟩
    obtain ⟨i, hi, hid⟩ := List.getElem_of_mem hd
    refine ⟨bucketed b.findingSources (prepared b ds) (d, i), mem_report.mpr ⟨_, ?_, rfl⟩, ?_,
      bucketed_id _⟩
    · simp [List.mem_zipIdx_iff_getElem?, hid, List.getElem?_eq_getElem hi]
    · rw [bucketed_related, demotedAs_isSome hnd hd]
      exact hu

end Report

theorem one_primary {now : String} {b : EvidenceBundle} {ds : List Diagnosis}
    {names : List String} {x : Diagnosis} (hx : x ∈ (buildReport now b ds names).diagnoses)
    (hc : x.IsCandidate) :
    (buildReport now b ds names).diagnoses.countP (·.priority == .primary) = 1 := by
  obtain ⟨p, hp, rfl⟩ := mem_report.mp hx
  rw [buildReport, (List.perm_insertionSort _ _).countP_eq]
  exact prioritized_one_primary hp (isRootCandidate_iff.mpr hc)

theorem primary_backed {now : String} {b : EvidenceBundle} {ds : List Diagnosis}
    {names : List String} {x y : Diagnosis} (hx : x ∈ (buildReport now b ds names).diagnoses)
    (hp : x.priority = .primary) (hy : y ∈ (buildReport now b ds names).diagnoses)
    (hc : y.IsCandidate) (hback : Severity.error.rank ≤ evidenceRank y) :
    Severity.error.rank ≤ evidenceRank x := by
  obtain ⟨p, hpm, rfl⟩ := mem_report.mp hx
  obtain ⟨q, hqm, rfl⟩ := mem_report.mp hy
  obtain ⟨-, hi⟩ := bucketed_primary.mp hp
  obtain ⟨d, hd, -, hfirst⟩ := primaryIndex_spec hi
  have hpd : p = (d, p.2) := eq_of_mem_zipIdx hpm hd rfl
  rw [bucketed_evidenceRank] at hback ⊢
  rw [hpd]
  by_cases heq : q = (d, p.2)
  · rwa [heq] at hback
  · rcases hfirst q hqm (isRootCandidate_iff.mpr hc) heq with ⟨h, -⟩ | ⟨h, -⟩
    · exact h
    · exact h.mpr hback

/-! ## The correlation is well founded -/

/-- What holds of every report, whatever its diagnoses. -/
structure WellCorrelated (now : String) (b : EvidenceBundle) (ds : List Diagnosis)
    (names : List String) : Prop where
  /-- Following causes never cycles. -/
  acyclic : ∀ x, ¬ TransGen (BecauseOf b ds (buildReport now b ds names)) x x
  /-- From a demoted diagnosis it ends, -/
  ends : ∀ x ∈ (buildReport now b ds names).diagnoses, x.priority = .relatedSymptom →
    ∃ y, TransGen (BecauseOf b ds (buildReport now b ds names)) x y
      ∧ ∀ z, ¬ BecauseOf b ds (buildReport now b ds names) y z
  /-- and wherever it ends, there is a severe diagnosis that is not demoted. -/
  at_end : ∀ x y, TransGen (BecauseOf b ds (buildReport now b ds names)) x y →
    (∀ z, ¬ BecauseOf b ds (buildReport now b ds names) y z) →
    y ∈ (buildReport now b ds names).diagnoses ∧ y.priority ≠ .relatedSymptom
      ∧ Severity.error.rank ≤ y.severity.rank
  confirmed : ∀ x y, BecauseOf b ds (buildReport now b ds names) x y →
    x.status = .diagnosed → y.status = .diagnosed
  one_primary : (∃ x ∈ (buildReport now b ds names).diagnoses, x.IsCandidate) →
    (buildReport now b ds names).diagnoses.countP (·.priority == .primary) = 1
  primary_backed : ∀ x ∈ (buildReport now b ds names).diagnoses, x.priority = .primary →
    (∃ y ∈ (buildReport now b ds names).diagnoses, y.IsCandidate
      ∧ Severity.error.rank ≤ evidenceRank y) →
    Severity.error.rank ≤ evidenceRank x
  order_free : ∀ ds', ds'.Perm ds →
    (buildReport now b ds' names).demotedIds = (buildReport now b ds names).demotedIds

theorem Emitted.of_perm {ds ds' : List Diagnosis} (h : Emitted ds) (hp : ds'.Perm ds) :
    Emitted ds' where
  emittable d hd := h.emittable d (hp.subset hd)
  distinct := (hp.map Diagnosis.diagnosisId).nodup_iff.mpr h.distinct

theorem demotedIds_perm {now : String} {b : EvidenceBundle} {ds ds' : List Diagnosis}
    {names : List String} (h : Emitted ds) (hp : ds'.Perm ds) :
    (buildReport now b ds' names).demotedIds = (buildReport now b ds names).demotedIds := by
  ext id
  rw [mem_demotedIds h, mem_demotedIds (h.of_perm hp)]
  have hmem : ∀ d, d ∈ prepared b ds' ↔ d ∈ prepared b ds := fun d => (prepared_perm hp).mem_iff
  simp only [mem_causesOf, hmem]

theorem buildReport_wellCorrelated (now : String) (b : EvidenceBundle) {ds : List Diagnosis}
    (names : List String) (h : Emitted ds) : WellCorrelated now b ds names := by
  have hwf : WellFounded (Function.swap (BecauseOf b ds (buildReport now b ds names))) :=
    Ranked.wellFounded (fun d : Diagnosis => tier d.diagnosisId) (becauseOf_tier_lt h)
  refine
    { acyclic := not_transGen_self hwf
      ends := fun x hx hrel => ?_
      at_end := fun x y hxy hend => ?_
      confirmed := fun x y => becauseOf_confirmed h
      one_primary := fun ⟨x, hx, hc⟩ => IpaDiagnose.one_primary hx hc
      primary_backed := fun x hx hp ⟨y, hy, hc, hback⟩ =>
        IpaDiagnose.primary_backed hx hp hy hc hback
      order_free := fun ds' hp => demotedIds_perm h hp }
  · obtain ⟨c, hc⟩ := (related_iff h hx).mp hrel
    obtain ⟨y, hy, hend⟩ := exists_terminal hwf c
    exact ⟨y, .head' hc hy, hend⟩
  · have hmem : y ∈ (buildReport now b ds names).diagnoses :=
      of_transGen (fun _ _ hr => hr.2.1) hxy
    refine ⟨hmem, fun hrel => ?_, of_transGen (becauseOf_severe h) hxy⟩
    obtain ⟨z, hz⟩ := (related_iff h hmem).mp hrel
    exact hend z hz

/-! ## The diagnoses of a run -/

theorem Net.add_services_nodup {n : Net} (h : (n.services.map (·.2)).Nodup) (f : Finding) :
    ((n.add f).services.map (·.2)).Nodup := by
  rcases hc : isCheckCrash f with _ | _
  · rcases hs : stoppedService? f with _ | s
    · rw [Net.add_other n hc hs]
      exact h
    · by_cases hm : s ∈ n.services.map (·.2)
      · rw [Net.add_seen n hc hs hm]
        exact h
      · rw [Net.add_service n hc hs hm, List.map_append]
        refine h.append (List.nodup_singleton s) fun t ht ht' => hm ?_
        obtain rfl := List.mem_singleton.mp ht'
        exact ht
  · rw [Net.add_crashed n hc]
    exact h

theorem net_services_nodup (b : EvidenceBundle) (ds : List Diagnosis) :
    ((net b ds).services.map (·.2)).Nodup := by
  have run : ∀ (fs : List Finding) (n : Net), (n.services.map (·.2)).Nodup →
      ((fs.foldl Net.add n).services.map (·.2)).Nodup := by
    intro fs
    induction fs with
    | nil => exact fun n h => h
    | cons f fs ih => exact fun n h => ih (n.add f) (Net.add_services_nodup h f)
  exact run _ _ (by simp)

theorem serviceId_injective : Function.Injective serviceId := by
  intro s t h
  have hs : s = PyStr.drop (serviceId s) (serviceId "").toList.length := by
    simp [serviceId, PyStr.drop]
  rw [hs, h]
  simp [serviceId, PyStr.drop]

/-- The ids of what the safety net emits. -/
theorem unexplained_ids (b : EvidenceBundle) (ds : List Diagnosis) :
    (unexplainedFindingDiagnoses b ds).map Diagnosis.diagnosisId
      = ((net b ds).services.map (·.2)).map serviceId
        ++ ((grouped groupedUnknown (net b ds).others).map fun _ => PACK_ID ++ "." ++ UNEXPLAINED)
        ++ ((grouped checkFailedDiagnosis (net b ds).crashed).map fun _ =>
            PACK_ID ++ "." ++ CHECK_FAILED) := by
  have hs (l : List (Finding × String)) :
      (l.map fun fs => serviceDiagnosis fs.1 fs.2).map Diagnosis.diagnosisId
        = (l.map (·.2)).map serviceId := by
    rw [List.map_map, List.map_map]
    exact List.map_congr_left fun fs _ => serviceDiagnosis_id fs.1 fs.2
  have ho (fs : List Finding) : (grouped groupedUnknown fs).map Diagnosis.diagnosisId
      = (grouped groupedUnknown fs).map fun _ => PACK_ID ++ "." ++ UNEXPLAINED := by
    rcases fs with _ | ⟨f, fs⟩ <;> rfl
  have hc (fs : List Finding) : (grouped checkFailedDiagnosis fs).map Diagnosis.diagnosisId
      = (grouped checkFailedDiagnosis fs).map fun _ => PACK_ID ++ "." ++ CHECK_FAILED := by
    rcases fs with _ | ⟨f, fs⟩ <;> rfl
  rw [unexplainedFindingDiagnoses, List.map_append, List.map_append, hs, ho, hc]

theorem nodup_grouped {α : Type*} (mk : Finding → List Finding → Diagnosis) (c : α)
    (fs : List Finding) : ((grouped mk fs).map fun _ => c).Nodup := by
  rcases fs with _ | ⟨f, fs⟩ <;> simp [grouped]

theorem eq_of_mem_grouped {α : Type*} {mk : Finding → List Finding → Diagnosis} {c x : α}
    {fs : List Finding} (h : x ∈ (grouped mk fs).map fun _ => c) : x = c := by
  obtain ⟨-, -, rfl⟩ := List.mem_map.mp h
  rfl

theorem net_ids_apart :
    PyStr.startsWith (PACK_ID ++ "." ++ UNEXPLAINED) (serviceId "") = false
      ∧ PyStr.startsWith (PACK_ID ++ "." ++ CHECK_FAILED) (serviceId "") = false
      ∧ PACK_ID ++ "." ++ UNEXPLAINED ≠ PACK_ID ++ "." ++ CHECK_FAILED := by
  decide

theorem mem_serviceIds {id : String} {ss : List String} (h : id ∈ ss.map serviceId) :
    PyStr.startsWith id (serviceId "") = true := by
  obtain ⟨s, -, rfl⟩ := List.mem_map.mp h
  exact startsWith_serviceId.trans (by simp [PyStr.startsWith])

theorem unexplained_ids_nodup (b : EvidenceBundle) (ds : List Diagnosis) :
    ((unexplainedFindingDiagnoses b ds).map Diagnosis.diagnosisId).Nodup := by
  obtain ⟨hu, hc, hne⟩ := net_ids_apart
  rw [unexplained_ids]
  have hserv := (net_services_nodup b ds).map serviceId_injective
  refine (hserv.append (nodup_grouped _ _ _) ?_).append (nodup_grouped _ _ _) ?_
  · intro id hs hg
    rw [eq_of_mem_grouped hg] at hs
    simp [mem_serviceIds hs] at hu
  · intro id hs hg
    obtain rfl := eq_of_mem_grouped hg
    rcases List.mem_append.mp hs with hs | hs
    · simp [mem_serviceIds hs] at hc
    · exact hne (eq_of_mem_grouped hs).symm

theorem pack_ids_apart : ∀ p ∈ allPacks, ∀ r ∈ p.rules,
    PyStr.startsWith (p.packId ++ "." ++ r.ruleId) (PACK_ID ++ ".") = false := by
  decide +kernel

theorem startsWith_of_mem_unexplained_ids {b : EvidenceBundle} {ds : List Diagnosis} {id : String}
    (h : id ∈ (unexplainedFindingDiagnoses b ds).map Diagnosis.diagnosisId) :
    PyStr.startsWith id (PACK_ID ++ ".") = true := by
  rw [unexplained_ids, List.mem_append, List.mem_append] at h
  rcases h with (h | h) | h
  · exact startsWith_trans (mem_serviceIds h) (by decide)
  · rw [eq_of_mem_grouped h]
    exact PyStr.startsWith_append _ _
  · rw [eq_of_mem_grouped h]
    exact PyStr.startsWith_append _ _

/-- What the packs return, at most one diagnosis a rule, and the safety
net under it. -/
theorem Emitted.run (b : EvidenceBundle) {packs : List Diagnosis}
    (h : ∀ d ∈ packs, PackEmits d) (hnd : (packs.map Diagnosis.diagnosisId).Nodup) :
    Emitted (packs ++ unexplainedFindingDiagnoses b packs) where
  emittable d hd := by
    rcases List.mem_append.mp hd with hd | hd
    · exact .pack (h d hd)
    · exact .fallback hd
  distinct := by
    rw [List.map_append]
    refine hnd.append (unexplained_ids_nodup b packs) fun id hid hid' => ?_
    obtain ⟨d, hd, rfl⟩ := List.mem_map.mp hid
    obtain ⟨p, hp, r, hr, -, -, heq, -⟩ := h d hd
    have hs := startsWith_of_mem_unexplained_ids hid'
    rw [heq, pack_ids_apart p hp r hr] at hs
    exact Bool.false_ne_true hs

/-- A host whose Directory Server and KDC are stopped. -/
def stoppedHost : EvidenceBundle :=
  let down (id service : String) : Finding :=
    { findingId := id
      source := "ipahealthcheck.meta.services"
      check := service
      severity := .error
      message := service ++ ": not running"
      keywords := []
      raw := [] }
  { hostname := "ipa.example.test"
    findings := [down "f1" "krb5kdc", down "f2" "dirsrv"]
    items := []
    collectionErrors := []
    environment := none
    replaySource := none
    serviceStates := []
    sideEffects := [] }

theorem emitted_stoppedHost : Emitted (unexplainedFindingDiagnoses stoppedHost []) where
  emittable _ h := .fallback h
  distinct := unexplained_ids_nodup stoppedHost []

/-- The stopped KDC is a symptom there, the Directory Server the primary problem. -/
theorem buildReport_wellCorrelated_stoppedHost :
    WellCorrelated "" stoppedHost (unexplainedFindingDiagnoses stoppedHost []) []
      ∧ (buildReport "" stoppedHost (unexplainedFindingDiagnoses stoppedHost [])
          []).diagnoses.map (fun d => (d.ruleId, d.priority))
        = [("service-not-running-dirsrv", .primary),
            ("service-not-running-krb5kdc", .relatedSymptom)] :=
  ⟨buildReport_wellCorrelated "" stoppedHost [] emitted_stoppedHost, by decide +kernel⟩

end IpaDiagnose
