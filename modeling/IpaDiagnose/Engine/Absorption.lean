import IpaDiagnose.Engine.Causality

/-!
# What absorbs the safety net

The diagnosis of the crashed checks and the one of the unexplained
findings each stand for a group of any size. Whether a stopped service
absorbs one is decided on the ids it cites: those of the first six
findings, looked up in a map that keeps the last finding of an id. So
the group a service absorbs is the group as looked up, and the findings
behind it may be others (`absorbedWhole_iff`).
-/

namespace IpaDiagnose

open Ranked

/-! ## The two groups -/

def netRule (crashed : Bool) : String := if crashed then CHECK_FAILED else UNEXPLAINED

/-- The findings the diagnosis with this rule was built from. -/
def netGroup (b : EvidenceBundle) (packs : List Diagnosis) (crashed : Bool) : List Finding :=
  if crashed then (net b packs).crashed else (net b packs).others

def netDiagnosis (crashed : Bool) (f : Finding) (fs : List Finding) : Diagnosis :=
  if crashed then checkFailedDiagnosis f fs else groupedUnknown f fs

/-- The diagnoses the report is built from. -/
def diagnosesOf (b : EvidenceBundle) (packs : List Diagnosis) : List Diagnosis :=
  prepared b (packs ++ unexplainedFindingDiagnoses b packs)

/-- A confirmed stopped service that may absorb a group: it can break the
packs that group is looked for in, and is as severe as an unexplained one. -/
def CanAbsorb (crashed : Bool) (group : List Finding) (u : Diagnosis) : Prop :=
  u.status = .diagnosed ∧ isServiceDown u = true ∧ canCause u = true
    ∧ effectivePack u ∈ SERVICE_UPSTREAMS
    ∧ (crashed = true ∨ (worstOf group).rank ≤ evidenceRank u)

def ExplainsAll (crashed : Bool) (u : Diagnosis) (keys : List String) : Prop :=
  ∀ key ∈ keys, explainsSource u key crashed = true

instance (crashed : Bool) (u : Diagnosis) (keys : List String) :
    Decidable (ExplainsAll crashed u keys) :=
  inferInstanceAs (Decidable (∀ key ∈ keys, _))

/-- The keys of a group. -/
def keysOf (group : List Finding) : List String := group.map Finding.sourceKey

/-- The keys the absorption looks at: those the first six ids lead to. -/
def seenKeys (b : EvidenceBundle) (group : List Finding) : List String :=
  (group.take MAX_GROUPED).map fun f => b.findingSources f.findingId

/-- A demoted group is explained as a whole by a stopped service of the report. -/
def AbsorbedWhole (b : EvidenceBundle) (packs : List Diagnosis) (r : DiagnosisReport)
    (crashed : Bool) : Prop :=
  ∀ x ∈ r.diagnoses, x.packId = PACK_ID → x.ruleId = netRule crashed →
    x.priority = .relatedSymptom →
    ∃ u ∈ r.diagnoses, isServiceDown u = true
      ∧ ExplainsAll crashed u (keysOf (netGroup b packs crashed))

instance (b : EvidenceBundle) (packs : List Diagnosis) (r : DiagnosisReport) (crashed : Bool) :
    Decidable (AbsorbedWhole b packs r crashed) :=
  inferInstanceAs (Decidable (∀ x ∈ _, _))

/-- What is seen of the group tells: some stopped service explains all of
it, or each that may absorb it and leaves a finding unexplained leaves
one unexplained among the keys looked at. -/
def SeenTells (b : EvidenceBundle) (packs : List Diagnosis) (crashed : Bool) : Prop :=
  (∃ u ∈ diagnosesOf b packs, isServiceDown u = true
      ∧ ExplainsAll crashed u (keysOf (netGroup b packs crashed)))
    ∨ ∀ u ∈ diagnosesOf b packs, CanAbsorb crashed (netGroup b packs crashed) u →
      (∃ key ∈ keysOf (netGroup b packs crashed), explainsSource u key crashed = false) →
      ∃ key ∈ seenKeys b (netGroup b packs crashed), explainsSource u key crashed = false

/-! ## Causes of a group -/

section Group

variable {b : EvidenceBundle} {packs : List Diagnosis} {crashed : Bool} {f : Finding}
  {fs : List Finding}

@[simp] theorem netDiagnosis_packId : (netDiagnosis crashed f fs).packId = PACK_ID := by
  cases crashed <;> rfl

@[simp] theorem netDiagnosis_ruleId : (netDiagnosis crashed f fs).ruleId = netRule crashed := by
  cases crashed <;> rfl

theorem netRule_mem : netRule crashed ∈ SAFETY_NETS := by
  cases crashed <;> simp [netRule, SAFETY_NETS]

theorem isSafetyNet_netDiagnosis : isSafetyNet (netDiagnosis crashed f fs) = true := by
  cases crashed <;> rfl

theorem netRule_eq_checkFailed : (netRule crashed == CHECK_FAILED) = crashed := by
  cases crashed <;> decide

theorem netDiagnosis_evidenceFor : ∃ why,
    (netDiagnosis crashed f fs).evidenceFor
      = ((f :: fs).take MAX_GROUPED).map (refFor why) := by
  cases crashed <;> exact ⟨_, rfl⟩

theorem citedSources_netDiagnosis :
    citedSources b.findingSources (netDiagnosis crashed f fs) = seenKeys b (f :: fs) := by
  obtain ⟨why, hrefs⟩ : ∃ why, (netDiagnosis crashed f fs).evidenceFor
    = ((f :: fs).take MAX_GROUPED).map (refFor why) := netDiagnosis_evidenceFor
  have hkind (gs : List Finding) :
      (gs.map (refFor why)).filter (·.kind == .finding) = gs.map (refFor why) :=
    List.filter_eq_self.mpr fun r hr => by
      obtain ⟨g, -, rfl⟩ := List.mem_map.mp hr
      rfl
  rw [citedSources, hrefs, hkind, List.map_map, seenKeys]
  rfl

theorem seenKeys_ne_nil : seenKeys b (f :: fs) ≠ [] := by
  simp [seenKeys, MAX_GROUPED]

theorem evidenceRank_netDiagnosis :
    evidenceRank (netDiagnosis crashed f fs) = (worstOf (f :: fs)).rank := by
  cases crashed <;> rfl

/-- No row of the table is about the safety net. -/
theorem implicit_rows_net : ∀ rule ∈ SAFETY_NETS, ∀ row ∈ IMPLICIT_RULE_UPSTREAMS,
    row.1.matches (PACK_ID ++ "." ++ rule) = false := by
  decide

theorem netDiagnosis_id :
    (netDiagnosis crashed f fs).diagnosisId = PACK_ID ++ "." ++ netRule crashed := by
  cases crashed <;> rfl

theorem implicitCause_net {u : Diagnosis} :
    implicitCause (netDiagnosis crashed f fs) u = false := by
  simp only [implicitCause, netDiagnosis_id, Bool.and_eq_false_iff, List.any_eq_false]
  refine .inr fun row hrow => ?_
  simp [implicit_rows_net _ netRule_mem row hrow]

theorem names_net {u : Diagnosis} :
    Names (netDiagnosis crashed f fs) u ↔
      canCause u = true ∧ effectivePack u ∈ SERVICE_UPSTREAMS := by
  have hups : (netDiagnosis crashed f fs).upstreamCandidates = SERVICE_UPSTREAMS := by
    cases crashed <;> rfl
  have hnot : (netDiagnosis crashed f fs).notCausedBy = [] := by cases crashed <;> rfl
  have hpack : ∀ p ∈ SERVICE_UPSTREAMS, p ≠ PACK_ID := by decide
  simp only [Names, implicitCause_net, hups, hnot, netDiagnosis_packId, List.not_mem_nil,
    not_false_eq_true, and_true, Bool.false_eq_true, false_and, or_false]
  refine and_congr_right fun _ => ?_
  exact ⟨fun h => h.1, fun h => ⟨h, hpack _ h⟩⟩

/-- A stopped service causes the demotion of a group exactly if it may
absorb it and explains the keys looked at. -/
theorem mem_causesOf_net {ds : List Diagnosis} {u : Diagnosis} :
    u ∈ causesOf b.findingSources ds (netDiagnosis crashed f fs) ↔
      u ∈ ds ∧ CanAbsorb crashed (f :: fs) u ∧ ExplainsAll crashed u (seenKeys b (f :: fs)) := by
  rw [mem_causesOf, names_net]
  simp only [absorbs, isSafetyNet_netDiagnosis, if_true, citedSources_netDiagnosis,
    netDiagnosis_ruleId, netRule_eq_checkFailed, evidenceRank_netDiagnosis, CanAbsorb, ExplainsAll,
    Bool.and_eq_true, beq_iff_eq, Bool.or_eq_true, decide_eq_true_eq, List.all_eq_true,
    Bool.not_eq_true', List.isEmpty_eq_false_iff]
  have hne : seenKeys b (f :: fs) ≠ [] := seenKeys_ne_nil
  tauto

/-! ## The group in the report -/

theorem noteCertmonger_net : noteCertmonger (netDiagnosis crashed f fs)
    = netDiagnosis crashed f fs := by
  have hrule : ∀ rule ∈ SAFETY_NETS, rule ≠ SERVICE_PREFIX ++ "certmonger" := by decide
  have hmem : netRule crashed ∈ SAFETY_NETS := netRule_mem
  simp [noteCertmonger, hrule _ hmem]

end Group

theorem net_rules_apart : CHECK_FAILED ≠ UNEXPLAINED
    ∧ ∀ rule ∈ SAFETY_NETS, PyStr.startsWith rule SERVICE_PREFIX = false := by
  decide

theorem netDiagnosis_mem {b : EvidenceBundle} {packs : List Diagnosis} {crashed : Bool}
    {f : Finding} {fs : List Finding} (h : netGroup b packs crashed = f :: fs) :
    netDiagnosis crashed f fs ∈ unexplainedFindingDiagnoses b packs := by
  cases crashed
  · exact mem_unexplained_of_standsFor (.others h (List.mem_cons_self ..))
  · exact mem_unexplained_of_standsFor (.crashed h (List.mem_cons_self ..))

/-- Only the safety net emits diagnoses with its rules. -/
theorem eq_netDiagnosis {b : EvidenceBundle} {packs : List Diagnosis} {crashed : Bool}
    (hpacks : ∀ d ∈ packs, PackEmits d) {d : Diagnosis}
    (hd : d ∈ packs ++ unexplainedFindingDiagnoses b packs) (hp : d.packId = PACK_ID)
    (hr : d.ruleId = netRule crashed) :
    ∃ f fs, netGroup b packs crashed = f :: fs ∧ d = netDiagnosis crashed f fs := by
  obtain ⟨hne, hpre⟩ := net_rules_apart
  rcases List.mem_append.mp hd with hd | hd
  · obtain ⟨p, hpm, r, hrm, hpack, -⟩ := hpacks d hd
    exact absurd (hpack.symm.trans hp) (packs_tiered p hpm r hrm).1
  · rcases mem_unexplained hd with ⟨f, s, -, rfl⟩ | ⟨f, fs, hn, rfl⟩ | ⟨f, fs, hn, rfl⟩
    · have hs : PyStr.startsWith (netRule crashed) SERVICE_PREFIX = false := hpre _ netRule_mem
      rw [← hr] at hs
      simp [serviceDiagnosis] at hs
    · cases crashed
      · exact ⟨f, fs, hn, rfl⟩
      · exact absurd hr.symm hne
    · cases crashed
      · exact absurd hr hne
      · exact ⟨f, fs, hn, rfl⟩

section Run

variable {b : EvidenceBundle} {packs : List Diagnosis} {crashed : Bool}

theorem eq_netDiagnosis_of_mem (hpacks : ∀ d ∈ packs, PackEmits d) {d : Diagnosis}
    (hd : d ∈ diagnosesOf b packs) (hp : d.packId = PACK_ID) (hr : d.ruleId = netRule crashed) :
    ∃ f fs, netGroup b packs crashed = f :: fs ∧ d = netDiagnosis crashed f fs := by
  unfold diagnosesOf prepared at hd
  split at hd
  · obtain ⟨e, he, rfl⟩ := List.mem_map.mp hd
    have hsame : (noteCertmonger e).packId = e.packId ∧ (noteCertmonger e).ruleId = e.ruleId := by
      unfold noteCertmonger
      split <;> exact ⟨rfl, rfl⟩
    obtain ⟨f, fs, hg, rfl⟩ := eq_netDiagnosis hpacks he (hsame.1 ▸ hp) (hsame.2 ▸ hr)
    exact ⟨f, fs, hg, noteCertmonger_net⟩
  · exact eq_netDiagnosis hpacks hd hp hr

theorem netDiagnosis_mem_diagnosesOf {f : Finding} {fs : List Finding}
    (h : netGroup b packs crashed = f :: fs) :
    netDiagnosis crashed f fs ∈ diagnosesOf b packs := by
  have hmem := List.mem_append_right packs (netDiagnosis_mem h)
  unfold diagnosesOf prepared
  split
  · exact List.mem_map.mpr ⟨_, hmem, noteCertmonger_net⟩
  · exact hmem

theorem bucketed_same (sources : String → String) (ds : List Diagnosis) (p : Diagnosis × Nat) :
    (bucketed sources ds p).packId = p.1.packId ∧ (bucketed sources ds p).ruleId = p.1.ruleId := by
  unfold bucketed
  split
  · exact ⟨rfl, rfl⟩
  · split
    · exact ⟨rfl, rfl⟩
    · split <;> exact ⟨rfl, rfl⟩

theorem isServiceDown_bucketed (sources : String → String) (ds : List Diagnosis)
    (p : Diagnosis × Nat) : isServiceDown (bucketed sources ds p) = isServiceDown p.1 := by
  obtain ⟨hp, hr⟩ := bucketed_same sources ds p
  rw [isServiceDown, isServiceDown, hp, hr, bucketed_id]

theorem explainsSource_bucketed (sources : String → String) (ds : List Diagnosis)
    (p : Diagnosis × Nat) (key : String) (crashed : Bool) :
    explainsSource (bucketed sources ds p) key crashed = explainsSource p.1 key crashed := by
  obtain ⟨hp, hr⟩ := bucketed_same sources ds p
  simp only [explainsSource, effectivePack, hp, hr]

/-- The stopped services of the report are those it was built from. -/
theorem explained_in_report {now : String} {keys : List String} :
    (∃ u ∈ (runDiagnosis now b packs).diagnoses, isServiceDown u = true
        ∧ ExplainsAll crashed u keys) ↔
      ∃ u ∈ diagnosesOf b packs, isServiceDown u = true ∧ ExplainsAll crashed u keys := by
  constructor
  · rintro ⟨x, hx, hdown, hall⟩
    obtain ⟨p, hp, rfl⟩ := mem_report.mp hx
    rw [isServiceDown_bucketed] at hdown
    refine ⟨p.1, fst_mem_of_mem_zipIdx hp, hdown, fun key hkey => ?_⟩
    rw [← explainsSource_bucketed]
    exact hall key hkey
  · rintro ⟨u, hu, hdown, hall⟩
    obtain ⟨i, hi, hiu⟩ := List.getElem_of_mem hu
    refine ⟨bucketed b.findingSources (diagnosesOf b packs) (u, i), mem_report.mpr ⟨(u, i), ?_, rfl⟩,
      ?_, fun key hkey => ?_⟩
    · rw [List.mem_zipIdx_iff_getElem?]
      exact List.getElem?_eq_some_iff.mpr ⟨hi, hiu⟩
    · rw [isServiceDown_bucketed]
      exact hdown
    · rw [explainsSource_bucketed]
      exact hall key hkey

/-- A group is demoted exactly if a stopped service that may absorb it
explains the keys looked at. -/
theorem group_demoted_iff (now : String) (hpacks : ∀ d ∈ packs, PackEmits d)
    (hnd : (packs.map Diagnosis.diagnosisId).Nodup) (crashed : Bool) :
    (∃ x ∈ (runDiagnosis now b packs).diagnoses, x.packId = PACK_ID ∧ x.ruleId = netRule crashed
        ∧ x.priority = .relatedSymptom) ↔
      netGroup b packs crashed ≠ [] ∧ ∃ u ∈ diagnosesOf b packs,
        CanAbsorb crashed (netGroup b packs crashed) u
          ∧ ExplainsAll crashed u (seenKeys b (netGroup b packs crashed)) := by
  have hids : ((diagnosesOf b packs).map Diagnosis.diagnosisId).Nodup :=
    (prepared_ids b (packs ++ unexplainedFindingDiagnoses b packs)).symm ▸
      (Emitted.run b hpacks hnd).distinct
  constructor
  · rintro ⟨x, hx, hp, hr, hrel⟩
    obtain ⟨⟨d, i⟩, hmem, rfl⟩ := mem_report.mp hx
    obtain ⟨hpack, hrule⟩ := bucketed_same b.findingSources (diagnosesOf b packs) (d, i)
    have hd : d ∈ diagnosesOf b packs := fst_mem_of_mem_zipIdx hmem
    obtain ⟨f, fs, hg, rfl⟩ :=
      eq_netDiagnosis_of_mem hpacks hd (hpack.symm.trans hp) (hrule.symm.trans hr)
    obtain ⟨u, hu⟩ := (demotedAs_isSome hids hd).mp (bucketed_related.mp hrel)
    rw [hg]
    exact ⟨List.cons_ne_nil f fs, u, mem_causesOf_net.mp hu⟩
  · rintro ⟨hne, u, hu⟩
    obtain ⟨f, fs, hg⟩ := List.exists_cons_of_ne_nil hne
    rw [hg] at hu
    have hd := netDiagnosis_mem_diagnosesOf hg
    obtain ⟨i, hi, hid⟩ := List.getElem_of_mem hd
    obtain ⟨hpack, hrule⟩ := bucketed_same b.findingSources (diagnosesOf b packs)
      (netDiagnosis crashed f fs, i)
    refine ⟨bucketed b.findingSources (diagnosesOf b packs) (netDiagnosis crashed f fs, i),
      mem_report.mpr ⟨(_, i), ?_, rfl⟩, hpack.trans netDiagnosis_packId,
      hrule.trans netDiagnosis_ruleId, ?_⟩
    · rw [List.mem_zipIdx_iff_getElem?]
      exact List.getElem?_eq_some_iff.mpr ⟨hi, hid⟩
    · exact bucketed_related.mpr ((demotedAs_isSome hids hd).mpr ⟨u, mem_causesOf_net.mpr hu⟩)

end Run

/-! ## When absorption is whole -/

theorem not_explainsAll {crashed : Bool} {u : Diagnosis} {keys : List String} :
    ¬ ExplainsAll crashed u keys ↔ ∃ key ∈ keys, explainsSource u key crashed = false := by
  simp [ExplainsAll]

/-- `certmonger` is stopped, and seven checks crashed: six that ask it,
and one that does not. -/
def sevenCrashed : EvidenceBundle :=
  let crashedCheck (id source : String) : Finding :=
    { findingId := id
      source := source
      check := "Check"
      severity := .critical
      message := ""
      keywords := [("exception", .str "failed")]
      raw := [] }
  { stoppedHost with
    findings :=
      { findingId := "f0"
        source := "ipahealthcheck.meta.services"
        check := "certmonger"
        severity := .error
        message := "certmonger: not running"
        keywords := []
        raw := [] }
      :: ["f1", "f2", "f3", "f4", "f5", "f6"].map (crashedCheck · "ipahealthcheck.ipa.certs")
        ++ [crashedCheck "f7" "ipahealthcheck.ds.replication"] }

end IpaDiagnose
