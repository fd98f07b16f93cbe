import IpaDiagnose.Replication.Consistency
import IpaDiagnose.Replication.Verify

/-!
# What `replication --verify` calls resolved

An outcome RESOLVED was earned (`Confirmed`), and the exit code of the
fresh run is only passed on if everything is resolved. One thing is not
always so: a cause may be called resolved although it was found again,
if it was found again as something transient. Then its subject names an
agreement, but not in the form the comparison looks for; there is no
other case (`resolved_sound_iff`).
-/

namespace IpaDiagnose.Replication

open Py (Value Dict Exc)
open Planner (Outcome Record Trace)
open Resolver (Entry Runner Criterion Verdict Rebuilt rebuildVerify evaluateVerify)
open Result

variable {σ : Type}

/-! ## The diagnoses of a result -/

/-- The diagnoses are those of the trace, or say that it cannot be interpreted. -/
def ReplicationResult.Interprets (r : ReplicationResult) : Prop :=
  (∃ ago inputs out, diagnose r.trace ago inputs = .ok out ∧ r.diagnoses = out.diags)
    ∨ ∃ d, r.diagnoses = [d] ∧ d.code = .evidenceUnusable ∧ d.Coded

/-- Severity and kind are the code's, and no key is used twice. -/
structure Listed (ds : List ReplDiagnosis) : Prop where
  coded : ∀ d ∈ ds, d.Coded
  keyed : (ds.map ReplDiagnosis.key).Nodup

theorem Listed.unique {ds : List ReplDiagnosis} (h : Listed ds) {d e : ReplDiagnosis} (hd : d ∈ ds)
    (he : e ∈ ds) (hkey : d.key = e.key) : d = e :=
  List.inj_on_of_nodup_map h.keyed hd he hkey

theorem assignRoles_keys (primarySet : Bool) (ds : List ReplDiagnosis) :
    (assignRoles primarySet ds).map ReplDiagnosis.key = ds.map ReplDiagnosis.key := by
  induction ds generalizing primarySet with
  | nil => rfl
  | cons d ds ih =>
      unfold assignRoles
      rw [List.map_cons, List.map_cons, ih]
      rfl

theorem Listed.roles {ds : List ReplDiagnosis} (h : Listed ds) (hw : Wired ds) :
    Listed (roles ds) := by
  constructor
  · intro d hd
    obtain ⟨x, hx, role, rfl⟩ := (roles_same hw).back d hd
    exact ⟨(h.coded x hx).severity, (h.coded x hx).kind⟩
  · unfold Replication.roles
    dsimp only
    rw [undangle_anchored hw]
    have hinner : ((sortedBy causeOrder ds).map ReplDiagnosis.key).Perm
        (ds.map ReplDiagnosis.key) := (List.perm_insertionSort _ ds).map _
    have houter := (List.perm_insertionSort (fun a b => roleOrder a ≤ roleOrder b)
      (assignRoles false (sortedBy causeOrder ds))).map ReplDiagnosis.key
    rw [assignRoles_keys] at houter
    exact (houter.trans hinner).nodup_iff.mpr h.keyed

theorem listed_of_diagnose {t : Trace} {ago : String → Option ℚ} {inputs : Dict} {out : Diagnosed}
    (h : diagnose t ago inputs = .ok out) : Listed out.diags := by
  unfold diagnose at h
  split at h
  · obtain rfl : ({} : Diagnosed) = out := by injection h
    exact ⟨fun d hd => (nomatch hd), List.nodup_nil⟩
  · obtain ⟨⟨states, b⟩, hcollect, h⟩ := bind_ok.mp h
    obtain rfl := pure_ok.mp h
    obtain ⟨as, more, has, hmore, htold⟩ := collect_told.of_ok hcollect
    obtain ⟨items, -, hlooked⟩ := collect_goes.of_ok hcollect
    refine Listed.roles ⟨?_, hlooked.goes.keyed List.nodup_nil⟩ htold.wired
    refine Runs.diags hlooked.goes (fun d hd _ => ⟨hd.1.severity, hd.1.kind⟩) ?_ ?_ ?_
    · exact fun _ x _ hx _ => ⟨hx.severity, hx.kind⟩
    · intro x x' hx hfixed _
      have hsev := congrArg ReplDiagnosis.severity hfixed
      have hcode := congrArg ReplDiagnosis.code hfixed
      have hkind := congrArg ReplDiagnosis.kind hfixed
      refine ⟨hsev.trans (hx.severity.trans (congrArg severityOf hcode.symm)), ?_⟩
      have hk : x'.kind = x.kind := hkind
      have hc : x'.code = x.code := hcode
      rw [hk, hc]
      exact hx.kind
    · intro d hd
      cases hd

theorem ReplicationResult.Interprets.listed {r : ReplicationResult} (h : r.Interprets) :
    Listed r.diagnoses := by
  rcases h with ⟨ago, inputs, out, hout, hds⟩ | ⟨d, hds, -, hcoded⟩
  · rw [hds]
    exact listed_of_diagnose hout
  · rw [hds]
    refine ⟨fun x hx => ?_, List.nodup_singleton _⟩
    obtain rfl := List.mem_singleton.mp hx
    exact hcoded

/-- What passes by itself is no failure. -/
theorem warn_of_transient {d : ReplDiagnosis} (h : d.Coded) (hkind : d.kind = some .transient) :
    d.severity = .warn := by
  have hmem := h.kind
  rw [hkind] at hmem
  rw [h.severity]
  revert hmem
  cases d.code <;> decide

theorem transient_peerless {d : ReplDiagnosis} (h : d.Coded) (hkind : d.kind = some .transient) :
    peerCode d.code.text = false ∧ PyStr.startsWith d.code.text "PAIR_CLOCK" = false
      ∧ CODE_RE.fullmatch d.code.text = true := by
  have hmem := h.kind
  rw [hkind] at hmem
  revert hmem
  cases d.code <;> decide

/-! ## What stands behind RESOLVED -/

/-- The saved result is about the same host and scope, and this server's
agreements could be read. A saved result without a host is not compared. -/
structure Unchanged (p : LoadedState) (fresh : ReplicationResult) : Prop where
  host : ∀ h, p.host = some h → h ≠ "" → fresh.host.pyEq (.str h) = true
  scope : p.peer = fresh.peer
  read : collectorOk fresh = true

/-- A session of the agreement ended well after the saved result, and
nothing fails on it. -/
structure AgreementGreen (p : LoadedState) (fresh : ReplicationResult) (subject : String) :
    Prop where
  session : ∃ x ∈ fresh.relationships, x.subject = subject
    ∧ x.state.pyEq StatusClass.ok.value = true
    ∧ (∃ ended, (parseTime x.lastUpdateEnd : Except Resolver.E _) = .ok (some ended)
      ∧ p.generatedAt.seconds < ended.seconds)
    ∧ x.updateInProgress.truthy = false
  quiet : ∀ d ∈ fresh.diagnoses, d.subject = subject → d.severity ≠ .fail

/-- A fix is rebuilt as it was, and fresh checks satisfy all its criteria. -/
def CriteriaTrue (sha256 : String → String) (cat : List Entry) (runner : Runner σ)
    (fix : Value) : Prop :=
  ∃ s₁ criteria why s₂ results s₃,
    rebuildVerify sha256 cat fix runner s₁ = (.ok ⟨some criteria, none, why⟩, s₂)
      ∧ evaluateVerify runner criteria s₂ = (.ok results, s₃) ∧ ∀ v ∈ results, v.ok = some true

/-- The own checks of a cause: they answer, nothing else fails in its
place, and its fix holds. -/
structure CauseGone (sha256 : String → String) (cat : List Entry) (p : LoadedState)
    (fresh : ReplicationResult) (runner : Runner σ) (d : Finding) : Prop where
  answered : ∀ sid ∈ d.evidence, ∃ r, fresh.trace.get sid = some r ∧ r.outcome ≠ .unknown
    ∧ (r.outcome = .skipped → PyStr.startsWith r.skipReason "not needed" = true)
  beside : ∀ x ∈ fresh.diagnoses, x.severity = .fail → x.key ≠ d.key → x.subject ≠ d.subject
  peer : peerCode d.code = true → ∀ peer, peerOf d.subject = some peer → ∀ x ∈ fresh.diagnoses,
    x.severity = .fail → x.key ≠ d.key → x.key ∉ p.diagnoses.map Finding.key →
      peerCode x.code.text = true → peerOf x.subject ≠ some peer
  fix : ∀ fix, p.fixes.lookup d.key = some fix → fix ≠ .null → CriteriaTrue sha256 cat runner fix

structure Confirmed (sha256 : String → String) (cat : List Entry) (p : LoadedState)
    (fresh : ReplicationResult) (runner : Runner σ) (d : Finding) : Prop where
  unchanged : Unchanged p fresh
  agreement : isAgreement d.subject = true → AgreementGreen p fresh d.subject
  cause : isAgreement d.subject = false → CauseGone sha256 cat p fresh runner d

section Fresh

variable {p : LoadedState} {fresh : ReplicationResult} {d : Finding}

theorem unchanged_of_refused (h : refused p fresh d = none) :
    Unchanged p fresh ∧ foundAgain fresh d.key = false := by
  unfold refused at h
  split at h
  · cases h
  · rename_i hhost
    split at h
    · cases h
    · rename_i hscope
      split at h
      · cases h
      · rename_i hread
        split at h
        · cases h
        · rename_i hfound
          refine ⟨⟨fun name hname hne => ?_, ?_, by simpa using hread⟩, by simpa using hfound⟩
          · by_contra hdiff
            refine hhost ?_
            rw [hostChanged, hname]
            simpa [hne] using hdiff
          · simpa [scopeChanged] using hscope

theorem mem_failuresOn {subject : String} {x : ReplDiagnosis} :
    x ∈ failuresOn fresh subject ↔ x ∈ fresh.diagnoses ∧ x.subject = subject ∧ x.severity = .fail := by
  simp [failuresOn]

theorem sessionState_ok {x : Relationship} (h : sessionState p x = .ok .ok) :
    (∃ ended, (parseTime x.lastUpdateEnd : Except Resolver.E _) = .ok (some ended)
      ∧ p.generatedAt.seconds < ended.seconds) ∧ x.updateInProgress.truthy = false := by
  unfold sessionState at h
  obtain ⟨ended, hended, h⟩ := bind_ok.mp h
  cases ended with
  | none => cases pure_ok.mp h
  | some ended =>
      dsimp only at h
      split at h
      · cases pure_ok.mp h
      · rename_i hlater
        split at h
        · cases pure_ok.mp h
        · rename_i hidle
          exact ⟨⟨ended, hended, by omega⟩, by simpa using hidle⟩

theorem agreementState_ok {subject : String} (h : agreementState p fresh subject = .ok .ok) :
    ∃ x ∈ fresh.relationships, x.subject = subject ∧ x.state.pyEq StatusClass.ok.value = true
      ∧ sessionState p x = .ok .ok := by
  unfold agreementState at h
  split at h
  · cases h
  · rename_i x hx
    have hmem := List.mem_of_getLast? hx
    obtain ⟨hmem, hsubject⟩ := List.mem_filter.mp hmem
    split at h
    · cases h
    · split at h
      · cases h
      · split at h
        · rename_i hok
          exact ⟨x, hmem, by simpa using hsubject, hok, h⟩
        · split at h
          · cases h
          · cases h

theorem pendingOr_resolved {now : Now} {key : String} {still : ItemOutcome}
    {since : Option (String × Timestamp.Stamp)} (hstill : still ≠ .resolved) :
    pendingOr p now key still ≠ .ok (.resolved, since) := by
  intro h
  obtain ⟨until_, -, h⟩ := bind_ok.mp h
  split at h
  · obtain ⟨next, -, h⟩ := bind_ok.mp h
    cases pure_ok.mp h
  · exact hstill (Prod.mk.inj (pure_ok.mp h)).1

theorem judgeAgreement_resolved {now : Now} {since : Option (String × Timestamp.Stamp)}
    (h : judgeAgreement p fresh now d = .ok (.resolved, since)) :
    AgreementGreen p fresh d.subject := by
  unfold judgeAgreement at h
  obtain ⟨state, hstate, h⟩ := bind_ok.mp h
  cases state with
  | ok =>
      obtain ⟨x, hx, hsubject, hok, hsession⟩ := agreementState_ok hstate
      obtain ⟨hended, hidle⟩ := sessionState_ok hsession
      refine ⟨⟨x, hx, hsubject, hok, hended, hidle⟩, fun e he hsub hfail => ?_⟩
      have hout := (Prod.mk.inj (pure_ok.mp h)).1
      have hmem : e ∈ failuresOn fresh d.subject := mem_failuresOn.mpr ⟨he, hsub, hfail⟩
      rw [if_neg (by rw [List.isEmpty_iff]; exact List.ne_nil_of_mem hmem)] at hout
      cases hout
  | noFresh => exact absurd h (pendingOr_resolved (by decide))
  | transient => exact absurd h (pendingOr_resolved (by decide))
  | failing =>
      dsimp only at h
      split at h
      · cases pure_ok.mp h
      · cases pure_ok.mp h
  | unobserved => cases pure_ok.mp h

theorem answered_spec (h : answered fresh d = true) : ∀ sid ∈ d.evidence,
    ∃ r, fresh.trace.get sid = some r ∧ r.outcome ≠ .unknown
      ∧ (r.outcome = .skipped → PyStr.startsWith r.skipReason "not needed" = true) := by
  intro sid hsid
  obtain ⟨hall, -⟩ := Bool.and_eq_true_iff.mp h
  have hstep := List.all_eq_true.mp hall sid hsid
  unfold stepAnswered at hstep
  split at hstep
  · cases hstep
  · rename_i r hr
    obtain ⟨hunknown, hskip⟩ := Bool.and_eq_true_iff.mp hstep
    refine ⟨r, hr, by simpa using hunknown, fun hskipped => ?_⟩
    rw [hskipped] at hskip
    simpa using hskip

theorem no_other_failure (h : otherFailure p fresh d = false) :
    failuresBeside fresh d = [] ∧ failuresOnPeer p fresh d = [] := by
  obtain ⟨hbeside, hpeer⟩ := Bool.or_eq_false_iff.mp h
  exact ⟨by simpa using hbeside, by simpa using hpeer⟩

end Fresh

section Runs

variable {sha256 : String → String} {cat : List Entry} {p : LoadedState}
  {fresh : ReplicationResult} {runner : Runner σ} {now : Now} {so : Outcomes} {d : Finding}
  {s s' : σ}

theorem judgeFix_resolved {fix : Value}
    (h : judgeFix sha256 cat fix runner s = (.ok .resolved, s')) :
    CriteriaTrue sha256 cat runner fix := by
  unfold judgeFix at h
  split at h
  · cases h
  · rename_i criteria why s₁ hrebuild
    split at h
    · cases h
    · rename_i results s₂ heval
      split at h
      · cases h
      · split at h
        · rename_i hall
          refine ⟨s, criteria, why, s₁, results, s₂, hrebuild, heval, fun v hv => ?_⟩
          exact beq_iff_eq.mp (List.all_eq_true.mp hall v hv)
        · cases h
  · cases h

theorem judgeOwn_resolved (h : judgeOwn sha256 cat p fresh runner d s = (.ok .resolved, s')) :
    CauseGone sha256 cat p fresh runner d := by
  unfold judgeOwn at h
  split at h
  · cases h
  · rename_i hanswered
    split at h
    · cases h
    · rename_i hother
      obtain ⟨hbeside, hpeer⟩ := no_other_failure (by simpa using hother)
      refine ⟨answered_spec (by simpa using hanswered), fun x hx hfail hkey hsub => ?_, ?_, ?_⟩
      · have hmem : x ∈ failuresBeside fresh d :=
          List.mem_filter.mpr ⟨mem_failuresOn.mpr ⟨hx, hsub, hfail⟩, by simpa using hkey⟩
        rw [hbeside] at hmem
        cases hmem
      · intro hcode peer hpeerOf x hx hfail hkey hnew hxcode hxpeer
        unfold failuresOnPeer at hpeer
        rw [if_pos hcode, hpeerOf] at hpeer
        have hmem := List.eq_nil_iff_forall_not_mem.mp hpeer x
        refine hmem (List.mem_filter.mpr ⟨hx, ?_⟩)
        have hnotin : (p.diagnoses.map Finding.key).contains x.key = false := by
          rw [Bool.eq_false_iff]
          exact fun hc => hnew (List.contains_iff_mem.mp hc)
        simp only [hfail, hnotin, hxcode, hxpeer, Bool.not_false, Bool.and_true, beq_self_eq_true,
          Bool.true_and, bne_iff_ne]
        exact hkey
      · intro fix hfix hnull
        split at h
        · rename_i hnone
          rw [hfix] at hnone
          cases hnone
        · rename_i hnone
          rw [hfix] at hnone
          exact absurd (Option.some.inj hnone) hnull
        · rename_i fix' hfix' hsome
          rw [hfix] at hsome
          obtain rfl := Option.some.inj hsome
          exact judgeFix_resolved h

theorem openEffect_ne_resolved {o : ItemOutcome} (h : openEffect so d = some o) :
    o ≠ .resolved := by
  obtain ⟨x, -, hx⟩ := List.exists_of_findSome?_eq_some h
  split at hx
  · cases hx
  · cases hx
  · rename_i o' hnot hlookup
    obtain rfl := Option.some.inj hx
    rintro rfl
    exact hnot rfl

theorem judgeCause_resolved (h : judgeCause sha256 cat p fresh runner so d s = (.ok .resolved, s')) :
    CauseGone sha256 cat p fresh runner d ∧ openEffect so d = none := by
  unfold judgeCause at h
  split at h
  · rename_i s₁ hown
    refine ⟨judgeOwn_resolved hown, ?_⟩
    have ho := Except.ok.inj (Prod.mk.inj h).1
    cases hopen : openEffect so d with
    | none => rfl
    | some o =>
        rw [hopen] at ho
        exact absurd ho (openEffect_ne_resolved hopen)
  · rename_i hnot
    exact absurd h (hnot s')

theorem refused_ne_resolved : refused p fresh d ≠ some .resolved := by
  unfold refused
  grind

/-- RESOLVED comes from the agreement's state, or from the cause's own checks. -/
theorem judge_resolved_by {since : Option (String × Timestamp.Stamp)}
    (h : judge sha256 cat p fresh runner now so d s = (.ok (.resolved, since), s')) :
    refused p fresh d = none
      ∧ (isAgreement d.subject = true → judgeAgreement p fresh now d = .ok (.resolved, since))
      ∧ (isAgreement d.subject = false →
          ∃ s₁, judgeCause sha256 cat p fresh runner so d s = (.ok .resolved, s₁)) := by
  unfold judge at h
  split at h
  · rename_i o hrefused
    have ho := (Prod.mk.inj (Except.ok.inj (Prod.mk.inj h).1)).1
    exact absurd (ho ▸ hrefused) refused_ne_resolved
  · rename_i hopen
    refine ⟨hopen, fun hagreement => ?_, fun hcause => ?_⟩
    · rw [if_pos hagreement] at h
      exact (Prod.mk.inj h).1
    · rw [if_neg (by rw [hcause]; decide)] at h
      split at h
      · cases h
      · rename_i o s₁ hjudged
        have ho := (Prod.mk.inj (Except.ok.inj (Prod.mk.inj h).1)).1
        exact ⟨s₁, ho ▸ hjudged⟩

theorem judge_resolved {since : Option (String × Timestamp.Stamp)}
    (h : judge sha256 cat p fresh runner now so d s = (.ok (.resolved, since), s')) :
    Confirmed sha256 cat p fresh runner d ∧ foundAgain fresh d.key = false := by
  obtain ⟨hopen, hagreement, hcause⟩ := judge_resolved_by h
  obtain ⟨hsame, hfound⟩ := unchanged_of_refused hopen
  refine ⟨⟨hsame, fun hyes => judgeAgreement_resolved (hagreement hyes), fun hno => ?_⟩, hfound⟩
  obtain ⟨s₁, hjudged⟩ := hcause hno
  exact (judgeCause_resolved hjudged).1

end Runs

/-! ## A whole comparison -/

/-- No fresh diagnosis is the finding. -/
def NotFound (fresh : ReplicationResult) (d : Finding) : Prop :=
  ∀ x ∈ fresh.diagnoses, x.key ≠ d.key

/-- Everything is resolved, and nothing new fails. -/
def AllResolved (p : LoadedState) (fresh : ReplicationResult) (result : CompareResult) : Prop :=
  (∀ i ∈ result.items, i.outcome = .resolved)
    ∧ ∀ x ∈ fresh.diagnoses, x.severity = .fail → x.key ∈ p.diagnoses.map Finding.key

structure Honest (sha256 : String → String) (cat : List Entry) (p : LoadedState)
    (fresh : ReplicationResult) (runner : Runner σ) (result : CompareResult) : Prop where
  item : ∀ i ∈ result.items, i.outcome = .resolved → ∃ d ∈ p.diagnoses, i = itemOf d .resolved
    ∧ Confirmed sha256 cat p fresh runner d ∧ (isAgreement d.subject = false → NotFound fresh d)
  /-- The fresh run's own code is returned, or one that does not depend on it. -/
  exit : AllResolved p fresh result ∨ ∃ k ∈ [(1 : Int), 3, 4], ∀ c, exit_code result c = k

/-- Every transient finding names an agreement, or something else that fails. -/
def TransientsNamed (fresh : ReplicationResult) : Prop :=
  ∀ f ∈ fresh.diagnoses, f.kind = some .transient → SUBJECT_RE.fullmatch f.subject = true →
    isAgreement f.subject = true
      ∨ ∃ g ∈ fresh.diagnoses, g.severity = .fail ∧ g.subject = f.subject

theorem mem_of_oldItems {p : LoadedState} {d : Finding} (h : d ∈ oldItems p) :
    d ∈ p.diagnoses := by
  unfold oldItems at h
  rcases List.mem_append.mp h with h | h
  · exact (List.mem_filter.mp (List.mem_filter.mp h).1).1
  · exact (List.mem_filter.mp (List.mem_filter.mp h).1).1

theorem exit_code_honest {p : LoadedState} {fresh : ReplicationResult} {result : CompareResult}
    (hnew : result.newConditions = newFailures p fresh) :
    AllResolved p fresh result ∨ ∃ k ∈ [(1 : Int), 3, 4], ∀ c, exit_code result c = k := by
  let outs := result.items.map VerifyItem.outcome
  by_cases h1 : (outs.contains .stillPresent || outs.contains .partiallyResolved
      || !result.newConditions.isEmpty) = true
  · exact .inr ⟨1, by decide, fun c => if_pos h1⟩
  · by_cases h3 : outs.contains .pending = true
    · refine .inr ⟨3, by decide, fun c => ?_⟩
      unfold exit_code
      exact (if_neg h1).trans (if_pos h3)
    · by_cases h4 : (outs.contains .unableToVerify || outs.contains .changed) = true
      · refine .inr ⟨4, by decide, fun c => ?_⟩
        unfold exit_code
        exact (if_neg h1).trans ((if_neg h3).trans (if_pos h4))
      · refine .inl ⟨fun i hi => ?_, fun x hx hfail => ?_⟩
        · have hmem : i.outcome ∈ outs := List.mem_map_of_mem hi
          simp only [Bool.or_eq_true, List.contains_iff_mem, not_or] at h1 h3 h4
          -- every other outcome has been looked for
          cases hi' : i.outcome with
          | resolved => rfl
          | pending => exact absurd (hi' ▸ hmem) h3
          | stillPresent => exact absurd (hi' ▸ hmem) h1.1.1
          | changed => exact absurd (hi' ▸ hmem) h4.2
          | partiallyResolved => exact absurd (hi' ▸ hmem) h1.1.2
          | unableToVerify => exact absurd (hi' ▸ hmem) h4.1
        · by_contra hnotin
          have hnone : newFailures p fresh = [] := by
            rw [← hnew]
            by_contra hsome
            exact h1 (by simp [hsome])
          have hmem : x ∈ newFailures p fresh := by
            refine List.mem_filter.mpr ⟨hx, ?_⟩
            rw [Bool.and_eq_true_iff, hfail]
            refine ⟨?_, rfl⟩
            rw [Bool.not_eq_true', Bool.eq_false_iff]
            exact fun hc => hnotin (List.contains_iff_mem.mp hc)
          rw [hnone] at hmem
          cases hmem

section Listed

variable {fresh : ReplicationResult}

theorem freshWith_of_mem (hlisted : Listed fresh.diagnoses) {x : ReplDiagnosis}
    (hx : x ∈ fresh.diagnoses) : freshWith fresh x.key = some x := by
  have hmem : x ∈ fresh.diagnoses.filter fun d => d.key == x.key :=
    List.mem_filter.mpr ⟨hx, beq_self_eq_true _⟩
  obtain ⟨y, hy⟩ : ∃ y, (fresh.diagnoses.filter fun d => d.key == x.key).getLast? = some y :=
    ⟨_, List.getLast?_eq_some_getLast (List.ne_nil_of_mem hmem)⟩
  have hlast := List.mem_filter.mp (List.mem_of_getLast? hy)
  have hsame : y = x := hlisted.unique hlast.1 hx (by simpa using hlast.2)
  rw [freshWith, hy, hsame]

/-- A resolved cause that was found again was found as transient. -/
theorem transient_of_found (hlisted : Listed fresh.diagnoses) {x : ReplDiagnosis}
    (hx : x ∈ fresh.diagnoses) (h : foundAgain fresh x.key = false) :
    x.kind = some .transient := by
  unfold foundAgain at h
  rw [freshWith_of_mem hlisted hx] at h
  simpa using h

theorem TransientsNamed.not_found {sha256 : String → String} {cat : List Entry} {p : LoadedState}
    {runner : Runner σ} {d : Finding} (hnamed : TransientsNamed fresh)
    (hlisted : Listed fresh.diagnoses) (hshape : d.Shaped)
    (hconfirmed : Confirmed sha256 cat p fresh runner d) (hagain : foundAgain fresh d.key = false)
    (hcause : isAgreement d.subject = false) : NotFound fresh d := by
  intro x hx hkey
  have htransient := transient_of_found hlisted hx (hkey ▸ hagain)
  obtain ⟨-, hsubject⟩ : x.code.text = d.code ∧ x.subject = d.subject :=
    (before_at_inj x.code.text_no_at hshape.code_no_at).mp hkey
  rcases hnamed x hx htransient (hsubject ▸ hshape.subject) with hagreement | ⟨g, hg, hfail, hgsub⟩
  · rw [hsubject, hcause] at hagreement
    cases hagreement
  · have hne : g.key ≠ d.key := by
      intro hsame
      have hwarn := warn_of_transient (hlisted.coded x hx) htransient
      rw [← hlisted.unique hg hx (hsame.trans hkey.symm), hfail] at hwarn
      cases hwarn
    exact (hconfirmed.cause hcause).beside g hg hfail hne (hgsub.trans hsubject)

theorem compare_honest {sha256 : String → String} {cat : List Entry} {p : LoadedState}
    {doc : Value} {runner : Runner σ} {now : Now} {s s' : σ} {result : CompareResult}
    (hnamed : TransientsNamed fresh) (hlisted : Listed fresh.diagnoses) (hload : load doc = .ok p)
    (h : compare sha256 cat p fresh runner now s = (.ok result, s')) :
    Honest sha256 cat p fresh runner result := by
  obtain ⟨c, hjudges, rfl⟩ := compare_ok h
  refine ⟨?_, exit_code_honest rfl⟩
  refine hjudges.items (fun i hi => (nomatch hi)) (fun d hd _ _ o since s s₁ hjudge hout => ?_)
  obtain rfl : o = .resolved := hout
  obtain ⟨hconfirmed, hagain⟩ := judge_resolved hjudge
  exact ⟨d, mem_of_oldItems hd, rfl, hconfirmed,
    hnamed.not_found hlisted (load_shaped hload d (mem_of_oldItems hd)) hconfirmed hagain⟩

end Listed

/-! ## A transient finding that names nothing -/

def newYear : Timestamp.Stamp := ⟨⟨2026, 1, 1, 0, 0, 0⟩, by decide⟩

/-- A saved result of a transient finding alone; its host was not known. -/
def soleDoc (peer : Option String) (f : ReplDiagnosis) : Value :=
  .dict [("state_version", .int STATE_VERSION), ("kind", .str STATE_KIND),
    ("generated_at", .str newYear.text), ("host", .null), ("inputs", .dict [("peer", optText peer)]),
    ("diagnoses", .list [.dict [("code", .str f.code.text), ("subject", .str f.subject),
      ("severity", .str "WARN"), ("kind", .str "TRANSIENT")]])]

def soleFinding (f : ReplDiagnosis) : Finding :=
  { code := f.code.text, subject := f.subject, severity := .warn, kind := some .transient
    explains := [], evidence := [] }

def sole (peer : Option String) (f : ReplDiagnosis) : LoadedState :=
  { generatedAt := newYear, host := none, diagnoses := [soleFinding f], relationships := []
    fixes := [], pending := [], peer := peer }

theorem sole_loaded {peer : Option String} {f : ReplDiagnosis}
    (hcode : CODE_RE.fullmatch f.code.text = true)
    (hsubject : SUBJECT_RE.fullmatch f.subject = true) :
    load (soleDoc peer f) = .ok (sole peer f) := by
  have hread : readFindings [.dict [("code", .str f.code.text), ("subject", .str f.subject),
      ("severity", .str "WARN"), ("kind", .str "TRANSIENT")]] = .ok [soleFinding f] := by
    unfold readFindings
    rw [readFinding_of rfl rfl ⟨hcode, hsubject⟩ rfl rfl]
    rfl
  refine load_iff.mpr ⟨_, rfl, rfl, rfl, parseTime_text _, ⟨_, rfl, hread⟩, rfl, rfl, rfl, rfl, ?_⟩
  cases peer with
  | none => rfl
  | some peer => rfl

/-- Nothing decides against it: it is called resolved. -/
theorem sole_judged (sha256 : String → String) (cat : List Entry) (fresh : ReplicationResult)
    (runner : Runner σ) (now : Now) (s : σ) {f : ReplDiagnosis} (hlisted : Listed fresh.diagnoses)
    (hread : collectorOk fresh = true) (hf : f ∈ fresh.diagnoses) (hkind : f.kind = some .transient)
    (hcause : isAgreement f.subject = false)
    (halone : ∀ g ∈ fresh.diagnoses, g.severity = .fail → g.subject ≠ f.subject) :
    compare sha256 cat (sole fresh.peer f) fresh runner now s
      = (.ok ⟨[itemOf (soleFinding f) .resolved], newFailures (sole fresh.peer f) fresh, []⟩, s) := by
  have hagain : foundAgain fresh (soleFinding f).key = false := by
    have hfresh : freshWith fresh (soleFinding f).key = some f := freshWith_of_mem hlisted hf
    simp [foundAgain, hfresh, hkind]
  have hrefused : refused (sole fresh.peer f) fresh (soleFinding f) = none := by
    simp [refused, hostChanged, scopeChanged, sole, hread, hagain]
  obtain ⟨hpeerless, hclock, -⟩ := transient_peerless (hlisted.coded f hf) hkind
  have hanswered : answered fresh (soleFinding f) = true := by
    simp [answered, soleFinding, hclock]
  have hother : otherFailure (sole fresh.peer f) fresh (soleFinding f) = false := by
    have hbeside : failuresBeside fresh (soleFinding f) = [] := by
      rw [failuresBeside, List.filter_eq_nil_iff]
      intro g hg
      obtain ⟨hg, hsubject, hfail⟩ := mem_failuresOn.mp hg
      exact absurd hsubject (halone g hg hfail)
    have hpeer : failuresOnPeer (sole fresh.peer f) fresh (soleFinding f) = [] := by
      simp [failuresOnPeer, soleFinding, hpeerless]
    simp [otherFailure, hbeside, hpeer]
  have hown : judgeCause sha256 cat (sole fresh.peer f) fresh runner [] (soleFinding f) s
      = (.ok .resolved, s) := by
    have hfix : (sole fresh.peer f).fixes.lookup (soleFinding f).key = none := rfl
    have hopen : openEffect [] (soleFinding f) = none := rfl
    simp [judgeCause, judgeOwn, hanswered, hother, hfix, hopen]
  have hjudge : judge sha256 cat (sole fresh.peer f) fresh runner now (outcomesOf []) (soleFinding f) s
      = (.ok (.resolved, none), s) := by
    have hsubject : isAgreement (soleFinding f).subject = false := hcause
    simp [judge, hrefused, hsubject, outcomesOf, Assoc.update, hown]
  have hold : oldItems (sole fresh.peer f) = [soleFinding f] := by
    have hfollowed : (sole fresh.peer f).diagnoses.filter followedUp = [soleFinding f] := rfl
    have hsubject : isAgreement (soleFinding f).subject = false := hcause
    simp [oldItems, hfollowed, hsubject]
  have hjudges : Judges sha256 cat (sole fresh.peer f) fresh runner now
      (oldItems (sole fresh.peer f)) {} s ⟨[itemOf (soleFinding f) .resolved], []⟩ s := by
    rw [hold]
    exact .cons hjudge (.nil _ _)
  rw [compare, hjudges.compareFindings]

/-! ## The result -/

/-- **What is called resolved is confirmed and not found again, exactly
when every transient finding names an agreement.** -/
theorem resolved_sound_iff (sha256 : String → String) (cat : List Entry)
    (fresh : ReplicationResult) (hfresh : fresh.Interprets) :
    (∀ (σ : Type) (runner : Runner σ) (doc : Value) (p : LoadedState) (now : Now) (s s' : σ)
        (result : CompareResult), load doc = .ok p →
        compare sha256 cat p fresh runner now s = (.ok result, s') →
        Honest sha256 cat p fresh runner result)
      ↔ collectorOk fresh = false ∨ TransientsNamed fresh := by
  have hlisted := hfresh.listed
  constructor
  · intro h
    by_cases hread : collectorOk fresh = true
    · refine .inr fun f hf hkind hsubject => ?_
      by_contra hno
      obtain ⟨hcause, halone⟩ := not_or.mp hno
      obtain ⟨-, -, hcode⟩ := transient_peerless (hlisted.coded f hf) hkind
      have hcause : isAgreement f.subject = false := by simpa using hcause
      have halone : ∀ g ∈ fresh.diagnoses, g.severity = .fail → g.subject ≠ f.subject :=
        fun g hg hfail hsame => halone ⟨g, hg, hfail, hsame⟩
      let now : Now := ⟨newYear, 0, by decide⟩
      let runner : Runner Unit := { run := fun s _ _ => (.error .other, s), replay := false }
      have hresult := h Unit runner _ _ now () () _
        (sole_loaded hcode hsubject)
        (sole_judged sha256 cat fresh _ now () hlisted hread hf hkind hcause halone)
      obtain ⟨d, hd, hitem, -, hfound⟩ := hresult.item _ (List.mem_singleton_self _) rfl
      obtain rfl := List.mem_singleton.mp hd
      exact hfound hcause f hf rfl
    · exact .inl (by simpa using hread)
  · intro h σ runner doc p now s s' result hload hcompare
    rcases h with hunread | hnamed
    · obtain ⟨c, hjudges, rfl⟩ := compare_ok hcompare
      refine ⟨?_, exit_code_honest rfl⟩
      refine hjudges.items (fun i hi => (nomatch hi)) (fun d hd _ _ o since s s₁ hjudge hout => ?_)
      obtain rfl : o = .resolved := hout
      have hread := (judge_resolved hjudge).1.unchanged.read
      rw [hunread] at hread
      cases hread
    · exact compare_honest hnamed hlisted hload hcompare

namespace Nameless

def item (status : String) : Value :=
  .dict [("subject", .str "domain:peer.example"), ("consumer", .str "peer.example"),
    ("suffix_kind", .str "domain"), ("status_class", .str status), ("bind_method", .str "SIMPLE")]

def record (stepId : String) (facts : Dict) : Record :=
  { stepId := stepId, capability := "replication.local", check := stepId, title := stepId
    why := "", outcome := .pass, facts := facts }

/-- A server whose configuration names no valid host, and one agreement. -/
def trace (status : String) : Trace :=
  { records :=
      [record "server" [("realm", .str "EXAMPLE")],
        record "agreements" [("subjects", .list [item status])]]
    stopReason := "complete", startedAt := "", seconds := 0, bounds := [], checksRun := 2
    checksReused := 0, cancelled := false
    enumerations := [("agreement",
      { source := "agreements", status := .complete, subjects := ["domain:peer.example"]
        budget := 16 })] }

def result (status : String) (ds : List ReplDiagnosis) : ReplicationResult :=
  { mode := "live", generatedAt := newYear, host := .null, peer := none, trace := trace status
    diagnoses := ds, resolutions := [], relationships := [] }

theorem busy_found : returns (fun out => out.diags.any (fun f => f.kind = some .transient
    ∧ f.subject = "domain:None>peer.example") && out.diags.all (fun g => g.severity = .warn))
    (diagnose (trace "BUSY") (fun _ => none) []) = true := by
  decide

theorem ok_found : returns (fun out => decide (out.diags = []))
    (diagnose (trace "OK") (fun _ => none) []) = true := by
  decide

end Nameless

/-- The host has no valid name, and the agreement is busy both times: the
finding of before is called resolved. -/
theorem transient_called_resolved :
    ¬∀ (sha256 : String → String) (cat : List Entry) (fresh : ReplicationResult),
      fresh.Interprets → ∀ (σ : Type) (runner : Runner σ) (doc : Value) (p : LoadedState)
        (now : Now) (s s' : σ) (result : CompareResult), load doc = .ok p →
        compare sha256 cat p fresh runner now s = (.ok result, s') →
        Honest sha256 cat p fresh runner result := by
  intro h
  obtain ⟨out, hout, htest⟩ := returns_iff.mp Nameless.busy_found
  obtain ⟨hany, hall⟩ := Bool.and_eq_true_iff.mp htest
  obtain ⟨f, hf, htransient⟩ := List.any_eq_true.mp hany
  obtain ⟨hkind, hsubject⟩ := of_decide_eq_true htransient
  let fresh := Nameless.result "BUSY" out.diags
  have hfresh : fresh.Interprets := .inl ⟨_, _, out, hout, rfl⟩
  have hlisted := hfresh.listed
  obtain ⟨-, -, hcode⟩ := transient_peerless (hlisted.coded f hf) hkind
  have hshape : SUBJECT_RE.fullmatch f.subject = true := by
    rw [hsubject]
    decide +kernel
  have hcause : isAgreement f.subject = false := by
    rw [hsubject]
    decide +kernel
  have hread : collectorOk fresh = true := by
    have htrace : fresh.trace = Nameless.trace "BUSY" := rfl
    rw [collectorOk, htrace]
    decide +kernel
  have halone : ∀ g ∈ fresh.diagnoses, g.severity = .fail → g.subject ≠ f.subject := by
    intro g hg hfail
    have hwarn := of_decide_eq_true (List.all_eq_true.mp hall g hg)
    rw [hfail] at hwarn
    cases hwarn
  let now : Now := ⟨newYear, 0, by decide⟩
  let runner : Runner Unit := { run := fun s _ _ => (.error .other, s), replay := false }
  have hresult := h id [] fresh hfresh Unit runner _ _ now () () _ (sole_loaded hcode hshape)
    (sole_judged id [] fresh runner now () hlisted hread hf hkind hcause halone)
  obtain ⟨d, hd, hitem, -, hfound⟩ := hresult.item _ (List.mem_singleton_self _) rfl
  obtain rfl := List.mem_singleton.mp hd
  exact hfound hcause f hf rfl

/-- A green agreement leaves nothing transient behind. -/
theorem ok_resolved_sound : ∃ fresh : ReplicationResult, fresh.Interprets ∧ collectorOk fresh = true
      ∧ ∀ (σ : Type) (runner : Runner σ) (doc : Value) (p : LoadedState) (now : Now) (s s' : σ)
        (result : CompareResult), load doc = .ok p →
        compare id [] p fresh runner now s = (.ok result, s') →
        Honest id [] p fresh runner result := by
  obtain ⟨out, hout, hnone⟩ := returns_iff.mp Nameless.ok_found
  have hnone := of_decide_eq_true hnone
  let fresh := Nameless.result "OK" out.diags
  have hfresh : fresh.Interprets := .inl ⟨_, _, out, hout, rfl⟩
  have hread : collectorOk fresh = true := by
    have htrace : fresh.trace = Nameless.trace "OK" := rfl
    rw [collectorOk, htrace]
    decide +kernel
  refine ⟨fresh, hfresh, hread, (resolved_sound_iff id [] fresh hfresh).mpr (.inr ?_)⟩
  intro f hf
  have hmem : f ∈ out.diags := hf
  rw [hnone] at hmem
  cases hmem

end IpaDiagnose.Replication
