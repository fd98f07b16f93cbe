import IpaDiagnose.Lib.Journal
import IpaDiagnose.Replication.Confirmed

/-!
# How long a finding may be pending

The time a finding became pending is recorded in the state file, which a
later `--verify` reads again. The record of a finding that is not pending
in some run is lost when another one is, and its window starts anew
(`window_restarts`). As long as no record is lost, what is pending is
pending for the length of the window at most (`pending_bounded`).
-/

namespace IpaDiagnose.Replication

open Py (Value Dict Exc)
open Planner (Outcome Record Trace)
open Resolver (Entry Runner)
open Result

variable {σ : Type}

/-! ## What is pending -/

/-- An agreement that does not fail any more and is not confirmed yet. -/
structure Unconfirmed (p : LoadedState) (fresh : ReplicationResult) (d : Finding) : Prop where
  asked : refused p fresh d = none
  agreement : isAgreement d.subject = true
  state : agreementState p fresh d.subject = .ok .noFresh
    ∨ agreementState p fresh d.subject = .ok .transient

/-- It is waited for. -/
structure Waiting (p : LoadedState) (fresh : ReplicationResult) (now : Now) (d : Finding) : Prop
    where
  unconfirmed : Unconfirmed p fresh d
  within : waits p now d.key = true

section One

variable {sha256 : String → String} {cat : List Entry} {p : LoadedState}
  {fresh : ReplicationResult} {runner : Runner σ} {now : Now} {d : Finding} {so : Outcomes}
  {o : ItemOutcome} {since : Option (String × Timestamp.Stamp)} {s s' : σ}

theorem pendingOr_of_waits {key : String} {still : ItemOutcome} {v : Judged}
    (hwaits : waits p now key = true) (h : pendingOr p now key still = .ok v) :
    v = (.pending, some (key, (pendingSince p now key).1)) := by
  obtain ⟨until_, -, h⟩ := bind_ok.mp h
  rw [if_pos hwaits] at h
  obtain ⟨next, -, h⟩ := bind_ok.mp h
  exact (pure_ok.mp h).symm

theorem pendingOr_cases {key : String} {still : ItemOutcome} {v : Judged}
    (h : pendingOr p now key still = .ok v) : waits p now key = true ∨ v = (still, none) := by
  obtain ⟨until_, -, h⟩ := bind_ok.mp h
  split at h
  · rename_i hwaits
    exact .inl hwaits
  · exact .inr (pure_ok.mp h).symm

/-- When it is judged at all, what is waited for is pending. -/
theorem Waiting.judge (hd : Waiting p fresh now d)
    (h : judge sha256 cat p fresh runner now so d s = (.ok (o, since), s')) :
    o = .pending ∧ since = some (d.key, (pendingSince p now d.key).1) := by
  unfold Replication.judge judgeAgreement at h
  rw [hd.unconfirmed.asked] at h
  dsimp only at h
  rw [if_pos hd.unconfirmed.agreement] at h
  have hjudge := (Prod.mk.inj h).1
  rcases hd.unconfirmed.state with hstate | hstate
  · rw [hstate, ok_bind] at hjudge
    exact Prod.mk.inj (pendingOr_of_waits hd.within hjudge)
  · rw [hstate, ok_bind] at hjudge
    exact Prod.mk.inj (pendingOr_of_waits hd.within hjudge)

/-- What decides without a window is never pending. -/
theorem refused_ne_pending : refused p fresh d ≠ some .pending := by
  unfold refused
  grind

theorem judgeAgreement_waiting (hasked : refused p fresh d = none)
    (hagreement : isAgreement d.subject = true)
    (h : judgeAgreement p fresh now d = .ok (o, since)) (hout : o = .pending ∨ since.isSome) :
    Waiting p fresh now d := by
  unfold judgeAgreement at h
  obtain ⟨state, hstate, h⟩ := bind_ok.mp h
  have hpending {still : ItemOutcome} (hstill : still ≠ .pending)
      (h : pendingOr p now d.key still = .ok (o, since)) : waits p now d.key = true := by
    refine (pendingOr_cases h).resolve_right fun heq => ?_
    obtain ⟨rfl, rfl⟩ := Prod.mk.inj heq
    rcases hout with hout | hsome
    · exact hstill hout
    · cases hsome
  have hother {v : Judged} (hv : v.1 ≠ .pending ∧ v.2 = none) (h : v = (o, since)) :
      Waiting p fresh now d := by
    subst h
    rcases hout with hout | hsome
    · exact absurd hout hv.1
    · have hnone : since = none := hv.2
      rw [hnone] at hsome
      cases hsome
  cases state with
  | noFresh =>
      exact ⟨⟨hasked, hagreement, .inl hstate⟩, hpending (by decide) h⟩
  | transient =>
      exact ⟨⟨hasked, hagreement, .inr hstate⟩, hpending (by decide) h⟩
  | ok =>
      refine hother ⟨?_, rfl⟩ (pure_ok.mp h)
      dsimp only
      split
      · decide
      · decide
  | failing =>
      dsimp only at h
      split at h
      · exact hother ⟨by decide, rfl⟩ (pure_ok.mp h)
      · exact hother ⟨by decide, rfl⟩ (pure_ok.mp h)
  | unobserved => exact hother ⟨by decide, rfl⟩ (pure_ok.mp h)

theorem judgeFix_ne_pending {fix : Value} :
    judgeFix sha256 cat fix runner s ≠ (.ok .pending, s') := by
  unfold judgeFix
  grind

theorem judgeOwn_ne_pending : judgeOwn sha256 cat p fresh runner d s ≠ (.ok .pending, s') := by
  intro h
  unfold judgeOwn at h
  split at h
  · cases h
  · split at h
    · cases h
    · split at h
      · cases h
      · cases h
      · exact judgeFix_ne_pending h

/-- A cause is only pending for something it explained. -/
theorem judgeCause_pending (h : judgeCause sha256 cat p fresh runner so d s = (.ok .pending, s')) :
    openEffect so d = some .pending := by
  unfold judgeCause at h
  split at h
  · have ho := Except.ok.inj (Prod.mk.inj h).1
    cases hopen : openEffect so d with
    | none =>
        rw [hopen] at ho
        cases ho
    | some o =>
        rw [hopen] at ho
        exact congrArg some ho
  · exact absurd h judgeOwn_ne_pending

theorem judge_waiting
    (h : judge sha256 cat p fresh runner now so d s = (.ok (o, since), s')) :
    (since.isSome → Waiting p fresh now d)
      ∧ (o = .pending → Waiting p fresh now d ∨ ∃ x ∈ d.explains, so.lookup x = some .pending) := by
  unfold judge at h
  split at h
  · rename_i o' hrefused
    obtain ⟨rfl, rfl⟩ := Prod.mk.inj (Except.ok.inj (Prod.mk.inj h).1)
    refine ⟨fun hsome => (nomatch hsome), fun hout => ?_⟩
    rw [hout] at hrefused
    exact absurd hrefused refused_ne_pending
  · rename_i hasked
    split at h
    · rename_i hagreement
      have hjudge := (Prod.mk.inj h).1
      exact ⟨fun hsome => judgeAgreement_waiting hasked hagreement hjudge (.inr hsome),
        fun hout => .inl (judgeAgreement_waiting hasked hagreement hjudge (.inl hout))⟩
    · split at h
      · cases h
      · rename_i o' s₁ hcause
        obtain ⟨rfl, rfl⟩ := Prod.mk.inj (Except.ok.inj (Prod.mk.inj h).1)
        refine ⟨fun hsome => (nomatch hsome), fun hout => .inr ?_⟩
        rw [hout] at hcause
        obtain ⟨x, hx, hlookup⟩ := List.exists_of_findSome?_eq_some (judgeCause_pending hcause)
        refine ⟨x, hx, ?_⟩
        cases hso : so.lookup x with
        | none =>
            rw [hso] at hlookup
            cases hlookup
        | some o' =>
            rw [hso] at hlookup
            cases o' with
            | pending => rfl
            | _ => cases hlookup

end One

/-! ## What a comparison records -/

section Compare

variable {sha256 : String → String} {cat : List Entry} {p : LoadedState}
  {fresh : ReplicationResult} {runner : Runner σ} {now : Now} {ds : List Finding}
  {c c' : Compared} {s s' : σ} {result : CompareResult}

theorem Compared.add_pending (c : Compared) (d : Finding) (o : ItemOutcome) (k : String)
    (t : Timestamp.Stamp) : (c.add d o (some (k, t))).pending = Assoc.put k t c.pending := rfl

theorem Compared.add_none (c : Compared) (d : Finding) (o : ItemOutcome) :
    (c.add d o none).pending = c.pending := rfl

theorem keys_add {k : String} (d : Finding) (o : ItemOutcome)
    (since : Option (String × Timestamp.Stamp)) (h : k ∈ Assoc.keys c.pending) :
    k ∈ Assoc.keys (c.add d o since).pending := by
  cases since with
  | none => exact h
  | some x => exact Assoc.mem_keys_put.mpr (.inr h)

theorem Judges.keys_grow {k : String} (h : Judges sha256 cat p fresh runner now ds c s c' s')
    (hk : k ∈ Assoc.keys c.pending) : k ∈ Assoc.keys c'.pending := by
  induction h with
  | nil c s => exact hk
  | cons first rest ih => exact ih (keys_add _ _ _ hk)

theorem Judges.nodup_keys (h : Judges sha256 cat p fresh runner now ds c s c' s')
    (hc : (Assoc.keys c.pending).Nodup) : (Assoc.keys c'.pending).Nodup := by
  induction h with
  | nil c s => exact hc
  | @cons d ds c c' o since s s₁ s' first rest ih =>
      refine ih ?_
      cases since with
      | none => exact hc
      | some x => exact Assoc.nodup_keys_put hc

/-- Of a finding that is waited for it is recorded since when. -/
def OnRecord (p : LoadedState) (fresh : ReplicationResult) (now : Now) (ds : List Finding)
    (x : String × Timestamp.Stamp) : Prop :=
  ∃ d ∈ ds, Waiting p fresh now d ∧ x = (d.key, (pendingSince p now d.key).1)

theorem Judges.recorded {all : List Finding}
    (h : Judges sha256 cat p fresh runner now ds c s c' s') (hall : ∀ d ∈ ds, d ∈ all)
    (hc : ∀ x ∈ c.pending, OnRecord p fresh now all x) :
    ∀ x ∈ c'.pending, OnRecord p fresh now all x := by
  induction h with
  | nil c s => exact hc
  | @cons d ds c c' o since s s₁ s' first rest ih =>
      refine ih (fun e he => hall e (List.mem_cons_of_mem _ he)) ?_
      cases since with
      | none => exact hc
      | some x =>
          have hwaiting := (judge_waiting first).1 rfl
          obtain rfl := Option.some.inj (hwaiting.judge first).2
          intro y hy
          rcases Assoc.mem_put hy with rfl | hy
          · exact ⟨d, hall d List.mem_cons_self, hwaiting, rfl⟩
          · exact hc y hy

theorem compare_recorded (h : compare sha256 cat p fresh runner now s = (.ok result, s')) :
    ∀ x ∈ result.pending, OnRecord p fresh now (oldItems p) x := by
  obtain ⟨c, hjudges, rfl⟩ := compare_ok h
  exact hjudges.recorded (fun d hd => hd) fun x hx => (nomatch hx)

theorem compare_lookup (h : compare sha256 cat p fresh runner now s = (.ok result, s'))
    {d : Finding} (hd : d ∈ oldItems p) (hwaiting : Waiting p fresh now d) :
    result.pending.lookup d.key = some (pendingSince p now d.key).1 := by
  have hrecorded := compare_recorded h
  obtain ⟨c, hjudges, rfl⟩ := compare_ok h
  have hkey : d.key ∈ Assoc.keys c.pending := by
    obtain ⟨pre, post, hold⟩ := List.append_of_mem hd
    rw [hold] at hjudges
    obtain ⟨c₁, s₁, o, since, s₂, -, hjudge, hpost⟩ := hjudges.at
    obtain ⟨-, rfl⟩ := hwaiting.judge hjudge
    exact hpost.keys_grow (Assoc.mem_keys_put.mpr (.inl rfl))
  obtain ⟨t, ht⟩ := Assoc.mem_keys.mp hkey
  obtain ⟨e, -, -, hx⟩ := hrecorded _ ht
  obtain ⟨hsame, rfl⟩ := Prod.mk.inj hx
  rw [hsame]
  exact Assoc.lookup_of_mem (hjudges.nodup_keys List.nodup_nil) (hsame ▸ ht)

theorem compare_reports (h : compare sha256 cat p fresh runner now s = (.ok result, s'))
    {d : Finding} (hd : d ∈ oldItems p) (hwaiting : Waiting p fresh now d) :
    ∃ i ∈ result.items, i.outcome = .pending := by
  obtain ⟨c, hjudges, rfl⟩ := compare_ok h
  obtain ⟨pre, post, hold⟩ := List.append_of_mem hd
  rw [hold] at hjudges
  obtain ⟨c₁, s₁, o, since, s₂, -, hjudge, hpost⟩ := hjudges.at
  obtain ⟨rfl, rfl⟩ := hwaiting.judge hjudge
  obtain ⟨more, hmore, -⟩ := hpost.grows
  refine ⟨itemOf d .pending, ?_, rfl⟩
  rw [hmore, Compared.add_items]
  simp

/-- Something is only pending if some finding is waited for. -/
theorem compare_waiting (h : compare sha256 cat p fresh runner now s = (.ok result, s'))
    {i : VerifyItem} (hi : i ∈ result.items) (hout : i.outcome = .pending) :
    ∃ d ∈ oldItems p, Waiting p fresh now d := by
  obtain ⟨c, hjudges, rfl⟩ := compare_ok h
  refine hjudges.items (P := fun i => i.outcome = .pending →
    ∃ d ∈ oldItems p, Waiting p fresh now d) (fun i hi => (nomatch hi)) ?_ i hi hout
  intro d hd before hbefore o since s s₁ hjudge hout
  rcases (judge_waiting hjudge).2 hout with hwaiting | ⟨x, -, hlookup⟩
  · exact ⟨d, hd, hwaiting⟩
  · obtain ⟨j, hj, -, hjout⟩ := outcomesOf_some hlookup
    exact hbefore j hj hjout

theorem oldItems_length (p : LoadedState) : (oldItems p).length ≤ p.diagnoses.length := by
  have hperm : (oldItems p).Perm (p.diagnoses.filter followedUp) := List.filter_append_perm _ _
  rw [hperm.length_eq]
  exact List.length_filter_le _ _

/-- There are no more records than saved findings. -/
theorem compare_pending_length
    (h : compare sha256 cat p fresh runner now s = (.ok result, s')) :
    result.pending.length ≤ p.diagnoses.length := by
  have hrecorded := compare_recorded h
  obtain ⟨c, hjudges, rfl⟩ := compare_ok h
  have hsub : Assoc.keys c.pending ⊆ (oldItems p).map Finding.key := by
    intro k hk
    obtain ⟨t, ht⟩ := Assoc.mem_keys.mp hk
    obtain ⟨d, hd, -, hx⟩ := hrecorded _ ht
    rw [(Prod.mk.inj hx).1]
    exact List.mem_map_of_mem hd
  have hle := (List.subperm_of_subset (hjudges.nodup_keys List.nodup_nil) hsub).length_le
  rw [Assoc.keys, List.length_map, List.length_map] at hle
  exact hle.trans (oldItems_length p)

end Compare

/-! ## The state file -/

def CompareResult.outcomes (result : CompareResult) : List ItemOutcome :=
  result.items.map VerifyItem.outcome

/-- The document with the pending findings of this run. -/
def withPending (pending : List (String × Timestamp.Stamp)) : Value → Value
  | .dict doc => .dict (Assoc.put "pending" (pendingDoc pending) doc)
  | v => v

/-- Everything is resolved: the fresh result is what is compared with from now on. -/
def replacesBaseline (result : CompareResult) : Bool :=
  !result.outcomes.any fun o => o != .resolved

/-- The state file after a comparison. -/
def afterVerify (doc : Value) (fresh : ReplicationResult) (result : CompareResult) : Value :=
  if result.outcomes.contains .pending then withPending result.pending doc
  else if replacesBaseline result then toState fresh []
  else doc

structure VerifyRun where
  now : Now
  fresh : ReplicationResult
  result : CompareResult

def VerifyRun.Reports (e : VerifyRun) (key : String) (o : ItemOutcome) : Prop :=
  ∃ i ∈ e.result.items, i.key = key ∧ i.outcome = o

/-- A run that compares with the state file, and leaves the saved result there. -/
structure Verified (sha256 : String → String) (cat : List Entry) (runner : Runner σ) (doc : Value)
    (e : VerifyRun) (doc' : Value) : Prop where
  compared : ∃ p s s', load doc = .ok p
    ∧ compare sha256 cat p e.fresh runner e.now s = (.ok e.result, s')
  kept : replacesBaseline e.result = false
  saved : doc' = afterVerify doc e.fresh e.result

/-- When something is waited for, so is everything on record, each within its window. -/
def KeepsRecords (p : LoadedState) (fresh : ReplicationResult) (now : Now) : Prop :=
  (∃ d ∈ oldItems p, Waiting p fresh now d) →
    ∀ k ∈ Assoc.keys p.pending, ∃ d ∈ oldItems p, d.key = k ∧ Waiting p fresh now d

section Runs

variable {sha256 : String → String} {cat : List Entry} {runner : Runner σ} {doc doc' : Value}
  {e : VerifyRun}

theorem Verified.cases (h : Verified sha256 cat runner doc e doc') :
    ∃ p s s', load doc = .ok p
      ∧ compare sha256 cat p e.fresh runner e.now s = (.ok e.result, s')
      ∧ (((∃ i ∈ e.result.items, i.outcome = .pending)
            ∧ load doc' = .ok { p with pending := e.result.pending })
          ∨ (∀ i ∈ e.result.items, i.outcome ≠ .pending) ∧ doc' = doc) := by
  obtain ⟨p, s, s', hload, hcompare⟩ := h.compared
  refine ⟨p, s, s', hload, hcompare, ?_⟩
  have hsaved := h.saved
  unfold afterVerify at hsaved
  split at hsaved
  · rename_i hpending
    obtain ⟨i, hi, hout⟩ := List.mem_map.mp (List.contains_iff_mem.mp hpending)
    refine .inl ⟨⟨i, hi, hout⟩, ?_⟩
    obtain ⟨d, rfl, hreads⟩ := load_iff.mp hload
    rw [hsaved]
    refine load_iff.mpr ⟨_, rfl, hreads.withPending ?_⟩
    exact (compare_pending_length hcompare).trans (load_bounded hload)
  · rename_i hpending
    rw [h.kept, if_neg Bool.false_ne_true] at hsaved
    refine .inr ⟨fun i hi hout => hpending ?_, hsaved⟩
    exact List.contains_iff_mem.mpr (List.mem_map.mpr ⟨i, hi, hout⟩)

/-- Nothing on record is later than some time. -/
def NotLater (doc : Value) (time : Nat) : Prop :=
  ∀ p, load doc = .ok p → ∀ x ∈ p.pending, x.2.seconds * 1000000 ≤ time

theorem pendingSince_le {p : LoadedState} {now : Now} {key : String} {time : Nat}
    (h : ∀ x ∈ p.pending, x.2.seconds * 1000000 ≤ time) (hnow : now.time ≤ time) :
    (pendingSince p now key).1.seconds * 1000000 ≤ time := by
  unfold pendingSince
  cases hlookup : p.pending.lookup key with
  | none =>
      rw [Now.time] at hnow
      exact (Nat.le_add_right _ _).trans hnow
  | some t => exact h (key, t) (Assoc.mem_of_lookup hlookup)

theorem Verified.notLater (h : Verified sha256 cat runner doc e doc') {time : Nat}
    (hdoc : NotLater doc time) (hnow : e.now.time ≤ time) : NotLater doc' time := by
  obtain ⟨p, s, s', hload, hcompare, ⟨-, hload'⟩ | ⟨-, rfl⟩⟩ := h.cases
  · intro p' hp' x hx
    obtain rfl := Except.ok.inj (hload'.symm.trans hp')
    obtain ⟨d, -, -, rfl⟩ := compare_recorded hcompare x hx
    exact pendingSince_le (hdoc p hload) hnow
  · exact hdoc

/-- A finding is on record since a time, or an earlier one. -/
def OnRecordSince (time : Nat) (key : String) (doc : Value) : Prop :=
  ∃ p t, load doc = .ok p ∧ p.pending.lookup key = some t ∧ t.seconds * 1000000 ≤ time

theorem Verified.onRecord (h : Verified sha256 cat runner doc e doc') {p : LoadedState}
    (hload : load doc = .ok p) {d : Finding} (hd : d ∈ oldItems p)
    (hwaiting : Waiting p e.fresh e.now d) :
    ∃ p', load doc' = .ok p' ∧ p'.pending.lookup d.key = some (pendingSince p e.now d.key).1 := by
  obtain ⟨p', s, s', hload', hcompare, hcase⟩ := h.cases
  obtain rfl := Except.ok.inj (hload.symm.trans hload')
  have hlookup := compare_lookup hcompare hd hwaiting
  rcases hcase with ⟨-, hsaved⟩ | ⟨hnone, -⟩
  · exact ⟨_, hsaved, hlookup⟩
  · obtain ⟨i, hi, hout⟩ := compare_reports hcompare hd hwaiting
    exact absurd hout (hnone i hi)

/-- What is on record stays there, as long as no record is lost. -/
theorem Verified.keeps (h : Verified sha256 cat runner doc e doc')
    (hkeeps : ∀ p, load doc = .ok p → KeepsRecords p e.fresh e.now) {time : Nat} {key : String}
    (hrecord : OnRecordSince time key doc) : OnRecordSince time key doc' := by
  obtain ⟨p, t, hload, hlookup, htime⟩ := hrecord
  obtain ⟨p', s, s', hload', hcompare, ⟨⟨i, hi, hout⟩, hsaved⟩ | ⟨-, rfl⟩⟩ := h.cases
  · obtain rfl := Except.ok.inj (hload.symm.trans hload')
    have hkey : key ∈ Assoc.keys p.pending := Assoc.mem_keys.mpr ⟨t, Assoc.mem_of_lookup hlookup⟩
    obtain ⟨d, hd, rfl, hwaiting⟩ :=
      hkeeps p hload (compare_waiting hcompare hi hout) key hkey
    have hsince : (pendingSince p e.now d.key).1 = t := by rw [pendingSince, hlookup]
    exact ⟨_, t, hsaved, by rw [← hsince]; exact compare_lookup hcompare hd hwaiting, htime⟩
  · exact ⟨p, t, hload, hlookup, htime⟩

/-- When something is pending, what is on record is within its window. -/
theorem Verified.within (h : Verified sha256 cat runner doc e doc')
    (hkeeps : ∀ p, load doc = .ok p → KeepsRecords p e.fresh e.now) {time : Nat}
    {key reported : String} (hrecord : OnRecordSince time key doc)
    (hreport : e.Reports reported .pending) :
    e.now.time < time + CONVERGENCE_WINDOW * 1000000 := by
  obtain ⟨p, t, hload, hlookup, htime⟩ := hrecord
  obtain ⟨p', s, s', hload', hcompare⟩ := h.compared
  obtain rfl := Except.ok.inj (hload.symm.trans hload')
  obtain ⟨i, hi, -, hout⟩ := hreport
  have hkey : key ∈ Assoc.keys p.pending := Assoc.mem_keys.mpr ⟨t, Assoc.mem_of_lookup hlookup⟩
  obtain ⟨d, -, rfl, hwaiting⟩ := hkeeps p hload (compare_waiting hcompare hi hout) key hkey
  have hwithin := of_decide_eq_true hwaiting.within
  rw [pendingSince, hlookup] at hwithin
  exact lt_of_lt_of_le hwithin (Nat.add_le_add_right htime _)

/-- Something pending leaves a record. -/
theorem Verified.records (h : Verified sha256 cat runner doc e doc') {key : String}
    (hdoc : NotLater doc e.now.time) (hreport : e.Reports key .pending) :
    ∃ k, OnRecordSince e.now.time k doc' := by
  obtain ⟨p, s, s', hload, hcompare⟩ := h.compared
  obtain ⟨i, hi, -, hout⟩ := hreport
  obtain ⟨d, hd, hwaiting⟩ := compare_waiting hcompare hi hout
  obtain ⟨p', hload', hlookup⟩ := h.onRecord hload hd hwaiting
  exact ⟨d.key, p', _, hload', hlookup, pendingSince_le (hdoc p hload) le_rfl⟩

end Runs

/-- A run of `--verify` that loses no record. -/
structure VerifiedKeeping (sha256 : String → String) (cat : List Entry) (runner : Runner σ)
    (doc : Value) (e : VerifyRun) (doc' : Value) : Prop where
  verified : Verified sha256 cat runner doc e doc'
  keeps : ∀ p, load doc = .ok p → KeepsRecords p e.fresh e.now

theorem runs_notLater {sha256 : String → String} {cat : List Entry} {runner : Runner σ}
    {doc doc' : Value} {es : List VerifyRun} {time : Nat}
    (h : Journal.Emits (VerifiedKeeping sha256 cat runner) doc es doc') (hdoc : NotLater doc time)
    (htimes : ∀ e ∈ es, e.now.time ≤ time) : NotLater doc' time := by
  induction h with
  | nil doc => exact hdoc
  | @cons doc doc₁ doc₂ e es first rest ih =>
      have hfirst := first.verified.notLater hdoc (htimes e List.mem_cons_self)
      exact ih hfirst fun x hx => htimes x (List.mem_cons_of_mem _ hx)

/-- **What is pending is pending for the length of the window at most, in
every sequence of runs that loses no record.** -/
theorem pending_bounded (sha256 : String → String) (cat : List Entry) (runner : Runner σ)
    {doc doc' : Value} (before mid after : List VerifyRun) {e₁ e₂ : VerifyRun} {key : String}
    (hrun : Journal.Emits (VerifiedKeeping sha256 cat runner) doc
      (before ++ e₁ :: (mid ++ e₂ :: after)) doc')
    (htimes : (before ++ e₁ :: (mid ++ e₂ :: after)).Pairwise fun e e' => e.now.time < e'.now.time)
    (hstart : ∀ e ∈ before ++ e₁ :: (mid ++ e₂ :: after), NotLater doc e.now.time)
    (h₁ : e₁.Reports key .pending) (h₂ : e₂.Reports key .pending) :
    e₂.now.time < e₁.now.time + CONVERGENCE_WINDOW * 1000000 := by
  obtain ⟨doc₁, doc₁', hbefore, hfirst, hrest⟩ := hrun.fired
  obtain ⟨doc₂, doc₂', hmid, hsecond, -⟩ := hrest.fired
  have hearlier : ∀ e ∈ before, e.now.time ≤ e₁.now.time := fun e he =>
    le_of_lt ((List.pairwise_append.mp htimes).2.2 e he e₁ List.mem_cons_self)
  have hnotLater := runs_notLater hbefore (hstart e₁ (by simp)) hearlier
  obtain ⟨k, hrecord⟩ := hfirst.verified.records hnotLater h₁
  have hkept : OnRecordSince e₁.now.time k doc₂ :=
    Journal.Emits.inv (I := OnRecordSince e₁.now.time k)
      (fun _ _ _ hrecord hstep => hstep.verified.keeps hstep.keeps hrecord) hmid hrecord
  exact hsecond.verified.within hsecond.keeps hkept h₂

/-! ## A direction that is not seen in between -/

namespace Unseen

def record (stepId : String) (outcome : Outcome) (facts : Dict) : Record :=
  { stepId := stepId, capability := "replication.local", check := stepId, title := stepId
    why := "", outcome := outcome, facts := facts }

def lastEnd : Value := .str "2025-12-31T23:59:00Z"

/-- An agreement without a session since the saved result; its reverse
direction is read, or not. -/
def trace (read : Outcome) : Trace :=
  { records :=
      [record "server" .pass [("host", .str "ipa1.example"), ("realm", .str "EXAMPLE")],
        record "agreements" .pass [("subjects", .list [.dict [("subject", .str "domain:peer.example"),
          ("consumer", .str "peer.example"), ("suffix_kind", .str "domain"),
          ("status_class", .str "OK"), ("bind_method", .str "SIMPLE"),
          ("last_update_end", lastEnd)]])],
        { record "reverse@domain:peer.example" read [("last_update_end", lastEnd)] with
          subject := some "domain:peer.example", baseStep := some "reverse" }]
    stopReason := "complete", startedAt := "", seconds := 0, bounds := [], checksRun := 3
    checksReused := 0, cancelled := false
    enumerations := [("agreement",
      { source := "agreements", status := .complete, subjects := ["domain:peer.example"]
        budget := 16 })] }

def forth : Finding :=
  { code := "REPLICATION_FAILING", subject := "domain:ipa1.example>peer.example", severity := .fail
    kind := none, explains := [], evidence := ["agreements"] }

def back : Finding :=
  { code := "REVERSE_REPLICATION_FAILING", subject := "domain:peer.example>ipa1.example"
    severity := .fail, kind := none, explains := [], evidence := ["reverse@domain:peer.example"] }

def reverseState (read : Outcome) : Value := .str (if read = .pass then "OK" else "UNKNOWN")

def fresh (read : Outcome) : ReplicationResult :=
  { mode := "live", generatedAt := newYear, host := .str "ipa1.example", peer := none
    trace := trace read, diagnoses := [], resolutions := [], keyed := no_keys
    relationships :=
      [{ subject := forth.subject, inbound := false, state := .str "OK"
         lastUpdateEnd := lastEnd, updateInProgress := .null },
        { subject := back.subject, inbound := true, state := reverseState read
          lastUpdateEnd := lastEnd, updateInProgress := .null }] }

theorem fresh_investigated (read : Outcome) (h : read = .pass ∨ read = .unknown) :
    (fresh read).Investigated := by
  have hreturns : returns (fun out => decide (out.diags = [])
      && returns (fun rs => decide (rs = (fresh read).relationships))
        (Replication.relationships (trace read) (.str "ipa1.example") out.reverse))
      (diagnose (trace read) (fun _ => none) []) = true := by
    rcases h with rfl | rfl
    · decide
    · decide
  obtain ⟨out, hout, htest⟩ := returns_iff.mp hreturns
  obtain ⟨hdiags, hrels⟩ := Bool.and_eq_true_iff.mp htest
  obtain ⟨rs, hrs, hsame⟩ := returns_iff.mp hrels
  refine ⟨_, _, out, hout, (of_decide_eq_true hdiags).symm, ?_⟩
  rw [← of_decide_eq_true hsame]
  exact hrs

def doc : Value :=
  .dict [("state_version", .int STATE_VERSION), ("kind", .str STATE_KIND),
    ("generated_at", .str newYear.text), ("host", .str "ipa1.example"),
    ("inputs", .dict [("peer", .null)]),
    ("diagnoses", .list ([forth, back].map fun d => .dict [("code", .str d.code),
      ("subject", .str d.subject), ("severity", .str "FAIL"), ("kind", .null),
      ("explains", texts d.explains), ("evidence", texts d.evidence)])),
    ("pending", .dict [])]

def saved (pending : List (String × Timestamp.Stamp)) : LoadedState :=
  { generatedAt := newYear, host := some "ipa1.example", diagnoses := [forth, back]
    relationships := [], fixes := [], pending := pending, peer := none }

def runner : Runner Unit := { run := fun s _ _ => (.error .other, s), replay := false }

/-- So many minutes into the year. -/
def minute (m : Nat) (h : m < 60) : Timestamp.Stamp :=
  ⟨⟨2026, 1, 1, 0, m, 0⟩, ⟨by simp, by simp, by simp [Timestamp.monthLength], by simp, h, by simp⟩⟩

def at5 : Timestamp.Stamp := minute 5 (by decide)

def at17 : Timestamp.Stamp := minute 17 (by decide)

/-- Both directions wait for a session. -/
def first : VerifyRun :=
  { now := ⟨at5, 0, zero_in_second⟩, fresh := fresh .pass
    result := ⟨[itemOf forth .pending, itemOf back .pending], [],
      [(forth.key, at5), (back.key, at5)]⟩ }

/-- The reverse direction is not read. -/
def second : VerifyRun :=
  { now := ⟨minute 10 (by decide), 0, zero_in_second⟩, fresh := fresh .unknown
    result := ⟨[itemOf forth .pending, itemOf back .unableToVerify], [], [(forth.key, at5)]⟩ }

/-- It is read, and there still was no session. -/
def again : VerifyRun :=
  { now := ⟨minute 10 (by decide), 0, zero_in_second⟩, fresh := fresh .pass
    result := ⟨[itemOf forth .pending, itemOf back .pending], [],
      [(forth.key, at5), (back.key, at5)]⟩ }

/-- It is read again, after it was not. -/
def third : VerifyRun :=
  { now := ⟨at17, 0, zero_in_second⟩, fresh := fresh .pass
    result := ⟨[itemOf forth .unableToVerify, itemOf back .pending], [], [(back.key, at17)]⟩ }

def doc₁ : Value := afterVerify doc first.fresh first.result

def doc₂ : Value := afterVerify doc₁ second.fresh second.result

theorem doc_loaded : load doc = .ok (saved []) := by decide

theorem first_verified : Verified id [] runner doc first doc₁ := by
  refine ⟨⟨saved [], (), (), doc_loaded, ?_⟩, by decide, rfl⟩
  decide

theorem doc₁_loaded : load doc₁ = .ok (saved first.result.pending) := by decide

theorem second_verified : Verified id [] runner doc₁ second doc₂ := by
  refine ⟨⟨_, (), (), doc₁_loaded, ?_⟩, by decide, rfl⟩
  decide

theorem again_verified :
    Verified id [] runner doc₁ again (afterVerify doc₁ again.fresh again.result) := by
  refine ⟨⟨_, (), (), doc₁_loaded, ?_⟩, by decide, rfl⟩
  decide

theorem again_waiting : ∀ d ∈ [forth, back], Waiting (saved first.result.pending) (fresh .pass)
    again.now d := by
  have hall : ∀ d ∈ [forth, back], refused (saved first.result.pending) (fresh .pass) d = none
      ∧ isAgreement d.subject = true
      ∧ returns (fun st => decide (st = .noFresh))
        (agreementState (saved first.result.pending) (fresh .pass) d.subject) = true
      ∧ waits (saved first.result.pending) again.now d.key = true := by
    decide
  intro d hd
  obtain ⟨hasked, hagreement, hstate, hwithin⟩ := hall d hd
  obtain ⟨state, hstate, htest⟩ := returns_iff.mp hstate
  rw [of_decide_eq_true htest] at hstate
  exact ⟨⟨hasked, hagreement, .inl hstate⟩, hwithin⟩

theorem doc₂_loaded : load doc₂ = .ok (saved second.result.pending) := by decide

theorem third_verified :
    Verified id [] runner doc₂ third (afterVerify doc₂ third.fresh third.result) := by
  refine ⟨⟨_, (), (), doc₂_loaded, ?_⟩, by decide, rfl⟩
  decide

end Unseen

/-- Its record is lost in between, and it is still pending after 12 minutes. -/
theorem window_restarts :
    ¬∀ (sha256 : String → String) (cat : List Entry) (runner : Runner Unit) (doc doc' : Value)
        (before mid after : List VerifyRun) (e₁ e₂ : VerifyRun) (key : String),
      (∃ p, load doc = .ok p ∧ p.pending = []) →
      Journal.Emits (Verified sha256 cat runner) doc (before ++ e₁ :: (mid ++ e₂ :: after)) doc' →
      (before ++ e₁ :: (mid ++ e₂ :: after)).Pairwise (fun e e' => e.now.time < e'.now.time) →
      (∀ e ∈ before ++ e₁ :: (mid ++ e₂ :: after), e.fresh.Investigated) →
      e₁.Reports key .pending → e₂.Reports key .pending →
      e₂.now.time < e₁.now.time + CONVERGENCE_WINDOW * 1000000 := by
  intro h
  have hseen := Unseen.fresh_investigated .pass (.inl rfl)
  have hunseen := Unseen.fresh_investigated .unknown (.inr rfl)
  have hrun : Journal.Emits (Verified id [] Unseen.runner) Unseen.doc
      [Unseen.first, Unseen.second, Unseen.third] _ :=
    .cons Unseen.first_verified (.cons Unseen.second_verified (.one Unseen.third_verified))
  have hlate := h id [] Unseen.runner _ _ [] [Unseen.second] [] Unseen.first Unseen.third
    Unseen.back.key ⟨_, Unseen.doc_loaded, rfl⟩ hrun (by decide +kernel)
    (fun e he => by
      simp only [List.nil_append, List.cons_append, List.mem_cons, List.not_mem_nil, or_false] at he
      rcases he with rfl | rfl | rfl
      · exact hseen
      · exact hunseen
      · exact hseen)
    ⟨_, List.mem_cons_of_mem _ List.mem_cons_self, rfl, rfl⟩
    ⟨_, List.mem_cons_of_mem _ List.mem_cons_self, rfl, rfl⟩
  revert hlate
  decide +kernel

/-- Within the window both directions are waited for, and both records are kept. -/
theorem window_kept :
    Unseen.again.now.time < Unseen.first.now.time + CONVERGENCE_WINDOW * 1000000 := by
  have hfirst : VerifiedKeeping id [] Unseen.runner Unseen.doc Unseen.first Unseen.doc₁ := by
    refine ⟨Unseen.first_verified, fun p hload _ k hk => ?_⟩
    obtain rfl := Except.ok.inj (Unseen.doc_loaded.symm.trans hload)
    cases hk
  have hagain : VerifiedKeeping id [] Unseen.runner Unseen.doc₁ Unseen.again
      (afterVerify Unseen.doc₁ Unseen.again.fresh Unseen.again.result) := by
    refine ⟨Unseen.again_verified, fun p hload _ k hk => ?_⟩
    obtain rfl := Except.ok.inj (Unseen.doc₁_loaded.symm.trans hload)
    have hkey : k = Unseen.forth.key ∨ k = Unseen.back.key := by
      simpa [Assoc.keys, Unseen.saved, Unseen.first] using hk
    rcases hkey with rfl | rfl
    · exact ⟨_, by decide +kernel, rfl, Unseen.again_waiting _ List.mem_cons_self⟩
    · exact ⟨_, by decide +kernel, rfl,
        Unseen.again_waiting _ (List.mem_cons_of_mem _ List.mem_cons_self)⟩
  have hstart : ∀ e ∈ [Unseen.first, Unseen.again], NotLater Unseen.doc e.now.time := by
    intro e _ p hload x hx
    obtain rfl := Except.ok.inj (Unseen.doc_loaded.symm.trans hload)
    cases hx
  exact pending_bounded id [] Unseen.runner [] [] []
    (.cons hfirst (.one hagain)) (by decide +kernel) hstart
    ⟨itemOf Unseen.forth .pending, List.mem_cons_self, rfl, rfl⟩
    ⟨itemOf Unseen.forth .pending, List.mem_cons_self, rfl, rfl⟩

end IpaDiagnose.Replication
