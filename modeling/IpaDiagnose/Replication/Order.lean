import IpaDiagnose.Replication.Confirmed
import IpaDiagnose.Resolution.Steady

/-!
# Causes wait for the agreements they explained

Agreements are judged before causes, so a cause is not called resolved
before every agreement it explained, in whatever order the findings were
saved (`cause_after_agreements`). Between causes there is no such order:
one that was saved first does not wait for those it explained
(`cause_before_cause`).
-/

namespace IpaDiagnose.Replication

open Py (Value Dict Exc)
open Planner (Outcome Record Trace)
open Resolver (Entry Runner SameAnswer rebuildVerify_same evaluateVerify_same)
open Result

variable {σ : Type}

/-! ## What decides for one finding -/

section One

variable {sha256 : String → String} {cat : List Entry} {p : LoadedState}
  {fresh : ReplicationResult} {runner : Runner σ} {now : Now} {d e : Finding} {so so' : Outcomes}

theorem openEffect_none (h : openEffect so d = none) :
    ∀ x ∈ d.explains, ∀ o, so.lookup x = some o → o = .resolved := by
  intro x hx o ho
  have hnone := List.findSome?_eq_none_iff.mp h x hx
  rw [ho] at hnone
  cases o with
  | resolved => rfl
  | _ => cases hnone

theorem openEffect_congr (h : ∀ x ∈ d.explains, so.lookup x = so'.lookup x) :
    openEffect so d = openEffect so' d := by
  unfold openEffect
  generalize d.explains = xs at h
  induction xs with
  | nil => rfl
  | cons x xs ih =>
      rw [List.findSome?_cons, List.findSome?_cons, h x List.mem_cons_self,
        ih fun y hy => h y (List.mem_cons_of_mem _ hy)]

/-- An agreement is judged by itself, and no check is asked for it. -/
def agreementVerdict (p : LoadedState) (fresh : ReplicationResult) (now : Now) (d : Finding) :
    Except Resolver.E Judged :=
  match refused p fresh d with
  | some o => .ok (o, none)
  | none => judgeAgreement p fresh now d

theorem judge_agreement (h : isAgreement d.subject = true) (s : σ) :
    judge sha256 cat p fresh runner now so d s = (agreementVerdict p fresh now d, s) := by
  unfold judge agreementVerdict
  cases refused p fresh d with
  | some o => rfl
  | none => exact if_pos h

theorem agreementVerdict_congr (hkey : d.key = e.key) (hsubject : d.subject = e.subject) :
    agreementVerdict p fresh now d = agreementVerdict p fresh now e := by
  simp only [agreementVerdict, refused, judgeAgreement, hkey, hsubject]

theorem judgeFix_same (h : runner.Steady) (fix : Value) :
    SameAnswer (judgeFix sha256 cat fix runner) := by
  intro s s'
  obtain ⟨x, t, t', ht, ht'⟩ := (rebuildVerify_same h sha256 cat fix).both s s'
  unfold judgeFix
  rw [ht, ht']
  rcases x with e | ⟨_ | criteria, _ | problem, why⟩
  · rfl
  · rfl
  · rfl
  · obtain ⟨x, u, u', hu, hu'⟩ := (evaluateVerify_same h criteria).both t t'
    dsimp only
    rw [hu, hu']
    cases x with
    | error e => rfl
    | ok results =>
        dsimp only
        split
        · rfl
        · split
          · rfl
          · rfl
  · rfl

theorem judgeOwn_same (h : runner.Steady) (d : Finding) :
    SameAnswer (judgeOwn sha256 cat p fresh runner d) := by
  intro s s'
  unfold judgeOwn
  split
  · rfl
  · split
    · rfl
    · split
      · rfl
      · rfl
      · exact judgeFix_same h _ s s'

/-- The outcomes so far matter as far as the finding explained them. -/
theorem judge_same (h : runner.Steady)
    (hso : isAgreement d.subject = true ∨ ∀ x ∈ d.explains, so.lookup x = so'.lookup x)
    (s s' : σ) : (judge sha256 cat p fresh runner now so d s).1
      = (judge sha256 cat p fresh runner now so' d s').1 := by
  rcases hso with hagreement | hso
  · rw [judge_agreement hagreement, judge_agreement hagreement]
  · unfold judge
    cases refused p fresh d with
    | some o => rfl
    | none =>
        dsimp only
        split
        · rfl
        · obtain ⟨x, t, t', ht, ht'⟩ := (judgeOwn_same h d).both s s'
          unfold judgeCause
          rw [ht, ht', openEffect_congr hso]
          cases x with
          | error e => rfl
          | ok o => cases o with
            | _ => rfl

/-- Whether there is an outcome does not depend on the outcomes so far. -/
theorem judge_returns (h : runner.Steady) {s s₁ : σ} {v : Judged}
    (hjudge : judge sha256 cat p fresh runner now so d s = (.ok v, s₁)) (so' : Outcomes) (s' : σ) :
    ∃ v' s₂, judge sha256 cat p fresh runner now so' d s' = (.ok v', s₂) := by
  unfold judge at hjudge ⊢
  cases hrefused : refused p fresh d with
  | some o => exact ⟨_, _, rfl⟩
  | none =>
      rw [hrefused] at hjudge
      dsimp only at hjudge ⊢
      split
      · rename_i hagreement
        rw [if_pos hagreement] at hjudge
        exact ⟨v, s', by rw [(Prod.mk.inj hjudge).1]⟩
      · rename_i hcause
        rw [if_neg hcause] at hjudge
        obtain ⟨x, t, t', ht, ht'⟩ := (judgeOwn_same h d).both s s'
        unfold judgeCause at hjudge ⊢
        rw [ht] at hjudge
        rw [ht']
        cases x with
        | error e => cases hjudge
        | ok o =>
            cases o with
            | _ => exact ⟨_, _, rfl⟩

end One

/-! ## What came before -/

theorem Finding.Shaped.same {d e : Finding} (hd : d.Shaped) (he : e.Shaped) (h : d.key = e.key) :
    d.code = e.code ∧ d.subject = e.subject :=
  (before_at_inj hd.code_no_at he.code_no_at).mp h

section Before

variable {sha256 : String → String} {cat : List Entry} {p : LoadedState}
  {fresh : ReplicationResult} {runner : Runner σ} {now : Now} {ds : List Finding}
  {c : Compared} {s s' : σ}

/-- Everything judged has an item. -/
theorem Judges.item_of_mem {d : Finding} {c' : Compared}
    (h : Judges sha256 cat p fresh runner now ds c s c' s') (hd : d ∈ ds) :
    ∃ i ∈ c'.items, i.key = d.key := by
  obtain ⟨pre, post, rfl⟩ := List.append_of_mem hd
  obtain ⟨c₁, s₁, o, since, s₂, -, -, hpost⟩ := h.at
  obtain ⟨more, hitems, -⟩ := hpost.grows
  refine ⟨itemOf d o, ?_, rfl⟩
  rw [hitems, Compared.add_items]
  simp

/-- What is known of an agreement that has been judged. -/
theorem Judges.agreement_known (h : Judges sha256 cat p fresh runner now ds {} s c s')
    (hshaped : ∀ d ∈ ds, d.Shaped) {e : Finding} (he : e ∈ ds)
    (hagreement : isAgreement e.subject = true) :
    ∃ o since, agreementVerdict p fresh now e = .ok (o, since)
      ∧ (outcomesOf c.items).lookup e.key = some o := by
  have hall : ∀ i ∈ c.items, i.key = e.key →
      ∃ since, agreementVerdict p fresh now e = .ok (i.outcome, since) := by
    refine h.items (fun i hi => (nomatch hi)) (fun d hd _ _ o since s s₁ hjudge hkey => ?_)
    have hsubject := ((hshaped d hd).same (hshaped e he) hkey).2
    rw [judge_agreement (hsubject ▸ hagreement), agreementVerdict_congr hkey hsubject] at hjudge
    exact ⟨since, (Prod.mk.inj hjudge).1⟩
  obtain ⟨i, hi, hkey⟩ := h.item_of_mem he
  obtain ⟨o, ho⟩ := outcomesOf_mem hi
  obtain ⟨j, hj, hjkey, rfl⟩ := outcomesOf_some ho
  obtain ⟨since, hverdict⟩ := hall j hj (hjkey.trans hkey)
  exact ⟨j.outcome, since, hverdict, hkey ▸ ho⟩

theorem Judges.unknown (h : Judges sha256 cat p fresh runner now ds {} s c s') {k : String}
    (hk : ∀ d ∈ ds, d.key ≠ k) : (outcomesOf c.items).lookup k = none := by
  by_contra hsome
  obtain ⟨o, ho⟩ := Option.ne_none_iff_exists'.mp hsome
  obtain ⟨i, hi, hkey, -⟩ := outcomesOf_some ho
  have hall : ∀ i ∈ c.items, i.key ≠ k :=
    h.items (fun i hi => (nomatch hi)) fun d hd _ _ o since s s₁ _ => hk d hd
  exact hall i hi hkey

/-- No agreement stands after a cause. -/
theorem oldItems_sorted (p : LoadedState) :
    (oldItems p).Pairwise fun d e => isAgreement e.subject = true → isAgreement d.subject = true := by
  unfold oldItems
  refine List.pairwise_append.mpr ⟨?_, ?_, ?_⟩
  · exact List.pairwise_of_forall_mem_list fun d hd e _ _ => (List.mem_filter.mp hd).2
  · refine List.pairwise_of_forall_mem_list fun d _ e he hagreement => ?_
    have hcause := (List.mem_filter.mp he).2
    rw [hagreement] at hcause
    cases hcause
  · exact fun d hd e _ _ => (List.mem_filter.mp hd).2

/-- When a cause is judged, all agreements have been. -/
theorem agreements_before {pre post : List Finding} {d e : Finding}
    (h : oldItems p = pre ++ d :: post) (hcause : isAgreement d.subject = false)
    (he : e ∈ oldItems p) (hagreement : isAgreement e.subject = true) : e ∈ pre := by
  have hsorted := oldItems_sorted p
  rw [h] at he hsorted
  rcases List.mem_append.mp he with hpre | hrest
  · exact hpre
  · exfalso
    have hd : isAgreement d.subject = true := by
      rcases List.mem_cons.mp hrest with rfl | hpost
      · exact hagreement
      · exact (List.pairwise_cons.mp (List.pairwise_append.mp hsorted).2.1).1 e hpost hagreement
    rw [hcause] at hd
    cases hd

end Before

/-! ## Reordered findings -/

/-- The same saved result, with its findings in another order. -/
structure LoadedState.Reordered (p p' : LoadedState) : Prop where
  perm : p.diagnoses.Perm p'.diagnoses
  rest : { p with diagnoses := p'.diagnoses } = p'

theorem LoadedState.Reordered.symm {p p' : LoadedState} (h : p.Reordered p') : p'.Reordered p := by
  refine ⟨h.perm.symm, ?_⟩
  rw [← h.rest]

theorem LoadedState.Reordered.trans {p q r : LoadedState} (h : p.Reordered q)
    (h' : q.Reordered r) : p.Reordered r := by
  refine ⟨h.perm.trans h'.perm, ?_⟩
  rw [← h'.rest, ← h.rest]

theorem LoadedState.Reordered.shaped {p p' : LoadedState} (h : p.Reordered p')
    (hshaped : ∀ d ∈ p.diagnoses, d.Shaped) : ∀ d ∈ p'.diagnoses, d.Shaped :=
  fun d hd => hshaped d (h.perm.mem_iff.mpr hd)

theorem LoadedState.Reordered.oldItems {p p' : LoadedState} (h : p.Reordered p') :
    (Replication.oldItems p).Perm (Replication.oldItems p') := by
  have hfollowed := h.perm.filter followedUp
  exact (hfollowed.filter _).append (hfollowed.filter _)

theorem LoadedState.Reordered.judge {p p' : LoadedState} (h : p.Reordered p')
    (sha256 : String → String) (cat : List Entry) (fresh : ReplicationResult) (runner : Runner σ)
    (now : Now) (so : Outcomes) (d : Finding) (s : σ) :
    Replication.judge sha256 cat p' fresh runner now so d s
      = Replication.judge sha256 cat p fresh runner now so d s := by
  have hkeys (k : String) : (p'.diagnoses.map Finding.key).contains k
      = (p.diagnoses.map Finding.key).contains k := by
    rw [Bool.eq_iff_iff, List.contains_iff_mem, List.contains_iff_mem]
    exact (h.perm.map Finding.key).mem_iff.symm
  have hpeer : failuresOnPeer p' fresh d = failuresOnPeer p fresh d := by
    simp only [failuresOnPeer, hkeys]
  have hown (s : σ) : judgeOwn sha256 cat p' fresh runner d s
      = judgeOwn sha256 cat p fresh runner d s := by
    simp only [judgeOwn, otherFailure, hpeer]
    rw [← h.rest]
    rfl
  unfold Replication.judge judgeCause
  simp only [hown]
  rw [← h.rest]
  rfl

/-! ## The result -/

/-- A comparison gives a saved finding an outcome, after some other items. -/
def GivesAfter (p : LoadedState) (result : CompareResult) (front : List VerifyItem) (d : Finding)
    (o : ItemOutcome) : Prop :=
  ∃ pre post back, oldItems p = pre ++ d :: post
    ∧ result.items = front ++ itemOf d o :: back ∧ front.length = pre.length

def Gives (p : LoadedState) (result : CompareResult) (d : Finding) (o : ItemOutcome) : Prop :=
  ∃ front, GivesAfter p result front d o

/-- A cause is resolved only after what it explained: all the agreements,
and whatever else has its outcome by then. -/
structure EffectsFirst (p : LoadedState) (result : CompareResult) : Prop where
  agreements : ∀ r e o, isAgreement r.subject = false → isAgreement e.subject = true →
    e.key ∈ r.explains → Gives p result r .resolved → Gives p result e o → o = .resolved
  earlier : ∀ r front, isAgreement r.subject = false → GivesAfter p result front r .resolved →
    ∀ x ∈ r.explains, ∀ o, (outcomesOf front).lookup x = some o → o = .resolved

/-- An agreement, or a cause that explained agreements only, of what is followed up. -/
def Independent (p : LoadedState) (d : Finding) : Prop :=
  isAgreement d.subject = true
    ∨ ∀ e ∈ oldItems p, e.key ∈ d.explains → isAgreement e.subject = true

section Runs

variable {sha256 : String → String} {cat : List Entry} {p p' : LoadedState}
  {fresh : ReplicationResult} {runner : Runner σ} {now : Now} {c c' : Compared} {s s' t t' : σ}
  {d : Finding} {o : ItemOutcome}

theorem GivesAfter.judged {front : List VerifyItem}
    (h : Judges sha256 cat p fresh runner now (oldItems p) {} s c s')
    (hg : GivesAfter p ⟨c.items, newFailures p fresh, c.pending⟩ front d o) :
    ∃ pre post c₁ s₁ since s₂, oldItems p = pre ++ d :: post
      ∧ Judges sha256 cat p fresh runner now pre {} s c₁ s₁ ∧ c₁.items = front
      ∧ judge sha256 cat p fresh runner now (outcomesOf front) d s₁ = (.ok (o, since), s₂) := by
  obtain ⟨pre, post, back, hold, hitems, hlength⟩ := hg
  rw [hold] at h
  obtain ⟨c₁, s₁, o', since, s₂, hpre, hjudge, hpost⟩ := h.at
  obtain ⟨before, hbefore, hblength⟩ := hpre.grows
  obtain ⟨more, hmore, -⟩ := hpost.grows
  rw [Compared.add_items, List.append_assoc, List.singleton_append] at hmore
  have hfront : c₁.items.length = front.length := by
    rw [hbefore, hlength, ← hblength]
    rfl
  have hsplit : c₁.items ++ itemOf d o' :: more = front ++ itemOf d o :: back :=
    hmore.symm.trans hitems
  obtain ⟨hsame, htail⟩ := List.append_inj hsplit hfront
  have hitem := (List.cons.inj htail).1
  obtain rfl : o' = o := congrArg VerifyItem.outcome hitem
  rw [hsame] at hjudge
  exact ⟨pre, post, c₁, s₁, since, s₂, hold, hpre, hsame, hjudge⟩

theorem effectsFirst (h : Judges sha256 cat p fresh runner now (oldItems p) {} s c s')
    (hshaped : ∀ d ∈ p.diagnoses, d.Shaped) :
    EffectsFirst p ⟨c.items, newFailures p fresh, c.pending⟩ := by
  have hearlier : ∀ r front, isAgreement r.subject = false →
      GivesAfter p ⟨c.items, newFailures p fresh, c.pending⟩ front r .resolved →
      ∀ x ∈ r.explains, ∀ o, (outcomesOf front).lookup x = some o → o = .resolved := by
    intro r front hcause hg
    obtain ⟨pre, post, c₁, s₁, since, s₂, -, -, -, hjudge⟩ := hg.judged h
    obtain ⟨s₃, hown⟩ := (judge_resolved_by hjudge).2.2 hcause
    exact openEffect_none (judgeCause_resolved hown).2
  refine ⟨fun r e o hcause hagreement hexplains ⟨front, hg⟩ ⟨front', hg'⟩ => ?_, hearlier⟩
  obtain ⟨pre, post, c₁, s₁, since, s₂, hold, hpre, rfl, -⟩ := hg.judged h
  obtain ⟨pre', post', c₂, s₃, since', s₄, hold', -, -, hjudge'⟩ := hg'.judged h
  have he : e ∈ oldItems p := by rw [hold']; simp
  have hbefore := agreements_before hold hcause he hagreement
  have hpreShaped : ∀ d ∈ pre, d.Shaped := by
    intro d hd
    refine hshaped d (mem_of_oldItems ?_)
    rw [hold]
    exact List.mem_append_left _ hd
  obtain ⟨o', since'', hverdict, hlookup⟩ := hpre.agreement_known hpreShaped hbefore hagreement
  rw [judge_agreement hagreement, hverdict] at hjudge'
  have ho := (Prod.mk.inj (Except.ok.inj (Prod.mk.inj hjudge').1)).1
  rw [← ho]
  exact hearlier r _ hcause hg e.key hexplains o' hlookup

/-- What a cause finds out about the agreements it explained does not
depend on the order. -/
theorem lookup_same {pre pre' post post' : List Finding} {c₁ c₂ : Compared}
    (hreordered : p.Reordered p') (hshaped : ∀ d ∈ p.diagnoses, d.Shaped)
    (hold : oldItems p = pre ++ d :: post) (hold' : oldItems p' = pre' ++ d :: post')
    (hpre : Judges sha256 cat p fresh runner now pre {} s c₁ s')
    (hpre' : Judges sha256 cat p' fresh runner now pre' {} t c₂ t')
    (hcause : isAgreement d.subject = false) (hind : Independent p d) :
    ∀ x ∈ d.explains, (outcomesOf c₁.items).lookup x = (outcomesOf c₂.items).lookup x := by
  intro x hx
  have hagreements := hind.resolve_left (by rw [hcause]; decide)
  have hin : ∀ e ∈ pre, e ∈ oldItems p := fun e he => by rw [hold]; exact List.mem_append_left _ he
  have hin' : ∀ e ∈ pre', e ∈ oldItems p := by
    intro e he
    rw [hreordered.oldItems.mem_iff, hold']
    exact List.mem_append_left _ he
  by_cases hex : ∃ e ∈ oldItems p, e.key = x
  · obtain ⟨e, he, rfl⟩ := hex
    have hagreement := hagreements e he hx
    obtain ⟨o, since, hverdict, hlookup⟩ := hpre.agreement_known
      (fun d hd => hshaped d (mem_of_oldItems (hin d hd)))
      (agreements_before hold hcause he hagreement) hagreement
    obtain ⟨o', since', hverdict', hlookup'⟩ := hpre'.agreement_known
      (fun d hd => hshaped d (mem_of_oldItems (hin' d hd)))
      (agreements_before hold' hcause (hreordered.oldItems.mem_iff.mp he) hagreement) hagreement
    have hsame : agreementVerdict p' fresh now e = agreementVerdict p fresh now e := by
      rw [← hreordered.rest]
      rfl
    rw [hsame, hverdict] at hverdict'
    rw [hlookup, hlookup', (Prod.mk.inj (Except.ok.inj hverdict')).1]
  · rw [hpre.unknown fun e he hkey => hex ⟨e, hin e he, hkey⟩,
      hpre'.unknown fun e he hkey => hex ⟨e, hin' e he, hkey⟩]

theorem gives_reordered (hsteady : runner.Steady) (hreordered : p.Reordered p')
    (hshaped : ∀ d ∈ p.diagnoses, d.Shaped)
    (h : Judges sha256 cat p fresh runner now (oldItems p) {} s c s')
    (h' : Judges sha256 cat p' fresh runner now (oldItems p') {} t c' t')
    (hind : Independent p d) (hg : Gives p ⟨c.items, newFailures p fresh, c.pending⟩ d o) :
    Gives p' ⟨c'.items, newFailures p' fresh, c'.pending⟩ d o := by
  obtain ⟨front, hg⟩ := hg
  obtain ⟨pre, post, c₁, s₁, since, s₂, hold, hpre, rfl, hjudge⟩ := hg.judged h
  have hd : d ∈ oldItems p' := by
    rw [← hreordered.oldItems.mem_iff, hold]
    simp
  obtain ⟨pre', post', hold'⟩ := List.append_of_mem hd
  rw [hold'] at h'
  obtain ⟨c₂, t₁, o', since', t₂, hpre', hjudge', hpost'⟩ := h'.at
  obtain ⟨before, hbefore, hblength⟩ := hpre'.grows
  obtain ⟨more, hmore, -⟩ := hpost'.grows
  rw [hreordered.judge] at hjudge'
  have hlooked : isAgreement d.subject = true ∨ ∀ x ∈ d.explains,
      (outcomesOf c₁.items).lookup x = (outcomesOf c₂.items).lookup x := by
    by_cases hagreement : isAgreement d.subject = true
    · exact .inl hagreement
    · exact .inr (lookup_same hreordered hshaped hold hold' hpre hpre' (by simpa using hagreement) hind)
  have hsame : (judge sha256 cat p fresh runner now (outcomesOf c₁.items) d s₁).1
      = (judge sha256 cat p fresh runner now (outcomesOf c₂.items) d t₁).1 :=
    judge_same hsteady hlooked s₁ t₁
  rw [hjudge, hjudge'] at hsame
  obtain rfl := (Prod.mk.inj (Except.ok.inj hsame)).1
  refine ⟨c₂.items, pre', post', more, hold', ?_, ?_⟩
  · rw [hmore, Compared.add_items, List.append_assoc, List.singleton_append]
  · rw [hbefore, ← hblength]
    rfl

/-- When every finding can be judged, all are. -/
theorem judges_of_returns {ds : List Finding} (h : ∀ d ∈ ds, ∀ so s,
      ∃ v s₂, judge sha256 cat p fresh runner now so d s = (.ok v, s₂)) (c : Compared) (s : σ) :
    ∃ c' s', Judges sha256 cat p fresh runner now ds c s c' s' := by
  induction ds generalizing c s with
  | nil => exact ⟨c, s, .nil c s⟩
  | cons d ds ih =>
      obtain ⟨⟨o, since⟩, s₁, hjudge⟩ := h d List.mem_cons_self (outcomesOf c.items) s
      obtain ⟨c', s', hrest⟩ := ih (fun e he => h e (List.mem_cons_of_mem _ he)) (c.add d o since) s₁
      exact ⟨c', s', .cons hjudge hrest⟩

theorem judges_reordered (hsteady : runner.Steady) (hreordered : p.Reordered p')
    (h : Judges sha256 cat p fresh runner now (oldItems p) {} s c s') (t : σ) :
    ∃ c' t', Judges sha256 cat p' fresh runner now (oldItems p') {} t c' t' := by
  refine judges_of_returns (fun d hd so s₀ => ?_) {} t
  obtain ⟨pre, post, hold⟩ := List.append_of_mem (hreordered.oldItems.mem_iff.mpr hd)
  rw [hold] at h
  obtain ⟨c₁, s₁, o, since, s₂, -, hjudge, -⟩ := h.at
  rw [hreordered.judge]
  exact judge_returns hsteady hjudge so s₀

theorem Independent.reordered (h : Independent p d) (hreordered : p.Reordered p') :
    Independent p' d :=
  h.imp_right fun hall e he => hall e (hreordered.oldItems.mem_iff.mpr he)

end Runs

/-- **A cause is resolved after the agreements it explained; the order of
the saved findings only matters to causes that explained causes.** -/
theorem cause_after_agreements (sha256 : String → String) (cat : List Entry)
    (fresh : ReplicationResult) (runner : Runner σ) (now : Now) {doc : Value} {q p : LoadedState}
    (hload : load doc = .ok q) (hp : q.Reordered p) {s s' : σ} {result : CompareResult}
    (h : compare sha256 cat p fresh runner now s = (.ok result, s')) :
    EffectsFirst p result
      ∧ (runner.Steady → ∀ p', q.Reordered p' → ∀ t, ∃ result' t',
          compare sha256 cat p' fresh runner now t = (.ok result', t')
            ∧ ∀ d o, Independent p d → (Gives p result d o ↔ Gives p' result' d o)) := by
  have hshaped := hp.shaped (load_shaped hload)
  obtain ⟨c, hjudges, rfl⟩ := compare_ok h
  refine ⟨effectsFirst hjudges hshaped, fun hsteady p' hp' t => ?_⟩
  have hreordered := hp.symm.trans hp'
  obtain ⟨c', t', hjudges'⟩ := judges_reordered hsteady hreordered hjudges t
  refine ⟨⟨c'.items, newFailures p' fresh, c'.pending⟩, t', ?_, fun d o hind => ⟨?_, ?_⟩⟩
  · rw [compare, hjudges'.compareFindings]
  · exact gives_reordered hsteady hreordered hshaped hjudges hjudges' hind
  · exact gives_reordered hsteady hreordered.symm (hreordered.shaped hshaped) hjudges' hjudges
      (hind.reordered hreordered)

/-! ## A Directory Server that stopped -/

namespace Stopped

def record (stepId : String) (outcome : Outcome) (facts : Dict) : Record :=
  { stepId := stepId, capability := "replication.local", check := stepId, title := stepId
    why := "", outcome := outcome, facts := facts }

/-- The file system is in order again; the Directory Server is as `ds` says. -/
def trace (ds : Outcome) : Trace :=
  { records :=
      [record "server" .pass [("host", .str "ipa1.example"), ("realm", .str "EXAMPLE")],
        record "local.storage" .pass [], record "local.ds" ds [],
        record "agreements" .pass [("subjects", .list [])]]
    stopReason := "complete", startedAt := "", seconds := 0, bounds := [], checksRun := 4
    checksReused := 0, cancelled := false
    enumerations := [("agreement",
      { source := "agreements", status := .complete, subjects := [], budget := 16 })] }

def agreementSubject : String := "domain:ipa1.example>peer.example"

def fresh (ds : Outcome) : ReplicationResult :=
  { mode := "live", generatedAt := newYear, host := .str "ipa1.example", peer := none
    trace := trace ds, diagnoses := [], resolutions := [], keyed := no_keys
    relationships := [{ subject := agreementSubject, inbound := false, state := .str "OK"
                        lastUpdateEnd := .str "2026-01-01T00:10:00Z", updateInProgress := .bool false }] }

theorem fresh_interprets (ds : Outcome) (h : ds = .pass ∨ ds = .unknown) :
    (fresh ds).Interprets := by
  have hnone : returns (fun out => decide (out.diags = [])) (diagnose (trace ds) (fun _ => none) [])
      = true := by
    rcases h with rfl | rfl
    · decide
    · decide
  obtain ⟨out, hout, hdiags⟩ := returns_iff.mp hnone
  exact .inl ⟨_, _, out, hout, (of_decide_eq_true hdiags).symm⟩

def server (explains : List String) : Finding :=
  { code := "LOCAL_DS_NOT_RUNNING", subject := "server:ipa1.example", severity := .fail
    kind := none, explains := explains, evidence := ["local.ds"] }

/-- The file system was full, and the Directory Server stopped. -/
def storage : Finding :=
  { code := "DS_STORAGE_PROBLEM", subject := "server:ipa1.example", severity := .fail, kind := none
    explains := [(server []).key], evidence := ["local.storage"] }

def broken : Finding :=
  { code := "REPLICATION_FAILING", subject := agreementSubject, severity := .fail, kind := none
    explains := [], evidence := ["agreements"] }

def saved (ds : List Finding) : LoadedState :=
  { generatedAt := newYear, host := some "ipa1.example", diagnoses := ds, relationships := []
    fixes := [], pending := [], peer := none }

def findingDoc (d : Finding) : Value :=
  .dict [("code", .str d.code), ("subject", .str d.subject), ("severity", .str d.severity.text),
    ("kind", optText (d.kind.map Kind.text)), ("explains", texts d.explains),
    ("evidence", texts d.evidence)]

def doc (ds : List Finding) : Value :=
  .dict [("state_version", .int STATE_VERSION), ("kind", .str STATE_KIND),
    ("generated_at", .str newYear.text), ("host", .str "ipa1.example"),
    ("inputs", .dict [("peer", .null)]), ("diagnoses", .list (ds.map findingDoc))]

def now : Now := ⟨newYear, 0, zero_in_second⟩

def runner : Runner Unit := { run := fun s _ _ => (.error .other, s), replay := false }

theorem storage_loaded : load (doc [storage, server []]) = .ok (saved [storage, server []]) := by
  decide

theorem reordered : (saved [storage, server []]).Reordered (saved [server [], storage]) :=
  ⟨.swap _ _ _, rfl⟩

theorem storage_first :
    (compare id [] (saved [storage, server []]) (fresh .unknown) runner now ()).1 = .ok
      ⟨[itemOf storage .resolved, itemOf (server []) .unableToVerify], [], []⟩ := by
  decide

theorem storage_last :
    (compare id [] (saved [server [], storage]) (fresh .unknown) runner now ()).1 = .ok
      ⟨[itemOf (server []) .unableToVerify, itemOf storage .unableToVerify], [], []⟩ := by
  decide

theorem effect_resolved :
    (compare id [] (saved [server [broken.key], broken]) (fresh .pass) runner now ()).1 = .ok
      ⟨[itemOf broken .resolved, itemOf (server [broken.key]) .resolved], [], []⟩ := by
  decide

end Stopped

/-- The full file system is called resolved although the Directory Server
it stopped is not; saved the other way round it is not. -/
theorem cause_before_cause :
    (¬∀ (sha256 : String → String) (cat : List Entry) (doc : Value) (p : LoadedState)
        (fresh : ReplicationResult) (runner : Runner Unit) (now : Now) (result : CompareResult),
      load doc = .ok p → fresh.Interprets →
      compare sha256 cat p fresh runner now () = (.ok result, ()) →
      ∀ r e o, e.key ∈ r.explains → Gives p result r .resolved → Gives p result e o →
        o = .resolved)
    ∧ ¬∀ (sha256 : String → String) (cat : List Entry) (doc : Value) (p p' : LoadedState)
        (fresh : ReplicationResult) (runner : Runner Unit) (now : Now)
        (result result' : CompareResult),
      load doc = .ok p → p.Reordered p' → fresh.Interprets →
      compare sha256 cat p fresh runner now () = (.ok result, ()) →
      compare sha256 cat p' fresh runner now () = (.ok result', ()) →
      ∀ d o, Gives p result d o → Gives p' result' d o := by
  have hinterprets := Stopped.fresh_interprets .unknown (.inr rfl)
  have hfirst : Gives (Stopped.saved [Stopped.storage, Stopped.server []])
      ⟨[itemOf Stopped.storage .resolved, itemOf (Stopped.server []) .unableToVerify], [], []⟩
      Stopped.storage .resolved := ⟨[], [], [Stopped.server []], _, by decide +kernel, rfl, rfl⟩
  constructor
  · intro h
    have hsecond : Gives (Stopped.saved [Stopped.storage, Stopped.server []])
        ⟨[itemOf Stopped.storage .resolved, itemOf (Stopped.server []) .unableToVerify], [], []⟩
        (Stopped.server []) .unableToVerify :=
      ⟨[_], [Stopped.storage], [], [], by decide +kernel, rfl, rfl⟩
    have hout := h id [] _ _ _ Stopped.runner Stopped.now _ Stopped.storage_loaded hinterprets
      (Prod.ext Stopped.storage_first rfl) Stopped.storage (Stopped.server []) _
      List.mem_cons_self hfirst hsecond
    cases hout
  · intro h
    obtain ⟨front, pre, post, back, hold, hitems, hlength⟩ := h id [] _ _ _ _ Stopped.runner
      Stopped.now _ _ Stopped.storage_loaded Stopped.reordered hinterprets
      (Prod.ext Stopped.storage_first rfl) (Prod.ext Stopped.storage_last rfl) _ _ hfirst
    dsimp only at hitems
    have hmem : itemOf Stopped.storage .resolved ∈
        [itemOf (Stopped.server []) .unableToVerify, itemOf Stopped.storage .unableToVerify] := by
      rw [hitems]
      simp
    revert hmem
    decide +kernel

/-- The Directory Server runs again, and the agreement it broke is green. -/
theorem agreement_then_server :
    EffectsFirst (Stopped.saved [Stopped.server [Stopped.broken.key], Stopped.broken])
      ⟨[itemOf Stopped.broken .resolved, itemOf (Stopped.server [Stopped.broken.key]) .resolved],
        [], []⟩ := by
  have hload : load (Stopped.doc [Stopped.server [Stopped.broken.key], Stopped.broken])
      = .ok (Stopped.saved [Stopped.server [Stopped.broken.key], Stopped.broken]) := by
    decide +kernel
  exact (cause_after_agreements id [] (Stopped.fresh .pass) Stopped.runner Stopped.now hload
    ⟨.refl _, rfl⟩ (Prod.ext Stopped.effect_resolved rfl)).1

end IpaDiagnose.Replication
