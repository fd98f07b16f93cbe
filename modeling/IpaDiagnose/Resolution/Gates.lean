import IpaDiagnose.Lib.Result
import IpaDiagnose.Resolution.Criteria

/-!
# The gates before a fix

What resolving a diagnosis by a procedure can come to, said once: either a
gate withheld the fix and nothing of it is in the result, or every gate
passed and left some evidence, and the result is what `offer` makes of it.
-/

namespace IpaDiagnose.Resolver

open Py (Value Dict Exc)
open Result

variable {σ : Type} {sha256 : String → String} {p : Procedure} {d : Diagnosis}
  {env : Option EnvironmentInfo} {runner : Runner σ} {s s' : σ}

/-- Nothing of a fix is in a result. -/
structure Resolution.Bare (r : Resolution) : Prop where
  steps : r.steps = []
  confirmFirst : r.confirmFirst = []
  whatChanges : r.whatChanges = []
  rollback : r.rollback = []
  verify : r.verify = []
  baseline : r.baseline = none

/-- Every gate passed: `found` is the evidence of the investigations, `left`
what is left of it, and `r` the result so far. -/
structure Gated (p : Procedure) (d : Diagnosis) (env : Option EnvironmentInfo) (runner : Runner σ)
    (s s' : σ) (found left : Evidence) (r : Resolution) : Prop where
  sure : doubt p d = none
  bindings : ∃ bound reasons, readBindings p.bindings d.bindings = .ok (some bound, reasons)
    ∧ (∃ shown, investigate runner p.investigate (Evidence.start bound) ⟨s, []⟩
        = .ok (.done found ⟨s', shown⟩))
    ∧ ∃ kept more, withholdAll p.withholdIf found reasons = .ok (.pass (kept, more))
      ∧ somethingLeft kept = true ∧ left = kept.rebound
  applies : inapplicable p env runner.replay = .ok none
  agreeing : clash found = none
  met : ∃ prs, prerequisites left.base p.prerequisites = .ok prs
    ∧ prs.any Prerequisite.open_ = false
  bare : r.Bare
  withheld : r.status = .withheld

theorem blank_bare (p : Procedure) (d : Diagnosis) (replay : Bool) : (blank p d replay).Bare :=
  ⟨rfl, rfl, rfl, rfl, rfl, rfl⟩

/-- A result that withholds the fix, with the reasons for it. -/
def Resolution.Refused (r : Resolution) : Prop :=
  r.Bare ∧ r.status = .withheld ∧ r.reasons ≠ []

theorem refused_of_append {r r' : Resolution} {reasons : List String} {why : String}
    (h : r.Bare) (hs : r.status = .withheld)
    (hr : r' = { r with reasons := reasons ++ [why] }) : r'.Refused := by
  subst hr
  exact ⟨⟨h.steps, h.confirmFirst, h.whatChanges, h.rollback, h.verify, h.baseline⟩, hs,
    List.append_ne_nil_of_right_ne_nil _ (List.cons_ne_nil _ _)⟩

/-- A gate over the evidence withholds with one reason more. -/
theorem withholdAll_reasons {ws : List Withhold} {ev : Evidence} {reasons out : List String}
    (h : withholdAll ws ev reasons = .ok (.withhold out)) : ∃ some why, out = some ++ [why] := by
  induction ws generalizing ev reasons with
  | nil =>
      injection h with h
      cases h
  | cons w ws ih =>
      obtain ⟨g, hg, h⟩ := bind_ok.mp h
      cases g with
      | pass a => exact ih h
      | withhold rs =>
          obtain rfl : rs = out := by
            injection pure_ok.mp h
          unfold withholdOne at hg
          split at hg
          · obtain ⟨ts, -, hg⟩ := bind_ok.mp hg
            obtain ⟨kept, -, hg⟩ := bind_ok.mp hg
            cases pure_ok.mp hg
          · split at hg
            · injection hg with hg
              injection hg with hg
              exact ⟨_, _, hg.symm⟩
            · injection hg with hg
              cases hg
            · injection hg with hg
              injection hg with hg
              exact ⟨_, _, hg.symm⟩
            · cases hg

/-- From the evidence on: refused, or all gates passed and what `offer` makes of it. -/
theorem decideFix_cases {found : Evidence} {r out : Resolution} (hbare : r.Bare)
    (hs : r.status = .withheld) (h : decideFix sha256 p d found r = .ok out) :
    out.Refused ∨ ∃ kept more prs r₀, clash found = none
      ∧ withholdAll p.withholdIf found r.reasons = .ok (.pass (kept, more))
      ∧ somethingLeft kept = true
      ∧ prerequisites kept.rebound.base p.prerequisites = .ok prs
      ∧ prs.any Prerequisite.open_ = false ∧ r₀.Bare ∧ r₀.status = .withheld
      ∧ offer sha256 p d kept.rebound r₀ = .ok out := by
  unfold decideFix at h
  cases hclash : clash found with
  | some why =>
      rw [hclash] at h
      injection h with h
      exact .inl (refused_of_append hbare hs h.symm)
  | none =>
      rw [hclash] at h
      obtain ⟨g, hg, h⟩ := bind_ok.mp h
      cases g with
      | withhold reasons =>
          obtain ⟨some, why, rfl⟩ := withholdAll_reasons hg
          exact .inl (refused_of_append hbare hs (pure_ok.mp h).symm)
      | pass a =>
          obtain ⟨kept, more⟩ := a
          dsimp only at h
          by_cases hleft : somethingLeft kept = false
          · rw [if_pos hleft] at h
            exact .inl (refused_of_append hbare hs (pure_ok.mp h).symm)
          · rw [if_neg hleft] at h
            obtain ⟨prs, hprs, h⟩ := bind_ok.mp h
            by_cases hopen : prs.any Prerequisite.open_ = true
            · rw [if_pos hopen] at h
              have hbare' : ({ r with reasons := more, prerequisites := prs } : Resolution).Bare :=
                ⟨hbare.steps, hbare.confirmFirst, hbare.whatChanges, hbare.rollback, hbare.verify,
                  hbare.baseline⟩
              exact .inl (refused_of_append hbare' hs (pure_ok.mp h).symm)
            · rw [if_neg hopen] at h
              refine .inr ⟨kept, more, prs, { r with reasons := more, prerequisites := prs }, rfl,
                hg, by simpa using hleft, hprs, by simpa using hopen, ?_, hs, h⟩
              exact ⟨hbare.steps, hbare.confirmFirst, hbare.whatChanges, hbare.rollback,
                hbare.verify, hbare.baseline⟩

/-- What resolving by a procedure comes to. -/
theorem resolveProcedure_cases {r : Resolution}
    (h : resolveProcedure sha256 p d env runner s = .ok (r, s')) :
    r.Refused ∨ ∃ found left r₀, Gated p d env runner s s' found left r₀
      ∧ offer sha256 p d left r₀ = .ok r := by
  have hblank := blank_bare p d runner.replay
  unfold resolveProcedure at h
  cases hdoubt : doubt p d with
  | some why =>
      simp only [hdoubt] at h
      injection h with h
      injection h with hr _
      have hreasons : [] ++ [why] = [why] := rfl
      exact .inl (refused_of_append hblank rfl (hreasons ▸ hr.symm))
  | none =>
      simp only [hdoubt] at h
      obtain ⟨⟨bound, reasons⟩, hbound, h⟩ := bind_ok.mp h
      cases bound with
      | none =>
          injection pure_ok.mp h with hr _
          exact .inl (refused_of_append hblank rfl hr.symm)
      | some bound =>
          obtain ⟨why, hwhy, h⟩ := bind_ok.mp h
          cases why with
          | some why =>
              injection pure_ok.mp h with hr _
              exact .inl (refused_of_append hblank rfl hr.symm)
          | none =>
              obtain ⟨prog, hprog, h⟩ := bind_ok.mp h
              cases prog with
              | stuck why ses =>
                  injection pure_ok.mp h with hr _
                  have hbare :
                      ({ blank p d runner.replay with checks := ses.shown } : Resolution).Bare :=
                    ⟨rfl, rfl, rfl, rfl, rfl, rfl⟩
                  exact .inl (refused_of_append hbare rfl hr.symm)
              | done found ses =>
                  obtain ⟨out, hout, h⟩ := bind_ok.mp h
                  injection pure_ok.mp h with hr hs
                  subst hr hs
                  obtain ⟨runner', shown⟩ := ses
                  rcases decideFix_cases ⟨rfl, rfl, rfl, rfl, rfl, rfl⟩ rfl hout with
                    hrefused | ⟨kept, more, prs, r₀, hclash, hkept, hleft, hprs, hopen, hbare, hs,
                      hoffer⟩
                  · exact .inl hrefused
                  · refine .inr ⟨found, kept.rebound, r₀, ?_, hoffer⟩
                    exact
                      { sure := hdoubt
                        bindings := ⟨bound, reasons, hbound, ⟨shown, hprog⟩, kept, more, hkept,
                          hleft, rfl⟩
                        applies := hwhy
                        agreeing := hclash
                        met := ⟨prs, hprs, hopen⟩
                        bare := hbare
                        withheld := hs }

/-- What `offer` comes to: a value is unknown, no step applies, two steps
contradict each other, or the fix is shown. -/
inductive Offering (sha256 : String → String) (p : Procedure) (d : Diagnosis) (ev : Evidence)
    (r : Resolution) : Resolution → Prop where
  | unknown (why : String) (out : Resolution) (h : render p ev = .error (.own (.unknown why)))
      (hout : out.Refused) : Offering sha256 p d ev r out
  | noStep (fix : Fix) (h : render p ev = .ok fix) (hsteps : fix.steps = []) :
      Offering sha256 p d ev r
        { r with
          whatChanges := fix.whatChanges
          rollback := fix.rollback
          verify := fix.verify
          confirmFirst := fix.confirmFirst
          reasons := r.reasons ++ ["No step applies to the current state."] }
  | contradicted (fix : Fix) (out : Resolution) (h : render p ev = .ok fix)
      (hsteps : fix.steps ≠ []) (hout : out.Refused) : Offering sha256 p d ev r out
  | shown (fix : Fix) (h : render p ev = .ok fix) (hsteps : fix.steps ≠ [])
      (hagree : contradiction [] fix.steps = .ok none) :
      Offering sha256 p d ev r (offered sha256 p d ev fix r)

theorem offer_cases {ev : Evidence} {r out : Resolution} (hbare : r.Bare)
    (hs : r.status = .withheld) (h : offer sha256 p d ev r = .ok out) :
    Offering sha256 p d ev r out := by
  unfold offer at h
  split at h
  · rename_i why hrender
    injection h with h
    exact .unknown why out hrender (refused_of_append hbare hs h.symm)
  · cases h
  · rename_i fix hrender
    by_cases hsteps : fix.steps = []
    · rw [if_pos (List.isEmpty_iff.mpr hsteps)] at h
      injection h with h
      subst h
      exact .noStep fix hrender hsteps
    · rw [if_neg (fun he => hsteps (List.isEmpty_iff.mp he))] at h
      obtain ⟨target, htarget, h⟩ := bind_ok.mp h
      cases target with
      | some target =>
          exact .contradicted fix out hrender hsteps
            (refused_of_append hbare hs (pure_ok.mp h).symm)
      | none =>
          obtain rfl := pure_ok.mp h
          exact .shown fix hrender hsteps htarget

end IpaDiagnose.Resolver
