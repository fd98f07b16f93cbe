import IpaDiagnose.Lib.PyEq
import IpaDiagnose.Resolution.NotOffered
import IpaDiagnose.Resolution.Shown

/-!
# An offered fix is safe

What stands behind a fix that is shown: the diagnosis and the version, the
conditions that would have withheld it, and for every command a command of
the procedure with its references filled in by values of their types. The
sub-command of `sssctl` is checked for the steps of a procedure and not for
its rollback, so the whole holds exactly when no rollback that applies
names another one.
-/

namespace IpaDiagnose.Resolver

open Py (Value Dict Exc)
open Result

variable {σ : Type} {sha256 : String → String} {p : Procedure} {d : Diagnosis}
  {env : Option EnvironmentInfo} {runner : Runner σ} {s s' : σ}

/-! ## The statement -/

/-- A version lies in the range of a procedure. -/
structure InRange (p : Procedure) (here : List Nat) : Prop where
  min : ∀ bound, p.freeipaMin = some bound → ∃ v, version bound = some v ∧ ¬ here < v
  below : ∀ bound, p.freeipaBelow = some bound → ∃ v, version bound = some v ∧ here < v

/-- The evidence a fix is decided on: what the checks `found`, and what is
`left` once the items with a reason against them are dropped. -/
def Examined (p : Procedure) (d : Diagnosis) (runner : Runner σ) (s : σ) (found left : Evidence) :
    Prop :=
  ∃ bound reasons, readBindings p.bindings d.bindings = .ok (some bound, reasons)
    ∧ (∃ ses, investigate runner p.investigate (Evidence.start bound) ⟨s, []⟩
      = .ok (.done found ses))
    ∧ ∃ kept more, withholdAll p.withholdIf found reasons = .ok (.pass (kept, more))
      ∧ left = kept.rebound

/-- A step that is shown: a step of the procedure, with its own command. One
that is for each item of a list is for an item nothing speaks against. -/
structure SafeStep (p : Procedure) (found left : Evidence) (spec : StepSpec) (step : Step) :
    Prop where
  mem : spec ∈ p.steps
  shown : Shown FIX_PROGRAMS spec.command step.argv
  listed : Listed step.argv
  item : spec.forEach.truthy = true → ∃ all, found.targets spec.forEach = .ok all
    ∧ ∃ t ∈ all, renderStep spec (left.scopeOf t) = .ok step
      ∧ ∀ w ∈ p.withholdIf, w.forEach = spec.forEach → pred (found.scopeOf t) w.when = .ok false

/-- A rollback command that is shown. -/
structure SafeRollback (p : Procedure) (words : List String) : Prop where
  shown : ∃ spec ∈ p.rollback, ∃ command, spec.command = some command
    ∧ Shown FIX_PROGRAMS command words
  listed : Listed words

/-- What an offered fix stands for. -/
structure SafeFix (p : Procedure) (d : Diagnosis) (env : Option EnvironmentInfo)
    (found left : Evidence) (r : Resolution) : Prop where
  diagnosed : d.status = .diagnosed
  confident : neededRank p ≤ confidenceRank d.confidence.level
  cause : d.priority ≠ .relatedSymptom
  version : ∃ here, hereVersion env = some here ∧ InRange p here
  withhold : ∀ w ∈ p.withholdIf, w.forEach.truthy = false → pred found.base w.when = .ok false
  prerequisites : ∀ pr ∈ p.prerequisites, ∀ when, pr.when = some when →
    pred left.base when = .ok true
  steps : ∀ step ∈ r.steps, ∃ spec, SafeStep p found left spec step
  agree : r.steps.Pairwise fun a b => ¬ (a.stepId.pyEq b.stepId = true ∧ a.lastArg = b.lastArg)
  confirm : ∀ c ∈ r.confirmFirst, Listed c.argv ∧ ∃ spec ∈ p.confirmFirst,
    Shown (CONFIRM_PROGRAMS.map Prod.fst) spec.command c.argv
  rollback : ∀ rb ∈ r.rollback, ∀ words, rb.argv = some words → SafeRollback p words

/-- The procedure and the evidence for a diagnosis. -/
structure Decided (cat : List Entry) (d : Diagnosis) (runner : Runner σ) (s : σ) (p : Procedure)
    (found left : Evidence) : Prop where
  selected : ∃ key, d.resolutionKey = some key
    ∧ selected cat key d.variant = some (.procedure p)
  examined : Examined p d runner s found left

/-- The fix that is offered for a diagnosis is safe. -/
def OfferedSafely (cat : List Entry) (d : Diagnosis) (env : Option EnvironmentInfo)
    (runner : Runner σ) (s : σ) (r : Resolution) : Prop :=
  ∃ p found left, Decided cat d runner s p found left ∧ SafeFix p d env found left r

/-- Every rollback of a procedure that applies to the evidence and runs
`sssctl` names a command of it that a fix may use. -/
def RollbackListed (p : Procedure) (ev : Evidence) : Prop :=
  ∀ e ∈ p.rollback, ∀ command, e.command = some command →
    ∀ scs, ev.scopes e.forEach = .ok scs → ∀ sc ∈ scs, appliesIn e.onlyIf sc = .ok true →
      ∀ words, argv sc command = .ok words → Listed words

/-! ## Lemmas -/

theorem Decided.unique {cat : List Entry} {p' : Procedure} {found left found' left' : Evidence}
    (h : Decided cat d runner s p found left) (h' : Decided cat d runner s p' found' left') :
    p = p' ∧ found = found' ∧ left = left' := by
  obtain ⟨⟨key, hkey, hsel⟩, bound, reasons, hbound, ⟨ses, hinv⟩, kept, more, hkept, rfl⟩ := h
  obtain ⟨⟨key', hkey', hsel'⟩, bound', reasons', hbound', ⟨ses', hinv'⟩, kept', more', hkept',
    rfl⟩ := h'
  obtain rfl := Option.some.inj (hkey.symm.trans hkey')
  obtain rfl := Entry.procedure.inj (Option.some.inj (hsel.symm.trans hsel'))
  obtain ⟨hb, rfl⟩ := Prod.mk.inj (Except.ok.inj (hbound.symm.trans hbound'))
  obtain rfl := Option.some.inj hb
  obtain ⟨rfl, -⟩ := Progress.done.inj (Except.ok.inj (hinv.symm.trans hinv'))
  obtain ⟨rfl, -⟩ := Prod.mk.inj (Gate.pass.inj (Except.ok.inj (hkept.symm.trans hkept')))
  exact ⟨rfl, rfl, rfl⟩

theorem doubt_none (h : doubt p d = none) : d.status = .diagnosed
    ∧ neededRank p ≤ confidenceRank d.confidence.level ∧ d.priority ≠ .relatedSymptom := by
  unfold doubt at h
  split at h
  · cases h
  · rename_i hcause
    split at h
    · cases h
    · rename_i hsure
      rw [not_or, not_not, Nat.not_lt] at hsure
      exact ⟨hsure.1, hsure.2, hcause⟩

theorem below_ok {here : List Nat} {bound : String} {b : Bool} (h : below here bound = .ok b) :
    ∃ v, version bound = some v ∧ (b = true ↔ here < v) := by
  unfold below at h
  split at h
  · cases h
  · rename_i v hv
    obtain rfl := Except.ok.inj h
    exact ⟨v, hv, decide_eq_true_iff⟩

theorem inapplicable_none {replay : Bool} (h : inapplicable p env replay = .ok none) :
    ∃ here, hereVersion env = some here ∧ InRange p here := by
  unfold inapplicable at h
  split at h
  · cases Except.ok.inj h
  · rename_i here hhere
    obtain ⟨early, hearly, h⟩ := bind_ok.mp h
    split at h
    · cases pure_ok.mp h
    · rename_i hnot
      obtain ⟨before, hbefore, h⟩ := bind_ok.mp h
      split at h
      · rename_i hbelow
        refine ⟨here, hhere, ?_, ?_⟩
        · intro bound hbound
          rw [hbound] at hearly
          obtain ⟨v, hv, hiff⟩ := below_ok hearly
          exact ⟨v, hv, fun hlt => hnot (hiff.mpr hlt)⟩
        · intro bound hbound
          rw [hbound] at hbefore
          obtain ⟨v, hv, hiff⟩ := below_ok hbefore
          exact ⟨v, hv, hiff.mp hbelow⟩
      · cases pure_ok.mp h

theorem prerequisites_met {sc : Scope} {specs : List PrerequisiteSpec} {prs : List Prerequisite}
    (h : prerequisites sc specs = .ok prs) (hopen : prs.any Prerequisite.open_ = false) :
    ∀ pr ∈ specs, ∀ when, pr.when = some when → pred sc when = .ok true := by
  induction specs generalizing prs with
  | nil => exact fun pr hpr => (List.not_mem_nil hpr).elim
  | cons spec specs ih =>
      obtain ⟨one, hone, h⟩ := bind_ok.mp h
      obtain ⟨rest, hrest, h⟩ := bind_ok.mp h
      obtain rfl := pure_ok.mp h
      rw [List.any_cons, Bool.or_eq_false_iff] at hopen
      intro pr hpr when hwhen
      rcases List.mem_cons.mp hpr with rfl | hpr
      · unfold prerequisite at hone
        rw [hwhen] at hone
        dsimp only at hone
        split at hone
        · assumption
        · obtain rfl := Except.ok.inj hone
          cases hopen.1
        · obtain rfl := Except.ok.inj hone
          cases hopen.1
        · cases hone
      · exact ih hrest hopen.2 pr hpr when hwhen

theorem wellFormed_of_hashable {v : Value} (h : v.hashable = true) : v.WellFormed := by
  cases v with
  | list xs => cases h
  | dict kvs => cases h
  | _ => exact True.intro

/-- Two steps with the same id that end in the same argument run the same command. -/
def Agree (a b : Step) : Prop :=
  a.stepId.pyEq b.stepId = true → a.lastArg = b.lastArg → a.argv = b.argv

theorem contradiction_none {seen steps : List Step} (h : contradiction seen steps = .ok none) :
    (∀ b ∈ steps, b.stepId.hashable = true ∧ ∀ a ∈ seen, Agree a b) ∧ steps.Pairwise Agree := by
  induction steps generalizing seen with
  | nil => exact ⟨fun b hb => (List.not_mem_nil hb).elim, List.Pairwise.nil⟩
  | cons b steps ih =>
      unfold contradiction at h
      split at h
      · cases h
      · rename_i hhash
        split at h
        · cases Except.ok.inj h
        · rename_i hnone
          obtain ⟨hlater, hpair⟩ := ih h
          refine ⟨fun c hc => ?_, List.pairwise_cons.mpr ⟨fun c hc => ?_, hpair⟩⟩
          · rcases List.mem_cons.mp hc with rfl | hc
            · refine ⟨by simpa using hhash, fun a ha hid hlast => ?_⟩
              rw [Bool.not_eq_true, List.any_eq_false] at hnone
              have hsame := hnone a ha
              simpa [hid, hlast] using hsame
            · exact ⟨(hlater c hc).1, fun a ha => (hlater c hc).2 a (List.mem_cons_of_mem _ ha)⟩
          · exact (hlater c hc).2 b List.mem_cons_self

/-- Of the steps that are kept, no two have the same id and the same last argument. -/
theorem kept_steps_agree {steps : List Step} (h : contradiction [] steps = .ok none) :
    (dedupe Step.same steps).Pairwise
      fun a b => ¬ (a.stepId.pyEq b.stepId = true ∧ a.lastArg = b.lastArg) := by
  obtain ⟨hhash, hagree⟩ := contradiction_none h
  have hkept := hagree.sublist (@dedupe_sublist _ Step.same steps)
  refine (hkept.and (dedupe_pairwise steps)).imp_of_mem ?_
  rintro a b ha hb ⟨hagree, hnew⟩ ⟨hid, hlast⟩
  have hmem := (@dedupe_sublist _ Step.same steps).subset
  have hid' : b.stepId.pyEq a.stepId = true :=
    Py.pyEq_symm (wellFormed_of_hashable (hhash a (hmem ha)).1)
      (wellFormed_of_hashable (hhash b (hmem hb)).1) hid
  have hargv := hagree hid hlast
  simp [Step.same, hid', hargv] at hnew

theorem renderStep_argv {spec : StepSpec} {sc : Scope} {step : Step}
    (h : renderStep spec sc = .ok step) : argv sc spec.command = .ok step.argv := by
  obtain ⟨words, hwords, h⟩ := bind_ok.mp h
  obtain rfl := pure_ok.mp h
  exact hwords

theorem renderConfirm_argv {spec : ConfirmSpec} {sc : Scope} {c : Confirm}
    (h : renderConfirm spec sc = .ok c) : argv sc spec.command = .ok c.argv := by
  obtain ⟨words, hwords, h⟩ := bind_ok.mp h
  obtain ⟨expect, -, h⟩ := bind_ok.mp h
  obtain rfl := pure_ok.mp h
  exact hwords

theorem renderRollback_argv {spec : EntrySpec} {sc : Scope} {rb : Rollback}
    (h : renderRollback spec sc = .ok rb) :
    (spec.command = none ∧ rb.argv = none)
      ∨ ∃ command words, spec.command = some command ∧ argv sc command = .ok words
        ∧ rb.argv = some words := by
  unfold renderRollback at h
  split at h
  · rename_i hnone
    obtain rfl := Except.ok.inj h
    exact .inl ⟨hnone, rfl⟩
  · rename_i command hcommand
    obtain ⟨words, hwords, h⟩ := bind_ok.mp h
    obtain rfl := pure_ok.mp h
    exact .inr ⟨command, words, hcommand, hwords, rfl⟩

theorem scopes_truthy {ev : Evidence} {forEach : Value} {scs : List Scope}
    (h : ev.scopes forEach = .ok scs) (htruthy : forEach.truthy = true) {sc : Scope}
    (hsc : sc ∈ scs) : ∃ ts, ev.targets forEach = .ok ts ∧ ∃ t ∈ ts, sc = ev.scopeOf t := by
  unfold Evidence.scopes at h
  rw [if_pos htruthy] at h
  obtain ⟨ts, hts, h⟩ := bind_ok.mp h
  obtain rfl := pure_ok.mp h
  obtain ⟨t, ht, rfl⟩ := List.mem_map.mp hsc
  exact ⟨ts, hts, t, ht, rfl⟩

/-! ## Steps, confirmations and rollbacks -/

section Shown

variable {found left : Evidence} {fix : Fix}

theorem rendered_step_safe (hallowed : p.Allowed) {kept : Evidence}
    (hpassed : Passed p.withholdIf found kept) (hleft : left = kept.rebound)
    (hrendered : Rendered p left fix) {step : Step} (hstep : step ∈ fix.steps) :
    ∃ spec, SafeStep p found left spec step := by
  obtain ⟨spec, hspec, scs, hscs, sc, hsc, -, hrender⟩ := (renderAll_mem hrendered.steps).mp hstep
  have hargv := renderStep_argv hrender
  obtain ⟨hruns, hsub⟩ := hallowed.steps spec hspec
  have hlit : ∃ program args, spec.command = .lit program :: args := by
    obtain ⟨program, -, args, heq⟩ := hruns
    exact ⟨program, args, heq⟩
  refine ⟨spec, hspec, hruns.shown hargv, hsub.listed hargv hlit, fun htruthy => ?_⟩
  obtain ⟨ts, hts, t, ht, rfl⟩ := scopes_truthy hscs htruthy hsc
  subst hleft
  obtain ⟨all, hall, hitems⟩ := hpassed.items spec.forEach ts hts
  obtain ⟨hmem, hpass⟩ := hitems t ht
  exact ⟨all, hall, t, hmem, hrender, fun w hw heq => hpass w hw (heq ▸ htruthy) heq⟩

theorem rendered_confirm_safe (hallowed : p.Allowed) (hrendered : Rendered p left fix)
    {c : Confirm} (hc : c ∈ fix.confirmFirst) :
    Listed c.argv ∧ ∃ spec ∈ p.confirmFirst,
      Shown (CONFIRM_PROGRAMS.map Prod.fst) spec.command c.argv := by
  obtain ⟨cs, hcs, heq⟩ := hrendered.confirm
  rw [heq] at hc
  obtain ⟨spec, hspec, scs, -, sc, -, -, hrender⟩ :=
    (renderAll_mem hcs).mp ((dedupe_sublist cs).subset hc)
  have hshown := (hallowed.confirm spec hspec).shown (renderConfirm_argv hrender)
  exact ⟨not_sssctl hshown, spec, hspec, hshown⟩

/-- Of a rollback that is shown all but the sub-command is safe. -/
theorem rendered_rollback (hallowed : p.Allowed) (hrendered : Rendered p left fix) {rb : Rollback}
    (hrb : rb ∈ fix.rollback) {words : List String} (hwords : rb.argv = some words) :
    ∃ spec ∈ p.rollback, ∃ command, spec.command = some command
      ∧ Shown FIX_PROGRAMS command words ∧ ∃ scs, left.scopes spec.forEach = .ok scs
      ∧ ∃ sc ∈ scs, appliesIn spec.onlyIf sc = .ok true ∧ argv sc command = .ok words := by
  obtain ⟨spec, hspec, scs, hscs, sc, hsc, happly, hrender⟩ :=
    (renderAll_mem hrendered.rollback).mp hrb
  rcases renderRollback_argv hrender with ⟨-, hnone⟩ | ⟨command, words', hcommand, hargv, heq⟩
  · rw [hwords] at hnone
    cases hnone
  · obtain rfl := Option.some.inj (hwords.symm.trans heq)
    exact ⟨spec, hspec, command, hcommand,
      (hallowed.rollback spec hspec command hcommand).shown hargv, scs, hscs, sc, hsc, happly, hargv⟩

/-- Rollbacks with a command are the same by its words. -/
theorem same_words {rb : Rollback} {what program : String} {rest : List String}
    (h : byKey Rollback.key ⟨what, some (program :: rest)⟩ rb = true) :
    rb.argv = some (program :: rest) := by
  have hkey : (Sum.inl (program :: rest) == rb.key) = true := h
  unfold Rollback.key at hkey
  split at hkey
  · rename_i a as heq
    have hwords : (program :: rest == a :: as) = true := hkey
    rw [heq, beq_iff_eq.mp hwords]
  · cases hkey

/-- A rollback that applies is shown, itself or one with the same words. -/
theorem applying_rollback_shown (hallowed : p.Allowed) (hrendered : Rendered p left fix)
    {e : EntrySpec} (he : e ∈ p.rollback) {command : List Arg} (hcommand : e.command = some command)
    {scs : List Scope} (hscs : left.scopes e.forEach = .ok scs) {sc : Scope} (hsc : sc ∈ scs)
    (happly : appliesIn e.onlyIf sc = .ok true) {words : List String}
    (hargv : argv sc command = .ok words) :
    ∃ rb ∈ dedupe (byKey Rollback.key) fix.rollback, rb.argv = some words := by
  have hmem : (⟨text sc e.text, some words⟩ : Rollback) ∈ fix.rollback := by
    refine (renderAll_mem hrendered.rollback).mpr ⟨e, he, scs, hscs, sc, hsc, happly, ?_⟩
    simp only [renderRollback, hcommand, hargv, bind, Except.bind, pure, Except.pure]
  obtain ⟨program, -, hhead⟩ := ((hallowed.rollback e he command hcommand).shown hargv).program
  obtain ⟨rest, rfl⟩ : ∃ rest, words = program :: rest := List.head?_eq_some_iff.mp hhead
  rcases @dedupe_covers _ (byKey Rollback.key) _ _ hmem with hkept | ⟨rb, hrb, hsame⟩
  · exact ⟨_, hkept, rfl⟩
  · exact ⟨rb, hrb, same_words hsame⟩

end Shown

/-! ## Offered fixes -/

/-- What an offered fix is made of. -/
structure Offer (p : Procedure) (d : Diagnosis) (env : Option EnvironmentInfo) (runner : Runner σ)
    (s : σ) (found left : Evidence) (r : Resolution) : Prop where
  gated : ∃ s' r₀, Gated p d env runner s s' found left r₀
  fix : ∃ fix, render p left = .ok fix ∧ contradiction [] fix.steps = .ok none
    ∧ r.steps = dedupe Step.same fix.steps ∧ r.confirmFirst = fix.confirmFirst
    ∧ r.rollback = dedupe (byKey Rollback.key) fix.rollback

theorem resolveProcedure_offer {r : Resolution}
    (h : resolveProcedure sha256 p d env runner s = .ok (r, s')) (hr : r.status = .offered) :
    ∃ found left, Offer p d env runner s found left r := by
  rcases resolveProcedure_cases h with hrefused | ⟨found, left, r₀, hgated, hoffer⟩
  · rw [hrefused.2.1] at hr
    cases hr
  · refine ⟨found, left, ⟨s', r₀, hgated⟩, ?_⟩
    cases offer_cases hgated.bare hgated.withheld hoffer with
    | unknown why out hrender hout =>
        rw [hout.2.1] at hr
        cases hr
    | noStep fix hrender hsteps =>
        have hw := hgated.withheld
        rw [show r₀.status = .offered from hr] at hw
        cases hw
    | contradicted fix out hrender hsteps hout =>
        rw [hout.2.1] at hr
        cases hr
    | shown fix hrender hsteps hagree => exact ⟨fix, hrender, hagree, rfl, rfl, rfl⟩

theorem Gated.examined {found left : Evidence} {r₀ : Resolution}
    (h : Gated p d env runner s s' found left r₀) : Examined p d runner s found left := by
  obtain ⟨bound, reasons, hbound, ⟨shown, hinv⟩, kept, more, hkept, -, hleft⟩ := h.bindings
  exact ⟨bound, reasons, hbound, ⟨_, hinv⟩, kept, more, hkept, hleft⟩

/-- An offered fix is safe but for the sub-commands of its rollback. -/
theorem Offer.safe_iff {found left : Evidence} {r : Resolution}
    (h : Offer p d env runner s found left r) (hallowed : p.Allowed) :
    SafeFix p d env found left r ↔ RollbackListed p left := by
  obtain ⟨s', r₀, hgated⟩ := h.gated
  obtain ⟨fix, hrender, hagree, hsteps, hconfirm, hrollback⟩ := h.fix
  have hrendered := render_rendered hrender
  constructor
  · intro hsafe e he command hcommand scs hscs sc hsc happly words hargv
    obtain ⟨rb, hrb, heq⟩ :=
      applying_rollback_shown hallowed hrendered he hcommand hscs hsc happly hargv
    exact (hsafe.rollback rb (hrollback ▸ hrb) words heq).listed
  · intro hlisted
    obtain ⟨bound, reasons, -, -, kept, more, hkept, -, hleft⟩ := hgated.bindings
    have hpassed := withholdAll_passed hkept
    obtain ⟨hdiagnosed, hconfident, hcause⟩ := doubt_none hgated.sure
    obtain ⟨prs, hprs, hopen⟩ := hgated.met
    exact
      { diagnosed := hdiagnosed
        confident := hconfident
        cause := hcause
        version := inapplicable_none hgated.applies
        withhold := hpassed.whole
        prerequisites := prerequisites_met hprs hopen
        steps := by
          intro step hstep
          rw [hsteps] at hstep
          exact rendered_step_safe hallowed hpassed hleft hrendered
            ((dedupe_sublist fix.steps).subset hstep)
        agree := hsteps ▸ kept_steps_agree hagree
        confirm := fun c hc => rendered_confirm_safe hallowed hrendered (hconfirm ▸ hc)
        rollback := by
          intro rb hrb words hwords
          rw [hrollback] at hrb
          obtain ⟨spec, hspec, command, hcommand, hshown, scs, hscs, sc, hsc, happly, hargv⟩ :=
            rendered_rollback hallowed hrendered ((dedupe_sublist _).subset hrb) hwords
          exact ⟨⟨spec, hspec, command, hcommand, hshown⟩,
            hlisted spec hspec command hcommand scs hscs sc hsc happly words hargv⟩ }

theorem resolveDiagnosis_offer {cat : List Entry} {r : Resolution}
    (h : resolveDiagnosis sha256 cat d env runner s = .ok (some r, s')) (hr : r.status = .offered) :
    ∃ p found left, Decided cat d runner s p found left ∧ .procedure p ∈ cat
      ∧ Offer p d env runner s found left r := by
  unfold resolveDiagnosis at h
  split at h
  · cases (Prod.mk.inj (Except.ok.inj h)).1
  · rename_i key hkey
    split at h
    · cases (Prod.mk.inj (Except.ok.inj h)).1
    · split at h
      · cases (Prod.mk.inj (Except.ok.inj h)).1
      · obtain ⟨hr', -⟩ := Prod.mk.inj (Except.ok.inj h)
        obtain rfl := Option.some.inj hr'
        cases hr
      · rename_i p hselected
        obtain ⟨⟨r', t⟩, hproc, h⟩ := bind_ok.mp h
        obtain ⟨hr', -⟩ := Prod.mk.inj (pure_ok.mp h)
        obtain rfl := Option.some.inj hr'
        obtain ⟨found, left, hoffer⟩ := resolveProcedure_offer hproc hr
        obtain ⟨s'', r₀, hgated⟩ := hoffer.gated
        exact ⟨p, found, left, ⟨⟨key, hkey, hselected⟩, hgated.examined⟩,
          selected_mem hselected, hoffer⟩

/-- For every accepted catalogue an offered fix is safe exactly when every
rollback that applies and runs `sssctl` names a command that a fix may use. -/
theorem offered_safely_iff (sha256 : String → String) (registry : Registry) (data : Value)
    (cat : List Entry) (hcat : validateCatalogue registry data = .ok cat) (d : Diagnosis)
    (env : Option EnvironmentInfo) (runner : Runner σ) (s s' : σ) (r : Resolution)
    (h : resolveDiagnosis sha256 cat d env runner s = .ok (some r, s'))
    (hr : r.status = .offered) :
    OfferedSafely cat d env runner s r ↔
      ∀ p found left, Decided cat d runner s p found left → RollbackListed p left := by
  obtain ⟨p, found, left, hdecided, hmem, hoffer⟩ := resolveDiagnosis_offer h hr
  have hiff := hoffer.safe_iff (validateCatalogue_allowed hcat hmem)
  constructor
  · rintro ⟨p', found', left', hdecided', hsafe⟩ p'' found'' left'' hdecided''
    obtain ⟨rfl, rfl, rfl⟩ := hdecided.unique hdecided'
    obtain ⟨rfl, -, rfl⟩ := hdecided.unique hdecided''
    exact hiff.mp hsafe
  · intro hlisted
    exact ⟨p, found, left, hdecided, hiff.mpr (hlisted p found left hdecided)⟩

/-! ## A rollback that removes logs -/

namespace Restarting

/-- Start the web server; rolling back, `sssctl` is to remove its logs. -/
def removesLogs : Value :=
  catalogue (procedure (startStep []) [rollback ["sssctl", "logs-remove"], verify])

/-- The fix is offered, with this rollback. -/
def offers (rollback : List String) (out : Option Resolution × Unit) : Bool :=
  out.1.any fun r => decide (r.status = .offered ∧ r.rollback.map Rollback.argv = [some rollback])

end Restarting

open Restarting in
theorem offered_safely_iff_stopped :
    ∃ r, resolve unlessRunning "inactive" = .ok (some r, ()) ∧ r.status = .offered
      ∧ (OfferedSafely (entries unlessRunning) diagnosis host (systemd "inactive") () r
        ↔ ∀ p found left, Decided (entries unlessRunning) diagnosis (systemd "inactive") () p found
            left → RollbackListed p left) := by
  have hvalid : returns (fun _ => true) (validateCatalogue registry unlessRunning) = true := by
    decide +kernel
  have hrun : returns (offers ["systemctl", "stop", "httpd.service"])
      (resolve unlessRunning "inactive") = true := by
    decide +kernel
  obtain ⟨cat, hcat, -⟩ := returns_iff.mp hvalid
  obtain ⟨⟨_ | r, _⟩, hres, hr⟩ := returns_iff.mp hrun
  · cases hr
  · have hoffered : r.status = .offered := (of_decide_eq_true hr).1
    have hentries : entries unlessRunning = cat := by
      simp only [entries, hcat]
    rw [hentries]
    refine ⟨r, hres, hoffered, ?_⟩
    exact offered_safely_iff id registry unlessRunning cat hcat diagnosis host (systemd "inactive")
      () () r (hentries ▸ hres) hoffered

open Restarting in
/-- An accepted catalogue whose rollback runs a command of `sssctl` that is no fix. -/
theorem removes_logs_unsafe :
    validateCatalogue registry removesLogs = .ok (entries removesLogs)
      ∧ ∃ r, resolve removesLogs "inactive" = .ok (some r, ()) ∧ r.status = .offered
        ∧ ¬ OfferedSafely (entries removesLogs) diagnosis host (systemd "inactive") () r := by
  have hvalid : returns (fun _ => true) (validateCatalogue registry removesLogs) = true := by
    decide +kernel
  have hrun : returns (offers ["sssctl", "logs-remove"]) (resolve removesLogs "inactive")
      = true := by
    decide +kernel
  obtain ⟨cat, hcat, -⟩ := returns_iff.mp hvalid
  obtain ⟨⟨_ | r, _⟩, hres, hr⟩ := returns_iff.mp hrun
  · cases hr
  · obtain ⟨hoffered, hrollback⟩ := of_decide_eq_true hr
    refine ⟨by rw [entries, hcat], r, hres, hoffered, ?_⟩
    rintro ⟨p, found, left, -, hsafe⟩
    obtain ⟨rb, hrb, hargv⟩ : ∃ rb ∈ r.rollback, rb.argv = some ["sssctl", "logs-remove"] := by
      have hmem : some ["sssctl", "logs-remove"] ∈ r.rollback.map Rollback.argv := by
        rw [hrollback]
        exact List.mem_singleton_self _
      exact List.mem_map.mp hmem
    obtain ⟨sub, hsub, hsecond⟩ := (hsafe.rollback rb hrb _ hargv).listed rfl
    obtain rfl := Option.some.inj hsecond
    simp [SSSCTL_FIX_COMMANDS] at hsub

end IpaDiagnose.Resolver
