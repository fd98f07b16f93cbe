import IpaDiagnose.Resolution.Gates

/-!
# A fix that is not offered

Every gate withholds a fix before anything of it is in the result, but for
one exit after the rendering: when no step applies, what was rendered
besides the steps stays. What is shown then is decided by the evidence the
gates leave.
-/

namespace IpaDiagnose.Resolver

open Py (Value Dict Exc)
open Result

variable {σ : Type} {sha256 : String → String} {p : Procedure} {d : Diagnosis}
  {env : Option EnvironmentInfo} {runner : Runner σ} {s s' : σ}

/-! ## What applies -/

/-- An entry applies to the evidence: in one of its scopes its condition holds. -/
def Applies (ev : Evidence) (forEach : Value) (onlyIf : Option Pred) : Prop :=
  ∃ scs, ev.scopes forEach = .ok scs
    ∧ ∃ sc ∈ scs, ∀ q, onlyIf = some q → pred sc q = .ok true

theorem renderIn_ne_nil {α : Type} {onlyIf : Option Pred} {f : Scope → Except E α}
    {scs : List Scope} {out : List α} (h : renderIn onlyIf f scs = .ok out) :
    out ≠ [] ↔ ∃ sc ∈ scs, ∀ q, onlyIf = some q → pred sc q = .ok true := by
  induction scs generalizing out with
  | nil =>
      injection h with h
      subst h
      simp
  | cons sc scs ih =>
      obtain ⟨applies, happlies, h⟩ := bind_ok.mp h
      have hiff : applies = true ↔ ∀ q, onlyIf = some q → pred sc q = .ok true := by
        cases onlyIf with
        | none =>
            injection happlies with happlies
            subst happlies
            simp
        | some q =>
            replace happlies : pred sc q = .ok applies := happlies
            simp only [Option.some.injEq, forall_eq', happlies, Except.ok.injEq]
      cases applies with
      | true =>
          obtain ⟨a, -, h⟩ := bind_ok.mp h
          obtain ⟨rest, -, h⟩ := bind_ok.mp h
          obtain rfl := pure_ok.mp h
          exact iff_of_true (List.cons_ne_nil _ _) ⟨sc, List.mem_cons_self, hiff.mp rfl⟩
      | false =>
          rw [ih h]
          constructor
          · rintro ⟨sc', hsc', happly⟩
            exact ⟨sc', List.mem_cons_of_mem _ hsc', happly⟩
          · rintro ⟨sc', hsc', happly⟩
            rcases List.mem_cons.mp hsc' with rfl | hsc'
            · cases hiff.mpr happly
            · exact ⟨sc', hsc', happly⟩

/-- Something is rendered of a list of entries exactly if one of them applies. -/
theorem renderAll_ne_nil {α β : Type} {ev : Evidence} {forEach : β → Value}
    {onlyIf : β → Option Pred} {f : β → Scope → Except E α} {bs : List β} {out : List α}
    (h : renderAll ev forEach onlyIf f bs = .ok out) :
    out ≠ [] ↔ ∃ b ∈ bs, Applies ev (forEach b) (onlyIf b) := by
  induction bs generalizing out with
  | nil =>
      injection h with h
      subst h
      simp
  | cons b bs ih =>
      obtain ⟨scs, hscs, h⟩ := bind_ok.mp h
      obtain ⟨here, hhere, h⟩ := bind_ok.mp h
      obtain ⟨rest, hrest, h⟩ := bind_ok.mp h
      obtain rfl := pure_ok.mp h
      have happ : Applies ev (forEach b) (onlyIf b) ↔ here ≠ [] := by
        rw [renderIn_ne_nil hhere]
        constructor
        · rintro ⟨scs', hscs', hex⟩
          rw [hscs] at hscs'
          injection hscs' with hscs'
          subst hscs'
          exact hex
        · exact fun hex => ⟨scs, hscs, hex⟩
      rw [ne_eq, List.append_eq_nil_iff, not_and_or, ← ne_eq, ← ne_eq, ih hrest, ← happ]
      simp

theorem dedupeFrom_nil {α : Type} {same : α → α → Bool} {seen xs : List α}
    (hseen : ∀ x ∈ seen, ∀ y ∈ xs, same y x = false) :
    dedupeFrom same seen xs = [] ↔ xs = [] := by
  cases xs with
  | nil => simp [dedupeFrom]
  | cons x xs =>
      have hnone : seen.any (same x) = false := by
        rw [List.any_eq_false]
        intro y hy
        simpa using hseen y hy x List.mem_cons_self
      simp [dedupeFrom, hnone]

theorem dedupe_eq_nil {α : Type} {same : α → α → Bool} {xs : List α} :
    dedupe same xs = [] ↔ xs = [] :=
  dedupeFrom_nil fun _ h => by cases h

/-! ## What is shown without a step -/

def StepApplies (p : Procedure) (ev : Evidence) : Prop :=
  ∃ s ∈ p.steps, Applies ev s.forEach s.onlyIf

/-- Something to confirm, a change, a rollback or a criterion applies. -/
def RestApplies (p : Procedure) (ev : Evidence) : Prop :=
  (∃ c ∈ p.confirmFirst, Applies ev c.forEach none)
    ∨ (∃ e ∈ p.whatChanges ++ p.rollback, Applies ev e.forEach e.onlyIf)
    ∨ ∃ v ∈ p.verify, Applies ev v.forEach none

/-- What is rendered of a procedure, by what applies. -/
theorem render_applies {ev : Evidence} {fix : Fix} (h : render p ev = .ok fix) :
    (fix.steps ≠ [] ↔ StepApplies p ev)
      ∧ ((fix.confirmFirst = [] ∧ fix.whatChanges = [] ∧ fix.rollback = [] ∧ fix.verify = [])
        ↔ ¬ RestApplies p ev) := by
  obtain ⟨confirm, hconfirm, h⟩ := bind_ok.mp h
  obtain ⟨steps, hsteps, h⟩ := bind_ok.mp h
  obtain ⟨changes, hchanges, h⟩ := bind_ok.mp h
  obtain ⟨rollback, hrollback, h⟩ := bind_ok.mp h
  obtain ⟨verify, hverify, h⟩ := bind_ok.mp h
  obtain ⟨criteria, hcriteria, hverify⟩ := bind_ok.mp hverify
  obtain rfl := pure_ok.mp hverify
  obtain rfl := pure_ok.mp h
  refine ⟨renderAll_ne_nil hsteps, ?_⟩
  show (dedupe _ confirm = [] ∧ changes = [] ∧ rollback = [] ∧ dedupe _ criteria = []) ↔ _
  rw [dedupe_eq_nil, dedupe_eq_nil]
  have hc := renderAll_ne_nil hconfirm
  have hw := renderAll_ne_nil hchanges
  have hr := renderAll_ne_nil hrollback
  have hv := renderAll_ne_nil hcriteria
  have hentries : (∃ e ∈ p.whatChanges ++ p.rollback, Applies ev e.forEach e.onlyIf)
      ↔ changes ≠ [] ∨ rollback ≠ [] := by
    rw [hw, hr]
    constructor
    · rintro ⟨e, he, happly⟩
      rcases List.mem_append.mp he with he | he
      · exact .inl ⟨e, he, happly⟩
      · exact .inr ⟨e, he, happly⟩
    · rintro (⟨e, he, happly⟩ | ⟨e, he, happly⟩)
      · exact ⟨e, List.mem_append_left _ he, happly⟩
      · exact ⟨e, List.mem_append_right _ he, happly⟩
  rw [RestApplies, hentries, ← hc, ← hv]
  simp only [ne_eq]
  tauto

/-- The result of a run whose gates pass. -/
theorem Gated.resolve {found left : Evidence} {r₀ r : Resolution} {s'' : σ}
    (hg : Gated p d env runner s s' found left r₀)
    (h : resolveProcedure sha256 p d env runner s = .ok (r, s'')) :
    ∃ r₁ : Resolution, r₁.Bare ∧ r₁.status = .withheld ∧ offer sha256 p d left r₁ = .ok r := by
  obtain ⟨bound, reasons, hbound, ⟨shown, hinv⟩, kept, more, hkept, hleft, rfl⟩ := hg.bindings
  obtain ⟨prs, hprs, hopen⟩ := hg.met
  have hdecide : ∀ r₂ : Resolution, r₂.reasons = reasons →
      decideFix sha256 p d found r₂
        = offer sha256 p d kept.rebound { r₂ with reasons := more, prerequisites := prs } := by
    intro r₂ hr₂
    simp only [decideFix, hg.agreeing, hr₂, hkept, hprs, hleft, hopen, bind, Except.bind,
      Bool.true_eq_false, Bool.false_eq_true, if_false]
  simp only [resolveProcedure, hg.sure, hbound, hg.applies, hinv, bind, Except.bind, pure,
    Except.pure] at h
  rw [hdecide _ rfl] at h
  split at h
  · cases h
  · rename_i out hout
    injection h with h
    injection h with h _
    subst h
    exact ⟨_, ⟨rfl, rfl, rfl, rfl, rfl, rfl⟩, rfl, hout⟩

/-- In the state the gates leave, there is a step to show, or nothing else
either, or a value that is needed is unknown. -/
def StepOrNothing (p : Procedure) (ev : Evidence) : Prop :=
  StepApplies p ev ∨ ¬ RestApplies p ev ∨ ∃ why, render p ev = .error (.own (.unknown why))

/-- A fix that is not offered shows nothing, unless no step applies and
something else does. -/
theorem not_offered_shows_nothing_iff (sha256 : String → String) (cat : List Entry)
    (d : Diagnosis) (env : Option EnvironmentInfo) (runner : Runner σ) (s s' : σ) (r : Resolution)
    (h : resolveDiagnosis sha256 cat d env runner s = .ok (some r, s'))
    (hstatus : r.status ≠ .offered) :
    (r.Bare ∧ r.reasons ≠ []) ↔
      ∀ key p, d.resolutionKey = some key → selected cat key d.variant = some (.procedure p) →
        ∀ found left r₀, Gated p d env runner s s' found left r₀ → StepOrNothing p left := by
  unfold resolveDiagnosis at h
  cases hkey : d.resolutionKey with
  | none =>
      simp only [hkey] at h
      cases h
  | some key =>
      simp only [hkey] at h
      by_cases hempty : key = ""
      · rw [if_pos hempty] at h
        cases h
      · rw [if_neg hempty] at h
        cases hsel : selected cat key d.variant with
        | none =>
            simp only [hsel] at h
            cases h
        | some entry =>
            cases entry with
            | noProcedure id diagnosis variant reason =>
                simp only [hsel] at h
                injection h with h
                injection h with h _
                injection h with h
                subst h
                refine iff_of_true ⟨⟨rfl, rfl, rfl, rfl, rfl, rfl⟩, List.cons_ne_nil _ _⟩ ?_
                intro key' p hkey' hsel'
                injection hkey' with hkey'
                subst hkey'
                rw [hsel] at hsel'
                cases hsel'
            | procedure p =>
                simp only [hsel] at h
                obtain ⟨⟨r', s''⟩, hres, h⟩ := bind_ok.mp h
                injection pure_ok.mp h with hr hs
                injection hr with hr
                subst hr hs
                constructor
                · rintro ⟨hbare, -⟩ key' p' hkey' hsel' found left r₀ hgated
                  injection hkey' with hkey'
                  subst hkey'
                  rw [hsel] at hsel'
                  injection hsel' with hsel'
                  injection hsel' with hsel'
                  subst hsel'
                  obtain ⟨r₁, hr₁, hw, hoffer⟩ := hgated.resolve hres
                  cases offer_cases hr₁ hw hoffer with
                  | unknown why out hrender => exact .inr (.inr ⟨why, hrender⟩)
                  | noStep fix hrender hsteps =>
                      refine .inr (.inl ?_)
                      exact (render_applies hrender).2.mp
                        ⟨hbare.confirmFirst, hbare.whatChanges, hbare.rollback, hbare.verify⟩
                  | contradicted fix out hrender hsteps =>
                      exact .inl ((render_applies hrender).1.mp hsteps)
                  | shown fix hrender hsteps =>
                      exact .inl ((render_applies hrender).1.mp hsteps)
                · intro hcond
                  rcases resolveProcedure_cases hres with hrefused | ⟨found, left, r₀, hgated, hoffer⟩
                  · exact ⟨hrefused.1, hrefused.2.2⟩
                  · have hstep := hcond key p rfl hsel found left r₀ hgated
                    cases offer_cases hgated.bare hgated.withheld hoffer with
                    | unknown why out hrender hout => exact ⟨hout.1, hout.2.2⟩
                    | contradicted fix out hrender hsteps hout => exact ⟨hout.1, hout.2.2⟩
                    | shown fix hrender hsteps => exact absurd rfl hstatus
                    | noStep fix hrender hsteps =>
                        obtain ⟨hiff, hrest⟩ := render_applies hrender
                        have hnone : ¬ RestApplies p left := by
                          rcases hstep with happly | hnone | ⟨why, hunknown⟩
                          · exact absurd hsteps (hiff.mpr happly)
                          · exact hnone
                          · rw [hrender] at hunknown
                            cases hunknown
                        obtain ⟨hc, hw, hr, hv⟩ := hrest.mpr hnone
                        exact ⟨⟨hgated.bare.steps, hc, hw, hr, hv, hgated.bare.baseline⟩,
                          List.append_ne_nil_of_right_ne_nil _ (List.cons_ne_nil _ _)⟩

/-! ## A service that is started -/

namespace Restarting

def registry : Registry :=
  [("systemd.unit",
    { checkId := "systemd.unit", params := [("service", "ipa_service")],
      describe := "systemd state of a service" })]

def obj (kvs : Dict) : Value := .dict kvs

def strs (ss : List String) : Value := .list (ss.map Value.str)

/-- A field of a check's result. -/
def ref (id name : String) : Value := obj [("ref", .str id), ("field", .str name)]

def activeState (id op state : String) : Value :=
  obj [("left", ref id "active_state"), ("op", .str op), ("right", .str state)]

def startStep (forms : Dict) : Value :=
  obj ([("id", .str "start"), ("text", .str "Start it."), ("run_on", .str "local"),
    ("command", strs ["systemctl", "start", "httpd.service"]), ("risk", .str "MEDIUM"),
    ("changes", strs ["service-start"]), ("expected", .str "No output.")] ++ forms)

/-- Start the web server; what is given besides goes into the procedure. -/
def procedure (step : Value) (more : Dict) : Value :=
  obj ([("kind", .str "procedure"), ("id", .str "proc.start"), ("title", .str "Start it"),
    ("resolves", obj [("diagnosis", .str "web.stopped")]), ("min_confidence", .str "HIGH"),
    ("bindings", obj []), ("applies_to", obj [("roles", strs ["ipa-server"])]),
    ("provenance", obj [("tier", .str "FIXTURE_ONLY"), ("sources", .list []),
      ("tests", strs ["tests/test_start.py"])]),
    ("investigate", .list [obj [("id", .str "unit"), ("check", .str "systemd.unit"),
      ("params", obj [("service", .str "httpd")]), ("label", .str "the web server")]]),
    ("steps", .list [step]), ("what_changes", .list [obj [("text", .str "It runs.")]])] ++ more)

def rollback (command : List String) : String × Value :=
  ("rollback", .list [obj [("text", .str "Stop it."), ("command", strs command)]])

def verify : String × Value :=
  ("verify", .list [obj [("text", .str "It is running."), ("check", .str "systemd.unit"),
    ("params", obj [("service", .str "httpd")]), ("when", activeState "this" "eq" "active")]])

def catalogue (proc : Value) : Value := obj [("schema", .int 1), ("procedures", .list [proc])]

/-- The entries of a catalogue, none if it is not accepted. -/
def entries (data : Value) : List Entry :=
  match validateCatalogue registry data with
  | .ok cat => cat
  | .error _ => []

/-- A runner that says what state the service is in. -/
def systemd (state : String) : Runner Unit where
  run := fun _ check params =>
    (.ok { checkId := check, params := params, status := OK,
           fields := [("active_state", .str state), ("unit", .str "httpd.service")] }, ())
  replay := false

def diagnosis : Diagnosis where
  packId := "web"
  ruleId := "stopped"
  status := .diagnosed
  title := "The web server is not running"
  why := "systemd says so."
  confidence := { level := .high, rationale := "systemd says so." }
  priority := .primary
  resolutionKey := some "web.stopped"
  has_next_step := no_step_needed
  is_confident := fun _ => .inl rfl

def host : Option EnvironmentInfo :=
  some { distro := some "fedora", distroVersion := some "43", pythonVersion := none,
         freeipaVersion := some "4.13.1", ipaHealthcheckVersion := none,
         directoryServerVersion := none, detectedLive := true }

def resolve (data : Value) (state : String) : Except E (Option Resolution × Unit) :=
  resolveDiagnosis id (entries data) diagnosis host (systemd state) ()

/-- The step is for a service that does not run. -/
def unlessActive : Value :=
  catalogue (procedure (startStep [("only_if", activeState "unit" "ne" "active")])
    [rollback ["systemctl", "stop", "httpd.service"], verify])

/-- The fix as a whole is withheld as soon as the service runs. -/
def unlessRunning : Value :=
  catalogue (procedure (startStep [])
    [("withhold_if", .list [obj [("when", activeState "unit" "eq" "active"),
      ("reason", .str "It is running.")]]),
      rollback ["systemctl", "stop", "httpd.service"], verify])

end Restarting

open Restarting in
theorem withheld_run :
    returns (fun out => out.1.any fun r => decide (r.status = .withheld))
      (resolve unlessRunning "active") = true := by
  decide +kernel

open Restarting in
theorem not_offered_shows_nothing_iff_running :
    ∃ r, resolve unlessRunning "active" = .ok (some r, ())
      ∧ ((r.Bare ∧ r.reasons ≠ []) ↔ ∀ key p, diagnosis.resolutionKey = some key →
        selected (entries unlessRunning) key diagnosis.variant = some (.procedure p) →
        ∀ found left r₀, Gated p diagnosis host (systemd "active") () () found left r₀ →
          StepOrNothing p left) := by
  obtain ⟨⟨_ | r, _⟩, hrun, hr⟩ := returns_iff.mp withheld_run
  · cases hr
  · have hstatus : r.status = .withheld := by simpa using hr
    exact ⟨r, hrun, not_offered_shows_nothing_iff id _ diagnosis host (systemd "active") () () r hrun
      (by rw [hstatus]; decide)⟩

open Restarting in
/-- The service runs meanwhile, so that no step applies: the fix is
withheld, and its rollback and its criteria are shown. -/
theorem no_step_shows_the_rest :
    validateCatalogue registry unlessActive = .ok (entries unlessActive)
      ∧ ∃ r, resolve unlessActive "active" = .ok (some r, ()) ∧ r.status = .withheld
        ∧ r.steps = [] ∧ r.whatChanges ≠ [] ∧ r.rollback ≠ [] ∧ r.verify ≠ [] := by
  have hvalid : returns (fun _ => true) (validateCatalogue registry unlessActive) = true := by
    decide +kernel
  have hrun : returns (fun out => out.1.any fun r => decide (r.status = .withheld
      ∧ r.steps = [] ∧ r.whatChanges ≠ [] ∧ r.rollback ≠ [] ∧ r.verify ≠ []))
      (resolve unlessActive "active") = true := by
    decide +kernel
  obtain ⟨cat, hcat, -⟩ := returns_iff.mp hvalid
  obtain ⟨⟨_ | r, _⟩, hres, hr⟩ := returns_iff.mp hrun
  · cases hr
  · refine ⟨by rw [entries, hcat], r, hres, ?_⟩
    simpa using hr

end IpaDiagnose.Resolver
