import IpaDiagnose.Lib.Assoc
import IpaDiagnose.Resolution.Gates

/-!
# The commands of an accepted catalogue

What validation leaves of the commands of a procedure: a confirmation runs
an inspection program, a step an allowed program and of `sssctl` an allowed
command. The commands of a rollback are checked in another place, and there
only the program is.
-/

namespace IpaDiagnose.Resolver

open Py (Value Dict Exc)
open Result

/-! ## Checks that returned -/

theorem failIf_ok {bad : Prop} [Decidable bad] {pid message : String} :
    failIf bad pid message = .ok () ↔ ¬ bad := by
  unfold failIf
  by_cases h : bad
  · rw [if_pos h]
    exact iff_of_false (fun hf => by cases hf) (not_not_intro h)
  · rw [if_neg h]
    exact iff_of_true rfl h

/-- What a check leaves of a list comes from its elements. -/
theorem checkEach_mem {α : Type} {f : Nat → Value → Except E α} {vs : List Value} {i : Nat}
    {out : List α} (h : checkEach f i vs = .ok out) {a : α} (ha : a ∈ out) :
    ∃ j v, f j v = .ok a := by
  induction vs generalizing i out with
  | nil =>
      obtain rfl := Except.ok.inj h
      cases ha
  | cons v vs ih =>
      obtain ⟨b, hb, h⟩ := bind_ok.mp h
      obtain ⟨rest, hrest, h⟩ := bind_ok.mp h
      obtain rfl := pure_ok.mp h
      rcases List.mem_cons.mp ha with rfl | ha
      · exact ⟨i, v, hb⟩
      · exact ih hrest ha

/-! ## Commands -/

/-- A command runs one of these programs. -/
def Runs (programs : List String) (command : List Arg) : Prop :=
  ∃ program ∈ programs, ∃ args, command = .lit program :: args

/-- Of `sssctl`, a command that a fix may use, spelled out. -/
def SubCommand (command : List Arg) : Prop :=
  program? command = some "sssctl" →
    ∃ sub ∈ SSSCTL_FIX_COMMANDS, ∃ args, command = .lit "sssctl" :: .lit sub :: args

theorem checkArgv_program {ctx : Ctx} {where_ : String} {v : Value} {command : List Arg}
    (h : checkArgv ctx where_ v = .ok command) :
    ∃ program args, command = .lit program :: args := by
  unfold checkArgv at h
  split at h
  · rename_i program vs
    obtain ⟨-, -, h⟩ := bind_ok.mp h
    obtain ⟨a, ha, h⟩ := bind_ok.mp h
    obtain ⟨rest, -, h⟩ := bind_ok.mp h
    obtain rfl := pure_ok.mp h
    obtain ⟨-, -, ha⟩ := bind_ok.mp ha
    obtain rfl := pure_ok.mp ha
    exact ⟨program, rest, rfl⟩
  · cases h
  · cases h

theorem checkConfirm_runs {ctx : Ctx} {i : Nat} {v : Value} {c : ConfirmSpec}
    (h : checkConfirm ctx i v = .ok c) : Runs (CONFIRM_PROGRAMS.map Prod.fst) c.command := by
  obtain ⟨entry, -, h⟩ := bind_ok.mp h
  obtain ⟨command, hcommand, h⟩ := bind_ok.mp h
  obtain ⟨_, hprogram, h⟩ := bind_ok.mp h
  obtain ⟨text, -, h⟩ := bind_ok.mp h
  obtain ⟨expect, -, h⟩ := bind_ok.mp h
  obtain rfl := pure_ok.mp h
  obtain ⟨program, args, rfl⟩ := checkArgv_program hcommand
  refine ⟨program, ?_, args, rfl⟩
  have hknown : CONFIRM_PROGRAMS.lookup program ≠ none := by
    intro hnone
    have hprogram : checkConfirmProgram _ _ (.lit program :: args) = .ok () := hprogram
    unfold checkConfirmProgram at hprogram
    simp only [program?, Option.getD_some, hnone] at hprogram
    cases hprogram
  rw [List.mem_map]
  obtain ⟨options, hoptions⟩ := Option.ne_none_iff_exists'.mp hknown
  exact ⟨(program, options), Assoc.mem_of_lookup hoptions, rfl⟩

theorem runs_of_contains {programs : List String} {program : String} {args : List Arg}
    (h : ¬ programs.contains ((program? (.lit program :: args)).getD "") = false) :
    Runs programs (.lit program :: args) := by
  rw [program?, Option.getD_some, Bool.not_eq_false] at h
  exact ⟨program, by simpa using h, args, rfl⟩

theorem checkStepProgram_ok {pid where_ program : String} {args : List Arg}
    (h : checkStepProgram pid where_ (.lit program :: args) = .ok ()) :
    Runs FIX_PROGRAMS (.lit program :: args) ∧ SubCommand (.lit program :: args) := by
  obtain ⟨_, hprogram, h⟩ := bind_ok.mp h
  refine ⟨runs_of_contains (failIf_ok.mp hprogram), fun hsssctl => ?_⟩
  rw [if_pos hsssctl] at h
  obtain rfl : program = "sssctl" := by simpa [program?] using hsssctl
  cases args with
  | nil => cases h
  | cons a args =>
      cases a with
      | lit sub =>
          have hsub := failIf_ok.mp h
          rw [Bool.not_eq_false] at hsub
          exact ⟨sub, by simpa using hsub, args, rfl⟩
      | hole ref type => cases h

theorem checkStep_ok {ctx : Ctx} {v : Value} {s : StepSpec} (h : checkStep ctx v = .ok s) :
    Runs FIX_PROGRAMS s.command ∧ SubCommand s.command := by
  obtain ⟨entry, -, h⟩ := bind_ok.mp h
  obtain ⟨-, -, h⟩ := bind_ok.mp h
  obtain ⟨risk, -, h⟩ := bind_ok.mp h
  obtain ⟨-, -, h⟩ := bind_ok.mp h
  obtain ⟨xs, -, h⟩ := bind_ok.mp h
  obtain ⟨changes, -, h⟩ := bind_ok.mp h
  obtain ⟨command, hcommand, h⟩ := bind_ok.mp h
  obtain ⟨_, hprogram, h⟩ := bind_ok.mp h
  obtain ⟨onlyIf, -, h⟩ := bind_ok.mp h
  obtain ⟨text, -, h⟩ := bind_ok.mp h
  obtain ⟨expected, -, h⟩ := bind_ok.mp h
  obtain rfl := pure_ok.mp h
  obtain ⟨program, args, rfl⟩ := checkArgv_program hcommand
  exact checkStepProgram_ok hprogram

theorem checkEntry_runs {key : String} {ctx : Ctx} {i : Nat} {v : Value} {e : EntrySpec}
    (h : checkEntry key ctx i v = .ok e) :
    ∀ command, e.command = some command → Runs FIX_PROGRAMS command := by
  intro command he
  obtain ⟨entry, -, h⟩ := bind_ok.mp h
  obtain ⟨text, -, h⟩ := bind_ok.mp h
  obtain ⟨command', hcommand, h⟩ := bind_ok.mp h
  obtain ⟨onlyIf, -, h⟩ := bind_ok.mp h
  obtain rfl := pure_ok.mp h
  obtain rfl : command' = some command := he
  unfold checkCommand at hcommand
  split at hcommand
  · cases hcommand
  · obtain ⟨argv, hargv, hcommand⟩ := bind_ok.mp hcommand
    obtain ⟨_, hprogram, hcommand⟩ := bind_ok.mp hcommand
    obtain rfl := Option.some.inj (pure_ok.mp hcommand)
    obtain ⟨program, args, rfl⟩ := checkArgv_program hargv
    exact runs_of_contains (failIf_ok.mp hprogram)

/-! ## Procedures -/

/-- The commands of a procedure as validation leaves them. -/
structure Procedure.Allowed (p : Procedure) : Prop where
  confirm : ∀ c ∈ p.confirmFirst, Runs (CONFIRM_PROGRAMS.map Prod.fst) c.command
  steps : ∀ s ∈ p.steps, Runs FIX_PROGRAMS s.command ∧ SubCommand s.command
  rollback : ∀ e ∈ p.rollback, ∀ command, e.command = some command → Runs FIX_PROGRAMS command

theorem checkProcedure_allowed {registry : Registry} {pid : String} {raw : Value} {p : Procedure}
    (h : checkProcedure registry pid raw = .ok p) : p.Allowed := by
  obtain ⟨proc, -, h⟩ := bind_ok.mp h
  obtain ⟨-, -, h⟩ := bind_ok.mp h
  obtain ⟨resolves, -, h⟩ := bind_ok.mp h
  obtain ⟨confidence, -, h⟩ := bind_ok.mp h
  dsimp only at h
  split at h
  swap
  · obtain ⟨bindings, hfail, -⟩ := bind_ok.mp h
    cases hfail
  obtain ⟨bindings, -, h⟩ := bind_ok.mp h
  obtain ⟨applies, -, h⟩ := bind_ok.mp h
  obtain ⟨invs, -, h⟩ := bind_ok.mp h
  obtain ⟨investigate, -, h⟩ := bind_ok.mp h
  obtain ⟨ws, -, h⟩ := bind_ok.mp h
  obtain ⟨withholdIf, -, h⟩ := bind_ok.mp h
  obtain ⟨prs, -, h⟩ := bind_ok.mp h
  obtain ⟨prerequisites, -, h⟩ := bind_ok.mp h
  obtain ⟨cs, -, h⟩ := bind_ok.mp h
  obtain ⟨confirmFirst, hconfirm, h⟩ := bind_ok.mp h
  obtain ⟨-, -, h⟩ := bind_ok.mp h
  obtain ⟨ss, -, h⟩ := bind_ok.mp h
  obtain ⟨steps, hsteps, h⟩ := bind_ok.mp h
  obtain ⟨es, -, h⟩ := bind_ok.mp h
  obtain ⟨changes, -, h⟩ := bind_ok.mp h
  obtain ⟨rs, -, h⟩ := bind_ok.mp h
  obtain ⟨rollback, hrollback, h⟩ := bind_ok.mp h
  obtain ⟨-, -, h⟩ := bind_ok.mp h
  obtain ⟨vs, -, h⟩ := bind_ok.mp h
  obtain ⟨verify, -, h⟩ := bind_ok.mp h
  obtain rfl := pure_ok.mp h
  constructor
  · intro c hc
    obtain ⟨i, v, hv⟩ := checkEach_mem hconfirm hc
    exact checkConfirm_runs hv
  · intro s hs
    obtain ⟨-, v, hv⟩ := checkEach_mem hsteps hs
    exact checkStep_ok hv
  · intro e he
    obtain ⟨i, v, hv⟩ := checkEach_mem hrollback he
    exact checkEntry_runs hv

theorem validateProcedure_allowed {registry : Registry} {v : Value} {p : Procedure}
    (h : validateProcedure registry v = .ok (.procedure p)) : p.Allowed := by
  obtain ⟨id, -, h⟩ := bind_ok.mp h
  split at h
  · obtain ⟨-, -, h⟩ := bind_ok.mp h
    obtain ⟨kind, -, h⟩ := bind_ok.mp h
    split at h
    · obtain ⟨entry, -, h⟩ := bind_ok.mp h
      obtain ⟨target, -, h⟩ := bind_ok.mp h
      dsimp only at h
      split at h
      · obtain ⟨-, -, h⟩ := bind_ok.mp h
        cases pure_ok.mp h
      · cases h
    · obtain ⟨p', hp', h⟩ := bind_ok.mp h
      obtain rfl := Entry.procedure.inj (pure_ok.mp h)
      exact checkProcedure_allowed hp'
  · cases h

theorem validateEntries_allowed {registry : Registry} {vs : List Value} {seen : List String}
    {targets : List (Value × Value)} {cat : List Entry}
    (h : validateEntries registry seen targets vs = .ok cat) {p : Procedure}
    (hp : .procedure p ∈ cat) : p.Allowed := by
  induction vs generalizing seen targets cat with
  | nil =>
      obtain rfl := Except.ok.inj h
      cases hp
  | cons v vs ih =>
      obtain ⟨entry, hentry, h⟩ := bind_ok.mp h
      obtain ⟨-, -, h⟩ := bind_ok.mp h
      split at h
      · cases h
      · obtain ⟨-, -, h⟩ := bind_ok.mp h
        obtain ⟨rest, hrest, h⟩ := bind_ok.mp h
        obtain rfl := pure_ok.mp h
        rcases List.mem_cons.mp hp with rfl | hp
        · exact validateProcedure_allowed hentry
        · exact ih hrest hp

/-- Every procedure of an accepted catalogue runs allowed programs only. -/
theorem validateCatalogue_allowed {registry : Registry} {data : Value} {cat : List Entry}
    (h : validateCatalogue registry data = .ok cat) {p : Procedure} (hp : .procedure p ∈ cat) :
    p.Allowed := by
  unfold validateCatalogue at h
  split at h
  · dsimp only at h
    split at h
    · split at h
      · exact validateEntries_allowed h hp
      · cases h
    · cases h
  · cases h

/-- What is selected for a diagnosis is an entry of the catalogue. -/
theorem selected_mem {cat : List Entry} {key : String} {variant : Option String} {e : Entry}
    (h : selected cat key variant = some e) : e ∈ cat := by
  have hmem := List.mem_of_mem_head? h
  rw [List.mem_mergeSort] at hmem
  exact List.mem_of_mem_filter hmem

end IpaDiagnose.Resolver
