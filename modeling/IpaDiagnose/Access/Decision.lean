import IpaDiagnose.Access.Evaluate

/-!
# What an authorization verdict rests on

A verdict rests on the answers to the first four calls: the user and the
host were read, and the evaluator decided. What the reads after it return
changes nothing. The one exception (`verdicts_rest_iff`): an evaluator
that answers with an error without a text counts as one that denied.
-/

namespace IpaDiagnose.Access

open Py (Value Dict)
open Run (nameOf userCall hostCall serviceCall testCall evaluationOf rulesOf)

/-! ## The answers a verdict may rest on -/

/-- The user exists, can be read and is not preserved. -/
structure UserRead (r : ApiResponse) : Prop where
  ok : r.error = none
  named : nameOf r.entry "uid" ≠ none
  kept : flag (get r.entry "preserved") ≠ some true

structure HostRead (r : ApiResponse) : Prop where
  ok : r.error = none
  named : nameOf r.entry "fqdn" ≠ none

/-- The evaluator returned a boolean, matched rules exactly when it is
true, no rule it could not evaluate, and the whole list. -/
structure Decides (r : ApiResponse) (granted : Bool) : Prop where
  ok : r.error = none
  value : get r.fields "value" = .bool granted
  matched : strs (get r.fields "matched") ≠ [] ↔ granted = true
  no_errors : strs (get r.fields "error") = []
  whole : is_truncated r = false

namespace Answers

variable (s : Script) (api : Api) (t : Targets)

def user : ApiResponse := (api.ask s (userCall t)).1

def afterUser : Api := (api.ask s (userCall t)).2

def host : ApiResponse := ((afterUser s api t).ask s (hostCall t)).1

def afterHost : Api := ((afterUser s api t).ask s (hostCall t)).2

def service : ApiResponse := ((afterHost s api t).ask s (serviceCall t)).1

def afterService : Api := ((afterHost s api t).ask s (serviceCall t)).2

def service_name : String :=
  let r := service s api t
  if r.ok then (nameOf r.entry "cn").getD t.service else t.service

def request : Call :=
  testCall ((nameOf (user s api t).entry "uid").getD "")
    ((nameOf (host s api t).entry "fqdn").getD "") (service_name s api t)

def test : ApiResponse := ((afterService s api t).ask s (request s api t)).1

def afterTest : Api := ((afterService s api t).ask s (request s api t)).2

end Answers

/-- The user and the host were read and the evaluator decided so. -/
structure Grounds (s : Script) (api : Api) (t : Targets) (granted : Bool) : Prop where
  user : UserRead (Answers.user s api t)
  host : HostRead (Answers.host s api t)
  decides : Decides (Answers.test s api t) granted

/-! ## One call -/

namespace Api

variable {s s' : Script} {api : Api} {c : Call}

theorem ask_fst : (api.ask s c).1 = (api.call s c).1 := rfl

theorem ask_snd : (api.ask s c).2 = (api.call s c).2.heed (api.call s c).1 := rfl

@[simp] theorem heed_asked (resp : ApiResponse) : (api.heed resp).asked = api.asked := by
  unfold heed
  split
  · split <;> rfl
  · rfl

@[simp] theorem ask_asked : (api.ask s c).2.asked = api.asked + 1 := by
  rw [ask_snd, heed_asked, call_asked]

theorem ask_congr {n : Nat} (h : s.AgreeUpTo s' n) (hn : api.asked < n) :
    api.ask s c = api.ask s' c := by
  rw [ask, ask, call_congr h hn]

/-- Only a server that can be asked answers anything but `unavailable`. -/
theorem given_of_answer (h : ∀ e, (api.ask s c).1.error = some e → e.kind ≠ .unavailable) :
    given api.unavailable = false := by
  by_contra hset
  have hcall := call_of_unavailable (s := s) (Bool.eq_true_of_not_eq_false hset) c
  rw [ask_fst, hcall] at h
  exact h _ rfl rfl

/-- A server that answers can be asked, and still can. -/
theorem ask_given_of_ok (h : (api.ask s c).1.error = none) :
    given (api.ask s c).2.unavailable = false := by
  have hgiven : given api.unavailable = false := by
    apply given_of_answer (s := s) (c := c)
    rw [h]
    nofun
  rw [ask_fst] at h
  rw [ask_snd, heed, h, call_unavailable, hgiven]

/-- An error without a text does not make the server one that cannot be
asked. -/
theorem ask_given_of_silent {e : ApiError} (h : (api.ask s c).1.error = some e)
    (hkind : e.kind ≠ .unavailable) (hmessage : e.message = "") :
    given (api.ask s c).2.unavailable = false := by
  have hgiven : given api.unavailable = false := by
    apply given_of_answer (s := s) (c := c)
    rw [h]
    intro d hd
    cases hd
    exact hkind
  rw [ask_fst] at h
  rw [ask_snd, heed, h]
  split
  · rename_i message heq
    cases heq
    have hempty : message = "" := hmessage
    rw [call_unavailable, if_neg (by simp [hgiven]), hempty]
    rfl
  · rw [call_unavailable, hgiven]

end Api

/-! ## The reads before the decision -/

namespace Run

variable {s : Script} {t : Targets} {now : Nat} {run : Run}

@[simp] theorem find_api (code : FindingCode) (blocking : Bool) :
    (run.find code blocking).api = run.api := by
  unfold find
  split <;> rfl

@[simp] theorem findIf_api (b : Bool) (code : FindingCode) (blocking : Bool) :
    (run.findIf b code blocking).api = run.api := by
  unfold findIf
  split <;> simp

@[simp] theorem call_fst (c : Call) : (run.call s c).1 = (run.api.ask s c).1 := rfl

@[simp] theorem call_api (c : Call) : (run.call s c).2.api = (run.api.ask s c).2 := rfl

@[simp] theorem user_api : (run.user s t now).2.2.api = (run.api.ask s (userCall t)).2 := by
  unfold user
  dsimp only
  split
  · split <;> simp
  · split
    · simp
    · split <;> simp

@[simp] theorem host_api : (run.host s t).2.2.api = (run.api.ask s (hostCall t)).2 := by
  unfold host
  dsimp only
  split
  · split <;> simp
  · split <;> simp

@[simp] theorem service_api : (run.service s t).2.api = (run.api.ask s (serviceCall t)).2 := by
  unfold service
  dsimp only
  split
  · split <;> simp
  · split <;> simp

/-- The account exists and is not preserved exactly when the answer says
so; it then has the name of the answer. -/
theorem user_exists :
    (run.user s t now).1.exists_ = some true ∧ (run.user s t now).1.preserved ≠ some true ↔
      UserRead (run.api.ask s (userCall t)).1 := by
  unfold user
  dsimp only
  rw [call_fst]
  split
  · rename_i e herr
    have hno : ¬ UserRead (run.api.ask s (userCall t)).1 := fun h => by
      rw [h.ok] at herr
      exact nomatch herr
    split <;> simp [hno]
  · rename_i hok
    split
    · rename_i hname
      have hno : ¬ UserRead (run.api.ask s (userCall t)).1 := fun h => h.named hname
      simp [hno]
    · rename_i uid hname
      split
      · rename_i hpreserved
        have hno : ¬ UserRead (run.api.ask s (userCall t)).1 := fun h => h.kept hpreserved
        simp [hno]
      · rename_i hkept
        have hyes : UserRead (run.api.ask s (userCall t)).1 := ⟨hok, by simp [hname], hkept⟩
        simp [hyes]

theorem user_canonical (h : UserRead (run.api.ask s (userCall t)).1) :
    (run.user s t now).1.canonical = nameOf (run.api.ask s (userCall t)).1.entry "uid" := by
  unfold user
  dsimp only
  rw [call_fst, h.ok]
  dsimp only
  split
  · rename_i hname
    exact absurd hname h.named
  · rename_i uid hname
    rw [if_neg h.kept, hname]

theorem host_exists :
    (run.host s t).1.exists_ = some true ↔ HostRead (run.api.ask s (hostCall t)).1 := by
  unfold host
  dsimp only
  rw [call_fst]
  split
  · rename_i e herr
    have hno : ¬ HostRead (run.api.ask s (hostCall t)).1 := fun h => by
      rw [h.ok] at herr
      exact nomatch herr
    split <;> simp [hno]
  · rename_i hok
    split
    · rename_i hname
      have hno : ¬ HostRead (run.api.ask s (hostCall t)).1 := fun h => h.named hname
      simp [hno]
    · rename_i fqdn hname
      have hyes : HostRead (run.api.ask s (hostCall t)).1 := ⟨hok, by simp [hname]⟩
      simp [hyes]

theorem host_canonical (h : HostRead (run.api.ask s (hostCall t)).1) :
    (run.host s t).1.canonical = nameOf (run.api.ask s (hostCall t)).1.entry "fqdn" := by
  unfold host
  dsimp only
  rw [call_fst, h.ok]
  dsimp only
  split
  · rename_i hname
    exact absurd hname h.named
  · rename_i fqdn hname
    rw [hname]

theorem service_canonical :
    (run.service s t).1.canonical =
      if (run.api.ask s (serviceCall t)).1.ok then
        nameOf (run.api.ask s (serviceCall t)).1.entry "cn"
      else none := by
  unfold service
  dsimp only
  rw [call_fst]
  split
  · rename_i e herr
    split <;> simp [ApiResponse.ok, herr]
  · rename_i hok
    split
    · rename_i hname
      simp [ApiResponse.ok, hok, hname]
    · rename_i cn hname
      simp [ApiResponse.ok, hok, hname]

theorem given_nameOf {entry : Dict} {attr name : String} (h : nameOf entry attr = some name) :
    given (some name) = true := by
  have hne : name ≠ "" := by
    rintro rfl
    exact nameOf_ne_empty h
  simpa [given] using hne

end Run

/-! ## The evaluator's answer -/

/-- An answer the evaluation could not use, which has no text to say so. -/
def Silent (r : ApiResponse) : Prop :=
  ∃ e, r.error = some e ∧ e.message = "" ∧
    (e.kind = .api ∨ e.kind = .auth ∨ e.kind = .budget ∨ e.kind = .not_recorded)

theorem describe_error_empty {r : ApiResponse} (h : r.error ≠ none) :
    describe_error r = "" ↔ Silent r := by
  obtain ⟨⟨kind, message⟩, he⟩ := Option.ne_none_iff_exists'.mp h
  have hne : ∀ {p m : String}, p ≠ "" → p ++ m ≠ "" := by
    intro p m hp heq
    rw [← String.toList_inj, String.toList_append] at heq
    exact hp (String.toList_inj.mp (List.append_eq_nil_iff.mp heq).1)
  simp only [describe_error, Silent, he, Option.some.injEq, exists_eq_left']
  cases kind <;> simp [hne, String.append_assoc]

section Evaluation

variable {r : ApiResponse} {user_rules : List String}

theorem evaluationOf_failed (h : r.error ≠ none) :
    evaluationOf r user_rules = { ran := true, error := some (describe_error r) } := by
  obtain ⟨e, he⟩ := Option.ne_none_iff_exists'.mp h
  rw [evaluationOf, he]

/-- An answer without an error holds a decision that is no contradiction
in itself, or none, and then the evaluation says why. -/
theorem evaluationOf_ok (h : r.error = none) :
    ((evaluationOf r user_rules).granted = none ∧
        given (evaluationOf r user_rules).error = true) ∨
      ∃ b, (get r.fields "value" = .bool b) ∧ (strs (get r.fields "matched") ≠ [] ↔ b = true) ∧
        evaluationOf r user_rules = { rulesOf r user_rules with granted := some b } := by
  unfold evaluationOf
  rw [h]
  dsimp only
  split
  · rename_i b hb
    by_cases hmatched : strs (get r.fields "matched") = []
    · cases b with
      | true =>
          have hempty : (rulesOf r user_rules).matched.isEmpty = true := by
            simp [rulesOf, hmatched]
          rw [if_pos (by simp [hempty])]
          exact .inl ⟨rfl, rfl⟩
      | false =>
          have hempty : (rulesOf r user_rules).matched.isEmpty = true := by
            simp [rulesOf, hmatched]
          rw [if_neg (by simp), if_neg (by simp [hempty])]
          exact .inr ⟨false, hb, by simp [hmatched], rfl⟩
    · have hempty : (rulesOf r user_rules).matched.isEmpty = false := by
        simp [rulesOf, hmatched]
      cases b with
      | true =>
          rw [if_neg (by simp [hempty]), if_neg (by simp)]
          exact .inr ⟨true, hb, by simp [hmatched], rfl⟩
      | false =>
          rw [if_neg (by simp), if_pos (by simp [hempty])]
          exact .inl ⟨rfl, rfl⟩
  · exact .inl ⟨rfl, rfl⟩

@[simp] theorem evaluationOf_ran : (evaluationOf r user_rules).ran = true := by
  by_cases h : r.error = none
  · unfold evaluationOf
    rw [h]
    dsimp only
    split
    · split
      · rfl
      · split <;> rfl
    · rfl
  · rw [evaluationOf_failed h]

end Evaluation

/-! ## Up to the decision -/

/-- What was read when the evaluator was asked. -/
structure Asked (s : Script) (api : Api) (t : Targets) (k : Known) (run : Run) : Prop where
  user : UserRead (Answers.user s api t)
  host : HostRead (Answers.host s api t)
  askable : k.askable = true
  evaluation : ∃ user_rules, k.evaluation = evaluationOf (Answers.test s api t) user_rules
  api : run.api = Answers.afterTest s api t

section Decide

variable {s : Script} {api : Api} {t : Targets} {now : Nat}

theorem read_objects_api :
    (read_objects s t now (newRun api t)).2.api = Answers.afterService s api t := by
  simp [read_objects, newRun, Answers.afterService, Answers.afterHost, Answers.afterUser]

theorem askable_iff :
    (read_objects s t now (newRun api t)).1.askable = true ↔
      UserRead (Answers.user s api t) ∧ HostRead (Answers.host s api t) := by
  have huser := @Run.user_exists s t now (newRun api t)
  have hhost := @Run.host_exists s t ((newRun api t).user s t now).2.2
  rw [Run.user_api] at hhost
  simp only [Known.askable, read_objects, Bool.and_eq_true, beq_iff_eq, bne_iff_ne, ne_eq]
  exact and_congr huser hhost

/-- The evaluator is asked about the names the answers gave. -/
theorem request_of_read (huser : UserRead (Answers.user s api t))
    (hhost : HostRead (Answers.host s api t)) :
    testCall (read_objects s t now (newRun api t)).1.user_c
      (read_objects s t now (newRun api t)).1.host_c
      ((read_objects s t now (newRun api t)).1.svc_c t) = Answers.request s api t := by
  have hu : (read_objects s t now (newRun api t)).1.account.canonical
      = nameOf (Answers.user s api t).entry "uid" := Run.user_canonical huser
  have hh : (read_objects s t now (newRun api t)).1.host_st.canonical
      = nameOf (Answers.host s api t).entry "fqdn" := by
    have hread : HostRead ((((newRun api t).user s t now).2.2.api.ask s (hostCall t)).1) := by
      rw [Run.user_api]
      exact hhost
    have := Run.host_canonical hread
    rw [Run.user_api] at this
    exact this
  have hs : (read_objects s t now (newRun api t)).1.svc_c t = Answers.service_name s api t := by
    have hcanonical := @Run.service_canonical s t
      (((newRun api t).user s t now).2.2.host s t).2.2
    rw [Run.host_api, Run.user_api] at hcanonical
    have hsvc : (read_objects s t now (newRun api t)).1.svc_st.canonical
        = if (Answers.service s api t).ok then nameOf (Answers.service s api t).entry "cn"
          else none := hcanonical
    rw [Known.svc_c, hsvc, Answers.service_name]
    by_cases hok : (Answers.service s api t).ok = true
    · rw [if_pos hok, if_pos hok]
      cases hname : nameOf (Answers.service s api t).entry "cn" with
      | none => rfl
      | some name => rw [if_pos (Run.given_nameOf hname)]; rfl
    · rw [if_neg hok, if_neg hok]
      rfl
  rw [Answers.request, Known.user_c, Known.host_c, hu, hh, hs]

/-- Without an evaluation nothing is decided, and one is made when the
user and the host were read. -/
theorem decide_access_cases (s : Script) (api : Api) (t : Targets) (now : Nat) :
    ((decide_access s t now (newRun api t)).1.evaluation.ran = false ∧
      ¬(given api.unavailable = false ∧ given t.user_domain = false ∧
        UserRead (Answers.user s api t) ∧ HostRead (Answers.host s api t))) ∨
    (given api.unavailable = false ∧ given t.user_domain = false ∧
      Asked s api t (decide_access s t now (newRun api t)).1
        (decide_access s t now (newRun api t)).2) := by
  unfold decide_access
  by_cases hunavailable : given (newRun api t).api.unavailable = true
  · rw [if_pos hunavailable]
    have hset : given api.unavailable = true := hunavailable
    exact .inl ⟨rfl, by simp [hset]⟩
  rw [if_neg hunavailable]
  have hunset : given api.unavailable = false := Bool.eq_false_of_not_eq_true hunavailable
  by_cases hdomain : given t.user_domain = true
  · rw [if_pos hdomain]
    exact .inl ⟨rfl, by simp [hdomain]⟩
  rw [if_neg hdomain]
  have hown := Bool.eq_false_of_not_eq_true hdomain
  dsimp only
  unfold evaluate
  by_cases hask : (read_objects s t now (newRun api t)).1.askable = true
  · rw [if_pos hask]
    obtain ⟨huser, hhost⟩ := askable_iff.mp hask
    refine .inr ⟨hunset, hown, huser, hhost, hask, ?_, ?_⟩
    · refine ⟨(read_objects s t now (newRun api t)).2.user_rules, ?_⟩
      rw [Answers.test, ← read_objects_api, ← request_of_read huser hhost]
      rfl
    · rw [Answers.afterTest, ← read_objects_api, ← request_of_read huser hhost]
      rfl
  · rw [if_neg hask]
    rw [askable_iff] at hask
    exact .inl ⟨rfl, fun h => hask ⟨h.2.2.1, h.2.2.2⟩⟩

end Decide

/-! ## The verdict -/

/-- Nothing stands between the evaluator's word and the verdict. -/
structure Trusted (run : Run) (t : Targets) (k : Known) : Prop where
  available : given run.api.unavailable = false
  own : given t.user_domain = false
  kept : k.account.preserved ≠ some true
  there : ¬(k.account.exists_ = some false ∨ k.host_st.exists_ = some false)
  ran : k.evaluation.ran = true
  usable : given k.evaluation.error = false
  whole : k.evaluation.truncated = false
  no_errors : k.evaluation.error_rules = []

section Verdict

variable {run run' : Run} {t : Targets} {k : Known} {es es' : List RuleExplanation}

theorem authorization_trusted (h : Trusted run t k) :
    (authorization run t k es).1.state
      = if k.evaluation.granted = some true then .pass else .fail := by
  obtain ⟨h₁, h₂, h₃, h₄, h₅, h₆, h₇, h₈⟩ := h
  unfold authorization
  simp only [h₁, h₂, h₃, h₄, h₅, h₆, h₇, h₈, Bool.false_eq_true, if_false, reduceCtorEq, ne_eq,
    not_true_eq_false]
  split <;> rfl

theorem authorization_untrusted (h : ¬ Trusted run t k) :
    (authorization run t k es).1.state = .unknown := by
  unfold authorization
  dsimp only
  by_cases h₁ : given run.api.unavailable = true
  · rw [if_pos h₁]
  rw [if_neg h₁]
  by_cases h₂ : given t.user_domain = true
  · rw [if_pos h₂]
  rw [if_neg h₂]
  by_cases h₃ : k.account.preserved = some true
  · rw [if_pos h₃]
  rw [if_neg h₃]
  by_cases h₄ : k.account.exists_ = some false ∨ k.host_st.exists_ = some false
  · rw [if_pos h₄]
  rw [if_neg h₄]
  by_cases h₅ : k.evaluation.ran = false
  · rw [if_pos h₅]
  rw [if_neg h₅]
  by_cases h₆ : given k.evaluation.error = true
  · rw [if_pos h₆]
  rw [if_neg h₆]
  by_cases h₇ : k.evaluation.truncated = true
  · rw [if_pos h₇]
  rw [if_neg h₇]
  by_cases h₈ : k.evaluation.error_rules = []
  · simp only [Bool.not_eq_true, Bool.not_eq_false] at h₁ h₂ h₅ h₆ h₇
    exact absurd ⟨h₁, h₂, h₃, h₄, h₅, h₆, h₇, h₈⟩ h
  · rw [if_pos h₈]

/-- The explanation is no part of the verdict, and neither is the run, as
long as the server can be asked. -/
theorem authorization_congr (h : given run.api.unavailable = false)
    (h' : given run'.api.unavailable = false) :
    (authorization run t k es).1 = (authorization run' t k es').1 := by
  unfold authorization
  simp only [h, h', Bool.false_eq_true, if_false, apply_ite Prod.fst]

/-- Only a decision is explained. -/
theorem explanation_skipped {s : Script}
    (h : ¬(k.evaluation.ran = true ∧ k.evaluation.error = none)) :
    explanation s t k run = ([], run) := by
  unfold explanation
  rw [if_neg]
  simpa using h

/-- A ticket refused after the decision does not count. -/
theorem settle_decided : given (settle true run).api.unavailable = false := by
  unfold settle
  by_cases hset : given run.api.unavailable = true
  · simp only [Bool.true_and, if_pos hset]
    rw [if_neg (by simp [given])]
    rfl
  · simp only [Bool.true_and, if_neg hset]
    rw [if_neg (by simp [hset])]
    exact Bool.eq_false_of_not_eq_true hset

@[simp] theorem settle_undecided_api : (settle false run).api = run.api := by
  unfold settle
  simp only [Bool.false_and, Bool.false_eq_true, if_false]
  split <;> simp

end Verdict

/-! ## Every run -/

/-- The evaluator was asked, and answered with an error that has no text. -/
structure SilentRefusal (s : Script) (api : Api) (t : Targets) : Prop where
  available : given api.unavailable = false
  own : given t.user_domain = false
  user : UserRead (Answers.user s api t)
  host : HostRead (Answers.host s api t)
  silent : Silent (Answers.test s api t)

/-- How an evaluation ends: with a decision, without one for a reason that
has a text, or without one and without a text. -/
inductive Ends (s : Script) (api : Api) (t : Targets) (k : Known) (run : Run) : Prop where
  | undecided (skipped : ¬(k.evaluation.ran = true ∧ k.evaluation.error = none))
      (untrusted : ¬(k.evaluation.ran = true ∧ given k.evaluation.error = false))
      (loud : ¬ SilentRefusal s api t)
  | decided (b : Bool) (user : UserRead (Answers.user s api t))
      (host : HostRead (Answers.host s api t)) (isDecided : IpaDiagnose.Access.decided k run = true)
      (granted : k.evaluation.granted = some b)
      (grounds : k.evaluation.truncated = false → k.evaluation.error_rules = [] →
        Decides (Answers.test s api t) b) (loud : ¬ SilentRefusal s api t)
  | silent (refusal : SilentRefusal s api t)
      (notDecided : IpaDiagnose.Access.decided k run = false)
      (skipped : ¬(k.evaluation.ran = true ∧ k.evaluation.error = none))
      (granted : k.evaluation.granted = none) (trusted : Trusted run t k)

section Runs

variable {s s' : Script} {api : Api} {t : Targets} {now : Nat}

theorem Known.account_of_askable {k : Known} (h : k.askable = true) :
    k.account.preserved ≠ some true
      ∧ ¬(k.account.exists_ = some false ∨ k.host_st.exists_ = some false) := by
  simp only [askable, Bool.and_eq_true, beq_iff_eq, bne_iff_ne] at h
  obtain ⟨⟨hexists, hkept⟩, hhost⟩ := h
  exact ⟨hkept, by simp [hexists, hhost]⟩

theorem decide_access_ends (s : Script) (api : Api) (t : Targets) (now : Nat) :
    Ends s api t (decide_access s t now (newRun api t)).1
      (decide_access s t now (newRun api t)).2 := by
  rcases decide_access_cases s api t now with ⟨hran, hnot⟩ | ⟨havailable, hown, hasked⟩
  · refine .undecided (by simp [hran]) (by simp [hran]) fun h => ?_
    exact hnot ⟨h.available, h.own, h.user, h.host⟩
  generalize (decide_access s t now (newRun api t)).1 = k at hasked ⊢
  generalize (decide_access s t now (newRun api t)).2 = run at hasked ⊢
  obtain ⟨huser, hhost, haskable, ⟨user_rules, hevaluation⟩, hapi⟩ := hasked
  by_cases herror : (Answers.test s api t).error = none
  · have hloud : ¬ SilentRefusal s api t := by
      rintro ⟨-, -, -, -, e, he, -⟩
      rw [herror] at he
      exact nomatch he
    rcases @evaluationOf_ok _ user_rules herror with ⟨hnone, hgiven⟩ | ⟨b, hvalue, hmatched, heq⟩
    · rw [← hevaluation] at hnone hgiven
      refine .undecided ?_ (by simp [hgiven]) hloud
      rintro ⟨-, h⟩
      rw [h] at hgiven
      exact nomatch hgiven
    · rw [← hevaluation] at heq
      refine .decided b huser hhost ?_ (by rw [heq]) ?_ hloud
      · have hgiven := Api.ask_given_of_ok herror
        rw [decided, heq, hapi, Answers.afterTest, hgiven]
        rfl
      · intro hwhole herrors
        rw [heq] at hwhole herrors
        exact ⟨herror, hvalue, hmatched, herrors, hwhole⟩
  · have hfailed := @evaluationOf_failed _ user_rules herror
    rw [← hevaluation] at hfailed
    have hskipped : ¬(k.evaluation.ran = true ∧ k.evaluation.error = none) := by
      simp [hfailed]
    by_cases hsilent : Silent (Answers.test s api t)
    · obtain ⟨hkept, hthere⟩ := Known.account_of_askable haskable
      have hempty := (describe_error_empty herror).mpr hsilent
      refine .silent ⟨havailable, hown, huser, hhost, hsilent⟩ ?_ hskipped (by rw [hfailed]) ?_
      · rw [decided, hfailed]
        rfl
      · obtain ⟨e, he, hmessage, hkind⟩ := hsilent
        refine ⟨?_, hown, hkept, hthere, by rw [hfailed], ?_, by rw [hfailed], by rw [hfailed]⟩
        · rw [hapi]
          refine Api.ask_given_of_silent he ?_ hmessage
          rcases hkind with h | h | h | h <;> simp [h]
        · rw [hfailed, hempty]
          rfl
    · refine .undecided hskipped ?_ fun h => hsilent h.silent
      have hne : describe_error (Answers.test s api t) ≠ "" := fun h =>
        hsilent ((describe_error_empty herror).mp h)
      simp [hfailed, given, hne]

/-! ## Two runs -/

namespace Run

theorem call_congr {n : Nat} (h : s.AgreeUpTo s' n) {run : Run} (hn : run.api.asked < n)
    (c : Call) : run.call s c = run.call s' c := by
  rw [call, call, Api.ask_congr h hn]

theorem user_congr {n : Nat} (h : s.AgreeUpTo s' n) {run : Run} (hn : run.api.asked < n) :
    run.user s t now = run.user s' t now := by
  rw [user, user, call_congr h hn]

theorem host_congr {n : Nat} (h : s.AgreeUpTo s' n) {run : Run} (hn : run.api.asked < n) :
    run.host s t = run.host s' t := by
  rw [host, host, call_congr h hn]

theorem service_congr {n : Nat} (h : s.AgreeUpTo s' n) {run : Run} (hn : run.api.asked < n) :
    run.service s t = run.service s' t := by
  unfold service
  rw [call_congr h hn]

end Run

/-- The reads up to the decision are the first four calls. -/
theorem decide_access_congr (h : s.AgreeUpTo s' (api.asked + 4)) :
    decide_access s t now (newRun api t) = decide_access s' t now (newRun api t) := by
  have hzero : (newRun api t).api.asked = api.asked := rfl
  have hread : read_objects s t now (newRun api t) = read_objects s' t now (newRun api t) := by
    unfold read_objects
    dsimp only
    rw [Run.user_congr h (by omega)]
    have hone : ((newRun api t).user s' t now).2.2.api.asked = api.asked + 1 := by
      rw [Run.user_api, Api.ask_asked, hzero]
    rw [Run.host_congr h (by omega)]
    have htwo : ((((newRun api t).user s' t now).2.2.host s' t).2.2).api.asked
        = api.asked + 2 := by
      rw [Run.host_api, Api.ask_asked, hone]
    rw [Run.service_congr h (by omega)]
  have hthree : (read_objects s' t now (newRun api t)).2.api.asked = api.asked + 3 := by
    rw [read_objects_api, Answers.afterService, Api.ask_asked, Answers.afterHost, Api.ask_asked,
      Answers.afterUser, Api.ask_asked]
  unfold decide_access
  split
  · rfl
  split
  · have hfound : ((newRun api t).find .trustedIdentityUnsupported true).api.asked = api.asked := by
      rw [Run.find_api, hzero]
    have hlt : (((newRun api t).find .trustedIdentityUnsupported true).host s' t).2.2.api.asked
        < api.asked + 4 := by
      rw [Run.host_api, Api.ask_asked, hfound]
      omega
    dsimp only
    rw [Run.host_congr h (by omega), Run.service_congr h hlt]
  · dsimp only
    rw [hread]
    unfold evaluate Run.hbactest
    rw [Run.call_congr h (by omega)]

/-! ## What every verdict rests on -/

/-- Access is allowed or refused on grounds, and a run that gets the same
answers up to the decision comes to the same verdict. -/
structure VerdictRests (s : Script) (api : Api) (t : Targets) (now : Nat) : Prop where
  pass : (diagnose s api t now).authorization.state = .pass → Grounds s api t true
  fail : (diagnose s api t now).authorization.state = .fail → Grounds s api t false
  same : ∀ s', s.AgreeUpTo s' (api.asked + 4) →
    (diagnose s' api t now).authorization = (diagnose s api t now).authorization

/-- The verdict, after the reads up to the decision. -/
def verdictFrom (s : Script) (t : Targets) (k : Known) (run : Run) : Verdict :=
  (authorization (settle (decided k run) (explanation s t k run).2) t k
    (explanation s t k run).1).1

theorem diagnose_authorization :
    (diagnose s api t now).authorization = verdictFrom s t (decide_access s t now (newRun api t)).1
      (decide_access s t now (newRun api t)).2 := rfl

theorem verdict_same (h : s.AgreeUpTo s' (api.asked + 4)) :
    (diagnose s' api t now).authorization = (diagnose s api t now).authorization := by
  have hends := decide_access_ends s api t now
  rw [diagnose_authorization, diagnose_authorization, ← decide_access_congr h]
  generalize (decide_access s t now (newRun api t)).1 = k at hends ⊢
  generalize (decide_access s t now (newRun api t)).2 = run at hends ⊢
  cases hends with
  | undecided skipped _ _ =>
      rw [verdictFrom, verdictFrom, explanation_skipped skipped, explanation_skipped skipped]
  | silent _ _ skipped _ _ =>
      rw [verdictFrom, verdictFrom, explanation_skipped skipped, explanation_skipped skipped]
  | decided b _ _ isDecided _ _ _ =>
      rw [verdictFrom, verdictFrom, isDecided]
      exact authorization_congr settle_decided settle_decided

/-- A verdict rests on the evaluator's decision unless the evaluator
failed without a text. -/
theorem verdicts_rest_iff : VerdictRests s api t now ↔ ¬ SilentRefusal s api t := by
  have hends := decide_access_ends s api t now
  have hstate : (diagnose s api t now).authorization
      = verdictFrom s t (decide_access s t now (newRun api t)).1
        (decide_access s t now (newRun api t)).2 := diagnose_authorization
  generalize (decide_access s t now (newRun api t)).1 = k at hends hstate
  generalize (decide_access s t now (newRun api t)).2 = run at hends hstate
  cases hends with
  | undecided skipped untrusted loud =>
      have hunknown : (diagnose s api t now).authorization.state = .unknown := by
        rw [hstate, verdictFrom]
        exact authorization_untrusted fun h => untrusted ⟨h.ran, h.usable⟩
      refine ⟨fun _ => loud, fun _ => ⟨fun h => ?_, fun h => ?_, fun s' hs => verdict_same hs⟩⟩
      · rw [hunknown] at h
        exact nomatch h
      · rw [hunknown] at h
        exact nomatch h
  | decided b user host isDecided granted grounds loud =>
      refine ⟨fun _ => loud, fun _ => ?_⟩
      rw [verdictFrom, isDecided] at hstate
      have hgrounds : (diagnose s api t now).authorization.state ≠ .unknown →
          Grounds s api t b ∧ (diagnose s api t now).authorization.state
            = if b = true then .pass else .fail := by
        intro hknown
        by_cases htrusted : Trusted (settle true (explanation s t k run).2) t k
        · refine ⟨⟨user, host, grounds htrusted.whole htrusted.no_errors⟩, ?_⟩
          rw [hstate, authorization_trusted htrusted, granted]
          simp
        · rw [hstate, authorization_untrusted htrusted] at hknown
          exact absurd rfl hknown
      refine ⟨fun h => ?_, fun h => ?_, fun s' hs => verdict_same hs⟩
      · obtain ⟨hg, hb⟩ := hgrounds (by simp [h])
        cases b with
        | true => exact hg
        | false =>
            rw [h] at hb
            exact nomatch hb
      · obtain ⟨hg, hb⟩ := hgrounds (by simp [h])
        cases b with
        | false => exact hg
        | true =>
            rw [h] at hb
            exact nomatch hb
  | silent refusal notDecided skipped granted trusted =>
      refine ⟨fun h => ?_, fun h => absurd refusal h⟩
      rw [verdictFrom, notDecided, explanation_skipped skipped] at hstate
      have htrusted : Trusted (settle false run) t k :=
        ⟨by rw [settle_undecided_api]; exact trusted.available, trusted.own, trusted.kept,
          trusted.there, trusted.ran, trusted.usable, trusted.whole, trusted.no_errors⟩
      have hfail : (diagnose s api t now).authorization.state = .fail := by
        rw [hstate, authorization_trusted htrusted, granted]
        rfl
      obtain ⟨e, he, -⟩ := refusal.silent
      have hok := (h.fail hfail).decides.ok
      rw [he] at hok
      exact nomatch hok

end Runs

/-! ## An error without a text -/

namespace Mute

def shown (entry : Dict) : ApiResponse :=
  from_jsonrpc (.dict [("result", .dict [("result", .dict entry)]), ("error", .null)])

def script : Script where
  answer n _ :=
    match n with
    | 0 => shown [("uid", .list [.str "bob"]), ("nsaccountlock", .bool false)]
    | 1 => shown [("fqdn", .list [.str "app.ipa.test"]), ("has_keytab", .bool true)]
    | 2 => shown [("cn", .list [.str "sshd"])]
    | _ => from_jsonrpc (.dict [("result", .null), ("error",
        .dict [("code", .int 903), ("name", .str "InternalError"), ("message", .str "")])])

def targets : Targets where
  user := "bob"
  host := "app.ipa.test"
  service := "sshd"

end Mute

/-- An internal error of the server, without a text, denies access. -/
theorem mute_error_denies :
    ¬ ∀ (s : Script) (api : Api) (t : Targets) (now : Nat), VerdictRests s api t now := by
  intro h
  have hfail : (diagnose Mute.script {} Mute.targets 0).authorization.state = .fail := by
    decide +kernel
  have herror : (Answers.test Mute.script {} Mute.targets).error ≠ none := by decide +kernel
  exact herror ((h Mute.script {} Mute.targets 0).fail hfail).decides.ok

end IpaDiagnose.Access
