import IpaDiagnose.Resolution.Allowed

/-!
# What a fix shows

How the parts of a fix come from the entries of a procedure: what is
rendered of a list, what is kept of it, what the conditions leave of the
evidence, and the words a command is shown as.
-/

namespace IpaDiagnose.Resolver

open Py (Value Dict Exc)
open Result

variable {p : Procedure}

/-! ## What is kept of a list -/

section Dedupe

variable {α : Type} {same : α → α → Bool}

theorem dedupeFrom_sublist (seen xs : List α) : (dedupeFrom same seen xs).Sublist xs := by
  induction xs generalizing seen with
  | nil => exact List.Sublist.refl _
  | cons x xs ih =>
      rw [dedupeFrom]
      split
      · exact (ih seen).cons x
      · exact (ih (x :: seen)).cons_cons x

theorem dedupe_sublist (xs : List α) : (dedupe same xs).Sublist xs := dedupeFrom_sublist [] xs

/-- What is kept is no repetition, of what was seen or of what is kept before it. -/
theorem dedupeFrom_new (seen xs : List α) :
    (∀ x ∈ dedupeFrom same seen xs, ∀ y ∈ seen, same x y = false)
      ∧ (dedupeFrom same seen xs).Pairwise fun y x => same x y = false := by
  induction xs generalizing seen with
  | nil => exact ⟨fun x hx => (List.not_mem_nil hx).elim, List.Pairwise.nil⟩
  | cons x xs ih =>
      rw [dedupeFrom]
      split
      · exact ih seen
      · rename_i hnew
        obtain ⟨hseen, hpair⟩ := ih (x :: seen)
        refine ⟨fun z hz y hy => ?_, List.pairwise_cons.mpr ⟨fun z hz => ?_, hpair⟩⟩
        · rcases List.mem_cons.mp hz with rfl | hz
          · rw [Bool.not_eq_true, List.any_eq_false] at hnew
            simpa using hnew y hy
          · exact hseen z hz y (List.mem_cons_of_mem _ hy)
        · exact hseen z hz x List.mem_cons_self

theorem dedupe_pairwise (xs : List α) :
    (dedupe same xs).Pairwise fun y x => same x y = false := (dedupeFrom_new [] xs).2

/-- What is dropped repeats something that was seen or is kept. -/
theorem dedupeFrom_covers {seen xs : List α} {x : α} (hx : x ∈ xs) :
    x ∈ dedupeFrom same seen xs ∨ ∃ y ∈ seen ++ dedupeFrom same seen xs, same x y = true := by
  induction xs generalizing seen with
  | nil => cases hx
  | cons z xs ih =>
      rw [dedupeFrom]
      split
      · rename_i hold
        rcases List.mem_cons.mp hx with rfl | hx
        · obtain ⟨y, hy, hsame⟩ := List.any_eq_true.mp hold
          exact .inr ⟨y, List.mem_append_left _ hy, hsame⟩
        · exact ih hx
      · rcases List.mem_cons.mp hx with rfl | hx
        · exact .inl List.mem_cons_self
        · rcases @ih (z :: seen) hx with hkept | ⟨y, hy, hsame⟩
          · exact .inl (List.mem_cons_of_mem _ hkept)
          · refine .inr ⟨y, ?_, hsame⟩
            simp only [List.cons_append, List.mem_cons, List.mem_append] at hy ⊢
            tauto

theorem dedupe_covers {xs : List α} {x : α} (hx : x ∈ xs) :
    x ∈ dedupe same xs ∨ ∃ y ∈ dedupe same xs, same x y = true :=
  dedupeFrom_covers hx

end Dedupe

/-! ## What is rendered -/

theorem renderIn_mem {α : Type} {onlyIf : Option Pred} {f : Scope → Except E α} {scs : List Scope}
    {out : List α} (h : renderIn onlyIf f scs = .ok out) {a : α} :
    a ∈ out ↔ ∃ sc ∈ scs, appliesIn onlyIf sc = .ok true ∧ f sc = .ok a := by
  induction scs generalizing out with
  | nil =>
      obtain rfl := Except.ok.inj h
      simp
  | cons sc scs ih =>
      obtain ⟨applies, happlies, h⟩ := bind_ok.mp h
      cases applies with
      | false =>
          rw [ih h]
          simp [happlies]
      | true =>
          obtain ⟨b, hb, h⟩ := bind_ok.mp h
          obtain ⟨rest, hrest, h⟩ := bind_ok.mp h
          obtain rfl := pure_ok.mp h
          have hhere : b = a ↔ a = b := eq_comm
          simp only [List.mem_cons, exists_eq_or_imp, happlies, hb, ih hrest, true_and,
            Except.ok.injEq, hhere]

/-- What is rendered of a list of entries: an entry, in a scope it applies to. -/
theorem renderAll_mem {α β : Type} {ev : Evidence} {forEach : β → Value}
    {onlyIf : β → Option Pred} {f : β → Scope → Except E α} {bs : List β} {out : List α}
    (h : renderAll ev forEach onlyIf f bs = .ok out) {a : α} :
    a ∈ out ↔ ∃ b ∈ bs, ∃ scs, ev.scopes (forEach b) = .ok scs
      ∧ ∃ sc ∈ scs, appliesIn (onlyIf b) sc = .ok true ∧ f b sc = .ok a := by
  induction bs generalizing out with
  | nil =>
      obtain rfl := Except.ok.inj h
      simp
  | cons b bs ih =>
      obtain ⟨scs, hscs, h⟩ := bind_ok.mp h
      obtain ⟨here, hhere, h⟩ := bind_ok.mp h
      obtain ⟨rest, hrest, h⟩ := bind_ok.mp h
      obtain rfl := pure_ok.mp h
      simp only [List.mem_append, List.mem_cons, exists_eq_or_imp, renderIn_mem hhere, ih hrest,
        hscs, Except.ok.injEq, exists_eq_left']

/-- The parts of a fix, each rendered from its entries. -/
structure Rendered (p : Procedure) (ev : Evidence) (fix : Fix) : Prop where
  confirm : ∃ cs, renderAll ev ConfirmSpec.forEach (fun _ => none) renderConfirm p.confirmFirst
    = .ok cs ∧ fix.confirmFirst = dedupe (byKey Confirm.argv) cs
  steps : renderAll ev StepSpec.forEach StepSpec.onlyIf renderStep p.steps = .ok fix.steps
  rollback : renderAll ev EntrySpec.forEach EntrySpec.onlyIf renderRollback p.rollback
    = .ok fix.rollback

theorem render_rendered {ev : Evidence} {fix : Fix} (h : render p ev = .ok fix) :
    Rendered p ev fix := by
  obtain ⟨confirm, hconfirm, h⟩ := bind_ok.mp h
  obtain ⟨steps, hsteps, h⟩ := bind_ok.mp h
  obtain ⟨changes, -, h⟩ := bind_ok.mp h
  obtain ⟨rollback, hrollback, h⟩ := bind_ok.mp h
  obtain ⟨verify, -, h⟩ := bind_ok.mp h
  obtain rfl := pure_ok.mp h
  exact ⟨⟨confirm, hconfirm, rfl⟩, hsteps, hrollback⟩

/-! ## Commands that are shown -/

/-- What an argument may be shown as: the literal it is, or a value that its
type accepts. -/
inductive Arg.Shows : Arg → String → Prop where
  | lit (s : String) : Shows (.lit s) s
  | hole (ref : Dict) (type : String) (raw : Value) (v : String)
      (h : (T.validate type raw : Except E (Option String)) = .ok (some v)) :
      Shows (.hole ref type) v

/-- A command as it is shown: an allowed program, and the arguments of the
procedure's command. -/
structure Shown (programs : List String) (command : List Arg) (words : List String) : Prop where
  program : ∃ program ∈ programs, words.head? = some program
  args : List.Forall₂ Arg.Shows command words

/-- Of `sssctl`, a command that a fix may use. -/
def Listed (words : List String) : Prop :=
  words.head? = some "sssctl" → ∃ sub ∈ SSSCTL_FIX_COMMANDS, words[1]? = some sub

theorem argOf_shows {sc : Scope} {a : Arg} {v : String} (h : argOf sc a = .ok v) : a.Shows v := by
  cases a with
  | lit s =>
      obtain rfl := Except.ok.inj h
      exact .lit s
  | hole ref type =>
      obtain ⟨raw, -, h⟩ := bind_ok.mp h
      obtain ⟨got, hgot, h⟩ := bind_ok.mp h
      cases got with
      | none => cases h
      | some w =>
          obtain rfl := pure_ok.mp h
          exact .hole ref type raw w hgot

theorem argv_shows {sc : Scope} {command : List Arg} {words : List String}
    (h : argv sc command = .ok words) : List.Forall₂ Arg.Shows command words := by
  induction command generalizing words with
  | nil =>
      obtain rfl := Except.ok.inj h
      exact .nil
  | cons a command ih =>
      obtain ⟨v, hv, h⟩ := bind_ok.mp h
      obtain ⟨rest, hrest, h⟩ := bind_ok.mp h
      obtain rfl := pure_ok.mp h
      exact .cons (argOf_shows hv) (ih hrest)

theorem Runs.shown {programs : List String} {sc : Scope} {command : List Arg}
    {words : List String} (hruns : Runs programs command) (h : argv sc command = .ok words) :
    Shown programs command words := by
  have hargs := argv_shows h
  obtain ⟨program, hprogram, args, rfl⟩ := hruns
  refine ⟨⟨program, hprogram, ?_⟩, hargs⟩
  cases hargs with
  | cons hhead htail =>
      cases hhead
      rfl

/-- A sub-command that is spelled out is shown as it is. -/
theorem SubCommand.listed {sc : Scope} {command : List Arg} {words : List String}
    (hsub : SubCommand command) (h : argv sc command = .ok words)
    (hlit : ∃ program args, command = .lit program :: args) : Listed words := by
  intro hsssctl
  have hargs := argv_shows h
  obtain ⟨program, args, rfl⟩ := hlit
  cases hargs with
  | cons hhead htail =>
      cases hhead
      obtain rfl : program = "sssctl" := by simpa using hsssctl
      obtain ⟨sub, hmem, rest, heq⟩ := hsub rfl
      obtain rfl : args = .lit sub :: rest := by simpa using heq
      cases htail with
      | cons hsecond hrest =>
          cases hsecond
          exact ⟨sub, hmem, rfl⟩

theorem not_sssctl {command : List Arg} {words : List String}
    (h : Shown (CONFIRM_PROGRAMS.map Prod.fst) command words) : Listed words := by
  intro hsssctl
  obtain ⟨program, hprogram, hhead⟩ := h.program
  rw [hsssctl] at hhead
  obtain rfl := Option.some.inj hhead
  simp [CONFIRM_PROGRAMS] at hprogram

/-! ## What is withheld -/

theorem setTargets_lookup {n : String} {ts old : List Target} {ls : List (String × List Target)}
    (h : ls.lookup n = some old) : (Evidence.setTargets (.str n) ts ls).lookup n = some ts := by
  induction ls with
  | nil => cases h
  | cons l ls ih =>
      obtain ⟨m, us⟩ := l
      unfold Evidence.setTargets
      by_cases hm : m = n
      · rw [if_pos (congrArg Value.str hm), hm, List.lookup_cons_self]
      · have hne : (n == m) = false := beq_eq_false_iff_ne.mpr (Ne.symm hm)
        rw [List.lookup_cons, hne] at h
        rw [if_neg (fun he => hm (Value.str.inj he)), List.lookup_cons, hne]
        exact ih h

theorem setTargets_lookup_of_ne {name : Value} {m : String} {ts : List Target}
    {ls : List (String × List Target)} (h : Value.str m ≠ name) :
    (Evidence.setTargets name ts ls).lookup m = ls.lookup m := by
  induction ls with
  | nil => rfl
  | cons l ls ih =>
      obtain ⟨n, us⟩ := l
      unfold Evidence.setTargets
      by_cases hn : Value.str n = name
      · have hne : (m == n) = false := by
          rw [beq_eq_false_iff_ne]
          rintro rfl
          exact h hn
        rw [if_pos hn, List.lookup_cons, List.lookup_cons, hne]
      · rw [if_neg hn, List.lookup_cons, List.lookup_cons, ih]

theorem targets_ok {ev : Evidence} {name : Value} {ts : List Target} :
    ev.targets name = .ok ts ↔ ∃ n, name = .str n ∧ ev.lists.lookup n = some ts := by
  unfold Evidence.targets Py.lookupKey
  cases name with
  | str n =>
      cases hl : ev.lists.lookup n with
      | none => simp [hl, bind, Except.bind]
      | some us => simp [hl, bind, Except.bind, pure, Except.pure]
  | _ => simp [bind, Except.bind]

/-- The items of a list after another list, or this one, was narrowed. -/
theorem targets_narrow {ev : Evidence} {name other : Value} {kept old ts : List Target}
    (hold : ev.targets name = .ok old) (h : (ev.narrow name kept).targets other = .ok ts) :
    if other = name then ts = kept else ev.targets other = .ok ts := by
  obtain ⟨n, rfl, hn⟩ := targets_ok.mp hold
  obtain ⟨m, rfl, hm⟩ := targets_ok.mp h
  by_cases heq : m = n
  · subst heq
    rw [Evidence.narrow, setTargets_lookup hn] at hm
    rw [if_pos rfl]
    exact (Option.some.inj hm).symm
  · have hne : Value.str m ≠ Value.str n := fun he => heq (Value.str.inj he)
    rw [Evidence.narrow, setTargets_lookup_of_ne hne] at hm
    rw [if_neg hne]
    exact targets_ok.mpr ⟨m, rfl, hm⟩

theorem dropTarget_none {w : Withhold} {ev : Evidence} {t : Target}
    (h : dropTarget w ev t = .ok none) : pred (ev.scopeOf t) w.when = .ok false := by
  unfold dropTarget at h
  split at h
  · cases h
  · assumption
  · cases h
  · cases h

/-- An item that is kept passed the condition. -/
theorem dropTargets_kept {w : Withhold} {ev : Evidence} {ts kept : List Target}
    {reasons : List String} (h : dropTargets w ev ts = .ok (kept, reasons)) :
    ∀ t ∈ kept, t ∈ ts ∧ pred (ev.scopeOf t) w.when = .ok false := by
  induction ts generalizing kept reasons with
  | nil =>
      obtain ⟨rfl, -⟩ := Prod.mk.inj (Except.ok.inj h)
      exact fun t ht => (List.not_mem_nil ht).elim
  | cons t ts ih =>
      obtain ⟨why, hwhy, h⟩ := bind_ok.mp h
      obtain ⟨⟨rest, more⟩, hrest, h⟩ := bind_ok.mp h
      cases why with
      | some why =>
          obtain ⟨rfl, -⟩ := Prod.mk.inj (pure_ok.mp h)
          intro u hu
          obtain ⟨hmem, hpass⟩ := ih hrest u hu
          exact ⟨List.mem_cons_of_mem _ hmem, hpass⟩
      | none =>
          obtain ⟨rfl, -⟩ := Prod.mk.inj (pure_ok.mp h)
          intro u hu
          rcases List.mem_cons.mp hu with rfl | hu
          · exact ⟨List.mem_cons_self, dropTarget_none hwhy⟩
          · obtain ⟨hmem, hpass⟩ := ih hrest u hu
            exact ⟨List.mem_cons_of_mem _ hmem, hpass⟩

/-- What conditions `ws` leave of the evidence: each about the whole fix is
false, and so is each about a list, for every item that is left of it. -/
structure Passed (ws : List Withhold) (ev kept : Evidence) : Prop where
  bindings : kept.bindings = ev.bindings
  checks : kept.checks = ev.checks
  whole : ∀ w ∈ ws, w.forEach.truthy = false → pred ev.base w.when = .ok false
  items : ∀ name ts, kept.targets name = .ok ts → ∃ all, ev.targets name = .ok all
    ∧ ∀ t ∈ ts, t ∈ all ∧ ∀ w ∈ ws, w.forEach.truthy = true → w.forEach = name →
      pred (ev.scopeOf t) w.when = .ok false

theorem Passed.refl (ev : Evidence) : Passed [] ev ev where
  bindings := rfl
  checks := rfl
  whole := fun _ hw => (List.not_mem_nil hw).elim
  items := fun _ ts hts => ⟨ts, hts, fun _ ht => ⟨ht, fun _ hw => (List.not_mem_nil hw).elim⟩⟩

theorem Passed.cons {w : Withhold} {ws : List Withhold} {ev next kept : Evidence}
    (hone : Passed [w] ev next) (hrest : Passed ws next kept) : Passed (w :: ws) ev kept := by
  have hbase : next.base = ev.base := by
    rw [Evidence.base, hone.bindings, hone.checks]
    rfl
  have hscope : ∀ t, next.scopeOf t = ev.scopeOf t := by
    intro t
    rw [Evidence.scopeOf, hone.bindings, hone.checks]
    rfl
  refine ⟨hrest.bindings.trans hone.bindings, hrest.checks.trans hone.checks, ?_, ?_⟩
  · intro w' hw' hfalsy
    rcases List.mem_cons.mp hw' with rfl | hw'
    · exact hone.whole w' List.mem_cons_self hfalsy
    · exact hbase ▸ hrest.whole w' hw' hfalsy
  · intro name ts hts
    obtain ⟨mid, hmid, hpass⟩ := hrest.items name ts hts
    obtain ⟨all, hall, hpass'⟩ := hone.items name mid hmid
    refine ⟨all, hall, fun t ht => ?_⟩
    obtain ⟨hmem, hlater⟩ := hpass t ht
    obtain ⟨hmem, hfirst⟩ := hpass' t hmem
    refine ⟨hmem, fun w' hw' htruthy heq => ?_⟩
    rcases List.mem_cons.mp hw' with rfl | hw'
    · exact hfirst w' List.mem_cons_self htruthy heq
    · exact hscope t ▸ hlater w' hw' htruthy heq

theorem withholdOne_passed {w : Withhold} {ev kept : Evidence} {reasons more : List String}
    (h : withholdOne w ev reasons = .ok (.pass (kept, more))) : Passed [w] ev kept := by
  unfold withholdOne at h
  by_cases htruthy : w.forEach.truthy = true
  · rw [if_pos htruthy] at h
    obtain ⟨all, hall, h⟩ := bind_ok.mp h
    obtain ⟨⟨ts, why⟩, hdrop, h⟩ := bind_ok.mp h
    obtain ⟨rfl, -⟩ := Prod.mk.inj (Gate.pass.inj (pure_ok.mp h))
    refine ⟨rfl, rfl, fun w' hw' hfalsy => ?_, fun name us hus => ?_⟩
    · rw [List.mem_singleton.mp hw', htruthy] at hfalsy
      cases hfalsy
    · have hnarrow := targets_narrow hall hus
      by_cases heq : name = w.forEach
      · rw [if_pos heq] at hnarrow
        subst heq hnarrow
        refine ⟨all, hall, fun t ht => ?_⟩
        obtain ⟨hmem, hpass⟩ := dropTargets_kept hdrop t ht
        exact ⟨hmem, fun w' hw' _ _ => List.mem_singleton.mp hw' ▸ hpass⟩
      · rw [if_neg heq] at hnarrow
        refine ⟨us, hnarrow, fun t ht => ⟨ht, fun w' hw' _ hname => ?_⟩⟩
        rw [List.mem_singleton.mp hw'] at hname
        exact absurd hname.symm heq
  · rw [if_neg htruthy] at h
    split at h
    · cases Except.ok.inj h
    · rename_i hfalse
      obtain ⟨rfl, -⟩ := Prod.mk.inj (Gate.pass.inj (Except.ok.inj h))
      refine ⟨rfl, rfl, fun w' hw' _ => List.mem_singleton.mp hw' ▸ hfalse, ?_⟩
      refine fun name ts hts => ⟨ts, hts, fun t ht => ⟨ht, fun w' hw' ht' _ => ?_⟩⟩
      rw [List.mem_singleton.mp hw'] at ht'
      exact absurd ht' htruthy
    · cases Except.ok.inj h
    · cases h

theorem withholdAll_passed {ws : List Withhold} {ev kept : Evidence} {reasons more : List String}
    (h : withholdAll ws ev reasons = .ok (.pass (kept, more))) : Passed ws ev kept := by
  induction ws generalizing ev reasons with
  | nil =>
      obtain ⟨rfl, -⟩ := Prod.mk.inj (Gate.pass.inj (Except.ok.inj h))
      exact Passed.refl ev
  | cons w ws ih =>
      obtain ⟨g, hg, h⟩ := bind_ok.mp h
      cases g with
      | withhold why => cases pure_ok.mp h
      | pass a => exact (withholdOne_passed hg).cons (ih h)

end IpaDiagnose.Resolver
