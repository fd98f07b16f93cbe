import IpaDiagnose.Client.PamStack
import IpaDiagnose.Planner.Visits
import IpaDiagnose.Sanitized

/-!
# When a PAM stack reported complete is complete

The list of account modules is given only if no bound was hit and every
include could be read. It then holds the modules of exactly the account
lines the walk reads (`Visible`): the first characters of each file, and
the files named by plain names. Whether it holds the modules of all
account lines of the stack depends on the lines it does not read.
-/

namespace IpaDiagnose.Client

open Py (Value Dict)
open Regex (Re)
open Planner (Context Env RunState Record Visited)

/-! ## The stack of a service -/

/-- A rule of a PAM file. -/
inductive Rule where
  | account (path : String)
  | incl (target : String)
deriving DecidableEq

/-- How the text of a file is read as rules. -/
abbrev Reading := String → List Rule

/-- The file PAM starts with: a service without a file gets that of `other`. -/
def rootOf (files : PamFiles) (svc : String) : String :=
  if files (joinPamD svc) = .missing then "other" else svc

section Stacks

variable (files : PamFiles) (read : Reading)

/-- The files that are part of the stack. -/
inductive Reached (root : String) : String → Prop where
  | root : Reached root root
  | incl {name target t : String} (h : Reached root name)
      (hfile : files (joinPamD name) = .text t) (hrule : .incl target ∈ read t) :
      Reached root target

/-- An account rule of the stack names the module. -/
def Named (svc module_ : String) : Prop :=
  ∃ name t path, Reached files read (rootOf files svc) name
    ∧ files (joinPamD name) = .text t ∧ .account path ∈ read t ∧ module_ = basename path

/-- The files the walk may open: plain names only, named within the
characters read. -/
inductive Followed (root : String) : String → Prop where
  | root (hname : PAM_NAME.fullmatch root = true) : Followed root root
  | incl {name target t line : String} (h : Followed root name)
      (hfile : files (joinPamD name) = .text t) (hline : line ∈ linesRead t)
      (htarget : includeTarget line = some target) (hname : PAM_NAME.fullmatch target = true) :
      Followed root target

/-- An account line of a file. -/
def AccountLine (t path : String) : Prop :=
  ∃ line ∈ linesRead t, includeTarget line = none ∧ moduleLine line = some ("account", path)

/-- An account line the walk may read names the module, as it is listed. -/
def VisibleFrom (root module_ : String) : Prop :=
  ∃ name t path, Followed files root name ∧ files (joinPamD name) = .text t
    ∧ AccountLine t path ∧ module_ = sanitizeText (basename path) PAM_MODULE_CHARS

def Visible (svc module_ : String) : Prop :=
  PAM_NAME.fullmatch svc = true ∧ VisibleFrom files (rootOf files svc) module_

end Stacks

/-! ## What the walk lists -/

variable {files : PamFiles}

theorem addModule_subset {mods : List String} {mod m : String} (h : m ∈ addModule mods mod) :
    m ∈ mods ∨ m = sanitizeText mod PAM_MODULE_CHARS := by
  unfold addModule at h
  split at h
  · exact .inl h
  · simpa using h

theorem subset_addModule (mods : List String) (mod : String) : mods ⊆ addModule mods mod := by
  unfold addModule
  split
  · exact List.Subset.refl _
  · exact List.subset_append_left _ _

theorem mem_addModule (mods : List String) (mod : String) :
    mod ∈ addModule mods mod ∨ sanitizeText mod PAM_MODULE_CHARS ∈ addModule mods mod := by
  unfold addModule
  split
  · rename_i h
    exact .inl (by simpa using h)
  · exact .inr (by simp)

/-- What one line does to the stack. -/
inductive Reads (follow : String → Stack → Option Gap × Stack) (st : Stack) (line : String) :
    Stack → Prop where
  | gap {target : String} {why : Gap} {st' : Stack} (htarget : includeTarget line = some target)
      (h : follow target st = (some why, st')) :
      Reads follow st line { st' with nested := st'.nested ++ [(target, why)] }
  | incl {target : String} {st' : Stack} (htarget : includeTarget line = some target)
      (h : follow target st = (none, st')) : Reads follow st line st'
  | account {path : String} (hline : includeTarget line = none)
      (hmod : moduleLine line = some ("account", path)) :
      Reads follow st line { st with account := addModule st.account (basename path) }
  | other (hline : includeTarget line = none)
      (hmod : ∀ path, moduleLine line ≠ some ("account", path)) (auth : List String) :
      Reads follow st line { st with auth := auth }

theorem readLine_reads (follow : String → Stack → Option Gap × Stack) (st : Stack)
    (line : String) : Reads follow st line (readLine follow st line) := by
  unfold readLine
  split
  · rename_i target htarget
    split
    · rename_i why st' h
      exact .gap htarget h
    · rename_i st' h
      exact .incl htarget h
  · rename_i hline
    split
    · rename_i path hmod
      exact .other hline (by rw [hmod]; simp) _
    · rename_i path hmod
      exact .account hline hmod
    · rename_i hauth hacc
      exact .other hline (fun path h => hacc path h) st.auth

/-- The cases of a walk. -/
inductive Walks (files : PamFiles) (left : Nat) (name : String) (st : Stack) :
    Option Gap × Stack → Prop where
  | cut : Walks files left name st (none, { st with truncated := true })
  | known (h : name ∈ st.seen ∨ PAM_NAME.fullmatch name = false) :
      Walks files left name st (none, st)
  | gap {why : Gap} (hname : PAM_NAME.fullmatch name = true)
      (hfile : files (joinPamD name) = .missing ∧ why = .missing
        ∨ files (joinPamD name) = .unreadable ∧ why = .unreadable) :
      Walks files left name st (some why, st)
  | text {t : String} {k : Nat} (hleft : left = k + 1) (hname : PAM_NAME.fullmatch name = true)
      (hfile : files (joinPamD name) = .text t) :
      Walks files left name st (none, (linesRead t).foldl (readLine (walk files k))
        { st with seen := st.seen ++ [name] })

theorem walk_walks (left : Nat) (name : String) (st : Stack) :
    Walks files left name st (walk files left name st) := by
  cases left with
  | zero => exact .cut
  | succ left =>
      rw [walk]
      split
      · exact .cut
      · split
        · rename_i h
          rw [Bool.or_eq_true, Bool.not_eq_true'] at h
          exact .known (h.imp_left fun h => by simpa using h)
        · rename_i h
          rw [Bool.or_eq_true, Bool.not_eq_true', not_or, Bool.not_eq_false] at h
          split
          · rename_i hfile
            exact .gap h.2 (.inl ⟨hfile, rfl⟩)
          · rename_i hfile
            exact .gap h.2 (.inr ⟨hfile, rfl⟩)
          · rename_i t hfile
            exact .text rfl h.2 hfile

/-- The walk lists only what it may read. -/
theorem walk_visible {root : String} (left : Nat) (name : String) (st : Stack)
    (hname : PAM_NAME.fullmatch name = true → Followed files root name)
    (hst : ∀ m ∈ st.account, VisibleFrom files root m) :
    ∀ m ∈ (walk files left name st).2.account, VisibleFrom files root m := by
  induction left generalizing name st with
  | zero => exact hst
  | succ left ih =>
      rcases hw : walk files (left + 1) name st with ⟨r, st'⟩
      have hcases := @walk_walks files (left + 1) name st
      rw [hw] at hcases
      cases hcases with
      | cut => exact hst
      | known => exact hst
      | gap => exact hst
      | @text t k hleft hplain hfile =>
          obtain rfl : left = k := by omega
          have hfollowed := hname hplain
          -- over the lines of the file, each of which it may read
          have hlines : ∀ (lines : List String), (∀ line ∈ lines, line ∈ linesRead t) →
              ∀ st₁ : Stack, (∀ m ∈ st₁.account, VisibleFrom files root m) →
                ∀ m ∈ (lines.foldl (readLine (walk files left)) st₁).account,
                  VisibleFrom files root m := by
            intro lines
            induction lines with
            | nil => exact fun _ _ h => h
            | cons line lines ihl =>
                intro hmem st₁ hst₁
                rw [List.foldl_cons]
                refine ihl (fun l hl => hmem l (List.mem_cons_of_mem _ hl)) _ ?_
                have hline := hmem line List.mem_cons_self
                have hstep := readLine_reads (walk files left) st₁ line
                generalize readLine (walk files left) st₁ line = st₂ at hstep
                cases hstep with
                | gap htarget h =>
                    have := ih _ st₁ (fun hp => .incl hfollowed hfile hline htarget hp) hst₁
                    rwa [h] at this
                | incl htarget h =>
                    have := ih _ st₁ (fun hp => .incl hfollowed hfile hline htarget hp) hst₁
                    rwa [h] at this
                | account hnot hmod =>
                    intro m hm
                    rcases addModule_subset hm with hm | rfl
                    · exact hst₁ m hm
                    · exact ⟨name, t, _, hfollowed, hfile, ⟨line, hline, hnot, hmod⟩, rfl⟩
                | other => exact hst₁
          exact hlines _ (fun _ => id) _ hst

/-! ## What a walk without a gap has read -/

/-- No bound was hit, and every include could be read. -/
def Stack.Quiet (st : Stack) : Prop := st.truncated = false ∧ st.nested = []

/-- Later in the same walk. -/
structure Extends (st st' : Stack) : Prop where
  seen : st.seen ⊆ st'.seen
  account : st.account ⊆ st'.account
  quiet : st'.Quiet → st.Quiet

theorem Extends.refl (st : Stack) : Extends st st := ⟨fun _ => id, fun _ => id, id⟩

theorem Extends.trans {st₁ st₂ st₃ : Stack} (h₁ : Extends st₁ st₂) (h₂ : Extends st₂ st₃) :
    Extends st₁ st₃ :=
  ⟨fun _ h => h₂.seen (h₁.seen h), fun _ h => h₂.account (h₁.account h),
    fun h => h₁.quiet (h₂.quiet h)⟩

/-- What the line asks for is on the stack. -/
structure Done (st : Stack) (line : String) : Prop where
  incl : ∀ target, includeTarget line = some target → PAM_NAME.fullmatch target = true →
    target ∈ st.seen
  account : ∀ path, includeTarget line = none → moduleLine line = some ("account", path) →
    basename path ∈ st.account ∨ sanitizeText (basename path) PAM_MODULE_CHARS ∈ st.account

theorem Done.mono {st st' : Stack} (h : Extends st st') {line : String} (hd : Done st line) :
    Done st' line where
  incl target ht hn := h.seen (hd.incl target ht hn)
  account path hi hm := (hd.account path hi hm).imp (fun hx => h.account hx) fun hx => h.account hx

/-- The file was read, and what its lines ask for is on the stack. -/
def Closed (files : PamFiles) (st : Stack) (name : String) : Prop :=
  ∃ t, files (joinPamD name) = .text t ∧ ∀ line ∈ linesRead t, Done st line

theorem Closed.mono {st st' : Stack} (h : Extends st st') {name : String}
    (hc : Closed files st name) : Closed files st' name := by
  obtain ⟨t, ht, hlines⟩ := hc
  exact ⟨t, ht, fun line hline => (hlines line hline).mono h⟩

/-- What a walk that answers without a gap has done. -/
structure Covers (files : PamFiles) (name : String) (st : Stack) (out : Option Gap × Stack) :
    Prop where
  grows : Extends st out.2
  found : out.2.Quiet → out.1 = none → PAM_NAME.fullmatch name = true → name ∈ out.2.seen
  closed : out.2.Quiet → ∀ n ∈ out.2.seen, n ∈ st.seen ∨ Closed files out.2 n

theorem quiet_of_truncated {st : Stack} (h : ({ st with truncated := true } : Stack).Quiet) :
    False := by
  cases h.1

/-- One line, if following its include covers the file. -/
theorem readLine_covers {follow : String → Stack → Option Gap × Stack} {st : Stack} {line : String}
    (hfollow : ∀ target, Covers files target st (follow target st)) :
    Extends st (readLine follow st line)
      ∧ ((readLine follow st line).Quiet → Done (readLine follow st line) line)
      ∧ ((readLine follow st line).Quiet →
          ∀ n ∈ (readLine follow st line).seen,
            n ∈ st.seen ∨ Closed files (readLine follow st line) n) := by
  have hstep := readLine_reads follow st line
  generalize readLine follow st line = st' at hstep ⊢
  cases hstep with
  | @gap target why st' htarget h =>
      have hcov := hfollow target
      rw [h] at hcov
      have hloud : ¬ ({ st' with nested := st'.nested ++ [(target, why)] } : Stack).Quiet :=
        fun hq => by simpa using hq.2
      exact ⟨⟨hcov.grows.seen, hcov.grows.account, fun hq => absurd hq hloud⟩,
        fun hq => absurd hq hloud, fun hq => absurd hq hloud⟩
  | @incl target _ htarget h =>
      have hcov := hfollow target
      rw [h] at hcov
      refine ⟨hcov.grows, fun hq => ⟨fun t ht hn => ?_, fun path hi => ?_⟩, hcov.closed⟩
      · rw [htarget] at ht
        obtain rfl := Option.some.inj ht
        exact hcov.found hq rfl hn
      · rw [htarget] at hi
        cases hi
  | @account path hline hmod =>
      refine ⟨⟨fun _ => id, subset_addModule _ _, id⟩, fun _ => ⟨fun t ht => ?_, fun p _ hm => ?_⟩,
        fun _ n hn => .inl hn⟩
      · rw [hline] at ht
        cases ht
      · rw [hmod] at hm
        obtain rfl := (Prod.mk.inj (Option.some.inj hm)).2
        exact mem_addModule _ _
  | other hline hmod auth =>
      refine ⟨⟨fun _ => id, fun _ => id, id⟩, fun _ => ⟨fun t ht => ?_, fun p _ hm => ?_⟩,
        fun _ n hn => .inl hn⟩
      · rw [hline] at ht
        cases ht
      · exact absurd hm (hmod p)

theorem readLines_covers {follow : String → Stack → Option Gap × Stack}
    (hfollow : ∀ target st, Covers files target st (follow target st)) (lines : List String)
    (st : Stack) :
    Extends st (lines.foldl (readLine follow) st)
      ∧ ((lines.foldl (readLine follow) st).Quiet →
          ∀ line ∈ lines, Done (lines.foldl (readLine follow) st) line)
      ∧ ((lines.foldl (readLine follow) st).Quiet →
          ∀ n ∈ (lines.foldl (readLine follow) st).seen,
            n ∈ st.seen ∨ Closed files (lines.foldl (readLine follow) st) n) := by
  induction lines generalizing st with
  | nil => exact ⟨.refl st, fun _ => nofun, fun _ n hn => .inl hn⟩
  | cons line lines ih =>
      rw [List.foldl_cons]
      obtain ⟨hgrow, hdone, hclosed⟩ := @readLine_covers files follow st line fun t => hfollow t st
      obtain ⟨hgrows, hdones, hcloseds⟩ := ih (readLine follow st line)
      refine ⟨hgrow.trans hgrows, fun hq => ?_, fun hq n hn => ?_⟩
      · rw [List.forall_mem_cons]
        exact ⟨(hdone (hgrows.quiet hq)).mono hgrows, hdones hq⟩
      · rcases hcloseds hq n hn with hn | hn
        · exact (hclosed (hgrows.quiet hq) n hn).imp_right fun hc => hc.mono hgrows
        · exact .inr hn

/-- Every walk covers the file it is given: the induction is on the depth
left, over the lines of the file. -/
theorem walk_covers (left : Nat) (name : String) (st : Stack) :
    Covers files name st (walk files left name st) := by
  induction left generalizing name st with
  | zero =>
      exact ⟨⟨fun _ => id, fun _ => id, fun hq => (quiet_of_truncated hq).elim⟩,
        fun hq => (quiet_of_truncated hq).elim, fun hq => (quiet_of_truncated hq).elim⟩
  | succ left ih =>
      rcases hw : walk files (left + 1) name st with ⟨r, st'⟩
      have hcases := @walk_walks files (left + 1) name st
      rw [hw] at hcases
      cases hcases with
      | cut =>
          exact ⟨⟨fun _ => id, fun _ => id, fun hq => (quiet_of_truncated hq).elim⟩,
            fun hq => (quiet_of_truncated hq).elim, fun hq => (quiet_of_truncated hq).elim⟩
      | known h =>
          refine ⟨.refl st, fun _ _ hn => h.resolve_right ?_, fun _ n hn => .inl hn⟩
          rw [hn]
          exact Bool.true_eq_false.mp
      | gap => exact ⟨.refl st, fun _ h => (by cases h), fun _ n hn => .inl hn⟩
      | @text t k hleft hplain hfile =>
          obtain rfl : left = k := by omega
          have hlines := readLines_covers ih (linesRead t) { st with seen := st.seen ++ [name] }
          generalize (linesRead t).foldl (readLine (walk files left))
            { st with seen := st.seen ++ [name] } = out at hlines ⊢
          obtain ⟨hgrows, hdone, hclosed⟩ := hlines
          have hseen : st.seen ++ [name] ⊆ out.seen := hgrows.seen
          refine ⟨⟨fun n hn => hseen (List.mem_append_left _ hn), hgrows.account, hgrows.quiet⟩,
            fun _ _ _ => hseen (by simp), fun hq n hn => ?_⟩
          have hbefore : n ∈ st.seen ++ [name] ∨ Closed files out n := hclosed hq n hn
          rcases hbefore with hn | hn
          · rcases List.mem_append.mp hn with hn | hn
            · exact .inl hn
            · obtain rfl := List.mem_singleton.mp hn
              exact .inr ⟨t, hfile, hdone hq⟩
          · exact .inr hn

/-! ## What the check lists -/

/-- The check answers with a list of account modules. -/
def Lists (files : PamFiles) (svc : String) (mods : List String) : Prop :=
  (pamStack files svc).status = OK
    ∧ (pamStack files svc).fields.lookup "account_modules" = some (texts mods)

theorem texts_inj {xs ys : List String} (h : texts xs = texts ys) : xs = ys := by
  have hlists : xs.map Value.str = ys.map Value.str := Value.list.inj h
  exact List.map_injective_iff.mpr (fun _ _ => Value.str.inj) hlists

theorem gap_status_ne (why : Gap) : why.status ≠ OK := by
  cases why <;> decide

theorem fields_account (st : Stack) (present : Bool) :
    (st.fields present).lookup "account_modules"
      = some (if st.complete then texts (st.account.take PAM_MAX_MODULES) else .null) := rfl

theorem report_lists {svc : String} {present : Bool} {st : Stack} {mods : List String}
    (hok : (report svc present st).status = OK)
    (hmods : (report svc present st).fields.lookup "account_modules" = some (texts mods)) :
    st.Quiet ∧ mods = st.account := by
  unfold report at hok hmods
  split at hok
  · exact absurd hok (gap_status_ne _)
  · rename_i hnested
    rw [hnested] at hmods
    replace hmods : (st.fields present).lookup "account_modules" = some (texts mods) := hmods
    rw [fields_account, Option.some.injEq] at hmods
    split at hmods
    · rename_i hcomplete
      rw [Stack.complete, Bool.and_eq_true, Bool.not_eq_true', decide_eq_true_eq] at hcomplete
      refine ⟨⟨hcomplete.1, hnested⟩, ?_⟩
      rw [List.take_of_length_le hcomplete.2] at hmods
      exact (texts_inj hmods).symm
    · cases hmods

theorem followed_seen {root : String} {st : Stack} (hroot : root ∈ st.seen)
    (hclosed : ∀ n ∈ st.seen, Closed files st n) {name : String}
    (h : Followed files root name) : name ∈ st.seen := by
  induction h with
  | root => exact hroot
  | incl _ hfile hline htarget hname ih =>
      obtain ⟨t, ht, hdone⟩ := hclosed _ ih
      rw [hfile] at ht
      obtain rfl := PamFile.text.inj ht
      exact (hdone _ hline).incl _ htarget hname

/-- A walk without a gap lists the modules of the account lines it may read. -/
theorem mem_account_iff {root : String} {left : Nat} {st : Stack}
    (hroot : PAM_NAME.fullmatch root = true) (hw : walk files left root {} = (none, st))
    (hq : st.Quiet) (m : String) : m ∈ st.account ↔ VisibleFrom files root m := by
  have hvisible : ∀ m ∈ st.account, VisibleFrom files root m := by
    have h := @walk_visible files root left root {} (fun hn => Followed.root hn)
      (fun m (hm : m ∈ ([] : List String)) => absurd hm List.not_mem_nil)
    rwa [hw] at h
  refine ⟨hvisible m, ?_⟩
  rintro ⟨name, t, path, hfollowed, hfile, ⟨line, hline, hnot, hmod⟩, rfl⟩
  have hcov := @walk_covers files left root {}
  rw [hw] at hcov
  have hclosed : ∀ n ∈ st.seen, Closed files st n := fun n hn =>
    (hcov.closed hq n hn).resolve_left List.not_mem_nil
  have hseen := followed_seen (hcov.found hq rfl hroot) hclosed hfollowed
  obtain ⟨t', ht', hdone⟩ := hclosed name hseen
  rw [hfile] at ht'
  obtain rfl := PamFile.text.inj ht'
  rcases (hdone line hline).account path hnot hmod with h | h
  · -- a name that is listed as it is passes through the cleaning
    obtain ⟨_, _, path', -, -, -, hpath'⟩ := hvisible _ h
    have hsame : sanitizeText (basename path) PAM_MODULE_CHARS = basename path := by
      rw [hpath']
      exact sanitizeText_idem _ (by decide)
    rwa [hsame]
  · exact h

theorem mem_listed_iff {svc : String} {mods : List String} (h : Lists files svc mods) (m : String) :
    m ∈ mods ↔ Visible files svc m := by
  obtain ⟨hok, hmods⟩ := h
  unfold Visible
  rcases hw : walk files (PAM_MAX_DEPTH + 1) svc {} with ⟨_ | why, st⟩
  · have hreport : pamStack files svc = report svc true st := by rw [pamStack, hw]
    rw [hreport] at hok hmods
    obtain ⟨hq, rfl⟩ := report_lists hok hmods
    have hcases := @walk_walks files (PAM_MAX_DEPTH + 1) svc {}
    rw [hw] at hcases
    cases hcases with
    | cut => exact absurd hq.1 Bool.true_eq_false.mp
    | known hknown =>
        have hname := hknown.resolve_left List.not_mem_nil
        rw [hname]
        exact iff_of_false List.not_mem_nil fun hv => Bool.false_ne_true hv.1
    | text _ hname hfile =>
        have hroot : rootOf files svc = svc := if_neg (by rw [hfile]; exact nofun)
        rw [hroot, mem_account_iff hname hw hq]
        exact (and_iff_right hname).symm
  · have hcases := @walk_walks files (PAM_MAX_DEPTH + 1) svc {}
    rw [hw] at hcases
    cases hcases with
    | gap hname hfile =>
        rcases hfile with ⟨hfile, rfl⟩ | ⟨hfile, rfl⟩
        · have hroot : rootOf files svc = "other" := if_pos hfile
          rcases ho : walk files (PAM_MAX_DEPTH + 1) "other" {} with ⟨_ | why, st⟩
          · have hreport : pamStack files svc = report svc false st := by
              rw [pamStack, hw]
              dsimp only
              rw [ho]
            rw [hreport] at hok hmods
            obtain ⟨hq, rfl⟩ := report_lists hok hmods
            rw [hroot, mem_account_iff (by decide) ho hq]
            exact (and_iff_right hname).symm
          · have hstatus : (pamStack files svc).status = why.status := by
              rw [pamStack, hw]
              dsimp only
              rw [ho]
              rfl
            exact absurd (hstatus.symm.trans hok) (gap_status_ne why)
        · have hstatus : (pamStack files svc).status = DENIED := by
            rw [pamStack, hw]
            rfl
          exact absurd (hstatus.symm.trans hok) (by decide)

/-! ## When the plan runs the account phase -/

/-- The runner answers `pam.stack` for the service with what the check finds. -/
structure AnswersFrom {σ : Type} (env : Env σ) (files : PamFiles) (svc : String) : Prop where
  service : env.inputs.lookup "service" = some (.str svc)
  run : ∀ runner params fresh, params.lookup "service" = some (.str svc) →
    ∃ runner', env.run runner "pam.stack" params fresh = (.ok (pamStack files svc), runner')

/-- The record a visit of the step `pam.stack` left. -/
def StackRecord (files : PamFiles) (svc : String) (r : Record) : Prop :=
  ∃ (σ : Type) (env : Env σ) (st : RunState σ) (spec : CheckSpec) (record : Record)
    (base : Context) (v : Visited σ),
    AnswersFrom env files svc ∧ base.inputs = env.inputs ∧ record.outcome = .skipped
      ∧ Planner.visit env st spec pamStackStep record base = .ok v ∧ r = v.record

theorem tryRun_once {σ : Type} {env : Env σ} {check : String} {params : Dict}
    {a : Planner.Attempts σ} {res : CheckResult} {runner' : σ}
    (h : env.run a.runner check params false = (.ok res, runner')) :
    (Planner.tryRun env check params 1 0 a).result = .ok (some res) := by
  have hrun : env.run a.runner check params (decide (0 < 0)) = (.ok res, runner') := h
  rw [Planner.tryRun, hrun]
  dsimp only
  split
  · rfl
  · rfl

theorem classified_facts {res : CheckResult} {ctx : Context} {c : Planner.Classified}
    (h : c_pam_stack res ctx = .ok c) : c.facts.lookup "account_modules" = none := by
  unfold c_pam_stack at h
  dsimp only at h
  split at h
  · cases h
    rfl
  · split at h
    · cases h
      rfl
    · cases h
      rfl

theorem pamStackStep_classify : pamStackStep.classify = some c_pam_stack := rfl

theorem facts_without_modules {res : CheckResult} {ctx : Context} {c : Planner.Classified}
    {spec : CheckSpec} (h : Planner.interpret spec pamStackStep res ctx = .ok c) :
    c.facts.lookup "account_modules" = none := by
  unfold Planner.interpret at h
  rw [pamStackStep_classify, Option.getD_some] at h
  dsimp only at h
  split at h
  · cases h
    rfl
  · split at h
    · cases h
      rfl
    · split at h
      · rename_i c' hc'
        have hfacts := classified_facts hc'
        cases h
        exact hfacts
      · split at h
        · cases h
          rfl
        · cases h

theorem resolve_service {ctx : Context} {svc : String} {p : Dict}
    (hs : ctx.inputs.lookup "service" = some (.str svc))
    (h : Planner.resolveParams ctx pamStackStep.params = .ok (.ok p)) :
    p.lookup "service" = some (.str svc) := by
  have hvalue : Planner.refValue ctx (.str "input") (.str "service") = .ok (.str svc) := by
    have hkind : ¬ (Value.str "input").pyEq (.str "fact") = true
        ∧ ¬ (Value.str "input").pyEq (.str "item") = true := by decide
    rw [Planner.refValue, if_neg hkind.1, if_neg hkind.2, Py.lookupKey, hs]
    rfl
  rw [show pamStackStep.params = [("service", .tuple [.str "input", .str "service"])] from rfl,
    Planner.resolveParams, hvalue] at h
  obtain ⟨v, hv, h⟩ := Result.bind_ok.mp h
  obtain rfl := Except.ok.inj hv
  split at h
  · cases h
  · cases h
    rfl

/-- A record of `pam.stack` is of a step that was not run, or holds the
fields of the check's answer. -/
theorem StackRecord.cases {files : PamFiles} {svc : String} {r : Record}
    (h : StackRecord files svc r) :
    r.outcome = .skipped
      ∨ (r.fields = (pamStack files svc).fields ∧ r.facts.lookup "account_modules" = none) := by
  obtain ⟨σ, env, st, spec, record, base, v, hanswers, hinputs, hskip, hvisit, rfl⟩ := h
  simp only [Planner.visit] at hvisit
  obtain ⟨a, ha, hvisit⟩ := Result.bind_ok.mp hvisit
  cases Planner.admitStep_cases ha with
  | refused hr =>
      obtain rfl := Result.pure_ok.mp hvisit
      exact .inl (hr.outcome_eq.trans hskip)
  | halted hr =>
      obtain rfl := Result.pure_ok.mp hvisit
      exact .inl (hr.outcome_eq.trans hskip)
  | @admitted r params ticks hr hs hp hb hv =>
      have hservice : params.lookup "service" = some (.str svc) := by
        refine resolve_service ?_ hv
        rw [show (base.withRecord record).inputs = base.inputs from rfl, hinputs]
        exact hanswers.service
      refine .inr ?_
      simp only [Planner.execute] at hvisit
      obtain ⟨runner', hrun⟩ := hanswers.run st.runner params false hservice
      have honce := @tryRun_once σ env "pam.stack" params
        { result := .ok none, attempts := r.attempts, reused := r.reused, runner := st.runner }
        _ _ hrun
      generalize hb : Planner.tryRun env pamStackStep.check params (1 + pamStackStep.retries).toNat 0
        { result := .ok none, attempts := r.attempts, reused := r.reused, runner := st.runner } = b
        at hvisit
      have hresult : b.result = .ok (some (pamStack files svc)) := by
        rw [← hb]
        exact honce
      rw [hresult] at hvisit
      dsimp only at hvisit
      obtain ⟨c, hc, hvisit⟩ := Result.bind_ok.mp hvisit
      obtain ⟨why, -, hvisit⟩ := Result.bind_ok.mp hvisit
      obtain ⟨sub, -, hvisit⟩ := Result.bind_ok.mp hvisit
      obtain rfl := Result.pure_ok.mp hvisit
      exact ⟨rfl, facts_without_modules hc⟩

/-- The account phase is run only on a list without a module that resets
the counters. -/
theorem gate_reads_list {ctx : Context} (h : Planner.Opens (some g_user_checks) ctx) :
    ∃ mods, ctx.fact "pam.stack.account_modules" = .list mods ∧ resetting mods = [] := by
  obtain ⟨why, h⟩ := h
  have hgate : g_user_checks ctx = .ok (true, why) := by
    unfold Planner.safeGate at h
    dsimp only at h
    split at h
    · rename_i r hr
      rw [hr, Except.ok.inj h]
    · split at h
      · cases h
      · cases h
  unfold g_user_checks at hgate
  split at hgate
  · cases hgate
  · split at hgate
    · cases hgate
    · split at hgate
      · rename_i mods hmods
        split at hgate
        · cases hgate
        · rename_i hnone
          exact ⟨mods, hmods, not_not.mp hnone⟩
      · cases hgate

theorem mem_resetting {mods : List String} {m : String} (hm : m ∈ mods)
    (hreset : m ∈ COUNTER_RESETTING) : m ∈ resetting (mods.map .str) := by
  refine List.mem_filterMap.mpr ⟨.str m, List.mem_map_of_mem hm, ?_⟩
  exact if_pos (by simpa using hreset)

theorem pamStack_cases (files : PamFiles) (svc : String) :
    (pamStack files svc).fields = []
      ∨ ∃ present st, pamStack files svc = report svc present st := by
  unfold pamStack
  split
  · exact .inl rfl
  · exact .inr ⟨_, _, rfl⟩
  · split
    · exact .inl rfl
    · exact .inr ⟨_, _, rfl⟩

/-- A list among the fields is the list of an answer. -/
theorem lists_of_fields {svc : String} {mods : List Value}
    (h : ((pamStack files svc).fields.lookup "account_modules").getD .null = .list mods) :
    ∃ names, mods = names.map .str ∧ Lists files svc names := by
  rcases pamStack_cases files svc with hnil | ⟨present, st, heq⟩
  · rw [hnil] at h
    cases h
  · unfold Lists
    rw [heq] at h ⊢
    unfold report at h ⊢
    split at h
    · cases h
    · have hfields : ((st.fields present).lookup "account_modules").getD .null = .list mods := h
      have hlookup := fields_account st present
      by_cases hcomplete : st.complete = true
      · rw [if_pos hcomplete] at hlookup
        rw [hlookup, Option.getD_some] at hfields
        exact ⟨_, (Value.list.inj hfields).symm, rfl, hlookup⟩
      · rw [if_neg hcomplete] at hlookup
        rw [hlookup, Option.getD_some] at hfields
        cases hfields

/-- Where the account phase is run after `pam.stack` was asked, no account
rule of the stack names a module that resets the failed-login counters. -/
def RunsSafely (files : PamFiles) (read : Reading) (svc : String) : Prop :=
  ∀ ctx r, ctx.find "pam.stack" = some r → StackRecord files svc r →
    Planner.Opens (some g_user_checks) ctx →
      ∀ m ∈ COUNTER_RESETTING, ¬ Named files read svc m

theorem runsSafely_of_listed {read : Reading} {svc : String}
    (h : ∀ mods, Lists files svc mods → ∀ m, Named files read svc m → m ∈ mods) :
    RunsSafely files read svc := by
  intro ctx r hfind hrecord hopens m hreset hnamed
  obtain ⟨mods, hfact, hnone⟩ := gate_reads_list hopens
  have href : PyStr.rpartition "pam.stack.account_modules" '.' = ("pam.stack", "account_modules") := by
    decide
  rw [Context.fact, href] at hfact
  dsimp only at hfact
  rw [hfind] at hfact
  dsimp only at hfact
  split at hfact
  · cases hfact
  · rename_i hran
    obtain ⟨hfields, hfacts⟩ := hrecord.cases.resolve_left hran
    rw [hfacts, hfields] at hfact
    obtain ⟨names, rfl, hlists⟩ := lists_of_fields hfact
    have hmem := mem_resetting (h names hlists m hnamed) hreset
    rw [hnone] at hmem
    exact absurd hmem List.not_mem_nil

/-! ## The condition -/

theorem lists_unique {svc : String} {mods mods' : List String} (h : Lists files svc mods)
    (h' : Lists files svc mods') : mods = mods' :=
  texts_inj (Option.some.inj (h.2.symm.trans h'.2))

/-- Whatever the files and however PAM reads them: a list that is given
holds the module of every account rule of the stack, and the account
phase is not run on a stack that would reset the counters, exactly if
every such module is also named by an account line the walk may read. -/
theorem listed_complete_iff (files : PamFiles) (read : Reading) (svc : String)
    (mods : List String) (h : Lists files svc mods) :
    ((∀ m, Named files read svc m → m ∈ mods) ∧ RunsSafely files read svc)
      ↔ ∀ m, Named files read svc m → Visible files svc m := by
  have hmods : (∀ m, Named files read svc m → m ∈ mods)
      ↔ ∀ m, Named files read svc m → Visible files svc m :=
    forall_congr' fun m => imp_congr_right fun _ => mem_listed_iff h m
  refine ⟨fun hall => hmods.mp hall.1, fun hvisible => ⟨hmods.mpr hvisible, ?_⟩⟩
  refine runsSafely_of_listed fun mods' h' m hm => ?_
  rw [← lists_unique h h']
  exact hmods.mpr hvisible m hm

/-! ## An include the walk passes over -/

/-- The rules of a text as the program's own patterns read its lines. -/
def patternRules : Reading := fun t =>
  ((Lines.splitlines t).map uncommented).filterMap fun line =>
    match includeTarget line, moduleLine line with
    | some target, _ => some (.incl target)
    | none, some ("account", path) => some (.account path)
    | none, _ => none

/-- A service whose stack is included by a path. -/
def pathFiles : PamFiles := fun path =>
  match path with
  | "/etc/pam.d/login" => .text "account include /etc/pam.d/base\naccount required pam_unix.so\n"
  | "/etc/pam.d/base" => .text "account required pam_faillock.so\n"
  | _ => .missing

/-- And the same service, with the file included by its name. -/
def nameFiles : PamFiles := fun path =>
  match path with
  | "/etc/pam.d/login" => .text "account include base\naccount required pam_unix.so\n"
  | "/etc/pam.d/base" => .text "account required pam_faillock.so\n"
  | _ => .missing

theorem listed_complete_iff_named :
    ((∀ m, Named nameFiles patternRules "login" m → m ∈ ["pam_faillock.so", "pam_unix.so"])
        ∧ RunsSafely nameFiles patternRules "login")
      ↔ ∀ m, Named nameFiles patternRules "login" m → Visible nameFiles "login" m :=
  listed_complete_iff nameFiles patternRules "login" _ ⟨by decide +kernel, by decide +kernel⟩

/-- The list of a stack that includes another by its path leaves out the
modules of the other. -/
theorem included_path_not_listed :
    Lists pathFiles "login" ["pam_unix.so"]
      ∧ Named pathFiles patternRules "login" "pam_faillock.so"
      ∧ "pam_faillock.so" ∉ ["pam_unix.so"] := by
  refine ⟨⟨by decide +kernel, by decide +kernel⟩, ⟨"/etc/pam.d/base", _, "pam_faillock.so", ?_,
    rfl, by decide +kernel, by decide +kernel⟩, by decide⟩
  exact .incl .root rfl (by decide +kernel)

end IpaDiagnose.Client
