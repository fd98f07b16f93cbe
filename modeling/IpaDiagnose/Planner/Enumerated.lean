import IpaDiagnose.Planner.Safety

/-!
# What an enumeration says

The subjects of a template come out of a list in four ways: kept and
investigated, kept and left unfinished, dropped for the budget, or
rejected. An enumeration that read a list accounts for every entry that
was read. Only the first thousand are: of the others it says nothing, and
it may still be called complete.
-/

namespace IpaDiagnose.Planner

open Py (Value Dict Exc)
open Result Journal

variable {σ : Type}

/-! ## Reading the entries -/

/-- The subject an entry stands for, if its name validates. -/
def keyOf (type : String) (x : Value) : Option String :=
  match (T.validate type (entryKey x) : Except E _) with
  | .ok key => key
  | .error _ => none

/-- Two entries that an enumeration cannot tell apart. -/
def SameEntry (type : String) (x y : Value) : Prop :=
  keyOf type x = keyOf type y
    ∧ (keyOf type x = none → shownKey (entryKey x) = shownKey (entryKey y))

theorem add_cases {type : String} {acc acc' : Entries} {x : Value}
    (h : acc.add type x = .ok acc') :
    (keyOf type x = none ∧ acc'.good = acc.good
        ∧ acc'.rejected = acc.rejected ++ [shownKey (entryKey x)])
      ∨ ∃ k, keyOf type x = some k ∧ acc'.rejected = acc.rejected
        ∧ ∀ k', k' ∈ acc'.good.map (·.1) ↔ k' ∈ acc.good.map (·.1) ∨ k' = k := by
  obtain ⟨key, hkey, h⟩ := bind_ok.mp h
  have hkeyOf : keyOf type x = key := by rw [keyOf, hkey]
  cases key with
  | none =>
      obtain rfl := pure_ok.mp h
      exact .inl ⟨hkeyOf, rfl, rfl⟩
  | some k =>
      refine .inr ⟨k, hkeyOf, ?_⟩
      dsimp only at h
      split at h
      · rename_i hknown
        obtain rfl := pure_ok.mp h
        refine ⟨rfl, fun k' => (or_iff_left_of_imp ?_).symm⟩
        rintro rfl
        obtain ⟨p, hp, hpk⟩ := List.lookup_isSome_iff.mp hknown
        exact List.mem_map.mpr ⟨p, hp, (eq_of_beq hpk).symm⟩
      · obtain rfl := pure_ok.mp h
        refine ⟨rfl, fun k' => ?_⟩
        rw [List.map_append, List.mem_append]
        exact or_congr_right List.mem_singleton

theorem readEntries_good {type : String} {acc e : Entries} {xs : List Value}
    (h : readEntries type acc xs = .ok e) (k : String) :
    k ∈ e.good.map (·.1) ↔ k ∈ acc.good.map (·.1) ∨ ∃ x ∈ xs, keyOf type x = some k := by
  induction xs generalizing acc with
  | nil =>
      injection h with h
      subst h
      simp
  | cons x xs ih =>
      obtain ⟨acc', hadd, h⟩ := bind_ok.mp h
      rw [ih h, List.exists_mem_cons_iff]
      rcases add_cases hadd with ⟨hkey, hgood, -⟩ | ⟨k', hkey, -, hgood⟩
      · rw [hgood, hkey]
        simp
      · rw [hgood k, hkey, or_assoc]
        simp only [Option.some.injEq, eq_comm]

theorem readEntries_rejected {type : String} {acc e : Entries} {xs : List Value}
    (h : readEntries type acc xs = .ok e) (r : String) :
    r ∈ e.rejected ↔ r ∈ acc.rejected
      ∨ ∃ x ∈ xs, keyOf type x = none ∧ shownKey (entryKey x) = r := by
  induction xs generalizing acc with
  | nil =>
      injection h with h
      subst h
      simp
  | cons x xs ih =>
      obtain ⟨acc', hadd, h⟩ := bind_ok.mp h
      rw [ih h, List.exists_mem_cons_iff]
      rcases add_cases hadd with ⟨hkey, -, hrej⟩ | ⟨k', hkey, hrej, -⟩
      · rw [hrej, hkey, List.mem_append, List.mem_singleton, or_assoc]
        simp only [true_and, eq_comm]
      · rw [hrej, hkey]
        simp

/-! ## The enumeration of the entries read -/

theorem mem_enumerationOf {t : ForEach} {ctx : Context} {e : Entries} {k : String} :
    k ∈ (enumerationOf t ctx e).subjects ∨ k ∈ (enumerationOf t ctx e).dropped
      ↔ k ∈ e.good.map (·.1) := by
  show k ∈ List.take _ _ ∨ k ∈ List.drop _ _ ↔ _
  rw [← List.mem_append, List.take_append_drop, List.mem_insertionSort]

theorem enumerationOf_complete {t : ForEach} {ctx : Context} {e : Entries} :
    (enumerationOf t ctx e).status = .complete ↔
      (enumerationOf t ctx e).dropped = [] ∧ e.rejected = [] ∧ readWhole t ctx = true := by
  show (if List.isEmpty _ then EnumStatus.complete else _) = _ ↔ List.drop _ _ = [] ∧ _
  generalize List.drop t.maxInstances.toNat _ = dropped
  rcases dropped with _ | ⟨d, ds⟩ <;> rcases e.rejected with _ | ⟨r, rs⟩ <;>
    rcases readWhole t ctx <;> simp

theorem withUnfinished_complete {e : Enumeration} {cut : List String} :
    (e.withUnfinished cut).status = .complete ↔ e.status = .complete ∧ cut = [] := by
  unfold Enumeration.withUnfinished
  rcases cut with _ | ⟨x, xs⟩ <;> simp

theorem withUnfinished_dropped (e : Enumeration) (cut : List String) :
    (e.withUnfinished cut).dropped = e.dropped := by
  unfold Enumeration.withUnfinished
  split <;> rfl

theorem withUnfinished_rejected (e : Enumeration) (cut : List String) :
    (e.withUnfinished cut).rejected = e.rejected := by
  unfold Enumeration.withUnfinished
  split <;> rfl

theorem withUnfinished_unfinished {e : Enumeration} (h : e.unfinished = []) (cut : List String) :
    (e.withUnfinished cut).unfinished = cut := by
  unfold Enumeration.withUnfinished
  rcases cut with _ | ⟨x, xs⟩
  · exact h
  · rfl

/-- The list a template reads, if it is not stopped and one was established. -/
def listRead (env : Env σ) (t : ForEach) (st : RunState σ) : Option (List Value) :=
  if st.stopReason = "" then listFact? t (st.context env) else none

/-- What asking for the subjects comes to. -/
theorem askSubjects_cases {env : Env σ} {t : ForEach} {st : RunState σ}
    {subs : List (String × Dict)} {e : Enumeration} (h : askSubjects env st t = .ok (subs, e)) :
    e.unfinished = [] ∧
      match listRead env t st with
      | none => (e.status = .notAsked ∨ e.status = .failed) ∧ e.subjects = [] ∧ e.reason ≠ ""
      | some raw => ∃ entries, readEntries t.subjectType {} (raw.take ENTRIES_READ) = .ok entries
          ∧ e = enumerationOf t (st.context env) entries := by
  unfold askSubjects at h
  unfold listRead
  split at h
  · rename_i hstop
    injection h with h
    injection h with _ h
    subst h
    rw [if_neg hstop]
    exact ⟨rfl, .inl rfl, rfl, append_ne_empty (by decide)⟩
  · rename_i hstop
    rw [if_pos (not_not.mp hstop)]
    unfold subjects at h
    split at h
    · rename_i hran
      injection h with h
      injection h with _ h
      subst h
      have hnone : listFact? t (st.context env) = none := by
        by_contra hsome
        obtain ⟨raw, hraw⟩ := Option.ne_none_iff_exists'.mp hsome
        rw [ran_of_listFact hraw] at hran
        cases hran
      rw [hnone]
      have hreason : "the step that lists the subjects did not run" ≠ "" := by decide
      exact ⟨rfl, .inl rfl, rfl, hreason⟩
    · rcases hraw : listFact? t (st.context env) with _ | raw
      · simp only [hraw] at h
        injection h with h
        injection h with _ h
        subst h
        have hreason : "the list of subjects could not be established" ≠ "" := by decide
        exact ⟨rfl, .inr rfl, rfl, hreason⟩
      · simp only [hraw] at h
        obtain ⟨entries, hread, h⟩ := bind_ok.mp h
        injection pure_ok.mp h with _ h
        subst h
        exact ⟨rfl, entries, hread, rfl⟩

/-! ## Entries accounted for -/

/-- A subject was kept, and none of its steps was cut short. -/
def Investigated (records : List Record) (t : ForEach) (e : Enumeration) (k : String) : Prop :=
  k ∈ e.subjects ∧ ∀ s ∈ t.steps, ∃ r ∈ records,
    r.identity = Slot.identity ⟨s, some (t, k)⟩ ∧ PyStr.startsWith r.skipReason "stopped:" = false

/-- The entry stands for a subject that was investigated. -/
def EntryInvestigated (records : List Record) (t : ForEach) (e : Enumeration) (x : Value) : Prop :=
  ∃ k, keyOf t.subjectType x = some k ∧ Investigated records t e k

/-- The enumeration names the entry among those it did not investigate. -/
def Named (t : ForEach) (e : Enumeration) (x : Value) : Prop :=
  match keyOf t.subjectType x with
  | some k => k ∈ e.dropped ∨ k ∈ e.unfinished
  | none => shownKey (entryKey x) ∈ e.rejected

/-- An enumeration is called complete only if the whole list was read and
investigated, and names every entry that was not investigated. -/
def Honest (records : List Record) (t : ForEach) (whole : Bool) (raw : List Value)
    (e : Enumeration) : Prop :=
  (e.status = .complete → whole = true ∧ ∀ x ∈ raw, EntryInvestigated records t e x)
    ∧ ∀ x ∈ raw, EntryInvestigated records t e x ∨ Named t e x

/-- Every entry past those read repeats one of them. -/
def RepeatsRead (t : ForEach) (raw : List Value) : Prop :=
  ∀ x ∈ raw.drop ENTRIES_READ, ∃ y ∈ raw.take ENTRIES_READ, SameEntry t.subjectType x y

section Account

variable {records : List Record} {t : ForEach} {ctx : Context} {raw : List Value}
  {entries : Entries} {cut : List String}
  (hread : readEntries t.subjectType {} (raw.take ENTRIES_READ) = .ok entries)
  (hcut : ∀ k ∈ (enumerationOf t ctx entries).subjects,
    k ∈ cut ↔ ¬ Investigated records t ((enumerationOf t ctx entries).withUnfinished cut) k)
  (hsub : ∀ k ∈ cut, k ∈ (enumerationOf t ctx entries).subjects)

include hread in
theorem kept_or_dropped (k : String) :
    k ∈ (enumerationOf t ctx entries).subjects ∨ k ∈ (enumerationOf t ctx entries).dropped
      ↔ ∃ x ∈ raw.take ENTRIES_READ, keyOf t.subjectType x = some k := by
  rw [mem_enumerationOf, readEntries_good hread]
  exact or_iff_right List.not_mem_nil

include hread in
theorem rejected_iff (r : String) :
    r ∈ entries.rejected ↔ ∃ x ∈ raw.take ENTRIES_READ,
      keyOf t.subjectType x = none ∧ shownKey (entryKey x) = r := by
  rw [readEntries_rejected hread]
  exact or_iff_right List.not_mem_nil

theorem SameEntry.investigated {e : Enumeration} {x y : Value} (h : SameEntry t.subjectType x y)
    (hy : EntryInvestigated records t e y) : EntryInvestigated records t e x := by
  obtain ⟨k, hk, hinv⟩ := hy
  exact ⟨k, h.1.trans hk, hinv⟩

theorem SameEntry.named {e : Enumeration} {x y : Value} (h : SameEntry t.subjectType x y)
    (hy : Named t e y) : Named t e x := by
  obtain ⟨hkey, hshown⟩ := h
  rw [Named] at hy ⊢
  rw [hkey]
  rcases hkey' : keyOf t.subjectType y with _ | k
  · rw [hshown (hkey.trans hkey')]
    simpa only [hkey'] using hy
  · simpa only [hkey'] using hy

include hread hcut in
/-- Every entry read is investigated or named. -/
theorem read_accounted {x : Value} (hx : x ∈ raw.take ENTRIES_READ) :
    EntryInvestigated records t ((enumerationOf t ctx entries).withUnfinished cut) x
      ∨ Named t ((enumerationOf t ctx entries).withUnfinished cut) x := by
  rw [Named, withUnfinished_dropped, withUnfinished_rejected, withUnfinished_unfinished rfl]
  rcases hkey : keyOf t.subjectType x with _ | k
  · exact .inr ((rejected_iff hread _).mpr ⟨x, hx, hkey, rfl⟩)
  · have hkept : k ∈ (enumerationOf t ctx entries).subjects
        ∨ k ∈ (enumerationOf t ctx entries).dropped := (kept_or_dropped hread k).mpr ⟨x, hx, hkey⟩
    rcases hkept with hkept | hdropped
    · by_cases hk : k ∈ cut
      · exact .inr (.inr hk)
      · exact .inl ⟨k, hkey, not_not.mp fun hn => hk ((hcut k hkept).mpr hn)⟩
    · exact .inr (.inl hdropped)

include hread hsub in
/-- What is investigated or named was read. -/
theorem accounted_read {x : Value}
    (h : EntryInvestigated records t ((enumerationOf t ctx entries).withUnfinished cut) x
      ∨ Named t ((enumerationOf t ctx entries).withUnfinished cut) x) :
    ∃ y ∈ raw.take ENTRIES_READ, SameEntry t.subjectType x y := by
  have hkept : ∀ k, keyOf t.subjectType x = some k →
      (k ∈ (enumerationOf t ctx entries).subjects ∨ k ∈ (enumerationOf t ctx entries).dropped) →
      ∃ y ∈ raw.take ENTRIES_READ, SameEntry t.subjectType x y := by
    intro k hkey hk
    obtain ⟨y, hy, hky⟩ := (kept_or_dropped hread k).mp hk
    exact ⟨y, hy, hkey.trans hky.symm, fun hnone => by rw [hkey] at hnone; cases hnone⟩
  rcases h with ⟨k, hkey, hk, -⟩ | hnamed
  · rw [withUnfinished_subjects] at hk
    exact hkept k hkey (.inl hk)
  · rw [Named, withUnfinished_dropped, withUnfinished_rejected, withUnfinished_unfinished rfl]
      at hnamed
    rcases hkey : keyOf t.subjectType x with _ | k
    · rw [hkey] at hnamed
      obtain ⟨y, hy, hky, hshown⟩ := (rejected_iff hread _).mp hnamed
      exact ⟨y, hy, hkey.trans hky.symm, fun _ => hshown.symm⟩
    · rw [hkey] at hnamed
      rcases hnamed with hdropped | hunfinished
      · exact hkept k hkey (.inr hdropped)
      · exact hkept k hkey (.inl (hsub k hunfinished))

include hread hcut hsub in
theorem honest_iff :
    Honest records t (readWhole t ctx) raw ((enumerationOf t ctx entries).withUnfinished cut)
      ↔ RepeatsRead t raw := by
  constructor
  · rintro ⟨-, hall⟩ x hx
    exact accounted_read hread hsub (hall x (List.mem_of_mem_drop hx))
  · intro hrepeats
    have hread' : ∀ x ∈ raw, ∃ y ∈ raw.take ENTRIES_READ, SameEntry t.subjectType x y := by
      intro x hx
      rw [← List.take_append_drop ENTRIES_READ raw] at hx
      rcases List.mem_append.mp hx with hx | hx
      · exact ⟨x, hx, rfl, fun _ => rfl⟩
      · exact hrepeats x hx
    have hall : ∀ x ∈ raw,
        EntryInvestigated records t ((enumerationOf t ctx entries).withUnfinished cut) x
          ∨ Named t ((enumerationOf t ctx entries).withUnfinished cut) x := by
      intro x hx
      obtain ⟨y, hy, hsame⟩ := hread' x hx
      exact (read_accounted hread hcut hy).imp hsame.investigated hsame.named
    refine ⟨fun hcomplete => ?_, hall⟩
    obtain ⟨hstatus, rfl⟩ := withUnfinished_complete.mp hcomplete
    obtain ⟨hdropped, hrejected, hwhole⟩ := enumerationOf_complete.mp hstatus
    refine ⟨hwhole, fun x hx => (hall x hx).resolve_right fun hnamed => ?_⟩
    -- nothing is named: nothing was dropped, rejected or left unfinished
    rw [Named, withUnfinished_dropped, withUnfinished_rejected, withUnfinished_unfinished rfl]
      at hnamed
    split at hnamed
    · rw [hdropped] at hnamed
      simp at hnamed
    · rw [show (enumerationOf t ctx entries).rejected = [] from hrejected] at hnamed
      cases hnamed

end Account

/-! ## Enumerations of a run -/

theorem runItems_append {env : Env σ} {pre post : List PlanItem} {st st' : RunState σ} :
    runItems env st (pre ++ post) = .ok st' ↔
      ∃ st₁, runItems env st pre = .ok st₁ ∧ runItems env st₁ post = .ok st' := by
  induction pre generalizing st with
  | nil =>
      constructor
      · exact fun h => ⟨st, rfl, h⟩
      · rintro ⟨st₁, h₁, h⟩
        injection h₁ with h₁
        exact h₁ ▸ h
  | cons item pre ih =>
      rw [List.cons_append, runItems, bind_ok]
      constructor
      · rintro ⟨st₁, h₁, h⟩
        obtain ⟨st₂, h₂, h⟩ := ih.mp h
        exact ⟨st₂, bind_ok.mpr ⟨st₁, h₁, h₂⟩, h⟩
      · rintro ⟨st₂, h, h'⟩
        obtain ⟨st₁, h₁, h₂⟩ := bind_ok.mp h
        exact ⟨st₁, h₁, ih.mpr ⟨st₂, h₂, h'⟩⟩

/-- In a whole run, the subjects cut short are the kept ones that were not investigated. -/
theorem cutShort_iff {st : RunState σ} {t : ForEach} {e : Enumeration} {vs : List Visit}
    (hdistinct : (st.records.map Record.stepId).Nodup) (hvs : ∀ v ∈ vs, v ∈ st.visits)
    (hfill : Fill vs (templateSlots t e.subjects)) {k : String} (hk : k ∈ e.subjects) :
    CutShort vs k ↔ ¬ Investigated st.records t e k := by
  have hrecords : ∀ v ∈ vs, v.record ∈ st.records := fun v hv => List.mem_map_of_mem (hvs v hv)
  constructor
  · rintro ⟨v, hv, hsubject, hcut⟩ ⟨-, hinv⟩
    obtain ⟨slot, hslot, hfills⟩ := scheduled hfill hv
    obtain ⟨k', hk', s, hs, rfl⟩ := mem_templateSlots.mp hslot
    have hsame : some k' = some k := by
      rw [← hsubject]
      exact (congrArg Identity.subject hfills.identity).symm
    injection hsame with hsame
    subst hsame
    obtain ⟨r, hr, hid, hnot⟩ := hinv s hs
    have hstepId : r.stepId = v.record.stepId :=
      congrArg Identity.stepId (hid.trans hfills.identity.symm)
    obtain rfl := Ranked.eq_of_key_eq hdistinct hr (hrecords v hv) hstepId
    rw [Visit.cutShort, hnot] at hcut
    cases hcut
  · intro hnot
    by_contra hcut
    refine hnot ⟨hk, fun s hs => ?_⟩
    obtain ⟨v, hv, hfills⟩ := kept hfill (mem_templateSlots.mpr ⟨k, hk, s, hs, rfl⟩)
    refine ⟨v.record, hrecords v hv, hfills.identity, ?_⟩
    rw [← Bool.not_eq_true]
    exact fun hv' => hcut ⟨v, hv, congrArg Identity.subject hfills.identity, hv'⟩

theorem investigated_withUnfinished {records : List Record} {t : ForEach} {e : Enumeration}
    {cut : List String} {k : String} :
    Investigated records t (e.withUnfinished cut) k ↔ Investigated records t e k := by
  rw [Investigated, Investigated, withUnfinished_subjects]

/-- In every run of an accepted plan, an enumeration that read a list is
honest about it exactly if the entries past the first thousand repeat
some of those. One that read none says why, and is never complete. -/
theorem enumeration_honest_iff (plan pre post : List PlanItem) (t : ForEach) (env : Env σ)
    (runner : σ) (st₀ st : RunState σ) (hplan : plan = pre ++ .forEach t :: post)
    (hpre : runItems env.bounded (startState runner) pre = .ok st₀)
    (hrun : runPlanState plan env runner = .ok st) :
    ∃ e, st.enumerations.lookup t.templateId = some e ∧
      match listRead env.bounded t st₀ with
      | some raw =>
          Honest st.records t (readWhole t (st₀.context env.bounded)) raw e ↔ RepeatsRead t raw
      | none => (e.status = .notAsked ∨ e.status = .failed) ∧ e.subjects = [] ∧ e.reason ≠ "" := by
  have hsafe := runPlanState_safe hrun
  obtain ⟨_, hvalid, hitems⟩ := bind_ok.mp hrun
  have hacc := validatePlan_ok hvalid
  rw [hplan, runItems_append] at hitems
  obtain ⟨st₀', hpre', hrest⟩ := hitems
  obtain rfl : st₀' = st₀ := by
    rw [hpre] at hpre'
    injection hpre' with hpre'
    exact hpre'.symm
  obtain ⟨st₁, htemplate, hpost⟩ := bind_ok.mp hrest
  obtain ⟨vs, subs, e, cut, hask, hemits, hfill, hen, hcut⟩ := runTemplate_emits htemplate
  obtain ⟨ws, enums, hemits', hen', -, -⟩ := runItems_emits hpost
  have hvs : ∀ v ∈ vs, v ∈ st.visits := by
    intro v hv
    have hvisits : st.visits = ws.reverse ++ st₁.visits := Ledger.emits_visits hemits'
    have hvisits₁ : st₁.visits = vs.reverse ++ st₀'.visits := Ledger.emits_visits hemits
    rw [hvisits, hvisits₁]
    simp [hv]
  have hlookup : st.enumerations.lookup t.templateId = some (e.withUnfinished cut) := by
    have hnodup : (st.enumerations.map Prod.fst).Nodup :=
      hsafe.templates ▸ templateIds_nodup hacc
    have hmem : (t.templateId, e.withUnfinished cut) ∈ st.enumerations := by
      rw [hen', hen]
      simp
    exact Ranked.lookup_of_mem hnodup hmem
  refine ⟨_, hlookup, ?_⟩
  obtain ⟨hunfinished, hcases⟩ := askSubjects_cases hask
  have hcutSub : ∀ k ∈ cut, k ∈ e.subjects := by
    intro k hk
    obtain ⟨v, hv, hsubject, -⟩ := (hcut k).mp hk
    obtain ⟨slot, hslot, hfills⟩ := scheduled hfill hv
    obtain ⟨k', hk', s, -, rfl⟩ := mem_templateSlots.mp hslot
    have hsame : some k' = some k := by
      rw [← hsubject]
      exact (congrArg Identity.subject hfills.identity).symm
    injection hsame with hsame
    exact hsame ▸ hk'
  rcases hlist : listRead env.bounded t st₀' with _ | raw
  · rw [hlist] at hcases
    obtain ⟨hstatus, hnone, hreason⟩ := hcases
    have hempty : cut = [] := by
      refine List.eq_nil_iff_forall_not_mem.mpr fun k hk => ?_
      have hmem := hcutSub k hk
      rw [hnone] at hmem
      cases hmem
    rw [hempty]
    exact ⟨hstatus, hnone, hreason⟩
  · rw [hlist] at hcases
    obtain ⟨entries, hread, rfl⟩ := hcases
    refine honest_iff hread (fun k hk => ?_) hcutSub
    rw [hcut k, investigated_withUnfinished]
    exact cutShort_iff hsafe.distinct hvs hfill hk

open Listing in
/-- A plan over the transports a list names. -/
def transportPlan : List PlanItem :=
  [.step (step "list"), .forEach (template "each" "repl_transport" [step "probe"])]

theorem transports_run :
    returns (fun st : RunState Nat =>
        decide (listRead (Listing.env [.str "LDAP", .str "TLS"]).bounded
          (Listing.template "each" "repl_transport" [Listing.step "probe"]) st
            = some [.str "LDAP", .str "TLS"]))
        (runItems (Listing.env [.str "LDAP", .str "TLS"]).bounded (startState 0)
          [.step (Listing.step "list")]) = true
      ∧ returns (fun _ => true)
        (runPlanState transportPlan (Listing.env [.str "LDAP", .str "TLS"]) 0) = true := by
  constructor <;> decide +kernel

open Listing in
theorem enumeration_honest_iff_transports :
    ∃ (st₀ st : RunState Nat) (e : Enumeration),
      runPlanState transportPlan (env [.str "LDAP", .str "TLS"]) 0 = .ok st
      ∧ st.enumerations.lookup "each" = some e
      ∧ (Honest st.records (template "each" "repl_transport" [step "probe"])
            (readWhole (template "each" "repl_transport" [step "probe"])
              (st₀.context (env [.str "LDAP", .str "TLS"]).bounded))
            [.str "LDAP", .str "TLS"] e
          ↔ RepeatsRead (template "each" "repl_transport" [step "probe"])
            [.str "LDAP", .str "TLS"]) := by
  obtain ⟨st₀, hst₀, hlist⟩ := returns_iff.mp transports_run.1
  obtain ⟨st, hst, -⟩ := returns_iff.mp transports_run.2
  obtain ⟨e, he, hhonest⟩ := enumeration_honest_iff transportPlan [.step (step "list")] []
    (template "each" "repl_transport" [step "probe"]) (env [.str "LDAP", .str "TLS"]) 0 st₀ st
    rfl hst₀ hst
  rw [of_decide_eq_true hlist] at hhonest
  exact ⟨st₀, st, e, hst, he, hhonest⟩

/-- A thousand times one transport, and then another one. -/
def longList : List Value := List.replicate ENTRIES_READ (.str "LDAP") ++ [.str "TLS"]

/-- The last entry is lost, and the enumeration is called complete. -/
theorem entry_past_thousand_lost :
    validatePlan transportPlan Listing.registry = .ok ()
      ∧ ∃ st e, runPlanState transportPlan (Listing.env longList) 0 = .ok st
          ∧ st.enumerations.lookup "each" = some e ∧ e.status = .complete
          ∧ e.subjects = ["LDAP"] ∧ e.dropped = [] ∧ e.rejected = [] ∧ e.unfinished = [] := by
  refine ⟨by decide +kernel, ?_⟩
  have hrun : returns (fun st : RunState Nat => decide (st.enumerations.lookup "each"
      = some { source := "list.hosts", status := .complete, subjects := ["LDAP"], budget := 16 }))
      (runPlanState transportPlan (Listing.env longList) 0) = true := by
    decide +kernel
  obtain ⟨st, hst, he⟩ := returns_iff.mp hrun
  exact ⟨st, _, hst, of_decide_eq_true he, rfl, rfl, rfl, rfl, rfl⟩

end IpaDiagnose.Planner
