import IpaDiagnose.Replication.Cascade

/-!
# What is collected

The whole investigation takes the steps its parts take: it raises no
chain error, every chain is legal, and what was not seen green left an
alarm.
-/

namespace IpaDiagnose.Replication

open Result
open Relation (ReflTransGen)
open Py (Value Dict)
open Planner (Outcome Record Trace Enumeration)

section Tame

theorem needItem_tame (item : Dict) (name : String) :
    Ensures (needItem item name) (fun _ => True) Tame := by
  unfold needItem
  split
  · trivial
  · exact fun m => nofun

theorem agreementOf_tame (subj : String) (item : Dict) :
    Ensures (agreementOf subj item) (fun a => a.subj = subj ∧ a.item = item) Tame := by
  unfold agreementOf
  refine (needItem_tame item _).bind fun _ _ _ => ?_
  refine (needItem_tame item _).bind fun _ _ _ => ?_
  exact Ensures.pure ⟨rfl, rfl⟩

theorem selectItems_tame (subjects : List String) (listed : List Value) :
    Ensures (selectItems subjects listed)
      (fun items => ∀ x ∈ items, x.1 ∈ subjects ∧ .dict x.2 ∈ listed
        ∧ getField x.2 "subject" = .str x.1) Tame := by
  induction listed with
  | nil => exact fun x hx => nomatch hx
  | cons v rest ih =>
      unfold selectItems
      cases v with
      | dict item =>
          have hname : Ensures (namesSubject subjects (getField item "subject"))
              (fun s => ∀ x, s = some x → x ∈ subjects ∧ getField item "subject" = .str x) Tame := by
            unfold namesSubject
            refine (hashed_tame _).bind fun _ _ _ => Ensures.pure ?_
            intro x hx
            split at hx
            · rename_i s hs
              split at hx
              · rename_i hmem
                injection hx with hx
                subst hx
                exact ⟨hmem, hs⟩
              · cases hx
            · cases hx
          refine hname.bind fun s _ hs => ?_
          refine ih.bind fun more _ hmore => ?_
          have htail : ∀ x ∈ more, x.1 ∈ subjects ∧ .dict x.2 ∈ Value.dict item :: rest
              ∧ getField x.2 "subject" = .str x.1 := fun x hx =>
            ⟨(hmore x hx).1, List.mem_cons_of_mem _ (hmore x hx).2.1, (hmore x hx).2.2⟩
          refine Ensures.pure ?_
          cases s with
          | none => exact htail
          | some s =>
              intro x hx
              rcases List.mem_cons.mp hx with rfl | hx
              · exact ⟨(hs s rfl).1, List.mem_cons_self, (hs s rfl).2⟩
              · exact htail x hx
      | _ =>
          refine ih.mono fun items _ h x hx => ?_
          exact ⟨(h x hx).1, List.mem_cons_of_mem _ (h x hx).2.1, (h x hx).2.2⟩

theorem itemsOf_tame (t : Trace) (subjects : List String) :
    Ensures (itemsOf t subjects) (fun _ => True) Tame := by
  unfold itemsOf
  refine (iter_tame _).bind fun _ _ _ => ?_
  refine (selectItems_tame _ _).bind fun _ _ _ => ?_
  exact Ensures.pure trivial

end Tame

/-! ## The agreements -/

section Agreements

variable {t : Trace} {me realm : Value} {ago : String → Option ℚ} {b b₁ : Builder} {roots : Roots}

/-- The steps of a whole investigation. -/
abbrev Collects (t : Trace) (me : Value) : Builder → Builder → Prop :=
  Goes t me (serverSubject me) ⟨Chain.Legal, 4, True⟩

theorem admits_legal : Admits ⟨Chain.Legal, 4, True⟩ := ⟨fun _ h _ => h, Nat.le_succ 3⟩

theorem admits_symptoms : Symptoms ⟨Chain.Legal, 4, True⟩ := ⟨Nat.lt_succ_self 3, trivial⟩

/-- What each state of a reverse direction rests on. -/
def ReversesRead (t : Trace) (b : Builder) (rs : Reverses) : Prop :=
  ∀ e ∈ rs, (e.2 = .ok → ∃ record, t.getFor "reverse" e.1 = some record ∧ record.outcome = .pass)
    ∧ (e.2 = .transient ∨ e.2 = .failing → b.Alarm)

theorem ReversesRead.mono {rs : Reverses} (h : ReversesRead t b rs) (hgo : Collects t me b b₁) :
    ReversesRead t b₁ rs :=
  fun e he => ⟨(h e he).1, fun hstate => ((h e he).2 hstate).mono hgo⟩

theorem mem_setReverse {subj : String} {state : ReverseState} {rs : Reverses}
    {e : String × ReverseState} (h : e ∈ setReverse subj state rs) : e = (subj, state) ∨ e ∈ rs := by
  rcases List.mem_cons.mp h with h | h
  · exact .inl h
  · exact .inr (List.mem_filter.mp h).1

/-- A subject that has a state keeps one. -/
theorem setReverse_named {subj s : String} {state : ReverseState} {rs : Reverses}
    (h : s = subj ∨ s ∈ rs.map Prod.fst) : s ∈ (setReverse subj state rs).map Prod.fst := by
  by_cases hs : s = subj
  · subst hs
    exact List.mem_map.mpr ⟨(s, state), List.mem_cons_self, rfl⟩
  · obtain ⟨e, he, rfl⟩ := List.mem_map.mp (h.resolve_left hs)
    refine List.mem_map.mpr ⟨e, List.mem_cons_of_mem _ ?_, rfl⟩
    exact List.mem_filter.mpr ⟨he, by simpa using hs⟩

/-- After a number of agreements: one that is enabled and not green left
an alarm, and each has a state of its reverse direction. -/
structure Looked (t : Trace) (me : Value) (b : Builder) (items : List (String × Dict))
    (r : Reverses × Builder) : Prop where
  goes : Collects t me b r.2
  alarms : ∀ x ∈ items, isFalse (getField x.2 "enabled") = false →
    recordedClass x.2 ≠ .known .ok → r.2.Alarm
  read : ReversesRead t r.2 r.1
  named : ∀ x ∈ items, x.1 ∈ r.1.map Prod.fst

theorem agreements_goes (items : List (String × Dict)) :
    ∀ (rs : Reverses) (b₁ : Builder), Rooting b₁ roots → ReversesRead t b₁ rs →
      Ensures (agreements t ago me realm roots items rs b₁)
        (fun r => Looked t me b₁ items r ∧ rs.map Prod.fst ⊆ r.1.map Prod.fst) Tame := by
  induction items with
  | nil =>
      intro rs b₁ hroots hread
      exact ⟨⟨.refl, (fun x hx => nomatch hx), hread, fun x hx => nomatch hx⟩,
        List.Subset.refl _⟩
  | cons x items ih =>
      obtain ⟨subj, item⟩ := x
      intro rs b₁ hroots hread
      unfold agreements
      refine (agreementOf_tame subj item).bind fun a _ ⟨hsubj, hitem⟩ => ?_
      have hself : Collects t me b₁ b₁ := .refl
      refine (agreement_goes admits_legal admits_symptoms hself hroots (fun _ _ h => h)).bind ?_
      rintro b₂ - ⟨hgo₂, halarm⟩
      have hself₂ : Collects t me b₂ b₂ := .refl
      refine (reverse_goes admits_legal admits_symptoms hself₂ (hroots.mono hgo₂)).bind ?_
      rintro ⟨state, b₃⟩ - ⟨hgo₃, hreverse⟩
      have hgo : Collects t me b₁ b₃ := hgo₂.trans hgo₃
      have hread₃ : ReversesRead t b₃ (setReverse subj state rs) := by
        intro e he
        rcases mem_setReverse he with rfl | he
        · rw [← hsubj]
          exact ⟨hreverse.ok, hreverse.alarm⟩
        · exact (hread.mono hgo) e he
      refine (ih _ b₃ (hroots.mono hgo) hread₃).mono fun r _ ⟨hlooked, hkeep⟩ => ?_
      refine ⟨⟨hgo.trans hlooked.goes, ?_, hlooked.read, ?_⟩, fun s hs => ?_⟩
      · intro x hx henabled hcls
        rcases List.mem_cons.mp hx with rfl | hx
        · have h := halarm (by rw [hitem]; exact henabled)
            (by rw [Agreement.cls, hitem]; exact hcls)
          exact h.mono (hgo₃.trans hlooked.goes)
        · exact hlooked.alarms x hx henabled hcls
      · intro x hx
        rcases List.mem_cons.mp hx with rfl | hx
        · exact hkeep (setReverse_named (.inl rfl))
        · exact hlooked.named x hx
      · exact hkeep (setReverse_named (.inr hs))

theorem droppedAll_goes (items : List (String × Dict)) :
    ∀ (b₁ : Builder), Ensures (droppedAll me items b₁) (fun r => Collects t me b₁ r) Tame := by
  induction items with
  | nil => exact fun b₁ => .refl
  | cons x items ih =>
      obtain ⟨subj, item⟩ := x
      intro b₁
      unfold droppedAll
      refine (agreementOf_tame subj item).bind fun a _ _ => ?_
      have hself : Collects t me b₁ b₁ := .refl
      refine (dropped_goes admits_legal admits_symptoms.below hself).bind fun b₂ _ ⟨hgo₂, _⟩ => ?_
      exact (ih b₂).mono fun r _ hgo => hgo₂.trans hgo

end Agreements

/-! ## Topology and update vectors -/

section Context

variable {t : Trace} {me : Value} {here : String} {C : Limits} {b b₁ : Builder}

theorem localNtp_goes (hC : Admits C) (hgo : Goes t me here C b b₁) :
    Goes t me here C b (localNtp t me b₁) := by
  unfold localNtp
  split
  · exact hgo.add (.plain rfl rfl rfl rfl) rfl rfl (hC.low rfl)
  · exact hgo

theorem havePairs_tame (listed : List Value) :
    Ensures (havePairs listed) (fun _ => True) Tame := by
  induction listed with
  | nil => trivial
  | cons v rest ih =>
      unfold havePairs
      cases v with
      | dict item =>
          refine (needItem_tame item _).bind fun _ _ _ => ?_
          refine (needItem_tame item _).bind fun _ _ _ => ?_
          refine (hashed_tame _).bind fun _ _ _ => ?_
          refine (hashed_tame _).bind fun _ _ _ => ?_
          exact ih.bind fun _ _ _ => Ensures.pure trivial
      | _ => exact ih

theorem expectedPairs_tame (segs : List Value) :
    Ensures (expectedPairs me segs) (fun _ => True) Tame := by
  induction segs with
  | nil => trivial
  | cons v rest ih =>
      unfold expectedPairs
      cases v with
      | dict s =>
          dsimp only
          split
          · refine (hashed_tame _).bind fun _ _ _ => ?_
            exact ih.bind fun _ _ _ => Ensures.pure trivial
          · exact ih
      | _ => exact ih

theorem missingPairs_tame (xs ys : List Value) :
    Ensures (missingPairs xs ys) (fun _ => True) Tame := by
  unfold missingPairs Py.sortedValues
  split
  · trivial
  · exact fun m => nofun

/-- A finding of the topology: a code, and a contradiction. -/
theorem addPairs_goes (hC : Admits C) {code : Code} (hcode : code = .segmentWithoutAgreement
    ∨ code = .agreementWithoutSegment) (pairs : List Value) :
    ∀ b₁ : Builder, Goes t me here C b b₁ → Goes t me here C b (addPairs me code b₁ pairs) := by
  induction pairs with
  | nil => exact fun b₁ hgo => hgo
  | cons pair pairs ih =>
      intro b₁ hgo
      rw [addPairs, List.foldl_cons]
      refine ih _ ?_
      split
      · rcases hcode with rfl | rfl
        · exact hgo.add (.plain rfl rfl rfl rfl) rfl rfl (hC.low rfl)
        · exact hgo.add (.plain rfl rfl rfl rfl) rfl rfl (hC.low rfl)
      · exact hgo

theorem topology_goes (hC : Admits C) (hgo : Goes t me here C b b₁) (peer : Value) :
    Ensures (topology_checks t me b₁ peer) (fun r => Goes t me here C b r) Tame := by
  unfold topology_checks
  split
  · exact hgo
  · refine (iter_tame _).bind fun segs _ _ => ?_
    refine (iter_tame _).bind fun listed _ _ => ?_
    refine (havePairs_tame listed).bind fun haves _ _ => ?_
    refine (expectedPairs_tame segs).bind fun expected _ _ => ?_
    refine (missingPairs_tame _ _).bind fun absent _ _ => ?_
    refine (missingPairs_tame _ _).bind fun extra _ _ => ?_
    exact Ensures.pure (addPairs_goes hC (.inr rfl) extra _ (addPairs_goes hC (.inl rfl) absent _ hgo))

theorem addRuv_goes (hC : Admits C) (masters : List Value) (suffix : String) (els : List Value) :
    ∀ b₁ : Builder, Goes t me here C b b₁ →
      Ensures (addRuv masters suffix b₁ els) (fun r => Goes t me here C b r) Tame := by
  induction els with
  | nil => exact fun b₁ hgo => hgo
  | cons v rest ih =>
      intro b₁ hgo
      unfold addRuv
      cases v with
      | dict el =>
          refine (hashed_tame _).bind fun _ _ _ => ?_
          dsimp only
          split
          · exact ih b₁ hgo
          · exact ih _ (hgo.add (.plain rfl rfl rfl rfl) rfl rfl (hC.low rfl))
      | _ => exact ih b₁ hgo

theorem ruvSuffix_goes (hC : Admits C) (hgo : Goes t me here C b b₁) (masters : List Value) (ruv : Value)
    (suffix : String) :
    Ensures (ruvSuffix masters ruv b₁ suffix) (fun r => Goes t me here C b r) Tame := by
  unfold ruvSuffix
  have hget : Ensures (ruv.get suffix .null : Except E Value) (fun _ => True) Tame := by
    unfold Value.get
    split
    · trivial
    · exact fun m => nofun
  refine hget.bind fun els _ _ => ?_
  refine (iter_tame _).bind fun els _ _ => ?_
  exact addRuv_goes hC masters suffix els b₁ hgo

theorem ruv_goes (hC : Admits C) (hgo : Goes t me here C b b₁) :
    Ensures (ruv_context t b₁) (fun r => Goes t me here C b r) Tame := by
  unfold ruv_context
  split
  · exact hgo
  · dsimp only
    split
    · exact hgo
    · split
      · exact hgo
      · refine (iter_tame _).bind fun masters _ _ => ?_
        have hset : Ensures (Py.setOf masters : Except E (List Value)) (fun _ => True) Tame := by
          unfold Py.setOf
          split
          · trivial
          · exact fun m => nofun
        refine hset.bind fun masters _ _ => ?_
        refine (ruvSuffix_goes hC hgo masters _ "domain").bind fun b₂ _ hgo₂ => ?_
        exact ruvSuffix_goes hC hgo₂ masters _ "ca"

end Context

/-! ## The investigation -/

section Whole

variable {t : Trace} {ago : String → Option ℚ} {inputs : Dict} {me realm : Value}

/-- The subjects that are investigated. -/
def investigated (t : Trace) : List String := ((agreementEnum t).map Enumeration.subjects).getD []

theorem collect_goes :
    Ensures (collect t ago inputs me realm)
      (fun r => ∃ items, itemsOf t (investigated t) = .ok items ∧ Looked t me {} items r) Tame := by
  unfold collect
  refine (@localRoots_goes t me _ _ admits_legal trivial {}).bind ?_
  rintro ⟨roots, b₁⟩ - ⟨hgo₁, hroots⟩
  refine (itemsOf_tame t _).bind fun items hitems _ => ?_
  have hread : ReversesRead t b₁ [] := fun e he => nomatch he
  refine (agreements_goes items [] b₁ hroots hread).bind ?_
  rintro ⟨rs, b₂⟩ - ⟨hlooked, -⟩
  refine (itemsOf_tame t _).bind fun left _ _ => ?_
  refine (@droppedAll_goes t me left b₂).bind fun b₃ _ hgo₃ => ?_
  have hself : Collects t me b₃ b₃ := .refl
  refine (topology_goes admits_legal (localNtp_goes admits_legal hself) _).bind fun b₄ _ hgo₄ => ?_
  refine (ruv_goes admits_legal hgo₄).bind fun b₅ _ hgo₅ => ?_
  have hrest : Collects t me b₂ b₅ := hgo₃.trans hgo₅
  refine Ensures.pure ⟨items, hitems, ?_, ?_, ?_, hlooked.named⟩
  · exact hgo₁.trans (hlooked.goes.trans hrest)
  · exact fun x hx henabled hcls => (hlooked.alarms x hx henabled hcls).mono hrest
  · exact hlooked.read.mono hrest

/-- **Cause chains are always legal.** A diagnosis never raises a chain
error, whatever the trace; and when it returns, every link of every chain
has evidence and a discriminator that is registered for exactly its step,
which is an edge of the capability graph, and no chain has a capability
twice. -/
theorem diagnose_chains_legal (t : Trace) (ago : String → Option ℚ) (inputs : Dict) :
    (∀ err, diagnose t ago inputs ≠ .error (.own err))
      ∧ ∀ out, diagnose t ago inputs = .ok out → ∀ c ∈ out.chains,
        c.Legal ∧ (c.links.map Link.capability).Nodup := by
  have h : Ensures (diagnose t ago inputs)
      (fun out => ∀ c ∈ out.chains, c.Legal ∧ (c.links.map Link.capability).Nodup) Tame := by
    unfold diagnose
    split
    · exact fun c hc => nomatch hc
    · refine collect_goes.bind ?_
      rintro ⟨rs, b⟩ - ⟨items, -, hlooked⟩
      refine Ensures.pure fun c hc => ?_
      obtain ⟨cs, hcs, hlegal⟩ := hlooked.goes.chains
      rw [hcs] at hc
      have hc' := hlegal c (by simpa using hc)
      exact ⟨hc', hc'.nodup⟩
  exact ⟨fun err herr => h.of_error herr err rfl, fun out hout => h.of_ok hout⟩

end Whole

end IpaDiagnose.Replication
