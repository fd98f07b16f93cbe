import IpaDiagnose.Replication.Reports

/-!
# When the explanations are consistent

Over the whole investigation: the roles, and what explains what.
-/

namespace IpaDiagnose.Replication

open Result
open Relation (ReflTransGen TransGen)
open Py (Value Dict)
open Planner (Outcome Record Trace Enumeration)

/-! ## The whole investigation -/

section Whole

variable {t : Trace} {ago : String → Option ℚ} {inputs : Dict} {me realm : Value} {b : Builder}
  {roots : Roots} {rs : Reports}

/-- The agreements of some items. -/
def agreementsOf : List (String × Dict) → Except E (List Agreement)
  | [] => .ok []
  | (subj, item) :: rest => do
      let a ← agreementOf subj item
      let more ← agreementsOf rest
      pure (a :: more)

/-- What is reported of some agreements, in their order. -/
def reported (t : Trace) (me realm : Value) (as : List Agreement) : Reports :=
  as.flatMap fun a => forward t me realm a ++ backward t me a

/-- The agreements that are investigated. -/
def investigatedAgreements (t : Trace) : Except E (List Agreement) := do
  let items ← itemsOf t (investigated t)
  agreementsOf items

theorem agreements_told (items : List (String × Dict)) :
    ∀ (b : Builder) (rs : Reports) (states : Reverses), Told b rs → Rooting b roots →
      RootsOf t me roots → Ensures (agreements t ago me realm roots items states b)
        (fun r => ∃ as, agreementsOf items = .ok as ∧ Told r.2 (rs ++ reported t me realm as))
        Anything := by
  induction items with
  | nil => exact fun b rs states h _ _ => ⟨[], rfl, by rw [reported]; simpa using h⟩
  | cons x items ih =>
      obtain ⟨subj, item⟩ := x
      intro b rs states h hroots hkeys
      unfold agreements
      refine Ensures.bind (Q := fun _ => True) (Ensures.trivial fun _ _ => trivial) ?_
      intro a ha _
      have hself : Collects t me b b := .refl
      have hgoes := @agreement_goes t me realm _ _ b b a roots ago admits_legal admits_symptoms
        hself hroots fun _ _ hc => hc
      have htold := @agreement_told t me realm b rs a roots ago h hroots hkeys
      refine (htold.and hgoes).raises (fun _ _ => trivial) |>.bind fun b₂ _ h₂ => ?_
      obtain ⟨htold₂, hgo₂, -⟩ := h₂
      have hroots₂ := hroots.mono hgo₂
      have hself₂ : Collects t me b₂ b₂ := .refl
      have hgoes₂ := @reverse_goes t me _ _ b₂ b₂ a roots admits_legal admits_symptoms hself₂ hroots₂
      refine ((reverse_told htold₂ hroots₂ hkeys).and hgoes₂).raises (fun _ _ => trivial) |>.bind ?_
      rintro ⟨state, b₃⟩ - ⟨htold₃, hgo₃, -⟩
      refine (ih b₃ _ _ htold₃ (hroots₂.mono hgo₃) hkeys).mono ?_
      rintro r - ⟨as, has, htold₄⟩
      refine ⟨a :: as, ?_, ?_⟩
      · rw [agreementsOf, ha, ok_bind, has]
        rfl
      · simpa [reported, List.append_assoc] using htold₄

theorem droppedAll_told (t : Trace) (items : List (String × Dict)) :
    ∀ (b : Builder) (rs : Reports), Told b rs → Ensures (droppedAll me items b)
      (fun b' => ∃ more : Reports, (∀ e ∈ more, e.2 = none) ∧ Told b' (rs ++ more)) Anything := by
  induction items with
  | nil => exact fun b rs h => ⟨[], by simp, by simpa using h⟩
  | cons x items ih =>
      obtain ⟨subj, item⟩ := x
      intro b rs h
      unfold droppedAll
      refine Ensures.bind (Q := fun _ => True) (Ensures.trivial fun _ _ => trivial) ?_
      intro a _ _
      have hone : Ensures (dropped me b a) (fun b' => ∃ more : Reports, (∀ e ∈ more, e.2 = none)
          ∧ Told b' (rs ++ more)) Anything := by
        unfold dropped
        split
        · exact ⟨[], by simp, by simpa using h⟩
        · refine Ensures.bind (Q := fun _ => True) (Ensures.trivial fun _ _ => trivial) ?_
          intro _ _ _
          have hself : Goes t me (serverSubject me) Silent b b := .refl
          have hchain := hself.chain admits_silent
            (@statusLink_properTo me a).proper (a.relKey me) true none
          refine (hchain.raises anything).bind ?_
          rintro ⟨c, b₂⟩ - ⟨hgo₂, -⟩
          exact Ensures.pure ⟨[(_, none)], fun e he => by rw [List.mem_singleton.mp he],
            (h.silent hgo₂).unexplained rfl rfl⟩
      refine hone.bind fun b₂ _ h₂ => ?_
      obtain ⟨more, hmore, htold₂⟩ := h₂
      refine (ih b₂ _ htold₂).mono fun b₃ _ h₃ => ?_
      obtain ⟨more', hmore', htold₃⟩ := h₃
      refine ⟨more ++ more', fun e he => ?_, by rw [← List.append_assoc]; exact htold₃⟩
      rcases List.mem_append.mp he with he | he
      · exact hmore e he
      · exact hmore' e he

theorem collect_told : Ensures (collect t ago inputs me realm)
    (fun r => ∃ as, ∃ more : Reports, investigatedAgreements t = .ok as
      ∧ (∀ e ∈ more, e.2 = none) ∧ Told r.2 (reported t me realm as ++ more)) Anything := by
  unfold collect
  refine localRoots_told.bind ?_
  rintro ⟨roots, b₁⟩ - ⟨htold₁, hroots, hkeys⟩
  refine Ensures.bind (Q := fun _ => True) (Ensures.trivial fun _ _ => trivial) ?_
  intro items hitems _
  refine (agreements_told items b₁ [] [] htold₁ hroots hkeys).bind ?_
  rintro ⟨states, b₂⟩ - ⟨as, has, htold₂⟩
  refine Ensures.bind (Q := fun _ => True) (Ensures.trivial fun _ _ => trivial) fun left _ _ => ?_
  refine (droppedAll_told t left b₂ _ htold₂).bind fun b₃ _ h₃ => ?_
  obtain ⟨more, hmore, htold₃⟩ := h₃
  have hself : Goes t me (serverSubject me) Silent b₃ b₃ := .refl
  refine ((topology_goes admits_silent (localNtp_goes admits_silent hself) _).raises
    anything).bind fun b₄ _ hgo₄ => ?_
  refine ((ruv_goes admits_silent hgo₄).raises anything).bind fun b₅ _ hgo₅ => ?_
  refine Ensures.pure ⟨as, more, ?_, hmore, htold₃.silent hgo₅⟩
  rw [investigatedAgreements, show itemsOf t (investigated t) = .ok items from hitems, ok_bind, has]

end Whole

/-! ## Roles -/

section Roles

variable {ds : List ReplDiagnosis}

/-- Each diagnosis of the one list is, but for its role, one of the other. -/
structure SameButRole (ds ds' : List ReplDiagnosis) : Prop where
  forth : ∀ d ∈ ds, ∃ role, { d with role := role } ∈ ds'
  back : ∀ d' ∈ ds', ∃ d ∈ ds, ∃ role, d' = { d with role := role }

theorem SameButRole.perm {ds₁ ds₂ ds' : List ReplDiagnosis} (h : SameButRole ds₁ ds₂)
    (hds : ds.Perm ds₁) (hds' : ds₂.Perm ds') : SameButRole ds ds' := by
  constructor
  · intro d hd
    obtain ⟨role, hrole⟩ := h.forth d (hds.mem_iff.mp hd)
    exact ⟨role, hds'.mem_iff.mp hrole⟩
  · intro d' hd'
    obtain ⟨d, hd, role, heq⟩ := h.back d' (hds'.mem_iff.mpr hd')
    exact ⟨d, hds.mem_iff.mpr hd, role, heq⟩

/-- Each diagnosis gets a role, and nothing else changes. -/
theorem assignRoles_same (primarySet : Bool) (ds : List ReplDiagnosis) :
    SameButRole ds (assignRoles primarySet ds) := by
  induction ds generalizing primarySet with
  | nil => exact ⟨fun d hd => (nomatch hd), fun d hd => (nomatch hd)⟩
  | cons x ds ih =>
      have hrest := ih (primarySet || roleOf primarySet x = .primary)
      constructor
      · intro d hd
        rcases List.mem_cons.mp hd with rfl | hd
        · exact ⟨some (roleOf primarySet d), List.mem_cons_self⟩
        · obtain ⟨role, hrole⟩ := hrest.forth d hd
          exact ⟨role, List.mem_cons_of_mem _ hrole⟩
      · intro d' hd'
        rcases List.mem_cons.mp hd' with rfl | hd'
        · exact ⟨x, List.mem_cons_self, some (roleOf primarySet x), rfl⟩
        · obtain ⟨d, hd, role, heq⟩ := hrest.back d' hd'
          exact ⟨d, List.mem_cons_of_mem _ hd, role, heq⟩

theorem undangle_anchored (h : Wired ds) :
    ds.map (undangle (ds.map ReplDiagnosis.key)) = ds := by
  refine (List.map_congr_left fun d hd => ?_).trans (List.map_id ds)
  unfold undangle
  refine if_pos ?_
  cases hrel : d.relatedTo with
  | none => rfl
  | some k =>
      obtain ⟨r, hr, hkey, -⟩ := h.anchored d hd k hrel
      simpa using ⟨r, hr, hkey⟩

/-- The roles change nothing else, if every cause is there. -/
theorem roles_same (h : Wired ds) : SameButRole ds (roles ds) := by
  unfold roles
  dsimp only
  rw [undangle_anchored h]
  exact (assignRoles_same false (sortedBy causeOrder ds)).perm
    (List.perm_insertionSort _ ds).symm (List.perm_insertionSort _ _).symm

def isPrimary (d : ReplDiagnosis) : Bool := d.role = some .primary

/-- A failure that nothing explains, and that is diagnosed. -/
structure ReplDiagnosis.Standing (d : ReplDiagnosis) : Prop where
  severity : d.severity = .fail
  unrelated : d.relatedTo = none
  diagnosed : d.kind ≠ some .undiagnosed
  agreeing : d.kind ≠ some .contradicting

theorem roleOf_set (d : ReplDiagnosis) : roleOf true d ≠ .primary := by
  unfold roleOf
  grind

theorem roleOf_standing {d : ReplDiagnosis} (h : d.Standing) : roleOf false d = .primary := by
  simp [roleOf, h.severity, h.unrelated, h.diagnosed, h.agreeing]

theorem assignRoles_primaries (primarySet : Bool) (ds : List ReplDiagnosis) :
    (assignRoles primarySet ds).countP isPrimary ≤ bit (!primarySet) := by
  induction ds generalizing primarySet with
  | nil => exact Nat.zero_le _
  | cons d ds ih =>
      unfold assignRoles
      dsimp only
      rw [List.countP_cons]
      cases primarySet with
      | true =>
          have hnot : isPrimary { d with role := some (roleOf true d) } = false := by
            simpa [isPrimary] using roleOf_set d
          rw [hnot]
          exact ih true
      | false =>
          by_cases hrole : roleOf false d = .primary
          · have hrest := ih (false || decide (roleOf false d = .primary))
            rw [hrole] at hrest ⊢
            have hzero : bit (!(false || decide (Role.primary = .primary))) = 0 := rfl
            rw [hzero] at hrest
            have hone : bit (!false) = 1 := rfl
            rw [hone]
            split <;> omega
          · have hnot : isPrimary { d with role := some (roleOf false d) } = false := by
              simpa [isPrimary] using hrole
            have hkeep : (false || decide (roleOf false d = .primary)) = false := by
              simpa using hrole
            rw [hnot, hkeep]
            exact ih false

theorem assignRoles_primary {d : ReplDiagnosis} (h : d.Standing) (hd : d ∈ ds) :
    ∃ d' ∈ assignRoles false ds, d'.role = some .primary := by
  induction ds with
  | nil => cases hd
  | cons x ds ih =>
      unfold assignRoles
      dsimp only
      by_cases hrole : roleOf false x = .primary
      · exact ⟨_, List.mem_cons_self, congrArg some hrole⟩
      · have hkeep : (false || decide (roleOf false x = .primary)) = false := by
          simpa using hrole
        rw [hkeep]
        rcases List.mem_cons.mp hd with rfl | hd
        · exact absurd (roleOf_standing h) hrole
        · obtain ⟨d', hd', hprimary⟩ := ih hd
          exact ⟨d', List.mem_cons_of_mem _ hd', hprimary⟩

theorem roles_primaries (ds : List ReplDiagnosis) : (roles ds).countP isPrimary ≤ 1 := by
  unfold roles sortedBy
  rw [(List.perm_insertionSort _ _).countP_eq]
  exact assignRoles_primaries false _

theorem roles_primary {d : ReplDiagnosis} (h : d.Standing) (hw : Wired ds) (hd : d ∈ ds) :
    ∃ d' ∈ roles ds, d'.role = some .primary := by
  unfold roles sortedBy
  dsimp only
  rw [undangle_anchored hw]
  have hsorted : d ∈ sortedBy causeOrder ds := (List.mem_insertionSort _).mpr hd
  obtain ⟨d', hd', hprimary⟩ := assignRoles_primary h hsorted
  exact ⟨d', (List.mem_insertionSort _).mpr hd', hprimary⟩

end Roles

/-! ## Consistent explanations -/

/-- One cause is the primary one, the causes end at failures, and what
names a diagnosis is what that lists. -/
structure Consistent (ds : List ReplDiagnosis) : Prop where
  onePrimary : ds.countP isPrimary ≤ 1
  primary : (∃ d ∈ ds, d.Standing) → ∃ d ∈ ds, d.role = some .primary
  acyclic : ∀ d ∈ ds, ¬TransGen (ExplainedBy ds) d d
  ends : ∀ d ∈ ds, d.relatedTo ≠ none →
    ∃ r, TransGen (ExplainedBy ds) d r ∧ r.severity = .fail ∧ r.relatedTo = none
  linked : ∀ d ∈ ds, ∀ r ∈ ds, d.relatedTo = some r.key ↔ d.key ∈ r.explains

theorem SameButRole.alike {ds ds' : List ReplDiagnosis} (h : SameButRole ds ds') :
    Alike ds ds' ∧ Alike ds' ds := by
  constructor
  · intro d' hd'
    obtain ⟨d, hd, role, rfl⟩ := h.back d' hd'
    exact ⟨d, hd, rfl, rfl, rfl, rfl⟩
  · intro d hd
    obtain ⟨role, hrole⟩ := h.forth d hd
    exact ⟨_, hrole, rfl, rfl, rfl, rfl⟩

/-- With their roles, wired diagnoses are consistent if what is listed
names the one that lists it. -/
theorem consistent_iff {ds : List ReplDiagnosis} (hw : Wired ds)
    (hsev : ∀ d ∈ ds, d.severity = severityOf d.code) :
    Consistent (roles ds) ↔ Backed ds := by
  have hsame := roles_same hw
  obtain ⟨hback, hforth⟩ := hsame.alike
  have hw' : Wired (roles ds) := hw.alike hback hforth
  constructor
  · intro h
    refine Backed.alike (fun d hd r hr => (h.linked d hd r hr).mpr) hforth
  · intro hb
    have hb' : Backed (roles ds) := hb.alike hback
    have hanchored : ∀ d ∈ roles ds, ∀ k, d.relatedTo = some k → ∃ r ∈ roles ds, r.key = k
        ∧ r.severity = .fail ∧ tier r.code < tier d.code := by
      intro d hd k hk
      obtain ⟨r, hr, hkey, hfail, htier⟩ := hw'.anchored d hd k hk
      obtain ⟨x, hx, role, rfl⟩ := hsame.back r hr
      exact ⟨_, hr, hkey, (hsev x hx).trans hfail, htier⟩
    refine ⟨roles_primaries ds, ?_, fun d hd => ?_, fun d hd => ends_at_root hanchored hd, ?_⟩
    · rintro ⟨d, hd, hstanding⟩
      obtain ⟨x, hx, role, rfl⟩ := hsame.back d hd
      have hplain : x.Standing := ⟨hstanding.1, hstanding.2, hstanding.3, hstanding.4⟩
      exact roles_primary hplain hw hx
    · refine no_cycle (fun x hx r hr hrel => ?_) hd
      obtain ⟨r', hr', hkey, -, htier⟩ := hanchored x hx r.key hrel
      rw [← (keyOf_inj.mp hkey).1]
      exact htier
    · intro d hd r hr
      exact ⟨hw'.told d hd r hr, hb' d hd r hr⟩

/-- No investigated relationship, in either direction, is reported with a
cause that is not the one of its first report. -/
def OneCause (t : Trace) : Prop :=
  outcomeOf t "server" = some .pass → ∀ as, investigatedAgreements t = .ok as →
    FirstDecides (reported t (factOf t "server" "host")
      (orElse (factOf t "server" "realm") (.str "REALM")) as)

/-- What a diagnosis returns: diagnoses with their roles, wired, where
what is listed names what lists it if each relationship has one cause. -/
theorem diagnose_links {t : Trace} {ago : String → Option ℚ} {inputs : Dict} {out : Diagnosed}
    (h : diagnose t ago inputs = .ok out) :
    ∃ ds, out.diags = roles ds ∧ Wired ds ∧ (∀ d ∈ ds, d.severity = severityOf d.code)
      ∧ (Backed ds ↔ OneCause t) := by
  unfold diagnose at h
  split at h
  · rename_i hserver
    obtain rfl : ({} : Diagnosed) = out := by injection h
    refine ⟨[], rfl, sound_empty.wired, fun d hd => (nomatch hd), ?_⟩
    exact iff_of_true sound_empty.backed fun hpass => absurd hpass hserver
  · rename_i hserver
    have hpass : outcomeOf t "server" = some .pass := not_not.mp hserver
    obtain ⟨⟨states, b⟩, hcollect, h⟩ := bind_ok.mp h
    obtain rfl := pure_ok.mp h
    obtain ⟨as, more, has, hmore, htold⟩ := collect_told.of_ok hcollect
    obtain ⟨items, -, hlooked⟩ := collect_goes.of_ok hcollect
    refine ⟨b.diags, rfl, htold.wired, ?_, ?_⟩
    · refine Runs.diags hlooked.goes (fun d hd _ => hd.1.severity) (fun _ x _ hx _ => hx) ?_ ?_
      · intro x x' hx hfixed _
        have hsame := congrArg ReplDiagnosis.severity hfixed
        have hcode := congrArg ReplDiagnosis.code hfixed
        exact hsame.trans (hx.trans (congrArg severityOf hcode.symm))
      · intro d hd
        cases hd
    · rw [htold.backed, firstDecides_unexplained hmore]
      constructor
      · intro hfirst _ as' has'
        obtain rfl : as = as' := by
          rw [has] at has'
          injection has'
        exact hfirst
      · exact fun hone => hone hpass as has

/-- **Explanation links are consistent exactly when each relationship has
one cause.** -/
theorem links_consistent_iff (t : Trace) (ago : String → Option ℚ) (inputs : Dict)
    {out : Diagnosed} (h : diagnose t ago inputs = .ok out) :
    Consistent out.diags ↔ OneCause t := by
  obtain ⟨ds, hout, hwired, hsev, hbacked⟩ := diagnose_links h
  rw [hout, consistent_iff hwired hsev]
  exact hbacked

/-! ## One relationship with two agreements -/

namespace Twice

def item (status : String) : Value :=
  .dict [("subject", .str "domain:peer.example"), ("consumer", .str "peer.example"),
    ("suffix_kind", .str "domain"), ("status_class", .str status), ("bind_method", .str "SIMPLE")]

def record (stepId : String) (facts : Dict) : Record :=
  { stepId := stepId, capability := "replication.local", check := stepId, title := stepId
    why := "", outcome := .pass, facts := facts }

/-- Two agreements towards one peer, for one suffix. -/
def trace (first second : String) : Trace :=
  { records :=
      [record "server" [("host", .str "ipa1.example"), ("realm", .str "EXAMPLE")],
        record "agreements" [("subjects", .list [item first, item second])]]
    stopReason := "complete", startedAt := "", seconds := 0, bounds := [], checksRun := 2
    checksReused := 0, cancelled := false
    enumerations := [("agreement",
      { source := "agreements", status := .complete, subjects := ["domain:peer.example"]
        budget := 16 })] }

def symptom : String := keyOf .replicationFailing "domain:ipa1.example>peer.example"

def tlsKey : String := keyOf .peerTlsFailed "pair:ipa1.example>peer.example"

def adminKey : String := keyOf .replicaNeedsAdminAction "domain:ipa1.example>peer.example"

/-- What is reported of the two agreements. -/
def both (t : Trace) (rs : Reports) : Bool :=
  returns (fun as => reported t (.str "ipa1.example") (.str "EXAMPLE") as = rs)
    (investigatedAgreements t)

theorem both_tls_purged :
    both (trace "TLS" "CHANGELOG_PURGED") [(symptom, some tlsKey), (symptom, some adminKey)] := by
  decide

theorem both_tls : both (trace "TLS" "TLS") [(symptom, some tlsKey), (symptom, some tlsKey)] := by
  decide

theorem oneCause_iff {first second : String} {rs : Reports} (h : both (trace first second) rs) :
    OneCause (trace first second) ↔ FirstDecides rs := by
  obtain ⟨as, has, hrs⟩ := returns_iff.mp h
  have hrs' := of_decide_eq_true hrs
  constructor
  · intro hone
    rw [← hrs']
    exact hone rfl as has
  · intro hfirst _ as' has'
    rw [has] at has'
    injection has' with hsame
    rw [← hsame]
    exact hrs' ▸ hfirst

end Twice

/-- Two agreements towards one peer fail, one with TLS, one with a purged
changelog: the symptom names the one cause, and both list it. -/
theorem two_causes_inconsistent :
    ¬∀ (t : Trace) (ago : String → Option ℚ) (inputs : Dict) (out : Diagnosed),
      diagnose t ago inputs = .ok out → Consistent out.diags := by
  intro h
  have hreturns : returns (fun _ => true)
      (diagnose (Twice.trace "TLS" "CHANGELOG_PURGED") (fun _ => none) []) = true := by
    decide +kernel
  obtain ⟨out, hout, -⟩ := returns_iff.mp hreturns
  obtain ⟨ds, hds, hwired, hsev, hbacked⟩ := diagnose_links hout
  have hconsistent := h _ _ _ out hout
  rw [hds, consistent_iff hwired hsev, hbacked, Twice.oneCause_iff Twice.both_tls_purged]
    at hconsistent
  have hadmin := hconsistent Twice.symptom Twice.adminKey
    (List.mem_cons_of_mem _ (List.mem_singleton_self _))
  revert hadmin
  decide +kernel

/-- When both fail with TLS, all is consistent. -/
theorem one_cause_consistent :
    ∃ out, diagnose (Twice.trace "TLS" "TLS") (fun _ => none) [] = .ok out
      ∧ Consistent out.diags := by
  have hreturns : returns (fun _ => true)
      (diagnose (Twice.trace "TLS" "TLS") (fun _ => none) []) = true := by
    decide +kernel
  obtain ⟨out, hout, -⟩ := returns_iff.mp hreturns
  refine ⟨out, hout, (links_consistent_iff _ _ _ hout).mpr ?_⟩
  rw [Twice.oneCause_iff Twice.both_tls]
  intro key k hmem
  have hkey : key = Twice.symptom ∧ k = Twice.tlsKey := by simpa using hmem
  rw [hkey.1, hkey.2]
  decide +kernel

end IpaDiagnose.Replication
