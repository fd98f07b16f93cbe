import IpaDiagnose.Replication.Causes
import IpaDiagnose.Replication.Explained

/-!
# When the explanations are consistent

A symptom is one diagnosis, however often its relationship is reported.
It is related to the cause of its first report; every later report that
names a cause makes that cause list it. So the two agree exactly when no
later report names another cause.
-/

namespace IpaDiagnose.Replication

open Result
open Relation (ReflTransGen TransGen)
open Py (Value Dict)
open Planner (Outcome Record Trace Enumeration)

/-! ## The cause a diagnosis has -/

namespace Builder

variable {b b' : Builder} {d : ReplDiagnosis} {key : String}

/-- The cause the diagnosis of a key has, if there is that diagnosis. -/
def relatedOf (b : Builder) (key : String) : Option (Option String) :=
  (b.find? key).map ReplDiagnosis.relatedTo

theorem relatedOf_modify {root : String} {f : ReplDiagnosis → ReplDiagnosis}
    (hf : ∀ d : ReplDiagnosis, d.Evolves (f d)) :
    (b.modify root f).relatedOf key = b.relatedOf key := by
  let g : ReplDiagnosis → ReplDiagnosis := fun d => if d.key = root then f d else d
  have hg : ∀ d : ReplDiagnosis, d.Evolves (g d) := by
    intro d
    by_cases h : d.key = root
    · simp only [g, if_pos h]
      exact hf d
    · simp only [g, if_neg h]
      exact .refl d
  have hkey : ((fun d : ReplDiagnosis => d.key == key) ∘ g) = fun d => d.key == key := by
    funext d
    simp only [Function.comp, (hg d).key]
  have hrel : ReplDiagnosis.relatedTo ∘ g = ReplDiagnosis.relatedTo := by
    funext d
    exact (hg d).relatedTo
  change ((b.diags.map g).find? fun d => d.key == key).map _ = _
  rw [List.find?_map, hkey, Option.map_map, hrel]
  rfl

/-- A diagnosis that is added has its own cause, unless it was there. -/
theorem relatedOf_add : (b.add d).2.relatedOf key
    = (b.relatedOf key).or (if d.key = key then some d.relatedTo else none) := by
  unfold add
  split
  · rename_i old hold
    change (b.modify d.key (mergeEvidence d.evidence)).relatedOf key = _
    rw [relatedOf_modify (evolves_mergeEvidence d.evidence)]
    by_cases h : d.key = key
    · have hsome : b.relatedOf key = some old.relatedTo := by rw [relatedOf, ← h, hold]; rfl
      rw [hsome]
      rfl
    · rw [if_neg h, Option.or_none]
  · rename_i hnone
    simp only [relatedOf, find?, List.find?_append]
    by_cases h : d.key = key
    · have hfresh : (b.diags.find? fun x => x.key == key) = none := by rw [← h]; exact hnone
      simp [hfresh, h]
    · simp [h]

/-- What is added with a cause agrees with what is there. -/
theorem agrees_iff (hkeyed : b.Keyed) :
    Agrees b d ↔ b.relatedOf d.key = none ∨ b.relatedOf d.key = some d.relatedTo := by
  constructor
  · intro h
    cases hfind : b.find? d.key with
    | none => exact .inl (by rw [relatedOf, hfind]; rfl)
    | some x =>
        obtain ⟨hx, hkey⟩ := find?_some hfind
        exact .inr (by rw [relatedOf, hfind, ← h x hx hkey]; rfl)
  · intro h x hx hkey
    have hfind : b.find? d.key = some x := by
      cases hfind : b.find? d.key with
      | none => exact absurd hkey (find?_none.mp hfind x hx)
      | some y =>
          obtain ⟨hy, hykey⟩ := find?_some hfind
          rw [List.inj_on_of_nodup_map hkeyed hy hx (hykey.trans hkey.symm)]
    rw [relatedOf, hfind] at h
    rcases h with h | h
    · cases h
    · injection h

end Builder

/-- Steps that do not add the diagnosis of a key leave its cause. -/
theorem Runs.relatedOf {P : ReplDiagnosis → Prop} {C : Chain → Prop} {b b' : Builder} {key : String}
    (h : Runs P C b b') (hP : ∀ d, P d → d.key ≠ key) : b'.relatedOf key = b.relatedOf key := by
  induction h with
  | refl => rfl
  | tail _ hstep ih =>
      cases hstep with
      | add hd hrel hexp =>
          rw [Builder.relatedOf_add, if_neg (hP _ hd), Option.or_none]
          exact ih
      | chain hC => exact ih
      | touch root hf =>
          rw [Builder.relatedOf_modify hf.evolves]
          exact ih
      | relate hd hrel hexp hroot hf =>
          rw [Builder.relatedOf_modify hf.evolves, Builder.relatedOf_add, if_neg (hP _ hd),
            Option.or_none]
          exact ih

/-! ## Reports -/

/-- What was reported: the key of a symptom, and its cause. -/
abbrev Reports := List (String × Option String)

/-- The cause that is named first, or that none is, stands for all. -/
def FirstDecides (rs : Reports) : Prop :=
  ∀ key k, (key, some k) ∈ rs → rs.lookup key = some (some k)

theorem firstDecides_nil : FirstDecides [] := fun _ _ h => nomatch h

theorem lookup_singleton (key key' : String) (cause : Option String) :
    List.lookup key [(key', cause)] = if key' = key then some cause else none := by
  by_cases h : key' = key
  · subst h
    simp
  · rw [if_neg h, List.lookup_cons, beq_false_of_ne (Ne.symm h)]
    rfl

theorem lookup_mem {rs : Reports} {key : String} {cause : Option String}
    (h : rs.lookup key = some cause) : (key, cause) ∈ rs := by
  obtain ⟨xs, ys, rfl, -⟩ := List.lookup_eq_some_iff.mp h
  simp

/-- One more report. -/
theorem firstDecides_snoc {rs : Reports} {key : String} {cause : Option String} :
    FirstDecides (rs ++ [(key, cause)]) ↔ FirstDecides rs ∧ ∀ k, cause = some k →
      rs.lookup key = none ∨ rs.lookup key = some cause := by
  have hlookup : ∀ key', (rs ++ [(key, cause)]).lookup key'
      = (rs.lookup key').or (if key = key' then some cause else none) := by
    intro key'
    rw [List.lookup_append, lookup_singleton]
  constructor
  · intro h
    refine ⟨fun key' k hmem => ?_, fun k hk => ?_⟩
    · have hfirst := h key' k (List.mem_append_left _ hmem)
      rw [hlookup] at hfirst
      cases hrs : rs.lookup key' with
      | some c =>
          rw [hrs] at hfirst
          exact hfirst
      | none => exact absurd hmem (fun hmem => by simpa using List.lookup_eq_none_iff.mp hrs _ hmem)
    · subst hk
      have hfirst := h key k (List.mem_append_right _ (List.mem_singleton_self _))
      rw [hlookup] at hfirst
      cases hrs : rs.lookup key with
      | none => exact .inl rfl
      | some c =>
          rw [hrs] at hfirst
          exact .inr hfirst
  · rintro ⟨h, hlast⟩ key' k hmem
    rw [hlookup]
    rcases List.mem_append.mp hmem with hmem | hmem
    · rw [h key' k hmem]
      rfl
    · obtain ⟨rfl, rfl⟩ := Prod.mk.inj (List.mem_singleton.mp hmem)
      rcases hlast k rfl with hrs | hrs
      · rw [hrs, if_pos rfl]
        rfl
      · rw [hrs]
        rfl

/-- Reports without a cause disagree with nothing. -/
theorem firstDecides_unexplained {rs more : Reports} (hmore : ∀ e ∈ more, e.2 = none) :
    FirstDecides (rs ++ more) ↔ FirstDecides rs := by
  induction more using List.reverseRecOn with
  | nil => rw [List.append_nil]
  | append_singleton more e ih =>
      obtain ⟨key, cause⟩ := e
      have hnone : cause = none := hmore _ (List.mem_append_right _ (List.mem_singleton_self _))
      rw [← List.append_assoc, firstDecides_snoc,
        ih fun e he => hmore e (List.mem_append_left _ he)]
      exact and_iff_left fun k hk => by rw [hnone] at hk; cases hk

/-! ## What is told of the symptoms -/

/-- Steps that add no symptom and relate nothing. -/
abbrev Silent : Limits := ⟨fun _ => True, 3, False⟩

theorem admits_silent : Admits Silent := ⟨fun _ _ _ => trivial, Nat.le_refl 3⟩

/-- The symptoms are those reported, with the cause reported first; what
explains and what is explained agree if all reports do. -/
structure Told (b : Builder) (rs : Reports) : Prop where
  keyed : b.Keyed
  wired : Wired b.diags
  symptoms : ∀ code s, tier code = 3 → b.relatedOf (keyOf code s) = rs.lookup (keyOf code s)
  backed : Backed b.diags ↔ FirstDecides rs

section Told

variable {t : Trace} {me realm : Value} {here : String} {b b' : Builder} {rs : Reports}
  {a : Agreement} {roots : Roots} {ago : String → Option ℚ} {d : ReplDiagnosis}

theorem Told.silent (h : Told b rs) (hgo : Goes t me here Silent b b') : Told b' rs where
  keyed := hgo.keyed h.keyed
  wired := hgo.wired h.wired
  symptoms := by
    intro code s htier
    rw [hgo.relatedOf fun d hd hkey => ?_, h.symptoms code s htier]
    have hlow : tier d.code < 3 := hd.2.1
    rw [(keyOf_inj.mp hkey).1, htier] at hlow
    exact Nat.lt_irrefl 3 hlow
  backed := by
    have hunrelated : ∀ d, Known t me here d ∧ Allows Silent d → d.relatedTo = none := by
      intro d hd
      by_contra hne
      exact hd.2.2 (Option.isSome_iff_ne_none.mpr hne)
    constructor
    · intro hb'
      exact h.backed.mp (by_contra fun hb => hgo.not_backed hb hb')
    · intro hfirst
      exact hgo.backed hunrelated h.wired (h.backed.mpr hfirst)

/-- The causes of the symptoms, after one more. -/
theorem Told.symptoms_add (h : Told b rs) (code : Code) (s : String) (htier : tier code = 3) :
    (b.add d).2.relatedOf (keyOf code s) = (rs ++ [(d.key, d.relatedTo)]).lookup (keyOf code s) := by
  rw [Builder.relatedOf_add, List.lookup_append, lookup_singleton, h.symptoms code s htier]

/-- A symptom without a cause. -/
theorem Told.unexplained (h : Told b rs) (hrel : d.relatedTo = none) (hexp : d.explains = []) :
    Told (b.add d).2 (rs ++ [(d.key, none)]) where
  keyed := h.keyed.add d
  wired := h.wired.add hrel hexp
  symptoms := by
    rw [← hrel]
    exact h.symptoms_add
  backed := by
    have hstep : Runs (fun _ => True) (fun _ => True) b (b.add d).2 :=
      ReflTransGen.single (.add trivial hrel hexp)
    rw [firstDecides_unexplained fun e he => by rw [List.mem_singleton.mp he], ← h.backed]
    exact ⟨fun hb' => by_contra fun hb => hstep.not_backed hb hb', fun hb => hb.add h.wired hexp⟩

/-- A symptom with its cause. -/
theorem Told.explained {root : String} {f : ReplDiagnosis → ReplDiagnosis} (h : Told b rs)
    (htier : tier d.code = 3) (hrel : d.relatedTo = some root) (hexp : d.explains = [])
    (hroot : b.HasCause root 3) (hf : Explains d.key f) :
    Told ((b.add d).2.modify root f) (rs ++ [(d.key, some root)]) where
  keyed := (h.keyed.add d).modify hf.evolves
  wired := h.wired.relate hrel hexp (by rw [htier]; exact hroot) hf
  symptoms := by
    intro code s hcode
    rw [Builder.relatedOf_modify hf.evolves, ← hrel]
    exact h.symptoms_add code s hcode
  backed := by
    have hroot' : b.HasCause root (tier d.code) := by
      rw [htier]
      exact hroot
    have hstep : Runs (fun _ => True) (fun _ => True) b ((b.add d).2.modify root f) :=
      ReflTransGen.single (.relate trivial hrel hexp hroot' hf)
    have hagrees : Agrees b d ↔ ∀ k, some root = some k →
        rs.lookup d.key = none ∨ rs.lookup d.key = some (some root) := by
      have hsymptom : b.relatedOf d.key = rs.lookup d.key := h.symptoms d.code d.subject htier
      rw [Builder.agrees_iff h.keyed, hrel, hsymptom]
      exact ⟨fun hd _ _ => hd, fun hd => hd root rfl⟩
    rw [firstDecides_snoc, ← hagrees, ← h.backed]
    constructor
    · intro hb'
      exact ⟨by_contra fun hb => hstep.not_backed hb hb',
        by_contra fun hd => not_backed_relate hrel hroot' hd hf hb'⟩
    · rintro ⟨hb, hd⟩
      exact hb.relate h.wired hrel hexp hd hf

/-! ## One agreement -/

/-- What is reported of an agreement, and of its reverse direction. -/
def forward (t : Trace) (me realm : Value) (a : Agreement) : Reports :=
  (reports t me realm a).toList.map fun cause => (keyOf .replicationFailing (a.relKey me), cause)

def backward (t : Trace) (me : Value) (a : Agreement) : Reports :=
  (reverseReports t me a).toList.map fun cause =>
    (keyOf .reverseReplicationFailing (a.reverseKey me), cause)

theorem reportFailing_told (h : Told b rs) {root : Option ReplDiagnosis} (hroot : IsCause b 3 root)
    (c : Chain) : Told (reportFailing me b a root c)
      (rs ++ [(keyOf .replicationFailing (a.relKey me), root.map ReplDiagnosis.key)]) := by
  cases root with
  | none => exact @Told.unexplained b rs (failingDiagnosis me a none c) h rfl rfl
  | some r =>
      obtain ⟨f, hexplains, heq⟩ := @reportFailing_related me a b r c
      rw [heq]
      exact h.explained rfl rfl rfl (hroot r rfl) hexplains

theorem anything (e : E) : Tame e → Anything e := fun _ => trivial

theorem failing_told (h : Told b rs) (hroots : Rooting b roots) (hkeys : RootsOf t me roots) :
    Ensures (failing t me realm b a roots)
      (fun b' => Told b' (rs ++ (causeTold t me realm a).toList.map fun cause =>
        (keyOf .replicationFailing (a.relKey me), cause))) Anything := by
  have hself : ∀ b : Builder, Goes t me (serverSubject me) Silent b b := fun b => .refl
  unfold failing
  refine ((meaning_tame _).raises anything).bind fun _ _ _ => ?_
  have hcause := (@failingCause_goes t me realm (serverSubject me) Silent b b a roots admits_silent (hself b)
    hroots fun _ _ _ => trivial).raises anything
  refine ((failingCause_told hkeys).and hcause).raises (fun _ _ => trivial) |>.bind ?_
  rintro r - ⟨htold, hgood⟩
  rw [← htold]
  cases r with
  | settled b₂ =>
      refine Ensures.pure ?_
      simp only [Cause.told, Option.toList_none, List.map_nil, List.append_nil]
      exact h.silent hgood.1
  | found root c b₂ =>
      obtain ⟨hgo₂, hroot⟩ := hgood
      have hskew := (@noteSkew_goes t me (serverSubject me) Silent b₂ b₂ a admits_silent (hself b₂)).raises anything
      refine hskew.bind fun b₃ _ hgo₃ => ?_
      refine ((unexplainedNow_goes admits_silent hgo₃ root).raises anything).bind fun b₄ _ hgo₄ => ?_
      have hroot₄ := hroot.mono hgo₄
      have htold₄ := (h.silent hgo₂).silent hgo₄
      cases c with
      | some c => exact Ensures.pure (reportFailing_told htold₄ hroot₄ c)
      | none =>
          have hchain := (hself b₄).chain admits_silent
            (@statusLink_properTo me a).proper (a.relKey me) true none
          refine (hchain.raises anything).bind ?_
          rintro ⟨c, b₅⟩ - ⟨hgo₅, hch⟩
          exact Ensures.pure (reportFailing_told (htold₄.silent hgo₅) (hch.isCause hroot₄) c)

theorem agreement_told (h : Told b rs) (hroots : Rooting b roots) (hkeys : RootsOf t me roots) :
    Ensures (agreement t me realm ago b a roots)
      (fun b' => Told b' (rs ++ forward t me realm a)) Anything := by
  have hself : Goes t me (serverSubject me) Silent b b := .refl
  have hsilent : ∀ {b' : Builder}, reports t me realm a = none →
      Goes t me (serverSubject me) Silent b b' → Told b' (rs ++ forward t me realm a) := by
    intro b' hnone hgo
    rw [forward, hnone, Option.toList_none, List.map_nil, List.append_nil]
    exact h.silent hgo
  unfold agreement
  split
  · rename_i hdisabled
    exact hsilent (if_pos (.inl hdisabled))
      (hself.add (.plain rfl rfl rfl rfl) rfl rfl (admits_silent.low rfl))
  · rename_i henabled
    split
    · rename_i hok
      have hnone : reports t me realm a = none := if_pos (.inr (.inl hok))
      refine ((peer_now_goes admits_silent hself).raises anything).bind fun b₂ _ hgo₂ => ?_
      exact ((green_goes admits_silent hgo₂).raises anything).mono fun b₃ _ hgo₃ =>
        hsilent hnone hgo₃
    · rename_i hok
      split
      · rename_i htransient
        have hnone : reports t me realm a = none := if_pos (.inr (.inr htransient))
        refine ((peer_now_goes admits_silent hself).raises anything).bind fun b₂ _ hgo₂ => ?_
        exact Ensures.pure (hsilent hnone
          (hgo₂.add (.plain rfl rfl rfl rfl) rfl rfl (admits_silent.low rfl)))
      · rename_i htransient
        have hcause : reports t me realm a = causeTold t me realm a := by
          unfold reports
          refine if_neg fun hcase => ?_
          rcases hcase with hcase | hcase | hcase
          · exact henabled hcase
          · exact hok hcase
          · exact htransient hcase
        rw [forward, hcause]
        exact failing_told h hroots hkeys

theorem reverseAcceptor_told (t : Trace) (h : Told b rs) (r : Record) (cls : Recorded) {kt : ReplDiagnosis}
    (hkt : IsCause b 3 (some kt)) :
    Ensures (reverseAcceptor me b a r cls kt) (fun b' => Told b'
      (rs ++ [(keyOf .reverseReplicationFailing (a.reverseKey me), some kt.key)])) Anything := by
  refine (reverseAcceptor_related b r cls kt).mono fun b' _ hrelated => ?_
  obtain ⟨c, b₂, f, hch, hexplains, g, key, hg, rfl⟩ := hrelated
  have hself : Goes t me (serverSubject me) Silent b b := .refl
  have htold₂ := h.silent (hself.chained hch trivial)
  have htold₃ := htold₂.explained rfl rfl rfl (hch.isCause hkt kt rfl) hexplains
  have htouch : ∀ b₃ : Builder, Goes t me (serverSubject me) Silent b₃ (b₃.modify key g) :=
    fun b₃ => ReflTransGen.single (.touch key hg)
  exact htold₃.silent (htouch _)

theorem reverseFailing_told (t : Trace) (h : Told b rs) (r : Record) :
    Ensures (reverseFailing me b a r) (fun b' => Told b'
      (rs ++ [(keyOf .reverseReplicationFailing (a.reverseKey me), none)])) Anything := by
  have hself : Goes t me (serverSubject me) Silent b b := .refl
  unfold reverseFailing
  refine ((hself.chain admits_silent (reverseLink_proper r) _ _ _).raises anything).bind ?_
  rintro ⟨c, b₂⟩ - ⟨hgo₂, -⟩
  exact Ensures.pure (Told.unexplained (d := { reverseDiagnosis me a r c with handoff := c.handoff })
    (h.silent hgo₂) rfl rfl)

theorem reverseFailed_told (h : Told b rs) (hroots : Rooting b roots) (hkeys : RootsOf t me roots)
    {r : Record} (hr : t.getFor "reverse" a.subj = some r)
    (hfailed : r.outcome = .warn ∨ r.outcome = .fail) :
    Ensures (reverseFailed t me b a roots r)
      (fun x => Told x.2 (rs ++ backward t me a)) Anything := by
  have hself : Goes t me (serverSubject me) Silent b b := .refl
  have hreports : ∀ cls, reverseClass r = .ok cls → reverseReports t me a =
      if isTransient cls ∨ (cls = .known .transport ∧ dsNotStopped t) then none
      else if acceptorClass cls ∧ measuredSkew t a = none then some (keytabKey t me)
      else some none := by
    intro cls hcls
    unfold reverseReports
    rw [hr]
    dsimp only
    rcases hfailed with hfailed | hfailed <;> rw [hfailed] <;> dsimp only <;> rw [hcls]
  have hpassing : ∀ {b' : Builder}, reverseReports t me a = none →
      Goes t me (serverSubject me) Silent b b' → Told b' (rs ++ backward t me a) := by
    intro b' hnone hgo
    rw [backward, hnone, Option.toList_none, List.map_nil, List.append_nil]
    exact h.silent hgo
  unfold reverseFailed
  refine Ensures.bind (Q := fun _ => True) (Ensures.trivial fun _ _ => trivial) fun cls hcls _ => ?_
  have hcase := hreports cls hcls
  split
  · rename_i htransient
    rw [if_pos (.inl htransient)] at hcase
    exact Ensures.pure (hpassing hcase
      (hself.add (.plain rfl rfl rfl rfl) rfl rfl (admits_silent.low rfl)))
  · rename_i htransient
    split
    · rename_i htransport
      rw [if_pos (.inr htransport)] at hcase
      exact Ensures.pure (hpassing hcase
        (hself.add (.plain rfl rfl rfl rfl) rfl rfl (admits_silent.low rfl)))
    · rename_i htransport
      rw [if_neg (not_or.mpr ⟨htransient, htransport⟩)] at hcase
      refine Ensures.bind (Q := fun _ => True) (Ensures.trivial fun _ _ => trivial) fun _ _ _ => ?_
      have hplain : reverseReports t me a = some none → Ensures (do
          let b ← reverseFailing me b a r
          pure (ReverseState.failing, b))
          (fun x => Told x.2 (rs ++ backward t me a)) Anything := by
        intro hnone
        rw [backward, hnone]
        exact (reverseFailing_told t h r).bind fun b₂ _ htold => Ensures.pure htold
      split
      · rename_i kt hkt
        split
        · rename_i haccepts
          have hkey : some (some kt.key) = reverseReports t me a := by
            rw [hcase, if_pos haccepts, ← hkeys.keytab, hkt]
            rfl
          have hcause : IsCause b 3 (some kt) := by
            rw [← hkt]
            exact hroots.keytab
          rw [backward, ← hkey]
          exact (reverseAcceptor_told t h r cls hcause).bind fun b₂ _ htold =>
            Ensures.pure htold
        · rename_i haccepts
          rw [if_neg haccepts] at hcase
          exact hplain hcase
      · rename_i hkt
        have hkey : keytabKey t me = none := by
          rw [← hkeys.keytab, hkt]
          rfl
        rw [hkey] at hcase
        exact hplain (hcase.trans (ite_self _))

theorem reverse_told (h : Told b rs) (hroots : Rooting b roots) (hkeys : RootsOf t me roots) :
    Ensures (reverse t me b a roots) (fun x => Told x.2 (rs ++ backward t me a)) Anything := by
  have hquiet : reverseReports t me a = none → Told b (rs ++ backward t me a) := by
    intro hnone
    rw [backward, hnone, Option.toList_none, List.map_nil, List.append_nil]
    exact h
  unfold reverse
  cases hr : t.getFor "reverse" a.subj with
  | none => exact hquiet (by rw [reverseReports, hr])
  | some r =>
      dsimp only
      cases hout : r.outcome with
      | skipped => exact hquiet (by rw [reverseReports, hr]; dsimp only; rw [hout])
      | unknown => exact hquiet (by rw [reverseReports, hr]; dsimp only; rw [hout])
      | pass => exact hquiet (by rw [reverseReports, hr]; dsimp only; rw [hout])
      | warn => exact reverseFailed_told h hroots hkeys hr (.inl hout)
      | fail => exact reverseFailed_told h hroots hkeys hr (.inr hout)

end Told

/-! ## This server -/

section Local

variable {t : Trace} {me : Value} {here : String} {b : Builder} {d : ReplDiagnosis}

/-- All diagnoses are of some codes. -/
def Builder.Only (b : Builder) (codes : List Code) : Prop := ∀ d ∈ b.diags, d.code ∈ codes

theorem Builder.Only.add {codes : List Code} (h : b.Only codes) (hcode : d.code ∈ codes) :
    (b.add d).2.Only codes := by
  intro x' hx'
  rcases mem_add_alike hx' with ⟨x, hx, -, hxcode, -⟩ | ⟨rfl, -⟩
  · rw [hxcode]
    exact h x hx
  · exact hcode

theorem Builder.Only.chain {codes : List Code} {links : List Link} {handoff : Option Value}
    {c : Chain} {b' : Builder} (h : b.Only codes) (hch : Chained b links handoff c b') :
    b'.Only codes := by
  rw [hch.builder]
  exact h

theorem Builder.Only.modify {codes : List Code} (h : b.Only codes) {key : String}
    {f : ReplDiagnosis → ReplDiagnosis} (hf : ∀ d : ReplDiagnosis, d.Evolves (f d)) :
    (b.modify key f).Only codes := by
  intro x' hx'
  obtain ⟨x, hx, hev, -⟩ := (Builder.modify_evolves hf).2 x' hx'
  rw [hev.code]
  exact h x hx

/-- A code that is not there yet gives a new diagnosis. -/
theorem Builder.Only.add_new {codes : List Code} (h : b.Only codes) (hcode : d.code ∉ codes) :
    (b.add d).1 = d := by
  unfold Builder.add
  split
  · rename_i old hold
    obtain ⟨hmem, hkey⟩ := Builder.find?_some hold
    refine absurd (h old hmem) ?_
    rw [(keyOf_inj.mp hkey).1]
    exact hcode
  · rfl

theorem Builder.Only.agrees {codes : List Code} (h : b.Only codes) (hcode : d.code ∉ codes) :
    Agrees b d := by
  intro x hx hkey
  refine absurd (h x hx) ?_
  rw [(keyOf_inj.mp hkey).1]
  exact hcode

/-- The diagnoses so far are wired as they should be. -/
structure Sound (b : Builder) (codes : List Code) : Prop where
  only : b.Only codes
  wired : Wired b.diags
  backed : Backed b.diags

theorem Sound.chain {codes : List Code} {links : List Link} {handoff : Option Value}
    {c : Chain} {b' : Builder} (h : Sound b codes) (hch : Chained b links handoff c b') :
    Sound b' codes := by
  rw [hch.builder]
  exact ⟨h.only, h.wired, h.backed⟩

/-- A new diagnosis, related to the cause there is, if there is one. -/
theorem Sound.related {codes more : List Code} (h : Sound b codes) {root : Option ReplDiagnosis}
    (hrel : d.relatedTo = root.map ReplDiagnosis.key) (hexp : d.explains = [])
    (hroot : IsCause b (tier d.code) root) (hnew : d.code ∉ codes) (hcodes : codes ⊆ more)
    (hmore : d.code ∈ more) :
    Ensures (match root with
      | some s => (pure (some (b.add d).1, (b.add d).2.explain s.key (b.add d).1.key)
          : Except E (Option ReplDiagnosis × Builder))
      | none => pure (some (b.add d).1, (b.add d).2))
      (fun r => Sound r.2 more ∧ r.1 = some d) Anything := by
  have honly : b.Only more := fun x hx => hcodes (h.only x hx)
  have hadded : (b.add d).1 = d := h.only.add_new hnew
  rw [hadded]
  cases root with
  | none =>
      exact Ensures.pure ⟨⟨honly.add hmore, h.wired.add hrel hexp, h.backed.add h.wired hexp⟩, rfl⟩
  | some s =>
      have hexplains := explains_append d.key
      refine Ensures.pure ⟨⟨?_, ?_, ?_⟩, rfl⟩
      · exact (honly.add hmore).modify hexplains.evolves
      · exact h.wired.relate hrel hexp (hroot s rfl) hexplains
      · exact h.backed.relate h.wired hrel hexp (h.only.agrees hnew) hexplains

theorem sound_empty : Sound {} [] where
  only := fun d hd => nomatch hd
  wired := by
    refine ⟨?_, ?_, ?_⟩
    all_goals
      intro d hd
      cases hd
  backed := fun d hd => nomatch hd

theorem Sound.subset {codes more : List Code} (h : Sound b codes) (hcodes : codes ⊆ more) :
    Sound b more :=
  ⟨fun x hx => hcodes (h.only x hx), h.wired, h.backed⟩

theorem localStorage_sound : Ensures (localStorage t (serverSubject me) {})
    (fun r => Sound r.2 [.dsStorageProblem] ∧ r.1.map ReplDiagnosis.key = storageKey t me
      ∧ IsCause r.2 1 r.1) Anything := by
  have hbare : Sound {} [.dsStorageProblem] := sound_empty.subset (List.nil_subset _)
  have hcause := (@localStorage_goes t me (serverSubject me) _ {} {} admits_legal .refl).raises anything
  have hsound : Ensures (localStorage t (serverSubject me) {})
      (fun r => Sound r.2 [.dsStorageProblem] ∧ r.1.map ReplDiagnosis.key = storageKey t me)
      Anything := by
    unfold localStorage storageKey
    split
    · have hlegal : Legal none
          [⟨serverSubject me, .storage, ["local.storage"], "local-storage", .here⟩] :=
        ⟨follows_of_fits rfl (List.cons_ne_nil _ _), trivial⟩
      refine (chain_legal hlegal _ _ _).bind ?_
      rintro ⟨c, b₁⟩ - ⟨hch, -⟩
      refine Ensures.pure ⟨⟨?_, ?_, ?_⟩, congrArg some (add_key _ _)⟩
      · exact (hbare.chain hch).only.add (List.mem_singleton_self _)
      · exact (hbare.chain hch).wired.add rfl rfl
      · exact (hbare.chain hch).backed.add (hbare.chain hch).wired rfl
    · exact ⟨hbare, rfl⟩
  refine (hsound.and hcause).mono ?_ |>.raises fun _ _ => trivial
  exact fun r _ h => ⟨h.1.1, h.1.2, h.2.2.1⟩

theorem localDs_sound {storage : Option ReplDiagnosis} (h : Sound b [.dsStorageProblem])
    (hs : IsCause b 1 storage) : Ensures (localDs t (serverSubject me) storage b)
    (fun r => Sound r.2 [.dsStorageProblem, .localDsNotRunning]
      ∧ r.1.map ReplDiagnosis.key = dsKey t me) Anything := by
  unfold localDs dsKey
  split
  · refine (chain_legal (dsLinks_proper storage).legal _ _ _).bind ?_
    rintro ⟨c, b₁⟩ - ⟨hch, -⟩
    have hnew : Code.localDsNotRunning ∉ [Code.dsStorageProblem] := by decide
    have hthere : Code.localDsNotRunning ∈ [Code.dsStorageProblem, .localDsNotRunning] := by decide
    have hd := @Sound.related b₁ (dsDiagnosis t (serverSubject me) storage c) _
      [.dsStorageProblem, .localDsNotRunning] (h.chain hch) storage rfl rfl (hch.isCause hs)
      hnew (by simp) hthere
    refine hd.mono fun r _ hr => ⟨hr.1, ?_⟩
    rw [hr.2]
    rfl
  · exact ⟨h.subset (by simp), rfl⟩

theorem localKdc_sound {ds : Option ReplDiagnosis}
    (h : Sound b [.dsStorageProblem, .localDsNotRunning]) (hs : IsCause b 2 ds) :
    Ensures (localKdc t (serverSubject me) ds b)
      (fun r => Sound r.2 [.dsStorageProblem, .localDsNotRunning, .localKdcNotRunning]
        ∧ r.1.map ReplDiagnosis.key = kdcKey t me
        ∧ ∀ kdc, r.1 = some kdc → kdc.relatedTo.isSome = ds.isSome) Anything := by
  unfold localKdc kdcKey
  split
  · refine (chain_legal (kdcLinks_proper ds).legal _ _ _).bind ?_
    rintro ⟨c, b₁⟩ - ⟨hch, -⟩
    have hnew : Code.localKdcNotRunning ∉ [Code.dsStorageProblem, .localDsNotRunning] := by decide
    have hthere : Code.localKdcNotRunning
        ∈ [Code.dsStorageProblem, .localDsNotRunning, .localKdcNotRunning] := by decide
    have hd := @Sound.related b₁ (kdcDiagnosis (serverSubject me) ds c) _
      [.dsStorageProblem, .localDsNotRunning, .localKdcNotRunning] (h.chain hch) ds rfl rfl
      (hch.isCause hs) hnew (by simp) hthere
    refine hd.mono fun r _ hr => ⟨hr.1, ?_, ?_⟩
    · rw [hr.2]
      rfl
    · intro kdc hkdc
      obtain rfl : kdcDiagnosis (serverSubject me) ds c = kdc := by
        rw [hr.2] at hkdc
        injection hkdc
      exact Option.isSome_map
  · exact ⟨h.subset (by simp), rfl, fun kdc hkdc => nomatch hkdc⟩

theorem localKeytab_key : Ensures (localKeytab t (serverSubject me) b)
    (fun r => r.1.map ReplDiagnosis.key = keytabKey t me) Anything := by
  unfold localKeytab keytabKey
  dsimp only
  split
  · refine Ensures.bind (Q := fun _ => True) (Ensures.trivial fun _ _ => trivial) fun _ _ _ => ?_
    exact (chain_any _ _ _ _).bind fun _ _ _ => Ensures.pure (congrArg some (add_key _ _))
  · split
    · exact rfl
    · exact rfl

/-- The causes on this server are found, and nothing is reported yet. -/
theorem localRoots_told : Ensures (localRoots t (serverSubject me) {})
    (fun r => Told r.2 [] ∧ Rooting r.2 r.1 ∧ RootsOf t me r.1) Anything := by
  have hgoes := (@localRoots_goes t me (serverSubject me) ⟨fun _ => True, 3, True⟩
    ⟨fun _ _ _ => trivial, Nat.le_refl 3⟩ trivial {}).raises anything
  have hsound : Ensures (localRoots t (serverSubject me) {})
      (fun r => Backed r.2.diags ∧ RootsOf t me r.1) Anything := by
    unfold localRoots
    refine localStorage_sound.bind ?_
    rintro ⟨storage, b₁⟩ - ⟨hsound₁, hkey₁, hcause₁⟩
    have hds := (@localDs_goes t me (serverSubject me) _ b₁ b₁ admits_legal trivial .refl storage
      hcause₁ fun h => ?_).raises anything
    · refine ((localDs_sound hsound₁ hcause₁).and hds).raises (fun _ _ => trivial) |>.bind ?_
      rintro ⟨ds, b₂⟩ - ⟨⟨hsound₂, hkey₂⟩, -, hcause₂⟩
      refine (localKdc_sound hsound₂ hcause₂).bind ?_
      rintro ⟨kdc, b₃⟩ - ⟨hsound₃, hkey₃, hrelated⟩
      have hkeytab := (@localKeytab_goes t me (serverSubject me) Silent b₃ b₃ admits_silent
        .refl).raises anything
      refine (localKeytab_key.and hkeytab).raises (fun _ _ => trivial) |>.bind ?_
      rintro ⟨keytab, b₄⟩ - ⟨hkey₄, hgo₄, -⟩
      refine Ensures.pure ⟨?_, hkey₂, hkey₃, hkey₄, hrelated⟩
      have hgo₅ := localStorageLow_goes admits_silent hgo₄
      refine hgo₅.backed (fun d hd => ?_) hsound₃.wired hsound₃.backed
      by_contra hne
      exact hd.2.2 (Option.isSome_iff_ne_none.mpr hne)
    · by_contra hbad
      rw [storageKey, if_neg hbad] at hkey₁
      have hnone : storage = none := Option.map_eq_none_iff.mp hkey₁
      rw [hnone] at h
      cases h
  refine (hsound.and hgoes).raises (fun _ _ => trivial) |>.mono ?_
  rintro ⟨roots, b⟩ - ⟨⟨hbacked, hkeys⟩, hgo, hroots⟩
  refine ⟨⟨?_, ?_, ?_, ?_⟩, hroots, hkeys⟩
  · exact hgo.keyed List.nodup_nil
  · exact hgo.wired sound_empty.wired
  · intro code s htier
    rw [hgo.relatedOf fun d hd hkey => ?_]
    · rfl
    · have hlow : tier d.code < 3 := hd.2.1
      rw [(keyOf_inj.mp hkey).1, htier] at hlow
      exact Nat.lt_irrefl 3 hlow
  · exact iff_of_true hbacked firstDecides_nil

end Local

end IpaDiagnose.Replication
