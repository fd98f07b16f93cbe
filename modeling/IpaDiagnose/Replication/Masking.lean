import IpaDiagnose.Replication.Collected

/-!
# The recorded class and the stories told of it

A status that needs an administrator is reported as such, and a bind is
called refused only where the recorded class says so; unless a fresh bind
of this server is refused while the clocks are apart, which is told first
whatever was recorded.
-/

namespace IpaDiagnose.Replication

open Result
open Relation (ReflTransGen)
open Py (Value Dict)
open Planner (Outcome Record Trace)

/-! ## Numbers that cannot be shown -/

/-- An integer that is too large to be shown as seconds. -/
def TooLarge (v : Value) : Prop := ∃ n : Int, v = .int n ∧ Py.FLOAT_OVERFLOW ≤ n.natAbs

theorem fixed0_ok {v : Value} (hnumber : v.isNumber = true) :
    (∃ s, (v.fixed0 : Except E String) = .ok s) ↔ ¬TooLarge v := by
  cases v with
  | int n =>
      by_cases h : Py.FLOAT_OVERFLOW ≤ n.natAbs
      · simp [Value.fixed0, TooLarge, h]
      · simp [Value.fixed0, TooLarge, h]
  | bool b => simp [Value.fixed0, TooLarge]
  | float x => simp [Value.fixed0, TooLarge]
  | null => cases hnumber
  | str s => cases hnumber
  | list xs => cases hnumber
  | dict kvs => cases hnumber

theorem tooLarge_number {v : Value} (h : TooLarge v) : v.isNumber = true := by
  obtain ⟨n, rfl, -⟩ := h
  rfl

/-- This host's own time service answered. -/
def clockAnswered (t : Trace) : Bool :=
  (outcomeOf t "time.local").any fun o => o ≠ .skipped ∧ o ≠ .unknown

/-- What it says is too large to be shown. -/
def LocalClockTooLarge (t : Trace) : Prop :=
  clockAnswered t = true ∧ TooLarge (factOf t "time.local" "offset")

theorem localClockShown_ok {t : Trace} : localClockShown t = .ok () ↔ ¬LocalClockTooLarge t := by
  have hanswered : (outcomeOf t "time.local").all (fun o => o = .skipped ∨ o = .unknown)
      = !clockAnswered t := by
    unfold clockAnswered
    cases outcomeOf t "time.local" with
    | none => rfl
    | some o => cases o <;> rfl
  unfold localClockShown LocalClockTooLarge
  rw [hanswered]
  cases clockAnswered t with
  | false => simp
  | true =>
      by_cases hnumber : (factOf t "time.local" "offset").isNumber = true
      · rw [if_neg (by simp), if_pos hnumber, bind_ok]
        rw [eq_self_iff_true, true_and, ← fixed0_ok hnumber]
        exact ⟨fun ⟨s, h, _⟩ => ⟨s, h⟩, fun ⟨s, h⟩ => ⟨s, h, rfl⟩⟩
      · rw [if_neg (by simp), if_neg hnumber]
        simpa using fun h => hnumber (tooLarge_number h)

theorem peer_offset_number {t : Trace} {subj : String} {off : Value} {measured : Record}
    (h : peer_offset t subj = some (off, measured)) : off.isNumber = true := by
  obtain ⟨base, -, hbase⟩ := List.exists_of_findSome?_eq_some h
  obtain ⟨r, -, hr⟩ := Option.bind_eq_some_iff.mp hbase
  split at hr
  · rename_i hoff
    injection hr with hr
    injection hr with hr _
    rw [← hr]
    exact hoff.2
  · cases hr

theorem measuredSkew_offset {t : Trace} {a : Agreement} {m : Value × Record}
    (h : measuredSkew t a = some m) :
    peer_offset t a.subj = some m ∧ m.1.beyond KRB_TOLERANCE = true := by
  rw [measuredSkew, Option.filter_eq_some_iff] at h
  exact h

/-! ## What the code says of a class -/

section Told

variable (t : Trace) (me realm : Value) (ago : String → Option ℚ) (b : Builder) (a : Agreement)
  (roots : Roots)

/-- The recorded class needs an administrator. -/
def needsAdmin (cls : Recorded) : Prop := ∃ c ∈ NEEDS_ADMIN, cls = .known c

/-- The chains a step added. -/
def newChains (b b' : Builder) : List Chain := b'.chains.drop b.chains.length

/-- The recorded class is told: an administrator is asked for where it
needs one, and a bind is called refused only where it says so. -/
structure ClassTold : Prop where
  admin : needsAdmin a.cls → ∃ b', agreement t me realm ago b a roots = .ok b'
    ∧ ∃ d ∈ b'.diags, d.code = .replicaNeedsAdminAction ∧ d.subject = a.relKey me
  refused : ∀ b', agreement t me realm ago b a roots = .ok b' → ∀ c ∈ newChains b b',
    ∀ link ∈ c.links, link.refusedBind → unspecific a.cls

/-- A run of the diagnosis has come to an agreement with these diagnoses. -/
def Reaches : Prop :=
  ∃ b₀ before rs, localRoots t (serverSubject me) {} = .ok (roots, b₀)
    ∧ agreements t ago me realm roots before [] b₀ = .ok (rs, b)

/-- Nothing that must be shown with the clock difference is too large. -/
def SkewShown : Prop :=
  ∀ m, peer_offset t a.subj = some m →
    ¬TooLarge m.1 ∧ (b.get .pairClockSkew (a.pair me) = none → ¬LocalClockTooLarge t)

/-- The class of a failed kinit cannot be looked up. -/
def KinitUnreadable : Prop :=
  ∃ gs, t.getFor "gssapi" a.subj = some gs ∧ gs.outcome ∉ [.skipped, .unknown, .pass]
    ∧ getField gs.facts "kinit_ok" = .bool false
    ∧ (getField gs.facts "kinit_class").hashable = false

/-- Nothing comes between a class that needs an administrator and its
report. -/
structure AdminTold : Prop where
  bind : ¬a.Skewed49 t
  kinit : usesGssapi a = true → ¬KinitUnreadable t a
  clocks : ∀ m, measuredSkew t a = some m → b.get .pairClockSkew (a.pair me) = none →
    ¬TooLarge m.1 ∧ ¬LocalClockTooLarge t

/-- The recorded class decides what is told. -/
structure ClassDecides : Prop where
  admin : needsAdmin a.cls → AdminTold t me b a
  refused : a.Judged → a.Skewed49 t → SkewShown t me b a → unspecific a.cls

end Told

/-! ## The clock difference -/

section Skew

variable {t : Trace} {me realm : Value} {b : Builder} {a : Agreement} {m : Value × Record}

theorem get_modify {key : String} {f : ReplDiagnosis → ReplDiagnosis}
    (hf : ∀ d : ReplDiagnosis, d.Evolves (f d)) {code : Code} {subject : String} :
    (b.modify key f).get code subject = none ↔ b.get code subject = none := by
  rw [Builder.get, Builder.get, Builder.find?_none, Builder.find?_none]
  constructor
  · intro h d hd hkey
    obtain ⟨d', hd', hev⟩ := (Builder.modify_evolves hf).1 d hd
    exact h d' hd' (by rw [hev.key, hkey])
  · intro h d' hd' hkey
    obtain ⟨d, hd, hev, -⟩ := (Builder.modify_evolves hf).2 d' hd'
    exact h d hd (by rw [← hev.key, hkey])

theorem get_add_self (b : Builder) (d : ReplDiagnosis) :
    (b.add d).2.get d.code d.subject ≠ none := by
  intro hnone
  obtain ⟨hmem, hkey⟩ := b.add_spec d
  exact Builder.find?_none.mp hnone _ hmem hkey

theorem get_add_other {d : ReplDiagnosis} {code : Code} {subject : String} (hcode : d.code ≠ code) :
    (b.add d).2.get code subject = none ↔ b.get code subject = none := by
  rw [Builder.get, Builder.get, Builder.find?_none, Builder.find?_none]
  constructor
  · intro h x hx hkey
    obtain ⟨x', hx', hev⟩ := (Builder.add_evolves d).1 x hx
    exact h x' hx' (by rw [hev.key, hkey])
  · intro h x' hx' hkey
    rcases (Builder.add_evolves d).2 x' hx' with ⟨x, hx, hev, -⟩ | ⟨rfl, -⟩
    · exact h x hx (by rw [← hev.key, hkey])
    · exact hcode (keyOf_inj.mp hkey).1

/-- The clock difference is told, if everything it takes can be shown. -/
theorem pair_skew_told {R : E → Prop} (hm : peer_offset t a.subj = some m)
    (hshown : (∀ e, R e) ∨ ¬TooLarge m.1
      ∧ (b.get .pairClockSkew (a.pair me) = none → ¬LocalClockTooLarge t)) (viaChain : Bool) :
    Ensures (pair_skew t me b a m.1 viaChain)
      (fun r => r.2.get .pairClockSkew (a.pair me) ≠ none
        ∧ (viaChain = true → r.2.chains = b.chains)) R := by
  unfold pair_skew
  split
  · rename_i existing hget
    exact ⟨by rw [hget]; nofun, fun _ => rfl⟩
  · rename_i hget
    rw [hm]
    have hlocal : Ensures (localClockShown t) (fun _ => True) R := by
      rcases hshown with hR | ⟨-, hlocal⟩
      · exact Ensures.trivial fun e _ => hR e
      · rw [localClockShown_ok.mpr (hlocal hget)]
        trivial
    have hoff : Ensures (m.1.fixed0 : Except E String) (fun _ => True) R := by
      rcases hshown with hR | ⟨hoff, -⟩
      · exact Ensures.trivial fun e _ => hR e
      · obtain ⟨s, hs⟩ := (fixed0_ok (peer_offset_number hm)).mpr hoff
        rw [hs]
        trivial
    refine hlocal.bind fun _ _ _ => ?_
    dsimp only
    refine hoff.bind fun _ _ _ => ?_
    split
    · exact Ensures.pure ⟨get_add_self b _, fun _ => Builder.add_chains b _⟩
    · rename_i hvia
      refine (chain_legal (skewLink_proper a m.2).legal _ _ _).bind fun ⟨c, b₂⟩ _ _ => ?_
      exact Ensures.pure ⟨get_add_self b₂ _, fun h => absurd h hvia⟩

/-- It raises if it is new and cannot be shown. -/
theorem pair_skew_raises (hm : peer_offset t a.subj = some m)
    (hget : b.get .pairClockSkew (a.pair me) = none)
    (hlarge : TooLarge m.1 ∨ LocalClockTooLarge t) (viaChain : Bool)
    (r : ReplDiagnosis × Builder) : pair_skew t me b a m.1 viaChain ≠ .ok r := by
  unfold pair_skew
  rw [hget]
  dsimp only
  rw [hm]
  intro h
  obtain ⟨u, hlocal, h⟩ := bind_ok.mp h
  obtain ⟨s, hoff, -⟩ := bind_ok.mp h
  rcases hlarge with hlarge | hlarge
  · exact (fixed0_ok (peer_offset_number hm)).mp ⟨s, hoff⟩ hlarge
  · exact localClockShown_ok.mp hlocal hlarge

end Skew

/-! ## A bind that is refused now -/

section Skewed

variable {t : Trace} {me realm : Value} {ago : String → Option ℚ} {b : Builder} {a : Agreement}
  {roots : Roots}

/-- What the clocks being apart rests on. -/
theorem kerberos_skew49 {cls : Recorded} {gs : Option Record} {off : Option Value}
    {source : KerberosSource} (h : kerberos_class cls gs off = .ok (.skew49, source)) :
    source = .bind ∧ gs.isSome = true ∧ ∃ v, off = some v ∧ v.beyond KRB_TOLERANCE = true := by
  unfold kerberos_class at h
  split at h
  · injection h with h
    injection h with h _
    cases h
  · split at h
    · injection h with h
      injection h with h _
      cases h
    · rename_i gs
      split at h
      · injection h with h
        injection h with h _
        cases h
      · split at h
        · injection h with h
          injection h with h _
          cases h
        · split at h
          · obtain ⟨c, -, h⟩ := bind_ok.mp h
            injection pure_ok.mp h with h _
            cases h
          · injection h with h
            injection h with hclass hsource
            refine ⟨hsource.symm, rfl, ?_⟩
            unfold bindClass at hclass
            split at hclass
            · cases hclass
            · split at hclass
              · split at hclass
                · rename_i hany
                  exact Option.any_eq_true _ _ |>.mp hany
                · cases hclass
              · cases hclass

theorem failingCause_skewed (hskew : a.Skewed49 t) (hcls : a.cls ≠ .known .transport) :
    failingCause t me realm b a roots = skew49Cause t me b a (t.getFor "gssapi" a.subj) := by
  obtain ⟨hgssapi, source, hkc⟩ := hskew
  obtain ⟨rfl, -, -⟩ := kerberos_skew49 hkc
  unfold failingCause
  dsimp only
  rw [if_neg hcls, if_pos hgssapi]
  unfold Agreement.kerberos at hkc
  rw [hkc]
  change gssapiCause t me realm b a a.cls (isCredentials a.cls) (.skew49, .bind) _ roots = _
  unfold gssapiCause
  rw [if_neg (by rintro ⟨-, h⟩; cases h)]
  simp [chainClass?]

/-- It is not told when something cannot be shown. -/
theorem skewShown_of_told {r : Cause} (h : skew49Cause t me b a (t.getFor "gssapi" a.subj) = .ok r) :
    SkewShown t me b a := by
  intro m hm
  unfold skew49Cause at h
  rw [hm] at h
  cases hgs : t.getFor "gssapi" a.subj with
  | none =>
      rw [hgs] at h
      cases h
  | some gs =>
      rw [hgs] at h
      obtain ⟨r₂, hpair, h⟩ := bind_ok.mp h
      obtain ⟨s, hoff, -⟩ := bind_ok.mp h
      refine ⟨(fixed0_ok (peer_offset_number hm)).mp ⟨s, hoff⟩, fun hget hlocal => ?_⟩
      exact pair_skew_raises hm hget (.inr hlocal) true r₂ hpair

/-- An agreement that is judged is one that fails. -/
theorem agreement_judged (henabled : isFalse (getField a.item "enabled") = false)
    (hjudged : a.Judged) :
    agreement t me realm ago b a roots = failing t me realm b a roots := by
  unfold agreement
  rw [if_neg (by rw [henabled]; nofun), if_neg hjudged.failing,
    if_neg (by rw [hjudged.lasting]; nofun)]

theorem skewShown_of_ok {b' : Builder} (henabled : isFalse (getField a.item "enabled") = false)
    (hjudged : a.Judged) (hskew : a.Skewed49 t)
    (hok : agreement t me realm ago b a roots = .ok b') : SkewShown t me b a := by
  rw [agreement_judged henabled hjudged] at hok
  unfold failing at hok
  obtain ⟨-, -, hok⟩ := bind_ok.mp hok
  obtain ⟨r, hr, -⟩ := bind_ok.mp hok
  rw [failingCause_skewed hskew hjudged.beyond] at hr
  exact skewShown_of_told hr

/-- A refused bind is among the chains that were added. -/
def RefusedNow (b b' : Builder) : Prop :=
  ∃ cs, b'.chains = b.chains ++ cs ∧ ∃ c ∈ cs, ∃ link ∈ c.links, link.refusedBind

theorem skew49Cause_told {R : E → Prop} (hskew : a.Skewed49 t)
    (hshown : (∀ e, R e) ∨ SkewShown t me b a) :
    Ensures (skew49Cause t me b a (t.getFor "gssapi" a.subj))
      (fun r => ∃ root c b', r = .found (some root) (some c) b' ∧ RefusedNow b b'
        ∧ b'.get .pairClockSkew (a.pair me) ≠ none) R := by
  obtain ⟨-, source, hkc⟩ := hskew
  obtain ⟨-, hgs, v, hv, -⟩ := kerberos_skew49 hkc
  obtain ⟨gs, hgs⟩ := Option.isSome_iff_exists.mp hgs
  obtain ⟨m, hm, -⟩ := Option.map_eq_some_iff.mp hv
  have hshown' := hshown.imp_right fun h => h m hm
  unfold skew49Cause
  rw [hgs, hm]
  dsimp only
  refine (pair_skew_told hm hshown' true).bind fun ⟨root, b₂⟩ _ ⟨hget, hchains⟩ => ?_
  have hoff : Ensures (m.1.fixed0 : Except E String) (fun _ => True) R := by
    rcases hshown' with hR | ⟨hoff, -⟩
    · exact Ensures.trivial fun e _ => hR e
    · obtain ⟨s, hs⟩ := (fixed0_ok (peer_offset_number hm)).mpr hoff
      rw [hs]
      trivial
  refine hoff.bind fun _ _ _ => ?_
  have htime : Legal (some .kerberos) [⟨a.pair me, .time, [gs.stepId, m.2.stepId],
      "kerberos-49-with-measured-skew", .pair⟩] :=
    ⟨follows_of_fits rfl (List.cons_ne_nil _ _), trivial⟩
  refine (chain_legal (refused_legal me a gs (a.relKey me) htime) _ _ _).bind ?_
  rintro ⟨c, b₃⟩ - ⟨hch, -⟩
  refine Ensures.pure ⟨root, c, _, rfl, ⟨[c], ?_, c, List.mem_singleton_self c, ?_⟩, ?_⟩
  · rw [Builder.rest, Builder.modify_chains, hch.builder]
    exact congrArg (· ++ [c]) (hchains rfl)
  · rw [hch.links]
    exact ⟨_, List.mem_cons_of_mem _ List.mem_cons_self, List.mem_cons_self⟩
  · intro hnone
    have hb₃ : b₃ = { b₂ with chains := b₂.chains ++ [c] } := hch.builder
    have h := (get_modify (touches_rest c).evolves).mp hnone
    dsimp only at h
    rw [hb₃] at h
    exact hget h

theorem reportFailing_chains (b : Builder) (root : Option ReplDiagnosis) (c : Chain) :
    (reportFailing me b a root c).chains = b.chains := by
  unfold reportFailing
  cases root with
  | none => exact Builder.add_chains b _
  | some root => exact Builder.add_chains b _

/-- An agreement that is looked into, with its clock story told, ends with it. -/
theorem agreement_skewed {R : E → Prop} (henabled : isFalse (getField a.item "enabled") = false)
    (hjudged : a.Judged) (hskew : a.Skewed49 t) (hshown : (∀ e, R e) ∨ SkewShown t me b a) :
    Ensures (agreement t me realm ago b a roots) (RefusedNow b) R := by
  rw [agreement_judged henabled hjudged, failing]
  rw [hjudged.looked, failingCause_skewed hskew hjudged.beyond]
  refine (skew49Cause_told hskew hshown).bind ?_
  rintro _ - ⟨root, c, b₂, rfl, hstory, hget⟩
  have hnote : noteSkew t me b₂ a = .ok b₂ := by
    unfold noteSkew
    split
    · rename_i hnone
      exact absurd hnone hget
    · rfl
  dsimp only
  rw [hnote]
  refine Ensures.pure (Q := RefusedNow b) ?_
  obtain ⟨cs, hcs, hrefused⟩ := hstory
  exact ⟨cs, by rw [reportFailing_chains, hcs], hrefused⟩

end Skewed

/-! ## A class that needs an administrator -/

section Admin

variable {t : Trace} {me realm : Value} {ago : String → Option ℚ} {b b' : Builder} {a : Agreement}
  {roots : Roots}

/-- A class that needs an administrator is a failure that is looked into,
and no Kerberos one. -/
theorem needsAdmin_judged (h : needsAdmin a.cls) :
    a.Judged ∧ ¬unspecific a.cls ∧ isCredentials a.cls = false ∧ specific? a.cls = none := by
  obtain ⟨c, hc, hcls⟩ := h
  have hfin : ∀ c ∈ NEEDS_ADMIN, c ≠ .ok ∧ c ∉ TRANSIENT ∧ c ≠ .transport
      ∧ c ≠ .invalidCredentials ∧ c ≠ .gssapiOther ∧ credentialsClass c = false
      ∧ c ∉ SPECIFIC := by decide
  obtain ⟨hok, htransient, htransport, hinvalid, hother, hcred, hspecific⟩ := hfin c hc
  rw [hcls]
  refine ⟨⟨?_, ?_, ?_, ?_⟩, ?_, hcred, ?_⟩
  · rw [hcls]
    exact fun h => hok (by injection h)
  · rw [hcls, isTransient]
    exact decide_eq_false htransient
  · rw [hcls]
    exact fun h => htransport (by injection h)
  · rw [hcls]
    rfl
  · rintro (h | h)
    · exact hinvalid (by injection h)
    · exact hother (by injection h)
  · rw [specific?, if_neg hspecific]

theorem kinitClass_ok_iff {v : Value} : (∃ c, kinitClass v = .ok c) ↔ v.hashable = true := by
  unfold kinitClass
  cases v <;> simp [Py.lookupKey, Value.hashable]

/-- The Kerberos class is read, unless the class of a failed kinit is none. -/
theorem kerberos_class_ok_iff {cls : Recorded} (hspecific : specific? cls = none) (gs : Record)
    (off : Option Value) : (∃ kc, kerberos_class cls (some gs) off = .ok kc) ↔
      ¬(gs.outcome ∉ [.skipped, .unknown, .pass] ∧ getField gs.facts "kinit_ok" = .bool false
        ∧ (getField gs.facts "kinit_class").hashable = false) := by
  unfold kerberos_class
  rw [hspecific]
  dsimp only
  by_cases hskip : gs.outcome = .skipped ∨ gs.outcome = .unknown
  · rw [if_pos hskip]
    refine ⟨fun _ => ?_, fun _ => ⟨_, rfl⟩⟩
    rintro ⟨hout, -⟩
    rcases hskip with h | h <;> simp [h] at hout
  · rw [if_neg hskip]
    by_cases hpass : gs.outcome = .pass
    · rw [if_pos hpass]
      refine ⟨fun _ => ?_, fun _ => ⟨_, rfl⟩⟩
      rintro ⟨hout, -⟩
      simp [hpass] at hout
    · rw [if_neg hpass]
      by_cases hkinit : getField gs.facts "kinit_ok" = .bool false
      · rw [if_pos hkinit]
        have hout : gs.outcome ∉ [.skipped, .unknown, .pass] := by
          simp [not_or.mp hskip, hpass]
        constructor
        · rintro ⟨kc, hkc⟩ ⟨-, -, hhash⟩
          obtain ⟨c, hc, -⟩ := bind_ok.mp hkc
          rw [kinitClass_ok_iff.mp ⟨c, hc⟩] at hhash
          cases hhash
        · intro h
          have hhash : (getField gs.facts "kinit_class").hashable = true := by
            by_contra hne
            exact h ⟨hout, hkinit, by simpa using hne⟩
          obtain ⟨c, hc⟩ := kinitClass_ok_iff.mpr hhash
          exact ⟨_, bind_ok.mpr ⟨c, hc, rfl⟩⟩
      · rw [if_neg hkinit]
        exact ⟨fun _ h => hkinit h.2.1, fun _ => ⟨_, rfl⟩⟩

theorem kerberos_ok_iff (hspecific : specific? a.cls = none) :
    (∃ kc, a.kerberos t = .ok kc) ↔ ¬KinitUnreadable t a := by
  unfold Agreement.kerberos KinitUnreadable
  cases hgs : t.getFor "gssapi" a.subj with
  | none =>
      refine ⟨fun _ => by simp, fun _ => ⟨(.noReproduction, .nothing), ?_⟩⟩
      unfold kerberos_class
      rw [hspecific]
  | some gs =>
      rw [kerberos_class_ok_iff hspecific]
      simp

/-- Such a class is asked about only once the Kerberos cases are through. -/
theorem failingCause_admin {c : StatusClass} (hc : c ∈ NEEDS_ADMIN) (hcls : a.cls = .known c)
    (hbind : ¬a.Skewed49 t) (hkinit : usesGssapi a = true → ¬KinitUnreadable t a) :
    failingCause t me realm b a roots = needsAdminCause me b a c := by
  obtain ⟨hjudged, hspecific, hcred, hnone⟩ := needsAdmin_judged ⟨c, hc, hcls⟩
  have hstatus : statusCause t me b a a.cls = needsAdminCause me b a c := by
    rw [hcls]
    revert hc
    cases c <;> first | exact fun h => absurd h (by decide) | exact fun _ => rfl
  unfold failingCause
  dsimp only
  rw [if_neg hjudged.beyond]
  by_cases hgssapi : usesGssapi a = true
  · rw [if_pos hgssapi]
    obtain ⟨kc, hkc⟩ := (kerberos_ok_iff hnone).mpr (hkinit hgssapi)
    have hskew : kc.1 ≠ .skew49 := fun h => hbind ⟨hgssapi, kc.2, by rw [← h]; exact hkc⟩
    have hinvalid : a.cls ≠ .known .invalidCredentials := fun h => hspecific (.inl h)
    unfold Agreement.kerberos at hkc
    rw [hkc]
    change gssapiCause t me realm b a a.cls (isCredentials a.cls) kc _ roots = _
    unfold gssapiCause
    rw [hcred, if_neg fun h => hinvalid h.1]
    simp only [Bool.false_eq_true, false_and, if_false]
    rw [if_neg hskew, if_neg fun h => hinvalid h.1, hstatus]
    cases chainClass? kc.1 <;> rfl
  · rw [if_neg hgssapi, hstatus]

/-- An administrator is asked to act on an agreement. -/
def AdminAsked (me : Value) (a : Agreement) (b : Builder) : Prop :=
  ∃ d ∈ b.diags, d.code = .replicaNeedsAdminAction ∧ d.subject = a.relKey me

theorem AdminAsked.mono {C : Limits} {here : String} (h : AdminAsked me a b)
    (hgo : Goes t me here C b b') : AdminAsked me a b' := by
  obtain ⟨d, hd, hcode, hsubject⟩ := h
  obtain ⟨d', hd', hev⟩ := hgo.evolves d hd
  exact ⟨d', hd', by rw [hev.code, hcode], by rw [hev.subject, hsubject]⟩

theorem needsAdminCause_asks {R : E → Prop} (c : StatusClass) :
    Ensures (needsAdminCause me b a c) (fun r => ∃ root c b₂, r = .found (some root) (some c) b₂
      ∧ IsCause b₂ 3 (some root) ∧ AdminAsked me a b₂
      ∧ (b₂.get .pairClockSkew (a.pair me) = none ↔ b.get .pairClockSkew (a.pair me) = none)) R := by
  unfold needsAdminCause
  have hp : Legal none [statusLink me a,
      ⟨a.relKey me, .replicaData, ["agreements"], "status-data", .pair⟩] :=
    ⟨follows_of_fits rfl (List.cons_ne_nil _ _), follows_of_fits rfl (List.cons_ne_nil _ _), trivial⟩
  refine (chain_legal hp _ _ _).bind ?_
  rintro ⟨ch, b₂⟩ - ⟨hch, -⟩
  refine Ensures.pure ⟨_, _, _, rfl, ?_, ?_, ?_⟩
  · intro r hr
    injection hr with hr
    subst hr
    exact add_hasCause b₂ _ rfl (Nat.succ_pos 2)
  · obtain ⟨hmem, hkey⟩ := b₂.add_spec (adminDiagnosis me a c)
    exact ⟨_, hmem, keyOf_inj.mp hkey⟩
  · have hcode : (adminDiagnosis me a c).code ≠ .pairClockSkew := fun h => nomatch h
    refine (get_add_other hcode).trans ?_
    have hb₂ : b₂ = { b with chains := b.chains ++ [ch] } := hch.builder
    rw [hb₂]
    exact Iff.rfl

/-- The clock difference is noted, when it can be. -/
theorem noteSkew_ok_iff {b : Builder} : (∃ b', noteSkew t me b a = .ok b') ↔
    ∀ m, measuredSkew t a = some m → b.get .pairClockSkew (a.pair me) = none →
      ¬TooLarge m.1 ∧ ¬LocalClockTooLarge t := by
  unfold noteSkew
  cases hm : measuredSkew t a with
  | none => simp
  | some m =>
      cases hget : b.get .pairClockSkew (a.pair me) with
      | some d => simp
      | none =>
          obtain ⟨hoff, -⟩ := measuredSkew_offset hm
          constructor
          · rintro ⟨b', h⟩ m' hm' -
            injection hm' with hm'
            subst hm'
            obtain ⟨r, hr, -⟩ := bind_ok.mp h
            constructor
            · exact fun hlarge => pair_skew_raises hoff hget (.inl hlarge) false r hr
            · exact fun hlarge => pair_skew_raises hoff hget (.inr hlarge) false r hr
          · intro h
            obtain ⟨hlarge, hlocal⟩ := h m rfl rfl
            have htold := @pair_skew_told t me b a m (fun _ => False) hoff
              (.inr ⟨hlarge, fun _ => hlocal⟩) false
            cases hr : pair_skew t me b a m.1 false with
            | error e => exact absurd hr fun hr => htold.of_error hr
            | ok r => exact ⟨r.2, bind_ok.mpr ⟨r, hr, rfl⟩⟩

/-- What comes before the report can be done. -/
theorem adminTold_of_ok (hadmin : needsAdmin a.cls) (hbind : ¬a.Skewed49 t)
    (h : failing t me realm b a roots = .ok b') : AdminTold t me b a := by
  obtain ⟨hjudged, hspecific, hcred, hnone⟩ := needsAdmin_judged hadmin
  obtain ⟨c, hc, hcls⟩ := hadmin
  unfold failing at h
  obtain ⟨-, -, h⟩ := bind_ok.mp h
  obtain ⟨r, hr, h⟩ := bind_ok.mp h
  have hkinit : usesGssapi a = true → ¬KinitUnreadable t a := by
    intro hgssapi
    rw [← kerberos_ok_iff hnone]
    unfold failingCause at hr
    dsimp only at hr
    rw [if_neg hjudged.beyond, if_pos hgssapi] at hr
    obtain ⟨kc, hkc, -⟩ := bind_ok.mp hr
    exact ⟨kc, hkc⟩
  refine ⟨hbind, hkinit, ?_⟩
  rw [failingCause_admin hc hcls hbind hkinit] at hr
  obtain ⟨root, ch, b₂, rfl, -, -, hget⟩ :=
    (needsAdminCause_asks (R := fun _ => True) c).of_ok hr
  obtain ⟨b₃, hnote, -⟩ := bind_ok.mp h
  intro m hm hnew
  exact noteSkew_ok_iff.mp ⟨b₃, hnote⟩ m hm (hget.mpr hnew)

/-- And then the report is made. -/
theorem failing_asks (hadmin : needsAdmin a.cls) (htold : AdminTold t me b a) :
    ∃ b', failing t me realm b a roots = .ok b' ∧ AdminAsked me a b' := by
  obtain ⟨hjudged, -, -, -⟩ := needsAdmin_judged hadmin
  obtain ⟨c, hc, hcls⟩ := hadmin
  have hasks := @needsAdminCause_asks me b a (fun _ => False) c
  unfold failing
  rw [hjudged.looked, failingCause_admin hc hcls htold.bind htold.kinit]
  cases hr : needsAdminCause me b a c with
  | error e => exact absurd hr fun hr => hasks.of_error hr
  | ok r =>
      obtain ⟨root, ch, b₂, rfl, hroot, hasked, hget⟩ := hasks.of_ok hr
      obtain ⟨b₃, hnote⟩ := (@noteSkew_ok_iff t me a b₂).mpr
        fun m hm hnew => htold.clocks m hm (hget.mp hnew)
      have hself : Collects t me b₂ b₂ := .refl
      have hgo₃ := (noteSkew_goes admits_legal hself).of_ok hnote
      have hself₃ : Collects t me b₃ b₃ := .refl
      have hreport := @reportFailing_goes t me _ _ _ _ a admits_symptoms hself₃ _ (hroot.mono hgo₃) ch
      refine ⟨reportFailing me b₃ a (some root) ch, ?_, (hasked.mono hgo₃).mono hreport.1⟩
      change (do
        let b ← noteSkew t me b₂ a
        pure (reportFailing me b a (some root) ch) : Except E Builder) = _
      exact bind_ok.mpr ⟨b₃, hnote, rfl⟩

end Admin

/-! ## The recorded class decides -/

section Decides

variable {t : Trace} {me realm : Value} {ago : String → Option ℚ} {b b' : Builder} {a : Agreement}
  {roots : Roots}

theorem Reaches.rooting (h : Reaches t me realm ago b roots) : Rooting b roots := by
  obtain ⟨b₀, before, rs, hlocal, hagreements⟩ := h
  obtain ⟨-, hroots⟩ := (@localRoots_goes t me _ _ admits_legal trivial {}).of_ok hlocal
  have hread : ReversesRead t b₀ [] := fun e he => nomatch he
  obtain ⟨hlooked, -⟩ := (agreements_goes before [] b₀ hroots hread).of_ok hagreements
  exact hroots.mono hlooked.goes

theorem newChains_of_goes {here : String} {C : Limits} (hgo : Goes t me here C b b') :
    ∀ c ∈ newChains b b', C.chain c := by
  obtain ⟨cs, hcs, hC⟩ := hgo.chains
  intro c hc
  rw [newChains, hcs, List.drop_left] at hc
  exact hC c hc

/-- Other than by a refusal that was just seen, or where the class says
so, no bind is called refused. -/
theorem agreement_quiet (hroots : Rooting b roots) (hspecific : ¬unspecific a.cls)
    (hbind : ¬(a.Judged ∧ a.Skewed49 t)) (hok : agreement t me realm ago b a roots = .ok b') :
    ∀ c ∈ newChains b b', Quiet c.links := by
  have hadmits : Admits ⟨fun c => Quiet c.links, 4, True⟩ := ⟨fun _ _ hquiet => hquiet, Nat.le_succ 3⟩
  have hself : Goes t me (serverSubject me) ⟨fun c => Quiet c.links, 4, True⟩ b b := .refl
  have hnever : unspecific a.cls ∨ a.Judged ∧ a.Skewed49 t → ∀ c : Chain, c.Legal → Quiet c.links := by
    rintro (h | h)
    · exact absurd h hspecific
    · exact absurd h hbind
  exact newChains_of_goes ((agreement_goes hadmits ⟨Nat.lt_succ_self 3, trivial⟩ hself hroots hnever).of_ok hok).1

/-- The refusal that was just seen is told. -/
theorem not_classTold_of_skewed (henabled : isFalse (getField a.item "enabled") = false)
    (hjudged : a.Judged) (hskew : a.Skewed49 t) (hspecific : ¬unspecific a.cls)
    (hok : agreement t me realm ago b a roots = .ok b') :
    ¬ClassTold t me realm ago b a roots := by
  intro htold
  have hstory := (agreement_skewed (R := fun _ => True) henabled hjudged hskew
    (.inl fun _ => trivial)).of_ok hok
  obtain ⟨cs, hcs, c, hc, link, hlink, hrefused⟩ := hstory
  refine hspecific (htold.refused b' hok c ?_ link hlink hrefused)
  rw [newChains, hcs, List.drop_left]
  exact hc

/-- **When the recorded class decides.** In every run of the diagnosis
that comes to an enabled agreement: its class is told - an administrator
is asked for where it needs one, and a bind is called refused only where
it says so - exactly if no fresh bind of this server is refused while the
clocks are apart, and nothing that must be shown or looked up on the way
is ill-formed. -/
theorem classTold_iff (hreach : Reaches t me realm ago b roots)
    (henabled : isFalse (getField a.item "enabled") = false) :
    ClassTold t me realm ago b a roots ↔ ClassDecides t me b a := by
  constructor
  · intro htold
    refine ⟨fun hadmin => ?_, fun hjudged hskew hshown => ?_⟩
    · obtain ⟨hjudged, hspecific, -⟩ := needsAdmin_judged hadmin
      obtain ⟨b', hok, -⟩ := htold.admin hadmin
      have hbind : ¬a.Skewed49 t := fun hskew =>
        not_classTold_of_skewed henabled hjudged hskew hspecific hok htold
      rw [agreement_judged henabled hjudged] at hok
      exact adminTold_of_ok hadmin hbind hok
    · by_contra hspecific
      have hreturns := @agreement_skewed t me realm ago b a roots (fun _ => False) henabled hjudged
        hskew (.inr hshown)
      cases hok : agreement t me realm ago b a roots with
      | error e => exact hreturns.of_error hok
      | ok b' => exact not_classTold_of_skewed henabled hjudged hskew hspecific hok htold
  · intro hdecides
    refine ⟨fun hadmin => ?_, fun b' hok c hc link hlink hrefused => ?_⟩
    · rw [agreement_judged henabled (needsAdmin_judged hadmin).1]
      exact failing_asks hadmin (hdecides.admin hadmin)
    · by_contra hspecific
      by_cases hskew : a.Judged ∧ a.Skewed49 t
      · obtain ⟨hjudged, hskew⟩ := hskew
        exact hspecific (hdecides.refused hjudged hskew (skewShown_of_ok henabled hjudged hskew hok))
      · exact agreement_quiet hreach.rooting hspecific hskew hok c hc link hlink hrefused

end Decides

/-! ## A purged changelog, and a refused bind -/

namespace Purged

/-- A reproduced bind that failed, and a peer that answers. -/
def record (base : String) (outcome : Outcome) (facts : Dict) : Record :=
  { stepId := base ++ "@domain:peer.example", capability := "replication.local", check := base
    title := base, why := "", outcome := outcome, facts := facts
    subject := some "domain:peer.example", baseStep := some base }

def trace (offset : ℚ) : Trace :=
  { records :=
      [record "peer.rootdse" .pass [("offset", .float (.fin offset))],
        record "gssapi" .fail [("kinit_ok", .bool true), ("error_class", .str "INVALID_CREDENTIALS")]]
    stopReason := "complete", startedAt := "", seconds := 0, bounds := [], checksRun := 2
    checksReused := 0, cancelled := false, enumerations := [] }

def agreement : Agreement :=
  { subj := "domain:peer.example"
    item := [("subject", .str "domain:peer.example"), ("consumer", .str "peer.example"),
      ("suffix_kind", .str "domain"), ("status_class", .str "CHANGELOG_PURGED"),
      ("bind_method", .str "SASL/GSSAPI")]
    consumer := .str "peer.example", suffix := .str "domain" }

def host : Value := .str "ipa1.example"

theorem kerberos_read : agreement.kerberos (trace 400) = .ok (.skew49, .bind)
    ∧ agreement.kerberos (trace 10) = .ok (.peerRejects, .bind) := by
  constructor
  · decide
  · decide

theorem reaches (offset : ℚ) :
    Reaches (trace offset) host (.str "EXAMPLE") (fun _ => none) {} {} :=
  ⟨{}, [], [], rfl, rfl⟩

end Purged

/-- The clocks are 400 seconds apart and a fresh bind is refused: the
purged changelog is reported as a refused bind. -/
theorem purged_changelog_masked :
    ¬∀ (t : Trace) (me realm : Value) (ago : String → Option ℚ) (b : Builder) (a : Agreement)
      (roots : Roots), Reaches t me realm ago b roots →
      isFalse (getField a.item "enabled") = false → ClassTold t me realm ago b a roots := by
  intro h
  have hjudged : Purged.agreement.Judged :=
    ⟨by decide +kernel, by decide +kernel, by decide +kernel, rfl⟩
  have hskew : Purged.agreement.Skewed49 (Purged.trace 400) :=
    ⟨by decide +kernel, .bind, Purged.kerberos_read.1⟩
  have hspecific : ¬unspecific Purged.agreement.cls := by
    unfold unspecific
    decide +kernel
  have hshown : SkewShown (Purged.trace 400) Purged.host {} Purged.agreement := by
    intro m hm
    have hoff : m.1 = .float (.fin 400) := by
      injection hm with hm
      rw [← hm]
      rfl
    have hlarge : ¬TooLarge m.1 := by
      rw [hoff]
      rintro ⟨n, hn, -⟩
      cases hn
    exact ⟨hlarge, fun _ hlocal => nomatch hlocal.1⟩
  have htold := h (Purged.trace 400) Purged.host (.str "EXAMPLE") (fun _ => none) {}
    Purged.agreement {} (Purged.reaches 400) rfl
  have hreturns := @agreement_skewed (Purged.trace 400) Purged.host (.str "EXAMPLE")
    (fun _ => none) {} Purged.agreement {} (fun _ => False) rfl hjudged hskew (.inr hshown)
  cases hok : agreement (Purged.trace 400) Purged.host (.str "EXAMPLE") (fun _ => none) {}
      Purged.agreement {} with
  | error e => exact hreturns.of_error hok
  | ok b' => exact not_classTold_of_skewed rfl hjudged hskew hspecific hok htold

/-- With the clocks 10 seconds apart an administrator is asked for. -/
theorem purged_changelog_told :
    ClassTold (Purged.trace 10) Purged.host (.str "EXAMPLE") (fun _ => none) {}
      Purged.agreement {} := by
  have hskew : ¬Purged.agreement.Skewed49 (Purged.trace 10) := by
    rintro ⟨-, source, hkc⟩
    rw [Purged.kerberos_read.2] at hkc
    injection hkc with hkc
    injection hkc with hkc _
    cases hkc
  refine (classTold_iff (Purged.reaches 10) rfl).mpr ⟨fun _ => ⟨hskew, ?_, ?_⟩, ?_⟩
  · rintro - ⟨gs, hgs, -, hkinit, -⟩
    injection hgs with hgs
    subst hgs
    cases hkinit
  · intro m hm
    have hnone : measuredSkew (Purged.trace 10) Purged.agreement = none := by decide +kernel
    rw [hnone] at hm
    cases hm
  · exact fun _ h => absurd h hskew

end IpaDiagnose.Replication
