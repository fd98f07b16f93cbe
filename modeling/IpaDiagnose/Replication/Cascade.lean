import IpaDiagnose.Replication.Effects

/-!
# The cascade, step by step

What the functions of one agreement do: what explains its failure, what
is reported of it, and what is read of its reverse direction.
-/

namespace IpaDiagnose.Replication

open Result
open Relation (ReflTransGen)
open Py (Value Dict)
open Planner (Outcome Record Trace)

/-- A run may add symptoms, related to what explains them. -/
structure Symptoms (C : Limits) : Prop where
  below : 3 < C.tier
  relates : C.relates

/-! ## A failing agreement -/

section Failing

variable {t : Trace} {me realm : Value} {here : String} {C : Limits} {b b₁ : Builder}
  {a : Agreement} {roots : Roots}

/-- A failure, or a passing trouble, is among the diagnoses. -/
def Builder.Alarm (b : Builder) : Prop :=
  ∃ d ∈ b.diags, severityOf d.code = .fail ∨ kindsOf d.code = [some .transient]

theorem Builder.Alarm.mono (h : b.Alarm) (hgo : Goes t me here C b b₁) : b₁.Alarm := by
  obtain ⟨d, hd, hcode⟩ := h
  obtain ⟨d', hd', hev⟩ := hgo.evolves d hd
  refine ⟨d', hd', ?_⟩
  rw [hev.code]
  exact hcode

theorem Builder.Alarm.modify (h : b.Alarm) (key : String) {f : ReplDiagnosis → ReplDiagnosis}
    (hf : ∀ d : ReplDiagnosis, d.Evolves (f d)) : (b.modify key f).Alarm := by
  obtain ⟨d, hd, hcode⟩ := h
  obtain ⟨d', hd', hev⟩ := (Builder.modify_evolves hf).1 d hd
  refine ⟨d', hd', ?_⟩
  rw [hev.code]
  exact hcode

theorem add_alarm (b : Builder) (d : ReplDiagnosis)
    (h : severityOf d.code = .fail ∨ kindsOf d.code = [some .transient]) : (b.add d).2.Alarm := by
  obtain ⟨hmem, hkey⟩ := b.add_spec d
  refine ⟨_, hmem, ?_⟩
  rw [(keyOf_inj.mp hkey).1]
  exact h

def Cause.Good (t : Trace) (me : Value) (here : String) (C : Limits) (b : Builder) : Cause → Prop
  | .found root _ b' => Goes t me here C b b' ∧ IsCause b' 3 root
  | .settled b' => Goes t me here C b b' ∧ b'.Alarm

/-- The status of the failing agreement alone. -/
theorem statusLink_properTo : ProperTo [statusLink me a] (some .replication) :=
  ⟨.link rfl (List.cons_ne_nil _ _) .nil, rfl⟩

theorem notReproduced_good (hC : Admits C) (hgo : Goes t me here C b b₁) (ev : List String) :
    (Cause.settled (b₁.add (notReproduced me a ev)).2).Good t me here C b :=
  ⟨hgo.add (.plain rfl rfl rfl rfl) rfl rfl (hC.low rfl), add_alarm _ _ (.inr rfl)⟩

theorem transportCause_goes (hC : Admits C) (hgo : Goes t me here C b b₁) :
    Ensures (transportCause t me b₁ a) (Cause.Good t me here C b) Tame := by
  unfold transportCause
  have hbase : BaseOf false [statusLink me a] := statusLink_properTo
  refine (peer_path_goes hC hgo hbase).bind fun r _ h => ?_
  cases r with
  | cause root c b₂ => exact Ensures.pure h
  | answers => exact Ensures.pure (notReproduced_good hC hgo _)
  | nothing => exact Ensures.pure ⟨hgo, .none⟩

/-- The chain ends at the status, and nothing is found. -/
theorem Goes.statusOnly (hC : Admits C) (hgo : Goes t me here C b b₁) :
    Ensures (do
      let (c, b) ← b₁.chain (a.relKey me) [statusLink me a] true none
      pure (.found none (some c) b) : Except E Cause) (Cause.Good t me here C b) Tame := by
  refine (hgo.chain hC statusLink_properTo.proper _ _ _).bind fun ⟨c, b₂⟩ _ ⟨hgo₂, _⟩ => ?_
  exact Ensures.pure ⟨hgo₂, .none⟩

theorem ds_key_root_goes (hC : Admits C) (hgo : Goes t me here C b b₁) (gs : Record) (kc : String) :
    Goes t me here C b (ds_key_root me b₁ gs kc) := by
  unfold ds_key_root
  split
  · exact hgo
  · exact hgo.add (.plain rfl rfl rfl rfl) rfl rfl (hC.low rfl)

theorem kinitFailedCause_goes (hC : Admits C) (hgo : Goes t me here C b b₁) (gs : Option Record) :
    Ensures (kinitFailedCause me b₁ a gs roots) (Cause.Good t me here C b) Tame := by
  unfold kinitFailedCause
  dsimp only
  split
  · exact Goes.statusOnly hC (ds_key_root_goes hC hgo _ _)
  · exact Goes.statusOnly hC hgo

/-- A bind that was refused is reproduced: its links say so. -/
theorem refused_legal (me : Value) (a : Agreement) (gs : Record) (subject : String)
    {more : List Link} (hmore : Legal (some .kerberos) more) :
    Legal none (statusLink me a ::
      ⟨subject, .kerberos, ["agreements", gs.stepId], "status-invalid-credentials-gssapi",
        .peer⟩ :: more) :=
  ⟨follows_of_fits rfl (List.cons_ne_nil _ _), follows_of_fits rfl (List.cons_ne_nil _ _), hmore⟩

theorem skew49Cause_goes (hC : Admits C) (hall : ∀ c : Chain, c.Legal → C.chain c)
    (hgo : Goes t me here C b b₁)
    (gs : Option Record) :
    Ensures (skew49Cause t me b₁ a gs) (Cause.Good t me here C b) Tame := by
  unfold skew49Cause
  split
  · rename_i gs off measured _
    refine (pair_skew_goes hC hgo off true).bind fun ⟨root, b₂⟩ _ ⟨hgo₂, hroot⟩ => ?_
    refine (fixed0_tame off).bind fun _ _ _ => ?_
    have htime : Legal (some .kerberos) [⟨a.pair me, .time, [gs.stepId, measured.stepId],
        "kerberos-49-with-measured-skew", .pair⟩] :=
      ⟨follows_of_fits rfl (List.cons_ne_nil _ _), trivial⟩
    have hlegal := refused_legal me a gs (a.relKey me) htime
    refine (chain_legal hlegal _ _ _).bind fun ⟨c, b₃⟩ _ ⟨hch, _⟩ => ?_
    have hgo₃ := hgo₂.chained hch (hall c (hch.legal hlegal))
    have hself : Goes t me here C b₃ b₃ := .refl
    exact Ensures.pure ⟨hgo₃.rest root.key c, (hch.isCause hroot).mono (hself.rest root.key c)⟩
  · exact fun m => nofun

theorem peerRejectsCause_goes (hC : Admits C) (hall : ∀ c : Chain, c.Legal → C.chain c)
    (hgo : Goes t me here C b b₁)
    (gs : Option Record) :
    Ensures (peerRejectsCause me b₁ a gs) (Cause.Good t me here C b) Tame := by
  unfold peerRejectsCause
  split
  · rename_i gs
    have hlegal := @refused_legal me a gs a.peerHere [] trivial
    refine (chain_legal hlegal _ _ _).bind fun ⟨c, b₂⟩ _ ⟨hch, _⟩ => ?_
    have hgo₂ := hgo.chained hch (hall c (hch.legal hlegal))
    exact Ensures.pure (Goes.addCause hC hgo₂ (.plain rfl rfl rfl rfl) rfl rfl rfl rfl)
  · exact fun m => nofun

theorem insufficientAccessCause_goes (hC : Admits C) (hgo : Goes t me here C b b₁) :
    Ensures (insufficientAccessCause t me b₁ a) (Cause.Good t me here C b) Tame := by
  unfold insufficientAccessCause
  split
  · rename_i hmissed
    have hp : Proper none [statusLink me a, accessLink me a,
        ⟨MANAGERS, .principal, ["principals"], "access-not-a-manager", .directory⟩] :=
      .link rfl (List.cons_ne_nil _ _) (.link rfl (List.cons_ne_nil _ _)
        (.link rfl (List.cons_ne_nil _ _) .nil))
    refine (hgo.chain hC hp _ _ _).bind fun ⟨c, b₂⟩ _ ⟨hgo₂, _⟩ => ?_
    exact Ensures.pure (Goes.addCause hC hgo₂ (.plain rfl rfl rfl rfl (.ofManager rfl hmissed))
      rfl rfl rfl rfl)
  · have hp : Proper none [statusLink me a, accessLink me a] :=
      .link rfl (List.cons_ne_nil _ _) (.link rfl (List.cons_ne_nil _ _) .nil)
    refine (hgo.chain hC hp _ _ _).bind fun ⟨c, b₂⟩ _ ⟨hgo₂, _⟩ => ?_
    exact Ensures.pure ⟨hgo₂, .none⟩

theorem needsAdminCause_goes (hC : Admits C) (hgo : Goes t me here C b b₁) (cls : StatusClass) :
    Ensures (needsAdminCause me b₁ a cls) (Cause.Good t me here C b) Tame := by
  unfold needsAdminCause
  have hp : Proper none [statusLink me a,
      ⟨a.relKey me, .replicaData, ["agreements"], "status-data", .pair⟩] :=
    .link rfl (List.cons_ne_nil _ _) (.link rfl (List.cons_ne_nil _ _) .nil)
  refine (hgo.chain hC hp _ _ _).bind fun ⟨c, b₂⟩ _ ⟨hgo₂, _⟩ => ?_
  exact Ensures.pure (Goes.addCause hC hgo₂ (.plain rfl rfl rfl rfl) rfl rfl rfl rfl)

theorem statusCause_goes (hC : Admits C) (hgo : Goes t me here C b b₁) (cls : Recorded) :
    Ensures (statusCause t me b₁ a cls) (Cause.Good t me here C b) Tame := by
  unfold statusCause
  split
  · exact insufficientAccessCause_goes hC hgo
  · refine (tls_root_goes hC hgo statusLink_properTo (List.cons_ne_nil _ _) rfl).bind ?_
    rintro ⟨root, c, b₂⟩ - h
    exact Ensures.pure h
  · split
    · exact needsAdminCause_goes hC hgo _
    · exact Ensures.pure ⟨hgo, .none⟩
  · exact Ensures.pure ⟨hgo, .none⟩

/-- Its class is one of those that are looked into beyond the path to the
peer. -/
structure Agreement.Judged (a : Agreement) : Prop where
  failing : a.cls ≠ .known .ok
  lasting : isTransient a.cls = false
  beyond : a.cls ≠ .known .transport
  looked : a.cls.meaning = .ok ()

/-- The classes a refused bind is told from. -/
def unspecific (cls : Recorded) : Prop :=
  cls = .known .invalidCredentials ∨ cls = .known .gssapiOther

theorem gssapiCause_goes (hC : Admits C) (hgo : Goes t me here C b b₁) (hroots : Rooting b₁ roots)
    (kc : KerberosClass × KerberosSource) (gs : Option Record)
    (hbind : unspecific a.cls ∨ kc.1 = .skew49 → ∀ c : Chain, c.Legal → C.chain c) :
    Ensures (gssapiCause t me realm b₁ a a.cls (isCredentials a.cls) kc gs roots)
      (Cause.Good t me here C b) Tame := by
  unfold gssapiCause
  split
  · exact kinitFailedCause_goes hC hgo gs
  · split
    · refine (gssapi_chain_goes hC hgo statusLink_properTo _ gs hroots).bind ?_
      rintro ⟨root, c, b₂⟩ - h
      exact Ensures.pure h
    · split
      · rename_i hskew
        exact skew49Cause_goes hC (hbind (.inr hskew)) hgo gs
      · split
        · rename_i hrejects
          exact peerRejectsCause_goes hC (hbind (.inl (.inl hrejects.1))) hgo gs
        · split
          · exact Ensures.pure (notReproduced_good hC hgo _)
          · exact statusCause_goes hC hgo a.cls

/-- What a failing agreement's Kerberos class is read from. -/
def Agreement.kerberos (t : Trace) (a : Agreement) : Except E (KerberosClass × KerberosSource) :=
  kerberos_class a.cls (t.getFor "gssapi" a.subj) ((peer_offset t a.subj).map Prod.fst)

/-- The reproduction of the bind is refused, with the clocks apart. -/
def Agreement.Skewed49 (t : Trace) (a : Agreement) : Prop :=
  usesGssapi a = true ∧ ∃ source, a.kerberos t = .ok (.skew49, source)

theorem lookupKey_tame {α : Type} (kvs : List (String × α)) (v : Value) :
    Ensures (Py.lookupKey kvs v : Except E (Option α)) (fun _ => True) Tame := by
  unfold Py.lookupKey
  split
  · trivial
  · intro m h
    cases h
  · intro m h
    cases h
  · trivial

theorem kerberos_class_tame (cls : Recorded) (gs : Option Record) (off : Option Value) :
    Ensures (kerberos_class cls gs off) (fun _ => True) Tame := by
  unfold kerberos_class
  split
  · trivial
  · split
    · trivial
    · split
      · trivial
      · split
        · trivial
        · split
          · refine Ensures.bind (Q := fun _ => True) ?_ fun c _ _ => Ensures.pure trivial
            unfold kinitClass
            refine Ensures.bind (Q := fun _ => True) ?_ fun c _ _ => Ensures.pure trivial
            exact lookupKey_tame _ _
          · trivial

theorem failingCause_goes (hC : Admits C) (hgo : Goes t me here C b b₁) (hroots : Rooting b₁ roots)
    (hbind : unspecific a.cls ∨ a.cls ≠ .known .transport ∧ a.Skewed49 t →
      ∀ c : Chain, c.Legal → C.chain c) :
    Ensures (failingCause t me realm b₁ a roots) (Cause.Good t me here C b) Tame := by
  unfold failingCause
  dsimp only
  split
  · exact transportCause_goes hC hgo
  · rename_i htransport
    split
    · rename_i hgssapi
      refine (kerberos_class_tame _ _ _).bind fun kc hkc _ => ?_
      refine gssapiCause_goes hC hgo hroots kc _ fun h => hbind (h.imp_right fun hskew => ?_)
      exact ⟨htransport, hgssapi, kc.2, by rw [← hskew]; exact hkc⟩
    · exact statusCause_goes hC hgo a.cls

theorem failingDiagnosis_known (root : Option ReplDiagnosis) (c : Chain) :
    Known t me here (failingDiagnosis me a root c) := by
  refine .plain rfl ?_ rfl rfl
  have hkind : symptomKind a.cls root c = none ∨ symptomKind a.cls root c = some .undiagnosed := by
    unfold symptomKind
    grind
  change [none, some Kind.undiagnosed].contains (symptomKind a.cls root c) = true
  rcases hkind with hkind | hkind <;> rw [hkind] <;> rfl

/-- Two changes of one diagnosis are one change. -/
theorem modify_modify {key : String} {f g : ReplDiagnosis → ReplDiagnosis}
    (hf : ∀ d, (f d).key = d.key) :
    (b.modify key f).modify key g = b.modify key fun d => g (f d) := by
  simp only [Builder.modify, List.map_map]
  congr 1
  refine List.map_congr_left fun d _ => ?_
  by_cases h : d.key = key
  · simp [h, hf]
  · simp [h]

/-- A symptom that is related to its cause is one step. -/
theorem reportFailing_related (b : Builder) (root : ReplDiagnosis) (c : Chain) :
    ∃ f, Explains (failingDiagnosis me a (some root) c).key f
      ∧ reportFailing me b a (some root) c
        = (b.add (failingDiagnosis me a (some root) c)).2.modify root.key f := by
  have hkey := (b.add_spec (failingDiagnosis me a (some root) c)).2
  unfold reportFailing
  dsimp only
  rw [Builder.explainOnce, Builder.restOnce, modify_modify (fun d => by split <;> rfl)]
  refine ⟨_, ?_, rfl⟩
  rw [hkey]
  refine ⟨fun d => ?_, fun d => ?_, fun d k => ?_⟩
  · split <;> split <;> rfl
  · split <;> split <;> rfl
  · split <;> split <;> simp_all

/-- The symptom is added, with what explains it and the chain that says so. -/
theorem reportFailing_goes (hsym : Symptoms C) (hgo : Goes t me here C b b₁)
    {root : Option ReplDiagnosis} (hroot : IsCause b₁ 3 root) (c : Chain) :
    Goes t me here C b (reportFailing me b₁ a root c) ∧ (reportFailing me b₁ a root c).Alarm := by
  have hd := @failingDiagnosis_known t me here a root c
  have halarm := add_alarm b₁ (failingDiagnosis me a root c) (.inl rfl)
  cases root with
  | none => exact ⟨hgo.add hd rfl rfl hsym.below, halarm⟩
  | some r =>
      obtain ⟨f, hexplains, heq⟩ := @reportFailing_related me a b₁ r c
      rw [heq]
      exact ⟨hgo.relate hd rfl rfl hsym.below hsym.relates (hroot r rfl) hexplains,
        halarm.modify r.key hexplains.evolves⟩

theorem unexplainedNow_goes (hC : Admits C) (hgo : Goes t me here C b b₁)
    (root : Option ReplDiagnosis) :
    Ensures (unexplainedNow t me b₁ a root) (fun r => Goes t me here C b r) Tame := by
  unfold unexplainedNow
  split
  · exact peer_now_goes hC hgo
  · exact hgo

theorem failing_goes (hC : Admits C) (hsym : Symptoms C) (hgo : Goes t me here C b b₁)
    (hroots : Rooting b₁ roots)
    (hok : a.cls ≠ .known .ok) (htransient : isTransient a.cls = false)
    (hbind : unspecific a.cls ∨ a.Judged ∧ a.Skewed49 t → ∀ c : Chain, c.Legal → C.chain c) :
    Ensures (failing t me realm b₁ a roots) (fun r => Goes t me here C b r ∧ r.Alarm) Tame := by
  unfold failing
  refine (meaning_tame _).bind fun _ hlooked _ => ?_
  have hself : Goes t me here C b₁ b₁ := .refl
  have hbind' : unspecific a.cls ∨ a.cls ≠ .known .transport ∧ a.Skewed49 t →
      ∀ c : Chain, c.Legal → C.chain c := fun h =>
    hbind (h.imp_right fun h => ⟨⟨hok, htransient, h.1, hlooked⟩, h.2⟩)
  refine (failingCause_goes hC hself hroots hbind').bind fun r _ hgood => ?_
  cases r with
  | settled b₂ => exact Ensures.pure ⟨hgo.trans hgood.1, hgood.2⟩
  | found root c b₂ =>
      obtain ⟨hgo₂, hroot⟩ := hgood
      have hself₂ : Goes t me here C b₂ b₂ := .refl
      refine (@noteSkew_goes t me here C b₂ b₂ a hC hself₂).bind fun b₃ _ hgo₃ => ?_
      refine (unexplainedNow_goes hC hgo₃ root).bind fun b₄ _ hgo₄ => ?_
      have hgo₅ : Goes t me here C b b₄ := hgo.trans (hgo₂.trans hgo₄)
      have hroot₄ := hroot.mono hgo₄
      cases c with
      | some c => exact Ensures.pure (reportFailing_goes hsym hgo₅ hroot₄ c)
      | none =>
          refine (hgo₅.chain hC statusLink_properTo.proper _ _ _).bind ?_
          rintro ⟨c, b₅⟩ - ⟨hgo₆, hch⟩
          exact Ensures.pure (reportFailing_goes hsym hgo₆ (hch.isCause hroot₄) c)

end Failing

/-! ## One agreement -/

section OneAgreement

variable {t : Trace} {me realm : Value} {here : String} {C : Limits} {b b₁ : Builder}
  {a : Agreement} {roots : Roots} {ago : String → Option ℚ}

theorem agoOf_tame (v : Value) : Ensures (agoOf ago v) (fun _ => True) Tame := by
  unfold agoOf
  split
  · trivial
  · split
    · trivial
    · exact fun m => nofun

theorem green_goes (hC : Admits C) (hgo : Goes t me here C b b₁) :
    Ensures (green t me ago b₁ a) (fun r => Goes t me here C b r) Tame := by
  unfold green
  have hlong : Ensures (longSession me ago b₁ a) (fun r => Goes t me here C b r) Tame := by
    unfold longSession
    refine (agoOf_tame _).bind fun _ _ _ => ?_
    split
    · exact Ensures.pure (hgo.add (.plain rfl rfl rfl rfl) rfl rfl (hC.low rfl))
    · exact Ensures.pure hgo
  exact hlong.bind fun b₂ _ hgo₂ => clockDrift_goes hC hgo₂

/-- An agreement takes steps; if it is enabled and was not last seen
green, it leaves an alarm. -/
theorem agreement_goes (hC : Admits C) (hsym : Symptoms C) (hgo : Goes t me here C b b₁)
    (hroots : Rooting b₁ roots)
    (hbind : unspecific a.cls ∨ a.Judged ∧ a.Skewed49 t → ∀ c : Chain, c.Legal → C.chain c) :
    Ensures (agreement t me realm ago b₁ a roots)
      (fun r => Goes t me here C b r
        ∧ (isFalse (getField a.item "enabled") = false → a.cls ≠ .known .ok → r.Alarm)) Tame := by
  unfold agreement
  split
  · rename_i hdisabled
    refine ⟨hgo.add (.plain rfl rfl rfl rfl) rfl rfl (hC.low rfl), fun h => ?_⟩
    rw [hdisabled] at h
    cases h
  · split
    · rename_i hok
      refine (peer_now_goes hC hgo).bind fun b₂ _ hgo₂ => ?_
      exact (green_goes hC hgo₂).mono fun r _ h => ⟨h, fun _ hne => absurd hok hne⟩
    · rename_i hok
      split
      · refine (peer_now_goes hC hgo).bind fun b₂ _ hgo₂ => ?_
        refine Ensures.pure ⟨hgo₂.add (.plain rfl rfl rfl rfl) rfl rfl (hC.low rfl), fun _ _ => ?_⟩
        exact add_alarm b₂ _ (.inr rfl)
      · rename_i htransient
        refine (failing_goes hC hsym hgo hroots hok (by simpa using htransient) hbind).mono ?_
        exact fun r _ h => ⟨h.1, fun _ _ => h.2⟩

/-- So does one the budget left out. -/
theorem dropped_goes (hC : Admits C) (hsym : 3 < C.tier) (hgo : Goes t me here C b b₁) :
    Ensures (dropped me b₁ a) (fun r => Goes t me here C b r
        ∧ (isFalse (getField a.item "enabled") = false → a.cls ≠ .known .ok →
          isTransient a.cls = false → r.Alarm)) Tame := by
  unfold dropped
  split
  · rename_i h
    refine ⟨hgo, fun henabled hok htransient => ?_⟩
    rcases h with h | h | h
    · exact absurd h hok
    · rw [htransient] at h
      cases h
    · rw [henabled] at h
      cases h
  · refine (meaning_tame _).bind fun _ _ _ => ?_
    refine (hgo.chain hC statusLink_properTo.proper _ _ _).bind fun ⟨c, b₂⟩ _ ⟨hgo₂, _⟩ => ?_
    refine Ensures.pure ⟨hgo₂.add (.plain rfl rfl rfl rfl) rfl rfl hsym, fun _ _ _ => ?_⟩
    exact add_alarm b₂ _ (.inl rfl)

/-! ## Its reverse direction -/

theorem iter_tame (v : Value) : Ensures (v.iter : Except E (List Value)) (fun _ => True) Tame := by
  unfold Value.iter
  cases v with
  | int n => exact fun m => nofun
  | bool b => exact fun m => nofun
  | float x => exact fun m => nofun
  | null => exact fun m => nofun
  | str s => trivial
  | list xs => trivial
  | dict kvs => trivial

/-- Changes that commute may be made in either order. -/
theorem modify_comm {key key' : String} {f g : ReplDiagnosis → ReplDiagnosis}
    (hf : ∀ d, (f d).key = d.key) (hg : ∀ d, (g d).key = d.key) (hfg : ∀ d, f (g d) = g (f d)) :
    (b.modify key f).modify key' g = (b.modify key' g).modify key f := by
  simp only [Builder.modify, List.map_map]
  congr 1
  refine List.map_congr_left fun d _ => ?_
  by_cases h : d.key = key
  · by_cases h' : d.key = key'
    · simp [Function.comp, ← h, ← h', hf, hg, hfg]
    · simp [Function.comp, ← h, h', hf]
  · by_cases h' : d.key = key'
    · simp [Function.comp, h, ← h', hg]
    · simp [Function.comp, h, h']

theorem reverseLink_proper (r : Record) : Proper none [reverseLink me a r] :=
  .link rfl (List.cons_ne_nil _ _) .nil

theorem acceptorLinks_proper (r : Record) : Proper none (acceptorLinks me a r) :=
  .link rfl (List.cons_ne_nil _ _) (.link rfl (List.cons_ne_nil _ _)
    (.link rfl (List.cons_ne_nil _ _) .nil))

theorem reverseFailing_goes (hC : Admits C) (hsym : Symptoms C) (hgo : Goes t me here C b b₁) (r : Record) :
    Ensures (reverseFailing me b₁ a r) (fun b' => Goes t me here C b b' ∧ b'.Alarm) Tame := by
  unfold reverseFailing
  refine (hgo.chain hC (reverseLink_proper r) _ _ _).bind fun ⟨c, b₂⟩ _ ⟨hgo₂, _⟩ => ?_
  exact Ensures.pure ⟨hgo₂.add (.plain rfl rfl rfl rfl) rfl rfl hsym.below, add_alarm _ _ (.inl rfl)⟩

/-- The symptom of an accepting side is related to the keytab in one
step; how sure it is may then change. -/
theorem reverseAcceptor_related {R : E → Prop} (b : Builder) (r : Record) (cls : Recorded)
    (kt : ReplDiagnosis) :
    Ensures (reverseAcceptor me b a r cls kt) (fun b' => ∃ c b₂ f,
      Chained b (acceptorLinks me a r) none c b₂
      ∧ Explains (acceptorDiagnosis me a r c cls kt).key f
      ∧ ∃ g key, Touches g ∧ b' = ((b₂.add (acceptorDiagnosis me a r c cls kt)).2.modify
        kt.key f).modify key g) R := by
  unfold reverseAcceptor
  refine (chain_legal (acceptorLinks_proper r).legal _ _ _).bind ?_
  rintro ⟨c, b₂⟩ - ⟨hch, -⟩
  generalize hd : acceptorDiagnosis me a r c cls kt = d
  have hkey := (b₂.add_spec d).2
  have hexplains : Explains d.key fun x =>
      let x := { x with chainIds := x.chainIds ++ [c.chainId] }
      { x with explains := x.explains ++ [(b₂.add d).1.key] } := by
    rw [hkey]
    exact ⟨fun _ => rfl, fun _ => rfl, fun _ _ => by simp⟩
  have hrest : ∀ x : ReplDiagnosis,
      ({ x with chainIds := x.chainIds ++ [c.chainId] } : ReplDiagnosis).key = x.key := fun _ => rfl
  have hmedium : Touches fun x : ReplDiagnosis => { x with confidence := .medium } :=
    ⟨fun _ => rfl, fun _ => rfl, fun _ => rfl⟩
  have hsame : Touches fun x : ReplDiagnosis => x := ⟨fun _ => rfl, fun _ => rfl, fun _ => rfl⟩
  dsimp only
  rw [hd]
  refine Ensures.pure ⟨c, b₂, _, hch, hd ▸ hexplains, ?_⟩
  rw [Builder.explain, Builder.rest, modify_modify hrest, hd]
  split
  · refine ⟨_, (b₂.add d).1.key, hmedium, ?_⟩
    exact modify_comm (fun x => (hmedium.evolves x).key) (fun x => (hexplains.evolves x).key)
      (fun _ => rfl)
  · refine ⟨_, kt.key, hsame, ?_⟩
    rw [modify_modify fun x => (hexplains.evolves x).key]

theorem reverseAcceptor_goes (hC : Admits C) (hsym : Symptoms C) (hgo : Goes t me here C b b₁)
    (r : Record) (cls : Recorded) {kt : ReplDiagnosis} (hkt : IsCause b₁ 3 (some kt)) :
    Ensures (reverseAcceptor me b₁ a r cls kt) (fun b' => Goes t me here C b b' ∧ b'.Alarm) Tame := by
  refine (reverseAcceptor_related b₁ r cls kt).mono fun b' _ h => ?_
  obtain ⟨c, b₂, f, hch, hexplains, g, key, hg, rfl⟩ := h
  have hlegal : c.Legal := hch.legal (acceptorLinks_proper r).legal
  have hquiet : Quiet c.links := by
    rw [hch.links]
    exact (acceptorLinks_proper r).quiet
  have hgo₂ := hgo.chained hch (hC.chain c hlegal hquiet)
  have hknown : Known t me here (acceptorDiagnosis me a r c cls kt) := .plain rfl rfl rfl rfl
  have hstep := hgo₂.relate hknown rfl rfl hsym.below hsym.relates (hch.isCause hkt kt rfl) hexplains
  have halarm := (add_alarm b₂ (acceptorDiagnosis me a r c cls kt) (.inl rfl)).modify kt.key
    hexplains.evolves
  exact ⟨ReflTransGen.tail hstep (.touch key hg), halarm.modify key hg.evolves⟩

/-- What the state of a reverse direction rests on. -/
structure ReverseRead (t : Trace) (a : Agreement) (r : ReverseState × Builder) : Prop where
  ok : r.1 = .ok → ∃ record, t.getFor "reverse" a.subj = some record ∧ record.outcome = .pass
  alarm : r.1 = .transient ∨ r.1 = .failing → r.2.Alarm

theorem ReverseRead.alarmed {r : ReverseState × Builder} (hok : r.1 ≠ .ok) (h : r.2.Alarm) :
    ReverseRead t a r :=
  ⟨fun h => absurd h hok, fun _ => h⟩

theorem reverseFailed_goes (hC : Admits C) (hsym : Symptoms C) (hgo : Goes t me here C b b₁)
    (hroots : Rooting b₁ roots)
    (r : Record) :
    Ensures (reverseFailed t me b₁ a roots r)
      (fun r => Goes t me here C b r.2 ∧ ReverseRead t a r) Tame := by
  have hclass : Ensures (reverseClass r) (fun _ => True) Tame :=
    (iter_tame _).bind fun _ _ _ => Ensures.pure trivial
  unfold reverseFailed
  refine hclass.bind fun cls _ _ => ?_
  split
  · exact Ensures.pure ⟨hgo.add (.plain rfl rfl rfl rfl) rfl rfl (hC.low rfl),
      .alarmed nofun (add_alarm _ _ (.inr rfl))⟩
  · split
    · exact Ensures.pure ⟨hgo.add (.plain rfl rfl rfl rfl) rfl rfl (hC.low rfl),
        .alarmed nofun (add_alarm _ _ (.inr rfl))⟩
    · refine (meaning_tame _).bind fun _ _ _ => ?_
      have hplain : Ensures (do
          let b ← reverseFailing me b₁ a r
          pure (ReverseState.failing, b))
          (fun r => Goes t me here C b r.2 ∧ ReverseRead t a r) Tame :=
        (reverseFailing_goes hC hsym hgo r).bind fun b' _ h => Ensures.pure ⟨h.1, .alarmed nofun h.2⟩
      split
      · rename_i kt hkt
        split
        · have hcause : IsCause b₁ 3 (some kt) := by
            rw [← hkt]
            exact hroots.keytab
          refine (reverseAcceptor_goes hC hsym hgo r cls hcause).bind fun b' _ h => ?_
          exact Ensures.pure ⟨h.1, .alarmed nofun h.2⟩
        · exact hplain
      · exact hplain

theorem reverse_goes (hC : Admits C) (hsym : Symptoms C) (hgo : Goes t me here C b b₁)
    (hroots : Rooting b₁ roots) :
    Ensures (reverse t me b₁ a roots)
      (fun r => Goes t me here C b r.2 ∧ ReverseRead t a r) Tame := by
  have hunknown : ReverseRead t a (.unknown, b₁) :=
    ⟨nofun, fun h => by rcases h with h | h <;> cases h⟩
  unfold reverse
  split
  · exact ⟨hgo, hunknown⟩
  · rename_i r hr
    split
    · exact ⟨hgo, hunknown⟩
    · exact ⟨hgo, hunknown⟩
    · rename_i hpass
      exact ⟨hgo, fun _ => ⟨r, hr, hpass⟩, fun h => by rcases h with h | h <;> cases h⟩
    · exact reverseFailed_goes hC hsym hgo hroots r
    · exact reverseFailed_goes hC hsym hgo hroots r

end OneAgreement

end IpaDiagnose.Replication
