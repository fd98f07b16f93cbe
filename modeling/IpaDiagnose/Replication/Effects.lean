import IpaDiagnose.Replication.Steps

/-!
# The functions of the diagnosis, step by step

For each function: it takes steps of the four kinds only, it raises no
chain error, and what it returns as a cause is a diagnosis that is there.
-/

namespace IpaDiagnose.Replication

open Result
open Relation (ReflTransGen)
open Py (Value Dict)
open Planner (Outcome Record Trace)

/-! ## Links that fit -/

/-- The discriminators of a bind that is refused with LDAP 49. -/
def REFUSED_BIND : List String :=
  ["status-invalid-credentials-gssapi", "kerberos-49-with-measured-skew"]

def Link.refusedBind (link : Link) : Prop := link.discriminator ∈ REFUSED_BIND

/-- No link says that a bind was refused. -/
def Quiet (links : List Link) : Prop := ∀ link ∈ links, ¬ link.refusedBind

/-- A discriminator is registered for this step, which is an edge. -/
def fits (prev : Option Capability) (discId : String) (capability : Capability) : Bool :=
  ((DISCRIMINATOR? discId).any fun d => d.source = prev ∧ d.target = capability)
    && edge prev capability

theorem follows_of_fits {prev : Option Capability} {link : Link}
    (h : fits prev link.discriminator link.capability = true) (hev : link.evidence ≠ []) :
    link.Follows prev := by
  rw [fits, Bool.and_eq_true] at h
  obtain ⟨hreg, hedge⟩ := h
  refine ⟨?_, edge_iff.mp hedge, hev⟩
  cases hd : DISCRIMINATOR? link.discriminator with
  | none =>
      rw [hd] at hreg
      cases hreg
  | some d =>
      rw [hd, Option.any_some, decide_eq_true_eq] at hreg
      exact ⟨d, List.mem_of_find?_eq_some hd, by simpa using List.find?_some hd, hreg⟩

/-- Links that follow each other and are quiet. -/
structure Proper (prev : Option Capability) (links : List Link) : Prop where
  legal : Legal prev links
  quiet : Quiet links

theorem Proper.nil {prev : Option Capability} : Proper prev [] :=
  ⟨trivial, fun _ h => nomatch h⟩

theorem Proper.link {prev : Option Capability} {link : Link} {links : List Link}
    (hfits : (fits prev link.discriminator link.capability
      && !REFUSED_BIND.contains link.discriminator) = true) (hev : link.evidence ≠ [])
    (h : Proper (some link.capability) links) : Proper prev (link :: links) := by
  rw [Bool.and_eq_true] at hfits
  refine ⟨⟨follows_of_fits hfits.1 hev, h.legal⟩, fun l hl => ?_⟩
  rcases List.mem_cons.mp hl with rfl | hl
  · simpa [Link.refusedBind] using hfits.2
  · exact h.quiet l hl

/-- The capability the links end at. -/
def lastOf : Option Capability → List Link → Option Capability
  | prev, [] => prev
  | _, link :: links => lastOf (some link.capability) links

theorem lastOf_append (prev : Option Capability) (links : List Link) (link : Link) :
    lastOf prev (links ++ [link]) = some link.capability := by
  induction links generalizing prev with
  | nil => rfl
  | cons l links ih => exact ih (some l.capability)

theorem legal_append {prev : Option Capability} {xs ys : List Link} (hx : Legal prev xs)
    (hy : Legal (lastOf prev xs) ys) : Legal prev (xs ++ ys) := by
  induction xs generalizing prev with
  | nil => exact hy
  | cons x xs ih => exact ⟨hx.1, ih hx.2 hy⟩

theorem Proper.append {prev : Option Capability} {xs ys : List Link} (hx : Proper prev xs)
    (hy : Proper (lastOf prev xs) ys) : Proper prev (xs ++ ys) := by
  refine ⟨legal_append hx.legal hy.legal, fun l hl => ?_⟩
  rcases List.mem_append.mp hl with hl | hl
  · exact hx.quiet l hl
  · exact hy.quiet l hl

/-! ## What is known of a diagnosis -/

/-- The unit check a diagnosis of a stopped service rests on. -/
def unitStep : Code → Option String
  | .localDsNotRunning => some "local.ds"
  | .localKdcNotRunning => some "local.kdc"
  | _ => none

/-- The diagnoses that a name is missing from a list. -/
def missesName : Code → Bool
  | .notAReplicationManager => true
  | .peerLdapPrincipalMissing => true
  | _ => false

/-- The list such a diagnosis rests on was read whole, without the name. -/
structure NameMissed (t : Trace) (me : Value) (d : ReplDiagnosis) : Prop where
  manager : d.code = .notAReplicationManager → notAManager t me = true
  principal : d.code = .peerLdapPrincipalMissing →
    ∃ realm a, d.subject = principalSubject realm a ∧ principalAbsent t a = true

theorem NameMissed.other {t : Trace} {me : Value} {d : ReplDiagnosis}
    (h : missesName d.code = false) : NameMissed t me d where
  manager := by
    intro hcode
    rw [hcode] at h
    cases h
  principal := by
    intro hcode
    rw [hcode] at h
    cases h

theorem NameMissed.ofPrincipal {t : Trace} {me realm : Value} {a : Agreement} {d : ReplDiagnosis}
    (hcode : d.code = .peerLdapPrincipalMissing) (hsubject : d.subject = principalSubject realm a)
    (h : principalAbsent t a = true) : NameMissed t me d where
  manager := by
    intro hother
    rw [hcode] at hother
    cases hother
  principal := fun _ => ⟨realm, a, hsubject, h⟩

theorem NameMissed.ofManager {t : Trace} {me : Value} {d : ReplDiagnosis}
    (hcode : d.code = .notAReplicationManager) (h : notAManager t me = true) :
    NameMissed t me d where
  manager := fun _ => h
  principal := by
    intro hother
    rw [hcode] at hother
    cases hother

/-- What is true of every diagnosis: its severity and kind are its
code's, a stopped service was observed, a service is to be started only
where it is the root of its failure, and a missing name was missed. -/
structure Known (t : Trace) (me : Value) (here : String) (d : ReplDiagnosis) : Prop
    extends d.Coded where
  unit : ∀ step, unitStep d.code = some step →
    outcomeOf t step = some .fail ∧ ∀ e ∈ d.evidence, e = step
  start : d.resolutionKey = some START_SERVICE →
    d.subject = here ∧ d.relatedTo = none ∧ (unitStep d.code).isSome
  missed : NameMissed t me d

theorem Known.plain {t : Trace} {me : Value} {here : String} {d : ReplDiagnosis}
    (hsev : d.severity = severityOf d.code) (hkind : (kindsOf d.code).contains d.kind = true)
    (hunit : unitStep d.code = none) (hkey : (d.resolutionKey == some START_SERVICE) = false)
    (hmissed : NameMissed t me d := by exact .other rfl) : Known t me here d where
  severity := hsev
  kind := by simpa using hkind
  unit := by
    intro step hstep
    rw [hunit] at hstep
    cases hstep
  start := by
    intro h
    rw [h, beq_self_eq_true] at hkey
    cases hkey
  missed := hmissed

/-- An exception that is no chain error. -/
def Tame (e : E) : Prop := ∀ m, e ≠ .own m

theorem hashed_tame (v : Value) : Ensures (hashed v) (fun _ => True) Tame := by
  unfold hashed
  split
  · trivial
  · intro m
    exact nofun

theorem meaning_tame (cls : Recorded) : Ensures cls.meaning (fun _ => True) Tame := by
  cases cls with
  | known c => trivial
  | other v => exact hashed_tame v

theorem fixed0_tame (v : Value) : Ensures (v.fixed0 : Except E String) (fun _ => True) Tame := by
  unfold Value.fixed0
  cases v with
  | int n =>
      dsimp only
      split
      · intro m
        exact nofun
      · trivial
  | bool b => trivial
  | float x => trivial
  | null => exact fun m => nofun
  | str s => exact fun m => nofun
  | list xs => exact fun m => nofun
  | dict kvs => exact fun m => nofun

/-! ## Steps -/

/-- What a run may add: chains of a kind, diagnoses below a tier, and
whether they may be related to another. -/
structure Limits where
  chain : Chain → Prop
  tier : Nat
  relates : Prop

def Allows (C : Limits) (d : ReplDiagnosis) : Prop :=
  tier d.code < C.tier ∧ (d.relatedTo.isSome → C.relates)

section Steps

variable {t : Trace} {me : Value} {here : String} {C : Limits} {b b' : Builder}

/-- The steps of a diagnosis of a trace, on the server `here`. -/
abbrev Goes (t : Trace) (me : Value) (here : String) (C : Limits) : Builder → Builder → Prop :=
  Runs (fun d => Known t me here d ∧ Allows C d) C.chain

theorem Goes.add {d : ReplDiagnosis} (h : Goes t me here C b b') (hd : Known t me here d)
    (hrel : d.relatedTo = none) (hexp : d.explains = []) (htier : tier d.code < C.tier) :
    Goes t me here C b (b'.add d).2 :=
  ReflTransGen.tail h (.add ⟨hd, htier, by rw [hrel]; nofun⟩ hrel hexp)

theorem Goes.rest (h : Goes t me here C b b') (root : String) (c : Chain) :
    Goes t me here C b (b'.rest root c) :=
  ReflTransGen.tail h (.touch root (touches_rest c))

theorem Goes.restOnce (h : Goes t me here C b b') (root : String) (c : Chain) :
    Goes t me here C b (b'.restOnce root c) := by
  refine ReflTransGen.tail h (.touch root ⟨fun d => ?_, fun d => ?_, fun d => ?_⟩)
  all_goals
    split
    · rfl
    · rfl

/-- A diagnosis that is added is a cause of what has a higher tier. -/
theorem add_hasCause (b : Builder) (d : ReplDiagnosis) {n : Nat}
    (hsev : severityOf d.code = .fail) (htier : tier d.code < n) :
    (b.add d).2.HasCause (b.add d).1.key n := by
  obtain ⟨hmem, hkey⟩ := b.add_spec d
  have hcode : (b.add d).1.code = d.code := (keyOf_inj.mp hkey).1
  refine ⟨_, hmem, rfl, ?_, ?_⟩
  · rw [hcode]
    exact hsev
  · rw [hcode]
    exact htier

/-- A chain of proper links is made, and nothing else happens. -/
structure Chained (b : Builder) (links : List Link) (handoff : Option Value) (c : Chain)
    (b' : Builder) : Prop where
  links : c.links = links
  handoff : c.handoff = handoff
  builder : b' = { b with chains := b.chains ++ [c] }

theorem chain_legal {links : List Link} (h : Legal none links) (subject : String) (bounded : Bool)
    (handoff : Option Value) {R : E → Prop} :
    Ensures (b.chain subject links bounded handoff)
      (fun r => Chained b links handoff r.1 r.2 ∧ r.1.subject = subject ∧ r.1.bounded = bounded)
      R := by
  unfold Builder.chain
  dsimp only
  have hcheck : checkChain
      { chainId := "chain-" ++ toString (b.chains.length + 1) ++ ":" ++ subject
        subject := subject, links := links, bounded := bounded, handoff := handoff } = .ok () :=
    checkChain_ok.mpr h
  rw [hcheck]
  exact ⟨⟨rfl, rfl, rfl⟩, rfl, rfl⟩

theorem Chained.legal {links : List Link} {handoff : Option Value} {c : Chain}
    (hc : Chained b links handoff c b') (h : Legal none links) : c.Legal := by
  rw [Chain.Legal, hc.links]
  exact h

theorem Goes.chained {links : List Link} {handoff : Option Value} {c : Chain} {b₁ : Builder}
    (h : Goes t me here C b b₁) (hc : Chained b₁ links handoff c b') (hC : C.chain c) :
    Goes t me here C b b' := by
  rw [hc.builder]
  exact ReflTransGen.tail h (.chain hC)

/-- A run may add all chains that are legal and quiet, and all diagnoses
but symptoms. -/
structure Admits (C : Limits) : Prop where
  chain : ∀ c : Chain, c.Legal → Quiet c.links → C.chain c
  causes : 3 ≤ C.tier

theorem Admits.low {code : Code} (h : Admits C) (hcode : (tier code).blt 3 = true) :
    tier code < C.tier :=
  Nat.lt_of_lt_of_le (Nat.blt_eq.mp hcode) h.causes

/-- A chain of proper links, in a run that admits them. -/
theorem Goes.chain {b₁ : Builder} {links : List Link} (h : Goes t me here C b b₁) (hC : Admits C)
    (hp : Proper none links) (subject : String) (bounded : Bool) (handoff : Option Value) :
    Ensures (b₁.chain subject links bounded handoff)
      (fun r => Goes t me here C b r.2 ∧ Chained b₁ links handoff r.1 r.2) Tame := by
  refine (chain_legal hp.legal subject bounded handoff).mono fun r _ hr => ?_
  obtain ⟨hchained, -, -⟩ := hr
  refine ⟨h.chained hchained (hC.chain _ (hchained.legal hp.legal) ?_), hchained⟩
  rw [hchained.links]
  exact hp.quiet

end Steps

/-! ## This server -/

section Local

variable {t : Trace} {me : Value} {here : String} {C : Limits} {b b₁ : Builder}

/-- What is returned as a cause is there, of a tier below `n`. -/
def IsCause (b : Builder) (n : Nat) (root : Option ReplDiagnosis) : Prop :=
  ∀ r, root = some r → b.HasCause r.key n

theorem IsCause.mono {n : Nat} {root : Option ReplDiagnosis} (h : IsCause b n root)
    (hgo : Goes t me here C b b₁) : IsCause b₁ n root :=
  fun r hr => hgo.hasCause (h r hr)

theorem localStorage_goes (hC : Admits C) (hgo : Goes t me here C b b₁) :
    Ensures (localStorage t here b₁)
      (fun r => Goes t me here C b r.2 ∧ IsCause r.2 1 r.1
        ∧ (r.1.isSome → outcomeOf t "local.storage" = some .fail)) Tame := by
  unfold localStorage
  split
  · rename_i hbad
    have hp : Proper none [⟨here, .storage, ["local.storage"], "local-storage", .here⟩] :=
      .link rfl (List.cons_ne_nil _ _) .nil
    refine (hgo.chain hC hp _ _ _).bind fun ⟨c, b₂⟩ _ ⟨hgo₂, _⟩ => ?_
    refine Ensures.pure ⟨hgo₂.add (.plain rfl rfl rfl rfl) rfl rfl (hC.low rfl), ?_, fun _ => hbad⟩
    intro r hr
    injection hr with hr
    subst hr
    exact add_hasCause _ _ rfl Nat.zero_lt_one
  · exact Ensures.pure ⟨hgo, (fun r hr => nomatch hr), nofun⟩

/-- A diagnosis with what explains it. -/
theorem Goes.relate {d : ReplDiagnosis} {root : String} {f : ReplDiagnosis → ReplDiagnosis}
    (h : Goes t me here C b b₁) (hd : Known t me here d) (hrel : d.relatedTo = some root)
    (hexp : d.explains = []) (htier : tier d.code < C.tier) (hrelates : C.relates)
    (hroot : b₁.HasCause root (tier d.code)) (hf : Explains d.key f) :
    Goes t me here C b ((b₁.add d).2.modify root f) :=
  ReflTransGen.tail h (.relate ⟨hd, htier, fun _ => hrelates⟩ hrel hexp hroot hf)

theorem explains_append (key : String) :
    Explains key fun d => { d with explains := d.explains ++ [key] } :=
  ⟨fun _ => rfl, fun _ => rfl, fun _ _ => by simp⟩

theorem dsLinks_proper (storage : Option ReplDiagnosis) : Proper none (dsLinks here storage) := by
  unfold dsLinks
  refine .link rfl (List.cons_ne_nil _ _) ?_
  split
  · exact .link rfl (List.cons_ne_nil _ _) .nil
  · exact .nil

theorem dsDiagnosis_known (storage : Option ReplDiagnosis) (c : Chain)
    (hdown : outcomeOf t "local.ds" = some .fail)
    (hstorage : storage.isSome → outcomeOf t "local.storage" = some .fail) :
    Known t me here (dsDiagnosis t here storage c) where
  severity := rfl
  kind := List.mem_singleton_self _
  unit := by
    intro step hstep
    injection hstep with hstep
    subst hstep
    exact ⟨hdown, fun e he => List.mem_singleton.mp he⟩
  missed := .other rfl
  start := by
    intro h
    refine ⟨rfl, ?_, rfl⟩
    cases storage with
    | none => rfl
    | some s =>
        have hfine : storageFine t = false := by
          simp [storageFine, hstorage rfl]
        simp [dsDiagnosis, hfine] at h

/-- A diagnosis is added, related to the cause there is, if there is one. -/
theorem Goes.related {n : Nat} {root : Option ReplDiagnosis} {d : ReplDiagnosis}
    (hC : Admits C) (hrelates : C.relates) (h : Goes t me here C b b₁) (hd : Known t me here d)
    (hrel : d.relatedTo = root.map ReplDiagnosis.key) (hexp : d.explains = [])
    (hlow : (tier d.code).blt 3 = true) (hroot : IsCause b₁ (tier d.code) root) (hsev : severityOf d.code = .fail)
    (htier : tier d.code < n) :
    Ensures (match root with
      | some s => (pure (some (b₁.add d).1, (b₁.add d).2.explain s.key (b₁.add d).1.key)
          : Except E (Option ReplDiagnosis × Builder))
      | none => pure (some (b₁.add d).1, (b₁.add d).2))
      (fun r => Goes t me here C b r.2 ∧ IsCause r.2 n r.1) Tame := by
  have hcause := add_hasCause b₁ d hsev htier
  cases root with
  | none =>
      refine Ensures.pure ⟨h.add hd hrel hexp (hC.low hlow), fun r hr => ?_⟩
      injection hr with hr
      subst hr
      exact hcause
  | some s =>
      have hkey : (b₁.add d).1.key = d.key := (b₁.add_spec d).2
      have hexplains : Explains d.key fun x =>
          { x with explains := x.explains ++ [(b₁.add d).1.key] } := by
        rw [hkey]
        exact explains_append d.key
      refine Ensures.pure ⟨h.relate hd hrel hexp (hC.low hlow) hrelates (hroot s rfl) hexplains,
        fun r hr => ?_⟩
      injection hr with hr
      subst hr
      obtain ⟨x, hx, hk, hsev', htier'⟩ := hcause
      obtain ⟨x', hx', hev⟩ := (Builder.modify_evolves hexplains.evolves).1 x hx
      exact ⟨x', hx', by rw [hev.key, hk], by rw [hev.code, hsev'], by rw [hev.code]; exact htier'⟩

/-- A chain that is added leaves the causes. -/
theorem Chained.isCause {links : List Link} {handoff : Option Value} {c : Chain} {b' : Builder}
    {n : Nat} {root : Option ReplDiagnosis} (hc : Chained b₁ links handoff c b')
    (h : IsCause b₁ n root) : IsCause b' n root := by
  intro r hr
  obtain ⟨x, hx, hrest⟩ := h r hr
  refine ⟨x, ?_, hrest⟩
  rw [hc.builder]
  exact hx

theorem localDs_goes (hC : Admits C) (hrelates : C.relates) (hgo : Goes t me here C b b₁)
    {storage : Option ReplDiagnosis}
    (hs : IsCause b₁ 1 storage)
    (hbad : storage.isSome → outcomeOf t "local.storage" = some .fail) :
    Ensures (localDs t here storage b₁) (fun r => Goes t me here C b r.2 ∧ IsCause r.2 2 r.1)
      Tame := by
  unfold localDs
  split
  · rename_i hdown
    refine (hgo.chain hC (dsLinks_proper storage) _ _ _).bind fun ⟨c, b₂⟩ _ ⟨hgo₂, hch⟩ => ?_
    have hd : Known t me here (dsDiagnosis t here storage c) := dsDiagnosis_known storage c hdown hbad
    exact Goes.related hC hrelates hgo₂ hd rfl rfl rfl (hch.isCause hs) rfl Nat.one_lt_two
  · exact Ensures.pure ⟨hgo, fun r hr => nomatch hr⟩

theorem kdcLinks_proper (ds : Option ReplDiagnosis) : Proper none (kdcLinks here ds) := by
  unfold kdcLinks
  refine .link rfl (List.cons_ne_nil _ _) ?_
  split
  · exact .link rfl (List.cons_ne_nil _ _) .nil
  · exact .nil

theorem kdcDiagnosis_known (ds : Option ReplDiagnosis) (c : Chain)
    (hdown : outcomeOf t "local.kdc" = some .fail) : Known t me here (kdcDiagnosis here ds c) where
  severity := rfl
  kind := List.mem_singleton_self _
  unit := by
    intro step hstep
    injection hstep with hstep
    subst hstep
    exact ⟨hdown, fun e he => List.mem_singleton.mp he⟩
  missed := .other rfl
  start := by
    intro h
    refine ⟨rfl, ?_, rfl⟩
    cases ds with
    | none => rfl
    | some s => simp [kdcDiagnosis] at h

theorem localKdc_goes (hC : Admits C) (hrelates : C.relates) (hgo : Goes t me here C b b₁)
    {ds : Option ReplDiagnosis}
    (hs : IsCause b₁ 2 ds) :
    Ensures (localKdc t here ds b₁) (fun r => Goes t me here C b r.2 ∧ IsCause r.2 3 r.1)
      Tame := by
  unfold localKdc
  split
  · rename_i hdown
    refine (hgo.chain hC (kdcLinks_proper ds) _ _ _).bind fun ⟨c, b₂⟩ _ ⟨hgo₂, hch⟩ => ?_
    have hd : Known t me here (kdcDiagnosis here ds c) := kdcDiagnosis_known ds c hdown
    exact Goes.related hC hrelates hgo₂ hd rfl rfl rfl (hch.isCause hs) rfl (Nat.lt_succ_self 2)
  · exact Ensures.pure ⟨hgo, fun r hr => nomatch hr⟩

/-- A diagnosis is added as the cause. -/
theorem Goes.addCause {d : ReplDiagnosis} (hC : Admits C) (h : Goes t me here C b b₁)
    (hd : Known t me here d) (hrel : d.relatedTo = none) (hexp : d.explains = [])
    (hsev : severityOf d.code = .fail) (htier : (tier d.code).blt 3 = true) :
    Goes t me here C b (b₁.add d).2 ∧ IsCause (b₁.add d).2 3 (some (b₁.add d).1) := by
  refine ⟨h.add hd hrel hexp (hC.low htier), fun r hr => ?_⟩
  injection hr with hr
  subst hr
  exact add_hasCause b₁ d hsev (Nat.blt_eq.mp htier)

theorem localKeytab_goes (hC : Admits C) (hgo : Goes t me here C b b₁) :
    Ensures (localKeytab t here b₁) (fun r => Goes t me here C b r.2 ∧ IsCause r.2 3 r.1)
      Tame := by
  unfold localKeytab
  dsimp only
  split
  · refine (hashed_tame _).bind fun _ _ _ => ?_
    have hp : Proper none [⟨here, .keytab, ["local.keytab"], "ds-keytab-local", .here⟩] :=
      .link rfl (List.cons_ne_nil _ _) .nil
    refine (hgo.chain hC hp _ _ _).bind fun ⟨c, b₂⟩ _ ⟨hgo₂, _⟩ => ?_
    exact Ensures.pure (Goes.addCause hC hgo₂ (.plain rfl rfl rfl rfl) rfl rfl rfl rfl)
  · split
    · exact Ensures.pure ⟨hgo.add (.plain rfl rfl rfl rfl) rfl rfl (hC.low rfl), fun r hr => nomatch hr⟩
    · exact Ensures.pure ⟨hgo, fun r hr => nomatch hr⟩

theorem localStorageLow_goes (hC : Admits C) (hgo : Goes t me here C b b₁) :
    Goes t me here C b (localStorageLow t here b₁) := by
  unfold localStorageLow
  split
  · exact hgo.add (.plain rfl rfl rfl rfl) rfl rfl (hC.low rfl)
  · exact hgo

/-- The causes on this server are there. -/
structure Rooting (b : Builder) (roots : Roots) : Prop where
  ds : IsCause b 3 roots.ds
  kdc : IsCause b 3 roots.kdc
  keytab : IsCause b 3 roots.keytab

theorem IsCause.le {n m : Nat} {root : Option ReplDiagnosis} (h : IsCause b n root) (hnm : n ≤ m) :
    IsCause b m root := by
  intro r hr
  obtain ⟨x, hx, hkey, hsev, htier⟩ := h r hr
  exact ⟨x, hx, hkey, hsev, by omega⟩

theorem Rooting.mono {roots : Roots} (h : Rooting b roots) (hgo : Goes t me here C b b₁) :
    Rooting b₁ roots :=
  ⟨h.ds.mono hgo, h.kdc.mono hgo, h.keytab.mono hgo⟩

theorem localRoots_goes (hC : Admits C) (hrelates : C.relates) (b : Builder) :
    Ensures (localRoots t here b) (fun r => Goes t me here C b r.2 ∧ Rooting r.2 r.1) Tame := by
  unfold localRoots
  have hrefl : Goes t me here C b b := .refl
  refine (localStorage_goes hC hrefl).bind fun ⟨storage, b₁⟩ _ ⟨hgo₁, hs, hbad⟩ => ?_
  have hself₁ : Goes t me here C b₁ b₁ := .refl
  refine (localDs_goes hC hrelates hself₁ hs hbad).bind fun ⟨ds, b₂⟩ _ ⟨hgo₂, hds⟩ => ?_
  have hself₂ : Goes t me here C b₂ b₂ := .refl
  refine (localKdc_goes hC hrelates hself₂ hds).bind fun ⟨kdc, b₃⟩ _ ⟨hgo₃, hkdc⟩ => ?_
  have hself₃ : Goes t me here C b₃ b₃ := .refl
  refine (localKeytab_goes hC hself₃).bind fun ⟨keytab, b₄⟩ _ ⟨hgo₄, hkeytab⟩ => ?_
  have hself₄ : Goes t me here C b₄ b₄ := .refl
  have hgo₅ := localStorageLow_goes hC hself₄
  refine Ensures.pure ⟨?_, ?_, ?_, ?_⟩
  · exact hgo₁.trans (hgo₂.trans (hgo₃.trans (hgo₄.trans hgo₅)))
  · exact ((hds.mono hgo₃).mono (hgo₄.trans hgo₅)).le (by omega)
  · exact hkdc.mono (hgo₄.trans hgo₅)
  · exact hkeytab.mono hgo₅

end Local

/-! ## The clocks of a pair -/

section Pair

variable {t : Trace} {me : Value} {here : String} {C : Limits} {b b₁ : Builder}
  {a : Agreement}

/-- A diagnosis that is found by its code is a cause. -/
theorem get_hasCause {code : Code} {subject : String} {d : ReplDiagnosis} {n : Nat}
    (h : b.get code subject = some d) (hsev : severityOf code = .fail)
    (htier : (tier code).blt n = true) : b.HasCause d.key n := by
  obtain ⟨hmem, hkey⟩ := Builder.find?_some h
  have hcode : d.code = code := (keyOf_inj.mp hkey).1
  refine ⟨d, hmem, rfl, ?_, ?_⟩
  · rw [hcode]
    exact hsev
  · rw [hcode]
    exact Nat.blt_eq.mp htier

theorem localClockShown_tame (t : Trace) : Ensures (localClockShown t) (fun _ => True) Tame := by
  unfold localClockShown
  split
  · trivial
  · split
    · exact (fixed0_tame _).bind fun _ _ _ => Ensures.pure trivial
    · trivial

theorem skewLink_proper (a : Agreement) (measured : Record) :
    Proper none [skewLink me a (skewEvidence t measured)] :=
  .link rfl (List.cons_ne_nil _ _) .nil

theorem pair_skew_goes (hC : Admits C) (hgo : Goes t me here C b b₁) (off : Value) (viaChain : Bool) :
    Ensures (pair_skew t me b₁ a off viaChain)
      (fun r => Goes t me here C b r.2 ∧ IsCause r.2 3 (some r.1)) Tame := by
  unfold pair_skew
  split
  · rename_i existing hex
    refine ⟨hgo, fun r hr => ?_⟩
    injection hr with hr
    subst hr
    exact get_hasCause hex rfl rfl
  · refine (localClockShown_tame t).bind fun _ _ _ => ?_
    split
    · exact fun m => nofun
    · rename_i off' measured hoff
      refine (fixed0_tame off).bind fun _ _ _ => ?_
      have hknown : ∀ c, Known t me here (skewDiagnosis me a (skewEvidence t measured) c) :=
        fun c => .plain rfl rfl rfl rfl
      dsimp only
      split
      · exact Ensures.pure (Goes.addCause hC hgo (hknown none) rfl rfl rfl rfl)
      · have hp : Proper none [skewLink me a (skewEvidence t measured)] := skewLink_proper a measured
        refine (hgo.chain hC hp _ _ _).bind fun ⟨c, b₂⟩ _ ⟨hgo₂, _⟩ => ?_
        exact Ensures.pure (Goes.addCause hC hgo₂ (hknown (some c)) rfl rfl rfl rfl)

theorem noteSkew_goes (hC : Admits C) (hgo : Goes t me here C b b₁) :
    Ensures (noteSkew t me b₁ a) (fun r => Goes t me here C b r) Tame := by
  unfold noteSkew
  split
  · exact (pair_skew_goes hC hgo _ _).bind fun r _ h => Ensures.pure h.1
  · exact hgo

theorem clockDrift_goes (hC : Admits C) (hgo : Goes t me here C b b₁) :
    Ensures (clockDrift t me b₁ a) (fun r => Goes t me here C b r) Tame := by
  unfold clockDrift
  split
  · exact hgo
  · rename_i off measured hoff
    split
    · exact (pair_skew_goes hC hgo _ _).bind fun r _ h => Ensures.pure h.1
    · split
      · refine (fixed0_tame _).bind fun _ _ _ => ?_
        exact Ensures.pure (hgo.add (.plain rfl rfl rfl rfl) rfl rfl (hC.low rfl))
      · exact hgo

end Pair

/-! ## The chain of a Kerberos failure -/

section Kerberos

variable {t : Trace} {me realm : Value} {here : String} {C : Limits} {b b₁ : Builder}
  {a : Agreement} {links base : List Link} {ev : List String} {roots : Roots}

/-- A deepest proven link that is there, below a symptom. -/
def Rooted.Good (t : Trace) (me : Value) (here : String) (C : Limits) (b : Builder) (r : Rooted) : Prop :=
  Goes t me here C b r.2.2 ∧ IsCause r.2.2 3 r.1

/-- The links so far are proper, and end at `last`. -/
structure ProperTo (links : List Link) (last : Option Capability) : Prop where
  proper : Proper none links
  last : lastOf none links = last

theorem ProperTo.append {last : Option Capability} {more : List Link} (h : ProperTo links last)
    (hmore : Proper last more) : Proper none (links ++ more) :=
  h.proper.append (by rw [h.last]; exact hmore)

theorem IsCause.none : IsCause b 3 none := fun _ h => nomatch h

/-- The chain ends at the links there are. -/
theorem Goes.bounded {last : Option Capability} (hgo : Goes t me here C b b₁) (hC : Admits C)
    (hl : ProperTo links last) (subject : String) (handoff : Option Value) :
    Ensures (do
      let (c, b) ← b₁.chain subject links true handoff
      pure (none, c, b) : Except E Rooted) (Rooted.Good t me here C b) Tame := by
  refine (hgo.chain hC hl.proper _ _ _).bind fun ⟨c, b₂⟩ _ ⟨hgo₂, _⟩ => ?_
  exact Ensures.pure ⟨hgo₂, .none⟩

theorem kdcDownLinks_proper (hev : ev ++ ["local.kdc"] ≠ []) (roots : Roots) :
    Proper (some .kerberos) (kdcDownLinks me ev roots) := by
  unfold kdcDownLinks
  refine .link rfl hev ?_
  split
  · exact .link rfl (List.cons_ne_nil _ _) .nil
  · exact .nil

theorem noKdcChain_goes (hC : Admits C) (hgo : Goes t me here C b b₁)
    (hl : ProperTo links (some .kerberos)) (hroots : Rooting b₁ roots) :
    Ensures (noKdcChain me b₁ a links ev roots) (Rooted.Good t me here C b) Tame := by
  unfold noKdcChain
  split
  · rename_i kdc hkdc
    have hp := hl.append (@kdcDownLinks_proper me ev (List.concat_ne_nil _ _) roots)
    refine (hgo.chain hC hp _ _ _).bind fun ⟨c, b₂⟩ _ ⟨hgo₂, hch⟩ => ?_
    refine Ensures.pure ⟨hgo₂, ?_⟩
    dsimp only
    split
    · exact hch.isCause hroots.ds
    · rw [← hkdc]
      exact hch.isCause hroots.kdc
  · exact hgo.bounded hC hl _ _

theorem clockSkewChain_goes (hC : Admits C) (hgo : Goes t me here C b b₁)
    (hl : ProperTo links (some .kerberos)) :
    Ensures (clockSkewChain t me b₁ a links ev) (Rooted.Good t me here C b) Tame := by
  unfold clockSkewChain
  split
  · rename_i off measured hoff
    refine (fixed0_tame off).bind fun _ _ _ => ?_
    refine (pair_skew_goes hC hgo off true).bind fun ⟨root, b₂⟩ _ ⟨hgo₂, hroot⟩ => ?_
    have hmore : Proper (some .kerberos)
        [⟨a.pair me, .time, ev ++ [measured.stepId], "kerberos-clock-skew", .pair⟩] :=
      .link rfl (List.concat_ne_nil _ _) .nil
    have hp := hl.append hmore
    refine (hgo₂.chain hC hp _ _ _).bind fun ⟨c, b₃⟩ _ ⟨hgo₃, hch⟩ => ?_
    have hself : Goes t me here C b₃ b₃ := .refl
    exact Ensures.pure ⟨hgo₃.rest root.key c, (hch.isCause hroot).mono (hself.rest root.key c)⟩
  · exact hgo.bounded hC hl _ _

theorem serverNotFoundChain_goes (hC : Admits C) (hgo : Goes t me here C b b₁)
    (hl : ProperTo links (some .kerberos)) :
    Ensures (serverNotFoundChain t me realm b₁ a links ev) (Rooted.Good t me here C b) Tame := by
  unfold serverNotFoundChain
  split
  · rename_i habsent
    have hmore : Proper (some .kerberos) [⟨principalSubject realm a, .principal,
        ev ++ ["principals"], "kerberos-server-principal-absent", .directory⟩] :=
      .link rfl (List.concat_ne_nil _ _) .nil
    have hp := hl.append hmore
    refine (hgo.chain hC hp _ _ _).bind fun ⟨c, b₂⟩ _ ⟨hgo₂, _⟩ => ?_
    exact Ensures.pure (Goes.addCause hC hgo₂ (.plain rfl rfl rfl rfl (.ofPrincipal rfl rfl habsent))
      rfl rfl rfl rfl)
  · exact hgo.bounded hC hl _ _

theorem keytabLink_proper : Proper (some .kerberos) [keytabLink me ev] :=
  .link rfl (List.concat_ne_nil _ _) .nil

theorem credentialsChain_goes (hC : Admits C) (hgo : Goes t me here C b b₁)
    (hl : ProperTo links (some .kerberos)) (gs : Option Record) (hroots : Rooting b₁ roots) :
    Ensures (credentialsChain me b₁ a links ev gs roots) (Rooted.Good t me here C b) Tame := by
  have hp := hl.append (@keytabLink_proper me ev)
  unfold credentialsChain
  split
  · rename_i keytab hkeytab
    refine (hgo.chain hC hp _ _ _).bind fun ⟨c, b₂⟩ _ ⟨hgo₂, hch⟩ => ?_
    refine Ensures.pure ⟨hgo₂, ?_⟩
    rw [← hkeytab]
    exact hch.isCause hroots.keytab
  · split
    · refine (hgo.chain hC hp _ _ _).bind fun ⟨c, b₂⟩ _ ⟨hgo₂, _⟩ => ?_
      exact Ensures.pure (Goes.addCause hC hgo₂ (.plain rfl rfl rfl rfl) rfl rfl rfl rfl)
    · exact hgo.bounded hC hl _ _

theorem gssapi_chain_goes (hC : Admits C) (hgo : Goes t me here C b b₁)
    (hbase : ProperTo base (some .replication)) (eff : StatusClass) (gs : Option Record)
    (hroots : Rooting b₁ roots) :
    Ensures (gssapi_chain t me realm b₁ a eff base gs roots) (Rooted.Good t me here C b) Tame := by
  have hlink : Proper (some .replication)
      [⟨a.relKey me, .kerberos, evGssapi gs, "status-gssapi", .here⟩] :=
    .link rfl (List.cons_ne_nil _ _) .nil
  have hl : ProperTo (base ++ [⟨a.relKey me, .kerberos, evGssapi gs, "status-gssapi", .here⟩])
      (some .kerberos) := ⟨hbase.append hlink, lastOf_append _ _ _⟩
  unfold gssapi_chain
  dsimp only
  split
  · exact noKdcChain_goes hC hgo hl hroots
  · split
    · exact clockSkewChain_goes hC hgo hl
    · split
      · exact serverNotFoundChain_goes hC hgo hl
      · split
        · exact credentialsChain_goes hC hgo hl gs hroots
        · exact hgo.bounded hC hl _ _

end Kerberos

/-! ## The path to the peer -/

section Path

variable {t : Trace} {me : Value} {here : String} {C : Limits} {b b₁ : Builder}
  {a : Agreement} {base : List Link}

/-- The links before the path to the peer: none when only the checks of
now fail, else those of the symptom. -/
def BaseOf (now : Bool) (base : List Link) : Prop :=
  ProperTo base (if now then none else some .replication)

def PathFound.Good (t : Trace) (me : Value) (here : String) (C : Limits) (b : Builder) :
    PathFound → Prop
  | .cause root _ b' => Goes t me here C b b' ∧ IsCause b' 3 (some root)
  | .answers => True
  | .nothing => True

theorem tls_root_goes (hC : Admits C) (hgo : Goes t me here C b b₁) {last : Option Capability}
    (hbase : ProperTo base last) {ev : List String} (hev : ev ≠ []) {disc : String}
    (hdisc : (fits last disc .tls && !REFUSED_BIND.contains disc) = true) :
    Ensures (tls_root me b₁ a base ev disc)
      (fun r => Goes t me here C b r.2.2 ∧ IsCause r.2.2 3 (some r.1)) Tame := by
  unfold tls_root
  have hp : Proper none (base ++ [⟨a.pair me, .tls, ev, disc, .pair⟩]) :=
    hbase.append (.link hdisc hev .nil)
  refine (hgo.chain hC hp _ _ _).bind fun ⟨c, b₂⟩ _ ⟨hgo₂, _⟩ => ?_
  exact Ensures.pure (Goes.addCause hC hgo₂ (.plain rfl rfl rfl rfl) rfl rfl rfl rfl)

theorem unresolvedPath_goes (hC : Admits C) (hgo : Goes t me here C b b₁) {now : Bool}
    (hbase : BaseOf now base) (dns : Record) :
    Ensures (unresolvedPath me b₁ a base (PEER_DISC now) dns) (PathFound.Good t me here C b) Tame := by
  unfold unresolvedPath
  have hp : Proper none (base ++ [⟨a.pair me, .dns, [dns.stepId], (PEER_DISC now).dns, .here⟩]) := by
    refine hbase.append ?_
    cases now <;> exact .link rfl (List.cons_ne_nil _ _) .nil
  refine (hgo.chain hC hp _ _ _).bind fun ⟨c, b₂⟩ _ ⟨hgo₂, _⟩ => ?_
  exact Ensures.pure (Goes.addCause hC hgo₂ (.plain rfl rfl rfl rfl) rfl rfl rfl rfl)

theorem refusedPath_goes (hC : Admits C) (hgo : Goes t me here C b b₁) {now : Bool}
    (hbase : BaseOf now base) {ev : List String} (hev : ev ≠ []) :
    Ensures (refusedPath me b₁ a base (PEER_DISC now) ev) (PathFound.Good t me here C b) Tame := by
  unfold refusedPath
  have hp : Proper none (base ++ [⟨a.peerHere, .peerDs, ev, (PEER_DISC now).refused, .peer⟩]) := by
    refine hbase.append ?_
    cases now <;> exact .link rfl hev .nil
  refine (hgo.chain hC hp _ _ _).bind fun ⟨c, b₂⟩ _ ⟨hgo₂, _⟩ => ?_
  exact Ensures.pure (Goes.addCause hC hgo₂ (.plain rfl rfl rfl rfl) rfl rfl rfl rfl)

theorem unreachablePath_goes (hC : Admits C) (hgo : Goes t me here C b b₁) {now : Bool}
    (hbase : BaseOf now base) (rd prt https : Record) :
    Ensures (unreachablePath me b₁ a base (PEER_DISC now) rd prt https)
      (PathFound.Good t me here C b) Tame := by
  unfold unreachablePath
  have hp : Proper none (base ++
      [⟨a.peerHere, .peerDs, [rd.stepId], (PEER_DISC now).noanswer, .peer⟩,
        ⟨a.pair me, .network, [prt.stepId, https.stepId], "peer-unreachable", .pair⟩]) := by
    refine hbase.append ?_
    cases now <;>
      exact .link rfl (List.cons_ne_nil _ _) (.link rfl (List.cons_ne_nil _ _) .nil)
  refine (hgo.chain hC hp _ _ _).bind fun ⟨c, b₂⟩ _ ⟨hgo₂, _⟩ => ?_
  exact Ensures.pure (Goes.addCause hC hgo₂ (.plain rfl rfl rfl rfl) rfl rfl rfl rfl)

theorem silentPath_goes (hC : Admits C) (hgo : Goes t me here C b b₁) {now : Bool}
    (hbase : BaseOf now base) (isOpen : Bool) {ev : List String} (hev : ev ≠ []) :
    Ensures (silentPath me b₁ a base (PEER_DISC now) isOpen ev) (PathFound.Good t me here C b)
      Tame := by
  unfold silentPath
  have hp : Proper none (base ++ [⟨a.peerHere, .peerDs, ev, (PEER_DISC now).noanswer, .peer⟩]) := by
    refine hbase.append ?_
    cases now <;> exact .link rfl hev .nil
  refine (hgo.chain hC hp _ _ _).bind fun ⟨c, b₂⟩ _ ⟨hgo₂, _⟩ => ?_
  exact Ensures.pure (Goes.addCause hC hgo₂ (.plain rfl rfl rfl rfl) rfl rfl rfl rfl)

theorem noAnswerPath_goes (hC : Admits C) (hgo : Goes t me here C b b₁) {now : Bool}
    (hbase : BaseOf now base) (rd : Record) :
    Ensures (noAnswerPath t me b₁ a base now rd) (PathFound.Good t me here C b) Tame := by
  unfold noAnswerPath
  dsimp only
  split
  · split
    · exact refusedPath_goes hC hgo hbase (List.cons_ne_nil _ _)
    · split
      · exact unreachablePath_goes hC hgo hbase _ _ _
      · exact silentPath_goes hC hgo hbase _ (List.cons_ne_nil _ _)
  · exact silentPath_goes hC hgo hbase _ (List.concat_ne_nil _ _)

theorem peer_path_goes (hC : Admits C) (hgo : Goes t me here C b b₁) {now : Bool}
    (hbase : BaseOf now base) :
    Ensures (peer_path t me b₁ a base now) (PathFound.Good t me here C b) Tame := by
  unfold peer_path
  split
  · exact unresolvedPath_goes hC hgo hbase _
  · split
    · trivial
    · rename_i rd _
      split
      · trivial
      · trivial
      · trivial
      · trivial
      · split
        · have hdisc : (fits (if now then none else some .replication) (PEER_DISC now).tls .tls
              && !REFUSED_BIND.contains (PEER_DISC now).tls) = true := by
            cases now <;> rfl
          refine (tls_root_goes hC hgo hbase (List.cons_ne_nil _ _) hdisc).bind ?_
          rintro ⟨root, c, b₂⟩ - h
          exact Ensures.pure h
        · exact noAnswerPath_goes hC hgo hbase rd

theorem peer_now_goes (hC : Admits C) (hgo : Goes t me here C b b₁) :
    Ensures (peer_now t me b₁ a) (fun r => Goes t me here C b r) Tame := by
  unfold peer_now
  split
  · have hbase : BaseOf true [] := ⟨.nil, rfl⟩
    refine (peer_path_goes hC hgo hbase).bind fun r _ h => ?_
    cases r with
    | cause root c b₂ => exact Ensures.pure (h.1.restOnce root.key c)
    | answers => exact Ensures.pure hgo
    | nothing => exact Ensures.pure hgo
  · exact hgo

end Path

end IpaDiagnose.Replication
