import IpaDiagnose.Resolution.Gates

/-!
# What an offered fix stands for

A resolution is for the diagnosis it was asked for. If it offers a fix,
there is a record of it for `verify`, the catalogue has a procedure for
the diagnosis, and every value the procedure takes from the diagnosis
validated as a value of its type.
-/

namespace IpaDiagnose.Resolver

open Py (Value Dict Exc)
open Result

variable {σ : Type} {sha256 : String → String} {p : Procedure} {d : Diagnosis}
  {env : Option EnvironmentInfo} {runner : Runner σ} {s s' : σ}

/-! ## A resolution is for its diagnosis -/

theorem offer_id {ev : Evidence} {r out : Resolution} (h : offer sha256 p d ev r = .ok out) :
    out.diagnosisId = r.diagnosisId := by
  unfold offer at h
  split at h
  · obtain rfl := Except.ok.inj h
    rfl
  · cases h
  · split at h
    · obtain rfl := Except.ok.inj h
      rfl
    · obtain ⟨target, -, h⟩ := bind_ok.mp h
      cases target with
      | some target =>
          obtain rfl := pure_ok.mp h
          rfl
      | none =>
          obtain rfl := pure_ok.mp h
          rfl

theorem decideFix_id {ev : Evidence} {r out : Resolution}
    (h : decideFix sha256 p d ev r = .ok out) : out.diagnosisId = r.diagnosisId := by
  unfold decideFix at h
  split at h
  · obtain rfl := Except.ok.inj h
    rfl
  · obtain ⟨g, -, h⟩ := bind_ok.mp h
    cases g with
    | withhold reasons =>
        obtain rfl := pure_ok.mp h
        rfl
    | pass a =>
        obtain ⟨kept, more⟩ := a
        dsimp only at h
        split at h
        · obtain rfl := pure_ok.mp h
          rfl
        · obtain ⟨prs, -, h⟩ := bind_ok.mp h
          split at h
          · obtain rfl := pure_ok.mp h
            rfl
          · exact (offer_id h).trans rfl

theorem resolveProcedure_id {r : Resolution}
    (h : resolveProcedure sha256 p d env runner s = .ok (r, s')) :
    r.diagnosisId = d.diagnosisId := by
  unfold resolveProcedure at h
  dsimp only at h
  split at h
  · obtain ⟨rfl, -⟩ := Prod.mk.inj (Except.ok.inj h)
    rfl
  · obtain ⟨⟨bound, reasons⟩, -, h⟩ := bind_ok.mp h
    cases bound with
    | none =>
        obtain ⟨rfl, -⟩ := Prod.mk.inj (pure_ok.mp h)
        rfl
    | some bound =>
        obtain ⟨why, -, h⟩ := bind_ok.mp h
        cases why with
        | some why =>
            obtain ⟨rfl, -⟩ := Prod.mk.inj (pure_ok.mp h)
            rfl
        | none =>
            obtain ⟨prog, -, h⟩ := bind_ok.mp h
            cases prog with
            | stuck why ses =>
                obtain ⟨rfl, -⟩ := Prod.mk.inj (pure_ok.mp h)
                rfl
            | done ev ses =>
                obtain ⟨out, hout, h⟩ := bind_ok.mp h
                obtain ⟨rfl, -⟩ := Prod.mk.inj (pure_ok.mp h)
                exact decideFix_id hout

/-- A fix that is shown has a record, and its values were read from the diagnosis. -/
theorem resolveProcedure_offered {r : Resolution}
    (h : resolveProcedure sha256 p d env runner s = .ok (r, s')) (hr : r.status = .offered) :
    r.baseline.isSome = true
      ∧ ∃ bound reasons, readBindings p.bindings d.bindings = .ok (some bound, reasons) := by
  rcases resolveProcedure_cases h with hrefused | ⟨found, left, r₀, hgated, hoffer⟩
  · rw [hrefused.2.1] at hr
    cases hr
  · obtain ⟨bound, reasons, hbound, -⟩ := hgated.bindings
    refine ⟨?_, bound, reasons, hbound⟩
    cases offer_cases hgated.bare hgated.withheld hoffer with
    | unknown why out hrender hout =>
        rw [hout.2.1] at hr
        cases hr
    | noStep fix hrender hsteps =>
        have hw := hgated.withheld
        rw [show r₀.status = .offered from hr] at hw
        cases hw
    | contradicted fix out hrender hsteps hout =>
        rw [hout.2.1] at hr
        cases hr
    | shown fix hrender hsteps hagree => rfl

theorem resolveDiagnosis_id {cat : List Entry} {r : Resolution}
    (h : resolveDiagnosis sha256 cat d env runner s = .ok (some r, s')) :
    r.diagnosisId = d.diagnosisId := by
  unfold resolveDiagnosis at h
  split at h
  · cases (Prod.mk.inj (Except.ok.inj h)).1
  · split at h
    · cases (Prod.mk.inj (Except.ok.inj h)).1
    · split at h
      · cases (Prod.mk.inj (Except.ok.inj h)).1
      · obtain ⟨hr, -⟩ := Prod.mk.inj (Except.ok.inj h)
        obtain rfl := Option.some.inj hr
        rfl
      · obtain ⟨⟨r', t⟩, hproc, h⟩ := bind_ok.mp h
        obtain ⟨hr, -⟩ := Prod.mk.inj (pure_ok.mp h)
        obtain rfl := Option.some.inj hr
        exact resolveProcedure_id hproc

theorem resolveDiagnosis_offered {cat : List Entry} {r : Resolution}
    (h : resolveDiagnosis sha256 cat d env runner s = .ok (some r, s')) (hr : r.status = .offered) :
    r.baseline.isSome = true ∧ ∃ key p bound reasons, d.resolutionKey = some key
      ∧ selected cat key d.variant = some (.procedure p)
      ∧ readBindings p.bindings d.bindings = .ok (some bound, reasons) := by
  unfold resolveDiagnosis at h
  split at h
  · cases (Prod.mk.inj (Except.ok.inj h)).1
  · rename_i key hkey
    split at h
    · cases (Prod.mk.inj (Except.ok.inj h)).1
    · split at h
      · cases (Prod.mk.inj (Except.ok.inj h)).1
      · obtain ⟨hr', -⟩ := Prod.mk.inj (Except.ok.inj h)
        obtain rfl := Option.some.inj hr'
        cases hr
      · rename_i p hselected
        obtain ⟨⟨r', t⟩, hproc, h⟩ := bind_ok.mp h
        obtain ⟨hr', -⟩ := Prod.mk.inj (pure_ok.mp h)
        obtain rfl := Option.some.inj hr'
        obtain ⟨hbase, bound, reasons, hbound⟩ := resolveProcedure_offered hproc hr
        exact ⟨hbase, key, p, bound, reasons, hkey, hselected, hbound⟩

/-! ## Values that were read -/

/-- Every binding that is no list had a value that validates. -/
theorem validate_of_readSpecs {given : Dict} : ∀ {specs : List (String × BindingSpec)}
    {bound : Bound} {reasons : List String}, readSpecs given specs = .ok (some bound, reasons) →
      ∀ name spec, (name, spec) ∈ specs → spec.type ≠ "list" →
        ∃ v, (T.validate spec.type (field given name) : Except E (Option String)) = .ok (some v) := by
  intro specs
  induction specs with
  | nil => exact fun _ _ _ h => nomatch h
  | cons first rest ih =>
      intro bound reasons h name spec hmem htype
      obtain ⟨name', spec'⟩ := first
      rw [readSpecs] at h
      split at h
      · rename_i hlist
        obtain ⟨⟨items, why⟩, -, h⟩ := bind_ok.mp h
        obtain ⟨⟨more, why'⟩, hrest, h⟩ := bind_ok.mp h
        obtain ⟨hmap, -⟩ := Prod.mk.inj (pure_ok.mp h)
        obtain ⟨b, hb, -⟩ := Option.map_eq_some_iff.mp hmap
        obtain rfl : more = some b := hb
        rcases List.mem_cons.mp hmem with heq | hmem
        · obtain ⟨rfl, rfl⟩ := Prod.mk.inj heq
          exact absurd hlist htype
        · exact ih hrest name spec hmem htype
      · obtain ⟨v, hv, h⟩ := bind_ok.mp h
        cases v with
        | none => cases (Prod.mk.inj (pure_ok.mp h)).1
        | some v =>
            obtain ⟨⟨more, why'⟩, hrest, h⟩ := bind_ok.mp h
            obtain ⟨hmap, -⟩ := Prod.mk.inj (pure_ok.mp h)
            obtain ⟨b, hb, -⟩ := Option.map_eq_some_iff.mp hmap
            obtain rfl : more = some b := hb
            rcases List.mem_cons.mp hmem with heq | hmem
            · obtain ⟨rfl, rfl⟩ := Prod.mk.inj heq
              exact ⟨v, hv⟩
            · exact ih hrest name spec hmem htype

theorem validate_of_readBindings {given : Dict} {specs : List (String × BindingSpec)}
    {bound : Bound} {reasons : List String}
    (h : readBindings specs given = .ok (some bound, reasons)) {name : String} {spec : BindingSpec}
    (hmem : (name, spec) ∈ specs) (htype : spec.type ≠ "list") :
    ∃ v, (T.validate spec.type (field given name) : Except E (Option String)) = .ok (some v) := by
  obtain ⟨⟨b, why⟩, hspecs, h⟩ := bind_ok.mp h
  cases b with
  | none => cases (Prod.mk.inj (pure_ok.mp h)).1
  | some b => exact validate_of_readSpecs hspecs name spec hmem htype

end IpaDiagnose.Resolver
