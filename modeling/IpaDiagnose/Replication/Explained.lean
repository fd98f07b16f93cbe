import IpaDiagnose.Replication.Steps

/-!
# What explains what

A diagnosis names the one that explains it, and that one lists what it
explains. What is named is there, fails, and is nearer to a root; it
lists what names it. The converse, that what is listed names it, is kept
by every step but one: a diagnosis that is there already, with another
cause or none, is added again with a cause.
-/

namespace IpaDiagnose.Replication

open Relation (ReflTransGen TransGen)

/-- What is named is there: a failure nearer to a root, that lists what
names it; and what is listed is there. -/
structure Wired (ds : List ReplDiagnosis) : Prop where
  anchored : ∀ d ∈ ds, ∀ k, d.relatedTo = some k → ∃ r ∈ ds, r.key = k
    ∧ severityOf r.code = .fail ∧ tier r.code < tier d.code
  listed : ∀ r ∈ ds, ∀ k ∈ r.explains, ∃ d ∈ ds, d.key = k
  told : ∀ d ∈ ds, ∀ r ∈ ds, d.relatedTo = some r.key → d.key ∈ r.explains

/-- What is listed names the one that lists it. -/
def Backed (ds : List ReplDiagnosis) : Prop :=
  ∀ d ∈ ds, ∀ r ∈ ds, d.key ∈ r.explains → d.relatedTo = some r.key

/-! ## Changes that concern neither -/

/-- Each diagnosis of one list is, as far as this matters, one of the other. -/
def Alike (ds ds' : List ReplDiagnosis) : Prop :=
  ∀ d' ∈ ds', ∃ d ∈ ds, d'.key = d.key ∧ d'.code = d.code ∧ d'.relatedTo = d.relatedTo
    ∧ d'.explains = d.explains

theorem Wired.alike {ds ds' : List ReplDiagnosis} (h : Wired ds) (hback : Alike ds ds')
    (hforth : Alike ds' ds) : Wired ds' := by
  refine ⟨fun d' hd' k hk => ?_, fun r' hr' k hk => ?_, fun d' hd' r' hr' hrel => ?_⟩
  · obtain ⟨d, hd, -, hcode, hrel, -⟩ := hback d' hd'
    obtain ⟨r, hr, hkey, hsev, htier⟩ := h.anchored d hd k (by rw [← hrel, hk])
    obtain ⟨r', hr', hkey', hcode', -, -⟩ := hforth r hr
    exact ⟨r', hr', by rw [← hkey', hkey], by rw [← hcode', hsev],
      by rw [← hcode', hcode]; exact htier⟩
  · obtain ⟨r, hr, -, -, -, hexp⟩ := hback r' hr'
    obtain ⟨d, hd, hkey⟩ := h.listed r hr k (by rw [← hexp]; exact hk)
    obtain ⟨d', hd', hkey', -, -, -⟩ := hforth d hd
    exact ⟨d', hd', by rw [← hkey', hkey]⟩
  · obtain ⟨d, hd, hdkey, -, hdrel, -⟩ := hback d' hd'
    obtain ⟨r, hr, hrkey, -, -, hexp⟩ := hback r' hr'
    rw [hdkey, hexp]
    exact h.told d hd r hr (by rw [← hdrel, hrel, hrkey])

theorem Backed.alike {ds ds' : List ReplDiagnosis} (h : Backed ds) (hback : Alike ds ds') :
    Backed ds' := by
  intro d' hd' r' hr' hmem
  obtain ⟨d, hd, hdkey, -, hdrel, -⟩ := hback d' hd'
  obtain ⟨r, hr, hrkey, -, -, hexp⟩ := hback r' hr'
  rw [hdrel, hrkey]
  exact h d hd r hr (by rw [← hdkey, ← hexp]; exact hmem)

/-- A change that leaves the key, the cause and what is explained. -/
theorem alike_modify {b : Builder} {key : String} {f : ReplDiagnosis → ReplDiagnosis}
    (hf : ∀ d : ReplDiagnosis, d.Evolves (f d)) (hexp : ∀ d, (f d).explains = d.explains) :
    Alike b.diags (b.modify key f).diags ∧ Alike (b.modify key f).diags b.diags := by
  constructor
  · intro d' hd'
    obtain ⟨d, hd, rfl⟩ := Builder.mem_modify.mp hd'
    refine ⟨d, hd, ?_⟩
    split
    · exact ⟨(hf d).key, (hf d).code, (hf d).relatedTo, hexp d⟩
    · exact ⟨rfl, rfl, rfl, rfl⟩
  · intro d hd
    refine ⟨_, Builder.mem_modify.mpr ⟨d, hd, rfl⟩, ?_⟩
    split
    · exact ⟨(hf d).key.symm, (hf d).code.symm, (hf d).relatedTo.symm, (hexp d).symm⟩
    · exact ⟨rfl, rfl, rfl, rfl⟩

/-! ## Steps -/

section Steps

variable {b b' : Builder} {d : ReplDiagnosis} {root : String} {f : ReplDiagnosis → ReplDiagnosis}

/-- What is there after a diagnosis was added: what was there, or it. -/
theorem mem_add_alike {x' : ReplDiagnosis} (h : x' ∈ (b.add d).2.diags) :
    (∃ x ∈ b.diags, x'.key = x.key ∧ x'.code = x.code ∧ x'.relatedTo = x.relatedTo
      ∧ x'.explains = x.explains)
    ∨ (x' = d ∧ ∀ x ∈ b.diags, x.key ≠ d.key) := by
  rcases (Builder.add_evolves d).2 x' h with ⟨x, hx, hev, hexp, -⟩ | hnew
  · exact .inl ⟨x, hx, hev.key, hev.code, hev.relatedTo, hexp⟩
  · exact .inr hnew

theorem Wired.add (h : Wired b.diags) (hrel : d.relatedTo = none) (hexp : d.explains = []) :
    Wired (b.add d).2.diags := by
  refine ⟨fun x' hx' k hk => ?_, fun r' hr' k hk => ?_, fun x' hx' r' hr' hnames => ?_⟩
  · rcases mem_add_alike hx' with ⟨x, hx, -, hcode, hxrel, -⟩ | ⟨rfl, -⟩
    · obtain ⟨r, hr, hkey, hsev, htier⟩ := h.anchored x hx k (by rw [← hxrel, hk])
      obtain ⟨r', hr', hev⟩ := (Builder.add_evolves d).1 r hr
      exact ⟨r', hr', by rw [hev.key, hkey], by rw [hev.code, hsev],
        by rw [hev.code, hcode]; exact htier⟩
    · rw [hrel] at hk
      cases hk
  · rcases mem_add_alike hr' with ⟨r, hr, -, -, -, hrexp⟩ | ⟨rfl, -⟩
    · obtain ⟨x, hx, hkey⟩ := h.listed r hr k (by rw [← hrexp]; exact hk)
      obtain ⟨x', hx', hev⟩ := (Builder.add_evolves d).1 x hx
      exact ⟨x', hx', by rw [hev.key, hkey]⟩
    · rw [hexp] at hk
      cases hk
  · rcases mem_add_alike hx' with ⟨x, hx, hxkey, -, hxrel, -⟩ | ⟨rfl, -⟩
    · rcases mem_add_alike hr' with ⟨r, hr, hrkey, -, -, hrexp⟩ | ⟨rfl, hfresh⟩
      · rw [hxkey, hrexp]
        exact h.told x hx r hr (by rw [← hxrel, hnames, hrkey])
      · obtain ⟨r, hr, hkey, -⟩ := h.anchored x hx _ (by rw [← hxrel, hnames])
        exact absurd hkey (hfresh r hr)
    · rw [hrel] at hnames
      cases hnames

theorem Backed.add (h : Backed b.diags) (hw : Wired b.diags) (hexp : d.explains = []) :
    Backed (b.add d).2.diags := by
  intro x' hx' r' hr' hmem
  rcases mem_add_alike hr' with ⟨r, hr, hrkey, -, -, hrexp⟩ | ⟨rfl, -⟩
  · rcases mem_add_alike hx' with ⟨x, hx, hxkey, -, hxrel, -⟩ | ⟨rfl, hfresh⟩
    · rw [hxrel, hrkey]
      exact h x hx r hr (by rw [← hxkey, ← hrexp]; exact hmem)
    · obtain ⟨x, hx, hkey⟩ := hw.listed r hr _ (by rw [← hrexp]; exact hmem)
      exact absurd hkey (hfresh x hx)
  · rw [hexp] at hmem
    cases hmem

/-- A diagnosis after the one that explains others was told of one more. -/
theorem mem_explained {x' : ReplDiagnosis} (hf : Explains d.key f)
    (h : x' ∈ (b.modify root f).diags) : ∃ x ∈ b.diags, x'.key = x.key ∧ x'.code = x.code
      ∧ x'.relatedTo = x.relatedTo
      ∧ ∀ k, k ∈ x'.explains ↔ k ∈ x.explains ∨ (x.key = root ∧ k = d.key) := by
  obtain ⟨x, hx, rfl⟩ := Builder.mem_modify.mp h
  refine ⟨x, hx, ?_⟩
  split
  · rename_i hkey
    refine ⟨(hf.evolves x).key, (hf.evolves x).code, (hf.evolves x).relatedTo, fun k => ?_⟩
    rw [hf.mem x k]
    simp [hkey]
  · rename_i hkey
    exact ⟨rfl, rfl, rfl, fun k => by simp [hkey]⟩

theorem Wired.relate (h : Wired b.diags) (hrel : d.relatedTo = some root) (hexp : d.explains = [])
    (hroot : b.HasCause root (tier d.code)) (hf : Explains d.key f) :
    Wired ((b.add d).2.modify root f).diags := by
  have hforth : ∀ x ∈ b.diags, ∃ x' ∈ ((b.add d).2.modify root f).diags, x.Evolves x' := by
    intro x hx
    obtain ⟨x₁, hx₁, hev₁⟩ := (Builder.add_evolves d).1 x hx
    obtain ⟨x₂, hx₂, hev₂⟩ := (Builder.modify_evolves hf.evolves).1 x₁ hx₁
    exact ⟨x₂, hx₂, hev₁.trans hev₂⟩
  refine ⟨fun x' hx' k hk => ?_, fun r' hr' k hk => ?_, fun x' hx' r' hr' hnames => ?_⟩
  · obtain ⟨x₁, hx₁, -, hcode₁, hrel₁, -⟩ := mem_explained hf hx'
    rcases mem_add_alike hx₁ with ⟨x, hx, -, hcode, hxrel, -⟩ | ⟨rfl, -⟩
    · obtain ⟨r, hr, hkey, hsev, htier⟩ := h.anchored x hx k (by rw [← hxrel, ← hrel₁, hk])
      obtain ⟨r', hr', hev⟩ := hforth r hr
      exact ⟨r', hr', by rw [hev.key, hkey], by rw [hev.code, hsev],
        by rw [hev.code, hcode₁, hcode]; exact htier⟩
    · rw [hrel₁, hrel] at hk
      injection hk with hk
      subst hk
      obtain ⟨r, hr, hkey, hsev, htier⟩ := hroot
      obtain ⟨r', hr', hev⟩ := hforth r hr
      exact ⟨r', hr', by rw [hev.key, hkey], by rw [hev.code, hsev],
        by rw [hev.code, hcode₁]; exact htier⟩
  · obtain ⟨r₁, hr₁, -, -, -, hmem⟩ := mem_explained hf hr'
    rcases (hmem k).mp hk with hk | ⟨-, rfl⟩
    · rcases mem_add_alike hr₁ with ⟨r, hr, -, -, -, hrexp⟩ | ⟨rfl, -⟩
      · obtain ⟨x, hx, hkey⟩ := h.listed r hr k (by rw [← hrexp]; exact hk)
        obtain ⟨x', hx', hev⟩ := hforth x hx
        exact ⟨x', hx', by rw [hev.key, hkey]⟩
      · rw [hexp] at hk
        cases hk
    · obtain ⟨hadded, hkey⟩ := b.add_spec d
      obtain ⟨x', hx', hev⟩ := (Builder.modify_evolves hf.evolves).1 _ hadded
      exact ⟨x', hx', by rw [hev.key, hkey]⟩
  · obtain ⟨x₁, hx₁, hxkey₁, -, hxrel₁, -⟩ := mem_explained hf hx'
    obtain ⟨r₁, hr₁, hrkey₁, -, -, hmem⟩ := mem_explained hf hr'
    rw [hmem, hxkey₁]
    rcases mem_add_alike hx₁ with ⟨x, hx, hxkey, -, hxrel, -⟩ | ⟨rfl, -⟩
    · rcases mem_add_alike hr₁ with ⟨r, hr, hrkey, -, -, hrexp⟩ | ⟨rfl, hfresh⟩
      · left
        rw [hxkey, hrexp]
        exact h.told x hx r hr (by rw [← hxrel, ← hxrel₁, hnames, hrkey₁, hrkey])
      · obtain ⟨r, hr, hkey, -⟩ := h.anchored x hx _ (by rw [← hxrel, ← hxrel₁, hnames])
        exact absurd (hkey.trans hrkey₁) (hfresh r hr)
    · rw [hxrel₁, hrel] at hnames
      injection hnames with hnames
      exact .inr ⟨by rw [← hrkey₁, hnames], rfl⟩

/-- The cause a diagnosis is added with is the one it has. -/
def Agrees (b : Builder) (d : ReplDiagnosis) : Prop :=
  ∀ x ∈ b.diags, x.key = d.key → x.relatedTo = d.relatedTo

theorem Backed.relate (h : Backed b.diags) (hw : Wired b.diags) (hrel : d.relatedTo = some root)
    (hexp : d.explains = []) (hagrees : Agrees b d) (hf : Explains d.key f) :
    Backed ((b.add d).2.modify root f).diags := by
  intro x' hx' r' hr' hmem
  obtain ⟨x₁, hx₁, hxkey₁, -, hxrel₁, -⟩ := mem_explained hf hx'
  obtain ⟨r₁, hr₁, hrkey₁, -, -, hlists⟩ := mem_explained hf hr'
  rw [hlists, hxkey₁] at hmem
  rw [hxrel₁, hrkey₁]
  rcases hmem with hmem | ⟨hroot, hkey⟩
  · rcases mem_add_alike hr₁ with ⟨r, hr, hrkey, -, -, hrexp⟩ | ⟨rfl, -⟩
    · rcases mem_add_alike hx₁ with ⟨x, hx, hxkey, -, hxrel, -⟩ | ⟨rfl, hfresh⟩
      · rw [hxrel, hrkey]
        exact h x hx r hr (by rw [← hxkey, ← hrexp]; exact hmem)
      · obtain ⟨x, hx, hkey⟩ := hw.listed r hr _ (by rw [← hrexp]; exact hmem)
        exact absurd hkey (hfresh x hx)
    · rw [hexp] at hmem
      cases hmem
  · rcases mem_add_alike hx₁ with ⟨x, hx, hxkey, -, hxrel, -⟩ | ⟨rfl, -⟩
    · rw [hxrel, hroot, hagrees x hx (by rw [← hxkey, hkey]), hrel]
    · rw [hroot, hrel]

/-- A diagnosis that has another cause, or none, is listed by the wrong one. -/
theorem not_backed_relate (hrel : d.relatedTo = some root)
    (hroot : b.HasCause root (tier d.code)) (hdis : ¬Agrees b d) (hf : Explains d.key f) :
    ¬Backed ((b.add d).2.modify root f).diags := by
  intro h
  unfold Agrees at hdis
  push Not at hdis
  obtain ⟨x, hx, hkey, hne⟩ := hdis
  obtain ⟨x₁, hx₁, hev₁⟩ := (Builder.add_evolves d).1 x hx
  obtain ⟨x₂, hx₂, hev₂⟩ := (@Builder.modify_evolves (b.add d).2 root f hf.evolves).1 x₁ hx₁
  obtain ⟨r, hr, hrkey, -⟩ := hroot
  obtain ⟨r₁, hr₁, hrev₁⟩ := (Builder.add_evolves d).1 r hr
  have hr₂ : f r₁ ∈ ((b.add d).2.modify root f).diags :=
    Builder.mem_modify.mpr ⟨r₁, hr₁, (if_pos (by rw [hrev₁.key, hrkey])).symm⟩
  have hlists : x₂.key ∈ (f r₁).explains := by
    rw [hf.mem, hev₂.key, hev₁.key, hkey]
    exact .inr rfl
  have hnames := h x₂ hx₂ (f r₁) hr₂ hlists
  rw [hev₂.relatedTo, hev₁.relatedTo, (hf.evolves r₁).key, hrev₁.key, hrkey, ← hrel] at hnames
  exact hne hnames

variable {P : ReplDiagnosis → Prop} {C : Chain → Prop}

theorem Step.wired (h : Step P C b b') (hw : Wired b.diags) : Wired b'.diags := by
  cases h with
  | add hP hrel hexp => exact hw.add hrel hexp
  | chain hC => exact hw
  | touch key hf =>
      obtain ⟨hback, hforth⟩ := @alike_modify b key _ hf.evolves hf.explains
      exact hw.alike hback hforth
  | relate hP hrel hexp hroot hf => exact hw.relate hrel hexp hroot hf

theorem Runs.wired (h : Runs P C b b') (hw : Wired b.diags) : Wired b'.diags := by
  induction h with
  | refl => exact hw
  | tail _ hstep ih => exact hstep.wired ih

/-- Steps that relate nothing leave what is listed as it is. -/
theorem Runs.backed (h : Runs P C b b') (hP : ∀ d, P d → d.relatedTo = none)
    (hw : Wired b.diags) (hb : Backed b.diags) : Backed b'.diags := by
  induction h with
  | refl => exact hb
  | tail hrun hstep ih =>
      have hwired := Runs.wired hrun hw
      cases hstep with
      | add hd hrel hexp => exact ih.add hwired hexp
      | chain hC => exact ih
      | touch key hf => exact ih.alike (alike_modify hf.evolves hf.explains).1
      | relate hd hrel hexp hroot hf =>
          rw [hP _ hd] at hrel
          cases hrel

/-- What is listed by the wrong one stays so. -/
theorem Runs.not_backed (h : Runs P C b b') (hb : ¬Backed b.diags) : ¬Backed b'.diags := by
  intro hb'
  refine hb fun d hd r hr hmem => ?_
  obtain ⟨d', hd', hdev⟩ := h.evolves d hd
  obtain ⟨r', hr', hrev⟩ := h.evolves r hr
  have hnames := hb' d' hd' r' hr' (by rw [hdev.key]; exact hrev.explains hmem)
  rw [hdev.relatedTo, hrev.key] at hnames
  exact hnames

end Steps

/-! ## Following what explains -/

/-- One diagnosis is explained by another. -/
def ExplainedBy (ds : List ReplDiagnosis) (d r : ReplDiagnosis) : Prop :=
  r ∈ ds ∧ d.relatedTo = some r.key

/-- Every step leads nearer to a root. -/
def Descends (ds : List ReplDiagnosis) : Prop :=
  ∀ d ∈ ds, ∀ r ∈ ds, d.relatedTo = some r.key → tier r.code < tier d.code

theorem no_cycle {ds : List ReplDiagnosis} (h : Descends ds) {d : ReplDiagnosis} (hd : d ∈ ds) :
    ¬TransGen (ExplainedBy ds) d d := by
  have hlt : ∀ r, TransGen (ExplainedBy ds) d r → r ∈ ds ∧ tier r.code < tier d.code := by
    intro r hr
    induction hr with
    | single hstep => exact ⟨hstep.1, h d hd _ hstep.1 hstep.2⟩
    | tail _ hstep ih => exact ⟨hstep.1, (h _ ih.1 _ hstep.1 hstep.2).trans ih.2⟩
  exact fun hcycle => absurd (hlt d hcycle).2 (Nat.lt_irrefl _)

/-- The causes end at a failure that nothing explains. -/
theorem ends_at_root {ds : List ReplDiagnosis}
    (h : ∀ d ∈ ds, ∀ k, d.relatedTo = some k → ∃ r ∈ ds, r.key = k ∧ r.severity = .fail
      ∧ tier r.code < tier d.code) {d : ReplDiagnosis} (hd : d ∈ ds) (hrel : d.relatedTo ≠ none) :
    ∃ r, TransGen (ExplainedBy ds) d r ∧ r.severity = .fail ∧ r.relatedTo = none := by
  induction hn : tier d.code using Nat.strong_induction_on generalizing d with
  | _ n ih =>
      obtain ⟨k, hk⟩ := Option.ne_none_iff_exists'.mp hrel
      obtain ⟨r, hr, rfl, hsev, htier⟩ := h d hd k hk
      have hstep : ExplainedBy ds d r := ⟨hr, hk⟩
      by_cases hend : r.relatedTo = none
      · exact ⟨r, .single hstep, hsev, hend⟩
      · obtain ⟨r', hr', hsev', hend'⟩ := ih (tier r.code) (by omega) hr hend rfl
        exact ⟨r', .trans (.single hstep) hr', hsev', hend'⟩

end IpaDiagnose.Replication
