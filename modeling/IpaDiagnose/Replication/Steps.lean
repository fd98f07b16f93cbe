import Mathlib.Data.List.Dedup
import Mathlib.Logic.Relation
import IpaDiagnose.Replication.Roles

/-!
# What a diagnosis does to the builder

Every function of the diagnosis works in four steps: it adds a diagnosis
nothing explains, adds a chain, rests a diagnosis on a chain, or adds a
diagnosis together with the link to what explains it. A property of the
steps is a property of the whole; the functions themselves are looked
into once.
-/

namespace IpaDiagnose.Replication

open Relation (ReflTransGen)

/-! ## Codes and what they say -/

def severityOf : Code → Severity
  | .dsKeytabExposed | .dsStorageLow | .agreementDisabled | .longRunningSession | .pairClockDrift
  | .replicationTransient | .replicationNotReproduced | .segmentWithoutAgreement
  | .agreementWithoutSegment | .ruvElementWithoutServer | .localNtpNotSynchronized => .warn
  | _ => .fail

def kindsOf : Code → List (Option Kind)
  | .replicationTransient | .replicationNotReproduced | .longRunningSession => [some .transient]
  | .segmentWithoutAgreement | .agreementWithoutSegment => [some .contradicting]
  | .replicationFailing => [none, some .undiagnosed]
  | .evidenceUnusable => [some .undiagnosed]
  | _ => [none]

/-- How far a diagnosis is from a root: what explains it has a lower tier. -/
def tier : Code → Nat
  | .replicationFailing | .reverseReplicationFailing => 3
  | .localKdcNotRunning => 2
  | .localDsNotRunning => 1
  | _ => 0

/-- Severity and kind are the code's. -/
structure ReplDiagnosis.Coded (d : ReplDiagnosis) : Prop where
  severity : d.severity = severityOf d.code
  kind : d.kind ∈ kindsOf d.code

/-! ## Looking diagnoses up -/

namespace Builder

variable {b : Builder} {d x : ReplDiagnosis} {key : String}

theorem find?_some (h : b.find? key = some d) : d ∈ b.diags ∧ d.key = key :=
  ⟨List.mem_of_find?_eq_some h, by simpa using List.find?_some h⟩

theorem find?_none : b.find? key = none ↔ ∀ d ∈ b.diags, d.key ≠ key := by
  simp [find?]

@[simp] theorem modify_chains (f : ReplDiagnosis → ReplDiagnosis) :
    (b.modify key f).chains = b.chains := rfl

@[simp] theorem add_chains (b : Builder) (d : ReplDiagnosis) : (b.add d).2.chains = b.chains := by
  unfold add
  split <;> rfl

theorem mem_modify {f : ReplDiagnosis → ReplDiagnosis} :
    x ∈ (b.modify key f).diags ↔ ∃ y ∈ b.diags, x = if y.key = key then f y else y := by
  simp only [modify, List.mem_map]
  constructor
  · rintro ⟨y, hy, rfl⟩
    exact ⟨y, hy, rfl⟩
  · rintro ⟨y, hy, rfl⟩
    exact ⟨y, hy, rfl⟩

/-- The keys are kept by a change that keeps each key. -/
theorem modify_keys {f : ReplDiagnosis → ReplDiagnosis} (hf : ∀ d, (f d).key = d.key) :
    (b.modify key f).diags.map ReplDiagnosis.key = b.diags.map ReplDiagnosis.key := by
  rw [modify, List.map_map]
  refine List.map_congr_left fun d _ => ?_
  simp only [Function.comp]
  split
  · exact hf d
  · rfl

/-- A diagnosis that is added is there, under its key. -/
theorem add_spec (b : Builder) (d : ReplDiagnosis) :
    (b.add d).1 ∈ (b.add d).2.diags ∧ (b.add d).1.key = d.key := by
  unfold add
  split
  · rename_i old hold
    obtain ⟨hmem, hkey⟩ := find?_some hold
    refine ⟨mem_modify.mpr ⟨old, hmem, ?_⟩, hkey⟩
    rw [if_pos hkey]
  · exact ⟨List.mem_append_right _ (List.mem_singleton_self _), rfl⟩

end Builder

/-! ## Steps -/

/-- What of a diagnosis never changes. -/
def ReplDiagnosis.fixed (d : ReplDiagnosis) : ReplDiagnosis :=
  { d with confidence := .high, evidence := [], chainIds := [], explains := [] }

/-- A change that only concerns the chains a diagnosis rests on, or how
sure it is. -/
structure Touches (f : ReplDiagnosis → ReplDiagnosis) : Prop where
  fixed : ∀ d, (f d).fixed = d.fixed
  evidence : ∀ d, (f d).evidence = d.evidence
  explains : ∀ d, (f d).explains = d.explains

/-- A change that only adds a key to those explained. -/
structure Explains (key : String) (f : ReplDiagnosis → ReplDiagnosis) : Prop where
  fixed : ∀ d, (f d).fixed = d.fixed
  evidence : ∀ d, (f d).evidence = d.evidence
  mem : ∀ d k, k ∈ (f d).explains ↔ k ∈ d.explains ∨ k = key

/-- A failure that can explain diagnoses of a tier. -/
def Builder.HasCause (b : Builder) (root : String) (above : Nat) : Prop :=
  ∃ r ∈ b.diags, r.key = root ∧ severityOf r.code = .fail ∧ tier r.code < above

inductive Step (P : ReplDiagnosis → Prop) (C : Chain → Prop) : Builder → Builder → Prop where
  | add {b : Builder} {d : ReplDiagnosis} (h : P d) (hrel : d.relatedTo = none)
      (hexp : d.explains = []) : Step P C b (b.add d).2
  | chain {b : Builder} {c : Chain} (h : C c) : Step P C b { b with chains := b.chains ++ [c] }
  | touch {b : Builder} {f : ReplDiagnosis → ReplDiagnosis} (key : String) (h : Touches f) :
      Step P C b (b.modify key f)
  | relate {b : Builder} {d : ReplDiagnosis} {root : String} {f : ReplDiagnosis → ReplDiagnosis}
      (h : P d) (hrel : d.relatedTo = some root) (hexp : d.explains = [])
      (hroot : b.HasCause root (tier d.code)) (hf : Explains d.key f) :
      Step P C b ((b.add d).2.modify root f)

/-- Any number of steps. -/
abbrev Runs (P : ReplDiagnosis → Prop) (C : Chain → Prop) : Builder → Builder → Prop :=
  ReflTransGen (Step P C)

/-- A diagnosis as it is later on. -/
structure ReplDiagnosis.Evolves (d d' : ReplDiagnosis) : Prop where
  fixed : d'.fixed = d.fixed
  explains : d.explains ⊆ d'.explains
  evidence : d.evidence ⊆ d'.evidence

namespace ReplDiagnosis.Evolves

variable {d d' d'' : ReplDiagnosis}

theorem refl (d : ReplDiagnosis) : d.Evolves d :=
  ⟨rfl, List.Subset.refl _, List.Subset.refl _⟩

theorem trans (h : d.Evolves d') (h' : d'.Evolves d'') : d.Evolves d'' :=
  ⟨h'.fixed.trans h.fixed, List.Subset.trans h.explains h'.explains,
    List.Subset.trans h.evidence h'.evidence⟩

theorem code (h : d.Evolves d') : d'.code = d.code := by
  have := congrArg ReplDiagnosis.code h.fixed
  exact this

theorem subject (h : d.Evolves d') : d'.subject = d.subject := by
  have := congrArg ReplDiagnosis.subject h.fixed
  exact this

theorem severity (h : d.Evolves d') : d'.severity = d.severity := by
  have := congrArg ReplDiagnosis.severity h.fixed
  exact this

theorem kind (h : d.Evolves d') : d'.kind = d.kind := by
  have := congrArg ReplDiagnosis.kind h.fixed
  exact this

theorem relatedTo (h : d.Evolves d') : d'.relatedTo = d.relatedTo := by
  have := congrArg ReplDiagnosis.relatedTo h.fixed
  exact this

theorem resolutionKey (h : d.Evolves d') : d'.resolutionKey = d.resolutionKey := by
  have := congrArg ReplDiagnosis.resolutionKey h.fixed
  exact this

theorem key (h : d.Evolves d') : d'.key = d.key := by
  rw [ReplDiagnosis.key, ReplDiagnosis.key, h.code, h.subject]

end ReplDiagnosis.Evolves

theorem Touches.evolves {f : ReplDiagnosis → ReplDiagnosis} (h : Touches f) (d : ReplDiagnosis) :
    d.Evolves (f d) := by
  refine ⟨h.fixed d, ?_, ?_⟩
  · rw [h.explains d]
    exact List.Subset.refl _
  · rw [h.evidence d]
    exact List.Subset.refl _

/-- Resting a diagnosis on a chain. -/
theorem touches_rest (c : Chain) :
    Touches fun d => { d with chainIds := d.chainIds ++ [c.chainId] } :=
  ⟨fun _ => rfl, fun _ => rfl, fun _ => rfl⟩

theorem Explains.evolves {key : String} {f : ReplDiagnosis → ReplDiagnosis} (h : Explains key f)
    (d : ReplDiagnosis) : d.Evolves (f d) := by
  refine ⟨h.fixed d, fun k hk => (h.mem d k).mpr (.inl hk), ?_⟩
  rw [h.evidence d]
  exact List.Subset.refl _

theorem mem_evidenceUnion {xs ys : List String} {x : String} :
    x ∈ Builder.evidenceUnion xs ys ↔ x ∈ xs ∨ x ∈ ys := by
  simp [Builder.evidenceUnion, List.mem_insertionSort, List.mem_dedup]

theorem evolves_mergeEvidence (evidence : List String) (d : ReplDiagnosis) :
    d.Evolves (Builder.mergeEvidence evidence d) :=
  ⟨rfl, List.Subset.refl _, fun _ hx => mem_evidenceUnion.mpr (.inl hx)⟩

/-! ## What a step makes of the diagnoses -/

namespace Builder

variable {b : Builder}

/-- A change that evolves diagnoses leaves every one there, as it is then. -/
theorem modify_evolves {key : String} {f : ReplDiagnosis → ReplDiagnosis}
    (hf : ∀ d : ReplDiagnosis, d.Evolves (f d)) :
    (∀ d ∈ b.diags, ∃ d' ∈ (b.modify key f).diags, d.Evolves d')
      ∧ ∀ d' ∈ (b.modify key f).diags, ∃ d ∈ b.diags, d.Evolves d'
        ∧ (d' = d ∨ (d.key = key ∧ d' = f d)) := by
  constructor
  · intro d hd
    refine ⟨_, mem_modify.mpr ⟨d, hd, rfl⟩, ?_⟩
    split
    · exact hf d
    · exact .refl d
  · intro d' hd'
    obtain ⟨d, hd, rfl⟩ := mem_modify.mp hd'
    refine ⟨d, hd, ?_⟩
    split
    · rename_i hkey
      exact ⟨hf d, .inr ⟨hkey, rfl⟩⟩
    · exact ⟨.refl d, .inl rfl⟩

/-- After an addition: the diagnoses there were, and the one that is
added if there was none of its key. -/
theorem add_evolves (d : ReplDiagnosis) :
    (∀ x ∈ b.diags, ∃ x' ∈ (b.add d).2.diags, x.Evolves x')
      ∧ ∀ x' ∈ (b.add d).2.diags,
        (∃ x ∈ b.diags, x.Evolves x' ∧ x'.explains = x.explains
          ∧ (x' = x ∨ (x.key = d.key ∧ x'.evidence = evidenceUnion x.evidence d.evidence)))
        ∨ (x' = d ∧ ∀ x ∈ b.diags, x.key ≠ d.key) := by
  unfold add
  split
  · rename_i old hold
    obtain ⟨hfwd, hback⟩ := @modify_evolves b d.key _ (evolves_mergeEvidence d.evidence)
    refine ⟨hfwd, fun x' hx' => ?_⟩
    obtain ⟨x, hx, hev, hcase⟩ := hback x' hx'
    refine .inl ⟨x, hx, hev, ?_⟩
    rcases hcase with rfl | ⟨hkey, rfl⟩
    · exact ⟨rfl, .inl rfl⟩
    · exact ⟨rfl, .inr ⟨hkey, rfl⟩⟩
  · rename_i hnone
    refine ⟨fun x hx => ⟨x, List.mem_append_left _ hx, .refl x⟩, fun x' hx' => ?_⟩
    rcases List.mem_append.mp hx' with hx' | hx'
    · exact .inl ⟨x', hx', .refl x', rfl, .inl rfl⟩
    · exact .inr ⟨List.mem_singleton.mp hx', find?_none.mp hnone⟩

end Builder

variable {P : ReplDiagnosis → Prop} {C : Chain → Prop} {b b' b'' : Builder}

/-- Every diagnosis stays. -/
theorem Step.evolves (h : Step P C b b') : ∀ d ∈ b.diags, ∃ d' ∈ b'.diags, d.Evolves d' := by
  intro d hd
  cases h with
  | add hP hrel hexp => exact (Builder.add_evolves _).1 d hd
  | chain hC => exact ⟨d, hd, .refl d⟩
  | touch key hf => exact (Builder.modify_evolves hf.evolves).1 d hd
  | relate hP hrel hexp hroot hf =>
      obtain ⟨d₁, hd₁, hev₁⟩ := (Builder.add_evolves _).1 d hd
      obtain ⟨d₂, hd₂, hev₂⟩ := (Builder.modify_evolves hf.evolves).1 d₁ hd₁
      exact ⟨d₂, hd₂, hev₁.trans hev₂⟩

theorem Runs.evolves (h : Runs P C b b') : ∀ d ∈ b.diags, ∃ d' ∈ b'.diags, d.Evolves d' := by
  induction h with
  | refl => exact fun d hd => ⟨d, hd, .refl d⟩
  | tail _ hstep ih =>
      intro d hd
      obtain ⟨d₁, hd₁, hev₁⟩ := ih d hd
      obtain ⟨d₂, hd₂, hev₂⟩ := hstep.evolves d₁ hd₁
      exact ⟨d₂, hd₂, hev₁.trans hev₂⟩

/-- Every chain stays, and those added are of the kind the steps add. -/
theorem Runs.chains (h : Runs P C b b') : ∃ cs, b'.chains = b.chains ++ cs ∧ ∀ c ∈ cs, C c := by
  induction h with
  | refl => exact ⟨[], by rw [List.append_nil], fun _ hc => nomatch hc⟩
  | tail _ hstep ih =>
      obtain ⟨cs, hcs, hC⟩ := ih
      cases hstep with
      | add hP hrel hexp => exact ⟨cs, by rw [Builder.add_chains, hcs], hC⟩
      | touch key hf => exact ⟨cs, hcs, hC⟩
      | relate hP hrel hexp hroot hf =>
          exact ⟨cs, by rw [Builder.modify_chains, Builder.add_chains, hcs], hC⟩
      | chain hc =>
          rename_i c
          refine ⟨cs ++ [c], by rw [hcs, List.append_assoc], fun c' hc' => ?_⟩
          rcases List.mem_append.mp hc' with hc' | hc'
          · exact hC c' hc'
          · obtain rfl := List.mem_singleton.mp hc'
            exact hc

/-- What is true of every diagnosis when it is added, and stays true when
evidence for its key is added, is true of all. -/
theorem Runs.diags {Q : ReplDiagnosis → Prop} (h : Runs P C b b')
    (hadd : ∀ d, P d → d.explains = [] → Q d)
    (hmerge : ∀ d x, P d → Q x → x.key = d.key →
      Q (Builder.mergeEvidence d.evidence x))
    (hfixed : ∀ x x', Q x → x'.fixed = x.fixed → x'.evidence = x.evidence → Q x')
    (hb : ∀ d ∈ b.diags, Q d) : ∀ d ∈ b'.diags, Q d := by
  have hplus : ∀ (b₁ : Builder) d, P d → d.explains = [] → (∀ x ∈ b₁.diags, Q x) →
      ∀ x ∈ (b₁.add d).2.diags, Q x := by
    intro b₁ d hP hexp hQ x' hx'
    rcases (Builder.add_evolves d).2 x' hx' with ⟨x, hx, hev, -, hcase⟩ | ⟨rfl, -⟩
    · rcases hcase with rfl | ⟨hkey, hevid⟩
      · exact hQ _ hx
      · exact hfixed _ _ (hmerge d x hP (hQ x hx) hkey) hev.fixed hevid
    · exact hadd _ hP hexp
  have hchange : ∀ (b₁ : Builder) key f, (∀ d, (f d).fixed = d.fixed) →
      (∀ d, (f d).evidence = d.evidence) → (∀ x ∈ b₁.diags, Q x) →
      ∀ x ∈ (b₁.modify key f).diags, Q x := by
    intro b₁ key f hfix hevid hQ x' hx'
    obtain ⟨x, hx, rfl⟩ := Builder.mem_modify.mp hx'
    split
    · exact hfixed _ _ (hQ x hx) (hfix x) (hevid x)
    · exact hQ x hx
  induction h with
  | refl => exact hb
  | tail _ hstep ih =>
      cases hstep with
      | add hP hrel hexp => exact hplus _ _ hP hexp ih
      | chain hC => exact ih
      | touch key hf => exact hchange _ _ _ hf.fixed hf.evidence ih
      | relate hP hrel hexp hroot hf =>
          exact hchange _ _ _ hf.fixed hf.evidence (hplus _ _ hP hexp ih)

/-- No key is used twice. -/
def Builder.Keyed (b : Builder) : Prop := (b.diags.map ReplDiagnosis.key).Nodup

theorem Builder.Keyed.add (h : b.Keyed) (d : ReplDiagnosis) : (b.add d).2.Keyed := by
  unfold Builder.add
  split
  · rw [Builder.Keyed, Builder.modify_keys (fun x => (evolves_mergeEvidence d.evidence x).key)]
    exact h
  · rename_i hnone
    have hfresh := Builder.find?_none.mp hnone
    rw [Builder.Keyed, List.map_append, List.nodup_append]
    refine ⟨h, List.nodup_singleton _, ?_⟩
    intro k hk k' hk' heq
    obtain ⟨x, hx, rfl⟩ := List.mem_map.mp hk
    obtain rfl := List.mem_singleton.mp hk'
    exact hfresh x hx heq

theorem Builder.Keyed.modify (h : b.Keyed) {key : String} {f : ReplDiagnosis → ReplDiagnosis}
    (hf : ∀ d : ReplDiagnosis, d.Evolves (f d)) : (b.modify key f).Keyed := by
  rw [Builder.Keyed, Builder.modify_keys fun d => (hf d).key]
  exact h

theorem Runs.keyed (h : Runs P C b b') (hb : b.Keyed) : b'.Keyed := by
  induction h with
  | refl => exact hb
  | tail _ hstep ih =>
      cases hstep with
      | add hP hrel hexp => exact ih.add _
      | chain hC => exact ih
      | touch key hf => exact ih.modify hf.evolves
      | relate hP hrel hexp hroot hf => exact (ih.add _).modify hf.evolves

/-- Causes stay. -/
theorem Runs.hasCause (h : Runs P C b b') {root : String} {n : Nat} (hc : b.HasCause root n) :
    b'.HasCause root n := by
  obtain ⟨r, hr, hkey, hsev, htier⟩ := hc
  obtain ⟨r', hr', hev⟩ := h.evolves r hr
  refine ⟨r', hr', by rw [hev.key, hkey], by rw [hev.code, hsev], by rw [hev.code]; exact htier⟩

theorem Runs.mono {P' : ReplDiagnosis → Prop} {C' : Chain → Prop} (h : Runs P C b b')
    (hP : ∀ d, P d → P' d) (hC : ∀ c, C c → C' c) : Runs P' C' b b' := by
  refine ReflTransGen.mono (fun b₁ b₂ hstep => ?_) _ _ h
  cases hstep with
  | add h hrel hexp => exact .add (hP _ h) hrel hexp
  | chain h => exact .chain (hC _ h)
  | touch key h => exact .touch key h
  | relate h hrel hexp hroot hf => exact .relate (hP _ h) hrel hexp hroot hf

end IpaDiagnose.Replication
