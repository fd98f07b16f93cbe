import IpaDiagnose.Lib.Result
import IpaDiagnose.Environment.Graph

/-!
# The graph after a run

Collectors report facts about many things, in any order. Whatever they
report, the graph keeps within its bound and has one fact about each thing
it knows of; what was established is never replaced, only contradicted,
and a report that leaves no fact is counted.
-/

namespace IpaDiagnose.Environment

open Py (Value)
open Result

/-- A report, and what it is about, if anything. -/
structure Reported where
  subject : Option String
  name : String
  observedFrom : Option String
  report : Report

def Reported.key (r : Reported) (subject : String) : Key := ⟨subject, r.name, r.observedFrom⟩

/-- The graph knows of the subject, and the report says where it is from. -/
def Reported.Fits (entities : List String) (r : Reported) : Prop :=
  ∀ s, r.subject = some s →
    s ∈ entities ∧ (r.report.source = "LIVE" ∨ r.report.source = "REPLAY")

def Graph.hear (g : Graph) (r : Reported) : Except GraphError Graph :=
  g.addFact r.subject r.name r.observedFrom r.report

def Graph.run (g : Graph) (rs : List Reported) : Except GraphError Graph := rs.foldlM Graph.hear g

/-! ## One report -/

/-- What becomes of the graph with a report that is taken. -/
inductive Heard (g : Graph) (r : Reported) : Graph → Prop where
  | nothing (hs : r.subject = none) : Heard g r g
  | merged {s : String} {old : Fact} (hs : r.subject = some s) (hknown : s ∈ g.entities)
      (hold : g.facts.lookup (r.key s) = some old) :
      Heard g r { g with facts := Assoc.put (r.key s) (merge old r.report.fact) g.facts }
  | dropped {s : String} (hs : r.subject = some s) (hfull : MAX_FACTS ≤ g.facts.length) :
      Heard g r { g with droppedFacts := g.droppedFacts + 1 }
  | new {s : String} (hs : r.subject = some s) (hknown : s ∈ g.entities)
      (hnew : g.facts.lookup (r.key s) = none) (hroom : g.facts.length < MAX_FACTS) :
      Heard g r { g with facts := Assoc.put (r.key s) r.report.fact g.facts }

theorem hear_ok {g g' : Graph} {r : Reported} (h : g.hear r = .ok g') :
    Heard g r g' ∧ r.Fits g.entities := by
  unfold Graph.hear Graph.addFact at h
  cases hs : r.subject with
  | none =>
      rw [hs] at h
      obtain rfl := Except.ok.inj h
      refine ⟨.nothing hs, fun s hsome => ?_⟩
      rw [hs] at hsome
      cases hsome
  | some s =>
      rw [hs] at h
      dsimp only at h
      split at h
      · cases h
      · rename_i hentity
        have hknown : s ∈ g.entities := not_not.mp hentity
        split at h
        · cases h
        · rename_i hsource
          have hfits : r.Fits g.entities := by
            intro t ht
            obtain rfl := Option.some.inj (hs.symm.trans ht)
            refine ⟨hknown, ?_⟩
            by_contra hneither
            exact hsource (not_or.mp hneither)
          refine ⟨?_, hfits⟩
          split at h
          · rename_i old hold
            obtain rfl := Except.ok.inj h
            exact .merged hs hknown hold
          · rename_i hnew
            split at h
            · rename_i hfull
              obtain rfl := Except.ok.inj h
              exact .dropped hs hfull
            · rename_i hfull
              obtain rfl := Except.ok.inj h
              exact .new hs hknown hnew (Nat.not_le.mp hfull)

theorem hear_of_fits {g : Graph} {r : Reported} (h : r.Fits g.entities) :
    ∃ g', g.hear r = .ok g' := by
  unfold Graph.hear Graph.addFact
  cases hs : r.subject with
  | none => exact ⟨g, rfl⟩
  | some s =>
      obtain ⟨hknown, hsource⟩ := h s hs
      have hvalid : ¬ (r.report.source ≠ "LIVE" ∧ r.report.source ≠ "REPLAY") := by
        rintro ⟨hlive, hreplay⟩
        exact hsource.elim hlive hreplay
      dsimp only
      rw [if_neg (not_not.mpr hknown), if_neg hvalid]
      split
      · exact ⟨_, rfl⟩
      · split
        · exact ⟨_, rfl⟩
        · exact ⟨_, rfl⟩

theorem Heard.entities {g g' : Graph} {r : Reported} (h : Heard g r g') :
    g'.entities = g.entities := by
  cases h with
  | nothing | merged | dropped | new => rfl

/-! ## What holds of every graph -/

/-- One fact about each thing, within the bound, and a value where one is established. -/
structure Graph.Sound (g : Graph) : Prop where
  keyed : (Assoc.keys g.facts).Nodup
  room : g.facts.length ≤ MAX_FACTS
  known : ∀ e ∈ g.facts, e.1.subject ∈ g.entities
  valued : ∀ e ∈ g.facts, e.2.state = .established → e.2.value ≠ .null

theorem fact_valued (r : Report) (h : r.fact.state = .established) : r.fact.value ≠ .null := by
  intro hnull
  unfold Report.fact at h hnull
  dsimp only at h hnull
  split at h
  · cases h
  · rename_i hstate
    exact hstate ⟨hnull, h⟩

theorem merge_valued {old new : Fact} (hold : old.state = .established → old.value ≠ .null)
    (hnew : new.state = .established → new.value ≠ .null)
    (h : (merge old new).state = .established) : (merge old new).value ≠ .null := by
  unfold merge at h ⊢
  split at h
  · cases h
  · rename_i hdiffer
    rw [if_neg hdiffer]
    split at h
    · rename_i hunknown
      rw [if_pos hunknown]
      exact hnew h
    · rename_i hunknown
      rw [if_neg hunknown]
      exact hold h

theorem length_put {d : List (Key × Fact)} {k : Key} {f : Fact} :
    (Assoc.put k f d).length = if k ∈ Assoc.keys d then d.length else d.length + 1 := by
  have hkeys := congrArg List.length (Assoc.keys_put (d := d) (k := k) (v := f))
  unfold Assoc.keys at hkeys ⊢
  rw [List.length_map] at hkeys
  rw [hkeys]
  split
  · rw [List.length_map]
  · rw [List.length_append, List.length_map, List.length_singleton]

theorem Heard.sound {g g' : Graph} {r : Reported} (h : Heard g r g') (hg : g.Sound) :
    g'.Sound := by
  cases h with
  | nothing => exact hg
  | dropped => exact ⟨hg.keyed, hg.room, hg.known, hg.valued⟩
  | @merged s old hs hknown hold =>
      have hmem : (r.key s, old) ∈ g.facts := Assoc.mem_of_lookup hold
      refine ⟨Assoc.nodup_keys_put hg.keyed, ?_, fun e he => ?_, fun e he hstate => ?_⟩
      · dsimp only
        rw [length_put, if_pos (Assoc.mem_keys.mpr ⟨old, hmem⟩)]
        exact hg.room
      · rcases Assoc.mem_put he with rfl | he
        · exact hknown
        · exact hg.known e he
      · rcases Assoc.mem_put he with rfl | he
        · exact merge_valued (hg.valued _ hmem) (fact_valued r.report) hstate
        · exact hg.valued e he hstate
  | @new s hs hknown hnew hroom =>
      refine ⟨Assoc.nodup_keys_put hg.keyed, ?_, fun e he => ?_, fun e he hstate => ?_⟩
      · dsimp only
        rw [length_put]
        split
        · exact hg.room
        · exact hroom
      · rcases Assoc.mem_put he with rfl | he
        · exact hknown
        · exact hg.known e he
      · rcases Assoc.mem_put he with rfl | he
        · exact fact_valued r.report hstate
        · exact hg.valued e he hstate

/-! ## What a graph keeps -/

/-- What may become of a fact: an unknown one is filled in, an established
value is kept and may be contradicted, and then the fact stays. -/
def Fact.Becomes (f f' : Fact) : Prop :=
  f' = f ∨ f.state = .unknown
    ∨ f.state = .established ∧ f'.state = .contradicted ∧ f'.value = f.value

theorem Fact.Becomes.trans {f f' f'' : Fact} (h : f.Becomes f') (h' : f'.Becomes f'') :
    f.Becomes f'' := by
  rcases h with rfl | h | ⟨hstate, hcontra, hvalue⟩
  · exact h'
  · exact .inr (.inl h)
  · rcases h' with rfl | h' | ⟨h', -⟩
    · exact .inr (.inr ⟨hstate, hcontra, hvalue⟩)
    · rw [hcontra] at h'
      cases h'
    · rw [hcontra] at h'
      cases h'

theorem becomes_merge (old new : Fact) : old.Becomes (merge old new) := by
  unfold merge
  split
  · rename_i h
    exact .inr (.inr ⟨h.1, rfl, rfl⟩)
  · split
    · rename_i h
      exact .inr (.inl h.1)
    · exact .inl rfl

structure Graph.Extends (g' g : Graph) : Prop where
  entities : g'.entities = g.entities
  kept : ∀ k f, g.facts.lookup k = some f → ∃ f', g'.facts.lookup k = some f' ∧ f.Becomes f'
  dropped : g.droppedFacts ≤ g'.droppedFacts

theorem Graph.Extends.refl (g : Graph) : g.Extends g where
  entities := rfl
  kept _ f h := ⟨f, h, .inl rfl⟩
  dropped := Nat.le_refl _

theorem Graph.Extends.trans {g g' g'' : Graph} (h : g'.Extends g) (h' : g''.Extends g') :
    g''.Extends g where
  entities := h'.entities.trans h.entities
  kept k f hf := by
    obtain ⟨f', hf', hbecomes⟩ := h.kept k f hf
    obtain ⟨f'', hf'', hbecomes'⟩ := h'.kept k f' hf'
    exact ⟨f'', hf'', hbecomes.trans hbecomes'⟩
  dropped := Nat.le_trans h.dropped h'.dropped

theorem Heard.extends {g g' : Graph} {r : Reported} (h : Heard g r g') : g'.Extends g := by
  cases h with
  | nothing => exact .refl g
  | dropped => exact ⟨rfl, fun _ f hf => ⟨f, hf, .inl rfl⟩, Nat.le_succ _⟩
  | @merged s old hs hknown hold =>
      refine ⟨rfl, fun k f hf => ?_, Nat.le_refl _⟩
      by_cases hk : k = r.key s
      · subst hk
        obtain rfl := Option.some.inj (hold.symm.trans hf)
        exact ⟨_, Assoc.lookup_put_self, becomes_merge _ _⟩
      · exact ⟨f, (Assoc.lookup_put_ne hk).trans hf, .inl rfl⟩
  | @new s hs hknown hnew hroom =>
      refine ⟨rfl, fun k f hf => ?_, Nat.le_refl _⟩
      have hk : k ≠ r.key s := by
        rintro rfl
        rw [hnew] at hf
        cases hf
      exact ⟨f, (Assoc.lookup_put_ne hk).trans hf, .inl rfl⟩

/-- A report about something leaves a fact about it, or is counted. -/
theorem Heard.fact {g g' : Graph} {r : Reported} (h : Heard g r g')
    (hdropped : g'.droppedFacts = g.droppedFacts) {s : String} (hs : r.subject = some s) :
    ∃ f, g'.facts.lookup (r.key s) = some f := by
  cases h with
  | nothing hnone =>
      rw [hnone] at hs
      cases hs
  | dropped => exact absurd hdropped (Nat.succ_ne_self _)
  | merged hs' =>
      obtain rfl := Option.some.inj (hs'.symm.trans hs)
      exact ⟨_, Assoc.lookup_put_self⟩
  | new hs' =>
      obtain rfl := Option.some.inj (hs'.symm.trans hs)
      exact ⟨_, Assoc.lookup_put_self⟩

/-! ## Runs -/

theorem run_cons {g g' : Graph} {r : Reported} {rs : List Reported}
    (h : g.run (r :: rs) = .ok g') : ∃ g₁, g.hear r = .ok g₁ ∧ g₁.run rs = .ok g' := by
  rw [Graph.run, List.foldlM_cons] at h
  exact bind_ok.mp h

theorem run_extends {g g' : Graph} {rs : List Reported} (h : g.run rs = .ok g') :
    g'.Extends g ∧ (g.Sound → g'.Sound) ∧ ∀ r ∈ rs, r.Fits g.entities := by
  induction rs generalizing g with
  | nil =>
      obtain rfl := Except.ok.inj h
      exact ⟨.refl g, id, fun _ hr => absurd hr List.not_mem_nil⟩
  | cons r rs ih =>
      obtain ⟨g₁, hfirst, hrest⟩ := run_cons h
      obtain ⟨hheard, hfits⟩ := hear_ok hfirst
      obtain ⟨hext, hsound, hall⟩ := ih hrest
      refine ⟨hheard.extends.trans hext, fun hg => hsound (hheard.sound hg), fun r' hr' => ?_⟩
      rcases List.mem_cons.mp hr' with rfl | hr'
      · exact hfits
      · rw [← hheard.entities]
        exact hall r' hr'

theorem run_of_fits {g : Graph} {rs : List Reported} (h : ∀ r ∈ rs, r.Fits g.entities) :
    ∃ g', g.run rs = .ok g' := by
  induction rs generalizing g with
  | nil => exact ⟨g, rfl⟩
  | cons r rs ih =>
      obtain ⟨g₁, hfirst⟩ := hear_of_fits (h r List.mem_cons_self)
      have hentities := (hear_ok hfirst).1.entities
      obtain ⟨g', hrest⟩ := ih (g := g₁) fun r' hr' => by
        rw [hentities]
        exact h r' (List.mem_cons_of_mem _ hr')
      refine ⟨g', ?_⟩
      rw [Graph.run, List.foldlM_cons, hfirst]
      exact hrest

/-- As long as nothing is counted as dropped, no report is without a fact. -/
theorem run_facts {g g' : Graph} {rs : List Reported} (h : g.run rs = .ok g')
    (hdropped : g'.droppedFacts = g.droppedFacts) {r : Reported} (hr : r ∈ rs) {s : String}
    (hs : r.subject = some s) : ∃ f, g'.facts.lookup (r.key s) = some f := by
  induction rs generalizing g with
  | nil => cases hr
  | cons r' rs ih =>
      obtain ⟨g₁, hfirst, hrest⟩ := run_cons h
      obtain ⟨hheard, -⟩ := hear_ok hfirst
      obtain ⟨hext, -, -⟩ := run_extends hrest
      have hfirst_dropped := hheard.extends.dropped
      have hrest_dropped := hext.dropped
      rcases List.mem_cons.mp hr with rfl | hr
      · obtain ⟨f, hf⟩ := hheard.fact (by omega) hs
        obtain ⟨f', hf', -⟩ := hext.kept _ f hf
        exact ⟨f', hf'⟩
      · exact ih hrest (by omega) hr

/-- Facts over a run. It fails exactly if a report is about something
unknown or from nowhere. However it goes on, one fact about each thing and
no more than the bound, none of them lost or turned into another value,
and no report without a fact unless some are counted as dropped. -/
theorem facts_kept (entities : List String) (before after : List Reported) :
    ((∃ g, Graph.run { entities := entities } (before ++ after) = .ok g)
        ↔ ∀ r ∈ before ++ after, r.Fits entities)
      ∧ ∀ g g', Graph.run { entities := entities } before = .ok g → g.run after = .ok g' →
        g'.Sound ∧ g'.Extends g
          ∧ (g'.droppedFacts = 0 → ∀ r ∈ before ++ after, ∀ s, r.subject = some s →
            ∃ f, g'.facts.lookup (r.key s) = some f) := by
  have hempty : Graph.Sound { entities := entities } :=
    ⟨.nil, Nat.zero_le _, fun _ he => absurd he List.not_mem_nil,
      fun _ he => absurd he List.not_mem_nil⟩
  refine ⟨⟨?_, fun h => run_of_fits h⟩, fun g g' hbefore hafter => ?_⟩
  · rintro ⟨g, hg⟩
    exact (run_extends hg).2.2
  · obtain ⟨-, hsound, -⟩ := run_extends hbefore
    obtain ⟨hext, hsound', -⟩ := run_extends hafter
    refine ⟨hsound' (hsound hempty), hext, fun hdropped r hr s hs => ?_⟩
    have hboth : Graph.run { entities := entities } (before ++ after) = .ok g' := by
      rw [Graph.run, List.foldlM_append]
      exact bind_ok.mpr ⟨g, hbefore, hafter⟩
    exact run_facts hboth hdropped hr hs

end IpaDiagnose.Environment
