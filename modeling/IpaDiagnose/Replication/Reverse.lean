import IpaDiagnose.Replication.Cascade

/-!
# The reverse direction, and the worst of its agreements

The classes read from the peer are put in the order of their names, and
the first that is not green decides. So the state is that of the worst
agreement only if its name comes first; and a disabled agreement whose
last session succeeded is green.
-/

namespace IpaDiagnose.Replication

open Result
open Py (Value Dict)
open Planner (Outcome Record Trace Context Classified)

section Reverse

variable (loads : String → Option Value)

/-! ## What was read -/

/-- The text of a status, or none. -/
def IsText (v : Value) : Prop := v = .null ∨ ∃ s, v = .str s

/-- An agreement as it is read from a directory: its texts are texts. -/
structure Textual (entry : Dict) : Prop where
  text : IsText (getField entry "status_text")
  json : IsText (getField entry "status_json")

/-- The class its status has. -/
def entryClass (entry : Dict) : StatusClass :=
  match (parseStatus loads (getField entry "status_text") (getField entry "status_json")
    : Except PE AgreementStatus) with
  | .ok status => status.cls
  | .error _ => .unclassified

def Enabled (entry : Dict) : Prop := isFalse (getField entry "enabled") = false

theorem textOf_ok {v : Value} (h : IsText v) : ∃ s, (textOf v : Except PE (Option String)) = .ok s := by
  unfold textOf
  split
  · exact ⟨_, rfl⟩
  · rename_i htruthy
    rcases h with rfl | ⟨s, rfl⟩
    · exact absurd rfl htruthy
    · exact ⟨_, rfl⟩

/-- Texts are read, whatever they say. -/
theorem parseStatus_ok {entry : Dict} (h : Textual entry) :
    ∃ status, (parseStatus loads (getField entry "status_text") (getField entry "status_json")
      : Except PE AgreementStatus) = .ok status ∧ status.cls = entryClass loads entry := by
  have hread : ∃ r, (readStatus loads (getField entry "status_text") (getField entry "status_json")
      : Except PE StatusRead) = .ok r := by
    unfold readStatus
    refine exists_bind_ok (textOf_ok h.json) fun json _ => ?_
    split
    · exact ⟨_, rfl⟩
    · exact exists_bind_ok (textOf_ok h.text) fun text _ => ⟨_, rfl⟩
  obtain ⟨r, hr⟩ := hread
  refine ⟨r.status, ?_, ?_⟩
  · rw [parseStatus, hr]
    rfl
  · rw [entryClass, parseStatus, hr]
    rfl

/-- The classes of the agreements of the suffix, by name. -/
def sortedClasses (same : List Dict) : List StatusClass :=
  (same.map (entryClass loads)).dedup.insertionSort fun a b => a.text ≤ b.text

theorem mem_sortedClasses {same : List Dict} {c : StatusClass} :
    c ∈ sortedClasses loads same ↔ ∃ entry ∈ same, entryClass loads entry = c := by
  rw [sortedClasses, List.mem_insertionSort, List.mem_dedup, List.mem_map]

theorem sortedClasses_sorted (same : List Dict) :
    (sortedClasses loads same).Pairwise fun a b => a.text ≤ b.text := by
  have : Std.Total fun a b : StatusClass => a.text ≤ b.text := ⟨fun a b => le_total a.text b.text⟩
  have : IsTrans StatusClass fun a b => a.text ≤ b.text := ⟨fun _ _ _ h h' => le_trans h h'⟩
  exact List.pairwise_insertionSort _ _

theorem sortedClasses_nodup (same : List Dict) : (sortedClasses loads same).Nodup :=
  (List.perm_insertionSort _ _).nodup_iff.mpr (List.nodup_dedup _)

theorem classesOf_ok {same : List Dict} (h : ∀ entry ∈ same, Textual entry) :
    classesOf loads same = .ok (sortedClasses loads same) := by
  have hmap : ∃ sts : List AgreementStatus, same.mapM (fun entry =>
      (parseStatus loads (getField entry "status_text") (getField entry "status_json")
        : Except PE AgreementStatus)) = .ok sts
      ∧ sts.map AgreementStatus.cls = same.map (entryClass loads) := by
    induction same with
    | nil => exact ⟨[], rfl, rfl⟩
    | cons entry same ih =>
        obtain ⟨status, hstatus, hcls⟩ := parseStatus_ok loads (h entry List.mem_cons_self)
        obtain ⟨sts, hsts, hclss⟩ := ih fun x hx => h x (List.mem_cons_of_mem _ hx)
        refine ⟨status :: sts, ?_, by rw [List.map_cons, List.map_cons, hcls, hclss]⟩
        rw [List.mapM_cons, hstatus, hsts]
        rfl
  obtain ⟨sts, hsts, hclss⟩ := hmap
  rw [classesOf, hsts]
  exact congrArg (fun cs => Except.ok (cs.dedup.insertionSort fun a b => a.text ≤ b.text)) hclss

theorem shortText_ok {v : Value} (h : IsText v) : ∃ w, shortText v = .ok w := by
  unfold shortText orElse
  rcases h with rfl | ⟨s, rfl⟩
  · exact ⟨_, rfl⟩
  · split
    · exact ⟨_, rfl⟩
    · exact ⟨_, rfl⟩

/-- What was read of the agreements of a suffix. -/
structure ReadOf (same : List Dict) (c : Classified) : Prop where
  outcome : c.outcome = if sortedClasses loads same = [.ok] then .pass else .fail
  classes : getField c.facts "classes" = .list ((sortedClasses loads same).map StatusClass.value)

variable {loads} in
theorem c_reverse_read {res : CheckResult} {ctx : Context} {entries : List Value}
    (hvisible : (getField res.fields "visible").truthy = true)
    (hentries : getField res.fields "agreements" = .list entries)
    (hsome : sameSuffix (getField ctx.item "suffix_kind") entries ≠ [])
    (htext : ∀ entry ∈ sameSuffix (getField ctx.item "suffix_kind") entries, Textual entry) :
    ∃ c, c_reverse loads res ctx = .ok c
      ∧ ReadOf loads (sameSuffix (getField ctx.item "suffix_kind") entries) c := by
  have hiter : ((orElse (getField res.fields "agreements") (.list [])).iter : Except PE (List Value))
      = .ok entries := by
    rw [hentries, orElse]
    split
    · rfl
    · rename_i hempty
      cases entries with
      | nil => rfl
      | cons v vs => exact absurd rfl hempty
  unfold c_reverse
  dsimp only
  rw [hiter]
  cases hsame : sameSuffix (getField ctx.item "suffix_kind") entries with
  | nil => exact absurd hsame hsome
  | cons first rest =>
      rw [hsame] at htext
      obtain ⟨text, htext'⟩ := shortText_ok (htext first List.mem_cons_self).text
      rw [ok_bind, if_neg (by rw [hvisible]; nofun), hsame]
      dsimp only
      unfold reverseRead
      rw [classesOf_ok loads htext, ok_bind, htext', ok_bind]
      dsimp only
      split
      · rename_i hok
        exact ⟨_, rfl, ⟨by rw [if_pos hok], rfl⟩⟩
      · rename_i hok
        exact ⟨_, rfl, ⟨by rw [if_neg hok], rfl⟩⟩

end Reverse

/-! ## The class that decides -/

section Decides

variable {t : Trace} {me : Value} {b : Builder} {a : Agreement} {roots : Roots}

/-- The class the state is that of: the first in the order that is not green. -/
def decisive (classes : List StatusClass) : StatusClass :=
  (classes.find? fun c => c != .ok).getD .unclassified

/-- A class that is reported as a failure: a record of no transport is
none while this Directory Server is not shown stopped. -/
def Fails (t : Trace) (c : StatusClass) : Prop :=
  c ≠ .ok ∧ c ∉ TRANSIENT ∧ ¬(c = .transport ∧ dsNotStopped t = true)

instance (t : Trace) (c : StatusClass) : Decidable (Fails t c) := by
  unfold Fails
  infer_instance

theorem reverseClass_decisive {r : Record} {classes : List StatusClass}
    (h : getField r.facts "classes" = .list (classes.map StatusClass.value)) :
    reverseClass r = .ok (.known (decisive classes)) := by
  have hvalue : ∀ c : StatusClass, Recorded.ofValue c.value = .known c := by
    intro c
    simp [Recorded.ofValue, StatusClass.value]
  have hok : ∀ c : StatusClass, (!c.value.pyEq StatusClass.ok.value) = (c != .ok) := by
    intro c
    cases c <;> decide
  have hfind : ((classes.map StatusClass.value).find? fun c => !c.pyEq StatusClass.ok.value)
      = (classes.find? fun c => c != .ok).map StatusClass.value := by
    rw [List.find?_map]
    congr 1
    congr 1
    exact funext hok
  have hiter : ((orElse (getField r.facts "classes") (.list [])).iter : Except E (List Value))
      = .ok (classes.map StatusClass.value) := by
    rw [h, orElse]
    split
    · rfl
    · rename_i hempty
      cases classes with
      | nil => rfl
      | cons c cs => exact absurd rfl hempty
  unfold reverseClass
  rw [hiter, ok_bind, hfind]
  unfold decisive
  cases classes.find? fun c => c != .ok with
  | none => exact congrArg Except.ok (hvalue .unclassified)
  | some c => exact congrArg Except.ok (hvalue c)

theorem reverseFailing_returns (b : Builder) (a : Agreement) (r : Record) :
    Ensures (reverseFailing me b a r) (fun _ => True) fun _ => False :=
  (chain_legal (reverseLink_proper r).legal _ _ _).bind fun _ _ _ => Ensures.pure trivial

theorem reverseAcceptor_returns (b : Builder) (a : Agreement) (r : Record) (cls : Recorded)
    (kt : ReplDiagnosis) :
    Ensures (reverseAcceptor me b a r cls kt) (fun _ => True) fun _ => False :=
  (chain_legal (acceptorLinks_proper r).legal _ _ _).bind fun _ _ _ => Ensures.pure trivial

/-- A failed reverse direction is failing or transient, by that class. -/
theorem reverseFailed_state {r : Record} {classes : List StatusClass}
    (h : getField r.facts "classes" = .list (classes.map StatusClass.value))
    (hok : decisive classes ≠ .ok) :
    ∃ b', reverseFailed t me b a roots r
      = .ok (if Fails t (decisive classes) then .failing else .transient, b') := by
  unfold reverseFailed
  rw [reverseClass_decisive h, ok_bind]
  split
  · rename_i htransient
    have hfails : ¬Fails t (decisive classes) := fun hf => hf.2.1 (of_decide_eq_true htransient)
    exact ⟨_, by rw [if_neg hfails]; rfl⟩
  · rename_i htransient
    split
    · rename_i htransport
      have hfails : ¬Fails t (decisive classes) := by
        refine fun hf => hf.2.2 ⟨?_, htransport.2⟩
        injection htransport.1
      exact ⟨_, by rw [if_neg hfails]; rfl⟩
    · rename_i htransport
      have hfails : Fails t (decisive classes) := by
        refine ⟨hok, fun hmem => htransient (decide_eq_true hmem), fun hboth => htransport ?_⟩
        exact ⟨by rw [hboth.1], hboth.2⟩
      rw [if_pos hfails, Recorded.meaning, ok_bind]
      have hplain : ∃ b', (do
          let b ← reverseFailing me b a r
          pure (ReverseState.failing, b) : Except E (ReverseState × Builder)) = .ok (.failing, b') := by
        obtain ⟨b', hb', -⟩ := (reverseFailing_returns b a r).returns
        exact ⟨b', by rw [hb']; rfl⟩
      split
      · rename_i kt _
        split
        · obtain ⟨b', hb', -⟩ := (reverseAcceptor_returns b a r (.known (decisive classes)) kt).returns
          exact ⟨b', by rw [hb']; rfl⟩
        · exact hplain
      · exact hplain

/-- The class that decides comes before every other that is not green. -/
theorem decisive_first (loads : String → Option Value) {same : List Dict} {c : StatusClass}
    (hc : c ∈ sortedClasses loads same) (hok : c ≠ .ok) :
    decisive (sortedClasses loads same) ∈ sortedClasses loads same
      ∧ decisive (sortedClasses loads same) ≠ .ok
      ∧ (decisive (sortedClasses loads same)).text ≤ c.text := by
  have hsorted := sortedClasses_sorted loads same
  unfold decisive
  cases hfind : (sortedClasses loads same).find? fun c => c != .ok with
  | none =>
      have := List.find?_eq_none.mp hfind c hc
      exact absurd hok (by simpa using this)
  | some first =>
      obtain ⟨hfirst, before, after, hsplit, hbefore⟩ := List.find?_eq_some_iff_append.mp hfind
      refine ⟨by rw [hsplit]; simp, by simpa using hfirst, ?_⟩
      rw [Option.getD_some]
      rw [hsplit] at hc hsorted
      rcases List.mem_append.mp hc with hc | hc
      · exact absurd (hbefore c hc) (by simpa using hok)
      · rcases List.mem_cons.mp hc with rfl | hc
        · exact le_refl _
        · exact (List.pairwise_cons.mp (List.pairwise_append.mp hsorted).2.1).1 c hc

end Decides

/-! ## No better than the worst -/

section Worst

variable (loads : String → Option Value) (t : Trace) (me : Value) (b : Builder) (a : Agreement)
  (roots : Roots) (res : CheckResult) (ctx : Context)

/-- The classification of the answer is the record of the step. -/
def RecordedAs : Prop :=
  ∃ c r, c_reverse loads res ctx = .ok c ∧ t.getFor "reverse" a.subj = some r
    ∧ r.outcome = c.outcome ∧ r.facts = c.facts

/-- The reverse direction is in a state. -/
def InState (state : ReverseState) : Prop := ∃ b', reverse t me b a roots = .ok (state, b')

/-- One of the agreements fails in a way that counts: a record of no
transport does not while this Directory Server is not shown stopped and
nothing else fails. -/
def SomeFails (same : List Dict) : Prop :=
  ∃ entry ∈ same, entryClass loads entry ≠ .ok ∧ entryClass loads entry ∉ TRANSIENT
    ∧ ¬(entryClass loads entry = .transport ∧ outcomeOf t "local.ds" ≠ some .fail
      ∧ ∀ other ∈ same, entryClass loads other ≠ .ok → entryClass loads other ∉ TRANSIENT →
        entryClass loads other = .transport)

/-- The state is no better than the worst agreement. -/
structure NoBetter (same : List Dict) : Prop where
  ok : InState t me b a roots .ok → ∀ entry ∈ same, Enabled entry ∧ entryClass loads entry = .ok
  failing : SomeFails loads t same → InState t me b a roots .failing

/-- A class that fails has a name before those of all others that are
not green and do not. -/
def WorstFirst (same : List Dict) : Prop :=
  ∃ entry ∈ same, Fails t (entryClass loads entry) ∧ ∀ other ∈ same,
    entryClass loads other ≠ .ok → ¬Fails t (entryClass loads other) →
      (entryClass loads entry).text ≤ (entryClass loads other).text

end Worst

section Worst

variable {loads : String → Option Value} {t : Trace} {me : Value} {b : Builder} {a : Agreement}
  {roots : Roots} {res : CheckResult} {ctx : Context} {same : List Dict}

/-- The worst agreement comes first exactly if the class that decides fails. -/
theorem worstFirst_iff {entry : Dict} (hentry : entry ∈ same) (hok : entryClass loads entry ≠ .ok) :
    WorstFirst loads t same ↔ Fails t (decisive (sortedClasses loads same)) := by
  have hmem := (mem_sortedClasses loads).mpr ⟨entry, hentry, rfl⟩
  obtain ⟨hdecisive, hne, -⟩ := decisive_first loads hmem hok
  obtain ⟨x, hx, hxcls⟩ := (mem_sortedClasses loads).mp hdecisive
  constructor
  · rintro ⟨worst, hworst, hfails, hfirst⟩
    by_contra hnot
    have hle := (decisive_first loads ((mem_sortedClasses loads).mpr ⟨worst, hworst, rfl⟩) hfails.1).2.2
    have hge := hfirst x hx (by rw [hxcls]; exact hne) (by rw [hxcls]; exact hnot)
    rw [hxcls] at hge
    have heq := StatusClass.text_injective (le_antisymm hle hge)
    rw [heq] at hnot
    exact hnot hfails
  · intro hfails
    refine ⟨x, hx, by rw [hxcls]; exact hfails, fun other hother hothercls _ => ?_⟩
    rw [hxcls]
    exact (decisive_first loads ((mem_sortedClasses loads).mpr ⟨other, hother, rfl⟩) hothercls).2.2

theorem decisive_ne_ok (classes : List StatusClass) : decisive classes ≠ .ok := by
  unfold decisive
  cases hfind : classes.find? fun c => c != .ok with
  | none => nofun
  | some c => simpa using List.find?_some hfind

/-- The state, by the classes that were read. -/
theorem state_of_read {c : Classified} {r : Record} (hread : ReadOf loads same c)
    (hr : t.getFor "reverse" a.subj = some r) (houtcome : r.outcome = c.outcome)
    (hfacts : r.facts = c.facts) {state : ReverseState} :
    InState t me b a roots state ↔ state =
      if sortedClasses loads same = [.ok] then .ok
      else if Fails t (decisive (sortedClasses loads same)) then .failing else .transient := by
  have hclasses := hread.classes
  rw [← hfacts] at hclasses
  obtain ⟨b', hfailed⟩ := @reverseFailed_state t me b a roots r _ hclasses (decisive_ne_ok _)
  have hreverse : ∃ b', reverse t me b a roots = .ok
      (if sortedClasses loads same = [.ok] then .ok
        else if Fails t (decisive (sortedClasses loads same)) then .failing else .transient, b') := by
    unfold reverse
    rw [hr]
    dsimp only
    rw [houtcome, hread.outcome]
    by_cases hok : sortedClasses loads same = [.ok]
    · simp [hok]
    · rw [if_neg hok, if_neg hok]
      exact ⟨b', hfailed⟩
  obtain ⟨b'', hreverse⟩ := hreverse
  unfold InState
  rw [hreverse]
  constructor
  · rintro ⟨b₂, h⟩
    injection h with h
    injection h with h _
    exact h.symm
  · rintro rfl
    exact ⟨b'', rfl⟩

/-- The classes are green alone exactly if every agreement is. -/
theorem sortedClasses_ok_iff (hsome : same ≠ []) :
    sortedClasses loads same = [.ok] ↔ ∀ entry ∈ same, entryClass loads entry = .ok := by
  constructor
  · intro h entry hentry
    have hmem := (mem_sortedClasses loads).mpr ⟨entry, hentry, rfl⟩
    rw [h] at hmem
    exact List.mem_singleton.mp hmem
  · intro h
    have hall : ∀ c ∈ sortedClasses loads same, c = .ok := by
      intro c hc
      obtain ⟨entry, hentry, rfl⟩ := (mem_sortedClasses loads).mp hc
      exact h entry hentry
    obtain ⟨entry, hentry⟩ := List.exists_mem_of_ne_nil same hsome
    have hmem := (mem_sortedClasses loads).mpr ⟨entry, hentry, h entry hentry⟩
    have hnodup := sortedClasses_nodup loads same
    cases hcs : sortedClasses loads same with
    | nil =>
        rw [hcs] at hmem
        cases hmem
    | cons c cs =>
        rw [hcs] at hall hnodup
        obtain rfl := hall c List.mem_cons_self
        cases cs with
        | nil => rfl
        | cons c' cs =>
            obtain rfl := hall c' (List.mem_cons_of_mem _ List.mem_cons_self)
            exact absurd List.mem_cons_self (List.nodup_cons.mp hnodup).1

/-- **When a reverse direction is no better than its worst agreement.**
For every list of agreements read from the peer: exactly if none of them
is disabled where all are green, and, where one fails, a failing class
has the first name of all that are not green. -/
theorem noBetter_iff {entries : List Value}
    (hvisible : (getField res.fields "visible").truthy = true)
    (hentries : getField res.fields "agreements" = .list entries)
    (hsame : same = sameSuffix (getField ctx.item "suffix_kind") entries) (hsome : same ≠ [])
    (htext : ∀ entry ∈ same, Textual entry) (hrecord : RecordedAs loads t a res ctx) :
    NoBetter loads t me b a roots same ↔
      ((∀ entry ∈ same, entryClass loads entry = .ok) → ∀ entry ∈ same, Enabled entry)
        ∧ (SomeFails loads t same → WorstFirst loads t same) := by
  obtain ⟨c, r, hc, hr, houtcome, hfacts⟩ := hrecord
  obtain ⟨c', hc', hread⟩ := c_reverse_read hvisible hentries (hsame ▸ hsome) (hsame ▸ htext)
  rw [hc] at hc'
  injection hc' with hc'
  subst hc'
  rw [← hsame] at hread
  have hstate := fun state => @state_of_read loads t me b a roots same c r hread hr houtcome hfacts state
  by_cases hall : ∀ entry ∈ same, entryClass loads entry = .ok
  · have hok := (sortedClasses_ok_iff hsome).mpr hall
    have hnone : ¬SomeFails loads t same := fun ⟨entry, hentry, hne, _⟩ => hne (hall entry hentry)
    constructor
    · intro h
      have hgreen : InState t me b a roots .ok := (hstate .ok).mpr (by rw [if_pos hok])
      exact ⟨fun _ entry hentry => (h.ok hgreen entry hentry).1, fun hf => absurd hf hnone⟩
    · rintro ⟨henabled, -⟩
      exact ⟨fun _ entry hentry => ⟨henabled hall entry hentry, hall entry hentry⟩,
        fun hf => absurd hf hnone⟩
  · have hnot : sortedClasses loads same ≠ [.ok] := fun h => hall ((sortedClasses_ok_iff hsome).mp h)
    have hred : ¬InState t me b a roots .ok := by
      rw [hstate, if_neg hnot]
      split
      · nofun
      · nofun
    have hfailing : InState t me b a roots .failing ↔
        Fails t (decisive (sortedClasses loads same)) := by
      rw [hstate, if_neg hnot]
      split
      · rename_i hf
        exact ⟨fun _ => hf, fun _ => rfl⟩
      · rename_i hf
        exact ⟨nofun, fun h => absurd h hf⟩
    constructor
    · intro h
      refine ⟨fun h => absurd h hall, fun hf => ?_⟩
      obtain ⟨entry, hentry, hne, -⟩ := id hf
      exact (worstFirst_iff hentry hne).mpr (hfailing.mp (h.failing hf))
    · rintro ⟨-, hworst⟩
      refine ⟨fun h => absurd h hred, fun hf => ?_⟩
      obtain ⟨entry, hentry, hne, -⟩ := id hf
      exact hfailing.mpr ((worstFirst_iff hentry hne).mp (hworst hf))

end Worst

/-! ## A disabled agreement -/

namespace Disabled

def entry (text : String) (enabled : Bool) : Dict :=
  [("suffix_kind", .str "domain"), ("status_text", .str text), ("enabled", .bool enabled)]

def green (enabled : Bool) : Dict := entry "Replica acquired successfully" enabled

/-- The status is of a kind that no phrase names. -/
def strange : Dict := entry "Error (3)" true

def noJson : String → Option Value := fun _ => none

theorem classes (enabled : Bool) :
    entryClass noJson (green enabled) = .ok ∧ entryClass noJson strange = .unclassified := by
  revert enabled
  decide +kernel

def answer (entries : List Dict) : CheckResult :=
  { checkId := "replication.reverse", params := [], status := "ok"
    fields := [("visible", .bool true), ("agreements", .list (entries.map Value.dict))] }

def ctx : Context :=
  { inputs := [], isRoot := true, records := [], subject := some "domain:peer.example"
    item := [("suffix_kind", .str "domain")] }

def agreement : Agreement :=
  { subj := "domain:peer.example", item := ctx.item, consumer := .str "peer.example"
    suffix := .str "domain" }

def trace (c : Classified) : Trace :=
  { records :=
      [{ stepId := "reverse@domain:peer.example", capability := "replication.reverse"
         check := "replication.reverse", title := "", why := "", outcome := c.outcome
         facts := c.facts, subject := some "domain:peer.example", baseStep := some "reverse" }]
    stopReason := "complete", startedAt := "", seconds := 0, bounds := [], checksRun := 1
    checksReused := 0, cancelled := false, enumerations := [] }

theorem textual (text : String) (enabled : Bool) : Textual (entry text enabled) :=
  ⟨.inr ⟨text, rfl⟩, .inl rfl⟩

/-- The answer of a peer with some agreements of the suffix, recorded. -/
theorem recorded {entries : List Dict} (h : ∀ x ∈ entries, Textual x)
    (hsame : sameSuffix (.str "domain") (entries.map Value.dict) = entries) (hsome : entries ≠ []) :
    ∃ c, RecordedAs noJson (trace c) agreement (answer entries) ctx
      ∧ ReadOf noJson entries c := by
  have hkind : getField ctx.item "suffix_kind" = .str "domain" := rfl
  have hread := @c_reverse_read noJson (answer entries) ctx (entries.map Value.dict) rfl rfl
  rw [hkind, hsame] at hread
  obtain ⟨c, hc, hread⟩ := hread hsome h
  exact ⟨c, ⟨c, _, hc, rfl, rfl, rfl⟩, hread⟩

end Disabled

/-- A peer whose one agreement is disabled, its last session a success:
the reverse direction is reported green. -/
theorem disabled_reverse_green :
    ¬∀ (loads : String → Option Value) (t : Trace) (me : Value) (b : Builder) (a : Agreement)
      (roots : Roots) (res : CheckResult) (ctx : Context) (entries : List Value) (same : List Dict),
      (getField res.fields "visible").truthy = true →
      getField res.fields "agreements" = .list entries →
      same = sameSuffix (getField ctx.item "suffix_kind") entries → same ≠ [] →
      (∀ entry ∈ same, Textual entry) → RecordedAs loads t a res ctx →
      NoBetter loads t me b a roots same := by
  intro h
  have htext : ∀ x ∈ [Disabled.green false], Textual x := by
    intro x hx
    obtain rfl := List.mem_singleton.mp hx
    exact Disabled.textual _ _
  have hsome : [Disabled.green false] ≠ [] := List.cons_ne_nil _ _
  obtain ⟨c, hrecord, hread⟩ := Disabled.recorded htext rfl hsome
  have hbetter := h Disabled.noJson (Disabled.trace c) .null {} Disabled.agreement {}
    (Disabled.answer [Disabled.green false]) Disabled.ctx _ _ rfl rfl rfl hsome htext hrecord
  have hclasses : sortedClasses Disabled.noJson [Disabled.green false] = [.ok] := by
    refine (sortedClasses_ok_iff hsome).mpr fun entry hentry => ?_
    obtain rfl := List.mem_singleton.mp hentry
    exact (Disabled.classes false).1
  have hgreen : InState (Disabled.trace c) .null {} Disabled.agreement {} .ok :=
    (state_of_read hread rfl rfl rfl).mpr (by rw [if_pos hclasses])
  have henabled : true = false := (hbetter.ok hgreen (Disabled.green false) List.mem_cons_self).1
  cases henabled

/-- A green agreement next to one that fails: the direction is failing. -/
theorem strange_reverse_failing :
    ∃ t, NoBetter Disabled.noJson t .null {} Disabled.agreement {}
        [Disabled.green true, Disabled.strange]
      ∧ InState t .null {} Disabled.agreement {} .failing := by
  have htext : ∀ x ∈ [Disabled.green true, Disabled.strange], Textual x := by
    intro x hx
    rcases List.mem_cons.mp hx with rfl | hx
    · exact Disabled.textual _ _
    · obtain rfl := List.mem_singleton.mp hx
      exact Disabled.textual _ _
  have hsome : [Disabled.green true, Disabled.strange] ≠ [] := List.cons_ne_nil _ _
  obtain ⟨c, hrecord, -⟩ := Disabled.recorded htext rfl hsome
  have hmem : Disabled.strange ∈ [Disabled.green true, Disabled.strange] :=
    List.mem_cons_of_mem _ List.mem_cons_self
  have hcls := (Disabled.classes true).2
  have hfails : Fails (Disabled.trace c) (entryClass Disabled.noJson Disabled.strange) := by
    rw [hcls]
    exact ⟨nofun, by decide, nofun⟩
  have hsomeFails : SomeFails Disabled.noJson (Disabled.trace c)
      [Disabled.green true, Disabled.strange] := by
    refine ⟨_, hmem, hfails.1, hfails.2.1, fun h => ?_⟩
    rw [hcls] at h
    exact nomatch h.1
  have hworst : WorstFirst Disabled.noJson (Disabled.trace c)
      [Disabled.green true, Disabled.strange] := by
    refine ⟨_, hmem, hfails, fun other hother hne hnot => ?_⟩
    rcases List.mem_cons.mp hother with rfl | hother
    · exact absurd (Disabled.classes true).1 hne
    · obtain rfl := List.mem_singleton.mp hother
      exact absurd hfails hnot
  have hbetter : NoBetter Disabled.noJson (Disabled.trace c) .null {} Disabled.agreement {}
      [Disabled.green true, Disabled.strange] := by
    refine (@noBetter_iff _ _ _ _ _ _ (Disabled.answer [Disabled.green true, Disabled.strange])
      Disabled.ctx _ _ rfl rfl rfl hsome htext hrecord).mpr ⟨fun h => ?_, fun _ => hworst⟩
    have := h _ hmem
    rw [hcls] at this
    cases this
  exact ⟨Disabled.trace c, hbetter, hbetter.failing hsomeFails⟩

end IpaDiagnose.Replication
