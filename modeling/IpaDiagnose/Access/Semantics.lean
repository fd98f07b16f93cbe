import IpaDiagnose.Access.Explain

/-!
# The explanation against the meaning of a rule

The attributes of an entry say what its rule means; an explanation is
made from the same entry and from what was read of the three objects. It
contradicts the evaluator exactly when the evaluator and that meaning
differ, with one exception (`explanation_agrees_iff`): the groups of a
service the full index has no room for are forgotten, though they count
as read.
-/

namespace IpaDiagnose.Access

open Py (Value Dict)

/-! ## What an entry means -/

/-- The names an attribute holds, one or a list, in lower case. -/
def Holds (v : Value) (n : String) : Prop :=
  ∃ s, (v = .str s ∨ ∃ vs, v = .list vs ∧ .str s ∈ vs) ∧ PyStr.lower s = n

/-- The one value of an attribute, or the first of a list. -/
def Leads (v x : Value) : Prop :=
  (v = x ∧ v.isList = false) ∨ ∃ vs, v = .list (x :: vs)

def sideOf (entry : Dict) (pre member obj grp : String) : Hbac.Side String where
  all := ∃ s, Leads (get entry (pre ++ "category")) (.str s) ∧ PyStr.lower s = "all"
  names := { n | Holds (get entry (member ++ "_" ++ obj)) n }
  groups := { g | Holds (get entry (member ++ "_" ++ grp)) g }

/-- Whether an entry says that its rule is enabled, or is not. -/
def SaysEnabled (entry : Dict) (b : Bool) : Prop :=
  ∃ v, Leads (get entry "ipaenabledflag") v ∧
    (v = .bool b ∨ ∃ s, v = .str s ∧ PyStr.upper s = if b then "TRUE" else "FALSE")

/-- The rule of an entry, `enabled` being what the entry may not show. -/
def ruleOf (entry : Dict) (enabled : Prop) : Hbac.Rule String where
  enabled := enabled
  user := sideOf entry "user" "memberuser" "user" "group"
  host := sideOf entry "host" "memberhost" "host" "hostgroup"
  service := sideOf entry "service" "memberservice" "hbacsvc" "hbacsvcgroup"

/-! ## What was read of an entry -/

theorem first_leads {v x : Value} (hx : x.isList = false) (hnull : x ≠ .null) :
    first v = x ↔ Leads v x := by
  unfold first Leads
  split
  · simp [Ne.symm hnull, Value.isList]
  · rename_i y ys
    simp [Value.isList]
  · rename_i hnil hcons
    constructor
    · rintro rfl
      exact .inl ⟨rfl, hx⟩
    · rintro (⟨h, -⟩ | ⟨vs, h⟩)
      · exact h
      · exact absurd h (hcons x vs)

theorem first_str {v : Value} {s : String} : first v = .str s ↔ Leads v (.str s) :=
  first_leads rfl (by simp)

theorem first_bool {v : Value} {b : Bool} : first v = .bool b ↔ Leads v (.bool b) :=
  first_leads rfl (by simp)

theorem mem_names {v : Value} {n : String} : n ∈ (names v).map PyStr.lower ↔ Holds v n := by
  unfold names Holds
  split
  · rename_i s
    simp [eq_comm]
  · rename_i vs
    simp only [List.mem_map, List.mem_filterMap]
    constructor
    · rintro ⟨s, ⟨x, hx, hs⟩, rfl⟩
      cases x <;> cases hs
      exact ⟨_, .inr ⟨vs, rfl, hx⟩, rfl⟩
    · rintro ⟨s, h | ⟨ws, h, hs⟩, rfl⟩
      · cases h
      · cases h
        exact ⟨s, ⟨_, hs, rfl⟩, rfl⟩
  · rename_i hstr hlist
    simp only [List.map_nil, List.not_mem_nil, false_iff, not_exists]
    rintro s ⟨h | ⟨vs, h, -⟩, -⟩
    · exact hstr _ h
    · exact hlist _ h

theorem categoryAll_iff {v : Value} :
    categoryAll (first v) = true ↔ ∃ s, Leads v (.str s) ∧ PyStr.lower s = "all" := by
  constructor
  · intro h
    cases hv : first v with
    | str s =>
        rw [hv] at h
        exact ⟨s, first_str.mp hv, by simpa [categoryAll] using h⟩
    | _ =>
        rw [hv] at h
        exact nomatch h
  · rintro ⟨s, hs, hall⟩
    rw [first_str.mpr hs]
    simpa [categoryAll] using hall

theorem flag_eq_some {v : Value} {b : Bool} :
    flag v = some b ↔ ∃ x, Leads v x ∧
      (x = .bool b ∨ ∃ s, x = .str s ∧ PyStr.upper s = if b then "TRUE" else "FALSE") := by
  have hkey : flag v = some b ↔ first v = .bool b ∨
      ∃ s, first v = .str s ∧ PyStr.upper s = if b then "TRUE" else "FALSE" := by
    unfold flag
    cases first v with
    | bool c => simp
    | str s =>
        by_cases ht : PyStr.upper s = "TRUE"
        · cases b <;> simp [ht]
        · by_cases hf : PyStr.upper s = "FALSE"
          · cases b <;> simp [hf]
          · cases b <;> simp [ht, hf]
    | _ => simp
  rw [hkey]
  constructor
  · rintro (h | ⟨s, h, hs⟩)
    · exact ⟨_, first_bool.mp h, .inl rfl⟩
    · exact ⟨_, first_str.mp h, .inr ⟨s, rfl, hs⟩⟩
  · rintro ⟨x, hx, rfl | ⟨s, rfl, hs⟩⟩
    · exact .inl (first_bool.mpr hx)
    · exact .inr ⟨s, first_str.mpr hx, hs⟩

/-- What a side that was read means. -/
def RuleSide.meaning (s : RuleSide) : Hbac.Side String where
  all := s.category_all = true
  names := { n | n ∈ s.names.map PyStr.lower }
  groups := { g | g ∈ s.groups.map PyStr.lower }

theorem meaning_side (entry : Dict) (pre member obj grp : String) :
    (HbacRule.side entry pre member obj grp).meaning = sideOf entry pre member obj grp := by
  unfold RuleSide.meaning sideOf HbacRule.side
  congr 1
  · exact propext categoryAll_iff
  · ext n
    exact mem_names
  · ext g
    exact mem_names

/-- A rule that was read means what its entry says. -/
structure ReadRule (entry : Dict) (rule : HbacRule) : Prop where
  enabled : ∀ b, rule.enabled = some b ↔ SaysEnabled entry b
  user : rule.user.meaning = sideOf entry "user" "memberuser" "user" "group"
  host : rule.host.meaning = sideOf entry "host" "memberhost" "host" "hostgroup"
  service :
    rule.service.meaning = sideOf entry "service" "memberservice" "hbacsvc" "hbacsvcgroup"

theorem from_api_read {entry : Dict} {source : String} {rule : HbacRule}
    (h : HbacRule.from_api (.dict entry) source = some rule) : ReadRule entry rule := by
  simp only [HbacRule.from_api] at h
  split at h
  · split at h
    · exact nomatch h
    · cases h
      exact ⟨fun b => flag_eq_some, meaning_side .., meaning_side .., meaning_side ..⟩
  · exact nomatch h

/-! ## A side that is covered -/

/-- An object as far as it was read. -/
def readObject (name : String) (member : Option Membership) : Hbac.Object String where
  name := PyStr.lower name
  groups := { g | ∃ m, member = some m ∧ g ∈ m.all_groups }

theorem explain_group_covers (index : RelationshipIndex) (side : SideName) (m : Membership)
    (kind : NodeKind) (g : String) : (explain_group index side m kind g).1.covers = true := by
  unfold explain_group
  split
  · rfl
  · dsimp only
    split <;> rfl

theorem explain_groups_covers {side : SideName} {m : Membership} {kind : NodeKind}
    {gs : List String} {index : RelationshipIndex} {s : SideExplanation}
    (hs : s ∈ (explain_groups side m kind gs index).1) : s.covers = true := by
  induction gs generalizing index with
  | nil => exact absurd hs List.not_mem_nil
  | cons g gs ih =>
      rw [explain_groups] at hs
      rcases List.mem_cons.mp hs with rfl | hs
      · exact explain_group_covers ..
      · exact ih hs

theorem explain_groups_eq_nil {side : SideName} {m : Membership} {kind : NodeKind}
    {gs : List String} {index : RelationshipIndex} :
    (explain_groups side m kind gs index).1 = [] ↔ gs = [] := by
  cases gs <;> simp [explain_groups]

theorem listed_ne_nil {rs : RuleSide} {m : Membership} :
    rs.listed m ≠ [] ↔ ∃ g ∈ rs.groups, PyStr.lower g ∈ m.all_groups := by
  have hmem : rs.listed m ≠ [] ↔ ∃ g, g ∈ rs.listed m :=
    ⟨List.exists_mem_of_ne_nil _, fun ⟨_, hg⟩ => List.ne_nil_of_mem hg⟩
  rw [hmem]
  simp only [RuleSide.listed, List.mem_filter, (List.mergeSort_perm _ _).mem_iff,
    decide_eq_true_eq]

/-- A list of reasons covers unless it is empty, when all of them do. -/
theorem any_covers_or {out : List SideExplanation} {d : SideExplanation}
    (hout : ∀ s ∈ out, s.covers = true) (hd : d.covers = false) :
    (if out.isEmpty then [d] else out).any (·.covers) = true ↔ out ≠ [] := by
  cases out with
  | nil => simp [hd]
  | cons s out => simp [hout s List.mem_cons_self]

/-- What a side of a rule is explained by covers the object exactly when
the side does, as far as the object was read. -/
theorem covered_side (index : RelationshipIndex) (side : SideName) (rs : RuleSide)
    (member : Option Membership) (name : String) (kind : NodeKind) (known : Bool) :
    (explain_side index side rs member name kind known).1.any (·.covers) = true ↔
      rs.meaning.Covers (readObject name member) := by
  have hmeaning : rs.meaning.Covers (readObject name member) ↔
      rs.category_all = true ∨ PyStr.lower name ∈ rs.names.map PyStr.lower
        ∨ ∃ m, member = some m ∧ rs.listed m ≠ [] := by
    simp only [Hbac.Side.Covers, RuleSide.meaning, readObject, Set.mem_ofPred_eq, listed_ne_nil]
    refine or_congr Iff.rfl (or_congr Iff.rfl ⟨?_, ?_⟩)
    · rintro ⟨g, hg, m, hm, hin⟩
      obtain ⟨x, hx, rfl⟩ := List.mem_map.mp hg
      exact ⟨m, hm, x, hx, hin⟩
    · rintro ⟨m, hm, g, hg, hin⟩
      exact ⟨PyStr.lower g, List.mem_map_of_mem hg, m, hm, hin⟩
  rw [hmeaning]
  unfold explain_side
  by_cases hall : rs.category_all = true
  · rw [if_pos hall]
    simp [hall, SideExplanation.covers]
  rw [if_neg hall]
  cases member with
  | none =>
      by_cases hdirect : PyStr.lower name ∈ rs.names.map PyStr.lower
      · simp only [if_pos hdirect]
        simp [hdirect, SideExplanation.covers]
      · simp only [if_neg hdirect]
        split <;> simp [hall, hdirect, SideExplanation.covers]
  | some m =>
      simp only
      rw [any_covers_or]
      · simp only [ne_eq, List.append_eq_nil_iff, explain_groups_eq_nil, List.take_eq_nil_iff,
          Option.some.injEq, exists_eq_left']
        by_cases hdirect : PyStr.lower name ∈ rs.names.map PyStr.lower
        · simp [hdirect]
        · by_cases hl : rs.listed m = []
          · simp [hall, hdirect, hl]
          · simp [hdirect, hl, MAX_SIDE_EXPLANATIONS]
      · intro s hs
        rcases List.mem_append.mp hs with hs | hs
        · rcases List.mem_append.mp hs with hs | hs
          · split at hs
            · rw [List.mem_singleton.mp hs]
              rfl
            · exact absurd hs List.not_mem_nil
          · exact explain_groups_covers hs
        · split at hs
          · rw [List.mem_singleton.mp hs]
            rfl
          · exact absurd hs List.not_mem_nil
      · rfl

/-! ## What is known of the three objects -/

/-- There is no node for a service that exists, and no room for one. -/
def NoRoom (index : RelationshipIndex) (st : ServiceState) : Prop :=
  st.exists_ = some true ∧
    ∀ c, st.canonical = some c → (index.node .hbacService c).1 = none

theorem svc_member_of_room {index : RelationshipIndex} {st : ServiceState}
    (h : ¬ NoRoom index st) (g : String) :
    (∃ m, (svc_member index st).1 = some m ∧ g ∈ m.all_groups) ↔
      g ∈ st.groups.map PyStr.lower := by
  by_cases hex : st.exists_ = some true
  · obtain ⟨c, hc, hne⟩ := st.named hex
    have hnode : (index.node .hbacService c).1 ≠ none := by
      intro hnone
      refine h ⟨hex, fun d hd => ?_⟩
      rw [hc] at hd
      cases hd
      exact hnone
    obtain ⟨n, hn⟩ := Option.ne_none_iff_exists'.mp hnode
    simp [svc_member, hex, hc, hne, hn, Membership.all_groups]
  · have hnone : (svc_member index st).1 = none := by
      unfold svc_member
      split
      · rename_i htrue _
        exact absurd htrue hex
      · rfl
    simp [hnone, st.unread hex]

theorem svc_member_of_noRoom {index : RelationshipIndex} {st : ServiceState}
    (h : NoRoom index st) : (svc_member index st).1 = none := by
  obtain ⟨hex, hnone⟩ := h
  obtain ⟨c, hc, hne⟩ := st.named hex
  simp [svc_member, hex, hc, hne, hnone c hc]

/-! ## The explanation and the meaning -/

/-- What was read is true of the rule and the three objects. -/
structure Faithful (entry : Dict) (enabled : Prop) (q : Hbac.Request String)
    (user_m host_m : Option Membership) (user host service : String) (st : ServiceState) :
    Prop where
  enabled : ∀ b, SaysEnabled entry b → (enabled ↔ b = true)
  user_name : q.user.name = PyStr.lower user
  user_groups : ∀ m, user_m = some m → q.user.groups = { g | g ∈ m.all_groups }
  host_name : q.host.name = PyStr.lower host
  host_groups : ∀ m, host_m = some m → q.host.groups = { g | g ∈ m.all_groups }
  service_name : q.service.name = PyStr.lower service
  service_groups :
    st.exists_ ≠ none → q.service.groups = { g | g ∈ st.groups.map PyStr.lower }

/-- All there is to know was read. -/
structure AllRead (rule : HbacRule) (user_m host_m : Option Membership) (st : ServiceState) :
    Prop where
  user : user_m ≠ none
  host : host_m ≠ none
  service : st.exists_ ≠ none
  enabled : rule.enabled ≠ none

theorem covers_mono {s : Hbac.Side String} {o o' : Hbac.Object String} (hn : o.name = o'.name)
    (hg : o.groups ⊆ o'.groups) (h : s.Covers o) : s.Covers o' := by
  rcases h with h | h | ⟨g, hs, ho⟩
  · exact .inl h
  · exact .inr (.inl (hn ▸ h))
  · exact .inr (.inr ⟨g, hs, hg ho⟩)

theorem status_contradicting {is_matched covered chains_known data_complete : Bool}
    {enabled : Option Bool} :
    explanationStatus is_matched covered chains_known data_complete enabled = .contradicting ↔
      (is_matched = false ∧ covered = true ∧ enabled = some true) ∨
      (is_matched = true ∧ ¬(covered = true ∧ enabled = some true) ∧ data_complete = true
        ∧ enabled ≠ none) := by
  unfold explanationStatus
  cases is_matched <;> cases covered <;> cases data_complete <;> cases chains_known
    <;> rcases enabled with _ | _ | _ <;> simp

/-- The code's own view: each side covers its object as far as the object
was read. -/
structure Covered (index : RelationshipIndex) (rule : HbacRule)
    (user_m host_m : Option Membership) (user host service : String) (st : ServiceState) :
    Prop where
  user : rule.user.meaning.Covers (readObject user user_m)
  host : rule.host.meaning.Covers (readObject host host_m)
  service : rule.service.meaning.Covers (readObject service (svc_member index st).1)

section Explanation

variable {entry : Dict} {source : String} {index : RelationshipIndex} {rule : HbacRule}
  {user_m host_m : Option Membership} {user host service : String} {st : ServiceState}
  {is_matched : Bool} {enabled : Prop} {q : Hbac.Request String}

theorem explain_contradicting :
    (explain index rule user_m host_m user host service st is_matched).1.status = .contradicting ↔
      (is_matched = false ∧ Covered index rule user_m host_m user host service st
        ∧ rule.enabled = some true) ∨
      (is_matched = true ∧ ¬(Covered index rule user_m host_m user host service st
        ∧ rule.enabled = some true) ∧ AllRead rule user_m host_m st) := by
  have hcov : (explain index rule user_m host_m user host service st is_matched).1.sides.covered
      = true ↔ Covered index rule user_m host_m user host service st := by
    simp only [explain, Sides.covered, Bool.and_eq_true, covered_side]
    exact ⟨fun ⟨⟨hu, hh⟩, hs⟩ => ⟨hu, hh, hs⟩, fun ⟨hu, hh, hs⟩ => ⟨⟨hu, hh⟩, hs⟩⟩
  have hall : (user_m.isSome && host_m.isSome && st.exists_.isSome) = true ∧ rule.enabled ≠ none ↔
      AllRead rule user_m host_m st := by
    simp only [Bool.and_eq_true, Option.isSome_iff_ne_none]
    exact ⟨fun ⟨⟨⟨hu, hh⟩, hs⟩, he⟩ => ⟨hu, hh, hs, he⟩, fun ⟨hu, hh, hs, he⟩ => ⟨⟨⟨hu, hh⟩, hs⟩, he⟩⟩
  rw [← hcov, ← hall]
  exact status_contradicting

/-- What was read of an object is part of the object. -/
theorem readObject_subset {name : String} {member : Option Membership}
    {o : Hbac.Object String} (hm : ∀ m, member = some m → o.groups = { g | g ∈ m.all_groups }) :
    (readObject name member).groups ⊆ o.groups := by
  rintro g ⟨m, hmem, hg⟩
  rw [hm m hmem]
  exact hg

theorem groups_of_read {name : String} {member : Option Membership}
    {o : Hbac.Object String} (hm : ∀ m, member = some m → o.groups = { g | g ∈ m.all_groups })
    (hread : member ≠ none) : o.groups ⊆ (readObject name member).groups := by
  obtain ⟨m, rfl⟩ := Option.ne_none_iff_exists'.mp hread
  rw [hm m rfl]
  exact fun g hg => ⟨m, rfl, hg⟩

/-- What the code finds covered is: it knows no group the object is not in. -/
theorem matches_of_covered (hrule : ReadRule entry rule)
    (hf : Faithful entry enabled q user_m host_m user host service st)
    (hc : Covered index rule user_m host_m user host service st)
    (he : rule.enabled = some true) : (ruleOf entry enabled).Matches q := by
  have hservice : (readObject service (svc_member index st).1).groups ⊆ q.service.groups := by
    rintro g ⟨m, hm, hg⟩
    have hroom : ¬ NoRoom index st := by
      intro hno
      rw [svc_member_of_noRoom hno] at hm
      exact nomatch hm
    have hex : st.exists_ ≠ none := by
      intro hnone
      simp [svc_member, hnone] at hm
    rw [hf.service_groups hex]
    exact (svc_member_of_room hroom g).mp ⟨m, hm, hg⟩
  refine ⟨(hf.enabled true ((hrule.enabled true).mp he)).mpr rfl, ?_, ?_, ?_⟩
  · show (sideOf ..).Covers q.user
    rw [← hrule.user]
    exact covers_mono hf.user_name.symm (readObject_subset hf.user_groups) hc.user
  · show (sideOf ..).Covers q.host
    rw [← hrule.host]
    exact covers_mono hf.host_name.symm (readObject_subset hf.host_groups) hc.host
  · show (sideOf ..).Covers q.service
    rw [← hrule.service]
    exact covers_mono hf.service_name.symm hservice hc.service

/-- Everything the rule needs is there, and the service's groups are what
it takes, but they are forgotten: the index is full and has no node for
the service. -/
structure ForgottenService (index : RelationshipIndex) (rule : HbacRule)
    (user_m host_m : Option Membership) (user host service : String) (st : ServiceState) :
    Prop where
  no_room : NoRoom index st
  user_read : user_m ≠ none
  host_read : host_m ≠ none
  enabled : rule.enabled = some true
  user : rule.user.meaning.Covers (readObject user user_m)
  host : rule.host.meaning.Covers (readObject host host_m)
  service_itself : ¬ rule.service.meaning.Covers (readObject service none)
  service_group : ∃ g ∈ rule.service.groups, PyStr.lower g ∈ st.groups.map PyStr.lower

/-- A rule that matches is found to, when all was read and the service is
not forgotten. -/
theorem covered_of_matches (hrule : ReadRule entry rule)
    (hf : Faithful entry enabled q user_m host_m user host service st)
    (hall : AllRead rule user_m host_m st)
    (hkept : ¬ ForgottenService index rule user_m host_m user host service st)
    (hm : (ruleOf entry enabled).Matches q) :
    Covered index rule user_m host_m user host service st ∧ rule.enabled = some true := by
  obtain ⟨hen, huser, hhost, hservice⟩ := hm
  have hu : rule.user.meaning.Covers (readObject user user_m) := by
    rw [hrule.user]
    exact covers_mono hf.user_name (groups_of_read hf.user_groups hall.user) huser
  have hh : rule.host.meaning.Covers (readObject host host_m) := by
    rw [hrule.host]
    exact covers_mono hf.host_name (groups_of_read hf.host_groups hall.host) hhost
  have he : rule.enabled = some true := by
    obtain ⟨b, hb⟩ := Option.ne_none_iff_exists'.mp hall.enabled
    have htrue := (hf.enabled b ((hrule.enabled b).mp hb)).mp hen
    rw [hb, htrue]
  have hs : rule.service.meaning.Covers q.service := by
    rw [hrule.service]
    exact hservice
  refine ⟨⟨hu, hh, ?_⟩, he⟩
  by_cases hroom : NoRoom index st
  · -- only the groups could be lost, and then the service would be forgotten
    by_contra hnot
    have hnone := svc_member_of_noRoom hroom
    rw [hnone] at hnot
    refine hkept ⟨hroom, hall.user, hall.host, he, hu, hh, hnot, ?_⟩
    rcases hs with h | h | ⟨g, hg, hin⟩
    · exact absurd (Or.inl h) hnot
    · rw [hf.service_name] at h
      exact absurd (Or.inr (.inl h)) hnot
    · obtain ⟨x, hx, rfl⟩ := List.mem_map.mp hg
      rw [hf.service_groups hall.service] at hin
      exact ⟨x, hx, hin⟩
  · refine covers_mono hf.service_name (fun g hg => ?_) hs
    rw [hf.service_groups hall.service] at hg
    exact (svc_member_of_room hroom g).mpr hg

/-- The request as it was read, the service with its groups. -/
def readRequest (user_m host_m : Option Membership) (user host service : String)
    (st : ServiceState) : Hbac.Request String where
  user := readObject user user_m
  host := readObject host host_m
  service := ⟨PyStr.lower service, { g | g ∈ st.groups.map PyStr.lower }⟩

theorem faithful_readRequest (hrule : ReadRule entry rule) {b : Bool}
    (hb : rule.enabled = some b) :
    Faithful entry (b = true) (readRequest user_m host_m user host service st) user_m host_m
      user host service st where
  enabled c hc := by
    have hc := (hrule.enabled c).mpr hc
    rw [hb] at hc
    cases hc
    exact Iff.rfl
  user_name := rfl
  user_groups m hm := by simp [readRequest, readObject, hm]
  host_name := rfl
  host_groups m hm := by simp [readRequest, readObject, hm]
  service_name := rfl
  service_groups _ := rfl

theorem matches_of_forgotten (hrule : ReadRule entry rule)
    (h : ForgottenService index rule user_m host_m user host service st) :
    (ruleOf entry (true = true)).Matches (readRequest user_m host_m user host service st) := by
  refine ⟨rfl, ?_, ?_, ?_⟩
  · show (sideOf ..).Covers _
    rw [← hrule.user]
    exact h.user
  · show (sideOf ..).Covers _
    rw [← hrule.host]
    exact h.host
  · show (sideOf ..).Covers _
    rw [← hrule.service]
    obtain ⟨g, hg, hin⟩ := h.service_group
    exact .inr (.inr ⟨PyStr.lower g, List.mem_map_of_mem hg, hin⟩)

/-- Whatever is true behind the data, an explanation that contradicts the
evaluator is right to, and one made from all there is to know contradicts
it whenever it should. -/
def Agrees (entry : Dict) (index : RelationshipIndex) (rule : HbacRule)
    (user_m host_m : Option Membership) (user host service : String) (st : ServiceState)
    (is_matched : Bool) : Prop :=
  ∀ (enabled : Prop) (q : Hbac.Request String),
    Faithful entry enabled q user_m host_m user host service st →
    let status := (explain index rule user_m host_m user host service st is_matched).1.status
    (status = .contradicting → ¬((ruleOf entry enabled).Matches q ↔ is_matched = true)) ∧
    (AllRead rule user_m host_m st →
      (status = .contradicting ↔ ¬((ruleOf entry enabled).Matches q ↔ is_matched = true)))

theorem not_agrees_of_forgotten (hrule : ReadRule entry rule)
    (h : ForgottenService index rule user_m host_m user host service st) :
    ¬ Agrees entry index rule user_m host_m user host service st is_matched := by
  intro hagrees
  have hall : AllRead rule user_m host_m st := by
    refine ⟨h.user_read, h.host_read, ?_, ?_⟩
    · simp [h.no_room.1]
    · simp [h.enabled]
  have hmatch := matches_of_forgotten hrule h
  have hnot : ¬ Covered index rule user_m host_m user host service st := by
    intro hc
    have hside := hc.service
    rw [svc_member_of_noRoom h.no_room] at hside
    exact h.service_itself hside
  have hiff := (hagrees _ _ (faithful_readRequest hrule h.enabled)).2 hall
  rw [explain_contradicting] at hiff
  cases is_matched with
  | true =>
      have hdiffers := hiff.mp (.inr ⟨rfl, fun hc => hnot hc.1, hall⟩)
      exact hdiffers ⟨fun _ => rfl, fun _ => hmatch⟩
  | false =>
      rcases hiff.mpr (fun heq => nomatch heq.mp hmatch) with ⟨-, hc, -⟩ | ⟨heq, -⟩
      · exact hnot hc
      · exact nomatch heq

theorem agrees_of_kept (hrule : ReadRule entry rule)
    (hkept : ¬ ForgottenService index rule user_m host_m user host service st) :
    Agrees entry index rule user_m host_m user host service st is_matched := by
  intro enabled q hf
  simp only [explain_contradicting]
  have hdown : Covered index rule user_m host_m user host service st →
      rule.enabled = some true → (ruleOf entry enabled).Matches q := matches_of_covered hrule hf
  have hup := fun hall => covered_of_matches hrule hf hall hkept
  refine ⟨?_, fun hall => ⟨?_, ?_⟩⟩
  · rintro (⟨rfl, hc, he⟩ | ⟨rfl, hc, hall⟩) heq
    · exact nomatch heq.mp (hdown hc he)
    · exact hc (hup hall (heq.mpr rfl))
  · rintro (⟨rfl, hc, he⟩ | ⟨rfl, hc, -⟩) heq
    · exact nomatch heq.mp (hdown hc he)
    · exact hc (hup hall (heq.mpr rfl))
  · intro hne
    cases is_matched with
    | true =>
        exact .inr ⟨rfl, fun hc => hne ⟨fun _ => rfl, fun _ => hdown hc.1 hc.2⟩, hall⟩
    | false =>
        refine .inl ⟨rfl, ?_⟩
        by_contra hc
        exact hne ⟨fun hm => absurd (hup hall hm) hc, fun heq => nomatch heq⟩

/-- The explanation agrees with the meaning of the rule exactly when it
does not forget the service. -/
theorem explanation_agrees_iff (h : HbacRule.from_api (.dict entry) source = some rule) :
    Agrees entry index rule user_m host_m user host service st is_matched ↔
      ¬ ForgottenService index rule user_m host_m user host service st :=
  ⟨fun hagrees hforgot => not_agrees_of_forgotten (from_api_read h) hforgot hagrees,
    agrees_of_kept (from_api_read h)⟩

end Explanation

/-! ## A service without a node -/

namespace Remote

/-- A rule for everyone and every host, on the services of one group. -/
def entry : Dict :=
  [("cn", .list [.str "remote_logins"]), ("ipaenabledflag", .list [.str "TRUE"]),
    ("usercategory", .list [.str "all"]), ("hostcategory", .list [.str "all"]),
    ("memberservice_hbacsvcgroup", .list [.str "remote"])]

def rule : HbacRule where
  name := "remote_logins"
  enabled := some true
  user := ⟨true, [], []⟩
  host := ⟨true, [], []⟩
  service := ⟨false, [], ["remote"]⟩
  source := "hbacrule_show remote_logins"

theorem from_api_rule :
    HbacRule.from_api (.dict entry) "hbacrule_show remote_logins" = some rule := by
  decide +kernel

def sshd : ServiceState where
  exists_ := some true
  canonical := some "sshd"
  groups := ["remote"]

def bob : Membership := ⟨⟨.user, "bob"⟩, [], []⟩

def app : Membership := ⟨⟨.host, "app.ipa.test"⟩, [], []⟩

/-- The groups of a user in very many of them. -/
def crowd : List Node := (List.range MAX_NODES).map fun i => ⟨.group, "team" ++ toString i⟩

theorem kind_of_crowd {n : Node} (hn : n ∈ crowd) : n.kind = .group := by
  simp only [crowd, List.mem_map] at hn
  obtain ⟨i, -, rfl⟩ := hn
  rfl

def full : RelationshipIndex where
  nodes := crowd
  nodes_le := by simp [crowd]

theorem full_no_room : NoRoom full sshd := by
  refine ⟨rfl, fun c _ => RelationshipIndex.node_fst_eq_none.mpr ⟨?_, by simp [full, crowd]⟩⟩
  rw [RelationshipIndex.find, List.find?_eq_none]
  simp only [full]
  intro n hn
  have hkind := kind_of_crowd hn
  simp [Node.key, hkind]

theorem forgotten :
    ForgottenService full rule (some bob) (some app) "bob" "app.ipa.test" "sshd" sshd where
  no_room := full_no_room
  user_read := nofun
  host_read := nofun
  enabled := rfl
  user := .inl rfl
  host := .inl rfl
  service_itself := by
    rintro (h | h | ⟨g, -, m, h, -⟩)
    · exact nomatch h
    · exact nomatch h
    · exact nomatch h
  service_group := ⟨"remote", List.mem_singleton_self _, List.mem_singleton_self _⟩

end Remote

/-- An empty index forgets nothing. -/
theorem remote_rule_agrees :
    Agrees Remote.entry {} Remote.rule (some Remote.bob) (some Remote.app) "bob" "app.ipa.test"
      "sshd" Remote.sshd true := by
  refine (explanation_agrees_iff Remote.from_api_rule).mpr fun h => ?_
  have hnone := h.no_room.2 "sshd" rfl
  exact absurd (RelationshipIndex.node_fst_eq_none.mp hnone).2 (by decide)

/-- The rule the evaluator matched through the group of the service is
said to contradict it. -/
theorem forgotten_service_contradicts :
    ¬ ∀ (entry : Dict) (source : String) (index : RelationshipIndex) (rule : HbacRule)
        (user_m host_m : Option Membership) (user host service : String) (st : ServiceState)
        (is_matched : Bool), HbacRule.from_api (.dict entry) source = some rule →
      Agrees entry index rule user_m host_m user host service st is_matched := by
  intro h
  exact not_agrees_of_forgotten (from_api_read Remote.from_api_rule) Remote.forgotten
    (h _ _ _ _ _ _ _ _ _ _ true Remote.from_api_rule)

end IpaDiagnose.Access
