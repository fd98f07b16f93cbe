import Mathlib.Data.Set.Basic
import IpaDiagnose.Access.Relations

/-!
# Why a rule matched, or did not

What an HBAC rule means, and the explanation of one rule against what was
read of the three objects. An explanation contradicts the evaluator when
the data read says the opposite; otherwise it is complete, or some of the
data is missing.
-/

/-! ## What a rule means -/

namespace Hbac

variable {ν : Type}

structure Side (ν : Type) where
  all : Prop
  names : Set ν
  groups : Set ν

/-- A user, a host or a service, and every group it is in. -/
structure Object (ν : Type) where
  name : ν
  groups : Set ν

def Side.Covers (s : Side ν) (o : Object ν) : Prop :=
  s.all ∨ o.name ∈ s.names ∨ ∃ g ∈ s.groups, g ∈ o.groups

structure Rule (ν : Type) where
  enabled : Prop
  user : Side ν
  host : Side ν
  service : Side ν

structure Request (ν : Type) where
  user : Object ν
  host : Object ν
  service : Object ν

def Rule.Matches (r : Rule ν) (q : Request ν) : Prop :=
  r.enabled ∧ r.user.Covers q.user ∧ r.host.Covers q.host ∧ r.service.Covers q.service

end Hbac

namespace IpaDiagnose.Access

open Py (Value Dict)
open RelationshipIndex (node)

/-! ## The explanation of one rule -/

/-- What was read of the service: one that exists has a name, and only one
that exists has groups. -/
structure ServiceState where
  exists_ : Option Bool := none
  canonical : Option String := none
  groups : List String := []
  named : exists_ = some true → ∃ c, canonical = some c ∧ c ≠ "" := by simp
  unread : exists_ ≠ some true → groups = [] := by simp

inductive ExplanationStatus where
  | complete
  | incomplete
  | contradicting
deriving DecidableEq, Repr

structure Sides where
  user : List SideExplanation
  host : List SideExplanation
  service : List SideExplanation

structure RuleExplanation where
  rule : String
  enabled : Option Bool
  matched_by_freeipa : Bool
  sides : Sides
  status : ExplanationStatus
  source : String

def SideExplanation.covers (s : SideExplanation) : Bool := s.how != .none && s.how != .unknown

def Sides.covered (s : Sides) : Bool :=
  s.user.any (·.covers) && s.host.any (·.covers) && s.service.any (·.covers)

def Sides.chains_known (s : Sides) : Bool :=
  s.user.all (·.chain_complete) && s.host.all (·.chain_complete)
    && s.service.all (·.chain_complete)

/-- The status of an explanation: the evaluator's word against the data. -/
def explanationStatus (matched covered chains_known data_complete : Bool)
    (enabled : Option Bool) : ExplanationStatus :=
  if matched then
    if covered && enabled == some true then if chains_known then .complete else .incomplete
    else if !data_complete || enabled == none then .incomplete
    else .contradicting
  else if covered && enabled == some true then .contradicting
  else if data_complete then .complete
  else .incomplete

/-- The service as a member of its groups, when the index holds a node for
it. -/
def svc_member (index : RelationshipIndex) (service_st : ServiceState) :
    Option Membership × RelationshipIndex :=
  match service_st.exists_, service_st.canonical with
  | some true, some canonical =>
      if canonical = "" then (none, index)
      else
        let (n, index) := index.node .hbacService canonical
        (n.map fun n => ⟨n, service_st.groups, []⟩, index)
  | _, _ => (none, index)

def explain (index : RelationshipIndex) (rule : HbacRule) (user_m host_m : Option Membership)
    (user host service : String) (service_st : ServiceState) (is_matched : Bool) :
    RuleExplanation × RelationshipIndex :=
  let (svc, index) := svc_member index service_st
  let (user_side, index) := explain_side index .user rule.user user_m user .group
  let (host_side, index) := explain_side index .host rule.host host_m host .hostgroup
  let (service_side, index) :=
    explain_side index .service rule.service svc service .hbacServiceGroup
      service_st.exists_.isSome
  let sides : Sides := ⟨user_side, host_side, service_side⟩
  let data_complete := user_m.isSome && host_m.isSome && service_st.exists_.isSome
  ({ rule := rule.name
     enabled := rule.enabled
     matched_by_freeipa := is_matched
     sides
     status := explanationStatus is_matched sides.covered sides.chains_known data_complete
       rule.enabled
     source := rule.source }, index)

end IpaDiagnose.Access
