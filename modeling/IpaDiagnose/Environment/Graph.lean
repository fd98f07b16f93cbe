import IpaDiagnose.Lib.PyEq
import IpaDiagnose.TextSafe

/-!
# The environment graph: facts

What is known of the entities around an investigation. A fact belongs to a
subject, has a name and, if it is relative to one, an observer; it is
established, unknown or contradicted. Facts are only added: one observer
that reports two values for the same thing contradicts itself.
-/

namespace IpaDiagnose.Environment

open Py (Value Dict)

/-! ## Values -/

mutual

/-- A value as the graph keeps it: texts sanitized, containers bounded. -/
def clean : Value → Value
  | .str s => .str (sanitizeText s 300)
  | .list xs => .list (cleanList 64 xs)
  | .dict kvs => .dict (cleanDict 64 [] kvs)
  | v => v

def cleanList : Nat → List Value → List Value
  | 0, _ => []
  | _, [] => []
  | room + 1, x :: xs => clean x :: cleanList room xs

def cleanDict : Nat → Dict → List (String × Value) → Dict
  | 0, out, _ => out
  | _, out, [] => out
  | room + 1, out, (k, x) :: kvs =>
      cleanDict room (Assoc.put (sanitizeText k 80) (clean x) out) kvs

end

/-! ## Facts -/

inductive State where
  | established
  | unknown
  | contradicted
deriving DecidableEq

structure Fact where
  value : Value
  state : State
  evidence : List String
  collectedAt : Option String
  source : String
  context : List (String × String)
  conflicting : List Value := []

/-- What a fact is about. -/
structure Key where
  subject : String
  name : String
  observedFrom : Option String
deriving DecidableEq

def MAX_FACTS : Nat := 3000

structure GraphError where
  message : String

/-- The part of the graph that facts need: the entities there are, the
facts, and how many facts were dropped. -/
structure Graph where
  entities : List String
  facts : List (Key × Fact) := []
  droppedFacts : Nat := 0

/-- What is reported of a subject, besides what it is about. -/
structure Report where
  value : Value
  state : State := .established
  evidence : List String := []
  collectedAt : Option String := none
  source : String := "LIVE"
  context : List (String × String) := []

def sortedSet (xs : List String) : List String := xs.eraseDups.insertionSort (· ≤ ·)

/-- The fact a report makes: an established fact has a value. -/
def Report.fact (r : Report) : Fact :=
  let value := clean r.value
  { value := value
    state := if value = .null ∧ r.state = .established then .unknown else r.state
    evidence := sortedSet r.evidence
    collectedAt := r.collectedAt
    source := r.source
    context := r.context.insertionSort fun a b => a.1 ≤ b.1 }

/-- A new fact about something that a fact is known of. -/
def merge (old new : Fact) : Fact :=
  if old.state = .established ∧ new.state = .established ∧ old.value.pyEq new.value = false then
    -- the same observer reported two different values for the same thing
    { old with
      state := .contradicted
      conflicting := old.conflicting ++ [new.value]
      evidence := sortedSet (old.evidence ++ new.evidence) }
  else if old.state = .unknown ∧ new.state = .established then new
  else old

def Graph.addFact (g : Graph) (subject : Option String) (name : String)
    (observedFrom : Option String) (r : Report) : Except GraphError Graph :=
  match subject with
  | none => .ok g
  | some subject =>
      if subject ∉ g.entities then .error ⟨"fact about an unknown entity " ++ subject⟩
      else if r.source ≠ "LIVE" ∧ r.source ≠ "REPLAY" then
        .error ⟨"a fact is LIVE or REPLAY"⟩
      else
        let key : Key := ⟨subject, name, observedFrom⟩
        match g.facts.lookup key with
        | some old => .ok { g with facts := Assoc.put key (merge old r.fact) g.facts }
        | none =>
            if MAX_FACTS ≤ g.facts.length then .ok { g with droppedFacts := g.droppedFacts + 1 }
            else .ok { g with facts := Assoc.put key r.fact g.facts }

/-- Reports about one thing, one after the other. -/
def Graph.addFacts (g : Graph) (key : Key) (reports : List Report) : Except GraphError Graph :=
  reports.foldlM (fun g r => g.addFact (some key.subject) key.name key.observedFrom r) g

end IpaDiagnose.Environment
