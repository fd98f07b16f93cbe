import Mathlib.Algebra.GroupWithZero.Nat
import Mathlib.Data.List.Dedup
import Mathlib.Data.List.Sort
import Mathlib.Logic.Function.Basic

/-!
# Articulation points of a suffix's topology

Servers whose removal disconnects the others. The search goes down from
each server not seen yet, with a stack of its own; each server gets the
number it was found at and the lowest number that is reached from below
it by one step off the tree.
-/

namespace IpaDiagnose.Topology

def MAX_NODES : Nat := 400

/-- `sorted(set(names))`. -/
def sortedSet (names : List String) : List String := names.dedup.insertionSort (· ≤ ·)

/-! ## The search -/

/-- A node on the stack, the node it was found from, and the neighbours
its iterator has not given yet. -/
structure Frame (V : Type) where
  node : V
  parent : Option V
  it : List V

/-- `low` is read only where `disc` is set. -/
structure Search (V : Type) where
  disc : V → Option Nat := fun _ => none
  low : V → Nat := fun _ => 0
  points : List V := []
  counter : Nat := 0
  children : Nat := 0
  stack : List (Frame V) := []

section Search

variable {V : Type} [DecidableEq V]

namespace Search

def num (s : Search V) (x : V) : Nat := (s.disc x).getD 0

/-- `low[x] = min(low[x], n)`. -/
def lower (s : Search V) (x : V) (n : Nat) : V → Nat := Function.update s.low x (min (s.low x) n)

/-- The last neighbour was looked at: back to the parent. -/
def leave (s : Search V) (node : V) (parent : Option V) (rest : List (Frame V)) : Search V :=
  match parent with
  | none => { s with stack := rest }
  | some p =>
      let low := s.lower p (s.low node)
      let points :=
        match rest with
        | below :: _ =>
            if below.parent.isSome ∧ s.num p ≤ low node then s.points.insert p else s.points
        | [] => s.points
      { s with stack := rest, low := low, points := points }

/-- A neighbour that is not the parent. -/
def visit (s : Search V) (adj : V → List V) (root node nxt : V) : Search V :=
  match s.disc nxt with
  | some d => { s with low := s.lower node d }
  | none =>
      { s with
        disc := Function.update s.disc nxt (some s.counter)
        low := Function.update s.low nxt s.counter
        counter := s.counter + 1
        children := if node = root then s.children + 1 else s.children
        stack := ⟨nxt, some node, adj nxt⟩ :: s.stack }

/-- One round of the loop. -/
def step (adj : V → List V) (root : V) (s : Search V) : Search V :=
  match s.stack with
  | [] => s
  | ⟨node, parent, []⟩ :: rest => s.leave node parent rest
  | ⟨node, parent, nxt :: it⟩ :: rest =>
      let s := { s with stack := ⟨node, parent, it⟩ :: rest }
      if parent = some nxt then s else s.visit adj root node nxt

/-- The loop while the stack is not empty. -/
def run (adj : V → List V) (root : V) : Nat → Search V → Search V
  | 0, s => s
  | rounds + 1, s => if s.stack.isEmpty then s else run adj root rounds (step adj root s)

/-- As many rounds as the loop can take: each neighbour of a node is
looked at once, and the node is left once. -/
def rounds (adj : V → List V) (nodes : List V) : Nat :=
  (nodes.map fun n => (adj n).length + 1).sum

/-- The search begins at a root. -/
def enter (s : Search V) (adj : V → List V) (root : V) : Search V :=
  { s with
    disc := Function.update s.disc root (some s.counter)
    low := Function.update s.low root s.counter
    counter := s.counter + 1
    children := 0
    stack := [⟨root, none, adj root⟩] }

def fromRoot (adj : V → List V) (nodes : List V) (s : Search V) (root : V) : Search V :=
  if (s.disc root).isSome then s
  else
    let s := run adj root (rounds adj nodes) (s.enter adj root)
    if 1 < s.children then { s with points := s.points.insert root } else s

end Search

end Search

/-! ## Articulation points -/

/-- The neighbours of a node, sorted: no self-loops, no ends that are not
among the nodes. -/
def neighbours (nodes : List String) (edges : List (String × String)) (n : String) :
    List String :=
  sortedSet (edges.flatMap fun e =>
    if e.1 ∈ nodes ∧ e.2 ∈ nodes ∧ e.1 ≠ e.2 then
      (if e.1 = n then [e.2] else []) ++ (if e.2 = n then [e.1] else [])
    else [])

def articulation_points (nodes : List String) (edges : List (String × String)) : List String :=
  let nodes := (sortedSet nodes).take MAX_NODES
  sortedSet (nodes.foldl (Search.fromRoot (neighbours nodes edges) nodes) {}).points

end IpaDiagnose.Topology
