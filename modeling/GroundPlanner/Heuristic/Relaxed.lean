import GroundPlanner.Heuristic.Cost
import GroundPlanner.Heuristic.Name
import GroundPlanner.Problem.Basic
/-!
# Estimates on the delete relaxation

In the relaxed problem deletes and negative literals are ignored: every guarded effect that adds something
becomes an operator of its own, whose precondition joins the action's and the guard's.  A pass over the
operators lowers the cost of each fact they add to one more than the cost of their precondition; passes are
repeated until one changes nothing.  Each pass settles at least one more fact, in order of final costs, so
one pass more than there are facts is enough.

The goal's cost is then the dearest goal fact, their sum, or the number of actions in a relaxed plan: the
operators that last lowered the goal facts, the facts of their preconditions, and so on.
-/
namespace GroundPlanner

/-- One guarded effect of one action, without its deletes. -/
structure Operator where
  action : Nat
  pre : List FactId
  add : List FactId
deriving DecidableEq, Repr

namespace Operator

def ofEffect (action : Nat) (precondition : Condition) (e : GuardedEffect) : Option Operator :=
  if e.effect.add.isEmpty then none
  else some ⟨action, ascending (precondition.positive ++ e.guard.positive), e.effect.add⟩

/-- The operators of all actions, in order. -/
def ofActions (actions : List Action) : List Operator :=
  actions.zipIdx.flatMap (fun (a, i) => a.effects.filterMap (ofEffect i a.precondition))

end Operator

/-- Costs of the facts, and for each fact the operator that last lowered its cost. -/
structure Labels where
  costs : Array Cost
  supporters : Array (Option Operator)

namespace Labels

/-- Facts of the state cost nothing, all others are out of reach so far. -/
def start (numFacts : Nat) (s : State) : Labels where
  costs := Array.ofFn (n := numFacts) (fun f => if s.contains f then Cost.zero else .infinite)
  supporters := Array.replicate numFacts none

def cost (l : Labels) (f : FactId) : Cost :=
  l.costs.getD f .infinite

def supporter (l : Labels) (f : FactId) : Option Operator :=
  l.supporters.getD f none

/-- The cost of several facts together. -/
def total (kind : HeuristicKind) (l : Labels) (fs : List FactId) : Cost :=
  match kind with
  | .max => fs.foldl (fun c f => c.max (l.cost f)) .zero
  | .additive | .fastForward => fs.foldl (fun c f => c.add (l.cost f)) .zero

/-- Lowers the cost of one fact; the flag records that something changed. -/
def lower (o : Operator) (reached : Cost) (p : Labels × Bool) (f : FactId) : Labels × Bool :=
  if reached.lt (p.1.cost f) then
    (⟨p.1.costs.setIfInBounds f reached, p.1.supporters.setIfInBounds f (some o)⟩, true)
  else p

/-- Offers the added facts of an operator one more than the cost of its precondition. -/
def relax (kind : HeuristicKind) (p : Labels × Bool) (o : Operator) : Labels × Bool :=
  match p.1.total kind o.pre with
  | .infinite => p
  | c => o.add.foldl (lower o c.succ) p

def pass (kind : HeuristicKind) (operators : List Operator) (l : Labels) : Labels × Bool :=
  operators.foldl (relax kind) (l, false)

/-- Passes until nothing changes, at most `n` of them. -/
def settle (kind : HeuristicKind) (operators : List Operator) : Nat → Labels → Labels
  | 0, l => l
  | n + 1, l =>
    match pass kind operators l with
    | (l', true) => settle kind operators n l'
    | (l', false) => l'

end Labels

/-- An estimate for one problem. -/
structure Relaxation where
  name : HeuristicName
  numFacts : Nat
  operators : List Operator

namespace Relaxation

def ofProblem (name : HeuristicName) (p : Problem) : Relaxation :=
  ⟨name, p.numFacts, Operator.ofActions p.actions⟩

def kind (r : Relaxation) : HeuristicKind :=
  r.name.kind

/-- The settled costs of all facts from a state. -/
def labels (r : Relaxation) (s : State) : Labels :=
  Labels.settle r.kind r.operators (r.numFacts + 1) (.start r.numFacts s)

/-- Collects the supporters of the facts on the stack and, in turn, of the facts in their preconditions. -/
def collect (l : Labels) : Nat → List FactId → State → List Operator → List Operator
  | _, [], _, chosen => chosen
  | 0, _, _, chosen => chosen
  | n + 1, f :: stack, visited, chosen =>
    if visited.contains f then collect l n stack visited chosen
    else match l.supporter f with
      | none => collect l n stack (visited.insert f) chosen
      | some o => collect l n (o.pre.reverse ++ stack) (visited.insert f) (o :: chosen)

/-- The operators of a relaxed plan for `goal`.  Each fact is expanded once, so the steps number at most
the goal facts and the facts in the preconditions of all supporters. -/
def relaxedPlan (r : Relaxation) (l : Labels) (goal : List FactId) : List Operator :=
  let work := l.supporters.foldl (fun n o => n + o.elim 0 (·.pre.length)) 0
  collect l (goal.length + work) goal.reverse (.empty r.numFacts) []

/-- The number of distinct actions among operators. -/
def actionCount (os : List Operator) : Nat :=
  (ascending (os.map Operator.action)).length

/-- The estimated number of actions from `s` to a state with the positive facts of `goal`. -/
def estimate (r : Relaxation) (s : State) (goal : Condition) : Cost :=
  if goal.positive.all s.contains then .zero
  else if goal.positive.any (fun g => r.numFacts ≤ g) then .infinite
  else
    let l := r.labels s
    match r.kind with
    | .max | .additive => l.total r.kind goal.positive
    | .fastForward =>
      if goal.positive.all (fun g => (l.cost g).isFinite) then
        .finite (actionCount (r.relaxedPlan l goal.positive))
      else .infinite

end Relaxation
end GroundPlanner
