import GroundPlanner.Problem.Basic
/-!
# Plans

A plan is a sequence of action indices, so it means something only together with a problem.  `simulate`
executes it from the initial state; `validate` asks in addition for the goal.
-/
namespace GroundPlanner

structure Plan where
  steps : List Nat
deriving DecidableEq, Repr

namespace Plan

def empty : Plan :=
  ⟨[]⟩

def length (p : Plan) : Nat :=
  p.steps.length

def isEmpty (p : Plan) : Bool :=
  p.steps.isEmpty

/-- Appends a step at the end. -/
def push (p : Plan) (action : Nat) : Plan :=
  ⟨p.steps ++ [action]⟩

/-- The actions of the plan, if all its indices are in range. -/
def resolve (p : Plan) (actions : List Action) : Option (List Action) :=
  p.steps.mapM (fun i => actions[i]?)

def names (p : Plan) (problem : Problem) : Except PlannerError (List String) :=
  match p.resolve problem.actions with
  | some as => .ok (as.map Action.name)
  | none => .error (.plan .unresolved)

/-- Executes the steps from `s`; `done` steps went before. -/
def run (actions : List Action) : Nat → State → List Nat → Except PlanFault State
  | _, s, [] => .ok s
  | done, s, i :: is =>
    match actions[i]? with
    | none => .error (.outOfRange done i actions.length)
    | some a =>
      if a.applicable s then run actions (done + 1) (a.successor s) is
      else .error (.notApplicable done a.name)

/-- The state after the plan. -/
def simulate (p : Plan) (problem : Problem) : Except PlannerError State :=
  (run problem.actions 0 problem.init p.steps).mapError .plan

/-- The plan can be executed and ends in a goal state. -/
def validate (p : Plan) (problem : Problem) : Except PlannerError Unit := do
  let final ← p.simulate problem
  if problem.isGoal final then return () else throw (.plan .goalMissed)

/-- One line per step, the step numbers aligned on the right. -/
def display (p : Plan) (problem : Problem) : String :=
  let width := (Text.ofNat (p.length - 1)).length
  String.join (p.steps.zipIdx.map (fun (i, step) =>
    Text.padLeft width (Text.ofNat step) ++ ": " ++
      (match problem.actions[i]? with
        | some a => "(" ++ a.name ++ ")"
        | none => "<unknown action " ++ Text.ofNat i ++ ">") ++ "\n"))

/-- The indices between brackets. -/
def listing (p : Plan) : String :=
  "[" ++ Text.join ", " (p.steps.map Text.ofNat) ++ "]"

end Plan

/-- What a check that expects a good plan reports of a bad one. -/
inductive PlanAlarm where
  | invalid (plan : Plan) (cause : PlannerError)
  | unresolved (plan : Plan) (cause : PlannerError)

namespace PlanAlarm

def message : PlanAlarm → String
  | invalid p e => "plan " ++ p.listing ++ " is not valid: " ++ e.message
  | unresolved p e => "plan " ++ p.listing ++ " does not resolve: " ++ e.message

end PlanAlarm

namespace Plan

/-- Expects a valid plan. -/
def expectValid (p : Plan) (problem : Problem) : Except PlanAlarm Unit :=
  (p.validate problem).mapError (.invalid p)

/-- Expects indices in range, and gives the names of the actions. -/
def expectNames (p : Plan) (problem : Problem) : Except PlanAlarm (List String) :=
  (p.names problem).mapError (.unresolved p)

end Plan
end GroundPlanner
