import GroundPlanner.Condition
/-!
# Ground actions

An action has a precondition and a list of guarded effects.  Every guard is read in the state before the
action; the effects whose guards hold are then applied one after another.
-/
namespace GroundPlanner

structure GuardedEffect where
  guard : Condition
  effect : Effect
deriving DecidableEq, Repr

structure Action where
  name : String
  precondition : Condition
  effects : List GuardedEffect
deriving DecidableEq, Repr

namespace Action

def applicable (a : Action) (s : State) : Bool :=
  s.satisfies a.precondition

/-- The effects whose guards hold in `s`. -/
def fired (a : Action) (s : State) : List Effect :=
  (a.effects.filter (fun e => s.satisfies e.guard)).map GuardedEffect.effect

/-- The state after the action; applicability is not asked for. -/
def successor (a : Action) (s : State) : State :=
  (a.fired s).foldl State.apply s

theorem words_successor (a : Action) (s : State) : (a.successor s).words = s.words :=
  State.words_foldl_apply s (a.fired s)

end Action
end GroundPlanner
