import GroundPlanner.Text.Basic
/-!
# Names of heuristics

Nine names are configurable.  They select one of three estimates on the relaxed problem; the names that
promise mutex reasoning select the estimate without mutexes that they would refine.
-/
namespace GroundPlanner

/-- How relaxed costs are combined into an estimate. -/
inductive HeuristicKind where
  /-- The dearest precondition. -/
  | max
  /-- The sum over the preconditions. -/
  | additive
  /-- The number of actions in a relaxed plan read off the additive costs. -/
  | fastForward
deriving DecidableEq, Repr

namespace HeuristicKind

def label : HeuristicKind → String
  | max => "Max"
  | additive => "Additive"
  | fastForward => "FastForward"

end HeuristicKind

inductive HeuristicName where
  | ajustedSum
  | ajustedSum2
  | ajustedSum2M
  | combo
  | max
  | fastForward
  | setLevel
  | sum
  | sumMutex
deriving DecidableEq, Repr

namespace HeuristicName

def all : List HeuristicName :=
  [ajustedSum, ajustedSum2, ajustedSum2M, combo, max, fastForward, setLevel, sum, sumMutex]

theorem mem_all (h : HeuristicName) : h ∈ all := by
  cases h <;> decide

/-- The name on the command line and in messages. -/
def label : HeuristicName → String
  | ajustedSum => "AJUSTED_SUM"
  | ajustedSum2 => "AJUSTED_SUM2"
  | ajustedSum2M => "AJUSTED_SUM2M"
  | combo => "COMBO"
  | max => "MAX"
  | fastForward => "FAST_FORWARD"
  | setLevel => "SET_LEVEL"
  | sum => "SUM"
  | sumMutex => "SUM_MUTEX"

/-- The spelling in configuration files, which splits a trailing letter from the digit before it. -/
def fileLabel : HeuristicName → String
  | ajustedSum2M => "AJUSTED_SUM2_M"
  | h => h.label

def kind : HeuristicName → HeuristicKind
  | max | setLevel => .max
  | sum | sumMutex | ajustedSum | combo => .additive
  | fastForward | ajustedSum2 | ajustedSum2M => .fastForward

/-- The heuristic of exactly this spelling in a configuration file. -/
def ofFileLabel? (s : String) : Option HeuristicName :=
  all.find? (fun h => h.fileLabel == s)

/-- Reads a name leniently: blanks around it and case do not matter, and a dash stands for an underscore. -/
def parse? (s : String) : Option HeuristicName :=
  let word := Text.replaceChar '-' '_' (Text.trim s)
  all.find? (fun h => Text.equalIgnoringCase h.label word)

end HeuristicName

instance : Inhabited HeuristicName := ⟨.fastForward⟩

end GroundPlanner
