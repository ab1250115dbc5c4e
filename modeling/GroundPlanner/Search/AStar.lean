import GroundPlanner.Heuristic.Relaxed
import GroundPlanner.Log.Record
import GroundPlanner.Search.Frontier
import GroundPlanner.Search.Node
import GroundPlanner.Search.OpenList
import GroundPlanner.Search.Outcome
import GroundPlanner.Search.Termination
/-!
# Weighted A*

Best-first search on `weight · estimate + cost`.  A state is expanded when a node of it is taken off the
open list for the first time; further nodes of it are stale.  Successors in closed states are dropped, and
with suppression of duplicates also those whose state was offered before at no greater cost.

`advance` is one turn of the loop; `run` repeats it until the goal, an empty open list or the termination
ends the search.  Each turn takes a node off the list, and only the first node of a state puts others on
it, one for each action at most: after one turn for the root and one for each action in each state, the
list is empty.  `turns` is that number with all bit patterns counted as states, so the bound on the turns
is never what ends a search.
-/
namespace GroundPlanner

/-- What to search with. -/
structure AStar where
  heuristic : HeuristicName
  weight : Float
  suppressDuplicates : Bool := false

namespace AStar

/-- What happened to a node taken off the open list. -/
inductive Event where
  | expanded (node cost : Nat) (estimate : Float) (successors : Nat)
  | stale (node cost : Nat)

/-- The state of a search between two turns. -/
structure Progress where
  nodes : Array Node
  openList : OpenList Nat
  closed : ClosedSet State
  openCosts : OpenCosts State
  stats : AStarStats
  /-- Latest first. -/
  events : List Event

/-- The result of a turn. -/
inductive Turn where
  | more (p : Progress)
  | done (outcome : SearchOutcome) (p : Progress)

/-- A search on one problem. -/
structure Setup where
  search : AStar
  problem : Problem
  relaxation : Relaxation

namespace Setup

def estimate (s : Setup) (state : State) : Float :=
  (s.relaxation.estimate state s.problem.goal).toFloat

/-- Puts a new node on the open list. -/
def enqueue (s : Setup) (p : Progress) (n : Node) : Progress :=
  { p with
    nodes := p.nodes.push n
    openList := p.openList.push p.nodes.size (n.priority s.search.weight).toBits n.estimate.toBits }

/-- The search before its first turn: the root is open. -/
def start (s : Setup) : Progress :=
  let init := s.problem.init
  s.enqueue
    { nodes := #[]
      openList := .empty
      closed := .empty
      openCosts := if s.search.suppressDuplicates then (OpenCosts.empty.offer init 0).2 else .empty
      stats := {}
      events := [] }
    (.root init (s.estimate init))

/-- Whether to put a successor on the open list, and the costs known afterwards. -/
def offer (s : Setup) (p : Progress) (state : State) (cost : Nat) : Bool × OpenCosts State :=
  if s.search.suppressDuplicates then p.openCosts.offer state cost else (true, p.openCosts)

/-- Handles one successor of node `parent`, reached at `cost` by an action. -/
def generate (s : Setup) (parent cost : Nat) (p : Progress) (next : Nat × State) : Progress :=
  let (action, state) := next
  if p.closed.contains state then
    { p with stats := { p.stats with closedPrunes := p.stats.closedPrunes + 1 } }
  else match s.offer p state cost with
    | (false, costs) =>
      { p with openCosts := costs, stats := { p.stats with openPrunes := p.stats.openPrunes + 1 } }
    | (true, costs) =>
      s.enqueue
        { p with openCosts := costs, stats := { p.stats with generated := p.stats.generated + 1 } }
        (.child state parent action cost (s.estimate state))

/-- Expands a node that is neither stale nor a goal. -/
def expand (s : Setup) (p : Progress) (i : Nat) (n : Node) : Progress :=
  let next := s.problem.successors n.state
  next.foldl (s.generate i (n.cost + 1))
    { p with
      stats := { p.stats with explored := p.stats.explored + 1 }
      events := .expanded i n.cost n.estimate next.length :: p.events }

/-- Handles a node taken off the open list. -/
def visit (s : Setup) (p : Progress) (i : Nat) (n : Node) : Turn :=
  let p := { p with stats := { p.stats with popped := p.stats.popped + 1 } }
  if p.closed.contains n.state then
    .more { p with
      stats := { p.stats with stalePops := p.stats.stalePops + 1 }
      events := .stale i n.cost :: p.events }
  else
    let p := { p with closed := p.closed.insert n.state }
    if s.problem.isGoal n.state then
      .done (.succeeded ⟨Node.pathTo p.nodes i⟩) { p with stats := { p.stats with goalCost := some n.cost } }
    else .more (s.expand p i n)

/-- One turn: the first open node is taken.  The list holds numbers of nodes only. -/
def advance (s : Setup) (p : Progress) : Turn :=
  match p.openList.pop with
  | none => .done .exhausted p
  | some (i, rest) =>
    match p.nodes[i]? with
    | none => .more { p with openList := rest }
    | some n => s.visit { p with openList := rest } i n

/-- Turns until the search ends, at most `n`. -/
def run (s : Setup) (T : Termination) : Nat → T.Memory → Progress → SearchOutcome × Progress
  | 0, _, p => (.timedOut, p)
  | n + 1, m, p =>
    match T.check m p.stats.explored with
    | (true, _) => (.timedOut, p)
    | (false, m) =>
      match s.advance p with
      | .more p => run s T n m p
      | .done outcome p => (outcome, p)

/-- A number of turns that no search on this problem exceeds. -/
def turns (s : Setup) : Nat :=
  2 + s.problem.actions.length <<< s.problem.init.capacity

end Setup

/-- The result of a search. -/
structure Report where
  outcome : SearchOutcome
  stats : AStarStats
  /-- In order. -/
  events : List Event

namespace Report

def plan? (r : Report) : Option Plan :=
  r.outcome.plan?

end Report

/-- A positive number that is neither infinite nor a NaN. -/
def validWeight (w : Float) : Bool :=
  w.isFinite && 0.0 < w

/-- What keeps a search from starting. -/
def check (a : AStar) (T : Termination) (p : Problem) : Except PlannerError Unit := do
  Problem.checkSupported p.requirements
  if !validWeight a.weight then throw (.configuration (.setting (.weight a.weight)))
  if T.timeLimit = some .zero then throw (.configuration (.setting .timeout))

def setup (a : AStar) (p : Problem) : Setup :=
  ⟨a, p, .ofProblem a.heuristic p⟩

/-- The report on a search that ended with this progress. -/
def Report.ofProgress (outcome : SearchOutcome) (final : Progress) : Report where
  outcome := outcome
  stats := { final.stats with openHighWater := final.openList.highWater }
  events := final.events.reverse

/-- Searches for a plan. -/
def search (a : AStar) (T : Termination) (p : Problem) : Except PlannerError Report := do
  a.check T p
  let s := a.setup p
  let (outcome, final) := s.run T s.turns T.start s.start
  return .ofProgress outcome final

/-! ## Log records -/

/-- The place of origin of the records. -/
def target : String := "planforge_solver::search::astar"

/-- The place of origin of the record on the estimate. -/
def estimateTarget : String := "planforge_strips::heuristic::relaxed"

def Event.record : Event → Log.Record
  | .expanded node cost estimate successors =>
    .event .trace target "expand"
      [("node", .count node), ("cost", .count cost), ("h", .real estimate), ("successors", .count successors)]
  | .stale node cost => .event .trace target "stale_pop" [("node", .count node), ("cost", .count cost)]

/-- What is logged before the first turn. -/
def opening (a : AStar) (p : Problem) : List Log.Record :=
  let relaxation := (a.setup p).relaxation
  [.event .debug estimateTarget "heuristic_ready"
      [("heuristic", .shown a.heuristic.label), ("kind", .shown relaxation.kind.label),
        ("operators", .count relaxation.operators.length)],
    .event .info target "search_start"
      [("algorithm", .text "A*"), ("heuristic", .shown a.heuristic.label), ("weight", .real a.weight),
        ("actions", .count p.actions.length)]]

/-- What is logged of the turns and after the last one. -/
def Report.records (r : Report) (time : Duration) : List Log.Record :=
  r.events.map Event.record ++
  [.event .info target "search_end"
    ([("algorithm", .text "A*"), ("outcome", .text r.outcome.label)] ++
      Log.Record.countField "plan_length" (r.plan?.map Plan.length) ++
      [("popped", .count r.stats.popped), ("explored", .count r.stats.explored),
        ("generated", .count r.stats.generated), ("duration_ms", .count time.millis)])]

/-- What a search that was not refused logs, in order, if it takes no time. -/
def log (a : AStar) (p : Problem) (r : Report) : List Log.Record :=
  a.opening p ++ r.records .zero

end AStar
end GroundPlanner
