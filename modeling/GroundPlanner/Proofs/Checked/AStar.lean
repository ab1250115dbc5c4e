import GroundPlanner.Proofs.AStar.Run
import GroundPlanner.Proofs.Checked.Estimate
/-!
# Searches by A* within their nodes

The search with its nodes looked up: the root before it is put on the open list, every node that is taken off it, and
the parents on the way back from a goal.  Successors and estimates are the checked ones, and there is no result if the
turns of a whole search do not suffice.  In a valid progress every turn has its result (`Setup.Valid.advance?_eq_some`),
so a search on a problem with its facts in the table has the result of the search (`search?_eq_some`).
-/
namespace GroundPlanner

namespace Node

/-- The actions from the root to node `i`, in front of `tail`; there is no result after `n` parents. -/
def walkBack? (nodes : Array Node) : Nat → Nat → List Nat → Option (List Nat)
  | 0, _, _ => none
  | n + 1, i, tail => do
    let node ← nodes[i]?
    match node.origin with
    | none => return tail
    | some o => walkBack? nodes n o.parent (o.action :: tail)

def pathTo? (nodes : Array Node) (i : Nat) : Option (List Nat) :=
  walkBack? nodes nodes.size i []

theorem Trace.walkBack?_eq_some {nodes : Array Node} {i : Nat} {is : List Nat} (h : Trace nodes i is) {k : Nat}
    (hk : is.length < k) (tail : List Nat) : walkBack? nodes k i tail = some (is ++ tail) := by
  induction h generalizing k tail with
  | root hn ho =>
    obtain _ | k := k
    · exact absurd hk (Nat.not_lt_zero _)
    · simp only [walkBack?, hn, ho, Option.bind_eq_bind, Option.bind_some, List.nil_append]
      rfl
  | child hn ho _ ih =>
    rw [List.length_append, List.length_singleton] at hk
    obtain _ | k := k
    · exact absurd hk (Nat.not_lt_zero _)
    · simp only [walkBack?, hn, ho, Option.bind_eq_bind, Option.bind_some]
      rw [ih (by omega), List.append_assoc, List.singleton_append]

theorem Trace.pathTo?_eq_some {nodes : Array Node} {i : Nat} {is : List Nat} (h : Trace nodes i is)
    (hlen : is.length < nodes.size) : pathTo? nodes i = some (pathTo nodes i) := by
  rw [pathTo?, h.walkBack?_eq_some hlen, h.pathTo_eq hlen, List.append_nil]

end Node

namespace AStar
namespace Setup

def estimate? (s : Setup) (state : State) : Option Float :=
  (s.relaxation.estimate? state s.problem.goal).map Cost.toFloat

/-- The search before its first turn. -/
def start? (s : Setup) : Option Progress := do
  let estimate ← s.estimate? s.problem.init
  let nodes := #[Node.root s.problem.init estimate]
  let root ← nodes[0]?
  return {
    nodes := nodes
    openList := OpenList.empty.push 0 (root.priority s.search.weight).toBits estimate.toBits
    closed := .empty
    openCosts := if s.search.suppressDuplicates then (OpenCosts.empty.offer root.state 0).2 else .empty
    stats := {}
    events := [] }

/-- Handles one successor of node `parent`, reached at `cost` by an action. -/
def generate? (s : Setup) (parent cost : Nat) (p : Progress) (next : Nat × State) : Option Progress :=
  if p.closed.contains next.2 then
    some { p with stats := { p.stats with closedPrunes := p.stats.closedPrunes + 1 } }
  else match s.offer p next.2 cost with
    | (false, costs) =>
      some { p with openCosts := costs, stats := { p.stats with openPrunes := p.stats.openPrunes + 1 } }
    | (true, costs) => do
      let estimate ← s.estimate? next.2
      return s.enqueue
        { p with openCosts := costs, stats := { p.stats with generated := p.stats.generated + 1 } }
        (.child next.2 parent next.1 cost estimate)

/-- Handles a node taken off the open list. -/
def visit? (s : Setup) (p : Progress) (i : Nat) (n : Node) : Option Turn :=
  if p.closed.contains n.state then some (.more (p.skip i n))
  else if s.problem.isGoal n.state then do
    let path ← Node.pathTo? p.nodes i
    return .done (.succeeded ⟨path⟩) (p.finish n)
  else do
    let next ← s.problem.successors? n.state
    let p ← next.foldlM (s.generate? i (n.cost + 1)) (p.settle i n next.length)
    return .more p

/-- One turn: the first open node is taken. -/
def advance? (s : Setup) (p : Progress) : Option Turn :=
  match p.openList.pop with
  | none => some (.done .exhausted p)
  | some (i, rest) => do
    let n ← p.nodes[i]?
    s.visit? { p with openList := rest } i n

/-- Turns until the search ends; there is no result if that takes more than `n`. -/
def run? (s : Setup) (T : Termination) : Nat → T.Memory → Progress → Option (SearchOutcome × Progress)
  | 0, _, _ => none
  | n + 1, m, p =>
    match T.check m p.stats.explored with
    | (true, _) => some (.timedOut, p)
    | (false, m) => do
      match ← s.advance? p with
      | .more p => run? s T n m p
      | .done outcome p => return (outcome, p)

section Turns

variable {s : Setup} {p : Progress} (hp : s.problem.InTable) (hest : ∀ t, s.estimate? t = some (s.estimate t))

include hest

theorem start?_eq_some : s.start? = some s.start := by
  unfold start?
  rw [hest]
  rfl

theorem generate?_eq_some (i cost : Nat) (p : Progress) (x : Nat × State) :
    s.generate? i cost p x = some (s.generate i cost p x) := by
  unfold generate? generate
  simp only [hest, Option.bind_eq_bind, Option.bind_some]
  split
  · rfl
  · obtain ⟨offered, costs⟩ := s.offer p x.2 cost
    cases offered <;> rfl

include hp

theorem Arena.visit?_eq_some (h : s.Arena p.nodes) {i : Nat} {n : Node} (hn : p.nodes[i]? = some n) :
    s.visit? p i n = some (s.visit p i n) := by
  unfold visit?
  split
  · rename_i hc
    rw [visit_stale hc]
  · rename_i hc
    rw [Bool.not_eq_true] at hc
    split
    · rename_i hg
      obtain ⟨is, htrace, -, -, hle⟩ := h.trace hn
      have hlt := Nat.lt_of_le_of_lt hle (Array.getElem?_eq_some_iff.1 hn).1
      rw [visit_goal hc hg, htrace.pathTo?_eq_some hlt]
      rfl
    · rename_i hg
      rw [Bool.not_eq_true] at hg
      have hfold : ∀ q, (s.problem.successors n.state).foldlM (s.generate? i (n.cost + 1)) q =
          some ((s.problem.successors n.state).foldl (s.generate i (n.cost + 1)) q) := fun q =>
        foldlM_eq_some (P := fun _ => True) (fun q _ x _ => ⟨generate?_eq_some hest i _ q x, trivial⟩) trivial
      rw [visit_expanded hc hg, hp.successors?_eq_some (h.reachable hn).words_eq]
      simp only [Option.bind_eq_bind, Option.bind_some, hfold]
      rfl

/-- **A turn takes nodes only that are there.** -/
theorem Valid.advance?_eq_some (hv : s.Valid p) : s.advance? p = some (s.advance p) := by
  unfold advance? advance
  cases hpop : p.openList.pop with
  | none => rfl
  | some x =>
    obtain ⟨i, rest⟩ := x
    obtain ⟨e, rfl, hpopped⟩ := hv.queue.sound.pop hpop
    obtain ⟨n, hn, -⟩ := hv.queue.entries e hpopped.mem
    simp only [hn, Option.bind_eq_bind, Option.bind_some]
    exact Arena.visit?_eq_some hp hest (p := { p with openList := rest }) hv.arena hn

/-- **A search goes on among its nodes**, and ends within the turns it is given. -/
theorem Valid.run?_eq_some {T : Termination} {m : T.Memory} (n : Nat) (hv : s.Valid p) (hn : s.potential p < n) :
    s.run? T n m p = some (s.run T n m p) := by
  induction n generalizing m p with
  | zero => exact absurd hn (Nat.not_lt_zero _)
  | succ n ih =>
    unfold run? run
    rw [hv.advance?_eq_some hp hest]
    obtain ⟨stop, m'⟩ := T.check m p.stats.explored
    cases stop with
    | true => rfl
    | false =>
      simp only [Option.bind_eq_bind, Option.bind_some]
      cases hturn : s.advance p with
      | more q => exact ih (hv.more hturn) (Nat.lt_of_lt_of_le (hv.potential_lt hturn) (Nat.le_of_lt_succ hn))
      | done outcome q => rfl

end Turns
end Setup

/-- Searches for a plan. -/
def search? (a : AStar) (T : Termination) (p : Problem) : Option (Except PlannerError Report) :=
  match a.check T p with
  | .error e => some (.error e)
  | .ok () => do
    let s := a.setup p
    let (outcome, final) ← s.run? T s.turns T.start (← s.start?)
    return .ok (.ofProgress outcome final)

/-- **A search by A* looks up nothing that is not there**, and is the search. -/
theorem search?_eq_some {p : Problem} (hp : p.InTable) (a : AStar) (T : Termination) :
    a.search? T p = some (a.search T p) := by
  have hest : ∀ t, (a.setup p).estimate? t = some ((a.setup p).estimate t) :=
    fun t => congrArg (Option.map Cost.toFloat) (Relaxation.estimate?_ofProblem hp a.heuristic t p.goal)
  have hrun := (Setup.valid_start (a.setup p)).run?_eq_some hp hest (T := T) (m := T.start) _ (a.potential_lt_turns p)
  unfold search? search
  cases a.check T p with
  | error e => rfl
  | ok u =>
    simp only [Setup.start?_eq_some hest, hrun, Option.bind_eq_bind, Option.bind_some]
    rfl

end AStar
end GroundPlanner
