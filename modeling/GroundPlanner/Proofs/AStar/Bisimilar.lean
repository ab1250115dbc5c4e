import GroundPlanner.Proofs.AStar.Run
import GroundPlanner.Proofs.Bisimilar
/-!
# Searches on bisimilar problems

Two runs with the same settings on bisimilar problems make the same turns, as long as the estimates of states that
correspond agree (`Ends.mirrored`): the runs differ only in the states that their nodes, closed sets and known costs
hold (`Mirrors`).  So the reports are the same (`search_congr`).
-/
namespace GroundPlanner

theorem OpenCosts.offer_congr {α β : Type} [Ord α] [Std.TransOrd α] [Std.LawfulEqOrd α] [DecidableEq α] [Ord β]
    [Std.TransOrd β] [Std.LawfulEqOrd β] [DecidableEq β] {R : α → β → Prop} {o : OpenCosts α} {o' : OpenCosts β}
    (hR : ∀ {a b a' b'}, R a b → R a' b' → (b' = b ↔ a' = a)) (h : ∀ a b, R a b → o'.known? b = o.known? a) {a : α}
    {b : β} (hab : R a b) (cost : Nat) : (o'.offer b cost).1 = (o.offer a cost).1 ∧
      ∀ a' b', R a' b' → (o'.offer b cost).2.known? b' = (o.offer a cost).2.known? a' := by
  have hfst : (o'.offer b cost).1 = (o.offer a cost).1 := by
    unfold offer
    rw [h a b hab]
    split
    · split <;> rfl
    · rfl
  refine ⟨hfst, fun a' b' hab' => ?_⟩
  cases ho : o.offer a cost with
  | mk accepted costs =>
    cases ho' : o'.offer b cost with
    | mk accepted' costs' =>
      rw [ho, ho'] at hfst
      obtain rfl : accepted' = accepted := hfst
      cases accepted' with
      | false =>
        rw [(offer_refused ho).1, (offer_refused ho').1]
        exact h a' b' hab'
      | true =>
        rw [offer_accepted ho, offer_accepted ho', h a' b' hab']
        exact if_congr (hR hab hab') rfl rfl

namespace AStar
namespace Setup

variable {R : State → State → Prop} {s s' : Setup}

/-- Two searches with the same settings on bisimilar problems. -/
structure Alike (R : State → State → Prop) (s s' : Setup) : Prop where
  search_eq : s'.search = s.search
  problem : s.problem.Bisimilar R s'.problem

/-- The estimates of a state and of those that correspond to it agree. -/
def Agrees (R : State → State → Prop) (s s' : Setup) (t : State) : Prop :=
  ∀ u, R t u → s'.estimate u = s.estimate t

/-- One node in both runs. -/
structure Counterpart (R : State → State → Prop) (n m : Node) : Prop where
  state : R n.state m.state
  origin_eq : m.origin = n.origin
  cost_eq : m.cost = n.cost
  estimate_eq : m.estimate = n.estimate

/-- **Two runs after the same turns**: they differ in nothing but their states, and these correspond. -/
structure Mirrors (R : State → State → Prop) (p q : Progress) : Prop where
  size_eq : q.nodes.size = p.nodes.size
  nodes : ∀ i : Nat, Option.Rel (Counterpart R) p.nodes[i]? q.nodes[i]?
  openList_eq : q.openList = p.openList
  closed : ∀ t u, R t u → q.closed.contains u = p.closed.contains t
  openCosts : ∀ t u, R t u → q.openCosts.known? u = p.openCosts.known? t
  stats_eq : q.stats = p.stats
  events_eq : q.events = p.events

variable {T : Termination} {m : T.Memory} {o : SearchOutcome} {p p' q f : Progress}

theorem Mirrors.enqueue (ha : s.Alike R s') (hm : Mirrors R p q) {n n' : Node} (hn : Counterpart R n n') :
    Mirrors R (s.enqueue p n) (s'.enqueue q n') where
  size_eq := by
    simp only [Setup.enqueue, Array.size_push, hm.size_eq]
  nodes i := by
    simp only [Setup.enqueue, Array.getElem?_push, hm.size_eq]
    split
    · exact .some hn
    · exact hm.nodes i
  openList_eq := by
    simp only [Setup.enqueue, Node.priority, hm.openList_eq, hm.size_eq, ha.search_eq, hn.cost_eq, hn.estimate_eq]
  closed := hm.closed
  openCosts := hm.openCosts
  stats_eq := hm.stats_eq
  events_eq := hm.events_eq

theorem mirrors_start (ha : s.Alike R s') (he : Agrees R s s' s.problem.init) : Mirrors R s.start s'.start := by
  have hinit := ha.problem.init
  have hroot : Counterpart R (.root s.problem.init (s.estimate s.problem.init))
      (.root s'.problem.init (s'.estimate s'.problem.init)) := ⟨hinit, rfl, rfl, he _ hinit⟩
  refine Mirrors.enqueue ha ?_ hroot
  refine ⟨rfl, fun _ => .none, rfl, fun t u _ => ?_, fun t u htu => ?_, rfl, rfl⟩
  · rw [ClosedSet.contains_empty, ClosedSet.contains_empty]
  · simp only [ha.search_eq]
    have hempty : ∀ t u, R t u → (OpenCosts.empty : OpenCosts State).known? u = OpenCosts.empty.known? t :=
      fun t u _ => by rw [OpenCosts.known?_empty, OpenCosts.known?_empty]
    split
    · exact (OpenCosts.offer_congr ha.problem.eq_iff hempty hinit 0).2 t u htu
    · exact hempty t u htu

/-- **Handling a successor in both runs.** -/
theorem Mirrors.generate (ha : s.Alike R s') (hm : Mirrors R p q) {x y : Nat × State} (hx : y.1 = x.1 ∧ R x.2 y.2)
    (i cost : Nat)
    (he : ∀ (j : Nat) (n : Node), (s.generate i cost p x).nodes[j]? = some n → Agrees R s s' n.state) :
    Mirrors R (s.generate i cost p x) (s'.generate i cost q y) := by
  obtain ⟨k, t⟩ := x
  obtain ⟨k', u⟩ := y
  obtain ⟨rfl, htu⟩ := hx
  have hoffer : (s'.offer q u cost).1 = (s.offer p t cost).1 ∧
      ∀ t' u', R t' u' → (s'.offer q u cost).2.known? u' = (s.offer p t cost).2.known? t' := by
    unfold Setup.offer
    rw [ha.search_eq]
    split
    · exact OpenCosts.offer_congr ha.problem.eq_iff hm.openCosts htu cost
    · exact ⟨rfl, hm.openCosts⟩
  unfold Setup.generate at he ⊢
  cases hc : p.closed.contains t with
  | true =>
    simp only [hc, (hm.closed t u htu).trans hc, if_true]
    exact { hm with stats_eq := by rw [hm.stats_eq] }
  | false =>
    simp only [hc, (hm.closed t u htu).trans hc, Bool.false_eq_true, if_false] at he ⊢
    generalize s.offer p t cost = offered at *
    generalize s'.offer q u cost = offered' at *
    obtain ⟨accepted, costs⟩ := offered
    obtain ⟨accepted', costs'⟩ := offered'
    simp only at hoffer
    obtain ⟨rfl, hcosts⟩ := hoffer
    cases accepted' with
    | false => exact { hm with openCosts := hcosts, stats_eq := by rw [hm.stats_eq] }
    | true =>
      have hnew : Counterpart R (.child t i k' cost (s.estimate t)) (.child u i k' cost (s'.estimate u)) :=
        ⟨htu, rfl, rfl, he p.nodes.size _ Array.getElem?_push_size u htu⟩
      refine Mirrors.enqueue ha ?_ hnew
      exact { hm with openCosts := hcosts, stats_eq := by rw [hm.stats_eq] }

theorem Mirrors.foldl (ha : s.Alike R s') (hm : Mirrors R p q) {xs ys : List (Nat × State)}
    (hxs : List.Forall₂ (fun x y => y.1 = x.1 ∧ R x.2 y.2) xs ys) (i cost : Nat)
    (he : ∀ (j : Nat) (n : Node), (xs.foldl (s.generate i cost) p).nodes[j]? = some n → Agrees R s s' n.state) :
    Mirrors R (xs.foldl (s.generate i cost) p) (ys.foldl (s'.generate i cost) q) := by
  induction hxs generalizing p q with
  | nil => exact hm
  | @cons x _ xs _ hx _ ih =>
    refine ih (hm.generate ha hx i cost (fun j n hn => he j n ?_)) he
    exact (s.extends_foldl i cost (s.generate i cost p x) xs).nodes j n hn

theorem Mirrors.pathTo_eq (hm : Mirrors R p q) (i : Nat) : Node.pathTo q.nodes i = Node.pathTo p.nodes i := by
  suffices h : ∀ (n i : Nat) (tail : List Nat), Node.walkBack q.nodes n i tail = Node.walkBack p.nodes n i tail by
    unfold Node.pathTo
    rw [hm.size_eq, h]
  intro n
  induction n with
  | zero => exact fun _ _ => rfl
  | succ n ih =>
    intro i tail
    have hi := hm.nodes i
    unfold Node.walkBack
    generalize p.nodes[i]? = a at hi
    generalize q.nodes[i]? = b at hi
    cases hi with
    | none => rfl
    | some hn => simp only [hn.origin_eq, ih]

/-- The two runs after a turn: both go on, or both end in the same way. -/
inductive MirrorTurn (R : State → State → Prop) : Turn → Turn → Prop where
  | more {p q : Progress} (h : Mirrors R p q) : MirrorTurn R (.more p) (.more q)
  | done {o : SearchOutcome} {p q : Progress} (h : Mirrors R p q) : MirrorTurn R (.done o p) (.done o q)

theorem Mirrors.visit (ha : s.Alike R s') (hm : Mirrors R p q) (i : Nat) {n n' : Node} (hn : Counterpart R n n')
    (he : ∀ f, s.visit p i n = .more f → ∀ (j : Nat) (n : Node), f.nodes[j]? = some n → Agrees R s s' n.state) :
    MirrorTurn R (s.visit p i n) (s'.visit q i n') := by
  have hclosed := hm.closed _ _ hn.state
  cases hc : p.closed.contains n.state with
  | true =>
    rw [visit_stale hc, visit_stale (hclosed.trans hc)]
    exact .more { hm with
      stats_eq := by simp only [Progress.skip, hm.stats_eq]
      events_eq := by simp only [Progress.skip, hm.events_eq, hn.cost_eq] }
  | false =>
    have hinsert : ∀ t u, R t u → (q.closed.insert n'.state).contains u = (p.closed.insert n.state).contains t := by
      intro t u htu
      rw [Bool.eq_iff_iff, ClosedSet.contains_insert, ClosedSet.contains_insert, hm.closed t u htu,
        ha.problem.eq_iff hn.state htu]
    have hgoal := ha.problem.isGoal_eq hn.state
    cases hg : s.problem.isGoal n.state with
    | true =>
      rw [visit_goal hc hg, visit_goal (hclosed.trans hc) (hgoal.trans hg), hm.pathTo_eq]
      refine .done ?_
      exact { hm with
        closed := hinsert
        stats_eq := by simp only [Progress.finish, hm.stats_eq, hn.cost_eq] }
    | false =>
      have hnext := ha.problem.successors hn.state
      rw [visit_expanded hc hg] at he
      rw [visit_expanded hc hg, visit_expanded (hclosed.trans hc) (hgoal.trans hg), hn.cost_eq]
      refine .more (Mirrors.foldl ha ?_ hnext i (n.cost + 1) (he _ rfl))
      exact { hm with
        closed := hinsert
        stats_eq := by simp only [Progress.settle, hm.stats_eq]
        events_eq := by simp only [Progress.settle, hm.events_eq, hn.cost_eq, hn.estimate_eq, hnext.length_eq] }

/-- **A turn of both runs.** -/
theorem Mirrors.advance (ha : s.Alike R s') (hm : Mirrors R p q)
    (he : ∀ f, s.advance p = .more f → ∀ (j : Nat) (n : Node), f.nodes[j]? = some n → Agrees R s s' n.state) :
    MirrorTurn R (s.advance p) (s'.advance q) := by
  unfold Setup.advance at he ⊢
  rw [hm.openList_eq]
  cases hpop : p.openList.pop with
  | none => exact .done hm
  | some x =>
    obtain ⟨i, rest⟩ := x
    have hrest : Mirrors R { p with openList := rest } { q with openList := rest } := { hm with openList_eq := rfl }
    have hi := hm.nodes i
    simp only [hpop] at he ⊢
    generalize p.nodes[i]? = a at *
    generalize q.nodes[i]? = b at *
    cases hi with
    | none => exact .more hrest
    | some hn => exact hrest.visit ha i hn he

/-- Nodes are kept to the end of a search. -/
theorem Ends.nodes (h : s.Ends T m p o f) (hv : s.Valid p) {j : Nat} {n : Node} (hn : p.nodes[j]? = some n) :
    f.nodes[j]? = some n := by
  induction h with
  | stopped => exact hn
  | last _ hadv => exact (hv.queue.finished hadv).nodes_eq ▸ hn
  | turn _ hadv _ ih => exact ih (hv.more hadv) ((hv.queue.moved hadv).nodes hn)

/-- **The run on the other problem goes on alike**, if the estimates of the states met agree. -/
theorem Ends.mirrored (ha : s.Alike R s') (h : s.Ends T m p o f) (hv : s.Valid p) (hm : Mirrors R p q)
    (he : ∀ (j : Nat) (n : Node), f.nodes[j]? = some n → Agrees R s s' n.state) :
    ∃ g, s'.Ends T m q o g ∧ Mirrors R f g := by
  induction h generalizing q with
  | stopped hs => exact ⟨q, .stopped (hm.stats_eq ▸ hs), hm⟩
  | last hs hadv =>
    have hturn := hm.advance ha (fun f hf => by rw [hadv] at hf; cases hf)
    rw [hadv] at hturn
    generalize hadv' : s'.advance q = turn at hturn
    cases hturn with
    | done hg => exact ⟨_, .last (hm.stats_eq ▸ hs) hadv', hg⟩
  | turn hs hadv hrest ih =>
    -- The nodes of this turn are still there at the end, where the estimates are known to agree.
    have hturn := hm.advance ha (fun f hf j n hn => by
      rw [hadv] at hf
      cases hf
      exact he j n (hrest.nodes (hv.more hadv) hn))
    rw [hadv] at hturn
    generalize hadv' : s'.advance q = turn at hturn
    cases hturn with
    | more hq =>
      obtain ⟨g, hg, hfg⟩ := ih (hv.more hadv) hq he
      exact ⟨g, .turn (hm.stats_eq ▸ hs) hadv' hg, hfg⟩

end Setup

variable {R : State → State → Prop} {a : AStar} {T : Termination} {p q : Problem}

/-- **Searches on bisimilar problems give the same report**, if the estimates of all states met agree. -/
theorem search_congr (h : p.Bisimilar R q) (a : AStar) (T : Termination)
    (he : ∀ (j : Nat) (n : Node), (a.ending T p).2.nodes[j]? = some n →
      Setup.Agrees R (a.setup p) (a.setup q) n.state) : a.search T q = a.search T p := by
  have ha : (a.setup p).Alike R (a.setup q) := ⟨rfl, h⟩
  have hv := (a.setup p).valid_start
  have hends := a.ending_ends T p
  have hroot : (a.setup p).start.nodes[0]? = some (.root p.init ((a.setup p).estimate p.init)) := rfl
  obtain ⟨g, hg, hm⟩ := hends.mirrored ha hv (Setup.mirrors_start ha (he 0 _ (hends.nodes hv hroot))) he
  obtain ⟨ho, hf⟩ := (a.ending_ends T q).unique hg
  have hcheck : a.check T q = a.check T p := by
    unfold check
    rw [h.requirements_eq]
  change (a.check T q >>= fun _ => .ok (Report.ofProgress (a.ending T q).1 (a.ending T q).2)) =
    a.check T p >>= fun _ => .ok (Report.ofProgress (a.ending T p).1 (a.ending T p).2)
  rw [hcheck, ho, hf, Report.ofProgress, Report.ofProgress, hm.stats_eq, hm.openList_eq, hm.events_eq]

end AStar
end GroundPlanner
