import GroundPlanner.Proofs.AStar.Ending
/-!
# Plans without loops

A node is put on the open list only if its state is not closed, and the states on its way from the root are: they were
expanded to get there.  So the way to a node meets no state twice (`Unlooped`), whatever the estimates, and a plan that
was found passes through different states of which only the last is a goal (`search_succeeded_loopless`).
-/
namespace GroundPlanner
namespace Node

theorem Trace.unique {nodes : Array Node} {i : Nat} {is js : List Nat} (h : Trace nodes i is)
    (h' : Trace nodes i js) : is = js := by
  induction h generalizing js with
  | root hn ho =>
    cases h' with
    | root => rfl
    | child hn' ho' =>
      obtain rfl := Option.some.inj (hn.symm.trans hn')
      rw [ho] at ho'
      cases ho'
  | child hn ho _ ih =>
    cases h' with
    | root hn' ho' =>
      obtain rfl := Option.some.inj (hn.symm.trans hn')
      rw [ho] at ho'
      cases ho'
    | child hn' ho' ht' =>
      obtain rfl := Option.some.inj (hn.symm.trans hn')
      obtain rfl := Option.some.inj (ho.symm.trans ho')
      rw [ih ht']

end Node

namespace AStar
namespace Setup

/-- **A way without loops** from the root to node `i`: its states are different, and those before the last are
closed. -/
structure LoopFree (s : Setup) (p : Progress) (i : Nat) (n : Node) (is : List Nat) : Prop where
  trace : Node.Trace p.nodes i is
  walk : s.problem.Walk s.problem.init is n.state
  distinct : (s.problem.statesAlong s.problem.init is).Nodup
  closed : ∀ t ∈ (s.problem.statesAlong s.problem.init is).dropLast, p.closed.contains t = true

/-- Every node is reached without loops. -/
def Unlooped (s : Setup) (p : Progress) : Prop :=
  ∀ (i : Nat) (n : Node), p.nodes[i]? = some n → ∃ is, s.LoopFree p i n is

variable {s : Setup} {p q : Progress} {i : Nat} {n : Node} {is : List Nat}

/-- A way stays without loops while nodes and closed states are added. -/
theorem LoopFree.mono (h : s.LoopFree p i n is) (hnodes : ∀ (j : Nat) (m : Node), p.nodes[j]? = some m →
    q.nodes[j]? = some m) (hclosed : ∀ t, p.closed.contains t = true → q.closed.contains t = true) :
    s.LoopFree q i n is where
  trace := h.trace.mono hnodes
  walk := h.walk
  distinct := h.distinct
  closed t ht := hclosed t (h.closed t ht)

theorem Unlooped.of_nodes_eq (h : s.Unlooped p) (hnodes : q.nodes = p.nodes)
    (hclosed : ∀ t, p.closed.contains t = true → q.closed.contains t = true) : s.Unlooped q := by
  intro i n hn
  obtain ⟨is, his⟩ := h i n (hnodes ▸ hn)
  exact ⟨is, his.mono (fun j m hm => hnodes ▸ hm) hclosed⟩

theorem LoopFree.closed_of_mem (h : s.LoopFree p i n is) (hn : p.closed.contains n.state = true) {t : State}
    (ht : t ∈ s.problem.statesAlong s.problem.init is) : p.closed.contains t = true := by
  rcases h.walk.mem_statesAlong_iff.1 ht with ht | rfl
  · exact h.closed t ht
  · exact hn

/-- **A successor whose state is not closed makes no loop** when its parent is closed. -/
theorem LoopFree.child (h : s.LoopFree p i n is) (hn : p.closed.contains n.state = true) {j k : Nat} {a : Action}
    (hx : ∀ (j : Nat) (m : Node), p.nodes[j]? = some m → q.nodes[j]? = some m) (hclosed : q.closed = p.closed)
    (ha : s.problem.actions[k]? = some a) (happ : a.applicable n.state = true)
    (hopen : p.closed.contains (a.successor n.state) = false) {cost : Nat} {estimate : Float}
    (hj : q.nodes[j]? = some (.child (a.successor n.state) i k cost estimate)) :
    s.LoopFree q j (.child (a.successor n.state) i k cost estimate) (is ++ [k]) where
  trace := .child hj rfl (h.trace.mono hx)
  walk := h.walk.concat ha happ
  distinct := by
    rw [h.walk.statesAlong_concat ha, List.nodup_append]
    refine ⟨h.distinct, List.nodup_singleton _, fun t ht u hu htu => ?_⟩
    rw [htu, List.mem_singleton.1 hu] at ht
    rw [h.closed_of_mem hn ht] at hopen
    cases hopen
  closed t ht := by
    rw [h.walk.statesAlong_concat ha, List.dropLast_concat] at ht
    exact hclosed ▸ h.closed_of_mem hn ht

theorem Unlooped.generated {k : Nat} {t : State} (h : s.Unlooped p) (hn : p.nodes[i]? = some n)
    (hclosed : p.closed.contains n.state = true) (hx : (k, t) ∈ s.problem.successors n.state)
    (hg : s.Generated i (n.cost + 1) p (k, t) q) : s.Unlooped q := by
  obtain ⟨a, ha, happ, rfl⟩ := Problem.mem_successors.1 hx
  have hext := hg.extends
  cases hg with
  | closed => exact h.of_nodes_eq rfl (fun _ ht => ht)
  | known => exact h.of_nodes_eq rfl (fun _ ht => ht)
  | pushed hopen =>
    intro j m hm
    rcases eq_or_of_getElem?_push hm with ⟨rfl, rfl⟩ | hm
    · obtain ⟨is, his⟩ := h i n hn
      exact ⟨is ++ [k], his.child hclosed hext.nodes rfl ha happ hopen Array.getElem?_push_size⟩
    · obtain ⟨is, his⟩ := h j m hm
      exact ⟨is, his.mono hext.nodes (fun _ ht => ht)⟩

theorem Unlooped.foldl (h : s.Unlooped p) (hn : p.nodes[i]? = some n) (hclosed : p.closed.contains n.state = true) :
    s.Unlooped ((s.problem.successors n.state).foldl (s.generate i (n.cost + 1)) p) := by
  have hboth : p.Extends ((s.problem.successors n.state).foldl (s.generate i (n.cost + 1)) p) ∧
      s.Unlooped ((s.problem.successors n.state).foldl (s.generate i (n.cost + 1)) p) := by
    refine List.foldlRecOn (motive := fun q : Progress => p.Extends q ∧ s.Unlooped q) _ _ ⟨.refl p, h⟩ ?_
    rintro q ⟨hext, hq⟩ ⟨k, t⟩ hx
    have hg := s.generated i (n.cost + 1) q (k, t)
    exact ⟨hext.trans hg.extends, hq.generated (hext.nodes i n hn) (hext.closed_eq ▸ hclosed) hx hg⟩
  exact hboth.2

theorem unlooped_start (s : Setup) : s.Unlooped s.start := by
  intro i n hn
  rcases eq_or_of_getElem?_push hn with ⟨rfl, rfl⟩ | hn
  · refine ⟨[], .root Array.getElem?_push_size rfl, .nil _, List.nodup_singleton _, fun t ht => ?_⟩
    cases ht
  · simp at hn

/-- **A turn keeps every way without loops.** -/
theorem Unlooped.moved (h : s.Unlooped p) (hm : s.Moved p q) : s.Unlooped q := by
  cases hm with
  | stale => exact h.of_nodes_eq rfl (fun _ ht => ht)
  | expanded hn =>
    refine Unlooped.foldl ?_ hn (ClosedSet.contains_insert.2 (.inl rfl))
    exact h.of_nodes_eq rfl (fun _ ht => ClosedSet.contains_insert.2 (.inr ht))

/-- **The way to a goal that is taken off the open list** meets different states, none of them a goal before. -/
theorem Finished.loopless {plan : Plan} (hv : s.Valid p) (hl : s.Unlooped p)
    (h : s.Finished p (.succeeded plan) q) :
    (s.problem.statesAlong s.problem.init plan.steps).Nodup ∧
    ∀ t ∈ (s.problem.statesAlong s.problem.init plan.steps).dropLast, s.problem.isGoal t = false := by
  cases h with
  | @goal i n _ hn =>
    obtain ⟨is, his⟩ := hl i n hn
    obtain ⟨js, hjs, -, -, hle⟩ := hv.arena.trace hn
    have hpath : Node.pathTo p.nodes i = is := by
      rw [his.trace.unique hjs]
      exact hjs.pathTo_eq (Nat.lt_of_le_of_lt hle (Array.getElem?_eq_some_iff.1 hn).1)
    simp only [hpath]
    refine ⟨his.distinct, fun t ht => ?_⟩
    -- What is closed before the last turn was expanded, so it was tested for the goal.
    obtain ⟨m, hm, rfl⟩ := (hv.history.closed_iff t).1 (his.closed t ht)
    exact hv.history.not_goal m hm

end Setup

variable {a : AStar} {T : Termination} {p : Problem} {r : Report} {plan : Plan}

/-- Before its last turn a search is valid, and has made no loops. -/
theorem ending_unlooped (a : AStar) (T : Termination) (p : Problem) :
    ∃ q, (a.setup p).Valid q ∧ (a.setup p).Unlooped q ∧ ((a.ending T p).1 = .timedOut ∧ (a.ending T p).2 = q ∨
      (a.setup p).Finished q (a.ending T p).1 (a.ending T p).2) := by
  obtain ⟨q, ⟨hv, hl⟩, hend⟩ := (a.ending_ends T p).inv
    (I := fun q => (a.setup p).Valid q ∧ (a.setup p).Unlooped q)
    (fun _ _ hi h => ⟨hi.1.more h, hi.2.moved (hi.1.queue.moved h)⟩)
    ⟨Setup.valid_start _, Setup.unlooped_start _⟩
  exact ⟨q, hv, hl, hend.imp id hv.queue.finished⟩

/-- **A plan that was found has no loops**: executing it meets different states, of which the last and no other is a
goal.  So it has fewer steps than there are reachable states. -/
theorem search_succeeded_loopless (h : a.search T p = .ok r) (ho : r.outcome = .succeeded plan) :
    (p.statesAlong p.init plan.steps).length = plan.length + 1 ∧
    (p.statesAlong p.init plan.steps).Nodup ∧
    (∀ t ∈ (p.statesAlong p.init plan.steps).dropLast, p.isGoal t = false) ∧
    (∃ t, plan.simulate p = .ok t ∧ (p.statesAlong p.init plan.steps).getLast? = some t ∧ p.isGoal t = true) ∧
    {t | p.Reachable t}.Finite ∧ plan.length < {t | p.Reachable t}.ncard := by
  obtain ⟨-, rfl⟩ := search_eq_ok_iff.1 h
  change (a.ending T p).1 = _ at ho
  obtain ⟨q, hv, hl, hend⟩ := a.ending_unlooped T p
  rw [ho] at hend
  rcases hend with ⟨htimed, -⟩ | hfin
  · cases htimed
  · obtain ⟨hdistinct, hgoals⟩ := hfin.loopless hv hl
    obtain ⟨t, hw, hg⟩ := Plan.validate_eq_ok_iff.1 (hfin.valid hv).1
    have hlen := hw.length_statesAlong
    have hle := Problem.length_le_ncard_reachable hdistinct (fun u hu => hw.exists_of_mem_statesAlong hu)
    rw [hlen] at hle
    exact ⟨hlen, hdistinct, hgoals, ⟨t, Plan.simulate_eq_ok_iff.2 hw, hw.getLast?_statesAlong, hg⟩,
      p.finite_setOf_reachable, hle⟩

/-- Every action of the gripper can be taken back, but its plan of three actions meets four states and returns to
none. -/
theorem search_succeeded_loopless_gripper : ∃ p r, (Families.gripper 1).build = .ok p ∧
    (AStar.mk .fastForward 1.0 false).search .never p = .ok r ∧ r.outcome = .succeeded ⟨[2, 0, 7]⟩ ∧
    (p.statesAlong p.init [2, 0, 7]).length = 4 ∧ (p.statesAlong p.init [2, 0, 7]).Nodup ∧
    3 < {t | p.Reachable t}.ncard := by
  obtain ⟨p, r, hb, hs, ho⟩ := exists_search (a := AStar.mk .fastForward 1.0 false) (T := .never)
    (d := Families.gripper 1) (fun _ r => r.outcome = .succeeded ⟨[2, 0, 7]⟩) (by decide +kernel)
  have ho : r.outcome = .succeeded ⟨[2, 0, 7]⟩ := of_decide_eq_true ho
  obtain ⟨hlen, hdistinct, -, -, -, hcard⟩ := search_succeeded_loopless hs ho
  exact ⟨p, r, hb, hs, ho, hlen, hdistinct, hcard⟩

end AStar
end GroundPlanner
