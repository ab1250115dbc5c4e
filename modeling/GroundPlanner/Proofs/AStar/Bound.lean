import GroundPlanner.Proofs.AStar.Outcome
import GroundPlanner.Proofs.AStar.Priority
import GroundPlanner.Proofs.Relaxation.Consistency
/-!
# How much a plan may be too long

With a consistent estimate and a whole weight `w`, a state of finite estimate is expanded at no more than `w` times its
distance from the initial state (`Bounded`), although no closed state is ever opened again.  The reason is the node
that is open on any walk to a state not closed yet (`exists_open`): it costs no more than `w` times its part of the
walk, and its estimate no more than what is left of it, so nothing dearer leaves the open list before it.  For that only
the priorities on the walk have to be exact (`BoundedBelow`).  Hence plans are at most `w` times too long
(`search_max_bounded`).
-/
namespace GroundPlanner
namespace AStar
namespace Setup

open Double

/-- The estimate of a state, among the numbers with infinity. -/
def height (s : Setup) (t : State) : ℕ∞ :=
  (s.relaxation.estimate t s.problem.goal).value

/-- What the bound rests on: a whole weight and an estimate that walks lower by their length at most. -/
structure Consistent (s : Setup) (w : Nat) : Prop where
  weight : s.search.weight = Float.ofNat w
  positive : Positive (Float.ofNat w)
  one_le : 1 ≤ w
  height_goal : ∀ t, s.problem.isGoal t = true → s.height t = 0
  height_walk : ∀ t is u, s.problem.Walk t is u → s.height t ≤ s.height u + is.length

/-- The priorities of the nodes of finite estimate are exact. -/
def Exact (s : Setup) (w : Nat) (nodes : Array Node) : Prop :=
  ∀ (i : Nat) (n : Node) (h : Nat), nodes[i]? = some n → s.relaxation.estimate n.state s.problem.goal = .finite h →
    w * h + n.cost < Cost.exactBound

theorem exact_of_all {s : Setup} {w : Nat} {nodes : Array Node}
    (h : nodes.toList.all (fun n => match s.relaxation.estimate n.state s.problem.goal with
      | .finite k => w * k + n.cost < Cost.exactBound
      | .infinite => true) = true) : s.Exact w nodes := by
  intro i n k hn hk
  have hmem : n ∈ nodes.toList := Array.mem_toList_iff.2 (Array.mem_of_getElem? hn)
  have hall := List.all_eq_true.1 h n hmem
  rw [hk] at hall
  exact of_decide_eq_true hall

/-- **Every expanded state of finite estimate cost at most `w` times its distance.** -/
def Bounded (s : Setup) (w : Nat) (p : Progress) : Prop :=
  ∀ n ∈ p.expanded, s.height n.state ≠ ⊤ → ∀ is, s.problem.Walk s.problem.init is n.state → n.cost ≤ w * is.length

variable {s : Setup} {p q : Progress} {w : Nat}

theorem height_eq {t : State} {h : Nat} (hh : s.relaxation.estimate t s.problem.goal = .finite h) : s.height t = h := by
  rw [height, hh]
  rfl

theorem exists_finite {t : State} (h : s.height t ≠ ⊤) :
    ∃ k, s.relaxation.estimate t s.problem.goal = .finite k ∧ s.height t = k := by
  obtain ⟨k, hk⟩ := Cost.exists_eq_finite h
  exact ⟨k, hk, height_eq hk⟩

theorem Consistent.height_ne_top (hc : s.Consistent w) {t u : State} {is : List Nat} (hw : s.problem.Walk t is u)
    (hu : s.height u ≠ ⊤) : s.height t ≠ ⊤ := by
  intro ht
  have hle := hc.height_walk t is u hw
  rw [ht, top_le_iff] at hle
  exact (WithTop.add_ne_top.2 ⟨hu, ENat.natCast_ne_top is.length⟩) hle

/-! ## Without exact priorities -/

/-- **Every expanded state cost at most `w` times each walk to it** on which the priorities are exact. -/
def BoundedBelow (s : Setup) (w : Nat) (p : Progress) : Prop :=
  ∀ n ∈ p.expanded, ∀ (h : Nat), s.height n.state = h → ∀ is, s.problem.Walk s.problem.init is n.state →
    w * h + w * is.length < Cost.exactBound → n.cost ≤ w * is.length

theorem Bounded.below (hb : s.Bounded w p) : s.BoundedBelow w p :=
  fun n hn h hh is hw _ => hb n hn (hh ▸ ENat.natCast_ne_top h) is hw

/-- With exact priorities no node costs as much as the longer walks would allow. -/
theorem BoundedBelow.bounded (hb : s.BoundedBelow w p) (hx : s.Exact w p.nodes) : s.Bounded w p := by
  intro n hn htop is hw
  obtain ⟨h, hest, hh⟩ := exists_finite htop
  obtain ⟨i, hi⟩ := History.mem_nodes hn
  have hexact := hx i n h hi hest
  by_cases hlt : w * h + w * is.length < Cost.exactBound
  · exact hb n hn h hh is hw hlt
  · omega

theorem Consistent.mul_height_le (hc : s.Consistent w) {t u : State} {ks : List Nat} (hks : s.problem.Walk u ks t)
    {h : Nat} (ht : s.height t = h) : ∃ k : Nat, s.relaxation.estimate u s.problem.goal = .finite k ∧
      s.height u = k ∧ w * k ≤ w * h + w * ks.length := by
  obtain ⟨k, hest, hk⟩ := exists_finite (hc.height_ne_top hks (ht ▸ ENat.natCast_ne_top h))
  have hle : k ≤ h + ks.length := by
    have := hc.height_walk _ _ _ hks
    rw [hk, ht] at this
    exact_mod_cast this
  refine ⟨k, hest, hk, ?_⟩
  calc w * k ≤ w * (h + ks.length) := Nat.mul_le_mul_left w hle
    _ = w * h + w * ks.length := Nat.mul_add _ _ _

/-- **On a walk to a state that is not closed, some state is open at the price of the way to it.** -/
theorem exists_open (hv : s.Valid p) (hc : s.Consistent w) (hb : s.BoundedBelow w p) {t u : State} {js ks : List Nat}
    (hjs : s.problem.Walk s.problem.init js u) (hks : s.problem.Walk u ks t) (hopen : p.closed.contains t = false)
    {h : Nat} (ht : s.height t = h) (hlt : w * h + w * (js.length + ks.length) < Cost.exactBound)
    (hcov : p.Covered u (w * js.length)) :
    ∃ ls rest v, s.problem.Walk v rest t ∧ ls + rest.length = js.length + ks.length ∧ p.Offered v (w * ls) := by
  induction hks generalizing js with
  | nil t =>
    rcases hcov with hclosed | hoff
    · rw [hclosed] at hopen
      cases hopen
    · exact ⟨js.length, [], t, .nil t, rfl, hoff⟩
  | @cons u t i ks a ha happ hks ih =>
    have hstep : s.problem.Walk u (i :: ks) t := .cons ha happ hks
    rcases hcov with hclosed | hoff
    · -- The state is expanded: its successor on the walk costs one more, which is at most `w` more.
      obtain ⟨m, hm, rfl⟩ := (hv.history.closed_iff u).1 hclosed
      obtain ⟨k, -, hk, hkle⟩ := hc.mul_height_le hstep ht
      have hcost : m.cost ≤ w * js.length := by
        refine hb m hm k hk js hjs ?_
        rw [Nat.mul_add] at hlt
        omega
      have hsucc := hv.frontier.successors m hm (i, a.successor m.state) (Problem.mem_successors.2 ⟨a, ha, happ, rfl⟩)
      have hmore : m.cost + 1 ≤ w * (js ++ [i]).length := by
        rw [List.length_append, List.length_singleton, Nat.mul_add, Nat.mul_one]
        exact Nat.add_le_add hcost hc.one_le
      have hlen : (js ++ [i]).length + ks.length = js.length + (i :: ks).length := by
        rw [List.length_append, List.length_singleton, List.length_cons]
        omega
      rw [← hlen] at hlt ⊢
      exact ih (hjs.concat ha happ) hopen ht hlt (hsucc.mono hmore)
    · exact ⟨js.length, i :: ks, u, hstep, rfl, hoff⟩

/-- **The first node is no dearer than a walk to a state that is not closed.** -/
theorem le_of_walk (hv : s.Valid p) (hc : s.Consistent w) (hb : s.BoundedBelow w p) {i : Nat} {n : Node}
    {rest : OpenList Nat} (hn : p.nodes[i]? = some n) (hpop : p.openList.Popped (s.entry i n) rest) {t : State}
    {is : List Nat} (hw : s.problem.Walk s.problem.init is t) (hopen : p.closed.contains t = false) {h : Nat}
    (ht : s.height t = h) (hlt : w * h + w * is.length < Cost.exactBound) :
    ∃ k : Nat, s.height n.state = k ∧ w * k + n.cost ≤ w * h + w * is.length := by
  have hzero : ([] : List Nat).length + is.length = is.length := Nat.zero_add _
  obtain ⟨ls, rest, v, hrest, hlen, e, he, m, hm, rfl, hcost⟩ :=
    exists_open hv hc hb (.nil _) hw hopen ht (hzero.symm ▸ hlt) hv.frontier.init
  obtain ⟨k', hest, -, hk'⟩ := hc.mul_height_le hrest ht
  have hprice : w * k' + m.cost ≤ w * h + w * is.length := by
    calc w * k' + m.cost ≤ w * h + w * rest.length + w * ls := Nat.add_le_add hk' hcost
      _ = w * h + w * (ls + rest.length) := by rw [Nat.mul_add]; omega
      _ = w * h + w * is.length := by rw [hlen, hzero]
  have hfirst := OpenEntry.priority_le (hpop.first e he)
  obtain ⟨m', hm₁, hentry⟩ := hv.queue.entries e he
  obtain rfl : m' = m := Option.some.inj (hm₁.symm.trans hm)
  rw [hentry] at hfirst
  obtain ⟨k, hk, hle⟩ := exists_of_key_le hc.weight hc.positive (hv.arena.estimate_eq hn)
    ((hv.arena.estimate_eq hm).trans (congrArg Cost.toFloat hest)) (Nat.lt_of_le_of_lt hprice hlt) hfirst
  exact ⟨k, height_eq hk, hle.trans hprice⟩

/-- **A turn keeps the bound.** -/
theorem BoundedBelow.moved (hb : s.BoundedBelow w p) (hv : s.Valid p) (hc : s.Consistent w) (h : s.Moved p q) :
    s.BoundedBelow w q := by
  rcases h.expanded_eq hv.history with heq | ⟨i, n, rest, hn, hpop, hopen, heq⟩
  · unfold BoundedBelow
    rw [heq]
    exact hb
  · intro m hm k hk is hw hlt
    rw [heq] at hm
    rcases List.mem_cons.1 hm with rfl | hm
    · obtain ⟨k', hk', hle⟩ := le_of_walk hv hc hb hn hpop hw hopen hk hlt
      have hkk : k = k' := by exact_mod_cast hk.symm.trans hk'
      rw [← hkk] at hle
      omega
    · exact hb m hm k hk is hw hlt

/-- **A goal is reached within `w` times the length of any walk to a goal** that is not too long for a double. -/
theorem Finished.cost_le_of_lt {plan : Plan} {f : Progress} (hv : s.Valid p) (hc : s.Consistent w)
    (hb : s.BoundedBelow w p) (h : s.Finished p (.succeeded plan) f) {t : State} {is : List Nat}
    (hw : s.problem.Walk s.problem.init is t) (hgoal : s.problem.isGoal t = true)
    (hlt : w * is.length < Cost.exactBound) : plan.length ≤ w * is.length := by
  cases h with
  | goal hn hpop hopen hg =>
    have ht : p.closed.contains t = false := by
      rw [← Bool.not_eq_true, hv.history.closed_iff]
      rintro ⟨m, hm, rfl⟩
      rw [hv.history.not_goal m hm] at hgoal
      cases hgoal
    obtain ⟨k, -, hle⟩ := le_of_walk hv hc hb hn hpop hw ht ((hc.height_goal t hgoal).trans Nat.cast_zero.symm)
      (by rw [Nat.mul_zero, Nat.zero_add]; exact hlt)
    have hlen := (hv.arena.pathTo hn).2
    unfold Plan.length
    simp only
    omega

/-! ## With exact priorities -/

/-- The bound from turn to turn, as far as the priorities are exact. -/
def BoundedIfExact (s : Setup) (w : Nat) (p : Progress) : Prop :=
  s.Valid p ∧ (s.Exact w p.nodes → s.Bounded w p)

theorem BoundedIfExact.more (hc : s.Consistent w) (hi : s.BoundedIfExact w p) (h : s.advance p = .more q) :
    s.BoundedIfExact w q := by
  obtain ⟨hv, hb⟩ := hi
  have hmoved := hv.queue.moved h
  refine ⟨hv.more h, fun hx => ?_⟩
  have hxp : s.Exact w p.nodes := fun i n k hn hk => hx i n k (hmoved.nodes hn) hk
  exact ((hb hxp).below.moved hv hc hmoved).bounded hx

/-- **A goal is reached within `w` times the length of any walk to a goal.** -/
theorem Finished.cost_le {plan : Plan} {f : Progress} (hv : s.Valid p) (hc : s.Consistent w) (hx : s.Exact w p.nodes)
    (hb : s.Bounded w p) (h : s.Finished p (.succeeded plan) f) {t : State} {is : List Nat}
    (hw : s.problem.Walk s.problem.init is t) (hgoal : s.problem.isGoal t = true) : plan.length ≤ w * is.length := by
  by_cases hlt : w * is.length < Cost.exactBound
  · exact h.cost_le_of_lt hv hc hb.below hw hgoal hlt
  · cases h with
    | @goal i n _ hn _ _ hg =>
      -- The goal itself has an exact priority, so it is nearer than such a walk is long.
      obtain ⟨k, hest, -⟩ := exists_finite (hc.height_goal n.state hg ▸ ENat.zero_ne_top)
      have hexact := hx i n k hn hest
      have hlen := (hv.arena.pathTo hn).2
      unfold Plan.length
      simp only
      omega

end Setup

variable {a : AStar} {T : Termination} {d : Draft} {p : Problem} {r : Report} {plan : Plan} {w : Nat}

theorem consistent_max (hb : d.build = .ok p) (hk : a.heuristic.kind = .max) (hw : a.weight = Float.ofNat w)
    (hpos : Double.Positive (Float.ofNat w)) (hone : 1 ≤ w) : (a.setup p).Consistent w where
  weight := hw
  positive := hpos
  one_le := hone
  height_goal t ht := by
    change ((Relaxation.ofProblem a.heuristic p).estimate t p.goal).value = 0
    have ht : p.isGoal t = true := ht
    rw [Relaxation.estimate_goal ht]
    rfl
  height_walk t is u hwalk := Relaxation.estimate_le_walk (Draft.build_inTable hb) hk hwalk

/-- Before its last turn a search is valid, and its expansions are bounded as far as priorities are exact. -/
theorem ending_bounded (hc : (a.setup p).Consistent w) (T : Termination) : ∃ q, (a.setup p).Valid q ∧
    (a.setup p).BoundedBelow w q ∧ ((a.ending T p).1 = .timedOut ∧ (a.ending T p).2 = q ∨
      (a.setup p).Finished q (a.ending T p).1 (a.ending T p).2) := by
  obtain ⟨q, ⟨hv, hb⟩, hend⟩ := (a.ending_ends T p).inv
    (I := fun q => (a.setup p).Valid q ∧ (a.setup p).BoundedBelow w q)
    (fun _ _ hi h => ⟨hi.1.more h, hi.2.moved hi.1 hc (hi.1.queue.moved h)⟩)
    ⟨Setup.valid_start _, fun _ hn => absurd hn List.not_mem_nil⟩
  exact ⟨q, hv, hb, hend.imp id hv.queue.finished⟩

/-- **A plan is at most `w` times as long as any walk to a goal** that is not too long for a double. -/
theorem ending_le_walk (hc : (a.setup p).Consistent w) (ho : (a.ending T p).1 = .succeeded plan) {is : List Nat}
    {t : State} (hw : p.Walk p.init is t) (hgoal : p.isGoal t = true) (hlt : w * is.length < Cost.exactBound) :
    plan.length ≤ w * is.length := by
  obtain ⟨q, hv, hb, hend⟩ := ending_bounded hc T
  rw [ho] at hend
  rcases hend with ⟨htimed, -⟩ | hfin
  · cases htimed
  · exact hfin.cost_le_of_lt hv hc hb hw hgoal hlt

/-- **With the maximum as estimate and a whole weight `w`, a plan is at most `w` times as long as any other**, as long
as the priorities are exact; so with the weight one it is a shortest plan. -/
theorem search_max_bounded (hb : d.build = .ok p) (hk : a.heuristic = .max ∨ a.heuristic = .setLevel)
    (hw : a.weight = Float.ofNat w) (hone : 1 ≤ w) (hx : (a.setup p).Exact w (a.ending T p).2.nodes)
    (h : a.search T p = .ok r) (ho : r.outcome = .succeeded plan) :
    plan.validate p = .ok () ∧ ∀ other : Plan, other.validate p = .ok () → plan.length ≤ w * other.length := by
  obtain ⟨hcheck, rfl⟩ := search_eq_ok_iff.1 h
  change (a.ending T p).1 = _ at ho
  have hkind : a.heuristic.kind = .max := by rcases hk with hk | hk <;> rw [hk] <;> rfl
  have hc : (a.setup p).Consistent w := consistent_max hb hkind hw (hw ▸ positive_of_check hcheck) hone
  have hstart : (a.setup p).BoundedIfExact w (a.setup p).start :=
    ⟨Setup.valid_start _, fun _ n hn => absurd hn List.not_mem_nil⟩
  obtain ⟨q, ⟨hv, hbound⟩, hend⟩ := (a.ending_ends T p).inv (fun _ _ hi h => Setup.BoundedIfExact.more hc hi h) hstart
  rw [ho] at hend
  rcases hend with ⟨htimed, -⟩ | hadv
  · cases htimed
  · have hfin := hv.queue.finished hadv
    rw [hfin.nodes_eq] at hx
    refine ⟨(hfin.valid hv).1, fun other hother => ?_⟩
    obtain ⟨t, hwalk, hgoal⟩ := Plan.validate_eq_ok_iff.1 hother
    exact hfin.cost_le hv hc hx (hbound hx) hwalk hgoal

/-- On the grid of two by two the plan that is found has two steps, so no plan has fewer. -/
theorem search_max_bounded_grid : ∃ p r plan, (Families.grid 2 2).build = .ok p ∧
    (AStar.mk .max (Float.ofNat 1) true).search .never p = .ok r ∧ r.outcome = .succeeded plan ∧
    ∀ other : Plan, other.validate p = .ok () → 2 ≤ 1 * other.length := by
  obtain ⟨p, r, hb, hs, hr⟩ := exists_search (a := AStar.mk .max (Float.ofNat 1) true) (T := .never)
    (d := Families.grid 2 2) (fun p r => r.outcome = .succeeded ⟨[0, 4]⟩ &&
      (((AStar.mk .max (Float.ofNat 1) true).ending .never p).2.nodes.toList.all (fun n =>
        match (Relaxation.ofProblem .max p).estimate n.state p.goal with
        | .finite k => 1 * k + n.cost < Cost.exactBound
        | .infinite => true))) (by decide +kernel)
  rw [Bool.and_eq_true, decide_eq_true_eq] at hr
  refine ⟨p, r, ⟨[0, 4]⟩, hb, hs, hr.1, ?_⟩
  exact (search_max_bounded hb (.inl rfl) rfl le_rfl (Setup.exact_of_all hr.2) hs hr.1).2

end AStar
end GroundPlanner
