import GroundPlanner.Proofs.Relaxation.Equations
import Mathlib.Data.Set.Card
/-!
# The number of operators in a relaxed plan

A fact takes its supporter and what the precondition of its supporter takes.  Where costs are added up below the bound
that doubles count exactly, these are no more operators than the fact costs (`Relaxation.encard_supports_le`), by
induction on the cost: operators that serve several facts are paid for several times and taken once.  So the estimate by
a relaxed plan is at most the sum of the goal's costs (`Relaxation.relaxedPlan_supported`).
-/
namespace GroundPlanner

variable {l : Labels} {goal : List FactId} {f g : FactId}

theorem Needed.mono {goal' : List FactId} (h : Needed l goal f) (hsub : ∀ g ∈ goal, Needed l goal' g) :
    Needed l goal' f := by
  induction h with
  | goal hf => exact hsub _ hf
  | pre _ ho hg ih => exact .pre ih ho hg

theorem needed_cons : Needed l (g :: goal) f ↔ Needed l [g] f ∨ Needed l goal f := by
  constructor
  · intro h
    induction h with
    | goal hf =>
      rcases List.mem_cons.1 hf with rfl | hf
      · exact .inl (.goal List.mem_cons_self)
      · exact .inr (.goal hf)
    | pre _ ho hg ih => exact ih.imp (.pre · ho hg) (.pre · ho hg)
  · rintro (h | h)
    · exact h.mono fun g hg => .goal (by rw [List.mem_singleton.1 hg]; exact List.mem_cons_self)
    · exact h.mono fun g hg => .goal (List.mem_cons_of_mem _ hg)

theorem needed_singleton : Needed l [g] f ↔ f = g ∨ ∃ o, l.supporter g = some o ∧ Needed l o.pre f := by
  constructor
  · intro h
    induction h with
    | goal hf => exact .inl (List.mem_singleton.1 hf)
    | @pre f f' o _ ho hf' ih =>
      rcases ih with rfl | ⟨x, hx, hneed⟩
      · exact .inr ⟨o, ho, .goal hf'⟩
      · exact .inr ⟨x, hx, .pre hneed ho hf'⟩
  · rintro (rfl | ⟨o, ho, h⟩)
    · exact .goal List.mem_cons_self
    · exact h.mono fun f hf => .pre (.goal List.mem_cons_self) ho hf

namespace Labels

/-- **The operators that support all that a goal needs.** -/
def supports (l : Labels) (goal : List FactId) : Set Operator :=
  {o | ∃ f, Needed l goal f ∧ l.supporter f = some o}

@[simp] theorem supports_nil (l : Labels) : l.supports [] = ∅ := by
  refine Set.eq_empty_of_forall_notMem ?_
  rintro o ⟨f, hf, -⟩
  induction hf with
  | goal hf => exact List.not_mem_nil hf
  | pre _ _ _ ih => exact ih

theorem supports_cons (l : Labels) (g : FactId) (goal : List FactId) :
    l.supports (g :: goal) = l.supports [g] ∪ l.supports goal := by
  ext o
  constructor
  · rintro ⟨f, hf, ho⟩
    exact (needed_cons.1 hf).imp (⟨f, ·, ho⟩) (⟨f, ·, ho⟩)
  · rintro (⟨f, hf, ho⟩ | ⟨f, hf, ho⟩)
    · exact ⟨f, needed_cons.2 (.inl hf), ho⟩
    · exact ⟨f, needed_cons.2 (.inr hf), ho⟩

theorem supports_singleton_of_none (h : l.supporter g = none) : l.supports [g] = ∅ := by
  refine Set.eq_empty_of_forall_notMem ?_
  rintro o ⟨f, hf, ho⟩
  rcases needed_singleton.1 hf with rfl | ⟨x, hx, -⟩
  · rw [h] at ho
    cases ho
  · rw [h] at hx
    cases hx

theorem supports_singleton_of_some {o : Operator} (h : l.supporter g = some o) :
    l.supports [g] = insert o (l.supports o.pre) := by
  ext x
  constructor
  · rintro ⟨f, hf, hx⟩
    rcases needed_singleton.1 hf with rfl | ⟨y, hy, hf⟩
    · exact .inl (Option.some.inj (hx.symm.trans h))
    · obtain rfl := Option.some.inj (hy.symm.trans h)
      exact .inr ⟨f, hf, hx⟩
  · rintro (rfl | ⟨f, hf, hx⟩)
    · exact ⟨g, .goal List.mem_cons_self, h⟩
    · exact ⟨f, needed_singleton.2 (.inr ⟨o, h, hf⟩), hx⟩

/-- What serves several facts is counted once. -/
theorem encard_supports_le_sum (h : ∀ g ∈ goal, (l.supports [g]).encard ≤ l.value g) :
    (l.supports goal).encard ≤ (goal.map l.value).sum := by
  induction goal with
  | nil => simp
  | cons g goal ih =>
    rw [supports_cons, List.map_cons, List.sum_cons]
    refine (Set.encard_union_le _ _).trans (add_le_add (h g List.mem_cons_self) (ih fun g' hg' => ?_))
    exact h g' (List.mem_cons_of_mem g hg')

/-- Each fact has one supporter at most. -/
theorem encard_supports_le_size {n : Nat} (hlt : ∀ f, Needed l goal f → f < n) : (l.supports goal).encard ≤ n := by
  have hsub : some '' l.supports goal ⊆ l.supporter '' (Finset.range n : Set FactId) := by
    rintro - ⟨o, ⟨f, hf, ho⟩, rfl⟩
    exact ⟨f, Finset.mem_coe.2 (Finset.mem_range.2 (hlt f hf)), ho⟩
  calc (l.supports goal).encard = (some '' l.supports goal).encard :=
        ((Option.some_injective _).encard_image _).symm
    _ ≤ (l.supporter '' (Finset.range n : Set FactId)).encard := Set.encard_le_encard hsub
    _ ≤ (Finset.range n : Set FactId).encard := Set.encard_image_le _ _
    _ = n := by rw [Set.encard_coe_eq_coe_finsetCard, Finset.card_range]

/-- A relaxed plan rests on the costs that are added up. -/
theorem settle_fastForward (os : List Operator) (n : Nat) (l : Labels) :
    settle .fastForward os n l = settle .additive os n l := by
  induction n generalizing l with
  | zero => rfl
  | succ n ih =>
    have hpass : pass .fastForward os l = pass .additive os l := rfl
    rw [settle, settle, hpass]
    split
    · exact ih _
    · rfl

end Labels

namespace Relaxation

variable {r : Relaxation} {p : Problem} {s : State} {goal : Condition} {f : FactId}

/-- **A fact below the bound takes no more operators than it costs**, where costs are added up. -/
theorem encard_supports_le (hk : r.kind ≠ .max) (hf : (r.labels s).value f < Cost.exactBound) :
    ((r.labels s).supports [f]).encard ≤ (r.labels s).value f := by
  obtain ⟨n, hn⟩ := ENat.ne_top_iff_exists.1 (ne_top_of_lt hf)
  induction n using Nat.strongRecOn generalizing f with
  | ind n ih =>
    cases hsupp : (r.labels s).supporter f with
    | none =>
      rw [Labels.supports_singleton_of_none hsupp, Set.encard_empty]
      exact zero_le
    | some o =>
      have hsum : (r.labels s).value f = 1 + (o.pre.map (r.labels s).value).sum := by
        obtain ⟨-, heq⟩ := value_supported hsupp
        rw [heq, Labels.value_offer_eq (heq ▸ hf)]
        cases hkind : r.kind with
        | max => exact absurd hkind hk
        | additive => rfl
        | fastForward => rfl
      have hpre : ((r.labels s).supports o.pre).encard ≤ (o.pre.map (r.labels s).value).sum := by
        refine Labels.encard_supports_le_sum fun g hg => ?_
        have hless : (r.labels s).value g + 1 ≤ (r.labels s).value f := by
          rw [hsum, add_comm]
          gcongr
          exact List.le_sum_of_mem (List.mem_map_of_mem hg)
        have hlt := (le_self_add.trans hless).trans_lt hf
        obtain ⟨k, hk⟩ := ENat.ne_top_iff_exists.1 (ne_top_of_lt hlt)
        refine ih k ?_ hlt hk
        rw [← hk, ← hn] at hless
        exact_mod_cast hless
      rw [Labels.supports_singleton_of_some hsupp, hsum, add_comm]
      exact (Set.encard_insert_le _ _).trans (by gcongr)

/-- Several operators of one action count once. -/
theorem actionCount_le_encard {os : List Operator} {ops : Set Operator} (h : ∀ o ∈ os, o ∈ ops) :
    (actionCount os : ℕ∞) ≤ ops.encard := by
  have himage : (os.map Operator.action).toFinset = os.toFinset.image Operator.action :=
    Finset.ext fun i => by simp
  calc (actionCount os : ℕ∞) ≤ os.toFinset.card := by
        rw [actionCount_eq, himage]
        exact_mod_cast Finset.card_image_le
    _ = (os.toFinset : Set Operator).encard := (Set.encard_coe_eq_coe_finsetCard _).symm
    _ ≤ ops.encard := Set.encard_le_encard fun o ho => h o (List.mem_toFinset.1 (Finset.mem_coe.1 ho))

/-! ## Estimates -/

/-- **A finite estimate is nothing only where the goal facts hold.** -/
theorem estimate_eq_zero_iff (hgoal : ∀ g ∈ goal.positive, (r.labels s).value g ≠ ⊤) :
    r.estimate s goal = .zero ↔ ∀ g ∈ goal.positive, s.contains g = true := by
  refine ⟨fun h => ?_, fun hall => if_pos (List.all_eq_true.2 hall)⟩
  by_cases hk : r.kind = .fastForward
  · rcases of_estimate_fastForward hk h with ⟨hall, -⟩ | ⟨-, hzero⟩
    · exact hall
    · obtain ⟨os, -, hmem, -, -, hcover⟩ := exists_ordered_relaxedPlan hgoal
      have hnil : r.relaxedPlan (r.labels s) goal.positive = [] := by
        rw [actionCount_eq, eq_comm, Finset.card_eq_zero, List.toFinset_eq_empty_iff] at hzero
        exact List.map_eq_nil_iff.1 hzero
      intro g hg
      refine (hcover g hg).resolve_right ?_
      rintro ⟨o, ho, -⟩
      rw [hmem, hnil] at ho
      cases ho
  · have hsize := (r.labels_from s).2
    have hvalue := value_estimate_eq_total (r := r) (fun g hg => hsize ▸ Labels.lt_of_value_ne_top (hgoal g hg)) hk s
    rw [h, Cost.value_zero, eq_comm, Labels.value_total_eq_zero_iff (r.labels_from s).1.exact] at hvalue
    intro g hg
    by_contra hs
    obtain ⟨o, -, ho⟩ := exists_supporter (hgoal g hg) (Bool.eq_false_iff.2 hs)
    exact Labels.value_offer_ne_zero r.kind _ o ((value_supported ho).2.symm.trans (hvalue g hg))

theorem labels_fastForward (p : Problem) (s : State) :
    (ofProblem .fastForward p).labels s = (ofProblem .sum p).labels s :=
  Labels.settle_fastForward _ _ _

theorem noDearer_ofProblem {name : HeuristicName} (name' : HeuristicName) (p : Problem)
    (hk : name.kind = name'.kind ∨ name.kind = .max) : NoDearer (ofProblem name p) (ofProblem name' p) :=
  ⟨rfl, hk, fun o ho _ hf => ⟨o, ho, rfl, hf⟩⟩

/-- No estimate has facts cost more than added up costs do. -/
theorem value_labels_le_sum (name : HeuristicName) (p : Problem) (s : State) (f : FactId) :
    ((ofProblem name p).labels s).value f ≤ ((ofProblem .sum p).labels s).value f := by
  cases hk : name.kind with
  | max => exact (noDearer_ofProblem .sum p (.inr hk)).value_labels_le (fun _ hf => hf) f
  | additive => exact (noDearer_ofProblem .sum p (.inl hk)).value_labels_le (fun _ hf => hf) f
  | fastForward =>
    rw [← labels_fastForward]
    exact (noDearer_ofProblem .fastForward p (.inl hk)).value_labels_le (fun _ hf => hf) f

/-- **The estimate by a relaxed plan is at most the costs of the goal facts**, added up without rounding. -/
theorem value_estimate_fastForward_le
    (hgoal : ∀ g ∈ goal.positive, ((ofProblem .sum p).labels s).value g < Cost.exactBound) :
    ((ofProblem .fastForward p).estimate s goal).value ≤ p.numFacts ∧
    ((ofProblem .fastForward p).estimate s goal).value ≤
      (goal.positive.map ((ofProblem .sum p).labels s).value).sum := by
  rw [← labels_fastForward] at hgoal ⊢
  have hw := (ofProblem .fastForward p).labels_wellSupported s
  have hsize := ((ofProblem .fastForward p).labels_from s).2
  have hfin : ∀ g ∈ goal.positive, ((ofProblem .fastForward p).labels s).value g ≠ ⊤ :=
    fun g hg => ne_top_of_lt (hgoal g hg)
  have hlt : ∀ f, Needed ((ofProblem .fastForward p).labels s) goal.positive f →
      f < (ofProblem .fastForward p).numFacts :=
    fun f hf => hsize ▸ Labels.lt_of_value_ne_top (hw.needed hfin hf)
  have hbound : (Cost.exactBound : ℕ∞) ≤ Cost.sumBound := Nat.cast_le.2 (by decide +kernel)
  have hne : (ofProblem .fastForward p).estimate s goal ≠ .infinite :=
    estimate_ne_infinite fun g hg => ⟨hlt g (.goal hg), (hgoal g hg).le.trans hbound⟩
  cases hest : (ofProblem .fastForward p).estimate s goal with
  | infinite => exact absurd hest hne
  | finite n =>
    rcases of_estimate_fastForward (r := ofProblem .fastForward p) rfl hest with ⟨-, rfl⟩ | ⟨-, rfl⟩
    · exact ⟨zero_le, zero_le⟩
    · have hcount : _ ≤ (((ofProblem .fastForward p).labels s).supports goal.positive).encard :=
        actionCount_le_encard fun o ho => (mem_relaxedPlan (hw.sizes.trans hsize) hlt).1 ho
      refine ⟨hcount.trans (Labels.encard_supports_le_size hlt), hcount.trans ?_⟩
      refine Labels.encard_supports_le_sum fun g hg => encard_supports_le ?_ (hgoal g hg)
      exact fun hmax => HeuristicKind.noConfusion hmax

/-- **A relaxed plan can be carried out, and is paid for by the costs of the goal.**  Where the costs of the goal facts,
added up, are below the bound that doubles count exactly, its operators can be put in an order in which each finds its
precondition, and cover the goal together with the state.  The estimate by the maximum and the one by a relaxed plan are
at most the sum, and every estimate is nothing only where the goal facts hold.  (A sum beyond the bound is rounded: it
is still no less than the number of actions, unless the table itself is larger than the bound.) -/
theorem relaxedPlan_supported (p : Problem) (s : State) (goal : Condition)
    (hgoal : ∀ g ∈ goal.positive, ((ofProblem .sum p).labels s).value g < Cost.exactBound) :
    (∃ os : List Operator, os.Nodup ∧ (∀ o, o ∈ os ↔ o ∈ (ofProblem .fastForward p).relaxedPlan
        ((ofProblem .fastForward p).labels s) goal.positive) ∧ (∀ o ∈ os, o ∈ Operator.ofActions p.actions) ∧
      Ordered s os ∧ ∀ g ∈ goal.positive, s.contains g = true ∨ ∃ o ∈ os, g ∈ o.add) ∧
    ((ofProblem .fastForward p).estimate s goal).value ≤
      (goal.positive.map ((ofProblem .sum p).labels s).value).sum ∧
    (p.numFacts ≤ Cost.exactBound ∨ ((ofProblem .sum p).estimate s goal).value < Cost.exactBound →
      ((ofProblem .fastForward p).estimate s goal).value ≤ ((ofProblem .sum p).estimate s goal).value) ∧
    ((ofProblem .max p).estimate s goal).value ≤ ((ofProblem .sum p).estimate s goal).value ∧
    ∀ name, (ofProblem name p).estimate s goal = .zero ↔ ∀ g ∈ goal.positive, s.contains g = true := by
  have hfin : ∀ name, ∀ g ∈ goal.positive, ((ofProblem name p).labels s).value g ≠ ⊤ :=
    fun name g hg => ne_top_of_lt ((value_labels_le_sum name p s g).trans_lt (hgoal g hg))
  have hlt : ∀ g ∈ goal.positive, g < p.numFacts := fun g hg =>
    (Labels.lt_of_value_ne_top (hfin .sum g hg)).trans_eq ((ofProblem .sum p).labels_from s).2
  have hmax : NoDearer (ofProblem .max p) (ofProblem .sum p) := noDearer_ofProblem .sum p (.inr rfl)
  have hsum := value_estimate_eq_total (r := ofProblem .sum p) hlt nofun s
  obtain ⟨hfacts, hcosts⟩ := value_estimate_fastForward_le hgoal
  refine ⟨exists_ordered_relaxedPlan (hfin .fastForward), hcosts, fun hsmall => ?_,
    hmax.value_estimate_le hlt nofun fun _ hf => hf, fun name => estimate_eq_zero_iff (hfin name)⟩
  rcases lt_or_ge ((ofProblem .sum p).estimate s goal).value (Cost.exactBound : ℕ∞) with hexact | hbig
  · rw [hsum] at hexact ⊢
    rwa [Labels.value_total_eq hexact]
  · have hn : p.numFacts ≤ Cost.exactBound := hsmall.resolve_right (not_lt.2 hbig)
    exact hfacts.trans ((Nat.cast_le.2 hn).trans hbig)

/-- Two balls are carried by five actions, and one of these, the way to the other room, is paid for twice. -/
theorem relaxedPlan_supported_gripper : ∃ p, (Families.gripper 2).build = .ok p ∧
    (ofProblem .fastForward p).estimate p.init p.goal = .finite 5 ∧
    (ofProblem .sum p).estimate p.init p.goal = .finite 6 ∧
    ∃ os : List Operator, Ordered p.init os ∧ (∀ o ∈ os, o ∈ Operator.ofActions p.actions) ∧
      ∀ g ∈ p.goal.positive, p.init.contains g = true ∨ ∃ o ∈ os, g ∈ o.add := by
  obtain ⟨p, hb, hp⟩ := Draft.exists_build (d := Families.gripper 2)
    (fun p => (ofProblem .fastForward p).estimate p.init p.goal == .finite 5 &&
      ((ofProblem .sum p).estimate p.init p.goal == .finite 6 &&
      p.goal.positive.all (fun g => (((ofProblem .sum p).labels p.init).cost g).lt (.finite Cost.exactBound))))
    (by decide +kernel)
  simp only [Bool.and_eq_true, beq_iff_eq, List.all_eq_true] at hp
  obtain ⟨hff, hsum, hgoal⟩ := hp
  obtain ⟨⟨os, -, -, hops, hord, hcover⟩, -⟩ :=
    relaxedPlan_supported p p.init p.goal fun g hg => Cost.lt_iff.1 (hgoal g hg)
  exact ⟨p, hb, hff, hsum, os, hord, hops, hcover⟩

end Relaxation
end GroundPlanner
