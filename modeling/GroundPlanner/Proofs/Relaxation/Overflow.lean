import GroundPlanner.Proofs.Naming
import GroundPlanner.Proofs.Relaxation.Greatest
import GroundPlanner.Proofs.Relaxation.Reachability
/-!
# Costs that overflow

Facts in levels of two, where both facts of a level are needed for the next one: each level costs more than twice as
much as the one below, when costs are added up.  From 1025 levels on the last one costs infinity, although the
relaxation reaches it (`Relaxation.estimate_doubling`).  So only costs that are modest tell what is within reach.
-/
namespace GroundPlanner

/-- The action that leads to level `i + 1`, where level `i` has the facts `2 i` and `2 i + 1`. -/
def climbDraft (i : Nat) : ActionDraft where
  name := Text.ofNat i
  pre := [2 * i, 2 * i + 1].map Text.ofNat
  add := [2 * i + 2, 2 * i + 3].map Text.ofNat

/-- As many levels above the one that holds, and one fact of the last one for a goal. -/
def doubling (levels : Nat) : Draft where
  name := "doubling"
  facts := some ((List.range (2 * levels + 2)).map Text.ofNat)
  init := [0, 1].map Text.ofNat
  goal := [2 * levels].map Text.ofNat
  actions := (List.range levels).map climbDraft

/-- The action of a draft, by the numbers of its facts. -/
def climb (i : Nat) : Action :=
  ⟨Text.ofNat i, .of [2 * i, 2 * i + 1] [], [⟨.trivial, ⟨[2 * i + 2, 2 * i + 3], []⟩⟩]⟩

def doublingProblem (levels : Nat) : Problem where
  name := "doubling"
  facts := (List.range (2 * levels + 2)).map Text.ofNat
  init := .ofFacts (2 * levels + 2) [0, 1]
  goal := .of [2 * levels] []
  actions := (List.range levels).map climb
  requirements := [.strips]

variable {n i k : Nat} {f : FactId}

theorem level_of_mem {i f : Nat} (h : f ∈ [2 * i, 2 * i + 1]) : f / 2 = i := by
  simp only [List.mem_cons, List.not_mem_nil, or_false] at h
  omega

theorem forall_mem_pair_lt {a b m : Nat} (ha : a < m) (hb : b < m) : ∀ f ∈ [a, b], f < m :=
  List.forall_mem_cons.2 ⟨ha, List.forall_mem_singleton.2 hb⟩

theorem build_climb (h : i < n) :
    (climbDraft i).build ((List.range (2 * n + 2)).map Text.ofNat) = .ok (climb i) := by
  have hpre : ∀ f ∈ [2 * i, 2 * i + 1], f < 2 * n + 2 := forall_mem_pair_lt (by omega) (by omega)
  have hadd : ∀ f ∈ [2 * i + 2, 2 * i + 3], f < 2 * n + 2 := forall_mem_pair_lt (by omega) (by omega)
  unfold ActionDraft.build climbDraft
  simp only [resolve_map Text.ofNat_injective _ hpre, resolve_map Text.ofNat_injective _ hadd]
  rfl

theorem build_doubling (n : Nat) : (doubling n).build = .ok (doublingProblem n) := by
  have hnodup : ∀ k, ((List.range k).map Text.ofNat).Nodup := fun k => List.nodup_range.map Text.ofNat_injective
  have htable : (doubling n).table = (List.range (2 * n + 2)).map Text.ofNat := distinct_eq_self (hnodup _)
  have hinit : ∀ f ∈ [0, 1], f < 2 * n + 2 := forall_mem_pair_lt (by omega) (by omega)
  have hgoal : ∀ f ∈ [2 * n], f < 2 * n + 2 := List.forall_mem_singleton.2 (by omega)
  have hactions : ActionDraft.buildAll ((List.range (2 * n + 2)).map Text.ofNat) [] ((List.range n).map climbDraft) =
      .ok ((List.range n).map climb) := by
    refine ActionDraft.buildAll_eq_ok ?_ ?_
    · rw [List.nil_append, List.map_map]
      exact hnodup n
    · rw [List.forall₂_map_left_iff, List.forall₂_map_right_iff, List.forall₂_same]
      exact fun i hi => build_climb (List.mem_range.1 hi)
  unfold Draft.build
  simp only [htable]
  simp only [doubling, resolve_map Text.ofNat_injective _ hinit, resolve_map Text.ofNat_injective _ hgoal, hactions,
    List.length_map, List.length_range]
  rfl

theorem contains_init_doubling (n : Nat) (f : FactId) :
    (doublingProblem n).init.contains f = decide (f ∈ [0, 1]) :=
  State.contains_ofFacts (forall_mem_pair_lt (by omega) (by omega)) f

/-- **Every level is within reach.** -/
theorem reached_doubling (hk : k ≤ n) :
    ∀ f ∈ [2 * k, 2 * k + 1], (doublingProblem n).Reached (doublingProblem n).init f := by
  induction k with
  | zero =>
    intro f hf
    refine .holds ?_
    rw [contains_init_doubling, decide_eq_true_eq]
    exact hf
  | succ k ih =>
    intro f hf
    have ha : climb k ∈ (doublingProblem n).actions := List.mem_map_of_mem (List.mem_range.2 hk)
    refine .added ha List.mem_cons_self (fun g hg => ?_) (fun g hg => absurd hg List.not_mem_nil) hf
    exact ih (Nat.le_of_succ_le hk) g (mem_ascending.1 hg)

/-! ## Costs -/

theorem Cost.rounded_two_pow (h : k < 1024) : rounded (2 ^ k) = .finite (2 ^ k) := by
  have hnearest : nearest (2 ^ k) = 2 ^ k := by
    rcases Nat.lt_or_ge k 53 with hlt | hge
    · exact nearest_of_lt (Nat.pow_lt_pow_right (by decide) hlt)
    · have hsplit : 2 ^ k = 2 ^ 52 * 2 ^ (k - 52) := by rw [← Nat.pow_add, Nat.add_sub_cancel' (by omega)]
      rw [hsplit]
      exact nearest_canonical (by decide) fun _ => Nat.le_refl _
  have hlt : 2 ^ k < 1 <<< 1024 := by
    rw [← Nat.one_shiftLeft]
    exact bit_lt_bit h
  rw [rounded_eq, hnearest, if_pos hlt]

/-- What a level costs at least, if costs are added up. -/
def levelCost : Nat → Cost
  | 0 => .zero
  | k + 1 => ((levelCost k).add (levelCost k)).succ

theorem add_levelCost_le (k : Nat) : ((levelCost k).add (levelCost k)).value ≤ (levelCost (k + 1)).value :=
  Cost.value_le_add (Cost.exact_add _ _) _

/-- **Level `k + 1` costs `2 ^ k` at least.** -/
theorem two_pow_le_levelCost (h : k < 1024) : ((2 ^ k : Nat) : ℕ∞) ≤ (levelCost (k + 1)).value := by
  induction k with
  | zero => exact le_rfl
  | succ k ih =>
    have hbelow := ih (Nat.lt_of_succ_lt h)
    calc ((2 ^ (k + 1) : Nat) : ℕ∞) = (Cost.rounded (2 ^ (k + 1))).value := by rw [Cost.rounded_two_pow h]; rfl
      _ = ((Cost.finite (2 ^ k)).add (.finite (2 ^ k))).value := by rw [Nat.pow_succ, Nat.mul_two]; rfl
      _ ≤ ((levelCost (k + 1)).add (levelCost (k + 1))).value := Cost.value_add_mono hbelow hbelow
      _ ≤ (levelCost (k + 2)).value := add_levelCost_le _

theorem levelCost_eq_infinite (h : 1025 ≤ k) : levelCost k = .infinite := by
  induction k, h using Nat.le_induction with
  | base =>
    have hbelow : (Cost.finite (2 ^ 1023)).value ≤ (levelCost 1024).value := two_pow_le_levelCost (by decide)
    have hover : (Cost.finite (2 ^ 1023)).add (.finite (2 ^ 1023)) = .infinite := by decide +kernel
    refine Cost.value_injective (top_le_iff.1 ?_)
    calc (⊤ : ℕ∞) = ((Cost.finite (2 ^ 1023)).add (.finite (2 ^ 1023))).value := by rw [hover]; rfl
      _ ≤ ((levelCost 1024).add (levelCost 1024)).value := Cost.value_add_mono hbelow hbelow
      _ ≤ (levelCost 1025).value := add_levelCost_le _
  | succ k _ ih =>
    rw [levelCost, ih]
    rfl

namespace Relaxation

variable {name : HeuristicName}

theorem levelCost_le_offer {kind : HeuristicKind} (hk : kind ≠ .max) {l : Labels} (hl : l.Exact) {o : Operator}
    (hpre : o.pre = [2 * i, 2 * i + 1]) (hle : ∀ f ∈ o.pre, (levelCost i).value ≤ l.value f) :
    (levelCost (i + 1)).value ≤ (l.offer kind o).value := by
  rw [hpre] at hle
  have hfirst := hle _ List.mem_cons_self
  have hsecond := hle _ (List.mem_cons_of_mem _ List.mem_cons_self)
  have hsum : l.total kind o.pre = (Cost.zero.add (l.cost (2 * i))).add (l.cost (2 * i + 1)) := by
    rw [hpre]
    cases kind with
    | max => exact absurd rfl hk
    | additive => rfl
    | fastForward => rfl
  have hzero : l.value (2 * i) ≤ (Cost.zero.add (l.cost (2 * i))).value := by
    rw [Cost.add_comm]
    exact Cost.value_le_add (hl _) _
  rw [levelCost, Labels.offer, hsum]
  exact Cost.value_succ_mono (Cost.value_add_mono (hfirst.trans hzero) hsecond)

theorem levelCost_le (hk : name.kind ≠ .max) (n : Nat) (f : FactId) : (levelCost (f / 2)).value ≤
    ((ofProblem name (doublingProblem n)).labels (doublingProblem n).init).value f := by
  refine le_labels (x := fun f => (levelCost (f / 2)).value) (fun f _ hs => ?_) (fun l hl hle o ho f hf _ => ?_) f
  · rw [contains_init_doubling, decide_eq_true_eq] at hs
    have hzero : f / 2 = 0 := level_of_mem hs
    rw [hzero]
    rfl
  · obtain ⟨a, e, ha, he, -, heq⟩ := Operator.exists_of_mem_ofActions ho
    obtain ⟨i, -, rfl⟩ := List.mem_map.1 (List.mem_of_getElem? ha)
    obtain rfl := List.mem_singleton.1 he
    have hpre : o.pre = [2 * i, 2 * i + 1] := by
      rw [heq]
      simp [climb, Condition.of, Condition.trivial, ascending, insertAscending]
    have hlevel : f / 2 = i + 1 := by
      rw [heq] at hf
      exact level_of_mem hf
    rw [hlevel]
    refine levelCost_le_offer hk hl hpre fun g hg => ?_
    have hbelow : g / 2 = i := level_of_mem (hpre ▸ hg)
    exact hbelow ▸ hle g

/-- **From 1025 levels on the estimate overflows**, unless costs are combined by the maximum: it is infinite, although
the goal is within reach of the relaxation. -/
theorem estimate_doubling (hk : name.kind ≠ .max) (hn : 1025 ≤ n) :
    (ofProblem name (doublingProblem n)).estimate (doublingProblem n).init (doublingProblem n).goal = .infinite ∧
    ∀ g ∈ (doublingProblem n).goal.positive, (doublingProblem n).Reached (doublingProblem n).init g := by
  have hgoal : (doublingProblem n).goal.positive = [2 * n] := rfl
  refine ⟨estimate_eq_infinite (g := 2 * n) (hgoal ▸ List.mem_cons_self) ?_ ?_, fun g hg => ?_⟩
  · rw [contains_init_doubling, decide_eq_false_iff_not]
    intro hmem
    have hzero : 2 * n / 2 = 0 := level_of_mem hmem
    omega
  · have hle := levelCost_le hk n (2 * n)
    rw [Nat.mul_div_cancel_left n (by decide), levelCost_eq_infinite hn] at hle
    exact top_le_iff.1 hle
  · rw [hgoal] at hg
    exact reached_doubling (le_refl n) g (List.mem_cons.2 (.inl (List.mem_singleton.1 hg)))

/-- The goal above 1025 levels is within reach, and two of the estimates are infinite. -/
theorem estimate_overflow : ∃ p, (doubling 1025).build = .ok p ∧
    (ofProblem .sum p).estimate p.init p.goal = .infinite ∧
    (ofProblem .fastForward p).estimate p.init p.goal = .infinite ∧
    ¬ ∃ g ∈ p.goal.positive, ¬ p.Reached p.init g := by
  have hsum : HeuristicName.sum.kind ≠ .max := nofun
  have hff : HeuristicName.fastForward.kind ≠ .max := nofun
  obtain ⟨hinf, hreached⟩ := estimate_doubling hsum (le_refl 1025)
  exact ⟨_, build_doubling 1025, hinf, (estimate_doubling hff (le_refl 1025)).1,
    fun ⟨g, hg, hnot⟩ => hnot (hreached g hg)⟩

end Relaxation
end GroundPlanner
