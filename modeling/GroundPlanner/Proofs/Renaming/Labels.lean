import GroundPlanner.Proofs.Relaxation.DeleteRelaxation
import GroundPlanner.Proofs.Renaming.Basic
/-!
# Labels of renamed problems

The labels of two renamed problems have the same capped costs and, where these are not infinite, the same supporters
(`Labels.Renamed`).  Relaxing an operator in both keeps this (`Labels.Renamed.relax`), and a number of passes settles
both, so it holds of the settled labels (`Relaxation.labels_rename`).
-/
namespace GroundPlanner

variable {σ : Equiv.Perm FactId} {kind : HeuristicKind} {name : HeuristicName} {p q : Problem} {s t : State}
  {l l' : Labels} {o : Operator} {n n' : Nat}

namespace Operator

def rename (σ : Equiv.Perm FactId) (o : Operator) : Operator :=
  ⟨o.action, ascending (o.pre.map σ), o.add.map σ⟩

def Below (n : Nat) (o : Operator) : Prop :=
  ∀ f ∈ o.add, f < n

theorem ofEffect_rename (i : Nat) (c : Condition) (e : GuardedEffect) :
    ofEffect i (c.rename σ) (e.rename σ) = (ofEffect i c e).map (rename σ) := by
  have hpre : ascending ((c.rename σ).positive ++ (e.rename σ).guard.positive) =
      ascending ((ascending (c.positive ++ e.guard.positive)).map σ) := by
    refine ascending_congr (fun x => ?_)
    simp only [GuardedEffect.rename, Condition.rename, Condition.of, List.mem_append, List.mem_map, mem_ascending]
    constructor
    · rintro (⟨f, hf, rfl⟩ | ⟨f, hf, rfl⟩)
      · exact ⟨f, .inl hf, rfl⟩
      · exact ⟨f, .inr hf, rfl⟩
    · rintro ⟨f, hf | hf, rfl⟩
      · exact .inl ⟨f, hf, rfl⟩
      · exact .inr ⟨f, hf, rfl⟩
  have hadd : (e.rename σ).effect.add = e.effect.add.map σ := rfl
  unfold ofEffect
  rw [hpre, hadd, List.isEmpty_map]
  split <;> rfl

theorem ofActions_rename (actions : List Action) :
    ofActions (actions.map (Action.rename σ)) = (ofActions actions).map (rename σ) := by
  unfold ofActions
  rw [List.zipIdx_map, List.flatMap_map, List.map_flatMap]
  refine List.flatMap_congr (fun x _ => ?_)
  simp only [Prod.map, Action.rename, List.filterMap_map, List.map_filterMap, id]
  exact List.filterMap_congr (fun e _ => ofEffect_rename x.2 x.1.precondition e)

/-- Operators add facts of the table, and each precondition stands in them once. -/
theorem of_mem_ofActions (hp : p.InTable) (ho : o ∈ ofActions p.actions) : o.Below p.numFacts ∧ o.pre.Nodup := by
  obtain ⟨a, e, -, -, -, heq⟩ := exists_of_mem_ofActions ho
  exact ⟨lt_of_mem_add hp ho, heq ▸ nodup_ascending _⟩

end Operator

namespace Labels

/-! ## Passes on both problems -/

/-- **Labels of two problems that agree as far as capped costs tell.** -/
structure Renamed (σ : Equiv.Perm FactId) (n n' : Nat) (l l' : Labels) : Prop where
  supported : l.Supported n
  supported' : l'.Supported n'
  capped_eq : ∀ f, l'.capped (σ f) = l.capped f
  supporter_eq : ∀ f, l.capped f ≠ ⊤ → l'.supporter (σ f) = (l.supporter f).map (Operator.rename σ)

theorem capped_total_rename (h : ∀ f, l'.capped (σ f) = l.capped f) {fs : List FactId} (hfs : fs.Nodup) :
    (l'.total kind (ascending (fs.map σ))).capped = (l.total kind fs).capped := by
  have hperm : (ascending (fs.map σ)).Perm (fs.map σ) :=
    (List.perm_ext_iff_of_nodup (nodup_ascending _) (hfs.map σ.injective)).2 (fun _ => mem_ascending)
  refine capped_total_perm ((hperm.map _).trans ?_)
  have hmap : (fs.map σ).map l'.capped = fs.map l.capped := by
    rw [List.map_map]
    exact List.map_congr_left (fun f _ => h f)
  rw [hmap]

theorem Renamed.capped_offer (h : Renamed σ n n' l l') (hpre : o.pre.Nodup) :
    (l'.offer kind (o.rename σ)).capped = (l.offer kind o).capped := by
  rw [Labels.capped_offer, Labels.capped_offer]
  exact congrArg (fun c => Cost.cap (c + 1)) (capped_total_rename h.capped_eq hpre)

theorem Renamed.mem_add_iff (h : Renamed σ n n' l l') (ho : o.Below n) (ho' : (o.rename σ).Below n') (f : FactId) :
    (σ f ∈ (o.rename σ).add ∧ σ f < l'.costs.size) ↔ (f ∈ o.add ∧ f < l.costs.size) := by
  have hmem : σ f ∈ (o.rename σ).add ↔ f ∈ o.add := List.mem_map_of_injective σ.injective
  rw [h.supported.size_eq, h.supported'.size_eq, and_iff_left_of_imp (ho f), ← hmem]
  exact and_iff_left_of_imp (ho' (σ f))

/-- **Relaxing an operator in both problems.** -/
theorem Renamed.relax {x y : Labels × Bool} (h : Renamed σ n n' x.1 y.1) (ho : o.Below n) (ho' : (o.rename σ).Below n')
    (hpre : o.pre.Nodup) : Renamed σ n n' (relax kind x o).1 (relax kind y (o.rename σ)).1 := by
  have hcapped : ∀ f, (Labels.relax kind y (o.rename σ)).1.capped (σ f) = (Labels.relax kind x o).1.capped f := by
    intro f
    rw [capped_relax, capped_relax, h.capped_offer hpre, h.capped_eq]
    exact if_congr (h.mem_add_iff ho ho' f) rfl rfl
  refine ⟨h.supported.relax o, h.supported'.relax _, hcapped, fun f hf => ?_⟩
  rw [supporter_relax kind h.supported.sizes o hf, supporter_relax kind h.supported'.sizes _ (hcapped f ▸ hf),
    h.capped_offer hpre, h.capped_eq]
  have hiff := h.mem_add_iff ho ho' f
  by_cases hlow : f ∈ o.add ∧ f < x.1.costs.size ∧ (x.1.offer kind o).capped < x.1.capped f
  · have hin := hiff.2 ⟨hlow.1, hlow.2.1⟩
    rw [if_pos hlow, if_pos ⟨hin.1, hin.2, hlow.2.2⟩, Option.map_some]
  · have hlow' : ¬ (σ f ∈ (o.rename σ).add ∧ σ f < y.1.costs.size ∧ (x.1.offer kind o).capped < x.1.capped f) := by
      rintro ⟨hmem, hlt, hoff⟩
      have hin := hiff.1 ⟨hmem, hlt⟩
      exact hlow ⟨hin.1, hin.2, hoff⟩
    rw [if_neg hlow, if_neg hlow']
    exact h.supporter_eq f (capped_ne_top_of_not_lowered hf hlow)

theorem Renamed.afterPass {os : List Operator} (h : Renamed σ n n' l l')
    (hos : ∀ o ∈ os, o.Below n ∧ (o.rename σ).Below n' ∧ o.pre.Nodup) :
    Renamed σ n n' (afterPass kind os l) (afterPass kind (os.map (Operator.rename σ)) l') := by
  unfold Labels.afterPass pass
  rw [List.foldl_map]
  suffices hfold : ∀ x y : Labels × Bool, Renamed σ n n' x.1 y.1 →
      Renamed σ n n' (os.foldl (Labels.relax kind) x).1
        (os.foldl (fun y o => Labels.relax kind y (o.rename σ)) y).1 from hfold _ _ h
  clear h
  induction os with
  | nil => exact fun _ _ h => h
  | cons o os ih =>
    intro x y h
    obtain ⟨ho, ho', hpre⟩ := hos o List.mem_cons_self
    exact ih (fun o' ho' => hos o' (List.mem_cons_of_mem o ho')) _ _ (h.relax ho ho' hpre)

theorem renamed_start (h : p.Mirrors σ q s t) :
    Renamed σ p.numFacts q.numFacts (start p.numFacts s) (start q.numFacts t) where
  supported := supported_start _ s
  supported' := supported_start _ t
  capped_eq f := by
    unfold capped
    rw [cost_start, cost_start]
    refine congrArg Cost.capped (if_congr ?_ rfl rfl)
    rw [and_iff_right_of_imp (h.lt f), and_iff_right_of_imp (h.lt' (σ f)), h.contains_eq]
  supporter_eq f _ := by
    rw [supporter_start, supporter_start]
    rfl

end Labels

namespace Relaxation

theorem operators_rename (hr : p.Renamed σ q) :
    (ofProblem name q).operators = (ofProblem name p).operators.map (Operator.rename σ) := by
  have hactions : Operator.ofActions q.actions = (Operator.ofActions p.actions).map (Operator.rename σ) := by
    rw [hr.actions_eq, Operator.ofActions_rename]
  exact hactions

/-- **The settled labels of renamed problems agree.** -/
theorem labels_rename (hr : p.Renamed σ q) (h : p.Mirrors σ q s t) : Labels.Renamed σ p.numFacts q.numFacts
    ((ofProblem name p).labels s) ((ofProblem name q).labels t) := by
  have hos : ∀ o ∈ (ofProblem name p).operators,
      o.Below p.numFacts ∧ (o.rename σ).Below q.numFacts ∧ o.pre.Nodup := by
    intro o ho
    have ho' : o.rename σ ∈ (ofProblem name q).operators := by
      rw [operators_rename hr]
      exact List.mem_map_of_mem ho
    have hbelow := Operator.of_mem_ofActions hr.inTable ho
    have hbelow' := Operator.of_mem_ofActions hr.inTable' ho'
    exact ⟨hbelow.1, hbelow'.1, hbelow.2⟩
  -- The two problems have different numbers of facts, but one number of passes settles both.
  have hk : ∀ k, Labels.Renamed σ p.numFacts q.numFacts
      ((Labels.afterPass name.kind (ofProblem name p).operators)^[k] (.start p.numFacts s))
      ((Labels.afterPass name.kind (ofProblem name q).operators)^[k] (.start q.numFacts t)) := by
    intro k
    rw [operators_rename hr]
    induction k with
    | zero => exact Labels.renamed_start h
    | succ k ih =>
      rw [Function.iterate_succ_apply', Function.iterate_succ_apply']
      exact ih.afterPass hos
  rw [labels_eq_iterate (ofProblem name p) s (k := p.numFacts + q.numFacts + 1) (by simp [ofProblem]),
    labels_eq_iterate (ofProblem name q) t (k := p.numFacts + q.numFacts + 1) (by simp [ofProblem])]
  exact hk _

end Relaxation
end GroundPlanner
