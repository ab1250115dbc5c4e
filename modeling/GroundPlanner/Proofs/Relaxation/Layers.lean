import GroundPlanner.Proofs.Relaxation.Equations
/-!
# Layers of facts

Combined by the maximum, a cost rests on one that is smaller by one, so every cost up to that of a fact within reach is
the cost of some fact (`Relaxation.exists_value_eq`).  Hence a finite cost is at most the number of facts, and so is a
finite estimate (`Relaxation.estimate_le_numFacts`).
-/
namespace GroundPlanner
namespace Relaxation

variable {r : Relaxation} {p : Problem} {s : State} {name : HeuristicName} {f : FactId}

/-- **No layer below that of a fact within reach is empty.** -/
theorem exists_value_eq (hk : r.kind = .max) (h : (r.labels s).Grounded s f) {n k : Nat}
    (hn : (r.labels s).value f = n) (hpos : 0 < k) (hkn : k ≤ n) : ∃ g < r.numFacts, (r.labels s).value g = k := by
  induction h generalizing n with
  | @holds f hs _ =>
    have hlt : f < r.numFacts :=
      (r.labels_from s).2 ▸ Labels.lt_of_value_ne_top (hn ▸ ENat.natCast_ne_top n)
    rw [value_labels_of_contains hlt hs] at hn
    have hzero : n = 0 := by exact_mod_cast hn.symm
    omega
  | @supported f o ho _ _ ih =>
    rcases Nat.lt_or_eq_of_le hkn with hlt | rfl
    · obtain ⟨-, heq⟩ := value_supported ho
      rw [hn, hk, Labels.offer] at heq
      cases htotal : (r.labels s).total .max o.pre with
      | infinite =>
        rw [htotal] at heq
        exact absurd heq (ENat.natCast_ne_top n)
      | finite m =>
        have hm : m ≤ Cost.exactBound := Labels.small_total_max (small_labels hk s) o.pre m htotal
        rw [htotal, Cost.succ_of_le hm, Cost.value_finite] at heq
        have heq : n = min (m + 1) Cost.exactBound := by exact_mod_cast heq
        have hkm : k ≤ m := by omega
        -- The dearest fact of the precondition stands in layer `k` or above.
        obtain ⟨g, hg, hnot⟩ : ∃ g ∈ o.pre, ¬ (r.labels s).value g ≤ (k - 1 : Nat) := by
          by_contra hall
          push Not at hall
          have hle := Labels.value_total_max_le.2 hall
          rw [htotal, Cost.value_finite] at hle
          have hle : m ≤ k - 1 := by exact_mod_cast hle
          omega
        have hgm : (r.labels s).value g ≤ m := by
          have hle : _ ≤ ((r.labels s).total .max o.pre).value := Labels.value_le_total (r.labels_from s).1.exact hg
          rwa [htotal] at hle
        obtain ⟨j, hj⟩ := ENat.ne_top_iff_exists.1 (ne_top_of_le_ne_top (ENat.natCast_ne_top m) hgm)
        rw [← hj] at hnot
        have hkj : k ≤ j := by
          have hnot : ¬ j ≤ k - 1 := by exact_mod_cast hnot
          omega
        exact ih g hg hj.symm hkj
    · exact ⟨f, (r.labels_from s).2 ▸ Labels.lt_of_value_ne_top (hn ▸ ENat.natCast_ne_top k), hn⟩

/-- **A finite cost is at most the number of facts.** -/
theorem value_le_numFacts (hk : r.kind = .max) (hf : (r.labels s).value f ≠ ⊤) :
    (r.labels s).value f ≤ r.numFacts := by
  obtain ⟨n, hn⟩ := ENat.ne_top_iff_exists.1 hf
  have hsub : Finset.Icc 1 n ⊆ (Finset.range r.numFacts).image (fun g => ((r.labels s).value g).toNat) := by
    intro k hk'
    obtain ⟨hpos, hkn⟩ := Finset.mem_Icc.1 hk'
    obtain ⟨g, hg, hval⟩ := exists_value_eq hk ((r.labels_wellSupported s).grounded f hf) hn.symm hpos hkn
    exact Finset.mem_image.2 ⟨g, Finset.mem_range.2 hg, by rw [hval]; rfl⟩
  have hcard : n ≤ r.numFacts := by
    calc n = (Finset.Icc 1 n).card := by rw [Nat.card_Icc, Nat.add_sub_cancel]
      _ ≤ ((Finset.range r.numFacts).image fun g => ((r.labels s).value g).toNat).card := Finset.card_le_card hsub
      _ ≤ (Finset.range r.numFacts).card := Finset.card_image_le
      _ = r.numFacts := Finset.card_range _
  rw [← hn]
  exact_mod_cast hcard

/-- **A finite estimate by the maximum is at most the number of facts.** -/
theorem estimate_le_numFacts (hp : p.InTable) (hk : name.kind = .max) {n : Nat}
    (h : (ofProblem name p).estimate s p.goal = .finite n) : n ≤ p.numFacts := by
  have hvalue := value_estimate hp hk s
  rw [h, Cost.value_finite] at hvalue
  have hle : (((ofProblem name p).labels s).total .max p.goal.positive).value ≤ p.numFacts := by
    refine Labels.value_total_max_le.2 fun g hg => value_le_numFacts (r := ofProblem name p) hk ?_
    refine ne_top_of_le_ne_top (ENat.natCast_ne_top n) ?_
    rw [hvalue]
    exact Labels.value_le_total ((ofProblem name p).labels_from s).1.exact hg
  rw [← hvalue] at hle
  exact_mod_cast hle

/-- Estimates by the maximum stay where ones are told apart. -/
theorem small_estimate (hp : p.InTable) (hk : name.kind = .max) (s : State) :
    ((ofProblem name p).estimate s p.goal).Small := by
  rw [Cost.value_injective (value_estimate hp hk s)]
  exact Labels.small_total_max (small_labels (r := ofProblem name p) hk s) _

end Relaxation
end GroundPlanner
