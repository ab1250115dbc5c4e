import GroundPlanner.Proofs.Relaxation.Equations
/-!
# The number of passes

Passes are made until one changes nothing (`Labels.Passes`).  A pass that changes something meets an operator whose
offer is not met (`Labels.exists_unmet`); after `k` passes there are `k` facts within that offer, and a fact that it
lowers on top of them (`Labels.Reaching.card_within_lt_gained`).  The relaxation adds all of these to the state, so one
pass more than it adds facts is enough (`Labels.Reaching.exists_passes`), however costs are combined or rounded and
whatever they were in between.  The labels that are left have a supporter for what the relaxation adds and for nothing
else (`Relaxation.labels_passes_le`).
-/
namespace GroundPlanner

namespace Problem

variable {p : Problem} {s : State} {f : FactId}

open Classical in
/-- **The facts that the relaxation adds to a state.** -/
noncomputable def gained (p : Problem) (s : State) : Finset FactId :=
  (Finset.range p.numFacts).filter (fun f => p.Reached s f ∧ s.contains f = false)

theorem mem_gained : f ∈ p.gained s ↔ f < p.numFacts ∧ p.Reached s f ∧ s.contains f = false := by
  simp only [gained, Finset.mem_filter, Finset.mem_range]

theorem card_gained_le (p : Problem) (s : State) : (p.gained s).card ≤ p.numFacts := by
  have hsub : p.gained s ⊆ Finset.range p.numFacts := fun f hf => Finset.mem_range.2 (mem_gained.1 hf).1
  exact (Finset.card_le_card hsub).trans_eq (Finset.card_range _)

/-- What is reached without holding is added by an effect, so it stands in the table. -/
theorem Reached.lt_numFacts (hp : p.InTable) (h : p.Reached s f) (hs : s.contains f = false) : f < p.numFacts := by
  cases h with
  | holds hholds =>
    rw [hholds] at hs
    cases hs
  | added ha he _ _ hf => exact ((hp.actions _ ha).2 _ he).2.1 f hf

end Problem

namespace Labels

variable {kind : HeuristicKind} {os : List Operator} {p : Problem} {s : State} {l l' : Labels} {o : Operator}
  {k n : Nat}

/-- **How many passes are made from some labels, and what they leave**: the last pass is the first that changes
nothing. -/
inductive Passes (kind : HeuristicKind) (os : List Operator) : Nat → Labels → Labels → Prop where
  | last {l l' : Labels} (h : pass kind os l = (l', false)) : Passes kind os 1 l l'
  | more {n : Nat} {l l' m : Labels} (h : pass kind os l = (m, true)) (hrest : Passes kind os n m l') :
    Passes kind os (n + 1) l l'

/-- The labels tell how many passes are made, and what they leave. -/
theorem Passes.unique {n' : Nat} {l₁ l₂ : Labels} (h : Passes kind os n l l₁) (h' : Passes kind os n' l l₂) :
    n' = n ∧ l₂ = l₁ := by
  induction h generalizing n' with
  | last h =>
    cases h' with
    | last h' =>
      rw [h] at h'
      cases h'
      exact ⟨rfl, rfl⟩
    | more h' _ =>
      rw [h] at h'
      cases h'
  | more h _ ih =>
    cases h' with
    | last h' =>
      rw [h] at h'
      cases h'
    | more h' hrest' =>
      rw [h] at h'
      cases h'
      obtain ⟨rfl, rfl⟩ := ih hrest'
      exact ⟨rfl, rfl⟩

theorem exists_unmet (hadd : ∀ o ∈ os, ∀ f ∈ o.add, f < l.costs.size) (h : pass kind os l = (l', true)) :
    ∃ o ∈ os, ¬ l.Met kind o := by
  by_contra hall
  push Not at hall
  rw [pass_of_met hadd hall] at h
  cases h

/-- **What is within an offer that is not met is gained**, and so is what the offer lowers. -/
theorem Reaching.card_within_lt_gained (h : l.Reaching p s) (ho : o ∈ Operator.ofActions p.actions)
    (hunmet : ¬ l.Met kind o) : (within s l (l.offer kind o).value).card < (p.gained s).card := by
  unfold Met at hunmet
  push Not at hunmet
  obtain ⟨f, hadd, hlt, hoff⟩ := hunmet
  have hfin : (l.offer kind o).value ≠ ⊤ := ne_top_of_lt hoff
  have hnot : s.contains f = false := h.not_contains hlt hoff
  have hsub : within s l (l.offer kind o).value ⊆ p.gained s := by
    intro g hg
    obtain ⟨hlt, hs, hle⟩ := mem_within.1 hg
    exact Problem.mem_gained.2 ⟨h.size_eq ▸ hlt, h.reached g (ne_top_of_le_ne_top hfin hle), hs⟩
  have hnew : f ∈ p.gained s := Problem.mem_gained.2 ⟨h.size_eq ▸ hlt, h.of_offer ho hfin hadd, hnot⟩
  have hold : f ∉ within s l (l.offer kind o).value := fun hm => absurd (mem_within.1 hm).2.2 (not_le.2 hoff)
  exact Finset.card_lt_card ((Finset.ssubset_iff_of_subset hsub).2 ⟨f, hnew, hold⟩)

/-- **A pass that changes something after `k` passes** has more than `k` facts to gain. -/
theorem Reaching.lt_card_gained (hp : p.InTable) (h : l.Reaching p s)
    (hall : ∀ o ∈ Operator.ofActions p.actions, Ranked kind s l k o)
    (hpass : pass kind (Operator.ofActions p.actions) l = (l', true)) : k < (p.gained s).card := by
  obtain ⟨o, ho, hunmet⟩ := exists_unmet (fun o ho => h.size_eq ▸ Operator.lt_of_mem_add hp ho) hpass
  exact (hall o ho hunmet).trans_lt (h.card_within_lt_gained ho hunmet)

theorem Reaching.pass (kind : HeuristicKind) (h : l.Reaching p s) :
    (Labels.pass kind (Operator.ofActions p.actions) l).1.Reaching p s :=
  List.foldlRecOn (motive := fun q : Labels × Bool => q.1.Reaching p s) _ _ h (fun q hq _ ho => hq.relax q.2 ho)

/-- **The passes come to an end**, with the labels that settling leaves: each pass before the last puts one fact more
within every offer that is not met. -/
theorem Reaching.exists_passes (kind : HeuristicKind) (hp : p.InTable) (n : Nat) (h : l.Reaching p s)
    (hall : ∀ o ∈ Operator.ofActions p.actions, Ranked kind s l k o) (hk : k ≤ (p.gained s).card)
    (hn : (p.gained s).card ≤ k + n) : ∃ m, m + k ≤ (p.gained s).card + 1 ∧
      Passes kind (Operator.ofActions p.actions) m l (settle kind (Operator.ofActions p.actions) n l) := by
  induction n generalizing l k with
  | zero =>
    cases hpass : Labels.pass kind (Operator.ofActions p.actions) l with
    | mk l' changed =>
      cases changed with
      | true =>
        -- All that can be gained is within every offer that is not met, so there is no such offer.
        have hlt := h.lt_card_gained hp hall hpass
        omega
      | false =>
        obtain ⟨rfl, -⟩ := pass_false hpass
        exact ⟨1, by omega, .last hpass⟩
  | succ n ih =>
    unfold settle
    split
    · rename_i l' hpass
      have hlt := h.lt_card_gained hp hall hpass
      have hnext := ranked_pass h.toFrom hall
      have hreach := h.pass kind
      rw [hpass] at hnext hreach
      obtain ⟨m, hm, hpasses⟩ := ih hreach hnext hlt (by omega)
      exact ⟨m + 1, by omega, .more hpass hpasses⟩
    · rename_i l' hpass
      exact ⟨1, by omega, .last hpass⟩

/-! ## Supporters of what is within reach -/

/-- **Labels without a supporter for what is out of reach.** -/
structure Sparing (l : Labels) : Prop where
  sizes : l.supporters.size = l.costs.size
  ne_top : ∀ f o, l.supporter f = some o → l.value f ≠ ⊤

theorem Sparing.relax (h : l.Sparing) (b : Bool) (o : Operator) : (Labels.relax kind (l, b) o).1.Sparing where
  sizes := sizes_relax kind h.sizes o
  ne_top f x hx := by
    rw [supporter_relax_eq h.sizes] at hx
    split at hx
    · rename_i hlow
      rw [value_relax_eq, if_pos hlow]
      exact ne_top_of_lt hlow.lt
    · exact ne_top_of_le_ne_top (h.ne_top f x hx) (value_relax_le kind (l, b) o f)

theorem sparing_start (n : Nat) (s : State) : (start n s).Sparing where
  sizes := sizes_start n s
  ne_top f o ho := by
    rw [supporter_start] at ho
    cases ho

/-- Below the bound an offer is one more than the precondition costs. -/
theorem value_offer_eq_add_one (h : (l.offer kind o).value < Cost.exactBound) :
    (l.offer kind o).value = (l.total kind o.pre).value + 1 := by
  refine Cost.value_eq_of_capped h ?_
  rw [capped_offer, Cost.capped, Cost.cap_cap_add]

end Labels

namespace Relaxation

variable {p : Problem} {d : Draft} {r : Relaxation} {name : HeuristicName} {s : State} {f : FactId} {o : Operator}

theorem labels_sparing (r : Relaxation) (s : State) : (r.labels s).Sparing :=
  Labels.settle_induct (I := Labels.Sparing) (fun _ b o _ h => h.relax b o) _ (Labels.sparing_start _ s)

/-- **What holds has no supporter**, for an offer is never free. -/
theorem not_contains_of_supporter (h : (r.labels s).supporter f = some o) : s.contains f = false := by
  have hlt := Labels.lt_of_value_ne_top ((r.labels_sparing s).ne_top f o h)
  obtain ⟨-, heq⟩ := value_supported h
  refine (r.labels_from s).1.not_contains hlt (x := 0) ?_
  rw [heq]
  exact pos_iff_ne_zero.2 (Labels.value_offer_ne_zero r.kind (r.labels s) o)

theorem supporter_eq_none (h : s.contains f = true ∨ ¬ p.Reached s f) :
    ((ofProblem name p).labels s).supporter f = none := by
  cases hsupp : ((ofProblem name p).labels s).supporter f with
  | none => rfl
  | some o =>
    rcases h with hs | hnot
    · rw [not_contains_of_supporter hsupp] at hs
      cases hs
    · exact absurd (value_labels_of_not_reached hnot) ((labels_sparing _ s).ne_top f o hsupp)

/-- **What is gained has a supporter that costs one less**, as long as costs are exact. -/
theorem exists_supporter_of_reached (hp : p.InTable)
    (hsmall : ∀ f n, ((ofProblem name p).labels s).cost f = .finite n → n < Cost.exactBound) (hf : p.Reached s f)
    (hs : s.contains f = false) : ∃ o ∈ (ofProblem name p).operators,
      ((ofProblem name p).labels s).supporter f = some o ∧ f ∈ o.add ∧ ((ofProblem name p).labels s).value f =
        (((ofProblem name p).labels s).total (ofProblem name p).kind o.pre).value + 1 := by
  have hmodest : (ofProblem name p).Modest s :=
    fun f n hn => (hsmall f n hn).le.trans (by decide +kernel)
  have hfin := value_labels_of_reached hp hmodest hf (hf.lt_numFacts hp hs)
  obtain ⟨o, ho, hsupp⟩ := exists_supporter hfin hs
  obtain ⟨hadd, heq⟩ := value_supported hsupp
  have hlt := value_lt_exactBound hsmall hfin
  exact ⟨o, ho, hsupp, hadd, heq.trans (Labels.value_offer_eq_add_one (heq ▸ hlt))⟩

/-- **One pass more than the relaxation adds facts to the state is enough**: by then a pass has changed nothing, and
what it leaves are the settled labels.  They have a supporter for each fact that is added, which adds it and, as long as
costs are below the bound that doubles count exactly, has a precondition that costs one less; and none for a fact that
holds or is out of reach. -/
theorem labels_passes_le (hb : d.build = .ok p) (name : HeuristicName) (s : State) :
    (∃ n ≤ (p.gained s).card + 1,
      Labels.Passes (ofProblem name p).kind (ofProblem name p).operators n (.start p.numFacts s)
        ((ofProblem name p).labels s) ∧
      ∀ n' l, Labels.Passes (ofProblem name p).kind (ofProblem name p).operators n' (.start p.numFacts s) l →
        n' = n ∧ l = (ofProblem name p).labels s) ∧
    (∀ f, f ∈ p.gained s ↔ p.Reached s f ∧ s.contains f = false) ∧ (p.gained s).card ≤ p.numFacts ∧
    ((∀ f n, ((ofProblem name p).labels s).cost f = .finite n → n < Cost.exactBound) →
      ∀ f, p.Reached s f → s.contains f = false → ∃ o ∈ (ofProblem name p).operators,
        ((ofProblem name p).labels s).supporter f = some o ∧ f ∈ o.add ∧ ((ofProblem name p).labels s).value f =
          (((ofProblem name p).labels s).total (ofProblem name p).kind o.pre).value + 1) ∧
    ∀ f, s.contains f = true ∨ ¬ p.Reached s f → ((ofProblem name p).labels s).supporter f = none := by
  have hp := Draft.build_inTable hb
  have hcard := p.card_gained_le s
  refine ⟨?_, fun f => ?_, hcard, fun hsmall f => exists_supporter_of_reached hp hsmall, fun f => supporter_eq_none⟩
  · obtain ⟨n, hn, hpasses⟩ := (Labels.reaching_start p s).exists_passes (k := 0) (ofProblem name p).kind hp
      (p.numFacts + 1) (fun _ _ _ => Nat.zero_le _) (Nat.zero_le _) (by omega)
    exact ⟨n, hn, hpasses, fun n' l h => hpasses.unique h⟩
  · rw [Problem.mem_gained]
    exact and_iff_right_of_imp fun h => h.1.lt_numFacts hp h.2

/-- `press` stands before `plug`, so the first pass provides power, the second lights the lamp, and only the third
changes nothing: one more than there are facts to gain. -/
theorem labels_passes_le_lamp : ∃ p, Families.conditionalLamp.build = .ok p ∧ (p.gained p.init).card = 2 ∧
    (∀ n l, Labels.Passes .additive (ofProblem .sum p).operators n (.start p.numFacts p.init) l → n = 3) ∧
    ∃ o, ((ofProblem .sum p).labels p.init).supporter 1 = some o ∧ 1 ∈ o.add ∧
      (2 : ℕ∞) = (((ofProblem .sum p).labels p.init).total .additive o.pre).value + 1 := by
  obtain ⟨p, hb, hp⟩ := Draft.exists_build (d := Families.conditionalLamp)
    (fun p =>
      let pass := Labels.pass .additive (ofProblem .sum p).operators
      let first := pass (.start p.numFacts p.init)
      p.numFacts == 2 && (!p.init.contains 1 &&
        (((ofProblem .sum p).labels p.init).costs == #[.finite 1, .finite 2] &&
        (first.2 && ((pass first.1).2 && !(pass (pass first.1).1).2))))) (by decide +kernel)
  simp only [Bool.and_eq_true, Bool.not_eq_true', beq_iff_eq] at hp
  obtain ⟨hn, hdark, hcosts, hfirst, hsecond, hthird⟩ := hp
  obtain ⟨⟨n, hle, -, honly⟩, -, hcard, hsupp, -⟩ := labels_passes_le hb .sum p.init
  have hthree := honly 3 _ (.more (Prod.ext rfl hfirst) (.more (Prod.ext rfl hsecond) (.last (Prod.ext rfl hthird))))
  have hvalue : ((ofProblem .sum p).labels p.init).value 1 = 2 := by
    rw [Labels.value, Labels.cost, hcosts]
    rfl
  have hreached : p.Reached p.init 1 := (labels_reaching .sum p p.init).reached 1 (by rw [hvalue]; decide)
  obtain ⟨o, -, ho, hadd, heq⟩ := hsupp (lt_exactBound_of_all (by rw [hcosts]; decide +kernel)) 1 hreached hdark
  exact ⟨p, hb, by omega, fun n' l h => (honly n' l h).1.trans hthree.1.symm, o, ho, hadd, hvalue.symm.trans heq⟩

end Relaxation
end GroundPlanner
