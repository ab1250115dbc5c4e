import GroundPlanner.Proofs.Relaxation.Greatest
import GroundPlanner.Proofs.Relaxation.Reachability
import Mathlib.Algebra.Order.BigOperators.Group.List
/-!
# The equations of relaxed costs

A fact of the state costs nothing, and any other one more than the cheapest precondition of an operator that adds it.
These equations have one solution at most (`Relaxation.Solves.unique`): a finite cost rests on smaller ones, so cycles
of operators support nothing.  Below the bound that doubles count exactly, the settled costs solve them
(`Relaxation.solves_labels`), because every supporter still offers what its fact costs (`Relaxation.value_supported`).
-/
namespace GroundPlanner

namespace HeuristicKind

/-- Several costs together, as numbers with infinity. -/
noncomputable def gather : HeuristicKind → List ℕ∞ → ℕ∞
  | .max, xs => xs.foldr Max.max 0
  | .additive, xs | .fastForward, xs => xs.sum

variable {kind : HeuristicKind} {x : ℕ∞} {xs : List ℕ∞} {fs : List FactId} {c c' : FactId → ℕ∞}

theorem le_gather (hx : x ∈ xs) : x ≤ kind.gather xs := by
  cases kind with
  | max =>
    induction xs with
    | nil => cases hx
    | cons y ys ih =>
      rcases List.mem_cons.1 hx with rfl | hx
      · exact le_max_left _ _
      · exact (ih hx).trans (le_max_right _ _)
  | additive => exact List.le_sum_of_mem hx
  | fastForward => exact List.le_sum_of_mem hx

theorem gather_mono (h : ∀ f ∈ fs, c f ≤ c' f) : kind.gather (fs.map c) ≤ kind.gather (fs.map c') := by
  cases kind with
  | max =>
    induction fs with
    | nil => exact le_rfl
    | cons f fs ih =>
      have hrest := ih fun g hg => h g (List.mem_cons_of_mem f hg)
      exact max_le_max (h f List.mem_cons_self) hrest
  | additive => exact List.sum_le_sum h
  | fastForward => exact List.sum_le_sum h

theorem gather_zero_cons (kind : HeuristicKind) (xs : List ℕ∞) : kind.gather (0 :: xs) = kind.gather xs := by
  cases kind with
  | max => exact max_eq_right zero_le
  | additive => exact List.sum_cons.trans (zero_add _)
  | fastForward => exact List.sum_cons.trans (zero_add _)

theorem cap_gather_combine (kind : HeuristicKind) (a b : Cost) (xs : List ℕ∞) :
    Cost.cap (kind.gather ((kind.combine a b).value :: xs)) = Cost.cap (kind.gather (a.value :: b.value :: xs)) := by
  have hadd : Cost.cap ((a.add b).value + xs.sum) = Cost.cap (a.value + (b.value + xs.sum)) := by
    have hcap : Cost.cap (a.add b).value = Cost.cap (a.value + b.value) := by
      have hsum := Cost.capped_add a b
      rwa [Cost.capped, Cost.capped, Cost.capped, Cost.cap_add_cap, Cost.cap_cap_add] at hsum
    rw [← Cost.cap_cap_add, hcap, Cost.cap_cap_add, add_assoc]
  cases kind with
  | max => simp only [gather, combine, List.foldr_cons, Cost.value_max, max_assoc]
  | additive => simpa only [gather, combine, List.sum_cons] using hadd
  | fastForward => simpa only [gather, combine, List.sum_cons] using hadd

end HeuristicKind

namespace Cost

theorem cap_of_lt {x : ℕ∞} (h : x < exactBound) : cap x = x :=
  if_pos h

/-- Below the bound a cost is what it is when capped. -/
theorem value_eq_of_capped {c : Cost} {x : ℕ∞} (h : c.value < exactBound) (hcap : c.capped = cap x) : c.value = x := by
  rw [capped, cap_of_lt h] at hcap
  rw [hcap, cap_of_ne_top]
  exact hcap ▸ ne_top_of_lt h

end Cost

namespace Labels

variable {kind : HeuristicKind} {l : Labels} {o : Operator} {fs : List FactId}

/-! ## Offers as numbers -/

theorem capped_total_eq_cap (kind : HeuristicKind) (l : Labels) (fs : List FactId) :
    (l.total kind fs).capped = Cost.cap (kind.gather (fs.map l.value)) := by
  have hfold : ∀ c : Cost, (fs.foldl (fun c f => kind.combine c (l.cost f)) c).capped =
      Cost.cap (kind.gather (c.value :: fs.map l.value)) := by
    induction fs with
    | nil =>
      intro c
      cases kind with
      | max => exact congrArg Cost.cap (max_eq_left zero_le).symm
      | additive => exact congrArg Cost.cap (add_zero _).symm
      | fastForward => exact congrArg Cost.cap (add_zero _).symm
    | cons f fs ih =>
      intro c
      rw [List.foldl_cons, ih, List.map_cons]
      exact kind.cap_gather_combine c (l.cost f) _
  rw [total_eq, hfold, Cost.value_zero, kind.gather_zero_cons]

theorem capped_offer_eq_cap (kind : HeuristicKind) (l : Labels) (o : Operator) :
    (l.offer kind o).capped = Cost.cap (1 + kind.gather (o.pre.map l.value)) := by
  rw [capped_offer, capped_total_eq_cap, Cost.cap_cap_add, add_comm]

theorem value_total_eq (h : (l.total kind fs).value < Cost.exactBound) :
    (l.total kind fs).value = kind.gather (fs.map l.value) :=
  Cost.value_eq_of_capped h (capped_total_eq_cap kind l fs)

/-- **Below the bound an offer is exact.** -/
theorem value_offer_eq (h : (l.offer kind o).value < Cost.exactBound) :
    (l.offer kind o).value = 1 + kind.gather (o.pre.map l.value) :=
  Cost.value_eq_of_capped h (capped_offer_eq_cap kind l o)

/-- What is below the bound and no more than an offer is no more than the offer without rounding. -/
theorem le_of_le_offer {x : ℕ∞} (hx : x < Cost.exactBound) (h : x ≤ (l.offer kind o).value) :
    x ≤ 1 + kind.gather (o.pre.map l.value) := by
  have hcap : Cost.cap x ≤ (l.offer kind o).capped := Cost.cap_mono h
  rw [Cost.cap_of_lt hx, capped_offer_eq_cap] at hcap
  by_cases htop : Cost.cap (1 + kind.gather (o.pre.map l.value)) = ⊤
  · exact hx.le.trans (Cost.cap_eq_top_iff.1 htop)
  · rwa [Cost.cap_of_ne_top htop] at hcap

theorem value_offer_ne_zero (kind : HeuristicKind) (l : Labels) (o : Operator) : (l.offer kind o).value ≠ 0 := by
  intro hzero
  have hlt : (l.offer kind o).value < Cost.exactBound := by
    rw [hzero]
    exact_mod_cast (by decide : 0 < Cost.exactBound)
  rw [value_offer_eq hlt, add_eq_zero] at hzero
  exact one_ne_zero hzero.1

/-! ## Supporters -/

/-- **Labels whose supporters offer no more than their facts cost.** -/
structure Backed (kind : HeuristicKind) (l : Labels) : Prop where
  sizes : l.supporters.size = l.costs.size
  offer_le : ∀ f o, l.supporter f = some o → f ∈ o.add ∧ (l.offer kind o).value ≤ l.value f

theorem Backed.relax (h : l.Backed kind) (b : Bool) (o : Operator) : (Labels.relax kind (l, b) o).1.Backed kind where
  sizes := sizes_relax kind h.sizes o
  offer_le f x hx := by
    have hless : ((Labels.relax kind (l, b) o).1.offer kind x).value ≤ (l.offer kind x).value :=
      value_offer_mono fun g _ => value_relax_le kind (l, b) o g
    rw [supporter_relax_eq h.sizes] at hx
    rw [value_relax_eq]
    split at hx
    · rename_i hlow
      obtain rfl := Option.some.inj hx
      rw [if_pos hlow]
      exact ⟨hlow.1, hless⟩
    · rename_i hlow
      rw [if_neg hlow]
      exact (h.offer_le f x hx).imp_right hless.trans

theorem backed_start (kind : HeuristicKind) (n : Nat) (s : State) : (start n s).Backed kind where
  sizes := sizes_start n s
  offer_le f o ho := by
    rw [supporter_start] at ho
    cases ho

end Labels

namespace Relaxation

variable {r : Relaxation} {s t : State} {f : FactId} {o : Operator} {c c' : FactId → ℕ∞}

theorem labels_backed (r : Relaxation) (s : State) : (r.labels s).Backed r.kind :=
  Labels.settle_induct (I := Labels.Backed r.kind) (fun _ b o _ h => h.relax b o) _ (Labels.backed_start _ _ s)

/-- **A supporter adds its fact and still offers what it costs.** -/
theorem value_supported (h : (r.labels s).supporter f = some o) :
    f ∈ o.add ∧ (r.labels s).value f = ((r.labels s).offer r.kind o).value := by
  obtain ⟨hadd, hle⟩ := (r.labels_backed s).offer_le f o h
  have hlt : f < (r.labels s).costs.size := by
    rw [← (r.labels_backed s).sizes]
    by_contra hge
    rw [Labels.supporter, Array.getD_eq_getD_getElem?, Array.getElem?_eq_none (Nat.le_of_not_lt hge)] at h
    cases h
  exact ⟨hadd, le_antisymm (r.labels_met s o ((r.labels_wellSupported s).mem f o h) f hadd hlt) hle⟩

/-- A fact within reach holds in the state, or it has a supporter. -/
theorem exists_supporter (hf : (r.labels s).value f ≠ ⊤) (hs : s.contains f = false) :
    ∃ o ∈ r.operators, (r.labels s).supporter f = some o := by
  cases (r.labels_wellSupported s).grounded f hf with
  | holds hholds =>
    rw [hholds] at hs
    cases hs
  | @supported _ o ho => exact ⟨o, (r.labels_wellSupported s).mem f o ho, ho⟩

/-! ## One solution -/

/-- **The equations of the costs of all facts.** -/
def Solves (r : Relaxation) (s : State) (c : FactId → ℕ∞) : Prop :=
  ∀ f < r.numFacts, c f = if s.contains f = true then 0
    else ⨅ o ∈ r.operators, ⨅ _ : f ∈ o.add, 1 + r.kind.gather (o.pre.map c)

/-- Operators that ask for facts of the table only. -/
def InTable (r : Relaxation) : Prop :=
  ∀ o ∈ r.operators, ∀ g ∈ o.pre, g < r.numFacts

/-- A finite cost of one solution is no smaller in another: it is one more than costs that are smaller. -/
theorem Solves.le_of_eq (hr : r.InTable) (hc : r.Solves s c) (hc' : r.Solves s c') {n : Nat} (hf : f < r.numFacts)
    (hn : c f = n) : c' f ≤ n := by
  induction n using Nat.strongRecOn generalizing f with
  | ind n ih =>
    rw [hc' f hf]
    split
    · exact zero_le
    · rename_i hs
      have heq := hc f hf
      rw [if_neg hs, hn] at heq
      have hlt : (⨅ o ∈ r.operators, ⨅ _ : f ∈ o.add, 1 + r.kind.gather (o.pre.map c)) < (n : ℕ∞) + 1 := by
        rw [← heq]
        exact_mod_cast Nat.lt_succ_self n
      simp only [iInf_lt_iff] at hlt
      obtain ⟨o, ho, hadd, hlt⟩ := hlt
      rw [add_comm] at hlt
      have hless : r.kind.gather (o.pre.map c) < n := lt_of_add_lt_add_right hlt
      have hmono : r.kind.gather (o.pre.map c') ≤ r.kind.gather (o.pre.map c) := by
        refine HeuristicKind.gather_mono fun g hg => ?_
        have hg' : c g < n := (HeuristicKind.le_gather (List.mem_map_of_mem hg)).trans_lt hless
        obtain ⟨k, hk⟩ := ENat.ne_top_iff_exists.1 (ne_top_of_lt hg')
        rw [← hk] at hg'
        exact hk ▸ ih k (by exact_mod_cast hg') (hr o ho g hg) hk.symm
      calc (⨅ o ∈ r.operators, ⨅ _ : f ∈ o.add, 1 + r.kind.gather (o.pre.map c'))
          ≤ 1 + r.kind.gather (o.pre.map c') := iInf₂_le_of_le o ho (iInf_le _ hadd)
        _ ≤ 1 + r.kind.gather (o.pre.map c) := by gcongr
        _ ≤ n := by rw [add_comm]; exact Order.add_one_le_of_lt hless

/-- **The equations have one solution at most.** -/
theorem Solves.unique (hr : r.InTable) (hc : r.Solves s c) (hc' : r.Solves s c') : ∀ f < r.numFacts, c f = c' f := by
  have hle : ∀ {c c' : FactId → ℕ∞}, r.Solves s c → r.Solves s c' → ∀ f < r.numFacts, c' f ≤ c f := by
    intro c c' hc hc' f hf
    by_cases htop : c f = ⊤
    · exact htop ▸ le_top
    · obtain ⟨n, hn⟩ := ENat.ne_top_iff_exists.1 htop
      exact hn ▸ hc.le_of_eq hr hc' hf hn.symm
  exact fun f hf => le_antisymm (hle hc' hc f hf) (hle hc hc' f hf)

theorem value_lt_exactBound (hsmall : ∀ f n, (r.labels s).cost f = .finite n → n < Cost.exactBound)
    (hf : (r.labels s).value f ≠ ⊤) : (r.labels s).value f < Cost.exactBound := by
  obtain ⟨n, hn⟩ := Cost.exists_eq_finite hf
  rw [Labels.value, hn]
  exact Nat.cast_lt.2 (hsmall f n hn)

/-- **Settled costs below the bound solve the equations.** -/
theorem solves_labels (hsmall : ∀ f n, (r.labels s).cost f = .finite n → n < Cost.exactBound) :
    r.Solves s (r.labels s).value := by
  have hlt : ∀ f, (r.labels s).value f ≠ ⊤ → (r.labels s).value f < Cost.exactBound :=
    fun f => value_lt_exactBound hsmall
  intro f hf
  split
  · rename_i hs
    exact value_labels_of_contains hf hs
  · rename_i hs
    refine le_antisymm (le_iInf₂ fun o ho => le_iInf fun hadd => ?_) ?_
    · by_cases hall : ∀ g ∈ o.pre, (r.labels s).value g ≠ ⊤
      · have hmet := r.labels_met s o ho f hadd ((r.labels_from s).2.symm ▸ hf)
        have hfin : ((r.labels s).offer r.kind o).value ≠ ⊤ := Labels.value_offer_ne_top fun g hg =>
          (hlt g (hall g hg)).le.trans (Nat.cast_le.2 (by decide +kernel))
        exact Labels.le_of_le_offer (hlt f (ne_top_of_le_ne_top hfin hmet)) hmet
      · push Not at hall
        obtain ⟨g, hg, htop⟩ := hall
        have hgather : (r.labels s).value g ≤ r.kind.gather (o.pre.map (r.labels s).value) :=
          HeuristicKind.le_gather (List.mem_map_of_mem hg)
        rw [htop, top_le_iff] at hgather
        rw [hgather, add_top]
        exact le_top
    · by_cases htop : (r.labels s).value f = ⊤
      · exact htop ▸ le_top
      · obtain ⟨o, ho, hsupp⟩ := exists_supporter htop (Bool.eq_false_iff.2 hs)
        obtain ⟨hadd, heq⟩ := value_supported hsupp
        rw [heq, Labels.value_offer_eq (heq ▸ hlt f htop)]
        exact iInf₂_le_of_le o ho (iInf_le _ hadd)

end Relaxation

/-! ## Problems in another order -/

/-- The lists have the same members up to `R`, in any order and with any repetitions. -/
def SameUpTo {α : Type} (R : α → α → Prop) (xs ys : List α) : Prop :=
  (∀ x ∈ xs, ∃ y ∈ ys, R x y) ∧ ∀ y ∈ ys, ∃ x ∈ xs, R x y

theorem SameUpTo.symm {α : Type} {R : α → α → Prop} (hR : ∀ x y, R x y → R y x) {xs ys : List α}
    (h : SameUpTo R xs ys) : SameUpTo R ys xs := by
  refine ⟨fun y hy => ?_, fun x hx => ?_⟩
  · obtain ⟨x, hx, hxy⟩ := h.2 y hy
    exact ⟨x, hx, hR x y hxy⟩
  · obtain ⟨y, hy, hxy⟩ := h.1 x hx
    exact ⟨y, hy, hR x y hxy⟩

/-- The effects add the same facts under the same guard, negative literals and deletes aside. -/
def GuardedEffect.Rearranged (e e' : GuardedEffect) : Prop :=
  e.guard.positive = e'.guard.positive ∧ ∀ f, f ∈ e.effect.add ↔ f ∈ e'.effect.add

def Action.Rearranged (a a' : Action) : Prop :=
  a.precondition.positive = a'.precondition.positive ∧ SameUpTo GuardedEffect.Rearranged a.effects a'.effects

/-- **Problems that differ in the order and the repetitions of actions, effects and added facts.** -/
structure Problem.Rearranged (p q : Problem) : Prop where
  numFacts_eq : p.numFacts = q.numFacts
  goal_eq : p.goal.positive = q.goal.positive
  actions : SameUpTo Action.Rearranged p.actions q.actions

theorem GuardedEffect.Rearranged.symm {e e' : GuardedEffect} (h : e.Rearranged e') : e'.Rearranged e :=
  ⟨h.1.symm, fun f => (h.2 f).symm⟩

theorem Action.Rearranged.symm {a a' : Action} (h : a.Rearranged a') : a'.Rearranged a :=
  ⟨h.1.symm, h.2.symm fun _ _ => GuardedEffect.Rearranged.symm⟩

theorem Problem.Rearranged.symm {p q : Problem} (h : p.Rearranged q) : q.Rearranged p :=
  ⟨h.numFacts_eq.symm, h.goal_eq.symm, h.actions.symm fun _ _ => Action.Rearranged.symm⟩

namespace Relaxation

variable {d : Draft} {p q : Problem} {name : HeuristicName} {s t : State}

theorem noDearer_of_rearranged (h : p.Rearranged q) (name : HeuristicName) :
    NoDearer (ofProblem name p) (ofProblem name q) where
  numFacts_eq := h.numFacts_eq
  kind := .inl rfl
  covers o ho f hf := by
    obtain ⟨b, e', hb, he', -, heq⟩ := Operator.exists_of_mem_ofActions ho
    rw [heq] at hf ⊢
    obtain ⟨a, ha, hpre, heffects⟩ := h.actions.2 b (List.mem_of_getElem? hb)
    obtain ⟨e, he, hguard, hadd⟩ := heffects.2 e' he'
    obtain ⟨i, ho'⟩ := Operator.mem_ofActions ha he ((hadd f).2 hf)
    exact ⟨_, ho', by rw [hpre, hguard], (hadd f).2 hf⟩

theorem inTable_ofProblem (hp : p.InTable) (name : HeuristicName) : (ofProblem name p).InTable := by
  intro o ho g hg
  obtain ⟨a, e, ha, he, -, heq⟩ := Operator.exists_of_mem_ofActions ho
  rw [heq] at hg
  have hbelow := hp.actions a (List.mem_of_getElem? ha)
  rcases List.mem_append.1 (mem_ascending.1 hg) with hg | hg
  · exact hbelow.1.1 g hg
  · exact (hbelow.2 e he).1.1 g hg

/-- **The settled costs are the only solution of their equations**, as long as the finite ones are below the bound that
doubles count exactly.  The estimates by the maximum and by the sum do not depend on the order or the repetitions of
actions, effects and added facts, and where more facts hold they are no greater. -/
theorem labels_unique_solution (hb : d.build = .ok p) (name : HeuristicName) (s : State) :
    ((∀ f n, ((ofProblem name p).labels s).cost f = .finite n → n < Cost.exactBound) →
      (ofProblem name p).Solves s ((ofProblem name p).labels s).value ∧
      ∀ c, (ofProblem name p).Solves s c → ∀ f < p.numFacts, c f = ((ofProblem name p).labels s).value f) ∧
    (name.kind ≠ .fastForward →
      (∀ q, p.Rearranged q →
        (ofProblem name q).estimate s q.goal = (ofProblem name p).estimate s p.goal) ∧
      ∀ t, (∀ f, s.contains f = true → t.contains f = true) →
        ((ofProblem name p).estimate t p.goal).value ≤ ((ofProblem name p).estimate s p.goal).value) := by
  have hp := Draft.build_inTable hb
  refine ⟨fun hsmall => ?_, fun hk => ⟨fun q h => ?_, fun t hst => ?_⟩⟩
  · have hsolves := solves_labels hsmall
    exact ⟨hsolves, fun c hc => hc.unique (inTable_ofProblem hp name) hsolves⟩
  · have hsame : (ofProblem name q).estimate s q.goal = (ofProblem name q).estimate s p.goal := by
      unfold estimate
      rw [h.goal_eq]
    refine hsame.trans (Cost.value_injective (le_antisymm ?_ ?_))
    · exact (noDearer_of_rearranged h.symm name).value_estimate_le
        (fun g hg => (hp.goal.1 g hg).trans_eq h.numFacts_eq) hk fun _ hf => hf
    · exact (noDearer_of_rearranged h name).value_estimate_le hp.goal.1 hk fun _ hf => hf
  · exact (NoDearer.refl _).value_estimate_le hp.goal.1 hk hst

theorem lt_exactBound_of_all {r : Relaxation} (h : (r.labels s).costs.all (fun c => match c with
      | .finite n => n < Cost.exactBound
      | .infinite => true) = true) : ∀ f n, (r.labels s).cost f = .finite n → n < Cost.exactBound := by
  intro f n hn
  have hlt : f < (r.labels s).costs.size := Labels.lt_of_cost_ne_infinite (by rw [hn]; nofun)
  have hall := Array.all_eq_true.1 h f hlt
  rw [Labels.cost, Array.getD_eq_getD_getElem?, Array.getElem?_eq_getElem hlt, Option.getD_some] at hn
  rw [hn] at hall
  exact of_decide_eq_true hall

/-- The lamp rests on the power: whatever solves the equations, power costs one and light two. -/
theorem labels_unique_solution_lamp : ∃ p, Families.conditionalLamp.build = .ok p ∧
    ∀ c, (ofProblem .sum p).Solves p.init c → c 0 = 1 ∧ c 1 = 2 := by
  obtain ⟨p, hb, hp⟩ := Draft.exists_build (d := Families.conditionalLamp)
    (fun p => p.numFacts == 2 && (((ofProblem .sum p).labels p.init).cost 0 == .finite 1 &&
      (((ofProblem .sum p).labels p.init).cost 1 == .finite 2 &&
      ((ofProblem .sum p).labels p.init).costs.all (fun c => match c with
        | .finite n => n < Cost.exactBound
        | .infinite => true)))) (by decide +kernel)
  simp only [Bool.and_eq_true, beq_iff_eq] at hp
  obtain ⟨hn, hpower, hlight, hall⟩ := hp
  obtain ⟨-, honly⟩ := (labels_unique_solution hb .sum p.init).1 (lt_exactBound_of_all hall)
  refine ⟨p, hb, fun c hc => ⟨?_, ?_⟩⟩
  · rw [honly c hc 0 (by omega), Labels.value, hpower]
    rfl
  · rw [honly c hc 1 (by omega), Labels.value, hlight]
    rfl

end Relaxation
end GroundPlanner
