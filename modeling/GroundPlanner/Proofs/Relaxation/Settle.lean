import GroundPlanner.Proofs.Relaxation.Labels
import Mathlib.Data.Finset.Card
import Mathlib.Data.Finset.Range
/-!
# When the passes are done

After `k` passes, an operator whose offer is not met yet has at least `k` facts within its offer that do not hold in
the state (`Ranked`).  A pass raises that number by one for every operator (`ranked_pass`): lowering an offer takes an
unmet operator below it, whose newly lowered fact counts on top of those within its own offer.  So there are no more
passes than facts that change anything, and at the end every offer is met (`met_settle`).
-/
namespace GroundPlanner
namespace Labels

variable {kind : HeuristicKind} {s : State} {l l' : Labels} {o o' : Operator} {k : Nat}

/-- The facts that an operator adds cost no more than it offers. -/
def Met (kind : HeuristicKind) (l : Labels) (o : Operator) : Prop :=
  ∀ f ∈ o.add, f < l.costs.size → l.value f ≤ (l.offer kind o).value

/-- Costs from a state: rounded, and nothing for what holds. -/
structure From (s : State) (l : Labels) : Prop where
  exact : l.Exact
  free : ∀ f < l.costs.size, s.contains f = true → l.value f = 0

theorem From.relax (h : l.From s) (b : Bool) (o : Operator) : (relax kind (l, b) o).1.From s where
  exact := exact_relax kind h.exact o
  free f hf hs := by
    rw [size_relax] at hf
    exact le_antisymm ((value_relax_le kind (l, b) o f).trans_eq (h.free f hf hs)) zero_le

/-- What costs more than something does not hold. -/
theorem From.not_contains (h : l.From s) {f : FactId} (hf : f < l.costs.size) {x : ℕ∞} (hx : x < l.value f) :
    s.contains f = false := by
  rw [← Bool.not_eq_true]
  intro hs
  rw [h.free f hf hs] at hx
  exact absurd hx (not_lt.2 zero_le)

open Classical in
/-- The facts that do not hold in the state and cost at most `x`. -/
noncomputable def within (s : State) (l : Labels) (x : ℕ∞) : Finset FactId :=
  (Finset.range l.costs.size).filter (fun f => s.contains f = false ∧ l.value f ≤ x)

theorem mem_within {x : ℕ∞} {f : FactId} :
    f ∈ within s l x ↔ f < l.costs.size ∧ s.contains f = false ∧ l.value f ≤ x := by
  unfold within
  rw [Finset.mem_filter, Finset.mem_range]

/-- If the operator's offer is not met, at least `k` facts that do not hold are within it. -/
def Ranked (kind : HeuristicKind) (s : State) (l : Labels) (k : Nat) (o : Operator) : Prop :=
  ¬ l.Met kind o → k ≤ (within s l (l.offer kind o).value).card

theorem within_subset {x y : ℕ∞} (hsize : l'.costs.size = l.costs.size) (hle : ∀ f, l'.value f ≤ l.value f)
    (hxy : x ≤ y) : within s l x ⊆ within s l' y := by
  intro f hf
  obtain ⟨hlt, hs, hx⟩ := mem_within.1 hf
  exact mem_within.2 ⟨hsize ▸ hlt, hs, (hle f).trans (hx.trans hxy)⟩

/-- **An offer that is lowered by relaxing an operator has one more fact within it than that operator had.** -/
theorem lt_card_within (h : l.From s) {b : Bool} (hr : Ranked kind s l k o)
    (hlow : ((relax kind (l, b) o).1.offer kind o').value < (l.offer kind o').value) :
    k + 1 ≤ (within s (relax kind (l, b) o).1 ((relax kind (l, b) o).1.offer kind o').value).card := by
  have hfrom : (relax kind (l, b) o).1.From s := h.relax b o
  obtain ⟨g, hg, hlt⟩ : ∃ g ∈ o'.pre, (relax kind (l, b) o).1.value g < l.value g := by
    by_contra hnone
    push Not at hnone
    exact absurd hlow (not_lt.2 (value_offer_mono hnone))
  have hval := value_relax kind (l, b) o g
  have hadd : g ∈ o.add ∧ g < l.costs.size := by
    by_contra hno
    rw [if_neg hno] at hval
    exact absurd hlt (hval ▸ lt_irrefl _)
  rw [if_pos hadd] at hval
  have hoff : (l.offer kind o).value < l.value g := by
    rcases min_choice (l.offer kind o).value (l.value g) with hmin | hmin
    · rw [← hmin, ← hval]
      exact hlt
    · exact absurd (hval.trans hmin ▸ hlt) (lt_irrefl _)
  have heq : (relax kind (l, b) o).1.value g = (l.offer kind o).value := hval.trans (min_eq_left hoff.le)
  have hnot : s.contains g = false := h.not_contains hadd.2 hoff
  have hunmet : ¬ l.Met kind o := fun hm => absurd (hm g hadd.1 hadd.2) (not_le.2 hoff)
  have hwithin : (l.offer kind o).value ≤ ((relax kind (l, b) o).1.offer kind o').value :=
    heq ▸ value_le_offer hfrom.exact hg
  have hsub := within_subset (s := s) (size_relax kind (l, b) o) (value_relax_le kind (l, b) o) hwithin
  have hold : g ∉ within s l (l.offer kind o).value := fun hm => absurd (mem_within.1 hm).2.2 (not_le.2 hoff)
  have hnew : g ∈ within s (relax kind (l, b) o).1 ((relax kind (l, b) o).1.offer kind o').value :=
    mem_within.2 ⟨(size_relax kind (l, b) o).symm ▸ hadd.2, hnot, heq ▸ hwithin⟩
  have hcard := Finset.card_lt_card (Finset.ssubset_iff_of_subset hsub |>.2 ⟨g, hnew, hold⟩)
  exact Nat.lt_of_le_of_lt (hr hunmet) hcard

/-- Relaxing an operator leaves every other one ranked as before. -/
theorem ranked_relax (h : l.From s) {b : Bool} (hr : Ranked kind s l k o) {j : Nat} (hj : j ≤ k + 1)
    (hr' : Ranked kind s l j o') : Ranked kind s (relax kind (l, b) o).1 j o' := by
  intro hunmet
  have hle := value_relax_le kind (l, b) o
  rcases lt_or_eq_of_le (value_offer_mono (fun f _ => hle f) :
    ((relax kind (l, b) o).1.offer kind o').value ≤ (l.offer kind o').value) with hlow | heq
  · exact hj.trans (lt_card_within h hr hlow)
  · have hunmet' : ¬ l.Met kind o' := fun hm => hunmet (fun f hf hlt => by
      rw [heq]
      exact (hle f).trans (hm f hf (size_relax kind (l, b) o ▸ hlt)))
    exact (hr' hunmet').trans (Finset.card_le_card (within_subset (size_relax kind (l, b) o) hle heq.ge))

theorem ranked_relax_self (h : l.From s) {b : Bool} (hr : Ranked kind s l k o) :
    Ranked kind s (relax kind (l, b) o).1 (k + 1) o := by
  intro hunmet
  have hle := value_relax_le kind (l, b) o
  rcases lt_or_eq_of_le (value_offer_mono (fun f _ => hle f) :
    ((relax kind (l, b) o).1.offer kind o).value ≤ (l.offer kind o).value) with hlow | heq
  · exact lt_card_within h hr hlow
  · refine absurd (fun f hf hlt => ?_) hunmet
    rw [heq, value_relax, if_pos ⟨hf, size_relax kind (l, b) o ▸ hlt⟩]
    exact min_le_left _ _

/-! ## Passes -/

theorem From.foldl (h : l.From s) (b : Bool) (os : List Operator) : (os.foldl (Labels.relax kind) (l, b)).1.From s :=
  List.foldlRecOn (motive := fun p : Labels × Bool => p.1.From s) os _ h (fun p hp o _ => hp.relax p.2 o)

theorem size_foldl_relax (kind : HeuristicKind) (os : List Operator) (p : Labels × Bool) :
    (os.foldl (relax kind) p).1.costs.size = p.1.costs.size :=
  List.foldlRecOn (motive := fun q : Labels × Bool => q.1.costs.size = p.1.costs.size) os _ rfl
    (fun q hq o _ => (size_relax kind q o).trans hq)

/-- **A pass raises the rank of every operator by one.** -/
theorem ranked_foldl {os : List Operator} (todo : List Operator) {b : Bool} (hsub : ∀ o ∈ todo, o ∈ os) (h : l.From s)
    (hall : ∀ o ∈ os, Ranked kind s l k o) (hrest : ∀ o ∈ os, o ∉ todo → Ranked kind s l (k + 1) o) :
    ∀ o ∈ os, Ranked kind s (todo.foldl (relax kind) (l, b)).1 (k + 1) o := by
  induction todo generalizing l b with
  | nil => exact fun o ho => hrest o ho (List.not_mem_nil)
  | cons o todo ih =>
    have ho := hall o (hsub o List.mem_cons_self)
    have hself := ranked_relax_self h (b := b) ho
    rw [List.foldl_cons]
    refine ih (fun o' ho' => hsub o' (List.mem_cons_of_mem o ho')) (h.relax b o)
      (fun o' ho' => ranked_relax h ho (Nat.le_succ k) (hall o' ho')) (fun o' ho' hout => ?_)
    by_cases heq : o' = o
    · exact heq ▸ hself
    · exact ranked_relax h ho le_rfl (hrest o' ho' (fun hm => (List.mem_cons.1 hm).elim heq hout))

theorem ranked_pass {os : List Operator} (h : l.From s) (hall : ∀ o ∈ os, Ranked kind s l k o) :
    ∀ o ∈ os, Ranked kind s (pass kind os l).1 (k + 1) o :=
  ranked_foldl os (fun _ ho => ho) h hall (fun _ ho hout => absurd ho hout)

theorem foldl_lower_false {c : Cost} {fs : List FactId} {p : Labels × Bool} (h : (fs.foldl (lower o c) p).2 = false) :
    fs.foldl (lower o c) p = p ∧ ∀ f ∈ fs, c.lt (p.1.cost f) = false := by
  induction fs generalizing p with
  | nil => exact ⟨rfl, fun _ hf => by cases hf⟩
  | cons f fs ih =>
    obtain ⟨heq, hnot⟩ := ih h
    rw [List.foldl_cons, heq] at h
    have hf : ¬ c.lt (p.1.cost f) = true := by
      intro hlt
      rw [lower, if_pos hlt] at h
      cases h
    have hlower : lower o c p f = p := if_neg hf
    rw [hlower] at heq hnot
    refine ⟨by rw [List.foldl_cons, hlower, heq], fun g hg => ?_⟩
    rcases List.mem_cons.1 hg with rfl | hg
    · exact Bool.not_eq_true _ ▸ hf
    · exact hnot g hg

theorem relax_false {p : Labels × Bool} (h : (relax kind p o).2 = false) : relax kind p o = p ∧ p.1.Met kind o := by
  rw [relax_eq] at h ⊢
  obtain ⟨heq, hnot⟩ := foldl_lower_false h
  refine ⟨heq, fun f hf _ => not_lt.1 (fun hlt => ?_)⟩
  have hlt : (p.1.offer kind o).lt (p.1.cost f) = true := Cost.lt_iff.2 hlt
  rw [hnot f hf] at hlt
  cases hlt

/-- **A pass that changes nothing finds every offer met.** -/
theorem foldl_relax_false {os : List Operator} {p : Labels × Bool} (h : (os.foldl (relax kind) p).2 = false) :
    os.foldl (relax kind) p = p ∧ ∀ o ∈ os, p.1.Met kind o := by
  induction os generalizing p with
  | nil => exact ⟨rfl, fun _ ho => by cases ho⟩
  | cons o os ih =>
    obtain ⟨heq, hmet⟩ := ih h
    rw [List.foldl_cons, heq] at h
    obtain ⟨hrelax, ho⟩ := relax_false h
    rw [hrelax] at heq hmet
    refine ⟨by rw [List.foldl_cons, hrelax, heq], fun o' ho' => ?_⟩
    rcases List.mem_cons.1 ho' with rfl | ho'
    · exact ho
    · exact hmet o' ho'

theorem pass_false {os : List Operator} (h : pass kind os l = (l', false)) : l' = l ∧ ∀ o ∈ os, l.Met kind o := by
  obtain ⟨hstay, hmet⟩ := foldl_relax_false (p := (l, false)) (congrArg Prod.snd h)
  exact ⟨congrArg Prod.fst (h.symm.trans hstay), hmet⟩

theorem relax_eq_of_met {p : Labels × Bool} (hadd : ∀ f ∈ o.add, f < p.1.costs.size) (h : p.1.Met kind o) :
    relax kind p o = p := by
  rw [relax_eq]
  refine List.foldlRecOn (motive := (· = p)) o.add _ rfl fun q hq f hf => ?_
  have hnot : ¬ (p.1.offer kind o).lt (p.1.cost f) = true :=
    fun hlt => not_lt.2 (h f hf (hadd f hf)) (Cost.lt_iff.1 hlt)
  rw [hq, lower, if_neg hnot]

/-- A pass that finds every offer met changes nothing, and says so. -/
theorem pass_of_met {os : List Operator} (hadd : ∀ o ∈ os, ∀ f ∈ o.add, f < l.costs.size)
    (h : ∀ o ∈ os, l.Met kind o) : pass kind os l = (l, false) := by
  refine List.foldlRecOn (motive := (· = (l, false))) os _ rfl fun p hp o ho => ?_
  rw [hp]
  exact relax_eq_of_met (hadd o ho) (h o ho)

/-! ## All passes -/

theorem settle_induct {os : List Operator} {I : Labels → Prop}
    (hrelax : ∀ l b, ∀ o ∈ os, I l → I (relax kind (l, b) o).1) (n : Nat) (h : I l) : I (settle kind os n l) := by
  induction n generalizing l with
  | zero => exact h
  | succ n ih =>
    have hpass : I (pass kind os l).1 :=
      List.foldlRecOn (motive := fun p : Labels × Bool => I p.1) os _ h (fun p hp o ho => hrelax p.1 p.2 o ho hp)
    unfold settle
    split
    · rename_i heq
      rw [heq] at hpass
      exact ih hpass
    · rename_i heq
      rw [heq] at hpass
      exact hpass

theorem card_within_lt (h : ¬ l.Met kind o) : (within s l (l.offer kind o).value).card < l.costs.size := by
  unfold Met at h
  push Not at h
  obtain ⟨f, -, hlt, hoff⟩ := h
  have hsub : within s l (l.offer kind o).value ⊂ Finset.range l.costs.size := by
    refine (Finset.ssubset_iff_of_subset ?_).2 ⟨f, Finset.mem_range.2 hlt, ?_⟩
    · exact fun g hg => Finset.mem_range.2 (mem_within.1 hg).1
    · exact fun hf => absurd (mem_within.1 hf).2.2 (not_le.2 hoff)
  exact (Finset.card_lt_card hsub).trans_eq (Finset.card_range _)

theorem met_of_ranked (h : Ranked kind s l k o) (hk : l.costs.size ≤ k) : l.Met kind o := by
  by_contra hunmet
  exact absurd ((h hunmet).trans_lt (card_within_lt hunmet)) (Nat.not_lt.2 hk)

/-- **After as many passes as there are facts every offer is met.** -/
theorem met_settle {os : List Operator} (n : Nat) (h : l.From s) (hall : ∀ o ∈ os, Ranked kind s l k o)
    (hsize : l.costs.size ≤ k + n) : ∀ o ∈ os, (settle kind os n l).Met kind o := by
  induction n generalizing l k with
  | zero => exact fun o ho => met_of_ranked (hall o ho) hsize
  | succ n ih =>
    have hnext := ranked_pass h hall
    have hfrom : (pass kind os l).1.From s := h.foldl false os
    have hsame : (pass kind os l).1.costs.size = l.costs.size := size_foldl_relax kind os _
    unfold settle
    split
    · rename_i heq
      rw [heq] at hnext hfrom hsame
      refine ih hfrom hnext ?_
      rw [hsame]
      omega
    · rename_i heq
      obtain ⟨rfl, hmet⟩ := pass_false heq
      exact hmet

end Labels
end GroundPlanner
