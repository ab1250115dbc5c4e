import GroundPlanner.Proofs.Relaxation.RelaxedPlan
/-!
# Putting supporters in order

A fact is `Grounded` if it holds in the state, or if its supporter adds it and asks for grounded facts only.  All facts
within reach are (`Relaxation.labels_wellSupported`), also where costs are so large that an operator offers no more than
its precondition costs: what it lowers cost more than that before, so nothing in the precondition rests on it.  The
operators of a relaxed plan can therefore be put in order (`WellSupported.exists_ordered`).
-/
namespace GroundPlanner

/-- **Each operator finds its precondition** in the state or among what earlier ones add; the latest stands first. -/
inductive Ordered (s : State) : List Operator → Prop where
  | nil : Ordered s []
  | cons {o : Operator} {os : List Operator} (hpre : ∀ g ∈ o.pre, s.contains g = true ∨ ∃ x ∈ os, g ∈ x.add)
    (h : Ordered s os) : Ordered s (o :: os)

namespace Labels

/-- **A fact that rests on the state**, by way of the supporters. -/
inductive Grounded (s : State) (l : Labels) : FactId → Prop where
  | holds {f : FactId} (hs : s.contains f = true) (hnone : l.supporter f = none) : Grounded s l f
  | supported {f : FactId} {o : Operator} (ho : l.supporter f = some o) (hadd : f ∈ o.add)
    (hpre : ∀ g ∈ o.pre, Grounded s l g) : Grounded s l f

/-- **Labels whose supporters are operators of `os`**, ask for nothing dearer than what they support, and ground all
that is within reach. -/
structure WellSupported (os : List Operator) (s : State) (l : Labels) : Prop where
  exact : l.Exact
  sizes : l.supporters.size = l.costs.size
  mem : ∀ f o, l.supporter f = some o → o ∈ os
  le : ∀ f o, l.supporter f = some o → ∀ g ∈ o.pre, l.value g ≤ l.value f
  grounded : ∀ f, l.value f ≠ ⊤ → l.Grounded s f

variable {kind : HeuristicKind} {s : State} {l : Labels} {os : List Operator} {o : Operator} {goal : List FactId}
  {f : FactId} {b : Bool}

/-- The operator offers the fact less than it costs. -/
def Lowers (kind : HeuristicKind) (l : Labels) (o : Operator) (f : FactId) : Prop :=
  f ∈ o.add ∧ f < l.costs.size ∧ (l.offer kind o).lt (l.cost f) = true

instance : Decidable (Lowers kind l o f) :=
  inferInstanceAs (Decidable (_ ∧ _ ∧ _))

theorem Lowers.lt (h : Lowers kind l o f) : (l.offer kind o).value < l.value f :=
  Cost.lt_iff.1 h.2.2

theorem supporter_relax_eq (hl : l.supporters.size = l.costs.size) (f : FactId) :
    (relax kind (l, b) o).1.supporter f = if Lowers kind l o f then some o else l.supporter f := by
  rw [relax_eq, (supporter_foldl_lower o _ o.add hl f).2]
  rfl

theorem value_relax_eq (f : FactId) : (relax kind (l, b) o).1.value f =
    if Lowers kind l o f then (l.offer kind o).value else l.value f := by
  unfold value
  rw [relax_eq, (cost_foldl_lower o _ o.add (l, b) f).2]
  exact apply_ite Cost.value (Lowers kind l o f) _ _

/-! ## Relaxing an operator -/

/-- What costs no more than the offer rests on nothing that is lowered. -/
theorem Grounded.within (hw : l.WellSupported os s) (h : l.Grounded s f) (hf : l.value f ≤ (l.offer kind o).value) :
    (relax kind (l, b) o).1.Grounded s f := by
  have hkept : ∀ g, l.value g ≤ (l.offer kind o).value → (relax kind (l, b) o).1.supporter g = l.supporter g := by
    intro g hg
    rw [supporter_relax_eq hw.sizes, if_neg fun hlow => absurd hlow.lt (not_lt.2 hg)]
  induction h with
  | holds hs hnone => exact .holds hs ((hkept _ hf).trans hnone)
  | supported ho hadd hpre ih =>
    exact .supported ((hkept _ hf).trans ho) hadd fun g hg => ih g hg ((hw.le _ _ ho g hg).trans hf)

theorem Lowers.grounded (hw : l.WellSupported os s) (hlow : Lowers kind l o f) :
    (relax kind (l, b) o).1.Grounded s f := by
  refine .supported (o := o) (by rw [supporter_relax_eq hw.sizes, if_pos hlow]) hlow.1 fun g hg => ?_
  have hle : l.value g ≤ (l.offer kind o).value := value_le_offer hw.exact hg
  exact (hw.grounded g (ne_top_of_le_ne_top (ne_top_of_lt hlow.lt) hle)).within hw hle

theorem Grounded.relax (hw : l.WellSupported os s) (h : l.Grounded s f) :
    (Labels.relax kind (l, b) o).1.Grounded s f := by
  induction h with
  | @holds f hs hnone =>
    by_cases hlow : Lowers kind l o f
    · exact hlow.grounded hw
    · exact .holds hs (by rw [supporter_relax_eq hw.sizes, if_neg hlow, hnone])
  | @supported f x hx hadd _ ih =>
    by_cases hlow : Lowers kind l o f
    · exact hlow.grounded hw
    · exact .supported (by rw [supporter_relax_eq hw.sizes, if_neg hlow, hx]) hadd ih

/-- **Relaxing an operator leaves labels well supported.** -/
theorem WellSupported.relax (hw : l.WellSupported os s) (b : Bool) (ho : o ∈ os) :
    (Labels.relax kind (l, b) o).1.WellSupported os s where
  exact := exact_relax kind hw.exact o
  sizes := sizes_relax kind hw.sizes o
  mem f x hx := by
    rw [supporter_relax_eq hw.sizes] at hx
    split at hx
    · exact Option.some.inj hx ▸ ho
    · exact hw.mem f x hx
  le f x hx g hg := by
    refine (value_relax_le kind (l, b) o g).trans ?_
    rw [supporter_relax_eq hw.sizes] at hx
    rw [value_relax_eq]
    split at hx
    · rename_i hlow
      obtain rfl := Option.some.inj hx
      rw [if_pos hlow]
      exact value_le_offer hw.exact hg
    · rename_i hlow
      rw [if_neg hlow]
      exact hw.le f x hx g hg
  grounded f hf := by
    rw [value_relax_eq] at hf
    split at hf
    · rename_i hlow
      exact hlow.grounded hw
    · exact (hw.grounded f hf).relax hw

theorem wellSupported_start (os : List Operator) (n : Nat) (s : State) : (start n s).WellSupported os s where
  exact := (start_from n s).exact
  sizes := sizes_start n s
  mem f o ho := by
    rw [supporter_start] at ho
    cases ho
  le f o ho := by
    rw [supporter_start] at ho
    cases ho
  grounded f hf := by
    rw [value_start] at hf
    split at hf
    · rename_i hs
      exact .holds hs.2 (supporter_start n s f)
    · exact absurd rfl hf

/-! ## An order -/

/-- All that is needed for a goal within reach is within reach. -/
theorem WellSupported.needed (hw : l.WellSupported os s) (hgoal : ∀ g ∈ goal, l.value g ≠ ⊤) (h : Needed l goal f) :
    l.value f ≠ ⊤ := by
  induction h with
  | goal hf => exact hgoal _ hf
  | pre _ ho hg ih => exact ne_top_of_le_ne_top ih (hw.le _ _ ho _ hg)

theorem lt_of_value_ne_top (h : l.value f ≠ ⊤) : f < l.costs.size :=
  lt_of_cost_ne_infinite fun hinf => h (congrArg Cost.value hinf)

/-- As long as a supporter is missing, some missing supporter can go next. -/
theorem Grounded.exists_next {done : List Operator} (h : l.Grounded s f) (hf : Needed l goal f)
    (ho : l.supporter f = some o) (hout : o ∉ done) : ∃ g x, Needed l goal g ∧ l.supporter g = some x ∧ x ∉ done ∧
      ∀ g' ∈ x.pre, s.contains g' = true ∨ ∃ y ∈ done, g' ∈ y.add := by
  induction h generalizing o with
  | holds _ hnone =>
    rw [hnone] at ho
    cases ho
  | @supported f x hx hadd hpre ih =>
    obtain rfl := Option.some.inj (hx.symm.trans ho)
    by_cases hall : ∀ g ∈ x.pre, s.contains g = true ∨ ∃ y ∈ done, g ∈ y.add
    · exact ⟨f, x, hf, ho, hout, hall⟩
    · push Not at hall
      obtain ⟨g, hg, hs, hnot⟩ := hall
      cases hpre g hg with
      | holds hholds _ => exact absurd hholds hs
      | supported hy hadd' _ => exact ih g hg (.pre hf ho hg) hy fun hin => hnot _ hin hadd'

/-- **The supporters of all that a goal needs can be put in order**, and cover the goal together with the state. -/
theorem WellSupported.exists_ordered (hw : l.WellSupported os s) (hgoal : ∀ g ∈ goal, l.value g ≠ ⊤)
    {xs : List Operator} (hxs : ∀ o, o ∈ xs ↔ ∃ f, Needed l goal f ∧ l.supporter f = some o) :
    ∃ ys : List Operator, ys.Nodup ∧ (∀ o, o ∈ ys ↔ o ∈ xs) ∧ Ordered s ys ∧
      ∀ g ∈ goal, s.contains g = true ∨ ∃ o ∈ ys, g ∈ o.add := by
  -- Orders of some of them can be extended until nothing is missing.
  have hsome : ∀ n ≤ xs.toFinset.card, ∃ ys : List Operator, ys.length = n ∧ ys.Nodup ∧ (∀ o ∈ ys, o ∈ xs) ∧
      Ordered s ys := by
    intro n hn
    induction n with
    | zero => exact ⟨[], rfl, List.nodup_nil, fun _ ho => absurd ho List.not_mem_nil, .nil⟩
    | succ n ih =>
      obtain ⟨ys, hlen, hnodup, hsub, hord⟩ := ih (Nat.le_of_succ_le hn)
      obtain ⟨o, ho, hout⟩ : ∃ o ∈ xs, o ∉ ys := by
        by_contra hall
        push Not at hall
        have hcard := Finset.card_le_card fun o ho => List.mem_toFinset.2 (hall o (List.mem_toFinset.1 ho))
        rw [List.toFinset_card_of_nodup hnodup] at hcard
        omega
      obtain ⟨f, hf, hsupp⟩ := (hxs o).1 ho
      obtain ⟨g, x, hg, hx, hout, hpre⟩ := (hw.grounded f (hw.needed hgoal hf)).exists_next hf hsupp hout
      refine ⟨x :: ys, congrArg (· + 1) hlen, List.nodup_cons.2 ⟨hout, hnodup⟩, fun y hy => ?_, .cons hpre hord⟩
      rcases List.mem_cons.1 hy with rfl | hy
      · exact (hxs y).2 ⟨g, hg, hx⟩
      · exact hsub y hy
  obtain ⟨ys, hlen, hnodup, hsub, hord⟩ := hsome _ le_rfl
  have heq : ys.toFinset = xs.toFinset := by
    refine Finset.eq_of_subset_of_card_le (fun o ho => List.mem_toFinset.2 (hsub o (List.mem_toFinset.1 ho))) ?_
    rw [List.toFinset_card_of_nodup hnodup, hlen]
  have hmem : ∀ o, o ∈ ys ↔ o ∈ xs := fun o => by rw [← List.mem_toFinset, heq, List.mem_toFinset]
  refine ⟨ys, hnodup, hmem, hord, fun g hg => ?_⟩
  cases hw.grounded g (hgoal g hg) with
  | holds hs _ => exact .inl hs
  | supported ho hadd _ => exact .inr ⟨_, (hmem _).2 ((hxs _).2 ⟨g, .goal hg, ho⟩), hadd⟩

end Labels

namespace Relaxation

variable {r : Relaxation} {s : State} {goal : List FactId}

theorem labels_wellSupported (r : Relaxation) (s : State) : (r.labels s).WellSupported r.operators s :=
  Labels.settle_induct (I := Labels.WellSupported r.operators s) (fun _ b _ ho h => h.relax b ho) _
    (Labels.wellSupported_start _ _ s)

/-- **The operators of a relaxed plan**, put in order. -/
theorem exists_ordered_relaxedPlan (hgoal : ∀ g ∈ goal, (r.labels s).value g ≠ ⊤) :
    ∃ os : List Operator, os.Nodup ∧ (∀ o, o ∈ os ↔ o ∈ r.relaxedPlan (r.labels s) goal) ∧
      (∀ o ∈ os, o ∈ r.operators) ∧ Ordered s os ∧ ∀ g ∈ goal, s.contains g = true ∨ ∃ o ∈ os, g ∈ o.add := by
  have hw := r.labels_wellSupported s
  have hsize := (r.labels_from s).2
  have hplan : ∀ o, o ∈ r.relaxedPlan (r.labels s) goal ↔ ∃ f, Needed (r.labels s) goal f ∧
      (r.labels s).supporter f = some o := fun o => mem_relaxedPlan (hw.sizes.trans hsize)
    fun f hf => hsize ▸ Labels.lt_of_value_ne_top (hw.needed hgoal hf)
  obtain ⟨os, hnodup, hmem, hord, hcover⟩ := hw.exists_ordered hgoal hplan
  refine ⟨os, hnodup, hmem, fun o ho => ?_, hord, hcover⟩
  obtain ⟨f, -, hsupp⟩ := (hplan o).1 ((hmem o).1 ho)
  exact hw.mem f o hsupp

end Relaxation
end GroundPlanner
