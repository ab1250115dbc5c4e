import GroundPlanner.Proofs.Checked.State
import GroundPlanner.Proofs.Relaxation.Equations
import GroundPlanner.Proofs.Renaming.Labels
/-!
# Labels within their arrays

Labels as they are kept: two arrays with an entry for each fact, one for its cost and one for the place of its supporter
among the operators (`PlacedLabels`).  Every entry is looked up before it is read or replaced, and there is no result
if it is missing.  As long as the operators are about facts of the table, none is, and the placed labels tell the same
as the labels (`PlacedLabels.Tells`): after relaxing an operator, after a pass, and when the passes are done, of which
the last changes nothing (`Relaxation.labels?_eq_some`).
-/
namespace GroundPlanner

/-- The array with one entry replaced, if it has that entry. -/
def store? {α : Type} (xs : Array α) (i : Nat) (x : α) : Option (Array α) :=
  if i < xs.size then some (xs.setIfInBounds i x) else none

theorem store?_eq_some {α : Type} {xs : Array α} {i : Nat} (h : i < xs.size) (x : α) :
    store? xs i x = some (xs.setIfInBounds i x) :=
  if_pos h

/-- An operator that asks for and adds facts below a bound. -/
def Operator.Within (n : Nat) (o : Operator) : Prop :=
  (∀ f ∈ o.pre, f < n) ∧ ∀ f ∈ o.add, f < n

theorem Relaxation.within_of_mem {p : Problem} (hp : p.InTable) {name : HeuristicName} {o : Operator}
    (ho : o ∈ (ofProblem name p).operators) : o.Within p.numFacts :=
  ⟨inTable_ofProblem hp name o ho, (Operator.of_mem_ofActions hp ho).1⟩

/-- Costs of the facts, and for each fact the place of the operator that last lowered its cost. -/
structure PlacedLabels where
  costs : Array Cost
  supporters : Array (Option Nat)

namespace PlacedLabels

def start (numFacts : Nat) (s : State) : PlacedLabels where
  costs := (Labels.start numFacts s).costs
  supporters := Array.replicate numFacts none

/-- The cost of several facts together. -/
def total? (kind : HeuristicKind) (x : PlacedLabels) (fs : List FactId) : Option Cost :=
  fs.foldlM (fun c f => x.costs[f]?.map (kind.combine c)) .zero

def lower? (i : Nat) (reached : Cost) (x : PlacedLabels × Bool) (f : FactId) : Option (PlacedLabels × Bool) := do
  let known ← x.1.costs[f]?
  if reached.lt known then
    let costs ← store? x.1.costs f reached
    let supporters ← store? x.1.supporters f (some i)
    return (⟨costs, supporters⟩, true)
  else return x

/-- Offers the added facts of an operator, given with its place, one more than the cost of its precondition. -/
def relax? (kind : HeuristicKind) (x : PlacedLabels × Bool) (o : Operator × Nat) : Option (PlacedLabels × Bool) := do
  let reached ← x.1.total? kind o.1.pre
  if reached.isFinite then o.1.add.foldlM (lower? o.2 reached.succ) x else return x

def pass? (kind : HeuristicKind) (os : List Operator) (x : PlacedLabels) : Option (PlacedLabels × Bool) :=
  os.zipIdx.foldlM (relax? kind) (x, false)

/-- Passes until nothing changes; there is no result if that takes more than `n`. -/
def settle? (kind : HeuristicKind) (os : List Operator) : Nat → PlacedLabels → Option PlacedLabels
  | 0, _ => none
  | n + 1, x => do
    let (x, changed) ← pass? kind os x
    if changed then settle? kind os n x else return x

/-- **Placed labels that tell the same as labels**, for a table of `n` facts. -/
structure Tells (n : Nat) (os : List Operator) (x : PlacedLabels) (l : Labels) : Prop where
  costs_eq : x.costs = l.costs
  supporters_eq : x.supporters.map (fun i => i.bind (os[·]?)) = l.supporters
  place_lt : ∀ i, some i ∈ x.supporters → i < os.length
  size_eq : x.costs.size = n
  size_eq' : x.supporters.size = n

/-- The same with the record of a change. -/
def Agrees (n : Nat) (os : List Operator) (x : PlacedLabels × Bool) (p : Labels × Bool) : Prop :=
  Tells n os x.1 p.1 ∧ x.2 = p.2

variable {n : Nat} {os : List Operator} {x : PlacedLabels} {l : Labels} {kind : HeuristicKind} {s : State}
  {f : FactId} {o : Operator}

theorem tells_start (n : Nat) (os : List Operator) (s : State) : Tells n os (start n s) (.start n s) where
  costs_eq := rfl
  supporters_eq := Array.map_replicate
  place_lt i hi := by cases (Array.mem_replicate.1 hi).2
  size_eq := Labels.size_start n s
  size_eq' := Array.size_replicate

theorem Tells.cost?_eq_some (h : Tells n os x l) (hf : f < n) : x.costs[f]? = some (l.cost f) := by
  have hlt : f < l.costs.size := by rwa [← h.costs_eq, h.size_eq]
  rw [h.costs_eq, Labels.cost, Array.getD_eq_getD_getElem?, Array.getElem?_eq_getElem hlt, Option.getD_some]

theorem Tells.total?_eq_some (h : Tells n os x l) {fs : List FactId} (hfs : ∀ f ∈ fs, f < n) :
    x.total? kind fs = some (l.total kind fs) := by
  rw [Labels.total_eq]
  refine foldlM_eq_some (P := fun _ => True) (fun c _ f hf => ⟨?_, trivial⟩) trivial
  rw [h.cost?_eq_some (hfs f hf), Option.map_some]

/-- Lowering the cost of a fact in both. -/
theorem Tells.lower (h : Tells n os x l) {i : Nat} (ho : os[i]? = some o) (f : FactId) (c : Cost) :
    Tells n os ⟨x.costs.setIfInBounds f c, x.supporters.setIfInBounds f (some i)⟩
      ⟨l.costs.setIfInBounds f c, l.supporters.setIfInBounds f (some o)⟩ where
  costs_eq := by rw [h.costs_eq]
  supporters_eq := by rw [Array.map_setIfInBounds, h.supporters_eq, Option.bind_some, ho]
  place_lt j hj := by
    rcases Array.mem_or_eq_of_mem_setIfInBounds hj with hj | hj
    · exact h.place_lt j hj
    · cases hj
      exact (List.getElem?_eq_some_iff.1 ho).1
  size_eq := Array.size_setIfInBounds.trans h.size_eq
  size_eq' := Array.size_setIfInBounds.trans h.size_eq'

theorem Agrees.lower? {y : PlacedLabels × Bool} {p : Labels × Bool} (h : Agrees n os y p) {i : Nat}
    (ho : os[i]? = some o) (c : Cost) (hf : f < n) :
    ∃ y', lower? i c y f = some y' ∧ Agrees n os y' (Labels.lower o c p f) := by
  have hknown := h.1.cost?_eq_some hf
  unfold PlacedLabels.lower? Labels.lower
  simp only [hknown, Option.bind_eq_bind, Option.bind_some]
  split
  · rw [store?_eq_some (h.1.size_eq.symm ▸ hf), store?_eq_some (h.1.size_eq'.symm ▸ hf)]
    exact ⟨_, rfl, h.1.lower ho f c, rfl⟩
  · exact ⟨y, rfl, h⟩

theorem Agrees.relax? {y : PlacedLabels × Bool} {p : Labels × Bool} (h : Agrees n os y p) {i : Nat}
    (ho : os[i]? = some o) (hn : o.Within n) :
    ∃ y', relax? kind y (o, i) = some y' ∧ Agrees n os y' (Labels.relax kind p o) := by
  unfold PlacedLabels.relax? Labels.relax
  simp only [h.1.total?_eq_some hn.1, Option.bind_eq_bind, Option.bind_some]
  cases p.1.total kind o.pre with
  | infinite => exact ⟨y, rfl, h⟩
  | finite c => exact foldlM_related (fun y p h f hf => h.lower? ho _ (hn.2 f hf)) h

theorem Tells.pass? (kind : HeuristicKind) (h : Tells n os x l) (hos : ∀ o ∈ os, o.Within n) :
    ∃ y, pass? kind os x = some y ∧ Agrees n os y (Labels.pass kind os l) := by
  have hpass : Labels.pass kind os l = os.zipIdx.foldl (fun p o => Labels.relax kind p o.1) (l, false) := by
    conv_lhs => rw [Labels.pass, ← List.zipIdx_map_fst 0 os, List.foldl_map]
  rw [hpass]
  refine foldlM_related (R := Agrees n os) (fun y p h o ho => ?_) ⟨h, rfl⟩
  have ho := List.mem_zipIdx_iff_getElem?.1 ho
  exact h.relax? ho (hos _ (List.mem_of_getElem? ho))

/-! ## All passes -/

variable {k : Nat}

/-- A pass on both; the others are made only if it changes something. -/
theorem Tells.settle?_succ {m : Nat} (h : Tells n os x l) (hos : ∀ o ∈ os, o.Within n)
    (hmore : (Labels.pass kind os l).2 = true → ∀ y, Tells n os y (Labels.pass kind os l).1 →
      ∃ z, PlacedLabels.settle? kind os m y = some z ∧
        Tells n os z (Labels.settle kind os m (Labels.pass kind os l).1)) :
    ∃ z, PlacedLabels.settle? kind os (m + 1) x = some z ∧ Tells n os z (Labels.settle kind os (m + 1) l) := by
  obtain ⟨⟨y, changed⟩, hy, htells, hchanged⟩ := h.pass? kind hos
  unfold PlacedLabels.settle? Labels.settle
  simp only [hy, Option.bind_eq_bind, Option.bind_some]
  generalize Labels.pass kind os l = p at htells hchanged hmore
  obtain ⟨l', changed'⟩ := p
  obtain rfl : changed = changed' := hchanged
  cases changed with
  | true => exact hmore rfl y htells
  | false => exact ⟨y, rfl, htells⟩

/-- **Passes come to an end within the arrays.** -/
theorem Tells.settle?_eq_some (hos : ∀ o ∈ os, o.Within n) (m : Nat) (h : Tells n os x l) (hl : l.From s)
    (hall : ∀ o ∈ os, Labels.Ranked kind s l k o) (hm : n ≤ k + m) :
    ∃ y, settle? kind os (m + 1) x = some y ∧ Tells n os y (Labels.settle kind os (m + 1) l) := by
  induction m generalizing x l k with
  | zero =>
    -- As many passes were made as there are facts, so the next one finds every offer met.
    refine h.settle?_succ hos fun hchanged => ?_
    have hsize : l.costs.size = n := by rw [← h.costs_eq, h.size_eq]
    have hmet : ∀ o ∈ os, l.Met kind o := fun o ho => Labels.met_of_ranked (hall o ho) (hsize ▸ hm)
    rw [Labels.pass_of_met (fun o ho => hsize ▸ (hos o ho).2) hmet] at hchanged
    cases hchanged
  | succ m ih =>
    exact h.settle?_succ hos fun _ y hy => ih hy (hl.foldl false os) (Labels.ranked_pass hl hall) (by omega)

end PlacedLabels

namespace Relaxation

variable {r : Relaxation}

/-- The settled costs of all facts from a state, and the places of their supporters. -/
def labels? (r : Relaxation) (s : State) : Option PlacedLabels :=
  PlacedLabels.settle? r.kind r.operators (r.numFacts + 1) (.start r.numFacts s)

/-- **Settling the labels stays within the arrays.** -/
theorem labels?_eq_some (hr : ∀ o ∈ r.operators, o.Within r.numFacts) (s : State) :
    ∃ x, r.labels? s = some x ∧ PlacedLabels.Tells r.numFacts r.operators x (r.labels s) :=
  (PlacedLabels.tells_start r.numFacts r.operators s).settle?_eq_some hr r.numFacts (Labels.start_from r.numFacts s)
    (fun _ _ _ => Nat.zero_le _) (Nat.le_add_left r.numFacts 0)

end Relaxation
end GroundPlanner
