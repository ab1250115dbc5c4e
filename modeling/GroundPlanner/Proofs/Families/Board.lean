import GroundPlanner.Problem.Families
import GroundPlanner.Proofs.Families.Distance
import GroundPlanner.Proofs.Numerals
/-!
# A token on a board

In a corridor and on a grid one token goes from cell to cell.  A draft of this kind builds, and its shortest plans are
as long as the distance of the start on the board (`Draft.OnBoard.shortest`).
-/
namespace GroundPlanner

/-- Cells, the steps between them, and the two ends of the way. -/
structure Board (α : Type) where
  cells : List α
  steps : List (α × α)
  start : α
  goal : α
  start_mem : start ∈ cells
  goal_mem : goal ∈ cells
  steps_mem : ∀ e ∈ steps, e.1 ∈ cells ∧ e.2 ∈ cells
  nodup : steps.Nodup

/-- A function that counts the steps to the goal. -/
structure Board.Metric {α : Type} (B : Board α) (D : α → Nat) : Prop where
  goal : ∀ x ∈ B.cells, D x = 0 ↔ x = B.goal
  step : ∀ x y, (x, y) ∈ B.steps → D x ≤ D y + 1
  nearer : ∀ x ∈ B.cells, ∀ k, D x = k + 1 → ∃ y, (x, y) ∈ B.steps ∧ D y = k

/-- **The draft moves a token on the board.** -/
structure Draft.OnBoard {α : Type} (d : Draft) (B : Board α) (cell : α → String) : Prop where
  facts : d.facts = some (B.cells.map cell)
  init : d.init = [cell B.start]
  goal : d.goal = [cell B.goal]
  goalNeg : d.goalNeg = []
  actions : d.actions = B.steps.map (fun e => Families.step (cell e.1) (cell e.2))

variable {α : Type} {B : Board α} {cell : α → String} {d : Draft}

/-- The token is in the cell `x` and nowhere else. -/
def Token [DecidableEq α] (cell : α → String) (v : Valuation) (x : α) : Prop :=
  ∀ y, v (cell y) = decide (y = x)

section Token

variable [DecidableEq α] {v : Valuation} {x y z : α}

theorem Token.step_applicable (h : Token cell v x) :
    (Families.step (cell y) (cell z)).applicable v = true ↔ y = x := by
  simp [ActionDraft.applicable, Families.step, Families.move, h y]

theorem Token.step_successor (h : Token cell v x) (hcell : Function.Injective cell) :
    Token cell ((Families.step (cell x) (cell y)).successor v) y := by
  intro z
  rw [ActionDraft.successor_named hcell rfl [y] [x] rfl rfl, h z]
  simp

end Token

namespace Draft.OnBoard

theorem step_name_injective (hcell : Text.Delimited cell) :
    Function.Injective (fun e : α × α => (Families.step (cell e.1) (cell e.2)).name) :=
  ((hcell.prepend "move_").pair hcell ⟨'_', ['t', 'o', '_'], by decide, by decide⟩).injective

/-- The cells as facts, and the steps as actions. -/
def kinds (h : d.OnBoard B cell) (hcell : Text.Delimited cell) :
    d.Kinds cell (fun e : α × α => Families.step (cell e.1) (cell e.2)) where
  facts := B.cells
  init := [B.start]
  goal := [B.goal]
  acts := B.steps
  mentioned e := [e.1, e.2, e.1]
  facts_eq := h.facts
  init_eq := h.init
  goal_eq := h.goal
  goalNeg_eq := h.goalNeg
  actions_eq := h.actions
  mentioned_eq _ := rfl
  init_subset := List.forall_mem_singleton.2 B.start_mem
  goal_subset := List.forall_mem_singleton.2 B.goal_mem
  mentioned_subset e he := by simp [B.steps_mem e he]
  nodup := B.nodup
  name_injective := step_name_injective hcell

/-- **Steps on the board are the actions of the draft.** -/
theorem distance [DecidableEq α] {D : α → Nat} (h : d.OnBoard B cell) (hcell : Function.Injective cell)
    (hD : B.Metric D) : d.Distance (fun v k => ∃ x ∈ B.cells, Token cell v x ∧ D x = k) := by
  constructor
  · rintro v k ⟨x, hx, htoken, rfl⟩
    rw [hD.goal x hx]
    simp [isGoal, h.goal, h.goalNeg, htoken B.goal, eq_comm]
  · rintro v k a ⟨x, -, htoken, rfl⟩ ha happ
    rw [h.actions] at ha
    obtain ⟨⟨y, z⟩, hmem, rfl⟩ := List.mem_map.1 ha
    obtain rfl : y = x := htoken.step_applicable.1 happ
    exact ⟨D z, ⟨z, (B.steps_mem _ hmem).2, htoken.step_successor hcell, rfl⟩, hD.step y z hmem⟩
  · rintro v k ⟨x, hx, htoken, hk⟩
    obtain ⟨y, hmem, hy⟩ := hD.nearer x hx k hk
    rw [h.actions]
    exact ⟨_, List.mem_map_of_mem hmem, htoken.step_applicable.2 rfl, y, (B.steps_mem _ hmem).2,
      htoken.step_successor hcell, hy⟩

/-- **The shortest plans are as long as the way on the board.** -/
theorem shortest [DecidableEq α] {D : α → Nat} (h : d.OnBoard B cell) (hcell : Text.Delimited cell)
    (hD : B.Metric D) : ∃ p, d.build = .ok p ∧ p.Shortest (D B.start) := by
  obtain ⟨p, hp⟩ := (h.kinds hcell).exists_build
  have hstart : Token cell d.initial B.start := by
    intro y
    simp [initial, h.init, hcell.injective.eq_iff]
  exact ⟨p, hp, (h.distance hcell.injective hD).shortest hp ⟨B.start, B.start_mem, hstart, rfl⟩⟩

end Draft.OnBoard

/-! ## Corridors and grids -/

namespace Families

/-- A list made in portions has no repetitions if each entry shows whose portion it is of. -/
theorem nodup_flatMap_of_key {β γ : Type} {l : List β} {f : β → List γ} (hl : l.Nodup) (key : γ → β)
    (hf : ∀ x ∈ l, (f x).Nodup) (hkey : ∀ x ∈ l, ∀ y ∈ f x, key y = x) : (l.flatMap f).Nodup := by
  refine List.nodup_flatMap.2 ⟨hf, hl.imp_of_mem fun {x x'} hx hx' hne y hy hy' => hne ?_⟩
  rw [← hkey x hx y hy, hkey x' hx' y hy']

def corridorSteps (length : Nat) : List (Nat × Nat) :=
  (List.range length).flatMap (fun i => [(i, i + 1), (i + 1, i)])

theorem mem_corridorSteps {length i j : Nat} :
    (i, j) ∈ corridorSteps length ↔ i < length ∧ j = i + 1 ∨ j < length ∧ i = j + 1 := by
  simp only [corridorSteps, List.mem_flatMap, List.mem_range, List.mem_cons, Prod.mk.injEq, List.not_mem_nil, or_false]
  constructor
  · rintro ⟨k, hk, ⟨rfl, rfl⟩ | ⟨rfl, rfl⟩⟩
    · exact .inl ⟨hk, rfl⟩
    · exact .inr ⟨hk, rfl⟩
  · rintro (⟨hi, rfl⟩ | ⟨hj, rfl⟩)
    · exact ⟨i, hi, .inl ⟨rfl, rfl⟩⟩
    · exact ⟨j, hj, .inr ⟨rfl, rfl⟩⟩

def corridorBoard (length : Nat) : Board Nat where
  cells := List.range (length + 1)
  steps := corridorSteps length
  start := 0
  goal := length
  start_mem := List.mem_range.2 (Nat.succ_pos length)
  goal_mem := List.mem_range.2 (Nat.lt_succ_self length)
  steps_mem := by
    rintro ⟨i, j⟩ he
    rw [mem_corridorSteps] at he
    simp only [List.mem_range]
    omega
  nodup := nodup_flatMap_of_key List.nodup_range (fun e => min e.1 e.2) (by simp) (by simp)

theorem corridor_onBoard (length : Nat) : (corridor length).OnBoard (corridorBoard length) corridorCell where
  facts := rfl
  init := rfl
  goal := rfl
  goalNeg := rfl
  actions := by
    simp only [corridorBoard, corridorSteps, List.map_flatMap]
    rfl

theorem corridor_metric (length : Nat) : (corridorBoard length).Metric (fun i => length - i) where
  goal i hi := by
    have hi := List.mem_range.1 hi
    change length - i = 0 ↔ i = length
    omega
  step i j he := by
    have he := mem_corridorSteps.1 he
    omega
  nearer i _ k hk := ⟨i + 1, mem_corridorSteps.2 (.inl ⟨by omega, rfl⟩), by omega⟩

/-- **A corridor is walked in as many steps as it is long.** -/
theorem corridor_built (length : Nat) : ∃ p, (corridor length).build = .ok p ∧ p.Shortest length :=
  (corridor_onBoard length).shortest (Text.delimited_ofNat.prepend "c") (corridor_metric length)

/-- The steps between a cell and its neighbours to the right and below, there and back. -/
def gridStepsAt (width height x y : Nat) : List ((Nat × Nat) × Nat × Nat) :=
  (if x + 1 < width then [((x, y), (x + 1, y)), ((x + 1, y), (x, y))] else []) ++
  (if y + 1 < height then [((x, y), (x, y + 1)), ((x, y + 1), (x, y))] else [])

theorem mem_gridStepsAt {width height x y : Nat} {e : (Nat × Nat) × Nat × Nat} :
    e ∈ gridStepsAt width height x y ↔
      x + 1 < width ∧ (e = ((x, y), (x + 1, y)) ∨ e = ((x + 1, y), (x, y))) ∨
      y + 1 < height ∧ (e = ((x, y), (x, y + 1)) ∨ e = ((x, y + 1), (x, y))) := by
  simp only [gridStepsAt, List.mem_append, List.mem_ite_nil_right, List.mem_cons, List.not_mem_nil, or_false]

/-- Of the two ends of a step, the lesser in both directions tells where the step is listed. -/
theorem gridStepsAt_key {width height x y : Nat} {e : (Nat × Nat) × Nat × Nat}
    (he : e ∈ gridStepsAt width height x y) : (min e.1.1 e.2.1, min e.1.2 e.2.2) = (x, y) := by
  rcases mem_gridStepsAt.1 he with ⟨-, rfl | rfl⟩ | ⟨-, rfl | rfl⟩ <;> simp

theorem nodup_gridStepsAt (width height x y : Nat) : (gridStepsAt width height x y).Nodup := by
  unfold gridStepsAt
  split <;> split <;> simp

def gridSteps (width height : Nat) : List ((Nat × Nat) × Nat × Nat) :=
  (List.range height).flatMap (fun y => (List.range width).flatMap (fun x => gridStepsAt width height x y))

/-- Cells side by side, or one above the other. -/
def Neighbours (c c' : Nat × Nat) : Prop :=
  c.2 = c'.2 ∧ (c'.1 = c.1 + 1 ∨ c.1 = c'.1 + 1) ∨ c.1 = c'.1 ∧ (c'.2 = c.2 + 1 ∨ c.2 = c'.2 + 1)

theorem mem_gridSteps {width height x y x' y' : Nat} : ((x, y), (x', y')) ∈ gridSteps width height ↔
    (x < width ∧ y < height) ∧ (x' < width ∧ y' < height) ∧ Neighbours (x, y) (x', y') := by
  simp only [gridSteps, List.mem_flatMap, List.mem_range, mem_gridStepsAt, Prod.mk.injEq, Neighbours]
  constructor
  · rintro ⟨v, hv, u, hu, h⟩
    omega
  · rintro ⟨⟨hx, hy⟩, ⟨hx', hy'⟩, ⟨rfl, rfl | rfl⟩ | ⟨rfl, rfl | rfl⟩⟩
    · exact ⟨y, hy, x, hx, .inl ⟨hx', .inl ⟨⟨rfl, rfl⟩, rfl, rfl⟩⟩⟩
    · exact ⟨y, hy, x', hx', .inl ⟨hx, .inr ⟨⟨rfl, rfl⟩, rfl, rfl⟩⟩⟩
    · exact ⟨y, hy, x, hx, .inr ⟨hy', .inl ⟨⟨rfl, rfl⟩, rfl, rfl⟩⟩⟩
    · exact ⟨y', hy', x, hx, .inr ⟨hy, .inr ⟨⟨rfl, rfl⟩, rfl, rfl⟩⟩⟩

theorem nodup_gridSteps (width height : Nat) : (gridSteps width height).Nodup :=
  nodup_flatMap_of_key List.nodup_range (fun e => min e.1.2 e.2.2)
    (fun y _ => nodup_flatMap_of_key List.nodup_range (fun e => min e.1.1 e.2.1)
      (fun x _ => nodup_gridStepsAt width height x y) fun _ _ _ he => congrArg Prod.fst (gridStepsAt_key he))
    fun y _ e he => by
      obtain ⟨x, -, he⟩ := List.mem_flatMap.1 he
      exact congrArg Prod.snd (gridStepsAt_key he)

def gridCells (width height : Nat) : List (Nat × Nat) :=
  (List.range height).flatMap (fun y => (List.range width).map (fun x => (x, y)))

theorem mem_gridCells {width height x y : Nat} : (x, y) ∈ gridCells width height ↔ x < width ∧ y < height := by
  simp [gridCells, and_comm]

section Grid

variable {width height : Nat} (hw : 1 ≤ width) (hh : 1 ≤ height)

def gridBoard : Board (Nat × Nat) where
  cells := gridCells width height
  steps := gridSteps width height
  start := (0, 0)
  goal := (width - 1, height - 1)
  start_mem := mem_gridCells.2 ⟨hw, hh⟩
  goal_mem := mem_gridCells.2 ⟨Nat.sub_lt hw Nat.one_pos, Nat.sub_lt hh Nat.one_pos⟩
  steps_mem := by
    rintro ⟨⟨x, y⟩, x', y'⟩ he
    obtain ⟨h, h', -⟩ := mem_gridSteps.1 he
    exact ⟨mem_gridCells.2 h, mem_gridCells.2 h'⟩
  nodup := nodup_gridSteps width height

theorem grid_onBoard : (grid width height).OnBoard (gridBoard hw hh) (fun c => gridCell c.1 c.2) where
  facts := by
    simp only [grid, gridBoard, gridCells, List.map_flatMap, List.map_map]
    rfl
  init := rfl
  goal := rfl
  goalNeg := rfl
  actions := by
    simp only [grid, gridBoard, gridSteps, List.map_flatMap]
    refine List.flatMap_congr fun y _ => List.flatMap_congr fun x _ => ?_
    unfold gridMoves gridStepsAt
    split <;> split <;> rfl

theorem grid_metric : (gridBoard hw hh).Metric (fun c => (width - 1 - c.1) + (height - 1 - c.2)) where
  goal := by
    rintro ⟨x, y⟩ hc
    obtain ⟨hx, hy⟩ := mem_gridCells.1 hc
    change _ ↔ (x, y) = (width - 1, height - 1)
    rw [Prod.mk.injEq]
    omega
  step := by
    rintro ⟨x, y⟩ ⟨x', y'⟩ he
    obtain ⟨-, -, hnext⟩ := mem_gridSteps.1 he
    unfold Neighbours at hnext
    omega
  nearer := by
    rintro ⟨x, y⟩ hc k hk
    obtain ⟨hx, hy⟩ := mem_gridCells.1 hc
    simp only at hk
    -- Right as long as there is a cell, then down.
    by_cases hright : x + 1 < width
    · exact ⟨(x + 1, y), mem_gridSteps.2 ⟨⟨hx, hy⟩, ⟨hright, hy⟩, .inl ⟨rfl, .inl rfl⟩⟩, by simp only; omega⟩
    · exact ⟨(x, y + 1), mem_gridSteps.2 ⟨⟨hx, hy⟩, ⟨hx, by omega⟩, .inr ⟨rfl, .inl rfl⟩⟩, by simp only; omega⟩

theorem delimited_gridCell : Text.Delimited (fun c : Nat × Nat => gridCell c.1 c.2) :=
  (Text.delimited_ofNat.prepend "at_").pair Text.delimited_ofNat ⟨'_', [], by decide, by decide⟩

include hw hh in
/-- **A grid is crossed in as many steps as its corners are apart.** -/
theorem grid_built : ∃ p, (grid width height).build = .ok p ∧ p.Shortest (width + height - 2) := by
  obtain ⟨p, hp, hshortest⟩ := (grid_onBoard hw hh).shortest delimited_gridCell (grid_metric hw hh)
  have hlen : width - 1 - 0 + (height - 1 - 0) = width + height - 2 := by omega
  exact ⟨p, hp, hlen ▸ hshortest⟩

end Grid
end Families
end GroundPlanner
