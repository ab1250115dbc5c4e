import GroundPlanner.Problem.Draft
/-!
# Families of problems

Small problems with known answers, and families that scale: a corridor, a grid, a robot with two grippers,
and a space of freely toggled bits whose goal is out of reach.
-/
namespace GroundPlanner
namespace Families

/-- An action that moves a token from one place to another. -/
def move (name src dst : String) : ActionDraft where
  name := name
  pre := [src]
  add := [dst]
  del := [src]

/-- One step from `at_A` to `at_B`. -/
def moveDraft (requirements : List Requirement) : Draft where
  name := "move"
  requirements := requirements
  facts := some ["at_A", "at_B"]
  init := ["at_A"]
  goal := ["at_B"]
  actions := [move "move_A_to_B" "at_A" "at_B"]

def moveAToB : Draft :=
  moveDraft [.strips]

/-- The same step in a problem that declares durative actions. -/
def durativeMove : Draft :=
  moveDraft [.strips, .durativeActions]

/-- The only action needs `at_C`, which never holds. -/
def unreachableGoal : Draft where
  name := "unreachable"
  facts := some ["at_A", "at_B", "at_C"]
  init := ["at_A"]
  goal := ["at_B"]
  actions := [move "move_C_to_B" "at_C" "at_B"]

/-- `press` lights the lamp only once `plug` has provided power. -/
def conditionalLamp : Draft where
  name := "lamp"
  requirements := [.strips, .conditionalEffects]
  facts := some ["power", "light"]
  goal := ["light"]
  actions := [
    { name := "press", when := [{ pre := ["power"], add := ["light"] }] },
    { name := "plug", preNeg := ["power"], add := ["power"] }]

def step (src dst : String) : ActionDraft :=
  move ("move_" ++ src ++ "_to_" ++ dst) src dst

def corridorCell (i : Nat) : String :=
  "c" ++ Text.ofNat i

/-- A line of `length + 1` cells, walked from the first to the last. -/
def corridor (length : Nat) : Draft where
  name := "corridor-" ++ Text.ofNat length
  facts := some ((List.range (length + 1)).map corridorCell)
  init := [corridorCell 0]
  goal := [corridorCell length]
  actions := (List.range length).flatMap (fun i =>
    [step (corridorCell i) (corridorCell (i + 1)), step (corridorCell (i + 1)) (corridorCell i)])

def gridCell (x y : Nat) : String :=
  "at_" ++ Text.ofNat x ++ "_" ++ Text.ofNat y

/-- The moves between a cell and its neighbours to the right and below, there and back. -/
def gridMoves (width height x y : Nat) : List ActionDraft :=
  (if x + 1 < width then
    [step (gridCell x y) (gridCell (x + 1) y), step (gridCell (x + 1) y) (gridCell x y)] else []) ++
  (if y + 1 < height then
    [step (gridCell x y) (gridCell x (y + 1)), step (gridCell x (y + 1)) (gridCell x y)] else [])

/-- A grid with four-way moves, from the top left to the bottom right corner. -/
def grid (width height : Nat) : Draft where
  name := "grid-" ++ Text.ofNat width ++ "x" ++ Text.ofNat height
  facts := some ((List.range height).flatMap (fun y => (List.range width).map (fun x => gridCell x y)))
  init := [gridCell 0 0]
  goal := [gridCell (width - 1) (height - 1)]
  actions := (List.range height).flatMap (fun y =>
    (List.range width).flatMap (fun x => gridMoves width height x y))

def rooms : List String := ["a", "b"]

def grippers : List String := ["left", "right"]

def ballName (ball : Nat) : String :=
  "ball" ++ Text.ofNat ball

def ballAt (ball : Nat) (room : String) : String :=
  ballName ball ++ "_at_" ++ room

def ballIn (ball : Nat) (gripper : String) : String :=
  ballName ball ++ "_in_" ++ gripper

def robotAt (room : String) : String :=
  "robot_at_" ++ room

def free (gripper : String) : String :=
  "free_" ++ gripper

def pick (ball : Nat) (room gripper : String) : ActionDraft where
  name := "pick_" ++ ballName ball ++ "_" ++ room ++ "_" ++ gripper
  pre := [ballAt ball room, robotAt room, free gripper]
  add := [ballIn ball gripper]
  del := [ballAt ball room, free gripper]

def drop (ball : Nat) (room gripper : String) : ActionDraft where
  name := "drop_" ++ ballName ball ++ "_" ++ room ++ "_" ++ gripper
  pre := [ballIn ball gripper, robotAt room]
  add := [ballAt ball room, free gripper]
  del := [ballIn ball gripper]

/-- Two rooms, a robot with two grippers, and balls to carry from room `a` to room `b`. -/
def gripper (balls : Nat) : Draft where
  name := "gripper-" ++ Text.ofNat balls
  facts := some (rooms.map robotAt ++ grippers.map free ++
    (List.range balls).flatMap (fun b => rooms.map (ballAt b) ++ grippers.map (ballIn b)))
  init := ["robot_at_a", "free_left", "free_right"] ++ (List.range balls).map (fun b => ballAt b "a")
  goal := (List.range balls).map (fun b => ballAt b "b")
  actions := move "move_a_b" "robot_at_a" "robot_at_b" :: move "move_b_a" "robot_at_b" "robot_at_a" ::
    (List.range balls).flatMap (fun b => rooms.flatMap (fun r => grippers.flatMap (fun g =>
      [pick b r g, drop b r g])))

def bitName (i : Nat) : String :=
  "bit" ++ Text.ofNat i

/-- `bits` facts that can be set and cleared at will, and a goal behind a key that nothing provides. -/
def toggleSpace (bits : Nat) : Draft where
  name := "toggles-" ++ Text.ofNat bits
  facts := some ((List.range bits).map bitName ++ ["key", "goal"])
  goal := ["goal"]
  actions :=
    { name := "open", pre := "key" :: (List.range bits).map bitName, add := ["goal"] } ::
    (List.range bits).flatMap (fun i => [
      { name := "set_" ++ bitName i, preNeg := [bitName i], add := [bitName i] },
      { name := "clear_" ++ bitName i, pre := [bitName i], del := [bitName i] }])

/-- A member of a family, by the name of the family and its sizes. -/
def named? (family : String) (sizes : List Nat) : Option Draft :=
  match family, sizes with
  | "move_a_to_b", [] => some moveAToB
  | "durative_move", [] => some durativeMove
  | "unreachable_goal", [] => some unreachableGoal
  | "conditional_lamp", [] => some conditionalLamp
  | "corridor", [n] => some (corridor n)
  | "grid", [w, h] => some (grid w h)
  | "gripper", [n] => some (gripper n)
  | "toggle_space", [n] => some (toggleSpace n)
  | _, _ => none

end Families
end GroundPlanner
