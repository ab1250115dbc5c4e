import GroundPlanner.Proofs.Families.Board
import Mathlib.Data.List.Count
/-!
# The robot with two grippers

A state of the family is where the robot is and where each ball is, in a room or in a gripper (`GripperState`).  Each
ball is picked up and dropped once and carried in pairs at best, which fixes the distance to the goal
(`GripperState.distance`): what is left to pick and drop, and what is left of the ways between the rooms.  With
corridors and grids this settles the lengths of shortest plans of the families that scale
(`Families.families_shortest`).
-/
namespace GroundPlanner
namespace Families

/-! ## Rooms, grippers and facts -/

inductive Room where
  | a
  | b
deriving DecidableEq

inductive Hand where
  | left
  | right
deriving DecidableEq

/-- Where a ball is. -/
inductive Place where
  | room (r : Room)
  | hand (g : Hand)
deriving DecidableEq

def Room.text : Room → String
  | .a => "a"
  | .b => "b"

def Room.other : Room → Room
  | .a => .b
  | .b => .a

def Hand.text : Hand → String
  | .left => "left"
  | .right => "right"

def Place.text : Place → String
  | .room r => "at_" ++ r.text
  | .hand g => "in_" ++ g.text

inductive GripperFact where
  | robot (r : Room)
  | free (g : Hand)
  | ball (b : Nat) (p : Place)
deriving DecidableEq

def GripperFact.name : GripperFact → String
  | .robot r => robotAt r.text
  | .free g => Families.free g.text
  | .ball b (.room r) => ballAt b r.text
  | .ball b (.hand g) => ballIn b g.text

theorem GripperFact.name_ball (b : Nat) (p : Place) : (ball b p).name = ballName b ++ "_" ++ p.text := by
  cases p <;> simp only [name, ballAt, ballIn, Place.text, String.append_assoc] <;> rfl

theorem delimited_room : Text.Delimited Room.text :=
  Text.delimited_of_prefixFree (by rintro (_ | _) (_ | _) h <;> first | rfl | exact absurd h (by decide))

theorem delimited_hand : Text.Delimited Hand.text :=
  Text.delimited_of_prefixFree (by rintro (_ | _) (_ | _) h <;> first | rfl | exact absurd h (by decide))

theorem delimited_place : Text.Delimited Place.text :=
  Text.delimited_of_prefixFree (by
    rintro ((_ | _) | (_ | _)) ((_ | _) | (_ | _)) h <;> first | rfl | exact absurd h (by decide))

theorem delimited_ballName : Text.Delimited ballName :=
  Text.delimited_ofNat.prepend "ball"

theorem delimited_ball : Text.Delimited (fun x : Nat × Place => ballName x.1 ++ "_" ++ x.2.text) :=
  delimited_ballName.pair delimited_place ⟨'_', [], by decide, by decide⟩

/-- The names of what is done to a ball. -/
theorem delimited_use (verb : String) :
    Text.Delimited (fun x : (Nat × Room) × Hand => verb ++ ballName x.1.1 ++ "_" ++ x.1.2.text ++ "_" ++ x.2.text) :=
  (((delimited_ballName.prepend verb).pair delimited_room ⟨'_', [], by decide, by decide⟩).pair delimited_hand
    ⟨'_', [], by decide, by decide⟩)

/-- **Different facts of the family have different names.** -/
theorem GripperFact.name_injective : Function.Injective GripperFact.name := by
  refine Text.injective_of_head (fun
    | .robot _ => 'r'
    | .free _ => 'f'
    | .ball _ _ => 'b') (fun f => ?_) fun f f' hkind hname => ?_
  · cases f with
    | robot r => simp [name, robotAt]
    | free g => simp [name, Families.free]
    | ball b p => simp [name_ball, ballName]
  · cases f with
    | robot r =>
      cases f' with
      | robot r' => rw [(delimited_room.prepend "robot_at_").injective hname]
      | _ => cases hkind
    | free g =>
      cases f' with
      | free g' => rw [(delimited_hand.prepend "free_").injective hname]
      | _ => cases hkind
    | ball b p =>
      cases f' with
      | ball b' p' =>
        rw [name_ball, name_ball] at hname
        have hpair : (b, p) = (b', p') := delimited_ball.injective hname
        cases hpair
        rfl
      | _ => cases hkind

/-! ## Actions -/

inductive GripperAct where
  | move (r : Room)
  | pick (b : Nat) (r : Room) (g : Hand)
  | drop (b : Nat) (r : Room) (g : Hand)
deriving DecidableEq

/-- The action of the draft; a move goes to the other room. -/
def GripperAct.draft : GripperAct → ActionDraft
  | .move r => Families.move ("move_" ++ r.text ++ "_" ++ r.other.text) (robotAt r.text) (robotAt r.other.text)
  | .pick b r g => Families.pick b r.text g.text
  | .drop b r g => Families.drop b r.text g.text

theorem GripperAct.name_injective : Function.Injective (fun act : GripperAct => act.draft.name) := by
  refine Text.injective_of_head (fun
    | .move _ => 'm'
    | .pick _ _ _ => 'p'
    | .drop _ _ _ => 'd') (fun act => ?_) fun act act' hkind hname => ?_
  · cases act with
    | move r => simp [draft, Families.move]
    | pick b r g => simp [draft, Families.pick]
    | drop b r g => simp [draft, Families.drop]
  · cases act with
    | move r =>
      cases act' with
      | move r' => cases r <;> cases r' <;> first | rfl | exact absurd hname (by decide)
      | _ => cases hkind
    | pick b r g =>
      cases act' with
      | pick b' r' g' =>
        have htriple : ((b, r), g) = ((b', r'), g') := (delimited_use "pick_").injective hname
        cases htriple
        rfl
      | _ => cases hkind
    | drop b r g =>
      cases act' with
      | drop b' r' g' =>
        have htriple : ((b, r), g) = ((b', r'), g') := (delimited_use "drop_").injective hname
        cases htriple
        rfl
      | _ => cases hkind

def gripperUses (b : Nat) : List GripperAct :=
  [Room.a, Room.b].flatMap (fun r => [Hand.left, Hand.right].flatMap (fun g => [.pick b r g, .drop b r g]))

def gripperActs (balls : Nat) : List GripperAct :=
  .move .a :: .move .b :: (List.range balls).flatMap gripperUses

theorem gripper_actions (balls : Nat) : (gripper balls).actions = (gripperActs balls).map GripperAct.draft := by
  simp only [gripper, gripperActs, List.map_cons, List.map_flatMap]
  rfl

theorem mem_gripperUses {b : Nat} {act : GripperAct} :
    act ∈ gripperUses b ↔ ∃ r g, act = .pick b r g ∨ act = .drop b r g := by
  constructor
  · intro h
    simp only [gripperUses, List.mem_flatMap, List.mem_cons, List.not_mem_nil, or_false] at h
    obtain ⟨r, -, g, -, h⟩ := h
    exact ⟨r, g, h⟩
  · rintro ⟨r, g, rfl | rfl⟩ <;> cases r <;> cases g <;> simp [gripperUses]

theorem move_mem_gripperActs (balls : Nat) (r : Room) : .move r ∈ gripperActs balls := by
  cases r <;> simp [gripperActs]

theorem use_mem_gripperActs {balls b : Nat} {r : Room} {g : Hand} {act : GripperAct} (hb : b < balls)
    (hact : act = .pick b r g ∨ act = .drop b r g) : act ∈ gripperActs balls := by
  have huse : act ∈ (List.range balls).flatMap gripperUses :=
    List.mem_flatMap.2 ⟨b, List.mem_range.2 hb, mem_gripperUses.2 ⟨r, g, hact⟩⟩
  exact List.mem_cons_of_mem _ (List.mem_cons_of_mem _ huse)

theorem nodup_gripperActs (balls : Nat) : (gripperActs balls).Nodup := by
  have huses : ((List.range balls).flatMap gripperUses).Nodup := by
    refine nodup_flatMap_of_key List.nodup_range (fun
      | .move _ => 0
      | .pick b _ _ => b
      | .drop b _ _ => b) (fun b _ => ?_) fun b _ act hact => ?_
    · simp [gripperUses]
    · obtain ⟨r, g, rfl | rfl⟩ := mem_gripperUses.1 hact <;> rfl
  have hmove : ∀ r, .move r ∉ (List.range balls).flatMap gripperUses := by
    intro r hr
    obtain ⟨b, -, hr⟩ := List.mem_flatMap.1 hr
    obtain ⟨r', g, h | h⟩ := mem_gripperUses.1 hr <;> cases h
  refine List.nodup_cons.2 ⟨fun h => ?_, List.nodup_cons.2 ⟨hmove .b, huses⟩⟩
  rcases List.mem_cons.1 h with h | h
  · cases h
  · exact hmove .a h

/-! ## The draft by kinds -/

def gripperFacts (balls : Nat) : List GripperFact :=
  [.robot .a, .robot .b, .free .left, .free .right] ++ (List.range balls).flatMap (fun b =>
    [.ball b (.room .a), .ball b (.room .b), .ball b (.hand .left), .ball b (.hand .right)])

theorem gripper_facts (balls : Nat) : (gripper balls).facts = some ((gripperFacts balls).map GripperFact.name) := by
  simp only [gripper, gripperFacts, List.map_append, List.map_flatMap]
  rfl

def gripperInit (balls : Nat) : List GripperFact :=
  [.robot .a, .free .left, .free .right] ++ (List.range balls).map (fun b => .ball b (.room .a))

def gripperGoal (balls : Nat) : List GripperFact :=
  (List.range balls).map (fun b => .ball b (.room .b))

theorem gripper_init (balls : Nat) : (gripper balls).init = (gripperInit balls).map GripperFact.name := by
  simp only [gripper, gripperInit, List.map_append, List.map_map]
  rfl

theorem gripper_goal (balls : Nat) : (gripper balls).goal = (gripperGoal balls).map GripperFact.name := by
  simp only [gripper, gripperGoal, List.map_map]
  rfl

/-- All facts are declared but those of balls that there are not. -/
theorem mem_gripperFacts {balls : Nat} {f : GripperFact} :
    f ∈ gripperFacts balls ↔ ∀ b p, f = .ball b p → b < balls := by
  cases f with
  | robot r => cases r <;> simp [gripperFacts]
  | free g => cases g <;> simp [gripperFacts]
  | ball b p => rcases p with (_ | _) | (_ | _) <;> simp [gripperFacts]

theorem gripperInit_subset {balls : Nat} : ∀ f ∈ gripperInit balls, f ∈ gripperFacts balls := by
  simp +contextual [mem_gripperFacts, gripperInit]

theorem gripperGoal_subset {balls : Nat} : ∀ f ∈ gripperGoal balls, f ∈ gripperFacts balls := by
  simp +contextual [mem_gripperFacts, gripperGoal]

def GripperAct.mentioned : GripperAct → List GripperFact
  | .move r => [.robot r, .robot r.other, .robot r]
  | .pick b r g => [.ball b (.room r), .robot r, .free g, .ball b (.hand g), .ball b (.room r), .free g]
  | .drop b r g => [.ball b (.hand g), .robot r, .ball b (.room r), .free g, .ball b (.hand g)]

theorem GripperAct.draft_mentioned (act : GripperAct) :
    act.draft.mentioned = act.mentioned.map GripperFact.name := by
  cases act <;> rfl

theorem GripperAct.mentioned_subset {balls : Nat} {act : GripperAct} (hact : act ∈ gripperActs balls) :
    ∀ f ∈ act.mentioned, f ∈ gripperFacts balls := by
  intro f hf
  refine mem_gripperFacts.2 fun b p hb => ?_
  subst hb
  simp only [gripperActs, List.mem_cons, List.mem_flatMap, List.mem_range] at hact
  rcases hact with rfl | rfl | ⟨b', hb', hact⟩
  · simp [mentioned] at hf
  · simp [mentioned] at hf
  · have heq : b = b' := by
      obtain ⟨r, g, rfl | rfl⟩ := mem_gripperUses.1 hact <;>
        simp only [mentioned, List.mem_cons, GripperFact.ball.injEq, reduceCtorEq, List.not_mem_nil, or_false,
          false_or] at hf <;>
        exact hf.elim And.left (Or.elim · And.left And.left)
    exact heq ▸ hb'

def gripperKinds (balls : Nat) : (gripper balls).Kinds GripperFact.name GripperAct.draft where
  facts := gripperFacts balls
  init := gripperInit balls
  goal := gripperGoal balls
  acts := gripperActs balls
  mentioned := GripperAct.mentioned
  facts_eq := gripper_facts balls
  init_eq := gripper_init balls
  goal_eq := gripper_goal balls
  goalNeg_eq := rfl
  actions_eq := gripper_actions balls
  mentioned_eq := GripperAct.draft_mentioned
  init_subset := gripperInit_subset
  goal_subset := gripperGoal_subset
  mentioned_subset _ hact := GripperAct.mentioned_subset hact
  nodup := nodup_gripperActs balls
  name_injective := GripperAct.name_injective

/-! ## States -/

/-- Where the robot is and where each ball is. -/
structure GripperState where
  robot : Room
  places : List Place

namespace GripperState

variable {c : GripperState} {v : Valuation} {balls b : Nat} {p q x : Place} {r : Room} {g : Hand}

def holds (c : GripperState) : GripperFact → Bool
  | .robot r => decide (r = c.robot)
  | .free g => decide (.hand g ∉ c.places)
  | .ball b p => decide (c.places[b]? = some p)

/-- **The valuation shows the state**; a gripper carries one ball at most. -/
structure Shown (balls : Nat) (v : Valuation) (c : GripperState) : Prop where
  holds : ∀ f : GripperFact, v f.name = c.holds f
  length : c.places.length = balls
  carried : ∀ g, c.places.count (.hand g) ≤ 1

def put (c : GripperState) (b : Nat) (q : Place) : GripperState :=
  { c with places := c.places.set b q }

theorem holds_robot_put (c : GripperState) (b : Nat) (q : Place) (r : Room) :
    (c.put b q).holds (.robot r) = c.holds (.robot r) :=
  rfl

theorem length_put (c : GripperState) (b : Nat) (q : Place) : (c.put b q).places.length = c.places.length :=
  List.length_set

theorem count_put (hb : c.places[b]? = some p) (q x : Place) : (c.put b q).places.count x +
    (if p = x then 1 else 0) = c.places.count x + if q = x then 1 else 0 := by
  obtain ⟨hlt, hget⟩ := List.getElem?_eq_some_iff.1 hb
  have hpos : p = x → 0 < c.places.count x := by
    rintro rfl
    exact List.count_pos_iff.2 (List.mem_of_getElem? hb)
  rw [put, List.count_set hlt, hget]
  simp only [beq_iff_eq]
  split <;> split <;> grind

theorem getElem?_put (hb : c.places[b]? = some p) (b' : Nat) :
    (c.put b q).places[b']? = if b = b' then some q else c.places[b']? := by
  obtain ⟨hlt, -⟩ := List.getElem?_eq_some_iff.1 hb
  rw [put, List.getElem?_set, if_pos hlt]

theorem mem_put (hb : c.places[b]? = some p) (hx : x ≠ p) : x ∈ (c.put b q).places ↔ x = q ∨ x ∈ c.places := by
  have hcount := count_put hb q x
  rw [if_neg (Ne.symm hx), Nat.add_zero] at hcount
  rw [← List.count_pos_iff, hcount, ← List.count_pos_iff]
  split <;> grind

theorem count_hand_pick (hb : c.places[b]? = some (.room r)) (g g' : Hand) :
    (c.put b (.hand g)).places.count (.hand g') = c.places.count (.hand g') + if g = g' then 1 else 0 := by
  simpa only [Place.hand.injEq, reduceCtorEq, if_false, Nat.add_zero] using count_put hb (.hand g) (.hand g')

theorem count_hand_drop (hb : c.places[b]? = some (.hand g)) (r : Room) (g' : Hand) :
    (c.put b (.room r)).places.count (.hand g') + (if g = g' then 1 else 0) = c.places.count (.hand g') := by
  simpa only [Place.hand.injEq, reduceCtorEq, if_false, Nat.add_zero] using count_put hb (.room r) (.hand g')

/-- A ball that is moved is where it goes, and no more where it was. -/
theorem holds_ball_put (hb : c.places[b]? = some p) (b' : Nat) (p' : Place) :
    (c.put b q).holds (.ball b' p') = (c.holds (.ball b' p') && !decide (GripperFact.ball b' p' = .ball b p) ||
      decide (GripperFact.ball b' p' = .ball b q)) := by
  simp only [holds, getElem?_put hb, GripperFact.ball.injEq]
  by_cases hbb : b = b'
  · subst hbb
    simp only [hb, if_true, true_and, Option.some.injEq]
    grind
  · simp [hbb, Ne.symm hbb]

/-! ## What the actions do -/

namespace Shown

variable (h : Shown balls v c)
include h

theorem go_applicable : (GripperAct.move r).draft.applicable v = true ↔ r = c.robot := by
  rw [ActionDraft.applicable_named h.holds [.robot r] [] rfl rfl]
  simp [GripperState.holds]

theorem pick_applicable : (GripperAct.pick b r g).draft.applicable v = true ↔
    c.places[b]? = some (.room r) ∧ r = c.robot ∧ .hand g ∉ c.places := by
  rw [ActionDraft.applicable_named h.holds [.ball b (.room r), .robot r, .free g] [] rfl rfl]
  simp [GripperState.holds]

theorem drop_applicable : (GripperAct.drop b r g).draft.applicable v = true ↔
    c.places[b]? = some (.hand g) ∧ r = c.robot := by
  rw [ActionDraft.applicable_named h.holds [.ball b (.hand g), .robot r] [] rfl rfl]
  simp [GripperState.holds]

theorem successor_holds (act : GripperAct) (add del : List GripperFact)
    (hadd : act.draft.add = add.map GripperFact.name) (hdel : act.draft.del = del.map GripperFact.name)
    (f : GripperFact) : act.draft.successor v f.name = (c.holds f && !decide (f ∈ del) || decide (f ∈ add)) := by
  have hwhen : act.draft.when = [] := by cases act <;> rfl
  rw [ActionDraft.successor_named GripperFact.name_injective hwhen add del hadd hdel, h.holds]

theorem go_successor (hr : r = c.robot) :
    Shown balls ((GripperAct.move r).draft.successor v) { c with robot := r.other } := by
  refine ⟨fun f => ?_, h.length, h.carried⟩
  rw [h.successor_holds (.move r) [.robot r.other] [.robot r] rfl rfl]
  cases f with
  | robot r' => cases r <;> cases r' <;> simp [GripperState.holds, Room.other, ← hr]
  | free g => simp [GripperState.holds]
  | ball b p => simp [GripperState.holds]

theorem pick_successor (hb : c.places[b]? = some (.room r)) (hg : .hand g ∉ c.places) :
    Shown balls ((GripperAct.pick b r g).draft.successor v) (c.put b (.hand g)) := by
  refine ⟨fun f => ?_, (length_put c b _).trans h.length, fun g' => ?_⟩
  · rw [h.successor_holds (.pick b r g) [.ball b (.hand g)] [.ball b (.room r), .free g] rfl rfl]
    cases f with
    | robot r' => simp [holds_robot_put]
    | free g' => simp [GripperState.holds, mem_put hb, Bool.and_comm]
    | ball b' p' => simp [holds_ball_put hb]
  · rw [count_hand_pick hb]
    split
    · rename_i hgg
      rw [← hgg, List.count_eq_zero.2 hg]
    · exact h.carried g'

theorem drop_successor (hb : c.places[b]? = some (.hand g)) (r : Room) :
    Shown balls ((GripperAct.drop b r g).draft.successor v) (c.put b (.room r)) := by
  refine ⟨fun f => ?_, (length_put c b _).trans h.length, fun g' => ?_⟩
  · rw [h.successor_holds (.drop b r g) [.ball b (.room r), .free g] [.ball b (.hand g)] rfl rfl]
    cases f with
    | robot r' => simp [holds_robot_put]
    | free g' =>
      by_cases hgg : g' = g
      · -- The gripper carried this ball and no other.
        have hzero : .hand g ∉ (c.put b (.room r)).places := by
          have hcount := count_hand_drop hb r g
          have hcarried := h.carried g
          rw [if_pos rfl] at hcount
          exact List.count_eq_zero.1 (by omega)
        simp [GripperState.holds, hgg, hzero]
      · have hne : Place.hand g' ≠ .hand g := fun heq => hgg (Place.hand.inj heq)
        simp [GripperState.holds, mem_put hb hne, hgg]
    | ball b' p' => simp [holds_ball_put hb]
  · exact Nat.le_trans (Nat.le.intro (count_hand_drop hb r g')) (h.carried g')

end Shown

/-! ## The distance to the goal -/

/-- The balls still to be picked up in room `a`. -/
def waiting (c : GripperState) : Nat :=
  c.places.count (.room .a)

def carried (c : GripperState) : Nat :=
  c.places.count (.hand .left) + c.places.count (.hand .right)

/-- The ways between the rooms: every two balls not yet in room `b` cost one way there, with a way back in between. -/
def crossings : Room → Nat → Nat → Nat
  | .a, waiting, carried => 2 * ((waiting + carried + 1) / 2) - 1
  | .b, waiting, _ => 2 * ((waiting + 1) / 2)

/-- Two actions for each ball that waits, one for each that is carried, and the crossings. -/
def distance (c : GripperState) : Nat :=
  2 * c.waiting + c.carried + crossings c.robot c.waiting c.carried

theorem distance_eq (hr : c.robot = r) : c.distance = 2 * c.waiting + c.carried + crossings r c.waiting c.carried := by
  rw [distance, hr]

theorem distance_move (c : GripperState) (r : Room) :
    { c with robot := r : GripperState }.distance = 2 * c.waiting + c.carried + crossings r c.waiting c.carried :=
  rfl

theorem distance_eq_zero_iff : c.distance = 0 ↔ c.waiting = 0 ∧ c.carried = 0 := by
  unfold distance
  cases c.robot <;> simp only [crossings] <;> omega

theorem Shown.carried_le (h : Shown balls v c) : c.carried ≤ 2 :=
  Nat.add_le_add (h.carried .left) (h.carried .right)

/-- One crossing takes off one at most. -/
theorem distance_go (h : c.carried ≤ 2) :
    c.distance ≤ { c with robot := c.robot.other : GripperState }.distance + 1 := by
  have hmove := distance_move c c.robot.other
  rw [hmove, distance_eq rfl]
  cases c.robot <;> simp only [Room.other, crossings] <;> omega

theorem pick_counts (hb : c.places[b]? = some (.room r)) (g : Hand) :
    (c.put b (.hand g)).waiting + (if r = .a then 1 else 0) = c.waiting ∧
      (c.put b (.hand g)).carried = c.carried + 1 := by
  constructor
  · rw [waiting, waiting]
    simpa only [Place.room.injEq, reduceCtorEq, if_false, Nat.add_zero] using count_put hb (.hand g) (.room .a)
  · rw [carried, carried, count_hand_pick hb, count_hand_pick hb]
    cases g <;> simp only [reduceCtorEq, if_true, if_false] <;> omega

theorem drop_counts (hb : c.places[b]? = some (.hand g)) (r : Room) :
    (c.put b (.room r)).waiting = c.waiting + (if r = .a then 1 else 0) ∧
      (c.put b (.room r)).carried + 1 = c.carried := by
  constructor
  · rw [waiting, waiting]
    simpa only [Place.room.injEq, reduceCtorEq, if_false, Nat.add_zero] using count_put hb (.room r) (.room .a)
  · rw [carried, carried, ← count_hand_drop hb r .left, ← count_hand_drop hb r .right]
    cases g <;> simp only [reduceCtorEq, if_true, if_false] <;> omega

/-- To pick up a ball takes off one where it waits, and else puts on one. -/
theorem distance_pick (hb : c.places[b]? = some (.room r)) (hr : r = c.robot) (g : Hand) :
    (c.put b (.hand g)).distance + (if r = .a then 1 else 0) = c.distance + if r = .b then 1 else 0 := by
  obtain ⟨hwaiting, hcarried⟩ := pick_counts hb g
  have hrobot : (c.put b (.hand g)).robot = r := hr.symm
  unfold distance
  rw [hrobot, ← hr, hcarried, ← hwaiting]
  cases r <;> simp only [crossings, reduceCtorEq, if_true, if_false] <;> omega

theorem distance_drop (hb : c.places[b]? = some (.hand g)) (hr : r = c.robot) :
    (c.put b (.room r)).distance + (if r = .b then 1 else 0) = c.distance + if r = .a then 1 else 0 := by
  obtain ⟨hwaiting, hcarried⟩ := drop_counts hb r
  have hrobot : (c.put b (.room r)).robot = r := hr.symm
  unfold distance
  rw [hrobot, ← hr, hwaiting, ← hcarried]
  cases r <;> simp only [crossings, reduceCtorEq, if_true, if_false] <;> omega

theorem counts_eq_zero_iff : c.waiting = 0 ∧ c.carried = 0 ↔ ∀ p ∈ c.places, p = .room .b := by
  simp only [waiting, carried, Nat.add_eq_zero_iff, List.count_eq_zero]
  constructor
  · rintro ⟨ha, hleft, hright⟩ ((_ | _) | (_ | _)) hp
    · exact absurd hp ha
    · rfl
    · exact absurd hp hleft
    · exact absurd hp hright
  · intro h
    exact ⟨fun hp => (by cases h _ hp), fun hp => (by cases h _ hp), fun hp => by cases h _ hp⟩

/-- **In a goal, and there only, nothing is left to do.** -/
theorem Shown.goal_iff (h : Shown balls v c) : (gripper balls).isGoal v = true ↔ c.distance = 0 := by
  have hgoal : (gripper balls).isGoal v = true ↔ ∀ b < balls, c.places[b]? = some (.room .b) := by
    have hneg : (gripper balls).goalNeg = [] := rfl
    simp [Draft.isGoal, gripper_goal, hneg, gripperGoal, h.holds, GripperState.holds]
  rw [hgoal, distance_eq_zero_iff, counts_eq_zero_iff]
  constructor
  · intro hall p hp
    obtain ⟨b, hb⟩ := List.mem_iff_getElem?.1 hp
    have hlt : b < balls := h.length ▸ (List.getElem?_eq_some_iff.1 hb).1
    rw [hall b hlt, Option.some.injEq] at hb
    exact hb.symm
  · intro hall b hb
    have hlt : b < c.places.length := h.length.symm ▸ hb
    rw [List.getElem?_eq_getElem hlt, hall _ (List.getElem_mem hlt)]

/-- With room for a ball there is a free gripper. -/
theorem exists_free (h : c.carried < 2) : ∃ g, Place.hand g ∉ c.places := by
  by_cases hleft : c.places.count (.hand .left) = 0
  · exact ⟨.left, List.count_eq_zero.1 hleft⟩
  · refine ⟨.right, List.count_eq_zero.1 ?_⟩
    unfold carried at h
    omega

theorem exists_carried (h : 0 < c.carried) : ∃ (b : Nat) (g : Hand), c.places[b]? = some (.hand g) := by
  have hcount : ∃ g, 0 < c.places.count (.hand g) := by
    by_cases hleft : c.places.count (.hand .left) = 0
    · refine ⟨.right, ?_⟩
      unfold carried at h
      omega
    · exact ⟨.left, Nat.pos_of_ne_zero hleft⟩
  obtain ⟨g, hg⟩ := hcount
  obtain ⟨b, hb⟩ := List.mem_iff_getElem?.1 (List.count_pos_iff.1 hg)
  exact ⟨b, g, hb⟩

theorem exists_waiting (h : 0 < c.waiting) : ∃ b : Nat, c.places[b]? = some (.room .a) :=
  List.mem_iff_getElem?.1 (List.count_pos_iff.1 h)

theorem Shown.lt_balls (h : Shown balls v c) (hb : c.places[b]? = some p) : b < balls :=
  h.length ▸ (List.getElem?_eq_some_iff.1 hb).1

theorem Shown.cross {k : Nat} (h : Shown balls v c)
    (hd : { c with robot := c.robot.other : GripperState }.distance = k) :
    ∃ act ∈ gripperActs balls, act.draft.applicable v = true ∧
      ∃ c', Shown balls (act.draft.successor v) c' ∧ c'.distance = k :=
  ⟨.move c.robot, move_mem_gripperActs balls c.robot, h.go_applicable.2 rfl, _, h.go_successor rfl, hd⟩

/-- **As long as something is left to do, some action does a part of it**: in room `a` to pick up a ball as long as a
gripper is free and a ball waits, in room `b` to drop one, and else to cross. -/
theorem Shown.nearer {k : Nat} (h : Shown balls v c) (hk : c.distance = k + 1) :
    ∃ act ∈ gripperActs balls, act.draft.applicable v = true ∧
      ∃ c', Shown balls (act.draft.successor v) c' ∧ c'.distance = k := by
  have hcarried := h.carried_le
  cases hr : c.robot with
  | a =>
    by_cases hpick : 0 < c.waiting ∧ c.carried < 2
    · obtain ⟨b, hb⟩ := exists_waiting hpick.1
      obtain ⟨g, hg⟩ := exists_free hpick.2
      have hcount := distance_pick hb hr.symm g
      rw [if_pos rfl, if_neg nofun, hk] at hcount
      exact ⟨.pick b .a g, use_mem_gripperActs (h.lt_balls hb) (.inl rfl), h.pick_applicable.2 ⟨hb, hr.symm, hg⟩, _,
        h.pick_successor hb hg, Nat.succ.inj hcount⟩
    · refine h.cross ?_
      rw [distance_eq hr] at hk
      rw [distance_move, hr]
      simp only [crossings, Room.other] at hk ⊢
      omega
  | b =>
    by_cases hdrop : 0 < c.carried
    · obtain ⟨b, g, hb⟩ := exists_carried hdrop
      have hcount := distance_drop hb hr.symm
      rw [if_pos rfl, if_neg nofun, hk] at hcount
      exact ⟨.drop b .b g, use_mem_gripperActs (h.lt_balls hb) (.inr rfl), h.drop_applicable.2 ⟨hb, hr.symm⟩, _,
        h.drop_successor hb .b, Nat.succ.inj hcount⟩
    · refine h.cross ?_
      rw [distance_eq hr] at hk
      rw [distance_move, hr]
      simp only [crossings, Room.other] at hk ⊢
      omega

end GripperState

/-- **Every action keeps to the distance.** -/
theorem gripper_distance (balls : Nat) :
    (gripper balls).Distance (fun v k => ∃ c, GripperState.Shown balls v c ∧ c.distance = k) where
  goal := by
    rintro v k ⟨c, hc, rfl⟩
    exact hc.goal_iff
  step := by
    rintro v k a ⟨c, hc, rfl⟩ ha happ
    rw [gripper_actions] at ha
    obtain ⟨act, -, rfl⟩ := List.mem_map.1 ha
    cases act with
    | move r =>
      obtain rfl := hc.go_applicable.1 happ
      exact ⟨_, ⟨_, hc.go_successor rfl, rfl⟩, GripperState.distance_go hc.carried_le⟩
    | pick b r g =>
      obtain ⟨hb, hr, hg⟩ := hc.pick_applicable.1 happ
      have hcount := GripperState.distance_pick hb hr g
      refine ⟨_, ⟨_, hc.pick_successor hb hg, rfl⟩, ?_⟩
      split at hcount <;> split at hcount <;> omega
    | drop b r g =>
      obtain ⟨hb, hr⟩ := hc.drop_applicable.1 happ
      have hcount := GripperState.distance_drop hb hr
      refine ⟨_, ⟨_, hc.drop_successor hb r, rfl⟩, ?_⟩
      split at hcount <;> split at hcount <;> omega
  nearer := by
    rintro v k ⟨c, hc, hk⟩
    obtain ⟨act, hact, happ, hnext⟩ := hc.nearer hk
    rw [gripper_actions]
    exact ⟨act.draft, List.mem_map_of_mem hact, happ, hnext⟩

/-- At the start all balls wait in the room of the robot. -/
theorem gripper_start (balls : Nat) :
    GripperState.Shown balls (gripper balls).initial ⟨.a, List.replicate balls (.room .a)⟩ where
  holds f := by
    simp only [Draft.initial, gripper_init, List.mem_map_of_injective GripperFact.name_injective]
    cases f with
    | robot r => simp [gripperInit, GripperState.holds]
    | free g => cases g <;> simp [gripperInit, GripperState.holds]
    | ball b p => simp [gripperInit, GripperState.holds, List.getElem?_replicate, eq_comm]
  length := List.length_replicate
  carried g := by simp [List.count_replicate]

/-- **An even number of balls is carried over in pairs.** -/
theorem gripper_built {balls : Nat} (heven : 2 ∣ balls) (hpos : 2 ≤ balls) :
    ∃ p, (gripper balls).build = .ok p ∧ p.Shortest (3 * balls - 1) := by
  obtain ⟨p, hp⟩ := (gripperKinds balls).exists_build
  have hwaiting : GripperState.waiting ⟨.a, List.replicate balls (.room .a)⟩ = balls := List.count_replicate_self
  have hcarried : GripperState.carried ⟨.a, List.replicate balls (.room .a)⟩ = 0 := by
    simp [GripperState.carried, List.count_replicate]
  refine ⟨p, hp, (gripper_distance balls).shortest hp ⟨_, gripper_start balls, ?_⟩⟩
  rw [GripperState.distance, hwaiting, hcarried, GripperState.crossings]
  omega

/-! ## The three families that scale -/

/-- **The lengths of shortest plans**: of a corridor its length, of a grid the way between its corners, and of an even
number of balls three actions for each, less the way back that is not needed. -/
theorem families_shortest :
    (∀ length, ∃ p, (corridor length).build = .ok p ∧ p.Shortest length) ∧
    (∀ width height, 1 ≤ width → 1 ≤ height →
      ∃ p, (grid width height).build = .ok p ∧ p.Shortest (width + height - 2)) ∧
    ∀ balls, 2 ∣ balls → 2 ≤ balls → ∃ p, (gripper balls).build = .ok p ∧ p.Shortest (3 * balls - 1) :=
  ⟨corridor_built, fun _ _ => grid_built, fun _ => gripper_built⟩

theorem families_shortest_small :
    (∃ p, (corridor 6).build = .ok p ∧ p.Shortest 6) ∧ (∃ p, (grid 4 3).build = .ok p ∧ p.Shortest 5) ∧
      ∃ p, (gripper 4).build = .ok p ∧ p.Shortest 11 :=
  ⟨families_shortest.1 6, families_shortest.2.1 4 3 (by decide) (by decide),
    families_shortest.2.2 4 (by decide) (by decide)⟩

end Families
end GroundPlanner
