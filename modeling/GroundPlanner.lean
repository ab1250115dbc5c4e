import GroundPlanner.Main
import GroundPlanner.Proofs.AStar.Cut
import GroundPlanner.Proofs.AStar.Duplicates
import GroundPlanner.Proofs.AStar.LoopFree
import GroundPlanner.Proofs.AStar.Rising
import GroundPlanner.Proofs.AStar.Statistics
import GroundPlanner.Proofs.Checked
import GroundPlanner.Proofs.Comparison
import GroundPlanner.Proofs.Comparison.Table
import GroundPlanner.Proofs.Families.Gripper
import GroundPlanner.Proofs.Families.Toggles
import GroundPlanner.Proofs.Mentions
import GroundPlanner.Proofs.Random
import GroundPlanner.Proofs.Relaxation.DeleteRelaxation
import GroundPlanner.Proofs.Relaxation.Overflow
import GroundPlanner.Proofs.Relaxation.Passes
import GroundPlanner.Proofs.Relaxation.PlanLength
import GroundPlanner.Proofs.Renaming.FactOrder
import GroundPlanner.Proofs.Rollouts.Accounting
import GroundPlanner.Proofs.Rollouts.Streams
import GroundPlanner.Proofs.Search.Service
import GroundPlanner.Proofs.State.Histories
import GroundPlanner.Proofs.Successor
import GroundPlanner.Proofs.Validation
