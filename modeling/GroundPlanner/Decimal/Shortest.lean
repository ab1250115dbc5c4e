import GroundPlanner.Decimal.Binary
/-!
# The shortest decimal that reads back

A double stands for every real that rounds to it: those between the midpoints to its neighbours, the
midpoints included exactly when its mantissa is even.  `digits` looks for the coarsest decimal grid with a
point in that interval and takes the point nearest to the value.  `shortest` writes it positionally, never
with an exponent.
-/
namespace GroundPlanner
namespace Decimal

/-- The reals `lower/4 · 2^exponent` to `upper/4 · 2^exponent` that round to `mantissa · 2^exponent`. -/
structure Interval where
  lower : Nat
  value : Nat
  upper : Nat
  closed : Bool

/-- Quarter units of the last place, so that both midpoints are whole.  Below a power of two the lower
neighbour is half as far away, except at the bottom of the exponent range. -/
def interval (mantissa : Nat) (exponent : Int) : Interval where
  lower := 4 * mantissa - (if mantissa = Binary.leadingBit ∧ -1074 < exponent then 1 else 2)
  value := 4 * mantissa
  upper := 4 * mantissa + 2
  closed := mantissa % 2 == 0

/-- The point of the grid `scale` nearest to `value` among those within the interval; all four numbers are
measured in one unit. -/
def gridPoint (lower value upper scale : Nat) (closed : Bool) : Option Nat :=
  let below := value / scale
  let inside (d : Nat) : Bool :=
    0 < d && (if closed then lower ≤ d * scale && d * scale ≤ upper
      else lower < d * scale && d * scale < upper)
  match inside below, inside (below + 1) with
  | true, true =>
    let down := value - below * scale
    let up := (below + 1) * scale - value
    some (if down < up ∨ (down = up ∧ below % 2 = 0) then below else below + 1)
  | true, false => some below
  | false, true => some (below + 1)
  | false, false => none

/-- The point of the grid `10^k` for the interval of `mantissa · 2^exponent`. -/
def onGrid (mantissa : Nat) (exponent k : Int) : Option Nat :=
  let i := interval mantissa exponent
  let factor := powerOfTen (-k).toNat <<< (exponent - 2).toNat
  let scale := powerOfTen k.toNat <<< (2 - exponent).toNat
  gridPoint (i.lower * factor) (i.value * factor) (i.upper * factor) scale i.closed

/-- Tries the grids `10^k`, `10^(k-1)`, … in turn. -/
def coarsest (mantissa : Nat) (exponent : Int) : Nat → Int → Nat × Int
  | 0, k => (0, k)
  | fuel + 1, k =>
    match onGrid mantissa exponent k with
    | some d => (d, k)
    | none => coarsest mantissa exponent fuel (k - 1)

/-- Digits and decimal exponent of `mantissa · 2^exponent` for a mantissa that is not zero.  The first grid
is coarser than the value, because `2^e` is below `10^(e · 0.30103 + 1)`; seventeen digits always suffice,
so the search ends within twenty-two grids. -/
def digits (mantissa : Nat) (exponent : Int) : Nat × Int :=
  let top := ((mantissa.log2 : Int) + 1 + exponent) * 30103 / 100000 + 2
  coarsest mantissa exponent 22 top

/-- The decimal `d · 10^k` without an exponent. -/
def positional (d : Nat) (k : Int) : String :=
  let ds := Nat.toDigits 10 d
  if 0 ≤ k then String.ofList (ds ++ List.replicate k.toNat '0')
  else
    let places := (-k).toNat
    let padded := List.replicate (places + 1 - ds.length) '0' ++ ds
    let whole := padded.take (padded.length - places)
    String.ofList (whole ++ '.' :: padded.drop (padded.length - places))

/-- The shortest text that reads back as the same double. -/
def shortest (x : Float) : String :=
  match Binary.ofFloat x with
  | .finite negative 0 _ => signed negative "0"
  | .finite negative m e =>
    let (d, k) := digits m e
    signed negative (positional d k)
  | b => (special b).getD ""

end Decimal
end GroundPlanner
