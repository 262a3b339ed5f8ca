/-!
The shortest decimal that reads back as a given double. A positive double is taken apart into
`significand * 2 ^ exponent`; the reals that round to it reach half a unit up and half a unit down,
or a quarter down where the next smaller double is nearer, ends included when the significand is
even. The grids of 1, 2, ... 17 significant digits are tried in turn, and of each only the two
neighbours of the double: a grid with a point among those reals has a neighbour among them.
All tests are exact comparisons of natural numbers.
-/
namespace WhereClause.Decimal

/-- A positive double. The double below it is nearer than the one above when `nearBelow` holds. -/
structure Binary where
  significand : Nat
  exponent : Int
  nearBelow : Bool

structure Scaled where
  coefficient : Nat
  exponent : Int

inductive Tie where
  | up
  | even

/-- Takes the magnitude of a finite double apart; zero has none. The 52 lower bits are the fraction,
and the 11 bits above them the exponent. -/
def Binary.ofFloat? (x : Float) : Option Binary :=
  let bits := x.toBits.toNat
  let unit : Nat := 0x10000000000000
  let biased := bits / unit % 0x800
  let fraction := bits % unit
  if biased = 0 then
    if fraction = 0 then none else some ⟨fraction, -1074, false⟩
  else
    some ⟨fraction + unit, Int.ofNat biased - 1075, fraction = 0 && 1 < biased⟩

/-- The power of a base, or 1 where the exponent is negative. -/
def power (base : Nat) (exponent : Int) : Nat := Nat.pow base exponent.toNat

/-- A grid point `c * 10 ^ grid` against the double, as three numbers in one unit: the point, the
double and a quarter of the distance to the double above. -/
def Binary.onGrid (b : Binary) (grid : Int) (c : Nat) : Nat × Nat × Nat :=
  let quarter := power 2 b.exponent * power 10 (-grid)
  (4 * c * power 10 grid * power 2 (-b.exponent), 4 * b.significand * quarter, quarter)

def Binary.reads (b : Binary) (grid : Int) (c : Nat) : Bool :=
  let (point, double, quarter) := b.onGrid grid c
  let below := (if b.nearBelow then 1 else 2) * quarter
  if b.significand % 2 = 0 then
    double ≤ point + below && point ≤ double + 2 * quarter
  else
    double < point + below && point < double + 2 * quarter

def Binary.floor (b : Binary) (grid : Int) : Nat :=
  b.significand * power 2 b.exponent * power 10 (-grid) / (power 2 (-b.exponent) * power 10 grid)

def Binary.nearer (tie : Tie) (b : Binary) (grid : Int) (c : Nat) : Nat :=
  let (low, double, _) := b.onGrid grid c
  let (high, _, _) := b.onGrid grid (c + 1)
  if double - low < high - double then c
  else if high - double < double - low then c + 1
  else match tie with
    | .up => c + 1
    | .even => if c % 2 = 0 then c else c + 1

def Binary.onGrid? (tie : Tie) (b : Binary) (grid : Int) : Option Nat :=
  let c := b.floor grid
  match b.reads grid c, b.reads grid (c + 1) with
  | true, true => some (b.nearer tie grid c)
  | true, false => some c
  | false, true => some (c + 1)
  | false, false => none

/-- The number of digits before the point, negative for each zero that follows it. Every positive
double is above `10 ^ (-400)`. -/
def Binary.magnitude (b : Binary) : Int :=
  (Nat.toDigits 10 (b.floor (-400))).length - 400

def Scaled.reduce (d : Scaled) : Scaled :=
  if d.coefficient ≠ 0 ∧ d.coefficient % 10 = 0 then
    Scaled.reduce ⟨d.coefficient / 10, d.exponent + 1⟩
  else
    d
termination_by d.coefficient
decreasing_by omega

/-- The decimal of fewest digits that reads back as the double, the nearest one of them. Seventeen
digits always suffice. -/
def Binary.shortest (tie : Tie) (b : Binary) : Scaled :=
  let grids := (List.range 17).map fun n => b.magnitude - (n + 1 : Nat)
  let found := grids.findSome? fun grid => (b.onGrid? tie grid).map fun c => Scaled.mk c grid
  (found.getD ⟨b.floor (b.magnitude - 17), b.magnitude - 17⟩).reduce

end WhereClause.Decimal
