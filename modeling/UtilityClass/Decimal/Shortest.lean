import UtilityClass.Text.Natural

/-!
# Shortest decimals

A positive binary floating-point number `mantissa * 2 ^ exponent` is written
with the fewest decimal digits that read back to it.  The numbers that read
back to it form an interval around it, whose ends belong to it exactly when
the mantissa is even.  The shortest decimal is a point of the coarsest decimal
grid that meets the interval, and of two such points the nearer one.  All
comparisons are between natural numbers, so nothing is rounded on the way.
-/

namespace UtilityClass.Decimal

/-- The positive number `mantissa * 2 ^ exponent`, with the place of its lower
neighbour: `tight` when that neighbour is only half as far as the upper one. -/
structure Binary where
  mantissa : Nat
  exponent : Int
  tight : Bool

namespace Binary

/-- Splits the 63 low bits of a finite double.  The value is positive unless
all of them are zero. -/
def ofBits (bits : Nat) : Binary :=
  let field : Nat := bits / Nat.pow 2 52 % Nat.pow 2 11
  let fraction : Nat := bits % Nat.pow 2 52
  if field = 0 then ⟨fraction, -1074, false⟩
  else ⟨fraction + Nat.pow 2 52, (field : Int) - 1075, fraction = 0 && 1 < field⟩

/-- `10 ^ place` and a quarter of `2 ^ exponent` as multiples of one unit. -/
def units (binary : Binary) (place : Int) : Nat × Nat :=
  let quarter := binary.exponent - 2
  (Nat.pow 10 place.toNat * Nat.pow 2 (-quarter).toNat,
    Nat.pow 2 quarter.toNat * Nat.pow 10 (-place).toNat)

/-- Whether `digits * 10 ^ place` reads back to the number. -/
def readsBack (binary : Binary) (place : Int) (digits : Nat) : Bool :=
  let (grid, quarter) := binary.units place
  let value := digits * grid
  let low := (4 * binary.mantissa - if binary.tight then 1 else 2) * quarter
  let high := (4 * binary.mantissa + 2) * quarter
  if binary.mantissa % 2 = 0 then low ≤ value && value ≤ high
  else low < value && value < high

/-- The point of the grid `10 ^ place` that is nearest to the number among those
that read back to it.  Of two equally near points the even one is taken. -/
def nearest? (binary : Binary) (place : Int) : Option Nat :=
  let (grid, quarter) := binary.units place
  let exact := 4 * binary.mantissa * quarter
  let below := exact / grid
  let above := below + 1
  match binary.readsBack place below, binary.readsBack place above with
  | true, false => some below
  | false, true => some above
  | false, false => none
  | true, true =>
    let toBelow := exact - below * grid
    let toAbove := above * grid - exact
    if toBelow < toAbove then some below
    else if toAbove < toBelow then some above
    else if below % 2 = 0 then some below else some above

/-- The fewest digits that read back to the number, and the place of the last
one.  The places run from above the largest double to below the smallest. -/
def shortest (binary : Binary) : Nat × Int :=
  ((List.range 700).findSome? fun (step : Nat) =>
    let place : Int := 310 - (step : Int)
    (binary.nearest? place).map fun digits => (digits, place)).getD (0, 0)

end Binary

/-- How a floating-point number is laid out: for which places of the first digit
it is written in full. -/
structure Layout where
  leastPlain : Int
  greatestPlain : Int

/-- Numbers from `1e-5` up to below `1e16` are written in full. -/
def plainLayout : Layout := ⟨-5, 15⟩

/-- Writes `digits * 10 ^ place`.  In full it has at least one digit on either
side of the point.  Otherwise the point follows the first digit, if there are
more, and the exponent has a sign and as few digits as it needs. -/
def Layout.write (layout : Layout) (digits : Nat) (place : Int) : Text :=
  let written := Text.ofNatural digits
  let leading : Int := place + written.length - 1
  if layout.leastPlain ≤ leading ∧ leading ≤ layout.greatestPlain then
    if leading < 0 then
      '0' :: '.' :: (List.replicate (-leading - 1).toNat '0' ++ written)
    else
      let whole := (leading + 1).toNat
      let padded := written ++ List.replicate (whole - written.length) '0'
      let fraction := written.drop whole
      padded.take whole ++ '.' :: (if fraction = [] then ['0'] else fraction)
  else
    let fraction := written.drop 1
    written.take 1 ++ (if fraction = [] then [] else '.' :: fraction) ++
      'e' :: (if leading < 0 then '-' else '+') :: Text.ofNatural leading.natAbs

/-- Writes a finite double, always with a point or an exponent. -/
def ofFloat (value : Float) : Text :=
  let bits := value.toBits.toNat
  let magnitude := bits % Nat.pow 2 63
  let sign : Text := if bits < Nat.pow 2 63 then [] else ['-']
  if magnitude = 0 then sign ++ ['0', '.', '0']
  else
    let (digits, place) := (Binary.ofBits magnitude).shortest
    sign ++ plainLayout.write digits place

end UtilityClass.Decimal
