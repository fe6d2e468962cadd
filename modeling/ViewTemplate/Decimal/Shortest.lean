namespace ViewTemplate.Decimal

/-- A double without its sign; a finite one is `mantissa * 2 ^ exponent`. -/
inductive Magnitude where
  | nan
  | infinite
  | finite (mantissa : Nat) (exponent : Int)

/-- The least mantissa of a number that is not subnormal. -/
def leastMantissa : Nat := Nat.pow 2 52

/-- The fields of a double; subnormal numbers share the exponent of the smallest normal one. -/
def magnitude (x : Float) : Magnitude :=
  let bits := x.toBits.toNat
  let field : Nat := bits / leastMantissa % 2048
  let fraction : Nat := bits % leastMantissa
  if field = 2047 then (if fraction = 0 then .infinite else .nan)
  else if field = 0 then .finite fraction (-1074)
  else .finite (leastMantissa + fraction) ((field : Int) - 1075)

def isNegative (x : Float) : Bool := Nat.pow 2 63 ≤ x.toBits.toNat

/-- The whole number that a double is cut to, toward zero and within the 64-bit integers; not a
number is zero. -/
def truncated (x : Float) : Int64 :=
  match magnitude x with
  | .nan => 0
  | .infinite => if isNegative x then Int64.minValue else Int64.maxValue
  | .finite m e =>
    let n : Nat := m * Nat.pow 2 e.toNat / Nat.pow 2 (-e).toNat
    Int64.ofInt <|
      if isNegative x then max (-n) Int64.minValue.toInt else min n Int64.maxValue.toInt

def ofWord (n : Int64) : Float :=
  let x := n.toInt.natAbs.toUInt64.toFloat
  if n.toInt < 0 then -x else x

/-- The number `0.d₁d₂…dₙ * 10 ^ point`. -/
structure Digits where
  digits : List Char
  point : Int

/-- Which of two neighbours on a grid is taken when they are equally near. -/
inductive Tie where
  | up
  | toEven

/-- Whether the upper of two neighbours is taken at a tie. -/
def Tie.goesUp (t : Tie) (below : Nat) : Bool :=
  match t with
  | .up => true
  | .toEven => below % 2 = 1

def powerOfTen (k : Int) : Nat × Nat := (Nat.pow 10 k.toNat, Nat.pow 10 (-k).toNat)

/-- The reals that round to `mantissa * 2 ^ exponent`, in units of `unit.1 / unit.2`: from `low` to
`high`, with both ends when `closed`. -/
structure Interval where
  low : Nat
  value : Nat
  high : Nat
  unit : Nat × Nat
  closed : Bool

/-- The gap below a power of two is half as wide as the one above, except at the smallest
exponent. -/
def roundingInterval (mantissa : Nat) (exponent : Int) : Interval where
  low := if mantissa = leastMantissa ∧ exponent ≠ -1074 then 4 * mantissa - 1 else 4 * mantissa - 2
  value := 4 * mantissa
  high := 4 * mantissa + 2
  unit := (Nat.pow 2 (exponent - 2).toNat, Nat.pow 2 (2 - exponent).toNat)
  closed := mantissa % 2 = 0

def Interval.holds (i : Interval) (c : Nat) (k : Int) : Bool :=
  let (num, den) := powerOfTen k
  let x := c * num * i.unit.2
  let low := i.low * i.unit.1 * den
  let high := i.high * i.unit.1 * den
  if i.closed then low ≤ x && x ≤ high else low < x && x < high

/-- The least `k` near the estimate with the value below `10 ^ k`. -/
def Interval.point (i : Interval) : Int :=
  let size : Int := Nat.log2 (i.value * i.unit.1) - Nat.log2 i.unit.2
  let guess := size * 30103 / 100000
  let below (k : Int) : Bool :=
    let (num, den) := powerOfTen k
    i.value * i.unit.1 * den < num * i.unit.2
  ([guess - 1, guess, guess + 1, guess + 2].find? below).getD (guess + 3)

/-- The nearer of the two neighbours of the value on the grid `10 ^ k` that lie in the interval. -/
def Interval.onGrid (i : Interval) (tie : Tie) (k : Int) : Option Nat :=
  let (num, den) := powerOfTen k
  let top := i.value * i.unit.1 * den
  let bottom := num * i.unit.2
  let below := top / bottom
  let left := top % bottom
  let upper := bottom < 2 * left || (bottom = 2 * left && tie.goesUp below)
  match i.holds below k, i.holds (below + 1) k with
  | true, true => some (if upper then below + 1 else below)
  | true, false => some below
  | false, true => some (below + 1)
  | false, false => none

/-- Tries `n` digits, then more, up to seventeen. -/
def Interval.search (i : Interval) (tie : Tie) (point : Int) (n : Nat) : Nat → Digits
  | 0 => ⟨['0'], point⟩
  | fuel + 1 =>
    match i.onGrid tie (point - n) with
    | some c =>
      if c = Nat.pow 10 n then ⟨['1'], point + 1⟩ else ⟨Nat.toDigits 10 c, point⟩
    | none => i.search tie point (n + 1) fuel

/-- The shortest digits of `mantissa * 2 ^ exponent`, for a positive mantissa. -/
def shortest (tie : Tie) (mantissa : Nat) (exponent : Int) : Digits :=
  let i := roundingInterval mantissa exponent
  i.search tie i.point 1 17

end ViewTemplate.Decimal
