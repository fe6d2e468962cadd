namespace ViewTemplate.Decimal

def natOfDigits (cs : List Char) : Nat :=
  cs.foldl (fun n c => 10 * n + (c.toNat - '0'.toNat)) 0

def splitSign : List Char → Bool × List Char
  | '+' :: rest => (false, rest)
  | '-' :: rest => (true, rest)
  | cs => (false, cs)

/-- At least one digit, after an optional sign. -/
def readInt? (cs : List Char) : Option Int :=
  let (negative, digits) := splitSign cs
  if digits.isEmpty || !digits.all Char.isDigit then none
  else some (if negative then -(natOfDigits digits : Int) else natOfDigits digits)

def word? (n : Int) : Option Int64 :=
  if Int64.minValue.toInt ≤ n ∧ n ≤ Int64.maxValue.toInt then some (Int64.ofInt n) else none

def readWord? (cs : List Char) : Option Int64 := readInt? cs >>= word?

/-- `coefficient * 10 ^ exponent` as the nearest double. A power that no finite double can have is
not computed. -/
def nearest (negative : Bool) (coefficient : Nat) (exponent : Int) : Float :=
  let size : Int := exponent + (Nat.toDigits 10 coefficient).length
  let x : Float :=
    if coefficient = 0 || size < -330 then 0.0
    else if 310 < size then 1.0 / 0.0
    else Float.ofScientific coefficient (exponent < 0) exponent.natAbs
  if negative then -x else x

/-- Appends digits to a coefficient as long as it stays within 64 bits; the digits behind are
left. -/
def appendDigits (coefficient : Nat) : List Char → Nat × List Char
  | [] => (coefficient, [])
  | c :: rest =>
    let next := 10 * coefficient + (c.toNat - '0'.toNat)
    if next < UInt64.size then appendDigits next rest else (coefficient, c :: rest)

/-- The greatest power of ten that is a double. -/
def greatestPower : Nat := 308

/-- `x * 10 ^ exponent` in the arithmetic of doubles, one rounding a step: one factor or one divisor
where a double holds the power, and further divisors for smaller powers. None when the result is
beyond the doubles. -/
def scale? (x : Float) (exponent : Int) : Option Float :=
  if x == 0.0 then some x
  else if exponent < -greatestPower then
    scale? (x / nearest false 1 greatestPower) (exponent + greatestPower)
  else if exponent < 0 then some (x / nearest false 1 exponent.natAbs)
  else if exponent ≤ greatestPower then
    let y := x * nearest false 1 exponent
    if y.isInf then none else some y
  else none
termination_by exponent.natAbs
decreasing_by
  simp only [greatestPower] at *
  omega

/-- An exponent: a letter `e`, an optional sign and at least one digit. Nothing is exponent zero. -/
def readExponent? : List Char → Option Int
  | [] => some 0
  | c :: rest => if c = 'e' || c = 'E' then readInt? rest else none

/-- Digits with at most one point among or beside them, at least one digit, and an optional
exponent. -/
def readFloat? (cs : List Char) : Option Float :=
  let (negative, body) := splitSign cs
  let whole := body.takeWhile Char.isDigit
  let rest := body.dropWhile Char.isDigit
  let (fraction, tail) :=
    match rest with
    | '.' :: more => (more.takeWhile Char.isDigit, more.dropWhile Char.isDigit)
    | _ => ([], rest)
  if whole.isEmpty && fraction.isEmpty then none
  else (readExponent? tail).map fun e =>
    nearest negative (natOfDigits (whole ++ fraction)) (e - fraction.length)

end ViewTemplate.Decimal
