import ViewTemplate.Decimal.Shortest

namespace ViewTemplate.Decimal

/-- The decisions of a number format. A number `0.d₁d₂… * 10 ^ point` is written positionally when
`point` lies between the two bounds, and with an exponent otherwise. -/
structure Layout where
  leastPoint : Option Int
  greatestPoint : Option Int
  /-- Written after a number without fraction. -/
  wholeMark : List Char
  /-- Written between the mark of the exponent and an exponent that is not negative. -/
  exponentPlus : List Char
  infinity : List Char
  minusInfinity : List Char
  nan : List Char
  tie : Tie

/-- Never an exponent, no fraction where there is none, and a half goes up. -/
def plain : Layout := ⟨none, none, [], [], "inf".toList, "-inf".toList, "NaN".toList, .up⟩

/-- JSON: positional from `1e-5` up to below `1e16`, always with a fraction there, and a half goes
to the even digit. What JSON cannot say is null. -/
def json : Layout :=
  ⟨some (-4), some 16, ".0".toList, ['+'], "null".toList, "null".toList, "null".toList, .toEven⟩

/-- A literal in a message: positional from `1e-4` up to below `1e16`; a half goes up. -/
def literal : Layout :=
  ⟨some (-3), some 16, ".0".toList, [], "inf".toList, "-inf".toList, "NaN".toList, .up⟩

def zeros (n : Nat) : List Char := List.replicate n '0'

def Digits.positional (d : Digits) (wholeMark : List Char) : List Char :=
  if d.point ≤ 0 then '0' :: '.' :: zeros (-d.point).toNat ++ d.digits
  else if d.digits.length ≤ d.point.toNat then
    d.digits ++ zeros (d.point.toNat - d.digits.length) ++ wholeMark
  else d.digits.take d.point.toNat ++ '.' :: d.digits.drop d.point.toNat

def Digits.scientific (d : Digits) (plus : List Char) : List Char :=
  let fraction := d.digits.drop 1
  let power := d.point - 1
  d.digits.take 1 ++ (if fraction.isEmpty then [] else '.' :: fraction) ++ 'e' ::
    (if power < 0 then '-' :: Nat.toDigits 10 power.natAbs
     else plus ++ Nat.toDigits 10 power.natAbs)

def Layout.positionalAt (l : Layout) (point : Int) : Bool :=
  l.leastPoint.all (· ≤ point) && l.greatestPoint.all (point ≤ ·)

def Layout.write (l : Layout) (x : Float) : String :=
  let sign := if isNegative x then ['-'] else []
  String.ofList <|
    match magnitude x with
    | .nan => l.nan
    | .infinite => if isNegative x then l.minusInfinity else l.infinity
    | .finite 0 _ => sign ++ '0' :: l.wholeMark
    | .finite m e =>
      let d := shortest l.tie m e
      sign ++
        if l.positionalAt d.point then d.positional l.wholeMark else d.scientific l.exponentPlus

end ViewTemplate.Decimal
