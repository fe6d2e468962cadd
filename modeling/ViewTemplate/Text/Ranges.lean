namespace ViewTemplate.Text

/-- Closed ranges of code points, in increasing order. -/
abbrev Ranges := List (Nat × Nat)

/-- The search stops at the first range that begins beyond the code point. -/
def Ranges.contain : Ranges → Nat → Bool
  | [], _ => false
  | (low, high) :: rest, n => if n < low then false else n ≤ high || Ranges.contain rest n

/-- Every `step`-th code point from `first` to `last` moves by `shift`. -/
structure MapRun where
  first : Nat
  last : Nat
  step : Nat
  shift : Int

def MapRun.find? : List MapRun → Nat → Option Nat
  | [], _ => none
  | run :: rest, n =>
    if n < run.first then none
    else if n ≤ run.last then
      if (n - run.first) % run.step = 0 then some (n + run.shift).toNat else none
    else MapRun.find? rest n

end ViewTemplate.Text
