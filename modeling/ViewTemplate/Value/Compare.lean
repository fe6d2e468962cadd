import ViewTemplate.Value.Number

namespace ViewTemplate.Value

def sameNumber (a b : Number) : Bool := a.compare b == some .eq

/-- Texts that both denote numbers are equal when the numbers are. -/
def looseEqText (a b : String) : Bool :=
  match Number.ofText? a, Number.ofText? b with
  | some x, some y => sameNumber x y
  | _, _ => a = b

/-- A number equals a text that denotes it, or that is its output. -/
def looseEqNumberText (n : Number) (s : String) : Bool :=
  match Number.ofText? s with
  | some y => sameNumber n y
  | none => n.toValue.output = s

mutual

/-- The comparison of `==`: a truth value compares by truth, null equals what is false, maps compare
without regard to order. -/
def looseEq : Value → Value → Bool
  | .null, .null => true
  | .bool a, b => a = b.truthy
  | a, .bool b => b = a.truthy
  | .null, .string s => s = ""
  | .string s, .null => s = ""
  | .null, b => !b.truthy
  | a, .null => !a.truthy
  | .string a, .string b => looseEqText a b
  | .int a, .string s => looseEqNumberText (.int a) s
  | .float a, .string s => looseEqNumberText (.float a) s
  | .string s, .int b => looseEqNumberText (.int b) s
  | .string s, .float b => looseEqNumberText (.float b) s
  | .int a, .int b => sameNumber (.int a) (.int b)
  | .int a, .float b => sameNumber (.int a) (.float b)
  | .float a, .int b => sameNumber (.float a) (.int b)
  | .float a, .float b => sameNumber (.float a) (.float b)
  | .list a, .list b => looseEqItems a b
  | .map a, .map b => a.length = b.length && looseEqEntries a b
  | .list a, .map b => a.isEmpty && b.isEmpty
  | .map a, .list b => a.isEmpty && b.isEmpty
  | _, _ => false
termination_by structural a _ => a

def looseEqItems : List Value → List Value → Bool
  | [], [] => true
  | x :: xs, y :: ys => looseEq x y && looseEqItems xs ys
  | _, _ => false
termination_by structural a _ => a

/-- Every entry of the first map has a partner under its key in the second. -/
def looseEqEntries : List (String × Value) → List (String × Value) → Bool
  | [], _ => true
  | (k, x) :: rest, b =>
    (match Entries.get? b k with
      | some y => looseEq x y
      | none => false) && looseEqEntries rest b
termination_by structural a _ => a

end

mutual

/-- The comparison of `===`: the same type and the same value, maps in the same order. -/
def identical : Value → Value → Bool
  | .null, .null => true
  | .bool a, .bool b => a = b
  | .int a, .int b => a = b
  | .float a, .float b => a == b
  | .string a, .string b => a = b
  | .list a, .list b => identicalItems a b
  | .map a, .map b => identicalEntries a b
  | _, _ => false
termination_by structural a _ => a

def identicalItems : List Value → List Value → Bool
  | [], [] => true
  | x :: xs, y :: ys => identical x y && identicalItems xs ys
  | _, _ => false
termination_by structural a _ => a

def identicalEntries : List (String × Value) → List (String × Value) → Bool
  | [], [] => true
  | (k, x) :: xs, (l, y) :: ys => k = l && identical x y && identicalEntries xs ys
  | _, _ => false
termination_by structural a _ => a

end

mutual

/-- Equality as data: like `identical`, but the order of a map's entries does not count. -/
def same : Value → Value → Bool
  | .null, .null => true
  | .bool a, .bool b => a = b
  | .int a, .int b => a = b
  | .float a, .float b => a == b
  | .string a, .string b => a = b
  | .list a, .list b => sameItems a b
  | .map a, .map b => a.length = b.length && sameEntries a b
  | _, _ => false
termination_by structural a _ => a

def sameItems : List Value → List Value → Bool
  | [], [] => true
  | x :: xs, y :: ys => same x y && sameItems xs ys
  | _, _ => false
termination_by structural a _ => a

def sameEntries : List (String × Value) → List (String × Value) → Bool
  | [], _ => true
  | (k, x) :: rest, b =>
    (match Entries.get? b k with
      | some y => same x y
      | none => false) && sameEntries rest b
termination_by structural a _ => a

end

def compareTexts (a b : String) : Ordering := compareOfLessAndEq a b

/-- The order of `<` and its kin. Truth values and null compare by truth, arrays by size and above
all else; none where not a number takes part. -/
def looseCompare (a b : Value) : Option Ordering :=
  match a, b with
  | .null, .string s => some (compareTexts "" s)
  | .string s, .null => some (compareTexts s "")
  | .bool _, _ | .null, _ | _, .bool _ | _, .null => some (Ord.compare a.truthy b.truthy)
  | .list _, .list _ | .list _, .map _ | .map _, .list _ | .map _, .map _ =>
    some (Ord.compare (a.length?.getD 0) (b.length?.getD 0))
  | .list _, _ | .map _, _ => some .gt
  | _, .list _ | _, .map _ => some .lt
  | .string s, .string t =>
    match Number.ofText? s, Number.ofText? t with
    | some x, some y => x.compare y
    | _, _ => some (compareTexts s t)
  | _, _ =>
    match a.number?, b.number? with
    | some x, some y => x.compare y
    | _, _ => some (compareTexts a.output b.output)

end ViewTemplate.Value
