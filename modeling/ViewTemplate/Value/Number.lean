import ViewTemplate.Decimal.Reading
import ViewTemplate.Text.Blank
import ViewTemplate.Value.Basic

namespace ViewTemplate

inductive Number where
  | int (n : Int64)
  | float (x : Float)

namespace Number

def toFloat : Number → Float
  | .int n => Decimal.ofWord n
  | .float x => x

/-- Toward zero and within the 64-bit integers; not a number is zero. -/
def toInt64 : Number → Int64
  | .int n => n
  | .float x => Decimal.truncated x

def toValue : Number → Value
  | .int n => .int n
  | .float x => .float x

def compareFloats (x y : Float) : Option Ordering :=
  if x < y then some .lt else if x == y then some .eq else if y < x then some .gt else none

def compare : Number → Number → Option Ordering
  | .int a, .int b => some (Ord.compare a.toInt b.toInt)
  | a, b => compareFloats a.toFloat b.toFloat

def numeralChar (c : Char) : Bool :=
  c.isDigit || c = '+' || c = '-' || c = '.' || c = 'e' || c = 'E'

/-- A numeral without blanks around it. One that is too large for an integer is a double. -/
def ofNumeral? (cs : List Char) : Option Number :=
  match cs with
  | [] => none
  | c :: _ =>
    if !(c.isDigit || c = '+' || c = '-' || c = '.') then none
    else match Decimal.readWord? cs with
      | some n => some (.int n)
      | none =>
        if cs.all numeralChar then (Decimal.readFloat? cs).map .float else none

/-- The number that a whole text denotes, blanks around it aside. -/
def ofText? (s : String) : Option Number := ofNumeral? (Text.trim s.toList)

/-- The longest beginning of digits with at most one point. -/
def digitsAndPoint (seenPoint : Bool) : List Char → List Char
  | [] => []
  | c :: rest =>
    if c.isDigit then c :: digitsAndPoint seenPoint rest
    else if c = '.' && !seenPoint then c :: digitsAndPoint true rest
    else []

/-- A sign, if there is one, and the digits and point behind it. -/
def numeralStart : List Char → List Char
  | c :: rest =>
    if c = '+' || c = '-' then c :: digitsAndPoint false rest
    else digitsAndPoint false (c :: rest)
  | [] => []

/-- The number at the start of a text: `"12px"` is twelve. -/
def leading? (s : String) : Option Number :=
  match ofText? s with
  | some n => some n
  | none =>
    let start := numeralStart (Text.trimStart s.toList)
    if start.any Char.isDigit then
      ofNumeral? (Text.dropEndWhile (· = '.') start)
    else none

end Number

namespace Value

def number? : Value → Option Number
  | .null => some (.int 0)
  | .bool b => some (.int (if b then 1 else 0))
  | .int n => some (.int n)
  | .float x => some (.float x)
  | .string s => Number.ofText? s
  | .list _ | .map _ => none

/-- The element of an array under a key. A list takes keys that count as integers only. -/
def element? (v key : Value) : Option Value :=
  match v with
  | .list items =>
    match key.number? with
    | some (.int n) => if 0 ≤ n.toInt then items[n.toInt.toNat]? else none
    | _ => none
  | .map entries => Entries.get? entries key.key
  | _ => none

end Value

end ViewTemplate
