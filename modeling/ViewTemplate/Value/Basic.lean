import ViewTemplate.Decimal.Layout
import ViewTemplate.Entries

namespace ViewTemplate

/-- An array is a list while its keys are `0, 1, 2, …` in order, and otherwise a map. -/
inductive Value where
  | null
  | bool (b : Bool)
  | int (n : Int64)
  | float (x : Float)
  | string (s : String)
  | list (items : List Value)
  | map (entries : List (String × Value))

instance : Inhabited Value := ⟨.null⟩

namespace Value

/-- Lists and maps are one type to a template. -/
def typeName : Value → String
  | .null => "null"
  | .bool _ => "bool"
  | .int _ => "int"
  | .float _ => "float"
  | .string _ => "string"
  | .list _ | .map _ => "array"

def isNull : Value → Bool
  | .null => true
  | _ => false

def isArray : Value → Bool
  | .list _ | .map _ => true
  | _ => false

/-- Zero, the texts `""` and `"0"` and empty arrays are false; not a number is true. -/
def truthy : Value → Bool
  | .null => false
  | .bool b => b
  | .int n => n ≠ 0
  | .float x => x != 0.0
  | .string s => s ≠ "" ∧ s ≠ "0"
  | .list items => !items.isEmpty
  | .map entries => !entries.isEmpty

def length? : Value → Option Nat
  | .list items => some items.length
  | .map entries => some entries.length
  | _ => none

/-- Whole numbers below `10 ^ 15` are written like integers, so minus zero is `0`. -/
def floatOutput (x : Float) : String :=
  if x.isNaN then "NAN"
  else if x.isInf then (if x > 0.0 then "INF" else "-INF")
  else if x.abs < 1e15 && Decimal.ofWord (Decimal.truncated x) == x then
    toString (Decimal.truncated x).toInt
  else Decimal.plain.write x

def output : Value → String
  | .null | .bool false => ""
  | .bool true => "1"
  | .int n => toString n.toInt
  | .float x => floatOutput x
  | .string s => s
  | .list _ | .map _ => "Array"

/-- The key an array files a value under. A fraction is cut off, within the 64-bit integers. -/
def key : Value → String
  | .float x => toString (Decimal.truncated x).toInt
  | v => v.output

end Value

end ViewTemplate
