import ViewTemplate.Decimal.Reading
import ViewTemplate.Value.Basic

namespace ViewTemplate.Json

def hexDigit (n : Nat) : Char := (Nat.toDigits 16 n).headD '0'

def escapeChar (c : Char) : List Char :=
  if c = '"' then ['\\', '"']
  else if c = '\\' then ['\\', '\\']
  else if c = '\n' then ['\\', 'n']
  else if c = '\r' then ['\\', 'r']
  else if c = '\t' then ['\\', 't']
  else if c.toNat = 8 then ['\\', 'b']
  else if c.toNat = 12 then ['\\', 'f']
  else if c.toNat < 32 then
    ['\\', 'u', '0', '0', hexDigit (c.toNat / 16), hexDigit (c.toNat % 16)]
  else [c]

def writeString (s : String) : List Char := '"' :: s.toList.flatMap escapeChar ++ ['"']

mutual

def writeChars : Value → List Char
  | .null => "null".toList
  | .bool true => "true".toList
  | .bool false => "false".toList
  | .int n => (toString n.toInt).toList
  | .float x => (Decimal.json.write x).toList
  | .string s => writeString s
  | .list items => '[' :: writeItems items ++ [']']
  | .map entries => '{' :: writeEntries entries ++ ['}']

def writeItems : List Value → List Char
  | [] => []
  | [v] => writeChars v
  | v :: rest => writeChars v ++ ',' :: writeItems rest

def writeEntries : List (String × Value) → List Char
  | [] => []
  | [(k, v)] => writeString k ++ ':' :: writeChars v
  | (k, v) :: rest => writeString k ++ ':' :: writeChars v ++ ',' :: writeEntries rest

end

/-- The JSON text of a value; infinities and not a number become null. -/
def write (v : Value) : String := String.ofList (writeChars v)

def isSpace (c : Char) : Bool := c = ' ' || c = '\n' || c = '\t' || c = '\r'

def skipSpace (cs : List Char) : List Char := cs.dropWhile isSpace

def hexValue? (c : Char) : Option Nat :=
  if c.isDigit then some (c.toNat - '0'.toNat)
  else if 'a' ≤ c ∧ c ≤ 'f' then some (c.toNat - 'a'.toNat + 10)
  else if 'A' ≤ c ∧ c ≤ 'F' then some (c.toNat - 'A'.toNat + 10)
  else none

def readHex4 : List Char → Option (Nat × List Char)
  | a :: b :: c :: d :: rest => do
    let n := ((← hexValue? a) * 16 + (← hexValue? b)) * 256 + (← hexValue? c) * 16 + (← hexValue? d)
    return (n, rest)
  | _ => none

def readCodePoint (cs : List Char) : Option (Char × List Char) := do
  let (n, rest) ← readHex4 cs
  if n < 0xd800 ∨ 0xdfff < n then return (Char.ofNat n, rest)
  else if 0xdc00 ≤ n then none
  else match rest with
    | '\\' :: 'u' :: more => do
      let (m, rest) ← readHex4 more
      if 0xdc00 ≤ m ∧ m ≤ 0xdfff then
        return (Char.ofNat (0x10000 + (n - 0xd800) * 0x400 + (m - 0xdc00)), rest)
      else none
    | _ => none

def readEscape : List Char → Option (Char × List Char)
  | '"' :: rest => some ('"', rest)
  | '\\' :: rest => some ('\\', rest)
  | '/' :: rest => some ('/', rest)
  | 'b' :: rest => some (Char.ofNat 8, rest)
  | 'f' :: rest => some (Char.ofNat 12, rest)
  | 'n' :: rest => some ('\n', rest)
  | 'r' :: rest => some ('\r', rest)
  | 't' :: rest => some ('\t', rest)
  | 'u' :: rest => readCodePoint rest
  | _ => none

def readString (taken : List Char) : Nat → List Char → Option (String × List Char)
  | 0, _ | _, [] => none
  | fuel + 1, c :: rest =>
    if c = '"' then some (String.ofList taken.reverse, rest)
    else if c = '\\' then do
      let (d, rest) ← readEscape rest
      readString (d :: taken) fuel rest
    else if c.toNat < 32 then none
    else readString (c :: taken) fuel rest

def readDigits (cs : List Char) : Option (List Char × List Char) :=
  let digits := cs.takeWhile Char.isDigit
  if digits.isEmpty then none else some (digits, cs.dropWhile Char.isDigit)

def readFraction : List Char → Option (List Char × List Char)
  | '.' :: rest => readDigits rest
  | cs => some ([], cs)

/-- A power of ten: none when there is none to read, and then no failure. -/
def readPower : List Char → Option (Option Int × List Char)
  | c :: rest =>
    if c = 'e' || c = 'E' then do
      let (negative, rest) := Decimal.splitSign rest
      let (digits, rest) ← readDigits rest
      let n : Int := Decimal.natOfDigits digits
      return (some (if negative then -n else n), rest)
    else some (none, c :: rest)
  | [] => some (none, [])

/-- A number without leading zeros. One without fraction and power that fits is an integer, but
minus zero is a double. Of a double the leading digits count as far as they stay within 64 bits, and
the rest of them only shifts the point; a number beyond the doubles is refused. -/
def readNumber (cs : List Char) : Option (Value × List Char) := do
  let (negative, cs) := match cs with
    | '-' :: rest => (true, rest)
    | _ => (false, cs)
  let (digits, cs) ← readDigits cs
  if digits.head? = some '0' ∧ digits.length ≠ 1 then none
  let (fraction, cs) ← readFraction cs
  let (power, cs) ← readPower cs
  let n := Decimal.natOfDigits digits
  let whole := fraction.isEmpty && power.isNone && !(negative && n = 0)
  match if whole then Decimal.word? (if negative then -(n : Int) else n) else none with
  | some w => return (.int w, cs)
  | none =>
    let (coefficient, shifting) := Decimal.appendDigits 0 digits
    let (coefficient, idle) := Decimal.appendDigits coefficient fraction
    let taken := fraction.length - idle.length
    let x ← Decimal.scale? (Decimal.nearest false coefficient 0)
      (power.getD 0 + shifting.length - taken)
    return (.float (if negative then -x else x), cs)

/-- How deep arrays and objects may be nested. -/
def maxDepth : Nat := 127

mutual

/-- A value behind blanks; `depth` more levels may open. -/
def readValue : Nat → Nat → List Char → Option (Value × List Char)
  | 0, _, _ => none
  | fuel + 1, depth, cs =>
    match skipSpace cs with
    | 'n' :: 'u' :: 'l' :: 'l' :: rest => some (.null, rest)
    | 't' :: 'r' :: 'u' :: 'e' :: rest => some (.bool true, rest)
    | 'f' :: 'a' :: 'l' :: 's' :: 'e' :: rest => some (.bool false, rest)
    | '"' :: rest => do
      let (s, rest) ← readString [] (rest.length + 1) rest
      return (.string s, rest)
    | '[' :: rest =>
      match depth, skipSpace rest with
      | 0, _ => none
      | _, ']' :: rest => some (.list [], rest)
      | depth + 1, rest => do
        let (items, rest) ← readItems fuel depth rest
        return (.list items, rest)
    | '{' :: rest =>
      match depth, skipSpace rest with
      | 0, _ => none
      | _, '}' :: rest => some (.map [], rest)
      | depth + 1, rest => do
        let (entries, rest) ← readMembers fuel depth [] rest
        return (.map entries, rest)
    | rest => readNumber rest

def readItems : Nat → Nat → List Char → Option (List Value × List Char)
  | 0, _, _ => none
  | fuel + 1, depth, cs => do
    let (v, rest) ← readValue fuel depth cs
    match skipSpace rest with
    | ',' :: rest => do
      let (vs, rest) ← readItems fuel depth rest
      return (v :: vs, rest)
    | ']' :: rest => return ([v], rest)
    | _ => none

def readMembers : Nat → Nat → Entries Value → List Char → Option (Entries Value × List Char)
  | 0, _, _, _ => none
  | fuel + 1, depth, entries, cs =>
    match skipSpace cs with
    | '"' :: rest => do
      let (key, rest) ← readString [] (rest.length + 1) rest
      match skipSpace rest with
      | ':' :: rest => do
        let (v, rest) ← readValue fuel depth rest
        let entries := Entries.insert entries key v
        match skipSpace rest with
        | ',' :: rest => readMembers fuel depth entries rest
        | '}' :: rest => return (entries, rest)
        | _ => none
      | _ => none
    | _ => none

end

/-- The value of a JSON document: integers within 64 bits are integers, all other numbers doubles. A
repeated name keeps its first place and its last value. -/
def read? (s : String) : Option Value :=
  let cs := s.toList
  match readValue (2 * cs.length + 2) maxDepth cs with
  | some (v, rest) => if (skipSpace rest).isEmpty then some v else none
  | none => none

end ViewTemplate.Json
