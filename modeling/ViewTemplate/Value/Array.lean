import ViewTemplate.Value.Number

namespace ViewTemplate.Value

/-- The entries of a list: element `i` has the key `i` in decimal. -/
def listEntries (items : List Value) : Entries Value :=
  items.zipIdx.map fun (v, i) => (toString i, v)

def entries : Value → Entries Value
  | .list items => listEntries items
  | .map es => es
  | _ => []

/-- Decimal digits without a leading zero, up to 64 bits. -/
def indexText? (s : String) : Option Nat :=
  let cs := s.toList
  let n := Decimal.natOfDigits cs
  if cs.all Char.isDigit && !cs.isEmpty && (cs.length = 1 || cs.head? ≠ some '0') && n < UInt64.size
  then some n
  else none

def position? : Value → Option Nat
  | .int n => if 0 ≤ n.toInt then some n.toInt.toNat else none
  | .bool b => some (if b then 1 else 0)
  | .string s => indexText? s
  | _ => none

/-- One more than the greatest key that reads as a 64-bit integer, but never beyond those; zero
when no key does. -/
def nextKey (es : Entries Value) : String :=
  match ((Entries.keys es).filterMap fun k => (Decimal.readWord? k.toList).map (·.toInt)).max? with
  | some n => toString (min (n + 1) Int64.maxValue.toInt)
  | none => "0"

structure ScalarAsArray where
  typeName : String

/-- Changes a map's value under a key, or under the next key when there is none. A new entry starts
as null. -/
def modifyEntry (es : Entries Value) (key : Option Value)
    (f : Value → Except ScalarAsArray Value) : Except ScalarAsArray Value := do
  let k := match key with
    | some k => k.key
    | none => nextKey es
  let v ← f ((Entries.get? es k).getD .null)
  return .map (Entries.insert es k v)

def modifyItem (items : List Value) (key : Option Value)
    (f : Value → Except ScalarAsArray Value) : Except ScalarAsArray Value :=
  let position := match key with
    | some k => k.position?
    | none => some items.length
  match position with
  | some i =>
    match items[i]? with
    | some old => do return .list (items.set i (← f old))
    | none =>
      if i = items.length then do return .list (items ++ [← f .null])
      else modifyEntry (listEntries items) key f
  | none => modifyEntry (listEntries items) key f

/-- Changes the value under a key of an array. Null counts as an empty array. -/
def modify (container : Value) (key : Option Value)
    (f : Value → Except ScalarAsArray Value) : Except ScalarAsArray Value :=
  match container with
  | .null => modifyItem [] key f
  | .list items => modifyItem items key f
  | .map es => modifyEntry es key f
  | other => .error ⟨other.typeName⟩

/-- Stores a value at the end of a path of keys; a missing key stands for an append. -/
def store (v : Value) : List (Option Value) → Value → Except ScalarAsArray Value
  | [], _ => .ok v
  | key :: path, container => container.modify key (store v path)

def put (container : Value) (key : Option Value) (v : Value) : Except ScalarAsArray Value :=
  store v [key] container

/-- Removes the entry under a key. The other entries of a list keep their keys, so the list becomes
a map. -/
def removeKey (container key : Value) : Value :=
  match container with
  | .list items =>
    match key.position? with
    | some i =>
      if i < items.length then .map (Entries.erase (listEntries items) key.key) else container
    | none => container
  | .map es => .map (Entries.erase es key.key)
  | other => other

/-- Changes the value under a key that is there, and nothing otherwise. -/
def updateKey (container key : Value) (f : Value → Value) : Value :=
  match container with
  | .list items =>
    match key.position? with
    | some i => .list (items.modify i f)
    | none => container
  | .map es => .map (es.map fun p => if p.1 = key.key then (p.1, f p.2) else p)
  | other => other

def removePath : List (Option Value) → Value → Value
  | [], container => container
  | [some key], container => container.removeKey key
  | some key :: path, container => container.updateKey key (removePath path)
  | none :: _, container => container

end ViewTemplate.Value
