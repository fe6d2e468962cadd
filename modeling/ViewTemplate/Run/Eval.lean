import ViewTemplate.Run.Operator
import ViewTemplate.Run.State
import ViewTemplate.Value.Array

namespace ViewTemplate.Run

open Code

variable {m : Type → Type} [Monad m]

/-- The two readings of an expression. -/
structure Reading (m : Type → Type) where
  value : Step m Value
  quiet : Step m (Option Value)

/-- An expression that is no access path reads quietly as it reads for its value. -/
def Reading.same (value : Step m Value) : Reading m := ⟨value, some <$> value⟩

/-- What is not there: null, or a failure in strict mode. -/
def missing (host : Host m) (fault : RenderFault) : Step m Value :=
  if host.strict then fail fault else pure .null

/-- The character of a text at the position that a key counts as. -/
def character? (s : String) (key : Value) : Option Value := do
  let n ← key.number?
  let i := (Number.float n.toFloat).toInt64.toInt
  if i < 0 then none
  else (s.toList[i.toNat]?).map fun c => .string (String.ofList [c])

def subscript (host : Host m) (base key : Value) : Step m Value :=
  match base with
  | .list _ | .map _ =>
    match base.element? key with
    | some v => pure v
    | none => missing host (.undefinedKey key.key)
  | .string s =>
    match character? s key with
    | some v => pure v
    | none => missing host (.undefinedOffset key.key)
  | .null => missing host (.offsetOnNull key.key)
  | _ => pure .null

/-- The quiet counterpart of `subscript`. -/
def subscript? (base key : Value) : Option Value :=
  match base with
  | .string s => character? s key
  | other => other.element? key

def callFunction (host : Host m) (name : String) (args : List Value) : Step m Value := do
  match host.functions.get? name with
  | none => fail (.undefinedFunction name)
  | some f =>
    let result := f args
    modify fun s => { s with calls := ⟨name, args, result⟩ :: s.calls }
    match result with
    | .ok v => pure v
    | .error (.exit output) => throw (.failed (.earlyExit output))
    | .error (.failed message) => fail (.function name message)

/-- Whether all arguments are there and not null; the first that is not settles it. -/
def allSet : List (Reading m) → Step m Bool
  | [] => pure true
  | r :: rest => do
    match ← r.quiet with
    | some v => if v.isNull then pure false else allSet rest
    | none => pure false

def valuesOf : List (Reading m) → Step m (List Value)
  | [] => pure []
  | r :: rest => do
    let v ← r.value
    return v :: (← valuesOf rest)

/-- A call: `isset` and `empty` look at their arguments quietly, all other functions get values. -/
def call (host : Host m) (name : String) (args : List (Reading m)) : Step m Value :=
  if name = "isset" then do
    return .bool ((← allSet args) && !args.isEmpty)
  else if name = "empty" then
    match args with
    | [r] => do
      match ← r.quiet with
      | some v => return .bool !v.truthy
      | none => return .bool true
    | _ => fail .emptyArguments
  else do
    callFunction host name (← valuesOf args)

def fill : List (Option (Reading m) × Reading m) → Value → Step m Value
  | [], array => pure array
  | (key, v) :: rest, array => do
    let key ← match key with
      | some r => some <$> r.value
      | none => pure none
    let v ← v.value
    match array.put key v with
    | .ok array => fill rest array
    | .error e => fail (.scalarAsArray e.typeName)

/-- A variable and the keys that lead to a place below it; a missing key stands for an append. -/
structure Place where
  root : String
  path : List (Option Value)

def Place.below (p : Place) (key : Option Value) : Place := { p with path := p.path ++ [key] }

def assign (p : Place) (v : Value) : Step m Unit := do
  let old := (Entries.get? (← get).scope p.root).getD .null
  match Value.store v p.path old with
  | .ok new => assignVariable p.root new
  | .error e => fail (.scalarAsArray e.typeName)

def unset (p : Place) : Step m Unit :=
  modify fun s =>
    if p.path.isEmpty then { s with scope := Entries.erase s.scope p.root }
    else match Entries.get? s.scope p.root with
      | some v => { s with scope := Entries.insert s.scope p.root (Value.removePath p.path v) }
      | none => s

def readVariable (host : Host m) (name : String) : Reading m where
  value := do
    match Entries.get? (← get).scope name with
    | some v => pure v
    | none => missing host (.undefinedVariable name)
  quiet := do return Entries.get? (← get).scope name

def joinParts (host : Host m) : List StringPart → Step m String
  | [] => pure ""
  | .literal s :: rest => do return s ++ (← joinParts host rest)
  | .var name :: rest => do
    let v ← (readVariable host name).value
    return v.output ++ (← joinParts host rest)

mutual

def read (host : Host m) : Expr → Reading m
  | .literal v => .same (pure v)
  | .var name => readVariable host name
  | .interpolated parts => .same do return .string (← joinParts host parts)
  | .array items => .same (fill (readItems host items) (.list []))
  | .index base key =>
    let b := read host base
    let k := read host key
    { value := do
        let b ← b.value
        subscript host b (← k.value)
      quiet := do
        match ← b.quiet with
        | some b => return subscript? b (← k.value)
        | none => return none }
  | .append _ => .same (fail .readOfAppend)
  | .property base name =>
    let b := read host base
    { value := do subscript host (← b.value) (.string name)
      quiet := do return (← b.quiet).bind (·.element? (.string name)) }
  | .call name args =>
    let args := readAll host args
    .same (call host name args)
  | .constant name => .same (fail (.undefinedConstant name))
  | .unary op operand =>
    let a := read host operand
    .same do ofOperator (unary op (← a.value))
  | .binary op left right =>
    let a := read host left
    let b := read host right
    .same <| match op with
      | .and => do
        if (← a.value).truthy then return .bool (← b.value).truthy else return .bool false
      | .or => do
        if (← a.value).truthy then return .bool true else return .bool (← b.value).truthy
      | op => do
        let x ← a.value
        ofOperator (binary op x (← b.value))
  | .ternary condition positive negative =>
    let c := read host condition
    let p := read host positive
    let n := read host negative
    .same do
      if (← c.value).truthy then p.value else n.value
  | .fallback condition negative =>
    let c := read host condition
    let n := read host negative
    .same do
      let v ← c.value
      if v.truthy then return v else n.value
  | .coalesce left right =>
    let a := read host left
    let b := read host right
    .same do
      match ← a.quiet with
      | some v => if v.isNull then b.value else return v
      | none => b.value
  | .assign target value =>
    let v := read host value
    let p := place host target
    .same do
      let v ← v.value
      assign (← p) v
      return v

def place (host : Host m) : Expr → Step m Place
  | .var name => pure ⟨name, []⟩
  | .index base key =>
    let p := place host base
    let k := read host key
    do
      let p ← p
      return p.below (some (← k.value))
  | .append base =>
    let p := place host base
    do return (← p).below none
  | .property base name =>
    let p := place host base
    do return (← p).below (some (.string name))
  | _ => fail .notAssignable

def readAll (host : Host m) : List Expr → List (Reading m)
  | [] => []
  | e :: rest => read host e :: readAll host rest

def readItems (host : Host m) : List Item → List (Option (Reading m) × Reading m)
  | [] => []
  | .value v :: rest => (none, read host v) :: readItems host rest
  | .keyed k v :: rest => (some (read host k), read host v) :: readItems host rest

end

end ViewTemplate.Run
