import ViewTemplate.Error
import ViewTemplate.Value.Compare

namespace ViewTemplate.Run

open Code

def operand (v : Value) (operator : String) : Except OperatorError Number :=
  let number := match v with
    | .string s => Number.leading? s
    | other => other.number?
  match number with
  | some n => .ok n
  | none => .error (.unsupported operator v.typeName)

/-- The exact result if it is an integer that fits, and otherwise the double. -/
def exactOr (exact : Option Int) (x : Float) : Value :=
  match exact >>= Decimal.word? with
  | some n => .int n
  | none => .float x

def integers? : Number → Number → Option (Int × Int)
  | .int a, .int b => some (a.toInt, b.toInt)
  | _, _ => none

def add (a b : Number) : Value :=
  exactOr ((integers? a b).map fun (x, y) => x + y) (a.toFloat + b.toFloat)

def sub (a b : Number) : Value :=
  exactOr ((integers? a b).map fun (x, y) => x - y) (a.toFloat - b.toFloat)

def mul (a b : Number) : Value :=
  exactOr ((integers? a b).map fun (x, y) => x * y) (a.toFloat * b.toFloat)

/-- The quotient is an integer where the division comes out even. -/
def div (a b : Number) : Except OperatorError Value :=
  if b.toFloat == 0.0 then .error .divisionByZero
  else
    let even := do
      let (x, y) ← integers? a b
      if x.tmod y = 0 then some (x.tdiv y) else none
    .ok (exactOr even (a.toFloat / b.toFloat))

/-- The remainder has the sign of the dividend; doubles are cut to integers first. -/
def mod (a b : Number) : Except OperatorError Value :=
  let x := a.toInt64.toInt
  let y := b.toInt64.toInt
  if y = 0 then .error .moduloByZero else .ok (.int (Int64.ofInt (x.tmod y)))

def neg (a : Number) : Value :=
  match a with
  | .int n => exactOr (some (-n.toInt)) (-Decimal.ofWord n)
  | .float x => .float (-x)

def unary (op : UnaryOp) (v : Value) : Except OperatorError Value :=
  match op with
  | .not => .ok (.bool !v.truthy)
  | .plus => do return (← operand v "+").toValue
  | .neg => do return neg (← operand v "-")

def arithmetic (operator : String) (f : Number → Number → Except OperatorError Value)
    (a b : Value) : Except OperatorError Value := do
  let x ← operand a operator
  let y ← operand b operator
  f x y

/-- Whether two values stand in an order that satisfies the test. -/
def ordered (test : Ordering → Bool) (a b : Value) : Value := .bool ((a.looseCompare b).any test)

def binary (op : BinaryOp) (a b : Value) : Except OperatorError Value :=
  match op with
  | .add => arithmetic "+" (fun x y => .ok (add x y)) a b
  | .sub => arithmetic "-" (fun x y => .ok (sub x y)) a b
  | .mul => arithmetic "*" (fun x y => .ok (mul x y)) a b
  | .div => arithmetic "/" div a b
  | .mod => arithmetic "%" mod a b
  | .concat => .ok (.string (a.output ++ b.output))
  | .eq => .ok (.bool (a.looseEq b))
  | .notEq => .ok (.bool !(a.looseEq b))
  | .identical => .ok (.bool (a.identical b))
  | .notIdentical => .ok (.bool !(a.identical b))
  | .lt => .ok (ordered Ordering.isLT a b)
  | .le => .ok (ordered Ordering.isLE a b)
  | .gt => .ok (ordered Ordering.isGT a b)
  | .ge => .ok (ordered Ordering.isGE a b)
  | .and => .ok (.bool (a.truthy && b.truthy))
  | .or => .ok (.bool (a.truthy || b.truthy))

end ViewTemplate.Run
