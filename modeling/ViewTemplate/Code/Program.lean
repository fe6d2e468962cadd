import ViewTemplate.Code.Token
import ViewTemplate.Value.Basic

namespace ViewTemplate.Code

inductive UnaryOp where
  | not | neg | plus
  deriving DecidableEq

inductive BinaryOp where
  | add | sub | mul | div | mod | concat
  | eq | notEq | identical | notIdentical
  | lt | le | gt | ge
  | and | or
  deriving DecidableEq

def UnaryOp.symbol : UnaryOp → String
  | not => "!"
  | neg => "-"
  | plus => "+"

def BinaryOp.symbol : BinaryOp → String
  | add => "+"
  | sub => "-"
  | mul => "*"
  | div => "/"
  | mod => "%"
  | concat => "."
  | eq => "=="
  | notEq => "!="
  | identical => "==="
  | notIdentical => "!=="
  | lt => "<"
  | le => "<="
  | gt => ">"
  | ge => ">="
  | and => "&&"
  | or => "||"

mutual

inductive Expr where
  | literal (v : Value)
  | var (name : String)
  /-- A double-quoted string: the parts are joined. -/
  | interpolated (parts : List StringPart)
  | array (items : List Item)
  /-- `base[key]`. -/
  | index (base key : Expr)
  /-- `base[]`, a place behind the last element. -/
  | append (base : Expr)
  /-- `base->name`. -/
  | property (base : Expr) (name : String)
  | call (name : String) (args : List Expr)
  /-- A name that is no keyword and is not called. -/
  | constant (name : String)
  | unary (op : UnaryOp) (operand : Expr)
  | binary (op : BinaryOp) (left right : Expr)
  /-- `condition ? positive : negative`. -/
  | ternary (condition positive negative : Expr)
  /-- `condition ?: negative`. -/
  | fallback (condition negative : Expr)
  /-- `left ?? right`. -/
  | coalesce (left right : Expr)
  | assign (target value : Expr)

inductive Item where
  | value (v : Expr)
  | keyed (key v : Expr)

end

/-- Whether an expression can stand on the left of an assignment. -/
def Expr.isPlace : Expr → Bool
  | .var _ => true
  | .index base _ => base.isPlace
  | .append base => base.isPlace
  | .property base _ => base.isPlace
  | _ => false

mutual

inductive Stmt where
  | text (s : String)
  | echo (exprs : List Expr)
  | expr (e : Expr)
  | unset (targets : List Expr)
  | cond (condition : Expr) (body : List Stmt) (rest : Alternatives)
  | loop (condition : Expr) (body : List Stmt)
  | foreach (subject : Expr) (key : Option String) (value : String) (body : List Stmt) (line : Nat)
  | break (line : Nat)
  | continue (line : Nat)
  | include (target : Expr) (line : Nat)

/-- What follows the first branch of a conditional. -/
inductive Alternatives where
  | none
  | otherwise (body : List Stmt)
  | elseIf (condition : Expr) (body : List Stmt) (rest : Alternatives)

end

structure Program where
  body : List Stmt

end ViewTemplate.Code
