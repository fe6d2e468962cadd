import ViewTemplate.Code.Program
import ViewTemplate.Text.Quoted

namespace ViewTemplate.Code

def UnaryOp.outline : UnaryOp → String
  | .not => "Not"
  | .neg => "Neg"
  | .plus => "Plus"

def BinaryOp.outline : BinaryOp → String
  | .add => "Add"
  | .sub => "Sub"
  | .mul => "Mul"
  | .div => "Div"
  | .mod => "Mod"
  | .concat => "Concat"
  | .eq => "Eq"
  | .notEq => "NotEq"
  | .identical => "Identical"
  | .notIdentical => "NotIdentical"
  | .lt => "Lt"
  | .le => "Le"
  | .gt => "Gt"
  | .ge => "Ge"
  | .and => "And"
  | .or => "Or"

def boolOutline (b : Bool) : String := if b then "true" else "false"

def call1 (head arg : String) : String := head ++ "(" ++ arg ++ ")"

def bracketed (parts : List String) : String := "[" ++ String.intercalate ", " parts ++ "]"

def braced (content : String) : String := String.singleton '{' ++ content ++ String.singleton '}'

def fields (head : String) (parts : List (String × String)) : String :=
  head ++ " " ++ braced
    (" " ++ String.intercalate ", " (parts.map fun (k, v) => k ++ ": " ++ v) ++ " ")

mutual

def valueOutline : Value → String
  | .null => "Null"
  | .bool b => call1 "Bool" (boolOutline b)
  | .int n => call1 "Int" (toString n.toInt)
  | .float x => call1 "Float" (Decimal.literal.write x)
  | .string s => call1 "String" (Text.quoted s)
  | .list items => call1 "List" (bracketed (valueOutlines items))
  | .map entries =>
    call1 "Map" (braced (String.intercalate ", " (entryOutlines entries)))

def valueOutlines : List Value → List String
  | [] => []
  | v :: rest => valueOutline v :: valueOutlines rest

def entryOutlines : List (String × Value) → List String
  | [] => []
  | (k, v) :: rest => (Text.quoted k ++ ": " ++ valueOutline v) :: entryOutlines rest

end

def partOutline : StringPart → String
  | .literal s => call1 "Literal" (call1 "String" (Text.quoted s))
  | .var name => call1 "Var" (Text.quoted name)

mutual

def Expr.outline : Expr → String
  | .literal v => call1 "Literal" (valueOutline v)
  | .var name => call1 "Var" (Text.quoted name)
  | .interpolated parts => call1 "Interpolated" (bracketed (parts.map partOutline))
  | .array items => call1 "Array" (bracketed (itemOutlines items))
  | .index base key => fields "Index" [("base", base.outline), ("index", call1 "Some" key.outline)]
  | .append base => fields "Index" [("base", base.outline), ("index", "None")]
  | .property base name =>
    fields "Property" [("base", base.outline), ("name", Text.quoted name)]
  | .call name args =>
    fields "Call" [("name", Text.quoted name), ("args", bracketed (exprOutlines args))]
  | .constant name => call1 "Constant" (Text.quoted name)
  | .unary op operand => fields "Unary" [("op", op.outline), ("operand", operand.outline)]
  | .binary op left right =>
    fields "Binary" [("op", op.outline), ("left", left.outline), ("right", right.outline)]
  | .ternary condition positive negative =>
    fields "Ternary" [("condition", condition.outline), ("then", call1 "Some" positive.outline),
      ("otherwise", negative.outline)]
  | .fallback condition negative =>
    fields "Ternary" [("condition", condition.outline), ("then", "None"),
      ("otherwise", negative.outline)]
  | .coalesce left right =>
    fields "Coalesce" [("left", left.outline), ("right", right.outline)]
  | .assign target value =>
    fields "Assign" [("target", target.outline), ("value", value.outline)]

def exprOutlines : List Expr → List String
  | [] => []
  | e :: rest => e.outline :: exprOutlines rest

def itemOutlines : List Item → List String
  | [] => []
  | .value v :: rest => ("(None, " ++ v.outline ++ ")") :: itemOutlines rest
  | .keyed k v :: rest =>
    ("(" ++ call1 "Some" k.outline ++ ", " ++ v.outline ++ ")") :: itemOutlines rest

end

inductive SyntaxFault where
  | unterminatedCode
  | unterminatedComment
  | unterminatedString
  | missingVariableName
  | invalidNumber (digits : String)
  | unexpectedCharacter (c : Char)
  | unexpected (found : Option Token)
  | expected (symbol : Symbol) (found : Option Token)
  | expectedWord (word : String) (found : Option Token)
  | expectedLoopVariable (found : Option Token)
  | expectedPropertyName (found : Option Token)
  | missing (word : String)
  | misplaced (word : String)
  | notAssignable
  | notUnsettable (target : Expr)
  /-- The tokens left no room for another step. -/
  | tooDeep

def SyntaxFault.message : SyntaxFault → String
  | unterminatedCode => "unterminated code block"
  | unterminatedComment => "unterminated comment"
  | unterminatedString => "unterminated string"
  | missingVariableName => "expected variable name after '$'"
  | invalidNumber digits => "invalid number '" ++ digits ++ "'"
  | unexpectedCharacter c => "unexpected character '" ++ String.ofList [c] ++ "'"
  | unexpected found => "unexpected " ++ describe found
  | expected symbol found => "expected " ++ symbol.description ++ ", found " ++ describe found
  | expectedWord word found => "expected '" ++ word ++ "', found " ++ describe found
  | expectedLoopVariable found => "expected loop variable, found " ++ describe found
  | expectedPropertyName found => "expected property name, found " ++ describe found
  | missing word => "missing '" ++ word ++ "'"
  | misplaced word => "unexpected '" ++ word ++ "'"
  | notAssignable => "cannot assign to this expression"
  | notUnsettable target => "cannot unset " ++ target.outline
  | tooDeep => "nesting too deep"

/-- A fault and the line of the code on which it shows. -/
structure SyntaxError where
  line : Nat
  fault : SyntaxFault

def SyntaxError.message (e : SyntaxError) : String :=
  "line " ++ toString e.line ++ ": " ++ e.fault.message

end ViewTemplate.Code
