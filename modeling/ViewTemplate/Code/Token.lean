import ViewTemplate.Decimal.Layout

namespace ViewTemplate.Code

def openTag : String := "<?tpl"

def closeTag : String := "?>"

/-- Operators and punctuation. -/
inductive Symbol where
  | leftParen | rightParen | leftBracket | rightBracket
  | comma | semicolon | colon | question
  | coalesce | arrow | doubleArrow | assign
  | eq | notEq | identical | notIdentical
  | lt | le | gt | ge
  | plus | minus | star | slash | percent | dot
  | not | andAnd | orOr
  deriving DecidableEq

namespace Symbol

/-- Every spelling of a symbol. A spelling stands before those that it begins with. -/
def spellings : List (String × Symbol) :=
  [("===", identical), ("!==", notIdentical), ("==", eq), ("!=", notEq), ("<>", notEq),
    ("<=", le), (">=", ge), ("=>", doubleArrow), ("->", arrow), ("??", coalesce),
    ("&&", andAnd), ("||", orOr), ("(", leftParen), (")", rightParen), ("[", leftBracket),
    ("]", rightBracket), (",", comma), (";", semicolon), (":", colon), ("?", question),
    ("=", assign), ("<", lt), (">", gt), ("+", plus), ("-", minus), ("*", star), ("/", slash),
    ("%", percent), (".", dot), ("!", not)]

def name : Symbol → String
  | leftParen => "LParen"
  | rightParen => "RParen"
  | leftBracket => "LBracket"
  | rightBracket => "RBracket"
  | comma => "Comma"
  | semicolon => "Semi"
  | colon => "Colon"
  | question => "Question"
  | coalesce => "Coalesce"
  | arrow => "Arrow"
  | doubleArrow => "DoubleArrow"
  | assign => "Assign"
  | eq => "Eq"
  | notEq => "NotEq"
  | identical => "Identical"
  | notIdentical => "NotIdentical"
  | lt => "Lt"
  | le => "Le"
  | gt => "Gt"
  | ge => "Ge"
  | plus => "Plus"
  | minus => "Minus"
  | star => "Star"
  | slash => "Slash"
  | percent => "Percent"
  | dot => "Dot"
  | not => "Not"
  | andAnd => "AndAnd"
  | orOr => "OrOr"

/-- A message quotes punctuation and names operators. -/
def description : Symbol → String
  | leftParen => "'('"
  | rightParen => "')'"
  | leftBracket => "'['"
  | rightBracket => "']'"
  | comma => "','"
  | semicolon => "';'"
  | colon => "':'"
  | question => "'?'"
  | coalesce => "'??'"
  | arrow => "'->'"
  | doubleArrow => "'=>'"
  | assign => "'='"
  | s => s.name

end Symbol

inductive StringPart where
  | literal (s : String)
  | var (name : String)
  deriving DecidableEq

inductive Token where
  /-- Text outside of code. -/
  | text (s : String)
  /-- The end of a code block, which also ends a statement. -/
  | closeTag
  | var (name : String)
  | name (s : String)
  | int (n : Int64)
  | float (x : Float)
  /-- A string without variables, escapes undone. -/
  | string (s : String)
  /-- A string with variables. -/
  | template (parts : List StringPart)
  | symbol (s : Symbol)

/-- A token in a message; none is the end of the input. -/
def describe : Option Token → String
  | none => "end of input"
  | some (.text _) => "text"
  | some .closeTag => "'?>'"
  | some (.var name) => "'$" ++ name ++ "'"
  | some (.name s) => "'" ++ s ++ "'"
  | some (.int n) => "'" ++ toString n.toInt ++ "'"
  | some (.float x) => "'" ++ Decimal.plain.write x ++ "'"
  | some (.string _) | some (.template _) => "string"
  | some (.symbol s) => s.description

/-- A token and the line on which it begins, counted from one. -/
structure Located where
  token : Token
  line : Nat

/-- All tokens of a source and the line on which it ends. -/
structure TokenStream where
  tokens : List Located
  endLine : Nat

end ViewTemplate.Code
