import ViewTemplate.Code.Lexer
import ViewTemplate.Text.Case

namespace ViewTemplate.Code

/-- A reader of tokens: it fails, or answers and leaves the tokens it did not take. -/
abbrev Parser := StateT TokenStream (Except SyntaxError)

namespace TokenStream

def next? (s : TokenStream) : Option Token := s.tokens.head?.map (·.token)

def line (s : TokenStream) : Nat := (s.tokens.head?.map (·.line)).getD s.endLine

def drop (s : TokenStream) : TokenStream := { s with tokens := s.tokens.drop 1 }

def word? (s : TokenStream) : Option String :=
  match s.next? with
  | some (.name name) => some (Text.lowerAscii name)
  | _ => none

def startsWith (s : TokenStream) (symbol : Symbol) : Bool :=
  match s.next? with
  | some (.symbol t) => t = symbol
  | _ => false

end TokenStream

namespace Parser

def fail {α : Type} (fault : SyntaxFault) : Parser α := fun s => .error ⟨s.line, fault⟩

def refuse {α : Type} (fault : Option Token → SyntaxFault) : Parser α :=
  fun s => .error ⟨s.line, fault s.next?⟩

def next? : Parser (Option Token) := fun s => .ok (s.next?, s)

def line : Parser Nat := fun s => .ok (s.line, s)

def word? : Parser (Option String) := fun s => .ok (s.word?, s)

def skip : Parser Unit := fun s => .ok ((), s.drop)

def eat (symbol : Symbol) : Parser Bool := fun s =>
  if s.startsWith symbol then .ok (true, s.drop) else .ok (false, s)

def expect (symbol : Symbol) : Parser Unit := fun s =>
  if s.startsWith symbol then .ok ((), s.drop)
  else .error ⟨s.line, .expected symbol s.next?⟩

def eatWord (word : String) : Parser Bool := fun s =>
  if s.word? = some word then .ok (true, s.drop) else .ok (false, s)

def expectWord (word : String) : Parser Unit := fun s =>
  if s.word? = some word then .ok ((), s.drop)
  else .error ⟨s.line, .expectedWord word s.next?⟩

/-- A statement ends with a semicolon, or without one before a close tag or the end. -/
def terminator : Parser Unit := fun s =>
  match s.next? with
  | some (.symbol .semicolon) => .ok ((), s.drop)
  | some .closeTag | none => .ok ((), s)
  | found => .error ⟨s.line, .expected .semicolon found⟩

/-- The variable of a loop. A failure shows on the line after the token. -/
def loopVariable : Parser String := fun s =>
  match s.next? with
  | some (.var name) => .ok (name, s.drop)
  | found => .error ⟨s.drop.line, .expectedLoopVariable found⟩

/-- The name of a property. A failure shows on the line after the token. -/
def propertyName : Parser String := fun s =>
  match s.next? with
  | some (.name name) => .ok (name, s.drop)
  | found => .error ⟨s.drop.line, .expectedPropertyName found⟩

/-- The levels of expressions, loosest first. -/
inductive Tier where
  | orWord | andWord | assignment | ternary | coalesce | or | and
  | equality | comparison | concat | additive | multiplicative | unary | access
  deriving DecidableEq

def Tier.tighter : Tier → Tier
  | orWord => andWord
  | andWord => assignment
  | assignment => ternary
  | ternary => coalesce
  | coalesce => or
  | or => and
  | and => equality
  | equality => comparison
  | comparison => concat
  | concat => additive
  | additive => multiplicative
  | multiplicative => unary
  | unary | access => access

def Tier.operator? : Tier → Token → Option BinaryOp
  | orWord, .name s => if Text.lowerAscii s = "or" then some .or else none
  | andWord, .name s => if Text.lowerAscii s = "and" then some .and else none
  | or, .symbol .orOr => some .or
  | and, .symbol .andAnd => some .and
  | equality, .symbol .eq => some .eq
  | equality, .symbol .notEq => some .notEq
  | equality, .symbol .identical => some .identical
  | equality, .symbol .notIdentical => some .notIdentical
  | comparison, .symbol .lt => some .lt
  | comparison, .symbol .le => some .le
  | comparison, .symbol .gt => some .gt
  | comparison, .symbol .ge => some .ge
  | concat, .symbol .dot => some .concat
  | additive, .symbol .plus => some .add
  | additive, .symbol .minus => some .sub
  | multiplicative, .symbol .star => some .mul
  | multiplicative, .symbol .slash => some .div
  | multiplicative, .symbol .percent => some .mod
  | _, _ => none

def unaryOperator? : Token → Option UnaryOp
  | .symbol .not => some .not
  | .symbol .minus => some .neg
  | .symbol .plus => some .plus
  | _ => none

mutual

def exprAt : Nat → Tier → Parser Expr
  | 0, _ => fail .tooDeep
  | fuel + 1, .assignment => do
    let target ← exprAt fuel .ternary
    if (← next?) matches some (.symbol .assign) then
      if target.isPlace then
        skip
        return .assign target (← exprAt fuel .assignment)
      else fail .notAssignable
    else return target
  | fuel + 1, .ternary => do
    let condition ← exprAt fuel .coalesce
    if ← eat .question then
      if ← eat .colon then
        return .fallback condition (← exprAt fuel .assignment)
      else
        let positive ← exprAt fuel .assignment
        expect .colon
        return .ternary condition positive (← exprAt fuel .assignment)
    else return condition
  | fuel + 1, .coalesce => do
    let left ← exprAt fuel .or
    if ← eat .coalesce then
      return .coalesce left (← exprAt fuel .coalesce)
    else return left
  | fuel + 1, .unary => do
    match (← next?).bind unaryOperator? with
    | some op =>
      skip
      return .unary op (← exprAt fuel .unary)
    | none => exprAt fuel .access
  | fuel + 1, .access => do
    accesses fuel (← primary fuel)
  | fuel + 1, tier => do
    operands fuel tier (← exprAt fuel tier.tighter)

def operands : Nat → Tier → Expr → Parser Expr
  | 0, _, _ => fail .tooDeep
  | fuel + 1, tier, left => do
    match (← next?).bind tier.operator? with
    | some op =>
      skip
      let right ← exprAt fuel tier.tighter
      operands fuel tier (.binary op left right)
    | none => return left

def accesses : Nat → Expr → Parser Expr
  | 0, _ => fail .tooDeep
  | fuel + 1, base => do
    if ← eat .leftBracket then
      if ← eat .rightBracket then accesses fuel (.append base)
      else
        let key ← exprAt fuel .orWord
        expect .rightBracket
        accesses fuel (.index base key)
    else if ← eat .arrow then
      accesses fuel (.property base (← propertyName))
    else return base

def primary : Nat → Parser Expr
  | 0 => fail .tooDeep
  | fuel + 1 => do
    match ← next? with
    | some (.var name) => skip; return .var name
    | some (.int n) => skip; return .literal (.int n)
    | some (.float x) => skip; return .literal (.float x)
    | some (.string s) => skip; return .literal (.string s)
    | some (.template parts) => skip; return .interpolated parts
    | some (.symbol .leftParen) =>
      skip
      let e ← exprAt fuel .orWord
      expect .rightParen
      return e
    | some (.symbol .leftBracket) => skip; return .array (← items fuel .rightBracket)
    | some (.name name) =>
      skip
      let lower := Text.lowerAscii name
      if lower = "true" then return .literal (.bool true)
      else if lower = "false" then return .literal (.bool false)
      else if lower = "null" then return .literal .null
      else if ← eat .leftParen then
        if lower = "array" then return .array (← items fuel .rightParen)
        else return .call lower (← arguments fuel)
      else return .constant name
    | _ => refuse .unexpected

/-- Entries of an array up to a closing symbol; a comma may stand before it. -/
def items : Nat → Symbol → Parser (List Item)
  | 0, _ => fail .tooDeep
  | fuel + 1, close => do
    if ← eat close then return []
    else
      let first ← exprAt fuel .orWord
      let item ← if ← eat .doubleArrow then
          pure (.keyed first (← exprAt fuel .orWord))
        else pure (.value first)
      if ← eat .comma then return item :: (← items fuel close)
      else
        expect close
        return [item]

/-- Expressions up to a closing parenthesis; a comma may stand before it. -/
def arguments : Nat → Parser (List Expr)
  | 0 => fail .tooDeep
  | fuel + 1 => do
    if ← eat .rightParen then return []
    else
      let e ← exprAt fuel .orWord
      if ← eat .comma then return e :: (← arguments fuel)
      else
        expect .rightParen
        return [e]

end

def exprs : Nat → Parser (List Expr)
  | 0 => fail .tooDeep
  | fuel + 1 => do
    let e ← exprAt fuel .orWord
    if ← eat .comma then return e :: (← exprs fuel)
    else return [e]

def condition (fuel : Nat) : Parser Expr := do
  expect .leftParen
  let e ← exprAt fuel .orWord
  expect .rightParen
  expect .colon
  return e

/-- `unset` is a statement in front of a parenthesis, and a name elsewhere. -/
def startsUnset : Parser Bool := fun s =>
  .ok (s.word? = some "unset" && s.drop.startsWith .leftParen, s)

/-- The words that stand inside or at the end of a compound statement only. -/
def innerWords : List String := ["elseif", "else", "endif", "endwhile", "endforeach"]

mutual

/-- Statements up to one of the given words, or up to the end when there are none. -/
def block : Nat → List String → Parser (List Stmt)
  | 0, _ => fail .tooDeep
  | fuel + 1, until? => do
    match ← next? with
    | none =>
      match until?.getLast? with
      | some word => fail (.missing word)
      | none => return []
    | some .closeTag | some (.symbol .semicolon) => do
      skip
      block fuel until?
    | some (.text s) => do
      skip
      return .text s :: (← block fuel until?)
    | _ => do
      if (← word?).any until?.contains then return []
      else
        let stmt ← statement fuel
        return stmt :: (← block fuel until?)

def statement : Nat → Parser Stmt
  | 0 => fail .tooDeep
  | fuel + 1 => do
    let line ← line
    if ← eatWord "echo" then
      let es ← exprs fuel
      terminator
      return .echo es
    else if ← eatWord "if" then
      let c ← condition fuel
      let body ← block fuel ["elseif", "else", "endif"]
      return .cond c body (← alternatives fuel)
    else if ← eatWord "while" then
      let c ← condition fuel
      let body ← block fuel ["endwhile"]
      expectWord "endwhile"
      terminator
      return .loop c body
    else if ← eatWord "foreach" then
      foreachAt fuel line
    else if ← eatWord "break" then
      terminator
      return .break line
    else if ← eatWord "continue" then
      terminator
      return .continue line
    else if ← eatWord "include" then
      let target ← exprAt fuel .orWord
      terminator
      return .include target line
    else if ← startsUnset then
      skip
      skip
      let targets ← arguments fuel
      match targets.find? (!·.isPlace) with
      | some bad => fail (.notUnsettable bad)
      | none =>
        terminator
        return .unset targets
    else match (← word?).filter innerWords.contains with
    | some word => fail (.misplaced word)
    | none =>
      let e ← exprAt fuel .orWord
      terminator
      return .expr e

def alternatives : Nat → Parser Alternatives
  | 0 => fail .tooDeep
  | fuel + 1 => do
    if ← eatWord "elseif" then
      let c ← condition fuel
      let body ← block fuel ["elseif", "else", "endif"]
      return .elseIf c body (← alternatives fuel)
    else if ← eatWord "else" then
      expect .colon
      let body ← block fuel ["endif"]
      expectWord "endif"
      terminator
      return .otherwise body
    else
      expectWord "endif"
      terminator
      return .none

/-- The rest of a loop over a collection whose keyword stands on `line`. -/
def foreachAt : Nat → Nat → Parser Stmt
  | 0, _ => fail .tooDeep
  | fuel + 1, line => do
    expect .leftParen
    let subject ← exprAt fuel .orWord
    expectWord "as"
    let first ← loopVariable
    let second ← if ← eat .doubleArrow then some <$> loopVariable else pure none
    expect .rightParen
    expect .colon
    let body ← block fuel ["endforeach"]
    expectWord "endforeach"
    terminator
    match second with
    | some value => return .foreach subject (some first) value body line
    | none => return .foreach subject none first body line

end

end Parser

/-- Steps enough for so many tokens: between two tokens lie at most the levels of expressions and
the statement around them. -/
def parseSteps (tokens : Nat) : Nat := 20 * (tokens + 2)

def TokenStream.program (s : TokenStream) : Except SyntaxError Program := do
  let (body, _) ← (Parser.block (parseSteps s.tokens.length) []).run s
  return ⟨body⟩

def Program.parse (source : String) : Except SyntaxError Program := do
  (← tokenize source).program

end ViewTemplate.Code
