import ViewTemplate.Code.Parser

namespace ViewTemplate.Code

namespace Parser

def named (fuel : Nat) (name : String) : Parser Expr := do
  skip
  let lower := Text.lowerAscii name
  if lower = "true" then return .literal (.bool true)
  else if lower = "false" then return .literal (.bool false)
  else if lower = "null" then return .literal .null
  else if ← eat .leftParen then
    if lower = "array" then return .array (← items fuel .rightParen)
    else return .call lower (← arguments fuel)
  else return .constant name

def behindItem (fuel : Nat) (close : Symbol) (item : Item) : Parser (List Item) := do
  if ← eat .comma then return item :: (← items fuel close)
  else
    expect close
    return [item]

def behindLoopVariables (fuel : Nat) (finish : List Stmt → Parser Stmt) : Parser Stmt := do
  expect .rightParen
  expect .colon
  let body ← block fuel ["endforeach"]
  expectWord "endforeach"
  terminator
  finish body

end Parser

namespace Parser.Tier

/-- How tight a level binds, the loosest first. -/
def rank : Tier → Nat
  | orWord => 0
  | andWord => 1
  | assignment => 2
  | ternary => 3
  | coalesce => 4
  | or => 5
  | and => 6
  | equality => 7
  | comparison => 8
  | concat => 9
  | additive => 10
  | multiplicative => 11
  | unary => 12
  | access => 13

theorem rank_le (t : Tier) : t.rank ≤ 13 := by cases t <;> decide

theorem rank_tighter {t : Tier} (h : t ≠ access) : t.tighter.rank = t.rank + 1 := by
  cases t <;> first | rfl | exact absurd rfl h

/-- What binds less tightly than this ends an expression of a level. The last operand of a ternary
takes in an assignment. -/
def floor : Tier → Nat
  | ternary => 2
  | t => t.rank

theorem floor_le_rank (t : Tier) : t.floor ≤ t.rank := by cases t <;> decide

theorem floor_le_tighter (t : Tier) : t.floor ≤ t.tighter.floor := by cases t <;> decide

end Parser.Tier

open ViewTemplate.Code.Parser (Tier)

/-- The level that goes on behind an expression when this token comes next. A parenthesis goes on
behind a name. -/
def Token.tier? : Token → Option Tier
  | .name s =>
    if Text.lowerAscii s = "or" then some .orWord
    else if Text.lowerAscii s = "and" then some .andWord
    else none
  | .symbol s =>
    match s with
    | .assign => some .assignment
    | .question => some .ternary
    | .coalesce => some .coalesce
    | .orOr => some .or
    | .andAnd => some .and
    | .eq | .notEq | .identical | .notIdentical => some .equality
    | .lt | .le | .gt | .ge => some .comparison
    | .dot => some .concat
    | .plus | .minus => some .additive
    | .star | .slash | .percent => some .multiplicative
    | .leftBracket | .arrow | .leftParen => some .access
    | _ => none
  | _ => none

mutual

/-- `Phrase t e ts`: the tokens `ts` stand for the expression `e` on the level `t`. -/
inductive Phrase : Tier → Expr → List Token → Prop where
  | looser {t : Tier} {e : Expr} {ts : List Token} (ht : t ≠ .access) (h : Phrase t.tighter e ts) :
      Phrase t e ts
  | binary {t : Tier} {op : BinaryOp} {tok : Token} {l r : Expr} {ts us : List Token}
      (hop : t.operator? tok = some op) (hl : Phrase t l ts) (hr : Phrase t.tighter r us) :
      Phrase t (.binary op l r) (ts ++ tok :: us)
  | assign {target v : Expr} {ts us : List Token} (hplace : target.isPlace = true)
      (ht : Phrase .access target ts) (hv : Phrase .assignment v us) :
      Phrase .assignment (.assign target v) (ts ++ .symbol .assign :: us)
  | ternary {c p n : Expr} {ts us vs : List Token} (hc : Phrase .coalesce c ts)
      (hp : Phrase .assignment p us) (hn : Phrase .assignment n vs) :
      Phrase .ternary (.ternary c p n)
        (ts ++ .symbol .question :: (us ++ .symbol .colon :: vs))
  | fallback {c n : Expr} {ts us : List Token} (hc : Phrase .coalesce c ts)
      (hn : Phrase .assignment n us) :
      Phrase .ternary (.fallback c n) (ts ++ .symbol .question :: .symbol .colon :: us)
  | coalesce {l r : Expr} {ts us : List Token} (hl : Phrase .or l ts) (hr : Phrase .coalesce r us) :
      Phrase .coalesce (.coalesce l r) (ts ++ .symbol .coalesce :: us)
  | unary {op : UnaryOp} {tok : Token} {e : Expr} {ts : List Token}
      (hop : Parser.unaryOperator? tok = some op) (h : Phrase .unary e ts) :
      Phrase .unary (.unary op e) (tok :: ts)
  | index {base key : Expr} {ts us : List Token} (hb : Phrase .access base ts)
      (hk : Phrase .orWord key us) :
      Phrase .access (.index base key)
        (ts ++ .symbol .leftBracket :: (us ++ [.symbol .rightBracket]))
  | append {base : Expr} {ts : List Token} (hb : Phrase .access base ts) :
      Phrase .access (.append base) (ts ++ [.symbol .leftBracket, .symbol .rightBracket])
  | property {base : Expr} {name : String} {ts : List Token} (hb : Phrase .access base ts) :
      Phrase .access (.property base name) (ts ++ [.symbol .arrow, .name name])
  | var (name : String) : Phrase .access (.var name) [.var name]
  | int (n : Int64) : Phrase .access (.literal (.int n)) [.int n]
  | float (x : Float) : Phrase .access (.literal (.float x)) [.float x]
  | string (s : String) : Phrase .access (.literal (.string s)) [.string s]
  | interpolated (parts : List StringPart) :
      Phrase .access (.interpolated parts) [.template parts]
  | true {name : String} (h : Text.lowerAscii name = "true") :
      Phrase .access (.literal (.bool Bool.true)) [.name name]
  | false {name : String} (h : Text.lowerAscii name = "false") :
      Phrase .access (.literal (.bool Bool.false)) [.name name]
  | null {name : String} (h : Text.lowerAscii name = "null") :
      Phrase .access (.literal .null) [.name name]
  | constant {name : String} (h : Text.lowerAscii name ∉ ["true", "false", "null"]) :
      Phrase .access (.constant name) [.name name]
  | parens {e : Expr} {ts : List Token} (h : Phrase .orWord e ts) :
      Phrase .access e (.symbol .leftParen :: (ts ++ [.symbol .rightParen]))
  | array {items : List Item} {ts : List Token} (h : ItemPhrases items ts) :
      Phrase .access (.array items) (.symbol .leftBracket :: (ts ++ [.symbol .rightBracket]))
  | arrayWord {name : String} {items : List Item} {ts : List Token}
      (hname : Text.lowerAscii name = "array") (h : ItemPhrases items ts) :
      Phrase .access (.array items)
        (.name name :: .symbol .leftParen :: (ts ++ [.symbol .rightParen]))
  | call {name : String} {args : List Expr} {ts : List Token}
      (hname : Text.lowerAscii name ∉ ["true", "false", "null", "array"])
      (h : ArgumentPhrases args ts) :
      Phrase .access (.call (Text.lowerAscii name) args)
        (.name name :: .symbol .leftParen :: (ts ++ [.symbol .rightParen]))

inductive ItemPhrase : Item → List Token → Prop where
  | value {v : Expr} {ts : List Token} (hv : Phrase .orWord v ts) : ItemPhrase (.value v) ts
  | keyed {k v : Expr} {ts us : List Token} (hk : Phrase .orWord k ts)
      (hv : Phrase .orWord v us) :
      ItemPhrase (.keyed k v) (ts ++ .symbol .doubleArrow :: us)

/-- Entries with commas between; one more comma may stand behind the last. -/
inductive ItemPhrases : List Item → List Token → Prop where
  | nil : ItemPhrases [] []
  | last {item : Item} {ts : List Token} (h : ItemPhrase item ts) : ItemPhrases [item] ts
  | cons {item : Item} {more : List Item} {ts us : List Token} (h : ItemPhrase item ts)
      (hmore : ItemPhrases more us) :
      ItemPhrases (item :: more) (ts ++ .symbol .comma :: us)

/-- Arguments with commas between; one more comma may stand behind the last. -/
inductive ArgumentPhrases : List Expr → List Token → Prop where
  | nil : ArgumentPhrases [] []
  | last {e : Expr} {ts : List Token} (h : Phrase .orWord e ts) : ArgumentPhrases [e] ts
  | cons {e : Expr} {more : List Expr} {ts us : List Token} (h : Phrase .orWord e ts)
      (hmore : ArgumentPhrases more us) :
      ArgumentPhrases (e :: more) (ts ++ .symbol .comma :: us)

end

inductive ExprPhrases : List Expr → List Token → Prop where
  | last {e : Expr} {ts : List Token} (h : Phrase .orWord e ts) : ExprPhrases [e] ts
  | cons {e : Expr} {more : List Expr} {ts us : List Token} (h : Phrase .orWord e ts)
      (hmore : ExprPhrases more us) : ExprPhrases (e :: more) (ts ++ .symbol .comma :: us)

/-- A condition in parentheses and the colon behind it. -/
def conditionTokens (ts : List Token) : List Token :=
  .symbol .leftParen :: (ts ++ [.symbol .rightParen, .symbol .colon])

/-- The loop variables between `as` and the closing parenthesis. -/
def loopVariableTokens : Option String → String → List Token
  | none, value => [.var value]
  | some key, value => [.var key, .symbol .doubleArrow, .var value]

def IsWord (word : String) (tok : Token) : Prop := ∃ s, tok = .name s ∧ Text.lowerAscii s = word

mutual

/-- `Sentence stmt ts`: the tokens `ts`, with the semicolon at their end, stand for `stmt`. -/
inductive Sentence : Stmt → List Token → Prop where
  | echo {w : Token} {es : List Expr} {ts : List Token} (hw : IsWord "echo" w)
      (h : ExprPhrases es ts) : Sentence (.echo es) (w :: (ts ++ [.symbol .semicolon]))
  | expr {e : Expr} {ts : List Token} (hstart : ∀ s, ts.head? ≠ some (.name s))
      (h : Phrase .orWord e ts) : Sentence (.expr e) (ts ++ [.symbol .semicolon])
  | unset {w : Token} {targets : List Expr} {ts : List Token} (hw : IsWord "unset" w)
      (hplace : ∀ e ∈ targets, e.isPlace = true) (h : ArgumentPhrases targets ts) :
      Sentence (.unset targets)
        (w :: .symbol .leftParen :: (ts ++ [.symbol .rightParen, .symbol .semicolon]))
  | cond {w : Token} {c : Expr} {body : List Stmt} {rest : Alternatives} {ts us vs : List Token}
      (hw : IsWord "if" w) (hc : Phrase .orWord c ts) (hbody : Passage body us)
      (hrest : Branches rest vs) :
      Sentence (.cond c body rest) (w :: (conditionTokens ts ++ (us ++ vs)))
  | loop {w end? : Token} {c : Expr} {body : List Stmt} {ts us : List Token}
      (hw : IsWord "while" w) (hc : Phrase .orWord c ts) (hbody : Passage body us)
      (hend : IsWord "endwhile" end?) :
      Sentence (.loop c body)
        (w :: (conditionTokens ts ++ (us ++ [end?, .symbol .semicolon])))
  | foreach {w as? end? : Token} {subject : Expr} {key : Option String} {value : String}
      {body : List Stmt} {line : Nat} {ts us : List Token} (hw : IsWord "foreach" w)
      (hsubject : Phrase .orWord subject ts) (has : IsWord "as" as?) (hbody : Passage body us)
      (hend : IsWord "endforeach" end?) :
      Sentence (.foreach subject key value body line)
        (w :: .symbol .leftParen :: (ts ++ as? :: (loopVariableTokens key value ++
          .symbol .rightParen :: .symbol .colon :: (us ++ [end?, .symbol .semicolon]))))
  | break {w : Token} {line : Nat} (hw : IsWord "break" w) :
      Sentence (.break line) [w, .symbol .semicolon]
  | continue {w : Token} {line : Nat} (hw : IsWord "continue" w) :
      Sentence (.continue line) [w, .symbol .semicolon]
  | include {w : Token} {target : Expr} {line : Nat} {ts : List Token} (hw : IsWord "include" w)
      (h : Phrase .orWord target ts) :
      Sentence (.include target line) (w :: (ts ++ [.symbol .semicolon]))

inductive Branches : Alternatives → List Token → Prop where
  | none {end? : Token} (hend : IsWord "endif" end?) :
      Branches .none [end?, .symbol .semicolon]
  | otherwise {w end? : Token} {body : List Stmt} {ts : List Token} (hw : IsWord "else" w)
      (hbody : Passage body ts) (hend : IsWord "endif" end?) :
      Branches (.otherwise body)
        (w :: .symbol .colon :: (ts ++ [end?, .symbol .semicolon]))
  | elseIf {w : Token} {c : Expr} {body : List Stmt} {rest : Alternatives}
      {ts us vs : List Token} (hw : IsWord "elseif" w) (hc : Phrase .orWord c ts)
      (hbody : Passage body us) (hrest : Branches rest vs) :
      Branches (.elseIf c body rest) (w :: (conditionTokens ts ++ (us ++ vs)))

/-- The statements of a block. Close tags may stand between them. -/
inductive Passage : List Stmt → List Token → Prop where
  | nil : Passage [] []
  | closeTag {body : List Stmt} {ts : List Token} (h : Passage body ts) :
      Passage body (.closeTag :: ts)
  | text {s : String} {body : List Stmt} {ts : List Token} (h : Passage body ts) :
      Passage (.text s :: body) (.text s :: ts)
  | cons {stmt : Stmt} {body : List Stmt} {ts us : List Token} (hs : Sentence stmt ts)
      (h : Passage body us) : Passage (stmt :: body) (ts ++ us)

end

end ViewTemplate.Code
