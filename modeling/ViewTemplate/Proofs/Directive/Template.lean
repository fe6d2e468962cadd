import ViewTemplate.Code.Program
import ViewTemplate.Directive.CodeText

namespace ViewTemplate.Directive

def isWordChar (c : Char) : Bool := c.isAlphanum || c = '_'

structure Identifier where
  head : Char
  tail : List Char
  head_ok : head.isAlpha = true ∨ head = '_'
  tail_ok : ∀ c ∈ tail, isWordChar c = true

def Identifier.chars (x : Identifier) : List Char := x.head :: x.tail

def Identifier.text (x : Identifier) : String := String.ofList x.chars

/-- A part of a path behind a dot. -/
structure Key where
  chars : List Char
  ne_nil : chars ≠ []
  chars_ok : ∀ c ∈ chars, isWordChar c = true

/-- A variable and keys below it; a rule changes a text at most 255 times. -/
structure VariablePath where
  name : Identifier
  keys : List Key
  length_le : keys.length ≤ 255

/-- Text between directives: not empty, without braces, at signs and open tags. -/
structure PlainText where
  chars : List Char
  ne_nil : chars ≠ []
  plain : ∀ c ∈ chars, c ≠ '{' ∧ c ≠ '}' ∧ c ≠ '@'
  noTag : ¬Code.openTag.toList <:+: chars

inductive LoopField where
  | index | iteration | first | last | total

def LoopField.name : LoopField → String
  | index => "index"
  | iteration => "iteration"
  | first => "first"
  | last => "last"
  | total => "total"

mutual

/-- Directives with text between them: no two texts are neighbours. -/
inductive Template where
  | done (lead : Option PlainText)
  | block (lead : Option PlainText) (b : Block) (rest : Template)

inductive Block where
  | echo (p : VariablePath)
  | raw (p : VariablePath)
  | field (v : Identifier) (f : LoopField)
  | cond (p : VariablePath) (body : Template) (rest : Tail)
  | loop (p : VariablePath) (body : Template)
  | each (p : VariablePath) (key : Option Identifier) (value : Identifier) (body : Template)
  | break
  | continue

/-- What follows the first branch of a condition. -/
inductive Tail where
  | done
  | otherwise (body : Template)
  | elseIf (p : VariablePath) (body : Template) (rest : Tail)

end

/-- What a directive does with a path. -/
inductive Use where
  | echo | raw | cond | elseCond | loop
  | each (key : Option Identifier) (value : Identifier)

inductive Word where
  | otherwise | endCond | endLoop | endEach | break | continue

/-- A directive by itself, without what it encloses. -/
inductive Mark where
  | path (use : Use) (p : VariablePath)
  | field (v : Identifier) (f : LoopField)
  | word (w : Word)

abbrev Segment := PlainText ⊕ Mark

def leading : Option PlainText → List Segment
  | none => []
  | some t => [.inl t]

mutual

/-- The texts and directives of a template in the order in which they are written. -/
def Template.segments : Template → List Segment
  | .done lead => leading lead
  | .block lead b rest => leading lead ++ (b.segments ++ rest.segments)

def Block.segments : Block → List Segment
  | .echo p => [.inr (.path .echo p)]
  | .raw p => [.inr (.path .raw p)]
  | .field v f => [.inr (.field v f)]
  | .cond p body rest => .inr (.path .cond p) :: (body.segments ++ rest.segments)
  | .loop p body => .inr (.path .loop p) :: (body.segments ++ [.inr (.word .endLoop)])
  | .each p key value body =>
    .inr (.path (.each key value) p) :: (body.segments ++ [.inr (.word .endEach)])
  | .break => [.inr (.word .break)]
  | .continue => [.inr (.word .continue)]

def Tail.segments : Tail → List Segment
  | .done => [.inr (.word .endCond)]
  | .otherwise body => .inr (.word .otherwise) :: (body.segments ++ [.inr (.word .endCond)])
  | .elseIf p body rest => .inr (.path .elseCond p) :: (body.segments ++ rest.segments)

end

def Use.before : Use → List Char
  | echo | raw => []
  | cond => ['i', 'f', ' ']
  | elseCond => ['e', 'l', 's', 'e', ' ', 'i', 'f', ' ']
  | loop => ['w', 'h', 'i', 'l', 'e', ' ']
  | each _ _ => ['f', 'o', 'r', 'e', 'a', 'c', 'h', ' ']

def Use.after : Use → List Char
  | raw => [' ', 'n', 'o', 'f', 'i', 'l', 't', 'e', 'r']
  | each none value => [' ', 'a', 's', ' ', '$'] ++ value.chars
  | each (some key) value =>
    [' ', 'a', 's', ' ', '$'] ++ key.chars ++ [' ', '=', '>', ' ', '$'] ++ value.chars
  | _ => []

def Word.chars : Word → List Char
  | .otherwise => ['e', 'l', 's', 'e']
  | .endCond => ['/', 'i', 'f']
  | .endLoop => ['/', 'w', 'h', 'i', 'l', 'e']
  | .endEach => ['/', 'f', 'o', 'r', 'e', 'a', 'c', 'h']
  | .break => ['b', 'r', 'e', 'a', 'k']
  | .continue => ['c', 'o', 'n', 't', 'i', 'n', 'u', 'e']

def Key.dotted (k : Key) : List Char := '.' :: k.chars

def Key.bracketed (k : Key) : List Char := '[' :: '\'' :: (k.chars ++ ['\'', ']'])

/-- A path behind its dollar sign, with its first `n` keys as subscripts. -/
def VariablePath.shown (p : VariablePath) (n : Nat) : List Char :=
  p.name.chars ++ ((p.keys.take n).flatMap Key.bracketed ++ (p.keys.drop n).flatMap Key.dotted)

/-- A directive between its braces, with at most `n` keys of its path as subscripts. -/
def Mark.content (n : Nat) : Mark → List Char
  | .path use p => use.before ++ '$' :: (p.shown n ++ use.after)
  | .field v f => '$' :: (v.chars ++ '@' :: f.name.toList)
  | .word w => w.chars

def braced (content : List Char) : List Char := '{' :: (content ++ ['}'])

def Segment.shown (n : Nat) : Segment → List Char :=
  Sum.elim PlainText.chars fun d => braced (d.content n)

def shownText (n : Nat) (ss : List Segment) : List Char := ss.flatMap (Segment.shown n)

def Template.text (t : Template) : String := String.ofList (shownText 0 t.segments)

open Code (Expr Stmt Alternatives)

/-- What a path reads. -/
def VariablePath.expr (p : VariablePath) : Expr :=
  p.keys.foldl (fun base k => .index base (.literal (.string (String.ofList k.chars))))
    (.var p.name.text)

/-- The name of the variable that holds a field of the loop over a variable. -/
def loopName (v : Identifier) (field : String) : String :=
  "_foreach_" ++ v.text ++ "_" ++ field

def strval (e : Expr) : Expr := .call "strval" [e]

/-- What is written is escaped, unless the template says otherwise. -/
def escapedEchoOf (e : Expr) : Stmt := .echo [.call "escape" [strval e]]

/-- The count of the rounds, the number of elements, and one assignment for each field that a
template can ask for. -/
def loopFields (v : Identifier) : List Stmt :=
  let counter : Expr := .var (loopName v "counter")
  let set := fun field value => Stmt.expr (.assign (.var (loopName v field)) value)
  [set "index" counter,
    set "iteration" (.binary .add counter (.literal (.int 1))),
    set "first" (.binary .eq counter (.literal (.int 0))),
    set "last" (.binary .eq counter
      (.binary .sub (.var (loopName v "total")) (.literal (.int 1)))),
    set "counter" (.binary .add counter (.literal (.int 1)))]

/-- A loop that runs only over what is not empty. -/
def eachStmt (subject : Expr) (key : Option Identifier) (value : Identifier) (body : List Stmt) :
    Stmt :=
  .cond (.unary .not (.call "empty" [subject]))
    [.expr (.assign (.var (loopName value "counter")) (.literal (.int 0))),
      .expr (.assign (.var (loopName value "total")) (.call "count" [subject])),
      .foreach subject (key.map Identifier.text) value.text (loopFields value ++ body) 0]
    .none

def leadStmts : Option PlainText → List Stmt
  | none => []
  | some t => [.text (String.ofList t.chars)]

mutual

def Template.stmts : Template → List Stmt
  | .done lead => leadStmts lead
  | .block lead b rest => leadStmts lead ++ b.stmt :: rest.stmts

def Block.stmt : Block → Stmt
  | .echo p => escapedEchoOf p.expr
  | .raw p => .echo [strval p.expr]
  | .field v f => escapedEchoOf (.var (loopName v f.name))
  | .cond p body rest => .cond p.expr body.stmts rest.alternatives
  | .loop p body => .loop p.expr body.stmts
  | .each p key value body => eachStmt p.expr key value body.stmts
  | .break => .break 0
  | .continue => .continue 0

def Tail.alternatives : Tail → Alternatives
  | .done => .none
  | .otherwise body => .otherwise body.stmts
  | .elseIf p body rest => .elseIf p.expr body.stmts rest.alternatives

end

end ViewTemplate.Directive
