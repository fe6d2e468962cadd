import ViewTemplate.Yaml.Scalar
import ViewTemplate.Yaml.Tag

namespace ViewTemplate.Yaml

inductive Token where
  | directive (d : Directive)
  | documentStart
  | documentEnd
  | blockSequence
  | blockMapping
  | blockEnd
  | flowSequence
  | flowSequenceEnd
  | flowMapping
  | flowMappingEnd
  | flowEntry
  | blockEntry
  | key
  | value
  | anchor (name : String)
  | reference (name : String)
  | tag (name : TagName)
  | scalar (text : String) (style : Style)
  deriving DecidableEq

/-- A place where a key without a question mark may begin: how many tokens stand in front of it, and
whether it must be a key because it stands in the column of a mapping. -/
structure KeyStart where
  position : Nat
  line : Nat
  column : Nat
  isRequired : Bool

/-- What was read so far. The block collections around the place have the columns `indent` and
`outerIndents`; each flow collection around it adds to `outerKeys`. -/
structure Lexer where
  cursor : Cursor
  tokens : Array Token
  indent : Int
  outerIndents : List Int
  /-- Whether a key may begin at the next token. -/
  allowsKey : Bool
  key : Option KeyStart
  outerKeys : List (Option KeyStart)

/-- The columns of block collections down to `column`: how many are deeper, and the others. -/
def endedBlocks (column indent : Int) : List Int → Nat × Int × List Int
  | [] => (0, indent, [])
  | outer :: rest =>
    if column < indent then
      let (n, indent, outerIndents) := endedBlocks column outer rest
      (n + 1, indent, outerIndents)
    else (0, indent, outer :: rest)

/-- A key is at most this long. -/
def maxKeyLength : Nat := 1024

/-- Whether a key that begins here would have ended before `p`: keys end on their line. -/
def KeyStart.isPast (k : KeyStart) (p : Cursor) : Bool :=
  k.line < p.line || k.column + maxKeyLength < p.column

namespace Lexer

def start (cs : List Char) : Lexer := ⟨⟨cs, 0, 0⟩, #[], -1, [], true, none, []⟩

def inFlow (l : Lexer) : Bool := !l.outerKeys.isEmpty

def push (l : Lexer) (t : Token) : Lexer := { l with tokens := l.tokens.push t }

def take (l : Lexer) (t : Token) (length : Nat) : Lexer :=
  { l.push t with cursor := l.cursor.skip length }

def insert (l : Lexer) (position : Nat) (t : Token) : Lexer :=
  { l with tokens := l.tokens.insertIdxIfInBounds position t }

def setAllowsKey (l : Lexer) (b : Bool) : Lexer := { l with allowsKey := b }

/-- Skips what stands between tokens. A tab cannot stand where a key may begin in a block, and a
byte order mark may begin a line. -/
def skipSpace : Nat → Lexer → Lexer
  | 0, l => l
  | fuel + 1, l =>
    match l.cursor.rest with
    | [] => l
    | c :: _ =>
      if c = ' ' || (c = '\t' && (l.inFlow || !l.allowsKey)) ||
          (c.toNat = 0xfeff && l.cursor.column = 0) then
        skipSpace fuel { l with cursor := l.cursor.next }
      else if c = '#' then skipSpace fuel { l with cursor := l.cursor.skipLine }
      else if isBreak c then
        skipSpace fuel { l with cursor := l.cursor.next, allowsKey := l.allowsKey || !l.inFlow }
      else l

def expireKeys? (l : Lexer) : Option Lexer :=
  let isLost (k : Option KeyStart) : Bool := k.any fun k => k.isPast l.cursor && k.isRequired
  let left (k : Option KeyStart) : Option KeyStart := k.filter fun k => !k.isPast l.cursor
  if (l.key :: l.outerKeys).any isLost then none
  else some { l with key := left l.key, outerKeys := l.outerKeys.map left }

def dropKey? (l : Lexer) : Option Lexer :=
  if l.key.any (·.isRequired) then none else some { l with key := none }

def markKey? (l : Lexer) : Option Lexer :=
  if l.allowsKey then
    let isRequired := !l.inFlow && l.indent = l.cursor.column
    l.dropKey?.map fun l =>
      { l with key := some ⟨l.tokens.size, l.cursor.line, l.cursor.column, isRequired⟩ }
  else some l

/-- Opens a block collection in front of the token at `position` if it stands deeper. -/
def openBlock (l : Lexer) (column position : Nat) (t : Token) : Lexer :=
  if !l.inFlow && l.indent < column then
    { l.insert position t with indent := column, outerIndents := l.indent :: l.outerIndents }
  else l

def openBlockHere (l : Lexer) (t : Token) : Lexer := l.openBlock l.cursor.column l.tokens.size t

def closeBlocks (l : Lexer) (column : Int) : Lexer :=
  if l.inFlow then l
  else
    let (n, indent, outerIndents) := endedBlocks column l.indent l.outerIndents
    { l with tokens := l.tokens ++ Array.replicate n Token.blockEnd, indent, outerIndents }

/-- Closes all collections in front of a mark of the document. -/
def closeAll? (l : Lexer) : Option Lexer :=
  (l.closeBlocks (-1)).dropKey?.map (·.setAllowsKey false)

def directive? (l : Lexer) : Option Lexer := do
  let l ← l.closeAll?
  let p := l.cursor.next
  let (d, rest) ← Directive.read p.rest
  let p ← (p.skip (p.rest.length - rest.length)).skipToNextLine?
  return { l.push (.directive d) with cursor := p }

def documentMark? (l : Lexer) : Option Lexer :=
  let t := if l.cursor.rest.head? = some '-' then Token.documentStart else .documentEnd
  l.closeAll?.map (·.take t 3)

def openFlow? (l : Lexer) (t : Token) : Option Lexer :=
  l.markKey?.map fun l =>
    { l.take t 1 with key := none, outerKeys := l.key :: l.outerKeys, allowsKey := true }

/-- A bracket that closes nothing is left to the reader of the tokens. -/
def closeFlow? (l : Lexer) (t : Token) : Option Lexer :=
  l.dropKey?.map fun l =>
    let l := match l.outerKeys with
      | [] => l
      | key :: outerKeys => { l with key, outerKeys }
    (l.take t 1).setAllowsKey false

def comma? (l : Lexer) : Option Lexer :=
  l.dropKey?.map fun l => (l.take .flowEntry 1).setAllowsKey true

def dash? (l : Lexer) : Option Lexer :=
  if !l.inFlow && !l.allowsKey then none
  else (l.openBlockHere .blockSequence).dropKey?.map fun l =>
    (l.take .blockEntry 1).setAllowsKey true

def questionMark? (l : Lexer) : Option Lexer :=
  if !l.inFlow && !l.allowsKey then none
  else (l.openBlockHere .blockMapping).dropKey?.map fun l =>
    (l.take .key 1).setAllowsKey (!l.inFlow)

/-- A colon. What began where a key might is a key now. -/
def colon? (l : Lexer) : Option Lexer :=
  match l.key with
  | some k =>
    let l := (l.insert k.position .key).openBlock k.column k.position .blockMapping
    some (({ l with key := none }.take .value 1).setAllowsKey false)
  | none =>
    if !l.inFlow && !l.allowsKey then none
    else some (((l.openBlockHere .blockMapping).take .value 1).setAllowsKey (!l.inFlow))

def named? (l : Lexer) (t : String → Token) : Option Lexer := do
  let l ← l.markKey?
  let (name, p) := l.cursor.next.takeWhile isNamePart
  if name.isEmpty ||
      !(endsToken p.rest || p.rest.head?.any ('}' :: "?:,]%@\x60".toList).contains) then
    none
  else return { l.push (t (String.ofList name)) with cursor := p, allowsKey := false }

def tag? (l : Lexer) : Option Lexer := do
  let l ← l.markKey?
  let (name, rest) ← TagName.read l.cursor.rest
  if endsToken rest || (l.inFlow && rest.head? = some ',') then
    return (l.take (.tag name) (l.cursor.rest.length - rest.length)).setAllowsKey false
  else none

def block? (l : Lexer) (style : Style) : Option Lexer := do
  let l ← l.dropKey?
  let (text, p) ← readBlock (style = .folded) l.indent l.cursor.next
  return { l.push (.scalar text style) with cursor := p, allowsKey := true }

def quoted? (l : Lexer) (quote : Char) : Option Lexer := do
  let l ← l.markKey?
  let p := l.cursor.next
  let (text, p) ← readQuoted quote (p.rest.length + 1) .start p
  return { l.push (.scalar text .quoted) with cursor := p, allowsKey := false }

/-- A plain scalar. Behind the last line of it a key may begin. -/
def plain? (l : Lexer) : Option Lexer := do
  let l ← l.markKey?
  let p := l.cursor
  let (f, p) ← readPlain l.inFlow (l.indent + 1) (p.rest.length + 1) .start p
  return { l.push (.scalar (String.ofList f.text.reverse) .plain) with
    cursor := p, allowsKey := f.gap.hasBreak }

def step? (l : Lexer) : Option Lexer :=
  if l.cursor.atDocumentMark then l.documentMark?
  else match l.cursor.rest with
    | [] => none
    | c :: rest =>
      if c = '%' && l.cursor.column = 0 then l.directive?
      else if c = '[' then l.openFlow? .flowSequence
      else if c = '{' then l.openFlow? .flowMapping
      else if c = ']' then l.closeFlow? .flowSequenceEnd
      else if c = '}' then l.closeFlow? .flowMappingEnd
      else if c = ',' then l.comma?
      else if c = '-' && endsToken rest then l.dash?
      else if c = '?' && (l.inFlow || endsToken rest) then l.questionMark?
      else if c = ':' && (l.inFlow || endsToken rest) then l.colon?
      else if c = '*' then l.named? .reference
      else if c = '&' then l.named? .anchor
      else if c = '!' then l.tag?
      else if c = '|' && !l.inFlow then l.block? .literal
      else if c = '>' && !l.inFlow then l.block? .folded
      else if c = '\'' || c = '"' then l.quoted? c
      else if !(isIndicator c || isBlank c) || c = '-' || c = '?' || c = ':' then l.plain?
      else none

def run : Nat → Lexer → Option (List Token)
  | 0, _ => none
  | fuel + 1, l => do
    let l ← (l.skipSpace (l.cursor.rest.length + 1)).expireKeys?
    if l.cursor.rest.isEmpty then return (← l.closeAll?).tokens.toList
    else run fuel (← (l.closeBlocks l.cursor.column).step?)

end Lexer

def tokens? (text : String) : Option (List Token) :=
  let cs := text.toList
  if cs.all isAllowed then
    let cs := unifyBreaks cs
    (Lexer.start cs).run (cs.length + 1)
  else none

end ViewTemplate.Yaml
