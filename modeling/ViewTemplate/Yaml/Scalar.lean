import ViewTemplate.Value.Json
import ViewTemplate.Yaml.Cursor

namespace ViewTemplate.Yaml

inductive Style where
  | plain
  | quoted
  | literal
  | folded
  deriving DecidableEq

/-- What stands between two words of a scalar: the blanks of one line, or the first line end and
those behind it, all in reverse. There is no first line end where it is escaped. -/
inductive Gap where
  | blanks (cs : List Char)
  | breaks (first : Option Char) (more : List Char)

namespace Gap

def add (g : Gap) (c : Char) : Gap :=
  match g with
  | .blanks cs => if isBreak c then .breaks (some c) [] else .blanks (c :: cs)
  | .breaks first more => .breaks first (if isBreak c then c :: more else more)

/-- A single line feed counts as a space; of several the first does not count. -/
def text : Gap → List Char
  | .blanks cs => cs
  | .breaks (some '\n') [] => [' ']
  | .breaks (some '\n') more => more
  | .breaks first more => more ++ first.toList

def isEmpty : Gap → Bool
  | .blanks [] => true
  | _ => false

def hasBreak : Gap → Bool
  | .blanks _ => false
  | .breaks .. => true

end Gap

/-- The words of a scalar so far, in reverse, and the gap behind them. -/
structure Folding where
  text : List Char
  gap : Gap

namespace Folding

def start : Folding := ⟨[], .blanks []⟩

def joined (f : Folding) : List Char := f.gap.text ++ f.text

def push (f : Folding) (c : Char) : Folding := ⟨c :: f.joined, .blanks []⟩

def space (f : Folding) (c : Char) : Folding := { f with gap := f.gap.add c }

/-- An escaped line end counts as nothing, and so do the blanks behind it. -/
def joinLines (f : Folding) : Folding := ⟨f.joined, .breaks none []⟩

end Folding

def unescape? (c : Char) : Option Char :=
  if c = '"' ∨ c = '\\' ∨ c = '/' ∨ c = ' ' ∨ c = '\t' then some c
  else match c with
    | '0' => some (Char.ofNat 0)
    | 'a' => some (Char.ofNat 7)
    | 'b' => some (Char.ofNat 8)
    | 't' => some '\t'
    | 'n' => some '\n'
    | 'v' => some (Char.ofNat 11)
    | 'f' => some (Char.ofNat 12)
    | 'r' => some '\r'
    | 'e' => some (Char.ofNat 27)
    | 'N' => some (Char.ofNat 0x85)
    | '_' => some (Char.ofNat 0xa0)
    | 'L' => some (Char.ofNat 0x2028)
    | 'P' => some (Char.ofNat 0x2029)
    | _ => none

def hexLength? : Char → Option Nat
  | 'x' => some 2
  | 'u' => some 4
  | 'U' => some 8
  | _ => none

def readHex? (length : Nat) (cs : List Char) : Option Char := do
  let digits ← (cs.take length).mapM Json.hexValue?
  let n := digits.foldl (fun n d => 16 * n + d) 0
  if digits.length = length ∧ (n < 0xd800 ∨ 0xdfff < n) ∧ n < 0x110000 then some (Char.ofNat n)
  else none

def readEscape? : List Char → Option (Char × Nat)
  | [] => none
  | c :: rest =>
    match unescape? c, hexLength? c with
    | some d, _ => some (d, 1)
    | none, some n => (readHex? n rest).map fun d => (d, n + 1)
    | none, none => none

/-- A quoted scalar up to its closing quote. Two single quotes are one, and a backslash is a mark
between double quotes only. No line of it may begin with a document mark. -/
def readQuoted (quote : Char) : Nat → Folding → Cursor → Option (String × Cursor)
  | 0, _, _ => none
  | fuel + 1, f, p =>
    if p.atDocumentMark then none
    else match p.rest with
      | [] => none
      | c :: rest =>
        if isBlank c || isBreak c then readQuoted quote fuel (f.space c) p.next
        else if c = quote then
          if quote = '\'' && rest.head? = some quote then
            readQuoted quote fuel (f.push c) (p.skip 2)
          else some (String.ofList f.joined.reverse, p.next)
        else if c = '\\' && quote = '"' then
          if rest.head?.any isBreak then readQuoted quote fuel f.joinLines (p.skip 2)
          else match readEscape? rest with
            | some (d, n) => readQuoted quote fuel (f.push d) (p.skip (n + 1))
            | none => none
        else readQuoted quote fuel (f.push c) p.next

def isFlowMark (c : Char) : Bool := ",[]{}".toList.contains c

/-- The marks that no plain scalar begins with, unless a dash, question mark or colon stands in
front of a character of the scalar. -/
def isIndicator (c : Char) : Bool := "-?:,[]{}#&*!|>'\"%@\x60".toList.contains c

def endsPlain (inFlow : Bool) : List Char → Bool
  | [] => true
  | c :: rest => (c = ':' && endsToken rest) || (inFlow && isFlowMark c)

/-- A colon in front of a mark of a flow collection is refused. -/
def isStrayColon (inFlow : Bool) : List Char → Bool
  | ':' :: c :: _ => inFlow && (isFlowMark c || c = '?')
  | _ => false

/-- A plain scalar with the gap behind it. Its lines are indented by at least `indent` in a block;
a tab cannot indent them. -/
def readPlain (inFlow : Bool) (indent : Int) : Nat → Folding → Cursor → Option (Folding × Cursor)
  | 0, _, _ => none
  | fuel + 1, f, p =>
    match p.rest with
    | [] => some (f, p)
    | c :: _ =>
      if isBlank c || isBreak c then
        if f.gap.hasBreak && p.column < indent && c = '\t' then none
        else readPlain inFlow indent fuel (f.space c) p.next
      else if (!f.gap.isEmpty && (c = '#' || (!inFlow && p.column < indent))) ||
        p.atDocumentMark then
        some (f, p)
      else if isStrayColon inFlow p.rest then none
      else if endsPlain inFlow p.rest then some (f, p)
      else readPlain inFlow indent fuel (f.push c) p.next

/-- The marks of a block scalar: how line ends at the end are kept, and how far it is indented. -/
structure BlockStyle where
  /-- All line ends at the end are kept, or none; one is by default. -/
  keep : Option Bool
  indent : Option Nat

def takeKeep : List Char → Option Bool × List Char
  | '+' :: rest => (some true, rest)
  | '-' :: rest => (some false, rest)
  | cs => (none, cs)

def takeIndent : List Char → Option Nat × List Char
  | [] => (none, [])
  | c :: rest => if c.isDigit then (some (c.toNat - '0'.toNat), rest) else (none, c :: rest)

/-- The two marks in any order, and what follows them. An indentation is not zero. -/
def readBlockStyle (cs : List Char) : Option (BlockStyle × List Char) :=
  let (before, cs) := takeKeep cs
  let (indent, cs) := takeIndent cs
  let (behind, cs) := if before.isSome then (none, cs) else takeKeep cs
  if indent = some 0 then none else some (⟨before.or behind, indent⟩, cs)

/-- Skips indentation and empty lines: up to the column `limit`, or any depth where it is not known
yet. Gives the greatest column and the line ends, in reverse. No tab may stand there. -/
def skipIndent (limit : Option Nat) :
    Nat → Nat → List Char → Cursor → Option (Nat × List Char × Cursor)
  | 0, _, _, _ => none
  | fuel + 1, deepest, breaks, p =>
    let isInside := limit.all (p.column < ·)
    match p.rest with
    | [] => some (max deepest p.column, breaks, p)
    | c :: _ =>
      if isInside && c = ' ' then skipIndent limit fuel deepest breaks p.next
      else if isInside && c = '\t' then none
      else if isBreak c then skipIndent limit fuel (max deepest p.column) (c :: breaks) p.next
      else some (max deepest p.column, breaks, p)

/-- The lines of a block scalar so far, in reverse: the line end behind them, the ends of the empty
lines behind that, and whether the last line begins with a blank. -/
structure BlockText where
  text : List Char
  lineEnd : List Char
  emptyLines : List Char
  isIndented : Bool

/-- Adds a line. In a folded scalar a line feed between two lines counts as a space, and as nothing
in front of empty lines, unless one of the two begins with a blank. -/
def BlockText.add (b : BlockText) (isFolded : Bool) (line : List Char) : BlockText :=
  let isIndented := line.head?.any isBlank
  let joint :=
    if isFolded && b.lineEnd = ['\n'] && !b.isIndented && !isIndented then
      if b.emptyLines.isEmpty then [' '] else []
    else b.lineEnd
  ⟨line.reverse ++ b.emptyLines ++ joint ++ b.text, [], [], isIndented⟩

def BlockText.close (b : BlockText) (style : BlockStyle) : String :=
  let ending := match style.keep with
    | some false => []
    | none => b.lineEnd
    | some true => b.emptyLines ++ b.lineEnd
  String.ofList (ending ++ b.text).reverse

def readBlockLines (isFolded : Bool) (indent : Nat) :
    Nat → BlockText → Cursor → Option (BlockText × Cursor)
  | 0, _, _ => none
  | fuel + 1, b, p =>
    if p.rest.isEmpty || p.column ≠ indent then some (b, p)
    else
      let (line, p) := p.takeWhile fun c => !isBreak c
      let b := b.add isFolded line
      match p.rest with
      | [] => some (b, p)
      | c :: rest => do
        let (_, emptyLines, p) ← skipIndent (some indent) (rest.length + 1) 0 [] p.next
        readBlockLines isFolded indent fuel { b with lineEnd := [c], emptyLines } p

/-- A block scalar in a collection at column `parent`. Where its style does not say how far it is
indented, its empty lines and the first other one do. -/
def readBlock (isFolded : Bool) (parent : Int) (p : Cursor) : Option (String × Cursor) := do
  let (style, rest) ← readBlockStyle p.rest
  let p ← (p.skip (p.rest.length - rest.length)).skipToNextLine?
  let steps := p.rest.length + 1
  let limit := style.indent.map (parent.toNat + ·)
  let (deepest, emptyLines, p) ← skipIndent limit steps 0 [] p
  let indent := limit.getD (max deepest (max (parent + 1) 1).toNat)
  let (b, p) ← readBlockLines isFolded indent steps ⟨[], [], emptyLines, false⟩ p
  return (b.close style, p)

end ViewTemplate.Yaml
