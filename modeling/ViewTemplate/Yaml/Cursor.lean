namespace ViewTemplate.Yaml

def isAllowed (c : Char) : Bool :=
  c = '\t' || c = '\n' || c = '\r' || (32 ≤ c.toNat && c.toNat ≤ 126) || c.toNat = 0x85 ||
    (0xa0 ≤ c.toNat && c.toNat ≠ 0xfffe && c.toNat ≠ 0xffff)

/-- All line ends as line feeds, but for the line and paragraph separators. -/
def unifyBreaks : List Char → List Char
  | [] => []
  | '\r' :: '\n' :: rest => '\n' :: unifyBreaks rest
  | c :: rest => (if c = '\r' || c.toNat = 0x85 then '\n' else c) :: unifyBreaks rest

def isBlank (c : Char) : Bool := c = ' ' || c = '\t'

def isBreak (c : Char) : Bool := c = '\n' || c.toNat = 0x2028 || c.toNat = 0x2029

def endsToken : List Char → Bool
  | [] => true
  | c :: _ => isBlank c || isBreak c

def endsLine : List Char → Bool
  | [] => true
  | c :: _ => isBreak c

def isNamePart (c : Char) : Bool := c.isAlphanum || c = '_' || c = '-'

/-- What is left of a text, and the line and column where it starts. -/
structure Cursor where
  rest : List Char
  line : Nat
  column : Nat

namespace Cursor

def next (p : Cursor) : Cursor :=
  match p.rest with
  | [] => p
  | c :: rest => if isBreak c then ⟨rest, p.line + 1, 0⟩ else ⟨rest, p.line, p.column + 1⟩

def skip (p : Cursor) : Nat → Cursor
  | 0 => p
  | n + 1 => p.next.skip n

def takeWhile (p : Cursor) (f : Char → Bool) : List Char × Cursor :=
  let taken := p.rest.takeWhile f
  (taken, p.skip taken.length)

def skipWhile (p : Cursor) (f : Char → Bool) : Cursor := (p.takeWhile f).2

def skipLine (p : Cursor) : Cursor := p.skipWhile fun c => !isBreak c

/-- Skips blanks, a comment and the line end; none if anything else stands there. -/
def skipToNextLine? (p : Cursor) : Option Cursor :=
  let p := p.skipWhile isBlank
  let p := if p.rest.head? = some '#' then p.skipLine else p
  if endsLine p.rest then some p.next else none

def atDocumentMark (p : Cursor) : Bool :=
  p.column = 0 && (p.rest.take 3 = ['-', '-', '-'] || p.rest.take 3 = ['.', '.', '.']) &&
    endsToken (p.rest.drop 3)

end Cursor

end ViewTemplate.Yaml
