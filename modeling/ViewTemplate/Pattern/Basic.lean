import ViewTemplate.Text.Blank
import ViewTemplate.Text.Case
import ViewTemplate.Text.Letter

/-!
Patterns over text. A pattern is matched at a place by trying its ways in order, so that the first
way that lets the rest of the pattern match is the one that counts.
-/

namespace ViewTemplate

/-- A stretch of a text: what the text is from its start on, and how long it is. -/
structure Span where
  start : List Char
  length : Nat

def Span.text (s : Span) : List Char := s.start.take s.length

/-- A place that a match has reached: the character before it, what follows it, how far it is from
where the match began, and what the groups took, the latest first. -/
structure Cursor where
  before : Option Char
  rest : List Char
  position : Nat
  groups : List (Nat × Span)

inductive Pattern where
  | empty
  | char (p : Char → Bool)
  | seq (a b : Pattern)
  | alt (a b : Pattern)
  /-- Any number of times, rather more than fewer. -/
  | many (a : Pattern)
  /-- Any number of times, rather fewer than more. -/
  | few (a : Pattern)
  /-- Keeps what it takes under a number. -/
  | group (number : Nat) (a : Pattern)
  /-- Takes nothing, where the pattern does not match. -/
  | notAhead (a : Pattern)
  /-- Takes nothing, between a character of a word and one that is none. -/
  | wordEdge
  /-- Takes nothing, at the end of the text. -/
  | atEnd

namespace Pattern

instance : Append Pattern := ⟨seq⟩

/-- A matcher is told how the match goes on. -/
abbrev Matcher := (Cursor → Option Cursor) → Cursor → Option Cursor

/-- Repeats a matcher as long as it takes something; `room` is at least as long as what follows. -/
def repeated (greedy : Bool) (step : Matcher) (next : Cursor → Option Cursor) :
    List Char → Cursor → Option Cursor
  | [], m => next m
  | _ :: room, m =>
    let again := fun _ : Unit =>
      step (fun n => if m.position < n.position then repeated greedy step next room n else none) m
    if greedy then (again ()).orElse fun _ => next m else (next m).orElse again

def run : Pattern → Matcher
  | empty, next, m => next m
  | char p, next, m =>
    match m.rest with
    | c :: rest =>
      if p c then next { m with before := some c, rest, position := m.position + 1 } else none
    | [] => none
  | seq a b, next, m => a.run (b.run next) m
  | alt a b, next, m => (a.run next m).orElse fun _ => b.run next m
  | many a, next, m => repeated true a.run next m.rest m
  | few a, next, m => repeated false a.run next m.rest m
  | group number a, next, m =>
    a.run (fun n =>
      next { n with groups := (number, ⟨m.rest, n.position - m.position⟩) :: n.groups }) m
  | notAhead a, next, m => if (a.run some m).isSome then none else next m
  | wordEdge, next, m =>
    if m.before.any Text.isWordPart ≠ m.rest.head?.any Text.isWordPart then next m else none
  | atEnd, next, m => if m.rest.isEmpty then next m else none

def many1 (a : Pattern) : Pattern := a ++ many a

def few1 (a : Pattern) : Pattern := a ++ few a

def exact (s : String) : Pattern :=
  s.toList.foldr (fun c rest => char (fun d => d = c) ++ rest) empty

def anyCase (s : String) : Pattern :=
  s.toList.foldr (fun c rest =>
    let folded := Text.foldChar c
    char (fun d => Text.foldChar d = folded) ++ rest) empty

def blank : Pattern := char Text.isBlank

def inLine : Pattern := char fun c => c ≠ '\n'

def wordOr (others : String) : Pattern :=
  let others := others.toList
  char fun c => Text.isWordPart c || others.contains c

def wordPart : Pattern := char Text.isWordPart

/-- The first of some patterns that lets the rest match. -/
def oneOf : List Pattern → Pattern
  | [] => notAhead empty
  | [a] => a
  | a :: rest => alt a (oneOf rest)

end Pattern

end ViewTemplate
