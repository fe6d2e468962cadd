import ViewTemplate.Pattern.Basic

namespace ViewTemplate

structure Found where
  span : Span
  groups : List (Nat × Span)

/-- The text that a group matched last, if it took part. -/
def Found.group? (f : Found) (number : Nat) : Option String :=
  (f.groups.find? fun g => g.1 = number).map fun g => String.ofList g.2.text

def Found.group (f : Found) (number : Nat) : String := (f.group? number).getD ""

/-- A text is cut into matches and the characters that belong to none. -/
inductive Piece where
  | kept (c : Char)
  | found (f : Found)

namespace Pattern

/-- The pieces of a text that follows the character `before`. A match that takes nothing is none. -/
def pieces (p : Pattern) (before : Option Char) (cs : List Char) : List Piece :=
  match cs with
  | [] => []
  | c :: rest =>
    match p.run some ⟨before, c :: rest, 0, []⟩ with
    | some m =>
      if _shorter : m.rest.length < (c :: rest).length then
        .found ⟨⟨c :: rest, m.position⟩, m.groups⟩ :: pieces p m.before m.rest
      else .kept c :: pieces p (some c) rest
    | none => .kept c :: pieces p (some c) rest
termination_by cs.length
decreasing_by
  · exact _shorter
  · exact Nat.lt_succ_self _
  · exact Nat.lt_succ_self _

def first? (p : Pattern) (cs : List Char) : Option (List Char × Found) :=
  let rec go (before : List Char) : List Piece → Option (List Char × Found)
    | [] => none
    | .kept c :: rest => go (c :: before) rest
    | .found f :: _ => some (before.reverse, f)
  go [] (p.pieces none cs)

def all (p : Pattern) (cs : List Char) : List Found :=
  (p.pieces none cs).filterMap fun
    | .kept _ => none
    | .found f => some f

def replace? (p : Pattern) (replacement : Found → String) (cs : List Char) : Option (List Char) :=
  let pieces := p.pieces none cs
  if pieces.any (· matches .found _) then
    some (pieces.flatMap fun
      | .kept c => [c]
      | .found f => (replacement f).toList)
  else none

end Pattern

end ViewTemplate
