import ViewTemplate.Yaml.Scalar

namespace ViewTemplate.Yaml

inductive Node where
  | scalar (text : String) (style : Style) (tag : Option String)
  | sequence (items : List Node)
  | mapping (entries : List (Node × Node))
  /-- Another node with this number. -/
  | reference (number : Nat)
  | numbered (number : Nat) (node : Node)

namespace Node

def empty : Node := .scalar "" .plain none

mutual

/-- The last node, in the order of the text, that bears a number. -/
def findLast? (number : Nat) : Node → Option Node
  | .numbered n node => (findLast? number node).or (if n = number then some node else none)
  | .sequence items => findLastInItems? number items
  | .mapping entries => findLastInEntries? number entries
  | .scalar .. | .reference _ => none

def findLastInItems? (number : Nat) : List Node → Option Node
  | [] => none
  | node :: rest => (findLastInItems? number rest).or (findLast? number node)

def findLastInEntries? (number : Nat) : List (Node × Node) → Option Node
  | [] => none
  | (key, value) :: rest =>
    ((findLastInEntries? number rest).or (findLast? number value)).or (findLast? number key)

end

/-- The node that is meant in a document with the given root: a reference means the node with its
number. -/
def resolvedIn (node root : Node) : Node :=
  match node with
  | .numbered _ node => node
  | .reference number => (findLast? number root).getD .empty
  | node => node

end Node

end ViewTemplate.Yaml
