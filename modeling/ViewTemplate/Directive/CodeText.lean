import ViewTemplate.Code.Token
import ViewTemplate.Text.Case
import ViewTemplate.Value.Number

namespace ViewTemplate.Directive

def codeBlock (statements : String) : String :=
  Code.openTag ++ " " ++ statements ++ " " ++ Code.closeTag

def loopVariable (name field : String) : String := "$_foreach_" ++ name ++ "_" ++ field

/-- A loop over `subject`, guarded against an empty one. It counts its rounds, and at the start of
each sets the fields that a template can ask for. -/
def loopOpening (subject head name : String) : String :=
  let counter := loopVariable name "counter"
  let total := loopVariable name "total"
  codeBlock ("if (!empty(" ++ subject ++ ")) : " ++ counter ++ " = 0; " ++ total ++ " = count(" ++
    subject ++ ");") ++
  codeBlock ("foreach (" ++ head ++ ") :") ++
  codeBlock (loopVariable name "index" ++ " = " ++ counter ++ "; " ++
    loopVariable name "iteration" ++ " = " ++ counter ++ " + 1; " ++
    loopVariable name "first" ++ " = (" ++ counter ++ " == 0); " ++
    loopVariable name "last" ++ " = (" ++ counter ++ " == " ++ total ++ " - 1); " ++
    counter ++ " = " ++ counter ++ " + 1;")

/-- The words that stand for a value of their own, in any case. -/
def valueWords : List String := ["true", "false", "null"]

def isCode (word : String) : Bool :=
  word.toList.head?.any ("$'\"([".toList.contains ·) || (Number.ofText? word).isSome ||
    valueWords.contains (Text.lowerAscii word)

def escapeQuote (c : Char) : List Char := if c = '\\' ∨ c = '\'' then ['\\', c] else [c]

/-- A word as code: quoted, unless it is code already. -/
def quoteWord (word : String) : String :=
  if isCode word then word
  else String.ofList ('\'' :: word.toList.flatMap escapeQuote ++ ['\''])

end ViewTemplate.Directive
