import ViewTemplate.Code.Parser
import ViewTemplate.Error

namespace ViewTemplate.Artifact

def engineVersion : String := "0.1.0"

/-- The engine as it signs what it writes. -/
def stamp : String := "stencil/" ++ engineVersion

def header : String := "#!stencil-artifact v1 " ++ stamp

/-- Whether a first line is the header of this engine; carriage returns at its end do not count. -/
def isCurrentHeader (line : List Char) : Bool :=
  Text.dropEndWhile (· = '\r') line = header.toList

def firstLine (text : List Char) : List Char := text.takeWhile (· ≠ '\n')

def afterFirstLine (text : List Char) : List Char := (text.dropWhile (· ≠ '\n')).drop 1

def ofCode (code : List Char) : String := header ++ "\n" ++ String.ofList code

def code (text : String) (path : Path) : Except TemplateError String :=
  if isCurrentHeader (firstLine text.toList) then
    .ok (String.ofList (afterFirstLine text.toList))
  else .error (.render path .foreignArtifact)

def program (text : String) (path : Path) : Except TemplateError Code.Program := do
  match Code.Program.parse (← code text path) with
  | .ok p => .ok p
  | .error e => .error (.compile path (.invalidCode e))

end ViewTemplate.Artifact
