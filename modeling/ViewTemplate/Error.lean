import ViewTemplate.Code.SyntaxError
import ViewTemplate.Path

namespace ViewTemplate

inductive OsError where
  | notFound
  | alreadyExists
  | notDirectory
  | isDirectory
  | invalidText
  | other (message : String)
  deriving DecidableEq

def OsError.message : OsError → String
  | notFound => "No such file or directory (os error 2)"
  | alreadyExists => "File exists (os error 17)"
  | notDirectory => "Not a directory (os error 20)"
  | isDirectory => "Is a directory (os error 21)"
  | invalidText => "stream did not contain valid UTF-8"
  | other message => message

inductive ConfigFault where
  | emptyDelimiters
  | equalDelimiters (delimiter : String)
  | reservedDelimiter (delimiter : String)
  | invalidExtension (extension : String)
  | noIncludeDepth
  | unreadable (path : Path) (cause : OsError)
  | invalidDocument

def ConfigFault.message : ConfigFault → String
  | emptyDelimiters => "delimiters must not be empty"
  | equalDelimiters d => "left and right delimiters must differ (both are '" ++ d ++ "')"
  | reservedDelimiter d => "delimiter '" ++ d ++ "' overlaps the generated code syntax"
  | invalidExtension e => "invalid artifact extension '" ++ e ++ "'"
  | noIncludeDepth => "max-include-depth must be at least 1"
  | unreadable path cause => "cannot read " ++ path.text ++ ": " ++ cause.message
  | invalidDocument => "invalid config"

inductive CompileFault where
  /-- An action on a file failed. -/
  | file (action : String) (cause : OsError)
  /-- A rule kept matching what it had written. -/
  | noFixedPoint (rule : String)
  /-- The code that was generated is no program. -/
  | invalidCode (cause : Code.SyntaxError)
  /-- The code that was handed in is no program. -/
  | malformed (cause : Code.SyntaxError)

def CompileFault.message : CompileFault → String
  | file action cause => action ++ ": " ++ cause.message
  | noFixedPoint rule => "rule '" ++ rule ++ "' did not reach a fixed point"
  | invalidCode cause => "invalid generated code: " ++ cause.message
  | malformed cause => cause.message

inductive OperatorError where
  | unsupported (operator typeName : String)
  | divisionByZero
  | moduloByZero

def OperatorError.message : OperatorError → String
  | unsupported operator typeName =>
    "Unsupported operand type for " ++ operator ++ ": " ++ typeName
  | divisionByZero => "Division by zero"
  | moduloByZero => "Modulo by zero"

inductive RenderFault where
  | foreignArtifact
  | undefinedVariable (name : String)
  | undefinedKey (key : String)
  | undefinedOffset (key : String)
  | offsetOnNull (key : String)
  | readOfAppend
  | notAssignable
  | scalarAsArray (typeName : String)
  | undefinedConstant (name : String)
  | undefinedFunction (name : String)
  | emptyArguments
  | operator (cause : OperatorError)
  | outsideLoop (keyword : String) (line : Nat)
  | function (name message : String)

def RenderFault.message : RenderFault → String
  | foreignArtifact => "Render Error: artifact was not produced for this runtime"
  | undefinedVariable name => "Undefined variable $" ++ name
  | undefinedKey key => "Undefined array key \"" ++ key ++ "\""
  | undefinedOffset key => "Uninitialized string offset " ++ key
  | offsetOnNull key => "Trying to access array offset \"" ++ key ++ "\" on null"
  | readOfAppend => "Cannot use [] for reading"
  | notAssignable => "Cannot assign to this expression"
  | scalarAsArray typeName => "Cannot use a scalar value (" ++ typeName ++ ") as an array"
  | undefinedConstant name => "Undefined constant \"" ++ name ++ "\""
  | undefinedFunction name => "Call to undefined function " ++ name ++ "()"
  | emptyArguments => "empty() expects exactly 1 argument"
  | operator cause => cause.message
  | outsideLoop keyword line =>
    "'" ++ keyword ++ "' not in loop context (line " ++ toString line ++ ")"
  | function name message => name ++ "(): " ++ message

inductive TemplateError where
  | notFound (name : String) (attempted : List Path)
  | layoutConflict (path : Path)
  | compile (path : Path) (fault : CompileFault)
  | render (path : Path) (fault : RenderFault)
  | recursiveInclude (name : String) (maxDepth : Nat)
  /-- A function ended the rendering and gave the output. -/
  | earlyExit (output : String)
  | config (fault : ConfigFault)

def TemplateError.message : TemplateError → String
  | notFound name attempted =>
    "Template not found: '" ++ name ++ "' (tried: " ++
      String.intercalate ", " (attempted.map (·.text)) ++ ")"
  | layoutConflict path => "Layout can't be the same as the view file: " ++ path.text
  | compile path fault => "Compile error in " ++ path.text ++ ": " ++ fault.message
  | render path fault => "Render error in " ++ path.text ++ ": " ++ fault.message
  | recursiveInclude name maxDepth =>
    "Recursive include detected (depth > " ++ toString maxDepth ++ "): " ++ name
  | earlyExit _ => "Rendering stopped early"
  | config fault => "Configuration error: " ++ fault.message

end ViewTemplate
