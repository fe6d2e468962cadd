import ViewTemplate.Directive.CodeText
import ViewTemplate.Directive.Delimiters
import ViewTemplate.Pattern.Search

/-!
The table of rules that turn directives into code. Later rules see what earlier ones wrote.

A pattern is always found or not. That a matcher can give up at its limit for backtracking, with
which the compilation then fails, has no counterpart here.
-/

namespace ViewTemplate.Directive

open Pattern

/-- A pattern and the text that takes the place of its matches. -/
structure Rule where
  name : String
  pattern : Pattern
  replacement : Found → String

/-- Replaces all matches once; none when nothing matches. -/
def Rule.apply? (r : Rule) (text : List Char) : Option (List Char) :=
  r.pattern.replace? r.replacement text

/-- A variable with everything that a path below it may contain; each further character is one of
`others` or of a word. -/
def access (others : String) : Pattern := exact "$" ++ few1 (wordOr others)

def subject : Pattern := access "$.\"'[]"

def fixed (d : Delimiters) (name : String) (content : Pattern) (statements : String) : Rule :=
  ⟨name, d.around content, fun _ => codeBlock statements⟩

/-- A rule for a keyword with a condition behind it. -/
def conditional (d : Delimiters) (name : String) (keyword : Pattern) (statement : String) :
    Rule where
  name
  pattern := d.around (keyword ++ many blank ++ group 1 (few1 inLine))
  replacement f := codeBlock (statement ++ " (" ++ f.group 1 ++ ") :")

def comment (d : Delimiters) : Rule where
  name := "comment"
  pattern := d.around (exact "*" ++ group 1 (few1 (char fun _ => true)) ++ exact "*")
  replacement _ := ""

def rawEcho (d : Delimiters) : Rule where
  name := "raw-echo"
  pattern := d.around (exact "~" ++ group 1 (few inLine))
  replacement f := codeBlock ("echo " ++ f.group 1 ++ ";")

def dottedAccess (d : Delimiters) : Rule where
  name := "dotted-access"
  pattern :=
    group 1 (d.opening ++ few (notAhead d.closing ++ inLine)) ++ group 2 (access "\"'[]") ++
      exact "." ++ group 3 (many1 wordPart) ++ group 4 (few inLine ++ d.closing)
  replacement f := f.group 1 ++ f.group 2 ++ "['" ++ f.group 3 ++ "']" ++ f.group 4

def loopToken (d : Delimiters) : Rule where
  name := "loop-token"
  pattern :=
    group 1 (d.opening ++ few inLine) ++
      many1 (group 2 (exact "$" ++ group 3 (many1 wordPart) ++ exact "@" ++
        group 4 (oneOf (["index", "iteration", "first", "last", "total"].map anyCase)))) ++
      group 5 (few inLine ++ d.closing)
  replacement f := f.group 1 ++ loopVariable (f.group 3) (Text.lowerAscii (f.group 4)) ++ f.group 5

def objectProperty (d : Delimiters) : Rule where
  name := "object-property"
  pattern := d.around (group 1
    (exact "$" ++ many1 (wordOr "-") ++ exact "->" ++ many1 (wordOr "-")))
  replacement f := codeBlock ("echo strval(" ++ f.group 1 ++ ");")

def unfiltered (d : Delimiters) : Rule where
  name := "nofilter"
  pattern := d.around (group 1 (access "$.\"'[]") ++ blank ++ anyCase "nofilter")
  replacement f := codeBlock ("echo strval(" ++ f.group 1 ++ ");")

def ternary (d : Delimiters) : Rule where
  name := "ternary"
  pattern := d.around (
    group 1 (many1 (alt (wordOr "$.[]='\"") blank)) ++ exact "?" ++
      group 2 (few inLine ++ exact ":" ++ few inLine))
  replacement f := codeBlock ("echo strval(" ++ f.group 1 ++ "?" ++ f.group 2 ++ ");")

def assignment (d : Delimiters) : Rule where
  name := "assignment"
  pattern := d.around (
    group 1 (access "$\"'[]") ++ many blank ++ exact "=" ++ group 2 (few inLine))
  replacement f := codeBlock (f.group 1 ++ " =" ++ f.group 2 ++ ";")

def escapedEcho (d : Delimiters) : Rule where
  name := "escaped-echo"
  pattern := d.around (group 1 (access "$.\"'[]"))
  replacement f := codeBlock ("echo escape(strval(" ++ f.group 1 ++ "));")

def foreachValue (d : Delimiters) : Rule where
  name := "foreach"
  pattern := d.around (
    anyCase "foreach" ++ many blank ++ group 1 subject ++ many blank ++ anyCase "as" ++
      group 2 (many blank) ++ exact "$" ++ group 3 (few1 (wordOr "\"'[]")))
  replacement f :=
    loopOpening (f.group 1) (f.group 1 ++ " as $" ++ f.group 3) (f.group 3)

def foreachEntry (d : Delimiters) : Rule where
  name := "keyed-foreach"
  pattern := d.around (
    anyCase "foreach" ++ many blank ++ group 1 subject ++ many blank ++ anyCase "as" ++
      many blank ++ group 2 (access "\"'[]") ++ many blank ++ exact "=>" ++ many blank ++
      exact "$" ++ group 3 (few1 (wordOr "\"'[]")))
  replacement f :=
    loopOpening (f.group 1) (f.group 1 ++ " as " ++ f.group 2 ++ " => $" ++ f.group 3) (f.group 3)

def includeFile (d : Delimiters) : Rule where
  name := "include"
  pattern := d.around (
    anyCase "include" ++ many blank ++ anyCase "file=" ++ group 1 (few1 inLine))
  replacement f :=
    codeBlock ("include " ++ quoteWord (String.ofList (Text.trim (f.group 1).toList)) ++ ";")

def rules (d : Delimiters) : List Rule :=
  [comment d, rawEcho d, dottedAccess d, loopToken d, objectProperty d, unfiltered d, ternary d,
    assignment d, escapedEcho d,
    conditional d "while" (anyCase "while") "while",
    fixed d "end-while" (anyCase "/while") "endwhile;",
    conditional d "if" (anyCase "if") "if",
    conditional d "else-if" (anyCase "else" ++ many blank ++ anyCase "if") "elseif",
    fixed d "else" (anyCase "else") "else :",
    fixed d "end-if" (anyCase "/if") "endif;",
    fixed d "break" (anyCase "break") "break;",
    fixed d "continue" (anyCase "continue") "continue;",
    foreachValue d, foreachEntry d,
    fixed d "end-foreach" (anyCase "/foreach") "endforeach; endif;",
    includeFile d]

/-- How often a rule may change a text and still match. -/
def maxPasses : Nat := 256

/-- Applies a rule until it matches no more; none when it still changes the text in the last pass.
-/
def Rule.exhaust? (r : Rule) : Nat → List Char → Option (List Char)
  | 0, _ => none
  | passes + 1, text =>
    match r.apply? text with
    | none => some text
    | some next => r.exhaust? passes next

/-- Applies rules one after another, each until it matches no more. -/
def applyRules : List Rule → List Char → Except CompileFault (List Char)
  | [], text => .ok text
  | r :: rest, text =>
    match r.exhaust? maxPasses text with
    | some next => applyRules rest next
    | none => .error (.noFixedPoint r.name)

end ViewTemplate.Directive
