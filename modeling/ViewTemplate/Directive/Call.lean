import ViewTemplate.Diagnostic
import ViewTemplate.Directive.CodeText
import ViewTemplate.Directive.Delimiters
import ViewTemplate.Pattern.Search

namespace ViewTemplate.Directive

open Pattern

/-- A directive that starts with a name, here with the delimiters as they are written. -/
def callDirective (d : Delimiters) : Pattern :=
  exact d.left ++ group 1 (many1 wordPart) ++ many blank ++ group 2 (few inLine) ++ exact d.right

def argumentList : Pattern :=
  exact "(" ++ group 1 (many inLine) ++ exact ")" ++ many blank ++ atEnd

/-- A string between two of the same quote; a backslash takes the character behind it along. -/
def quotedText (quote : Char) : Pattern :=
  let plain := many (char fun c => c ≠ quote ∧ c ≠ '\\')
  exact (String.ofList [quote]) ++ plain ++ many (exact "\\" ++ inLine ++ plain) ++
    exact (String.ofList [quote])

/-- A key and a value: a variable, a string, or a bare word as group 3. -/
def namedArgument : Pattern :=
  wordEdge ++ group 1 (few1 (wordOr "-")) ++ many blank ++ exact "=" ++ many blank ++
    group 2 (oneOf [exact "$" ++ many1 (wordOr "\"'][-_>$"), quotedText '"', quotedText '\'',
      group 3 (many1 (wordOr "->"))])

def namedEntry (f : Found) : String :=
  let value := match f.group? 3 with
    | some word => quoteWord word
    | none => f.group 2
  "'" ++ f.group 1 ++ "' => " ++ value

/-- The code for a call of `name` with `args` behind it; none when `args` are no arguments. What
stands before the parentheses goes in front of the code. -/
def callCode? (name args : String) : Option String :=
  if args = "" then some (codeBlock ("echo " ++ name ++ "();"))
  else match argumentList.first? args.toList with
    | some (before, f) =>
      let call := if Text.lowerAscii name = "unset"
        then "unset(" ++ f.group 1 ++ ");"
        else "echo " ++ name ++ "(" ++ f.group 1 ++ ");"
      some (String.ofList before ++ codeBlock call)
    | none =>
      match namedArgument.all args.toList with
      | [] => none
      | found =>
        some (codeBlock
          ("echo " ++ name ++ "([" ++ String.intercalate ", " (found.map namedEntry) ++ "]);"))

def unmatchedDirective : String := "unmatched-directive"

/-- The code of a directive, or nothing and a warning. -/
def callOf (f : Found) : List Char × List Diagnostic :=
  match callCode? (f.group 1) (f.group 2) with
  | some code => (code.toList, [])
  | none => ([], [⟨some unmatchedDirective,
      "directive '" ++ String.ofList f.span.text ++ "' matches no rule; it was dropped"⟩])

def compileCalls (d : Delimiters) (text : List Char) : List Char × List Diagnostic :=
  let parts := ((callDirective d).pieces none text).map fun
    | .kept c => ([c], [])
    | .found f => callOf f
  (parts.flatMap Prod.fst, parts.flatMap Prod.snd)

end ViewTemplate.Directive
