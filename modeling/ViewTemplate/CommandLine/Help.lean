import ViewTemplate.CommandLine.Arguments

namespace ViewTemplate.CommandLine

def programName : String := "stencil"

/-- Lines of a table with two columns, as wide as the longest entry of the first. -/
def tableLines (rows : List (String × String)) : List String :=
  let width := (rows.map fun row => row.1.length).foldl max 0
  rows.map fun (label, summary) =>
    "  " ++ label ++ String.ofList (List.replicate (width - label.length) ' ') ++ "  " ++ summary

def titled? (title : String) (rows : List (String × String)) : Option (List String) :=
  if rows.isEmpty then none else some ((title ++ ":") :: tableLines rows)

def valueName (name : String) : String :=
  String.ofList (name.toList.map fun c => if c = '-' then '_' else c.toUpper)

def optionLabel (letter : Option Char) (name : String) (kind : OptionKind) : String :=
  (match letter with
    | some c => String.ofList ['-', c, ',', ' ']
    | none => "    ") ++ "--" ++ name ++
  (if kind = .flag then "" else " <" ++ valueName name ++ ">")

def OptionSpec.row (o : OptionSpec) : String × String :=
  (optionLabel o.letter o.name o.kind, o.summary)

/-- What decides between options at the same place of their lists. -/
def OptionSpec.sortKey (o : OptionSpec) : String :=
  match o.letter with
  | some c => String.ofList [c, '0']
  | none => o.name

/-- The options of a command between the engine options: the first of both, the second of both, and
so on. -/
def orderedOptions (own : List OptionSpec) : List OptionSpec :=
  let places := own.zipIdx ++ engineOptions.zipIdx
  (places.mergeSort fun (a, i) (b, j) => i < j || (i = j && a.sortKey ≤ b.sortKey)).map (·.1)

def helpRow : String × String := (optionLabel (some 'h') "help" .flag, "Print help")

def versionRow : String × String := (optionLabel (some 'V') "version" .flag, "Print version")

def helpSummary : String := "Print this message or the help of the given subcommand(s)"

def Topic.parts : Topic → String × String × List (Option (List String))
  | .program =>
    ("Compile, cache and render stencil view templates", " [OPTIONS] <COMMAND>",
      [titled? "Commands"
          (commandSpecs.map (fun c => (c.name, c.summary)) ++ [("help", helpSummary)]),
        titled? "Options" (engineOptions.map (·.row) ++ [helpRow, versionRow])])
  | .command c =>
    (c.summary, " " ++ c.name ++ " [OPTIONS] <" ++ c.argument ++ ">",
      [titled? "Arguments" [("<" ++ c.argument ++ ">", c.argumentSummary)],
        titled? "Options" ((orderedOptions c.options).map (·.row) ++ [helpRow])])
  | .help =>
    (helpSummary, " help [COMMAND]...",
      [titled? "Arguments" [("[COMMAND]...", "Print help for the subcommand(s)")]])

def Topic.text (t : Topic) : String :=
  let (summary, usage, tables) := t.parts
  let blocks := [summary] :: ["Usage: " ++ programName ++ usage] :: tables.filterMap id
  String.intercalate "\n\n" (blocks.map (String.intercalate "\n")) ++ "\n"

end ViewTemplate.CommandLine
