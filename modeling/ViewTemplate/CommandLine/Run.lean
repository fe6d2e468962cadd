import ViewTemplate.CommandLine.Help
import ViewTemplate.Engine
import ViewTemplate.Settings.Document

namespace ViewTemplate.CommandLine

/-- Versions before the first stable one are marked. -/
def version : String :=
  if ['0', '.'].isPrefixOf Artifact.engineVersion.toList then Artifact.engineVersion ++ "-dev"
  else Artifact.engineVersion

structure Report where
  exitCode : Nat
  stdout : String
  stderr : String

/-- A failed command: what it was about, and the causes, the nearest first. -/
structure Failure where
  summary : String
  causes : List String

/-- A failure on a file is a cause of its own. -/
def causesOf (e : TemplateError) : List String :=
  match e with
  | .compile _ (.file _ cause) => [e.message, cause.message]
  | _ => [e.message]

def indentRest (blanks : String) (s : String) : String :=
  String.ofList (s.toList.flatMap fun c => if c = '\n' then '\n' :: blanks.toList else [c])

/-- One cause stands alone; several are numbered. -/
def causeLines (causes : List String) : List String :=
  match causes with
  | [cause] => ["    " ++ indentRest "    " cause]
  | _ => causes.zipIdx.map fun (cause, i) =>
      let number := toString i
      String.ofList (List.replicate (5 - number.length) ' ') ++ number ++ ": " ++
        indentRest "       " cause

def Failure.text (f : Failure) : String :=
  let causes := if f.causes.isEmpty then ""
    else "\n\nCaused by:" ++ String.join ((causeLines f.causes).map ("\n" ++ ·))
  "Error: " ++ f.summary ++ causes ++ "\n"

abbrev Part (α : Type) := ExceptT Failure Job α

variable {α : Type}

def orFail (summary : String) (attempt : Attempt α) : Part α := ExceptT.mk do
  match ← attempt.run with
  | .ok a => return .ok a
  | .error e => return .error ⟨summary, causesOf e⟩

def orFailOs (summary : String) (job : Job (Except OsError α)) : Part α := ExceptT.mk do
  match ← job with
  | .ok a => return .ok a
  | .error e => return .error ⟨summary, [e.message]⟩

def ofConfig (summary : String) (r : Except ConfigFault α) : Part α :=
  match r with
  | .ok a => return a
  | .error e => throw ⟨summary, [(TemplateError.config e).message]⟩

def delimitersOf (o : EngineOptions) (d : Delimiters) : Part Delimiters := do
  if o.leftDelimiter.isNone && o.rightDelimiter.isNone then return d
  else
    let d : Delimiters := ⟨o.leftDelimiter.getD d.left, o.rightDelimiter.getD d.right⟩
    ofConfig "Invalid delimiters" d.check
    return d

def settingsOf (o : EngineOptions) : Part Settings := do
  let s ← match o.config with
    | some path => do
      let r : Except ConfigFault Settings ← ExceptT.lift (Settings.load path)
      ofConfig ("Failed to load config " ++ path.text) r
    | none => pure Settings.standard
  return { s with
    templateDir := o.templateDir.getD s.templateDir
    cacheDir := o.cacheDir.getD s.cacheDir
    delimiters := ← delimitersOf o s.delimiters
    strict := s.strict || o.strict
    debug := s.debug || o.debug }

/-- The rounds that one loop of a template may take: more than anyone will wait for. -/
def maxRounds : Nat := Nat.pow 2 62

def engineOf (o : EngineOptions) (workingDir : Path) : Part Engine := do
  let settings ← settingsOf o
  match Engine.create settings workingDir maxRounds with
  | .ok e => return e
  | .error e => throw ⟨"Failed to create template engine", causesOf e⟩

def dataOf (path : Path) : Part (Entries Value) := do
  let text ← orFailOs ("Failed to read data file " ++ path.text) (Job.perform (.readText path))
  match Json.read? text with
  | some (.map entries) => return entries
  | some _ => throw ⟨"Data file " ++ path.text ++ " must contain a JSON object", []⟩
  | none => throw ⟨"Failed to parse data file " ++ path.text, ["invalid JSON"]⟩

/-- The output of a rendering; one that was ended early has an output too. -/
def outputOf (name : String) (outcome : Run.Outcome) : Part String :=
  let summary := "Failed to render '" ++ name ++ "'"
  match outcome.result with
  | .ok output => return output
  | .error (.failed (.earlyExit output)) => return output
  | .error (.failed e) => throw ⟨summary, causesOf e⟩
  | .error .unfinished => throw ⟨summary, ["too many rounds of a loop"]⟩

def Command.run (e : Engine) : Command → Part Report
  | .resolve name route => do
    let path ← orFail ("Cannot resolve view '" ++ name ++ "'") (e.resolve name route)
    return ⟨0, path.text ++ "\n", ""⟩
  | .compile name => do
    let compiled ← orFail ("Failed to compile '" ++ name ++ "'") (e.compile name)
    return ⟨0, compiled.artifact.text ++ "\n", ""⟩
  | .transpile file => do
    let g ← orFail ("Failed to transpile " ++ file.text) (e.generateFile file)
    let warnings := g.diagnostics.map fun d => file.text ++ ": " ++ d.display ++ "\n"
    return ⟨0, g.text, String.join warnings⟩
  | .render name data layout isPartial output => do
    let scope ← match data with
      | some path => dataOf path
      | none => pure []
    let outcome ← (ExceptT.lift (e.render scope ⟨name, layout, none, isPartial⟩) : Part Run.Outcome)
    let text ← outputOf name outcome
    match output with
    | none => return ⟨0, text, ""⟩
    | some path => do
      orFailOs ("Failed to write " ++ path.text) (Job.perform (.write path text))
      return ⟨0, "", ""⟩

def run (workingDir : Path) (args : List String) : Job Report := do
  match parse args with
  | .error .wrongUsage => return ⟨2, "", Topic.text .program⟩
  | .error .version => return ⟨0, programName ++ " " ++ version ++ "\n", ""⟩
  | .error (.help topic) => return ⟨0, topic.text, ""⟩
  | .ok (options, command) =>
    let part : Part Report := do command.run (← engineOf options workingDir)
    match ← part.run with
    | .ok report => return report
    | .error failure => return ⟨1, "", failure.text⟩

end ViewTemplate.CommandLine
