import ViewTemplate.Path
import ViewTemplate.Resolver

namespace ViewTemplate.CommandLine

/-- Engine options. They override what a settings file says. -/
structure EngineOptions where
  config : Option Path
  templateDir : Option Path
  cacheDir : Option Path
  leftDelimiter : Option String
  rightDelimiter : Option String
  strict : Bool
  debug : Bool

inductive Command where
  | resolve (name : String) (route : Option Route)
  | compile (name : String)
  | transpile (file : Path)
  | render (name : String) (data : Option Path) (layout : Option String) (isPartial : Bool)
      (output : Option Path)

inductive OptionKind where
  | flag
  | text
  /-- A path, which is not empty. -/
  | path
  deriving DecidableEq

structure OptionSpec where
  name : String
  kind : OptionKind
  summary : String
  letter : Option Char

def engineOptions : List OptionSpec :=
  [⟨"config", .path, "YAML engine configuration", none⟩,
    ⟨"template-dir", .path, "Template root directory", none⟩,
    ⟨"cache-dir", .path, "Directory for compiled artifacts", none⟩,
    ⟨"left-delimiter", .text, "Opening directive delimiter", none⟩,
    ⟨"right-delimiter", .text, "Closing directive delimiter", none⟩,
    ⟨"strict", .flag, "Fail on undefined variables", none⟩,
    ⟨"debug", .flag, "Debug mode (asset version is the current time)", none⟩]

/-- A command with its one argument and the options of its own. -/
structure CommandSpec where
  name : String
  summary : String
  argument : String
  argumentSummary : String
  takesPath : Bool
  options : List OptionSpec

def commandSpecs : List CommandSpec :=
  [⟨"resolve", "Show which template file a view name resolves to", "NAME", "Logical view name",
      false,
      [⟨"module", .text, "Route module", none⟩, ⟨"controller", .text, "Route controller", none⟩,
        ⟨"action", .text, "Route action (used when NAME is empty)", none⟩]⟩,
    ⟨"compile", "Bring a template's cached artifact up to date", "NAME", "Template name or path",
      false, []⟩,
    ⟨"transpile", "Print the generated code for a template file without caching it", "FILE",
      "Template file", true, []⟩,
    ⟨"render", "Render a view to stdout or a file", "NAME", "Logical view name", false,
      [⟨"data", .path, "JSON object with the render data", none⟩,
        ⟨"layout", .text, "Layout wrapping the view", none⟩,
        ⟨"pjax", .flag, "Mark the render as a partial-page request", none⟩,
        ⟨"output", .path, "Write output to FILE instead of stdout", some 'o'⟩]⟩]

def commandSpec? (name : String) : Option CommandSpec := commandSpecs.find? (·.name = name)

inductive Topic where
  | program
  | command (spec : CommandSpec)
  | help

/-- Why arguments name no command to run. -/
inductive Stop where
  | wrongUsage
  | version
  | help (topic : Topic)

/-- What was read: the values of options, flags with an empty one, and all other arguments. -/
structure Given where
  options : List (String × String)
  arguments : List String

namespace Given

def empty : Given := ⟨[], []⟩

def value? (g : Given) (name : String) : Option String := Entries.get? g.options name

def path? (g : Given) (name : String) : Option Path := (g.value? name).map Path.mk

def has (g : Given) (name : String) : Bool := (g.value? name).isSome

/-- An option counts once. -/
def set (g : Given) (spec : OptionSpec) (value : String) : Except Stop Given :=
  if g.has spec.name || (spec.kind = .path && value = "") then .error .wrongUsage
  else .ok { g with options := g.options ++ [(spec.name, value)] }

def add (g : Given) (argument : String) : Given := { g with arguments := g.arguments ++ [argument] }

end Given

/-- Where arguments are read: behind the program, or behind a command. -/
abbrev Level := Option CommandSpec

namespace Level

def options (l : Level) : List OptionSpec := (l.map (·.options)).getD [] ++ engineOptions

def topic (l : Level) : Topic := (l.map Topic.command).getD .program

end Level

def looksLikeOption (s : String) : Bool :=
  match s.toList with
  | '-' :: _ :: _ => true
  | _ => false

def splitOption (s : List Char) : String × Option String :=
  match s.dropWhile (· ≠ '=') with
  | _ :: value => (String.ofList (s.takeWhile (· ≠ '=')), some (String.ofList value))
  | [] => (String.ofList s, none)

/-- The value of a letter option in the same argument; an equals sign may stand before it. -/
def attached (rest : List Char) : Option String :=
  match rest with
  | [] => none
  | '=' :: value => some (String.ofList value)
  | value => some (String.ofList value)

/-- The argument of a command. There is one only. -/
def Given.addFor (g : Given) (spec : CommandSpec) (s : String) : Except Stop Given :=
  if !g.arguments.isEmpty || (spec.takesPath && s = "") then .error .wrongUsage
  else .ok (g.add s)

/-- Reads arguments in order; the name of a command ends the reading behind the program. A fault in
the value of an option shows when the next argument of the same level is read. -/
def Level.read (l : Level) (g : Except Stop Given) :
    List String → Except Stop (Except Stop Given × List String)
  | [] => g.map fun g => (.ok g, [])
  | s :: rest =>
    match l, looksLikeOption s with
    | none, false => .ok (g, s :: rest)
    | some spec, false => g.bind fun (g : Given) => Level.read l (g.addFor spec s) rest
    | _, true => g.bind fun g =>
      let wrong : Except Stop (Except Stop Given × List String) := .error .wrongUsage
      match s.toList with
      | '-' :: '-' :: [] =>
        match l with
        | none => wrong
        | some spec => (rest.foldlM (fun (g : Given) s => g.addFor spec s) g).map fun g =>
          (.ok g, [])
      | '-' :: '-' :: long =>
        let (name, value) := splitOption long
        if name = "help" && value.isNone then .error (.help l.topic)
        else if l.isNone && name = "version" && value.isNone then .error .version
        else match l.options.find? (·.name = name) with
          | none => wrong
          | some spec =>
            match spec.kind, value, rest with
            | .flag, none, rest => (g.set spec "").bind fun g => Level.read l (.ok g) rest
            | .flag, some _, _ => wrong
            | _, some v, rest => (g.set spec v).bind fun g => Level.read l (.ok g) rest
            | _, none, v :: rest =>
              if looksLikeOption v then wrong else Level.read l (g.set spec v) rest
            | _, none, [] => wrong
      | '-' :: letter :: more =>
        if letter = 'h' then .error (.help l.topic)
        else if l.isNone && letter = 'V' then .error .version
        else match l.options.find? (·.letter = some letter) with
          | none => wrong
          | some spec =>
            match attached more, rest with
            | some v, rest => (g.set spec v).bind fun g => Level.read l (.ok g) rest
            | none, v :: rest =>
              if looksLikeOption v then wrong else Level.read l (g.set spec v) rest
            | none, [] => wrong
      | _ => wrong

def routeOf (g : Given) : Option Route :=
  if g.has "module" || g.has "controller" || g.has "action" then
    some ⟨(g.value? "module").getD "", (g.value? "controller").getD "", (g.value? "action").getD ""⟩
  else none

def commandOf (command name : String) (g : Given) : Command :=
  match command with
  | "resolve" => .resolve name (routeOf g)
  | "compile" => .compile name
  | "transpile" => .transpile ⟨name⟩
  | _ => .render name (g.path? "data") (g.value? "layout") (g.has "pjax") (g.path? "output")

def engineOptionsOf (top behind : Given) : EngineOptions :=
  let g : Given := ⟨behind.options ++ top.options, []⟩
  { config := g.path? "config"
    templateDir := g.path? "template-dir"
    cacheDir := g.path? "cache-dir"
    leftDelimiter := g.value? "left-delimiter"
    rightDelimiter := g.value? "right-delimiter"
    strict := g.has "strict"
    debug := g.has "debug" }

/-- Help is asked for by the name of a command, or of nothing. -/
def helpTopic : List String → Stop
  | [] => .help .program
  | ["help"] => .help .help
  | [name] => ((commandSpec? name).map fun spec => Stop.help (.command spec)).getD .wrongUsage
  | _ => .wrongUsage

def parse (args : List String) : Except Stop (EngineOptions × Command) := do
  let (top, rest) ← Level.read none (.ok .empty) args
  match rest with
  | [] => throw .wrongUsage
  | "help" :: names => throw (helpTopic names)
  | name :: rest =>
    match commandSpec? name with
    | none => throw .wrongUsage
    | some spec =>
      let behind ← (← Level.read (some spec) (.ok .empty) rest).1
      match behind.arguments with
      | argument :: _ => return (engineOptionsOf (← top) behind, commandOf name argument behind)
      | [] => throw .wrongUsage

end ViewTemplate.CommandLine
