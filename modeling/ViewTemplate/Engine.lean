import ViewTemplate.Cache.Basic
import ViewTemplate.Directive.Generate
import ViewTemplate.Resolver
import ViewTemplate.Run.Exec
import ViewTemplate.Run.Function
import ViewTemplate.Settings.Basic

namespace ViewTemplate

structure Engine where
  settings : Settings
  functions : Run.Registry
  /-- Where relative paths begin. -/
  workingDir : Path
  /-- The rounds that one loop of a template may take. -/
  maxRounds : Nat

/-- A view with its layout, both found. -/
structure Binding where
  view : String
  layout : Option String
  content : Path
  layoutPath : Option Path

/-- The template that is executed first. -/
def Binding.primary (b : Binding) : Path := b.layoutPath.getD b.content

structure Request where
  view : String
  layout : Option String
  route : Option Route
  /-- Whether only a part of the page is asked for. -/
  isPartial : Bool

namespace Engine

/-- An engine with the standard functions, if the settings are good. -/
def create (settings : Settings) (workingDir : Path) (maxRounds : Nat) :
    Except TemplateError Engine :=
  match settings.check with
  | .ok () => .ok ⟨settings, Run.builtins, workingDir, maxRounds⟩
  | .error e => .error (.config e)

def register (e : Engine) (name : String) (f : Run.Function) : Engine :=
  { e with functions := e.functions.register name f }

def cache (e : Engine) : Cache := ⟨e.settings.cacheDir, e.settings.extension, e.workingDir⟩

def resolve (e : Engine) (name : String) (route : Option Route) : Attempt Path :=
  Resolver.resolve e.settings.templateDir name route

def locate (e : Engine) (name : String) : Attempt Path :=
  Resolver.locate e.settings.templateDir name

def bind (e : Engine) (view : String) (layout : Option String) (route : Option Route) :
    Attempt Binding := do
  if layout = some view then throw (.layoutConflict ⟨view⟩)
  let content ← e.resolve view route
  match layout with
  | none => return ⟨view, none, content, none⟩
  | some name =>
    let path ← e.resolve name route
    if path.sameAs content then throw (.layoutConflict path)
    return ⟨view, some name, content, some path⟩

def generateFile (e : Engine) (path : Path) : Attempt Directive.Generated := do
  let source ← Attempt.orCompileError path "cannot read template" (Job.perform (.readText path))
  match Directive.generate e.settings.delimiters source with
  | .ok g => return g
  | .error fault => throw (.compile path fault)

/-- The text of an artifact that has a program. -/
def compileText (e : Engine) (path : Path) : Attempt String := do
  let g ← e.generateFile path
  discard <| Attempt.ofExcept (Artifact.program g.text path)
  return g.text

/-- Brings the artifact of the template at `source` up to date. -/
def compilePath (e : Engine) (source : Path) : Attempt Compiled :=
  e.cache.getOrCompile e.compileText source

/-- Brings the artifact of a template up to date that is named like an include. -/
def compile (e : Engine) (name : String) : Attempt Compiled := do
  e.compilePath (← e.locate name)

def load (artifact : Path) : Attempt Code.Program := do
  let text ← Attempt.orCompileError artifact "cannot read artifact"
    (Job.perform (.readText artifact))
  Attempt.ofExcept (Artifact.program text artifact)

/-- The program of the template at `source`, by way of its artifact. -/
def programAt (e : Engine) (source : Path) : Attempt Code.Program := do
  load (← e.compilePath source).artifact

def includeNamed (e : Engine) (name : String) : Attempt (Path × Code.Program) := do
  let source ← e.locate name
  return (source, ← e.programAt source)

def host (e : Engine) : Run.Host Job where
  functions := e.functions
  load name := (e.includeNamed name).run
  strict := e.settings.strict
  maxIncludeDepth := e.settings.maxIncludeDepth
  maxRounds := e.maxRounds

def execute (e : Engine) (source : Path) (scope : Entries Value) : Job Run.Outcome := do
  match ← (e.programAt source).run with
  | .ok program => Run.execute e.host scope program source
  | .error error => return ⟨.error (.failed error), []⟩

/-- What a template can use to keep files from being served stale: the version, or the present time
in seconds when debugging. -/
def assetVersion (e : Engine) : Job String := do
  if e.settings.debug then
    let now : Time ← Job.perform .now
    return toString (now / nanosPerSecond)
  else return e.settings.version.getD ""

/-- Adds the variables that every template can read. -/
def withMetadata (e : Engine) (scope : Entries Value) (contentFile : String) (isPartial : Bool) :
    Job (Entries Value) := do
  return Entries.insertAll scope
    [("__template_file", .string contentFile), ("template_file", .string contentFile),
      ("__pjax", .bool isPartial), ("__debug", .bool e.settings.debug),
      ("__v", .string (← e.assetVersion))]

/-- Renders a view. Its layout includes it by the path in `__template_file`. -/
def render (e : Engine) (scope : Entries Value) (request : Request) : Job Run.Outcome := do
  match ← (e.bind request.view request.layout request.route).run with
  | .error error => return ⟨.error (.failed error), []⟩
  | .ok binding =>
    let contentFile := if binding.layoutPath.isSome then binding.content.text else ""
    e.execute binding.primary (← e.withMetadata scope contentFile request.isPartial)

def renderFile (e : Engine) (scope : Entries Value) (path : Path) : Job Run.Outcome := do
  e.execute path (← e.withMetadata scope "" false)

end Engine

end ViewTemplate
