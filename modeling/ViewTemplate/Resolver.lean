import ViewTemplate.Files.Job
import ViewTemplate.Text.Blank
import ViewTemplate.Text.Case

namespace ViewTemplate

structure Route where
  moduleName : String
  controller : String
  action : String

namespace Resolver

def templateExtension : String := "tpl"

def isSeparator (c : Char) : Bool := c = '/' || c = '\\'

/-- A name inside a directory. Separators at its start lead nowhere else. -/
def under (dir : Path) (name : String) : Path :=
  let trimmed := name.toList.dropWhile isSeparator
  if trimmed.isEmpty then dir else dir.join ⟨String.ofList trimmed⟩

def withExtension (p : Path) : Path := ⟨p.text ++ "." ++ templateExtension⟩

/-- An empty view name stands for the action of the route. -/
def viewName (name : String) (route : Option Route) : String :=
  match route with
  | some r => if name = "" then r.action else name
  | none => name

/-- The directories of a route, the most special first. -/
def routeDirs (templateDir : Path) (route : Route) : List Path :=
  let moduleDir := under templateDir route.moduleName
  [under moduleDir (Text.lower route.controller), moduleDir]

def candidates (templateDir : Path) (name : String) (route : Option Route) : List Path :=
  let name := viewName name route
  let dirs := (route.map (routeDirs templateDir)).getD [] ++ [templateDir]
  let path : Path := ⟨name⟩
  dirs.map (fun dir => withExtension (under dir name)) ++
    if path.isAbsolute && path.startsWith templateDir then [withExtension path] else []

def firstFile : List Path → Job (Option Path)
  | [] => return none
  | p :: rest => do
    let isThere : Bool ← Job.perform (.isFile p)
    if isThere then return some p else firstFile rest

def resolve (templateDir : Path) (name : String) (route : Option Route) : Attempt Path := do
  let tried := candidates templateDir name route
  match ← ExceptT.lift (firstFile tried) with
  | some p => return p
  | none => throw (.notFound (viewName name route) tried)

def maxClimb : Nat := 3

/-- The same file name in the directories above `dir`, the nearest first. -/
def above (fileName : String) : Nat → Path → List Path
  | 0, _ => []
  | climb + 1, dir =>
    match dir.parent? with
    | some parent => parent.join ⟨fileName⟩ :: above fileName climb parent
    | none => []

/-- The path that an include means first. -/
def includedPath (templateDir : Path) (name : String) : Path :=
  let path :=
    if name.toList.contains '/' then ⟨name⟩
    else templateDir.join ⟨String.ofList (Text.dropEndWhile isSeparator name.toList)⟩
  if path.extension? = some templateExtension then path else withExtension path

def includeCandidates (templateDir : Path) (name : String) : List Path :=
  let path := includedPath templateDir name
  path :: match path.fileName?, path.parent? with
    | some fileName, some dir => above fileName maxClimb dir
    | _, _ => []

def locate (templateDir : Path) (name : String) : Attempt Path := do
  let tried := includeCandidates templateDir name
  match ← ExceptT.lift (firstFile tried) with
  | some p => return p
  | none => throw (.notFound name tried)

end Resolver

end ViewTemplate
