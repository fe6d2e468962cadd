import ViewTemplate.Directive.Delimiters

namespace ViewTemplate

structure Settings where
  templateDir : Path
  cacheDir : Path
  delimiters : Delimiters
  /-- The file extension of artifacts. -/
  extension : String
  /-- Reading what is not there is an error. -/
  strict : Bool
  debug : Bool
  version : Option String
  maxIncludeDepth : Nat
  deriving DecidableEq

namespace Settings

def standard : Settings where
  templateDir := ⟨"app/view"⟩
  cacheDir := ⟨"runtime/view"⟩
  delimiters := .braces
  extension := "stc"
  strict := false
  debug := false
  version := none
  maxIncludeDepth := 50

/-- An extension is not empty and leads to no other directory. -/
def isExtension (s : String) : Bool :=
  s ≠ "" && s.toList.all fun c => c ≠ '/' && c ≠ '\\'

def check (s : Settings) : Except ConfigFault Unit := do
  s.delimiters.check
  if !isExtension s.extension then throw (.invalidExtension s.extension)
  if s.maxIncludeDepth = 0 then throw .noIncludeDepth

end Settings

end ViewTemplate
