namespace ViewTemplate

structure Path where
  text : String
  deriving DecidableEq, Inhabited

/-- A component of a path. Empty pieces are none, and neither is a dot that does not begin a
relative path. -/
inductive Component where
  | root
  | current
  | parent
  | normal (name : String)
  deriving DecidableEq

namespace Path

def isAbsolute (p : Path) : Bool := p.text.toList.head? = some '/'

def pieces : List Char → List (List Char)
  | [] => [[]]
  | c :: rest =>
    if c = '/' then [] :: pieces rest
    else match pieces rest with
      | piece :: more => (c :: piece) :: more
      | [] => [[c]]

def component? (piece : List Char) : Option Component :=
  if piece = [] ∨ piece = ['.'] then none
  else if piece = ['.', '.'] then some .parent
  else some (.normal (String.ofList piece))

def components (p : Path) : List Component :=
  match pieces p.text.toList with
  | [] => []
  | [] :: rest =>
    if rest.isEmpty then [] else .root :: rest.filterMap component?
  | ['.'] :: rest => .current :: rest.filterMap component?
  | first :: rest => (first :: rest).filterMap component?

/-- Two paths with the same components lead to the same place. -/
def sameAs (p q : Path) : Bool := p.components = q.components

def join (p q : Path) : Path :=
  if q.isAbsolute then q
  else
    let slash := match p.text.toList.getLast? with
      | none | some '/' => ""
      | some _ => "/"
    ⟨p.text ++ slash ++ q.text⟩

/-- Drops slashes and dot pieces from the end of a path that is given in reverse, but never the root
or a leading dot. -/
def dropRedundant : List Char → List Char
  | ['/'] => ['/']
  | '/' :: rest => dropRedundant rest
  | '.' :: '/' :: rest => dropRedundant ('/' :: rest)
  | cs => cs

def splitLast (p : Path) : List Char × List Char :=
  let cs := dropRedundant p.text.toList.reverse
  (cs.takeWhile (· ≠ '/'), cs.dropWhile (· ≠ '/'))

/-- The path without its last component; the root and the empty path have none. -/
def parent? (p : Path) : Option Path :=
  let (last, before) := p.splitLast
  if last = [] then none else some ⟨String.ofList (dropRedundant before).reverse⟩

def fileName? (p : Path) : Option String :=
  let (last, _) := p.splitLast
  if last = [] ∨ last = ['.'] ∨ last = ['.', '.'] then none else some (String.ofList last.reverse)

/-- What follows the last dot of the file name, unless that dot begins it. -/
def extension? (p : Path) : Option String := do
  let cs := (← p.fileName?).toList.reverse
  let suffix := cs.takeWhile (· ≠ '.')
  match cs.dropWhile (· ≠ '.') with
  | [] | ['.'] => none
  | _ => some (String.ofList suffix.reverse)

def startsWith (p base : Path) : Bool := base.components.isPrefixOf p.components

def ofComponent : Component → Path
  | .root => ⟨"/"⟩
  | .current => ⟨"."⟩
  | .parent => ⟨".."⟩
  | .normal name => ⟨name⟩

/-- The path from the root, for a path that is not empty: without dots and repeated slashes, but
with `..`, a trailing slash and two leading slashes kept. -/
def absolute (cwd p : Path) : Path :=
  let cs := p.text.toList
  let parts := match p.components with
    | .current :: rest => rest
    | parts => parts
  let twoSlashes := List.isPrefixOf ['/', '/'] cs && !List.isPrefixOf ['/', '/', '/'] cs
  let (start, parts) :=
    if twoSlashes then (⟨"//"⟩, parts.drop 1)
    else if p.isAbsolute then (⟨""⟩, parts)
    else (cwd, parts)
  let whole := parts.foldl (fun q c => q.join (ofComponent c)) start
  if p.text = "" then p
  else if cs.getLast? = some '/' then whole.join ⟨""⟩
  else whole

end Path

end ViewTemplate
