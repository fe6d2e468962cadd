import ViewTemplate.Files.Contents
import ViewTemplate.Files.Job

namespace ViewTemplate

inductive FileEntry where
  | file (contents : Contents) (time : Time)
  | directory
  deriving DecidableEq

/-- Where something is, by the names that lead to it from the root. -/
abbrev Location := List String

structure Store where
  /-- All files and directories but the root. -/
  entries : List (Location × FileEntry)
  /-- The directory where relative paths begin. -/
  workingDir : Location
  clock : Time

namespace Store

def entryAt? (s : Store) (l : Location) : Option FileEntry :=
  if l = [] then some .directory else (s.entries.find? fun e => e.1 = l).map (·.2)

def put (s : Store) (l : Location) (e : FileEntry) : Store :=
  { s with entries := (l, e) :: s.entries.filter fun old => old.1 ≠ l }

def delete (s : Store) (l : Location) : Store :=
  { s with entries := s.entries.filter fun old => old.1 ≠ l }

def checkDirectory (s : Store) (l : Location) : Except OsError Unit :=
  match s.entryAt? l with
  | some .directory => .ok ()
  | some (.file ..) => .error .notDirectory
  | none => .error .notFound

/-- Goes from a location along the pieces of a path. All but the last must lead to directories. -/
def walk (s : Store) : Location → List (List Char) → Except OsError Location
  | l, [] => .ok l
  | l, piece :: rest =>
    if piece = [] then s.walk l rest
    else do
      s.checkDirectory l
      if piece = ['.'] then s.walk l rest
      else if piece = ['.', '.'] then s.walk l.dropLast rest
      else s.walk (l ++ [String.ofList piece]) rest

/-- Where a path leads. A slash at the end asks for a directory, if there is anything. -/
def locate (s : Store) (p : Path) : Except OsError Location := do
  if p.text = "" then throw .notFound
  let l ← s.walk (if p.isAbsolute then [] else s.workingDir) (Path.pieces p.text.toList)
  match p.text.toList.getLast?, s.entryAt? l with
  | some '/', some (.file ..) => throw .notDirectory
  | _, _ => return l

def find (s : Store) (p : Path) : Except OsError FileEntry := do
  match s.entryAt? (← s.locate p) with
  | some e => return e
  | none => throw .notFound

def isDirectory (s : Store) (p : Path) : Bool := s.find p matches .ok .directory

def createDir (s : Store) (p : Path) : Except OsError Store := do
  let l ← s.locate p
  match s.entryAt? l with
  | some _ => throw .alreadyExists
  | none => return s.put l .directory

/-- Makes a directory, and first those above it if they are missing. A directory that is there
already is none the worse. -/
def createDirs : Nat → Path → Store → Except OsError Unit × Store
  | 0, _, s => (.error .notFound, s)
  | fuel + 1, p, s =>
    let settle (e : OsError) (s : Store) : Except OsError Unit × Store :=
      if s.isDirectory p then (.ok (), s) else (.error e, s)
    if p.text = "" then (.ok (), s)
    else match s.createDir p with
      | .ok t => (.ok (), t)
      | .error .notFound =>
        match p.parent? with
        | none => (.error .notFound, s)
        | some parent =>
          match createDirs fuel parent s with
          | (.ok (), t) =>
            match t.createDir p with
            | .ok u => (.ok (), u)
            | .error e => settle e t
          | failed => failed
      | .error e => settle e s

def save (s : Store) (p : Path) (c : Contents) (t : Time) : Except OsError Store := do
  let l ← s.locate p
  match s.entryAt? l with
  | some .directory => throw .isDirectory
  | some (.file ..) => return s.put l (.file c t)
  | none =>
    if p.text.toList.getLast? = some '/' then throw .isDirectory else return s.put l (.file c t)

def fileAt (s : Store) (p : Path) : Except OsError (Location × Contents × Time) := do
  let l ← s.locate p
  match s.entryAt? l with
  | some (.file c t) => return (l, c, t)
  | some .directory => throw .isDirectory
  | none => throw .notFound

def tempName (n : Nat) : String := ".stencil-" ++ toString n ++ ".tmp"

/-- Makes an empty file with a name that is not taken: one of the first names is free. -/
def createTemp (s : Store) (dir : Path) : Except OsError (Path × Store) := do
  let candidates := (List.range (s.entries.length + 1)).map fun n => dir.join ⟨tempName n⟩
  match candidates.find? fun p => s.find p matches .error _ with
  | some p => return (p, ← s.save p ⟨[], []⟩ s.clock)
  | none => throw .alreadyExists

def move (s : Store) (p q : Path) : Except OsError Store := do
  let (l, c, t) ← s.fileAt p
  let target ← s.locate q
  match s.entryAt? target with
  | some .directory => throw .isDirectory
  | _ => return (s.delete l).put target (.file c t)

def drop (s : Store) (p : Path) : Except OsError Store := do
  let (l, _) ← s.fileAt p
  return s.delete l

def touch (s : Store) (p : Path) (t : Time) : Except OsError Store := do
  let (l, c, _) ← s.fileAt p
  return s.put l (.file c t)

def changed (s : Store) (r : Except OsError Store) : Except OsError Unit × Store :=
  match r with
  | .ok t => (.ok (), t)
  | .error e => (.error e, s)

/-- Performs an action. A directory counts as changed just now; locks are free, as no other job
runs. -/
def perform (s : Store) : (action : Action) → action.Answer × Store
  | .modified p =>
    ((match s.find p with
      | .ok (.file _ t) => .ok t
      | .ok .directory => .ok s.clock
      | .error e => .error e : Except OsError Time), s)
  | .isFile p => ((s.find p matches .ok (.file ..) : Bool), s)
  | .readText p =>
    ((match s.find p with
      | .ok (.file c _) => match c.text? with
        | some text => .ok text
        | none => .error .invalidText
      | .ok .directory => .error .isDirectory
      | .error e => .error e : Except OsError String), s)
  | .firstLine p =>
    ((match s.find p with
      | .ok (.file c _) => c.firstLine?
      | _ => none : Option (List Char)), s)
  | .createDirs p => createDirs (p.text.length + 1) p s
  | .createTemp dir =>
    match s.createTemp dir with
    | .ok (p, t) => ((.ok p : Except OsError Path), t)
    | .error e => ((.error e : Except OsError Path), s)
  | .write p text => s.changed (s.save p (.ofText text) s.clock)
  | .rename p q => s.changed (s.move p q)
  | .remove p => s.changed (s.drop p)
  | .setModified p t => s.changed (s.touch p t)
  | .lock _ | .unlock _ => ((), s)
  | .now => (s.clock, s)

end Store

/-- Runs a job on a store, with nothing in between. -/
def Job.run {α : Type} (s : Store) : Job α → α × Store
  | .done a => (a, s)
  | .act action next =>
    let (answer, t) := s.perform action
    (next answer).run t

end ViewTemplate
