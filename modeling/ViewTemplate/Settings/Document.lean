import ViewTemplate.Files.Job
import ViewTemplate.Settings.Basic
import ViewTemplate.Yaml.Document

namespace ViewTemplate.Settings

open Yaml

def text? : Node → Option String
  | .scalar s _ _ => some s
  | _ => none

/-- A plain null is no text. Where its tag says that it is null, it must be one; another tag makes
it a text. -/
def optionalText? : Node → Option (Option String)
  | .scalar s .plain tag =>
    let isNull := ["~", "null", "Null", "NULL"].contains s
    if tag = some nullTag then if isNull then some none else none
    else if tag.isNone && (isNull || s = "") then some none
    else some (some s)
  | .scalar s _ _ => some (some s)
  | _ => none

/-- The text of a scalar that is plain, or literal with this tag. -/
def plainText? (expectedTag : String) : Node → Option String
  | .scalar s .plain _ => some s
  | .scalar s .literal tag => if tag = some expectedTag then some s else none
  | _ => none

def flag? (n : Node) : Option Bool := do
  let s ← plainText? boolTag n
  if ["true", "True", "TRUE"].contains s then some true
  else if ["false", "False", "FALSE"].contains s then some false
  else none

def digits? (base : Nat) (cs : List Char) : Option Nat :=
  if cs.isEmpty then none
  else cs.foldl (fun n c => do
    let n ← n
    let d ← Json.hexValue? c
    if d < base then some (base * n + d) else none) (some 0)

/-- A count in base ten without leading zeros, or with a mark for another base. -/
def natural? (cs : List Char) : Option Nat :=
  let cs := match cs with
    | '+' :: rest => rest
    | _ => cs
  match cs with
  | '0' :: 'x' :: rest => digits? 16 rest
  | '0' :: 'o' :: rest => digits? 8 rest
  | '0' :: 'b' :: rest => digits? 2 rest
  | '0' :: _ :: _ => none
  | _ => digits? 10 cs

def count? (n : Node) : Option Nat := do
  let n ← natural? (← plainText? intTag n).toList
  if n < UInt64.size then some n else none

/-- The entries of a mapping under their keys, which are texts; nothing is an empty mapping. The
nodes are those of a document with the given root. -/
def fields? (root : Node) : Node → Option (List (String × Node))
  | .mapping entries =>
    entries.mapM fun (k, v) => do return (← text? (k.resolvedIn root), v.resolvedIn root)
  | .scalar "" .plain _ => some []
  | _ => none

def field? {α : Type} (fields : List (String × Node)) (key : String) (read : Node → Option α) :
    Option (Option α) :=
  match fields.filter fun f => f.1 = key with
  | [] => some none
  | [(_, n)] => (read n).map some
  | _ => none

def delimiters? (root n : Node) : Option Delimiters := do
  let fields ← fields? root n
  return ⟨← (← field? fields "left" text?), ← (← field? fields "right" text?)⟩

def ofRoot? (root : Node) : Option Settings := do
  let fields ← fields? root (root.resolvedIn root)
  let text (key standard : String) : Option String :=
    (field? fields key text?).map fun s => s.getD standard
  return {
    templateDir := ⟨← text "template-dir" standard.templateDir.text⟩
    cacheDir := ⟨← text "cache-dir" standard.cacheDir.text⟩
    delimiters := (← field? fields "delimiters" (delimiters? root)).getD standard.delimiters
    extension := ← text "artifact-extension" standard.extension
    strict := (← field? fields "strict-variables" flag?).getD standard.strict
    debug := (← field? fields "debug" flag?).getD standard.debug
    version := (← field? fields "version" optionalText?).getD standard.version
    maxIncludeDepth := (← field? fields "max-include-depth" count?).getD standard.maxIncludeDepth }

def read (text : String) : Except ConfigFault Settings := do
  match (Node.read? text).bind ofRoot? with
  | some s =>
    s.check
    return s
  | none => throw .invalidDocument

/-- Directories that are not absolute lie beside the file at `path`. -/
def besideFile (s : Settings) (path : Path) : Settings :=
  match path.parent? with
  | some dir => { s with templateDir := dir.join s.templateDir, cacheDir := dir.join s.cacheDir }
  | none => s

def load (path : Path) : Job (Except ConfigFault Settings) := do
  let text : Except OsError String ← Job.perform (.readText path)
  match text with
  | .ok text => return (read text).map (besideFile · path)
  | .error e => return .error (.unreadable path e)

end ViewTemplate.Settings
