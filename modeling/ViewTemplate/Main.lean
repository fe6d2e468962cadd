import Std.Time.DateTime.Timestamp
import ViewTemplate.CommandLine.Run
import ViewTemplate.Files.Contents

namespace ViewTemplate.Main

def ofIoError (e : IO.Error) : OsError :=
  match e with
  | .noFileOrDirectory .. => .notFound
  | .alreadyExists .. => .alreadyExists
  | .inappropriateType _ code _ =>
    if code.toNat = 20 then .notDirectory else if code.toNat = 21 then .isDirectory
    else .other (toString e)
  | e => .other (toString e)

def attempt {α : Type} (action : IO α) : IO (Except OsError α) := do
  try return .ok (← action) catch e => return .error (ofIoError e)

def readContents (p : Path) : IO Contents := do
  return .ofBytes (← IO.FS.readBinFile p.text).toList

def modifiedTime (p : Path) : IO Time := do
  let here ← IO.currentDir
  let time := (← (here / p.text).metadata).modified
  return time.sec.toNat * nanosPerSecond + time.nsec.toNat

def isRegularFile (p : Path) : IO Bool := do
  let here ← IO.currentDir
  return (← (here / p.text).metadata).type matches .file

def createTemp (dir : Path) : IO Path := do
  let number ← IO.rand 0 0xffffffffffff
  let p := dir.join ⟨".stencil-" ++ toString number ++ ".tmp"⟩
  discard <| IO.FS.Handle.mk p.text .writeNew
  return p

def readText (p : Path) : IO (Except OsError String) := do
  match ← attempt (readContents p) with
  | .ok c => match c.text? with
    | some text => return .ok text
    | none => return .error .invalidText
  | .error e => return .error e

def firstLine (p : Path) : IO (Option (List Char)) := do
  match ← attempt (readContents p) with
  | .ok c => return c.firstLine?
  | .error _ => return none

/-- Performs an action. The time of a file cannot be set from here, so the artifact of a template
that is dated in the future is made anew each time. One job runs at a time, so locks are free. -/
def perform : (action : Action) → IO action.Answer
  | .modified p => attempt (modifiedTime p)
  | .isFile p => do
    match ← attempt (isRegularFile p) with
    | .ok b => return b
    | .error _ => return false
  | .readText p => readText p
  | .firstLine p => firstLine p
  | .createDirs p => attempt (if p.text = "" then pure () else IO.FS.createDirAll p.text)
  | .createTemp dir => attempt (createTemp dir)
  | .write p text => attempt (IO.FS.writeFile p.text text)
  | .rename p q => attempt (IO.FS.rename p.text q.text)
  | .remove p => attempt (IO.FS.removeFile p.text)
  | .setModified _ _ => return .ok ()
  | .lock _ | .unlock _ => return ()
  | .now => do return (← Std.Time.Timestamp.now).toNanosecondsSinceUnixEpoch.val.toNat

end ViewTemplate.Main

def main (args : List String) : IO UInt32 := do
  let workingDir : ViewTemplate.Path := ⟨toString (← IO.currentDir)⟩
  let report ← (ViewTemplate.CommandLine.run workingDir args).runIn ViewTemplate.Main.perform
  (← IO.getStderr).putStr report.stderr
  (← IO.getStdout).putStr report.stdout
  return UInt32.ofNat report.exitCode
