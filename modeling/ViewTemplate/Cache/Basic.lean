import ViewTemplate.Artifact
import ViewTemplate.Cache.Key
import ViewTemplate.Files.Job

/-!
The cache of artifacts. Each template has one place for its artifact, named by a key of its absolute
path. An artifact is stale when it is missing, older than its template or of another engine. A new
one is written beside its place and moved there in one step, and of the jobs that want the same
artifact one at a time makes it.
-/

namespace ViewTemplate

structure Cache where
  dir : Path
  extension : String
  /-- Where relative paths begin. -/
  workingDir : Path

structure Compiled where
  key : String
  artifact : Path
  sourceTime : Time
  artifactTime : Time
  /-- Whether it was made just now. -/
  recompiled : Bool

namespace Cache

def key (c : Cache) (source : Path) : String := keyOf (Path.absolute c.workingDir source).text

def artifactPath (c : Cache) (source : Path) : Path :=
  c.dir.join ⟨c.key source ++ "." ++ c.extension⟩

/-- Whether the artifact is good for a template of the given time. -/
def upToDate (sourceTime : Time) (artifact : Path) : Job Bool := do
  match ← Job.perform (.modified artifact) with
  | .error _ => return false
  | .ok time =>
    if time < sourceTime then return false
    else
      let line ← Job.perform (.firstLine artifact)
      return line.any Artifact.isCurrentHeader

def sourceTime (source : Path) : Attempt Time :=
  Attempt.orCompileError source "cannot stat template" (Job.perform (.modified source))

def isFresh (c : Cache) (source : Path) : Attempt Bool := do
  let time ← sourceTime source
  ExceptT.lift (upToDate time (c.artifactPath source))

def describe (c : Cache) (source : Path) (time : Time) (recompiled : Bool) : Attempt Compiled := do
  let artifact := c.artifactPath source
  let artifactTime ← Attempt.orCompileError source "cannot stat artifact"
    (Job.perform (.modified artifact))
  return ⟨c.key source, artifact, time, artifactTime, recompiled⟩

/-- Writes a text to a new file and moves it into place. What is left of a failure is removed. -/
def publish (c : Cache) (source artifact : Path) (text : String) : Attempt Unit := do
  let temp ← Attempt.orCompileError source "cannot create temporary artifact"
    (Job.perform (.createTemp c.dir))
  let cleanUp : Job (Except OsError Unit) → Job (Except OsError Unit) := fun step => do
    let result ← step
    if result matches .error _ then
      let _ ← Job.perform (.remove temp)
    return result
  Attempt.orCompileError source "cannot write artifact" (cleanUp (Job.perform (.write temp text)))
  Attempt.orCompileError source "cannot move artifact into place"
    (cleanUp (Job.perform (.rename temp artifact)))

/-- Gives the artifact the time of its template if it is older: the template may be dated in the
future. -/
def settleTime (source artifact : Path) (time : Time) : Attempt Unit := do
  match ← Attempt.ask (.modified artifact) with
  | .ok artifactTime =>
    if artifactTime < time then
      Attempt.orCompileError source "cannot set artifact time"
        (Job.perform (.setModified artifact time))
  | .error _ => return ()

/-- Makes the artifact, unless another job made it in the meantime. -/
def recompile (c : Cache) (compile : Path → Attempt String) (source : Path) (time : Time) :
    Attempt Compiled := do
  let artifact := c.artifactPath source
  if ← ExceptT.lift (upToDate time artifact) then c.describe source time false
  else
    Attempt.orCompileError source "cannot create cache directory" (Job.perform (.createDirs c.dir))
    let text ← compile source
    c.publish source artifact text
    settleTime source artifact time
    c.describe source time true

def locked {α : Type} (key : String) (attempt : Attempt α) : Attempt α := ExceptT.mk do
  Job.perform (.lock key)
  let result ← attempt.run
  Job.perform (.unlock key)
  return result

/-- The artifact of a template, made by `compile` if the one that is there is stale. -/
def getOrCompile (c : Cache) (compile : Path → Attempt String) (source : Path) :
    Attempt Compiled := do
  let time ← sourceTime source
  if ← ExceptT.lift (upToDate time (c.artifactPath source)) then c.describe source time false
  else locked (c.key source) (c.recompile compile source time)

end Cache

end ViewTemplate
