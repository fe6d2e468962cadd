import ViewTemplate.Error

/-!
Jobs on files. A job asks for one action after another and goes on with the answers, so that the
same job can run on real files, on a model of them, or in turns with other jobs.
-/

namespace ViewTemplate

/-- A point in time, in nanoseconds since 1970. -/
abbrev Time := Nat

def nanosPerSecond : Nat := 1000000000

inductive Action where
  /-- The time of the last change. -/
  | modified (p : Path)
  | isFile (p : Path)
  | readText (p : Path)
  | firstLine (p : Path)
  /-- Makes a directory and those above it. -/
  | createDirs (p : Path)
  /-- Makes an empty file with a new name in a directory. -/
  | createTemp (dir : Path)
  | write (p : Path) (text : String)
  /-- Moves a file in one step to a path, in place of what was there. -/
  | rename (p q : Path)
  | remove (p : Path)
  | setModified (p : Path) (t : Time)
  /-- Waits until no other job holds the lock of the key. -/
  | lock (key : String)
  | unlock (key : String)
  | now
  deriving DecidableEq

def Action.Answer : Action → Type
  | .modified _ => Except OsError Time
  | .isFile _ => Bool
  | .readText _ => Except OsError String
  | .firstLine _ => Option (List Char)
  | .createTemp _ => Except OsError Path
  | .createDirs _ | .write .. | .rename .. | .remove _ | .setModified .. => Except OsError Unit
  | .lock _ | .unlock _ => Unit
  | .now => Time

inductive Job (α : Type) where
  | done (a : α)
  | act (action : Action) (next : action.Answer → Job α)

namespace Job

variable {α β : Type}

def bind : Job α → (α → Job β) → Job β
  | done a, f => f a
  | act action next, f => act action fun answer => (next answer).bind f

instance : Monad Job where
  pure := done
  bind := bind

def perform (action : Action) : Job action.Answer := act action done

def runIn {m : Type → Type} [Monad m] (how : (action : Action) → m action.Answer) : Job α → m α
  | done a => pure a
  | act action next => do (next (← how action)).runIn how

end Job

abbrev Attempt (α : Type) := ExceptT TemplateError Job α

namespace Attempt

variable {α : Type}

def ofExcept (r : Except TemplateError α) : Attempt α := ExceptT.mk (.done r)

def ask (action : Action) : Attempt action.Answer := ExceptT.lift (Job.perform action)

/-- The result of an action that the template at `source` needs to be compiled. -/
def orCompileError (source : Path) (doing : String) (job : Job (Except OsError α)) : Attempt α :=
  ExceptT.mk do
    match ← job with
    | .ok a => return .ok a
    | .error e => return .error (.compile source (.file doing e))

end Attempt

end ViewTemplate
