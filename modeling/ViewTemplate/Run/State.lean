import ViewTemplate.Code.Program
import ViewTemplate.Error
import ViewTemplate.Run.Function

namespace ViewTemplate.Run

structure Call where
  name : String
  args : List Value
  result : Except FunctionError Value

/-- Where execution stands: in which template, in how many loops of it, and below how many
includes. -/
structure Frame where
  path : Path
  loopDepth : Nat
  includeDepth : Nat
  deriving DecidableEq

structure State where
  scope : Entries Value
  output : String
  frame : Frame
  /-- The calls so far, the latest first. -/
  calls : List Call

/-- Why a rendering ends before its program does. -/
inductive Stop where
  | failed (error : TemplateError)
  /-- A `while` loop used up its rounds. -/
  | unfinished

abbrev Step (m : Type → Type) (α : Type) := ExceptT Stop (StateT State m) α

structure Host (m : Type → Type) where
  functions : Registry
  /-- Finds the template that an include names, and its program. -/
  load : String → m (Except TemplateError (Path × Code.Program))
  /-- Reading what is not there fails instead of giving null. -/
  strict : Bool
  maxIncludeDepth : Nat
  /-- The rounds that one `while` loop may take. -/
  maxRounds : Nat

def loadNothing {m : Type → Type} [Monad m] (name : String) :
    m (Except TemplateError (Path × Code.Program)) :=
  pure (.error (.notFound name []))

variable {m : Type → Type} [Monad m] {α : Type}

def fail (fault : RenderFault) : Step m α := do
  throw (.failed (.render (← get).frame.path fault))

def ofOperator (r : Except OperatorError α) : Step m α :=
  match r with
  | .ok a => pure a
  | .error e => fail (.operator e)

/-- Runs a step in another frame and comes back from there, also when it fails: `back` is given the
frame before and the one in which the step ends. -/
def within (enter : Frame → Frame) (back : Frame → Frame → Frame) (step : Step m α) : Step m α :=
  fun s => do
    let (r, t) ← step { s with frame := enter s.frame }
    return (r, { t with frame := back s.frame t.frame })

def write (text : String) : Step m Unit :=
  modify fun s => { s with output := s.output ++ text }

def assignVariable (name : String) (v : Value) : Step m Unit :=
  modify fun s => { s with scope := Entries.insert s.scope name v }

end ViewTemplate.Run
