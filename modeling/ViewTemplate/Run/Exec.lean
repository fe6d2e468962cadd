import ViewTemplate.Run.Eval

namespace ViewTemplate.Run

open Code

inductive Flow where
  | normal
  | break
  | continue
  deriving DecidableEq

variable {m : Type → Type} [Monad m]

def echo : List (Reading m) → Step m Unit
  | [] => pure ()
  | r :: rest => do
    write (← r.value).output
    echo rest

def inLoop {α : Type} (step : Step m α) : Step m α :=
  within (fun f => { f with loopDepth := f.loopDepth + 1 })
    (fun _ f => { f with loopDepth := f.loopDepth - 1 }) step

/-- A step in a template that is included: outside of every loop and one include deeper. Behind it
the path and the loops are those from before, and the includes are counted back. -/
def inTemplate {α : Type} (path : Path) (step : Step m α) : Step m α :=
  within (fun f => ⟨path, 0, f.includeDepth + 1⟩)
    (fun outer f => ⟨outer.path, outer.loopDepth, f.includeDepth - 1⟩) step

def leave (flow : Flow) (keyword : String) (line : Nat) : Step m Flow := do
  if (← get).frame.loopDepth = 0 then fail (.outsideLoop keyword line) else return flow

/-- Repeats a body while a condition holds, for a bounded number of rounds. -/
def repeatWhile (condition : Step m Value) (body : Step m Flow) : Nat → Step m Unit
  | 0 => throw .unfinished
  | rounds + 1 => do
    if (← condition).truthy then
      match ← body with
      | .break => return ()
      | .normal | .continue => repeatWhile condition body rounds
    else return ()

/-- What a loop over a value visits: the elements of an array as they are when the loop begins, and
nothing of a value that is no array. -/
def visits : Value → List (Value × Value)
  | .list items => items.zipIdx.map fun (v, i) => (.int (Int64.ofNat i), v)
  | .map entries => entries.map fun (k, v) => (.string k, v)
  | _ => []

def forEach (key : Option String) (value : String) (body : Step m Flow) :
    List (Value × Value) → Step m Unit
  | [] => pure ()
  | (k, v) :: rest => do
    match key with
    | some name => assignVariable name k
    | none => pure ()
    assignVariable value v
    match ← body with
    | .break => return ()
    | .normal | .continue => forEach key value body rest

def unsetAll : List (Step m Place) → Step m Unit
  | [] => pure ()
  | p :: rest => do
    unset (← p)
    unsetAll rest

def places (host : Host m) : List Expr → List (Step m Place)
  | [] => []
  | e :: rest => place host e :: places host rest

def includeTemplate (host : Host m) (runBody : List Stmt → Step m Flow) (name : String) :
    Step m Unit := do
  if host.maxIncludeDepth ≤ (← get).frame.includeDepth then
    throw (.failed (.recursiveInclude name host.maxIncludeDepth))
  else
    match ← (ExceptT.lift (StateT.lift (host.load name)) : Step m _) with
    | .error e => throw (.failed e)
    | .ok (path, program) => discard <| inTemplate path (runBody program.body)

mutual

def execStmt (host : Host m) (runBody : List Stmt → Step m Flow) : Stmt → Step m Flow
  | .text s => do
    write s
    return .normal
  | .echo es => do
    echo (readAll host es)
    return .normal
  | .expr e => do
    discard (read host e).value
    return .normal
  | .unset targets => do
    unsetAll (places host targets)
    return .normal
  | .cond condition body rest =>
    let body := execBlock host runBody body
    let rest := execAlternatives host runBody rest
    do if (← (read host condition).value).truthy then body else rest
  | .loop condition body =>
    let body := execBlock host runBody body
    do
      inLoop (repeatWhile (read host condition).value body host.maxRounds)
      return .normal
  | .foreach subject key value body _ =>
    let body := execBlock host runBody body
    do
      inLoop do
        let v ← (read host subject).value
        forEach key value body (visits v)
      return .normal
  | .break line => leave .break "break" line
  | .continue line => leave .continue "continue" line
  | .include target _ => do
    let name ← (read host target).value
    includeTemplate host runBody name.output
    return .normal

def execAlternatives (host : Host m) (runBody : List Stmt → Step m Flow) :
    Alternatives → Step m Flow
  | .none => pure .normal
  | .otherwise body => execBlock host runBody body
  | .elseIf condition body rest =>
    let body := execBlock host runBody body
    let rest := execAlternatives host runBody rest
    do if (← (read host condition).value).truthy then body else rest

def execBlock (host : Host m) (runBody : List Stmt → Step m Flow) : List Stmt → Step m Flow
  | [] => pure .normal
  | stmt :: rest =>
    let first := execStmt host runBody stmt
    let rest := execBlock host runBody rest
    do
      match ← first with
      | .normal => rest
      | flow => return flow

end

/-- Executes a body below which so many includes may be nested. -/
def execBody (host : Host m) : Nat → List Stmt → Step m Flow
  | 0, body => execBlock host (fun _ => throw .unfinished) body
  | depth + 1, body => execBlock host (execBody host depth) body

/-- The result of a rendering: its output or why it stopped, and the calls it made, in order. -/
structure Outcome where
  result : Except Stop String
  calls : List Call

def execute (host : Host m) (scope : Entries Value) (program : Program) (path : Path) :
    m Outcome := do
  let start : State := ⟨scope, "", ⟨path, 0, 0⟩, []⟩
  let (r, s) ← execBody host host.maxIncludeDepth program.body start
  return ⟨r.map fun _ => s.output, s.calls.reverse⟩

end ViewTemplate.Run
