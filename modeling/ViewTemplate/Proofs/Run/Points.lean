import ViewTemplate.Proofs.Run.Effects
import ViewTemplate.Proofs.Run.Looser
import Mathlib.Logic.Relation

namespace ViewTemplate.Run

open Code

variable {m : Type → Type} [Monad m] {σ α β : Type}

/-- What runs the bodies of included templates when so many includes may still be nested. -/
def bodies (host : Host m) : Nat → List Stmt → Step m Flow
  | 0 => fun _ => throw .unfinished
  | depth + 1 => execBody host depth

theorem execBody_eq (host : Host m) (depth : Nat) (body : List Stmt) :
    execBody host depth body = execBlock host (bodies host depth) body := by
  cases depth <;> rfl

def room (host : Host m) (s : State) : Nat := host.maxIncludeDepth - s.frame.includeDepth

omit [Monad m] in
theorem room_eq {host : Host m} {s t : State} (h : t.frame.includeDepth = s.frame.includeDepth) :
    room host t = room host s := by
  rw [room, room, h]

/-- A block that is about to run, in a state and with what loads includes. -/
structure Point (σ : Type) where
  body : List Stmt
  state : State
  world : σ

variable (run : Runner m σ) (host : Host m)

/-- How the statements of a block run in a state. -/
abbrev stmtStep (s : State) (stmt : Stmt) : Step m Flow :=
  execStmt host (bodies host (room host s)) stmt

abbrev blockStep (s : State) (body : List Stmt) : Step m Flow :=
  execBlock host (bodies host (room host s)) body

def Point.outcome (p : Point σ) : (Except Stop Flow × State) × σ :=
  run.run (blockStep host p.state p.body p.state) p.world

theorem run_execute (scope : Entries Value) (program : Program) (path : Path) (w : σ) :
    run.run (execute host scope program path) w =
      let ((r, t), w') := Point.outcome run host ⟨program.body, ⟨scope, "", ⟨path, 0, 0⟩, []⟩, w⟩
      (⟨r.map fun _ => t.output, t.calls.reverse⟩, w') := by
  unfold execute
  rw [run.run_bind, run.run_pure, execBody_eq]
  rfl

theorem Point.outcome_eq {p : Point σ} {s : State}
    (h : p.state.frame.includeDepth = s.frame.includeDepth) :
    p.outcome run host = run.run (blockStep host s p.body p.state) p.world := by
  unfold outcome blockStep
  rw [room_eq h]

def State.deeper (s : State) : State :=
  { s with frame := { s.frame with loopDepth := s.frame.loopDepth + 1 } }

theorem State.includeDepth_of_deeper {s t : State} (h : t.frame = s.deeper.frame) :
    t.frame.includeDepth = s.frame.includeDepth := by
  rw [h]
  rfl

/-- The state in which the round of a loop for an entry begins. -/
def State.visiting (s : State) (key : Option String) (value : String) (entry : Value × Value) :
    State :=
  let scope := match key with
    | some name => Entries.insert s.scope name entry.1
    | none => s.scope
  { s with scope := Entries.insert scope value entry.2 }

/-- Which branch of a conditional is taken, and the state in which it begins. -/
inductive Takes : Expr → List Stmt → Alternatives → State → σ → Point σ → Prop
  | first {c : Expr} {body : List Stmt} {rest : Alternatives} {s t : State} {w w' : σ} {v : Value}
    (h : run.run ((read host c).value s) w = ((.ok v, t), w')) (hv : v.truthy = true) :
    Takes c body rest s w ⟨body, t, w'⟩
  | otherwise {c : Expr} {body other : List Stmt} {s t : State} {w w' : σ} {v : Value}
    (h : run.run ((read host c).value s) w = ((.ok v, t), w')) (hv : v.truthy = false) :
    Takes c body (.otherwise other) s w ⟨other, t, w'⟩
  | elseIf {c c' : Expr} {body body' : List Stmt} {rest : Alternatives} {s t : State} {w w' : σ}
    {v : Value} {p : Point σ} (h : run.run ((read host c).value s) w = ((.ok v, t), w'))
    (hv : v.truthy = false) (hmore : Takes c' body' rest t w' p) :
    Takes c body (.elseIf c' body' rest) s w p

/-- After some rounds of a loop with a condition its body begins once more. -/
inductive Rounds (condition : Step m Value) (body : Step m Flow) :
    Nat → State → σ → State → σ → Prop
  | now {n : Nat} {s t : State} {w w' : σ} {v : Value}
    (h : run.run (condition s) w = ((.ok v, t), w')) (hv : v.truthy = true) :
    Rounds condition body (n + 1) s w t w'
  | later {n : Nat} {s t u t' : State} {w w' w'' v' : σ} {v : Value} {flow : Flow}
    (h : run.run (condition s) w = ((.ok v, t), w')) (hv : v.truthy = true)
    (hbody : run.run (body t) w' = ((.ok flow, u), w'')) (hflow : flow ≠ .break)
    (hmore : Rounds condition body n u w'' t' v') : Rounds condition body (n + 1) s w t' v'

/-- After so many rounds of a loop over entries its body begins once more. -/
inductive Visits (key : Option String) (value : String) (body : Step m Flow) :
    List (Value × Value) → State → σ → Nat → State → σ → Prop
  | now {entry : Value × Value} {rest : List (Value × Value)} {s : State} {w : σ} :
    Visits key value body (entry :: rest) s w 0 (s.visiting key value entry) w
  | later {entry : Value × Value} {rest : List (Value × Value)} {s t u : State} {w w' v : σ}
    {flow : Flow} {i : Nat}
    (hbody : run.run (body (s.visiting key value entry)) w = ((.ok flow, u), w'))
    (hflow : flow ≠ .break) (hmore : Visits key value body rest u w' i t v) :
    Visits key value body (entry :: rest) s w (i + 1) t v

/-- The run of a block goes on with another one in the same loop of the same template: what stands
behind its first statement, or a branch of that statement. -/
inductive Passes : Point σ → Point σ → Prop
  | next {stmt : Stmt} {rest : List Stmt} {s t : State} {w w' : σ}
    (h : run.run (stmtStep host s stmt s) w = ((.ok .normal, t), w')) :
    Passes ⟨stmt :: rest, s, w⟩ ⟨rest, t, w'⟩
  | branch {c : Expr} {body : List Stmt} {alternatives : Alternatives} {rest : List Stmt}
      {s : State}
    {w : σ} {p : Point σ} (h : Takes run host c body alternatives s w p) :
    Passes ⟨.cond c body alternatives :: rest, s, w⟩ p

/-- The first statement of a block is a loop, and begins a round. -/
inductive Enters : Point σ → Point σ → Prop
  | round {c : Expr} {body rest : List Stmt} {s t : State} {w w' : σ}
    (h : Rounds run (read host c).value (blockStep host s body) host.maxRounds s.deeper w t w') :
    Enters ⟨.loop c body :: rest, s, w⟩ ⟨body, t, w'⟩
  | visit {subject : Expr} {key : Option String} {value : String} {body rest : List Stmt}
      {line i : Nat}
    {s t u : State} {w w' w'' : σ} {v : Value}
    (hsubject : run.run ((read host subject).value s.deeper) w = ((.ok v, t), w'))
    (h : Visits run key value (blockStep host s body) (visits v) t w' i u w'') :
    Enters ⟨.foreach subject key value body line :: rest, s, w⟩ ⟨body, u, w''⟩

/-- The first statement of a block includes the template at a path, whose body begins. -/
inductive Includes : Point σ → Path → Point σ → Prop
  | template {target : Expr} {line : Nat} {rest : List Stmt} {s t : State} {w w' w'' : σ}
      {v : Value}
    {path : Path} {program : Program}
    (htarget : run.run ((read host target).value s) w = ((.ok v, t), w'))
    (hdepth : t.frame.includeDepth < host.maxIncludeDepth)
    (hload : run.run (host.load v.output) w' = (.ok (path, program), w'')) :
    Includes ⟨.include target line :: rest, s, w⟩ path
      ⟨program.body, { t with frame := ⟨path, 0, t.frame.includeDepth + 1⟩ }, w''⟩

/-- While the first block runs, the second one is the next to begin. -/
inductive Leads (p q : Point σ) : Prop
  | passes (h : Passes run host p q)
  | enters (h : Enters run host p q)
  | includes {path : Path} (h : Includes run host p path q)

/-- While the first block runs, the second one begins. -/
def Reaches : Point σ → Point σ → Prop := Relation.ReflTransGen (Leads run host)

/-- The second block is reached without entering a loop or a template. -/
def PassesTo : Point σ → Point σ → Prop := Relation.ReflTransGen (Passes run host)

end ViewTemplate.Run
