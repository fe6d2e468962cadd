import ViewTemplate.Proofs.Run.Frames

namespace ViewTemplate.Run

open Code

variable {m : Type → Type} [Monad m] {σ α β : Type}

section Relations

variable (run : Runner m σ) (host : Host m)

/-- What a block itself evaluates: an expression for its value, or one that names a place. -/
inductive Work where
  | value (e : Expr)
  | place (e : Expr)

def Work.step : Work → Step m Unit
  | .value e => do
    let _ ← (read host e).value
    return ()
  | .place e => do
    let _ ← Run.place host e
    return ()

/-- A condition of a conditional is evaluated, after none before it held. -/
inductive Tests : Expr → Alternatives → State → σ → Expr → State → σ → Prop
  | now {c : Expr} {rest : Alternatives} {s : State} {w : σ} : Tests c rest s w c s w
  | later {c c' e : Expr} {body : List Stmt} {rest : Alternatives} {s t u : State} {w w' w'' : σ}
    {v : Value} (h : run.run ((read host c).value s) w = ((.ok v, t), w'))
    (hv : v.truthy = false) (hmore : Tests c' rest t w' e u w'') :
    Tests c (.elseIf c' body rest) s w e u w''

/-- After some rounds of a loop its condition is evaluated once more. -/
inductive Checks (condition : Step m Value) (body : Step m Flow) :
    Nat → State → σ → State → σ → Prop
  | now {n : Nat} {s : State} {w : σ} : Checks condition body (n + 1) s w s w
  | later {n : Nat} {s t u t' : State} {w w' w'' v' : σ} {v : Value} {flow : Flow}
    (h : run.run (condition s) w = ((.ok v, t), w')) (hv : v.truthy = true)
    (hbody : run.run (body t) w' = ((.ok flow, u), w'')) (hflow : flow ≠ .break)
    (hmore : Checks condition body n u w'' t' v') : Checks condition body (n + 1) s w t' v'

/-- The first statement of a block evaluates something, from a state. -/
inductive Begins : Point σ → Work → State → σ → Prop
  | echo {pre post : List Expr} {e : Expr} {rest : List Stmt} {s t : State} {w w' : σ}
    (h : run.run (echo (readAll host pre) s) w = ((.ok (), t), w')) :
    Begins ⟨.echo (pre ++ e :: post) :: rest, s, w⟩ (.value e) t w'
  | expr {e : Expr} {rest : List Stmt} {s : State} {w : σ} :
    Begins ⟨.expr e :: rest, s, w⟩ (.value e) s w
  | unset {pre post : List Expr} {e : Expr} {rest : List Stmt} {s t : State} {w w' : σ}
    (h : run.run (unsetAll (places host pre) s) w = ((.ok (), t), w')) :
    Begins ⟨.unset (pre ++ e :: post) :: rest, s, w⟩ (.place e) t w'
  | cond {c e : Expr} {body : List Stmt} {alternatives : Alternatives} {rest : List Stmt}
      {s t : State}
    {w w' : σ} (h : Tests run host c alternatives s w e t w') :
    Begins ⟨.cond c body alternatives :: rest, s, w⟩ (.value e) t w'
  | loop {c : Expr} {body rest : List Stmt} {s t : State} {w w' : σ}
    (h : Checks run (read host c).value (blockStep host s body) host.maxRounds s.deeper w t w') :
    Begins ⟨.loop c body :: rest, s, w⟩ (.value c) t w'
  | foreach {subject : Expr} {key : Option String} {value : String} {body rest : List Stmt}
      {line : Nat}
    {s : State} {w : σ} :
    Begins ⟨.foreach subject key value body line :: rest, s, w⟩ (.value subject) s.deeper w
  | target {target : Expr} {line : Nat} {rest : List Stmt} {s : State} {w : σ} :
    Begins ⟨.include target line :: rest, s, w⟩ (.value target) s w

/-- The second block is reached without entering a template. -/
def StaysIn : Point σ → Point σ → Prop :=
  Relation.ReflTransGen fun p q => Passes run host p q ∨ Enters run host p q

/-- A block that is reached runs in the template at a path, the last one that was entered. -/
inductive RunsIn (start : Point σ) : Path → Point σ → Prop
  | main {q : Point σ} (h : StaysIn run host start q) : RunsIn start start.state.frame.path q
  | included {p q r : Point σ} {path : Path} (hp : Reaches run host start p)
    (hincludes : Includes run host p path r) (h : StaysIn run host r q) : RunsIn start path q

end Relations

variable {run : Runner m σ} {host : Host m} {s t : State} {w w' : σ}

theorem Checks.frame {c : Step m Value} {body : Step m Flow} (hc : KeepsFrame run c)
    (hbody : KeepsFrame run body) {n : Nat} (h : Checks run c body n s w t w') :
    t.frame = s.frame := by
  induction h with
  | now => rfl
  | later h _ hb _ _ ih => exact ih.trans ((hbody.eq hb).trans (hc.eq h))

theorem RunsIn.tail {start p q : Point σ} {path : Path} (h : RunsIn run host start path p)
    (hstep : Passes run host p q ∨ Enters run host p q) : RunsIn run host start path q := by
  cases h with
  | main h => exact .main (.tail h hstep)
  | included hp hincludes h => exact .included hp hincludes (.tail h hstep)

variable [LawfulMonad m]

theorem Tests.frame {c e : Expr} {rest : Alternatives} (h : Tests run host c rest s w e t w') :
    t.frame = s.frame := by
  induction h with
  | now => rfl
  | later h _ _ ih => exact ih.trans ((read_keepsFrame _).eq h)

theorem echo_keepsFrame (es : List Expr) : KeepsFrame run (echo (readAll host es)) :=
  ((keepsFrame_congruence host).echo ((keepsFrame_congruence host).readAll es)).2

theorem unsetAll_keepsFrame (targets : List Expr) :
    KeepsFrame run (unsetAll (places host targets)) :=
  ((keepsFrame_congruence host).unsetAll ((keepsFrame_congruence host).places targets)).2

theorem Begins.path {q : Point σ} {work : Work} (h : Begins run host q work s w) :
    s.frame.path = q.state.frame.path := by
  cases h with
  | expr | foreach | target => rfl
  | echo h => exact congrArg Frame.path ((echo_keepsFrame _).eq h)
  | unset h => exact congrArg Frame.path ((unsetAll_keepsFrame _).eq h)
  | cond h => exact congrArg Frame.path h.frame
  | loop h =>
    rw [h.frame (read_keepsFrame _) (block_keepsFrame _ _)]
    rfl

theorem Reaches.runsIn {start q : Point σ} (h : Reaches run host start q) :
    RunsIn run host start q.state.frame.path q := by
  induction h with
  | refl => exact .main .refl
  | @tail p q hp hstep ih =>
    cases hstep with
    | passes h =>
      rw [h.frame]
      exact ih.tail (.inl h)
    | enters h =>
      rw [h.frame]
      exact ih.tail (.inr h)
    | includes h =>
      rw [h.frame.1]
      exact .included hp h .refl

end ViewTemplate.Run
