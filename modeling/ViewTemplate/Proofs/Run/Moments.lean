import ViewTemplate.Proofs.Run.Activities
import ViewTemplate.Proofs.Run.Working

namespace ViewTemplate.Run

open Code

variable {m : Type → Type} [Monad m] {σ : Type}

def Work.task : Work → Task
  | .value e => .value e
  | .place e => .place e

section Relations

variable (run : Runner m σ) (host : Host m)

/-- After some rounds of a loop over entries it comes to another entry, in this state. -/
inductive Arrives (key : Option String) (value : String) (body : Step m Flow) :
    List (Value × Value) → State → σ → Value × Value → State → σ → Prop
  | now {entry : Value × Value} {rest : List (Value × Value)} {s : State} {w : σ} :
    Arrives key value body (entry :: rest) s w entry s w
  | later {entry entry' : Value × Value} {rest : List (Value × Value)} {s t u : State} {w w' v : σ}
    {flow : Flow} (hbody : run.run (body (s.visiting key value entry)) w = ((.ok flow, u), w'))
    (hflow : flow ≠ .break) (hmore : Arrives key value body rest u w' entry' t v) :
    Arrives key value body (entry :: rest) s w entry' t v

/-- The states that a run comes through: those in which its blocks and evaluations begin and end,
and in a loop the one between its two assignments. -/
inductive Moment (start : Point σ) : State → Prop
  | blockBegins {q : Point σ} (hq : Reaches run host start q) : Moment start q.state
  | blockEnds {q : Point σ} (hq : Reaches run host start q) : Moment start (q.outcome run host).1.2
  | evaluationBegins {q : Point σ} {work : Work} {s : State} {w : σ} {a : Activity σ}
    (hq : Reaches run host start q) (hbegins : Begins run host q work s w)
    (ha : Involves run host ⟨work.task, s, w⟩ a) : Moment start a.state
  | evaluationEnds {q : Point σ} {work : Work} {s : State} {w : σ} {a : Activity σ}
    (hq : Reaches run host start q) (hbegins : Begins run host q work s w)
    (ha : Involves run host ⟨work.task, s, w⟩ a) : Moment start (a.outcome run host).1.2
  | keyAssigned {subject : Expr} {name value : String} {body rest : List Stmt} {line : Nat}
    {s t u : State} {w w' w'' : σ} {v : Value} {entry : Value × Value}
    (hq : Reaches run host start ⟨.foreach subject (some name) value body line :: rest, s, w⟩)
    (hsubject : run.run ((read host subject).value s.deeper) w = ((.ok v, t), w'))
    (h : Arrives run (some name) value (blockStep host s body) (visits v) t w' entry u w'') :
    Moment start { u with scope := Entries.insert u.scope name entry.1 }

/-- A block and the templates that are included while it runs alter variables in `W` only. -/
structure Point.Within (W : String → Prop) (p : Point σ) : Prop where
  alters : AltersAll W p.body
  includes : p.IncludesOnly run host W

end Relations

variable {run : Runner m σ} {host : Host m} {W : String → Prop} {s t : State} {w w' : σ}

theorem Rounds.checks {c : Step m Value} {body : Step m Flow} {n : Nat}
    (h : Rounds run c body n s w t w') :
    ∃ u v x, Checks run c body n s w u v ∧ run.run (c u) v = ((.ok x, t), w') := by
  induction h with
  | now h _ => exact ⟨_, _, _, .now, h⟩
  | later h hv hbody hflow _ ih =>
    obtain ⟨u, v, x, hchecks, hx⟩ := ih
    exact ⟨u, v, x, .later h hv hbody hflow hchecks, hx⟩

theorem Visits.arrives {key : Option String} {value : String} {body : Step m Flow}
    {entries : List (Value × Value)} {i : Nat} (h : Visits run key value body entries s w i t w') :
    ∃ entry u, Arrives run key value body entries s w entry u w' ∧
      t = u.visiting key value entry := by
  induction h with
  | now => exact ⟨_, _, .now, rfl⟩
  | later hbody hflow _ ih =>
    obtain ⟨entry, u, harrives, ht⟩ := ih
    exact ⟨entry, u, .later hbody hflow harrives, ht⟩

theorem Arrives.varied {key : Option String} {value : String} {body : Step m Flow}
    (hkey : ∀ name ∈ key, W name) (hvalue : W value) {entries : List (Value × Value)}
    {entry : Value × Value} (h : Arrives run key value body entries s w entry t w')
    (hbody : ∀ i u v, Visits run key value body entries s w i u v → Varies run W body u v) :
    Varied W s.scope t.scope := by
  induction h with
  | now => exact .refl
  | later hround hflow _ ih =>
    have hmore := ih fun i u v hvisits => hbody (i + 1) u v (.later hround hflow hvisits)
    exact (State.varied_visiting hkey hvalue).trans (((hbody 0 _ _ .now).of_eq hround).trans hmore)

variable [LawfulMonad m]

theorem Checks.varied {c : Expr} {body : Step m Flow} {n : Nat} (hc : c.Each (Expr.Assigns W))
    (h : Checks run (read host c).value body n s w t w')
    (hbody : ∀ u v, Rounds run (read host c).value body n s w u v → Varies run W body u v) :
    Varied W s.scope t.scope := by
  induction h with
  | now => exact .refl
  | later h hv hround hflow _ ih =>
    have hmore := ih fun u v hrounds => hbody u v (.later h hv hround hflow hrounds)
    have hcondition := (read_confined hc).value.varies.of_eq h
    exact hcondition.trans (((hbody _ _ (.now h hv)).of_eq hround).trans hmore)

theorem Tests.varied {c e : Expr} {rest : Alternatives} (h : Tests run host c rest s w e t w')
    (hc : c.Each (Expr.Assigns W)) (hrest : rest.Alters W) :
    e.Each (Expr.Assigns W) ∧ Varied W s.scope t.scope := by
  induction h with
  | now => exact ⟨hc, .refl⟩
  | later h _ _ ih =>
    obtain ⟨he, hvaried⟩ := ih hrest.1 hrest.2.2
    exact ⟨he, ((read_confined hc).value.varies.of_eq h).trans hvaried⟩

theorem Takes.varied {c : Expr} {body : List Stmt} {rest : Alternatives} {p : Point σ}
    (h : Takes run host c body rest s w p) (hc : c.Each (Expr.Assigns W)) (hbody : AltersAll W body)
    (hrest : rest.Alters W) : AltersAll W p.body ∧ Varied W s.scope p.state.scope := by
  induction h with
  | first h _ => exact ⟨hbody, (read_confined hc).value.varies.of_eq h⟩
  | otherwise h _ => exact ⟨hrest, (read_confined hc).value.varies.of_eq h⟩
  | elseIf h _ _ ih =>
    obtain ⟨hp, hvaried⟩ := ih hrest.1 hrest.2.1 hrest.2.2
    exact ⟨hp, ((read_confined hc).value.varies.of_eq h).trans hvaried⟩

theorem Enters.varies {p q : Point σ} (h : Enters run host p q) (hp : p.IncludesOnly run host W)
    (hq : AltersAll W q.body) : Varies run W (blockStep host p.state q.body) q.state q.world := by
  have hround := Point.varied (hp.leads (.enters h)) hq
  rwa [Point.outcome_eq (s := p.state) run host (State.includeDepth_of_deeper h.frame)] at hround

theorem Point.Within.arrives {subject : Expr} {key : Option String} {value : String}
    {body rest : List Stmt} {line : Nat} {v : Value} {entry : Value × Value} {u : State} {w'' : σ}
    (hp : Point.Within run host W ⟨.foreach subject key value body line :: rest, s, w⟩)
    (hsubject : run.run ((read host subject).value s.deeper) w = ((.ok v, t), w'))
    (h : Arrives run key value (blockStep host s body) (visits v) t w' entry u w'') :
    Varied W s.scope u.scope := by
  obtain ⟨⟨hreads, hkey, hvalue, hbody⟩, -⟩ := hp.alters
  refine ((read_confined hreads).value.varies.of_eq hsubject).trans
    (h.varied hkey hvalue fun i u v hvisits => ?_)
  have henters : Enters run host ⟨.foreach subject key value body line :: rest, s, w⟩
      ⟨body, u, v⟩ :=
    .visit hsubject hvisits
  exact henters.varies hp.includes hbody

theorem Point.Within.checks {c : Expr} {body rest : List Stmt}
    (hp : Point.Within run host W ⟨.loop c body :: rest, s, w⟩)
    (h : Checks run (read host c).value (blockStep host s body) host.maxRounds s.deeper w t w') :
    Varied W s.scope t.scope := by
  obtain ⟨⟨hc, hbody⟩, -⟩ := hp.alters
  -- A loop changes the frame before it begins, and no variable.
  change Varied W s.deeper.scope t.scope
  refine h.varied hc fun u v hrounds => ?_
  have henters : Enters run host ⟨.loop c body :: rest, s, w⟩ ⟨body, u, v⟩ := .round hrounds
  exact henters.varies hp.includes hbody

/-- The block that is the next to begin alters no more, and the variables in `W` only changed until
then. -/
theorem Leads.varied {p q : Point σ} (h : Leads run host p q) (hp : p.Within run host W) :
    q.Within run host W ∧ Varied W p.state.scope q.state.scope := by
  have hincludes : q.IncludesOnly run host W := hp.includes.leads h
  cases h with
  | passes h =>
    cases h with
    | next h =>
      have hstmt := stmt_varies (below _) _ rfl hp.includes hp.alters.1
      exact ⟨⟨hp.alters.2, hincludes⟩, hstmt.of_eq h⟩
    | branch h =>
      obtain ⟨⟨hc, hbody, hrest⟩, -⟩ := hp.alters
      obtain ⟨hq, hvaried⟩ := h.varied hc hbody hrest
      exact ⟨⟨hq, hincludes⟩, hvaried⟩
  | enters h =>
    cases h with
    | round h =>
      obtain ⟨u, v, x, hchecks, hx⟩ := h.checks
      obtain ⟨⟨hc, hbody⟩, -⟩ := hp.alters
      exact ⟨⟨hbody, hincludes⟩,
        (hp.checks hchecks).trans ((read_confined hc).value.varies.of_eq hx)⟩
    | visit hsubject h =>
      obtain ⟨entry, u, harrives, rfl⟩ := h.arrives
      obtain ⟨⟨-, hkey, hvalue, hbody⟩, -⟩ := hp.alters
      exact ⟨⟨hbody, hincludes⟩,
        (hp.arrives hsubject harrives).trans (State.varied_visiting hkey hvalue)⟩
  | includes h =>
    -- Nothing is known of the program but that the loader gave it while the block ran.
    have hq : AltersAll W q.body := hp.includes _ _ _ .refl h
    cases h with
    | @template target _ _ s t w _ _ _ _ _ htarget =>
      have hvaried : Varied W s.scope t.scope :=
        (read_confined hp.alters.1).value.varies.of_eq htarget
      exact ⟨⟨hq, hincludes⟩, hvaried⟩

theorem Reaches.varied {p q : Point σ} (h : Reaches run host p q) (hp : p.Within run host W) :
    q.Within run host W ∧ Varied W p.state.scope q.state.scope := by
  induction h with
  | refl => exact ⟨hp, .refl⟩
  | tail _ hstep ih =>
    obtain ⟨hq, hvaried⟩ := hstep.varied ih.1
    exact ⟨hq, ih.2.trans hvaried⟩

theorem Begins.varied {q : Point σ} {work : Work} (h : Begins run host q work s w)
    (hq : q.Within run host W) :
    Activity.Assigns W ⟨work.task, s, w⟩ ∧ Varied W q.state.scope s.scope := by
  cases h with
  | echo h =>
    obtain ⟨hpre, he, -⟩ := eachExpr_append.mp hq.alters.1
    exact ⟨he, (echo_varies (readAll_confined hpre)).of_eq h⟩
  | expr | target => exact ⟨hq.alters.1, .refl⟩
  | unset h =>
    obtain ⟨⟨htargets, hroots⟩, -⟩ := hq.alters
    obtain ⟨hpre, he, -⟩ := eachExpr_append.mp htargets
    exact ⟨he, (unsetAll_varies hpre fun e he => hroots e (List.mem_append_left _ he)).of_eq h⟩
  | cond h =>
    obtain ⟨⟨hc, -, hrest⟩, -⟩ := hq.alters
    exact h.varied hc hrest
  | loop h => exact ⟨hq.alters.1.1, hq.checks h⟩
  | foreach => exact ⟨hq.alters.1.1, .refl⟩

/-- Until each moment of a run variables in `W` only were set and removed. -/
theorem Moment.varied {start : Point σ} (h : Moment run host start t)
    (hstart : start.Within run host W) :
    Varied W start.state.scope t.scope := by
  cases h with
  | blockBegins hq => exact (hq.varied hstart).2
  | blockEnds hq =>
    obtain ⟨hq, hvaried⟩ := hq.varied hstart
    exact hvaried.trans (Point.varied hq.includes hq.alters)
  | evaluationBegins hq hbegins ha =>
    obtain ⟨hq, hvaried⟩ := hq.varied hstart
    obtain ⟨hassigns, hbegun⟩ := hbegins.varied hq
    exact (hvaried.trans hbegun).trans (ha.varied hassigns).2
  | evaluationEnds hq hbegins ha =>
    obtain ⟨hq, hvaried⟩ := hq.varied hstart
    obtain ⟨hassigns, hbegun⟩ := hbegins.varied hq
    obtain ⟨hwithin, hinvolved⟩ := ha.varied hassigns
    exact ((hvaried.trans hbegun).trans hinvolved).trans hwithin.varied
  | keyAssigned hq hsubject h =>
    obtain ⟨hq, hvaried⟩ := hq.varied hstart
    obtain ⟨⟨-, hkey, -, -⟩, -⟩ := hq.alters
    exact (hvaried.trans (hq.arrives hsubject h)).trans (.set _ (hkey _ rfl) .refl)

/-- Only written variables change. Where `W` has the variables that a program and the templates
included while it runs assign, unset and loop over, each other variable is bound at every moment of
the run as at its start, or not bound at all. An evaluation that assigns nothing changes no
variable: not one that reads, not `isset`, `empty` or `??`, and no array literal. -/
theorem unwritten_variables_kept (run : Runner m σ) (host : Host m) {program : Program}
    {scope : Entries Value} {path : Path} {w : σ} (hprogram : AltersAll W program.body)
    (hincluded : Point.IncludesOnly run host W ⟨program.body, ⟨scope, "", ⟨path, 0, 0⟩, []⟩, w⟩) :
    (∀ t, Moment run host ⟨program.body, ⟨scope, "", ⟨path, 0, 0⟩, []⟩, w⟩ t →
      ∀ name, ¬W name → Entries.get? t.scope name = Entries.get? scope name) ∧
    ∀ a b : Activity σ, a.Assigns (fun _ => False) → Involves run host a b →
      b.state.scope = a.state.scope ∧ (b.outcome run host).1.2.scope = a.state.scope := by
  constructor
  · intro t ht name hname
    exact (ht.varied ⟨hprogram, hincluded⟩).get? hname
  · intro a b ha hinvolves
    obtain ⟨hb, hvaried⟩ := hinvolves.varied ha
    exact ⟨hvaried.eq.symm, (hvaried.trans hb.varied).eq.symm⟩

/-- A loop includes a template that assigns a variable inside of `isset($x[$y = 1])`. -/
theorem unwritten_variables_kept_inside_isset :
    let run := Runner.ofState Nat
    let assigns : Expr := .assign (.var "y") (.literal (.int 1))
    let part : Program := ⟨[.expr (.call "isset" [.index (.var "x") assigns])]⟩
    let page : Program := ⟨[.foreach (.array [.value (.literal .null)]) (some "k") "v"
      [.include (.literal (.string "part")) 1] 1]⟩
    let host : Host (StateM Nat) := ⟨[], fun _ n => (.ok (⟨"part"⟩, part), n + 1), true, 1, 0⟩
    let scope : Entries Value := [("x", .string "ab")]
    let start : Point Nat := ⟨page.body, ⟨scope, "", ⟨⟨"page"⟩, 0, 0⟩, []⟩, 0⟩
    AltersAll (· ∈ ["k", "v", "y"]) page.body ∧ start.IncludesOnly run host (· ∈ ["k", "v", "y"]) ∧
      ∃ t, Moment run host start t ∧ Entries.get? t.scope "y" = some (.int 1) ∧
        Entries.get? t.scope "x" = some (.string "ab") ∧ Entries.get? t.scope "z" = none := by
  intro run assigns part page host scope start
  have hassigns : assigns.Each (Expr.Assigns (· ∈ ["k", "v", "y"])) := by
    refine ⟨?_, trivial, trivial⟩
    rintro _ ⟨⟩
    simp
  have hpart : AltersAll (· ∈ ["k", "v", "y"]) part.body :=
    ⟨⟨trivial, ⟨trivial, trivial, hassigns⟩, trivial⟩, trivial⟩
  have hpage : AltersAll (· ∈ ["k", "v", "y"]) page.body := by
    refine ⟨⟨⟨trivial, trivial, trivial⟩, ?_, by simp, trivial, trivial⟩, trivial⟩
    rintro _ ⟨⟩
    simp
  have hincluded : start.IncludesOnly run host (· ∈ ["k", "v", "y"]) := by
    rintro q path r - ⟨-, -, hload⟩
    cases hload
    exact hpart
  -- The round begins, the template is included, and there `isset` reads the key of `x[y = 1]`.
  let inside : Point Nat := ⟨[.include (.literal (.string "part")) 1],
    ⟨[("x", .string "ab"), ("k", .int 0), ("v", .null)], "", ⟨⟨"page"⟩, 1, 0⟩, []⟩, 0⟩
  let included : Point Nat := ⟨part.body, { inside.state with frame := ⟨⟨"part"⟩, 0, 1⟩ }, 1⟩
  have hround : Leads run host start inside := .enters (.visit rfl .now)
  have hincludes : Includes run host inside ⟨"part"⟩ included :=
    .template (t := inside.state) rfl Nat.zero_lt_one rfl
  have hreaches : Reaches run host start included := .tail (.single hround) (.includes hincludes)
  have hnothing : run.run (allSet (readAll host []) included.state) 1 =
    ((.ok true, included.state), 1) := rfl
  have hisset : Spawns run host
      ⟨.value (.call "isset" [.index (.var "x") assigns]), included.state, 1⟩
      ⟨.quiet (.index (.var "x") assigns), included.state, 1⟩ := .isset hnothing
  have hkey : Spawns run host ⟨.quiet (.index (.var "x") assigns), included.state, 1⟩
      ⟨.value assigns, included.state, 1⟩ := .quietKey rfl
  have hmoment := Moment.evaluationEnds hreaches .expr (.tail (.single hisset) hkey)
  have hkept := (unwritten_variables_kept run host hpage hincluded).1 _ hmoment
  exact ⟨hpage, hincluded, _, hmoment, rfl, hkept "x" (by simp), hkept "z" (by simp)⟩

end ViewTemplate.Run
