import ViewTemplate.Proofs.Run.Ending
import ViewTemplate.Proofs.Run.Working

namespace ViewTemplate.Run

open Code

variable {m : Type → Type} [Monad m] {σ α β : Type} {run : Runner m σ} {host : Host m} {depth : Nat}

section Sites

variable (run : Runner m σ) (host : Host m)

/-- The last call that an evaluation makes fails, and the evaluation with it. -/
def Work.Fails (work : Work) : Site σ := fun s w c stop w' =>
  ∃ t earlier, run.run (work.step host s) w = ((.error stop, t), w') ∧
    t.calls = c :: (earlier ++ s.calls) ∧ answer s.frame.path c.name c.result = .error stop

/-- While a block runs, a call fails in what it or a block below it evaluates. -/
inductive CallFails (p : Point σ) (c : Call) (stop : Stop) (w' : σ) : Prop
  | during {q : Point σ} {work : Work} {s : State} {w : σ} (hreaches : Reaches run host p q)
    (hbegins : Begins run host q work s w) (hfails : work.Fails run host s w c stop w')

end Sites

theorem Work.Fails.answer {work : Work} {s : State} {w w' : σ} {c : Call} {stop : Stop}
    (h : work.Fails run host s w c stop w') :
    answer s.frame.path c.name c.result = .error stop := by
  obtain ⟨_, _, -, -, hanswer⟩ := h
  exact hanswer

theorem Leads.callFails {p q : Point σ} {c : Call} {stop : Stop} {w : σ} (h : Leads run host p q)
    (hq : CallFails run host q c stop w) : CallFails run host p c stop w := by
  obtain ⟨hreaches, hbegins, hfails⟩ := hq
  exact .during (.head h hreaches) hbegins hfails

section Parts

variable {s t : State} {w w' : σ} {site : Site σ}

theorem leave_ends (flow : Flow) (keyword : String) (line : Nat) :
    Ends run host depth (leave flow keyword line : Step m Flow) site fun _ => True := by
  refine .look fun s _ => ?_
  split
  · exact .fail _
  · exact .pure trivial

theorem Ends.fails {x : Step m α} {work : Work} {post : α → Prop}
    (h : Ends run host depth x Answered post)
    (hwork : ∀ {s w stop t w'}, run.run (x s) w = ((.error stop, t), w') →
      run.run (work.step host s) w = ((.error stop, t), w')) :
    Ends run host depth x (work.Fails run host) post := by
  intro s w r t w' hroom hrun
  obtain ⟨hframe, added, hcalls, hended⟩ := h hroom hrun
  refine ⟨hframe, added, hcalls, ?_⟩
  cases hended with
  | answers hadded ha => exact .answers hadded ha
  | fails hadded hstop => exact .fails hadded hstop
  | byCall hearlier hanswer => exact .byCall hearlier ⟨t, _, hwork hrun, hcalls, hanswer⟩

/-- A step for each of some expressions, and what is then done with its answer. -/
def inTurn (x : Expr → Step m α) (use : α → Step m Unit) : List Expr → Step m Unit
  | [] => pure ()
  | e :: rest => do
    use (← x e)
    inTurn x use rest

theorem echo_readAll (es : List Expr) : echo (readAll host es) =
    inTurn (fun e => (read host e).value) (fun v => write v.output) es := by
  induction es with
  | nil => rfl
  | cons e rest ih => rw [readAll, echo, inTurn, ih]

theorem unsetAll_places (targets : List Expr) :
    unsetAll (places host targets) = inTurn (place host) unset targets := by
  induction targets with
  | nil => rfl
  | cons e rest ih => rw [places, unsetAll, inTurn, ih]

/-- A call fails in what is evaluated for one of some expressions, behind those in front of it. -/
def TurnFails (run : Runner m σ) (host : Host m) (x : Expr → Step m α) (use : α → Step m Unit)
    (work : Expr → Work) (es : List Expr) : Site σ := fun s w c stop w' =>
  ∃ pre e post t v, es = pre ++ e :: post ∧ run.run (inTurn x use pre s) w = ((.ok (), t), v) ∧
    (work e).Fails run host t v c stop w'

theorem inTurn_ends {x : Expr → Step m α} {use : α → Step m Unit} {work : Expr → Work}
    {post : Expr → α → Prop}
    (hx : ∀ e, Ends run host depth (x e) ((work e).Fails run host) (post e))
    (huse : ∀ a, Ends run host depth (use a) Nowhere fun _ => True) (es : List Expr) :
    Ends run host depth (inTurn x use es) (TurnFails run host x use work es) fun _ => True := by
  induction es with
  | nil => exact .pure trivial
  | cons e rest ih =>
    -- the expressions in front of the failing one grow by `e` when the failure is behind it
    have hrest : ∀ a, Ends run host depth (use a >>= fun _ => inTurn x use rest)
        (fun t v c stop w' => ∃ u v', run.run (use a t) v = ((.ok (), u), v') ∧
          TurnFails run host x use work rest u v' c stop w') fun _ => True :=
      fun a => (huse a).behind (fun _ _ => ih) fun _ hrun h => ⟨_, _, hrun, h⟩
    refine (hx e).bind (fun a _ => hrest a) (fun _ h => ?_) ?_
    · exact ⟨[], e, rest, _, _, rfl, run_pure_ok run _ _ _, h⟩
    · rintro s w a t v c stop w' _ ha ⟨_, _, hrun, pre, e', post, u, v', rfl, hpre, h⟩
      refine ⟨e :: pre, e', post, u, v', rfl, ?_, h⟩
      exact (run_bind_of_ok run ha).trans ((run_bind_of_ok run hrun).trans hpre)

/-- A call fails in a round of a loop, or behind a round that does not leave the loop. -/
def RoundFails (run : Runner m σ) (body : Step m Flow) (site again : Site σ) : Site σ :=
  fun s w c stop w' => site s w c stop w' ∨ ∃ flow t v, run.run (body s) w = ((.ok flow, t), v) ∧
    flow ≠ .break ∧ again t v c stop w'

theorem round_ends {body : Step m Flow} {more : Step m Unit} {again : Site σ}
    (hbody : Ends run host depth body site fun _ => True)
    (hmore : Ends run host depth more again fun _ => True) :
    Ends run host depth (body >>= fun flow => match flow with
      | .break => pure ()
      | .normal | .continue => more) (RoundFails run body site again) fun _ => True := by
  have hrest : ∀ flow : Flow, Ends run host depth (match flow with
      | .break => pure ()
      | .normal | .continue => more)
      (fun t v c stop w' => flow ≠ .break ∧ again t v c stop w') fun _ => True := by
    intro flow
    cases flow with
    | «break» => exact .pure trivial
    | normal => exact hmore.imp fun _ h => ⟨nofun, h⟩
    | «continue» => exact hmore.imp fun _ h => ⟨nofun, h⟩
  exact hbody.bind (fun flow _ => hrest flow) (fun _ h => .inl h)
    fun _ hrun ⟨hflow, h⟩ => .inr ⟨_, _, _, hrun, hflow, h⟩

/-- A call fails in a round of a loop over entries. -/
def VisitsFail (run : Runner m σ) (key : Option String) (value : String) (body : Step m Flow)
    (site : Site σ) (entries : List (Value × Value)) : Site σ := fun s w c stop w' =>
  ∃ i t v, Visits run key value body entries s w i t v ∧ site t v c stop w'

theorem forEach_ends {key : Option String} {value : String} {body : Step m Flow}
    (hbody : Ends run host depth body site fun _ => True) (entries : List (Value × Value)) :
    Ends run host depth (forEach key value body entries)
      (VisitsFail run key value body site entries) fun _ => True := by
  induction entries with
  | nil => exact .pure trivial
  | cons entry rest ih =>
    intro s w r t w' hroom hrun
    rw [run_forEach_cons] at hrun
    obtain ⟨hframe, added, hcalls, hended⟩ :=
      round_ends hbody ih (s := s.visiting key value entry) hroom hrun
    refine ⟨hframe, added, hcalls, hended.imp ?_⟩
    rintro c stop (h | ⟨flow, u, v, hflow, hne, i, t, v', hvisits, h⟩)
    · exact ⟨0, _, _, .now, h⟩
    · exact ⟨i + 1, t, v', .later hflow hne hvisits, h⟩

variable [LawfulMonad m]

theorem read_ends (e : Expr) :
    Ends run host depth (read host e).value ((Work.value e).Fails run host) fun _ => True :=
  ((evaluates_ends run host depth).read (each_node e)).value.fails (run_bind_of_error run)

theorem place_ends (e : Expr) :
    Ends run host depth (place host e) ((Work.place e).Fails run host) fun p => p.root ∈ e.root? :=
  ((evaluates_ends run host depth).place (each_node e)).fails (run_bind_of_error run)

theorem echo_ends (es : List Expr) : Ends run host depth (echo (readAll host es))
    (fun s w c stop w' => ∃ pre e post t v, es = pre ++ e :: post ∧
      run.run (echo (readAll host pre) s) w = ((.ok (), t), v) ∧
        (Work.value e).Fails run host t v c stop w') fun _ => True := by
  have hread (e : Expr) : Ends run host depth (read host e).value ((Work.value e).Fails run host)
      fun _ => True := read_ends e
  have hwrite (v : Value) : Ends run host depth (write v.output : Step m Unit) Nowhere
      fun _ => True :=
    .modify (fun _ => rfl) fun _ => rfl
  simp only [echo_readAll]
  exact inTurn_ends hread hwrite es

omit [LawfulMonad m] in
theorem unset_ends (p : Place) :
    Ends run host depth (unset p : Step m Unit) site fun _ => True := by
  refine .modify (fun s => ?_) fun s => ?_
  all_goals
    split
    · rfl
    · split <;> rfl

theorem unsetAll_ends (targets : List Expr) : Ends run host depth (unsetAll (places host targets))
    (fun s w c stop w' => ∃ pre e post t v, targets = pre ++ e :: post ∧
      run.run (unsetAll (places host pre) s) w = ((.ok (), t), v) ∧
        (Work.place e).Fails run host t v c stop w') fun _ => True := by
  simp only [unsetAll_places]
  exact inTurn_ends place_ends unset_ends targets

/-- A call fails in the condition of a loop, or in a round of it. -/
def WhileFails (run : Runner m σ) (host : Host m) (c : Expr) (body : Step m Flow) (site : Site σ)
    (rounds : Nat) : Site σ := fun s w call stop w' =>
  (∃ t v, Checks run (read host c).value body rounds s w t v ∧
    (Work.value c).Fails run host t v call stop w') ∨
  ∃ t v, Rounds run (read host c).value body rounds s w t v ∧ site t v call stop w'

theorem repeatWhile_ends {c : Expr} {body : Step m Flow}
    (hbody : Ends run host depth body site fun _ => True) (rounds : Nat) :
    Ends run host depth (repeatWhile (read host c).value body rounds)
      (WhileFails run host c body site rounds) fun _ => True := by
  induction rounds with
  | zero => exact .throw fun _ h => nomatch h
  | succ rounds ih =>
    -- What comes once the condition is read: a round and the rest of the loop, or nothing.
    have hrest : ∀ x : Value, Ends run host depth (do
        if x.truthy then
          match ← body with
          | .break => return ()
          | .normal | .continue => repeatWhile (read host c).value body rounds
        else return ())
        (fun t v call stop w' => x.truthy = true ∧
          RoundFails run body site (WhileFails run host c body site rounds) t v call stop w')
        fun _ => True := by
      intro x
      split
      · rename_i hx
        exact (round_ends hbody ih).imp fun _ h => ⟨hx, h⟩
      · exact .pure trivial
    refine (read_ends c).bind (fun x _ => hrest x) (fun _ h => .inl ⟨_, _, .now, h⟩) ?_
    rintro s w x t v call stop w' _ hc ⟨hx, h | ⟨flow, u, v', hround, hflow, h | h⟩⟩
    · exact .inr ⟨t, v, .now hc hx, h⟩
    · obtain ⟨t', v'', hchecks, h⟩ := h
      exact .inl ⟨t', v'', .later hc hx hround hflow hchecks, h⟩
    · obtain ⟨t', v'', hrounds, h⟩ := h
      exact .inr ⟨t', v'', .later hc hx hround hflow hrounds, h⟩

end Parts

section Statements

variable [LawfulMonad m]

/-- A call fails in a condition of a conditional, or in the branch that is taken. -/
def CondFails (run : Runner m σ) (host : Host m) (c : Expr) (body : List Stmt)
    (alternatives : Alternatives) : Site σ := fun s w call stop w' =>
  (∃ e t v, Tests run host c alternatives s w e t v ∧
    (Work.value e).Fails run host t v call stop w') ∨
  ∃ p, Takes run host c body alternatives s w p ∧ CallFails run host p call stop w'

/-- A call fails in the alternatives of each conditional whose condition does not hold. -/
def AlternativesFail (run : Runner m σ) (host : Host m) (alternatives : Alternatives) : Site σ :=
  fun t v call stop w' => ∀ c body s w x, run.run ((read host c).value s) w = ((.ok x, t), v) →
    x.truthy = false → CondFails run host c body alternatives s w call stop w'

/-- In a block a call fails in what the block or one below it evaluates. -/
abbrev BlockEnds (run : Runner m σ) (host : Host m) (depth : Nat) (x : Step m Flow)
    (body : List Stmt) : Prop :=
  Ends run host depth x (fun s w => CallFails run host ⟨body, s, w⟩) fun _ => True

theorem branch_ends {c : Expr} {body : List Stmt} {alternatives : Alternatives} {x y : Step m Flow}
    (hx : BlockEnds run host depth x body)
    (hy : Ends run host depth y (AlternativesFail run host alternatives) fun _ => True) :
    Ends run host depth (do if (← (read host c).value).truthy then x else y)
      (CondFails run host c body alternatives) fun _ => True := by
  have hrest : ∀ v : Value, Ends run host depth (if v.truthy then x else y)
      (fun t w call stop w' => (v.truthy = true ∧ CallFails run host ⟨body, t, w⟩ call stop w') ∨
        (v.truthy = false ∧ AlternativesFail run host alternatives t w call stop w'))
      fun _ => True := by
    intro v
    split
    · rename_i hv
      exact hx.imp fun _ h => .inl ⟨hv, h⟩
    · rename_i hv
      exact hy.imp fun _ h => .inr ⟨Bool.eq_false_of_not_eq_true hv, h⟩
  refine (read_ends c).bind (fun v _ => hrest v) (fun _ h => .inl ⟨c, _, _, .now, h⟩) ?_
  rintro s w v t w' call stop w'' _ hc (⟨hv, h⟩ | ⟨hv, h⟩)
  · exact .inr ⟨_, .first hc hv, h⟩
  · exact h _ _ _ _ _ hc hv

/-- The bodies of included templates, one include deeper. -/
abbrev BodiesEnd (run : Runner m σ) (host : Host m) (depth : Nat) : Prop :=
  ∀ depth', depth = depth' + 1 → ∀ body, BlockEnds run host depth' (execBody host depth' body) body

/-- The loader itself does not end a rendering early. -/
def LoadsWithoutExit (run : Runner m σ) (host : Host m) : Prop :=
  ∀ name w output, (run.run (host.load name) w).1 ≠ .error (.earlyExit output)

/-- A call fails in the body of an included template. -/
def BodyFails (run : Runner m σ) (host : Host m) (path : Path) (body : List Stmt) : Site σ :=
  fun s w =>
  CallFails run host ⟨body, { s with frame := ⟨path, 0, s.frame.includeDepth + 1⟩ }, w⟩

omit [LawfulMonad m] in
theorem included_ends (hbodies : BodiesEnd run host (depth + 1)) (path : Path) (body : List Stmt) :
    Ends run host (depth + 1) (inTemplate path (bodies host (depth + 1) body))
      (BodyFails run host path body) fun _ => True :=
  (hbodies depth rfl body).inTemplate path

omit [LawfulMonad m] in
theorem load_ends (hload : LoadsWithoutExit run host) (name : String) :
    Ends run host depth (ExceptT.lift (StateT.lift (host.load name)) : Step m _)
      Nowhere fun loaded => ∀ output, loaded ≠ .error (.earlyExit output) := by
  intro s w r t w' _ hrun
  rw [run_lift] at hrun
  cases hrun
  exact ⟨rfl, [], rfl, .answers (List.forall_mem_nil _) (hload name w)⟩

/-- A call fails in the template that was loaded, if one was. -/
def LoadedFails (run : Runner m σ) (host : Host m)
    (loaded : Except TemplateError (Path × Program)) :
    Site σ := fun s w c stop w' =>
  ∃ path program, loaded = .ok (path, program) ∧ BodyFails run host path program.body s w c stop w'

/-- A call fails in the template that a name is loaded to. -/
def IncludeFails (run : Runner m σ) (host : Host m) (name : String) : Site σ := fun s w c stop w' =>
  ∃ path program v, s.frame.includeDepth < host.maxIncludeDepth ∧
    run.run (host.load name) w = (.ok (path, program), v) ∧
      BodyFails run host path program.body s v c stop w'

theorem include_ends (hload : LoadsWithoutExit run host) (hbodies : BodiesEnd run host depth)
    (name : String) : Ends run host depth (includeTemplate host (bodies host depth) name)
      (IncludeFails run host name) fun _ => True := by
  refine .look fun s hs => ?_
  split
  · exact .throw fun _ h => nomatch h
  rename_i hdepth
  -- this include is not too deep, so there is room for its body
  obtain ⟨depth', rfl⟩ : ∃ depth', depth = depth' + 1 := ⟨depth - 1, by rw [room] at hs; omega⟩
  refine (load_ends hload name).behind (fun loaded hloaded =>
    (?_ : Ends run host (depth' + 1) _ (LoadedFails run host loaded) _)) ?_
  · cases loaded with
    | error e => exact .throw fun output hstop => hloaded output (by cases hstop; rfl)
    | ok template =>
      obtain ⟨path, program⟩ := template
      dsimp only
      rw [discard_eq]
      have hbody := included_ends hbodies path program.body
      exact (hbody.imp fun _ h => ⟨path, program, rfl, h⟩).before fun _ _ => .pure trivial
  · rintro s w loaded t v c stop w' hroom hrun ⟨path, program, rfl, h⟩
    obtain ⟨result, v', hloaded⟩ : ∃ result v', run.run (host.load name) w = (result, v') :=
      ⟨_, _, rfl⟩
    rw [run_lift, hloaded] at hrun
    cases hrun
    refine ⟨path, program, _, ?_, hloaded, h⟩
    rw [room] at hroom
    omega

/-- What a statement fails by, whatever stands behind it. -/
abbrev StmtEnds (run : Runner m σ) (host : Host m) (depth : Nat) (x : Step m Flow) (stmt : Stmt) :
    Prop :=
  Ends run host depth x
    (fun s w c stop w' => ∀ rest, CallFails run host ⟨stmt :: rest, s, w⟩ c stop w') fun _ => True

theorem while_ends {c : Expr} {body : List Stmt}
    (hbody : BlockEnds run host depth (execBlock host (bodies host depth) body) body) :
    StmtEnds run host depth (execStmt host (bodies host depth) (.loop c body)) (.loop c body) := by
  refine Ends.before (.imp (repeatWhile_ends hbody host.maxRounds).inLoop ?_) fun _ _ =>
    .pure trivial
  rintro s w call stop w' rfl (⟨t, v, hchecks, h⟩ | ⟨t, v, hrounds, h⟩) rest
  · exact .during .refl (.loop hchecks) h
  · exact Leads.callFails (.enters (.round hrounds)) h

/-- A call fails in what a loop is over, or in a round of the loop. -/
def ForeachFails (run : Runner m σ) (host : Host m) (subject : Expr) (key : Option String)
    (value : String) (body : Step m Flow) (site : Site σ) : Site σ := fun s w c stop w' =>
  (Work.value subject).Fails run host s w c stop w' ∨
  ∃ x t v, run.run ((read host subject).value s) w = ((.ok x, t), v) ∧
    VisitsFail run key value body site (visits x) t v c stop w'

theorem foreach_ends {subject : Expr} {key : Option String} {value : String} {body : List Stmt}
    {line : Nat} (hbody : BlockEnds run host depth (execBlock host (bodies host depth) body) body) :
    StmtEnds run host depth
      (execStmt host (bodies host depth) (.foreach subject key value body line))
      (.foreach subject key value body line) := by
  have hloop : Ends run host depth (do
      let x ← (read host subject).value
      forEach key value (execBlock host (bodies host depth) body) (visits x))
      (ForeachFails run host subject key value (execBlock host (bodies host depth) body) _)
      fun _ => True :=
    (read_ends subject).bind (fun x _ => forEach_ends hbody (visits x)) (fun _ h => .inl h)
      fun _ hsubject h => .inr ⟨_, _, _, hsubject, h⟩
  refine Ends.before (hloop.inLoop.imp ?_) fun _ _ => .pure trivial
  rintro s w c stop w' rfl (h | ⟨x, t, v, hsubject, i, u, v', hvisits, h⟩) rest
  · exact .during .refl .foreach h
  · exact Leads.callFails (.enters (.visit hsubject hvisits)) h

theorem include_stmt_ends (hload : LoadsWithoutExit run host) (hbodies : BodiesEnd run host depth)
    (target : Expr) (line : Nat) :
    StmtEnds run host depth (execStmt host (bodies host depth) (.include target line))
      (.include target line) := by
  have hinclude (v : Value) : Ends run host depth (do
      includeTemplate host (bodies host depth) v.output
      return .normal : Step m Flow) (IncludeFails run host v.output) fun _ => True :=
    (include_ends hload hbodies v.output).before fun _ _ => .pure trivial
  refine (read_ends target).bind (fun v _ => hinclude v) (fun _ h rest => ?_) ?_
  · exact .during .refl .target h
  · rintro s w v t v' c stop w' - htarget ⟨path, program, u, hdepth, hloaded, h⟩ rest
    exact Leads.callFails (.includes (.template htarget hdepth hloaded)) h

end Statements

section Blocks

mutual

theorem stmt_ends [LawfulMonad m] (hload : LoadsWithoutExit run host)
    (hbodies : BodiesEnd run host depth) : ∀ stmt : Stmt,
      StmtEnds run host depth (execStmt host (bodies host depth) stmt) stmt
  | .text _ => .before (.modify (fun _ => rfl) fun _ => rfl) fun _ _ => .pure trivial
  | .echo es => by
    refine .before (.imp (echo_ends es) ?_) fun _ _ => .pure trivial
    rintro s w c stop w' _ ⟨pre, e, post, t, v, rfl, hpre, h⟩ rest
    exact .during .refl (.echo hpre) h
  | .expr e => by
    rw [execStmt, discard_eq]
    have he : Ends run host depth (do
          let _ ← (read host e).value
          return ())
        (fun s w c stop w' => ∀ rest, CallFails run host ⟨.expr e :: rest, s, w⟩ c stop w')
        fun _ => True :=
      .before ((read_ends e).imp fun _ h _ => .during .refl .expr h) fun _ _ => .pure trivial
    exact he.before fun _ _ => .pure trivial
  | .unset targets => by
    refine .before (.imp (unsetAll_ends targets) ?_) fun _ _ => .pure trivial
    rintro s w c stop w' _ ⟨pre, e, post, t, v, rfl, hpre, h⟩ rest
    exact .during .refl (.unset hpre) h
  | .cond c body alternatives => by
    refine (branch_ends (c := c) (block_ends hload hbodies body)
      (alternatives_ends hload hbodies alternatives)).imp ?_
    rintro s w call stop w' _ (⟨e, t, v, htests, h⟩ | ⟨p, htakes, h⟩) rest
    · exact .during .refl (.cond htests) h
    · exact Leads.callFails (.passes (.branch htakes)) h
  | .loop c body => while_ends (block_ends hload hbodies body)
  | .foreach subject key value body line => foreach_ends (block_ends hload hbodies body)
  | .break line => leave_ends _ _ _
  | .continue line => leave_ends _ _ _
  | .include target line => include_stmt_ends hload hbodies target line

theorem alternatives_ends [LawfulMonad m] (hload : LoadsWithoutExit run host)
    (hbodies : BodiesEnd run host depth) : ∀ alternatives : Alternatives,
      Ends run host depth (execAlternatives host (bodies host depth) alternatives)
        (AlternativesFail run host alternatives) fun _ => True
  | .none => .pure trivial
  | .otherwise body => (block_ends hload hbodies body).imp fun _ h _ _ _ _ _ hc hx =>
    .inr ⟨_, .otherwise hc hx, h⟩
  | .elseIf c body alternatives => by
    refine (branch_ends (c := c) (block_ends hload hbodies body)
      (alternatives_ends hload hbodies alternatives)).imp ?_
    rintro s w call stop w' _ (⟨e, t, v, htests, h⟩ | ⟨p, htakes, h⟩) c' body' s' w'' x hc hx
    · exact .inl ⟨e, t, v, .later hc hx htests, h⟩
    · exact .inr ⟨p, .elseIf hc hx htakes, h⟩

theorem block_ends [LawfulMonad m] (hload : LoadsWithoutExit run host)
    (hbodies : BodiesEnd run host depth) : ∀ body : List Stmt,
      BlockEnds run host depth (execBlock host (bodies host depth) body) body
  | [] => .pure trivial
  | stmt :: rest => by
    have hrest : ∀ flow : Flow, Ends run host depth (match flow with
        | .normal => execBlock host (bodies host depth) rest
        | flow => pure flow)
        (fun t v c stop w' => flow = .normal ∧ CallFails run host ⟨rest, t, v⟩ c stop w')
        fun _ => True := by
      intro flow
      cases flow with
      | normal => exact (block_ends hload hbodies rest).imp fun _ h => ⟨rfl, h⟩
      | «break» => exact .pure trivial
      | «continue» => exact .pure trivial
    refine (stmt_ends hload hbodies stmt).bind (fun flow _ => hrest flow) (fun _ h => h rest) ?_
    rintro s w flow t v c stop w' rfl hstmt ⟨rfl, h⟩
    exact Leads.callFails (.passes (.next hstmt)) h

end

end Blocks

section Renderings

variable [LawfulMonad m]

theorem body_ends (hload : LoadsWithoutExit run host) (depth : Nat) :
    ∀ body, BlockEnds run host depth (execBody host depth body) body := by
  -- a template may include itself, so the induction is on the room for includes and not on programs
  induction depth with
  | zero =>
    intro body
    rw [execBody_eq]
    exact block_ends hload (fun _ h => absurd h (Nat.zero_ne_add_one _)) body
  | succ depth ih =>
    intro body
    rw [execBody_eq]
    refine block_ends hload (fun depth' h => ?_) body
    cases h
    exact ih

theorem CallFails.runsIn {p : Point σ} {c : Call} {stop : Stop} {w : σ}
    (h : CallFails run host p c stop w) : ∃ executed q work s v, RunsIn run host p executed q ∧
      Begins run host q work s v ∧ work.Fails run host s v c stop w ∧
        answer executed c.name c.result = .error stop := by
  obtain ⟨hreaches, hbegins, hfails⟩ := h
  have hanswer := hfails.answer
  rw [hbegins.path] at hanswer
  exact ⟨_, _, _, _, _, hreaches.runsIn, hbegins, hfails, hanswer⟩

variable {scope : Entries Value} {program : Program} {path : Path} {w w' : σ} {outcome : Outcome}

/-- The calls of a rendering in order, and how they end it. -/
theorem execute_ended (hload : LoadsWithoutExit run host)
    (h : run.run (execute host scope program path) w = (outcome, w')) :
    Ended (fun _ => True) (fun c stop =>
      CallFails run host ⟨program.body, ⟨scope, "", ⟨path, 0, 0⟩, []⟩, w⟩ c stop w')
      outcome.calls.reverse outcome.result := by
  let start : State := ⟨scope, "", ⟨path, 0, 0⟩, []⟩
  obtain ⟨r, t, v, hbody⟩ :
      ∃ r t v, Point.outcome run host ⟨program.body, start, w⟩ = ((r, t), v) :=
    ⟨_, _, _, rfl⟩
  rw [run_execute, hbody] at h
  cases h
  rw [Point.outcome, blockStep, ← execBody_eq] at hbody
  obtain ⟨-, added, hcalls, hended⟩ := body_ends hload _ program.body rfl hbody
  obtain rfl : t.calls = added := hcalls.trans (List.append_nil added)
  rw [List.reverse_reverse]
  exact hended.map _

/-- A call that fails is the last one of a rendering, wherever it stands: the rendering stops where
the call is evaluated. It ends early exactly by an exit of that call, and if the call failed it
fails in the template that was being executed. -/
theorem execute_ends_with_failing_call (run : Runner m σ) (host : Host m)
    (hload : LoadsWithoutExit run host)
    (h : run.run (execute host scope program path) w = (outcome, w')) :
    (∀ output, outcome.result = .error (.failed (.earlyExit output)) ↔
      ∃ c, outcome.calls.getLast? = some c ∧ c.result = .error (.exit output)) ∧
    (∀ c ∈ outcome.calls.dropLast, c.Succeeds) ∧
    ∀ c e, outcome.calls.getLast? = some c → c.result = .error e → ∃ executed q work s v stop,
      RunsIn run host ⟨program.body, ⟨scope, "", ⟨path, 0, 0⟩, []⟩, w⟩ executed q ∧
        Begins run host q work s v ∧ work.Fails run host s v c stop w' ∧
          outcome.result = .error stop ∧ ∀ message, e = .failed message →
            stop = .failed (.render executed (.function c.name message)) ∧
              (RenderFault.function c.name message).message = c.name ++ "(): " ++ message := by
  have hended := execute_ended hload h
  -- The log has the latest call first, the outcome has it last.
  have hlast : outcome.calls.reverse.head? = outcome.calls.getLast? := List.head?_reverse
  refine ⟨fun output => ⟨fun hexit => ?_, ?_⟩, fun c hc => ?_, fun c e hc he => ?_⟩
  · obtain ⟨c, hc, hfails⟩ := hended.of_exit hexit
    obtain ⟨_, _, _, _, _, _, _, _, hanswer⟩ := hfails.runsIn
    exact ⟨c, hlast.symm.trans hc, answer_eq_exit.mp hanswer⟩
  · rintro ⟨c, hc, hexit⟩
    obtain ⟨stop, hstop, hfails⟩ := hended.of_head? (hlast.trans hc) (Call.not_succeeds hexit)
    obtain ⟨_, _, _, _, _, _, _, _, hanswer⟩ := hfails.runsIn
    rw [hexit] at hanswer
    cases hanswer
    exact hstop
  · refine hended.tail_succeeds c ?_
    rw [List.tail_reverse]
    exact List.mem_reverse.mpr hc
  · obtain ⟨stop, hstop, hfails⟩ := hended.of_head? (hlast.trans hc) (Call.not_succeeds he)
    obtain ⟨executed, q, work, s, v, hin, hbegins, hwork, hanswer⟩ := hfails.runsIn
    refine ⟨executed, q, work, s, v, stop, hin, hbegins, hwork, hstop, fun message hmessage => ?_⟩
    rw [he, hmessage] at hanswer
    cases hanswer
    exact ⟨rfl, rfl⟩

/-- A template that is included in a loop asks in `isset` for an element whose key is a failing
call. -/
theorem execute_ends_with_failing_call_of_isset :
    let run := Runner.ofState Nat
    let part : Program :=
      ⟨[.echo [.call "isset" [.index (.var "x") (.call "check" [])]], .expr (.call "pass" [])]⟩
    let host : Host (StateM Nat) :=
      { functions := [("check", fun _ => .error (.failed "no")), ("pass", fun _ => .ok .null)]
        load := fun _ n => (.ok (⟨"part"⟩, part), n + 1)
        strict := true
        maxIncludeDepth := 1
        maxRounds := 0 }
    let page : Program :=
      ⟨[.expr (.call "pass" []), .foreach (.array [.value (.literal .null)]) none "x"
      [.include (.literal (.string "part")) 1] 1]⟩
    let stop : Stop := .failed (.render ⟨"part"⟩ (.function "check" "no"))
    let calls : List Call := [⟨"pass", [], .ok .null⟩, ⟨"check", [], .error (.failed "no")⟩]
    LoadsWithoutExit run host ∧
      run.run (execute host [] page ⟨"page"⟩) 0 = (⟨.error stop, calls⟩, 1) ∧
      ∃ q work s v, RunsIn run host ⟨page.body, ⟨[], "", ⟨⟨"page"⟩, 0, 0⟩, []⟩, 0⟩ ⟨"part"⟩ q ∧
        Begins run host q work s v ∧
          work.Fails run host s v ⟨"check", [], .error (.failed "no")⟩ stop 1 := by
  intro run part host page stop calls
  have hload : LoadsWithoutExit run host := fun _ _ _ => nofun
  have h : run.run (execute host [] page ⟨"page"⟩) 0 = (⟨.error stop, calls⟩, 1) := by rfl
  obtain ⟨-, -, hlast⟩ := execute_ends_with_failing_call run host hload h
  obtain ⟨executed, q, work, s, v, stop', hin, hbegins, hfails, hstop, hmessage⟩ :=
    hlast ⟨"check", [], .error (.failed "no")⟩ (.failed "no") rfl rfl
  obtain rfl : stop = stop' := Except.error.inj hstop
  obtain ⟨hrender, -⟩ := hmessage "no" rfl
  obtain rfl : ⟨"part"⟩ = executed := by
    injection hrender with hrender
    injection hrender
  exact ⟨hload, h, q, work, s, v, hin, hbegins, hfails⟩

end Renderings

end ViewTemplate.Run
