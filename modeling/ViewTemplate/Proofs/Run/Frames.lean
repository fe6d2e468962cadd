import ViewTemplate.Proofs.Run.Points

namespace ViewTemplate.Run

open Code

variable {m : Type → Type} [Monad m] {σ α β : Type} {run : Runner m σ} {host : Host m}
  {s t u : State} {w w' v : σ}

section Kept

/-- A step that ends in the frame in which it began. -/
def KeepsFrame (run : Runner m σ) (x : Step m α) : Prop :=
  ∀ s w, (run.run (x s) w).1.2.frame = s.frame

namespace KeepsFrame

variable {x : Step m α}

theorem eq (h : KeepsFrame run x) {r : Except Stop α} (hrun : run.run (x s) w = ((r, t), w')) :
    t.frame = s.frame := by
  rw [← h s w, hrun]

theorem room (h : KeepsFrame run x) {r : Except Stop α} (hrun : run.run (x s) w = ((r, t), w')) :
    room host t = room host s :=
  room_eq (congrArg Frame.includeDepth (h.eq hrun))

theorem of_run (h : ∀ s w, ∃ r t w', run.run (x s) w = ((r, t), w') ∧ t.frame = s.frame) :
    KeepsFrame run x := by
  intro s w
  obtain ⟨r, t, w', hrun, hframe⟩ := h s w
  rw [hrun, hframe]

theorem pure (a : α) : KeepsFrame run (pure a : Step m α) :=
  .of_run fun s w => ⟨_, _, _, run_pure_ok run a s w, rfl⟩

theorem throw (e : Stop) : KeepsFrame run (throw e : Step m α) :=
  .of_run fun _ w => ⟨_, _, w, run.run_pure _ w, rfl⟩

theorem bind {f : α → Step m β} (h : KeepsFrame run x) (hf : ∀ a, KeepsFrame run (f a)) :
    KeepsFrame run (x >>= f) := by
  intro s w
  obtain ⟨r, t, w', hx⟩ : ∃ r t w', run.run (x s) w = ((r, t), w') := ⟨_, _, _, rfl⟩
  cases r with
  | error e =>
    rw [run_bind_of_error run hx]
    exact h.eq hx
  | ok a =>
    rw [run_bind_of_ok run hx]
    exact (hf a t w').trans (h.eq hx)

theorem modify {f : State → State} (hf : ∀ s, (f s).frame = s.frame) :
    KeepsFrame run (modify f : Step m Unit) :=
  .of_run fun s w => ⟨_, _, _, run_modify run f s w, hf s⟩

/-- Coming back undoes the entering, once the step inside has come back to where it was entered. -/
theorem within {enter : Frame → Frame} {back : Frame → Frame → Frame} (h : KeepsFrame run x)
    (hback : ∀ f, back f (enter f) = f) : KeepsFrame run (within enter back x) := by
  intro s w
  have hinside := h { s with frame := enter s.frame } w
  rw [run_within]
  show back s.frame (run.run (x { s with frame := enter s.frame }) w).1.2.frame = s.frame
  rw [hinside]
  exact hback s.frame

theorem inLoop (h : KeepsFrame run x) : KeepsFrame run (inLoop x) :=
  h.within fun _ => rfl

theorem inTemplate (h : KeepsFrame run x) (path : Path) : KeepsFrame run (inTemplate path x) :=
  h.within fun _ => rfl

end KeepsFrame

theorem Confined.keepsFrame {W : String → Prop} {x : Step m α} {post : α → Prop}
    (h : Confined W x post) : KeepsFrame run x := by
  intro s w
  obtain ⟨r, scope, added, -, -, hx⟩ := h s
  have hs : x s = Pure.pure (r, { s with scope, calls := added ++ s.calls }) := hx s.calls
  rw [hs, run.run_pure]

theorem Rounds.frame {c : Step m Value} {body : Step m Flow} (hc : KeepsFrame run c)
    (hbody : KeepsFrame run body) {n : Nat} (h : Rounds run c body n s w t w') :
    t.frame = s.frame := by
  induction h with
  | now h _ => exact hc.eq h
  | later h _ hb _ _ ih => exact ih.trans ((hbody.eq hb).trans (hc.eq h))

theorem Visits.frame {key : Option String} {value : String} {body : Step m Flow}
    (hbody : KeepsFrame run body) {entries : List (Value × Value)} {i : Nat}
    (h : Visits run key value body entries s w i t w') : t.frame = s.frame := by
  induction h with
  | now => rfl
  | later hb _ _ ih =>
    have hframe := hbody.eq hb
    exact ih.trans hframe

variable [LawfulMonad m]

theorem KeepsFrame.map {x : Step m α} (f : α → β) (h : KeepsFrame run x) :
    KeepsFrame run (f <$> x) := by
  rw [map_eq_pure_bind]
  exact h.bind fun _ => .pure _

theorem include_keepsFrame {runBody : List Stmt → Step m Flow}
    (hbody : ∀ body, KeepsFrame run (runBody body)) (name : String) :
    KeepsFrame run (includeTemplate host runBody name) := by
  refine .bind (.of_run fun _ w => ⟨_, _, w, get_ok run, rfl⟩) fun s => ?_
  split
  · exact .throw _
  · refine .bind (.of_run fun s w => ⟨_, _, _, run_lift run _ s w, rfl⟩) fun loaded => ?_
    cases loaded with
    | error e => exact .throw _
    | ok template => exact .map _ ((hbody _).inTemplate _)

variable (host) in
/-- Every construct of a program keeps its frame. -/
theorem keepsFrame_congruence : Congruence host host fun x y => x = y ∧ KeepsFrame run x where
  pure a := ⟨rfl, .pure a⟩
  bind := by
    rintro _ _ x _ f g ⟨rfl, hx⟩ hf
    obtain rfl : f = g := funext fun a => (hf a).1
    exact ⟨rfl, hx.bind fun a => (hf a).2⟩
  map := by
    rintro _ _ x _ f ⟨rfl, hx⟩
    exact ⟨rfl, hx.map f⟩
  throw e := ⟨rfl, .throw e⟩
  get := ⟨rfl, .of_run fun _ w => ⟨_, _, w, get_ok run, rfl⟩⟩
  write _ := ⟨rfl, .modify fun _ => rfl⟩
  assignVariable _ _ := ⟨rfl, .modify fun _ => rfl⟩
  unset p := ⟨rfl, .modify fun s => by
    split
    · rfl
    · split <;> rfl⟩
  missing fault :=
    ⟨rfl, (Evaluates.missing (evaluates_confined (W := fun _ => True)) fault).keepsFrame⟩
  callFunction name args := ⟨rfl, (Confined.callFunction (W := fun _ => True) name args).keepsFrame⟩
  inLoop := by
    rintro _ x _ ⟨rfl, hx⟩
    exact ⟨rfl, hx.inLoop⟩
  includeTemplate := by
    intro runBody runBody' hbody name
    obtain rfl : runBody = runBody' := funext fun body => (hbody body).1
    exact ⟨rfl, include_keepsFrame (fun body => (hbody body).2) name⟩
  maxRounds := .inl rfl

theorem bodies_keepsFrame (depth : Nat) (body : List Stmt) :
    KeepsFrame run (bodies host depth body) := by
  cases depth with
  | zero => exact .throw _
  | succ depth => exact ((keepsFrame_congruence host).execBody (.inl rfl) body).2

theorem read_keepsFrame (e : Expr) : KeepsFrame run (read host e).value :=
  ((keepsFrame_congruence host).read e).value.2

theorem stmt_keepsFrame (depth : Nat) (stmt : Stmt) :
    KeepsFrame run (execStmt host (bodies host depth) stmt) :=
  ((keepsFrame_congruence host).execStmt (fun body => ⟨rfl, bodies_keepsFrame _ body⟩) stmt).2

theorem block_keepsFrame (depth : Nat) (body : List Stmt) :
    KeepsFrame run (execBlock host (bodies host depth) body) :=
  ((keepsFrame_congruence host).execBlock (fun body => ⟨rfl, bodies_keepsFrame _ body⟩) body).2

/-- The rounds of a loop end one loop deeper than the statement, where they began. -/
theorem repeatWhile_keepsFrame (s : State) (c : Expr) (body : List Stmt) (rounds : Nat) :
    KeepsFrame run (repeatWhile (read host c).value (blockStep host s body) rounds) :=
  ((keepsFrame_congruence host).repeatWhile ⟨rfl, read_keepsFrame c⟩ ⟨rfl, block_keepsFrame _ body⟩
    (.inl rfl)).2

theorem forEach_keepsFrame (s : State) (key : Option String) (value : String) (body : List Stmt)
    (entries : List (Value × Value)) :
    KeepsFrame run (forEach key value (blockStep host s body) entries) :=
  ((keepsFrame_congruence host).forEach key value ⟨rfl, block_keepsFrame _ body⟩ entries).2

theorem visits_keepsFrame (s : State) (subject : Expr) (key : Option String) (value : String)
    (body : List Stmt) :
    KeepsFrame run ((read host subject).value >>= fun v =>
      forEach key value (blockStep host s body) (visits v)) :=
  (read_keepsFrame subject).bind fun v => forEach_keepsFrame s key value body (visits v)

theorem Takes.frame {c : Expr} {body : List Stmt} {rest : Alternatives} {p : Point σ}
    (h : Takes run host c body rest s w p) : p.state.frame = s.frame := by
  induction h with
  | first h _ => exact (read_keepsFrame _).eq h
  | otherwise h _ => exact (read_keepsFrame _).eq h
  | elseIf h _ _ ih => exact ih.trans ((read_keepsFrame _).eq h)

theorem Passes.frame {p q : Point σ} (h : Passes run host p q) : q.state.frame = p.state.frame := by
  cases h with
  | next h => exact (stmt_keepsFrame _ _).eq h
  | branch h => exact h.frame

theorem PassesTo.frame {p q : Point σ} (h : PassesTo run host p q) :
    q.state.frame = p.state.frame := by
  induction h with
  | refl => rfl
  | tail _ hstep ih => exact hstep.frame.trans ih

theorem Enters.frame {p q : Point σ} (h : Enters run host p q) :
    q.state.frame = p.state.deeper.frame := by
  cases h with
  | round h => exact h.frame (read_keepsFrame _) (block_keepsFrame _ _)
  | visit hsubject h =>
    exact (h.frame (block_keepsFrame _ _)).trans ((read_keepsFrame _).eq hsubject)

theorem Enters.room {p q : Point σ} (h : Enters run host p q) :
    room host q.state = room host p.state :=
  room_eq (State.includeDepth_of_deeper h.frame)

theorem Includes.frame {p q : Point σ} {path : Path} (h : Includes run host p path q) :
    q.state.frame = ⟨path, 0, p.state.frame.includeDepth + 1⟩ ∧
      p.state.frame.includeDepth < host.maxIncludeDepth := by
  cases h with
  | template htarget hdepth =>
    have hframe := (read_keepsFrame _).eq htarget
    rw [hframe] at hdepth
    exact ⟨by rw [hframe], hdepth⟩

theorem Reaches.includeDepth_le {p q : Point σ} (h : Reaches run host p q)
    (hp : p.state.frame.includeDepth ≤ host.maxIncludeDepth) :
    q.state.frame.includeDepth ≤ host.maxIncludeDepth := by
  induction h with
  | refl => exact hp
  | tail _ hstep ih =>
    cases hstep with
    | passes h =>
      rw [h.frame]
      exact ih
    | enters h =>
      rw [h.frame]
      exact ih
    | includes h =>
      rw [h.frame.1]
      exact h.frame.2

end Kept

section Flow

theorem ends_normally {x : Step m α} {flow : Flow}
    (h : run.run ((x >>= fun _ => pure .normal : Step m Flow) s) w = ((.ok flow, t), w')) :
    flow = .normal := by
  obtain ⟨_, _, _, -, hend⟩ := (bind_ok_iff run).mp h
  rw [run_pure_ok] at hend
  cases hend
  rfl

/-- A step that outside of loops does not end by leaving one. -/
def Stays (run : Runner m σ) (x : Step m Flow) : Prop :=
  ∀ ⦃s w flow t w'⦄, s.frame.loopDepth = 0 → run.run (x s) w = ((.ok flow, t), w') → flow = .normal

namespace Stays

variable {x : Step m α}

theorem pure : Stays run (pure .normal : Step m Flow) := by
  intro s w flow t w' _ h
  rw [run_pure_ok] at h
  cases h
  rfl

theorem bind {f : α → Step m Flow} (h : KeepsFrame run x) (hf : ∀ a, Stays run (f a)) :
    Stays run (x >>= f) := by
  intro s w flow t w' hdepth hrun
  obtain ⟨a, u, v, hx, hb⟩ := (bind_ok_iff run).mp hrun
  exact hf a ((h.eq hx).symm ▸ hdepth) hb

theorem branch {c : Step m Value} {y z : Step m Flow} (hc : KeepsFrame run c) (hy : Stays run y)
    (hz : Stays run z) : Stays run (do if (← c).truthy then y else z) := by
  refine .bind hc fun v => ?_
  split
  · exact hy
  · exact hz

theorem sequence {y z : Step m Flow} (hkept : KeepsFrame run y) (hy : Stays run y)
    (hz : Stays run z) :
    Stays run (do
      match ← y with
      | .normal => z
      | flow => return flow) := by
  intro s w flow t w' hdepth hrun
  obtain ⟨first, u, v, hfirst, hrest⟩ := (bind_ok_iff run).mp hrun
  obtain rfl := hy hdepth hfirst
  exact hz ((hkept.eq hfirst).symm ▸ hdepth) hrest

theorem after (x : Step m α) : Stays run (x >>= fun _ => Pure.pure .normal) :=
  fun _ _ _ _ _ _ => ends_normally

theorem leave (flow : Flow) (keyword : String) (line : Nat) :
    Stays run (leave flow keyword line : Step m Flow) := by
  intro s w flow t w' hdepth hrun
  obtain ⟨u, v, _, hget, hrest⟩ := (bind_ok_iff run).mp hrun
  rw [get_ok] at hget
  cases hget
  rw [if_pos hdepth] at hrest
  obtain ⟨_, _, _, -, hthrow⟩ := (bind_ok_iff run).mp hrest
  exact absurd hthrow (throw_not_ok run)

end Stays

variable [LawfulMonad m] {depth : Nat}

mutual

theorem stmt_stays : ∀ stmt : Stmt, Stays run (execStmt host (bodies host depth) stmt)
  | .text _ | .echo _ | .expr _ | .unset _ | .loop .. | .foreach .. => .after _
  | .cond _ body rest => .branch (read_keepsFrame _) (block_stays body) (alternatives_stays rest)
  | .break _ | .continue _ => .leave _ _ _
  | .include .. => .bind (read_keepsFrame _) fun _ => .after _

theorem alternatives_stays : ∀ rest : Alternatives,
    Stays run (execAlternatives host (bodies host depth) rest)
  | .none => .pure
  | .otherwise body => block_stays body
  | .elseIf _ body rest => .branch (read_keepsFrame _) (block_stays body) (alternatives_stays rest)

theorem block_stays : ∀ body : List Stmt, Stays run (execBlock host (bodies host depth) body)
  | [] => .pure
  | stmt :: rest => .sequence (stmt_keepsFrame depth stmt) (stmt_stays stmt) (block_stays rest)

end

end Flow

section Failure

variable {e : Stop} {r : Except Stop Flow}

theorem Takes.run_eq {c : Expr} {body : List Stmt} {rest : Alternatives} {p : Point σ}
    (h : Takes run host c body rest s w p) (runBody : List Stmt → Step m Flow) :
    run.run (execStmt host runBody (.cond c body rest) s) w =
      run.run (execBlock host runBody p.body p.state) p.world := by
  induction h with
  | first h hv =>
    refine (run_bind_of_ok run h).trans ?_
    rw [hv]
    rfl
  | otherwise h hv =>
    refine (run_bind_of_ok run h).trans ?_
    rw [hv]
    rfl
  | elseIf h hv _ ih =>
    refine (run_bind_of_ok run h).trans ?_
    rw [hv]
    exact ih

/-- A round that fails or breaks ends its loop. -/
theorem Rounds.ends {c : Step m Value} {body : Step m Flow} {n : Nat}
    (h : Rounds run c body n s w t w') (hbody : run.run (body t) w' = ((r, u), v))
    (hr : ∀ flow, r = .ok flow → flow = .break) :
    run.run (repeatWhile c body n s) w = ((r.map fun _ => (), u), v) := by
  induction h with
  | now h hv =>
    refine (run_bind_of_ok run h).trans ?_
    rw [if_pos hv]
    cases r with
    | error e => exact run_bind_of_error run hbody
    | ok flow =>
      obtain rfl := hr flow rfl
      exact (run_bind_of_ok run hbody).trans (run_pure_ok run _ _ _)
  | @later _ _ _ _ _ _ _ _ _ _ flow h hv hround hflow _ ih =>
    refine (run_bind_of_ok run h).trans ?_
    rw [if_pos hv, run_bind_of_ok run hround]
    cases flow with
    | «break» => exact absurd rfl hflow
    | normal => exact ih hbody
    | «continue» => exact ih hbody

theorem run_forEach_cons (key : Option String) (value : String) (body : Step m Flow)
    (entry : Value × Value) (rest : List (Value × Value)) (s : State) (w : σ) :
    run.run (forEach key value body (entry :: rest) s) w =
      run.run ((body >>= fun flow => match flow with
        | .break => pure ()
        | .normal | .continue => forEach key value body rest) (s.visiting key value entry)) w := by
  obtain ⟨k, x⟩ := entry
  cases key with
  | none => exact run_bind_of_ok run (run_modify run _ s w)
  | some name =>
    exact (run_bind_of_ok run (run_modify run _ s w)).trans
      (run_bind_of_ok run (run_modify run _ _ w))

theorem Visits.ends {key : Option String} {value : String} {body : Step m Flow}
    {entries : List (Value × Value)} {i : Nat} (h : Visits run key value body entries s w i t w')
    (hbody : run.run (body t) w' = ((r, u), v)) (hr : ∀ flow, r = .ok flow → flow = .break) :
    run.run (forEach key value body entries s) w = ((r.map fun _ => (), u), v) := by
  induction h with
  | now =>
    rw [run_forEach_cons]
    cases r with
    | error e => exact run_bind_of_error run hbody
    | ok flow =>
      obtain rfl := hr flow rfl
      exact (run_bind_of_ok run hbody).trans (run_pure_ok run _ _ _)
  | @later _ _ _ _ _ _ _ _ flow _ hround hflow _ ih =>
    rw [run_forEach_cons, run_bind_of_ok run hround]
    cases flow with
    | «break» => exact absurd rfl hflow
    | normal => exact ih hbody
    | «continue» => exact ih hbody

theorem run_inLoop {x : Step m α} {r : Except Stop α} (hx : KeepsFrame run x)
    (h : run.run (x s.deeper) w = ((r, t), w')) :
    run.run (inLoop x s) w = ((r, { t with frame := s.frame }), w') := by
  have hdeeper :
    run.run (x { s with frame := { s.frame with loopDepth := s.frame.loopDepth + 1 } }) w =
      ((r, t), w') := h
  have hframe : t.frame = { s.frame with loopDepth := s.frame.loopDepth + 1 } := hx.eq hdeeper
  rw [inLoop, run_within, hdeeper]
  dsimp only
  rw [hframe]
  rfl

theorem outcome_cons_error {stmt : Stmt} {rest : List Stmt}
    (h : run.run (stmtStep host s stmt s) w = ((.error e, t), w')) :
    Point.outcome run host ⟨stmt :: rest, s, w⟩ = ((.error e, t), w') :=
  run_bind_of_error run h

variable [LawfulMonad m]

theorem outcome_cons_ok {stmt : Stmt} {rest : List Stmt}
    (h : run.run (stmtStep host s stmt s) w = ((.ok .normal, t), w')) :
    Point.outcome run host ⟨stmt :: rest, s, w⟩ = Point.outcome run host ⟨rest, t, w'⟩ := by
  have hframe := (stmt_keepsFrame _ _).eq h
  have hrest := Point.outcome_eq (p := ⟨rest, t, w'⟩) run host (congrArg Frame.includeDepth hframe)
  exact (run_bind_of_ok run h).trans hrest.symm

theorem run_include {name : String} {path : Path} {program : Program} {r : Except Stop Flow}
    (hdepth : s.frame.includeDepth < host.maxIncludeDepth)
    (hload : run.run (host.load name) w = (.ok (path, program), w'))
    (hbody : Point.outcome run host
      ⟨program.body, { s with frame := ⟨path, 0, s.frame.includeDepth + 1⟩ }, w'⟩ = ((r, t), v)) :
    run.run (includeTemplate host (bodies host (room host s)) name s) w =
      ((r.map fun _ => (), { t with frame := s.frame }), v) := by
  have hroom : room host s =
      room host { s with frame := ⟨path, 0, s.frame.includeDepth + 1⟩ } + 1 := by
    simp only [room]
    omega
  have hframe : t.frame = ⟨path, 0, s.frame.includeDepth + 1⟩ := (block_keepsFrame _ _).eq hbody
  have hinside : run.run (inTemplate path (bodies host (room host s) program.body) s) w' =
      ((r, { t with frame := s.frame }), v) := by
    rw [Point.outcome, blockStep, ← execBody_eq] at hbody
    rw [inTemplate, run_within, hroom, bodies, hbody]
    dsimp only
    rw [hframe]
    rfl
  refine (run_bind_of_ok run (get_ok run)).trans ?_
  rw [if_neg (Nat.not_le.mpr hdepth)]
  refine (run_bind_of_ok run (run_lift run _ s w)).trans ?_
  rw [hload]
  dsimp only
  rw [discard_eq]
  cases r with
  | error e => exact run_bind_of_error run hinside
  | ok flow => exact (run_bind_of_ok run hinside).trans (run_pure_ok run _ _ _)

/-- A failure in a block that is reached is one of the block from which it is reached. -/
theorem Passes.error {p q : Point σ} (h : Passes run host p q)
    (hq : q.outcome run host = ((.error e, t), w')) :
    ∃ u, p.outcome run host = ((.error e, u), w') := by
  cases h with
  | next h => exact ⟨t, (outcome_cons_ok h).trans hq⟩
  | @branch c body rest more s w q h =>
    rw [Point.outcome_eq (s := s) run host (congrArg Frame.includeDepth h.frame)] at hq
    exact ⟨t, outcome_cons_error ((h.run_eq _).trans hq)⟩

theorem Enters.error {p q : Point σ} (h : Enters run host p q)
    (hq : q.outcome run host = ((.error e, t), w')) :
    ∃ u, p.outcome run host = ((.error e, u), w') := by
  cases h with
  | @round c body rest s _ _ _ h =>
    have hframe := h.frame (read_keepsFrame _) (block_keepsFrame _ _)
    rw [Point.outcome_eq (s := s) run host (State.includeDepth_of_deeper hframe)] at hq
    have hloop := run_inLoop (repeatWhile_keepsFrame _ _ _ _) (h.ends hq nofun)
    exact ⟨_, outcome_cons_error (run_bind_of_error run hloop)⟩
  | @visit subject key value body rest line i s _ _ _ _ _ v hsubject h =>
    have hframe := (h.frame (block_keepsFrame _ _)).trans ((read_keepsFrame _).eq hsubject)
    rw [Point.outcome_eq (s := s) run host (State.includeDepth_of_deeper hframe)] at hq
    have hloop := run_inLoop (visits_keepsFrame s subject key value body)
      ((run_bind_of_ok run hsubject).trans (h.ends hq nofun))
    exact ⟨_, outcome_cons_error (run_bind_of_error run hloop)⟩

theorem Includes.error {p q : Point σ} {path : Path} (h : Includes run host p path q)
    (hq : q.outcome run host = ((.error e, t), w')) :
    ∃ u, p.outcome run host = ((.error e, u), w') := by
  cases h with
  | @template target line rest s u _ _ _ v path program htarget hdepth hload =>
    have hinclude := run_include hdepth hload hq
    rw [(read_keepsFrame _).room htarget] at hinclude
    refine ⟨{ t with frame := u.frame }, outcome_cons_error ?_⟩
    exact (run_bind_of_ok run htarget).trans (run_bind_of_error run hinclude)

theorem Leads.error {p q : Point σ} (h : Leads run host p q)
    (hq : q.outcome run host = ((.error e, t), w')) :
    ∃ u, p.outcome run host = ((.error e, u), w') := by
  cases h with
  | passes h => exact h.error hq
  | enters h => exact h.error hq
  | includes h => exact h.error hq

theorem Reaches.error {p q : Point σ} (h : Reaches run host p q)
    (hq : q.outcome run host = ((.error e, t), w')) :
    ∃ u, p.outcome run host = ((.error e, u), w') := by
  induction h generalizing t with
  | refl => exact ⟨t, hq⟩
  | tail _ hstep ih =>
    obtain ⟨u, hu⟩ := hstep.error hq
    exact ih hu

end Failure

section Whole

variable [LawfulMonad m]

theorem passes_of_ok {post : List Stmt} :
    ∀ {pre : List Stmt} {s t : State} {w w' : σ} {flow : Flow},
    s.frame.loopDepth = 0 → Point.outcome run host ⟨pre ++ post, s, w⟩ = ((.ok flow, t), w') →
      ∃ u v, PassesTo run host ⟨pre ++ post, s, w⟩ ⟨post, u, v⟩
  | [], s, _, w, _, _, _, _ => ⟨s, w, .refl⟩
  | stmt :: pre, s, t, w, w', flow, hdepth, h => by
    obtain ⟨first, u, v, hfirst, -⟩ := (bind_ok_iff run).mp h
    obtain rfl := stmt_stays stmt hdepth hfirst
    have hframe := (stmt_keepsFrame _ _).eq hfirst
    have hrest := (outcome_cons_ok hfirst).symm.trans h
    obtain ⟨u', v', hpasses⟩ := passes_of_ok (hframe ▸ hdepth) hrest
    exact ⟨u', v', .head (.next hfirst) hpasses⟩

end Whole

/-- The keyword and the line of a statement that leaves a loop or its round. -/
def leaves? : Stmt → Option (String × Nat)
  | .break line => some ("break", line)
  | .continue line => some ("continue", line)
  | _ => none

theorem outcome_of_leaves {p : Point σ} {stmt : Stmt} {rest : List Stmt} {keyword : String}
    {line : Nat} (hdepth : p.state.frame.loopDepth = 0) (hbody : p.body = stmt :: rest)
    (hleaves : leaves? stmt = some (keyword, line)) :
    p.outcome run host =
      ((.error (.failed (.render p.state.frame.path (.outsideLoop keyword line))), p.state),
        p.world) := by
  obtain ⟨body, s, w⟩ := p
  obtain rfl : body = stmt :: rest := hbody
  have hfail {flow : Flow} : run.run ((leave flow keyword line : Step m Flow) s) w =
      ((.error (.failed (.render s.frame.path (.outsideLoop keyword line))), s), w) := by
    refine (run_bind_of_ok run (get_ok run)).trans ?_
    rw [if_pos hdepth]
    exact (run_bind_of_ok run (get_ok run)).trans (run.run_pure _ w)
  cases stmt with
  | «break» =>
    cases hleaves
    exact outcome_cons_error hfail
  | «continue» =>
    cases hleaves
    exact outcome_cons_error hfail
  | _ => cases hleaves

/-- How the run of a block keeps to the frame in which it begins. -/
structure Point.Framed (run : Runner m σ) (host : Host m) (p : Point σ) : Prop where
  frame : (p.outcome run host).1.2.frame = p.state.frame
  includeDepth : p.state.frame.includeDepth ≤ host.maxIncludeDepth → ∀ q, Reaches run host p q →
    q.state.frame.includeDepth ≤ host.maxIncludeDepth
  flow : p.state.frame.loopDepth = 0 → ∀ flow t w,
    p.outcome run host = ((.ok flow, t), w) → flow = .normal
  /-- A stray `break` or `continue` of a block outside of all loops fails in its template. -/
  stray : p.state.frame.loopDepth = 0 → ∀ q stmt rest keyword line, PassesTo run host p q →
    q.body = stmt :: rest → leaves? stmt = some (keyword, line) → (p.outcome run host).1.1 =
      .error (.failed (.render p.state.frame.path (.outsideLoop keyword line)))
  /-- One in a template that is included anywhere below the block fails in that template. -/
  strayIncluded : ∀ q path r r' stmt rest keyword line, Reaches run host p q →
    Includes run host q path r → PassesTo run host r r' → r'.body = stmt :: rest →
      leaves? stmt = some (keyword, line) → (p.outcome run host).1.1 =
        .error (.failed (.render path (.outsideLoop keyword line)))
  /-- A run that succeeds came behind each statement of each block that it began outside of
  loops. -/
  whole : ∀ flow t w, p.outcome run host = ((.ok flow, t), w) → ∀ q, Reaches run host p q →
    q.state.frame.loopDepth = 0 → ∀ pre post, q.body = pre ++ post →
      ∃ u v, PassesTo run host q ⟨post, u, v⟩

/-- How statements keep to the frame in which they begin. -/
structure State.Framed (run : Runner m σ) (host : Host m) (s : State) : Prop where
  frame : ∀ stmt w, (run.run (stmtStep host s stmt s) w).1.2.frame = s.frame
  included : ∀ name w,
    (run.run (includeTemplate host (bodies host (room host s)) name s) w).1.2.frame =
    s.frame
  /-- The rounds of a loop end one loop deeper than the statement, where they began. -/
  whileRounds : ∀ c body rounds w, (run.run (repeatWhile (read host c).value (blockStep host s body)
    rounds s.deeper) w).1.2.frame = s.deeper.frame
  foreachRounds : ∀ key value body entries w, (run.run (forEach key value (blockStep host s body)
    entries s.deeper) w).1.2.frame = s.deeper.frame
  /-- Behind a loop or an include execution goes on with the next statement. -/
  whileFlow : ∀ c body w flow t w',
    run.run (stmtStep host s (.loop c body) s) w = ((.ok flow, t), w') → flow = .normal
  foreachFlow : ∀ subject key value body line w flow t w',
    run.run (stmtStep host s (.foreach subject key value body line) s) w = ((.ok flow, t), w') →
      flow = .normal
  includeFlow : ∀ target line w flow t w',
    run.run (stmtStep host s (.include target line) s) w = ((.ok flow, t), w') → flow = .normal
  /-- A round that breaks ends its loop, and nothing else. -/
  whileBreak : ∀ c body w t w' u v,
    Rounds run (read host c).value (blockStep host s body) host.maxRounds s.deeper w t w' →
      run.run (blockStep host s body t) w' = ((.ok .break, u), v) →
        run.run (stmtStep host s (.loop c body) s) w =
          ((.ok .normal, { u with frame := s.frame }), v)
  foreachBreak : ∀ subject key value body line w x t₀ w₀ i t w' u v,
    run.run ((read host subject).value s.deeper) w = ((.ok x, t₀), w₀) →
      Visits run key value (blockStep host s body) (visits x) t₀ w₀ i t w' →
        run.run (blockStep host s body t) w' = ((.ok .break, u), v) →
          run.run (stmtStep host s (.foreach subject key value body line) s) w =
            ((.ok .normal, { u with frame := s.frame }), v)

section Discipline

theorem PassesTo.reaches {p q : Point σ} (h : PassesTo run host p q) : Reaches run host p q :=
  Relation.ReflTransGen.mono (fun _ _ => .passes) _ _ h

variable [LawfulMonad m]

/-- The failure of a stray `break` or `continue` is the one of every run that reaches it. -/
theorem Reaches.stray {p q r : Point σ} {stmt : Stmt} {rest : List Stmt} {keyword : String}
    {line : Nat}
    (h : Reaches run host p q) (hpasses : PassesTo run host q r)
    (hdepth : q.state.frame.loopDepth = 0)
    (hbody : r.body = stmt :: rest) (hleaves : leaves? stmt = some (keyword, line)) :
    (p.outcome run host).1.1 =
      .error (.failed (.render q.state.frame.path (.outsideLoop keyword line))) := by
  rw [← hpasses.frame] at hdepth ⊢
  obtain ⟨u, hu⟩ := Reaches.error (h.trans hpasses.reaches)
    (outcome_of_leaves hdepth hbody hleaves)
  rw [hu]

theorem Point.framed (p : Point σ) : p.Framed run host where
  frame := block_keepsFrame _ _ _ _
  includeDepth hp q h := h.includeDepth_le hp
  flow hdepth flow t w h := block_stays _ hdepth h
  stray hdepth q stmt rest keyword line h hbody hleaves :=
    Reaches.stray .refl h hdepth hbody hleaves
  strayIncluded q path r r' stmt rest keyword line h hincludes hpasses hbody hleaves := by
    have hframe := hincludes.frame.1
    have hreaches : Reaches run host p r := h.tail (.includes hincludes)
    have hstray := hreaches.stray hpasses (by rw [hframe]) hbody hleaves
    rwa [hframe] at hstray
  whole flow t w h q hreaches hdepth pre post hbody := by
    obtain ⟨body, s, v⟩ := q
    obtain rfl : body = pre ++ post := hbody
    obtain ⟨r, u, v', hq⟩ : ∃ r u v', Point.outcome run host ⟨pre ++ post, s, v⟩ = ((r, u), v') :=
      ⟨_, _, _, rfl⟩
    cases r with
    | error e =>
      obtain ⟨_, hp⟩ := hreaches.error hq
      rw [hp] at h
      cases h
    | ok flow => exact passes_of_ok hdepth hq

theorem State.framed (s : State) : s.Framed run host where
  frame stmt := stmt_keepsFrame _ stmt s
  included name := include_keepsFrame (bodies_keepsFrame _) name s
  whileRounds c body rounds := repeatWhile_keepsFrame s c body rounds s.deeper
  foreachRounds key value body entries := forEach_keepsFrame s key value body entries s.deeper
  whileFlow c body w flow t w' h := ends_normally h
  foreachFlow subject key value body line w flow t w' h := ends_normally h
  includeFlow target line w flow t w' h := by
    obtain ⟨_, _, _, -, hrest⟩ := (bind_ok_iff run).mp h
    exact ends_normally hrest
  whileBreak c body w t w' u v h hbreak := by
    have hrounds := h.ends hbreak fun _ h => (Except.ok.inj h).symm
    have hloop := run_inLoop (repeatWhile_keepsFrame s c body host.maxRounds) hrounds
    exact (run_bind_of_ok run hloop).trans (run_pure_ok run _ _ _)
  foreachBreak subject key value body line w x t₀ w₀ i t w' u v hsubject h hbreak := by
    have hvisits := h.ends hbreak fun _ h => (Except.ok.inj h).symm
    have hloop := run_inLoop (visits_keepsFrame s subject key value body)
      ((run_bind_of_ok run hsubject).trans hvisits)
    exact (run_bind_of_ok run hloop).trans (run_pure_ok run _ _ _)

/-- Each block and each statement keeps its frame, in every program and from every state, and so
does every rendering, which begins outside of loops and includes. -/
theorem frames_kept (run : Runner m σ) (host : Host m) :
    (∀ p : Point σ, p.Framed run host) ∧ (∀ s : State, s.Framed run host) ∧
      ∀ scope program path w, run.run (execute host scope program path) w =
        let ((r, t), w') := Point.outcome run host ⟨program.body, ⟨scope, "", ⟨path, 0, 0⟩, []⟩, w⟩
        (⟨r.map fun _ => t.output, t.calls.reverse⟩, w') :=
  ⟨fun p => p.framed, fun s => s.framed, run_execute run host⟩

/-- A loop includes a template that breaks outside of its own loops. -/
theorem frames_kept_of_stray :
    let run := Runner.ofState Nat
    let part : Program := ⟨[.text "x", .break 7, .text "y"]⟩
    let host : Host (StateM Nat) := ⟨[], fun _ n => (.ok (⟨"part"⟩, part), n + 1), false, 1, 0⟩
    let p : Point Nat := ⟨[.foreach (.array [.value (.literal .null)]) none "x"
      [.include (.literal (.string "part")) 1] 1], ⟨[], "", ⟨⟨"page"⟩, 0, 0⟩, []⟩, 0⟩
    (p.outcome run host).1.1 = .error (.failed (.render ⟨"part"⟩ (.outsideLoop "break" 7))) ∧
      (p.outcome run host).1.2.frame = ⟨⟨"page"⟩, 0, 0⟩ ∧
      p.state.Framed run host := by
  intro run part host p
  obtain ⟨hpoints, hstates, -⟩ := frames_kept run host
  let inside : Point Nat := ⟨[.include (.literal (.string "part")) 1],
    ⟨[("x", .null)], "", ⟨⟨"page"⟩, 1, 0⟩, []⟩, 0⟩
  have hround : Reaches run host p inside := .single (.enters (.visit rfl .now))
  have hincludes : Includes run host inside ⟨"part"⟩
      ⟨part.body, ⟨[("x", .null)], "", ⟨⟨"part"⟩, 0, 1⟩, []⟩, 1⟩ :=
    .template (t := inside.state) rfl Nat.zero_lt_one rfl
  have hstray :=
    (hpoints p).strayIncluded inside ⟨"part"⟩ _ _ (.break 7) [.text "y"] "break" 7 hround
    hincludes (.single (.next rfl)) rfl rfl
  exact ⟨hstray, (hpoints p).frame, hstates p.state⟩

end Discipline

end ViewTemplate.Run
