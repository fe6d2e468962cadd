import ViewTemplate.Proofs.Run.Frames
import ViewTemplate.Proofs.Run.Performing

namespace ViewTemplate

namespace Code

mutual

/-- There is no `while` in a statement. -/
def Stmt.WhileFree : Stmt → Prop
  | .loop .. => False
  | .cond _ body rest => WhileFreeAll body ∧ rest.WhileFree
  | .foreach _ _ _ body _ => WhileFreeAll body
  | .text _ | .echo _ | .expr _ | .unset _ | .break _ | .continue _ | .include .. => True

def Alternatives.WhileFree : Alternatives → Prop
  | .none => True
  | .otherwise body => WhileFreeAll body
  | .elseIf _ body rest => WhileFreeAll body ∧ rest.WhileFree

def WhileFreeAll : List Stmt → Prop
  | [] => True
  | stmt :: more => stmt.WhileFree ∧ WhileFreeAll more

end

mutual

theorem Stmt.WhileFree.requires : ∀ {stmt : Stmt}, stmt.WhileFree →
    stmt.Requires (fun _ => True) (fun _ => True) False
  | .text _, _ | .break _, _ | .continue _, _ | .expr _, _ | .include .., _ => trivial
  | .echo _, _ | .unset _, _ => fun _ _ => trivial
  | .cond .., h => ⟨trivial, WhileFreeAll.requires h.1, h.2.requires⟩
  | .foreach .., h => ⟨trivial, WhileFreeAll.requires h⟩

theorem Alternatives.WhileFree.requires : ∀ {rest : Alternatives}, rest.WhileFree →
    rest.Requires (fun _ => True) (fun _ => True) False
  | .none, _ => trivial
  | .otherwise _, h => WhileFreeAll.requires h
  | .elseIf .., h => ⟨trivial, WhileFreeAll.requires h.1, h.2.requires⟩

theorem WhileFreeAll.requires : ∀ {body : List Stmt}, WhileFreeAll body →
    RequiresAll (fun _ => True) (fun _ => True) False body
  | [], _ => trivial
  | _ :: _, h => ⟨h.1.requires, WhileFreeAll.requires h.2⟩

end

end Code

namespace Run

open Code

variable {m : Type → Type} [Monad m] {σ α β : Type} {run : Runner m σ} {host : Host m}
  {s t : State} {w w' : σ} {depth : Nat}

/-- What a step comes to that does not run out of rounds, with an answer in `post`. -/
def Settled (post : α → Prop) : Except Stop α → Prop
  | .ok a => post a
  | .error (.failed _) => True
  | .error .unfinished => False

/-- Where exactly `depth` more includes may be nested, a step settles in the frame in which it
began. -/
def Settles (run : Runner m σ) (host : Host m) (depth : Nat) (x : Step m α) (post : α → Prop) :
    Prop :=
  ∀ s w, s.frame.includeDepth + depth = host.maxIncludeDepth →
    Settled post (run.run (x s) w).1.1 ∧ (run.run (x s) w).1.2.frame = s.frame

namespace Settles

variable {x : Step m α} {post : α → Prop}

theorem of_run (h : ∀ s w, ∃ r t w', run.run (x s) w = ((r, t), w') ∧ Settled post r ∧
    t.frame = s.frame) :
    Settles run host depth x post := by
  intro s w _
  obtain ⟨r, t, w', hrun, hsettled, hframe⟩ := h s w
  rw [hrun]
  exact ⟨hsettled, hframe⟩

theorem pure {a : α} (h : post a) : Settles run host depth (pure a : Step m α) post :=
  .of_run fun s w => ⟨_, _, _, run_pure_ok run a s w, h, rfl⟩

theorem throw (e : TemplateError) : Settles run host depth (throw (.failed e) : Step m α) post :=
  .of_run fun _ w => ⟨_, _, _, run.run_pure _ w, trivial, rfl⟩

theorem modify {f : State → State} (hf : ∀ s, (f s).frame = s.frame) :
    Settles run host depth (modify f : Step m Unit) fun _ => True :=
  .of_run fun s w => ⟨_, _, _, run_modify run f s w, trivial, hf s⟩

theorem bind {f : α → Step m β} {post' : β → Prop} (h : Settles run host depth x post)
    (hf : ∀ a, post a → Settles run host depth (f a) post') :
    Settles run host depth (x >>= f) post' := by
  intro s w hs
  obtain ⟨r, t, w', hx⟩ : ∃ r t w', run.run (x s) w = ((r, t), w') := ⟨_, _, _, rfl⟩
  obtain ⟨hsettled, hframe⟩ := h s w hs
  rw [hx] at hsettled hframe
  cases r with
  | ok a =>
    rw [run_bind_of_ok run hx, ← hframe]
    exact hf a hsettled t w' (hframe ▸ hs)
  | error stop =>
    rw [run_bind_of_error run hx]
    cases stop with
    | failed e => exact ⟨trivial, hframe⟩
    | unfinished => exact hsettled.elim

theorem after {f : α → Step m β} {post' : β → Prop} (h : Settles run host depth x fun _ => True)
    (hf : ∀ a, Settles run host depth (f a) post') : Settles run host depth (x >>= f) post' :=
  h.bind fun a _ => hf a

theorem look {f : State → Step m α}
    (hf : ∀ s, s.frame.includeDepth + depth = host.maxIncludeDepth →
      Settles run host depth (f s) post) :
    Settles run host depth (get >>= f) post := by
  intro s w hs
  rw [run_bind_of_ok run (get_ok run)]
  exact hf s hs s w hs

theorem fail (fault : RenderFault) : Settles run host depth (fail fault : Step m α) post :=
  look fun _ _ => .throw _

theorem within {enter : Frame → Frame} {back : Frame → Frame → Frame} {depth' : Nat}
    (h : Settles run host depth' x post)
    (henter : ∀ f : Frame, f.includeDepth + depth = host.maxIncludeDepth →
      (enter f).includeDepth + depth' = host.maxIncludeDepth)
    (hback : ∀ f, back f (enter f) = f) : Settles run host depth (within enter back x) post := by
  intro s w hs
  obtain ⟨hsettled, hframe⟩ := h { s with frame := enter s.frame } w (henter s.frame hs)
  rw [run_within]
  refine ⟨hsettled, ?_⟩
  dsimp only
  rw [hframe]
  exact hback s.frame

theorem inLoop (h : Settles run host depth x post) : Settles run host depth (inLoop x) post :=
  h.within (fun _ hf => hf) fun _ => rfl

theorem inTemplate (h : Settles run host depth x post) (path : Path) :
    Settles run host (depth + 1) (inTemplate path x) post := by
  refine h.within (fun f hf => ?_) fun _ => rfl
  dsimp only
  omega

theorem assignVariable (name : String) (v : Value) :
    Settles run host depth (assignVariable name v : Step m Unit) fun _ => True :=
  modify fun _ => rfl

theorem missing (fault : RenderFault) :
    Settles run host depth (missing host fault) fun _ => True := by
  unfold Run.missing
  split
  · exact .fail _
  · exact .pure trivial

end Settles

theorem evaluates_settles (run : Runner m σ) (host : Host m) (depth : Nat) :
    Evaluates host (fun _ => True) (fun _ => True) (Settles run host depth) where
  pure := .pure
  bind := .bind
  fail := .fail
  variableValue _ := by
    refine .look fun s _ => ?_
    split
    · exact .pure trivial
    · exact .missing _
  variableQuiet _ := .look fun _ _ => .pure trivial
  callFunction name args := by
    unfold callFunction
    split
    · exact .fail _
    · refine .after (.modify fun _ => rfl) fun _ => ?_
      split
      · exact .pure trivial
      · exact .throw _
      · exact .fail _
  assign v _ := by
    refine .look fun s _ => ?_
    dsimp only
    split
    · exact .assignVariable _ _
    · exact .fail _

theorem performs_settles (run : Runner m σ) (host : Host m) (depth : Nat) :
    Performs host False (Settles run host depth) where
  pure := .pure
  bind := .bind
  modify := .modify
  leave _ _ _ := by
    refine .look fun s _ => ?_
    split
    · exact .fail _
    · exact .pure trivial
  inLoop := .inLoop
  unfinished h := h.elim

section Programs

/-- The loader answers with programs without `while` only. -/
def LoadsWhileFree (run : Runner m σ) (host : Host m) : Prop :=
  ∀ name w path program w', run.run (host.load name) w = (.ok (path, program), w') →
    WhileFreeAll program.body

/-- The bodies of included templates settle one include deeper. -/
abbrev BodiesSettle (run : Runner m σ) (host : Host m) (depth : Nat) : Prop :=
  ∀ depth', depth = depth' + 1 → ∀ body, WhileFreeAll body →
    Settles run host depth' (execBody host depth' body) fun _ => True

/-- An include settles: at the greatest depth it fails, and above it the body that it runs
settles. -/
theorem include_settles [LawfulMonad m] (hload : LoadsWhileFree run host)
    (hbodies : BodiesSettle run host depth) (name : String) :
    Settles run host depth (includeTemplate host (bodies host depth) name) fun _ => True := by
  refine .look fun s hs => ?_
  split
  · exact .throw _
  · rename_i hdepth
    -- below the greatest depth there is room for one more, so the fuel of the bodies is not used up
    obtain ⟨depth', rfl⟩ : ∃ depth', depth = depth' + 1 := ⟨depth - 1, by omega⟩
    intro s w hs
    obtain ⟨loaded, w', hloaded⟩ : ∃ loaded w', run.run (host.load name) w = (loaded, w') :=
      ⟨_, _, rfl⟩
    have hlift : run.run ((ExceptT.lift (StateT.lift (host.load name)) : Step m _) s) w =
        ((.ok loaded, s), w') := by
      rw [run_lift, hloaded]
    rw [run_bind_of_ok run hlift]
    cases loaded with
    | error e => exact Settles.throw e s w' hs
    | ok template =>
      obtain ⟨path, program⟩ := template
      have hbody := hbodies depth' rfl program.body (hload name w path program w' hloaded)
      dsimp only
      rw [discard_eq]
      exact ((hbody.inTemplate path).after fun _ => .pure trivial) s w' hs

theorem block_settles [LawfulMonad m] (hload : LoadsWhileFree run host)
    (hbodies : BodiesSettle run host depth) {body : List Stmt} (h : WhileFreeAll body) :
    Settles run host depth (execBlock host (bodies host depth) body) fun _ => True :=
  have hevaluates := evaluates_settles run host depth
  (performs_settles run host depth).block (fun e _ => (hevaluates.read (each_node e)).value)
    (fun e _ => hevaluates.place (each_node e)) (include_settles hload hbodies) h.requires

/-- The measure of a run is how many more includes may be nested, and then the statement. -/
theorem body_settles [LawfulMonad m] (hload : LoadsWhileFree run host) (depth : Nat) :
    ∀ body, WhileFreeAll body →
      Settles run host depth (execBody host depth body) fun _ => True := by
  -- a template may include itself, so the induction is on the room for includes and not on programs
  induction depth with
  | zero =>
    intro body hfree
    rw [execBody_eq]
    exact block_settles hload (fun _ h => absurd h (Nat.zero_ne_add_one _)) hfree
  | succ depth ih =>
    intro body hfree
    rw [execBody_eq]
    refine block_settles hload (fun depth' h => ?_) hfree
    cases h
    exact ih

theorem outcome_of_deep_include [LawfulMonad m] {q : Point σ} {target : Expr} {line : Nat}
    {rest : List Stmt} {v : Value} (hbody : q.body = .include target line :: rest)
    (hdepth : q.state.frame.includeDepth = host.maxIncludeDepth)
    (htarget : run.run ((read host target).value q.state) q.world = ((.ok v, t), w')) :
    q.outcome run host =
      ((.error (.failed (.recursiveInclude v.output host.maxIncludeDepth)), t), w') := by
  obtain ⟨body, s, w⟩ := q
  obtain rfl : body = .include target line :: rest := hbody
  have hframe : t.frame = s.frame := (read_keepsFrame target).eq htarget
  have hfails : run.run (includeTemplate host (bodies host (room host s)) v.output t) w' =
      ((.error (.failed (.recursiveInclude v.output host.maxIncludeDepth)), t), w') := by
    refine (run_bind_of_ok run (get_ok run)).trans ?_
    rw [hframe, if_pos (Nat.le_of_eq hdepth.symm)]
    exact run.run_pure _ w'
  exact outcome_cons_error ((run_bind_of_ok run htarget).trans (run_bind_of_error run hfails))

/-- A program without `while` ends with an output or with a failure, whatever it includes, as
long as the templates have no `while` either. Each include that is reached at the greatest
depth ends it. -/
theorem while_free_ends [LawfulMonad m] (run : Runner m σ) (host : Host m)
    (hload : LoadsWhileFree run host) {program : Program} (hfree : WhileFreeAll program.body)
    (scope : Entries Value) (path : Path) (w : σ) :
    let result := (run.run (execute host scope program path) w).1.result
    ((∃ output, result = .ok output) ∨ ∃ e, result = .error (.failed e)) ∧
      ∀ q target line rest v t w',
        Reaches run host ⟨program.body, ⟨scope, "", ⟨path, 0, 0⟩, []⟩, w⟩ q →
        q.body = .include target line :: rest → q.state.frame.includeDepth = host.maxIncludeDepth →
          run.run ((read host target).value q.state) q.world = ((.ok v, t), w') →
            result = .error (.failed (.recursiveInclude v.output host.maxIncludeDepth)) := by
  intro result
  let start : State := ⟨scope, "", ⟨path, 0, 0⟩, []⟩
  obtain ⟨r, u, w₁, houtcome⟩ : ∃ r u w₁,
      Point.outcome run host ⟨program.body, start, w⟩ = ((r, u), w₁) := ⟨_, _, _, rfl⟩
  have hresult : result = r.map fun _ => u.output := by
    have hrun := run_execute run host scope program path w
    rw [houtcome] at hrun
    exact congrArg (·.1.result) hrun
  constructor
  -- The third end, a loop that runs out of rounds, is one that no such program comes to.
  · have hsettled := (body_settles hload host.maxIncludeDepth program.body hfree start w
      (Nat.zero_add _)).1
    rw [execBody_eq] at hsettled
    change Settled _ (Point.outcome run host ⟨program.body, start, w⟩).1.1 at hsettled
    rw [houtcome] at hsettled
    rw [hresult]
    cases r with
    | ok flow => exact .inl ⟨u.output, rfl⟩
    | error stop =>
      cases stop with
      | failed e => exact .inr ⟨e, rfl⟩
      | unfinished => exact hsettled.elim
  -- The run ends with the failure of whatever it reaches.
  · intro q target line rest v t w' hreaches hbody hdepth htarget
    obtain ⟨u', hfails⟩ := hreaches.error (outcome_of_deep_include hbody hdepth htarget)
    rw [houtcome] at hfails
    cases hfails
    exact hresult

/-- A template that includes itself in each round of a loop. -/
theorem while_free_ends_of_circle :
    let run := Runner.ofState Nat
    let page : Program :=
      ⟨[.foreach (.array [.value (.literal .null), .value (.literal .null)]) none "x"
      [.include (.literal (.string "page")) 1] 1]⟩
    let host : Host (StateM Nat) := ⟨[], fun _ n => (.ok (⟨"page"⟩, page), n + 1), true, 1, 0⟩
    LoadsWhileFree run host ∧ WhileFreeAll page.body ∧
      (run.run (execute host [] page ⟨"page"⟩) 0).1.result =
        .error (.failed (.recursiveInclude "page" 1)) := by
  intro run page host
  have hfree : WhileFreeAll page.body := ⟨⟨trivial, trivial⟩, trivial⟩
  have hload : LoadsWhileFree run host := by
    intro name w path program w' h
    cases h
    exact hfree
  obtain ⟨-, hdeep⟩ := while_free_ends run host hload hfree [] ⟨"page"⟩ 0
  -- A round of the page, the page in it, and a round of that, whose include is too deep.
  let body : List Stmt := [.include (.literal (.string "page")) 1]
  let outer : Point Nat := ⟨body, ⟨[("x", .null)], "", ⟨⟨"page"⟩, 1, 0⟩, []⟩, 0⟩
  let included : Point Nat := ⟨page.body, ⟨[("x", .null)], "", ⟨⟨"page"⟩, 0, 1⟩, []⟩, 1⟩
  let inner : Point Nat := ⟨body, ⟨[("x", .null)], "", ⟨⟨"page"⟩, 1, 1⟩, []⟩, 1⟩
  have hfirst : Leads run host ⟨page.body, ⟨[], "", ⟨⟨"page"⟩, 0, 0⟩, []⟩, 0⟩ outer :=
    .enters (.visit rfl .now)
  have hincludes : Includes run host outer ⟨"page"⟩ included :=
    .template (t := outer.state) rfl Nat.zero_lt_one rfl
  have hsecond : Leads run host included inner := .enters (.visit rfl .now)
  have hreaches : Reaches run host ⟨page.body, ⟨[], "", ⟨⟨"page"⟩, 0, 0⟩, []⟩, 0⟩ inner :=
    ((Relation.ReflTransGen.single hfirst).tail (.includes hincludes)).tail hsecond
  have hresult :=
    hdeep inner (.literal (.string "page")) 1 [] (.string "page") inner.state 1 hreaches
    rfl rfl rfl
  exact ⟨hload, hfree, hresult⟩

end Programs

end Run

end ViewTemplate
