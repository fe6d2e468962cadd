import ViewTemplate.Proofs.Code.Accepted
import ViewTemplate.Proofs.Run.Activities
import ViewTemplate.Proofs.Run.Performing

namespace ViewTemplate

namespace Code

mutual

theorem Expr.WellFormed.assignsPlaces :
    ∀ {e : Expr}, e.WellFormed → e.Each (Expr.AssignsPlace False)
  | .literal _, _ | .var _, _ | .interpolated _, _ | .constant _, _ => trivial
  | .array _, h => ⟨trivial, ItemsWellFormed.assignsPlaces h⟩
  | .call .., h => ⟨trivial, ExprsWellFormed.assignsPlaces h.2.2⟩
  | .append _, h | .property .., h | .unary .., h => ⟨trivial, Expr.WellFormed.assignsPlaces h⟩
  | .index .., h | .binary .., h | .fallback .., h | .coalesce .., h =>
    ⟨trivial, h.1.assignsPlaces, h.2.assignsPlaces⟩
  | .ternary .., h => ⟨trivial, h.1.assignsPlaces, h.2.1.assignsPlaces, h.2.2.assignsPlaces⟩
  | .assign .., h => ⟨.inr h.1, h.2.1.assignsPlaces, h.2.2.assignsPlaces⟩

theorem ItemsWellFormed.assignsPlaces : ∀ {items : List Item}, ItemsWellFormed items →
    EachItem (Expr.AssignsPlace False) items
  | [], _ => trivial
  | .value _ :: _, h => ⟨Expr.WellFormed.assignsPlaces h.1, ItemsWellFormed.assignsPlaces h.2⟩
  | .keyed .. :: _, h =>
    ⟨⟨h.1.1.assignsPlaces, h.1.2.assignsPlaces⟩, ItemsWellFormed.assignsPlaces h.2⟩

theorem ExprsWellFormed.assignsPlaces : ∀ {es : List Expr}, ExprsWellFormed es →
    EachExpr (Expr.AssignsPlace False) es
  | [], _ => trivial
  | _ :: _, h => ⟨h.1.assignsPlaces, ExprsWellFormed.assignsPlaces h.2⟩

end

theorem ExprsWellFormed.of_mem {es : List Expr} (h : ExprsWellFormed es) {e : Expr} (he : e ∈ es) :
    e.WellFormed := by
  induction he with
  | head => exact h.1
  | tail _ _ ih => exact ih h.2

mutual

theorem Stmt.WellFormed.requires : ∀ {stmt : Stmt}, stmt.WellFormed →
    stmt.Requires Expr.WellFormed (fun e => e.WellFormed ∧ e.isPlace = true) True
  | .text _, _ | .break _, _ | .continue _, _ => trivial
  | .echo _, h => fun _ => h.2.of_mem
  | .expr _, h | .include .., h => h
  | .unset _, h => fun e he => ⟨h.2.of_mem he, h.1 e he⟩
  | .cond .., h => ⟨h.1, StmtsWellFormed.requires h.2.1, h.2.2.requires⟩
  | .loop .., h => ⟨trivial, h.1, StmtsWellFormed.requires h.2⟩
  | .foreach .., h => ⟨h.1, StmtsWellFormed.requires h.2⟩

theorem Alternatives.WellFormed.requires : ∀ {rest : Alternatives}, rest.WellFormed →
    rest.Requires Expr.WellFormed (fun e => e.WellFormed ∧ e.isPlace = true) True
  | .none, _ => trivial
  | .otherwise _, h => StmtsWellFormed.requires h
  | .elseIf .., h => ⟨h.1, StmtsWellFormed.requires h.2.1, h.2.2.requires⟩

theorem StmtsWellFormed.requires : ∀ {body : List Stmt}, StmtsWellFormed body →
    RequiresAll Expr.WellFormed (fun e => e.WellFormed ∧ e.isPlace = true) True body
  | [], _ => trivial
  | _ :: _, h => ⟨h.1.requires, StmtsWellFormed.requires h.2⟩

end

end Code

namespace Run

open Code

variable {m : Type → Type} [Monad m] {σ α β : Type} {run : Runner m σ} {host : Host m}
  {ok : Stop → Prop}

/-- What a step comes to: an answer in `post`, or a failure that `ok` admits. -/
def Admitted (ok : Stop → Prop) (post : α → Prop) : Except Stop α → Prop
  | .ok a => post a
  | .error e => ok e

/-- From every state a step comes to an answer in `post` or stops with what `ok` admits. -/
def Raises (run : Runner m σ) (ok : Stop → Prop) (x : Step m α) (post : α → Prop) : Prop :=
  ∀ s w, Admitted ok post (run.run (x s) w).1.1

namespace Raises

variable {x : Step m α} {post : α → Prop}

theorem pure {a : α} (h : post a) : Raises run ok (pure a : Step m α) post := by
  intro s w
  rw [run_pure_ok run a s w]
  exact h

theorem throw {e : Stop} (h : ok e) : Raises run ok (throw e : Step m α) post := by
  intro s w
  rw [throw_run, run.run_pure]
  exact h

theorem bind {f : α → Step m β} {post' : β → Prop} (h : Raises run ok x post)
    (hf : ∀ a, post a → Raises run ok (f a) post') : Raises run ok (x >>= f) post' := by
  intro s w
  have hx := h s w
  obtain ⟨r, t, w', hrun⟩ : ∃ r t w', run.run (x s) w = ((r, t), w') := ⟨_, _, _, rfl⟩
  rw [hrun] at hx
  cases r with
  | ok a =>
    rw [run_bind_of_ok run hrun]
    exact hf a hx t w'
  | error e =>
    rw [run_bind_of_error run hrun]
    exact hx

theorem after {f : α → Step m β} {post' : β → Prop} (h : Raises run ok x fun _ => True)
    (hf : ∀ a, Raises run ok (f a) post') : Raises run ok (x >>= f) post' :=
  h.bind fun a _ => hf a

theorem modify (f : State → State) : Raises run ok (modify f : Step m Unit) fun _ => True := by
  intro s w
  rw [run_modify run f s w]
  trivial

theorem look {f : State → Step m α} (hf : ∀ s, Raises run ok (f s) post) :
    Raises run ok (get >>= f) post := by
  intro s w
  rw [run_bind_of_ok run (get_ok run)]
  exact hf s s w

theorem fail {fault : RenderFault} (h : ∀ path, ok (.failed (.render path fault))) :
    Raises run ok (fail fault : Step m α) post :=
  look fun s => .throw (h s.frame.path)

theorem within {enter : Frame → Frame} {back : Frame → Frame → Frame} (h : Raises run ok x post) :
    Raises run ok (within enter back x) post := by
  intro s w
  rw [run_within]
  exact h { s with frame := enter s.frame } w

theorem discard [LawfulMonad m] (h : Raises run ok x fun _ => True) :
    Raises run ok (discard x) fun _ => True := by
  rw [discard_eq]
  exact h.after fun _ => .pure trivial

end Raises

section Programs

/-- The loader fails with an error. -/
def LoadFails (run : Runner m σ) (host : Host m) (e : TemplateError) : Prop :=
  ∃ name w w', run.run (host.load name) w = (.error e, w')

/-- A run does not stop since something that is no place is assigned to, unless the loader
says so. -/
def Placed (run : Runner m σ) (host : Host m) (e : Stop) : Prop :=
  ∀ path, e = .failed (.render path .notAssignable) →
    LoadFails run host (.render path .notAssignable)

/-- The loader answers with programs that were read. -/
def LoadsParsed (run : Runner m σ) (host : Host m) : Prop :=
  ∀ name w path program w', run.run (host.load name) w = (.ok (path, program), w') →
    ∃ source, Program.parse source = .ok program

theorem placed_unfinished : Placed run host .unfinished := nofun

theorem placed_render {path : Path} {fault : RenderFault} (h : fault ≠ .notAssignable) :
    Placed run host (.failed (.render path fault)) := by
  rintro _ ⟨⟩
  exact absurd rfl h

theorem interprets_placed (run : Runner m σ) (host : Host m) :
    Interprets False host (fun _ => True) (fun _ => True) (Raises run (Placed run host)) where
  pure := .pure
  bind := .bind
  fail fault h := .fail fun _ => placed_render h
  -- Nothing that is assigned to is other than a place, so this step is never taken.
  notAssignable h := h.elim
  variableValue _ := by
    refine .look fun s => ?_
    split
    · exact .pure trivial
    · unfold missing
      split
      · exact .fail fun _ => placed_render nofun
      · exact .pure trivial
  variableQuiet _ := .look fun _ => .pure trivial
  callFunction name args := by
    unfold callFunction
    split
    · exact .fail fun _ => placed_render nofun
    · refine .after (.modify _) fun _ => ?_
      split
      · exact .pure trivial
      · exact .throw nofun
      · exact .fail fun _ => placed_render nofun
  assign v _ := by
    refine .look fun s => ?_
    dsimp only
    split
    · exact .modify _
    · exact .fail fun _ => placed_render nofun

theorem each_node_of_assignsPlace {e : Expr} (h : e.AssignsPlace False) :
    Interprets.Node False (fun _ => True) (fun _ => True) e :=
  ⟨(each_node e).self.1, (each_node e).self.2, h⟩

/-- A program takes no other steps that fail since something else is assigned to. -/
theorem performs_placed (run : Runner m σ) (host : Host m) :
    Performs host True (Raises run (Placed run host)) where
  pure := .pure
  bind := .bind
  modify _ := .modify _
  leave _ _ _ := by
    refine .look fun s => ?_
    split
    · exact .fail fun _ => placed_render nofun
    · exact .pure trivial
  inLoop h := .within h
  unfinished _ := .throw placed_unfinished

theorem include_placed [LawfulMonad m] {runBody : List Stmt → Step m Flow}
    (hload : LoadsParsed run host)
    (hbody : ∀ body, StmtsWellFormed body →
      Raises run (Placed run host) (runBody body) fun _ => True)
    (name : String) :
    Raises run (Placed run host) (includeTemplate host runBody name) fun _ => True := by
  refine .look fun s => ?_
  split
  · exact .throw nofun
  · intro s w
    obtain ⟨loaded, w', hloaded⟩ : ∃ loaded w', run.run (host.load name) w = (loaded, w') :=
      ⟨_, _, rfl⟩
    have hlift : run.run ((ExceptT.lift (StateT.lift (host.load name)) : Step m _) s) w =
        ((.ok loaded, s), w') := by
      rw [run_lift, hloaded]
    rw [run_bind_of_ok run hlift]
    cases loaded with
    | error e =>
      -- What the loader fails with is passed on as it is, and is then the loader's own failure.
      have hfails : Placed run host (.failed e) := by
        rintro path ⟨⟩
        exact ⟨name, w, w', hloaded⟩
      exact Raises.throw hfails s w'
    | ok template =>
      obtain ⟨path, program⟩ := template
      obtain ⟨source, hparse⟩ := hload name w path program w' hloaded
      exact (Raises.within (hbody program.body (Program.wellFormed_of_parse hparse))).discard s w'

section Blocks

variable [LawfulMonad m]

theorem read_placed {e : Expr} (h : e.WellFormed) :
    (read host e).Satisfies (Raises run (Placed run host)) :=
  (interprets_placed run host).read
    (h.assignsPlaces.imp fun _ h => each_node_of_assignsPlace h.self)

theorem place_placed {e : Expr} (h : e.WellFormed ∧ e.isPlace = true) :
    Raises run (Placed run host) (place host e) fun p => p.root ∈ e.root? :=
  (interprets_placed run host).place
    (h.1.assignsPlaces.imp fun _ h => each_node_of_assignsPlace h.self)
    (.inr h.2)

theorem block_placed {runBody : List Stmt → Step m Flow} (hload : LoadsParsed run host)
    (hbody : ∀ body, StmtsWellFormed body →
      Raises run (Placed run host) (runBody body) fun _ => True)
    {body : List Stmt} (h : StmtsWellFormed body) :
    Raises run (Placed run host) (execBlock host runBody body) fun _ => True :=
  (performs_placed run host).block (fun _ he => (read_placed he).value)
    (fun _ he => place_placed he)
    (include_placed hload hbody) h.requires

/-- However many includes may be nested below it, a body assigns to places only. -/
theorem bodies_placed (hload : LoadsParsed run host) (depth : Nat) {body : List Stmt}
    (h : StmtsWellFormed body) :
    Raises run (Placed run host) (bodies host depth body) fun _ => True := by
  -- A template may include itself, so the induction is on the room for includes, not on programs.
  induction depth generalizing body with
  | zero => exact .throw placed_unfinished
  | succ depth ih =>
    rw [bodies, execBody_eq]
    exact block_placed hload (fun _ => ih) h

end Blocks

/-- Parsed programs are well-formed. What is assigned to and unset in them is a place, an echo has
something to write, the names of calls are in lower case and are no words of the language, and
literals are scalars; a conditional has its first branch. So whatever the context, the functions and
the loader of other parsed programs, no run fails since something else is assigned to, unless the
loader fails with just that; and an array literal fails only where a key or a value of it does,
never when an entry is stored. -/
theorem parsed_programs_assign_places [LawfulMonad m] {source : String} {program : Program}
    (hparse : Program.parse source = .ok program) :
    StmtsWellFormed program.body ∧
    (∀ (run : Runner m σ) (host : Host m), LoadsParsed run host → ∀ scope path w where_,
      ¬LoadFails run host (.render where_ .notAssignable) →
        (run.run (execute host scope program path) w).1.result ≠
          .error (.failed (.render where_ .notAssignable))) ∧
    ∀ (run : Runner m σ) (host : Host m) items s w e t w',
      run.run ((read host (.array items)).value s) w = ((.error e, t), w') →
        ∃ part, Spawns run host ⟨.value (.array items), s, w⟩ part ∧
          part.outcome run host = ((.error e, t), w') := by
  have hwell := Program.wellFormed_of_parse hparse
  refine ⟨hwell, ?_, fun run host items s w e t w' => array_error⟩
  intro run host hload scope path w where_ hloader hresult
  let start : State := ⟨scope, "", ⟨path, 0, 0⟩, []⟩
  have hraises := block_placed hload (fun _ => bodies_placed hload (room host start)) hwell start w
  obtain ⟨r, t, w', houtcome⟩ : ∃ r t w',
      Point.outcome run host ⟨program.body, start, w⟩ = ((r, t), w') := ⟨_, _, _, rfl⟩
  rw [run_execute, houtcome] at hresult
  change Admitted _ _ (Point.outcome run host ⟨program.body, start, w⟩).1.1 at hraises
  rw [houtcome] at hraises
  cases r with
  | ok flow => cases hresult
  | error stop =>
    cases hresult
    exact hloader (hraises where_ rfl)

def appendingSource : String := "<?tpl $a[]=1;include'p'?>"

theorem parsed_programs_assign_places_appendingSource :
    let run := Runner.ofState Nat
    let program : Program := ⟨[.expr (.assign (.append (.var "a")) (.literal (.int 1))),
      .include (.literal (.string "p")) 1]⟩
    let host : Host (StateM Nat) := ⟨[], fun _ n => (.ok (⟨"p"⟩, program), n + 1), true, 1, 0⟩
    Program.parse appendingSource = .ok program ∧ StmtsWellFormed program.body ∧
      LoadsParsed run host ∧ ¬LoadFails run host (.render ⟨"p"⟩ .notAssignable) ∧
      (run.run (execute host [] program ⟨"p"⟩) 0).1.result ≠
        .error (.failed (.render ⟨"p"⟩ .notAssignable)) ∧
      ∃ part, Spawns run host ⟨.value (.array [.value (.var "x")]), ⟨[], "", ⟨⟨"p"⟩, 0, 0⟩, []⟩,
        0⟩ part ∧
        (part.outcome run host).1.1 =
          .error (.failed (.render ⟨"p"⟩ (.undefinedVariable "x"))) := by
  intro run program host
  have htokens : tokenize appendingSource = .ok
      ⟨[⟨.var "a", 1⟩, ⟨.symbol .leftBracket, 1⟩, ⟨.symbol .rightBracket, 1⟩, ⟨.symbol .assign, 1⟩,
        ⟨.int 1, 1⟩, ⟨.symbol .semicolon, 1⟩, ⟨.name "include", 1⟩, ⟨.string "p", 1⟩,
        ⟨.closeTag, 1⟩], 1⟩ := by cbv
  have hparse : Program.parse appendingSource = .ok program := by
    rw [Program.parse, htokens]
    rfl
  have hload : LoadsParsed run host := by
    intro name w path q w' h
    cases h
    exact ⟨appendingSource, hparse⟩
  have hloader : ¬LoadFails run host (.render ⟨"p"⟩ .notAssignable) := by
    rintro ⟨name, w, w', ⟨⟩⟩
  obtain ⟨hwell, hruns, harrays⟩ :=
    parsed_programs_assign_places (m := StateM Nat) (σ := Nat) hparse
  obtain ⟨part, hpart, hfails⟩ := harrays run host [.value (.var "x")] ⟨[], "", ⟨⟨"p"⟩, 0, 0⟩, []⟩ 0
    _ _ _ rfl
  exact ⟨hparse, hwell, hload, hloader, hruns run host hload [] ⟨"p"⟩ 0 ⟨"p"⟩ hloader, part, hpart,
    congrArg (·.1.1) hfails⟩

end Programs

end Run

end ViewTemplate
