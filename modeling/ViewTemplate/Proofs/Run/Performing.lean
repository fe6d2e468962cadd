import ViewTemplate.Proofs.Run.Points

namespace ViewTemplate

namespace Code

mutual

/-- What a statement evaluates satisfies `V`, what it unsets satisfies `U`, and it is no `while`
unless `L` allows them. -/
def Stmt.Requires (V U : Expr → Prop) (L : Prop) : Stmt → Prop
  | .text _ | .break _ | .continue _ => True
  | .echo es => ∀ e ∈ es, V e
  | .expr e => V e
  | .unset targets => ∀ e ∈ targets, U e
  | .cond c body rest => V c ∧ RequiresAll V U L body ∧ rest.Requires V U L
  | .loop c body => L ∧ V c ∧ RequiresAll V U L body
  | .foreach subject _ _ body _ => V subject ∧ RequiresAll V U L body
  | .include target _ => V target

def Alternatives.Requires (V U : Expr → Prop) (L : Prop) : Alternatives → Prop
  | .none => True
  | .otherwise body => RequiresAll V U L body
  | .elseIf c body rest => V c ∧ RequiresAll V U L body ∧ rest.Requires V U L

def RequiresAll (V U : Expr → Prop) (L : Prop) : List Stmt → Prop
  | [] => True
  | stmt :: more => stmt.Requires V U L ∧ RequiresAll V U L more

end

end Code

namespace Run

open Code

variable {m : Type → Type} [Monad m] {host : Host m} {L : Prop}
  {P : {α : Type} → Step m α → (α → Prop) → Prop}

/-- A predicate on steps and their answers that each step of a program satisfies which evaluates and
loads nothing; running out of rounds satisfies it if `L` holds. -/
structure Performs (host : Host m) (L : Prop) (P : {α : Type} → Step m α → (α → Prop) → Prop) :
    Prop where
  pure {α : Type} {a : α} {post : α → Prop} : post a → P (pure a) post
  bind {α β : Type} {x : Step m α} {f : α → Step m β} {post : α → Prop} {post' : β → Prop} :
    P x post → (∀ a, post a → P (f a) post') → P (x >>= f) post'
  modify {f : State → State} : (∀ s, (f s).frame = s.frame) →
    P (modify f : Step m Unit) fun _ => True
  leave (flow : Flow) (keyword : String) (line : Nat) :
    P (leave flow keyword line) fun _ => True
  inLoop {x : Step m Unit} : P x (fun _ => True) → P (inLoop x) fun _ => True
  unfinished : L → P (throw .unfinished : Step m Unit) fun _ => True

namespace Performs

section Parts

variable {α β : Type} {x y body : Step m Flow}

theorem after (h : Performs host L P) {x : Step m α} {f : α → Step m β} {post : β → Prop}
    (hx : P x fun _ => True) (hf : ∀ a, P (f a) post) : P (x >>= f) post :=
  h.bind hx fun a _ => hf a

theorem discard [LawfulMonad m] (h : Performs host L P) {x : Step m α} (hx : P x fun _ => True) :
    P (discard x) fun _ => True := by
  rw [discard_eq]
  exact h.after hx fun _ => h.pure trivial

theorem assignVariable (h : Performs host L P) (name : String) (v : Value) :
    P (assignVariable name v : Step m Unit) fun _ => True :=
  h.modify fun _ => rfl

theorem unset (h : Performs host L P) (p : Place) : P (unset p : Step m Unit) fun _ => True := by
  refine h.modify fun s => ?_
  split
  · rfl
  · split <;> rfl

theorem echo (h : Performs host L P) {es : List Expr}
    (hes : ∀ e ∈ es, P (read host e).value fun _ => True) :
    P (echo (readAll host es)) fun _ => True := by
  induction es with
  | nil => exact h.pure trivial
  | cons e rest ih =>
    obtain ⟨he, hrest⟩ := List.forall_mem_cons.mp hes
    exact h.after he fun _ => h.after (h.modify fun _ => rfl) fun _ => ih hrest

theorem unsetAll (h : Performs host L P) {targets : List Expr}
    (htargets : ∀ e ∈ targets, P (place host e) fun p => p.root ∈ e.root?) :
    P (unsetAll (places host targets)) fun _ => True := by
  induction targets with
  | nil => exact h.pure trivial
  | cons e rest ih =>
    obtain ⟨he, hrest⟩ := List.forall_mem_cons.mp htargets
    exact h.bind he fun p _ => h.after (h.unset p) fun _ => ih hrest

theorem branch (h : Performs host L P) {c : Step m Value} (hc : P c fun _ => True)
    (hx : P x fun _ => True) (hy : P y fun _ => True) :
    P (do if (← c).truthy then x else y) fun _ => True := by
  refine h.after hc fun v => ?_
  split
  · exact hx
  · exact hy

theorem repeatWhile (h : Performs host L P) {c : Step m Value} (hL : L) (hc : P c fun _ => True)
    (hbody : P body fun _ => True) (rounds : Nat) :
    P (repeatWhile c body rounds) fun _ => True := by
  induction rounds with
  | zero => exact h.unfinished hL
  | succ rounds ih =>
    refine h.after hc fun v => ?_
    split
    · refine h.after hbody fun flow => ?_
      cases flow with
      | «break» => exact h.pure trivial
      | normal => exact ih
      | «continue» => exact ih
    · exact h.pure trivial

/-- A loop visits the entries that it was begun with, whatever its body does to the array. -/
theorem forEach (h : Performs host L P) {key : Option String} {value : String}
    (hbody : P body fun _ => True) (entries : List (Value × Value)) :
    P (forEach key value body entries) fun _ => True := by
  induction entries with
  | nil => exact h.pure trivial
  | cons entry rest ih =>
    cases key
    -- A loop without a variable for the key makes one assignment less in each round.
    case' none => refine h.after (h.assignVariable _ _) fun _ => h.after hbody fun flow => ?_
    case' some name =>
      refine h.after (h.assignVariable _ _) fun _ => h.after (h.assignVariable _ _) fun _ =>
        h.after hbody fun flow => ?_
    all_goals
      cases flow with
      | «break» => exact h.pure trivial
      | normal => exact ih
      | «continue» => exact ih

end Parts

section Statements

variable {V U : Expr → Prop} {runBody : List Stmt → Step m Flow}

mutual

theorem stmt [LawfulMonad m] (h : Performs host L P)
    (hvalue : ∀ e, V e → P (read host e).value fun _ => True)
    (hplace : ∀ e, U e → P (place host e) fun p => p.root ∈ e.root?)
    (hinclude : ∀ name, P (includeTemplate host runBody name) fun _ => True) :
    ∀ {stmt : Stmt}, stmt.Requires V U L → P (execStmt host runBody stmt) fun _ => True
  | .text _, _ => h.after (h.modify fun _ => rfl) fun _ => h.pure trivial
  | .echo _, hs => h.after (h.echo fun e he => hvalue e (hs e he)) fun _ => h.pure trivial
  | .expr e, hs => h.after (h.discard (hvalue e hs)) fun _ => h.pure trivial
  | .unset _, hs => h.after (h.unsetAll fun e he => hplace e (hs e he)) fun _ => h.pure trivial
  | .cond c _ _, hs => h.branch (hvalue c hs.1) (h.block hvalue hplace hinclude hs.2.1)
      (h.alternatives hvalue hplace hinclude hs.2.2)
  | .loop c _, hs =>
    have hbody := h.block hvalue hplace hinclude hs.2.2
    h.after (h.inLoop (h.repeatWhile hs.1 (hvalue c hs.2.1) hbody _)) fun _ => h.pure trivial
  | .foreach subject _ _ _ _, hs =>
    have hbody := h.block hvalue hplace hinclude hs.2
    h.after (h.inLoop (h.after (hvalue subject hs.1) fun v => h.forEach hbody (visits v))) fun _ =>
      h.pure trivial
  | .break _, _ | .continue _, _ => h.leave _ _ _
  | .include target _, hs => h.after (hvalue target hs) fun _ =>
      h.after (hinclude _) fun _ => h.pure trivial

theorem alternatives [LawfulMonad m] (h : Performs host L P)
    (hvalue : ∀ e, V e → P (read host e).value fun _ => True)
    (hplace : ∀ e, U e → P (place host e) fun p => p.root ∈ e.root?)
    (hinclude : ∀ name, P (includeTemplate host runBody name) fun _ => True) :
    ∀ {rest : Alternatives}, rest.Requires V U L →
      P (execAlternatives host runBody rest) fun _ => True
  | .none, _ => h.pure trivial
  | .otherwise _, hs => h.block hvalue hplace hinclude hs
  | .elseIf c _ _, hs => h.branch (hvalue c hs.1) (h.block hvalue hplace hinclude hs.2.1)
      (h.alternatives hvalue hplace hinclude hs.2.2)

/-- A predicate of the single steps, and of what is evaluated, unset and included, is one of a
block. -/
theorem block [LawfulMonad m] (h : Performs host L P)
    (hvalue : ∀ e, V e → P (read host e).value fun _ => True)
    (hplace : ∀ e, U e → P (place host e) fun p => p.root ∈ e.root?)
    (hinclude : ∀ name, P (includeTemplate host runBody name) fun _ => True) :
    ∀ {body : List Stmt}, RequiresAll V U L body → P (execBlock host runBody body) fun _ => True
  | [], _ => h.pure trivial
  | _ :: _, hs => by
    refine h.after (h.stmt hvalue hplace hinclude hs.1) fun flow => ?_
    cases flow with
    | normal => exact h.block hvalue hplace hinclude hs.2
    | «break» => exact h.pure trivial
    | «continue» => exact h.pure trivial

end

end Statements

end Performs

end Run

end ViewTemplate
