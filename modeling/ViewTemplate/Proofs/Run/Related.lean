import ViewTemplate.Proofs.Run.Step
import Mathlib.Data.List.Forall2

namespace ViewTemplate.Run

open Code

variable {m n : Type → Type}

theorem branches {R : {α : Type} → Step m α → Step n α → Prop} {α : Type} {c : Prop} [Decidable c]
    {x z : Step m α} {y w : Step n α} (hx : R x y) (hz : R z w) :
    R (if c then x else z) (if c then y else w) := by
  split
  · exact hx
  · exact hz

variable [Monad m]

/-- Two bounds: they are equal, or the second is no smaller and a step that has used up the first is
related to every step. -/
def Bounds (R : {α : Type} → Step m α → Step n α → Prop) (a b : Nat) : Prop :=
  a = b ∨ a ≤ b ∧ ∀ {α : Type} (y : Step n α), R (throw .unfinished) y

theorem Bounds.succ {R : {α : Type} → Step m α → Step n α → Prop} {a b : Nat}
    (h : Bounds R (a + 1) b) : ∃ c, b = c + 1 ∧ Bounds R a c := by
  rcases h with rfl | ⟨hle, hend⟩
  · exact ⟨a, rfl, .inl rfl⟩
  · obtain ⟨c, rfl⟩ := Nat.exists_eq_add_of_le' (Nat.le_trans (Nat.le_add_left 1 a) hle)
    exact ⟨c, rfl, .inr ⟨Nat.le_of_succ_le_succ hle, hend⟩⟩

variable [Monad n]

/-- A relation between the steps of two renderings that each construct of a program keeps. -/
structure Congruence (host : Host m) (host' : Host n)
    (R : {α : Type} → Step m α → Step n α → Prop) : Prop where
  pure {α : Type} (a : α) : R (pure a) (pure a)
  bind {α β : Type} {x : Step m α} {y : Step n α} {f : α → Step m β} {g : α → Step n β} :
    R x y → (∀ a, R (f a) (g a)) → R (x >>= f) (y >>= g)
  map {α β : Type} {x : Step m α} {y : Step n α} (f : α → β) : R x y → R (f <$> x) (f <$> y)
  throw {α : Type} (e : Stop) : R (throw e : Step m α) (throw e)
  get : R get get
  write (text : String) : R (write text) (write text)
  assignVariable (name : String) (v : Value) : R (assignVariable name v) (assignVariable name v)
  unset (p : Place) : R (unset p) (unset p)
  missing (fault : RenderFault) : R (missing host fault) (missing host' fault)
  callFunction (name : String) (args : List Value) :
    R (callFunction host name args) (callFunction host' name args)
  inLoop {α : Type} {x : Step m α} {y : Step n α} : R x y → R (inLoop x) (inLoop y)
  includeTemplate {runBody : List Stmt → Step m Flow} {runBody' : List Stmt → Step n Flow} :
    (∀ body, R (runBody body) (runBody' body)) → ∀ name,
      R (includeTemplate host runBody name) (includeTemplate host' runBody' name)
  maxRounds : Bounds R host.maxRounds host'.maxRounds

/-- Both readings are related. -/
structure Reading.Related (R : {α : Type} → Step m α → Step n α → Prop) (a : Reading m)
    (b : Reading n) : Prop where
  value : R a.value b.value
  quiet : R a.quiet b.quiet

namespace Congruence

variable {host : Host m} {host' : Host n} {R : {α : Type} → Step m α → Step n α → Prop}
  {α β : Type}

theorem fail (h : Congruence host host' R) (fault : RenderFault) :
    R (fail fault : Step m α) (fail fault) :=
  h.bind h.get fun _ => h.throw _

theorem ofOperator (h : Congruence host host' R) (r : Except OperatorError α) :
    R (ofOperator r : Step m α) (ofOperator r) := by
  cases r with
  | ok a => exact h.pure a
  | error e => exact h.fail _

theorem leave (h : Congruence host host' R) (flow : Flow) (keyword : String) (line : Nat) :
    R (leave flow keyword line : Step m Flow) (leave flow keyword line) :=
  h.bind h.get fun _ => branches (h.fail _) (h.pure _)

theorem assign (h : Congruence host host' R) (p : Place) (v : Value) :
    R (assign p v : Step m Unit) (assign p v) := by
  refine h.bind h.get fun s => ?_
  dsimp only
  split
  · exact h.assignVariable _ _
  · exact h.fail _

theorem subscript (h : Congruence host host' R) (base key : Value) :
    R (subscript host base key) (subscript host' base key) := by
  unfold Run.subscript
  split
  · split
    · exact h.pure _
    · exact h.missing _
  · split
    · exact h.pure _
    · exact h.missing _
  · split
    · exact h.pure _
    · exact h.missing _
  · exact h.missing _
  · exact h.pure _

theorem readVariable (h : Congruence host host' R) (name : String) :
    (readVariable host name).Related R (readVariable host' name) where
  value := by
    refine h.bind h.get fun s => ?_
    split
    · exact h.pure _
    · exact h.missing _
  quiet := h.bind h.get fun _ => h.pure _

theorem joinParts (h : Congruence host host' R) (parts : List StringPart) :
    R (joinParts host parts) (joinParts host' parts) := by
  induction parts with
  | nil => exact h.pure _
  | cons part rest ih =>
    cases part with
    | literal s => exact h.bind ih fun _ => h.pure _
    | var name => exact h.bind (h.readVariable name).value fun _ => h.bind ih fun _ => h.pure _

section Lists

/-- Readings that are related one by one. -/
abbrev Readings (R : {α : Type} → Step m α → Step n α → Prop) :
    List (Reading m) → List (Reading n) → Prop :=
  List.Forall₂ (Reading.Related R)

variable {rs : List (Reading m)} {rs' : List (Reading n)}

theorem allSet (h : Congruence host host' R) (hrs : Readings R rs rs') :
    R (allSet rs) (allSet rs') := by
  induction hrs with
  | nil => exact h.pure _
  | cons hr _ ih =>
    refine h.bind hr.quiet fun v => ?_
    cases v with
    | none => exact h.pure _
    | some v => exact branches (h.pure _) ih

theorem valuesOf (h : Congruence host host' R) (hrs : Readings R rs rs') :
    R (valuesOf rs) (valuesOf rs') := by
  induction hrs with
  | nil => exact h.pure _
  | cons hr _ ih => exact h.bind hr.value fun _ => h.bind ih fun _ => h.pure _

theorem call (h : Congruence host host' R) (name : String) (hrs : Readings R rs rs') :
    R (call host name rs) (call host' name rs') := by
  unfold Run.call
  refine branches ?_ (branches ?_ ?_)
  · have hempty : rs.isEmpty = rs'.isEmpty := by cases hrs <;> rfl
    rw [hempty]
    exact h.bind (h.allSet hrs) fun _ => h.pure _
  · cases hrs with
    | nil => exact h.fail _
    | cons hr hrest =>
      cases hrest with
      | nil =>
        refine h.bind hr.quiet fun v => ?_
        cases v with
        | none => exact h.pure _
        | some v => exact h.pure _
      | cons => exact h.fail _
  · exact h.bind (h.valuesOf hrs) fun _ => h.callFunction _ _

theorem echo (h : Congruence host host' R) (hrs : Readings R rs rs') : R (echo rs) (echo rs') := by
  induction hrs with
  | nil => exact h.pure _
  | cons hr _ ih => exact h.bind hr.value fun _ => h.bind (h.write _) fun _ => ih

theorem unsetAll (h : Congruence host host' R) {ps : List (Step m Place)}
    {ps' : List (Step n Place)} (hps : List.Forall₂ (fun x y => R x y) ps ps') :
    R (unsetAll ps) (unsetAll ps') := by
  induction hps with
  | nil => exact h.pure _
  | cons hp _ ih => exact h.bind hp fun _ => h.bind (h.unset _) fun _ => ih

/-- Entries of an array literal whose keys and values are related one by one. -/
abbrev Entries (R : {α : Type} → Step m α → Step n α → Prop) :
    List (Option (Reading m) × Reading m) → List (Option (Reading n) × Reading n) → Prop :=
  List.Forall₂ fun e e' => Option.Rel (Reading.Related R) e.1 e'.1 ∧ e.2.Related R e'.2

theorem discard (h : Congruence host host' R) {x : Step m α} {y : Step n α} (hxy : R x y) :
    R (discard x) (discard y) :=
  h.map (fun _ => ()) hxy

theorem same (h : Congruence host host' R) {x : Step m Value} {y : Step n Value} (hxy : R x y) :
    (Reading.same x).Related R (Reading.same y) :=
  ⟨hxy, h.map some hxy⟩

theorem fill (h : Congruence host host' R) {es : List (Option (Reading m) × Reading m)}
    {es' : List (Option (Reading n) × Reading n)} (hes : Entries R es es') (array : Value) :
    R (fill es array) (fill es' array) := by
  induction hes generalizing array with
  | nil => exact h.pure _
  | @cons e e' es es' he _ ih =>
    obtain ⟨key, v⟩ := e
    obtain ⟨key', v'⟩ := e'
    obtain ⟨hkey, hv⟩ := he
    cases hkey with
    | none =>
      refine h.bind (h.pure none) fun key => h.bind hv.value fun v => ?_
      split
      · exact ih _
      · exact h.fail _
    | some hr =>
      refine h.bind (h.map some hr.value) fun key => h.bind hv.value fun v => ?_
      split
      · exact ih _
      · exact h.fail _

end Lists

section Expressions

mutual

theorem read (h : Congruence host host' R) : ∀ e : Expr, (read host e).Related R (read host' e)
  | .literal v => h.same (h.pure v)
  | .var name => h.readVariable name
  | .interpolated parts => h.same (h.bind (h.joinParts parts) fun _ => h.pure _)
  | .array items => h.same (h.fill (h.readItems items) _)
  | .index base key =>
    ⟨h.bind (h.read base).value fun _ => h.bind (h.read key).value fun _ => h.subscript _ _,
      h.bind (h.read base).quiet fun b => by
        cases b with
        | none => exact h.pure _
        | some b => exact h.bind (h.read key).value fun _ => h.pure _⟩
  | .append _ => h.same (h.fail _)
  | .property base name =>
    ⟨h.bind (h.read base).value fun _ => h.subscript _ _,
      h.bind (h.read base).quiet fun _ => h.pure _⟩
  | .call name args => h.same (h.call name (h.readAll args))
  | .constant _ => h.same (h.fail _)
  | .unary _ operand => h.same (h.bind (h.read operand).value fun _ => h.ofOperator _)
  | .binary op left right => by
    have ha := (h.read left).value
    have hb := (h.read right).value
    refine h.same ?_
    -- `and` and `or` need not come to their right side; all other operators do.
    cases op
    case and => exact h.bind ha fun _ => branches (h.bind hb fun _ => h.pure _) (h.pure _)
    case or => exact h.bind ha fun _ => branches (h.pure _) (h.bind hb fun _ => h.pure _)
    all_goals exact h.bind ha fun _ => h.bind hb fun _ => h.ofOperator _
  | .ternary condition positive negative =>
    h.same (h.bind (h.read condition).value fun _ =>
      branches (h.read positive).value (h.read negative).value)
  | .fallback condition negative =>
    h.same (h.bind (h.read condition).value fun _ => branches (h.pure _) (h.read negative).value)
  | .coalesce left right => h.same (h.bind (h.read left).quiet fun v => by
      cases v with
      | none => exact (h.read right).value
      | some v => exact branches (h.read right).value (h.pure _))
  | .assign target value =>
    h.same (h.bind (h.read value).value fun _ => h.bind (h.place target) fun _ =>
      h.bind (h.assign _ _) fun _ => h.pure _)

theorem place (h : Congruence host host' R) : ∀ e : Expr, R (place host e) (place host' e)
  | .var _ => h.pure _
  | .index base key =>
    h.bind (h.place base) fun _ => h.bind (h.read key).value fun _ => h.pure _
  | .append base => h.bind (h.place base) fun _ => h.pure _
  | .property base _ => h.bind (h.place base) fun _ => h.pure _
  | .literal _ | .interpolated _ | .array _ | .call .. | .constant _ | .unary .. | .binary ..
  | .ternary .. | .fallback .. | .coalesce .. | .assign .. => h.fail _

theorem readAll (h : Congruence host host' R) :
    ∀ es : List Expr, Readings R (readAll host es) (readAll host' es)
  | [] => .nil
  | e :: rest => .cons (h.read e) (h.readAll rest)

theorem readItems (h : Congruence host host' R) :
    ∀ items : List Item, Entries R (readItems host items) (readItems host' items)
  | [] => .nil
  | .value v :: rest => .cons ⟨.none, h.read v⟩ (h.readItems rest)
  | .keyed k v :: rest => .cons ⟨.some (h.read k), h.read v⟩ (h.readItems rest)

end

theorem places (h : Congruence host host' R) (es : List Expr) :
    List.Forall₂ (fun x y => R x y) (places host es) (places host' es) := by
  induction es with
  | nil => exact .nil
  | cons e rest ih => exact .cons (h.place e) ih

end Expressions

section Statements

variable {body : Step m Flow} {body' : Step n Flow}

theorem repeatWhile (h : Congruence host host' R) {condition : Step m Value}
    {condition' : Step n Value} (hcondition : R condition condition') (hbody : R body body')
    {rounds rounds' : Nat} (hrounds : Bounds R rounds rounds') :
    R (repeatWhile condition body rounds) (repeatWhile condition' body' rounds') := by
  induction rounds generalizing rounds' with
  | zero =>
    rcases hrounds with rfl | ⟨-, hend⟩
    · exact h.throw _
    · exact hend _
  | succ rounds ih =>
    obtain ⟨rounds', rfl, hfewer⟩ := hrounds.succ
    refine h.bind hcondition fun _ => branches (h.bind hbody fun flow => ?_) (h.pure _)
    cases flow with
    | normal => exact ih hfewer
    | «break» => exact h.pure _
    | «continue» => exact ih hfewer

theorem forEach (h : Congruence host host' R) (key : Option String) (value : String)
    (hbody : R body body') (vs : List (Value × Value)) :
    R (forEach key value body vs) (forEach key value body' vs) := by
  induction vs with
  | nil => exact h.pure _
  | cons v rest ih =>
    obtain ⟨k, v⟩ := v
    have hround {x : Flow → Step m Unit} {y : Flow → Step n Unit}
        (hxy : ∀ flow, R (x flow) (y flow)) :
        R (Run.assignVariable value v >>= fun _ => body >>= x)
          (Run.assignVariable value v >>= fun _ => body' >>= y) :=
      h.bind (h.assignVariable value v) fun _ => h.bind hbody hxy
    cases key with
    | none =>
      refine hround fun flow => ?_
      cases flow <;> first | exact ih | exact h.pure _
    | some name =>
      refine h.bind (h.assignVariable name k) fun _ => hround fun flow => ?_
      cases flow <;> first | exact ih | exact h.pure _

variable {runBody : List Stmt → Step m Flow}
  {runBody' : List Stmt → Step n Flow}

mutual

theorem execStmt (h : Congruence host host' R) (hrun : ∀ body, R (runBody body) (runBody' body)) :
    ∀ stmt : Stmt, R (execStmt host runBody stmt) (execStmt host' runBody' stmt)
  | .text s => h.bind (h.write s) fun _ => h.pure _
  | .echo es => h.bind (h.echo (h.readAll es)) fun _ => h.pure _
  | .expr e => h.bind (h.discard (h.read e).value) fun _ => h.pure _
  | .unset targets => h.bind (h.unsetAll (h.places targets)) fun _ => h.pure _
  | .cond condition body rest =>
    h.bind (h.read condition).value fun _ =>
      branches (h.execBlock hrun body) (h.execAlternatives hrun rest)
  | .loop condition body => by
    have hbody := h.execBlock hrun body
    exact h.bind (h.inLoop (h.repeatWhile (h.read condition).value hbody h.maxRounds)) fun _ =>
      h.pure _
  | .foreach subject key value body _ =>
    h.bind (h.inLoop (h.bind (h.read subject).value fun _ =>
      h.forEach key value (h.execBlock hrun body) _)) fun _ => h.pure _
  | .break _ => h.leave _ _ _
  | .continue _ => h.leave _ _ _
  | .include target _ =>
    h.bind (h.read target).value fun _ => h.bind (h.includeTemplate hrun _) fun _ => h.pure _

theorem execAlternatives (h : Congruence host host' R)
    (hrun : ∀ body, R (runBody body) (runBody' body)) :
    ∀ rest : Alternatives, R (execAlternatives host runBody rest)
      (execAlternatives host' runBody' rest)
  | .none => h.pure _
  | .otherwise body => h.execBlock hrun body
  | .elseIf condition body rest =>
    h.bind (h.read condition).value fun _ =>
      branches (h.execBlock hrun body) (h.execAlternatives hrun rest)

theorem execBlock (h : Congruence host host' R) (hrun : ∀ body, R (runBody body) (runBody' body)) :
    ∀ body : List Stmt, R (execBlock host runBody body) (execBlock host' runBody' body)
  | [] => h.pure _
  | stmt :: rest => h.bind (h.execStmt hrun stmt) fun flow => by
      cases flow with
      | normal => exact h.execBlock hrun rest
      | «break» => exact h.pure _
      | «continue» => exact h.pure _

end

/-- Related steps make related renderings, however deep their includes go. -/
theorem execBody (h : Congruence host host' R) {depth depth' : Nat} (hdepth : Bounds R depth depth')
    (body : List Stmt) : R (execBody host depth body) (execBody host' depth' body) := by
  induction depth generalizing depth' body with
  | zero =>
    cases depth' with
    | zero => exact h.execBlock (fun _ => h.throw _) body
    | succ depth' =>
      rcases hdepth with hdepth | ⟨-, hend⟩
      · cases hdepth
      · exact h.execBlock (fun _ => hend _) body
  | succ depth ih =>
    obtain ⟨depth', rfl, hless⟩ := hdepth.succ
    exact h.execBlock (fun body => ih hless body) body

end Statements

end Congruence

end ViewTemplate.Run
