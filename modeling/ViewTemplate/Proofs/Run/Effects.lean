import ViewTemplate.Proofs.Code.Built
import ViewTemplate.Proofs.Run.Step

namespace ViewTemplate

/-- Nothing but variables in `W` was set or removed. -/
inductive Varied (W : String → Prop) (a : Entries Value) : Entries Value → Prop
  | refl : Varied W a a
  | set {b : Entries Value} {name : String} (v : Value) (hname : W name) (h : Varied W a b) :
    Varied W a (Entries.insert b name v)
  | removed {b : Entries Value} {name : String} (hname : W name) (h : Varied W a b) :
    Varied W a (Entries.erase b name)

namespace Varied

variable {W : String → Prop} {a b c : Entries Value}

theorem trans (h : Varied W a b) (h' : Varied W b c) : Varied W a c := by
  induction h' with
  | refl => exact h
  | set v hname _ ih => exact .set v hname ih
  | removed hname _ ih => exact .removed hname ih

theorem get? (h : Varied W a b) {name : String} (hname : ¬W name) :
    Entries.get? b name = Entries.get? a name := by
  induction h with
  | refl => rfl
  | @set b x v hx _ ih =>
    have hne : name ≠ x := fun heq => hname (heq ▸ hx)
    rw [Entries.get?_insert_of_ne _ hne, ih]
  | @removed b x hx _ ih =>
    have hne : name ≠ x := fun heq => hname (heq ▸ hx)
    rw [Entries.get?_erase_of_ne _ hne, ih]

theorem eq (h : Varied (fun _ => False) a b) : a = b := by
  cases h with
  | refl => rfl
  | set v hname => exact hname.elim
  | removed hname => exact hname.elim

end Varied

namespace Code.Expr

/-- The variable of a place. -/
def root? : Expr → Option String
  | .var name => some name
  | .index base _ => base.root?
  | .append base => base.root?
  | .property base _ => base.root?
  | _ => none

/-- A variable that is read is one in `R`. -/
def Reads (R : String → Prop) : Expr → Prop
  | .var name => R name
  | .interpolated parts => ∀ name, .var name ∈ parts → R name
  | _ => True

/-- An assignment is one to a variable in `W`. -/
def Assigns (W : String → Prop) : Expr → Prop
  | .assign target _ => ∀ name ∈ target.root?, W name
  | _ => True

/-- An assignment is one to a place, unless `A` says that it need not be. -/
def AssignsPlace (A : Prop) : Expr → Prop
  | .assign target _ => A ∨ target.isPlace = true
  | _ => True

end Code.Expr

namespace Run

open Code

variable {m : Type → Type} [Monad m] {α β : Type} {host : Host m} {W : String → Prop}

/-- A step that changes variables in `W` and adds to the log, goes the same way whatever the log
holds, and answers what satisfies `post`. -/
def Confined (W : String → Prop) (x : Step m α) (post : α → Prop) : Prop :=
  ∀ s : State, ∃ r scope added, Varied W s.scope scope ∧ (∀ a, r = .ok a → post a) ∧
    ∀ calls, x { s with calls } = pure (r, { s with scope, calls := added ++ calls })

namespace Confined

variable {x : Step m α} {post : α → Prop}

theorem pure {a : α} (h : post a) : Confined W (pure a : Step m α) post := by
  refine fun s => ⟨.ok a, s.scope, [], .refl, ?_, fun _ => rfl⟩
  rintro _ ⟨⟩
  exact h

theorem throw (e : Stop) : Confined W (throw e : Step m α) post :=
  fun s => ⟨.error e, s.scope, [], .refl, fun _ h => (nomatch h), fun _ => rfl⟩

variable [LawfulMonad m]

theorem bind {f : α → Step m β} {post' : β → Prop} (h : Confined W x post)
    (hf : ∀ a, post a → Confined W (f a) post') : Confined W (x >>= f) post' := by
  intro s
  obtain ⟨r, scope, added, hvaried, hpost, hx⟩ := h s
  cases r with
  | error e =>
    refine ⟨.error e, scope, added, hvaried, fun _ h => (nomatch h), fun calls => ?_⟩
    rw [bind_run, hx, pure_bind]
  | ok a =>
    obtain ⟨r, scope', added', hvaried', hpost', hb⟩ := hf a (hpost a rfl) { s with scope }
    refine ⟨r, scope', added' ++ added, hvaried.trans hvaried', hpost', fun calls => ?_⟩
    rw [bind_run_of_ok (hx calls), List.append_assoc]
    exact hb (added ++ calls)

theorem after {f : α → Step m β} {post' : β → Prop} (h : Confined W x fun _ => True)
    (hf : ∀ a, Confined W (f a) post') : Confined W (x >>= f) post' :=
  h.bind fun a _ => hf a

theorem look {f : State → Step m α} (hlog : ∀ s calls, f { s with calls } = f s)
    (hf : ∀ s, Confined W (f s) post) : Confined W (get >>= f) post := by
  intro s
  obtain ⟨r, scope, added, hvaried, hpost, hrun⟩ := hf s s
  refine ⟨r, scope, added, hvaried, hpost, fun calls => ?_⟩
  rw [bind_run_of_ok (get_run _), hlog]
  exact hrun calls

theorem fail (fault : RenderFault) : Confined W (fail fault : Step m α) post :=
  look (fun _ _ => rfl) fun _ => .throw _

theorem assignVariable {name : String} (hname : W name) (v : Value) :
    Confined W (assignVariable name v : Step m Unit) fun _ => True :=
  fun s => ⟨.ok (), Entries.insert s.scope name v, [], .set v hname .refl, fun _ _ => trivial,
    fun _ => modify_run _ _⟩

theorem assign {p : Place} (hroot : W p.root) (v : Value) :
    Confined W (assign p v : Step m Unit) fun _ => True := by
  refine look (fun _ _ => rfl) fun s => ?_
  dsimp only
  split
  · exact .assignVariable hroot _
  · exact .fail _

theorem callFunction (name : String) (args : List Value) :
    Confined W (callFunction host name args) fun _ => True := by
  unfold Run.callFunction
  split
  · exact .fail _
  · rename_i f _
    have hlog : Confined W (modify fun s => { s with calls := ⟨name, args, f args⟩ :: s.calls } :
        Step m Unit) fun _ => True :=
      fun s => ⟨.ok (), s.scope, [⟨name, args, f args⟩], .refl, fun _ _ => trivial,
        fun _ => modify_run _ _⟩
    refine hlog.after fun _ => ?_
    split
    · exact .pure trivial
    · exact .throw _
    · exact .fail _

end Confined

/-- A predicate on steps and their answers that each part of an evaluation satisfies, as long as it
reads variables in `R` and assigns variables in `W`. -/
structure Evaluates (host : Host m) (R W : String → Prop)
    (P : {α : Type} → Step m α → (α → Prop) → Prop) : Prop where
  pure {α : Type} {a : α} {post : α → Prop} : post a → P (pure a) post
  bind {α β : Type} {x : Step m α} {f : α → Step m β} {post : α → Prop} {post' : β → Prop} :
    P x post → (∀ a, post a → P (f a) post') → P (x >>= f) post'
  fail {α : Type} {post : α → Prop} (fault : RenderFault) : P (fail fault) post
  variableValue {name : String} : R name → P (readVariable host name).value fun _ => True
  variableQuiet {name : String} : R name → P (readVariable host name).quiet fun _ => True
  callFunction (name : String) (args : List Value) : P (callFunction host name args) fun _ => True
  assign {p : Place} (v : Value) : W p.root → P (assign p v) fun _ => True

/-- Both readings of an expression satisfy a predicate on steps. -/
structure Reading.Satisfies (P : {α : Type} → Step m α → (α → Prop) → Prop) (r : Reading m) :
    Prop where
  value : P r.value fun _ => True
  quiet : P r.quiet fun _ => True

/-- As `Evaluates`, where an expression that is no place is assigned to only if `A` says so. -/
structure Interprets (A : Prop) (host : Host m) (R W : String → Prop)
    (P : {α : Type} → Step m α → (α → Prop) → Prop) : Prop where
  pure {α : Type} {a : α} {post : α → Prop} : post a → P (pure a) post
  bind {α β : Type} {x : Step m α} {f : α → Step m β} {post : α → Prop} {post' : β → Prop} :
    P x post → (∀ a, post a → P (f a) post') → P (x >>= f) post'
  fail {α : Type} {post : α → Prop} (fault : RenderFault) : fault ≠ .notAssignable →
    P (fail fault) post
  notAssignable {α : Type} {post : α → Prop} : A → P (Run.fail .notAssignable) post
  variableValue {name : String} : R name → P (readVariable host name).value fun _ => True
  variableQuiet {name : String} : R name → P (readVariable host name).quiet fun _ => True
  callFunction (name : String) (args : List Value) : P (callFunction host name args) fun _ => True
  assign {p : Place} (v : Value) : W p.root → P (assign p v) fun _ => True

namespace Interprets

variable {A : Prop} {R : String → Prop} {P : {α : Type} → Step m α → (α → Prop) → Prop}

theorem after (h : Interprets A host R W P) {x : Step m α} {f : α → Step m β} {post : β → Prop}
    (hx : P x fun _ => True) (hf : ∀ a, P (f a) post) : P (x >>= f) post :=
  h.bind hx fun a _ => hf a

theorem ofOperator (h : Interprets A host R W P) (r : Except OperatorError α) :
    P (ofOperator r : Step m α) fun _ => True := by
  cases r with
  | ok a => exact h.pure trivial
  | error e => exact h.fail _ nofun

theorem missing (h : Interprets A host R W P) {fault : RenderFault}
    (hfault : fault ≠ .notAssignable) : P (missing host fault) fun _ => True := by
  unfold Run.missing
  split
  · exact h.fail _ hfault
  · exact h.pure trivial

theorem subscript (h : Interprets A host R W P) (base key : Value) :
    P (subscript host base key) fun _ => True := by
  unfold Run.subscript
  split
  · split
    · exact h.pure trivial
    · exact h.missing nofun
  · split
    · exact h.pure trivial
    · exact h.missing nofun
  · split
    · exact h.pure trivial
    · exact h.missing nofun
  · exact h.missing nofun
  · exact h.pure trivial

theorem joinParts (h : Interprets A host R W P) {parts : List StringPart}
    (hparts : ∀ name, .var name ∈ parts → R name) : P (joinParts host parts) fun _ => True := by
  induction parts with
  | nil => exact h.pure trivial
  | cons part rest ih =>
    have hrest := ih fun name hname => hparts name (List.mem_cons_of_mem _ hname)
    cases part with
    | literal s => exact h.after hrest fun _ => h.pure trivial
    | var name =>
      exact h.after (h.variableValue (hparts name List.mem_cons_self)) fun _ =>
        h.after hrest fun _ => h.pure trivial

variable {rs : List (Reading m)}

theorem allSet (h : Interprets A host R W P) (hrs : ∀ r ∈ rs, r.Satisfies P) :
    P (allSet rs) fun _ => True := by
  induction rs with
  | nil => exact h.pure trivial
  | cons r rest ih =>
    obtain ⟨hr, hrest⟩ := List.forall_mem_cons.mp hrs
    refine h.after hr.quiet fun v => ?_
    cases v with
    | none => exact h.pure trivial
    | some v =>
      dsimp only
      split
      · exact h.pure trivial
      · exact ih hrest

theorem valuesOf (h : Interprets A host R W P) (hrs : ∀ r ∈ rs, r.Satisfies P) :
    P (valuesOf rs) fun _ => True := by
  induction rs with
  | nil => exact h.pure trivial
  | cons r rest ih =>
    obtain ⟨hr, hrest⟩ := List.forall_mem_cons.mp hrs
    exact h.after hr.value fun _ => h.after (ih hrest) fun _ => h.pure trivial

theorem call (h : Interprets A host R W P) (name : String) (hrs : ∀ r ∈ rs, r.Satisfies P) :
    P (call host name rs) fun _ => True := by
  unfold Run.call
  split
  · exact h.after (h.allSet hrs) fun _ => h.pure trivial
  split
  · match rs with
    | [] => exact h.fail _ nofun
    | [r] =>
      refine h.after (List.forall_mem_singleton.mp hrs).quiet fun v => ?_
      cases v with
      | none => exact h.pure trivial
      | some v => exact h.pure trivial
    | _ :: _ :: _ => exact h.fail _ nofun
  · exact h.after (h.valuesOf hrs) fun _ => h.callFunction _ _

theorem map [LawfulMonad m] (h : Interprets A host R W P) {x : Step m α} (f : α → β)
    (hx : P x fun _ => True) : P (f <$> x) fun _ => True := by
  rw [map_eq_pure_bind]
  exact h.after hx fun _ => h.pure trivial

theorem same [LawfulMonad m] (h : Interprets A host R W P) {value : Step m Value}
    (hvalue : P value fun _ => True) : (Reading.same value).Satisfies P :=
  ⟨hvalue, h.map some hvalue⟩

theorem fill [LawfulMonad m] (h : Interprets A host R W P)
    {items : List (Option (Reading m) × Reading m)}
    (hitems : ∀ item ∈ items, (∀ r ∈ item.1, r.Satisfies P) ∧ item.2.Satisfies P)
    (array : Value) : P (fill items array) fun _ => True := by
  induction items generalizing array with
  | nil => exact h.pure trivial
  | cons item rest ih =>
    obtain ⟨key, v⟩ := item
    obtain ⟨⟨hkey, hv⟩, hrest⟩ := List.forall_mem_cons.mp hitems
    have hnone : P (Pure.pure none : Step m (Option Value)) fun _ => True := h.pure trivial
    cases key
    case' none => refine h.after hnone fun k => h.after hv.value fun v => ?_
    case' some r =>
      have hsome := h.map some (hkey r rfl).value
      refine h.after hsome fun k => h.after hv.value fun v => ?_
    all_goals
      split
      · exact ih hrest _
      · exact h.fail _ nofun

/-- Each node reads variables in `R` and assigns variables in `W`, at places. -/
abbrev Node (A : Prop) (R W : String → Prop) (e : Expr) : Prop :=
  e.Reads R ∧ e.Assigns W ∧ e.AssignsPlace A

mutual

theorem read [LawfulMonad m] (h : Interprets A host R W P) :
    ∀ {e : Expr}, e.Each (Node A R W) → (read host e).Satisfies P
  | .literal _, _ => h.same (h.pure trivial)
  | .var _, he => ⟨h.variableValue he.1, h.variableQuiet he.1⟩
  | .interpolated _, he => h.same (h.after (h.joinParts he.1) fun _ => h.pure trivial)
  | .array _, he => h.same (h.fill (h.readItems he.2) _)
  | .index .., he =>
    have hbase := h.read he.2.1
    have hkey := h.read he.2.2
    ⟨h.after hbase.value fun _ => h.after hkey.value fun _ => h.subscript _ _,
      h.after hbase.quiet fun b => by
        cases b with
        | none => exact h.pure trivial
        | some b => exact h.after hkey.value fun _ => h.pure trivial⟩
  | .append _, _ => h.same (h.fail _ nofun)
  | .property .., he =>
    ⟨h.after (h.read he.2).value fun _ => h.subscript _ _,
      h.after (h.read he.2).quiet fun _ => h.pure trivial⟩
  | .call name _, he => h.same (h.call name (h.readAll he.2))
  | .constant _, _ => h.same (h.fail _ nofun)
  | .unary .., he => h.same (h.after (h.read he.2).value fun _ => h.ofOperator _)
  | .binary op _ _, he => by
    have hleft := (h.read he.2.1).value
    have hright := (h.read he.2.2).value
    refine h.same ?_
    -- The right operand of `and` and `or` may be left out.
    cases op
    case and =>
      refine h.after hleft fun _ => ?_
      split
      · exact h.after hright fun _ => h.pure trivial
      · exact h.pure trivial
    case or =>
      refine h.after hleft fun _ => ?_
      split
      · exact h.pure trivial
      · exact h.after hright fun _ => h.pure trivial
    all_goals exact h.after hleft fun _ => h.after hright fun _ => h.ofOperator _
  | .ternary .., he => h.same (h.after (h.read he.2.1).value fun _ => by
      split
      · exact (h.read he.2.2.1).value
      · exact (h.read he.2.2.2).value)
  | .fallback .., he => h.same (h.after (h.read he.2.1).value fun _ => by
      split
      · exact h.pure trivial
      · exact (h.read he.2.2).value)
  | .coalesce .., he => h.same (h.after (h.read he.2.1).quiet fun v => by
      cases v with
      | none => exact (h.read he.2.2).value
      | some v =>
        dsimp only
        split
        · exact (h.read he.2.2).value
        · exact h.pure trivial)
  | .assign .., he => h.same (h.after (h.read he.2.2).value fun _ =>
      h.bind (h.place he.2.1 he.1.2.2) fun p hp =>
        h.after (h.assign _ (he.1.2.1 p.root hp)) fun _ => h.pure trivial)

theorem place [LawfulMonad m] (h : Interprets A host R W P) : ∀ {e : Expr}, e.Each (Node A R W) →
    A ∨ e.isPlace = true → P (place host e) fun p => p.root ∈ e.root?
  | .var _, _, _ => h.pure rfl
  | .index .., he, hplace =>
    h.bind (h.place he.2.1 hplace) fun _ hp => h.after (h.read he.2.2).value fun _ => h.pure hp
  | .append _, he, hplace => h.bind (h.place he.2 hplace) fun _ hp => h.pure hp
  | .property .., he, hplace => h.bind (h.place he.2 hplace) fun _ hp => h.pure hp
  | .literal _, _, hplace | .interpolated _, _, hplace | .array _, _, hplace | .call .., _, hplace
  | .constant _, _, hplace | .unary .., _, hplace | .binary .., _, hplace | .ternary .., _, hplace
  | .fallback .., _, hplace | .coalesce .., _, hplace | .assign .., _, hplace =>
    h.notAssignable (hplace.resolve_right Bool.false_ne_true)

theorem readAll [LawfulMonad m] (h : Interprets A host R W P) :
    ∀ {es : List Expr}, EachExpr (Node A R W) es → ∀ r ∈ readAll host es, r.Satisfies P
  | [], _ => List.forall_mem_nil _
  | _ :: _, hes => List.forall_mem_cons.mpr ⟨h.read hes.1, h.readAll hes.2⟩

theorem readItems [LawfulMonad m] (h : Interprets A host R W P) :
    ∀ {items : List Item}, EachItem (Node A R W) items → ∀ item ∈ readItems host items,
      (∀ r ∈ item.1, r.Satisfies P) ∧ item.2.Satisfies P
  | [], _ => List.forall_mem_nil _
  | .value _ :: _, hitems =>
    List.forall_mem_cons.mpr ⟨⟨fun _ h => (nomatch h), h.read hitems.1⟩, h.readItems hitems.2⟩
  | .keyed .. :: _, hitems => List.forall_mem_cons.mpr
      ⟨⟨by rintro _ ⟨⟩; exact h.read hitems.1.1, h.read hitems.1.2⟩, h.readItems hitems.2⟩

end

end Interprets

namespace Evaluates

variable {R : String → Prop} {P : {α : Type} → Step m α → (α → Prop) → Prop}

theorem interprets (h : Evaluates host R W P) : Interprets True host R W P where
  pure := h.pure
  bind := h.bind
  fail fault _ := h.fail fault
  notAssignable _ := h.fail _
  variableValue := h.variableValue
  variableQuiet := h.variableQuiet
  callFunction := h.callFunction
  assign := h.assign

theorem missing (h : Evaluates host R W P) (fault : RenderFault) :
    P (missing host fault) fun _ => True := by
  unfold Run.missing
  split
  · exact h.fail _
  · exact h.pure trivial

/-- Each node reads variables in `R` and assigns variables in `W`. -/
abbrev Node (R W : String → Prop) (e : Expr) : Prop := e.Reads R ∧ e.Assigns W

theorem Node.anywhere {e : Expr} (h : Node R W e) : Interprets.Node True R W e := by
  refine ⟨h.1, h.2, ?_⟩
  cases e with
  | assign => exact .inl trivial
  | _ => trivial

variable [LawfulMonad m]

theorem read (h : Evaluates host R W P) {e : Expr} (he : e.Each (Node R W)) :
    (read host e).Satisfies P :=
  h.interprets.read (he.imp fun _ he => he.self.anywhere)

theorem place (h : Evaluates host R W P) {e : Expr} (he : e.Each (Node R W)) :
    P (place host e) fun p => p.root ∈ e.root? :=
  h.interprets.place (he.imp fun _ he => he.self.anywhere) (.inl trivial)

theorem readAll (h : Evaluates host R W P) {es : List Expr} (hes : EachExpr (Node R W) es) :
    ∀ r ∈ readAll host es, r.Satisfies P :=
  h.interprets.readAll (hes.imp fun _ he => he.self.anywhere)

end Evaluates

theorem each_node (e : Expr) : e.Each (Evaluates.Node (fun _ => True) fun _ => True) := by
  refine e.each_of_forall fun e => ⟨?_, ?_⟩
  · cases e with
    | interpolated => exact fun _ _ => trivial
    | _ => trivial
  · cases e with
    | assign => exact fun _ _ => trivial
    | _ => trivial

section Readings

variable [LawfulMonad m]

/-- Evaluation changes the variables that it assigns, and reads whatever it needs. -/
theorem evaluates_confined : Evaluates host (fun _ => True) W (Confined W) where
  pure := .pure
  bind := .bind
  fail := .fail
  variableValue _ := by
    refine .look (fun _ _ => rfl) fun s => ?_
    split
    · exact .pure trivial
    · unfold missing
      split
      · exact .fail _
      · exact .pure trivial
  variableQuiet _ := .look (fun _ _ => rfl) fun _ => .pure trivial
  callFunction := .callFunction
  assign v hroot := .assign hroot v

theorem Expr.node_of_assigns {e : Expr} (h : e.Assigns W) : Evaluates.Node (fun _ => True) W e := by
  refine ⟨?_, h⟩
  cases e with
  | interpolated => exact fun _ _ => trivial
  | _ => trivial

theorem read_confined {e : Expr} (h : e.Each (Expr.Assigns W)) :
    (read host e).Satisfies (Confined W) :=
  evaluates_confined.read (h.imp fun _ h => Expr.node_of_assigns h.self)

theorem place_confined {e : Expr} (h : e.Each (Expr.Assigns W)) :
    Confined W (place host e) fun p => p.root ∈ e.root? :=
  evaluates_confined.place (h.imp fun _ h => Expr.node_of_assigns h.self)

theorem readAll_confined {es : List Expr} (h : EachExpr (Expr.Assigns W) es) :
    ∀ r ∈ readAll host es, r.Satisfies (Confined W) :=
  evaluates_confined.readAll (h.imp fun _ h => Expr.node_of_assigns h.self)

theorem read_confined_any (e : Expr) : (read host e).Satisfies (Confined fun _ => True) :=
  evaluates_confined.read (each_node e)

end Readings

end Run

end ViewTemplate
