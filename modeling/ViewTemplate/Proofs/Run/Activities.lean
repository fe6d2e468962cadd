import ViewTemplate.Proofs.Run.Alters
import ViewTemplate.Proofs.Run.Appending

namespace ViewTemplate

namespace Code

variable {Q : Expr → Prop}

theorem eachExpr_append {es more : List Expr} :
    EachExpr Q (es ++ more) ↔ EachExpr Q es ∧ EachExpr Q more := by
  induction es with
  | nil => exact ⟨fun h => ⟨trivial, h⟩, fun h => h.2⟩
  | cons e es ih => rw [List.cons_append, EachExpr, EachExpr, ih, and_assoc]

theorem eachItem_append {items more : List Item} :
    EachItem Q (items ++ more) ↔ EachItem Q items ∧ EachItem Q more := by
  induction items with
  | nil => exact ⟨fun h => ⟨trivial, h⟩, fun h => h.2⟩
  | cons item items ih => rw [List.cons_append, EachItem, EachItem, ih, and_assoc]

end Code

namespace Value

variable {items : List Value} {es : Entries Value} {c v : Value} {key : Option Value}

theorem exists_modifyEntry : ∃ d, modifyEntry es key (store v []) = .ok d :=
  ⟨_, modifyEntry_of_ok rfl⟩

theorem exists_modifyItem : ∃ d, modifyItem items key (store v []) = .ok d := by
  unfold modifyItem
  dsimp only
  split
  · split
    · exact ⟨_, rfl⟩
    · split
      · exact ⟨_, rfl⟩
      · exact exists_modifyEntry
  · exact exists_modifyEntry

theorem exists_put (hc : c.holdsEntries) : ∃ d, c.put key v = .ok d := by
  cases c with
  | null => exact exists_modifyItem
  | list items => exact exists_modifyItem
  | map es => exact exists_modifyEntry
  | _ => exact hc.elim

end Value

namespace Run

open Code

variable {m : Type → Type} [Monad m] {σ : Type}

/-- What an expression is evaluated for. -/
inductive Task where
  | value (e : Expr)
  | quiet (e : Expr)
  | place (e : Expr)

def Task.expr : Task → Expr
  | .value e | .quiet e | .place e => e

def Task.step (host : Host m) : Task → Step m Unit
  | .value e => do
    let _ ← (read host e).value
    return ()
  | .quiet e => do
    let _ ← (read host e).quiet
    return ()
  | .place e => do
    let _ ← Run.place host e
    return ()

/-- An evaluation that is about to begin. -/
structure Activity (σ : Type) where
  task : Task
  state : State
  world : σ

section Relations

variable (run : Runner m σ) (host : Host m)

/-- What an evaluation comes to, and the state in which it ends. -/
def Activity.outcome (a : Activity σ) : (Except Stop Unit × State) × σ :=
  run.run (a.task.step host a.state) a.world

/-- During the first evaluation the second one begins, of an expression directly below. -/
inductive Spawns : Activity σ → Activity σ → Prop
  -- what is no variable and stands for no access reads quietly as it reads for its value
  | same {e : Expr} {s : State} {w : σ} (h : read host e = .same (read host e).value) :
    Spawns ⟨.quiet e, s, w⟩ ⟨.value e, s, w⟩
  | itemValue {pre post : List Item} {e : Expr} {s t : State} {w w' : σ} {array : Value}
    (h : run.run (fill (readItems host pre) (.list []) s) w = ((.ok array, t), w')) :
    Spawns ⟨.value (.array (pre ++ .value e :: post)), s, w⟩ ⟨.value e, t, w'⟩
  | keyedKey {pre post : List Item} {k e : Expr} {s t : State} {w w' : σ} {array : Value}
    (h : run.run (fill (readItems host pre) (.list []) s) w = ((.ok array, t), w')) :
    Spawns ⟨.value (.array (pre ++ .keyed k e :: post)), s, w⟩ ⟨.value k, t, w'⟩
  | keyedValue {pre post : List Item} {k e : Expr} {s t u : State} {w w' w'' : σ}
      {array key : Value}
    (h : run.run (fill (readItems host pre) (.list []) s) w = ((.ok array, t), w'))
    (hkey : run.run ((read host k).value t) w' = ((.ok key, u), w'')) :
    Spawns ⟨.value (.array (pre ++ .keyed k e :: post)), s, w⟩ ⟨.value e, u, w''⟩
  | base {base key : Expr} {s : State} {w : σ} :
    Spawns ⟨.value (.index base key), s, w⟩ ⟨.value base, s, w⟩
  | key {base key : Expr} {s t : State} {w w' : σ} {b : Value}
    (h : run.run ((read host base).value s) w = ((.ok b, t), w')) :
    Spawns ⟨.value (.index base key), s, w⟩ ⟨.value key, t, w'⟩
  | quietBase {base key : Expr} {s : State} {w : σ} :
    Spawns ⟨.quiet (.index base key), s, w⟩ ⟨.quiet base, s, w⟩
  | quietKey {base key : Expr} {s t : State} {w w' : σ} {b : Value}
    (h : run.run ((read host base).quiet s) w = ((.ok (some b), t), w')) :
    Spawns ⟨.quiet (.index base key), s, w⟩ ⟨.value key, t, w'⟩
  | property {base : Expr} {name : String} {s : State} {w : σ} :
    Spawns ⟨.value (.property base name), s, w⟩ ⟨.value base, s, w⟩
  | quietProperty {base : Expr} {name : String} {s : State} {w : σ} :
    Spawns ⟨.quiet (.property base name), s, w⟩ ⟨.quiet base, s, w⟩
  | isset {pre post : List Expr} {e : Expr} {s t : State} {w w' : σ}
    (h : run.run (allSet (readAll host pre) s) w = ((.ok true, t), w')) :
    Spawns ⟨.value (.call "isset" (pre ++ e :: post)), s, w⟩ ⟨.quiet e, t, w'⟩
  | empty {e : Expr} {s : State} {w : σ} :
    Spawns ⟨.value (.call "empty" [e]), s, w⟩ ⟨.quiet e, s, w⟩
  | argument {name : String} {pre post : List Expr} {e : Expr} {s t : State} {w w' : σ}
    {values : List Value} (hname : name ≠ "isset" ∧ name ≠ "empty")
    (h : run.run (valuesOf (readAll host pre) s) w = ((.ok values, t), w')) :
    Spawns ⟨.value (.call name (pre ++ e :: post)), s, w⟩ ⟨.value e, t, w'⟩
  | operand {op : UnaryOp} {e : Expr} {s : State} {w : σ} :
    Spawns ⟨.value (.unary op e), s, w⟩ ⟨.value e, s, w⟩
  | left {op : BinaryOp} {l r : Expr} {s : State} {w : σ} :
    Spawns ⟨.value (.binary op l r), s, w⟩ ⟨.value l, s, w⟩
  | right {op : BinaryOp} {l r : Expr} {s t : State} {w w' : σ} {v : Value}
    (h : run.run ((read host l).value s) w = ((.ok v, t), w')) (hand : op = .and → v.truthy = true)
    (hor : op = .or → v.truthy = false) : Spawns ⟨.value (.binary op l r), s, w⟩ ⟨.value r, t, w'⟩
  | condition {c p n : Expr} {s : State} {w : σ} :
    Spawns ⟨.value (.ternary c p n), s, w⟩ ⟨.value c, s, w⟩
  | positive {c p n : Expr} {s t : State} {w w' : σ} {v : Value}
    (h : run.run ((read host c).value s) w = ((.ok v, t), w')) (hv : v.truthy = true) :
    Spawns ⟨.value (.ternary c p n), s, w⟩ ⟨.value p, t, w'⟩
  | negative {c p n : Expr} {s t : State} {w w' : σ} {v : Value}
    (h : run.run ((read host c).value s) w = ((.ok v, t), w')) (hv : v.truthy = false) :
    Spawns ⟨.value (.ternary c p n), s, w⟩ ⟨.value n, t, w'⟩
  | attempt {c n : Expr} {s : State} {w : σ} :
    Spawns ⟨.value (.fallback c n), s, w⟩ ⟨.value c, s, w⟩
  | fallback {c n : Expr} {s t : State} {w w' : σ} {v : Value}
    (h : run.run ((read host c).value s) w = ((.ok v, t), w')) (hv : v.truthy = false) :
    Spawns ⟨.value (.fallback c n), s, w⟩ ⟨.value n, t, w'⟩
  | quietLeft {l r : Expr} {s : State} {w : σ} :
    Spawns ⟨.value (.coalesce l r), s, w⟩ ⟨.quiet l, s, w⟩
  | coalesce {l r : Expr} {s t : State} {w w' : σ} {found : Option Value}
    (h : run.run ((read host l).quiet s) w = ((.ok found, t), w'))
    (hnull : ∀ v ∈ found, v.isNull = true) : Spawns ⟨.value (.coalesce l r), s, w⟩ ⟨.value r, t, w'⟩
  | assigned {target v : Expr} {s : State} {w : σ} :
    Spawns ⟨.value (.assign target v), s, w⟩ ⟨.value v, s, w⟩
  | target {target v : Expr} {s t : State} {w w' : σ} {x : Value}
    (h : run.run ((read host v).value s) w = ((.ok x, t), w')) :
    Spawns ⟨.value (.assign target v), s, w⟩ ⟨.place target, t, w'⟩
  | placeBase {base key : Expr} {s : State} {w : σ} :
    Spawns ⟨.place (.index base key), s, w⟩ ⟨.place base, s, w⟩
  | placeKey {base key : Expr} {s t : State} {w w' : σ} {p : Place}
    (h : run.run (place host base s) w = ((.ok p, t), w')) :
    Spawns ⟨.place (.index base key), s, w⟩ ⟨.value key, t, w'⟩
  | placeAppend {base : Expr} {s : State} {w : σ} :
    Spawns ⟨.place (.append base), s, w⟩ ⟨.place base, s, w⟩
  | placeProperty {base : Expr} {name : String} {s : State} {w : σ} :
    Spawns ⟨.place (.property base name), s, w⟩ ⟨.place base, s, w⟩

/-- During the first evaluation the second one begins. -/
def Involves : Activity σ → Activity σ → Prop := Relation.ReflTransGen (Spawns run host)

end Relations

variable {run : Runner m σ} {host : Host m} {W : String → Prop} {a b : Activity σ} {s t : State}
  {w w' : σ}

section Frame

variable [LawfulMonad m]

theorem interprets_confined (host : Host m) : Interprets True host (fun _ => True) W (Confined W) :=
  evaluates_confined.interprets

theorem fill_varies {items : List Item} (h : EachItem (Expr.Assigns W) items) (array : Value) :
    Varies run W (fill (readItems host items) array) s w := by
  have hnodes : EachItem (Interprets.Node True (fun _ => True) W) items :=
    h.imp fun _ he => (Expr.node_of_assigns he.self).anywhere
  exact ((interprets_confined host).fill ((interprets_confined host).readItems hnodes) array).varies

theorem allSet_varies {es : List Expr} (h : EachExpr (Expr.Assigns W) es) :
    Varies run W (allSet (readAll host es)) s w :=
  ((interprets_confined host).allSet (readAll_confined h)).varies

theorem valuesOf_varies {es : List Expr} (h : EachExpr (Expr.Assigns W) es) :
    Varies run W (valuesOf (readAll host es)) s w :=
  ((interprets_confined host).valuesOf (readAll_confined h)).varies

/-- An evaluation assigns variables in `W` only. -/
abbrev Activity.Assigns (W : String → Prop) (a : Activity σ) : Prop :=
  a.task.expr.Each (Expr.Assigns W)

theorem Activity.Assigns.varied (h : a.Assigns W) :
    Varied W a.state.scope (a.outcome run host).1.2.scope := by
  obtain ⟨task, s, w⟩ := a
  cases task with
  | value e => exact (read_confined h).value.varies.after fun _ _ _ => .pure _
  | quiet e => exact (read_confined h).quiet.varies.after fun _ _ _ => .pure _
  | place e => exact (place_confined h).varies.after fun _ _ _ => .pure _

theorem Spawns.varied (h : Spawns run host a b) (ha : a.Assigns W) :
    b.Assigns W ∧ Varied W a.state.scope b.state.scope := by
  cases h with
  | same => exact ⟨ha, .refl⟩
  | itemValue h =>
    obtain ⟨hpre, hitem, -⟩ := eachItem_append.mp ha.2
    exact ⟨hitem, (fill_varies hpre _).of_eq h⟩
  | keyedKey h =>
    obtain ⟨hpre, hitem, -⟩ := eachItem_append.mp ha.2
    exact ⟨hitem.1, (fill_varies hpre _).of_eq h⟩
  | keyedValue h hkey =>
    obtain ⟨hpre, hitem, -⟩ := eachItem_append.mp ha.2
    exact ⟨hitem.2, ((fill_varies hpre _).of_eq h).trans
      ((read_confined hitem.1).value.varies.of_eq hkey)⟩
  | isset h =>
    obtain ⟨hpre, he, -⟩ := eachExpr_append.mp ha.2
    exact ⟨he, (allSet_varies hpre).of_eq h⟩
  | argument _ h =>
    obtain ⟨hpre, he, -⟩ := eachExpr_append.mp ha.2
    exact ⟨he, (valuesOf_varies hpre).of_eq h⟩
  | empty => exact ⟨ha.2.1, .refl⟩
  | base | quietBase | left | condition | attempt | quietLeft | placeBase => exact ⟨ha.2.1, .refl⟩
  | property | quietProperty | operand | placeAppend | placeProperty => exact ⟨ha.2, .refl⟩
  -- The second part is evaluated in the state that the first one leaves.
  | key h | right h | fallback h => exact ⟨ha.2.2, (read_confined ha.2.1).value.varies.of_eq h⟩
  | quietKey h | coalesce h => exact ⟨ha.2.2, (read_confined ha.2.1).quiet.varies.of_eq h⟩
  | positive h => exact ⟨ha.2.2.1, (read_confined ha.2.1).value.varies.of_eq h⟩
  | negative h => exact ⟨ha.2.2.2, (read_confined ha.2.1).value.varies.of_eq h⟩
  | assigned => exact ⟨ha.2.2, .refl⟩
  | target h => exact ⟨ha.2.1, (read_confined ha.2.2).value.varies.of_eq h⟩
  | placeKey h => exact ⟨ha.2.2, (place_confined ha.2.1).varies.of_eq h⟩

theorem Involves.varied (h : Involves run host a b) (ha : a.Assigns W) :
    b.Assigns W ∧ Varied W a.state.scope b.state.scope := by
  induction h with
  | refl => exact ⟨ha, .refl⟩
  | tail _ hstep ih =>
    obtain ⟨hb, hvaried⟩ := hstep.varied ih.1
    exact ⟨hb, ih.2.trans hvaried⟩

end Frame

section Literals

variable {e : Stop} {array : Value} {xs : List (Option (Reading m) × Reading m)}
  {key : Option (Reading m)} {r : Reading m}

/-- What filling an array with an entry fails with: the failure of the key, that of the value, or
one of the rest. Storing the entry fails with none. -/
theorem run_fill_cons_error (harray : array.holdsEntries)
    (h : run.run (fill ((key, r) :: xs) array s) w = ((.error e, t), w')) :
    run.run (keyOf key s) w = ((.error e, t), w') ∨
      ∃ k u v, run.run (keyOf key s) w = ((.ok k, u), v) ∧
        (run.run (r.value u) v = ((.error e, t), w') ∨
          ∃ x u' v' d, run.run (r.value u) v = ((.ok x, u'), v') ∧ array.put k x = .ok d ∧
            run.run (fill xs d u') v' = ((.error e, t), w')) := by
  rw [fill_cons] at h
  obtain ⟨k, u, v, hkey⟩ : ∃ k u v, run.run (keyOf key s) w = ((k, u), v) := ⟨_, _, _, rfl⟩
  cases k with
  | error e' =>
    cases (run_bind_of_error run hkey).symm.trans h
    exact .inl hkey
  | ok k =>
    rw [run_bind_of_ok run hkey] at h
    refine .inr ⟨k, u, v, hkey, ?_⟩
    obtain ⟨x, u', v', hvalue⟩ : ∃ x u' v', run.run (r.value u) v = ((x, u'), v') := ⟨_, _, _, rfl⟩
    cases x with
    | error e' =>
      cases (run_bind_of_error run hvalue).symm.trans h
      exact .inl hvalue
    | ok x =>
      rw [run_bind_of_ok run hvalue] at h
      obtain ⟨d, hput⟩ : ∃ d, array.put k x = .ok d := Value.exists_put harray
      rw [hput] at h
      exact .inr ⟨x, u', v', d, hvalue, hput, h⟩

theorem run_keyOf_some [LawfulMonad m] {k : Except Stop (Option Value)}
    (h : run.run (keyOf (some r) s) w = ((k, t), w')) :
    ∃ x, run.run (r.value s) w = ((x, t), w') ∧ k = x.map some := by
  rw [keyOf, map_eq_pure_bind] at h
  obtain ⟨x, u, v, hvalue⟩ : ∃ x u v, run.run (r.value s) w = ((x, u), v) := ⟨_, _, _, rfl⟩
  cases x with
  | error e' =>
    cases (run_bind_of_error run hvalue).symm.trans h
    exact ⟨_, hvalue, rfl⟩
  | ok x =>
    cases ((run_bind_of_ok run hvalue).trans (run_pure_ok run (some x) u v)).symm.trans h
    exact ⟨_, hvalue, rfl⟩

/-- Behind the entries that an array was filled with, a failure is one of a key or a value to
come. -/
theorem fill_error [LawfulMonad m] {items pre : List Item} {s₀ : State} {w₀ : σ}
    (hpre : run.run (fill (readItems host pre) (.list []) s₀) w₀ = ((.ok array, s), w))
    (h : run.run (fill (readItems host items) array s) w = ((.error e, t), w')) :
    ∃ b, Spawns run host ⟨.value (.array (pre ++ items)), s₀, w₀⟩ b ∧
      b.outcome run host = ((.error e, t), w') := by
  -- the entries that were filled in grow while those to come shrink
  induction items generalizing pre array s w with
  | nil => cases (run_pure_ok run array s w).symm.trans h
  | cons item rest ih =>
    have harray : array.holdsEntries := holdsEntries_of_fill (a := .list []) trivial hpre
    -- An entry that has been stored is one more in front, with a key or without one.
    have hrest (entry : Option (Reading m) × Reading m)
        (hread : readItems host [item] = [entry]) {k : Option Value} {x d : Value} {u u' : State}
        {v v' : σ}
        (hkey : run.run (keyOf entry.1 s) w = ((.ok k, u), v))
        (hvalue : run.run (entry.2.value u) v = ((.ok x, u'), v')) (hput : array.put k x = .ok d)
        (hfails : run.run (fill (readItems host rest) d u') v' = ((.error e, t), w')) :
        ∃ b, Spawns run host ⟨.value (.array (pre ++ item :: rest)), s₀, w₀⟩ b ∧
          b.outcome run host = ((.error e, t), w') := by
      have hmore : run.run (fill (readItems host [item]) array s) w = ((.ok d, u'), v') := by
        rw [hread]
        exact run_fill_cons.mpr ⟨k, u, v, x, u', v', d, hkey, hvalue, hput, run_pure_ok run d u' v'⟩
      have hfilled : run.run (fill (readItems host (pre ++ [item])) (.list []) s₀) w₀ =
          ((.ok d, u'), v') := by
        rw [readItems_append]
        exact run_fill_append hpre hmore
      have hsplit : pre ++ item :: rest = (pre ++ [item]) ++ rest := by rw [List.append_cons]
      rw [hsplit]
      exact ih hfilled hfails
    cases item with
    | value v =>
      obtain hkey | ⟨k, u, v', hkey, hvalue | ⟨x, u', v'', d, hvalue, hput, hfails⟩⟩ :=
        run_fill_cons_error harray h
      · cases (run_pure_ok run none s w).symm.trans hkey
      · cases (run_pure_ok run none s w).symm.trans hkey
        exact ⟨_, .itemValue hpre, run_bind_of_error run hvalue⟩
      · exact hrest _ rfl hkey hvalue hput hfails
    | keyed k v =>
      obtain hkey | ⟨key, u, v', hkey, hvalue | ⟨x, u', v'', d, hvalue, hput, hfails⟩⟩ :=
        run_fill_cons_error harray h
      · obtain ⟨x, hx, hkeyed⟩ := run_keyOf_some hkey
        cases x with
        | error e' =>
          cases hkeyed
          exact ⟨_, .keyedKey hpre, run_bind_of_error run hx⟩
        | ok x => cases hkeyed
      · obtain ⟨x, hx, hkeyed⟩ := run_keyOf_some hkey
        cases x with
        | error e' => cases hkeyed
        | ok x => exact ⟨_, .keyedValue hpre hx, run_bind_of_error run hvalue⟩
      · exact hrest _ rfl hkey hvalue hput hfails

theorem array_error [LawfulMonad m] {items : List Item}
    (h : run.run ((read host (.array items)).value s) w = ((.error e, t), w')) :
    ∃ b, Spawns run host ⟨.value (.array items), s, w⟩ b ∧
      b.outcome run host = ((.error e, t), w') := by
  have hnothing : run.run (fill (readItems host []) (.list []) s) w = ((.ok (.list []), s), w) :=
    run_pure_ok run _ s w
  exact fill_error hnothing h

end Literals

end Run

end ViewTemplate
