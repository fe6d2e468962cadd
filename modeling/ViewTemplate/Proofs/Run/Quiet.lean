import ViewTemplate.Proofs.Code.Numerals
import ViewTemplate.Proofs.Code.Writing
import ViewTemplate.Proofs.Directive.Characters
import ViewTemplate.Proofs.Run.Effects
import ViewTemplate.Proofs.Run.Looser
import Mathlib

namespace ViewTemplate

namespace Code

namespace Expr

def isAssign : Expr → Bool
  | .assign .. => true
  | _ => false

/-- Names of properties are no numbers. -/
def NamesProperty : Expr → Prop
  | .property _ name => Number.ofText? name = none
  | _ => True

def isset (e : Expr) : Expr := .call "isset" [e]

def empty (e : Expr) : Expr := .call "empty" [e]

def notNull (e : Expr) : Expr := .binary .notIdentical e (.literal .null)

end Expr

/-- A variable with steps by literal keys and by names behind it. -/
inductive AccessPath : Expr → Prop
  | var (name : String) : AccessPath (.var name)
  | index {base : Expr} (v : Value) (h : AccessPath base) : AccessPath (.index base (.literal v))
  | property {base : Expr} (name : String) (h : AccessPath base) : AccessPath (.property base name)

/-- A name is no number. -/
def Token.Names : Token → Prop
  | .name s => Number.ofText? s = none
  | _ => True

theorem Stream.names {b : Bool} {ts : List Token} (h : Stream b ts) : ∀ t ∈ ts, t.Names := by
  induction h with
  | nil => exact List.forall_mem_nil _
  | text _ _ _ _ ih => exact List.forall_mem_cons.mpr ⟨trivial, ih⟩
  | openTag _ ih => exact ih
  | closeTag _ ih => exact List.forall_mem_cons.mpr ⟨trivial, ih⟩
  | @token t _ ht _ ih =>
    refine List.forall_mem_cons.mpr ⟨?_, ih⟩
    cases t with
    | name s =>
      obtain ⟨c, cs, hs, hc, -⟩ := ht
      exact Number.ofText?_eq_none hs hc
    | _ => trivial

theorem builds_namesProperty : Builds Token.Names Expr.NamesProperty := by
  constructor <;> intros <;> trivial

theorem Program.namesProperty_of_parse {source : String} {p : Program}
    (h : Program.parse source = .ok p) : p.Each Expr.NamesProperty := by
  obtain ⟨s, hs, hp⟩ := exists_of_bind_eq_ok h
  refine TokenStream.program_each builds_namesProperty (fun t ht => ?_) hp
  exact (stream_tokenize hs).names t.token (List.mem_map_of_mem ht)

end Code

namespace Run

open Code

variable {m : Type → Type} [Monad m] {σ α β : Type} (run : Runner m σ) {host : Host m}
  {x : Step m α} {s t u : State} {w w' : σ}

/-- What a step comes to: its answer or why there is none, and the state it leaves, the log
aside. -/
def comesTo (x : Step m α) (s : State) (w : σ) : (Except Stop α × State) × σ :=
  let ((r, t), w') := run.run (x s) w
  ((r, { t with calls := [] }), w')

theorem comesTo_eq {r : Except Stop α} (h : run.run (x s) w = ((r, t), w')) :
    comesTo run x s w = ((r, { t with calls := [] }), w') := by
  unfold comesTo
  rw [h]

theorem comesTo_congr {y : Step m α} (h : run.run (x s) w = run.run (y t) w') :
    comesTo run x s w = comesTo run y t w' := by
  unfold comesTo
  rw [h]

theorem Confined.comesTo_relogged {W : String → Prop} {post : α → Prop} (h : Confined W x post)
    (s : State) (calls : List Call) (w : σ) :
    comesTo run x { s with calls } w = comesTo run x s w := by
  obtain ⟨r, scope, added, -, -, hrun⟩ := h s
  have hat (calls : List Call) :
      comesTo run x { s with calls } w = ((r, { s with scope, calls := [] }), w) := by
    rw [comesTo_eq run (by rw [hrun, run.run_pure])]
  exact (hat calls).trans (hat s.calls).symm

/-- A step that writes no variable goes the same way a second time. -/
theorem Confined.again {post : α → Prop} (h : Confined (fun _ => False) x post) {a : α}
    (hrun : run.run (x s) w = ((.ok a, t), w')) : w' = w ∧ (∃ calls, t = { s with calls }) ∧
      ∀ calls, ∃ calls', run.run (x { s with calls }) w =
        ((.ok a, { s with calls := calls' }), w) := by
  obtain ⟨r, scope, added, hvaried, -, hx⟩ := h s
  obtain rfl := hvaried.eq
  have hs : run.run (x s) w = ((r, { s with calls := added ++ s.calls }), w) := by
    rw [← run.run_pure, ← hx]
  rw [hs] at hrun
  cases hrun
  exact ⟨rfl, ⟨_, rfl⟩, fun calls => ⟨added ++ calls, by rw [hx, run.run_pure]⟩⟩

/-- A step that sets and removes no variable. -/
abbrev Still (x : Step m α) : Prop := Confined (fun _ => False) x fun _ => True

/-- Where an expression has a value, its quiet reading gives it, or nothing in the place of null. -/
def Reading.Agrees (r : Reading m) : Prop :=
  ∀ ⦃s v t w w'⦄, run.run (r.value s) w = ((.ok v, t), w') →
    ∃ q u v', run.run (r.quiet s) w = ((.ok q, u), v') ∧ (q = some v ∨ q = none ∧ v = .null)

variable {run}

theorem missing_ok (hlenient : host.strict = false) {fault : RenderFault} {v : Value}
    (h : run.run (missing host fault s) w = ((.ok v, t), w')) : v = .null := by
  unfold missing at h
  rw [hlenient, if_neg Bool.false_ne_true] at h
  exact (pure_ok h).symm

theorem subscript_ok (hlenient : host.strict = false) {base key v : Value}
    (h : run.run (subscript host base key s) w = ((.ok v, t), w')) :
    subscript? base key = some v ∨ subscript? base key = none ∧ v = .null := by
  have hfound (found : Option Value) (fault : RenderFault)
      (h : run.run (found.elim (missing host fault) pure s) w = ((.ok v, t), w')) :
      found = some v ∨ found = none ∧ v = .null := by
    cases found with
    | some v' => exact .inl (congrArg some (pure_ok h))
    | none => exact .inr ⟨rfl, missing_ok hlenient h⟩
  cases base with
  | null => exact .inr ⟨rfl, missing_ok hlenient h⟩
  | bool b => exact .inr ⟨rfl, (pure_ok h).symm⟩
  | int n => exact .inr ⟨rfl, (pure_ok h).symm⟩
  | float x => exact .inr ⟨rfl, (pure_ok h).symm⟩
  | string text =>
    refine hfound (character? text key) (.undefinedOffset key.key) ?_
    rw [← h, subscript]
    cases character? text key <;> rfl
  | list items =>
    refine hfound (Value.element? (.list items) key) (.undefinedKey key.key) ?_
    rw [← h, subscript]
    cases Value.element? (.list items) key <;> rfl
  | map entries =>
    refine hfound (Value.element? (.map entries) key) (.undefinedKey key.key) ?_
    rw [← h, subscript]
    cases Value.element? (.map entries) key <;> rfl

theorem subscript?_name {name : String} (h : Number.ofText? name = none) (base : Value) :
    subscript? base (.string name) = base.element? (.string name) := by
  cases base with
  | string text =>
    have hnumber : (Value.string name).number? = none := h
    show character? text (.string name) = none
    unfold character?
    rw [hnumber]
    rfl
  | _ => rfl

theorem quiet_readVariable (host : Host m) (name : String) (s : State) (w : σ) :
    run.run ((readVariable host name).quiet s) w = ((.ok (Entries.get? s.scope name), s), w) :=
  (run_bind_of_ok run (get_ok run)).trans (run_pure_ok run _ _ _)

theorem run_index_quiet {a k : Expr} {base key : Value} {q : Option Value} {w'' : σ}
    (ha : run.run ((read host a).quiet s) w = ((.ok (some base), t), w'))
    (hk : run.run ((read host k).value t) w' = ((.ok key, u), w'')) (h : subscript? base key = q) :
    run.run ((read host (.index a k)).quiet s) w = ((.ok q, u), w'') := by
  subst h
  exact (run_bind_of_ok run ha).trans ((run_bind_of_ok run hk).trans (run_pure_ok run _ u w''))

namespace Reading.Agrees

theorem same [LawfulMonad m] (value : Step m Value) : (Reading.same value).Agrees run := by
  intro s v t w w' h
  refine ⟨some v, t, w', ?_, .inl rfl⟩
  show run.run ((some <$> value) s) w = _
  rw [map_eq_pure_bind]
  exact (run_bind_of_ok run h).trans (run_pure_ok run _ _ _)

theorem readVariable (hlenient : host.strict = false) (name : String) :
    (readVariable host name).Agrees run := by
  intro s v t w w' h
  obtain ⟨_, _, _, hget, h⟩ := (bind_ok_iff run).mp h
  rw [get_ok] at hget
  cases hget
  refine ⟨_, _, _, quiet_readVariable host name s w, ?_⟩
  cases hfound : Entries.get? s.scope name with
  | some v' =>
    rw [hfound] at h
    exact .inl (congrArg some (pure_ok h))
  | none =>
    rw [hfound] at h
    exact .inr ⟨rfl, missing_ok hlenient h⟩

variable (hlenient : host.strict = false)
include hlenient

theorem index {base key : Reading m} (hbase : base.Agrees run) (hstill : Still base.value)
    (hquiet : Still base.quiet) (hkey : Still key.value) :
    Reading.Agrees run
      { value := do
          let b ← base.value
          subscript host b (← key.value)
        quiet := do
          match ← base.quiet with
          | some b => return subscript? b (← key.value)
          | none => return none } := by
  intro s v t w w' h
  obtain ⟨b, _, _, hb, hrest⟩ := (bind_ok_iff run).mp h
  obtain ⟨k, _, _, hk, hsubscript⟩ := (bind_ok_iff run).mp hrest
  obtain ⟨q, _, _, hq, hagree⟩ := hbase hb
  obtain ⟨rfl, ⟨calls, rfl⟩, -⟩ := hstill.again run hb
  obtain ⟨rfl, ⟨calls', rfl⟩, -⟩ := hquiet.again run hq
  rcases hagree with rfl | ⟨rfl, rfl⟩
  · obtain ⟨-, -, hagain⟩ := hkey.again run hk
    obtain ⟨_, hk'⟩ := hagain calls'
    exact ⟨_, _, _, (run_bind_of_ok run hq).trans
      ((run_bind_of_ok run hk').trans (run_pure_ok run _ _ _)), subscript_ok hlenient hsubscript⟩
  · exact ⟨_, _, _, (run_bind_of_ok run hq).trans (run_pure_ok run none _ _),
      .inr ⟨rfl, missing_ok hlenient hsubscript⟩⟩

theorem property {base : Reading m} {name : String} (hname : Number.ofText? name = none)
    (hbase : base.Agrees run) :
    Reading.Agrees run
      { value := do subscript host (← base.value) (.string name)
        quiet := do return (← base.quiet).bind (·.element? (.string name)) } := by
  intro s v t w w' h
  obtain ⟨b, _, _, hb, h⟩ := (bind_ok_iff run).mp h
  obtain ⟨q, u, v', hq, hagree⟩ := hbase hb
  refine ⟨_, _, _, (run_bind_of_ok run hq).trans (run_pure_ok run _ _ _), ?_⟩
  rcases hagree with rfl | ⟨rfl, rfl⟩
  · rw [Option.bind_some, ← subscript?_name hname]
    exact subscript_ok hlenient h
  · exact .inr ⟨rfl, missing_ok hlenient h⟩

end Reading.Agrees

section Expressions

variable [LawfulMonad m]

theorem still_of_assignFree {e : Expr} (h : e.Each fun e => e.isAssign = false) :
    e.Each (Expr.Assigns fun _ => False) :=
  h.imp fun e he => by
    cases e with
    | assign => cases he.self
    | _ => trivial

/-- The quiet reading of an expression of a program agrees with the one for its value. -/
theorem read_agrees (hlenient : host.strict = false) : ∀ {e : Expr},
    (e.Each fun e => e.isAssign = false) → e.Each Expr.NamesProperty → (read host e).Agrees run
  | .var name, _, _ => .readVariable hlenient name
  | .index _ _, hfree, hnames =>
    have hbase := read_confined (still_of_assignFree hfree.2.1)
    have hkey := read_confined (still_of_assignFree hfree.2.2)
    .index hlenient (read_agrees hlenient hfree.2.1 hnames.2.1) hbase.value hbase.quiet hkey.value
  | .property _ _, hfree, hnames =>
    .property hlenient hnames.1 (read_agrees hlenient hfree.2 hnames.2)
  | .literal _, _, _ | .interpolated _, _, _ | .array _, _, _ | .append _, _, _ | .call .., _, _
  | .constant _, _, _ | .unary .., _, _ | .binary .., _, _ | .ternary .., _, _
  | .fallback .., _, _ | .coalesce .., _, _ | .assign .., _, _ => .same _

omit [LawfulMonad m] in
theorem quiet_accessPath {e : Expr} (h : AccessPath e) (s : State) :
    ∃ q, ∀ (host : Host m) (w : σ), run.run ((read host e).quiet s) w = ((.ok q, s), w) := by
  induction h with
  | var name => exact ⟨_, fun host w => quiet_readVariable host name s w⟩
  | @index base key _ ih =>
    obtain ⟨q, hq⟩ := ih
    refine ⟨q.bind (subscript? · key), fun host w => (run_bind_of_ok run (hq host w)).trans ?_⟩
    cases q with
    | none => exact run_pure_ok run none s w
    | some b =>
      have hkey := run_pure_ok run key s w
      exact (run_bind_of_ok run hkey).trans (run_pure_ok run _ _ _)
  | @property base name _ ih =>
    obtain ⟨q, hq⟩ := ih
    exact ⟨_, fun host w => (run_bind_of_ok run (hq host w)).trans (run_pure_ok run _ _ _)⟩

end Expressions

section Answers

variable {e d : Expr} {q : Option Value} {v : Value}

theorem run_isset (h : run.run ((read host e).quiet s) w = ((.ok q, t), w')) :
    run.run ((read host e.isset).value s) w = ((.ok (.bool (q.any (!·.isNull))), t), w') := by
  have hset : run.run (allSet [read host e] s) w = ((.ok (q.any (!·.isNull)), t), w') := by
    refine (run_bind_of_ok run h).trans ?_
    cases q with
    | none => exact run_pure_ok run false t w'
    | some v => cases v <;> exact run_pure_ok run _ t w'
  have hargs : (readAll host [e]).isEmpty = false := rfl
  refine (run_bind_of_ok run hset).trans ?_
  rw [hargs, Bool.not_false, Bool.and_true]
  exact run_pure_ok run _ t w'

theorem run_empty (h : run.run ((read host e).quiet s) w = ((.ok q, t), w')) :
    run.run ((read host e.empty).value s) w = ((.ok (.bool !q.any (·.truthy)), t), w') := by
  refine (run_bind_of_ok run h).trans ?_
  cases q with
  | none => exact run_pure_ok run _ t w'
  | some v => exact run_pure_ok run _ t w'

theorem run_notNull (h : run.run ((read host e).value s) w = ((.ok v, t), w')) :
    run.run ((read host e.notNull).value s) w = ((.ok (.bool !v.isNull), t), w') := by
  have hnull : v.identical .null = v.isNull := by cases v <;> rfl
  refine (run_bind_of_ok run h).trans ((run_bind_of_ok run (run_pure_ok run _ t w')).trans ?_)
  rw [← hnull]
  exact run_pure_ok run _ t w'

theorem run_not (h : run.run ((read host e).value s) w = ((.ok v, t), w')) :
    run.run ((read host (.unary .not e)).value s) w = ((.ok (.bool !v.truthy), t), w') :=
  (run_bind_of_ok run h).trans (run_pure_ok run _ t w')

theorem run_coalesce (h : run.run ((read host e).quiet s) w = ((.ok q, t), w')) :
    run.run ((read host (.coalesce e d)).value s) w =
      if q.any (!·.isNull) then ((.ok (q.getD .null), t), w')
      else run.run ((read host d).value t) w' := by
  refine (run_bind_of_ok run h).trans ?_
  cases q with
  | none => rfl
  | some v => cases v <;> first | rfl | exact run_pure_ok run _ t w'

theorem run_ternary {c : Expr} {b : Bool}
    (h : run.run ((read host c).value s) w = ((.ok (.bool b), t), w')) :
    run.run ((read host (.ternary c e d)).value s) w =
      if b then run.run ((read host e).value t) w' else run.run ((read host d).value t) w' := by
  refine (run_bind_of_ok run h).trans ?_
  cases b <;> rfl

end Answers

/-- What the quiet readings make of an expression that has the value `v` in a state. -/
structure QuietAs (run : Runner m σ) (host : Host m) (e : Expr) (v : Value) (s : State) (w : σ) :
    Prop where
  quiet : ∃ q calls, run.run ((read host e).quiet s) w = ((.ok q, { s with calls }), w) ∧
    (q = some v ∨ q = none ∧ v = .null)
  isset : comesTo run (read host e.isset).value s w = comesTo run (read host e.notNull).value s w
  empty : comesTo run (read host e.empty).value s w =
    comesTo run (read host (.unary .not e)).value s w
  coalesce : ∀ d, comesTo run (read host (.coalesce e d)).value s w =
    comesTo run (read host (.ternary e.notNull e d)).value s w

theorem any_of_agrees {q : Option Value} {v : Value} (h : q = some v ∨ q = none ∧ v = .null)
    {f : Value → Bool} (hf : f .null = false) : q.any f = f v := by
  rcases h with rfl | ⟨rfl, rfl⟩
  · rfl
  · exact hf.symm

section Lenient

variable [LawfulMonad m]

theorem quietAs {e : Expr} {v : Value} (hfree : e.Each fun e => e.isAssign = false)
    (hagrees : (read host e).Agrees run)
    (h : run.run ((read host e).value s) w = ((.ok v, t), w')) :
    QuietAs run host e v s w := by
  have hstill : (read host e).Satisfies (Confined fun _ => False) :=
    read_confined (still_of_assignFree hfree)
  obtain ⟨q, _, _, hq, hqv⟩ := hagrees h
  -- Without assignments an evaluation only adds calls, and gives the same when it is repeated.
  obtain ⟨rfl, ⟨calls, rfl⟩, hagain⟩ := hstill.value.again run h
  obtain ⟨rfl, ⟨calls', rfl⟩, -⟩ := hstill.quiet.again run hq
  refine ⟨⟨q, calls', hq, hqv⟩, ?_, ?_, fun d => ?_⟩
  · rw [comesTo_eq run (run_isset hq), comesTo_eq run (run_notNull h), any_of_agrees hqv rfl]
  · rw [comesTo_eq run (run_empty hq), comesTo_eq run (run_not h), any_of_agrees hqv rfl]
  · have hcoalesce := run_coalesce (d := d) hq
    have hternary := run_ternary (e := e) (d := d) (run_notNull h)
    rw [any_of_agrees (f := (!·.isNull)) hqv rfl] at hcoalesce
    cases hnull : v.isNull with
    | true =>
      rw [hnull] at hcoalesce hternary
      have hd : Confined (fun _ => True) (read host d).value fun _ => True :=
        (read_confined_any d).value
      exact (comesTo_congr run hcoalesce).trans ((hd.comesTo_relogged run s calls' _).trans
        ((comesTo_congr run hternary).trans (hd.comesTo_relogged run s calls _)).symm)
    | false =>
      rw [hnull] at hcoalesce hternary
      obtain ⟨calls'', he⟩ := hagain calls
      obtain rfl | ⟨-, rfl⟩ := hqv
      · rw [comesTo_eq run hcoalesce, comesTo_eq run (hternary.trans he), Option.getD_some]
      · cases hnull

/-- In lenient mode the quiet readings of a program's expressions agree with their values. The quiet
reading of an access path never fails, and gives the same in strict mode. -/
theorem quiet_agrees {source : String} {p : Program} (hparse : Program.parse source = .ok p)
    (hlenient : host.strict = false) :
    (p.Each fun e => (e.Each fun e => e.isAssign = false) → ∀ s v t w w',
      run.run ((read host e).value s) w = ((.ok v, t), w') →
        (∃ calls, t = { s with calls }) ∧ QuietAs run host e v s w) ∧
      ∀ e, AccessPath e → ∀ s w, ∃ q, ∀ strict,
        run.run ((read { host with strict } e).quiet s) w = ((.ok q, s), w) := by
  refine ⟨?_, fun e he s w => ?_⟩
  · refine (Program.namesProperty_of_parse hparse).imp fun e hnames hfree s v t w w' h => ?_
    have hstill : (read host e).Satisfies (Confined fun _ => False) :=
      read_confined (still_of_assignFree hfree)
    obtain ⟨rfl, hcalls, -⟩ := hstill.value.again run h
    exact ⟨hcalls, quietAs hfree (read_agrees hlenient hfree hnames) h⟩
  · obtain ⟨q, hq⟩ : ∃ q, ∀ (host : Host m) (w : σ),
        run.run ((read host e).quiet s) w = ((.ok q, s), w) := quiet_accessPath he s
    exact ⟨q, fun strict => hq _ w⟩

/-- A property of a text: it reads as null, quietly as nothing, and fails in strict mode. -/
theorem quiet_agrees_of_text :
    let host : Host (StateM Nat) := ⟨builtins, loadNothing, false, 8, 100⟩
    let e : Expr := .property (.index (.var "a") (.literal (.string "k"))) "n"
    let s : State := ⟨[("a", .map [("k", .string "text")])], "", ⟨⟨"page"⟩, 0, 0⟩, []⟩
    Program.parse "<?tpl echo $a['k']->n;?>" = .ok ⟨[.echo [e]]⟩ ∧
      (Runner.ofState Nat).run ((read host e).value s) 0 = ((.ok .null, s), 0) ∧
      QuietAs (Runner.ofState Nat) host e .null s 0 ∧
      ∃ q, ∀ strict, (Runner.ofState Nat).run ((read { host with strict } e).quiet s) 0 =
        ((.ok q, s), 0) := by
  intro host e s
  have hparse : Program.parse "<?tpl echo $a['k']->n;?>" = .ok ⟨[.echo [e]]⟩ := by cbv
  have hvalue : (Runner.ofState Nat).run ((read host e).value s) 0 = ((.ok .null, s), 0) := by rfl
  have hpath : AccessPath e := .property "n" (.index _ (.var "a"))
  have hfree : e.Each fun e => e.isAssign = false := ⟨rfl, rfl, rfl, rfl⟩
  have hlenient : host.strict = false := rfl
  refine ⟨hparse, hvalue, ?_, ?_⟩
  · exact ((quiet_agrees hparse hlenient).1.1.1.self hfree s .null s 0 0 hvalue).2
  · exact (quiet_agrees hparse hlenient).2 e hpath s 0

end Lenient

end Run

end ViewTemplate
