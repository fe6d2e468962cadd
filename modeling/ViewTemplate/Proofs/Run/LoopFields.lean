import ViewTemplate.Proofs.Directive.LoopText
import ViewTemplate.Proofs.Run.Alters
import ViewTemplate.Proofs.Run.Assigning
import ViewTemplate.Proofs.Run.Quiet
import ViewTemplate.Proofs.Run.Steady
import Mathlib

namespace ViewTemplate

namespace Directive

/-- The value of a field in the round for the element at `i` of `n`. -/
def LoopField.valueAt (i n : Nat) : LoopField → Value
  | .index => .int (Int64.ofNat i)
  | .iteration => .int (Int64.ofNat (i + 1))
  | .first => .bool (i = 0)
  | .last => .bool (i + 1 = n)
  | .total => .int (Int64.ofNat n)

/-- A variable that the loop counts with: the count of its rounds or the number of its elements. -/
def EachLoop.Counts (l : EachLoop) (name : String) : Prop :=
  name = loopFieldName l.value "counter" ∨ name = loopFieldName l.value "total"

theorem loopFieldName_ne {x f g : String} (hf : f ∈ loopFieldNames) (hg : g ∈ loopFieldNames)
    (h : f ≠ g) : loopFieldName x f ≠ loopFieldName x g :=
  fun heq => h (loopFieldName_inj hf hg heq).2

theorem ne_loopFieldName_of_length {name x : String} (h : name.length ≤ x.length) (f : String) :
    name ≠ loopFieldName x f := by
  rintro rfl
  simp only [loopFieldName, String.length_append] at h
  have hprefix : "_foreach_".length = 9 := rfl
  omega

theorem EachLoop.not_counts_of_length {l : EachLoop} {name : String}
    (h : name.length ≤ l.value.length) : ¬l.Counts name := by
  rintro (heq | heq) <;> exact ne_loopFieldName_of_length h _ heq

end Directive

namespace Run

open Code Directive

variable {m : Type → Type} [Monad m] {σ α β : Type} {run : Runner m σ} {host : Host m}
  {s t u : State} {w w' w'' : σ}

section Arithmetic

variable {i n : Nat}

theorem word?_natCast (h : n < 2 ^ 63) : Decimal.word? n = some (Int64.ofNat n) := by
  have hmin : Int64.minValue.toInt = -2 ^ 63 := by decide
  have hmax : Int64.maxValue.toInt = 2 ^ 63 - 1 := by decide
  unfold Decimal.word?
  rw [if_pos (by rw [hmin, hmax]; omega)]
  rfl

theorem add_one (h : i + 1 < 2 ^ 63) :
    binary .add (.int (Int64.ofNat i)) (.int 1) = .ok (.int (Int64.ofNat (i + 1))) := by
  have hsum : (Int64.ofNat i).toInt + (1 : Int64).toInt = ((i + 1 : Nat) : Int) := by
    rw [Int64.toInt_ofNat_of_lt (by omega)]
    rfl
  show Except.ok (exactOr (some ((Int64.ofNat i).toInt + (1 : Int64).toInt)) _) = _
  unfold exactOr
  rw [hsum, Option.bind_eq_bind, Option.bind_some, word?_natCast h]

theorem sub_one (hpos : 0 < n) (h : n < 2 ^ 63) :
    binary .sub (.int (Int64.ofNat n)) (.int 1) = .ok (.int (Int64.ofNat (n - 1))) := by
  have hone : (1 : Int64).toInt = 1 := by decide
  have hsum : (Int64.ofNat n).toInt - (1 : Int64).toInt = ((n - 1 : Nat) : Int) := by
    rw [Int64.toInt_ofNat_of_lt h]
    omega
  show Except.ok (exactOr (some ((Int64.ofNat n).toInt - (1 : Int64).toInt)) _) = _
  unfold exactOr
  rw [hsum, Option.bind_eq_bind, Option.bind_some, word?_natCast (by omega)]

theorem eq_int (hi : i < 2 ^ 63) (hn : n < 2 ^ 63) :
    binary .eq (.int (Int64.ofNat i)) (.int (Int64.ofNat n)) = .ok (.bool (i = n)) := by
  show Except.ok (Value.bool
    (some (Ord.compare (Int64.ofNat i).toInt (Int64.ofNat n).toInt) == some .eq)) = _
  rw [Int64.toInt_ofNat_of_lt hi, Int64.toInt_ofNat_of_lt hn]
  congr 2
  rw [Bool.eq_iff_iff]
  simp

end Arithmetic

section Readings

variable {a b e : Expr} {v x y z : Value}

theorem run_var {name : String} (h : Entries.get? s.scope name = some v) :
    run.run ((read host (.var name)).value s) w = ((.ok v, s), w) := by
  refine (run_bind_of_ok run (get_ok run)).trans ?_
  rw [h]
  exact run_pure_ok run v s w

theorem run_undefined {name : String} (hlenient : host.strict = false)
    (h : Entries.get? s.scope name = none) :
    run.run ((read host (.var name)).value s) w = ((.ok .null, s), w) := by
  refine (run_bind_of_ok run (get_ok run)).trans ?_
  rw [h]
  dsimp only [missing]
  rw [hlenient]
  exact run_pure_ok run Value.null s w

theorem run_binary (op : BinaryOp) (hand : op ≠ .and) (hor : op ≠ .or)
    (ha : run.run ((read host a).value s) w = ((.ok x, t), w'))
    (hb : run.run ((read host b).value t) w' = ((.ok y, u), w'')) (h : binary op x y = .ok z) :
    run.run ((read host (.binary op a b)).value s) w = ((.ok z, u), w'') := by
  have hboth : run.run (((do
      let x ← (read host a).value
      ofOperator (binary op x (← (read host b).value))) : Step m Value) s) w =
        ((.ok z, u), w'') := by
    refine (run_bind_of_ok run ha).trans ((run_bind_of_ok run hb).trans ?_)
    rw [h]
    exact run_pure_ok run z u w''
  cases op <;> first | exact absurd rfl hand | exact absurd rfl hor | exact hboth

theorem run_setField [LawfulMonad m] {x field : String} {runBody : List Stmt → Step m Flow}
    (h : run.run ((read host e).value s) w = ((.ok v, t), w')) :
    run.run (execStmt host runBody (setField x field e) s) w =
      ((.ok .normal, { t with scope := Entries.insert t.scope (loopFieldName x field) v }),
        w') := by
  have hdiscard : run.run ((discard (read host (.assign (.var (loopFieldName x field)) e)).value :
      Step m Unit) s) w =
        ((.ok (), { t with scope := Entries.insert t.scope (loopFieldName x field) v }), w') := by
    rw [discard_eq]
    exact (run_bind_of_ok run (run_assign h)).trans (run_pure_ok run () _ w')
  exact (run_bind_of_ok run hdiscard).trans (run_pure_ok run _ _ w')

end Readings

section Arrays

variable {v base key : Value} {a k : Expr}

/-- An array that is found quietly is what is read. -/
def Reading.ReadsArrays (run : Runner m σ) (r : Reading m) : Prop :=
  ∀ ⦃s v t w w'⦄, v.isArray = true → run.run (r.quiet s) w = ((.ok (some v), t), w') →
    ∃ u v', run.run (r.value s) w = ((.ok v, u), v')

theorem isArray_of_element? (h : base.element? key = some v) :
    base.isArray = true := by
  cases base with
  | list | map => rfl
  | _ => cases h

theorem isArray_of_subscript? (hv : v.isArray = true)
    (h : subscript? base key = some v) : base.isArray = true ∧ base.element? key = some v := by
  cases base with
  | string text =>
    obtain ⟨n, -, hn⟩ := Option.bind_eq_some_iff.mp h
    dsimp only at hn
    split at hn
    · cases hn
    · obtain ⟨c, -, rfl⟩ := Option.map_eq_some_iff.mp hn
      cases hv
  | _ =>
    unfold subscript? at h
    exact ⟨isArray_of_element? h, h⟩

theorem run_subscript (hbase : base.isArray = true)
    (h : base.element? key = some v) : run.run (subscript host base key s) w = ((.ok v, s), w) := by
  cases base with
  | list | map =>
    unfold subscript
    simp only [h]
    exact run_pure_ok run v s w
  | _ => cases hbase

theorem run_index (ha : run.run ((read host a).value s) w = ((.ok base, t), w'))
    (hk : run.run ((read host k).value t) w' = ((.ok key, u), w'')) (hbase : base.isArray = true)
    (h : base.element? key = some v) :
    run.run ((read host (.index a k)).value s) w = ((.ok v, u), w'') :=
  (run_bind_of_ok run ha).trans ((run_bind_of_ok run hk).trans (run_subscript hbase h))

variable [LawfulMonad m]

theorem Reading.ReadsArrays.same (value : Step m Value) : (Reading.same value).ReadsArrays run := by
  intro s v t w w' _ h
  have hmap : run.run (((some <$> value : Step m (Option Value))) s) w = ((.ok (some v), t), w') :=
    h
  rw [map_eq_pure_bind] at hmap
  obtain ⟨x, u, v', hx, hpure⟩ := (bind_ok_iff run).mp hmap
  cases Option.some.inj (pure_ok hpure)
  exact ⟨u, v', hx⟩

theorem readsArrays : ∀ {e : Expr}, e.Each (Expr.Assigns fun _ => False) →
    (read host e).ReadsArrays run
  | .var name, _ => by
    intro s v t w w' _ h
    have hsame := (quiet_readVariable host name s w).symm.trans h
    simp only [Prod.mk.injEq, Except.ok.injEq] at hsame
    exact ⟨s, w, run_var hsame.1.1⟩
  | .index base key, he => by
    intro s v t w w' hv h
    obtain ⟨found, u, v', hfound, h⟩ := (bind_ok_iff run).mp h
    cases found with
    | none => cases pure_ok h
    | some b =>
      obtain ⟨k, u', v'', hk, h⟩ := (bind_ok_iff run).mp h
      obtain ⟨hb, helement⟩ := isArray_of_subscript? hv (pure_ok h)
      obtain ⟨t', x, hbase⟩ := readsArrays he.2.1 hb hfound
      -- both readings of the base leave the variables as they are, so the key is the same
      have hsame : (read host base).Satisfies (Confined fun _ => False) := read_confined he.2.1
      obtain ⟨rfl, ⟨calls, rfl⟩, -⟩ := hsame.quiet.again run hfound
      obtain ⟨rfl, ⟨calls', rfl⟩, -⟩ := hsame.value.again run hbase
      have hkeys : (read host key).Satisfies (Confined fun _ => False) := read_confined he.2.2
      obtain ⟨-, -, hagain⟩ := hkeys.value.again run hk
      obtain ⟨calls'', hkey⟩ := hagain calls'
      exact ⟨_, _, run_index hbase hkey hb helement⟩
  | .property base name, he => by
    intro s v t w w' hv h
    obtain ⟨found, u, v', hfound, h⟩ := (bind_ok_iff run).mp h
    obtain ⟨b, rfl, helement⟩ := Option.bind_eq_some_iff.mp (pure_ok h)
    have hb := isArray_of_element? helement
    obtain ⟨t', x, hbase⟩ := readsArrays he.2 hb hfound
    exact ⟨_, _, (run_bind_of_ok run hbase).trans (run_subscript hb helement)⟩
  | .literal _, _ | .interpolated _, _ | .array _, _ | .append _, _ | .call .., _ | .constant _, _
  | .unary .., _ | .binary .., _ | .ternary .., _ | .fallback .., _ | .coalesce .., _
  | .assign .., _ => .same _

end Arrays

section Fields

variable {l : EachLoop} {i n : Nat} {scope scope' : Entries Value}

/-- So many rounds of the loop began, and it has so many elements. -/
structure Counted (l : EachLoop) (i n : Nat) (scope : Entries Value) : Prop where
  counter : Entries.get? scope (loopFieldName l.value "counter") = some (.int (Int64.ofNat i))
  total : Entries.get? scope (loopFieldName l.value "total") = some (.int (Int64.ofNat n))

theorem Counted.of_varied (h : Counted l i n scope)
    (hvaried : Varied (¬l.Counts ·) scope scope') : Counted l i n scope' where
  counter := (hvaried.get? fun hne => hne (.inl rfl)).trans h.counter
  total := (hvaried.get? fun hne => hne (.inr rfl)).trans h.total

theorem not_counts_field {f : String} (hf : f ∈ loopFieldNames) (hcounter : f ≠ "counter")
    (htotal : f ≠ "total") : ¬l.Counts (loopFieldName l.value f) := by
  rintro (h | h)
  · exact hcounter (loopFieldName_inj hf (by decide) h).2
  · exact htotal (loopFieldName_inj hf (by decide) h).2

theorem get?_insert_field {x f g : String} (v : Value) (hf : f ∈ loopFieldNames)
    (hg : g ∈ loopFieldNames) :
    Entries.get? (Entries.insert scope (loopFieldName x f) v) (loopFieldName x g) =
      if g = f then some v else Entries.get? scope (loopFieldName x g) := by
  split
  · rename_i h
    rw [h, Entries.get?_insert_self]
  · rename_i h
    rw [Entries.get?_insert_of_ne _ (loopFieldName_ne hg hf h)]

/-- The variables when the fields are set in the round for the element at `i`. -/
def fieldsSet (l : EachLoop) (i n : Nat) (scope : Entries Value) : Entries Value :=
  let set (scope : Entries Value) (field : String) (v : Value) :=
    Entries.insert scope (loopFieldName l.value field) v
  set (set (set (set (set scope "index" (.int (Int64.ofNat i)))
    "iteration" (.int (Int64.ofNat (i + 1)))) "first" (.bool (i = 0))) "last" (.bool (i + 1 = n)))
    "counter" (.int (Int64.ofNat (i + 1)))

theorem get?_fieldsSet (h : Counted l i n scope) (f : LoopField) :
    Entries.get? (fieldsSet l i n scope) (loopFieldName l.value f.name) = some (f.valueAt i n) := by
  have htotal := h.total
  cases f <;> simp (disch := decide) [fieldsSet, get?_insert_field, LoopField.name,
    LoopField.valueAt, htotal]

theorem counted_fieldsSet (h : Counted l i n scope) :
    Counted l (i + 1) n (fieldsSet l i n scope) where
  counter := by simp (disch := decide) [fieldsSet, get?_insert_field]
  total := get?_fieldsSet h .total

theorem get?_fieldsSet_of_length {name : String} (h : name.length ≤ l.value.length) :
    Entries.get? (fieldsSet l i n scope) name = Entries.get? scope name := by
  simp only [fieldsSet, Entries.get?_insert_of_ne _ (ne_loopFieldName_of_length h _)]

variable {runBody : List Stmt → Step m Flow}

theorem run_block_cons {stmt : Stmt} {rest : List Stmt}
    (h : run.run (execStmt host runBody stmt s) w = ((.ok .normal, t), w')) :
    run.run (execBlock host runBody (stmt :: rest) s) w =
      run.run (execBlock host runBody rest t) w' :=
  run_bind_of_ok run h

theorem run_fields [LawfulMonad m] (h : Counted l i n s.scope) (hi : i + 1 < 2 ^ 63) (hpos : 0 < n)
    (hn : n < 2 ^ 63) :
    run.run (execBlock host runBody l.fields s) w =
      ((.ok .normal, { s with scope := fieldsSet l i n s.scope }), w) := by
  have hset {scope : Entries Value} (hscope : Counted l i n scope) {f : String} (v : Value)
      (hf : f ∈ loopFieldNames) (hcounter : f ≠ "counter") (htotal : f ≠ "total") :
      Counted l i n (Entries.insert scope (loopFieldName l.value f) v) :=
    hscope.of_varied (.set v (not_counts_field hf hcounter htotal) .refl)
  have hcounter {t : State} (ht : Counted l i n t.scope) :
      run.run ((read host (l.field "counter")).value t) w = ((.ok (.int (Int64.ofNat i)), t), w) :=
    run_var ht.counter
  have hnext {t : State} (ht : Counted l i n t.scope) :
      run.run ((read host (.binary .add (l.field "counter") (.literal (.int 1)))).value t) w =
        ((.ok (.int (Int64.ofNat (i + 1))), t), w) :=
    run_binary .add nofun nofun (hcounter ht) (run_pure_ok run _ t w) (add_one hi)
  have hfirst {t : State} (ht : Counted l i n t.scope) :
      run.run ((read host (.binary .eq (l.field "counter") (.literal (.int 0)))).value t) w =
        ((.ok (.bool (i = 0)), t), w) :=
    run_binary .eq nofun nofun (hcounter ht) (run_pure_ok run _ t w)
      (eq_int (n := 0) (by omega) (by omega))
  have hlast {t : State} (ht : Counted l i n t.scope) :
      run.run ((read host (.binary .eq (l.field "counter")
        (.binary .sub (l.field "total") (.literal (.int 1))))).value t) w =
          ((.ok (.bool (i + 1 = n)), t), w) := by
    have hminus :
      run.run ((read host (.binary .sub (l.field "total") (.literal (.int 1)))).value t) w =
        ((.ok (.int (Int64.ofNat (n - 1))), t), w) :=
      run_binary .sub nofun nofun (run_var ht.total) (run_pure_ok run _ t w) (sub_one hpos hn)
    have heq : binary .eq (.int (Int64.ofNat i)) (.int (Int64.ofNat (n - 1))) =
        .ok (.bool (i + 1 = n)) := by
      rw [eq_int (by omega) (by omega), decide_eq_decide.mpr (show i = n - 1 ↔ i + 1 = n by omega)]
    exact run_binary .eq nofun nofun (hcounter ht) hminus heq
  -- None of these four is a count, so each is computed from the same counts.
  have h₁ := hset h (f := "index") (.int (Int64.ofNat i)) (by decide) (by decide) (by decide)
  have h₂ := hset h₁ (f := "iteration") (.int (Int64.ofNat (i + 1))) (by decide) (by decide)
    (by decide)
  have h₃ := hset h₂ (f := "first") (.bool (i = 0)) (by decide) (by decide) (by decide)
  have h₄ := hset h₃ (f := "last") (.bool (i + 1 = n)) (by decide) (by decide) (by decide)
  refine (run_block_cons (run_setField (hcounter h))).trans ?_
  refine (run_block_cons (run_setField (hnext h₁))).trans ?_
  refine (run_block_cons (run_setField (hfirst h₂))).trans ?_
  refine (run_block_cons (run_setField (hlast h₃))).trans ?_
  refine (run_block_cons (run_setField (hnext h₄))).trans ?_
  exact run_pure_ok run _ _ w

end Fields

section Entry

variable {l : EachLoop} {v : Value} {e : Expr} {n : Nat}

/-- A loop that leaves what it counts with alone: its subject assigns nothing and does not read it,
and neither its key nor what its body assigns, unsets and loops over is one of these variables. -/
structure SparesCount (l : EachLoop) : Prop where
  subject : l.subject.Each (Evaluates.Node (¬l.Counts ·) fun _ => False)
  key : ∀ k ∈ l.key, ¬l.Counts k
  body : AltersAll (¬l.Counts ·) l.body

/-- What is found at an expression. -/
def Bound (run : Runner m σ) (host : Host m) (e : Expr) (s : State) (w : σ) (v : Value) : Prop :=
  ∃ t w', run.run ((read host e).quiet s) w = ((.ok (some v), t), w')

theorem Steady.run_eq {V : String → Prop} {x : Step m α} {post : α → Prop} (h : Steady V x post)
    (run : Runner m σ) (s : State) : ∃ r added, ∀ t w, s.AgreesOff V t →
      run.run (x t) w = ((r, { t with calls := added ++ t.calls }), w) := by
  obtain ⟨r, added, -, hx⟩ := h s
  exact ⟨r, added, fun t w ht => by rw [hx t ht, run.run_pure]⟩

theorem length?_of_array (h : v.isArray = true) : v.length? = some (elements v).length := by
  cases v with
  | list => rfl
  | map entries => simp [Value.length?, elements, Entries.values]
  | _ => cases h

theorem truthy_of_array (h : v.isArray = true) : v.truthy = !(elements v).isEmpty := by
  cases v with
  | list => rfl
  | map entries => simp [Value.truthy, elements, Entries.values]
  | _ => cases h

/-- What a loop visits is the elements in their order. -/
theorem visits_elements (v : Value) : (visits v).map Prod.snd = elements v := by
  cases v with
  | list items =>
    simp only [visits, elements, List.map_map]
    exact List.zipIdx_map_fst 0 items
  | map entries => simp [visits, elements, Entries.values, Function.comp_def]
  | _ => rfl

theorem count_of_array (h : v.isArray = true) :
    count [v] = .ok (.int (Int64.ofNat (elements v).length)) := by
  have hlength := length?_of_array h
  cases v with
  | list | map =>
    simp only [count, argument, List.getD_cons_zero, hlength]
  | _ => cases h

theorem run_count [LawfulMonad m] (hcount : host.functions.get? "count" = some count)
    (h : run.run ((read host e).value s) w = ((.ok v, t), w')) (hv : v.isArray = true) :
    ∃ calls, run.run ((read host (.call "count" [e])).value s) w =
      ((.ok (.int (Int64.ofNat (elements v).length)), { t with calls }), w') := by
  refine ⟨⟨"count", [v], count [v]⟩ :: t.calls, ?_⟩
  have hvalues : run.run (valuesOf [read host e] s) w = ((.ok [v], t), w') :=
    (run_bind_of_ok run h).trans ((run_bind_of_ok run (run_pure_ok run _ t w')).trans
      (run_pure_ok run _ t w'))
  refine (run_bind_of_ok run hvalues).trans ?_
  unfold callFunction
  simp only [hcount]
  refine (run_bind_of_ok run (run_modify run _ t w')).trans ?_
  rw [count_of_array hv]
  exact run_pure_ok run _ _ w'

end Entry

end Run

end ViewTemplate
