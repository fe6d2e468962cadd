import ViewTemplate.Proofs.Run.Looser
import ViewTemplate.Proofs.Value.StoredPath

namespace ViewTemplate.Run

open Code

variable {m : Type → Type} [Monad m] {σ α : Type} {run : Runner m σ} {host : Host m}
  {s t u : State} {w w' w'' : σ} {target value : Expr} {v new : Value} {p : Place}

theorem run_fail (fault : RenderFault) (s : State) (w : σ) :
    run.run ((fail fault : Step m α) s) w =
      ((.error (.failed (.render s.frame.path fault)), s), w) := by
  refine (run_bind_of_ok run (get_ok run)).trans ?_
  rw [throw_run, run.run_pure]

/-- The value comes first, and then the keys of the place. -/
theorem run_assign_place (hvalue : run.run ((read host value).value s) w = ((.ok v, t), w'))
    (hplace : run.run (place host target t) w' = ((.ok p, u), w''))
    (hstore : Value.store v p.path ((Entries.get? u.scope p.root).getD .null) = .ok new) :
    run.run ((read host (.assign target value)).value s) w =
      ((.ok v, { u with scope := Entries.insert u.scope p.root new }), w'') := by
  have hassign : run.run (assign p v u) w'' =
      ((.ok (), { u with scope := Entries.insert u.scope p.root new }), w'') := by
    refine (run_bind_of_ok run (get_ok run)).trans ?_
    rw [hstore]
    exact run_modify run _ u w''
  refine (run_bind_of_ok run hvalue).trans ((run_bind_of_ok run hplace).trans ?_)
  exact (run_bind_of_ok run hassign).trans (run_pure_ok run v _ w'')

theorem run_assign_scalar {e : Value.ScalarAsArray}
    (hvalue : run.run ((read host value).value s) w = ((.ok v, t), w'))
    (hplace : run.run (place host target t) w' = ((.ok p, u), w''))
    (hstore : Value.store v p.path ((Entries.get? u.scope p.root).getD .null) = .error e) :
    run.run ((read host (.assign target value)).value s) w =
      ((.error (.failed (.render u.frame.path (.scalarAsArray e.typeName))), u), w'') := by
  have hassign : run.run (assign p v u) w'' =
      ((.error (.failed (.render u.frame.path (.scalarAsArray e.typeName))), u), w'') := by
    refine (run_bind_of_ok run (get_ok run)).trans ?_
    rw [hstore]
    exact run_fail _ u w''
  refine (run_bind_of_ok run hvalue).trans ((run_bind_of_ok run hplace).trans ?_)
  exact run_bind_of_error run hassign

theorem run_assign {name : String} (h : run.run ((read host value).value s) w = ((.ok v, t), w')) :
    run.run ((read host (.assign (.var name) value)).value s) w =
      ((.ok v, { t with scope := Entries.insert t.scope name v }), w') := by
  have hplace : run.run (place host (.var name) t) w' = ((.ok ⟨name, []⟩, t), w') :=
    run_pure_ok run _ t w'
  exact run_assign_place h hplace rfl

/-- The assignment of a value to a place that has no appends either succeeds, and behind it the
value is read along the keys and every other variable is as it was; or it fails at a value that is
no array and that the first keys lead to. (An array in memory has fewer than `2 ^ 63` elements.) -/
theorem assign_reads_back (run : Runner m σ) (host : Host m) {root : String} {keys : List Value}
    (hvalue : run.run ((read host value).value s) w = ((.ok v, t), w'))
    (hplace : run.run (place host target t) w' = ((.ok ⟨root, keys.map some⟩, u), w''))
    (hshort : ((Entries.get? u.scope root).getD .null).ShortLists) :
    (∃ new u', run.run ((read host (.assign target value)).value s) w = ((.ok v, u'), w'') ∧
        u' = { u with scope := Entries.insert u.scope root new } ∧
        Entries.get? u'.scope root = some new ∧ keys.foldlM Value.element? new = some v ∧
        ∀ other, other ≠ root → Entries.get? u'.scope other = Entries.get? u.scope other) ∨
      ∃ before key after x, keys = before ++ key :: after ∧
        before.foldlM Value.found? ((Entries.get? u.scope root).getD .null) = some x ∧
        x.typeName ∈ ["bool", "int", "float", "string"] ∧
        (run.run ((read host (.assign target value)).value s) w).1.1 =
          .error (.failed (.render u.frame.path (.scalarAsArray x.typeName))) := by
  obtain ⟨new, hstore, hread⟩ | ⟨before, key, after, x, hkeys, hx, hscalar, hstore⟩ :=
    Value.store_keys v keys hshort
  · left
    refine ⟨new, _, run_assign_place hvalue hplace hstore, rfl, Entries.get?_insert_self _ _ _,
      hread, ?_⟩
    intro other hother
    exact Entries.get?_insert_of_ne _ hother _
  · right
    refine ⟨before, key, after, x, hkeys, hx, ?_, ?_⟩
    · cases x with
      | null | list | map => exact absurd trivial hscalar
      | bool | int | float | string => simp [Value.typeName]
    · rw [run_assign_scalar hvalue hplace hstore]

/-- A key that is no position turns the list into a map, and a double is cut. -/
theorem assign_reads_back_of_text :
    let host : Host (StateM Nat) := ⟨builtins, loadNothing, true, 8, 100⟩
    let target : Expr :=
      .index (.index (.var "a") (.literal (.string "01"))) (.literal (.float 1.5))
    let s : State := ⟨[("a", .list [.string "x"]), ("b", .null)], "", ⟨⟨"page"⟩, 0, 0⟩, []⟩
    ∃ new u, (Runner.ofState Nat).run ((read host (.assign target (.var "b"))).value s) 0 =
        ((.ok .null, u), 0) ∧
      Entries.get? u.scope "a" = some new ∧
      [.string "01", .float 1.5].foldlM Value.element? new = some .null ∧
      Entries.get? u.scope "b" = some .null := by
  intro host target s
  have hshort : (Value.list [.string "x"]).ShortLists := by
    refine .intro (fun items h => ?_) fun p hp => ?_
    · cases h
      decide
    · cases List.mem_singleton.mp hp
      exact .intro (fun _ h => nomatch h) (List.forall_mem_nil _)
  have hvalue : (Runner.ofState Nat).run ((read host (.var "b")).value s) 0 = ((.ok .null, s), 0) :=
    rfl
  have hplace : (Runner.ofState Nat).run (place host target s) 0 =
      ((.ok ⟨"a", [.string "01", .float 1.5].map some⟩, s), 0) := rfl
  obtain ⟨new, u, hrun, -, hnew, hread, hothers⟩ | ⟨before, key, after, x, -, -, -, herror⟩ :=
    assign_reads_back (Runner.ofState Nat) host hvalue hplace hshort
  · exact ⟨new, u, hrun, hnew, hread, hothers "b" (by decide)⟩
  · cases herror

/-- Under a double nothing is read in a list, but a write comes upon the element it is cut to. -/
theorem not_assign_reads_back :
    let host : Host (StateM Nat) := ⟨builtins, loadNothing, false, 8, 100⟩
    let target : Expr := .index (.index (.var "a") (.literal (.float 0.5))) (.literal (.int 1))
    let s : State := ⟨[("a", .list [.string "x"])], "", ⟨⟨"page"⟩, 0, 0⟩, []⟩
    ((Runner.ofState Nat).run
      ((read host (.assign target (.literal (.string "y")))).value s) 0).1.1 =
        .error (.failed (.render ⟨"page"⟩ (.scalarAsArray "string"))) ∧
      ∀ before key after x, [.float 0.5, .int 1] = before ++ key :: after →
        before.foldlM Value.element? (.list [.string "x"]) = some x → x.typeName = "array" := by
  intro host target s
  refine ⟨by rfl, fun before key after x hkeys hx => ?_⟩
  match before with
  | [] =>
    cases hx
    rfl
  | [_] =>
    cases hkeys
    cases hx
  | _ :: _ :: before =>
    have hlength := congrArg List.length hkeys
    simp at hlength

end ViewTemplate.Run
