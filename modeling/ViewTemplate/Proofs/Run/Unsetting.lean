import ViewTemplate.Proofs.Run.Quiet
import ViewTemplate.Proofs.Value.Keys

namespace ViewTemplate

namespace Value

variable {c key : Value}

theorem entries_removeKey (hc : c.isArray = true) (hsize : c.entries.length < 2 ^ 63) :
    (c.removeKey key).entries = c.entries ∨
      ∃ k ∈ c.readKey? key, (c.removeKey key).entries = Entries.erase c.entries k := by
  cases c with
  | map es => exact .inr ⟨key.key, rfl, rfl⟩
  | list items =>
    have hlength : items.length < 2 ^ 63 := by simpa [entries, listEntries] using hsize
    by_cases hi : ∃ i, key.position? = some i ∧ i < items.length
    · obtain ⟨i, hp, hlt⟩ := hi
      rw [removeKey_of_element hp hlt]
      by_cases hfalse : key = .bool false
      · -- `false` names the first position, but no element is filed under its text
        left
        subst hfalse
        apply Entries.erase_of_not_mem
        rw [keys_listEntries, List.mem_map]
        rintro ⟨j, -, hj⟩
        exact empty_ne_toString j hj.symm
      · right
        refine ⟨toString i, ?_, ?_⟩
        · rw [readKey?, readPosition?_of_position? hp (by omega)]
          rfl
        · rw [namesItsText_of_ne hfalse i hp]
          rfl
    · left
      rw [removeKey_of_no_element hi]
  | _ => cases hc

/-- Behind the removal nothing is read under the key, unless a list is read under it and not
written. -/
theorem element?_removeKey (hc : c.isArray = true)
    (hread : ∀ items, c = .list items → key.Loose → c.element? key = none) :
    (c.removeKey key).element? key = none := by
  cases c with
  | map es => exact Entries.get?_erase_self es key.key
  | list items =>
    by_cases hi : ∃ i, key.position? = some i ∧ i < items.length
    · obtain ⟨i, hp, hlt⟩ := hi
      rw [removeKey_of_element hp hlt]
      exact Entries.get?_erase_self _ key.key
    · rw [removeKey_of_no_element hi]
      by_cases hloose : key.Loose
      · exact hread items rfl hloose
      · rw [element?_list]
        cases hposition : key.readPosition? with
        | none => rfl
        | some j =>
          have hp := position?_of_readPosition? hposition hloose
          exact List.getElem?_eq_none (Nat.not_lt.mp fun hlt => hi ⟨j, hp, hlt⟩)
  | _ => cases hc

theorem isArray_removeKey (hc : c.isArray = true) : (c.removeKey key).isArray = true := by
  cases c with
  | list items =>
    by_cases hi : ∃ i, key.position? = some i ∧ i < items.length
    · obtain ⟨i, hp, hlt⟩ := hi
      rw [removeKey_of_element hp hlt]
      rfl
    · rw [removeKey_of_no_element hi]
      rfl
  | map es => rfl
  | _ => cases hc

end Value

namespace Run

open Code

variable {m : Type → Type} [Monad m] {σ : Type} {run : Runner m σ} {host : Host m}
  {runBody : List Stmt → Step m Flow} {s t u : State} {w w' w'' : σ} {name : String} {e : Expr}
  {c key : Value}

theorem run_unset_index (hkey : run.run ((read host e).value s) w = ((.ok key, t), w'))
    (hname : Entries.get? t.scope name = some c) :
    run.run (execStmt host runBody (.unset [.index (.var name) e]) s) w =
      ((.ok .normal, { t with scope := Entries.insert t.scope name (c.removeKey key) }), w') := by
  have hplace : run.run (place host (.index (.var name) e) s) w =
      ((.ok ⟨name, [some key]⟩, t), w') :=
    (run_bind_of_ok run (run_pure_ok run _ s w)).trans
      ((run_bind_of_ok run hkey).trans (run_pure_ok run _ t w'))
  have hunset : run.run ((unset ⟨name, [some key]⟩ : Step m Unit) t) w' =
      ((.ok (), { t with scope := Entries.insert t.scope name (c.removeKey key) }), w') := by
    refine (run_modify run _ t w').trans ?_
    simp only [List.isEmpty_cons, Bool.false_eq_true, if_false, hname]
    rfl
  have hall : run.run (unsetAll (places host [.index (.var name) e]) s) w =
      ((.ok (), { t with scope := Entries.insert t.scope name (c.removeKey key) }), w') :=
    (run_bind_of_ok run hplace).trans ((run_bind_of_ok run hunset).trans (run_pure_ok run _ _ w'))
  exact (run_bind_of_ok run hall).trans (run_pure_ok run _ _ w')

theorem run_isset_index (hname : Entries.get? s.scope name = some c) (hc : c.isArray = true)
    (helement : c.element? key = none)
    (hkey : run.run ((read host e).value s) w = ((.ok key, u), w'')) :
    run.run ((read host (Expr.isset (.index (.var name) e))).value s) w =
      ((.ok (.bool false), u), w'') := by
  have hvar : run.run ((readVariable host name).quiet s) w =
      ((.ok (Entries.get? s.scope name), s), w) := quiet_readVariable host name s w
  rw [hname] at hvar
  have hsubscript : subscript? c key = none := by
    cases c with
    | string text => cases hc
    | _ => exact helement
  exact run_isset (run_index_quiet (a := .var name) hvar hkey hsubscript)

/-- Unsetting an element succeeds and takes at most the entry that was read under the key; the
others stay with their values and in their order. Behind it the key is not set, unless a list has an
element that is read under the key and not written under it. (An array in memory has fewer than `2 ^
63` entries.) -/
theorem unset_removes (run : Runner m σ) (host : Host m) (runBody : List Stmt → Step m Flow)
    (hkey : run.run ((read host e).value s) w = ((.ok key, t), w'))
    (hname : Entries.get? t.scope name = some c) (hc : c.isArray = true)
    (hsize : c.entries.length < 2 ^ 63) :
    ∃ d s', s' = { t with scope := Entries.insert t.scope name d } ∧
      run.run (execStmt host runBody (.unset [.index (.var name) e]) s) w =
        ((.ok .normal, s'), w') ∧
      (d.entries = c.entries ∨ ∃ k ∈ c.readKey? key, d.entries = Entries.erase c.entries k) ∧
      ((∀ items, c = .list items → key.Loose → c.element? key = none) → ∀ w₁ u w₂,
        run.run ((read host e).value s') w₁ = ((.ok key, u), w₂) →
        run.run ((read host (Expr.isset (.index (.var name) e))).value s') w₁ =
          ((.ok (.bool false), u), w₂)) := by
  refine ⟨c.removeKey key, _, rfl, run_unset_index hkey hname, Value.entries_removeKey hc hsize, ?_⟩
  -- the key is evaluated once more, in the state behind the removal
  intro hread w₁ u w₂ hagain
  have hgone : Entries.get? (Entries.insert t.scope name (c.removeKey key)) name =
      some (c.removeKey key) := Entries.get?_insert_self _ _ _
  exact run_isset_index hgone (Value.isArray_removeKey hc)
    (Value.element?_removeKey hc hread) hagain

/-- The text of a position takes the element from a list. -/
theorem unset_removes_of_text :
    let host : Host (StateM Nat) := ⟨builtins, loadNothing, true, 8, 100⟩
    let e : Expr := .var "k"
    let s : State := ⟨[("a", .list [.string "x", .string "y"]), ("k", .string "1")], "",
      ⟨⟨"page"⟩, 0, 0⟩, []⟩
    let s' : State := { s with scope := [("a", .map [("0", .string "x")]), ("k", .string "1")] }
    (Runner.ofState Nat).run
    (execStmt host (fun _ => pure .normal) (.unset [.index (.var "a") e]) s) 0 =
        ((.ok .normal, s'), 0) ∧
      (Runner.ofState Nat).run ((read host (Expr.isset (.index (.var "a") e))).value s') 0 =
        ((.ok (.bool false), s'), 0) := by
  intro host e s s'
  have hkey : (Runner.ofState Nat).run ((read host e).value s) 0 = ((.ok (.string "1"), s), 0) :=
    rfl
  -- The key is the text of the position that it is read as.
  have hread : ¬(Value.string "1").Loose := by
    rintro (h | ⟨text, i, htext, hi, hne⟩)
    · cases h
    · cases htext
      have hone : (Value.string "1").readPosition? = some 1 := by cbv
      rw [hone] at hi
      cases hi
      exact hne rfl
  have hname : Entries.get? s.scope "a" = some (.list [.string "x", .string "y"]) := rfl
  obtain ⟨d, u, hu, hunset, -, hisset⟩ := unset_removes (Runner.ofState Nat) host
    (fun _ => pure .normal) hkey hname rfl (by decide)
  have hrun : (Runner.ofState Nat).run
      (execStmt host (fun _ => pure .normal) (.unset [.index (.var "a") e]) s) 0 =
        ((.ok .normal, s'), 0) := by rfl
  rw [hrun] at hunset
  cases hunset
  exact ⟨hrun, hisset (fun _ _ hloose => absurd hloose hread) 0 s' 0 rfl⟩

/-- Null and `"01"` are read as positions of a list, and what is read there stays. -/
theorem not_unset_removes :
    let host : Host (StateM Nat) := ⟨builtins, loadNothing, false, 8, 100⟩
    let s : State := ⟨[("a", .list [.string "x", .string "y"])], "", ⟨⟨"page"⟩, 0, 0⟩, []⟩
    ∀ key ∈ [Value.null, Value.string "01"],
      let place : Expr := .index (.var "a") (.literal key)
      (Runner.ofState Nat).run (execStmt host (fun _ => pure .normal) (.unset [place]) s) 0 =
          ((.ok .normal, s), 0) ∧
        (Runner.ofState Nat).run ((read host (Expr.isset place)).value s) 0 =
          ((.ok (.bool true), s), 0) := by
  intro host s key hkey place
  simp only [List.mem_cons, List.not_mem_nil, or_false] at hkey
  obtain rfl | rfl := hkey
  · exact ⟨by rfl, by rfl⟩
  · exact ⟨by rfl, by cbv⟩

end Run

end ViewTemplate
