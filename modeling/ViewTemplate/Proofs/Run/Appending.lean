import ViewTemplate.Proofs.Run.Assigning
import ViewTemplate.Proofs.Value.NextKey

namespace ViewTemplate

open Code

namespace Value

variable {items : List Value} {es : Entries Value} {c d v : Value} {key : Option Value}
    {f : Value → Except ScalarAsArray Value}

theorem holdsEntries_of_modifyEntry (h : modifyEntry es key f = .ok d) : d.holdsEntries := by
  obtain ⟨x, -, hd⟩ := exists_of_bind_eq_ok h
  cases hd
  trivial

theorem holdsEntries_of_modifyItem (h : modifyItem items key f = .ok d) : d.holdsEntries := by
  unfold modifyItem at h
  dsimp only at h
  split at h
  · split at h
    · obtain ⟨x, -, hd⟩ := exists_of_bind_eq_ok h
      cases hd
      trivial
    · split at h
      · obtain ⟨x, -, hd⟩ := exists_of_bind_eq_ok h
        cases hd
        trivial
      · exact holdsEntries_of_modifyEntry h
  · exact holdsEntries_of_modifyEntry h

theorem holdsEntries_of_put (h : c.put key v = .ok d) : d.holdsEntries := by
  cases c with
  | null => exact holdsEntries_of_modifyItem h
  | list items => exact holdsEntries_of_modifyItem h
  | map es => exact holdsEntries_of_modifyEntry h
  | _ => cases h

end Value

namespace Run

variable {m : Type → Type} [Monad m] {σ : Type} {run : Runner m σ} {host : Host m}
  {s t u : State} {w w' w'' : σ} {a c d : Value} {xs ys : List (Option (Reading m) × Reading m)}

def keyOf : Option (Reading m) → Step m (Option Value)
  | some r => some <$> r.value
  | none => pure none

theorem fill_cons (key : Option (Reading m)) (r : Reading m)
    (xs : List (Option (Reading m) × Reading m)) (a : Value) :
    fill ((key, r) :: xs) a = (do
      let k ← keyOf key
      let v ← r.value
      match a.put k v with
      | .ok d => fill xs d
      | .error e => fail (.scalarAsArray e.typeName)) := by
  cases key <;> rfl

theorem run_fill_cons {key : Option (Reading m)} {r : Reading m} :
    run.run (fill ((key, r) :: xs) a s) w = ((.ok c, t), w') ↔
      ∃ k u w₁ v u' w₂ d, run.run (keyOf key s) w = ((.ok k, u), w₁) ∧
        run.run (r.value u) w₁ = ((.ok v, u'), w₂) ∧ a.put k v = .ok d ∧
        run.run (fill xs d u') w₂ = ((.ok c, t), w') := by
  rw [fill_cons, bind_ok_iff]
  refine exists_congr fun k => exists_congr fun u => exists_congr fun w₁ => ?_
  rw [bind_ok_iff]
  constructor
  · rintro ⟨hkey, v, u', w₂, hv, hrest⟩
    cases hput : a.put k v with
    | ok d =>
      rw [hput] at hrest
      exact ⟨v, u', w₂, d, hkey, hv, hput, hrest⟩
    | error e =>
      rw [hput] at hrest
      cases (run_fail _ u' w₂).symm.trans hrest
  · rintro ⟨v, u', w₂, d, hkey, hv, hput, hrest⟩
    refine ⟨hkey, v, u', w₂, hv, ?_⟩
    rw [hput]
    exact hrest

theorem run_fill_append (h : run.run (fill xs a s) w = ((.ok c, t), w'))
    (hmore : run.run (fill ys c t) w' = ((.ok d, u), w'')) :
    run.run (fill (xs ++ ys) a s) w = ((.ok d, u), w'') := by
  induction xs generalizing a s w with
  | nil =>
    cases (run_pure_ok run a s w).symm.trans h
    exact hmore
  | cons x xs ih =>
    obtain ⟨_, _, _, _, _, _, _, hkey, hv, hput, hrest⟩ := run_fill_cons.mp h
    exact run_fill_cons.mpr ⟨_, _, _, _, _, _, _, hkey, hv, hput, ih hrest⟩

theorem holdsEntries_of_fill (ha : a.holdsEntries)
    (h : run.run (fill xs a s) w = ((.ok c, t), w')) : c.holdsEntries := by
  induction xs generalizing a s w with
  | nil => exact pure_ok h ▸ ha
  | cons x xs ih =>
    obtain ⟨_, _, _, _, _, _, d, -, -, hput, hrest⟩ := run_fill_cons.mp h
    exact ih (Value.holdsEntries_of_put hput) hrest

theorem readItems_append (items more : List Item) :
    readItems host (items ++ more) = readItems host items ++ readItems host more := by
  induction items with
  | nil => rfl
  | cons item items ih =>
    cases item <;> rw [List.cons_append, readItems, ih, readItems, List.cons_append]

/-- Appending never overwrites, unless a map has the last key: `$name[] = e` succeeds for a variable
that holds an array or null, and so does an entry without key behind other entries of a literal. -/
theorem append_adds_entry (run : Runner m σ) (host : Host m) :
    (∀ {name e s w v t w'}, run.run ((read host e).value s) w = ((.ok v, t), w') →
      ((Entries.get? t.scope name).getD .null).holdsEntries →
        ∃ d, ((Entries.get? t.scope name).getD .null).Appended v d ∧
          run.run ((read host (.assign (.append (.var name)) e)).value s) w =
            ((.ok v, { t with scope := Entries.insert t.scope name d }), w')) ∧
      ∀ {items e s w c t w' v u w''},
        run.run ((read host (.array items)).value s) w = ((.ok c, t), w') →
        run.run ((read host e).value t) w' = ((.ok v, u), w'') →
          ∃ d, c.Appended v d ∧
            run.run ((read host (.array (items ++ [.value e]))).value s) w = ((.ok d, u), w'') := by
  constructor
  · intro name e s w v t w' hvalue hc
    obtain ⟨d, hput, hd⟩ := Value.exists_put_none hc v
    have hplace : run.run (place host (.append (.var name)) t) w' = ((.ok ⟨name, [none]⟩, t), w') :=
      (run_bind_of_ok run (run_pure_ok run _ t w')).trans (run_pure_ok run _ t w')
    exact ⟨d, hd, run_assign_place hvalue hplace hput⟩
  · intro items e s w c t w' v u w'' hitems hvalue
    have hempty : (Value.list []).holdsEntries := trivial
    have hc : c.holdsEntries := holdsEntries_of_fill hempty hitems
    obtain ⟨d, hput, hd⟩ := Value.exists_put_none hc v
    have hkey : run.run ((keyOf none : Step m (Option Value)) t) w' = ((.ok none, t), w') :=
      run_pure_ok run none t w'
    -- The new entry is put behind the array that the others have filled.
    have hlast : run.run (fill (readItems host [.value e]) c t) w' = ((.ok d, u), w'') :=
      run_fill_cons.mpr ⟨none, t, w', v, u, w'', d, hkey, hvalue, hput, run_pure_ok run d u w''⟩
    refine ⟨d, hd, ?_⟩
    show run.run (fill (readItems host (items ++ [.value e])) (.list []) s) w = _
    rw [readItems_append]
    exact run_fill_append hitems hlast

/-- Behind a key that reads as an integer, and behind a negative one in a literal. -/
theorem append_adds_entry_of_signs :
    let host : Host (StateM Nat) := ⟨builtins, loadNothing, true, 8, 100⟩
    let c : Value := .map [("k", .null), ("+7", .null)]
    let s : State := ⟨[("a", c)], "", ⟨⟨"page"⟩, 0, 0⟩, []⟩
    let e : Expr := .literal (.bool true)
    let items : List Item := [.keyed (.literal (.string "-5")) (.literal .null)]
    (∃ d k, k ∉ ["k", "+7"] ∧ d.entries = c.entries ++ [(k, .bool true)] ∧
      (Runner.ofState Nat).run ((read host (.assign (.append (.var "a")) e)).value s) 0 =
        ((.ok (.bool true), { s with scope := [("a", d)] }), 0)) ∧
      ∃ d k, k ∉ ["-5"] ∧ d.entries = [("-5", .null), (k, .bool true)] ∧
        (Runner.ofState Nat).run ((read host (.array (items ++ [.value e]))).value s) 0 =
          ((.ok d, s), 0) := by
  intro host c s e items
  have he : (Runner.ofState Nat).run ((read host e).value s) 0 = ((.ok (.bool true), s), 0) := rfl
  have hitems : (Runner.ofState Nat).run ((read host (.array items)).value s) 0 =
      ((.ok (.map [("-5", .null)]), s), 0) := rfl
  have hc : ((Entries.get? s.scope "a").getD .null).holdsEntries := trivial
  obtain ⟨hassign, hliteral⟩ := append_adds_entry (Runner.ofState Nat) host
  constructor
  · obtain ⟨d, hd, hrun⟩ := hassign he hc
    obtain ⟨k, hk, hentries⟩ := hd.grows fun es h => by cases h; decide
    exact ⟨d, k, hk, hentries, hrun⟩
  · obtain ⟨d, hd, hrun⟩ := hliteral hitems he
    obtain ⟨k, hk, hentries⟩ := hd.grows fun es h => by cases h; decide
    exact ⟨d, k, hk, hentries, hrun⟩

/-- The entry under the last key is overwritten. -/
theorem not_append_adds_entry :
    let host : Host (StateM Nat) := ⟨builtins, loadNothing, false, 8, 100⟩
    let c : Value := .map [("9223372036854775807", .string "x")]
    let d : Value := .map [("9223372036854775807", .string "y")]
    let s : State := ⟨[("a", c)], "", ⟨⟨"page"⟩, 0, 0⟩, []⟩
    (Runner.ofState Nat).run
        ((read host (.assign (.append (.var "a")) (.literal (.string "y")))).value s) 0 =
      ((.ok (.string "y"), { s with scope := [("a", d)] }), 0) ∧
      ¬∃ k, d.entries = c.entries ++ [(k, .string "y")] := by
  intro host c d s
  refine ⟨by rfl, ?_⟩
  rintro ⟨k, hk⟩
  have hlength := congrArg List.length hk
  cases hlength

end Run

end ViewTemplate
