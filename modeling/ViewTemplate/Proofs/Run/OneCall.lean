import ViewTemplate.Proofs.Directive.BareWords
import ViewTemplate.Proofs.Run.Points
import ViewTemplate.Proofs.Value.ArrayEntries

namespace ViewTemplate

theorem Text.lowerAscii_lowerAscii (s : String) : lowerAscii (lowerAscii s) = lowerAscii s := by
  rw [lowerAscii, lowerAscii, String.toList_ofList, List.map_map]
  exact congrArg (fun f => String.ofList (s.toList.map f)) (funext Char.toLower_toLower_eq_toLower)

namespace Value

variable {key : String} {es : Entries Value}

theorem put_map (h : key ∉ Entries.keys es) (v : Value) :
    put (.map es) (some (.string key)) v = .ok (.map (es ++ [(key, v)])) := by
  rw [← Entries.insert_of_not_mem h]
  rfl

/-- An empty array becomes a map by a key that is no position. -/
theorem put_empty (h : indexText? key = none) (v : Value) :
    put (.list []) (some (.string key)) v = .ok (.map [(key, v)]) := by
  have hposition : listPosition [] (some (.string key)) = none := h
  exact modifyItem_of_no_position hposition

end Value

namespace Run

open Code

variable {m : Type → Type} [Monad m] {host : Host m}

def entryItem (p : String × Value) : Item := .keyed (.literal (.string p.1)) (.literal p.2)

theorem fill_entry [LawfulMonad m] {a b : Value} {p : String × Value} {rest : List Item}
    (h : a.put (some (.string p.1)) p.2 = .ok b) :
    fill (readItems host (entryItem p :: rest)) a = fill (readItems host rest) b := by
  have hkey : (read host (.literal (.string p.1))).value = pure (.string p.1) := rfl
  have hvalue : (read host (.literal p.2)).value = pure p.2 := rfl
  rw [entryItem, readItems, fill]
  simp only [hkey, hvalue, map_pure, pure_bind, h]

theorem fill_map [LawfulMonad m] (pairs : Entries Value) : ∀ es : Entries Value,
    (Entries.keys (es ++ pairs)).Nodup →
    fill (readItems host (pairs.map entryItem)) (.map es) = pure (.map (es ++ pairs)) := by
  induction pairs with
  | nil =>
    intro es _
    rw [List.append_nil]
    rfl
  | cons p pairs ih =>
    intro es hkeys
    -- The keys are distinct, so each entry goes behind those before it.
    have hnew : p.1 ∉ Entries.keys es := by
      intro hmem
      rw [Entries.keys, List.map_append, List.nodup_append] at hkeys
      exact hkeys.2.2 _ hmem _ List.mem_cons_self rfl
    rw [List.append_cons] at hkeys ⊢
    rw [List.map_cons, fill_entry (Value.put_map hnew p.2)]
    exact ih _ hkeys

theorem hasValue_array {pairs : Entries Value} (hne : pairs ≠ [])
    (hindex : ∀ key ∈ Entries.keys pairs, Value.indexText? key = none)
    (hkeys : (Entries.keys pairs).Nodup) :
    HasValue (.array (pairs.map entryItem)) (.map pairs) := by
  intro m _ _ host
  obtain ⟨p, pairs, rfl⟩ := List.exists_cons_of_ne_nil hne
  show fill (readItems host ((p :: pairs).map entryItem)) (.list []) = _
  rw [List.map_cons, fill_entry (Value.put_empty (hindex p.1 List.mem_cons_self) p.2)]
  exact fill_map pairs [p] hkeys

def answer (path : Path) (name : String) : Except FunctionError Value → Except Stop Value
  | .ok v => .ok v
  | .error (.exit output) => .error (.failed (.earlyExit output))
  | .error (.failed message) => .error (.failed (.render path (.function name message)))

variable [LawfulMonad m] {e : Expr} {v : Value} {name : String} {f : Function}

theorem callFunction_run (hf : host.functions.get? name = some f) (args : List Value) (s : State) :
    callFunction host name args s =
      pure (answer s.frame.path name (f args),
        { s with calls := ⟨name, args, f args⟩ :: s.calls }) := by
  rw [callFunction, hf]
  refine (bind_run_of_ok (modify_run _ s)).trans ?_
  rcases f args with (message | output) | v
  · exact (bind_run_of_ok (get_run _)).trans (throw_run _ _)
  · exact throw_run _ _
  · exact pure_run _ _

theorem execute_call (hname : name ∉ ["isset", "empty"]) (hf : host.functions.get? name = some f)
    (he : HasValue e v) (scope : Entries Value) (path : Path) :
    execute host scope ⟨[.echo [.call name [e]]]⟩ path =
      pure ⟨(answer path name (f [v])).map Value.output, [⟨name, [v], f [v]⟩]⟩ := by
  have hargs : valuesOf (readAll host [e]) = (pure [v] : Step m (List Value)) := by
    rw [readAll, readAll, valuesOf, valuesOf, he m host]
    simp only [pure_bind]
  have hcall : (read host (.call name [e])).value = callFunction host name [v] := by
    simp only [List.mem_cons, List.not_mem_nil, or_false, not_or] at hname
    show call host name (readAll host [e]) = _
    unfold call
    rw [if_neg hname.1, if_neg hname.2, hargs, pure_bind]
  have hrun := callFunction_run hf [v] ⟨scope, "", ⟨path, 0, 0⟩, []⟩
  have hblock : execBody host host.maxIncludeDepth [.echo [.call name [e]]] = do
      write (← callFunction host name [v]).output
      return .normal := by
    rw [execBody_eq, execBlock, execStmt, readAll, readAll, echo, echo, hcall]
    simp only [bind_assoc, pure_bind]
    rfl
  rw [execute, hblock, bind_run, hrun, pure_bind]
  cases answer path name (f [v]) with
  | error stop => exact pure_bind _ _
  | ok a =>
    have hwrite : ∀ t : State, (do write a.output; return .normal : Step m Flow) t =
        pure (.ok .normal, { t with output := t.output ++ a.output }) :=
      fun t => (bind_run_of_ok (modify_run _ t)).trans (pure_run _ _)
    simp only [hwrite, pure_bind, String.empty_append]
    rfl

end Run

end ViewTemplate
