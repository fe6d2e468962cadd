import ViewTemplate.Run.Exec

namespace ViewTemplate.Run

variable {m : Type → Type} [Monad m] {α β : Type}

theorem pure_run (a : α) (s : State) : (pure a : Step m α) s = pure (.ok a, s) := rfl

theorem throw_run (e : Stop) (s : State) : (throw e : Step m α) s = pure (.error e, s) := rfl

theorem bind_run (x : Step m α) (f : α → Step m β) (s : State) :
    (x >>= f) s = x s >>= fun p => match p with
      | (.ok a, t) => f a t
      | (.error e, t) => pure (.error e, t) := by
  simp only [bind, ExceptT.bind, ExceptT.mk, ExceptT.bindCont, StateT.bind]
  congr 1
  funext p
  obtain ⟨r, t⟩ := p
  cases r <;> rfl

variable [LawfulMonad m]

theorem modify_run (f : State → State) (s : State) :
    (modify f : Step m Unit) s = pure (.ok (), f s) := by
  show (pure ((), f s) >>= fun p => pure (Except.ok p.1, p.2) : m (Except Stop Unit × State)) = _
  rw [pure_bind]

theorem get_run (s : State) : (get : Step m State) s = pure (.ok s, s) := by
  show (pure (s, s) >>= fun p => pure (Except.ok p.1, p.2) : m (Except Stop State × State)) = _
  rw [pure_bind]

theorem lift_run (x : m α) (s : State) :
    (ExceptT.lift (StateT.lift x) : Step m α) s = x >>= fun a => pure (.ok a, s) := by
  show ((x >>= fun a => pure (a, s)) >>= fun p => pure (Except.ok p.1, p.2) :
    m (Except Stop α × State)) = _
  rw [bind_assoc]
  simp only [pure_bind]

theorem bind_run_of_ok {x : Step m α} {f : α → Step m β} {s t : State} {a : α}
    (h : x s = pure (.ok a, t)) : (x >>= f) s = f a t := by
  rw [bind_run, h, pure_bind]

theorem discard_eq (x : Step m α) : discard x = x >>= fun _ => pure () := by
  rw [discard, map_const, Function.comp, map_eq_pure_bind]

end ViewTemplate.Run
