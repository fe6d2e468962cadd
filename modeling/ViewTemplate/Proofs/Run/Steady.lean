import ViewTemplate.Proofs.Run.Effects

namespace ViewTemplate.Run

open Code

variable {m : Type → Type} [Monad m] {α β : Type} {host : Host m} {V : String → Prop}

/-- The same template is executed, and the variables outside of `V` are the same. -/
structure State.AgreesOff (V : String → Prop) (s t : State) : Prop where
  path : t.frame.path = s.frame.path
  get? (name : String) : ¬V name → Entries.get? t.scope name = Entries.get? s.scope name

theorem State.agreesOff_of_varied {s t : State} (hpath : t.frame.path = s.frame.path)
    (h : Varied V s.scope t.scope) : s.AgreesOff V t :=
  ⟨hpath, fun _ hname => h.get? hname⟩

/-- A step that only adds to the log, and does and answers the same whatever the variables in `V`
are. -/
def Steady (V : String → Prop) (x : Step m α) (post : α → Prop) : Prop :=
  ∀ s : State, ∃ r added, (∀ a, r = .ok a → post a) ∧
    ∀ t, s.AgreesOff V t → x t = pure (r, { t with calls := added ++ t.calls })

namespace Steady

variable {x : Step m α} {post : α → Prop}

theorem pure {a : α} (h : post a) : Steady V (pure a : Step m α) post := by
  refine fun s => ⟨.ok a, [], ?_, fun _ _ => rfl⟩
  rintro _ ⟨⟩
  exact h

theorem throw (e : Stop) : Steady V (throw e : Step m α) post :=
  fun _ => ⟨.error e, [], fun _ h => (nomatch h), fun _ _ => rfl⟩

variable [LawfulMonad m]

theorem bind {f : α → Step m β} {post' : β → Prop} (h : Steady V x post)
    (hf : ∀ a, post a → Steady V (f a) post') : Steady V (x >>= f) post' := by
  intro s
  obtain ⟨r, added, hpost, hx⟩ := h s
  cases r with
  | error e =>
    refine ⟨.error e, added, fun _ h => (nomatch h), fun t ht => ?_⟩
    rw [bind_run, hx t ht, pure_bind]
  | ok a =>
    obtain ⟨r, added', hpost', hb⟩ := hf a (hpost a rfl) s
    refine ⟨r, added' ++ added, hpost', fun t ht => ?_⟩
    rw [bind_run_of_ok (hx t ht), List.append_assoc]
    exact hb _ ⟨ht.path, ht.get?⟩

theorem look {f : State → Step m α} (hsame : ∀ s t : State, s.AgreesOff V t → f t = f s)
    (hf : ∀ s, Steady V (f s) post) : Steady V (get >>= f) post := by
  intro s
  obtain ⟨r, added, hpost, hrun⟩ := hf s s
  refine ⟨r, added, hpost, fun t ht => ?_⟩
  rw [bind_run_of_ok (get_run t), hsame s t ht]
  exact hrun t ht

theorem fail (fault : RenderFault) : Steady V (fail fault : Step m α) post := by
  refine look (fun s t h => ?_) fun _ => .throw _
  rw [h.path]

theorem callFunction (name : String) (args : List Value) :
    Steady V (callFunction host name args) fun _ => True := by
  unfold Run.callFunction
  split
  · exact .fail _
  · rename_i f _
    have hlog : Steady V (modify fun s => { s with calls := ⟨name, args, f args⟩ :: s.calls } :
        Step m Unit) fun _ => True :=
      fun s => ⟨.ok (), [⟨name, args, f args⟩], fun _ _ => trivial, fun _ _ => modify_run _ _⟩
    refine hlog.bind fun _ _ => ?_
    split
    · exact .pure trivial
    · exact .throw _
    · exact .fail _

end Steady

variable [LawfulMonad m]

theorem evaluates_steady : Evaluates host (¬V ·) (fun _ => False) (Steady V) where
  pure := .pure
  bind := .bind
  fail := .fail
  variableValue {name} hname := by
    refine .look (fun s t h => ?_) fun s => ?_
    · rw [h.get? name hname]
    · split
      · exact .pure trivial
      · unfold missing
        split
        · exact .fail _
        · exact .pure trivial
  variableQuiet {name} hname := by
    refine .look (fun s t h => ?_) fun s => .pure trivial
    rw [h.get? name hname]
  callFunction := .callFunction
  assign _ h := h.elim

/-- Variables that an expression does not read make no difference to it. -/
theorem read_steady {e : Expr} (h : e.Each (Evaluates.Node (¬V ·) fun _ => False)) :
    (read host e).Satisfies (Steady V) :=
  evaluates_steady.read h

end ViewTemplate.Run
