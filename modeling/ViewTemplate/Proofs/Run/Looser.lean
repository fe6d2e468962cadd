import ViewTemplate.Proofs.Files.Running
import ViewTemplate.Proofs.Run.Related

namespace ViewTemplate.Run

open Code

/-- How what loads includes runs from a state of its own. -/
structure Runner (m : Type → Type) (σ : Type) [Monad m] where
  run : {α : Type} → m α → σ → α × σ
  run_pure {α : Type} (a : α) (w : σ) : run (pure a) w = (a, w)
  run_bind {α β : Type} (x : m α) (f : α → m β) (w : σ) :
    run (x >>= f) w = run (f (run x w).1) (run x w).2

/-- Loaders with a state. -/
def Runner.ofState (σ : Type) : Runner (StateM σ) σ :=
  ⟨fun x w => x w, fun _ _ => rfl, fun _ _ _ => rfl⟩

/-- Loaders that work on files. -/
def Runner.onStore : Runner Job Store :=
  ⟨fun j s => j.run s, fun _ _ => rfl, fun j f _ => j.run_bind f⟩

variable {m : Type → Type} [Monad m] {σ α β : Type} (run : Runner m σ)

section Success

variable {x : Step m α} {s t : State} {w w' : σ}

theorem bind_ok_iff {f : α → Step m β} {b : β} :
    run.run ((x >>= f) s) w = ((.ok b, t), w') ↔
      ∃ a u v, run.run (x s) w = ((.ok a, u), v) ∧ run.run (f a u) v = ((.ok b, t), w') := by
  rw [bind_run, run.run_bind]
  obtain ⟨⟨r, u⟩, v⟩ := run.run (x s) w
  cases r with
  | error e =>
    rw [run.run_pure]
    grind
  | ok a => grind

theorem run_pure_ok (a : α) (s : State) (w : σ) :
    run.run ((pure a : Step m α) s) w = ((.ok a, s), w) :=
  run.run_pure _ _

variable {run} in
theorem pure_ok {a b : α} (h : run.run ((pure a : Step m α) s) w = ((.ok b, t), w')) : a = b := by
  rw [pure_run, run.run_pure] at h
  cases h
  rfl

theorem run_bind_of_ok {f : α → Step m β} {a : α} (h : run.run (x s) w = ((.ok a, t), w')) :
    run.run ((x >>= f) s) w = run.run (f a t) w' := by
  rw [bind_run, run.run_bind, h]

theorem run_bind_of_error {f : α → Step m β} {e : Stop}
    (h : run.run (x s) w = ((.error e, t), w')) :
    run.run ((x >>= f) s) w = ((.error e, t), w') := by
  rw [bind_run, run.run_bind, h, run.run_pure]

theorem run_within (enter : Frame → Frame) (back : Frame → Frame → Frame) (x : Step m α) (s : State)
    (w : σ) :
    run.run (within enter back x s) w =
      let ((r, t), w') := run.run (x { s with frame := enter s.frame }) w
      ((r, { t with frame := back s.frame t.frame }), w') := by
  unfold within
  rw [run.run_bind, run.run_pure]

theorem run_modify (f : State → State) (s : State) (w : σ) :
    run.run ((modify f : Step m Unit) s) w = ((.ok (), f s), w) := by
  change run.run (pure ((), f s) >>= fun p => pure (Except.ok p.1, p.2)) w = _
  rw [run.run_bind, run.run_pure, run.run_pure]

theorem run_lift (x : m α) (s : State) (w : σ) :
    run.run ((ExceptT.lift (StateT.lift x) : Step m α) s) w =
      ((.ok (run.run x w).1, s), (run.run x w).2) := by
  change run.run ((x >>= fun a => pure (a, s)) >>= fun p => pure (Except.ok p.1, p.2)) w = _
  rw [run.run_bind, run.run_bind, run.run_pure, run.run_pure]

theorem get_ok : run.run ((get : Step m State) s) w = ((.ok s, s), w) := by
  change run.run (pure (s, s) >>= fun p => pure (Except.ok p.1, p.2)) w = _
  rw [run.run_bind, run.run_pure, run.run_pure]

theorem throw_not_ok {e : Stop} {a : α} :
    run.run ((throw e : Step m α) s) w ≠ ((.ok a, t), w') := by
  rw [throw_run, run.run_pure]
  exact fun h => nomatch h

theorem within_ok_iff {enter : Frame → Frame} {back : Frame → Frame → Frame} {a : α} :
    run.run (within enter back x s) w = ((.ok a, t), w') ↔
      ∃ u, run.run (x { s with frame := enter s.frame }) w = ((.ok a, u), w') ∧
        t = { u with frame := back s.frame u.frame } := by
  unfold within
  rw [run.run_bind]
  obtain ⟨⟨r, u⟩, v⟩ := run.run (x { s with frame := enter s.frame }) w
  rw [run.run_pure]
  grind

end Success

/-- What the first step does when it succeeds, the second does as well. -/
def Follows (x y : Step m α) : Prop :=
  ∀ ⦃s w a t w'⦄, run.run (x s) w = ((.ok a, t), w') → run.run (y s) w = ((.ok a, t), w')

namespace Follows

variable {run} {x y : Step m α}

theorem rfl : Follows run x x := fun _ _ _ _ _ h => h

theorem throw (e : Stop) (y : Step m α) : Follows run (throw e) y :=
  fun _ _ _ _ _ h => absurd h (throw_not_ok run)

theorem bind {f g : α → Step m β} (h : Follows run x y) (hf : ∀ a, Follows run (f a) (g a)) :
    Follows run (x >>= f) (y >>= g) := by
  intro s w b t w' hrun
  obtain ⟨a, u, v, hx, hb⟩ := (bind_ok_iff run).mp hrun
  exact (bind_ok_iff run).mpr ⟨a, u, v, h hx, hf a hb⟩

theorem map [LawfulMonad m] (f : α → β) (h : Follows run x y) :
    Follows run (f <$> x) (f <$> y) := by
  rw [map_eq_pure_bind, map_eq_pure_bind]
  exact h.bind fun _ => rfl

theorem within {enter : Frame → Frame} {back : Frame → Frame → Frame} (h : Follows run x y) :
    Follows run (within enter back x) (within enter back y) := by
  intro s w a t w' hrun
  obtain ⟨u, hx, rfl⟩ := (within_ok_iff run).mp hrun
  exact (within_ok_iff run).mpr ⟨u, h hx, Eq.refl _⟩

/-- An include that is not too deep for a bound is not too deep for a larger one. -/
theorem includeTemplate [LawfulMonad m] {host host' : Host m} (hload : host'.load = host.load)
    (hdepth : host.maxIncludeDepth ≤ host'.maxIncludeDepth)
    {runBody runBody' : List Stmt → Step m Flow}
    (hbody : ∀ body, Follows run (runBody body) (runBody' body)) (name : String) :
    Follows run (includeTemplate host runBody name) (includeTemplate host' runBody' name) := by
  intro s w a t w' h
  obtain ⟨u, v, _, hget, h⟩ := (bind_ok_iff run).mp h
  refine (bind_ok_iff run).mpr ⟨u, v, _, hget, ?_⟩
  split at h
  · exact absurd h (throw_not_ok run)
  · rename_i hshallow
    rw [if_neg fun hdeep => hshallow (Nat.le_trans hdepth hdeep), hload]
    refine Follows.bind rfl (fun loaded => ?_) h
    cases loaded with
    | error e => exact throw _ _
    | ok template => exact map _ (within (hbody _))

end Follows

/-- Settings under which all goes well that goes well under the first ones. -/
structure Host.Looser (host host' : Host m) : Prop where
  functions : host'.functions = host.functions
  load : host'.load = host.load
  strict : host'.strict = false ∨ host'.strict = host.strict
  maxIncludeDepth : host.maxIncludeDepth ≤ host'.maxIncludeDepth
  maxRounds : host.maxRounds ≤ host'.maxRounds

variable {run} {host host' : Host m}

theorem Follows.missing (h : host.Looser host') (fault : RenderFault) :
    Follows run (missing host fault) (missing host' fault) := by
  intro s w a t w' hrun
  unfold Run.missing at hrun ⊢
  rcases h.strict with hlenient | hsame
  · cases hstrict : host.strict with
    | false => simpa [hlenient, hstrict] using hrun
    | true =>
      rw [hstrict] at hrun
      obtain ⟨_, _, _, _, hfail⟩ := (bind_ok_iff run).mp hrun
      exact absurd hfail (throw_not_ok run)
  · rw [hsame]
    exact hrun

theorem Host.Looser.congruence [LawfulMonad m] (h : host.Looser host') :
    Congruence host host' (Follows run) where
  pure _ := .rfl
  bind := .bind
  map := .map
  throw e := .throw e _
  get := .rfl
  write _ := .rfl
  assignVariable _ _ := .rfl
  unset _ := .rfl
  missing := .missing h
  callFunction name args := by
    unfold callFunction
    rw [h.functions]
    exact .rfl
  inLoop := .within
  includeTemplate hbody name := .includeTemplate h.load h.maxIncludeDepth hbody name
  maxRounds := .inr ⟨h.maxRounds, .throw _⟩

theorem execute_ok_iff {scope : Entries Value} {program : Program} {path : Path} {w w' : σ}
    {output : String} {calls : List Call} :
    run.run (execute host scope program path) w = (⟨.ok output, calls⟩, w') ↔
      ∃ flow t, run.run (execBody host host.maxIncludeDepth program.body
        ⟨scope, "", ⟨path, 0, 0⟩, []⟩) w = ((.ok flow, t), w') ∧
          t.output = output ∧ t.calls.reverse = calls := by
  unfold execute
  rw [run.run_bind]
  obtain ⟨⟨r, t⟩, v⟩ := run.run (execBody host host.maxIncludeDepth program.body
    ⟨scope, "", ⟨path, 0, 0⟩, []⟩) w
  rw [run.run_pure]
  cases r with
  | error e =>
    refine ⟨fun h => ?_, fun ⟨_, _, h, _⟩ => ?_⟩
    · cases h
    · cases h
  | ok flow =>
    refine ⟨fun h => ?_, fun ⟨_, _, h, houtput, hcalls⟩ => ?_⟩
    · cases h
      exact ⟨flow, t, rfl, rfl, rfl⟩
    · cases h
      rw [← houtput, ← hcalls]
      rfl

/-- A rendering that succeeds gives the same output and makes the same calls, with the same answers
and in the same order, when reading what is missing is allowed and when the bounds are larger. -/
theorem execute_of_looser [LawfulMonad m] {strict : Bool} {depth rounds : Nat}
    (hstrict : strict = false ∨ strict = host.strict) (hdepth : host.maxIncludeDepth ≤ depth)
    (hrounds : host.maxRounds ≤ rounds) {scope : Entries Value} {program : Program} {path : Path}
    {w w' : σ} {output : String} {calls : List Call}
    (h : run.run (execute host scope program path) w = (⟨.ok output, calls⟩, w')) :
    run.run (execute { host with strict, maxIncludeDepth := depth, maxRounds := rounds }
      scope program path) w = (⟨.ok output, calls⟩, w') := by
  have hlooser : host.Looser { host with strict, maxIncludeDepth := depth, maxRounds := rounds } :=
    ⟨rfl, rfl, hstrict, hdepth, hrounds⟩
  have hfollows : Follows run (execBody host host.maxIncludeDepth program.body) _ :=
    hlooser.congruence.execBody (.inr ⟨hdepth, .throw _⟩) program.body
  obtain ⟨flow, t, hbody, houtput, hcalls⟩ := execute_ok_iff.mp h
  exact execute_ok_iff.mpr ⟨flow, t, hfollows hbody, houtput, hcalls⟩

/-- A template that includes another one and calls a function in each. The loader counts. -/
theorem execute_of_looser_of_include :
    let host : Host (StateM Nat) :=
      { functions := [("first", fun args => .ok (argument args 0))]
        load := fun name n => (.ok (⟨name⟩, ⟨[.echo [.call "first" [.var "x"]]]⟩), n + 1)
        strict := true
        maxIncludeDepth := 1
        maxRounds := 0 }
    let program : Program := ⟨[.expr (.assign (.var "x") (.call "first" [.literal (.string "a")])),
      .include (.literal (.string "part")) 1, .echo [.call "isset" [.var "y"]]]⟩
    let calls : List Call := [⟨"first", [.string "a"], .ok (.string "a")⟩,
      ⟨"first", [.string "a"], .ok (.string "a")⟩]
    (Runner.ofState Nat).run (execute host [] program ⟨"page"⟩) 0 = (⟨.ok "a", calls⟩, 1) ∧
      (Runner.ofState Nat).run (execute
        { host with strict := false, maxIncludeDepth := 9, maxRounds := 2 }
          [] program ⟨"page"⟩) 0 = (⟨.ok "a", calls⟩, 1) := by
  intro host program calls
  have h : (Runner.ofState Nat).run (execute host [] program ⟨"page"⟩) 0 =
      (⟨.ok "a", calls⟩, 1) := by rfl
  exact ⟨h, execute_of_looser (.inl rfl) (by decide) (by decide) h⟩

end ViewTemplate.Run
