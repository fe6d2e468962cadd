import ViewTemplate.Proofs.Run.OneCall
import ViewTemplate.Proofs.Run.Frames

namespace ViewTemplate.Run

open Code

variable {m : Type → Type} [Monad m] {σ α β : Type} {run : Runner m σ} {host : Host m} {depth : Nat}

def Call.Succeeds (c : Call) : Prop := ∃ v, c.result = .ok v

theorem Call.not_succeeds {c : Call} {e : FunctionError} (h : c.result = .error e) :
    ¬c.Succeeds := by
  rintro ⟨v, hv⟩
  rw [h] at hv
  cases hv

/-- How a call ends a run: from where, with which error, and what loads includes is left in. -/
abbrev Site (σ : Type) := State → σ → Call → Stop → σ → Prop

/-- No call ends a run. -/
abbrev Nowhere : Site σ := fun _ _ _ _ _ => False

/-- How a run ends that makes some calls, the latest first. -/
inductive Ended (post : α → Prop) (site : Call → Stop → Prop) : List Call → Except Stop α → Prop
  | answers {added : List Call} {a : α} (hadded : ∀ c ∈ added, c.Succeeds) (ha : post a) :
    Ended post site added (.ok a)
  | fails {added : List Call} {stop : Stop} (hadded : ∀ c ∈ added, c.Succeeds)
    (hstop : ∀ output, stop ≠ .failed (.earlyExit output)) : Ended post site added (.error stop)
  /-- The latest call is the failure. -/
  | byCall {c : Call} {earlier : List Call} {stop : Stop} (hearlier : ∀ c ∈ earlier, c.Succeeds)
    (hsite : site c stop) : Ended post site (c :: earlier) (.error stop)

namespace Ended

variable {post : α → Prop} {site site' : Call → Stop → Prop} {added earlier : List Call}
  {r : Except Stop α}

theorem imp (h : Ended post site added r) (hsite : ∀ c stop, site c stop → site' c stop) :
    Ended post site' added r := by
  cases h with
  | answers hadded ha => exact .answers hadded ha
  | fails hadded hstop => exact .fails hadded hstop
  | byCall hearlier h => exact .byCall hearlier (hsite _ _ h)

theorem map (h : Ended post site added r) (f : α → β) :
    Ended (fun _ => True) site added (r.map f) := by
  cases h with
  | answers hadded _ => exact .answers hadded trivial
  | fails hadded hstop => exact .fails hadded hstop
  | byCall hearlier h => exact .byCall hearlier h

theorem behind (h : Ended post site added r) (hearlier : ∀ c ∈ earlier, c.Succeeds) :
    Ended post site (added ++ earlier) r := by
  cases h with
  | answers hadded ha => exact .answers (List.forall_mem_append.mpr ⟨hadded, hearlier⟩) ha
  | fails hadded hstop => exact .fails (List.forall_mem_append.mpr ⟨hadded, hearlier⟩) hstop
  | byCall hadded h => exact .byCall (List.forall_mem_append.mpr ⟨hadded, hearlier⟩) h

theorem tail_succeeds (h : Ended post site added r) : ∀ c ∈ added.tail, c.Succeeds := by
  cases h with
  | answers hadded _ | fails hadded _ => exact fun c hc => hadded c (List.mem_of_mem_tail hc)
  | byCall hearlier _ => exact hearlier

theorem of_head? (h : Ended post site added r) {c : Call} (hc : added.head? = some c)
    (hfails : ¬c.Succeeds) : ∃ stop, r = .error stop ∧ site c stop := by
  cases h with
  | answers hadded _ | fails hadded _ => exact absurd (hadded c (List.mem_of_mem_head? hc)) hfails
  | byCall hearlier hsite =>
    cases hc
    exact ⟨_, rfl, hsite⟩

theorem of_exit {output : String} (h : Ended post site added r)
    (hr : r = .error (.failed (.earlyExit output))) :
    ∃ c, added.head? = some c ∧ site c (.failed (.earlyExit output)) := by
  cases h with
  | answers _ _ => cases hr
  | fails _ hstop => exact absurd (Except.error.inj hr) (hstop output)
  | byCall _ hsite =>
    cases hr
    exact ⟨_, rfl, hsite⟩

end Ended

/-- Where `depth` more includes may be nested, a step adds to the log of calls, in the frame in
which it began, and a call that fails ends it as `site` says. -/
def Ends (run : Runner m σ) (host : Host m) (depth : Nat) (x : Step m α) (site : Site σ)
    (post : α → Prop) : Prop :=
  ∀ ⦃s w r t w'⦄, room host s = depth → run.run (x s) w = ((r, t), w') → t.frame = s.frame ∧
    ∃ added, t.calls = added ++ s.calls ∧ Ended post (fun c stop => site s w c stop w') added r

namespace Ends

variable {x : Step m α} {site site' : Site σ} {post : α → Prop}

theorem of_run (h : ∀ s w, ∃ r t, run.run (x s) w = ((r, t), w) ∧ t.frame = s.frame ∧
    t.calls = s.calls ∧ Ended post (fun _ _ => False) [] r) : Ends run host depth x site post := by
  intro s w r t w' _ hrun
  obtain ⟨_, _, hx, hframe, hcalls, hended⟩ := h s w
  rw [hx] at hrun
  cases hrun
  exact ⟨hframe, [], hcalls, hended.imp fun _ _ => False.elim⟩

theorem pure {a : α} (h : post a) : Ends run host depth (pure a : Step m α) site post :=
  .of_run fun s w => ⟨_, _, run_pure_ok run a s w, rfl, rfl, .answers (List.forall_mem_nil _) h⟩

theorem throw {stop : Stop} (h : ∀ output, stop ≠ .failed (.earlyExit output)) :
    Ends run host depth (throw stop : Step m α) site post :=
  .of_run fun _ w => ⟨_, _, run.run_pure _ w, rfl, rfl, .fails (List.forall_mem_nil _) h⟩

theorem modify {f : State → State} (hframe : ∀ s, (f s).frame = s.frame)
    (hcalls : ∀ s, (f s).calls = s.calls) :
    Ends run host depth (modify f : Step m Unit) site fun _ => True :=
  .of_run fun s w => ⟨_, _, run_modify run f s w, hframe s, hcalls s,
    .answers (List.forall_mem_nil _) trivial⟩

theorem imp (h : Ends run host depth x site post) (hsite : ∀ {s w c stop w'}, room host s = depth →
    site s w c stop w' → site' s w c stop w') : Ends run host depth x site' post := by
  intro s w r t w' hroom hrun
  obtain ⟨hframe, added, hcalls, hended⟩ := h hroom hrun
  exact ⟨hframe, added, hcalls, hended.imp fun _ _ => hsite hroom⟩

/-- A call ends what is put together of two steps where it ends the first one, or the second one
behind the first. -/
theorem bind {f : α → Step m β} {first : Site σ} {second : α → Site σ} {post' : β → Prop}
    (h : Ends run host depth x first post)
    (hf : ∀ a, post a → Ends run host depth (f a) (second a) post')
    (hfirst : ∀ {s w c stop w'}, room host s = depth → first s w c stop w' → site s w c stop w')
    (hsecond : ∀ {s w a t v c stop w'}, room host s = depth → run.run (x s) w = ((.ok a, t), v) →
      second a t v c stop w' → site s w c stop w') : Ends run host depth (x >>= f) site post' := by
  intro s w r t w' hroom hrun
  obtain ⟨r₁, u, v, hx⟩ : ∃ r₁ u v, run.run (x s) w = ((r₁, u), v) := ⟨_, _, _, rfl⟩
  obtain ⟨hframe, added, hcalls, hended⟩ := h hroom hx
  cases hended with
  | fails hadded hstop =>
    rw [run_bind_of_error run hx] at hrun
    cases hrun
    exact ⟨hframe, added, hcalls, .fails hadded hstop⟩
  | byCall hearlier hsite =>
    rw [run_bind_of_error run hx] at hrun
    cases hrun
    exact ⟨hframe, _, hcalls, .byCall hearlier (hfirst hroom hsite)⟩
  | answers hadded ha =>
    rw [run_bind_of_ok run hx] at hrun
    have hroom' : room host u = depth := (room_eq (congrArg Frame.includeDepth hframe)).trans hroom
    obtain ⟨hframe', added', hcalls', hended'⟩ := hf _ ha hroom' hrun
    -- what the second step adds to the log is behind the calls of the first, which all succeed
    rw [hcalls, ← List.append_assoc] at hcalls'
    exact ⟨hframe'.trans hframe, _, hcalls',
      (hended'.behind hadded).imp fun _ _ => hsecond hroom hx⟩

theorem look {f : State → Step m α}
    (hf : ∀ s, room host s = depth → Ends run host depth (f s) site post) :
    Ends run host depth (get >>= f) site post := by
  intro s w r t w' hroom hrun
  rw [run_bind_of_ok run (get_ok run)] at hrun
  exact hf s hroom hroom hrun

theorem fail (fault : RenderFault) : Ends run host depth (fail fault : Step m α) site post :=
  look fun _ _ => .throw fun _ h => nomatch h

theorem before {f : α → Step m β} {post' : β → Prop} (h : Ends run host depth x site post)
    (hf : ∀ a, post a → Ends run host depth (f a) Nowhere post') :
    Ends run host depth (x >>= f) site post' :=
  h.bind hf (fun _ hsite => hsite) fun _ _ hsite => hsite.elim

theorem behind {f : α → Step m β} {second : α → Site σ} {post' : β → Prop}
    (h : Ends run host depth x Nowhere post)
    (hf : ∀ a, post a → Ends run host depth (f a) (second a) post')
    (hsecond : ∀ {s w a t v c stop w'}, room host s = depth → run.run (x s) w = ((.ok a, t), v) →
      second a t v c stop w' → site s w c stop w') : Ends run host depth (x >>= f) site post' :=
  h.bind hf (fun _ hsite => hsite.elim) hsecond

theorem within {enter : Frame → Frame} {back : Frame → Frame → Frame} {depth' : Nat}
    (h : Ends run host depth' x site post)
    (henter : ∀ s : State, room host s = depth →
      room host { s with frame := enter s.frame } = depth')
    (hback : ∀ f, back f (enter f) = f) :
    Ends run host depth (within enter back x)
      (fun s => site { s with frame := enter s.frame }) post := by
  intro s w r t w' hroom hrun
  obtain ⟨r₁, u, v, hx⟩ :
      ∃ r₁ u v, run.run (x { s with frame := enter s.frame }) w = ((r₁, u), v) := ⟨_, _, _, rfl⟩
  rw [run_within, hx] at hrun
  cases hrun
  obtain ⟨hframe, hended⟩ := h (henter s hroom) hx
  refine ⟨?_, hended⟩
  dsimp only
  rw [hframe]
  exact hback s.frame

theorem inLoop (h : Ends run host depth x site post) :
    Ends run host depth (inLoop x) (fun s => site s.deeper) post :=
  h.within (fun _ hroom => hroom) fun _ => rfl

theorem inTemplate (h : Ends run host depth x site post) (path : Path) :
    Ends run host (depth + 1) (inTemplate path x)
      (fun s => site { s with frame := ⟨path, 0, s.frame.includeDepth + 1⟩ }) post := by
  refine h.within (fun s hroom => ?_) fun _ => rfl
  simp only [room] at hroom ⊢
  omega

end Ends

section Evaluation

/-- A call ends a run with its answer in the template of the state. -/
def Answered : Site σ := fun s _ c stop _ => answer s.frame.path c.name c.result = .error stop

theorem answer_eq_exit {path : Path} {name output : String} {result : Except FunctionError Value} :
    answer path name result = .error (.failed (.earlyExit output)) ↔
      result = .error (.exit output) := by
  rcases result with (message | output') | v
  · exact ⟨nofun, nofun⟩
  · constructor
    · rintro ⟨⟩
      rfl
    · rintro ⟨⟩
      rfl
  · exact ⟨nofun, nofun⟩

theorem missing_ends (fault : RenderFault) :
    Ends run host depth (missing host fault) Answered fun _ => True := by
  unfold missing
  split
  · exact .fail _
  · exact .pure trivial

variable [LawfulMonad m]

theorem callFunction_ends (name : String) (args : List Value) :
    Ends run host depth (callFunction host name args) Answered fun _ => True := by
  cases hf : host.functions.get? name with
  | none =>
    rw [callFunction, hf]
    exact .fail _
  | some f =>
    intro s w r t w' _ hrun
    rw [callFunction_run hf, run.run_pure] at hrun
    cases hrun
    refine ⟨rfl, [⟨name, args, f args⟩], rfl, ?_⟩
    cases hresult : f args with
    | ok v => exact .answers (List.forall_mem_singleton.mpr ⟨v, rfl⟩) trivial
    | error e =>
      cases e with
      | failed message => exact .byCall (List.forall_mem_nil _) rfl
      | exit output => exact .byCall (List.forall_mem_nil _) rfl

/-- In an evaluation a call that fails is the last one, and its answer is the error. -/
theorem evaluates_ends (run : Runner m σ) (host : Host m) (depth : Nat) :
    Evaluates host (fun _ => True) (fun _ => True) fun x post =>
      Ends run host depth x Answered post where
  pure := .pure
  bind h hf := h.bind hf (fun _ hsite => hsite) fun hroom hx hsite => by
    rwa [Answered, ← (h hroom hx).1]
  fail := .fail
  variableValue _ := by
    refine .look fun s _ => ?_
    split
    · exact .pure trivial
    · exact missing_ends _
  variableQuiet _ := .look fun _ _ => .pure trivial
  callFunction := callFunction_ends
  assign v _ := by
    refine .look fun s _ => ?_
    dsimp only
    split
    · exact .modify (fun _ => rfl) fun _ => rfl
    · exact .fail _

end Evaluation

end ViewTemplate.Run
