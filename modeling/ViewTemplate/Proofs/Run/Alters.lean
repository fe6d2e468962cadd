import ViewTemplate.Proofs.Run.Frames

namespace ViewTemplate

namespace Code

mutual

/-- A statement assigns, unsets and loops over variables in `W` only. -/
def Stmt.Alters (W : String → Prop) : Stmt → Prop
  | .text _ | .break _ | .continue _ => True
  | .echo es => EachExpr (Expr.Assigns W) es
  | .expr e => e.Each (Expr.Assigns W)
  | .unset targets => EachExpr (Expr.Assigns W) targets ∧ ∀ e ∈ targets, ∀ name ∈ e.root?, W name
  | .cond c body rest => c.Each (Expr.Assigns W) ∧ AltersAll W body ∧ rest.Alters W
  | .loop c body => c.Each (Expr.Assigns W) ∧ AltersAll W body
  | .foreach subject key value body _ =>
    subject.Each (Expr.Assigns W) ∧ (∀ name ∈ key, W name) ∧ W value ∧ AltersAll W body
  | .include target _ => target.Each (Expr.Assigns W)

def Alternatives.Alters (W : String → Prop) : Alternatives → Prop
  | .none => True
  | .otherwise body => AltersAll W body
  | .elseIf c body rest => c.Each (Expr.Assigns W) ∧ AltersAll W body ∧ rest.Alters W

def AltersAll (W : String → Prop) : List Stmt → Prop
  | [] => True
  | stmt :: more => stmt.Alters W ∧ AltersAll W more

end

theorem altersAll_append {W : String → Prop} {body more : List Stmt} (h : AltersAll W body)
    (hmore : AltersAll W more) : AltersAll W (body ++ more) := by
  induction body with
  | nil => exact hmore
  | cons stmt body ih => exact ⟨h.1, ih h.2⟩

end Code

namespace Run

open Code

variable {m : Type → Type} [Monad m] {σ α β : Type} {run : Runner m σ} {host : Host m}
  {W : String → Prop} {s t : State} {w w' : σ}

/-- From a state a step changes variables in `W` only. -/
def Varies (run : Runner m σ) (W : String → Prop) (x : Step m α) (s : State) (w : σ) : Prop :=
  Varied W s.scope (run.run (x s) w).1.2.scope

namespace Varies

variable {x : Step m α}

theorem of_run {r : Except Stop α} (h : run.run (x s) w = ((r, t), w'))
    (hvaried : Varied W s.scope t.scope) :
    Varies run W x s w := by
  unfold Varies
  rw [h]
  exact hvaried

theorem of_eq {r : Except Stop α} (h : Varies run W x s w) (hrun : run.run (x s) w = ((r, t), w')) :
    Varied W s.scope t.scope := by
  unfold Varies at h
  rw [hrun] at h
  exact h

theorem pure (a : α) : Varies run W (pure a : Step m α) s w :=
  of_run (run_pure_ok run a s w) .refl

theorem throw (e : Stop) : Varies run W (throw e : Step m α) s w :=
  of_run (run.run_pure _ w) .refl

theorem bind {f : α → Step m β} (h : Varies run W x s w)
    (hf : ∀ a t w', run.run (x s) w = ((.ok a, t), w') → Varies run W (f a) t w') :
    Varies run W (x >>= f) s w := by
  obtain ⟨r, t, w', hx⟩ : ∃ r t w', run.run (x s) w = ((r, t), w') := ⟨_, _, _, rfl⟩
  cases r with
  | error e => exact of_run (run_bind_of_error run hx) (h.of_eq hx)
  | ok a =>
    unfold Varies
    rw [run_bind_of_ok run hx]
    exact (h.of_eq hx).trans (hf a t w' hx)

theorem after {f : α → Step m β} (h : Varies run W x s w) (hf : ∀ a t w', Varies run W (f a) t w') :
    Varies run W (x >>= f) s w :=
  h.bind fun a t w' _ => hf a t w'

theorem look {f : State → Step m α} (h : Varies run W (f s) s w) :
    Varies run W (get >>= f) s w := by
  unfold Varies
  rw [run_bind_of_ok run (get_ok run)]
  exact h

theorem modify {f : State → State} (h : Varied W s.scope (f s).scope) :
    Varies run W (modify f : Step m Unit) s w :=
  of_run (run_modify run f s w) h

theorem within {enter : Frame → Frame} {back : Frame → Frame → Frame}
    (h : Varies run W x { s with frame := enter s.frame } w) :
    Varies run W (within enter back x) s w := by
  obtain ⟨r, t, w', hx⟩ :
      ∃ r t w', run.run (x { s with frame := enter s.frame }) w = ((r, t), w') := ⟨_, _, _, rfl⟩
  have hvaried : Varied W s.scope t.scope := h.of_eq hx
  have hrun : run.run (Run.within enter back x s) w =
      ((r, { t with frame := back s.frame t.frame }), w') := by
    rw [run_within, hx]
  exact of_run hrun hvaried

theorem inLoop (h : Varies run W x s.deeper w) : Varies run W (inLoop x) s w := within h

end Varies

section Confined

variable {x : Step m α} {post : α → Prop}

theorem Confined.run_eq (h : Confined W x post) (run : Runner m σ) (s : State) (w : σ) :
    ∃ r scope calls, Varied W s.scope scope ∧ (∀ a, r = .ok a → post a) ∧
      run.run (x s) w = ((r, { s with scope, calls }), w) := by
  obtain ⟨r, scope, added, hvaried, hpost, hx⟩ := h s
  refine ⟨r, scope, added ++ s.calls, hvaried, hpost, ?_⟩
  rw [← run.run_pure, ← hx]

theorem Confined.varies (h : Confined W x post) : Varies run W x s w := by
  obtain ⟨r, scope, calls, hvaried, -, hx⟩ := h.run_eq run s w
  exact .of_run hx hvaried

theorem Confined.answers (h : Confined W x post) {a : α}
    (hrun : run.run (x s) w = ((.ok a, t), w')) : post a := by
  obtain ⟨r, scope, calls, -, hpost, hx⟩ := h.run_eq run s w
  rw [hrun] at hx
  cases hx
  exact hpost a rfl

end Confined

/-- The state in which a round begins differs in the variables of the loop. -/
theorem State.varied_visiting {key : Option String} {value : String} {entry : Value × Value}
    (hkey : ∀ name ∈ key, W name) (hvalue : W value) :
    Varied W s.scope (s.visiting key value entry).scope := by
  cases key with
  | none => exact .set _ hvalue .refl
  | some name => exact .set _ hvalue (.set _ (hkey name rfl) .refl)

section Parts

theorem echo_varies {rs : List (Reading m)} (h : ∀ r ∈ rs, r.Satisfies (Confined W)) :
    ∀ {s w}, Varies run W (echo rs) s w := by
  induction rs with
  | nil => exact .pure _
  | cons r rest ih =>
    intro s w
    obtain ⟨hr, hrest⟩ := List.forall_mem_cons.mp h
    exact hr.value.varies.after fun _ _ _ => (Varies.modify .refl).after fun _ _ _ => ih hrest

theorem unset_varies {p : Place} (h : W p.root) : Varies run W (unset p : Step m Unit) s w := by
  refine .modify ?_
  split
  · exact .removed h .refl
  · split
    · exact .set _ h .refl
    · exact .refl

theorem unsetAll_varies [LawfulMonad m] {targets : List Expr}
    (h : EachExpr (Expr.Assigns W) targets) (hroots : ∀ e ∈ targets, ∀ name ∈ e.root?, W name) :
    ∀ {s w}, Varies run W (unsetAll (places host targets)) s w := by
  induction targets with
  | nil => exact .pure _
  | cons e rest ih =>
    intro s w
    obtain ⟨he, hrest⟩ := List.forall_mem_cons.mp hroots
    have hplace : Confined W (place host e) fun p => p.root ∈ e.root? := place_confined h.1
    refine hplace.varies.bind fun p t w' hp => ?_
    exact (unset_varies (he p.root (hplace.answers hp))).after fun _ _ _ => ih h.2 hrest

theorem branch_varies [LawfulMonad m] {c : Expr} {x y : Step m Flow} (hc : c.Each (Expr.Assigns W))
    (hx : ∀ v t w', run.run ((read host c).value s) w = ((.ok v, t), w') → v.truthy = true →
      Varies run W x t w')
    (hy : ∀ v t w', run.run ((read host c).value s) w = ((.ok v, t), w') → v.truthy = false →
      Varies run W y t w') :
    Varies run W (do if (← (read host c).value).truthy then x else y) s w := by
  refine (read_confined hc).value.varies.bind fun v t w' h => ?_
  cases hv : v.truthy with
  | true => exact hx v t w' h hv
  | false => exact hy v t w' h hv

theorem repeatWhile_varies [LawfulMonad m] {c : Expr} {body : Step m Flow}
    (hc : c.Each (Expr.Assigns W)) {n : Nat} :
    ∀ {s w}, (∀ t w', Rounds run (read host c).value body n s w t w' → Varies run W body t w') →
      Varies run W (repeatWhile (read host c).value body n) s w := by
  induction n with
  | zero => exact fun _ => .throw _
  | succ n ih =>
    intro s w hbody
    refine (read_confined hc).value.varies.bind fun v t w' h => ?_
    split
    · rename_i hv
      refine (hbody t w' (.now h hv)).bind fun flow u v' hround => ?_
      have hmore (hflow : flow ≠ .break) :
          Varies run W (repeatWhile (read host c).value body n) u v' :=
        ih fun t w' h' => hbody t w' (.later h hv hround hflow h')
      cases flow with
      | «break» => exact .pure _
      | normal => exact hmore nofun
      | «continue» => exact hmore nofun
    · exact .pure _

theorem forEach_varies {key : Option String} {value : String} {body : Step m Flow}
    (hkey : ∀ name ∈ key, W name) (hvalue : W value) {entries : List (Value × Value)} :
    ∀ {s w}, (∀ i t w', Visits run key value body entries s w i t w' → Varies run W body t w') →
      Varies run W (forEach key value body entries) s w := by
  induction entries with
  | nil => exact fun _ => .pure _
  | cons entry rest ih =>
    intro s w hbody
    have hvisit : Varied W s.scope (s.visiting key value entry).scope :=
      State.varied_visiting hkey hvalue
    unfold Varies
    rw [run_forEach_cons]
    refine hvisit.trans ?_
    refine Varies.bind (hbody 0 _ w .now) fun flow u v' hround => ?_
    have hmore (hflow : flow ≠ .break) : Varies run W (forEach key value body rest) u v' :=
      ih fun i t w' h => hbody (i + 1) t w' (.later hround hflow h)
    cases flow with
    | «break» => exact .pure _
    | normal => exact hmore (by decide)
    | «continue» => exact hmore (by decide)

end Parts

/-- The templates that are included while a block runs alter variables in `W` only. -/
def Point.IncludesOnly (run : Runner m σ) (host : Host m) (W : String → Prop) (p : Point σ) :
    Prop :=
  ∀ q path r, Reaches run host p q → Includes run host q path r → AltersAll W r.body

namespace Point.IncludesOnly

theorem leads {p q : Point σ} (h : p.IncludesOnly run host W) (hleads : Leads run host p q) :
    q.IncludesOnly run host W :=
  fun q' path r hreaches => h q' path r (.head hleads hreaches)

theorem reaches {p q : Point σ} (h : p.IncludesOnly run host W) (hreaches : Reaches run host p q) :
    q.IncludesOnly run host W :=
  fun q' path r hreaches' => h q' path r (hreaches.trans hreaches')

end Point.IncludesOnly

section Blocks

variable [LawfulMonad m] {n : Nat}

theorem leave_varies {flow : Flow} {keyword : String} {line : Nat} :
    Varies run W (leave flow keyword line : Step m Flow) s w := by
  refine .look ?_
  split
  · have hfail : Confined W (fail (.outsideLoop keyword line) : Step m Flow) fun _ => True :=
      .fail _
    exact hfail.varies
  · exact .pure _

/-- The bodies that run below `n` more includes change variables in `W` only. -/
def Below (run : Runner m σ) (host : Host m) (W : String → Prop) (n : Nat) : Prop :=
  ∀ p : Point σ, room host p.state < n → p.IncludesOnly run host W → AltersAll W p.body →
    Varied W p.state.scope (p.outcome run host).1.2.scope

theorem include_varies (hbelow : Below run host W n) {target : Expr} {line : Nat} {rest : List Stmt}
    (hroom : room host s = n)
    (h : Point.IncludesOnly run host W ⟨.include target line :: rest, s, w⟩)
    (htarget : target.Each (Expr.Assigns W)) :
    Varies run W (execStmt host (bodies host n) (.include target line)) s w := by
  subst hroom
  refine (read_confined htarget).value.varies.bind fun v t w' hv => ?_
  -- Reading the target leaves the frame alone, so the depth is still that of the statement.
  have hroom : room host t = room host s := (read_keepsFrame target).room hv
  refine Varies.after ?_ fun _ _ _ => .pure _
  rw [← hroom]
  by_cases hdeep : host.maxIncludeDepth ≤ t.frame.includeDepth
  · refine .look ?_
    rw [if_pos hdeep]
    exact .throw _
  obtain ⟨loaded, w'', hload⟩ : ∃ loaded w'', run.run (host.load v.output) w' = (loaded, w'') :=
    ⟨_, _, rfl⟩
  have hdepth := Nat.lt_of_not_le hdeep
  cases loaded with
  | error e =>
    refine .look ?_
    rw [if_neg hdeep]
    refine (Varies.of_run (run_lift run _ t w') .refl).bind fun a u v' hlift => ?_
    rw [run_lift, hload] at hlift
    cases hlift
    exact .throw _
  | ok template =>
    obtain ⟨path, program⟩ := template
    let inside : State := { t with frame := ⟨path, 0, t.frame.includeDepth + 1⟩ }
    have hincludes : Includes run host ⟨.include target line :: rest, s, w⟩ path
        ⟨program.body, inside, w''⟩ := .template hv hdepth hload
    have hdeeper : room host inside < room host s := by
      rw [← hroom]
      simp only [room, inside]
      omega
    have hbody := hbelow ⟨program.body, inside, w''⟩ hdeeper (h.leads (.includes hincludes))
      (h _ _ _ .refl hincludes)
    obtain ⟨r, u, v', hrun⟩ : ∃ r u v', Point.outcome run host ⟨program.body, inside, w''⟩ =
      ((r, u), v') := ⟨_, _, _, rfl⟩
    rw [hrun] at hbody
    exact .of_run (run_include hdepth hload hrun) hbody

mutual

theorem stmt_varies (hbelow : Below run host W n) :
    ∀ (stmt : Stmt) {rest : List Stmt} {s : State} {w : σ},
    room host s = n → Point.IncludesOnly run host W ⟨stmt :: rest, s, w⟩ → stmt.Alters W →
      Varies run W (execStmt host (bodies host n) stmt) s w
  | .text _, _, _, _, _, _, _ => (Varies.modify .refl).after fun _ _ _ => .pure _
  | .echo _, _, _, _, _, _, halters =>
    (echo_varies (readAll_confined halters)).after fun _ _ _ => .pure _
  | .expr _, _, _, _, _, _, halters => by
    rw [execStmt, discard_eq]
    exact ((read_confined halters).value.varies.after fun _ _ _ => .pure _).after
      fun _ _ _ => .pure _
  | .unset _, _, _, _, _, _, halters =>
    (unsetAll_varies halters.1 halters.2).after fun _ _ _ => .pure _
  | .cond _ body rest, _, _, _, hroom, h, halters => by
    apply branch_varies halters.1
    · intro v t w' hv htrue
      -- Behind the condition there is as much room for includes as in front of it.
      have hroom' := ((read_keepsFrame _).room hv).trans hroom
      have htaken := h.leads (.passes (.branch (.first hv htrue)))
      exact block_varies hbelow body hroom' htaken halters.2.1
    · intro v t w' hv hfalse
      have hroom' := ((read_keepsFrame _).room hv).trans hroom
      exact alternatives_varies hbelow rest hroom' hv hfalse
        (fun p htakes => h.leads (.passes (.branch htakes))) halters.2.2
  | .loop c body, rest, s, w, hroom, h, halters => by
    refine Varies.after (.inLoop (repeatWhile_varies halters.1 fun t w' hrounds => ?_))
      fun _ _ _ => .pure _
    have henters : Enters run host ⟨.loop c body :: rest, s, w⟩ ⟨body, t, w'⟩ :=
      .round (by rw [blockStep, hroom]; exact hrounds)
    have hinside := henters.room.trans hroom
    exact block_varies hbelow body hinside (h.leads (.enters henters)) halters.2
  | .foreach subject key value body line, rest, s, w, hroom, h, halters => by
    refine Varies.after (.inLoop ((read_confined halters.1).value.varies.bind fun v t w' hv =>
      forEach_varies halters.2.1 halters.2.2.1 fun i u v' hvisits => ?_)) fun _ _ _ => .pure _
    have henters : Enters run host ⟨.foreach subject key value body line :: rest, s, w⟩
        ⟨body, u, v'⟩ :=
      .visit hv (by rw [blockStep, hroom]; exact hvisits)
    have hinside := henters.room.trans hroom
    exact block_varies hbelow body hinside (h.leads (.enters henters)) halters.2.2.2
  | .break _, _, _, _, _, _, _ | .continue _, _, _, _, _, _, _ => leave_varies
  | .include .., _, _, _, hroom, h, halters => include_varies hbelow hroom h halters

theorem alternatives_varies (hbelow : Below run host W n) : ∀ (rest : Alternatives) {c : Expr}
    {body : List Stmt} {s t : State} {w w' : σ} {v : Value}, room host t = n →
      run.run ((read host c).value s) w = ((.ok v, t), w') → v.truthy = false →
        (∀ p, Takes run host c body rest s w p → p.IncludesOnly run host W) → rest.Alters W →
          Varies run W (execAlternatives host (bodies host n) rest) t w'
  | .none, _, _, _, _, _, _, _, _, _, _, _, _ => .pure _
  | .otherwise body, _, _, _, _, _, _, _, hroom, hv, hfalse, h, halters =>
    block_varies hbelow body hroom (h _ (.otherwise hv hfalse)) halters
  | .elseIf _ body rest, _, _, _, _, _, _, _, hroom, hv, hfalse, h, halters => by
    apply branch_varies halters.1
    · intro v' u w'' hv' htrue
      have hroom' := ((read_keepsFrame _).room hv').trans hroom
      have htaken := h _ (.elseIf hv hfalse (.first hv' htrue))
      exact block_varies hbelow body hroom' htaken halters.2.1
    · intro v' u w'' hv' hfalse'
      have hroom' := ((read_keepsFrame _).room hv').trans hroom
      exact alternatives_varies hbelow rest hroom' hv' hfalse'
        (fun p htakes => h p (.elseIf hv hfalse htakes)) halters.2.2

theorem block_varies (hbelow : Below run host W n) : ∀ (body : List Stmt) {s : State} {w : σ},
    room host s = n → Point.IncludesOnly run host W ⟨body, s, w⟩ → AltersAll W body →
      Varies run W (execBlock host (bodies host n) body) s w
  | [], _, _, _, _, _ => .pure _
  | stmt :: rest, s, w, hroom, h, halters => by
    refine (stmt_varies hbelow stmt hroom h halters.1).bind fun flow t w' hfirst => ?_
    cases flow with
    | normal =>
      have hroom' := ((stmt_keepsFrame n stmt).room hfirst).trans hroom
      have hnext : Passes run host ⟨stmt :: rest, s, w⟩ ⟨rest, t, w'⟩ :=
        .next (by rw [stmtStep, hroom]; exact hfirst)
      exact block_varies hbelow rest hroom' (h.leads (.passes hnext)) halters.2
    | «break» => exact .pure _
    | «continue» => exact .pure _

end

theorem below (n : Nat) : Below run host W n := by
  induction n with
  | zero => exact fun _ h => absurd h (Nat.not_lt_zero _)
  | succ n ih =>
    intro p hroom
    exact block_varies (fun q hq => ih q (by omega)) p.body rfl

/-- A block changes the variables that its statements and the templates that are included while it
runs assign, unset and loop over, and no others. -/
theorem Point.varied {p : Point σ} (h : p.IncludesOnly run host W) (halters : AltersAll W p.body) :
    Varied W p.state.scope (p.outcome run host).1.2.scope :=
  block_varies (below _) p.body rfl h halters

end Blocks

end Run

end ViewTemplate
