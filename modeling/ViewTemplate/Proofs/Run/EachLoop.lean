import ViewTemplate.Proofs.Run.LoopFields

namespace ViewTemplate.Run

open Code Directive

variable {m : Type → Type} [Monad m] {σ : Type} {run : Runner m σ} {host : Host m}
  {l : EachLoop} {s t u : State} {w w' w'' : σ} {v : Value} {i n : Nat}

theorem passes_append [LawfulMonad m] (ys : List Stmt) : ∀ {xs : List Stmt} {s : State} {w : σ},
    Point.outcome run host ⟨xs, s, w⟩ = ((.ok .normal, t), w') →
      PassesTo run host ⟨xs ++ ys, s, w⟩ ⟨ys, t, w'⟩ ∧
        Point.outcome run host ⟨xs ++ ys, s, w⟩ = Point.outcome run host ⟨ys, t, w'⟩
  | [], s, w, h => by
    have hend := (run_pure_ok run Flow.normal s w).symm.trans h
    cases hend
    exact ⟨.refl, rfl⟩
  | stmt :: xs, s, w, h => by
    obtain ⟨first, u, v, hfirst, hrest⟩ := (bind_ok_iff run).mp h
    obtain rfl : first = .normal := by
      cases first with
      | normal => rfl
      | «break» => cases pure_ok hrest
      | «continue» => cases pure_ok hrest
    obtain ⟨hpasses, houtcome⟩ := passes_append ys ((outcome_cons_ok hfirst).symm.trans h)
    exact ⟨.head (.next hfirst) hpasses, (outcome_cons_ok hfirst).trans houtcome⟩

/-- The body of a loop starts for the element at a position: what is looped over is not empty, the
rounds before are over, and what each round does first is done. -/
inductive Starts (run : Runner m σ) (host : Host m) (l : EachLoop) (s : State) (w : σ) (i : Nat)
    (t : State) (w' : σ) : Prop
  | intro {c v : Value} {t₀ t₁ t₂ t₃ : State} {w₀ w₁ w₂ w₃ : σ}
    (hguard : run.run ((read host l.guard).value s) w = ((.ok c, t₀), w₀)) (hc : c.truthy = true)
    (hentry : Point.outcome run host ⟨l.entry, t₀, w₀⟩ = ((.ok .normal, t₁), w₁))
    (hsubject : run.run ((read host l.subject).value t₁.deeper) w₁ = ((.ok v, t₂), w₂))
    (hvisits : Visits run l.key l.value (blockStep host t₁ (l.fields ++ l.body)) (visits v) t₂ w₂
      i t₃ w₃)
    (hfields : Point.outcome run host ⟨l.fields, t₃, w₃⟩ = ((.ok .normal, t), w'))

section Reached

variable [LawfulMonad m]

theorem rounds_reached {c v : Value} {t₀ t₁ t₂ t₃ : State} {w₀ w₁ w₂ w₃ : σ}
    (hguard : run.run ((read host l.guard).value s) w = ((.ok c, t₀), w₀)) (hc : c.truthy = true)
    (hentry : Point.outcome run host ⟨l.entry, t₀, w₀⟩ = ((.ok .normal, t₁), w₁))
    (hsubject : run.run ((read host l.subject).value t₁.deeper) w₁ = ((.ok v, t₂), w₂))
    (hvisits : Visits run l.key l.value (blockStep host t₁ (l.fields ++ l.body)) (visits v) t₂ w₂
      i t₃ w₃) : Reaches run host ⟨[l.stmt], s, w⟩ ⟨l.fields ++ l.body, t₃, w₃⟩ := by
  have hbranch : Leads run host ⟨[l.stmt], s, w⟩ ⟨l.entry ++ [l.rounds], t₀, w₀⟩ :=
    .passes (.branch (.first hguard hc))
  have hround : Leads run host ⟨[l.rounds], t₁, w₁⟩ ⟨l.fields ++ l.body, t₃, w₃⟩ :=
    .enters (.visit hsubject hvisits)
  exact .head hbranch ((passes_append _ hentry).1.reaches.trans (.single hround))

/-- The body starts while the loop runs. -/
theorem Starts.reaches (h : Starts run host l s w i t w') :
    Reaches run host ⟨[l.stmt], s, w⟩ ⟨l.body, t, w'⟩ := by
  obtain ⟨hguard, hc, hentry, hsubject, hvisits, hfields⟩ := h
  exact (rounds_reached hguard hc hentry hsubject hvisits).trans
    (passes_append l.body hfields).1.reaches

end Reached

section Guard

theorem run_guard (h : run.run ((read host l.subject).quiet s) w = ((.ok (some v), t), w'))
    (hv : v.truthy = true) :
    run.run ((read host l.guard).value s) w = ((.ok (.bool true), t), w') := by
  have hnot := run_not (run_empty h)
  rw [Option.any_some, hv] at hnot
  exact hnot

variable [LawfulMonad m]

theorem guard_of_not_truthy (hspares : SparesCount l)
    (hempty : ∀ v, Bound run host l.subject s w v → v.truthy = false) :
    ∃ r calls, run.run ((read host l.guard).value s) w = ((r, { s with calls }), w) ∧
      ∀ c, r = .ok c → c.truthy = false := by
  have hsteady : (read host l.subject).Satisfies (Steady l.Counts) := read_steady hspares.subject
  obtain ⟨r, added, hquiet⟩ := hsteady.quiet.run_eq run s
  have hfound := hquiet s w ⟨rfl, fun _ _ => rfl⟩
  cases r with
  | error e => exact ⟨.error e, _, run_bind_of_error run (run_bind_of_error run hfound), nofun⟩
  | ok q =>
    have hguard := run_not (run_empty hfound)
    refine ⟨_, _, hguard, fun c hc => ?_⟩
    cases hc
    cases q with
    | none => rfl
    | some v =>
      have hv := hempty v ⟨_, _, hfound⟩
      show (!!v.truthy) = false
      rw [hv]
      rfl

theorem run_entry (hcount : host.functions.get? "count" = some count)
    (h : run.run ((read host l.subject).value
      { s with scope := Entries.insert s.scope (loopFieldName l.value "counter") (.int 0) }) w =
        ((.ok v, t), w')) (hv : v.isArray = true) :
    ∃ calls, Point.outcome run host ⟨l.entry, s, w⟩ = ((.ok .normal, { t with
      scope := Entries.insert t.scope (loopFieldName l.value "total")
        (.int (Int64.ofNat (elements v).length))
      calls }), w') := by
  have hzero : run.run ((read host (.literal (.int 0))).value s) w = ((.ok (.int 0), s), w) :=
    run_pure_ok run _ s w
  obtain ⟨calls, htotal⟩ := run_count hcount h hv
  refine ⟨calls, ?_⟩
  refine (run_block_cons (run_setField hzero)).trans
    ((run_block_cons (run_setField htotal)).trans ?_)
  exact run_pure_ok run _ _ w'

def countsSet (l : EachLoop) (n : Nat) (scope : Entries Value) : Entries Value :=
  Entries.insert (Entries.insert scope (loopFieldName l.value "counter") (.int 0))
    (loopFieldName l.value "total") (.int (Int64.ofNat n))

theorem varied_countsSet (scope : Entries Value) : Varied l.Counts scope (countsSet l n scope) :=
  .set _ (.inr rfl) (.set _ (.inl rfl) .refl)

theorem get?_countsSet_of_length {name : String} {scope : Entries Value}
    (h : name.length ≤ l.value.length) :
    Entries.get? (countsSet l n scope) name = Entries.get? scope name :=
  (varied_countsSet scope).get? (l.not_counts_of_length h)

theorem counted_countsSet (scope : Entries Value) : Counted l 0 n (countsSet l n scope) where
  counter := by simp (disch := decide) [countsSet, get?_insert_field]
  total := Entries.get?_insert_self _ _ _

theorem entered (hcount : host.functions.get? "count" = some count) (hspares : SparesCount l)
    (hbound : Bound run host l.subject s w v) (hv : v.isArray = true) (hne : elements v ≠ []) :
    ∃ calls calls' calls'',
      let t : State := { s with scope := countsSet l (elements v).length s.scope, calls := calls' }
      run.run ((read host l.guard).value s) w = ((.ok (.bool true), { s with calls }), w) ∧
        Point.outcome run host ⟨l.entry, { s with calls }, w⟩ = ((.ok .normal, t), w) ∧
          run.run ((read host l.subject).value t.deeper) w =
            ((.ok v, { t.deeper with calls := calls'' }), w) := by
  -- The subject reads no counts, so setting them does not change what it gives.
  have hsteady : (read host l.subject).Satisfies (Steady l.Counts) := read_steady hspares.subject
  have hstill : l.subject.Each (Expr.Assigns fun _ => False) :=
    hspares.subject.imp fun _ h => h.self.2
  obtain ⟨rq, added, hquiet⟩ := hsteady.quiet.run_eq run s
  obtain ⟨rv, addedv, hvalue⟩ := hsteady.value.run_eq run s
  have hself : s.AgreesOff l.Counts s := ⟨rfl, fun _ _ => rfl⟩
  obtain rfl : rq = .ok (some v) := by
    obtain ⟨t, w', hfound⟩ := hbound
    rw [hquiet s w hself] at hfound
    cases hfound
    rfl
  obtain rfl : rv = .ok v := by
    obtain ⟨t, w', hread⟩ := readsArrays hstill hv (hquiet s w hself)
    rw [hvalue s w hself] at hread
    cases hread
    rfl
  have htruthy : v.truthy = true := by simp [truthy_of_array hv, hne]
  let quiet : State := { s with calls := added ++ s.calls }
  have hzeroed : s.AgreesOff l.Counts { quiet with
      scope := Entries.insert quiet.scope (loopFieldName l.value "counter") (.int 0) } :=
    State.agreesOff_of_varied rfl (.set (.int 0) (.inl rfl) .refl)
  obtain ⟨calls', hentry⟩ := run_entry hcount (hvalue _ w hzeroed) hv
  exact ⟨_, calls', _, run_guard (hquiet s w hself) htruthy, hentry,
    hvalue _ w (State.agreesOff_of_varied rfl (varied_countsSet _))⟩

end Guard

/-- What each round does first, as the beginning of a run. -/
theorem outcome_fields [LawfulMonad m] (h : Counted l i n s.scope) (hi : i + 1 < 2 ^ 63)
    (hpos : 0 < n) (hn : n < 2 ^ 63) : Point.outcome run host ⟨l.fields, s, w⟩ =
      ((.ok .normal, { s with scope := fieldsSet l i n s.scope }), w) :=
  run_fields h hi hpos hn

section Rounds

variable {key : Option String} {value : String} {body : Step m Flow}
    {entries : List (Value × Value)}

theorem State.get?_visiting (s : State) (key : Option String) (value : String)
    (entry : Value × Value) :
    Entries.get? (s.visiting key value entry).scope value = some entry.2 :=
  Entries.get?_insert_self _ _ _

theorem Visits.entry (h : Visits run key value body entries s w i t w') :
    ∃ entry, entries[i]? = some entry ∧ Entries.get? t.scope value = some entry.2 := by
  induction h with
  | now => exact ⟨_, rfl, State.get?_visiting _ _ _ _⟩
  | later _ _ _ ih => simpa using ih

theorem Visits.next {flow : Flow} (h : Visits run key value body entries s w i t w')
    (hbody : run.run (body t) w' = ((.ok flow, u), w'')) (hflow : flow ≠ .break)
    (hi : i + 1 < entries.length) :
    ∃ entry, Visits run key value body entries s w (i + 1) (u.visiting key value entry) w'' := by
  induction h with
  | @now entry rest s w =>
    cases rest with
    | nil => exact absurd hi (by simp)
    | cons entry' rest => exact ⟨entry', .later hbody hflow .now⟩
  | later hround hnext _ ih =>
    obtain ⟨entry, h'⟩ := ih hbody (by simpa using hi)
    exact ⟨entry, .later hround hnext h'⟩

variable [LawfulMonad m]

/-- The rounds of the loop find the counts as they should be. A round is what sets the fields and
then the body, which changes no count. -/
theorem Visits.counted (hspares : SparesCount l) {s₁ : State}
    (h : Visits run l.key l.value (blockStep host s₁ (l.fields ++ l.body)) entries s w i t w') :
    ∀ {k : Nat}, s.frame.includeDepth = s₁.frame.includeDepth →
      (∀ j t w', Visits run l.key l.value (blockStep host s₁ (l.fields ++ l.body)) entries s
        w j t w' →
        Point.IncludesOnly run host (¬l.Counts ·) ⟨l.fields ++ l.body, t, w'⟩) →
      Counted l k n s.scope → k + entries.length = n → n < 2 ^ 63 →
        Counted l (k + i) n t.scope := by
  have hvalue : ¬l.Counts l.value := l.not_counts_of_length le_rfl
  have hround (s : State) (entry : Value × Value) :
      Varied (¬l.Counts ·) s.scope (s.visiting l.key l.value entry).scope :=
    State.varied_visiting hspares.key hvalue
  induction h with
  | now => exact fun _ _ hcounted _ _ => hcounted.of_varied (hround _ _)
  | @later entry rest s t u w w' v flow i hbody hflow _ ih =>
    intro k hdepth hincludes hcounted hlength hn
    rw [List.length_cons] at hlength
    -- The fields move the count on by one, and the body leaves it there.
    let begun := s.visiting l.key l.value entry
    have hfields : Point.outcome run host ⟨l.fields, begun, w⟩ = ((.ok .normal, _), w) :=
      outcome_fields (hcounted.of_varied (hround s entry)) (by omega) (by omega) hn
    obtain ⟨hpasses, houtcome⟩ := passes_append l.body hfields
    have hrun : Point.outcome run host ⟨l.fields ++ l.body, begun, w⟩ = ((.ok flow, u), w') :=
      (Point.outcome_eq run host (show begun.frame.includeDepth = _ from hdepth)).trans hbody
    have hvaried := Point.varied ((hincludes 0 _ _ .now).reaches hpasses.reaches) hspares.body
    rw [← houtcome, hrun] at hvaried
    have hframe := (block_keepsFrame _ _).eq hbody
    have hnext := ih (k := k + 1) ((congrArg Frame.includeDepth hframe).trans hdepth)
      (fun j t w' h => hincludes (j + 1) t w' (.later hbody hflow h))
      ((counted_fieldsSet (hcounted.of_varied (hround s entry))).of_varied hvaried) (by omega) hn
    rwa [show k + 1 + i = k + (i + 1) by omega] at hnext

end Rounds

section Course

theorem Bound.unique {e : Expr} {v' : Value} (h : Bound run host e s w v)
    (h' : Bound run host e s w v') : v = v' := by
  obtain ⟨t, u, hv⟩ := h
  obtain ⟨t', u', hv'⟩ := h'
  rw [hv] at hv'
  cases hv'
  rfl

variable [LawfulMonad m]

/-- A loop that is entered: its rounds are those of the first state, and begin in the second one. -/
structure Entered (run : Runner m σ) (host : Host m) (l : EachLoop) (s : State) (w : σ) (v : Value)
    (t₁ t₂ : State) : Prop where
  frame : t₁.frame = s.frame
  deeper : t₂.frame = s.deeper.frame
  scope : t₂.scope = countsSet l (elements v).length s.scope
  starts : ∀ i t w', Starts run host l s w i t w' ↔ ∃ t₃ w₃,
    Visits run l.key l.value (blockStep host t₁ (l.fields ++ l.body)) (visits v) t₂ w i t₃ w₃ ∧
      Point.outcome run host ⟨l.fields, t₃, w₃⟩ = ((.ok .normal, t), w')
  reaches : ∀ i t₃ w₃,
    Visits run l.key l.value (blockStep host t₁ (l.fields ++ l.body)) (visits v) t₂ w i t₃ w₃ →
      Reaches run host ⟨[l.stmt], s, w⟩ ⟨l.fields ++ l.body, t₃, w₃⟩

theorem exists_entered (hcount : host.functions.get? "count" = some count) (hspares : SparesCount l)
    (hbound : Bound run host l.subject s w v) (hv : v.isArray = true) (hne : elements v ≠ []) :
    ∃ t₁ t₂, Entered run host l s w v t₁ t₂ := by
  obtain ⟨calls, calls', calls'', hguard, hentry, hsubject⟩ := entered hcount hspares hbound hv hne
  let t₁ : State := { s with scope := countsSet l (elements v).length s.scope, calls := calls' }
  refine ⟨t₁, { t₁.deeper with calls := calls'' }, rfl, rfl, rfl, fun i t w' => ⟨?_, ?_⟩,
    fun i t₃ w₃ => rounds_reached hguard rfl hentry hsubject⟩
  · rintro ⟨hguard', -, hentry', hsubject', hvisits, hfields⟩
    rw [hguard] at hguard'
    cases hguard'
    rw [hentry] at hentry'
    cases hentry'
    rw [hsubject] at hsubject'
    cases hsubject'
    exact ⟨_, _, hvisits, hfields⟩
  · rintro ⟨t₃, w₃, hvisits, hfields⟩
    exact .intro hguard rfl hentry hsubject hvisits hfields

theorem length_visits (v : Value) : (visits v).length = (elements v).length := by
  rw [← visits_elements, List.length_map]

namespace Entered

variable {t₁ t₂ t₃ : State} {w₃ : σ}

omit [LawfulMonad m] in
theorem includeDepth (h : Entered run host l s w v t₁ t₂) :
    t₂.frame.includeDepth = t₁.frame.includeDepth := by
  rw [h.deeper, h.frame]
  rfl

omit [LawfulMonad m] in
theorem counted (h : Entered run host l s w v t₁ t₂) :
    Counted l 0 (elements v).length t₂.scope := by
  rw [h.scope]
  exact counted_countsSet s.scope

theorem round (h : Entered run host l s w v t₁ t₂) (hspares : SparesCount l)
    (hincluded : Point.IncludesOnly run host (¬l.Counts ·) ⟨[l.stmt], s, w⟩)
    (hlength : (elements v).length < 2 ^ 63)
    (hvisits : Visits run l.key l.value (blockStep host t₁ (l.fields ++ l.body)) (visits v) t₂ w
      i t₃ w₃) :
    Counted l i (elements v).length t₃.scope ∧ Point.outcome run host ⟨l.fields, t₃, w₃⟩ =
      ((.ok .normal, { t₃ with scope := fieldsSet l i (elements v).length t₃.scope }), w₃) := by
  have hcounted := hvisits.counted hspares h.includeDepth
    (fun j t w' hvisits => hincluded.reaches (h.reaches j t w' hvisits)) h.counted
    ((Nat.zero_add _).trans (length_visits v)) hlength
  rw [Nat.zero_add] at hcounted
  obtain ⟨entry, hentry, -⟩ := hvisits.entry
  have hi : i < (elements v).length := length_visits v ▸ (List.getElem?_eq_some_iff.mp hentry).1
  exact ⟨hcounted, outcome_fields hcounted (by omega) (by omega) hlength⟩

theorem next {flow : Flow} (h : Entered run host l s w v t₁ t₂)
    (hstarts : Starts run host l s w i t w')
    (hbody : Point.outcome run host ⟨l.body, t, w'⟩ = ((.ok flow, u), w'')) (hflow : flow ≠ .break)
    (hi : i + 1 < (elements v).length) :
    ∃ entry, Visits run l.key l.value (blockStep host t₁ (l.fields ++ l.body))
      (visits v) t₂ w (i + 1)
      (u.visiting l.key l.value entry) w'' := by
  obtain ⟨t₃, w₃, hvisits, hset⟩ := (h.starts i t w').mp hstarts
  have hround := (passes_append l.body hset).2.trans hbody
  have hdepth : t₃.frame.includeDepth = t₁.frame.includeDepth :=
    (congrArg Frame.includeDepth (hvisits.frame (block_keepsFrame _ _))).trans h.includeDepth
  rw [Point.outcome_eq (s := t₁) run host hdepth] at hround
  exact hvisits.next hround hflow (by rwa [length_visits])

/-- The fields of a round come from the counts that the round before left, whatever set them. -/
theorem next_fields {flow : Flow} {k : Nat} (h : Entered run host l s w v t₁ t₂)
    (hspares : SparesCount l) (hstarts : Starts run host l s w i t w')
    (hbody : Point.outcome run host ⟨l.body, t, w'⟩ = ((.ok flow, u), w'')) (hflow : flow ≠ .break)
    (hi : i + 1 < (elements v).length) (hcounted : Counted l k n u.scope) (hk : k + 1 < 2 ^ 63)
    (hpos : 0 < n) (hn : n < 2 ^ 63) :
    ∃ t', Starts run host l s w (i + 1) t' w'' ∧ ∀ f : LoopField,
      Entries.get? t'.scope (loopFieldName l.value f.name) = some (f.valueAt k n) := by
  obtain ⟨entry, hnext⟩ := h.next hstarts hbody hflow hi
  have hround : Counted l k n (u.visiting l.key l.value entry).scope :=
    hcounted.of_varied (State.varied_visiting hspares.key (l.not_counts_of_length le_rfl))
  exact ⟨_, (h.starts (i + 1) _ _).mpr ⟨_, _, hnext, outcome_fields hround hk hpos hn⟩,
    get?_fieldsSet hround⟩

end Entered

/-- How a loop goes that begins in a state: when its body starts, and with which fields. -/
structure LoopKept (run : Runner m σ) (host : Host m) (l : EachLoop) (s : State) (w : σ) :
    Prop where
  /-- When the body starts, the value and the fields are those of the element of that position. -/
  fields : ∀ v, Bound run host l.subject s w v → v.isArray = true → (elements v).length < 2 ^ 63 →
    ∀ i t w', Starts run host l s w i t w' →
      (∃ e, (elements v)[i]? = some e ∧ Entries.get? t.scope l.value = some e) ∧
        ∀ f : LoopField, Entries.get? t.scope (loopFieldName l.value f.name) =
          some (f.valueAt i (elements v).length)
  /-- The body starts for the first element, -/
  begins : ∀ v, Bound run host l.subject s w v → v.isArray = true → (elements v).length < 2 ^ 63 →
    elements v ≠ [] → ∃ t w', Starts run host l s w 0 t w'
  /-- and for the next one whenever it ended without leaving the loop. -/
  goesOn : ∀ v, Bound run host l.subject s w v → v.isArray = true → (elements v).length < 2 ^ 63 →
    ∀ i t w' flow u w'', Starts run host l s w i t w' →
      Point.outcome run host ⟨l.body, t, w'⟩ = ((.ok flow, u), w'') → flow ≠ .break →
        i + 1 < (elements v).length → ∃ t' v', Starts run host l s w (i + 1) t' v'
  reaches : ∀ i t w', Starts run host l s w i t w' →
    Reaches run host ⟨[l.stmt], s, w⟩ ⟨l.body, t, w'⟩
  /-- For nothing, and for what counts as false, the body does not start and no variable changes. -/
  empty : (∀ v, Bound run host l.subject s w v → v.truthy = false) →
    (∀ i t w', ¬Starts run host l s w i t w') ∧
      (Point.outcome run host ⟨[l.stmt], s, w⟩).1.2.scope = s.scope

theorem loop_empty (hspares : SparesCount l)
    (hempty : ∀ v, Bound run host l.subject s w v → v.truthy = false) :
    (∀ i t w', ¬Starts run host l s w i t w') ∧
      (Point.outcome run host ⟨[l.stmt], s, w⟩).1.2.scope = s.scope := by
  obtain ⟨r, calls, hguard, hfalse⟩ := guard_of_not_truthy hspares hempty
  constructor
  · rintro i t w' ⟨hguard', hc, -, -, -, -⟩
    rw [hguard] at hguard'
    cases hguard'
    exact absurd hc (by simp [hfalse _ rfl])
  · cases r with
    | error e =>
      have hstmt : run.run (stmtStep host s l.stmt s) w = ((.error e, { s with calls }), w) :=
        run_bind_of_error run hguard
      rw [outcome_cons_error hstmt]
    | ok c =>
      have hstmt : run.run (stmtStep host s l.stmt s) w = ((.ok .normal, { s with calls }), w) := by
        refine (run_bind_of_ok run hguard).trans ?_
        rw [hfalse c rfl]
        exact run_pure_ok run _ _ w
      rw [outcome_cons_ok hstmt]
      exact congrArg (fun p => p.1.2.scope) (run_pure_ok run Flow.normal { s with calls } w)

theorem loopKept (hcount : host.functions.get? "count" = some count) (hspares : SparesCount l)
    (hincluded : Point.IncludesOnly run host (¬l.Counts ·) ⟨[l.stmt], s, w⟩) :
    LoopKept run host l s w where
  fields v hbound hv hlength i t w' h := by
    by_cases hne : elements v = []
    -- A loop over no elements has no rounds, so none of its bodies starts.
    · have hempty : ∀ v', Bound run host l.subject s w v' → v'.truthy = false := by
        intro v' hv'
        rw [← hbound.unique hv', truthy_of_array hv, hne]
        rfl
      exact absurd h ((loop_empty hspares hempty).1 i t w')
    · obtain ⟨t₁, t₂, hentered⟩ := exists_entered hcount hspares hbound hv hne
      obtain ⟨t₃, w₃, hvisits, hset⟩ := (hentered.starts i t w').mp h
      obtain ⟨hcounted, hfields⟩ := hentered.round hspares hincluded hlength hvisits
      rw [hfields] at hset
      cases hset
      obtain ⟨entry, hentry, hvalue⟩ := hvisits.entry
      refine ⟨⟨entry.2, ?_, (get?_fieldsSet_of_length le_rfl).trans hvalue⟩,
        get?_fieldsSet hcounted⟩
      rw [← visits_elements, List.getElem?_map, hentry]
      rfl
  begins v hbound hv hlength hne := by
    obtain ⟨t₁, t₂, hentered⟩ := exists_entered hcount hspares hbound hv hne
    -- The first round begins in the state in which the loop was entered.
    obtain ⟨entry, rest, hentries⟩ : ∃ entry rest, visits v = entry :: rest := by
      refine List.exists_cons_of_ne_nil fun hnil => hne ?_
      rw [← visits_elements, hnil]
      rfl
    have hfirst : Visits run l.key l.value (blockStep host t₁ (l.fields ++ l.body))
      (visits v) t₂ w 0
        (t₂.visiting l.key l.value entry) w := by
      rw [hentries]
      exact .now
    exact ⟨_, _, (hentered.starts 0 _ _).mpr
      ⟨_, _, hfirst, (hentered.round hspares hincluded hlength hfirst).2⟩⟩
  goesOn v hbound hv hlength i t w' flow u w'' h hbody hflow hi := by
    have hne : elements v ≠ [] := List.ne_nil_of_length_pos (by omega)
    obtain ⟨t₁, t₂, hentered⟩ := exists_entered hcount hspares hbound hv hne
    obtain ⟨entry, hnext⟩ := hentered.next h hbody hflow hi
    exact ⟨_, _, (hentered.starts (i + 1) _ _).mpr
      ⟨_, _, hnext, (hentered.round hspares hincluded hlength hnext).2⟩⟩
  reaches i t w' h := h.reaches
  empty := loop_empty hspares

end Course

end ViewTemplate.Run
