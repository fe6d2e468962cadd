import ViewTemplate.Proofs.Run.EachLoop

namespace ViewTemplate.Run

open Code Directive

variable {m : Type → Type} [Monad m] {σ : Type} {run : Runner m σ} {host : Host m}
  {l : EachLoop} {s t u : State} {w w' w'' : σ} {v : Value} {n : Nat}

section Nested

theorem eachLoop_alters {W : String → Prop} (hsubject : l.subject.Each (Expr.Assigns W))
    (hkey : ∀ k ∈ l.key, W k) (hvalue : W l.value)
    (hfields : ∀ f ∈ loopFieldNames, W (loopFieldName l.value f)) (hbody : AltersAll W l.body) :
    l.stmt.Alters W := by
  have hset {f : String} (hf : f ∈ loopFieldNames) {e : Expr} (he : e.Each (Expr.Assigns W)) :
      (setField l.value f e).Alters W := by
    refine ⟨?_, trivial, he⟩
    rintro _ ⟨⟩
    exact hfields f hf
  have hrounds : l.rounds.Alters W := by
    refine ⟨hsubject, hkey, hvalue, altersAll_append ?_ hbody⟩
    exact ⟨hset (by decide) trivial, hset (by decide) ⟨trivial, trivial, trivial⟩,
      hset (by decide) ⟨trivial, trivial, trivial⟩,
      hset (by decide) ⟨trivial, trivial, trivial, trivial, trivial⟩,
      hset (by decide) ⟨trivial, trivial, trivial⟩, trivial⟩
  refine ⟨⟨trivial, trivial, hsubject, trivial⟩, altersAll_append ?_ ⟨hrounds, trivial⟩, trivial⟩
  exact ⟨hset (by decide) trivial, hset (by decide) ⟨trivial, hsubject, trivial⟩, trivial⟩

theorem eachLoop_alters_of_ne {l' : EachLoop} (hne : l'.value ≠ l.value)
    (hvalue : ¬l.Counts l'.value)
    (hkey : ∀ k ∈ l'.key, ¬l.Counts k) (hsubject : l'.subject.Each (Expr.Assigns (¬l.Counts ·)))
    (hbody : AltersAll (¬l.Counts ·) l'.body) : l'.stmt.Alters (¬l.Counts ·) := by
  refine eachLoop_alters hsubject hkey hvalue (fun f hf hcounts => ?_) hbody
  rcases hcounts with h | h
  · exact hne (loopFieldName_inj hf (by decide) h).1
  · exact hne (loopFieldName_inj hf (by decide) h).1

end Nested

section Idle

variable [LawfulMonad m]

theorem run_rounds (hsubject : run.run ((read host l.subject).value s.deeper) w = ((.ok v, t), w'))
    (hrounds : run.run
      (forEach l.key l.value (blockStep host s (l.fields ++ l.body)) (visits v) t) w' =
        ((.ok (), u), w'')) :
    run.run (stmtStep host s l.rounds s) w = ((.ok .normal, { u with frame := s.frame }), w'') := by
  have hloop := run_inLoop (visits_keepsFrame s l.subject l.key l.value (l.fields ++ l.body))
    ((run_bind_of_ok run hsubject).trans hrounds)
  exact (run_bind_of_ok run hloop).trans (run_pure_ok run _ _ w'')

theorem run_idleRounds (run : Runner m σ) (host : Host m) (runBody : List Stmt → Step m Flow)
    (w : σ) {entries : List (Value × Value)} (hspares : SparesCount l) (hbody : l.body = [])
    (hn : n < 2 ^ 63) :
    ∀ {k : Nat} {s : State}, Counted l k n s.scope → k + entries.length = n →
      ∃ t, run.run
        (forEach l.key l.value (execBlock host runBody (l.fields ++ l.body)) entries s) w =
          ((.ok (), t), w) ∧ Counted l n n t.scope := by
  rw [hbody, List.append_nil]
  induction entries with
  | nil =>
    rintro k s hcounted rfl
    exact ⟨s, run_pure_ok run () s w, hcounted⟩
  | cons entry rest ih =>
    intro k s hcounted hlength
    rw [List.length_cons] at hlength
    have hround : Counted l k n (s.visiting l.key l.value entry).scope :=
      hcounted.of_varied (State.varied_visiting hspares.key (l.not_counts_of_length le_rfl))
    let set : State :=
      { s.visiting l.key l.value entry with
        scope := fieldsSet l k n (s.visiting l.key l.value entry).scope }
    have hset : Counted l (k + 1) n set.scope := counted_fieldsSet hround
    obtain ⟨t, hrest, hall⟩ := ih hset (by omega)
    refine ⟨t, ?_, hall⟩
    rw [run_forEach_cons]
    exact (run_bind_of_ok run (run_fields hround (by omega) (by omega) hn)).trans hrest

/-- A loop that does nothing else leaves the number of its elements in its count. -/
theorem run_idle (hcount : host.functions.get? "count" = some count) (hspares : SparesCount l)
    (hbody : l.body = []) (hbound : Bound run host l.subject s w v) (hv : v.isArray = true)
    (hne : elements v ≠ []) (hlength : (elements v).length < 2 ^ 63) :
    ∃ t, Point.outcome run host ⟨[l.stmt], s, w⟩ = ((.ok .normal, t), w) ∧
      Counted l (elements v).length (elements v).length t.scope := by
  obtain ⟨calls, calls', calls'', hguard, hentry, hsubject⟩ := entered hcount hspares hbound hv hne
  let t₁ : State := { s with scope := countsSet l (elements v).length s.scope, calls := calls' }
  have hcounted : Counted l 0 (elements v).length { t₁.deeper with calls := calls'' }.scope :=
    counted_countsSet s.scope
  obtain ⟨t, hrounds, hall⟩ := run_idleRounds run host (bodies host (room host t₁)) w hspares hbody
    hlength hcounted ((Nat.zero_add _).trans (length_visits v))
  have hloop : Point.outcome run host ⟨[l.rounds], t₁, w⟩ =
      ((.ok .normal, { t with frame := t₁.frame }), w) := by
    rw [outcome_cons_ok (run_rounds hsubject hrounds)]
    exact run_pure_ok run _ _ w
  refine ⟨{ t with frame := s.frame }, ?_, hall⟩
  have hstmt : run.run (stmtStep host s l.stmt s) w =
      ((.ok .normal, { t with frame := s.frame }), w) :=
    (run_bind_of_ok run hguard).trans ((passes_append _ hentry).2.trans hloop)
  rw [outcome_cons_ok hstmt]
  exact run_pure_ok run _ _ w

theorem run_include_idle {name : String} (path : Path) {line : Nat}
    (hcount : host.functions.get? "count" = some count) (hspares : SparesCount l)
    (hbody : l.body = []) (hload : run.run (host.load name) w = (.ok (path, ⟨[l.stmt]⟩), w'))
    (hdepth : s.frame.includeDepth < host.maxIncludeDepth)
    (hbound : ∀ frame, Bound run host l.subject { s with frame } w' v) (hv : v.isArray = true)
    (hne : elements v ≠ []) (hlength : (elements v).length < 2 ^ 63) :
    ∃ t, Point.outcome run host ⟨[.include (.literal (.string name)) line], s, w⟩ =
      ((.ok .normal, t), w') ∧ Counted l (elements v).length (elements v).length t.scope := by
  obtain ⟨t, hinside, hall⟩ := run_idle hcount hspares hbody (hbound _) hv hne hlength
  refine ⟨{ t with frame := s.frame }, ?_, hall⟩
  have hname : run.run ((read host (.literal (.string name))).value s) w =
      ((.ok (.string name), s), w) := run_pure_ok run _ s w
  have hstmt : run.run (stmtStep host s (.include (.literal (.string name)) line) s) w =
      ((.ok .normal, { t with frame := s.frame }), w') := by
    refine (run_bind_of_ok run hname).trans ?_
    exact (run_bind_of_ok run (run_include hdepth hload hinside)).trans (run_pure_ok run _ _ w')
  rw [outcome_cons_ok hstmt]
  exact run_pure_ok run _ _ w'

end Idle

/-- A template that is included and loops over the same variable leaves the number of its own
elements behind, from which the loop around it goes on to count. -/
theorem not_loopKept_of_including [LawfulMonad m] (run : Runner m σ) (host : Host m) (w : σ)
    (hcount : host.functions.get? "count" = some count) (hdepth : 0 < host.maxIncludeDepth)
    (hload : run.run (host.load "part") w =
      (.ok (⟨"part"⟩, ⟨[EachLoop.stmt ⟨.var "b", none, "x", [], 2⟩]⟩), w')) :
    let l : EachLoop := ⟨.var "a", none, "x", [.include (.literal (.string "part")) 1], 1⟩
    ¬LoopKept run host l
      ⟨[("a", .list [.string "p", .string "q"]), ("b", .list [.null, .null, .null])],
      "", ⟨⟨"page"⟩, 0, 0⟩, []⟩ w := by
  intro l hkept
  let part : EachLoop := ⟨.var "b", none, "x", [], 2⟩
  let s : State := ⟨[("a", .list [.string "p", .string "q"]), ("b", .list [.null, .null, .null])],
    "", ⟨⟨"page"⟩, 0, 0⟩, []⟩
  have hpart : SparesCount part :=
    ⟨⟨part.not_counts_of_length (by decide), trivial⟩, nofun, trivial⟩
  have hspares : SparesCount l :=
    ⟨⟨l.not_counts_of_length (by decide), trivial⟩, nofun, trivial, trivial⟩
  have hbound : Bound run host l.subject s w (.list [.string "p", .string "q"]) :=
    ⟨s, w, quiet_readVariable host "a" s w⟩
  obtain ⟨t₁, t₂, hentered⟩ := exists_entered hcount hspares hbound rfl (List.cons_ne_nil _ _)
  -- the first round is as it should be
  let begun : State := t₂.visiting none "x" (.int 0, .string "p")
  have hbegun : Counted l 0 2 begun.scope :=
    hentered.counted.of_varied (.set _ (l.not_counts_of_length (by decide)) .refl)
  let first : State := { begun with scope := fieldsSet l 0 2 begun.scope }
  have hfirst : Starts run host l s w 0 first w := (hentered.starts 0 _ _).mpr
    ⟨begun, w, .now, outcome_fields hbegun (by decide) (by decide) (by decide)⟩
  have hfound (frame : Frame) :
      Bound run host part.subject { first with frame } w' (.list [.null, .null, .null]) := by
    have hshort : "b".length ≤ l.value.length := by decide
    have hget : Entries.get? first.scope "b" = some (.list [.null, .null, .null]) := by
      refine (get?_fieldsSet_of_length hshort).trans ?_
      refine (Entries.get?_insert_of_ne _ (by decide) _).trans ?_
      rw [hentered.scope]
      exact get?_countsSet_of_length hshort
    exact ⟨_, w', hget ▸ quiet_readVariable host "b" { first with frame } w'⟩
  have hroom : first.frame.includeDepth < host.maxIncludeDepth := by
    rw [show first.frame = s.deeper.frame from hentered.deeper]
    exact hdepth
  obtain ⟨left, hleft, hall⟩ := run_include_idle ⟨"part"⟩ hcount hpart rfl hload hroom hfound rfl
    (List.cons_ne_nil _ _) (by decide)
  have hthree : Counted l 3 3 left.scope := ⟨hall.counter, hall.total⟩
  obtain ⟨second, hsecond, hfields⟩ := hentered.next_fields hspares hfirst hleft nofun (by decide)
    hthree (by decide) (by decide) (by decide)
  have hindex := (hkept.fields _ hbound rfl (by decide) 1 second w' hsecond).2 .index
  exact absurd ((hfields .index).symm.trans hindex) (by simp [LoopField.valueAt])

/-- A subject that reads the number of the elements is another one when the rounds begin. -/
theorem not_loopKept_of_reading [LawfulMonad m] (run : Runner m σ) (host : Host m) (w : σ)
    (hcount : host.functions.get? "count" = some count) (hlenient : host.strict = false) :
    let l : EachLoop := ⟨.index (.var "a") (.var (loopFieldName "x" "total")), none, "x", [], 1⟩
    ¬LoopKept run host l ⟨[("a", .map [("", .list [.string "p", .string "q"]),
      ("2", .list [.string "r"])])], "", ⟨⟨"page"⟩, 0, 0⟩, []⟩ w := by
  intro l hkept
  let a : Value := .map [("", .list [.string "p", .string "q"]), ("2", .list [.string "r"])]
  let s : State := ⟨[("a", a)], "", ⟨⟨"page"⟩, 0, 0⟩, []⟩
  have hnone : Entries.get? s.scope (loopFieldName "x" "total") = none :=
    if_neg (ne_loopFieldName_of_length (by decide) _)
  have hquiet : run.run ((read host l.subject).quiet s) w =
      ((.ok (some (.list [.string "p", .string "q"])), s), w) :=
    run_index_quiet (quiet_readVariable host "a" s w) (run_undefined hlenient hnone) rfl
  -- The guard and `count` read the subject before the number of elements is set, the loop after.
  let zeroed : State :=
    { s with scope := Entries.insert s.scope (loopFieldName "x" "counter") (.int 0) }
  have hcounted : run.run ((read host l.subject).value zeroed) w =
      ((.ok (.list [.string "p", .string "q"]), zeroed), w) := by
    have hnone' : Entries.get? zeroed.scope (loopFieldName "x" "total") = none :=
      (Entries.get?_insert_of_ne _ (loopFieldName_ne (by decide) (by decide) (by decide)) _).trans
        hnone
    have ha : Entries.get? zeroed.scope "a" = some a :=
      Entries.get?_insert_of_ne _ (ne_loopFieldName_of_length (by decide) _) _
    exact run_index (run_var ha) (run_undefined hlenient hnone') rfl rfl
  obtain ⟨calls, hentry⟩ := run_entry hcount hcounted rfl
  let entered : State := { s with scope := countsSet l 2 s.scope, calls }
  have hother : run.run ((read host l.subject).value entered.deeper) w =
      ((.ok (.list [.string "r"]), entered.deeper), w) := by
    have ha : Entries.get? entered.deeper.scope "a" = some a := get?_countsSet_of_length (by decide)
    exact run_index (run_var ha) (run_var (counted_countsSet s.scope).total) rfl rfl
  let begun : State := entered.deeper.visiting none "x" (.int 0, .string "r")
  have hbegun : Counted l 0 2 begun.scope :=
    (counted_countsSet s.scope).of_varied (.set _ (l.not_counts_of_length (by decide)) .refl)
  have hstarts : Starts run host l s w 0 _ w := .intro (run_guard hquiet rfl) rfl hentry hother .now
    (outcome_fields hbegun (by decide) (by decide) (by decide))
  obtain ⟨e, he, hvalue⟩ := (hkept.fields _ ⟨s, w, hquiet⟩ rfl (by decide) 0 _ _ hstarts).1
  cases he
  have hfound : Entries.get? (fieldsSet l 0 2 begun.scope) "x" = some (.string "r") :=
    (get?_fieldsSet_of_length le_rfl).trans (Entries.get?_insert_self _ _ _)
  exact absurd (hfound.symm.trans hvalue) (by simp)

/-- The fields of a loop are right whenever its body starts, in the code that a loop is written as,
for every subject and every body that leave alone what the loop counts with, whatever else the body
and the templates do that are included while it runs. Nested loops over other variables are such,
because no two loops keep a field in the same variable. -/
theorem loop_fields_kept [LawfulMonad m] (run : Runner m σ) (host : Host m)
    (hcount : host.functions.get? "count" = some count) (l : EachLoop) (hspares : SparesCount l)
    (s : State) (w : σ)
    (hincluded : Point.IncludesOnly run host (¬l.Counts ·) ⟨[l.stmt], s, w⟩) :
    l.Written ∧ LoopKept run host l s w ∧
      (∀ l' : EachLoop, l'.value ≠ l.value → ¬l.Counts l'.value → (∀ k ∈ l'.key, ¬l.Counts k) →
        l'.subject.Each (Expr.Assigns (¬l.Counts ·)) → AltersAll (¬l.Counts ·) l'.body →
          l'.stmt.Alters (¬l.Counts ·)) ∧
      ∀ x y f g, f ∈ loopFieldNames → g ∈ loopFieldNames → loopVariable x f = loopVariable y g →
        x = y ∧ f = g := by
  refine ⟨l.written, loopKept hcount hspares hincluded, fun l' => eachLoop_alters_of_ne,
    fun x y f g hf hg h => ?_⟩
  rw [loopVariable_eq_field, loopVariable_eq_field] at h
  exact loopFieldName_inj hf hg (String.append_right_inj _ |>.mp h)

/-- A loop over two elements under a key, with a template that has a loop of its own. -/
theorem loop_fields_kept_of_include :
    let run := Runner.ofState Nat
    let inner : EachLoop := ⟨.var "b", none, "y", [.break 3], 2⟩
    let host : Host (StateM Nat) :=
      ⟨[("count", count)], fun _ n => (.ok (⟨"part"⟩, ⟨[inner.stmt]⟩), n + 1), true, 1, 0⟩
    let l : EachLoop := ⟨.index (.var "a") (.literal (.string "k")), some "k", "x",
      [.include (.literal (.string "part")) 1], 1⟩
    let v : Value := .list [.null, .bool true]
    let s : State := ⟨[("a", .map [("k", v)])], "", ⟨⟨"page"⟩, 0, 0⟩, []⟩
    SparesCount l ∧ Point.IncludesOnly run host (¬l.Counts ·) ⟨[l.stmt], s, 0⟩ ∧
      Bound run host l.subject s 0 v ∧ ∃ t w', Starts run host l s 0 0 t w' ∧
        Entries.get? t.scope "x" = some .null ∧
        Entries.get? t.scope (loopFieldName "x" "iteration") = some (.int 1) ∧
        Entries.get? t.scope (loopFieldName "x" "last") = some (.bool false) ∧
        Entries.get? t.scope (loopFieldName "x" "total") = some (.int 2) := by
  intro run inner host l v s
  have hspares : SparesCount l :=
    ⟨⟨⟨trivial, trivial⟩, ⟨l.not_counts_of_length (by decide), trivial⟩, trivial, trivial⟩,
      fun _ h => Option.mem_some.mp h ▸ l.not_counts_of_length (by decide), trivial, trivial⟩
  have hincluded : Point.IncludesOnly run host (¬l.Counts ·) ⟨[l.stmt], s, 0⟩ := by
    intro q path r _ hincludes
    cases hincludes with
    | template _ _ hload =>
      cases hload
      exact ⟨eachLoop_alters_of_ne (by decide) (l.not_counts_of_length (by decide)) nofun trivial
        ⟨trivial, trivial⟩, trivial⟩
  have hbound : Bound run host l.subject s 0 v :=
    ⟨s, 0, run_index_quiet (quiet_readVariable host "a" s 0) (run_pure_ok run _ s 0) rfl⟩
  obtain ⟨-, hkept, -⟩ := loop_fields_kept run host rfl l hspares s 0 hincluded
  obtain ⟨t, w', hstarts⟩ := hkept.begins v hbound rfl (by decide) (List.cons_ne_nil _ _)
  obtain ⟨⟨e, he, hvalue⟩, hfields⟩ := hkept.fields v hbound rfl (by decide) 0 t w' hstarts
  cases he
  exact ⟨hspares, hincluded, hbound, t, w', hstarts, hvalue, hfields .iteration, hfields .last,
    hfields .total⟩

/-- Neither may a template that is included loop over the same variable, nor may the subject read
the number of the elements. -/
theorem not_loop_fields_kept :
    let run := Runner.ofState Nat
    let host : Host (StateM Nat) := ⟨[("count", count)],
      fun _ n => (.ok (⟨"part"⟩, ⟨[EachLoop.stmt ⟨.var "b", none, "x", [], 2⟩]⟩), n + 1),
      false, 1, 0⟩
    let including : EachLoop := ⟨.var "a", none, "x", [.include (.literal (.string "part")) 1], 1⟩
    let reading : EachLoop :=
      ⟨.index (.var "a") (.var (loopFieldName "x" "total")), none, "x", [], 1⟩
    (SparesCount including ∧ ¬LoopKept run host including ⟨[("a", .list [.string "p", .string "q"]),
      ("b", .list [.null, .null, .null])], "", ⟨⟨"page"⟩, 0, 0⟩, []⟩ 0) ∧
    (reading.subject.Each (Expr.Assigns fun _ => False) ∧
      ¬LoopKept run host reading ⟨[("a", .map [("", .list [.string "p", .string "q"]),
        ("2", .list [.string "r"])])], "", ⟨⟨"page"⟩, 0, 0⟩, []⟩ 0) := by
  intro run host including reading
  have hspares : SparesCount including :=
    ⟨⟨including.not_counts_of_length (by decide), trivial⟩, nofun, trivial, trivial⟩
  exact ⟨⟨hspares, not_loopKept_of_including run host 0 rfl Nat.zero_lt_one rfl⟩,
    ⟨trivial, trivial, trivial⟩, not_loopKept_of_reading run host 0 rfl rfl⟩

end ViewTemplate.Run
