import ViewTemplate.Proofs.Directive.Pending

namespace ViewTemplate.Directive

open Pattern

variable {r : Rule} {cs ds content : List Char} {changed : Bool}

/-- A rule that matches nothing of its own result is applied once. -/
theorem Rule.exhaust?_of_rewrites (h : r.Rewrites cs ds changed) (hagain : r.Rewrites ds ds false)
    (hsame : changed = false → ds = cs) (passes : Nat) :
    r.exhaust? (passes + 2) cs = some ds := by
  rw [Rule.exhaust?, h.apply_eq]
  cases changed with
  | false =>
    rw [if_neg Bool.false_ne_true, hsame rfl]
  | true =>
    rw [if_pos rfl]
    simp only
    rw [Rule.exhaust?, hagain.apply_eq]
    rfl

/-- A text cut into directives and what is none. -/
abbrev Draft := List (List Char ⊕ Pending)

/-- Before the rule with number `i`, the directives with a smaller number are code. -/
def Pending.shown (i : Nat) (d : Pending) : List Char :=
  if d.turn < i then d.code.toList else braced d.content

def Draft.shown (i : Nat) (t : Draft) : List Char := t.flatMap (Sum.elim id (Pending.shown i))

/-- What is no directive has no brace. -/
def Draft.Inert (t : Draft) : Prop := ∀ cs, .inl cs ∈ t → ∀ c ∈ cs, c ≠ '{'

/-- The rule with number `i` turns the directives of this number into code, and leaves the later
ones. -/
structure Rule.HasTurn (r : Rule) (i : Nat) : Prop where
  opens : r.OpensWithBrace
  turns : ∀ d : Pending, d.turn = i → ∀ rest, r.Turns (braced d.content) rest d.code.toList
  leaves : ∀ d : Pending, i < d.turn → ∀ rest, r.Leaves (braced d.content ++ rest)

def NoBrace (s : String) : Prop := ∀ c ∈ s.toList, c ≠ '{'

instance (s : String) : Decidable (NoBrace s) :=
  decidable_of_iff (s.toList.all (· != '{') = true) (by simp [NoBrace])

@[simp] theorem noBrace_append {s t : String} : NoBrace (s ++ t) ↔ NoBrace s ∧ NoBrace t := by
  unfold NoBrace
  rw [String.toList_append, List.forall_mem_append]

theorem noBrace_ofList (h : ∀ c ∈ cs, c ≠ '{') : NoBrace (String.ofList cs) := by
  rw [NoBrace, String.toList_ofList]
  exact h

theorem noBrace_codeBlock {s : String} (h : NoBrace s) : NoBrace (codeBlock s) := by
  simp only [codeBlock, noBrace_append, h, and_true]
  decide

theorem noBrace_loopOpening {subject head name : String} (hsubject : NoBrace subject)
    (hhead : NoBrace head) (hname : NoBrace name) : NoBrace (loopOpening subject head name) := by
  simp only [loopOpening, codeBlock, loopVariable, noBrace_append, hsubject, hhead, hname, and_true]
  and_intros <;> decide

theorem CodePath.noBrace (q : CodePath) : NoBrace q.text := by
  refine noBrace_ofList fun c hc => ?_
  rcases List.mem_cons.mp hc with rfl | hc
  · decide
  · exact ne_of_isPathChar (q.chars_ok c hc) rfl

theorem Identifier.noBrace (x : Identifier) : NoBrace x.text :=
  noBrace_ofList fun c hc => ne_of_isPathChar (x.isPathChar c hc) rfl

theorem Pending.code_noBrace (d : Pending) : NoBrace d.code := by
  rcases d with ⟨use, q⟩ | w
  · have hq := q.noBrace
    cases use with
    | each key value =>
      have hvalue := value.noBrace
      cases key with
      | none =>
        refine noBrace_loopOpening hq ?_ hvalue
        simp only [noBrace_append, hq, hvalue, and_true]
        decide
      | some key =>
        have hkey : NoBrace (String.ofList ('$' :: key.chars)) := by
          refine noBrace_ofList fun c hc => ?_
          rcases List.mem_cons.mp hc with rfl | hc
          · decide
          · exact ne_of_isPathChar (key.isPathChar c hc) rfl
        refine noBrace_loopOpening hq ?_ hvalue
        simp only [noBrace_append, hq, hkey, hvalue, and_true]
        decide
    | _ =>
      refine noBrace_codeBlock ?_
      simp only [noBrace_append, hq, and_true]
      decide
  · cases w <;> exact noBrace_codeBlock (by decide)

variable {i : Nat} {t : Draft}

theorem Pending.content_noBrace (d : Pending) : ∀ c ∈ d.content, c ≠ '{' := by
  rintro c hc rfl
  exact d.not_mem_content rfl hc

theorem Rule.HasTurn.rewrites (h : r.HasTurn i) (ht : t.Inert) :
    ∃ changed, r.Rewrites (t.shown i) (t.shown (i + 1)) changed ∧
      (changed = false → t.shown (i + 1) = t.shown i) := by
  refine ⟨_, .parts (fun d => d.turn == i) h.opens ht (fun d hd rest => ?_)
    (fun d hd _ _ _ hrest => ?_), fun hnone => ?_⟩
  · have hturn : d.turn = i := beq_iff_eq.mp hd
    rw [Pending.shown, Pending.shown, if_neg (by omega), if_pos (by omega)]
    exact ⟨by simp [braced], h.turns d hturn rest⟩
  · have hturn : d.turn ≠ i := beq_eq_false_iff_ne.mp hd
    rw [Pending.shown, Pending.shown]
    by_cases hlt : d.turn < i
    · rw [if_pos hlt, if_pos (by omega)]
      exact h.opens.rewrites hrest d.code_noBrace
    · rw [if_neg hlt, if_neg (by omega)]
      exact hrest.left h.opens (h.leaves d (by omega) _) d.content_noBrace
  · refine List.flatMap_congr fun part hpart => ?_
    cases part with
    | inl cs => rfl
    | inr d =>
      have hturn : d.turn ≠ i := fun heq => List.any_eq_false.mp hnone _ hpart (beq_iff_eq.mpr heq)
      simp only [Sum.elim_inr, Pending.shown]
      split <;> split <;> first | rfl | omega

theorem Rule.HasTurn.rewrites_again (h : r.HasTurn i) (ht : t.Inert) :
    r.Rewrites (t.shown (i + 1)) (t.shown (i + 1)) false := by
  have hrewrites : r.Rewrites (t.shown (i + 1)) (t.shown (i + 1))
      (t.any (Sum.elim (fun _ => false) fun _ => false)) := by
    refine .parts _ h.opens ht nofun fun d _ _ _ _ hrest => ?_
    rw [Pending.shown]
    split
    · exact h.opens.rewrites hrest d.code_noBrace
    · exact hrest.left h.opens (h.leaves d (by omega) _) d.content_noBrace
  have hnone : t.any (Sum.elim (fun _ => false) fun _ => false) = false :=
    List.any_eq_false.mpr fun part _ => by cases part <;> exact Bool.false_ne_true
  rw [hnone] at hrewrites
  exact hrewrites

/-- Rules that have their turns one after another, from number `i` on. -/
inductive HaveTurns : Nat → List Rule → Prop where
  | nil {i : Nat} : HaveTurns i []
  | cons {i : Nat} {r : Rule} {rest : List Rule} (h : r.HasTurn i)
      (hrest : HaveTurns (i + 1) rest) :
      HaveTurns i (r :: rest)

theorem HaveTurns.applyRules {rs : List Rule} (h : HaveTurns i rs) (ht : t.Inert) :
    applyRules rs (t.shown i) = .ok (t.shown (i + rs.length)) := by
  induction h with
  | nil => rfl
  | cons h _ ih =>
    obtain ⟨changed, hrewrites, hsame⟩ := h.rewrites ht
    have hexhaust := Rule.exhaust?_of_rewrites hrewrites (h.rewrites_again ht) hsame 254
    rw [Directive.applyRules, show maxPasses = 254 + 2 from rfl, hexhaust]
    simp only
    rw [ih, List.length_cons, Nat.add_right_comm, Nat.add_assoc]

theorem run_keyword {s : String} {w : List Char} {next : Cursor → Option Cursor} {m r : Cursor}
    {rest : List Char} (hs : s.toList = w) (h : m.rest = w ++ ' ' :: '$' :: rest)
    (hnext : next (m.after w (' ' :: '$' :: rest)) = some r) : (anyCase s).run next m = some r :=
  (run_anyCase hs h).trans hnext

theorem run_elseIf {next : Cursor → Option Cursor} {m r : Cursor} {rest : List Char}
    (h : m.rest = ['e', 'l', 's', 'e', ' ', 'i', 'f'] ++ ' ' :: '$' :: rest)
    (hnext : next (m.after ['e', 'l', 's', 'e', ' ', 'i', 'f'] (' ' :: '$' :: rest)) = some r) :
    (anyCase "else" ++ many blank ++ anyCase "if").run next m = some r := by
  simp only [run_seq]
  refine (run_anyCase (w := ['e', 'l', 's', 'e']) rfl h).trans ?_
  refine run_blanks (w := [' ']) rfl all_blank_singleton rfl ?_
  refine (run_anyCase (w := ['i', 'f']) rfl rfl).trans ?_
  rw [Cursor.after_after, Cursor.after_after]
  exact hnext

section Turns

/-- Each kind of directive has a turn of its own. -/
@[elab_as_elim]
theorem Pending.byTurn {motive : Pending → Prop} (raw : ∀ q, motive (.path .raw q))
    (echo : ∀ q, motive (.path .echo q)) (loop : ∀ q, motive (.path .loop q))
    (endLoop : motive (.word .endLoop)) (cond : ∀ q, motive (.path .cond q))
    (elseCond : ∀ q, motive (.path .elseCond q)) (otherwise : motive (.word .otherwise))
    (endCond : motive (.word .endCond)) (leave : motive (.word .break))
    (next : motive (.word .continue)) (each : ∀ value q, motive (.path (.each none value) q))
    (eachEntry : ∀ key value q, motive (.path (.each (some key) value) q))
    (endEach : motive (.word .endEach)) (d : Pending) : motive d := by
  rcases d with ⟨use, q⟩ | w
  · rcases use with _ | _ | _ | _ | _ | ⟨_ | key, value⟩
    · exact echo q
    · exact raw q
    · exact cond q
    · exact elseCond q
    · exact loop q
    · exact each value q
    · exact eachEntry key value q
  · cases w <;> assumption

/-- A rule only has to leave the directives behind its turn. -/
theorem leaves_of_turn_le {d : Pending} {i : Nat} (hle : Nat.ble d.turn i = true)
    (h : i < d.turn) : r.Leaves cs :=
  absurd h (Nat.not_lt.mpr (Nat.le_of_ble_eq_true hle))

theorem hasTurn_objectProperty : (objectProperty .braces).HasTurn 0 where
  opens := Rule.opensWithBrace_of_around rfl
  turns d h rest := by cases d using Pending.byTurn <;> cases h
  leaves d _ rest := objectProperty_leaves d rest

theorem hasTurn_unfiltered : (unfiltered .braces).HasTurn 1 where
  opens := Rule.opensWithBrace_of_around rfl
  turns d h rest := by
    cases d using Pending.byTurn with
    | raw q => exact unfiltered_turns q rest
    | _ => cases h
  leaves d h rest := by
    cases d using Pending.byTurn with
    | echo q => exact unfiltered_leaves_echo q rest
    | _ => first | exact leaves_of_turn_le rfl h | exact fun _ => rfl

theorem hasTurn_ternary : (ternary .braces).HasTurn 2 where
  opens := Rule.opensWithBrace_of_around rfl
  turns d h rest := by cases d using Pending.byTurn <;> cases h
  leaves d _ rest := ternary_leaves d rest

theorem hasTurn_assignment : (assignment .braces).HasTurn 3 where
  opens := Rule.opensWithBrace_of_around rfl
  turns d h rest := by cases d using Pending.byTurn <;> cases h
  leaves d h rest := by
    cases d using Pending.byTurn with
    | echo q => exact assignment_leaves_echo q rest
    | _ => first | exact leaves_of_turn_le rfl h | exact fun _ => rfl

theorem hasTurn_escapedEcho : (escapedEcho .braces).HasTurn 4 where
  opens := Rule.opensWithBrace_of_around rfl
  turns d h rest := by
    cases d using Pending.byTurn with
    | echo q => exact escapedEcho_turns q rest
    | _ => cases h
  leaves d h rest := by
    cases d using Pending.byTurn <;> first | exact leaves_of_turn_le rfl h | exact fun _ => rfl

theorem hasTurn_loop : (conditional .braces "while" (anyCase "while") "while").HasTurn 5 where
  opens := Rule.opensWithBrace_of_around rfl
  turns d h rest := by
    cases d using Pending.byTurn with
    | loop q =>
      have hturns := conditional_turns (c := 'w') (w := ['h', 'i', 'l', 'e']) "while" "while" rfl
        (run_keyword (s := "while") rfl) q rest
      simpa [Pending.content, Use.before, Use.after, Pending.code] using hturns
    | _ => cases h
  leaves d h rest := by
    cases d using Pending.byTurn <;> first | exact leaves_of_turn_le rfl h | exact fun _ => rfl

theorem hasTurn_endLoop : (fixed .braces "end-while" (anyCase "/while") "endwhile;").HasTurn 6 where
  opens := Rule.opensWithBrace_of_around rfl
  turns d h rest := by
    cases d using Pending.byTurn with
    | endLoop => exact fun _ => ⟨_, rfl, rfl, rfl⟩
    | _ => cases h
  leaves d h rest := by
    cases d using Pending.byTurn <;> first | exact leaves_of_turn_le rfl h | exact fun _ => rfl

theorem hasTurn_cond : (conditional .braces "if" (anyCase "if") "if").HasTurn 7 where
  opens := Rule.opensWithBrace_of_around rfl
  turns d h rest := by
    cases d using Pending.byTurn with
    | cond q =>
      have hturns := conditional_turns (c := 'i') (w := ['f']) "if" "if" rfl
        (run_keyword (s := "if") rfl) q rest
      simpa [Pending.content, Use.before, Use.after, Pending.code] using hturns
    | _ => cases h
  leaves d h rest := by
    cases d using Pending.byTurn <;> first | exact leaves_of_turn_le rfl h | exact fun _ => rfl

theorem hasTurn_elseCond :
    (conditional .braces "else-if" (anyCase "else" ++ many blank ++ anyCase "if") "elseif").HasTurn
    8 where
  opens := Rule.opensWithBrace_of_around rfl
  turns d h rest := by
    cases d using Pending.byTurn with
    | elseCond q =>
      have hturns := conditional_turns (c := 'e') (w := ['l', 's', 'e', ' ', 'i', 'f']) "else-if"
        "elseif" rfl run_elseIf q rest
      simpa [Pending.content, Use.before, Use.after, Pending.code] using hturns
    | _ => cases h
  leaves d h rest := by
    cases d using Pending.byTurn <;> first | exact leaves_of_turn_le rfl h | exact fun _ => rfl

theorem hasTurn_otherwise : (fixed .braces "else" (anyCase "else") "else :").HasTurn 9 where
  opens := Rule.opensWithBrace_of_around rfl
  turns d h rest := by
    cases d using Pending.byTurn with
    | otherwise => exact fun _ => ⟨_, rfl, rfl, rfl⟩
    | _ => cases h
  leaves d h rest := by
    cases d using Pending.byTurn <;> first | exact leaves_of_turn_le rfl h | exact fun _ => rfl

theorem hasTurn_endCond : (fixed .braces "end-if" (anyCase "/if") "endif;").HasTurn 10 where
  opens := Rule.opensWithBrace_of_around rfl
  turns d h rest := by
    cases d using Pending.byTurn with
    | endCond => exact fun _ => ⟨_, rfl, rfl, rfl⟩
    | _ => cases h
  leaves d h rest := by
    cases d using Pending.byTurn <;> first | exact leaves_of_turn_le rfl h | exact fun _ => rfl

theorem hasTurn_break : (fixed .braces "break" (anyCase "break") "break;").HasTurn 11 where
  opens := Rule.opensWithBrace_of_around rfl
  turns d h rest := by
    cases d using Pending.byTurn with
    | leave => exact fun _ => ⟨_, rfl, rfl, rfl⟩
    | _ => cases h
  leaves d h rest := by
    cases d using Pending.byTurn <;> first | exact leaves_of_turn_le rfl h | exact fun _ => rfl

theorem hasTurn_continue :
    (fixed .braces "continue" (anyCase "continue") "continue;").HasTurn 12 where
  opens := Rule.opensWithBrace_of_around rfl
  turns d h rest := by
    cases d using Pending.byTurn with
    | next => exact fun _ => ⟨_, rfl, rfl, rfl⟩
    | _ => cases h
  leaves d h rest := by
    cases d using Pending.byTurn <;> first | exact leaves_of_turn_le rfl h | exact fun _ => rfl

theorem hasTurn_foreachValue : (foreachValue .braces).HasTurn 13 where
  opens := Rule.opensWithBrace_of_around rfl
  turns d h rest := by
    cases d using Pending.byTurn with
    | each value q => exact foreachValue_turns value q rest
    | _ => cases h
  leaves d h rest := by
    cases d using Pending.byTurn with
    | eachEntry key value q => exact foreachValue_leaves_entry key value q rest
    | _ => first | exact leaves_of_turn_le rfl h | exact fun _ => rfl

theorem hasTurn_foreachEntry : (foreachEntry .braces).HasTurn 14 where
  opens := Rule.opensWithBrace_of_around rfl
  turns d h rest := by
    cases d using Pending.byTurn with
    | eachEntry key value q => exact foreachEntry_turns key value q rest
    | _ => cases h
  leaves d h rest := by
    cases d using Pending.byTurn <;> first | exact leaves_of_turn_le rfl h | exact fun _ => rfl

theorem hasTurn_endEach :
    (fixed .braces "end-foreach" (anyCase "/foreach") "endforeach; endif;").HasTurn 15 where
  opens := Rule.opensWithBrace_of_around rfl
  turns d h rest := by
    cases d using Pending.byTurn with
    | endEach => exact fun _ => ⟨_, rfl, rfl, rfl⟩
    | _ => cases h
  leaves d h rest := by cases d using Pending.byTurn <;> exact leaves_of_turn_le rfl h

theorem hasTurn_includeFile : (includeFile .braces).HasTurn 16 where
  opens := Rule.opensWithBrace_of_around rfl
  turns d h rest := by cases d using Pending.byTurn <;> cases h
  leaves d h rest := by cases d using Pending.byTurn <;> exact leaves_of_turn_le rfl h

end Turns

/-- The rules behind those that rewrite paths have their turns in the order of the table. -/
theorem haveTurns : HaveTurns 0 ((rules .braces).drop 4) :=
  .cons hasTurn_objectProperty <| .cons hasTurn_unfiltered <| .cons hasTurn_ternary <|
  .cons hasTurn_assignment <| .cons hasTurn_escapedEcho <| .cons hasTurn_loop <|
  .cons hasTurn_endLoop <| .cons hasTurn_cond <| .cons hasTurn_elseCond <|
  .cons hasTurn_otherwise <| .cons hasTurn_endCond <| .cons hasTurn_break <|
  .cons hasTurn_continue <| .cons hasTurn_foreachValue <| .cons hasTurn_foreachEntry <|
  .cons hasTurn_endEach <| .cons hasTurn_includeFile .nil

def Draft.code (t : Draft) : List Char := t.flatMap (Sum.elim id fun d => d.code.toList)

theorem Draft.applyRules (ht : t.Inert) :
    Directive.applyRules ((rules .braces).drop 4) (t.shown 0) = .ok t.code := by
  rw [haveTurns.applyRules ht]
  refine congrArg Except.ok (List.flatMap_congr fun part _ => ?_)
  cases part with
  | inl cs => rfl
  | inr d =>
    have hturn : d.turn < 17 := by
      cases d using Pending.byTurn <;> exact Nat.le_of_ble_eq_true rfl
    exact if_pos hturn

end ViewTemplate.Directive
