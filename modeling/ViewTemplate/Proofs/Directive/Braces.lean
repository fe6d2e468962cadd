import ViewTemplate.Proofs.Directive.Rewriting

namespace ViewTemplate.Directive

open Pattern

variable {next : Cursor → Option Cursor} {m n : Cursor} {rest w : List Char} {c : Char}

theorem run_opening_none (h : ∀ c, m.rest.head? = some c → c ≠ '{') :
    Delimiters.braces.opening.run next m = none := by
  refine run_eq_none fun n hn => ?_
  obtain ⟨k, hopen, -⟩ := hn
  obtain ⟨w, hw, hpast⟩ := takes_anyCase hopen
  obtain ⟨d, rfl, hd⟩ := List.map_eq_singleton_iff.mp (show w.map Text.foldChar = ['{'] from hw)
  exact absurd (Text.foldChar_leftBrace hd) (h d (by rw [hpast.1]; rfl))

theorem run_opening (h : m.rest = '{' :: c :: rest) (hc : Text.isBlank c = false) :
    Delimiters.braces.opening.run next m = next (m.after ['{'] (c :: rest)) := by
  refine (run_anyCase (w := ['{']) rfl h).trans (run_many_none fun _ => run_char_none ?_)
  intro d hd
  cases hd
  exact hc

theorem Rule.opensWithBrace_of_run {r : Rule}
    (h : ∀ m, ∃ next, r.pattern.run some m = Delimiters.braces.opening.run next m) :
    r.OpensWithBrace := by
  intro c cs hc before
  obtain ⟨next, hrun⟩ := h ⟨before, c :: cs, 0, []⟩
  rw [hrun]
  apply run_opening_none
  rintro _ ⟨⟩
  exact hc

theorem Rule.opensWithBrace_of_around {r : Rule} {content : Pattern}
    (h : r.pattern = Delimiters.braces.around content) : r.OpensWithBrace := by
  apply opensWithBrace_of_run
  rw [h]
  exact fun _ => ⟨_, rfl⟩

theorem run_closing (h : m.rest = '}' :: rest) :
    Delimiters.braces.closing.run next m = next (m.after ['}'] rest) := by
  refine Eq.trans (run_many_none fun _ => run_char_none ?_) (run_anyCase (w := ['}']) rfl h)
  intro d hd
  rw [h] at hd
  cases hd
  rfl

theorem run_around {content : Pattern} (h : m.rest = '{' :: c :: rest)
    (hc : Text.isBlank c = false) :
    (Delimiters.braces.around content).run next m =
      content.run (Delimiters.braces.closing.run next) (m.after ['{'] (c :: rest)) :=
  run_opening h hc

theorem takes_closing (h : Delimiters.braces.closing.Takes m n) :
    ∃ w, (∀ c ∈ w, Text.isBlank c = true) ∧ m.Past (w ++ ['}']) n := by
  obtain ⟨k, hblanks, hclose⟩ := h
  obtain ⟨w, hw, hpast⟩ := takes_many hblanks
  obtain ⟨v, hv, hpast'⟩ := takes_anyCase hclose
  obtain ⟨d, rfl, hd⟩ := List.map_eq_singleton_iff.mp (show v.map Text.foldChar = ['}'] from hv)
  cases Text.foldChar_rightBrace hd
  exact ⟨w, hw, hpast.trans hpast'⟩

theorem run_closing_none (h : m.rest = w ++ c :: rest) (hw : '}' ∉ w)
    (hblank : Text.isBlank c = false) (hc : c ≠ '}') :
    Delimiters.braces.closing.run next m = none := by
  refine run_eq_none fun n hn => ?_
  obtain ⟨v, hv, hpast⟩ := takes_closing hn
  have heq : w ++ c :: rest = v ++ '}' :: n.rest := by rw [← h, hpast.1, List.append_assoc]; rfl
  obtain ⟨u, rfl, hu⟩ | ⟨u, rfl, hu⟩ := List.append_eq_append_iff.mp heq
  · cases u with
    | nil => exact absurd (List.cons.inj hu).1 hc
    | cons d u =>
      obtain ⟨rfl, -⟩ := List.cons.inj hu
      rw [hv c (by simp)] at hblank
      cases hblank
  · cases u with
    | nil => exact absurd (List.cons.inj hu).1.symm hc
    | cons d u =>
      obtain ⟨rfl, -⟩ := List.cons.inj hu
      exact absurd (by simp) hw

/-- What stands on a line is skipped up to where the rest matches for the first time. -/
theorem run_few_inLine {r : Cursor} (h : m.rest = w ++ rest) (hline : '\n' ∉ w)
    (hshort : ∀ u c v, w = u ++ c :: v → next (m.after u (c :: v ++ rest)) = none)
    (hnext : next (m.after w rest) = some r) : (few inLine).run next m = some r := by
  rw [run_few h (fun u c v huv next => ?_) hshort]
  · exact run_few_of_some hnext
  · have hc : c ≠ '\n' := by
      rintro rfl
      exact hline (by simp [huv])
    rw [inLine, run_char rfl (decide_eq_true hc), Cursor.after_after]
    rfl

theorem run_line {r : Cursor} (h : m.rest = w ++ '}' :: rest) (hline : '\n' ∉ w)
    (hbrace : '}' ∉ w) (hend : ∀ c, w.getLast? = some c → Text.isBlank c = false)
    (hnext : next (m.after (w ++ ['}']) rest) = some r) :
    (few inLine ++ Delimiters.braces.closing).run next m = some r := by
  rw [run_seq]
  refine run_few_inLine h hline (fun u c v huv => ?_) ?_
  · -- What is left of the line ends in a character that is no blank.
    rcases List.eq_nil_or_concat (c :: v) with hnil | ⟨v', d, hd⟩
    · cases hnil
    · rw [hd] at huv ⊢
      have hrest : v'.concat d ++ '}' :: rest = v' ++ d :: '}' :: rest := by simp
      refine run_closing_none hrest ?_ ?_ ?_
      · exact fun hmem => hbrace (by simp [huv, hmem])
      · exact hend d (by simp [huv])
      · rintro rfl
        exact hbrace (by simp [huv])
  · rw [run_closing rfl, Cursor.after_after]
    exact hnext

theorem takes_access {others : String} (h : (access others).Takes m n) :
    ∃ w, w ≠ [] ∧ (∀ c ∈ w, (Text.isWordPart c || others.toList.contains c) = true) ∧
      m.Past ('$' :: w) n := by
  obtain ⟨k, hdollar, hword⟩ := h
  obtain ⟨w, hne, hw, hpast⟩ := takes_few1 hword
  exact ⟨w, hne, hw, (takes_exact hdollar).trans hpast⟩

/-- A variable is as short as the rest of the pattern allows. -/
theorem run_access {others : String} {r : Cursor} (h : m.rest = '$' :: (w ++ rest)) (hne : w ≠ [])
    (hw : ∀ c ∈ w, (Text.isWordPart c || others.toList.contains c) = true)
    (hshort : ∀ u v, w = u ++ v → u ≠ [] → v ≠ [] → next (m.after ('$' :: u) (v ++ rest)) = none)
    (hnext : next (m.after ('$' :: w) rest) = some r) :
    (access others).run next m = some r := by
  refine (run_exact (w := ['$']) rfl h).trans (run_few1 rfl hne hw (fun u v huv hu hv => ?_) ?_)
  · rw [Cursor.after_after]
    exact hshort u v huv hu hv
  · rw [Cursor.after_after]
    exact hnext

theorem run_access_none {others : String} (h : m.rest = '$' :: (w ++ c :: rest))
    (hc : (Text.isWordPart c || others.toList.contains c) = false)
    (hnext : ∀ u v, w = u ++ v → next (m.after ('$' :: u) (v ++ c :: rest)) = none) :
    (access others).run next m = none := by
  refine (run_exact (w := ['$']) rfl h).trans (run_few1_class_none rfl hc fun u v huv => ?_)
  rw [Cursor.after_after]
  exact hnext u v huv

theorem run_blanks {r : Cursor} (h : m.rest = w ++ c :: rest)
    (hw : ∀ d ∈ w, Text.isBlank d = true) (hc : Text.isBlank c = false)
    (hnext : next (m.after w (c :: rest)) = some r) : (many blank).run next m = some r := by
  rw [blank, run_many h hw (by rintro d ⟨⟩; exact hc) (by rw [hnext]; rfl), hnext]

/-- A blank between what does not match and what does not match either. -/
theorem run_blank_none (h : m.rest = ' ' :: c :: rest) (hc : Text.isBlank c = false)
    (hbefore : next m = none) (hbehind : next (m.after [' '] (c :: rest)) = none) :
    (many blank).run next m = none := by
  refine run_many_class_none (w := [' ']) h hc fun u v huv => ?_
  rcases List.append_eq_singleton_iff.mp huv.symm with ⟨rfl, rfl⟩ | ⟨rfl, rfl⟩
  · rw [show m.after [] ([' '] ++ c :: rest) = m from Cursor.after_nil h]
    exact hbefore
  · exact hbehind

theorem run_no_blanks (h : m.rest = c :: rest) (hc : Text.isBlank c = false) :
    (many blank).run next m = next m := by
  refine run_many_none fun _ => run_char_none ?_
  rintro d hd
  rw [h] at hd
  cases hd
  exact hc

end ViewTemplate.Directive
