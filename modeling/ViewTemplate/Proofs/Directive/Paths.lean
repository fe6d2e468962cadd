import ViewTemplate.Proofs.Directive.Settling
import Mathlib.Data.Bool.AllAny

namespace ViewTemplate.Directive

open Pattern

section Characters

variable {n : Nat}

theorem Key.bracketed_chars (k : Key) : ∀ c ∈ k.bracketed, isPathChar c = true := by
  refine List.forall_mem_cons.mpr ⟨rfl, List.forall_mem_cons.mpr ⟨rfl, ?_⟩⟩
  refine List.forall_mem_append.mpr ⟨fun c hc => ?_, List.all_eq_true.mp rfl⟩
  rw [isPathChar, k.chars_ok c hc]
  rfl

theorem forall_mem_flatMap_bracketed (keys : List Key) :
    ∀ c ∈ keys.flatMap Key.bracketed, isPathChar c = true := by
  intro c hc
  obtain ⟨k, -, hc⟩ := List.mem_flatMap.mp hc
  exact k.bracketed_chars c hc

theorem forall_mem_flatMap_dotted (keys : List Key) :
    ∀ c ∈ keys.flatMap Key.dotted, isPathChar c = true ∨ c = '.' := by
  intro c hc
  obtain ⟨k, -, hc⟩ := List.mem_flatMap.mp hc
  rcases List.mem_cons.mp hc with rfl | hc
  · exact .inr rfl
  · rw [isPathChar, k.chars_ok c hc]
    exact .inl rfl

def VariablePath.code (p : VariablePath) : CodePath where
  chars := p.name.chars ++ p.keys.flatMap Key.bracketed
  ne_nil := by simp [Identifier.chars]
  chars_ok := List.forall_mem_append.mpr
    ⟨p.name.isPathChar, forall_mem_flatMap_bracketed p.keys⟩

theorem VariablePath.shown_of_length_le {p : VariablePath} (h : p.keys.length ≤ n) :
    p.shown n = p.code.chars := by
  rw [VariablePath.shown, List.take_of_length_le h, List.drop_of_length_le h]
  exact congrArg _ (List.append_nil _)

theorem VariablePath.shown_chars (p : VariablePath) :
    ∀ c ∈ p.shown n, isPathChar c = true ∨ c = '.' := by
  refine List.forall_mem_append.mpr ⟨fun c hc => .inl (p.name.isPathChar c hc), ?_⟩
  refine List.forall_mem_append.mpr ⟨fun c hc => .inl ?_, forall_mem_flatMap_dotted _⟩
  exact forall_mem_flatMap_bracketed _ c hc

theorem VariablePath.exists_of_lt {p : VariablePath} (h : n < p.keys.length) :
    ∃ (chars : List Char) (k : Key) (keys : List Key), chars ≠ [] ∧
      (∀ c ∈ chars, isPathChar c = true) ∧
      p.shown n = chars ++ (k.dotted ++ keys.flatMap Key.dotted) ∧
      p.shown (n + 1) = chars ++ (k.bracketed ++ keys.flatMap Key.dotted) := by
  refine ⟨p.name.chars ++ (p.keys.take n).flatMap Key.bracketed, p.keys[n], p.keys.drop (n + 1),
    by simp [Identifier.chars], ?_, ?_, ?_⟩
  · exact List.forall_mem_append.mpr ⟨p.name.isPathChar, forall_mem_flatMap_bracketed _⟩
  · rw [VariablePath.shown, List.drop_eq_getElem_cons h, List.flatMap_cons, List.append_assoc]
  · rw [VariablePath.shown, List.take_succ_eq_append_getElem h, List.flatMap_append,
      List.flatMap_singleton, List.append_assoc, List.append_assoc]

theorem Mark.content_chars (d : Mark) :
    ∀ c ∈ d.content n, isDirectiveChar c = true ∨ c = '.' ∨ c = '@' := by
  cases d with
  | path use p =>
    refine List.forall_mem_append.mpr ⟨fun c hc => .inl (use.before_chars c hc), ?_⟩
    refine List.forall_mem_cons.mpr ⟨.inl rfl, List.forall_mem_append.mpr ⟨fun c hc => ?_, ?_⟩⟩
    · rcases p.shown_chars c hc with h | h
      · exact .inl (by rw [isDirectiveChar, h, Bool.true_or])
      · exact .inr (.inl h)
    · exact fun c hc => .inl (use.after_chars c hc)
  | field v f =>
    refine List.forall_mem_cons.mpr ⟨.inl rfl, List.forall_mem_append.mpr ⟨fun c hc => ?_, ?_⟩⟩
    · exact .inl (isDirectiveChar_of_path v.isPathChar c hc)
    · refine List.forall_mem_cons.mpr ⟨.inr (.inr rfl), fun c hc => .inl ?_⟩
      revert c
      cases f <;> exact List.all_eq_true.mp rfl
  | word w => exact fun c hc => .inl (w.directiveChars c hc)

theorem Mark.not_mem_content (d : Mark) {c : Char} (hc : isDirectiveChar c = false)
    (hdot : c ≠ '.') (hat : c ≠ '@') : c ∉ d.content n := by
  intro hmem
  rcases d.content_chars c hmem with h | h | h
  · rw [hc] at h
    cases h
  · exact hdot h
  · exact hat h

theorem Mark.content_noBrace (d : Mark) : ∀ c ∈ d.content n, c ≠ '{' := by
  rintro c hc rfl
  exact d.not_mem_content rfl (by decide) (by decide) hc

theorem Mark.content_eq_cons (d : Mark) :
    ∃ c l, d.content n = c :: l ∧ Text.isBlank c = false ∧ c ∉ ['*', '~'] := by
  rcases d with ⟨use, q⟩ | _ | w
  · cases use <;> exact ⟨_, _, rfl, rfl, by decide⟩
  · exact ⟨_, _, rfl, rfl, by decide⟩
  · cases w <;> exact ⟨_, _, rfl, rfl, by decide⟩

end Characters

section Kept

variable {r : Rule} {n : Nat} {ss : List Segment}

theorem PlainText.noBrace (t : PlainText) : ∀ c ∈ t.chars, c ≠ '{' := fun c hc => (t.plain c hc).1

theorem Rule.OpensWithBrace.rewrites_marks (hr : r.OpensWithBrace)
    (h : ∀ (d : Mark) rest, r.Leaves (braced (d.content n) ++ rest)) :
    r.Rewrites (shownText n ss) (shownText n ss) false := by
  induction ss with
  | nil => exact r.rewrites_nil
  | cons s ss ih =>
    rw [shownText, List.flatMap_cons]
    cases s with
    | inl t => exact hr.rewrites ih t.noBrace
    | inr d => exact ih.left hr (h d _) d.content_noBrace

theorem Rule.OpensWithBrace.exhaust?_marks (hr : r.OpensWithBrace)
    (h : ∀ (d : Mark) rest, r.Leaves (braced (d.content n) ++ rest)) :
    r.exhaust? maxPasses (shownText n ss) = some (shownText n ss) := by
  rw [maxPasses, Rule.exhaust?, (hr.rewrites_marks h).apply_eq]
  rfl

theorem leaves_of_mark (mark : String) {x : Char} {content : Pattern} (hmark : mark.toList = [x])
    (hx : x ∈ ['*', '~']) (hpattern : r.pattern = Delimiters.braces.around content)
    (hcontent : ∀ next m, ∃ next', content.run next m = (exact mark).run next' m) (d : Mark)
    (rest : List Char) : r.Leaves (braced (d.content n) ++ rest) := by
  intro before
  obtain ⟨c, l, hd, hblank, hc⟩ := d.content_eq_cons (n := n)
  rw [hd, hpattern]
  refine (run_around rfl hblank).trans ?_
  obtain ⟨next, hrun⟩ := hcontent _ _
  rw [hrun]
  apply run_exact_none hmark
  rintro ⟨⟩
  exact hc hx

end Kept

section Dots

variable {n : Nat} {rest : List Char}

theorem Use.before_plain (use : Use) : ∀ c ∈ use.before, c ≠ '$' ∧ c ≠ '}' ∧ c ≠ '\n' := by
  cases use <;> exact List.all_iff_forall_prop.mp rfl

theorem Use.before_eq_cons (use : Use) (cs : List Char) :
    ∃ c l, use.before ++ '$' :: cs = c :: l ∧ Text.isBlank c = false := by
  cases use <;> exact ⟨_, _, rfl, rfl⟩

theorem run_before_path (use : Use) {next : Cursor → Option Cursor} {m e : Cursor} {cs : List Char}
    (h : m.rest = use.before ++ '$' :: cs) (hnext : next (m.after use.before ('$' :: cs)) = some e)
    (hnone : ∀ n : Cursor, n.rest.head? ≠ some '$' → next n = none) :
    (few (notAhead Delimiters.braces.closing ++ inLine)).run next m = some e := by
  rw [run_few (w := use.before) h]
  · exact run_few_of_some hnext
  · intro u c v huv after
    have hv : ∀ d ∈ c :: v, d ≠ '$' ∧ d ≠ '}' ∧ d ≠ '\n' :=
      fun d hd => use.before_plain d (by rw [huv]; simp [hd])
    have hclosing : Delimiters.braces.closing.run some (m.after u (c :: v ++ '$' :: cs)) = none :=
      run_closing_none rfl (fun hmem => (hv '}' hmem).2.1 rfl) rfl (by decide)
    rw [run_seq, run_notAhead hclosing, inLine,
      run_char rfl (decide_eq_true (hv c List.mem_cons_self).2.2), Cursor.after_after]
    rfl
  · intro u c v huv
    have hc := (use.before_plain c (by simp [huv])).1
    exact hnone _ (by simpa using hc)

theorem isBlank_of_getLast? {cs ds : List Char} {c : Char} (hds : ds ≠ [])
    (h : ∀ d ∈ ds, Text.isBlank d = false) (hc : (cs ++ ds).getLast? = some c) :
    Text.isBlank c = false := by
  rw [List.getLast?_append_of_ne_nil _ hds] at hc
  exact h c (List.mem_of_getLast? hc)

theorem Use.after_end (use : Use) {c : Char} (hc : use.after.getLast? = some c) :
    Text.isBlank c = false := by
  cases use with
  | raw => cases hc; rfl
  | each key value =>
    have hvalue : ∀ d ∈ value.chars, Text.isBlank d = false :=
      fun d hd => isBlank_of_isWordChar (value.isWordChar d hd)
    cases key <;> exact isBlank_of_getLast? value.ne_nil hvalue hc
  | _ => cases hc

def afterKey (keys : List Key) (use : Use) : List Char := keys.flatMap Key.dotted ++ use.after

theorem not_mem_afterKey {c : Char} (hc : isDirectiveChar c = false) (hdot : c ≠ '.')
    (keys : List Key) (use : Use) : c ∉ afterKey keys use := by
  intro hmem
  rcases List.mem_append.mp hmem with hmem | hmem
  · rcases forall_mem_flatMap_dotted keys c hmem with h | h
    · rw [isDirectiveChar, h] at hc
      cases hc
    · exact hdot h
  · rw [use.after_chars c hmem] at hc
    cases hc

theorem afterKey_end {keys : List Key} {use : Use} {c : Char}
    (hc : (afterKey keys use).getLast? = some c) : Text.isBlank c = false := by
  rw [afterKey, List.getLast?_append, Option.or_eq_some_iff] at hc
  rcases hc with hc | ⟨-, hc⟩
  · exact use.after_end hc
  · rcases forall_mem_flatMap_dotted keys c (List.mem_of_getLast? hc) with h | rfl
    · exact isBlank_of_isPathChar h
    · rfl

theorem afterKey_head {keys : List Key} {use : Use} {c : Char}
    (hc : (afterKey keys use ++ '}' :: rest).head? = some c) : Text.isWordPart c = false := by
  cases keys with
  | nil =>
    cases use with
    | each key value => cases key <;> cases hc <;> rfl
    | _ => cases hc; rfl
  | cons => cases hc; rfl

theorem dottedAccess_turns_key (use : Use) {chars more : List Char} (k : Key) (rest : List Char)
    (hne : chars ≠ [])
    (hchars : ∀ c ∈ chars, isPathChar c = true) (hbrace : '}' ∉ more) (hline : '\n' ∉ more)
    (hlast : ∀ c, more.getLast? = some c → Text.isBlank c = false)
    (hhead : ∀ c, (more ++ '}' :: rest).head? = some c → Text.isWordPart c = false) :
    (dottedAccess .braces).Turns (braced (use.before ++ '$' :: (chars ++ (k.dotted ++ more)))) rest
      (braced (use.before ++ '$' :: (chars ++ (k.bracketed ++ more)))) := by
  intro before
  let dot := '.' :: (k.chars ++ (more ++ '}' :: rest))
  let m : Cursor := ⟨before, '{' :: (use.before ++ '$' :: (chars ++ dot)), 0, []⟩
  have hrest : braced (use.before ++ '$' :: (chars ++ (k.dotted ++ more))) ++ rest = m.rest := by
    simp [braced, Key.dotted, m, dot]
  have hresult : braced (use.before ++ '$' :: (chars ++ (k.bracketed ++ more))) =
      '{' :: use.before ++ '$' :: chars ++ ['[', '\''] ++ k.chars ++ ['\'', ']'] ++
        (more ++ ['}']) := by
    simp [braced, Key.bracketed]
  rw [hrest, hresult]
  let start := (m.after ('{' :: use.before) ('$' :: (chars ++ dot))).keep 1 m
  let path := (start.after ('$' :: chars) dot).keep 2 start
  let key := path.after ['.'] (k.chars ++ (more ++ '}' :: rest))
  let behind := (key.after k.chars (more ++ '}' :: rest)).keep 3 key
  let e := (behind.after (more ++ ['}']) rest).keep 4 behind
  have hend : (few inLine ++ Delimiters.braces.closing).run
      (fun l => some (l.keep 4 behind)) behind = some e :=
    run_line rfl hline hbrace hlast rfl
  have hkey : (exact "." ++ group 3 (many1 wordPart) ++
      group 4 (few inLine ++ Delimiters.braces.closing)).run some path = some e := by
    simp only [run_seq]
    refine (run_exact (w := ['.']) rfl rfl).trans ?_
    rw [run_group]
    refine run_many1 rfl k.ne_nil (fun c hc => ?_) hhead hend
    exact isWordPart_of_isWordChar (k.chars_ok c hc)
  let next := (group 2 (access "\"'[]") ++ exact "." ++ group 3 (many1 wordPart) ++
    group 4 (few inLine ++ Delimiters.braces.closing)).run some
  -- A shorter path does not match: inside of a path no dot comes next.
  have hpath : next start = some e := by
    show (access "\"'[]").run (fun l => _) start = _
    refine run_access rfl hne (fun c hc => isAccess_of_isPathChar (hchars c hc) (by decide))
      (fun u v huv _ hv => ?_) hkey
    obtain ⟨d, v, rfl⟩ := List.exists_cons_of_ne_nil hv
    have hd := hchars d (by simp [huv])
    exact run_exact_none rfl (by simpa using ne_of_isPathChar hd rfl)
  have hbefore : (few (notAhead Delimiters.braces.closing ++ inLine)).run
      (fun l => next (l.keep 1 m)) (m.after ['{'] (use.before ++ '$' :: (chars ++ dot))) =
        some e := by
    refine run_before_path use rfl ?_ fun _ hn => run_exact_none rfl hn
    rw [Cursor.after_after]
    exact hpath
  have hrun : (dottedAccess .braces).pattern.run some m = some e := by
    obtain ⟨c, l, hcl, hc⟩ := use.before_eq_cons (chars ++ dot)
    have hopen : m.rest = '{' :: c :: l := congrArg _ hcl
    refine (run_opening hopen hc).trans ?_
    rw [← hcl]
    exact hbefore
  refine ⟨e, hrun, rfl, ?_⟩
  have hgroup4 : Found.group ⟨⟨m.rest, e.position⟩, e.groups⟩ 4 = String.ofList (more ++ ['}']) :=
    Found.group_of_find? (w := more ++ ['}']) (r := rest) (by simp [e, behind]; rfl) (by simp)
  have hgroup3 : Found.group ⟨⟨m.rest, e.position⟩, e.groups⟩ 3 = String.ofList k.chars :=
    Found.group_of_find? (w := k.chars) rfl (by simp [key])
  have hgroup2 : Found.group ⟨⟨m.rest, e.position⟩, e.groups⟩ 2 = String.ofList ('$' :: chars) :=
    Found.group_of_find? (w := '$' :: chars) rfl (by simp)
  have hgroup1 : Found.group ⟨⟨m.rest, e.position⟩, e.groups⟩ 1 =
      String.ofList ('{' :: use.before) :=
    Found.group_of_find? (w := '{' :: use.before) rfl (by simp [m])
  rw [dottedAccess]
  simp only [hgroup1, hgroup2, hgroup3, hgroup4, String.toList_append, String.toList_ofList]
  rfl

/-- The first dot of a path becomes a subscript. -/
theorem dottedAccess_turns (use : Use) {p : VariablePath} (h : n < p.keys.length)
    (rest : List Char) :
    (dottedAccess .braces).Turns (braced ((Mark.path use p).content n)) rest
      (braced ((Mark.path use p).content (n + 1))) := by
  obtain ⟨chars, k, keys, hne, hchars, hshown, hshown'⟩ := VariablePath.exists_of_lt h
  have hbrace : '}' ∉ afterKey keys use := not_mem_afterKey rfl (by decide) keys use
  have hline : '\n' ∉ afterKey keys use := not_mem_afterKey rfl (by decide) keys use
  have hturns := dottedAccess_turns_key use k rest hne hchars hbrace hline
    (fun c hc => afterKey_end hc) (fun c hc => afterKey_head hc)
  simpa only [Mark.content, hshown, hshown', afterKey, List.append_assoc] using hturns

theorem takes_inDirective {m n : Cursor}
    (h : (notAhead Delimiters.braces.closing ++ inLine).Takes m n) :
    ∃ c, c ≠ '}' ∧ m.Past [c] n := by
  obtain ⟨k, ⟨rfl, hclosing⟩, hline⟩ := h
  obtain ⟨c, -, hpast⟩ := takes_char hline
  refine ⟨c, ?_, hpast⟩
  rintro rfl
  rw [run_closing hpast.1] at hclosing
  cases hclosing

theorem dottedAccess_leaves {content : List Char} (hdot : '.' ∉ content) (rest : List Char) :
    (dottedAccess .braces).Leaves (braced content ++ rest) := by
  intro before
  refine run_eq_none fun n hn => absurd ?_ hdot
  obtain ⟨_, ⟨dot, ⟨_, ⟨_, ⟨skipped, ⟨_, ⟨_, hbrace, hblanks⟩, hskip⟩, rfl⟩, path, hpath, rfl⟩,
    hexact⟩, -⟩, -⟩ := hn
  obtain ⟨w₀, hw₀, hpast₀⟩ := takes_anyCase hbrace
  obtain ⟨d, rfl, -⟩ := List.map_eq_singleton_iff.mp (show w₀.map Text.foldChar = ['{'] from hw₀)
  obtain ⟨w₁, hw₁, hpast₁⟩ := takes_many hblanks
  obtain ⟨w₂, hw₂, hpast₂⟩ := takes_star takes_inDirective hskip
  obtain ⟨w₃, -, hw₃, hpast₃⟩ := takes_access hpath
  have hpast := takes_exact hexact
  -- Everything up to the dot is inside the first directive.
  let u := w₁ ++ w₂ ++ '$' :: w₃
  have hu : ∀ c ∈ u, c ≠ '}' := by
    refine List.forall_mem_append.mpr ⟨List.forall_mem_append.mpr ⟨?_, hw₂⟩,
      List.forall_mem_cons.mpr ⟨by decide, ?_⟩⟩
    · rintro c hc rfl
      exact absurd (hw₁ '}' hc) (by decide)
    · rintro c hc rfl
      exact absurd (hw₃ '}' hc) (by decide)
  have heq : braced content ++ rest = d :: (w₁ ++ (w₂ ++ '$' :: (w₃ ++ '.' :: dot.rest))) := by
    refine hpast₀.1.trans (congrArg (d :: ·) ?_)
    refine hpast₁.1.trans (congrArg (w₁ ++ ·) ?_)
    refine hpast₂.1.trans (congrArg (w₂ ++ ·) ?_)
    exact hpast₃.1.trans (congrArg ('$' :: w₃ ++ ·) hpast.1)
  rw [braced_append] at heq
  have hsplit : content ++ '}' :: rest = u ++ '.' :: dot.rest := by
    simpa [u] using (List.cons.inj heq).2
  obtain ⟨v, rfl, hv⟩ := exists_suffix_of_class hsplit hu (by decide)
  cases v with
  | nil => exact absurd (List.cons.inj hv).1 (by decide)
  | cons c v =>
    obtain ⟨rfl, -⟩ := List.cons.inj hv
    simp

/-- Whether the rule for dots finds one behind `n` subscripts. -/
def Mark.hasDot (n : Nat) : Mark → Bool
  | .path _ p => decide (n < p.keys.length)
  | _ => false

theorem Mark.hasDot_of_le {d : Mark} {i : Nat} (h : d.hasDot n = false) (hle : n ≤ i) :
    d.hasDot i = false := by
  cases d with
  | path use p =>
    have := of_decide_eq_false h
    exact decide_eq_false (by omega)
  | _ => rfl

theorem Mark.hasDot_max (d : Mark) : d.hasDot 255 = false := by
  cases d with
  | path use p => exact decide_eq_false (Nat.not_lt.mpr p.length_le)
  | _ => rfl

theorem Mark.content_congr {d : Mark} {i : Nat} (hn : d.hasDot n = false)
    (hi : d.hasDot i = false) : d.content n = d.content i := by
  cases d with
  | path use p =>
    rw [content, content, p.shown_of_length_le (Nat.not_lt.mp (of_decide_eq_false hn)),
      p.shown_of_length_le (Nat.not_lt.mp (of_decide_eq_false hi))]
  | _ => rfl

theorem Mark.no_dot {d : Mark} (h : d.hasDot n = false) : '.' ∉ d.content n := by
  intro hmem
  cases d with
  | path use p =>
    rw [content, p.shown_of_length_le (Nat.not_lt.mp (of_decide_eq_false h))] at hmem
    exact Pending.not_mem_content (.path use p.code) rfl hmem
  | field v f =>
    rcases List.mem_append.mp (List.mem_of_ne_of_mem (by decide) hmem) with hmem | hmem
    · exact absurd (v.isPathChar _ hmem) (by decide)
    · cases f <;> exact absurd hmem (by decide)
  | word w => exact Pending.not_mem_content (.word w) rfl hmem

theorem opensWithBrace_dottedAccess : (dottedAccess .braces).OpensWithBrace :=
  Rule.opensWithBrace_of_run fun _ => ⟨_, rfl⟩

variable {ss : List Segment}

theorem dottedAccess_rewrites :
    (dottedAccess .braces).Rewrites (shownText n ss) (shownText (n + 1) ss)
      (ss.any (Sum.elim (fun _ => false) (Mark.hasDot n))) := by
  refine .parts _ opensWithBrace_dottedAccess (fun t _ => t.noBrace) (fun d hd rest => ?_)
    (fun d hd _ _ _ hrest => ?_)
  · cases d with
    | path use p => exact ⟨by simp [braced], dottedAccess_turns use (of_decide_eq_true hd) rest⟩
    | _ => cases hd
  · rw [d.content_congr (d.hasDot_of_le hd (Nat.le_succ n)) hd]
    exact hrest.left opensWithBrace_dottedAccess (dottedAccess_leaves (d.no_dot hd) _)
      d.content_noBrace

theorem shownText_of_no_dot (h : ss.any (Sum.elim (fun _ => false) (Mark.hasDot n)) = false) :
    shownText n ss = shownText 255 ss := by
  refine List.flatMap_congr fun s hs => ?_
  cases s with
  | inl t => rfl
  | inr d =>
    have hd : d.hasDot n = false := Bool.eq_false_iff.mpr (List.any_eq_false.mp h _ hs)
    exact congrArg braced (d.content_congr hd d.hasDot_max)

theorem dottedAccess_exhaust? {passes : Nat} (h : 255 ≤ passes + n) :
    (dottedAccess .braces).exhaust? (passes + 1) (shownText n ss) = some (shownText 255 ss) := by
  induction passes generalizing n with
  | zero =>
    have hnone : ss.any (Sum.elim (fun _ => false) (Mark.hasDot n)) = false := by
      refine List.any_eq_false.mpr fun s _ => ?_
      cases s with
      | inl t => exact Bool.false_ne_true
      | inr d => exact Bool.eq_false_iff.mp (d.hasDot_of_le d.hasDot_max (by omega))
    rw [Rule.exhaust?, dottedAccess_rewrites.apply_eq, hnone, ← shownText_of_no_dot hnone]
    rfl
  | succ passes ih =>
    rw [Rule.exhaust?, dottedAccess_rewrites.apply_eq]
    cases hany : ss.any (Sum.elim (fun _ => false) (Mark.hasDot n)) with
    | false => exact congrArg some (shownText_of_no_dot hany)
    | true => exact ih (by omega)

end Dots

section Fields

variable {rest : List Char}

def fieldName (v : Identifier) (f : LoopField) : List Char :=
  ['_', 'f', 'o', 'r', 'e', 'a', 'c', 'h', '_'] ++ (v.chars ++ '_' :: f.name.toList)

theorem toList_loopVariable (x : List Char) (v : Identifier) (f : LoopField) :
    (String.ofList ('{' :: x) ++ loopVariable v.text f.name ++ String.ofList ['}']).toList =
      '{' :: x ++ '$' :: (fieldName v f ++ ['}']) := by
  have hname : "$_foreach_".toList = '$' :: ['_', 'f', 'o', 'r', 'e', 'a', 'c', 'h', '_'] := rfl
  have hline : "_".toList = ['_'] := rfl
  simp only [loopVariable, fieldName, Identifier.text, String.toList_append, String.toList_ofList,
    hname, hline, List.append_assoc, List.cons_append, List.nil_append]

theorem run_field {f : LoopField} {next : Cursor → Option Cursor} {m e : Cursor}
    (h : m.rest = f.name.toList ++ rest) (hnext : next (m.after f.name.toList rest) = some e) :
    (oneOf (["index", "iteration", "first", "last", "total"].map anyCase)).run next m = some e := by
  obtain ⟨before, _, position, groups⟩ := m
  cases h
  cases f with
  | index => exact run_alt_left ((run_anyCase rfl rfl).trans hnext)
  | iteration =>
    refine (run_alt_right rfl).trans (run_alt_left ((run_anyCase rfl rfl).trans hnext))
  | first =>
    refine (run_alt_right rfl).trans ((run_alt_right rfl).trans ?_)
    exact run_alt_left ((run_anyCase rfl rfl).trans hnext)
  | last =>
    refine (run_alt_right rfl).trans ((run_alt_right rfl).trans ((run_alt_right rfl).trans ?_))
    exact run_alt_left ((run_anyCase rfl rfl).trans hnext)
  | total =>
    refine (run_alt_right rfl).trans ((run_alt_right rfl).trans ((run_alt_right rfl).trans ?_))
    exact (run_alt_right rfl).trans ((run_anyCase rfl rfl).trans hnext)

theorem lowerAscii_name (f : LoopField) : Text.lowerAscii f.name = f.name := by
  cases f <;> rfl

def token : Pattern :=
  exact "$" ++ group 3 (many1 wordPart) ++ exact "@" ++
    group 4 (oneOf (["index", "iteration", "first", "last", "total"].map anyCase))

theorem run_token_head_none {next : Cursor → Option Cursor} {m : Cursor}
    (h : m.rest.head? ≠ some '$') : token.run next m = none := by
  simp only [token, run_seq]
  exact run_exact_none rfl h

theorem run_token_none {v r : List Char} {next : Cursor → Option Cursor} {m : Cursor}
    (h : m.rest = v ++ '{' :: r) (hat : '@' ∉ v) : token.run next m = none := by
  cases v with
  | nil => exact run_token_head_none (by simp [h])
  | cons c v =>
    by_cases hc : c = '$'
    · subst hc
      simp only [token, run_seq]
      refine (run_exact (w := ['$']) rfl h).trans ?_
      rw [run_group]
      refine run_many1_class_none (w := v) (c := '{') rfl rfl fun u w huw => ?_
      refine run_exact_none (c := '@') rfl ?_
      cases w with
      | nil => simp
      | cons d w =>
        have hd : d ≠ '@' := by
          rintro rfl
          exact hat (by simp [huw])
        simpa using hd
    · exact run_token_head_none (by simpa [h] using hc)

theorem run_before_field {x cs : List Char} {next : Cursor → Option Cursor} {k m e : Cursor}
    (hend : ∀ c, x.getLast? = some c → c = '{') (hat : '@' ∉ x) (hline : '\n' ∉ x)
    (h : m.rest = x ++ cs)
    (hnext : (many1 (group 2 token)).run next ((m.after x cs).keep 1 k) = some e) :
    (few inLine).run (fun l => (many1 (group 2 token)).run next (l.keep 1 k)) m = some e := by
  refine run_few_inLine h hline (fun u c w huw => ?_) hnext
  -- What is left of `x` ends in a brace, which no variable goes across.
  rcases List.eq_nil_or_concat (c :: w) with hnil | ⟨w', d, hd⟩
  · cases hnil
  · obtain rfl := hend d (by simp [huw, hd])
    rw [many1, run_seq, run_group]
    refine run_token_none (v := w') (r := cs) ?_ fun hmem => hat (by simp [huw, hd, hmem])
    rw [Cursor.keep_rest, Cursor.after_rest, hd]
    simp

/-- The first field on a line becomes a variable; the match begins at the first directive there. -/
theorem loopToken_turns {x : List Char} (hblank : ∀ c, x.head? = some c → Text.isBlank c = false)
    (hend : ∀ c, x.getLast? = some c → c = '{') (hat : '@' ∉ x) (hline : '\n' ∉ x)
    (v : Identifier) (f : LoopField) (rest : List Char) :
    (loopToken .braces).Turns ('{' :: x ++ '$' :: (v.chars ++ '@' :: (f.name.toList ++ ['}']))) rest
      ('{' :: x ++ '$' :: (fieldName v f ++ ['}'])) := by
  intro before
  let name := f.name.toList ++ '}' :: rest
  let field := '$' :: (v.chars ++ '@' :: name)
  let m : Cursor := ⟨before, '{' :: (x ++ field), 0, []⟩
  have hrest : '{' :: x ++ '$' :: (v.chars ++ '@' :: (f.name.toList ++ ['}'])) ++ rest =
      m.rest := by
    simp [m, field, name]
  rw [hrest]
  let start := (m.after ('{' :: x) field).keep 1 m
  let dollar := start.after ['$'] (v.chars ++ '@' :: name)
  let sign := (dollar.after v.chars ('@' :: name)).keep 3 dollar
  let behind := sign.after ['@'] name
  let done := ((behind.after f.name.toList ('}' :: rest)).keep 4 behind).keep 2 start
  let e := (done.after ['}'] rest).keep 5 done
  let close := (group 5 (few inLine ++ Delimiters.braces.closing)).run some
  -- Behind the field comes the closing brace, so no other field is taken.
  have hclose : (many (group 2 token)).run close done = some e := by
    have hnone : ∀ next, (group 2 token).run next done = none := by
      intro next
      rw [run_group]
      exact run_token_head_none (by simp [done])
    rw [run_many_none hnone]
    exact run_line (w := []) rfl List.not_mem_nil List.not_mem_nil nofun rfl
  have htoken : (many1 (group 2 token)).run close start = some e := by
    rw [many1, run_seq, run_group]
    simp only [token, run_seq]
    refine (run_exact (w := ['$']) rfl rfl).trans ?_
    rw [run_group]
    refine run_many1 (show dollar.rest = v.chars ++ '@' :: name from rfl) v.ne_nil
      (fun c hc => isWordPart_of_isWordChar (v.isWordChar c hc)) (fun c hc => by cases hc; rfl) ?_
    refine (run_exact (w := ['@']) rfl rfl).trans ?_
    rw [run_group]
    exact run_field rfl hclose
  have hbefore : (few inLine).run (fun l => (many1 (group 2 token)).run close (l.keep 1 m))
      (m.after ['{'] (x ++ field)) = some e := by
    refine run_before_field hend hat hline rfl ?_
    rw [Cursor.after_after]
    exact htoken
  have hrun : (loopToken .braces).pattern.run some m = some e := by
    cases x with
    | nil => exact (run_opening (m := m) rfl rfl).trans hbefore
    | cons c x => exact (run_opening (m := m) rfl (hblank c rfl)).trans hbefore
  refine ⟨e, hrun, rfl, ?_⟩
  have hgroup5 : Found.group ⟨⟨m.rest, e.position⟩, e.groups⟩ 5 = String.ofList ['}'] :=
    Found.group_of_find? (w := ['}']) rfl (by simp [done])
  have hgroup4 : Found.group ⟨⟨m.rest, e.position⟩, e.groups⟩ 4 = f.name :=
    (Found.group_of_find? (w := f.name.toList) rfl (by simp [behind])).trans String.ofList_toList
  have hgroup3 : Found.group ⟨⟨m.rest, e.position⟩, e.groups⟩ 3 = v.text :=
    Found.group_of_find? (w := v.chars) rfl (by simp [dollar])
  have hgroup1 : Found.group ⟨⟨m.rest, e.position⟩, e.groups⟩ 1 = String.ofList ('{' :: x) :=
    Found.group_of_find? (w := '{' :: x) rfl (by simp [m])
  have htext : (loopToken .braces).replacement ⟨⟨m.rest, e.position⟩, e.groups⟩ =
      String.ofList ('{' :: x) ++ loopVariable v.text f.name ++ String.ofList ['}'] := by
    show Found.group _ 1 ++ loopVariable (Found.group _ 3) (Text.lowerAscii (Found.group _ 4)) ++
      Found.group _ 5 = _
    rw [hgroup1, hgroup3, hgroup4, hgroup5, lowerAscii_name]
  rw [htext, toList_loopVariable]

/-- A match begins on the line of an at sign in front of it. -/
theorem exists_of_loopToken {m r : Cursor} (h : (loopToken .braces).pattern.run some m = some r) :
    ∃ c b u z, m.rest = c :: (b ++ (u ++ '@' :: z)) ∧ (∀ d ∈ b, Text.isBlank d = true) ∧
      ∀ d ∈ u, d ≠ '\n' := by
  obtain ⟨n, hn, -⟩ := takes_of_run h
  obtain ⟨_, ⟨_, ⟨_, ⟨_, ⟨_, hbrace, hblanks⟩, hskip⟩, rfl⟩, ⟨_, ⟨_, htoken, -⟩, -⟩⟩, -⟩ := hn
  obtain ⟨sign, ⟨_, ⟨_, hdollar, _, hname, rfl⟩, hsign⟩, -⟩ := htoken
  obtain ⟨w₀, hw₀, hpast₀⟩ := takes_anyCase hbrace
  obtain ⟨c, rfl, -⟩ := List.map_eq_singleton_iff.mp (show w₀.map Text.foldChar = ['{'] from hw₀)
  obtain ⟨w₁, hw₁, hpast₁⟩ := takes_many hblanks
  obtain ⟨w₂, hw₂, hpast₂⟩ := takes_few hskip
  obtain ⟨w₃, -, hw₃, hpast₃⟩ := takes_many1 takes_char hname
  have hpast := takes_exact hdollar
  have hpast' := takes_exact hsign
  refine ⟨c, w₁, w₂ ++ '$' :: w₃, sign.rest, ?_, hw₁, ?_⟩
  · refine hpast₀.1.trans (congrArg (c :: ·) ?_)
    refine hpast₁.1.trans (congrArg (w₁ ++ ·) ?_)
    rw [List.append_assoc]
    refine hpast₂.1.trans (congrArg (w₂ ++ ·) ?_)
    refine hpast.1.trans (congrArg ('$' :: ·) ?_)
    exact hpast₃.1.trans (congrArg (w₃ ++ ·) hpast'.1)
  · refine List.forall_mem_append.mpr ⟨fun d hd => of_decide_eq_true (hw₂ d hd), ?_⟩
    refine List.forall_mem_cons.mpr ⟨by decide, ?_⟩
    rintro d hd rfl
    exact absurd (hw₃ '\n' hd) (by decide)

theorem loopToken_leaves {cs : List Char} (hat : '@' ∉ cs) : (loopToken .braces).Leaves cs := by
  intro before
  cases hrun : (loopToken .braces).pattern.run some ⟨before, cs, 0, []⟩ with
  | none => rfl
  | some r =>
    obtain ⟨c, b, u, z, hcs, -⟩ := exists_of_loopToken hrun
    rw [show cs = c :: (b ++ (u ++ '@' :: z)) from hcs] at hat
    exact absurd (by simp) hat

theorem loopToken_leaves_line {c : Char} {w : List Char} (hc : Text.isBlank c = false)
    (hat : '@' ∉ c :: w) (rest : List Char) :
    (loopToken .braces).Leaves ('{' :: (c :: w ++ '\n' :: rest)) := by
  intro before
  cases hrun : (loopToken .braces).pattern.run some
      ⟨before, '{' :: (c :: w ++ '\n' :: rest), 0, []⟩ with
  | none => rfl
  | some r =>
    obtain ⟨d, b, u, z, hcs, hb, hu⟩ := exists_of_loopToken hrun
    have heq : c :: w ++ '\n' :: rest = b ++ (u ++ '@' :: z) := (List.cons.inj hcs).2
    cases b with
    | cons e b =>
      obtain ⟨rfl, -⟩ := List.cons.inj heq
      rw [hb c List.mem_cons_self] at hc
      cases hc
    | nil =>
      rw [List.nil_append] at heq
      obtain ⟨v, hv, hz⟩ := exists_suffix_of_class (q := (· ≠ '\n')) heq hu (by decide)
      cases v with
      | nil => exact absurd (List.cons.inj hz).1 (by decide)
      | cons e v =>
        obtain ⟨rfl, -⟩ := List.cons.inj hz
        rw [hv] at hat
        exact absurd (by simp) hat

theorem opensWithBrace_loopToken : (loopToken .braces).OpensWithBrace :=
  Rule.opensWithBrace_of_run fun _ => ⟨_, rfl⟩

end Fields

theorem fieldName_chars (v : Identifier) (f : LoopField) :
    ∀ c ∈ fieldName v f, isPathChar c = true := by
  refine List.forall_mem_append.mpr ⟨List.all_eq_true.mp rfl,
    List.forall_mem_append.mpr ⟨v.isPathChar, ?_⟩⟩
  cases f <;> exact List.all_eq_true.mp rfl

/-- A directive as the rules that make code find it. -/
def Mark.pending : Mark → Pending
  | .path use p => .path use p.code
  | .field v f => .path .echo ⟨fieldName v f, nofun, fieldName_chars v f⟩
  | .word w => .word w

def draftOf (ss : List Segment) : Draft := ss.map (Sum.map PlainText.chars Mark.pending)

def Mark.isField : Mark → Bool
  | .field _ _ => true
  | _ => false

/-- No segment is a field. -/
def NoField (ss : List Segment) : Prop := ∀ d, .inr d ∈ ss → d.isField = false

section Tokens

variable {ss : List Segment} {cs ds : List Char} {changed : Bool}

theorem NoField.nil : NoField [] := nofun

theorem NoField.concat {s : Segment} (h : NoField ss) (hs : ∀ d, s = .inr d → d.isField = false) :
    NoField (ss ++ [s]) := by
  intro d hd
  rcases List.mem_append.mp hd with hd | hd
  · exact h d hd
  · exact hs d (List.mem_singleton.mp hd).symm

theorem Mark.content_of_isField {d : Mark} (h : d.isField = false) :
    d.content 255 = d.pending.content := by
  cases d with
  | path use p => rw [content, p.shown_of_length_le p.length_le]; rfl
  | field v f => cases h
  | word w => rfl

theorem PlainText.not_at (t : PlainText) : '@' ∉ t.chars := fun h => (t.plain '@' h).2.2 rfl

theorem not_mem_braced {content : List Char} {c : Char} (hc : c ∉ content) (hopen : c ≠ '{')
    (hclose : c ≠ '}') : c ∉ braced content := by
  simp [braced, hc, hopen, hclose]

theorem NoField.not_at (h : NoField ss) : '@' ∉ shownText 255 ss := by
  intro hmem
  obtain ⟨s, hs, hmem⟩ := List.mem_flatMap.mp hmem
  cases s with
  | inl t => exact t.not_at hmem
  | inr d =>
    refine not_mem_braced ?_ (by decide) (by decide) hmem
    rw [d.content_of_isField (h d hs)]
    exact d.pending.not_mem_content rfl

theorem draftOf_not_at (ss : List Segment) : '@' ∉ (draftOf ss).shown 0 := by
  intro hmem
  obtain ⟨part, hpart, hmem⟩ := List.mem_flatMap.mp hmem
  obtain ⟨s, -, rfl⟩ := List.mem_map.mp hpart
  cases s with
  | inl t => exact t.not_at hmem
  | inr d => exact not_mem_braced (d.pending.not_mem_content rfl) (by decide) (by decide) hmem

theorem loopToken_rewrites_same (h : '@' ∉ cs) : (loopToken .braces).Rewrites cs cs false := by
  induction cs with
  | nil => exact Rule.rewrites_nil _
  | cons c cs ih => exact (ih (List.not_mem_of_not_mem_cons h)).kept (loopToken_leaves h)

theorem shownText_cons (n : Nat) (s : Segment) (ss : List Segment) :
    shownText n (s :: ss) = s.shown n ++ shownText n ss := List.flatMap_cons

theorem shownText_append (n : Nat) (ss ss' : List Segment) :
    shownText n (ss ++ ss') = shownText n ss ++ shownText n ss' := List.flatMap_append

theorem draftOf_append (ss ss' : List Segment) :
    (draftOf (ss ++ ss')).shown 0 = (draftOf ss).shown 0 ++ (draftOf ss').shown 0 := by
  rw [draftOf, List.map_append, Draft.shown, List.flatMap_append]
  rfl

theorem field_content (v : Identifier) (f : LoopField) :
    (Mark.field v f).content 255 = '$' :: (v.chars ++ '@' :: f.name.toList) := rfl

theorem field_pending (v : Identifier) (f : LoopField) :
    (Mark.field v f).pending.content = '$' :: fieldName v f := by
  simp [Mark.pending, Pending.content, Use.before, Use.after]

/-- The rule rewrites the first field of a text, from whichever directive its match begins. -/
theorem loopToken_rewrites_first (h : NoField ss) (v : Identifier) (f : LoopField)
    (hrest : (loopToken .braces).Rewrites cs ds changed) :
    (loopToken .braces).Rewrites
      (shownText 255 ss ++ (braced ((Mark.field v f).content 255) ++ cs))
      (shownText 255 ss ++ (braced (Mark.field v f).pending.content ++ ds)) true := by
  rw [field_content, field_pending]
  induction ss with
  | nil =>
    have hturns := loopToken_turns (x := []) nofun nofun List.not_mem_nil List.not_mem_nil v f cs
    simpa [shownText, braced] using hrest.turned hturns (by simp)
  | cons s ss ih =>
    have hss : NoField ss := fun d hd => h d (List.mem_cons_of_mem _ hd)
    have hat := hss.not_at
    rw [shownText_cons, List.append_assoc, List.append_assoc]
    cases s with
    | inl t => exact opensWithBrace_loopToken.rewrites (ih hss) t.noBrace
    | inr d =>
      have hd := h d List.mem_cons_self
      have hcontent : '@' ∉ d.content 255 := by
        rw [d.content_of_isField hd]
        exact d.pending.not_mem_content rfl
      have hnoline : '\n' ∉ d.content 255 := d.not_mem_content rfl (by decide) (by decide)
      have hnobrace := d.content_noBrace (n := 255)
      obtain ⟨c, l, hcl, hc, -⟩ := d.content_eq_cons (n := 255)
      show (loopToken .braces).Rewrites (braced (d.content 255) ++ _)
        (braced (d.content 255) ++ _) _
      rw [hcl] at hcontent hnoline hnobrace ⊢
      by_cases hline : '\n' ∈ shownText 255 ss
      · refine (ih hss).left opensWithBrace_loopToken ?_ hnobrace
        obtain ⟨a, b, hab⟩ := List.append_of_mem hline
        rw [hab] at hat ⊢
        have hnone : '@' ∉ c :: (l ++ '}' :: a) := by simp_all
        simpa [braced] using loopToken_leaves_line hc hnone
          (b ++ (braced ('$' :: (v.chars ++ '@' :: f.name.toList)) ++ cs))
      · -- The match begins here and goes on to the field.
        let x := c :: (l ++ '}' :: (shownText 255 ss ++ ['{']))
        have hblank : ∀ e, x.head? = some e → Text.isBlank e = false := by
          rintro _ ⟨⟩
          exact hc
        have hend : ∀ e, x.getLast? = some e → e = '{' := by
          intro e he
          have hx : x = (c :: (l ++ '}' :: shownText 255 ss)) ++ ['{'] := by simp [x]
          rw [hx, List.getLast?_concat] at he
          cases he
          rfl
        have hturns := loopToken_turns hblank hend (by simp_all [x]) (by simp_all [x]) v f cs
        simpa [x, braced] using hrest.turned hturns (by simp)

theorem draftOf_cons (s : Segment) (ss : List Segment) :
    (draftOf (s :: ss)).shown 0 =
      Sum.elim PlainText.chars (fun d => braced d.pending.content) s ++ (draftOf ss).shown 0 := by
  cases s <;> rfl

theorem NoField.shown_draftOf (h : NoField ss) : (draftOf ss).shown 0 = shownText 255 ss := by
  induction ss with
  | nil => rfl
  | cons s ss ih =>
    rw [draftOf_cons, shownText_cons, ih fun d hd => h d (List.mem_cons_of_mem _ hd)]
    cases s with
    | inl t => rfl
    | inr d => exact congrArg (braced · ++ _) (d.content_of_isField (h d List.mem_cons_self)).symm

theorem loopToken_rewrites (ss : List Segment) {ss₁ : List Segment} (h : NoField ss₁) :
    ∃ changed, (loopToken .braces).Rewrites (shownText 255 (ss₁ ++ ss))
        ((draftOf (ss₁ ++ ss)).shown 0) changed ∧
      (changed = false → (draftOf (ss₁ ++ ss)).shown 0 = shownText 255 (ss₁ ++ ss)) := by
  induction ss generalizing ss₁ with
  | nil =>
    rw [List.append_nil, h.shown_draftOf]
    exact ⟨false, loopToken_rewrites_same h.not_at, fun _ => rfl⟩
  | cons s ss ih =>
    by_cases hs : ∀ d, s = .inr d → d.isField = false
    · have hss := ih (h.concat hs)
      rw [List.append_assoc] at hss
      exact hss
    · obtain ⟨v, f, rfl⟩ : ∃ v f, s = .inr (.field v f) := by
        rcases s with t | ⟨use, p⟩ | ⟨v, f⟩ | w
        · exact absurd nofun hs
        · exact absurd (by rintro _ ⟨⟩; rfl) hs
        · exact ⟨v, f, rfl⟩
        · exact absurd (by rintro _ ⟨⟩; rfl) hs
      obtain ⟨changed, hrewrites, -⟩ := ih NoField.nil
      have hfirst := loopToken_rewrites_first h v f hrewrites
      refine ⟨true, ?_, nofun⟩
      rw [shownText_append, draftOf_append, h.shown_draftOf]
      exact hfirst

theorem draftOf_inert (ss : List Segment) : (draftOf ss).Inert := by
  intro cs hcs
  obtain ⟨s, -, hs⟩ := List.mem_map.mp hcs
  cases s with
  | inl t =>
    cases hs
    exact t.noBrace
  | inr d => cases hs

end Tokens

/-- All rules together turn a template into code. -/
theorem applyRules_shownText (ss : List Segment) :
    applyRules (rules .braces) (shownText 0 ss) = .ok (draftOf ss).code := by
  have hcomment : (comment .braces).exhaust? maxPasses (shownText 0 ss) =
      some (shownText 0 ss) := by
    apply (Rule.opensWithBrace_of_around rfl).exhaust?_marks
    exact leaves_of_mark "*" rfl (by decide) rfl fun _ _ => ⟨_, rfl⟩
  have hraw : (rawEcho .braces).exhaust? maxPasses (shownText 0 ss) = some (shownText 0 ss) := by
    apply (Rule.opensWithBrace_of_around rfl).exhaust?_marks
    exact leaves_of_mark "~" rfl (by decide) rfl fun _ _ => ⟨_, rfl⟩
  have hdots : (dottedAccess .braces).exhaust? maxPasses (shownText 0 ss) =
      some (shownText 255 ss) := dottedAccess_exhaust? (Nat.le_refl 255)
  have hfields : (loopToken .braces).exhaust? maxPasses (shownText 255 ss) =
      some ((draftOf ss).shown 0) := by
    obtain ⟨changed, hrewrites, hsame⟩ := loopToken_rewrites ss NoField.nil
    exact Rule.exhaust?_of_rewrites hrewrites (loopToken_rewrites_same (draftOf_not_at ss)) hsame
      254
  have hrules : rules .braces = comment .braces :: rawEcho .braces :: dottedAccess .braces ::
      loopToken .braces :: (rules .braces).drop 4 := rfl
  rw [hrules, applyRules, hcomment]
  simp only
  rw [applyRules, hraw]
  simp only
  rw [applyRules, hdots]
  simp only
  rw [applyRules, hfields]
  exact Draft.applyRules (draftOf_inert ss)

end ViewTemplate.Directive
