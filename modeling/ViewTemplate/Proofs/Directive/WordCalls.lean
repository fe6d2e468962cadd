import ViewTemplate.Proofs.Directive.Echoing
import ViewTemplate.Proofs.Directive.Unruled

namespace ViewTemplate.Directive

open Pattern Code

/-- A rule takes the word for a keyword, with a condition right behind it or alone. -/
def IsKeyword (w : List Char) : Prop :=
  (∃ u v, w = u ++ v ∧ v ≠ [] ∧ ∃ s ∈ ["while", "if", "elseif"], IsAnyCase s u) ∨
    ∃ s ∈ ["else", "break", "continue"], IsAnyCase s w

theorem isKeyword_iff {w : List Char} :
    IsKeyword w ↔
      (∃ s ∈ ["while", "if", "elseif"], s.length < w.length ∧ IsAnyCase s (w.take s.length)) ∨
        ∃ s ∈ ["else", "break", "continue"], IsAnyCase s w := by
  refine or_congr ⟨?_, ?_⟩ Iff.rfl
  · rintro ⟨u, v, rfl, hv, s, hs, hu⟩
    have hlength : s.length = u.length := by
      rw [← String.length_toList]
      simpa using (congrArg List.length hu).symm
    refine ⟨s, hs, ?_, ?_⟩
    · rw [hlength, List.length_append]
      exact Nat.lt_add_of_pos_right (List.length_pos_of_ne_nil hv)
    · rwa [hlength, List.take_left]
  · rintro ⟨s, hs, hlt, hu⟩
    refine ⟨_, w.drop s.length, (List.take_append_drop _ w).symm, ?_, s, hs, hu⟩
    exact List.ne_nil_of_length_pos (by simpa using hlt)

instance : DecidablePred IsKeyword := fun _ => decidable_of_iff _ isKeyword_iff.symm

def wordCall (w : List Char) : String := codeBlock ("echo " ++ String.ofList w ++ "();")

variable {w u v z : List Char} {c : Char} {r : Rule}

section Words

variable (hne : w ≠ []) (hw : ∀ c ∈ w, Text.isWordPart c = true)

include hw in
theorem not_mem_of_word (hc : Text.isWordPart c = false) : c ∉ w := by
  intro hmem
  rw [hw c hmem] at hc
  cases hc

include hne hw in
theorem plain_of_word : Plain w where
  toUnmarked := .of_not_mem (not_mem_of_word hw rfl) (not_mem_of_word hw rfl)
  head := by
    obtain ⟨c, l, rfl⟩ := List.exists_cons_of_ne_nil hne
    exact ⟨c, l, rfl, hw c List.mem_cons_self⟩
  no_left := not_mem_of_word hw rfl
  no_right := not_mem_of_word hw rfl
  each := by
    rintro ⟨u, v, rfl, -, hmem⟩
    exact absurd (by simp [hmem]) (not_mem_of_word hw (c := '$') rfl)
  file := by
    rintro ⟨u, v, rfl, -, hmem⟩
    exact absurd (by simp [hmem]) (not_mem_of_word hw (c := '=') rfl)

theorem eq_nil_of_blank (hv : ∀ c ∈ v, Text.isWordPart c = true)
    (hblank : ∀ c ∈ v, Text.isBlank c = true) : v = [] := by
  cases v with
  | nil => rfl
  | cons c v =>
    have hc := Text.isBlank_of_isWordPart (hv c List.mem_cons_self)
    rw [hblank c List.mem_cons_self] at hc
    cases hc

theorem isElseIf_iff (hu : ∀ c ∈ u, Text.isWordPart c = true) :
    IsElseIf u ↔ IsAnyCase "elseif" u := by
  constructor
  · rintro ⟨x, z, y, rfl, hx, hz, hy⟩
    obtain rfl := eq_nil_of_blank (fun c hc => hu c (by simp [hc])) hz
    rw [IsAnyCase, List.map_append, List.nil_append, hx, hy]
    rfl
  · intro h
    have hsplit : u.map Text.foldChar =
        "else".toList.map Text.foldChar ++ "if".toList.map Text.foldChar := h
    obtain ⟨x, y, rfl, hx, hy⟩ := List.map_eq_append_iff.mp hsplit
    exact ⟨x, [], y, rfl, hx, nofun, hy⟩

include hne hw in
theorem unruled_of_word (h : ¬IsKeyword w) : Unruled w where
  toPlain := plain_of_word hne hw
  condition u v huv hu := by
    by_contra hv
    refine h (.inl ⟨u, v, huv, hv, ?_⟩)
    rcases hu with hu | hu | hu
    · exact ⟨"while", by simp, hu⟩
    · exact ⟨"if", by simp, hu⟩
    · exact ⟨"elseif", by simp, (isElseIf_iff fun c hc => hw c (by simp [huv, hc])).mp hu⟩
  word u v huv hv s hs hu := by
    obtain rfl := eq_nil_of_blank (fun c hc => hw c (by simp [huv, hc])) hv
    rw [List.append_nil] at huv
    exact h (.inr ⟨s, hs, huv ▸ hu⟩)

include hne hw in
theorem generate_word (h : ¬IsKeyword w) :
    generate .braces (String.ofList (braced w)) =
      .ok ⟨Artifact.ofCode (wordCall w).toList, []⟩ := by
  have hcall : compileCalls .braces (braced (w ++ ([] ++ []))) = ((wordCall w).toList, []) :=
    compileCalls_braced hne hw (by simp) (by simp) (by simp) (by simp) (by simp) rfl
  rw [List.append_nil, List.append_nil] at hcall
  exact (unruled_of_word hne hw h).generate hcall

end Words

section Keywords

/-- What a keyword rule makes of its directive begins otherwise than a call. -/
def IsControl (s : String) : Prop := NoBrace s ∧ ¬['e', 'c'] <+: s.toList

theorem isControl_condition {statement : String} (hs : NoBrace statement)
    (hstart : ∃ a b l, statement.toList = a :: b :: l ∧ [a, b] ≠ ['e', 'c'])
    (hv : ∀ c ∈ v, Text.isWordPart c = true) :
    IsControl (statement ++ " (" ++ String.ofList v ++ ") :") := by
  have hbrace : NoBrace (String.ofList v) :=
    noBrace_ofList fun c hc => Text.ne_of_isWordPart (hv c hc) rfl
  obtain ⟨a, b, l, hstatement, hne⟩ := hstart
  refine ⟨?_, fun hprefix => hne ?_⟩
  · simp only [noBrace_append, hs, hbrace, true_and, and_true]
    decide
  · simp only [String.toList_append, hstatement, List.cons_append] at hprefix
    obtain ⟨rest, hrest⟩ := hprefix
    cases hrest
    rfl

/-- A keyword is matched where it stands. -/
def RunsOver (p : Pattern) (u : List Char) : Prop :=
  ∀ {next : Cursor → Option Cursor} {m : Cursor} {rest : List Char}, m.rest = u ++ rest →
    p.run next m = next (m.after u rest)

theorem runsOver_anyCase {s : String} (hu : IsAnyCase s u) : RunsOver (anyCase s) u :=
  fun h => run_anyCase_of_fold hu h

theorem runsOver_elseIf (hu : IsAnyCase "elseif" u) (hpart : ∀ c ∈ u, Text.isWordPart c = true) :
    RunsOver (anyCase "else" ++ many blank ++ anyCase "if") u := by
  have hsplit : u.map Text.foldChar =
      "else".toList.map Text.foldChar ++ "if".toList.map Text.foldChar := hu
  obtain ⟨x, y, rfl, hx, hy⟩ := List.map_eq_append_iff.mp hsplit
  obtain ⟨c, l, rfl, -⟩ := List.map_eq_cons_iff.mp hy
  have hc := Text.isBlank_of_isWordPart (hpart c (by simp))
  intro next m rest h
  rw [List.append_assoc] at h
  simp only [run_seq]
  refine (run_anyCase_of_fold hx h).trans ((run_no_blanks (c := c) rfl hc).trans ?_)
  rw [run_anyCase_of_fold (w := c :: l) hy rfl, Cursor.after_after]

theorem conditional_turns_word {keyword : Pattern} (name statement : String)
    (hkeyword : RunsOver keyword u) (hu : u ≠ []) (hv : v ≠ [])
    (hpart : ∀ c ∈ u ++ v, Text.isWordPart c = true) :
    (conditional .braces name keyword statement).Turns (braced (u ++ v)) []
      (codeBlock (statement ++ " (" ++ String.ofList v ++ ") :")).toList := by
  intro before
  obtain ⟨c, x, rfl⟩ := List.exists_cons_of_ne_nil hu
  obtain ⟨d, y, rfl⟩ := List.exists_cons_of_ne_nil hv
  have hc := Text.isBlank_of_isWordPart (hpart c (by simp))
  have hd := Text.isBlank_of_isWordPart (hpart d (by simp))
  let m : Cursor := ⟨before, '{' :: (c :: x ++ (d :: y ++ ['}'])), 0, []⟩
  have hrest : braced (c :: x ++ d :: y) ++ [] = m.rest := by simp [braced, m]
  rw [hrest]
  let k := (m.after ['{'] (c :: x ++ (d :: y ++ ['}']))).after (c :: x) (d :: y ++ ['}'])
  let e := ((k.after (d :: y) ['}']).keep 1 k).after ['}'] []
  have hrun : (conditional .braces name keyword statement).pattern.run some m = some e := by
    refine (run_around (m := m) (c := c) rfl hc).trans ?_
    simp only [run_seq]
    have hover : (m.after ['{'] (c :: x ++ (d :: y ++ ['}']))).rest =
        c :: x ++ (d :: y ++ ['}']) := rfl
    refine (hkeyword hover).trans ?_
    refine (run_no_blanks (c := d) rfl hd).trans ?_
    show (few1 inLine).run (fun n => Delimiters.braces.closing.run some (n.keep 1 k)) k = _
    -- The condition ends at the closing brace: inside of it none comes next.
    refine run_few1 (show k.rest = d :: y ++ ['}'] from rfl) (List.cons_ne_nil d y) ?_
      (fun u' v' huv _ hv' => ?_) (run_closing rfl)
    · intro a ha
      exact decide_eq_true (Text.ne_of_isWordPart (hpart a (by simp_all)) rfl)
    · obtain ⟨a, z, rfl⟩ := List.exists_cons_of_ne_nil hv'
      have ha := hpart a (by simp [huv])
      exact run_closing_none (w := []) rfl List.not_mem_nil (Text.isBlank_of_isWordPart ha)
        (Text.ne_of_isWordPart ha rfl)
  have hgroup : Found.group ⟨⟨m.rest, e.position⟩, e.groups⟩ 1 = String.ofList (d :: y) :=
    Found.group_head (w := d :: y) rfl (by simp)
  refine ⟨e, hrun, rfl, ?_⟩
  show (codeBlock (statement ++ " (" ++ Found.group ⟨⟨m.rest, e.position⟩, e.groups⟩ 1 ++
    ") :")).toList = _
  rw [hgroup]

theorem fixed_turns_word {s : String} (name statements : String) (hs : IsAnyCase s w) (hne : w ≠ [])
    (hpart : ∀ c ∈ w, Text.isWordPart c = true) :
    (fixed .braces name (anyCase s) statements).Turns (braced w) []
      (codeBlock statements).toList := by
  intro before
  obtain ⟨c, l, rfl⟩ := List.exists_cons_of_ne_nil hne
  have hc := Text.isBlank_of_isWordPart (hpart c List.mem_cons_self)
  let m : Cursor := ⟨before, '{' :: (c :: l ++ ['}']), 0, []⟩
  refine ⟨((m.after ['{'] (c :: l ++ ['}'])).after (c :: l) ['}']).after ['}'] [], ?_, rfl, rfl⟩
  rw [List.append_nil]
  refine (run_around (m := m) (c := c) rfl hc).trans ?_
  exact (run_anyCase_of_fold (w := c :: l) hs rfl).trans (run_closing rfl)

/-- A rule leaves a directive, or makes of it code that is no call. -/
def Rule.Decides (r : Rule) (w : List Char) : Prop :=
  r.Leaves (braced w) ∨ ∃ s, IsControl s ∧ r.Turns (braced w) [] (codeBlock s).toList

theorem isAnyCase_ne_nil {s : String} (h : IsAnyCase s u) (hs : s.toList ≠ []) : u ≠ [] := by
  rintro rfl
  exact hs (List.map_eq_nil_iff.mp (Eq.symm h))

variable (hne : w ≠ []) (hw : ∀ c ∈ w, Text.isWordPart c = true)

include hne hw in
theorem conditional_decides {keyword : Pattern} {k statement : String} (name : String)
    (hpasses : keyword.Passes fun u => u <:+: w → IsAnyCase k u)
    (hruns : ∀ u, IsAnyCase k u → (∀ c ∈ u, Text.isWordPart c = true) → RunsOver keyword u)
    (hk : k.toList ≠ []) (hs : NoBrace statement)
    (hstart : ∃ a b l, statement.toList = a :: b :: l ∧ [a, b] ≠ ['e', 'c']) :
    (conditional .braces name keyword statement).Decides w := by
  by_cases h : ∃ u v, w = u ++ v ∧ v ≠ [] ∧ IsAnyCase k u
  · obtain ⟨u, v, rfl, hv, hu⟩ := h
    have hparts := List.forall_mem_append.mp hw
    exact .inr ⟨_, isControl_condition hs hstart hparts.2, conditional_turns_word name statement
      (hruns u hu hparts.1) (isAnyCase_ne_nil hu hk) hv hw⟩
  · refine .inl (conditional_leaves name statement hpasses (plain_of_word hne hw).toNamed ?_)
    intro u v huv hu
    by_contra hv
    exact h ⟨u, v, huv, hv, hu (huv ▸ (List.prefix_append u v).isInfix)⟩

include hne hw in
theorem fixed_decides {s statements : String} (name : String) (hs : IsControl statements) :
    (fixed .braces name (anyCase s) statements).Decides w := by
  by_cases h : IsAnyCase s w
  · exact .inr ⟨statements, hs, fixed_turns_word name statements h hne hw⟩
  · refine .inl (fixed_leaves name statements (plain_of_word hne hw).toNamed ?_)
    intro u v huv hv hu
    obtain rfl := eq_nil_of_blank (fun c hc => hw c (by simp [huv, hc])) hv
    rw [List.append_nil] at huv
    exact h (huv ▸ hu)

include hne hw in
theorem decides_of_mem (hr : r ∈ rules .braces) : r.Decides w := by
  by_cases hname : r.name ∈ keywordRules
  · rcases eq_of_keyword hr hname with rfl | rfl | rfl | rfl | rfl | rfl
    · exact conditional_decides hne hw _ ((passes_anyCase "while").mono fun _ hu _ => hu)
        (fun _ hu _ => runsOver_anyCase hu) (by decide) (by decide) ⟨_, _, _, rfl, by decide⟩
    · exact conditional_decides hne hw _ ((passes_anyCase "if").mono fun _ hu _ => hu)
        (fun _ hu _ => runsOver_anyCase hu) (by decide) (by decide) ⟨_, _, _, rfl, by decide⟩
    · refine conditional_decides hne hw _ (passes_elseIf.mono fun u hu hpart => ?_)
        (fun _ hu hpart => runsOver_elseIf hu hpart) (by decide) (by decide)
          ⟨_, _, _, rfl, by decide⟩
      exact (isElseIf_iff fun c hc => hw c (hpart.mem hc)).mp hu
    · exact fixed_decides hne hw _ ⟨by decide, by decide⟩
    · exact fixed_decides hne hw _ ⟨by decide, by decide⟩
    · exact fixed_decides hne hw _ ⟨by decide, by decide⟩
  · exact .inl ((plain_of_word hne hw).leaves hr hname)

theorem Rule.Turns.not_leaves {e : List Char} (h : r.Turns (braced w) [] e) :
    ¬r.Leaves (braced w) := by
  intro hleaves
  obtain ⟨m, hrun, -⟩ := h none
  rw [List.append_nil, hleaves none] at hrun
  cases hrun

include hne hw in
theorem exists_not_leaves (h : IsKeyword w) : ∃ r ∈ rules .braces, ¬r.Leaves (braced w) := by
  obtain ⟨u, v, rfl, hv, s, hs, hu⟩ | ⟨s, hs, hall⟩ := h
  · have hu' := fun hk => isAnyCase_ne_nil hu hk
    simp only [List.mem_cons, List.not_mem_nil, or_false] at hs
    rcases hs with rfl | rfl | rfl
    · exact ⟨_, by simp [rules], (conditional_turns_word "while" "while" (runsOver_anyCase hu)
        (hu' (by decide)) hv hw).not_leaves⟩
    · exact ⟨_, by simp [rules], (conditional_turns_word "if" "if" (runsOver_anyCase hu)
        (hu' (by decide)) hv hw).not_leaves⟩
    · exact ⟨_, by simp [rules], (conditional_turns_word "else-if" "elseif"
        (runsOver_elseIf hu (List.forall_mem_append.mp hw).1) (hu' (by decide)) hv hw).not_leaves⟩
  · simp only [List.mem_cons, List.not_mem_nil, or_false] at hs
    rcases hs with rfl | rfl | rfl
    · exact ⟨_, by simp [rules], (fixed_turns_word "else" "else :" hall hne hw).not_leaves⟩
    · exact ⟨_, by simp [rules], (fixed_turns_word "break" "break;" hall hne hw).not_leaves⟩
    · exact ⟨_, by simp [rules], (fixed_turns_word "continue" "continue;" hall hne hw).not_leaves⟩

/-- The first rule that does not leave a directive decides what becomes of it. -/
theorem applyRules_of_decides {rs : List Rule} (hleft : '{' ∉ w)
    (hopen : ∀ r ∈ rs, r.OpensWithBrace) (hrs : ∀ r ∈ rs, r.Decides w)
    (hsome : ∃ r ∈ rs, ¬r.Leaves (braced w)) :
    ∃ s, IsControl s ∧ applyRules rs (braced w) = .ok (codeBlock s).toList := by
  induction rs with
  | nil => exact absurd hsome (by simp)
  | cons r rs ih =>
    obtain ⟨hr, hmore⟩ := List.forall_mem_cons.mp hrs
    obtain ⟨hopen, hopens⟩ := List.forall_mem_cons.mp hopen
    have hnone : r.Rewrites [] [] false := r.rewrites_nil
    -- A rule that leaves the directive changes nothing; the one that turns it leaves none behind.
    rcases hr with hleaves | ⟨s, hs, hturns⟩
    · have hsame : r.Rewrites (braced w ++ []) (braced w ++ []) false :=
        hnone.left hopen (by rwa [List.append_nil]) fun c hc => ne_of_mem_of_not_mem hc hleft
      rw [List.append_nil] at hsame
      obtain ⟨q, hq, hnot⟩ := hsome
      have hq' : q ∈ rs := (List.mem_cons.mp hq).resolve_left (by rintro rfl; exact hnot hleaves)
      obtain ⟨s, hs, hrest⟩ := ih hopens hmore ⟨q, hq', hnot⟩
      refine ⟨s, hs, ?_⟩
      rw [applyRules, show maxPasses = 254 + 2 from rfl,
        Rule.exhaust?_of_rewrites hsame hsame (fun _ => rfl)]
      exact hrest
    · have hcode : ∀ c ∈ (codeBlock s).toList, c ≠ '{' := noBrace_codeBlock hs.1
      have hturned := hnone.turned hturns (by simp [braced])
      rw [List.append_nil, List.append_nil] at hturned
      have hagain : ∀ q : Rule, q.OpensWithBrace →
          q.Rewrites (codeBlock s).toList (codeBlock s).toList false := by
        intro q hq
        have hkept := hq.rewrites q.rewrites_nil hcode
        rwa [List.append_nil] at hkept
      refine ⟨s, hs, ?_⟩
      rw [applyRules, show maxPasses = 254 + 2 from rfl,
        Rule.exhaust?_of_rewrites hturned (hagain r hopen) (Bool.noConfusion ·)]
      exact applyRules_of_rewrites fun q hq => hagain q (hopens q hq)

end Keywords

theorem codeBlock_inj {s t : String} (h : codeBlock s = codeBlock t) : s = t := by
  have hlists := congrArg String.toList h
  simp only [codeBlock, String.toList_append, List.append_assoc,
    List.append_cancel_left_eq] at hlists
  exact String.toList_inj.mp (List.append_cancel_right hlists)

theorem ofCode_inj {s t : List Char} (h : Artifact.ofCode s = Artifact.ofCode t) : s = t := by
  have hlists := congrArg String.toList h
  simpa [Artifact.toList_ofCode] using hlists

variable (hne : w ≠ []) (hw : ∀ c ∈ w, Text.isWordPart c = true)

include hne hw in
/-- Exactly the words that are no keywords become calls. -/
theorem generate_word_iff :
    generate .braces (String.ofList (braced w)) =
      .ok ⟨Artifact.ofCode (wordCall w).toList, []⟩ ↔ ¬IsKeyword w := by
  refine ⟨fun h hkeyword => ?_, generate_word hne hw⟩
  -- A keyword becomes a block that does not begin like the echo of a call.
  obtain ⟨s, ⟨hbrace, hcontrol⟩, hrules⟩ := applyRules_of_decides (not_mem_of_word hw rfl)
    (fun r hr => opensWithBrace_of_mem hr) (fun r hr => decides_of_mem hne hw hr)
    (exists_not_leaves hne hw hkeyword)
  rw [generate, String.toList_ofList, hrules] at h
  simp only [bind, Except.bind, compileCalls_of_noBrace (noBrace_codeBlock hbrace)] at h
  have htext : Artifact.ofCode (codeBlock s).toList = Artifact.ofCode (wordCall w).toList := by
    injection h with h
    injection h
  have hcode := String.toList_inj.mp (ofCode_inj htext)
  refine hcontrol ?_
  rw [codeBlock_inj hcode, String.append_assoc, String.toList_append]
  exact (show ['e', 'c'] <+: "echo ".toList from ⟨_, rfl⟩).trans (List.prefix_append _ _)

def wordExpr (w : List Char) : Expr :=
  if Text.lowerAscii (String.ofList w) = "array" then .array []
  else .call (Text.lowerAscii (String.ofList w)) []

/-- A word that the code calls a function by: it begins with an ASCII letter or an underscore, has
only characters of names, and does not stand for a value. -/
structure IsFunctionName (w : List Char) : Prop where
  head : ∃ c l, w = c :: l ∧ (c.isAlpha = true ∨ c = '_') ∧ ∀ d ∈ l, Text.isNamePart d = true
  noValue : Text.lowerAscii (String.ofList w) ∉ valueWords

theorem phrase_word (h : IsFunctionName w) :
    Phrase .orWord (wordExpr w)
      (.name (String.ofList w) :: [.symbol .leftParen, .symbol .rightParen]) := by
  rw [wordExpr]
  split
  · rename_i harray
    exact (Phrase.arrayWord harray .nil).loosen (by decide)
  · rename_i hother
    have hvalue := h.noValue
    have hname : Text.lowerAscii (String.ofList w) ∉ ["true", "false", "null", "array"] := by
      simp only [valueWords, List.mem_cons, List.not_mem_nil, or_false, not_or] at hvalue ⊢
      exact ⟨hvalue.1, hvalue.2.1, hvalue.2.2, hother⟩
    exact (Phrase.call hname .nil).loosen (by decide)

theorem program_word (h : IsFunctionName w) (path : Path) :
    Artifact.program (Artifact.ofCode (wordCall w).toList) path = .ok ⟨[.echo [wordExpr w]]⟩ := by
  have hspells : Spells (w ++ ['(', ')'])
      (.name (String.ofList w) :: [.symbol .leftParen, .symbol .rightParen]) := by
    obtain ⟨c, l, rfl, hc, hl⟩ := h.head
    have hparens : Spells ['(', ')'] [.symbol .leftParen, .symbol .rightParen] :=
      spells_nil.between standsAlone_leftParen standsAlone_rightParen (by decide +kernel)
    exact (spells_name hc hl).append hparens (by decide +kernel)
  have hprogram := program_echo hspells (phrase_word h) path
  rw [String.ofList_append, ← String.append_assoc, String.append_assoc] at hprogram
  exact hprogram

/-- Exactly the words that are no keywords become calls, and those that are names are read as
such. -/
theorem word_is_call (hne : w ≠ []) (hw : ∀ c ∈ w, Text.isWordPart c = true) (path : Path) :
    (generate .braces (String.ofList (braced w)) =
        .ok ⟨Artifact.ofCode (wordCall w).toList, []⟩ ↔ ¬IsKeyword w) ∧
      (IsFunctionName w →
        Artifact.program (Artifact.ofCode (wordCall w).toList) path = .ok ⟨[.echo [wordExpr w]]⟩) :=
  ⟨generate_word_iff hne hw, fun h => program_word h path⟩

theorem word_is_call_elsewhere :
    generate .braces "{elseWhere}" =
        .ok ⟨Artifact.ofCode (codeBlock "echo elseWhere();").toList, []⟩ ∧
      Artifact.program (Artifact.ofCode (codeBlock "echo elseWhere();").toList) ⟨"view"⟩ =
        .ok ⟨[.echo [.call "elsewhere" []]]⟩ := by
  have hname : IsFunctionName "elseWhere".toList :=
    ⟨⟨'e', "lseWhere".toList, rfl, .inl rfl, List.all_eq_true.mp (by decide)⟩, by decide⟩
  have hcall := word_is_call (w := "elseWhere".toList) (by decide)
    (List.all_eq_true.mp (by decide)) ⟨"view"⟩
  exact ⟨hcall.1.mpr (by decide +kernel), hcall.2 hname⟩

/-- A word may begin with a keyword, and a number is a word too. -/
theorem not_word_is_call :
    (¬∀ w : List Char, w ≠ [] → (∀ c ∈ w, Text.isWordPart c = true) →
      (∀ s ∈ ["if", "else", "while", "foreach", "break", "continue", "include"], ¬IsAnyCase s w) →
      generate .braces (String.ofList (braced w)) =
        .ok ⟨Artifact.ofCode (wordCall w).toList, []⟩) ∧
    ¬∀ w : List Char, w ≠ [] → (∀ c ∈ w, Text.isWordPart c = true) →
      (∀ s ∈ ["if", "else", "while", "foreach", "break", "continue", "include"], ¬IsAnyCase s w) →
      ∃ p, Artifact.program (Artifact.ofCode (wordCall w).toList) ⟨"view"⟩ = .ok p := by
  constructor
  · intro h
    have hword : ∀ c ∈ "iffy".toList, Text.isWordPart c = true := List.all_eq_true.mp (by decide)
    have hcall := h _ (by decide) hword (by decide +kernel)
    exact (generate_word_iff (by decide) hword).mp hcall (by decide +kernel)
  · intro h
    obtain ⟨p, hp⟩ := h "123".toList (by decide) (List.all_eq_true.mp (by decide))
      (by decide +kernel)
    have hnone : (Artifact.program (Artifact.ofCode (wordCall "123".toList).toList)
        ⟨"view"⟩).toOption = none := by decide +kernel
    rw [hp] at hnone
    cases hnone

end ViewTemplate.Directive
