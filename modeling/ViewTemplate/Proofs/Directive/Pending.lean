import ViewTemplate.Proofs.Directive.Braces

namespace ViewTemplate

theorem Found.group_of_find? {f : Found} {number length : Nat} {w r : List Char}
    (h : f.groups.find? (fun g => g.1 = number) = some (number, ⟨w ++ r, length⟩))
    (hl : length = w.length) : f.group number = String.ofList w := by
  subst hl
  simp [Found.group, Found.group?, h, Span.text]

theorem Found.group_head {f : Found} {number length : Nat} {w r : List Char}
    {gs : List (Nat × Span)} (h : f.groups = (number, ⟨w ++ r, length⟩) :: gs)
    (hl : length = w.length) : f.group number = String.ofList w :=
  group_of_find? (by rw [h, List.find?_cons_of_pos (by simp)]) hl

namespace Directive

open Pattern

/-- A path as code, behind its dollar sign. -/
structure CodePath where
  chars : List Char
  ne_nil : chars ≠ []
  chars_ok : ∀ c ∈ chars, isPathChar c = true

def CodePath.text (q : CodePath) : String := String.ofList ('$' :: q.chars)

/-- A directive that has to be turned into code. -/
inductive Pending where
  | path (use : Use) (q : CodePath)
  | word (w : Word)

namespace Pending

def content : Pending → List Char
  | path use q => use.before ++ '$' :: (q.chars ++ use.after)
  | word w => w.chars

/-- The number of the rule that turns a directive into code, from the first rule behind those that
rewrite paths. -/
def turn : Pending → Nat
  | path .raw _ => 1
  | path .echo _ => 4
  | path .loop _ => 5
  | word .endLoop => 6
  | path .cond _ => 7
  | path .elseCond _ => 8
  | word .otherwise => 9
  | word .endCond => 10
  | word .break => 11
  | word .continue => 12
  | path (.each none _) _ => 13
  | path (.each (some _) _) _ => 14
  | word .endEach => 15

def code : Pending → String
  | path .raw q => codeBlock ("echo strval(" ++ q.text ++ ");")
  | path .echo q => codeBlock ("echo escape(strval(" ++ q.text ++ "));")
  | path .loop q => codeBlock ("while" ++ " (" ++ q.text ++ ") :")
  | path .cond q => codeBlock ("if" ++ " (" ++ q.text ++ ") :")
  | path .elseCond q => codeBlock ("elseif" ++ " (" ++ q.text ++ ") :")
  | path (.each none value) q => loopOpening q.text (q.text ++ " as $" ++ value.text) value.text
  | path (.each (some key) value) q =>
    loopOpening q.text
      (q.text ++ " as " ++ String.ofList ('$' :: key.chars) ++ " => $" ++ value.text) value.text
  | word .endLoop => codeBlock "endwhile;"
  | word .otherwise => codeBlock "else :"
  | word .endCond => codeBlock "endif;"
  | word .break => codeBlock "break;"
  | word .continue => codeBlock "continue;"
  | word .endEach => codeBlock "endforeach; endif;"

end Pending

section Turns

variable {q : CodePath} {rest : List Char} {r : Rule} {m : Cursor}

theorem CodePath.isAccess (q : CodePath) {others : String}
    (hothers : ['[', ']', '\''] ⊆ others.toList) :
    ∀ c ∈ q.chars, (Text.isWordPart c || others.toList.contains c) = true :=
  fun c hc => isAccess_of_isPathChar (q.chars_ok c hc) hothers

theorem CodePath.plain (q : CodePath) :
    ∀ c ∈ '$' :: q.chars, Text.isBlank c = false ∧ c ≠ '}' ∧ c ≠ '\n' := by
  intro c hc
  rcases List.mem_cons.mp hc with rfl | hc
  · exact ⟨rfl, by decide, by decide⟩
  · have h := q.chars_ok c hc
    exact ⟨isBlank_of_isPathChar h, ne_of_isPathChar h rfl, ne_of_isPathChar h rfl⟩

theorem CodePath.exists_of_split (q : CodePath) {u v : List Char} (h : q.chars = u ++ v)
    (hv : v ≠ []) : ∃ d w, v = d :: w ∧ isPathChar d = true := by
  obtain ⟨d, w, rfl⟩ := List.exists_cons_of_ne_nil hv
  exact ⟨d, w, rfl, q.chars_ok d (by simp [h])⟩

theorem escapedEcho_turns (q : CodePath) (rest : List Char) :
    (escapedEcho .braces).Turns (braced (Pending.path .echo q).content) rest
      (Pending.path .echo q).code.toList := by
  intro before
  let m : Cursor := ⟨before, '{' :: '$' :: (q.chars ++ '}' :: rest), 0, []⟩
  have hrest : braced (Pending.path .echo q).content ++ rest = m.rest := by
    simp [braced, Pending.content, Use.before, Use.after, m]
  rw [hrest]
  let k := m.after ['{'] ('$' :: (q.chars ++ '}' :: rest))
  have hrun : (escapedEcho .braces).pattern.run some m =
      some (((k.after ('$' :: q.chars) ('}' :: rest)).keep 1 k).after ['}'] rest) := by
    refine (run_around (m := m) (c := '$') rfl rfl).trans ?_
    show (access "$.\"'[]").run (fun n => Delimiters.braces.closing.run some (n.keep 1 k)) k = _
    refine run_access rfl q.ne_nil (q.isAccess (by decide)) (fun u v huv _ hv => ?_)
      (run_closing rfl)
    obtain ⟨d, w, rfl, hd⟩ := q.exists_of_split huv hv
    exact run_closing_none (w := []) rfl List.not_mem_nil (isBlank_of_isPathChar hd)
      (ne_of_isPathChar hd rfl)
  refine ⟨_, hrun, rfl, ?_⟩
  refine congrArg (fun g => (codeBlock ("echo escape(strval(" ++ g ++ "));")).toList) ?_
  exact Found.group_head (w := '$' :: q.chars) rfl (by simp [k, m])

theorem unfiltered_turns (q : CodePath) (rest : List Char) :
    (unfiltered .braces).Turns (braced (Pending.path .raw q).content) rest
      (Pending.path .raw q).code.toList := by
  intro before
  let suffix := [' ', 'n', 'o', 'f', 'i', 'l', 't', 'e', 'r', '}']
  let m : Cursor := ⟨before, '{' :: '$' :: (q.chars ++ (suffix ++ rest)), 0, []⟩
  have hrest : braced (Pending.path .raw q).content ++ rest = m.rest := by
    simp [braced, Pending.content, Use.before, Use.after, m, suffix]
  rw [hrest]
  let k := m.after ['{'] ('$' :: (q.chars ++ (suffix ++ rest)))
  let close := (blank ++ anyCase "nofilter").run (Delimiters.braces.closing.run some)
  have hclose : close ((k.after ('$' :: q.chars) (suffix ++ rest)).keep 1 k) =
      some (((k.after ('$' :: q.chars) (suffix ++ rest)).keep 1 k).after suffix rest) := rfl
  have hrun : (unfiltered .braces).pattern.run some m =
      some (((k.after ('$' :: q.chars) (suffix ++ rest)).keep 1 k).after suffix rest) := by
    refine (run_around (m := m) (c := '$') rfl rfl).trans ?_
    show (access "$.\"'[]").run (fun n => close (n.keep 1 k)) k = _
    refine run_access rfl q.ne_nil (q.isAccess (by decide)) (fun u v huv _ hv => ?_) hclose
    obtain ⟨d, w, rfl, hd⟩ := q.exists_of_split huv hv
    refine run_char_none (p := Text.isBlank)
      (m := (k.after ('$' :: u) (d :: w ++ (suffix ++ rest))).keep 1 k) ?_
    rintro _ ⟨⟩
    exact isBlank_of_isPathChar hd
  refine ⟨_, hrun, rfl, ?_⟩
  refine congrArg (fun g => (codeBlock ("echo strval(" ++ g ++ ");")).toList) ?_
  exact Found.group_head (w := '$' :: q.chars) rfl (by simp [k, m])

theorem conditional_turns {keyword : Pattern} {c : Char} {w : List Char}
    (name statement : String) (hc : Text.isBlank c = false)
    (hkeyword : ∀ {next : Cursor → Option Cursor} {m r : Cursor} {rest : List Char},
      m.rest = c :: w ++ ' ' :: '$' :: rest →
      next (m.after (c :: w) (' ' :: '$' :: rest)) = some r → keyword.run next m = some r)
    (q : CodePath) (rest : List Char) :
    (conditional .braces name keyword statement).Turns
      (braced (c :: w ++ ' ' :: '$' :: q.chars)) rest
      (codeBlock (statement ++ " (" ++ q.text ++ ") :")).toList := by
  intro before
  let path := '$' :: q.chars
  let m : Cursor := ⟨before, '{' :: c :: (w ++ ' ' :: (path ++ '}' :: rest)), 0, []⟩
  have hrest : braced (c :: w ++ ' ' :: '$' :: q.chars) ++ rest = m.rest := by
    simp [braced, m, path]
  rw [hrest]
  let k := ((m.after ['{'] (c :: (w ++ ' ' :: (path ++ '}' :: rest)))).after (c :: w)
    (' ' :: (path ++ '}' :: rest))).after [' '] (path ++ '}' :: rest)
  let next := fun n => Delimiters.braces.closing.run some (Cursor.keep n 1 k)
  -- The condition is as short as can be, and inside of a path no directive ends.
  have hgroup : (few1 inLine).run next k = some (((k.after path ('}' :: rest)).keep 1 k).after
      ['}'] rest) := by
    refine run_few1 rfl (List.cons_ne_nil _ _) (fun d hd => decide_eq_true (q.plain d hd).2.2)
      (fun u v huv _ hv => ?_) (run_closing rfl)
    obtain ⟨d, v, rfl⟩ := List.exists_cons_of_ne_nil hv
    obtain ⟨hblank, hbrace, -⟩ := q.plain d (show d ∈ path by simp [huv])
    exact run_closing_none (w := []) rfl List.not_mem_nil hblank hbrace
  have hrun : (conditional .braces name keyword statement).pattern.run some m =
      some (((k.after path ('}' :: rest)).keep 1 k).after ['}'] rest) := by
    refine (run_around (m := m) rfl hc).trans ?_
    refine hkeyword rfl ?_
    exact run_blanks (w := [' ']) rfl (by simp; rfl) rfl hgroup
  refine ⟨_, hrun, rfl, ?_⟩
  refine congrArg (fun g => (codeBlock (statement ++ " (" ++ g ++ ") :")).toList) ?_
  exact Found.group_head (w := path) rfl (by simp [k, m])

/-- A matcher that, behind characters other than a dollar sign, needs one behind blanks. -/
def NeedsDollar (next : Cursor → Option Cursor) : Prop :=
  ∀ (n : Cursor) (w : List Char) (c : Char) (rest : List Char), n.rest = w ++ c :: rest →
    (∀ d ∈ w, d ≠ '$') → c ≠ '$' → Text.isBlank c = false → next n = none

theorem needsDollar_blanks {g : Cursor → Cursor → Option Cursor}
    (hg : ∀ m n, n.rest.head? ≠ some '$' → g m n = none) :
    NeedsDollar fun m => (many blank).run (g m) m := by
  intro n w c rest h hw hc hblank
  refine run_many_class_none h hblank fun u v huv => hg _ _ ?_
  cases v with
  | nil => simpa using hc
  | cons d v => simpa using hw d (by simp [huv])

theorem run_as_none {next : Cursor → Option Cursor} {v : List Char} (hnext : NeedsDollar next)
    (h : m.rest = v ++ ' ' :: 'a' :: rest) (hne : v ≠ [])
    (hv : ∀ c ∈ v, isPathChar c = true) :
    (many blank ++ anyCase "as").run next m = none := by
  obtain ⟨d, v, rfl⟩ := List.exists_cons_of_ne_nil hne
  have hd := hv d (by simp)
  refine (run_no_blanks h (isBlank_of_isPathChar hd)).trans (run_eq_none fun n hn => ?_)
  obtain ⟨w, hw, hpast⟩ := takes_anyCase hn
  obtain ⟨x, w', rfl, -, hw'⟩ := List.map_eq_cons_iff.mp hw
  obtain ⟨y, rfl, hy⟩ := List.map_eq_singleton_iff.mp hw'
  have heq : d :: (v ++ ' ' :: 'a' :: rest) = x :: y :: n.rest := h.symm.trans hpast.1
  obtain ⟨-, heq⟩ := List.cons.inj heq
  match v, heq with
  | [], heq =>
    obtain ⟨rfl, -⟩ := List.cons.inj heq
    exact absurd hy (by decide)
  | [e], heq =>
    exact hnext n [' '] 'a' rest (List.cons.inj heq).2.symm (by simp) (by decide) rfl
  | e :: f :: v, heq =>
    have hf := hv f (by simp)
    exact hnext n [] f (v ++ ' ' :: 'a' :: rest) (List.cons.inj heq).2.symm nofun
      (ne_of_isPathChar hf rfl) (isBlank_of_isPathChar hf)

theorem Identifier.ne_nil (x : Identifier) : x.chars ≠ [] := nofun

theorem run_loopVariable (x : Identifier) (h : m.rest = '$' :: (x.chars ++ '}' :: rest))
    (number : Nat) :
    (exact "$" ++ group number (few1 (wordOr "\"'[]"))).run
        (Delimiters.braces.closing.run some) m =
      some ((((m.after ['$'] (x.chars ++ '}' :: rest)).after x.chars ('}' :: rest)).keep number
        (m.after ['$'] (x.chars ++ '}' :: rest))).after ['}'] rest) := by
  let k := m.after ['$'] (x.chars ++ '}' :: rest)
  refine (run_exact (w := ['$']) rfl h).trans ?_
  show (few1 (wordOr "\"'[]")).run (fun n => Delimiters.braces.closing.run some
    (n.keep number k)) k = _
  refine run_few1 rfl x.ne_nil ?_ (fun u v huv _ hv => ?_) (run_closing rfl)
  · exact fun c hc => isAccess_of_isPathChar (x.isPathChar c hc) (by decide)
  · obtain ⟨d, w, rfl⟩ := List.exists_cons_of_ne_nil hv
    have hd := x.isPathChar d (by simp [huv])
    exact run_closing_none (w := []) rfl List.not_mem_nil (isBlank_of_isPathChar hd)
      (ne_of_isPathChar hd rfl)

theorem all_blank_singleton : ∀ d ∈ [' '], Text.isBlank d = true := by
  intro d hd
  cases List.mem_singleton.mp hd
  rfl

def atPath (m : Cursor) (q : CodePath) (rest : List Char) : Cursor :=
  (m.after ['f', 'o', 'r', 'e', 'a', 'c', 'h']
    (' ' :: '$' :: (q.chars ++ ' ' :: 'a' :: 's' :: rest))).after [' ']
      ('$' :: (q.chars ++ ' ' :: 'a' :: 's' :: rest))

def behindAs (m : Cursor) (q : CodePath) (rest : List Char) : Cursor :=
  ((((atPath m q rest).after ('$' :: q.chars) (' ' :: 'a' :: 's' :: rest)).keep 1
    (atPath m q rest)).after [' '] ('a' :: 's' :: rest)).after ['a', 's'] rest

/-- A loop takes all of its path: the rest finds its `as` nowhere before. -/
theorem run_foreach_path {next : Cursor → Option Cursor} {e : Cursor} (hneeds : NeedsDollar next)
    (h : m.rest = ['f', 'o', 'r', 'e', 'a', 'c', 'h'] ++
      ' ' :: '$' :: (q.chars ++ ' ' :: 'a' :: 's' :: rest))
    (hnext : next (behindAs m q rest) = some e) :
    (anyCase "foreach" ++ many blank ++ group 1 subject ++ many blank ++ anyCase "as").run next m =
      some e := by
  let k := atPath m q rest
  have has : (many blank ++ anyCase "as").run next
      ((k.after ('$' :: q.chars) (' ' :: 'a' :: 's' :: rest)).keep 1 k) = some e := by
    refine run_blanks (w := [' ']) rfl all_blank_singleton rfl ?_
    exact (run_anyCase (w := ['a', 's']) rfl rfl).trans hnext
  simp only [run_seq]
  refine (run_anyCase (w := ['f', 'o', 'r', 'e', 'a', 'c', 'h']) rfl h).trans ?_
  refine run_blanks (w := [' ']) rfl all_blank_singleton rfl ?_
  show (access "$.\"'[]").run (fun n => (many blank ++ anyCase "as").run next (n.keep 1 k)) k = _
  refine run_access rfl q.ne_nil (q.isAccess (by decide)) (fun u v huv _ hv => ?_) has
  exact run_as_none hneeds rfl hv fun c hc => q.chars_ok c (by simp [huv, hc])

theorem foreachValue_turns (value : Identifier) (q : CodePath) (rest : List Char) :
    (foreachValue .braces).Turns (braced (Pending.path (.each none value) q).content) rest
      (Pending.path (.each none value) q).code.toList := by
  intro before
  let ending := '$' :: (value.chars ++ '}' :: rest)
  let loop := ['f', 'o', 'r', 'e', 'a', 'c', 'h'] ++
    ' ' :: '$' :: (q.chars ++ ' ' :: 'a' :: 's' :: ' ' :: ending)
  let m : Cursor := ⟨before, '{' :: loop, 0, []⟩
  have hrest : braced (Pending.path (.each none value) q).content ++ rest = m.rest := by
    simp [braced, Pending.content, Use.before, Use.after, m, loop, ending]
  rw [hrest]
  let j := behindAs (m.after ['{'] loop) q (' ' :: ending)
  let i := ((j.after [' '] ending).keep 2 j).after ['$'] (value.chars ++ '}' :: rest)
  let e := ((i.after value.chars ('}' :: rest)).keep 3 i).after ['}'] rest
  let next := fun n => (many blank).run (fun l => (exact "$" ++ group 3 (few1 (wordOr "\"'[]"))).run
    (Delimiters.braces.closing.run some) (l.keep 2 n)) n
  -- Behind the path a variable is asked for, which no part of a path begins.
  have hneeds : NeedsDollar next := needsDollar_blanks fun _ _ hn => run_exact_none rfl hn
  have hnext : next j = some e := by
    refine run_blanks (w := [' ']) rfl all_blank_singleton rfl ?_
    exact run_loopVariable value rfl 3
  have hrun : (foreachValue .braces).pattern.run some m = some e :=
    (run_around (m := m) (c := 'f') rfl rfl).trans (run_foreach_path hneeds rfl hnext)
  have hvalue : Found.group ⟨⟨m.rest, e.position⟩, e.groups⟩ 3 = value.text :=
    Found.group_of_find? (w := value.chars) rfl (by simp)
  have hpath : Found.group ⟨⟨m.rest, e.position⟩, e.groups⟩ 1 = q.text :=
    Found.group_of_find? (w := '$' :: q.chars) rfl (by simp [atPath])
  refine ⟨e, hrun, rfl, ?_⟩
  show (loopOpening (Found.group ⟨⟨m.rest, e.position⟩, e.groups⟩ 1)
    (Found.group ⟨⟨m.rest, e.position⟩, e.groups⟩ 1 ++ " as $" ++
      Found.group ⟨⟨m.rest, e.position⟩, e.groups⟩ 3)
    (Found.group ⟨⟨m.rest, e.position⟩, e.groups⟩ 3)).toList = _
  rw [hvalue, hpath]
  rfl

theorem foreachEntry_turns (key value : Identifier) (q : CodePath) (rest : List Char) :
    (foreachEntry .braces).Turns (braced (Pending.path (.each (some key) value) q).content) rest
      (Pending.path (.each (some key) value) q).code.toList := by
  intro before
  let ending := '$' :: (value.chars ++ '}' :: rest)
  let arrow := ' ' :: '=' :: '>' :: ' ' :: ending
  let entry := '$' :: (key.chars ++ arrow)
  let loop := ['f', 'o', 'r', 'e', 'a', 'c', 'h'] ++
    ' ' :: '$' :: (q.chars ++ ' ' :: 'a' :: 's' :: ' ' :: entry)
  let m : Cursor := ⟨before, '{' :: loop, 0, []⟩
  have hrest : braced (Pending.path (.each (some key) value) q).content ++ rest = m.rest := by
    simp [braced, Pending.content, Use.before, Use.after, m, loop, entry, arrow, ending]
  rw [hrest]
  let j := (behindAs (m.after ['{'] loop) q (' ' :: entry)).after [' '] entry
  let a := (((j.after ('$' :: key.chars) arrow).keep 2 j).after [' '] ('=' :: '>' :: ' ' ::
    ending)).after ['=', '>'] (' ' :: ending)
  let i := (a.after [' '] ending).after ['$'] (value.chars ++ '}' :: rest)
  let e := ((i.after value.chars ('}' :: rest)).keep 3 i).after ['}'] rest
  let next' := (many blank ++ exact "=>" ++ many blank).run
    ((exact "$" ++ group 3 (few1 (wordOr "\"'[]"))).run (Delimiters.braces.closing.run some))
  have hnext' : next' ((j.after ('$' :: key.chars) arrow).keep 2 j) = some e := by
    refine run_blanks (w := [' ']) rfl all_blank_singleton rfl ?_
    refine (run_exact (w := ['=', '>']) rfl rfl).trans ?_
    refine run_blanks (w := [' ']) rfl all_blank_singleton rfl ?_
    exact run_loopVariable value rfl 3
  let next := (many blank).run fun n =>
    (access "\"'[]").run (fun l => next' (l.keep 2 n)) n
  have hneeds : NeedsDollar next := needsDollar_blanks fun _ _ hn => run_exact_none rfl hn
  -- The name of the key ends at the blank: inside of it no arrow comes next.
  have hnext : next (behindAs (m.after ['{'] loop) q (' ' :: entry)) = some e := by
    refine run_blanks (w := [' ']) rfl all_blank_singleton rfl ?_
    refine run_access (w := key.chars) rfl key.ne_nil ?_ (fun u v huv _ hv => ?_) hnext'
    · exact fun c hc => isAccess_of_isPathChar (key.isPathChar c hc) (by decide)
    · obtain ⟨d, w, rfl⟩ := List.exists_cons_of_ne_nil hv
      have hd := key.isPathChar d (by simp [huv])
      refine (run_no_blanks (c := d) rfl (isBlank_of_isPathChar hd)).trans (run_exact_none rfl ?_)
      simpa using ne_of_isPathChar hd rfl
  have hrun : (foreachEntry .braces).pattern.run some m = some e :=
    (run_around (m := m) (c := 'f') rfl rfl).trans (run_foreach_path hneeds rfl hnext)
  have hvalue : Found.group ⟨⟨m.rest, e.position⟩, e.groups⟩ 3 = value.text :=
    Found.group_of_find? (w := value.chars) rfl (by simp)
  have hkey : Found.group ⟨⟨m.rest, e.position⟩, e.groups⟩ 2 = String.ofList ('$' :: key.chars) :=
    Found.group_of_find? (w := '$' :: key.chars) rfl (by simp)
  have hpath : Found.group ⟨⟨m.rest, e.position⟩, e.groups⟩ 1 = q.text :=
    Found.group_of_find? (w := '$' :: q.chars) rfl (by simp [atPath])
  refine ⟨e, hrun, rfl, ?_⟩
  show (loopOpening (Found.group ⟨⟨m.rest, e.position⟩, e.groups⟩ 1)
    (Found.group ⟨⟨m.rest, e.position⟩, e.groups⟩ 1 ++ " as " ++
      Found.group ⟨⟨m.rest, e.position⟩, e.groups⟩ 2 ++ " => $" ++
      Found.group ⟨⟨m.rest, e.position⟩, e.groups⟩ 3)
    (Found.group ⟨⟨m.rest, e.position⟩, e.groups⟩ 3)).toList = _
  rw [hvalue, hkey, hpath]
  rfl

end Turns

section Leaves

variable {m : Cursor} {rest : List Char}

theorem Pending.content_chars (d : Pending) : ∀ c ∈ d.content, isDirectiveChar c = true := by
  rcases d with ⟨use, q⟩ | w
  · have hpath : ∀ c ∈ q.chars ++ use.after, isDirectiveChar c = true :=
      List.forall_mem_append.mpr ⟨isDirectiveChar_of_path q.chars_ok, use.after_chars⟩
    exact List.forall_mem_append.mpr
      ⟨use.before_chars, List.forall_mem_cons.mpr ⟨rfl, hpath⟩⟩
  · exact w.directiveChars

theorem Pending.not_mem_content (d : Pending) {c : Char} (hc : isDirectiveChar c = false) :
    c ∉ d.content := by
  intro hmem
  rw [d.content_chars c hmem] at hc
  cases hc

theorem Pending.content_eq_cons (d : Pending) :
    ∃ c l, d.content = c :: l ∧ Text.isBlank c = false := by
  rcases d with ⟨use, q⟩ | w
  · cases use <;> exact ⟨_, _, rfl, rfl⟩
  · cases w <;> exact ⟨_, _, rfl, rfl⟩

theorem head?_ne_of_not_mem {w v u : List Char} {c : Char} (hw : w = u ++ v) (hc : c ∉ w)
    (hne : c ≠ '}') : (v ++ '}' :: rest).head? ≠ some c := by
  cases v with
  | nil => simpa using fun h => hne h.symm
  | cons d v =>
    simp only [List.cons_append, List.head?_cons, ne_eq, Option.some.injEq]
    rintro rfl
    exact hc (by simp [hw])

theorem ternary_leaves (d : Pending) (rest : List Char) :
    (ternary .braces).Leaves (braced d.content ++ rest) := by
  intro before
  obtain ⟨c, l, hcontent, hc⟩ := d.content_eq_cons
  have hquestion := d.not_mem_content (c := '?') rfl
  rw [braced_append, hcontent]
  rw [hcontent] at hquestion
  refine (run_around (c := c) rfl hc).trans ?_
  simp only [run_seq, run_group]
  let q := fun c => (Text.isWordPart c || "$.[]='\"".toList.contains c) = true ∨
    Text.isBlank c = true
  have hclass : ∀ {m n}, (alt (wordOr "$.[]='\"") blank).Takes m n → ∃ c, q c ∧ m.Past [c] n := by
    rintro m n (h | h)
    · obtain ⟨c, hc, hpast⟩ := takes_char h
      exact ⟨c, .inl hc, hpast⟩
    · obtain ⟨c, hc, hpast⟩ := takes_char h
      exact ⟨c, .inr hc, hpast⟩
  refine run_class_none (q := q) (w := c :: l) (c := '}') (fun n hn => ?_) rfl (by decide)
    fun u v huv => run_exact_none (c := '?') rfl (head?_ne_of_not_mem huv hquestion (by decide))
  obtain ⟨u, -, hu⟩ := takes_many1 hclass hn
  exact ⟨u, hu⟩

theorem objectProperty_leaves (d : Pending) (rest : List Char) :
    (objectProperty .braces).Leaves (braced d.content ++ rest) := by
  intro before
  have hminus := d.not_mem_content (c := '-') rfl
  rw [braced_append]
  by_cases hd : ∃ l, d.content = '$' :: l
  · obtain ⟨l, hl⟩ := hd
    rw [hl] at hminus ⊢
    refine (run_around (c := '$') rfl rfl).trans ?_
    simp only [run_group, run_seq]
    refine (run_exact (w := ['$']) rfl rfl).trans ?_
    refine run_many1_class_none (w := l) (c := '}') rfl rfl fun u v huv => run_exact_none rfl ?_
    exact head?_ne_of_not_mem huv (List.not_mem_of_not_mem_cons hminus) (by decide)
  · rcases d with ⟨use, q⟩ | w
    · cases use <;> first | rfl | exact absurd ⟨_, rfl⟩ hd
    · cases w <;> rfl

theorem head?_of_echo {q : CodePath} {u v : List Char} (rest : List Char) (h : q.chars = u ++ v) :
    ∃ c l, v ++ '}' :: rest = c :: l ∧ Text.isBlank c = false ∧ c ≠ '=' := by
  cases v with
  | nil => exact ⟨'}', rest, rfl, rfl, by decide⟩
  | cons c v =>
    have hc := q.chars_ok c (by simp [h])
    exact ⟨c, v ++ '}' :: rest, rfl, isBlank_of_isPathChar hc, ne_of_isPathChar hc rfl⟩

theorem unfiltered_leaves_echo (q : CodePath) (rest : List Char) :
    (unfiltered .braces).Leaves (braced (Pending.path .echo q).content ++ rest) := by
  intro before
  rw [braced_append, show (Pending.path .echo q).content = '$' :: q.chars from by
    simp [Pending.content, Use.before, Use.after]]
  refine (run_around (c := '$') rfl rfl).trans ?_
  simp only [run_group, run_seq]
  refine run_access_none (w := q.chars) (c := '}') rfl (by decide) fun u v huv => ?_
  obtain ⟨c, l, hcl, hblank, -⟩ := head?_of_echo rest huv
  refine run_char_none ?_
  rintro d hd
  rw [Cursor.keep_rest, Cursor.after_rest, hcl] at hd
  cases hd
  exact hblank

theorem assignment_leaves_echo (q : CodePath) (rest : List Char) :
    (assignment .braces).Leaves (braced (Pending.path .echo q).content ++ rest) := by
  intro before
  rw [braced_append, show (Pending.path .echo q).content = '$' :: q.chars from by
    simp [Pending.content, Use.before, Use.after]]
  refine (run_around (c := '$') rfl rfl).trans ?_
  simp only [run_group, run_seq]
  refine run_access_none (w := q.chars) (c := '}') rfl (by decide) fun u v huv => ?_
  obtain ⟨c, l, hcl, hblank, hne⟩ := head?_of_echo rest huv
  refine (run_no_blanks (c := c) (by rw [Cursor.keep_rest, Cursor.after_rest, hcl]) hblank).trans ?_
  refine run_exact_none (c := '=') rfl ?_
  rw [Cursor.keep_rest, Cursor.after_rest, hcl]
  simpa using hne

/-- A loop with a key is none without. -/
theorem foreachValue_leaves_entry (key value : Identifier) (q : CodePath) (rest : List Char) :
    (foreachValue .braces).Leaves
      (braced (Pending.path (.each (some key) value) q).content ++ rest) := by
  intro before
  let each := ['f', 'o', 'r', 'e', 'a', 'c', 'h']
  let arrow := '=' :: '>' :: ' ' :: '$' :: (value.chars ++ '}' :: rest)
  let as? := 'a' :: 's' :: ' ' :: '$' :: (key.chars ++ ' ' :: arrow)
  have hrest : braced (Pending.path (.each (some key) value) q).content ++ rest =
      '{' :: (each ++ ' ' :: '$' :: (q.chars ++ ' ' :: as?)) := by
    simp [braced, Pending.content, Use.before, Use.after, each, as?, arrow]
  rw [hrest]
  refine (run_around (c := 'f') rfl rfl).trans ?_
  simp only [run_seq]
  refine (run_anyCase (w := each) rfl rfl).trans ?_
  let next := fun n => (many blank).run (fun l => (exact "$" ++ group 3 (few1 (wordOr "\"'[]"))).run
    (Delimiters.braces.closing.run some) (l.keep 2 n)) n
  have hneeds : NeedsDollar next := needsDollar_blanks fun _ _ hn => run_exact_none rfl hn
  -- A variable is named behind the path, but an arrow follows it and no closing brace.
  have hnext : ∀ n : Cursor, n.rest = ' ' :: as? →
      (many blank ++ anyCase "as").run next n = none := by
    intro n hn
    refine run_blank_none (c := 'a') hn rfl (run_anyCase_none rfl hn (by decide)) ?_
    refine (run_anyCase (w := ['a', 's']) rfl rfl).trans ?_
    refine run_blank_none (c := '$') rfl rfl (run_exact_none (c := '$') rfl (by simp)) ?_
    refine (run_exact (w := ['$']) rfl rfl).trans ?_
    rw [run_group]
    refine run_few1_class_none (w := key.chars) (c := ' ') rfl rfl fun u v huv => ?_
    cases v with
    | nil => exact run_closing_none (w := [' ']) (c := '=') rfl (by decide) rfl (by decide)
    | cons d v =>
      have hd := key.isPathChar d (by simp [huv])
      exact run_closing_none (w := []) rfl List.not_mem_nil (isBlank_of_isPathChar hd)
        (ne_of_isPathChar hd rfl)
  refine run_blank_none (c := '$') rfl rfl (run_exact_none (c := '$') rfl (by simp)) ?_
  rw [run_group, subject]
  refine run_access_none (w := q.chars) (c := ' ') rfl (by decide) fun u v huv => ?_
  cases v with
  | nil => exact hnext _ rfl
  | cons d v =>
    exact run_as_none hneeds rfl (List.cons_ne_nil _ _) fun c hc =>
      q.chars_ok c (by rw [huv]; simp [hc])

end Leaves

end Directive

end ViewTemplate
