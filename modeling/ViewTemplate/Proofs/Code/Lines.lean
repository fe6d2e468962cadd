import ViewTemplate.Proofs.Code.Clauses
import ViewTemplate.Proofs.Code.Writing
import Mathlib

namespace ViewTemplate.Code

/-- The line on which a source goes on behind `before`. -/
def lineBehind (before : List Char) : Nat := 1 + before.count '\n'

theorem lineBehind_append (before w : List Char) :
    lineBehind (before ++ w) = lineBehind before + w.count '\n' := by
  rw [lineBehind, lineBehind, List.count_append, Nat.add_assoc]

section Readers

/-- From `cs` on one line a reader goes forward to `r` on another. -/
def Advances (cs : List Char) (line : Nat) (r : List Char) (l : Nat) : Prop :=
  ∃ w, cs = w ++ r ∧ l = line + w.count '\n'

variable {α β : Type} {cs w r rest : List Char} {c : Char} {line l k : Nat}

theorem Advances.refl (cs : List Char) (line : Nat) : Advances cs line cs line := ⟨[], rfl, rfl⟩

theorem Advances.trans {u : List Char} (h : Advances cs line r l) (h' : Advances r l u k) :
    Advances cs line u k := by
  obtain ⟨v, rfl, rfl⟩ := h
  obtain ⟨w, rfl, rfl⟩ := h'
  exact ⟨v ++ w, (List.append_assoc ..).symm, by rw [List.count_append, Nat.add_assoc]⟩

theorem lineAfter_eq (c : Char) (line : Nat) : lineAfter c line = line + [c].count '\n' := by
  by_cases hc : c = '\n' <;> simp [lineAfter, hc]

theorem Advances.counted (h : Advances rest (lineAfter c line) r l) :
    Advances (c :: rest) line r l :=
  .trans ⟨[c], rfl, lineAfter_eq c line⟩ h

/-- Characters that end no line need not be counted. -/
theorem advances_of_no_line (hw : '\n' ∉ w) : Advances (w ++ r) line r line :=
  ⟨w, rfl, by rw [List.count_eq_zero.2 hw]; rfl⟩

theorem Advances.skipped (h : Advances rest line r l) (hc : c ≠ '\n') :
    Advances (c :: rest) line r l :=
  .trans (advances_of_no_line (w := [c]) (by simpa using hc.symm)) h

/-- Where a reader ends, in success or failure, the line is right. -/
def Counts (cs : List Char) (line : Nat) (place : α → List Char × Nat) : Except SyntaxError α → Prop
  | .ok a => Advances cs line (place a).1 (place a).2
  | .error e => ∃ r, Advances cs line r e.line

theorem Counts.after {p : α → List Char × Nat} {x : Except SyntaxError α} (h : Counts r l p x)
    (hr : Advances cs line r l) : Counts cs line p x := by
  cases x with
  | ok a => exact hr.trans h
  | error e =>
    obtain ⟨u, hu⟩ := h
    exact ⟨u, hr.trans hu⟩

theorem Counts.bind {p : α → List Char × Nat} {q : β → List Char × Nat} {x : Except SyntaxError α}
    {f : α → Except SyntaxError β} (h : Counts cs line p x)
    (hf : ∀ a, ∃ b, f a = .ok b ∧ q b = p a) : Counts cs line q (x >>= f) := by
  cases x with
  | ok a =>
    obtain ⟨b, hb, hplace⟩ := hf a
    show Counts cs line q (f a)
    rw [hb, Counts, hplace]
    exact h
  | error e => exact h

theorem counts_error (fault : SyntaxFault) {p : α → List Char × Nat} :
    Counts cs line p (.error ⟨line, fault⟩) := ⟨cs, .refl cs line⟩

theorem counts_singleQuoted (cs : List Char) (line : Nat) :
    Counts cs line (·.2) (singleQuoted cs line) := by
  fun_induction singleQuoted cs line with
  | case1 line => exact counts_error _
  | case2 line rest => exact (Advances.refl rest line).skipped (by decide)
  | case3 line more ih | case4 line more ih =>
    refine .after (ih.bind fun a => ⟨_, rfl, rfl⟩) ?_
    exact ((Advances.refl more line).skipped (by decide)).skipped (by decide)
  | case5 line c rest _ _ _ ih =>
    exact .after (ih.bind fun a => ⟨_, rfl, rfl⟩) (Advances.refl rest _).counted

theorem noLine_unescape {d e : Char} (h : unescape? d = some e) : d ≠ '\n' := by
  rintro rfl
  cases h

theorem noLine_takeWhile (cs : List Char) : '\n' ∉ cs.takeWhile Text.isNamePart := by
  intro hmem
  have hpart := List.mem_takeWhile_imp hmem
  exact absurd hpart (by decide +kernel)

theorem advances_name (cs : List Char) (line : Nat) :
    Advances cs line (cs.dropWhile Text.isNamePart) line := by
  have hsplit : Advances (cs.takeWhile Text.isNamePart ++ cs.dropWhile Text.isNamePart) line
      (cs.dropWhile Text.isNamePart) line := advances_of_no_line (noLine_takeWhile cs)
  rwa [List.takeWhile_append_dropWhile] at hsplit

theorem counts_doubleQuoted (cs : List Char) (line : Nat) :
    Counts cs line (·.2.2) (doubleQuoted cs line) := by
  fun_induction doubleQuoted cs line with
  | case1 line => exact counts_error _
  | case2 line rest => exact (Advances.refl rest line).skipped (by decide)
  | case3 line d rest e he ih =>
    refine .after (ih.bind fun a => ⟨_, rfl, rfl⟩) ?_
    exact ((Advances.refl rest line).skipped (noLine_unescape he)).skipped (by decide)
  | case4 line d rest _ ih =>
    refine .after (ih.bind fun a => ⟨_, rfl, rfl⟩) ?_
    exact (Advances.refl (d :: rest) line).skipped (by decide)
  | case5 line c rest _ _ hc =>
    rename_i ih
    refine .after (ih.bind fun a => ⟨_, rfl, rfl⟩) ((advances_name rest line).skipped ?_)
    rintro rfl
    simp at hc
  | case6 line c rest _ _ hc ih =>
    exact .after (ih.bind fun a => ⟨_, rfl, rfl⟩) (Advances.refl rest _).counted

theorem Numeral.noLine {b f : Bool} {ds : List Char} (h : Numeral b ds f) : '\n' ∉ ds := by
  induction h with
  | nil => exact List.not_mem_nil
  | digit hc _ ih =>
    rintro (_ | ⟨_, hmem⟩)
    · exact absurd hc (by decide)
    · exact ih hmem
  | fraction _ _ ih =>
    rintro (_ | ⟨_, hmem⟩)
    exact ih hmem
  | exponent hc _ _ ih =>
    rintro (_ | ⟨_, hmem⟩)
    · exact absurd hc (by decide)
    · exact ih hmem
  | signed hc hsign _ _ ih =>
    rintro (_ | ⟨_, _ | ⟨_, hmem⟩⟩)
    · exact absurd hc (by decide)
    · exact absurd hsign (by decide)
    · exact ih hmem

theorem numeral_append (b : Bool) (cs : List Char) :
    (numeral b cs).1 ++ (numeral b cs).2.2 = cs := by
  fun_induction numeral b cs <;> simp_all

theorem advances_numeral (b : Bool) (cs : List Char) (line : Nat) :
    Advances cs line (numeral b cs).2.2 line := by
  have hsplit : Advances ((numeral b cs).1 ++ (numeral b cs).2.2) line (numeral b cs).2.2 line :=
    advances_of_no_line (numeral_isNumeral b cs).noLine
  rwa [numeral_append] at hsplit

theorem append_of_afterStart? {ps : List Char} (h : afterStart? ps cs = some r) : cs = ps ++ r := by
  induction ps generalizing cs with
  | nil => exact Option.some.inj h
  | cons p ps ih =>
    cases cs with
    | nil => cases h
    | cons c cs =>
      rw [afterStart?] at h
      split at h
      · rw [ih h, List.cons_append, ‹p = c›]
      · cases h

theorem not_prefix_of_afterStart? {ps : List Char} (h : afterStart? ps cs = none) : ¬ps <+: cs := by
  rintro ⟨r, rfl⟩
  induction ps with
  | nil => cases h
  | cons p ps ih =>
    rw [List.cons_append, afterStart?, if_pos rfl] at h
    exact ih h

theorem append_of_symbol? {table : List (String × Symbol)} {s : Symbol}
    (h : symbol? cs table = some (s, r)) : ∃ p ∈ table, cs = p.1.toList ++ r := by
  induction table with
  | nil => cases h
  | cons p more ih =>
    rw [symbol?] at h
    split at h
    · cases h
      exact ⟨p, List.mem_cons_self, append_of_afterStart? ‹_›⟩
    · obtain ⟨q, hq, hcs⟩ := ih h
      exact ⟨q, List.mem_cons_of_mem _ hq, hcs⟩

theorem noLine_spellings : ∀ p ∈ Symbol.spellings, '\n' ∉ p.1.toList := by decide +kernel

theorem counts_numeralToken (cs digits : List Char) (isFloat : Bool) (line : Nat) :
    Counts cs line (fun _ => (cs, line)) (numeralToken digits isFloat line) := by
  unfold numeralToken
  split
  · exact .refl _ _
  · split
    · exact .refl _ _
    · exact counts_error _

theorem counts_nextToken (c : Char) (rest : List Char) (line : Nat) :
    Counts (c :: rest) line (·.2) (nextToken c rest line) := by
  have hname := advances_name rest line
  unfold nextToken
  split
  · rename_i hc
    split
    · exact counts_error _
    · exact hname.skipped (by rw [hc]; decide)
  split
  · rename_i hc
    refine hname.skipped ?_
    rintro rfl
    exact absurd hc (by decide)
  split
  · rename_i hc
    have hdigits : Advances (c :: rest) line (numeral false rest).2.2 line := by
      refine (advances_numeral false rest line).skipped ?_
      rintro rfl
      exact absurd hc (by decide)
    exact .after ((counts_numeralToken _ _ _ _).bind fun a => ⟨_, rfl, rfl⟩) hdigits
  split
  · rename_i hc
    have hquote : Advances (c :: rest) line rest line :=
      (Advances.refl rest line).skipped (by rw [hc]; decide)
    exact .after ((counts_singleQuoted rest line).bind fun a => ⟨_, rfl, rfl⟩) hquote
  split
  · rename_i hc
    have hquote : Advances (c :: rest) line rest line :=
      (Advances.refl rest line).skipped (by rw [hc]; decide)
    exact .after ((counts_doubleQuoted rest line).bind fun a => ⟨_, rfl, rfl⟩) hquote
  split
  · obtain ⟨p, hp, hcs⟩ := append_of_symbol? ‹_›
    rw [hcs]
    exact advances_of_no_line (noLine_spellings p hp)
  · exact counts_error _

/-- Blanks and comments between tokens; the flag says whether a comment is open. -/
inductive Gap : Bool → List Char → Prop
  | nil : Gap false []
  | blank {c : Char} {w : List Char} (hc : Text.isBlank c = true) (h : Gap false w) :
      Gap false (c :: w)
  | opened {w : List Char} (h : Gap true w) : Gap false ('/' :: '*' :: w)
  | inside {c : Char} {w : List Char} (hc : ¬['*', '/'] <+: c :: w) (h : Gap true w) :
      Gap true (c :: w)
  | closed {w : List Char} (h : Gap false w) : Gap true ('*' :: '/' :: w)

/-- What is skipped in front of a token, and what the token does not begin with. -/
theorem gap_of_skipTrivia {inside : Bool} (h : skipTrivia inside cs line = .ok (r, l)) :
    ∃ w, cs = w ++ r ∧ l = line + w.count '\n' ∧ Gap inside w ∧
      (∀ c ∈ r.head?, Text.isBlank c = false) ∧ ¬['/', '*'] <+: r := by
  fun_induction skipTrivia inside cs line generalizing r l with
  | case1 => cases h
  | case2 inside line hinside =>
    cases h
    obtain rfl := Bool.eq_false_iff.2 hinside
    refine ⟨[], rfl, rfl, .nil, ?_, by decide⟩
    rintro _ ⟨⟩
  | case3 line more ih =>
    -- The end of the comment that is open.
    obtain ⟨w, rfl, rfl, hw, hr⟩ := ih h
    exact ⟨_, rfl, by simp, .closed hw, hr⟩
  | case4 line c rest hc ih =>
    obtain ⟨w, rfl, rfl, hw, hr⟩ := ih h
    refine ⟨c :: w, rfl, ?_, .inside ?_ hw, hr⟩
    · rw [lineAfter_eq, Nat.add_assoc, ← List.count_append]
      rfl
    · rintro ⟨v, hv⟩
      obtain ⟨rfl, rfl⟩ := List.cons.inj hv
      exact hc _ rfl rfl
  | case5 line more ih =>
    obtain ⟨w, rfl, rfl, hw, hr⟩ := ih h
    exact ⟨_, rfl, by simp, .opened hw, hr⟩
  | case6 line c rest hc hblank ih =>
    obtain ⟨w, rfl, rfl, hw, hr⟩ := ih h
    refine ⟨c :: w, rfl, ?_, .blank hblank hw, hr⟩
    rw [lineAfter_eq, Nat.add_assoc, ← List.count_append]
    rfl
  -- Neither a blank nor a comment: here the token begins.
  | case7 line c rest hc hblank =>
    cases h
    refine ⟨[], rfl, rfl, .nil, ?_, ?_⟩
    · rintro _ ⟨⟩
      exact Bool.eq_false_iff.2 hblank
    · rintro ⟨v, hv⟩
      obtain ⟨rfl, rfl⟩ := List.cons.inj hv
      exact hc _ rfl rfl

theorem counts_skipTrivia (inside : Bool) (cs : List Char) (line : Nat) :
    Counts cs line id (skipTrivia inside cs line) := by
  fun_induction skipTrivia inside cs line with
  | case1 => exact counts_error _
  | case2 => exact .refl _ _
  | case3 line more ih | case5 line more ih =>
    exact .after ih (((Advances.refl more line).skipped (by decide)).skipped (by decide))
  | case4 line c rest _ ih | case6 line c rest _ _ ih =>
    exact .after ih (Advances.refl rest _).counted
  | case7 => exact .refl _ _

theorem parts_of_literalText {opened : Bool} (h : literalText cs line = (w, opened, r, l)) :
    l = line + w.count '\n' ∧
      cs = w ++ if opened then openTag.toList ++ r else [] := by
  fun_induction literalText cs line generalizing w opened r l with
  | case1 =>
    cases h
    exact ⟨rfl, rfl⟩
  | case2 =>
    cases h
    exact ⟨rfl, rfl⟩
  | case3 line c rest _ cs' _ _ _ hrest ih =>
    cases h
    obtain ⟨hl, hcs⟩ := ih hrest
    refine ⟨?_, by rw [List.cons_append, ← hcs]⟩
    rw [hl, lineAfter_eq, Nat.add_assoc, ← List.count_append]
    rfl

end Readers

/-- A line is that of a place which `cs` goes on to behind `before`. -/
def OnLineOf (before cs : List Char) (line : Nat) : Prop :=
  ∃ w, w <+: cs ∧ line = lineBehind (before ++ w)

theorem onLineOf_start (before cs : List Char) : OnLineOf before cs (lineBehind before) :=
  ⟨[], List.nil_prefix, by rw [List.append_nil]⟩

theorem OnLineOf.behind {before w rest : List Char} {line : Nat}
    (h : OnLineOf (before ++ w) rest line) : OnLineOf before (w ++ rest) line := by
  obtain ⟨u, hu, hline⟩ := h
  exact ⟨w ++ u, (List.prefix_append_right_inj w).2 hu, by rw [hline, List.append_assoc]⟩

/-- `Laid inside before cs ts`: behind `before` the source goes on with `cs`, which holds the tokens
`ts`. Each token begins where it is laid, on the line that this place has in the source; the flag
says whether a code block is open there. -/
inductive Laid : Bool → List Char → List Char → List Located → Prop
  | nil {before : List Char} : Laid false before [] []
  | text {before w rest : List Char} {ts : List Located} (hne : w ≠ [])
    (hw : ¬openTag.toList <:+: w) (hrest : AtTag rest) (h : Laid false (before ++ w) rest ts) :
    Laid false before (w ++ rest) (⟨.text (String.ofList w), lineBehind before⟩ :: ts)
  | openTag {before rest : List Char} {ts : List Located}
    (h : Laid true (before ++ openTag.toList) rest ts) :
    Laid false before (openTag.toList ++ rest) ts
  | gap {before w rest : List Char} {ts : List Located} (hw : Gap false w)
    (h : Laid true (before ++ w) rest ts) : Laid true before (w ++ rest) ts
  | closeTag {before rest : List Char} {ts : List Located}
    (h : Laid false (before ++ closeTag.toList) rest ts) :
    Laid true before (closeTag.toList ++ rest) (⟨.closeTag, lineBehind before⟩ :: ts)
  | token {before w rest : List Char} {c : Char} {t : Token} {ts : List Located}
    (hblank : Text.isBlank c = false) (hcomment : ¬['/', '*'] <+: c :: (w ++ rest))
    (hclose : ¬closeTag.toList <+: c :: (w ++ rest))
    (ht : nextToken c (w ++ rest) (lineBehind before) =
      .ok (t, rest, lineBehind (before ++ c :: w)))
    (h : Laid true (before ++ c :: w) rest ts) :
    Laid true before (c :: (w ++ rest)) (⟨t, lineBehind before⟩ :: ts)

section Scanning

variable {inside : Bool} {before cs w r rest : List Char} {c : Char} {ts : List Located}
    {line l : Nat}

/-- What comes of cutting the rest of a source into tokens, behind `before`. -/
def Scanned (inside : Bool) (before cs : List Char) : Except SyntaxError TokenStream → Prop
  | .ok s => Laid inside before cs s.tokens ∧ s.endLine = lineBehind (before ++ cs)
  | .error e => OnLineOf before cs e.line

theorem Scanned.behind {b : Bool} {x : Except SyntaxError TokenStream}
    {f : TokenStream → TokenStream}
    (h : Scanned b (before ++ w) rest x) (hend : ∀ s, (f s).endLine = s.endLine)
    (hf : ∀ s, Laid b (before ++ w) rest s.tokens → Laid inside before (w ++ rest) (f s).tokens) :
    Scanned inside before (w ++ rest) (x.map f) := by
  cases x with
  | ok s =>
    refine ⟨hf s h.1, ?_⟩
    rw [hend, h.2, List.append_assoc]
  | error e => exact OnLineOf.behind h

theorem Scanned.leadingTo {b : Bool} {x : Except SyntaxError TokenStream}
    (h : Scanned b (before ++ w) rest x)
    (hf : ∀ ts, Laid b (before ++ w) rest ts → Laid inside before (w ++ rest) ts) :
    Scanned inside before (w ++ rest) x := by
  have hbehind := h.behind (f := id) (fun _ => rfl) fun s => hf s.tokens
  rwa [Except.map_id] at hbehind

/-- A failure of a reader shows on the line that it has reached. -/
theorem scanned_error {α : Type} {place : α → List Char × Nat} {e : SyntaxError}
    (h : Counts cs (lineBehind before) place (.error e)) : Scanned inside before cs (.error e) := by
  obtain ⟨r, u, rfl, he⟩ := h
  exact ⟨u, List.prefix_append u r, by rw [he, lineBehind_append]⟩

/-- What the readers of text and code make of shorter rests, wherever these are laid. -/
structure ScansBelow (n : Nat) : Prop where
  text (before : List Char) {cs : List Char} :
    cs.length < n → Scanned false before cs (scanText cs (lineBehind before))
  code (before : List Char) {cs : List Char} :
    cs.length < n → Scanned true before cs (scanCode cs (lineBehind before))

variable {n : Nat}

theorem ScansBelow.scanToken (h : ScansBelow n) (hn : cs.length ≤ n)
    (hblank : ∀ c ∈ cs.head?, Text.isBlank c = false) (hcomment : ¬['/', '*'] <+: cs) :
    Scanned true before cs (scanToken cs (lineBehind before)) := by
  cases cs with
  | nil => exact scanned_error (counts_error (p := id) _)
  | cons c rest =>
    simp only [Code.scanToken]
    split
    · rename_i r hclose
      have hcs := append_of_afterStart? hclose
      have hline : lineBehind (before ++ closeTag.toList) = lineBehind before :=
        lineBehind_append ..
      rw [hcs] at hn ⊢
      rw [← hline]
      refine (h.text _ ?_).behind (fun _ => rfl) fun s hs => ?_
      · rw [List.length_append] at hn
        exact Nat.lt_of_lt_of_le (Nat.lt_add_of_pos_left (by decide)) hn
      · exact hline ▸ .closeTag hs
    · rename_i hclose
      have hcounts := counts_nextToken c rest (lineBehind before)
      split
      · rename_i e ht
        rw [ht] at hcounts
        exact scanned_error hcounts
      · rename_i t r m ht
        rw [ht] at hcounts
        obtain ⟨u, hu, hm⟩ := hcounts
        simp only at hu hm
        have hlength := length_nextToken ht
        -- A reader of a token takes its first character at least.
        obtain ⟨w, rfl, rfl⟩ : ∃ w, u = c :: w ∧ rest = w ++ r := by
          cases u with
          | nil =>
            rw [List.nil_append] at hu
            subst hu
            exact absurd hlength (by simp)
          | cons d w =>
            obtain ⟨rfl, rfl⟩ := List.cons.inj hu
            exact ⟨w, rfl, rfl⟩
        rw [← lineBehind_append] at hm
        subst hm
        rw [List.length_cons, List.length_append] at hn
        refine (h.code (before ++ c :: w) (by omega)).behind (fun _ => rfl) fun s hs => ?_
        exact .token (hblank c rfl) hcomment (not_prefix_of_afterStart? hclose) ht hs

theorem ScansBelow.scanCode (h : ScansBelow n) (hn : cs.length ≤ n) :
    Scanned true before cs (scanCode cs (lineBehind before)) := by
  have hcounts := counts_skipTrivia false cs (lineBehind before)
  rw [scanCode_eq]
  split
  · rename_i hskip
    rw [hskip] at hcounts
    exact scanned_error hcounts
  · rename_i r l hskip
    obtain ⟨w, rfl, rfl, hw, hblank, hcomment⟩ := gap_of_skipTrivia hskip
    rw [List.length_append] at hn
    have htoken : Scanned true (before ++ w) r (Code.scanToken r (lineBehind (before ++ w))) :=
      h.scanToken (by omega) hblank hcomment
    rw [lineBehind_append] at htoken
    exact htoken.leadingTo fun s hs => .gap hw hs

theorem ScansBelow.scanText (h : ScansBelow n) (hn : cs.length ≤ n) :
    Scanned false before cs (scanText cs (lineBehind before)) := by
  obtain ⟨⟨w, opened, r, l⟩, hl⟩ : ∃ p, literalText cs (lineBehind before) = p := ⟨_, rfl⟩
  obtain ⟨-, hw⟩ := not_openTag_literalText hl
  obtain ⟨rfl, hcs⟩ := parts_of_literalText hl
  -- Behind the text stands an open tag, or the source ends.
  have hrest : AtTag (if opened then openTag.toList ++ r else []) ∧
      Scanned false (before ++ w) (if opened then openTag.toList ++ r else [])
        (if opened then Code.scanCode r (lineBehind before + w.count '\n')
          else .ok ⟨[], lineBehind before + w.count '\n'⟩) := by
    cases opened with
    | false =>
      refine ⟨.inl rfl, .nil, ?_⟩
      rw [if_neg Bool.false_ne_true, List.append_nil, lineBehind_append]
    | true =>
      have hcode := h.code (before ++ w ++ openTag.toList)
        (Nat.lt_of_lt_of_le (length_literalText hl) hn)
      rw [lineBehind_append, lineBehind_append] at hcode
      exact ⟨.inr ⟨r, rfl⟩, hcode.leadingTo fun ts hts => .openTag hts⟩
  rw [scanText_eq hl, hcs]
  refine hrest.2.behind (fun s => ?_) fun s hs => ?_
  · split <;> rfl
  · cases w with
    | nil => rwa [List.append_nil] at hs
    | cons c w => exact .text nofun hw hrest.1 hs

theorem scansBelow (n : Nat) : ScansBelow n := by
  induction n with
  | zero => exact ⟨fun _ _ h => absurd h (Nat.not_lt_zero _),
      fun _ _ h => absurd h (Nat.not_lt_zero _)⟩
  | succ n ih =>
    exact ⟨fun _ _ h => ih.scanText (Nat.le_of_lt_succ h),
      fun _ _ h => ih.scanCode (Nat.le_of_lt_succ h)⟩

theorem scanned_tokenize (source : String) : Scanned false [] source.toList (tokenize source) :=
  (scansBelow (source.toList.length + 1)).text [] (Nat.lt_succ_self _)

end Scanning

/-- Each token stands on the line of a place in the rest of the source. -/
theorem Laid.onLineOf {inside : Bool} {before cs : List Char} {ts : List Located}
    (h : Laid inside before cs ts) : ∀ t ∈ ts, OnLineOf before cs t.line := by
  induction h with
  | nil => exact nofun
  | openTag _ ih | gap _ _ ih => exact fun t ht => (ih t ht).behind
  | text _ _ _ _ ih | closeTag _ ih | token _ _ _ _ _ ih =>
    intro t ht
    rcases List.mem_cons.1 ht with rfl | ht
    · exact onLineOf_start _ _
    · exact (ih t ht).behind

theorem OnLineOf.bounds {cs : List Char} {line : Nat} (h : OnLineOf [] cs line) :
    1 ≤ line ∧ line ≤ 1 + cs.count '\n' := by
  obtain ⟨w, hw, rfl⟩ := h
  exact ⟨Nat.le_add_right 1 _, Nat.add_le_add_left (hw.sublist.count_le '\n') 1⟩

/-- Lines are exact. Each token of a source is laid on the line of its first character, and the
source ends on its last line. The loops, includes and jumps of a program record the line of their
keyword. A failure shows on a line that the source has. -/
theorem lines_exact (source : String) :
    (∀ s, tokenize source = .ok s →
      Laid false [] source.toList s.tokens ∧ s.endLine = lineBehind source.toList) ∧
    (∀ p, Program.parse source = .ok p →
      ∃ s, tokenize source = .ok s ∧ Clauses p.body s.tokens) ∧
    ∀ e, tokenize source = .error e ∨ Program.parse source = .error e →
      1 ≤ e.line ∧ e.line ≤ 1 + source.toList.count '\n' := by
  have hscanned := scanned_tokenize source
  refine ⟨fun s hs => ?_, fun p hp => ?_, fun e he => ?_⟩
  · rwa [hs] at hscanned
  · obtain ⟨s, hs, hprogram⟩ := exists_of_bind_eq_ok hp
    exact ⟨s, hs, TokenStream.clauses_of_program hprogram⟩
  · suffices h : OnLineOf [] source.toList e.line from h.bounds
    unfold Program.parse at he
    cases htokens : tokenize source with
    | error e' =>
      rw [htokens] at he hscanned
      rcases he with ⟨⟨⟩⟩ | ⟨⟨⟩⟩ <;> exact hscanned
    | ok s =>
      rw [htokens] at he hscanned
      obtain ⟨hlaid, hend⟩ := hscanned
      -- The parser fails on the line of a token or on the last one.
      have hmem : e.line ∈ s.lines := by
        rcases he with he | he
        · cases he
        · exact TokenStream.line_of_program_error he
      rcases List.mem_append.1 hmem with hmem | hmem
      · obtain ⟨t, ht, hline⟩ := List.mem_map.1 hmem
        exact hline ▸ hlaid.onLineOf t ht
      · rw [List.mem_singleton.1 hmem]
        exact ⟨_, List.prefix_refl _, hend⟩

def linedSource : String := "\n<?tpl break; /*\n*/ continue ?>"

theorem tokenize_linedSource : tokenize linedSource = .ok
    ⟨[⟨.text "\n", 1⟩, ⟨.name "break", 2⟩, ⟨.symbol .semicolon, 2⟩, ⟨.name "continue", 3⟩,
      ⟨.closeTag, 3⟩], 3⟩ := by cbv

theorem lines_exact_linedSource :
    (∃ s, tokenize linedSource = .ok s ∧ Laid false [] linedSource.toList s.tokens ∧
      Clauses [.text "\n", .break 2, .continue 3] s.tokens) ∧
    ∃ e, tokenize "<?tpl\n'" = .error e ∧ 1 ≤ e.line ∧ e.line ≤ 2 := by
  have hparse : Program.parse linedSource = .ok ⟨[.text "\n", .break 2, .continue 3]⟩ := by
    rw [Program.parse, tokenize_linedSource]
    rfl
  have hopen : tokenize "<?tpl\n'" = .error ⟨2, .unterminatedString⟩ := by cbv
  obtain ⟨htokens, hprogram, -⟩ := lines_exact linedSource
  obtain ⟨-, -, herror⟩ := lines_exact "<?tpl\n'"
  obtain ⟨s, hs, hclauses⟩ := hprogram _ hparse
  exact ⟨⟨s, hs, (htokens s hs).1, hclauses⟩, _, hopen, herror _ (.inl hopen)⟩

end ViewTemplate.Code
