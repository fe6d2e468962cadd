import ViewTemplate.Code.Lexer

namespace ViewTemplate.Code

/-- Inside of a code block the text is cut into these tokens. -/
def CodeTokens (cs : List Char) (ts : List Token) : Prop :=
  ∀ line, ∃ s, scanCode cs line = .ok s ∧ s.tokens.map (·.token) = ts

/-- Outside of code the text is cut into these tokens. -/
def TextTokens (cs : List Char) (ts : List Token) : Prop :=
  ∀ line, ∃ s, scanText cs line = .ok s ∧ s.tokens.map (·.token) = ts

section Scanning

variable {cs r : List Char} {line l : Nat}

def scanToken : List Char → Nat → Except SyntaxError TokenStream
  | [], line => .error ⟨line, .unterminatedCode⟩
  | c :: rest, line =>
    match afterStart? closeTag.toList (c :: rest) with
    | some r => (scanText r line).map (·.push ⟨.closeTag, line⟩)
    | none =>
      match nextToken c rest line with
      | .error e => .error e
      | .ok (t, r, m) => (scanCode r m).map (·.push ⟨t, line⟩)

theorem scanCode_eq (cs : List Char) (line : Nat) :
    scanCode cs line =
      match skipTrivia false cs line with
      | .error e => .error e
      | .ok (r, l) => scanToken r l := by
  rw [scanCode]
  split <;> rename_i hs <;> rw [hs]
  · rfl
  · simp only [scanToken]
    split <;> rename_i hc <;> rw [hc]
    simp only
    split <;> rename_i ht <;> rw [ht]

theorem skipTrivia_blank {c : Char} (hc : Text.isBlank c = true) :
    skipTrivia false (c :: cs) line = skipTrivia false cs (lineAfter c line) := by
  rw [skipTrivia.eq_def]
  simp only
  split
  · exact nomatch ‹false = true›
  · exact nomatch ‹false = true›
  · cases hc
  · exact if_pos hc

theorem scanText_eq {w : List Char} {opened : Bool}
    (h : literalText cs line = (w, opened, r, l)) :
    scanText cs line = (if opened then scanCode r l else .ok ⟨[], l⟩).map fun s =>
      if w.isEmpty then s else s.push ⟨.text (String.ofList w), line⟩ := by
  rw [scanText]
  split
  rename_i hl
  cases h.symm.trans hl
  cases opened <;> rfl

end Scanning

section CodeTokens

variable {cs rest r name w : List Char} {ts : List Token} {c : Char} {t : Token}

theorem CodeTokens.blank (h : CodeTokens cs ts) (hc : Text.isBlank c = true) :
    CodeTokens (c :: cs) ts := by
  intro line
  obtain ⟨s, hs, hts⟩ := h (lineAfter c line)
  refine ⟨s, ?_, hts⟩
  rw [scanCode_eq] at hs
  rw [scanCode_eq, skipTrivia_blank hc]
  exact hs

theorem CodeTokens.cons (h : CodeTokens r ts)
    (hskip : ∀ line, ∃ l, skipTrivia false cs line = .ok (c :: rest, l))
    (hclose : afterStart? Code.closeTag.toList (c :: rest) = none)
    (ht : ∀ line, ∃ m, nextToken c rest line = .ok (t, r, m)) : CodeTokens cs (t :: ts) := by
  intro line
  obtain ⟨l, hl⟩ := hskip line
  obtain ⟨m, hm⟩ := ht l
  obtain ⟨s, hs, rfl⟩ := h m
  refine ⟨s.push ⟨t, l⟩, ?_, rfl⟩
  rw [scanCode_eq, hl]
  simp only [scanToken, hclose, hm, hs]
  rfl

theorem CodeTokens.closeTag (h : TextTokens cs ts)
    (hskip : ∀ line, ∃ l, skipTrivia false r line = .ok ('?' :: '>' :: cs, l)) :
    CodeTokens r (.closeTag :: ts) := by
  intro line
  obtain ⟨l, hl⟩ := hskip line
  obtain ⟨s, hs, rfl⟩ := h l
  refine ⟨s.push ⟨.closeTag, l⟩, ?_, rfl⟩
  have hclose : afterStart? Code.closeTag.toList ('?' :: '>' :: cs) = some cs := rfl
  rw [scanCode_eq, hl]
  simp only [scanToken, hclose, hs]
  rfl

theorem span_eq {p : Char → Bool} (hw : ∀ c ∈ w, p c = true)
    (hrest : ∀ c, rest.head? = some c → p c = false) :
    (w ++ rest).takeWhile p = w ∧ (w ++ rest).dropWhile p = rest := by
  rw [List.takeWhile_append_of_pos hw, List.dropWhile_append_of_pos hw]
  cases rest with
  | nil => simp
  | cons c rest => simp [hrest c rfl]

theorem CodeTokens.var (h : CodeTokens rest ts) (hne : name ≠ [])
    (hname : ∀ c ∈ name, Text.isNamePart c = true)
    (hrest : ∀ c, rest.head? = some c → Text.isNamePart c = false) :
    CodeTokens ('$' :: (name ++ rest)) (.var (String.ofList name) :: ts) := by
  refine h.cons (fun line => ⟨line, rfl⟩) rfl fun line => ⟨line, ?_⟩
  obtain ⟨htake, hdrop⟩ := span_eq hname hrest
  rw [nextToken, if_pos rfl, htake, hdrop]
  obtain ⟨c, cs, rfl⟩ := List.exists_cons_of_ne_nil hne
  rfl

theorem CodeTokens.string (h : CodeTokens rest ts) (hw : ∀ c ∈ w, c ≠ '\'' ∧ c ≠ '\\') :
    CodeTokens ('\'' :: (w ++ '\'' :: rest)) (.string (String.ofList w) :: ts) := by
  have hquoted : ∀ line, ∃ m, singleQuoted (w ++ '\'' :: rest) line = .ok (w, rest, m) := by
    induction w with
    | nil => exact fun line => ⟨line, by rw [List.nil_append, singleQuoted]⟩
    | cons c w ih =>
      intro line
      obtain ⟨m, hm⟩ := ih (fun d hd => hw d (List.mem_cons_of_mem _ hd)) (lineAfter c line)
      obtain ⟨hquote, hslash⟩ := hw c List.mem_cons_self
      refine ⟨m, ?_⟩
      rw [List.cons_append, singleQuoted.eq_5 _ _ _ hquote (fun _ h => absurd h hslash)
        (fun _ h => absurd h hslash), hm]
      rfl
  refine h.cons (fun line => ⟨line, rfl⟩) rfl fun line => ?_
  obtain ⟨m, hm⟩ := hquoted line
  refine ⟨m, ?_⟩
  unfold nextToken
  rw [if_neg (by decide), if_neg (by decide), if_neg (by decide), if_pos rfl, hm]
  rfl

end CodeTokens

section TextTokens

variable {cs w : List Char} {ts : List Token}

/-- A tag that begins in a text does not end behind it, where another tag begins. -/
theorem exists_of_openTag {v more : List Char} {c : Char}
    (h : c :: v ++ '<' :: cs = '<' :: '?' :: 't' :: 'p' :: 'l' :: more) :
    openTag.toList <+: c :: v := by
  obtain ⟨rfl, h⟩ := List.cons.inj h
  match v, h with
  | [_], h => cases h
  | [_, _], h => cases h
  | [_, _, _], h => cases h
  | _ :: _ :: _ :: _ :: v, h =>
    cases h
    exact ⟨v, rfl⟩

theorem literalText_append (hw : ¬openTag.toList <:+: w) (cs : List Char) (line : Nat) :
    ∃ l, literalText (w ++ '<' :: '?' :: 't' :: 'p' :: 'l' :: cs) line = (w, true, cs, l) := by
  induction w generalizing line with
  | nil => exact ⟨line, rfl⟩
  | cons c w ih =>
    obtain ⟨l, hl⟩ := ih (fun h => hw (h.trans (List.suffix_cons c w).isInfix)) (lineAfter c line)
    refine ⟨l, ?_⟩
    rw [List.cons_append, literalText.eq_3, hl]
    rintro more rfl heq
    exact hw (exists_of_openTag (congrArg _ heq)).isInfix

theorem literalText_eq_self (hw : ¬openTag.toList <:+: w) (line : Nat) :
    ∃ l, literalText w line = (w, false, [], l) := by
  induction w generalizing line with
  | nil => exact ⟨line, rfl⟩
  | cons c w ih =>
    obtain ⟨l, hl⟩ := ih (fun h => hw (h.trans (List.suffix_cons c w).isInfix)) (lineAfter c line)
    refine ⟨l, ?_⟩
    rw [literalText.eq_3, hl]
    rintro more rfl rfl
    exact hw (show openTag.toList <+: _ from ⟨more, rfl⟩).isInfix

/-- Outside of code, text in front of a code block stays together. -/
theorem TextTokens.append (h : CodeTokens cs ts) (hne : w ≠ []) (hw : ¬openTag.toList <:+: w) :
    TextTokens (w ++ (openTag.toList ++ cs)) (.text (String.ofList w) :: ts) := by
  intro line
  obtain ⟨l, hl⟩ := literalText_append hw cs line
  obtain ⟨s, hs, rfl⟩ := h l
  refine ⟨s.push ⟨.text (String.ofList w), line⟩, ?_, rfl⟩
  have hempty : w.isEmpty = false := by simpa using hne
  show scanText (w ++ '<' :: '?' :: 't' :: 'p' :: 'l' :: cs) line = _
  rw [scanText_eq hl, if_pos rfl, hs]
  simp only [hempty]
  rfl

theorem TextTokens.openTag (h : CodeTokens cs ts) : TextTokens (openTag.toList ++ cs) ts := by
  intro line
  obtain ⟨s, hs, rfl⟩ := h line
  refine ⟨s, ?_, rfl⟩
  show scanText ('<' :: '?' :: 't' :: 'p' :: 'l' :: cs) line = _
  rw [scanText_eq (w := []) rfl, if_pos rfl, hs]
  rfl

theorem TextTokens.nil : TextTokens [] [] := by
  intro line
  refine ⟨⟨[], line⟩, ?_, rfl⟩
  rw [scanText_eq (w := []) rfl]
  rfl

theorem TextTokens.text (hne : w ≠ []) (hw : ¬Code.openTag.toList <:+: w) :
    TextTokens w [.text (String.ofList w)] := by
  intro line
  obtain ⟨l, hl⟩ := literalText_eq_self hw line
  refine ⟨⟨[⟨.text (String.ofList w), line⟩], l⟩, ?_, rfl⟩
  have hempty : w.isEmpty = false := by simpa using hne
  rw [scanText_eq hl, if_neg Bool.false_ne_true]
  simp only [hempty]
  rfl

/-- A place where text ends: a code block begins, or nothing follows. -/
def AtTag (cs : List Char) : Prop := cs = [] ∨ ∃ r, cs = openTag.toList ++ r

theorem TextTokens.text_append (h : TextTokens cs ts) (hat : AtTag cs) (hne : w ≠ [])
    (hw : ¬Code.openTag.toList <:+: w) :
    TextTokens (w ++ cs) (.text (String.ofList w) :: ts) := by
  rcases hat with rfl | ⟨r, rfl⟩
  · obtain ⟨s, hs, rfl⟩ := h 1
    rw [scanText_eq (w := []) rfl] at hs
    cases hs
    rw [List.append_nil]
    exact .text hne hw
  · refine TextTokens.append (fun line => ?_) hne hw
    obtain ⟨s, hs, hts⟩ := h line
    refine ⟨s, ?_, hts⟩
    have hscan : scanText ('<' :: '?' :: 't' :: 'p' :: 'l' :: r) line = .ok s := hs
    rw [scanText_eq (w := []) rfl, if_pos rfl] at hscan
    cases hcode : scanCode r line with
    | error e => rw [hcode] at hscan; cases hscan
    | ok s' => rw [hcode] at hscan; cases hscan; rfl

end TextTokens

/-- A variable or what is below it is cut into these tokens, unless a name goes on behind it. -/
def SpellsPath (s : String) (ts : List Token) : Prop :=
  ∀ cs us, CodeTokens cs us →
    (∀ c, cs.head? = some c → Text.isNamePart c = false) → CodeTokens (s.toList ++ cs) (ts ++ us)

theorem spellsPath_var {w : List Char} (hne : w ≠ [])
    (hw : ∀ c ∈ w, Text.isNamePart c = true) :
    SpellsPath (String.ofList ('$' :: w)) [.var (String.ofList w)] := by
  intro cs us h hhead
  rw [String.toList_ofList]
  exact h.var hne hw hhead

end ViewTemplate.Code
