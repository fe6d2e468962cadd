import ViewTemplate.Proofs.Code.Lexemes

namespace ViewTemplate.Code

/-- The tokens that sources are cut into; the flag says whether a code block is open. -/
inductive Stream : Bool → List Token → Prop
  | nil : Stream false []
  | text {s : String} {ts : List Token} (hne : s ≠ "") (hs : ¬openTag.toList <:+: s.toList)
    (hts : ∀ s', ts.head? ≠ some (.text s')) (h : Stream false ts) : Stream false (.text s :: ts)
  | openTag {ts : List Token} (h : Stream true ts) : Stream false ts
  | closeTag {ts : List Token} (h : Stream false ts) : Stream true (.closeTag :: ts)
  | token {t : Token} {ts : List Token} (ht : t.Lexical) (h : Stream true ts) :
    Stream true (t :: ts)

/-- What is written for tokens. Text stands as it is, and tokens of code are separated by single
blanks. The close tag may also stand directly behind the tokens that `joins` admits. -/
inductive Written (joins : Token → Prop) : Bool → List Token → List Char → Prop
  | nil : Written joins false [] []
  | text (s : String) {ts : List Token} {cs : List Char} (h : Written joins false ts cs) :
    Written joins false (.text s :: ts) (s.toList ++ cs)
  | openTag {ts : List Token} {cs : List Char} (h : Written joins true ts cs) :
    Written joins false ts (openTag.toList ++ ' ' :: cs)
  | closeTag {ts : List Token} {cs : List Char} (h : Written joins false ts cs) :
    Written joins true (.closeTag :: ts) (closeTag.toList ++ cs)
  | token {t : Token} {w : List Char} {ts : List Token} {cs : List Char} (hw : t.Writes w)
    (h : Written joins true ts cs) : Written joins true (t :: ts) (w ++ ' ' :: cs)
  | last {t : Token} {w : List Char} {ts : List Token} {cs : List Char} (hw : t.Writes w)
    (ht : joins t) (h : Written joins false ts cs) :
    Written joins true (t :: .closeTag :: ts) (w ++ (closeTag.toList ++ cs))

section Image

variable {cs w r : List Char} {opened : Bool} {line l : Nat} {s : TokenStream} {ts : List Token}

theorem not_openTag_literalText (h : literalText cs line = (w, opened, r, l)) :
    w <+: cs ∧ ¬openTag.toList <:+: w := by
  fun_induction literalText cs line generalizing w opened r l with
  | case1 =>
    cases h
    exact ⟨List.nil_prefix, by decide⟩
  | case2 =>
    cases h
    exact ⟨List.nil_prefix, by decide⟩
  | case3 line c rest hc cs' _ _ _ hrest ih =>
    cases h
    obtain ⟨hstarts, htag⟩ := ih hrest
    have hcons : c :: cs' <+: c :: rest := List.cons_prefix_cons.mpr ⟨rfl, hstarts⟩
    refine ⟨hcons, fun hinfix => ?_⟩
    rcases List.infix_cons_iff.mp hinfix with hstart | hinfix
    · obtain ⟨more, hmore⟩ := hstart.trans hcons
      obtain ⟨rfl, rfl⟩ := List.cons.inj hmore
      exact hc more rfl rfl
    · exact htag hinfix

theorem Stream.head?_ne_text (h : Stream true ts) (s : String) : ts.head? ≠ some (.text s) := by
  cases h with
  | closeTag => simp
  | token ht =>
    rintro ⟨⟩
    exact ht

theorem exists_of_map_eq_ok {f : TokenStream → TokenStream} {x : Except SyntaxError TokenStream}
    (h : x.map f = .ok s) : ∃ s', x = .ok s' ∧ s = f s' := by
  cases x with
  | error e => cases h
  | ok s' =>
    cases h
    exact ⟨s', rfl, rfl⟩

theorem stream_scanToken (hs : scanToken cs line = .ok s)
    (htext : ∀ {r l s}, r.length < cs.length → scanText r l = .ok s →
      Stream false (s.tokens.map (·.token)))
    (hcode : ∀ {r l s}, r.length < cs.length → scanCode r l = .ok s →
      Stream true (s.tokens.map (·.token))) : Stream true (s.tokens.map (·.token)) := by
  cases cs with
  | nil => cases hs
  | cons c rest =>
    simp only [scanToken] at hs
    split at hs
    · rename_i r hclose
      obtain ⟨s', hr, rfl⟩ := exists_of_map_eq_ok hs
      have hlength := length_afterStart? hclose
      have htag : closeTag.toList.length = 2 := rfl
      exact .closeTag (htext (by omega) hr)
    · split at hs
      · cases hs
      · rename_i t r m ht
        obtain ⟨s', hr, rfl⟩ := exists_of_map_eq_ok hs
        exact .token (lexical_nextToken ht) (hcode (Nat.lt_succ_of_le (length_nextToken ht)) hr)

theorem stream_scanText (hs : scanText cs line = .ok s)
    (hcode : ∀ {r l s}, r.length < cs.length → scanCode r l = .ok s →
      Stream true (s.tokens.map (·.token))) : Stream false (s.tokens.map (·.token)) := by
  obtain ⟨⟨w, opened, r, l⟩, hl⟩ : ∃ p, literalText cs line = p := ⟨_, rfl⟩
  obtain ⟨-, htag⟩ := not_openTag_literalText hl
  rw [scanText_eq hl] at hs
  obtain ⟨s', hr, rfl⟩ := exists_of_map_eq_ok hs
  have hrest : Stream false (s'.tokens.map (·.token)) ∧
      ∀ text, (s'.tokens.map (·.token)).head? ≠ some (.text text) := by
    cases opened with
    | false =>
      cases hr
      exact ⟨.nil, fun _ h => nomatch h⟩
    | true =>
      have hstream := hcode (length_literalText hl) hr
      exact ⟨.openTag hstream, hstream.head?_ne_text⟩
  cases w with
  | nil => exact hrest.1
  | cons c w => exact .text (by simp) (by rwa [String.toList_ofList]) hrest.2 hrest.1

theorem stream_scan (n : Nat) :
    (∀ {cs line s}, cs.length < n → scanText cs line = .ok s →
      Stream false (s.tokens.map (·.token))) ∧
    ∀ {cs line s}, cs.length < n → scanCode cs line = .ok s →
      Stream true (s.tokens.map (·.token)) := by
  induction n with
  | zero => exact ⟨fun h => absurd h (Nat.not_lt_zero _), fun h => absurd h (Nat.not_lt_zero _)⟩
  | succ n ih =>
    obtain ⟨htext, hcode⟩ := ih
    refine ⟨fun hn hs => stream_scanText hs fun hr => hcode (by omega), fun hn hs => ?_⟩
    rw [scanCode_eq] at hs
    split at hs
    · cases hs
    · rename_i r l hskip
      have hlength := length_skipTrivia hskip
      exact stream_scanToken hs (fun hr => htext (by omega)) fun hr => hcode (by omega)

/-- The tokens of a source are a token stream. -/
theorem stream_tokenize {source : String} (h : tokenize source = .ok s) :
    Stream false (s.tokens.map (·.token)) :=
  (stream_scan (source.toList.length + 1)).1 (Nat.lt_succ_self _) h

end Image

section Writing

variable {joins : Token → Prop} {b : Bool} {t : Token} {ts : List Token} {cs : List Char}

theorem Symbol.exists_spelling (s : Symbol) : ∃ spelling, (spelling, s) ∈ Symbol.spellings := by
  have hall : ∀ s : Symbol, ∃ p ∈ Symbol.spellings, p.2 = s := by
    intro s
    cases s <;> decide +kernel
  obtain ⟨p, hp, rfl⟩ := hall s
  exact ⟨p.1, hp⟩

theorem Token.Lexical.exists_writes (h : t.Lexical) : ∃ w, t.Writes w := by
  cases t with
  | text s => exact h.elim
  | closeTag => exact h.elim
  | var x => exact ⟨_, .var x⟩
  | name s => exact ⟨_, .name s⟩
  | int n => exact ⟨_, .int n⟩
  | float x =>
    obtain ⟨w, hw⟩ := h
    exact ⟨w, .float hw⟩
  | string s => exact ⟨_, .string s⟩
  | template parts => exact ⟨_, .template parts⟩
  | symbol s =>
    obtain ⟨spelling, hs⟩ := s.exists_spelling
    exact ⟨_, .symbol hs⟩

theorem Stream.exists_written (h : Stream b ts) : ∃ cs, Written joins b ts cs := by
  induction h with
  | nil => exact ⟨_, .nil⟩
  | @text s _ _ _ _ _ ih =>
    obtain ⟨cs, hcs⟩ := ih
    exact ⟨_, .text s hcs⟩
  | openTag _ ih =>
    obtain ⟨cs, hcs⟩ := ih
    exact ⟨_, .openTag hcs⟩
  | closeTag _ ih =>
    obtain ⟨cs, hcs⟩ := ih
    exact ⟨_, .closeTag hcs⟩
  | token ht _ ih =>
    obtain ⟨w, hw⟩ := ht.exists_writes
    obtain ⟨cs, hcs⟩ := ih
    exact ⟨_, .token hw hcs⟩

/-- A text is cut into these tokens from inside or from outside of code. -/
def CutInto : Bool → List Char → List Token → Prop
  | true => CodeTokens
  | false => TextTokens

theorem Written.atTag (h : Written joins false ts cs) (hts : ∀ s, ts.head? ≠ some (.text s)) :
    AtTag cs := by
  cases h with
  | nil => exact .inl rfl
  | text s => exact absurd rfl (hts s)
  | openTag => exact .inr ⟨_, rfl⟩

/-- What is written for a token stream is cut into its tokens. -/
theorem Stream.read (h : Stream b ts) (hw : Written (· ≠ .symbol .question) b ts cs) :
    CutInto b cs ts := by
  induction h generalizing cs with
  | nil =>
    cases hw with
    | nil => exact .nil
    | openTag hw => cases hw
  | @text s ts hne hs hts _ ih =>
    cases hw with
    | text s hw =>
      -- Behind a text comes a code block or the end, so the text is not read on.
      have hread := (ih hw).text_append (hw.atTag hts) (String.toList_eq_nil_iff.not.mpr hne) hs
      rw [String.ofList_toList] at hread
      exact hread
    | openTag hw =>
      cases hw with
      | token hw => cases hw
      | last hw => cases hw
  | openTag h ih =>
    cases hw with
    | nil => cases h
    | text s => exact absurd rfl (h.head?_ne_text s)
    | openTag hw => exact .openTag (CodeTokens.blank (ih hw) (by decide))
  | closeTag _ ih =>
    cases hw with
    | closeTag hw => exact .closeTag (ih hw) fun line => ⟨line, rfl⟩
    | token hw => cases hw
    | last hw => cases hw
  | token ht _ ih =>
    cases hw with
    | closeTag => exact ht.elim
    | token hw hmore => exact ht.read hw ⟨_, .inl rfl⟩ (CodeTokens.blank (ih hmore) (by decide))
    | last hw hjoins hmore =>
      exact ht.read hw ⟨_, .inr ⟨hjoins, rfl⟩⟩ (ih (.closeTag hmore))

/-- The tokens of a source can be written back, and all that can be written for them is cut into the
same tokens again. -/
theorem tokenize_written {source : String} {s : TokenStream} (h : tokenize source = .ok s) :
    (∃ text, Written (· ≠ .symbol .question) false (s.tokens.map (·.token)) text) ∧
      ∀ text, Written (· ≠ .symbol .question) false (s.tokens.map (·.token)) text →
        ∃ s', tokenize (String.ofList text) = .ok s' ∧
          s'.tokens.map (·.token) = s.tokens.map (·.token) := by
  have hstream := stream_tokenize h
  refine ⟨hstream.exists_written, fun text htext => ?_⟩
  rw [tokenize, String.toList_ofList]
  exact hstream.read htext 1

/-- A question mark is written back in front of the close tag, with the blank between them. -/
theorem tokenize_written_of_question :
    ∃ s, tokenize "<?tpl $x/* ?> */? ?>" = .ok s ∧
      s.tokens.map (·.token) = [.var "x", .symbol .question, .closeTag] ∧
      (∃ text, Written (· ≠ .symbol .question) false (s.tokens.map (·.token)) text) ∧
      ∀ text, Written (· ≠ .symbol .question) false (s.tokens.map (·.token)) text →
        ∃ s', tokenize (String.ofList text) = .ok s' ∧
          s'.tokens.map (·.token) = s.tokens.map (·.token) := by
  have hclose : CodeTokens " ?>".toList [.closeTag] :=
    CodeTokens.closeTag .nil fun line => ⟨line, rfl⟩
  have hmark : CodeTokens "/* ?> */? ?>".toList [.symbol .question, .closeTag] :=
    hclose.cons (fun line => ⟨line, rfl⟩) rfl fun line => ⟨line, rfl⟩
  have hx : CodeTokens ('$' :: (['x'] ++ "/* ?> */? ?>".toList))
      [.var (String.ofList ['x']), .symbol .question, .closeTag] :=
    hmark.var (by decide) (List.forall_mem_singleton.mpr (by decide +kernel)) (by rintro _ ⟨⟩; rfl)
  obtain ⟨s, hs, hts⟩ := TextTokens.openTag (hx.blank (c := ' ') (by decide)) 1
  have hsource : tokenize "<?tpl $x/* ?> */? ?>" = .ok s := hs
  exact ⟨s, hsource, hts, tokenize_written hsource⟩

/-- Directly in front of the close tag a question mark does not stay what it is: it goes together
with the one of the tag, and the code block does not end. -/
theorem not_tokenize_question_joined :
    (∃ s, tokenize "<?tpl ? ?>" = .ok s ∧
      s.tokens.map (·.token) = [.symbol .question, .closeTag]) ∧
    Written (fun _ => True) false [.symbol .question, .closeTag] "<?tpl ??>".toList ∧
    ∀ s, tokenize "<?tpl ??>" ≠ .ok s := by
  have hmark : (Token.symbol .question).Writes "?".toList :=
    .symbol (show ("?", Symbol.question) ∈ Symbol.spellings by decide)
  have hlexical : (Token.symbol .question).Lexical := trivial
  refine ⟨?_, ?_, fun s hs => ?_⟩
  · exact Stream.read (.openTag (.token hlexical (.closeTag .nil)))
      (.openTag (.token hmark (.closeTag .nil))) 1
  · exact .openTag (.last hmark trivial .nil)
  · have hblock : scanText "<?tpl ??>".toList 1 = (scanCode " ??>".toList 1).map id :=
      scanText_eq (show literalText "<?tpl ??>".toList 1 = ([], true, " ??>".toList, 1) from rfl)
    have hcoalesce : scanCode " ??>".toList 1 =
        (scanCode ">".toList 1).map (·.push ⟨.symbol .coalesce, 1⟩) := scanCode_eq _ _
    have hgreater : scanCode ">".toList 1 =
        (scanCode [] 1).map (·.push ⟨.symbol .gt, 1⟩) := scanCode_eq _ _
    have hend : scanCode [] 1 = .error ⟨1, .unterminatedCode⟩ := scanCode_eq _ _
    rw [tokenize, hblock, hcoalesce, hgreater, hend] at hs
    cases hs

end Writing

end ViewTemplate.Code
