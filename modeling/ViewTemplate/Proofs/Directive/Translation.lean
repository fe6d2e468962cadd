import ViewTemplate.Directive.Generate
import ViewTemplate.Proofs.Cache.Header
import ViewTemplate.Proofs.Code.Printing
import ViewTemplate.Proofs.Directive.Wording

namespace ViewTemplate.Directive

open ViewTemplate.Code (Token Expr Stmt Phrase Sentence Passage Branches ArgumentPhrases
  isWord_of_lower TextTokens AtTag)

section Phrases

variable {e : Expr} {ts : List Token}

theorem phrase_keys (keys : List Key) {base : Expr} (h : Phrase .access base ts) :
    Phrase .access
      (keys.foldl (fun base k => .index base (.literal (.string (String.ofList k.chars)))) base)
      (ts ++ keys.flatMap Key.tokens) := by
  induction keys generalizing base ts with
  | nil => simpa using h
  | cons k keys ih =>
    have hkey : Phrase .orWord (.literal (.string (String.ofList k.chars)))
        [.string (String.ofList k.chars)] := (Phrase.string _).loosen (Nat.zero_le _)
    simpa [Key.tokens] using ih (.index h hkey)

theorem VariablePath.phrase (p : VariablePath) : Phrase .access p.expr p.tokens :=
  phrase_keys p.keys (.var p.name.text)

theorem phrase_call {name : String}
    (hname : Text.lowerAscii name ∉ ["true", "false", "null", "array"])
    (hlower : Text.lowerAscii name = name) (h : Phrase .access e ts) :
    Phrase .access (.call name [e]) (callTokens name ts) := by
  have hcall := Phrase.call hname (.last (h.loosen (Nat.zero_le _)))
  rw [hlower] at hcall
  exact hcall

theorem phrase_strval (h : Phrase .access e ts) :
    Phrase .access (strval e) (callTokens "strval" ts) := phrase_call (by decide) rfl h

theorem sentence_set (x field : String) (h : Phrase .assignment e ts) :
    Sentence (setField x field e) (setTokens x field ts) := by
  have hassign : Phrase .assignment (.assign (.var (loopFieldName x field)) e)
      (.var (loopFieldName x field) :: .symbol .assign :: ts) := .assign rfl (.var _) h
  have hstart : ∀ s, List.head? (.var (loopFieldName x field) :: .symbol .assign :: ts) ≠
      some (Token.name s) := by rintro s ⟨⟩
  exact .expr hstart (hassign.loosen (Nat.zero_le _))

theorem sentence_echo (h : Phrase .access e ts) :
    Sentence (escapedEchoOf e)
      (.name "echo" :: (callTokens "escape" (callTokens "strval" ts) ++ [.symbol .semicolon])) := by
  have hcall := phrase_call (show Text.lowerAscii "escape" ∉ _ by decide) rfl (phrase_strval h)
  exact .echo (isWord_of_lower rfl) (.last (hcall.loosen (Nat.zero_le _)))

end Phrases

section Loops

variable {body : List Stmt} {ts us : List Token} {l : EachLoop}

theorem EachLoop.passage_fields (l : EachLoop) (h : Passage body us) :
    Passage (l.fields ++ body) (loopFieldTokens l.value ++ us) := by
  let counter : Token := .var (loopFieldName l.value "counter")
  let total : Token := .var (loopFieldName l.value "total")
  have hcounter : Phrase .access (l.field "counter") [counter] := .var _
  have htotal : Phrase .access (l.field "total") [total] := .var _
  have hnext : Phrase .additive (.binary .add (l.field "counter") (.literal (.int 1)))
      [counter, .symbol .plus, .int 1] :=
    .binary rfl (hcounter.loosen (by decide)) ((Phrase.int 1).loosen (by decide))
  have hlast : Phrase .additive (.binary .sub (l.field "total") (.literal (.int 1)))
      [total, .symbol .minus, .int 1] :=
    .binary rfl (htotal.loosen (by decide)) ((Phrase.int 1).loosen (by decide))
  have hisFirst : Phrase .equality (.binary .eq (l.field "counter") (.literal (.int 0)))
      [counter, .symbol .eq, .int 0] :=
    .binary rfl (hcounter.loosen (by decide)) ((Phrase.int 0).loosen (by decide))
  have hisLast : Phrase .equality (.binary .eq (l.field "counter")
      (.binary .sub (l.field "total") (.literal (.int 1))))
      [counter, .symbol .eq, total, .symbol .minus, .int 1] :=
    .binary rfl (hcounter.loosen (by decide)) (hlast.loosen (by decide))
  have hfirst := (Phrase.parens (hisFirst.loosen (by decide))).loosen (u := .assignment) (by decide)
  have hend := (Phrase.parens (hisLast.loosen (by decide))).loosen (u := .assignment) (by decide)
  have hpassage : Passage (l.fields ++ body) _ :=
    .cons (sentence_set l.value "index" (hcounter.loosen (by decide))) <|
    .cons (sentence_set l.value "iteration" (hnext.loosen (by decide))) <|
    .cons (sentence_set l.value "first" hfirst) <|
    .cons (sentence_set l.value "last" hend) <|
    .cons (sentence_set l.value "counter" (hnext.loosen (by decide))) h
  simpa [loopFieldTokens, counter, total] using hpassage

theorem EachLoop.sentence (h : Phrase .access l.subject ts) (hbody : Passage l.body us) :
    ∃ vs, loopTokens ts l.key l.value ++ (us ++ Word.endEach.tokens) = vs ++ [.closeTag] ∧
      Sentence l.stmt vs := by
  have hempty : Phrase .orWord l.guard (.symbol .not :: callTokens "empty" ts) := by
    have hcall := phrase_call (show Text.lowerAscii "empty" ∉ _ by decide) rfl h
    exact (Phrase.unary rfl (hcall.loosen (by decide))).loosen (by decide)
  have hcount := phrase_call (show Text.lowerAscii "count" ∉ _ by decide) rfl h
  have hrounds : Sentence l.rounds _ :=
    .foreach (isWord_of_lower (show Text.lowerAscii "foreach" = "foreach" from rfl))
      (h.loosen (by decide)) (isWord_of_lower rfl) (.closeTag (l.passage_fields (.closeTag hbody)))
      (isWord_of_lower rfl)
  have hguarded : Passage (l.entry ++ [l.rounds]) _ :=
    .cons (sentence_set l.value "counter" ((Phrase.int 0).loosen (by decide))) <|
    .cons (sentence_set l.value "total" (hcount.loosen (by decide))) <| .closeTag <|
    .cons hrounds .nil
  refine ⟨_, ?_, .cond (isWord_of_lower (show Text.lowerAscii "if" = "if" from rfl)) hempty hguarded
    (.none (isWord_of_lower rfl))⟩
  simp [loopTokens, loopEntryTokens, Word.tokens]

end Loops

def codeOf (ss : List Segment) : List Char := (draftOf ss).code

def Segment.tokens : Segment → List Token :=
  Sum.elim (fun t => [.text (String.ofList t.chars)]) Mark.tokens

def tokensOf (ss : List Segment) : List Token := ss.flatMap Segment.tokens

section Segments

variable {cs : List Char} {us : List Token} {d : Mark} {ss ss' : List Segment}

theorem codeOf_append : codeOf (ss ++ ss') = codeOf ss ++ codeOf ss' := by
  rw [codeOf, draftOf, List.map_append, Draft.code, List.flatMap_append]
  rfl

theorem tokensOf_append : tokensOf (ss ++ ss') = tokensOf ss ++ tokensOf ss' :=
  List.flatMap_append

theorem codeOf_mark : codeOf (.inr d :: ss) = d.pending.code.toList ++ codeOf ss := rfl

theorem tokensOf_nil : tokensOf [] = [] := rfl

theorem tokensOf_mark : tokensOf (.inr d :: ss) = d.tokens ++ tokensOf ss := rfl

theorem atTag_codeBlock (s : String) : AtTag ((codeBlock s).toList ++ cs) := by
  refine .inr ⟨(" ".toList ++ s.toList ++ " ".toList ++ Code.closeTag.toList) ++ cs, ?_⟩
  simp only [codeBlock, String.toList_append, List.append_assoc]

theorem atTag_code : AtTag (d.pending.code.toList ++ cs) := by
  rcases d with ⟨_ | _ | _ | _ | _ | ⟨_ | _, _⟩, p⟩ | _ | w
  case path.each.none | path.each.some =>
    show AtTag ((loopOpening _ _ _).toList ++ cs)
    rw [loopOpening, String.toList_append, String.toList_append, List.append_assoc,
      List.append_assoc]
    exact atTag_codeBlock _
  case word => cases w <;> exact atTag_codeBlock _
  all_goals exact atTag_codeBlock _

theorem atTag_codeOf : AtTag (codeOf (.inr d :: ss) ++ cs) := by
  rw [codeOf_mark, List.append_assoc]
  exact atTag_code

theorem spelled_leading (lead : Option PlainText) (hat : AtTag cs) (h : TextTokens cs us) :
    TextTokens (codeOf (leading lead) ++ cs) (tokensOf (leading lead) ++ us) := by
  cases lead with
  | none => exact h
  | some t => simpa [leading, codeOf, tokensOf, draftOf, Draft.code, Segment.tokens] using
      h.text_append hat t.ne_nil t.noTag

theorem spelled_mark (h : TextTokens (codeOf ss ++ cs) (tokensOf ss ++ us)) :
    TextTokens (codeOf (.inr d :: ss) ++ cs) (tokensOf (.inr d :: ss) ++ us) := by
  rw [codeOf_mark, tokensOf_mark, List.append_assoc, List.append_assoc]
  exact d.spelled h

theorem spelled_closed {w : Word} (hbody : ∀ {cs us}, AtTag cs → TextTokens cs us →
      TextTokens (codeOf ss ++ cs) (tokensOf ss ++ us)) (h : TextTokens cs us) :
    TextTokens (codeOf (ss ++ [.inr (.word w)]) ++ cs)
      (tokensOf (ss ++ [.inr (.word w)]) ++ us) := by
  rw [codeOf_append, tokensOf_append, List.append_assoc, List.append_assoc]
  exact hbody atTag_codeOf (spelled_mark h)

end Segments

theorem Block.segments_eq_cons (b : Block) : ∃ d ss, b.segments = .inr d :: ss := by
  cases b <;> exact ⟨_, _, rfl⟩

theorem Tail.segments_eq_cons (r : Tail) : ∃ d ss, r.segments = .inr d :: ss := by
  cases r <;> exact ⟨_, _, rfl⟩

theorem Block.atTag (b : Block) (cs : List Char) : AtTag (codeOf b.segments ++ cs) := by
  obtain ⟨d, ss, hss⟩ := b.segments_eq_cons
  rw [hss]
  exact atTag_codeOf

theorem Tail.atTag (r : Tail) (cs : List Char) : AtTag (codeOf r.segments ++ cs) := by
  obtain ⟨d, ss, hss⟩ := r.segments_eq_cons
  rw [hss]
  exact atTag_codeOf

mutual

theorem Template.spelled : ∀ (t : Template) {cs : List Char} {us : List Token}, AtTag cs →
    TextTokens cs us →
    TextTokens (codeOf t.segments ++ cs) (tokensOf t.segments ++ us)
  | .done lead, _, _, hat, h => spelled_leading lead hat h
  | .block lead b rest, _, _, hat, h => by
    have hrest := b.spelled (rest.spelled hat h)
    simp only [Template.segments, codeOf_append, tokensOf_append, List.append_assoc]
    exact spelled_leading lead (b.atTag _) hrest

theorem Block.spelled : ∀ (b : Block) {cs : List Char} {us : List Token}, TextTokens cs us →
    TextTokens (codeOf b.segments ++ cs) (tokensOf b.segments ++ us)
  | .echo _, _, _, h | .raw _, _, _, h | .field _ _, _, _, h | .break, _, _, h
  | .continue, _, _, h => spelled_mark h
  | .cond _ body rest, _, _, h => by
    refine spelled_mark ?_
    rw [codeOf_append, tokensOf_append, List.append_assoc, List.append_assoc]
    exact body.spelled (rest.atTag _) (rest.spelled h)
  | .loop _ body, _, _, h => spelled_mark (spelled_closed body.spelled h)
  | .each _ _ _ body, _, _, h => spelled_mark (spelled_closed body.spelled h)

theorem Tail.spelled : ∀ (r : Tail) {cs : List Char} {us : List Token}, TextTokens cs us →
    TextTokens (codeOf r.segments ++ cs) (tokensOf r.segments ++ us)
  | .done, _, _, h => spelled_mark h
  | .otherwise body, _, _, h => spelled_mark (spelled_closed body.spelled h)
  | .elseIf _ body rest, _, _, h => by
    refine spelled_mark ?_
    rw [codeOf_append, tokensOf_append, List.append_assoc, List.append_assoc]
    exact body.spelled (rest.atTag _) (rest.spelled h)

end

mutual

/-- The tokens of a template are the passage of the statements it stands for. -/
theorem Template.passage : ∀ (t : Template) {body : List Stmt} {us : List Token},
    Passage body us → Passage (t.stmts ++ body) (tokensOf t.segments ++ us)
  | .done none, _, _, h => h
  | .done (some _), _, _, h => .text h
  | .block lead b rest, body, us, h => by
    obtain ⟨ts, hts, hsentence⟩ := b.sentence
    have hblock : Passage (b.stmt :: (rest.stmts ++ body))
        (tokensOf b.segments ++ (tokensOf rest.segments ++ us)) := by
      rw [hts, List.append_assoc]
      exact .cons hsentence (.closeTag (rest.passage h))
    simp only [Template.segments, Template.stmts, tokensOf_append, List.append_assoc]
    cases lead with
    | none => exact hblock
    | some t => exact .text hblock

theorem Block.sentence : ∀ b : Block, ∃ ts, tokensOf b.segments = ts ++ [.closeTag] ∧
    Sentence b.stmt ts
  | .echo p => ⟨_, by simp [Block.segments, tokensOf, Segment.tokens, Mark.tokens, Use.tokens],
      sentence_echo p.phrase⟩
  | .raw p => by
    have hcall := (phrase_strval p.phrase).loosen (u := .orWord) (by decide)
    refine ⟨_, ?_, .echo (isWord_of_lower (show Text.lowerAscii "echo" = "echo" from rfl))
      (.last hcall)⟩
    simp [Block.segments, tokensOf, Segment.tokens, Mark.tokens, Use.tokens]
  | .field v f => ⟨_, by simp [Block.segments, tokensOf, Segment.tokens, Mark.tokens, Use.tokens],
      sentence_echo (.var (loopName v f.name))⟩
  | .cond p body rest => by
    obtain ⟨vs, hvs, hrest⟩ := rest.branches
    have hbody := body.passage .nil
    rw [List.append_nil, List.append_nil] at hbody
    refine ⟨_, ?_, .cond (isWord_of_lower (show Text.lowerAscii "if" = "if" from rfl))
      (p.phrase.loosen (by decide))
      (.closeTag hbody) hrest⟩
    simp [Block.segments, tokensOf_mark, tokensOf_append, hvs, Mark.tokens, Use.tokens]
  | .loop p body => by
    have hbody := body.passage .nil
    rw [List.append_nil, List.append_nil] at hbody
    refine ⟨_, ?_, .loop (isWord_of_lower (show Text.lowerAscii "while" = "while" from rfl))
      (p.phrase.loosen (by decide))
      (.closeTag hbody) (isWord_of_lower (show Text.lowerAscii "endwhile" = "endwhile" from rfl))⟩
    simp [Block.segments, tokensOf_mark, tokensOf_append, Mark.tokens, Use.tokens, Word.tokens,
      tokensOf_nil]
  | .each p key value body => by
    have hbody := body.passage .nil
    rw [List.append_nil, List.append_nil] at hbody
    let l : EachLoop := ⟨p.expr, key.map Identifier.text, value.text, body.stmts, 0⟩
    obtain ⟨vs, hvs, heach⟩ := l.sentence p.phrase hbody
    rw [Block.stmt, eachStmt_eq]
    refine ⟨vs, ?_, heach⟩
    rw [← hvs]
    simp [Block.segments, tokensOf_mark, tokensOf_append, Mark.tokens, Use.tokens, tokensOf_nil, l]
  | .break => ⟨_, rfl, .break (isWord_of_lower rfl)⟩
  | .continue => ⟨_, rfl, .continue (isWord_of_lower rfl)⟩

theorem Tail.branches : ∀ r : Tail, ∃ ts, tokensOf r.segments = ts ++ [.closeTag] ∧
    Branches r.alternatives ts
  | .done => ⟨_, rfl, .none (isWord_of_lower rfl)⟩
  | .otherwise body => by
    have hbody := body.passage .nil
    rw [List.append_nil, List.append_nil] at hbody
    refine ⟨_, ?_, .otherwise (isWord_of_lower (show Text.lowerAscii "else" = "else" from rfl))
      (.closeTag hbody)
      (isWord_of_lower (show Text.lowerAscii "endif" = "endif" from rfl))⟩
    simp [Tail.segments, tokensOf_mark, tokensOf_append, Mark.tokens, Word.tokens, tokensOf_nil]
  | .elseIf p body rest => by
    obtain ⟨vs, hvs, hrest⟩ := rest.branches
    have hbody := body.passage .nil
    rw [List.append_nil, List.append_nil] at hbody
    refine ⟨_, ?_, .elseIf (isWord_of_lower (show Text.lowerAscii "elseif" = "elseif" from rfl))
      (p.phrase.loosen (by decide))
      (.closeTag hbody) hrest⟩
    simp [Tail.segments, tokensOf_mark, tokensOf_append, hvs, Mark.tokens, Use.tokens]

end

section Calls

variable {cs : List Char}

theorem callDirective_none {before : Option Char} {c : Char} (hc : c ≠ '{') :
    (callDirective .braces).run some ⟨before, c :: cs, 0, []⟩ = none :=
  Pattern.run_exact_none (c := '{') rfl (by simpa using hc)

theorem compileCalls_of_noBrace (h : ∀ c ∈ cs, c ≠ '{') : compileCalls .braces cs = (cs, []) := by
  have hpieces : ∀ before, (callDirective .braces).pieces before cs = cs.map Piece.kept := by
    induction cs with
    | nil => intro before; rw [Pattern.pieces]; rfl
    | cons c cs ih =>
      intro before
      have hrest := ih (fun d hd => h d (List.mem_cons_of_mem _ hd)) (some c)
      rw [Pattern.pieces, callDirective_none (h c List.mem_cons_self), hrest]
      rfl
  rw [compileCalls, hpieces none]
  simp [List.flatMap_map]

end Calls

theorem codeOf_noBrace (ss : List Segment) : ∀ c ∈ codeOf ss, c ≠ '{' := by
  intro c hc
  obtain ⟨part, hpart, hc⟩ := List.mem_flatMap.mp hc
  cases part with
  | inl cs => exact draftOf_inert ss cs hpart c hc
  | inr d => exact d.code_noBrace c hc

/-- A template of the core grammar becomes its code, without diagnostics. -/
theorem Template.generate (t : Template) :
    Directive.generate .braces t.text = .ok ⟨Artifact.ofCode (codeOf t.segments), []⟩ := by
  have hrules : applyRules (rules .braces) t.text.toList = .ok (codeOf t.segments) := by
    rw [Template.text, String.toList_ofList]
    exact applyRules_shownText t.segments
  rw [Directive.generate, hrules]
  simp only [bind, Except.bind, compileCalls_of_noBrace (codeOf_noBrace t.segments)]
  rfl

/-- A template of the core grammar is translated without diagnostics, and its code is read as the
statements it stands for, up to lines. -/
theorem Template.translates (t : Template) :
    ∃ g, Directive.generate .braces t.text = .ok g ∧ g.diagnostics = [] ∧
      ∀ path, ∃ q, Artifact.program g.text path = .ok q ∧
        Code.unlinedAll q.body = Code.unlinedAll t.stmts := by
  refine ⟨_, t.generate, rfl, fun path => ?_⟩
  obtain ⟨s, hs, hts⟩ := t.spelled (.inl rfl) .nil 1
  rw [List.append_nil] at hs
  have hpassage := t.passage .nil
  rw [List.append_nil, List.append_nil] at hpassage
  rw [List.append_nil] at hts
  rw [← hts] at hpassage
  obtain ⟨q, hq, hbody⟩ := hpassage.program
  have hparse : Code.Program.parse (String.ofList (codeOf t.segments)) = .ok q := by
    rw [Code.Program.parse, Code.tokenize, String.toList_ofList, hs]
    exact hq
  refine ⟨q, ?_, hbody⟩
  rw [Artifact.program, Artifact.code_ofCode]
  simp only [bind, Except.bind, hparse]

/-- How a loop is written, with a field, text and a path inside. -/
example :
    let v : Identifier := ⟨'v', [], .inl rfl, nofun⟩
    let items : VariablePath := ⟨⟨'x', ['s'], .inl rfl, List.all_eq_true.mp rfl⟩, [], by decide⟩
    let number : VariablePath := ⟨v, [⟨['n', 'o'], nofun, List.all_eq_true.mp rfl⟩], by decide⟩
    let colon : PlainText := ⟨[':', ' '], nofun, List.all_iff_forall_prop.mp rfl, by decide⟩
    let body : Template := .block none (.field v .index) <|
      .block (some colon) (.raw number) (.done none)
    (Template.block none (.each items (some v) v body) (.done none)).text =
      "{foreach $xs as $v => $v}{$v@index}: {$v.no nofilter}{/foreach}" :=
  rfl

end ViewTemplate.Directive
