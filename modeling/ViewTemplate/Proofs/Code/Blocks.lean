import ViewTemplate.Proofs.Code.Reading

namespace ViewTemplate.Code

mutual

def Stmt.unlined : Stmt → Stmt
  | .cond c body rest => .cond c (unlinedAll body) rest.unlined
  | .loop c body => .loop c (unlinedAll body)
  | .foreach subject key value body _ => .foreach subject key value (unlinedAll body) 0
  | .break _ => .break 0
  | .continue _ => .continue 0
  | .include target _ => .include target 0
  | .text s => .text s
  | .echo es => .echo es
  | .expr e => .expr e
  | .unset targets => .unset targets

def Alternatives.unlined : Alternatives → Alternatives
  | .none => .none
  | .otherwise body => .otherwise (unlinedAll body)
  | .elseIf c body rest => .elseIf c (unlinedAll body) rest.unlined

def unlinedAll : List Stmt → List Stmt
  | [] => []
  | stmt :: more => stmt.unlined :: unlinedAll more

end

namespace Parser

variable {e c subject target : Expr} {es args : List Expr} {stmt : Stmt} {body : List Stmt}
  {rest : Alternatives} {ts us vs : List Token} {w end? : Token} {s r : TokenStream}

theorem line_run (s : TokenStream) : line s = .ok (s.line, s) := rfl

theorem word?_run (s : TokenStream) : word? s = .ok (s.word?, s) := rfl

theorem eatWord_else {β : Type} {word : String} (h : s.word? ≠ some word) (found goes : Parser β) :
    (eatWord word >>= fun b => if b = true then found else goes) s = goes s := by
  rw [bind_of_ok (eatWord_of_other h)]
  rfl

theorem eatWord_then {β : Type} {word : String} (h : s.word? = some word) (found goes : Parser β) :
    (eatWord word >>= fun b => if b = true then found else goes) s = found s.drop := by
  rw [bind_of_ok (eatWord_of_next h)]
  rfl

def Begins (tok : Token) : Prop :=
  tok ≠ .closeTag ∧ tok ≠ .symbol .semicolon ∧ (∀ s, tok ≠ .text s) ∧
    ∀ word ∈ innerWords, ¬IsWord word tok

/-- The reader of a statement takes `ts` as `stmt`, up to lines. -/
structure ReadsAsStmt (stmt : Stmt) (ts : List Token) : Prop where
  begins : ∃ tok more, ts = tok :: more ∧ Begins tok
  full : ∀ (fuel : Nat) {s r : TokenStream}, 20 * ts.length ≤ fuel → s.Shows ts r →
    ∃ stmt', statement fuel s = .ok (stmt', r) ∧ stmt'.unlined = stmt.unlined

/-- The reader of what follows a branch takes `ts` as `rest`, up to lines. -/
structure ReadsAsBranches (rest : Alternatives) (ts : List Token) : Prop where
  begins : ∃ tok more word, ts = tok :: more ∧ IsWord word tok ∧
    word ∈ ["elseif", "else", "endif"]
  full : ∀ (fuel : Nat) {s r : TokenStream}, 20 * ts.length ≤ fuel → s.Shows ts r →
    ∃ rest', alternatives fuel s = .ok (rest', r) ∧ rest'.unlined = rest.unlined

/-- A block ends in front of one of its words, and without any at the end of the code. -/
def BlockEnds (words : List String) (r : TokenStream) : Prop :=
  (words = [] ∧ r.next? = none) ∨ ∃ word ∈ words, r.word? = some word

/-- The reader of a block takes `ts` as the statements `body`, up to lines. -/
def ReadsAsBlock (body : List Stmt) (ts : List Token) : Prop :=
  ∀ (fuel : Nat) (words : List String) {s r : TokenStream}, 20 * (ts.length + 1) ≤ fuel →
    words ⊆ innerWords → s.Shows ts r → BlockEnds words r →
    ∃ body', block fuel words s = .ok (body', r) ∧ unlinedAll body' = unlinedAll body

theorem next?_of_word? {word : String} (h : s.word? = some word) :
    ∃ name, s.next? = some (.name name) ∧ Text.lowerAscii name = word := by
  unfold TokenStream.word? at h
  split at h
  · rename_i name hn
    exact ⟨name, hn, Option.some.inj h⟩
  · cases h

theorem block_of_begins {tok : Token} {words : List String} (fuel : Nat)
    (hn : s.next? = some tok) (h : Begins tok) (hwords : words ⊆ innerWords) :
    block (fuel + 1) words s =
      (do
        let stmt ← statement fuel
        return stmt :: (← block fuel words)) s := by
  obtain ⟨hclose, hsemi, htext, hword⟩ := h
  have hinner : s.word?.any words.contains = false := by
    cases hw : s.word? with
    | none => rfl
    | some word =>
      obtain ⟨name, hname, hlower⟩ := next?_of_word? hw
      rw [hn] at hname
      refine Bool.eq_false_iff.mpr fun hmem => ?_
      exact hword word (hwords (by simpa using hmem)) ⟨name, Option.some.inj hname, hlower⟩
  have hstmt : ∀ {β : Type} (ended goes : Parser β),
      (if s.word?.any words.contains = true then ended else goes) = goes :=
    fun ended goes => if_neg (by simp [hinner])
  rw [block, bind_of_ok (next?_run s), hn]
  cases tok with
  | closeTag => exact absurd rfl hclose
  | text text => exact absurd rfl (htext text)
  | symbol symbol =>
    cases symbol <;> first
      | exact absurd rfl hsemi
      | exact (bind_of_ok (word?_run s)).trans (congrFun (hstmt _ _) s)
  | _ => exact (bind_of_ok (word?_run s)).trans (congrFun (hstmt _ _) s)

theorem block_of_end {words : List String} (fuel : Nat) (h : BlockEnds words s) :
    block (fuel + 1) words s = .ok ([], s) := by
  rw [block, bind_of_ok (next?_run s)]
  obtain ⟨rfl, hn⟩ | ⟨word, hmem, hw⟩ := h
  · rw [hn]
    rfl
  · obtain ⟨name, hn, -⟩ := next?_of_word? hw
    rw [hn]
    simp only
    rw [bind_of_ok (word?_run s), hw]
    simp only [Option.any_some, List.contains_iff_mem.mpr hmem, if_true]
    rfl

theorem readsAsBlock_nil : ReadsAsBlock [] [] := by
  intro fuel words s r hf _ hs hend
  obtain ⟨fuel, rfl⟩ : ∃ n, fuel = n + 1 := ⟨fuel - 1, by omega⟩
  subst hs
  exact ⟨[], block_of_end fuel hend, rfl⟩

theorem ReadsAsBlock.closeTag (h : ReadsAsBlock body ts) : ReadsAsBlock body (.closeTag :: ts) := by
  intro fuel words s r hf hwords hs hend
  rw [List.length_cons] at hf
  obtain ⟨fuel, rfl⟩ : ∃ n, fuel = n + 1 := ⟨fuel - 1, by omega⟩
  obtain ⟨body', hb, he⟩ := h fuel words (by omega) hwords hs.2 hend
  refine ⟨body', ?_, he⟩
  rw [block, bind_of_ok (next?_run s), hs.1]
  simp only
  rw [bind_of_ok (skip_run s), hb]

theorem ReadsAsBlock.text {text : String} (h : ReadsAsBlock body ts) :
    ReadsAsBlock (.text text :: body) (.text text :: ts) := by
  intro fuel words s r hf hwords hs hend
  rw [List.length_cons] at hf
  obtain ⟨fuel, rfl⟩ : ∃ n, fuel = n + 1 := ⟨fuel - 1, by omega⟩
  obtain ⟨body', hb, he⟩ := h fuel words (by omega) hwords hs.2 hend
  refine ⟨.text text :: body', ?_, by rw [unlinedAll, unlinedAll, he]⟩
  rw [block, bind_of_ok (next?_run s), hs.1]
  simp only
  rw [bind_of_ok (skip_run s), bind_of_ok hb]
  rfl

theorem ReadsAsStmt.cons (h : ReadsAsStmt stmt ts) (hbody : ReadsAsBlock body us) :
    ReadsAsBlock (stmt :: body) (ts ++ us) := by
  intro fuel words s r hf hwords hs hend
  obtain ⟨tok, more, rfl, hbegins⟩ := h.begins
  rw [List.length_append, List.length_cons] at hf
  obtain ⟨fuel, rfl⟩ : ∃ n, fuel = n + 1 := ⟨fuel - 1, by omega⟩
  obtain ⟨q, hq, hs'⟩ := TokenStream.shows_append.mp hs
  obtain ⟨stmt', hstmt, hunlined⟩ := h.full fuel (by rw [List.length_cons]; omega) hq
  obtain ⟨body', hb, he⟩ := hbody fuel words (by omega) hwords hs' hend
  refine ⟨stmt' :: body', ?_, by rw [unlinedAll, unlinedAll, hunlined, he]⟩
  rw [block_of_begins fuel hq.1 hbegins hwords, bind_of_ok hstmt, bind_of_ok hb]
  rfl

theorem begins_of_isWord {word : String} (hw : IsWord word w) (h : word ∉ innerWords) :
    Begins w := by
  obtain ⟨name, rfl, rfl⟩ := hw
  refine ⟨nofun, nofun, nofun, ?_⟩
  rintro word hmem ⟨name', heq, rfl⟩
  cases heq
  exact h hmem

theorem readsAsStmt_of_word {word : String} (hw : IsWord word w) (h : word ∉ innerWords)
    (hfull : ∀ (fuel : Nat) {s r : TokenStream}, 20 * (ts.length + 1) ≤ fuel + 1 →
      s.word? = some word → s.drop.Shows ts r →
      ∃ stmt', statement (fuel + 1) s = .ok (stmt', r) ∧ stmt'.unlined = stmt.unlined) :
    ReadsAsStmt stmt (w :: ts) where
  begins := ⟨w, ts, rfl, begins_of_isWord hw h⟩
  full fuel s r hf hs := by
    rw [List.length_cons] at hf
    obtain ⟨fuel, rfl⟩ : ∃ n, fuel = n + 1 := ⟨fuel - 1, by omega⟩
    exact hfull fuel hf (word?_of_next hs.1 hw) hs.2

def ReadsAsExprs (es : List Expr) (ts : List Token) : Prop :=
  ∀ (fuel : Nat) {s r : TokenStream}, 20 * (ts.length + 1) ≤ fuel → s.Shows ts r →
    EndsAt .orWord r.next? → r.next? ≠ some (.symbol .comma) → exprs fuel s = .ok (es, r)

theorem ReadsAs.last_expr (h : ReadsAs .orWord e ts) : ReadsAsExprs [e] ts := by
  intro fuel s r hf hs hend hcomma
  obtain ⟨fuel, rfl⟩ : ∃ n, fuel = n + 1 := ⟨fuel - 1, by omega⟩
  rw [exprs, bind_of_ok (h.full fuel (by omega) hs hend), bind_of_ok (eat_of_other hcomma)]
  rfl

theorem ReadsAs.cons_expr (h : ReadsAs .orWord e ts) (hmore : ReadsAsExprs es us) :
    ReadsAsExprs (e :: es) (ts ++ .symbol .comma :: us) := by
  intro fuel s r hf hs hend hcomma
  rw [List.length_append, List.length_cons] at hf
  obtain ⟨fuel, rfl⟩ : ∃ n, fuel = n + 1 := ⟨fuel - 1, by omega⟩
  obtain ⟨q, hq, hn, hs'⟩ := TokenStream.shows_append.mp hs
  have hends : EndsAt .orWord q.next? := hn ▸ endsAt_of_tier?_eq_none rfl
  rw [exprs, bind_of_ok (h.full fuel (by omega) hq hends), bind_of_ok (eat_of_next hn)]
  simp only [if_true]
  rw [bind_of_ok (hmore fuel (by omega) hs' hend hcomma)]
  rfl

theorem ReadsAsExprs.echo (hw : IsWord "echo" w) (h : ReadsAsExprs es ts) :
    ReadsAsStmt (.echo es) (w :: (ts ++ [.symbol .semicolon])) := by
  refine readsAsStmt_of_word hw (by decide) fun fuel s r hf hword hs => ?_
  simp only [List.length_append, List.length_cons, List.length_nil] at hf
  obtain ⟨q, hq, hn, rfl⟩ := TokenStream.shows_append.mp hs
  have hends : EndsAt .orWord q.next? := hn ▸ endsAt_of_tier?_eq_none rfl
  refine ⟨.echo es, ?_, rfl⟩
  rw [statement, bind_of_ok (line_run s), eatWord_then hword,
    bind_of_ok (h fuel (by omega) hq hends (by simp [hn])), bind_of_ok (terminator_of_next hn)]
  rfl

theorem ReadsAs.expr_stmt (hstart : ∀ name, ts.head? ≠ some (.name name))
    (h : ReadsAs .orWord e ts) :
    ReadsAsStmt (.expr e) (ts ++ [.symbol .semicolon]) where
  begins := by
    obtain ⟨tok, more, rfl, ho⟩ := h.opens
    refine ⟨tok, _, rfl, ?_, ?_, ?_, ?_⟩
    · rintro rfl
      cases ho
    · rintro rfl
      cases ho
    · rintro text rfl
      cases ho
    · rintro word - ⟨name, rfl, -⟩
      exact hstart name rfl
  full fuel s r hf hs := by
    rw [List.length_append, List.length_singleton] at hf
    obtain ⟨fuel, rfl⟩ : ∃ n, fuel = n + 1 := ⟨fuel - 1, by omega⟩
    obtain ⟨q, hq, hn, rfl⟩ := TokenStream.shows_append.mp hs
    have hends : EndsAt .orWord q.next? := hn ▸ endsAt_of_tier?_eq_none rfl
    have hword : s.word? = none := by
      obtain ⟨tok, more, rfl, -⟩ := h.opens
      cases hw : s.word? with
      | none => rfl
      | some word =>
        obtain ⟨name, hname, -⟩ := next?_of_word? hw
        rw [hq.1] at hname
        exact absurd hname (hstart name)
    have hunset : startsUnset s = .ok (false, s) := by simp [startsUnset, hword]
    refine ⟨.expr e, ?_, rfl⟩
    rw [statement, bind_of_ok (line_run s)]
    simp (disch := simp [hword]) only [eatWord_else]
    rw [bind_of_ok hunset]
    simp only [Bool.false_eq_true, if_false]
    rw [bind_of_ok (word?_run s)]
    simp only [hword, Option.filter_none]
    rw [bind_of_ok (h.full fuel (by omega) hq hends), bind_of_ok (terminator_of_next hn)]
    rfl

theorem readsAs_break (hw : IsWord "break" w) (line : Nat) :
    ReadsAsStmt (.break line) [w, .symbol .semicolon] := by
  refine readsAsStmt_of_word hw (by decide) fun fuel s r hf hword hs => ?_
  obtain ⟨hn, rfl⟩ := hs
  refine ⟨.break s.line, ?_, rfl⟩
  rw [statement, bind_of_ok (line_run s)]
  simp (disch := simp [hword]) only [eatWord_else]
  rw [eatWord_then hword, bind_of_ok (terminator_of_next hn)]
  rfl

theorem readsAs_continue (hw : IsWord "continue" w) (line : Nat) :
    ReadsAsStmt (.continue line) [w, .symbol .semicolon] := by
  refine readsAsStmt_of_word hw (by decide) fun fuel s r hf hword hs => ?_
  obtain ⟨hn, rfl⟩ := hs
  refine ⟨.continue s.line, ?_, rfl⟩
  rw [statement, bind_of_ok (line_run s)]
  simp (disch := simp [hword]) only [eatWord_else]
  rw [eatWord_then hword, bind_of_ok (terminator_of_next hn)]
  rfl

theorem ReadsAs.include (hw : IsWord "include" w) (h : ReadsAs .orWord target ts) (line : Nat) :
    ReadsAsStmt (.include target line) (w :: (ts ++ [.symbol .semicolon])) := by
  refine readsAsStmt_of_word hw (by decide) fun fuel s r hf hword hs => ?_
  rw [List.length_append, List.length_singleton] at hf
  obtain ⟨q, hq, hn, rfl⟩ := TokenStream.shows_append.mp hs
  have hends : EndsAt .orWord q.next? := hn ▸ endsAt_of_tier?_eq_none rfl
  refine ⟨.include target s.line, ?_, rfl⟩
  rw [statement, bind_of_ok (line_run s)]
  simp (disch := simp [hword]) only [eatWord_else]
  rw [eatWord_then hword, bind_of_ok (h.full fuel (by omega) hq hends),
    bind_of_ok (terminator_of_next hn)]
  rfl

theorem ReadsAsArguments.unset (hw : IsWord "unset" w)
    (hplace : ∀ e ∈ args, e.isPlace = true) (h : ReadsAsArguments args ts) :
    ReadsAsStmt (.unset args)
      (w :: .symbol .leftParen :: (ts ++ [.symbol .rightParen, .symbol .semicolon])) := by
  refine readsAsStmt_of_word hw (by decide) fun fuel s r hf hword hs => ?_
  simp only [List.length_append, List.length_cons, List.length_nil] at hf
  obtain ⟨hparen, hs'⟩ := hs
  rw [List.append_cons] at hs'
  obtain ⟨q, hq, hn, rfl⟩ := TokenStream.shows_append.mp hs'
  have hunset : startsUnset s = .ok (true, s) := by
    simp [startsUnset, hword, startsWith_iff.mpr hparen]
  have hnone : args.find? (!·.isPlace) = none := by
    rw [List.find?_eq_none]
    intro e he
    simp [hplace e he]
  refine ⟨.unset args, ?_, rfl⟩
  rw [statement, bind_of_ok (line_run s)]
  simp (disch := simp [hword]) only [eatWord_else]
  rw [bind_of_ok hunset]
  simp only [if_true]
  rw [bind_of_ok (skip_run s), bind_of_ok (skip_run s.drop), bind_of_ok (h fuel (by omega) hq)]
  simp only [hnone]
  rw [bind_of_ok (terminator_of_next hn)]
  rfl

theorem ReadsAs.condition (h : ReadsAs .orWord c ts) {fuel : Nat} (hf : 20 * ts.length ≤ fuel)
    (hs : s.Shows (conditionTokens ts) r) : condition fuel s = .ok (c, r) := by
  obtain ⟨hopen, hs'⟩ := hs
  obtain ⟨q, hq, hclose, hcolon, rfl⟩ := TokenStream.shows_append.mp hs'
  have hends : EndsAt .orWord q.next? := hclose ▸ endsAt_of_tier?_eq_none rfl
  rw [Parser.condition, bind_of_ok (expect_of_next hopen),
    bind_of_ok (h.full fuel (by omega) hq hends), bind_of_ok (expect_of_next hclose),
    bind_of_ok (expect_of_next hcolon)]
  rfl

theorem length_conditionTokens (ts : List Token) : (conditionTokens ts).length = ts.length + 3 := by
  simp [conditionTokens]

theorem ReadsAsBlock.loop (hw : IsWord "while" w) (hc : ReadsAs .orWord c ts)
    (h : ReadsAsBlock body us) (hend : IsWord "endwhile" end?) :
    ReadsAsStmt (.loop c body)
      (w :: (conditionTokens ts ++ (us ++ [end?, .symbol .semicolon]))) := by
  refine readsAsStmt_of_word hw (by decide) fun fuel s r hf hword hs => ?_
  simp only [List.length_append, List.length_cons, List.length_nil, length_conditionTokens] at hf
  obtain ⟨p, hp, hs'⟩ := TokenStream.shows_append.mp hs
  obtain ⟨q, hq, hn, hsemi, rfl⟩ := TokenStream.shows_append.mp hs'
  have hendword := word?_of_next hn hend
  obtain ⟨body', hbody, he⟩ := h fuel ["endwhile"] (by omega) (by decide) hq
    (.inr ⟨_, by simp, hendword⟩)
  refine ⟨.loop c body', ?_, by rw [Stmt.unlined, Stmt.unlined, he]⟩
  rw [statement, bind_of_ok (line_run s)]
  simp (disch := simp [hword]) only [eatWord_else]
  rw [eatWord_then hword, bind_of_ok (hc.condition (by omega) hp), bind_of_ok hbody,
    bind_of_ok (expectWord_of_next hendword), bind_of_ok (terminator_of_next hsemi)]
  rfl

theorem behindLoopVariables_of_shows {fuel : Nat} (h : ReadsAsBlock body us)
    (hend : IsWord "endforeach" end?) (hf : 20 * (us.length + 1) ≤ fuel)
    (hs : s.Shows (.symbol .rightParen :: .symbol .colon :: (us ++ [end?, .symbol .semicolon])) r) :
    ∃ body', unlinedAll body' = unlinedAll body ∧
      ∀ finish, behindLoopVariables fuel finish s = finish body' r := by
  obtain ⟨hclose, hcolon, hs'⟩ := hs
  obtain ⟨q, hq, hn, hsemi, rfl⟩ := TokenStream.shows_append.mp hs'
  have hendword := word?_of_next hn hend
  obtain ⟨body', hbody, he⟩ := h fuel ["endforeach"] (by omega) (by decide) hq
    (.inr ⟨_, by simp, hendword⟩)
  refine ⟨body', he, fun finish => ?_⟩
  rw [behindLoopVariables, bind_of_ok (expect_of_next hclose), bind_of_ok (expect_of_next hcolon),
    bind_of_ok hbody, bind_of_ok (expectWord_of_next hendword),
    bind_of_ok (terminator_of_next hsemi)]

theorem foreachAt_of_shows {as? : Token} {key : Option String} {value : String} (line fuel : Nat)
    (hsubject : ReadsAs .orWord subject ts) (has : IsWord "as" as?) (h : ReadsAsBlock body us)
    (hend : IsWord "endforeach" end?) (hf : 20 * (ts.length + us.length + 1) ≤ fuel)
    (hs : s.Shows (.symbol .leftParen :: (ts ++ as? :: (loopVariableTokens key value ++
      .symbol .rightParen :: .symbol .colon :: (us ++ [end?, .symbol .semicolon])))) r) :
    ∃ body', foreachAt (fuel + 1) line s = .ok (.foreach subject key value body' line, r) ∧
      unlinedAll body' = unlinedAll body := by
  obtain ⟨hopen, hs₁⟩ := hs
  obtain ⟨p, hp, hasnext, hs₂⟩ := TokenStream.shows_append.mp hs₁
  obtain ⟨v, hv, hs₃⟩ := TokenStream.shows_append.mp hs₂
  have hsteps : 20 * (us.length + 1) ≤ fuel := by omega
  obtain ⟨body', he, hrest⟩ := behindLoopVariables_of_shows h hend hsteps hs₃
  have hends : EndsAt .orWord p.next? := by
    obtain ⟨name, rfl, hname⟩ := has
    refine hasnext ▸ endsAt_of_tier?_eq_none ?_
    simp [Token.tier?, hname]
  refine ⟨body', ?_, he⟩
  rw [foreachAt, bind_of_ok (expect_of_next hopen),
    bind_of_ok (hsubject.full fuel (by omega) hp hends),
    bind_of_ok (expectWord_of_next (word?_of_next hasnext has))]
  cases key with
  | none =>
    obtain ⟨hvalue, rfl⟩ := hv
    rw [bind_of_ok (loopVariable_of_next hvalue), bind_of_ok (eat_of_other (by simp [hs₃.1]))]
    simp only [Bool.false_eq_true, if_false]
    rw [bind_of_ok (pure_run _ _)]
    exact hrest fun body => pure (.foreach subject none value body line)
  | some key =>
    obtain ⟨hkey, harrow, hvalue, rfl⟩ := hv
    rw [bind_of_ok (loopVariable_of_next hkey), bind_of_ok (eat_of_next harrow)]
    simp only [if_true]
    rw [bind_of_ok (map_of_ok (loopVariable_of_next hvalue))]
    exact hrest fun body => pure (.foreach subject (some key) value body line)

theorem ReadsAsBlock.foreach {as? : Token} {key : Option String} {value : String} {line : Nat}
    (hw : IsWord "foreach" w) (hsubject : ReadsAs .orWord subject ts) (has : IsWord "as" as?)
    (h : ReadsAsBlock body us) (hend : IsWord "endforeach" end?) :
    ReadsAsStmt (.foreach subject key value body line)
      (w :: .symbol .leftParen :: (ts ++ as? :: (loopVariableTokens key value ++
        .symbol .rightParen :: .symbol .colon :: (us ++ [end?, .symbol .semicolon])))) := by
  refine readsAsStmt_of_word hw (by decide) fun fuel s r hf hword hs => ?_
  simp only [List.length_append, List.length_cons] at hf
  obtain ⟨fuel, rfl⟩ : ∃ n, fuel = n + 1 := ⟨fuel - 1, by omega⟩
  obtain ⟨body', hbody, he⟩ :=
    foreachAt_of_shows s.line fuel hsubject has h hend (by omega) hs
  refine ⟨.foreach subject key value body' s.line, ?_, by rw [Stmt.unlined, Stmt.unlined, he]⟩
  rw [statement, bind_of_ok (line_run s)]
  simp (disch := simp [hword]) only [eatWord_else]
  rw [eatWord_then hword, hbody]

theorem ReadsAsBranches.blockEnds (h : ReadsAsBranches rest vs) (hs : s.Shows vs r) :
    BlockEnds ["elseif", "else", "endif"] s := by
  obtain ⟨tok, more, word, rfl, hword, hmem⟩ := h.begins
  exact .inr ⟨word, hmem, word?_of_next hs.1 hword⟩

theorem ReadsAsBranches.cond (hw : IsWord "if" w) (hc : ReadsAs .orWord c ts)
    (hbody : ReadsAsBlock body us) (h : ReadsAsBranches rest vs) :
    ReadsAsStmt (.cond c body rest) (w :: (conditionTokens ts ++ (us ++ vs))) := by
  refine readsAsStmt_of_word hw (by decide) fun fuel s r hf hword hs => ?_
  simp only [List.length_append, length_conditionTokens] at hf
  obtain ⟨p, hp, hs'⟩ := TokenStream.shows_append.mp hs
  obtain ⟨q, hq, hs''⟩ := TokenStream.shows_append.mp hs'
  obtain ⟨body', hb, he⟩ := hbody fuel _ (by omega) (by decide) hq (h.blockEnds hs'')
  obtain ⟨rest', hr, he'⟩ := h.full fuel (by omega) hs''
  refine ⟨.cond c body' rest', ?_, by rw [Stmt.unlined, Stmt.unlined, he, he']⟩
  rw [statement, bind_of_ok (line_run s)]
  simp (disch := simp [hword]) only [eatWord_else]
  rw [eatWord_then hword, bind_of_ok (hc.condition (by omega) hp), bind_of_ok hb, bind_of_ok hr]
  rfl

theorem readsAsBranches_none (hend : IsWord "endif" end?) :
    ReadsAsBranches .none [end?, .symbol .semicolon] where
  begins := ⟨end?, _, "endif", rfl, hend, by simp⟩
  full fuel s r hf hs := by
    obtain ⟨hn, hsemi, rfl⟩ := hs
    have hword := word?_of_next hn hend
    obtain ⟨fuel, rfl⟩ : ∃ n, fuel = n + 1 := ⟨fuel - 1, by simp at hf; omega⟩
    refine ⟨.none, ?_, rfl⟩
    rw [alternatives]
    simp (disch := simp [hword]) only [eatWord_else]
    rw [bind_of_ok (expectWord_of_next hword), bind_of_ok (terminator_of_next hsemi)]
    rfl

theorem ReadsAsBlock.otherwise (hw : IsWord "else" w) (h : ReadsAsBlock body ts)
    (hend : IsWord "endif" end?) :
    ReadsAsBranches (.otherwise body)
      (w :: .symbol .colon :: (ts ++ [end?, .symbol .semicolon])) where
  begins := ⟨w, _, "else", rfl, hw, by simp⟩
  full fuel s r hf hs := by
    simp only [List.length_append, List.length_cons] at hf
    obtain ⟨hn, hcolon, hs'⟩ := hs
    obtain ⟨q, hq, hn', hsemi, rfl⟩ := TokenStream.shows_append.mp hs'
    have hword := word?_of_next hn hw
    have hendword := word?_of_next hn' hend
    obtain ⟨fuel, rfl⟩ : ∃ n, fuel = n + 1 := ⟨fuel - 1, by omega⟩
    obtain ⟨body', hb, he⟩ := h fuel ["endif"] (by omega) (by decide) hq
      (.inr ⟨_, by simp, hendword⟩)
    refine ⟨.otherwise body', ?_, by rw [Alternatives.unlined, Alternatives.unlined, he]⟩
    rw [alternatives]
    simp (disch := simp [hword]) only [eatWord_else]
    rw [eatWord_then hword, bind_of_ok (expect_of_next hcolon), bind_of_ok hb,
      bind_of_ok (expectWord_of_next hendword), bind_of_ok (terminator_of_next hsemi)]
    rfl

theorem ReadsAsBranches.elseIf (hw : IsWord "elseif" w) (hc : ReadsAs .orWord c ts)
    (hbody : ReadsAsBlock body us) (h : ReadsAsBranches rest vs) :
    ReadsAsBranches (.elseIf c body rest) (w :: (conditionTokens ts ++ (us ++ vs))) where
  begins := ⟨w, _, "elseif", rfl, hw, by simp⟩
  full fuel s r hf hs := by
    simp only [List.length_append, List.length_cons, length_conditionTokens] at hf
    obtain ⟨hn, hs₁⟩ := hs
    obtain ⟨p, hp, hs₂⟩ := TokenStream.shows_append.mp hs₁
    obtain ⟨q, hq, hs₃⟩ := TokenStream.shows_append.mp hs₂
    obtain ⟨fuel, rfl⟩ : ∃ n, fuel = n + 1 := ⟨fuel - 1, by omega⟩
    obtain ⟨body', hb, he⟩ := hbody fuel _ (by omega) (by decide) hq (h.blockEnds hs₃)
    obtain ⟨rest', hr, he'⟩ := h.full fuel (by omega) hs₃
    refine ⟨.elseIf c body' rest', ?_, by rw [Alternatives.unlined, Alternatives.unlined, he, he']⟩
    rw [alternatives, eatWord_then (word?_of_next hn hw), bind_of_ok (hc.condition (by omega) hp),
      bind_of_ok hb, bind_of_ok hr]
    rfl

end Parser

open ViewTemplate.Code.Parser

theorem ExprPhrases.readsAs {es : List Expr} {ts : List Token} (h : ExprPhrases es ts) :
    ReadsAsExprs es ts := by
  induction h with
  | last h => exact h.readsAs.last_expr
  | cons h _ ih => exact h.readsAs.cons_expr ih

mutual

/-- The readers take every sentence as its statement, up to lines. -/
theorem Sentence.readsAs {stmt : Stmt} {ts : List Token} : Sentence stmt ts → ReadsAsStmt stmt ts
  | .echo hw h => h.readsAs.echo hw
  | .expr hstart h => h.readsAs.expr_stmt hstart
  | .unset hw hplace h => h.readsAs.unset hw hplace
  | .cond hw hc hbody hrest => hrest.readsAs.cond hw hc.readsAs hbody.readsAs
  | .loop hw hc hbody hend => hbody.readsAs.loop hw hc.readsAs hend
  | .foreach hw hsubject has hbody hend => hbody.readsAs.foreach hw hsubject.readsAs has hend
  | .break hw => readsAs_break hw _
  | .continue hw => readsAs_continue hw _
  | .include hw h => h.readsAs.include hw _

theorem Branches.readsAs {rest : Alternatives} {ts : List Token} :
    Branches rest ts → ReadsAsBranches rest ts
  | .none hend => readsAsBranches_none hend
  | .otherwise hw hbody hend => hbody.readsAs.otherwise hw hend
  | .elseIf hw hc hbody hrest => hrest.readsAs.elseIf hw hc.readsAs hbody.readsAs

theorem Passage.readsAs {body : List Stmt} {ts : List Token} :
    Passage body ts → ReadsAsBlock body ts
  | .nil => readsAsBlock_nil
  | .closeTag h => h.readsAs.closeTag
  | .text h => h.readsAs.text
  | .cons hs h => hs.readsAs.cons h.readsAs

end

/-- The program that a passage stands for is what the code with its tokens is read as. -/
theorem Passage.program {body : List Stmt} {s : TokenStream}
    (h : Passage body (s.tokens.map (·.token))) :
    ∃ q, s.program = .ok q ∧ unlinedAll q.body = unlinedAll body := by
  have hs := TokenStream.shows_map_token s.tokens [] s.endLine
  rw [List.append_nil] at hs
  obtain ⟨body', hb, he⟩ := h.readsAs (parseSteps s.tokens.length) []
    (by rw [List.length_map, parseSteps]; omega) (List.nil_subset _) hs (.inl ⟨rfl, rfl⟩)
  refine ⟨⟨body'⟩, ?_, he⟩
  rw [TokenStream.program, StateT.run, hb]
  rfl

end ViewTemplate.Code
