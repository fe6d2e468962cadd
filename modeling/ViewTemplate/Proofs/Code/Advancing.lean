import ViewTemplate.Proofs.Code.Reading

namespace ViewTemplate.Code

def TokenStream.after (s : TokenStream) (n : Nat) : TokenStream :=
  { s with tokens := s.tokens.drop n }

namespace TokenStream

variable {s : TokenStream} {tok : Token} {m n : Nat}

@[simp] theorem after_zero (s : TokenStream) : s.after 0 = s := rfl

@[simp] theorem after_after (s : TokenStream) (m n : Nat) :
    (s.after m).after n = s.after (m + n) := by
  simp only [after, List.drop_drop]

theorem length_after (s : TokenStream) (n : Nat) :
    (s.after n).tokens.length = s.tokens.length - n := List.length_drop

theorem one_le_of_next? (h : s.next? = some tok) : 1 ≤ s.tokens.length := by
  obtain ⟨tokens, endLine⟩ := s
  cases tokens with
  | nil => cases h
  | cons l ls => exact Nat.succ_le_succ (Nat.zero_le _)

end TokenStream

namespace Parser

variable {α β : Type}

/-- From `s` a reader goes on. It answers at least `least` tokens further on, and fails at a token
that is not behind; the one that it calls unexpected is the one it stands at. -/
structure GoesOn (least : Nat) (p : Parser α) (s : TokenStream) : Prop where
  answers : ∀ {a r}, p s = .ok (a, r) → ∃ n, least ≤ n ∧ n ≤ s.tokens.length ∧ r = s.after n
  fails : ∀ {e}, p s = .error e → ∃ n ≤ s.tokens.length, e.line = (s.after n).line ∧
    ∀ found, e.fault = .unexpected found → (s.after n).next? = found

namespace GoesOn

variable {least more : Nat} {p : Parser α} {s : TokenStream}

theorem pure (a : α) (s : TokenStream) : GoesOn 0 (pure a) s where
  answers := by
    rintro _ _ ⟨⟩
    exact ⟨0, Nat.le_refl 0, Nat.zero_le _, rfl⟩
  fails := by rintro _ ⟨⟩

theorem fail {fault : SyntaxFault} (h : ∀ found, fault ≠ .unexpected found) :
    GoesOn least (fail fault : Parser α) s where
  answers := by rintro _ _ ⟨⟩
  fails := by
    rintro _ ⟨⟩
    exact ⟨0, Nat.zero_le _, rfl, fun found hfound => absurd hfound (h found)⟩

theorem refuse_unexpected : GoesOn least (refuse .unexpected : Parser α) s where
  answers := by rintro _ _ ⟨⟩
  fails := by
    rintro _ ⟨⟩
    refine ⟨0, Nat.zero_le _, rfl, ?_⟩
    rintro _ ⟨⟩
    rfl

theorem bind {f : α → Parser β} (h : GoesOn least p s)
    (hf : ∀ {a r}, p s = .ok (a, r) → GoesOn more (f a) r) :
    GoesOn (least + more) (p >>= f) s where
  answers := by
    intro b t hrun
    obtain ⟨⟨a, r⟩, hp, hb⟩ := exists_of_bind_eq_ok (x := p s) hrun
    obtain ⟨m, hleast, hm, rfl⟩ := h.answers hp
    have hlength := s.length_after m
    obtain ⟨n, hmore, hn, rfl⟩ := (hf hp).answers hb
    exact ⟨m + n, Nat.add_le_add hleast hmore, by omega, s.after_after m n⟩
  fails := by
    intro e hrun
    cases hp : p s with
    | error e' =>
      have he : (p >>= f) s = .error e' := by
        simp only [Bind.bind, StateT.bind, hp]
        rfl
      cases he.symm.trans hrun
      exact h.fails hp
    | ok q =>
      obtain ⟨a, r⟩ := q
      obtain ⟨m, hleast, hm, rfl⟩ := h.answers hp
      have hlength := s.length_after m
      obtain ⟨n, hn, hline, hfound⟩ := (hf hp).fails ((bind_of_ok hp).symm.trans hrun)
      rw [TokenStream.after_after] at hline hfound
      exact ⟨m + n, by omega, hline, hfound⟩

theorem weaken (h : GoesOn more p s) (hle : least ≤ more) : GoesOn least p s where
  answers hrun := by
    obtain ⟨n, hn, hlength, hr⟩ := h.answers hrun
    exact ⟨n, Nat.le_trans hle hn, hlength, hr⟩
  fails := h.fails

theorem any (h : GoesOn least p s) : GoesOn 0 p s := h.weaken (Nat.zero_le least)

theorem first {f : α → Parser β} (h : GoesOn least p s)
    (hf : ∀ {a r}, p s = .ok (a, r) → GoesOn 0 (f a) r) : GoesOn least (p >>= f) s := h.bind hf

theorem behind {f : α → Parser β} (h : GoesOn more p s)
    (hf : ∀ {a r}, p s = .ok (a, r) → GoesOn least (f a) r) : GoesOn least (p >>= f) s :=
  (h.bind hf).weaken (Nat.le_add_left least more)

theorem token {f : α → Parser β} (h : GoesOn 1 p s)
    (hf : ∀ {a r}, p s = .ok (a, r) → GoesOn (least - 1) (f a) r) : GoesOn least (p >>= f) s := by
  apply (h.bind hf).weaken
  omega

theorem ite {c : Prop} [Decidable c] {q : Parser α} (hp : c → GoesOn least p s)
    (hq : ¬c → GoesOn least q s) : GoesOn least (if c then p else q) s := by
  split
  · exact hp ‹_›
  · exact hq ‹_›

theorem look {look : Parser β} {f : β → Parser α} {b : β} (hlook : look s = .ok (b, s))
    (h : GoesOn least (f b) s) : GoesOn least (look >>= f) s where
  answers hrun := h.answers ((bind_of_ok hlook).symm.trans hrun)
  fails hrun := h.fails ((bind_of_ok hlook).symm.trans hrun)

theorem of_drop {tok : Token} {a : α} (hnext : s.next? = some tok) (h : p s = .ok (a, s.drop)) :
    GoesOn 1 p s where
  answers := by
    intro _ _ hrun
    cases h.symm.trans hrun
    exact ⟨1, Nat.le_refl 1, TokenStream.one_le_of_next? hnext, rfl⟩
  fails := by
    intro _ hrun
    cases h.symm.trans hrun

theorem of_stay {a : α} (h : p s = .ok (a, s)) : GoesOn 0 p s where
  answers := by
    intro _ _ hrun
    cases h.symm.trans hrun
    exact ⟨0, Nat.le_refl 0, Nat.zero_le _, rfl⟩
  fails := by
    intro _ hrun
    cases h.symm.trans hrun

theorem skip {tok : Token} (h : s.next? = some tok) : GoesOn 1 skip s := of_drop h rfl

theorem skip_any (s : TokenStream) : GoesOn 0 Parser.skip s := by
  cases hnext : s.next? with
  | some tok => exact (skip hnext).any
  | none =>
    have hnil : s.tokens = [] := List.head?_eq_none_iff.1 (Option.map_eq_none_iff.1 hnext)
    have hdrop : s.drop = s := by
      obtain ⟨tokens, endLine⟩ := s
      obtain rfl : tokens = [] := hnil
      rfl
    apply of_stay (a := ())
    rw [Parser.skip, hdrop]

theorem one {Q : Token → α → Prop} (h : TakesOne Q p) (s : TokenStream) : GoesOn 1 p s := by
  obtain ⟨tok, a, hnext, -, hp⟩ | ⟨e, hp, hline, -, hfound⟩ := h s
  · exact of_drop hnext hp
  refine ⟨fun hrun => ?_, fun hrun => ?_⟩
  · cases hp.symm.trans hrun
  cases hp.symm.trans hrun
  have hnone : ∀ n found, e.fault = .unexpected found → (s.after n).next? = found :=
    fun _ found h => absurd h (hfound found)
  obtain hline | hline := hline
  · exact ⟨0, Nat.zero_le _, hline, hnone _⟩
  · -- Behind the last token there is nowhere to go.
    cases htokens : s.tokens with
    | nil =>
      refine ⟨0, Nat.zero_le _, ?_, hnone _⟩
      rw [hline, TokenStream.drop, htokens, TokenStream.after_zero, TokenStream.line,
        TokenStream.line, htokens]
      rfl
    | cons l ls => exact ⟨1, by simp, hline, hnone _⟩

theorem expect (symbol : Symbol) (s : TokenStream) : GoesOn 1 (expect symbol) s :=
  one (takesOne_expect symbol) s

theorem expectWord (word : String) (s : TokenStream) : GoesOn 1 (expectWord word) s :=
  one (takesOne_expectWord word) s

theorem loopVariable (s : TokenStream) : GoesOn 1 loopVariable s := one takesOne_loopVariable s

theorem propertyName (s : TokenStream) : GoesOn 1 propertyName s := one takesOne_propertyName s

theorem terminator (s : TokenStream) : GoesOn 0 terminator s := by
  obtain ⟨hnext, hrun⟩ | hrun | ⟨found, hrun⟩ := terminator_cases s
  · exact (of_drop hnext hrun).any
  · exact of_stay hrun
  · refine ⟨fun h => ?_, fun h => ?_⟩ <;> cases hrun.symm.trans h
    exact ⟨0, Nat.zero_le _, rfl, nofun⟩

theorem taken {Q : Token → Prop} {q : Parser Bool} (hq : TakesIf Q q) (s : TokenStream) :
    GoesOn 0 q s := by
  obtain ⟨tok, hnext, -, hrun⟩ | hrun := hq s
  · exact (of_drop hnext hrun).any
  · exact of_stay hrun

/-- A reader that goes one way behind a token and another where that does not come next. -/
theorem orElse {Q : Token → Prop} {q : Parser Bool} {found goes : Parser α} (hq : TakesIf Q q)
    (hfound : ∀ r, GoesOn (least - 1) found r) (hgoes : GoesOn least goes s) :
    GoesOn least (q >>= fun b => if b = true then found else goes) s := by
  obtain ⟨tok, hnext, -, hrun⟩ | hrun := hq s
  · apply (of_drop hnext hrun).token
    intro b r h
    cases hrun.symm.trans h
    exact hfound s.drop
  · exact look hrun hgoes

theorem eat {symbol : Symbol} {found goes : Parser α} (hfound : ∀ r, GoesOn (least - 1) found r)
    (hgoes : GoesOn least goes s) :
    GoesOn least (eat symbol >>= fun b => if b = true then found else goes) s :=
  orElse (takesIf_eat symbol) hfound hgoes

theorem eatWord {word : String} {found goes : Parser α} (hfound : ∀ r, GoesOn (least - 1) found r)
    (hgoes : GoesOn least goes s) :
    GoesOn least (eatWord word >>= fun b => if b = true then found else goes) s :=
  orElse (takesIf_eatWord word) hfound hgoes

end GoesOn

/-- The steps that readers are made of go on: they take the next token or leave it. -/
structure StepsGoOn : Prop where
  skip (s : TokenStream) : GoesOn 0 skip s
  eat (symbol : Symbol) (s : TokenStream) : GoesOn 0 (eat symbol) s
  eatWord (word : String) (s : TokenStream) : GoesOn 0 (eatWord word) s
  expect (symbol : Symbol) (s : TokenStream) : GoesOn 1 (expect symbol) s
  expectWord (word : String) (s : TokenStream) : GoesOn 1 (expectWord word) s
  terminator (s : TokenStream) : GoesOn 0 terminator s
  loopVariable (s : TokenStream) : GoesOn 1 loopVariable s
  propertyName (s : TokenStream) : GoesOn 1 propertyName s

theorem stepsGoOn : StepsGoOn where
  skip := .skip_any
  eat symbol := .taken (takesIf_eat symbol)
  eatWord word := .taken (takesIf_eatWord word)
  expect := .expect
  expectWord := .expectWord
  terminator := .terminator
  loopVariable := .loopVariable
  propertyName := .propertyName

section Expressions

/-- The readers of expressions with so many steps go on, and those of whole expressions by a token
at least. -/
structure ExprsGoOn (fuel : Nat) : Prop where
  exprAt (tier : Tier) (s : TokenStream) : GoesOn 1 (exprAt fuel tier) s
  operands (tier : Tier) (left : Expr) (s : TokenStream) : GoesOn 0 (operands fuel tier left) s
  accesses (base : Expr) (s : TokenStream) : GoesOn 0 (accesses fuel base) s
  primary (s : TokenStream) : GoesOn 1 (primary fuel) s
  items (close : Symbol) (s : TokenStream) : GoesOn 1 (items fuel close) s
  arguments (s : TokenStream) : GoesOn 1 (arguments fuel) s

namespace ExprsGoOn

variable {fuel : Nat} (h : ExprsGoOn fuel)
include h

theorem assignment_succ (s : TokenStream) : GoesOn 1 (Parser.exprAt (fuel + 1) .assignment) s := by
  rw [Parser.exprAt]
  apply (h.exprAt .ternary s).first
  intro target r _
  refine .look rfl (.ite (fun _ => ?_) fun _ => .pure target r)
  split
  · apply (GoesOn.skip_any r).behind
    intro _ t _
    exact (h.exprAt .assignment t).behind fun _ => .pure _ _
  · exact .fail nofun

theorem ternary_succ (s : TokenStream) : GoesOn 1 (Parser.exprAt (fuel + 1) .ternary) s := by
  rw [Parser.exprAt]
  apply (h.exprAt .coalesce s).first
  intro c r _
  apply GoesOn.eat
  · intro t
    apply GoesOn.eat
    · intro u
      exact (h.exprAt .assignment u).behind fun _ => .pure _ _
    · apply (h.exprAt .assignment t).behind
      intro p u _
      apply (GoesOn.expect .colon u).behind
      intro _ v _
      exact (h.exprAt .assignment v).behind fun _ => .pure _ _
  · exact .pure c r

theorem coalesce_succ (s : TokenStream) : GoesOn 1 (Parser.exprAt (fuel + 1) .coalesce) s := by
  rw [Parser.exprAt]
  apply (h.exprAt .or s).first
  intro l r _
  apply GoesOn.eat
  · intro t
    exact (h.exprAt .coalesce t).behind fun _ => .pure _ _
  · exact .pure l r

theorem unary_succ (s : TokenStream) : GoesOn 1 (Parser.exprAt (fuel + 1) .unary) s := by
  rw [Parser.exprAt]
  refine .look rfl ?_
  split
  · apply (GoesOn.skip_any s).behind
    intro _ r _
    exact (h.exprAt .unary r).first fun _ => .pure _ _
  · exact h.exprAt .access s

theorem exprAt_succ (tier : Tier) (s : TokenStream) :
    GoesOn 1 (Parser.exprAt (fuel + 1) tier) s := by
  have hchain (t : Tier) : GoesOn 1 (Parser.exprAt fuel t.tighter >>= Parser.operands fuel t) s :=
    (h.exprAt t.tighter s).first fun _ => h.operands t _ _
  cases tier with
  | assignment => exact h.assignment_succ s
  | ternary => exact h.ternary_succ s
  | coalesce => exact h.coalesce_succ s
  | unary => exact h.unary_succ s
  | access =>
    rw [Parser.exprAt]
    exact (h.primary s).first fun _ => h.accesses _ _
  | orWord | andWord | or | and | equality | comparison | concat | additive | multiplicative =>
    exact hchain _

theorem operands_succ (tier : Tier) (left : Expr) (s : TokenStream) :
    GoesOn 0 (Parser.operands (fuel + 1) tier left) s := by
  rw [Parser.operands]
  refine .look rfl ?_
  split
  · apply (GoesOn.skip_any s).behind
    intro _ r _
    apply (h.exprAt tier.tighter r).behind
    intro right t _
    exact h.operands tier _ t
  · exact .pure left s

theorem accesses_succ (base : Expr) (s : TokenStream) :
    GoesOn 0 (Parser.accesses (fuel + 1) base) s := by
  rw [Parser.accesses]
  apply GoesOn.eat
  · intro r
    apply GoesOn.eat
    · exact h.accesses (.append base)
    · apply (h.exprAt .orWord r).behind
      intro key t _
      exact (GoesOn.expect .rightBracket t).behind fun _ => h.accesses _ _
  · apply GoesOn.eat
    · intro r
      exact (GoesOn.propertyName r).behind fun _ => h.accesses _ _
    · exact .pure base s

theorem primary_name (name : String) {s : TokenStream} (hnext : s.next? = some (.name name)) :
    GoesOn 1 (Parser.named fuel name) s := by
  unfold Parser.named
  apply (GoesOn.skip hnext).first
  intro _ r _
  dsimp only
  split
  · exact .pure _ r
  split
  · exact .pure _ r
  split
  · exact .pure _ r
  apply GoesOn.eat
  · intro t
    split
    · exact (h.items .rightParen t).behind fun _ => .pure _ _
    · exact (h.arguments t).behind fun _ => .pure _ _
  · exact .pure _ r

theorem primary_succ (s : TokenStream) : GoesOn 1 (Parser.primary (fuel + 1)) s := by
  have hone {tok : Token} {e : Expr} (hnext : s.next? = some tok) :
      GoesOn 1 (do Parser.skip; return e) s :=
    (GoesOn.skip hnext).first fun _ => .pure _ _
  rw [Parser.primary]
  refine .look rfl ?_
  split
  · exact hone ‹_›
  · exact hone ‹_›
  · exact hone ‹_›
  · exact hone ‹_›
  · exact hone ‹_›
  · apply (GoesOn.skip_any s).behind
    intro _ r _
    apply (h.exprAt .orWord r).first
    intro e t _
    exact (GoesOn.expect .rightParen t).behind fun _ => .pure _ _
  · apply (GoesOn.skip_any s).behind
    intro _ r _
    exact (h.items .rightBracket r).first fun _ => .pure _ _
  · exact h.primary_name _ ‹_›
  · exact .refuse_unexpected

theorem behindItem (close : Symbol) (item : Item) (s : TokenStream) :
    GoesOn 0 (Parser.behindItem fuel close item) s := by
  unfold Parser.behindItem
  apply GoesOn.eat
  · intro r
    exact (h.items close r).behind fun _ => .pure _ _
  · exact (GoesOn.expect close s).behind fun _ => .pure _ _

theorem items_succ (close : Symbol) (s : TokenStream) :
    GoesOn 1 (Parser.items (fuel + 1) close) s := by
  rw [Parser.items]
  apply GoesOn.eat
  · exact fun r => .pure [] r
  apply (h.exprAt .orWord s).first
  intro first r _
  apply GoesOn.eat
  · intro t
    exact (h.exprAt .orWord t).behind fun _ => h.behindItem close _ _
  · exact h.behindItem close (.value first) r

theorem arguments_succ (s : TokenStream) : GoesOn 1 (Parser.arguments (fuel + 1)) s := by
  rw [Parser.arguments]
  apply GoesOn.eat
  · exact fun r => .pure [] r
  apply (h.exprAt .orWord s).first
  intro e r _
  apply GoesOn.eat
  · intro t
    exact (h.arguments t).behind fun _ => .pure _ _
  · exact (GoesOn.expect .rightParen r).behind fun _ => .pure _ _

end ExprsGoOn

theorem exprsGoOn (fuel : Nat) : ExprsGoOn fuel := by
  induction fuel with
  | zero => constructor <;> intros <;> exact .fail nofun
  | succ fuel h =>
    exact ⟨h.exprAt_succ, h.operands_succ, h.accesses_succ, h.primary_succ, h.items_succ,
      h.arguments_succ⟩

end Expressions

section Statements

/-- The readers of statements with so many steps go on, and all but that of a block by a token at
least. -/
structure StmtsGoOn (fuel : Nat) : Prop where
  block (words : List String) (s : TokenStream) : GoesOn 0 (block fuel words) s
  statement (s : TokenStream) : GoesOn 1 (statement fuel) s
  alternatives (s : TokenStream) : GoesOn 1 (alternatives fuel) s
  foreachAt (line : Nat) (s : TokenStream) : GoesOn 1 (foreachAt fuel line) s

variable {α : Type}

theorem exprs_goesOn (fuel : Nat) (s : TokenStream) : GoesOn 1 (exprs fuel) s := by
  induction fuel generalizing s with
  | zero => exact .fail nofun
  | succ fuel ih =>
    rw [exprs]
    apply ((exprsGoOn fuel).exprAt .orWord s).first
    intro e r _
    apply GoesOn.eat
    · intro t
      exact (ih t).behind fun _ => .pure _ _
    · exact .pure [e] r

theorem condition_goesOn (fuel : Nat) (s : TokenStream) : GoesOn 1 (condition fuel) s := by
  apply (GoesOn.expect .leftParen s).first
  intro _ r _
  apply ((exprsGoOn fuel).exprAt .orWord r).behind
  intro e t _
  apply (GoesOn.expect .rightParen t).behind
  intro _ u _
  exact (GoesOn.expect .colon u).behind fun _ => .pure _ _

theorem terminator_goesOn (a : α) (s : TokenStream) : GoesOn 0 (do terminator; return a) s :=
  (GoesOn.terminator s).behind fun _ => .pure _ _

theorem end_goesOn (word : String) (a : α) (s : TokenStream) :
    GoesOn 1 (do expectWord word; terminator; return a) s :=
  (GoesOn.expectWord word s).first fun _ => terminator_goesOn a _

namespace StmtsGoOn

variable {fuel : Nat} (h : StmtsGoOn fuel)
include h

theorem block_succ (words : List String) (s : TokenStream) :
    GoesOn 0 (Parser.block (fuel + 1) words) s := by
  rw [Parser.block]
  refine .look rfl ?_
  split
  · split
    · exact .fail nofun
    · exact .pure [] s
  · exact (GoesOn.skip_any s).behind fun _ => h.block words _
  · exact (GoesOn.skip_any s).behind fun _ => h.block words _
  · apply (GoesOn.skip_any s).behind
    intro _ r _
    exact (h.block words r).behind fun _ => .pure _ _
  · refine .look rfl ?_
    split
    · exact .pure [] s
    · apply (h.statement s).behind
      intro stmt r _
      exact (h.block words r).behind fun _ => .pure _ _

theorem conditional (words : List String) {f : Expr → List Stmt → Parser α} {s : TokenStream}
    (hf : ∀ c body r, GoesOn 0 (f c body) r) :
    GoesOn 0 (do
      let c ← Parser.condition fuel
      let body ← Parser.block fuel words
      f c body) s := by
  apply (condition_goesOn fuel s).behind
  intro c r _
  apply (h.block words r).behind
  intro body t _
  exact hf c body t

theorem statement_succ (s : TokenStream) : GoesOn 1 (Parser.statement (fuel + 1)) s := by
  have hexpr := (exprsGoOn fuel).exprAt .orWord
  rw [Parser.statement]
  refine .look rfl ?_
  apply GoesOn.eatWord
  · intro r
    exact (exprs_goesOn fuel r).behind fun _ => terminator_goesOn _ _
  apply GoesOn.eatWord
  · intro r
    apply h.conditional
    intro c body t
    exact (h.alternatives t).behind fun _ => .pure _ _
  apply GoesOn.eatWord
  · intro r
    apply h.conditional
    intro c body t
    exact (end_goesOn "endwhile" _ t).any
  apply GoesOn.eatWord
  · intro r
    exact (h.foreachAt _ r).any
  apply GoesOn.eatWord
  · exact terminator_goesOn _
  apply GoesOn.eatWord
  · exact terminator_goesOn _
  apply GoesOn.eatWord
  · intro r
    exact (hexpr r).behind fun _ => terminator_goesOn _ _
  refine .look rfl ?_
  split
  · apply (GoesOn.skip_any s).behind
    intro _ r _
    apply (GoesOn.skip_any r).behind
    intro _ t _
    apply ((exprsGoOn fuel).arguments t).first
    intro targets u _
    split
    · exact .fail nofun
    · exact terminator_goesOn _ u
  · refine .look rfl ?_
    split
    · exact .fail nofun
    · exact (hexpr s).first fun _ => terminator_goesOn _ _

theorem alternatives_succ (s : TokenStream) : GoesOn 1 (Parser.alternatives (fuel + 1)) s := by
  rw [Parser.alternatives]
  apply GoesOn.eatWord
  · intro r
    apply h.conditional
    intro c body t
    exact (h.alternatives t).behind fun _ => .pure _ _
  apply GoesOn.eatWord
  · intro r
    apply (GoesOn.expect .colon r).behind
    intro _ t _
    apply (h.block _ t).behind
    intro body u _
    exact (end_goesOn "endif" _ u).any
  · exact end_goesOn "endif" _ s

theorem behindLoopVariables {finish : List Stmt → Parser Stmt} (s : TokenStream)
    (hfinish : ∀ body r, GoesOn 0 (finish body) r) :
    GoesOn 0 (Parser.behindLoopVariables fuel finish) s := by
  apply (GoesOn.expect .rightParen s).behind
  intro _ r _
  apply (GoesOn.expect .colon r).behind
  intro _ t _
  apply (h.block _ t).behind
  intro body u _
  apply (GoesOn.expectWord "endforeach" u).behind
  intro _ v _
  exact (GoesOn.terminator v).behind fun _ => hfinish body _

theorem foreachAt_succ (line : Nat) (s : TokenStream) :
    GoesOn 1 (Parser.foreachAt (fuel + 1) line) s := by
  rw [Parser.foreachAt]
  apply (GoesOn.expect .leftParen s).first
  intro _ r _
  apply ((exprsGoOn fuel).exprAt .orWord r).behind
  intro subject t _
  apply (GoesOn.expectWord "as" t).behind
  intro _ u _
  apply (GoesOn.loopVariable u).behind
  intro first v _
  apply GoesOn.eat
  · intro w
    rw [map_eq_pure_bind, bind_assoc]
    apply (GoesOn.loopVariable w).behind
    intro second x _
    rw [pure_bind]
    apply h.behindLoopVariables x
    exact fun body y => .pure _ y
  · rw [pure_bind]
    apply h.behindLoopVariables v
    exact fun body y => .pure _ y

end StmtsGoOn

theorem stmtsGoOn (fuel : Nat) : StmtsGoOn fuel := by
  induction fuel with
  | zero => constructor <;> intros <;> exact .fail nofun
  | succ fuel h => exact ⟨h.block_succ, h.statement_succ, h.alternatives_succ, h.foreachAt_succ⟩

end Statements

end Parser

end ViewTemplate.Code
