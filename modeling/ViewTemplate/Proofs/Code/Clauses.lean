import ViewTemplate.Proofs.Code.Derivations

namespace ViewTemplate.Code

open ViewTemplate.Code.Parser (Tier)

section Grammar

def IsCondition (c : Expr) (ls : List Located) : Prop :=
  ∃ ts, tokensOf ls = conditionTokens ts ∧ Phrase .orWord c ts

/-- What stands between the keyword of a loop over a collection and its body. -/
def IsLoopHead (subject : Expr) (key : Option String) (value : String) (ls : List Located) : Prop :=
  ∃ ts as?, tokensOf ls = .symbol .leftParen :: (ts ++ as? :: (loopVariableTokens key value ++
    [.symbol .rightParen, .symbol .colon])) ∧ Phrase .orWord subject ts ∧ IsWord "as" as?

mutual

/-- `Clause stmt ls`: the tokens `ls` are the statement `stmt`, with the lines that it records. -/
inductive Clause : Stmt → List Located → Prop where
  | echo {w : Located} {es : List Expr} {ls stop : List Located} (hw : IsWord "echo" w.token)
      (h : ExprPhrases es (tokensOf ls)) (hstop : IsStop stop) :
      Clause (.echo es) (w :: (ls ++ stop))
  | expr {e : Expr} {ls stop : List Located} (h : Phrase .orWord e (tokensOf ls))
      (hstop : IsStop stop) : Clause (.expr e) (ls ++ stop)
  | unset {w open? close? : Located} {targets : List Expr} {ls stop : List Located}
      (hw : IsWord "unset" w.token) (hopen : open?.token = .symbol .leftParen)
      (hplace : ∀ e ∈ targets, e.isPlace = true) (h : ArgumentPhrases targets (tokensOf ls))
      (hclose : close?.token = .symbol .rightParen) (hstop : IsStop stop) :
      Clause (.unset targets) (w :: open? :: (ls ++ close? :: stop))
  | cond {w : Located} {c : Expr} {body : List Stmt} {rest : Alternatives}
      {head ls us : List Located} (hw : IsWord "if" w.token) (hhead : IsCondition c head)
      (hbody : Clauses body ls) (hrest : OtherClauses rest us) :
      Clause (.cond c body rest) (w :: (head ++ (ls ++ us)))
  | loop {w end? : Located} {c : Expr} {body : List Stmt} {head ls stop : List Located}
      (hw : IsWord "while" w.token) (hhead : IsCondition c head) (hbody : Clauses body ls)
      (hend : IsWord "endwhile" end?.token) (hstop : IsStop stop) :
      Clause (.loop c body) (w :: (head ++ (ls ++ end? :: stop)))
  | foreach {w end? : Located} {subject : Expr} {key : Option String} {value : String}
      {body : List Stmt} {head ls stop : List Located} (hw : IsWord "foreach" w.token)
      (hhead : IsLoopHead subject key value head) (hbody : Clauses body ls)
      (hend : IsWord "endforeach" end?.token) (hstop : IsStop stop) :
      Clause (.foreach subject key value body w.line) (w :: (head ++ (ls ++ end? :: stop)))
  | break {w : Located} {stop : List Located} (hw : IsWord "break" w.token) (hstop : IsStop stop) :
      Clause (.break w.line) (w :: stop)
  | continue {w : Located} {stop : List Located} (hw : IsWord "continue" w.token)
      (hstop : IsStop stop) : Clause (.continue w.line) (w :: stop)
  | include {w : Located} {target : Expr} {ls stop : List Located} (hw : IsWord "include" w.token)
      (h : Phrase .orWord target (tokensOf ls)) (hstop : IsStop stop) :
      Clause (.include target w.line) (w :: (ls ++ stop))

inductive OtherClauses : Alternatives → List Located → Prop where
  | none {end? : Located} {stop : List Located} (hend : IsWord "endif" end?.token)
      (hstop : IsStop stop) : OtherClauses .none (end? :: stop)
  | otherwise {w colon end? : Located} {body : List Stmt} {ls stop : List Located}
      (hw : IsWord "else" w.token) (hcolon : colon.token = .symbol .colon) (hbody : Clauses body ls)
      (hend : IsWord "endif" end?.token) (hstop : IsStop stop) :
      OtherClauses (.otherwise body) (w :: colon :: (ls ++ end? :: stop))
  | elseIf {w : Located} {c : Expr} {body : List Stmt} {rest : Alternatives}
      {head ls us : List Located} (hw : IsWord "elseif" w.token) (hhead : IsCondition c head)
      (hbody : Clauses body ls) (hrest : OtherClauses rest us) :
      OtherClauses (.elseIf c body rest) (w :: (head ++ (ls ++ us)))

/-- The statements of a block. Close tags and semicolons may stand between them. -/
inductive Clauses : List Stmt → List Located → Prop where
  | nil : Clauses [] []
  | closeTag {line : Nat} {body : List Stmt} {ls : List Located} (h : Clauses body ls) :
      Clauses body (⟨.closeTag, line⟩ :: ls)
  | semicolon {line : Nat} {body : List Stmt} {ls : List Located} (h : Clauses body ls) :
      Clauses body (⟨.symbol .semicolon, line⟩ :: ls)
  | text {s : String} {line : Nat} {body : List Stmt} {ls : List Located} (h : Clauses body ls) :
      Clauses (.text s :: body) (⟨.text s, line⟩ :: ls)
  | cons {stmt : Stmt} {body : List Stmt} {ls us : List Located} (hs : Clause stmt ls)
      (h : Clauses body us) : Clauses (stmt :: body) (ls ++ us)

end

end Grammar

namespace Parser

variable {α β : Type} {p : Parser α} {post : α → List Located → Prop}

section Expressions

theorem phrase_of_isPlace {t : Tier} {e : Expr} {ts : List Token} (h : Phrase t e ts)
    (hplace : e.isPlace = true) : Phrase .access e ts := by
  -- A place read on a loose level stands below as many `looser` as there are levels between.
  obtain ⟨n, hn⟩ : ∃ n, 13 - t.rank = n := ⟨_, rfl⟩
  induction n generalizing t with
  | zero =>
    have hrank := t.rank_le
    obtain rfl : t = .access := by
      cases t <;> first | rfl | (simp only [Tier.rank] at hn; omega)
    exact h
  | succ n ih =>
    cases h with
    | looser ht h => exact ih h (by rw [Tier.rank_tighter ht]; omega)
    | index hb hk => exact .index hb hk
    | append hb => exact .append hb
    | property hb => exact .property hb
    | var name => exact .var name
    | parens h => exact .parens h
    | _ => cases hplace

/-- What the readers of expressions with so many steps answer are phrases of the tokens they
take. -/
structure ReadPhrases (fuel : Nat) : Prop where
  exprAt (tier : Tier) : Reads (exprAt fuel tier) fun e ls => Phrase tier e (tokensOf ls)
  operands (tier : Tier) {left : Expr} {ts : List Token} : Phrase tier left ts →
    Reads (operands fuel tier left) fun e ls => Phrase tier e (ts ++ tokensOf ls)
  accesses {base : Expr} {ts : List Token} : Phrase .access base ts →
    Reads (accesses fuel base) fun e ls => Phrase .access e (ts ++ tokensOf ls)
  primary : Reads (primary fuel) fun e ls => Phrase .access e (tokensOf ls)
  items (close : Symbol) : Reads (items fuel close) fun items ls =>
    ∃ ts, tokensOf ls = ts ++ [.symbol close] ∧ ItemPhrases items ts
  arguments : Reads (arguments fuel) fun args ls =>
    ∃ ts, tokensOf ls = ts ++ [.symbol .rightParen] ∧ ArgumentPhrases args ts

namespace ReadPhrases

variable {fuel : Nat} (h : ReadPhrases fuel)
include h

theorem assignment_succ : Reads (Parser.exprAt (fuel + 1) .assignment) fun e ls =>
    Phrase .assignment e (tokensOf ls) := by
  rw [Parser.exprAt]
  apply (h.exprAt .ternary).bind
  intro target ls htarget
  apply Derives.next?
  intro next
  refine .ite (fun hnext => ?_) fun _ => .pure ?_
  · obtain rfl : next = some (.symbol .assign) := by
      split at hnext
      · rfl
      · cases hnext
    -- The target was read as a ternary. The grammar has a place there, which binds most tightly.
    refine .ite (fun hplace => ?_) fun _ => .fail _
    apply Derives.skip.bind
    intro _ us hus
    apply (h.exprAt .assignment).bind
    intro v vs hv
    apply Derives.pure
    obtain ⟨l, rfl⟩ := hus
    simpa using Phrase.assign hplace (phrase_of_isPlace htarget hplace) hv
  · simpa using Phrase.looser (t := .assignment) (by decide) htarget

theorem ternary_succ : Reads (Parser.exprAt (fuel + 1) .ternary) fun e ls =>
    Phrase .ternary e (tokensOf ls) := by
  rw [Parser.exprAt]
  apply (h.exprAt .coalesce).bind
  intro c ls hc
  apply Derives.eat
  · intro q hq
    apply Derives.eat
    · intro k hk
      apply (h.exprAt .assignment).bind
      intro n us hn
      apply Derives.pure
      simpa [hq, hk] using Phrase.fallback hc hn
    · apply (h.exprAt .assignment).bind
      intro p us hp
      apply (Derives.expect .colon).bind
      intro _ vs hvs
      apply (h.exprAt .assignment).bind
      intro n ws hn
      apply Derives.pure
      obtain ⟨k, hk, rfl⟩ := hvs
      simpa [hq, hk] using Phrase.ternary hc hp hn
  · apply Derives.pure
    simpa using Phrase.looser (t := .ternary) nofun hc

theorem coalesce_succ : Reads (Parser.exprAt (fuel + 1) .coalesce) fun e ls =>
    Phrase .coalesce e (tokensOf ls) := by
  rw [Parser.exprAt]
  apply (h.exprAt .or).bind
  intro l ls hl
  apply Derives.eat
  · intro q hq
    apply (h.exprAt .coalesce).bind
    intro r us hr
    apply Derives.pure
    simpa [hq] using Phrase.coalesce hl hr
  · apply Derives.pure
    simpa using Phrase.looser (t := .coalesce) nofun hl

theorem unary_succ : Reads (Parser.exprAt (fuel + 1) .unary) fun e ls =>
    Phrase .unary e (tokensOf ls) := by
  rw [Parser.exprAt]
  apply Derives.next?
  intro next
  split
  · rename_i op hop
    obtain ⟨tok, rfl, hop⟩ := Option.bind_eq_some_iff.1 hop
    apply Derives.skip.bind
    intro _ ls hls
    apply (h.exprAt .unary).bind
    intro e us he
    apply Derives.pure
    obtain ⟨l, rfl⟩ := hls
    simpa using Phrase.unary hop he
  · apply Derives.anywhere
    exact (h.exprAt .access).imp fun e ls he => .looser (by decide) he

theorem exprAt_succ (tier : Tier) : Reads (Parser.exprAt (fuel + 1) tier) fun e ls =>
    Phrase tier e (tokensOf ls) := by
  -- The levels whose operators follow one another differ in their operators alone.
  have hchain (t : Tier) (ht : t ≠ .access) :
      Reads (Parser.exprAt fuel t.tighter >>= Parser.operands fuel t) fun e ls =>
        Phrase t e (tokensOf ls) := by
    apply (h.exprAt t.tighter).bind
    intro left ls hl
    apply (h.operands t (.looser ht hl)).imp
    intro e us he
    rwa [tokensOf_append]
  cases tier with
  | assignment => exact h.assignment_succ
  | ternary => exact h.ternary_succ
  | coalesce => exact h.coalesce_succ
  | unary => exact h.unary_succ
  | access =>
    rw [Parser.exprAt]
    apply h.primary.bind
    intro base ls hb
    apply (h.accesses hb).imp
    intro e us he
    rwa [tokensOf_append]
  | orWord | andWord | or | and | equality | comparison | concat | additive | multiplicative =>
    exact hchain _ nofun

theorem operands_succ (tier : Tier) {left : Expr} {ts : List Token} (hleft : Phrase tier left ts) :
    Reads (Parser.operands (fuel + 1) tier left) fun e ls => Phrase tier e (ts ++ tokensOf ls) := by
  rw [Parser.operands]
  apply Derives.next?
  intro next
  split
  · rename_i op hop
    obtain ⟨tok, rfl, hop⟩ := Option.bind_eq_some_iff.1 hop
    apply Derives.skip.bind
    intro _ ls hls
    apply (h.exprAt tier.tighter).bind
    intro right us hright
    apply (h.operands tier (.binary hop hleft hright)).imp
    intro e vs he
    obtain ⟨l, rfl⟩ := hls
    simpa using he
  · apply Derives.pure
    simpa using hleft

theorem accesses_succ {base : Expr} {ts : List Token} (hbase : Phrase .access base ts) :
    Reads (Parser.accesses (fuel + 1) base) fun e ls => Phrase .access e (ts ++ tokensOf ls) := by
  rw [Parser.accesses]
  apply Derives.eat
  · intro l hl
    apply Derives.eat
    · intro r hr
      apply (h.accesses (.append hbase)).imp
      intro e us he
      simpa [hl, hr] using he
    · apply (h.exprAt .orWord).bind
      intro key us hkey
      apply (Derives.expect .rightBracket).bind
      intro _ vs hvs
      apply (h.accesses (.index hbase hkey)).imp
      intro e ws he
      obtain ⟨r, hr, rfl⟩ := hvs
      simpa [hl, hr] using he
  · apply Derives.eat
    · intro l hl
      apply Derives.propertyName.bind
      intro name us hus
      apply (h.accesses (.property hbase)).imp
      intro e vs he
      obtain ⟨n, hn, rfl⟩ := hus
      simpa [hl, hn] using he
    · apply Derives.pure
      simpa using hbase

theorem primary_name (name : String) :
    Derives (fun s => s.next? = some (.name name)) (Parser.named fuel name) fun e ls =>
      Phrase .access e (tokensOf ls) := by
  apply Derives.skip.bind
  intro _ ls hls
  obtain ⟨l, rfl⟩ := hls
  refine .ite (fun htrue => .pure (.true htrue)) fun htrue => ?_
  refine .ite (fun hfalse => .pure (.false hfalse)) fun hfalse => ?_
  refine .ite (fun hnull => .pure (.null hnull)) fun hnull => ?_
  have hvalue : Text.lowerAscii name ∉ ["true", "false", "null"] := by simp [htrue, hfalse, hnull]
  apply Derives.eat
  · intro p hp
    refine .ite (fun harray => ?_) fun harray => ?_
    · apply (h.items .rightParen).bind
      intro items us hus
      apply Derives.pure
      obtain ⟨ts, hts, hitems⟩ := hus
      simpa [hp, hts] using Phrase.arrayWord harray hitems
    · apply h.arguments.bind
      intro args us hus
      apply Derives.pure
      obtain ⟨ts, hts, hargs⟩ := hus
      have hname : Text.lowerAscii name ∉ ["true", "false", "null", "array"] := by
        simp [htrue, hfalse, hnull, harray]
      simpa [hp, hts] using Phrase.call hname hargs
  · exact .pure (.constant hvalue)

theorem primary_succ : Reads (Parser.primary (fuel + 1)) fun e ls =>
    Phrase .access e (tokensOf ls) := by
  have hone {tok : Token} {e : Expr} (he : Phrase .access e [tok]) :
      Derives (fun s => s.next? = some tok) (do skip; return e) fun e ls =>
        Phrase .access e (tokensOf ls) := by
    apply Derives.skip.bind
    intro _ ls hls
    apply Derives.pure
    obtain ⟨l, rfl⟩ := hls
    exact he
  rw [Parser.primary]
  apply Derives.next?
  intro next
  split
  · exact hone (.var _)
  · exact hone (.int _)
  · exact hone (.float _)
  · exact hone (.string _)
  · exact hone (.interpolated _)
  · apply Derives.skip.bind
    intro _ ls hls
    apply (h.exprAt .orWord).bind
    intro e us he
    apply (Derives.expect .rightParen).bind
    intro _ vs hvs
    apply Derives.pure
    obtain ⟨l, rfl⟩ := hls
    obtain ⟨r, hr, rfl⟩ := hvs
    simpa [hr] using Phrase.parens he
  · apply Derives.skip.bind
    intro _ ls hls
    apply (h.items .rightBracket).bind
    intro items us hus
    apply Derives.pure
    obtain ⟨l, rfl⟩ := hls
    obtain ⟨ts, hts, hitems⟩ := hus
    simpa [hts] using Phrase.array hitems
  · exact h.primary_name _
  · exact .refuse _

theorem behindItem (close : Symbol) {item : Item} {ts : List Token} (hitem : ItemPhrase item ts) :
    Reads (Parser.behindItem fuel close item) fun items ls =>
      ∃ us, ts ++ tokensOf ls = us ++ [.symbol close] ∧ ItemPhrases items us := by
  apply Derives.eat
  · intro k hk
    apply (h.items close).bind
    intro more us hus
    apply Derives.pure
    obtain ⟨vs, hvs, hmore⟩ := hus
    exact ⟨_, by simp [hk, hvs], .cons hitem hmore⟩
  · apply (Derives.expect close).bind
    intro _ us hus
    apply Derives.pure
    obtain ⟨r, hr, rfl⟩ := hus
    exact ⟨_, by simp [hr], .last hitem⟩

theorem items_succ (close : Symbol) : Reads (Parser.items (fuel + 1) close) fun items ls =>
    ∃ ts, tokensOf ls = ts ++ [.symbol close] ∧ ItemPhrases items ts := by
  rw [Parser.items]
  apply Derives.eat
  · intro r hr
    exact .pure ⟨[], by simp [hr], .nil⟩
  apply (h.exprAt .orWord).bind
  intro first ls hfirst
  apply Derives.eat
  · intro a ha
    apply (h.exprAt .orWord).bind
    intro v us hv
    apply (h.behindItem close (.keyed hfirst hv)).imp
    intro items vs hitems
    simpa [ha] using hitems
  · apply (h.behindItem close (.value hfirst)).imp
    intro items us hitems
    simpa using hitems

theorem arguments_succ : Reads (Parser.arguments (fuel + 1)) fun args ls =>
    ∃ ts, tokensOf ls = ts ++ [.symbol .rightParen] ∧ ArgumentPhrases args ts := by
  rw [Parser.arguments]
  apply Derives.eat
  · intro r hr
    exact .pure ⟨[], by simp [hr], .nil⟩
  apply (h.exprAt .orWord).bind
  intro e ls he
  apply Derives.eat
  · intro k hk
    apply h.arguments.bind
    intro more us hus
    apply Derives.pure
    obtain ⟨ts, hts, hmore⟩ := hus
    exact ⟨_, by simp [hk, hts], .cons he hmore⟩
  · apply (Derives.expect .rightParen).bind
    intro _ us hus
    apply Derives.pure
    obtain ⟨r, hr, rfl⟩ := hus
    exact ⟨_, by simp [hr], .last he⟩

end ReadPhrases

theorem readPhrases (fuel : Nat) : ReadPhrases fuel := by
  induction fuel with
  | zero => constructor <;> intros <;> exact .fail _
  | succ fuel h =>
    exact ⟨h.exprAt_succ, fun tier _ _ => h.operands_succ tier, h.accesses_succ, h.primary_succ,
      h.items_succ, h.arguments_succ⟩

end Expressions

section Statements

/-- What the readers of statements with so many steps answer are clauses of the tokens they take.
The keyword of a loop over a collection is taken before its reader starts. -/
structure ReadClauses (fuel : Nat) : Prop where
  block (words : List String) : Reads (block fuel words) Clauses
  statement : Reads (statement fuel) Clause
  alternatives : Reads (alternatives fuel) OtherClauses
  foreachAt {w : Located} : IsWord "foreach" w.token →
    Reads (foreachAt fuel w.line) fun stmt ls => Clause stmt (w :: ls)

theorem reads_exprs (fuel : Nat) :
    Reads (exprs fuel) fun es ls => ExprPhrases es (tokensOf ls) := by
  induction fuel with
  | zero => exact .fail _
  | succ fuel ih =>
    rw [exprs]
    apply ((readPhrases fuel).exprAt .orWord).bind
    intro e ls he
    apply Derives.eat
    · intro k hk
      apply ih.bind
      intro more us hmore
      apply Derives.pure
      simpa [hk] using ExprPhrases.cons he hmore
    · apply Derives.pure
      simpa using ExprPhrases.last he

theorem reads_condition (fuel : Nat) : Reads (condition fuel) IsCondition := by
  apply (Derives.expect .leftParen).bind
  intro _ ls hls
  apply ((readPhrases fuel).exprAt .orWord).bind
  intro e us he
  apply (Derives.expect .rightParen).bind
  intro _ vs hvs
  apply (Derives.expect .colon).bind
  intro _ ws hws
  apply Derives.pure
  obtain ⟨l, hl, rfl⟩ := hls
  obtain ⟨r, hr, rfl⟩ := hvs
  obtain ⟨k, hk, rfl⟩ := hws
  exact ⟨_, by simp [conditionTokens, hl, hr, hk], he⟩

theorem reads_terminator {a : α} (h : ∀ stop, IsStop stop → post a stop) :
    Reads (do terminator; return a) post := by
  apply Derives.terminator.bind
  intro _ stop hstop
  apply Derives.pure
  rw [List.append_nil]
  exact h stop hstop

theorem reads_end (word : String) {a : α}
    (h : ∀ (end? : Located) (stop : List Located), IsWord word end?.token → IsStop stop →
      post a (end? :: stop)) :
    Reads (do expectWord word; terminator; return a) post := by
  apply (Derives.expectWord word).bind
  intro _ ls hls
  apply reads_terminator
  intro stop hstop
  obtain ⟨l, hl, rfl⟩ := hls
  exact h l stop hl hstop

theorem reads_unset (fuel : Nat) {w open? : Located} (hw : IsWord "unset" w.token)
    (hopen : open?.token = .symbol .leftParen) :
    Reads (do
      let targets ← arguments fuel
      match targets.find? (!·.isPlace) with
      | some bad => fail (.notUnsettable bad)
      | none =>
        terminator
        return Stmt.unset targets) fun stmt ls => Clause stmt (w :: open? :: ls) := by
  apply (readPhrases fuel).arguments.bind
  intro targets ls hargs
  split
  · exact .fail _
  · rename_i hplaces
    apply reads_terminator
    intro stop hstop
    obtain ⟨ts, hts, hargs⟩ := hargs
    obtain ⟨ls, us, rfl, rfl, hus⟩ := List.map_eq_append_iff.1 hts
    obtain ⟨close?, rfl, hclose⟩ := List.map_eq_singleton_iff.1 hus
    have hall : ∀ e ∈ targets, e.isPlace := by
      intro e he
      simpa using List.find?_eq_none.1 hplaces e he
    rw [List.append_assoc]
    exact .unset hw hopen hall hargs hclose hstop

namespace ReadClauses

variable {fuel : Nat} (h : ReadClauses fuel)
include h

theorem conditional (words : List String) {f : Expr → List Stmt → Parser α}
    (hf : ∀ c head body ls, IsCondition c head → Clauses body ls →
      Reads (f c body) fun a us => post a (head ++ (ls ++ us))) :
    Reads (do
      let c ← condition fuel
      let body ← Parser.block fuel words
      f c body) post := by
  apply (reads_condition fuel).bind
  intro c head hc
  apply (h.block words).bind
  intro body ls hbody
  exact hf c head body ls hc hbody

theorem block_succ (words : List String) : Reads (Parser.block (fuel + 1) words) Clauses := by
  rw [Parser.block]
  apply Derives.next?
  intro next
  split
  · split
    · exact .fail _
    · exact .pure .nil
  · apply Derives.skip.bind
    rintro _ _ ⟨l, rfl⟩
    exact (h.block words).imp fun body us hbody => .closeTag hbody
  · apply Derives.skip.bind
    rintro _ _ ⟨l, rfl⟩
    exact (h.block words).imp fun body us hbody => .semicolon hbody
  · apply Derives.skip.bind
    rintro _ _ ⟨l, rfl⟩
    apply (h.block words).bind
    intro body us hbody
    apply Derives.pure
    rw [List.append_nil]
    exact .text hbody
  · apply Derives.look fun _ => rfl
    intro word
    refine .ite (fun _ => .pure .nil) fun _ => ?_
    apply Derives.anywhere
    apply h.statement.bind
    intro stmt ls hstmt
    apply (h.block words).bind
    intro body us hbody
    apply Derives.pure
    rw [List.append_nil]
    exact .cons hstmt hbody

/-- A keyword that begins a statement stands on the line where the reader of the statement
looked. -/
theorem statement_succ : Reads (Parser.statement (fuel + 1)) Clause := by
  have hexpr := (readPhrases fuel).exprAt .orWord
  rw [Parser.statement]
  apply Derives.look fun _ => rfl
  intro line
  -- What records a line records the one of its keyword, at which the reader looked.
  have hline {w : Located} {s : TokenStream} (hs : True ∧ s.line = line)
      (hw : s.tokens.head? = some w) : line = w.line := by
    rw [← hs.2, TokenStream.line, hw]
    rfl
  apply Derives.eatWord
  · intro w s _ _ hw
    apply (reads_exprs fuel).bind
    intro es ls hes
    exact reads_terminator fun stop hstop => .echo hw hes hstop
  apply Derives.eatWord
  · intro w s _ _ hw
    apply h.conditional
    intro c head body ls hc hbody
    apply h.alternatives.bind
    intro rest us hrest
    apply Derives.pure
    rw [List.append_nil]
    exact .cond hw hc hbody hrest
  apply Derives.eatWord
  · intro w s _ _ hw
    apply h.conditional
    intro c head body ls hc hbody
    exact reads_end "endwhile" fun end? stop hend hstop => .loop hw hc hbody hend hstop
  apply Derives.eatWord
  · intro w s hs hhead hw
    obtain rfl := hline hs hhead
    exact h.foreachAt hw
  apply Derives.eatWord
  · intro w s hs hhead hw
    obtain rfl := hline hs hhead
    exact reads_terminator fun stop hstop => .break hw hstop
  apply Derives.eatWord
  · intro w s hs hhead hw
    obtain rfl := hline hs hhead
    exact reads_terminator fun stop hstop => .continue hw hstop
  apply Derives.eatWord
  · intro w s hs hhead hw
    obtain rfl := hline hs hhead
    apply hexpr.bind
    intro target ls htarget
    exact reads_terminator fun stop hstop => .include hw htarget hstop
  apply Derives.look fun _ => rfl
  intro unset
  refine .ite (fun hunset => ?_) fun _ => ?_
  · apply Derives.unsetHead
    · intro s hs
      simpa [hunset] using hs.2
    · intro w open? hw hopen
      exact reads_unset fuel hw hopen
  · apply Derives.look fun _ => rfl
    intro word
    split
    · exact .fail _
    · apply Derives.anywhere
      apply hexpr.bind
      intro e ls he
      exact reads_terminator fun stop hstop => .expr he hstop

theorem alternatives_succ : Reads (Parser.alternatives (fuel + 1)) OtherClauses := by
  rw [Parser.alternatives]
  apply Derives.eatWord
  · intro w s _ _ hw
    apply h.conditional
    intro c head body ls hc hbody
    apply h.alternatives.bind
    intro rest us hrest
    apply Derives.pure
    rw [List.append_nil]
    exact .elseIf hw hc hbody hrest
  apply Derives.eatWord
  · intro w s _ _ hw
    apply (Derives.expect .colon).bind
    rintro _ _ ⟨k, hk, rfl⟩
    apply (h.block ["endif"]).bind
    intro body us hbody
    exact reads_end "endif" fun end? stop hend hstop => .otherwise hw hk hbody hend hstop
  · exact reads_end "endif" fun end? stop hend hstop => .none hend hstop

theorem behindLoopVariables {w l as? : Located} {us vars : List Located} {subject : Expr}
    {key : Option String} {value : String} {finish : List Stmt → Parser Stmt}
    (hw : IsWord "foreach" w.token) (hl : l.token = .symbol .leftParen)
    (hsubject : Phrase .orWord subject (tokensOf us)) (has : IsWord "as" as?.token)
    (hvars : tokensOf vars = loopVariableTokens key value)
    (hfinish : ∀ body, finish body = pure (.foreach subject key value body w.line)) :
    Reads (Parser.behindLoopVariables fuel finish) fun stmt ls =>
      Clause stmt (w :: l :: (us ++ as? :: (vars ++ ls))) := by
  apply (Derives.expect .rightParen).bind
  rintro _ _ ⟨r, hr, rfl⟩
  apply (Derives.expect .colon).bind
  rintro _ _ ⟨k, hk, rfl⟩
  apply (h.block ["endforeach"]).bind
  intro body bs hbody
  rw [hfinish]
  apply reads_end "endforeach"
  intro end? stop hend hstop
  have hhead : IsLoopHead subject key value (l :: (us ++ as? :: (vars ++ [r, k]))) :=
    ⟨_, _, by simp [hl, hvars, hr, hk], hsubject, has⟩
  simpa using Clause.foreach hw hhead hbody hend hstop

theorem foreachAt_succ {w : Located} (hw : IsWord "foreach" w.token) :
    Reads (Parser.foreachAt (fuel + 1) w.line) fun stmt ls => Clause stmt (w :: ls) := by
  rw [Parser.foreachAt]
  apply (Derives.expect .leftParen).bind
  rintro _ _ ⟨l, hl, rfl⟩
  apply ((readPhrases fuel).exprAt .orWord).bind
  intro subject us hsubject
  apply (Derives.expectWord "as").bind
  rintro _ _ ⟨as?, has, rfl⟩
  apply Derives.loopVariable.bind
  rintro first _ ⟨x, hx, rfl⟩
  apply Derives.eat
  · intro a ha
    rw [map_eq_pure_bind, bind_assoc]
    apply Derives.loopVariable.bind
    rintro second _ ⟨y, hy, rfl⟩
    rw [pure_bind]
    have hvars : tokensOf [x, a, y] = loopVariableTokens (some first) second := by
      simp [loopVariableTokens, hx, ha, hy]
    exact h.behindLoopVariables hw hl hsubject has hvars fun _ => rfl
  · rw [pure_bind]
    have hvars : tokensOf [x] = loopVariableTokens none first := by
      simp [loopVariableTokens, hx]
    exact h.behindLoopVariables hw hl hsubject has hvars fun _ => rfl

end ReadClauses

theorem readClauses (fuel : Nat) : ReadClauses fuel := by
  induction fuel with
  | zero => constructor <;> intros <;> exact .fail _
  | succ fuel h =>
    exact ⟨h.block_succ, h.statement_succ, h.alternatives_succ, h.foreachAt_succ⟩

/-- A reader that succeeds only where the code ends. -/
def Exhausts (p : Parser α) : Prop := ∀ {s a r}, p s = .ok (a, r) → r.tokens = []

theorem Exhausts.bind {q : Parser β} {f : β → Parser α} (hf : ∀ b, Exhausts (f b)) :
    Exhausts (q >>= f) := by
  intro s a r hrun
  obtain ⟨⟨b, t⟩, -, hb⟩ := exists_of_bind_eq_ok (x := q s) hrun
  exact hf b hb

theorem Exhausts.answer {q : Parser β} (hq : Exhausts q) (f : β → α) :
    Exhausts (q >>= fun b => pure (f b)) := by
  intro s a r hrun
  obtain ⟨⟨b, t⟩, hb, ⟨⟩⟩ := exists_of_bind_eq_ok (x := q s) hrun
  exact hq hb

/-- A block that ends at no word ends with the code. -/
theorem exhausts_block (fuel : Nat) : Exhausts (block fuel []) := by
  induction fuel with
  | zero => rintro s a r ⟨⟩
  | succ fuel ih =>
    intro s a r hrun
    rw [block, bind_of_ok (next?_run s)] at hrun
    cases hnext : s.next? with
    | none =>
      rw [hnext] at hrun
      cases hrun
      exact List.head?_eq_none_iff.1 (Option.map_eq_none_iff.1 hnext)
    | some tok =>
      rw [hnext] at hrun
      refine (?_ : Exhausts _) hrun
      split
      · cases ‹some tok = none›
      · exact Exhausts.bind fun _ => ih
      · exact Exhausts.bind fun _ => ih
      · exact Exhausts.bind fun _ => ih.answer _
      · refine Exhausts.bind fun word => ?_
        rw [if_neg (by cases word <;> simp)]
        exact Exhausts.bind fun _ => ih.answer _

end Statements

end Parser

/-- A program is read from all its tokens. -/
theorem TokenStream.clauses_of_program {s : TokenStream} {p : Program} (h : s.program = .ok p) :
    Clauses p.body s.tokens := by
  obtain ⟨⟨body, r⟩, hbody, ⟨⟩⟩ := exists_of_bind_eq_ok h
  obtain ⟨ls, htokens, -, hclauses⟩ := ((Parser.readClauses _).block []).takes trivial hbody
  rw [htokens, Parser.exhausts_block _ hbody, List.append_nil]
  exact hclauses

/-- A program that is not read fails on the line of a token or on the last line. -/
theorem TokenStream.line_of_program_error {s : TokenStream} {e : SyntaxError}
    (h : s.program = .error e) : e.line ∈ s.lines := by
  unfold TokenStream.program at h
  cases hbody : (Parser.block (parseSteps s.tokens.length) []).run s with
  | error e' =>
    rw [hbody] at h
    cases h
    exact ((Parser.readClauses _).block []).blames trivial hbody
  | ok q =>
    rw [hbody] at h
    cases h

end ViewTemplate.Code
