import ViewTemplate.Proofs.Code.Blocks
import ViewTemplate.Proofs.Code.WellFormed

namespace ViewTemplate.Code

open ViewTemplate.Code.Parser (Tier)

/-- The level of an operator. `or` and `and` also have a spelling as a word, far looser than the
symbols. -/
def BinaryOp.tier (asWord : Bool) : BinaryOp → Tier
  | or => if asWord then .orWord else .or
  | and => if asWord then .andWord else .and
  | eq | notEq | identical | notIdentical => .equality
  | lt | le | gt | ge => .comparison
  | concat => .concat
  | add | sub => .additive
  | mul | div | mod => .multiplicative

def BinaryOp.token (asWord : Bool) : BinaryOp → Token
  | or => if asWord then .name "or" else .symbol .orOr
  | and => if asWord then .name "and" else .symbol .andAnd
  | eq => .symbol .eq
  | notEq => .symbol .notEq
  | identical => .symbol .identical
  | notIdentical => .symbol .notIdentical
  | lt => .symbol .lt
  | le => .symbol .le
  | gt => .symbol .gt
  | ge => .symbol .ge
  | concat => .symbol .dot
  | add => .symbol .plus
  | sub => .symbol .minus
  | mul => .symbol .star
  | div => .symbol .slash
  | mod => .symbol .percent

def UnaryOp.token : UnaryOp → Token
  | not => .symbol .not
  | neg => .symbol .minus
  | plus => .symbol .plus

theorem BinaryOp.operator?_token (asWord : Bool) (op : BinaryOp) :
    (op.tier asWord).operator? (op.token asWord) = some op := by
  cases op <;> cases asWord <;> rfl

theorem UnaryOp.unaryOperator?_token (op : UnaryOp) :
    Parser.unaryOperator? op.token = some op := by cases op <;> rfl

def literalTokens : Value → List Token
  | .null => [.name "null"]
  | .bool true => [.name "true"]
  | .bool false => [.name "false"]
  | .int n => [.int n]
  | .float x => [.float x]
  | .string s => [.string s]
  | .list _ | .map _ => []

def parenthesised (ts : List Token) : List Token :=
  .symbol .leftParen :: (ts ++ [.symbol .rightParen])

section

/- Which `or` and `and` are spelled as words. -/
variable (asWord : Expr → Bool)

/-- The level on which an expression stands without parentheses. -/
def Expr.tier (e : Expr) : Tier :=
  match e with
  | .binary op _ _ => op.tier (asWord e)
  | .assign _ _ => .assignment
  | .ternary _ _ _ | .fallback _ _ => .ternary
  | .coalesce _ _ => .coalesce
  | .unary _ _ => .unary
  | _ => .access

/-- The tokens of an expression where one of level `t` is asked for. -/
def within (t : Tier) (e : Expr) (ts : List Token) : List Token :=
  if (e.tier asWord).rank < t.rank then parenthesised ts else ts

mutual

/-- An expression in tokens, in parentheses only where its level is too loose for its place. -/
def Expr.tokens : Expr → List Token
  | .literal v => literalTokens v
  | .var name => [.var name]
  | .interpolated parts => [.template parts]
  | .array items => .symbol .leftBracket :: (itemsTokens items ++ [.symbol .rightBracket])
  | .index base key =>
    within asWord .access base base.tokens ++
      .symbol .leftBracket :: (key.tokens ++ [.symbol .rightBracket])
  | .append base =>
    within asWord .access base base.tokens ++ [.symbol .leftBracket, .symbol .rightBracket]
  | .property base name => within asWord .access base base.tokens ++ [.symbol .arrow, .name name]
  | .call name args => .name name :: parenthesised (exprsTokens args)
  | .constant name => [.name name]
  | .unary op e => op.token :: within asWord .unary e e.tokens
  | .binary op l r =>
    let word := asWord (.binary op l r)
    within asWord (op.tier word) l l.tokens ++
      op.token word :: within asWord (op.tier word).tighter r r.tokens
  | .ternary c p n =>
    within asWord .coalesce c c.tokens ++ .symbol .question ::
      (within asWord .assignment p p.tokens ++
        .symbol .colon :: within asWord .assignment n n.tokens)
  | .fallback c n =>
    within asWord .coalesce c c.tokens ++
      .symbol .question :: .symbol .colon :: within asWord .assignment n n.tokens
  | .coalesce l r =>
    within asWord .or l l.tokens ++ .symbol .coalesce :: within asWord .coalesce r r.tokens
  | .assign target v =>
    within asWord .access target target.tokens ++
      .symbol .assign :: within asWord .assignment v v.tokens

def Item.tokens : Item → List Token
  | .value v => v.tokens
  | .keyed k v => k.tokens ++ .symbol .doubleArrow :: v.tokens

def itemsTokens : List Item → List Token
  | [] => []
  | [item] => item.tokens
  | item :: more => item.tokens ++ .symbol .comma :: itemsTokens more

def exprsTokens : List Expr → List Token
  | [] => []
  | [e] => e.tokens
  | e :: more => e.tokens ++ .symbol .comma :: exprsTokens more

end

mutual

/-- A statement in tokens. An expression stands in parentheses. -/
def Stmt.tokens : Stmt → List Token
  | .text s => [.text s]
  | .echo es => .name "echo" :: (exprsTokens asWord es ++ [.symbol .semicolon])
  | .expr e => parenthesised (e.tokens asWord) ++ [.symbol .semicolon]
  | .unset targets =>
    .name "unset" :: .symbol .leftParen ::
      (exprsTokens asWord targets ++ [.symbol .rightParen, .symbol .semicolon])
  | .cond c body rest =>
    .name "if" :: (conditionTokens (c.tokens asWord) ++ (stmtsTokens body ++ rest.tokens))
  | .loop c body =>
    .name "while" :: (conditionTokens (c.tokens asWord) ++
      (stmtsTokens body ++ [.name "endwhile", .symbol .semicolon]))
  | .foreach subject key value body _ =>
    .name "foreach" :: .symbol .leftParen :: (subject.tokens asWord ++ .name "as" ::
      (loopVariableTokens key value ++ .symbol .rightParen :: .symbol .colon ::
        (stmtsTokens body ++ [.name "endforeach", .symbol .semicolon])))
  | .break _ => [.name "break", .symbol .semicolon]
  | .continue _ => [.name "continue", .symbol .semicolon]
  | .include target _ => .name "include" :: (target.tokens asWord ++ [.symbol .semicolon])

def Alternatives.tokens : Alternatives → List Token
  | .none => [.name "endif", .symbol .semicolon]
  | .otherwise body =>
    .name "else" :: .symbol .colon ::
      (stmtsTokens body ++ [.name "endif", .symbol .semicolon])
  | .elseIf c body rest =>
    .name "elseif" :: (conditionTokens (c.tokens asWord) ++ (stmtsTokens body ++ rest.tokens))

def stmtsTokens : List Stmt → List Token
  | [] => []
  | stmt :: more => stmt.tokens ++ stmtsTokens more

end

end

theorem Parser.Tier.rank_injective {t u : Tier} (h : t.rank = u.rank) : t = u := by
  cases t <;> cases u <;> first | rfl | cases h

/-- What stands on a level stands on every looser one. -/
theorem Phrase.loosen {t u : Tier} {e : Expr} {ts : List Token} (h : Phrase t e ts)
    (hle : u.rank ≤ t.rank) : Phrase u e ts := by
  by_cases hu : u = t
  · exact hu ▸ h
  · have hne : u.rank ≠ t.rank := fun heq => hu (Tier.rank_injective heq)
    have hrank : u ≠ .access := by
      rintro rfl
      have := t.rank_le
      simp only [Tier.rank] at *
      omega
    have hnext := Tier.rank_tighter hrank
    exact .looser hrank (h.loosen (by omega))
termination_by t.rank - u.rank

section

variable {asWord : Expr → Bool} {e : Expr} {ts : List Token}

theorem Phrase.within (h : Phrase (e.tier asWord) e ts) (t : Tier) :
    Phrase t e (within asWord t e ts) := by
  unfold ViewTemplate.Code.within
  split
  · exact (Phrase.parens (h.loosen (Nat.zero_le _))).loosen t.rank_le
  · exact h.loosen (Nat.le_of_not_lt ‹_›)

theorem literal_phrase {v : Value} (h : v.isArray = false) :
    Phrase .access (.literal v) (literalTokens v) := by
  cases v with
  | null => exact .null rfl
  | bool b => cases b <;> first | exact .true rfl | exact .false rfl
  | int n => exact .int n
  | float x => exact .float x
  | string s => exact .string s
  | list items => cases h
  | map entries => cases h

mutual

/-- The tokens of a well-formed expression are a phrase of its level. -/
theorem Expr.WellFormed.phrase (asWord : Expr → Bool) : ∀ {e : Expr}, e.WellFormed →
    Phrase (e.tier asWord) e (e.tokens asWord)
  | .literal _, h => literal_phrase h
  | .var name, _ => .var name
  | .interpolated parts, _ => .interpolated parts
  | .array _, h => .array (items_phrases asWord h)
  | .index _ _, ⟨hb, hk⟩ =>
    .index ((hb.phrase asWord).within _) ((hk.phrase asWord).loosen (Nat.zero_le _))
  | .append e, h => .append ((Expr.WellFormed.phrase asWord (e := e) h).within _)
  | .property e _, h => .property ((Expr.WellFormed.phrase asWord (e := e) h).within _)
  | .call name args, ⟨hlower, hname, hargs⟩ => by
    have hfree : Text.lowerAscii name ∉ ["true", "false", "null", "array"] := by
      simp_all [valueNames]
    have hcall := Phrase.call hfree (exprs_phrases asWord hargs)
    rwa [hlower] at hcall
  | .constant _, h => .constant h
  | .unary op e, h =>
    .unary op.unaryOperator?_token ((Expr.WellFormed.phrase asWord (e := e) h).within _)
  | .binary op _ _, ⟨hl, hr⟩ =>
    .binary (op.operator?_token _) ((hl.phrase asWord).within _)
      ((hr.phrase asWord).within _)
  | .ternary _ _ _, ⟨hc, hp, hn⟩ =>
    .ternary ((hc.phrase asWord).within _) ((hp.phrase asWord).within _)
      ((hn.phrase asWord).within _)
  | .fallback _ _, ⟨hc, hn⟩ =>
    .fallback ((hc.phrase asWord).within _) ((hn.phrase asWord).within _)
  | .coalesce _ _, ⟨hl, hr⟩ =>
    .coalesce ((hl.phrase asWord).within _) ((hr.phrase asWord).within _)
  | .assign _ _, ⟨hplace, ht, hv⟩ =>
    .assign hplace ((ht.phrase asWord).within _) ((hv.phrase asWord).within _)

theorem Item.WellFormed.phrase (asWord : Expr → Bool) : ∀ {item : Item}, item.WellFormed →
    ItemPhrase item (item.tokens asWord)
  | .value e, h => .value ((Expr.WellFormed.phrase asWord (e := e) h).loosen (Nat.zero_le _))
  | .keyed _ _, ⟨hk, hv⟩ =>
    .keyed ((hk.phrase asWord).loosen (Nat.zero_le _))
      ((hv.phrase asWord).loosen (Nat.zero_le _))

theorem items_phrases (asWord : Expr → Bool) : ∀ {items : List Item}, ItemsWellFormed items →
    ItemPhrases items (itemsTokens asWord items)
  | [], _ => .nil
  | [_], ⟨h, _⟩ => .last (h.phrase asWord)
  | _ :: _ :: _, ⟨h, hmore⟩ => .cons (h.phrase asWord) (items_phrases asWord hmore)

theorem exprs_phrases (asWord : Expr → Bool) : ∀ {es : List Expr}, ExprsWellFormed es →
    ArgumentPhrases es (exprsTokens asWord es)
  | [], _ => .nil
  | [_], ⟨h, _⟩ => .last ((h.phrase asWord).loosen (Nat.zero_le _))
  | _ :: _ :: _, ⟨h, hmore⟩ =>
    .cons ((h.phrase asWord).loosen (Nat.zero_le _)) (exprs_phrases asWord hmore)

end

theorem exprPhrases_tokens (asWord : Expr → Bool) : ∀ {es : List Expr}, es ≠ [] →
    ExprsWellFormed es → ExprPhrases es (exprsTokens asWord es)
  | [], hne, _ => absurd rfl hne
  | [_], _, ⟨h, _⟩ => .last ((h.phrase asWord).loosen (Nat.zero_le _))
  | _ :: _ :: _, _, ⟨h, hmore⟩ =>
    .cons ((h.phrase asWord).loosen (Nat.zero_le _)) (exprPhrases_tokens asWord nofun hmore)

theorem isWord_of_lower {word : String} (h : Text.lowerAscii word = word) :
    IsWord word (.name word) := ⟨word, rfl, h⟩

theorem Expr.WellFormed.phrase_any (asWord : Expr → Bool) {e : Expr} (h : e.WellFormed) :
    Phrase .orWord e (e.tokens asWord) := (h.phrase asWord).loosen (Nat.zero_le _)

mutual

theorem Stmt.WellFormed.passage (asWord : Expr → Bool) {body : List Stmt} {ts : List Token}
    (hbody : Passage body ts) : ∀ {stmt : Stmt}, stmt.WellFormed →
    Passage (stmt :: body) (stmt.tokens asWord ++ ts)
  | .text _, _ => .text hbody
  | .echo _, ⟨hne, h⟩ =>
    .cons (.echo (isWord_of_lower rfl) (exprPhrases_tokens asWord hne h)) hbody
  | .expr e, h =>
    .cons (.expr nofun ((Expr.WellFormed.phrase_any asWord (e := e) h).parens.loosen
      (Nat.zero_le _))) hbody
  | .unset _, ⟨hplace, h⟩ =>
    .cons (.unset (isWord_of_lower rfl) hplace (exprs_phrases asWord h)) hbody
  | .cond _ _ _, ⟨hc, hb, hr⟩ =>
    .cons (.cond (isWord_of_lower rfl) (hc.phrase_any asWord) (passage_of_wellFormed asWord hb)
      (hr.branches asWord)) hbody
  | .loop _ _, ⟨hc, hb⟩ =>
    .cons (.loop (isWord_of_lower rfl) (hc.phrase_any asWord) (passage_of_wellFormed asWord hb)
      (isWord_of_lower rfl)) hbody
  | .foreach _ _ _ _ _, ⟨hs, hb⟩ =>
    .cons (.foreach (isWord_of_lower rfl) (hs.phrase_any asWord) (isWord_of_lower rfl)
      (passage_of_wellFormed asWord hb) (isWord_of_lower rfl)) hbody
  | .break _, _ => .cons (.break (isWord_of_lower rfl)) hbody
  | .continue _, _ => .cons (.continue (isWord_of_lower rfl)) hbody
  | .include _ _, h => .cons (.include (isWord_of_lower rfl) (h.phrase_any asWord)) hbody

theorem Alternatives.WellFormed.branches (asWord : Expr → Bool) : ∀ {rest : Alternatives},
    rest.WellFormed → Branches rest (rest.tokens asWord)
  | .none, _ => .none (isWord_of_lower rfl)
  | .otherwise _, h =>
    .otherwise (isWord_of_lower rfl) (passage_of_wellFormed asWord h) (isWord_of_lower rfl)
  | .elseIf _ _ _, ⟨hc, hb, hr⟩ =>
    .elseIf (isWord_of_lower rfl) (hc.phrase_any asWord) (passage_of_wellFormed asWord hb)
      (hr.branches asWord)

theorem passage_of_wellFormed (asWord : Expr → Bool) : ∀ {body : List Stmt},
    StmtsWellFormed body → Passage body (stmtsTokens asWord body)
  | [], _ => .nil
  | _ :: _, ⟨h, hmore⟩ => h.passage asWord (passage_of_wellFormed asWord hmore)

end

end

/-- Every well-formed program is read back from its tokens, whatever lines they stand on. -/
theorem program_of_tokens (asWord : Expr → Bool) {body : List Stmt} (h : StmtsWellFormed body)
    {s : TokenStream} (hs : s.tokens.map (·.token) = stmtsTokens asWord body) :
    ∃ q, s.program = .ok q ∧ unlinedAll q.body = unlinedAll body := by
  refine Passage.program ?_
  rw [hs]
  exact passage_of_wellFormed asWord h

/-- A loop with an assignment, where the sum needs its parentheses and the product none. -/
theorem program_of_tokens_of_loop :
    let body : List Stmt := [.loop (.var "more") [.expr (.assign (.var "n")
      (.binary .mul (.binary .add (.var "n") (.var "m")) (.unary .neg (.var "m")))), .break 3]]
    let tokens : List Token := [.name "while", .symbol .leftParen, .var "more",
      .symbol .rightParen, .symbol .colon, .symbol .leftParen, .var "n", .symbol .assign,
      .symbol .leftParen, .var "n", .symbol .plus, .var "m", .symbol .rightParen, .symbol .star,
      .symbol .minus, .var "m", .symbol .rightParen, .symbol .semicolon, .name "break",
      .symbol .semicolon, .name "endwhile", .symbol .semicolon]
    StmtsWellFormed body ∧ ∃ q, TokenStream.program ⟨tokens.map (⟨·, 1⟩), 1⟩ = .ok q ∧
      unlinedAll q.body = unlinedAll body := by
  intro body tokens
  have hbody : StmtsWellFormed body :=
    ⟨⟨trivial, ⟨rfl, trivial, ⟨trivial, trivial⟩, trivial⟩, trivial, trivial⟩, trivial⟩
  exact ⟨hbody, program_of_tokens (fun _ => false) hbody rfl⟩

end ViewTemplate.Code
