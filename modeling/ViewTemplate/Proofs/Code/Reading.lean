import ViewTemplate.Proofs.Code.Grammar

namespace ViewTemplate.Code

namespace TokenStream

/-- The stream begins with the tokens `ts` and goes on with `r`. -/
def Shows (s : TokenStream) : List Token → TokenStream → Prop
  | [], r => s = r
  | tok :: ts, r => s.next? = some tok ∧ s.drop.Shows ts r

theorem shows_append {s r : TokenStream} {ts us : List Token} :
    s.Shows (ts ++ us) r ↔ ∃ q, s.Shows ts q ∧ q.Shows us r := by
  induction ts generalizing s with
  | nil => exact ⟨fun h => ⟨s, rfl, h⟩, fun ⟨q, hq, h⟩ => hq ▸ h⟩
  | cons tok ts ih =>
    rw [List.cons_append, Shows, ih]
    exact ⟨fun ⟨hn, q, hq, h⟩ => ⟨q, ⟨hn, hq⟩, h⟩, fun ⟨q, ⟨hn, hq⟩, h⟩ => ⟨hn, q, hq, h⟩⟩

theorem shows_map_token (ls rest : List Located) (endLine : Nat) :
    (TokenStream.mk (ls ++ rest) endLine).Shows (ls.map (·.token)) ⟨rest, endLine⟩ := by
  induction ls with
  | nil => rfl
  | cons l ls ih => exact ⟨rfl, ih⟩

end TokenStream

namespace Parser

variable {α β : Type} {s r : TokenStream}

theorem bind_of_ok {p : Parser α} {f : α → Parser β} {a : α} (h : p s = .ok (a, r)) :
    (p >>= f) s = f a r := by
  simp only [bind, StateT.bind, h]
  rfl

theorem map_of_ok {p : Parser α} {f : α → β} {a : α} (h : p s = .ok (a, r)) :
    (f <$> p) s = .ok (f a, r) := by
  rw [map_eq_pure_bind, bind_of_ok h]
  rfl

theorem pure_run (a : α) (s : TokenStream) : (pure a : Parser α) s = .ok (a, s) := rfl

theorem startsWith_iff {symbol : Symbol} :
    s.startsWith symbol = true ↔ s.next? = some (.symbol symbol) := by
  unfold TokenStream.startsWith
  split <;> simp_all

theorem eat_of_next {symbol : Symbol} (h : s.next? = some (.symbol symbol)) :
    eat symbol s = .ok (true, s.drop) := by
  rw [eat, if_pos (startsWith_iff.mpr h)]

theorem eat_of_other {symbol : Symbol} (h : s.next? ≠ some (.symbol symbol)) :
    eat symbol s = .ok (false, s) := by
  rw [eat, if_neg (fun hs => h (startsWith_iff.mp hs))]

theorem expect_of_next {symbol : Symbol} (h : s.next? = some (.symbol symbol)) :
    expect symbol s = .ok ((), s.drop) := by
  rw [expect, if_pos (startsWith_iff.mpr h)]

theorem word?_of_next {tok : Token} {word : String} (h : s.next? = some tok)
    (hw : IsWord word tok) : s.word? = some word := by
  obtain ⟨name, rfl, rfl⟩ := hw
  rw [TokenStream.word?, h]

theorem eatWord_of_next {word : String} (h : s.word? = some word) :
    eatWord word s = .ok (true, s.drop) := by
  rw [eatWord, if_pos h]

theorem eatWord_of_other {word : String} (h : s.word? ≠ some word) :
    eatWord word s = .ok (false, s) := by
  rw [eatWord, if_neg h]

theorem expectWord_of_next {word : String} (h : s.word? = some word) :
    expectWord word s = .ok ((), s.drop) := by
  rw [expectWord, if_pos h]

theorem propertyName_of_next {name : String} (h : s.next? = some (.name name)) :
    propertyName s = .ok (name, s.drop) := by
  rw [propertyName, h]

theorem loopVariable_of_next {name : String} (h : s.next? = some (.var name)) :
    loopVariable s = .ok (name, s.drop) := by
  rw [loopVariable, h]

theorem terminator_of_next (h : s.next? = some (.symbol .semicolon)) :
    terminator s = .ok ((), s.drop) := by
  rw [terminator, h]

/-- A reader of one token. It takes the next one if `Q` admits it with the answer. Otherwise it
fails at that token or behind it, with a fault of its own. -/
def TakesOne (Q : Token → α → Prop) (p : Parser α) : Prop :=
  ∀ s, (∃ tok a, s.next? = some tok ∧ Q tok a ∧ p s = .ok (a, s.drop)) ∨
    ∃ e, p s = .error e ∧ (e.line = s.line ∨ e.line = s.drop.line) ∧ e.fault ≠ .tooDeep ∧
      ∀ found, e.fault ≠ .unexpected found

/-- A reader that takes the next token if `Q` admits it, and tells whether it did. -/
def TakesIf (Q : Token → Prop) (q : Parser Bool) : Prop :=
  ∀ s, (∃ tok, s.next? = some tok ∧ Q tok ∧ q s = .ok (true, s.drop)) ∨ q s = .ok (false, s)

theorem exists_of_word? {word : String} (h : s.word? = some word) :
    ∃ tok, s.next? = some tok ∧ IsWord word tok := by
  unfold TokenStream.word? at h
  split at h
  · exact ⟨_, ‹_›, _, rfl, Option.some.inj h⟩
  · cases h

theorem takesOne_expect (symbol : Symbol) :
    TakesOne (fun tok _ => tok = .symbol symbol) (expect symbol) := by
  intro s
  unfold expect
  split
  · exact .inl ⟨_, (), startsWith_iff.1 ‹_›, rfl, rfl⟩
  · exact .inr ⟨_, rfl, .inl rfl, nofun, nofun⟩

theorem takesOne_expectWord (word : String) :
    TakesOne (fun tok _ => IsWord word tok) (expectWord word) := by
  intro s
  unfold expectWord
  split
  · obtain ⟨tok, hnext, hword⟩ := exists_of_word? ‹_›
    exact .inl ⟨tok, (), hnext, hword, rfl⟩
  · exact .inr ⟨_, rfl, .inl rfl, nofun, nofun⟩

theorem takesOne_loopVariable : TakesOne (fun tok name => tok = .var name) loopVariable := by
  intro s
  unfold loopVariable
  split
  · exact .inl ⟨_, _, ‹_›, rfl, rfl⟩
  · exact .inr ⟨_, rfl, .inr rfl, nofun, nofun⟩

theorem takesOne_propertyName : TakesOne (fun tok name => tok = .name name) propertyName := by
  intro s
  unfold propertyName
  split
  · exact .inl ⟨_, _, ‹_›, rfl, rfl⟩
  · exact .inr ⟨_, rfl, .inr rfl, nofun, nofun⟩

theorem takesIf_eat (symbol : Symbol) : TakesIf (fun tok => tok = .symbol symbol) (eat symbol) := by
  intro s
  unfold eat
  split
  · exact .inl ⟨_, startsWith_iff.1 ‹_›, rfl, rfl⟩
  · exact .inr rfl

theorem takesIf_eatWord (word : String) : TakesIf (IsWord word) (eatWord word) := by
  intro s
  unfold eatWord
  split
  · obtain ⟨tok, hnext, hword⟩ := exists_of_word? ‹_›
    exact .inl ⟨tok, hnext, hword, rfl⟩
  · exact .inr rfl

/-- A statement ends with a semicolon that is taken, or without one, or not at all. -/
theorem terminator_cases (s : TokenStream) :
    (s.next? = some (.symbol .semicolon) ∧ terminator s = .ok ((), s.drop)) ∨
      terminator s = .ok ((), s) ∨
        ∃ found, terminator s = .error ⟨s.line, .expected .semicolon found⟩ := by
  unfold terminator
  split
  · exact .inl ⟨‹_›, rfl⟩
  · exact .inr (.inl rfl)
  · exact .inr (.inl rfl)
  · exact .inr (.inr ⟨_, rfl⟩)

end Parser

open ViewTemplate.Code.Parser (Tier)

/-- Nothing goes on with an expression of level `t`. -/
def EndsAt (t : Tier) (next : Option Token) : Prop :=
  ∀ tok, next = some tok → ∀ u, tok.tier? = some u → u.rank < t.floor

/-- Nothing tighter than level `t` goes on, and no parenthesis. -/
def EndsBelow (t : Tier) (next : Option Token) : Prop :=
  ∀ tok, next = some tok → tok ≠ .symbol .leftParen ∧ ∀ u, tok.tier? = some u → u.rank ≤ t.rank

/-- The levels on which operators follow one another from left to right. -/
def Parser.Tier.isChain : Tier → Bool
  | assignment | ternary | coalesce | unary => false
  | _ => true

theorem EndsAt.endsBelow {t : Tier} {next : Option Token} (h : EndsAt t next) :
    EndsBelow t next := by
  intro tok hn
  have hle := t.floor_le_rank
  refine ⟨?_, fun u hu => by have := h tok hn u hu; omega⟩
  rintro rfl
  have := h _ hn .access rfl
  have := t.rank_le
  simp only [Tier.rank] at *
  omega

theorem EndsAt.tighter {t : Tier} {next : Option Token} (h : EndsAt t next) :
    EndsAt t.tighter next :=
  fun tok hn u hu => Nat.lt_of_lt_of_le (h tok hn u hu) t.floor_le_tighter

theorem EndsBelow.endsAt_tighter {t : Tier} {next : Option Token} (h : EndsBelow t next)
    (hc : t.isChain = true) (ht : t ≠ .access) : EndsAt t.tighter next := by
  intro tok hn u hu
  have hle := (h tok hn).2 u hu
  have hfloor : t.rank < t.tighter.floor := by
    cases t <;> first | decide | exact absurd rfl ht | cases hc
  omega

theorem endsAt_of_tier?_eq_none {t : Tier} {tok : Token} (h : tok.tier? = none) :
    EndsAt t (some tok) := by
  intro other ho u hu
  cases ho
  rw [h] at hu
  cases hu

theorem tier?_of_operator? {t : Tier} {tok : Token} {op : BinaryOp}
    (h : t.operator? tok = some op) : tok.tier? = some t := by
  unfold Tier.operator? at h
  split at h <;> first | rfl | (split at h <;> simp_all [Token.tier?]) | cases h

theorem operator?_eq_none {t : Tier} {tok : Token} (h : tok.tier? ≠ some t) :
    t.operator? tok = none := by
  cases hop : t.operator? tok with
  | none => rfl
  | some op => exact absurd (tier?_of_operator? hop) h

/-- Whether an expression of a level can begin with a token. -/
def Parser.Tier.opens (t : Tier) : Token → Bool
  | .var _ | .name _ | .int _ | .float _ | .string _ | .template _ => true
  | .symbol .leftParen | .symbol .leftBracket => true
  | .symbol .not | .symbol .minus | .symbol .plus => t ≠ .access
  | _ => false

/-- The first token of an expression of a level. -/
def OpensAt (t : Tier) (ts : List Token) : Prop := ∃ tok more, ts = tok :: more ∧ t.opens tok = true

theorem opens_of_tier {t u : Tier} {tok : Token} (h : t.opens tok = true) (hu : u ≠ .access) :
    u.opens tok = true := by
  unfold Parser.Tier.opens at *
  split at h <;> simp_all

namespace OpensAt

variable {t u : Tier} {ts : List Token}

theorem append (h : OpensAt t ts) (us : List Token) : OpensAt t (ts ++ us) := by
  obtain ⟨tok, more, rfl, ho⟩ := h
  exact ⟨tok, more ++ us, rfl, ho⟩

theorem looser (h : OpensAt t ts) (hu : u ≠ .access) : OpensAt u ts := by
  obtain ⟨tok, more, rfl, ho⟩ := h
  exact ⟨tok, more, rfl, opens_of_tier ho hu⟩

theorem length_pos (h : OpensAt t ts) : 0 < ts.length := by
  obtain ⟨tok, more, rfl, -⟩ := h
  simp

theorem next (h : OpensAt t ts) {s r : TokenStream} (hs : s.Shows ts r) :
    ∃ tok, s.next? = some tok ∧ t.opens tok = true := by
  obtain ⟨tok, more, rfl, ho⟩ := h
  exact ⟨tok, hs.1, ho⟩

theorem next_ne (h : OpensAt t ts) {s r : TokenStream} (hs : s.Shows ts r) {tok : Token}
    (ho : t.opens tok = false) : s.next? ≠ some tok := by
  obtain ⟨tok', hn, ho'⟩ := h.next hs
  rw [hn]
  rintro ⟨⟩
  rw [ho] at ho'
  cases ho'

end OpensAt

namespace Parser

-- The readers' equations are prepared once for the proofs that follow.
attribute [local simp] exprAt operands accesses primary items arguments

theorem next?_run (s : TokenStream) : next? s = .ok (s.next?, s) := rfl

theorem skip_run (s : TokenStream) : skip s = .ok ((), s.drop) := rfl

def behind (t : Tier) (fuel : Nat) (e : Expr) : Parser Expr :=
  if t = .access then accesses fuel e else operands fuel t e

theorem exprAt_succ_of_chain {t : Tier} (ht : t.isChain = true) (hne : t ≠ .access) (fuel : Nat) :
    exprAt (fuel + 1) t = exprAt fuel t.tighter >>= operands fuel t := by
  cases t <;> first | exact absurd rfl hne | rfl | cases ht

theorem operands_of_end {t : Tier} {fuel : Nat} (hf : 0 < fuel) {e : Expr} {r : TokenStream}
    (hr : EndsAt t r.next?) : operands fuel t e r = .ok (e, r) := by
  obtain ⟨fuel, rfl⟩ := Nat.exists_eq_succ_of_ne_zero (Nat.ne_of_gt hf)
  have hnone : r.next?.bind t.operator? = none := by
    cases hn : r.next? with
    | none => rfl
    | some tok =>
      refine operator?_eq_none fun hu => ?_
      exact absurd (hr tok hn t hu) (Nat.not_lt.mpr t.floor_le_rank)
  rw [operands, bind_of_ok (next?_run r)]
  simp only [hnone]
  rfl

theorem EndsAt.next_ne {t : Tier} {next : Option Token} (h : EndsAt t next) {tok : Token}
    (ht : tok.tier? = some t) : next ≠ some tok :=
  fun hn => absurd (h tok hn t ht) (Nat.not_lt.mpr t.floor_le_rank)

theorem accesses_of_end {fuel : Nat} (hf : 0 < fuel) {e : Expr} {r : TokenStream}
    (hr : EndsAt .access r.next?) : accesses fuel e r = .ok (e, r) := by
  obtain ⟨fuel, rfl⟩ := Nat.exists_eq_succ_of_ne_zero (Nat.ne_of_gt hf)
  rw [accesses, bind_of_ok (eat_of_other (EndsAt.next_ne hr rfl))]
  simp only [Bool.false_eq_true, if_false]
  rw [bind_of_ok (eat_of_other (EndsAt.next_ne hr rfl))]
  rfl

theorem behind_of_end {t : Tier} {fuel : Nat} (hf : 0 < fuel) {e : Expr} {r : TokenStream}
    (hr : EndsAt t r.next?) : behind t fuel e r = .ok (e, r) := by
  unfold behind
  split
  · rename_i ht
    subst ht
    exact accesses_of_end hf hr
  · exact operands_of_end hf hr

/-- The reader of level `t` takes `ts` as the expression `e`. On a level whose operators follow one
another, it is then ready for the next one. -/
structure ReadsAs (t : Tier) (e : Expr) (ts : List Token) : Prop where
  opens : OpensAt t ts
  chain : t.isChain = true → ∀ (fuel : Nat) {s r : TokenStream},
    20 * ts.length ≤ fuel + t.rank → s.Shows ts r → EndsBelow t r.next? →
    ∃ f, fuel ≤ f + ts.length ∧ exprAt fuel t s = behind t f e r
  full : ∀ (fuel : Nat) {s r : TokenStream},
    20 * ts.length ≤ fuel + t.rank → s.Shows ts r → EndsAt t r.next? →
    exprAt fuel t s = .ok (e, r)

/-- On a level whose operators follow one another it is enough to be ready for the next one. -/
theorem readsAs_of_chain {t : Tier} {e : Expr} {ts : List Token} (hopens : OpensAt t ts)
    (h : ∀ (fuel : Nat) {s r : TokenStream},
      20 * ts.length ≤ fuel + t.rank → s.Shows ts r → EndsBelow t r.next? →
      ∃ f, fuel ≤ f + ts.length ∧ exprAt fuel t s = behind t f e r) : ReadsAs t e ts where
  opens := hopens
  chain _ := h
  full _ _ _ hf hs hr := by
    obtain ⟨f, hle, he⟩ := h _ hf hs hr.endsBelow
    have := hopens.length_pos
    have := t.rank_le
    rw [he, behind_of_end (by omega) hr]

theorem readsAs_of_full {t : Tier} {e : Expr} {ts : List Token} (ht : t.isChain = false)
    (hopens : OpensAt t ts)
    (h : ∀ (fuel : Nat) {s r : TokenStream},
      20 * ts.length ≤ fuel + 1 + t.rank → s.Shows ts r → EndsAt t r.next? →
      exprAt (fuel + 1) t s = .ok (e, r)) : ReadsAs t e ts where
  opens := hopens
  chain hc := by
    rw [ht] at hc
    cases hc
  full fuel _ _ hf hs hr := by
    have := hopens.length_pos
    have := t.rank_le
    obtain ⟨fuel, rfl⟩ : ∃ n, fuel = n + 1 := ⟨fuel - 1, by omega⟩
    exact h fuel hf hs hr

namespace ReadsAs

variable {t : Tier} {e l r' c n v key target : Expr} {ts us vs : List Token}

theorem looser (ht : t ≠ .access) (h : ReadsAs t.tighter e ts) : ReadsAs t e ts := by
  have hopens := h.opens.looser ht
  have hrank := Tier.rank_tighter ht
  have hpos := hopens.length_pos
  -- A chain goes on with the operands behind; on another level no sign of it follows the phrase.
  by_cases hc : t.isChain = true
  · refine readsAs_of_chain hopens fun fuel s r hf hs hr => ?_
    have := t.rank_le
    obtain ⟨fuel, rfl⟩ : ∃ n, fuel = n + 1 := ⟨fuel - 1, by omega⟩
    refine ⟨fuel, by omega, ?_⟩
    rw [exprAt_succ_of_chain hc ht,
      bind_of_ok (h.full _ (by omega) hs (hr.endsAt_tighter hc ht)), behind, if_neg ht]
  · refine readsAs_of_full (by simpa using hc) hopens fun fuel s r hf hs hr => ?_
    have he := h.full fuel (by omega) hs hr.tighter
    cases t with
    | assignment =>
      change exprAt fuel .ternary s = _ at he
      rw [exprAt, bind_of_ok he, bind_of_ok (next?_run r)]
      have hne : r.next? ≠ some (.symbol .assign) := EndsAt.next_ne hr rfl
      simp only
      split
      · contradiction
      · rfl
    | ternary =>
      change exprAt fuel .coalesce s = _ at he
      rw [exprAt, bind_of_ok he, bind_of_ok (eat_of_other (EndsAt.next_ne hr rfl))]
      rfl
    | coalesce =>
      change exprAt fuel .or s = _ at he
      rw [exprAt, bind_of_ok he, bind_of_ok (eat_of_other (EndsAt.next_ne hr rfl))]
      rfl
    | unary =>
      change exprAt fuel .access s = _ at he
      obtain ⟨tok, hn, ho⟩ := h.opens.next hs
      have hnone : s.next?.bind unaryOperator? = none := by
        rw [hn, Option.bind_some]
        unfold unaryOperator?
        split <;> first | rfl | cases ho
      rw [exprAt, bind_of_ok (next?_run s)]
      simp only [hnone]
      exact he
    | _ => exact absurd rfl hc

theorem binary {op : BinaryOp} {tok : Token} (hop : t.operator? tok = some op)
    (hl : ReadsAs t l ts) (hr : ReadsAs t.tighter r' us) :
    ReadsAs t (.binary op l r') (ts ++ tok :: us) := by
  have htier := tier?_of_operator? hop
  have ht : t ≠ .access := by
    rintro rfl
    cases hop
  have hc : t.isChain = true := by
    cases t <;> first | rfl | cases hop
  have hparen : tok ≠ .symbol .leftParen := by
    rintro rfl
    cases htier
    exact ht rfl
  refine readsAs_of_chain (hl.opens.append _) fun fuel s r hf hs hend => ?_
  rw [List.length_append, List.length_cons] at hf ⊢
  have := t.rank_le
  obtain ⟨q, hq, hn, hs'⟩ := TokenStream.shows_append.mp hs
  -- The operator ends the left operand, and the chain goes on with it.
  have hbelow : EndsBelow t q.next? := by
    intro tok' hn'
    rw [hn] at hn'
    cases hn'
    refine ⟨hparen, fun u hu => ?_⟩
    rw [htier] at hu
    cases hu
    exact Nat.le_refl _
  obtain ⟨f, hle, he⟩ := hl.chain hc fuel (by omega) hq hbelow
  obtain ⟨f, rfl⟩ : ∃ n, f = n + 1 := ⟨f - 1, by omega⟩
  have hrank := Tier.rank_tighter ht
  refine ⟨f, by omega, ?_⟩
  rw [he, behind, if_neg ht, operands, bind_of_ok (next?_run q), hn]
  simp only [Option.bind_some, hop]
  rw [bind_of_ok (skip_run q), bind_of_ok (hr.full _ (by omega) hs' (hend.endsAt_tighter hc ht)),
    behind, if_neg ht]

theorem unary {op : UnaryOp} {tok : Token} (hop : unaryOperator? tok = some op)
    (h : ReadsAs .unary e ts) : ReadsAs .unary (.unary op e) (tok :: ts) := by
  have ho : Tier.unary.opens tok = true := by
    unfold unaryOperator? at hop
    split at hop <;> first | rfl | cases hop
  refine readsAs_of_full rfl ⟨tok, ts, rfl, ho⟩ fun fuel s r hf hs hend => ?_
  rw [List.length_cons] at hf
  rw [exprAt, bind_of_ok (next?_run s), hs.1]
  simp only [Option.bind_some, hop]
  rw [bind_of_ok (skip_run s), bind_of_ok (h.full _ (by omega) hs.2 hend)]
  rfl

theorem of_access (h : ReadsAs .access e ts) (t : Tier) : ReadsAs t e ts :=
  if ht : t = .access then ht ▸ h else looser ht (of_access h t.tighter)
termination_by 13 - t.rank
decreasing_by
  have := Tier.rank_tighter ht
  have := t.tighter.rank_le
  omega

theorem endsAt_of_tier {tok : Token} {u : Tier} {q : TokenStream} (hn : q.next? = some tok)
    (htier : tok.tier? = some u) (h : u.rank < t.floor) : EndsAt t q.next? := by
  intro tok' hn' u' hu'
  rw [hn] at hn'
  cases hn'
  rw [htier] at hu'
  cases hu'
  exact h

/-- The reader of ternaries stops in front of `=`. -/
theorem ternary_of_assign (h : ReadsAs .access e ts) {fuel : Nat} {s q : TokenStream}
    (hf : 20 * ts.length ≤ fuel) (hs : s.Shows ts q) (hn : q.next? = some (.symbol .assign)) :
    exprAt (fuel + 1) .ternary s = .ok (e, q) := by
  have hc := (h.of_access .coalesce).full fuel (by omega) hs (endsAt_of_tier hn rfl (by decide))
  have hq : q.next? ≠ some (.symbol .question) := by simp [hn]
  rw [exprAt, bind_of_ok hc, bind_of_ok (eat_of_other hq)]
  rfl

theorem assign (hplace : target.isPlace = true) (ht : ReadsAs .access target ts)
    (hv : ReadsAs .assignment v us) :
    ReadsAs .assignment (.assign target v) (ts ++ .symbol .assign :: us) := by
  refine readsAs_of_full rfl ((ht.opens.append _).looser (by decide)) fun fuel s r hf hs hend => ?_
  rw [List.length_append, List.length_cons] at hf
  simp only [Tier.rank] at hf
  obtain ⟨q, hq, hn, hs'⟩ := TokenStream.shows_append.mp hs
  obtain ⟨fuel, rfl⟩ : ∃ n, fuel = n + 1 := ⟨fuel - 1, by omega⟩
  rw [exprAt, bind_of_ok (ht.ternary_of_assign (by omega) hq hn), bind_of_ok (next?_run q)]
  simp only [hn, if_true, hplace]
  rw [bind_of_ok (skip_run q), bind_of_ok (hv.full _ (by simp only [Tier.rank]; omega) hs' hend)]
  rfl

theorem ternary (hc : ReadsAs .coalesce c ts) (hv : ReadsAs .assignment v us)
    (hn : ReadsAs .assignment n vs) :
    ReadsAs .ternary (.ternary c v n)
      (ts ++ .symbol .question :: (us ++ .symbol .colon :: vs)) := by
  refine readsAs_of_full rfl ((hc.opens.append _).looser (by decide)) fun fuel s r hf hs hend => ?_
  simp only [List.length_append, List.length_cons, Tier.rank] at hf
  obtain ⟨q, hq, hquestion, hs'⟩ := TokenStream.shows_append.mp hs
  obtain ⟨p, hp, hcolon, hs''⟩ := TokenStream.shows_append.mp hs'
  have hpos : q.drop.next? ≠ some (.symbol .colon) := hv.opens.next_ne hp rfl
  rw [exprAt, bind_of_ok (hc.full _ (by simp only [Tier.rank]; omega) hq
      (endsAt_of_tier hquestion rfl (by decide))), bind_of_ok (eat_of_next hquestion)]
  simp only [if_true]
  rw [bind_of_ok (eat_of_other hpos)]
  simp only [Bool.false_eq_true, if_false]
  have hends : EndsAt .assignment p.next? := hcolon ▸ endsAt_of_tier?_eq_none rfl
  rw [bind_of_ok (hv.full _ (by simp only [Tier.rank]; omega) hp hends),
    bind_of_ok (expect_of_next hcolon),
    bind_of_ok (hn.full _ (by simp only [Tier.rank]; omega) hs'' hend)]
  rfl

theorem fallback (hc : ReadsAs .coalesce c ts) (hn : ReadsAs .assignment n us) :
    ReadsAs .ternary (.fallback c n)
      (ts ++ .symbol .question :: .symbol .colon :: us) := by
  refine readsAs_of_full rfl ((hc.opens.append _).looser (by decide)) fun fuel s r hf hs hend => ?_
  simp only [List.length_append, List.length_cons, Tier.rank] at hf
  obtain ⟨q, hq, hquestion, hcolon, hs'⟩ := TokenStream.shows_append.mp hs
  rw [exprAt, bind_of_ok (hc.full _ (by simp only [Tier.rank]; omega) hq
      (endsAt_of_tier hquestion rfl (by decide))), bind_of_ok (eat_of_next hquestion)]
  simp only [if_true]
  rw [bind_of_ok (eat_of_next hcolon)]
  simp only [if_true]
  rw [bind_of_ok (hn.full _ (by simp only [Tier.rank]; omega) hs' hend)]
  rfl

theorem endsBelow_access {tok : Token} {q : TokenStream} (hn : q.next? = some tok)
    (hparen : tok ≠ .symbol .leftParen) : EndsBelow .access q.next? := by
  intro tok' hn'
  rw [hn] at hn'
  cases hn'
  exact ⟨hparen, fun u _ => u.rank_le⟩

theorem coalesce (hl : ReadsAs .or l ts) (hr : ReadsAs .coalesce r' us) :
    ReadsAs .coalesce (.coalesce l r') (ts ++ .symbol .coalesce :: us) := by
  refine readsAs_of_full rfl ((hl.opens.append _).looser (by decide)) fun fuel s r hf hs hend => ?_
  rw [List.length_append, List.length_cons] at hf
  obtain ⟨q, hq, hn, hs'⟩ := TokenStream.shows_append.mp hs
  simp only [Tier.rank] at hf
  rw [exprAt, bind_of_ok (hl.full _ (by simp only [Tier.rank]; omega) hq
      (endsAt_of_tier hn rfl (by decide))), bind_of_ok (eat_of_next hn)]
  simp only [if_true]
  rw [bind_of_ok (hr.full _ (by simp only [Tier.rank]; omega) hs' hend)]
  rfl

theorem property {base : Expr} {name : String} (hb : ReadsAs .access base ts) :
    ReadsAs .access (.property base name) (ts ++ [.symbol .arrow, .name name]) := by
  refine readsAs_of_chain (hb.opens.append _) fun fuel s r hf hs hend => ?_
  simp only [List.length_append, List.length_cons, List.length_nil] at hf ⊢
  obtain ⟨q, hq, hn, hname, rfl⟩ := TokenStream.shows_append.mp hs
  obtain ⟨f, hle, he⟩ := hb.chain rfl fuel (by omega) hq (endsBelow_access hn nofun)
  obtain ⟨f, rfl⟩ : ∃ m, f = m + 1 := ⟨f - 1, by simp only [Tier.rank] at hf; omega⟩
  have hbracket : q.next? ≠ some (.symbol .leftBracket) := by simp [hn]
  refine ⟨f, by omega, ?_⟩
  rw [he, behind, if_pos rfl, accesses, bind_of_ok (eat_of_other hbracket)]
  simp only [Bool.false_eq_true, if_false]
  rw [bind_of_ok (eat_of_next hn)]
  simp only [if_true]
  rw [bind_of_ok (propertyName_of_next hname), behind, if_pos rfl]

theorem append {base : Expr} (hb : ReadsAs .access base ts) :
    ReadsAs .access (.append base) (ts ++ [.symbol .leftBracket, .symbol .rightBracket]) := by
  refine readsAs_of_chain (hb.opens.append _) fun fuel s r hf hs hend => ?_
  simp only [List.length_append, List.length_cons, List.length_nil] at hf ⊢
  obtain ⟨q, hq, hn, hclose, rfl⟩ := TokenStream.shows_append.mp hs
  obtain ⟨f, hle, he⟩ := hb.chain rfl fuel (by omega) hq (endsBelow_access hn nofun)
  obtain ⟨f, rfl⟩ : ∃ m, f = m + 1 := ⟨f - 1, by simp only [Tier.rank] at hf; omega⟩
  refine ⟨f, by omega, ?_⟩
  rw [he, behind, if_pos rfl, accesses, bind_of_ok (eat_of_next hn)]
  simp only [if_true]
  rw [bind_of_ok (eat_of_next hclose), behind, if_pos rfl]
  rfl

theorem index {base : Expr} (hb : ReadsAs .access base ts) (hk : ReadsAs .orWord key us) :
    ReadsAs .access (.index base key)
      (ts ++ .symbol .leftBracket :: (us ++ [.symbol .rightBracket])) := by
  refine readsAs_of_chain (hb.opens.append _) fun fuel s r hf hs hend => ?_
  simp only [List.length_append, List.length_cons, List.length_nil] at hf ⊢
  obtain ⟨q, hq, hn, hs'⟩ := TokenStream.shows_append.mp hs
  obtain ⟨p, hp, hclose, rfl⟩ := TokenStream.shows_append.mp hs'
  obtain ⟨f, hle, he⟩ := hb.chain rfl fuel (by omega) hq (endsBelow_access hn nofun)
  obtain ⟨f, rfl⟩ : ∃ m, f = m + 1 := ⟨f - 1, by simp only [Tier.rank] at hf; omega⟩
  have hopen : q.drop.next? ≠ some (.symbol .rightBracket) := hk.opens.next_ne hp rfl
  have hends : EndsAt .orWord p.next? := hclose ▸ endsAt_of_tier?_eq_none rfl
  refine ⟨f, by omega, ?_⟩
  rw [he, behind, if_pos rfl, accesses, bind_of_ok (eat_of_next hn)]
  simp only [if_true]
  rw [bind_of_ok (eat_of_other hopen)]
  simp only [Bool.false_eq_true, if_false]
  rw [bind_of_ok (hk.full _ (by simp only [Tier.rank] at *; omega) hp hends),
    bind_of_ok (expect_of_next hclose), behind, if_pos rfl]

theorem of_primary (hopens : OpensAt .access ts)
    (h : ∀ (fuel : Nat) {s r : TokenStream}, 20 * ts.length ≤ fuel + 15 → s.Shows ts r →
      r.next? ≠ some (.symbol .leftParen) → primary (fuel + 1) s = .ok (e, r)) :
    ReadsAs .access e ts := by
  refine readsAs_of_chain hopens fun fuel s r hf hs hend => ?_
  have hpos := hopens.length_pos
  simp only [Tier.rank] at hf
  obtain ⟨fuel, rfl⟩ : ∃ n, fuel = n + 2 := ⟨fuel - 2, by omega⟩
  refine ⟨fuel + 1, by omega, ?_⟩
  have hparen : r.next? ≠ some (.symbol .leftParen) := fun hn => (hend _ hn).1 rfl
  rw [exprAt, bind_of_ok (h fuel (by omega) hs hparen), behind, if_pos rfl]

theorem of_token {tok : Token} (ho : Tier.access.opens tok = true)
    (h : ∀ (fuel : Nat) {s : TokenStream}, s.next? = some tok →
      s.drop.next? ≠ some (.symbol .leftParen) → primary (fuel + 1) s = .ok (e, s.drop)) :
    ReadsAs .access e [tok] := by
  refine of_primary ⟨tok, [], rfl, ho⟩ fun fuel s r _ hs hparen => ?_
  obtain ⟨hn, rfl⟩ := hs
  exact h fuel hn hparen

theorem var (name : String) : ReadsAs .access (.var name) [.var name] :=
  of_token rfl fun fuel s hn _ => by
    rw [primary, bind_of_ok (next?_run s), hn]
    rfl

theorem int (i : Int64) : ReadsAs .access (.literal (.int i)) [.int i] :=
  of_token rfl fun fuel s hn _ => by
    rw [primary, bind_of_ok (next?_run s), hn]
    rfl

theorem float (x : Float) : ReadsAs .access (.literal (.float x)) [.float x] :=
  of_token rfl fun fuel s hn _ => by
    rw [primary, bind_of_ok (next?_run s), hn]
    rfl

theorem string (text : String) : ReadsAs .access (.literal (.string text)) [.string text] :=
  of_token rfl fun fuel s hn _ => by
    rw [primary, bind_of_ok (next?_run s), hn]
    rfl

theorem interpolated (parts : List StringPart) :
    ReadsAs .access (.interpolated parts) [.template parts] :=
  of_token rfl fun fuel s hn _ => by
    rw [primary, bind_of_ok (next?_run s), hn]
    rfl

theorem name {name : String}
    (h : e = if Text.lowerAscii name = "true" then .literal (.bool true)
      else if Text.lowerAscii name = "false" then .literal (.bool false)
      else if Text.lowerAscii name = "null" then .literal .null
      else .constant name) : ReadsAs .access e [.name name] := by
  refine of_token rfl fun fuel s hn hparen => ?_
  rw [primary, bind_of_ok (next?_run s), hn]
  simp only
  rw [bind_of_ok (skip_run s)]
  subst h
  split
  · rfl
  split
  · rfl
  split
  · rfl
  rw [bind_of_ok (eat_of_other hparen)]
  rfl

theorem parens (h : ReadsAs .orWord e ts) :
    ReadsAs .access e (.symbol .leftParen :: (ts ++ [.symbol .rightParen])) := by
  refine of_primary ⟨_, _, rfl, rfl⟩ fun fuel s r hf hs _ => ?_
  simp only [List.length_append, List.length_cons, List.length_nil] at hf
  obtain ⟨hn, hs'⟩ := hs
  obtain ⟨q, hq, hclose, rfl⟩ := TokenStream.shows_append.mp hs'
  have hends : EndsAt .orWord q.next? := hclose ▸ endsAt_of_tier?_eq_none rfl
  rw [primary, bind_of_ok (next?_run s), hn]
  simp only
  rw [bind_of_ok (skip_run s), bind_of_ok (h.full fuel (by omega) hq hends),
    bind_of_ok (expect_of_next hclose)]
  rfl

end ReadsAs

def item (fuel : Nat) : Parser Item := do
  let first ← exprAt fuel .orWord
  if ← eat .doubleArrow then return .keyed first (← exprAt fuel .orWord)
  else return .value first

/-- The reader of an entry takes `ts` as `it`, up to a comma or the end of the array. -/
structure ReadsAsItem (it : Item) (ts : List Token) : Prop where
  opens : OpensAt .orWord ts
  full : ∀ (fuel : Nat) {s r : TokenStream}, 20 * ts.length ≤ fuel → s.Shows ts r →
    EndsAt .orWord r.next? → r.next? ≠ some (.symbol .doubleArrow) → item fuel s = .ok (it, r)

/-- The reader of the entries of an array takes `ts` and the closing symbol. -/
def ReadsAsItems (its : List Item) (ts : List Token) : Prop :=
  ∀ (fuel : Nat) {s r : TokenStream} {close : Symbol}, 20 * (ts.length + 1) ≤ fuel →
    close ∈ [.rightBracket, .rightParen] → s.Shows (ts ++ [.symbol close]) r →
    items fuel close s = .ok (its, r)

/-- The reader of arguments takes `ts` and the closing parenthesis. -/
def ReadsAsArguments (args : List Expr) (ts : List Token) : Prop :=
  ∀ (fuel : Nat) {s r : TokenStream}, 20 * (ts.length + 1) ≤ fuel →
    s.Shows (ts ++ [.symbol .rightParen]) r → arguments fuel s = .ok (args, r)

theorem items_succ (fuel : Nat) (close : Symbol) :
    items (fuel + 1) close = do
      if ← eat close then return []
      else
        let it ← item fuel
        if ← eat .comma then return it :: (← items fuel close)
        else
          expect close
          return [it] := by
  rw [items]
  refine congrArg _ (funext fun closed => ?_)
  cases closed
  · simp only [item, Bool.false_eq_true, if_false, bind_assoc]
    refine congrArg _ (funext fun first => congrArg _ (funext fun keyed => ?_))
    cases keyed <;> simp
  · rfl

section

variable {it : Item} {its : List Item} {e k v : Expr} {args : List Expr} {ts us : List Token}

theorem ReadsAs.item_value (h : ReadsAs .orWord v ts) : ReadsAsItem (.value v) ts where
  opens := h.opens
  full fuel s r hf hs hend hne := by
    rw [item, bind_of_ok (h.full fuel (by omega) hs hend), bind_of_ok (eat_of_other hne)]
    rfl

theorem ReadsAs.item_keyed (hk : ReadsAs .orWord k ts) (hv : ReadsAs .orWord v us) :
    ReadsAsItem (.keyed k v) (ts ++ .symbol .doubleArrow :: us) where
  opens := hk.opens.append _
  full fuel s r hf hs hend _ := by
    rw [List.length_append, List.length_cons] at hf
    obtain ⟨q, hq, hn, hs'⟩ := TokenStream.shows_append.mp hs
    have harrow : EndsAt .orWord q.next? := hn ▸ endsAt_of_tier?_eq_none rfl
    rw [item, bind_of_ok (hk.full fuel (by omega) hq harrow), bind_of_ok (eat_of_next hn)]
    simp only [if_true]
    rw [bind_of_ok (hv.full fuel (by omega) hs' hend)]
    rfl

theorem closing_symbol {close : Symbol} (h : close ∈ [Symbol.rightBracket, .rightParen]) :
    (∀ t : Tier, t.opens (.symbol close) = false) ∧ (Token.symbol close).tier? = none ∧
      close ≠ .doubleArrow ∧ close ≠ .comma := by
  simp only [List.mem_cons, List.not_mem_nil, or_false] at h
  obtain rfl | rfl := h <;> exact ⟨fun _ => rfl, rfl, nofun, nofun⟩

theorem readsAsItems_nil : ReadsAsItems [] [] := by
  intro fuel s r close hf _ hs
  obtain ⟨hn, rfl⟩ := hs
  obtain ⟨fuel, rfl⟩ : ∃ n, fuel = n + 1 := ⟨fuel - 1, by omega⟩
  rw [items_succ, bind_of_ok (eat_of_next hn)]
  rfl

theorem ReadsAsItem.last (h : ReadsAsItem it ts) : ReadsAsItems [it] ts := by
  intro fuel s r close hf hclose hs
  obtain ⟨hopens, htier, harrow, hcomma⟩ := closing_symbol hclose
  obtain ⟨fuel, rfl⟩ : ∃ n, fuel = n + 1 := ⟨fuel - 1, by omega⟩
  obtain ⟨q, hq, hn, rfl⟩ := TokenStream.shows_append.mp hs
  have hends : EndsAt .orWord q.next? := hn ▸ endsAt_of_tier?_eq_none htier
  rw [items_succ, bind_of_ok (eat_of_other (h.opens.next_ne hq (hopens _)))]
  simp only [Bool.false_eq_true, if_false]
  rw [bind_of_ok (h.full fuel (by omega) hq hends (by simp [hn, harrow])),
    bind_of_ok (eat_of_other (by simp [hn, hcomma]))]
  simp only [Bool.false_eq_true, if_false]
  rw [bind_of_ok (expect_of_next hn)]
  rfl

theorem ReadsAsItem.cons (h : ReadsAsItem it ts) (hmore : ReadsAsItems its us) :
    ReadsAsItems (it :: its) (ts ++ .symbol .comma :: us) := by
  intro fuel s r close hf hclose hs
  rw [List.length_append, List.length_cons] at hf
  obtain ⟨hopens, -⟩ := closing_symbol hclose
  obtain ⟨fuel, rfl⟩ : ∃ n, fuel = n + 1 := ⟨fuel - 1, by omega⟩
  rw [List.append_assoc, List.cons_append] at hs
  obtain ⟨q, hq, hn, hs'⟩ := TokenStream.shows_append.mp hs
  have hends : EndsAt .orWord q.next? := hn ▸ endsAt_of_tier?_eq_none rfl
  rw [items_succ, bind_of_ok (eat_of_other (h.opens.next_ne hq (hopens _)))]
  simp only [Bool.false_eq_true, if_false]
  rw [bind_of_ok (h.full fuel (by omega) hq hends (by simp [hn])), bind_of_ok (eat_of_next hn)]
  simp only [if_true]
  rw [bind_of_ok (hmore fuel (by omega) hclose hs')]
  rfl

theorem readsAsArguments_nil : ReadsAsArguments [] [] := by
  intro fuel s r hf hs
  obtain ⟨hn, rfl⟩ := hs
  obtain ⟨fuel, rfl⟩ : ∃ n, fuel = n + 1 := ⟨fuel - 1, by omega⟩
  rw [arguments, bind_of_ok (eat_of_next hn)]
  rfl

theorem ReadsAs.last_argument (h : ReadsAs .orWord e ts) : ReadsAsArguments [e] ts := by
  intro fuel s r hf hs
  obtain ⟨fuel, rfl⟩ : ∃ n, fuel = n + 1 := ⟨fuel - 1, by omega⟩
  obtain ⟨q, hq, hn, rfl⟩ := TokenStream.shows_append.mp hs
  have hends : EndsAt .orWord q.next? := hn ▸ endsAt_of_tier?_eq_none rfl
  rw [arguments, bind_of_ok (eat_of_other (h.opens.next_ne hq rfl))]
  simp only [Bool.false_eq_true, if_false]
  rw [bind_of_ok (h.full fuel (by omega) hq hends), bind_of_ok (eat_of_other (by simp [hn]))]
  simp only [Bool.false_eq_true, if_false]
  rw [bind_of_ok (expect_of_next hn)]
  rfl

theorem ReadsAs.cons_argument (h : ReadsAs .orWord e ts) (hmore : ReadsAsArguments args us) :
    ReadsAsArguments (e :: args) (ts ++ .symbol .comma :: us) := by
  intro fuel s r hf hs
  rw [List.length_append, List.length_cons] at hf
  obtain ⟨fuel, rfl⟩ : ∃ n, fuel = n + 1 := ⟨fuel - 1, by omega⟩
  rw [List.append_assoc, List.cons_append] at hs
  obtain ⟨q, hq, hn, hs'⟩ := TokenStream.shows_append.mp hs
  have hends : EndsAt .orWord q.next? := hn ▸ endsAt_of_tier?_eq_none rfl
  rw [arguments, bind_of_ok (eat_of_other (h.opens.next_ne hq rfl))]
  simp only [Bool.false_eq_true, if_false]
  rw [bind_of_ok (h.full fuel (by omega) hq hends), bind_of_ok (eat_of_next hn)]
  simp only [if_true]
  rw [bind_of_ok (hmore fuel (by omega) hs')]
  rfl

theorem ReadsAsItems.array (h : ReadsAsItems its ts) :
    ReadsAs .access (.array its) (.symbol .leftBracket :: (ts ++ [.symbol .rightBracket])) := by
  refine .of_primary ⟨_, _, rfl, rfl⟩ fun fuel s r hf hs _ => ?_
  simp only [List.length_append, List.length_cons, List.length_nil] at hf
  rw [primary, bind_of_ok (next?_run s), hs.1]
  simp only
  rw [bind_of_ok (skip_run s), bind_of_ok (h fuel (by omega) (by simp) hs.2)]
  rfl

theorem ReadsAsItems.array_word {name : String} (hname : Text.lowerAscii name = "array")
    (h : ReadsAsItems its ts) :
    ReadsAs .access (.array its)
      (.name name :: .symbol .leftParen :: (ts ++ [.symbol .rightParen])) := by
  refine .of_primary ⟨_, _, rfl, rfl⟩ fun fuel s r hf hs _ => ?_
  simp only [List.length_append, List.length_cons, List.length_nil] at hf
  obtain ⟨hn, hparen, hs'⟩ := hs
  rw [primary, bind_of_ok (next?_run s), hn]
  simp only
  rw [bind_of_ok (skip_run s), hname, if_neg (by decide), if_neg (by decide), if_neg (by decide),
    bind_of_ok (eat_of_next hparen)]
  simp only [if_true]
  rw [bind_of_ok (h fuel (by omega) (by simp) hs')]
  rfl

theorem ReadsAsArguments.call {name : String}
    (hname : Text.lowerAscii name ∉ ["true", "false", "null", "array"])
    (h : ReadsAsArguments args ts) :
    ReadsAs .access (.call (Text.lowerAscii name) args)
      (.name name :: .symbol .leftParen :: (ts ++ [.symbol .rightParen])) := by
  refine .of_primary ⟨_, _, rfl, rfl⟩ fun fuel s r hf hs _ => ?_
  simp only [List.length_append, List.length_cons, List.length_nil] at hf
  simp only [List.mem_cons, List.not_mem_nil, or_false, not_or] at hname
  obtain ⟨htrue, hfalse, hnull, harray⟩ := hname
  obtain ⟨hn, hparen, hs'⟩ := hs
  rw [primary, bind_of_ok (next?_run s), hn]
  simp only
  rw [bind_of_ok (skip_run s), if_neg htrue, if_neg hfalse, if_neg hnull,
    bind_of_ok (eat_of_next hparen)]
  simp only [if_true, if_neg harray]
  rw [bind_of_ok (h fuel (by omega) hs')]
  rfl

end

end Parser

open ViewTemplate.Code.Parser

mutual

/-- The readers take every phrase as what it stands for. -/
theorem Phrase.readsAs {t : Tier} {e : Expr} {ts : List Token} : Phrase t e ts → ReadsAs t e ts
  | .looser ht h => h.readsAs.looser ht
  | .binary hop hl hr => hl.readsAs.binary hop hr.readsAs
  | .assign hplace ht hv => ht.readsAs.assign hplace hv.readsAs
  | .ternary hc hp hn => hc.readsAs.ternary hp.readsAs hn.readsAs
  | .fallback hc hn => hc.readsAs.fallback hn.readsAs
  | .coalesce hl hr => hl.readsAs.coalesce hr.readsAs
  | .unary hop h => h.readsAs.unary hop
  | .index hb hk => hb.readsAs.index hk.readsAs
  | .append hb => hb.readsAs.append
  | .property hb => hb.readsAs.property
  | .var name => ReadsAs.var name
  | .int n => ReadsAs.int n
  | .float x => ReadsAs.float x
  | .string s => ReadsAs.string s
  | .interpolated parts => ReadsAs.interpolated parts
  | .true h => ReadsAs.name (by simp [h])
  | .false h => ReadsAs.name (by simp [h])
  | .null h => ReadsAs.name (by simp [h])
  | .constant h => ReadsAs.name (by simp_all)
  | .parens h => h.readsAs.parens
  | .array h => h.readsAs.array
  | .arrayWord hname h => h.readsAs.array_word hname
  | .call hname h => h.readsAs.call hname

theorem ItemPhrase.readsAs {it : Item} {ts : List Token} : ItemPhrase it ts → ReadsAsItem it ts
  | .value hv => hv.readsAs.item_value
  | .keyed hk hv => hk.readsAs.item_keyed hv.readsAs

theorem ItemPhrases.readsAs {its : List Item} {ts : List Token} :
    ItemPhrases its ts → ReadsAsItems its ts
  | .nil => readsAsItems_nil
  | .last h => h.readsAs.last
  | .cons h hmore => h.readsAs.cons hmore.readsAs

theorem ArgumentPhrases.readsAs {args : List Expr} {ts : List Token} :
    ArgumentPhrases args ts → ReadsAsArguments args ts
  | .nil => readsAsArguments_nil
  | .last h => h.readsAs.last_argument
  | .cons h hmore => h.readsAs.cons_argument hmore.readsAs

end

end ViewTemplate.Code
