import ViewTemplate.Proofs.Code.Advancing
import ViewTemplate.Proofs.Code.Spelling

namespace ViewTemplate.Code

namespace Parser

variable {α β : Type}

/-- From `s` two readers do the same, and they do not fail for want of steps. -/
structure Agree (p q : Parser α) (s : TokenStream) : Prop where
  same : p s = q s
  ends : ∀ {e}, p s = .error e → e.fault ≠ .tooDeep

theorem GoesOn.length {least : Nat} {p : Parser α} {s r : TokenStream} {a : α}
    (h : GoesOn least p s)
    (hrun : p s = .ok (a, r)) : r.tokens.length + least ≤ s.tokens.length := by
  obtain ⟨n, hn, hlength, rfl⟩ := h.answers hrun
  rw [TokenStream.length_after]
  omega

namespace Agree

variable {least : Nat} {p q : Parser α} {s : TokenStream}

theorem pure (a : α) (s : TokenStream) : Agree (pure a) (pure a) s := ⟨rfl, by rintro _ ⟨⟩⟩

theorem fail {fault : SyntaxFault} (h : fault ≠ .tooDeep) :
    Agree (fail fault : Parser α) (fail fault) s := by
  refine ⟨rfl, ?_⟩
  rintro _ ⟨⟩
  exact h

theorem refuse {fault : Option Token → SyntaxFault} (h : ∀ found, fault found ≠ .tooDeep) :
    Agree (refuse fault : Parser α) (refuse fault) s := by
  refine ⟨rfl, ?_⟩
  rintro _ ⟨⟩
  exact h _

theorem bind {f g : α → Parser β} (h : Agree p q s) (hgo : GoesOn least p s)
    (hf : ∀ {a r}, r.tokens.length + least ≤ s.tokens.length → Agree (f a) (g a) r) :
    Agree (p >>= f) (q >>= g) s := by
  obtain ⟨hsame, hends⟩ := h
  cases hp : p s with
  | error e =>
    have hq : q s = .error e := hsame.symm.trans hp
    have hrun : (p >>= f) s = .error e := by
      simp only [Bind.bind, StateT.bind, hp]
      rfl
    have hrun' : (q >>= g) s = .error e := by
      simp only [Bind.bind, StateT.bind, hq]
      rfl
    refine ⟨hrun.trans hrun'.symm, fun he => ?_⟩
    cases hrun.symm.trans he
    exact hends hp
  | ok ar =>
    obtain ⟨a, r⟩ := ar
    have hq : q s = .ok (a, r) := hsame.symm.trans hp
    obtain ⟨hsame', hends'⟩ := hf (a := a) (hgo.length hp)
    refine ⟨(bind_of_ok hp).trans (hsame'.trans (bind_of_ok hq).symm), fun he => ?_⟩
    exact hends' ((bind_of_ok hp).symm.trans he)

theorem ite {c : Prop} [Decidable c] {p' q' : Parser α} (hp : c → Agree p q s)
    (hq : ¬c → Agree p' q' s) : Agree (if c then p else p') (if c then q else q') s := by
  split
  · exact hp ‹_›
  · exact hq ‹_›

theorem look {look : Parser β} {f g : β → Parser α} {b : β} (hlook : look s = .ok (b, s))
    (h : Agree (f b) (g b) s) : Agree (look >>= f) (look >>= g) s := by
  refine ⟨(bind_of_ok hlook).trans (h.same.trans (bind_of_ok hlook).symm), fun he => ?_⟩
  exact h.ends ((bind_of_ok hlook).symm.trans he)

theorem skip (s : TokenStream) : Agree skip skip s := ⟨rfl, by rintro _ ⟨⟩⟩

theorem skip_bind {tok : Token} {f g : Unit → Parser α} (hnext : s.next? = some tok)
    (hf : ∀ {r}, r.tokens.length + 1 ≤ s.tokens.length → Agree (f ()) (g ()) r) :
    Agree (Parser.skip >>= f) (Parser.skip >>= g) s :=
  (skip s).bind (.skip hnext) hf

theorem skip_any_bind {f g : Unit → Parser α}
    (hf : ∀ {r}, r.tokens.length ≤ s.tokens.length → Agree (f ()) (g ()) r) :
    Agree (Parser.skip >>= f) (Parser.skip >>= g) s :=
  (skip s).bind (.skip_any s) hf

theorem one {Q : Token → α → Prop} (h : TakesOne Q p) (s : TokenStream) : Agree p p s := by
  refine ⟨rfl, fun {e} he => ?_⟩
  obtain ⟨tok, a, -, -, hrun⟩ | ⟨e', hrun, -, hsteps, -⟩ := h s
  · cases hrun.symm.trans he
  · cases hrun.symm.trans he
    exact hsteps

theorem one_bind {Q : Token → β → Prop} {p : Parser β} (h : TakesOne Q p) {f g : β → Parser α}
    (hf : ∀ {b r}, r.tokens.length + 1 ≤ s.tokens.length → Agree (f b) (g b) r) :
    Agree (p >>= f) (p >>= g) s :=
  (one h s).bind (.one h s) hf

theorem terminator (s : TokenStream) : Agree terminator terminator s := by
  refine ⟨rfl, fun {e} he => ?_⟩
  obtain ⟨-, hrun⟩ | hrun | ⟨found, hrun⟩ := terminator_cases s <;> cases hrun.symm.trans he
  simp

theorem orElse {Q : Token → Prop} {b : Parser Bool} {found goes found' goes' : Parser α}
    (hb : TakesIf Q b)
    (hfound : ∀ r, r.tokens.length + 1 ≤ s.tokens.length → Agree found found' r)
    (hgoes : Agree goes goes' s) :
    Agree (b >>= fun b => if b = true then found else goes)
      (b >>= fun b => if b = true then found' else goes') s := by
  obtain ⟨tok, hnext, -, hok⟩ | hok := hb s
  · have hlength : s.drop.tokens.length + 1 ≤ s.tokens.length :=
      (GoesOn.of_drop hnext hok).length hok
    obtain ⟨hsame, hends⟩ := hfound s.drop hlength
    have hrun : (b >>= fun b => if b = true then found else goes) s = found s.drop := bind_of_ok hok
    have hrun' : (b >>= fun b => if b = true then found' else goes') s = found' s.drop :=
      bind_of_ok hok
    refine ⟨hrun.trans (hsame.trans hrun'.symm), fun he => ?_⟩
    exact hends (hrun.symm.trans he)
  · exact look hok hgoes

theorem eat {symbol : Symbol} {found goes found' goes' : Parser α}
    (hfound : ∀ r, r.tokens.length + 1 ≤ s.tokens.length → Agree found found' r)
    (hgoes : Agree goes goes' s) :
    Agree (eat symbol >>= fun b => if b = true then found else goes)
      (Parser.eat symbol >>= fun b => if b = true then found' else goes') s :=
  orElse (takesIf_eat symbol) hfound hgoes

theorem eatWord {word : String} {found goes found' goes' : Parser α}
    (hfound : ∀ r, r.tokens.length + 1 ≤ s.tokens.length → Agree found found' r)
    (hgoes : Agree goes goes' s) :
    Agree (eatWord word >>= fun b => if b = true then found else goes)
      (Parser.eatWord word >>= fun b => if b = true then found' else goes') s :=
  orElse (takesIf_eatWord word) hfound hgoes

end Agree

section Expressions

/-- With steps for all tokens, the readers of expressions do the same with `fuel` steps as with
`more`. -/
structure ExprsAgree (fuel more : Nat) : Prop where
  exprAt (tier : Tier) {s : TokenStream} : 20 * s.tokens.length + 15 ≤ fuel + tier.rank →
    Agree (exprAt fuel tier) (exprAt more tier) s
  operands (tier : Tier) (left : Expr) {s : TokenStream} : 20 * s.tokens.length + 1 ≤ fuel →
    Agree (operands fuel tier left) (operands more tier left) s
  accesses (base : Expr) {s : TokenStream} : 20 * s.tokens.length + 1 ≤ fuel →
    Agree (accesses fuel base) (accesses more base) s
  primary {s : TokenStream} : 20 * s.tokens.length + 1 ≤ fuel →
    Agree (primary fuel) (primary more) s
  items (close : Symbol) {s : TokenStream} : 20 * s.tokens.length + 16 ≤ fuel →
    Agree (items fuel close) (items more close) s
  arguments {s : TokenStream} : 20 * s.tokens.length + 16 ≤ fuel →
    Agree (arguments fuel) (arguments more) s

namespace ExprsAgree

variable {fuel more : Nat} {s : TokenStream} (h : ExprsAgree fuel more)
include h

/-- An expression of a level takes a token at least. -/
theorem exprAt_bind (tier : Tier) {f g : Expr → Parser α}
    (hs : 20 * s.tokens.length + 15 ≤ fuel + tier.rank)
    (hf : ∀ {e r}, r.tokens.length + 1 ≤ s.tokens.length → Agree (f e) (g e) r) :
    Agree (Parser.exprAt fuel tier >>= f) (Parser.exprAt more tier >>= g) s :=
  (h.exprAt tier hs).bind ((exprsGoOn fuel).exprAt tier s) hf

theorem expr_bind {f g : Expr → Parser α} (hs : 20 * s.tokens.length + 15 ≤ fuel)
    (hf : ∀ {e r}, r.tokens.length + 1 ≤ s.tokens.length → Agree (f e) (g e) r) :
    Agree (Parser.exprAt fuel .orWord >>= f) (Parser.exprAt more .orWord >>= g) s :=
  h.exprAt_bind .orWord hs hf

theorem behind_bind (tier : Tier) {f g : Expr → Parser α} (hs : 20 * s.tokens.length + 15 ≤ fuel)
    (hf : ∀ {e r}, r.tokens.length + 1 ≤ s.tokens.length → Agree (f e) (g e) r) :
    Agree (Parser.exprAt fuel tier >>= f) (Parser.exprAt more tier >>= g) s :=
  h.exprAt_bind tier (Nat.le_add_right_of_le hs) hf

theorem items_bind (close : Symbol) {f g : List Item → Parser α}
    (hs : 20 * s.tokens.length + 16 ≤ fuel)
    (hf : ∀ {items r}, r.tokens.length + 1 ≤ s.tokens.length → Agree (f items) (g items) r) :
    Agree (Parser.items fuel close >>= f) (Parser.items more close >>= g) s :=
  (h.items close hs).bind ((exprsGoOn fuel).items close s) hf

theorem arguments_bind {f g : List Expr → Parser α} (hs : 20 * s.tokens.length + 16 ≤ fuel)
    (hf : ∀ {args r}, r.tokens.length + 1 ≤ s.tokens.length → Agree (f args) (g args) r) :
    Agree (Parser.arguments fuel >>= f) (Parser.arguments more >>= g) s :=
  (h.arguments hs).bind ((exprsGoOn fuel).arguments s) hf

theorem assignment_succ (hs : 20 * s.tokens.length + 15 ≤ fuel + 1 + Tier.assignment.rank) :
    Agree (Parser.exprAt (fuel + 1) .assignment) (Parser.exprAt (more + 1) .assignment) s := by
  simp only [Tier.rank] at hs
  rw [Parser.exprAt, Parser.exprAt]
  apply h.exprAt_bind .ternary
  · simp only [Tier.rank]
    omega
  intro target r hr
  refine .look (next?_run r) (.ite (fun _ => .ite (fun _ => ?_) fun _ => ?_) fun _ => ?_)
  · apply Agree.skip_any_bind
    intro t ht
    apply h.behind_bind .assignment (by omega)
    exact fun _ => .pure _ _
  · exact .fail (by simp)
  · exact .pure target r

theorem ternary_succ (hs : 20 * s.tokens.length + 15 ≤ fuel + 1 + Tier.ternary.rank) :
    Agree (Parser.exprAt (fuel + 1) .ternary) (Parser.exprAt (more + 1) .ternary) s := by
  simp only [Tier.rank] at hs
  rw [Parser.exprAt, Parser.exprAt]
  apply h.exprAt_bind .coalesce
  · simp only [Tier.rank]
    omega
  intro c r hr
  apply Agree.eat
  · intro t ht
    apply Agree.eat
    · intro u hu
      apply h.behind_bind .assignment (by omega)
      exact fun _ => .pure _ _
    · apply h.behind_bind .assignment (by omega)
      intro p u hu
      apply Agree.one_bind (takesOne_expect .colon)
      intro _ v hv
      apply h.behind_bind .assignment (by omega)
      exact fun _ => .pure _ _
  · exact .pure c r

theorem coalesce_succ (hs : 20 * s.tokens.length + 15 ≤ fuel + 1 + Tier.coalesce.rank) :
    Agree (Parser.exprAt (fuel + 1) .coalesce) (Parser.exprAt (more + 1) .coalesce) s := by
  simp only [Tier.rank] at hs
  rw [Parser.exprAt, Parser.exprAt]
  apply h.exprAt_bind .or
  · simp only [Tier.rank]
    omega
  intro l r hr
  apply Agree.eat
  · intro t ht
    apply h.behind_bind .coalesce (by omega)
    exact fun _ => .pure _ _
  · exact .pure l r

theorem unary_succ (hs : 20 * s.tokens.length + 15 ≤ fuel + 1 + Tier.unary.rank) :
    Agree (Parser.exprAt (fuel + 1) .unary) (Parser.exprAt (more + 1) .unary) s := by
  simp only [Tier.rank] at hs
  rw [Parser.exprAt, Parser.exprAt]
  refine .look (next?_run s) ?_
  split
  · rename_i op hop
    obtain ⟨tok, hnext, -⟩ := Option.bind_eq_some_iff.1 hop
    apply Agree.skip_bind hnext
    intro r hr
    apply h.behind_bind .unary (by omega)
    exact fun _ => .pure _ _
  · apply h.exprAt .access
    simp only [Tier.rank]
    omega

theorem exprAt_succ (tier : Tier) (hs : 20 * s.tokens.length + 15 ≤ fuel + 1 + tier.rank) :
    Agree (Parser.exprAt (fuel + 1) tier) (Parser.exprAt (more + 1) tier) s := by
  have hrank := tier.rank_le
  -- A tighter level needs one step less; the operators of a level stand behind an operand.
  have hchain (ht : tier ≠ .access) :
      Agree (Parser.exprAt fuel tier.tighter >>= Parser.operands fuel tier)
        (Parser.exprAt more tier.tighter >>= Parser.operands more tier) s := by
    apply h.exprAt_bind tier.tighter
    · rw [Tier.rank_tighter ht]
      omega
    intro left r hr
    exact h.operands tier left (by omega)
  cases tier with
  | assignment => exact h.assignment_succ hs
  | ternary => exact h.ternary_succ hs
  | coalesce => exact h.coalesce_succ hs
  | unary => exact h.unary_succ hs
  | access =>
    simp only [Tier.rank] at hs
    rw [Parser.exprAt, Parser.exprAt]
    apply (h.primary (by omega)).bind ((exprsGoOn fuel).primary s)
    intro base r hr
    exact h.accesses base (by omega)
  | orWord | andWord | or | and | equality | comparison | concat | additive | multiplicative =>
    exact hchain (by simp)

theorem operands_succ (tier : Tier) (left : Expr) (hs : 20 * s.tokens.length + 1 ≤ fuel + 1) :
    Agree (Parser.operands (fuel + 1) tier left) (Parser.operands (more + 1) tier left) s := by
  rw [Parser.operands, Parser.operands]
  refine .look (next?_run s) ?_
  split
  · rename_i op hop
    obtain ⟨tok, hnext, -⟩ := Option.bind_eq_some_iff.1 hop
    apply Agree.skip_bind hnext
    intro r hr
    apply h.behind_bind tier.tighter (by omega)
    intro right t ht
    exact h.operands tier _ (by omega)
  · exact .pure left s

theorem accesses_succ (base : Expr) (hs : 20 * s.tokens.length + 1 ≤ fuel + 1) :
    Agree (Parser.accesses (fuel + 1) base) (Parser.accesses (more + 1) base) s := by
  rw [Parser.accesses, Parser.accesses]
  apply Agree.eat
  · intro r hr
    apply Agree.eat
    · intro t ht
      exact h.accesses (.append base) (by omega)
    · apply h.expr_bind (by omega)
      intro key t ht
      apply Agree.one_bind (takesOne_expect .rightBracket)
      intro _ u hu
      exact h.accesses (.index base key) (by omega)
  · apply Agree.eat
    · intro r hr
      apply Agree.one_bind takesOne_propertyName
      intro name t ht
      exact h.accesses (.property base name) (by omega)
    · exact .pure base s

theorem primary_name (name : String) (hs : 20 * s.tokens.length + 1 ≤ fuel + 1)
    (hnext : s.next? = some (.name name)) :
    Agree (Parser.named fuel name) (Parser.named more name) s := by
  unfold Parser.named
  apply Agree.skip_bind hnext
  intro r hr
  dsimp only
  split
  · exact .pure _ r
  split
  · exact .pure _ r
  split
  · exact .pure _ r
  apply Agree.eat
  · intro t ht
    split
    · apply h.items_bind _ (by omega)
      exact fun _ => .pure _ _
    · apply h.arguments_bind (by omega)
      exact fun _ => .pure _ _
  · exact .pure _ r

theorem primary_succ (hs : 20 * s.tokens.length + 1 ≤ fuel + 1) :
    Agree (Parser.primary (fuel + 1)) (Parser.primary (more + 1)) s := by
  have hone (e : Expr) : Agree (do Parser.skip; return e) (do Parser.skip; return e) s :=
    Agree.skip_any_bind fun _ => .pure e _
  rw [Parser.primary, Parser.primary]
  refine .look (next?_run s) ?_
  split
  · exact hone _
  · exact hone _
  · exact hone _
  · exact hone _
  · exact hone _
  · apply Agree.skip_bind ‹_›
    intro r hr
    apply h.expr_bind (by omega)
    intro e t ht
    exact Agree.one_bind (takesOne_expect .rightParen) fun _ => .pure _ _
  · apply Agree.skip_bind ‹_›
    intro r hr
    apply h.items_bind _ (by omega)
    exact fun _ => .pure _ _
  · exact h.primary_name _ hs ‹_›
  · exact .refuse (by simp)

theorem behindItem (close : Symbol) (item : Item) (hs : 20 * s.tokens.length ≤ fuel) :
    Agree (Parser.behindItem fuel close item) (Parser.behindItem more close item) s := by
  unfold Parser.behindItem
  apply Agree.eat
  · intro r hr
    apply h.items_bind close (by omega)
    exact fun _ => .pure _ _
  · exact Agree.one_bind (takesOne_expect close) fun _ => .pure _ _

theorem items_succ (close : Symbol) (hs : 20 * s.tokens.length + 16 ≤ fuel + 1) :
    Agree (Parser.items (fuel + 1) close) (Parser.items (more + 1) close) s := by
  rw [Parser.items, Parser.items]
  apply Agree.eat
  · exact fun r _ => .pure [] r
  apply h.expr_bind (by omega)
  intro first r hr
  apply Agree.eat
  · intro t ht
    apply h.expr_bind (by omega)
    intro v u hu
    exact h.behindItem close (.keyed first v) (by omega)
  · exact h.behindItem close (.value first) (by omega)

theorem arguments_succ (hs : 20 * s.tokens.length + 16 ≤ fuel + 1) :
    Agree (Parser.arguments (fuel + 1)) (Parser.arguments (more + 1)) s := by
  rw [Parser.arguments, Parser.arguments]
  apply Agree.eat
  · exact fun r _ => .pure [] r
  apply h.expr_bind (by omega)
  intro e r hr
  apply Agree.eat
  · intro t ht
    apply h.arguments_bind (by omega)
    exact fun _ => .pure _ _
  · exact Agree.one_bind (takesOne_expect .rightParen) fun _ => .pure _ _

end ExprsAgree

theorem exprsAgree {fuel more : Nat} (hle : fuel ≤ more) : ExprsAgree fuel more := by
  induction fuel generalizing more with
  | zero =>
    refine ⟨fun tier s hs => ?_, ?_, ?_, ?_, ?_, ?_⟩
    · have := tier.rank_le
      omega
    all_goals intros; omega
  | succ fuel ih =>
    obtain ⟨more, rfl⟩ : ∃ n, more = n + 1 := ⟨more - 1, by omega⟩
    have h := ih (Nat.le_of_succ_le_succ hle)
    exact ⟨fun tier _ => h.exprAt_succ tier, fun tier left _ => h.operands_succ tier left,
      fun base _ => h.accesses_succ base, h.primary_succ, fun close _ => h.items_succ close,
      h.arguments_succ⟩

end Expressions

section Statements

/-- With steps for all tokens, the readers of statements do the same with `fuel` steps as with
`more`. -/
structure StmtsAgree (fuel more : Nat) : Prop where
  block (words : List String) {s : TokenStream} : 20 * s.tokens.length + 18 ≤ fuel →
    Agree (block fuel words) (block more words) s
  statement {s : TokenStream} : 20 * s.tokens.length + 17 ≤ fuel →
    Agree (statement fuel) (statement more) s
  alternatives {s : TokenStream} : 20 * s.tokens.length + 1 ≤ fuel →
    Agree (alternatives fuel) (alternatives more) s
  foreachAt (line : Nat) {s : TokenStream} : 20 * s.tokens.length + 1 ≤ fuel →
    Agree (foreachAt fuel line) (foreachAt more line) s

variable {fuel more : Nat} {s : TokenStream}

theorem exprs_agree (hle : fuel ≤ more) (hs : 20 * s.tokens.length + 16 ≤ fuel) :
    Agree (exprs fuel) (exprs more) s := by
  induction fuel generalizing more s with
  | zero => omega
  | succ fuel ih =>
    obtain ⟨more, rfl⟩ : ∃ n, more = n + 1 := ⟨more - 1, by omega⟩
    have hle := Nat.le_of_succ_le_succ hle
    rw [exprs, exprs]
    apply (exprsAgree hle).expr_bind (by omega)
    intro e r hr
    apply Agree.eat
    · intro t ht
      exact (ih hle (by omega)).bind (exprs_goesOn fuel t) fun _ => .pure _ _
    · exact .pure [e] r

theorem condition_agree (hle : fuel ≤ more) (hs : 20 * s.tokens.length ≤ fuel) :
    Agree (condition fuel) (condition more) s := by
  apply Agree.one_bind (takesOne_expect .leftParen)
  intro _ r hr
  apply (exprsAgree hle).expr_bind (by omega)
  intro e t ht
  apply Agree.one_bind (takesOne_expect .rightParen)
  intro _ u hu
  exact Agree.one_bind (takesOne_expect .colon) fun _ => .pure _ _

theorem terminator_bind {f g : Unit → Parser α}
    (hf : ∀ {r}, r.tokens.length ≤ s.tokens.length → Agree (f ()) (g ()) r) :
    Agree (terminator >>= f) (terminator >>= g) s :=
  (Agree.terminator s).bind (GoesOn.terminator s) hf

theorem terminator_agree (a : α) (s : TokenStream) :
    Agree (do terminator; return a) (do terminator; return a) s :=
  terminator_bind fun _ => .pure a _

theorem end_agree (word : String) (a : α) (s : TokenStream) :
    Agree (do expectWord word; terminator; return a) (do expectWord word; terminator; return a) s :=
  Agree.one_bind (takesOne_expectWord word) fun _ => terminator_agree a _

namespace StmtsAgree

variable (h : StmtsAgree fuel more)
include h

theorem block_bind (words : List String) {f g : List Stmt → Parser α}
    (hs : 20 * s.tokens.length + 18 ≤ fuel)
    (hf : ∀ {body r}, r.tokens.length ≤ s.tokens.length → Agree (f body) (g body) r) :
    Agree (Parser.block fuel words >>= f) (Parser.block more words >>= g) s :=
  (h.block words hs).bind ((stmtsGoOn fuel).block words s) hf

theorem alternatives_bind {f g : Alternatives → Parser α} (hs : 20 * s.tokens.length + 1 ≤ fuel)
    (hf : ∀ {rest r}, r.tokens.length + 1 ≤ s.tokens.length → Agree (f rest) (g rest) r) :
    Agree (Parser.alternatives fuel >>= f) (Parser.alternatives more >>= g) s :=
  (h.alternatives hs).bind ((stmtsGoOn fuel).alternatives s) hf

theorem conditional (hle : fuel ≤ more) (words : List String) {f g : Expr → List Stmt → Parser α}
    (hs : 20 * s.tokens.length ≤ fuel)
    (hf : ∀ c body r, r.tokens.length + 1 ≤ s.tokens.length → Agree (f c body) (g c body) r) :
    Agree (do
        let c ← condition fuel
        let body ← Parser.block fuel words
        f c body)
      (do
        let c ← condition more
        let body ← Parser.block more words
        g c body) s := by
  apply (condition_agree hle hs).bind (condition_goesOn fuel s)
  intro c r hr
  apply h.block_bind words (by omega)
  intro body t ht
  exact hf c body t (by omega)

theorem block_succ (words : List String) (hs : 20 * s.tokens.length + 18 ≤ fuel + 1) :
    Agree (Parser.block (fuel + 1) words) (Parser.block (more + 1) words) s := by
  rw [Parser.block, Parser.block]
  refine .look (next?_run s) ?_
  split
  · split
    · exact .fail (by simp)
    · exact .pure [] s
  · exact Agree.skip_bind ‹_› fun hr => h.block words (by omega)
  · exact Agree.skip_bind ‹_› fun hr => h.block words (by omega)
  · apply Agree.skip_bind ‹_›
    intro r hr
    apply h.block_bind words (by omega)
    exact fun _ => .pure _ _
  · refine .look rfl (.ite (fun _ => .pure [] s) fun _ => ?_)
    apply (h.statement (by omega)).bind ((stmtsGoOn fuel).statement s)
    intro stmt r hr
    apply h.block_bind words (by omega)
    exact fun _ => .pure _ _

theorem statement_succ (hle : fuel ≤ more) (hs : 20 * s.tokens.length + 17 ≤ fuel + 1) :
    Agree (Parser.statement (fuel + 1)) (Parser.statement (more + 1)) s := by
  have hexprs := exprsAgree hle
  rw [Parser.statement, Parser.statement]
  -- Each token that is taken gives back twenty steps, more than the reader behind it loses.
  refine .look rfl ?_
  apply Agree.eatWord
  · intro r hr
    apply (exprs_agree hle (by omega)).bind (exprs_goesOn fuel r)
    exact fun _ => terminator_agree _ _
  apply Agree.eatWord
  · intro r hr
    apply h.conditional hle _ (by omega)
    intro c body t ht
    exact h.alternatives_bind (by omega) fun _ => .pure _ _
  apply Agree.eatWord
  · intro r hr
    apply h.conditional hle _ (by omega)
    intro c body t ht
    exact end_agree "endwhile" _ t
  apply Agree.eatWord
  · intro r hr
    exact h.foreachAt _ (by omega)
  apply Agree.eatWord
  · exact fun r _ => terminator_agree _ r
  apply Agree.eatWord
  · exact fun r _ => terminator_agree _ r
  apply Agree.eatWord
  · intro r hr
    exact hexprs.expr_bind (by omega) fun _ => terminator_agree _ _
  refine .look rfl (.ite (fun _ => ?_) fun _ => .look rfl ?_)
  · apply Agree.skip_any_bind
    intro r hr
    apply Agree.skip_any_bind
    intro t ht
    apply hexprs.arguments_bind (by omega)
    intro targets u hu
    split
    · exact .fail (by simp)
    · exact terminator_agree _ u
  · split
    · exact .fail (by simp)
    · exact hexprs.expr_bind (by omega) fun _ => terminator_agree _ _

theorem alternatives_succ (hle : fuel ≤ more) (hs : 20 * s.tokens.length + 1 ≤ fuel + 1) :
    Agree (Parser.alternatives (fuel + 1)) (Parser.alternatives (more + 1)) s := by
  rw [Parser.alternatives, Parser.alternatives]
  apply Agree.eatWord
  · intro r hr
    apply h.conditional hle _ (by omega)
    intro c body t ht
    exact h.alternatives_bind (by omega) fun _ => .pure _ _
  apply Agree.eatWord
  · intro r hr
    apply Agree.one_bind (takesOne_expect .colon)
    intro _ t ht
    exact h.block_bind _ (by omega) fun _ => end_agree "endif" _ _
  · exact end_agree "endif" _ s

theorem behindLoopVariables {finish : List Stmt → Parser Stmt}
    (hs : 20 * s.tokens.length ≤ fuel + 1)
    (hfinish : ∀ body r, Agree (finish body) (finish body) r) :
    Agree (Parser.behindLoopVariables fuel finish) (Parser.behindLoopVariables more finish) s := by
  apply Agree.one_bind (takesOne_expect .rightParen)
  intro _ r hr
  apply Agree.one_bind (takesOne_expect .colon)
  intro _ t ht
  apply h.block_bind _ (by omega)
  intro body u _
  apply Agree.one_bind (takesOne_expectWord "endforeach")
  intro _ v _
  exact terminator_bind fun _ => hfinish body _

theorem foreachAt_succ (hle : fuel ≤ more) (line : Nat) (hs : 20 * s.tokens.length + 1 ≤ fuel + 1) :
    Agree (Parser.foreachAt (fuel + 1) line) (Parser.foreachAt (more + 1) line) s := by
  rw [Parser.foreachAt, Parser.foreachAt]
  apply Agree.one_bind (takesOne_expect .leftParen)
  intro _ r hr
  apply (exprsAgree hle).expr_bind (by omega)
  intro subject t ht
  apply Agree.one_bind (takesOne_expectWord "as")
  intro _ u hu
  apply Agree.one_bind takesOne_loopVariable
  intro first v hv
  apply Agree.eat
  · intro w hw
    rw [map_eq_pure_bind, bind_assoc, bind_assoc]
    apply Agree.one_bind takesOne_loopVariable
    intro second x hx
    rw [pure_bind, pure_bind]
    apply h.behindLoopVariables (by omega)
    exact fun body y => .pure _ y
  · rw [pure_bind, pure_bind]
    apply h.behindLoopVariables (by omega)
    exact fun body y => .pure _ y

end StmtsAgree

theorem stmtsAgree {fuel more : Nat} (hle : fuel ≤ more) : StmtsAgree fuel more := by
  induction fuel generalizing more with
  | zero => refine ⟨?_, ?_, ?_, ?_⟩ <;> intros <;> omega
  | succ fuel ih =>
    obtain ⟨more, rfl⟩ : ∃ n, more = n + 1 := ⟨more - 1, by omega⟩
    have hle := Nat.le_of_succ_le_succ hle
    have h := ih hle
    exact ⟨fun words _ => h.block_succ words, h.statement_succ hle, h.alternatives_succ hle,
      fun line _ => h.foreachAt_succ hle line⟩

end Statements

/-- With the steps that `Program.parse` allows, a reader comes to an end from `s`: it does not fail
for want of steps, and with more steps it does the same. -/
def Finishes (p : Nat → Parser α) (s : TokenStream) : Prop :=
  ∀ fuel, parseSteps s.tokens.length ≤ fuel → Agree (p (parseSteps s.tokens.length)) (p fuel) s

/-- From `s` all readers come to an end. -/
structure AllFinish (s : TokenStream) : Prop where
  exprAt (tier : Tier) : Finishes (exprAt · tier) s
  operands (tier : Tier) (left : Expr) : Finishes (operands · tier left) s
  accesses (base : Expr) : Finishes (accesses · base) s
  primary : Finishes primary s
  items (close : Symbol) : Finishes (items · close) s
  arguments : Finishes arguments s
  exprs : Finishes exprs s
  condition : Finishes condition s
  block (words : List String) : Finishes (block · words) s
  statement : Finishes statement s
  alternatives : Finishes alternatives s
  foreachAt (line : Nat) : Finishes (foreachAt · line) s

theorem allFinish (s : TokenStream) : AllFinish s where
  exprAt tier _ hle := (exprsAgree hle).exprAt tier (by unfold parseSteps; omega)
  operands tier left _ hle := (exprsAgree hle).operands tier left (by unfold parseSteps; omega)
  accesses base _ hle := (exprsAgree hle).accesses base (by unfold parseSteps; omega)
  primary _ hle := (exprsAgree hle).primary (by unfold parseSteps; omega)
  items close _ hle := (exprsAgree hle).items close (by unfold parseSteps; omega)
  arguments _ hle := (exprsAgree hle).arguments (by unfold parseSteps; omega)
  exprs _ hle := exprs_agree hle (by unfold parseSteps; omega)
  condition _ hle := condition_agree hle (by unfold parseSteps; omega)
  block words _ hle := (stmtsAgree hle).block words (by unfold parseSteps; omega)
  statement _ hle := (stmtsAgree hle).statement (by unfold parseSteps; omega)
  alternatives _ hle := (stmtsAgree hle).alternatives (by unfold parseSteps; omega)
  foreachAt line _ hle := (stmtsAgree hle).foreachAt line (by unfold parseSteps; omega)

end Parser

section Source

variable {α β : Type} {cs : List Char} {line : Nat}

/-- What is read does not fail for want of steps. -/
def HasSteps (x : Except SyntaxError α) : Prop := ∀ e, x = .error e → e.fault ≠ .tooDeep

theorem hasSteps_ok (a : α) : HasSteps (.ok a : Except SyntaxError α) := nofun

theorem hasSteps_error {fault : SyntaxFault} (h : fault ≠ .tooDeep) :
    HasSteps (.error ⟨line, fault⟩ : Except SyntaxError α) := by
  rintro _ ⟨⟩
  exact h

theorem HasSteps.bind {x : Except SyntaxError α} {f : α → Except SyntaxError β} (h : HasSteps x)
    (hf : ∀ a, HasSteps (f a)) : HasSteps (x >>= f) := by
  cases x with
  | error e =>
    rintro _ ⟨⟩
    exact h _ rfl
  | ok a => exact hf a

theorem HasSteps.map {x : Except SyntaxError α} {f : α → β} (h : HasSteps x) :
    HasSteps (x.map f) := by
  cases x with
  | error e =>
    rintro _ ⟨⟩
    exact h _ rfl
  | ok a => exact hasSteps_ok _

theorem hasSteps_skipTrivia (inside : Bool) : HasSteps (skipTrivia inside cs line) := by
  fun_induction skipTrivia inside cs line with
  | case1 => exact hasSteps_error (by simp)
  | case2 | case7 => exact hasSteps_ok _
  | case3 line more ih | case5 line more ih => exact ih
  | case4 line c rest _ ih | case6 line c rest _ _ ih => exact ih

theorem hasSteps_singleQuoted : HasSteps (singleQuoted cs line) := by
  fun_induction singleQuoted cs line with
  | case1 => exact hasSteps_error (by simp)
  | case2 => exact hasSteps_ok _
  | case3 line more ih | case4 line more ih => exact ih.bind fun _ => hasSteps_ok _
  | case5 line c rest _ _ _ ih => exact ih.bind fun _ => hasSteps_ok _

theorem hasSteps_doubleQuoted : HasSteps (doubleQuoted cs line) := by
  fun_induction doubleQuoted cs line with
  | case1 => exact hasSteps_error (by simp)
  | case2 => exact hasSteps_ok _
  | case3 line d rest e he ih => exact ih.bind fun _ => hasSteps_ok _
  | case4 line d rest _ ih => exact ih.bind fun _ => hasSteps_ok _
  | case5 line c rest _ _ hc =>
    rename_i ih
    exact ih.bind fun _ => hasSteps_ok _
  | case6 line c rest _ _ hc ih => exact ih.bind fun _ => hasSteps_ok _

theorem hasSteps_numeralToken (digits : List Char) (isFloat : Bool) :
    HasSteps (numeralToken digits isFloat line) := by
  unfold numeralToken
  split
  · exact hasSteps_ok _
  · split
    · exact hasSteps_ok _
    · exact hasSteps_error (by simp)

theorem hasSteps_nextToken (c : Char) : HasSteps (nextToken c cs line) := by
  unfold nextToken
  split
  · split
    · exact hasSteps_error (by simp)
    · exact hasSteps_ok _
  split
  · exact hasSteps_ok _
  split
  · exact (hasSteps_numeralToken _ _).bind fun _ => hasSteps_ok _
  split
  · exact hasSteps_singleQuoted.bind fun _ => hasSteps_ok _
  split
  · exact hasSteps_doubleQuoted.bind fun _ => hasSteps_ok _
  split
  · exact hasSteps_ok _
  · exact hasSteps_error (by simp)

/-- Cutting a source into tokens takes no counted steps. -/
theorem hasSteps_scanText (cs : List Char) (line : Nat) : HasSteps (scanText cs line) := by
  induction cs, line using scanText.induct (fun cs line => HasSteps (scanCode cs line)) with
  | case1 cs line e hskip =>
    rw [scanCode_eq, hskip]
    rintro _ ⟨⟩
    exact hasSteps_skipTrivia _ _ hskip
  | case2 cs line l hskip =>
    rw [scanCode_eq, hskip]
    exact hasSteps_error (by simp)
  | case3 cs line c rest l hskip r hclose ih =>
    rw [scanCode_eq, hskip]
    simp only [scanToken, hclose]
    exact ih.map
  | case4 cs line c rest l hskip hclose e htoken =>
    rw [scanCode_eq, hskip]
    simp only [scanToken, hclose, htoken]
    rintro _ ⟨⟩
    exact hasSteps_nextToken _ _ htoken
  | case5 cs line c rest l hskip hclose t r m htoken ih =>
    rw [scanCode_eq, hskip]
    simp only [scanToken, hclose, htoken]
    exact ih.map
  | case6 cs line text r l htext =>
    rw [scanText_eq htext]
    exact hasSteps_ok _
  | case7 cs line text r l htext _ ih =>
    rw [scanText_eq htext]
    exact ih.map

theorem hasSteps_parse (source : String) : HasSteps (Program.parse source) := by
  refine (hasSteps_scanText source.toList 1).bind fun s => ?_
  have hbody : HasSteps ((Parser.block (parseSteps s.tokens.length) []).run s) :=
    fun _ he => ((Parser.allFinish s).block [] _ (Nat.le_refl _)).ends he
  exact hbody.bind fun _ => hasSteps_ok _

end Source

/-- Reading goes on. Every reader of an expression or a statement that answers has taken a token;
none goes back, and one that fails shows a token that is not behind it. So no reader needs more
steps than it is given: with those for the tokens to come it finishes, more change nothing, and
every source is read or refused. -/
theorem reading_goes_on_and_finishes :
    (Parser.StepsGoOn ∧ ∀ fuel, Parser.ExprsGoOn fuel ∧ Parser.StmtsGoOn fuel ∧
      ∀ s, Parser.GoesOn 1 (Parser.exprs fuel) s ∧ Parser.GoesOn 1 (Parser.condition fuel) s) ∧
    (∀ s, Parser.AllFinish s) ∧
    ∀ source, (∃ p, Program.parse source = .ok p) ∨
      ∃ e, Program.parse source = .error e ∧ e.fault ≠ .tooDeep := by
  refine ⟨⟨Parser.stepsGoOn, fun fuel => ⟨Parser.exprsGoOn fuel, Parser.stmtsGoOn fuel,
    fun s => ?_⟩⟩, Parser.allFinish, fun source => ?_⟩
  · exact ⟨Parser.exprs_goesOn fuel s, Parser.condition_goesOn fuel s⟩
  · cases hparse : Program.parse source with
    | ok p => exact .inl ⟨p, rfl⟩
    | error e => exact .inr ⟨e, rfl, hasSteps_parse source _ hparse⟩

end ViewTemplate.Code
