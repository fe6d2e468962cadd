import ViewTemplate.Proofs.Code.Reading
import ViewTemplate.Proofs.Code.WellFormed

namespace ViewTemplate.Code

variable {Q R : Expr → Prop}

section Each

mutual

/-- An expression and all expressions in it satisfy a predicate. -/
def Expr.Each (Q : Expr → Prop) : Expr → Prop
  | .literal v => Q (.literal v)
  | .var name => Q (.var name)
  | .interpolated parts => Q (.interpolated parts)
  | .array items => Q (.array items) ∧ EachItem Q items
  | .index base key => Q (.index base key) ∧ base.Each Q ∧ key.Each Q
  | .append base => Q (.append base) ∧ base.Each Q
  | .property base name => Q (.property base name) ∧ base.Each Q
  | .call name args => Q (.call name args) ∧ EachExpr Q args
  | .constant name => Q (.constant name)
  | .unary op e => Q (.unary op e) ∧ e.Each Q
  | .binary op l r => Q (.binary op l r) ∧ l.Each Q ∧ r.Each Q
  | .ternary c p n => Q (.ternary c p n) ∧ c.Each Q ∧ p.Each Q ∧ n.Each Q
  | .fallback c n => Q (.fallback c n) ∧ c.Each Q ∧ n.Each Q
  | .coalesce l r => Q (.coalesce l r) ∧ l.Each Q ∧ r.Each Q
  | .assign target v => Q (.assign target v) ∧ target.Each Q ∧ v.Each Q

def Item.Each (Q : Expr → Prop) : Item → Prop
  | .value v => v.Each Q
  | .keyed k v => k.Each Q ∧ v.Each Q

def EachItem (Q : Expr → Prop) : List Item → Prop
  | [] => True
  | item :: more => item.Each Q ∧ EachItem Q more

def EachExpr (Q : Expr → Prop) : List Expr → Prop
  | [] => True
  | e :: more => e.Each Q ∧ EachExpr Q more

end

mutual

/-- All expressions in a statement satisfy a predicate. -/
def Stmt.Each (Q : Expr → Prop) : Stmt → Prop
  | .text _ | .break _ | .continue _ => True
  | .echo es => EachExpr Q es
  | .expr e => e.Each Q
  | .unset targets => EachExpr Q targets
  | .cond c body rest => c.Each Q ∧ EachStmt Q body ∧ rest.Each Q
  | .loop c body => c.Each Q ∧ EachStmt Q body
  | .foreach subject _ _ body _ => subject.Each Q ∧ EachStmt Q body
  | .include target _ => target.Each Q

def Alternatives.Each (Q : Expr → Prop) : Alternatives → Prop
  | .none => True
  | .otherwise body => EachStmt Q body
  | .elseIf c body rest => c.Each Q ∧ EachStmt Q body ∧ rest.Each Q

def EachStmt (Q : Expr → Prop) : List Stmt → Prop
  | [] => True
  | stmt :: more => stmt.Each Q ∧ EachStmt Q more

end

def Program.Each (Q : Expr → Prop) (p : Program) : Prop := EachStmt Q p.body

theorem Expr.Each.self : ∀ {e : Expr}, e.Each Q → Q e
  | .literal _, h | .var _, h | .interpolated _, h | .constant _, h => h
  | .array _, h | .index .., h | .append _, h | .property .., h | .call .., h | .unary .., h
  | .binary .., h | .ternary .., h | .fallback .., h | .coalesce .., h | .assign .., h => h.1

mutual

/-- What is true of every expression is true of all in one. -/
theorem Expr.each_of_forall (hQ : ∀ e, Q e) : ∀ e : Expr, e.Each Q
  | .literal _ | .var _ | .interpolated _ | .constant _ => hQ _
  | .array items => ⟨hQ _, eachItem_of_forall hQ items⟩
  | .index base key => ⟨hQ _, base.each_of_forall hQ, key.each_of_forall hQ⟩
  | .append base => ⟨hQ _, base.each_of_forall hQ⟩
  | .property base _ => ⟨hQ _, base.each_of_forall hQ⟩
  | .call _ args => ⟨hQ _, eachExpr_of_forall hQ args⟩
  | .unary _ e => ⟨hQ _, e.each_of_forall hQ⟩
  | .binary _ l r => ⟨hQ _, l.each_of_forall hQ, r.each_of_forall hQ⟩
  | .ternary c p n => ⟨hQ _, c.each_of_forall hQ, p.each_of_forall hQ, n.each_of_forall hQ⟩
  | .fallback c n => ⟨hQ _, c.each_of_forall hQ, n.each_of_forall hQ⟩
  | .coalesce l r => ⟨hQ _, l.each_of_forall hQ, r.each_of_forall hQ⟩
  | .assign target v => ⟨hQ _, target.each_of_forall hQ, v.each_of_forall hQ⟩

theorem eachItem_of_forall (hQ : ∀ e, Q e) : ∀ items : List Item, EachItem Q items
  | [] => trivial
  | .value v :: more => ⟨v.each_of_forall hQ, eachItem_of_forall hQ more⟩
  | .keyed k v :: more => ⟨⟨k.each_of_forall hQ, v.each_of_forall hQ⟩, eachItem_of_forall hQ more⟩

theorem eachExpr_of_forall (hQ : ∀ e, Q e) : ∀ es : List Expr, EachExpr Q es
  | [] => trivial
  | e :: more => ⟨e.each_of_forall hQ, eachExpr_of_forall hQ more⟩

end

mutual

theorem Expr.Each.imp (hQR : ∀ e : Expr, e.Each Q → R e) : ∀ {e : Expr}, e.Each Q → e.Each R
  | .literal _, h | .var _, h | .interpolated _, h | .constant _, h => hQR _ h
  | .array _, h => ⟨hQR _ h, EachItem.imp hQR h.2⟩
  | .index .., h => ⟨hQR _ h, h.2.1.imp hQR, h.2.2.imp hQR⟩
  | .append _, h => ⟨hQR _ h, h.2.imp hQR⟩
  | .property .., h => ⟨hQR _ h, h.2.imp hQR⟩
  | .call .., h => ⟨hQR _ h, EachExpr.imp hQR h.2⟩
  | .unary .., h => ⟨hQR _ h, h.2.imp hQR⟩
  | .binary .., h => ⟨hQR _ h, h.2.1.imp hQR, h.2.2.imp hQR⟩
  | .ternary .., h => ⟨hQR _ h, h.2.1.imp hQR, h.2.2.1.imp hQR, h.2.2.2.imp hQR⟩
  | .fallback .., h => ⟨hQR _ h, h.2.1.imp hQR, h.2.2.imp hQR⟩
  | .coalesce .., h => ⟨hQR _ h, h.2.1.imp hQR, h.2.2.imp hQR⟩
  | .assign .., h => ⟨hQR _ h, h.2.1.imp hQR, h.2.2.imp hQR⟩

theorem Item.Each.imp (hQR : ∀ e : Expr, e.Each Q → R e) :
    ∀ {item : Item}, item.Each Q → item.Each R
  | .value _, h => Expr.Each.imp hQR h
  | .keyed .., h => ⟨h.1.imp hQR, h.2.imp hQR⟩

theorem EachItem.imp (hQR : ∀ e : Expr, e.Each Q → R e) :
    ∀ {items : List Item}, EachItem Q items → EachItem R items
  | [], _ => trivial
  | _ :: _, h => ⟨h.1.imp hQR, EachItem.imp hQR h.2⟩

theorem EachExpr.imp (hQR : ∀ e : Expr, e.Each Q → R e) :
    ∀ {es : List Expr}, EachExpr Q es → EachExpr R es
  | [], _ => trivial
  | _ :: _, h => ⟨h.1.imp hQR, EachExpr.imp hQR h.2⟩

end

mutual

theorem Stmt.Each.imp (hQR : ∀ e : Expr, e.Each Q → R e) :
    ∀ {stmt : Stmt}, stmt.Each Q → stmt.Each R
  | .text _, _ | .break _, _ | .continue _, _ => trivial
  | .echo _, h => EachExpr.imp hQR h
  | .expr _, h => Expr.Each.imp hQR h
  | .unset _, h => EachExpr.imp hQR h
  | .cond .., h => ⟨h.1.imp hQR, EachStmt.imp hQR h.2.1, h.2.2.imp hQR⟩
  | .loop .., h => ⟨h.1.imp hQR, EachStmt.imp hQR h.2⟩
  | .foreach .., h => ⟨h.1.imp hQR, EachStmt.imp hQR h.2⟩
  | .include .., h => Expr.Each.imp hQR h

theorem Alternatives.Each.imp (hQR : ∀ e : Expr, e.Each Q → R e) :
    ∀ {rest : Alternatives}, rest.Each Q → rest.Each R
  | .none, _ => trivial
  | .otherwise _, h => EachStmt.imp hQR h
  | .elseIf .., h => ⟨h.1.imp hQR, EachStmt.imp hQR h.2.1, h.2.2.imp hQR⟩

theorem EachStmt.imp (hQR : ∀ e : Expr, e.Each Q → R e) :
    ∀ {body : List Stmt}, EachStmt Q body → EachStmt R body
  | [], _ => trivial
  | _ :: _, h => ⟨h.1.imp hQR, EachStmt.imp hQR h.2⟩

end

end Each

/-- A predicate on expressions that holds of each node that is built from tokens in `T`. -/
structure Builds (T : Token → Prop) (Q : Expr → Prop) : Prop where
  null : Q (.literal .null)
  bool (b : Bool) : Q (.literal (.bool b))
  int {n : Int64} : T (.int n) → Q (.literal (.int n))
  float {x : Float} : T (.float x) → Q (.literal (.float x))
  string {s : String} : T (.string s) → Q (.literal (.string s))
  var {name : String} : T (.var name) → Q (.var name)
  interpolated {parts : List StringPart} : T (.template parts) → Q (.interpolated parts)
  array (items : List Item) : Q (.array items)
  index (base key : Expr) : Q (.index base key)
  append (base : Expr) : Q (.append base)
  property (base : Expr) {name : String} : T (.name name) → Q (.property base name)
  call {name : String} (args : List Expr) : T (.name name) →
    Text.lowerAscii name ∉ "array" :: valueNames → Q (.call (Text.lowerAscii name) args)
  constant {name : String} : T (.name name) → Text.lowerAscii name ∉ valueNames → Q (.constant name)
  unary (op : UnaryOp) (e : Expr) : Q (.unary op e)
  binary (op : BinaryOp) (l r : Expr) : Q (.binary op l r)
  ternary (c p n : Expr) : Q (.ternary c p n)
  fallback (c n : Expr) : Q (.fallback c n)
  coalesce (l r : Expr) : Q (.coalesce l r)
  assign {target : Expr} (v : Expr) : target.isPlace = true → Q (.assign target v)

namespace Parser

variable {α β : Type} {T : Token → Prop}

/-- All tokens to come satisfy a predicate. -/
def Holds (T : Token → Prop) (s : TokenStream) : Prop := ∀ t ∈ s.tokens, T t.token

/-- What a reader answers from tokens in `T`, and leaves such tokens. -/
def Answers (T : Token → Prop) (p : Parser α) (post : α → Prop) : Prop :=
  ∀ s a r, Holds T s → p s = .ok (a, r) → Holds T r ∧ post a

theorem holds_drop {s : TokenStream} (h : Holds T s) : Holds T s.drop :=
  fun t ht => h t (List.mem_of_mem_drop ht)

theorem holds_next {s : TokenStream} {t : Token} (h : Holds T s) (ht : s.next? = some t) : T t := by
  obtain ⟨l, hl, rfl⟩ := Option.map_eq_some_iff.mp ht
  exact h l (List.mem_of_head? hl)

namespace Answers

variable {p : Parser α} {post : α → Prop}

theorem pure {a : α} (h : post a) : Answers T (pure a) post := by
  rintro s _ _ hs ⟨⟩
  exact ⟨hs, h⟩

theorem bind {f : α → Parser β} {post' : β → Prop} (h : Answers T p post)
    (hf : ∀ a, post a → Answers T (f a) post') : Answers T (p >>= f) post' := by
  intro s b r hs hrun
  obtain ⟨⟨a, t⟩, hp, hb⟩ := exists_of_bind_eq_ok (x := p s) hrun
  obtain ⟨ht, ha⟩ := h s a t hs hp
  exact hf a ha t b r ht hb

theorem imp {post' : α → Prop} (h : Answers T p post) (himp : ∀ a, post a → post' a) :
    Answers T p post' :=
  fun s a r hs hrun => (h s a r hs hrun).imp_right (himp a)

theorem fail (fault : SyntaxFault) : Answers T (fail fault : Parser α) post := by
  rintro _ _ _ _ ⟨⟩

theorem refuse (fault : Option Token → SyntaxFault) : Answers T (refuse fault : Parser α) post := by
  rintro _ _ _ _ ⟨⟩

theorem next? : Answers T next? fun t => ∀ t', t = some t' → T t' := by
  rintro s _ _ hs ⟨⟩
  exact ⟨hs, fun _ => holds_next hs⟩

theorem line : Answers T line fun _ => True := by
  rintro s _ _ hs ⟨⟩
  exact ⟨hs, trivial⟩

theorem word? : Answers T word? fun _ => True := by
  rintro s _ _ hs ⟨⟩
  exact ⟨hs, trivial⟩

theorem startsUnset : Answers T startsUnset fun _ => True := by
  rintro s _ _ hs ⟨⟩
  exact ⟨hs, trivial⟩

theorem skip : Answers T skip fun _ => True := by
  rintro s _ _ hs ⟨⟩
  exact ⟨holds_drop hs, trivial⟩

theorem one {R : Token → α → Prop} (h : TakesOne R p) :
    Answers T p fun a => ∃ tok, T tok ∧ R tok a := by
  intro s a r hs hrun
  obtain ⟨tok, b, hnext, hR, hok⟩ | ⟨e, herror, -⟩ := h s
  · cases hok.symm.trans hrun
    exact ⟨holds_drop hs, tok, holds_next hs hnext, hR⟩
  · cases herror.symm.trans hrun

theorem expect (symbol : Symbol) : Answers T (expect symbol) fun _ => True :=
  (one (takesOne_expect symbol)).imp fun _ _ => trivial

theorem expectWord (word : String) : Answers T (expectWord word) fun _ => True :=
  (one (takesOne_expectWord word)).imp fun _ _ => trivial

theorem loopVariable : Answers T loopVariable fun name => T (.var name) := by
  apply (one takesOne_loopVariable).imp
  rintro name ⟨_, hT, rfl⟩
  exact hT

theorem propertyName : Answers T propertyName fun name => T (.name name) := by
  apply (one takesOne_propertyName).imp
  rintro name ⟨_, hT, rfl⟩
  exact hT

theorem terminator : Answers T terminator fun _ => True := by
  intro s a r hs hrun
  obtain ⟨-, hok⟩ | hok | ⟨found, herror⟩ := terminator_cases s
  · cases hok.symm.trans hrun
    exact ⟨holds_drop hs, trivial⟩
  · cases hok.symm.trans hrun
    exact ⟨hs, trivial⟩
  · cases herror.symm.trans hrun

theorem ite {c : Prop} [Decidable c] {q : Parser α} (hp : c → Answers T p post)
    (hq : ¬c → Answers T q post) : Answers T (if c then p else q) post := by
  split
  · exact hp ‹_›
  · exact hq ‹_›

theorem after {q : Parser β} {f : β → Parser α} {Q : β → Prop} (hq : Answers T q Q)
    (hf : ∀ b, Answers T (f b) post) : Answers T (q >>= f) post :=
  hq.bind fun b _ => hf b

theorem orElse {R : Token → Prop} {q : Parser Bool} {found goes : Parser α} (hq : TakesIf R q)
    (hfound : Answers T found post) (hgoes : Answers T goes post) :
    Answers T (q >>= fun b => if b = true then found else goes) post := by
  intro s a r hs hrun
  obtain ⟨tok, -, -, hok⟩ | hok := hq s
  · rw [bind_of_ok hok, if_pos rfl] at hrun
    exact hfound s.drop a r (holds_drop hs) hrun
  · rw [bind_of_ok hok, if_neg Bool.false_ne_true] at hrun
    exact hgoes s a r hs hrun

theorem eat {symbol : Symbol} {found goes : Parser α} (hfound : Answers T found post)
    (hgoes : Answers T goes post) :
    Answers T (eat symbol >>= fun b => if b = true then found else goes) post :=
  orElse (takesIf_eat symbol) hfound hgoes

theorem eatWord {word : String} {found goes : Parser α} (hfound : Answers T found post)
    (hgoes : Answers T goes post) :
    Answers T (eatWord word >>= fun b => if b = true then found else goes) post :=
  orElse (takesIf_eatWord word) hfound hgoes

end Answers

section Expressions

/-- The readers of expressions with so many steps answer expressions all of whose nodes
satisfy `Q`. -/
structure AnswerEach (T : Token → Prop) (Q : Expr → Prop) (fuel : Nat) : Prop where
  exprAt (tier : Tier) : Answers T (exprAt fuel tier) (Expr.Each Q)
  operands (tier : Tier) {left : Expr} : left.Each Q →
    Answers T (operands fuel tier left) (Expr.Each Q)
  accesses {base : Expr} : base.Each Q → Answers T (accesses fuel base) (Expr.Each Q)
  primary : Answers T (primary fuel) (Expr.Each Q)
  items (close : Symbol) : Answers T (items fuel close) (EachItem Q)
  arguments : Answers T (arguments fuel) (EachExpr Q)

variable {fuel : Nat} (hQ : Builds T Q)

namespace AnswerEach

variable (h : AnswerEach T Q fuel)
include hQ h

theorem assignment_succ : Answers T (Parser.exprAt (fuel + 1) .assignment) (Expr.Each Q) := by
  rw [Parser.exprAt]
  apply (h.exprAt .ternary).bind
  intro target htarget
  apply Answers.next?.after
  intro next
  refine .ite (fun _ => .ite (fun hplace => ?_) fun _ => .fail _) fun _ => .pure htarget
  apply Answers.skip.after
  intro _
  apply (h.exprAt .assignment).bind
  intro v hv
  exact .pure ⟨hQ.assign v hplace, htarget, hv⟩

theorem ternary_succ : Answers T (Parser.exprAt (fuel + 1) .ternary) (Expr.Each Q) := by
  rw [Parser.exprAt]
  apply (h.exprAt .coalesce).bind
  intro c hc
  apply Answers.eat
  · apply Answers.eat
    · apply (h.exprAt .assignment).bind
      intro n hn
      exact .pure ⟨hQ.fallback c n, hc, hn⟩
    · apply (h.exprAt .assignment).bind
      intro p hp
      apply (Answers.expect .colon).after
      intro _
      apply (h.exprAt .assignment).bind
      intro n hn
      exact .pure ⟨hQ.ternary c p n, hc, hp, hn⟩
  · exact .pure hc

theorem coalesce_succ : Answers T (Parser.exprAt (fuel + 1) .coalesce) (Expr.Each Q) := by
  rw [Parser.exprAt]
  apply (h.exprAt .or).bind
  intro l hl
  apply Answers.eat
  · apply (h.exprAt .coalesce).bind
    intro r hr
    exact .pure ⟨hQ.coalesce l r, hl, hr⟩
  · exact .pure hl

theorem unary_succ : Answers T (Parser.exprAt (fuel + 1) .unary) (Expr.Each Q) := by
  rw [Parser.exprAt]
  apply Answers.next?.after
  intro next
  split
  · rename_i op _
    apply Answers.skip.after
    intro _
    apply (h.exprAt .unary).bind
    intro e he
    exact .pure ⟨hQ.unary op e, he⟩
  · exact h.exprAt .access

theorem exprAt_succ (tier : Tier) : Answers T (Parser.exprAt (fuel + 1) tier) (Expr.Each Q) := by
  have hchain (t : Tier) : Answers T (Parser.exprAt fuel t.tighter >>= Parser.operands fuel t)
      (Expr.Each Q) := (h.exprAt t.tighter).bind fun _ hl => h.operands t hl
  cases tier with
  | assignment => exact h.assignment_succ hQ
  | ternary => exact h.ternary_succ hQ
  | coalesce => exact h.coalesce_succ hQ
  | unary => exact h.unary_succ hQ
  | access =>
    rw [Parser.exprAt]
    exact h.primary.bind fun _ he => h.accesses he
  | orWord | andWord | or | and | equality | comparison | concat | additive | multiplicative =>
    exact hchain _

theorem operands_succ (tier : Tier) {left : Expr} (hleft : left.Each Q) :
    Answers T (Parser.operands (fuel + 1) tier left) (Expr.Each Q) := by
  rw [Parser.operands]
  apply Answers.next?.after
  intro next
  split
  · rename_i op _
    apply Answers.skip.after
    intro _
    apply (h.exprAt tier.tighter).bind
    intro right hright
    exact h.operands tier ⟨hQ.binary op left right, hleft, hright⟩
  · exact .pure hleft

theorem accesses_succ {base : Expr} (hbase : base.Each Q) :
    Answers T (Parser.accesses (fuel + 1) base) (Expr.Each Q) := by
  rw [Parser.accesses]
  apply Answers.eat
  · apply Answers.eat
    · exact h.accesses ⟨hQ.append base, hbase⟩
    · apply (h.exprAt .orWord).bind
      intro key hkey
      apply (Answers.expect .rightBracket).after
      intro _
      exact h.accesses ⟨hQ.index base key, hbase, hkey⟩
  · apply Answers.eat
    · apply Answers.propertyName.bind
      intro name hname
      exact h.accesses ⟨hQ.property base hname, hbase⟩
    · exact .pure hbase

theorem primary_name {name : String} (hname : T (.name name)) :
    Answers T (Parser.named fuel name) (Expr.Each Q) := by
  apply Answers.skip.after
  intro _
  refine .ite (fun _ => .pure (hQ.bool true)) fun htrue => ?_
  refine .ite (fun _ => .pure (hQ.bool false)) fun hfalse => ?_
  refine .ite (fun _ => .pure hQ.null) fun hnull => ?_
  have hvalue : Text.lowerAscii name ∉ valueNames := by simp [valueNames, htrue, hfalse, hnull]
  apply Answers.eat
  · refine .ite (fun _ => ?_) fun harray => ?_
    · apply (h.items .rightParen).bind
      intro items hitems
      exact .pure ⟨hQ.array items, hitems⟩
    · apply h.arguments.bind
      intro args hargs
      have hcall : Text.lowerAscii name ∉ "array" :: valueNames := by simp [harray, hvalue]
      exact .pure ⟨hQ.call args hname hcall, hargs⟩
  · exact .pure (hQ.constant hname hvalue)

theorem primary_succ : Answers T (Parser.primary (fuel + 1)) (Expr.Each Q) := by
  have hone {e : Expr} (he : e.Each Q) : Answers T (do Parser.skip; return e) (Expr.Each Q) :=
    Answers.skip.after fun _ => .pure he
  rw [Parser.primary]
  apply Answers.next?.bind
  intro next hnext
  split
  · exact hone (hQ.var (hnext _ rfl))
  · exact hone (hQ.int (hnext _ rfl))
  · exact hone (hQ.float (hnext _ rfl))
  · exact hone (hQ.string (hnext _ rfl))
  · exact hone (hQ.interpolated (hnext _ rfl))
  · apply Answers.skip.after
    intro _
    apply (h.exprAt .orWord).bind
    intro e he
    exact (Answers.expect .rightParen).after fun _ => .pure he
  · apply Answers.skip.after
    intro _
    apply (h.items .rightBracket).bind
    intro items hitems
    exact .pure ⟨hQ.array items, hitems⟩
  · exact h.primary_name hQ (hnext _ rfl)
  · exact .refuse _

omit hQ in
theorem behindItem (close : Symbol) {item : Item} (hitem : item.Each Q) :
    Answers T (Parser.behindItem fuel close item) (EachItem Q) := by
  apply Answers.eat
  · apply (h.items close).bind
    intro more hmore
    exact .pure ⟨hitem, hmore⟩
  · exact (Answers.expect close).after fun _ => .pure ⟨hitem, trivial⟩

omit hQ in
theorem items_succ (close : Symbol) : Answers T (Parser.items (fuel + 1) close) (EachItem Q) := by
  rw [Parser.items]
  apply Answers.eat
  · exact .pure trivial
  apply (h.exprAt .orWord).bind
  intro first hfirst
  apply Answers.eat
  · apply (h.exprAt .orWord).bind
    intro v hv
    exact h.behindItem close ⟨hfirst, hv⟩
  · exact h.behindItem close hfirst

omit hQ in
theorem arguments_succ : Answers T (Parser.arguments (fuel + 1)) (EachExpr Q) := by
  rw [Parser.arguments]
  apply Answers.eat
  · exact .pure trivial
  apply (h.exprAt .orWord).bind
  intro e he
  apply Answers.eat
  · apply h.arguments.bind
    intro more hmore
    exact .pure ⟨he, hmore⟩
  · exact (Answers.expect .rightParen).after fun _ => .pure ⟨he, trivial⟩

end AnswerEach

include hQ in
theorem answerEach (fuel : Nat) : AnswerEach T Q fuel := by
  induction fuel with
  | zero => constructor <;> intros <;> exact .fail _
  | succ fuel h =>
    exact ⟨h.exprAt_succ hQ, fun tier _ => h.operands_succ hQ tier, h.accesses_succ hQ,
      h.primary_succ hQ, h.items_succ, h.arguments_succ⟩

end Expressions

section Statements

/-- The readers of statements with so many steps answer statements in which all nodes of expressions
satisfy `Q`. -/
structure AnswerEachStmt (T : Token → Prop) (Q : Expr → Prop) (fuel : Nat) : Prop where
  block (words : List String) : Answers T (block fuel words) (EachStmt Q)
  statement : Answers T (statement fuel) (Stmt.Each Q)
  alternatives : Answers T (alternatives fuel) (Alternatives.Each Q)
  foreachAt (line : Nat) : Answers T (foreachAt fuel line) (Stmt.Each Q)

variable {fuel : Nat} (hQ : Builds T Q)

theorem answers_terminator {a : α} {post : α → Prop} (h : post a) :
    Answers T (do terminator; return a) post :=
  Answers.terminator.after fun _ => .pure h

theorem answers_end (word : String) {a : α} {post : α → Prop} (h : post a) :
    Answers T (do expectWord word; terminator; return a) post :=
  (Answers.expectWord word).after fun _ => answers_terminator h

include hQ

theorem answers_exprs (fuel : Nat) : Answers T (exprs fuel) (EachExpr Q) := by
  induction fuel with
  | zero => exact .fail _
  | succ fuel ih =>
    rw [exprs]
    apply ((answerEach hQ fuel).exprAt .orWord).bind
    intro e he
    apply Answers.eat
    · apply ih.bind
      intro more hmore
      exact .pure ⟨he, hmore⟩
    · exact .pure ⟨he, trivial⟩

theorem answers_condition (fuel : Nat) : Answers T (condition fuel) (Expr.Each Q) := by
  apply (Answers.expect .leftParen).after
  intro _
  apply ((answerEach hQ fuel).exprAt .orWord).bind
  intro e he
  apply (Answers.expect .rightParen).after
  intro _
  exact (Answers.expect .colon).after fun _ => .pure he

namespace AnswerEachStmt

variable (h : AnswerEachStmt T Q fuel)
include h

theorem conditional (words : List String) {f : Expr → List Stmt → Parser α} {post : α → Prop}
    (hf : ∀ c body, c.Each Q → EachStmt Q body → Answers T (f c body) post) :
    Answers T (do
      let c ← condition fuel
      let body ← Parser.block fuel words
      f c body) post := by
  apply (answers_condition hQ fuel).bind
  intro c hc
  apply (h.block words).bind
  intro body hbody
  exact hf c body hc hbody

omit hQ in
theorem block_succ (words : List String) :
    Answers T (Parser.block (fuel + 1) words) (EachStmt Q) := by
  rw [Parser.block]
  apply Answers.next?.after
  intro next
  split
  · split
    · exact .fail _
    · exact .pure trivial
  · exact Answers.skip.after fun _ => h.block words
  · exact Answers.skip.after fun _ => h.block words
  · apply Answers.skip.after
    intro _
    apply (h.block words).bind
    intro more hmore
    exact .pure ⟨trivial, hmore⟩
  · apply Answers.word?.after
    intro word
    refine .ite (fun _ => .pure trivial) fun _ => ?_
    apply h.statement.bind
    intro stmt hstmt
    apply (h.block words).bind
    intro more hmore
    exact .pure ⟨hstmt, hmore⟩

theorem statement_succ : Answers T (Parser.statement (fuel + 1)) (Stmt.Each Q) := by
  have hexpr := (answerEach hQ fuel).exprAt .orWord
  rw [Parser.statement]
  apply Answers.line.after
  intro line
  apply Answers.eatWord
  · exact (answers_exprs hQ fuel).bind fun es hes => answers_terminator hes
  apply Answers.eatWord
  · apply h.conditional hQ
    intro c body hc hbody
    apply h.alternatives.bind
    intro rest hrest
    exact .pure ⟨hc, hbody, hrest⟩
  apply Answers.eatWord
  · apply h.conditional hQ
    intro c body hc hbody
    exact answers_end "endwhile" ⟨hc, hbody⟩
  apply Answers.eatWord
  · exact h.foreachAt line
  apply Answers.eatWord
  · exact answers_terminator trivial
  apply Answers.eatWord
  · exact answers_terminator trivial
  apply Answers.eatWord
  · exact hexpr.bind fun target htarget => answers_terminator htarget
  apply Answers.startsUnset.after
  intro unset
  refine .ite (fun _ => ?_) fun _ => ?_
  · apply Answers.skip.after
    intro _
    apply Answers.skip.after
    intro _
    apply (answerEach hQ fuel).arguments.bind
    intro targets htargets
    split
    · exact .fail _
    · exact answers_terminator htargets
  · apply Answers.word?.after
    intro word
    split
    · exact .fail _
    · exact hexpr.bind fun e he => answers_terminator he

theorem alternatives_succ : Answers T (Parser.alternatives (fuel + 1)) (Alternatives.Each Q) := by
  rw [Parser.alternatives]
  apply Answers.eatWord
  · apply h.conditional hQ
    intro c body hc hbody
    apply h.alternatives.bind
    intro rest hrest
    exact .pure ⟨hc, hbody, hrest⟩
  apply Answers.eatWord
  · apply (Answers.expect .colon).after
    intro _
    apply (h.block ["endif"]).bind
    intro body hbody
    exact answers_end "endif" hbody
  · exact answers_end "endif" trivial

omit hQ in
theorem behindLoopVariables {finish : List Stmt → Parser Stmt}
    (hfinish : ∀ body, EachStmt Q body → Answers T (finish body) (Stmt.Each Q)) :
    Answers T (Parser.behindLoopVariables fuel finish) (Stmt.Each Q) := by
  apply (Answers.expect .rightParen).after
  intro _
  apply (Answers.expect .colon).after
  intro _
  apply (h.block ["endforeach"]).bind
  intro body hbody
  apply (Answers.expectWord "endforeach").after
  intro _
  exact Answers.terminator.after fun _ => hfinish body hbody

theorem foreachAt_succ (line : Nat) :
    Answers T (Parser.foreachAt (fuel + 1) line) (Stmt.Each Q) := by
  rw [Parser.foreachAt]
  apply (Answers.expect .leftParen).after
  intro _
  apply ((answerEach hQ fuel).exprAt .orWord).bind
  intro subject hsubject
  apply (Answers.expectWord "as").after
  intro _
  apply Answers.loopVariable.after
  intro first
  apply Answers.eat
  · rw [map_eq_pure_bind, bind_assoc]
    apply Answers.loopVariable.after
    intro second
    rw [pure_bind]
    apply h.behindLoopVariables
    exact fun body hbody => .pure ⟨hsubject, hbody⟩
  · rw [pure_bind]
    apply h.behindLoopVariables
    exact fun body hbody => .pure ⟨hsubject, hbody⟩

end AnswerEachStmt

theorem answerEachStmt (fuel : Nat) : AnswerEachStmt T Q fuel := by
  induction fuel with
  | zero => constructor <;> intros <;> exact .fail _
  | succ fuel h =>
    exact ⟨h.block_succ, h.statement_succ hQ, h.alternatives_succ hQ, h.foreachAt_succ hQ⟩

end Statements

end Parser

/-- All nodes of a program that was read satisfy what each node that is built from its tokens
does. -/
theorem TokenStream.program_each {T : Token → Prop} (hQ : Builds T Q) {s : TokenStream}
    {p : Program} (hs : Parser.Holds T s) (h : s.program = .ok p) : p.Each Q := by
  obtain ⟨⟨body, r⟩, hbody, ⟨⟩⟩ := exists_of_bind_eq_ok h
  exact ((Parser.answerEachStmt hQ _).block [] s body r hs hbody).2

end ViewTemplate.Code
