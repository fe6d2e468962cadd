import ViewTemplate.Proofs.Code.Numerals
import ViewTemplate.Proofs.Directive.Echoing
import ViewTemplate.Run.Eval

namespace ViewTemplate

namespace Run

open Code

/-- An expression that has the value wherever it is read, and changes nothing. -/
def HasValue (e : Expr) (v : Value) : Prop :=
  ∀ (m : Type → Type) [Monad m] [LawfulMonad m] (host : Host m), (read host e).value = pure v

theorem hasValue_literal (v : Value) : HasValue (.literal v) v := fun _ _ _ _ => rfl

theorem HasValue.unary {e : Expr} {op : UnaryOp} {v r : Value} (he : HasValue e v)
    (h : unary op v = .ok r) : HasValue (.unary op e) r := by
  intro m _ _ host
  show (do ofOperator (Run.unary op (← (read host e).value))) = _
  rw [he m host, pure_bind, h]
  rfl

theorem HasValue.unique {e : Expr} {v v' : Value} (h : HasValue e v) (h' : HasValue e v') :
    v = v' := by
  let host : Host Id := ⟨[], loadNothing, false, 0, 0⟩
  have hpure := (h Id host).symm.trans (h' Id host)
  have hrun := congrFun hpure ⟨[], "", ⟨⟨""⟩, 0, 0⟩, []⟩
  injection hrun with hresult
  injection hresult

theorem operand_toValue (n : Number) (operator : String) : operand n.toValue operator = .ok n := by
  cases n <;> rfl

theorem unary_plus (n : Number) : unary .plus n.toValue = .ok n.toValue := by
  rw [unary, operand_toValue]
  rfl

theorem unary_neg (n : Number) : unary .neg n.toValue = .ok (neg n) := by
  rw [unary, operand_toValue]
  rfl

end Run

namespace Directive

open Code Run

variable {c : Char} {cs s : List Char} {ts : List Token} {w : String} {n : Number}

theorem phrase_token (n : Number) : Phrase .access (.literal n.toValue) [n.token] := by
  cases n with
  | int n => exact .int n
  | float x => exact .float x

theorem spells_token (hc : c.isDigit = true) (h : Number.ofNumeral? (c :: cs) = some n)
    (hpoints : pointsLead (c :: cs) = true) : Spells (c :: cs) [n.token] := by
  obtain ⟨f, hf, ht⟩ := Number.numeralToken_of_ofNumeral? hc h hpoints
  exact spells_numeral hc hf ht

theorem spells_plus (h : Spells s ts) : Spells ('+' :: s) (.symbol .plus :: ts) := by
  intro c cs us hc hus
  have hplus : StandsAlone '+' .plus := ⟨by decide, fun _ _ => rfl⟩
  exact hplus.codeTokens (h c cs us hc hus)

theorem spells_minus (hc : c.isDigit = true) (h : Spells (c :: cs) ts) :
    Spells ('-' :: c :: cs) (.symbol .minus :: ts) := by
  intro d ds us hd hus
  refine (h d ds us hd hus).token (by decide) fun line => ⟨line, ?_⟩
  have harrow : c ≠ '>' := ne_of_isDigit hc (by decide)
  simp [nextToken, symbol?, Symbol.spellings, afterStart?, harrow.symm]

/-- A numeral of the code, with a sign in front of it or none. -/
def IsCodeNumeral (cs : List Char) : Prop :=
  startsWithDigit (Decimal.splitSign cs).2 = true ∧ pointsLead cs = true

def wordValue (w : String) : Value :=
  match Number.ofText? w with
  | none => .string w
  | some n => n.inCode

theorem exists_expr_of_numeral (h : Number.ofNumeral? s = some n) (hs : IsCodeNumeral s) :
    ∃ e ts, Spells s ts ∧ Phrase .orWord e ts ∧ HasValue e n.inCode := by
  obtain ⟨hstarts, hpoints⟩ := hs
  obtain ⟨sign, hsign, hsplit⟩ := Decimal.splitSign_append s
  obtain ⟨c, cs, hcs, hc⟩ : ∃ c cs, (Decimal.splitSign s).2 = c :: cs ∧ c.isDigit = true := by
    cases hbody : (Decimal.splitSign s).2 with
    | nil =>
      rw [hbody] at hstarts
      cases hstarts
    | cons c cs =>
      rw [hbody] at hstarts
      exact ⟨c, cs, rfl, hstarts⟩
  rw [hcs] at hsplit
  subst hsplit
  have hbody := pointsLead_append hpoints
  simp only [List.mem_cons, List.not_mem_nil, or_false] at hsign
  -- No sign, a plus, a minus.
  rcases hsign with rfl | rfl | rfl
  · refine ⟨_, _, spells_token hc h hbody, (phrase_token n).loosen (by decide), ?_⟩
    rw [Number.inCode_of_isDigit hc h]
    exact hasValue_literal _
  · have h : Number.ofNumeral? (c :: cs) = some n := (Number.ofNumeral?_plus hc).symm.trans h
    refine ⟨_, _, spells_plus (spells_token hc h hbody),
      (Phrase.unary rfl ((phrase_token n).loosen (by decide))).loosen (by decide), ?_⟩
    rw [Number.inCode_of_isDigit hc h]
    exact (hasValue_literal _).unary (unary_plus n)
  · obtain ⟨k, hk, hneg⟩ := Number.ofNumeral?_minus hc h
    refine ⟨_, _, spells_minus hc (spells_token hc hk hbody),
      (Phrase.unary rfl ((phrase_token k).loosen (by decide))).loosen (by decide), ?_⟩
    rw [← hneg]
    exact (hasValue_literal _).unary (unary_neg k)

/-- Of the words that begin like a word and are no value words only the numbers are code. -/
theorem isCode_eq (hhead : ∀ c, w.toList.head? = some c → c ∉ "$'\"([".toList)
    (hvalue : Text.lowerAscii w ∉ valueWords) : isCode w = (Number.ofText? w).isSome := by
  have hfirst : w.toList.head?.any ("$'\"([".toList.contains ·) = false := by
    cases hw : w.toList.head? with
    | none => rfl
    | some c => simpa using hhead c hw
  rw [isCode, hfirst, Bool.false_or, List.contains_eq_mem, decide_eq_false hvalue, Bool.or_false]

theorem exists_expr_of_quoted (w : String) :
    ∃ e ts, Spells ('\'' :: w.toList.flatMap escapeQuote ++ ['\'']) ts ∧ Phrase .orWord e ts ∧
      HasValue e (.string w) := by
  have hspells := spells_singleQuoted w.toList
  rw [String.ofList_toList] at hspells
  exact ⟨_, _, hspells, (Phrase.string w).loosen (by decide), hasValue_literal _⟩

/-- The code of a word evaluates to what the word stands for. -/
theorem bare_word_kept (htrim : Text.trim w.toList = w.toList)
    (hhead : ∀ c, w.toList.head? = some c → c ∉ "$'\"([".toList)
    (hvalue : Text.lowerAscii w ∉ valueWords)
    (hnumeral : (Number.ofText? w).isSome = true → IsCodeNumeral w.toList) (path : Path) :
    ∃ e, Artifact.program
        (Artifact.ofCode (codeBlock ("echo " ++ quoteWord w ++ ";")).toList) path =
          .ok ⟨[.echo [e]]⟩ ∧ HasValue e (wordValue w) := by
  have hcode := isCode_eq hhead hvalue
  cases hn : Number.ofText? w with
  | none =>
    obtain ⟨e, ts, hs, he, hv⟩ := exists_expr_of_quoted w
    rw [quoteWord, if_neg (by simp [hcode, hn]), wordValue, hn]
    exact ⟨e, program_echo hs he path, hv⟩
  | some n =>
    have hnumber : Number.ofNumeral? w.toList = some n := by
      rwa [Number.ofText?, htrim] at hn
    obtain ⟨e, ts, hs, he, hv⟩ := exists_expr_of_numeral hnumber (hnumeral (by simp [hn]))
    rw [quoteWord, if_pos (by simp [hcode, hn]), wordValue, hn]
    have hprogram := program_echo hs he path
    rw [String.ofList_toList] at hprogram
    exact ⟨e, hprogram, hv⟩

theorem bare_word_kept_minus_twelve :
    (Text.trim "-12".toList = "-12".toList ∧
      (∀ c, "-12".toList.head? = some c → c ∉ "$'\"([".toList) ∧
      Text.lowerAscii "-12" ∉ valueWords ∧
      ((Number.ofText? "-12").isSome = true → IsCodeNumeral "-12".toList)) ∧
    ∃ e, Artifact.program (Artifact.ofCode (codeBlock "echo -12;").toList) ⟨"view"⟩ =
      .ok ⟨[.echo [e]]⟩ ∧ HasValue e (.int (-12)) := by
  have htrim : Text.trim "-12".toList = "-12".toList := by decide +kernel
  have hhead : ∀ c, "-12".toList.head? = some c → c ∉ "$'\"([".toList := by
    rintro c ⟨⟩
    decide
  have hvalue : Text.lowerAscii "-12" ∉ valueWords := by decide
  have hnumeral : (Number.ofText? "-12").isSome = true → IsCodeNumeral "-12".toList :=
    fun _ => ⟨by decide, by decide⟩
  exact ⟨⟨htrim, hhead, hvalue, hnumeral⟩, bare_word_kept htrim hhead hvalue hnumeral ⟨"view"⟩⟩

/-- A number may begin with a point, and the least integer becomes a double. -/
theorem not_bare_word_kept :
    (¬∀ w : String, w ≠ "" → Text.trim w.toList = w.toList →
      (∀ c, w.toList.head? = some c → c ∉ "$'\"([".toList) → Text.lowerAscii w ∉ valueWords →
      ∃ e, Artifact.program
        (Artifact.ofCode (codeBlock ("echo " ++ quoteWord w ++ ";")).toList) ⟨"view"⟩ =
          .ok ⟨[.echo [e]]⟩) ∧
    ¬∀ (w : String) (e : Expr), w ≠ "" → Text.trim w.toList = w.toList →
      (∀ c, w.toList.head? = some c → c ∉ "$'\"([".toList) → Text.lowerAscii w ∉ valueWords →
      Artifact.program
        (Artifact.ofCode (codeBlock ("echo " ++ quoteWord w ++ ";")).toList) ⟨"view"⟩ =
          .ok ⟨[.echo [e]]⟩ →
      ∀ n, Number.ofText? w = some n → HasValue e n.toValue := by
  constructor
  · intro h
    -- A numeral of the code has a digit in front of its point.
    obtain ⟨e, he⟩ := h ".5" (by decide) (by decide +kernel) (by rintro c ⟨⟩; decide) (by decide)
    have hquote : quoteWord ".5" = ".5" := if_pos (by decide +kernel)
    have hnone : (Artifact.program (Artifact.ofCode (codeBlock ("echo " ++ ".5" ++ ";")).toList)
        ⟨"view"⟩).toOption = none := by decide +kernel
    rw [hquote] at he
    rw [he] at hnone
    cases hnone
  · intro h
    -- The numeral behind the sign is no 64-bit integer, so the code has a double.
    have hword : Number.ofNumeral? "-9223372036854775808".toList =
      some (.int Int64.minValue) := by cbv
    obtain ⟨e, ts, hs, he, hv⟩ := exists_expr_of_numeral hword ⟨by decide, by decide⟩
    have hquote : quoteWord "-9223372036854775808" =
        String.ofList "-9223372036854775808".toList := by
      cbv
    have hv' := h "-9223372036854775808" e (by decide) (by decide +kernel)
      (by rintro c ⟨⟩; decide) (by decide) (hquote ▸ program_echo hs he ⟨"view"⟩)
      (.int Int64.minValue) (by cbv)
    cases hv.unique hv'

end Directive

end ViewTemplate
