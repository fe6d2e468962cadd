import ViewTemplate.Proofs.Code.Spelling
import ViewTemplate.Proofs.Decimal.Canonical
import ViewTemplate.Proofs.Directive.Characters
import Mathlib.Data.List.TakeWhile

namespace ViewTemplate.Code

section Numerals

/-- The characters of a numeral behind its first digit. The first flag says whether a fraction or an
exponent went before, the second whether there is one in all. -/
inductive Numeral : Bool → List Char → Bool → Prop
  | nil {b : Bool} : Numeral b [] b
  | digit {b f : Bool} {c : Char} {ds : List Char} (hc : c.isDigit = true) (h : Numeral b ds f) :
    Numeral b (c :: ds) f
  | fraction {f : Bool} {ds : List Char} (hd : startsWithDigit ds = true) (h : Numeral true ds f) :
    Numeral false ('.' :: ds) f
  | exponent {b f : Bool} {c : Char} {ds : List Char} (hc : c = 'e' ∨ c = 'E')
    (hd : startsWithDigit ds = true) (h : Numeral true ds f) : Numeral b (c :: ds) f
  | signed {b f : Bool} {c sign : Char} {ds : List Char} (hc : c = 'e' ∨ c = 'E')
    (hsign : sign = '+' ∨ sign = '-') (hd : startsWithDigit ds = true) (h : Numeral true ds f) :
    Numeral b (c :: sign :: ds) f

variable {cs ds r : List Char} {b f : Bool}

theorem numeral_digit {c : Char} (hc : c.isDigit = true) :
    numeral b (c :: cs) = (c :: (numeral b cs).1, (numeral b cs).2) := by
  rw [numeral.eq_def]
  dsimp only
  rw [if_pos hc]

theorem startsWithDigit_numeral (h : startsWithDigit cs = true) :
    startsWithDigit (numeral b cs).1 = true := by
  cases cs with
  | nil => cases h
  | cons c rest =>
    have hc : c.isDigit = true := h
    rw [numeral_digit hc]
    exact h

/-- What is taken for a numeral is one. -/
theorem numeral_isNumeral (b : Bool) (cs : List Char) :
    Numeral b (numeral b cs).1 (numeral b cs).2.1 := by
  fun_induction numeral b cs with
  | case1 => exact .nil
  | case2 b c rest hc ds f r hrest ih =>
    rw [hrest] at ih
    exact .digit hc ih
  | case3 b c rest _ hpoint ds f r hrest ih =>
    simp only [Bool.and_eq_true, decide_eq_true_eq, Bool.not_eq_true'] at hpoint
    obtain ⟨⟨rfl, rfl⟩, hd⟩ := hpoint
    have hstarts := startsWithDigit_numeral (b := true) hd
    rw [hrest] at ih hstarts
    exact .fraction hstarts ih
  | case4 b c rest _ _ hexp ds f r hrest ih =>
    simp only [Bool.and_eq_true, Bool.or_eq_true, decide_eq_true_eq] at hexp
    have hstarts := startsWithDigit_numeral (b := true) hexp.2
    rw [hrest] at ih hstarts
    exact .exponent hexp.1 hstarts ih
  | case5 b c _ sign more hexp ds f r hrest _ _ ih =>
    simp only [Bool.and_eq_true, Bool.or_eq_true, decide_eq_true_eq] at hexp
    have hstarts := startsWithDigit_numeral (b := true) hexp.2
    rw [hrest] at ih hstarts
    exact .signed hexp.1.1 hexp.1.2 hstarts ih
  | case6 => exact .nil
  | case7 => exact .nil

theorem startsWithDigit_append (h : startsWithDigit ds = true) (cs : List Char) :
    startsWithDigit (ds ++ cs) = true := by
  cases ds with
  | nil => cases h
  | cons d ds => exact h

theorem isDigit_exponent {c : Char} (hc : c = 'e' ∨ c = 'E') : c.isDigit = false ∧ c ≠ '.' := by
  rcases hc with rfl | rfl <;> decide

/-- No numeral goes on with the character. -/
def endsNumeral (c : Char) : Bool := !c.isDigit && c != '.' && c != 'e' && c != 'E'

theorem numeral_of_ends {d : Char} (hd : endsNumeral d = true) (cs : List Char) :
    numeral b (d :: cs) = ([], b, d :: cs) := by
  simp only [endsNumeral, Bool.and_eq_true, Bool.not_eq_true', bne_iff_ne] at hd
  obtain ⟨⟨⟨hdigit, hpoint⟩, he⟩, hE⟩ := hd
  rw [numeral.eq_def]
  dsimp only
  rw [if_neg (by simp [hdigit]), if_neg (by simp [hpoint]), if_neg (by simp [he, hE])]
  cases cs with
  | nil => rfl
  | cons sign more => exact if_neg (by simp [he, hE])

theorem Numeral.read (h : Numeral b ds f) {d : Char} (hd : endsNumeral d = true)
    (cs : List Char) : numeral b (ds ++ d :: cs) = (ds, f, d :: cs) := by
  induction h with
  | nil => exact numeral_of_ends hd cs
  | digit hc _ ih => rw [List.cons_append, numeral_digit hc, ih]
  | fraction hd _ ih =>
    rw [List.cons_append, numeral.eq_def]
    dsimp only
    rw [if_neg (by decide), if_pos (by simp [startsWithDigit_append hd]), ih]
  | exponent hc hd _ ih =>
    obtain ⟨hdigit, hpoint⟩ := isDigit_exponent hc
    rw [List.cons_append, numeral.eq_def]
    dsimp only
    rw [if_neg (by simp [hdigit]), if_neg (by simp [hpoint]),
      if_pos (by simp [hc, startsWithDigit_append hd]), ih]
  | @signed _ _ c sign ds hc hsign hd _ ih =>
    obtain ⟨hdigit, hpoint⟩ := isDigit_exponent hc
    have hno : startsWithDigit (sign :: (ds ++ d :: cs)) = false := by
      rcases hsign with rfl | rfl <;> rfl
    rw [List.cons_append, List.cons_append, numeral.eq_def]
    dsimp only
    rw [if_neg (by simp [hdigit]), if_neg (by simp [hpoint]), if_neg (by simp [hno]),
      if_pos (by simp [hc, hsign, startsWithDigit_append hd]), ih]

end Numerals

section Strings

def escapeSingle (cs : List Char) : List Char :=
  cs.flatMap fun c => if c = '\\' ∨ c = '\'' then ['\\', c] else [c]

/-- Literal characters of a double-quoted string as they are written. -/
def escapeDouble (cs : List Char) : List Char :=
  cs.flatMap fun c => if c = '\\' ∨ c = '"' ∨ c = '$' then ['\\', c] else [c]

def StringPart.written : StringPart → List Char
  | .literal s => escapeDouble s.toList
  | .var name => '$' :: name.toList

/-- Whether the first part, if there is one, is a literal that satisfies a test on characters with
its first one. -/
def leadsWith (p : Char → Bool) : List StringPart → Bool
  | .literal s :: _ => s.toList.head?.all p
  | _ => false

/-- The parts of a double-quoted string: no literal is empty or stands behind another one or goes on
with the name of a variable before it. -/
def Separate : List StringPart → Prop
  | [] => True
  | .literal s :: more => s ≠ "" ∧ leadsWith (fun _ => true) more = false ∧ Separate more
  | .var name :: more =>
    startsVariable name.toList = true ∧ (∀ c ∈ name.toList, Text.isNamePart c = true) ∧
      leadsWith Text.isNamePart more = false ∧ Separate more

variable {cs lit r rest tail : List Char} {parts : List StringPart} {line l : Nat} {c : Char}

theorem singleQuoted_written (cs rest : List Char) (line : Nat) :
    ∃ l, singleQuoted (escapeSingle cs ++ '\'' :: rest) line = .ok (cs, rest, l) := by
  induction cs generalizing line with
  | nil => exact ⟨line, rfl⟩
  | cons c cs ih =>
    by_cases hc : c = '\\' ∨ c = '\''
    · obtain ⟨l, hl⟩ := ih line
      have hwritten : escapeSingle (c :: cs) ++ '\'' :: rest =
          '\\' :: c :: (escapeSingle cs ++ '\'' :: rest) := by
        simp [escapeSingle, hc]
      refine ⟨l, ?_⟩
      rw [hwritten]
      rcases hc with rfl | rfl <;> rw [singleQuoted, hl] <;> rfl
    · obtain ⟨l, hl⟩ := ih (lineAfter c line)
      have hwritten : escapeSingle (c :: cs) ++ '\'' :: rest =
          c :: (escapeSingle cs ++ '\'' :: rest) := by
        simp [escapeSingle, hc]
      rw [not_or] at hc
      refine ⟨l, ?_⟩
      rw [hwritten, singleQuoted.eq_5 _ _ _ hc.2 (fun _ h => absurd h hc.1)
        (fun _ h => absurd h hc.1), hl]
      rfl

theorem isNamePart_unescape {d e : Char} (h : unescape? d = some e) :
    Text.isNamePart e = false := by
  unfold unescape? at h
  split at h <;> cases h <;> decide +kernel

theorem isNamePart_backslash : Text.isNamePart '\\' = false := by decide +kernel

/-- The literal in front of the first variable begins with no character of a name unless the text
does. -/
theorem head?_doubleQuoted (h : doubleQuoted cs line = .ok (lit, parts, r, l))
    (hcs : ∀ c, cs.head? = some c → Text.isNamePart c = false) :
    ∀ c, lit.head? = some c → Text.isNamePart c = false := by
  unfold doubleQuoted at h
  split at h
  · cases h
  · cases h
    rintro c ⟨⟩
  · split at h
    · rename_i he
      obtain ⟨⟨_, _, _, _⟩, -, h⟩ := exists_of_bind_eq_ok h
      cases h
      rintro c ⟨⟩
      exact isNamePart_unescape he
    · obtain ⟨⟨_, _, _, _⟩, -, h⟩ := exists_of_bind_eq_ok h
      cases h
      rintro c ⟨⟩
      exact isNamePart_backslash
  · split at h
    · obtain ⟨⟨_, _, _, _⟩, -, h⟩ := exists_of_bind_eq_ok h
      cases h
      rintro c ⟨⟩
    · obtain ⟨⟨_, _, _, _⟩, -, h⟩ := exists_of_bind_eq_ok h
      cases h
      rintro c ⟨⟩
      exact hcs _ rfl

theorem separate_withLiteral (h : leadsWith (fun _ => true) parts = false)
    (hparts : Separate parts) : Separate (withLiteral lit parts) := by
  cases lit with
  | nil => exact hparts
  | cons c lit => exact ⟨by simp, h, hparts⟩

theorem leadsWith_withLiteral {p : Char → Bool} (h : leadsWith p parts = false)
    (hlit : ∀ c, lit.head? = some c → p c = false) :
    leadsWith p (withLiteral lit parts) = false := by
  cases lit with
  | nil => exact h
  | cons c lit => simpa [withLiteral, leadsWith] using hlit c rfl

theorem leadsWith_of_true {p : Char → Bool} (h : leadsWith (fun _ => true) parts = false) :
    leadsWith p parts = false := by
  cases parts with
  | nil => rfl
  | cons part more =>
    cases part with
    | literal s =>
      cases hs : s.toList.head? <;> simp [leadsWith, hs] at h
    | var name => rfl

theorem isNamePart_of_startsVariable (h : startsVariable (c :: cs) = true) :
    Text.isNamePart c = true := by
  simp only [startsVariable, Bool.or_eq_true] at h
  simp only [Text.isNamePart, Text.isAlphanumeric, Bool.or_eq_true]
  exact h.imp_left .inl

theorem separate_doubleQuoted (h : doubleQuoted cs line = .ok (lit, parts, r, l)) :
    leadsWith (fun _ => true) parts = false ∧ Separate parts := by
  fun_induction doubleQuoted cs line generalizing lit parts r l with
  | case1 => cases h
  | case2 =>
    cases h
    exact ⟨rfl, trivial⟩
  | case3 line d rest e _ ih | case4 line d rest _ ih =>
    obtain ⟨⟨_, _, _, _⟩, hrest, h⟩ := exists_of_bind_eq_ok h
    cases h
    exact ih hrest
  | case6 line c rest _ _ hc ih =>
    obtain ⟨⟨_, _, _, _⟩, hrest, h⟩ := exists_of_bind_eq_ok h
    cases h
    exact ih hrest
  | case5 line c rest _ _ hc =>
    rename_i ih
    obtain ⟨⟨lit', parts', _, _⟩, hrest, h⟩ := exists_of_bind_eq_ok h
    cases h
    -- A variable takes all characters of its name, so the text behind it begins with none.
    obtain ⟨hlead, hparts⟩ := ih hrest
    obtain ⟨-, hstarts⟩ := Bool.and_eq_true _ _ ▸ hc
    refine ⟨rfl, ?_, ?_, ?_, separate_withLiteral hlead hparts⟩
    · cases rest with
      | nil => cases hstarts
      | cons d rest =>
        have htake : (d :: rest).takeWhile Text.isNamePart = d :: rest.takeWhile Text.isNamePart :=
          List.takeWhile_cons_of_pos (isNamePart_of_startsVariable hstarts)
        rw [String.toList_ofList]
        exact (congrArg startsVariable htake).trans hstarts
    · rw [String.toList_ofList]
      exact fun d hd => List.mem_takeWhile_imp hd
    · refine leadsWith_withLiteral (leadsWith_of_true hlead)
        (head?_doubleQuoted hrest fun d hd => ?_)
      have hnot := List.head?_dropWhile_not Text.isNamePart rest
      rw [hd] at hnot
      exact hnot

theorem doubleQuoted_literal (cs : List Char)
    (h : ∀ line, ∃ l, doubleQuoted tail line = .ok (lit, parts, r, l)) (line : Nat) :
    ∃ l, doubleQuoted (escapeDouble cs ++ tail) line = .ok (cs ++ lit, parts, r, l) := by
  induction cs generalizing line with
  | nil => exact h line
  | cons c cs ih =>
    by_cases hc : c = '\\' ∨ c = '"' ∨ c = '$'
    · obtain ⟨l, hl⟩ := ih line
      have hwritten : escapeDouble (c :: cs) ++ tail = '\\' :: c :: (escapeDouble cs ++ tail) := by
        simp [escapeDouble, hc]
      have hunescape : unescape? c = some c := by
        rcases hc with rfl | rfl | rfl <;> rfl
      refine ⟨l, ?_⟩
      rw [hwritten, doubleQuoted, hunescape]
      dsimp only
      rw [hl]
      rfl
    · obtain ⟨l, hl⟩ := ih (lineAfter c line)
      have hwritten : escapeDouble (c :: cs) ++ tail = c :: (escapeDouble cs ++ tail) := by
        simp [escapeDouble, hc]
      simp only [not_or] at hc
      refine ⟨l, ?_⟩
      rw [hwritten, doubleQuoted.eq_4 _ _ _ hc.2.1 (fun _ _ h => absurd h hc.1),
        if_neg (by simp [hc.2.2]), hl]
      rfl

theorem doubleQuoted_variable {name : List Char} (hstarts : startsVariable name = true)
    (hname : ∀ c ∈ name, Text.isNamePart c = true)
    (htail : ∀ c, tail.head? = some c → Text.isNamePart c = false)
    (h : ∀ line, ∃ l, doubleQuoted tail line = .ok (lit, parts, r, l)) (line : Nat) :
    ∃ l, doubleQuoted ('$' :: name ++ tail) line =
      .ok ([], .var (String.ofList name) :: withLiteral lit parts, r, l) := by
  obtain ⟨l, hl⟩ := h line
  obtain ⟨htake, hdrop⟩ := span_eq hname htail
  have hstarts' : startsVariable (name ++ tail) = true := by
    cases name with
    | nil => cases hstarts
    | cons c name => exact hstarts
  refine ⟨l, ?_⟩
  rw [List.cons_append, doubleQuoted.eq_4 _ _ _ (by decide) (fun _ _ h => absurd h (by decide)),
    if_pos (by simp [hstarts']), htake, hdrop, hl]
  rfl

theorem withLiteral_append (hcs : cs ≠ [])
    (h : leadsWith (fun _ => true) (withLiteral lit parts) = false) :
    withLiteral (cs ++ lit) parts = .literal (String.ofList cs) :: withLiteral lit parts := by
  cases lit with
  | nil =>
    obtain ⟨c, cs, rfl⟩ := List.exists_cons_of_ne_nil hcs
    simp [withLiteral]
  | cons c lit => simp [withLiteral, leadsWith] at h

theorem isNamePart_head?_escapeDouble (hcs : ∀ c, cs.head? = some c → Text.isNamePart c = false) :
    ∀ c, (escapeDouble cs).head? = some c → Text.isNamePart c = false := by
  cases cs with
  | nil => rintro c ⟨⟩
  | cons d cs =>
    intro c hc
    by_cases hd : d = '\\' ∨ d = '"' ∨ d = '$'
    · simp only [escapeDouble, List.flatMap_cons, if_pos hd] at hc
      cases hc
      exact isNamePart_backslash
    · simp only [escapeDouble, List.flatMap_cons, if_neg hd] at hc
      cases hc
      exact hcs _ rfl

theorem isNamePart_head?_written (hparts : Separate parts)
    (hlead : leadsWith Text.isNamePart parts = false) (rest : List Char) :
    ∀ c, (parts.flatMap StringPart.written ++ '"' :: rest).head? = some c →
      Text.isNamePart c = false := by
  intro c hc
  cases parts with
  | nil =>
    cases hc
    decide +kernel
  | cons part more =>
    cases part with
    | var name =>
      cases hc
      decide +kernel
    | literal s =>
      obtain ⟨d, cs, hs⟩ := List.exists_cons_of_ne_nil (String.toList_eq_nil_iff.not.mpr hparts.1)
      have hd : Text.isNamePart d = false := by simpa [leadsWith, hs] using hlead
      have hne : escapeDouble s.toList ≠ [] := by
        rw [hs, escapeDouble, List.flatMap_cons]
        split <;> exact List.cons_ne_nil _ _
      have hfirst : ∀ c, (escapeDouble s.toList).head? = some c → Text.isNamePart c = false :=
        isNamePart_head?_escapeDouble fun e he => by
          rw [hs] at he
          cases he
          exact hd
      rw [List.flatMap_cons, List.append_assoc] at hc
      exact hfirst c ((List.head?_append_of_ne_nil _ hne).symm.trans hc)

/-- The parts of a string are read back from what is written for them. -/
theorem doubleQuoted_written (hparts : Separate parts) (rest : List Char) :
    ∃ lit ps, withLiteral lit ps = parts ∧ ∀ line, ∃ l,
      doubleQuoted (parts.flatMap StringPart.written ++ '"' :: rest) line =
        .ok (lit, ps, rest, l) := by
  induction parts with
  | nil =>
    refine ⟨[], [], rfl, fun line => ⟨line, ?_⟩⟩
    rw [List.flatMap_nil, List.nil_append, doubleQuoted]
  | cons part more ih =>
    cases part with
    | literal s =>
      obtain ⟨hne, hlead, hmore⟩ := hparts
      obtain ⟨lit, ps, rfl, hread⟩ := ih hmore
      refine ⟨s.toList ++ lit, ps, ?_, fun line => ?_⟩
      · rw [withLiteral_append (String.toList_eq_nil_iff.not.mpr hne) hlead, String.ofList_toList]
      · rw [List.flatMap_cons, List.append_assoc]
        exact doubleQuoted_literal s.toList hread line
    | var name =>
      obtain ⟨hstarts, hname, hlead, hmore⟩ := hparts
      have hhead := isNamePart_head?_written hmore hlead rest
      obtain ⟨lit, ps, rfl, hread⟩ := ih hmore
      refine ⟨[], .var name :: withLiteral lit ps, rfl, fun line => ?_⟩
      rw [List.flatMap_cons, List.append_assoc]
      obtain ⟨l, hl⟩ := doubleQuoted_variable hstarts hname hhead hread line
      exact ⟨l, by rw [String.ofList_toList] at hl; exact hl⟩

end Strings

section Tokens

/-- The spellings of a double: numerals that are not taken for an integer and have its value. -/
def SpellsFloat (x : Float) (w : List Char) : Prop :=
  ∃ c ds f, w = c :: ds ∧ c.isDigit = true ∧ Numeral false ds f ∧
    (f = true ∨ Decimal.readWord? w = none) ∧ Decimal.readFloat? w = some x

/-- The tokens that a code block can hold. -/
def Token.Lexical : Token → Prop
  | .text _ | .closeTag => False
  | .var x => x ≠ "" ∧ ∀ c ∈ x.toList, Text.isNamePart c = true
  | .name s => ∃ c cs, s.toList = c :: cs ∧ (c.isAlpha = true ∨ c = '_') ∧
      ∀ d ∈ cs, Text.isNamePart d = true
  | .int n => 0 ≤ n.toInt
  | .float x => ∃ w, SpellsFloat x w
  | .string _ => True
  | .template parts => Separate parts ∧ quotedToken parts = .template parts
  | .symbol _ => True

/-- How the tokens of code are written. -/
inductive Token.Writes : Token → List Char → Prop
  | var (name : String) : Writes (.var name) ('$' :: name.toList)
  | name (s : String) : Writes (.name s) s.toList
  | int (n : Int64) : Writes (.int n) (toString n.toInt).toList
  | float {x : Float} {w : List Char} (h : SpellsFloat x w) : Writes (.float x) w
  | string (s : String) : Writes (.string s) ('\'' :: escapeSingle s.toList ++ ['\''])
  | template (parts : List StringPart) :
    Writes (.template parts) ('"' :: parts.flatMap StringPart.written ++ ['"'])
  | symbol {spelling : String} {s : Symbol} (h : (spelling, s) ∈ Symbol.spellings) :
    Writes (.symbol s) spelling.toList

/-- Where a token ends: at a blank, or at the close tag unless it is a question mark, which would go
together with the one of the tag. -/
def Token.EndsAt (t : Token) (tail : List Char) : Prop :=
  ∃ cs, tail = ' ' :: cs ∨ (t ≠ .symbol .question ∧ tail = '?' :: '>' :: cs)

variable {c : Char} {cs rest r tail w : List Char} {line l : Nat} {t : Token} {ts : List Token}

theorem Token.EndsAt.head (h : t.EndsAt tail) :
    ∃ d cs, tail = d :: cs ∧ (d = ' ' ∨ d = '?') := by
  obtain ⟨cs, rfl | ⟨-, rfl⟩⟩ := h
  · exact ⟨_, _, rfl, .inl rfl⟩
  · exact ⟨_, _, rfl, .inr rfl⟩

theorem Token.EndsAt.endsNumeral (h : t.EndsAt tail) :
    ∃ d cs, tail = d :: cs ∧ endsNumeral d = true := by
  obtain ⟨d, cs, rfl, rfl | rfl⟩ := h.head <;> exact ⟨_, cs, rfl, rfl⟩

theorem Token.EndsAt.isNamePart (h : t.EndsAt tail) :
    ∀ c, tail.head? = some c → Text.isNamePart c = false := by
  obtain ⟨d, cs, rfl, rfl | rfl⟩ := h.head <;> rintro c ⟨⟩ <;> decide +kernel

theorem readWord?_nonneg {n : Int64} (hc : c.isDigit = true)
    (h : Decimal.readWord? (c :: cs) = some n) : 0 ≤ n.toInt := by
  obtain ⟨k, hk, hn⟩ := Option.bind_eq_some_iff.mp h
  have hpos : 0 ≤ k := by
    unfold Decimal.readInt? at hk
    rw [Decimal.splitSign_of_isDigit hc] at hk
    dsimp only at hk
    split at hk
    · cases hk
    · cases hk
      exact Int.natCast_nonneg _
  unfold Decimal.word? at hn
  split at hn
  · rename_i hword
    cases hn
    rw [Int64.toInt_ofInt_of_le hword.1]
    · exact hpos
    · have : Int64.maxValue.toInt < 2 ^ 63 := by decide
      omega
  · cases hn

theorem lexical_quotedToken {parts : List StringPart} (h : Separate parts) :
    (quotedToken parts).Lexical := by
  fun_cases quotedToken parts with
  | case1 => trivial
  | case2 s => trivial
  | case3 _ hempty hsingle => exact ⟨h, quotedToken.eq_3 parts hempty hsingle⟩

theorem lexical_numeralToken {isFloat : Bool} (hc : c.isDigit = true)
    (hcs : Numeral false cs isFloat)
    (h : numeralToken (c :: cs) isFloat line = .ok t) : t.Lexical := by
  unfold numeralToken at h
  split at h
  · rename_i n hn
    cases h
    cases isFloat with
    | true => cases hn
    | false => exact readWord?_nonneg hc hn
  · rename_i hn
    split at h
    · rename_i x hx
      cases h
      refine ⟨_, c, cs, isFloat, rfl, hc, hcs, ?_, hx⟩
      cases isFloat with
      | true => exact .inl rfl
      | false => exact .inr hn
    · cases h

/-- What is read as a token is one that code can hold. -/
theorem lexical_nextToken (h : nextToken c rest line = .ok (t, r, l)) : t.Lexical := by
  unfold nextToken at h
  split at h
  · split at h
    · cases h
    · rename_i hname
      cases h
      refine ⟨by simpa using hname, fun c hc => ?_⟩
      rw [String.toList_ofList] at hc
      exact List.mem_takeWhile_imp hc
  split at h
  · rename_i hc
    cases h
    rw [Bool.or_eq_true, decide_eq_true_eq] at hc
    exact ⟨c, _, String.toList_ofList, hc, fun d hd => List.mem_takeWhile_imp hd⟩
  split at h
  · rename_i hc
    obtain ⟨t', ht, h⟩ := exists_of_bind_eq_ok h
    cases h
    exact lexical_numeralToken hc (numeral_isNumeral false rest) ht
  split at h
  · obtain ⟨⟨_, _, _⟩, -, h⟩ := exists_of_bind_eq_ok h
    cases h
    trivial
  split at h
  · obtain ⟨⟨_, _, _, _⟩, hquoted, h⟩ := exists_of_bind_eq_ok h
    cases h
    obtain ⟨hlead, hparts⟩ := separate_doubleQuoted hquoted
    exact lexical_quotedToken (separate_withLiteral hlead hparts)
  split at h
  · cases h
    trivial
  · cases h

/-- Neither a blank nor the beginning of a comment or a close tag. -/
def startsToken (c : Char) : Bool := !Text.isBlank c && c != '/' && c != '?'

theorem CodeTokens.token (h : CodeTokens r ts) (hc : startsToken c = true)
    (ht : ∀ line, ∃ m, nextToken c rest line = .ok (t, r, m)) :
    CodeTokens (c :: rest) (t :: ts) := by
  simp only [startsToken, Bool.and_eq_true, Bool.not_eq_true', bne_iff_ne] at hc
  obtain ⟨⟨hblank, hslash⟩, hmark⟩ := hc
  refine h.cons (fun line => ⟨line, ?_⟩) ?_ ht
  · rw [skipTrivia.eq_def]
    dsimp only
    split
    · exact nomatch ‹false = true›
    · exact nomatch ‹false = true›
    · exact absurd rfl hslash
    · exact if_neg (by simp [hblank])
  · show (if '?' = c then _ else none) = none
    exact if_neg (Ne.symm hmark)

theorem startsToken_of_isWordChar (h : Directive.isWordChar c = true) :
    startsToken c = true := by
  have hslash : c ≠ '/' := by
    rintro rfl
    exact absurd h (by decide)
  have hmark : c ≠ '?' := by
    rintro rfl
    exact absurd h (by decide)
  simp [startsToken, Directive.isBlank_of_isWordChar h, hslash, hmark]

theorem isWordChar_of_isDigit (h : c.isDigit = true) : Directive.isWordChar c = true := by
  simp [Directive.isWordChar, Char.isAlphanum, h]

theorem isAlpha_of_isDigit (h : c.isDigit = true) : c.isAlpha = false := by
  simp only [Char.isDigit, Bool.and_eq_true, decide_eq_true_eq, UInt32.le_iff_toNat_le] at h
  show (decide ('A'.val ≤ c.val ∧ c.val ≤ 'Z'.val) ||
    (decide ('a'.val ≤ c.val) && decide (c.val ≤ 'z'.val))) = false
  simp only [Bool.or_eq_false_iff, Bool.and_eq_false_iff, decide_eq_false_iff_not,
    UInt32.le_iff_toNat_le]
  have hhigh : c.val.toNat ≤ 57 := h.2
  have hA : 'A'.val.toNat = 65 := rfl
  have ha : 'a'.val.toNat = 97 := rfl
  refine ⟨?_, .inl ?_⟩ <;> omega

theorem isDigit_eq_false (h : c.isAlpha = true ∨ c = '_') : c.isDigit = false := by
  rw [Bool.eq_false_iff]
  intro hdigit
  rcases h with h | rfl
  · rw [isAlpha_of_isDigit hdigit] at h
    cases h
  · cases hdigit

theorem ne_of_isDigit {d : Char} (hc : c.isDigit = true) (hd : d.isDigit = false) : c ≠ d := by
  rintro rfl
  exact absurd hc (by simp [hd])

theorem nextToken_digit {f : Bool} (hc : c.isDigit = true) (hcs : numeral false rest = (cs, f, r))
    (ht : numeralToken (c :: cs) f line = .ok t) : nextToken c rest line = .ok (t, r, line) := by
  unfold nextToken
  rw [if_neg (ne_of_isDigit hc (by decide)),
    if_neg (by simp [isAlpha_of_isDigit hc, ne_of_isDigit hc (show '_'.isDigit = false by decide)]),
    if_pos hc, hcs]
  dsimp only
  rw [ht]
  rfl

theorem Numeral.digits {b f : Bool} {ds r : List Char} (h : Numeral b r f)
    (hds : ∀ d ∈ ds, d.isDigit = true) : Numeral b (ds ++ r) f := by
  induction ds with
  | nil => exact h
  | cons d ds ih =>
    obtain ⟨hd, hmore⟩ := List.forall_mem_cons.mp hds
    exact (ih hmore).digit hd

theorem numeral_of_digits {b : Bool} {ds : List Char} (hds : ∀ d ∈ ds, d.isDigit = true) :
    Numeral b ds b := by
  have h := Numeral.digits (.nil (b := b)) hds
  rwa [List.append_nil] at h

theorem CodeTokens.numeral {f : Bool} {d : Char} {ds : List Char} (h : CodeTokens (d :: cs) ts)
    (hd : endsNumeral d = true) (hc : c.isDigit = true) (hds : Numeral false ds f)
    (ht : ∀ line, numeralToken (c :: ds) f line = .ok t) :
    CodeTokens (c :: ds ++ d :: cs) (t :: ts) :=
  h.token (startsToken_of_isWordChar (isWordChar_of_isDigit hc)) fun line =>
    ⟨line, nextToken_digit hc (hds.read hd cs) (ht line)⟩

theorem numeralToken_int {n : Int64} (hn : 0 ≤ n.toInt) (line : Nat) :
    numeralToken (toString n.toInt).toList false line = .ok (.int n) := by
  obtain ⟨k, hk⟩ := Int.eq_ofNat_of_zero_le hn
  have hmax : (k : Int) ≤ Int64.maxValue.toInt := hk ▸ Int64.toInt_le n
  obtain ⟨m, hm, hmk⟩ := Option.map_eq_some_iff.mp (Decimal.readWord?_toString hmax)
  have hmn : m = n := Int64.toInt_inj.mp (hmk.trans hk.symm)
  have hread : Decimal.readWord? (toString n.toInt).toList = some n := by
    rw [hk]
    exact hmn ▸ hm
  unfold numeralToken
  rw [if_neg Bool.false_ne_true, hread]

theorem CodeTokens.int {n : Int64} (h : CodeTokens tail ts) (hn : 0 ≤ n.toInt)
    (htail : (Token.int n).EndsAt tail) :
    CodeTokens ((toString n.toInt).toList ++ tail) (.int n :: ts) := by
  obtain ⟨k, hk⟩ := Int.eq_ofNat_of_zero_le hn
  have htext : (toString n.toInt).toList = Nat.toDigits 10 k := by
    rw [hk]
    show (toString k).toList = _
    rw [Nat.toString_eq_repr, Nat.toList_repr]
  have hall := List.all_eq_true.mp (Decimal.all_isDigit_toDigits k)
  obtain ⟨c, ds, hds⟩ := List.exists_cons_of_ne_nil (Nat.toDigits_ne_nil (n := k) (b := 10))
  have htoken := numeralToken_int hn
  rw [htext, hds] at htoken
  rw [hds] at hall
  rw [htext, hds]
  obtain ⟨d, cs, rfl, hd⟩ := htail.endsNumeral
  exact h.numeral hd (hall c List.mem_cons_self)
    (numeral_of_digits fun d hd => hall d (List.mem_cons_of_mem _ hd)) htoken

theorem CodeTokens.float {x : Float} (h : CodeTokens tail ts) (hx : SpellsFloat x w)
    (htail : (Token.float x).EndsAt tail) : CodeTokens (w ++ tail) (.float x :: ts) := by
  obtain ⟨c, ds, f, rfl, hc, hds, hword, hread⟩ := hx
  obtain ⟨d, cs, rfl, hd⟩ := htail.endsNumeral
  refine h.numeral hd hc hds fun line => ?_
  have hnone : (if f then none else Decimal.readWord? (c :: ds)) = none := by
    rcases hword with rfl | hword
    · rfl
    · rw [hword, ite_self]
  unfold numeralToken
  rw [hnone]
  dsimp only
  rw [hread]

theorem CodeTokens.name (h : CodeTokens tail ts) (hc : c.isAlpha = true ∨ c = '_')
    (hcs : ∀ d ∈ cs, Text.isNamePart d = true)
    (htail : ∀ c, tail.head? = some c → Text.isNamePart c = false) :
    CodeTokens (c :: cs ++ tail) (.name (String.ofList (c :: cs)) :: ts) := by
  obtain ⟨htake, hdrop⟩ := span_eq hcs htail
  refine h.token (startsToken_of_isWordChar (Directive.isWordChar_of_isAlpha hc))
    fun line => ⟨line, ?_⟩
  have hdollar : c ≠ '$' := by
    rintro rfl
    exact absurd hc (by decide)
  rw [nextToken, if_neg hdollar, if_pos (by simpa using hc)]
  show Except.ok (Token.name (String.ofList (c :: (cs ++ tail).takeWhile Text.isNamePart)),
    (cs ++ tail).dropWhile Text.isNamePart, line) = _
  rw [htake, hdrop]

theorem CodeTokens.singleQuoted (h : CodeTokens tail ts) (cs : List Char) :
    CodeTokens ('\'' :: escapeSingle cs ++ ['\''] ++ tail) (.string (String.ofList cs) :: ts) := by
  have hassoc : '\'' :: escapeSingle cs ++ ['\''] ++ tail =
      '\'' :: (escapeSingle cs ++ '\'' :: tail) := by simp
  rw [hassoc]
  refine h.token (by decide +kernel) fun line => ?_
  obtain ⟨l, hl⟩ := singleQuoted_written cs tail line
  refine ⟨l, ?_⟩
  rw [nextToken, if_neg (by decide), if_neg (by decide), if_neg (by decide), if_pos rfl, hl]
  rfl

theorem CodeTokens.doubleQuoted {parts : List StringPart} (h : CodeTokens tail ts)
    (hparts : Separate parts) :
    CodeTokens ('"' :: parts.flatMap StringPart.written ++ ['"'] ++ tail)
      (quotedToken parts :: ts) := by
  have hassoc : '"' :: parts.flatMap StringPart.written ++ ['"'] ++ tail =
      '"' :: (parts.flatMap StringPart.written ++ '"' :: tail) := by simp
  rw [hassoc]
  refine h.token (by decide +kernel) fun line => ?_
  obtain ⟨lit, ps, rfl, hread⟩ := doubleQuoted_written hparts tail
  obtain ⟨l, hl⟩ := hread line
  refine ⟨l, ?_⟩
  rw [nextToken, if_neg (by decide), if_neg (by decide), if_neg (by decide), if_neg (by decide),
    if_pos rfl, hl]
  rfl

/-- What a symbol begins with is told from a blank, a comment and the close tag, and read as the
symbol and nothing longer. -/
def ReadsSymbol (w : List Char) (s : Symbol) (tail : List Char) : Prop :=
  ∃ c rest, w ++ tail = c :: rest ∧
    (∀ line, skipTrivia false (c :: rest) line = .ok (c :: rest, line)) ∧
    afterStart? closeTag.toList (c :: rest) = none ∧
    ∀ line, nextToken c rest line = .ok (.symbol s, tail, line)

theorem readsSymbol_blank (cs : List Char) :
    ∀ p ∈ Symbol.spellings, ReadsSymbol p.1.toList p.2 (' ' :: cs) := by
  simp only [Symbol.spellings, List.forall_mem_cons]
  and_intros
  all_goals first
    | exact ⟨_, _, rfl, fun _ => rfl, rfl, fun _ => rfl⟩
    | exact fun _ h => nomatch h

theorem readsSymbol_closeTag (cs : List Char) :
    ∀ p ∈ Symbol.spellings, p.2 ≠ .question → ReadsSymbol p.1.toList p.2 ('?' :: '>' :: cs) := by
  simp only [Symbol.spellings, List.forall_mem_cons]
  and_intros
  all_goals first
    | exact fun _ => ⟨_, _, rfl, fun _ => rfl, rfl, fun _ => rfl⟩
    | exact fun h => absurd rfl h
    | exact fun _ h => nomatch h

theorem CodeTokens.symbol {spelling : String} {s : Symbol} (h : CodeTokens tail ts)
    (hs : (spelling, s) ∈ Symbol.spellings) (htail : (Token.symbol s).EndsAt tail) :
    CodeTokens (spelling.toList ++ tail) (.symbol s :: ts) := by
  have hread : ReadsSymbol spelling.toList s tail := by
    obtain ⟨cs, rfl | ⟨hne, rfl⟩⟩ := htail
    · exact readsSymbol_blank cs _ hs
    · exact readsSymbol_closeTag cs _ hs fun hs => hne (congrArg Token.symbol hs)
  obtain ⟨c, rest, hcs, hskip, hclose, ht⟩ := hread
  rw [hcs]
  exact h.cons (fun line => ⟨line, hskip line⟩) hclose fun line => ⟨line, ht line⟩

/-- What is written for a token in front of its end is read as that token. -/
theorem Token.Lexical.read (h : t.Lexical) (hw : t.Writes w) (htail : t.EndsAt tail)
    (hts : CodeTokens tail ts) : CodeTokens (w ++ tail) (t :: ts) := by
  cases hw with
  | var name =>
    obtain ⟨hne, hname⟩ := h
    have hread := hts.var (String.toList_eq_nil_iff.not.mpr hne) hname htail.isNamePart
    rw [String.ofList_toList] at hread
    exact hread
  | name s =>
    obtain ⟨c, cs, hs, hc, hcs⟩ := h
    have hread := hts.name hc hcs htail.isNamePart
    rw [← hs, String.ofList_toList] at hread
    exact hread
  | int n => exact hts.int h htail
  | float hx => exact hts.float hx htail
  | string s =>
    have hread := hts.singleQuoted s.toList
    rw [String.ofList_toList] at hread
    exact hread
  | template parts =>
    have hread := hts.doubleQuoted h.1
    rw [h.2] at hread
    exact hread
  | symbol hs => exact hts.symbol hs htail

end Tokens

end ViewTemplate.Code
