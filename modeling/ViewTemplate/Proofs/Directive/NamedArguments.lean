import ViewTemplate.Proofs.Directive.Unruled
import ViewTemplate.Proofs.Run.OneCall

namespace ViewTemplate.Directive

open Pattern Code

structure Digits where
  chars : List Char
  ne_nil : chars ≠ []
  chars_ok : ∀ c ∈ chars, c.isDigit = true

/-- The number that digits are read as; one too large for an integer is a double. -/
def Digits.number (d : Digits) : Number :=
  match Decimal.word? (Decimal.natOfDigits d.chars) with
  | some n => .int n
  | none => .float (Decimal.nearest false (Decimal.natOfDigits d.chars) 0)

/-- A word that stands for itself: it begins with a letter and is no value word in any case. -/
structure BareWord where
  name : Identifier
  letter : name.head.isAlpha = true
  noValue : Text.lowerAscii name.text ∉ valueWords

/-- The content of a string that is written as it is, on one line. -/
structure PlainString where
  chars : List Char
  plain : ∀ c ∈ chars, c ∉ ['{', '}', '\'', '"', '\\', '\n']

/-- The value of an argument. -/
inductive WrittenValue where
  | number (d : Digits)
  | word (w : BareWord)
  | string (s : PlainString)

namespace WrittenValue

def chars : WrittenValue → List Char
  | .number d => d.chars
  | .word w => w.name.chars
  | .string s => '\'' :: (s.chars ++ ['\''])

def code : WrittenValue → List Char
  | .number d => d.chars
  | .word w => '\'' :: (w.name.chars ++ ['\''])
  | .string s => '\'' :: (s.chars ++ ['\''])

def value : WrittenValue → Value
  | .number d => d.number.toValue
  | .word w => .string w.name.text
  | .string s => .string (String.ofList s.chars)

end WrittenValue

structure NamedArgument where
  key : Identifier
  value : WrittenValue

namespace NamedArgument

def chars (a : NamedArgument) : List Char := a.key.chars ++ '=' :: a.value.chars

def code (a : NamedArgument) : List Char :=
  '\'' :: (a.key.chars ++ '\'' :: ' ' :: '=' :: '>' :: ' ' :: a.value.code)

def entry (a : NamedArgument) : String × Value := (a.key.text, a.value.value)

end NamedArgument

/-- Arguments with a blank in front of each. -/
def spaced (args : List NamedArgument) : List Char := args.flatMap fun a => ' ' :: a.chars

def namedDirective (name : Identifier) (args : List NamedArgument) : List Char :=
  name.chars ++ spaced args

/-- A name that no rule takes for a keyword, not even its beginning, and that the code calls a
function by. -/
structure CallName (name : Identifier) : Prop where
  noKeyword : ∀ s ∈ ["if", "while", "else", "foreach", "include"], ∀ u, u <+: name.chars →
    ¬IsAnyCase s u
  noWord : Text.lowerAscii name.text ∉ ["array", "isset", "empty", "true", "false", "null"]

variable {name : Identifier} {a : NamedArgument} {args : List NamedArgument} {c : Char}
  {u v w tail : List Char}

section Characters

def isInner (c : Char) : Bool := c ≠ '{' && c ≠ '}' && c ≠ '\n'

theorem isInner_of_isWordChar (h : isWordChar c = true) : isInner c = true := by
  have hn := toNat_of_isWordChar h
  have hne : ∀ d : Char, isWordChar d = false → c ≠ d := by
    rintro d hd rfl
    rw [h] at hd
    cases hd
  simp [isInner, hne '{' rfl, hne '}' rfl, hne '\n' rfl]

theorem PlainString.not_special (s : PlainString) (hc : c ∈ s.chars) :
    c ≠ '{' ∧ c ≠ '}' ∧ c ≠ '\'' ∧ c ≠ '"' ∧ c ≠ '\\' ∧ c ≠ '\n' := by
  simpa using s.plain c hc

theorem PlainString.noQuote (s : PlainString) : ∀ c ∈ s.chars, c ≠ '\'' ∧ c ≠ '\\' := by
  intro c hc
  obtain ⟨-, -, hquote, -, hbackslash, -⟩ := s.not_special hc
  exact ⟨hquote, hbackslash⟩

theorem Identifier.noQuote (x : Identifier) : ∀ c ∈ x.chars, c ≠ '\'' ∧ c ≠ '\\' := by
  intro c hc
  constructor <;> rintro rfl <;> exact absurd (x.isWordChar _ hc) (by decide)

theorem WrittenValue.word_or_quoted (v : WrittenValue) :
    (v.chars ≠ [] ∧ ∀ c ∈ v.chars, isWordChar c = true) ∨
      ∃ s : PlainString, v.chars = '\'' :: (s.chars ++ ['\'']) := by
  cases v with
  | number d => exact .inl ⟨d.ne_nil, fun c hc => isWordChar_of_isDigit (d.chars_ok c hc)⟩
  | word w => exact .inl ⟨w.name.ne_nil, w.name.isWordChar⟩
  | string s => exact .inr ⟨s, rfl⟩

theorem WrittenValue.isInner (v : WrittenValue) : ∀ c ∈ v.chars, isInner c = true := by
  obtain ⟨-, hword⟩ | ⟨s, hs⟩ := v.word_or_quoted
  · exact fun c hc => isInner_of_isWordChar (hword c hc)
  · rw [hs]
    refine List.forall_mem_cons.mpr ⟨rfl, List.forall_mem_append.mpr ⟨fun c hc => ?_, by simp; rfl⟩⟩
    simp [Directive.isInner, s.not_special hc]

theorem isInner_spaced (args : List NamedArgument) : ∀ c ∈ spaced args, isInner c = true := by
  intro c hc
  obtain ⟨a, -, hc⟩ := List.mem_flatMap.mp hc
  rw [NamedArgument.chars, List.mem_cons, List.mem_append, List.mem_cons] at hc
  rcases hc with rfl | hc | rfl | hc
  · rfl
  · exact isInner_of_isWordChar (a.key.isWordChar c hc)
  · rfl
  · exact a.value.isInner c hc

theorem not_mem_of_isInner (h : ∀ c ∈ w, isInner c = true) (hc : isInner c = false) : c ∉ w := by
  intro hmem
  rw [h c hmem] at hc
  cases hc

end Characters

section Rules

/-- A text in which each character is told from the blank begins before the arguments do. -/
theorem prefix_of_append (h : name.chars ++ ' ' :: w = u ++ v) (hu : ' ' ∉ u) :
    u <+: name.chars := by
  rcases List.append_eq_append_iff.mp h with ⟨x, rfl, hx⟩ | ⟨x, hx, -⟩
  · cases x with
    | nil => simp
    | cons d x =>
      obtain ⟨rfl, -⟩ := List.cons.inj hx
      simp at hu
  · exact hx ▸ List.prefix_append u x

theorem not_mem_of_anyCase {s : String} {d : Char} (h : IsAnyCase s u)
    (hd : Text.foldChar d ∉ s.toList.map Text.foldChar) : d ∉ u :=
  fun hmem => hd (h ▸ List.mem_map_of_mem hmem)

theorem unruled_named (hname : CallName name) (hne : args ≠ [])
    (hmarks : Unmarked (namedDirective name args)) : Unruled (namedDirective name args) := by
  obtain ⟨a, more, rfl⟩ := List.exists_cons_of_ne_nil hne
  have hinner : ∀ c ∈ namedDirective name (a :: more), isInner c = true :=
    List.forall_mem_append.mpr ⟨fun c hc => isInner_of_isWordChar (name.isWordChar c hc),
      isInner_spaced _⟩
  -- No keyword goes over the blank behind the name, so it would begin the name.
  have hbegins : ∀ s ∈ ["if", "while", "else", "foreach", "include"], ∀ u v,
      namedDirective name (a :: more) = u ++ v → ¬IsAnyCase s u := by
    have hblank : ∀ s ∈ ["if", "while", "else", "foreach", "include"],
        Text.foldChar ' ' ∉ s.toList.map Text.foldChar := by decide
    intro s hs u v huv hu
    exact hname.noKeyword s hs u (prefix_of_append huv (not_mem_of_anyCase hu (hblank s hs))) hu
  refine ⟨⟨⟨?_, ?_, ?_⟩, hmarks, ?_, ?_⟩, ?_, ?_⟩
  · exact ⟨_, _, rfl, isWordPart_of_isWordChar (isWordChar_of_isAlpha name.head_ok)⟩
  · exact not_mem_of_isInner hinner rfl
  · exact not_mem_of_isInner hinner rfl
  · rintro ⟨u, v, huv, hu, -⟩
    exact hbegins "foreach" (by simp) u v huv hu
  · rintro ⟨u, v, huv, hu, -⟩
    exact hbegins "include" (by simp) u v huv hu
  · rintro u v huv (hu | hu | ⟨x, z, y, rfl, hx, -⟩)
    · exact absurd hu (hbegins "while" (by simp) u v huv)
    · exact absurd hu (hbegins "if" (by simp) u v huv)
    · exact absurd hx (hbegins "else" (by simp) x (z ++ y ++ v) (by simp [huv]))
  · -- An argument has its sign, which is no blank and in no keyword that stands alone.
    intro u v huv hv s hs hu
    have hsign : '=' ∈ u ++ v := by simp [← huv, namedDirective, spaced, NamedArgument.chars]
    rcases List.mem_append.mp hsign with hmem | hmem
    · have hletters : ∀ s ∈ ["else", "break", "continue"],
          Text.foldChar '=' ∉ s.toList.map Text.foldChar := by decide
      exact not_mem_of_anyCase hu (hletters s hs) hmem
    · exact absurd (hv _ hmem) (by decide)

end Rules

section Matching

variable {next : Cursor → Option Cursor} {m r : Cursor} {before : Option Char}

theorem run_wordEdge (h : m.before.any Text.isWordPart ≠ m.rest.head?.any Text.isWordPart) :
    wordEdge.run next m = next m := by
  rw [run, if_pos h]

def argumentValue : Pattern :=
  oneOf [exact "$" ++ many1 (wordOr "\"'][-_>$"), quotedText '"', quotedText '\'',
    group 3 (many1 (wordOr "->"))]

theorem namedArgument_eq :
    namedArgument = wordEdge ++ group 1 (few1 (wordOr "-")) ++ many blank ++ exact "=" ++
      many blank ++ group 2 argumentValue := rfl

/-- The end of the arguments or the blank in front of the next one. -/
def EndsArgument (tail : List Char) : Prop := tail = [] ∨ ∃ rest, tail = ' ' :: rest

theorem EndsArgument.head (h : EndsArgument tail) : ∀ c, tail.head? = some c → c = ' ' := by
  rintro c hc
  rcases h with rfl | ⟨rest, rfl⟩
  · cases hc
  · exact (Option.some.inj hc).symm

theorem run_argumentValue_bare (h : m.rest = c :: w ++ tail)
    (hw : ∀ d ∈ c :: w, isWordChar d = true)
    (htail : EndsArgument tail) (hnext : next ((m.after (c :: w) tail).keep 3 m) = some r) :
    argumentValue.run next m = some r := by
  -- The first character of a word decides against the other three ways.
  have hword := isWordPart_of_isWordChar (hw c List.mem_cons_self)
  have hother : ∀ d : Char, Text.isWordPart d = false → m.rest.head? ≠ some d := by
    intro d hd hhead
    rw [h] at hhead
    exact Text.ne_of_isWordPart hword hd (Option.some.inj hhead)
  have hvariable : (exact "$" ++ many1 (wordOr "\"'][-_>$")).run next m = none :=
    run_exact_none rfl (hother '$' rfl)
  have hdouble : (quotedText '"').run next m = none := run_exact_none rfl (hother '"' rfl)
  have hsingle : (quotedText '\'').run next m = none := run_exact_none rfl (hother '\'' rfl)
  refine (run_alt_right hvariable).trans <| (run_alt_right hdouble).trans <|
    (run_alt_right hsingle).trans ?_
  show (many1 (wordOr "->")).run (fun n => next (n.keep 3 m)) m = _
  refine run_many1 h (List.cons_ne_nil c w) (fun d hd => ?_) (fun d hd => ?_) hnext
  · rw [isWordPart_of_isWordChar (hw d hd)]
    rfl
  · rw [htail.head d hd]
    rfl

theorem run_argumentValue_quoted (s : PlainString) (h : m.rest = '\'' :: (s.chars ++ '\'' :: tail))
    (hnext : next (m.after ('\'' :: (s.chars ++ ['\''])) tail) = some r) :
    argumentValue.run next m = some r := by
  have hother : ∀ d : Char, d ≠ '\'' → m.rest.head? ≠ some d := by
    rintro d hd hhead
    rw [h] at hhead
    exact hd (Option.some.inj hhead).symm
  have hvariable : (exact "$" ++ many1 (wordOr "\"'][-_>$")).run next m = none :=
    run_exact_none rfl (hother '$' (by decide))
  have hdouble : (quotedText '"').run next m = none := run_exact_none rfl (hother '"' (by decide))
  refine (run_alt_right hvariable).trans <| (run_alt_right hdouble).trans <| run_alt_left ?_
  have hchars : ∀ d ∈ s.chars, decide (d ≠ '\'' ∧ d ≠ '\\') = true :=
    fun d hd => decide_eq_true (s.noQuote d hd)
  let k := m.after ['\''] (s.chars ++ '\'' :: tail)
  let j := k.after s.chars ('\'' :: tail)
  have hclose : (exact (String.ofList ['\''])).run next j = some r := by
    refine (run_exact (w := ['\'']) rfl rfl).trans ?_
    rw [← hnext, Cursor.after_after, Cursor.after_after]
    rfl
  -- There are no escapes, so what repeats them takes nothing in front of the closing quote.
  have hplain : ∀ next, (exact "\\" ++ inLine ++
      many (char fun c => c ≠ '\'' ∧ c ≠ '\\')).run next j = none := by
    intro next
    rw [run_seq, run_seq]
    exact run_exact_none (c := '\\') rfl (by rintro ⟨⟩)
  have hescapes : (many (exact "\\" ++ inLine ++ many (char fun c => c ≠ '\'' ∧ c ≠ '\\'))).run
      ((exact (String.ofList ['\''])).run next) j = some r := (run_many_none hplain).trans hclose
  refine (run_exact (w := ['\'']) rfl h).trans ?_
  refine (run_many (w := s.chars) rfl hchars ?_ ?_).trans hescapes
  · rintro d ⟨⟩
    rfl
  · exact Option.isSome_of_eq_some hescapes

theorem Digits.ofNumeral? (d : Digits) : Number.ofNumeral? d.chars = some d.number := by
  obtain ⟨c, cs, hcs⟩ := List.exists_cons_of_ne_nil d.ne_nil
  have hdigits := d.chars_ok
  have hword : Decimal.readWord? d.chars = Decimal.word? (Decimal.natOfDigits d.chars) := by
    rw [hcs] at hdigits ⊢
    rw [Decimal.readWord?, Decimal.readInt?_digits hdigits]
    rfl
  rw [Digits.number, ← hword]
  rw [hcs] at hdigits ⊢
  have hc := hdigits c List.mem_cons_self
  split
  · rename_i n hn
    exact Number.ofNumeral?_int hc hn
  · rename_i hn
    refine Number.ofNumeral?_float hc hn ?_ (Decimal.readFloat?_of_isDigit hdigits)
    exact List.all_eq_true.mpr fun d hd => by simp [Number.numeralChar, hdigits d hd]

theorem Digits.quoteWord (d : Digits) :
    quoteWord (String.ofList d.chars) = String.ofList d.chars := by
  have htrim : Text.trim d.chars = d.chars := Number.trim_of_no_blank fun c hc =>
    isBlank_of_isWordChar (isWordChar_of_isDigit (d.chars_ok c hc))
  have hnumber : Number.ofText? (String.ofList d.chars) = some d.number := by
    rw [Number.ofText?, String.toList_ofList, htrim, d.ofNumeral?]
  exact if_pos (by simp [isCode, hnumber])

theorem BareWord.quoteWord (w : BareWord) :
    quoteWord w.name.text = String.ofList ('\'' :: (w.name.chars ++ ['\''])) := by
  have htext : w.name.text.toList = w.name.head :: w.name.tail := String.toList_ofList
  have hnumber : Number.ofText? w.name.text = none := Number.ofText?_eq_none htext (.inl w.letter)
  have hhead : ∀ c, w.name.text.toList.head? = some c → c ∉ "$'\"([".toList := by
    intro c hc hmem
    have hsigns : "$'\"([".toList.all (fun c => !isWordChar c) = true := by decide
    rw [htext] at hc
    have hsign := List.all_eq_true.mp hsigns c hmem
    rw [← Option.some.inj hc, isWordChar_of_isAlpha w.name.head_ok] at hsign
    cases hsign
  rw [Directive.quoteWord, isCode_eq hhead w.noValue, hnumber, if_neg (by decide), htext]
  exact congrArg (fun cs => String.ofList ('\'' :: cs ++ ['\'']))
    (flatMap_escapeQuote w.name.noQuote)

theorem namedEntry_bare {key w x y : List Char} {s : Span} {n : Nat} (hn : n = w.length) :
    namedEntry ⟨s, [(2, ⟨w ++ y, n⟩), (3, ⟨w ++ y, n⟩), (1, ⟨key ++ x, key.length⟩)]⟩ =
      "'" ++ String.ofList key ++ "' => " ++ quoteWord (String.ofList w) := by
  subst hn
  simp [namedEntry, Found.group, Found.group?, Span.text]

theorem namedEntry_quoted {key w x y : List Char} {s : Span} {n : Nat} (hn : n = w.length) :
    namedEntry ⟨s, [(2, ⟨w ++ y, n⟩), (1, ⟨key ++ x, key.length⟩)]⟩ =
      "'" ++ String.ofList key ++ "' => " ++ String.ofList w := by
  subst hn
  simp [namedEntry, Found.group, Found.group?, Span.text]

/-- Where a match of an argument ends, and that it gives the entry. -/
def EndsEntry (a : NamedArgument) (tail : List Char) (r : Cursor) : Prop :=
  r.rest = tail ∧ ∀ s, (namedEntry ⟨s, r.groups⟩).toList = a.code

theorem WrittenValue.exists_head (v : WrittenValue) :
    ∃ c l, v.chars = c :: l ∧ Text.isBlank c = false := by
  obtain ⟨hne, hword⟩ | ⟨s, hs⟩ := v.word_or_quoted
  · obtain ⟨c, l, hcl⟩ := List.exists_cons_of_ne_nil hne
    exact ⟨c, l, hcl, isBlank_of_isWordChar (hword c (by simp [hcl]))⟩
  · exact ⟨_, _, hs, rfl⟩

theorem run_value (a : NamedArgument) {x : List Char} (h : m.rest = a.value.chars ++ tail)
    (hgroups : m.groups = [(1, ⟨a.key.chars ++ x, a.key.chars.length⟩)])
    (htail : EndsArgument tail) :
    ∃ r, (group 2 argumentValue).run some m = some r ∧ EndsEntry a tail r := by
  have hsplit : ∀ w, m.rest = w ++ tail → (m.after w tail).position - m.position = w.length :=
    fun w _ => by simp
  -- A numeral is matched as a word; a string is matched with its quotes.
  have hbare : ∀ w, m.rest = w ++ tail → w ≠ [] → (∀ d ∈ w, isWordChar d = true) →
      quoteWord (String.ofList w) = String.ofList a.value.code →
      ∃ r, (group 2 argumentValue).run some m = some r ∧ EndsEntry a tail r := by
    intro w hrest hne hw hcode
    obtain ⟨c, l, rfl⟩ := List.exists_cons_of_ne_nil hne
    refine ⟨_, run_argumentValue_bare hrest hw htail rfl, rfl, fun s => ?_⟩
    show (namedEntry ⟨s, (2, ⟨m.rest, _⟩) :: (3, ⟨m.rest, _⟩) :: m.groups⟩).toList = _
    rw [hgroups, hrest]
    refine (congrArg String.toList (namedEntry_bare (hsplit _ hrest))).trans ?_
    rw [hcode]
    simp [NamedArgument.code]
  cases hv : a.value with
  | number d =>
    rw [hv] at h
    exact hbare d.chars h d.ne_nil (fun c hc => isWordChar_of_isDigit (d.chars_ok c hc))
      (by rw [hv]; exact d.quoteWord)
  | word w =>
    rw [hv] at h
    exact hbare w.name.chars h w.name.ne_nil w.name.isWordChar (by rw [hv]; exact w.quoteWord)
  | string q =>
    rw [hv] at h
    have hrest : m.rest = '\'' :: (q.chars ++ '\'' :: tail) := by simp [h, WrittenValue.chars]
    refine ⟨_, run_argumentValue_quoted q hrest rfl, rfl, fun s => ?_⟩
    show (namedEntry ⟨s, (2, ⟨m.rest, _⟩) :: m.groups⟩).toList = _
    rw [hgroups, h]
    refine (congrArg String.toList (namedEntry_quoted (hsplit _ h))).trans ?_
    simp [NamedArgument.code, hv, WrittenValue.code, WrittenValue.chars]

/-- An argument is matched as a whole where no word goes before it. -/
theorem run_namedArgument (a : NamedArgument) (hbefore : before.any Text.isWordPart = false)
    (htail : EndsArgument tail) :
    ∃ r, namedArgument.run some ⟨before, a.chars ++ tail, 0, []⟩ = some r ∧ EndsEntry a tail r := by
  let m : Cursor := ⟨before, a.key.chars ++ ('=' :: (a.value.chars ++ tail)), 0, []⟩
  let k := (m.after a.key.chars ('=' :: (a.value.chars ++ tail))).keep 1 m
  let e := k.after ['='] (a.value.chars ++ tail)
  have hstart : (⟨before, a.chars ++ tail, 0, []⟩ : Cursor) = m := by
    simp [m, NamedArgument.chars]
  have hgroups : e.groups = [(1, ⟨a.key.chars ++ ('=' :: (a.value.chars ++ tail)),
      a.key.chars.length⟩)] := by simp [e, k, m, Cursor.keep, Cursor.after]
  obtain ⟨r, hr, hends⟩ := run_value a rfl hgroups htail
  have hword := isWordPart_of_isWordChar (isWordChar_of_isAlpha a.key.head_ok)
  have hedge : m.before.any Text.isWordPart ≠ m.rest.head?.any Text.isWordPart := by
    show before.any Text.isWordPart ≠ Text.isWordPart a.key.head
    rw [hbefore, hword]
    decide
  have hvalue : (many blank).run ((group 2 argumentValue).run some) e = some r := by
    obtain ⟨c, l, hcl, hc⟩ := a.value.exists_head
    have hrest : e.rest = c :: (l ++ tail) := by simp [e, hcl]
    exact (run_no_blanks hrest hc).trans hr
  have hsign : (many blank).run ((exact "=").run ((many blank).run
      ((group 2 argumentValue).run some))) k = some r :=
    (run_no_blanks (c := '=') rfl rfl).trans ((run_exact (w := ['=']) rfl rfl).trans hvalue)
  refine ⟨r, ?_, hends⟩
  rw [hstart, namedArgument_eq]
  simp only [run_seq]
  rw [run_wordEdge hedge]
  show (few1 (wordOr "-")).run (fun n => (many blank).run ((exact "=").run ((many blank).run
    ((group 2 argumentValue).run some))) (n.keep 1 m)) m = some r
  -- The key is taken lazily; inside of it no sign follows, so it is taken to its end.
  refine run_few1 (w := a.key.chars) rfl a.key.ne_nil (fun c hc => ?_)
    (fun u v huv _ hv => ?_) hsign
  · rw [isWordPart_of_isWordChar (a.key.isWordChar c hc)]
    rfl
  · obtain ⟨d, l, rfl⟩ := List.exists_cons_of_ne_nil hv
    have hd := a.key.isWordChar d (by simp [huv])
    refine (run_no_blanks (c := d) rfl (isBlank_of_isWordChar hd)).trans
      (run_exact_none (c := '=') rfl ?_)
    rintro ⟨⟩
    exact absurd hd (by decide)

/-- The entries of the matches among the pieces of a text. -/
def entriesOf (pieces : List Piece) : List String :=
  (pieces.filterMap fun
    | .kept _ => none
    | .found f => some f).map namedEntry

theorem run_namedArgument_blank : namedArgument.run some ⟨before, ' ' :: w, 0, []⟩ = none := by
  refine run_eq_none fun n hn => ?_
  obtain ⟨_, ⟨_, ⟨_, ⟨_, ⟨_, ⟨rfl, -⟩, _, hkey, -⟩, -⟩, -⟩, -⟩, -⟩ := hn
  obtain ⟨u, hne, hu, hpast, -⟩ := takes_few1 hkey
  obtain ⟨c, l, rfl⟩ := List.exists_cons_of_ne_nil hne
  obtain ⟨rfl, -⟩ := List.cons.inj hpast
  exact absurd (hu ' ' List.mem_cons_self) (by decide)

theorem endsArgument_spaced (args : List NamedArgument) : EndsArgument (spaced args) := by
  cases args with
  | nil => exact .inl rfl
  | cons b more => exact .inr ⟨_, rfl⟩

theorem pieces_argument (a : NamedArgument) (hbefore : before.any Text.isWordPart = false)
    (htail : EndsArgument tail) :
    ∃ f behind, namedArgument.pieces before (a.chars ++ tail) =
      .found f :: namedArgument.pieces behind tail ∧ namedEntry f = String.ofList a.code := by
  obtain ⟨r, hrun, hrest, hentry⟩ := run_namedArgument a hbefore htail
  obtain ⟨c, l, hcl⟩ : ∃ c l, a.chars = c :: l := ⟨_, _, rfl⟩
  rw [hcl, List.cons_append] at hrun ⊢
  have hshorter : r.rest.length < (c :: (l ++ tail)).length := by
    rw [hrest, List.length_cons, List.length_append]
    omega
  refine ⟨⟨⟨c :: (l ++ tail), r.position⟩, r.groups⟩, r.before, ?_, ?_⟩
  · rw [Pattern.pieces, hrun]
    dsimp only
    rw [dif_pos hshorter, hrest]
  · rw [← hentry, String.ofList_toList]

theorem entriesOf_pieces (more : List NamedArgument) :
    ∀ (a : NamedArgument) (before : Option Char), before.any Text.isWordPart = false →
      entriesOf (namedArgument.pieces before (a.chars ++ spaced more)) =
        (a :: more).map fun a => String.ofList a.code := by
  induction more with
  | nil =>
    intro a before hbefore
    obtain ⟨f, behind, hpieces, hentry⟩ := pieces_argument a hbefore (endsArgument_spaced [])
    rw [hpieces, spaced, List.flatMap_nil, Pattern.pieces]
    exact congrArg (· :: []) hentry
  | cons b more ih =>
    intro a before hbefore
    obtain ⟨f, behind, hpieces, hentry⟩ :=
      pieces_argument a hbefore (endsArgument_spaced (b :: more))
    have hblank : namedArgument.pieces behind (spaced (b :: more)) =
        .kept ' ' :: namedArgument.pieces (some ' ') (b.chars ++ spaced more) := by
      show namedArgument.pieces behind (' ' :: (b.chars ++ spaced more)) = _
      rw [Pattern.pieces, run_namedArgument_blank]
    rw [hpieces, hblank, List.map_cons, ← hentry, ← ih b (some ' ') rfl]
    rfl

end Matching

section Call

variable {p : Pattern} {cs x : List Char} {d : Char}

theorem pieces_of_no_match (h : ∀ before u c v, cs = u ++ c :: v →
    p.run some ⟨before, c :: v, 0, []⟩ = none) :
    ∀ before, p.pieces before cs = cs.map Piece.kept := by
  induction cs with
  | nil =>
    intro before
    rw [Pattern.pieces, List.map_nil]
  | cons c cs ih =>
    intro before
    have hrest := ih fun before u d v huv => h before (c :: u) d v (by rw [huv]; rfl)
    rw [Pattern.pieces, h before [] c cs rfl, List.map_cons, hrest]

theorem first?_of_no_match (h : ∀ before u c v, cs = u ++ c :: v →
    p.run some ⟨before, c :: v, 0, []⟩ = none) : p.first? cs = none := by
  have hkept : ∀ (ds before : List Char), first?.go before (ds.map Piece.kept) = none := by
    intro ds
    induction ds with
    | nil => exact fun _ => rfl
    | cons d ds ih => exact fun before => ih (d :: before)
  rw [first?, pieces_of_no_match h]
  exact hkept cs []

theorem argumentList_none (hcs : cs = x ++ [d]) (hd : d ≠ ')') (hblank : Text.isBlank d = false) :
    argumentList.first? cs = none := by
  refine first?_of_no_match fun before u c v huv => run_eq_none fun n hn => ?_
  obtain ⟨_, ⟨k, ⟨l, ⟨_, hopen, hinside⟩, hclose⟩, hblanks⟩, rfl, hend⟩ := hn
  obtain ⟨_, hinside, rfl⟩ := hinside
  obtain ⟨y, -, hinside⟩ := takes_many hinside
  obtain ⟨z, hz, hbehind⟩ := takes_many hblanks
  have hrest : c :: v = '(' :: (y ++ ')' :: z) := by
    have hall := (takes_exact hopen).1
    rw [hinside.1] at hall
    have hright := (takes_exact hclose).1
    rw [Cursor.keep_rest, hbehind.1, hend] at hright
    rw [hright] at hall
    simpa using hall
  -- The parenthesis and the blanks behind it would be the end of the text.
  have hlast : d ∈ ')' :: z := by
    refine List.mem_of_getLast? ?_
    have hsame : x ++ [d] = (u ++ '(' :: y) ++ ')' :: z := by
      rw [← hcs, huv, hrest]
      simp
    have hends := congrArg List.getLast? hsame
    rw [List.getLast?_concat, List.getLast?_append_of_ne_nil _ (List.cons_ne_nil _ _)] at hends
    exact hends.symm
  rcases List.mem_cons.mp hlast with rfl | hmem
  · exact absurd rfl hd
  · rw [hz d hmem] at hblank
    cases hblank

theorem NamedArgument.exists_last (a : NamedArgument) :
    ∃ x d, a.chars = x ++ [d] ∧ d ≠ ')' ∧ Text.isBlank d = false := by
  have hvalue : ∃ x d, a.value.chars = x ++ [d] ∧ d ≠ ')' ∧ Text.isBlank d = false := by
    obtain ⟨hne, hword⟩ | ⟨s, hs⟩ := a.value.word_or_quoted
    · have hlast := hword _ (List.getLast_mem hne)
      refine ⟨_, _, (List.dropLast_append_getLast hne).symm, ?_, isBlank_of_isWordChar hlast⟩
      intro heq
      rw [heq] at hlast
      exact absurd hlast (by decide)
    · exact ⟨'\'' :: s.chars, '\'', hs, by decide, rfl⟩
  obtain ⟨x, d, hx, hd⟩ := hvalue
  exact ⟨a.key.chars ++ '=' :: x, d, by simp [NamedArgument.chars, hx], hd⟩

theorem exists_last_spaced (more : List NamedArgument) : ∀ a : NamedArgument,
    ∃ x d, a.chars ++ spaced more = x ++ [d] ∧ d ≠ ')' ∧ Text.isBlank d = false := by
  induction more with
  | nil =>
    intro a
    obtain ⟨x, d, hx, hd⟩ := a.exists_last
    exact ⟨x, d, by simp [spaced, hx], hd⟩
  | cons b more ih =>
    intro a
    obtain ⟨x, d, hx, hd⟩ := ih b
    refine ⟨a.chars ++ ' ' :: x, d, ?_, hd⟩
    show a.chars ++ ' ' :: (b.chars ++ spaced more) = _
    simp [hx]

def itemsCode (args : List NamedArgument) : String :=
  String.intercalate ", " (args.map fun a => String.ofList a.code)

def namedCall (name : Identifier) (args : List NamedArgument) : String :=
  codeBlock ("echo " ++ name.text ++ "([" ++ itemsCode args ++ "]);")

theorem callCode?_named (name : Identifier) (a : NamedArgument) (more : List NamedArgument) :
    callCode? name.text (String.ofList (a.chars ++ spaced more)) =
      some (namedCall name (a :: more)) := by
  obtain ⟨x, d, hx, hd, hblank⟩ := exists_last_spaced more a
  have hne : String.ofList (a.chars ++ spaced more) ≠ "" := by
    intro hnil
    have htoList := congrArg String.toList hnil
    simp [NamedArgument.chars] at htoList
  have hentries : (namedArgument.all (a.chars ++ spaced more)).map namedEntry =
      (a :: more).map fun a => String.ofList a.code := entriesOf_pieces more a none rfl
  have hall : namedArgument.all (a.chars ++ spaced more) ≠ [] := by
    intro hnil
    rw [hnil] at hentries
    cases hentries
  rw [callCode?, if_neg hne, String.toList_ofList, argumentList_none hx hd hblank]
  dsimp only
  split
  · exact absurd ‹_› hall
  · rw [hentries]
    rfl

theorem compileCalls_named (name : Identifier) (hne : args ≠ []) :
    compileCalls .braces (braced (namedDirective name args)) =
      ((namedCall name args).toList, []) := by
  obtain ⟨a, more, rfl⟩ := List.exists_cons_of_ne_nil hne
  have hinner := isInner_spaced (a :: more)
  have hargs : ∀ c ∈ a.chars ++ spaced more, isInner c = true :=
    fun c hc => hinner c (List.mem_cons_of_mem _ hc)
  refine compileCalls_braced (z := [' ']) (name.ne_nil)
    (fun c hc => isWordPart_of_isWordChar (name.isWordChar c hc))
    (List.forall_mem_singleton.mpr rfl) ?_ ?_ (not_mem_of_isInner hargs rfl)
    (not_mem_of_isInner hargs rfl) (callCode?_named name a more)
  · rintro c ⟨⟩
    rfl
  · rintro c ⟨⟩
    exact isBlank_of_isWordChar (isWordChar_of_isAlpha a.key.head_ok)

theorem generate_named (hname : CallName name) (hne : args ≠ [])
    (hmarks : Unmarked (namedDirective name args)) :
    generate .braces (String.ofList (braced (namedDirective name args))) =
      .ok ⟨Artifact.ofCode (namedCall name args).toList, []⟩ :=
  (unruled_named hname hne hmarks).generate (compileCalls_named name hne)

end Call

section Code

theorem spells_plain (h : ∀ c ∈ w, c ≠ '\'' ∧ c ≠ '\\') :
    Spells ('\'' :: (w ++ ['\''])) [.string (String.ofList w)] := by
  have hspells := spells_singleQuoted w
  rwa [show escapeSingle w = w from flatMap_escapeQuote h] at hspells

theorem spells_value (v : WrittenValue) :
    ∃ t, Spells v.code [t] ∧ Phrase .access (.literal v.value) [t] := by
  cases v with
  | number d =>
    have hnumber := d.ofNumeral?
    have hpoints := pointsLead_of_digits d.chars_ok
    obtain ⟨c, cs, hcs⟩ := List.exists_cons_of_ne_nil d.ne_nil
    have hc := d.chars_ok c (by simp [hcs])
    rw [WrittenValue.code, hcs]
    rw [hcs] at hnumber hpoints
    exact ⟨_, spells_token hc hnumber hpoints, phrase_token d.number⟩
  | word w => exact ⟨_, spells_plain w.name.noQuote, .string _⟩
  | string s => exact ⟨_, spells_plain s.noQuote, .string _⟩

theorem spells_entry (a : NamedArgument) :
    ∃ ts, Spells a.code ts ∧ ItemPhrase (Run.entryItem a.entry) ts := by
  obtain ⟨t, ht, hphrase⟩ := spells_value a.value
  refine ⟨[.string a.key.text, .symbol .doubleArrow, t], ?_,
    .keyed ((Phrase.string _).loosen (by decide)) (hphrase.loosen (by decide))⟩
  intro c cs us hc hus
  have hvalue := (ht c cs us hc hus).blank (c := ' ') rfl
  have harrow : ("=>", Symbol.doubleArrow) ∈ Symbol.spellings := by decide
  have hsign := hvalue.symbol harrow ⟨_, .inl rfl⟩
  have hkey := (hsign.blank (c := ' ') rfl).singleQuoted a.key.chars
  rw [show escapeSingle a.key.chars = a.key.chars from flatMap_escapeQuote a.key.noQuote] at hkey
  simpa [NamedArgument.code, Identifier.text] using hkey

theorem spells_items (more : List NamedArgument) : ∀ a : NamedArgument,
    ∃ ts, Spells (itemsCode (a :: more)).toList ts ∧
      ItemPhrases (((a :: more).map NamedArgument.entry).map Run.entryItem) ts := by
  induction more with
  | nil =>
    intro a
    obtain ⟨ts, hts, hphrase⟩ := spells_entry a
    exact ⟨ts, by simpa [itemsCode] using hts, .last hphrase⟩
  | cons b more ih =>
    intro a
    obtain ⟨ts, hts, hphrase⟩ := spells_entry a
    obtain ⟨us, hus, hmore⟩ := ih b
    refine ⟨ts ++ .symbol .comma :: us, ?_, .cons hphrase hmore⟩
    have hcomma : StandsAlone ',' .comma := ⟨by decide, fun _ _ => rfl⟩
    intro c cs vs hc hvs
    have hbehind := hcomma.codeTokens ((hus c cs vs hc hvs).blank (c := ' ') rfl)
    have hall := hts ',' _ _ (by decide +kernel) hbehind
    simpa [itemsCode, List.append_assoc] using hall

def namedExpr (name : Identifier) (args : List NamedArgument) : Expr :=
  .call (Text.lowerAscii name.text) [.array ((args.map NamedArgument.entry).map Run.entryItem)]

theorem program_named (hname : CallName name) (hne : args ≠ []) (path : Path) :
    Artifact.program (Artifact.ofCode (namedCall name args).toList) path =
      .ok ⟨[.echo [namedExpr name args]]⟩ := by
  obtain ⟨a, more, rfl⟩ := List.exists_cons_of_ne_nil hne
  obtain ⟨ts, hts, hitems⟩ := spells_items more a
  have hleft : StandsAlone '[' .leftBracket := ⟨by decide, fun _ _ => rfl⟩
  have hright : StandsAlone ']' .rightBracket := ⟨by decide, fun _ _ => rfl⟩
  have hname' : Spells name.chars [.name name.text] :=
    spells_name name.head_ok fun d hd => isNamePart_of_isWordChar (name.tail_ok d hd)
  have hlist := (hts.between hleft hright (by decide +kernel)).between standsAlone_leftParen
    standsAlone_rightParen (by decide +kernel)
  have hspells := hname'.append hlist (by decide +kernel)
  have hword := hname.noWord
  have hvalue : Text.lowerAscii name.text ∉ ["true", "false", "null", "array"] := by
    simp only [List.mem_cons, List.not_mem_nil, or_false, not_or] at hword ⊢
    exact ⟨hword.2.2.2.1, hword.2.2.2.2.1, hword.2.2.2.2.2, hword.1⟩
  have harray := (Phrase.array hitems).loosen (show Parser.Tier.orWord.rank ≤ _ by decide)
  have hphrase := Phrase.call hvalue (.last harray)
  have hprogram := program_echo hspells (hphrase.loosen (by decide)) path
  refine (congrArg (fun code => Artifact.program (Artifact.ofCode code) path) ?_).trans hprogram
  simp [namedCall, codeBlock, Identifier.text]

end Code

end ViewTemplate.Directive
