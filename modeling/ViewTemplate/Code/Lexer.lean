import ViewTemplate.Code.SyntaxError
import ViewTemplate.Decimal.Reading
import ViewTemplate.Text.Blank
import ViewTemplate.Text.Letter

namespace ViewTemplate.Code

def lineAfter (c : Char) (line : Nat) : Nat := if c = '\n' then line + 1 else line

def afterStart? : List Char → List Char → Option (List Char)
  | [], cs => some cs
  | _ :: _, [] => none
  | p :: ps, c :: cs => if p = c then afterStart? ps cs else none

theorem length_afterStart? {ps cs rest : List Char} (h : afterStart? ps cs = some rest) :
    rest.length + ps.length = cs.length := by
  induction ps generalizing cs with
  | nil => simp_all [afterStart?]
  | cons p ps ih =>
    cases cs with
    | nil => simp [afterStart?] at h
    | cons c cs =>
      simp only [afterStart?] at h
      split at h
      · have := ih h
        simp only [List.length_cons]
        omega
      · simp at h

/-- Skips blanks and comments; `inside` says whether a comment is open. -/
def skipTrivia (inside : Bool) : List Char → Nat → Except SyntaxError (List Char × Nat)
  | [], line => if inside then .error ⟨line, .unterminatedComment⟩ else .ok ([], line)
  | c :: rest, line =>
    match inside, c, rest with
    | true, '*', '/' :: more => skipTrivia false more line
    | true, c, rest => skipTrivia true rest (lineAfter c line)
    | false, '/', '*' :: more => skipTrivia true more line
    | false, c, rest =>
      if Text.isBlank c then skipTrivia false rest (lineAfter c line) else .ok (c :: rest, line)

def startsWithDigit : List Char → Bool
  | c :: _ => c.isDigit
  | [] => false

def numeral (isFloat : Bool) : List Char → List Char × Bool × List Char
  | [] => ([], isFloat, [])
  | c :: rest =>
    if c.isDigit then
      let (cs, f, r) := numeral isFloat rest
      (c :: cs, f, r)
    else if c = '.' && !isFloat && startsWithDigit rest then
      let (cs, f, r) := numeral true rest
      (c :: cs, f, r)
    else if (c = 'e' || c = 'E') && startsWithDigit rest then
      let (cs, f, r) := numeral true rest
      (c :: cs, f, r)
    else
      match rest with
      | sign :: more =>
        if (c = 'e' || c = 'E') && (sign = '+' || sign = '-') && startsWithDigit more then
          let (cs, f, r) := numeral true more
          (c :: sign :: cs, f, r)
        else ([], isFloat, c :: sign :: more)
      | [] => ([], isFloat, [c])

/-- A numeral that is too large for an integer is a double. -/
def numeralToken (digits : List Char) (isFloat : Bool) (line : Nat) : Except SyntaxError Token :=
  match if isFloat then none else Decimal.readWord? digits with
  | some n => .ok (.int n)
  | none =>
    match Decimal.readFloat? digits with
    | some x => .ok (.float x)
    | none => .error ⟨line, .invalidNumber (String.ofList digits)⟩

/-- The content of a single-quoted string behind its opening quote, with the rest. A backslash
stands for itself except before a backslash or a single quote. -/
def singleQuoted : List Char → Nat → Except SyntaxError (List Char × List Char × Nat)
  | [], line => .error ⟨line, .unterminatedString⟩
  | c :: rest, line =>
    match c, rest with
    | '\'', rest => .ok ([], rest, line)
    | '\\', '\'' :: more => do
      let (cs, r, l) ← singleQuoted more line
      return ('\'' :: cs, r, l)
    | '\\', '\\' :: more => do
      let (cs, r, l) ← singleQuoted more line
      return ('\\' :: cs, r, l)
    | c, rest => do
      let (cs, r, l) ← singleQuoted rest (lineAfter c line)
      return (c :: cs, r, l)

def unescape? : Char → Option Char
  | 'n' => some '\n'
  | 't' => some '\t'
  | 'r' => some '\r'
  | '0' => some (Char.ofNat 0)
  | '"' => some '"'
  | '\\' => some '\\'
  | '$' => some '$'
  | _ => none

def withLiteral : List Char → List StringPart → List StringPart
  | [], parts => parts
  | cs, parts => .literal (String.ofList cs) :: parts

def startsVariable : List Char → Bool
  | c :: _ => Text.isAlphabetic c || c = '_'
  | [] => false

theorem length_dropWhile_le (p : Char → Bool) (cs : List Char) :
    (cs.dropWhile p).length ≤ cs.length := by
  induction cs with
  | nil => simp
  | cons c cs ih =>
    rw [List.dropWhile_cons]
    split
    · exact Nat.le_succ_of_le ih
    · exact Nat.le_refl _

/-- A double-quoted string behind its opening quote: the characters before its first variable, the
parts from there, and the rest. -/
def doubleQuoted (cs : List Char) (line : Nat) :
    Except SyntaxError (List Char × List StringPart × List Char × Nat) :=
  match cs with
  | [] => .error ⟨line, .unterminatedString⟩
  | '"' :: rest => .ok ([], [], rest, line)
  | '\\' :: d :: rest =>
    match unescape? d with
    | some e => do
      let (lit, parts, r, l) ← doubleQuoted rest line
      return (e :: lit, parts, r, l)
    | none => do
      let (lit, parts, r, l) ← doubleQuoted (d :: rest) line
      return ('\\' :: lit, parts, r, l)
  | c :: rest =>
    if c = '$' && startsVariable rest then do
      let name := rest.takeWhile Text.isNamePart
      let (lit, parts, r, l) ← doubleQuoted (rest.dropWhile Text.isNamePart) line
      return ([], .var (String.ofList name) :: withLiteral lit parts, r, l)
    else do
      let (lit, parts, r, l) ← doubleQuoted rest (lineAfter c line)
      return (c :: lit, parts, r, l)
termination_by cs.length
decreasing_by
  · exact Nat.lt_succ_of_le (Nat.le_succ _)
  · exact Nat.lt_succ_self _
  · exact Nat.lt_succ_of_le (length_dropWhile_le _ _)
  · exact Nat.lt_succ_self _

/-- A string without variables is no template. -/
def quotedToken : List StringPart → Token
  | [] => .string ""
  | [.literal s] => .string s
  | parts => .template parts

/-- The symbol with the longest spelling at the start. -/
def symbol? (cs : List Char) : List (String × Symbol) → Option (Symbol × List Char)
  | [] => none
  | (spelling, s) :: more =>
    match afterStart? spelling.toList cs with
    | some rest => some (s, rest)
    | none => symbol? cs more

def nextToken (c : Char) (rest : List Char) (line : Nat) :
    Except SyntaxError (Token × List Char × Nat) :=
  if c = '$' then
    match rest.takeWhile Text.isNamePart with
    | [] => .error ⟨line, .missingVariableName⟩
    | name => .ok (.var (String.ofList name), rest.dropWhile Text.isNamePart, line)
  else if c.isAlpha || c = '_' then
    .ok (.name (String.ofList (c :: rest.takeWhile Text.isNamePart)),
      rest.dropWhile Text.isNamePart, line)
  else if c.isDigit then do
    let (digits, isFloat, r) := numeral false rest
    return (← numeralToken (c :: digits) isFloat line, r, line)
  else if c = '\'' then do
    let (cs, r, l) ← singleQuoted rest line
    return (.string (String.ofList cs), r, l)
  else if c = '"' then do
    let (lit, parts, r, l) ← doubleQuoted rest line
    return (quotedToken (withLiteral lit parts), r, l)
  else
    match symbol? (c :: rest) Symbol.spellings with
    | some (s, r) => .ok (.symbol s, r, line)
    | none => .error ⟨line, .unexpectedCharacter c⟩

/-- Literal text up to the next open tag; whether there is one, and what follows it. -/
def literalText : List Char → Nat → List Char × Bool × List Char × Nat
  | [], line => ([], false, [], line)
  | c :: rest, line =>
    match c, rest with
    | '<', '?' :: 't' :: 'p' :: 'l' :: more => ([], true, more, line)
    | c, rest =>
      let (cs, opened, r, l) := literalText rest (lineAfter c line)
      (c :: cs, opened, r, l)

theorem length_numeral (isFloat : Bool) (cs : List Char) :
    (numeral isFloat cs).2.2.length ≤ cs.length := by
  fun_induction numeral isFloat cs <;> simp_all <;> omega

theorem exists_of_bind_eq_ok {ε α β : Type} {x : Except ε α} {f : α → Except ε β} {b : β}
    (h : x >>= f = .ok b) : ∃ a, x = .ok a ∧ f a = .ok b := by
  cases x with
  | error e => exact nomatch h
  | ok a => exact ⟨a, rfl, h⟩

theorem length_singleQuoted {cs s r : List Char} {line l : Nat}
    (h : singleQuoted cs line = .ok (s, r, l)) : r.length < cs.length := by
  fun_induction singleQuoted cs line generalizing s r l with
  | case1 => simp at h
  | case2 => simp_all
  | case3 line more ih | case4 line more ih | case5 line c rest _ _ _ ih =>
    obtain ⟨⟨s', r', l'⟩, hr, h⟩ := exists_of_bind_eq_ok h
    have := ih hr
    cases h
    simp
    omega

theorem length_doubleQuoted {cs lit r : List Char} {parts : List StringPart} {line l : Nat}
    (h : doubleQuoted cs line = .ok (lit, parts, r, l)) : r.length < cs.length := by
  fun_induction doubleQuoted cs line generalizing lit parts r l with
  | case1 => simp at h
  | case2 => simp_all
  | case3 line d rest e _ ih =>
    obtain ⟨⟨s', p', r', l'⟩, hr, h⟩ := exists_of_bind_eq_ok h
    have := ih hr
    cases h
    simp
    omega
  | case4 line d rest _ ih =>
    obtain ⟨⟨s', p', r', l'⟩, hr, h⟩ := exists_of_bind_eq_ok h
    have := ih hr
    cases h
    simp only [List.length_cons] at *
    omega
  | case5 line c rest _ _ hc =>
    rename_i ih
    obtain ⟨⟨s', p', r', l'⟩, hr, h⟩ := exists_of_bind_eq_ok h
    have := ih hr
    have := length_dropWhile_le Text.isNamePart rest
    cases h
    simp
    omega
  | case6 line c rest _ _ hc ih =>
    obtain ⟨⟨s', p', r', l'⟩, hr, h⟩ := exists_of_bind_eq_ok h
    have := ih hr
    cases h
    simp
    omega

theorem length_symbol? {cs r : List Char} {s : Symbol} {table : List (String × Symbol)}
    (hne : ∀ p ∈ table, p.1.toList ≠ []) (h : symbol? cs table = some (s, r)) :
    r.length < cs.length := by
  induction table with
  | nil => simp [symbol?] at h
  | cons p more ih =>
    obtain ⟨spelling, t⟩ := p
    simp only [symbol?] at h
    split at h
    · rename_i rest hrest
      have hl := length_afterStart? hrest
      have hp := List.length_pos_iff.mpr (hne _ (List.mem_cons_self))
      cases h
      simp only at hp
      omega
    · exact ih (fun p hp => hne p (List.mem_cons_of_mem _ hp)) h

theorem spellings_ne_nil : ∀ p ∈ Symbol.spellings, p.1.toList ≠ [] := by
  decide +kernel

theorem length_nextToken {c : Char} {rest r : List Char} {line l : Nat} {t : Token}
    (h : nextToken c rest line = .ok (t, r, l)) : r.length ≤ rest.length := by
  have hd := length_dropWhile_le Text.isNamePart rest
  unfold nextToken at h
  split at h
  · split at h
    · simp at h
    · cases h
      exact hd
  · split at h
    · cases h
      exact hd
    · split at h
      · have hn := length_numeral false rest
        obtain ⟨t', _, h⟩ := exists_of_bind_eq_ok h
        cases h
        exact hn
      · split at h
        · obtain ⟨⟨s', r', l'⟩, hr, h⟩ := exists_of_bind_eq_ok h
          have := length_singleQuoted hr
          cases h
          omega
        · split at h
          · obtain ⟨⟨s', p', r', l'⟩, hr, h⟩ := exists_of_bind_eq_ok h
            have := length_doubleQuoted hr
            cases h
            omega
          · split at h
            · rename_i hs
              have := length_symbol? spellings_ne_nil hs
              cases h
              simp at this
              omega
            · simp at h

theorem length_skipTrivia {inside : Bool} {cs r : List Char} {line l : Nat}
    (h : skipTrivia inside cs line = .ok (r, l)) : r.length ≤ cs.length := by
  fun_induction skipTrivia inside cs line generalizing r l with
  | case1 => simp at h
  | case2 => simp_all
  | case3 _ _ ih | case5 _ _ ih =>
    have := ih h
    simp
    omega
  | case4 _ _ _ _ ih | case6 _ _ _ _ _ ih =>
    have := ih h
    simp
    omega
  | case7 =>
    simp at h
    simp [← h.1]

theorem length_literalText {cs : List Char} {line : Nat} {text r : List Char} {l : Nat}
    (h : literalText cs line = (text, true, r, l)) : r.length < cs.length := by
  fun_induction literalText cs line generalizing text r l with
  | case1 => simp at h
  | case2 => simp_all; omega
  | case3 line c rest _ _ _ _ _ hr ih =>
    simp at h
    obtain ⟨rfl, rfl, rfl, rfl⟩ := h
    have := ih hr
    simp
    omega

def TokenStream.push (t : Located) (s : TokenStream) : TokenStream :=
  { s with tokens := t :: s.tokens }

mutual

/-- The tokens from inside a code block. -/
def scanCode (cs : List Char) (line : Nat) : Except SyntaxError TokenStream :=
  match _hs : skipTrivia false cs line with
  | .error e => .error e
  | .ok ([], l) => .error ⟨l, .unterminatedCode⟩
  | .ok (c :: rest, l) =>
    match _hc : afterStart? closeTag.toList (c :: rest) with
    | some r => (scanText r l).map (·.push ⟨.closeTag, l⟩)
    | none =>
      match _ht : nextToken c rest l with
      | .error e => .error e
      | .ok (t, r, m) => (scanCode r m).map (·.push ⟨t, l⟩)
termination_by cs.length
decreasing_by
  · have := length_skipTrivia _hs
    have := length_afterStart? _hc
    simp [closeTag] at *
    omega
  · have := length_skipTrivia _hs
    have := length_nextToken _ht
    simp at *
    omega

/-- The tokens from outside of code. -/
def scanText (cs : List Char) (line : Nat) : Except SyntaxError TokenStream :=
  match _hl : literalText cs line with
  | (text, opened, r, l) =>
    let push := fun s : TokenStream =>
      if text.isEmpty then s else s.push ⟨.text (String.ofList text), line⟩
    match opened, _hl with
    | false, _ => .ok (push ⟨[], l⟩)
    | true, _hl => (scanCode r l).map push
termination_by cs.length
decreasing_by
  exact length_literalText _hl

end

def tokenize (source : String) : Except SyntaxError TokenStream := scanText source.toList 1

end ViewTemplate.Code
