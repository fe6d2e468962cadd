import ViewTemplate.Proofs.Code.Grammar
import ViewTemplate.Proofs.Code.Lexemes
import ViewTemplate.Proofs.Directive.Loops
import ViewTemplate.Proofs.Directive.Paths

namespace ViewTemplate.Directive

open ViewTemplate.Code (Token CodeTokens TextTokens SpellsPath spellsPath_var conditionTokens
  loopVariableTokens)

def Key.tokens (k : Key) : List Token :=
  [.symbol .leftBracket, .string (String.ofList k.chars), .symbol .rightBracket]

def VariablePath.tokens (p : VariablePath) : List Token :=
  .var p.name.text :: p.keys.flatMap Key.tokens

def callTokens (name : String) (ts : List Token) : List Token :=
  .name name :: .symbol .leftParen :: (ts ++ [.symbol .rightParen])

def setTokens (x field : String) (ts : List Token) : List Token :=
  .var (loopFieldName x field) :: .symbol .assign :: (ts ++ [.symbol .semicolon])

/-- The tokens of a loop up to its rounds, from those of its subject. -/
def loopEntryTokens (x : String) (ts : List Token) : List Token :=
  .name "if" :: (conditionTokens (.symbol .not :: callTokens "empty" ts) ++
    (setTokens x "counter" [.int 0] ++
      (setTokens x "total" (callTokens "count" ts) ++ [.closeTag])))

/-- What each round of a loop does first. -/
def loopFieldTokens (x : String) : List Token :=
  let counter : Token := .var (loopFieldName x "counter")
  let total : Token := .var (loopFieldName x "total")
  setTokens x "index" [counter] ++ setTokens x "iteration" [counter, .symbol .plus, .int 1] ++
    setTokens x "first"
      [.symbol .leftParen, counter, .symbol .eq, .int 0, .symbol .rightParen] ++
    setTokens x "last"
      [.symbol .leftParen, counter, .symbol .eq, total, .symbol .minus, .int 1,
        .symbol .rightParen] ++
    setTokens x "counter" [counter, .symbol .plus, .int 1]

/-- The tokens of a loop up to its body, from those of its subject. -/
def loopTokens (ts : List Token) (key : Option String) (x : String) : List Token :=
  loopEntryTokens x ts ++ .name "foreach" :: .symbol .leftParen :: (ts ++ .name "as" ::
    (loopVariableTokens key x ++ .symbol .rightParen :: .symbol .colon :: .closeTag ::
      (loopFieldTokens x ++ [.closeTag])))

/-- The tokens of a directive with a path, from those of the path. -/
def Use.tokens (path : List Token) : Use → List Token
  | echo => .name "echo" :: (callTokens "escape" (callTokens "strval" path) ++
      [.symbol .semicolon, .closeTag])
  | raw => .name "echo" :: (callTokens "strval" path ++ [.symbol .semicolon, .closeTag])
  | cond => .name "if" :: (conditionTokens path ++ [.closeTag])
  | elseCond => .name "elseif" :: (conditionTokens path ++ [.closeTag])
  | loop => .name "while" :: (conditionTokens path ++ [.closeTag])
  | each key value => loopTokens path (key.map Identifier.text) value.text

def Word.tokens : Word → List Token
  | otherwise => [.name "else", .symbol .colon, .closeTag]
  | endCond => [.name "endif", .symbol .semicolon, .closeTag]
  | endLoop => [.name "endwhile", .symbol .semicolon, .closeTag]
  | endEach => [.name "endforeach", .symbol .semicolon, .name "endif", .symbol .semicolon,
      .closeTag]
  | .break => [.name "break", .symbol .semicolon, .closeTag]
  | .continue => [.name "continue", .symbol .semicolon, .closeTag]

def Mark.tokens : Mark → List Token
  | path use p => use.tokens p.tokens
  | field v f => Use.echo.tokens [.var (loopName v f.name)]
  | word w => w.tokens

section Spelling

variable {cs : List Char} {us ts : List Token} {q : CodePath}

theorem Identifier.isNamePart (x : Identifier) : ∀ c ∈ x.chars, Text.isNamePart c = true :=
  fun c hc => isNamePart_of_isWordChar (x.isWordChar c hc)

theorem codeTokens_bracketed (keys : List Key) (h : CodeTokens cs us) :
    CodeTokens (keys.flatMap Key.bracketed ++ cs) (keys.flatMap Key.tokens ++ us) := by
  induction keys with
  | nil => exact h
  | cons k keys ih =>
    have hplain : ∀ c ∈ k.chars, c ≠ '\'' ∧ c ≠ '\\' := by
      intro c hc
      constructor <;> rintro rfl <;> exact absurd (k.chars_ok _ hc) (by decide)
    have hclose : CodeTokens (']' :: (keys.flatMap Key.bracketed ++ cs))
        (.symbol .rightBracket :: (keys.flatMap Key.tokens ++ us)) :=
      .cons ih (fun _ => ⟨_, rfl⟩) rfl fun _ => ⟨_, rfl⟩
    have hopen : CodeTokens ('[' :: '\'' :: (k.chars ++ '\'' :: ']' ::
        (keys.flatMap Key.bracketed ++ cs))) _ :=
      .cons (hclose.string hplain) (fun _ => ⟨_, rfl⟩) rfl fun _ => ⟨_, rfl⟩
    simpa [Key.bracketed, Key.tokens] using hopen

theorem VariablePath.spells (p : VariablePath) : SpellsPath p.code.text p.tokens := by
  intro cs us h hhead
  rw [CodePath.text, String.toList_ofList, VariablePath.code, List.cons_append, List.append_assoc]
  refine (codeTokens_bracketed p.keys h).var p.name.ne_nil p.name.isNamePart fun c hc => ?_
  cases hkeys : p.keys with
  | nil => exact hhead c (by simpa [hkeys] using hc)
  | cons k keys =>
    rw [hkeys] at hc
    cases hc
    rfl

theorem toList_loopName (v : Identifier) (field : String) :
    (loopName v field).toList =
      ['_', 'f', 'o', 'r', 'e', 'a', 'c', 'h', '_'] ++ (v.chars ++ '_' :: field.toList) := by
  have hname : "_foreach_".toList = ['_', 'f', 'o', 'r', 'e', 'a', 'c', 'h', '_'] := rfl
  have hline : "_".toList = ['_'] := rfl
  simp only [loopName, Identifier.text, String.toList_append, String.toList_ofList, hname, hline,
    List.append_assoc, List.cons_append, List.nil_append]

theorem Identifier.isName (x : Identifier) : IsName x.text where
  ne_nil := by simp [Identifier.text, x.ne_nil]
  parts := by simpa [Identifier.text] using x.isNamePart

theorem IsName.spells {x : String} (hx : IsName x) : SpellsPath ("$" ++ x) [.var x] := by
  have hspells := spellsPath_var hx.ne_nil hx.parts
  rw [String.ofList_toList] at hspells
  intro cs us
  simpa using hspells cs us

theorem spellsPath_field {x field : String} (hx : IsName x)
    (hfield : field.toList.all Text.isNamePart = true) :
    SpellsPath (loopVariable x field) [.var (loopFieldName x field)] := by
  have hprefix : "_foreach_".toList.all Text.isNamePart = true := rfl
  have hline : "_".toList.all Text.isNamePart = true := rfl
  have hname : IsName (loopFieldName x field) := by
    refine ⟨by simp [loopFieldName, String.toList_append], ?_⟩
    simp only [loopFieldName, String.toList_append]
    exact List.forall_mem_append.mpr ⟨List.forall_mem_append.mpr ⟨List.forall_mem_append.mpr
      ⟨List.all_eq_true.mp hprefix, hx.parts⟩, List.all_eq_true.mp hline⟩,
      List.all_eq_true.mp hfield⟩
  rw [loopVariable_eq_field]
  exact hname.spells

theorem loopVariable_eq (v : Identifier) (field : String) :
    loopVariable v.text field = String.ofList ('$' :: (loopName v field).toList) := by
  have hname : "$_foreach_".toList = '$' :: ['_', 'f', 'o', 'r', 'e', 'a', 'c', 'h', '_'] := rfl
  have hline : "_".toList = ['_'] := rfl
  refine String.toList_injective ?_
  simp only [loopVariable, Identifier.text, String.toList_append, String.toList_ofList,
    hname, hline, toList_loopName, List.append_assoc, List.cons_append, List.nil_append]

theorem textTokens_codeBlock {s : String}
    (h : CodeTokens (s.toList ++ ' ' :: '?' :: '>' :: cs) us) :
    TextTokens ((codeBlock s).toList ++ cs) us := by
  have hcode : (codeBlock s).toList ++ cs =
      Code.openTag.toList ++ (' ' :: (s.toList ++ ' ' :: '?' :: '>' :: cs)) := by
    have hblank : " ".toList = [' '] := rfl
    have hclose : Code.closeTag.toList = ['?', '>'] := rfl
    simp only [codeBlock, String.toList_append, hblank, hclose, List.append_assoc, List.cons_append,
      List.nil_append]
  rw [hcode]
  exact .openTag (h.blank rfl)

theorem Word.spelled (w : Word) (h : TextTokens cs us) :
    TextTokens ((Pending.word w).code.toList ++ cs) (w.tokens ++ us) := by
  cases w with
  | endEach =>
    refine textTokens_codeBlock ?_
    refine .cons ?_ (fun _ => ⟨_, rfl⟩) rfl fun _ => ⟨_, rfl⟩
    refine .cons ?_ (fun _ => ⟨_, rfl⟩) rfl fun _ => ⟨_, rfl⟩
    refine .cons ?_ (fun _ => ⟨_, rfl⟩) rfl fun _ => ⟨_, rfl⟩
    refine .cons ?_ (fun _ => ⟨_, rfl⟩) rfl fun _ => ⟨_, rfl⟩
    exact .closeTag h fun _ => ⟨_, rfl⟩
  | _ =>
    refine textTokens_codeBlock ?_
    refine .cons ?_ (fun _ => ⟨_, rfl⟩) rfl fun _ => ⟨_, rfl⟩
    refine .cons ?_ (fun _ => ⟨_, rfl⟩) rfl fun _ => ⟨_, rfl⟩
    exact .closeTag h fun _ => ⟨_, rfl⟩

theorem Use.spelled_echo (hq : SpellsPath q.text ts) (h : TextTokens cs us) :
    TextTokens ((Pending.path .echo q).code.toList ++ cs) (Use.echo.tokens ts ++ us) := by
  refine textTokens_codeBlock ?_
  simp only [String.toList_append, String.reduceToList, List.append_assoc, Use.tokens, callTokens,
    List.cons_append, List.nil_append]
  iterate 5 refine .cons ?_ (fun _ => ⟨_, rfl⟩) rfl fun _ => ⟨_, rfl⟩
  refine hq _ _ ?_ (by rintro _ ⟨⟩; rfl)
  iterate 3 refine .cons ?_ (fun _ => ⟨_, rfl⟩) rfl fun _ => ⟨_, rfl⟩
  exact .closeTag h fun _ => ⟨_, rfl⟩

theorem Use.spelled_raw (hq : SpellsPath q.text ts) (h : TextTokens cs us) :
    TextTokens ((Pending.path .raw q).code.toList ++ cs) (Use.raw.tokens ts ++ us) := by
  refine textTokens_codeBlock ?_
  simp only [String.toList_append, String.reduceToList, List.append_assoc, Use.tokens, callTokens,
    List.cons_append, List.nil_append]
  iterate 3 refine .cons ?_ (fun _ => ⟨_, rfl⟩) rfl fun _ => ⟨_, rfl⟩
  refine hq _ _ ?_ (by rintro _ ⟨⟩; rfl)
  iterate 2 refine .cons ?_ (fun _ => ⟨_, rfl⟩) rfl fun _ => ⟨_, rfl⟩
  exact .closeTag h fun _ => ⟨_, rfl⟩

/-- A word that the lexer reads as a name, with a condition behind it. -/
theorem spelled_condition {word : String} {c : Char} {w : List Char} (hword : word.toList = c :: w)
    (hc : c.isAlpha = true) (hw : w.all Text.isNamePart = true) (hq : SpellsPath q.text ts)
    (h : TextTokens cs us) :
    TextTokens ((codeBlock (word ++ " (" ++ q.text ++ ") :")).toList ++ cs)
      (.name word :: (conditionTokens ts ++ [.closeTag]) ++ us) := by
  have hname : word = String.ofList (c :: w) := by rw [← hword, String.ofList_toList]
  refine textTokens_codeBlock ?_
  simp only [String.toList_append, String.reduceToList, hword, List.append_assoc, conditionTokens,
    List.cons_append, List.nil_append]
  rw [hname]
  refine .name ?_ (.inl hc) (List.all_eq_true.mp hw) (by rintro _ ⟨⟩; rfl)
  refine .cons ?_ (fun _ => ⟨_, rfl⟩) rfl fun _ => ⟨_, rfl⟩
  refine hq _ _ ?_ (by rintro _ ⟨⟩; rfl)
  iterate 2 refine .cons ?_ (fun _ => ⟨_, rfl⟩) rfl fun _ => ⟨_, rfl⟩
  exact .closeTag h fun _ => ⟨_, rfl⟩

variable {x subject : String}

theorem spelled_loopEntry (hx : IsName x) (hsubject : SpellsPath subject ts)
    (h : TextTokens cs us) :
    TextTokens ((codeBlock ("if (!empty(" ++ subject ++ ")) : " ++ loopVariable x "counter" ++
        " = 0; " ++ loopVariable x "total" ++ " = count(" ++ subject ++ ");")).toList ++ cs)
      (loopEntryTokens x ts ++ us) := by
  have hcounter := spellsPath_field hx (show "counter".toList.all _ = true from rfl)
  have htotal := spellsPath_field hx (show "total".toList.all _ = true from rfl)
  refine textTokens_codeBlock ?_
  simp only [String.toList_append, String.reduceToList, List.append_assoc, loopEntryTokens,
    conditionTokens, callTokens, setTokens, List.cons_append, List.nil_append]
  iterate 5 refine .cons ?_ (fun _ => ⟨_, rfl⟩) rfl fun _ => ⟨_, rfl⟩
  refine hsubject _ _ ?_ (by rintro _ ⟨⟩; rfl)
  iterate 3 refine .cons ?_ (fun _ => ⟨_, rfl⟩) rfl fun _ => ⟨_, rfl⟩
  refine .blank ?_ rfl
  refine hcounter _ _ ?_ (by rintro _ ⟨⟩; rfl)
  iterate 3 refine .cons ?_ (fun _ => ⟨_, rfl⟩) rfl fun _ => ⟨_, rfl⟩
  refine .blank ?_ rfl
  refine htotal _ _ ?_ (by rintro _ ⟨⟩; rfl)
  iterate 3 refine .cons ?_ (fun _ => ⟨_, rfl⟩) rfl fun _ => ⟨_, rfl⟩
  refine hsubject _ _ ?_ (by rintro _ ⟨⟩; rfl)
  iterate 2 refine .cons ?_ (fun _ => ⟨_, rfl⟩) rfl fun _ => ⟨_, rfl⟩
  exact .closeTag h fun _ => ⟨_, rfl⟩

theorem spelled_loopHead {head : String} (hq : SpellsPath head ts) (h : TextTokens cs us) :
    TextTokens ((codeBlock ("foreach (" ++ head ++ ") :")).toList ++ cs)
      (.name "foreach" :: .symbol .leftParen ::
        (ts ++ .symbol .rightParen :: .symbol .colon :: .closeTag :: us)) := by
  refine textTokens_codeBlock ?_
  simp only [String.toList_append, String.reduceToList, List.append_assoc, List.cons_append,
    List.nil_append]
  iterate 2 refine .cons ?_ (fun _ => ⟨_, rfl⟩) rfl fun _ => ⟨_, rfl⟩
  refine hq _ _ ?_ (by rintro _ ⟨⟩; rfl)
  iterate 2 refine .cons ?_ (fun _ => ⟨_, rfl⟩) rfl fun _ => ⟨_, rfl⟩
  exact .closeTag h fun _ => ⟨_, rfl⟩

theorem spelled_loopFields (hx : IsName x) (h : TextTokens cs us) :
    TextTokens ((codeBlock (loopVariable x "index" ++ " = " ++ loopVariable x "counter" ++
        "; " ++ loopVariable x "iteration" ++ " = " ++ loopVariable x "counter" ++
        " + 1; " ++ loopVariable x "first" ++ " = (" ++ loopVariable x "counter" ++
        " == 0); " ++ loopVariable x "last" ++ " = (" ++ loopVariable x "counter" ++
        " == " ++ loopVariable x "total" ++ " - 1); " ++ loopVariable x "counter" ++
        " = " ++ loopVariable x "counter" ++ " + 1;")).toList ++ cs)
      (loopFieldTokens x ++ .closeTag :: us) := by
  have hcounter := spellsPath_field hx (show "counter".toList.all _ = true from rfl)
  have htotal := spellsPath_field hx (show "total".toList.all _ = true from rfl)
  have hindex := spellsPath_field hx (show "index".toList.all _ = true from rfl)
  have hiteration := spellsPath_field hx (show "iteration".toList.all _ = true from rfl)
  have hfirst := spellsPath_field hx (show "first".toList.all _ = true from rfl)
  have hlast := spellsPath_field hx (show "last".toList.all _ = true from rfl)
  refine textTokens_codeBlock ?_
  simp only [String.toList_append, String.reduceToList, List.append_assoc, loopFieldTokens,
    setTokens, List.cons_append, List.nil_append]
  -- One step for each word, sign and blank, in the order of the code.
  refine hindex _ _ ?_ (by rintro _ ⟨⟩; rfl)
  refine .cons ?_ (fun _ => ⟨_, rfl⟩) rfl fun _ => ⟨_, rfl⟩
  refine .blank ?_ rfl
  refine hcounter _ _ ?_ (by rintro _ ⟨⟩; rfl)
  refine .cons ?_ (fun _ => ⟨_, rfl⟩) rfl fun _ => ⟨_, rfl⟩
  refine .blank ?_ rfl
  refine hiteration _ _ ?_ (by rintro _ ⟨⟩; rfl)
  refine .cons ?_ (fun _ => ⟨_, rfl⟩) rfl fun _ => ⟨_, rfl⟩
  refine .blank ?_ rfl
  refine hcounter _ _ ?_ (by rintro _ ⟨⟩; rfl)
  iterate 3 refine .cons ?_ (fun _ => ⟨_, rfl⟩) rfl fun _ => ⟨_, rfl⟩
  refine .blank ?_ rfl
  refine hfirst _ _ ?_ (by rintro _ ⟨⟩; rfl)
  iterate 2 refine .cons ?_ (fun _ => ⟨_, rfl⟩) rfl fun _ => ⟨_, rfl⟩
  refine hcounter _ _ ?_ (by rintro _ ⟨⟩; rfl)
  iterate 4 refine .cons ?_ (fun _ => ⟨_, rfl⟩) rfl fun _ => ⟨_, rfl⟩
  refine .blank ?_ rfl
  refine hlast _ _ ?_ (by rintro _ ⟨⟩; rfl)
  iterate 2 refine .cons ?_ (fun _ => ⟨_, rfl⟩) rfl fun _ => ⟨_, rfl⟩
  refine hcounter _ _ ?_ (by rintro _ ⟨⟩; rfl)
  refine .cons ?_ (fun _ => ⟨_, rfl⟩) rfl fun _ => ⟨_, rfl⟩
  refine .blank ?_ rfl
  refine htotal _ _ ?_ (by rintro _ ⟨⟩; rfl)
  iterate 4 refine .cons ?_ (fun _ => ⟨_, rfl⟩) rfl fun _ => ⟨_, rfl⟩
  refine .blank ?_ rfl
  refine hcounter _ _ ?_ (by rintro _ ⟨⟩; rfl)
  refine .cons ?_ (fun _ => ⟨_, rfl⟩) rfl fun _ => ⟨_, rfl⟩
  refine .blank ?_ rfl
  refine hcounter _ _ ?_ (by rintro _ ⟨⟩; rfl)
  iterate 3 refine .cons ?_ (fun _ => ⟨_, rfl⟩) rfl fun _ => ⟨_, rfl⟩
  exact .closeTag h fun _ => ⟨_, rfl⟩

theorem spellsPath_loopHead (hsubject : SpellsPath subject ts) {key : Option String}
    (hkey : ∀ k ∈ key, IsName k) (hx : IsName x) :
    SpellsPath (loopHead subject key x) (ts ++ .name "as" :: loopVariableTokens key x) := by
  intro cs us h hhead
  have hvalue := hx.spells cs us h hhead
  cases key with
  | none =>
    simp only [loopHead, loopVariableTokens, String.toList_append, String.reduceToList,
      List.append_assoc, List.cons_append, List.nil_append] at hvalue ⊢
    refine hsubject _ _ ?_ (by rintro _ ⟨⟩; rfl)
    refine .cons ?_ (fun _ => ⟨_, rfl⟩) rfl fun _ => ⟨_, rfl⟩
    exact hvalue.blank rfl
  | some key =>
    have hspells := (hkey key rfl).spells
    simp only [loopHead, loopVariableTokens, String.toList_append, String.reduceToList,
      List.append_assoc, List.cons_append, List.nil_append] at hvalue ⊢
    refine hsubject _ _ ?_ (by rintro _ ⟨⟩; rfl)
    refine .cons (.blank ?_ rfl) (fun _ => ⟨_, rfl⟩) rfl fun _ => ⟨_, rfl⟩
    have harrow : CodeTokens (' ' :: '=' :: '>' :: ' ' :: '$' :: (x.toList ++ cs))
        (.symbol .doubleArrow :: .var x :: us) :=
      .cons (hvalue.blank rfl) (fun _ => ⟨_, rfl⟩) rfl fun _ => ⟨_, rfl⟩
    simpa using hspells _ _ harrow (by rintro _ ⟨⟩; rfl)

/-- The code in front of the body of a loop. -/
theorem spelled_loopOpening (hsubject : SpellsPath subject ts) {key : Option String}
    (hkey : ∀ k ∈ key, IsName k) (hx : IsName x) (h : TextTokens cs us) :
    TextTokens ((loopOpening subject (loopHead subject key x) x).toList ++ cs)
      (loopTokens ts key x ++ us) := by
  have hrounds := spelled_loopHead (spellsPath_loopHead hsubject hkey hx) (spelled_loopFields hx h)
  rw [loopOpening, String.toList_append, String.toList_append, List.append_assoc, List.append_assoc]
  simpa [loopTokens] using spelled_loopEntry hx hsubject hrounds

theorem Use.spelled (use : Use) (hq : SpellsPath q.text ts) (h : TextTokens cs us) :
    TextTokens ((Pending.path use q).code.toList ++ cs) (use.tokens ts ++ us) := by
  cases use with
  | echo => exact spelled_echo hq h
  | raw => exact spelled_raw hq h
  | cond => exact spelled_condition rfl rfl rfl hq h
  | elseCond => exact spelled_condition rfl rfl rfl hq h
  | loop => exact spelled_condition rfl rfl rfl hq h
  | each key value =>
    have hkey : ∀ k ∈ key.map Identifier.text, IsName k := fun k hk => by
      obtain ⟨key, -, rfl⟩ := Option.map_eq_some_iff.mp hk
      exact key.isName
    have hopening := spelled_loopOpening hq hkey value.isName h
    cases key with
    | none => exact hopening
    | some key =>
      have hkey : "$" ++ key.text = String.ofList ('$' :: key.chars) := by
        refine String.toList_injective ?_
        simp [Identifier.text]
      simp only [loopHead, Option.map, hkey] at hopening
      exact hopening

theorem Mark.spelled (d : Mark) (h : TextTokens cs us) :
    TextTokens (d.pending.code.toList ++ cs) (d.tokens ++ us) := by
  cases d with
  | path use p => exact use.spelled p.spells h
  | field v f =>
    refine Use.echo.spelled ?_ h
    have hname : f.name.toList.all Text.isNamePart = true := by cases f <;> rfl
    have hfield := spellsPath_field v.isName hname
    rw [loopVariable_eq, show (loopName v f.name).toList = fieldName v f from
      toList_loopName v f.name] at hfield
    exact hfield
  | word w => exact w.spelled h

end Spelling

end ViewTemplate.Directive
