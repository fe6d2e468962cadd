import ViewTemplate.Proofs.Code.Lexemes
import ViewTemplate.Proofs.Directive.LoopText

namespace ViewTemplate

namespace Code

/-- Neither a name nor a numeral goes on with the character. -/
def endsWord (c : Char) : Bool := !Text.isNamePart c && endsNumeral c

/-- In front of what ends a word the text is cut into these tokens. -/
def Spells (s : List Char) (ts : List Token) : Prop :=
  ∀ c cs us, endsWord c = true → CodeTokens (c :: cs) us → CodeTokens (s ++ c :: cs) (ts ++ us)

variable {s r : List Char} {ts us : List Token} {c : Char} {cs : List Char}

theorem spells_name (hc : c.isAlpha = true ∨ c = '_')
    (hcs : ∀ d ∈ cs, Text.isNamePart d = true) :
    Spells (c :: cs) [.name (String.ofList (c :: cs))] := by
  intro d ds us hd h
  rw [endsWord, Bool.and_eq_true, Bool.not_eq_true'] at hd
  refine h.name hc hcs ?_
  rintro _ ⟨⟩
  exact hd.1

theorem spells_singleQuoted (cs : List Char) :
    Spells ('\'' :: (escapeSingle cs ++ ['\''])) [.string (String.ofList cs)] := by
  intro d ds us _ h
  exact h.singleQuoted cs

theorem spells_numeral {f : Bool} {t : Token} (hc : c.isDigit = true) (hcs : Numeral false cs f)
    (ht : ∀ line, numeralToken (c :: cs) f line = .ok t) : Spells (c :: cs) [t] := by
  intro d ds us hd h
  rw [endsWord, Bool.and_eq_true] at hd
  exact h.numeral hd.2 hc hcs ht

/-- A symbol that is read as itself whatever follows. -/
def StandsAlone (c : Char) (symbol : Symbol) : Prop :=
  startsToken c = true ∧ ∀ rest line, nextToken c rest line = .ok (.symbol symbol, rest, line)

theorem StandsAlone.codeTokens {symbol : Symbol} (h : StandsAlone c symbol)
    (hts : CodeTokens cs ts) : CodeTokens (c :: cs) (.symbol symbol :: ts) :=
  hts.token h.1 fun line => ⟨line, h.2 cs line⟩

theorem standsAlone_leftParen : StandsAlone '(' .leftParen := ⟨by decide, fun _ _ => rfl⟩

theorem standsAlone_rightParen : StandsAlone ')' .rightParen := ⟨by decide, fun _ _ => rfl⟩

theorem standsAlone_semicolon : StandsAlone ';' .semicolon := ⟨by decide, fun _ _ => rfl⟩

theorem Spells.append (hs : Spells s ts) (hr : Spells (c :: cs) us) (hc : endsWord c = true) :
    Spells (s ++ c :: cs) (ts ++ us) := by
  intro d ds vs hd h
  have hbehind := hs c (cs ++ d :: ds) (us ++ vs) hc (hr d ds vs hd h)
  simpa using hbehind

theorem spells_nil : Spells [] [] := fun _ _ _ _ h => h

theorem Spells.between {l r : Char} {left right : Symbol} (hs : Spells s ts)
    (hl : StandsAlone l left) (hr : StandsAlone r right) (hend : endsWord r = true) :
    Spells (l :: (s ++ [r])) (.symbol left :: (ts ++ [.symbol right])) := by
  intro d ds us _ h
  have hinside := hl.codeTokens (hs r _ _ hend (hr.codeTokens h))
  simpa using hinside

end Code

namespace Directive

open Code

variable {s : List Char} {ts : List Token} {e : Expr}

theorem program_of_echoTokens {code : List Char} (he : Phrase .orWord e ts)
    (htokens : TextTokens code (.name "echo" :: (ts ++ [.symbol .semicolon, .closeTag])))
    (path : Path) : Artifact.program (Artifact.ofCode code) path = .ok ⟨[.echo [e]]⟩ := by
  obtain ⟨stream, hstream, hmap⟩ := htokens 1
  have hpassage : Passage [.echo [e]] (stream.tokens.map (·.token)) := by
    rw [hmap, List.append_cons]
    exact .cons (.echo (isWord_of_lower rfl) (.last he)) (.closeTag .nil)
  obtain ⟨⟨body⟩, hprogram, hbody⟩ := hpassage.program
  obtain ⟨x, xs, rfl, hx, hxs⟩ :=
    unlinedAll_eq_cons (show unlinedAll body = .echo [e] :: [] from hbody)
  have hnil : xs = [] := by
    cases xs with
    | nil => rfl
    | cons => cases hxs
  have hecho : x = .echo [e] := by
    cases x <;> cases hx
    rfl
  have hparse : Program.parse (String.ofList code) = .ok ⟨[.echo [e]]⟩ := by
    rw [Program.parse, tokenize, String.toList_ofList, hstream]
    exact hprogram.trans (by rw [hnil, hecho])
  rw [Artifact.program, Artifact.code_ofCode]
  simp only [bind, Except.bind]
  rw [hparse]

theorem program_echo (hs : Spells s ts) (he : Phrase .orWord e ts) (path : Path) :
    Artifact.program (Artifact.ofCode (codeBlock ("echo " ++ String.ofList s ++ ";")).toList) path =
      .ok ⟨[.echo [e]]⟩ := by
  refine program_of_echoTokens he ?_ path
  rw [← List.append_nil (codeBlock _).toList]
  refine textTokens_codeBlock ?_
  have hend : CodeTokens [' ', '?', '>'] [.closeTag] := .closeTag .nil fun _ => ⟨_, rfl⟩
  have hcode := hs ';' _ _ (by decide +kernel) (standsAlone_semicolon.codeTokens hend)
  simp only [String.toList_append, String.reduceToList, String.toList_ofList, List.append_assoc,
    List.cons_append, List.nil_append]
  exact .cons (hcode.blank (c := ' ') rfl) (fun _ => ⟨_, rfl⟩) rfl fun _ => ⟨_, rfl⟩

end Directive

end ViewTemplate
