import ViewTemplate.Proofs.Directive.Translation
import ViewTemplate.Proofs.Run.OneCall

namespace ViewTemplate

namespace Run

/-- The entities of escaped text and the characters they stand for. -/
def entities : List (String × Char) :=
  [("&amp;", '&'), ("&lt;", '<'), ("&gt;", '>'), ("&quot;", '"'), ("&#039;", '\'')]

/-- Puts the characters back in place of the entities, from left to right. -/
def unescape : List Char → List Char
  | '&' :: 'a' :: 'm' :: 'p' :: ';' :: rest => '&' :: unescape rest
  | '&' :: 'l' :: 't' :: ';' :: rest => '<' :: unescape rest
  | '&' :: 'g' :: 't' :: ';' :: rest => '>' :: unescape rest
  | '&' :: 'q' :: 'u' :: 'o' :: 't' :: ';' :: rest => '"' :: unescape rest
  | '&' :: '#' :: '0' :: '3' :: '9' :: ';' :: rest => '\'' :: unescape rest
  | c :: rest => c :: unescape rest
  | [] => []

variable {c : Char} {cs pre rest : List Char}

theorem escapeChar_cases (c : Char) :
    (∃ name, (name, c) ∈ entities ∧ escapeChar c = name.toList) ∨
      (c ∉ entities.map Prod.snd ∧ escapeChar c = [c]) := by
  by_cases h : c ∈ entities.map Prod.snd
  · refine .inl ?_
    simp only [entities, List.map_cons, List.map_nil, List.mem_cons, List.not_mem_nil,
      or_false] at h
    rcases h with rfl | rfl | rfl | rfl | rfl
    · exact ⟨"&amp;", by decide, rfl⟩
    · exact ⟨"&lt;", by decide, rfl⟩
    · exact ⟨"&gt;", by decide, rfl⟩
    · exact ⟨"&quot;", by decide, rfl⟩
    · exact ⟨"&#039;", by decide, rfl⟩
  · refine .inr ⟨h, ?_⟩
    simp only [entities, List.map_cons, List.map_nil, List.mem_cons, List.not_mem_nil, or_false,
      not_or] at h
    obtain ⟨hamp, hlt, hgt, hquote, happ⟩ := h
    rw [escapeChar, if_neg hamp, if_neg hlt, if_neg hgt, if_neg hquote, if_neg happ]

theorem noMarkup_escapeChar (c : Char) : ∀ d ∈ ['<', '>', '"', '\''], d ∉ escapeChar c := by
  intro d hd
  rcases escapeChar_cases c with ⟨name, hname, hc⟩ | ⟨hplain, hc⟩
  · -- No entity has such a character in its name.
    have hall : ∀ d ∈ ['<', '>', '"', '\''], ∀ e ∈ entities, d ∉ e.1.toList := by
      simp [entities]
    exact hc ▸ hall d hd _ hname
  · rw [hc, List.mem_singleton]
    rintro rfl
    exact hplain (List.mem_cons_of_mem '&' hd)

theorem prefix_of_escapeChar {behind : List Char} (h : escapeChar c = pre ++ '&' :: behind) :
    ∃ e ∈ entities, '&' :: behind = e.1.toList := by
  rcases escapeChar_cases c with ⟨name, hname, hc⟩ | ⟨hplain, hc⟩
  · have hall : ∀ e ∈ entities, '&' ∉ e.1.toList.tail := by decide
    rw [hc] at h
    cases pre with
    | nil => exact ⟨_, hname, h.symm⟩
    | cons d pre =>
      refine absurd ?_ (hall _ hname)
      simp [h]
  · rw [hc] at h
    have hamp : '&' ∈ [c] := h ▸ List.mem_append_right _ List.mem_cons_self
    refine absurd ?_ hplain
    rw [← List.mem_singleton.mp hamp]
    decide

/-- Every ampersand of escaped text begins an entity. -/
theorem entity_of_ampersand (h : cs.flatMap escapeChar = pre ++ '&' :: rest) :
    ∃ e ∈ entities, e.1.toList <+: '&' :: rest := by
  induction cs generalizing pre with
  | nil => simp at h
  | cons c cs ih =>
    rw [List.flatMap_cons, List.append_eq_append_iff] at h
    rcases h with ⟨within, hpre, hcs⟩ | ⟨behind, hc, hrest⟩
    · exact ih hcs
    · cases behind with
      | nil =>
        have hcs : cs.flatMap escapeChar = [] ++ '&' :: rest := hrest.symm
        exact ih hcs
      | cons d behind =>
        rw [List.cons_append, List.cons.injEq] at hrest
        obtain ⟨rfl, rfl⟩ := hrest
        obtain ⟨e, he, hname⟩ := prefix_of_escapeChar hc
        exact ⟨e, he, hname ▸ ⟨cs.flatMap escapeChar, rfl⟩⟩

theorem entity_of_ampersand_escapeHtml {s : String}
    (h : (escapeHtml s).toList = pre ++ '&' :: rest) :
    ∃ e ∈ entities, e.1.toList <+: '&' :: rest := by
  rw [escapeHtml, String.toList_ofList] at h
  exact entity_of_ampersand h

theorem noMarkup_escapeHtml (s : String) :
    ∀ c ∈ ['<', '>', '"', '\''], c ∉ (escapeHtml s).toList := by
  intro c hc hmem
  rw [escapeHtml, String.toList_ofList] at hmem
  obtain ⟨d, -, hd⟩ := List.mem_flatMap.mp hmem
  exact noMarkup_escapeChar d c hc hd

theorem unescape_cons (h : c ≠ '&') (rest : List Char) :
    unescape (c :: rest) = c :: unescape rest := by
  rw [unescape] <;> rintro _ rfl <;> exact fun _ => h rfl

theorem unescape_escapeChar (c : Char) (rest : List Char) :
    unescape (escapeChar c ++ rest) = c :: unescape rest := by
  rcases escapeChar_cases c with ⟨name, hname, hc⟩ | ⟨hplain, hc⟩
  · rw [hc]
    simp only [entities, List.mem_cons, Prod.mk.injEq, List.not_mem_nil, or_false] at hname
    rcases hname with ⟨rfl, rfl⟩ | ⟨rfl, rfl⟩ | ⟨rfl, rfl⟩ | ⟨rfl, rfl⟩ | ⟨rfl, rfl⟩ <;> rfl
  · rw [hc]
    refine unescape_cons ?_ rest
    rintro rfl
    exact hplain (by decide)

/-- What was escaped can be read back. -/
theorem unescape_escapeHtml (s : String) : unescape (escapeHtml s).toList = s.toList := by
  rw [escapeHtml, String.toList_ofList]
  induction s.toList with
  | nil => rfl
  | cons c cs ih => rw [List.flatMap_cons, unescape_escapeChar, ih]

theorem escapeHtml_injective : Function.Injective escapeHtml := by
  intro s t h
  rw [← String.toList_inj, ← unescape_escapeHtml s, h, unescape_escapeHtml]

section Echo

open Code Directive

variable {m : Type → Type} [Monad m] [LawfulMonad m] {host : Host m} {s : State} {v : Value}

theorem readVariable_run {name : String} (h : Entries.get? s.scope name = some v) :
    (readVariable host name).value s = pure (.ok v, s) := by
  refine (bind_run_of_ok (get_run s)).trans ?_
  rw [h]
  exact pure_run v s

theorem call_run {name : String} {f : Function} {e : Expr} {t : State} {w : Value}
    (hname : name ∉ ["isset", "empty"]) (hf : host.functions.get? name = some f)
    (he : (read host e).value s = pure (.ok v, t)) (hw : f [v] = .ok w) :
    (read host (.call name [e])).value s =
      pure (.ok w, { t with calls := ⟨name, [v], .ok w⟩ :: t.calls }) := by
  have hargs : valuesOf (readAll host [e]) s = pure (.ok [v], t) := by
    rw [readAll, readAll, valuesOf, valuesOf]
    exact (bind_run_of_ok he).trans ((bind_run_of_ok (pure_run _ _)).trans (pure_run _ _))
  simp only [List.mem_cons, List.not_mem_nil, or_false, not_or] at hname
  show call host name (readAll host [e]) s = _
  unfold call
  rw [if_neg hname.1, if_neg hname.2, bind_run_of_ok hargs, callFunction_run hf, hw]
  rfl

theorem echo_run {runBody : List Stmt → Step m Flow} {e : Expr} {t : State} {w : Value}
    (he : (read host e).value s = pure (.ok w, t)) :
    execBlock host runBody [.echo [e]] s =
      pure (.ok .normal, { t with output := t.output ++ w.output }) := by
  have hecho : echo (readAll host [e]) s =
      pure (.ok (), { t with output := t.output ++ w.output }) := by
    rw [readAll, readAll, echo, echo]
    refine (bind_run_of_ok he).trans ((bind_run_of_ok (modify_run _ t)).trans (pure_run _ _))
  have hstmt : execStmt host runBody (.echo [e]) s =
      pure (.ok .normal, { t with output := t.output ++ w.output }) := by
    rw [execStmt]
    exact (bind_run_of_ok hecho).trans (pure_run _ _)
  rw [execBlock, execBlock]
  exact (bind_run_of_ok hstmt).trans (pure_run _ _)

theorem escapedEcho_run {runBody : List Stmt → Step m Flow} {e : Expr}
    (hbuiltins : ∀ name ∈ ["strval", "escape"], host.functions.get? name = builtins.get? name)
    (he : (read host e).value s = pure (.ok v, s)) :
    execBlock host runBody [escapedEchoOf e] s =
      pure (.ok .normal, { s with
        output := s.output ++ escapeHtml v.output
        calls := ⟨"escape", [.string v.output], .ok (.string (escapeHtml v.output))⟩ ::
          ⟨"strval", [v], .ok (.string v.output)⟩ :: s.calls }) := by
  have hstrval : host.functions.get? "strval" = some (ofOutput .string) :=
    hbuiltins "strval" (by decide)
  have hescape : host.functions.get? "escape" = some (ofOutput fun s => .string (escapeHtml s)) :=
    hbuiltins "escape" (by decide)
  have htext := call_run (by decide) hstrval he (w := .string v.output) rfl
  have hcall := call_run (by decide) hescape htext (w := .string (escapeHtml v.output)) rfl
  rw [escapedEchoOf, strval, echo_run hcall]
  rfl

end Echo

end Run

namespace Directive

open Code Run

def variableEcho (x : Identifier) : Template :=
  .block none (.echo ⟨x, [], Nat.zero_le _⟩) (.done none)

theorem text_variableEcho (x : Identifier) : (variableEcho x).text =
    Delimiters.braces.left ++ "$" ++ x.text ++ Delimiters.braces.right := by
  have hshown : shownText 0 (variableEcho x).segments = '{' :: '$' :: (x.chars ++ ['}']) := by
    simp [variableEcho, Template.segments, Block.segments, leading, shownText,
      Segment.shown, braced, Mark.content, Use.before, Use.after, VariablePath.shown]
  rw [Template.text, hshown, ← String.toList_inj, String.toList_ofList]
  simp [Identifier.text, Delimiters.braces]

theorem program_variableEcho (x : Identifier) (path : Path) :
    Artifact.program (Artifact.ofCode (codeOf (variableEcho x).segments)) path =
      .ok ⟨[escapedEchoOf (.var x.text)]⟩ := by
  have hcall := phrase_call (show Text.lowerAscii "escape" ∉ _ by decide) rfl
    (phrase_strval (.var x.text))
  refine program_of_echoTokens (hcall.loosen (Nat.zero_le _)) ?_ path
  have htokens := (variableEcho x).spelled (.inl rfl) .nil
  rwa [List.append_nil, List.append_nil] at htokens

/-- Escaped text holds no markup, its ampersands begin entities, and it can be read back; and this
is what an echo of a variable adds to the output, whatever the value. -/
theorem escaping_is_safe (x : Identifier) :
    (∀ s : String, (∀ c ∈ ['<', '>', '"', '\''], c ∉ (escapeHtml s).toList) ∧
      (∀ before behind, (escapeHtml s).toList = before ++ '&' :: behind →
        ∃ e ∈ entities, e.1.toList <+: '&' :: behind) ∧
      unescape (escapeHtml s).toList = s.toList) ∧
    Function.Injective escapeHtml ∧
    ∃ code program, generate .braces
      (Delimiters.braces.left ++ "$" ++ x.text ++ Delimiters.braces.right) = .ok ⟨code, []⟩ ∧
      (∀ path, Artifact.program code path = .ok program) ∧
      ∀ (m : Type → Type) [Monad m] [LawfulMonad m] (host : Host m)
        (runBody : List Stmt → Step m Flow) (v : Value) (s : State),
        (∀ name ∈ ["strval", "escape"], host.functions.get? name = builtins.get? name) →
        Entries.get? s.scope x.text = some v →
        execBlock host runBody program.body s =
          pure (.ok .normal, { s with
            output := s.output ++ escapeHtml v.output
            calls := ⟨"escape", [.string v.output], .ok (.string (escapeHtml v.output))⟩ ::
              ⟨"strval", [v], .ok (.string v.output)⟩ :: s.calls }) := by
  refine ⟨fun s => ⟨fun c hc => ?_, fun _ _ => entity_of_ampersand_escapeHtml,
    unescape_escapeHtml s⟩, escapeHtml_injective, ?_⟩
  · exact noMarkup_escapeHtml s c hc
  · refine ⟨_, _, text_variableEcho x ▸ (variableEcho x).generate, program_variableEcho x, ?_⟩
    intro m _ _ host runBody v s hbuiltins hvariable
    exact escapedEcho_run hbuiltins (readVariable_run hvariable)

/-- Markup in a variable of a rendering with the built-in functions. -/
theorem escaping_is_safe_markup :
    let host : Host Id := ⟨builtins, loadNothing, false, 0, 0⟩
    let s : State := ⟨[("x", .string "<b> &lt;")], "1 ", ⟨⟨"view"⟩, 0, 0⟩, []⟩
    ((∀ name ∈ ["strval", "escape"], host.functions.get? name = builtins.get? name) ∧
      Entries.get? s.scope "x" = some (.string "<b> &lt;")) ∧
    ∃ code program, generate .braces "{$x}" = .ok ⟨code, []⟩ ∧
      Artifact.program code ⟨"view"⟩ = .ok program ∧
      (execBlock host (fun _ => pure .normal) program.body s).2.output =
        "1 &lt;b&gt; &amp;lt;" := by
  intro host s
  let x : Identifier := ⟨'x', [], .inl rfl, nofun⟩
  have hbuiltins : ∀ name ∈ ["strval", "escape"], host.functions.get? name = builtins.get? name :=
    fun _ _ => rfl
  have hvariable : Entries.get? s.scope "x" = some (.string "<b> &lt;") := rfl
  obtain ⟨-, -, code, program, hgenerate, hprogram, hrun⟩ := escaping_is_safe x
  refine ⟨⟨hbuiltins, hvariable⟩, code, program, hgenerate, hprogram _, ?_⟩
  have hstate := hrun Id host (fun _ => pure .normal) _ s hbuiltins hvariable
  rw [hstate]
  decide +kernel

end Directive

end ViewTemplate
