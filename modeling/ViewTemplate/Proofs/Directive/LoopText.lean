import ViewTemplate.Proofs.Directive.Translation

namespace ViewTemplate

namespace Code

theorem unlinedAll_eq_cons {stmt : Stmt} {xs rest : List Stmt} (h : unlinedAll xs = stmt :: rest) :
    ∃ x xs', xs = x :: xs' ∧ x.unlined = stmt ∧ unlinedAll xs' = rest := by
  cases xs with
  | nil => cases h
  | cons x xs =>
    obtain ⟨hx, hxs⟩ := List.cons.inj h
    exact ⟨x, xs, rfl, hx, hxs⟩

theorem eq_of_unlined_expr {stmt : Stmt} {e : Expr} (h : stmt.unlined = .expr e) :
    stmt = .expr e := by
  cases stmt <;> cases h
  rfl

theorem exists_of_unlinedAll_append {ys zs : List Stmt} (hys : ∀ y ∈ ys, ∃ e, y = .expr e) :
    ∀ {xs : List Stmt}, unlinedAll xs = unlinedAll (ys ++ zs) →
      ∃ zs', xs = ys ++ zs' ∧ unlinedAll zs' = unlinedAll zs := by
  induction ys with
  | nil => exact fun {xs} h => ⟨xs, rfl, h⟩
  | cons y ys ih =>
    intro xs h
    obtain ⟨⟨e, rfl⟩, hmore⟩ := List.forall_mem_cons.mp hys
    obtain ⟨x, xs, rfl, hx, hxs⟩ := unlinedAll_eq_cons h
    obtain rfl := eq_of_unlined_expr hx
    obtain ⟨zs', rfl, hzs⟩ := ih hmore hxs
    exact ⟨zs', rfl, hzs⟩

/-- Code that is read as an expression, in front of whatever follows a path. -/
def SpellsAccess (code : String) (e : Expr) : Prop := ∃ ts, SpellsPath code ts ∧ Phrase .access e ts

/-- Code, text and tags included, that is read as the statements of a block. -/
def SpellsBlock (code : String) (body : List Stmt) : Prop :=
  ∃ ts, (∀ cs us, AtTag cs → TextTokens cs us → TextTokens (code.toList ++ cs) (ts ++ us)) ∧
    Passage body ts

end Code

namespace Directive

open Code

def loopCode (subject body : String) (key : Option String) (x : String) : String :=
  loopOpening subject (loopHead subject key x) x ++ body ++ codeBlock "endforeach; endif;"

theorem EachLoop.expr_of_mem {l : EachLoop} {stmt : Stmt} (h : stmt ∈ l.entry ∨ stmt ∈ l.fields) :
    ∃ e, stmt = .expr e := by
  have hset : ∀ y ∈ l.entry ++ l.fields, ∃ e, y = Stmt.expr e := by
    simp [EachLoop.entry, EachLoop.fields, setField]
  exact hset stmt (List.mem_append.mpr h)

/-- What differs from a loop in lines only is that loop, with a body that does. -/
theorem EachLoop.exists_of_unlined {l : EachLoop} {stmt : Stmt}
    (h : stmt.unlined = l.stmt.unlined) :
    ∃ body line, unlinedAll body = unlinedAll l.body ∧
      stmt = EachLoop.stmt { l with body, line } := by
  have hbodies : ∃ c inner rest, stmt = .cond c inner rest := by
    cases stmt <;> first | exact ⟨_, _, _, rfl⟩ | cases h
  obtain ⟨c, inner, rest, rfl⟩ := hbodies
  obtain ⟨rfl, hinner, hrest⟩ := Stmt.cond.inj h
  obtain rfl : rest = .none := by
    cases rest <;> first | rfl | cases hrest
  obtain ⟨tail, rfl, htail⟩ :=
    exists_of_unlinedAll_append (fun _ h => l.expr_of_mem (.inl h)) hinner
  obtain ⟨x, xs, rfl, hx, hxs⟩ := unlinedAll_eq_cons htail
  obtain rfl : xs = [] := by
    cases xs with
    | nil => rfl
    | cons => cases hxs
  have hloop : ∃ subject key value inner line, x = .foreach subject key value inner line := by
    cases x <;> first | exact ⟨_, _, _, _, _, rfl⟩ | cases hx
  obtain ⟨subject, key, value, inner, line, rfl⟩ := hloop
  obtain ⟨rfl, rfl, rfl, hinner, -⟩ := Stmt.foreach.inj hx
  obtain ⟨body, rfl, hbody⟩ :=
    exists_of_unlinedAll_append (fun _ h => l.expr_of_mem (.inr h)) hinner
  exact ⟨body, line, hbody, rfl⟩

/-- The code of the loop is read as the loop, up to the lines of its body. -/
def EachLoop.Written (l : EachLoop) : Prop :=
  ∀ subject body, SpellsAccess subject l.subject → SpellsBlock body l.body → IsName l.value →
    (∀ k ∈ l.key, IsName k) → ∃ body' line, unlinedAll body' = unlinedAll l.body ∧
      Program.parse (loopCode subject body l.key l.value) =
        .ok ⟨[EachLoop.stmt { l with body := body', line }]⟩

theorem EachLoop.written (l : EachLoop) : l.Written := by
  rintro subject body ⟨ts, hsubject, hphrase⟩ ⟨us, hbody, hpassage⟩ hvalue hkey
  have hend : TextTokens ((codeBlock "endforeach; endif;").toList ++ [])
      (Word.endEach.tokens ++ []) :=
    Word.endEach.spelled .nil
  have hcode := spelled_loopOpening hsubject hkey hvalue (hbody _ _ (atTag_codeBlock _) hend)
  obtain ⟨vs, hvs, hsentence⟩ := l.sentence hphrase hpassage
  obtain ⟨s, hs, hts⟩ := hcode 1
  rw [List.append_nil, hvs] at hts
  have hloop : Passage [l.stmt] (s.tokens.map (·.token)) := hts ▸ .cons hsentence (.closeTag .nil)
  obtain ⟨q, hq, hunlined⟩ := hloop.program
  obtain ⟨stmt, rest, hbody', hstmt, hrest⟩ := unlinedAll_eq_cons hunlined
  obtain rfl : rest = [] := by
    cases rest with
    | nil => rfl
    | cons => cases hrest
  obtain ⟨body', line, hsame, rfl⟩ := EachLoop.exists_of_unlined hstmt
  refine ⟨body', line, hsame, ?_⟩
  have hparse : Program.parse (loopCode subject body l.key l.value) = .ok q := by
    have htext : (loopCode subject body l.key l.value).toList =
        (loopOpening subject (loopHead subject l.key l.value) l.value).toList ++
          (body.toList ++ ((codeBlock "endforeach; endif;").toList ++ [])) := by
      simp [loopCode, String.toList_append]
    rw [Program.parse, tokenize, htext, hs]
    exact hq
  rw [hparse, ← hbody']

end Directive

end ViewTemplate
