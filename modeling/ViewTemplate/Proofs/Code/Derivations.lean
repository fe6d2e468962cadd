import ViewTemplate.Proofs.Code.Reading

namespace ViewTemplate.Code

def tokensOf (ls : List Located) : List Token := ls.map (·.token)

@[simp] theorem tokensOf_nil : tokensOf [] = [] := rfl

@[simp] theorem tokensOf_cons (l : Located) (ls : List Located) :
    tokensOf (l :: ls) = l.token :: tokensOf ls := rfl

@[simp] theorem tokensOf_append (ls us : List Located) :
    tokensOf (ls ++ us) = tokensOf ls ++ tokensOf us := List.map_append

/-- What stands at the end of a statement: a semicolon, or nothing where the code ends. -/
inductive IsStop : List Located → Prop
  | nil : IsStop []
  | semicolon (line : Nat) : IsStop [⟨.symbol .semicolon, line⟩]

/-- The lines of the tokens to come, and the last line. -/
def TokenStream.lines (s : TokenStream) : List Nat := s.tokens.map (·.line) ++ [s.endLine]

theorem TokenStream.line_mem_lines (s : TokenStream) : s.line ∈ s.lines := by
  obtain ⟨tokens, endLine⟩ := s
  cases tokens with
  | nil => exact List.mem_singleton_self _
  | cons l ls => exact List.mem_cons_self

theorem TokenStream.lines_drop_subset (s : TokenStream) : s.drop.lines ⊆ s.lines := by
  obtain ⟨tokens, endLine⟩ := s
  cases tokens with
  | nil => exact List.Subset.refl _
  | cons l ls => exact List.subset_cons_self _ _

namespace Parser

variable {α β : Type} {pre : TokenStream → Prop} {p : Parser α} {post : α → List Located → Prop}

/-- What a reader answers, with the tokens that it takes; it starts where `pre` holds. A failure
shows on one of the lines to come. -/
structure Derives (pre : TokenStream → Prop) (p : Parser α) (post : α → List Located → Prop) :
    Prop where
  takes : ∀ {s a r}, pre s → p s = .ok (a, r) →
    ∃ ls, s.tokens = ls ++ r.tokens ∧ r.endLine = s.endLine ∧ post a ls
  blames : ∀ {s e}, pre s → p s = .error e → e.line ∈ s.lines

/-- What a reader answers, wherever it starts. -/
abbrev Reads (p : Parser α) (post : α → List Located → Prop) : Prop :=
  Derives (fun _ => True) p post

namespace Derives

theorem anywhere (h : Reads p post) : Derives pre p post :=
  ⟨fun _ => h.takes trivial, fun _ => h.blames trivial⟩

theorem pure {a : α} (h : post a []) : Derives pre (pure a) post where
  takes := by
    rintro s _ _ - ⟨⟩
    exact ⟨[], rfl, rfl, h⟩
  blames := by rintro s _ - ⟨⟩

theorem fail (fault : SyntaxFault) : Derives pre (fail fault : Parser α) post where
  takes := by rintro s _ _ - ⟨⟩
  blames := by
    rintro s _ - ⟨⟩
    exact s.line_mem_lines

theorem refuse (fault : Option Token → SyntaxFault) :
    Derives pre (refuse fault : Parser α) post where
  takes := by rintro s _ _ - ⟨⟩
  blames := by
    rintro s _ - ⟨⟩
    exact s.line_mem_lines

theorem imp {post' : α → List Located → Prop} (h : Derives pre p post)
    (himp : ∀ a ls, post a ls → post' a ls) : Derives pre p post' where
  takes hs hrun := by
    obtain ⟨ls, htokens, hend, ha⟩ := h.takes hs hrun
    exact ⟨ls, htokens, hend, himp _ _ ha⟩
  blames := h.blames

theorem bind {f : α → Parser β} {post' : β → List Located → Prop} (h : Derives pre p post)
    (hf : ∀ a ls, post a ls → Reads (f a) fun b us => post' b (ls ++ us)) :
    Derives pre (p >>= f) post' where
  takes := by
    intro s b r hs hrun
    obtain ⟨⟨a, t⟩, hp, hb⟩ := exists_of_bind_eq_ok (x := p s) hrun
    obtain ⟨ls, htokens, hend, ha⟩ := h.takes hs hp
    obtain ⟨us, htokens', hend', hpost⟩ := (hf a ls ha).takes trivial hb
    exact ⟨ls ++ us, by rw [htokens, htokens', List.append_assoc], hend'.trans hend, hpost⟩
  blames := by
    intro s e hs hrun
    cases hp : p s with
    | error e' =>
      have he : (p >>= f) s = .error e' := by
        simp only [Bind.bind, StateT.bind, hp]
        rfl
      cases he.symm.trans hrun
      exact h.blames hs hp
    | ok q =>
      obtain ⟨ls, htokens, hend, ha⟩ := h.takes hs hp
      have hmem := (hf _ ls ha).blames trivial ((bind_of_ok hp).symm.trans hrun)
      rw [TokenStream.lines] at hmem ⊢
      rw [htokens, List.map_append, List.append_assoc, ← hend]
      exact List.mem_append_right _ hmem

theorem ite {c : Prop} [Decidable c] {q : Parser α} (hp : c → Derives pre p post)
    (hq : ¬c → Derives pre q post) : Derives pre (if c then p else q) post := by
  split
  · exact hp ‹_›
  · exact hq ‹_›

theorem look {look : Parser β} {f : β → Parser α} {at_ : TokenStream → β}
    (hlook : ∀ s, look s = .ok (at_ s, s))
    (hf : ∀ b, Derives (fun s => pre s ∧ at_ s = b) (f b) post) :
    Derives pre (look >>= f) post where
  takes := by
    intro s a r hs hrun
    rw [bind_of_ok (hlook s)] at hrun
    exact (hf _).takes ⟨hs, rfl⟩ hrun
  blames := by
    intro s e hs hrun
    rw [bind_of_ok (hlook s)] at hrun
    exact (hf _).blames ⟨hs, rfl⟩ hrun

theorem next? {f : Option Token → Parser α}
    (hf : ∀ t, Derives (fun s => s.next? = t) (f t) post) : Reads (Parser.next? >>= f) post :=
  .look (fun _ => rfl) fun t => ⟨fun h => (hf t).takes h.2, fun h => (hf t).blames h.2⟩

theorem skip {tok : Token} :
    Derives (fun s => s.next? = some tok) skip fun _ ls => ∃ l, ls = [⟨tok, l⟩] where
  takes := by
    rintro ⟨tokens, endLine⟩ _ _ hs ⟨⟩
    cases tokens with
    | nil => cases hs
    | cons l ls =>
      cases hs
      exact ⟨[l], rfl, rfl, l.line, rfl⟩
  blames := by rintro s _ - ⟨⟩

end Derives

theorem exists_of_next? {s : TokenStream} {tok : Token} (h : s.next? = some tok) :
    ∃ l, l.token = tok ∧ s.tokens = l :: s.drop.tokens := by
  obtain ⟨l, hl, rfl⟩ := Option.map_eq_some_iff.1 h
  obtain ⟨ls, hls⟩ := List.head?_eq_some_iff.1 hl
  refine ⟨l, rfl, ?_⟩
  rw [TokenStream.drop, hls]
  rfl

namespace Derives

/-- A reader of one token takes the next one, or shows a line of those to come. -/
theorem one {Q : Token → α → Prop} (h : TakesOne Q p) :
    Reads p fun a ls => ∃ l : Located, Q l.token a ∧ ls = [l] where
  takes := by
    intro s a r _ hrun
    obtain ⟨tok, b, hnext, hQ, hok⟩ | ⟨e, herror, -⟩ := h s
    · cases hok.symm.trans hrun
      obtain ⟨l, rfl, htokens⟩ := exists_of_next? hnext
      exact ⟨[l], htokens, rfl, l, hQ, rfl⟩
    · cases herror.symm.trans hrun
  blames := by
    intro s e _ hrun
    obtain ⟨tok, b, -, -, hok⟩ | ⟨e', herror, hline, -⟩ := h s
    · cases hok.symm.trans hrun
    · cases herror.symm.trans hrun
      obtain hline | hline := hline
      · rw [hline]
        exact s.line_mem_lines
      · rw [hline]
        exact s.lines_drop_subset s.drop.line_mem_lines

theorem expect (symbol : Symbol) :
    Reads (expect symbol) fun _ ls => ∃ l : Located, l.token = .symbol symbol ∧ ls = [l] :=
  one (takesOne_expect symbol)

theorem expectWord (word : String) :
    Reads (expectWord word) fun _ ls => ∃ l : Located, IsWord word l.token ∧ ls = [l] :=
  one (takesOne_expectWord word)

theorem loopVariable :
    Reads loopVariable fun name ls => ∃ l : Located, l.token = .var name ∧ ls = [l] :=
  one takesOne_loopVariable

theorem propertyName :
    Reads propertyName fun name ls => ∃ l : Located, l.token = .name name ∧ ls = [l] :=
  one takesOne_propertyName

theorem terminator : Reads terminator fun _ ls => IsStop ls where
  takes := by
    intro s a r _ hrun
    obtain ⟨hnext, hok⟩ | hok | ⟨found, herror⟩ := terminator_cases s
    · cases hok.symm.trans hrun
      obtain ⟨⟨tok, line⟩, rfl, htokens⟩ := exists_of_next? hnext
      exact ⟨[_], htokens, rfl, .semicolon line⟩
    · cases hok.symm.trans hrun
      exact ⟨[], rfl, rfl, .nil⟩
    · cases herror.symm.trans hrun
  blames := by
    intro s e _ hrun
    obtain ⟨-, hok⟩ | hok | ⟨found, herror⟩ := terminator_cases s
    · cases hok.symm.trans hrun
    · cases hok.symm.trans hrun
    · cases herror.symm.trans hrun
      exact s.line_mem_lines

theorem orElse {Q : Token → Prop} {q : Parser Bool} {found goes : Parser α} (hq : TakesIf Q q)
    (hfound : ∀ l s, pre s → s.tokens.head? = some l → Q l.token →
      Reads found fun a ls => post a (l :: ls))
    (hgoes : Derives pre goes post) :
    Derives pre (q >>= fun b => if b = true then found else goes) post where
  takes := by
    intro s a r hs hrun
    obtain ⟨tok, hnext, hQ, hok⟩ | hok := hq s
    · rw [bind_of_ok hok, if_pos rfl] at hrun
      obtain ⟨l, rfl, htokens⟩ := exists_of_next? hnext
      have hhead : s.tokens.head? = some l := by rw [htokens, List.head?_cons]
      obtain ⟨us, hus, hend, ha⟩ := (hfound l s hs hhead hQ).takes trivial hrun
      exact ⟨l :: us, by rw [htokens, hus, List.cons_append], hend, ha⟩
    · rw [bind_of_ok hok, if_neg Bool.false_ne_true] at hrun
      exact hgoes.takes hs hrun
  blames := by
    intro s e hs hrun
    obtain ⟨tok, hnext, hQ, hok⟩ | hok := hq s
    · rw [bind_of_ok hok, if_pos rfl] at hrun
      obtain ⟨l, rfl, htokens⟩ := exists_of_next? hnext
      have hhead : s.tokens.head? = some l := by rw [htokens, List.head?_cons]
      exact s.lines_drop_subset ((hfound l s hs hhead hQ).blames trivial hrun)
    · rw [bind_of_ok hok, if_neg Bool.false_ne_true] at hrun
      exact hgoes.blames hs hrun

theorem eat {symbol : Symbol} {found goes : Parser α}
    (hfound : ∀ l : Located, l.token = .symbol symbol → Reads found fun a ls => post a (l :: ls))
    (hgoes : Derives pre goes post) :
    Derives pre (eat symbol >>= fun b => if b = true then found else goes) post :=
  orElse (takesIf_eat symbol) (fun l _ _ _ hl => hfound l hl) hgoes

theorem eatWord {word : String} {found goes : Parser α}
    (hfound : ∀ l s, pre s → s.tokens.head? = some l → IsWord word l.token →
      Reads found fun a ls => post a (l :: ls))
    (hgoes : Derives pre goes post) :
    Derives pre (eatWord word >>= fun b => if b = true then found else goes) post :=
  orElse (takesIf_eatWord word) hfound hgoes

theorem unsetHead {q : Parser α}
    (hpre : ∀ s, pre s → s.word? = some "unset" ∧ s.drop.startsWith .leftParen = true)
    (hq : ∀ w open? : Located, IsWord "unset" w.token → open?.token = .symbol .leftParen →
      Reads q fun a ls => post a (w :: open? :: ls)) :
    Derives pre (do Parser.skip; Parser.skip; q) post := by
  have htokens : ∀ s, pre s → ∃ w open?, IsWord "unset" w.token ∧
      open?.token = .symbol .leftParen ∧ s.tokens = w :: open? :: s.drop.drop.tokens := by
    intro s hs
    obtain ⟨hword, hparen⟩ := hpre s hs
    obtain ⟨_, hnext, hunset⟩ := exists_of_word? hword
    obtain ⟨w, rfl, hw⟩ := exists_of_next? hnext
    obtain ⟨p, hopen, hp⟩ := exists_of_next? (startsWith_iff.1 hparen)
    exact ⟨w, p, hunset, hopen, by rw [hw, hp]⟩
  refine ⟨fun {s a r} hs hrun => ?_, fun {s e} hs hrun => ?_⟩
  · obtain ⟨w, p, hw, hp, hs⟩ := htokens s hs
    obtain ⟨ls, hls, hend, ha⟩ := (hq w p hw hp).takes trivial (s := s.drop.drop) hrun
    exact ⟨w :: p :: ls, by rw [hs, hls]; rfl, hend, ha⟩
  · obtain ⟨w, p, hw, hp, -⟩ := htokens s hs
    exact s.lines_drop_subset (s.drop.lines_drop_subset
      ((hq w p hw hp).blames trivial (s := s.drop.drop) hrun))

end Derives

end Parser

end ViewTemplate.Code
