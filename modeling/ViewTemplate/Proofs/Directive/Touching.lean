import ViewTemplate.Proofs.Directive.Paths
import ViewTemplate.Proofs.Directive.Stretches
import ViewTemplate.Proofs.Pattern.Spans
import Mathlib

namespace ViewTemplate.Directive

open Pattern

section Application

variable {r : Rule} {cs w out : List Char} {before : Option Char}

/-- A text with the replacements in place of the matches. -/
def Rule.output (r : Rule) (before : Option Char) (cs : List Char) : List Char :=
  (r.pattern.pieces before cs).flatMap (Piece.replaced r.replacement)

theorem Rule.output_of_apply (h : r.apply? cs = some out) : out = r.output none cs := by
  rw [r.apply_eq_ite] at h
  split at h
  · exact (Option.some.inj h).symm
  · cases h

theorem Rule.output_nil (r : Rule) (before : Option Char) : r.output before [] = [] := by
  rw [Rule.output, Pattern.pieces]
  rfl

theorem Rule.output_cons (r : Rule) (before : Option Char) (c : Char) (cs : List Char) :
    r.output before (c :: cs) = c :: r.output (some c) cs ∨
      ∃ m, r.pattern.run some ⟨before, c :: cs, 0, []⟩ = some m ∧ r.output before (c :: cs) =
        (r.replacement ⟨⟨c :: cs, m.position⟩, m.groups⟩).toList ++ r.output m.before m.rest := by
  unfold Rule.output
  rw [Pattern.pieces]
  cases hrun : r.pattern.run some ⟨before, c :: cs, 0, []⟩ with
  | none => exact .inl rfl
  | some m =>
    by_cases hshorter : m.rest.length < (c :: cs).length
    · refine .inr ⟨m, rfl, ?_⟩
      simp only [dif_pos hshorter]
      rfl
    · refine .inl ?_
      simp only [dif_neg hshorter]
      rfl

theorem Rule.OpensWithBrace.output_append (hr : r.OpensWithBrace) (hw : '{' ∉ w)
    (before : Option Char) (cs : List Char) :
    ∃ before', r.output before (w ++ cs) = w ++ r.output before' cs := by
  induction w generalizing before with
  | nil => exact ⟨before, rfl⟩
  | cons c w ih =>
    obtain ⟨before', hrest⟩ := ih (List.not_mem_of_not_mem_cons hw) (some c)
    refine ⟨before', ?_⟩
    rcases r.output_cons before c (w ++ cs) with h | ⟨m, hm, -⟩
    · exact h.trans (congrArg (c :: ·) hrest)
    · rw [hr c _ (List.ne_of_not_mem_cons hw).symm before] at hm
      cases hm

/-- A rule whose matches all end with a brace. -/
def Rule.ClosesWithBrace (r : Rule) : Prop :=
  ∀ before cs m, r.pattern.run some ⟨before, cs, 0, []⟩ = some m → ∃ w, cs = w ++ '}' :: m.rest

/-- A relation between directives and what becomes of them that holds wherever a rule is applied to
some of `whole`. -/
structure Rule.Respects (r : Rule) (whole : List Stretch) (R : List Stretch → List Char → Prop) :
    Prop where
  nil : R [] []
  kept {s ss out} (h : R ss out) : R (s :: ss) (s.shown ++ out)
  matched {first last ss out m before} (hwhole : first ++ last :: ss <:+ whole)
    (hrun : r.pattern.run some ⟨before, upTo first last ++ m.rest, 0, []⟩ = some m)
    (h : R ss out) : R (first ++ last :: ss)
      ((r.replacement ⟨⟨upTo first last ++ m.rest, m.position⟩, m.groups⟩).toList ++
        (last.text ++ out))

variable {R : List Stretch → List Char → Prop} {ss whole : List Stretch}

theorem Rule.Respects.output (h : r.Respects whole R) (hopen : r.OpensWithBrace)
    (hclose : r.ClosesWithBrace) (hss : ss <:+ whole) : R ss (r.output before (written ss)) := by
  -- A match goes over any number of directives, so the induction is on how many there are.
  induction hn : ss.length using Nat.strongRecOn generalizing ss before with
  | _ n ih =>
    cases ss with
    | nil =>
      rw [written_nil, Rule.output_nil]
      exact h.nil
    | cons s ss =>
      rcases r.output_cons before '{' (s.content ++ '}' :: (s.text ++ written ss)) with
        heq | ⟨m, hm, heq⟩
      · have hno : '{' ∉ s.content ++ '}' :: s.text := by
          simp [s.content_braceless.no_left, s.text_braceless.no_left]
        obtain ⟨before', hrest⟩ := hopen.output_append hno (some '{') (written ss)
        rw [List.append_assoc, List.cons_append] at hrest
        have hbehind : R ss (r.output before' (written ss)) :=
          ih ss.length (by simp [← hn]) ((List.suffix_cons s ss).trans hss) rfl
        have hkept := h.kept (s := s) hbehind
        rw [written_cons, heq, hrest]
        simpa [Stretch.shown, braced] using hkept
      · obtain ⟨w, hw⟩ := hclose _ _ _ hm
        rw [← written_cons] at hw
        obtain ⟨first, last, rest, hsplit, -, hrest⟩ := exists_upTo hw
        have hwritten : '{' :: (s.content ++ '}' :: (s.text ++ written ss)) =
            upTo first last ++ m.rest := by
          rw [← written_cons, hsplit, written_upTo, hrest]
        obtain ⟨before', htext⟩ :=
          hopen.output_append last.text_braceless.no_left m.before (written rest)
        have hlength : rest.length < n := by
          rw [← hn, hsplit, List.length_append, List.length_cons]
          omega
        rw [hsplit] at hss
        have hsuffix : rest <:+ first ++ last :: rest :=
          (List.suffix_cons last rest).trans (List.suffix_append ..)
        have hbehind : R rest (r.output before' (written rest)) :=
          ih rest.length hlength (hsuffix.trans hss) rfl
        rw [hwritten] at hm heq
        rw [written_cons, hwritten, heq, hsplit, hrest, htext, ← hrest]
        exact h.matched hss hm hbehind

end Application

section Copying

variable {r : Rule} {m n : Cursor} {content : Pattern} {z : List Char}

theorem braceless_of_blank (hz : ∀ c ∈ z, Text.isBlank c = true) : Braceless z := by
  refine fun c hc => ⟨?_, ?_⟩
  · rintro rfl
    exact absurd (hz '{' hc) (by decide)
  · rintro rfl
    exact absurd (hz '}' hc) (by decide)

theorem takes_opening (h : Delimiters.braces.opening.Takes m n) :
    ∃ z, (∀ c ∈ z, Text.isBlank c = true) ∧ m.Past ('{' :: z) n := by
  obtain ⟨k, hbrace, hblanks⟩ := h
  obtain ⟨w, hw, hpast⟩ := takes_anyCase hbrace
  obtain ⟨c, rfl, hc⟩ := List.map_eq_singleton_iff.mp (show w.map Text.foldChar = ['{'] from hw)
  cases Text.foldChar_leftBrace hc
  obtain ⟨z, hz, hpast'⟩ := takes_many hblanks
  exact ⟨z, hz, hpast.trans hpast'⟩

theorem takes_around (h : (Delimiters.braces.around content).Takes m n) :
    ∃ z x k l, (∀ c ∈ z, Text.isBlank c = true) ∧ (∀ c ∈ x, Text.isBlank c = true) ∧
      m.Goes ('{' :: z) [] k ∧ content.Takes k l ∧ l.Goes (x ++ ['}']) [] n := by
  obtain ⟨l, ⟨k, hopen, hcontent⟩, hclose⟩ := h
  obtain ⟨z, hz, hpast⟩ := takes_opening hopen
  obtain ⟨x, hx, hpast'⟩ := takes_closing hclose
  exact ⟨z, x, k, l, hz, hx, hpast.goes, hcontent, hpast'.goes⟩

/-- In place of a match stands, among other things, a part of it with no right brace in front of it
and no left brace behind it. -/
def Rule.Copies (r : Rule) : Prop :=
  ∀ before cs m, r.pattern.run some ⟨before, cs, 0, []⟩ = some m →
    ∃ u v x p q, cs = '{' :: (u ++ (v ++ (x ++ '}' :: m.rest))) ∧ '}' ∉ u ∧ '{' ∉ x ∧
      (r.replacement ⟨⟨cs, m.position⟩, m.groups⟩).toList = p ++ (v ++ q)

/-- No match goes beyond one directive. -/
theorem copies_of_avoids (hr : r.pattern = Delimiters.braces.around content)
    (hcontent : content.avoids '}' = true) : r.Copies := by
  intro before cs m hrun
  rw [hr] at hrun
  obtain ⟨n, hn, hm⟩ := takes_of_run hrun
  cases hm
  obtain ⟨z, x, k, l, hz, hx, hopen, htakes, hclose⟩ := takes_around hn
  obtain ⟨w, gs, hw, havoids, -⟩ := covers_of_takes htakes
  refine ⟨z ++ w, [], x, (r.replacement ⟨⟨cs, m.position⟩, m.groups⟩).toList, [], ?_, ?_,
    (braceless_of_blank hx).no_left, by simp⟩
  · refine hopen.rest.trans ?_
    rw [hw.rest, hclose.rest]
    simp
  · simp [(braceless_of_blank hz).no_right, havoids '}' hcontent]

theorem copies_of_group (first inner : Pattern) (number : Nat)
    (hr : r.pattern = Delimiters.braces.around (first ++ group number inner))
    (hfirst : first.avoids '}' = true) (hinner : inner.numbers = [])
    (hcopy : ∀ f, ∃ p q,
      (r.replacement f).toList = p ++ ((f.group number).toList ++ q)) : r.Copies := by
  intro before cs m hrun
  rw [hr] at hrun
  obtain ⟨n, hn, hm⟩ := takes_of_run hrun
  cases hm
  obtain ⟨z, x, k, l, hz, hx, hopen, ⟨j, htakes, hgroup⟩, hclose⟩ := takes_around hn
  obtain ⟨w, gs, hw, havoids, -⟩ := covers_of_takes htakes
  obtain ⟨v, hv, -⟩ := takes_group_goes hgroup hinner
  obtain ⟨p, q, hpq⟩ := hcopy ⟨⟨cs, m.position⟩, m.groups⟩
  have hkept : Found.group ⟨⟨cs, m.position⟩, m.groups⟩ number = String.ofList v := by
    rw [((hopen.trans hw).trans hv |>.trans hclose).groups]
    exact Found.group_kept
  rw [hkept, String.toList_ofList] at hpq
  refine ⟨z ++ w, v, x, p, q, ?_, ?_, (braceless_of_blank hx).no_left, hpq⟩
  · refine hopen.rest.trans ?_
    rw [hw.rest, hv.rest, hclose.rest]
    simp
  · simp [(braceless_of_blank hz).no_right, havoids '}' hfirst]

theorem copies_dottedAccess : (dottedAccess .braces).Copies := by
  intro before cs m hrun
  obtain ⟨n, hn, hm⟩ := takes_of_run hrun
  cases hm
  obtain ⟨j, ⟨_, ⟨_, ⟨_, ⟨_, ⟨_, hopen, hskip⟩, rfl⟩, hpath⟩, hdot⟩, hname⟩,
    _, ⟨_, hline, hclose⟩, hm⟩ := hn
  obtain ⟨z, hz, hopen⟩ := takes_opening hopen
  obtain ⟨w₁, hw₁, hskip⟩ := takes_star takes_inDirective hskip
  obtain ⟨w₂, gs₂, hpath, havoids₂, -⟩ := covers_of_takes hpath
  have hdot := (takes_exact hdot).goes
  obtain ⟨w₃, gs₃, hname, havoids₃, -⟩ := covers_of_takes hname
  obtain ⟨y, -, hline⟩ := takes_few hline
  obtain ⟨x, hx, hclose⟩ := takes_closing hclose
  have hfirst := ((((hopen.trans hskip).goes.keep 1).trans hpath).trans hdot).trans hname
  have hlast := (hline.trans hclose).goes.keep 4
  rw [← hm] at hlast
  -- No directive ends in front of the path, so its brace is not in what is replaced.
  have hno : '}' ∉ w₁ := fun hmem => hw₁ '}' hmem rfl
  let f : Found := ⟨⟨cs, m.position⟩, m.groups⟩
  have hkept : f.group 4 = String.ofList (y ++ (x ++ ['}'])) :=
    Found.group_head hlast.groups rfl
  refine ⟨z ++ (w₁ ++ (w₂ ++ '.' :: w₃)), y, x,
    (f.group 1 ++ f.group 2 ++ "['" ++ f.group 3 ++ "']").toList, x ++ ['}'], ?_, ?_,
    (braceless_of_blank hx).no_left, ?_⟩
  · refine hfirst.rest.trans ?_
    rw [hlast.rest]
    simp
  · simp [(braceless_of_blank hz).no_right, hno, havoids₂ '}' (by decide), havoids₃ '}' (by decide)]
  · show (f.group 1 ++ f.group 2 ++ "['" ++ f.group 3 ++ "']" ++ f.group 4).toList = _
    rw [hkept, String.toList_append, String.toList_ofList]

theorem Rule.Copies.closesWithBrace (h : r.Copies) : r.ClosesWithBrace := by
  intro before cs m hrun
  obtain ⟨u, v, x, -, -, hcs, -⟩ := h _ _ _ hrun
  exact ⟨'{' :: (u ++ (v ++ x)), by rw [hcs]; simp⟩

theorem Rule.Copies.respects (h : r.Copies) (whole : List Stretch) : r.Respects whole Keeps where
  nil := .nil
  kept h := by
    rw [Stretch.shown, List.append_assoc]
    exact .cons _ _ h
  matched {before last _ _ m _} _ hrun hout := by
    obtain ⟨u, v, x, p, q, hcs, hu, hx, hreplaced⟩ := h _ _ _ hrun
    have hmatch : upTo before last = '{' :: (u ++ (v ++ (x ++ ['}']))) := by
      refine (List.append_left_inj m.rest).mp (hcs.trans ?_)
      simp
    refine .matched ?_ hout
    rw [hreplaced]
    exact ((carries_of_upTo hu hx hmatch).append q).prepend p

/-- All rules copy but three. -/
theorem copies_of_mem (hr : r ∈ rules .braces) (hcomment : r.name ≠ "comment")
    (hloopToken : r.name ≠ "loop-token") (hinclude : r.name ≠ "include") : r.Copies := by
  have hcopy : ∀ (f : Found) (number : Nat) (before behind : String), ∃ p q,
      (codeBlock (before ++ f.group number ++ behind)).toList =
        p ++ ((f.group number).toList ++ q) := fun f number before behind =>
    ⟨(Code.openTag ++ " " ++ before).toList, (behind ++ " " ++ Code.closeTag).toList, by
      simp [codeBlock, String.toList_append]⟩
  have hconditional : ∀ name keyword statement, keyword.avoids '}' = true →
      (conditional .braces name keyword statement).Copies := fun name keyword statement hkeyword =>
    copies_of_group (keyword ++ many blank) (few1 inLine) 1 rfl
      (Bool.and_eq_true_iff.mpr ⟨hkeyword, rfl⟩) rfl fun f => hcopy f 1 (statement ++ " (") ") :"
  cases hr using Rule.byName with
  | comment => exact absurd rfl hcomment
  | loopToken => exact absurd rfl hloopToken
  | includeFile => exact absurd rfl hinclude
  | rawEcho =>
    exact copies_of_group (exact "~") (few inLine) 1 rfl rfl rfl fun f => hcopy f 1 "echo " ";"
  | dottedAccess => exact copies_dottedAccess
  | ternary =>
    exact copies_of_group _ _ 2 rfl rfl rfl fun f =>
      hcopy f 2 ("echo strval(" ++ f.group 1 ++ "?") ");"
  | assignment => exact copies_of_group _ _ 2 rfl rfl rfl fun f => hcopy f 2 (f.group 1 ++ " =") ";"
  | loop | cond | elseCond => exact hconditional _ _ _ rfl
  | _ => exact copies_of_avoids rfl rfl

end Copying

section Exceptions

variable {whole : List Stretch} {m n : Cursor} {k : List Char}

theorem closesWithBrace_of_around {r : Rule} {content : Pattern}
    (hr : r.pattern = Delimiters.braces.around content) : r.ClosesWithBrace := by
  intro before cs m hrun
  rw [hr] at hrun
  obtain ⟨n, hn, hm⟩ := takes_of_run hrun
  cases hm
  obtain ⟨z, x, k, l, -, -, hopen, htakes, hclose⟩ := takes_around hn
  obtain ⟨w, gs, hw, -⟩ := covers_of_takes htakes
  refine ⟨'{' :: z ++ w ++ x, hopen.rest.trans ?_⟩
  rw [hw.rest, hclose.rest]
  simp

theorem exists_of_comment {before : Option Char} {cs : List Char}
    (h : (comment .braces).pattern.run some ⟨before, cs, 0, []⟩ = some m) :
    ∃ z g x, cs = '{' :: (z ++ '*' :: (g ++ '*' :: (x ++ '}' :: m.rest))) ∧
      (∀ c ∈ z, Text.isBlank c = true) ∧ ∀ c ∈ x, Text.isBlank c = true := by
  obtain ⟨n, hn, hm⟩ := takes_of_run h
  cases hm
  obtain ⟨z, x, k, l, hz, hx, hopen, ⟨j, ⟨_, hstar, hgroup⟩, hstar'⟩, hclose⟩ := takes_around hn
  obtain ⟨g, gs, hg, -⟩ := covers_of_takes hgroup
  refine ⟨z, g, x, hopen.rest.trans ?_, hz, hx⟩
  rw [(takes_exact hstar).1, hg.rest, (takes_exact hstar').1, hclose.rest]
  simp

theorem comment_respects (whole : List Stretch) : (comment .braces).Respects whole Drops where
  nil := .nil
  kept h := .kept _ h
  matched {before last _ _ m _} _ hrun hout := by
    obtain ⟨z, g, x, hcs, hz, hx⟩ := exists_of_comment hrun
    have hmatch : upTo before last = '{' :: (z ++ '*' :: (g ++ '*' :: (x ++ ['}']))) := by
      refine (List.append_left_inj m.rest).mp (hcs.trans ?_)
      simp
    have hopen : '}' ∉ z ++ ['*'] := by simp [(braceless_of_blank hz).no_right]
    have hclose : '{' ∉ '*' :: x := by simp [(braceless_of_blank hx).no_left]
    refine .dropped (fun first hfirst => ?_) ?_ hout
    · obtain ⟨v, hv⟩ := exists_content_of_head (w := g ++ '*' :: (x ++ ['}'])) hopen
        (hmatch.trans (by simp)) first hfirst
      exact ⟨z, v, by rw [hv]; simp, hz⟩
    · obtain ⟨v, hv, -⟩ := exists_content_of_last (w := '{' :: (z ++ '*' :: g)) hclose
        (hmatch.trans (by simp))
      exact ⟨v, x, hv, hx⟩

/-- The field of a loop as the rule for fields finds it. -/
def IsField (k : List Char) : Prop :=
  ∃ name field, k = '$' :: (name ++ '@' :: field) ∧ name ≠ [] ∧
    (∀ c ∈ name, Text.isWordPart c = true) ∧
    ∃ f : LoopField, field.map Text.foldChar = f.name.toList.map Text.foldChar

/-- The text stands on one line and holds the field of a loop. -/
def Stretch.HoldsField (s : Stretch) : Prop := '\n' ∉ s.text ∧ ∃ k, IsField k ∧ k <:+: s.text

def fields : Pattern :=
  many1 (group 2 (exact "$" ++ group 3 (many1 wordPart) ++ exact "@" ++
    group 4 (oneOf (["index", "iteration", "first", "last", "total"].map anyCase))))

theorem takes_fieldName
    (h : (oneOf (["index", "iteration", "first", "last", "total"].map anyCase)).Takes m n) :
    ∃ w, m.Past w n ∧ ∃ f : LoopField, w.map Text.foldChar = f.name.toList.map Text.foldChar := by
  rcases h with h | h | h | h | h
  · obtain ⟨w, hw, hpast⟩ := takes_anyCase h
    exact ⟨w, hpast, .index, hw⟩
  · obtain ⟨w, hw, hpast⟩ := takes_anyCase h
    exact ⟨w, hpast, .iteration, hw⟩
  · obtain ⟨w, hw, hpast⟩ := takes_anyCase h
    exact ⟨w, hpast, .first, hw⟩
  · obtain ⟨w, hw, hpast⟩ := takes_anyCase h
    exact ⟨w, hpast, .last, hw⟩
  · obtain ⟨w, hw, hpast⟩ := takes_anyCase h
    exact ⟨w, hpast, .total, hw⟩

theorem takes_fields (h : fields.Takes m n) :
    ∃ k w gs, m.Goes (k ++ w) gs n ∧ IsField k ∧ Braceless (k ++ w) ∧ '\n' ∉ k ++ w ∧
      ∀ g ∈ gs, g.1 ≠ 1 := by
  obtain ⟨v, gs, hv, havoids, hgs⟩ := covers_of_takes h
  obtain ⟨_, ⟨_, ⟨_, ⟨_, ⟨_, hdollar, _, hname, rfl⟩, hsign⟩, _, hfield, rfl⟩, rfl⟩, hmore⟩ := h
  obtain ⟨name, hne, hname, hpast⟩ := takes_many1 takes_char hname
  obtain ⟨field, hpast', f, hf⟩ := takes_fieldName hfield
  obtain ⟨w, _, hw, -⟩ := covers_of_takes (a := many _) hmore
  have htoken := ((((takes_exact hdollar).goes.trans (hpast.goes.keep 3)).trans
    (takes_exact hsign).goes).trans (hpast'.goes.keep 4)).keep 2
  have hrest : m.rest = '$' :: (name ++ '@' :: field) ++ w ++ n.rest := by
    rw [(htoken.trans hw).rest]
    simp
  -- The stretch that the groups cover is the one that the parts spell.
  obtain rfl : v = '$' :: (name ++ '@' :: field) ++ w :=
    List.append_cancel_right (hv.rest.symm.trans hrest)
  refine ⟨_, w, gs, hv, ⟨name, field, rfl, hne, hname, f, hf⟩, fun c hc => ⟨?_, ?_⟩, ?_,
    fun g hg => ?_⟩
  · rintro rfl
    exact havoids '{' rfl hc
  · rintro rfl
    exact havoids '}' rfl hc
  · exact havoids '\n' rfl
  · rintro h1
    have hnumber := hgs g hg
    rw [h1] at hnumber
    exact absurd hnumber (by decide)

/-- A match of the rule for fields replaces the fields in one place, and copies what is around. -/
theorem exists_of_loopToken_run {before : Option Char} {cs : List Char}
    (h : (loopToken .braces).pattern.run some ⟨before, cs, 0, []⟩ = some m) :
    ∃ z u k w y x e, cs = '{' :: (z ++ u) ++ ((k ++ w) ++ (y ++ (x ++ '}' :: m.rest))) ∧
      (∀ c ∈ z, Text.isBlank c = true) ∧ (∀ c ∈ x, Text.isBlank c = true) ∧
      IsField k ∧ Braceless (k ++ w) ∧ '\n' ∉ k ++ w ∧ '\n' ∉ u ∧ '\n' ∉ y ∧
      ((loopToken .braces).replacement ⟨⟨cs, m.position⟩, m.groups⟩).toList =
        '{' :: (z ++ u) ++ (e ++ (y ++ (x ++ ['}']))) := by
  obtain ⟨n, ⟨_, ⟨_, ⟨_, ⟨_, hopen, hskip⟩, rfl⟩, hfields⟩, _, ⟨_, hline, hclose⟩, rfl⟩, hm⟩ :=
    takes_of_run h
  obtain ⟨z, hz, hopen⟩ := takes_opening hopen
  obtain ⟨u, hu, hskip⟩ := takes_few hskip
  obtain ⟨k, w, gs, hfields, hk, hbraceless, hkline, hgs⟩ := takes_fields hfields
  obtain ⟨y, hy, hline⟩ := takes_few hline
  obtain ⟨x, hx, hclose⟩ := takes_closing hclose
  have hlast := (hline.trans hclose).goes.keep 5
  have hall := (((hopen.trans hskip).goes.keep 1).trans hfields).trans hlast
  rw [Option.some.inj hm] at hlast hall
  let f : Found := ⟨⟨cs, m.position⟩, m.groups⟩
  have hgroup5 : f.group 5 = String.ofList (y ++ (x ++ ['}'])) := Found.group_head hlast.groups rfl
  -- The groups of the fields have other numbers, so the first one is still found.
  have hgroup1 : Found.group ⟨⟨cs, m.position⟩, m.groups⟩ 1 = String.ofList ('{' :: z ++ u) := by
    rw [hall.groups, List.append_nil, Found.group_append (by simp), Found.group_append hgs]
    exact Found.group_kept
  refine ⟨z, u, k, w, y, x, (loopVariable (f.group 3) (Text.lowerAscii (f.group 4))).toList, ?_, hz,
    hx, hk, hbraceless, hkline, fun hmem => absurd (hu _ hmem) (by decide),
    fun hmem => absurd (hy _ hmem) (by decide), ?_⟩
  · refine hall.rest.trans ?_
    simp
  · show (f.group 1 ++ loopVariable (f.group 3) (Text.lowerAscii (f.group 4)) ++
      f.group 5).toList = _
    rw [hgroup1, hgroup5]
    simp [String.toList_append]

theorem closesWithBrace_loopToken : (loopToken .braces).ClosesWithBrace := by
  intro before cs m hrun
  obtain ⟨z, u, k, w, y, x, -, hcs, -⟩ := exists_of_loopToken_run hrun
  exact ⟨'{' :: (z ++ u) ++ (k ++ w ++ (y ++ x)), by rw [hcs]; simp⟩

theorem mem_dropLast_of_suffix {before ss : List Stretch} {s last : Stretch}
    (h : before ++ last :: ss <:+ whole) (hs : s ∈ before) : s ∈ whole.dropLast := by
  obtain ⟨w, rfl⟩ := h
  rw [← List.append_assoc, List.dropLast_append_of_ne_nil (List.cons_ne_nil _ _)]
  exact List.mem_append_left _ (List.mem_append_right _ hs)

theorem loopToken_respects (hwhole : ∀ s ∈ whole.dropLast, ¬s.HoldsField) :
    (loopToken .braces).Respects whole Keeps where
  nil := .nil
  kept h := by
    rw [Stretch.shown, List.append_assoc]
    exact .cons _ _ h
  matched {before last _ _ m _} hsuffix hrun hout := by
    obtain ⟨z, u, k, w, y, x, e, hcs, hz, hx, hk, hbraceless, hkline, hu, hy, hreplaced⟩ :=
      exists_of_loopToken_run hrun
    have hmatch : upTo before last = '{' :: (z ++ u) ++ ((k ++ w) ++ (y ++ (x ++ ['}']))) := by
      refine (List.append_left_inj m.rest).mp (hcs.trans ?_)
      simp
    refine .matched ?_ hout
    rw [hreplaced]
    rcases carries_or_infix hbraceless hmatch e with h | ⟨s, hs, a, b, p, q, htext, ha, hb⟩
    · exact h
    · -- The fields would stand in the text behind a directive of the match.
      have hopen : '}' ∉ '{' :: z := by simp [(braceless_of_blank hz).no_right]
      have hclose : '{' ∉ x ++ ['}'] := by simp [(braceless_of_blank hx).no_left]
      obtain ⟨u', -, rfl⟩ := exists_of_append_cons hopen ha
      obtain ⟨y', rfl⟩ := exists_of_cons_append hclose hb
      refine absurd ⟨?_, k, hk, a, w ++ b, ?_⟩ (hwhole s (mem_dropLast_of_suffix hsuffix hs))
      · rw [htext]
        simp_all
      · rw [htext]
        simp

theorem exists_trimEnd {u v : List Char} {c : Char} (hc : Text.isBlank c = false) :
    ∃ w, Text.trimEnd (u ++ c :: v) = u ++ c :: w := by
  refine ⟨(v.reverse.dropWhile Text.isBlank).reverse, ?_⟩
  have hreverse : (u ++ c :: v).reverse = v.reverse ++ c :: u.reverse := by simp
  rw [Text.trimEnd, Text.dropEndWhile, hreverse, List.dropWhile_append]
  split
  · simp_all
  · simp

theorem flatMap_escapeQuote {t : List Char} (ht : ∀ c ∈ t, c ≠ '\'' ∧ c ≠ '\\') :
    t.flatMap escapeQuote = t := by
  refine (List.flatMap_congr fun c hc => ?_).trans (List.flatMap_singleton' t)
  rw [escapeQuote, if_neg]
  rintro (rfl | rfl)
  · exact (ht _ hc).2 rfl
  · exact (ht _ hc).1 rfl

theorem carries_quoteWord {a t b : List Char} (ht : ∀ c ∈ t, c ≠ '\'' ∧ c ≠ '\\') :
    Carries [t] (quoteWord (String.ofList (a ++ (t ++ b)))).toList := by
  unfold quoteWord
  split
  · rw [String.toList_ofList]
    exact .cons a t (.nil b)
  · rw [String.toList_ofList, String.toList_ofList, List.flatMap_append, List.flatMap_append,
      flatMap_escapeQuote ht]
    exact ((Carries.cons _ t (.nil _)).prepend ['\'']).append ['\'']

theorem carries_codeBlock {ts : List (List Char)} {word before behind : String}
    (h : Carries ts word.toList) : Carries ts (codeBlock (before ++ word ++ behind)).toList := by
  have hcode : (codeBlock (before ++ word ++ behind)).toList =
      (Code.openTag ++ " " ++ before).toList ++
        (word.toList ++ (behind ++ " " ++ Code.closeTag).toList) := by
    simp [codeBlock, String.toList_append]
  rw [hcode]
  exact (h.append _).prepend _

/-- A directive that includes a file, up to its name. -/
def OpensInclude (t : List Char) : Prop :=
  ∃ u y v, t = u ++ y ++ v ∧ u.map Text.foldChar = "include".toList.map Text.foldChar ∧
    (∀ c ∈ y, Text.isBlank c = true) ∧ v.map Text.foldChar = "file=".toList.map Text.foldChar

/-- The directive includes a file but does not name it. -/
def Stretch.IncludesNothing (s : Stretch) : Prop :=
  ∃ z t, s.content = z ++ t ∧ (∀ c ∈ z, Text.isBlank c = true) ∧ OpensInclude t

/-- The name of an included file is as short as it can be, but never empty. -/
theorem exists_of_include_run {before : Option Char} {cs : List Char}
    (h : (includeFile .braces).pattern.run some ⟨before, cs, 0, []⟩ = some m) :
    ∃ z t c w x, cs = '{' :: (z ++ t) ++ c :: (w ++ (x ++ '}' :: m.rest)) ∧
      (∀ d ∈ z, Text.isBlank d = true) ∧ (∀ d ∈ x, Text.isBlank d = true) ∧ OpensInclude t ∧
      '}' ∉ t ∧ '}' ∉ w ∧ (includeFile .braces).replacement ⟨⟨cs, m.position⟩, m.groups⟩ =
        codeBlock ("include " ++ quoteWord (String.ofList (Text.trim (c :: w))) ++ ";") := by
  obtain ⟨k, hopen, h⟩ := takes_of_run (a := Delimiters.braces.opening) h
  obtain ⟨j, hfirst, h⟩ := takes_of_run
    (a := anyCase "include" ++ many blank ++ anyCase "file=") h
  obtain ⟨i, hchar, h⟩ := takes_of_run (a := inLine) h
  obtain ⟨w, rest, hrest, -, hnext, hshort⟩ := few_shortest h
  obtain ⟨z, hz, hopen⟩ := takes_opening hopen
  obtain ⟨t, gs, ht, havoids, -⟩ := covers_of_takes hfirst
  obtain ⟨_, ⟨_, hinclude, hblanks⟩, hfile⟩ := hfirst
  obtain ⟨u, hu, hinclude⟩ := takes_anyCase hinclude
  obtain ⟨y, hy, hblanks⟩ := takes_many hblanks
  obtain ⟨v, hv, hfile⟩ := takes_anyCase hfile
  obtain ⟨c, -, hchar⟩ := takes_char hchar
  obtain ⟨n, hclose, hm⟩ := takes_of_run hnext
  cases hm
  obtain ⟨x, hx, hclose⟩ := takes_closing hclose
  have hname := ((hchar.trans (Cursor.past_after hrest)).goes.keep 1).trans hclose.goes
  have ht' : t = u ++ y ++ v := by
    refine (List.append_left_inj j.rest).mp (ht.rest.symm.trans ?_)
    exact ((hinclude.trans hblanks).trans hfile).1
  refine ⟨z, t, c, w, x, ?_, hz, hx, ⟨u, y, v, ht', hu, hy, hv⟩, havoids '}' rfl, ?_, ?_⟩
  · refine ((hopen.goes.trans ht).trans hname).rest.trans ?_
    simp
  · -- In front of a right brace the name would end.
    intro hmem
    obtain ⟨a, b, rfl⟩ := List.append_of_mem hmem
    have hnone := hshort a ('}' :: b) rfl (List.cons_ne_nil _ _)
    exact absurd ((run_closing rfl).symm.trans hnone) nofun
  · have hgroup : Found.group ⟨⟨cs, m.position⟩, m.groups⟩ 1 = String.ofList (c :: w) :=
      Found.group_head hname.groups rfl
    show codeBlock ("include " ++ quoteWord (String.ofList (Text.trim
      (Found.group ⟨⟨cs, m.position⟩, m.groups⟩ 1).toList)) ++ ";") = _
    rw [hgroup, String.toList_ofList]

theorem include_respects (hwhole : ∀ s ∈ whole.dropLast,
    s.IncludesNothing → ∀ c ∈ s.text, c ≠ '\'' ∧ c ≠ '\\') :
    (includeFile .braces).Respects whole Keeps where
  nil := .nil
  kept h := by
    rw [Stretch.shown, List.append_assoc]
    exact .cons _ _ h
  matched {before last _ _ m _} hsuffix hrun hout := by
    obtain ⟨z, t, c, w, x, hcs, hz, hx, hopen, ht, hw, hreplaced⟩ := exists_of_include_run hrun
    have hmatch : upTo before last = '{' :: (z ++ t) ++ c :: (w ++ (x ++ ['}'])) := by
      refine (List.append_left_inj m.rest).mp (hcs.trans ?_)
      simp
    refine .matched ?_ hout
    rw [hreplaced]
    have hx := braceless_of_blank hx
    have hfirst : '}' ∉ z ++ t := by simp [(braceless_of_blank hz).no_right, ht]
    by_cases hc : c = '}'
    · -- The directive is over where the name should begin.
      subst hc
      obtain ⟨s, v, rfl, hcontent, rfl⟩ := eq_singleton_of_upTo hfirst hw hx hmatch
      have htext := hwhole s (mem_dropLast_of_suffix hsuffix List.mem_cons_self)
        ⟨z, t, hcontent, hz, hopen⟩
      obtain ⟨b, htrim⟩ := exists_trimEnd (u := '}' :: s.text) (v := v) (c := '{') rfl
      rw [show Text.trim ('}' :: (s.text ++ '{' :: v)) = ['}'] ++ (s.text ++ '{' :: b) from htrim]
      exact carries_codeBlock (carries_quoteWord htext)
    · have hinside : '}' ∉ z ++ t ++ c :: w := by
        rw [List.mem_append, List.mem_cons]
        rintro (h | h | h)
        · exact hfirst h
        · exact hc h.symm
        · exact hw h
      have hnone := carries_of_upTo (v := []) hinside hx.no_left (hmatch.trans (by simp))
      rw [← List.append_nil (codeBlock _).toList]
      exact hnone.prepend _

end Exceptions

section Table

variable {r : Rule} {lead out : List Char} {ss : List Stretch}

theorem opensWithBrace_of_mem (hr : r ∈ rules .braces) : r.OpensWithBrace := by
  cases hr using Rule.byName with
  | dottedAccess => exact opensWithBrace_dottedAccess
  | loopToken => exact opensWithBrace_loopToken
  | _ => exact Rule.opensWithBrace_of_around rfl

theorem eq_of_name {q : Rule} (hr : r ∈ rules .braces) (hq : q ∈ rules .braces)
    (h : r.name = q.name) : r = q := by
  have hnames : ((rules .braces).map Rule.name).Nodup := by decide
  exact List.inj_on_of_nodup_map hnames hr hq h

/-- A rule does not get at the text between two directives. -/
structure Rule.Spares (r : Rule) (s : Stretch) : Prop where
  field : r.name = "loop-token" → ¬s.HoldsField
  file : r.name = "include" → s.IncludesNothing → ∀ c ∈ s.text, c ≠ '\'' ∧ c ≠ '\\'

/-- A rule that is applied to a text with directives copies what is between them, in order; only
comments go away with the text inside. -/
theorem Rule.keeps_of_apply (hr : r ∈ rules .braces) (hlead : Braceless lead)
    (h : r.apply? (lead ++ written ss) = some out) :
    ∃ out', out = lead ++ out' ∧ (r.name = "comment" → Drops ss out') ∧
      (r.name ≠ "comment" → (∀ s ∈ ss.dropLast, r.Spares s) → Keeps ss out') := by
  have hopen := opensWithBrace_of_mem hr
  obtain ⟨before, houtput⟩ := hopen.output_append hlead.no_left none (written ss)
  refine ⟨_, (Rule.output_of_apply h).trans houtput, fun hname => ?_, fun hname hss => ?_⟩
  · obtain rfl := eq_of_name hr (q := comment .braces) (by simp [rules]) hname
    exact (comment_respects ss).output hopen (closesWithBrace_of_around rfl) List.suffix_rfl
  by_cases hfield : r.name = "loop-token"
  · obtain rfl := eq_of_name hr (q := loopToken .braces) (by simp [rules]) hfield
    exact (loopToken_respects fun s hs => (hss s hs).field rfl).output hopen
      closesWithBrace_loopToken List.suffix_rfl
  by_cases hfile : r.name = "include"
  · obtain rfl := eq_of_name hr (q := includeFile .braces) (by simp [rules]) hfile
    exact (include_respects fun s hs => (hss s hs).file rfl).output hopen
      (closesWithBrace_of_around rfl) List.suffix_rfl
  · have hcopies := copies_of_mem hr hname hfield hfile
    exact (hcopies.respects ss).output hopen hcopies.closesWithBrace List.suffix_rfl

/-- A condition behind nothing, whose match goes on to the next directive. -/
def bareCondition : List Stretch :=
  [⟨"if".toList, " it's ".toList, by decide, by decide⟩,
    ⟨"x".toList, "!".toList, by decide, by decide⟩]

theorem Rule.keeps_of_apply_bareCondition :
    ∃ out, Rule.apply? (conditional .braces "if" (anyCase "if") "if")
        ("so ".toList ++ written bareCondition) = some ("so ".toList ++ out) ∧
      Keeps bareCondition out := by
  have happly : Rule.apply? (conditional .braces "if" (anyCase "if") "if")
      ("so ".toList ++ written bareCondition) =
        some ("so <?tpl if (".toList ++ '}' :: " it's ".toList ++
          '{' :: "x) : ?>!".toList) := by cbv
  obtain ⟨out, hout, -, hkeeps⟩ := Rule.keeps_of_apply
    (by simp only [rules, List.mem_cons, true_or, or_true]) (by decide) happly
  refine ⟨out, hout ▸ happly, hkeeps (by decide) fun s _ => ⟨?_, ?_⟩⟩
  · exact fun hname => absurd hname (by decide)
  · exact fun hname => absurd hname (by decide)

def commented : List Stretch :=
  [⟨"*a".toList, " text ".toList, by decide, by decide⟩, ⟨"b*".toList, [], by decide, by decide⟩]

def fieldBetween : List Stretch :=
  [⟨"a".toList, " $x@index ".toList, by decide, by decide⟩, ⟨"b".toList, [], by decide, by decide⟩]

/-- A text with a quote in it, behind an inclusion of nothing. -/
def quoteBetween : List Stretch :=
  [⟨"include file=".toList, " it's ".toList, by decide, by decide⟩,
    ⟨"x".toList, [], by decide, by decide⟩]

/-- The file that it includes by then. -/
def fileBetween : String := String.ofList ('}' :: " it's ".toList ++ ['{', 'x'])

theorem includeFile_turns_quoteBetween : (includeFile .braces).Turns (written quoteBetween) []
    ("<?tpl include '".toList ++ '}' :: " it\\'s ".toList ++ '{' :: "x'; ?>".toList) := by
  intro before
  refine ⟨⟨some '}', [], 24, [(1, ⟨'}' :: " it's {x}".toList, 9⟩)]⟩, by cbv, rfl, ?_⟩
  have hname : String.ofList (Text.trim (Found.group ⟨⟨written quoteBetween ++ [], 24⟩,
      [(1, ⟨'}' :: " it's {x}".toList, 9⟩)]⟩ 1).toList) = fileBetween := by cbv
  have hquote : quoteWord fileBetween =
      String.ofList ('\'' :: '}' :: " it\\'s ".toList ++ ['{', 'x', '\'']) := by
    rw [quoteWord, show isCode fileBetween = false by cbv]
    decide
  rw [includeFile]
  simp only [hname]
  rw [hquote]
  decide

/-- A comment, a field of a loop and an included file can get at the text between directives. A
comment is meant to take the text inside along. That the field of a loop is replaced outside of
directives as well, and that the file of an include that names none is looked for behind it, are
slips; of these `Rule.Spares` says nothing. -/
theorem not_keeps_of_apply :
    (∃ out, Rule.apply? (comment .braces) (written commented) = some out ∧ ¬Keeps commented out) ∧
    (∃ out, Rule.apply? (loopToken .braces) (written fieldBetween) = some out ∧
      ¬Keeps fieldBetween out) ∧
    ∃ out, Rule.apply? (includeFile .braces) (written quoteBetween) = some out ∧
      ¬Keeps quoteBetween out := by
  refine ⟨⟨[], by cbv, fun h => ?_⟩,
    ⟨"{a} $_foreach_x_index {b}".toList, by cbv, fun h => ?_⟩,
    "<?tpl include '".toList ++ '}' :: " it\\'s ".toList ++ '{' :: "x'; ?>".toList, ?_,
    fun h => ?_⟩
  · have htext : " text ".toList <:+: [] := h.infix _ List.mem_cons_self
    exact absurd htext (by decide)
  · have htext : " $x@index ".toList <:+: "{a} $_foreach_x_index {b}".toList :=
      h.infix _ List.mem_cons_self
    exact absurd htext (by decide)
  · have hturned := ((includeFile .braces).rewrites_nil.turned includeFile_turns_quoteBetween
      (by decide)).apply_eq
    rw [List.append_nil] at hturned
    exact hturned
  · have htext : " it's ".toList <:+:
        "<?tpl include '".toList ++ '}' :: " it\\'s ".toList ++ '{' :: "x'; ?>".toList :=
      h.infix _ List.mem_cons_self
    exact absurd htext (by decide)

end Table

end ViewTemplate.Directive
