import ViewTemplate.Proofs.Directive.Settling
import ViewTemplate.Proofs.Directive.Stretches

namespace ViewTemplate.Directive

open Pattern

/-- A comment may end in front of a text. -/
def EndsComment (cs : List Char) : Prop :=
  ∃ z rest, cs = '*' :: (z ++ '}' :: rest) ∧ ∀ c ∈ z, Text.isBlank c = true

/-- What a comment can say: it has a first character, and behind that no end of a comment. -/
structure IsRemark (c : List Char) : Prop where
  ne_nil : c ≠ []
  ends_late : ∀ u v, c = u ++ v → u ≠ [] → v ≠ [] → ∀ rest, ¬EndsComment (v ++ '*' :: '}' :: rest)

def remark (c : List Char) : List Char := '{' :: '*' :: (c ++ ['*', '}'])

/-- A text with comments in it, each with the text behind it. -/
def withRemarks (t : List Char) (parts : List (List Char × List Char)) : List Char :=
  t ++ parts.flatMap fun p => remark p.1 ++ p.2

variable {c t : List Char} {parts : List (List Char × List Char)}

theorem remark_append (c rest : List Char) :
    remark c ++ rest = '{' :: '*' :: (c ++ '*' :: '}' :: rest) := by simp [remark]

theorem withRemarks_cons (t : List Char) (p : List Char × List Char)
    (parts : List (List Char × List Char)) :
    withRemarks t (p :: parts) = t ++ (remark p.1 ++ withRemarks p.2 parts) := by
  simp [withRemarks]

theorem isRemark_of_no_star (hne : c ≠ []) (hstar : '*' ∉ c) : IsRemark c where
  ne_nil := hne
  ends_late := by
    rintro u v rfl - hv rest ⟨z, r, heq, -⟩
    obtain ⟨d, v, rfl⟩ := List.exists_cons_of_ne_nil hv
    obtain ⟨rfl, -⟩ := List.cons.inj heq
    exact hstar (by simp)

/-- An empty comment, the text behind it and the next comment are one. -/
theorem isRemark_of_empty (ht : '*' ∉ t) (hc : '*' ∉ c) (hbrace : '}' ∉ c) :
    IsRemark ('*' :: '}' :: (t ++ '{' :: '*' :: c)) where
  ne_nil := nofun
  ends_late := by
    rintro u v heq hu hv rest ⟨z, r, hends, hz⟩
    obtain ⟨d, u, rfl⟩ := List.exists_cons_of_ne_nil hu
    obtain ⟨e, v, rfl⟩ := List.exists_cons_of_ne_nil hv
    obtain ⟨rfl, hbehind⟩ := List.cons.inj hends
    have hsplit : ('}' :: (t ++ ['{'])) ++ '*' :: c = u ++ '*' :: v := by
      simpa using (List.cons.inj heq).2
    have hfirst : '*' ∉ '}' :: (t ++ ['{']) := by simp [ht]
    -- The only star behind the first opens the next comment, whose text has no brace.
    obtain ⟨x, rfl, hx⟩ := exists_of_append_cons hfirst hsplit
    cases x with
    | nil =>
      obtain ⟨-, rfl⟩ := List.cons.inj hx
      have hstar : '*' ∉ z := fun hmem => absurd (hz '*' hmem) (by decide)
      obtain ⟨y, rfl, hy⟩ := exists_of_append_cons hstar hbehind.symm
      cases y with
      | nil => exact absurd (List.cons.inj hy).1 (by decide)
      | cons f y =>
        have hf : f = '}' := (List.cons.inj hy).1.symm
        exact hbrace (by simp [hf])
    | cons e x =>
      obtain ⟨rfl, rfl⟩ := List.cons.inj hx
      exact hc (by simp)

theorem comment_turns (hc : IsRemark c) (rest : List Char) :
    (comment .braces).Turns (remark c) rest [] := by
  intro before
  let m : Cursor := ⟨before, '{' :: '*' :: (c ++ '*' :: '}' :: rest), 0, []⟩
  let k := (m.after ['{'] ('*' :: (c ++ '*' :: '}' :: rest))).after ['*'] (c ++ '*' :: '}' :: rest)
  let n := (k.after c ('*' :: '}' :: rest)).keep 1 k
  rw [remark_append]
  refine ⟨(n.after ['*'] ('}' :: rest)).after ['}'] rest, ?_, rfl, rfl⟩
  refine (run_around (m := m) (c := '*') rfl rfl).trans ?_
  simp only [run_seq]
  refine (run_exact (w := ['*']) rfl rfl).trans ?_
  show (few1 (char fun _ => true)).run
    (fun n => (exact "*").run (Delimiters.braces.closing.run some) (n.keep 1 k)) k = _
  refine run_few1 rfl hc.ne_nil (fun _ _ => rfl)
    (fun u v huv hu hv => run_eq_none fun n hn => ?_) ?_
  · -- A shorter comment would end inside.
    have hstar := takes_exact hn
    refine run_eq_none fun n' hn' => absurd ?_ (hc.ends_late u v huv hu hv rest)
    obtain ⟨z, hz, hpast⟩ := takes_closing hn'
    refine ⟨z, n'.rest, ?_, hz⟩
    have hrest := hstar.1
    rw [hpast.1] at hrest
    simpa using hrest
  · exact (run_exact (w := ['*']) rfl rfl).trans (run_closing rfl)

theorem comment_opens : (comment .braces).OpensWithBrace := Rule.opensWithBrace_of_around rfl

theorem comment_rewrites (ht : '{' ∉ t) (hparts : ∀ p ∈ parts, IsRemark p.1 ∧ '{' ∉ p.2) :
    (comment .braces).Rewrites (withRemarks t parts) (t ++ parts.flatMap Prod.snd)
      (!parts.isEmpty) := by
  induction parts generalizing t with
  | nil =>
    exact comment_opens.rewrites (Rule.rewrites_nil _) fun c hc => ne_of_mem_of_not_mem hc ht
  | cons p parts ih =>
    obtain ⟨⟨hbody, htext⟩, hrest⟩ := List.forall_mem_cons.mp hparts
    have hturned := (ih htext hrest).turned (comment_turns hbody _) (by simp [remark])
    rw [withRemarks_cons]
    exact comment_opens.rewrites hturned fun c hc => ne_of_mem_of_not_mem hc ht

/-- Comments that say something vanish, and nothing else does. -/
theorem exhaust?_withRemarks (ht : '{' ∉ t) (hparts : ∀ p ∈ parts, IsRemark p.1 ∧ '{' ∉ p.2)
    (passes : Nat) :
    (comment .braces).exhaust? (passes + 2) (withRemarks t parts) =
      some (t ++ parts.flatMap Prod.snd) := by
  have hno : '{' ∉ t ++ parts.flatMap Prod.snd := by
    intro hmem
    rcases List.mem_append.mp hmem with hmem | hmem
    · exact ht hmem
    · obtain ⟨p, hp, hmem⟩ := List.mem_flatMap.mp hmem
      exact (hparts p hp).2 hmem
  refine Rule.exhaust?_of_rewrites (comment_rewrites ht hparts) ?_ (fun hnone => ?_) passes
  · have hnil := comment_opens.rewrites (Rule.rewrites_nil (comment .braces))
      (w := t ++ parts.flatMap Prod.snd) fun c hc => ne_of_mem_of_not_mem hc hno
    simpa using hnil
  · cases parts with
    | nil => rfl
    | cons => cases hnone

/-- Comments vanish and take nothing else with them, if no comment is empty. -/
theorem comments_vanish (ht : '{' ∉ t)
    (hparts : ∀ p ∈ parts, p.1 ≠ [] ∧ '*' ∉ p.1 ∧ '{' ∉ p.2) :
    (comment .braces).exhaust? maxPasses (withRemarks t parts) =
      some (t ++ parts.flatMap Prod.snd) := by
  refine exhaust?_withRemarks ht (fun p hp => ?_) 254
  obtain ⟨hne, hstar, hbrace⟩ := hparts p hp
  exact ⟨isRemark_of_no_star hne hstar, hbrace⟩

theorem comments_vanish_between_braces :
    ('{' ∉ ['a', '}'] ∧ ∀ p ∈ [([' '], ['\n', '*']), (['}', '\n'], [])],
      p.1 ≠ [] ∧ '*' ∉ p.1 ∧ '{' ∉ p.2) ∧
    (comment .braces).exhaust? maxPasses
      (withRemarks ['a', '}'] [([' '], ['\n', '*']), (['}', '\n'], [])]) =
        some ['a', '}', '\n', '*'] :=
  ⟨by decide, comments_vanish (by decide) (by decide)⟩

/-- With an empty comment the text up to the end of the next one is lost. -/
theorem exhaust?_empty_comment {t' t'' : List Char} (ht : '{' ∉ t) (ht' : '*' ∉ t')
    (hc : '*' ∉ c) (hbrace : '}' ∉ c) (ht'' : '{' ∉ t'') (passes : Nat) :
    (comment .braces).exhaust? (passes + 2) (withRemarks t [([], t'), (c, t'')]) =
      some (t ++ t'') := by
  have hone : withRemarks t [([], t'), (c, t'')] =
      withRemarks t [('*' :: '}' :: (t' ++ '{' :: '*' :: c), t'')] := by simp [withRemarks, remark]
  have hremark := isRemark_of_empty ht' hc hbrace
  have hparts : ∀ p ∈ [(_, t'')], IsRemark p.1 ∧ '{' ∉ p.2 :=
    List.forall_mem_singleton.mpr ⟨hremark, ht''⟩
  have hvanish := exhaust?_withRemarks ht hparts passes
  rw [hone, hvanish]
  simp

theorem not_comments_vanish :
    ¬∀ (t : List Char) (parts : List (List Char × List Char)), '{' ∉ t →
      (∀ p ∈ parts, '*' ∉ p.1 ∧ '{' ∉ p.1 ∧ '{' ∉ p.2) →
      (comment .braces).exhaust? maxPasses (withRemarks t parts) =
        some (t ++ parts.flatMap Prod.snd) := by
  intro h
  have hkept := h ['a'] [([], ['b']), (['c'], ['d'])] (by decide) (by decide)
  have hlost : (comment .braces).exhaust? maxPasses
      (withRemarks ['a'] [([], ['b']), (['c'], ['d'])]) = some (['a'] ++ ['d']) :=
    exhaust?_empty_comment (by decide) (by decide) (by decide) (by decide) (by decide) 254
  exact absurd (hlost.symm.trans hkept) (by decide)

end ViewTemplate.Directive
