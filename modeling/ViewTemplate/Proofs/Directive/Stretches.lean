import ViewTemplate.Proofs.Directive.Rewriting

namespace ViewTemplate.Directive

def Braceless (cs : List Char) : Prop := ∀ c ∈ cs, c ≠ '{' ∧ c ≠ '}'

instance (cs : List Char) : Decidable (Braceless cs) :=
  decidable_of_iff (cs.all (fun c => c != '{' && c != '}') = true) (by simp [Braceless])

/-- A directive, and the text up to the next one. -/
structure Stretch where
  content : List Char
  text : List Char
  content_braceless : Braceless content
  text_braceless : Braceless text

def Stretch.shown (s : Stretch) : List Char := braced s.content ++ s.text

def written (ss : List Stretch) : List Char := ss.flatMap Stretch.shown

/-- From the first of some directives to the brace of the last. -/
def upTo (before : List Stretch) (last : Stretch) : List Char :=
  written before ++ braced last.content

/-- The texts stand in another, one behind the other. -/
inductive Carries : List (List Char) → List Char → Prop
  | nil (cs : List Char) : Carries [] cs
  | cons {ts : List (List Char)} {cs : List Char} (e t : List Char) (h : Carries ts cs) :
    Carries (t :: ts) (e ++ (t ++ cs))

/-- Something stands in place of each directive, and the text behind it as it was. -/
inductive Keeps : List Stretch → List Char → Prop
  | nil : Keeps [] []
  | cons {ss : List Stretch} {out : List Char} (s : Stretch) (e : List Char) (h : Keeps ss out) :
    Keeps (s :: ss) (e ++ (s.text ++ out))

/-- A comment may begin with the directive. -/
def Stretch.OpensComment (s : Stretch) : Prop :=
  ∃ w v, s.content = w ++ '*' :: v ∧ ∀ c ∈ w, Text.isBlank c = true

/-- A comment may end with the directive. -/
def Stretch.ClosesComment (s : Stretch) : Prop :=
  ∃ v w, s.content = v ++ '*' :: w ∧ ∀ c ∈ w, Text.isBlank c = true

/-- Comments are left out, each from the directive that begins it to the one that ends it; the rest
stays. -/
inductive Drops : List Stretch → List Char → Prop
  | nil : Drops [] []
  | kept {ss : List Stretch} {out : List Char} (s : Stretch) (h : Drops ss out) :
    Drops (s :: ss) (s.shown ++ out)
  | dropped {before ss : List Stretch} {last : Stretch} {out : List Char}
    (hopen : ∀ first ∈ (before ++ [last]).head?, first.OpensComment) (hclose : last.ClosesComment)
    (h : Drops ss out) : Drops (before ++ last :: ss) (last.text ++ out)

section Texts

variable {s last : Stretch} {before ss : List Stretch} {cs ds u v w x r out : List Char}
  {ts : List (List Char)}

theorem Braceless.no_left (h : Braceless cs) : '{' ∉ cs := fun hmem => (h '{' hmem).1 rfl

theorem Braceless.no_right (h : Braceless cs) : '}' ∉ cs := fun hmem => (h '}' hmem).2 rfl

@[simp] theorem written_nil : written [] = [] := rfl

theorem written_cons (s : Stretch) (ss : List Stretch) :
    written (s :: ss) = '{' :: (s.content ++ '}' :: (s.text ++ written ss)) := by
  simp [written, Stretch.shown, braced]

theorem written_append (ss ss' : List Stretch) : written (ss ++ ss') = written ss ++ written ss' :=
  List.flatMap_append

theorem upTo_nil (last : Stretch) : upTo [] last = braced last.content := rfl

theorem upTo_cons (s : Stretch) (before : List Stretch) (last : Stretch) :
    upTo (s :: before) last = '{' :: (s.content ++ '}' :: (s.text ++ upTo before last)) := by
  rw [upTo, written_cons]
  simp [upTo]

theorem written_upTo (before : List Stretch) (last : Stretch) (ss : List Stretch) :
    written (before ++ last :: ss) = upTo before last ++ (last.text ++ written ss) := by
  rw [written_append, written_cons]
  simp [upTo, braced]

theorem upTo_eq_cons (before : List Stretch) (last : Stretch) :
    ∃ cs, upTo before last = '{' :: cs := by
  cases before with
  | nil => exact ⟨_, rfl⟩
  | cons s before => exact ⟨_, upTo_cons s before last⟩

theorem exists_of_append_cons {c : Char} (hu : c ∉ u) (h : u ++ w = v ++ c :: r) :
    ∃ x, v = u ++ x ∧ w = x ++ c :: r :=
  Pattern.exists_suffix_of_class (q := (· ≠ c)) h.symm (fun _ hd => ne_of_mem_of_not_mem hd hu)
    (not_not.mpr rfl)

theorem append_cons_inj {c : Char} (hu : c ∉ u) (hv : c ∉ v) (h : u ++ c :: cs = v ++ c :: ds) :
    u = v ∧ cs = ds := by
  obtain ⟨x, rfl, hx⟩ := exists_of_append_cons hu h
  cases x with
  | nil => exact ⟨by simp, (List.cons.inj hx).2⟩
  | cons d x =>
    obtain ⟨rfl, -⟩ := List.cons.inj hx
    exact absurd (by simp) hv

theorem exists_of_cons_append {c : Char} (hw : c ∉ w) (h : u ++ w = v ++ c :: r) :
    ∃ x, u = v ++ c :: x := by
  obtain ⟨x, rfl, hx⟩ | ⟨x, rfl, hx⟩ := List.append_eq_append_iff.mp h
  · exact absurd (by simp [hx]) hw
  · cases x with
    | nil => exact absurd (by simp [← show c :: r = w from hx]) hw
    | cons d x =>
      obtain ⟨rfl, -⟩ := List.cons.inj hx
      exact ⟨x, rfl⟩

/-- A right brace is that of a directive. -/
theorem exists_upTo (h : written ss = w ++ '}' :: r) :
    ∃ before last rest, ss = before ++ last :: rest ∧ w ++ ['}'] = upTo before last ∧
      r = last.text ++ written rest := by
  induction ss generalizing w with
  | nil => simp at h
  | cons s ss ih =>
    rw [written_cons] at h
    have hopen : '}' ∉ '{' :: s.content :=
      List.not_mem_cons_of_ne_of_not_mem (by decide) s.content_braceless.no_right
    obtain ⟨x, rfl, hx⟩ := exists_of_append_cons hopen h
    cases x with
    | nil =>
      obtain ⟨-, rfl⟩ := List.cons.inj hx
      exact ⟨[], s, ss, rfl, by simp [upTo_nil, braced], rfl⟩
    | cons c x =>
      obtain ⟨rfl, htext⟩ := List.cons.inj hx
      obtain ⟨y, rfl, hy⟩ := exists_of_append_cons s.text_braceless.no_right htext
      obtain ⟨before, last, rest, rfl, hw, rfl⟩ := ih hy
      refine ⟨s :: before, last, rest, rfl, ?_, rfl⟩
      rw [upTo_cons, ← hw]
      simp

theorem Carries.prepend (h : Carries ts cs) (e : List Char) : Carries ts (e ++ cs) := by
  cases h with
  | nil => exact .nil _
  | cons e' t h =>
    rw [← List.append_assoc]
    exact .cons _ _ h

theorem Carries.append (h : Carries ts cs) (e : List Char) : Carries ts (cs ++ e) := by
  induction h with
  | nil => exact .nil _
  | cons e' t h ih =>
    rw [List.append_assoc, List.append_assoc]
    exact .cons e' t ih

theorem carries_written (before : List Stretch) (cs : List Char) :
    Carries (before.map Stretch.text) (written before ++ cs) := by
  induction before with
  | nil => exact .nil _
  | cons s before ih =>
    have heq : written (s :: before) ++ cs =
        braced s.content ++ (s.text ++ (written before ++ cs)) := by
      simp [written, Stretch.shown]
    rw [heq]
    exact .cons _ _ ih

/-- What carries the text between the directives of a match can stand in its place. -/
theorem Keeps.matched {e : List Char} (he : Carries (before.map Stretch.text) e)
    (h : Keeps ss out) : Keeps (before ++ last :: ss) (e ++ (last.text ++ out)) := by
  induction before generalizing e with
  | nil => exact .cons last e h
  | cons s before ih =>
    cases he with
    | cons e' t he =>
      rw [List.append_assoc, List.append_assoc]
      exact .cons s e' (ih he)

theorem Keeps.infix (h : Keeps ss out) : ∀ s ∈ ss, s.text <:+: out := by
  induction h with
  | nil => nofun
  | cons s e h ih =>
    refine List.forall_mem_cons.mpr ⟨List.infix_append' .., fun s' hs' => ?_⟩
    exact (ih s' hs').trans ⟨e ++ s.text, [], by simp⟩

theorem exists_content_of_head (hu : '}' ∉ u) (h : upTo before last = '{' :: (u ++ w)) :
    ∀ first ∈ (before ++ [last]).head?, ∃ v, first.content = u ++ v := by
  cases before with
  | nil =>
    rintro _ ⟨⟩
    obtain ⟨v, hv, -⟩ := exists_of_append_cons hu (List.cons.inj h).2.symm
    exact ⟨v, hv⟩
  | cons s before =>
    rintro _ ⟨⟩
    rw [upTo_cons] at h
    obtain ⟨v, hv, -⟩ := exists_of_append_cons hu (List.cons.inj h).2.symm
    exact ⟨v, hv⟩

theorem exists_content_of_last (hx : '{' ∉ x) (h : upTo before last = w ++ (x ++ ['}'])) :
    ∃ v, last.content = v ++ x ∧ w = written before ++ '{' :: v := by
  -- Its brace is the first one that a reader finds who reads backwards.
  have hsplit : x.reverse ++ w.reverse =
      last.content.reverse ++ '{' :: (written before).reverse := by
    simpa [upTo, braced] using (congrArg List.reverse h).symm
  obtain ⟨y, hy, hw⟩ := exists_of_append_cons (by simpa using hx) hsplit
  refine ⟨y.reverse, ?_, ?_⟩
  · simpa using congrArg List.reverse hy
  · simpa using congrArg List.reverse hw

/-- Inside a match, what has no right brace in front of it and no left brace behind it carries all
text between the directives. -/
theorem carries_of_upTo (hu : '}' ∉ u) (hx : '{' ∉ x)
    (h : upTo before last = '{' :: (u ++ (v ++ (x ++ ['}'])))) :
    Carries (before.map Stretch.text) v := by
  obtain ⟨z, -, hz⟩ := exists_content_of_last (w := '{' :: (u ++ v)) hx (by rw [h]; simp)
  cases before with
  | nil => exact .nil _
  | cons s before =>
    rw [written_cons, List.cons_append, List.append_assoc] at hz
    obtain ⟨y, -, hy⟩ := exists_of_append_cons hu (List.cons.inj hz).2
    have hv : v = (y ++ ['}']) ++ (s.text ++ (written before ++ '{' :: z)) := by
      rw [hy]
      simp
    rw [hv]
    exact .cons _ _ (carries_written before _)

/-- A match with one right brace inside ends with the second of its directives. -/
theorem eq_singleton_of_upTo {t : List Char} (ht : '}' ∉ t) (hw : '}' ∉ w) (hx : Braceless x)
    (h : upTo before last = '{' :: t ++ '}' :: (w ++ (x ++ ['}']))) :
    ∃ s v, before = [s] ∧ s.content = t ∧ w = s.text ++ '{' :: v := by
  cases before with
  | nil =>
    have hend := (append_cons_inj last.content_braceless.no_right ht (List.cons.inj h).2).2
    simp at hend
  | cons s before =>
    rw [upTo_cons] at h
    obtain ⟨hcontent, hbehind⟩ :=
      append_cons_inj s.content_braceless.no_right ht (List.cons.inj h).2
    cases before with
    | nil =>
      have hclose : '{' ∉ x ++ ['}'] := by simp [hx.no_left]
      obtain ⟨v, hv⟩ := exists_of_cons_append hclose hbehind.symm
      exact ⟨s, v, rfl, hcontent, hv⟩
    | cons s' before =>
      obtain ⟨next, hnext⟩ := upTo_eq_cons before last
      have hfirst : '}' ∉ s.text ++ '{' :: s'.content := by
        simp [s.text_braceless.no_right, s'.content_braceless.no_right]
      have hinner : '}' ∉ w ++ x := by simp [hw, hx.no_right]
      rw [upTo_cons, hnext] at hbehind
      have hend := (append_cons_inj hfirst hinner (by simpa using hbehind)).2
      simp at hend

theorem carries_or_infix {a k b : List Char} (hk : Braceless k)
    (h : upTo before last = a ++ (k ++ b)) (e : List Char) :
    Carries (before.map Stretch.text) (a ++ (e ++ b)) ∨
      ∃ s ∈ before, ∃ a' b' p q, s.text = a' ++ (k ++ b') ∧ a = p ++ '}' :: a' ∧
        b = b' ++ '{' :: q := by
  induction before generalizing a with
  | nil => exact .inl (.nil _)
  | cons s before ih =>
    -- A place that ends in front of the first right brace lies in the first directive.
    have hfirst : ∀ d, k ++ b = d ++ '}' :: (s.text ++ upTo before last) →
        Carries (s.text :: before.map Stretch.text) (a ++ (e ++ b)) := by
      intro d hd
      obtain ⟨x, -, rfl⟩ := exists_of_append_cons hk.no_right hd
      have heq : a ++ (e ++ (x ++ '}' :: (s.text ++ upTo before last))) =
          (a ++ e ++ x ++ ['}']) ++ (s.text ++ (written before ++ braced last.content)) := by
        simp [upTo]
      rw [heq]
      exact .cons _ _ (carries_written before _)
    rw [upTo_cons, ← List.cons_append] at h
    rcases List.append_eq_append_iff.mp h with ⟨a', ha, h'⟩ | ⟨d, -, hd⟩
    · cases a' with
      | nil => exact .inl (hfirst [] h'.symm)
      | cons c a' =>
        obtain ⟨rfl, hbehind⟩ := List.cons.inj h'
        have ha : a = '{' :: s.content ++ ['}'] ++ a' := by rw [ha]; simp
        rcases List.append_eq_append_iff.mp hbehind with ⟨a'', rfl, h''⟩ | ⟨d, hd, h''⟩
        · -- Behind the text of the first directive.
          rcases ih h'' with hc | ⟨s', hs', a', b', p, q, htext, rfl, hb⟩
          · refine .inl ?_
            rw [ha, List.append_assoc, List.append_assoc s.text]
            exact .cons _ _ hc
          · exact .inr ⟨s', List.mem_cons_of_mem _ hs', a', b',
              '{' :: s.content ++ ['}'] ++ (s.text ++ p), q, htext, by rw [ha]; simp, hb⟩
        · -- From inside that text on, and so up to its end at most.
          obtain ⟨next, hnext⟩ := upTo_eq_cons before last
          rw [hnext] at h''
          obtain ⟨b', rfl, hb⟩ := exists_of_append_cons hk.no_left h''
          exact .inr ⟨s, List.mem_cons_self, a', b', '{' :: s.content, next, hd,
            by rw [ha]; simp, hb⟩
    · exact .inl (hfirst d hd)

end Texts

end ViewTemplate.Directive
