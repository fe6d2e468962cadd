import ViewTemplate.Proofs.Directive.Touching
import ViewTemplate.Proofs.Directive.Translation

namespace ViewTemplate

namespace Text

theorem isBlank_of_isWordPart {c : Char} (h : isWordPart c = true) : isBlank c = false := by
  rw [Bool.eq_false_iff]
  intro hblank
  have hcode : c.toNat ∈ [32, 9, 10, 11, 12, 13, 0x85, 0xa0, 0x1680, 0x2000, 0x2001, 0x2002, 0x2003,
      0x2004, 0x2005, 0x2006, 0x2007, 0x2008, 0x2009, 0x200a, 0x2028, 0x2029, 0x202f, 0x205f,
      0x3000] := by
    have hspace : c = ' ' ↔ c.toNat = 32 := Char.toNat_inj.symm
    simp only [isBlank, Bool.or_eq_true, Bool.and_eq_true, decide_eq_true_eq, hspace] at hblank
    simp only [List.mem_cons, List.not_mem_nil, or_false]
    omega
  have hnone : ∀ n ∈ [32, 9, 10, 11, 12, 13, 0x85, 0xa0, 0x1680, 0x2000, 0x2001, 0x2002, 0x2003,
      0x2004, 0x2005, 0x2006, 0x2007, 0x2008, 0x2009, 0x200a, 0x2028, 0x2029, 0x202f, 0x205f,
      0x3000], isWordPart (Char.ofNat n) = false := by decide +kernel
  have hc := hnone _ hcode
  rw [Char.ofNat_toNat, h] at hc
  cases hc

theorem ne_of_isWordPart {c d : Char} (h : isWordPart c = true) (hd : isWordPart d = false) :
    c ≠ d := by
  rintro rfl
  rw [h] at hd
  cases hd

theorem foldRuns_above_signs : ∀ run ∈ foldRuns, 0x40 < (run.first : Int) + run.shift := by
  decide +kernel

/-- Only a sign in front of the letters folds to it. -/
theorem eq_of_foldChar_sign {c d : Char} (hlow : 0 < d.toNat) (hhigh : d.toNat ≤ 0x40)
    (h : foldChar c = d) : c = d := by
  unfold foldChar at h
  split at h
  · have hascii : ∀ n < 0x80, (Char.ofNat n).toLower.toNat ≤ 0x40 →
        (Char.ofNat n).toLower = Char.ofNat n := by decide +kernel
    have hc := hascii c.toNat ‹_›
    rw [Char.ofNat_toNat, h] at hc
    exact (hc hhigh).symm
  · unfold mapChar at h
    split at h
    · rename_i n hn
      obtain ⟨run, hmem, hfirst, hlast, hk⟩ := find?_image hn
      have habove := foldRuns_above_signs run hmem
      have hn' := toNat_ofNat_le n
      rw [h] at hn'
      omega
    · exact h

end Text

namespace Pattern

variable {a b : Pattern} {R S : List Char → Prop} {p : Char → Bool}

/-- Every match of the pattern goes over such a text. -/
def Passes (a : Pattern) (R : List Char → Prop) : Prop :=
  ∀ m n : Cursor, a.Takes m n → ∃ w, m.rest = w ++ n.rest ∧ R w

theorem passes_exact (s : String) : (exact s).Passes (· = s.toList) :=
  fun _ _ h => ⟨_, (takes_exact h).1, rfl⟩

theorem passes_anyCase (s : String) :
    (anyCase s).Passes fun w => w.map Text.foldChar = s.toList.map Text.foldChar := by
  intro m n h
  obtain ⟨w, hw, hpast⟩ := takes_anyCase h
  exact ⟨w, hpast.1, hw⟩

theorem passes_many (p : Char → Bool) : (many (char p)).Passes fun w => ∀ c ∈ w, p c = true := by
  intro m n h
  obtain ⟨w, hw, hpast⟩ := takes_many h
  exact ⟨w, hpast.1, hw⟩

theorem passes_few1 (p : Char → Bool) : (few1 (char p)).Passes (· ≠ []) := by
  intro m n h
  obtain ⟨w, hne, -, hpast⟩ := takes_few1 h
  exact ⟨w, hpast.1, hne⟩

theorem Passes.group (h : a.Passes R) (number : Nat) : (group number a).Passes R := by
  rintro m n ⟨k, hk, rfl⟩
  obtain ⟨w, hw, hR⟩ := h m k hk
  exact ⟨w, hw, hR⟩

theorem Passes.seq (ha : a.Passes R) (hb : b.Passes S) :
    (a ++ b).Passes fun w => ∃ u v, w = u ++ v ∧ R u ∧ S v := by
  rintro m n ⟨k, hk, hn⟩
  obtain ⟨u, hu, hR⟩ := ha m k hk
  obtain ⟨v, hv, hS⟩ := hb k n hn
  exact ⟨u ++ v, by rw [hu, hv, List.append_assoc], u, v, rfl, hR, hS⟩

theorem Passes.mono (h : a.Passes R) (hRS : ∀ w, R w → S w) : a.Passes S := by
  intro m n hn
  obtain ⟨w, hw, hR⟩ := h m n hn
  exact ⟨w, hw, hRS w hR⟩

theorem Passes.front (h : a.Passes R) (b : Pattern) :
    (a ++ b).Passes fun w => ∃ u v, w = u ++ v ∧ R u := by
  rintro m n ⟨k, hk, hn⟩
  obtain ⟨u, hu, hR⟩ := h m k hk
  obtain ⟨v, _, hv, -⟩ := covers_of_takes hn
  exact ⟨u ++ v, by rw [hu, hv.rest, List.append_assoc], u, v, rfl, hR⟩

theorem Passes.extend (h : a.Passes R) (hR : ∀ u v, R u → R (u ++ v)) (b : Pattern) :
    (a ++ b).Passes R := by
  refine (h.front b).mono fun w hw => ?_
  obtain ⟨u, v, rfl, hu⟩ := hw
  exact hR u v hu

end Pattern

namespace Directive

open Pattern

def IsAnyCase (s : String) (w : List Char) : Prop :=
  w.map Text.foldChar = s.toList.map Text.foldChar

instance (s : String) (w : List Char) : Decidable (IsAnyCase s w) :=
  inferInstanceAs (Decidable (w.map Text.foldChar = s.toList.map Text.foldChar))

/-- The two words of a condition behind another. -/
def IsElseIf (w : List Char) : Prop :=
  ∃ u z v, w = u ++ (z ++ v) ∧ IsAnyCase "else" u ∧ (∀ c ∈ z, Text.isBlank c = true) ∧
    IsAnyCase "if" v

/-- A keyword with a sign somewhere behind it. -/
def KeywordWith (s : String) (c : Char) (w : List Char) : Prop :=
  ∃ u v, w = u ++ v ∧ IsAnyCase s u ∧ c ∈ v

theorem KeywordWith.append {s : String} {c : Char} {w : List Char} (h : KeywordWith s c w)
    (x : List Char) : KeywordWith s c (w ++ x) := by
  obtain ⟨u, v, rfl, hu, hv⟩ := h
  exact ⟨u, v ++ x, by simp, hu, by simp [hv]⟩

/-- A directive that begins with a name. -/
structure Named (content : List Char) : Prop where
  head : ∃ c l, content = c :: l ∧ Text.isWordPart c = true
  no_left : '{' ∉ content
  no_right : '}' ∉ content

/-- Nothing in a directive is what a rule looks for in all of them: there is no variable with a dot
and a key behind it, no field of a loop and no choice. -/
structure Unmarked (content : List Char) : Prop where
  path : ∀ u v c w, content = u ++ '$' :: (v ++ '.' :: c :: w) → v ≠ [] →
    (∀ d ∈ v, (Text.isWordPart d || "\"'[]".toList.contains d) = true) → Text.isWordPart c = false
  field : ∀ k, IsField k → ¬k <:+: content
  choice : ∀ u v, content = u ++ '?' :: v →
    (∀ c ∈ u, (Text.isWordPart c || "$.[]='\"".toList.contains c) = true ∨ Text.isBlank c = true) →
    ':' ∉ v

theorem Unmarked.of_not_mem {content : List Char} (hdollar : '$' ∉ content)
    (hmark : '?' ∉ content) :
    Unmarked content where
  path u v c w h _ _ := absurd (by simp [h]) hdollar
  field k hk hpart := by
    obtain ⟨name, field, rfl, -⟩ := hk
    exact absurd (hpart.mem (by simp)) hdollar
  choice u v h _ := absurd (by simp [h]) hmark

/-- A directive that begins with a name and has nothing in it that a rule looks for, a loop and a
file included. -/
structure Plain (content : List Char) : Prop extends Named content, Unmarked content where
  each : ¬KeywordWith "foreach" '$' content
  file : ¬KeywordWith "include" '=' content

/-- Nor is there a keyword, with a condition behind it or alone. -/
structure Unruled (content : List Char) : Prop extends Plain content where
  condition : ∀ u v, content = u ++ v → IsAnyCase "while" u ∨ IsAnyCase "if" u ∨ IsElseIf u → v = []
  word : ∀ u v, content = u ++ v → (∀ c ∈ v, Text.isBlank c = true) →
    ∀ s ∈ ["else", "break", "continue"], ¬IsAnyCase s u

/-- The rules whose directives may be a word. -/
def keywordRules : List String := ["while", "if", "else-if", "else", "break", "continue"]

section Leaves

variable {r : Rule} {p : Pattern} {c : Char} {cs w : List Char} {m : Cursor}
  {before : Option Char} {R : List Char → Prop}

theorem takes_content (hr : r.pattern = Delimiters.braces.around p)
    (hrun : r.pattern.run some ⟨before, '{' :: c :: cs, 0, []⟩ = some m)
    (hc : Text.isBlank c = false) :
    ∃ k l x, p.Takes k l ∧ k.rest = c :: cs ∧ l.rest = x ++ '}' :: m.rest ∧
      ∀ d ∈ x, Text.isBlank d = true := by
  rw [hr] at hrun
  obtain ⟨n, hn, hm⟩ := takes_of_run hrun
  cases hm
  obtain ⟨z, x, k, l, hz, hx, hopen, htakes, hclose⟩ := takes_around hn
  refine ⟨k, l, x, htakes, ?_, by simpa using hclose.rest, hx⟩
  -- No blanks stand between the brace and the content.
  have hrest : c :: cs = z ++ k.rest := (List.cons.inj hopen.rest).2
  cases z with
  | nil => exact hrest.symm
  | cons d z =>
    obtain ⟨rfl, -⟩ := List.cons.inj hrest
    rw [hz c List.mem_cons_self] at hc
    cases hc

theorem eq_of_append_right (hw : '}' ∉ w) {u v : List Char} (h : w ++ ['}'] = u ++ '}' :: v) :
    w = u := by
  obtain ⟨x, rfl, hx⟩ := exists_of_append_cons hw h
  cases x with
  | nil => simp
  | cons d x =>
    have hnil := (List.cons.inj hx).2
    simp at hnil

/-- A rule leaves a directive that none of its matches goes over. -/
theorem leaves_of_passes (hr : r.pattern = Delimiters.braces.around p) (hp : p.Passes R)
    (hw : Named w) (h : ∀ u x, w = u ++ x → (∀ d ∈ x, Text.isBlank d = true) → ¬R u) :
    r.Leaves (braced w) := by
  intro before
  refine Option.eq_none_iff_forall_ne_some.mpr fun m hrun => ?_
  have hright := hw.no_right
  obtain ⟨c, cs, rfl, hc⟩ := hw.head
  obtain ⟨k, l, x, htakes, hrest, hl, hx⟩ :=
    takes_content hr hrun (Text.isBlank_of_isWordPart hc)
  obtain ⟨u, hu, hR⟩ := hp k l htakes
  rw [hrest, hl, ← List.append_assoc] at hu
  exact h u x (eq_of_append_right hright hu) hx hR

/-- A text begins with what is no part of a word. -/
def BeginsOther (w : List Char) : Prop := ∃ c l, w = c :: l ∧ Text.isWordPart c = false

theorem beginsOther_exact {s : String} (hs : s.toList = c :: cs) (hc : Text.isWordPart c = false) :
    (exact s).Passes BeginsOther :=
  (passes_exact s).mono fun _ hw => ⟨c, cs, hw.trans hs, hc⟩

theorem beginsOther_slash {s : String} (hs : s.toList = '/' :: cs) :
    (anyCase s).Passes BeginsOther := by
  refine (passes_anyCase s).mono fun w hw => ?_
  rw [hs] at hw
  obtain ⟨c, l, rfl, hc, -⟩ := List.map_eq_cons_iff.mp hw
  cases Text.eq_of_foldChar_sign (by decide) (by decide) hc
  exact ⟨'/', l, rfl, rfl⟩

theorem BeginsOther.append {u : List Char} (h : BeginsOther u) (v : List Char) :
    BeginsOther (u ++ v) := by
  obtain ⟨c, l, rfl, hc⟩ := h
  exact ⟨c, l ++ v, rfl, hc⟩

theorem beginsOther_front {a : Pattern} (h : a.Passes BeginsOther) (b : Pattern) :
    (a ++ b).Passes BeginsOther := h.extend (fun _ v hu => hu.append v) b

theorem leaves_of_beginsOther (hr : r.pattern = Delimiters.braces.around p)
    (hp : p.Passes BeginsOther) (hw : Named w) : r.Leaves (braced w) := by
  refine leaves_of_passes hr hp hw fun u x hux _ hR => ?_
  obtain ⟨c, cs, hc, hpart⟩ := hw.head
  obtain ⟨d, l, rfl, hd⟩ := hR
  obtain ⟨rfl, -⟩ := List.cons.inj (hc.symm.trans hux)
  rw [hd] at hpart
  cases hpart

theorem beginsOther_access (others : String) : (access others).Passes BeginsOther :=
  beginsOther_front (beginsOther_exact rfl rfl) _

theorem conditional_leaves {P : List Char → Prop} {keyword : Pattern} (name statement : String)
    (hkeyword : keyword.Passes P) (hw : Named w) (h : ∀ u v, w = u ++ v → P u → v = []) :
    (conditional .braces name keyword statement).Leaves (braced w) := by
  have hp := (hkeyword.seq (passes_many Text.isBlank)).seq ((passes_few1 fun c => c ≠ '\n').group 1)
  refine leaves_of_passes rfl hp hw fun u x hux _ hR => ?_
  obtain ⟨_, v, rfl, ⟨k, z, rfl, hk, -⟩, hv⟩ := hR
  have hnil := h k (z ++ v ++ x) (by simp [hux]) hk
  simp [hv] at hnil

theorem fixed_leaves {s : String} (name statements : String) (hw : Named w)
    (h : ∀ u v, w = u ++ v → (∀ c ∈ v, Text.isBlank c = true) → ¬IsAnyCase s u) :
    (fixed .braces name (anyCase s) statements).Leaves (braced w) :=
  leaves_of_passes rfl (passes_anyCase s) hw fun u x hux hx hR => h u x hux hx hR

theorem passes_elseIf : (anyCase "else" ++ many blank ++ anyCase "if").Passes IsElseIf := by
  refine (((passes_anyCase "else").seq (passes_many Text.isBlank)).seq
    (passes_anyCase "if")).mono fun w hw => ?_
  obtain ⟨_, v, rfl, ⟨u, z, rfl, hu, hz⟩, hv⟩ := hw
  exact ⟨u, z, v, by simp, hu, hz, hv⟩

theorem passes_foreach : (anyCase "foreach" ++ many blank ++ group 1 subject).Passes
    (KeywordWith "foreach" '$') := by
  have hdollar : subject.Passes ('$' ∈ ·) := by
    refine ((passes_exact "$").front _).mono fun w hw => ?_
    obtain ⟨u, v, rfl, rfl⟩ := hw
    simp
  refine (((passes_anyCase "foreach").front (many blank)).seq (hdollar.group 1)).mono fun w hw => ?_
  obtain ⟨_, v, rfl, ⟨u, z, rfl, hu⟩, hv⟩ := hw
  exact ⟨u, z ++ v, by simp, hu, by simp [hv]⟩

theorem passes_include : (anyCase "include" ++ many blank ++ anyCase "file=" ++
    group 1 (few1 inLine)).Passes (KeywordWith "include" '=') := by
  have hsign : (anyCase "file=").Passes ('=' ∈ ·) := by
    refine (passes_anyCase "file=").mono fun w hw => ?_
    have hmem : '=' ∈ w.map Text.foldChar := by
      rw [hw]
      decide
    obtain ⟨c, hc, hfold⟩ := List.mem_map.mp hmem
    exact Text.eq_of_foldChar_sign (by decide) (by decide) hfold ▸ hc
  refine ((((passes_anyCase "include").front (many blank)).seq hsign).front _).mono fun w hw => ?_
  obtain ⟨_, v, rfl, _, y, rfl, ⟨u, z, rfl, hu⟩, hy⟩ := hw
  exact ⟨u, z ++ y ++ v, by simp, hu, by simp [hy]⟩

theorem keywordWith_front {s : String} {a : Pattern} (h : a.Passes (KeywordWith s c))
    (b : Pattern) : (a ++ b).Passes (KeywordWith s c) := h.extend (fun _ v hu => hu.append v) b

theorem leaves_of_keywordWith {s : String} (hr : r.pattern = Delimiters.braces.around p)
    (hp : p.Passes (KeywordWith s c)) (hw : Named w) (h : ¬KeywordWith s c w) :
    r.Leaves (braced w) := by
  refine leaves_of_passes hr hp hw fun u x hux _ hR => h ?_
  rw [hux]
  exact hR.append x

theorem passes_choice : (group 1 (many1 (alt (wordOr "$.[]='\"") blank)) ++ exact "?" ++
    group 2 (few inLine ++ exact ":" ++ few inLine)).Passes fun w => ∃ u v, w = u ++ '?' :: v ∧
      (∀ c ∈ u, (Text.isWordPart c || "$.[]='\"".toList.contains c) = true ∨
        Text.isBlank c = true) ∧ ':' ∈ v := by
  let q := fun c => (Text.isWordPart c || "$.[]='\"".toList.contains c) = true ∨
    Text.isBlank c = true
  have hclass : ∀ {m n}, (alt (wordOr "$.[]='\"") blank).Takes m n → ∃ c, q c ∧ m.Past [c] n := by
    rintro m n (h | h)
    · obtain ⟨c, hc, hpast⟩ := takes_char h
      exact ⟨c, .inl hc, hpast⟩
    · obtain ⟨c, hc, hpast⟩ := takes_char h
      exact ⟨c, .inr hc, hpast⟩
  have hfirst : (many1 (alt (wordOr "$.[]='\"") blank)).Passes fun w => ∀ c ∈ w, q c := by
    intro m n h
    obtain ⟨u, -, hu, hpast⟩ := takes_many1 hclass h
    exact ⟨u, hpast.1, hu⟩
  have hcolon : (few inLine ++ exact ":" ++ few inLine).Passes (':' ∈ ·) := by
    have hline : (few inLine).Passes fun _ => True := by
      intro m n h
      obtain ⟨u, -, hpast⟩ := takes_few h
      exact ⟨u, hpast.1, trivial⟩
    refine ((hline.seq (passes_exact ":")).front _).mono fun w hw => ?_
    obtain ⟨_, y, rfl, u, v, rfl, -, rfl⟩ := hw
    simp
  refine (((hfirst.group 1).seq (passes_exact "?")).seq (hcolon.group 2)).mono fun w hw => ?_
  obtain ⟨_, v, rfl, ⟨u, _, rfl, hu, rfl⟩, hv⟩ := hw
  exact ⟨u, v, by simp, hu, hv⟩

theorem passes_access (others : String) : (access others).Passes fun w => ∃ v, w = '$' :: v ∧
    v ≠ [] ∧ ∀ d ∈ v, (Text.isWordPart d || others.toList.contains d) = true := by
  intro m n h
  obtain ⟨v, hne, hv, hpast⟩ := takes_access h
  exact ⟨'$' :: v, hpast.1, v, rfl, hne, hv⟩

theorem passes_dottedAccess : (dottedAccess .braces).pattern.Passes fun w => ∃ u v c x,
    w = '{' :: (u ++ '$' :: (v ++ '.' :: c :: (x ++ ['}']))) ∧ v ≠ [] ∧
      (∀ d ∈ v, (Text.isWordPart d || "\"'[]".toList.contains d) = true) ∧
      Text.isWordPart c = true := by
  have hopen : Delimiters.braces.opening.Passes fun w => ∃ z, w = '{' :: z := by
    intro m n h
    obtain ⟨z, -, hpast⟩ := takes_opening h
    exact ⟨'{' :: z, hpast.1, z, rfl⟩
  have hkey : (many1 wordPart).Passes fun w => ∃ c l, w = c :: l ∧ Text.isWordPart c = true := by
    intro m n h
    obtain ⟨w, hne, hw, hpast⟩ := takes_many1 takes_char h
    obtain ⟨c, l, rfl⟩ := List.exists_cons_of_ne_nil hne
    exact ⟨c :: l, hpast.1, c, l, rfl, hw c List.mem_cons_self⟩
  have hend : (few inLine ++ Delimiters.braces.closing).Passes fun w => ∃ x, w = x ++ ['}'] := by
    rintro m n ⟨k, hline, hclose⟩
    obtain ⟨y, -, hpast⟩ := takes_few hline
    obtain ⟨x, -, hpast'⟩ := takes_closing hclose
    exact ⟨y ++ x ++ ['}'], by rw [hpast.1, hpast'.1]; simp, y ++ x, rfl⟩
  have hall := (((((hopen.front (few (notAhead Delimiters.braces.closing ++ inLine))).group 1).seq
    ((passes_access "\"'[]").group 2)).seq (passes_exact ".")).seq (hkey.group 3)).seq
      (hend.group 4)
  refine hall.mono fun w hw => ?_
  obtain ⟨_, _, rfl,
    ⟨_, _, rfl, ⟨_, _, rfl, ⟨_, _, rfl, ⟨_, u, rfl, z, rfl⟩, v, rfl, hne, hv⟩, rfl⟩,
    c, l, rfl, hc⟩, x, rfl⟩ := hw
  exact ⟨z ++ u, v, c, l ++ x, by simp, hne, hv, hc⟩

theorem Plain.ternary_leaves (hw : Plain w) : (ternary .braces).Leaves (braced w) := by
  refine leaves_of_passes rfl passes_choice hw.toNamed fun u x hux _ hR => ?_
  obtain ⟨y, v, rfl, hy, hv⟩ := hR
  exact hw.choice y (v ++ x) (by simp [hux]) hy (by simp [hv])

theorem Plain.dottedAccess_leaves (hw : Plain w) :
    (dottedAccess .braces).Leaves (braced w) := by
  intro before
  refine Option.eq_none_iff_forall_ne_some.mpr fun m hrun => ?_
  obtain ⟨n, hn, -⟩ := takes_of_run hrun
  obtain ⟨_, hrest, u, v, c, x, rfl, hne, hv, hc⟩ := passes_dottedAccess _ n hn
  have hsplit : w ++ ['}'] = (u ++ '$' :: (v ++ '.' :: c :: x)) ++ '}' :: n.rest := by
    have htail := (List.cons.inj hrest).2
    simpa using htail
  rw [hw.path u v c x (eq_of_append_right hw.no_right hsplit) hne hv] at hc
  cases hc

theorem Plain.loopToken_leaves (hw : Plain w) : (loopToken .braces).Leaves (braced w) := by
  intro before
  refine Option.eq_none_iff_forall_ne_some.mpr fun m hrun => ?_
  obtain ⟨z, u, k, l, y, x, -, hcs, -, -, hk, -⟩ := exists_of_loopToken_run hrun
  have hsplit : w ++ ['}'] = (z ++ u ++ k ++ l ++ y ++ x) ++ '}' :: m.rest := by
    have htail := (List.cons.inj hcs).2
    simpa using htail
  refine hw.field k hk ⟨z ++ u, l ++ y ++ x, ?_⟩
  rw [eq_of_append_right hw.no_right hsplit]
  simp

/-- Each rule but those for keywords leaves the directive. -/
theorem Plain.leaves (hw : Plain w) (hr : r ∈ rules .braces) (hname : r.name ∉ keywordRules) :
    r.Leaves (braced w) := by
  have hn := hw.toNamed
  cases hr using Rule.byName with
  | comment =>
    exact leaves_of_beginsOther rfl
      (beginsOther_front (beginsOther_front (beginsOther_exact rfl rfl) _) _) hn
  | rawEcho =>
    exact leaves_of_beginsOther rfl (beginsOther_front (beginsOther_exact rfl rfl) _) hn
  | dottedAccess => exact hw.dottedAccess_leaves
  | loopToken => exact hw.loopToken_leaves
  | objectProperty =>
    exact leaves_of_beginsOther rfl (.group (beginsOther_front
      (beginsOther_front (beginsOther_front (beginsOther_exact rfl rfl) _) _) _) 1) hn
  | unfiltered =>
    exact leaves_of_beginsOther rfl
      (beginsOther_front (beginsOther_front (.group (beginsOther_access _) 1) _) _) hn
  | ternary => exact hw.ternary_leaves
  | assignment =>
    exact leaves_of_beginsOther rfl (beginsOther_front
      (beginsOther_front (beginsOther_front (.group (beginsOther_access _) 1) _) _) _) hn
  | escapedEcho => exact leaves_of_beginsOther rfl (.group (beginsOther_access _) 1) hn
  | endLoop | endCond | endEach => exact leaves_of_beginsOther rfl (beginsOther_slash rfl) hn
  | each =>
    exact leaves_of_keywordWith rfl (keywordWith_front (keywordWith_front (keywordWith_front
      (keywordWith_front (keywordWith_front passes_foreach _) _) _) _) _) hn hw.each
  | eachEntry =>
    exact leaves_of_keywordWith rfl (keywordWith_front (keywordWith_front (keywordWith_front
      (keywordWith_front (keywordWith_front (keywordWith_front (keywordWith_front (keywordWith_front
      (keywordWith_front passes_foreach _) _) _) _) _) _) _) _) _) hn hw.each
  | includeFile => exact leaves_of_keywordWith rfl passes_include hn hw.file
  | _ => exact absurd (by decide) hname

theorem eq_of_keyword (hr : r ∈ rules .braces) (hname : r.name ∈ keywordRules) :
    r = conditional .braces "while" (anyCase "while") "while" ∨
    r = conditional .braces "if" (anyCase "if") "if" ∨
    r = conditional .braces "else-if" (anyCase "else" ++ many blank ++ anyCase "if") "elseif" ∨
    r = fixed .braces "else" (anyCase "else") "else :" ∨
    r = fixed .braces "break" (anyCase "break") "break;" ∨
    r = fixed .braces "continue" (anyCase "continue") "continue;" := by
  cases hr using Rule.byName with
  | loop | cond | elseCond | otherwise | leave | next => simp
  | _ => exact absurd hname (by decide)

theorem Unruled.leaves (hw : Unruled w) (hr : r ∈ rules .braces) : r.Leaves (braced w) := by
  by_cases hname : r.name ∈ keywordRules
  · have hn := hw.toNamed
    have hword := fun s hs u v huv hv => hw.word u v huv hv s hs
    rcases eq_of_keyword hr hname with rfl | rfl | rfl | rfl | rfl | rfl
    · exact conditional_leaves _ _ (passes_anyCase "while") hn fun u v huv hu =>
        hw.condition u v huv (.inl hu)
    · exact conditional_leaves _ _ (passes_anyCase "if") hn fun u v huv hu =>
        hw.condition u v huv (.inr (.inl hu))
    · exact conditional_leaves _ _ passes_elseIf hn fun u v huv hu =>
        hw.condition u v huv (.inr (.inr hu))
    · exact fixed_leaves _ _ hn (hword "else" (by simp))
    · exact fixed_leaves _ _ hn (hword "break" (by simp))
    · exact fixed_leaves _ _ hn (hword "continue" (by simp))
  · exact hw.toPlain.leaves hr hname

end Leaves

theorem applyRules_of_rewrites {rs : List Rule} {cs : List Char}
    (h : ∀ r ∈ rs, r.Rewrites cs cs false) : applyRules rs cs = .ok cs := by
  induction rs with
  | nil => rfl
  | cons r rs ih =>
    have hrest := ih fun q hq => h q (List.mem_cons_of_mem _ hq)
    have hexhaust : r.exhaust? maxPasses cs = some cs := by
      rw [show maxPasses = 255 + 1 from rfl, Rule.exhaust?, (h r List.mem_cons_self).apply_eq]
      rfl
    rw [applyRules, hexhaust]
    exact hrest

theorem Unruled.applyRules {w : List Char} (hw : Unruled w) :
    applyRules (rules .braces) (braced w) = .ok (braced w) := by
  refine applyRules_of_rewrites fun r hr => ?_
  have hleaves := hw.leaves hr
  have hleft : r.Rewrites (braced w ++ []) (braced w ++ []) false :=
    (Rule.rewrites_nil r).left (opensWithBrace_of_mem hr) (by rwa [List.append_nil])
      fun c hc => ne_of_mem_of_not_mem hc hw.no_left
  rwa [List.append_nil] at hleft

section Call

variable {name z args : List Char}

/-- The name of a call is as long as it can be, and the arguments are what follows the blanks. -/
theorem callDirective_run (hne : name ≠ []) (hname : ∀ c ∈ name, Text.isWordPart c = true)
    (hz : ∀ c ∈ z, Text.isBlank c = true)
    (hend : ∀ c, (z ++ args).head? = some c → Text.isWordPart c = false)
    (hargs : ∀ c, args.head? = some c → Text.isBlank c = false) (hline : '\n' ∉ args)
    (hright : '}' ∉ args) (before : Option Char) :
    ∃ m, (callDirective .braces).run some ⟨before, braced (name ++ (z ++ args)), 0, []⟩ = some m ∧
      m.rest = [] ∧ Found.group ⟨⟨braced (name ++ (z ++ args)), m.position⟩, m.groups⟩ 1 =
        String.ofList name ∧
      Found.group ⟨⟨braced (name ++ (z ++ args)), m.position⟩, m.groups⟩ 2 =
        String.ofList args := by
  -- The match goes over the brace, the name, the blanks, the arguments and the other brace.
  let m : Cursor := ⟨before, '{' :: (name ++ (z ++ (args ++ ['}']))), 0, []⟩
  have hrest : braced (name ++ (z ++ args)) = m.rest := by simp [braced, m]
  rw [hrest]
  let k := m.after ['{'] (name ++ (z ++ (args ++ ['}'])))
  let j := ((k.after name (z ++ (args ++ ['}']))).keep 1 k).after z (args ++ ['}'])
  let e := ((j.after args ['}']).keep 2 j).after ['}'] []
  have hclose : (exact Delimiters.braces.right).run some ((j.after args ['}']).keep 2 j) = some e :=
    run_exact (w := ['}']) rfl rfl
  have hlast : (group 2 (few inLine) ++ exact Delimiters.braces.right).run some j = some e := by
    show (few inLine).run (fun n => (exact Delimiters.braces.right).run some (n.keep 2 j)) j = _
    refine run_few_inLine rfl hline (fun u c v huv => ?_) hclose
    refine run_exact_none (c := '}') rfl ?_
    rintro ⟨⟩
    exact hright (by simp [huv])
  obtain ⟨c, l, hcl, hc⟩ : ∃ c l, args ++ ['}'] = c :: l ∧ Text.isBlank c = false := by
    cases args with
    | nil => exact ⟨'}', [], rfl, rfl⟩
    | cons c l => exact ⟨c, l ++ ['}'], rfl, hargs c rfl⟩
  refine ⟨e, ?_, rfl, ?_, ?_⟩
  · refine (run_exact (w := ['{']) rfl rfl).trans ?_
    show (many1 wordPart).run (fun n => (many blank).run
      ((group 2 (few inLine) ++ exact Delimiters.braces.right).run some) (n.keep 1 k)) k = _
    refine run_many1 (w := name) rfl hne hname (fun d hd => ?_) ?_
    · cases hza : z ++ args with
      | nil =>
        rw [← List.append_assoc, hza] at hd
        cases hd
        rfl
      | cons x y =>
        rw [← List.append_assoc, hza] at hd
        cases hd
        exact hend _ (by rw [hza]; rfl)
    · have hblanks : z ++ (args ++ ['}']) = z ++ c :: l := by rw [hcl]
      refine run_blanks hblanks hz hc ?_
      rw [← hcl]
      exact hlast
  · exact Found.group_of_find? (w := name) rfl (by simp [k])
  · exact Found.group_of_find? (w := args) rfl (by simp)

theorem compileCalls_braced (hne : name ≠ []) (hname : ∀ c ∈ name, Text.isWordPart c = true)
    (hz : ∀ c ∈ z, Text.isBlank c = true)
    (hend : ∀ c, (z ++ args).head? = some c → Text.isWordPart c = false)
    (hargs : ∀ c, args.head? = some c → Text.isBlank c = false) (hline : '\n' ∉ args)
    (hright : '}' ∉ args) {code : String}
    (hcode : callCode? (String.ofList name) (String.ofList args) = some code) :
    compileCalls .braces (braced (name ++ (z ++ args))) = (code.toList, []) := by
  obtain ⟨m, hrun, hm, hgroup1, hgroup2⟩ :=
    callDirective_run hne hname hz hend hargs hline hright none
  have hpieces : (callDirective .braces).pieces none (braced (name ++ (z ++ args))) =
      [.found ⟨⟨braced (name ++ (z ++ args)), m.position⟩, m.groups⟩] := by
    have hcons : braced (name ++ (z ++ args)) = '{' :: (name ++ (z ++ args) ++ ['}']) := rfl
    rw [hcons] at hrun ⊢
    rw [Pattern.pieces, hrun]
    simp only [hm, List.length_nil, List.length_cons, Nat.zero_lt_succ, dif_pos]
    rw [Pattern.pieces]
  rw [compileCalls, hpieces]
  simp [callOf, hgroup1, hgroup2, hcode]

theorem Unruled.generate {w : List Char} {code : String} (hw : Unruled w)
    (hcalls : compileCalls .braces (braced w) = (code.toList, [])) :
    Directive.generate .braces (String.ofList (braced w)) =
      .ok ⟨Artifact.ofCode code.toList, []⟩ := by
  rw [Directive.generate, String.toList_ofList, hw.applyRules]
  simp only [bind, Except.bind, hcalls]
  rfl

end Call

end Directive

end ViewTemplate
