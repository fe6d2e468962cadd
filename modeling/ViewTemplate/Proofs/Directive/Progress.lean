import ViewTemplate.Directive.Generate
import ViewTemplate.Proofs.Directive.Rewriting
import ViewTemplate.Proofs.Pattern.Counting
import Mathlib

namespace ViewTemplate

namespace Text

/-- One of the ranges, which increase, holds everything from `low` to `high`. -/
def Ranges.spans : Ranges → Nat → Nat → Bool
  | [], _, _ => false
  | r :: rest, low, high => r.1.ble low && (high.ble r.2 || Ranges.spans rest low high)

/-- None of the ranges, which increase, holds anything from `low` to `high`. -/
def Ranges.avoid : Ranges → Nat → Nat → Bool
  | [], _, _ => true
  | r :: rest, low, high => high.blt r.1 || r.2.blt low && Ranges.avoid rest low high

variable {rs : Ranges} {low high n : Nat} {c d : Char}

theorem Ranges.contain_of_spans (h : rs.spans low high = true) (hlow : low ≤ n) (hhigh : n ≤ high) :
    rs.contain n = true := by
  induction rs with
  | nil => cases h
  | cons r rest ih =>
    rw [Ranges.spans, Bool.and_eq_true, Bool.or_eq_true, Nat.ble_eq, Nat.ble_eq] at h
    rw [Ranges.contain, if_neg (by omega), Bool.or_eq_true, decide_eq_true_eq]
    exact h.2.imp (hhigh.trans ·) ih

theorem Ranges.contain_of_avoid (h : rs.avoid low high = true) (hlow : low ≤ n) (hhigh : n ≤ high) :
    rs.contain n = false := by
  induction rs with
  | nil => rfl
  | cons r rest ih =>
    rw [Ranges.avoid, Bool.or_eq_true, Bool.and_eq_true, Nat.blt_eq, Nat.blt_eq] at h
    rw [Ranges.contain]
    split
    · rfl
    · rw [ih (h.resolve_left (by omega)).2, Bool.or_false, decide_eq_false_iff_not]
      omega

def onlyLetters (low high : Nat) : Bool :=
  alphabeticRanges.spans low high && recentRanges.avoid low high

theorem isAlphanum_of_contain : ∀ n < 0x80, alphabeticRanges.contain n = true →
    (Char.ofNat n).isAlphanum = true := by
  decide +kernel

theorem isWordPart_of_onlyLetters (h : onlyLetters low high = true) (hlow : low ≤ c.toNat)
    (hhigh : c.toNat ≤ high) : isWordPart c = true := by
  rw [onlyLetters, Bool.and_eq_true] at h
  have hletter := Ranges.contain_of_spans h.1 hlow hhigh
  unfold isWordPart
  split
  · have := isAlphanum_of_contain c.toNat ‹_› hletter
    rw [Char.ofNat_toNat] at this
    rw [this, Bool.true_or]
  · rw [Ranges.contain_of_avoid h.2 hlow hhigh, hletter]
    rfl

theorem foldRuns_letters : ∀ run ∈ foldRuns, 0x80 ≤ run.first →
    (onlyLetters run.first run.last &&
      onlyLetters (run.first + run.shift).toNat (run.last + run.shift).toNat) = true ∨
    ∀ i ≤ run.last - run.first, i % run.step = 0 →
      onlyLetters (run.first + i) (run.first + i) = true ∧
        onlyLetters (run.first + i + run.shift).toNat (run.first + i + run.shift).toNat = true := by
  decide +kernel

theorem foldRuns_valid : ∀ run ∈ foldRuns, 0 ≤ run.first + run.shift ∧
    ((run.last : Int) + run.shift < 0xd800 ∨
      0xdfff < (run.first : Int) + run.shift ∧ (run.last : Int) + run.shift < 0x110000) := by
  decide +kernel

theorem foldRuns_ascii : ∀ run ∈ foldRuns, run.first < 0x80 → run.last < 0x80 := by
  decide +kernel

theorem isWordPart_toLower : ∀ n < 0x80, (Char.ofNat n).toLower = Char.ofNat n ∨
    isWordPart (Char.ofNat n) = true ∧ isWordPart (Char.ofNat n).toLower = true := by
  decide +kernel

theorem toLower_eq_or (c : Char) : c.toLower = c ∨ isWordPart c.toLower = true := by
  by_cases hascii : c.toNat < 0x80
  · have := isWordPart_toLower c.toNat hascii
    rw [Char.ofNat_toNat] at this
    exact this.imp_right And.right
  · refine .inl ?_
    unfold Char.toLower
    split
    · rename_i hupper
      have : c.toNat ≤ 90 := UInt32.le_iff_toNat_le.mp hupper.2
      omega
    · rfl

/-- Characters that change when their case is folded belong to words, and so do those that they
become. -/
theorem foldChar_eq_or (c : Char) :
    foldChar c = c ∨ isWordPart c = true ∧ isWordPart (foldChar c) = true := by
  unfold foldChar
  split
  · have := isWordPart_toLower c.toNat ‹_›
    rwa [Char.ofNat_toNat] at this
  · rename_i hascii
    unfold mapChar
    split
    · rename_i k hk
      obtain ⟨run, hrun, hfirst, hlast, hstep, hk⟩ := find?_point hk
      have hlow : 0x80 ≤ run.first := by
        by_contra hlow
        have := foldRuns_ascii run hrun (by omega)
        omega
      have hvalid := foldRuns_valid run hrun
      have hchar : (Char.ofNat k).toNat = k := by
        rw [Char.ofNat, dif_pos (show k.isValidChar by unfold Nat.isValidChar; omega)]
        rfl
      refine .inr ?_
      rcases foldRuns_letters run hrun hlow with h | h
      · rw [Bool.and_eq_true] at h
        exact ⟨isWordPart_of_onlyLetters h.1 hfirst hlast,
          isWordPart_of_onlyLetters h.2 (by omega) (by omega)⟩
      · have hpoint := h (c.toNat - run.first) (by omega) hstep
        exact ⟨isWordPart_of_onlyLetters hpoint.1 (by omega) (by omega),
          isWordPart_of_onlyLetters hpoint.2 (by omega) (by omega)⟩
    · exact .inl rfl

theorem eq_of_foldChar_of_not_isWordPart (hd : isWordPart d = false) (h : foldChar c = foldChar d) :
    c = d := by
  have hsame : foldChar d = d := by
    rcases foldChar_eq_or d with h | h
    · exact h
    · exact nomatch hd.symm.trans h.1
  rw [hsame] at h
  rcases foldChar_eq_or c with h' | h'
  · exact h'.symm.trans h
  · rw [h, hd] at h'
    exact nomatch h'.2

end Text

namespace Directive

open Pattern

variable {r : Rule} {c e : Char} {d : Delimiters} {ks : Finset Nat} {content : Pattern} {f : Found}
  {cs out : List Char}

/-- Every match of the rule leaves fewer of a character than there were. -/
def Rule.Lowers (r : Rule) (c : Char) : Prop :=
  ∀ before cs m, r.pattern.run some ⟨before, cs, 0, []⟩ = some m →
    (r.replacement ⟨⟨cs, m.position⟩, m.groups⟩).toList.count c + m.rest.count c < cs.count c

/-- No match of the rule leaves more of a character than there were. -/
def Rule.NeverRaises (r : Rule) (c : Char) : Prop :=
  ∀ before cs m, r.pattern.run some ⟨before, cs, 0, []⟩ = some m →
    (r.replacement ⟨⟨cs, m.position⟩, m.groups⟩).toList.count c + m.rest.count c ≤ cs.count c

/-- The rule writes a character of its own, not one that it has captured. -/
def Rule.Writes (r : Rule) (c : Char) : Prop :=
  ∃ f : Found, c ∈ (r.replacement f).toList ∧ ∀ g ∈ f.groups, c ∉ g.2.text

section Passes

theorem Rule.Lowers.neverRaises (h : r.Lowers c) : r.NeverRaises c :=
  fun before cs m hrun => (h before cs m hrun).le

theorem Rule.NeverRaises.count_pieces (h : r.NeverRaises c) (before : Option Char)
    (cs : List Char) :
    ((r.pattern.pieces before cs).flatMap (Piece.replaced r.replacement)).count c ≤ cs.count c := by
  fun_induction Pattern.pieces r.pattern before cs with
  | case1 => exact le_rfl
  | case2 before x rest m hm _ ih =>
    rw [List.flatMap_cons, List.count_append]
    exact (Nat.add_le_add_left ih _).trans (h _ _ _ hm)
  | case3 _ _ _ _ _ _ ih | case4 _ _ _ _ ih =>
    rw [List.flatMap_cons, Piece.replaced, List.singleton_append, List.count_cons, List.count_cons]
    exact Nat.add_le_add_right ih _

theorem Rule.Lowers.count_pieces (h : r.Lowers c) (before : Option Char) (cs : List Char)
    (hfound : (r.pattern.pieces before cs).any Piece.isFound = true) :
    ((r.pattern.pieces before cs).flatMap (Piece.replaced r.replacement)).count c < cs.count c := by
  fun_induction Pattern.pieces r.pattern before cs with
  | case1 => cases hfound
  | case2 before x rest m hm _ _ =>
    rw [List.flatMap_cons, List.count_append]
    exact (Nat.add_le_add_left (h.neverRaises.count_pieces _ _) _).trans_lt (h _ _ _ hm)
  | case3 _ _ _ _ _ _ ih | case4 _ _ _ _ ih =>
    rw [List.flatMap_cons, Piece.replaced, List.singleton_append, List.count_cons, List.count_cons]
    exact Nat.add_lt_add_right (ih hfound) _

theorem Rule.NeverRaises.count_apply (h : r.NeverRaises c) (happly : r.apply? cs = some out) :
    out.count c ≤ cs.count c := by
  rw [r.apply_eq_ite] at happly
  split at happly
  · cases happly
    exact h.count_pieces none cs
  · cases happly

theorem Rule.Lowers.count_apply (h : r.Lowers c) (happly : r.apply? cs = some out) :
    out.count c < cs.count c := by
  rw [r.apply_eq_ite] at happly
  split at happly
  · cases happly
    exact h.count_pieces none cs ‹_›
  · cases happly

/-- A rule that lowers a count has matched for the last time when nothing is left to count. -/
theorem Rule.Lowers.exhaust_isSome (h : r.Lowers c) {passes : Nat} (hcount : cs.count c < passes) :
    ∃ out, r.exhaust? passes cs = some out := by
  induction passes generalizing cs with
  | zero => omega
  | succ passes ih =>
    rw [Rule.exhaust?]
    cases happly : r.apply? cs with
    | none => exact ⟨cs, rfl⟩
    | some next =>
      have := h.count_apply happly
      exact ih (by omega)

theorem Rule.NeverRaises.count_exhaust (h : r.NeverRaises c) {passes : Nat}
    (hexhaust : r.exhaust? passes cs = some out) : out.count c ≤ cs.count c := by
  induction passes generalizing cs with
  | zero => cases hexhaust
  | succ passes ih =>
    rw [Rule.exhaust?] at hexhaust
    cases happly : r.apply? cs with
    | none =>
      rw [happly] at hexhaust
      cases hexhaust
      exact le_rfl
    | some next =>
      rw [happly] at hexhaust
      exact (ih hexhaust).trans (h.count_apply happly)

/-- Rules that each lower one of some counts, and raise none of them, reach the end of a text in
which these are small. -/
theorem applyRules_ok (rs : List Rule) (es : List Char) (hlowers : ∀ r ∈ rs, ∃ e ∈ es, r.Lowers e)
    (hraises : ∀ r ∈ rs, ∀ e ∈ es, r.NeverRaises e) (hcount : ∀ e ∈ es, cs.count e < maxPasses) :
    ∃ out, applyRules rs cs = .ok out ∧ ∀ e ∈ es, out.count e ≤ cs.count e := by
  induction rs generalizing cs with
  | nil => exact ⟨cs, rfl, fun _ _ => le_rfl⟩
  | cons r rs ih =>
    obtain ⟨hr, hrs⟩ := List.forall_mem_cons.mp hraises
    obtain ⟨⟨e, he, hlower⟩, hlowers⟩ := List.forall_mem_cons.mp hlowers
    obtain ⟨next, hnext⟩ := hlower.exhaust_isSome (hcount e he)
    have hkept : ∀ e ∈ es, next.count e ≤ cs.count e := fun e he => (hr e he).count_exhaust hnext
    obtain ⟨out, hout, hle⟩ := ih hlowers hrs fun e he => (hkept e he).trans_lt (hcount e he)
    refine ⟨out, ?_, fun e he => (hle e he).trans (hkept e he)⟩
    rw [applyRules, hnext]
    exact hout

theorem applyRules_append {rs rs' : List Rule} (h : applyRules rs cs = .ok out) :
    applyRules (rs ++ rs') cs = applyRules rs' out := by
  induction rs generalizing cs with
  | nil =>
    cases h
    rfl
  | cons r rs ih =>
    rw [applyRules] at h
    rw [List.cons_append, applyRules]
    cases hnext : r.exhaust? maxPasses cs with
    | none =>
      rw [hnext] at h
      cases h
    | some next =>
      rw [hnext] at h
      exact ih h

end Passes

section Replacements

/-- The characters of what rules write, and those of the words and paths that they look for. -/
def isWritten (c : Char) : Bool :=
  Text.isWordPart c || Text.isBlank c || "$\"'[]<?>;()=!:+-\\".toList.contains c

theorem count_written (he : isWritten e = false) {s : String}
    (hs : s.toList.all isWritten = true) : s.toList.count e = 0 := by
  refine List.count_eq_zero_of_not_mem fun hmem => ?_
  rw [List.all_eq_true.mp hs e hmem] at he
  cases he

theorem ne_of_isWritten (he : isWritten e = false) (hc : isWritten c = true) : c ≠ e := by
  rintro rfl
  exact nomatch hc.symm.trans he

theorem count_codeBlock (he : isWritten e = false) (s : String) :
    (codeBlock s).toList.count e = s.toList.count e := by
  simp (disch := decide) only [codeBlock, String.toList_append, List.count_append,
    count_written he, Nat.zero_add, Nat.add_zero]

theorem count_quoteWord (he : isWritten e = false) (word : String) :
    (quoteWord word).toList.count e ≤ word.toList.count e := by
  have hescaped : ∀ cs : List Char, (cs.flatMap escapeQuote).count e = cs.count e := by
    intro cs
    induction cs with
    | nil => rfl
    | cons x cs ih =>
      rw [List.flatMap_cons, List.count_append, ih, escapeQuote]
      split
      · rw [List.count_cons_of_ne (ne_of_isWritten he (by decide)), List.count_cons,
          List.count_cons]
        simp [Nat.add_comm]
      · rw [← List.count_append, List.singleton_append]
  have hquote : '\'' ≠ e := ne_of_isWritten he (by decide)
  unfold quoteWord
  split
  · exact le_rfl
  · rw [String.toList_ofList, List.cons_append, List.count_cons_of_ne hquote, List.count_append,
      hescaped, List.count_singleton, if_neg (by simpa using hquote), Nat.add_zero]

theorem count_trim_le (cs : List Char) : (Text.trim cs).count e ≤ cs.count e := by
  unfold Text.trim Text.trimEnd Text.trimStart Text.dropEndWhile
  rw [List.count_reverse]
  refine ((List.dropWhile_sublist _).count_le e).trans ?_
  rw [List.count_reverse]
  exact (List.dropWhile_sublist _).count_le e

theorem count_loopOpening (he : isWritten e = false) {subject head name : String}
    (hsubject : subject.toList.count e = 0) (hhead : head.toList.count e = 0)
    (hname : name.toList.count e = 0) : (loopOpening subject head name).toList.count e = 0 := by
  simp (disch := decide) only [loopOpening, loopVariable, String.toList_append, List.count_append,
    count_codeBlock he, count_written he, hsubject, hhead, hname]

/-- In the replacement a character stands no more often than in some groups. -/
def Rule.Copying (r : Rule) (ks : Finset Nat) (e : Char) : Prop :=
  ∀ f, (r.replacement f).toList.count e ≤ ∑ k ∈ ks, (f.group k).toList.count e

theorem count_group (h : ∀ g ∈ f.groups, e ∉ g.2.text) (k : Nat) :
    (f.group k).toList.count e = 0 := by
  refine List.count_eq_zero_of_not_mem fun hmem => ?_
  unfold Found.group Found.group? at hmem
  cases hfind : f.groups.find? (fun g => g.1 = k) with
  | none =>
    rw [hfind] at hmem
    cases hmem
  | some g =>
    rw [hfind] at hmem
    exact h g (List.mem_of_find?_eq_some hfind) (by simpa using hmem)

theorem Rule.Copying.not_writes (h : r.Copying ks e) : ¬r.Writes e := by
  rintro ⟨f, hmem, hgroups⟩
  have hzero : ∑ k ∈ ks, (f.group k).toList.count e = 0 :=
    Finset.sum_eq_zero fun k _ => count_group hgroups k
  have hpos := List.count_pos_iff.mpr hmem
  have := h f
  omega

end Replacements

section Around

variable {m n : Cursor}

theorem numbers_opening (d : Delimiters) : d.opening.numbers = [] :=
  List.append_eq_nil_iff.mpr ⟨numbers_anyCase d.left, rfl⟩

theorem numbers_closing (d : Delimiters) : d.closing.numbers = [] :=
  List.append_eq_nil_iff.mpr ⟨rfl, numbers_anyCase d.right⟩

theorem opening_flat (d : Delimiters) (ks : Finset Nat) : d.opening.flat ks = true :=
  flat_of_numbers (numbers_opening d)

theorem closing_flat (d : Delimiters) (ks : Finset Nat) : d.closing.flat ks = true :=
  flat_of_numbers (numbers_closing d)

theorem around_flat (h : content.flat ks = true) : (d.around content).flat ks = true := by
  show ((d.opening.flat ks && content.flat ks) && d.closing.flat ks) = true
  rw [opening_flat, h, closing_flat]
  rfl

/-- A match of a directive takes a sign of the left delimiter away. -/
theorem weight_lt_of_around (hc : c ∈ d.left.toList) (hword : Text.isWordPart c = false)
    (hflat : content.flat ks = true) (h : (d.around content).Takes m n) :
    n.weight ks c < m.weight ks c := by
  obtain ⟨k, ⟨j, ⟨i, hleft, hblanks⟩, hcontent⟩, hclosing⟩ := h
  calc n.weight ks c ≤ k.weight ks c := weight_of_takes hclosing (closing_flat d ks)
    _ ≤ j.weight ks c := weight_of_takes hcontent hflat
    _ ≤ i.weight ks c := weight_of_takes hblanks rfl
    _ < m.weight ks c := weight_lt_of_anyCase
        (fun x => Text.eq_of_foldChar_of_not_isWordPart hword) hc hleft

/-- The replacement of a match holds no more of a character than some groups have taken. -/
def Rule.Gives (r : Rule) (ks : Finset Nat) (c : Char) : Prop :=
  ∀ before cs n, r.pattern.Takes ⟨before, cs, 0, []⟩ n →
    (r.replacement ⟨⟨cs, n.position⟩, n.groups⟩).toList.count c ≤ kept ks c n.groups

theorem Rule.Copying.gives (h : r.Copying ks c) : r.Gives ks c :=
  fun _ _ _ _ => (h _).trans (sum_count_group_le ks c _)

theorem Rule.Gives.neverRaises (h : r.Gives ks c) (hflat : r.pattern.flat ks = true) :
    r.NeverRaises c := by
  intro before cs m hrun
  obtain ⟨n, htakes, hn⟩ := takes_of_run hrun
  cases hn
  have hle := weight_of_takes (c := c) htakes hflat
  rw [Cursor.weight_start, Cursor.weight] at hle
  have hgives := h before cs m htakes
  omega

theorem Rule.Gives.lowers (h : r.Gives ks c)
    (hlt : ∀ m n, r.pattern.Takes m n → n.weight ks c < m.weight ks c) : r.Lowers c := by
  intro before cs m hrun
  obtain ⟨n, htakes, hn⟩ := takes_of_run hrun
  cases hn
  have hless := hlt _ _ htakes
  rw [Cursor.weight_start, Cursor.weight] at hless
  have hgives := h before cs m htakes
  omega

end Around

section Table

/-- A rule for a directive that copies what it captures, if anything. -/
def Rule.Plain (d : Delimiters) (r : Rule) : Prop :=
  ∃ content ks, r.pattern = d.around content ∧ content.flat ks = true ∧
    ∀ e, isWritten e = false → r.Copying ks e

theorem Rule.Plain.neverRaises (h : r.Plain d) (he : isWritten e = false) : r.NeverRaises e := by
  obtain ⟨content, ks, hr, hflat, hcopying⟩ := h
  exact (hcopying e he).gives.neverRaises (hr ▸ around_flat hflat)

theorem isWordPart_of_isWritten (he : isWritten e = false) : Text.isWordPart e = false := by
  rw [isWritten, Bool.or_eq_false_iff, Bool.or_eq_false_iff] at he
  exact he.1.1

theorem Rule.Plain.lowers (h : r.Plain d) (hc : c ∈ d.left.toList) (hw : isWritten c = false) :
    r.Lowers c := by
  obtain ⟨content, ks, hr, hflat, hcopying⟩ := h
  refine (hcopying c hw).gives.lowers fun m n htakes => ?_
  rw [hr] at htakes
  exact weight_lt_of_around hc (isWordPart_of_isWritten hw) hflat htakes

theorem plain_of_one (before behind : String) (hr : r.pattern = d.around content)
    (hflat : content.flat {1} = true)
    (hreplacement : ∀ f, r.replacement f = codeBlock (before ++ f.group 1 ++ behind))
    (hbefore : before.toList.all isWritten = true) (hbehind : behind.toList.all isWritten = true) :
    r.Plain d := by
  refine ⟨content, {1}, hr, hflat, fun e he f => ?_⟩
  rw [hreplacement, count_codeBlock he]
  simp only [String.toList_append, List.count_append, count_written he hbefore,
    count_written he hbehind, Finset.sum_singleton, Nat.zero_add, Nat.add_zero, le_refl]

theorem plain_of_two (before between behind : String) (hr : r.pattern = d.around content)
    (hflat : content.flat {1, 2} = true)
    (hreplacement : ∀ f, r.replacement f =
      codeBlock (before ++ f.group 1 ++ between ++ f.group 2 ++ behind))
    (hbefore : before.toList.all isWritten = true) (hbetween : between.toList.all isWritten = true)
    (hbehind : behind.toList.all isWritten = true) : r.Plain d := by
  refine ⟨content, {1, 2}, hr, hflat, fun e he f => ?_⟩
  rw [hreplacement, count_codeBlock he]
  simp only [String.toList_append, List.count_append, count_written he hbefore,
    count_written he hbetween, count_written he hbehind, Nat.zero_add, Nat.add_zero]
  rw [Finset.sum_pair (by decide)]

theorem plain_comment (d : Delimiters) : (comment d).Plain d :=
  ⟨_, ∅, rfl, rfl, fun _ _ _ => Nat.le_refl 0⟩

theorem plain_fixed (d : Delimiters) (name : String) (content : Pattern) (statements : String)
    (hflat : content.flat ∅ = true) (hwritten : statements.toList.all isWritten = true) :
    (fixed d name content statements).Plain d := by
  refine ⟨content, ∅, rfl, hflat, fun e he f => ?_⟩
  rw [fixed, count_codeBlock he, count_written he hwritten]
  exact Nat.zero_le _

theorem plain_include (d : Delimiters) : (includeFile d).Plain d := by
  refine ⟨_, {1}, rfl, rfl, fun e he f => ?_⟩
  have hword := (count_quoteWord he (String.ofList (Text.trim (f.group 1).toList))).trans
    ((String.toList_ofList (l := Text.trim (f.group 1).toList)).symm ▸ count_trim_le _)
  rw [includeFile, count_codeBlock he, Finset.sum_singleton]
  simp (disch := decide) only [String.toList_append, List.count_append, count_written he,
    Nat.zero_add, Nat.add_zero]
  exact hword

theorem not_mem_groups {n : Cursor} {before : Option Char} (hflat : content.flat ks = true)
    (hnumbers : ∀ k ∈ content.numbers, k ∈ ks) (havoids : content.avoids c = true)
    (h : (d.around content).Takes ⟨before, cs, 0, []⟩ n) : ∀ g ∈ n.groups, c ∉ g.2.text := by
  obtain ⟨k, ⟨j, hopening, hcontent⟩, hclosing⟩ := h
  obtain ⟨_, hgoes, -⟩ := takes_goes hopening (numbers_opening d)
  obtain ⟨_, hgoes', -⟩ := takes_goes hclosing (numbers_closing d)
  obtain ⟨w, gs, hw, hnot, hgs⟩ := covers_of_takes hcontent
  have hgroups : n.groups = gs := by
    rw [hgoes'.groups, hw.groups, hgoes.groups]
    simp
  have hweight := hw.weight ks c
  rw [List.count_eq_zero_of_not_mem (hnot c havoids)] at hweight
  have hle := weight_of_takes (c := c) hcontent hflat
  have hzero : kept ks c gs = 0 := by omega
  intro g hg
  rw [hgroups] at hg
  have hone := List.sum_eq_zero_iff.mp hzero _ (List.mem_map_of_mem hg)
  rw [if_pos (hnumbers g.1 (hgs g hg)), List.count_eq_zero] at hone
  exact hone

end Table

section Loops

theorem avoids_written_exact {s : String} (he : isWritten e = false)
    (hs : s.toList.all isWritten = true) : (exact s).avoids e = true :=
  avoids_exact fun hmem => ne_of_isWritten he (List.all_eq_true.mp hs e hmem) rfl

theorem avoids_written_anyCase {s : String} (he : isWritten e = false)
    (hs : s.toList.all isWritten = true) : (anyCase s).avoids e = true := by
  refine avoids_anyCase fun x hx hfold => ?_
  have hsame := Text.eq_of_foldChar_of_not_isWordPart (isWordPart_of_isWritten he) hfold.symm
  exact ne_of_isWritten he (List.all_eq_true.mp hs x hx) hsame

theorem avoids_blank (he : isWritten e = false) : blank.avoids e = true := by
  rw [isWritten, Bool.or_eq_false_iff, Bool.or_eq_false_iff] at he
  rw [blank, avoids, he.1.2]
  rfl

theorem avoids_wordOr {others : String} (he : isWritten e = false)
    (hothers : others.toList.all fun x => isWritten x || x = '.') (hdot : e ≠ '.') :
    (wordOr others).avoids e = true := by
  have hnot : e ∉ others.toList := by
    intro hmem
    have := List.all_eq_true.mp hothers e hmem
    simp [he, hdot] at this
  simp [wordOr, avoids, isWordPart_of_isWritten he, hnot]

theorem gives_of_loop (hr : r.pattern = d.around content) (hflat : content.flat {1, 2, 3} = true)
    (hnumbers : ∀ k ∈ content.numbers, k ∈ ({1, 2, 3} : Finset Nat))
    (havoids : content.avoids e = true)
    (hcount : ∀ f, (∀ k, (f.group k).toList.count e = 0) → (r.replacement f).toList.count e = 0) :
    r.Gives {1, 2, 3} e := by
  intro before cs n h
  rw [hr] at h
  rw [hcount _ (count_group (not_mem_groups hflat hnumbers havoids h))]
  exact Nat.zero_le _

theorem avoids_append (a b : Pattern) : (a ++ b).avoids e = (a.avoids e && b.avoids e) := rfl

theorem avoids_few1 (a : Pattern) : (few1 a).avoids e = a.avoids e := Bool.and_self _

theorem avoids_access {others : String} (he : isWritten e = false)
    (hothers : others.toList.all fun x => isWritten x || x = '.') (hdot : e ≠ '.') :
    (access others).avoids e = true := by
  rw [access, avoids_append, avoids_few1, avoids_wordOr he hothers hdot,
    avoids_written_exact he (by decide)]
  rfl

theorem foreachValue_gives (he : isWritten e = false) (hdot : e ≠ '.') :
    (foreachValue d).Gives {1, 2, 3} e := by
  refine gives_of_loop rfl rfl (by decide) ?_ fun f hf => ?_
  · have hvalue : (wordOr "\"'[]").avoids e = true := avoids_wordOr he (by decide) hdot
    have hsubject : subject.avoids e = true := avoids_access he (by decide) hdot
    simp (disch := decide) only [avoids_append, avoids_few1, avoids, hsubject, hvalue,
      avoids_blank he, avoids_written_exact he, avoids_written_anyCase he, Bool.and_true]
  · refine count_loopOpening he (hf 1) ?_ (hf 3)
    simp (disch := decide) only [String.toList_append, List.count_append, count_written he, hf]

theorem foreachEntry_gives (he : isWritten e = false) (hdot : e ≠ '.') :
    (foreachEntry d).Gives {1, 2, 3} e := by
  refine gives_of_loop rfl rfl (by decide) ?_ fun f hf => ?_
  · have hvalue : (wordOr "\"'[]").avoids e = true := avoids_wordOr he (by decide) hdot
    have hkey : (access "\"'[]").avoids e = true := avoids_access he (by decide) hdot
    have hsubject : subject.avoids e = true := avoids_access he (by decide) hdot
    simp (disch := decide) only [avoids_append, avoids_few1, avoids, hsubject, hkey, hvalue,
      avoids_blank he, avoids_written_exact he, avoids_written_anyCase he, Bool.and_true]
  · refine count_loopOpening he (hf 1) ?_ (hf 3)
    simp (disch := decide) only [String.toList_append, List.count_append, count_written he, hf]

end Loops

section Access

variable {m n : Cursor}

theorem flat_append (a b : Pattern) : (a ++ b).flat ks = (a.flat ks && b.flat ks) := rfl

theorem flat_start {a : Pattern} (number : Nat) (h : a.numbers = []) :
    (group number (d.opening ++ a)).flat ks = true :=
  flat_group_of_numbers number (List.append_eq_nil_iff.mpr ⟨numbers_opening d, h⟩)

theorem flat_end (number : Nat) : (group number (few inLine ++ d.closing)).flat ks = true :=
  flat_group_of_numbers number (List.append_eq_nil_iff.mpr ⟨rfl, numbers_closing d⟩)

theorem dottedAccess_copying (he : isWritten e = false) :
    (dottedAccess d).Copying {1, 2, 3, 4} e := by
  intro f
  simp (disch := decide) only [dottedAccess, String.toList_append, List.count_append,
    count_written he, Finset.sum_insert, Finset.sum_singleton]
  omega

theorem dottedAccess_neverRaises (he : isWritten e = false) : (dottedAccess d).NeverRaises e := by
  refine (dottedAccess_copying he).gives.neverRaises ?_
  simp only [dottedAccess, flat_append, Bool.and_eq_true]
  exact ⟨⟨⟨⟨flat_start 1 rfl, rfl⟩, rfl⟩, rfl⟩, flat_end 4⟩

theorem dottedAccess_lowers (d : Delimiters) : (dottedAccess d).Lowers '.' := by
  refine (dottedAccess_copying (by decide)).gives.lowers fun m n h => ?_
  obtain ⟨k, ⟨j, ⟨i, ⟨l, hstart, hpath⟩, hdot⟩, hname⟩, hend⟩ := h
  calc n.weight {1, 2, 3, 4} '.' ≤ k.weight {1, 2, 3, 4} '.' := weight_of_takes hend (flat_end 4)
    _ ≤ j.weight {1, 2, 3, 4} '.' := weight_of_takes hname rfl
    _ < i.weight {1, 2, 3, 4} '.' := weight_lt_of_exact (by decide) hdot
    _ ≤ l.weight {1, 2, 3, 4} '.' := weight_of_takes hpath rfl
    _ ≤ m.weight {1, 2, 3, 4} '.' := weight_of_takes hstart (flat_start 1 rfl)

theorem count_lowerAscii (he : isWritten e = false) (s : String) :
    (Text.lowerAscii s).toList.count e ≤ s.toList.count e := by
  have hlower : ∀ x : Char, x.toLower = e → x = e := by
    intro x hx
    rcases Text.toLower_eq_or x with h | h
    · exact h.symm.trans hx
    · rw [hx, isWordPart_of_isWritten he] at h
      exact nomatch h
  rw [Text.lowerAscii, String.toList_ofList]
  induction s.toList with
  | nil => exact le_rfl
  | cons x xs ih =>
    rw [List.map_cons, List.count_cons, List.count_cons]
    have hone : (if x.toLower == e then 1 else 0) ≤ if x == e then 1 else 0 := by
      by_cases hx : x.toLower = e
      · rw [hlower x hx, beq_self_eq_true, if_pos rfl]
        exact ite_le_one (le_refl 1) (Nat.zero_le 1)
      · simp [hx]
    omega

theorem loopToken_copying (he : isWritten e = false) :
    (loopToken d).Copying {1, 3, 4, 5} e := by
  intro f
  have hfield := count_lowerAscii he (f.group 4)
  simp (disch := decide) only [loopToken, loopVariable, String.toList_append, List.count_append,
    count_written he, Finset.sum_insert, Finset.sum_singleton]
  omega

theorem loopToken_neverRaises (he : isWritten e = false) : (loopToken d).NeverRaises e := by
  refine (loopToken_copying he).gives.neverRaises ?_
  simp only [loopToken, flat_append, Bool.and_eq_true]
  exact ⟨⟨flat_start 1 rfl, rfl⟩, flat_end 5⟩

theorem loopToken_lowers (d : Delimiters) : (loopToken d).Lowers '@' := by
  refine (loopToken_copying (by decide)).gives.lowers fun m n h => ?_
  obtain ⟨k, ⟨l, hstart, _, ⟨p, ⟨q, ⟨s, ⟨t, hdollar, hname⟩, hat⟩, hfield⟩, rfl⟩, hmore⟩, hend⟩ := h
  calc n.weight {1, 3, 4, 5} '@' ≤ k.weight {1, 3, 4, 5} '@' := weight_of_takes hend (flat_end 5)
    _ ≤ _ := weight_of_takes hmore rfl
    _ = p.weight {1, 3, 4, 5} '@' := Cursor.weight_keep (by decide)
    _ ≤ q.weight {1, 3, 4, 5} '@' := weight_of_takes hfield rfl
    _ < s.weight {1, 3, 4, 5} '@' := weight_lt_of_exact (by decide) hat
    _ ≤ t.weight {1, 3, 4, 5} '@' := weight_of_takes hname rfl
    _ ≤ l.weight {1, 3, 4, 5} '@' := weight_of_takes hdollar rfl
    _ ≤ m.weight {1, 3, 4, 5} '@' := weight_of_takes hstart (flat_start 1 rfl)

end Access

section Table

theorem plain_rawEcho (d : Delimiters) : (rawEcho d).Plain d :=
  plain_of_one "echo " ";" rfl rfl (fun _ => rfl) (by decide) (by decide)

/-- All rules copy what they capture in a directive, but for two that look into directives and two
for loops. -/
theorem plain_of_mem (hr : r ∈ rules d) : r.Plain d ∨ r = dottedAccess d ∨ r = loopToken d ∨
    r = foreachValue d ∨ r = foreachEntry d := by
  have hconditional : ∀ name keyword statement, keyword.flat {1} = true →
      (statement ++ " (").toList.all isWritten = true →
      (conditional d name keyword statement).Plain d := by
    intro name keyword statement hflat hstatement
    have hcontent : (keyword.flat {1} && true) = true := Bool.and_eq_true_iff.mpr ⟨hflat, rfl⟩
    exact plain_of_one (statement ++ " (") ") :" rfl (Bool.and_eq_true_iff.mpr ⟨hcontent, rfl⟩)
      (fun _ => rfl) hstatement (by decide)
  cases hr using Rule.byName with
  | dottedAccess => exact .inr (.inl rfl)
  | loopToken => exact .inr (.inr (.inl rfl))
  | each => exact .inr (.inr (.inr (.inl rfl)))
  | eachEntry => exact .inr (.inr (.inr (.inr rfl)))
  | comment => exact .inl (plain_comment d)
  | rawEcho => exact .inl (plain_rawEcho d)
  | objectProperty | unfiltered =>
    exact .inl (plain_of_one "echo strval(" ");" rfl rfl (fun _ => rfl) (by decide) (by decide))
  | ternary =>
    exact .inl (plain_of_two "echo strval(" "?" ");" rfl rfl (fun _ => rfl) (by decide) (by decide)
      (by decide))
  | assignment =>
    exact .inl (plain_of_two "" " =" ";" rfl rfl (fun f => by rw [String.empty_append]; rfl)
      (by decide) (by decide) (by decide))
  | escapedEcho =>
    exact .inl (plain_of_one "echo escape(strval(" "));" rfl rfl (fun _ => rfl) (by decide)
      (by decide))
  | loop | cond | elseCond => exact .inl (hconditional _ _ _ rfl (by decide))
  | includeFile => exact .inl (plain_include d)
  -- The rules for one word copy nothing.
  | _ => exact .inl (plain_fixed d _ _ _ rfl (by decide))

theorem neverRaises_of_mem (hr : r ∈ rules d) (he : isWritten e = false) (hdot : e ≠ '.') :
    r.NeverRaises e := by
  rcases plain_of_mem hr with hplain | rfl | rfl | rfl | rfl
  · exact hplain.neverRaises he
  · exact dottedAccess_neverRaises he
  · exact loopToken_neverRaises he
  · exact (foreachValue_gives he hdot).neverRaises (around_flat rfl)
  · exact (foreachEntry_gives he hdot).neverRaises (around_flat rfl)

theorem lowers_of_mem (hr : r ∈ rules d) (hc : c ∈ d.left.toList) (hw : isWritten c = false)
    (hdot : c ≠ '.') (hdotted : r ≠ dottedAccess d) (htoken : r ≠ loopToken d) : r.Lowers c := by
  have hword := isWordPart_of_isWritten hw
  rcases plain_of_mem hr with hplain | rfl | rfl | rfl | rfl
  · exact hplain.lowers hc hw
  · exact absurd rfl hdotted
  · exact absurd rfl htoken
  · exact (foreachValue_gives hw hdot).lowers fun m n h => weight_lt_of_around hc hword rfl h
  · exact (foreachEntry_gives hw hdot).lowers fun m n h => weight_lt_of_around hc hword rfl h

theorem neverRaises_dot (hr : r ∈ (rules d).take 4) : r.NeverRaises '.' := by
  have he : isWritten '.' = false := by decide
  simp only [rules, List.take_succ_cons, List.take_zero, List.mem_cons, List.not_mem_nil,
    or_false] at hr
  rcases hr with rfl | rfl | rfl | rfl
  · exact (plain_comment d).neverRaises he
  · exact (plain_rawEcho d).neverRaises he
  · exact dottedAccess_neverRaises he
  · exact loopToken_neverRaises he

theorem ne_of_mem_drop (hr : r ∈ (rules d).drop 4) : r ≠ dottedAccess d ∧ r ≠ loopToken d := by
  have hnames : ∀ name ∈ ((rules d).drop 4).map Rule.name,
      name ≠ "dotted-access" ∧ name ≠ "loop-token" := by
    simp [rules, objectProperty, unfiltered, ternary, assignment, escapedEcho, conditional, fixed,
      foreachValue, foreachEntry, includeFile]
  have hname := hnames r.name (List.mem_map_of_mem hr)
  exact ⟨fun h => hname.1 (congrArg Rule.name h), fun h => hname.2 (congrArg Rule.name h)⟩

end Table

section Writing

theorem exists_writes (d : Delimiters) :
    ∀ x ∈ "<?>;()".toList ++ "=!:+-".toList ++ ['\\'], ∃ r ∈ rules d, r.Writes x := by
  have hecho : ∀ x ∈ "<?>;()".toList,
      x ∈ (codeBlock ("echo escape(strval(" ++ "" ++ "));")).toList := by
    simp [codeBlock, Code.openTag, Code.closeTag]
  have hloop : ∀ x ∈ "=!:+-".toList, x ∈ (loopOpening "" ("" ++ " as $" ++ "") "").toList := by
    simp [loopOpening, codeBlock]
  have hquoted : '\\' ∈ (codeBlock ("include " ++
      quoteWord (String.ofList (Text.trim "a'".toList)) ++ ";")).toList := by decide +kernel
  refine List.forall_mem_append.mpr ⟨List.forall_mem_append.mpr ⟨fun x hx => ?_, fun x hx => ?_⟩,
    List.forall_mem_singleton.mpr ?_⟩
  · exact ⟨escapedEcho d, by simp [rules], ⟨⟨[], 0⟩, []⟩, hecho x hx, nofun⟩
  · exact ⟨foreachValue d, by simp [rules], ⟨⟨[], 0⟩, []⟩, hloop x hx, nofun⟩
  · refine ⟨includeFile d, by simp [rules], ⟨⟨[], 0⟩, [(1, ⟨"a'".toList, 2⟩)]⟩, hquoted, ?_⟩
    simp [Span.text]

theorem isWritten_of_not_writes (hword : Text.isWordPart c = false)
    (hblank : Text.isBlank c = false)
    (hpath : c ∉ "$.\"'[]".toList) (hwrites : ∀ r ∈ rules d, ¬r.Writes c) :
    isWritten c = false ∧ c ≠ '.' := by
  have hnot : c ∉ "$\"'[]<?>;()=!:+-\\".toList := by
    intro hc
    have hsigns : "$\"'[]<?>;()=!:+-\\".toList ⊆
        "$.\"'[]".toList ++ ("<?>;()".toList ++ "=!:+-".toList ++ ['\\']) := by decide
    rcases List.mem_append.mp (hsigns hc) with hsign | hsign
    · exact hpath hsign
    · obtain ⟨r, hr, hwrite⟩ := exists_writes d c hsign
      exact hwrites r hr hwrite
  refine ⟨?_, fun hdot => hpath (hdot ▸ by decide)⟩
  rw [isWritten, hword, hblank, Bool.or_self, Bool.false_or]
  simpa using hnot

theorem not_writes (he : isWritten e = false) (hr : r ∈ rules d) : ¬r.Writes e := by
  have hloop : ∀ {r : Rule}, (∀ f, (∀ k, (f.group k).toList.count e = 0) →
      (r.replacement f).toList.count e = 0) → ¬r.Writes e := by
    rintro r hcount ⟨f, hmem, hgroups⟩
    exact List.count_eq_zero.mp (hcount f (count_group hgroups)) hmem
  rcases plain_of_mem hr with ⟨_, _, -, -, hcopying⟩ | rfl | rfl | rfl | rfl
  · exact (hcopying e he).not_writes
  · exact (dottedAccess_copying he).not_writes
  · exact (loopToken_copying he).not_writes
  · refine hloop fun f hf => count_loopOpening he (hf 1) ?_ (hf 3)
    simp (disch := decide) only [String.toList_append, List.count_append, count_written he, hf]
  · refine hloop fun f hf => count_loopOpening he (hf 1) ?_ (hf 3)
    simp (disch := decide) only [String.toList_append, List.count_append, count_written he, hf]

end Writing

section Run

variable (hc : c ∈ d.left.toList) (hw : isWritten c = false) (hdot : c ≠ '.')
include hc hw hdot

/-- The rules up to those that look into directives lower one of three counts. -/
theorem applyRules_take (hcount : ∀ e ∈ [c, '.', '@'], cs.count e < maxPasses) :
    ∃ out, applyRules ((rules d).take 4) cs = .ok out ∧
      ∀ e ∈ [c, '.', '@'], out.count e ≤ cs.count e := by
  refine applyRules_ok _ _ (fun r hr => ?_) (fun r hr e he => ?_) hcount
  · by_cases hdotted : r = dottedAccess d
    · exact ⟨'.', by simp, hdotted ▸ dottedAccess_lowers d⟩
    by_cases htoken : r = loopToken d
    · exact ⟨'@', by simp, htoken ▸ loopToken_lowers d⟩
    exact ⟨c, by simp, lowers_of_mem (List.mem_of_mem_take hr) hc hw hdot hdotted htoken⟩
  · simp only [List.mem_cons, List.not_mem_nil, or_false] at he
    rcases he with rfl | rfl | rfl
    · exact neverRaises_of_mem (List.mem_of_mem_take hr) hw hdot
    · exact neverRaises_dot hr
    · exact neverRaises_of_mem (List.mem_of_mem_take hr) (by decide) (by decide)

/-- The rules behind them all lower the count of the sign. -/
theorem applyRules_drop (hcount : cs.count c < maxPasses) :
    ∃ out, applyRules ((rules d).drop 4) cs = .ok out := by
  obtain ⟨out, hout, -⟩ := applyRules_ok ((rules d).drop 4) [c]
    (fun r hr => ⟨c, List.mem_cons_self, lowers_of_mem (List.mem_of_mem_drop hr) hc hw hdot
      (ne_of_mem_drop hr).1 (ne_of_mem_drop hr).2⟩)
    (fun r hr => List.forall_mem_singleton.mpr
      (neverRaises_of_mem (List.mem_of_mem_drop hr) hw hdot))
    (List.forall_mem_singleton.mpr hcount)
  exact ⟨out, hout⟩

theorem generate_ok {source : String}
    (hcount : ∀ e ∈ [c, '.', '@'], source.toList.count e < maxPasses) :
    ∃ g, generate d source = .ok g := by
  obtain ⟨next, hnext, hle⟩ := applyRules_take hc hw hdot hcount
  obtain ⟨out, hout⟩ := applyRules_drop hc hw hdot
    ((hle c List.mem_cons_self).trans_lt (hcount c List.mem_cons_self))
  have hall : applyRules (rules d) source.toList = .ok out := by
    rw [← List.take_append_drop 4 (rules d), applyRules_append hnext, hout]
  exact ⟨_, by rw [generate, hall]; rfl⟩

end Run

/-- With a left delimiter that has a sign no rule writes, a rule that goes on matching lowers the
count of that sign, of dots or of at signs, and so every text with few of them is generated to its
end. -/
theorem generate_finishes (hc : c ∈ d.left.toList) (hword : Text.isWordPart c = false)
    (hblank : Text.isBlank c = false) (hpath : c ∉ "$.\"'[]".toList)
    (hwrites : ∀ r ∈ rules d, ¬r.Writes c) :
    (∀ r ∈ rules d, r.name ≠ "dotted-access" → r.name ≠ "loop-token" → r.Lowers c) ∧
    (dottedAccess d).Lowers '.' ∧ (loopToken d).Lowers '@' ∧
    (∀ r ∈ rules d, r.NeverRaises c ∧ r.NeverRaises '@') ∧
    (∀ r ∈ (rules d).takeWhile (·.name ≠ "dotted-access"), r.NeverRaises '.') ∧
    ∀ source : String, (∀ e ∈ [c, '.', '@'], source.toList.count e ≤ 255) →
      ∃ g, generate d source = .ok g := by
  obtain ⟨hw, hdot⟩ := isWritten_of_not_writes hword hblank hpath hwrites
  refine ⟨fun r hr hdotted htoken => lowers_of_mem hr hc hw hdot (fun h => hdotted (h ▸ rfl))
    fun h => htoken (h ▸ rfl), dottedAccess_lowers d, loopToken_lowers d, fun r hr =>
    ⟨neverRaises_of_mem hr hw hdot, neverRaises_of_mem hr (by decide) (by decide)⟩,
    fun r hr => ?_, fun source hcount => generate_ok hc hw hdot fun e he =>
    Nat.lt_succ_of_le (hcount e he)⟩
  have hfirst : (rules d).takeWhile (·.name ≠ "dotted-access") = (rules d).take 2 := rfl
  rw [hfirst] at hr
  exact neverRaises_dot (List.take_subset_take_left (rules d) (by decide) hr)

/-- A loop in braces over an entry, with a field in it. -/
theorem generate_finishes_of_braces : ∃ g, generate .braces
    "{foreach $a.b as $x}{$x@index}{$x.c}{/foreach}" = .ok g :=
  (generate_finishes (c := '{') (by decide) (by decide) (by decide) (by decide)
    fun _ hr => not_writes (by decide) hr).2.2.2.2.2 _
    fun _ _ => List.count_le_length.trans (by decide)

end Directive

end ViewTemplate
