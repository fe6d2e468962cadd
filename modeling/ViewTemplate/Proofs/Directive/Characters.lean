import ViewTemplate.Directive.Rule
import ViewTemplate.Proofs.Directive.Template

namespace ViewTemplate

namespace Text

theorem find?_point {runs : List MapRun} {n k : Nat} (h : MapRun.find? runs n = some k) :
    ∃ run ∈ runs, run.first ≤ n ∧ n ≤ run.last ∧ (n - run.first) % run.step = 0 ∧
      k = (n + run.shift).toNat := by
  induction runs with
  | nil => cases h
  | cons run runs ih =>
    rw [MapRun.find?] at h
    split at h
    · cases h
    split at h
    · split at h
      · cases h
        exact ⟨run, List.mem_cons_self, by omega, ‹_›, ‹_›, rfl⟩
      · cases h
    · obtain ⟨found, hmem, hfound⟩ := ih h
      exact ⟨found, List.mem_cons_of_mem _ hmem, hfound⟩

theorem find?_image {runs : List MapRun} {n k : Nat} (h : MapRun.find? runs n = some k) :
    ∃ run ∈ runs, run.first ≤ n ∧ n ≤ run.last ∧ k = (n + run.shift).toNat := by
  obtain ⟨run, hmem, hfirst, hlast, -, hk⟩ := find?_point h
  exact ⟨run, hmem, hfirst, hlast, hk⟩

theorem foldRuns_avoid_braces : ∀ run ∈ foldRuns,
    (run.last : Int) + run.shift < 0x7b ∨ 0x7d < (run.first : Int) + run.shift := by
  decide +kernel

theorem toLower_eq_self {c d : Char} (hd : 0x7b ≤ d.toNat) (h : c.toLower = d) : c = d := by
  unfold Char.toLower at h
  split at h
  · rename_i hupper
    have hlow : 65 ≤ c.toNat := UInt32.le_iff_toNat_le.mp hupper.1
    have hhigh : c.toNat ≤ 90 := UInt32.le_iff_toNat_le.mp hupper.2
    have hsum : (c.val + ('a'.val - 'A'.val)).toNat = c.toNat + 32 := by
      rw [UInt32.toNat_add]
      show (c.toNat + 32) % 2 ^ 32 = c.toNat + 32
      omega
    have hn : d.toNat = c.toNat + 32 := by rw [← h, ← hsum]; rfl
    omega
  · exact h

theorem toNat_ofNat_le (n : Nat) : (Char.ofNat n).toNat = n ∨ (Char.ofNat n).toNat = 0 := by
  by_cases h : n.isValidChar
  · rw [Char.ofNat, dif_pos h]
    exact .inl rfl
  · rw [Char.ofNat, dif_neg h]
    exact .inr rfl

/-- Only a brace folds to a brace. -/
theorem eq_of_foldChar {c d : Char} (hlow : 0x7b ≤ d.toNat) (hhigh : d.toNat ≤ 0x7d)
    (h : foldChar c = d) : c = d := by
  unfold foldChar at h
  split at h
  · exact toLower_eq_self hlow h
  · unfold mapChar at h
    split at h
    · rename_i n hn
      obtain ⟨run, hmem, hfirst, hlast, hk⟩ := find?_image hn
      have havoid := foldRuns_avoid_braces run hmem
      have hd := toNat_ofNat_le n
      rw [h] at hd
      omega
    · exact h

theorem foldChar_leftBrace {c : Char} (h : foldChar c = '{') : c = '{' :=
  eq_of_foldChar (by decide) (by decide) h

theorem foldChar_rightBrace {c : Char} (h : foldChar c = '}') : c = '}' :=
  eq_of_foldChar (by decide) (by decide) h

end Text

namespace Directive

theorem toNat_of_isWordChar {c : Char} (h : isWordChar c = true) :
    (48 ≤ c.toNat ∧ c.toNat ≤ 57) ∨ (65 ≤ c.toNat ∧ c.toNat ≤ 90) ∨ c.toNat = 95 ∨
      (97 ≤ c.toNat ∧ c.toNat ≤ 122) := by
  have hdef : isWordChar c = (((decide (65 ≤ c.val ∧ c.val ≤ 90) ||
      (decide (97 ≤ c.val) && decide (c.val ≤ 122))) ||
      (decide (48 ≤ c.val) && decide (c.val ≤ 57))) || decide (c = '_')) := rfl
  simp only [hdef, Bool.or_eq_true, Bool.and_eq_true, decide_eq_true_eq,
    UInt32.le_iff_toNat_le] at h
  rcases h with ((h | h) | h) | rfl
  · exact .inr (.inl h)
  · exact .inr (.inr (.inr h))
  · exact .inl h
  · exact .inr (.inr (.inl rfl))

theorem isBlank_of_isWordChar {c : Char} (h : isWordChar c = true) : Text.isBlank c = false := by
  have hn := toNat_of_isWordChar h
  have hspace : c ≠ ' ' := by
    rintro rfl
    revert h
    decide
  simp only [Text.isBlank, Bool.or_eq_false_iff, Bool.and_eq_false_iff, decide_eq_false_iff_not]
  refine ⟨⟨⟨⟨⟨⟨⟨⟨⟨⟨hspace, ?_⟩, ?_⟩, ?_⟩, ?_⟩, ?_⟩, ?_⟩, ?_⟩, ?_⟩, ?_⟩, ?_⟩ <;> omega

theorem isWordPart_of_isWordChar {c : Char} (h : isWordChar c = true) :
    Text.isWordPart c = true := by
  have hn := toNat_of_isWordChar h
  rw [Text.isWordPart, if_pos (by omega)]
  exact h

theorem isNamePart_of_isWordChar {c : Char} (h : isWordChar c = true) :
    Text.isNamePart c = true := by
  have hn := toNat_of_isWordChar h
  have hascii : c.toNat < 0x80 := by omega
  simp only [isWordChar, Char.isAlphanum] at h
  simp only [Text.isNamePart, Text.isAlphanumeric, Text.isAlphabetic, Text.isNumber, if_pos hascii]
  exact h

theorem isWordChar_of_isAlpha {c : Char} (h : c.isAlpha = true ∨ c = '_') :
    isWordChar c = true := by
  rcases h with h | rfl
  · simp [isWordChar, Char.isAlphanum, h]
  · rfl

theorem Identifier.isWordChar (x : Identifier) : ∀ c ∈ x.chars, isWordChar c = true := by
  intro c hc
  rcases List.mem_cons.mp hc with rfl | hc
  · exact isWordChar_of_isAlpha x.head_ok
  · exact x.tail_ok c hc

def isPathChar (c : Char) : Bool := isWordChar c || ['[', ']', '\''].contains c

def isDirectiveChar (c : Char) : Bool := isPathChar c || ['$', ' ', '/', '=', '>'].contains c

section Characters

variable {c : Char}

theorem isBlank_of_isPathChar (h : isPathChar c = true) : Text.isBlank c = false := by
  rw [isPathChar, Bool.or_eq_true] at h
  rcases h with h | h
  · exact isBlank_of_isWordChar h
  · rw [List.contains_iff_mem] at h
    simp only [List.mem_cons, List.not_mem_nil, or_false] at h
    rcases h with rfl | rfl | rfl <;> rfl

theorem isAccess_of_isPathChar {others : String} (h : isPathChar c = true)
    (hothers : ['[', ']', '\''] ⊆ others.toList) :
    (Text.isWordPart c || others.toList.contains c) = true := by
  rw [isPathChar, Bool.or_eq_true, List.contains_iff_mem] at h
  rw [Bool.or_eq_true, List.contains_iff_mem]
  exact h.imp isWordPart_of_isWordChar (@hothers c)

theorem ne_of_isPathChar {d : Char} (h : isPathChar c = true) (hd : isPathChar d = false) :
    c ≠ d := by
  rintro rfl
  rw [h] at hd
  cases hd

theorem isDirectiveChar_of_path {cs : List Char} (h : ∀ c ∈ cs, isPathChar c = true) :
    ∀ c ∈ cs, isDirectiveChar c = true := by
  intro c hc
  rw [isDirectiveChar, h c hc]
  rfl

theorem Identifier.isPathChar (x : Identifier) : ∀ c ∈ x.chars, isPathChar c = true := by
  intro c hc
  rw [Directive.isPathChar, x.isWordChar c hc]
  rfl

theorem Use.before_chars (use : Use) : ∀ c ∈ use.before, isDirectiveChar c = true := by
  cases use <;> exact List.all_eq_true.mp rfl

theorem Use.after_chars (use : Use) : ∀ c ∈ use.after, isDirectiveChar c = true := by
  cases use with
  | each key value =>
    have hvalue := isDirectiveChar_of_path value.isPathChar
    have has : ∀ c ∈ [' ', 'a', 's', ' ', '$'], isDirectiveChar c = true :=
      List.all_eq_true.mp rfl
    cases key with
    | none => exact List.forall_mem_append.mpr ⟨has, hvalue⟩
    | some key =>
      have hkey := isDirectiveChar_of_path key.isPathChar
      have harrow : ∀ c ∈ [' ', '=', '>', ' ', '$'], isDirectiveChar c = true :=
      List.all_eq_true.mp rfl
      exact List.forall_mem_append.mpr ⟨List.forall_mem_append.mpr
        ⟨List.forall_mem_append.mpr ⟨has, hkey⟩, harrow⟩, hvalue⟩
  | _ => exact List.all_eq_true.mp rfl

theorem Word.directiveChars (w : Word) : ∀ c ∈ w.chars, isDirectiveChar c = true := by
  cases w <;> exact List.all_eq_true.mp rfl

end Characters

end Directive

end ViewTemplate
