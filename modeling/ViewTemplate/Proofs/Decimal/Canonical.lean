import ViewTemplate.Value.Array
import Mathlib.Data.List.Induction
import Mathlib.Data.List.Basic
import Mathlib.Algebra.Ring.Nat

namespace ViewTemplate.Decimal

theorem natOfDigits_eq_ofDigitChars (cs : List Char) :
    natOfDigits cs = Nat.ofDigitChars 10 cs 0 :=
  Nat.ofDigitChars_eq_foldl.symm

theorem natOfDigits_append_singleton (cs : List Char) (c : Char) :
    natOfDigits (cs ++ [c]) = 10 * natOfDigits cs + (c.toNat - '0'.toNat) := by
  simp [natOfDigits]

@[simp] theorem natOfDigits_toDigits (n : Nat) : natOfDigits (Nat.toDigits 10 n) = n := by
  rw [natOfDigits_eq_ofDigitChars, Nat.ofDigitChars_ten_toDigits]

theorem digitChar_of_isDigit {c : Char} (h : c.isDigit = true) :
    Nat.digitChar (c.toNat - '0'.toNat) = c := by
  simp only [Char.isDigit, Bool.and_eq_true, decide_eq_true_eq] at h
  have hlow : 48 ≤ c.toNat := h.1
  have hhigh : c.toNat ≤ 57 := h.2
  have hzero : '0'.toNat = 48 := rfl
  apply Char.toNat_inj.mp
  rw [Nat.toNat_digitChar_of_lt_ten (by omega), hzero]
  omega

theorem digit_lt_ten {c : Char} (h : c.isDigit = true) : c.toNat - '0'.toNat < 10 := by
  simp only [Char.isDigit, Bool.and_eq_true, decide_eq_true_eq] at h
  have hhigh : c.toNat ≤ 57 := h.2
  have hzero : '0'.toNat = 48 := rfl
  omega

theorem natOfDigits_pos {cs : List Char} (hd : cs.all Char.isDigit = true) (hne : cs ≠ [])
    (hz : cs.head? ≠ some '0') : 0 < natOfDigits cs := by
  induction cs using List.reverseRecOn with
  | nil => exact absurd rfl hne
  | append_singleton cs c ih =>
    rw [natOfDigits_append_singleton]
    simp only [List.all_append, List.all_cons, List.all_nil, Bool.and_true, Bool.and_eq_true] at hd
    by_cases hcs : cs = []
    · subst hcs
      have hc : c ≠ '0' := by simpa using hz
      have : c.toNat - '0'.toNat ≠ 0 := by
        intro h0
        have := digitChar_of_isDigit hd.2
        rw [h0] at this
        exact hc this.symm
      omega
    · have := ih hd.1 hcs (by rwa [List.head?_append_of_ne_nil _ hcs] at hz)
      omega

theorem toDigits_natOfDigits {cs : List Char} (hd : cs.all Char.isDigit = true) (hne : cs ≠ [])
    (hz : cs.length = 1 ∨ cs.head? ≠ some '0') : Nat.toDigits 10 (natOfDigits cs) = cs := by
  induction cs using List.reverseRecOn with
  | nil => exact absurd rfl hne
  | append_singleton cs c ih =>
    rw [natOfDigits_append_singleton]
    simp only [List.all_append, List.all_cons, List.all_nil, Bool.and_true, Bool.and_eq_true] at hd
    have hten := digit_lt_ten hd.2
    by_cases hcs : cs = []
    · subst hcs
      simp only [natOfDigits, List.foldl_nil, Nat.mul_zero, Nat.zero_add, List.nil_append]
      rw [Nat.toDigits_of_lt_base hten, digitChar_of_isDigit hd.2]
    · have hhead : cs.head? ≠ some '0' := by
        have hpos := List.length_pos_iff.mpr hcs
        rw [List.head?_append_of_ne_nil _ hcs, List.length_append, List.length_singleton] at hz
        exact hz.resolve_left (by omega)
      have hpos := natOfDigits_pos hd.1 hcs hhead
      rw [← Nat.toDigits_append_toDigits (by decide) hpos hten, ih hd.1 hcs (.inr hhead),
        Nat.toDigits_of_lt_base hten, digitChar_of_isDigit hd.2]

theorem all_isDigit_toDigits (n : Nat) : (Nat.toDigits 10 n).all Char.isDigit = true :=
  List.all_eq_true.mpr fun _ hc => Nat.isDigit_of_mem_toDigits (by decide) (by decide) hc

theorem head?_toDigits_ne_zero {n : Nat} (hn : 0 < n) :
    (Nat.toDigits 10 n).head? ≠ some '0' := by
  induction n using Nat.strongRecOn with
  | ind n ih =>
    by_cases h : n < 10
    · rw [Nat.toDigits_of_lt_base h]
      have : n ≠ 0 := by omega
      simpa using this
    · rw [Nat.toDigits_of_base_le (by decide) (by omega),
        List.head?_append_of_ne_nil _ Nat.toDigits_ne_nil]
      exact ih (n / 10) (by omega) (by omega)

theorem toDigits_leading (n : Nat) :
    (Nat.toDigits 10 n).length = 1 ∨ (Nat.toDigits 10 n).head? ≠ some '0' := by
  rcases Nat.eq_zero_or_pos n with rfl | hn
  · exact .inl rfl
  · exact .inr (head?_toDigits_ne_zero hn)

theorem splitSign_of_isDigit {c : Char} {cs : List Char} (h : c.isDigit = true) :
    splitSign (c :: cs) = (false, c :: cs) := by
  unfold splitSign
  split
  · simp_all
  · simp_all
  · rfl

theorem readInt?_toDigits (n : Nat) : readInt? (Nat.toDigits 10 n) = some (n : Int) := by
  obtain ⟨c, cs, hcs⟩ := List.exists_cons_of_ne_nil (Nat.toDigits_ne_nil (n := n) (b := 10))
  have hall := all_isDigit_toDigits n
  have hc : c.isDigit = true := by
    rw [hcs] at hall
    simp only [List.all_cons, Bool.and_eq_true] at hall
    exact hall.1
  unfold readInt?
  rw [hcs, splitSign_of_isDigit hc, ← hcs]
  simp [hall, Nat.toDigits_ne_nil]

theorem readInt?_minus {c : Char} {cs : List Char} (hc : c.isDigit = true) :
    readInt? ('-' :: c :: cs) = (readInt? (c :: cs)).map (-·) := by
  rw [readInt?, readInt?, splitSign_of_isDigit hc]
  simp only [splitSign]
  split <;> rfl

theorem readInt?_toString (i : Int) : readInt? (toString i).toList = some i := by
  cases i with
  | ofNat n =>
    show readInt? (toString n).toList = _
    rw [Nat.toString_eq_repr, Nat.toList_repr]
    exact readInt?_toDigits n
  | negSucc n =>
    have htext : (toString (Int.negSucc n)).toList = '-' :: Nat.toDigits 10 (n + 1) := by
      show ("-" ++ (n + 1).repr).toList = _
      rw [String.toList_append, Nat.toList_repr]
      rfl
    obtain ⟨c, cs, hcs⟩ := List.exists_cons_of_ne_nil (Nat.toDigits_ne_nil (n := n + 1) (b := 10))
    have hc : c.isDigit = true := by
      apply List.all_eq_true.mp (all_isDigit_toDigits (n + 1))
      rw [hcs]
      exact List.mem_cons_self
    rw [htext, hcs, readInt?_minus hc, ← hcs, readInt?_toDigits]
    rfl

theorem readWord?_toString_int {i : Int} (hmin : Int64.minValue.toInt ≤ i)
    (hmax : i ≤ Int64.maxValue.toInt) :
    (readWord? (toString i).toList).map Int64.toInt = some i := by
  have hlt : Int64.maxValue.toInt < 2 ^ 63 := by decide
  rw [readWord?, readInt?_toString]
  change (word? i).map Int64.toInt = some i
  rw [word?, if_pos ⟨hmin, hmax⟩, Option.map_some, Int64.toInt_ofInt_of_le hmin (by omega)]

theorem readWord?_toString {n : Nat} (h : n ≤ Int64.maxValue.toInt) :
    (readWord? (toString n).toList).map Int64.toInt = some (n : Int) := by
  have hmin : Int64.minValue.toInt ≤ 0 := by decide
  have hint : toString n = toString (n : Int) := rfl
  rw [hint]
  exact readWord?_toString_int (by omega) h

end ViewTemplate.Decimal

namespace ViewTemplate.Value

/-- A list position is read from exactly the text that it is written as. -/
theorem indexText?_eq_some_iff {s : String} {n : Nat} :
    indexText? s = some n ↔ s = toString n ∧ n < UInt64.size := by
  constructor
  · intro h
    simp only [indexText?] at h
    split at h
    · rename_i hc
      simp only [Bool.and_eq_true, Bool.not_eq_true', List.isEmpty_eq_false_iff, Bool.or_eq_true,
        decide_eq_true_eq, ne_eq] at hc
      obtain ⟨⟨⟨hd, hne⟩, hz⟩, hlt⟩ := hc
      cases h
      refine ⟨?_, hlt⟩
      rw [Nat.toString_eq_repr, Nat.repr_eq_ofList_toDigits, Decimal.toDigits_natOfDigits hd hne hz,
        String.ofList_toList]
    · cases h
  · rintro ⟨rfl, hlt⟩
    simp only [indexText?, Nat.toString_eq_repr, Nat.toList_repr, Decimal.natOfDigits_toDigits]
    rw [if_pos]
    simp [Decimal.all_isDigit_toDigits, Nat.toDigits_ne_nil, Decimal.toDigits_leading, hlt]

end ViewTemplate.Value
