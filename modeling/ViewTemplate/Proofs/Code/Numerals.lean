import ViewTemplate.Proofs.Code.Lexemes
import ViewTemplate.Run.Operator
import Mathlib

namespace ViewTemplate

namespace Decimal

variable {c : Char} {cs : List Char} {k : Int}

theorem splitSign_append (cs : List Char) :
    ∃ s ∈ [[], ['+'], ['-']], cs = s ++ (splitSign cs).2 := by
  unfold splitSign
  split <;> simp

theorem isDigit_of_readInt? (h : readInt? cs = some k) :
    (splitSign cs).2 ≠ [] ∧ ∀ d ∈ (splitSign cs).2, d.isDigit = true := by
  unfold readInt? at h
  dsimp only at h
  split at h
  · cases h
  · rename_i hdigits
    simpa using hdigits

theorem readInt?_digits (hdigits : ∀ d ∈ c :: cs, d.isDigit = true) :
    readInt? (c :: cs) = some (natOfDigits (c :: cs) : Int) := by
  rw [readInt?, splitSign_of_isDigit (hdigits c List.mem_cons_self)]
  exact if_neg (by simpa using hdigits)

theorem readInt?_of_isDigit (hc : c.isDigit = true) (h : readInt? (c :: cs) = some k) :
    k = natOfDigits (c :: cs) ∧ ∀ d ∈ c :: cs, d.isDigit = true := by
  have hdigits := (isDigit_of_readInt? h).2
  rw [splitSign_of_isDigit hc] at hdigits
  exact ⟨Option.some.inj (h.symm.trans (readInt?_digits hdigits)), hdigits⟩

theorem readInt?_plus (hc : c.isDigit = true) : readInt? ('+' :: c :: cs) = readInt? (c :: cs) := by
  rw [readInt?, readInt?, splitSign_of_isDigit hc]
  rfl

theorem readFloat?_plus (hc : c.isDigit = true) :
    readFloat? ('+' :: c :: cs) = readFloat? (c :: cs) := by
  rw [readFloat?, readFloat?, splitSign_of_isDigit hc]
  rfl

theorem readFloat?_minus (hc : c.isDigit = true) :
    readFloat? ('-' :: c :: cs) = (readFloat? (c :: cs)).map (-·) := by
  rw [readFloat?, readFloat?, splitSign_of_isDigit hc]
  simp only [splitSign, List.takeWhile_cons_of_pos hc, List.isEmpty_cons, Bool.false_and,
    Bool.false_eq_true, if_false, Option.map_map]
  rfl

theorem readFloat?_of_isDigit (hdigits : ∀ d ∈ c :: cs, d.isDigit = true) :
    readFloat? (c :: cs) = some (nearest false (natOfDigits (c :: cs)) 0) := by
  have hc := hdigits c List.mem_cons_self
  rw [readFloat?, splitSign_of_isDigit hc]
  simp only [List.takeWhile_eq_self_iff.mpr hdigits, List.dropWhile_eq_nil_iff.mpr hdigits]
  simp [readExponent?]

theorem word?_eq_some {n : Int64} (h : word? k = some n) :
    n.toInt = k ∧ Int64.minValue.toInt ≤ k ∧ k ≤ Int64.maxValue.toInt := by
  unfold word? at h
  split at h
  · rename_i hk
    cases h
    have hmax : Int64.maxValue.toInt < 2 ^ 63 := by decide
    exact ⟨Int64.toInt_ofInt_of_le hk.1 (by omega), hk⟩
  · cases h

theorem word?_eq_none (h : word? k = none) :
    k < Int64.minValue.toInt ∨ Int64.maxValue.toInt < k := by
  unfold word? at h
  split at h
  · cases h
  · omega

end Decimal

namespace Code

open Decimal

/-- Behind each point is a digit. -/
def pointsLead : List Char → Bool
  | [] => true
  | c :: cs => (c != '.' || startsWithDigit cs) && pointsLead cs

variable {c : Char} {b f : Bool} {cs ds r : List Char} {x : Float}

theorem pointsLead_append (h : pointsLead (ds ++ r) = true) : pointsLead r = true := by
  induction ds with
  | nil => exact h
  | cons d ds ih =>
    rw [List.cons_append, pointsLead, Bool.and_eq_true] at h
    exact ih h.2

theorem pointsLead_of_digits (h : ∀ d ∈ ds, d.isDigit = true) : pointsLead ds = true := by
  induction ds with
  | nil => rfl
  | cons d ds ih =>
    obtain ⟨hd, hmore⟩ := List.forall_mem_cons.mp h
    have hpoint : d ≠ '.' := ne_of_isDigit hd rfl
    simp [pointsLead, hpoint, ih hmore]

theorem Numeral.of_dropWhile (h : Numeral b (cs.dropWhile Char.isDigit) f) : Numeral b cs f := by
  have hdigits : ∀ d ∈ cs.takeWhile Char.isDigit, d.isDigit = true :=
    fun d hd => List.mem_takeWhile_imp hd
  have hall := h.digits hdigits
  rwa [List.takeWhile_append_dropWhile] at hall

theorem numeral_of_readExponent? {e : Int} (h : readExponent? cs = some e) (b : Bool) :
    ∃ f, Numeral b cs f := by
  cases cs with
  | nil => exact ⟨b, .nil⟩
  | cons c rest =>
    rw [readExponent?] at h
    split at h
    · rename_i hc
      have hc : c = 'e' ∨ c = 'E' := by simpa using hc
      obtain ⟨hne, hdigits⟩ := isDigit_of_readInt? h
      obtain ⟨s, hs, hrest⟩ := splitSign_append rest
      obtain ⟨d, ds, hds⟩ := List.exists_cons_of_ne_nil hne
      rw [hds] at hdigits hrest
      have hstarts : startsWithDigit (d :: ds) = true := hdigits d List.mem_cons_self
      have hnumeral : Numeral true (d :: ds) true := numeral_of_digits hdigits
      simp only [List.mem_cons, List.not_mem_nil, or_false] at hs
      rcases hs with rfl | rfl | rfl <;> rw [hrest]
      · exact ⟨true, .exponent hc hstarts hnumeral⟩
      · exact ⟨true, .signed hc (.inl rfl) hstarts hnumeral⟩
      · exact ⟨true, .signed hc (.inr rfl) hstarts hnumeral⟩
    · cases h

theorem numeral_of_readFloat? (hc : c.isDigit = true) (h : readFloat? (c :: cs) = some x)
    (hpoints : pointsLead (c :: cs) = true) : ∃ f, Numeral false cs f := by
  rw [readFloat?, splitSign_of_isDigit hc] at h
  simp only [List.takeWhile_cons_of_pos hc, List.dropWhile_cons_of_pos hc, List.isEmpty_cons,
    Bool.false_and, Bool.false_eq_true, if_false] at h
  obtain ⟨e, he, -⟩ := Option.map_eq_some_iff.mp h
  -- Behind the digits stands a fraction or an exponent, or nothing.
  suffices hrest : ∃ f, Numeral false (cs.dropWhile Char.isDigit) f by
    obtain ⟨f, hf⟩ := hrest
    exact ⟨f, hf.of_dropWhile⟩
  split at he
  · rename_i more hmore
    have hbehind : pointsLead ('.' :: more) = true := by
      have hsplit : c :: cs = c :: cs.takeWhile Char.isDigit ++ cs.dropWhile Char.isDigit := by
        rw [List.cons_append, List.takeWhile_append_dropWhile]
      rw [hsplit] at hpoints
      rw [← hmore]
      exact pointsLead_append hpoints
    have hstarts : startsWithDigit more = true := by
      rw [pointsLead, Bool.and_eq_true] at hbehind
      simpa using hbehind.1
    obtain ⟨f, hf⟩ := numeral_of_readExponent? he true
    rw [hmore]
    exact ⟨f, .fraction hstarts hf.of_dropWhile⟩
  · exact numeral_of_readExponent? he false

end Code

namespace Number

open Decimal Code

def token : Number → Token
  | .int n => .int n
  | .float x => .float x

/-- What the code of a number evaluates to: the digits of the least integer are too large for an
integer, and its sign applies to the double. -/
def inCode : Number → Value
  | .int n => if n = Int64.minValue then .float (nearest true (2 ^ 63) 0) else .int n
  | .float x => .float x

variable {n : Number} {c : Char} {cs : List Char}

theorem trim_cons {c : Char} (hc : Text.isBlank c = false) (cs : List Char) :
    ∃ more, Text.trim (c :: cs) = c :: more := by
  unfold Text.trim Text.trimEnd Text.dropEndWhile
  rw [Text.trimStart, List.dropWhile_cons_of_neg (by simp [hc])]
  obtain ⟨ds, hds⟩ : ∃ ds, (c :: cs).reverse.dropWhile Text.isBlank = ds ++ [c] := by
    rw [List.reverse_cons, List.dropWhile_append]
    split
    · exact ⟨[], by simp [hc]⟩
    · exact ⟨_, rfl⟩
  exact ⟨ds.reverse, by rw [hds, List.reverse_append]; rfl⟩

theorem trim_of_no_blank {cs : List Char} (h : ∀ c ∈ cs, Text.isBlank c = false) :
    Text.trim cs = cs := by
  have hself : ∀ {ds : List Char}, (∀ c ∈ ds, Text.isBlank c = false) →
      ds.dropWhile Text.isBlank = ds := by
    intro ds hds
    cases ds with
    | nil => rfl
    | cons d ds => exact List.dropWhile_cons_of_neg (by simp [hds d List.mem_cons_self])
  rw [Text.trim, Text.trimStart, hself h, Text.trimEnd, Text.dropEndWhile,
    hself fun c hc => h c (List.mem_reverse.mp hc), List.reverse_reverse]

theorem ofText?_eq_none {s : String} {c : Char} {cs : List Char} (hs : s.toList = c :: cs)
    (hc : c.isAlpha = true ∨ c = '_') : ofText? s = none := by
  have hblank := Directive.isBlank_of_isWordChar (Directive.isWordChar_of_isAlpha hc)
  obtain ⟨more, htrim⟩ := trim_cons hblank cs
  have hstart : (c.isDigit || c = '+' || c = '-' || c = '.') = false := by
    have hdigit := isDigit_eq_false hc
    rcases hc with hc | rfl
    · have hsign : ∀ d : Char, d.isAlpha = false → c ≠ d := by
        rintro d hd rfl
        exact Bool.false_ne_true (hd.symm.trans hc)
      simp [hdigit, hsign]
    · decide
  unfold ofText?
  rw [hs, htrim, ofNumeral?, if_pos (by rw [hstart]; rfl)]

theorem cases_of_ofNumeral? (h : ofNumeral? cs = some n) :
    (∃ k, n = .int k ∧ readWord? cs = some k) ∨
      ∃ x, n = .float x ∧ readWord? cs = none ∧ cs.all numeralChar = true ∧
        readFloat? cs = some x := by
  unfold ofNumeral? at h
  split at h
  · cases h
  split at h
  · cases h
  split at h
  · rename_i k hk
    exact .inl ⟨k, (Option.some.inj h).symm, hk⟩
  · rename_i hnone
    split at h
    · rename_i hall
      obtain ⟨x, hx, rfl⟩ := Option.map_eq_some_iff.mp h
      exact .inr ⟨x, rfl, hnone, hall, hx⟩
    · cases h

theorem ofNumeral?_int {k : Int64} (hc : c.isDigit = true) (h : readWord? (c :: cs) = some k) :
    ofNumeral? (c :: cs) = some (.int k) := by
  rw [ofNumeral?, if_neg (by simp [hc]), h]

theorem ofNumeral?_float {x : Float} (hc : c.isDigit = true) (hword : readWord? (c :: cs) = none)
    (hall : (c :: cs).all numeralChar = true) (h : readFloat? (c :: cs) = some x) :
    ofNumeral? (c :: cs) = some (.float x) := by
  rw [ofNumeral?, if_neg (by simp [hc]), hword]
  dsimp only
  rw [if_pos hall, h]
  rfl

/-- A numeral of a value is one of the code, if digits stand at its start and behind each point. -/
theorem numeralToken_of_ofNumeral? (hc : c.isDigit = true) (h : ofNumeral? (c :: cs) = some n)
    (hpoints : pointsLead (c :: cs) = true) :
    ∃ f, Numeral false cs f ∧ ∀ line, numeralToken (c :: cs) f line = .ok n.token := by
  obtain ⟨k, rfl, hk⟩ | ⟨x, rfl, hnone, -, hx⟩ := cases_of_ofNumeral? h
  · obtain ⟨i, hi, -⟩ := Option.bind_eq_some_iff.mp hk
    have hdigits := (readInt?_of_isDigit hc hi).2
    refine ⟨false, numeral_of_digits fun d hd => hdigits d (List.mem_cons_of_mem _ hd),
      fun line => ?_⟩
    rw [numeralToken, if_neg Bool.false_ne_true, hk]
    rfl
  · obtain ⟨f, hf⟩ := numeral_of_readFloat? hc hx hpoints
    refine ⟨f, hf, fun line => ?_⟩
    rw [numeralToken, hnone, ite_self]
    dsimp only
    rw [hx]
    rfl

theorem inCode_of_isDigit (hc : c.isDigit = true) (h : ofNumeral? (c :: cs) = some n) :
    n.inCode = n.toValue := by
  obtain ⟨k, rfl, hk⟩ | ⟨x, rfl, -⟩ := cases_of_ofNumeral? h
  · have hpos := readWord?_nonneg hc hk
    refine if_neg ?_
    rintro rfl
    exact absurd hpos (by decide)
  · rfl

theorem ofNumeral?_plus (hc : c.isDigit = true) :
    ofNumeral? ('+' :: c :: cs) = ofNumeral? (c :: cs) := by
  have hword : readWord? ('+' :: c :: cs) = readWord? (c :: cs) := by
    rw [readWord?, readInt?_plus hc, readWord?]
  have hall : ('+' :: c :: cs).all numeralChar = (c :: cs).all numeralChar := by
    rw [List.all_cons]
    exact Bool.true_and _
  rw [ofNumeral?, ofNumeral?, hword, readFloat?_plus hc, hall, hc]
  rfl

/-- The sign of a numeral applies to the number behind it. -/
theorem ofNumeral?_minus (hc : c.isDigit = true) (h : ofNumeral? ('-' :: c :: cs) = some n) :
    ∃ k, ofNumeral? (c :: cs) = some k ∧ Run.neg k = n.inCode := by
  have hmin : Int64.minValue.toInt = -2 ^ 63 := by decide
  have hmax : Int64.maxValue.toInt = 2 ^ 63 - 1 := by decide
  obtain ⟨k, rfl, hk⟩ | ⟨x, rfl, hnone, hall, hx⟩ := cases_of_ofNumeral? h
  · rw [readWord?, readInt?_minus hc] at hk
    obtain ⟨_, hneg, hword⟩ := Option.bind_eq_some_iff.mp hk
    obtain ⟨i, hi, rfl⟩ := Option.map_eq_some_iff.mp hneg
    obtain ⟨hvalue, hdigits⟩ := readInt?_of_isDigit hc hi
    obtain ⟨hki, hlow, -⟩ := word?_eq_some hword
    cases hj : word? i with
    | some j =>
      have hji := word?_eq_some hj
      have hread : readWord? (c :: cs) = some j := by rw [readWord?, hi]; exact hj
      refine ⟨.int j, ofNumeral?_int hc hread, ?_⟩
      have hne : k ≠ Int64.minValue := by
        rintro rfl
        omega
      rw [Run.neg, Run.exactOr, hji.1, Option.bind_eq_bind, Option.bind_some, hword, inCode,
        if_neg hne]
    | none =>
      -- Only `2 ^ 63` fits with a sign and not without one: it is read as a double.
      have hi63 : i = 2 ^ 63 := by
        have hout := word?_eq_none hj
        omega
      have hread : readWord? (c :: cs) = none := by rw [readWord?, hi]; exact hj
      have hfloat := readFloat?_of_isDigit hdigits
      refine ⟨.float _, ofNumeral?_float hc hread ?_ hfloat, ?_⟩
      · exact List.all_eq_true.mpr fun d hd => by simp [numeralChar, hdigits d hd]
      · have hk63 : k = Int64.minValue := Int64.toInt_inj.mp (by omega)
        have hnat : natOfDigits (c :: cs) = 2 ^ 63 := by omega
        rw [inCode, if_pos hk63, hnat]
        rfl
  · rw [readFloat?_minus hc] at hx
    obtain ⟨y, hy, rfl⟩ := Option.map_eq_some_iff.mp hx
    -- What does not fit with a sign does not fit without one.
    have hread : readWord? (c :: cs) = none := by
      cases hi : readInt? (c :: cs) with
      | none => rw [readWord?, hi]; rfl
      | some i =>
        obtain ⟨hvalue, -⟩ := readInt?_of_isDigit hc hi
        rw [readWord?, readInt?_minus hc, hi] at hnone
        have hout : -i < _ ∨ _ < -i := word?_eq_none hnone
        cases hj : word? i with
        | none => rw [readWord?, hi]; exact hj
        | some j =>
          have hji := word?_eq_some hj
          omega
    rw [List.all_cons, Bool.and_eq_true] at hall
    exact ⟨.float y, ofNumeral?_float hc hread hall.2 hy, rfl⟩

end Number

end ViewTemplate
