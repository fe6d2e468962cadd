import ViewTemplate.Proofs.Decimal.Plain
import ViewTemplate.Proofs.Decimal.Whole
import ViewTemplate.Proofs.Value.Comparing
import ViewTemplate.Run.Function

namespace ViewTemplate

theorem Number.isBlank_of_numeralChar {c : Char} (h : numeralChar c = true) :
    Text.isBlank c = false := by
  simp only [numeralChar, Bool.or_eq_true, decide_eq_true_eq] at h
  rcases h with ((((h | rfl) | rfl) | rfl) | rfl) | rfl
  · exact Directive.isBlank_of_isWordChar (Code.isWordChar_of_isDigit h)
  all_goals decide

namespace Decimal.Plain

variable (p : Plain) {tail : List Char}

/-- The number that the text denotes: an integer if it has no point and fits. -/
def number : Number :=
  match p.places with
  | none =>
    match word? p.value with
    | some n => .int n
    | none => .float (nearest p.negative p.coefficient 0)
  | some ds => .float (nearest p.negative p.coefficient (-ds.length))

theorem numeralChar_of_mem {c : Char} (hc : c ∈ p.text) : Number.numeralChar c = true := by
  simp only [Number.numeralChar, p.mem_text hc, Bool.true_or]

theorem dropEndWhile_text : Text.dropEndWhile (· = '.') p.text = p.cut.text := by
  obtain ⟨cs, d, hcut, hd⟩ := p.cut.text_eq_concat p.places_cut
  have hpoint : d ≠ '.' := Code.ne_of_isDigit hd rfl
  rw [text_eq_cut, hcut, Text.dropEndWhile]
  split <;> simp [hpoint]

theorem ofNumeral?_text : Number.ofNumeral? p.text = some p.number := by
  obtain ⟨c, cs, htext⟩ := List.exists_cons_of_ne_nil p.text_ne_nil
  have hc := p.mem_text (c := c) (by rw [htext]; exact List.mem_cons_self)
  have hall : p.text.all Number.numeralChar = true :=
    List.all_eq_true.2 fun d hd => p.numeralChar_of_mem hd
  have hends : EndsPlain [] := nofun
  have hfloat := p.readFloat?_text hends
  rw [List.append_nil, readExponent?, Option.map_some, Int.zero_sub] at hfloat
  have hword : readWord? p.text = if p.places = none then word? p.value else none := by
    rw [readWord?, p.readInt?_text]
    split <;> rfl
  have hnumber : Number.ofNumeral? p.text = match readWord? p.text with
      | some n => some (.int n)
      | none => if p.text.all Number.numeralChar then (readFloat? p.text).map .float else none := by
    rw [htext]
    exact if_neg (by rw [hc]; exact Bool.false_ne_true)
  rw [hnumber, hword, hall, hfloat, number]
  cases p.places with
  | none => cases word? p.value <;> rfl
  | some ds => rfl

theorem ofText?_text : Number.ofText? (String.ofList p.text) = some p.number := by
  rw [Number.ofText?, String.toList_ofList, Number.trim_of_no_blank fun c hc => ?_, ofNumeral?_text]
  exact Number.isBlank_of_numeralChar (p.numeralChar_of_mem hc)

/-- Without its point, a number that fits is an integer. -/
theorem number_cut (h : p.places = some []) : p.cut.number =
    match word? p.value with
    | some n => .int n
    | none => .float (nearest p.negative p.coefficient 0) := by
  have hplaces : p.cut.places = none := by simp [cut, h]
  have hcoefficient : p.cut.coefficient = p.coefficient := by simp [coefficient, cut, h]
  have hvalue : p.cut.value = p.value := by
    rw [value, value, hcoefficient]
    rfl
  rw [number, hplaces, hvalue, hcoefficient]
  rfl

theorem compare_cut : p.cut.number.compare p.number = some .eq := by
  have hself := Number.compare_self_of_text p.ofText?_text
  by_cases hplaces : p.places = some []
  · have hnumber : p.number = .float (nearest p.negative p.coefficient 0) := by
      rw [number, hplaces]
      rfl
    rw [hnumber] at hself ⊢
    rw [p.number_cut hplaces]
    cases hword : word? p.value with
    | none => exact hself
    | some n =>
      show Number.compareFloats (ofWord n) _ = some .eq
      obtain ⟨hn, -⟩ := word?_eq_some hword
      -- Zero is apart, since only the double keeps its sign.
      by_cases hzero : p.coefficient = 0
      · have hn : n = 0 := Int64.toInt_inj.1 (by rw [hn, value, hzero]; simp)
        rw [hn, hzero]
        cases p.negative <;> decide
      · rw [← nearest_eq_ofWord (Nat.pos_of_ne_zero hzero) hn]
        exact hself
  · rw [p.cut_of_ne hplaces]
    exact hself

end Decimal.Plain

namespace Number

open Decimal

variable {p : Plain} {cs ds tail : List Char} {x : Number}

/-- The numeral in front of its exponent. -/
def beforeExponent (cs : List Char) : List Char := cs.takeWhile fun c => c ≠ 'e' && c ≠ 'E'

theorem digitsAndPoint_digits (seen : Bool) (hds : ∀ d ∈ ds, d.isDigit = true) :
    digitsAndPoint seen (ds ++ tail) = ds ++ digitsAndPoint seen tail := by
  induction ds with
  | nil => rfl
  | cons d ds ih =>
    obtain ⟨hd, hds⟩ := List.forall_mem_cons.1 hds
    rw [List.cons_append, digitsAndPoint, if_pos hd, ih hds]
    rfl

theorem digitsAndPoint_ends (seen : Bool) (htail : EndsPlain tail) :
    digitsAndPoint seen tail = [] := by
  cases tail with
  | nil => rfl
  | cons c tail =>
    obtain ⟨hdigit, hpoint⟩ := htail c rfl
    simp [digitsAndPoint, hdigit, hpoint]

theorem digitsAndPoint_body (p : Plain) (htail : EndsPlain tail) :
    digitsAndPoint false (p.whole ++ (p.point ++ tail)) = p.whole ++ p.point := by
  rw [digitsAndPoint_digits false p.whole_digits, Plain.point]
  cases hp : p.places with
  | none => rw [List.nil_append, digitsAndPoint_ends false htail]
  | some ds =>
    have hds : ∀ d ∈ ds, d.isDigit = true := by simpa [hp] using p.places_digits
    show _ ++ '.' :: digitsAndPoint true (ds ++ tail) = _
    rw [digitsAndPoint_digits true hds, digitsAndPoint_ends true htail, List.append_nil]

theorem numeralStart_text (p : Plain) (htail : EndsPlain tail) :
    numeralStart (p.text ++ tail) = p.text := by
  have hbody := digitsAndPoint_body p htail
  have hhead := fun c => @Plain.head?_body p tail c
  have hne : p.whole ++ (p.point ++ tail) ≠ [] := by
    rw [← List.append_assoc]
    exact List.append_ne_nil_of_left_ne_nil p.body_ne_nil tail
  have hsign := p.sign_mem
  simp only [List.mem_cons, List.not_mem_nil, or_false] at hsign
  rw [Plain.text, List.append_assoc, List.append_assoc]
  generalize p.whole ++ (p.point ++ tail) = body at hbody hhead hne
  rw [← hbody]
  rcases hsign with hsign | hsign | hsign <;> rw [hsign]
  · obtain ⟨c, rest, rfl⟩ := List.exists_cons_of_ne_nil hne
    exact if_neg (by simp [hhead c rfl])
  · rfl
  · rfl

theorem beforeExponent_text (p : Plain) {e : Int} (he : readExponent? tail = some e) :
    beforeExponent (p.text ++ tail) = p.text := by
  have htext : ∀ c ∈ p.text, (c ≠ 'e' && c ≠ 'E') = true := by
    intro c hc
    have hplain := p.mem_text hc
    rw [Bool.and_eq_true, decide_eq_true_eq, decide_eq_true_eq]
    constructor
    · rintro rfl
      exact absurd hplain (by decide)
    · rintro rfl
      exact absurd hplain (by decide)
  rw [beforeExponent, List.takeWhile_append_of_pos htext]
  cases tail with
  | nil => exact List.append_nil _
  | cons c tail =>
    rcases head?_of_readExponent? he c rfl with rfl | rfl <;>
      rw [List.takeWhile_cons_of_neg (by decide), List.append_nil]

theorem exists_of_ofNumeral? (h : ofNumeral? cs = some x) :
    ∃ (p : Plain) (tail : List Char) (e : Int),
      cs = p.text ++ tail ∧ readExponent? tail = some e := by
  obtain ⟨k, -, hk⟩ | ⟨x, -, -, -, hx⟩ := cases_of_ofNumeral? h
  · obtain ⟨i, hi, -⟩ := Option.bind_eq_some_iff.1 hk
    obtain ⟨sign, hsign, hcs⟩ := splitSign_append cs
    obtain ⟨hne, hdigits⟩ := isDigit_of_readInt? hi
    refine ⟨⟨sign, (splitSign cs).2, none, hsign, hdigits, by simp, by simpa using hne⟩, [], 0, ?_,
      rfl⟩
    rw [List.append_nil, Plain.text, Plain.point, List.append_nil]
    exact hcs
  · exact exists_of_readFloat? hx

theorem numeralChar_of_readExponent? {c : Char} {e : Int} (he : readExponent? tail = some e)
    (hc : c ∈ tail) : numeralChar c = true := by
  cases tail with
  | nil => cases hc
  | cons d more =>
    have hd := head?_of_readExponent? he d rfl
    rw [readExponent?, if_pos (by simpa using hd)] at he
    obtain ⟨sign, hsign, hmore⟩ := splitSign_append more
    rcases List.mem_cons.1 hc with rfl | hc
    · rcases hd with rfl | rfl <;> rfl
    · rw [hmore, List.mem_append] at hc
      rcases hc with hc | hc
      · have hsigns : ∀ s ∈ [[], ['+'], ['-']], ∀ c ∈ s, numeralChar c = true := by
          simp [numeralChar]
        exact hsigns sign hsign c hc
      · simp [numeralChar, (isDigit_of_readInt? he).2 c hc]

theorem numeralChar_of_ofNumeral? {c : Char} (h : ofNumeral? cs = some x) (hc : c ∈ cs) :
    numeralChar c = true := by
  obtain ⟨p, tail, e, rfl, he⟩ := exists_of_ofNumeral? h
  rcases List.mem_append.1 hc with hc | hc
  · exact p.numeralChar_of_mem hc
  · exact numeralChar_of_readExponent? he hc

theorem mem_trim {c : Char} (hc : c ∈ cs) (hblank : Text.isBlank c = false) :
    c ∈ Text.trim cs := by
  have hkeep : ∀ {ds : List Char}, c ∈ ds → c ∈ ds.dropWhile Text.isBlank := by
    intro ds hds
    rw [← List.takeWhile_append_dropWhile (p := Text.isBlank) (l := ds), List.mem_append] at hds
    rcases hds with hds | hds
    · exact absurd (List.mem_takeWhile_imp hds) (by simp [hblank])
    · exact hds
  unfold Text.trim Text.trimEnd Text.trimStart Text.dropEndWhile
  exact List.mem_reverse.2 (hkeep (List.mem_reverse.2 (hkeep hc)))

/-- Where something follows that belongs to no numeral, the exponent is left out as well. -/
theorem leading?_append {s : List Char} {c : Char} {e : Int} (he : readExponent? tail = some e)
    (hc : numeralChar c = false) (hblank : Text.isBlank c = false) :
    leading? (String.ofList (p.text ++ tail ++ c :: s)) = some p.cut.number := by
  have hnone : ofText? (String.ofList (p.text ++ tail ++ c :: s)) = none := by
    rw [ofText?, String.toList_ofList, Option.eq_none_iff_forall_ne_some]
    intro x hx
    have hmem : c ∈ p.text ++ tail ++ c :: s := by simp
    exact absurd (numeralChar_of_ofNumeral? hx (mem_trim hmem hblank)) (by simp [hc])
  -- What follows the plain number, with an exponent or without, does not go on with it.
  have hends : EndsPlain (tail ++ c :: s) := by
    cases tail with
    | nil =>
      rintro d hd
      obtain rfl : c = d := by simpa using hd
      simp only [numeralChar, Bool.or_eq_false_iff, decide_eq_false_iff_not] at hc
      exact ⟨hc.1.1.1.1.1, hc.1.1.2⟩
    | cons d tail => exact fun b hb => endsPlain_of_readExponent? he b hb
  have hstart : Text.trimStart (p.text ++ (tail ++ c :: s)) = p.text ++ (tail ++ c :: s) := by
    obtain ⟨d, ds, htext⟩ := List.exists_cons_of_ne_nil p.text_ne_nil
    have hd : numeralChar d = true := p.numeralChar_of_mem (by rw [htext]; exact List.mem_cons_self)
    rw [htext]
    exact List.dropWhile_cons_of_neg (by simp [isBlank_of_numeralChar hd])
  have hdigit : p.text.any Char.isDigit = true := by
    obtain ⟨ds, d, hcut, hd⟩ := p.cut.text_eq_concat p.places_cut
    exact List.any_eq_true.2 ⟨d, by rw [p.text_eq_cut, hcut]; simp, hd⟩
  rw [leading?, hnone]
  dsimp only
  rw [String.toList_ofList, List.append_assoc, hstart, numeralStart_text p hends, if_pos hdigit,
    p.dropEndWhile_text, p.cut.ofNumeral?_text]

theorem toFloat_beq_of_compare {x y : Number} (h : x.compare y = some .eq) :
    (x.toFloat == y.toFloat) = true := by
  cases x with
  | float x => cases y <;> exact compareFloats_eq_iff.1 h
  | int m =>
    cases y with
    | float y => exact compareFloats_eq_iff.1 h
    | int n =>
      obtain rfl : m = n := Int64.toInt_inj.1 (Int.compare_eq_eq.1 (Option.some.inj h))
      refine compareFloats_eq_iff.1 ((compareFloats_eq _ _).trans (compare_unpacked_self ?_))
      exact isNaN_ofWord m

theorem leading?_followed {n s : String} {e : Int} (hn : n.toList = p.text ++ tail)
    (he : readExponent? tail = some e) (hne : s ≠ "")
    (hs : ∀ c, s.toList.head? = some c → numeralChar c = false ∧ Text.isBlank c = false) :
    leading? (n ++ s) = some p.cut.number := by
  obtain ⟨c, cs, hcs⟩ := List.exists_cons_of_ne_nil fun h => hne (String.toList_eq_nil_iff.1 h)
  obtain ⟨hc, hblank⟩ := hs c (by rw [hcs]; rfl)
  have happend : n ++ s = String.ofList (p.text ++ tail ++ c :: cs) := by
    rw [← hn, ← hcs, ← String.toList_append, String.ofList_toList]
  rw [happend]
  exact leading?_append he hc hblank

/-- A number keeps its value when a text follows that cannot belong to it, unless it has an
exponent. What is read is what stands in front of the exponent, without a point at its end: there a
double without places becomes the integer that is equal to it. -/
theorem leading_number_followed {n s : String} {x : Number} (hn : Text.trim n.toList = n.toList)
    (hx : ofText? n = some x)
    (hs : ∀ c, s.toList.head? = some c → numeralChar c = false ∧ Text.isBlank c = false) :
    ('e' ∉ n.toList → 'E' ∉ n.toList →
      ∃ y, leading? (n ++ s) = some y ∧ y.compare x = some .eq ∧
        (Run.toFloat (.string (n ++ s)) == Run.toFloat (.string n)) = true ∧
        (n.toList.getLast? ≠ some '.' →
          y = x ∧ Run.toInt (.string (n ++ s)) = Run.toInt (.string n) ∧
          ∀ operator, Run.operand (.string (n ++ s)) operator = Run.operand (.string n) operator)) ∧
    (s ≠ "" →
      ∃ y z, leading? (n ++ s) = some y ∧
        ofText? (String.ofList (Text.dropEndWhile (· = '.') (beforeExponent n.toList))) = some y ∧
        ofText? (String.ofList (beforeExponent n.toList)) = some z ∧ y.compare z = some .eq) := by
  have hnumeral : ofNumeral? n.toList = some x := by rwa [ofText?, hn] at hx
  have hself : leading? n = some x := by rw [leading?, hx]
  obtain ⟨p, tail, e, htext, he⟩ := exists_of_ofNumeral? hnumeral
  constructor
  · intro hlower hupper
    -- Without its letter there is no exponent.
    obtain rfl : tail = [] := by
      cases tail with
      | nil => rfl
      | cons c tail =>
        have hc : c ∈ n.toList := by
          rw [htext]
          simp
        rcases head?_of_readExponent? he c rfl with rfl | rfl
        · exact absurd hc hlower
        · exact absurd hc hupper
    obtain ⟨y, hy, hcompare, hsame⟩ : ∃ y, leading? (n ++ s) = some y ∧ y.compare x = some .eq ∧
        (n.toList.getLast? ≠ some '.' → y = x) := by
      by_cases hne : s = ""
      · exact ⟨x, by rw [hne, String.append_empty, hself], compare_self_of_text hx, fun _ => rfl⟩
      · have hvalue : x = p.number := by
          rw [htext, List.append_nil, p.ofNumeral?_text] at hnumeral
          exact (Option.some.inj hnumeral).symm
        refine ⟨p.cut.number, leading?_followed htext he hne hs, by rw [hvalue, p.compare_cut],
          fun hlast => ?_⟩
        rw [hvalue, p.cut_of_ne fun hplaces => hlast ?_]
        rw [htext, List.append_nil, p.text_eq_cut, if_pos hplaces, List.getLast?_concat]
    refine ⟨y, hy, hcompare, ?_, fun hlast => ?_⟩
    · simp only [Run.toFloat, hy, hself]
      exact toFloat_beq_of_compare hcompare
    · obtain rfl := hsame hlast
      refine ⟨rfl, ?_, fun operator => ?_⟩
      · simp only [Run.toInt, hy, hself]
      · simp only [Run.operand, hy, hself]
  · intro hne
    rw [htext, beforeExponent_text p he, p.dropEndWhile_text]
    exact ⟨p.cut.number, p.number, leading?_followed htext he hne hs, p.cut.ofText?_text,
      p.ofText?_text, p.compare_cut⟩

theorem leading_number_followed_px :
    (∃ y, leading? ("1.50" ++ "px") = some y ∧
        y.compare (.float (nearest false 150 (-2))) = some .eq) ∧
      ∃ y z, leading? ("25.e3" ++ "px") = some y ∧ ofText? "25" = some y ∧ ofText? "25." = some z ∧
        y.compare z = some .eq := by
  have hpx : ∀ c, "px".toList.head? = some c →
      numeralChar c = false ∧ Text.isBlank c = false := by
    rintro c ⟨⟩
    decide
  have hdecimal : ofText? "1.50" = some (.float (nearest false 150 (-2))) := by rfl
  have hexponent : ofText? "25.e3" = some (.float (nearest false 25 3)) := by rfl
  obtain ⟨y, hy, hcompare, -⟩ :=
    (leading_number_followed (n := "1.50") (s := "px") (by decide) hdecimal hpx).1
      (by decide) (by decide)
  exact ⟨⟨y, hy, hcompare⟩,
    (leading_number_followed (n := "25.e3") (s := "px") (by decide) hexponent hpx).2 (by decide)⟩

/-- An exponent is lost in front of a unit, and a point at the end of an integer beyond `2 ^ 53`,
which is rounded with the point and exact without it. -/
theorem not_value_kept_before_unit :
    (Run.toInt (.string "1e5") = 100000 ∧ Run.toInt (.string "1e5px") = 1) ∧
      (Run.toInt (.string "9007199254740993.") = 9007199254740992 ∧
        Run.toInt (.string "9007199254740993.px") = 9007199254740993) ∧
      ¬ ∀ (n s : String) (x : Number), Text.trim n.toList = n.toList → ofText? n = some x →
        (∀ c, s.toList.head? = some c → c.isDigit = false ∧ c ∉ ['.', '+', '-', 'e', 'E'] ∧
          Text.isBlank c = false) →
        ∃ y, leading? (n ++ s) = some y ∧ y.compare x = some .eq := by
  refine ⟨by decide +kernel, by decide +kernel, fun h => ?_⟩
  have hvalue : ofText? "1e5" = some (.float (nearest false 1 5)) := by rfl
  have hone : leading? ("1e5" ++ "px") = some (.int 1) := by rfl
  obtain ⟨y, hy, hcompare⟩ := h "1e5" "px" _ (by decide) hvalue (by rintro c ⟨⟩; decide)
  obtain rfl : .int 1 = y := Option.some.inj (hone.symm.trans hy)
  exact absurd hcompare (by decide +kernel)

end Number

end ViewTemplate
