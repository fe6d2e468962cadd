import ViewTemplate.Proofs.Code.Numerals

namespace ViewTemplate.Decimal

/-- A decimal number without an exponent, by its parts: `-12.50`. -/
structure Plain where
  sign : List Char
  whole : List Char
  /-- The digits behind the point, if there is a point. -/
  places : Option (List Char)
  sign_mem : sign ∈ [[], ['+'], ['-']]
  whole_digits : ∀ d ∈ whole, d.isDigit = true
  places_digits : ∀ d ∈ places.getD [], d.isDigit = true
  ne_nil : whole ++ places.getD [] ≠ []

/-- What can stand behind a plain number without being a part of it. -/
def EndsPlain (tail : List Char) : Prop := ∀ c, tail.head? = some c → c.isDigit = false ∧ c ≠ '.'

variable {cs ds tail : List Char} {x : Float}

theorem takeWhile_digits (hds : ∀ d ∈ ds, d.isDigit = true)
    (htail : ∀ c, tail.head? = some c → c.isDigit = false) :
    (ds ++ tail).takeWhile Char.isDigit = ds := by
  rw [List.takeWhile_append_of_pos hds]
  cases tail with
  | nil => exact List.append_nil ds
  | cons c tail => rw [List.takeWhile_cons_of_neg (by simp [htail c rfl]), List.append_nil]

theorem dropWhile_digits (hds : ∀ d ∈ ds, d.isDigit = true)
    (htail : ∀ c, tail.head? = some c → c.isDigit = false) :
    (ds ++ tail).dropWhile Char.isDigit = tail := by
  rw [List.dropWhile_append_of_pos hds]
  cases tail with
  | nil => rfl
  | cons c tail => exact List.dropWhile_cons_of_neg (by simp [htail c rfl])

theorem head?_of_readExponent? {e : Int} (h : readExponent? tail = some e) :
    ∀ c, tail.head? = some c → c = 'e' ∨ c = 'E' := by
  intro c hc
  cases tail with
  | nil => cases hc
  | cons d tail =>
    obtain rfl : d = c := by simpa using hc
    rw [readExponent?] at h
    split at h
    · rename_i hd
      simpa using hd
    · cases h

theorem endsPlain_of_readExponent? {e : Int} (h : readExponent? tail = some e) :
    EndsPlain tail := by
  intro c hc
  rcases head?_of_readExponent? h c hc with rfl | rfl <;> decide

namespace Plain

variable (p : Plain)

def point : List Char :=
  match p.places with
  | none => []
  | some ds => '.' :: ds

def text : List Char := p.sign ++ (p.whole ++ p.point)

def negative : Bool := p.sign = ['-']

def coefficient : Nat := natOfDigits (p.whole ++ p.places.getD [])

def value : Int := if p.negative then -(p.coefficient : Int) else p.coefficient

theorem head?_point {c : Char} (htail : EndsPlain tail) (h : (p.point ++ tail).head? = some c) :
    c.isDigit = false := by
  unfold point at h
  split at h
  · exact (htail c h).1
  · cases h
    rfl

theorem head?_body (tail : List Char) {c : Char}
    (h : (p.whole ++ (p.point ++ tail)).head? = some c) :
    c ≠ '+' ∧ c ≠ '-' := by
  cases hwhole : p.whole with
  | cons d ds =>
    rw [hwhole] at h
    obtain rfl : d = c := by simpa using h
    have hd : d.isDigit = true := p.whole_digits d (by rw [hwhole]; exact List.mem_cons_self)
    exact ⟨Code.ne_of_isDigit hd rfl, Code.ne_of_isDigit hd rfl⟩
  | nil =>
    have hne := p.ne_nil
    rw [hwhole] at h hne
    unfold point at h
    split at h
    · rename_i hplaces
      rw [hplaces] at hne
      exact absurd rfl hne
    · obtain rfl : '.' = c := by simpa using h
      decide

theorem body_ne_nil : p.whole ++ p.point ≠ [] := by
  have hne := p.ne_nil
  unfold point
  cases hp : p.places with
  | none => simpa [hp] using hne
  | some ds => simp

theorem text_ne_nil : p.text ≠ [] := List.append_ne_nil_of_right_ne_nil p.sign p.body_ne_nil

theorem mem_text {c : Char} (hc : c ∈ p.text) :
    (c.isDigit || c = '+' || c = '-' || c = '.') = true := by
  have hsigns : ∀ s ∈ [[], ['+'], ['-']], ∀ c ∈ s,
      (c.isDigit || c = '+' || c = '-' || c = '.') = true := by
    simp
  rw [text, List.mem_append, List.mem_append] at hc
  rcases hc with hc | hc | hc
  · exact hsigns p.sign p.sign_mem c hc
  · simp [p.whole_digits c hc]
  · unfold point at hc
    split at hc
    · cases hc
    · rename_i ds hplaces
      rcases List.mem_cons.1 hc with rfl | hc
      · rfl
      · simp [p.places_digits c (by rw [hplaces]; exact hc)]

theorem text_eq_concat (h : p.places ≠ some []) :
    ∃ cs d, p.text = cs ++ [d] ∧ d.isDigit = true := by
  have hne := p.ne_nil
  have hplaces := p.places_digits
  rw [text, point]
  rcases hp : p.places with - | (- | ⟨d, ds⟩)
  · have hwhole : p.whole ≠ [] := by simpa [hp] using hne
    refine ⟨p.sign ++ p.whole.dropLast, p.whole.getLast hwhole, ?_,
      p.whole_digits _ (List.getLast_mem hwhole)⟩
    simp [List.dropLast_concat_getLast]
  · exact absurd hp h
  · rw [hp] at hplaces
    refine ⟨p.sign ++ (p.whole ++ '.' :: (d :: ds).dropLast), (d :: ds).getLast (by simp), ?_,
      hplaces _ (List.getLast_mem _)⟩
    simp [List.dropLast_concat_getLast]

theorem splitSign_text (tail : List Char) :
    splitSign (p.text ++ tail) = (p.negative, p.whole ++ (p.point ++ tail)) := by
  have hbody : splitSign (p.whole ++ (p.point ++ tail)) =
      (false, p.whole ++ (p.point ++ tail)) := by
    have hhead := fun c => @head?_body p tail c
    generalize p.whole ++ (p.point ++ tail) = body at hhead
    unfold splitSign
    split
    · exact absurd rfl (hhead '+' rfl).1
    · exact absurd rfl (hhead '-' rfl).2
    · rfl
  have hsign := p.sign_mem
  simp only [List.mem_cons, List.not_mem_nil, or_false] at hsign
  rw [text, List.append_assoc, List.append_assoc]
  unfold negative
  rcases hsign with hsign | hsign | hsign <;> rw [hsign]
  · exact hbody
  · rfl
  · rfl

theorem whole_isEmpty : (p.whole.isEmpty && (p.places.getD []).isEmpty) = false := by
  have hne := p.ne_nil
  simpa [Bool.eq_false_iff] using hne

theorem readFloat?_text (htail : EndsPlain tail) :
    readFloat? (p.text ++ tail) = (readExponent? tail).map fun e =>
      nearest p.negative p.coefficient (e - (p.places.getD []).length) := by
  have hpoint := fun c => p.head?_point (c := c) htail
  have hdigits : ∀ c, tail.head? = some c → c.isDigit = false := fun c hc => (htail c hc).1
  unfold readFloat?
  rw [p.splitSign_text tail]
  simp only [takeWhile_digits p.whole_digits hpoint, dropWhile_digits p.whole_digits hpoint]
  have hempty := p.whole_isEmpty
  unfold coefficient point
  cases hplaces : p.places with
  | none =>
    rw [hplaces] at hempty
    simp only [List.nil_append]
    split
    · exact absurd rfl (htail '.' rfl).2
    · rw [if_neg (by simpa using hempty)]
      rfl
  | some ds =>
    have hds : ∀ d ∈ ds, d.isDigit = true := by simpa [hplaces] using p.places_digits
    rw [hplaces] at hempty
    simp only [List.cons_append, takeWhile_digits hds hdigits, dropWhile_digits hds hdigits]
    rw [if_neg (by simpa using hempty)]
    rfl

theorem readInt?_text : readInt? p.text = if p.places = none then some p.value else none := by
  have hsplit := p.splitSign_text []
  simp only [List.append_nil] at hsplit
  have hne := p.ne_nil
  unfold readInt?
  rw [hsplit]
  unfold value coefficient point
  cases hplaces : p.places with
  | none =>
    rw [hplaces] at hne
    have hwhole := p.whole_digits
    rw [if_pos rfl]
    simp only [Option.getD_none, List.append_nil] at hne ⊢
    rw [if_neg (by simpa [hne] using hwhole)]
  | some ds =>
    rw [if_neg (by simp)]
    exact if_pos (by simp)

/-- Without a point that has no digits behind it. -/
def cut : Plain where
  sign := p.sign
  whole := p.whole
  places := if p.places = some [] then none else p.places
  sign_mem := p.sign_mem
  whole_digits := p.whole_digits
  places_digits := by
    have hplaces := p.places_digits
    split <;> simp_all
  ne_nil := by
    have hne := p.ne_nil
    split <;> simp_all

theorem cut_of_ne (h : p.places ≠ some []) : p.cut = p := by
  unfold cut
  simp only [if_neg h]

theorem places_cut : p.cut.places ≠ some [] := by
  unfold cut
  dsimp only
  split
  · simp
  · assumption

theorem text_eq_cut : p.text = p.cut.text ++ if p.places = some [] then ['.'] else [] := by
  unfold text point cut
  dsimp only
  rcases p.places with - | (- | ⟨d, ds⟩) <;> simp

end Plain

/-- Every decimal number is a plain number and an exponent. -/
theorem exists_of_readFloat? (h : readFloat? cs = some x) :
    ∃ (p : Plain) (tail : List Char) (e : Int),
      cs = p.text ++ tail ∧ readExponent? tail = some e := by
  obtain ⟨sign, hsign, hcs⟩ := splitSign_append cs
  unfold readFloat? at h
  dsimp only at h
  generalize (splitSign cs).2 = body at h hcs
  have hwhole : ∀ d ∈ body.takeWhile Char.isDigit, d.isDigit = true :=
    fun d hd => List.mem_takeWhile_imp hd
  have hbody := List.takeWhile_append_dropWhile (p := Char.isDigit) (l := body)
  generalize body.takeWhile Char.isDigit = whole at h hwhole hbody
  generalize body.dropWhile Char.isDigit = rest at h hbody
  -- with a point and without one
  split at h
  · rename_i more
    have hplaces : ∀ d ∈ more.takeWhile Char.isDigit, d.isDigit = true :=
      fun d hd => List.mem_takeWhile_imp hd
    split at h
    · cases h
    · rename_i hne
      obtain ⟨e, he, -⟩ := Option.map_eq_some_iff.1 h
      refine ⟨⟨sign, whole, some (more.takeWhile Char.isDigit), hsign, hwhole, hplaces, ?_⟩,
        more.dropWhile Char.isDigit, e, ?_, he⟩
      · simpa [-List.takeWhile_eq_nil_iff] using hne
      · rw [hcs, ← hbody]
        simp [Plain.text, Plain.point]
  · split at h
    · cases h
    · rename_i hne
      obtain ⟨e, he, -⟩ := Option.map_eq_some_iff.1 h
      refine ⟨⟨sign, whole, none, hsign, hwhole, by simp, ?_⟩, rest, e, ?_, he⟩
      · simpa using hne
      · rw [hcs, ← hbody]
        simp [Plain.text, Plain.point]

end ViewTemplate.Decimal
