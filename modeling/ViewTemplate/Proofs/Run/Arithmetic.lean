import ViewTemplate.Proofs.Code.Numerals
import ViewTemplate.Proofs.Decimal.Doubles

namespace ViewTemplate

/-- The integer with a property, and the double where no 64-bit integer has it. -/
inductive IntegerOr (P : Int64 → Prop) (x : Float) : Value → Prop where
  | int {n : Int64} (h : P n) : IntegerOr P x (.int n)
  | float (h : ∀ n, ¬P n) : IntegerOr P x (.float x)

theorem IntegerOr.congr {P Q : Int64 → Prop} {x : Float} {v : Value} (hPQ : ∀ n, P n ↔ Q n)
    (h : IntegerOr P x v) : IntegerOr Q x v := by
  cases h with
  | int h => exact .int ((hPQ _).1 h)
  | float h => exact .float fun n hn => h n ((hPQ n).2 hn)

/-- The remainder of a division that cuts the quotient: it has the sign of the dividend and is
smaller than the divisor. -/
structure IsRemainder (x y r : Int64) : Prop where
  divides : y.toInt ∣ x.toInt - r.toInt
  smaller : r.toInt.natAbs < y.toInt.natAbs
  nonneg : 0 ≤ x.toInt → 0 ≤ r.toInt
  nonpos : x.toInt ≤ 0 → r.toInt ≤ 0

namespace Decimal

theorem word?_eq_some_iff {k : Int} {n : Int64} : word? k = some n ↔ n.toInt = k := by
  refine ⟨fun h => (word?_eq_some h).1, ?_⟩
  rintro rfl
  have hmin : Int64.minValue.toInt = -2 ^ 63 := by decide
  have hmax : Int64.maxValue.toInt = 2 ^ 63 - 1 := by decide
  have hlow := n.le_toInt
  have hhigh := n.toInt_lt
  rw [word?, if_pos ⟨by omega, by omega⟩, Int64.ofInt_toInt]

/-- A double is cut to the whole number below its magnitude, within the 64-bit integers. -/
theorem toInt_truncated (x : Float) : (truncated x).toInt =
    match magnitude x with
    | .nan => 0
    | .infinite => if isNegative x then -2 ^ 63 else 2 ^ 63 - 1
    | .finite m e =>
      if isNegative x then max (-(m * 2 ^ e.toNat / 2 ^ (-e).toNat : Nat) : Int) (-2 ^ 63)
      else min (m * 2 ^ e.toNat / 2 ^ (-e).toNat : Nat) (2 ^ 63 - 1) := by
  have hmin : Int64.minValue.toInt = -2 ^ 63 := by decide
  have hmax : Int64.maxValue.toInt = 2 ^ 63 - 1 := by decide
  unfold truncated
  cases magnitude x with
  | nan => rfl
  | infinite => cases isNegative x <;> rfl
  | finite m e =>
    simp only [hmin, hmax, Nat.pow_eq]
    generalize m * 2 ^ e.toNat / 2 ^ (-e).toNat = k
    have hk : (0 : Int) ≤ k := Int.natCast_nonneg k
    split
    · rw [Int64.toInt_ofInt_of_le (by omega) (by omega)]
    · rw [Int64.toInt_ofInt_of_le (by omega) (by omega)]

end Decimal

namespace Run

open Code Decimal

theorem integerOr_exactOr {P : Int64 → Prop} {z : Option Int}
    (h : ∀ n : Int64, P n ↔ z = some n.toInt) (x : Float) : IntegerOr P x (exactOr z x) := by
  unfold exactOr
  cases hz : z >>= word? with
  | some n =>
    obtain ⟨k, hk, hn⟩ := Option.bind_eq_some_iff.1 hz
    exact .int ((h n).2 (by rw [hk, word?_eq_some_iff.1 hn]))
  | none =>
    refine .float fun n hn => ?_
    rw [(h n).1 hn] at hz
    exact Option.some_ne_none n ((word?_eq_some_iff.2 rfl).symm.trans hz)

/-- An integer is the result of an operation on two integers. -/
def Exactly (f : Int → Int → Int) (p q : Number) (n : Int64) : Prop :=
  ∃ x y : Int64, p = .int x ∧ q = .int y ∧ n.toInt = f x.toInt y.toInt

/-- An integer is the quotient of a division that comes out even. -/
def Quotient (p q : Number) (n : Int64) : Prop :=
  ∃ x y : Int64, p = .int x ∧ q = .int y ∧ x.toInt = y.toInt * n.toInt

theorem exactly_int {f : Int → Int → Int} {x y n : Int64} :
    Exactly f (.int x) (.int y) n ↔ n.toInt = f x.toInt y.toInt := by
  simp [Exactly]

theorem quotient_int {x y n : Int64} :
    Quotient (.int x) (.int y) n ↔ x.toInt = y.toInt * n.toInt := by
  simp [Quotient]

variable (p q : Number)

theorem exactly_iff (f : Int → Int → Int) (n : Int64) :
    Exactly f p q n ↔ ((integers? p q).map fun (x, y) => f x y) = some n.toInt := by
  cases p <;> cases q <;> simp [Exactly, integers?, eq_comm]

theorem add_exact : IntegerOr (Exactly (· + ·) p q) (p.toFloat + q.toFloat) (add p q) :=
  integerOr_exactOr (exactly_iff p q _) _

theorem sub_exact : IntegerOr (Exactly (· - ·) p q) (p.toFloat - q.toFloat) (sub p q) :=
  integerOr_exactOr (exactly_iff p q _) _

theorem mul_exact : IntegerOr (Exactly (· * ·) p q) (p.toFloat * q.toFloat) (mul p q) :=
  integerOr_exactOr (exactly_iff p q _) _

theorem neg_exact :
    IntegerOr (fun n => ∃ x : Int64, p = .int x ∧ n.toInt = -x.toInt) (-p.toFloat) (neg p) := by
  cases p with
  | int x => exact integerOr_exactOr (fun n => by simp [eq_comm]) _
  | float x => exact .float fun n h => by simp at h

theorem tdiv_of_even_iff {x y n : Int} (hy : y ≠ 0) :
    (if x.tmod y = 0 then some (x.tdiv y) else none) = some n ↔ x = y * n := by
  have hdivision := Int.mul_tdiv_add_tmod x y
  constructor
  · intro h
    split at h
    · rename_i heven
      rw [← Option.some.inj h]
      omega
    · cases h
  · rintro rfl
    rw [Int.mul_tmod_right, if_pos rfl, Int.mul_tdiv_cancel_left n hy]

theorem quotient_iff {p q : Number} (hq : (q.toFloat == 0.0) = false) (n : Int64) :
    Quotient p q n ↔ (do
      let (x, y) ← integers? p q
      if x.tmod y = 0 then some (x.tdiv y) else none) = some n.toInt := by
  cases p with
  | float x => cases q <;> simp [Quotient, integers?]
  | int x =>
    cases q with
    | float y => simp [Quotient, integers?]
    | int y =>
      have hy : y ≠ 0 := by
        rw [Number.toFloat, ofWord_beq_zero] at hq
        exact of_decide_eq_false hq
      have hy' : y.toInt ≠ 0 := fun h => hy (Int64.toInt_inj.1 h)
      rw [quotient_int]
      exact (tdiv_of_even_iff hy').symm

theorem div_exact {p q : Number} (hq : (q.toFloat == 0.0) = false) :
    ∃ v, div p q = .ok v ∧ IntegerOr (Quotient p q) (p.toFloat / q.toFloat) v := by
  refine ⟨_, ?_, integerOr_exactOr (quotient_iff hq) _⟩
  rw [div, hq]
  rfl

theorem mod_exact {p q : Number} (hq : q.toInt64 ≠ 0) :
    ∃ r, mod p q = .ok (.int r) ∧ IsRemainder p.toInt64 q.toInt64 r := by
  generalize hx : p.toInt64 = x
  generalize hy : q.toInt64 = y at hq
  have hy' : y.toInt ≠ 0 := fun h => hq (Int64.toInt_inj.1 h)
  have hdivision := Int.mul_tdiv_add_tmod x.toInt y.toInt
  have hsmall : (x.toInt.tmod y.toInt).natAbs < y.toInt.natAbs := by
    rw [Int.natAbs_tmod]
    exact Nat.mod_lt _ (by omega)
  have hlow := y.le_toInt
  have hhigh := y.toInt_lt
  have hr : (Int64.ofInt (x.toInt.tmod y.toInt)).toInt = x.toInt.tmod y.toInt :=
    Int64.toInt_ofInt_of_le (by omega) (by omega)
  refine ⟨_, by rw [mod, hx, hy]; exact if_neg hy', ?_, ?_, ?_, ?_⟩ <;> rw [hr]
  · exact ⟨x.toInt.tdiv y.toInt, by omega⟩
  · exact hsmall
  · exact Int.tmod_nonneg _
  · intro hneg
    have hflip := Int.tmod_nonneg y.toInt (Int.neg_nonneg_of_nonpos hneg)
    rw [Int.neg_tmod] at hflip
    omega

/-- The number that a value counts as for an operator. -/
def operand? : Value → Option Number
  | .string s => Number.leading? s
  | v => v.number?

theorem operand_eq (v : Value) (operator : String) : operand v operator =
    match operand? v with
    | some n => .ok n
    | none => .error (.unsupported operator v.typeName) := by
  cases v <;> rfl

def arithmeticOps : List BinaryOp := [.add, .sub, .mul, .div, .mod]

/-- What an arithmetic operator answers for two numbers. -/
inductive Answers (p q : Number) : BinaryOp → Except OperatorError Value → Prop where
  | add {v : Value} (h : IntegerOr (Exactly (· + ·) p q) (p.toFloat + q.toFloat) v) :
      Answers p q .add (.ok v)
  | sub {v : Value} (h : IntegerOr (Exactly (· - ·) p q) (p.toFloat - q.toFloat) v) :
      Answers p q .sub (.ok v)
  | mul {v : Value} (h : IntegerOr (Exactly (· * ·) p q) (p.toFloat * q.toFloat) v) :
      Answers p q .mul (.ok v)
  | div {v : Value} (hq : (q.toFloat == 0.0) = false)
      (h : IntegerOr (Quotient p q) (p.toFloat / q.toFloat) v) : Answers p q .div (.ok v)
  | divisionByZero (hq : (q.toFloat == 0.0) = true) : Answers p q .div (.error .divisionByZero)
  | mod {r : Int64} (hq : q.toInt64 ≠ 0) (h : IsRemainder p.toInt64 q.toInt64 r) :
      Answers p q .mod (.ok (.int r))
  | moduloByZero (hq : q.toInt64 = 0) : Answers p q .mod (.error .moduloByZero)

theorem answers_div : Answers p q .div (div p q) := by
  cases hq : q.toFloat == 0.0 with
  | true =>
    rw [div, if_pos hq]
    exact .divisionByZero hq
  | false =>
    obtain ⟨v, hv, h⟩ := div_exact (p := p) hq
    exact hv ▸ .div hq h

theorem answers_mod : Answers p q .mod (mod p q) := by
  by_cases hq : q.toInt64 = 0
  · have hzero : mod p q = .error .moduloByZero := if_pos (by rw [hq]; rfl)
    exact hzero ▸ .moduloByZero hq
  · obtain ⟨r, hr, h⟩ := mod_exact (p := p) hq
    exact hr ▸ .mod hq h

/-- An arithmetic operator refuses an operand without a number, and answers for the numbers of the
operands otherwise. -/
theorem binary_answers {op : BinaryOp} (hop : op ∈ arithmeticOps) (a b : Value) :
    (∃ v ∈ [a, b], operand? v = none ∧
      binary op a b = .error (.unsupported op.symbol v.typeName)) ∨
    ∃ p q, operand? a = some p ∧ operand? b = some q ∧ Answers p q op (binary op a b) := by
  obtain ⟨f, hf, hanswers⟩ : ∃ f, binary op a b = arithmetic op.symbol f a b ∧
      ∀ p q, Answers p q op (f p q) := by
    simp only [arithmeticOps, List.mem_cons, List.not_mem_nil, or_false] at hop
    obtain rfl | rfl | rfl | rfl | rfl := hop
    · exact ⟨_, rfl, fun p q => .add (add_exact p q)⟩
    · exact ⟨_, rfl, fun p q => .sub (sub_exact p q)⟩
    · exact ⟨_, rfl, fun p q => .mul (mul_exact p q)⟩
    · exact ⟨_, rfl, answers_div⟩
    · exact ⟨_, rfl, answers_mod⟩
  rw [hf, arithmetic, operand_eq, operand_eq]
  cases ha : operand? a with
  | none => exact .inl ⟨a, by simp, ha, rfl⟩
  | some p =>
    cases hb : operand? b with
    | none => exact .inl ⟨b, by simp, hb, rfl⟩
    | some q => exact .inr ⟨p, q, rfl, rfl, hanswers p q⟩

theorem binary_of_not_arithmetic {op : BinaryOp} (hop : op ∉ arithmeticOps) (a b : Value) :
    ∃ v, binary op a b = .ok v := by
  cases op <;> first | exact ⟨_, rfl⟩ | exact absurd hop (by decide)

theorem unary_answers (op : UnaryOp) (a : Value) :
    (op ≠ .not ∧ operand? a = none ∧ unary op a = .error (.unsupported op.symbol a.typeName)) ∨
    ∃ v, unary op a = .ok v ∧ (op = .neg → ∃ p, operand? a = some p ∧
      IntegerOr (fun n => ∃ x : Int64, p = .int x ∧ n.toInt = -x.toInt) (-p.toFloat) v) := by
  cases op with
  | not => exact .inr ⟨_, rfl, by simp⟩
  | plus =>
    rw [unary, operand_eq]
    cases ha : operand? a with
    | none => exact .inl ⟨by simp, rfl, rfl⟩
    | some p => exact .inr ⟨_, rfl, by simp⟩
  | neg =>
    rw [unary, operand_eq]
    cases ha : operand? a with
    | none => exact .inl ⟨by simp, rfl, rfl⟩
    | some p => exact .inr ⟨_, rfl, fun _ => ⟨p, rfl, neg_exact p⟩⟩

/-- Arithmetic of 64-bit integers is exact: a sum, a difference, a product, a negation and a
quotient is the integer that it is, where it is a 64-bit integer, and otherwise the double of the
operation on doubles; a remainder is always an integer, and zero divides nothing. Operands of any
type are read as numbers first, and only those without one and a divisor that counts as zero are
refused. A double is cut to an integer within the 64 bits. -/
theorem arithmetic_exact :
    (∀ x y : Int64,
      (∃ v, binary .add (.int x) (.int y) = .ok v ∧
        IntegerOr (fun n => n.toInt = x.toInt + y.toInt) (ofWord x + ofWord y) v) ∧
      (∃ v, binary .sub (.int x) (.int y) = .ok v ∧
        IntegerOr (fun n => n.toInt = x.toInt - y.toInt) (ofWord x - ofWord y) v) ∧
      (∃ v, binary .mul (.int x) (.int y) = .ok v ∧
        IntegerOr (fun n => n.toInt = x.toInt * y.toInt) (ofWord x * ofWord y) v) ∧
      (∃ v, unary .neg (.int x) = .ok v ∧
        IntegerOr (fun n => n.toInt = -x.toInt) (-ofWord x) v) ∧
      (y ≠ 0 → ∃ v, binary .div (.int x) (.int y) = .ok v ∧
        IntegerOr (fun n => x.toInt = y.toInt * n.toInt) (ofWord x / ofWord y) v) ∧
      (y ≠ 0 → ∃ r, binary .mod (.int x) (.int y) = .ok (.int r) ∧ IsRemainder x y r) ∧
      (y = 0 → binary .div (.int x) (.int y) = .error .divisionByZero ∧
        binary .mod (.int x) (.int y) = .error .moduloByZero)) ∧
    (∀ (op : BinaryOp) (a b : Value),
      (op ∈ arithmeticOps →
        (∃ v ∈ [a, b], operand? v = none ∧
          binary op a b = .error (.unsupported op.symbol v.typeName)) ∨
        ∃ p q, operand? a = some p ∧ operand? b = some q ∧ Answers p q op (binary op a b)) ∧
      (op ∉ arithmeticOps → ∃ v, binary op a b = .ok v)) ∧
    (∀ (op : UnaryOp) (a : Value),
      (op ≠ .not ∧ operand? a = none ∧ unary op a = .error (.unsupported op.symbol a.typeName)) ∨
      ∃ v, unary op a = .ok v ∧ (op = .neg → ∃ p, operand? a = some p ∧
        IntegerOr (fun n => ∃ x : Int64, p = .int x ∧ n.toInt = -x.toInt) (-p.toFloat) v)) ∧
    (∀ x : Float, (Number.float x).toInt64.toInt =
      match magnitude x with
      | .nan => 0
      | .infinite => if isNegative x then -2 ^ 63 else 2 ^ 63 - 1
      | .finite m e =>
        if isNegative x then max (-(m * 2 ^ e.toNat / 2 ^ (-e).toNat : Nat) : Int) (-2 ^ 63)
        else min (m * 2 ^ e.toNat / 2 ^ (-e).toNat : Nat) (2 ^ 63 - 1)) := by
  refine ⟨fun x y => ⟨?_, ?_, ?_, ?_, ?_, ?_, ?_⟩, fun op a b => ⟨fun hop => binary_answers hop a b,
    fun hop => binary_of_not_arithmetic hop a b⟩, unary_answers, toInt_truncated⟩
  · exact ⟨_, rfl, (add_exact (.int x) (.int y)).congr fun n => exactly_int⟩
  · exact ⟨_, rfl, (sub_exact (.int x) (.int y)).congr fun n => exactly_int⟩
  · exact ⟨_, rfl, (mul_exact (.int x) (.int y)).congr fun n => exactly_int⟩
  · exact ⟨_, rfl, (neg_exact (.int x)).congr fun n => by simp⟩
  · intro hy
    have hq : ((Number.int y).toFloat == 0.0) = false := by simpa [Number.toFloat, ofWord_beq_zero]
    obtain ⟨v, hv, h⟩ := div_exact (p := .int x) hq
    exact ⟨v, hv, h.congr fun n => quotient_int⟩
  · intro hy
    exact mod_exact (p := .int x) (q := .int y) hy
  · rintro rfl
    exact ⟨rfl, rfl⟩

/-- The least integer has no negation and no quotient by minus one, and leaves no remainder
there. -/
theorem arithmetic_exact_at_least_integer :
    let least := Int64.minValue
    (-1 : Int64) ≠ 0 ∧
    binary .div (.int least) (.int (-1)) = .ok (.float (ofWord least / ofWord (-1))) ∧
      binary .mod (.int least) (.int (-1)) = .ok (.int 0) := by
  intro least
  obtain ⟨-, -, -, -, hdiv, hmod, -⟩ := arithmetic_exact.1 least (-1)
  obtain ⟨v, hv, h⟩ := hdiv (by decide)
  obtain ⟨r, hr, hrem⟩ := hmod (by decide)
  refine ⟨by decide, ?_, ?_⟩
  · cases h with
    | float _ => exact hv
    | @int n h =>
      have hn := n.toInt_lt
      have hleast : least.toInt = -2 ^ 63 := by decide
      have hone : (-1 : Int64).toInt = -1 := by decide
      rw [hleast, hone] at h
      omega
  · have hsmall := hrem.smaller
    have hone : (-1 : Int64).toInt = -1 := by decide
    have hzero : r = 0 := Int64.toInt_inj.1 (by rw [show (0 : Int64).toInt = 0 from rfl]; omega)
    rw [hr, hzero]

end Run

end ViewTemplate
