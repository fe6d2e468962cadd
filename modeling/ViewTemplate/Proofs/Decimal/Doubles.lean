import Mathlib
import ViewTemplate.Value.Number

namespace ViewTemplate

open Float.Model Float.Model.UnpackedFloat

section Order

theorem compare_unpacked_swap (a b : UnpackedFloat) :
    b.compare a = (a.compare b).map Ordering.swap := by
  have hint : ∀ d e : Int, compare e d = (compare d e).swap := fun d e =>
    Std.OrientedOrd.eq_swap (a := e) (b := d)
  have hnat : ∀ m n : Nat, compare n m = (compare m n).swap := fun m n =>
    Std.OrientedOrd.eq_swap (a := n) (b := m)
  cases a with
  | notANumber => cases b <;> rfl
  | zero s => cases b with
    | notANumber | zero t => rfl
    | infinity t | finite t => cases t <;> rfl
  | infinity s => cases b with
    | notANumber | zero t | finite t => cases s <;> rfl
    | infinity t => cases s <;> cases t <;> rfl
  | finite s m d => cases b with
    | notANumber => rfl
    | zero t => cases s <;> rfl
    | infinity t => cases t <;> rfl
    | finite t n e =>
      cases s <;> cases t
      all_goals simp [UnpackedFloat.compare, hint d e, hnat m n, Ordering.swap_then]

theorem compare_unpacked_self {a : UnpackedFloat} (h : a.isNaN = false) :
    a.compare a = some .eq := by
  cases a with
  | notANumber => cases h
  | zero s => rfl
  | infinity s => cases s <;> rfl
  | finite s m e => cases s <;> simp [UnpackedFloat.compare]

/-- Doubles compare as the numbers that they are unpacked to. -/
theorem Number.compareFloats_eq (x y : Float) :
    compareFloats x y = x.toModel.unpack.compare y.toModel.unpack := by
  have hlt : ∀ x y : Float, x < y ↔ x.toModel.unpack.compare y.toModel.unpack = some .lt :=
    fun x y => decide_eq_true_iff.trans beq_iff_eq
  have heq : (x == y) = true ↔ x.toModel.unpack.compare y.toModel.unpack = some .eq := by
    show (x.toModel.unpack.compare y.toModel.unpack == some .eq) = true ↔ _
    exact beq_iff_eq
  unfold compareFloats
  simp only [hlt, heq, compare_unpacked_swap x.toModel.unpack y.toModel.unpack]
  rcases x.toModel.unpack.compare y.toModel.unpack with - | (- | - | -) <;> rfl

theorem Number.compareFloats_swap (x y : Float) :
    compareFloats y x = (compareFloats x y).map Ordering.swap := by
  rw [compareFloats_eq, compareFloats_eq, compare_unpacked_swap]

theorem Number.compareFloats_eq_iff {x y : Float} :
    compareFloats x y = some .eq ↔ (x == y) = true := by
  rw [compareFloats_eq]
  exact beq_iff_eq.symm

end Order

section Numbers

theorem isNaN_unpack_components {spec : Format} {s : Sign} {e : BitVec spec.exponentBits}
    {m : BitVec spec.mantissaBitsWithoutImplicit} (h : e = -1#_ → m = 0#_) :
    (UnpackedFloat.unpack spec (packComponents spec s e m)).isNaN = false := by
  unfold UnpackedFloat.unpack
  simp only [unpackExponent_packComponents, unpackMantissa_packComponents]
  split
  · rename_i he
    rw [if_pos (h he)]
    rfl
  · split
    · split <;> rfl
    · rfl

theorem isNaN_unpack_pack {a : UnpackedFloat} (h : a.isNaN = false) :
    (Float.Model.pack a).unpack.isNaN = false := by
  unfold Float.Model.unpack Float.Model.pack
  cases a with
  | notANumber => cases h
  | zero s => exact isNaN_unpack_components fun _ => rfl
  | infinity s => exact isNaN_unpack_components fun _ => rfl
  | finite s m d hm =>
    simp only [UnpackedFloat.pack]
    split
    · exact isNaN_unpack_components fun _ => rfl
    · rename_i hsmall
      split
      · refine isNaN_unpack_components fun hones => absurd (congrArg BitVec.toNat hones) ?_
        rw [BitVec.toNat_ofNat]
        have hones : (-1#_ : BitVec Format.binary64.exponentBits).toNat = 2047 := by decide
        have hbits : 2 ^ Format.binary64.exponentBits = 2048 := by decide
        omega
      · exact isNaN_unpack_components fun hones => absurd hones (by decide)

theorem isNaN_roundWithAccuracy (spec : Format) (s : Sign) (m : Nat) (d : Int) (r : Accuracy) :
    (roundWithAccuracy spec s m d r).isNaN = false := by
  unfold roundWithAccuracy
  dsimp only
  split <;> rfl

theorem isNaN_normalize (spec : Format) (m d : Int) (s : Sign) :
    (UnpackedFloat.normalize spec m d s).isNaN = false := by
  unfold UnpackedFloat.normalize
  split
  · exact isNaN_roundWithAccuracy ..
  · rfl
  · exact isNaN_roundWithAccuracy ..

/-- Whether a double is a number other than zero and the infinities. -/
def isRegular : UnpackedFloat → Bool
  | .finite .. => true
  | _ => false

theorem isNaN_mul {spec : Format} {a b : UnpackedFloat} (ha : a.isNaN = false)
    (hb : isRegular b = true) : (UnpackedFloat.mul spec a b).isNaN = false := by
  cases b with
  | finite t n e =>
    cases a with
    | notANumber => cases ha
    | finite s m d => exact isNaN_roundWithAccuracy ..
    | _ => rfl
  | _ => cases hb

theorem isNaN_div {spec : Format} {a b : UnpackedFloat} (ha : a.isNaN = false)
    (hb : isRegular b = true) : (UnpackedFloat.div spec a b).isNaN = false := by
  cases b with
  | finite t n e =>
    cases a with
    | notANumber => cases ha
    | finite s m d => exact isNaN_roundWithAccuracy ..
    | _ => rfl
  | _ => cases hb

theorem isNaN_scientific (spec : Format) (m : Nat) (e : Int) :
    (UnpackedFloat.ofScientific spec m e).isNaN = false := by
  unfold UnpackedFloat.ofScientific
  split
  · rfl
  · split
    · rfl
    · split
      · rfl
      · split <;> exact isNaN_roundWithAccuracy ..

theorem isNaN_ofScientific (m : Nat) (negative : Bool) (e : Nat) :
    (Float.ofScientific m negative e).isNaN = false := by
  have hpowers : ∀ (i : Nat) (hi : i < Float.exactlyRepresentablePowersOfTen.size),
      isRegular (Float.exactlyRepresentablePowersOfTen[i]).toModel.unpack = true := by
    decide
  have hwhole : m.toUInt64.toFloat.toModel.unpack.isNaN = false :=
    isNaN_unpack_pack (isNaN_normalize ..)
  unfold Float.ofScientific
  split
  · dsimp only
    split
    · exact isNaN_unpack_pack (isNaN_div hwhole (hpowers e _))
    · exact isNaN_unpack_pack (isNaN_mul hwhole (hpowers e _))
  · exact isNaN_unpack_pack (isNaN_scientific ..)

theorem isNaN_neg {x : Float} (h : x.isNaN = false) : (-x).isNaN = false := by
  refine isNaN_unpack_pack ?_
  have hx : x.toModel.unpack.isNaN = false := h
  cases hu : x.toModel.unpack with
  | notANumber =>
    rw [hu] at hx
    cases hx
  | _ => rfl

theorem Decimal.isNaN_nearest (negative : Bool) (coefficient : Nat) (exponent : Int) :
    (Decimal.nearest negative coefficient exponent).isNaN = false := by
  have hpositive : ∀ x : Float, x.isNaN = false → (if negative then -x else x).isNaN = false := by
    intro x hx
    split
    · exact isNaN_neg hx
    · exact hx
  unfold Decimal.nearest
  refine hpositive _ ?_
  split
  · decide
  · split
    · decide
    · exact isNaN_ofScientific ..

theorem Decimal.isNaN_ofWord (n : Int64) : (Decimal.ofWord n).isNaN = false := by
  have hwhole : n.toInt.natAbs.toUInt64.toFloat.isNaN = false :=
    isNaN_unpack_pack (isNaN_normalize ..)
  unfold Decimal.ofWord
  dsimp only
  split
  · exact isNaN_neg hwhole
  · exact hwhole

theorem Decimal.isNaN_readFloat? {cs : List Char} {x : Float} (h : Decimal.readFloat? cs = some x) :
    x.isNaN = false := by
  unfold Decimal.readFloat? at h
  dsimp only at h
  -- with a point and without one
  split at h
  all_goals
    split at h
    · cases h
    · obtain ⟨e, -, rfl⟩ := Option.map_eq_some_iff.1 h
      exact Decimal.isNaN_nearest ..

end Numbers

section Zero

theorem unpack_components_ne_zero {spec : Format} {s t : Sign} {e : BitVec spec.exponentBits}
    {m : BitVec spec.mantissaBitsWithoutImplicit} (h : e = 0#_ → m ≠ 0#_) :
    UnpackedFloat.unpack spec (packComponents spec s e m) ≠ .zero t := by
  unfold UnpackedFloat.unpack
  simp only [unpackExponent_packComponents, unpackMantissa_packComponents]
  split
  · split <;> simp
  · split
    · rename_i he
      rw [dif_neg (h he)]
      simp
    · simp

/-- What is packed is not zero, where the mantissa fits and the exponent is not too small. -/
theorem unpack_pack_ne_zero {s t : Sign} {m : Nat} {d : Int} {hm : 0 < m} (hfits : m < 2 ^ 53)
    (hd : -1074 ≤ d) : (Float.Model.pack (.finite s m d hm)).unpack ≠ .zero t := by
  unfold Float.Model.unpack Float.Model.pack
  have hbias : Format.binary64.exponentBias = 1023 := by decide
  have hbits : 2 ^ Format.binary64.exponentBits = 2048 := by decide
  simp only [UnpackedFloat.pack]
  split
  · exact unpack_components_ne_zero fun hzero => absurd hzero (by decide)
  · rename_i hsmall
    split
    · refine unpack_components_ne_zero fun hzero => absurd (congrArg BitVec.toNat hzero) ?_
      rw [BitVec.toNat_ofNat, BitVec.toNat_ofNat, Nat.mod_eq_of_lt (by omega)]
      simp only [hbias] at *
      omega
    · rename_i hsubnormal
      have hlog : m.log2 < 53 := (Nat.log2_lt (Nat.ne_of_gt hm)).2 hfits
      have hlog' : m.log2 ≠ 52 := fun h => hsubnormal (by rw [h]; rfl)
      have hm' : m < 2 ^ 52 := (Nat.log2_lt (Nat.ne_of_gt hm)).1 (by omega)
      refine unpack_components_ne_zero fun _ hzero => absurd (congrArg BitVec.toNat hzero) ?_
      rw [BitVec.toNat_ofNat, BitVec.toNat_ofNat, Nat.mod_eq_of_lt hm']
      simp only [Nat.zero_mod]
      omega

theorem mantissa_shiftRight (em : ExtendedMantissa) (n : Nat) :
    (em >>> n).mantissa = em.mantissa / 2 ^ n := by
  show (n.repeat ExtendedMantissa.shiftRightOne em).mantissa = _
  induction n with
  | zero => simp [Nat.repeat]
  | succ n ih =>
    rw [Nat.repeat, ExtendedMantissa.shiftRightOne, ih, Nat.div_div_eq_div_mul, Nat.pow_succ]

theorem targetExponent_eq (m : Nat) (e : Int) :
    Format.binary64.targetExponent (totalExponent m e) = max (m.log2 + e - 52) (-1074) := by
  have hbits : Format.binary64.mantissaBits = 53 := rfl
  have hleast : Format.binary64.minExponent = -1074 := by decide
  simp only [Format.targetExponent, totalExponent, hbits, hleast]
  omega

/-- The first step of rounding keeps a mantissa positive and makes it fit. -/
theorem shift_fits {m : Nat} {d : Int} (hm : 0 < m) (hd : -1074 ≤ d) :
    ∃ em d', shiftToTargetExponent Format.binary64 m d .exact = (em, d') ∧
      0 < em.mantissa ∧ em.mantissa < 2 ^ 53 ∧ -1074 ≤ d' := by
  have hm' : m ≠ 0 := Nat.ne_of_gt hm
  generalize hk : (Format.binary64.targetExponent (totalExponent m d) - d).toNat = k
  have hsize : k = m.log2 - 52 := by
    rw [targetExponent_eq] at hk
    omega
  refine ⟨_, _, by rw [shiftToTargetExponent, shiftToExponent, hk], ?_, ?_, by omega⟩
  · rw [mantissa_shiftRight]
    show 0 < m / 2 ^ k
    refine Nat.div_pos (Nat.le_trans (Nat.pow_le_pow_right (by omega) ?_) (Nat.log2_self_le hm'))
      (Nat.two_pow_pos k)
    omega
  · rw [mantissa_shiftRight]
    refine Nat.div_lt_of_lt_mul ?_
    rw [← Nat.pow_add]
    show m < 2 ^ (k + 53)
    exact (Nat.log2_lt hm').1 (by omega)

theorem le_roundedMantissa (em : ExtendedMantissa) : em.mantissa ≤ em.roundedMantissa := by
  unfold ExtendedMantissa.roundedMantissa
  rcases em.accuracy with - | (- | - | -) <;> simp [Accuracy.roundToNearestEven]

theorem round_ne_zero {s : Sign} {m : Nat} (hm : 0 < m) : ∃ n d hn,
    UnpackedFloat.round Format.binary64 s m 0 = .finite s n d hn ∧ n < 2 ^ 53 ∧ -1074 ≤ d := by
  generalize hk : (0 - Format.binary64.targetExponent (totalExponent m 0)).toNat = k
  have hlow : k ≤ 1074 := by
    rw [targetExponent_eq] at hk
    omega
  have hpos : 0 < m <<< k := Nat.shiftLeft_pos_iff.2 hm
  obtain ⟨em, d, hfirst, hem, -, hd⟩ := shift_fits hpos (d := 0 - (k : Int)) (by omega)
  obtain ⟨em', d', hsecond, hem', hfits, hd'⟩ :=
    shift_fits (Nat.lt_of_lt_of_le hem (le_roundedMantissa em)) hd
  refine ⟨em'.mantissa, d', hem', ?_, hfits, hd'⟩
  simp only [UnpackedFloat.round, decreaseExponent, hk, roundWithAccuracy, hfirst, hsecond]
  rw [dif_neg (Nat.ne_of_gt hem')]

theorem fits_of_unpack {a : Float.Model} {s : Sign} {m : Nat} {d : Int} {hm : 0 < m}
    (h : a.unpack = .finite s m d hm) : m < 2 ^ 53 ∧ -1074 ≤ d := by
  have hbias : Format.binary64.exponentBias = 1023 := by decide
  unfold Float.Model.unpack UnpackedFloat.unpack at h
  dsimp only at h
  split at h
  · split at h <;> cases h
  · split at h
    · split at h
      · cases h
      · obtain ⟨-, hm', hd⟩ := UnpackedFloat.finite.inj h
        have := (@unpackMantissa Format.binary64 a.toBits.toBitVec).isLt
        simp only [hbias] at hd
        omega
    · rename_i hzero
      obtain ⟨-, hm', hd⟩ := UnpackedFloat.finite.inj h
      have := (1#1 ++ @unpackMantissa Format.binary64 a.toBits.toBitVec).isLt
      have hexp : (@unpackExponent Format.binary64 a.toBits.toBitVec).toNat ≠ 0 :=
        fun h => hzero (BitVec.eq_of_toNat_eq h)
      simp only [hbias] at hd
      omega

theorem beq_zero_iff {x : Float} : (x == 0.0) = true ↔ ∃ t, x.toModel.unpack = .zero t := by
  have hzero : (0.0 : Float).toModel.unpack = .zero .positive := rfl
  rw [← Number.compareFloats_eq_iff, Number.compareFloats_eq, hzero]
  cases x.toModel.unpack with
  | notANumber => simp [UnpackedFloat.compare]
  | zero s => simp [UnpackedFloat.compare]
  | infinity s => cases s <;> simp [UnpackedFloat.compare]
  | finite s m d => cases s <;> simp [UnpackedFloat.compare]

theorem neg_beq_zero {x : Float} (h : (-x == 0.0) = true) : (x == 0.0) = true := by
  rw [beq_zero_iff] at h ⊢
  obtain ⟨t, ht⟩ := h
  have hneg : (Float.Model.pack x.toModel.unpack.neg).unpack = .zero t := ht
  cases hx : x.toModel.unpack with
  | zero s => exact ⟨s, rfl⟩
  | notANumber =>
    rw [hx] at hneg
    exact absurd hneg (unpack_components_ne_zero fun hzero => absurd hzero (by decide))
  | infinity s =>
    rw [hx] at hneg
    exact absurd hneg (unpack_components_ne_zero fun hzero => absurd hzero (by decide))
  | finite s m d =>
    rw [hx] at hneg
    obtain ⟨hm, hd⟩ := fits_of_unpack hx
    exact absurd hneg (unpack_pack_ne_zero hm hd)

theorem ofUInt64_eq_round {n : UInt64} (hpos : 0 < n.toNat) :
    UnpackedFloat.ofUInt64 Format.binary64 n =
      UnpackedFloat.round Format.binary64 .positive n.toNat 0 := by
  have hgt : compare (n.toNat : Int) 0 = .gt := Int.compare_eq_gt.2 (by omega)
  simp only [UnpackedFloat.ofUInt64, UnpackedFloat.ofNat, UnpackedFloat.ofInt,
    UnpackedFloat.normalize, hgt]
  rfl

theorem toFloat_beq_zero {n : UInt64} (h : (n.toFloat == 0.0) = true) : n.toNat = 0 := by
  refine Nat.eq_zero_of_not_pos fun hpos => ?_
  obtain ⟨t, ht⟩ := beq_zero_iff.1 h
  obtain ⟨m, d, hm, hround, hfits, hd⟩ := round_ne_zero (s := .positive) hpos
  have hword := (ofUInt64_eq_round hpos).trans hround
  have hunpack : (Float.Model.pack (UnpackedFloat.ofUInt64 Format.binary64 n)).unpack = .zero t :=
    ht
  rw [hword] at hunpack
  exact unpack_pack_ne_zero hfits hd hunpack

theorem Decimal.ofWord_beq_zero (n : Int64) : (Decimal.ofWord n == 0.0) = decide (n = 0) := by
  by_cases hn : n = 0
  · subst hn
    decide
  · rw [decide_eq_false hn, Bool.eq_false_iff]
    intro h
    have hword : (n.toInt.natAbs.toUInt64.toFloat == 0.0) = true := by
      unfold Decimal.ofWord at h
      dsimp only at h
      split at h
      · exact neg_beq_zero h
      · exact h
    have hsmall := n.toInt_lt
    have hlarge := n.le_toInt
    have hzero := toFloat_beq_zero hword
    rw [Nat.toUInt64, UInt64.toNat_ofNat', Nat.mod_eq_of_lt (by omega)] at hzero
    exact hn (Int64.toInt_inj.1 (by simpa using hzero))

end Zero

end ViewTemplate
