import ViewTemplate.Proofs.Decimal.Doubles

namespace ViewTemplate

open Float.Model Float.Model.UnpackedFloat

section Rounding

variable {spec : Format} {s : Sign} {m : Nat} {e : Int}

theorem shiftRight_succ (em : ExtendedMantissa) (i : Nat) :
    em >>> (i + 1) = (em >>> i).shiftRightOne :=
  rfl

theorem shiftLeft_shiftRight_self (m i : Nat) :
    ExtendedMantissa.ofMantissaAndAccuracy (m <<< i) .exact >>> i =
      ExtendedMantissa.ofMantissaAndAccuracy m .exact := by
  induction i generalizing m with
  | zero => rfl
  | succ i ih =>
    rw [Nat.shiftLeft_succ_inside, shiftRight_succ, ih (2 * m)]
    show ExtendedMantissa.mk (2 * m / 2) (2 * m % 2 != 0) (false || false) = ⟨m, false, false⟩
    simp

theorem shiftLeft_shiftRight (m i k : Nat) :
    ExtendedMantissa.ofMantissaAndAccuracy (m <<< i) .exact >>> (k + i) =
      ExtendedMantissa.ofMantissaAndAccuracy m .exact >>> k := by
  induction k with
  | zero =>
    rw [Nat.zero_add, shiftLeft_shiftRight_self]
    rfl
  | succ k ih => rw [Nat.add_right_comm, shiftRight_succ, ih, shiftRight_succ]

theorem log2_shiftLeft (hm : m ≠ 0) (i : Nat) : (m <<< i).log2 = m.log2 + i := by
  induction i with
  | zero => rfl
  | succ i ih =>
    have hne : m <<< i ≠ 0 := fun h => hm (Nat.shiftLeft_eq_zero_iff.1 h)
    rw [Nat.shiftLeft_succ, Nat.log2_two_mul hne, ih, Nat.add_assoc]

/-- Rounding does not depend on how many zeros are appended to a mantissa that has at least as many
bits as the format. -/
theorem roundWithAccuracy_shiftLeft (hm : m ≠ 0)
    (h : e ≤ spec.targetExponent (totalExponent m e)) (i : Nat) :
    roundWithAccuracy spec s (m <<< i) (e - i) .exact = roundWithAccuracy spec s m e .exact := by
  have htotal : totalExponent (m <<< i) (e - i) = totalExponent m e := by
    simp only [totalExponent, log2_shiftLeft hm]
    omega
  have hshift : shiftToTargetExponent spec (m <<< i) (e - i) .exact =
      shiftToTargetExponent spec m e .exact := by
    unfold shiftToTargetExponent
    rw [htotal]
    generalize spec.targetExponent (totalExponent m e) = t at h
    have hmore : (t - (e - i)).toNat = (t - e).toNat + i := by omega
    unfold shiftToExponent
    simp only [hmore, shiftLeft_shiftRight]
    rw [Prod.mk.injEq]
    exact ⟨rfl, by omega⟩
  unfold roundWithAccuracy
  rw [hshift]

/-- What the format holds is not changed by rounding. -/
theorem roundWithAccuracy_self (hm : 0 < m) (h : spec.targetExponent (totalExponent m e) ≤ e) :
    roundWithAccuracy spec s m e .exact = .finite s m e hm := by
  have hshift : shiftToTargetExponent spec m e .exact = (⟨m, false, false⟩, e) := by
    have hnone : (spec.targetExponent (totalExponent m e) - e).toNat = 0 := by omega
    unfold shiftToTargetExponent shiftToExponent
    simp only [hnone]
    show (_, e + (0 : Int)) = _
    rw [Int.add_zero]
    rfl
  unfold roundWithAccuracy
  simp only [hshift, ExtendedMantissa.roundedMantissa, ExtendedMantissa.accuracy,
    Accuracy.roundToNearestEven]
  exact dif_neg (Nat.ne_of_gt hm)

theorem unpackSign_packComponents {b : BitVec spec.exponentBits}
    {c : BitVec spec.mantissaBitsWithoutImplicit} :
    unpackSign (packComponents spec s b c) = s.toBitVec := by
  ext i hi
  obtain rfl : i = 0 := by omega
  simp [unpackSign, packComponents, BitVec.getLsbD_append, BitVec.getElem_append]

theorem toNat_one_append (hlog : m.log2 = 52) : (1#1 ++ BitVec.ofNat 52 m).toNat = m := by
  have hne : m ≠ 0 := by
    rintro rfl
    exact absurd hlog (by decide)
  obtain ⟨hge, hlt⟩ := (Nat.log2_eq_iff hne).1 hlog
  have hrest : m % 2 ^ 52 < 2 ^ 52 := Nat.mod_lt _ (by decide)
  rw [BitVec.toNat_append]
  show 1 <<< 52 ||| m % 2 ^ 52 = m
  rw [← Nat.shiftLeft_add_eq_or_of_lt hrest, Nat.shiftLeft_eq]
  omega

/-- A double with all bits of its mantissa in use comes back as it was packed. -/
theorem unpack_pack (hm : 0 < m) (hlog : m.log2 = 52) (hlow : -1074 ≤ e) (hhigh : e ≤ 971) :
    (Float.Model.pack (.finite s m e hm)).unpack = .finite s m e hm := by
  have hbias : Format.binary64.exponentBias = 1023 := by decide
  have hbits : Format.binary64.mantissaBits = 53 := rfl
  generalize hb : (e + 1023 + 52).toNat = b
  have hbound : 0 < b ∧ b < 2047 := by omega
  have htoNat : (BitVec.ofNat 11 b).toNat = b := by
    rw [BitVec.toNat_ofNat]
    exact Nat.mod_eq_of_lt (by omega)
  have hpack : UnpackedFloat.pack Format.binary64 (.finite s m e hm) =
      packComponents Format.binary64 s (BitVec.ofNat 11 b) (BitVec.ofNat 52 m) := by
    simp only [UnpackedFloat.pack, hbias, hlog]
    rw [if_neg (by omega), if_pos hbits.symm]
    exact congrArg (fun k => packComponents Format.binary64 s (BitVec.ofNat 11 k) _) hb
  -- The bits of the exponent are neither all ones nor zero, so the number is a normal one.
  have hones : BitVec.ofNat 11 b ≠ -1#11 := fun h => by
    have := congrArg BitVec.toNat h
    rw [htoNat] at this
    exact absurd this (Nat.ne_of_lt hbound.2)
  have hzero : BitVec.ofNat 11 b ≠ 0#11 := fun h => by
    have := congrArg BitVec.toNat h
    rw [htoNat] at this
    exact absurd this (Nat.ne_of_gt hbound.1)
  have hsign : Sign.ofBitVec s.toBitVec = s := by cases s <;> rfl
  show UnpackedFloat.unpack Format.binary64 (UnpackedFloat.pack Format.binary64 _) = _
  rw [hpack]
  unfold UnpackedFloat.unpack
  simp only [unpackExponent_packComponents, unpackMantissa_packComponents,
    unpackSign_packComponents, hsign]
  rw [if_neg hones, if_neg hzero, UnpackedFloat.finite.injEq]
  refine ⟨rfl, toNat_one_append hlog, ?_⟩
  rw [htoNat, hbias]
  omega

end Rounding

namespace Decimal

variable {k : Nat}

/-- A whole number of up to 53 bits, rounded to a double, has all bits of its mantissa in use. -/
theorem round_of_lt (hpos : 0 < k) (hk : k < 2 ^ 53) :
    ∃ m e hm, UnpackedFloat.round Format.binary64 .positive k 0 = .finite .positive m e hm ∧
      m.log2 = 52 ∧ -52 ≤ e ∧ e ≤ 0 := by
  have hne : k ≠ 0 := Nat.ne_of_gt hpos
  have hlog : k.log2 < 53 := (Nat.log2_lt hne).2 hk
  have htarget : (0 - Format.binary64.targetExponent (totalExponent k 0)).toNat = 52 - k.log2 := by
    rw [targetExponent_eq]
    omega
  have hlog' : (k <<< (52 - k.log2)).log2 = 52 := by
    rw [log2_shiftLeft hne]
    omega
  have hm : 0 < k <<< (52 - k.log2) := Nat.shiftLeft_pos_iff.2 hpos
  refine ⟨_, 0 - (52 - k.log2 : Nat), hm, ?_, hlog', by omega, by omega⟩
  simp only [UnpackedFloat.round, decreaseExponent, htarget]
  refine roundWithAccuracy_self hm ?_
  rw [targetExponent_eq, hlog']
  omega

theorem toFloat_eq_pack (hpos : 0 < k) (hk : k < 2 ^ 64) : k.toUInt64.toFloat =
    Float.ofModel (Float.Model.pack (UnpackedFloat.round Format.binary64 .positive k 0)) := by
  have hnat : k.toUInt64.toNat = k := by
    rw [Nat.toUInt64, UInt64.toNat_ofNat', Nat.mod_eq_of_lt hk]
  have hround := ofUInt64_eq_round (n := k.toUInt64) (by omega)
  rw [hnat] at hround
  rw [← hround]
  rfl

theorem toFloat_mul_one (hpos : 0 < k) (hk : k < 2 ^ 53) :
    k.toUInt64.toFloat * Float.exactlyRepresentablePowersOfTen[0] = k.toUInt64.toFloat := by
  obtain ⟨m, e, hm, hfinite, hlog, hlow, hhigh⟩ := round_of_lt hpos hk
  have htarget : Format.binary64.targetExponent (totalExponent m e) = e := by
    rw [targetExponent_eq, hlog]
    omega
  have hone : Float.exactlyRepresentablePowersOfTen[0].toModel.unpack =
      .finite .positive (1 <<< 52) (-52) (by decide) := by
    rfl
  have hkept : roundWithAccuracy Format.binary64 .positive (m * 1 <<< 52) (e + -52) .exact =
      .finite .positive m e hm := by
    rw [← roundWithAccuracy_self hm htarget.le,
      ← roundWithAccuracy_shiftLeft (Nat.ne_of_gt hm) htarget.ge 52, Nat.shiftLeft_eq,
      Nat.shiftLeft_eq, Nat.one_mul]
    rfl
  rw [toFloat_eq_pack hpos (by omega), hfinite]
  show Float.ofModel (Float.Model.pack (UnpackedFloat.mul Format.binary64
    (Float.Model.pack (.finite .positive m e hm)).unpack
    Float.exactlyRepresentablePowersOfTen[0].toModel.unpack)) = _
  rw [unpack_pack hm hlog (by omega) (by omega), hone]
  exact congrArg (fun a => Float.ofModel (Float.Model.pack a)) hkept

theorem scientific_eq_round (hk : 2 ^ 53 ≤ k) :
    UnpackedFloat.ofScientific Format.binary64 k 0 =
      UnpackedFloat.round Format.binary64 .positive k 0 := by
  have hne : k ≠ 0 := by omega
  have hlog : 53 ≤ k.log2 := (Nat.le_log2 hne).2 hk
  have htarget : 0 ≤ Format.binary64.targetExponent (totalExponent k 0) := by
    rw [targetExponent_eq]
    omega
  have hnone : (0 - Format.binary64.targetExponent (totalExponent k 0)).toNat = 0 := by omega
  have hself : UnpackedFloat.round Format.binary64 .positive k 0 =
      roundWithAccuracy Format.binary64 .positive k 0 .exact := by
    simp only [UnpackedFloat.round, decreaseExponent, hnone]
    rfl
  have hexponents : (2 : Int) ^ Format.binary64.exponentBits = 2048 := by decide
  have hkept := roundWithAccuracy_shiftLeft (s := .positive) hne htarget 53
  have hproduct : UnpackedFloat.ofScientific Format.binary64 k 0 =
      roundWithAccuracy Format.binary64 .positive (k <<< 53 * 10 ^ 0) (0 - (53 : Nat)) .exact := by
    unfold UnpackedFloat.ofScientific
    rw [dif_neg hne, if_neg (by omega), if_neg (by omega), if_pos (Int.le_refl 0)]
    rfl
  rw [hself, hproduct, Nat.pow_zero, Nat.mul_one, hkept]

theorem ofScientific_zero (hpos : 0 < k) (hk : k < 2 ^ 64) :
    Float.ofScientific k false 0 = k.toUInt64.toFloat := by
  unfold Float.ofScientific
  split
  · rename_i hsmall
    exact toFloat_mul_one hpos hsmall.1
  · rename_i hlarge
    rw [toFloat_eq_pack hpos hk, ← scientific_eq_round (by omega)]
    rfl

theorem nearest_zero (negative : Bool) (hpos : 0 < k) (hk : k < 2 ^ 64) :
    nearest negative k 0 = if negative then -k.toUInt64.toFloat else k.toUInt64.toFloat := by
  have hlength : (Nat.toDigits 10 k).length ≤ 20 :=
    (Nat.length_toDigits_le_iff (by decide) (by decide)).2 (by omega)
  have hscientific : Float.ofScientific k (decide ((0 : Int) < 0)) (0 : Int).natAbs =
      k.toUInt64.toFloat :=
    ofScientific_zero hpos hk
  have hsmall : ¬ ((k = 0 || (0 : Int) + (Nat.toDigits 10 k).length < -330) = true) := by
    simp only [Bool.or_eq_true, decide_eq_true_eq]
    omega
  have hlarge : ¬ 310 < (0 : Int) + (Nat.toDigits 10 k).length := by omega
  unfold nearest
  dsimp only
  rw [if_neg hsmall, if_neg hlarge, hscientific]

/-- The digits of an integer that is not zero are the same double with a point behind them. Zero
keeps its sign as a double only. -/
theorem nearest_eq_ofWord {n : Int64} {negative : Bool} (hpos : 0 < k)
    (h : n.toInt = if negative then -(k : Int) else k) : nearest negative k 0 = ofWord n := by
  have hlow := n.le_toInt
  have hhigh := n.toInt_lt
  have habs : n.toInt.natAbs = k := by
    rw [h]
    split <;> omega
  have hsign : (n.toInt < 0) = (negative = true) := by
    rw [h]
    cases negative <;> simp [hpos]
  rw [nearest_zero negative hpos (by omega), ofWord, habs]
  simp only [hsign]

end Decimal

end ViewTemplate
