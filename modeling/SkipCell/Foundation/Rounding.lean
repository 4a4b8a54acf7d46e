import SkipCell.Foundation.Ieee

/-! # Rounding

Rounding to a format is monotone, and it leaves a number of the format as it is.
These two facts bound every rounded result by a number of the format that bounds
the exact one.
-/

namespace Foundation

namespace FloatFormat

section Ratio

variable {numerator denominator other divisor bound : Nat}

theorem roundHalfEven_mul (quotient : Nat) (hdenominator : 0 < denominator) :
    roundHalfEven (quotient * denominator) denominator = quotient := by
  rw [roundHalfEven, Nat.mul_div_cancel _ hdenominator, Nat.mul_mod_left]
  exact if_neg (by omega)

theorem roundHalfEven_mono (hdenominator : 0 < denominator) (hdivisor : 0 < divisor)
    (hle : numerator * divisor ≤ other * denominator) :
    roundHalfEven numerator denominator ≤ roundHalfEven other divisor := by
  have hleft := Nat.div_add_mod numerator denominator
  have hright := Nat.div_add_mod other divisor
  have hquotient : numerator / denominator ≤ other / divisor := by
    rw [Nat.le_div_iff_mul_le hdivisor]
    have hfloor := Nat.div_mul_le_self numerator denominator
    apply Nat.le_of_mul_le_mul_right _ hdenominator
    calc numerator / denominator * divisor * denominator
        = numerator / denominator * denominator * divisor := by ring
      _ ≤ numerator * divisor := Nat.mul_le_mul_right _ hfloor
      _ ≤ other * denominator := hle
  have hatLeast : other / divisor ≤ roundHalfEven other divisor := by
    unfold roundHalfEven
    dsimp only
    split <;> omega
  obtain hlt | heq := Nat.lt_or_eq_of_le hquotient
  · apply le_trans _ hatLeast
    unfold roundHalfEven
    dsimp only
    split <;> omega
  · -- The quotients agree, so the remainders decide.
    have hremainder : numerator % denominator * divisor ≤ other % divisor * denominator := by
      have hnumerator : numerator * divisor =
          (denominator * (numerator / denominator) + numerator % denominator) * divisor := by
        rw [hleft]
      have hother : other * denominator =
          (divisor * (numerator / denominator) + other % divisor) * denominator := by
        rw [heq, hright]
      rw [hnumerator, hother] at hle
      nlinarith
    unfold roundHalfEven
    dsimp only
    rw [heq]
    split
    next hup =>
      have hsame : divisor < 2 * (other % divisor) ∨
          2 * (other % divisor) = divisor ∧ other / divisor % 2 = 1 := by
        rcases hup with hmore | ⟨hhalf, hodd⟩
        · left
          apply Nat.lt_of_mul_lt_mul_right (a := denominator)
          nlinarith
        · obtain hless | hequal | hmore := Nat.lt_trichotomy (2 * (other % divisor)) divisor
          · exfalso
            nlinarith
          · exact .inr ⟨hequal, hodd⟩
          · exact .inl hmore
      rw [if_pos hsame]
    next => split <;> omega

theorem roundHalfEven_eq (hdenominator : 0 < denominator)
    (heq : numerator = bound * denominator) : roundHalfEven numerator denominator = bound := by
  rw [heq, roundHalfEven_mul bound hdenominator]

end Ratio

/-! ## Rounding to a format -/

def lastExponent (format : FloatFormat) (value : ℚ) : ℤ :=
  max format.leastExponent (Int.log 2 value - format.fractionBits)

/-- A positive value in units of a power of two, rounded. -/
def rounded (exponent : ℤ) (value : ℚ) : Nat :=
  if 0 ≤ exponent then roundHalfEven value.num.natAbs (value.den * 2 ^ exponent.toNat)
  else roundHalfEven (value.num.natAbs * 2 ^ (-exponent).toNat) value.den

variable {value left right : ℚ} {exponent : ℤ} {multiple digits bits : Nat}

theorem natAbs_num_eq (hvalue : 0 ≤ value) :
    (value.num.natAbs : ℚ) = value * value.den := by
  have hnum := Int.natAbs_of_nonneg (Rat.num_nonneg.mpr hvalue)
  rw [Rat.mul_den_eq_num, ← Int.cast_natCast, hnum]

theorem zpow_neg_exponent (hexponent : exponent < 0) :
    (2 : ℚ) ^ exponent * 2 ^ (-exponent).toNat = 1 := by
  have hcast : (((-exponent).toNat : ℕ) : ℤ) = -exponent := Int.toNat_of_nonneg (by omega)
  rw [← zpow_natCast, hcast, ← zpow_add₀ (by norm_num), add_neg_cancel, zpow_zero]

theorem zpow_exponent (hexponent : 0 ≤ exponent) :
    (2 : ℚ) ^ exponent = (2 ^ exponent.toNat : ℕ) := by
  have hcast : ((exponent.toNat : ℕ) : ℤ) = exponent := Int.toNat_of_nonneg hexponent
  rw [Nat.cast_pow, Nat.cast_ofNat, ← zpow_natCast, hcast]

theorem rounded_mono (hleft : 0 ≤ left) (hle : left ≤ right) :
    rounded exponent left ≤ rounded exponent right := by
  have hleftNum := natAbs_num_eq hleft
  have hrightNum := natAbs_num_eq (hleft.trans hle)
  have hcross : left.num.natAbs * right.den ≤ right.num.natAbs * left.den := by
    have hrat : (left.num.natAbs : ℚ) * right.den ≤ right.num.natAbs * left.den := by
      have hdens : (0 : ℚ) ≤ left.den * right.den := by positivity
      rw [hleftNum, hrightNum]
      nlinarith
    exact_mod_cast hrat
  unfold rounded
  split
  next =>
    apply roundHalfEven_mono (Nat.mul_pos left.den_pos (by positivity))
      (Nat.mul_pos right.den_pos (by positivity))
    calc left.num.natAbs * (right.den * 2 ^ exponent.toNat)
        = left.num.natAbs * right.den * 2 ^ exponent.toNat := by ring
      _ ≤ right.num.natAbs * left.den * 2 ^ exponent.toNat := Nat.mul_le_mul_right _ hcross
      _ = right.num.natAbs * (left.den * 2 ^ exponent.toNat) := by ring
  next =>
    apply roundHalfEven_mono left.den_pos right.den_pos
    calc left.num.natAbs * 2 ^ (-exponent).toNat * right.den
        = left.num.natAbs * right.den * 2 ^ (-exponent).toNat := by ring
      _ ≤ right.num.natAbs * left.den * 2 ^ (-exponent).toNat := Nat.mul_le_mul_right _ hcross
      _ = right.num.natAbs * 2 ^ (-exponent).toNat * left.den := by ring

theorem rounded_multiple (exponent : ℤ) (multiple : Nat) :
    rounded exponent (multiple * 2 ^ exponent) = multiple := by
  have hnonneg : (0 : ℚ) ≤ multiple * 2 ^ exponent :=
    mul_nonneg (Nat.cast_nonneg _) (zpow_nonneg (by norm_num) _)
  have hnum := natAbs_num_eq hnonneg
  generalize hvalue : (multiple * 2 ^ exponent : ℚ) = value at hnum hnonneg ⊢
  unfold rounded
  split
  next hexponent =>
    apply roundHalfEven_eq (Nat.mul_pos value.den_pos (by positivity))
    have hrat : (value.num.natAbs : ℚ) = multiple * (value.den * (2 ^ exponent.toNat : ℕ)) := by
      rw [hnum, ← zpow_exponent hexponent]
      nth_rewrite 1 [← hvalue]
      ring
    exact_mod_cast hrat
  next hexponent =>
    apply roundHalfEven_eq value.den_pos
    have hunit := zpow_neg_exponent (lt_of_not_ge hexponent)
    have hrat : (value.num.natAbs : ℚ) * (2 ^ (-exponent).toNat : ℕ) = multiple * value.den := by
      rw [hnum, Nat.cast_pow, Nat.cast_ofNat]
      calc value * value.den * 2 ^ (-exponent).toNat
          = multiple * (2 ^ exponent * 2 ^ (-exponent).toNat) * value.den := by
            nth_rewrite 1 [← hvalue]
            ring
        _ = multiple * value.den := by rw [hunit, mul_one]
    exact_mod_cast hrat

theorem le_rounded (hle : multiple * 2 ^ exponent ≤ value) : multiple ≤ rounded exponent value := by
  rw [← rounded_multiple exponent multiple]
  exact rounded_mono (mul_nonneg (Nat.cast_nonneg _) (zpow_nonneg (by norm_num) _)) hle

theorem rounded_le (hvalue : 0 ≤ value) (hle : value ≤ multiple * 2 ^ exponent) :
    rounded exponent value ≤ multiple := by
  rw [← rounded_multiple exponent multiple]
  exact rounded_mono hvalue hle

variable (format : FloatFormat)

theorem log_eq (hvalue : 0 < value) :
    (if value.den ≤ value.num.natAbs then (Nat.log 2 (value.num.natAbs / value.den) : ℤ)
      else -(Nat.clog 2 ((value.den + value.num.natAbs - 1) / value.num.natAbs) : ℤ)) =
      Int.log 2 value := by
  have hnum := natAbs_num_eq hvalue.le
  have hden : (0 : ℚ) < value.den := by exact_mod_cast value.den_pos
  have hvalueEq : value = (value.num.natAbs : ℚ) / value.den := by
    rw [hnum, mul_div_cancel_right₀ _ hden.ne']
  have hnumPos : 0 < value.num.natAbs := Int.natAbs_pos.mpr (Rat.num_ne_zero.mpr hvalue.ne')
  split
  next hle =>
    have hone : 1 ≤ value := by
      rw [hvalueEq, le_div_iff₀ hden, one_mul]
      exact_mod_cast hle
    rw [Int.log_of_one_le_right 2 hone]
    nth_rewrite 3 [hvalueEq]
    rw [Nat.floor_div_eq_div]
  next hlt =>
    have hone : value ≤ 1 := by
      rw [hvalueEq, div_le_one hden]
      exact_mod_cast Nat.le_of_not_le hlt
    rw [Int.log_of_right_le_one 2 hone]
    congr 3
    symm
    have hinv : value⁻¹ = (value.den : ℚ) / value.num.natAbs := by
      nth_rewrite 1 [hvalueEq]
      rw [inv_div]
    have hnumRat : (0 : ℚ) < value.num.natAbs := by exact_mod_cast hnumPos
    apply le_antisymm
    · rw [Nat.ceil_le, hinv, div_le_iff₀ hnumRat]
      have hceil := Nat.div_add_mod (value.den + value.num.natAbs - 1) value.num.natAbs
      have hmod := Nat.mod_lt (value.den + value.num.natAbs - 1) hnumPos
      have hnat : value.den ≤
          (value.den + value.num.natAbs - 1) / value.num.natAbs * value.num.natAbs := by
        rw [Nat.mul_comm]
        omega
      exact_mod_cast hnat
    · have hceil := Nat.le_ceil (value⁻¹)
      rw [hinv, div_le_iff₀ hnumRat, ← hinv] at hceil
      have hnat : value.den ≤ ⌈value⁻¹⌉₊ * value.num.natAbs := by exact_mod_cast hceil
      apply Nat.le_of_lt_succ
      rw [Nat.div_lt_iff_lt_mul hnumPos, Nat.succ_mul]
      omega

theorem ofRat_eq (hvalue : 0 < value) :
    format.ofRat false value =
      min ((format.lastExponent value - format.leastExponent).toNat * 2 ^ format.fractionBits +
        rounded (format.lastExponent value) value) format.infinity := by
  have hnum : value.num.natAbs ≠ 0 := Int.natAbs_ne_zero.mpr (Rat.num_ne_zero.mpr hvalue.ne')
  simp only [ofRat, log_eq hvalue, if_neg hnum, Bool.false_eq_true, if_false, Nat.zero_add]
  rfl

theorem ofRat_zero : format.ofRat false 0 = 0 := by
  simp [ofRat]

theorem ofRat_le_infinity (value : ℚ) : format.ofRat false value ≤ format.infinity := by
  simp only [ofRat, Bool.false_eq_true, if_false, Nat.zero_add]
  split
  next => exact Nat.zero_le _
  next => exact Nat.min_le_right _ _

theorem fraction_le_rounded (hvalue : 0 < value)
    (hexponent : format.leastExponent < format.lastExponent value) :
    2 ^ format.fractionBits ≤ rounded (format.lastExponent value) value := by
  apply le_rounded
  have hlast : format.lastExponent value = Int.log 2 value - format.fractionBits := by
    unfold lastExponent at hexponent ⊢
    omega
  have hlog := Int.zpow_log_le_self (b := 2) (by norm_num) hvalue
  rw [hlast, Nat.cast_pow, Nat.cast_ofNat, ← zpow_natCast, ← zpow_add₀ (by norm_num)]
  rw [add_sub_cancel]
  exact_mod_cast hlog

theorem rounded_le_fraction (hvalue : 0 < value) :
    rounded (format.lastExponent value) value ≤ 2 ^ (format.fractionBits + 1) := by
  apply rounded_le hvalue.le
  have hlog := Int.lt_zpow_succ_log_self (b := 2) (by norm_num) value
  rw [Nat.cast_pow, Nat.cast_ofNat, ← zpow_natCast, ← zpow_add₀ (by norm_num)]
  refine (le_of_lt (by exact_mod_cast hlog)).trans
    (zpow_le_zpow_right₀ (by norm_num : (1 : ℚ) ≤ 2) ?_)
  unfold lastExponent
  push_cast
  omega

theorem lastExponent_mono (hleft : 0 < left) (hle : left ≤ right) :
    format.lastExponent left ≤ format.lastExponent right := by
  have hlog := Int.log_mono_right (b := 2) hleft hle
  unfold lastExponent
  omega

theorem ofRat_mono (hleft : 0 ≤ left) (hle : left ≤ right) :
    format.ofRat false left ≤ format.ofRat false right := by
  obtain rfl | hpositive := hleft.eq_or_lt
  · rw [ofRat_zero]
    exact Nat.zero_le _
  have hright := hpositive.trans_le hle
  rw [ofRat_eq format hpositive, ofRat_eq format hright]
  apply min_le_min_right
  obtain heq | hlt := (lastExponent_mono format hpositive hle).eq_or_lt
  · rw [heq]
    exact Nat.add_le_add_left (rounded_mono hleft hle) _
  · -- The larger value has a digit more before its last exponent.
    have hleast : format.leastExponent ≤ format.lastExponent left := le_max_left _ _
    have hmost := rounded_le_fraction format hpositive
    have hfew := fraction_le_rounded format hright (lt_of_le_of_lt hleast hlt)
    have hsteps : (format.lastExponent left - format.leastExponent).toNat + 1 ≤
        (format.lastExponent right - format.leastExponent).toNat := by omega
    have hscaled := Nat.mul_le_mul_right (2 ^ format.fractionBits) hsteps
    rw [pow_succ] at hmost
    rw [Nat.add_mul] at hscaled
    omega

/-! ## Numbers of the format -/

theorem multiple_pos (exponent : ℤ) (hpositive : 0 < multiple) :
    (0 : ℚ) < multiple * 2 ^ exponent :=
  mul_pos (Nat.cast_pos.mpr hpositive) (zpow_pos (by norm_num) _)

theorem log_multiple_lt (exponent : ℤ) (hpositive : 0 < multiple) (hbound : multiple < 2 ^ digits) :
    Int.log 2 (multiple * 2 ^ exponent : ℚ) < exponent + digits := by
  rw [← Int.lt_zpow_iff_log_lt (by norm_num) (multiple_pos exponent hpositive), Nat.cast_ofNat,
    zpow_add₀ (by norm_num), mul_comm, zpow_natCast]
  apply mul_lt_mul_of_pos_left _ (zpow_pos (by norm_num) _)
  exact_mod_cast hbound

theorem le_log_multiple (exponent : ℤ) (hbound : 2 ^ digits ≤ multiple) :
    exponent + digits ≤ Int.log 2 (multiple * 2 ^ exponent : ℚ) := by
  have hpositive : 0 < multiple := (show 0 < 2 ^ digits by positivity).trans_le hbound
  rw [← Int.zpow_le_iff_le_log (by norm_num) (multiple_pos exponent hpositive), Nat.cast_ofNat,
    zpow_add₀ (by norm_num), mul_comm, zpow_natCast]
  apply mul_le_mul_of_nonneg_right _ (zpow_nonneg (by norm_num) _)
  exact_mod_cast hbound

theorem isNegative_of_lt_infinity (hbits : bits < format.signBit) :
    format.isNegative bits = false :=
  decide_eq_false (Nat.not_le.mpr hbits)

theorem infinity_lt_signBit : format.infinity < format.signBit := by
  have hfraction : 0 < 2 ^ format.fractionBits := by positivity
  have hexponent : 0 < 2 ^ format.exponentBits := by positivity
  rw [infinity, signBit, Nat.pow_add, Nat.mul_comm]
  exact Nat.mul_lt_mul_of_pos_left (by omega) hfraction

theorem toRat_eq (hbits : bits < format.signBit) :
    format.toRat bits =
      (if bits / 2 ^ format.fractionBits = 0 then bits % 2 ^ format.fractionBits
        else 2 ^ format.fractionBits + bits % 2 ^ format.fractionBits : Nat) *
      2 ^ (format.leastExponent + (bits / 2 ^ format.fractionBits - 1 : Nat)) := by
  simp only [toRat, magnitude, Nat.mod_eq_of_lt hbits, isNegative_of_lt_infinity format hbits,
    Bool.false_eq_true, if_false]
  split
  next hexponent => rw [zpow_exponent hexponent]
  next hexponent =>
    have hunit := zpow_neg_exponent (lt_of_not_ge hexponent)
    rw [div_eq_mul_inv, Nat.cast_pow, Nat.cast_ofNat]
    congr 1
    exact (eq_inv_of_mul_eq_one_left hunit).symm

theorem toRat_nonneg (hbits : bits < format.signBit) : 0 ≤ format.toRat bits := by
  rw [toRat_eq format hbits]
  exact mul_nonneg (Nat.cast_nonneg _) (zpow_nonneg (by norm_num) _)

theorem ofRat_toRat (hbits : bits < format.infinity) :
    format.ofRat false (format.toRat bits) = bits := by
  have hsign := hbits.trans format.infinity_lt_signBit
  have hdigits := Nat.div_add_mod bits (2 ^ format.fractionBits)
  have hfraction := Nat.mod_lt bits (show 0 < 2 ^ format.fractionBits by positivity)
  obtain rfl | hpositive := Nat.eq_zero_or_pos bits
  · rw [toRat_eq format hsign]
    simp [ofRat_zero]
  have htoRat := toRat_eq format hsign
  set field := bits / 2 ^ format.fractionBits with hfield
  set fraction := bits % 2 ^ format.fractionBits
  set significand := if field = 0 then fraction else 2 ^ format.fractionBits + fraction
    with hsignificand
  set exponent : ℤ := format.leastExponent + (field - 1 : Nat) with hexponent
  have hsignificandPos : 0 < significand := by
    rw [hsignificand]
    split
    next hzero =>
      rw [hzero] at hdigits
      omega
    next => exact Nat.add_pos_left (by positivity) _
  have hvalue := multiple_pos exponent hsignificandPos
  have hbound : significand < 2 ^ (format.fractionBits + 1) := by
    rw [hsignificand, pow_succ]
    split <;> omega
  have hlogBelow := log_multiple_lt exponent hsignificandPos hbound
  -- The last exponent is that of the word.
  have hlast : format.lastExponent (significand * 2 ^ exponent : ℚ) = exponent := by
    unfold lastExponent
    by_cases hzero : field = 0
    · rw [hzero] at hexponent
      have hsmall : significand < 2 ^ format.fractionBits := by
        rw [hsignificand, if_pos hzero]
        exact hfraction
      have hlog := log_multiple_lt exponent hsignificandPos hsmall
      omega
    · have hlarge : 2 ^ format.fractionBits ≤ significand := by
        rw [hsignificand, if_neg hzero]
        exact Nat.le_add_right _ _
      have hlog := le_log_multiple exponent hlarge
      omega
  rw [htoRat, ofRat_eq format hvalue, hlast, rounded_multiple]
  have hsteps : (exponent - format.leastExponent).toNat = field - 1 := by omega
  rw [hsteps]
  have hsame : (field - 1) * 2 ^ format.fractionBits + significand = bits := by
    rw [hsignificand]
    split
    next hzero =>
      rw [hzero] at hdigits ⊢
      omega
    next hzero =>
      obtain ⟨before, hbefore⟩ := Nat.exists_eq_add_one_of_ne_zero hzero
      rw [hbefore] at hdigits ⊢
      rw [Nat.add_sub_cancel, ← hdigits]
      ring
  rw [hsame, Nat.min_eq_left hbits.le]

theorem isFinite_of_lt_infinity (hbits : bits < format.infinity) :
    format.isFinite bits = true := by
  rw [isFinite, magnitude, Nat.mod_eq_of_lt (hbits.trans format.infinity_lt_signBit)]
  exact decide_eq_true hbits

section

variable {bits : Nat} (hbits : bits < format.signBit)
include hbits

theorem negate_eq :
    format.negate bits = format.signBit + bits := by
  rw [negate, Nat.mod_eq_of_lt (by omega), Nat.add_comm]

theorem magnitude_negate :
    format.magnitude (format.negate bits) = bits := by
  rw [negate_eq format hbits, magnitude, Nat.add_mod_left, Nat.mod_eq_of_lt hbits]

theorem isNegative_negate :
    format.isNegative (format.negate bits) = true := by
  rw [negate_eq format hbits]
  exact decide_eq_true (Nat.le_add_right _ _)

theorem toRat_negate :
    format.toRat (format.negate bits) = -format.toRat bits := by
  have hsame : format.magnitude bits = bits := Nat.mod_eq_of_lt hbits
  simp only [toRat, magnitude_negate format hbits, isNegative_negate format hbits, hsame,
    isNegative_of_lt_infinity format hbits, Bool.false_eq_true, if_true, if_false]

end

end FloatFormat

/-! ## Rounding distances up -/

namespace Double

/-- A word without sign. -/
def Unsigned (value : Double) : Prop := value.bits.toNat < 2 ^ 63

theorem key_lt_of_lt {left right : Double} (hlt : left < right) : left.key < right.key := by
  change FloatFormat.double.lt _ _ = true at hlt
  simp only [FloatFormat.lt, Bool.and_eq_true] at hlt
  exact of_decide_eq_true hlt.2

end Double

namespace Single

theorem isNan_eq_false {value : Single} (hvalue : value.bits.toNat ≤ FloatFormat.single.infinity) :
    FloatFormat.single.isNan value.bits.toNat = false := by
  have hmagnitude : FloatFormat.single.magnitude value.bits.toNat = value.bits.toNat :=
    Nat.mod_eq_of_lt (hvalue.trans_lt (by decide))
  rw [FloatFormat.isNan, hmagnitude]
  exact decide_eq_false (Nat.not_lt.mpr hvalue)

theorem orderKey_eq {value : Single} (hvalue : value.bits.toNat ≤ FloatFormat.single.infinity) :
    FloatFormat.single.orderKey value.bits.toNat = value.bits.toNat := by
  have hsign : value.bits.toNat < FloatFormat.single.signBit := hvalue.trans_lt (by decide)
  have hmagnitude : FloatFormat.single.magnitude value.bits.toNat = value.bits.toNat :=
    Nat.mod_eq_of_lt hsign
  rw [FloatFormat.orderKey, FloatFormat.isNegative_of_lt_infinity .single hsign, hmagnitude]
  rfl

theorem lt_iff_bits {left right : Single} (hleft : left.bits.toNat ≤ FloatFormat.single.infinity)
    (hright : right.bits.toNat ≤ FloatFormat.single.infinity) :
    left < right ↔ left.bits.toNat < right.bits.toNat := by
  change FloatFormat.single.lt _ _ = true ↔ _
  rw [FloatFormat.lt, isNan_eq_false hleft, isNan_eq_false hright, orderKey_eq hleft,
    orderKey_eq hright]
  simp

end Single

namespace FloatFormat

end FloatFormat

section Distances

variable {radius : Single} {distance : Double}

theorem toSingle_bits (hdistance : distance.bits.toNat < FloatFormat.double.infinity) :
    distance.toSingle.bits.toNat =
      FloatFormat.single.ofRat false (FloatFormat.double.toRat distance.bits.toNat) := by
  have hfinite := FloatFormat.isFinite_of_lt_infinity .double hdistance
  have hnegative := FloatFormat.isNegative_of_lt_infinity .double
    (hdistance.trans FloatFormat.double.infinity_lt_signBit)
  rw [Double.toSingle, FloatFormat.convert, FloatFormat.isNan_of_isFinite .double hfinite, hfinite,
    hnegative]
  simp only [Bool.false_eq_true, if_false, if_true]
  rw [UInt32.toNat_ofNat', Nat.mod_eq_of_lt]
  exact (FloatFormat.ofRat_le_infinity _ _).trans_lt (by decide)

theorem toDouble_bits (hradius : radius.bits.toNat < FloatFormat.single.infinity) :
    radius.toDouble.bits.toNat =
      FloatFormat.double.ofRat false (FloatFormat.single.toRat radius.bits.toNat) := by
  have hfinite := FloatFormat.isFinite_of_lt_infinity .single hradius
  have hnegative := FloatFormat.isNegative_of_lt_infinity .single
    (hradius.trans FloatFormat.single.infinity_lt_signBit)
  rw [Single.toDouble, FloatFormat.convert, FloatFormat.isNan_of_isFinite .single hfinite, hfinite,
    hnegative]
  simp only [Bool.false_eq_true, if_false, if_true]
  rw [UInt64.toNat_ofNat', Nat.mod_eq_of_lt]
  exact (FloatFormat.ofRat_le_infinity _ _).trans_lt (by decide)

end Distances

end Foundation
