import SkipCell.Foundation.Rounding

/-! # Arithmetic within the unit interval

Words from zero to one stay there under products, complements, quotients by larger words and
conversions. A number that is not negative may still be the negative zero, which has the sign
but not the order of a negative number.
-/

namespace Foundation

namespace FloatFormat

variable (format : FloatFormat)

/-- A word that is not below zero, and a number. -/
def Nonnegative (bits : Nat) : Prop := bits ≤ format.infinity ∨ bits = format.signBit

variable {format}

variable {bits : Nat}

theorem magnitude_of_le (hbits : bits ≤ format.infinity) :
    format.magnitude bits = bits :=
  Nat.mod_eq_of_lt (hbits.trans_lt format.infinity_lt_signBit)

theorem magnitude_signBit : format.magnitude format.signBit = 0 := Nat.mod_self _

theorem isNegative_signBit : format.isNegative format.signBit = true :=
  decide_eq_true (Nat.le_refl _)

theorem isNegative_of_le (hbits : bits ≤ format.infinity) :
    format.isNegative bits = false :=
  format.isNegative_of_lt_infinity (hbits.trans_lt format.infinity_lt_signBit)

theorem isNan_of_le (hbits : bits ≤ format.infinity) : format.isNan bits = false := by
  rw [isNan, magnitude_of_le hbits]
  exact decide_eq_false (Nat.not_lt.mpr hbits)

theorem isFinite_iff (hbits : bits ≤ format.infinity) :
    format.isFinite bits = true ↔ bits < format.infinity := by
  rw [isFinite, magnitude_of_le hbits, decide_eq_true_iff]

theorem infinity_pos_of_isFinite (hfinite : format.isFinite bits = true) :
    0 < format.infinity := Nat.zero_lt_of_lt (of_decide_eq_true hfinite)

theorem orderKey_of_le (hbits : bits ≤ format.infinity) :
    format.orderKey bits = bits := by
  rw [orderKey, isNegative_of_le hbits, magnitude_of_le hbits]
  rfl

theorem orderKey_signBit : format.orderKey format.signBit = 0 := by
  rw [orderKey, isNegative_signBit, magnitude_signBit]
  rfl

theorem toRat_signBit : format.toRat format.signBit = 0 := by
  simp [toRat, magnitude_signBit]

theorem toRat_mono {left right : Nat} (hle : left ≤ right) (hright : right < format.infinity) :
    format.toRat left ≤ format.toRat right := by
  have hleft := hle.trans_lt hright
  by_contra hnot
  have hback := ofRat_mono format (toRat_nonneg format (hright.trans format.infinity_lt_signBit))
    (le_of_not_ge hnot)
  rw [ofRat_toRat format hright, ofRat_toRat format hleft] at hback
  exact hnot (hle.antisymm hback ▸ le_rfl)

theorem ofRat_le_of_le {value : ℚ} (hvalue : 0 ≤ value) (hbits : bits < format.infinity)
    (hle : value ≤ format.toRat bits) : format.ofRat false value ≤ bits := by
  rw [← ofRat_toRat format hbits]
  exact ofRat_mono format hvalue hle

theorem ofRat_negative_zero : format.ofRat true 0 = format.signBit := by
  simp [ofRat]

theorem convert_le {target : FloatFormat} (hbits : bits ≤ format.infinity) :
    format.convert target bits ≤ target.infinity := by
  unfold convert
  rw [isNan_of_le hbits, isNegative_of_le hbits]
  simp only [Bool.false_eq_true, if_false, Nat.zero_add]
  split
  next => exact ofRat_le_infinity target _
  next => exact Nat.le_refl _

namespace Nonnegative

variable {bits left right : Nat}

theorem isNan (hbits : format.Nonnegative bits) (hinfinity : 0 < format.infinity) :
    format.isNan bits = false := by
  rcases hbits with hbits | rfl
  · exact isNan_of_le hbits
  · rw [FloatFormat.isNan, magnitude_signBit]
    exact decide_eq_false (Nat.not_lt.mpr (Nat.le_of_lt hinfinity))

theorem toRat (hbits : format.Nonnegative bits) : 0 ≤ format.toRat bits := by
  rcases hbits with hbits | rfl
  · exact toRat_nonneg format (hbits.trans_lt format.infinity_lt_signBit)
  · rw [toRat_signBit]

theorem of_orderKey (hbound : bits < 2 * format.signBit) (hfinite : format.isFinite bits = true)
    (hkey : 0 ≤ format.orderKey bits) : format.Nonnegative bits := by
  unfold orderKey at hkey
  split at hkey
  next hnegative =>
    have hsign : format.signBit ≤ bits := of_decide_eq_true hnegative
    have hmagnitude : format.magnitude bits = bits - format.signBit := by
      rw [magnitude, Nat.mod_eq_sub_mod hsign, Nat.mod_eq_of_lt (by omega)]
    exact .inr (by omega)
  next hnegative =>
    have hsign : bits < format.signBit := by
      simpa [isNegative] using hnegative
    rw [isFinite, magnitude, Nat.mod_eq_of_lt hsign] at hfinite
    exact .inl (of_decide_eq_true hfinite).le

theorem convert {target : FloatFormat} (hbits : format.Nonnegative bits)
    (hinfinity : 0 < format.infinity) : target.Nonnegative (format.convert target bits) := by
  have hnan := hbits.isNan hinfinity
  rcases hbits with hle | rfl
  · exact .inl (convert_le hle)
  · unfold FloatFormat.convert
    rw [hnan, isNegative_signBit, toRat_signBit, ofRat_negative_zero, isFinite,
      magnitude_signBit, decide_eq_true hinfinity]
    exact .inr rfl

theorem sqrt (hbits : format.Nonnegative bits) (hinfinity : 0 < format.infinity) :
    format.Nonnegative (format.sqrt bits) := by
  unfold FloatFormat.sqrt
  rw [hbits.isNan hinfinity]
  simp only [Bool.false_eq_true, if_false]
  rcases hbits with hbits | rfl
  · rw [isNegative_of_le hbits]
    simp only [Bool.false_eq_true, if_false]
    split
    next => exact .inl hbits
    next =>
      split
      next => exact .inl (ofRat_le_infinity format _)
      next => exact .inl hbits
  · rw [magnitude_signBit, if_pos rfl]
    exact .inr rfl

theorem div (hleft : format.Nonnegative left) (hright : right ≤ format.infinity)
    (hinfinity : 0 < format.infinity) :
    format.Nonnegative (format.div left right) ∨ format.div left right = format.nan := by
  unfold FloatFormat.div
  rw [hleft.isNan hinfinity, isNan_of_le hright, isNegative_of_le hright]
  simp only [Bool.or_self, Bool.false_eq_true, if_false, Bool.bne_false]
  rcases hleft with hleft | rfl
  · rw [isNegative_of_le hleft]
    simp only [Bool.false_eq_true, if_false, Nat.zero_add]
    repeat' split
    · exact .inr rfl
    · exact .inl (.inl le_rfl)
    · exact .inl (.inl (Nat.zero_le _))
    · exact .inr rfl
    · exact .inl (.inl le_rfl)
    · exact .inl (.inl (ofRat_le_infinity format _))
  · have hzero : format.isFinite format.signBit = true := by
      rw [isFinite, magnitude_signBit]
      exact decide_eq_true hinfinity
    rw [isNegative_signBit, toRat_signBit, magnitude_signBit, zero_div, ofRat_negative_zero, hzero]
    simp only [Bool.not_true, Bool.false_eq_true, if_true, if_false, Nat.add_zero]
    repeat' split
    · exact .inl (.inr rfl)
    · exact .inr rfl
    · exact .inl (.inr rfl)

theorem mul (hleft : left < format.infinity) (hright : format.Nonnegative right)
    (hfinite : format.isFinite right = true) : format.Nonnegative (format.mul left right) := by
  have hinfinity := infinity_pos_of_isFinite hfinite
  unfold FloatFormat.mul
  rw [hright.isNan hinfinity, isNan_of_le hleft.le, isNegative_of_le hleft.le, hfinite,
    format.isFinite_of_lt_infinity hleft]
  simp only [Bool.or_self, Bool.false_eq_true, if_false, Bool.and_self, if_true, Bool.false_bne]
  rcases hright with hright | rfl
  · rw [isNegative_of_le hright]
    exact .inl (ofRat_le_infinity format _)
  · rw [isNegative_signBit, toRat_signBit, mul_zero, ofRat_negative_zero]
    exact .inr rfl

end Nonnegative

end FloatFormat

namespace Single

/-- A number that is not below zero. -/
def Nonnegative (value : Single) : Prop := FloatFormat.single.Nonnegative value.bits.toNat

/-- From zero to one, without sign. -/
def InUnit (value : Single) : Prop := value.bits.toNat ≤ Single.one.bits.toNat

theorem nonnegative_of_not_lt {value : Single} (hfinite : value.isFinite = true)
    (hnot : ¬ value < .zero) : value.Nonnegative := by
  refine .of_orderKey (value.bits.toNat_lt) hfinite (not_lt.mp fun hless => hnot ?_)
  exact (lt_iff_key hfinite (by decide)).mpr hless

theorem Nonnegative.sqrt {value : Single} (hvalue : value.Nonnegative) : value.sqrt.Nonnegative := by
  have hroot := FloatFormat.Nonnegative.sqrt hvalue (by decide)
  have hbound : FloatFormat.single.sqrt value.bits.toNat < 2 ^ 32 := by
    rcases hroot with hle | hsign
    · exact hle.trans_lt (by decide)
    · rw [hsign]
      decide
  rw [Nonnegative, Single.sqrt, UInt32.toNat_ofNat_of_lt' hbound]
  exact hroot

end Single

namespace Double

/-- A number that is not below zero. -/
def Nonnegative (value : Double) : Prop := FloatFormat.double.Nonnegative value.bits.toNat

/-- From zero to one, without sign. -/
def InUnit (value : Double) : Prop := value.bits.toNat ≤ Double.one.bits.toNat

def largest : Double := ⟨0x7FEFFFFFFFFFFFFF⟩

/-- `std::max`, which keeps the first of two that do not compare. -/
def maximum (left right : Double) : Double := if left < right then right else left

/-- `std::min`, which keeps the first of two that do not compare. -/
def minimum (left right : Double) : Double := if right < left then right else left

/-- `std::clamp`, which keeps what does not compare with the bounds. -/
def clamp (value least most : Double) : Double :=
  if value < least then least else if most < value then most else value

theorem toNat_ofNat {bits : Nat} (hbits : FloatFormat.double.Nonnegative bits) :
    (UInt64.ofNat bits).toNat = bits := by
  refine UInt64.toNat_ofNat_of_lt' ?_
  rcases hbits with hle | rfl
  · exact hle.trans_lt (by decide)
  · decide

variable {left right value : Double}

theorem Nonnegative.div (hleft : left.Nonnegative)
    (hright : right.bits.toNat ≤ FloatFormat.double.infinity)
    (hfinite : (left / right).isFinite = true) : (left / right).Nonnegative := by
  rcases FloatFormat.Nonnegative.div hleft hright (by decide) with hword | hnan
  · change FloatFormat.double.Nonnegative (UInt64.ofNat (FloatFormat.double.div _ _)).toNat
    rwa [toNat_ofNat hword]
  · change FloatFormat.double.isFinite (UInt64.ofNat (FloatFormat.double.div _ _)).toNat = true
      at hfinite
    rw [hnan] at hfinite
    exact absurd hfinite (by decide)

theorem Nonnegative.mul (hleft : left.bits.toNat < FloatFormat.double.infinity)
    (hright : right.Nonnegative) (hfinite : right.isFinite = true) :
    (left * right).Nonnegative := by
  have hword := FloatFormat.Nonnegative.mul hleft hright hfinite
  change FloatFormat.double.Nonnegative (UInt64.ofNat (FloatFormat.double.mul _ _)).toNat
  rwa [toNat_ofNat hword]

theorem toRat_one : FloatFormat.double.toRat Double.one.bits.toNat = 1 := by decide +kernel

theorem one_lt_infinity : Double.one.bits.toNat < FloatFormat.double.infinity := by decide

theorem InUnit.lt_infinity (hvalue : value.InUnit) :
    value.bits.toNat < FloatFormat.double.infinity := hvalue.trans_lt one_lt_infinity

theorem InUnit.toRat_le (hvalue : value.InUnit) :
    FloatFormat.double.toRat value.bits.toNat ≤ 1 :=
  (FloatFormat.toRat_mono hvalue one_lt_infinity).trans_eq toRat_one

theorem InUnit.toRat_nonneg (hvalue : value.InUnit) :
    0 ≤ FloatFormat.double.toRat value.bits.toNat :=
  FloatFormat.toRat_nonneg _ (hvalue.lt_infinity.trans (by decide))

theorem inUnit_ofRat {value : ℚ} (hvalue : 0 ≤ value) (hle : value ≤ 1) :
    (⟨.ofNat (FloatFormat.double.ofRat false value)⟩ : Double).InUnit := by
  rw [InUnit, toNat_ofNat (.inl (FloatFormat.ofRat_le_infinity _ _))]
  exact FloatFormat.ofRat_le_of_le hvalue one_lt_infinity (hle.trans_eq toRat_one.symm)

theorem InUnit.mul (hleft : left.InUnit) (hright : right.InUnit) :
    (left * right).InUnit := by
  have hproduct : left * right = ⟨.ofNat (FloatFormat.double.ofRat false
      (FloatFormat.double.toRat left.bits.toNat * FloatFormat.double.toRat right.bits.toNat))⟩ := by
    change (⟨.ofNat (FloatFormat.double.mul _ _)⟩ : Double) = _
    simp only [FloatFormat.mul, FloatFormat.isNan_of_le hleft.lt_infinity.le,
      FloatFormat.isNan_of_le hright.lt_infinity.le,
      FloatFormat.isNegative_of_le hleft.lt_infinity.le,
      FloatFormat.isNegative_of_le hright.lt_infinity.le,
      FloatFormat.isFinite_of_lt_infinity _ hleft.lt_infinity,
      FloatFormat.isFinite_of_lt_infinity _ hright.lt_infinity, Bool.or_self, Bool.false_eq_true,
      if_false, Bool.and_self, if_true, bne_self_eq_false]
  rw [hproduct]
  exact inUnit_ofRat (mul_nonneg hleft.toRat_nonneg hright.toRat_nonneg)
    (mul_le_one₀ hleft.toRat_le hright.toRat_nonneg hright.toRat_le)

theorem one_sub_eq (hfinite : value.isFinite = true)
    (hle : FloatFormat.double.toRat value.bits.toNat ≤ 1) :
    Double.one - value = ⟨.ofNat (FloatFormat.double.ofRat false
      (1 - FloatFormat.double.toRat value.bits.toNat))⟩ := by
  have hone : FloatFormat.double.isNegative Double.one.bits.toNat = false := by decide
  have hdifference : (if FloatFormat.double.toRat Double.one.bits.toNat -
      FloatFormat.double.toRat value.bits.toNat = 0 then
        (FloatFormat.double.isNegative Double.one.bits.toNat &&
          !FloatFormat.double.isNegative value.bits.toNat) &&
            FloatFormat.double.magnitude Double.one.bits.toNat == 0
      else decide (FloatFormat.double.toRat Double.one.bits.toNat -
        FloatFormat.double.toRat value.bits.toNat < 0)) = false := by
    split
    next => rw [hone]; rfl
    next => exact decide_eq_false (not_lt_of_ge (by rw [toRat_one]; exact sub_nonneg.mpr hle))
  change (⟨.ofNat (FloatFormat.double.sub _ _)⟩ : Double) = _
  have hnan : FloatFormat.double.isNan Double.one.bits.toNat = false := by decide
  have hvalueNan : FloatFormat.double.isNan value.bits.toNat = false :=
    FloatFormat.isNan_of_isFinite _ hfinite
  have honeFinite : FloatFormat.double.isFinite Double.one.bits.toNat = true := by decide
  have hvalueFinite : FloatFormat.double.isFinite value.bits.toNat = true := hfinite
  simp only [FloatFormat.sub, hdifference]
  rw [hnan, hvalueNan, honeFinite, hvalueFinite, toRat_one]
  rfl

theorem one_sub_inUnit (hvalue : value.Nonnegative) (hfinite : value.isFinite = true)
    (hle : FloatFormat.double.toRat value.bits.toNat ≤ 1) : (Double.one - value).InUnit := by
  rw [one_sub_eq hfinite hle]
  exact inUnit_ofRat (sub_nonneg.mpr hle) (sub_le_self 1 hvalue.toRat)

/-- From minus one to one. -/
def IsCosine (value : Double) : Prop :=
  value.isFinite = true ∧ -Double.one.key ≤ value.key ∧ value.key ≤ Double.one.key

theorem IsCosine.toRat (hvalue : value.IsCosine) :
    -1 ≤ FloatFormat.double.toRat value.bits.toNat ∧
      FloatFormat.double.toRat value.bits.toNat ≤ 1 := by
  obtain ⟨-, hleast, hmost⟩ := hvalue
  have hone : Double.one.key = Double.one.bits.toNat := by decide
  have hmagnitude : ∀ bits, bits ≤ Double.one.bits.toNat →
      0 ≤ FloatFormat.double.toRat bits ∧ FloatFormat.double.toRat bits ≤ 1 := by
    intro bits hbits
    have hmono := FloatFormat.toRat_mono hbits one_lt_infinity
    refine ⟨FloatFormat.toRat_nonneg _ ?_, hmono.trans_eq toRat_one⟩
    exact (hbits.trans_lt one_lt_infinity).trans FloatFormat.double.infinity_lt_signBit
  rw [hone] at hleast hmost
  unfold key FloatFormat.orderKey at hleast hmost
  split at hleast
  next hnegative =>
    -- a negative word is the opposite of its magnitude
    have hsign : FloatFormat.double.signBit ≤ value.bits.toNat := of_decide_eq_true hnegative
    have hword := value.bits.toNat_lt
    have hwidth : FloatFormat.double.signBit = 2 ^ 63 := by decide
    have hbelow : FloatFormat.double.magnitude value.bits.toNat < FloatFormat.double.signBit :=
      Nat.mod_lt _ (by decide)
    have hopposite : value.bits.toNat =
        FloatFormat.double.negate (FloatFormat.double.magnitude value.bits.toNat) := by
      rw [FloatFormat.negate_eq _ hbelow, FloatFormat.magnitude, Nat.mod_eq_sub_mod hsign,
        Nat.mod_eq_of_lt (by omega)]
      omega
    obtain ⟨hzero, hle⟩ := hmagnitude (FloatFormat.double.magnitude value.bits.toNat) (by omega)
    rw [hopposite, FloatFormat.toRat_negate _ hbelow]
    exact ⟨neg_le_neg hle, (neg_nonpos.mpr hzero).trans zero_le_one⟩
  next hnegative =>
    have hsign : value.bits.toNat < FloatFormat.double.signBit := by
      simpa [FloatFormat.isNegative] using hnegative
    rw [if_neg hnegative, FloatFormat.magnitude, Nat.mod_eq_of_lt hsign] at hmost
    obtain ⟨hzero, hle⟩ := hmagnitude value.bits.toNat (by omega)
    exact ⟨(neg_nonpos.mpr zero_le_one).trans hzero, hle⟩

theorem IsCosine.one_sub (hvalue : value.IsCosine) :
    (Double.one - value).isFinite = true ∧ 0 ≤ (Double.one - value).key := by
  obtain ⟨hleast, hmost⟩ := hvalue.toRat
  have htwo : FloatFormat.double.toRat 0x4000000000000000 = 2 := by decide +kernel
  have hword : FloatFormat.double.ofRat false (1 - FloatFormat.double.toRat value.bits.toNat) ≤
      0x4000000000000000 := by
    refine FloatFormat.ofRat_le_of_le (sub_nonneg.mpr hmost) (by decide) ?_
    rw [htwo, sub_le_iff_le_add]
    linarith only [hleast]
  have hinfinity : (0x4000000000000000 : Nat) < FloatFormat.double.infinity := by decide
  have hbelow := hword.trans_lt hinfinity
  rw [one_sub_eq hvalue.1 hmost, isFinite, key, toNat_ofNat (.inl hbelow.le),
    FloatFormat.orderKey_of_le hbelow.le]
  exact ⟨FloatFormat.isFinite_of_lt_infinity _ hbelow, Int.natCast_nonneg _⟩

theorem toRat_le_one (hvalue : value.Nonnegative) (hnot : ¬ Double.one ≤ value) :
    value.isFinite = true ∧ FloatFormat.double.toRat value.bits.toNat ≤ 1 := by
  rcases hvalue with hle | hsign
  · have hless : value.bits.toNat < Double.one.bits.toNat := by
      refine Nat.lt_of_not_le fun hmore => hnot ?_
      change FloatFormat.double.le _ _ = true
      rw [FloatFormat.le, FloatFormat.isNan_of_le hle, FloatFormat.isNan_of_le one_lt_infinity.le,
        FloatFormat.orderKey_of_le hle, FloatFormat.orderKey_of_le one_lt_infinity.le]
      simpa using hmore
    have hunit : value.InUnit := hless.le
    exact ⟨FloatFormat.isFinite_of_lt_infinity _ hunit.lt_infinity, hunit.toRat_le⟩
  · rw [isFinite, hsign, FloatFormat.toRat_signBit]
    exact ⟨by decide, zero_le_one⟩

theorem div_toRat_le_one (hleft : left.Nonnegative) (hright : right.Nonnegative)
    (hfinite : right.isFinite = true) (hless : left < right) :
    (left / right).Nonnegative ∧ (left / right).isFinite = true ∧
      FloatFormat.double.toRat (left / right).bits.toNat ≤ 1 := by
  have hkeys := key_lt_of_lt hless
  unfold key at hkeys
  rcases hright with hright | hsign
  swap
  · -- the negative zero is above nothing that is not below zero
    rw [hsign, FloatFormat.orderKey_signBit] at hkeys
    rcases hleft with hleft | hsign
    · rw [FloatFormat.orderKey_of_le hleft] at hkeys
      omega
    · rw [hsign, FloatFormat.orderKey_signBit] at hkeys
      omega
  have hlast := (FloatFormat.isFinite_iff hright).mp hfinite
  rw [FloatFormat.orderKey_of_le hright] at hkeys
  change FloatFormat.double.isFinite right.bits.toNat = true at hfinite
  have hquotient : ∀ {quotient : Nat}, FloatFormat.double.Nonnegative quotient →
      FloatFormat.double.div left.bits.toNat right.bits.toNat = quotient →
      (left / right).bits.toNat = quotient := by
    intro quotient hword hdiv
    change (UInt64.ofNat (FloatFormat.double.div _ _)).toNat = _
    rw [hdiv, toNat_ofNat hword]
  rcases hleft with hleft | hsign
  · rw [FloatFormat.orderKey_of_le hleft] at hkeys
    have hbits : left.bits.toNat < right.bits.toNat := by omega
    have hsame := hquotient (.inl (FloatFormat.ofRat_le_infinity _ _)) (by
      simp only [FloatFormat.div, FloatFormat.isNan_of_le hleft, FloatFormat.isNan_of_le hright,
        FloatFormat.isFinite_of_lt_infinity _ (hbits.trans hlast), hfinite,
        FloatFormat.isNegative_of_le hleft, FloatFormat.isNegative_of_le hright,
        FloatFormat.magnitude_of_le hright, Bool.or_self, Bool.not_true, Bool.false_eq_true,
        if_false, if_neg (Nat.ne_zero_of_lt hbits), bne_self_eq_false]
      rfl)
    have hratio : FloatFormat.double.toRat left.bits.toNat / FloatFormat.double.toRat right.bits.toNat
        ≤ 1 := div_le_one_of_le₀ (FloatFormat.toRat_mono hbits.le hlast)
      (FloatFormat.toRat_nonneg _ (hlast.trans (by decide)))
    have hunit : (left / right).InUnit := by
      rw [InUnit, hsame]
      refine FloatFormat.ofRat_le_of_le ?_ one_lt_infinity (hratio.trans_eq toRat_one.symm)
      exact div_nonneg (FloatFormat.toRat_nonneg _ (hleft.trans_lt (by decide)))
        (FloatFormat.toRat_nonneg _ (hlast.trans (by decide)))
    exact ⟨.inl hunit.lt_infinity.le, FloatFormat.isFinite_of_lt_infinity _ hunit.lt_infinity,
      hunit.toRat_le⟩
  · rw [hsign, FloatFormat.orderKey_signBit] at hkeys
    have hzero : FloatFormat.double.isFinite FloatFormat.double.signBit = true := by decide
    have hsame := hquotient (.inr rfl) (by
      simp only [FloatFormat.div, hsign, FloatFormat.isNan_of_le hright, hfinite, hzero,
        FloatFormat.isNegative_of_le hright, FloatFormat.magnitude_of_le hright,
        FloatFormat.toRat_signBit, zero_div, if_neg (show right.bits.toNat ≠ 0 by omega)]
      decide +kernel)
    refine ⟨.inr hsame, ?_, ?_⟩
    · rw [isFinite, hsame]
      exact hzero
    · rw [hsame, FloatFormat.toRat_signBit]
      exact zero_le_one

theorem InUnit.clamp (hvalue : value.InUnit) :
    (value.clamp .zero .one).InUnit := by
  unfold Double.clamp
  split
  next => exact Nat.zero_le _
  next =>
    split
    next => exact Nat.le_refl _
    next => exact hvalue

theorem InUnit.toSingle (hvalue : value.InUnit) : value.toSingle.InUnit := by
  rw [Single.InUnit, toSingle_bits hvalue.lt_infinity]
  refine FloatFormat.ofRat_le_of_le hvalue.toRat_nonneg (by decide) (hvalue.toRat_le.trans_eq ?_)
  decide +kernel

end Double

namespace Single

theorem toDouble_le_infinity {value : Single}
    (hvalue : value.bits.toNat ≤ FloatFormat.single.infinity) :
    value.toDouble.bits.toNat ≤ FloatFormat.double.infinity := by
  have hword : FloatFormat.single.convert .double value.bits.toNat ≤ FloatFormat.double.infinity :=
    FloatFormat.convert_le hvalue
  rwa [Single.toDouble, Double.toNat_ofNat (.inl hword)]

theorem Nonnegative.toDouble {value : Single} (hvalue : value.Nonnegative) :
    value.toDouble.Nonnegative := by
  have hword : FloatFormat.double.Nonnegative (FloatFormat.single.convert .double value.bits.toNat) :=
    FloatFormat.Nonnegative.convert hvalue (by decide)
  rw [Double.Nonnegative, Single.toDouble, Double.toNat_ofNat hword]
  exact hword

theorem toDouble_lt_infinity {value : Single}
    (hvalue : value.bits.toNat < FloatFormat.single.infinity) :
    value.toDouble.bits.toNat < FloatFormat.double.infinity := by
  have hlast : FloatFormat.double.ofRat false
      (FloatFormat.single.toRat (FloatFormat.single.infinity - 1)) <
      FloatFormat.double.infinity := by decide +kernel
  rw [toDouble_bits hvalue]
  refine (FloatFormat.ofRat_mono _ (FloatFormat.toRat_nonneg _ (hvalue.trans (by decide))) ?_).trans_lt
    hlast
  exact FloatFormat.toRat_mono (Nat.le_sub_one_of_lt hvalue) (by decide)

end Single

theorem Single.InUnit.toDouble {value : Single} (hvalue : value.InUnit) : value.toDouble.InUnit := by
  have hinfinity : Single.one.bits.toNat < FloatFormat.single.infinity := by decide
  have hone : FloatFormat.single.toRat Single.one.bits.toNat = 1 := by decide +kernel
  rw [Double.InUnit, toDouble_bits (hvalue.trans_lt hinfinity)]
  refine FloatFormat.ofRat_le_of_le ?_ Double.one_lt_infinity ?_
  · exact FloatFormat.toRat_nonneg _ ((hvalue.trans_lt hinfinity).trans (by decide))
  · rw [Double.toRat_one, ← hone]
    exact FloatFormat.toRat_mono hvalue hinfinity

end Foundation
