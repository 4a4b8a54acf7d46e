import Mathlib

/-! # Binary floating-point numbers as bit patterns

Single and double precision words, their comparisons, and correctly rounded
arithmetic. A comparison with a NaN is false. Arithmetic decodes finite operands
to exact rationals and rounds once, to nearest with ties to even.
-/

namespace Foundation

/-- The widths of the fraction and the exponent fields. -/
structure FloatFormat where
  fractionBits : Nat
  exponentBits : Nat

namespace FloatFormat

variable (format : FloatFormat)

def single : FloatFormat := ⟨23, 8⟩

def double : FloatFormat := ⟨52, 11⟩

def signBit : Nat := 2 ^ (format.fractionBits + format.exponentBits)

def infinity : Nat := (2 ^ format.exponentBits - 1) * 2 ^ format.fractionBits

def nan : Nat := format.infinity + 2 ^ (format.fractionBits - 1)

def magnitude (bits : Nat) : Nat := bits % format.signBit

def isNegative (bits : Nat) : Bool := decide (format.signBit ≤ bits)

def isFinite (bits : Nat) : Bool := decide (format.magnitude bits < format.infinity)

def isNan (bits : Nat) : Bool := decide (format.infinity < format.magnitude bits)

/-- Magnitudes order words of one sign; the two zeros have the same key. -/
def orderKey (bits : Nat) : Int :=
  if format.isNegative bits then -(format.magnitude bits : Int) else format.magnitude bits

def lt (left right : Nat) : Bool :=
  !format.isNan left && !format.isNan right &&
    decide (format.orderKey left < format.orderKey right)

def le (left right : Nat) : Bool :=
  !format.isNan left && !format.isNan right &&
    decide (format.orderKey left ≤ format.orderKey right)

theorem isNan_of_isFinite {bits : Nat} (hfinite : format.isFinite bits = true) :
    format.isNan bits = false :=
  decide_eq_false (Nat.not_lt.mpr (Nat.le_of_lt (of_decide_eq_true hfinite)))

theorem lt_iff_orderKey {left right : Nat} (hleft : format.isFinite left = true)
    (hright : format.isFinite right = true) :
    format.lt left right = true ↔ format.orderKey left < format.orderKey right := by
  rw [lt, isNan_of_isFinite format hleft, isNan_of_isFinite format hright]
  exact decide_eq_true_iff

theorem lt_eq_true {left right : Nat} : format.lt left right = true ↔
    format.isNan left = false ∧ format.isNan right = false ∧
      format.orderKey left < format.orderKey right := by
  simp only [lt, Bool.and_eq_true, Bool.not_eq_true', decide_eq_true_eq, and_assoc]

theorem le_iff_orderKey {left right : Nat} (hleft : format.isFinite left = true)
    (hright : format.isFinite right = true) :
    format.le left right = true ↔ format.orderKey left ≤ format.orderKey right := by
  rw [le, isNan_of_isFinite format hleft, isNan_of_isFinite format hright]
  exact decide_eq_true_iff

/-- The exponent of the last fraction bit of the least normal numbers. -/
def leastExponent : Int := 2 - 2 ^ (format.exponentBits - 1) - format.fractionBits

/-- The exact value of a finite word. -/
def toRat (bits : Nat) : Rat :=
  let field := format.magnitude bits / 2 ^ format.fractionBits
  let fraction := format.magnitude bits % 2 ^ format.fractionBits
  let significand := if field = 0 then fraction else 2 ^ format.fractionBits + fraction
  let exponent := format.leastExponent + (field - 1 : Nat)
  let magnitude : Rat :=
    if 0 ≤ exponent then significand * (2 ^ exponent.toNat : Nat)
    else significand / (2 ^ (-exponent).toNat : Nat)
  if format.isNegative bits then -magnitude else magnitude

/-- The integer nearest to a ratio, and the even one of two. -/
def roundHalfEven (numerator denominator : Nat) : Nat :=
  let quotient := numerator / denominator
  let twice := 2 * (numerator % denominator)
  if denominator < twice ∨ twice = denominator ∧ quotient % 2 = 1 then quotient + 1 else quotient

/-- The word nearest to a rational; a magnitude out of range becomes infinite. -/
def ofRat (negative : Bool) (value : Rat) : Nat :=
  let numerator := value.num.natAbs
  let denominator := value.den
  let logarithm : Int :=
    if denominator ≤ numerator then Nat.log 2 (numerator / denominator)
    else -(Nat.clog 2 ((denominator + numerator - 1) / numerator) : Int)
  let exponent := max format.leastExponent (logarithm - format.fractionBits)
  let significand :=
    if 0 ≤ exponent then roundHalfEven numerator (denominator * 2 ^ exponent.toNat)
    else roundHalfEven (numerator * 2 ^ (-exponent).toNat) denominator
  let magnitude := (exponent - format.leastExponent).toNat * 2 ^ format.fractionBits + significand
  (if negative then format.signBit else 0) +
    if numerator = 0 then 0 else min magnitude format.infinity

def sub (left right : Nat) : Nat :=
  if format.isNan left || format.isNan right then format.nan
  else if format.isFinite left && format.isFinite right then
    let difference := format.toRat left - format.toRat right
    let bothZeroNegative := format.isNegative left && !format.isNegative right
    format.ofRat (if difference = 0 then
      bothZeroNegative && format.magnitude left == 0 else decide (difference < 0)) difference
  else if format.isFinite right then left
  else if format.isFinite left then (right + format.signBit) % (2 * format.signBit)
  else if format.isNegative left == format.isNegative right then format.nan
  else left

/-- The word of the opposite sign. -/
def negate (bits : Nat) : Nat := (bits + format.signBit) % (2 * format.signBit)

def add (left right : Nat) : Nat := format.sub left (format.negate right)

def mul (left right : Nat) : Nat :=
  let negative := format.isNegative left != format.isNegative right
  if format.isNan left || format.isNan right then format.nan
  else if format.isFinite left && format.isFinite right then
    format.ofRat negative (format.toRat left * format.toRat right)
  else if format.magnitude left = 0 ∨ format.magnitude right = 0 then format.nan
  else (if negative then format.signBit else 0) + format.infinity

/-- The integer root of the scaled value has two bits to spare; a last bit records
whether it is exact, so that the one rounding sees the true root. -/
def sqrt (bits : Nat) : Nat :=
  if format.isNan bits then format.nan
  else if format.magnitude bits = 0 then bits
  else if format.isNegative bits then format.nan
  else if format.isFinite bits then
    let value := format.toRat bits
    let shift := format.fractionBits + 2 + Nat.log 2 value.den
    let scaled := value.num.natAbs * 4 ^ shift
    let root := Nat.sqrt (scaled / value.den)
    let inexact := if root * root * value.den = scaled then 0 else 1
    format.ofRat false ((2 * root + inexact : Nat) / (2 ^ (shift + 1) : Nat))
  else bits

/-- The word of another format with the same value, rounded if it must be. -/
def convert (target : FloatFormat) (bits : Nat) : Nat :=
  let signed (magnitude : Nat) := (if format.isNegative bits then target.signBit else 0) + magnitude
  if format.isNan bits then target.nan
  else if format.isFinite bits then target.ofRat (format.isNegative bits) (format.toRat bits)
  else signed target.infinity

def div (left right : Nat) : Nat :=
  let negative := format.isNegative left != format.isNegative right
  let signed (magnitude : Nat) := (if negative then format.signBit else 0) + magnitude
  if format.isNan left || format.isNan right then format.nan
  else if !format.isFinite left then
    if !format.isFinite right then format.nan else signed format.infinity
  else if !format.isFinite right then signed 0
  else if format.magnitude right = 0 then
    if format.magnitude left = 0 then format.nan else signed format.infinity
  else format.ofRat negative (format.toRat left / format.toRat right)

end FloatFormat

/-- A `double`, by its bits. -/
structure Double where
  bits : UInt64
  deriving DecidableEq

namespace Double

def isFinite (value : Double) : Bool := FloatFormat.double.isFinite value.bits.toNat

instance : LT Double := ⟨fun left right =>
  FloatFormat.double.lt left.bits.toNat right.bits.toNat = true⟩

instance : LE Double := ⟨fun left right =>
  FloatFormat.double.le left.bits.toNat right.bits.toNat = true⟩

instance (left right : Double) : Decidable (left < right) := inferInstanceAs (Decidable (_ = _))

instance (left right : Double) : Decidable (left ≤ right) := inferInstanceAs (Decidable (_ = _))

/-- The place of a number that is not a NaN in their order. -/
def key (value : Double) : Int := FloatFormat.double.orderKey value.bits.toNat

theorem lt_iff_key {left right : Double} (hleft : left.isFinite = true)
    (hright : right.isFinite = true) : left < right ↔ left.key < right.key :=
  FloatFormat.double.lt_iff_orderKey hleft hright

theorem le_iff_key {left right : Double} (hleft : left.isFinite = true)
    (hright : right.isFinite = true) : left ≤ right ↔ left.key ≤ right.key :=
  FloatFormat.double.le_iff_orderKey hleft hright

def zero : Double := ⟨0⟩

def one : Double := ⟨0x3FF0000000000000⟩

def infinity : Double := ⟨0x7FF0000000000000⟩

def ofNat (value : Nat) : Double := ⟨.ofNat (FloatFormat.double.ofRat false value)⟩

instance : Sub Double := ⟨fun left right =>
  ⟨.ofNat (FloatFormat.double.sub left.bits.toNat right.bits.toNat)⟩⟩

instance : Div Double := ⟨fun left right =>
  ⟨.ofNat (FloatFormat.double.div left.bits.toNat right.bits.toNat)⟩⟩

instance : Add Double := ⟨fun left right =>
  ⟨.ofNat (FloatFormat.double.add left.bits.toNat right.bits.toNat)⟩⟩

instance : Mul Double := ⟨fun left right =>
  ⟨.ofNat (FloatFormat.double.mul left.bits.toNat right.bits.toNat)⟩⟩

def sqrt (value : Double) : Double := ⟨.ofNat (FloatFormat.double.sqrt value.bits.toNat)⟩

end Double

/-- A `float`, by its bits. -/
structure Single where
  bits : UInt32
  deriving DecidableEq

namespace Single

def isFinite (value : Single) : Bool := FloatFormat.single.isFinite value.bits.toNat

instance : LT Single := ⟨fun left right =>
  FloatFormat.single.lt left.bits.toNat right.bits.toNat = true⟩

instance : LE Single := ⟨fun left right =>
  FloatFormat.single.le left.bits.toNat right.bits.toNat = true⟩

instance (left right : Single) : Decidable (left < right) := inferInstanceAs (Decidable (_ = _))

instance (left right : Single) : Decidable (left ≤ right) := inferInstanceAs (Decidable (_ = _))

instance : Add Single := ⟨fun left right =>
  ⟨.ofNat (FloatFormat.single.add left.bits.toNat right.bits.toNat)⟩⟩

instance : Sub Single := ⟨fun left right =>
  ⟨.ofNat (FloatFormat.single.sub left.bits.toNat right.bits.toNat)⟩⟩

instance : Mul Single := ⟨fun left right =>
  ⟨.ofNat (FloatFormat.single.mul left.bits.toNat right.bits.toNat)⟩⟩

instance : Div Single := ⟨fun left right =>
  ⟨.ofNat (FloatFormat.single.div left.bits.toNat right.bits.toNat)⟩⟩

theorem lt_irrefl (value : Single) : ¬ value < value := fun hless =>
  Int.lt_irrefl _ (FloatFormat.single.lt_eq_true.mp hless).2.2

theorem lt_trans {first second third : Single} (hfirst : first < second)
    (hsecond : second < third) : first < third := by
  obtain ⟨hleft, -, hbelow⟩ := FloatFormat.single.lt_eq_true.mp hfirst
  obtain ⟨-, hright, habove⟩ := FloatFormat.single.lt_eq_true.mp hsecond
  exact FloatFormat.single.lt_eq_true.mpr ⟨hleft, hright, Int.lt_trans hbelow habove⟩

/-- The place of a number that is not a NaN in their order. -/
def key (value : Single) : Int := FloatFormat.single.orderKey value.bits.toNat

theorem lt_iff_key {left right : Single} (hleft : left.isFinite = true)
    (hright : right.isFinite = true) : left < right ↔ left.key < right.key :=
  FloatFormat.single.lt_iff_orderKey hleft hright

def toDouble (value : Single) : Double :=
  ⟨.ofNat (FloatFormat.single.convert .double value.bits.toNat)⟩

def zero : Single := ⟨0⟩

def one : Single := ⟨0x3F800000⟩

def infinity : Single := ⟨0x7F800000⟩

def ofNat (value : Nat) : Single := ⟨.ofNat (FloatFormat.single.ofRat false value)⟩

def sqrt (value : Single) : Single := ⟨.ofNat (FloatFormat.single.sqrt value.bits.toNat)⟩

/-- `std::max`, which keeps the first of two that do not compare. -/
def maximum (left right : Single) : Single := if left < right then right else left

/-- `std::min`, which keeps the first of two that do not compare. -/
def minimum (left right : Single) : Single := if right < left then right else left

/-- `std::nextafter` towards infinity. -/
def nextUp (value : Single) : Single :=
  let bits := value.bits.toNat
  if FloatFormat.single.isNan bits ∨ bits = FloatFormat.single.infinity then value
  else if FloatFormat.single.magnitude bits = 0 then ⟨1⟩
  else if FloatFormat.single.isNegative bits then ⟨value.bits - 1⟩
  else ⟨value.bits + 1⟩

end Single

/-- A cast to `float`. -/
def Double.toSingle (value : Double) : Single :=
  ⟨.ofNat (FloatFormat.double.convert .single value.bits.toNat)⟩

end Foundation
