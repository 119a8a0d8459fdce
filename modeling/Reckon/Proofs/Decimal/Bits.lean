import Mathlib
import Reckon.Value

/-!
# The bits of a double

A double without a sign is the double of its pattern, and a finite one has a pattern
below that of infinity. So the patterns of finite doubles are a part of the natural
numbers, and what is proved of them there holds of the doubles.
-/

/-!
## The bits of a double

A double without a sign is the double of its pattern, and a finite one has a pattern
below that of infinity. So the patterns of finite doubles are a part of the natural
numbers, and what is proved of them there holds of the doubles.
-/

namespace Reckon.Binary64

open Float.Model Float.Model.UnpackedFloat

theorem ofPattern_pattern {double : Float} (unsigned : isNegative double = false) :
    ofPattern (pattern double) = double := by
  have small : double.toBits.toNat < 1 <<< 63 := by
    rw [isNegative, decide_eq_false_iff_not] at unsigned
    exact Nat.lt_of_not_le unsigned
  rw [ofPattern, pattern, Nat.mod_eq_of_lt small, UInt64.ofNat_toNat, Float.ofBits_toBits]

theorem isNaN_of_isFinite {double : Float} (finite : double.isFinite) :
    double.isNaN = false := by
  change double.toModel.unpack.isFinite at finite
  change double.toModel.unpack.isNaN = false
  cases unpacked : double.toModel.unpack with
  | notANumber =>
      rw [unpacked] at finite
      cases finite
  | _ => rfl

variable {bits : BitVec Format.binary64.numBits}

/-- The last exponent is kept for what is not finite. -/
theorem unpackExponent_ne_last
    (finite : (UnpackedFloat.unpack .binary64 bits).isFinite) :
    @unpackExponent .binary64 bits ≠ -1#11 := by
  intro last
  simp only [UnpackedFloat.unpack] at finite
  rw [if_pos last] at finite
  split at finite <;> cases finite

theorem unpackExponent_toNat :
    (@unpackExponent .binary64 bits).toNat = bits.toNat / 2 ^ 52 % 2 ^ 11 := by
  simp only [unpackExponent, BitVec.toNat_cast, BitVec.extractLsb_toNat,
    Nat.shiftRight_eq_div_pow]

theorem lt_of_ne_last {exponent : BitVec 11} (notLast : exponent ≠ -1#11) :
    exponent.toNat + 1 < 2 ^ 11 := by
  apply Nat.lt_of_le_of_ne exponent.isLt
  intro equal
  apply notLast
  apply BitVec.eq_of_toNat_eq
  change exponent.toNat = 2047
  omega

theorem pattern_lt_infinity {double : Float} (finite : double.isFinite) :
    pattern double < infinity := by
  have notLast := lt_of_ne_last (unpackExponent_ne_last finite)
  rw [unpackExponent_toNat] at notLast
  change double.toBits.toNat / 2 ^ 52 % 2 ^ 11 + 1 < 2 ^ 11 at notLast
  rw [pattern, infinity, Nat.shiftLeft_eq, Nat.shiftLeft_eq]
  omega

end Reckon.Binary64

/-!
## The sign of a double

The sign of a double is one bit next to its pattern. So a finite double without its sign
is the double of its pattern, and a negative one comes back when the sign is put before
that again.
-/

namespace Reckon.Binary64

open Float.Model Float.Model.UnpackedFloat

def magnitude (double : Float) : Float := ofPattern (pattern double)

theorem magnitude_of_unsigned {double : Float} (unsigned : isNegative double = false) :
    magnitude double = double :=
  ofPattern_pattern unsigned

/-! ## Bits without the sign among them -/

section Bits

variable {bits : BitVec Format.binary64.numBits}

theorem unpackMantissa_toNat :
    (@unpackMantissa .binary64 bits).toNat = bits.toNat % 2 ^ 52 := by
  simp only [unpackMantissa, BitVec.toNat_cast, BitVec.extractLsb_toNat,
    Nat.shiftRight_eq_div_pow, Nat.pow_zero, Nat.div_one]

theorem unpackSign_toNat :
    (@unpackSign .binary64 bits).toNat = bits.toNat / 2 ^ 63 % 2 := by
  simp only [unpackSign, BitVec.toNat_cast, BitVec.extractLsb_toNat,
    Nat.shiftRight_eq_div_pow]

/-- Bits with the bit of the sign cleared. -/
def unsignedBits (bits : BitVec Format.binary64.numBits) : BitVec Format.binary64.numBits :=
  BitVec.ofNat _ (bits.toNat % 2 ^ 63)

theorem unsignedBits_toNat : (unsignedBits bits).toNat = bits.toNat % 2 ^ 63 := by
  have small : bits.toNat % 2 ^ 63 < 2 ^ 64 :=
    Nat.lt_trans (Nat.mod_lt _ (by decide)) (by decide)
  rw [unsignedBits, BitVec.toNat_ofNat]
  exact Nat.mod_eq_of_lt small

theorem unpackMantissa_unsignedBits :
    unpackMantissa (unsignedBits bits) = unpackMantissa bits := by
  apply BitVec.eq_of_toNat_eq
  rw [unpackMantissa_toNat, unpackMantissa_toNat, unsignedBits_toNat]
  omega

theorem unpackExponent_unsignedBits :
    unpackExponent (unsignedBits bits) = unpackExponent bits := by
  apply BitVec.eq_of_toNat_eq
  rw [unpackExponent_toNat, unpackExponent_toNat, unsignedBits_toNat]
  omega

/-- Nothing but the sign is lost with its bit. -/
theorem unpack_unsignedBits (negative : 2 ^ 63 ≤ bits.toNat) :
    UnpackedFloat.unpack .binary64 (unsignedBits bits) =
      (UnpackedFloat.unpack .binary64 bits).neg := by
  have signed : unpackSign bits = 1#1 := by
    apply BitVec.eq_of_toNat_eq
    have bound : bits.toNat < 2 ^ 64 := bits.isLt
    rw [unpackSign_toNat, BitVec.toNat_ofNat]
    omega
  have unsigned : unpackSign (unsignedBits bits) = 0#1 := by
    apply BitVec.eq_of_toNat_eq
    rw [unpackSign_toNat, unsignedBits_toNat, BitVec.toNat_ofNat]
    omega
  simp only [UnpackedFloat.unpack, unpackMantissa_unsignedBits, unpackExponent_unsignedBits,
    signed, unsigned]
  split
  next last => split <;> rfl
  next =>
    split
    next subnormal => split <;> rfl
    next normal => rfl

@[simp] theorem unpacked_neg_neg (float : UnpackedFloat) : float.neg.neg = float := by
  cases float with
  | notANumber => rfl
  | infinity sign | zero sign => cases sign <;> rfl
  | finite sign => cases sign <;> rfl

@[simp] theorem isFinite_neg (float : UnpackedFloat) : float.neg.isFinite = float.isFinite := by
  cases float <;> rfl

end Bits

/-! ## Finite doubles 
-/

variable {double : Float}

theorem toBits_magnitude (finite : double.isFinite) :
    (magnitude double).toBits.toBitVec = unsignedBits double.toBits.toBitVec := by
  have notLast := unpackExponent_ne_last finite
  have number : isNaNBits (unsignedBits double.toBits.toBitVec) = false := by
    rw [isNaNBits, unpackExponent_unsignedBits]
    exact decide_eq_false fun both => notLast both.1
  have packed := pack_unpack (unsignedBits double.toBits.toBitVec)
  rw [number] at packed
  exact packed

theorem toNat_toBits_magnitude (finite : double.isFinite) :
    (magnitude double).toBits.toNat = double.toBits.toNat % 2 ^ 63 := by
  have same := congrArg BitVec.toNat (toBits_magnitude finite)
  rw [unsignedBits_toNat] at same
  exact same

theorem isNegative_magnitude (finite : double.isFinite) :
    isNegative (magnitude double) = false := by
  rw [isNegative, toNat_toBits_magnitude finite, decide_eq_false_iff_not, Nat.not_le]
  exact Nat.mod_lt _ (by decide)

theorem pattern_magnitude (finite : double.isFinite) :
    pattern (magnitude double) = pattern double := by
  rw [pattern, toNat_toBits_magnitude finite]
  exact Nat.mod_mod _ _

theorem unpack_magnitude (finite : double.isFinite) (negative : isNegative double = true) :
    (magnitude double).toModel.unpack = double.toModel.unpack.neg := by
  have bound : 2 ^ 63 ≤ double.toBits.toBitVec.toNat := of_decide_eq_true negative
  calc
    (magnitude double).toModel.unpack
      = UnpackedFloat.unpack .binary64 (unsignedBits double.toBits.toBitVec) :=
        congrArg (UnpackedFloat.unpack .binary64) (toBits_magnitude finite)
    _ = double.toModel.unpack.neg := unpack_unsignedBits bound

theorem isFinite_magnitude (finite : double.isFinite) : (magnitude double).isFinite := by
  cases negative : isNegative double with
  | false =>
      rw [magnitude_of_unsigned negative]
      exact finite
  | true =>
      change (magnitude double).toModel.unpack.isFinite
      rw [unpack_magnitude finite negative, isFinite_neg]
      exact finite

/-- The sign put before a negative double without it gives the double back, bit for bit. -/
theorem neg_magnitude (finite : double.isFinite) (negative : isNegative double = true) :
    -magnitude double = double := by
  rw [← Float.toBits_inj]
  calc
    (-magnitude double).toBits
      = (Float.Model.pack (magnitude double).toModel.unpack.neg).toBits := rfl
    _ = (Float.Model.pack double.toModel.unpack).toBits := by
      rw [unpack_magnitude finite negative, unpacked_neg_neg]
    _ = (Float.ofBits double.toBits).toBits := rfl
    _ = double.toBits := by rw [Float.ofBits_toBits]

end Reckon.Binary64
