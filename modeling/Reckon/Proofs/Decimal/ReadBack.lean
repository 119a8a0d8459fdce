import Mathlib.Algebra.Group.Nat.Defs
import Reckon.Proofs.Decimal.Bits
import Reckon.Proofs.Token.Division

/-!
# Numbers that read back

A number is written in digits that round to it again. So a finite number without a sign is
read back from what is written, and two numbers are never written alike.
-/

/-!
## What rounding leaves alone

A fraction is rounded by its value and not by how it is written, and a double is
rounded to itself. From this follows that the digits chosen for a double stand for
it: the search for the fewest digits keeps to decimals that round to the double.
-/

namespace Reckon.Binary64

theorem divideToEven_mul {factor : Nat} (positive : 0 < factor)
    (numerator denominator : Nat) :
    divideToEven (numerator * factor) (denominator * factor) =
      divideToEven numerator denominator := by
  unfold divideToEven
  have side : compare (2 * (numerator % denominator * factor)) (denominator * factor) =
      compare (2 * (numerator % denominator)) denominator := by
    rw [← Nat.mul_assoc]
    cases order : compare (2 * (numerator % denominator)) denominator with
    | lt =>
        rw [Nat.compare_eq_lt] at order ⊢
        exact Nat.mul_lt_mul_of_pos_right order positive
    | eq =>
        rw [Nat.compare_eq_eq] at order ⊢
        rw [order]
    | gt =>
        rw [Nat.compare_eq_gt] at order ⊢
        exact Nat.mul_lt_mul_of_pos_right order positive
  rw [Nat.mul_div_mul_right _ _ positive, Nat.mul_mod_mul_right, side]

theorem divideToEven_exact {denominator : Nat} (positive : 0 < denominator)
    (quotient : Nat) : divideToEven (quotient * denominator) denominator = quotient := by
  have below : compare (2 * 0) denominator = .lt := by
    rw [Nat.compare_eq_lt]
    exact positive
  simp only [divideToEven, Nat.mul_mod_left, Nat.mul_div_cancel _ positive, below]

theorem nearest_mul {factor : Nat} (positive : 0 < factor) (numerator denominator : Nat) :
    nearest (numerator * factor) (denominator * factor) = nearest numerator denominator := by
  simp only [nearest, Nat.shiftLeft_eq]
  rw [Nat.mul_right_comm numerator, Nat.mul_div_mul_right _ _ positive,
    Nat.mul_right_comm denominator, divideToEven_mul positive]

/-- A magnitude is a significand with zeros behind it. -/
theorem units_eq (pattern : Nat) :
    units pattern =
      (pattern - (pattern / 2 ^ 52 - 1) * 2 ^ 52) * 2 ^ (pattern / 2 ^ 52 - 1) := by
  simp only [units, Nat.shiftLeft_eq, Nat.shiftRight_eq_div_pow]

/-- The magnitude of a double has as many bits as its pattern says. -/
theorem log2_units (pattern : Nat) :
    (units pattern).log2 - 52 = pattern / 2 ^ 52 - 1 := by
  rw [units_eq]
  cases exponent : pattern / 2 ^ 52 with
  | zero =>
      have small : pattern < 2 ^ 52 := by omega
      simp only [Nat.zero_sub, Nat.zero_mul, Nat.sub_zero, Nat.pow_zero, Nat.mul_one]
      rcases Nat.eq_zero_or_pos pattern with rfl | positive
      · rfl
      · have bits := (Nat.log2_lt (Nat.ne_of_gt positive)).mpr small
        omega
  | succ scale =>
      have lower : 2 ^ 52 ≤ pattern - scale * 2 ^ 52 := by omega
      have upper : pattern - scale * 2 ^ 52 < 2 ^ 53 := by omega
      have positive : 0 < 2 ^ scale := Nat.two_pow_pos scale
      rw [Nat.add_sub_cancel]
      generalize pattern - scale * 2 ^ 52 = significand at lower upper
      have bits : (significand * 2 ^ scale).log2 = 52 + scale := by
        rw [Nat.log2_eq_iff (Nat.ne_of_gt (Nat.mul_pos (by omega) positive))]
        constructor
        · rw [Nat.pow_add]
          exact Nat.mul_le_mul_right _ lower
        · rw [Nat.add_right_comm, Nat.pow_add]
          exact Nat.mul_lt_mul_of_pos_right upper positive
      omega

theorem nearest_units {pattern : Nat} (bounded : pattern ≤ infinity) :
    nearest (units pattern) (2 ^ fractionPlaces) = pattern := by
  have positive := Nat.two_pow_pos fractionPlaces
  have exact : units pattern * 2 ^ fractionPlaces =
      (pattern - (pattern / 2 ^ 52 - 1) * 2 ^ 52) *
        (2 ^ fractionPlaces * 2 ^ (pattern / 2 ^ 52 - 1)) := by
    rw [units_eq, Nat.mul_assoc, Nat.mul_comm (2 ^ fractionPlaces)]
  simp only [nearest, Nat.shiftLeft_eq]
  rw [Nat.mul_div_cancel _ positive, log2_units, exact,
    divideToEven_exact (Nat.mul_pos positive (Nat.two_pow_pos _)),
    Nat.sub_add_cancel (by omega), Nat.min_eq_left bounded]

end Reckon.Binary64

namespace Reckon.Decimal

/-! ## The digits of a double 
-/

theorem roundsTo_exactCoefficient {pattern : Nat} (bounded : pattern ≤ Binary64.infinity) :
    roundsTo pattern (exactCoefficient pattern) = true := by
  have ten : ∀ places, Nat.pow 10 places = 2 ^ places * Nat.pow 5 places := Nat.mul_pow 2 5
  have five : ∀ places, 0 < Nat.pow 5 places := fun _ => Nat.pow_pos (by decide)
  rw [roundsTo, beq_iff_eq, exactCoefficient, ten, Binary64.nearest_mul (five _),
    Binary64.nearest_units bounded]

theorem roundsTo_neighbour? {pattern exact zeros coefficient : Nat}
    (found : neighbour? pattern exact zeros = some coefficient) :
    roundsTo pattern coefficient = true := by
  rw [neighbour?] at found
  generalize exact / Nat.pow 10 zeros * Nat.pow 10 zeros = below at found
  generalize below + Nat.pow 10 zeros = above at found
  split at found
  next roundsBelow =>
      split at found
      next roundsAbove =>
        obtain rfl := Option.some.inj found
        split
        · exact roundsBelow
        · exact roundsAbove
      next =>
        obtain rfl := Option.some.inj found
        exact roundsBelow
  next =>
      split at found
      next roundsAbove =>
        obtain rfl := Option.some.inj found
        exact roundsAbove
      next => cases found

/-- Digits are only cut off as long as what is left rounds to the double. -/
theorem roundsTo_fewestDigits {pattern exact : Nat}
    (rounds : roundsTo pattern exact = true) (zeros : Nat) :
    roundsTo pattern (fewestDigits pattern exact zeros) = true := by
  induction zeros with
  | zero =>
      rw [fewestDigits]
      exact rounds
  | succ zeros ih =>
      rw [fewestDigits]
      cases found : neighbour? pattern exact (zeros + 1) with
      | some coefficient =>
          rw [Option.getD_some]
          exact roundsTo_neighbour? found
      | none =>
          rw [Option.getD_none]
          exact ih

theorem shortest_toFloat {pattern : Nat} (bounded : pattern ≤ Binary64.infinity) :
    (shortest pattern).toFloat = Binary64.ofPattern pattern := by
  have rounds := roundsTo_fewestDigits (roundsTo_exactCoefficient bounded)
    ((Nat.toDigits 10 (exactCoefficient pattern)).length - 1)
  rw [roundsTo, beq_iff_eq] at rounds
  simp only [toFloat, shortest]
  rw [rounds]

end Reckon.Decimal

/-!
## Numbers that read back

A decimal is written in digits that stand for the same fraction, so that reading
them rounds to the same double. With the shortest decimal of a double this says that
a finite number without a sign is written as a number of the language, and as one
with the same value.
-/

namespace Reckon

namespace Decimal

theorem isDigit_toDigits (number : Nat) :
    ∀ digit ∈ Nat.toDigits 10 number, digit.isDigit :=
  fun _ member => Nat.isDigit_of_mem_toDigits (by decide) (by decide) member

/-- The digits after the point, with the zeros at their end. -/
def paddedDigits (decimal : Decimal) : List Char :=
  (Nat.toDigits 10 (decimal.coefficient % Nat.pow 10 decimal.places)).leftpad decimal.places '0'

theorem isDigit_paddedDigits (decimal : Decimal) :
    ∀ digit ∈ decimal.paddedDigits, digit.isDigit := by
  intro digit member
  rcases List.mem_append.mp member with zero | other
  · rw [List.eq_of_mem_replicate zero]
    rfl
  · exact isDigit_toDigits _ digit other

theorem ofDigitChars_paddedDigits (decimal : Decimal) :
    Nat.ofDigitChars 10 decimal.paddedDigits 0 =
      decimal.coefficient % Nat.pow 10 decimal.places := by
  rw [paddedDigits, List.leftpad, Nat.ofDigitChars_append, Nat.ofDigitChars_replicate_zero,
    Nat.mul_zero, Nat.ofDigitChars_ten_toDigits]

theorem length_paddedDigits {decimal : Decimal} (positive : 0 < decimal.places) :
    decimal.paddedDigits.length = decimal.places := by
  have scale : 0 < Nat.pow 10 decimal.places := Nat.pow_pos (by decide)
  have short := (Nat.length_toDigits_le_iff (show 1 < 10 by decide) positive).mpr
    (Nat.mod_lt decimal.coefficient scale)
  rw [paddedDigits, List.length_leftpad]
  exact Nat.max_eq_left short

theorem paddedDigits_eq (decimal : Decimal) :
    ∃ zeros, decimal.paddedDigits = decimal.fractionDigits ++ List.replicate zeros '0' := by
  have whole := List.takeWhile_append_dropWhile (p := (· == '0'))
    (l := decimal.paddedDigits.reverse)
  have zeros : decimal.paddedDigits.reverse.takeWhile (· == '0') =
      List.replicate (decimal.paddedDigits.reverse.takeWhile (· == '0')).length '0' := by
    apply List.eq_replicate_of_mem
    intro digit member
    exact eq_of_beq (List.all_eq_true.mp List.all_takeWhile digit member)
  refine ⟨(decimal.paddedDigits.reverse.takeWhile (· == '0')).length, ?_⟩
  have reversed := congrArg List.reverse whole
  rw [List.reverse_append, List.reverse_reverse, zeros, List.reverse_replicate] at reversed
  exact reversed.symm

theorem fractionDigits_of_whole {decimal : Decimal} (whole : decimal.places = 0) :
    decimal.fractionDigits = [] := by
  simp only [fractionDigits, whole, Nat.pow_eq, Nat.pow_zero, Nat.mod_one]
  rfl

/-- The decimal that the digits of another one stand for. -/
def written (decimal : Decimal) : Decimal :=
  ofDigits (Nat.toDigits 10 (decimal.coefficient / Nat.pow 10 decimal.places))
    decimal.fractionDigits

/-- What is written is the decimal itself, cut off at its last zeros. -/
theorem written_eq (decimal : Decimal) :
    ∃ zeros, decimal.coefficient = decimal.written.coefficient * 10 ^ zeros ∧
      decimal.places = decimal.written.places + zeros := by
  rcases Nat.eq_zero_or_pos decimal.places with whole | positive
  · refine ⟨0, ?_, ?_⟩
    · simp only [written, ofDigits, fractionDigits_of_whole whole, whole, Nat.pow_eq,
        Nat.pow_zero, Nat.div_one, List.append_nil, Nat.ofDigitChars_ten_toDigits, Nat.mul_one]
    · simp only [written, ofDigits, fractionDigits_of_whole whole, whole, List.length_nil]
  · obtain ⟨zeros, padded⟩ := decimal.paddedDigits_eq
    refine ⟨zeros, ?_, ?_⟩
    · calc
        decimal.coefficient
          = 10 ^ decimal.places * (decimal.coefficient / Nat.pow 10 decimal.places) +
              decimal.coefficient % Nat.pow 10 decimal.places := (Nat.div_add_mod _ _).symm
        _ = Nat.ofDigitChars 10 decimal.paddedDigits
              (decimal.coefficient / Nat.pow 10 decimal.places) := by
            rw [Nat.ofDigitChars_eq_ofDigitChars_zero, length_paddedDigits positive,
              ofDigitChars_paddedDigits]
        _ = decimal.written.coefficient * 10 ^ zeros := by
            rw [padded, Nat.ofDigitChars_append, Nat.ofDigitChars_replicate_zero, Nat.mul_comm]
            simp only [written, ofDigits, Nat.ofDigitChars_append,
              Nat.ofDigitChars_ten_toDigits]
    · have lengths := congrArg List.length padded
      rw [length_paddedDigits positive, List.length_append, List.length_replicate] at lengths
      exact lengths

theorem written_toFloat (decimal : Decimal) : decimal.written.toFloat = decimal.toFloat := by
  obtain ⟨zeros, coefficient, places⟩ := decimal.written_eq
  have positive : 0 < 10 ^ zeros := Nat.pow_pos (by decide)
  have expanded : Nat.pow 10 (decimal.written.places + zeros) =
      Nat.pow 10 decimal.written.places * 10 ^ zeros := Nat.pow_add 10 _ _
  rw [toFloat, toFloat, coefficient, places, expanded, Binary64.nearest_mul positive]

/-- A decimal is written as a number of the language, with the double that it rounds
to. -/
theorem lexeme_toText (decimal : Decimal) :
    Lexeme .number decimal.toText (some (.number decimal.toFloat)) := by
  have digits := isDigit_toDigits (decimal.coefficient / Nat.pow 10 decimal.places)
  rw [← written_toFloat, toText, written]
  cases fraction : decimal.fractionDigits with
  | nil =>
      rw [List.append_nil]
      exact .whole Nat.toDigits_ne_nil digits
  | cons first rest =>
      apply Lexeme.fraction Nat.toDigits_ne_nil digits (List.cons_ne_nil first rest)
      intro digit member
      obtain ⟨zeros, padded⟩ := decimal.paddedDigits_eq
      apply decimal.isDigit_paddedDigits
      rw [padded, fraction]
      exact List.mem_append_left _ member

end Decimal

/-- A finite number without a sign is written as a number of the language with the same
value. -/
theorem Value.lexeme_number {double : Float} (finite : double.isFinite)
    (unsigned : Binary64.isNegative double = false) :
    Lexeme .number (Value.number double).toText.toList (some (.number double)) := by
  have bounded := Binary64.pattern_lt_infinity finite
  have text : (Value.number double).toText.toList =
      (Decimal.shortest (Binary64.pattern double)).toText := by
    rw [toText, numberText, Binary64.isNaN_of_isFinite finite, unsigned, magnitudeText,
      if_neg (Nat.ne_of_lt bounded)]
    exact String.toList_ofList
  have lexeme := (Decimal.shortest (Binary64.pattern double)).lexeme_toText
  rw [Decimal.shortest_toFloat (Nat.le_of_lt bounded), Binary64.ofPattern_pattern unsigned]
    at lexeme
  exact text ▸ lexeme

end Reckon

/-!
## Numbers told apart by their digits

Whatever is read of digits is a double without a sign, finite or infinite, and never a NaN. Such
doubles have patterns of their own, and two of them are never written alike: the digits of a
finite one read back to it, and the word for infinity has no digits.
-/

namespace Reckon.Binary64

open Float.Model Float.Model.UnpackedFloat

variable {number : Nat}

theorem toNat_toBits_ofPattern (bounded : number ≤ infinity) :
    (ofPattern number).toBits.toNat = number := by
  have small : number < 2 ^ 64 := Nat.lt_of_le_of_lt bounded (by decide)
  have spelled : (BitVec.ofNat Format.binary64.numBits number).toNat = number :=
    Nat.mod_eq_of_lt small
  have noNaN : isNaNBits (BitVec.ofNat Format.binary64.numBits number) = false := by
    refine decide_eq_false fun ⟨last, nonzero⟩ => nonzero ?_
    -- the last exponent leaves nothing for the mantissa
    have exponent := congrArg BitVec.toNat last
    rw [unpackExponent_toNat, spelled] at exponent
    change number / 2 ^ 52 % 2 ^ 11 = 2047 at exponent
    rw [infinity, Nat.shiftLeft_eq] at bounded
    apply BitVec.eq_of_toNat_eq
    rw [unpackMantissa_toNat, spelled]
    change number % 2 ^ 52 = 0
    omega
  have packed := pack_unpack (BitVec.ofNat Format.binary64.numBits number)
  rw [noNaN] at packed
  exact (congrArg BitVec.toNat packed).trans spelled

theorem ofPattern_injective {other : Nat} (bounded : number ≤ infinity)
    (otherBounded : other ≤ infinity) (same : ofPattern number = ofPattern other) :
    number = other := by
  rw [← toNat_toBits_ofPattern bounded, same, toNat_toBits_ofPattern otherBounded]

theorem pattern_ofPattern (bounded : number ≤ infinity) : pattern (ofPattern number) = number := by
  rw [pattern, toNat_toBits_ofPattern bounded]
  exact Nat.mod_eq_of_lt (Nat.lt_of_le_of_lt bounded (by decide))

theorem isNegative_ofPattern (bounded : number ≤ infinity) :
    isNegative (ofPattern number) = false := by
  rw [isNegative, toNat_toBits_ofPattern bounded, decide_eq_false_iff_not, Nat.not_le]
  exact Nat.lt_of_le_of_lt bounded (by decide)

theorem isNaN_ofPattern (bounded : number ≤ infinity) : (ofPattern number).isNaN = false := by
  rw [Float.isNaN_eq_decide_eq_nan, decide_eq_false_iff_not]
  intro nan
  have beyond : infinity < Float.nan.toBits.toNat := by decide +kernel
  rw [← nan, toNat_toBits_ofPattern bounded] at beyond
  exact absurd bounded (Nat.not_le_of_lt beyond)

theorem nearest_le_infinity (numerator denominator : Nat) :
    nearest numerator denominator ≤ infinity :=
  Nat.min_le_right _ _

end Reckon.Binary64

namespace Reckon

open Binary64

theorem Value.numberText_ofPattern {number : Nat} (bounded : number ≤ infinity) :
    numberText (ofPattern number) =
      if number = infinity then "inf" else String.ofList (Decimal.shortest number).toText := by
  rw [numberText, isNaN_ofPattern bounded, isNegative_ofPattern bounded, magnitudeText,
    pattern_ofPattern bounded, if_neg Bool.false_ne_true, if_neg Bool.false_ne_true]

/-- The digits of a finite double are not the word for infinity. -/
theorem Decimal.toText_ne_inf (decimal : Decimal) : String.ofList decimal.toText ≠ "inf" := by
  intro word
  have spelled : decimal.toText = ['i', 'n', 'f'] := by
    have same := congrArg String.toList word
    rwa [String.toList_ofList] at same
  have letters : ∀ character ∈ ['n', 'f'], character.isAlphanum ∨ character = '_' := by
    simp only [List.forall_mem_cons]
    exact ⟨by decide, by decide, nofun⟩
  have identifier : Lexeme .identifier ['i', 'n', 'f'] none :=
    .identifier (by decide) letters fun word => by cases word <;> decide
  have number := decimal.lexeme_toText
  rw [spelled] at number
  cases (number.unique identifier).1

/-- Different doubles without a sign are written differently. -/
theorem Value.numberText_injective {number other : Nat} (bounded : number ≤ infinity)
    (otherBounded : other ≤ infinity)
    (same : numberText (ofPattern number) = numberText (ofPattern other)) : number = other := by
  rw [numberText_ofPattern bounded, numberText_ofPattern otherBounded] at same
  split at same
  next infinite =>
      split at same
      next otherInfinite => rw [infinite, otherInfinite]
      next finite => exact absurd same.symm (Decimal.toText_ne_inf _)
  next finite =>
      split at same
      next infinite => exact absurd same (Decimal.toText_ne_inf _)
      next otherFinite =>
        have lexeme := (Decimal.shortest number).lexeme_toText
        rw [String.ofList_injective same] at lexeme
        have literals := (lexeme.unique (Decimal.shortest other).lexeme_toText).2
        rw [Decimal.shortest_toFloat bounded, Decimal.shortest_toFloat otherBounded] at literals
        injection literals with literals
        injection literals with doubles
        exact ofPattern_injective bounded otherBounded doubles

end Reckon
