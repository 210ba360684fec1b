import LayerInference.FrameTensors
import LayerInference.ZeroModel
import Mathlib.Algebra.Order.Field.Rat
import Mathlib.Data.Int.Log
import Mathlib.Data.Rat.Floor

/-!
# Rounding activations to half precision

A half-precision frame rounds each float to the nearest half-precision value
and the reader widens it again. The pattern is assembled from sign, exponent
and rounded fraction by a bitwise or. When rounding carries out of the fraction
the carry belongs to the exponent; the bitwise or adds it to an even exponent
only and loses it on an odd one.
-/

namespace LayerInference.FloatArithmetic.SoftFloat

/-- The units of a magnitude code whose fraction has `k` bits. -/
def codeUnits (k code : ℕ) : ℕ :=
  if code / 2 ^ k = 0 then code % 2 ^ k else (2 ^ k + code % 2 ^ k) * 2 ^ (code / 2 ^ k - 1)

theorem codeUnits_of_lt {k code : ℕ} (h : code < 2 ^ k) : codeUnits k code = code := by
  rw [codeUnits, if_pos (Nat.div_eq_of_lt h), Nat.mod_eq_of_lt h]

/-- The units of a normal code from its exponent and fraction. -/
theorem codeUnits_normal {k fraction : ℕ} (exponent : ℕ) (h : fraction < 2 ^ k) :
    codeUnits k (2 ^ k * (exponent + 1) + fraction) = (2 ^ k + fraction) * 2 ^ exponent := by
  have hdiv : (2 ^ k * (exponent + 1) + fraction) / 2 ^ k = exponent + 1 := by
    rw [Nat.mul_add_div (by positivity), Nat.div_eq_of_lt h, Nat.add_zero]
  have hmod : (2 ^ k * (exponent + 1) + fraction) % 2 ^ k = fraction := by
    rw [Nat.mul_add_mod, Nat.mod_eq_of_lt h]
  rw [codeUnits, hdiv, hmod, if_neg (by omega), Nat.add_sub_cancel]

/-- The code behind the largest fraction of an exponent opens the next one. -/
theorem codeUnits_carry (k exponent : ℕ) :
    codeUnits k (2 ^ k * (exponent + 1) + 2 ^ k) = (2 ^ k + 2 ^ k) * 2 ^ exponent := by
  have hnormal := codeUnits_normal (k := k) (exponent + 1) (Nat.two_pow_pos k)
  rw [Nat.add_zero] at hnormal
  calc codeUnits k (2 ^ k * (exponent + 1) + 2 ^ k)
      = codeUnits k (2 ^ k * (exponent + 1 + 1)) := by rw [Nat.mul_succ (2 ^ k) (exponent + 1)]
    _ = (2 ^ k + 0) * 2 ^ (exponent + 1) := hnormal
    _ = (2 ^ k + 2 ^ k) * 2 ^ exponent := by ring

/-- Every code is a subnormal one or has an exponent and a fraction. -/
theorem code_cases (k code : ℕ) : code < 2 ^ k ∨
    ∃ exponent fraction, fraction < 2 ^ k ∧ code = 2 ^ k * (exponent + 1) + fraction := by
  by_cases h : code < 2 ^ k
  · exact .inl h
  · have hpos : 0 < code / 2 ^ k := Nat.div_pos (by omega) (by positivity)
    refine .inr ⟨code / 2 ^ k - 1, code % 2 ^ k, Nat.mod_lt _ (by positivity), ?_⟩
    rw [Nat.sub_add_cancel hpos, Nat.div_add_mod]

/-- Codes are in the order of their magnitudes. -/
theorem codeUnits_strictMono (k : ℕ) : StrictMono (codeUnits k) := by
  refine strictMono_nat_of_lt_succ fun code => ?_
  rcases code_cases k code with h | ⟨exponent, fraction, hf, rfl⟩
  · rw [codeUnits_of_lt h]
    rcases Nat.lt_or_ge (code + 1) (2 ^ k) with hlt | hge
    · rw [codeUnits_of_lt hlt]
      omega
    · have heq : code + 1 = 2 ^ k * (0 + 1) + 0 := by omega
      rw [heq, codeUnits_normal 0 (by positivity)]
      omega
  · rw [codeUnits_normal exponent hf]
    have hpow : 0 < 2 ^ exponent := by positivity
    rcases Nat.lt_or_ge (fraction + 1) (2 ^ k) with hlt | hge
    · rw [Nat.add_assoc, codeUnits_normal exponent hlt]
      exact Nat.mul_lt_mul_of_pos_right (by omega) hpow
    · have heq : fraction + 1 = 2 ^ k := by omega
      rw [Nat.add_assoc, heq, codeUnits_carry]
      exact Nat.mul_lt_mul_of_pos_right (by omega) hpow

variable {p e : ℕ}

theorem units_eq (x : SoftFloat p e) : x.units =
    if x.negative then -(codeUnits (p - 1) x.magnitudeCode : ℤ)
    else codeUnits (p - 1) x.magnitudeCode := by
  simp only [units, codeUnits]

/-- The rational number a pattern stands for. -/
def value (x : SoftFloat p e) : ℚ := x.units / 2 ^ unit p e

/-- A pattern that is neither an infinity nor a not-a-number. -/
def IsFinite (x : SoftFloat p e) : Prop := x.magnitudeCode < infinityCode p e

instance (x : SoftFloat p e) : Decidable x.IsFinite := inferInstanceAs (Decidable (_ < _))

end LayerInference.FloatArithmetic.SoftFloat

namespace LayerInference.HalfPrecision

open ByteStrings FallibleRuns FlatVectors FloatArithmetic TensorAbi CpuExecutor
  PartitionExecution FrameTensors ZeroModel

abbrev Binary16 := SoftFloat 11 5

section Patterns

/-- Two parts of a pattern that do not overlap. -/
theorem or_eq_add {low : ℕ} (i high : ℕ) (h : low < 2 ^ i) :
    2 ^ i * high ||| low = 2 ^ i * high + low := (Nat.two_pow_add_eq_or_of_lt h high).symm

/-- A bit taken out of a number. -/
theorem and_bit (n i : ℕ) : n &&& 2 ^ i = 2 ^ i * (n / 2 ^ i % 2) := by
  rw [Nat.and_two_pow, Nat.testBit_eq_decide_div_mod_eq]
  rcases Nat.mod_two_eq_zero_or_one (n / 2 ^ i) with h | h
  · simp [h]
  · simp [h]

/-- The magnitude code of the rounded float, from exponent and fraction of the
float: below the normal range, in it, and above it. -/
def halfCode (exponent fraction : ℕ) : ℕ :=
  if exponent < 102 then 0
  else if exponent ≤ 112 then ((fraction + 2 ^ 23) / 2 ^ (113 - exponent) + 2 ^ 12) / 2 ^ 13
  else if 143 ≤ exponent then 31 * 2 ^ 10
  else 2 ^ 10 * (exponent - 112) ||| (fraction + 2 ^ 12) / 2 ^ 13

/-- Sign, exponent and fraction of a float pattern. -/
def signOf (bits : UInt32) : ℕ := bits.toNat / 2 ^ 31
def exponentOf (bits : UInt32) : ℕ := bits.toNat / 2 ^ 23 % 2 ^ 8
def fractionOf (bits : UInt32) : ℕ := bits.toNat % 2 ^ 23

theorem signOf_lt (bits : UInt32) : signOf bits < 2 := by
  have hlt := bits.toNat_lt
  rw [signOf]
  omega

theorem exponentOf_lt (bits : UInt32) : exponentOf bits < 2 ^ 8 := Nat.mod_lt _ (by decide)

theorem fractionOf_lt (bits : UInt32) : fractionOf bits < 2 ^ 23 := Nat.mod_lt _ (by decide)

/-- The pattern is its three parts. -/
theorem bits_eq_parts (bits : UInt32) : bits.toNat =
    2 ^ 31 * signOf bits + 2 ^ 23 * exponentOf bits + fractionOf bits := by
  have hlt := bits.toNat_lt
  simp only [signOf, exponentOf, fractionOf]
  omega

theorem signBit_toNat (bits : UInt32) :
    ((bits >>> 16) &&& 0x8000).toNat = 2 ^ 15 * signOf bits := by
  have hlt := bits.toNat_lt
  rw [UInt32.toNat_and, UInt32.toNat_shiftRight]
  change bits.toNat >>> 16 &&& 2 ^ 15 = _
  rw [and_bit, Nat.shiftRight_eq_div_pow, Nat.div_div_eq_div_mul, signOf]
  omega

theorem exponentBits_toNat (bits : UInt32) :
    ((bits >>> 23) &&& 0xff).toNat = exponentOf bits := by
  rw [UInt32.toNat_and, UInt32.toNat_shiftRight]
  change bits.toNat >>> 23 &&& 2 ^ 8 - 1 = _
  rw [Nat.and_two_pow_sub_one_eq_mod, Nat.shiftRight_eq_div_pow, exponentOf]

theorem fractionBits_toNat (bits : UInt32) : (bits &&& 0x007fffff).toNat = fractionOf bits := by
  rw [UInt32.toNat_and]
  change bits.toNat &&& 2 ^ 23 - 1 = _
  rw [Nat.and_two_pow_sub_one_eq_mod, fractionOf]

/-- A sign in front of a magnitude code. -/
theorem signed_toNat {sign magnitude : UInt32} {s : ℕ} (hsign : sign.toNat = 2 ^ 15 * s)
    (hs : s < 2) (hmagnitude : magnitude.toNat < 2 ^ 15) :
    (sign ||| magnitude).toUInt16.toNat = 2 ^ 15 * s + magnitude.toNat := by
  rw [UInt32.toNat_toUInt16, UInt32.toNat_or, hsign, or_eq_add 15 s hmagnitude]
  omega

/-- Adding half a unit and cutting the fraction off. -/
theorem roundShift_toNat {value : UInt32} (h : value.toNat < 2 ^ 31) :
    ((value + 0x00001000) >>> 13).toNat = (value.toNat + 2 ^ 12) / 2 ^ 13 := by
  have hhalf : (0x00001000 : UInt32).toNat = 2 ^ 12 := rfl
  have hshift : (13 : UInt32).toNat % 32 = 13 := rfl
  rw [UInt32.toNat_shiftRight, UInt32.toNat_add, hhalf, hshift, Nat.mod_eq_of_lt (by omega),
    Nat.shiftRight_eq_div_pow]

/-- The code of the rounded float. -/
theorem floatToF16Bits_toNat (bits : UInt32) : (floatToF16Bits bits).toNat =
    2 ^ 15 * signOf bits + halfCode (exponentOf bits) (fractionOf bits) := by
  have hsign := signBit_toNat bits
  have hs := signOf_lt bits
  have he := exponentOf_lt bits
  have hf := fractionOf_lt bits
  unfold floatToF16Bits halfCode
  dsimp only
  rw [exponentBits_toNat]
  by_cases htiny : exponentOf bits < 102
  · rw [if_pos (by omega), if_pos (by omega), if_pos htiny, UInt32.toNat_toUInt16, hsign]
    omega
  · rw [if_neg htiny]
    by_cases hsmall : exponentOf bits ≤ 112
    · rw [if_pos (by omega), if_neg (by omega), if_pos hsmall]
      have hshift : (UInt32.ofNat (1 - ((exponentOf bits : ℤ) - 127 + 15)).toNat).toNat % 32 =
          113 - exponentOf bits := by
        have hnat : (1 - ((exponentOf bits : ℤ) - 127 + 15)).toNat = 113 - exponentOf bits := by
          omega
        rw [hnat, UInt32.toNat_ofNat']
        omega
      have hshifted : (((bits &&& 0x007fffff) ||| 0x00800000) >>>
          UInt32.ofNat (1 - ((exponentOf bits : ℤ) - 127 + 15)).toNat).toNat =
            (fractionOf bits + 2 ^ 23) / 2 ^ (113 - exponentOf bits) := by
        rw [UInt32.toNat_shiftRight, hshift, UInt32.toNat_or, fractionBits_toNat,
          Nat.shiftRight_eq_div_pow]
        change (fractionOf bits ||| 2 ^ 23 * 1) / _ = _
        rw [Nat.or_comm, or_eq_add 23 1 hf, Nat.add_comm, Nat.mul_one]
      have hbound : (fractionOf bits + 2 ^ 23) / 2 ^ (113 - exponentOf bits) < 2 ^ 24 :=
        lt_of_le_of_lt (Nat.div_le_self _ _) (by omega)
      have hround := roundShift_toNat (by rw [hshifted]; omega :
        (((bits &&& 0x007fffff) ||| 0x00800000) >>>
          UInt32.ofNat (1 - ((exponentOf bits : ℤ) - 127 + 15)).toNat).toNat < 2 ^ 31)
      rw [hshifted] at hround
      rw [signed_toNat hsign hs (by rw [hround]; omega), hround]
    · rw [if_neg (by omega), if_neg hsmall]
      by_cases hlarge : 143 ≤ exponentOf bits
      · rw [if_pos (by omega), if_pos hlarge]
        exact signed_toNat hsign hs (by decide)
      · rw [if_neg (by omega), if_neg hlarge]
        have hnat : ((exponentOf bits : ℤ) - 127 + 15).toNat = exponentOf bits - 112 := by omega
        have hexponent : (UInt32.ofNat ((exponentOf bits : ℤ) - 127 + 15).toNat <<< 10).toNat =
            2 ^ 10 * (exponentOf bits - 112) := by
          have hshift : (10 : UInt32).toNat % 32 = 10 := rfl
          rw [UInt32.toNat_shiftLeft, hshift, hnat, UInt32.toNat_ofNat', Nat.shiftLeft_eq]
          omega
        have hround := roundShift_toNat (by rw [fractionBits_toNat]; omega :
          (bits &&& 0x007fffff).toNat < 2 ^ 31)
        rw [fractionBits_toNat] at hround
        have hcode : (UInt32.ofNat ((exponentOf bits : ℤ) - 127 + 15).toNat <<< 10 |||
            ((bits &&& 0x007fffff) + 0x00001000) >>> 13).toNat =
              2 ^ 10 * (exponentOf bits - 112) ||| (fractionOf bits + 2 ^ 12) / 2 ^ 13 := by
          rw [UInt32.toNat_or, hexponent, hround]
        have hlt : 2 ^ 10 * (exponentOf bits - 112) ||| (fractionOf bits + 2 ^ 12) / 2 ^ 13 <
            2 ^ 15 := Nat.or_lt_two_pow (by omega) (by omega)
        rw [UInt32.or_assoc, signed_toNat hsign hs (by rw [hcode]; exact hlt), hcode]

/-- Patterns with one sign bit in front. -/
theorem signed32_toNat {sign high low : UInt32} {s : ℕ} (hsign : sign.toNat = 2 ^ 31 * s)
    (hmagnitude : (high ||| low).toNat < 2 ^ 31) :
    (sign ||| high ||| low).toNat = 2 ^ 31 * s + (high ||| low).toNat := by
  rw [UInt32.or_assoc, UInt32.toNat_or, hsign, or_eq_add 31 s hmagnitude]

/-- Each subnormal half is normalized to a float of the same value. -/
theorem normalizeHalf_units (mantissa : Fin (2 ^ 10)) (h : mantissa ≠ 0) :
    ∃ code < 2 ^ 31, (((normalizeHalf 10 1 (UInt32.ofNat mantissa)).1 + (127 - 15)) <<< 23 |||
        ((normalizeHalf 10 1 (UInt32.ofNat mantissa)).2 &&& 0x03ff) <<< 13).toNat = code ∧
      SoftFloat.codeUnits 23 code = 2 ^ 125 * mantissa := by
  have hall : ∀ mantissa : Fin (2 ^ 10), mantissa ≠ 0 →
      (((normalizeHalf 10 1 (UInt32.ofNat mantissa)).1 + (127 - 15)) <<< 23 |||
        ((normalizeHalf 10 1 (UInt32.ofNat mantissa)).2 &&& 0x03ff) <<< 13).toNat < 2 ^ 31 ∧
      SoftFloat.codeUnits 23
        (((normalizeHalf 10 1 (UInt32.ofNat mantissa)).1 + (127 - 15)) <<< 23 |||
          ((normalizeHalf 10 1 (UInt32.ofNat mantissa)).2 &&& 0x03ff) <<< 13).toNat =
        2 ^ 125 * mantissa := by
    decide +kernel
  exact ⟨_, (hall mantissa h).1, rfl, (hall mantissa h).2⟩

/-- A finite half is widened to the float of the same sign and value. -/
theorem f16BitsToFloat_units {raw : UInt16} {s c : ℕ} (hraw : raw.toNat = 2 ^ 15 * s + c)
    (hs : s < 2) (hc : c < 31 * 2 ^ 10) :
    ∃ code < 2 ^ 31, (f16BitsToFloat raw).toNat = 2 ^ 31 * s + code ∧
      SoftFloat.codeUnits 23 code = 2 ^ 125 * SoftFloat.codeUnits 10 c := by
  have hsign : ((raw &&& 0x8000).toUInt32 <<< 16).toNat = 2 ^ 31 * s := by
    have hshift : (16 : UInt32).toNat % 32 = 16 := rfl
    have hbit : (0x8000 : UInt16).toNat = 2 ^ 15 := rfl
    rw [UInt32.toNat_shiftLeft, hshift, UInt16.toNat_toUInt32, UInt16.toNat_and, hbit, and_bit,
      Nat.shiftLeft_eq, hraw]
    omega
  have hexponent : ((raw >>> 10) &&& 0x1f).toUInt32.toNat = c / 2 ^ 10 := by
    have hshift : (10 : UInt16).toNat % 16 = 10 := rfl
    have hmask : (0x1f : UInt16).toNat = 2 ^ 5 - 1 := rfl
    rw [UInt16.toNat_toUInt32, UInt16.toNat_and, UInt16.toNat_shiftRight, hshift, hmask,
      Nat.and_two_pow_sub_one_eq_mod, Nat.shiftRight_eq_div_pow, hraw]
    omega
  have hmantissa : (raw &&& 0x03ff).toUInt32.toNat = c % 2 ^ 10 := by
    have hmask : (0x03ff : UInt16).toNat = 2 ^ 10 - 1 := rfl
    rw [UInt16.toNat_toUInt32, UInt16.toNat_and, hmask, Nat.and_two_pow_sub_one_eq_mod, hraw]
    omega
  unfold f16BitsToFloat
  dsimp only
  rcases SoftFloat.code_cases 10 c with hsmall | ⟨exponent, fraction, hf, rfl⟩
  · have hzero : ((raw >>> 10) &&& 0x1f).toUInt32 = 0 := by
      apply UInt32.toNat_inj.mp
      rw [hexponent, Nat.div_eq_of_lt hsmall, UInt32.toNat_zero]
    rw [if_pos hzero, SoftFloat.codeUnits_of_lt hsmall]
    rw [Nat.mod_eq_of_lt hsmall] at hmantissa
    by_cases hnone : c = 0
    · have hm : (raw &&& 0x03ff).toUInt32 = 0 := by
        apply UInt32.toNat_inj.mp
        rw [hmantissa, hnone, UInt32.toNat_zero]
      rw [if_pos hm]
      exact ⟨0, by omega, by rw [hsign, Nat.add_zero], by rw [hnone]; decide⟩
    · have hm : (raw &&& 0x03ff).toUInt32 ≠ 0 := by
        intro h
        rw [h, UInt32.toNat_zero] at hmantissa
        omega
      have hof : (raw &&& 0x03ff).toUInt32 = UInt32.ofNat c := by
        apply UInt32.toNat_inj.mp
        rw [hmantissa, UInt32.toNat_ofNat']
        omega
      obtain ⟨code, hlt, hcode, hunits⟩ := normalizeHalf_units ⟨c, hsmall⟩ (by
        intro h
        exact hnone (congrArg Fin.val h))
      rw [if_neg hm, hof]
      refine ⟨code, hlt, ?_, hunits⟩
      rw [signed32_toNat hsign (by rw [hcode]; exact hlt), hcode]
  · have hdiv : (2 ^ 10 * (exponent + 1) + fraction) / 2 ^ 10 = exponent + 1 := by omega
    have hmod : (2 ^ 10 * (exponent + 1) + fraction) % 2 ^ 10 = fraction := by omega
    rw [hdiv] at hexponent
    rw [hmod] at hmantissa
    have hne : ((raw >>> 10) &&& 0x1f).toUInt32 ≠ 0 := by
      intro h
      rw [h, UInt32.toNat_zero] at hexponent
      omega
    have hfinite : ((raw >>> 10) &&& 0x1f).toUInt32 ≠ 31 := by
      intro h
      have h31 : (31 : UInt32).toNat = 31 := rfl
      rw [h, h31] at hexponent
      omega
    have hcode : ((((raw >>> 10) &&& 0x1f).toUInt32 + (127 - 15)) <<< 23 |||
        (raw &&& 0x03ff).toUInt32 <<< 13).toNat =
          2 ^ 23 * (exponent + 112 + 1) + 2 ^ 13 * fraction := by
      have hshift : (23 : UInt32).toNat % 32 = 23 := rfl
      have hshift' : (13 : UInt32).toNat % 32 = 13 := rfl
      have hbias : (127 - 15 : UInt32).toNat = 112 := rfl
      have hhigh : ((((raw >>> 10) &&& 0x1f).toUInt32 + (127 - 15)) <<< 23).toNat =
          2 ^ 23 * (exponent + 112 + 1) := by
        rw [UInt32.toNat_shiftLeft, UInt32.toNat_add, hexponent, hbias, hshift, Nat.shiftLeft_eq]
        omega
      have hlow : ((raw &&& 0x03ff).toUInt32 <<< 13).toNat = 2 ^ 13 * fraction := by
        rw [UInt32.toNat_shiftLeft, hmantissa, hshift', Nat.shiftLeft_eq]
        omega
      rw [UInt32.toNat_or, hhigh, hlow, or_eq_add 23 _ (by omega)]
    rw [if_neg hne, if_neg hfinite]
    refine ⟨2 ^ 23 * (exponent + 112 + 1) + 2 ^ 13 * fraction, by omega, ?_, ?_⟩
    · rw [signed32_toNat hsign (by rw [hcode]; omega), hcode]
    · rw [SoftFloat.codeUnits_normal _ (by omega), SoftFloat.codeUnits_normal _ hf]
      ring

end Patterns

section Rounding

/-- The fractions that round up to the next power of two while the exponent of
the half is odd: their carry meets a set bit. -/
def LosesCarry (bits : UInt32) : Prop :=
  112 < exponentOf bits ∧ exponentOf bits < 143 ∧ exponentOf bits % 2 = 1 ∧
    2 ^ 23 - 2 ^ 12 ≤ fractionOf bits

instance (bits : UInt32) : Decidable (LosesCarry bits) :=
  inferInstanceAs (Decidable (_ ∧ _ ∧ _ ∧ _))

variable {exponent fraction : ℕ}

/-- The units of a float from exponent and fraction. -/
def floatUnits (exponent fraction : ℕ) : ℕ :=
  SoftFloat.codeUnits 23 (2 ^ 23 * exponent + fraction)

theorem floatUnits_normal (h : fraction < 2 ^ 23) :
    floatUnits (exponent + 1) fraction = (2 ^ 23 + fraction) * 2 ^ exponent :=
  SoftFloat.codeUnits_normal exponent h

/-- Up to the smallest normal half the code counts half units to the nearest. -/
theorem halfCode_small (hf : fraction < 2 ^ 23) (he : exponent ≤ 112) :
    halfCode exponent fraction = (floatUnits exponent fraction + 2 ^ 124) / 2 ^ 125 := by
  have hsplit : ∀ units : ℕ,
      (units + 2 ^ 124) / 2 ^ 125 = (units / 2 ^ 112 + 2 ^ 12) / 2 ^ 13 := by
    intro units
    omega
  unfold halfCode
  by_cases htiny : exponent < 102
  · rw [if_pos htiny]
    have hle : floatUnits exponent fraction < floatUnits 102 0 :=
      SoftFloat.codeUnits_strictMono 23 (by omega)
    rw [show floatUnits 102 0 = 2 ^ 124 from rfl] at hle
    omega
  · rw [if_neg htiny, if_pos he, hsplit]
    obtain ⟨n, rfl⟩ : ∃ n, exponent = n + 1 := ⟨exponent - 1, by omega⟩
    have hpow : 2 ^ 112 = 2 ^ (113 - (n + 1)) * 2 ^ n := by
      rw [← pow_add]
      congr 1
      omega
    rw [floatUnits_normal hf, hpow, Nat.mul_div_mul_right _ _ (by positivity),
      Nat.add_comm fraction]

/-- In the normal range the carry is kept or lost. -/
theorem halfCode_normal (hf : fraction < 2 ^ 23) (he : 112 < exponent) (he' : exponent < 143) :
    halfCode exponent fraction =
      if exponent % 2 = 1 ∧ 2 ^ 23 - 2 ^ 12 ≤ fraction then 2 ^ 10 * (exponent - 112)
      else 2 ^ 10 * (exponent - 112) + (fraction + 2 ^ 12) / 2 ^ 13 := by
  unfold halfCode
  rw [if_neg (by omega), if_neg (by omega), if_neg (by omega)]
  by_cases hcarry : 2 ^ 23 - 2 ^ 12 ≤ fraction
  · have hround : (fraction + 2 ^ 12) / 2 ^ 13 = 2 ^ 10 := by omega
    rw [hround]
    by_cases hodd : exponent % 2 = 1
    · have hsplit : 2 ^ 10 * (exponent - 112) = 2 ^ 11 * ((exponent - 112) / 2) + 2 ^ 10 := by
        omega
      rw [if_pos ⟨hodd, hcarry⟩, hsplit, ← or_eq_add 11 _ (by decide), Nat.or_assoc, Nat.or_self]
    · have hsplit : 2 ^ 10 * (exponent - 112) = 2 ^ 11 * ((exponent - 112) / 2) := by omega
      rw [if_neg fun h => hodd h.1, hsplit, or_eq_add 11 _ (by decide)]
  · rw [if_neg fun h => hcarry h.2, or_eq_add 10 _ (by omega)]

/-- The smallest normal half separates the two ranges of the code. -/
theorem halfCode_le (hf : fraction < 2 ^ 23) (he : exponent ≤ 112) :
    halfCode exponent fraction ≤ 2 ^ 10 := by
  have hlt : floatUnits exponent fraction < floatUnits 113 0 :=
    SoftFloat.codeUnits_strictMono 23 (by omega)
  rw [show floatUnits 113 0 = 2 ^ 135 from rfl] at hlt
  rw [halfCode_small hf he]
  omega

/-- The largest half bounds the parts of the float. -/
theorem parts_of_bounded (h : floatUnits exponent fraction ≤ 65504 * 2 ^ 149) :
    2 ^ 23 * exponent + fraction ≤ 2 ^ 23 * 142 + 2 ^ 13 * 1023 := by
  rw [show 65504 * 2 ^ 149 = SoftFloat.codeUnits 23 (2 ^ 23 * 142 + 2 ^ 13 * 1023) from rfl] at h
  exact (SoftFloat.codeUnits_strictMono 23).le_iff_le.mp h

/-- A float up to the largest half has the code of a finite half. -/
theorem halfCode_finite (hf : fraction < 2 ^ 23)
    (hbounded : 2 ^ 23 * exponent + fraction ≤ 2 ^ 23 * 142 + 2 ^ 13 * 1023) :
    halfCode exponent fraction < 31 * 2 ^ 10 := by
  by_cases he : exponent ≤ 112
  · have hle := halfCode_le hf he
    omega
  · rw [halfCode_normal hf (by omega) (by omega)]
    split <;> omega

/-- The half counted in float units. -/
def widened (exponent fraction : ℕ) : ℕ :=
  2 ^ 125 * SoftFloat.codeUnits 10 (halfCode exponent fraction)

/-- Half a unit in the last place of the half, in float units. -/
def halfUnit (exponent : ℕ) : ℕ := 2 ^ (max exponent 113 + 11)

/-- Up to the smallest normal half the code is within half a unit. -/
theorem widened_small (hf : fraction < 2 ^ 23) (he : exponent ≤ 112) :
    widened exponent fraction ≤ floatUnits exponent fraction + halfUnit exponent ∧
      floatUnits exponent fraction ≤ widened exponent fraction + halfUnit exponent := by
  have hunits : SoftFloat.codeUnits 10 (halfCode exponent fraction) =
      halfCode exponent fraction := by
    rcases Nat.lt_or_ge (halfCode exponent fraction) (2 ^ 10) with hlt | hge
    · exact SoftFloat.codeUnits_of_lt hlt
    · rw [le_antisymm (halfCode_le hf he) hge]
      rfl
  rw [widened, hunits, halfCode_small hf he, halfUnit, max_eq_right (by omega)]
  omega

/-- A kept carry leaves the code within half a unit. -/
theorem widened_normal (hf : fraction < 2 ^ 23) (he : 112 < exponent) (he' : exponent < 143)
    (hkept : ¬(exponent % 2 = 1 ∧ 2 ^ 23 - 2 ^ 12 ≤ fraction)) :
    widened exponent fraction ≤ floatUnits exponent fraction + halfUnit exponent ∧
      floatUnits exponent fraction ≤ widened exponent fraction + halfUnit exponent := by
  obtain ⟨n, rfl⟩ : ∃ n, exponent = n + 113 := ⟨exponent - 113, by omega⟩
  have hcode : halfCode (n + 113) fraction =
      2 ^ 10 * (n + 1) + (fraction + 2 ^ 12) / 2 ^ 13 := by
    rw [halfCode_normal hf he he', if_neg hkept]
    congr 2
  have hunits : SoftFloat.codeUnits 10 (halfCode (n + 113) fraction) =
      (2 ^ 10 + (fraction + 2 ^ 12) / 2 ^ 13) * 2 ^ n := by
    rw [hcode]
    rcases Nat.lt_or_ge ((fraction + 2 ^ 12) / 2 ^ 13) (2 ^ 10) with hlt | hge
    · exact SoftFloat.codeUnits_normal n hlt
    · have hfull : (fraction + 2 ^ 12) / 2 ^ 13 = 2 ^ 10 := by omega
      rw [hfull, SoftFloat.codeUnits_carry]
  have hwidened : widened (n + 113) fraction =
      (2 ^ 23 + 2 ^ 13 * ((fraction + 2 ^ 12) / 2 ^ 13)) * 2 ^ (n + 112) := by
    rw [widened, hunits]
    ring
  have hhalf : halfUnit (n + 113) = 2 ^ 12 * 2 ^ (n + 112) := by
    rw [halfUnit, max_eq_left (by omega)]
    ring
  rw [hwidened, hhalf, floatUnits_normal hf, ← Nat.add_mul, ← Nat.add_mul]
  exact ⟨Nat.mul_le_mul_right _ (by omega), Nat.mul_le_mul_right _ (by omega)⟩

/-- A lost carry is further away than half a unit. -/
theorem widened_lost (hf : fraction < 2 ^ 23) (he : 112 < exponent) (he' : exponent < 143)
    (hlost : exponent % 2 = 1 ∧ 2 ^ 23 - 2 ^ 12 ≤ fraction) :
    widened exponent fraction + halfUnit exponent < floatUnits exponent fraction := by
  obtain ⟨n, rfl⟩ : ∃ n, exponent = n + 113 := ⟨exponent - 113, by omega⟩
  have hcode : halfCode (n + 113) fraction = 2 ^ 10 * (n + 1) + 0 := by
    rw [halfCode_normal hf he he', if_pos hlost]
    rfl
  have hwidened : widened (n + 113) fraction = 2 ^ 23 * 2 ^ (n + 112) := by
    rw [widened, hcode, SoftFloat.codeUnits_normal n (by decide)]
    ring
  have hhalf : halfUnit (n + 113) = 2 ^ 12 * 2 ^ (n + 112) := by
    rw [halfUnit, max_eq_left (by omega)]
    ring
  rw [hwidened, hhalf, floatUnits_normal hf, ← Nat.add_mul]
  exact Nat.mul_lt_mul_of_pos_right (by omega) (by positivity)

/-- Without a lost carry the codes are in the order of the floats. -/
theorem halfCode_mono {exponent' fraction' : ℕ} (hf : fraction < 2 ^ 23)
    (hf' : fraction' < 2 ^ 23) (he' : exponent' < 143)
    (hkept : ¬(112 < exponent ∧ exponent % 2 = 1 ∧ 2 ^ 23 - 2 ^ 12 ≤ fraction))
    (hkept' : ¬(112 < exponent' ∧ exponent' % 2 = 1 ∧ 2 ^ 23 - 2 ^ 12 ≤ fraction'))
    (hle : 2 ^ 23 * exponent + fraction ≤ 2 ^ 23 * exponent' + fraction') :
    halfCode exponent fraction ≤ halfCode exponent' fraction' := by
  by_cases hsmall' : exponent' ≤ 112
  · have hunits : floatUnits exponent fraction ≤ floatUnits exponent' fraction' :=
      (SoftFloat.codeUnits_strictMono 23).monotone hle
    rw [halfCode_small hf (by omega), halfCode_small hf' hsmall']
    omega
  · have hnormal' := halfCode_normal hf' (not_le.mp hsmall') he'
    rw [if_neg fun h => hkept' ⟨not_le.mp hsmall', h⟩] at hnormal'
    rw [hnormal']
    by_cases hsmall : exponent ≤ 112
    · have hbound := halfCode_le hf hsmall
      omega
    · rw [halfCode_normal hf (by omega) (by omega), if_neg fun h => hkept ⟨by omega, h⟩]
      omega

end Rounding

section Values

variable {x y : Binary32}

/-- Writing a float as a half and reading it back. -/
def halved (x : Binary32) : Binary32 :=
  Numerics.ofBits (f16BitsToFloat (floatToF16Bits (Numerics.bits x)))

/-- The spacing of the halves around a number. -/
def unitInLastPlace (v : ℚ) : ℚ :=
  if |v| < 2 ^ (-14 : ℤ) then 2 ^ (-24 : ℤ) else 2 ^ (Int.log 2 |v| - 10)

/-- The float is the half-precision value of its input, rounded correctly. -/
structure RoundsTo (x y : Binary32) : Prop where
  representable : ∃ half : Binary16, half.IsFinite ∧ half.value = y.value
  nearest : |y.value - x.value| ≤ unitInLastPlace x.value / 2
  sign : y.negative = x.negative

/-- Exponent and fraction of a float. -/
def exponent (x : Binary32) : ℕ := exponentOf (Numerics.bits x)
def fraction (x : Binary32) : ℕ := fractionOf (Numerics.bits x)

theorem fraction_lt (x : Binary32) : fraction x < 2 ^ 23 := fractionOf_lt _

/-- A number with a sign in front. -/
def signed (negative : Bool) (magnitude : ℚ) : ℚ := if negative then -magnitude else magnitude

theorem abs_signed (negative : Bool) {magnitude : ℚ} (h : 0 ≤ magnitude) :
    |signed negative magnitude| = magnitude := by
  cases negative with
  | false => exact abs_of_nonneg h
  | true => exact (abs_neg _).trans (abs_of_nonneg h)

theorem signed_sub (negative : Bool) (a b : ℚ) :
    |signed negative a - signed negative b| = |a - b| := by
  cases negative with
  | false => rfl
  | true =>
    have heq : signed true a - signed true b = -(a - b) := by
      simp only [signed, if_true]
      ring
    rw [heq, abs_neg]

/-- The value of a pattern from its sign and its magnitude code. -/
theorem value_eq {p e : ℕ} (x : SoftFloat p e) : x.value =
    signed x.negative (SoftFloat.codeUnits (p - 1) x.magnitudeCode / 2 ^ SoftFloat.unit p e) := by
  rw [SoftFloat.value, SoftFloat.units_eq, signed]
  cases x.negative with
  | false => simp
  | true => simp [neg_div]

theorem magnitudeCode_eq (x : Binary32) :
    x.magnitudeCode = 2 ^ 23 * exponent x + fraction x := by
  have hparts := bits_eq_parts (Numerics.bits x)
  have hcode : (Numerics.bits x).toNat = x.code.toNat := rfl
  have he := exponentOf_lt (Numerics.bits x)
  have hf := fractionOf_lt (Numerics.bits x)
  rw [SoftFloat.magnitudeCode, ← hcode, hparts]
  simp only [exponent, fraction]
  omega

theorem negative_eq (x : Binary32) : x.negative = decide (signOf (Numerics.bits x) = 1) := by
  have hcode : (Numerics.bits x).toNat = x.code.toNat := rfl
  have hlt := (Numerics.bits x).toNat_lt
  rw [SoftFloat.negative, ← hcode, signOf]
  refine decide_eq_decide.mpr ?_
  omega

/-- The value of a float from its parts. -/
theorem float_value (x : Binary32) : x.value =
    signed x.negative (floatUnits (exponent x) (fraction x) / 2 ^ 149) := by
  rw [value_eq, magnitudeCode_eq]
  rfl

/-- A float within the range of the halves has bounded parts. -/
theorem parts_of_abs_le (h : |x.value| ≤ 65504) :
    2 ^ 23 * exponent x + fraction x ≤ 2 ^ 23 * 142 + 2 ^ 13 * 1023 := by
  apply parts_of_bounded
  rw [float_value, abs_signed _ (by positivity), div_le_iff₀ (by positivity)] at h
  exact_mod_cast h

/-- Reading back keeps the sign and gives the magnitude of the half. -/
theorem halved_parts (h : halfCode (exponent x) (fraction x) < 31 * 2 ^ 10) :
    (halved x).negative = x.negative ∧
      SoftFloat.codeUnits 23 (halved x).magnitudeCode = widened (exponent x) (fraction x) := by
  have hsign := signOf_lt (Numerics.bits x)
  obtain ⟨code, hlt, hcode, hunits⟩ :=
    f16BitsToFloat_units (floatToF16Bits_toNat (Numerics.bits x)) hsign h
  have htoNat : (halved x).code.toNat = 2 ^ 31 * signOf (Numerics.bits x) + code := hcode
  refine ⟨?_, ?_⟩
  · rw [negative_eq x, SoftFloat.negative, htoNat]
    refine decide_eq_decide.mpr ?_
    omega
  · have hmod : (halved x).magnitudeCode = code := by
      rw [SoftFloat.magnitudeCode, htoNat]
      omega
    rw [hmod, hunits]
    rfl

theorem halved_value (h : halfCode (exponent x) (fraction x) < 31 * 2 ^ 10) : (halved x).value =
    signed x.negative (widened (exponent x) (fraction x) / 2 ^ 149) := by
  rw [value_eq, (halved_parts h).1]
  have hunits : SoftFloat.codeUnits (24 - 1) (halved x).magnitudeCode =
      widened (exponent x) (fraction x) := (halved_parts h).2
  rw [hunits]
  rfl

/-- What is read back is the value of a finite half. -/
theorem halved_representable (h : halfCode (exponent x) (fraction x) < 31 * 2 ^ 10) :
    ∃ half : Binary16, half.IsFinite ∧ half.value = (halved x).value := by
  have hcode := floatToF16Bits_toNat (Numerics.bits x)
  have hsign := signOf_lt (Numerics.bits x)
  have hmagnitude : (⟨(floatToF16Bits (Numerics.bits x)).toBitVec⟩ : Binary16).magnitudeCode =
      halfCode (exponent x) (fraction x) := by
    change (floatToF16Bits (Numerics.bits x)).toNat % 2 ^ 15 = _
    rw [hcode]
    simp only [exponent, fraction] at h ⊢
    omega
  have hnegative : (⟨(floatToF16Bits (Numerics.bits x)).toBitVec⟩ : Binary16).negative =
      x.negative := by
    rw [negative_eq, SoftFloat.negative]
    refine decide_eq_decide.mpr ?_
    change 2 ^ 15 ≤ (floatToF16Bits (Numerics.bits x)).toNat ↔ _
    rw [hcode]
    simp only [exponent, fraction] at h
    omega
  refine ⟨⟨(floatToF16Bits (Numerics.bits x)).toBitVec⟩, ?_, ?_⟩
  · rw [SoftFloat.IsFinite, hmagnitude]
    exact h
  · rw [halved_value h, value_eq, hmagnitude, hnegative, widened]
    have hscale : (SoftFloat.codeUnits (11 - 1) (halfCode (exponent x) (fraction x)) : ℚ) /
        2 ^ SoftFloat.unit 11 5 =
          ((2 ^ 125 * SoftFloat.codeUnits 10 (halfCode (exponent x) (fraction x)) : ℕ) : ℚ) /
            2 ^ 149 := by
      rw [show SoftFloat.unit 11 5 = 24 from rfl]
      push_cast
      ring
    rw [hscale]

/-- The spacing of the halves in float units. -/
theorem unitInLastPlace_eq (x : Binary32) :
    unitInLastPlace x.value / 2 = halfUnit (exponent x) / 2 ^ 149 := by
  have hf := fraction_lt x
  have habs : |x.value| = floatUnits (exponent x) (fraction x) / 2 ^ 149 := by
    rw [float_value, abs_signed _ (by positivity)]
  rw [unitInLastPlace, habs, halfUnit]
  have hsplit : ((floatUnits (exponent x) (fraction x) : ℚ) / 2 ^ 149 < 2 ^ (-14 : ℤ)) ↔
      exponent x ≤ 112 := by
    have hcode : (floatUnits (exponent x) (fraction x) < 2 ^ 135) ↔ exponent x ≤ 112 := by
      rw [show 2 ^ 135 = SoftFloat.codeUnits 23 (2 ^ 23 * 113 + 0) from rfl, floatUnits,
        (SoftFloat.codeUnits_strictMono 23).lt_iff_lt]
      omega
    rw [← hcode, div_lt_iff₀ (by positivity)]
    have hpow : (2 : ℚ) ^ (-14 : ℤ) * 2 ^ 149 = ((2 ^ 135 : ℕ) : ℚ) := by norm_num
    rw [hpow]
    exact Nat.cast_lt
  by_cases hsmall : exponent x ≤ 112
  · rw [if_pos (hsplit.mpr hsmall), max_eq_right (by omega)]
    norm_num
  · rw [if_neg fun h => hsmall (hsplit.mp h), max_eq_left (by omega)]
    obtain ⟨n, hn⟩ : ∃ n, exponent x = n + 1 := ⟨exponent x - 1, by omega⟩
    have hunits : floatUnits (exponent x) (fraction x) = (2 ^ 23 + fraction x) * 2 ^ n := by
      rw [hn, floatUnits_normal hf]
    have hscale : ∀ k : ℕ, (2 : ℚ) ^ ((n : ℤ) + k - 149) = ((2 ^ k * 2 ^ n : ℕ) : ℚ) / 2 ^ 149 := by
      intro k
      rw [zpow_sub₀ (by norm_num), zpow_add₀ (by norm_num), zpow_natCast, zpow_natCast]
      push_cast
      norm_num
      ring
    have hlog : Int.log 2 ((floatUnits (exponent x) (fraction x) : ℚ) / 2 ^ 149) = n - 126 := by
      have hpos : 0 < (floatUnits (exponent x) (fraction x) : ℚ) / 2 ^ 149 := by
        rw [hunits]
        positivity
      refine le_antisymm (Int.lt_add_one_iff.mp ?_) ?_
      · apply (Int.lt_zpow_iff_log_lt (by decide) hpos).mp
        have heq : (n : ℤ) - 126 + 1 = n + (24 : ℕ) - 149 := by
          push_cast
          ring
        rw [heq, Nat.cast_ofNat, hscale 24, hunits]
        refine div_lt_div_of_pos_right (Nat.cast_lt.mpr ?_) (by positivity)
        exact Nat.mul_lt_mul_of_pos_right (by omega) (by positivity)
      · apply (Int.zpow_le_iff_le_log (by decide) hpos).mp
        have heq : (n : ℤ) - 126 = n + (23 : ℕ) - 149 := by
          push_cast
          ring
        rw [heq, Nat.cast_ofNat, hscale 23, hunits]
        refine div_le_div_of_nonneg_right (Nat.cast_le.mpr ?_) (by positivity)
        exact Nat.mul_le_mul_right _ (by omega)
    have heq : (n : ℤ) - 126 - 10 = n + (13 : ℕ) - 149 := by
      push_cast
      ring
    rw [hlog, heq, hscale 13, hn]
    push_cast
    ring

/-- Rounding is correct exactly for the floats whose carry is kept. -/
theorem roundsTo_iff (h : |x.value| ≤ 65504) :
    RoundsTo x (halved x) ↔ ¬LosesCarry (Numerics.bits x) := by
  have hparts := parts_of_abs_le h
  have hf := fraction_lt x
  have hfinite := halfCode_finite hf hparts
  have hnearest : |(halved x).value - x.value| ≤ unitInLastPlace x.value / 2 ↔
      widened (exponent x) (fraction x) ≤
          floatUnits (exponent x) (fraction x) + halfUnit (exponent x) ∧
        floatUnits (exponent x) (fraction x) ≤
          widened (exponent x) (fraction x) + halfUnit (exponent x) := by
    rw [unitInLastPlace_eq, halved_value hfinite, float_value, signed_sub, ← sub_div, abs_div,
      abs_of_pos (show (0 : ℚ) < 2 ^ 149 by positivity),
      div_le_div_iff_of_pos_right (by positivity), abs_le]
    constructor
    · rintro ⟨hlow, hhigh⟩
      refine ⟨?_, ?_⟩
      · exact_mod_cast (by linarith : (widened (exponent x) (fraction x) : ℚ) ≤
          floatUnits (exponent x) (fraction x) + halfUnit (exponent x))
      · exact_mod_cast (by linarith : (floatUnits (exponent x) (fraction x) : ℚ) ≤
          widened (exponent x) (fraction x) + halfUnit (exponent x))
    · rintro ⟨hhigh, hlow⟩
      have hhigh' : (widened (exponent x) (fraction x) : ℚ) ≤
          floatUnits (exponent x) (fraction x) + halfUnit (exponent x) := by exact_mod_cast hhigh
      have hlow' : (floatUnits (exponent x) (fraction x) : ℚ) ≤
          widened (exponent x) (fraction x) + halfUnit (exponent x) := by exact_mod_cast hlow
      exact ⟨by linarith, by linarith⟩
  constructor
  · rintro hrounds ⟨he, he', hlost⟩
    have hfar := widened_lost hf he he' hlost
    exact absurd (hnearest.mp hrounds.nearest).2 (not_le.mpr hfar)
  · intro hkept
    refine ⟨halved_representable hfinite, hnearest.mpr ?_, (halved_parts hfinite).1⟩
    by_cases he : exponent x ≤ 112
    · exact widened_small hf he
    · exact widened_normal hf (by omega) (by omega) fun hlost =>
        hkept ⟨not_le.mp he, by change exponent x < 143; omega, hlost⟩

/-- An order of magnitudes is an order of the signed numbers. -/
theorem signed_le_signed {a b a' b' : ℚ} {negative negative' : Bool} (ha : 0 ≤ a) (hb : 0 ≤ b)
    (ha' : 0 ≤ a') (hb' : 0 ≤ b') (hup : a ≤ b → a' ≤ b') (hdown : b ≤ a → b' ≤ a')
    (hle : signed negative a ≤ signed negative' b) (hzero : a = 0 → b = 0 → a' = 0 ∧ b' = 0) :
    signed negative a' ≤ signed negative' b' := by
  cases negative with
  | false =>
    cases negative' with
    | false => exact hup hle
    | true =>
      simp only [signed] at hle
      obtain ⟨hza, hzb⟩ := hzero (by simp at hle; linarith) (by simp at hle; linarith)
      rw [hza, hzb]
      simp [signed]
  | true =>
    cases negative' with
    | false =>
      simp only [signed, if_true]
      simp
      linarith
    | true => exact neg_le_neg (hdown (neg_le_neg_iff.mp hle))

/-- Where no carry is lost the magnitudes stay in order. -/
theorem widened_mono (hx : |x.value| ≤ 65504) (hy : |y.value| ≤ 65504)
    (hkeptx : ¬LosesCarry (Numerics.bits x)) (hkepty : ¬LosesCarry (Numerics.bits y))
    (hle : floatUnits (exponent x) (fraction x) ≤ floatUnits (exponent y) (fraction y)) :
    widened (exponent x) (fraction x) ≤ widened (exponent y) (fraction y) := by
  have hpartsx := parts_of_abs_le hx
  have hpartsy := parts_of_abs_le hy
  have hltx : exponent x < 143 := by omega
  have hlty : exponent y < 143 := by omega
  have hcodes := halfCode_mono (fraction_lt x) (fraction_lt y) hlty
    (fun hlost => hkeptx ⟨hlost.1, hltx, hlost.2⟩) (fun hlost => hkepty ⟨hlost.1, hlty, hlost.2⟩)
    ((SoftFloat.codeUnits_strictMono 23).le_iff_le.mp hle)
  exact Nat.mul_le_mul_left _ ((SoftFloat.codeUnits_strictMono 10).monotone hcodes)

/-- Zero is read back as zero. -/
theorem widened_of_zero (h : floatUnits (exponent x) (fraction x) = 0) :
    widened (exponent x) (fraction x) = 0 := by
  have hcode : 2 ^ 23 * exponent x + fraction x = 0 :=
    (SoftFloat.codeUnits_strictMono 23).injective (h.trans (by decide))
  have he : exponent x = 0 := by omega
  have hf : fraction x = 0 := by omega
  rw [he, hf]
  rfl

/-- Where no carry is lost the floats stay in order. -/
theorem halved_mono (hx : |x.value| ≤ 65504) (hy : |y.value| ≤ 65504)
    (hkeptx : ¬LosesCarry (Numerics.bits x)) (hkepty : ¬LosesCarry (Numerics.bits y))
    (hle : x.value ≤ y.value) : (halved x).value ≤ (halved y).value := by
  have hscale : ∀ a b : ℕ, (a : ℚ) / 2 ^ 149 ≤ b / 2 ^ 149 ↔ a ≤ b := fun a b => by
    rw [div_le_div_iff_of_pos_right (by positivity), Nat.cast_le]
  have hzero : ∀ a : ℕ, (a : ℚ) / 2 ^ 149 = 0 ↔ a = 0 := fun a => by
    rw [div_eq_zero_iff, Nat.cast_eq_zero, or_iff_left (by positivity)]
  rw [float_value, float_value] at hle
  rw [halved_value (halfCode_finite (fraction_lt x) (parts_of_abs_le hx)),
    halved_value (halfCode_finite (fraction_lt y) (parts_of_abs_le hy))]
  refine signed_le_signed (by positivity) (by positivity) (by positivity) (by positivity)
    (fun h => ?_) (fun h => ?_) hle fun h h' => ⟨?_, ?_⟩
  · exact (hscale _ _).mpr (widened_mono hx hy hkeptx hkepty ((hscale _ _).mp h))
  · exact (hscale _ _).mpr (widened_mono hy hx hkepty hkeptx ((hscale _ _).mp h))
  · exact (hzero _).mpr (widened_of_zero ((hzero _).mp h))
  · exact (hzero _).mpr (widened_of_zero ((hzero _).mp h'))

end Values

section Frames

variable {hp : LlamaExecutorHyperparams Binary32} {hidden : List Binary32} {rows : ℕ}
  {precision : Bytes}

/-- The two bytes of a half, put together again. -/
theorem halfBytes_joined (raw : UInt16) : ((raw &&& 0xff).toUInt8).toUInt16 |||
    ((((raw >>> 8) &&& 0xff).toUInt8).toUInt16 <<< 8) = raw := by
  have hlt := raw.toNat_lt
  have hmask : (0xff : UInt16).toNat = 2 ^ 8 - 1 := rfl
  have hshift : (8 : UInt16).toNat % 16 = 8 := rfl
  have hlow : ((raw &&& 0xff).toUInt8).toUInt16.toNat = raw.toNat % 2 ^ 8 := by
    rw [UInt8.toNat_toUInt16, UInt16.toNat_toUInt8, UInt16.toNat_and, hmask,
      Nat.and_two_pow_sub_one_eq_mod]
    omega
  have hhigh : ((((raw >>> 8) &&& 0xff).toUInt8).toUInt16 <<< 8).toNat =
      2 ^ 8 * (raw.toNat / 2 ^ 8) := by
    rw [UInt16.toNat_shiftLeft, UInt8.toNat_toUInt16, UInt16.toNat_toUInt8, UInt16.toNat_and,
      UInt16.toNat_shiftRight, hshift, hmask, Nat.and_two_pow_sub_one_eq_mod,
      Nat.shiftRight_eq_div_pow, Nat.shiftLeft_eq]
    omega
  apply UInt16.toNat_inj.mp
  rw [UInt16.toNat_or, hlow, hhigh, Nat.or_comm, or_eq_add 8 _ (Nat.mod_lt _ (by decide)),
    Nat.div_add_mod]

/-- Reading back one half. -/
theorem readF16Le_hidden {i : ℕ} (hi : i < hidden.length) :
    readF16Le (hidden.flatMap writeF16Le) (i * 2) = .ok (halved hidden[i]) := by
  have hlength := flatMap_length_mul (f := writeF16Le) (fun x : Binary32 => writeF16Le_length x)
    hidden
  have hdrop : (hidden.flatMap writeF16Le).drop (i * 2) =
      writeF16Le hidden[i] ++ (hidden.drop (i + 1)).flatMap writeF16Le := by
    rw [flatMap_drop_mul fun x : Binary32 => writeF16Le_length x, List.drop_eq_getElem_cons hi,
      List.flatMap_cons]
  have hbyte : ∀ k, (hidden.flatMap writeF16Le).getD (i * 2 + k) 0 =
      (writeF16Le hidden[i] ++ (hidden.drop (i + 1)).flatMap writeF16Le).getD k 0 := by
    intro k
    rw [← hdrop, List.getD_eq_getElem?_getD, List.getD_eq_getElem?_getD, List.getElem?_drop]
  have hfirst := hbyte 0
  have hsecond := hbyte 1
  rw [Nat.add_zero] at hfirst
  rw [readF16Le, if_neg (by omega), hfirst, hsecond]
  exact congrArg (fun raw => Except.ok (Numerics.ofBits (f16BitsToFloat raw)))
    (halfBytes_joined (floatToF16Bits (Numerics.bits hidden[i])))

/-- Frames at half precision are read back entry by entry. -/
theorem tensorToHiddenF32_half (hprecision : IsHalf precision) (hne : hidden ≠ [])
    (hlength : hidden.length = rows * hp.hiddenSize) (hsize : hidden.length * 4 < 2 ^ 63) :
    tensorToHiddenF32 hp (floatHiddenToTensor hp hidden 1 rows precision) =
      .ok (hidden.map halved) := by
  have hproduct : 0 < rows * hp.hiddenSize := by
    rw [← hlength]
    exact List.length_pos_of_ne_nil hne
  have hvalid := (hiddenRows_floatHiddenToTensor hlength precision).valid
    (Nat.pos_of_mul_pos_right hproduct) (Nat.pos_of_mul_pos_left hproduct) (by omega)
  have hdtype : (floatHiddenToTensor hp hidden 1 rows precision).metadata.dtype =
      dtypeHiddenF16 := if_pos hprecision
  have hbytes : (floatHiddenToTensor hp hidden 1 rows precision).bytes =
      hidden.flatMap writeF16Le := if_pos hprecision
  have hcount : (toInt64 (1 * rows * hp.hiddenSize)).toNat = hidden.length := by
    rw [one_mul, count_of_lt (by omega), Int.toNat_natCast, hlength]
  have hmap := mapM_ok (l := List.range hidden.length)
    (f := fun i => readF16Le (hidden.flatMap writeF16Le) (i * 2))
    (g := fun i => (hidden.map halved).getD i 0) fun i hi => by
      have hlt := List.mem_range.mp hi
      rw [readF16Le_hidden hlt, List.getD_eq_getElem _ _ (by rw [List.length_map]; exact hlt),
        List.getElem_map]
  have hall := range_map_getD (hidden.map halved)
  rw [List.length_map] at hall
  rw [hall] at hmap
  simp only [tensorToHiddenF32, hvalid, bind, Except.bind]
  rw [if_neg (by simp [floatHiddenToTensor]), if_neg (by rw [hdtype]; decide), if_pos hdtype,
    hbytes]
  rw [show (floatHiddenToTensor hp hidden 1 rows precision).metadata.shape =
    [1, (rows : ℤ), (hp.hiddenSize : ℤ)] from rfl]
  simp only [List.getD_cons_zero, List.getD_cons_succ]
  rw [hcount, hmap]

/-- What the frame of a vector gives back is the vector, correctly rounded and
in the same order. An empty vector makes no frame. -/
def EncodesCorrectly (hp : LlamaExecutorHyperparams Binary32) (hidden : List Binary32)
    (rows : ℕ) (precision : Bytes) : Prop :=
  hidden ≠ [] → ∃ decoded,
    tensorToHiddenF32 hp (floatHiddenToTensor hp hidden 1 rows precision) = .ok decoded ∧
      List.Forall₂ RoundsTo hidden decoded ∧
      ∀ i j (hi : i < hidden.length) (hj : j < hidden.length)
        (hi' : i < decoded.length) (hj' : j < decoded.length),
        hidden[i].value ≤ hidden[j].value → decoded[i].value ≤ decoded[j].value

/-- A half-precision frame encodes a vector correctly exactly when no entry
loses its carry. -/
theorem encodesCorrectly_iff (hprecision : IsHalf precision)
    (hlength : hidden.length = rows * hp.hiddenSize) (hsize : hidden.length * 4 < 2 ^ 63)
    (hrange : ∀ x ∈ hidden, x.IsFinite ∧ |x.value| ≤ 65504) :
    EncodesCorrectly hp hidden rows precision ↔
      ∀ x ∈ hidden, ¬LosesCarry (Numerics.bits x) := by
  constructor
  · intro hcorrect x hx
    obtain ⟨decoded, hdecoded, hrounds, -⟩ := hcorrect (List.ne_nil_of_mem hx)
    rw [tensorToHiddenF32_half hprecision (List.ne_nil_of_mem hx) hlength hsize] at hdecoded
    obtain rfl := Except.ok.inj hdecoded
    rw [List.forall₂_map_right_iff, List.forall₂_same] at hrounds
    exact (roundsTo_iff (hrange x hx).2).mp (hrounds x hx)
  · intro hkept hne
    refine ⟨_, tensorToHiddenF32_half hprecision hne hlength hsize, ?_, ?_⟩
    · rw [List.forall₂_map_right_iff, List.forall₂_same]
      exact fun x hx => (roundsTo_iff (hrange x hx).2).mpr (hkept x hx)
    · intro i j hi hj hi' hj' hle
      rw [List.getElem_map, List.getElem_map]
      have hxi := List.getElem_mem hi
      have hxj := List.getElem_mem hj
      exact halved_mono (hrange _ hxi).2 (hrange _ hxj).2 (hkept _ hxi) (hkept _ hxj) hle

/-- The float just below two is read back as one. -/
theorem carry_lost_below_two :
    (⟨0x3ffff000#32⟩ : Binary32).IsFinite ∧ |(⟨0x3ffff000#32⟩ : Binary32).value| ≤ 65504 ∧
      halved ⟨0x3ffff000#32⟩ = 1 ∧
      ¬EncodesCorrectly tinyHyperparams [⟨0x3ffff000#32⟩] 1 (ascii "fp16") := by
  have hrange : |(⟨0x3ffff000#32⟩ : Binary32).value| ≤ 65504 := by decide +kernel
  refine ⟨by decide +kernel, hrange, by decide +kernel, ?_⟩
  intro hcorrect
  obtain ⟨decoded, hdecoded, hrounds, -⟩ := hcorrect (List.cons_ne_nil _ _)
  rw [tensorToHiddenF32_half (.inl rfl) (List.cons_ne_nil _ _) rfl (by decide)] at hdecoded
  obtain rfl := Except.ok.inj hdecoded
  rw [List.forall₂_map_right_iff, List.forall₂_same] at hrounds
  exact (roundsTo_iff hrange).mp (hrounds _ (List.mem_singleton_self _)) (by decide)

/-- One and minus one half are encoded correctly. -/
theorem encodesCorrectly_one_minus_half :
    EncodesCorrectly tinyHyperparams [1, ⟨0xbf000000#32⟩] 2 (ascii "fp16") :=
  (encodesCorrectly_iff (.inl rfl) rfl (by decide) (by decide +kernel)).mpr (by decide +kernel)

end Frames

end LayerInference.HalfPrecision
