import LayerInference.NumberTexts
import Mathlib.RingTheory.Coprime.Lemmas
import Mathlib.Tactic.LinearCombination
import Mathlib.Tactic.NormNum

/-!
# Which numbers are read back

A stream writes six significant digits, and a reader refuses a number below the
smallest normal double unless it is exact. No positive number of six digits is
both that small and a double, so such a number is never read. A double that is the
nearest one to six digits is read back, and an integer is read as an integer.
-/

namespace LayerInference.NumberReads

open Rounding NumberTexts

section Powers

/-- How the powers of ten lie between the powers of two at both ends of the doubles. -/
theorem powers_smallest_largest :
    (2 ^ 1022 ≤ 10 ^ 308 ∧ 10 ^ 307 < 2 ^ 1022 ∧ 222507 * 2 ^ 1022 < 10 ^ 313 ∧
      2 * 10 ^ 313 < 445015 * 2 ^ 1022 ∧ 222507 * 2 ^ 1074 ≤ 4503599627370495 * 10 ^ 313) ∧
    10 ^ 308 ≤ 2 ^ 1024 ∧ 2 ^ 1024 < 10 ^ 309 ∧ 179769 * 10 ^ 303 < 2 ^ 1024 ∧
      2 * 2 ^ 1024 < 359539 * 10 ^ 303 ∧ 179769 * 10 ^ 303 ≤ 9007199254740991 * 2 ^ 971 ∧
      9007199254740991 * 2 ^ 971 < 2 ^ 1024 := by
  decide +kernel

end Powers

section Smallest

theorem two_neg (k : ℕ) : (2 : ℚ) ^ (-k : ℤ) = (2 ^ k)⁻¹ := by
  rw [zpow_neg, zpow_natCast]

theorem ten_neg (k : ℕ) : (10 : ℚ) ^ (-k : ℤ) = (10 ^ k)⁻¹ := by
  rw [zpow_neg, zpow_natCast]

/-- Inverses of two numbers with a quotient between two bounds. -/
theorem inv_bounds {a b : ℚ} (ha : 0 < a) (hb : 0 < b) (hlow : 222507 * a < b)
    (hhigh : 2 * b < 445015 * a) :
    222507 * b⁻¹ < a⁻¹ ∧ a⁻¹ < 222507 * b⁻¹ + b⁻¹ / 2 := by
  have hinv : a⁻¹ * a = 1 := inv_mul_cancel₀ ha.ne'
  have hinv' : b⁻¹ * b = 1 := inv_mul_cancel₀ hb.ne'
  have hposa : 0 < a⁻¹ := inv_pos.mpr ha
  have hposb : 0 < b⁻¹ := inv_pos.mpr hb
  have hleft := mul_lt_mul_of_pos_left hlow (mul_pos hposa hposb)
  have hright := mul_lt_mul_of_pos_left hhigh (mul_pos hposa hposb)
  have hb' : a⁻¹ * b⁻¹ * b = a⁻¹ := by rw [mul_assoc, hinv', mul_one]
  have ha' : a⁻¹ * b⁻¹ * a = b⁻¹ := by rw [mul_right_comm, hinv, one_mul]
  constructor
  · calc 222507 * b⁻¹ = a⁻¹ * b⁻¹ * (222507 * a) := by linear_combination (-222507) * ha'
      _ < a⁻¹ * b⁻¹ * b := hleft
      _ = a⁻¹ := hb'
  · have htwice : 2 * a⁻¹ < 445015 * b⁻¹ := by
      calc 2 * a⁻¹ = a⁻¹ * b⁻¹ * (2 * b) := by linear_combination (-2) * hb'
        _ < a⁻¹ * b⁻¹ * (445015 * a) := hright
        _ = 445015 * b⁻¹ := by linear_combination 445015 * ha'
    linarith

/-- Between which powers of ten the smallest normal double lies. -/
theorem log_smallest : Int.log 10 ((2 : ℚ) ^ (-1022 : ℤ)) = -308 := by
  have hpos : (0 : ℚ) < 2 ^ (-1022 : ℤ) := zpow_pos (by norm_num) _
  have hlow : ((10 : ℕ) : ℚ) ^ (-308 : ℤ) ≤ 2 ^ (-1022 : ℤ) := by
    have hpowers : 2 ^ 1022 ≤ 10 ^ 308 := powers_smallest_largest.1.1
    rw [Nat.cast_ofNat]
    refine (ten_neg 308).trans_le ((inv_anti₀ (by positivity) ?_).trans_eq (two_neg 1022).symm)
    exact_mod_cast hpowers
  have hhigh : (2 : ℚ) ^ (-1022 : ℤ) < ((10 : ℕ) : ℚ) ^ (-307 : ℤ) := by
    have hpowers : 10 ^ 307 < 2 ^ 1022 := powers_smallest_largest.1.2.1
    rw [Nat.cast_ofNat]
    refine (two_neg 1022).trans_lt
      ((inv_strictAnti₀ (by positivity) ?_).trans_eq (ten_neg 307).symm)
    exact_mod_cast hpowers
  have habove := (Int.zpow_le_iff_le_log (by norm_num) hpos).mp hlow
  have hbelow := (Int.lt_zpow_iff_log_lt (by norm_num) hpos).mp hhigh
  omega

/-- The smallest normal double with six digits. -/
theorem sixDigits_smallest :
    sixDigits.round (2 ^ (-1022 : ℤ)) = ((222507 : ℤ) : ℚ) * 10 ^ (-313 : ℤ) := by
  have hpos : (0 : ℚ) < 2 ^ (-1022 : ℤ) := zpow_pos (by norm_num) _
  have hspacing : sixDigits.spacing (2 ^ (-1022 : ℤ)) = 10 ^ (-313 : ℤ) := by
    show ((10 : ℕ) : ℚ) ^ (Int.log 10 |(2 : ℚ) ^ (-1022 : ℤ)| + 1 - ((6 : ℕ) : ℤ)) = _
    rw [abs_of_pos hpos, log_smallest]
    rfl
  obtain ⟨⟨-, -, hlow, hhigh, -⟩, -⟩ := powers_smallest_largest
  obtain ⟨hleft, hright⟩ := @inv_bounds (2 ^ 1022) (10 ^ 313) (by positivity) (by positivity)
    (by exact_mod_cast hlow) (by exact_mod_cast hhigh)
  rw [← two_neg 1022, ← ten_neg 313] at hleft hright
  unfold NumberFormat.round
  rw [hspacing]
  refine roundTo_of_near (zpow_pos (by norm_num) _) (abs_lt.mpr ⟨?_, ?_⟩)
  · exact (neg_lt_zero.mpr (half_pos (zpow_pos (by norm_num) _))).trans (sub_pos.mpr hleft)
  · exact sub_left_lt_of_lt_add hright

end Smallest

section Small

variable {d t : ℚ}

/-- A positive number keeps a positive digit. -/
theorem sixDigits_pos (ht : 0 < t) : 0 < sixDigits.round t := by
  have hpower : sixDigits.Holds (((10 : ℕ) : ℚ) ^ Int.log 10 t) :=
    sixDigits.holds_zpow fun least hleast => by cases hleast
  have hpos : (0 : ℚ) < ((10 : ℕ) : ℚ) ^ Int.log 10 t := zpow_pos (by norm_num) _
  have hle := sixDigits.round_mono hpos.le (Int.zpow_log_le_self (by norm_num) ht)
  rw [sixDigits.round_of_holds hpower] at hle
  exact hpos.trans_le hle

/-- Up to the smallest normal double the six digits stay a step below it. -/
theorem sixDigits_small (ht : 0 ≤ t) (hsmall : t ≤ 2 ^ (-1022 : ℤ)) :
    sixDigits.round t ≤ ((2 ^ 52 - 1 : ℤ) : ℚ) * ((2 : ℕ) : ℚ) ^ (-1074 : ℤ) := by
  have hmono := sixDigits.round_mono ht hsmall
  rw [sixDigits_smallest] at hmono
  refine hmono.trans ?_
  obtain ⟨⟨-, -, -, -, hpowers⟩, -⟩ := powers_smallest_largest
  have hcast : (222507 : ℚ) * 2 ^ 1074 ≤ 4503599627370495 * 10 ^ 313 := by
    exact_mod_cast hpowers
  rw [Nat.cast_ofNat]
  have hten := ten_neg 313
  have htwo := two_neg 1074
  rw [Nat.cast_ofNat] at hten htwo
  rw [hten, htwo, ← div_eq_mul_inv, ← div_eq_mul_inv,
    div_le_div_iff₀ (by positivity) (by positivity)]
  have hcount : ((2 ^ 52 - 1 : ℤ) : ℚ) = 4503599627370495 := by norm_num
  rw [hcount, Int.cast_ofNat]
  exact hcast

/-- Five divides what only tens can make. -/
theorem five_pow_dvd {k n : ℤ} {m : ℕ} (h : k * 2 ^ 1074 = n * 10 ^ m) : (5 : ℤ) ^ m ∣ k := by
  have hdvd : (5 : ℤ) ^ m ∣ k * 2 ^ 1074 := by
    rw [h, show (10 : ℤ) = 5 * 2 from rfl, mul_pow]
    exact Dvd.dvd.mul_left (Dvd.intro _ rfl) n
  have hcoprime : IsCoprime (5 : ℤ) 2 := ⟨1, -2, by norm_num⟩
  exact (hcoprime.pow).dvd_of_dvd_mul_right hdvd

/-- A number of six digits that is positive and below the normal doubles is no
double: its digits would need a factor that is too large. -/
theorem not_double (hd : 0 < d) (hsmall : d < 2 ^ (-1022 : ℤ)) (hholds : sixDigits.Holds d) :
    ¬binary64.Holds d := by
  rintro ⟨n, hn⟩
  obtain ⟨k, hk⟩ := hholds
  have hlog10 : Int.log 10 d ≤ -308 := by
    rw [← log_smallest]
    exact Int.log_mono_right hd hsmall.le
  have hlog2 : Int.log 2 d < -1022 := by
    refine (Int.lt_zpow_iff_log_lt (by norm_num) hd).mp ?_
    rwa [Nat.cast_ofNat]
  have hten : sixDigits.spacing d = 10 ^ (Int.log 10 d - 5) := by
    show ((10 : ℕ) : ℚ) ^ (Int.log 10 |d| + 1 - ((6 : ℕ) : ℤ)) = _
    rw [abs_of_pos hd, Nat.cast_ofNat]
    congr 1
    omega
  have htwo : binary64.spacing d = 2 ^ (-1074 : ℤ) := by
    show ((2 : ℕ) : ℚ) ^ max (Int.log 2 |d| + 1 - ((53 : ℕ) : ℤ)) (-1074) = _
    rw [abs_of_pos hd, Nat.cast_ofNat, max_eq_right (by omega)]
  obtain ⟨m, hm⟩ := Int.eq_ofNat_of_zero_le (show 0 ≤ 5 - Int.log 10 d by omega)
  rw [htwo, show (-1074 : ℤ) = -(1074 : ℕ) from rfl, two_neg] at hn
  rw [hten, show Int.log 10 d - 5 = -(m : ℤ) by omega, ten_neg] at hk
  have hcross : k * 2 ^ 1074 = n * 10 ^ m := by
    have hcast : (k : ℚ) * 2 ^ 1074 = n * 10 ^ m := by
      have hequal : (k : ℚ) * (10 ^ m)⁻¹ = n * (2 ^ 1074)⁻¹ := hk.symm.trans hn
      rw [← div_eq_mul_inv, ← div_eq_mul_inv, div_eq_div_iff (by positivity) (by positivity)]
        at hequal
      exact hequal
    refine @Int.cast_injective ℚ _ _ _ _ ?_
    rw [Int.cast_mul, Int.cast_mul, Int.cast_pow, Int.cast_pow, Int.cast_ofNat, Int.cast_ofNat]
    exact hcast
  have hpos : 0 < k := by
    rw [hk] at hd
    have hcast : (0 : ℚ) < k := pos_of_mul_pos_left hd (by positivity)
    exact_mod_cast hcast
  have hfactor := Int.le_of_dvd hpos (five_pow_dvd hcross)
  -- six digits are fewer than the least power of five has
  have hdigits : k < 10 ^ 6 := by
    have hlt : d < 10 ^ (Int.log 10 d + 1) := by
      have h := Int.lt_zpow_succ_log_self (by norm_num : 1 < 10) d
      rwa [Nat.cast_ofNat] at h
    have hsplit : (10 : ℚ) ^ (Int.log 10 d + 1) = 10 ^ 6 * 10 ^ (Int.log 10 d - 5) := by
      rw [← zpow_natCast, ← zpow_add₀ (by norm_num)]
      congr 1
      push_cast
      ring
    rw [hsplit, show Int.log 10 d - 5 = -(m : ℤ) by omega, ten_neg] at hlt
    rw [hk] at hlt
    have hcast : (k : ℚ) < 10 ^ 6 := lt_of_mul_lt_mul_right hlt (by positivity)
    exact_mod_cast hcast
  have hfive : (5 : ℤ) ^ 9 ≤ 5 ^ m := pow_le_pow_right₀ (by norm_num) (by omega)
  omega

/-- The largest double below the normal ones. -/
theorem below_normal :
    ((2 ^ 52 - 1 : ℤ) : ℚ) * ((2 : ℕ) : ℚ) ^ (-1074 : ℤ) < 2 ^ (-1022 : ℤ) := by
  have hsplit : (2 : ℚ) ^ (-1022 : ℤ) = 2 ^ 52 * 2 ^ (-1074 : ℤ) := by
    rw [← zpow_natCast, ← zpow_add₀ (by norm_num)]
    rfl
  rw [Nat.cast_ofNat, hsplit]
  refine mul_lt_mul_of_pos_right ?_ (zpow_pos (by norm_num) _)
  norm_num

/-- A positive number below the normal doubles is refused when it is written with
six digits. -/
theorem stod_small (ht : 0 < t) (hsmall : t < 2 ^ (-1022 : ℤ)) :
    stod (sixDigits.round t) = none := by
  have hpos := sixDigits_pos ht
  have hbound := sixDigits_small ht.le hsmall.le
  have hholds : binary53.Holds (((2 ^ 52 - 1 : ℤ) : ℚ) * ((2 : ℕ) : ℚ) ^ (-1074 : ℤ)) :=
    binary53.holds_of_multiple (by decide) fun least hleast => by cases hleast
  have hround := (binary53.round_mono hpos.le hbound).trans_eq (binary53.round_of_holds hholds)
  have hlow : |binary53.round (sixDigits.round t)| < 2 ^ (-1022 : ℤ) := by
    rw [abs_of_nonneg (binary53.round_nonneg hpos.le)]
    exact hround.trans_lt below_normal
  have hinexact : binary64.round (sixDigits.round t) ≠ sixDigits.round t := fun h =>
    not_double hpos (hbound.trans_lt below_normal) (sixDigits.holds_round t)
      (binary64.round_eq_self_iff.mp h)
  unfold stod
  dsimp only
  rw [if_pos (c := |binary53.round (sixDigits.round t)| < 2 ^ (-1022 : ℤ) ∧
    binary64.round (sixDigits.round t) ≠ sixDigits.round t) ⟨hlow, hinexact⟩]
  split <;> rfl

/-- The double nearest to six digits is read back. -/
theorem stod_normal (hholds : sixDigits.Holds d) (hd : 0 ≤ d)
    (hsmall : 2 ^ (-1022 : ℤ) ≤ binary64.round d) (hlarge : binary64.round d < 2 ^ 1024) :
    stod (sixDigits.round (binary64.round d)) = some (binary64.round d) := by
  have hnormal : 2 ^ (-1022 : ℤ) ≤ d := by
    by_contra hless
    have hbound := sixDigits_small hd (not_le.mp hless).le
    rw [sixDigits.round_of_holds hholds] at hbound
    have hdouble : binary64.Holds (((2 ^ 52 - 1 : ℤ) : ℚ) * ((2 : ℕ) : ℚ) ^ (-1074 : ℤ)) :=
      binary64.holds_of_multiple (by decide) fun least hleast => by
        rw [← Option.some.inj hleast]
    have hround := (binary64.round_mono hd hbound).trans_eq (binary64.round_of_holds hdouble)
    exact absurd hsmall (not_le.mpr (hround.trans_lt below_normal))
  have hstep : (2 : ℚ) ^ (-1023 : ℤ) ≤ 2 ^ (-1022 : ℤ) :=
    zpow_le_zpow_right₀ (one_le_two : (1 : ℚ) ≤ 2) (show (-1023 : ℤ) ≤ -1022 by decide)
  have hhalf := hstep.trans hnormal
  rw [sixDigits_binary64 hholds hhalf]
  exact stod_of_normal (hnormal.trans_eq (abs_of_nonneg hd).symm)
    ((abs_of_nonneg (binary64.round_nonneg hd)).trans_lt hlarge)

/-- A double of 53 bits or more is an integer. -/
theorem integral_of_large {p : ℚ} (hp : binary64.Holds p) (hlarge : 2 ^ 53 ≤ |p|) :
    ∃ n : ℤ, p = n := by
  obtain ⟨n, hn⟩ := hp
  have hpos : 0 < |p| := lt_of_lt_of_le (by positivity) hlarge
  have hlog : 53 ≤ Int.log 2 |p| := by
    refine (Int.zpow_le_iff_le_log (by norm_num) hpos).mp ?_
    rw [Nat.cast_ofNat]
    exact hlarge
  obtain ⟨k, hk⟩ := Int.eq_ofNat_of_zero_le (show 0 ≤ Int.log 2 |p| + 1 - 53 by omega)
  have hspacing : binary64.spacing p = ((2 ^ k : ℤ) : ℚ) := by
    show ((2 : ℕ) : ℚ) ^ max (Int.log 2 |p| + 1 - ((53 : ℕ) : ℤ)) (-1074) = _
    rw [max_eq_left (by omega), Nat.cast_ofNat, Nat.cast_ofNat, hk, zpow_natCast]
    push_cast
    rfl
  refine ⟨n * 2 ^ k, ?_⟩
  rw [Int.cast_mul, ← hspacing]
  exact hn

/-- The double nearest to an integer is an integer. -/
theorem binary64_integral (n : ℤ) : ∃ m : ℤ, binary64.round n = m := by
  by_cases hsmall : |n| ≤ 2 ^ 53
  · exact ⟨n, binary64_integer hsmall⟩
  · refine integral_of_large (binary64.holds_round n) ?_
    have hpower : binary64.round ((2 ^ 53 : ℤ) : ℚ) = ((2 ^ 53 : ℤ) : ℚ) :=
      binary64_integer (by decide)
    have hcast : ((2 ^ 53 : ℤ) : ℚ) = 2 ^ 53 := by norm_num
    have hlarge : ((2 ^ 53 : ℤ) : ℚ) ≤ |(n : ℚ)| := by
      rw [← Int.cast_abs]
      exact_mod_cast (not_le.mp hsmall).le
    have hmono := binary64.round_mono (by rw [hcast]; positivity) hlarge
    rw [hpower, hcast] at hmono
    rcases abs_choice (n : ℚ) with h | h
    · rw [h] at hmono
      exact hmono.trans (le_abs_self _)
    · rw [h, NumberFormat.round_neg] at hmono
      exact hmono.trans (neg_le_abs _)

end Small

section Signs

variable {x value : ℚ}

/-- What is read is the nearest double, and it is in range. -/
theorem stod_spec (h : stod x = some value) :
    value = binary64.round x ∧ |value| < 2 ^ 1024 := by
  unfold stod at h
  dsimp only at h
  by_cases hlarge : (2 : ℚ) ^ 1024 ≤ |binary64.round x|
  · rw [if_pos hlarge] at h
    cases h
  rw [if_neg hlarge] at h
  by_cases hsmall : |binary53.round x| < 2 ^ (-1022 : ℤ) ∧ binary64.round x ≠ x
  · rw [if_pos hsmall] at h
    cases h
  rw [if_neg hsmall] at h
  have hvalue := Option.some.inj h
  rw [← hvalue]
  exact ⟨rfl, not_le.mp hlarge⟩

/-- The sign of a number does not matter to its reading. -/
theorem stod_neg (x : ℚ) : stod (-x) = (stod x).map Neg.neg := by
  have hinexact : (-binary64.round x ≠ -x) = (binary64.round x ≠ x) := propext neg_inj.not
  unfold stod
  dsimp only
  rw [NumberFormat.round_neg, NumberFormat.round_neg, abs_neg, abs_neg]
  simp only [hinexact]
  by_cases hlarge : (2 : ℚ) ^ 1024 ≤ |binary64.round x|
  · rw [if_pos hlarge, if_pos hlarge]
    rfl
  rw [if_neg hlarge, if_neg hlarge]
  by_cases hsmall : |binary53.round x| < 2 ^ (-1022 : ℤ) ∧ binary64.round x ≠ x
  · rw [if_pos hsmall, if_pos hsmall]
    rfl
  · rw [if_neg hsmall, if_neg hsmall]
    rfl

/-- A number that is read is written with the digits that it was read from. -/
theorem sixDigits_stod_signed {v : ℚ} (hv : sixDigits.Holds v) (hread : stod v = some value) :
    sixDigits.round value = v := by
  rcases le_total 0 v with hpos | hneg
  · exact sixDigits_stod hpos hv hread
  · have hflip : stod (-v) = some (-value) := by
      rw [stod_neg, hread]
      rfl
    have hback := sixDigits_stod (neg_nonneg.mpr hneg) (sixDigits.holds_neg hv) hflip
    rw [NumberFormat.round_neg] at hback
    exact neg_inj.mp hback

end Signs

section Decimals

/-- The powers of ten around the end of the doubles. -/
theorem log_end : Int.log 10 ((2 : ℚ) ^ 1024) = 308 := by
  obtain ⟨-, hlow, hhigh, -⟩ := powers_smallest_largest
  have hpos : (0 : ℚ) < 2 ^ 1024 := by positivity
  have habove := (Int.zpow_le_iff_le_log (b := 10) (x := 308) (by norm_num) hpos).mp (by
    rw [Nat.cast_ofNat]
    exact_mod_cast hlow)
  have hbelow := (Int.lt_zpow_iff_log_lt (b := 10) (x := 309) (by norm_num) hpos).mp (by
    rw [Nat.cast_ofNat]
    exact_mod_cast hhigh)
  omega

/-- The end of the doubles with six digits. -/
theorem sixDigits_end : sixDigits.round (2 ^ 1024) = ((179769 : ℤ) : ℚ) * 10 ^ (303 : ℤ) := by
  have hpos : (0 : ℚ) < 2 ^ 1024 := by positivity
  have hspacing : sixDigits.spacing (2 ^ 1024) = 10 ^ (303 : ℤ) := by
    show ((10 : ℕ) : ℚ) ^ (Int.log 10 |(2 : ℚ) ^ 1024| + 1 - ((6 : ℕ) : ℤ)) = _
    rw [abs_of_pos hpos, log_end]
    rfl
  obtain ⟨-, -, -, hlow, hhigh, -⟩ := powers_smallest_largest
  have hlow' : (179769 : ℚ) * 10 ^ 303 < 2 ^ 1024 := by exact_mod_cast hlow
  have hhigh' : (2 : ℚ) * 2 ^ 1024 < 359539 * 10 ^ 303 := by exact_mod_cast hhigh
  have hcast : (10 : ℚ) ^ (303 : ℤ) = 10 ^ 303 := zpow_natCast _ _
  unfold NumberFormat.round
  rw [hspacing]
  refine roundTo_of_near (zpow_pos (by norm_num) _) ?_
  rw [hcast, Int.cast_ofNat, abs_of_pos (sub_pos.mpr hlow')]
  generalize (10 : ℚ) ^ 303 = unit at hlow' hhigh' ⊢
  generalize (2 : ℚ) ^ 1024 = bound at hlow' hhigh' ⊢
  linarith

/-- The six digits of a double are read, unless it is very small. -/
theorem stod_sixDigits_pos {v : ℚ} (hlow : (10 : ℚ) ^ (-7 : ℤ) ≤ v) (hhigh : v < 2 ^ 1024) :
    ∃ value, stod (sixDigits.round v) = some value := by
  have hunit : (0 : ℚ) < 10 ^ (-7 : ℤ) := zpow_pos (by norm_num) _
  have hpower : sixDigits.Holds (((10 : ℕ) : ℚ) ^ (-7 : ℤ)) :=
    sixDigits.holds_zpow fun least hleast => by cases hleast
  have hmono := sixDigits.round_mono hunit.le hlow
  rw [Nat.cast_ofNat] at hpower
  rw [sixDigits.round_of_holds hpower] at hmono
  have hnormal : (2 : ℚ) ^ (-1022 : ℤ) ≤ 10 ^ (-7 : ℤ) := by
    calc (2 : ℚ) ^ (-1022 : ℤ) ≤ 2 ^ (-24 : ℤ) :=
          zpow_le_zpow_right₀ (by norm_num) (by norm_num)
      _ ≤ 10 ^ (-7 : ℤ) := by norm_num
  have hpos : 0 < sixDigits.round v := hunit.trans_le hmono
  have hend := (sixDigits.round_mono (hunit.le.trans hlow) hhigh.le).trans_eq sixDigits_end
  have htwo : (2 : ℚ) ^ (971 : ℤ) = 2 ^ 971 := zpow_natCast _ _
  have hcount : ((2 ^ 53 - 1 : ℤ) : ℚ) = 9007199254740991 := by norm_num
  -- the largest double is above the six digits of the end
  have hlargest : ((179769 : ℤ) : ℚ) * 10 ^ (303 : ℤ) ≤
      ((2 ^ 53 - 1 : ℤ) : ℚ) * ((2 : ℕ) : ℚ) ^ (971 : ℤ) := by
    obtain ⟨-, -, -, -, -, hpowers, -⟩ := powers_smallest_largest
    have hcast : (179769 : ℚ) * 10 ^ 303 ≤ 9007199254740991 * 2 ^ 971 := by
      exact_mod_cast hpowers
    have hten : (10 : ℚ) ^ (303 : ℤ) = 10 ^ 303 := zpow_natCast _ _
    rw [Nat.cast_ofNat, hten, htwo, hcount, Int.cast_ofNat]
    exact hcast
  have hdouble : binary64.Holds (((2 ^ 53 - 1 : ℤ) : ℚ) * ((2 : ℕ) : ℚ) ^ (971 : ℤ)) :=
    binary64.holds_of_multiple (by decide) fun least hleast => by
      rw [← Option.some.inj hleast]
      decide
  have hround := (binary64.round_mono hpos.le (hend.trans hlargest)).trans_eq
    (binary64.round_of_holds hdouble)
  have hlast : ((2 ^ 53 - 1 : ℤ) : ℚ) * ((2 : ℕ) : ℚ) ^ (971 : ℤ) < 2 ^ 1024 := by
    obtain ⟨-, -, -, -, -, -, hpowers⟩ := powers_smallest_largest
    have hcast : (9007199254740991 : ℚ) * 2 ^ 971 < 2 ^ 1024 := by exact_mod_cast hpowers
    rw [Nat.cast_ofNat, htwo, hcount]
    exact hcast
  refine ⟨_, stod_of_normal ?_ ?_⟩
  · rw [abs_of_pos hpos]
    exact hnormal.trans hmono
  · rw [abs_of_nonneg (binary64.round_nonneg hpos.le)]
    exact hround.trans_lt hlast

theorem stod_sixDigits {v : ℚ} (hlow : (10 : ℚ) ^ (-7 : ℤ) ≤ |v|) (hhigh : |v| < 2 ^ 1024) :
    ∃ value, stod (sixDigits.round v) = some value := by
  rcases abs_choice v with habs | habs
  · rw [habs] at hlow hhigh
    exact stod_sixDigits_pos hlow hhigh
  · rw [habs] at hlow hhigh
    obtain ⟨value, hvalue⟩ := stod_sixDigits_pos hlow hhigh
    rw [NumberFormat.round_neg, stod_neg] at hvalue
    obtain ⟨found, hfound, -⟩ := Option.map_eq_some_iff.mp hvalue
    exact ⟨found, hfound⟩

/-- Six decimals of a double stay in range. -/
theorem binary64_decimals {p : ℚ} (hp : binary64.Holds p) (hlarge : |p| < 2 ^ 1024) :
    |binary64.round (roundTo (10 ^ (-6 : ℤ)) p)| < 2 ^ 1024 := by
  have hunit : (0 : ℚ) < 10 ^ (-6 : ℤ) := zpow_pos (by norm_num) _
  by_cases hsmall : |p| ≤ 2 ^ 53
  · have hbound : |roundTo (10 ^ (-6 : ℤ)) p| ≤ 2 ^ 54 := by
      have hnear := abs_roundTo_sub_le hunit p
      have htriangle := abs_sub_abs_le_abs_sub (roundTo (10 ^ (-6 : ℤ)) p) p
      have hhalf : (10 : ℚ) ^ (-6 : ℤ) / 2 ≤ 2 ^ 53 := by norm_num
      calc |roundTo (10 ^ (-6 : ℤ)) p| ≤ |roundTo (10 ^ (-6 : ℤ)) p - p| + |p| :=
            sub_le_iff_le_add.mp htriangle
        _ ≤ 2 ^ 53 + 2 ^ 53 := add_le_add (hnear.trans hhalf) hsmall
        _ = 2 ^ 54 := by norm_num
    refine (binary64_abs_le hbound).trans_lt ?_
    exact pow_lt_pow_right₀ (by norm_num) (by norm_num)
  · obtain ⟨n, hn⟩ := integral_of_large hp (not_le.mp hsmall).le
    have hmillion : p = ((n * 10 ^ 6 : ℤ) : ℚ) * 10 ^ (-6 : ℤ) := by
      rw [hn]
      push_cast
      rw [mul_assoc]
      norm_num
    have hsame : roundTo (10 ^ (-6 : ℤ)) p = p := by
      have hround := roundTo_multiple hunit (n * 10 ^ 6)
      rwa [← hmillion] at hround
    rw [hsame, binary64.round_of_holds hp]
    exact hlarge

/-- Six decimals of a double are read, and so are the six digits of what was read. -/
theorem stod_decimals {p : ℚ} (hp : binary64.Holds p) (hlarge : |p| < 2 ^ 1024) :
    ∃ value, stod (roundTo (10 ^ (-6 : ℤ)) p) = some value ∧
      ∃ again, stod (sixDigits.round value) = some again := by
  have hunit : (0 : ℚ) < 10 ^ (-6 : ℤ) := zpow_pos (by norm_num) _
  have hrange := binary64_decimals hp hlarge
  have hdecimals : roundTo (10 ^ (-6 : ℤ)) p =
    (roundEven (p / 10 ^ (-6 : ℤ)) : ℚ) * 10 ^ (-6 : ℤ) := rfl
  generalize hn : roundEven (p / 10 ^ (-6 : ℤ)) = n at hdecimals
  by_cases hzero : n = 0
  · rw [hdecimals, hzero, Int.cast_zero, zero_mul]
    refine ⟨0, stod_zero, 0, ?_⟩
    rw [NumberFormat.round_zero]
    exact stod_zero
  · have hone : (1 : ℚ) ≤ |(n : ℚ)| := by
      rw [← Int.cast_abs]
      exact_mod_cast Int.one_le_abs hzero
    have hlow : (10 : ℚ) ^ (-6 : ℤ) ≤ |roundTo (10 ^ (-6 : ℤ)) p| := by
      rw [hdecimals, abs_mul, abs_of_pos hunit]
      exact le_mul_of_one_le_left hunit.le hone
    have hnormal : (2 : ℚ) ^ (-1022 : ℤ) ≤ 2 ^ (-20 : ℤ) :=
      zpow_le_zpow_right₀ (by norm_num) (by norm_num)
    have hstep : (2 : ℚ) ^ (-20 : ℤ) ≤ 10 ^ (-6 : ℤ) := by norm_num
    refine ⟨_, stod_of_normal ((hnormal.trans hstep).trans hlow) hrange, ?_⟩
    refine stod_sixDigits ?_ hrange
    have hpower : binary64.Holds (((1 : ℤ) : ℚ) * ((2 : ℕ) : ℚ) ^ (-20 : ℤ)) :=
      binary64.holds_of_multiple (by decide) fun least hleast => by
        rw [← Option.some.inj hleast]
        decide
    rw [Int.cast_one, one_mul, Nat.cast_ofNat] at hpower
    have hmono := binary64.round_mono (zpow_nonneg (by norm_num) _) (hstep.trans hlow)
    rw [binary64.round_of_holds hpower] at hmono
    have habs : binary64.round |roundTo (10 ^ (-6 : ℤ)) p| ≤
        |binary64.round (roundTo (10 ^ (-6 : ℤ)) p)| := by
      rcases abs_choice (roundTo (10 ^ (-6 : ℤ)) p) with h | h
      · rw [h]
        exact le_abs_self _
      · rw [h, NumberFormat.round_neg]
        exact neg_le_abs _
    have hseven : (10 : ℚ) ^ (-7 : ℤ) ≤ 2 ^ (-20 : ℤ) := by norm_num
    exact (hseven.trans hmono).trans habs

end Decimals

end LayerInference.NumberReads
