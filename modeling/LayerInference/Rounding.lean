import Mathlib.Algebra.Order.Floor.Ring
import Mathlib.Data.Int.Log
import Mathlib.Data.Rat.Floor
import Mathlib.Algebra.Order.Ring.Int
import Mathlib.Tactic.Linarith
import Mathlib.Tactic.FieldSimp
import Mathlib.Tactic.Positivity

/-!
# Rounding to numbers of limited precision

A format holds numbers with a limited count of digits to some base; below a
least exponent the numbers keep a fixed spacing. Rounding takes the nearest
number of the format, ties to even. It keeps the order, it fixes the numbers of
the format, and a number of a coarse format comes back when it was rounded to a
much finer one in between. Nothing here belongs to one program.
-/

namespace LayerInference.Rounding

section Integers

/-- The nearest integer, ties to even. -/
def roundEven (x : ℚ) : ℤ :=
  let rest := x - ⌊x⌋
  if rest < 1 / 2 then ⌊x⌋
  else if 1 / 2 < rest then ⌊x⌋ + 1
  else if ⌊x⌋ % 2 = 0 then ⌊x⌋ else ⌊x⌋ + 1

@[simp] theorem roundEven_intCast (n : ℤ) : roundEven n = n := by
  unfold roundEven
  rw [Int.floor_intCast, sub_self, if_pos (by norm_num)]

/-- The nearest integer is one of the two neighbours. -/
theorem roundEven_cases (x : ℚ) :
    (roundEven x = ⌊x⌋ ∧ x - ⌊x⌋ ≤ 1 / 2) ∨ (roundEven x = ⌊x⌋ + 1 ∧ 1 / 2 ≤ x - ⌊x⌋) := by
  unfold roundEven
  dsimp only
  by_cases hlow : x - ⌊x⌋ < 1 / 2
  · rw [if_pos hlow]
    exact .inl ⟨rfl, hlow.le⟩
  · rw [if_neg hlow]
    have hhalf := not_lt.mp hlow
    by_cases hhigh : 1 / 2 < x - ⌊x⌋
    · rw [if_pos hhigh]
      exact .inr ⟨rfl, hhalf⟩
    · rw [if_neg hhigh]
      by_cases heven : ⌊x⌋ % 2 = 0
      · rw [if_pos heven]
        exact .inl ⟨rfl, not_lt.mp hhigh⟩
      · rw [if_neg heven]
        exact .inr ⟨rfl, hhalf⟩

theorem abs_roundEven_sub_le (x : ℚ) : |(roundEven x : ℚ) - x| ≤ 1 / 2 := by
  have hfloor := Int.floor_le x
  have hnext := Int.lt_floor_add_one x
  rw [abs_le]
  rcases roundEven_cases x with ⟨h, hrest⟩ | ⟨h, hrest⟩
  · rw [h]
    constructor <;> linarith
  · rw [h, Int.cast_add, Int.cast_one]
    constructor <;> linarith

theorem roundEven_eq_of_near {x : ℚ} {n : ℤ} (h : |x - n| < 1 / 2) : roundEven x = n := by
  have hnear := abs_roundEven_sub_le x
  rw [abs_lt] at h
  rw [abs_le] at hnear
  have hlow : ((roundEven x : ℚ)) < (n + 1 : ℤ) := by
    push_cast
    linarith
  have hhigh : ((n - 1 : ℤ) : ℚ) < (roundEven x : ℚ) := by
    push_cast
    linarith
  rw [Int.cast_lt] at hlow hhigh
  omega

/-- Rounding to integers keeps the order. -/
theorem roundEven_mono {x y : ℚ} (hxy : x ≤ y) : roundEven x ≤ roundEven y := by
  have hfloor := Int.floor_mono hxy
  rcases lt_or_eq_of_le hfloor with hless | hsame
  · rcases roundEven_cases x with ⟨hx, -⟩ | ⟨hx, -⟩ <;>
      rcases roundEven_cases y with ⟨hy, -⟩ | ⟨hy, -⟩ <;> omega
  · unfold roundEven
    dsimp only
    rw [← hsame]
    by_cases hlow : y - ⌊x⌋ < 1 / 2
    · have hlow' : x - ⌊x⌋ < 1 / 2 := by linarith
      rw [if_pos hlow, if_pos hlow']
    · rw [if_neg hlow]
      by_cases hhigh : 1 / 2 < y - ⌊x⌋
      · rw [if_pos hhigh]
        split_ifs <;> omega
      · have hhigh' : ¬1 / 2 < x - ⌊x⌋ := by linarith
        rw [if_neg hhigh, if_neg hhigh']
        split_ifs <;> omega

/-- A tie is broken towards the even integer. -/
theorem roundEven_even (x : ℚ) (h : |(roundEven x : ℚ) - x| = 1 / 2) : roundEven x % 2 = 0 := by
  have hfloor := Int.floor_le x
  unfold roundEven at h ⊢
  dsimp only at h ⊢
  by_cases hlow : x - ⌊x⌋ < 1 / 2
  · rw [if_pos hlow, abs_sub_comm, abs_of_nonneg (by linarith)] at h
    exact absurd h hlow.ne
  · rw [if_neg hlow] at h ⊢
    by_cases hhigh : 1 / 2 < x - ⌊x⌋
    · have hnext := Int.lt_floor_add_one x
      rw [if_pos hhigh, Int.cast_add, Int.cast_one, abs_of_nonneg (by linarith)] at h
      linarith
    · rw [if_neg hhigh]
      split_ifs <;> omega

/-- The nearest integer is determined by its distance and by the ties. -/
theorem roundEven_eq {x : ℚ} {n : ℤ} (hnear : |(n : ℚ) - x| ≤ 1 / 2)
    (heven : |(n : ℚ) - x| = 1 / 2 → n % 2 = 0) : roundEven x = n := by
  rcases hnear.lt_or_eq with hless | htie
  · exact roundEven_eq_of_near (by rwa [abs_sub_comm])
  · have hround := abs_roundEven_sub_le x
    have hn := heven htie
    have htie' : (roundEven x : ℚ) = n ∨ |(roundEven x : ℚ) - x| = 1 / 2 := by
      rcases hround.lt_or_eq with hless | heq
      · refine .inl ?_
        -- both lie less than one apart from each other
        have hdistance : |(roundEven x : ℚ) - n| < 1 := by
          calc |(roundEven x : ℚ) - n| = |((roundEven x : ℚ) - x) - (n - x)| := by ring_nf
            _ ≤ |(roundEven x : ℚ) - x| + |(n : ℚ) - x| := abs_sub _ _
            _ < 1 := by linarith
        have hzero : |roundEven x - n| < 1 := by exact_mod_cast hdistance
        rw [Int.abs_lt_one_iff] at hzero
        rw [sub_eq_zero.mp hzero]
      · exact .inr heq
    rcases htie' with h | h
    · exact_mod_cast h
    · have heven' := roundEven_even x h
      have hdistance : |(roundEven x : ℚ) - n| ≤ 1 := by
        calc |(roundEven x : ℚ) - n| = |((roundEven x : ℚ) - x) - (n - x)| := by ring_nf
          _ ≤ |(roundEven x : ℚ) - x| + |(n : ℚ) - x| := abs_sub _ _
          _ ≤ 1 := by linarith
      have hone : |roundEven x - n| ≤ 1 := by exact_mod_cast hdistance
      rw [abs_le] at hone
      omega

theorem roundEven_neg (x : ℚ) : roundEven (-x) = -roundEven x := by
  have hdistance : |((-roundEven x : ℤ) : ℚ) - -x| = |(roundEven x : ℚ) - x| := by
    rw [Int.cast_neg, ← abs_neg]
    congr 1
    ring
  refine roundEven_eq (hdistance.trans_le (abs_roundEven_sub_le x)) fun htie => ?_
  have heven := roundEven_even x (hdistance.symm.trans htie)
  omega

end Integers

section Multiples

/-- The nearest multiple. -/
def roundTo (spacing x : ℚ) : ℚ := roundEven (x / spacing) * spacing

variable {spacing x y : ℚ}

theorem roundTo_multiple (hpos : 0 < spacing) (n : ℤ) : roundTo spacing (n * spacing) = n * spacing := by
  rw [roundTo, mul_div_assoc, div_self hpos.ne', mul_one, roundEven_intCast]

theorem roundTo_zero (spacing : ℚ) : roundTo spacing 0 = 0 := by
  rw [roundTo, zero_div, show (0 : ℚ) = (0 : ℤ) from rfl, roundEven_intCast, Int.cast_zero,
    zero_mul]

theorem roundTo_mono (hpos : 0 < spacing) (h : x ≤ y) : roundTo spacing x ≤ roundTo spacing y :=
  mul_le_mul_of_nonneg_right
    (Int.cast_le.mpr (roundEven_mono (div_le_div_of_nonneg_right h hpos.le))) hpos.le

theorem abs_roundTo_sub_le (hpos : 0 < spacing) (x : ℚ) :
    |roundTo spacing x - x| ≤ spacing / 2 := by
  have hnear := abs_roundEven_sub_le (x / spacing)
  have hscale : roundTo spacing x - x = (roundEven (x / spacing) - x / spacing) * spacing := by
    rw [roundTo, sub_mul, div_mul_cancel₀ x hpos.ne']
  rw [hscale, abs_mul, abs_of_pos hpos]
  calc |(roundEven (x / spacing) : ℚ) - x / spacing| * spacing ≤ 1 / 2 * spacing :=
        mul_le_mul_of_nonneg_right hnear hpos.le
    _ = spacing / 2 := by ring

theorem roundTo_of_near (hpos : 0 < spacing) {n : ℤ} (h : |x - n * spacing| < spacing / 2) :
    roundTo spacing x = n * spacing := by
  have hnear : |x / spacing - n| < 1 / 2 := by
    have hscale : x / spacing - n = (x - n * spacing) / spacing := by
      rw [sub_div, mul_div_assoc, div_self hpos.ne', mul_one]
    rw [hscale, abs_div, abs_of_pos hpos, div_lt_iff₀ hpos]
    linarith
  rw [roundTo, roundEven_eq_of_near hnear]

end Multiples

section Formats

/-- A precision: the base, the count of digits and the exponent below which the
spacing stays the same, if there is one. -/
structure NumberFormat where
  base : ℕ
  one_lt : 1 < base
  digits : ℕ
  digits_pos : 0 < digits
  least : Option ℤ

namespace NumberFormat

variable (format : NumberFormat) {x y v : ℚ}

/-- The exponent of the last digit. -/
def exponent (x : ℚ) : ℤ :=
  let last := Int.log format.base |x| + 1 - format.digits
  match format.least with
  | none => last
  | some least => max last least

/-- The value of one unit in the last digit. -/
def spacing (x : ℚ) : ℚ := (format.base : ℚ) ^ format.exponent x

/-- The nearest number of a format. -/
def round (x : ℚ) : ℚ := roundTo (format.spacing x) x

/-- The numbers of a format. -/
def Holds (x : ℚ) : Prop := ∃ n : ℤ, x = n * format.spacing x

theorem base_pos : (0 : ℚ) < format.base :=
  Nat.cast_pos.mpr (Nat.zero_lt_of_lt format.one_lt)

theorem one_lt_base : (1 : ℚ) < format.base := Nat.one_lt_cast.mpr format.one_lt

theorem spacing_pos (x : ℚ) : 0 < format.spacing x := zpow_pos format.base_pos _

theorem round_zero : format.round 0 = 0 := roundTo_zero _

theorem round_of_holds (h : format.Holds x) : format.round x = x := by
  obtain ⟨n, hn⟩ := h
  have hround := roundTo_multiple (format.spacing_pos x) n
  rw [← hn] at hround
  exact hround

theorem round_eq_self_iff : format.round x = x ↔ format.Holds x :=
  ⟨fun h => ⟨roundEven (x / format.spacing x), h.symm⟩, format.round_of_holds⟩

/-- A power of the base is a multiple of every smaller one. -/
theorem zpow_multiple {small large : ℤ} (h : small ≤ large) :
    ∃ n : ℤ, (format.base : ℚ) ^ large = n * (format.base : ℚ) ^ small := by
  refine ⟨(format.base : ℤ) ^ (large - small).toNat, ?_⟩
  rw [Int.cast_pow, Int.cast_natCast, ← zpow_natCast, Int.toNat_of_nonneg (by omega),
    ← zpow_add₀ format.base_pos.ne']
  congr 1
  omega

theorem last_le_exponent (x : ℚ) :
    Int.log format.base |x| + 1 - format.digits ≤ format.exponent x := by
  unfold exponent
  dsimp only
  split
  · exact le_rfl
  · exact le_max_left _ _

/-- The spacing of a larger number is the same or given by its digits. -/
theorem exponent_cases (hx : 0 < x) (hxy : x ≤ y) :
    format.exponent x = format.exponent y ∨
      (format.exponent x < format.exponent y ∧
        format.exponent y = Int.log format.base |y| + 1 - format.digits ∧
        Int.log format.base |x| < Int.log format.base |y|) := by
  have hlog : Int.log format.base |x| ≤ Int.log format.base |y| := by
    rw [abs_of_pos hx, abs_of_pos (hx.trans_le hxy)]
    exact Int.log_mono_right hx hxy
  unfold exponent
  dsimp only
  cases format.least with
  | none =>
    dsimp only
    omega
  | some least =>
    dsimp only
    omega

/-- A power of the base that is no smaller bounds the rounded number too. -/
theorem round_le_zpow {k : ℤ} (hk : format.exponent x ≤ k) (h : x ≤ (format.base : ℚ) ^ k) :
    format.round x ≤ (format.base : ℚ) ^ k := by
  obtain ⟨n, hn⟩ := format.zpow_multiple hk
  calc format.round x ≤ roundTo (format.spacing x) (n * format.spacing x) :=
        roundTo_mono (format.spacing_pos x) (h.trans_eq hn)
    _ = n * format.spacing x := roundTo_multiple (format.spacing_pos x) n
    _ = (format.base : ℚ) ^ k := hn.symm

theorem zpow_le_round {k : ℤ} (hk : format.exponent x ≤ k) (h : (format.base : ℚ) ^ k ≤ x) :
    (format.base : ℚ) ^ k ≤ format.round x := by
  obtain ⟨n, hn⟩ := format.zpow_multiple hk
  calc (format.base : ℚ) ^ k = n * format.spacing x := hn
    _ = roundTo (format.spacing x) (n * format.spacing x) :=
        (roundTo_multiple (format.spacing_pos x) n).symm
    _ ≤ format.round x := roundTo_mono (format.spacing_pos x) (hn.symm.trans_le h)

/-- Rounding keeps the order. -/
theorem round_mono (hx : 0 ≤ x) (hxy : x ≤ y) : format.round x ≤ format.round y := by
  rcases hx.eq_or_lt with rfl | hx
  · rw [format.round_zero, ← roundTo_zero (format.spacing y)]
    exact roundTo_mono (format.spacing_pos y) hxy
  rcases format.exponent_cases hx hxy with hsame | ⟨hless, hexponent, hlog⟩
  · have hspacing : format.spacing x = format.spacing y := by
      rw [spacing, spacing, hsame]
    unfold round
    rw [hspacing]
    exact roundTo_mono (format.spacing_pos y) hxy
  · -- a power of the base lies between the two numbers
    have hy : 0 < y := hx.trans_le hxy
    have hdigits := format.digits_pos
    have hlow : x ≤ (format.base : ℚ) ^ Int.log format.base |y| := by
      have hnext := Int.lt_zpow_succ_log_self format.one_lt x
      rw [abs_of_pos hx] at hlog
      exact hnext.le.trans (zpow_le_zpow_right₀ format.one_lt_base.le (by omega))
    have hhigh : (format.base : ℚ) ^ Int.log format.base |y| ≤ y := by
      rw [abs_of_pos hy]
      exact Int.zpow_log_le_self format.one_lt hy
    exact (format.round_le_zpow (by omega) hlow).trans (format.zpow_le_round (by omega) hhigh)

theorem round_nonneg (hx : 0 ≤ x) : 0 ≤ format.round x := by
  have h := format.round_mono le_rfl hx
  rwa [format.round_zero] at h

/-- The exponent is given by the digits or by the format. -/
theorem exponent_eq_or (x : ℚ) :
    format.exponent x = Int.log format.base |x| + 1 - format.digits ∨
      format.least = some (format.exponent x) := by
  unfold exponent
  dsimp only
  cases format.least with
  | none => exact .inl rfl
  | some least =>
    rcases le_total (Int.log format.base |x| + 1 - format.digits) least with h | h
    · exact .inr (congrArg some (max_eq_right h).symm)
    · exact .inl (max_eq_left h)

theorem exponent_congr (h : Int.log format.base |x| = Int.log format.base |y|) :
    format.exponent x = format.exponent y := by
  rw [exponent, exponent, h]

/-- A power of the base is a number of the format above the least exponent. -/
theorem holds_zpow {k : ℤ} (hleast : ∀ least ∈ format.least, least ≤ k) :
    format.Holds ((format.base : ℚ) ^ k) := by
  have hdigits := format.digits_pos
  have hlog : Int.log format.base |(format.base : ℚ) ^ k| = k := by
    rw [abs_of_pos (zpow_pos format.base_pos k), Int.log_zpow format.one_lt]
  have hle : format.exponent ((format.base : ℚ) ^ k) ≤ k := by
    rcases format.exponent_eq_or ((format.base : ℚ) ^ k) with h | h
    · rw [h, hlog]
      omega
    · exact hleast _ h
  exact format.zpow_multiple hle

theorem least_le_exponent (x : ℚ) : ∀ least ∈ format.least, least ≤ format.exponent x := by
  intro least hleast
  unfold exponent
  rw [show format.least = some least from hleast]
  exact le_max_right _ _

/-- What rounding gives is a number of the format. -/
theorem holds_round_of_pos (hx : 0 < x) : format.Holds (format.round x) := by
  have hlow := Int.zpow_log_le_self format.one_lt hx
  have hhigh := Int.lt_zpow_succ_log_self format.one_lt x
  have habs : |x| = x := abs_of_pos hx
  have hspacing := format.spacing_pos x
  rcases le_or_gt (format.exponent x) (Int.log format.base x) with hdigits | hleast
  · -- the result stays between two powers of the base
    have hbelow := format.zpow_le_round hdigits hlow
    have habove := format.round_le_zpow
      (show format.exponent x ≤ Int.log format.base x + 1 by omega) hhigh.le
    have hpos : 0 < format.round x := (zpow_pos format.base_pos _).trans_le hbelow
    rcases habove.eq_or_lt with heq | hless
    · rw [heq]
      exact format.holds_zpow fun least h =>
        (format.least_le_exponent x least h).trans (by omega)
    · have hlog : Int.log format.base (format.round x) = Int.log format.base x := by
        have h1 := (Int.zpow_le_iff_le_log format.one_lt hpos).mp hbelow
        have h2 := (Int.lt_zpow_iff_log_lt format.one_lt hpos).mp hless
        omega
      have hexponent := format.exponent_congr (x := format.round x) (y := x)
        (by rw [abs_of_pos hpos, habs, hlog])
      refine ⟨roundEven (x / format.spacing x), ?_⟩
      rw [show format.spacing (format.round x) = format.spacing x by
        rw [spacing, hexponent, spacing]]
      rfl
  · -- the number is smaller than the spacing
    have hsmall : x ≤ (format.base : ℚ) ^ format.exponent x :=
      hhigh.le.trans (zpow_le_zpow_right₀ format.one_lt_base.le (by omega))
    have hone : format.round x ≤ 1 * format.spacing x := by
      rw [one_mul]
      exact format.round_le_zpow le_rfl hsmall
    have hzero : 0 * format.spacing x ≤ format.round x := by
      rw [zero_mul]
      exact format.round_nonneg hx.le
    have hn : roundEven (x / format.spacing x) = 0 ∨ roundEven (x / format.spacing x) = 1 := by
      have h1 := le_of_mul_le_mul_right hone hspacing
      have h0 := le_of_mul_le_mul_right hzero hspacing
      have h1' : roundEven (x / format.spacing x) ≤ 1 := by exact_mod_cast h1
      have h0' : 0 ≤ roundEven (x / format.spacing x) := by exact_mod_cast h0
      omega
    rcases hn with hn | hn
    · have hround : format.round x = 0 := by
        rw [round, roundTo, hn, Int.cast_zero, zero_mul]
      rw [hround]
      exact ⟨0, by rw [Int.cast_zero, zero_mul]⟩
    · have hround : format.round x = (format.base : ℚ) ^ format.exponent x := by
        rw [round, roundTo, hn, Int.cast_one, one_mul]
        rfl
      rw [hround]
      exact format.holds_zpow (format.least_le_exponent x)

theorem round_neg (x : ℚ) : format.round (-x) = -format.round x := by
  have hspacing : format.spacing (-x) = format.spacing x := by
    have hexponent : format.exponent (-x) = format.exponent x :=
      format.exponent_congr (by rw [abs_neg])
    rw [spacing, spacing, hexponent]
  rw [round, round, hspacing, roundTo, roundTo, neg_div, roundEven_neg, Int.cast_neg, neg_mul]

theorem holds_neg (h : format.Holds x) : format.Holds (-x) := by
  rw [← format.round_eq_self_iff, format.round_neg, format.round_of_holds h]

theorem holds_round (x : ℚ) : format.Holds (format.round x) := by
  rcases lt_trichotomy x 0 with h | rfl | h
  · have hpos := format.holds_neg (format.holds_round_of_pos (neg_pos.mpr h))
    rwa [format.round_neg, neg_neg] at hpos
  · rw [← format.round_eq_self_iff, format.round_zero]
    exact format.round_zero
  · exact format.holds_round_of_pos h

/-- A number with few enough digits is a number of the format. -/
theorem holds_of_multiple {n k : ℤ} (hn : |n| ≤ (format.base : ℤ) ^ format.digits)
    (hleast : ∀ least ∈ format.least, least ≤ k) : format.Holds (n * (format.base : ℚ) ^ k) := by
  have hbase := format.base_pos
  have hpow : (0 : ℚ) < (format.base : ℚ) ^ k := zpow_pos hbase k
  rcases hn.lt_or_eq with hless | heq
  · by_cases hzero : n = 0
    · exact ⟨0, by rw [hzero, Int.cast_zero, zero_mul, zero_mul]⟩
    · have hpos : 0 < |(n : ℚ) * (format.base : ℚ) ^ k| :=
        abs_pos.mpr (mul_ne_zero (Int.cast_ne_zero.mpr hzero) hpow.ne')
      have hbound : |(n : ℚ) * (format.base : ℚ) ^ k| <
          (format.base : ℚ) ^ (k + format.digits) := by
        have hcast : |(n : ℚ)| < (format.base : ℚ) ^ format.digits := by
          rw [← Int.cast_abs]
          exact_mod_cast hless
        rw [abs_mul, abs_of_pos hpow, zpow_add₀ hbase.ne', zpow_natCast, mul_comm]
        exact mul_lt_mul_of_pos_left hcast hpow
      have hlog := (Int.lt_zpow_iff_log_lt format.one_lt hpos).mp hbound
      have hexponent : format.exponent (n * (format.base : ℚ) ^ k) ≤ k := by
        rcases format.exponent_eq_or (n * (format.base : ℚ) ^ k) with h | h
        · rw [h]
          omega
        · exact hleast _ h
      obtain ⟨m, hm⟩ := format.zpow_multiple hexponent
      refine ⟨n * m, ?_⟩
      rw [spacing, Int.cast_mul, mul_assoc, ← hm]
  · -- the greatest of these numbers is a power of the base
    have hpower : format.Holds ((format.base : ℚ) ^ (k + format.digits)) :=
      format.holds_zpow fun least h => (hleast least h).trans (by omega)
    have hsplit : (format.base : ℚ) ^ (k + format.digits) =
        ((format.base : ℤ) ^ format.digits : ℤ) * (format.base : ℚ) ^ k := by
      rw [zpow_add₀ hbase.ne', zpow_natCast]
      push_cast
      ring
    rw [hsplit, ← heq] at hpower
    rcases abs_choice n with h | h
    · rwa [h] at hpower
    · rw [h] at hpower
      have hneg := format.holds_neg hpower
      push_cast at hneg
      rwa [neg_mul, neg_neg] at hneg

/-- Rounding twice is rounding once. -/
@[simp] theorem round_round (x : ℚ) : format.round (format.round x) = format.round x :=
  format.round_of_holds (format.holds_round x)

/-- The relative error of rounding, where the digits give the spacing. -/
theorem abs_round_sub_mul_le (hx : 0 < x)
    (hdigits : format.exponent x = Int.log format.base |x| + 1 - format.digits) :
    |format.round x - x| * (2 * (format.base : ℚ) ^ (format.digits - 1)) ≤ x := by
  have hbase := format.base_pos
  have hdigits' := format.digits_pos
  have hnear := abs_roundTo_sub_le (format.spacing_pos x) x
  have hlow := Int.zpow_log_le_self format.one_lt hx
  rw [abs_of_pos hx] at hdigits
  have hspacing : format.spacing x * (format.base : ℚ) ^ (format.digits - 1) =
      (format.base : ℚ) ^ Int.log format.base x := by
    rw [spacing, hdigits, ← zpow_natCast, ← zpow_add₀ hbase.ne']
    congr 1
    omega
  have hpow : (0 : ℚ) < 2 * (format.base : ℚ) ^ (format.digits - 1) := by positivity
  calc |format.round x - x| * (2 * (format.base : ℚ) ^ (format.digits - 1))
      ≤ format.spacing x / 2 * (2 * (format.base : ℚ) ^ (format.digits - 1)) :=
        mul_le_mul_of_nonneg_right hnear hpow.le
    _ = format.spacing x * (format.base : ℚ) ^ (format.digits - 1) := by ring
    _ ≤ x := hspacing.trans_le hlow

/-- A number of the format comes back from everything that is near enough. -/
theorem round_of_near (hv : format.Holds v) (hpos : 0 < v)
    (hnear : |x - v| * (2 * (format.base : ℚ) ^ (format.digits + 1)) < v) :
    format.round x = v := by
  obtain ⟨n, hn⟩ := hv
  have hdigits := format.digits_pos
  have hbase := format.base_pos
  have hone := format.one_lt_base.le
  have htwo : (2 : ℚ) ≤ format.base := by exact_mod_cast format.one_lt
  have hspacing := format.spacing_pos v
  have hlog := Int.zpow_log_le_self format.one_lt hpos
  have hnext := Int.lt_zpow_succ_log_self format.one_lt v
  have habs : |v| = v := abs_of_pos hpos
  have hlast := format.last_le_exponent v
  rw [habs] at hlast
  generalize hL : Int.log format.base v = L at hlog hnext hlast
  -- the distance is less than half a unit of the next digit
  have hdistance : |x - v| < (format.base : ℚ) ^ (L - format.digits) / 2 := by
    have hsplit : (format.base : ℚ) ^ (L + 1) =
        (format.base : ℚ) ^ (L - format.digits) * (format.base : ℚ) ^ (format.digits + 1) := by
      rw [← zpow_natCast, ← zpow_add₀ hbase.ne']
      congr 1
      push_cast
      ring
    have hpow : (0 : ℚ) < 2 * (format.base : ℚ) ^ (format.digits + 1) := by positivity
    refine lt_of_mul_lt_mul_right ((hnear.trans hnext).trans_eq ?_) hpow.le
    rw [hsplit]
    ring
  have hmultiple : 1 ≤ n := by
    have hposn : (0 : ℚ) < n := by
      rw [hn] at hpos
      exact (mul_pos_iff_of_pos_right hspacing).mp hpos
    exact_mod_cast hposn
  have hexponent : format.exponent v ≤ L := by
    have hle : format.spacing v ≤ v := by
      calc format.spacing v = 1 * format.spacing v := (one_mul _).symm
        _ ≤ n * format.spacing v :=
            mul_le_mul_of_nonneg_right (by exact_mod_cast hmultiple) hspacing.le
        _ = v := hn.symm
    have hless := (zpow_lt_zpow_iff_right₀ format.one_lt_base).mp (hle.trans_lt hnext)
    omega
  have hhalf : (format.base : ℚ) ^ (L - 1) ≤ (format.base : ℚ) ^ L / 2 := by
    have hsplit : (format.base : ℚ) ^ L = (format.base : ℚ) ^ (L - 1) * format.base := by
      rw [← zpow_add_one₀ hbase.ne', sub_add_cancel]
    have hsmall := zpow_pos hbase (L - 1)
    rw [hsplit]
    nlinarith
  have hstep : (format.base : ℚ) ^ (L - format.digits) ≤ (format.base : ℚ) ^ (L - 1) :=
    zpow_le_zpow_right₀ hone (by omega)
  have hx : (format.base : ℚ) ^ (L - 1) ≤ x := by
    have hlow := (abs_lt.mp hdistance).1
    have hpow := zpow_pos hbase (L - 1)
    linarith
  have hxpos : 0 < x := (zpow_pos hbase _).trans_le hx
  have hlogx := (Int.zpow_le_iff_le_log format.one_lt hxpos).mp hx
  -- every spacing at which the result may be taken divides the number
  have hround : format.exponent x ≤ format.exponent v → format.round x = v := by
    intro hle
    obtain ⟨m, hm⟩ := format.zpow_multiple hle
    have hv' : v = (n * m : ℤ) * format.spacing x := by
      rw [hn, spacing, hm, Int.cast_mul, mul_assoc]
      rfl
    have hlastx := format.last_le_exponent x
    rw [abs_of_pos hxpos] at hlastx
    have hfine : (format.base : ℚ) ^ (L - format.digits) ≤ format.spacing x :=
      zpow_le_zpow_right₀ hone (by omega)
    rw [round, hv', roundTo_of_near (format.spacing_pos x)]
    rw [← hv']
    linarith
  rcases le_or_gt x v with hle | hgt
  · rcases format.exponent_cases hxpos hle with h | h
    · exact hround h.le
    · exact hround h.1.le
  · -- no power of the base lies between the number and a larger one that near
    refine hround ?_
    have hbelow : x < (format.base : ℚ) ^ (L + 1) := by
      obtain ⟨m, hm⟩ := format.zpow_multiple (show format.exponent v ≤ L + 1 by omega)
      have hgap : n + 1 ≤ m := by
        have hless : (n : ℚ) * format.spacing v < m * format.spacing v := by
          rw [← hn]
          exact hnext.trans_eq hm
        have hless' := lt_of_mul_lt_mul_right hless hspacing.le
        have hint : n < m := by exact_mod_cast hless'
        omega
      have hfar : v + format.spacing v ≤ (format.base : ℚ) ^ (L + 1) := by
        calc v + format.spacing v = (n + 1 : ℤ) * format.spacing v := by
              push_cast
              rw [add_mul, one_mul, ← hn]
          _ ≤ m * format.spacing v :=
              mul_le_mul_of_nonneg_right (by exact_mod_cast hgap) hspacing.le
          _ = (format.base : ℚ) ^ (L + 1) := hm.symm
      have hclose := (abs_lt.mp hdistance).2
      have hunit : (format.base : ℚ) ^ (L - format.digits) ≤ format.spacing v :=
        zpow_le_zpow_right₀ hone (by omega)
      linarith
    have hlogx' := (Int.lt_zpow_iff_log_lt format.one_lt hxpos).mp hbelow
    rcases format.exponent_cases hpos hgt.le with h | ⟨-, -, h⟩
    · exact h.ge
    · rw [habs, abs_of_pos hxpos, hL] at h
      omega

end NumberFormat

end Formats

end LayerInference.Rounding
