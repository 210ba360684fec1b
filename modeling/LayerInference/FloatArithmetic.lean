import Mathlib.Data.List.Sort
import Mathlib.Data.Nat.Sqrt
import Mathlib.Tactic.Ring

/-!
# Floating point, kernels and random numbers

The numeric code is written over two classes: arithmetic at one width, and
what links the two widths with the kernels, the sort and the random engine.
No law of arithmetic is assumed; the only laws are that a float survives
its bit pattern and that sorting permutes. An executable instance works on
bit patterns with correct rounding; its transcendental functions are exact at
zero only.
-/

namespace LayerInference.FloatArithmetic

/-- Arithmetic and comparison at one floating-point width. -/
class FloatArith (R : Type) extends Zero R, One R, Add R, Sub R, Mul R, Div R, Neg R where
  /-- The comparison `<`. -/
  lt : R → R → Bool
  /-- The comparison `<=`. -/
  le : R → R → Bool
  exp : R → R
  ofInt : ℤ → R

/-- What attention takes from the kernel library and from the number format. -/
class Kernels (R : Type) [FloatArith R] where
  sqrt : R → R
  negInf : R
  /-- The row kernel of a matrix product. -/
  vecDot : List R → List R → R
  softMax : List R → List R

/-- Single precision `F`, double precision `D` and the random engine `G`. -/
class Numerics (F : Type) (D G : outParam Type) [FloatArith F] [FloatArith D] extends
    Kernels F where
  toDouble : F → D
  toFloat : D → F
  cos : F → F
  sin : F → F
  pow : F → F → F
  /-- The bit pattern of a float. -/
  bits : F → UInt32
  ofBits : UInt32 → F
  ofBits_bits : ∀ x, ofBits (bits x) = x
  /-- Candidates in descending order of their second component. -/
  sortByLogit : List (ℕ × F) → List (ℕ × F)
  sortByLogit_perm : ∀ xs, (sortByLogit xs).Perm xs
  /-- The engine behind a 32-bit seed. -/
  seedRng : UInt32 → G
  /-- One draw from the unit interval. -/
  uniform : G → D × G

/-- A float with `p` bits of precision and `e` exponent bits, as its code. -/
structure SoftFloat (p e : ℕ) where
  code : BitVec (p + e)
  deriving DecidableEq

namespace SoftFloat

variable {p e : ℕ}

/-- The exponent of one in units of the smallest positive value. -/
def unit (p e : ℕ) : ℕ := 2 ^ (e - 1) + p - 3

/-- The code without its sign. -/
def magnitudeCode (x : SoftFloat p e) : ℕ := x.code.toNat % 2 ^ (p + e - 1)

def negative (x : SoftFloat p e) : Bool := decide (2 ^ (p + e - 1) ≤ x.code.toNat)

/-- The value as a multiple of the smallest positive value. -/
def units (x : SoftFloat p e) : ℤ :=
  let mantissa := x.magnitudeCode % 2 ^ (p - 1)
  let exponent := x.magnitudeCode / 2 ^ (p - 1)
  let magnitude := if exponent = 0 then mantissa else (2 ^ (p - 1) + mantissa) * 2 ^ (exponent - 1)
  if x.negative then -(magnitude : ℤ) else magnitude

/-- The code of infinity. -/
def infinityCode (p e : ℕ) : ℕ := (2 ^ e - 1) * 2 ^ (p - 1)

/-- The nearest value to a quotient of unit counts, ties to even. -/
def round (sign : Bool) (num den : ℕ) : SoftFloat p e :=
  let shift := Nat.log2 (num / den) + 1 - p
  let step := den * 2 ^ shift
  let quotient := num / step
  let rest := num % step
  let up := decide (step < 2 * rest) || (decide (2 * rest = step) && quotient % 2 == 1)
  let code := shift * 2 ^ (p - 1) + quotient + up.toNat
  ⟨BitVec.ofNat (p + e) (min code (infinityCode p e) + sign.toNat * 2 ^ (p + e - 1))⟩

/-- The nearest value to a quotient of signed unit counts. -/
def ofRatio (num den : ℤ) : SoftFloat p e :=
  round (decide (num < 0) != decide (den < 0)) num.natAbs den.natAbs

instance : FloatArith (SoftFloat p e) where
  zero := ⟨0⟩
  one := ofRatio (2 ^ unit p e) 1
  add x y := ofRatio (x.units + y.units) 1
  sub x y := ofRatio (x.units - y.units) 1
  mul x y := ofRatio (x.units * y.units) (2 ^ unit p e)
  div x y := ofRatio (x.units * 2 ^ unit p e) y.units
  neg x := ⟨x.code ^^^ BitVec.twoPow (p + e) (p + e - 1)⟩
  lt x y := decide (x.units < y.units)
  le x y := decide (x.units ≤ y.units)
  exp x := ofRatio (2 ^ unit p e + x.units) 1
  ofInt n := ofRatio (n * 2 ^ unit p e) 1

end SoftFloat

abbrev Binary32 := SoftFloat 24 8
abbrev Binary64 := SoftFloat 53 11

/-- The executable numerics; the engine is a linear congruence. -/
instance : Numerics Binary32 Binary64 UInt32 where
  toDouble x := SoftFloat.ofRatio (x.units * 2 ^ SoftFloat.unit 53 11) (2 ^ SoftFloat.unit 24 8)
  toFloat x := SoftFloat.ofRatio (x.units * 2 ^ SoftFloat.unit 24 8) (2 ^ SoftFloat.unit 53 11)
  sqrt x := SoftFloat.ofRatio (Nat.sqrt (x.units.toNat * 2 ^ SoftFloat.unit 24 8)) 1
  cos _ := 1
  sin x := x
  pow _ _ := 1
  negInf := ⟨0xff800000#32⟩
  bits x := ⟨x.code⟩
  ofBits b := ⟨b.toBitVec⟩
  ofBits_bits _ := rfl
  vecDot xs ys := (List.zipWith (· * ·) xs ys).foldl (· + ·) 0
  softMax xs :=
    let weights := xs.map FloatArith.exp
    weights.map (· / weights.foldl (· + ·) 0)
  sortByLogit xs := xs.mergeSort fun a b => FloatArith.le b.2 a.2
  sortByLogit_perm xs := List.mergeSort_perm xs _
  seedRng seed := seed
  uniform g := (0, g * 1664525 + 1013904223)

/-- One half plus one half at single precision, with the exact codes. -/
example : (⟨0x3f000000#32⟩ + ⟨0x3f000000#32⟩ : Binary32) = ⟨0x3f800000#32⟩ := by decide +kernel

end LayerInference.FloatArithmetic
