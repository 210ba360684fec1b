import LayerInference.Rounding
import LayerInference.TextStreams

/-!
# Numbers in texts

A number is written by digits, perhaps with a point, a fraction and a power of
ten. Reading takes the longest literal of a pattern and then the nearest double
precision number; writing gives six decimals behind the point or six significant
digits without trailing zeros. A written number reads back as the number that was
written, rounded once. The sign of a zero is not kept: no comparison sees it.
-/

namespace LayerInference.NumberTexts

open ByteStrings TextStreams Rounding

section Formats

/-- Double precision. -/
def binary64 : NumberFormat := ⟨2, by decide, 53, by decide, some (-1074)⟩

/-- Single precision. -/
def binary32 : NumberFormat := ⟨2, by decide, 24, by decide, some (-149)⟩

/-- Double precision with an unbounded exponent. -/
def binary53 : NumberFormat := ⟨2, by decide, 53, by decide, none⟩

/-- Six significant decimal digits. -/
def sixDigits : NumberFormat := ⟨10, by decide, 6, by decide, none⟩

/-- `std::stod` of a literal: a number out of range, or too small for its digits,
is refused. -/
def stod (x : ℚ) : Option ℚ :=
  let value := binary64.round x
  if 2 ^ 1024 ≤ |value| then none
  else if |binary53.round x| < 2 ^ (-1022 : ℤ) ∧ value ≠ x then none
  else some value

/-- `std::stoi` of a literal. -/
def stoiValue (n : ℤ) : Option ℤ := if -2 ^ 31 ≤ n ∧ n < 2 ^ 31 then some n else none

end Formats

section Literals

/-- The power of ten of a literal: a mark, perhaps a sign, and digits. -/
structure PowerText where
  mark : UInt8
  sign : Bytes
  digits : Bytes

/-- A literal as it is written. -/
structure NumberLiteral where
  negative : Bool
  whole : Bytes
  fraction : Bytes
  power : Option PowerText

def PowerText.text (power : PowerText) : Bytes := power.mark :: (power.sign ++ power.digits)

def PowerText.value (power : PowerText) : ℤ :=
  if power.sign = [45] then -(digitsValue power.digits : ℤ) else digitsValue power.digits

def powerText (power : Option PowerText) : Bytes := (power.map PowerText.text).getD []

def powerValue (power : Option PowerText) : ℤ := (power.map PowerText.value).getD 0

/-- The number that digits, a fraction and a power of ten write. -/
def unsignedValue (whole fraction : Bytes) (power : ℤ) : ℚ :=
  digitsValue (whole ++ fraction) * 10 ^ (power - fraction.length)

def signedValue (negative : Bool) (value : ℚ) : ℚ := if negative then -value else value

namespace NumberLiteral

/-- The digits behind the point, with the point, if there are any. -/
def fractionText (fraction : Bytes) : Bytes := if fraction = [] then [] else 46 :: fraction

def text (l : NumberLiteral) : Bytes :=
  (if l.negative then [45] else []) ++ (l.whole ++ (fractionText l.fraction ++ powerText l.power))

def value (l : NumberLiteral) : ℚ :=
  signedValue l.negative (unsignedValue l.whole l.fraction (powerValue l.power))

end NumberLiteral

structure PowerText.WellFormed (power : PowerText) : Prop where
  mark : power.mark = 101 ∨ power.mark = 69
  sign : power.sign = [] ∨ power.sign = [43] ∨ power.sign = [45]
  digits : ∀ b ∈ power.digits, isDigit b = true
  ne : power.digits ≠ []

structure NumberLiteral.WellFormed (l : NumberLiteral) : Prop where
  whole : ∀ b ∈ l.whole, isDigit b = true
  ne : l.whole ≠ []
  fraction : ∀ b ∈ l.fraction, isDigit b = true
  power : ∀ power ∈ l.power, power.WellFormed

end Literals

section Scanners

def takeMinus : Bytes → Bool × Bytes
  | 45 :: rest => (true, rest)
  | rest => (false, rest)

/-- The pattern `(?:[eE][-+]?\d+)?` as a power of ten. -/
def scanPower : Bytes → ℤ
  | [] => 0
  | mark :: rest =>
    if mark = 101 ∨ mark = 69 then
      let digits := (takeSign rest).2.takeWhile isDigit
      if (takeSign rest).1 = [45] then -(digitsValue digits : ℤ) else digitsValue digits
    else 0

/-- A sign, digits, a fraction by some rule and a power of ten. -/
def scanNumber (fraction : Bytes → Bytes → Option (Bytes × Bytes)) (text : Bytes) : Option ℚ :=
  let whole := (takeMinus text).2.takeWhile isDigit
  match fraction whole ((takeMinus text).2.dropWhile isDigit) with
  | none => none
  | some (digits, rest) =>
    some (signedValue (takeMinus text).1 (unsignedValue whole digits (scanPower rest)))

/-- The fraction of `\d+(?:\.\d+)?`. -/
def requestFraction (whole behind : Bytes) : Option (Bytes × Bytes) :=
  if whole = [] then none
  else
    match behind with
    | 46 :: rest =>
      if rest.takeWhile isDigit = [] then some ([], behind)
      else some (rest.takeWhile isDigit, rest.dropWhile isDigit)
    | _ => some ([], behind)

/-- The fraction of `(?:\d+\.?\d*|\.\d+)`. -/
def metadataFraction (whole behind : Bytes) : Option (Bytes × Bytes) :=
  match behind with
  | 46 :: rest =>
    if whole = [] ∧ rest.takeWhile isDigit = [] then none
    else some (rest.takeWhile isDigit, rest.dropWhile isDigit)
  | _ => if whole = [] then none else some ([], behind)

/-- The number at the start of a request field. -/
def requestNumber (text : Bytes) : Option ℚ := scanNumber requestFraction text

/-- The number at the start of a metadata field. -/
def metadataNumber (text : Bytes) : Option ℚ := scanNumber metadataFraction text

/-- The pattern `-?\d+`. -/
def scanInteger (text : Bytes) : Option ℤ :=
  let digits := (takeMinus text).2.takeWhile isDigit
  if digits = [] then none
  else if (takeMinus text).1 then some (-(digitsValue digits : ℤ))
  else some (digitsValue digits)

/-- A byte behind a literal that is not part of it. -/
structure Ends (b : UInt8) : Prop where
  notDigit : isDigit b = false
  notPoint : b ≠ 46
  notMark : b ≠ 101 ∧ b ≠ 69

theorem ends_comma : Ends 44 := ⟨rfl, by decide, by decide⟩

theorem ends_brace : Ends 0x7d := ⟨rfl, by decide, by decide⟩

theorem isDigit_mark {b : UInt8} (h : b = 101 ∨ b = 69) : isDigit b = false := by
  rcases h with rfl | rfl <;> rfl

/-- Digits are taken up to a byte that is none. -/
theorem takeWhile_digits {digits rest : Bytes} {b : UInt8} (h : ∀ b ∈ digits, isDigit b = true)
    (hb : isDigit b = false) :
    (digits ++ b :: rest).takeWhile isDigit = digits ∧
      (digits ++ b :: rest).dropWhile isDigit = b :: rest :=
  takeWhile_isDigit_append h fun _ hhead => by
    rw [List.head?_cons, Option.mem_some_iff] at hhead
    rw [← hhead, hb]

theorem takeMinus_of_digit {b : UInt8} (h : isDigit b = true) (rest : Bytes) :
    takeMinus (b :: rest) = (false, b :: rest) := by
  unfold takeMinus
  split
  · next heq =>
    cases heq
    cases h
  · rfl

/-- A power of ten is read as a whole. -/
theorem scanPower_text {power : Option PowerText} (h : ∀ p ∈ power, p.WellFormed) {b : UInt8}
    (hb : Ends b) (rest : Bytes) : scanPower (powerText power ++ b :: rest) = powerValue power := by
  cases power with
  | none =>
    have hmark : ¬(b = 101 ∨ b = 69) := not_or.mpr hb.notMark
    show (if b = 101 ∨ b = 69 then _ else 0) = (0 : ℤ)
    rw [if_neg hmark]
  | some power =>
    have hpower := h power rfl
    have htake := @takeWhile_digits power.digits rest b hpower.digits hb.notDigit
    have hsign : takeSign (power.sign ++ (power.digits ++ b :: rest)) =
        (power.sign, power.digits ++ b :: rest) := by
      rcases hpower.sign with heq | heq | heq
      · obtain ⟨d, tail, hcons⟩ := List.exists_cons_of_ne_nil hpower.ne
        have hd := hpower.digits d (hcons ▸ List.mem_cons_self)
        rw [heq, hcons]
        exact takeSign_of_digit hd _
      · rw [heq]
        rfl
      · rw [heq]
        rfl
    have htext : powerText (some power) ++ b :: rest =
        power.mark :: (power.sign ++ (power.digits ++ b :: rest)) := by
      show (power.mark :: (power.sign ++ power.digits)) ++ b :: rest = _
      rw [List.cons_append, List.append_assoc]
    rw [htext, scanPower, if_pos hpower.mark, hsign]
    dsimp only
    rw [htake.1]
    rfl

/-- The first byte behind the digits of a literal. -/
theorem powerText_head {power : Option PowerText} (h : ∀ p ∈ power, p.WellFormed) {b : UInt8}
    (hb : Ends b) (rest : Bytes) :
    ∃ c tail, powerText power ++ b :: rest = c :: tail ∧ isDigit c = false ∧ c ≠ 46 := by
  cases power with
  | none => exact ⟨b, rest, rfl, hb.notDigit, hb.notPoint⟩
  | some power =>
    have hmark := (h power rfl).mark
    refine ⟨power.mark, _, rfl, isDigit_mark hmark, ?_⟩
    intro hpoint
    rw [hpoint] at hmark
    exact absurd hmark (by decide)

/-- A rule for fractions that takes all digits behind a point. -/
structure TakesFraction (rule : Bytes → Bytes → Option (Bytes × Bytes)) : Prop where
  absent : ∀ {whole : Bytes} {c : UInt8} {tail : Bytes}, whole ≠ [] → c ≠ 46 →
    rule whole (c :: tail) = some ([], c :: tail)
  present : ∀ {whole tail : Bytes}, whole ≠ [] → tail.takeWhile isDigit ≠ [] →
    rule whole (46 :: tail) = some (tail.takeWhile isDigit, tail.dropWhile isDigit)

theorem takesFraction_request : TakesFraction requestFraction where
  absent hwhole hc := by
    unfold requestFraction
    rw [if_neg hwhole]
    split
    · next heq => exact absurd (List.cons.inj heq).1 hc
    · rfl
  present hwhole htail := by
    unfold requestFraction
    rw [if_neg hwhole]
    exact if_neg htail

theorem takesFraction_metadata : TakesFraction metadataFraction where
  absent hwhole hc := by
    unfold metadataFraction
    split
    · next heq => exact absurd (List.cons.inj heq).1 hc
    · exact if_neg hwhole
  present hwhole _ := if_neg fun h => hwhole h.1

/-- The sign of a literal. -/
theorem takeMinus_text {l : NumberLiteral} (hl : l.WellFormed) (rest : Bytes) :
    takeMinus (l.text ++ rest) = (l.negative,
      l.whole ++ (NumberLiteral.fractionText l.fraction ++ (powerText l.power ++ rest))) := by
  obtain ⟨d, more, hcons⟩ := List.exists_cons_of_ne_nil hl.ne
  have hd := hl.whole d (hcons ▸ List.mem_cons_self)
  unfold NumberLiteral.text
  cases l.negative with
  | true =>
    rw [List.append_assoc, List.append_assoc, List.append_assoc]
    rfl
  | false =>
    rw [List.append_assoc, List.append_assoc, List.append_assoc, hcons]
    exact takeMinus_of_digit hd _

/-- A literal is read as the number that it writes. -/
theorem scanNumber_text {rule : Bytes → Bytes → Option (Bytes × Bytes)} (hrule : TakesFraction rule)
    {l : NumberLiteral} (hl : l.WellFormed) {b : UInt8} (hb : Ends b) (rest : Bytes) :
    scanNumber rule (l.text ++ b :: rest) = some l.value := by
  obtain ⟨c, tail, hc, hdigit, hpoint⟩ := powerText_head hl.power hb rest
  have hpower := scanPower_text hl.power hb rest
  -- the digits before the point
  have hwhole : ∀ behind : Bytes, (∃ e more, behind = e :: more ∧ isDigit e = false) →
      (l.whole ++ behind).takeWhile isDigit = l.whole ∧
        (l.whole ++ behind).dropWhile isDigit = behind := by
    rintro _ ⟨e, more, rfl, he⟩
    exact takeWhile_digits hl.whole he
  unfold scanNumber
  rw [takeMinus_text hl]
  dsimp only
  by_cases hfraction : l.fraction = []
  · have htext : NumberLiteral.fractionText l.fraction ++ (powerText l.power ++ b :: rest) =
        powerText l.power ++ b :: rest := by
      rw [NumberLiteral.fractionText, if_pos hfraction, List.nil_append]
    have htake := hwhole _ ⟨c, tail, hc, hdigit⟩
    rw [htext, htake.1, htake.2]
    rw [hc, hrule.absent hl.ne hpoint]
    dsimp only
    rw [← hc, hpower, ← hfraction]
    rfl
  · have htext : NumberLiteral.fractionText l.fraction ++ (powerText l.power ++ b :: rest) =
        46 :: (l.fraction ++ (powerText l.power ++ b :: rest)) := by
      rw [NumberLiteral.fractionText, if_neg hfraction, List.cons_append]
    have htake := hwhole _ ⟨46, _, htext, rfl⟩
    have hdigits : (l.fraction ++ (powerText l.power ++ b :: rest)).takeWhile isDigit =
        l.fraction ∧ (l.fraction ++ (powerText l.power ++ b :: rest)).dropWhile isDigit =
          powerText l.power ++ b :: rest := by
      rw [hc]
      exact takeWhile_digits hl.fraction hdigit
    rw [htake.1, htake.2, htext, hrule.present hl.ne (by rw [hdigits.1]; exact hfraction),
      hdigits.1, hdigits.2]
    dsimp only
    rw [hpower]
    rfl

/-- The integer part of a literal. -/
def NumberLiteral.integer (l : NumberLiteral) : ℤ :=
  if l.negative then -(digitsValue l.whole : ℤ) else digitsValue l.whole

/-- The integer pattern reads the integer part of a literal. -/
theorem scanInteger_text {l : NumberLiteral} (hl : l.WellFormed) {b : UInt8} (hb : Ends b)
    (rest : Bytes) : scanInteger (l.text ++ b :: rest) = some l.integer := by
  obtain ⟨c, tail, hc, hdigit⟩ : ∃ c tail, NumberLiteral.fractionText l.fraction ++
      (powerText l.power ++ b :: rest) = c :: tail ∧ isDigit c = false := by
    unfold NumberLiteral.fractionText
    split
    · obtain ⟨c, tail, hc, hdigit, -⟩ := powerText_head hl.power hb rest
      exact ⟨c, tail, hc, hdigit⟩
    · exact ⟨46, _, rfl, rfl⟩
  have htake := @takeWhile_digits l.whole tail c hl.whole hdigit
  unfold scanInteger NumberLiteral.integer
  rw [takeMinus_text hl, hc]
  dsimp only
  rw [htake.1, if_neg hl.ne]
  split <;> rfl

/-- The literal of an integer. -/
def decimalLiteral (n : ℤ) : NumberLiteral := ⟨decide (n < 0), decimalNat n.natAbs, [], none⟩

theorem decimalLiteral_wellFormed (n : ℤ) : (decimalLiteral n).WellFormed where
  whole := decimalNat_digits n.natAbs
  ne := decimalNat_ne_nil n.natAbs
  fraction := fun b hb => absurd hb List.not_mem_nil
  power := fun p hp => by cases hp

theorem decimalLiteral_text (n : ℤ) : (decimalLiteral n).text = decimal n := by
  show (if decide (n < 0) = true then [45] else []) ++ (decimalNat n.natAbs ++ ([] ++ [])) = _
  unfold decimal
  rw [List.append_nil, List.append_nil]
  by_cases h : n < 0
  · rw [if_pos (decide_eq_true h), if_pos h]
    rfl
  · rw [if_neg (by rw [decide_eq_false h]; exact Bool.false_ne_true), if_neg h]
    rfl

theorem decimalLiteral_integer (n : ℤ) : (decimalLiteral n).integer = n := by
  show (if decide (n < 0) = true then -(digitsValue (decimalNat n.natAbs) : ℤ)
    else digitsValue (decimalNat n.natAbs)) = n
  rw [digitsValue_decimalNat]
  by_cases h : n < 0
  · rw [if_pos (decide_eq_true h)]
    omega
  · rw [if_neg (by rw [decide_eq_false h]; exact Bool.false_ne_true)]
    omega

/-- A literal without fraction and power of ten writes an integer. -/
theorem NumberLiteral.value_of_integer {l : NumberLiteral} (hfraction : l.fraction = [])
    (hpower : l.power = none) : l.value = l.integer := by
  have hunsigned : unsignedValue l.whole l.fraction (powerValue l.power) = digitsValue l.whole := by
    rw [hfraction, hpower]
    show (digitsValue (l.whole ++ []) : ℚ) * 10 ^ (0 - ((0 : ℕ) : ℤ)) = _
    rw [List.append_nil, Nat.cast_zero, sub_zero, zpow_zero, mul_one]
  unfold NumberLiteral.value NumberLiteral.integer signedValue
  rw [hunsigned]
  split
  · push_cast
    rfl
  · rfl

end Scanners

section Writers

/-- The last digits of a number, with leading zeros. -/
def digitsAt : ℕ → ℕ → Bytes
  | 0, _ => []
  | width + 1, n => digitsAt width (n / 10) ++ [UInt8.ofNat (48 + n % 10)]

/-- `std::to_string` of a double: six digits behind the point. -/
def toStringLiteral (x : ℚ) : NumberLiteral :=
  let units := (roundEven (|x| * 10 ^ 6)).toNat
  ⟨decide (x < 0), decimalNat (units / 10 ^ 6), digitsAt 6 (units % 10 ^ 6), none⟩

def toStringDouble (x : ℚ) : Bytes := (toStringLiteral x).text

/-- Trailing zeros of a fraction are not written. -/
def stripZeros (fraction : Bytes) : Bytes := fraction.rdropWhile (· == 48)

/-- A power of ten with at least two digits. -/
def streamPower (power : ℤ) : PowerText where
  mark := 101
  sign := if power < 0 then [45] else [43]
  digits := (if power.natAbs < 10 then [48] else []) ++ decimalNat power.natAbs

/-- Six significant digits with their power of ten. -/
def streamDigits (negative : Bool) (digits : Bytes) (power : ℤ) : NumberLiteral :=
  if power < -4 ∨ 6 ≤ power then
    ⟨negative, digits.take 1, stripZeros (digits.drop 1), some (streamPower power)⟩
  else if power < 0 then
    ⟨negative, [48], stripZeros (List.replicate (-power - 1).toNat 48 ++ digits), none⟩
  else
    ⟨negative, digits.take (power.toNat + 1), stripZeros (digits.drop (power.toNat + 1)), none⟩

/-- A double as a stream writes it: six significant digits. -/
def streamLiteral (x : ℚ) : NumberLiteral :=
  if x = 0 then ⟨false, [48], [], none⟩
  else
    let value := sixDigits.round |x|
    let power := Int.log 10 value
    streamDigits (decide (x < 0)) (digitsAt 6 ⌊value / 10 ^ (power - 5)⌋.toNat) power

def streamDouble (x : ℚ) : Bytes := (streamLiteral x).text

theorem digitsAt_length (width n : ℕ) : (digitsAt width n).length = width := by
  induction width generalizing n with
  | zero => rfl
  | succ width ih => rw [digitsAt, List.length_append, ih, List.length_singleton]

theorem digitsAt_digits (width n : ℕ) : ∀ b ∈ digitsAt width n, isDigit b = true := by
  induction width generalizing n with
  | zero => exact fun b hb => absurd hb List.not_mem_nil
  | succ width ih =>
    intro b hb
    rw [digitsAt, List.mem_append, List.mem_singleton] at hb
    rcases hb with hb | rfl
    · exact ih (n / 10) b hb
    · exact isDigit_ofNat (Nat.mod_lt n (by decide))

theorem digitsValue_snoc (digits : Bytes) (b : UInt8) :
    digitsValue (digits ++ [b]) = 10 * digitsValue digits + (b.toNat - 48) := by
  unfold digitsValue
  rw [List.foldl_append, List.foldl_cons, List.foldl_nil]

/-- Digits behind others count after them. -/
theorem digitsValue_append (front back : Bytes) :
    digitsValue (front ++ back) = digitsValue front * 10 ^ back.length + digitsValue back := by
  induction back using List.reverseRecOn with
  | nil =>
    rw [List.append_nil, List.length_nil, pow_zero, mul_one]
    rfl
  | append_singleton back b ih =>
    rw [← List.append_assoc, digitsValue_snoc, digitsValue_snoc, ih, List.length_append,
      List.length_singleton, pow_succ]
    ring

theorem digitsValue_digitsAt (width n : ℕ) : digitsValue (digitsAt width n) = n % 10 ^ width := by
  induction width generalizing n with
  | zero =>
    rw [pow_zero, Nat.mod_one]
    rfl
  | succ width ih =>
    have hdigit : n % 10 < 10 := Nat.mod_lt n (by decide)
    rw [digitsAt, digitsValue_snoc, ih, toNat_ofNat_digit hdigit, pow_succ',
      Nat.mod_mul]
    ring

theorem digitsValue_zeros (count : ℕ) : digitsValue (List.replicate count 48) = 0 := by
  induction count with
  | zero => rfl
  | succ count ih =>
    rw [List.replicate_succ', digitsValue_snoc, ih]
    rfl

/-- Zeros at the end of a fraction do not count. -/
theorem unsignedValue_zeros (whole fraction : Bytes) (count : ℕ) (power : ℤ) :
    unsignedValue whole (fraction ++ List.replicate count 48) power =
      unsignedValue whole fraction power := by
  unfold unsignedValue
  rw [← List.append_assoc, digitsValue_append _ (List.replicate count 48), digitsValue_zeros,
    List.length_append, List.length_replicate, Nat.add_zero]
  have hsplit : (10 : ℚ) ^ (power - fraction.length) =
      10 ^ count * 10 ^ (power - ((fraction.length + count : ℕ) : ℤ)) := by
    rw [← zpow_natCast, ← zpow_add₀ (by norm_num)]
    congr 1
    push_cast
    ring
  rw [hsplit]
  push_cast
  ring

theorem stripZeros_split (fraction : Bytes) :
    ∃ count, fraction = stripZeros fraction ++ List.replicate count 48 := by
  have hzeros : ∀ b ∈ fraction.rtakeWhile (· == 48), b = (48 : UInt8) := by
    intro b hb
    have hzero : (b == 48) = true := @List.mem_rtakeWhile_imp _ (· == 48) _ _ hb
    exact eq_of_beq hzero
  refine ⟨(fraction.rtakeWhile (· == 48)).length, ?_⟩
  rw [← List.eq_replicate_iff.mpr ⟨rfl, hzeros⟩]
  exact List.rdropWhile_append_rtakeWhile.symm

theorem unsignedValue_strip (whole fraction : Bytes) (power : ℤ) :
    unsignedValue whole (stripZeros fraction) power = unsignedValue whole fraction power := by
  obtain ⟨count, hsplit⟩ := stripZeros_split fraction
  conv_rhs => rw [hsplit]
  exact (unsignedValue_zeros whole _ count power).symm

theorem stripZeros_digits {fraction : Bytes} (h : ∀ b ∈ fraction, isDigit b = true) :
    ∀ b ∈ stripZeros fraction, isDigit b = true := by
  intro b hb
  obtain ⟨count, hsplit⟩ := stripZeros_split fraction
  exact h b (hsplit ▸ List.mem_append_left _ hb)

theorem streamPower_wellFormed (power : ℤ) : (streamPower power).WellFormed where
  mark := Or.inl rfl
  sign := by
    unfold streamPower
    dsimp only
    split
    · exact Or.inr (Or.inr rfl)
    · exact Or.inr (Or.inl rfl)
  digits := by
    intro b hb
    rcases List.mem_append.mp hb with hzero | hb
    · split at hzero
      · rw [List.mem_singleton.mp hzero]
        rfl
      · exact absurd hzero List.not_mem_nil
    · exact decimalNat_digits _ b hb
  ne := fun h => decimalNat_ne_nil _ (List.append_eq_nil_iff.mp h).2

theorem streamPower_value (power : ℤ) : (streamPower power).value = power := by
  have hzero : ∀ digits, digitsValue ([48] ++ digits) = digitsValue digits := by
    intro digits
    rw [digitsValue_append]
    exact (congrArg (· + digitsValue digits) (Nat.zero_mul _)).trans (Nat.zero_add _)
  have hdigits : digitsValue (streamPower power).digits = power.natAbs := by
    unfold streamPower
    dsimp only
    split
    · rw [hzero, digitsValue_decimalNat]
    · rw [List.nil_append, digitsValue_decimalNat]
  unfold PowerText.value
  rw [hdigits]
  unfold streamPower
  dsimp only
  by_cases h : power < 0
  · rw [if_pos h, if_pos rfl]
    omega
  · rw [if_neg h, if_neg (by decide)]
    omega

/-- Six digits with a power of ten are written without change of value. -/
theorem streamDigits_spec (negative : Bool) {digits : Bytes} (hlength : digits.length = 6)
    (hdigits : ∀ b ∈ digits, isDigit b = true) (power : ℤ) :
    (streamDigits negative digits power).WellFormed ∧
      (streamDigits negative digits power).value =
        signedValue negative (digitsValue digits * 10 ^ (power - 5)) := by
  have hsub : ∀ {part : Bytes}, (∀ b ∈ part, b ∈ digits) → ∀ b ∈ part, isDigit b = true :=
    fun h b hb => hdigits b (h b hb)
  have htake (n : ℕ) : ∀ b ∈ digits.take n, isDigit b = true := hsub fun b => List.mem_of_mem_take
  have hdrop (n : ℕ) : ∀ b ∈ digits.drop n, isDigit b = true := hsub fun b => List.mem_of_mem_drop
  have hne {n : ℕ} (hn : 0 < n) : digits.take n ≠ [] := by
    intro hnil
    have hzero := congrArg List.length hnil
    rw [List.length_take, hlength, List.length_nil] at hzero
    omega
  unfold streamDigits
  split
  · refine ⟨⟨htake 1, hne Nat.one_pos, stripZeros_digits (hdrop 1), ?_⟩, ?_⟩
    · intro p hp
      rw [← Option.some.inj hp]
      exact streamPower_wellFormed power
    · show signedValue negative (unsignedValue (digits.take 1) (stripZeros (digits.drop 1))
        (streamPower power).value) = _
      rw [unsignedValue_strip, streamPower_value, unsignedValue, List.take_append_drop,
        List.length_drop, hlength]
      rfl
  · split
    · next hlow hneg =>
      have hzeros : ∀ b ∈ List.replicate (-power - 1).toNat 48 ++ digits, isDigit b = true := by
        intro b hb
        rcases List.mem_append.mp hb with hb | hb
        · rw [List.eq_of_mem_replicate hb]
          rfl
        · exact hdigits b hb
      refine ⟨⟨?_, List.cons_ne_nil _ _, stripZeros_digits hzeros, fun p hp => by cases hp⟩, ?_⟩
      · intro b hb
        rw [List.mem_singleton.mp hb]
        rfl
      · show signedValue negative (unsignedValue [48]
          (stripZeros (List.replicate (-power - 1).toNat 48 ++ digits)) 0) = _
        have hvalue : digitsValue ([48] ++ (List.replicate (-power - 1).toNat 48 ++ digits)) =
            digitsValue digits := by
          rw [← List.append_assoc, digitsValue_append, ← List.replicate_one,
            List.replicate_append_replicate, digitsValue_zeros, Nat.zero_mul, Nat.zero_add]
        rw [unsignedValue_strip, unsignedValue, hvalue, List.length_append, List.length_replicate,
          hlength]
        congr 3
        omega
    · next hlow hneg =>
      refine ⟨⟨htake _, hne (Nat.succ_pos _), stripZeros_digits (hdrop _),
        fun p hp => by cases hp⟩, ?_⟩
      show signedValue negative (unsignedValue (digits.take (power.toNat + 1))
        (stripZeros (digits.drop (power.toNat + 1))) 0) = _
      rw [unsignedValue_strip, unsignedValue, List.take_append_drop, List.length_drop, hlength]
      congr 3
      omega

/-- Six significant digits of a positive number. -/
theorem sixDigits_digits {x : ℚ} (hx : 0 < x) :
    let value := sixDigits.round x
    let power := Int.log 10 value
    value = (⌊value / 10 ^ (power - 5)⌋.toNat : ℚ) * 10 ^ (power - 5) ∧
      ⌊value / 10 ^ (power - 5)⌋.toNat < 10 ^ 6 := by
  intro value power
  have hvalue : 0 ≤ value := sixDigits.round_nonneg hx.le
  have hunit : (0 : ℚ) < 10 ^ (power - 5) := zpow_pos (by norm_num) _
  have hexponent : sixDigits.spacing value = 10 ^ (power - 5) := by
    show ((10 : ℕ) : ℚ) ^ (Int.log 10 |value| + 1 - ((6 : ℕ) : ℤ)) = _
    rw [abs_of_nonneg hvalue]
    congr 1
    show power + 1 - 6 = power - 5
    ring
  obtain ⟨n, hn⟩ := sixDigits.holds_round x
  have hn : value = n * 10 ^ (power - 5) := hexponent ▸ hn
  have hquotient : value / 10 ^ (power - 5) = n := by
    rw [hn]
    exact mul_div_cancel_right₀ _ hunit.ne'
  have hnonneg : 0 ≤ n := by
    have hle : (0 : ℚ) ≤ n := hquotient ▸ div_nonneg hvalue hunit.le
    exact_mod_cast hle
  have hbound : n < 10 ^ 6 := by
    have hlt : value < 10 ^ (power + 1) := by
      have h := Int.lt_zpow_succ_log_self (b := 10) (by norm_num) value
      exact_mod_cast h
    have hsplit : (10 : ℚ) ^ (power + 1) = 10 ^ 6 * 10 ^ (power - 5) := by
      rw [← zpow_natCast, ← zpow_add₀ (by norm_num)]
      congr 1
      push_cast
      ring
    rw [hn, hsplit] at hlt
    have hcast := lt_of_mul_lt_mul_right hlt hunit.le
    exact_mod_cast hcast
  rw [hquotient, Int.floor_intCast]
  constructor
  · rw [hn]
    congr 1
    exact_mod_cast (Int.toNat_of_nonneg hnonneg).symm
  · omega

theorem signedValue_abs (x : ℚ) : signedValue (decide (x < 0)) |x| = x := by
  unfold signedValue
  by_cases h : x < 0
  · rw [if_pos (decide_eq_true h), abs_of_neg h, neg_neg]
  · rw [if_neg (by rw [decide_eq_false h]; exact Bool.false_ne_true), abs_of_nonneg (not_lt.mp h)]

/-- A stream writes a number with six significant digits. -/
theorem streamLiteral_spec (x : ℚ) :
    (streamLiteral x).WellFormed ∧ (streamLiteral x).value = sixDigits.round x := by
  unfold streamLiteral
  split
  · next hzero =>
    refine ⟨⟨?_, List.cons_ne_nil _ _, fun b hb => absurd hb List.not_mem_nil,
      fun p hp => by cases hp⟩, ?_⟩
    · intro b hb
      rw [List.mem_singleton.mp hb]
      rfl
    · rw [hzero, NumberFormat.round_zero]
      rw [NumberLiteral.value_of_integer rfl rfl]
      rfl
  · next hne =>
    have hpos : 0 < |x| := abs_pos.mpr hne
    obtain ⟨hvalue, hlt⟩ := sixDigits_digits hpos
    have hspec := streamDigits_spec (decide (x < 0)) (digitsAt_length 6 _) (digitsAt_digits 6
      ⌊sixDigits.round |x| / 10 ^ (Int.log 10 (sixDigits.round |x|) - 5)⌋.toNat)
      (Int.log 10 (sixDigits.round |x|))
    refine ⟨hspec.1, ?_⟩
    dsimp only
    rw [hspec.2, digitsValue_digitsAt, Nat.mod_eq_of_lt hlt, ← hvalue]
    unfold signedValue
    by_cases hneg : x < 0
    · rw [if_pos (decide_eq_true hneg), abs_of_neg hneg, NumberFormat.round_neg, neg_neg]
    · rw [if_neg (by rw [decide_eq_false hneg]; exact Bool.false_ne_true),
        abs_of_nonneg (not_lt.mp hneg)]

/-- Six decimals are the nearest multiple of one millionth. -/
theorem toStringLiteral_spec (x : ℚ) :
    (toStringLiteral x).WellFormed ∧ (toStringLiteral x).value = roundTo (10 ^ (-6 : ℤ)) x := by
  have hunits : ((roundEven (|x| * 10 ^ 6)).toNat : ℤ) = roundEven (|x| * 10 ^ 6) := by
    refine Int.toNat_of_nonneg ?_
    have hmono : roundEven ((0 : ℤ) : ℚ) ≤ roundEven (|x| * 10 ^ 6) :=
      roundEven_mono (by push_cast; positivity)
    rwa [roundEven_intCast] at hmono
  have hscale : ∀ y : ℚ, y / 10 ^ (-6 : ℤ) = y * 10 ^ 6 := by
    intro y
    rw [zpow_neg, div_inv_eq_mul]
    rfl
  refine ⟨⟨decimalNat_digits _, decimalNat_ne_nil _, digitsAt_digits 6 _,
    fun p hp => by cases hp⟩, ?_⟩
  generalize hn : (roundEven (|x| * 10 ^ 6)).toNat = n at hunits
  have hvalue : (toStringLiteral x).value = signedValue (decide (x < 0)) (n * 10 ^ (-6 : ℤ)) := by
    unfold toStringLiteral
    rw [hn]
    show signedValue (decide (x < 0)) (unsignedValue (decimalNat (n / 10 ^ 6))
      (digitsAt 6 (n % 10 ^ 6)) 0) = _
    rw [unsignedValue, digitsValue_append, digitsValue_decimalNat, digitsValue_digitsAt,
      digitsAt_length, Nat.mod_mod, Nat.div_add_mod']
    rfl
  rw [hvalue, roundTo, hscale]
  unfold signedValue
  by_cases hneg : x < 0
  · rw [if_pos (decide_eq_true hneg)]
    have hflip : roundEven (x * 10 ^ 6) = -n := by
      rw [hunits, abs_of_neg hneg, ← roundEven_neg, neg_mul, neg_neg]
    rw [hflip]
    push_cast
    ring
  · rw [if_neg (by rw [decide_eq_false hneg]; exact Bool.false_ne_true)]
    have hsame : roundEven (x * 10 ^ 6) = n := by
      rw [hunits, abs_of_nonneg (not_lt.mp hneg)]
    rw [hsame]
    push_cast
    ring

/-- The bytes of a literal. -/
theorem literal_bytes {l : NumberLiteral} (hl : l.WellFormed) {b : UInt8} (hb : b ∈ l.text) :
    isDigit b = true ∨ b ∈ [43, 45, 46, 69, 101] := by
  unfold NumberLiteral.text NumberLiteral.fractionText at hb
  rcases List.mem_append.mp hb with hsign | hb
  · refine Or.inr ?_
    split at hsign
    · rw [List.mem_singleton.mp hsign]
      decide
    · exact absurd hsign List.not_mem_nil
  rcases List.mem_append.mp hb with hwhole | hb
  · exact Or.inl (hl.whole b hwhole)
  rcases List.mem_append.mp hb with hfraction | hpower
  · split at hfraction
    · exact absurd hfraction List.not_mem_nil
    · rcases List.mem_cons.mp hfraction with rfl | hfraction
      · exact Or.inr (by decide)
      · exact Or.inl (hl.fraction b hfraction)
  · cases hp : l.power with
    | none =>
      rw [hp] at hpower
      exact absurd hpower List.not_mem_nil
    | some power =>
      rw [hp] at hpower
      have h := hl.power power hp
      rcases List.mem_cons.mp hpower with rfl | hpower
      · rcases h.mark with heq | heq <;> rw [heq] <;> exact Or.inr (by decide)
      rcases List.mem_append.mp hpower with hsign | hdigit
      · refine Or.inr ?_
        rcases h.sign with heq | heq | heq
        · rw [heq] at hsign
          exact absurd hsign List.not_mem_nil
        · rw [heq] at hsign
          rw [List.mem_singleton.mp hsign]
          decide
        · rw [heq] at hsign
          rw [List.mem_singleton.mp hsign]
          decide
      · exact Or.inl (h.digits b hdigit)

/-- A literal has no quote, so that a search for a key passes over it. -/
theorem quote_not_mem_literal {l : NumberLiteral} (hl : l.WellFormed) : 34 ∉ l.text := by
  intro hquote
  rcases literal_bytes hl hquote with h | h
  · cases h
  · exact absurd h (by decide)

end Writers

section RoundTrips

/-- An integer of few digits is a double. -/
theorem binary64_integer {n : ℤ} (h : |n| ≤ 2 ^ 53) : binary64.round n = n := by
  have hholds : binary64.Holds (n * ((2 : ℕ) : ℚ) ^ (0 : ℤ)) :=
    binary64.holds_of_multiple h fun least hleast => by
      rw [← Option.some.inj hleast]
      decide
  rw [zpow_zero, mul_one] at hholds
  exact binary64.round_of_holds hholds

theorem binary53_normal {x : ℚ} (hx : 2 ^ (-1022 : ℤ) ≤ x) :
    2 ^ (-1022 : ℤ) ≤ binary53.round x := by
  have hpower : binary53.Holds (((1 : ℤ) : ℚ) * ((2 : ℕ) : ℚ) ^ (-1022 : ℤ)) :=
    binary53.holds_of_multiple (by decide) fun least hleast => by cases hleast
  have hround := binary53.round_of_holds hpower
  rw [Int.cast_one, one_mul, Nat.cast_ofNat] at hround
  have hmono := binary53.round_mono (zpow_nonneg (by norm_num) _) hx
  rwa [hround] at hmono

/-- A number that is neither too small nor too large is read. -/
theorem stod_of_normal {x : ℚ} (hnormal : 2 ^ (-1022 : ℤ) ≤ |x|)
    (hlarge : |binary64.round x| < 2 ^ 1024) : stod x = some (binary64.round x) := by
  have hround : 2 ^ (-1022 : ℤ) ≤ |binary53.round x| := by
    rcases abs_choice x with h | h
    · rw [h] at hnormal
      exact (binary53_normal hnormal).trans (le_abs_self _)
    · rw [h] at hnormal
      have hneg := binary53_normal hnormal
      rw [NumberFormat.round_neg] at hneg
      exact hneg.trans (neg_le_abs _)
  unfold stod
  dsimp only
  rw [if_neg (not_le.mpr hlarge), if_neg fun h => absurd h.1 (not_lt.mpr hround)]

theorem stod_zero : stod 0 = some 0 := by
  have hvalue := binary64.round_zero
  have hlarge : ¬(2 : ℚ) ^ 1024 ≤ |binary64.round 0| := by
    rw [hvalue, abs_zero]
    exact not_le.mpr (by positivity)
  unfold stod
  dsimp only
  rw [if_neg hlarge, if_neg fun h => h.2 hvalue, hvalue]

theorem binary64_abs_le {x : ℚ} {k : ℕ} (h : |x| ≤ 2 ^ k) : |binary64.round x| ≤ 2 ^ k := by
  have hpow : binary64.Holds (((1 : ℤ) : ℚ) * ((2 : ℕ) : ℚ) ^ (k : ℤ)) :=
    binary64.holds_of_multiple (by decide) fun least hleast => by
      rw [← Option.some.inj hleast]
      omega
  have hround := binary64.round_of_holds hpow
  rw [Int.cast_one, one_mul, zpow_natCast, Nat.cast_ofNat] at hround
  have hside {y : ℚ} (hy : 0 ≤ y) (hle : y ≤ 2 ^ k) : |binary64.round y| ≤ 2 ^ k := by
    rw [abs_of_nonneg (binary64.round_nonneg hy)]
    exact (binary64.round_mono hy hle).trans_eq hround
  rcases abs_choice x with habs | habs
  · rw [habs] at h
    exact hside (habs ▸ abs_nonneg x) h
  · rw [habs] at h
    have hneg := hside (habs ▸ abs_nonneg x) h
    rwa [NumberFormat.round_neg, abs_neg] at hneg

/-- An integer of 64 bits is read as the nearest double. -/
theorem stod_integer {n : ℤ} (h : |n| ≤ 2 ^ 64) : stod n = some (binary64.round n) := by
  by_cases hzero : n = 0
  · rw [hzero, Int.cast_zero, NumberFormat.round_zero]
    exact stod_zero
  · have hone : (1 : ℚ) ≤ |(n : ℚ)| := by
      rw [← Int.cast_abs]
      exact_mod_cast Int.one_le_abs hzero
    have hbound : |(n : ℚ)| ≤ 2 ^ 64 := by
      rw [← Int.cast_abs]
      exact_mod_cast h
    have hsmall : (2 : ℚ) ^ (-1022 : ℤ) ≤ 1 := zpow_le_one_of_nonpos₀ (by norm_num) (by norm_num)
    refine stod_of_normal (hsmall.trans hone) ((binary64_abs_le hbound).trans_lt ?_)
    exact pow_lt_pow_right₀ (by norm_num) (by norm_num)

/-- The error of double precision down to half the smallest normal number. -/
theorem abs_binary64_sub_mul_le {x : ℚ} (hx : 2 ^ (-1023 : ℤ) ≤ x) :
    |binary64.round x - x| * 2 ^ 52 ≤ x := by
  have hpos : (0 : ℚ) < x := (zpow_pos (by norm_num) _).trans_le hx
  have hnear : |binary64.round x - x| ≤ binary64.spacing x / 2 :=
    abs_roundTo_sub_le (binary64.spacing_pos x) x
  have hlow : (2 : ℚ) ^ Int.log 2 x ≤ x := by
    exact_mod_cast Int.zpow_log_le_self (b := 2) (by norm_num) hpos
  have hspacing : binary64.spacing x * 2 ^ 51 ≤ x := by
    have hexponent : binary64.exponent x = max (Int.log 2 x - 52) (-1074) := by
      show max (Int.log 2 |x| + 1 - ((53 : ℕ) : ℤ)) (-1074) = _
      rw [abs_of_pos hpos]
      congr 1
      show Int.log 2 x + 1 - 53 = Int.log 2 x - 52
      omega
    have hscale : ∀ k : ℤ, ((2 : ℕ) : ℚ) ^ k * 2 ^ 51 = 2 ^ (k + 51) := by
      intro k
      rw [zpow_add₀ (by norm_num)]
      norm_cast
    rw [NumberFormat.spacing, hexponent]
    show ((2 : ℕ) : ℚ) ^ max (Int.log 2 x - 52) (-1074) * 2 ^ 51 ≤ x
    rw [hscale]
    rcases max_cases (Int.log 2 x - 52) (-1074) with ⟨h, -⟩ | ⟨h, -⟩
    · rw [h]
      exact (zpow_le_zpow_right₀ (by norm_num) (by omega)).trans hlow
    · rw [h]
      exact hx
  calc |binary64.round x - x| * 2 ^ 52 ≤ binary64.spacing x / 2 * 2 ^ 52 :=
        mul_le_mul_of_nonneg_right hnear (by positivity)
    _ = binary64.spacing x * 2 ^ 51 := by ring
    _ ≤ x := hspacing

/-- Six significant digits survive double precision. -/
theorem sixDigits_binary64 {v : ℚ} (hv : sixDigits.Holds v) (hnormal : 2 ^ (-1023 : ℤ) ≤ v) :
    sixDigits.round (binary64.round v) = v := by
  have hpos : (0 : ℚ) < v := (zpow_pos (by norm_num) _).trans_le hnormal
  have herror := abs_binary64_sub_mul_le hnormal
  refine sixDigits.round_of_near hv hpos ?_
  show |binary64.round v - v| * (2 * ((10 : ℕ) : ℚ) ^ 7) < v
  by_cases hzero : |binary64.round v - v| = 0
  · rw [hzero, zero_mul]
    exact hpos
  · have herrorpos : 0 < |binary64.round v - v| :=
      lt_of_le_of_ne (abs_nonneg _) (Ne.symm hzero)
    refine lt_of_lt_of_le (mul_lt_mul_of_pos_left ?_ herrorpos) herror
    norm_num

/-- A number that is read is written with the digits that it was read from. -/
theorem sixDigits_stod {v value : ℚ} (hnonneg : 0 ≤ v) (hv : sixDigits.Holds v)
    (hread : stod v = some value) : sixDigits.round value = v := by
  have hvalue : value = binary64.round v := by
    unfold stod at hread
    dsimp only at hread
    split at hread
    · cases hread
    · split at hread
      · cases hread
      · exact (Option.some.inj hread).symm
  by_cases hexact : binary64.round v = v
  · rw [hvalue, hexact, sixDigits.round_of_holds hv]
  · rw [hvalue]
    refine sixDigits_binary64 hv ?_
    by_contra hsmall
    -- far below the smallest normal number an inexact result is refused
    have hle : v ≤ ((2 : ℕ) : ℚ) ^ (-1023 : ℤ) := by
      exact_mod_cast (not_le.mp hsmall).le
    have hpower : binary53.Holds (((1 : ℤ) : ℚ) * ((2 : ℕ) : ℚ) ^ (-1023 : ℤ)) :=
      binary53.holds_of_multiple (by decide) fun least hleast => by cases hleast
    rw [Int.cast_one, one_mul] at hpower
    have hround : binary53.round v ≤ ((2 : ℕ) : ℚ) ^ (-1023 : ℤ) :=
      (binary53.round_mono hnonneg hle).trans_eq (binary53.round_of_holds hpower)
    have hlt : |binary53.round v| < 2 ^ (-1022 : ℤ) := by
      rw [abs_of_nonneg (binary53.round_nonneg hnonneg)]
      refine hround.trans_lt ?_
      exact zpow_lt_zpow_right₀ (by norm_num : (1 : ℚ) < (2 : ℕ)) (by decide)
    unfold stod at hread
    dsimp only at hread
    rw [if_pos (c := |binary53.round v| < 2 ^ (-1022 : ℤ) ∧ binary64.round v ≠ v)
      ⟨hlt, hexact⟩] at hread
    split at hread <;> cases hread

/-- Six decimals of a number between zero and one. -/
theorem sixDecimals {p : ℚ} (hlow : 0 ≤ p) (hhigh : p ≤ 1) :
    let decimals := roundTo (10 ^ (-6 : ℤ)) p
    0 ≤ decimals ∧ decimals ≤ 1 ∧ sixDigits.Holds decimals ∧
      stod decimals = some (binary64.round decimals) := by
  intro decimals
  have hunit : (0 : ℚ) < 10 ^ (-6 : ℤ) := zpow_pos (by norm_num) _
  have hmillion : (1 : ℚ) = ((10 ^ 6 : ℤ) : ℚ) * 10 ^ (-6 : ℤ) := by norm_num
  have hnonneg : 0 ≤ decimals := (roundTo_zero _).symm.trans_le (roundTo_mono hunit hlow)
  have hone : decimals ≤ 1 := by
    have hmono := roundTo_mono hunit hhigh
    have hexact := roundTo_multiple hunit (10 ^ 6)
    rw [← hmillion] at hexact
    exact hmono.trans_eq hexact
  have hdecimals : decimals = (roundEven (p / 10 ^ (-6 : ℤ)) : ℚ) * 10 ^ (-6 : ℤ) := rfl
  generalize hn : roundEven (p / 10 ^ (-6 : ℤ)) = n at hdecimals
  have hcount : 0 ≤ n ∧ n ≤ 10 ^ 6 := by
    rw [hdecimals] at hnonneg hone
    rw [hmillion] at hone
    constructor
    · exact_mod_cast nonneg_of_mul_nonneg_left hnonneg hunit
    · exact_mod_cast le_of_mul_le_mul_right hone hunit
  refine ⟨hnonneg, hone, ?_, ?_⟩
  · rw [hdecimals]
    refine sixDigits.holds_of_multiple ?_ fun least hleast => by cases hleast
    rw [abs_of_nonneg hcount.1]
    exact hcount.2
  · by_cases hzero : n = 0
    · rw [hdecimals, hzero, Int.cast_zero, zero_mul, NumberFormat.round_zero]
      exact stod_zero
    · have hpos : (1 : ℚ) ≤ n := by
        have hone : 1 ≤ n := by omega
        exact_mod_cast hone
      have hnormal : (2 : ℚ) ^ (-1022 : ℤ) ≤ |decimals| := by
        rw [abs_of_nonneg hnonneg, hdecimals]
        have hsmall : (2 : ℚ) ^ (-1022 : ℤ) ≤ 10 ^ (-6 : ℤ) := by
          calc (2 : ℚ) ^ (-1022 : ℤ) ≤ 2 ^ (-20 : ℤ) :=
                zpow_le_zpow_right₀ (by norm_num) (by norm_num)
            _ ≤ 10 ^ (-6 : ℤ) := by norm_num
        exact hsmall.trans (le_mul_of_one_le_left hunit.le hpos)
      have hbound : |decimals| ≤ 2 ^ 0 := by
        rw [abs_of_nonneg hnonneg, pow_zero]
        exact hone
      refine stod_of_normal hnormal ((binary64_abs_le hbound).trans_lt ?_)
      exact pow_lt_pow_right₀ (by norm_num) (by norm_num)

end RoundTrips

end LayerInference.NumberTexts
