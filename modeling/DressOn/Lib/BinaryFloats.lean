import Mathlib

/-!
# Binary floating-point numbers

A format rounds a rational to the nearest multiple of its spacing there, ties to the
even multiple. A finite number carries the proof that rounding leaves it alone, so every
operation is the exact one followed by one rounding. There is one zero.
-/

namespace DressOn.Lib.BinaryFloats

/-- A binary format: the bits of a significand, the exponent of its least spacing, and the
exponent from which a magnitude overflows. -/
structure Format where
  precision : ℕ
  leastSpacing : ℤ
  overflow : ℤ
  precise : 0 < precision
deriving DecidableEq

/-! ## Rounding -/

/-- The nearest integer, a tie to the even one. -/
def nearestEven (x : ℚ) : ℤ :=
  if x - ⌊x⌋ < 1 / 2 then ⌊x⌋
  else if 1 / 2 < x - ⌊x⌋ then ⌊x⌋ + 1
  else if ⌊x⌋ % 2 = 0 then ⌊x⌋
  else ⌊x⌋ + 1

/-- An integer is its own nearest integer. -/
theorem nearestEven_intCast (k : ℤ) : nearestEven (k : ℚ) = k := by
  simp [nearestEven]

/-- Only what lies past an integer is rounded up from it. -/
theorem nearestEven_eq (x : ℚ) :
    nearestEven x = ⌊x⌋ ∨ nearestEven x = ⌊x⌋ + 1 ∧ (⌊x⌋ : ℚ) < x := by
  unfold nearestEven
  split
  · exact .inl rfl
  next half =>
    have past : (⌊x⌋ : ℚ) < x := by linarith
    split
    · exact .inr ⟨rfl, past⟩
    · split
      · exact .inl rfl
      · exact .inr ⟨rfl, past⟩

/-- The nearest integer stays within integer bounds. -/
theorem abs_nearestEven_le {x : ℚ} {bound : ℤ} (within : |x| ≤ bound) :
    |nearestEven x| ≤ bound := by
  obtain ⟨low, high⟩ := abs_le.mp within
  have floorLow : -bound ≤ ⌊x⌋ := Int.le_floor.mpr (by exact_mod_cast low)
  refine abs_le.mpr ?_
  obtain down | ⟨up, past⟩ := nearestEven_eq x
  · have floorHigh : ⌊x⌋ ≤ bound := by exact_mod_cast (Int.floor_le x).trans high
    exact ⟨down ▸ floorLow, down ▸ floorHigh⟩
  · have floorHigh : ⌊x⌋ < bound := by exact_mod_cast past.trans_le high
    exact ⟨by omega, by omega⟩

namespace Format

variable (f : Format)

/-- The exponent of the spacing around a rational. -/
def spacing (q : ℚ) : ℤ := max (Int.log 2 |q| - f.precision + 1) f.leastSpacing

/-- A rational rounded to the format, as if no magnitude overflowed. -/
def round (q : ℚ) : ℚ := nearestEven (q / 2 ^ f.spacing q) * 2 ^ f.spacing q

variable {f}

/-- A rational that is a multiple of the spacing around it is not rounded. -/
theorem round_of_multiple {q : ℚ} {k : ℤ} (multiple : q = k * 2 ^ f.spacing q) :
    f.round q = q := by
  have quotient : q / 2 ^ f.spacing q = k := by
    rw [div_eq_iff (by positivity)]
    exact multiple
  rw [round, quotient, nearestEven_intCast, ← multiple]

/-- A multiple of a spacing is a multiple of every smaller one. -/
theorem multiple_of_le {q : ℚ} {k e e' : ℤ} (multiple : q = k * 2 ^ e) (smaller : e' ≤ e) :
    ∃ k' : ℤ, q = k' * 2 ^ e' := by
  obtain ⟨gap, rfl⟩ := Int.le.dest smaller
  refine ⟨k * 2 ^ gap, ?_⟩
  rw [multiple, zpow_add₀ (by norm_num)]
  push_cast
  rw [zpow_natCast]
  ring

/-- A significand that fits the precision is not rounded. -/
theorem round_scaled {k e : ℤ} (fits : |k| ≤ 2 ^ f.precision) (coarse : f.leastSpacing ≤ e) :
    f.round (k * 2 ^ e) = k * 2 ^ e := by
  have positive : (0 : ℚ) < 2 ^ e := by positivity
  have magnitude : |(k * 2 ^ e : ℚ)| = |(k : ℚ)| * 2 ^ e := by
    rw [abs_mul, abs_of_pos positive]
  rcases fits.lt_or_eq with small | full
  · -- the spacing around it is at most the one it is a multiple of
    by_cases zero : k = 0
    · subst zero
      exact round_of_multiple (k := 0) (by simp)
    · have below : |(k * 2 ^ e : ℚ)| < 2 ^ (f.precision + e) := by
        rw [magnitude, zpow_add₀ (by norm_num), zpow_natCast]
        exact mul_lt_mul_of_pos_right (by exact_mod_cast small) positive
      have some : 0 < |(k * 2 ^ e : ℚ)| := by positivity
      have log : Int.log 2 |(k * 2 ^ e : ℚ)| < f.precision + e := by
        have bounds := (Int.zpow_log_le_self (b := 2) (by norm_num) some).trans_lt below
        exact (zpow_lt_zpow_iff_right₀ (by norm_num)).mp bounds
      have finer : f.spacing (k * 2 ^ e) ≤ e := max_le (by omega) coarse
      obtain ⟨k', multiple⟩ := multiple_of_le (rfl : (k * 2 ^ e : ℚ) = k * 2 ^ e) finer
      exact round_of_multiple multiple
  · -- a power of two opens the next binade, whose spacing still divides it
    have exact_power : |(k * 2 ^ e : ℚ)| = ((2 : ℕ) : ℚ) ^ (f.precision + e) := by
      have cast : |(k : ℚ)| = 2 ^ f.precision := by exact_mod_cast full
      rw [magnitude, cast, Nat.cast_two, zpow_add₀ (by norm_num), zpow_natCast]
    have spacing_eq : f.spacing (k * 2 ^ e) = e + 1 := by
      rw [spacing, exact_power, Int.log_zpow (by norm_num)]
      rw [max_eq_left (by omega)]
      omega
    obtain ⟨half, halves⟩ : ∃ half : ℤ, k = half * 2 := by
      have even : (2 : ℤ) ∣ |k| := full ▸ dvd_pow_self 2 f.precise.ne'
      obtain ⟨half, halves⟩ := (dvd_abs 2 k).mp even
      exact ⟨half, by omega⟩
    refine round_of_multiple (k := half) ?_
    rw [spacing_eq, halves, zpow_add₀ (by norm_num)]
    push_cast
    ring

/-- What is rounded is not rounded again. -/
theorem round_round (q : ℚ) : f.round (f.round q) = f.round q := by
  refine round_scaled ?_ (le_max_right _ _)
  refine abs_nearestEven_le ?_
  have positive : (0 : ℚ) < 2 ^ f.spacing q := by positivity
  rw [abs_div, abs_of_pos positive, div_le_iff₀ positive]
  push_cast
  have log : Int.log 2 |q| + 1 ≤ f.precision + f.spacing q := by
    have least : Int.log 2 |q| - f.precision + 1 ≤ f.spacing q := le_max_left _ _
    omega
  calc |q| ≤ 2 ^ (Int.log 2 |q| + 1) := by
        exact_mod_cast (Int.lt_zpow_succ_log_self (b := 2) (by norm_num) |q|).le
    _ ≤ 2 ^ (f.precision + f.spacing q) := zpow_le_zpow_right₀ (by norm_num) log
    _ = 2 ^ f.precision * 2 ^ f.spacing q := by rw [zpow_add₀ (by norm_num), zpow_natCast]

/-- Zero is not rounded. -/
theorem round_zero : f.round 0 = 0 := round_of_multiple (k := 0) (by simp)

end Format

/-! ## Numbers -/

/-- A number of a format. -/
inductive Number (f : Format) where
  | finite (value : ℚ) (exact : f.round value = value) (bounded : |value| < 2 ^ f.overflow)
  | infinity (negative : Bool)
  | nan
deriving DecidableEq

namespace Number

variable {f : Format}

/-- The rational rounded to a number; a magnitude that overflows is infinite. -/
def ofRat (q : ℚ) : Number f :=
  if bounded : |f.round q| < 2 ^ f.overflow then .finite (f.round q) (f.round_round q) bounded
  else .infinity (q < 0)

/-- Rounding a finite number gives it back. -/
theorem ofRat_value {q : ℚ} (exact : f.round q = q) (bounded : |q| < 2 ^ f.overflow) :
    (ofRat q : Number f) = .finite q exact bounded := by
  have same : |f.round q| < 2 ^ f.overflow := by rwa [exact]
  rw [ofRat, dif_pos same]
  simp only [exact]

instance : Zero (Number f) := ⟨ofRat 0⟩

instance : One (Number f) := ⟨ofRat 1⟩

/-- Zero is finite in every format. -/
theorem zero_eq : (0 : Number f) = .finite 0 Format.round_zero (by simp; positivity) :=
  ofRat_value _ _

/-- The number converted to another format. -/
def convert {f' : Format} : Number f → Number f'
  | .finite q _ _ => ofRat q
  | .infinity negative => .infinity negative
  | .nan => .nan

/-- The sign of a number that is neither zero nor a NaN is negative. -/
def negative : Number f → Bool
  | .finite q _ _ => q < 0
  | .infinity negative => negative
  | .nan => false

/-- `isfinite`. -/
def isFinite : Number f → Bool
  | .finite _ _ _ => true
  | .infinity _ => false
  | .nan => false

/-- The number is zero. -/
def isZero : Number f → Bool
  | .finite q _ _ => q = 0
  | .infinity _ => false
  | .nan => false

/-- The negated number. -/
def neg : Number f → Number f
  | .finite q _ _ => ofRat (-q)
  | .infinity negative => .infinity !negative
  | .nan => .nan

instance : Neg (Number f) := ⟨neg⟩

/-- `fabs`. -/
def abs : Number f → Number f
  | .finite q _ _ => ofRat |q|
  | .infinity _ => .infinity false
  | .nan => .nan

/-- The rounded sum; opposite infinities have none. -/
def add : Number f → Number f → Number f
  | .finite q _ _, .finite r _ _ => ofRat (q + r)
  | .finite _ _ _, .infinity negative => .infinity negative
  | .infinity negative, .finite _ _ _ => .infinity negative
  | .infinity left, .infinity right => if left = right then .infinity left else .nan
  | .nan, _ => .nan
  | _, .nan => .nan

instance : Add (Number f) := ⟨add⟩

instance : Sub (Number f) := ⟨fun a b => add a (neg b)⟩

/-- The rounded product; zero times infinity has none. -/
def mul (a b : Number f) : Number f :=
  match a, b with
  | .finite q _ _, .finite r _ _ => ofRat (q * r)
  | .nan, _ => .nan
  | _, .nan => .nan
  | a, b => if a.isZero || b.isZero then .nan else .infinity (xor a.negative b.negative)

instance : Mul (Number f) := ⟨mul⟩

/-- The rounded quotient; a number over zero is infinite. -/
def div : Number f → Number f → Number f
  | .finite q _ _, .finite r _ _ =>
      if r ≠ 0 then ofRat (q / r) else if q ≠ 0 then .infinity (q < 0) else .nan
  | .finite _ _ _, .infinity _ => 0
  | .infinity negative, .finite r _ _ => .infinity (xor negative (r < 0))
  | .infinity _, .infinity _ => .nan
  | .nan, _ => .nan
  | _, .nan => .nan

instance : Div (Number f) := ⟨div⟩

/-- `fma`: the sum with an unrounded product. -/
def fma : Number f → Number f → Number f → Number f
  | .finite q _ _, .finite r _ _, .finite s _ _ => ofRat (q * r + s)
  | .finite _ _ _, .finite _ _ _, c => c
  | a, b, c => a * b + c

theorem add_def (a b : Number f) : a + b = add a b := rfl

theorem mul_def (a b : Number f) : a * b = mul a b := rfl

/-- A product with an infinity is rounded or not alike. -/
theorem fma_infinity (a c : Number f) (negative : Bool) :
    fma a (.infinity negative) c = a * .infinity negative + c := by
  cases a <;> rfl

/-- The digits of a square root that decide its rounding: the root cut off two bits past the
precision, and half a unit more where it is not exact. -/
def sqrtDigits (f : Format) (q : ℚ) : ℚ :=
  let shift := f.precision + 1 - Int.log 2 q / 2
  let scaled := q * 4 ^ shift
  let root := Nat.sqrt ⌊scaled⌋₊
  (if (root : ℚ) * root = scaled then (root : ℚ) else root + 1 / 2) / 2 ^ shift

/-- `sqrt`. -/
def sqrt : Number f → Number f
  | .finite q _ _ => if q = 0 then 0 else if q < 0 then .nan else ofRat (sqrtDigits f q)
  | .infinity negative => if negative then .nan else .infinity false
  | .nan => .nan

/-- The ordered comparison `<`. -/
def lt : Number f → Number f → Bool
  | .finite q _ _, .finite r _ _ => q < r
  | .finite _ _ _, .infinity negative => !negative
  | .infinity negative, .finite _ _ _ => negative
  | .infinity left, .infinity right => left && !right
  | .nan, _ => false
  | _, .nan => false

/-- The comparison `==`, which a NaN fails. -/
def eq (a b : Number f) : Bool := a = b ∧ a ≠ .nan

/-- The ordered comparison `<=`. -/
def le (a b : Number f) : Bool := a.lt b || a.eq b

/-- No number is less than itself. -/
@[simp]
theorem lt_self (a : Number f) : a.lt a = false := by
  cases a <;> simp [lt]

/-- Zero is at most itself. -/
@[simp]
theorem zero_le_zero : (0 : Number f).le 0 = true := by
  rw [zero_eq]
  simp [le, eq]

/-- Zero times a finite number is zero. -/
theorem zero_mul_finite {y : Number f} (finite : y.isFinite = true) : 0 * y = 0 := by
  cases y with
  | finite r exact bounded =>
      rw [zero_eq]
      change ofRat (0 * r) = _
      rw [zero_mul]
      exact ofRat_value _ _
  | infinity negative => simp [isFinite] at finite
  | nan => simp [isFinite] at finite

/-- One times a number, plus zero, is the number. -/
theorem fma_one_zero {exact : f.round 1 = 1} {bounded : |(1 : ℚ)| < 2 ^ f.overflow}
    (x : Number f) : fma (.finite 1 exact bounded) x 0 = x := by
  rw [zero_eq]
  cases x with
  | finite q exactQ boundedQ =>
      change ofRat (1 * q + 0) = _
      rw [one_mul, add_zero]
      exact ofRat_value _ _
  | infinity negative =>
      have sign : ¬ (1 : ℚ) < 0 := by norm_num
      rw [fma_infinity, mul_def, add_def]
      simp [mul, add, isZero, Number.negative, sign]
  | nan => rfl

end Number

end DressOn.Lib.BinaryFloats
