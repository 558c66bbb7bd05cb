import C2c.Library.BigDecimal
import Mathlib.Algebra.Order.Field.Rat
import Mathlib.Tactic.FieldSimp
import Mathlib.Tactic.Ring

/-!
The arithmetic of `java.math.BigDecimal`, and the numbers its values stand for.
-/

namespace C2c.Library.BigDecimal

open C2c.Library.JavaText
open C2c.Library.JavaObject

section Operations

/-- The number a decimal stands for. -/
def toRat (x : BigDecimal) : Rat :=
  x.unscaled * (10 : Rat) ^ (-x.scale)

/-- An operation on the unscaled values at the larger of two scales. -/
def combine (f : Int → Int → Int) (x y : BigDecimal) : Except JavaException BigDecimal := do
  let x' ← x.setScale halfEven (max x.scale y.scale)
  let y' ← y.setScale halfEven (max x.scale y.scale)
  make (f x'.unscaled y'.unscaled) (max x.scale y.scale)

def add : BigDecimal → BigDecimal → Except JavaException BigDecimal :=
  combine (· + ·)

def subtract : BigDecimal → BigDecimal → Except JavaException BigDecimal :=
  combine (· - ·)

/-- The scale is checked for the first factor only. -/
def multiply (x y : BigDecimal) : Except JavaException BigDecimal := do
  let scale ← x.checkScale (x.scale + y.scale)
  make (x.unscaled * y.unscaled) scale

/-- A number behind `n` more zeros; there are none behind zero. -/
def withZeros (x : BigDecimal) (n : Nat) : Except JavaException Int := do
  if x.unscaled = 0 then return 0
  let factor ← powerOfTen n
  let y ← make (x.unscaled * factor) 0
  return y.unscaled

/-- `divide(BigDecimal, int, RoundingMode)` by a number that is not zero. -/
def divide (round : Int → Nat → Int) (x y : BigDecimal) (scale : Int) :
    Except JavaException BigDecimal := do
  let newScale ← x.checkScale (scale + y.scale)
  if x.scale < newScale then
    let dividend ← x.withZeros (scale + y.scale - x.scale).toNat
    make (round (dividend * y.unscaled.sign) y.unscaled.natAbs) scale
  else
    let newScale ← y.checkScale (x.scale - scale)
    let divisor ← y.withZeros (newScale - y.scale).toNat
    make (round (x.unscaled * divisor.sign) divisor.natAbs) scale

/-- `ZERO`. -/
def zero : BigDecimal :=
  ⟨0, 0, by decide⟩

end Operations

section Range

/-- What is raised when a number leaves the range of the library. -/
def LeavesRange (e : JavaException) : Prop :=
  e = overflow ∨ e = .arithmetic "Underflow".toList ∨ e = .arithmetic "Overflow".toList

variable {A B : Type}

/-- A computation that raises only where a number leaves the range. -/
def Ranged (m : Except JavaException A) : Prop :=
  ∀ e, m = .error e → LeavesRange e

theorem ranged_ok (a : A) : Ranged (.ok a) :=
  nofun

theorem ranged_overflow : Ranged (.error overflow : Except JavaException A) := by
  rintro e h
  obtain rfl := Except.error.inj h
  exact .inl rfl

theorem Ranged.bind {m : Except JavaException A} {f : A → Except JavaException B} (hm : Ranged m)
    (hf : ∀ a, m = .ok a → Ranged (f a)) : Ranged (m >>= f) := by
  cases h : m with
  | ok a => exact hf a h
  | error e =>
      intro e' he'
      obtain rfl := Except.error.inj he'
      exact hm e h

theorem ranged_powerOfTen (n : Nat) : Ranged (powerOfTen n) := by
  unfold powerOfTen
  split
  · exact ranged_ok _
  · exact ranged_overflow

theorem ranged_make (unscaled scale : Int) : Ranged (make unscaled scale) := by
  unfold make
  split
  · exact ranged_ok _
  · exact ranged_overflow

theorem ranged_checkScale (x : BigDecimal) (scale : Int) : Ranged (x.checkScale scale) := by
  unfold checkScale
  intro e he
  split_ifs at he with hlarge hzero hsmall hzero'
  · obtain rfl := Except.error.inj he
    exact .inr (.inl rfl)
  · obtain rfl := Except.error.inj he
    exact .inr (.inr rfl)

theorem ranged_setScale (round : Int → Nat → Int) (scale : Int) (x : BigDecimal) :
    Ranged (setScale round scale x) := by
  unfold setScale
  split_ifs with hself hraise hzero
  · exact ranged_ok _
  · exact (ranged_checkScale x _).bind fun _ _ => ranged_make _ _
  · refine (ranged_checkScale x _).bind fun raise _ => ?_
    exact (ranged_powerOfTen _).bind fun factor _ => ranged_make _ _
  · refine (ranged_checkScale x _).bind fun drop _ => ?_
    exact (ranged_powerOfTen _).bind fun divisor _ => ranged_make _ _

theorem ranged_combine (f : Int → Int → Int) (x y : BigDecimal) : Ranged (combine f x y) :=
  (ranged_setScale _ _ x).bind fun _ _ => (ranged_setScale _ _ y).bind fun _ _ => ranged_make _ _

theorem ranged_multiply (x y : BigDecimal) : Ranged (multiply x y) :=
  (ranged_checkScale x _).bind fun _ _ => ranged_make _ _

theorem ranged_withZeros (x : BigDecimal) (n : Nat) : Ranged (x.withZeros n) := by
  unfold withZeros
  split_ifs
  · exact ranged_ok _
  · exact (ranged_powerOfTen n).bind fun _ _ => (ranged_make _ _).bind fun _ _ => ranged_ok _

theorem ranged_divide (round : Int → Nat → Int) (x y : BigDecimal) (scale : Int) :
    Ranged (divide round x y scale) := by
  unfold divide
  refine (ranged_checkScale x _).bind fun _ _ => ?_
  split_ifs
  · exact (ranged_withZeros x _).bind fun _ _ => ranged_make _ _
  · refine (ranged_checkScale y _).bind fun _ _ => ?_
    exact (ranged_withZeros y _).bind fun _ _ => ranged_make _ _

end Range

section Exactness

variable {x y z : BigDecimal} {scale : Int} {round : Int → Nat → Int}

/-- A number at a larger scale has more zeros. -/
theorem unscaled_of_raise (hle : x.scale ≤ scale) (h : setScale round scale x = .ok y) :
    y.unscaled = x.unscaled * 10 ^ (scale - x.scale).toNat := by
  unfold setScale at h
  split_ifs at h with hself hraise hzero
  · obtain rfl := Except.ok.inj h
    rw [hself, sub_self]
    simp
  · obtain ⟨raise, -, hmake⟩ := bind_eq_ok h
    rw [(make_eq_ok.mp hmake).1, hzero, zero_mul]
  · obtain ⟨raise, hcheck, hpower⟩ := bind_eq_ok h
    obtain ⟨factor, hfactor, hmake⟩ := bind_eq_ok hpower
    rw [(make_eq_ok.mp hmake).1, (powerOfTen_eq_ok.mp hfactor).2]
    have hsame : raise = scale - x.scale := by
      unfold checkScale at hcheck
      rw [if_neg hzero, if_neg hzero] at hcheck
      split_ifs at hcheck
      exact (Except.ok.inj hcheck).symm
    rw [hsame]
    push_cast
    rfl
  · exact absurd (lt_of_le_of_ne hle (Ne.symm hself)) hraise

/-- It stands for the same number. -/
theorem toRat_of_raise (hle : x.scale ≤ scale) (h : setScale round scale x = .ok y) :
    y.toRat = x.toRat := by
  obtain ⟨n, hn⟩ := Int.eq_ofNat_of_zero_le (sub_nonneg.mpr hle)
  rw [toRat, toRat, scale_of_setScale h, unscaled_of_raise hle h, hn, Int.toNat_natCast]
  have hscale : scale = x.scale + n := by omega
  rw [hscale, neg_add, zpow_add₀ (by norm_num), zpow_neg 10 (n : Int), zpow_natCast]
  push_cast
  field_simp

/-- Two decimals of one scale that stand for one number are the same. -/
theorem ext_toRat (hscale : x.scale = y.scale) (h : x.toRat = y.toRat) : x = y := by
  obtain ⟨unscaled, scale, hx⟩ := x
  obtain ⟨unscaled', scale', hy⟩ := y
  obtain rfl : scale = scale' := hscale
  have heq := mul_right_cancel₀ (zpow_ne_zero _ (by norm_num)) h
  obtain rfl : unscaled = unscaled' := by exact_mod_cast heq
  rfl

theorem combine_eq_ok {f : Int → Int → Int} {g : Rat → Rat → Rat}
    (hfg : ∀ (m n : Int) (q : Rat), (f m n : Rat) * q = g (m * q) (n * q))
    (h : combine f x y = .ok z) :
    z.scale = max x.scale y.scale ∧ z.toRat = g x.toRat y.toRat := by
  obtain ⟨x', hx, h⟩ := bind_eq_ok h
  obtain ⟨y', hy, h⟩ := bind_eq_ok h
  obtain ⟨hunscaled, hscale⟩ := make_eq_ok.mp h
  refine ⟨hscale, ?_⟩
  rw [← toRat_of_raise (le_max_left _ _) hx, ← toRat_of_raise (le_max_right _ _) hy, toRat, toRat,
    toRat, hunscaled, hscale, scale_of_setScale hx, scale_of_setScale hy, hfg]

/-- A sum is exact. -/
theorem add_eq_ok (h : add x y = .ok z) :
    z.scale = max x.scale y.scale ∧ z.toRat = x.toRat + y.toRat :=
  combine_eq_ok (fun m n q => by push_cast; ring) h

/-- A difference is exact. -/
theorem subtract_eq_ok (h : subtract x y = .ok z) :
    z.scale = max x.scale y.scale ∧ z.toRat = x.toRat - y.toRat :=
  combine_eq_ok (fun m n q => by push_cast; ring) h

end Exactness

section Rounding

theorem halfEven_nonneg {n : Int} (h : 0 ≤ n) (d : Nat) : 0 ≤ halfEven n d := by
  unfold halfEven
  rw [if_neg (Int.not_lt.mpr h)]
  exact Int.natCast_nonneg _

/-- A rounded quotient is no larger than the dividend. -/
theorem natAbs_halfEven_le (n : Int) (d : Nat) : (halfEven n d).natAbs ≤ n.natAbs := by
  have hbound : (if d < 2 * (n.natAbs % d) ∨ (2 * (n.natAbs % d) = d ∧ n.natAbs / d % 2 = 1) then
      n.natAbs / d + 1 else n.natAbs / d) ≤ n.natAbs := by
    have hparts := Nat.div_add_mod n.natAbs d
    split_ifs with hround
    · rcases Nat.lt_or_ge 1 d with hd | hd
      · have hdouble : 2 * (n.natAbs / d) ≤ d * (n.natAbs / d) := Nat.mul_le_mul_right _ hd
        omega
      · rcases Nat.le_one_iff_eq_zero_or_eq_one.mp hd with rfl | rfl
        · simp only [Nat.mod_zero, Nat.div_zero] at hround ⊢
          omega
        · rw [Nat.mod_one] at hround
          omega
    · exact Nat.div_le_self _ _
  unfold halfEven
  dsimp only
  split
  · rw [Int.natAbs_neg, Int.natAbs_natCast]
    exact hbound
  · rw [Int.natAbs_natCast]
    exact hbound

/-- Rounding keeps a number from becoming negative. -/
theorem nonneg_of_setScale {x y : BigDecimal} {scale : Int} (hx : 0 ≤ x.unscaled)
    (h : setScale halfEven scale x = .ok y) : 0 ≤ y.unscaled := by
  rcases le_or_gt x.scale scale with hle | hlt
  · rw [unscaled_of_raise hle h]
    exact mul_nonneg hx (by positivity)
  · unfold setScale at h
    rw [if_neg hlt.ne, if_neg (not_lt.mpr hlt.le)] at h
    obtain ⟨drop, -, hpower⟩ := bind_eq_ok h
    obtain ⟨divisor, -, hmake⟩ := bind_eq_ok hpower
    rw [(make_eq_ok.mp hmake).1]
    exact halfEven_nonneg hx divisor

end Rounding

section Returning

variable {x y : BigDecimal} {scale : Int} {round : Int → Nat → Int}

/-- The magnitude of a number at a larger scale. -/
def magnitudeAt (scale : Int) (x : BigDecimal) : Nat :=
  x.unscaled.natAbs * 10 ^ (scale - x.scale).toNat

theorem checkScale_of_bounds {n : Int} (hlow : -(intMax + 1) ≤ n) (hhigh : n ≤ intMax) :
    x.checkScale n = .ok n := by
  unfold checkScale
  rw [if_neg (not_lt.mpr hhigh), if_neg (not_lt.mpr hlow)]

/-- A power of ten that a number is raised by is in the range if the result is. -/
theorem supported_power (hx : x.unscaled ≠ 0) {n : Nat}
    (h : supported (x.unscaled.natAbs * 10 ^ n) = true) :
    supported (10 ^ n) = true ∧ n ≤ intMax := by
  have hpower : supported (10 ^ n) = true :=
    supported_mono (Nat.le_mul_of_pos_left _ (Int.natAbs_pos.mpr hx)) h
  refine ⟨hpower, ?_⟩
  by_contra hlarge
  rw [not_supported_of_le (by omega)] at hpower
  cases hpower

theorem exists_raise (hle : x.scale ≤ scale) (h : supported (magnitudeAt scale x) = true) :
    ∃ y, setScale round scale x = .ok y := by
  unfold setScale
  split_ifs with hself hraise hzero
  · exact ⟨x, rfl⟩
  · obtain ⟨raise, hcheck⟩ : ∃ raise, x.checkScale (scale - x.scale) = .ok raise := by
      unfold checkScale
      split_ifs <;> exact ⟨_, rfl⟩
    rw [hcheck, ok_bind]
    exact ⟨⟨0, scale, by decide⟩, make_of_supported _⟩
  · obtain ⟨hpower, hint⟩ := supported_power hzero h
    rw [checkScale_of_bounds (by omega) (by omega), ok_bind, powerOfTen_of_supported hpower, ok_bind]
    refine ⟨_, make_of_supported ?_⟩
    rw [Int.natAbs_mul, Int.natAbs_natCast]
    exact h
  · exact absurd (lt_of_le_of_ne hle (Ne.symm hself)) hraise

theorem exists_drop (hlt : scale < x.scale) (hint : x.scale - scale ≤ intMax)
    (h : supported (10 ^ (x.scale - scale).toNat) = true) :
    ∃ y, setScale halfEven scale x = .ok y := by
  unfold setScale
  rw [if_neg hlt.ne, if_neg (not_lt.mpr hlt.le), checkScale_of_bounds (by omega) hint, ok_bind,
    powerOfTen_of_supported h, ok_bind]
  exact ⟨_, make_of_supported (supported_mono (natAbs_halfEven_le _ _) x.supported_unscaled)⟩

theorem exists_combine {f : Int → Int → Int} (hf : ∀ m n, (f m n).natAbs ≤ m.natAbs + n.natAbs)
    {scale : Int} (hx : x.scale ≤ scale) (hy : y.scale ≤ scale)
    (h : supported (magnitudeAt scale x + magnitudeAt scale y) = true) :
    ∃ z, combine f x y = .ok z ∧ magnitudeAt scale z ≤ magnitudeAt scale x + magnitudeAt scale y := by
  have hwiden (n : Int) (hn : n ≤ scale) {v : BigDecimal} (hv : v.scale ≤ n) :
      magnitudeAt scale v = magnitudeAt n v * 10 ^ (scale - n).toNat := by
    unfold magnitudeAt
    rw [mul_assoc, ← pow_add]
    congr 2
    omega
  have hmax : max x.scale y.scale ≤ scale := max_le hx hy
  have hx' := hwiden _ hmax (le_max_left x.scale y.scale)
  have hy' := hwiden _ hmax (le_max_right x.scale y.scale)
  have hpos : 0 < 10 ^ (scale - max x.scale y.scale).toNat := by positivity
  have hsum : supported (magnitudeAt (max x.scale y.scale) x +
      magnitudeAt (max x.scale y.scale) y) = true := by
    refine supported_mono ?_ h
    rw [hx', hy', ← add_mul]
    exact Nat.le_mul_of_pos_right _ hpos
  obtain ⟨x₁, hx₁⟩ := @exists_raise x _ halfEven (le_max_left _ _)
    (supported_mono (Nat.le_add_right _ _) hsum)
  obtain ⟨y₁, hy₁⟩ := @exists_raise y _ halfEven (le_max_right _ _)
    (supported_mono (Nat.le_add_left _ _) hsum)
  have hbound : (f x₁.unscaled y₁.unscaled).natAbs ≤
      magnitudeAt (max x.scale y.scale) x + magnitudeAt (max x.scale y.scale) y := by
    refine (hf _ _).trans (le_of_eq ?_)
    rw [unscaled_of_raise (le_max_left _ _) hx₁, unscaled_of_raise (le_max_right _ _) hy₁,
      Int.natAbs_mul, Int.natAbs_mul, Int.natAbs_pow, Int.natAbs_pow]
    rfl
  refine ⟨⟨_, max x.scale y.scale, supported_mono hbound hsum⟩, ?_, ?_⟩
  · unfold combine
    rw [hx₁, ok_bind, hy₁, ok_bind]
    exact make_of_supported _
  · rw [hx', hy', ← add_mul]
    exact Nat.mul_le_mul_right _ hbound

theorem exists_multiply (hlow : 0 ≤ x.scale + y.scale) (hhigh : x.scale + y.scale ≤ intMax)
    (h : supported (x.unscaled.natAbs * y.unscaled.natAbs) = true) :
    ∃ z, multiply x y = .ok z ∧ z.scale = x.scale + y.scale ∧
      z.unscaled = x.unscaled * y.unscaled := by
  unfold multiply
  rw [checkScale_of_bounds (by omega) hhigh, ok_bind]
  exact ⟨_, make_of_supported (by rwa [Int.natAbs_mul]), rfl, rfl⟩

theorem exists_withZeros {n : Nat} (h : supported (x.unscaled.natAbs * 10 ^ n) = true) :
    ∃ m, x.withZeros n = .ok m ∧ m = x.unscaled * 10 ^ n := by
  unfold withZeros
  split_ifs with hzero
  · exact ⟨0, rfl, by rw [hzero, zero_mul]⟩
  · rw [powerOfTen_of_supported (supported_power hzero h).1, ok_bind, make_of_supported (by
      rw [Int.natAbs_mul, Int.natAbs_natCast]
      exact h), ok_bind]
    exact ⟨_, rfl, by push_cast; rfl⟩

theorem natAbs_mul_sign_le (m n : Int) : (m * n.sign).natAbs ≤ m.natAbs := by
  rw [Int.natAbs_mul, Int.natAbs_sign]
  split
  · simp
  · rw [mul_one]

theorem exists_divide (hscale : x.scale ≤ scale) (hy : 0 ≤ y.scale) (hlow : 0 ≤ x.scale)
    (hhigh : scale + y.scale ≤ intMax)
    (h : supported (x.unscaled.natAbs * 10 ^ (scale + y.scale - x.scale).toNat) = true) :
    ∃ z, divide halfEven x y scale = .ok z ∧ z.scale = scale := by
  unfold divide
  rw [checkScale_of_bounds (by omega) hhigh, ok_bind]
  split_ifs with hraise
  · obtain ⟨m, hm, rfl⟩ := exists_withZeros h
    rw [hm, ok_bind]
    refine ⟨_, make_of_supported (supported_mono ?_ h), rfl⟩
    refine ((natAbs_halfEven_le _ _).trans (natAbs_mul_sign_le _ _)).trans (le_of_eq ?_)
    rw [Int.natAbs_mul, Int.natAbs_pow]
    rfl
  · have hsame : (x.scale - scale - y.scale).toNat = 0 := by omega
    rw [checkScale_of_bounds (by omega) (by omega), ok_bind, hsame]
    obtain ⟨m, hm, rfl⟩ := @exists_withZeros y 0 (by simpa using y.supported_unscaled)
    rw [hm, ok_bind]
    refine ⟨_, make_of_supported (supported_mono ?_ x.supported_unscaled), rfl⟩
    exact (natAbs_halfEven_le _ _).trans (natAbs_mul_sign_le _ _)

end Returning

end C2c.Library.BigDecimal
