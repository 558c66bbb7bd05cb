import C2c.Library.DecimalArithmetic
import C2c.Runtime.CobolDecimal

/-!
The arithmetic of `CobolDecimal`: what it throws, and the laws that hold of what
it returns.
-/

namespace C2c.Runtime.CobolDecimal

open C2c.Library
open C2c.Library.JavaText
open C2c.Library.JavaObject
open C2c.Library.BigDecimal (toRat Ranged LeavesRange magnitudeAt ok_bind)

section Operations

def zeroLike (prototype : CobolDecimal) : Except JavaException CobolDecimal :=
  construct .zero prototype.scale prototype.signed

def add (x other : CobolDecimal) : Except JavaException CobolDecimal := do
  let sum ← x.value.add other.value
  construct sum (max x.scale other.scale) (x.signed || other.signed)

def subtract (x other : CobolDecimal) : Except JavaException CobolDecimal := do
  let difference ← x.value.subtract other.value
  construct difference (max x.scale other.scale) true

def multiply (x other : CobolDecimal) : Except JavaException CobolDecimal := do
  let product ← x.value.multiply other.value
  construct product (max x.scale other.scale) (x.signed || other.signed)

def dividedByZero : JavaException :=
  .arithmetic "CobolDecimal divide by zero".toList

def divide (x other : CobolDecimal) : Except JavaException CobolDecimal := do
  if other.value.unscaled = 0 then throw dividedByZero
  let divided ← BigDecimal.divide BigDecimal.halfEven x.value other.value
    (max x.scale other.scale : Nat)
  construct divided (max x.scale other.scale) (x.signed || other.signed)

/-- `CobolDecimal.equals`. -/
def equals (x other : CobolDecimal) : Bool :=
  x.value.toRat = other.value.toRat

end Operations

section Closure

/-- A number that may be negative only if it is signed is only rounded. -/
theorem ranged_construct {value : BigDecimal} {scale : Nat} {signed : Bool}
    (hvalue : signed = false → 0 ≤ value.unscaled) : Ranged (construct value scale signed) := by
  intro e he
  unfold construct at he
  split at he
  · rename_i e' hscale
    obtain rfl := Except.error.inj he
    exact BigDecimal.ranged_setScale _ _ _ _ hscale
  · rename_i rescaled hscale
    split at he
    · rename_i hneg
      exact absurd (BigDecimal.nonneg_of_setScale (hvalue hneg.1) hscale) (Int.not_le.mpr hneg.2)
    · cases he

/-- Two numbers of which neither is signed are not negative. -/
theorem nonneg_of_unsigned {x y : CobolDecimal} (h : (x.signed || y.signed) = false) :
    0 ≤ x.value.unscaled ∧ 0 ≤ y.value.unscaled := by
  rw [Bool.or_eq_false_iff] at h
  exact ⟨x.nonneg h.1, y.nonneg h.2⟩

theorem ranged_zeroLike (x : CobolDecimal) : Ranged x.zeroLike :=
  ranged_construct fun _ => le_rfl

theorem sum_nonneg {x y : CobolDecimal} {sum : BigDecimal} (h : x.value.add y.value = .ok sum)
    (hsigned : (x.signed || y.signed) = false) : 0 ≤ sum.unscaled := by
  obtain ⟨hx, hy⟩ := nonneg_of_unsigned hsigned
  obtain ⟨x', hx', hrest⟩ := bind_eq_ok h
  obtain ⟨y', hy', hmake⟩ := bind_eq_ok hrest
  rw [(BigDecimal.make_eq_ok.mp hmake).1]
  exact add_nonneg (BigDecimal.nonneg_of_setScale hx hx') (BigDecimal.nonneg_of_setScale hy hy')

theorem product_nonneg {x y : CobolDecimal} {product : BigDecimal}
    (h : x.value.multiply y.value = .ok product) (hsigned : (x.signed || y.signed) = false) :
    0 ≤ product.unscaled := by
  obtain ⟨hx, hy⟩ := nonneg_of_unsigned hsigned
  obtain ⟨scale, -, hmake⟩ := bind_eq_ok h
  rw [(BigDecimal.make_eq_ok.mp hmake).1]
  exact mul_nonneg hx hy

theorem ranged_add (x y : CobolDecimal) : Ranged (x.add y) :=
  (BigDecimal.ranged_combine _ _ _).bind fun _ hsum => ranged_construct (sum_nonneg hsum)

theorem ranged_subtract (x y : CobolDecimal) : Ranged (x.subtract y) :=
  (BigDecimal.ranged_combine _ _ _).bind fun _ _ => ranged_construct nofun

theorem ranged_multiply (x y : CobolDecimal) : Ranged (x.multiply y) :=
  (BigDecimal.ranged_multiply _ _).bind fun _ hproduct =>
    ranged_construct (product_nonneg hproduct)

theorem nonneg_of_withZeros {x : BigDecimal} {n : Nat} {m : Int} (hx : 0 ≤ x.unscaled)
    (h : x.withZeros n = .ok m) : 0 ≤ m := by
  unfold BigDecimal.withZeros at h
  split_ifs at h
  · obtain rfl := Except.ok.inj h
    exact le_rfl
  · obtain ⟨factor, -, hrest⟩ := bind_eq_ok h
    obtain ⟨y, hmake, hpure⟩ := bind_eq_ok hrest
    obtain rfl := Except.ok.inj hpure
    rw [(BigDecimal.make_eq_ok.mp hmake).1]
    exact mul_nonneg hx (Int.natCast_nonneg _)

/-- A quotient of numbers that are not negative is not. -/
theorem nonneg_of_divide {x y z : BigDecimal} {scale : Int} (hx : 0 ≤ x.unscaled)
    (hy : 0 ≤ y.unscaled) (h : BigDecimal.divide BigDecimal.halfEven x y scale = .ok z) :
    0 ≤ z.unscaled := by
  unfold BigDecimal.divide at h
  obtain ⟨newScale, -, hrest⟩ := bind_eq_ok h
  split_ifs at hrest
  · obtain ⟨dividend, hdividend, hmake⟩ := bind_eq_ok hrest
    rw [(BigDecimal.make_eq_ok.mp hmake).1]
    exact BigDecimal.halfEven_nonneg
      (mul_nonneg (nonneg_of_withZeros hx hdividend) (Int.sign_nonneg_iff.mpr hy)) _
  · obtain ⟨newScale', -, hdivide⟩ := bind_eq_ok hrest
    obtain ⟨divisor, hdivisor, hmake⟩ := bind_eq_ok hdivide
    rw [(BigDecimal.make_eq_ok.mp hmake).1]
    exact BigDecimal.halfEven_nonneg
      (mul_nonneg hx (Int.sign_nonneg_iff.mpr (nonneg_of_withZeros hy hdivisor))) _

theorem divide_of_ne_zero {x y : CobolDecimal} (h : y.value.unscaled ≠ 0) :
    x.divide y = (do
      let divided ← BigDecimal.divide BigDecimal.halfEven x.value y.value (max x.scale y.scale : Nat)
      construct divided (max x.scale y.scale) (x.signed || y.signed)) := by
  unfold divide
  rw [if_neg h]

theorem ranged_divide {x y : CobolDecimal} (h : y.value.unscaled ≠ 0) : Ranged (x.divide y) := by
  rw [divide_of_ne_zero h]
  refine (BigDecimal.ranged_divide _ _ _ _).bind fun divided hdivided =>
    ranged_construct fun hsigned => ?_
  obtain ⟨hx, hy⟩ := nonneg_of_unsigned hsigned
  exact nonneg_of_divide hx hy hdivided

theorem ranged_rescale (x : CobolDecimal) {newScale : Int} (h : 0 ≤ newScale) :
    Ranged (x.rescale newScale) := by
  unfold rescale
  rw [if_neg (Int.not_lt.mpr h)]
  exact ranged_construct x.nonneg

end Closure

section Laws

variable {x y z : CobolDecimal}

/-- A decimal is its number, its scale and whether it is signed. -/
theorem ext_number (hnumber : x.value.toRat = y.value.toRat) (hscale : x.scale = y.scale)
    (hsigned : x.signed = y.signed) : x = y := by
  have hvalue : x.value = y.value :=
    BigDecimal.ext_toRat (by rw [x.value_scale, y.value_scale, hscale]) hnumber
  obtain ⟨value, scale, signed, _, _⟩ := x
  obtain ⟨value', scale', signed', _, _⟩ := y
  obtain rfl : value = value' := hvalue
  obtain rfl : scale = scale' := hscale
  obtain rfl : signed = signed' := hsigned
  rfl

/-- A number that has the scale already is taken as it is. -/
theorem construct_exact {value : BigDecimal} {scale : Nat} {signed : Bool}
    (hscale : value.scale = scale) (h : construct value scale signed = .ok z) :
    z.value = value ∧ z.scale = scale ∧ z.signed = signed := by
  obtain ⟨hset, hshape⟩ := construct_eq_ok h
  rw [← hscale, BigDecimal.setScale_self] at hset
  exact ⟨(Except.ok.inj hset).symm, hshape⟩

theorem max_scale (x y : CobolDecimal) :
    max x.value.scale y.value.scale = (max x.scale y.scale : Nat) := by
  rw [x.value_scale, y.value_scale, Nat.cast_max]

/-- A sum is exact. -/
theorem add_eq_ok (h : x.add y = .ok z) :
    z.value.toRat = x.value.toRat + y.value.toRat ∧ z.scale = max x.scale y.scale ∧
      z.signed = (x.signed || y.signed) := by
  obtain ⟨sum, hsum, hconstruct⟩ := bind_eq_ok h
  obtain ⟨hscale, hnumber⟩ := BigDecimal.add_eq_ok hsum
  obtain ⟨rfl, hshape⟩ := construct_exact (hscale.trans (max_scale x y)) hconstruct
  exact ⟨hnumber, hshape⟩

/-- A difference is exact and signed. -/
theorem subtract_eq_ok (h : x.subtract y = .ok z) :
    z.value.toRat = x.value.toRat - y.value.toRat ∧ z.scale = max x.scale y.scale ∧
      z.signed = true := by
  obtain ⟨difference, hdifference, hconstruct⟩ := bind_eq_ok h
  obtain ⟨hscale, hnumber⟩ := BigDecimal.subtract_eq_ok hdifference
  obtain ⟨rfl, hshape⟩ := construct_exact (hscale.trans (max_scale x y)) hconstruct
  exact ⟨hnumber, hshape⟩

theorem multiply_eq_ok (h : x.multiply y = .ok z) :
    z.scale = max x.scale y.scale ∧ z.signed = (x.signed || y.signed) := by
  obtain ⟨product, -, hconstruct⟩ := bind_eq_ok h
  exact (construct_eq_ok hconstruct).2

theorem divide_eq_ok (h : x.divide y = .ok z) :
    z.scale = max x.scale y.scale ∧ z.signed = (x.signed || y.signed) := by
  by_cases hzero : y.value.unscaled = 0
  · unfold divide at h
    rw [if_pos hzero] at h
    cases h
  · rw [divide_of_ne_zero hzero] at h
    obtain ⟨divided, -, hconstruct⟩ := bind_eq_ok h
    exact (construct_eq_ok hconstruct).2

/-- Only the number of the smaller scale is raised. -/
theorem combine_of_le {f : Int → Int → Int} {u v : BigDecimal} (h : u.scale ≤ v.scale) :
    BigDecimal.combine f u v = (do
        let u' ← u.setScale BigDecimal.halfEven v.scale
        BigDecimal.make (f u'.unscaled v.unscaled) v.scale) ∧
      BigDecimal.combine f v u = (do
        let u' ← u.setScale BigDecimal.halfEven v.scale
        BigDecimal.make (f v.unscaled u'.unscaled) v.scale) := by
  unfold BigDecimal.combine
  rw [max_eq_right h, max_eq_left h, BigDecimal.setScale_self]
  exact ⟨rfl, rfl⟩

/-- A sum does not depend on the order of its parts. -/
theorem sum_comm (x y : CobolDecimal) : x.add y = y.add x := by
  have hvalues : x.value.add y.value = y.value.add x.value := by
    unfold BigDecimal.add
    rcases le_total x.value.scale y.value.scale with h | h
    · rw [(combine_of_le h).1, (combine_of_le h).2]
      simp only [add_comm]
    · rw [(combine_of_le h).1, (combine_of_le h).2]
      simp only [add_comm]
  unfold add
  rw [hvalues, max_comm, Bool.or_comm]

/-- Nor on how they are grouped. -/
theorem sum_assoc {a b c ab bc left right : CobolDecimal} (hab : a.add b = .ok ab)
    (hleft : ab.add c = .ok left) (hbc : b.add c = .ok bc) (hright : a.add bc = .ok right) :
    left = right := by
  obtain ⟨hab, habScale, habSigned⟩ := add_eq_ok hab
  obtain ⟨hleft, hleftScale, hleftSigned⟩ := add_eq_ok hleft
  obtain ⟨hbc, hbcScale, hbcSigned⟩ := add_eq_ok hbc
  obtain ⟨hright, hrightScale, hrightSigned⟩ := add_eq_ok hright
  apply ext_number
  · rw [hleft, hab, hright, hbc, add_assoc]
  · rw [hleftScale, habScale, hrightScale, hbcScale, max_assoc]
  · rw [hleftSigned, habSigned, hrightSigned, hbcSigned, Bool.or_assoc]

/-- What was subtracted is added again. -/
theorem equals_of_subtract_add {a b d r : CobolDecimal} (hd : a.subtract b = .ok d)
    (hr : d.add b = .ok r) : r.equals a = true := by
  obtain ⟨hd, -⟩ := subtract_eq_ok hd
  obtain ⟨hr, -⟩ := add_eq_ok hr
  rw [equals, decide_eq_true_iff, hr, hd, sub_add_cancel]

end Laws

section Returning

variable {x y : CobolDecimal} {scale : Nat}

theorem exists_construct {value : BigDecimal} {signed : Bool}
    (hvalue : signed = false → 0 ≤ value.unscaled)
    (h : ∃ rescaled, value.setScale BigDecimal.halfEven scale = .ok rescaled) :
    ∃ z, construct value scale signed = .ok z := by
  obtain ⟨rescaled, hset⟩ := h
  unfold construct
  split
  · rename_i e herror
    rw [hset] at herror
    cases herror
  · rename_i rescaled' hset'
    rw [dif_neg]
    · exact ⟨_, rfl⟩
    · rintro ⟨hsigned, hneg⟩
      exact absurd (BigDecimal.nonneg_of_setScale (hvalue hsigned) hset') (Int.not_le.mpr hneg)

theorem exists_zeroLike (x : CobolDecimal) : ∃ z, x.zeroLike = .ok z :=
  exists_construct (fun _ => le_rfl)
    (BigDecimal.exists_raise (Int.natCast_nonneg _) (by
      rw [magnitudeAt, BigDecimal.zero, Int.natAbs_zero, zero_mul]
      decide))

/-- A sum returns where the magnitudes of its parts add up within the range. -/
theorem exists_add (hx : x.scale ≤ scale) (hy : y.scale ≤ scale)
    (h : BigDecimal.supported (magnitudeAt scale x.value + magnitudeAt scale y.value) = true) :
    ∃ z, x.add y = .ok z ∧
      magnitudeAt scale z.value ≤ magnitudeAt scale x.value + magnitudeAt scale y.value := by
  obtain ⟨sum, hsum, hmagnitude⟩ := BigDecimal.exists_combine Int.natAbs_add_le
    (by rw [x.value_scale]; exact Int.ofNat_le.mpr hx)
    (by rw [y.value_scale]; exact Int.ofNat_le.mpr hy) h
  have hscale := (BigDecimal.add_eq_ok hsum).1.trans (max_scale x y)
  refine ⟨⟨sum, _, _, hscale, sum_nonneg hsum⟩, ?_, hmagnitude⟩
  unfold add BigDecimal.add
  rw [hsum, ok_bind, construct_self hscale (sum_nonneg hsum)]

theorem exists_subtract (hx : x.scale ≤ scale) (hy : y.scale ≤ scale)
    (h : BigDecimal.supported (magnitudeAt scale x.value + magnitudeAt scale y.value) = true) :
    ∃ z, x.subtract y = .ok z ∧
      magnitudeAt scale z.value ≤ magnitudeAt scale x.value + magnitudeAt scale y.value := by
  obtain ⟨difference, hdifference, hmagnitude⟩ := BigDecimal.exists_combine Int.natAbs_sub_le
    (by rw [x.value_scale]; exact Int.ofNat_le.mpr hx)
    (by rw [y.value_scale]; exact Int.ofNat_le.mpr hy) h
  have hscale := (BigDecimal.subtract_eq_ok hdifference).1.trans (max_scale x y)
  refine ⟨⟨difference, _, true, hscale, nofun⟩, ?_, hmagnitude⟩
  unfold subtract BigDecimal.subtract
  rw [hdifference, ok_bind]
  exact @construct_self difference _ true hscale nofun

end Returning

section Digits

/-- A number of at most so many digits, in all and behind the point. -/
structure Digits (k : Nat) (x : CobolDecimal) : Prop where
  unscaled : x.value.unscaled.natAbs ≤ 10 ^ k
  scale : x.scale ≤ k

variable {k : Nat} {x y : CobolDecimal}

theorem Digits.magnitudeAt_le (h : Digits k x) : magnitudeAt k x.value ≤ 10 ^ (2 * k) := by
  have hzeros : (k - x.value.scale).toNat ≤ k := by
    rw [x.value_scale]
    omega
  calc magnitudeAt k x.value
      ≤ 10 ^ k * 10 ^ k :=
        Nat.mul_le_mul h.unscaled (Nat.pow_le_pow_right (by decide) hzeros)
    _ = 10 ^ (2 * k) := by rw [← pow_add, two_mul]

theorem two_powers_le : 10 ^ (2 * k) + 10 ^ (2 * k) ≤ 10 ^ (3 * k + 1) :=
  calc 10 ^ (2 * k) + 10 ^ (2 * k) ≤ 10 ^ (2 * k) * 10 := by omega
    _ = 10 ^ (2 * k + 1) := (pow_succ _ _).symm
    _ ≤ 10 ^ (3 * k + 1) := Nat.pow_le_pow_right (by decide) (by omega)

theorem lt_intMax_of_supported (h : BigDecimal.supported (10 ^ k) = true) : k < intMax := by
  by_contra hlarge
  rw [BigDecimal.not_supported_of_le (by omega)] at h
  cases h

variable (hk : BigDecimal.supported (10 ^ (3 * k + 1)) = true)
include hk

theorem supported_of_le {n m : Nat} (hm : m ≤ 3 * k + 1) (hn : n ≤ 10 ^ m) :
    BigDecimal.supported n = true :=
  BigDecimal.supported_mono (hn.trans (Nat.pow_le_pow_right (by decide) hm)) hk

theorem Digits.supported_sum (hx : Digits k x) (hy : Digits k y) :
    BigDecimal.supported (magnitudeAt k x.value + magnitudeAt k y.value) = true :=
  BigDecimal.supported_mono
    ((Nat.add_le_add hx.magnitudeAt_le hy.magnitudeAt_le).trans two_powers_le) hk

theorem exists_multiply (hx : Digits k x) (hy : Digits k y) : ∃ z, x.multiply y = .ok z := by
  have hint := lt_intMax_of_supported hk
  have hxs := hx.scale
  have hys := hy.scale
  obtain ⟨product, hproduct, hscale, -⟩ := @BigDecimal.exists_multiply x.value y.value
    (by rw [x.value_scale, y.value_scale]; omega) (by rw [x.value_scale, y.value_scale]; omega)
    (supported_of_le hk (m := 2 * k) (by omega) (by
      rw [two_mul, pow_add]
      exact Nat.mul_le_mul hx.unscaled hy.unscaled))
  rw [x.value_scale, y.value_scale] at hscale
  unfold multiply
  rw [hproduct, ok_bind]
  refine exists_construct (product_nonneg hproduct) ?_
  rcases (show ((max x.scale y.scale : Nat) : Int) ≤ product.scale by omega).eq_or_lt with heq | hlt
  · rw [heq]
    exact ⟨product, BigDecimal.setScale_self _ _⟩
  · refine BigDecimal.exists_drop hlt (by omega) (supported_of_le hk (m := k) (by omega) ?_)
    exact Nat.pow_le_pow_right (by decide) (by omega)

theorem exists_divide (hx : Digits k x) (hy : Digits k y) (hzero : y.value.unscaled ≠ 0) :
    ∃ z, x.divide y = .ok z := by
  have hint := lt_intMax_of_supported hk
  have hxs := hx.scale
  have hys := hy.scale
  obtain ⟨divided, hdivided, hscale⟩ := @BigDecimal.exists_divide x.value y.value
    (max x.scale y.scale : Nat) (by rw [x.value_scale]; omega) (by rw [y.value_scale]; omega)
    (by rw [x.value_scale]; omega) (by rw [y.value_scale]; omega)
    (supported_of_le hk (m := 3 * k) (by omega) (by
      rw [show 3 * k = k + 2 * k by omega, pow_add]
      refine Nat.mul_le_mul hx.unscaled (Nat.pow_le_pow_right (by decide) ?_)
      rw [x.value_scale, y.value_scale]
      omega))
  rw [divide_of_ne_zero hzero, hdivided, ok_bind]
  refine exists_construct ?_ ⟨divided, hscale ▸ BigDecimal.setScale_self _ _⟩
  intro hsigned
  obtain ⟨hnx, hny⟩ := nonneg_of_unsigned hsigned
  exact nonneg_of_divide hnx hny hdivided

theorem exists_rescale (hx : Digits k x) {newScale : Nat} (hnew : newScale ≤ k) :
    ∃ z, x.rescale newScale = .ok z := by
  have hint := lt_intMax_of_supported hk
  have hxs := hx.scale
  rw [rescale_natCast]
  refine exists_construct x.nonneg ?_
  rcases le_or_gt x.value.scale newScale with hle | hlt
  · refine BigDecimal.exists_raise hle (supported_of_le hk (m := 2 * k) (by omega) ?_)
    rw [two_mul, pow_add]
    refine Nat.mul_le_mul hx.unscaled (Nat.pow_le_pow_right (by decide) ?_)
    rw [x.value_scale]
    omega
  · rw [x.value_scale] at hlt
    refine BigDecimal.exists_drop (by rw [x.value_scale]; exact hlt) (by rw [x.value_scale]; omega)
      (supported_of_le hk (m := k) (by omega) ?_)
    refine Nat.pow_le_pow_right (by decide) ?_
    rw [x.value_scale]
    omega

end Digits

end C2c.Runtime.CobolDecimal
