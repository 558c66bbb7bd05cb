import C2c.Library.JavaObject
import Mathlib.Data.Nat.Digits.Defs
import Mathlib.Data.Int.Order.Basic

/-!
`java.math.BigDecimal` over the range `BigInteger` documents, and the texts it
is read from, as UTF-16 code units.
-/

namespace C2c.Library.BigDecimal

open C2c.Library.JavaText
open C2c.Library.JavaObject

@[simp] theorem ok_bind {A B : Type} (a : A) (f : A → Except JavaException B) :
    (Except.ok a >>= f) = f a := rfl

section Units

/-- A `java.lang.String`, as the list of its code units. -/
abbrev Units := List UInt16

/-- The code unit of a character of the basic plane. -/
def unit (c : Char) : UInt16 :=
  UInt16.ofNat c.toNat

/-- The UTF-16 encoding of a text. -/
def units (t : Text) : Units :=
  t.flatMap fun c =>
    if c.toNat < 0x10000 then [unit c]
    else [UInt16.ofNat (0xd800 + (c.toNat - 0x10000) / 0x400),
      UInt16.ofNat (0xdc00 + (c.toNat - 0x10000) % 0x400)]

/-- `String.trim`. -/
def trimUnits (t : Units) : Units :=
  (t.dropWhile (· ≤ 32)).rdropWhile (· ≤ 32)

theorem toNat_unit {c : Char} (h : c.toNat < 128) : (unit c).toNat = c.toNat :=
  UInt16.toNat_ofNat_of_lt (Nat.lt_trans h (by decide))

theorem units_ascii {t : Text} (h : ∀ c ∈ t, c.toNat < 128) : units t = t.map unit := by
  induction t with
  | nil => rfl
  | cons c t ih =>
      have hc : c.toNat < 0x10000 := Nat.lt_trans (h c List.mem_cons_self) (by decide)
      rw [List.map_cons, ← ih fun d hd => h d (List.mem_cons_of_mem _ hd)]
      simp [units, hc]

theorem trimUnits_eq_self {t : Units} (h : ∀ c ∈ t, 32 < c) : trimUnits t = t := by
  have hnot : ∀ c ∈ t, ¬ decide (c ≤ 32) = true := by
    intro c hc
    simpa using h c hc
  have hdrop : t.dropWhile (fun c => decide (c ≤ 32)) = t := by
    cases t with
    | nil => rfl
    | cons c t => exact List.dropWhile_cons_of_neg (hnot c List.mem_cons_self)
  unfold trimUnits
  rw [hdrop]
  apply List.rdropWhile_eq_self_iff.mpr
  intro hne
  exact hnot _ (List.getLast_mem hne)

/-- What `Character.digit` makes of a code unit, fixed on ASCII. -/
structure DigitData where
  digit : UInt16 → Option Nat
  digit_ascii : ∀ c : UInt16, c.toNat < 128 →
    digit c = if 48 ≤ c.toNat ∧ c.toNat ≤ 57 then some (c.toNat - 48) else none

/-- The ASCII digits and no others. -/
def DigitData.ascii : DigitData where
  digit c := if 48 ≤ c.toNat ∧ c.toNat ≤ 57 then some (c.toNat - 48) else none
  digit_ascii _ _ := rfl

end Units

section Range

/-- The magnitudes of a `BigInteger`: those below `2 ^ Integer.MAX_VALUE`. -/
def supported (n : Nat) : Bool :=
  n.log2 < intMax

def overflow : JavaException :=
  .arithmetic "BigInteger would overflow supported range".toList

/-- `BigInteger.TEN.pow`. -/
def powerOfTen (n : Nat) : Except JavaException Nat :=
  if supported (10 ^ n) then .ok (10 ^ n) else .error overflow

theorem supported_mono {m n : Nat} (h : m ≤ n) (hn : supported n = true) :
    supported m = true := by
  simp only [supported, decide_eq_true_eq] at hn ⊢
  by_cases hm : m = 0
  · subst hm
    decide
  · have hlog : m.log2 ≤ n.log2 := (Nat.le_log2 (by omega)).mpr ((Nat.log2_self_le hm).trans h)
    omega

theorem powerOfTen_eq_ok {n m : Nat} :
    powerOfTen n = .ok m ↔ supported (10 ^ n) = true ∧ m = 10 ^ n := by
  unfold powerOfTen
  split
  · rename_i h
    simp [h, eq_comm]
  · rename_i h
    simp [h]

theorem supported_one : supported (10 ^ 0) = true := by
  decide

theorem powerOfTen_of_supported {n : Nat} (h : supported (10 ^ n) = true) :
    powerOfTen n = .ok (10 ^ n) :=
  powerOfTen_eq_ok.mpr ⟨h, rfl⟩

theorem powerOfTen_of_not_supported {n : Nat} (h : supported (10 ^ n) = false) :
    powerOfTen n = .error overflow := by
  simp [powerOfTen, h]

/-- The exponent of a power of ten in the range is an `int`. -/
theorem not_supported_of_le {n : Nat} (h : intMax ≤ n) : supported (10 ^ n) = false := by
  have hlog : n ≤ (10 ^ n).log2 :=
    (Nat.le_log2 (Nat.pow_pos (by decide)).ne').mpr (Nat.pow_le_pow_left (by decide) n)
  simp only [supported, decide_eq_false_iff_not]
  omega

theorem length_natText_le {n e : Nat} (he : 0 < e) (h : n < 10 ^ e) : (natText n).length ≤ e := by
  rw [natText, Nat.toList_repr]
  exact Nat.toDigits_length 10 n e he h

theorem length_natText_pos (n : Nat) : 0 < (natText n).length := by
  rw [natText, Nat.toList_repr]
  exact List.length_pos_of_ne_nil Nat.toDigits_ne_nil

/-- The decimal text of a `BigInteger` is no longer than a string may be. -/
theorem length_natText_le_intMax {n : Nat} (h : supported n = true) :
    (natText n).length ≤ intMax := by
  simp only [supported, decide_eq_true_eq] at h
  have hlt : n < 10 ^ (n.log2 + 1) :=
    calc n < 2 ^ (n.log2 + 1) := Nat.lt_log2_self
      _ ≤ 10 ^ (n.log2 + 1) := Nat.pow_le_pow_left (by decide) _
  have hlength := length_natText_le (Nat.succ_pos _) hlt
  omega

end Range

end C2c.Library.BigDecimal

namespace C2c.Library

open C2c.Library.JavaText
open C2c.Library.JavaObject
open C2c.Library.BigDecimal

/-- `BigDecimal`: an unscaled value `BigInteger` supports, and a scale. -/
structure BigDecimal where
  unscaled : Int
  scale : Int
  supported_unscaled : supported unscaled.natAbs = true

namespace BigDecimal

/-- A number with its unscaled value checked against the range. -/
def make (unscaled scale : Int) : Except JavaException BigDecimal :=
  if h : supported unscaled.natAbs = true then .ok ⟨unscaled, scale, h⟩ else .error overflow

/-- `BigDecimal.checkScale`: an `int`, unless the number is zero and the scale
may be clamped. -/
def checkScale (x : BigDecimal) (scale : Int) : Except JavaException Int :=
  if (intMax : Int) < scale then
    if x.unscaled = 0 then .ok intMax else .error (.arithmetic "Underflow".toList)
  else if scale < -(intMax + 1) then
    if x.unscaled = 0 then .ok (-(intMax + 1)) else .error (.arithmetic "Overflow".toList)
  else .ok scale

/-- `RoundingMode.DOWN`. -/
def down (n : Int) (d : Nat) : Int :=
  n.tdiv d

/-- `RoundingMode.HALF_EVEN`. -/
def halfEven (n : Int) (d : Nat) : Int :=
  let quotient := n.natAbs / d
  let remainder := n.natAbs % d
  let rounded :=
    if d < 2 * remainder ∨ (2 * remainder = d ∧ quotient % 2 = 1) then quotient + 1 else quotient
  if n < 0 then -rounded else rounded

/-- `BigDecimal.setScale`. -/
def setScale (round : Int → Nat → Int) (newScale : Int) (x : BigDecimal) :
    Except JavaException BigDecimal :=
  if newScale = x.scale then .ok x
  else if x.scale < newScale then do
    let raise ← x.checkScale (newScale - x.scale)
    if x.unscaled = 0 then make 0 newScale
    else do
      let factor ← powerOfTen raise.toNat
      make (x.unscaled * factor) newScale
  else do
    let drop ← x.checkScale (x.scale - newScale)
    let divisor ← powerOfTen drop.toNat
    make (round x.unscaled divisor) newScale

/-- `BigDecimal.toBigInteger`. -/
def toBigInteger (x : BigDecimal) : Except JavaException Int := do
  let whole ← x.setScale down 0
  return whole.unscaled

/-- `BigDecimal.abs`. -/
def abs (x : BigDecimal) : BigDecimal :=
  ⟨x.unscaled.natAbs, x.scale, by rw [Int.natAbs_natCast]; exact x.supported_unscaled⟩

/-- `BigDecimal.movePointRight`. -/
def movePointRight (n : Nat) (x : BigDecimal) : Except JavaException BigDecimal :=
  if n = 0 then .ok x
  else do
    let newScale ← x.checkScale (x.scale - n)
    if newScale < 0 then setScale down 0 ⟨x.unscaled, newScale, x.supported_unscaled⟩
    else .ok ⟨x.unscaled, newScale, x.supported_unscaled⟩

/-- `BigDecimal.toPlainString`. -/
def toPlainString (x : BigDecimal) : Text :=
  let digits := natText x.unscaled.natAbs
  let sign : Text := if x.unscaled < 0 then ['-'] else []
  if x.scale ≤ 0 then
    if x.unscaled = 0 then ['0'] else sign ++ digits ++ List.replicate (-x.scale).toNat '0'
  else
    let scale := x.scale.toNat
    if scale < digits.length then
      sign ++ digits.take (digits.length - scale) ++ '.' :: digits.drop (digits.length - scale)
    else sign ++ '0' :: '.' :: List.replicate (scale - digits.length) '0' ++ digits

theorem make_eq_ok {unscaled scale : Int} {x : BigDecimal} :
    make unscaled scale = .ok x ↔ x.unscaled = unscaled ∧ x.scale = scale := by
  unfold make
  split
  · rename_i h
    rw [Except.ok.injEq]
    constructor
    · rintro rfl
      exact ⟨rfl, rfl⟩
    · rintro ⟨rfl, rfl⟩
      rfl
  · rename_i h
    constructor
    · intro heq
      cases heq
    · rintro ⟨rfl, -⟩
      exact absurd x.supported_unscaled h

@[simp] theorem setScale_self (round : Int → Nat → Int) (x : BigDecimal) :
    setScale round x.scale x = .ok x := by
  simp [setScale]

theorem scale_of_setScale {round : Int → Nat → Int} {newScale : Int} {x y : BigDecimal}
    (h : setScale round newScale x = .ok y) : y.scale = newScale := by
  unfold setScale at h
  split at h
  · rename_i hscale
    obtain rfl := Except.ok.inj h
    exact hscale.symm
  · split at h
    · obtain ⟨raise, -, h⟩ := bind_eq_ok h
      split at h
      · exact (make_eq_ok.mp h).2
      · obtain ⟨factor, -, h⟩ := bind_eq_ok h
        exact (make_eq_ok.mp h).2
    · obtain ⟨drop, -, h⟩ := bind_eq_ok h
      obtain ⟨divisor, -, h⟩ := bind_eq_ok h
      exact (make_eq_ok.mp h).2

/-- Zero stays zero at a larger scale. -/
theorem unscaled_of_setScale {round : Int → Nat → Int} {newScale : Int} {x y : BigDecimal}
    (hzero : x.unscaled = 0) (hle : x.scale ≤ newScale) (h : setScale round newScale x = .ok y) :
    y.unscaled = 0 := by
  unfold setScale at h
  split at h
  · obtain rfl := Except.ok.inj h
    exact hzero
  · rw [if_pos (by omega)] at h
    obtain ⟨raise, -, h⟩ := bind_eq_ok h
    exact (make_eq_ok.mp h).1

theorem make_of_supported {unscaled scale : Int} (h : supported unscaled.natAbs = true) :
    make unscaled scale = .ok ⟨unscaled, scale, h⟩ :=
  make_eq_ok.mpr ⟨rfl, rfl⟩

theorem checkScale_of_le {x : BigDecimal} {scale : Nat} (h : scale ≤ intMax) :
    x.checkScale scale = .ok scale := by
  unfold checkScale
  rw [if_neg (by omega), if_neg (by omega)]

theorem down_natCast (n d : Nat) : down n d = (n / d : Nat) := rfl

/-- A magnitude is truncated when the power of ten at its scale is supported. -/
theorem toBigInteger_abs_of_supported {x : BigDecimal} {scale : Nat} (hscale : x.scale = scale)
    (h : supported (10 ^ scale) = true) :
    x.abs.toBigInteger = .ok (x.unscaled.natAbs / 10 ^ scale : Nat) := by
  have habs : x.abs.scale = scale := hscale
  cases scale with
  | zero =>
      have hset : setScale down 0 x.abs = .ok x.abs := by
        rw [← Int.natCast_zero, ← habs, setScale_self]
      unfold toBigInteger
      rw [hset]
      simp [bind, Except.bind, pure, Except.pure, abs]
  | succ scale =>
      have hle : scale + 1 ≤ intMax := by
        by_contra hlt
        rw [not_supported_of_le (by omega)] at h
        cases h
      have hquotient : supported
          (down x.abs.unscaled (10 ^ (scale + 1))).natAbs = true := by
        rw [show x.abs.unscaled = (x.unscaled.natAbs : Int) from rfl, down_natCast,
          Int.natAbs_natCast]
        exact supported_mono (Nat.div_le_self _ _) x.supported_unscaled
      unfold toBigInteger setScale
      rw [habs, if_neg (by omega), if_neg (by omega), sub_zero, checkScale_of_le hle]
      simp only [bind, Except.bind, Int.toNat_natCast, powerOfTen_of_supported h,
        make_of_supported hquotient, pure, Except.pure]
      rfl

/-- No value at any other scale is. -/
theorem toBigInteger_abs_of_not_supported {x : BigDecimal} {scale : Nat} (hscale : x.scale = scale)
    (h : supported (10 ^ scale) = false) {n : Int} : x.abs.toBigInteger ≠ .ok n := by
  intro htruncated
  have habs : x.abs.scale = scale := hscale
  have hpos : scale ≠ 0 := by
    rintro rfl
    rw [supported_one] at h
    cases h
  obtain ⟨whole, hwhole, -⟩ := bind_eq_ok htruncated
  unfold setScale at hwhole
  rw [habs, if_neg (by omega), if_neg (by omega), sub_zero] at hwhole
  obtain ⟨drop, hdrop, hwhole⟩ := bind_eq_ok hwhole
  obtain ⟨divisor, hdivisor, -⟩ := bind_eq_ok hwhole
  have hsupported := (powerOfTen_eq_ok.mp hdivisor).1
  unfold checkScale at hdrop
  split at hdrop
  · split at hdrop
    · obtain rfl := Except.ok.inj hdrop
      rw [Int.toNat_natCast, not_supported_of_le (Nat.le_refl _)] at hsupported
      cases hsupported
    · cases hdrop
  · split at hdrop
    · omega
    · obtain rfl := Except.ok.inj hdrop
      rw [Int.toNat_natCast, h] at hsupported
      cases hsupported

theorem toBigInteger_abs_eq_ok {x : BigDecimal} {scale : Nat} (hscale : x.scale = scale)
    {n : Int} :
    x.abs.toBigInteger = .ok n ↔
      supported (10 ^ scale) = true ∧ n = (x.unscaled.natAbs / 10 ^ scale : Nat) := by
  cases h : supported (10 ^ scale) with
  | true => simp [toBigInteger_abs_of_supported hscale h, eq_comm]
  | false => simp [toBigInteger_abs_of_not_supported hscale h]

/-- Moving the point by the whole scale leaves the unscaled magnitude. -/
theorem toBigInteger_movePointRight_abs {x : BigDecimal} {scale : Nat}
    (hscale : x.scale = scale) :
    (x.abs.movePointRight scale >>= toBigInteger) = .ok (x.unscaled.natAbs : Int) := by
  have habs : x.abs.scale = scale := hscale
  have hset : ∀ y : BigDecimal, y.scale = 0 → y.toBigInteger = .ok y.unscaled := by
    intro y hy
    unfold toBigInteger
    rw [← hy, setScale_self]
    rfl
  unfold movePointRight
  split
  · rename_i hzero
    simp only [bind, Except.bind]
    rw [hset x.abs (by rw [habs, hzero]; rfl)]
    rfl
  · have hcheck : x.abs.checkScale 0 = .ok 0 := checkScale_of_le (Nat.zero_le _)
    rw [habs, Int.sub_self, hcheck]
    simp only [bind, Except.bind, Int.lt_irrefl, if_false]
    rw [hset _ rfl]
    rfl

section Literals

variable (d : DigitData)

/-- The values of the digits at the head of a text. -/
def digitRun (t : Units) : List Nat :=
  (t.takeWhile fun c => (d.digit c).isSome).filterMap d.digit

def afterDigits (t : Units) : Units :=
  t.dropWhile fun c => (d.digit c).isSome

def number (digits : List Nat) : Nat :=
  digits.foldl (fun n digit => 10 * n + digit) 0

/-- The exponent a literal ends with, if what is left is one or nothing. -/
def exponentOf : Units → Option Int
  | [] => some 0
  | c :: rest =>
      if c = unit 'e' ∨ c = unit 'E' then
        let negative := rest.head? == some (unit '-')
        let body := if negative || rest.head? == some (unit '+') then rest.tail else rest
        if body.isEmpty || !(afterDigits d body).isEmpty then none
        else if negative then some (-number (digitRun d body))
        else some (number (digitRun d body))
      else none

/-- What a malformed literal raises, whose text the library leaves open. -/
def malformed : JavaException :=
  .numberFormat []

/-- The digits, the point and the exponent of a literal, behind its sign. -/
def parseUnsigned (negative : Bool) (body : Units) : Except JavaException BigDecimal :=
  let whole := digitRun d body
  let rest := afterDigits d body
  let point := rest.head? == some (unit '.')
  let fraction := if point then digitRun d rest.tail else []
  let rest := if point then afterDigits d rest.tail else rest
  if (whole ++ fraction).isEmpty then .error malformed
  else
    match exponentOf d rest with
    | none => .error malformed
    | some exponent =>
        let scale : Int := fraction.length - exponent
        if intMax < exponent.natAbs ∨ (intMax : Int) < scale ∨ scale < -(intMax + 1) then
          .error malformed
        else
          let magnitude : Int := number (whole ++ fraction)
          make (if negative then -magnitude else magnitude) scale

/-- `new BigDecimal(String)`. -/
def parse (t : Units) : Except JavaException BigDecimal :=
  if t.head? == some (unit '-') then parseUnsigned d true t.tail
  else if t.head? == some (unit '+') then parseUnsigned d false t.tail
  else parseUnsigned d false t

theorem toNat_of_isDigitAscii {c : Char} (h : isDigitAscii c = true) :
    48 ≤ c.toNat ∧ c.toNat ≤ 57 := by
  simpa [isDigitAscii, Char.le_def, UInt32.le_iff_toNat_le] using h

theorem digit_unit {c : Char} (h : isDigitAscii c = true) :
    d.digit (unit c) = some (c.toNat - 48) := by
  have hrange := toNat_of_isDigitAscii h
  have hunit : (unit c).toNat = c.toNat := toNat_unit (by omega)
  rw [d.digit_ascii _ (by omega), hunit, if_pos hrange]

/-- A run of ASCII digits ends where no digit follows. -/
theorem digitRun_map_unit {digits : Text} (h : ∀ c ∈ digits, isDigitAscii c = true) {rest : Units}
    (hrest : ∀ c ∈ rest.head?, d.digit c = none) :
    digitRun d (digits.map unit ++ rest) = digits.map (fun c => c.toNat - 48) ∧
      afterDigits d (digits.map unit ++ rest) = rest := by
  induction digits with
  | nil =>
      cases rest with
      | nil => exact ⟨rfl, rfl⟩
      | cons c rest =>
          have hc : d.digit c = none := hrest c rfl
          simp [digitRun, afterDigits, hc]
  | cons c digits ih =>
      have hc := digit_unit d (h c List.mem_cons_self)
      obtain ⟨hrun, hafter⟩ := ih fun e he => h e (List.mem_cons_of_mem _ he)
      simp only [digitRun, afterDigits] at hrun hafter ⊢
      simp [hc, hrun, hafter]

theorem number_map (digits : Text) :
    number (digits.map fun c => c.toNat - 48) = digitsValue digits :=
  List.foldl_map

theorem digit_point : d.digit (unit '.') = none := by
  rw [d.digit_ascii _ (by decide)]
  rfl

/-- The point and the digits after it, when there are any. -/
def pointText (fraction : Text) : Text :=
  if fraction.isEmpty then [] else '.' :: fraction

/-- A digit is neither a sign nor the point. -/
theorem unit_ne_of_isDigitAscii {c e : Char} (h : isDigitAscii c = true)
    (he : e.toNat < 48) : unit c ≠ unit e := by
  intro heq
  have hrange := toNat_of_isDigitAscii h
  have hnat := congrArg UInt16.toNat heq
  rw [toNat_unit (by omega), toNat_unit (by omega)] at hnat
  omega

/-- The head of what follows a sign is no sign. -/
theorem head_body_ne {whole fraction : Text} (hwhole : ∀ c ∈ whole, isDigitAscii c = true)
    {e : Char} (he : e.toNat < 46) :
    (((whole ++ pointText fraction).map unit).head? == some (unit e)) = false := by
  cases whole with
  | cons c whole =>
      simpa using unit_ne_of_isDigitAscii (hwhole c List.mem_cons_self) (Nat.lt_trans he (by decide))
  | nil =>
      unfold pointText
      split
      · rfl
      · have hpoint : unit '.' ≠ unit e := by
          intro heq
          have hnat := congrArg UInt16.toNat heq
          rw [toNat_unit (by decide), toNat_unit (by omega)] at hnat
          have hvalue : '.'.toNat = 46 := rfl
          omega
        simpa using hpoint

theorem parseUnsigned_plain (negative : Bool) {whole fraction : Text}
    (hwhole : ∀ c ∈ whole, isDigitAscii c = true)
    (hfraction : ∀ c ∈ fraction, isDigitAscii c = true) (hne : whole ++ fraction ≠ [])
    (hlength : fraction.length ≤ intMax) :
    parseUnsigned d negative ((whole ++ pointText fraction).map unit) =
      make (if negative then -(digitsValue (whole ++ fraction) : Int)
        else digitsValue (whole ++ fraction)) fraction.length := by
  have hpoint : ∀ c ∈ ((pointText fraction).map unit).head?, d.digit c = none := by
    unfold pointText
    split
    · simp
    · intro c hc
      obtain rfl : unit '.' = c := by simpa using hc
      exact digit_point d
  obtain ⟨hrun, hafter⟩ := digitRun_map_unit d hwhole hpoint
  unfold parseUnsigned
  rw [List.map_append, hrun, hafter]
  by_cases hempty : fraction = []
  · subst hempty
    have hwholeNe : (whole.map fun c => c.toNat - 48).isEmpty = false := by
      simpa using hne
    simp [pointText, exponentOf, hwholeNe, number_map, intMax]
  · obtain ⟨hdigits, hleft⟩ := @digitRun_map_unit d fraction hfraction [] (by simp)
    rw [List.append_nil] at hdigits hleft
    have hscale : ¬ ((intMax : Int) < fraction.length) := by omega
    have hlow : ¬ ((fraction.length : Int) < -(intMax + 1)) := by omega
    have htext : pointText fraction = '.' :: fraction := by simp [pointText, hempty]
    simp only [htext, List.map_cons, List.head?_cons, beq_self_eq_true, if_true, List.tail_cons,
      hdigits, hleft, exponentOf, List.length_map, sub_zero, Int.natAbs_zero, Nat.not_lt_zero,
      hscale, hlow, or_self, if_false, ← List.map_append, number_map]
    simp [hempty]

/-- A plain literal gives the number its digits write, at the scale its point
sets. -/
theorem parse_plain (negative : Bool) {whole fraction : Text}
    (hwhole : ∀ c ∈ whole, isDigitAscii c = true)
    (hfraction : ∀ c ∈ fraction, isDigitAscii c = true) (hne : whole ++ fraction ≠ [])
    (hlength : fraction.length ≤ intMax) :
    parse d (((if negative then ['-'] else []) ++ whole ++ pointText fraction).map unit) =
      make (if negative then -(digitsValue (whole ++ fraction) : Int)
        else digitsValue (whole ++ fraction)) fraction.length := by
  rw [← parseUnsigned_plain d negative hwhole hfraction hne hlength]
  cases negative with
  | true => simp [parse]
  | false =>
      simp only [Bool.false_eq_true, if_false, List.nil_append, parse,
        head_body_ne hwhole (e := '-') (by decide), head_body_ne hwhole (e := '+') (by decide)]

end Literals

end BigDecimal

end C2c.Library
