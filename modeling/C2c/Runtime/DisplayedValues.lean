import C2c.Runtime.HeldValues
import Mathlib.Tactic.NormNum

namespace C2c.Runtime.CobolField

open C2c.Library
open C2c.Library.JavaText
open C2c.Library.JavaObject
open C2c.Library.BigDecimal
open C2c.Library.Raising

section Padding

/-- The wrapped value of a difference of two lengths. -/
theorem toInt_of_lt {x : Int} (hlow : 0 ≤ x) (hhigh : x < 2 ^ 32) :
    toInt x = if x < 2 ^ 31 then x else x - 2 ^ 32 := by
  have hmod : x % 2 ^ 32 = x := Int.emod_eq_of_lt hlow hhigh
  unfold toInt
  rw [Int.bmod_def]
  norm_num at hmod ⊢
  rw [hmod]

/-- The digits of a number behind as many zeros as a width asks for. -/
def padded (width n : Nat) : Text :=
  List.replicate (width - (natText n).length) '0' ++ natText n

theorem padTo_of_le {width n : Nat} (hlength : (natText n).length ≤ width)
    (hwidth : width ≤ intMax) : padTo (toInt width) (natText n) = .ok (padded width n) := by
  have hint : toInt width = width := by
    have hmax : intMax = 2147483647 := rfl
    rw [toInt_of_lt (Int.natCast_nonneg _) (by omega), if_pos (by omega)]
  unfold padTo padded
  rw [hint]
  split
  · rename_i hle
    have heq : (natText n).length = width := by omega
    have hzero : toInt ((natText n).length - width) = 0 := by
      rw [heq, Int.sub_self]
      rfl
    rw [hzero, heq]
    simp [substringFrom]
  · rename_i hlt
    have hcount : ((width : Int) - (natText n).length).toNat = width - (natText n).length := by
      omega
    rw [hcount]

/-- A text that is brought to a width has it. -/
theorem length_of_padTo {width : Int} (hwidth : -2 ^ 31 ≤ width ∧ width < 2 ^ 31) {t result : Text}
    (ht : t.length ≤ intMax) (h : padTo width t = .ok result) : (result.length : Int) = width := by
  have hmax : intMax = 2147483647 := rfl
  unfold padTo at h
  split at h
  · unfold substringFrom at h
    split at h
    · cases h
    · rename_i hstart
      obtain rfl := Except.ok.inj h
      have hexact : toInt (t.length - width) = t.length - width := by
        rw [toInt_of_lt (by omega) (by omega)] at hstart ⊢
        split at hstart
        · rename_i hlt
          rw [if_pos hlt]
        · omega
      rw [hexact] at hstart ⊢
      rw [List.length_drop]
      omega
  · obtain rfl := Except.ok.inj h
    rw [List.length_append, List.length_replicate]
    omega

theorem isDigitAscii_of_mem_padTo {width : Int} {n : Nat} {result : Text}
    (h : padTo width (natText n) = .ok result) : ∀ c ∈ result, isDigitAscii c = true := by
  unfold padTo at h
  split at h
  · unfold substringFrom at h
    split at h
    · cases h
    · obtain rfl := Except.ok.inj h
      exact fun c hc => isDigitAscii_of_mem_natText (List.mem_of_mem_drop hc)
  · obtain rfl := Except.ok.inj h
    intro c hc
    rcases List.mem_append.mp hc with hc | hc
    · rw [List.eq_of_mem_replicate hc]
      rfl
    · exact isDigitAscii_of_mem_natText hc

theorem length_padded {width n : Nat} (h : (natText n).length ≤ width) :
    (padded width n).length = width := by
  rw [padded, List.length_append, List.length_replicate]
  omega

theorem digitsValue_padded (width n : Nat) : digitsValue (padded width n) = n := by
  have hzeros : ∀ k, (List.replicate k '0').foldl (fun n c => 10 * n + (c.toNat - 48)) 0 = 0 := by
    intro k
    induction k with
    | zero => rfl
    | succ k ih => simpa [List.replicate_succ] using ih
  unfold padded digitsValue
  rw [List.foldl_append, hzeros]
  exact digitsValue_natText n

end Padding

section Rendering

/-- The sign character of a signed picture. -/
def signText (picture : PictureSpec) (value : CobolDecimal) : Text :=
  if picture.signed then [if value.value.unscaled < 0 then '-' else '+'] else []

/-- The sign, the digits and the point in front of the scale. -/
def rendered (picture : PictureSpec) (value : CobolDecimal) (digits : Text) : Text :=
  signText picture value ++
    if 0 < picture.scale then
      digits.take (digits.length - picture.scale) ++
        '.' :: digits.drop (digits.length - picture.scale)
    else digits

theorem mem_rendered {picture : PictureSpec} {value : CobolDecimal} {digits : Text}
    (hdigits : ∀ c ∈ digits, isDigitAscii c = true) {c : Char}
    (hc : c ∈ rendered picture value digits) :
    isDigitAscii c = true ∨ c = '-' ∨ c = '+' ∨ c = '.' := by
  unfold rendered signText at hc
  rcases List.mem_append.mp hc with hc | hc
  · split at hc
    · split at hc <;> simp only [List.mem_singleton] at hc <;> simp [hc]
    · cases hc
  · split at hc
    · rcases List.mem_append.mp hc with hc | hc
      · exact .inl (hdigits c (List.mem_of_mem_take hc))
      · rcases List.mem_cons.mp hc with hc | hc
        · exact .inr (.inr (.inr hc))
        · exact .inl (hdigits c (List.mem_of_mem_drop hc))
    · exact .inl (hdigits c hc)

theorem upper_of_mem {u : UnicodeData} {c : Char}
    (hc : isDigitAscii c = true ∨ c = '-' ∨ c = '+' ∨ c = '.') : u.upper c = [c] := by
  have hascii : c.toNat < 128 := by
    rcases hc with hc | rfl | rfl | rfl
    · have := toNat_of_isDigitAscii hc
      omega
    all_goals decide
  have hupper : (!(isDigitAscii c || c == '-' || c == '+' || c == '.') || c.toUpper == c) = true :=
    of_ascii (p := fun c => !(isDigitAscii c || c == '-' || c == '+' || c == '.') ||
      c.toUpper == c) (by decide) hascii
  have hkind : (isDigitAscii c || c == '-' || c == '+' || c == '.') = true := by
    rcases hc with hc | rfl | rfl | rfl
    · simp [hc]
    all_goals decide
  rw [hkind] at hupper
  rw [u.upper_ascii c hascii]
  simpa using hupper

theorem toUpperCase_rendered (u : UnicodeData) {picture : PictureSpec} {value : CobolDecimal}
    {digits : Text} (hdigits : ∀ c ∈ digits, isDigitAscii c = true) :
    u.toUpperCase (rendered picture value digits) = rendered picture value digits := by
  have hall : ∀ c ∈ rendered picture value digits, u.upper c = [c] := fun _ hc =>
    upper_of_mem (mem_rendered hdigits hc)
  unfold UnicodeData.toUpperCase
  generalize rendered picture value digits = t at hall
  induction t with
  | nil => rfl
  | cons c t ih =>
      rw [List.flatMap_cons, hall c List.mem_cons_self,
        ih fun e he => hall e (List.mem_cons_of_mem _ he)]
      rfl

/-- The display of a number at the picture's scale is its padded digits,
rendered. -/
theorem formatNumericForDisplay_eq (u : UnicodeData) {picture : PictureSpec}
    {value : CobolDecimal} (hscale : value.value.scale = picture.scale) :
    formatNumericForDisplay u picture value =
      (padTo (toInt (picture.integerDigits + picture.scale))
        (natText value.value.unscaled.natAbs)).map (rendered picture value) := by
  have hunscaled : (value.value.abs.movePointRight picture.scale >>= toBigInteger) =
      .ok (value.value.unscaled.natAbs : Int) :=
    toBigInteger_movePointRight_abs hscale
  have htext : intText (value.value.unscaled.natAbs : Int) =
      natText value.value.unscaled.natAbs := by
    rw [intText, if_neg (Int.not_lt.mpr (Int.natCast_nonneg _)), Int.natAbs_natCast]
  have hdigits : ∀ digits, padTo (toInt (picture.integerDigits + picture.scale))
      (natText value.value.unscaled.natAbs) = .ok digits →
      u.toUpperCase (rendered picture value digits) = rendered picture value digits :=
    fun digits hpad => toUpperCase_rendered u (isDigitAscii_of_mem_padTo hpad)
  unfold formatNumericForDisplay
  rw [← bind_assoc, hunscaled, ok_bind, htext]
  generalize padTo (toInt (picture.integerDigits + picture.scale))
    (natText value.value.unscaled.natAbs) = padding at hdigits ⊢
  cases padding with
  | error e => rfl
  | ok digits =>
      simp only [Except.map]
      rw [← hdigits digits rfl]
      unfold rendered signText
      split <;> simp [pure, Except.pure]

end Rendering

section Moving

theorem literalScale_of_not_mem {t : Units} (h : unit '.' ∉ t) : literalScale t = 0 := by
  unfold literalScale
  rw [List.idxOf?_eq_none_iff.mpr h]

theorem literalScale_append {before : Units} (h : unit '.' ∉ before) (fraction : Units) :
    literalScale (before ++ unit '.' :: fraction) = fraction.length := by
  have hindex : (before ++ unit '.' :: fraction).idxOf? (unit '.') = some before.length := by
    unfold List.idxOf?
    rw [List.findIdx?_append, List.findIdx?_eq_none_iff.mpr]
    · simp [List.findIdx?_cons]
    · intro c hc
      rw [beq_eq_false_iff_ne]
      rintro rfl
      exact h hc
  unfold literalScale
  rw [hindex]
  simp

/-- What a text leaves in a field it is moved into: the value it displays. -/
def Holds (value : CobolDecimal) (field : CobolField) : Prop :=
  ∃ h held, field.contents = .number h held ∧ held.value = value.value ∧ held.scale = value.scale

/-- A number that fits is stored when the powers of ten it is checked against
are supported. -/
theorem setNumericValue_holds_iff {value : CobolDecimal} {field : CobolField}
    (hnumeric : field.picture.isNumeric = true) (hfits : value.Fits field.picture) :
    After (setNumericValue value) (fun _ => Holds value) (fun _ _ => False) field ↔
      supported (10 ^ field.picture.integerDigits) = true ∧
        supported (10 ^ field.picture.scale) = true := by
  have hrescaled : value.rescale field.picture.scale = .ok value := by
    rw [← hfits.scale, CobolDecimal.rescale_self]
  have hsign : field.picture.signed = true ∨ 0 ≤ value.value.unscaled := by
    cases hsigned : field.picture.signed with
    | false => exact .inr (hfits.nonneg hsigned)
    | true => exact .inl rfl
  unfold setNumericValue
  rw [after_bind, after_get, dif_pos hnumeric, hrescaled]
  show After (require _ _ >>= _) _ _ _ ↔ _
  rw [after_bind, after_require, after_bind, after_returning]
  constructor
  · intro h
    obtain ⟨hreturns, hraises⟩ := h.1 hsign
    cases hoverflow : overflowsIntegerDigits field.picture value with
    | error e => exact (hraises e hoverflow).elim
    | ok tooLarge =>
        obtain ⟨integerPart, hpart, hlimit⟩ := bind_eq_ok hoverflow
        obtain ⟨limit, hlimit, -⟩ := bind_eq_ok hlimit
        exact ⟨(powerOfTen_eq_ok.mp hlimit).1,
          ((toBigInteger_abs_eq_ok hfits.value_scale).mp hpart).1⟩
  · rintro ⟨hwhole, hscale⟩
    have hoverflow : overflowsIntegerDigits field.picture value = .ok false := by
      unfold overflowsIntegerDigits
      rw [toBigInteger_abs_of_supported hfits.value_scale hscale, ok_bind,
        powerOfTen_of_supported hwhole, ok_bind]
      have hlt : ¬ ((10 ^ field.picture.integerDigits : Nat) : Int) ≤
          (value.value.unscaled.natAbs / 10 ^ field.picture.scale : Nat) :=
        fun hle => absurd (Int.ofNat_le.mp hle) (Nat.not_le.mpr hfits.whole_part)
      rw [decide_eq_false hlt]
      rfl
    refine ⟨fun _ => ⟨?_, ?_⟩, fun hnot => hnot hsign⟩
    · intro tooLarge htooLarge
      obtain rfl := Except.ok.inj (hoverflow.symm.trans htooLarge)
      rw [after_bind, after_require]
      refine ⟨fun _ => ?_, fun hnot => hnot rfl⟩
      rw [after_bind, after_returning]
      constructor
      · intro stored hstored
        obtain ⟨hvalue, hstoredScale, -⟩ := stored_eq_ok hstored
        exact ⟨hnumeric, stored, rfl, hvalue, hstoredScale⟩
      · intro e herror
        split at herror
        · rw [CobolDecimal.ofValue_natCast,
            CobolDecimal.construct_self value.value_scale (fun hsigned => by cases hsigned)]
            at herror
          cases herror
        · cases herror
    · intro e herror
      rw [hoverflow] at herror
      cases herror

/-- Whether a literal of a displayed value starts with a minus sign. -/
def isNegative (picture : PictureSpec) (value : CobolDecimal) : Bool :=
  picture.signed && decide (value.value.unscaled < 0)

/-- The digits in front of the point and behind it. -/
theorem rendered_eq {picture : PictureSpec} (value : CobolDecimal) {digits : Text}
    (hlength : picture.scale ≤ digits.length) :
    rendered picture value digits = signText picture value ++
      (digits.take (digits.length - picture.scale) ++
        pointText (digits.drop (digits.length - picture.scale))) := by
  unfold rendered
  split
  · rename_i hscale
    have hne : (digits.drop (digits.length - picture.scale)).isEmpty = false := by
      rw [List.isEmpty_eq_false_iff, ← List.length_pos_iff, List.length_drop]
      omega
    simp [pointText, hne]
  · rename_i hscale
    obtain hzero : picture.scale = 0 := by omega
    simp [hzero, pointText]

theorem lt_unit_of_mem {c : Char} (hc : isDigitAscii c = true ∨ c = '-' ∨ c = '+' ∨ c = '.') :
    c.toNat < 128 ∧ 32 < unit c := by
  rcases hc with hc | rfl | rfl | rfl
  · have hrange := toNat_of_isDigitAscii hc
    have hunit : (unit c).toNat = c.toNat := toNat_unit (by omega)
    refine ⟨by omega, ?_⟩
    rw [UInt16.lt_iff_toNat_lt, hunit]
    show 32 < c.toNat
    omega
  all_goals decide

/-- What a move makes of a sign: a minus is left for the parser, a plus dropped. -/
theorem stripped_eq {picture : PictureSpec} {value : CobolDecimal} {whole fraction : Text}
    (hwhole : ∀ c ∈ whole, isDigitAscii c = true) :
    let literal := (signText picture value ++ (whole ++ pointText fraction)).map unit
    (literal.head? == some (unit '-')) = isNegative picture value ∧
      (if literal.head? == some (unit '+') then literal.tail else literal) =
        ((if isNegative picture value then ['-'] else []) ++ whole ++ pointText fraction).map
          unit := by
  have hminus := @head_body_ne whole fraction hwhole '-' (by decide)
  have hplus := @head_body_ne whole fraction hwhole '+' (by decide)
  unfold signText isNegative
  cases hsigned : picture.signed with
  | false => simp only [Bool.false_eq_true, if_false, List.nil_append, Bool.false_and, hminus,
      hplus, and_self]
  | true =>
      by_cases hnegative : value.value.unscaled < 0
      · simp [hnegative, unit]
      · simp [hnegative, unit]

theorem natAbs_lt_of_fits {picture : PictureSpec} {value : CobolDecimal}
    (hfits : value.Fits picture) :
    value.value.unscaled.natAbs < 10 ^ (picture.integerDigits + picture.scale) := by
  have hwhole := hfits.whole_part
  rw [Nat.div_lt_iff_lt_mul (Nat.pow_pos (by decide)), ← Nat.pow_add] at hwhole
  exact hwhole

/-- The digits of a value parse to the value. -/
theorem parse_rendered (d : DigitData) {picture : PictureSpec} {value : CobolDecimal}
    (hfits : value.Fits picture) {digits : Text} (hdigits : ∀ c ∈ digits, isDigitAscii c = true)
    (hvalue : digitsValue digits = value.value.unscaled.natAbs) (hne : digits ≠ [])
    (hlength : picture.scale ≤ digits.length) (hscale : picture.scale ≤ intMax) :
    let literal := ((if isNegative picture value then ['-'] else []) ++
      digits.take (digits.length - picture.scale) ++
        pointText (digits.drop (digits.length - picture.scale))).map unit
    parse d literal = .ok value.value ∧ literalScale literal = picture.scale := by
  have hwhole : ∀ c ∈ digits.take (digits.length - picture.scale), isDigitAscii c = true :=
    fun c hc => hdigits c (List.mem_of_mem_take hc)
  have hfraction : ∀ c ∈ digits.drop (digits.length - picture.scale), isDigitAscii c = true :=
    fun c hc => hdigits c (List.mem_of_mem_drop hc)
  have hcount : (digits.drop (digits.length - picture.scale)).length = picture.scale := by
    rw [List.length_drop]
    omega
  have hsplit := List.take_append_drop (digits.length - picture.scale) digits
  dsimp only
  constructor
  · rw [parse_plain d _ hwhole hfraction (by rwa [hsplit]) (by omega), hsplit, hvalue, hcount]
    refine make_eq_ok.mpr ⟨?_, hfits.value_scale⟩
    cases hnegative : isNegative picture value with
    | true =>
        simp only [isNegative, Bool.and_eq_true, decide_eq_true_eq] at hnegative
        have hlt := hnegative.2
        simp only [if_true]
        omega
    | false =>
        have hle : 0 ≤ value.value.unscaled := by
          cases hsigned : picture.signed with
          | false => exact hfits.nonneg hsigned
          | true => simpa [isNegative, hsigned] using hnegative
        simp only [Bool.false_eq_true, if_false]
        omega
  · have hpoint : ∀ {before : Text}, (∀ c ∈ before, isDigitAscii c = true ∨ c = '-') →
        unit '.' ∉ before.map unit := by
      intro before hbefore hmem
      obtain ⟨c, hc, heq⟩ := List.mem_map.mp hmem
      rcases hbefore c hc with hdigit | rfl
      · exact unit_ne_of_isDigitAscii (e := '.') hdigit (by decide) heq
      · revert heq
        decide
    have hbefore : ∀ c ∈ (if isNegative picture value then ['-'] else []) ++
        digits.take (digits.length - picture.scale), isDigitAscii c = true ∨ c = '-' := by
      intro c hc
      rcases List.mem_append.mp hc with hc | hc
      · split at hc
        · exact .inr (List.mem_singleton.mp hc)
        · cases hc
      · exact .inl (hwhole c hc)
    rw [List.map_append]
    generalize (if isNegative picture value then ['-'] else []) ++
      digits.take (digits.length - picture.scale) = before at hbefore ⊢
    unfold pointText
    split
    · rename_i hempty
      rw [List.map_nil, List.append_nil, literalScale_of_not_mem (hpoint hbefore)]
      rw [List.isEmpty_iff.mp hempty] at hcount
      exact hcount
    · rw [List.map_cons, literalScale_append (hpoint hbefore), List.length_map, hcount]

/-- Moving the rendered digits of a value stores it again. -/
theorem moveNumericLiteral_rendered_iff (d : DigitData) {value : CobolDecimal}
    {field : CobolField} (hnumeric : field.picture.isNumeric = true)
    (hfits : value.Fits field.picture) {digits : Text}
    (hdigits : ∀ c ∈ digits, isDigitAscii c = true)
    (hvalue : digitsValue digits = value.value.unscaled.natAbs) (hne : digits ≠ [])
    (hlength : field.picture.scale ≤ digits.length) (hscale : field.picture.scale ≤ intMax) :
    After (moveNumericLiteral d (units (rendered field.picture value digits)))
        (fun _ => Holds value) (fun _ _ => False) field ↔
      supported (10 ^ field.picture.integerDigits) = true ∧
        supported (10 ^ field.picture.scale) = true := by
  have hmem : ∀ c ∈ rendered field.picture value digits, c.toNat < 128 ∧ 32 < unit c :=
    fun _ hc => lt_unit_of_mem (mem_rendered hdigits hc)
  have hwhole : ∀ c ∈ digits.take (digits.length - field.picture.scale), isDigitAscii c = true :=
    fun c hc => hdigits c (List.mem_of_mem_take hc)
  obtain ⟨hparse, hliteral⟩ := parse_rendered d hfits hdigits hvalue hne hlength hscale
  obtain ⟨hminus, hstripped⟩ := @stripped_eq field.picture value _
    (digits.drop (digits.length - field.picture.scale)) hwhole
  have htrim : trimUnits ((rendered field.picture value digits).map unit) =
      (rendered field.picture value digits).map unit := by
    apply trimUnits_eq_self
    intro c hc
    obtain ⟨e, he, rfl⟩ := List.mem_map.mp hc
    exact (hmem e he).2
  have hflag : (isNegative field.picture value || field.picture.signed) = field.picture.signed := by
    unfold isNegative
    cases field.picture.signed <;> simp
  let kept : CobolDecimal := ⟨value.value, field.picture.scale, field.picture.signed,
    hfits.value_scale, hfits.nonneg⟩
  have hkept : CobolDecimal.ofValue value.value field.picture.scale field.picture.signed =
      .ok kept := by
    rw [CobolDecimal.ofValue_natCast, CobolDecimal.construct_self hfits.value_scale hfits.nonneg]
  have hkeptFits : kept.Fits field.picture :=
    ⟨rfl, hfits.value_scale, hfits.whole_part, hfits.nonneg, fun hsigned => hsigned⟩
  have hholds : Holds kept = Holds value := by
    unfold Holds
    rw [hfits.scale]
  rw [units_ascii fun c hc => (hmem c hc).1]
  unfold moveNumericLiteral
  rw [after_bind, after_get, after_bind, after_require, htrim, rendered_eq value hlength]
  dsimp only
  rw [hminus, hstripped, hflag, hliteral, CobolDecimal.ofLiteral, hparse, ok_bind, hkept,
    after_bind, after_returning, ← setNumericValue_holds_iff hnumeric hkeptFits, hholds]
  constructor
  · rintro ⟨hreturns, -⟩
    exact (hreturns hnumeric).1 kept rfl
  · intro hset
    refine ⟨fun _ => ⟨?_, fun e he => by cases he⟩, fun hnot => hnot hnumeric⟩
    intro a ha
    obtain rfl := Except.ok.inj ha
    exact hset

end Moving

section RoundTrips

def isDigitUnit (c : UInt16) : Bool :=
  48 ≤ c && c ≤ 57

def isSignUnit (c : UInt16) : Bool :=
  c == unit '-' || c == unit '+'

/-- The characters a picture asks for, each as often as it does. -/
structure ShowsPicture (picture : PictureSpec) (text : Units) : Prop where
  digits : text.countP isDigitUnit = picture.integerDigits + picture.scale
  signs : text.countP isSignUnit = if picture.signed then 1 else 0
  points : text.count (unit '.') = if 0 < picture.scale then 1 else 0
  length : text.length = picture.integerDigits + picture.scale +
    (if picture.signed then 1 else 0) + if 0 < picture.scale then 1 else 0

/-- A field displays the picture, moving the text into a field of the picture
restores the value, and no other value is displayed so. -/
def RoundTrips (u : UnicodeData) (d : DigitData) (field : CobolField) (value : CobolDecimal) :
    Prop :=
  ∃ text, field.displayValue u = .ok text ∧ ShowsPicture field.picture text ∧
    (∀ target : CobolField, target.picture = field.picture →
      After (moveNumericLiteral d text) (fun _ => Holds value) (fun _ _ => False) target) ∧
    ∀ (other : CobolField) (h : other.picture.isNumeric = true) (otherValue : CobolDecimal),
      other.picture = field.picture → other.WithinPicture →
      other.contents = .number h otherValue → other.displayValue u = .ok text →
      otherValue.value = value.value

theorem isDigitUnit_unit {c : Char} (h : isDigitAscii c = true) : isDigitUnit (unit c) = true := by
  have hrange := toNat_of_isDigitAscii h
  have hunit : (unit c).toNat = c.toNat := toNat_unit (by omega)
  unfold isDigitUnit
  rw [Bool.and_eq_true, decide_eq_true_eq, decide_eq_true_eq, UInt16.le_iff_toNat_le,
    UInt16.le_iff_toNat_le, hunit]
  exact hrange

theorem isSignUnit_unit {c : Char} (h : isDigitAscii c = true) : isSignUnit (unit c) = false := by
  unfold isSignUnit
  rw [Bool.or_eq_false_iff, beq_eq_false_iff_ne, beq_eq_false_iff_ne]
  exact ⟨unit_ne_of_isDigitAscii h (by decide), unit_ne_of_isDigitAscii h (by decide)⟩

/-- How often each kind of character stands in rendered digits. -/
theorem counts_rendered (picture : PictureSpec) (value : CobolDecimal) (digits : Text)
    (p : UInt16 → Bool) :
    ((rendered picture value digits).map unit).countP p =
      ((signText picture value).map unit).countP p + (digits.map unit).countP p +
        if 0 < picture.scale then [unit '.'].countP p else 0 := by
  unfold rendered
  rw [List.map_append, List.countP_append]
  split
  · have hsplit := congrArg (fun t => (t.map unit).countP p)
      (List.take_append_drop (digits.length - picture.scale) digits)
    simp only [List.map_append, List.countP_append] at hsplit
    simp only [List.map_append, List.map_cons, List.countP_append, List.countP_cons,
      List.countP_nil]
    omega
  · omega

theorem countP_signText {p : UInt16 → Bool} {b : Bool} (hminus : p (unit '-') = b)
    (hplus : p (unit '+') = b) (picture : PictureSpec) (value : CobolDecimal) :
    ((signText picture value).map unit).countP p = if picture.signed && b then 1 else 0 := by
  unfold signText
  cases picture.signed with
  | false => rfl
  | true =>
      by_cases hnegative : value.value.unscaled < 0
      · cases b <;> simp [hnegative, hminus]
      · cases b <;> simp [hnegative, hplus]

theorem countP_digits {p : UInt16 → Bool} {b : Bool} {digits : Text}
    (h : ∀ c ∈ digits, p (unit c) = b) :
    (digits.map unit).countP p = if b then digits.length else 0 := by
  rw [List.countP_map]
  cases b with
  | true => exact List.countP_eq_length.mpr h
  | false => exact List.countP_eq_zero.mpr fun c hc => Bool.eq_false_iff.mp (h c hc)

theorem showsPicture_rendered {picture : PictureSpec} {value : CobolDecimal} {digits : Text}
    (hdigits : ∀ c ∈ digits, isDigitAscii c = true)
    (hlength : digits.length = picture.integerDigits + picture.scale) :
    ShowsPicture picture ((rendered picture value digits).map unit) := by
  constructor
  · rw [counts_rendered, countP_signText (b := false) (by decide) (by decide),
      countP_digits (b := true) fun c hc => isDigitUnit_unit (hdigits c hc)]
    simp [hlength, show isDigitUnit (unit '.') = false by decide]
  · rw [counts_rendered, countP_signText (b := true) (by decide) (by decide),
      countP_digits (b := false) fun c hc => isSignUnit_unit (hdigits c hc)]
    simp [show isSignUnit (unit '.') = false by decide]
  · have hpoint : ∀ c ∈ digits, (unit c == unit '.') = false := fun c hc =>
      beq_eq_false_iff_ne.mpr (unit_ne_of_isDigitAscii (e := '.') (hdigits c hc) (by decide))
    rw [List.count, counts_rendered, countP_signText (b := false) (by decide) (by decide),
      countP_digits (b := false) hpoint]
    simp
  · rw [← List.countP_true, counts_rendered, countP_signText (b := true) rfl rfl,
      countP_digits (b := true) fun c hc => rfl]
    simp only [hlength, Bool.and_true, if_true, List.countP_true, List.length_singleton]
    omega

theorem displayValue_eq (u : UnicodeData) {field : CobolField}
    {hnumeric : field.picture.isNumeric = true} {value : CobolDecimal}
    (hheld : field.contents = .number hnumeric value)
    (hscale : value.value.scale = field.picture.scale) :
    field.displayValue u =
      (padTo (toInt (field.picture.integerDigits + field.picture.scale))
        (natText value.value.unscaled.natAbs)).map
          fun digits => units (rendered field.picture value digits) := by
  unfold displayValue
  rw [hheld]
  dsimp only
  rw [formatNumericForDisplay_eq u hscale]
  cases padTo (toInt (field.picture.integerDigits + field.picture.scale))
    (natText value.value.unscaled.natAbs) <;> rfl

/-- The digits a displayed value is shown by. -/
theorem padTo_of_fits {picture : PictureSpec} {value : CobolDecimal} (hfits : value.Fits picture)
    (hpos : 0 < picture.integerDigits + picture.scale)
    (hwidth : picture.integerDigits + picture.scale ≤ intMax) :
    padTo (toInt (picture.integerDigits + picture.scale)) (natText value.value.unscaled.natAbs) =
        .ok (padded (picture.integerDigits + picture.scale) value.value.unscaled.natAbs) ∧
      (padded (picture.integerDigits + picture.scale) value.value.unscaled.natAbs).length =
        picture.integerDigits + picture.scale := by
  have hlength := length_natText_le hpos (natAbs_lt_of_fits hfits)
  exact ⟨padTo_of_le hlength hwidth, length_padded hlength⟩

/-- A display with all its digits has a width that is an `int`. -/
theorem width_le_of_displays {u : UnicodeData} {field : CobolField}
    {hnumeric : field.picture.isNumeric = true} {value : CobolDecimal}
    (hheld : field.contents = .number hnumeric value)
    (hscale : value.value.scale = field.picture.scale) {text : Units}
    (hdisplay : field.displayValue u = .ok text) (hshows : ShowsPicture field.picture text) :
    field.picture.integerDigits + field.picture.scale ≤ intMax := by
  rw [displayValue_eq u hheld hscale] at hdisplay
  cases hpad : padTo (toInt (field.picture.integerDigits + field.picture.scale))
      (natText value.value.unscaled.natAbs) with
  | error e =>
      rw [hpad] at hdisplay
      cases hdisplay
  | ok digits =>
      rw [hpad] at hdisplay
      obtain rfl := Except.ok.inj hdisplay
      have hdigits := isDigitAscii_of_mem_padTo hpad
      have hcount : (units (rendered field.picture value digits)).countP isDigitUnit =
          field.picture.integerDigits + field.picture.scale := hshows.digits
      rw [units_ascii fun c hc => (lt_unit_of_mem (mem_rendered hdigits hc)).1, counts_rendered,
        countP_signText (b := false) (by decide) (by decide),
        countP_digits (b := true) fun c hc => isDigitUnit_unit (hdigits c hc)] at hcount
      simp only [Bool.and_false, Bool.false_eq_true, if_false, if_true, Nat.zero_add,
        List.countP_singleton, show isDigitUnit (unit '.') = false by decide, ite_self,
        Nat.add_zero] at hcount
      have hlow := Int.le_bmod (x := field.picture.integerDigits + field.picture.scale)
        (m := 2 ^ 32) (by decide)
      have hhigh := Int.bmod_lt (x := field.picture.integerDigits + field.picture.scale)
        (m := 2 ^ 32) (by decide)
      have hlength := @length_of_padTo (toInt _) ⟨hlow, hhigh⟩ _ _
        (length_natText_le_intMax value.value.supported_unscaled) hpad
      have hmax : intMax = 2147483647 := rfl
      unfold toInt at hlength
      omega

/-- What a field within its picture shows, when the width is an `int`. -/
theorem displayValue_of_fits (u : UnicodeData) {field : CobolField}
    {hnumeric : field.picture.isNumeric = true} {value : CobolDecimal}
    (hheld : field.contents = .number hnumeric value) (hfits : value.Fits field.picture)
    (hpos : 0 < field.picture.integerDigits + field.picture.scale)
    (hwidth : field.picture.integerDigits + field.picture.scale ≤ intMax) :
    field.displayValue u = .ok (units (rendered field.picture value
      (padded (field.picture.integerDigits + field.picture.scale)
        value.value.unscaled.natAbs))) := by
  rw [displayValue_eq u hheld hfits.value_scale, (padTo_of_fits hfits hpos hwidth).1]
  rfl

theorem isDigitAscii_of_mem_padded {width n : Nat} : ∀ c ∈ padded width n, isDigitAscii c = true := by
  intro c hc
  rcases List.mem_append.mp hc with hc | hc
  · rw [List.eq_of_mem_replicate hc]
    rfl
  · exact isDigitAscii_of_mem_natText hc

/-- The shown text is taken back when the powers of ten are supported. -/
theorem taken_back_iff (d : DigitData) {value : CobolDecimal} {field : CobolField}
    (hnumeric : field.picture.isNumeric = true) (hfits : value.Fits field.picture)
    (hpos : 0 < field.picture.integerDigits + field.picture.scale)
    (hwidth : field.picture.integerDigits + field.picture.scale ≤ intMax) :
    After (moveNumericLiteral d (units (rendered field.picture value
        (padded (field.picture.integerDigits + field.picture.scale)
          value.value.unscaled.natAbs)))) (fun _ => Holds value) (fun _ _ => False) field ↔
      supported (10 ^ field.picture.integerDigits) = true ∧
        supported (10 ^ field.picture.scale) = true := by
  have hlength := (padTo_of_fits hfits hpos hwidth).2
  have hne : padded (field.picture.integerDigits + field.picture.scale)
      value.value.unscaled.natAbs ≠ [] := by
    rw [← List.length_pos_iff, hlength]
    exact hpos
  exact moveNumericLiteral_rendered_iff d hnumeric hfits isDigitAscii_of_mem_padded
    (digitsValue_padded _ _) hne (by omega) (by omega)

/-- A numeric field within its picture goes through its display exactly when the
width and the powers of ten of the picture are in range. -/
theorem roundTrips_of_withinPicture (u : UnicodeData) (d : DigitData) {field : CobolField}
    (hwithin : field.WithinPicture) {hnumeric : field.picture.isNumeric = true}
    {value : CobolDecimal} (hheld : field.contents = .number hnumeric value)
    (hpos : 0 < field.picture.integerDigits + field.picture.scale) :
    RoundTrips u d field value ↔
      field.picture.integerDigits + field.picture.scale ≤ intMax ∧
        supported (10 ^ field.picture.integerDigits) = true ∧
        supported (10 ^ field.picture.scale) = true := by
  have hfits : ∀ {other : CobolField} {h : other.picture.isNumeric = true} {w : CobolDecimal},
      other.WithinPicture → other.contents = .number h w → w.Fits other.picture := by
    intro other h w hother hcontents
    unfold WithinPicture at hother
    rwa [hcontents] at hother
  have hvalue := hfits hwithin hheld
  constructor
  · rintro ⟨text, hdisplay, hshows, hrestores, -⟩
    have hwidth := width_le_of_displays hheld hvalue.value_scale hdisplay hshows
    rw [displayValue_of_fits u hheld hvalue hpos hwidth] at hdisplay
    obtain rfl := Except.ok.inj hdisplay
    exact ⟨hwidth, (taken_back_iff d hnumeric hvalue hpos hwidth).mp (hrestores field rfl)⟩
  · rintro ⟨hwidth, hsupported⟩
    have hrestores : ∀ {w : CobolDecimal} {target : CobolField},
        target.picture = field.picture → w.Fits field.picture →
        After (moveNumericLiteral d (units (rendered field.picture w
          (padded (field.picture.integerDigits + field.picture.scale)
            w.value.unscaled.natAbs)))) (fun _ => Holds w) (fun _ _ => False) target := by
      intro w target htarget hw
      rw [← htarget] at hw hpos hwidth hnumeric hsupported ⊢
      exact (taken_back_iff d hnumeric hw hpos hwidth).mpr hsupported
    refine ⟨_, displayValue_of_fits u hheld hvalue hpos hwidth, ?_,
      fun target htarget => hrestores htarget hvalue, ?_⟩
    · rw [units_ascii fun c hc =>
        (lt_unit_of_mem (mem_rendered isDigitAscii_of_mem_padded hc)).1]
      exact showsPicture_rendered isDigitAscii_of_mem_padded (padTo_of_fits hvalue hpos hwidth).2
    · intro other h w hpicture hother hcontents hdisplay
      have hw := hfits hother hcontents
      rw [displayValue_of_fits u hcontents hw (hpicture ▸ hpos) (hpicture ▸ hwidth)] at hdisplay
      rw [hpicture] at hw hdisplay
      -- the same text moved into the field holds both values
      have hboth := (@hrestores _ field rfl hw).and
        (Except.ok.inj hdisplay ▸ @hrestores _ field rfl hvalue)
      unfold After at hboth
      split at hboth
      · obtain ⟨⟨_, held, hheld₁, hequal₁, -⟩, ⟨_, held', hheld₂, hequal₂, -⟩⟩ := hboth
        rw [hheld₁] at hheld₂
        obtain rfl := (Contents.number.inj hheld₂)
        exact hequal₁.symm.trans hequal₂
      · exact hboth.1.elim

end RoundTrips

end C2c.Runtime.CobolField
