import C2c.Library.JavaText
import Mathlib.Data.List.DropRight

/-!
Times of Go's `time` package in the RFC 3339 texts that JSON carries.
-/

namespace C2c.Library.GoTime

open C2c.Library.JavaText

def isLeap (year : Nat) : Bool :=
  year % 4 == 0 && (year % 100 != 0 || year % 400 == 0)

/-- `daysIn`. -/
def daysIn (month year : Nat) : Nat :=
  if month = 2 then if isLeap year then 29 else 28
  else if month = 4 ∨ month = 6 ∨ month = 9 ∨ month = 11 then 30
  else 31

/-- What a text of a time holds; `offset` counts minutes to the east. -/
structure Fields where
  year : Nat
  month : Nat
  day : Nat
  hour : Nat
  minute : Nat
  second : Nat
  nanosecond : Nat
  offset : Int
deriving DecidableEq

/-- A day of the calendar, a time of the day and an offset of at most 99 hours
and 99 minutes. -/
def Fields.InRange (f : Fields) : Prop :=
  f.year < 10000 ∧ 1 ≤ f.month ∧ f.month ≤ 12 ∧ 1 ≤ f.day ∧ f.day ≤ daysIn f.month f.year ∧
    f.hour < 24 ∧ f.minute < 60 ∧ f.second < 60 ∧ f.nanosecond < 1000000000 ∧
    f.offset.natAbs ≤ 6039

instance (f : Fields) : Decidable f.InRange := by
  unfold Fields.InRange
  infer_instance

/-- A `time.Time`, by its date and clock in its own zone. -/
structure Time extends Fields where
  inRange : toFields.InRange
deriving DecidableEq

def daysBeforeYear (year : Nat) : Nat :=
  365 * year + (year + 3) / 4 - (year + 99) / 100 + (year + 399) / 400

def daysBeforeMonth (month year : Nat) : Nat :=
  ((List.range month).drop 1).foldl (fun days m => days + daysIn m year) 0

/-- The seconds since the start of the year 0. -/
def Fields.seconds (f : Fields) : Int :=
  (86400 * (daysBeforeYear f.year + daysBeforeMonth f.month f.year + (f.day - 1)) +
    3600 * f.hour + 60 * f.minute + f.second : Nat) - 60 * f.offset

/-- `t.IsZero()`. -/
def Time.isZero (t : Time) : Bool :=
  t.seconds == (86400 * 366 : Nat) && t.nanosecond == 0

/-- `t.Before(u)`. -/
def Time.before (t u : Time) : Bool :=
  decide (t.seconds < u.seconds) || (t.seconds == u.seconds && decide (t.nanosecond < u.nanosecond))

/-- The zero time. -/
def Time.zero : Time where
  year := 1
  month := 1
  day := 1
  hour := 0
  minute := 0
  second := 0
  nanosecond := 0
  offset := 0
  inRange := by decide

/-! Writing. -/

/-- The last digits of a number. -/
def padded : Nat → Nat → Text
  | 0, _ => []
  | width + 1, n => padded width (n / 10) ++ [Nat.digitChar (n % 10)]

def fractionText (nanosecond : Nat) : Text :=
  if nanosecond = 0 then [] else '.' :: (padded 9 nanosecond).rdropWhile (· == '0')

def zoneText (offset : Int) : Text :=
  if offset = 0 then ['Z']
  else (if offset < 0 then '-' else '+') :: (padded 2 (offset.natAbs / 60) ++
    ':' :: padded 2 (offset.natAbs % 60))

/-- `f.Format(time.RFC3339Nano)`. -/
def Fields.format (f : Fields) : Text :=
  padded 4 f.year ++ '-' :: (padded 2 f.month ++ '-' :: (padded 2 f.day ++ 'T' ::
    (padded 2 f.hour ++ ':' :: (padded 2 f.minute ++ ':' :: (padded 2 f.second ++
      (fractionText f.nanosecond ++ zoneText f.offset))))))

/-- `f.Format("20060102")`. -/
def Fields.dateText (f : Fields) : Text :=
  padded 4 f.year ++ padded 2 f.month ++ padded 2 f.day

/-- `t.MarshalJSON()`, before it is quoted. -/
def Time.marshal (t : Time) : Option Text :=
  if t.offset.natAbs < 1440 then some t.format else none

/-! Reading. -/

/-- A number of exactly the given digits. -/
def fixed (width : Nat) (t : Text) : Option (Nat × Text) :=
  let digits := t.take width
  if digits.length = width ∧ digits.all isDigitAscii = true then
    some (digitsValue digits, t.drop width)
  else none

def expect (c : Char) : Text → Option Text
  | d :: t => if d = c then some t else none
  | [] => none

/-- An hour, which may have one digit. -/
def hourOf (t : Text) : Option (Nat × Text) :=
  (fixed 2 t).or (fixed 1 t)

/-- A fraction of a second, of which nine digits count. -/
def fractionOf : Text → Nat × Text
  | c :: d :: t =>
      if (c = '.' ∨ c = ',') ∧ isDigitAscii d = true then
        let digits := (d :: t).takeWhile isDigitAscii
        (digitsValue ((digits ++ List.replicate 9 '0').take 9), (d :: t).dropWhile isDigitAscii)
      else (0, c :: d :: t)
  | t => (0, t)

/-- A zone and nothing after it. -/
def zoneOf : Text → Option Int
  | ['Z'] => some 0
  | c :: t => do
      if c = '+' ∨ c = '-' then
        let (hours, t) ← fixed 2 t
        let t ← expect ':' t
        let (minutes, t) ← fixed 2 t
        let offset : Nat := 60 * hours + minutes
        if t = [] then some (if c = '-' then -offset else offset) else none
      else none
  | [] => none

/-- `time.Parse(time.RFC3339, t)`. -/
def parse (t : Text) : Option Time := do
  let (year, t) ← fixed 4 t
  let t ← expect '-' t
  let (month, t) ← fixed 2 t
  let t ← expect '-' t
  let (day, t) ← fixed 2 t
  let t ← expect 'T' t
  let (hour, t) ← hourOf t
  let t ← expect ':' t
  let (minute, t) ← fixed 2 t
  let t ← expect ':' t
  let (second, t) ← fixed 2 t
  let (nanosecond, t) := fractionOf t
  let offset ← zoneOf t
  let fields : Fields := ⟨year, month, day, hour, minute, second, nanosecond, offset⟩
  if h : fields.InRange then some ⟨fields, h⟩ else none

theorem padded_length (width n : Nat) : (padded width n).length = width := by
  induction width generalizing n with
  | zero => rfl
  | succ width ih => rw [padded, List.length_append, ih]; rfl

theorem digit_digitChar : ∀ d < 10, isDigitAscii (Nat.digitChar d) = true ∧
    (Nat.digitChar d).toNat - 48 = d := by
  decide

theorem padded_digits (width n : Nat) : (padded width n).all isDigitAscii = true := by
  induction width generalizing n with
  | zero => rfl
  | succ width ih =>
      rw [padded, List.all_append, ih]
      simp [digit_digitChar (n % 10) (Nat.mod_lt n (by decide))]

theorem digitsValue_padded {width n : Nat} (h : n < 10 ^ width) :
    digitsValue (padded width n) = n := by
  induction width generalizing n with
  | zero =>
      rw [Nat.pow_zero] at h
      exact (Nat.lt_one_iff.mp h).symm
  | succ width ih =>
      have hdigit := (digit_digitChar (n % 10) (Nat.mod_lt n (by decide))).2
      have hrest : digitsValue (padded width (n / 10)) = n / 10 := by
        apply ih
        rw [Nat.pow_succ] at h
        omega
      rw [digitsValue] at hrest
      rw [padded, digitsValue, List.foldl_append, hrest, List.foldl_cons, List.foldl_nil, hdigit]
      omega

theorem fixed_padded {width n : Nat} (h : n < 10 ^ width) (rest : Text) :
    fixed width (padded width n ++ rest) = some (n, rest) := by
  have hlength := padded_length width n
  have htake : (padded width n ++ rest).take width = padded width n := by
    rw [List.take_append_of_le_length (by omega), List.take_of_length_le (by omega)]
  have hdrop : (padded width n ++ rest).drop width = rest := by
    rw [List.drop_append_of_le_length (by omega), List.drop_of_length_le (by omega),
      List.nil_append]
  simp only [fixed, htake, hdrop, hlength, padded_digits, digitsValue_padded h, and_self, if_true]

theorem hourOf_padded {n : Nat} (h : n < 100) (rest : Text) :
    hourOf (padded 2 n ++ rest) = some (n, rest) := by
  rw [hourOf, fixed_padded (by simpa using h), Option.some_or]

/-- The end of a fraction of a second. -/
def Ends (rest : Text) : Prop :=
  ∃ c t, rest = c :: t ∧ c ∈ ['Z', '+', '-']

theorem zoneText_ends (offset : Int) : Ends (zoneText offset) := by
  unfold zoneText
  split
  · exact ⟨'Z', [], rfl, by decide⟩
  split
  · exact ⟨'-', _, rfl, by decide⟩
  · exact ⟨'+', _, rfl, by decide⟩

/-- Trailing zeros do not change the nine digits of a fraction. -/
theorem rdropWhile_zeros {digits : Text} (h : digits.length = 9) :
    (digits.rdropWhile (· == '0') ++ List.replicate 9 '0').take 9 = digits := by
  have hsplit := @List.rdropWhile_append_rtakeWhile _ (· == '0') digits
  have hzeros : digits.rtakeWhile (· == '0') =
      List.replicate (digits.rtakeWhile (· == '0')).length '0' := by
    apply List.eq_replicate_iff.mpr
    refine ⟨rfl, fun c hc => ?_⟩
    simpa using List.mem_rtakeWhile_imp hc
  have hlength : (digits.rtakeWhile (· == '0')).length ≤ 9 := by
    rw [← h]
    exact (List.rtakeWhile_suffix (· == '0') digits).length_le
  obtain ⟨more, hmore⟩ := Nat.exists_eq_add_of_le hlength
  have hreplicate : List.replicate 9 '0' =
      digits.rtakeWhile (· == '0') ++ List.replicate more '0' := by
    rw [hzeros, List.replicate_append_replicate, ← hmore]
  rw [hreplicate, ← List.append_assoc, hsplit, ← h, List.take_left']
  rfl

theorem digits_stop {rest : Text} (h : Ends rest) :
    rest.takeWhile isDigitAscii = [] ∧ rest.dropWhile isDigitAscii = rest := by
  obtain ⟨c, t, rfl, hc⟩ := h
  have hdigit : ∀ c ∈ ['Z', '+', '-'], isDigitAscii c = false := by
    simp only [List.mem_cons, List.not_mem_nil, or_false, forall_eq_or_imp, forall_eq]
    decide
  simp [hdigit c hc]

theorem fractionOf_ends {rest : Text} (h : Ends rest) : fractionOf rest = (0, rest) := by
  obtain ⟨c, t, rfl, hc⟩ := h
  have hpoint : ∀ c ∈ ['Z', '+', '-'], ¬ (c = '.' ∨ c = ',') := by
    simp only [List.mem_cons, List.not_mem_nil, or_false, forall_eq_or_imp, forall_eq]
    decide
  cases t with
  | nil => rfl
  | cons d t => simp [fractionOf, hpoint c hc]

theorem fractionOf_text {nanosecond : Nat} (h : nanosecond < 1000000000) {rest : Text}
    (hrest : Ends rest) : fractionOf (fractionText nanosecond ++ rest) = (nanosecond, rest) := by
  rw [fractionText]
  split
  · next hzero => rw [List.nil_append, fractionOf_ends hrest, hzero]
  next hpositive =>
  have hvalue := @digitsValue_padded 9 nanosecond (by omega)
  have hzeros := rdropWhile_zeros (padded_length 9 nanosecond)
  have hall : ∀ c ∈ (padded 9 nanosecond).rdropWhile (· == '0'), isDigitAscii c = true := by
    intro c hc
    exact List.all_eq_true.mp (padded_digits 9 nanosecond) c
      ((List.rdropWhile_prefix (· == '0') _).subset hc)
  generalize (padded 9 nanosecond).rdropWhile (· == '0') = digits at hzeros hall ⊢
  cases digits with
  | nil =>
      rw [← hzeros] at hvalue
      exact absurd hvalue.symm hpositive
  | cons d digits =>
      have htake : (d :: digits ++ rest).takeWhile isDigitAscii = d :: digits := by
        rw [List.takeWhile_append_of_pos hall, (digits_stop hrest).1, List.append_nil]
      have hdrop : (d :: digits ++ rest).dropWhile isDigitAscii = rest := by
        rw [List.dropWhile_append_of_pos hall, (digits_stop hrest).2]
      rw [List.cons_append] at htake hdrop
      have hdigit := hall d List.mem_cons_self
      simp only [List.cons_append, fractionOf, true_or, hdigit, and_self, if_true, htake, hdrop]
      rw [← List.cons_append, hzeros, hvalue]

theorem zoneOf_signed {c : Char} (hc : c = '+' ∨ c = '-') {minutes : Nat} (h : minutes < 6000) :
    zoneOf (c :: (padded 2 (minutes / 60) ++ ':' :: padded 2 (minutes % 60))) =
      some (if c = '-' then -(minutes : Int) else minutes) := by
  have hhours := @fixed_padded 2 (minutes / 60) (by omega) (':' :: padded 2 (minutes % 60))
  have hminutes := @fixed_padded 2 (minutes % 60) (by omega) []
  rw [List.append_nil] at hminutes
  have hsum : 60 * (minutes / 60) + minutes % 60 = minutes := Nat.div_add_mod minutes 60
  have hopen : ∃ d t, padded 2 (minutes / 60) ++ ':' :: padded 2 (minutes % 60) = d :: t :=
    ⟨_, _, rfl⟩
  obtain ⟨d, t, ht⟩ := hopen
  rw [ht] at hhours ⊢
  simp only [zoneOf, hc, if_true, hhours, expect, hminutes, hsum, Option.bind_eq_bind,
    Option.bind_some]

theorem zoneOf_text {offset : Int} (h : offset.natAbs < 6000) :
    zoneOf (zoneText offset) = some offset := by
  rw [zoneText]
  split
  · next hzero => rw [hzero]; rfl
  split
  · rw [zoneOf_signed (.inr rfl) h, if_pos rfl]
    congr 1
    omega
  · rw [zoneOf_signed (.inl rfl) h, if_neg (by decide)]
    congr 1
    omega

theorem expect_cons (c : Char) (t : Text) : expect c (c :: t) = some t := by
  rw [expect, if_pos rfl]

theorem parse_format {f : Fields} (h : f.InRange) (hoffset : f.offset.natAbs < 6000) :
    parse f.format = some ⟨f, h⟩ := by
  obtain ⟨hyear, _, hmonth, _, hday, hhour, hminute, hsecond, hnanosecond, _⟩ := id h
  have hdays : f.day < 100 := by
    have : daysIn f.month f.year ≤ 31 := by
      unfold daysIn
      split_ifs <;> omega
    omega
  have hyear := fun rest => @fixed_padded 4 f.year (by omega) rest
  have hmonth := fun rest => @fixed_padded 2 f.month (by omega) rest
  have hday := fun rest => @fixed_padded 2 f.day (by omega) rest
  have hminute := fun rest => @fixed_padded 2 f.minute (by omega) rest
  have hsecond := fun rest => @fixed_padded 2 f.second (by omega) rest
  have hfraction := fractionOf_text hnanosecond (zoneText_ends f.offset)
  simp only [parse, Fields.format, hyear, hmonth, hday, hminute, hsecond, expect_cons,
    hourOf_padded (Nat.lt_trans hhour (by decide)), hfraction, zoneOf_text hoffset,
    Option.bind_eq_bind, Option.bind_some]
  exact dif_pos h

/-- A time that is written is read back. -/
theorem parse_marshal {t : Time} {text : Text} (h : t.marshal = some text) :
    parse text = some t := by
  unfold Time.marshal at h
  split at h
  · next hoffset =>
      rw [← Option.some.inj h]
      exact parse_format t.inRange (by omega)
  · cases h

end C2c.Library.GoTime
