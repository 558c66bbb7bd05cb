import C2c.TargetJava.JavaNumbers
import C2c.TargetJava.References

/-!
The references of a COBOL program as they are written, and what the generator
makes of them.
-/

namespace C2c.TargetJava.WrittenReferences

open C2c.Library.JavaText
open C2c.TargetJava.Literals
open C2c.TargetJava.References
open C2c.TargetJava.JavaNumbers

section Writing

/-- Blanks, of the ASCII range. -/
def IsGap (t : Text) : Prop :=
  ∀ c ∈ t, c.toNat < 128 ∧ isWhitespace c = true

def isDataCharacter (c : Char) : Bool :=
  c.isAlpha || isDigitAscii c || c == '-'

/-- A data name of COBOL. -/
structure IsDataName (name : Text) : Prop where
  characters : ∀ c ∈ name, isDataCharacter c = true
  head : ∃ c, name.head? = some c ∧ c.isAlpha = true

def upper (t : Text) : Text :=
  t.map Char.toUpper

/-- A name, the blanks behind it, and a subscript between blanks. -/
def subscripted (name before inner core after : Text) : Text :=
  name ++ before ++ '(' :: (inner ++ core ++ after) ++ [')']

/-- The texts of a reference; COBOL does not tell its cases apart. -/
inductive Written : Place → Text → Prop
  | scalar {name : Text} (hname : IsDataName name) : Written (.scalar (upper name)) name
  | constant {name before inner digits after : Text} (hname : IsDataName name)
      (hbefore : IsGap before) (hinner : IsGap inner) (hafter : IsGap after)
      (hdigits : ∀ c ∈ digits, isDigitAscii c = true) (hne : digits ≠ []) :
      Written (.constant (upper name) (digitsValue digits))
        (subscripted name before inner digits after)
  | element {name before inner text after : Text} {index : Place} (hname : IsDataName name)
      (hbefore : IsGap before) (hinner : IsGap inner) (hafter : IsGap after)
      (hindex : Written index text) :
      Written (.element (upper name) index) (subscripted name before inner text after)

/-- The fields of a reference are declared, as tables where it has a subscript. -/
def Declared (fields : Fields) : Place → Prop
  | .scalar name => ∃ field, fields.get name = some field ∧ field.array = false
  | .constant name index =>
      (∃ field, fields.get name = some field ∧ field.array = true) ∧ index ≤ intMax
  | .element name index =>
      (∃ field, fields.get name = some field ∧ field.array = true) ∧ Declared fields index

/-- The variable of the generated class for a COBOL name. -/
def variableOf (fields : Fields) (name : Text) : Text :=
  match fields.get name with
  | some field => field.fieldVar
  | none => []

/-- A place of the program as a place of the generated class. -/
def inJava (fields : Fields) : Place → Place
  | .scalar name => .scalar (variableOf fields name)
  | .constant name index => .constant (variableOf fields name) index
  | .element name index => .element (variableOf fields name) (inJava fields index)

end Writing

section Characters

theorem ascii_of_isAlpha {c : Char} (h : c.isAlpha = true) : c.toNat < 128 := by
  have hcases : (c.isUpper || c.isLower) = true := h
  rcases Bool.or_eq_true_iff.mp hcases with hupper | hlower
  · exact Nat.lt_of_le_of_lt (of_decide_eq_true hupper).2 (by decide)
  · exact Nat.lt_of_le_of_lt (of_decide_eq_true (Bool.and_eq_true_iff.mp hlower).2) (by decide)

theorem ascii_of_isDigitAscii {c : Char} (h : isDigitAscii c = true) : c.toNat < 128 := by
  simp only [isDigitAscii, Char.le_def, UInt32.le_iff_toNat_le, Bool.and_eq_true,
    decide_eq_true_eq] at h
  exact Nat.lt_of_le_of_lt h.2 (by decide)

theorem ascii_of_isDataCharacter {c : Char} (h : isDataCharacter c = true) : c.toNat < 128 := by
  simp only [isDataCharacter, Bool.or_eq_true, beq_iff_eq] at h
  rcases h with (h | h) | rfl
  · exact ascii_of_isAlpha h
  · exact ascii_of_isDigitAscii h
  · decide

theorem data_facts {c : Char} (h : isDataCharacter c = true) :
    isTrimmed c = false ∧ isWhitespace c = false ∧ c ≠ '(' ∧ c ≠ ')' ∧
      isDataCharacter c.toUpper = true ∧ c.toUpper.toUpper = c.toUpper := by
  have hall := of_ascii (p := fun c => !isDataCharacter c || (!isTrimmed c && !isWhitespace c &&
    c != '(' && c != ')' && isDataCharacter c.toUpper && c.toUpper.toUpper == c.toUpper))
    (by decide) (ascii_of_isDataCharacter h)
  simpa [h, and_assoc] using hall

theorem alpha_facts {c : Char} (h : c.isAlpha = true) :
    isDataCharacter c = true ∧ isDigitAscii c = false ∧ c ≠ '.' ∧ c ≠ '+' ∧ c ≠ '-' ∧
      c.toUpper.isAlpha = true := by
  have hall := of_ascii (p := fun c => !c.isAlpha || (isDataCharacter c && !isDigitAscii c &&
    c != '.' && c != '+' && c != '-' && c.toUpper.isAlpha)) (by decide) (ascii_of_isAlpha h)
  simpa [h, and_assoc] using hall

theorem digit_facts {c : Char} (h : isDigitAscii c = true) :
    isDataCharacter c = true ∧ c ≠ '.' ∧ c ≠ '+' ∧ c ≠ '-' ∧ c.toUpper = c := by
  have hall := of_ascii (p := fun c => !isDigitAscii c || (isDataCharacter c &&
    c != '.' && c != '+' && c != '-' && c.toUpper == c)) (by decide) (ascii_of_isDigitAscii h)
  simpa [h, and_assoc] using hall

theorem gap_facts {c : Char} (h : c.toNat < 128 ∧ isWhitespace c = true) :
    isTrimmed c = true ∧ c ≠ '(' ∧ c ≠ ')' ∧ c.toUpper = c ∧ isDataCharacter c = false ∧
      isDigitAscii c = false ∧ c ≠ '.' := by
  have hall := of_ascii (p := fun c => !isWhitespace c || (isTrimmed c && c != '(' && c != ')' &&
    c.toUpper == c && !isDataCharacter c && !isDigitAscii c && c != '.')) (by decide) h.1
  simpa [h.2, and_assoc] using hall

theorem upper_of_fixed {t : Text} (h : ∀ c ∈ t, c.toUpper = c) : upper t = t :=
  List.map_congr_left h |>.trans (List.map_id _)

theorem upper_gap {t : Text} (h : IsGap t) : upper t = t :=
  upper_of_fixed fun c hc => (gap_facts (h c hc)).2.2.2.1

theorem upper_digits {t : Text} (h : ∀ c ∈ t, isDigitAscii c = true) : upper t = t :=
  upper_of_fixed fun c hc => (digit_facts (h c hc)).2.2.2.2

@[simp] theorem upper_append (s t : Text) : upper (s ++ t) = upper s ++ upper t :=
  List.map_append

theorem toUpperCase_ascii (u : UnicodeData) {t : Text} (h : ∀ c ∈ t, c.toNat < 128) :
    u.toUpperCase t = upper t := by
  rw [UnicodeData.toUpperCase, upper, List.flatMap_congr fun c hc => u.upper_ascii c (h c hc)]
  exact List.flatMap_pure_eq_map _ _

theorem IsDataName.upper {name : Text} (h : IsDataName name) : IsDataName (upper name) := by
  constructor
  · intro c hc
    obtain ⟨d, hd, rfl⟩ := List.mem_map.mp hc
    exact (data_facts (h.characters d hd)).2.2.2.2.1
  · obtain ⟨c, hhead, hc⟩ := h.head
    refine ⟨c.toUpper, ?_, (alpha_facts hc).2.2.2.2.2⟩
    rw [WrittenReferences.upper, List.head?_map, hhead, Option.map_some]

theorem IsDataName.upper_upper {name : Text} (h : IsDataName name) :
    WrittenReferences.upper (WrittenReferences.upper name) = WrittenReferences.upper name := by
  apply upper_of_fixed
  intro c hc
  obtain ⟨d, hd, rfl⟩ := List.mem_map.mp hc
  exact (data_facts (h.characters d hd)).2.2.2.2.2

end Characters

section Trimming

/-- Trimming leaves such a text as it is. -/
structure Solid (t : Text) : Prop where
  filled : t ≠ []
  head : ∀ c, t.head? = some c → isTrimmed c = false
  last : ∀ c, t.getLast? = some c → isTrimmed c = false

theorem Solid.trim_eq {t : Text} (h : Solid t) : trim t = t :=
  trim_eq_self h.head h.last

theorem isWhitespace_of_not_isTrimmed {c : Char} (hascii : c.toNat < 128)
    (h : isTrimmed c = false) : isWhitespace c = false := by
  have hall := of_ascii (p := fun c => isTrimmed c || !isWhitespace c) (by decide) hascii
  simpa [h] using hall

theorem trim_padded {before core after : Text} (hbefore : IsGap before) (hcore : Solid core)
    (hafter : IsGap after) : trim (before ++ core ++ after) = core := by
  have hleft : ∀ c ∈ before, isTrimmed c = true := fun c hc => (gap_facts (hbefore c hc)).1
  have hright : ∀ c ∈ after.reverse, isTrimmed c = true := fun c hc =>
    (gap_facts (hafter c (List.mem_reverse.mp hc))).1
  have hdrop : (core ++ after).dropWhile isTrimmed = core ++ after := by
    cases core with
    | nil => exact absurd rfl hcore.filled
    | cons c core => simp [hcore.head c rfl]
  have hreverse : core.reverse.dropWhile isTrimmed = core.reverse := by
    cases hcons : core.reverse with
    | nil => rfl
    | cons c rest =>
        have hlast : core.getLast? = some c := by
          rw [← List.head?_reverse, hcons, List.head?_cons]
        simp [hcore.last c hlast]
  rw [trim, List.append_assoc, List.dropWhile_append_of_pos hleft, hdrop, List.rdropWhile,
    List.reverse_append, List.dropWhile_append_of_pos hright, hreverse, List.reverse_reverse]

theorem IsDataName.solid {name : Text} (h : IsDataName name) : Solid name := by
  have hall : ∀ c ∈ name, isTrimmed c = false := fun c hc => (data_facts (h.characters c hc)).1
  refine ⟨?_, fun c hc => hall c (List.mem_of_mem_head? hc),
    fun c hc => hall c (List.mem_of_mem_getLast? hc)⟩
  rintro rfl
  obtain ⟨c, hc, -⟩ := h.head
  cases hc

theorem solid_digits {digits : Text} (h : ∀ c ∈ digits, isDigitAscii c = true)
    (hne : digits ≠ []) : Solid digits := by
  have hall : ∀ c ∈ digits, isTrimmed c = false := fun c hc =>
    (data_facts (digit_facts (h c hc)).1).1
  exact ⟨hne, fun c hc => hall c (List.mem_of_mem_head? hc),
    fun c hc => hall c (List.mem_of_mem_getLast? hc)⟩

theorem solid_subscripted {name : Text} (h : IsDataName name) (before inner core after : Text) :
    Solid (subscripted name before inner core after) := by
  obtain ⟨c, hhead, hc⟩ := h.head
  have hname : name ≠ [] := by
    rintro rfl
    cases hhead
  refine ⟨by simp [subscripted], ?_, ?_⟩
  · intro d hd
    rw [subscripted, List.append_assoc, List.append_assoc, List.head?_append_of_ne_nil _ hname,
      hhead] at hd
    obtain rfl := Option.some.inj hd
    exact (data_facts (alpha_facts hc).1).1
  · intro d hd
    rw [subscripted, List.getLast?_concat] at hd
    obtain rfl := Option.some.inj hd
    decide

theorem Written.solid {place : Place} {t : Text} (h : Written place t) : Solid t := by
  cases h with
  | scalar hname => exact hname.solid
  | constant hname => exact solid_subscripted hname _ _ _ _
  | element hname => exact solid_subscripted hname _ _ _ _

end Trimming

section Texts

theorem mem_subscripted {name before inner core after : Text} {c : Char}
    (h : c ∈ subscripted name before inner core after) :
    c ∈ name ∨ c ∈ before ∨ c = '(' ∨ c ∈ inner ∨ c ∈ core ∨ c ∈ after ∨ c = ')' := by
  simpa [subscripted, or_assoc] using h

theorem Written.ascii {place : Place} {t : Text} (h : Written place t) :
    ∀ c ∈ t, c.toNat < 128 := by
  have hnames {name : Text} (hname : IsDataName name) : ∀ c ∈ name, c.toNat < 128 := fun c hc =>
    ascii_of_isDataCharacter (hname.characters c hc)
  induction h with
  | scalar hname => exact hnames hname
  | constant hname hbefore hinner hafter hdigits hne =>
      intro c hc
      rcases mem_subscripted hc with hc | hc | rfl | hc | hc | hc | rfl
      · exact hnames hname c hc
      · exact (hbefore c hc).1
      · decide
      · exact (hinner c hc).1
      · exact ascii_of_isDigitAscii (hdigits c hc)
      · exact (hafter c hc).1
      · decide
  | element hname hbefore hinner hafter hindex ih =>
      intro c hc
      rcases mem_subscripted hc with hc | hc | rfl | hc | hc | hc | rfl
      · exact hnames hname c hc
      · exact (hbefore c hc).1
      · decide
      · exact (hinner c hc).1
      · exact ih c hc
      · exact (hafter c hc).1
      · decide

theorem upper_subscripted {before inner after : Text} (hbefore : IsGap before)
    (hinner : IsGap inner) (hafter : IsGap after) (name core : Text) :
    upper (subscripted name before inner core after) =
      subscripted (upper name) before inner (upper core) after := by
  have hopen (s : Text) : upper ('(' :: s) = '(' :: upper s := rfl
  have hclose : upper [')'] = [')'] := rfl
  simp only [subscripted, upper_append, hopen, hclose, upper_gap hbefore, upper_gap hinner,
    upper_gap hafter]

/-- A reference in upper case is the same reference. -/
theorem Written.upper {place : Place} {t : Text} (h : Written place t) :
    Written place (upper t) := by
  induction h with
  | scalar hname =>
      have hwritten := Written.scalar hname.upper
      rwa [hname.upper_upper] at hwritten
  | constant hname hbefore hinner hafter hdigits hne =>
      rw [upper_subscripted hbefore hinner hafter, upper_digits hdigits]
      have hwritten := Written.constant hname.upper hbefore hinner hafter hdigits hne
      rwa [hname.upper_upper] at hwritten
  | element hname hbefore hinner hafter hindex ih =>
      rw [upper_subscripted hbefore hinner hafter]
      have hwritten := Written.element hname.upper hbefore hinner hafter ih
      rwa [hname.upper_upper] at hwritten

theorem lastIndexOf_concat (c : Char) (t : Text) : lastIndexOf c (t ++ [c]) = some t.length := by
  induction t with
  | nil => simp [lastIndexOf]
  | cons d t ih => simp [lastIndexOf, ih]

theorem notMem_head {name before : Text} (hname : IsDataName name) (hbefore : IsGap before) :
    '(' ∉ name ++ before := by
  intro hmem
  rcases List.mem_append.mp hmem with hc | hc
  · exact (data_facts (hname.characters _ hc)).2.2.1 rfl
  · exact (gap_facts (hbefore _ hc)).2.1 rfl

end Texts

section Resolving

variable (u : UnicodeData)

/-- The name a reference begins with. -/
def headName : Place → Text
  | .scalar name | .constant name _ | .element name _ => name

theorem referenceName_scalar {name : Text} (h : IsDataName name) :
    referenceName u name = upper name ∧ referenceIndex name = none := by
  have hascii : ∀ c ∈ name, c.toNat < 128 := fun c hc =>
    ascii_of_isDataCharacter (h.characters c hc)
  have hopen : '(' ∉ upper name := fun hmem =>
    (data_facts (h.upper.characters _ hmem)).2.2.1 rfl
  have hnot : '(' ∉ name := fun hmem => (data_facts (h.characters _ hmem)).2.2.1 rfl
  simp only [referenceName, referenceIndex, h.solid.trim_eq, toUpperCase_ascii u hascii,
    indexOf_of_not_mem hopen, indexOf_of_not_mem hnot, and_self]

theorem indexOf_subscripted {name before : Text} (hname : IsDataName name)
    (hbefore : IsGap before) (inner core after : Text) :
    indexOf ['('] (subscripted name before inner core after) = some (name ++ before).length := by
  rw [subscripted, List.append_assoc]
  exact indexOf_append_cons (notMem_head hname hbefore) _

theorem referenceName_subscripted {name before inner core after : Text} (hname : IsDataName name)
    (hbefore : IsGap before) (hinner : IsGap inner) (hafter : IsGap after)
    (hcore : ∀ c ∈ core, c.toNat < 128) :
    referenceName u (subscripted name before inner core after) = upper name := by
  have hascii : ∀ c ∈ subscripted name before inner core after, c.toNat < 128 := by
    intro c hc
    rcases mem_subscripted hc with hc | hc | rfl | hc | hc | hc | rfl
    · exact ascii_of_isDataCharacter (hname.characters c hc)
    · exact (hbefore c hc).1
    · decide
    · exact (hinner c hc).1
    · exact hcore c hc
    · exact (hafter c hc).1
    · decide
  have htake : (subscripted (upper name) before inner (upper core) after).take
      (upper name ++ before).length = upper name ++ before := by
    rw [subscripted, List.append_assoc, List.take_left]
  have hgap : trim ([] ++ upper name ++ before) = upper name :=
    trim_padded (by simp [IsGap]) hname.upper.solid hbefore
  simp only [referenceName, (solid_subscripted hname before inner core after).trim_eq,
    toUpperCase_ascii u hascii, upper_subscripted hbefore hinner hafter,
    indexOf_subscripted hname.upper hbefore, htake]
  exact hgap

theorem referenceIndex_subscripted {name before inner core after : Text} (hname : IsDataName name)
    (hbefore : IsGap before) (hinner : IsGap inner) (hafter : IsGap after) (hcore : Solid core) :
    referenceIndex (subscripted name before inner core after) = some core := by
  have hlast : lastIndexOf ')' (subscripted name before inner core after) =
      some (name ++ before ++ '(' :: (inner ++ core ++ after)).length :=
    lastIndexOf_concat ')' _
  have hsubstring : substring (subscripted name before inner core after)
      ((name ++ before).length + 1) (name ++ before ++ '(' :: (inner ++ core ++ after)).length =
        inner ++ core ++ after := by
    rw [substring, subscripted, List.take_left, List.drop_length_add_append]
    rfl
  have hlt : (name ++ before).length <
      (name ++ before ++ '(' :: (inner ++ core ++ after)).length := by
    simp only [List.length_append, List.length_cons]
    omega
  simp only [referenceIndex, (solid_subscripted hname before inner core after).trim_eq,
    indexOf_subscripted hname hbefore, hlast, hlt, if_true, hsubstring,
    trim_padded hinner hcore hafter]

theorem isBlank_of_solid {t : Text} (h : Solid t) (hascii : ∀ c ∈ t, c.toNat < 128) :
    isBlank t = false := by
  cases t with
  | nil => exact absurd rfl h.filled
  | cons c t =>
      have hc := isWhitespace_of_not_isTrimmed (hascii c List.mem_cons_self) (h.head c rfl)
      simp [isBlank, hc]

theorem isNumericLiteral_digits {digits : Text} (h : ∀ c ∈ digits, isDigitAscii c = true)
    (hne : digits ≠ []) : isNumericLiteral digits = true := by
  have hsign : dropSign digits = digits := by
    cases digits with
    | nil => rfl
    | cons c digits =>
        obtain ⟨-, -, hplus, hminus, -⟩ := digit_facts (h c List.mem_cons_self)
        simp [dropSign, hplus, hminus]
  have htake : digits.takeWhile isDigitAscii = digits := List.takeWhile_eq_self_iff.mpr h
  have hdrop : digits.dropWhile isDigitAscii = [] := List.dropWhile_eq_nil_iff.mpr h
  rw [isNumericLiteral, (solid_digits h hne).trim_eq, hsign, isUnsignedNumber]
  simp [htake, hdrop, hne]

theorem Written.head {place : Place} {t : Text} (h : Written place t) :
    ∃ c rest, t = c :: rest ∧ c.isAlpha = true := by
  have hname {name : Text} (hname : IsDataName name) (rest : Text) :
      ∃ c rest', name ++ rest = c :: rest' ∧ c.isAlpha = true := by
    obtain ⟨c, hc, halpha⟩ := hname.head
    obtain ⟨tail, rfl⟩ := List.head?_eq_some_iff.mp hc
    exact ⟨c, _, List.cons_append, halpha⟩
  cases h with
  | scalar h => simpa using hname h []
  | constant h => simpa [subscripted, List.append_assoc] using hname h _
  | element h => simpa [subscripted, List.append_assoc] using hname h _

theorem isNumericLiteral_written {place : Place} {t : Text} (h : Written place t) :
    isNumericLiteral t = false := by
  obtain ⟨c, rest, rfl, hc⟩ := h.head
  obtain ⟨-, hdigit, hpoint, hplus, hminus, -⟩ := alpha_facts hc
  rw [isNumericLiteral, h.solid.trim_eq, dropSign]
  simp [hplus, hminus, isUnsignedNumber, hdigit, hpoint]

/-- A `double` holds every index a table has. -/
theorem nearestDoubleWhole_one (n : Nat) : nearestDoubleWhole n 1 = n := by
  have hscaled (shift : Nat) : n * 2 ^ shift / 2 ^ shift = n :=
    Nat.mul_div_cancel _ (Nat.two_pow_pos shift)
  simp only [nearestDoubleWhole, Nat.div_one, Nat.mod_one, Nat.mul_zero, Nat.not_lt_zero,
    Nat.zero_ne_one, false_and, or_self, if_false, hscaled]

theorem doubleIntValue_digits {digits : Text} (h : ∀ c ∈ digits, isDigitAscii c = true)
    (hne : digits ≠ []) (hmax : digitsValue digits ≤ intMax) :
    doubleIntValue (stripLeadingPlus digits) = digitsValue digits := by
  have hnot (e : Char) (he : isDigitAscii e = false) : startsWith digits [e] = false := by
    cases digits with
    | nil => rfl
    | cons c digits =>
        have hce : e ≠ c := by
          rintro rfl
          rw [h e List.mem_cons_self] at he
          cases he
        simp [startsWith, List.isPrefixOf, hce]
  have hsign : dropSign digits = digits := by
    cases digits with
    | nil => rfl
    | cons c digits =>
        obtain ⟨-, -, hplus, hminus, -⟩ := digit_facts (h c List.mem_cons_self)
        simp [dropSign, hplus, hminus]
  have hpoint : indexOf ['.'] digits = none :=
    indexOf_of_not_mem fun hmem => (digit_facts (h _ hmem)).2.1 rfl
  have hfilter : digits.filter isDigitAscii = digits := List.filter_eq_self.mpr h
  simp only [stripLeadingPlus, hnot '+' (by decide), doubleIntValue, hsign, hfilter, literalScale,
    hpoint, pow_zero, Nat.div_one, hnot '-' (by decide), Bool.false_eq_true, if_false,
    nearestDoubleWhole_one]
  split
  · omega
  · rfl

variable {site : Site}

/-- A subscripted reference to a table takes the element of its subscript. -/
theorem fieldReferenceWithin_table {name before inner core after expression : Text}
    {field : FieldEmission} {fuel : Nat} (hname : IsDataName name) (hbefore : IsGap before)
    (hinner : IsGap inner) (hafter : IsGap after) (hcore : Solid core)
    (hascii : ∀ c ∈ core, c.toNat < 128) (hget : site.fields.get (upper name) = some field)
    (harray : field.array = true) (helement : elementIndex u site fuel (some core) = pure expression) :
    fieldReferenceWithin u site (fuel + 1) (subscripted name before inner core after) =
      pure (some ⟨field, field.fieldVar ++ ".get(".toList ++ expression ++ [')']⟩) := by
  have hreference := referenceName_subscripted u hname hbefore hinner hafter hascii
  have hindex := referenceIndex_subscripted hname hbefore hinner hafter hcore
  have hname := isBlank_of_solid hname.upper.solid fun c hc =>
    ascii_of_isDataCharacter (hname.upper.characters c hc)
  rw [fieldReferenceWithin, hreference, hindex]
  simp only [hname, hget, harray, helement, Option.all_some, isBlank_of_solid hcore hascii, pure_bind,
    Bool.false_eq_true, if_false, if_true]

theorem elementIndex_digits {digits : Text} (h : ∀ c ∈ digits, isDigitAscii c = true)
    (hne : digits ≠ []) (hmax : digitsValue digits ≤ intMax) (fuel : Nat) :
    elementIndex u site fuel (some digits) = pure (natText (digitsValue digits)) := by
  have hsolid := solid_digits h hne
  have hblank := isBlank_of_solid hsolid fun c hc => ascii_of_isDigitAscii (h c hc)
  have hnumber (n : Nat) : intText n = natText n := by
    simp [intText, Int.not_lt.mpr (Int.natCast_nonneg n)]
  rw [elementIndex]
  simp only [hblank, hsolid.trim_eq, isNumericLiteral_digits h hne, doubleIntValue_digits h hne hmax,
    hnumber, Bool.false_eq_true, if_false, if_true]

/-- The accessor of a declared reference, of which nothing is reported. -/
theorem fieldReferenceWithin_written {place : Place} {t : Text} (hwritten : Written place t)
    (hdeclared : Declared site.fields place) {fuel : Nat} (hfuel : place.depth ≤ fuel) :
    ∃ field, site.fields.get (headName place) = some field ∧
      fieldReferenceWithin u site fuel t =
        pure (some ⟨field, (inJava site.fields place).text⟩) := by
  induction hwritten generalizing fuel with
  | scalar hname =>
      obtain ⟨field, hget, harray⟩ := hdeclared
      obtain ⟨fuel, rfl⟩ : ∃ n, fuel = n + 1 := Nat.exists_eq_add_of_le' hfuel
      obtain ⟨hreference, hindex⟩ := referenceName_scalar u hname
      have hblank := isBlank_of_solid hname.upper.solid fun c hc =>
        ascii_of_isDataCharacter (hname.upper.characters c hc)
      refine ⟨field, hget, ?_⟩
      rw [fieldReferenceWithin, hreference, hindex]
      simp [hblank, hget, harray, inJava, Place.text, variableOf]
  | constant hname hbefore hinner hafter hdigits hne =>
      obtain ⟨⟨field, hget, harray⟩, hmax⟩ := hdeclared
      obtain ⟨fuel, rfl⟩ : ∃ n, fuel = n + 1 := Nat.exists_eq_add_of_le' hfuel
      refine ⟨field, hget, ?_⟩
      rw [fieldReferenceWithin_table u hname hbefore hinner hafter (solid_digits hdigits hne)
        (fun c hc => ascii_of_isDigitAscii (hdigits c hc)) hget harray
        (elementIndex_digits u hdigits hne hmax fuel), inJava, variableOf, hget]
      rfl
  | @element name before inner text after index hname hbefore hinner hafter hindex ih =>
      obtain ⟨⟨field, hget, harray⟩, hdeclared⟩ := hdeclared
      obtain ⟨fuel, rfl⟩ : ∃ n, fuel = n + 1 :=
        Nat.exists_eq_add_of_le' ((Nat.le_add_left 1 _).trans hfuel)
      obtain ⟨field', -, hreference⟩ := ih hdeclared (Nat.le_of_succ_le_succ hfuel)
      have hblank := isBlank_of_solid hindex.solid hindex.ascii
      have helement : elementIndex u site fuel (some text) =
          pure ((inJava site.fields index).text ++ ".intValueExact()".toList) := by
        rw [elementIndex]
        simp only [hblank, hindex.solid.trim_eq, isNumericLiteral_written hindex, hreference,
          pure_bind, Bool.false_eq_true, if_false]
      refine ⟨field, hget, ?_⟩
      rw [fieldReferenceWithin_table u hname hbefore hinner hafter hindex.solid hindex.ascii hget harray
        helement, inJava, variableOf, hget]
      simp [Place.text, getText, intValueText]

end Resolving

end C2c.TargetJava.WrittenReferences
