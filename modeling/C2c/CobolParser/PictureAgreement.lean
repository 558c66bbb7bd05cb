import C2c.CobolParser.DataDivision
import C2c.Runtime.PictureSpec

namespace C2c.CobolParser.PictureAgreement

open C2c.Library.JavaText
open C2c.Library.JavaObject
open C2c.CobolParser.Model
open C2c.CobolParser.Tokens
open C2c.CobolParser.DataDivision
open C2c.Runtime
open C2c.Runtime.PictureSpec

/-- The parser's metadata of an item say what the runtime's picture says. -/
structure Agrees (item : DataItem) (spec : PictureSpec) : Prop where
  numeric : item.numeric = spec.isNumeric
  signed : item.signed = spec.signed
  scale : item.scale = spec.scale
  byteSize : item.byteSize = spec.byteSize

/-- Every item without `OCCURS` the parser reads with this picture agrees with
the runtime. -/
def ReadAlike (u : UnicodeData) (picture : Text) (spec : PictureSpec) : Prop :=
  ∀ upper lineNo sourceHash item diagnostics assumptions,
    parseDataItem u upper lineNo sourceHash = .ok (some item, diagnostics, assumptions) →
      item.picture = some (normalize u picture) → item.occurs = none → Agrees item spec

/-- The pictures the parser's substring tests read as the runtime's grammar
does: the numeric ones, the alphanumeric ones without a digit nine, and the
alphabetic ones of no position. -/
def PlainlyRead (normalized : Text) : Prop :=
  startsWith normalized ['9'] = true ∨ startsWith normalized ['S'] = true ∨
    (startsWith normalized ['X'] = true ∧ '9' ∉ normalized) ∨
      ∃ zeros, normalized = 'A' :: '(' :: zeros ++ [')'] ∧ ∀ c ∈ zeros, c = '0'

section SymbolWidth

variable (symbol : Char)

theorem symbolWidthFrom_skip (k : Nat) (t : Text) :
    symbolWidthFrom symbol k t = symbolWidthFrom symbol 0 (t.drop k) := by
  induction t generalizing k with
  | nil => cases k <;> simp [symbolWidthFrom]
  | cons c t ih =>
      cases k with
      | zero => rfl
      | succ k => simpa [symbolWidthFrom] using ih k

theorem symbolWidth_of_not_mem {t : Text} (h : symbol ∉ t) : symbolWidth t symbol = .ok 0 := by
  induction t with
  | nil => rfl
  | cons c t ih =>
      rw [List.mem_cons, not_or] at h
      have hc : (c == symbol) = false := by simpa using Ne.symm h.1
      simpa [symbolWidth, symbolWidthFrom, hc] using ih h.2

theorem toInt_add_toInt (a b : Int) : toInt (a + toInt b) = toInt (a + b) :=
  Int.add_bmod_bmod

theorem toInt_toInt_add (a b : Int) : toInt (toInt a + b) = toInt (a + b) :=
  Int.bmod_add_bmod

theorem toInt_toInt (a : Int) : toInt (toInt a) = toInt a :=
  Int.bmod_bmod

theorem toInt_of_le {n : Nat} (h : n ≤ intMax) : toInt n = n := by
  unfold intMax at h
  exact Int.bmod_eq_of_le (by omega) (by omega)

theorem symbolWidth_symbol {t : Text} {width : Int} (hcount : parenthesizedDigits t = none)
    (hwidth : symbolWidth t symbol = .ok width) :
    symbolWidth (symbol :: t) symbol = .ok (toInt (1 + width)) := by
  unfold symbolWidth at hwidth ⊢
  simp only [symbolWidthFrom, beq_self_eq_true, if_true, hcount, hwidth]
  rfl

theorem symbolWidth_count {digits rest : Text} {n : Nat} {width : Int}
    (hdigits : (Repeat.count digits).WellFormed) (hn : parseInteger digits = .ok n)
    (hwidth : symbolWidth rest symbol = .ok width) :
    symbolWidth (symbol :: '(' :: digits ++ ')' :: rest) symbol = .ok (toInt (n + width)) := by
  have hcount := parenthesizedDigits_text hdigits rest
  have hskip : symbolWidthFrom symbol (digits.length + 1) (digits ++ ')' :: rest) =
      .ok width := by
    rw [symbolWidthFrom_skip]
    simpa [symbolWidth] using hwidth
  unfold symbolWidth
  simp only [List.cons_append] at hcount ⊢
  simp only [symbolWidthFrom, beq_self_eq_true, if_true, hcount, hn, hskip]
  rfl

theorem symbolWidth_run (hsymbol : symbol ≠ '(') {rest : Text} {width : Int}
    (hrest : parenthesizedDigits rest = none) (hwidth : symbolWidth rest symbol = .ok width)
    (length : Nat) :
    symbolWidth (List.replicate (length + 1) symbol ++ rest) symbol =
      .ok (toInt ((length + 1 : Nat) + width)) := by
  induction length with
  | zero => exact symbolWidth_symbol symbol hrest hwidth
  | succ length ih =>
      have hnext : parenthesizedDigits (List.replicate (length + 1) symbol ++ rest) = none := by
        simp [List.replicate_succ, parenthesizedDigits, hsymbol]
      rw [List.replicate_succ, List.cons_append, symbolWidth_symbol symbol hnext ih,
        toInt_add_toInt]
      congr 2
      omega

/-- A repeat at the head of a text adds its width to that of the rest. -/
theorem symbolWidth_repeat (hsymbol : symbol ≠ '(') {positions : Repeat} {rest : Text} {n : Nat}
    {width : Int} (hwellFormed : positions.WellFormed) (hn : positions.width = .ok n)
    (hrest : parenthesizedDigits rest = none) (hwidth : symbolWidth rest symbol = .ok width) :
    symbolWidth (positions.text symbol ++ rest) symbol = .ok (toInt (n + width)) := by
  cases positions with
  | count digits => simpa [Repeat.text] using symbolWidth_count symbol hwellFormed hn hwidth
  | run length =>
      obtain ⟨length, rfl⟩ := Nat.exists_eq_succ_of_ne_zero (Nat.ne_of_gt hwellFormed)
      obtain rfl := Except.ok.inj hn
      exact symbolWidth_run symbol hsymbol hrest hwidth length

theorem symbolWidth_total {t : Text} (h : '(' ∉ t) : ∃ width, symbolWidth t symbol = .ok width := by
  induction t with
  | nil => exact ⟨0, rfl⟩
  | cons c t ih =>
      rw [List.mem_cons, not_or] at h
      obtain ⟨width, hwidth⟩ := ih h.2
      by_cases hc : c = symbol
      · subst hc
        have hcount : parenthesizedDigits t = none := by
          cases t with
          | nil => rfl
          | cons d t =>
              have hd : d ≠ '(' := by
                rintro rfl
                exact h.2 List.mem_cons_self
              simp [parenthesizedDigits, hd]
        exact ⟨_, symbolWidth_symbol c hcount hwidth⟩
      · have hc : (c == symbol) = false := by simpa using hc
        exact ⟨width, by simpa [symbolWidth, symbolWidthFrom, hc] using hwidth⟩

end SymbolWidth

theorem symbolWidth_cons_of_ne {symbol c : Char} (h : c ≠ symbol) (t : Text) :
    symbolWidth (c :: t) symbol = symbolWidth t symbol := by
  have hc : (c == symbol) = false := by simpa using h
  simp [symbolWidth, symbolWidthFrom, hc]

section Repeats

theorem digit_ne_of_not_digit {c : Char} (h : isDigitAscii c = false) {digits : Text}
    (hdigits : ∀ d ∈ digits, isDigitAscii d = true) : c ∉ digits := by
  intro hmem
  rw [hdigits c hmem] at h
  cases h

/-- A repeat of nines has no other letter in it. -/
theorem not_mem_text {symbol c : Char} {positions : Repeat} (hwellFormed : positions.WellFormed)
    (hsymbol : c ≠ symbol) (hdigit : isDigitAscii c = false) (hopen : c ≠ '(') (hclose : c ≠ ')') :
    c ∉ positions.text symbol := by
  cases positions with
  | count digits =>
      simpa [Repeat.text, hsymbol, hopen, hclose] using
        digit_ne_of_not_digit hdigit hwellFormed.2
  | run length => simp [Repeat.text, hsymbol]

theorem width_le {positions : Repeat} {symbol : Char} {n : Nat} (h : positions.width = .ok n)
    (hlength : (positions.text symbol).length ≤ intMax) : n ≤ intMax := by
  cases positions with
  | count digits =>
      simp only [Repeat.width, parseInteger] at h
      split at h
      · obtain rfl := Except.ok.inj h
        assumption
      · cases h
  | run length =>
      obtain rfl := Except.ok.inj h
      simpa [Repeat.text] using hlength

theorem parenthesizedDigits_nine (positions : Repeat) :
    parenthesizedDigits (positions.text '9') = none := by
  cases positions with
  | count digits => rfl
  | run length => cases length <;> simp [Repeat.text, List.replicate_succ, parenthesizedDigits]

theorem symbolWidth_text {symbol : Char} (hsymbol : symbol ≠ '(') {positions : Repeat} {n : Nat}
    (hwellFormed : positions.WellFormed) (hn : positions.width = .ok n) :
    symbolWidth (positions.text symbol) symbol = .ok (toInt n) := by
  have hrest : parenthesizedDigits [] = none := rfl
  have hwidth : symbolWidth [] symbol = .ok 0 := rfl
  simpa using symbolWidth_repeat symbol hsymbol hwellFormed hn hrest hwidth

end Repeats

/-- What `parseDataItem` records of the picture of an item without `OCCURS`. -/
structure ReadsPicture (item : DataItem) (picture : Text) : Prop where
  numeric : item.numeric = contains picture ['9']
  signed : item.signed = startsWith picture ['S']
  scale : scale (some picture) = .ok item.scale
  byteSize : byteSize (some picture) none = .ok item.byteSize

theorem parseDataItem_reads {u : UnicodeData} {upper sourceHash picture : Text} {lineNo : Nat}
    {item : DataItem} {diagnostics : List Diagnostic} {assumptions : List Text}
    (h : parseDataItem u upper lineNo sourceHash = .ok (some item, diagnostics, assumptions))
    (hpicture : item.picture = some picture) (hoccurs : item.occurs = none) :
    ReadsPicture item picture := by
  unfold parseDataItem at h
  split at h
  · split at h
    · cases h
    · cases h
  · dsimp only at h
    obtain ⟨occurs, -, h⟩ := bind_eq_ok h
    obtain ⟨itemScale, hscale, h⟩ := bind_eq_ok h
    obtain ⟨itemByteSize, hbyteSize, h⟩ := bind_eq_ok h
    simp only [pure, Except.pure, Except.ok.injEq, Prod.mk.injEq, Option.some.injEq] at h
    obtain ⟨rfl, -, -⟩ := h
    dsimp only at hpicture hoccurs
    subst hoccurs
    rw [hpicture] at hscale hbyteSize
    exact
      { numeric := by simp [hpicture]
        signed := by simp [hpicture]
        scale := hscale
        byteSize := hbyteSize }

section NumericPictures

variable {signed : Bool} {whole : Repeat} {fraction : Option Repeat}

theorem nine_mem_text {positions : Repeat} (hwellFormed : positions.WellFormed) :
    '9' ∈ positions.text '9' := by
  cases positions with
  | count digits => simp [Repeat.text]
  | run length =>
      have hlength : length ≠ 0 := Nat.ne_of_gt hwellFormed
      simp [Repeat.text, hlength]

theorem text_head {positions : Repeat} (symbol : Char) (hwellFormed : positions.WellFormed) :
    ∃ rest, positions.text symbol = symbol :: rest := by
  cases positions with
  | count digits => exact ⟨_, rfl⟩
  | run length =>
      obtain ⟨length, rfl⟩ := Nat.exists_eq_succ_of_ne_zero (Nat.ne_of_gt hwellFormed)
      exact ⟨_, List.replicate_succ⟩

theorem v_not_mem_text {positions : Repeat} (hwellFormed : positions.WellFormed) :
    'V' ∉ positions.text '9' :=
  not_mem_text hwellFormed (by decide) (by decide) (by decide) (by decide)

theorem x_not_mem_text {positions : Repeat} (hwellFormed : positions.WellFormed) :
    'X' ∉ positions.text '9' :=
  not_mem_text hwellFormed (by decide) (by decide) (by decide) (by decide)

theorem contains_numericText (hwhole : whole.WellFormed) :
    contains (numericText signed whole fraction) ['9'] = true := by
  rw [contains_singleton]
  simp [numericText, nine_mem_text hwhole]

theorem startsWith_numericText (hwhole : whole.WellFormed) :
    startsWith (numericText signed whole fraction) ['S'] = signed := by
  obtain ⟨rest, hrest⟩ := text_head '9' hwhole
  cases signed with
  | false => simp [numericText, hrest, startsWith, List.isPrefixOf]
  | true => simp [numericText, startsWith, List.isPrefixOf]

theorem scale_numericText (hwhole : whole.WellFormed)
    (hfraction : ∀ positions ∈ fraction, positions.WellFormed) {n : Nat}
    (hn : scaleWidth fraction = .ok n) :
    scale (some (numericText signed whole fraction)) = .ok (toInt n) := by
  have hv : 'V' ∉ (if signed then ['S'] else []) ++ whole.text '9' := by
    cases signed <;> simp [v_not_mem_text hwhole]
  cases fraction with
  | none =>
      obtain rfl := Except.ok.inj hn
      simp only [DataDivision.scale, numericText, List.append_nil, indexOf_of_not_mem hv]
      rfl
  | some positions =>
      have hpositions := hfraction positions rfl
      simp only [DataDivision.scale, numericText, indexOf_append_cons hv]
      have hdrop : List.drop (((if signed then ['S'] else []) ++ whole.text '9').length + 1)
          ((if signed then ['S'] else []) ++ whole.text '9' ++ 'V' :: positions.text '9') =
          positions.text '9' := by
        rw [← List.drop_drop, List.drop_left]
        rfl
      rw [hdrop]
      exact symbolWidth_text (by decide) hpositions hn

theorem byteSize_numericText (hwhole : whole.WellFormed)
    (hfraction : ∀ positions ∈ fraction, positions.WellFormed) {n m : Nat}
    (hn : whole.width = .ok n) (hm : scaleWidth fraction = .ok m) :
    byteSize (some (numericText signed whole fraction)) none = .ok (toInt (n + m)) := by
  have hunsigned : (if startsWith (numericText signed whole fraction) ['S'] then
      (numericText signed whole fraction).drop 1 else numericText signed whole fraction) =
      numericText false whole fraction := by
    rw [startsWith_numericText hwhole]
    cases signed <;> rfl
  have hwholeKept : (whole.text '9').filter (· != 'V') = whole.text '9' := by
    refine List.filter_eq_self.mpr fun c hc => ?_
    rw [bne_iff_ne]
    rintro rfl
    exact v_not_mem_text hwhole hc
  obtain ⟨behind, hfiltered, hbehind, hnone, hwidth⟩ : ∃ behind : Text,
      (numericText false whole fraction).filter (· != 'V') = whole.text '9' ++ behind ∧
        'X' ∉ behind ∧ parenthesizedDigits behind = none ∧
          symbolWidth behind '9' = .ok (toInt m) := by
    cases fraction with
    | none =>
        obtain rfl := Except.ok.inj hm
        exact ⟨[], by simp [numericText, hwholeKept], by simp, rfl, rfl⟩
    | some positions =>
        have hpositions := hfraction positions rfl
        have hkept : (positions.text '9').filter (· != 'V') = positions.text '9' := by
          refine List.filter_eq_self.mpr fun c hc => ?_
          rw [bne_iff_ne]
          rintro rfl
          exact v_not_mem_text hpositions hc
        exact ⟨positions.text '9', by simp [numericText, hwholeKept, hkept],
          x_not_mem_text hpositions, parenthesizedDigits_nine positions,
          symbolWidth_text (by decide) hpositions hm⟩
  have hnines : symbolWidth (whole.text '9' ++ behind) '9' = .ok (toInt (n + m)) := by
    rw [symbolWidth_repeat '9' (by decide) hwhole hn hnone hwidth, toInt_add_toInt]
  have hletters : symbolWidth (whole.text '9' ++ behind) 'X' = .ok 0 := by
    apply symbolWidth_of_not_mem
    rw [List.mem_append, not_or]
    exact ⟨x_not_mem_text hwhole, hbehind⟩
  simp only [DataDivision.byteSize, hunsigned, hfiltered, hnines, hletters]
  change Except.ok (toInt (toInt (toInt (n + m) + 0) * max 1 1)) = _
  simp [toInt_toInt]

end NumericPictures

section CharacterPictures

theorem byteSize_characters {t : Text} {nines letters : Int} (hsign : startsWith t ['S'] = false)
    (hpoint : 'V' ∉ t) (hnines : symbolWidth t '9' = .ok nines)
    (hletters : symbolWidth t 'X' = .ok letters) :
    byteSize (some t) none = .ok (toInt (nines + letters)) := by
  have hkept : t.filter (· != 'V') = t := by
    refine List.filter_eq_self.mpr fun c hc => ?_
    rw [bne_iff_ne]
    rintro rfl
    exact hpoint hc
  simp only [DataDivision.byteSize, hsign, Bool.false_eq_true, if_false, hkept, hnines, hletters]
  change Except.ok (toInt (toInt (nines + letters) * max 1 1)) = _
  simp [toInt_toInt]

/-- Nines inside a repeat count are counted one by one. -/
theorem symbolWidth_nines_total {symbol : Char} (hsymbol : symbol ≠ '9') {positions : Repeat}
    (hwellFormed : positions.WellFormed) :
    ∃ width, symbolWidth (positions.text symbol) '9' = .ok width := by
  cases positions with
  | count digits =>
      have hopen : '(' ∉ digits ++ [')'] := by
        simpa using digit_ne_of_not_digit (by decide) hwellFormed.2
      obtain ⟨width, hwidth⟩ := symbolWidth_total '9' hopen
      refine ⟨width, ?_⟩
      change symbolWidth (symbol :: '(' :: (digits ++ [')'])) '9' = _
      rw [symbolWidth_cons_of_ne hsymbol, symbolWidth_cons_of_ne (by decide), hwidth]
  | run length =>
      refine ⟨0, symbolWidth_of_not_mem '9' ?_⟩
      simp [Repeat.text, Ne.symm hsymbol]

theorem digitsValue_append (digits : Text) (c : Char) :
    digitsValue (digits ++ [c]) = 10 * digitsValue digits + (c.toNat - 48) := by
  simp [digitsValue]

theorem isDigitAscii_iff (c : Char) : isDigitAscii c = true ↔ 48 ≤ c.toNat ∧ c.toNat ≤ 57 := by
  simp only [isDigitAscii, Bool.and_eq_true, decide_eq_true_eq]
  exact Iff.rfl

theorem digitsValue_eq_zero_iff {digits : Text} (h : ∀ c ∈ digits, isDigitAscii c = true) :
    digitsValue digits = 0 ↔ ∀ c ∈ digits, c = '0' := by
  induction digits using List.reverseRecOn with
  | nil => simp [digitsValue]
  | append_singleton digits c ih =>
      have hdigits : ∀ d ∈ digits, isDigitAscii d = true := fun d hd => h d (by simp [hd])
      have hc := (isDigitAscii_iff c).mp (h c (by simp))
      have hzero : c.toNat - 48 = 0 ↔ c = '0' := by
        constructor
        · intro hvalue
          apply Char.toNat_inj.mp
          change c.toNat = 48
          omega
        · rintro rfl
          rfl
      have hdigitsZero : 10 * digitsValue digits = 0 ↔ ∀ d ∈ digits, d = '0' := by
        rw [← ih hdigits]
        omega
      rw [digitsValue_append, Nat.add_eq_zero_iff, hzero, hdigitsZero]
      simp [or_imp, forall_and]

/-- An alphabetic picture of no position spells its count with zeros. -/
theorem width_eq_zero_iff {positions : Repeat} (hwellFormed : positions.WellFormed) {n : Nat}
    (hn : positions.width = .ok n) :
    n = 0 ↔ ∃ zeros, positions.text 'A' = 'A' :: '(' :: zeros ++ [')'] ∧ ∀ c ∈ zeros, c = '0' := by
  cases positions with
  | count digits =>
      have hvalue : n = digitsValue digits := by
        simp only [Repeat.width, parseInteger] at hn
        split at hn
        · exact (Except.ok.inj hn).symm
        · cases hn
      rw [hvalue, digitsValue_eq_zero_iff hwellFormed.2]
      simp [Repeat.text]
  | run length =>
      obtain rfl := Except.ok.inj hn
      obtain ⟨length, rfl⟩ := Nat.exists_eq_succ_of_ne_zero (Nat.ne_of_gt hwellFormed)
      simp only [Nat.add_one_ne_zero, false_iff, Repeat.text, List.replicate_succ]
      rintro ⟨zeros, htext, -⟩
      have hmem : '(' ∈ List.replicate length 'A' := by
        rw [(List.cons.inj htext).2]
        exact List.mem_cons_self
      simp at hmem

end CharacterPictures

/-- The three ways `PictureSpec.parse` accepts a text. -/
theorem parse_cases {u : UnicodeData} {picture : Text} {spec : PictureSpec}
    (h : PictureSpec.parse u picture = .ok spec) :
    (∃ signed whole fraction n m, normalize u picture = numericText signed whole fraction ∧
        whole.WellFormed ∧ (∀ positions ∈ fraction, positions.WellFormed) ∧
        whole.width = .ok n ∧ scaleWidth fraction = .ok m ∧
        spec = ⟨picture, .numeric, n, m, toInt (n + m), signed⟩) ∨
      ∃ (positions : Repeat) (n : Nat), positions.WellFormed ∧ positions.width = .ok n ∧
        (normalize u picture = positions.text 'X' ∧
            spec = ⟨picture, .alphanumeric, 0, 0, n, false⟩ ∨
          normalize u picture = positions.text 'A' ∧
            spec = ⟨picture, .alphabetic, 0, 0, n, false⟩) := by
  unfold PictureSpec.parse at h
  dsimp only at h
  split at h
  · cases h
  · split at h
    · rename_i signed whole fraction hnumeric
      obtain ⟨htext, hwhole, hfraction⟩ := matchNumeric_eq_some hnumeric
      obtain ⟨n, hn, h⟩ := bind_eq_ok h
      obtain ⟨m, hm, h⟩ := bind_eq_ok h
      exact Or.inl ⟨signed, whole, fraction, n, m, htext, hwhole, hfraction, hn, hm,
        (Except.ok.inj h).symm⟩
    · split at h
      · rename_i positions halnum
        obtain ⟨htext, hwellFormed⟩ := matchOnly_eq_some halnum
        obtain ⟨n, hn, h⟩ := bind_eq_ok h
        exact Or.inr ⟨positions, n, hwellFormed, hn, Or.inl ⟨htext, (Except.ok.inj h).symm⟩⟩
      · split at h
        · rename_i positions halpha
          obtain ⟨htext, hwellFormed⟩ := matchOnly_eq_some halpha
          obtain ⟨n, hn, h⟩ := bind_eq_ok h
          exact Or.inr ⟨positions, n, hwellFormed, hn, Or.inr ⟨htext, (Except.ok.inj h).symm⟩⟩
        · cases h

section Declaration

/-- The plain declaration of an item with a picture. -/
def declaration (t : Text) : Text :=
  ['0', '1', ' ', 'F', ' ', 'P', 'I', 'C', ' '] ++ t

theorem findWord_occurs {t : Text} (h : 'O' ∉ t) (inWord : Bool) :
    findWord occursAt inWord t = none := by
  induction t generalizing inWord with
  | nil => rfl
  | cons c t ih =>
      rw [List.mem_cons, not_or] at h
      have hkeyword : afterKeyword "OCCURS".toList (c :: t) = none := by
        simp [afterKeyword, startsWith, List.isPrefixOf, h.1]
      have hattempt : (if inWord then none else occursAt (c :: t)) = none := by
        simp only [occursAt, hkeyword, ite_self]
      rw [findWord, hattempt]
      exact ih h.2 _

variable {t : Text}

theorem isTrimmed_of_picture {c : Char} (h : isPictureCharacter c = true) :
    isTrimmed c = false ∧ isPatternSpace c = false ∧ c ≠ '.' := by
  have hge : 40 ≤ c.toNat ∧ c ≠ '.' := by
    simp only [isPictureCharacter, isUpperAscii, Bool.or_eq_true, Bool.and_eq_true,
      decide_eq_true_eq, beq_iff_eq, isDigitAscii_iff] at h
    rcases h with ((((h | h) | rfl) | rfl) | rfl) | rfl
    · have hA : 65 ≤ c.toNat := h.1
      refine ⟨by omega, ?_⟩
      rintro rfl
      simp at hA
    · refine ⟨by omega, ?_⟩
      rintro rfl
      simp at h
    all_goals exact ⟨by decide, by decide⟩
  refine ⟨?_, ?_, hge.2⟩
  · simp only [isTrimmed, decide_eq_false_iff_not]
    omega
  · have hblank : c ≠ ' ' := by
      rintro rfl
      simp at hge
    simp only [isPatternSpace, Bool.or_eq_false_iff, beq_eq_false_iff_ne, Bool.and_eq_false_iff,
      decide_eq_false_iff_not]
    exact ⟨hblank, Or.inr (by omega)⟩

theorem trim_before_picture (hne : t ≠ []) (h : ∀ c ∈ t, isPictureCharacter c = true)
    {c : Char} (hc : isTrimmed c = false) (before : Text) :
    trim (c :: before ++ t) = c :: before ++ t := by
  apply trim_eq_self
  · rintro d hd
    obtain rfl := Option.some.inj hd
    exact hc
  · intro d hd
    rw [List.getLast?_append_of_ne_nil _ hne] at hd
    exact (isTrimmed_of_picture (h d (List.mem_of_getLast? hd))).1

theorem parseDataItem_declaration (u : UnicodeData) (hne : t ≠ [])
    (h : ∀ c ∈ t, isPictureCharacter c = true) (hoccurs : 'O' ∉ t) {itemScale itemByteSize : Int}
    (hscale : scale (some t) = .ok itemScale)
    (hbyteSize : byteSize (some t) none = .ok itemByteSize) :
    ∃ item assumptions, parseDataItem u (declaration t) 1 [] = .ok (some item, [], assumptions) ∧
      item.picture = some t ∧ item.occurs = none := by
  have htrimmed : trim (declaration t) = declaration t := by
    have hzero : isTrimmed '0' = false := by decide
    exact trim_before_picture hne h hzero ['1', ' ', 'F', ' ', 'P', 'I', 'C', ' ']
  have hperiod : endsWith (declaration t) ['.'] = false := by
    rw [Bool.eq_false_iff]
    intro hend
    obtain ⟨before, hbefore⟩ := List.isSuffixOf_iff_suffix.mp hend
    have hlast : (declaration t).getLast? = some '.' := by rw [← hbefore]; simp
    rw [declaration, List.getLast?_append_of_ne_nil _ hne] at hlast
    exact (isTrimmed_of_picture (h '.' (List.mem_of_getLast? hlast))).2.2 rfl
  have hstrip : stripTrailingPeriod (declaration t) = declaration t := by
    simp [stripTrailingPeriod, htrimmed, hperiod]
  have hmatch : matchDataDeclaration (declaration t) =
      some (['0', '1'], ['F'], 'P' :: 'I' :: 'C' :: ' ' :: t) := by
    simp [declaration, matchDataDeclaration, isDigitAscii, isPatternSpace, isUpperAscii,
      isNameCharacter]
  have hrest : trim ('P' :: 'I' :: 'C' :: ' ' :: t) = 'P' :: 'I' :: 'C' :: ' ' :: t := by
    have hp : isTrimmed 'P' = false := by decide
    exact trim_before_picture hne h hp ['I', 'C', ' ']
  have hpicture : pictureAt ('P' :: 'I' :: 'C' :: ' ' :: t) = some t := by
    have hspaces : t.dropWhile isPatternSpace = t := by
      obtain ⟨c, t, rfl⟩ := List.exists_cons_of_ne_nil hne
      simp [(isTrimmed_of_picture (h c List.mem_cons_self)).2.1]
    have hkeyword : afterKeyword "PIC".toList ('P' :: 'I' :: 'C' :: ' ' :: t) =
        some (t.dropWhile isPatternSpace) := by
      simp [afterKeyword, startsWith, isPatternSpace]
    have htake : t.takeWhile isPictureCharacter = t := List.takeWhile_eq_self_iff.mpr h
    rw [hspaces] at hkeyword
    unfold pictureAt
    rw [hkeyword]
    simp only [Option.orElse_some, htake, List.isEmpty_iff, hne, if_false]
  have hfound : findWord pictureAt false ('P' :: 'I' :: 'C' :: ' ' :: t) = some t := by
    simp [findWord, hpicture]
  have hpictureTrim : trim t = t := by
    obtain ⟨c, t, rfl⟩ := List.exists_cons_of_ne_nil hne
    apply trim_eq_self
    · rintro d hd
      obtain rfl := Option.some.inj hd
      exact (isTrimmed_of_picture (h _ List.mem_cons_self)).1
    · intro d hd
      exact (isTrimmed_of_picture (h d (List.mem_of_getLast? hd))).1
  have hnone : findWord occursAt false ('P' :: 'I' :: 'C' :: ' ' :: t) = none :=
    findWord_occurs (by simpa using hoccurs) false
  unfold parseDataItem
  simp only [hstrip, hmatch, hrest, hfound, hnone, Option.map_some, hpictureTrim, intMatch,
    hscale, bind, Except.bind, hbyteSize]
  exact ⟨_, _, rfl, rfl, rfl⟩

end Declaration

section CharacterItems

variable {symbol : Char} {positions : Repeat}

theorem text_pictureCharacters (hsymbol : isPictureCharacter symbol = true)
    (hwellFormed : positions.WellFormed) :
    ∀ c ∈ positions.text symbol, isPictureCharacter c = true := by
  cases positions with
  | count digits =>
      intro c hc
      simp only [Repeat.text, List.cons_append, List.mem_cons, List.mem_append,
        List.not_mem_nil, or_false] at hc
      rcases hc with rfl | rfl | hc | rfl
      · exact hsymbol
      · rfl
      · simp [isPictureCharacter, hwellFormed.2 c hc]
      · rfl
  | run length =>
      intro c hc
      rw [List.eq_of_mem_replicate hc]
      exact hsymbol

/-- What the parser reads in the text of an alphanumeric or alphabetic
picture: the digits nine of the count make it numeric. -/
theorem characters_read (hX : symbol = 'X' ∨ symbol = 'A') (hwellFormed : positions.WellFormed)
    {n : Nat} (hn : positions.width = .ok n) :
    startsWith (positions.text symbol) ['S'] = false ∧
      scale (some (positions.text symbol)) = .ok 0 ∧
      ∃ nines, byteSize (some (positions.text symbol)) none =
          .ok (toInt (nines + if symbol = 'X' then toInt n else 0)) ∧
        ('9' ∉ positions.text symbol → nines = 0) := by
  have hne9 : symbol ≠ '9' := by rcases hX with rfl | rfl <;> decide
  have hV : 'V' ∉ positions.text symbol :=
    not_mem_text hwellFormed (by rcases hX with rfl | rfl <;> decide) (by decide) (by decide)
      (by decide)
  have hS : startsWith (positions.text symbol) ['S'] = false := by
    obtain ⟨rest, hrest⟩ := text_head symbol hwellFormed
    rw [hrest]
    rcases hX with rfl | rfl <;> rfl
  refine ⟨hS, ?_, ?_⟩
  · simp only [DataDivision.scale, indexOf_of_not_mem hV]
  · obtain ⟨nines, hnines⟩ := symbolWidth_nines_total hne9 hwellFormed
    have hletters : symbolWidth (positions.text symbol) 'X' =
        .ok (if symbol = 'X' then toInt n else 0) := by
      rcases hX with rfl | rfl
      · simpa using symbolWidth_text (by decide) hwellFormed hn
      · have hnone : 'X' ∉ positions.text 'A' :=
          not_mem_text hwellFormed (by decide) (by decide) (by decide) (by decide)
        simpa using symbolWidth_of_not_mem 'X' hnone
    refine ⟨nines, byteSize_characters hS hV hnines hletters, fun hnone => ?_⟩
    have hzero := symbolWidth_of_not_mem '9' hnone
    rw [hnines] at hzero
    exact Except.ok.inj hzero

/-- A character picture is read alike when its item agrees. -/
theorem exists_item (u : UnicodeData) (hX : symbol = 'X' ∨ symbol = 'A')
    (hwellFormed : positions.WellFormed) {n : Nat} (hn : positions.width = .ok n) :
    ∃ item assumptions,
      parseDataItem u (declaration (positions.text symbol)) 1 [] =
          .ok (some item, [], assumptions) ∧
        item.picture = some (positions.text symbol) ∧ item.occurs = none := by
  obtain ⟨-, hscale, nines, hbyteSize, -⟩ := characters_read hX hwellFormed hn
  have hne : positions.text symbol ≠ [] := by
    obtain ⟨rest, hrest⟩ := text_head symbol hwellFormed
    simp [hrest]
  refine parseDataItem_declaration u hne (text_pictureCharacters ?_ hwellFormed) ?_ hscale
    hbyteSize
  · rcases hX with rfl | rfl <;> decide
  · exact not_mem_text hwellFormed (by rcases hX with rfl | rfl <;> decide) (by decide) (by decide)
      (by decide)

end CharacterItems

theorem readAlike_numeric {u : UnicodeData} {picture : Text} {signed : Bool} {whole : Repeat}
    {fraction : Option Repeat} {n m : Nat}
    (htext : normalize u picture = numericText signed whole fraction) (hwhole : whole.WellFormed)
    (hfraction : ∀ positions ∈ fraction, positions.WellFormed) (hn : whole.width = .ok n)
    (hm : scaleWidth fraction = .ok m) (hlength : (normalize u picture).length ≤ intMax) :
    ReadAlike u picture ⟨picture, .numeric, n, m, toInt (n + m), signed⟩ := by
  intro upper lineNo sourceHash item diagnostics assumptions hitem hpicture hoccurs
  have hreads := parseDataItem_reads hitem hpicture hoccurs
  rw [htext] at hreads hlength
  have hmle : m ≤ intMax := by
    cases fraction with
    | none =>
        rw [← Except.ok.inj hm]
        exact Nat.zero_le _
    | some positions =>
        have hpositions : (positions.text '9').length ≤ intMax := by
          simp only [numericText, List.length_append, List.length_cons] at hlength
          omega
        exact width_le hm hpositions
  have hscaleText : DataDivision.scale (some (numericText signed whole fraction)) =
      .ok (toInt m) := scale_numericText hwhole hfraction hm
  have hbyteSizeText : DataDivision.byteSize (some (numericText signed whole fraction)) none =
      .ok (toInt (n + m)) := byteSize_numericText hwhole hfraction hn hm
  have hscale := hscaleText.symm.trans hreads.scale
  have hbyteSize := hbyteSizeText.symm.trans hreads.byteSize
  exact
    { numeric := hreads.numeric.trans (contains_numericText hwhole)
      signed := hreads.signed.trans (startsWith_numericText hwhole)
      scale := by rw [← Except.ok.inj hscale, toInt_of_le hmle]
      byteSize := by rw [← Except.ok.inj hbyteSize] }

theorem agrees_characters {symbol : Char} {positions : Repeat} {item : DataItem} {n : Nat}
    {spec : PictureSpec} (hX : symbol = 'X' ∨ symbol = 'A') (hwellFormed : positions.WellFormed)
    (hn : positions.width = .ok n) (hlength : (positions.text symbol).length ≤ intMax)
    (hreads : ReadsPicture item (positions.text symbol)) (hnumeric : spec.isNumeric = false)
    (hsigned : spec.signed = false) (hscale : spec.scale = 0) (hbyteSize : spec.byteSize = n) :
    Agrees item spec ↔ '9' ∉ positions.text symbol ∧ (symbol = 'X' ∨ n = 0) := by
  obtain ⟨hS, hreadScale, nines, hreadSize, hnines⟩ := characters_read hX hwellFormed hn
  have hitemNumeric : item.numeric = decide ('9' ∈ positions.text symbol) := by
    rw [hreads.numeric, contains_singleton]
  have hitemSize := Except.ok.inj (hreads.byteSize.symm.trans hreadSize)
  have hle := toInt_of_le (width_le hn hlength)
  by_cases hmem : '9' ∈ positions.text symbol
  · refine iff_of_false (fun hagrees => ?_) (fun h => h.1 hmem)
    have h := hagrees.numeric
    rw [hitemNumeric, hnumeric] at h
    simp [hmem] at h
  · rw [hnines hmem, Int.zero_add] at hitemSize
    have hothers : Agrees item spec ↔ item.byteSize = n := by
      constructor
      · intro hagrees
        rw [hagrees.byteSize, hbyteSize]
      · intro hsize
        exact
          { numeric := by simp [hitemNumeric, hnumeric, hmem]
            signed := by rw [hreads.signed, hS, hsigned]
            scale := by
              rw [Except.ok.inj (hreads.scale.symm.trans hreadScale), hscale]
              rfl
            byteSize := by rw [hsize, hbyteSize] }
    rw [hothers, hitemSize]
    rcases hX with rfl | rfl
    · simp [hle, hmem]
    · simp [toInt, hmem, eq_comm]

theorem readAlike_characters_iff {u : UnicodeData} {picture : Text} {symbol : Char}
    {positions : Repeat} {n : Nat} {spec : PictureSpec} (hX : symbol = 'X' ∨ symbol = 'A')
    (htext : normalize u picture = positions.text symbol) (hwellFormed : positions.WellFormed)
    (hn : positions.width = .ok n) (hlength : (normalize u picture).length ≤ intMax)
    (hnumeric : spec.isNumeric = false) (hsigned : spec.signed = false) (hscale : spec.scale = 0)
    (hbyteSize : spec.byteSize = n) :
    ReadAlike u picture spec ↔ '9' ∉ positions.text symbol ∧ (symbol = 'X' ∨ n = 0) := by
  unfold ReadAlike
  rw [htext] at hlength ⊢
  have hagrees : ∀ {item : DataItem}, ReadsPicture item (positions.text symbol) →
      (Agrees item spec ↔ '9' ∉ positions.text symbol ∧ (symbol = 'X' ∨ n = 0)) := fun hreads =>
    agrees_characters hX hwellFormed hn hlength hreads hnumeric hsigned hscale hbyteSize
  constructor
  · intro hread
    obtain ⟨item, assumptions, hitem, hpicture, hoccurs⟩ := exists_item u hX hwellFormed hn
    exact (hagrees (parseDataItem_reads hitem hpicture hoccurs)).mp
      (hread _ _ _ _ _ _ hitem hpicture hoccurs)
  · intro hplain upper lineNo sourceHash item diagnostics assumptions hitem hpicture hoccurs
    exact (hagrees (parseDataItem_reads hitem hpicture hoccurs)).mpr hplain

theorem plainlyRead_numeric {signed : Bool} {whole : Repeat} {fraction : Option Repeat}
    (hwhole : whole.WellFormed) : PlainlyRead (numericText signed whole fraction) := by
  cases signed with
  | true => exact Or.inr (Or.inl (startsWith_numericText hwhole))
  | false =>
      obtain ⟨rest, hrest⟩ := text_head '9' hwhole
      exact Or.inl (by simp [numericText, hrest, startsWith, List.isPrefixOf])

theorem plainlyRead_characters_iff {symbol : Char} {positions : Repeat} {n : Nat}
    (hX : symbol = 'X' ∨ symbol = 'A') (hwellFormed : positions.WellFormed)
    (hn : positions.width = .ok n) :
    PlainlyRead (positions.text symbol) ↔
      '9' ∉ positions.text symbol ∧ (symbol = 'X' ∨ n = 0) := by
  obtain ⟨rest, hrest⟩ := text_head symbol hwellFormed
  rcases hX with rfl | rfl
  · simp [PlainlyRead, hrest, startsWith, List.isPrefixOf]
  · have hzero := width_eq_zero_iff hwellFormed hn
    have hplain : PlainlyRead (positions.text 'A') ↔ n = 0 := by
      rw [hzero]
      simp [PlainlyRead, hrest, startsWith, List.isPrefixOf]
    rw [hplain]
    constructor
    · intro hn0
      obtain ⟨zeros, htext, hzeros⟩ := hzero.mp hn0
      refine ⟨?_, Or.inr hn0⟩
      rw [htext]
      intro hmem
      simp only [List.cons_append, List.mem_cons, List.mem_append, List.not_mem_nil,
        or_false] at hmem
      rcases hmem with hmem | hmem | hmem | hmem
      · cases hmem
      · cases hmem
      · exact absurd (hzeros _ hmem) (by decide)
      · cases hmem
    · rintro ⟨-, hA | hn0⟩
      · cases hA
      · exact hn0

/-- Parser and runtime agree on a picture the runtime accepts exactly when the
parser's substring tests see nothing but symbols. -/
theorem readAlike_iff_plainlyRead (u : UnicodeData) (picture : Text) (spec : PictureSpec)
    (hspec : PictureSpec.parse u picture = .ok spec)
    (hlength : (normalize u picture).length ≤ intMax) :
    ReadAlike u picture spec ↔ PlainlyRead (normalize u picture) := by
  rcases parse_cases hspec with
    ⟨signed, whole, fraction, n, m, htext, hwhole, hfraction, hn, hm, rfl⟩ |
      ⟨positions, n, hwellFormed, hn, ⟨htext, rfl⟩ | ⟨htext, rfl⟩⟩
  · refine iff_of_true (readAlike_numeric htext hwhole hfraction hn hm hlength) ?_
    rw [htext]
    exact plainlyRead_numeric hwhole
  · rw [readAlike_characters_iff (Or.inl rfl) htext hwellFormed hn hlength rfl rfl rfl rfl, htext,
      plainlyRead_characters_iff (Or.inl rfl) hwellFormed hn]
  · rw [readAlike_characters_iff (Or.inr rfl) htext hwellFormed hn hlength rfl rfl rfl rfl, htext,
      plainlyRead_characters_iff (Or.inr rfl) hwellFormed hn]

theorem readAlike_iff_nine_positions :
    ReadAlike .ascii "S9(5)V99".toList ⟨"S9(5)V99".toList, .numeric, 5, 2, 7, true⟩ ↔
      PlainlyRead (normalize .ascii "S9(5)V99".toList) :=
  readAlike_iff_plainlyRead .ascii "S9(5)V99".toList _ (by decide +kernel) (by decide +kernel)

/-- `X(9)` is one alphanumeric field to the runtime and a numeric item to the
parser. -/
theorem x9_not_readAlike :
    ∃ spec, PictureSpec.parse .ascii "X(9)".toList = .ok spec ∧
      ¬ ReadAlike .ascii "X(9)".toList spec := by
  refine ⟨⟨"X(9)".toList, .alphanumeric, 0, 0, 9, false⟩, by rfl, fun hread => ?_⟩
  have hitem : ∃ item assumptions,
      parseDataItem .ascii (declaration "X(9)".toList) 1 [] = .ok (some item, [], assumptions) ∧
        item.picture = some (normalize .ascii "X(9)".toList) ∧ item.occurs = none ∧
          item.numeric = true :=
    ⟨_, _, rfl, rfl, rfl, rfl⟩
  obtain ⟨item, assumptions, hparse, hpicture, hoccurs, hnumeric⟩ := hitem
  have hagrees := (hread _ _ _ _ _ _ hparse hpicture hoccurs).numeric
  rw [hnumeric] at hagrees
  cases hagrees

end C2c.CobolParser.PictureAgreement
