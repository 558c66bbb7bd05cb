import Mathlib
import C2c.TargetJava.BlockSteps

namespace C2c.TargetJava.FieldNames

open C2c.Library.JavaText
open C2c.Library.JavaObject
open C2c.SemanticIr.Statements
open C2c.TargetJava.Literals
open C2c.TargetJava.References
open C2c.TargetJava.Expressions
open C2c.TargetJava.LeafStatements
open C2c.TargetJava.Generation
open C2c.TargetJava.BlockSteps

section Layouts

/-- `Integer.parseInt` of a trimmed text. -/
def parseInt (t : Text) : Option Int :=
  let digits := if startsWith t ['-'] || startsWith t ['+'] then t.drop 1 else t
  let n : Int := if startsWith t ['-'] then -(digitsValue digits : Int) else digitsValue digits
  if digits.isEmpty || !digits.all isDigitAscii || n != toInt n then none else some n

/-- `integerOrNull`. -/
def integerOrNull : Value → Option Int
  | .int n => some (toInt n)
  | .decimal _ whole => some whole
  | .str t => if isBlank t then none else parseInt (trim t)
  | _ => none

def intValue (value : Value) (fallback : Int) : Int :=
  (integerOrNull value).getD fallback

def booleanValue (value : Value) (fallback : Bool) : Bool :=
  match value with
  | .bool b => b
  | _ => fallback

def layoutName (layout : ObjectMap) : Text :=
  string (get "name".toList layout) []

def layoutId (layout : ObjectMap) : Text :=
  string (get "id".toList layout) []

def layoutPicture (layout : ObjectMap) : Option Text :=
  stringOrNull (get "picture".toList layout)

/-- Whether a layout becomes a field of the class: a group item does not. -/
def isMaterialised (layout : ObjectMap) : Bool :=
  !isBlank (layoutName layout) && !isBlank (layoutId layout) && (layoutPicture layout).isSome

variable (u : UnicodeData)

/-- The turn of the field loop of `generate` for a layout. -/
def materialiseLayout (fields : Fields) (layout : ObjectMap) : Emits Fields := do
  let name := layoutName layout
  let id := layoutId layout
  if isBlank name || isBlank id then return fields
  else
    match layoutPicture layout with
    | none =>
        note (intValue (get "sourceLine".toList layout) 0) "skipped-group-item"
          ("Group item without PIC clause is not materialised: ".toList ++ name)
        return fields
    | some picture =>
        return fields.put name
          { fieldVar := javaIdentifier u name
            cobolName := name
            irNodeId := id
            picture := picture
            occurs := max 1 (intValue (get "occurs".toList layout) 1)
            numeric := booleanValue (get "numeric".toList layout) false
            initialValue := stringOrNull (get "value".toList layout) }

/-- The field loop of `generate`. -/
def materialise (layouts : List ObjectMap) : Emits Fields :=
  layouts.foldlM (materialiseLayout u) []

/-- The variables the class declares for its fields. -/
def fieldVars (layouts : List ObjectMap) : List Text :=
  (materialise u layouts).value.map fun entry => entry.2.fieldVar

/-- The names of the items that become fields. -/
def materialisedNames (layouts : List ObjectMap) : List Text :=
  (layouts.filter isMaterialised).map layoutName

theorem put_of_not_mem {fields : Fields} {name : Text} (h : name ∉ fields.map Prod.fst)
    (field : FieldEmission) : fields.put name field = fields ++ [(name, field)] := by
  have hany : (fields.any fun entry => entry.1 == name) = false := by
    rw [List.any_eq_false]
    intro entry hentry heq
    exact h (List.mem_map.mpr ⟨entry, hentry, beq_iff_eq.mp heq⟩)
  unfold Fields.put
  rw [hany]
  rfl

/-- A layout under a new name adds its field, if it has one. -/
theorem value_materialiseLayout {fields : Fields} {layout : ObjectMap}
    (h : layoutName layout ∉ fields.map Prod.fst) :
    ∃ added : Fields, (materialiseLayout u fields layout).value = fields ++ added ∧
      added.map Prod.fst = (if isMaterialised layout then [layoutName layout] else []) ∧
      added.map (fun entry => entry.2.fieldVar) =
        (if isMaterialised layout then [layoutName layout] else []).map (javaIdentifier u) := by
  unfold materialiseLayout isMaterialised
  dsimp only
  split
  · rename_i hblank
    refine ⟨[], (List.append_nil _).symm, ?_⟩
    rw [Bool.or_eq_true] at hblank
    rcases hblank with hblank | hblank <;> simp [hblank]
  · rename_i hnamed
    rw [Bool.or_eq_true, not_or, Bool.not_eq_true, Bool.not_eq_true] at hnamed
    cases hpicture : layoutPicture layout with
    | none => exact ⟨[], (List.append_nil _).symm, by simp, by simp⟩
    | some picture =>
        exact ⟨[_], put_of_not_mem h _, by simp [hnamed], by simp [hnamed]⟩

theorem value_foldlM {layouts : List ObjectMap} {fields : Fields}
    (hnames : (fields.map Prod.fst ++ layouts.map layoutName).Nodup) :
    (layouts.foldlM (materialiseLayout u) fields).value.map (fun entry => entry.2.fieldVar) =
      fields.map (fun entry => entry.2.fieldVar) ++
        (materialisedNames layouts).map (javaIdentifier u) := by
  induction layouts generalizing fields with
  | nil => simp [materialisedNames]
  | cons layout layouts ih =>
      have hnew : layoutName layout ∉ fields.map Prod.fst := by
        intro hmem
        exact (List.nodup_append.mp hnames).2.2 _ hmem _ (by simp) rfl
      obtain ⟨added, hvalue, hadded, hvars⟩ := value_materialiseLayout u hnew
      have hrest : ((fields ++ added).map Prod.fst ++ layouts.map layoutName).Nodup := by
        rw [List.map_append, hadded, List.append_assoc]
        refine hnames.sublist ((List.Sublist.refl _).append ?_)
        split <;> simp
      rw [List.foldlM_cons, value_bind, hvalue, ih hrest, List.map_append, hvars]
      unfold materialisedNames
      rw [List.filter_cons]
      split <;> simp

/-- Under distinct names the class has one variable for every item. -/
theorem fieldVars_eq {layouts : List ObjectMap} (hnames : (layouts.map layoutName).Nodup) :
    fieldVars u layouts = (materialisedNames layouts).map (javaIdentifier u) := by
  have h := @value_foldlM u layouts [] (by simpa using hnames)
  simpa [fieldVars, materialise] using h

end Layouts

section Names

def isNameCharacter (c : Char) : Bool :=
  isUpperAscii c || isDigitAscii c || c == '-'

/-- The names the parser reads: `[A-Z][A-Z0-9-]*`. -/
def isCobolName : Text → Bool
  | [] => false
  | c :: t => isUpperAscii c && t.all isNameCharacter

/-- A name without the hyphens that no letter follows. -/
def squeeze : Text → Text
  | [] => []
  | c :: t => if c == '-' && !t.head?.any isUpperAscii then squeeze t else c :: squeeze t

/-- The name, so squeezed, that a camel case stands for. -/
def uncamel (t : Text) : Text :=
  t.flatMap fun c => if isUpperAscii c then ['-', c] else [c.toUpper]

variable (u : UnicodeData)

theorem toNat_of_isUpperAscii {c : Char} (h : isUpperAscii c = true) :
    65 ≤ c.toNat ∧ c.toNat ≤ 90 := by
  simpa [isUpperAscii, Char.le_def, UInt32.le_iff_toNat_le] using h

theorem isUpper_of_isUpperAscii {c : Char} (h : isUpperAscii c = true) : c.isUpper = true := by
  simpa [isUpperAscii, Char.isUpper, Char.le_def, UInt32.le_iff_toNat_le] using h

theorem isDigit_of_isDigitAscii {c : Char} (h : isDigitAscii c = true) : c.isDigit = true := by
  simpa [isDigitAscii, Char.isDigit, Char.le_def, UInt32.le_iff_toNat_le] using h

/-- How the generator reads a letter of a name. -/
theorem letter_facts {c : Char} (h : isUpperAscii c = true) :
    (c == '-' || c == '_' || c == '[' || c == ']') = false ∧ u.isLetterOrDigit c = true ∧
      u.charUpper c = c ∧ u.charLower c = c.toLower ∧ isUpperAscii c.toLower = false ∧
      c.toLower.toUpper = c ∧ c.toLower.isLower = true := by
  have hascii : c.toNat < 128 := by
    have := toNat_of_isUpperAscii h
    omega
  have hall : (!isUpperAscii c || (!(c == '-' || c == '_' || c == '[' || c == ']') &&
      c.isAlpha && c.toUpper == c && !isUpperAscii c.toLower && c.toLower.toUpper == c &&
      c.toLower.isLower)) = true :=
    of_ascii (p := fun c => !isUpperAscii c || (!(c == '-' || c == '_' || c == '[' || c == ']') &&
      c.isAlpha && c.toUpper == c && !isUpperAscii c.toLower && c.toLower.toUpper == c &&
      c.toLower.isLower)) (by decide) hascii
  rw [h] at hall
  simp only [Bool.not_true, Bool.false_or, Bool.and_eq_true, Bool.not_eq_true', beq_iff_eq] at hall
  obtain ⟨⟨⟨⟨⟨hseparator, halpha⟩, hupper⟩, hlower⟩, hback⟩, hisLower⟩ := hall
  refine ⟨hseparator, ?_, ?_, u.charLower_ascii c hascii, hlower, hback, hisLower⟩
  · simp [UnicodeData.isLetterOrDigit, u.isLetter_ascii c hascii, halpha]
  · rw [u.charUpper_ascii c hascii, hupper]

theorem digit_facts {c : Char} (h : isDigitAscii c = true) :
    (c == '-' || c == '_' || c == '[' || c == ']') = false ∧ u.isLetterOrDigit c = true ∧
      u.charUpper c = c ∧ u.charLower c = c ∧ isUpperAscii c = false ∧ c.toUpper = c := by
  have hascii : c.toNat < 128 := by
    have : c.toNat ≤ 57 := by
      simp only [isDigitAscii, Char.le_def, UInt32.le_iff_toNat_le, Bool.and_eq_true,
        decide_eq_true_eq] at h
      exact h.2
    omega
  have hall : (!isDigitAscii c || (!(c == '-' || c == '_' || c == '[' || c == ']') &&
      c.toUpper == c && c.toLower == c && !isUpperAscii c)) = true :=
    of_ascii (p := fun c => !isDigitAscii c || (!(c == '-' || c == '_' || c == '[' || c == ']') &&
      c.toUpper == c && c.toLower == c && !isUpperAscii c)) (by decide) hascii
  have hdigit := u.isDigit_ascii c hascii
  rw [h] at hall hdigit
  simp only [Bool.not_true, Bool.false_or, Bool.and_eq_true, Bool.not_eq_true', beq_iff_eq] at hall
  obtain ⟨⟨⟨hseparator, hupper⟩, hlower⟩, hnotUpper⟩ := hall
  refine ⟨hseparator, ?_, ?_, ?_, hnotUpper, hupper⟩
  · simp [UnicodeData.isLetterOrDigit, hdigit]
  · rw [u.charUpper_ascii c hascii, hupper]
  · rw [u.charLower_ascii c hascii, hlower]

theorem camelCase_cons {c : Char} (hseparator : (c == '-' || c == '_' || c == '[' || c == ']') = false)
    (hletter : u.isLetterOrDigit c = true) (upper : Bool) (t : Text) :
    camelCase u upper (c :: t) =
      (if upper then u.charUpper c else u.charLower c) :: camelCase u false t := by
  rw [camelCase, hseparator, hletter]
  rfl

theorem uncamel_cons (c : Char) (t : Text) :
    uncamel (c :: t) = (if isUpperAscii c then ['-', c] else [c.toUpper]) ++ uncamel t :=
  List.flatMap_cons

theorem squeeze_cons {c : Char} (hseparator : (c == '-' || c == '_' || c == '[' || c == ']') = false)
    (t : Text) : squeeze (c :: t) = c :: squeeze t := by
  rw [Bool.or_eq_false_iff, Bool.or_eq_false_iff, Bool.or_eq_false_iff] at hseparator
  rw [squeeze, hseparator.1.1.1]
  rfl

theorem squeeze_hyphen (c : Char) (t : Text) :
    squeeze ('-' :: c :: t) =
      if isUpperAscii c then '-' :: squeeze (c :: t) else squeeze (c :: t) := by
  rw [squeeze]
  cases hc : isUpperAscii c <;> simp [hc]

/-- A camel case can be read back up to the hyphens it loses for good. -/
theorem uncamel_camelCase {t : Text} (h : t.all isNameCharacter = true) :
    uncamel (camelCase u false t) = squeeze t ∧
      uncamel (camelCase u true t) = squeeze ('-' :: t) := by
  induction t with
  | nil => exact ⟨rfl, rfl⟩
  | cons c t ih =>
      rw [List.all_cons, Bool.and_eq_true, isNameCharacter, Bool.or_eq_true, Bool.or_eq_true] at h
      obtain ⟨hkept, hraised⟩ := ih h.2
      rcases h.1 with (hc | hc) | hc
      · obtain ⟨hseparator, hletter, hupper, hlower, hnotUpper, hback, -⟩ := letter_facts u hc
        rw [camelCase_cons u hseparator hletter, camelCase_cons u hseparator hletter, uncamel_cons,
          uncamel_cons, hkept, squeeze_hyphen, squeeze_cons hseparator]
        simp [hlower, hupper, hnotUpper, hback, hc]
      · obtain ⟨hseparator, hletter, hupper, hlower, hnotUpper, hback⟩ := digit_facts u hc
        rw [camelCase_cons u hseparator hletter, camelCase_cons u hseparator hletter, uncamel_cons,
          uncamel_cons, hkept, squeeze_hyphen, squeeze_cons hseparator]
        simp [hlower, hupper, hnotUpper, hback]
      · obtain rfl := beq_iff_eq.mp hc
        have hcamel : ∀ upper, camelCase u upper ('-' :: t) = camelCase u true t := fun _ => rfl
        have hdoubled : squeeze ('-' :: '-' :: t) = squeeze ('-' :: t) := rfl
        rw [hcamel, hcamel, hdoubled]
        exact ⟨hraised, hraised⟩

/-- The hyphens that no letter follows leave no trace. -/
theorem camelCase_squeeze {t : Text} (h : t.all isNameCharacter = true) :
    camelCase u false (squeeze t) = camelCase u false t ∧
      camelCase u false (squeeze ('-' :: t)) = camelCase u true t := by
  induction t with
  | nil => exact ⟨rfl, rfl⟩
  | cons c t ih =>
      rw [List.all_cons, Bool.and_eq_true, isNameCharacter, Bool.or_eq_true, Bool.or_eq_true] at h
      obtain ⟨hkept, hraised⟩ := ih h.2
      have hcamel : ∀ upper t, camelCase u upper ('-' :: t) = camelCase u true t := fun _ _ => rfl
      rcases h.1 with (hc | hc) | hc
      · obtain ⟨hseparator, hletter, -⟩ := letter_facts u hc
        rw [squeeze_hyphen, squeeze_cons hseparator, if_pos hc, hcamel]
        simp only [camelCase_cons u hseparator hletter, hkept, and_self]
      · obtain ⟨hseparator, hletter, hupper, hlower, hnotUpper, -⟩ := digit_facts u hc
        rw [squeeze_hyphen, squeeze_cons hseparator, if_neg (by simp [hnotUpper])]
        simp [camelCase_cons u hseparator hletter, hkept, hupper, hlower]
      · obtain rfl := beq_iff_eq.mp hc
        have hdoubled : squeeze ('-' :: '-' :: t) = squeeze ('-' :: t) := rfl
        rw [hcamel, hcamel, hdoubled, hraised]
        exact ⟨rfl, rfl⟩

theorem all_of_isCobolName {name : Text} (h : isCobolName name = true) :
    name.all isNameCharacter = true := by
  cases name with
  | nil => cases h
  | cons c t =>
      rw [isCobolName, Bool.and_eq_true] at h
      rw [List.all_cons, h.2, isNameCharacter, h.1]
      rfl

/-- Two names have one camel case exactly if they differ in such hyphens only. -/
theorem camelCase_eq_iff {name other : Text} (hname : name.all isNameCharacter = true)
    (hother : other.all isNameCharacter = true) :
    camelCase u false name = camelCase u false other ↔ squeeze name = squeeze other := by
  constructor
  · intro h
    rw [← (uncamel_camelCase u hname).1, h, (uncamel_camelCase u hother).1]
  · intro h
    rw [← (camelCase_squeeze u hname).1, h, (camelCase_squeeze u hother).1]

/-- A camel case is made of letters and digits and starts with a small letter. -/
theorem isAlphanum_of_mem_camelCase {t : Text} (h : t.all isNameCharacter = true) (upper : Bool) :
    ∀ c ∈ camelCase u upper t, c.isAlphanum = true := by
  induction t generalizing upper with
  | nil => rintro _ ⟨⟩
  | cons c t ih =>
      rw [List.all_cons, Bool.and_eq_true, isNameCharacter, Bool.or_eq_true, Bool.or_eq_true] at h
      rcases h.1 with (hc | hc) | hc
      · obtain ⟨hseparator, hletter, hupper, hlower, -, -, hisLower⟩ := letter_facts u hc
        have halpha : c.isAlphanum = true := by
          simp [Char.isAlphanum, Char.isAlpha, isUpper_of_isUpperAscii hc]
        rw [camelCase_cons u hseparator hletter]
        intro e he
        rcases List.mem_cons.mp he with rfl | he
        · cases upper with
          | true => simpa [hupper] using halpha
          | false => simp [hlower, Char.isAlphanum, Char.isAlpha, hisLower]
        · exact ih h.2 false e he
      · obtain ⟨hseparator, hletter, hupper, hlower, -, -⟩ := digit_facts u hc
        have halpha : c.isAlphanum = true := by
          simp [Char.isAlphanum, isDigit_of_isDigitAscii hc]
        rw [camelCase_cons u hseparator hletter]
        intro e he
        rcases List.mem_cons.mp he with rfl | he
        · cases upper with
          | true => simpa [hupper] using halpha
          | false => simpa [hlower] using halpha
        · exact ih h.2 false e he
      · obtain rfl := beq_iff_eq.mp hc
        exact ih h.2 true

theorem head_camelCase {name : Text} (h : isCobolName name = true) :
    ∃ c t, camelCase u false name = c :: t ∧ c.isLower = true := by
  cases name with
  | nil => cases h
  | cons c t =>
      rw [isCobolName, Bool.and_eq_true] at h
      obtain ⟨hseparator, hletter, -, hlower, -, -, hisLower⟩ := letter_facts u h.1
      refine ⟨c.toLower, camelCase u false t, ?_, hisLower⟩
      rw [camelCase_cons u hseparator hletter, ← hlower]
      rfl

def isKeyword (t : Text) : Bool :=
  javaKeywords.any fun keyword => keyword.toList == t

/-- The variable of a name is its camel case, behind which a keyword gets an
underscore. -/
theorem javaIdentifier_eq {name : Text} (h : isCobolName name = true) :
    javaIdentifier u name =
      camelCase u false name ++ if isKeyword (camelCase u false name) then ['_'] else [] := by
  obtain ⟨c, t, hcamel, hlower⟩ := head_camelCase u h
  have halphanum := isAlphanum_of_mem_camelCase u (all_of_isCobolName h) false
  have hletter : u.isLetter c = true := by
    have hc : c.toNat < 128 := by
      have hrange : 97 ≤ c.toNat ∧ c.toNat ≤ 122 := by
        simpa [Char.isLower, UInt32.le_iff_toNat_le] using hlower
      omega
    rw [u.isLetter_ascii c hc, Char.isAlpha, hlower, Bool.or_true]
  unfold javaIdentifier isKeyword
  rw [hcamel]
  simp only [List.isEmpty_cons, Bool.false_eq_true, if_false, hletter, if_true]
  split <;> simp

theorem filter_javaIdentifier {name : Text} (h : isCobolName name = true) :
    (javaIdentifier u name).filter Char.isAlphanum = camelCase u false name := by
  have hkept : (camelCase u false name).filter Char.isAlphanum = camelCase u false name :=
    List.filter_eq_self.mpr (isAlphanum_of_mem_camelCase u (all_of_isCobolName h) false)
  rw [javaIdentifier_eq u h, List.filter_append, hkept]
  split
  · exact List.append_nil _
  · exact List.append_nil _

/-- Two names get one variable exactly if they differ in hyphens only that no
letter follows. -/
theorem javaIdentifier_eq_iff {name other : Text} (hname : isCobolName name = true)
    (hother : isCobolName other = true) :
    javaIdentifier u name = javaIdentifier u other ↔ squeeze name = squeeze other := by
  rw [← camelCase_eq_iff u (all_of_isCobolName hname) (all_of_isCobolName hother)]
  constructor
  · intro h
    rw [← filter_javaIdentifier u hname, h, filter_javaIdentifier u hother]
  · intro h
    rw [javaIdentifier_eq u hname, h, ← javaIdentifier_eq u hother]

/-- On the names of the parser every table of Unicode agrees. -/
theorem camelCase_ascii {t : Text} (h : t.all isNameCharacter = true) (upper : Bool) :
    camelCase u upper t = camelCase .ascii upper t := by
  induction t generalizing upper with
  | nil => rfl
  | cons c t ih =>
      rw [List.all_cons, Bool.and_eq_true, isNameCharacter, Bool.or_eq_true, Bool.or_eq_true] at h
      rcases h.1 with (hc | hc) | hc
      · obtain ⟨hseparator, hletter, hupper, hlower, -⟩ := letter_facts u hc
        obtain ⟨-, hletter', hupper', hlower', -⟩ := letter_facts .ascii hc
        rw [camelCase_cons u hseparator hletter, camelCase_cons .ascii hseparator hletter',
          ih h.2, hupper, hupper', hlower, hlower']
      · obtain ⟨hseparator, hletter, hupper, hlower, -⟩ := digit_facts u hc
        obtain ⟨-, hletter', hupper', hlower', -⟩ := digit_facts .ascii hc
        rw [camelCase_cons u hseparator hletter, camelCase_cons .ascii hseparator hletter',
          ih h.2, hupper, hupper', hlower, hlower']
      · obtain rfl := beq_iff_eq.mp hc
        exact ih h.2 true

end Names

section Legality

/-- The keywords of the language and its reserved literals. -/
def reservedWords : List String :=
  ["abstract", "assert", "boolean", "break", "byte", "case", "catch", "char", "class", "const",
    "continue", "default", "do", "double", "else", "enum", "extends", "final", "finally", "float",
    "for", "goto", "if", "implements", "import", "instanceof", "int", "interface", "long",
    "native", "new", "package", "private", "protected", "public", "return", "short", "static",
    "strictfp", "super", "switch", "synchronized", "this", "throw", "throws", "transient", "try",
    "void", "volatile", "while", "_", "true", "false", "null"]

/-- An ASCII text that may name a variable. -/
def isLegalIdentifier : Text → Bool
  | [] => false
  | c :: t =>
      (c.isAlpha || c == '_' || c == '$') &&
        t.all (fun c => c.isAlphanum || c == '_' || c == '$') &&
        !(reservedWords.any fun word => word.toList == c :: t)

variable (u : UnicodeData)

theorem isLegalIdentifier_javaIdentifier {name : Text} (h : isCobolName name = true) :
    isLegalIdentifier (javaIdentifier u name) = true := by
  obtain ⟨c, t, hcamel, hlower⟩ := head_camelCase u h
  have halphanum := isAlphanum_of_mem_camelCase u (all_of_isCobolName h) false
  rw [javaIdentifier_eq u h, hcamel]
  rw [hcamel] at halphanum
  have halpha : c.isAlpha = true := by
    rw [Char.isAlpha, hlower, Bool.or_true]
  have hrest : ∀ suffix : Text, (suffix = [] ∨ suffix = ['_']) →
      (t ++ suffix).all (fun c => c.isAlphanum || c == '_' || c == '$') = true := by
    intro suffix hsuffix
    rw [List.all_append, Bool.and_eq_true]
    constructor
    · rw [List.all_eq_true]
      intro e he
      rw [halphanum e (List.mem_cons_of_mem _ he)]
      rfl
    · rcases hsuffix with rfl | rfl <;> rfl
  have hlisted : (reservedWords.all fun word =>
      word == "_" || (isKeyword word.toList && word.toList.getLast? != some '_')) = true := by
    decide
  cases hkeyword : isKeyword (c :: t) with
  | true =>
      have hreserved : (reservedWords.any fun word => word.toList == c :: (t ++ ['_'])) = false := by
        rw [List.any_eq_false]
        intro word hword heq
        have hentry := List.all_eq_true.mp hlisted word hword
        rw [beq_iff_eq] at heq
        rw [heq, Bool.or_eq_true, beq_iff_eq, Bool.and_eq_true] at hentry
        rcases hentry with rfl | ⟨-, hlast⟩
        · cases t <;> cases heq
        · rw [← List.cons_append, List.getLast?_concat] at hlast
          cases hlast
      simp [isLegalIdentifier, halpha, hrest ['_'] (.inr rfl), hreserved]
  | false =>
      have hreserved : (reservedWords.any fun word => word.toList == c :: t) = false := by
        rw [List.any_eq_false]
        intro word hword heq
        have hentry := List.all_eq_true.mp hlisted word hword
        rw [beq_iff_eq] at heq
        rw [heq, Bool.or_eq_true, beq_iff_eq, hkeyword, Bool.false_and] at hentry
        rcases hentry with rfl | hfalse
        · obtain ⟨rfl, -⟩ := List.cons.inj heq
          cases hlower
        · cases hfalse
      have hall := hrest [] (.inl rfl)
      rw [List.append_nil] at hall
      simp [isLegalIdentifier, halpha, hall, hreserved]

end Legality

section Guards

variable (u : UnicodeData) (fields : Fields)

/-- The lines declare loop guards of statements only. -/
def GuardsNamed (lines : List JavaLine) : Prop :=
  ∀ guard, .declareGuard guard ∈ lines → ∃ stmtId, guard = loopGuard u stmtId

/-- The increment a frame keeps for its end is a statement. -/
def Incrementing (frames : List BlockFrame) : Prop :=
  ∀ frame ∈ frames, ∀ line ∈ frame.incrementLine, ∃ code, line = .statement code

theorem guardsNamed_append {before after : List JavaLine} (hbefore : GuardsNamed u before)
    (hafter : GuardsNamed u after) : GuardsNamed u (before ++ after) := by
  intro guard hguard
  rcases List.mem_append.mp hguard with hguard | hguard
  · exact hbefore guard hguard
  · exact hafter guard hguard

/-- Lines of which none declares a guard. -/
theorem guardsNamed_of_forall {lines : List JavaLine}
    (h : ∀ line ∈ lines, ∀ guard, line ≠ .declareGuard guard) : GuardsNamed u lines :=
  fun guard hguard => absurd rfl (h _ hguard guard)

theorem guardsNamed_singleton {line : JavaLine} (h : ∀ guard, line ≠ .declareGuard guard) :
    GuardsNamed u [line] := by
  apply guardsNamed_of_forall
  intro other hother
  obtain rfl := List.mem_singleton.mp hother
  exact h

/-- A step that keeps the frames in order and declares guards of statements only. -/
def StepNamed (step : BlockStep) : Prop :=
  Incrementing step.frames ∧ GuardsNamed u step.lines

theorem stepNamed_onTop {kind : BlockKind} {frames : List BlockFrame}
    {hit : BlockFrame → List BlockFrame → BlockStep} {miss : BlockStep}
    (hhit : ∀ frame rest, frames = frame :: rest → StepNamed u (hit frame rest))
    (hmiss : StepNamed u miss) : StepNamed u (onTop kind frames hit miss) := by
  cases frames with
  | nil => exact hmiss
  | cons frame rest =>
      unfold onTop
      dsimp only
      split
      · exact hhit frame rest rfl
      · exact hmiss

theorem stepNamed_mismatch {source : Source} {description : Text} {frames : List BlockFrame}
    (h : Incrementing frames) : StepNamed u (mismatchStep fields source description frames) :=
  ⟨h, guardsNamed_singleton u fun _ => by unfold assumptionRecordCall; simp⟩

theorem Incrementing.tail {frame : BlockFrame} {rest : List BlockFrame}
    (h : Incrementing (frame :: rest)) : Incrementing rest :=
  fun other hother => h other (List.mem_cons_of_mem _ hother)

theorem Incrementing.cons {frame : BlockFrame} {rest : List BlockFrame}
    (hframe : ∀ line ∈ frame.incrementLine, ∃ code, line = .statement code)
    (h : Incrementing rest) : Incrementing (frame :: rest) := by
  intro other hother
  rcases List.mem_cons.mp hother with rfl | hother
  · exact hframe
  · exact h other hother

theorem guardsNamed_loopHead (source : Source) : GuardsNamed u (loopHead u fields source) := by
  apply guardsNamed_append
  · apply guardsNamed_of_forall
    intro line hline guard
    obtain ⟨code, rfl⟩ := plain_startLines u fields source line hline
    simp
  · intro guard hguard
    simp only [List.mem_cons, JavaLine.declareGuard.injEq, reduceCtorEq, List.not_mem_nil,
      or_false] at hguard
    exact ⟨source.stmtId, hguard⟩

theorem stepNamed_block (source : Source) (operation : Operation) {frames : List BlockFrame}
    (h : Incrementing frames) :
    StepNamed u (blockStep u fields source operation frames) := by
  cases operation with
  | «if» => exact ⟨h.cons (by rintro _ ⟨⟩), guardsNamed_singleton u (by simp)⟩
  | «else» =>
      apply stepNamed_onTop
      · intro frame rest hframes
        exact ⟨h, guardsNamed_singleton u (by simp)⟩
      · exact stepNamed_mismatch u fields h
  | endIf =>
      apply stepNamed_onTop
      · rintro frame rest rfl
        exact ⟨h.tail, guardsNamed_singleton u (by simp)⟩
      · exact stepNamed_mismatch u fields h
  | evaluate => exact ⟨h.cons (by rintro _ ⟨⟩), guardsNamed_of_forall u (by rintro _ ⟨⟩)⟩
  | when =>
      apply stepNamed_onTop
      · rintro frame rest rfl
        refine ⟨h.tail.cons (h frame List.mem_cons_self), guardsNamed_singleton u ?_⟩
        intro guard
        unfold armLine
        split <;> split <;> simp
      · exact stepNamed_mismatch u fields h
  | endEvaluate =>
      apply stepNamed_onTop
      · rintro frame rest rfl
        refine ⟨h.tail, guardsNamed_of_forall u ?_⟩
        dsimp only
        split <;> simp
      · exact stepNamed_mismatch u fields h
  | perform =>
      exact ⟨h.cons fun line hline => plain_incrementLine u fields hline,
        guardsNamed_loopHead u fields source⟩
  | endPerform =>
      apply stepNamed_onTop
      · rintro frame rest rfl
        refine ⟨h.tail, guardsNamed_append u (guardsNamed_of_forall u ?_)
          (guardsNamed_singleton u (by simp))⟩
        intro line hline guard
        obtain ⟨code, rfl⟩ := h frame List.mem_cons_self line (by simpa using hline)
        simp
      · exact stepNamed_mismatch u fields h
  | _ => exact ⟨h, guardsNamed_singleton u (by simp)⟩

theorem stepNamed_statement (statement : IrStatement) {frames : List BlockFrame}
    (h : Incrementing frames) : StepNamed u (statementStep u fields statement frames) := by
  unfold statementStep
  cases hleaf : leafLines u fields (sourceOf statement) (operationOf u statement) with
  | some lines =>
      refine ⟨h, guardsNamed_of_forall u ?_⟩
      intro line hline guard
      rcases plain_leafLines u fields hleaf line hline with ⟨text, rfl⟩ | ⟨code, rfl⟩
      · simp
      · simp
  | none =>
      obtain ⟨hframes, hlines⟩ := stepNamed_block u fields (sourceOf statement)
        (operationOf u statement) h
      refine ⟨hframes, @guardsNamed_append u [_] _ (guardsNamed_singleton u ?_) hlines⟩
      intro guard
      cases operationOf u statement <;> simp [blockComment, headComment]

theorem stepNamed_statements (statements : List IrStatement) {frames : List BlockFrame}
    (h : Incrementing frames) : StepNamed u (stepsFrom u fields statements frames) := by
  induction statements generalizing frames with
  | nil => exact ⟨h, guardsNamed_of_forall u (by rintro _ ⟨⟩)⟩
  | cons statement statements ih =>
      obtain ⟨hframes, hlines⟩ := stepNamed_statement u fields statement h
      obtain ⟨hframes', hlines'⟩ := ih hframes
      exact ⟨hframes', guardsNamed_append u hlines hlines'⟩

/-- The variables the body of `run()` declares are the guards of its loops. -/
theorem guardsNamed_generateBody (statements : List IrStatement) :
    GuardsNamed u (generateBody u fields statements).lines := by
  rw [generateBody_lines]
  apply guardsNamed_append
  · exact (stepNamed_statements u fields statements (by rintro _ ⟨⟩)).2
  · apply guardsNamed_of_forall
    intro line hline guard
    obtain ⟨frame, -, hline⟩ := List.mem_flatMap.mp hline
    unfold closingLines at hline
    split at hline
    · cases hline
    · obtain rfl := List.mem_singleton.mp hline
      simp

end Guards

section Members

/-- The constants every generated class declares. -/
def constantNames : List String :=
  ["PROGRAM_ID", "IR_ID", "SOURCE_HASH", "RUNTIME_NAME", "RUNTIME_VERSION", "CONTRACT_VERSION"]

/-- Its other field, its methods and their parameters. -/
def memberNames : List String :=
  ["assumptionRegistry", "assumptions", "numericEquals", "run", "main", "left", "right", "args"]

/-- The items whose variables would be called like one of these. -/
def takenNames : List String :=
  ["ASSUMPTION-REGISTRY", "ASSUMPTIONS", "NUMERIC-EQUALS", "RUN", "MAIN", "LEFT", "RIGHT", "ARGS"]

variable (u : UnicodeData)

/-- The class declares every name once and no field twice. -/
structure NamedApart (layouts : List ObjectMap) (statements : List IrStatement) : Prop where
  distinct : (fieldVars u layouts).Nodup
  legal : ∀ fieldVar ∈ fieldVars u layouts, isLegalIdentifier fieldVar = true
  members : ∀ fieldVar ∈ fieldVars u layouts,
    ∀ name ∈ constantNames ++ memberNames, fieldVar ≠ name.toList
  guards : ∀ fieldVar ∈ fieldVars u layouts, ∀ guard,
    .declareGuard guard ∈ (generateBody u (materialise u layouts).value statements).lines →
      fieldVar ≠ guard

/-- No variable of a field looks like a loop guard. -/
theorem javaIdentifier_ne_loopGuard {name : Text} (h : isCobolName name = true) (stmtId : Text) :
    javaIdentifier u name ≠ loopGuard u stmtId := by
  intro heq
  have halphanum := isAlphanum_of_mem_camelCase u (all_of_isCobolName h) false
  have hlisted : (javaKeywords.all fun keyword =>
      !"loopGuard".toList.isPrefixOf keyword.toList) = true := by decide
  have hguard : "loopGuard".toList ++ '_' :: javaIdentifier u stmtId = loopGuard u stmtId := rfl
  rw [javaIdentifier_eq u h, ← hguard] at heq
  split at heq
  · rename_i hkeyword
    obtain ⟨keyword, hmem, htext⟩ := List.any_eq_true.mp hkeyword
    have hbegins := List.all_eq_true.mp hlisted keyword hmem
    rw [beq_iff_eq.mp htext] at hbegins
    have hnot : '_' ∉ camelCase u false name := fun hc => by
      have := halphanum _ hc
      revert this
      decide
    obtain ⟨hcamel, -⟩ := append_cons_inj hnot (by decide) heq
    rw [hcamel] at hbegins
    revert hbegins
    decide
  · rw [List.append_nil] at heq
    have hc : '_' ∈ camelCase u false name := by
      rw [heq]
      exact List.mem_append_right _ List.mem_cons_self
    have := halphanum _ hc
    revert this
    decide

theorem javaIdentifier_ne_constant {name : Text} (h : isCobolName name = true) {constant : String}
    (hconstant : constant ∈ constantNames) : javaIdentifier u name ≠ constant.toList := by
  intro heq
  obtain ⟨c, t, hcamel, hlower⟩ := head_camelCase u h
  have hhead : (javaIdentifier u name).head? = some c := by
    rw [javaIdentifier_eq u h, hcamel]
    rfl
  have hlisted : (constantNames.all fun constant =>
      !constant.toList.head?.any Char.isLower) = true := by decide
  have hentry := List.all_eq_true.mp hlisted constant hconstant
  rw [← heq, hhead, Option.any_some, hlower] at hentry
  cases hentry

theorem isCobolName_of_taken {taken : String} (h : taken ∈ takenNames) :
    isCobolName taken.toList = true ∧ squeeze taken.toList = taken.toList := by
  have hlisted : (takenNames.all fun taken =>
      isCobolName taken.toList && squeeze taken.toList == taken.toList) = true := by decide
  have hentry := List.all_eq_true.mp hlisted taken h
  rw [Bool.and_eq_true, beq_iff_eq] at hentry
  exact hentry

/-- The variable of an item is a member's name exactly for the items listed. -/
theorem javaIdentifier_member_iff {name : Text} (h : isCobolName name = true) :
    (∃ member ∈ memberNames, javaIdentifier u name = member.toList) ↔
      ∃ taken ∈ takenNames, squeeze name = taken.toList := by
  have hmembers : memberNames.map String.toList =
      takenNames.map fun taken => camelCase .ascii false taken.toList := by decide
  have hplain : (takenNames.all fun taken =>
      !isKeyword (camelCase .ascii false taken.toList)) = true := by decide
  have hvariable : ∀ taken ∈ takenNames,
      javaIdentifier u taken.toList = camelCase .ascii false taken.toList := by
    intro taken htaken
    obtain ⟨hcobol, -⟩ := isCobolName_of_taken htaken
    have hkeyword := List.all_eq_true.mp hplain taken htaken
    rw [Bool.not_eq_true'] at hkeyword
    rw [javaIdentifier_eq u hcobol, camelCase_ascii u (all_of_isCobolName hcobol), hkeyword]
    exact List.append_nil _
  constructor
  · rintro ⟨member, hmember, heq⟩
    have hmem : member.toList ∈ takenNames.map fun taken => camelCase .ascii false taken.toList :=
      hmembers ▸ List.mem_map_of_mem hmember
    obtain ⟨taken, htaken, htext⟩ := List.mem_map.mp hmem
    obtain ⟨hcobol, hsqueezed⟩ := isCobolName_of_taken htaken
    refine ⟨taken, htaken, ?_⟩
    rw [← hsqueezed]
    apply (javaIdentifier_eq_iff u h hcobol).mp
    rw [heq, ← htext, hvariable taken htaken]
  · rintro ⟨taken, htaken, heq⟩
    obtain ⟨hcobol, hsqueezed⟩ := isCobolName_of_taken htaken
    have hmem : camelCase .ascii false taken.toList ∈ memberNames.map String.toList :=
      hmembers ▸ List.mem_map_of_mem (f := fun taken : String =>
        camelCase .ascii false taken.toList) htaken
    obtain ⟨member, hmember, htext⟩ := List.mem_map.mp hmem
    refine ⟨member, hmember, ?_⟩
    rw [(javaIdentifier_eq_iff u h hcobol).mpr (heq.trans hsqueezed.symm), hvariable taken htaken,
      htext]

/-- Under names the parser reads, all different, the class declares every name
once exactly when no two names of fields differ only in hyphens that no letter
follows and none is the name of a member so. -/
theorem namedApart_iff {layouts : List ObjectMap} (hnames : (layouts.map layoutName).Nodup)
    (hgrammar : ∀ layout ∈ layouts, isCobolName (layoutName layout) = true)
    (statements : List IrStatement) :
    NamedApart u layouts statements ↔
      ((materialisedNames layouts).map squeeze).Nodup ∧
        ∀ name ∈ materialisedNames layouts, ∀ taken ∈ takenNames, squeeze name ≠ taken.toList := by
  have hcobol : ∀ name ∈ materialisedNames layouts, isCobolName name = true := by
    intro name hname
    obtain ⟨layout, hlayout, rfl⟩ := List.mem_map.mp hname
    exact hgrammar layout (List.mem_filter.mp hlayout).1
  have hdistinct : ((materialisedNames layouts).map (javaIdentifier u)).Nodup ↔
      ((materialisedNames layouts).map squeeze).Nodup := by
    unfold List.Nodup
    rw [List.pairwise_map, List.pairwise_map]
    apply List.Pairwise.iff_of_mem
    intro name other hname hother
    exact not_congr (javaIdentifier_eq_iff u (hcobol name hname) (hcobol other hother))
  constructor
  · rintro ⟨hvars, -, hmembers, -⟩
    rw [fieldVars_eq u hnames] at hvars hmembers
    refine ⟨hdistinct.mp hvars, ?_⟩
    intro name hname taken htaken heq
    obtain ⟨member, hmember, hvar⟩ :=
      (javaIdentifier_member_iff u (hcobol name hname)).mpr ⟨taken, htaken, heq⟩
    exact hmembers _ (List.mem_map_of_mem hname) member (List.mem_append_right _ hmember) hvar
  · rintro ⟨hsqueezed, htaken⟩
    have hvars := fieldVars_eq u hnames
    have hof : ∀ fieldVar ∈ fieldVars u layouts,
        ∃ name ∈ materialisedNames layouts, javaIdentifier u name = fieldVar := by
      intro fieldVar hfieldVar
      rw [hvars] at hfieldVar
      exact List.mem_map.mp hfieldVar
    refine ⟨hvars ▸ hdistinct.mpr hsqueezed, ?_, ?_, ?_⟩
    · intro fieldVar hfieldVar
      obtain ⟨name, hname, rfl⟩ := hof fieldVar hfieldVar
      exact isLegalIdentifier_javaIdentifier u (hcobol name hname)
    · intro fieldVar hfieldVar member hmember heq
      obtain ⟨name, hname, rfl⟩ := hof fieldVar hfieldVar
      rcases List.mem_append.mp hmember with hmember | hmember
      · exact javaIdentifier_ne_constant u (hcobol name hname) hmember heq
      · obtain ⟨taken, hmem, hname'⟩ :=
          (javaIdentifier_member_iff u (hcobol name hname)).mp ⟨member, hmember, heq⟩
        exact htaken name hname taken hmem hname'
    · intro fieldVar hfieldVar guard hguard heq
      obtain ⟨name, hname, rfl⟩ := hof fieldVar hfieldVar
      obtain ⟨stmtId, rfl⟩ := guardsNamed_generateBody u _ statements guard hguard
      exact javaIdentifier_ne_loopGuard u (hcobol name hname) stmtId heq

/-- An item with a picture. -/
def sampleLayout (id name : String) : ObjectMap :=
  [("id".toList, .str id.toList), ("name".toList, .str name.toList), ("picture".toList, .str ['9'])]

theorem spread_names_apart :
    NamedApart .ascii [sampleLayout "f-1" "WS-TOTAL", sampleLayout "f-2" "INT"] [] :=
  (namedApart_iff .ascii (by decide) (by decide) []).mpr (by decide)

/-- Two items of different names share one variable. -/
theorem hyphened_digit_shares_variable :
    fieldVars .ascii [sampleLayout "f-1" "WS-A-1", sampleLayout "f-2" "WS-A1"] =
        ["wsA1".toList, "wsA1".toList] ∧
      ¬ NamedApart .ascii [sampleLayout "f-1" "WS-A-1", sampleLayout "f-2" "WS-A1"] [] := by
  have hvars : fieldVars .ascii [sampleLayout "f-1" "WS-A-1", sampleLayout "f-2" "WS-A1"] =
      ["wsA1".toList, "wsA1".toList] := by
    decide +kernel
  refine ⟨hvars, fun h => ?_⟩
  have hdistinct := h.distinct
  rw [hvars] at hdistinct
  revert hdistinct
  decide

end Members

end C2c.TargetJava.FieldNames
