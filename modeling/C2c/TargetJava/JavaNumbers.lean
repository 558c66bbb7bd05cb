import C2c.Runtime.CobolArithmetic
import C2c.Runtime.CobolFieldArray
import C2c.TargetJava.Literals

/-!
The numeric expressions of the generated Java: what they evaluate to on the
fields of the program, and how they are read from their text.
-/

namespace C2c.TargetJava.JavaNumbers

open C2c.Library.BigDecimal
open C2c.Library.JavaText
open C2c.Library.JavaObject
open C2c.Runtime
open C2c.TargetJava.Literals

inductive Method
  | add
  | subtract
  | multiply
  | divide
deriving DecidableEq

/-- A field, or an element of a table. -/
inductive Place
  | scalar (name : Text)
  | constant (name : Text) (index : Nat)
  | element (name : Text) (index : Place)
deriving DecidableEq

inductive Number
  | literal (text : Text) (scale : Nat) (signed : Bool)
  | value (place : Place)
  | apply (method : Method) (receiver argument : Number)
deriving DecidableEq

section Texts

def Method.text : Method → Text
  | .add => '.' :: 'a' :: "dd(".toList
  | .subtract => '.' :: 's' :: "ubtract(".toList
  | .multiply => '.' :: 'm' :: "ultiply(".toList
  | .divide => '.' :: 'd' :: "ivide(".toList

def getText : Text :=
  '.' :: 'g' :: "et(".toList

def intValueText : Text :=
  '.' :: 'i' :: "ntValueExact())".toList

def numericValueText : Text :=
  '.' :: 'n' :: "umericValue()".toList

def ofText : Text :=
  "CobolDecimal".toList ++ '.' :: 'o' :: "f(\"".toList

def Place.text : Place → Text
  | .scalar name => name
  | .constant name index => name ++ getText ++ natText index ++ [')']
  | .element name index => name ++ getText ++ index.text ++ intValueText

def literalText (text : Text) (scale : Nat) (signed : Bool) : Text :=
  ofText ++ text ++ ['"', ',', ' '] ++ natText scale ++ [',', ' '] ++ boolText signed ++ [')']

def Number.text : Number → Text
  | .literal text scale signed => literalText text scale signed
  | .value place => place.text ++ numericValueText
  | .apply method receiver argument => receiver.text ++ method.text ++ argument.text ++ [')']

end Texts

section Evaluation

/-- Why an expression has no value: it names what the program does not declare,
or its evaluation throws. -/
inductive Fault
  | undeclared
  | thrown (e : JavaException)

/-- What a variable of the generated class holds. -/
inductive Item
  | field (field : CobolField)
  | array (array : CobolFieldArray)

abbrev Memory := Text → Option Item

def throwing {A : Type} : Except JavaException A → Except Fault A
  | .ok a => .ok a
  | .error e => .error (.thrown e)

def fieldNamed (memory : Memory) (name : Text) : Except Fault CobolField :=
  match memory name with
  | some (.field field) => .ok field
  | _ => .error .undeclared

def arrayNamed (memory : Memory) (name : Text) : Except Fault CobolFieldArray :=
  match memory name with
  | some (.array array) => .ok array
  | _ => .error .undeclared

/-- The field at a place. -/
def Place.locate (memory : Memory) : Place → Except Fault CobolField
  | .scalar name => fieldNamed memory name
  | .constant name index => do
      let array ← arrayNamed memory name
      throwing (array.get index)
  | .element name index => do
      let array ← arrayNamed memory name
      let field ← index.locate memory
      let oneBasedIndex ← throwing field.intValueExact
      throwing (array.get oneBasedIndex)

def Method.call : Method → CobolDecimal → CobolDecimal → Except JavaException CobolDecimal
  | .add => CobolDecimal.add
  | .subtract => CobolDecimal.subtract
  | .multiply => CobolDecimal.multiply
  | .divide => CobolDecimal.divide

/-- Java evaluates the receiver of a call before its argument. -/
def Number.eval (d : DigitData) (memory : Memory) : Number → Except Fault CobolDecimal
  | .literal text scale signed => throwing (CobolDecimal.ofLiteral d (units text) scale signed)
  | .value place => do
      let field ← place.locate memory
      throwing field.numericValue
  | .apply method receiver argument => do
      let x ← receiver.eval d memory
      let y ← argument.eval d memory
      throwing (method.call x y)

end Evaluation

section Reading

/-- What is behind `expected` at the head of a text. -/
def expect (expected t : Text) : Option Text :=
  if startsWith t expected then some (t.drop expected.length) else none

def isIdentifierCharacter (c : Char) : Bool :=
  c.isAlpha || isDigitAscii c || c == '_'

def readName (t : Text) : Option (Text × Text) :=
  let name := t.takeWhile isIdentifierCharacter
  if name.isEmpty then none else some (name, t.dropWhile isIdentifierCharacter)

def readNatural (t : Text) : Option (Nat × Text) :=
  let digits := t.takeWhile isDigitAscii
  if digits.isEmpty then none else some (digitsValue digits, t.dropWhile isDigitAscii)

/-- A place; a subscript that begins with a digit is a constant. -/
def readPlace : Nat → Text → Option (Place × Text)
  | 0, _ => none
  | fuel + 1, t => do
      let (name, rest) ← readName t
      match expect getText rest with
      | none => some (.scalar name, rest)
      | some rest =>
          match readNatural rest with
          | some (index, rest) => do
              let rest ← expect [')'] rest
              some (.constant name index, rest)
          | none => do
              let (index, rest) ← readPlace fuel rest
              let rest ← expect intValueText rest
              some (.element name index, rest)

def readBool (t : Text) : Option (Bool × Text) :=
  match expect "true".toList t with
  | some rest => some (true, rest)
  | none => (expect "false".toList t).map fun rest => (false, rest)

/-- What stands before the calls of an expression. -/
def readPrimary (fuel : Nat) (t : Text) : Option (Number × Text) :=
  match expect ofText t with
  | some rest => do
      let text := rest.takeWhile (· != '"')
      let rest ← expect ['"', ',', ' '] (rest.dropWhile (· != '"'))
      let (scale, rest) ← readNatural rest
      let rest ← expect [',', ' '] rest
      let (signed, rest) ← readBool rest
      let rest ← expect [')'] rest
      some (.literal text scale signed, rest)
  | none => do
      let (place, rest) ← readPlace fuel t
      let rest ← expect numericValueText rest
      some (.value place, rest)

def readMethod (t : Text) : Option (Method × Text) :=
  [Method.add, .subtract, .multiply, .divide].findSome? fun method =>
    (expect method.text t).map fun rest => (method, rest)

mutual

/-- An expression, and what is behind it. -/
def readFrom : Nat → Text → Option (Number × Text)
  | 0, _ => none
  | fuel + 1, t => do
      let (primary, rest) ← readPrimary fuel t
      readCalls fuel primary rest

/-- The calls behind a receiver. -/
def readCalls : Nat → Number → Text → Option (Number × Text)
  | 0, receiver, t => some (receiver, t)
  | fuel + 1, receiver, t =>
      match readMethod t with
      | none => some (receiver, t)
      | some (method, rest) => do
          let (argument, rest) ← readFrom fuel rest
          let rest ← expect [')'] rest
          readCalls fuel (.apply method receiver argument) rest

end

/-- The expression a whole text is. -/
def readNumber (t : Text) : Option Number :=
  match readFrom (t.length + 1) t with
  | some (number, []) => some number
  | _ => none

end Reading

section RoundTrip

def IsIdentifier (name : Text) : Prop :=
  (∀ c ∈ name, isIdentifierCharacter c = true) ∧
    ∃ c, name.head? = some c ∧ isDigitAscii c = false

/-- The names of a place are identifiers. -/
def Place.Named : Place → Prop
  | .scalar name => IsIdentifier name
  | .constant name _ => IsIdentifier name
  | .element name index => IsIdentifier name ∧ index.Named

def Number.Readable : Number → Prop
  | .literal text _ _ => '"' ∉ text
  | .value place => place.Named
  | .apply _ receiver argument => receiver.Readable ∧ argument.Readable

def Place.depth : Place → Nat
  | .scalar _ | .constant _ _ => 1
  | .element _ index => index.depth + 1

/-- The calls in a row at the end of an expression. -/
def Number.calls : Number → Nat
  | .apply _ receiver _ => receiver.calls + 1
  | _ => 0

/-- How deep the reader goes into an expression. -/
def Number.size : Number → Nat
  | .literal _ _ _ => 1
  | .value place => place.depth
  | .apply _ receiver argument => receiver.size + argument.size + 2

@[simp] theorem expect_append (expected t : Text) : expect expected (expected ++ t) = some t := by
  simp [expect, startsWith]

theorem takeWhile_append_head {p : Char → Bool} {s t : Text} (hs : ∀ c ∈ s, p c = true)
    (ht : ∀ c, t.head? = some c → p c = false) :
    (s ++ t).takeWhile p = s ∧ (s ++ t).dropWhile p = t := by
  rw [List.takeWhile_append_of_pos hs, List.dropWhile_append_of_pos hs]
  cases t with
  | nil => simp
  | cons c t => simp [ht c rfl]

theorem readName_append {name rest : Text} (hname : IsIdentifier name)
    (hrest : ∀ c, rest.head? = some c → isIdentifierCharacter c = false) :
    readName (name ++ rest) = some (name, rest) := by
  obtain ⟨htake, hdrop⟩ := takeWhile_append_head hname.1 hrest
  have hne : name ≠ [] := by
    rintro rfl
    obtain ⟨c, hc, -⟩ := hname.2
    cases hc
  simp [readName, htake, hdrop, hne]

theorem readNatural_append (n : Nat) {rest : Text}
    (hrest : ∀ c, rest.head? = some c → isDigitAscii c = false) :
    readNatural (natText n ++ rest) = some (n, rest) := by
  have hdigits : ∀ c ∈ natText n, isDigitAscii c = true := fun c hc => isDigitAscii_of_mem_natText hc
  obtain ⟨htake, hdrop⟩ := takeWhile_append_head hdigits hrest
  simp only [readNatural, htake, hdrop, digitsValue_natText]
  rw [if_neg (by simpa using natText_ne_nil n)]

/-- A text that goes on neither with a name nor with a subscript. -/
def EndsPlace (rest : Text) : Prop :=
  expect getText rest = none ∧
    ∀ c, rest.head? = some c → isIdentifierCharacter c = false

theorem endsPlace_intValueExact (t : Text) : EndsPlace (intValueText ++ t) :=
  ⟨rfl, fun _ hc => Option.some.inj hc ▸ rfl⟩

theorem endsPlace_numericValue (t : Text) : EndsPlace (numericValueText ++ t) :=
  ⟨rfl, fun _ hc => Option.some.inj hc ▸ rfl⟩

theorem readNatural_identifier {name : Text} (hname : IsIdentifier name) (t : Text) :
    readNatural (name ++ t) = none := by
  obtain ⟨c, hhead, hc⟩ := hname.2
  cases name with
  | nil => cases hhead
  | cons d name =>
      obtain rfl := Option.some.inj hhead
      simp [readNatural, hc]

theorem Place.text_head {place : Place} (h : place.Named) :
    ∃ name rest, IsIdentifier name ∧ place.text = name ++ rest := by
  cases place with
  | scalar name => exact ⟨name, [], h, (List.append_nil name).symm⟩
  | constant name index =>
      exact ⟨name, _, h, by rw [Place.text, List.append_assoc, List.append_assoc]⟩
  | element name index =>
      exact ⟨name, _, h.1, by rw [Place.text, List.append_assoc, List.append_assoc]⟩

theorem Place.depth_pos (place : Place) : 1 ≤ place.depth := by
  cases place with
  | scalar name => exact le_rfl
  | constant name index => exact le_rfl
  | element name index => exact Nat.le_add_left _ _

theorem readPlace_text {place : Place} (h : place.Named) {rest : Text} (hrest : EndsPlace rest)
    {fuel : Nat} (hfuel : place.depth ≤ fuel + 1) :
    readPlace (fuel + 1) (place.text ++ rest) = some (place, rest) := by
  induction place generalizing rest fuel with
  | scalar name =>
      rw [readPlace, Place.text, readName_append h hrest.2]
      simp only [Option.bind_eq_bind, Option.bind_some, hrest.1]
  | constant name index =>
      have hname := @readName_append name (getText ++ (natText index ++ ([')'] ++ rest))) h
        (fun _ hc => Option.some.inj hc ▸ rfl)
      have hindex := @readNatural_append index ([')'] ++ rest) (fun _ hc => Option.some.inj hc ▸ rfl)
      simp only [Place.text, List.append_assoc]
      rw [readPlace, hname]
      simp only [Option.bind_eq_bind, Option.bind_some, expect_append, hindex]
  | element name index ih =>
      have hname := @readName_append name (getText ++ (index.text ++ (intValueText ++ rest))) h.1
        (fun _ hc => Option.some.inj hc ▸ rfl)
      have hnone : readNatural (index.text ++ (intValueText ++ rest)) = none := by
        obtain ⟨inner, t, hinner, htext⟩ := Place.text_head h.2
        rw [htext, List.append_assoc]
        exact readNatural_identifier hinner _
      rw [Place.depth] at hfuel
      have hpositive := index.depth_pos
      obtain ⟨fuel, rfl⟩ := Nat.exists_eq_add_of_le' (show 1 ≤ fuel by omega)
      have hindex := ih h.2 (endsPlace_intValueExact rest) (show index.depth ≤ fuel + 1 by omega)
      simp only [Place.text, List.append_assoc]
      rw [readPlace, hname]
      simp only [Option.bind_eq_bind, Option.bind_some, expect_append, hnone, hindex]

theorem Place.depth_le (place : Place) : place.depth ≤ place.text.length + 1 := by
  induction place with
  | scalar name => simp [Place.depth]
  | constant name index => simp [Place.depth]
  | element name index ih =>
      have hcall : intValueText.length = 17 := rfl
      simp only [Place.depth, Place.text, List.length_append, hcall]
      omega

theorem readBool_append (b : Bool) (t : Text) : readBool (boolText b ++ t) = some (b, t) := by
  cases b <;> rfl

theorem readPrimary_literal {text : Text} (h : '"' ∉ text) (scale : Nat) (signed : Bool)
    (fuel : Nat) (rest : Text) :
    readPrimary fuel (literalText text scale signed ++ rest) =
      some (.literal text scale signed, rest) := by
  have htext := @takeWhile_append_head (· != '"') text
    (['"', ',', ' '] ++ (natText scale ++ ([',', ' '] ++ (boolText signed ++ ([')'] ++ rest)))))
    (fun c hc => bne_iff_ne.mpr fun heq => h (heq ▸ hc)) (fun _ hc => Option.some.inj hc ▸ rfl)
  have hscale := @readNatural_append scale ([',', ' '] ++ (boolText signed ++ ([')'] ++ rest)))
    (fun _ hc => Option.some.inj hc ▸ rfl)
  have hsplit : literalText text scale signed ++ rest = ofText ++ (text ++ (['"', ',', ' '] ++
      (natText scale ++ ([',', ' '] ++ (boolText signed ++ ([')'] ++ rest)))))) := by
    simp only [literalText, List.append_assoc]
  rw [readPrimary, hsplit, expect_append]
  dsimp only
  rw [htext.1, htext.2, expect_append, Option.bind_eq_bind, Option.bind_some, hscale]
  simp only [Option.bind_eq_bind, Option.bind_some, expect_append, readBool_append]

/-- What stands behind the name of a place. -/
theorem Place.text_call {place : Place} (h : place.Named) (t : Text) :
    ∃ name c rest, IsIdentifier name ∧ c ≠ 'o' ∧
      place.text ++ (numericValueText ++ t) = name ++ '.' :: c :: rest := by
  cases place with
  | scalar name => exact ⟨name, 'n', "umericValue()".toList ++ t, h, by decide, rfl⟩
  | constant name index =>
      refine ⟨name, 'g', "et(".toList ++ (natText index ++ ([')'] ++ (numericValueText ++ t))), h,
        by decide, ?_⟩
      rw [Place.text, List.append_assoc, List.append_assoc, List.append_assoc]
      rfl
  | element name index =>
      refine ⟨name, 'g', "et(".toList ++ (index.text ++ (intValueText ++ (numericValueText ++ t))),
        h.1, by decide, ?_⟩
      rw [Place.text, List.append_assoc, List.append_assoc, List.append_assoc]
      rfl

/-- Behind a name no call is read as another. -/
theorem expect_call_of_ne {c d : Char} (hne : c ≠ d) {cls name : Text} (hcls : '.' ∉ cls)
    (hname : '.' ∉ name) (s t : Text) :
    expect (cls ++ '.' :: c :: s) (name ++ '.' :: d :: t) = none := by
  apply if_neg
  intro hstarts
  obtain ⟨behind, hbehind⟩ := List.isPrefixOf_iff_prefix.mp hstarts
  rw [List.append_assoc] at hbehind
  obtain ⟨-, hrest⟩ := append_cons_inj hcls hname hbehind
  exact hne (List.cons.inj hrest).1

/-- The text of a place is not the beginning of a literal. -/
theorem expect_literal_place {place : Place} (h : place.Named) (t : Text) :
    expect ofText (place.text ++ (numericValueText ++ t)) = none := by
  obtain ⟨name, c, rest, hname, hc, htext⟩ := Place.text_call h t
  have hdot : '.' ∉ name := fun hmem => Bool.noConfusion (hname.1 '.' hmem)
  have hcls : '.' ∉ "CobolDecimal".toList := by simp
  rw [htext]
  exact expect_call_of_ne hc.symm hcls hdot "f(\"".toList rest

theorem expect_of_ne {c d : Char} (h : c ≠ d) (a : Char) (s t : Text) :
    expect (a :: c :: s) (a :: d :: t) = none := by
  simp [expect, startsWith, h]

theorem readMethod_append (method : Method) (t : Text) :
    readMethod (method.text ++ t) = some (method, t) := by
  cases method with
  | add => simp [readMethod]
  | subtract =>
      have hadd : expect Method.add.text (Method.subtract.text ++ t) = none :=
        expect_of_ne (by decide) _ _ _
      simp [readMethod, hadd]
  | multiply =>
      have hadd : expect Method.add.text (Method.multiply.text ++ t) = none :=
        expect_of_ne (by decide) _ _ _
      have hsubtract : expect Method.subtract.text (Method.multiply.text ++ t) = none :=
        expect_of_ne (by decide) _ _ _
      simp [readMethod, hadd, hsubtract]
  | divide =>
      have hadd : expect Method.add.text (Method.divide.text ++ t) = none :=
        expect_of_ne (by decide) _ _ _
      have hsubtract : expect Method.subtract.text (Method.divide.text ++ t) = none :=
        expect_of_ne (by decide) _ _ _
      have hmultiply : expect Method.multiply.text (Method.divide.text ++ t) = none :=
        expect_of_ne (by decide) _ _ _
      simp [readMethod, hadd, hsubtract, hmultiply]

theorem readMethod_of_head {t : Text} (h : ∀ c, t.head? = some c → c ≠ '.') :
    readMethod t = none := by
  have hnone (s : Text) : expect ('.' :: s) t = none := by
    cases t with
    | nil => rfl
    | cons c t => simp [expect, startsWith, Ne.symm (h c rfl)]
  exact List.findSome?_eq_none_iff.mpr fun method _ => by
    cases method <;> exact congrArg (Option.map _) (hnone _)

theorem readCalls_of_none {t : Text} (h : readMethod t = none) (fuel : Nat) (receiver : Number) :
    readCalls fuel receiver t = some (receiver, t) := by
  cases fuel with
  | zero => rw [readCalls]
  | succ fuel => rw [readCalls, h]

theorem Number.calls_le_size (number : Number) : number.calls ≤ number.size := by
  induction number with
  | literal text scale signed => exact Nat.zero_le _
  | value place => exact Nat.zero_le _
  | apply method receiver argument ihr iha =>
      rw [Number.calls, Number.size]
      omega

/-- The reader has read an expression when it goes on with the calls behind it. -/
theorem readFrom_text {number : Number} (h : number.Readable) {fuel : Nat}
    (hfuel : number.size ≤ fuel) (rest : Text) :
    readFrom (fuel + 1) (number.text ++ rest) = readCalls (fuel - number.calls) number rest := by
  induction number generalizing fuel rest with
  | literal text scale signed =>
      rw [readFrom, Number.text, readPrimary_literal h]
      rfl
  | value place =>
      obtain ⟨fuel, rfl⟩ := Nat.exists_eq_add_of_le' (place.depth_pos.trans hfuel)
      rw [readFrom, readPrimary, Number.text, List.append_assoc, expect_literal_place h]
      dsimp only
      rw [readPlace_text h (endsPlace_numericValue rest) hfuel]
      simp only [Option.bind_eq_bind, Option.bind_some, expect_append]
      rfl
  | apply method receiver argument ihr iha =>
      rw [Number.size] at hfuel
      have hcalls := receiver.calls_le_size
      obtain ⟨left, hleft⟩ : ∃ left, fuel - receiver.calls = left + 1 + 1 :=
        Nat.exists_eq_add_of_le' (show 2 ≤ fuel - receiver.calls by omega)
      have hargument := iha h.2 (show argument.size ≤ left by omega) (')' :: rest)
      have hclose : readMethod (')' :: rest) = none := by
        apply readMethod_of_head
        rintro c hc rfl
        cases hc
      rw [readCalls_of_none hclose] at hargument
      rw [Number.text, List.append_assoc, List.append_assoc, List.append_assoc, ihr h.1 (by omega),
        hleft, readCalls, readMethod_append]
      simp only [List.singleton_append, hargument, Option.bind_eq_bind, Option.bind_some]
      rw [show ')' :: rest = [')'] ++ rest from rfl, expect_append, Option.bind_some, Number.calls,
        show fuel - (receiver.calls + 1) = left + 1 by omega]

theorem Number.size_le (number : Number) : number.size ≤ number.text.length := by
  induction number with
  | literal text scale signed =>
      rw [Number.size, Number.text, literalText, List.append_assoc]
      exact Nat.succ_le_of_lt (Nat.zero_lt_of_lt (by simp : 0 < _))
  | value place =>
      have hdepth := place.depth_le
      have hcall : numericValueText.length = 15 := rfl
      rw [Number.size, Number.text, List.length_append, hcall]
      omega
  | apply method receiver argument ihr iha =>
      have hmethod : 1 ≤ method.text.length := by cases method <;> decide
      rw [Number.size, Number.text, List.length_append, List.length_append, List.length_append,
        List.length_singleton]
      omega

/-- An expression is read from its text. -/
theorem readNumber_text {number : Number} (h : number.Readable) :
    readNumber number.text = some number := by
  have hread := readFrom_text h number.size_le []
  rw [List.append_nil, readCalls_of_none (readMethod_of_head (by simp))] at hread
  rw [readNumber, hread]

end RoundTrip

end C2c.TargetJava.JavaNumbers
