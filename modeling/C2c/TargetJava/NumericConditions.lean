import C2c.TargetJava.Conditions
import C2c.TargetJava.ExpressionMeaning

/-!
The relational conditions between numbers, and what the generated class makes of
them.
-/

namespace C2c.TargetJava.NumericConditions

open C2c.Library.BigDecimal
open C2c.Library.JavaText
open C2c.Library.JavaObject
open C2c.Runtime
open C2c.SemanticIr.Statements
open C2c.TargetJava.References
open C2c.TargetJava.Expressions
open C2c.TargetJava.Conditions
open C2c.TargetJava.JavaNumbers
open C2c.TargetJava.WrittenReferences
open C2c.TargetJava.WrittenExpressions
open C2c.TargetJava.ExpressionMeaning

section Relations

inductive Relation
  | equalTo
  | notEqual
  | greaterThan
  | lessThan
  | greaterOrEqual
  | lessOrEqual
deriving DecidableEq

def Relation.operator : Relation → Text
  | .equalTo => ['=']
  | .notEqual => ['<', '>']
  | .greaterThan => ['>']
  | .lessThan => ['<']
  | .greaterOrEqual => ['>', '=']
  | .lessOrEqual => ['<', '=']

/-- What a relation says of two numbers. -/
def Relation.Holds (x y : Rat) : Relation → Prop
  | .equalTo => x = y
  | .notEqual => x ≠ y
  | .greaterThan => y < x
  | .lessThan => x < y
  | .greaterOrEqual => y ≤ x
  | .lessOrEqual => x ≤ y

/-- A relational condition between arithmetic expressions. -/
structure Condition where
  left : Expression
  relation : Relation
  right : Expression

/-- Whether a condition holds of the fields of the program, or why it does not
say; the left side is computed first. -/
def Condition.Answers (store : Memory) (condition : Condition) : Except Fault Bool → Prop
  | .ok answer => ∃ x y, condition.left.eval store = .ok x ∧ condition.right.eval store = .ok y ∧
      (answer = true ↔ condition.relation.Holds x.value.toRat y.value.toRat)
  | .error fault => condition.left.eval store = .error fault ∨
      ∃ x, condition.left.eval store = .ok x ∧ condition.right.eval store = .error fault

end Relations

section Java

/-- `CobolDecimal.compareTo`: the sign of the answer. -/
def compareTo (x y : CobolDecimal) : Ordering :=
  if x.value.toRat < y.value.toRat then .lt
  else if x.value.toRat = y.value.toRat then .eq
  else .gt

/-- The comparisons of `ConditionStatus`. -/
def conditionStatus (x y : CobolDecimal) : Relation → Bool
  | .equalTo => compareTo x y == .eq
  | .notEqual => !(compareTo x y == .eq)
  | .greaterThan => compareTo x y == .gt
  | .lessThan => compareTo x y == .lt
  | .greaterOrEqual => !(compareTo x y == .lt)
  | .lessOrEqual => !(compareTo x y == .gt)

/-- A call `ConditionStatus.method(left, right)`. -/
structure JavaCondition where
  relation : Relation
  left : Number
  right : Number

def classText : Text :=
  "ConditionStatus.".toList

def methodText (relation : Relation) : Text :=
  comparisonMethod relation.operator

def JavaCondition.text (condition : JavaCondition) : Text :=
  classText ++ (methodText condition.relation ++ ('(' :: (condition.left.text ++
    ([',', ' '] ++ (condition.right.text ++ [')'])))))

def JavaCondition.eval (d : DigitData) (memory : Memory) (condition : JavaCondition) :
    Except Fault Bool := do
  let x ← condition.left.eval d memory
  let y ← condition.right.eval d memory
  return conditionStatus x y condition.relation

def relations : List Relation :=
  [.equalTo, .notEqual, .greaterThan, .lessThan, .greaterOrEqual, .lessOrEqual]

/-- The relation whose method a text begins with. -/
def readRelation (t : Text) : Option (Relation × Text) :=
  relations.findSome? fun relation =>
    (expect (methodText relation ++ ['(']) t).map fun rest => (relation, rest)

def readCondition (t : Text) : Option JavaCondition := do
  let rest ← expect classText t
  let (relation, rest) ← readRelation rest
  let (left, rest) ← readFrom (rest.length + 1) rest
  let rest ← expect [',', ' '] rest
  let (right, rest) ← readFrom (rest.length + 1) rest
  if rest = [')'] then some ⟨relation, left, right⟩ else none

theorem compareTo_cases (x y : CobolDecimal) :
    (compareTo x y = .lt ↔ x.value.toRat < y.value.toRat) ∧
      (compareTo x y = .eq ↔ x.value.toRat = y.value.toRat) ∧
      (compareTo x y = .gt ↔ y.value.toRat < x.value.toRat) := by
  unfold compareTo
  rcases lt_trichotomy x.value.toRat y.value.toRat with h | h | h
  · simp [h, h.ne, h.le]
  · simp [h]
  · simp [h, h.ne', not_lt.mpr h.le]

/-- A comparison says what its relation says of the numbers. -/
theorem conditionStatus_iff (x y : CobolDecimal) (relation : Relation) :
    conditionStatus x y relation = true ↔ relation.Holds x.value.toRat y.value.toRat := by
  obtain ⟨hlt, heq, hgt⟩ := compareTo_cases x y
  cases relation with
  | equalTo => simp [conditionStatus, Relation.Holds, heq]
  | notEqual => simp [conditionStatus, Relation.Holds, heq]
  | greaterThan => simp [conditionStatus, Relation.Holds, hgt]
  | lessThan => simp [conditionStatus, Relation.Holds, hlt]
  | greaterOrEqual => simp [conditionStatus, Relation.Holds, hlt]
  | lessOrEqual => simp [conditionStatus, Relation.Holds, hgt]

theorem readRelation_append (relation : Relation) (t : Text) :
    readRelation (methodText relation ++ '(' :: t) = some (relation, t) := by
  cases relation <;> rfl

theorem readCondition_text {condition : JavaCondition} (hleft : condition.left.Readable)
    (hright : condition.right.Readable) : readCondition condition.text = some condition := by
  obtain ⟨relation, left, right⟩ := condition
  have hends {c : Char} (hc : c ≠ '.') (t : Text) : readMethod (c :: t) = none :=
    readMethod_of_head fun d hd => Option.some.inj hd ▸ hc
  have hcomma (t : Text) : readMethod (',' :: t) = none := hends (by decide) t
  have hclose : readMethod [')'] = none := hends (by decide) []
  have hl := @readFrom_text left hleft
    (left.text ++ ([',', ' '] ++ (right.text ++ [')']))).length
    (left.size_le.trans (by simp)) ([',', ' '] ++ (right.text ++ [')']))
  have hr := @readFrom_text right hright (right.text ++ [')']).length
    (right.size_le.trans (by simp)) [')']
  rw [List.cons_append, readCalls_of_none (hcomma _)] at hl
  rw [readCalls_of_none hclose] at hr
  rw [readCondition, JavaCondition.text, expect_append, Option.bind_eq_bind, Option.bind_some,
    readRelation_append]
  simp only [Option.bind_eq_bind, Option.bind_some, List.cons_append] at hl hr ⊢
  rw [hl]
  have hexpect := expect_append [',', ' '] (right.text ++ [')'])
  simp only [List.cons_append] at hexpect
  simp only [Option.bind_some, hexpect, hr, if_true]

end Java

section Scanning

/-- A character that neither quotes nor relates. -/
def Quiet (c : Char) : Prop :=
  c ≠ '<' ∧ c ≠ '>' ∧ c ≠ '=' ∧ c ≠ '"'

instance : DecidablePred Quiet := fun _ => inferInstanceAs (Decidable (_ ∧ _ ∧ _ ∧ _))

/-- The parentheses that are open behind a text. -/
def depthBehind (depth : Nat) (t : Text) : Nat :=
  t.foldl (fun depth c => if c == '(' then depth + 1 else if c == ')' then depth - 1 else depth) depth

@[simp] theorem depthBehind_append (depth : Nat) (s t : Text) :
    depthBehind depth (s ++ t) = depthBehind (depthBehind depth s) t :=
  List.foldl_append

theorem depthBehind_of_notMem {t : Text} (h : ∀ c ∈ t, c ≠ '(' ∧ c ≠ ')') (depth : Nat) :
    depthBehind depth t = depth := by
  induction t with
  | nil => rfl
  | cons c t ih =>
      obtain ⟨hopen, hclose⟩ := h c List.mem_cons_self
      have hstep : depthBehind depth (c :: t) = depthBehind depth t := by
        simp [depthBehind, hopen, hclose]
      rw [hstep, ih fun d hd => h d (List.mem_cons_of_mem _ hd)]

theorem quiet_of_data {c : Char} (h : isDataCharacter c = true) : Quiet c := by
  have hall := of_ascii (p := fun c => !isDataCharacter c || decide (Quiet c)) (by decide)
    (ascii_of_isDataCharacter h)
  simpa [h] using hall

theorem quiet_of_gap {c : Char} (h : c.toNat < 128 ∧ isWhitespace c = true) : Quiet c := by
  have hall := of_ascii (p := fun c => !isWhitespace c || decide (Quiet c)) (by decide) h.1
  simpa [h.2] using hall

theorem depthBehind_gap {gap : Text} (h : IsGap gap) (depth : Nat) : depthBehind depth gap = depth :=
  depthBehind_of_notMem (fun c hc => ⟨(gap_facts (h c hc)).2.1, (gap_facts (h c hc)).2.2.1⟩) depth

theorem depthBehind_data {t : Text} (h : ∀ c ∈ t, isDataCharacter c = true) (depth : Nat) :
    depthBehind depth t = depth :=
  depthBehind_of_notMem
    (fun c hc => ⟨(data_facts (h c hc)).2.2.1, (data_facts (h c hc)).2.2.2.1⟩) depth

theorem depthBehind_subscripted {name before inner core after : Text} (hname : IsDataName name)
    (hbefore : IsGap before) (hinner : IsGap inner) (hafter : IsGap after)
    (hcore : ∀ depth, depthBehind depth core = depth) (depth : Nat) :
    depthBehind depth (subscripted name before inner core after) = depth := by
  have hopen (t : Text) : depthBehind depth ('(' :: t) = depthBehind (depth + 1) t := rfl
  have hclose : depthBehind (depth + 1) [')'] = depth := rfl
  rw [subscripted, depthBehind_append, depthBehind_append, depthBehind_append,
    depthBehind_data hname.characters, depthBehind_gap hbefore, hopen, depthBehind_append,
    depthBehind_append, depthBehind_gap hinner, hcore, depthBehind_gap hafter, hclose]

/-- A written reference is quiet and closes what it opens. -/
theorem written_quiet {place : Place} {t : Text} (h : Written place t) :
    (∀ c ∈ t, Quiet c) ∧ ∀ depth, depthBehind depth t = depth := by
  have hmem {name before inner core after : Text} (hname : IsDataName name) (hbefore : IsGap before)
      (hinner : IsGap inner) (hafter : IsGap after) (hcore : ∀ c ∈ core, Quiet c) :
      ∀ c ∈ subscripted name before inner core after, Quiet c := by
    intro c hc
    rcases mem_subscripted hc with hc | hc | rfl | hc | hc | hc | rfl
    · exact quiet_of_data (hname.characters c hc)
    · exact quiet_of_gap (hbefore c hc)
    · decide
    · exact quiet_of_gap (hinner c hc)
    · exact hcore c hc
    · exact quiet_of_gap (hafter c hc)
    · decide
  induction h with
  | scalar hname =>
      exact ⟨fun c hc => quiet_of_data (hname.characters c hc), depthBehind_data hname.characters⟩
  | constant hname hbefore hinner hafter hdigits hne =>
      have hdata := fun c hc => (digit_facts (hdigits c hc)).1
      exact ⟨hmem hname hbefore hinner hafter fun c hc => quiet_of_data (hdata c hc),
        depthBehind_subscripted hname hbefore hinner hafter (depthBehind_data hdata)⟩
  | element hname hbefore hinner hafter hindex ih =>
      exact ⟨hmem hname hbefore hinner hafter ih.1,
        depthBehind_subscripted hname hbefore hinner hafter ih.2⟩

/-- The parentheses that are open behind a run of lexemes. -/
def lexemeDepth (depth : Nat) (lexemes : List Lexeme) : Nat :=
  lexemes.foldl (fun depth lexeme => match lexeme with
    | .opening => depth + 1
    | .closing => depth - 1
    | _ => depth) depth

theorem lexemeDepth_append (depth : Nat) (xs ys : List Lexeme) :
    lexemeDepth depth (xs ++ ys) = lexemeDepth (lexemeDepth depth xs) ys :=
  List.foldl_append

theorem lexemeDepth_parses {level : Level} {e : Expression} {lexemes : List Lexeme}
    (h : Parses level e lexemes) (depth : Nat) : lexemeDepth depth lexemes = depth := by
  induction h generalizing depth with
  | literal literal => rfl
  | reference place => rfl
  | @group e lexemes h ih =>
      have hopen (xs : List Lexeme) : lexemeDepth depth (.opening :: xs) =
          lexemeDepth (depth + 1) xs := rfl
      rw [hopen, lexemeDepth_append, ih]
      rfl
  | term h ih => exact ih depth
  | @product method left right lexemes behind hmethod hleft hright ihl ihr =>
      rw [lexemeDepth_append, ihl]
      exact ihr depth
  | sum h ih => exact ih depth
  | @addition method left right lexemes behind hmethod hleft hright ihl ihr =>
      rw [lexemeDepth_append, ihl]
      exact ihr depth

theorem literal_quiet (literal : Literal) :
    (∀ c ∈ literal.text, Quiet c) ∧ ∀ c ∈ literal.text, c ≠ '(' ∧ c ≠ ')' := by
  have hall : ∀ c ∈ literal.text, Quiet c ∧ c ≠ '(' ∧ c ≠ ')' := by
    intro c hc
    rcases mem_text hc with (rfl | rfl) | h | rfl
    · decide
    · decide
    · have hdata := (digit_facts h).1
      exact ⟨quiet_of_data hdata, (data_facts hdata).2.2.1, (data_facts hdata).2.2.2.1⟩
    · decide
  exact ⟨fun c hc => (hall c hc).1, fun c hc => (hall c hc).2⟩

theorem laid_quiet {lexemes : List Lexeme} {t : Text} (h : Laid lexemes t) :
    (∀ c ∈ t, Quiet c) ∧ ∀ depth, depthBehind depth t = lexemeDepth depth lexemes := by
  induction h with
  | nil hgap => exact ⟨fun c hc => quiet_of_gap (hgap c hc), depthBehind_gap hgap⟩
  | @cons gap piece rest lexeme lexemes hgap hspelled hrest hapart ih =>
      have hpiece : (∀ c ∈ piece, Quiet c) ∧
          ∀ depth, depthBehind depth piece = lexemeDepth depth [lexeme] := by
        cases hspelled with
        | literal literal =>
            obtain ⟨hquiet, hplain⟩ := literal_quiet literal
            exact ⟨hquiet, depthBehind_of_notMem hplain⟩
        | reference hwritten => exact written_quiet hwritten
        | operator method =>
            cases method <;> exact ⟨List.forall_mem_singleton.mpr (by decide), fun _ => rfl⟩
        | opening => exact ⟨List.forall_mem_singleton.mpr (by decide), fun _ => rfl⟩
        | closing => exact ⟨List.forall_mem_singleton.mpr (by decide), fun _ => rfl⟩
      constructor
      · intro c hc
        rcases List.mem_append.mp hc with hc | hc
        · exact quiet_of_gap (hgap c hc)
        · rcases List.mem_append.mp hc with hc | hc
          · exact hpiece.1 c hc
          · exact ih.1 c hc
      · intro depth
        rw [depthBehind_append, depthBehind_append, depthBehind_gap hgap, hpiece.2, ih.2,
          ← lexemeDepth_append]
        rfl

/-- A written expression is quiet and closes what it opens. -/
theorem writes_quiet {e : Expression} {t : Text} (h : Writes e t) :
    (∀ c ∈ t, Quiet c) ∧ depthBehind 0 t = 0 := by
  obtain ⟨lexemes, hparses, hlaid⟩ := h
  obtain ⟨hquiet, hdepth⟩ := laid_quiet hlaid
  exact ⟨hquiet, (hdepth 0).trans (lexemeDepth_parses hparses 0)⟩

/-- An operator is looked for behind what is quiet. -/
theorem indexOfOperatorFrom_quiet {o : Char} (ho : ¬ Quiet o) (os : Text) {t : Text}
    (h : ∀ c ∈ t, Quiet c) (depth : Nat) (rest : Text) :
    indexOfOperatorFrom (o :: os) false depth (t ++ rest) =
      (indexOfOperatorFrom (o :: os) false (depthBehind depth t) rest).map (· + t.length) := by
  induction t generalizing depth with
  | nil => simp [depthBehind]
  | cons c t ih =>
      have hc := h c List.mem_cons_self
      have hne : o ≠ c := fun heq => ho (heq ▸ hc)
      have hstep : depthBehind depth (c :: t) = depthBehind
          (if c == '(' then depth + 1 else if c == ')' then depth - 1 else depth) t := rfl
      have hbehind := ih (fun d hd => h d (List.mem_cons_of_mem _ hd))
        (if c == '(' then depth + 1 else if c == ')' then depth - 1 else depth)
      rw [List.cons_append, indexOfOperatorFrom, hstep]
      simp [hc.2.2.2, startsWith, List.isPrefixOf, hne] at hbehind ⊢
      rw [hbehind, Option.map_map]
      simp [Function.comp_def, Nat.add_assoc]

theorem indexOfOperatorFrom_none {o : Char} (ho : ¬ Quiet o) (os : Text) {t : Text}
    (h : ∀ c ∈ t, Quiet c) (depth : Nat) : indexOfOperatorFrom (o :: os) false depth t = none := by
  have hscan := indexOfOperatorFrom_quiet ho os h depth []
  rwa [List.append_nil, indexOfOperatorFrom, Option.map_none] at hscan

/-- The operator of a condition is found where it stands. -/
theorem findOperator_relation {left right : Text} (hleft : ∀ c ∈ left, Quiet c)
    (hdepth : depthBehind 0 left = 0) (hright : ∀ c ∈ right, Quiet c) (relation : Relation) :
    findOperator (left ++ (relation.operator ++ right)) =
      some (relation.operator, left.length) := by
  have hless : ¬ Quiet '<' := by decide
  have hgreater : ¬ Quiet '>' := by decide
  have hequal : ¬ Quiet '=' := by decide
  have hhead {o : Char} (ho : ¬ Quiet o) : [o].isPrefixOf right = false := by
    cases right with
    | nil => rfl
    | cons c right =>
        have hne : o ≠ c := fun heq => ho (heq ▸ hright c List.mem_cons_self)
        simp [List.isPrefixOf, hne]
  have hscan {o : Char} (ho : ¬ Quiet o) (os rest : Text) :
      indexOfOperator (left ++ rest) (o :: os) =
        (indexOfOperatorFrom (o :: os) false 0 rest).map (· + left.length) := by
    rw [indexOfOperator, indexOfOperatorFrom_quiet ho os hleft, hdepth]
  have hnone {o : Char} (ho : ¬ Quiet o) (os : Text) (depth : Nat) :
      indexOfOperatorFrom (o :: os) false depth right = none :=
    indexOfOperatorFrom_none ho os hright depth
  cases relation <;>
    simp [findOperator, relationalOperators, Relation.operator, hscan hless, hscan hgreater,
      hscan hequal, indexOfOperatorFrom, startsWith, hhead hequal, hhead hgreater, hnone hless,
      hnone hgreater]

end Scanning

section Emission

variable (u : UnicodeData) {site : Site}

def javaCondition (fields : Fields) (condition : Condition) : JavaCondition :=
  ⟨condition.relation, javaNumber fields condition.left, javaNumber fields condition.right⟩

/-- The texts of a condition whose sides the generator takes for numbers. -/
inductive WritesCondition (site : Site) (condition : Condition) : Text → Prop
  | intro {before left inner behind right after : Text} (hbefore : IsGap before)
      (hinner : IsGap inner) (hbehind : IsGap behind) (hafter : IsGap after)
      (hsolid : Solid left ∧ Solid right) (hleft : Writes condition.left left)
      (hright : Writes condition.right right)
      (hnumeric : isNumericComparable u site left = true ∧
        isNumericComparable u site right = true) :
      WritesCondition site condition
        (before ++ (left ++ inner ++ (condition.relation.operator ++ (behind ++ right))) ++ after)

theorem conditionText (method left right : Text) :
    "ConditionStatus.".toList ++ method ++ '(' :: left ++ ", ".toList ++ right ++ [')'] =
      classText ++ (method ++ ('(' :: (left ++ ([',', ' '] ++ (right ++ [')']))))) := by
  unfold classText
  simp only [String.reduceToList]
  simp

theorem relationalExpression_numeric {left operator right leftNumber rightNumber : Text}
    (hnumeric : isNumericComparable u site left = true ∧ isNumericComparable u site right = true)
    (hleft : numericExpression u site left = pure leftNumber)
    (hright : numericExpression u site right = pure rightNumber) :
    relationalExpression u site left operator right = pure (classText ++
      (comparisonMethod operator ++ ('(' :: (leftNumber ++ ([',', ' '] ++ (rightNumber ++ [')'])))))) := by
  unfold relationalExpression
  simp only [hnumeric.1, hnumeric.2, hleft, hright, Bool.and_self, if_true, pure_bind, conditionText]

theorem relationalExpression_written {condition : Condition} {left right : Text}
    (hleft : Writes condition.left left) (hright : Writes condition.right right)
    (hnumeric : isNumericComparable u site left = true ∧ isNumericComparable u site right = true)
    (hdeclared : condition.left.Declared site.fields ∧ condition.right.Declared site.fields) :
    relationalExpression u site left condition.relation.operator right =
      pure (javaCondition site.fields condition).text :=
  relationalExpression_numeric u hnumeric (numericExpression_writes u hleft hdeclared.1)
    (numericExpression_writes u hright hdeclared.2)

theorem solid_between {left right : Text} (hleft : Solid left) (hright : Solid right) (t : Text) :
    Solid (left ++ (t ++ right)) := by
  refine ⟨by simp [hleft.filled], fun c hc => hleft.head c ?_, fun c hc => hright.last c ?_⟩
  · rwa [List.head?_append_of_ne_nil _ hleft.filled] at hc
  · rwa [← List.append_assoc, List.getLast?_append_of_ne_nil _ hright.filled] at hc

/-- The Java text of a written condition; nothing is reported of it. -/
theorem conditionExpression_written {condition : Condition} {t : Text}
    (hwrites : WritesCondition u site condition t)
    (hdeclared : condition.left.Declared site.fields ∧ condition.right.Declared site.fields) :
    conditionExpression u site t = pure (javaCondition site.fields condition).text := by
  obtain @⟨before, left, inner, behind, right, after, hbefore, hinner, hbehind, hafter, hsolid, hleft,
    hright, hnumeric⟩ := hwrites
  obtain ⟨hquietLeft, hdepth⟩ := writes_quiet hleft
  obtain ⟨hquietRight, -⟩ := writes_quiet hright
  have hcore : Solid (left ++ inner ++ (condition.relation.operator ++ (behind ++ right))) := by
    simpa [List.append_assoc] using
      solid_between hsolid.1 hsolid.2 (inner ++ (condition.relation.operator ++ behind))
  have hquiet : ∀ c ∈ left ++ inner, Quiet c := by
    intro c hc
    rcases List.mem_append.mp hc with hc | hc
    · exact hquietLeft c hc
    · exact quiet_of_gap (hinner c hc)
  have hquiet' : ∀ c ∈ behind ++ right, Quiet c := by
    intro c hc
    rcases List.mem_append.mp hc with hc | hc
    · exact quiet_of_gap (hbehind c hc)
    · exact hquietRight c hc
  have hfind := findOperator_relation hquiet
    (by rw [depthBehind_append, hdepth, depthBehind_gap hinner]) hquiet' condition.relation
  have hblank : isBlank (left ++ inner ++ (condition.relation.operator ++ (behind ++ right))) =
      false := by
    have hfilled := isBlank_of_writes hleft
    unfold isBlank at hfilled ⊢
    rw [List.all_append, List.all_append, hfilled, Bool.false_and, Bool.false_and]
  have htrimLeft : trim (left ++ inner) = left := trim_padded isGap_nil hsolid.1 hinner
  have htrimRight : trim (behind ++ right) = right := by
    simpa using trim_padded hbehind hsolid.2 isGap_nil
  unfold conditionExpression
  simp only [trim_padded hbefore hcore hafter, hblank, Bool.false_eq_true, if_false, hfind,
    List.take_left, List.drop_length_add_append, List.drop_left, htrimLeft, htrimRight]
  exact relationalExpression_written u hleft hright hnumeric hdeclared

end Emission

section Meaning

variable {fields : Fields} {memory store : Memory}

/-- The generated comparison answers as the condition does. -/
theorem eval_javaCondition (d : DigitData) (hrepresents : Represents fields memory store)
    {condition : Condition}
    (hdeclared : condition.left.Declared fields ∧ condition.right.Declared fields) :
    condition.Answers store ((javaCondition fields condition).eval d memory) := by
  rw [JavaCondition.eval, javaCondition, eval_javaNumber d hrepresents hdeclared.1,
    eval_javaNumber d hrepresents hdeclared.2]
  cases hleft : condition.left.eval store with
  | error fault => exact .inl hleft
  | ok x =>
      cases hright : condition.right.eval store with
      | error fault => exact .inr ⟨x, hleft, hright⟩
      | ok y => exact ⟨x, y, hleft, hright, conditionStatus_iff x y condition.relation⟩

/-- Of a written condition between numbers nothing is reported, and the text the
generated class gets for it reads as a comparison that answers, or throws, as the
relation does of the two numbers, whatever their scales. -/
theorem numericCondition_means (d : DigitData) (u : UnicodeData) {site : Site}
    {condition : Condition} {t : Text} {memory store : Memory}
    (hwrites : WritesCondition u site condition t)
    (hdeclared : condition.left.Declared site.fields ∧ condition.right.Declared site.fields)
    (hvariables : VariablesNamed site.fields) (hrepresents : Represents site.fields memory store) :
    (conditionExpression u site t).diagnostics = [] ∧
      ∃ comparison, readCondition (conditionExpression u site t).value = some comparison ∧
        condition.Answers store (comparison.eval d memory) := by
  rw [conditionExpression_written u hwrites hdeclared]
  exact ⟨rfl, _, readCondition_text (readable_javaNumber hvariables hdeclared.1)
    (readable_javaNumber hvariables hdeclared.2), eval_javaCondition d hrepresents hdeclared⟩

def siteOfA : Site :=
  ⟨soleField, 1, "s1".toList⟩

/-- `2 * (A + 1) >= 3`. -/
def atLeastThree : Condition :=
  ⟨doubledSuccessor, .greaterOrEqual, .literal (wholeNumber '3' rfl)⟩

theorem writes_atLeastThree :
    WritesCondition .ascii siteOfA atLeastThree
      ([] ++ ("2 * (a + 1)".toList ++ [' '] ++ (['>', '='] ++ ([' '] ++ ['3']))) ++ []) := by
  have hthree : Writes (.literal (wholeNumber '3' rfl)) ['3'] :=
    ⟨_, .sum (.term (.literal _)), Laid.cons isGap_nil (.literal (wholeNumber '3' rfl))
      (.nil isGap_nil) (by simp)⟩
  have hleft : Solid "2 * (a + 1)".toList := by
    refine ⟨by decide, fun c hc => ?_, fun c hc => ?_⟩
    · obtain rfl : '2' = c := Option.some.inj hc
      decide
    · obtain rfl : ')' = c := Option.some.inj hc
      decide
  have hright : Solid ['3'] :=
    solid_digits (List.forall_mem_singleton.mpr rfl) (List.cons_ne_nil _ _)
  exact .intro isGap_nil isGap_blank isGap_blank isGap_nil ⟨hleft, hright⟩ writes_doubledSuccessor
    hthree ⟨by decide, by decide⟩

theorem atLeastThree_means :
    (conditionExpression .ascii siteOfA
      ([] ++ ("2 * (a + 1)".toList ++ [' '] ++ (['>', '='] ++ ([' '] ++ ['3']))) ++ [])).diagnostics =
        [] ∧
      ∃ comparison, readCondition (conditionExpression .ascii siteOfA
          ([] ++ ("2 * (a + 1)".toList ++ [' '] ++ (['>', '='] ++ ([' '] ++ ['3']))) ++ [])).value =
            some comparison ∧
        atLeastThree.Answers (held ['A'] ['A']) (comparison.eval .ascii (held ['A'] ['a'])) :=
  numericCondition_means .ascii .ascii writes_atLeastThree ⟨declared_doubledSuccessor, trivial⟩
    variablesNamed_soleField represents_held

end Meaning

end C2c.TargetJava.NumericConditions
