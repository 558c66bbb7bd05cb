import C2c.TargetJava.Weaving

namespace C2c.TargetJava.WovenLines

open C2c.Library.JavaText
open C2c.Library.JavaObject
open C2c.SemanticIr.Statements
open C2c.TargetJava.Literals
open C2c.TargetJava.References
open C2c.TargetJava.Expressions
open C2c.TargetJava.Conditions
open C2c.TargetJava.LeafStatements
open C2c.TargetJava.Generation
open C2c.TargetJava.BlockSteps
open C2c.TargetJava.Weaving

/-- The variables of the fields are names. -/
def FieldsNamed (fields : Fields) : Prop :=
  ∀ entry ∈ fields, IsName entry.2.fieldVar

section Expressions

variable (u : UnicodeData) {site : Site}

theorem isName_of_get {fields : Fields} (h : FieldsNamed fields) {name : Text}
    {field : FieldEmission} (hget : fields.get name = some field) : IsName field.fieldVar := by
  obtain ⟨before, after, rfl, -⟩ := List.lookup_eq_some_iff.mp hget
  exact h (name, field) (List.mem_append_right _ List.mem_cons_self)

theorem woven_one : Woven ['1'] :=
  woven_word .one

theorem woven_elementIndex {fuel : Nat}
    (hreference : ∀ token ref, (fieldReferenceWithin u site fuel token).value = some ref →
      Woven ref.accessor) (index : Option Text) :
    Woven (elementIndex u site fuel index).value := by
  cases index with
  | none =>
      rw [elementIndex]
      exact woven_one
  | some index =>
      rw [elementIndex]
      split_ifs
      · exact woven_one
      · exact woven_intText _
      · rw [value_bind]
        split
        · next ref href =>
            exact (hreference _ ref href).word .intValueExact
        · exact woven_one

/-- The accessor of a field is woven, with the accessors in its subscripts. -/
theorem woven_fieldReferenceWithin (hfields : FieldsNamed site.fields) {fuel : Nat}
    {token : Text} {ref : FieldReference}
    (h : (fieldReferenceWithin u site fuel token).value = some ref) : Woven ref.accessor := by
  induction fuel generalizing token ref with
  | zero =>
      rw [fieldReferenceWithin] at h
      cases h
  | succ fuel ih =>
      rw [fieldReferenceWithin] at h
      dsimp only at h
      split at h
      · cases h
      · split at h
        · cases h
        · next field hfield =>
            have hname := isName_of_get hfields hfield
            split at h
            · have hindex := woven_elementIndex u (fun token ref href => ih href)
                (referenceIndex token)
              have hget : Woven (field.fieldVar ++ ".get(".toList ++
                  (elementIndex u site fuel (referenceIndex token)).value ++ [')']) :=
                (((woven_name hname).word .get).append hindex).word .rightParen
              rw [value_bind] at h
              split at h
              · obtain rfl := Option.some.inj h
                exact hget
              · obtain rfl := Option.some.inj h
                exact hget
            · split at h
              · obtain rfl := Option.some.inj h
                exact woven_name hname
              · obtain rfl := Option.some.inj h
                exact woven_name hname

theorem woven_fieldReference (hfields : FieldsNamed site.fields) {token : Text}
    {ref : FieldReference}
    (h : (fieldReference u site token).value = some ref) : Woven ref.accessor :=
  woven_fieldReferenceWithin u hfields h

theorem woven_decimalLiteral (literal : Text) : Woven (decimalLiteral literal) := by
  unfold decimalLiteral
  dsimp only
  apply Woven.word _ .rightParen
  apply Woven.append _ (woven_boolText _)
  apply Woven.word _ .comma
  apply Woven.name _ (isName_natText _)
  exact ((woven_word .decimalOf).literal_before _).word .comma

theorem woven_zeroExpression : Woven zeroExpression :=
  woven_word .zero

theorem woven_operandToken (hfields : FieldsNamed site.fields) (token : Text) :
    Woven (operandToken u site token).value := by
  unfold operandToken
  split
  · exact woven_decimalLiteral token
  · rw [value_bind]
    split
    · next ref href => exact (woven_fieldReference u hfields href).word .numericValue
    · exact woven_zeroExpression

theorem isWord_addSubMethod {op method : Text} (h : addSubMethod op = some method) :
    IsWord method := by
  unfold addSubMethod at h
  split_ifs at h
  · exact Option.some.inj h ▸ .add
  · exact Option.some.inj h ▸ .subtract

theorem isWord_mulDivMethod {op method : Text} (h : mulDivMethod op = some method) :
    IsWord method := by
  unfold mulDivMethod at h
  split_ifs at h
  · exact Option.some.inj h ▸ .multiply
  · exact Option.some.inj h ▸ .divide

/-- The texts of the expression parser, at one depth of its recursion. -/
structure ParsesWoven (site : Site) (fuel : Nat) : Prop where
  addSub : ∀ tokens, Woven (parseAddSub u site fuel tokens).value.1
  addSubRest : ∀ left tokens, Woven left → Woven (addSubRest u site fuel left tokens).value.1
  mulDiv : ∀ tokens, Woven (parseMulDiv u site fuel tokens).value.1
  mulDivRest : ∀ left tokens, Woven left → Woven (mulDivRest u site fuel left tokens).value.1
  factor : ∀ tokens, Woven (parseFactor u site fuel tokens).value.1

theorem parsesWoven (hfields : FieldsNamed site.fields) (fuel : Nat) :
    ParsesWoven u site fuel := by
  induction fuel with
  | zero =>
      constructor
      · intro tokens
        rw [parseAddSub]
        exact .nil
      · intro left tokens hleft
        rw [addSubRest] <;> simp [hleft]
      · intro tokens
        rw [parseMulDiv]
        exact .nil
      · intro left tokens hleft
        rw [mulDivRest] <;> simp [hleft]
      · intro tokens
        cases tokens with
        | nil =>
            rw [parseFactor]
            exact woven_zeroExpression
        | cons token tokens =>
            rw [parseFactor]
            · exact .nil
            · simp
  | succ fuel ih =>
      constructor
      · intro tokens
        rw [parseAddSub, value_bind]
        exact ih.addSubRest _ _ (ih.mulDiv tokens)
      · intro left tokens hleft
        cases tokens with
        | nil => rw [addSubRest] <;> simp [hleft]
        | cons op tokens =>
            rw [addSubRest]
            split
            · next method hmethod =>
                rw [value_bind]
                exact ih.addSubRest _ _ (((hleft.word (isWord_addSubMethod hmethod)).append
                  (ih.mulDiv tokens)).word .rightParen)
            · exact hleft
      · intro tokens
        rw [parseMulDiv, value_bind]
        exact ih.mulDivRest _ _ (ih.factor tokens)
      · intro left tokens hleft
        cases tokens with
        | nil => rw [mulDivRest] <;> simp [hleft]
        | cons op tokens =>
            rw [mulDivRest]
            split
            · next method hmethod =>
                rw [value_bind]
                exact ih.mulDivRest _ _ (((hleft.word (isWord_mulDivMethod hmethod)).append
                  (ih.factor tokens)).word .rightParen)
            · exact hleft
      · intro tokens
        cases tokens with
        | nil =>
            rw [parseFactor]
            exact woven_zeroExpression
        | cons token tokens =>
            rw [parseFactor]
            split
            · rw [value_bind]
              have hnested := ih.addSub tokens
              generalize (parseAddSub u site fuel tokens).value = parsed at hnested
              obtain ⟨nested, rest⟩ := parsed
              cases rest with
              | nil => exact hnested
              | cons close rest => exact hnested
            · rw [value_bind]
              exact woven_operandToken u hfields token

theorem woven_numericExpression (hfields : FieldsNamed site.fields) (expression : Text) :
    Woven (numericExpression u site expression).value := by
  unfold numericExpression parseExpression
  split
  · exact woven_zeroExpression
  · rw [value_bind]
    have hparsed := (parsesWoven u hfields (parserFuel (tokenizeExpression u expression))).addSub
      (tokenizeExpression u expression)
    generalize (parseAddSub u site (parserFuel (tokenizeExpression u expression))
      (tokenizeExpression u expression)).value = parsed at hparsed
    obtain ⟨text, rest⟩ := parsed
    cases rest with
    | nil => exact hparsed
    | cons token rest => exact hparsed

theorem expression_displayText (hfields : FieldsNamed site.fields) (token : Text) :
    Expression (displayTextExpression u site token).value := by
  unfold displayTextExpression
  dsimp only
  split
  · exact expression_literal _
  · rw [value_bind]
    split
    · next ref href => exact ((woven_fieldReference u hfields href).word .trimmedValue).expression
    · exact expression_literal _

theorem woven_false : Woven "false".toList :=
  woven_word .falseWord

theorem woven_relationalExpression (hfields : FieldsNamed site.fields)
    (left operator right : Text) : Woven (relationalExpression u site left operator right).value := by
  have hequals : Woven ((displayTextExpression u site left).value ++ ".equals(".toList ++
      (displayTextExpression u site right).value ++ [')']) :=
    (((expression_displayText u hfields left).word .equals).before
      (expression_displayText u hfields right)).word .rightParen
  unfold relationalExpression
  split
  · simp only [value_bind, value_pure]
    have hmethod : Woven ("ConditionStatus.".toList ++ comparisonMethod operator ++ ['(']) :=
      ((woven_word .conditionStatus).word (.comparison operator)).word .leftParen
    have hleft := hmethod.append (woven_numericExpression u hfields left)
    have hright := ((hleft.word IsWord.comma).append
      (woven_numericExpression u hfields right)).word IsWord.rightParen
    simpa using hright
  · rw [value_bind, value_bind]
    split
    · exact hequals
    · split
      · exact (woven_word IsWord.not).append hequals
      · exact woven_false

theorem woven_conditionExpression (hfields : FieldsNamed site.fields) (condition : Text) :
    Woven (conditionExpression u site condition).value := by
  unfold conditionExpression
  dsimp only
  split
  · exact woven_false
  · split
    · exact woven_relationalExpression u hfields _ _ _
    · exact woven_false

theorem woven_evaluateCondition (hfields : FieldsNamed site.fields) (selector value : Text) :
    Woven (evaluateCondition u site selector value).value := by
  unfold evaluateCondition
  split
  · exact woven_relationalExpression u hfields _ _ _
  · exact (((expression_displayText u hfields selector).word .equals).before
      (expression_displayText u hfields value)).word .rightParen

theorem expression_displayFragment (hfields : FieldsNamed site.fields) (token : Text) :
    Expression (renderDisplayFragment u site token).value := by
  unfold renderDisplayFragment
  split
  · exact expression_literal _
  · rw [value_bind]
    split
    · next ref href => exact ((woven_fieldReference u hfields href).word .displayValue).expression
    · split
      · exact expression_literal _
      · exact expression_literal _

end Expressions

/-- A line of code: no comment, and woven. -/
structure WovenLine (line : JavaLine) : Prop where
  code : ∀ text, line ≠ .comment text
  woven : Woven line.text

def AllWoven (lines : List JavaLine) : Prop :=
  ∀ line ∈ lines, WovenLine line

section Lines

variable (u : UnicodeData) {site : Site}

theorem wovenLine_statement {code : Text} (h : Woven code) : WovenLine (.statement code) :=
  ⟨by simp, h⟩

theorem wovenLines_nil : AllWoven [] := by
  rintro _ ⟨⟩

theorem wovenLines_singleton {line : JavaLine} (h : WovenLine line) : AllWoven [line] := by
  intro other hother
  obtain rfl := List.mem_singleton.mp hother
  exact h

theorem wovenLines_append {before after : List JavaLine} (hbefore : AllWoven before)
    (hafter : AllWoven after) : AllWoven (before ++ after) := by
  intro line hline
  rcases List.mem_append.mp hline with hline | hline
  · exact hbefore line hline
  · exact hafter line hline

theorem wovenLine_assumption (site : Site) (description : Text) :
    WovenLine (assumptionRecordCall site description) := by
  have hcall : Woven ("assumptionRegistry.record(".toList ++ javaStringLiteral site.stmtId ++
      ", ".toList ++ javaStringLiteral site.stmtId ++ ", Severity.WARN, ".toList ++
      javaStringLiteral description ++ ");".toList) := by
    apply Expression.word _ .endCall
    apply Woven.literal_before
    apply Expression.word _ .severity
    apply Woven.literal_before
    apply Expression.word _ .comma
    exact (woven_word .record).literal_before _
  apply wovenLine_statement
  simpa [javaStringLiteral] using hcall

theorem wovenLine_assign {accessor expression : Text} (haccessor : Woven accessor)
    (hexpression : Woven expression) : WovenLine (assignNumeric accessor expression) :=
  wovenLine_statement (((haccessor.word .setNumericValue).append hexpression).word .endCall)

theorem wovenLines_flatten {α : Type} {f : α → Emits (List JavaLine)} (xs : List α)
    (h : ∀ a, AllWoven (f a).value) :
    AllWoven (xs.mapM f >>= fun lines => pure lines.flatten).value := by
  intro line hline
  rw [value_bind, value_pure, value_mapM] at hline
  obtain ⟨lines, hlines, hline⟩ := List.mem_flatten.mp hline
  obtain ⟨a, -, rfl⟩ := List.mem_map.mp hlines
  exact h a line hline

theorem wovenLines_display (hfields : FieldsNamed site.fields) (operands : ObjectMap) :
    AllWoven (emitDisplay u site operands).value := by
  unfold emitDisplay
  dsimp only
  split
  · exact wovenLines_singleton (wovenLine_assumption _ _)
  · rw [value_bind, value_mapM]
    split
    · exact wovenLines_singleton (wovenLine_assumption _ _)
    · apply wovenLines_singleton
      apply wovenLine_statement
      apply Woven.word _ .endDisplay
      apply Woven.append (woven_word .display)
      apply woven_flatMap
      intro fragment hfragment
      obtain ⟨token, -, rfl⟩ := List.mem_map.mp hfragment
      exact ((woven_word .append).before (expression_displayFragment u hfields token)).word
        .rightParen

theorem wovenLines_moveTo (hfields : FieldsNamed site.fields) (source : Text)
    (target : C2c.Library.JavaObject.Value) :
    AllWoven (emitMoveTo u site source target).value := by
  unfold emitMoveTo
  dsimp only
  rw [value_bind]
  split
  · exact wovenLines_nil
  · next field href =>
      have hfield := woven_fieldReference u hfields href
      split
      · exact wovenLines_singleton (wovenLine_statement
          (((hfield.word .moveLiteral).literal_before _).word .endCall))
      · split
        · exact wovenLines_singleton (wovenLine_assign hfield (woven_decimalLiteral source))
        · rw [value_bind]
          split
          · exact wovenLines_singleton (wovenLine_assumption _ _)
          · next other hother =>
              exact wovenLines_singleton (wovenLine_statement (((hfield.word .moveFrom).append
                (woven_fieldReference u hfields hother)).word .endCall))

theorem wovenLines_move (hfields : FieldsNamed site.fields) (operands : ObjectMap) :
    AllWoven (emitMove u site operands).value := by
  unfold emitMove
  dsimp only
  split
  · exact wovenLines_singleton (wovenLine_assumption _ _)
  · exact wovenLines_flatten _ (wovenLines_moveTo u hfields _)

theorem wovenLines_compute (hfields : FieldsNamed site.fields) (operands : ObjectMap) :
    AllWoven (emitCompute u site operands).value := by
  unfold emitCompute
  dsimp only
  rw [value_bind]
  split
  · next target href =>
      split
      · exact wovenLines_singleton (wovenLine_assign (woven_fieldReference u hfields href)
          (woven_numericExpression u hfields _))
      · exact wovenLines_singleton (wovenLine_assumption _ _)
  · exact wovenLines_singleton (wovenLine_assumption _ _)

theorem wovenLines_accumulateInto (hfields : FieldsNamed site.fields) {method : String}
    (hmethod : IsWord method.toList) (sources : List Text) (target : Text) :
    AllWoven (emitAccumulateInto u site method sources target).value := by
  unfold emitAccumulateInto
  rw [value_bind]
  split
  · exact wovenLines_nil
  · next field href =>
      have hfield := woven_fieldReference u hfields href
      rw [value_bind, value_mapM]
      apply wovenLines_singleton
      apply wovenLine_assign hfield
      apply Woven.append (hfield.word .numericValue)
      apply woven_flatMap
      intro operand hoperand
      obtain ⟨source, -, rfl⟩ := List.mem_map.mp hoperand
      have hcall : Woven (['.'] ++ method.toList ++ ['('] ++
          (numericExpression u site source).value ++ [')']) :=
        ((((woven_word .dot).word hmethod).word .leftParen).append
          (woven_numericExpression u hfields source)).word .rightParen
      simpa using hcall

theorem wovenLines_accumulate (hfields : FieldsNamed site.fields) {method : String}
    (hmethod : IsWord method.toList) (sources targets : List Text) :
    AllWoven (emitAccumulatorArithmetic u site method sources targets).value := by
  unfold emitAccumulatorArithmetic
  dsimp only
  split
  · exact wovenLines_singleton (wovenLine_assumption _ _)
  · exact wovenLines_flatten _ (wovenLines_accumulateInto u hfields hmethod _)

theorem wovenLines_add (hfields : FieldsNamed site.fields) (operands : ObjectMap) :
    AllWoven (emitAdd u site operands).value := by
  unfold emitAdd
  dsimp only
  split
  · exact wovenLines_accumulate u hfields .addName _ _
  · exact wovenLines_accumulate u hfields .addName _ _

theorem wovenLines_subtract (hfields : FieldsNamed site.fields) (operands : ObjectMap) :
    AllWoven (emitSubtract u site operands).value := by
  unfold emitSubtract
  dsimp only
  split
  · exact wovenLines_accumulate u hfields .subtractName _ _
  · exact wovenLines_accumulate u hfields .subtractName _ _

theorem wovenLines_multiply (hfields : FieldsNamed site.fields) (operands : ObjectMap) :
    AllWoven (emitMultiply u site operands).value := by
  unfold emitMultiply
  dsimp only
  rw [value_bind]
  split
  · next target href =>
      split
      · exact wovenLines_singleton (wovenLine_assign (woven_fieldReference u hfields href)
          ((((woven_numericExpression u hfields _).word .multiply).append
            (woven_numericExpression u hfields _)).word .rightParen))
      · exact wovenLines_singleton (wovenLine_assumption _ _)
  · exact wovenLines_singleton (wovenLine_assumption _ _)

theorem wovenLines_divide (hfields : FieldsNamed site.fields) (operands : ObjectMap) :
    AllWoven (emitDivide u site operands).value := by
  unfold emitDivide
  dsimp only
  rw [value_bind]
  split
  · next target href =>
      split
      · exact wovenLines_singleton (wovenLine_assign (woven_fieldReference u hfields href)
          ((((woven_numericExpression u hfields _).word .divide).append
            (woven_numericExpression u hfields _)).word .rightParen))
      · exact wovenLines_singleton (wovenLine_assumption _ _)
  · exact wovenLines_singleton (wovenLine_assumption _ _)

/-- Case maps keep letters and digits what they are. -/
def CasesKeepLetters (u : UnicodeData) : Prop :=
  ∀ c, u.isLetterOrDigit c = true →
    u.isLetterOrDigit (u.charUpper c) = true ∧ u.isLetterOrDigit (u.charLower c) = true

theorem isNamePart_of_letterOrDigit {c : Char} (h : u.isLetterOrDigit c = true) :
    isNamePart c = true := by
  by_cases hascii : c.toNat < 128
  · rw [UnicodeData.isLetterOrDigit, u.isLetter_ascii c hascii, u.isDigit_ascii c hascii] at h
    have hdigit : isDigitAscii c = c.isDigit := by
      simp [isDigitAscii, Char.isDigit, Char.le_def]
    rw [hdigit] at h
    simp [isNamePart, Char.isAlphanum, h]
  · simp [isNamePart, Nat.not_lt.mp hascii]

theorem isName_camelCase (hu : CasesKeepLetters u) (t : Text) (upper : Bool) :
    IsName (camelCase u upper t) := by
  induction t generalizing upper with
  | nil => rfl
  | cons c t ih =>
      rw [camelCase]
      split
      · exact ih true
      · split
        · next hletter =>
            obtain ⟨hupper, hlower⟩ := hu c hletter
            have hpart : isNamePart (if upper then u.charUpper c else u.charLower c) = true := by
              split
              · exact isNamePart_of_letterOrDigit u hupper
              · exact isNamePart_of_letterOrDigit u hlower
            rw [IsName, List.all_cons, hpart, Bool.true_and]
            exact ih false
        · exact ih upper

theorem isName_append {s t : Text} (hs : IsName s) (ht : IsName t) : IsName (s ++ t) := by
  rw [IsName, List.all_append]
  exact Bool.and_eq_true_iff.mpr ⟨hs, ht⟩

/-- A name that starts with a letter, or with the `f` put in front of it. -/
theorem isName_candidate (name : Text) : IsName name →
    IsName (match name with
      | c :: _ => if u.isLetter c then name else 'f' :: name
      | [] => name) := by
  intro h
  have hletter : IsName ['f'] := rfl
  cases name with
  | nil => exact h
  | cons c t =>
      dsimp only
      split
      · exact h
      · exact isName_append hletter h

theorem isName_guarded {candidate : Text} (h : IsName candidate) (isKeyword : Bool) :
    IsName (if isKeyword then candidate ++ ['_'] else candidate) := by
  have hunderscore : IsName ['_'] := rfl
  split
  · exact isName_append h hunderscore
  · exact h

theorem isName_javaIdentifier (hu : CasesKeepLetters u) (cobolName : Text) :
    IsName (javaIdentifier u cobolName) := by
  have hfield : IsName "field".toList := by
    rw [IsName]
    decide
  have hname : IsName (if (camelCase u false cobolName).isEmpty then "field".toList
      else camelCase u false cobolName) := by
    split
    · exact hfield
    · exact isName_camelCase u hu cobolName false
  exact isName_guarded (isName_candidate u _ hname) _

theorem isName_loopGuard (hu : CasesKeepLetters u) (stmtId : Text) :
    IsName (loopGuard u stmtId) := by
  have hguard : IsName "loopGuard_".toList := by
    rw [IsName]
    decide
  exact isName_append hguard (isName_javaIdentifier u hu stmtId)

end Lines

end C2c.TargetJava.WovenLines
