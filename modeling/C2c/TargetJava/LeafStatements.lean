import C2c.TargetJava.Conditions

namespace C2c.TargetJava.LeafStatements

open C2c.Library.JavaText
open C2c.Library.JavaObject
open C2c.CobolParser.Tokens
open C2c.SemanticIr.Statements
open C2c.TargetJava.Literals
open C2c.TargetJava.References
open C2c.TargetJava.Expressions

/-- The condition of an emitted `if`: a text, or the `true` of a first `WHEN OTHER`. -/
inductive JavaCondition
  | always
  | test (condition : Text)
deriving DecidableEq

def JavaCondition.text : JavaCondition → Text
  | .always => "true".toList
  | .test condition => condition

/-- The lines the generator writes into the body of `run()`. -/
inductive JavaLine
  | comment (text : Text)
  | statement (code : Text)
  | openIf (condition : JavaCondition)
  | openElseIf (condition : Text)
  | openElse
  | declareGuard (guard : Text)
  | openWhile (condition : Text)
  | checkGuard (guard : Text)
  | throwGuard (stmtId : Text)
  | close
  | leave
deriving DecidableEq

def loopGuardLimit : Nat :=
  10000

def JavaLine.text : JavaLine → Text
  | .comment text => "// ".toList ++ text
  | .statement code => code
  | .openIf condition => "if (".toList ++ condition.text ++ ") \x7b".toList
  | .openElseIf condition => "\x7d else if (".toList ++ condition ++ ") \x7b".toList
  | .openElse => "\x7d else \x7b".toList
  | .declareGuard guard => "int ".toList ++ guard ++ " = 0;".toList
  | .openWhile condition => "while (!(".toList ++ condition ++ ")) \x7b".toList
  | .checkGuard guard =>
      "if (++".toList ++ guard ++ " > ".toList ++ natText loopGuardLimit ++ ") \x7b".toList
  | .throwGuard stmtId => "throw new IllegalStateException(".toList ++
      javaStringLiteral ("PERFORM loop guard exceeded for ".toList ++ stmtId) ++ ");".toList
  | .close => ['}']
  | .leave => "return;".toList

/-- What `emitStatement` reads of a statement of the IR. -/
structure Source where
  stmtId : Text
  line : Int
  raw : Text
  operands : ObjectMap

def sourceOf (statement : IrStatement) : Source where
  stmtId := string (.str statement.id) []
  line := statement.sourceLine
  raw := string (.str statement.raw) []
  operands := statement.operands

def Source.site (source : Source) (fields : Fields) : Site :=
  ⟨fields, source.line, source.stmtId⟩

/-- The place of a statement, as its comment shows it. -/
def Source.place (source : Source) : Text :=
  '[' :: source.stmtId ++ " line ".toList ++ intText source.line ++ [']']

/-- The comment in front of what is emitted for a statement. -/
def headComment (operation : Text) (source : Source) : JavaLine :=
  .comment (operation ++ ' ' :: source.place ++ ' ' :: escapeComment source.raw)

def paragraphComment (source : Source) : JavaLine :=
  .comment ("paragraph ".toList ++ operand source.operands "name" [] ++ ' ' :: source.place)

/-- `assumptionRecordCall` with the severity of all its calls. -/
def assumptionRecordCall (site : Site) (description : Text) : JavaLine :=
  .statement ("assumptionRegistry.record(\"".toList ++ escapeJavaString site.stmtId ++
    "\", \"".toList ++ escapeJavaString site.stmtId ++ "\", Severity.WARN, \"".toList ++
    escapeJavaString description ++ "\");".toList)

variable (u : UnicodeData) (site : Site)

def renderDisplayFragment (token : Text) : Emits Text := do
  if isQuoted token then
    return javaStringLiteral (unquote token)
  match ← fieldReference u site token with
  | some field => return field.accessor ++ ".displayValue()".toList
  | none =>
      if isNumericLiteral token then
        return javaStringLiteral token
      site.note "display-unknown-token" ("DISPLAY token '".toList ++ token ++
        "' is not a declared field".toList)
      return javaStringLiteral token

def emitDisplay (operands : ObjectMap) : Emits (List JavaLine) := do
  let items := listOrEmpty (get "items".toList operands)
  if items.isEmpty then
    site.note "display-no-items" "DISPLAY had no operands.items".toList
    return [assumptionRecordCall site "DISPLAY statement had no operands.items".toList]
  let tokens := (items.map fun token => if token.isNull then [] else trim token.toText).filter
    fun text => !text.isEmpty
  let fragments ← tokens.mapM (renderDisplayFragment u site)
  if fragments.isEmpty then
    return [assumptionRecordCall site "DISPLAY items contained no non-empty tokens".toList]
  return [.statement ("System.out.println(new StringBuilder()".toList ++
    fragments.flatMap (fun fragment => ".append(".toList ++ fragment ++ [')']) ++
    ".toString());".toList)]

/-- One target of a `MOVE`. -/
def emitMoveTo (source : Text) (targetObject : Value) : Emits (List JavaLine) := do
  let targetName := if targetObject.isNull then [] else trim targetObject.toText
  match ← fieldReference u site targetName with
  | none => return []
  | some target =>
      if isQuoted source then
        return [.statement (target.accessor ++ ".moveLiteral(".toList ++
          javaStringLiteral (unquote source) ++ ");".toList)]
      if isNumericLiteral source then
        return [.statement (target.accessor ++ ".setNumericValue(".toList ++
          decimalLiteral source ++ ");".toList)]
      match ← fieldReference u site source with
      | none =>
          site.note "move-unknown-source" ("MOVE source '".toList ++ source ++
            "' is not a declared field".toList)
          return [assumptionRecordCall site ("MOVE source not declared as field: ".toList ++ source)]
      | some sourceField =>
          return [.statement (target.accessor ++ ".moveFrom(".toList ++ sourceField.accessor ++
            ");".toList)]

def emitMove (operands : ObjectMap) : Emits (List JavaLine) := do
  let source := trim (operand operands "source" [])
  let targets := listOrEmpty (get "targets".toList operands)
  if source.isEmpty || targets.isEmpty then
    site.note "move-incomplete" "MOVE missing operands.source or operands.targets".toList
    return [assumptionRecordCall site "MOVE statement missing source/targets in IR operands".toList]
  let lines ← targets.mapM (emitMoveTo u site source)
  return lines.flatten

/-- An assignment of a numeric expression. -/
def assignNumeric (accessor expression : Text) : JavaLine :=
  .statement (accessor ++ ".setNumericValue(".toList ++ expression ++ ");".toList)

def emitCompute (operands : ObjectMap) : Emits (List JavaLine) := do
  let expression := operand operands "expression" []
  match ← fieldReference u site (operand operands "target" []) with
  | some target =>
      if !isBlank expression then
        return [assignNumeric target.accessor (← numericExpression u site expression)]
  | none => pure ()
  site.note "compute-incomplete" "COMPUTE missing target or expression".toList
  return [assumptionRecordCall site
    "COMPUTE statement missing target/expression in IR operands".toList]

/-- One target of an `ADD` or a `SUBTRACT`. -/
def emitAccumulateInto (method : String) (sources : List Text) (targetName : Text) :
    Emits (List JavaLine) := do
  match ← fieldReference u site targetName with
  | none => return []
  | some target =>
      let operands ← sources.mapM (numericExpression u site)
      return [assignNumeric target.accessor (target.accessor ++ ".numericValue()".toList ++
        operands.flatMap fun operand => '.' :: method.toList ++ '(' :: operand ++ [')'])]

def emitAccumulatorArithmetic (method : String) (sources targets : List Text) :
    Emits (List JavaLine) := do
  let upper := u.toUpperCase method.toList
  if sources.isEmpty || targets.isEmpty then
    note site.line (method ++ "-incomplete") (upper ++ " missing sources or targets (".toList ++
      site.stmtId ++ [')'])
    return [assumptionRecordCall site
      (upper ++ " statement missing sources/targets in IR operands".toList)]
  let lines ← targets.mapM (emitAccumulateInto u site method sources)
  return lines.flatten

def addSourcesFromTokens (operands : ObjectMap) : List Text :=
  let tokens := tokenStrings (get "tokens".toList operands)
  let toIndex := tokenIndex "TO".toList tokens
  if 1 < toIndex then subList tokens 1 toIndex else []

def addTargetsFromTokens (operands : ObjectMap) : List Text :=
  let tokens := tokenStrings (get "tokens".toList operands)
  let toIndex := tokenIndex "TO".toList tokens
  if 0 < toIndex ∧ toIndex + 1 < tokens.length then subList tokens (toIndex + 1) tokens.length
  else []

def emitAdd (operands : ObjectMap) : Emits (List JavaLine) :=
  let sources := operandStrings operands "sources" "source"
  let targets := operandStrings operands "targets" "target"
  if sources.isEmpty || targets.isEmpty then
    emitAccumulatorArithmetic u site "add" (addSourcesFromTokens operands)
      (addTargetsFromTokens operands)
  else emitAccumulatorArithmetic u site "add" sources targets

def emitSubtract (operands : ObjectMap) : Emits (List JavaLine) :=
  let sources := operandStrings operands "sources" "source"
  let targets := operandStrings operands "targets" "target"
  let tokens := tokenStrings (get "tokens".toList operands)
  let fromIndex := tokenIndex "FROM".toList tokens
  if (sources.isEmpty || targets.isEmpty) && 1 < fromIndex && fromIndex + 1 < tokens.length then
    emitAccumulatorArithmetic u site "subtract" (subList tokens 1 fromIndex)
      (subList tokens (fromIndex + 1) tokens.length)
  else emitAccumulatorArithmetic u site "subtract" sources targets

def emitMultiply (operands : ObjectMap) : Emits (List JavaLine) := do
  let source := operand operands "source" []
  let by_ := operand operands "by" []
  match ← fieldReference u site (operand operands "target" by_) with
  | some target =>
      if !isBlank source && !isBlank by_ then
        let left ← numericExpression u site by_
        let right ← numericExpression u site source
        return [assignNumeric target.accessor (left ++ ".multiply(".toList ++ right ++ [')'])]
  | none => pure ()
  site.note "multiply-incomplete" "MULTIPLY missing source/by/target".toList
  return [assumptionRecordCall site
    "MULTIPLY statement missing source/by/target in IR operands".toList]

def emitDivide (operands : ObjectMap) : Emits (List JavaLine) := do
  let dividend := operand operands "dividend" []
  let divisor := operand operands "divisor" []
  match ← fieldReference u site (operand operands "target" dividend) with
  | some target =>
      if !isBlank dividend && !isBlank divisor then
        let left ← numericExpression u site dividend
        let right ← numericExpression u site divisor
        return [assignNumeric target.accessor (left ++ ".divide(".toList ++ right ++ [')'])]
  | none => pure ()
  site.note "divide-incomplete" "DIVIDE missing dividend/divisor/target".toList
  return [assumptionRecordCall site
    "DIVIDE statement missing dividend/divisor/target in IR operands".toList]

def emitUnsupported (operation raw : Text) : Emits (List JavaLine) := do
  let description := "W0 generator does not translate '".toList ++ operation ++
    "' deterministically; recorded as open assumption".toList
  note site.line "unsupported-statement"
    (description ++ " (".toList ++ site.stmtId ++ "): ".toList ++ raw)
  return [assumptionRecordCall site description]

/-- Comments and statements, the lines of a leaf statement. -/
def IsPlain (line : JavaLine) : Prop :=
  (∃ text, line = .comment text) ∨ ∃ code, line = .statement code

def PlainLines (emits : Emits (List JavaLine)) : Prop :=
  ∀ line ∈ emits.value, IsPlain line

section Plain

theorem plain_nil : PlainLines (pure []) := by
  rintro _ ⟨⟩

theorem plain_statement (code : Text) : PlainLines (pure [.statement code]) := by
  intro line hline
  exact .inr ⟨code, List.mem_singleton.mp hline⟩

theorem plain_bind {α : Type} {x : Emits α} {f : α → Emits (List JavaLine)}
    (h : ∀ a, PlainLines (f a)) : PlainLines (x >>= f) :=
  h x.value

theorem plain_flatten {α : Type} {f : α → Emits (List JavaLine)} (xs : List α)
    (h : ∀ a, PlainLines (f a)) :
    PlainLines (xs.mapM f >>= fun lines => pure lines.flatten) := by
  intro line hline
  rw [value_bind, value_pure, value_mapM] at hline
  obtain ⟨lines, hlines, hline⟩ := List.mem_flatten.mp hline
  obtain ⟨a, -, rfl⟩ := List.mem_map.mp hlines
  exact h a line hline

theorem plain_emitDisplay (operands : ObjectMap) : PlainLines (emitDisplay u site operands) := by
  unfold emitDisplay
  dsimp only
  split
  · exact plain_bind fun _ => plain_statement _
  · apply plain_bind
    intro fragments
    split
    · exact plain_statement _
    · exact plain_statement _

theorem plain_emitMoveTo (source : Text) (target : Value) :
    PlainLines (emitMoveTo u site source target) := by
  unfold emitMoveTo
  dsimp only
  apply plain_bind
  intro reference
  split
  · exact plain_nil
  · split
    · exact plain_statement _
    · split
      · exact plain_statement _
      · apply plain_bind
        intro field
        split
        · exact plain_bind fun _ => plain_statement _
        · exact plain_statement _

theorem plain_emitMove (operands : ObjectMap) : PlainLines (emitMove u site operands) := by
  unfold emitMove
  dsimp only
  split
  · exact plain_bind fun _ => plain_statement _
  · exact plain_flatten _ (plain_emitMoveTo u site _)

theorem plain_emitCompute (operands : ObjectMap) : PlainLines (emitCompute u site operands) := by
  unfold emitCompute
  dsimp only
  apply plain_bind
  intro reference
  split
  · split
    · exact plain_bind fun _ => plain_statement _
    · exact plain_bind fun _ => plain_statement _
  · exact plain_bind fun _ => plain_statement _

theorem plain_emitAccumulateInto (method : String) (sources : List Text) (target : Text) :
    PlainLines (emitAccumulateInto u site method sources target) := by
  unfold emitAccumulateInto
  apply plain_bind
  intro reference
  split
  · exact plain_nil
  · exact plain_bind fun _ => plain_statement _

theorem plain_emitAccumulatorArithmetic (method : String) (sources targets : List Text) :
    PlainLines (emitAccumulatorArithmetic u site method sources targets) := by
  unfold emitAccumulatorArithmetic
  dsimp only
  split
  · exact plain_bind fun _ => plain_statement _
  · exact plain_flatten _ (plain_emitAccumulateInto u site method sources)

theorem plain_emitAdd (operands : ObjectMap) : PlainLines (emitAdd u site operands) := by
  unfold emitAdd
  dsimp only
  split
  · exact plain_emitAccumulatorArithmetic u site _ _ _
  · exact plain_emitAccumulatorArithmetic u site _ _ _

theorem plain_emitSubtract (operands : ObjectMap) : PlainLines (emitSubtract u site operands) := by
  unfold emitSubtract
  dsimp only
  split
  · exact plain_emitAccumulatorArithmetic u site _ _ _
  · exact plain_emitAccumulatorArithmetic u site _ _ _

theorem plain_emitMultiply (operands : ObjectMap) : PlainLines (emitMultiply u site operands) := by
  unfold emitMultiply
  dsimp only
  apply plain_bind
  intro reference
  split
  · split
    · exact plain_bind fun _ => plain_bind fun _ => plain_statement _
    · exact plain_bind fun _ => plain_statement _
  · exact plain_bind fun _ => plain_statement _

theorem plain_emitDivide (operands : ObjectMap) : PlainLines (emitDivide u site operands) := by
  unfold emitDivide
  dsimp only
  apply plain_bind
  intro reference
  split
  · split
    · exact plain_bind fun _ => plain_bind fun _ => plain_statement _
    · exact plain_bind fun _ => plain_statement _
  · exact plain_bind fun _ => plain_statement _

theorem plain_emitUnsupported (operation raw : Text) :
    PlainLines (emitUnsupported site operation raw) :=
  plain_statement _

end Plain

end C2c.TargetJava.LeafStatements
