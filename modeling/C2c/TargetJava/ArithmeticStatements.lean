import C2c.TargetJava.ExpressionMeaning
import C2c.TargetJava.Generation

/-!
The arithmetic statements of a program, and what running the lines generated for
them does to the fields.
-/

namespace C2c.TargetJava.ArithmeticStatements

open C2c.Library.BigDecimal (DigitData)
open C2c.Library.JavaText
open C2c.Library.JavaObject
open C2c.Runtime
open C2c.SemanticIr.Statements
open C2c.TargetJava.Literals
open C2c.TargetJava.References
open C2c.TargetJava.Expressions
open C2c.TargetJava.LeafStatements
open C2c.TargetJava.Generation
open C2c.TargetJava.JavaNumbers
open C2c.TargetJava.WrittenReferences
open C2c.TargetJava.WrittenExpressions
open C2c.TargetJava.ExpressionMeaning

section Assigning

def assignItem (memory : Memory) (name : Text) (item : Item) : Memory := fun asked =>
  if asked = name then some item else memory asked

/-- Another element in a table; an element keeps its picture. -/
def putElement (memory : Memory) (name : Text) (oneBasedIndex : Int) (field : CobolField) :
    Except Fault Memory := do
  let array ← arrayNamed memory name
  if h : field.picture = array.picture then
    return assignItem memory name (.array (array.replace oneBasedIndex field h))
  else throw .undeclared

/-- Another field at a place. -/
def put (memory : Memory) (field : CobolField) : Place → Except Fault Memory
  | .scalar name => .ok (assignItem memory name (.field field))
  | .constant name index => putElement memory name index field
  | .element name index => do
      let inner ← index.locate memory
      let oneBasedIndex ← throwing inner.intValueExact
      putElement memory name oneBasedIndex field

/-- A field behind a call of `setNumericValue`. -/
def stored (field : CobolField) (value : CobolDecimal) : Except Fault CobolField :=
  match CobolField.setNumericValue value field with
  | .ok _ later => .ok later
  | .error e _ => .error (.thrown e)

/-- The field is found before its new value is computed. -/
def assign (memory : Memory) (target : Place) (value : Except Fault CobolDecimal) :
    Except Fault Memory := do
  let field ← target.locate memory
  let value ← value
  let later ← stored field value
  put memory later target

end Assigning

section Java

/-- A statement `target.setNumericValue(value);`. -/
structure Assignment where
  target : Place
  value : Number

def setText : Text :=
  '.' :: 's' :: "etNumericValue(".toList

def Assignment.text (assignment : Assignment) : Text :=
  assignment.target.text ++ (setText ++ (assignment.value.text ++ [')', ';']))

def Assignment.run (d : DigitData) (memory : Memory) (assignment : Assignment) :
    Except Fault Memory :=
  assign memory assignment.target (assignment.value.eval d memory)

def readAssignment (t : Text) : Option Assignment := do
  let (target, rest) ← readPlace (t.length + 1) t
  let rest ← expect setText rest
  let (value, rest) ← readFrom (rest.length + 1) rest
  if rest = [')', ';'] then some ⟨target, value⟩ else none

/-- Runs plain lines; `none` where a line is no assignment. -/
def execute (d : DigitData) : List JavaLine → Memory → Option (Except Fault Memory)
  | [], memory => some (.ok memory)
  | .comment _ :: lines, memory => execute d lines memory
  | .statement code :: lines, memory =>
      match readAssignment code with
      | none => none
      | some assignment =>
          match assignment.run d memory with
          | .error fault => some (.error fault)
          | .ok later => execute d lines later
  | _ :: _, _ => none

theorem endsPlace_set (t : Text) : EndsPlace (setText ++ t) :=
  ⟨rfl, fun _ hc => Option.some.inj hc ▸ rfl⟩

theorem readAssignment_text {assignment : Assignment} (htarget : assignment.target.Named)
    (hvalue : assignment.value.Readable) : readAssignment assignment.text = some assignment := by
  obtain ⟨target, value⟩ := assignment
  have hdepth : target.depth ≤ (Assignment.text ⟨target, value⟩).length + 1 := by
    refine target.depth_le.trans ?_
    simp [Assignment.text]
  have hplace := readPlace_text htarget (endsPlace_set (value.text ++ [')', ';'])) hdepth
  have hsize : value.size ≤ (value.text ++ [')', ';']).length := by
    refine value.size_le.trans ?_
    simp
  have hclose : readMethod [')', ';'] = none := by
    apply readMethod_of_head
    rintro c hc rfl
    cases hc
  have hnumber := readFrom_text hvalue hsize [')', ';']
  rw [readCalls_of_none hclose] at hnumber
  unfold readAssignment
  rw [show (Assignment.text ⟨target, value⟩) = target.text ++ (setText ++ (value.text ++ [')', ';']))
    from rfl] at hplace ⊢
  rw [hplace]
  simp only [Option.bind_eq_bind, Option.bind_some, expect_append, hnumber, if_true]

end Java

section Cobol

/-- The arithmetic statements of COBOL. -/
inductive Statement
  | compute (target : Place) (value : Expression)
  | accumulate (method : Method) (sources : List Expression) (targets : List Place)
  | multiply (source by_ : Expression) (target : Place)
  | divide (dividend divisor : Expression) (target : Place)

/-- A target with the sources added to it, or subtracted from it. -/
def accumulated (method : Method) (sources : List Expression) (target : Place) : Expression :=
  sources.foldl (.apply method) (.reference target)

/-- The assignments a statement stands for, in their order. -/
def Statement.assignments : Statement → List (Place × Expression)
  | .compute target value => [(target, value)]
  | .accumulate method sources targets =>
      targets.map fun target => (target, accumulated method sources target)
  | .multiply source by_ target => [(target, .apply .multiply by_ source)]
  | .divide dividend divisor target => [(target, .apply .divide dividend divisor)]

def performAll : List (Place × Expression) → Memory → Except Fault Memory
  | [], store => .ok store
  | (target, value) :: assignments, store => do
      let later ← assign store target (value.eval store)
      performAll assignments later

def Statement.Declared (fields : Fields) : Statement → Prop
  | .compute target value =>
      WrittenReferences.Declared fields target ∧ value.Declared fields
  | .accumulate _ sources targets =>
      (∀ source ∈ sources, source.Declared fields) ∧
        ∀ target ∈ targets, WrittenReferences.Declared fields target
  | .multiply source by_ target =>
      source.Declared fields ∧ by_.Declared fields ∧ WrittenReferences.Declared fields target
  | .divide dividend divisor target =>
      dividend.Declared fields ∧ divisor.Declared fields ∧
        WrittenReferences.Declared fields target

/-- The operands of the IR that write a statement. -/
inductive Encodes (operands : ObjectMap) : Operation → Statement → Prop
  | compute {target : Place} {value : Expression}
      (htarget : Written target (operand operands "target" []))
      (hvalue : Writes value (operand operands "expression" [])) :
      Encodes operands .compute (.compute target value)
  | add {sources : List Expression} {targets : List Place}
      (hsources : List.Forall₂ Writes sources (operandStrings operands "sources" "source"))
      (htargets : List.Forall₂ Written targets (operandStrings operands "targets" "target"))
      (hfilled : sources ≠ [] ∧ targets ≠ []) :
      Encodes operands .add (.accumulate .add sources targets)
  | subtract {sources : List Expression} {targets : List Place}
      (hsources : List.Forall₂ Writes sources (operandStrings operands "sources" "source"))
      (htargets : List.Forall₂ Written targets (operandStrings operands "targets" "target"))
      (hfilled : sources ≠ [] ∧ targets ≠ []) :
      Encodes operands .subtract (.accumulate .subtract sources targets)
  | multiply {source by_ : Expression} {target : Place}
      (hsource : Writes source (operand operands "source" []))
      (hby : Writes by_ (operand operands "by" []))
      (htarget : Written target (operand operands "target" (operand operands "by" []))) :
      Encodes operands .multiply (.multiply source by_ target)
  | divide {dividend divisor : Expression} {target : Place}
      (hdividend : Writes dividend (operand operands "dividend" []))
      (hdivisor : Writes divisor (operand operands "divisor" []))
      (htarget : Written target (operand operands "target" (operand operands "dividend" []))) :
      Encodes operands .divide (.divide dividend divisor target)

end Cobol

section Simulation

variable {fields : Fields} {memory store : Memory}

/-- Different fields have different variables. -/
def VariablesApart (fields : Fields) : Prop :=
  ∀ name name' field field', fields.get name = some field → fields.get name' = some field' →
    field.fieldVar = field'.fieldVar → name = name'

/-- Both fail alike, or the variables still hold what the fields hold. -/
def Agree (fields : Fields) : Except Fault Memory → Except Fault Memory → Prop
  | .ok memory, .ok store => Represents fields memory store
  | .error fault, .error fault' => fault = fault'
  | _, _ => False

theorem agree_bind {A : Type} {x : Except Fault A} {f g : A → Except Fault Memory}
    (h : ∀ a, x = .ok a → Agree fields (f a) (g a)) : Agree fields (x >>= f) (x >>= g) := by
  cases x with
  | error fault => exact rfl
  | ok a => exact h a rfl

theorem represents_assignItem (happart : VariablesApart fields)
    (hrepresents : Represents fields memory store) {name : Text} {field : FieldEmission}
    (hget : fields.get name = some field) (item : Item) :
    Represents fields (assignItem memory (variableOf fields name) item)
      (assignItem store name item) := by
  intro name' field' hget'
  have hvariable : variableOf fields name = field.fieldVar := by rw [variableOf, hget]
  rw [assignItem, assignItem, hvariable]
  by_cases hname : name' = name
  · subst hname
    obtain rfl := Option.some.inj (hget.symm.trans hget')
    rw [if_pos rfl, if_pos rfl]
  · have hne : field'.fieldVar ≠ field.fieldVar := fun heq =>
      hname (happart _ _ _ _ hget' hget heq)
    rw [if_neg hne, if_neg hname]
    exact hrepresents name' field' hget'

theorem agree_putElement (happart : VariablesApart fields)
    (hrepresents : Represents fields memory store) {name : Text} {emission : FieldEmission}
    (hget : fields.get name = some emission) (oneBasedIndex : Int) (field : CobolField) :
    Agree fields (putElement memory (variableOf fields name) oneBasedIndex field)
      (putElement store name oneBasedIndex field) := by
  rw [putElement, putElement, (fieldNamed_variableOf hrepresents hget).2]
  apply agree_bind
  intro array _
  split
  · exact represents_assignItem happart hrepresents hget _
  · exact rfl

theorem agree_put (happart : VariablesApart fields) (hrepresents : Represents fields memory store)
    {target : Place} (hdeclared : WrittenReferences.Declared fields target) (field : CobolField) :
    Agree fields (put memory field (inJava fields target)) (put store field target) := by
  cases target with
  | scalar name =>
      obtain ⟨emission, hget, -⟩ := hdeclared
      exact represents_assignItem happart hrepresents hget _
  | constant name index =>
      obtain ⟨⟨emission, hget, -⟩, -⟩ := hdeclared
      exact agree_putElement happart hrepresents hget _ _
  | element name index =>
      obtain ⟨⟨emission, hget, -⟩, hindex⟩ := hdeclared
      rw [inJava, put, put, locate_inJava hrepresents hindex]
      exact agree_bind fun _ _ => agree_bind fun _ _ =>
        agree_putElement happart hrepresents hget _ _

/-- An assignment to a declared place does alike to the fields and the variables. -/
theorem agree_assign (happart : VariablesApart fields)
    (hrepresents : Represents fields memory store) {target : Place}
    (hdeclared : WrittenReferences.Declared fields target) (value : Except Fault CobolDecimal) :
    Agree fields (assign memory (inJava fields target) value) (assign store target value) := by
  rw [assign, assign, locate_inJava hrepresents hdeclared]
  exact agree_bind fun _ _ => agree_bind fun _ _ => agree_bind fun _ _ =>
    agree_put happart hrepresents hdeclared _

/-- The statement of the generated class for an assignment. -/
def javaAssignment (fields : Fields) (assignment : Place × Expression) : Assignment :=
  ⟨inJava fields assignment.1, javaNumber fields assignment.2⟩

def AssignmentDeclared (fields : Fields) (assignment : Place × Expression) : Prop :=
  WrittenReferences.Declared fields assignment.1 ∧ assignment.2.Declared fields

/-- The lines of a run of assignments, with comments between them. -/
inductive Lines (fields : Fields) : List JavaLine → List (Place × Expression) → Prop
  | nil : Lines fields [] []
  | comment {lines : List JavaLine} {assignments : List (Place × Expression)} (text : Text)
      (h : Lines fields lines assignments) : Lines fields (.comment text :: lines) assignments
  | assignment {lines : List JavaLine} {assignments : List (Place × Expression)}
      (a : Place × Expression) (h : Lines fields lines assignments) :
      Lines fields (.statement (javaAssignment fields a).text :: lines) (a :: assignments)

theorem Lines.append {lines behind : List JavaLine}
    {assignments rest : List (Place × Expression)} (h : Lines fields lines assignments)
    (hrest : Lines fields behind rest) : Lines fields (lines ++ behind) (assignments ++ rest) := by
  induction h with
  | nil => exact hrest
  | comment text h ih => exact .comment text ih
  | assignment a h ih => exact .assignment a ih

/-- The statement for an assignment is read as it is, and does to the variables what
the assignment does to the fields. -/
theorem run_javaAssignment (d : DigitData) (hvariables : VariablesNamed fields)
    (happart : VariablesApart fields) {a : Place × Expression}
    (hdeclared : AssignmentDeclared fields a) (hrepresents : Represents fields memory store) :
    readAssignment (javaAssignment fields a).text = some (javaAssignment fields a) ∧
      Agree fields ((javaAssignment fields a).run d memory)
        (assign store a.1 (a.2.eval store)) := by
  obtain ⟨htarget, hvalue⟩ := hdeclared
  refine ⟨@readAssignment_text (javaAssignment fields a) (named_inJava hvariables htarget)
    (readable_javaNumber hvariables hvalue), ?_⟩
  rw [Assignment.run, javaAssignment, eval_javaNumber d hrepresents hvalue]
  exact agree_assign happart hrepresents htarget _

/-- Running the lines does to the variables what the assignments do to the fields. -/
theorem execute_lines (d : DigitData) (hvariables : VariablesNamed fields)
    (happart : VariablesApart fields) {lines : List JavaLine}
    {assignments : List (Place × Expression)} (hlines : Lines fields lines assignments)
    (hdeclared : ∀ a ∈ assignments, AssignmentDeclared fields a)
    (hrepresents : Represents fields memory store) :
    ∃ result, execute d lines memory = some result ∧
      Agree fields result (performAll assignments store) := by
  induction hlines generalizing memory store with
  | nil => exact ⟨.ok memory, rfl, hrepresents⟩
  | comment text h ih => exact ih hdeclared hrepresents
  | @assignment lines assignments a h ih =>
      obtain ⟨hread, hrun⟩ := run_javaAssignment d hvariables happart
        (hdeclared a List.mem_cons_self) hrepresents
      rw [execute, hread, performAll]
      dsimp only
      generalize (javaAssignment fields a).run d memory = x at hrun ⊢
      generalize assign store a.1 (a.2.eval store) = y at hrun ⊢
      match x, y, hrun with
      | .error fault, .error _, hfault => exact ⟨.error fault, rfl, hfault⟩
      | .ok later, .ok laterStore, hlater =>
          exact ih (fun b hb => hdeclared b (List.mem_cons_of_mem _ hb)) hlater

end Simulation

section Emission

variable (u : UnicodeData) {fields : Fields}

theorem fieldReference_written {site : Site} {place : Place} {t : Text}
    (hwritten : Written place t) (hdeclared : WrittenReferences.Declared site.fields place) :
    ∃ field, fieldReference u site t = pure (some ⟨field, (inJava site.fields place).text⟩) := by
  obtain ⟨field, -, hreference⟩ :=
    fieldReferenceWithin_written u hwritten hdeclared (Written.depth_le hwritten)
  exact ⟨field, hreference⟩

theorem assignNumeric_text (target : Place) (value : Number) :
    assignNumeric target.text value.text = .statement (Assignment.text ⟨target, value⟩) := by
  have hset : ".setNumericValue(".toList = setText := by
    unfold setText
    simp only [String.reduceToList]
  have hclose : ");".toList = [')', ';'] := rfl
  rw [assignNumeric, Assignment.text, hset, hclose, List.append_assoc, List.append_assoc]

/-- The text of a chain of calls behind a receiver. -/
theorem text_foldl (method : Method) (start : Number) (arguments : List Number) :
    (arguments.foldl (.apply method) start).text =
      start.text ++ arguments.flatMap fun argument => method.text ++ argument.text ++ [')'] := by
  induction arguments generalizing start with
  | nil => simp
  | cons argument arguments ih =>
      rw [List.foldl_cons, ih, Number.text, List.flatMap_cons]
      simp only [List.append_assoc]

theorem javaNumber_accumulated (method : Method) (sources : List Expression) (target : Place) :
    javaNumber fields (accumulated method sources target) =
      (sources.map (javaNumber fields)).foldl (.apply method) (.value (inJava fields target)) := by
  have hfold (start : Expression) : javaNumber fields (sources.foldl (.apply method) start) =
      (sources.map (javaNumber fields)).foldl (.apply method) (javaNumber fields start) := by
    induction sources generalizing start with
    | nil => rfl
    | cons source sources ih => exact ih _
  exact hfold _

theorem declared_accumulated {method : Method} {sources : List Expression} {target : Place}
    (hsources : ∀ source ∈ sources, source.Declared fields)
    (htarget : WrittenReferences.Declared fields target) :
    (accumulated method sources target).Declared fields := by
  have hfold (start : Expression) (hstart : start.Declared fields) :
      (sources.foldl (.apply method) start).Declared fields := by
    induction sources generalizing start with
    | nil => exact hstart
    | cons source sources ih =>
        exact ih (fun e he => hsources e (List.mem_cons_of_mem _ he)) _
          ⟨hstart, hsources source List.mem_cons_self⟩
  exact hfold _ htarget

theorem Statement.assignments_declared {statement : Statement} (h : statement.Declared fields) :
    ∀ a ∈ statement.assignments, AssignmentDeclared fields a := by
  intro a ha
  cases statement with
  | compute target value =>
      obtain rfl := List.mem_singleton.mp ha
      exact h
  | accumulate method sources targets =>
      obtain ⟨target, htarget, rfl⟩ := List.mem_map.mp ha
      exact ⟨h.2 target htarget, declared_accumulated h.1 (h.2 target htarget)⟩
  | multiply source by_ target =>
      obtain rfl := List.mem_singleton.mp ha
      exact ⟨h.2.2, h.2.1, h.1⟩
  | divide dividend divisor target =>
      obtain rfl := List.mem_singleton.mp ha
      exact ⟨h.2.2, h.1, h.2.1⟩

variable {site : Site}

theorem forall₂_isEmpty {A B : Type} {R : A → B → Prop} {xs : List A} {ys : List B}
    (h : List.Forall₂ R xs ys) (hne : xs ≠ []) : ys.isEmpty = false := by
  cases h with
  | nil => exact absurd rfl hne
  | cons _ _ => rfl

theorem mapM_numericExpression {sources : List Expression} {texts : List Text}
    (hsources : List.Forall₂ Writes sources texts)
    (hdeclared : ∀ source ∈ sources, source.Declared site.fields) :
    texts.mapM (numericExpression u site) =
      pure (sources.map fun source => (javaNumber site.fields source).text) := by
  induction hsources with
  | nil => rfl
  | cons hwrites hrest ih =>
      rw [List.mapM_cons, numericExpression_writes u hwrites (hdeclared _ List.mem_cons_self),
        ih fun e he => hdeclared e (List.mem_cons_of_mem _ he)]
      rfl

/-- The name of a method of an accumulation, as the generator passes it. -/
structure Accumulates (method : Method) (name : String) : Prop where
  call : ∀ t : Text, '.' :: name.toList ++ '(' :: t ++ [')'] = method.text ++ t ++ [')']

theorem accumulates_add : Accumulates .add "add" :=
  ⟨fun _ => rfl⟩

theorem accumulates_subtract : Accumulates .subtract "subtract" :=
  ⟨fun _ => rfl⟩

theorem emitAccumulateInto_written {method : Method} {name : String}
    (hname : Accumulates method name) {sources : List Expression} {texts : List Text}
    (hsources : List.Forall₂ Writes sources texts)
    (hdeclared : ∀ source ∈ sources, source.Declared site.fields) {target : Place} {t : Text}
    (hwritten : Written target t) (htarget : WrittenReferences.Declared site.fields target) :
    emitAccumulateInto u site name texts t = pure [.statement
      (javaAssignment site.fields (target, accumulated method sources target)).text] := by
  obtain ⟨field, hreference⟩ := fieldReference_written u hwritten htarget
  have hvalue : ".numericValue()".toList = numericValueText := by
    unfold numericValueText
    simp only [String.reduceToList]
  have htext : (inJava site.fields target).text ++ numericValueText ++
      (sources.map fun source => (javaNumber site.fields source).text).flatMap
        (fun operand => '.' :: name.toList ++ '(' :: operand ++ [')']) =
      (javaNumber site.fields (accumulated method sources target)).text := by
    rw [javaNumber_accumulated, text_foldl, Number.text, List.flatMap_map, List.flatMap_map]
    simp only [hname.call]
  unfold emitAccumulateInto
  rw [hreference, pure_bind]
  dsimp only
  rw [mapM_numericExpression u hsources hdeclared, pure_bind, hvalue, htext, assignNumeric_text]
  rfl

/-- An accumulation emits one assignment for each target. -/
theorem emitAccumulatorArithmetic_written {method : Method} {name : String}
    (hname : Accumulates method name) {sources : List Expression} {texts : List Text}
    (hsources : List.Forall₂ Writes sources texts)
    (hdeclared : ∀ source ∈ sources, source.Declared site.fields) {targets : List Place}
    {names : List Text} (htargets : List.Forall₂ Written targets names)
    (htargetsDeclared : ∀ target ∈ targets, WrittenReferences.Declared site.fields target)
    (hfilled : sources ≠ [] ∧ targets ≠ []) :
    emitAccumulatorArithmetic u site name texts names =
      pure ((Statement.accumulate method sources targets).assignments.map fun a =>
        .statement (javaAssignment site.fields a).text) := by
  have hmap : names.mapM (emitAccumulateInto u site name texts) = pure (targets.map fun target =>
      [.statement (javaAssignment site.fields (target, accumulated method sources target)).text]) := by
    clear hfilled
    induction htargets with
    | nil => rfl
    | cons hwritten hrest ih =>
        rw [List.mapM_cons, emitAccumulateInto_written u hname hsources hdeclared hwritten
          (htargetsDeclared _ List.mem_cons_self),
          ih fun target hmem => htargetsDeclared target (List.mem_cons_of_mem _ hmem)]
        rfl
  unfold emitAccumulatorArithmetic
  dsimp only
  rw [forall₂_isEmpty hsources hfilled.1, forall₂_isEmpty htargets hfilled.2, if_neg (by decide),
    hmap, pure_bind, Statement.assignments, List.map_map]
  rw [← List.flatMap_def]
  exact congrArg pure (List.flatMap_pure_eq_map _ _)

variable {operands : ObjectMap}

theorem emitCompute_written {target : Place} {value : Expression}
    (htarget : Written target (operand operands "target" []))
    (hvalue : Writes value (operand operands "expression" []))
    (hdeclared : (Statement.compute target value).Declared site.fields) :
    emitCompute u site operands =
      pure [.statement (javaAssignment site.fields (target, value)).text] := by
  obtain ⟨field, hreference⟩ := fieldReference_written u htarget hdeclared.1
  unfold emitCompute
  rw [hreference, pure_bind]
  dsimp only
  rw [isBlank_of_writes hvalue, numericExpression_writes u hvalue hdeclared.2]
  exact congrArg (fun line => pure [line]) (assignNumeric_text _ _)

theorem emitMultiply_written {source by_ : Expression} {target : Place}
    (hsource : Writes source (operand operands "source" []))
    (hby : Writes by_ (operand operands "by" []))
    (htarget : Written target (operand operands "target" (operand operands "by" [])))
    (hdeclared : (Statement.multiply source by_ target).Declared site.fields) :
    emitMultiply u site operands = pure [.statement
      (javaAssignment site.fields (target, .apply .multiply by_ source)).text] := by
  obtain ⟨field, hreference⟩ := fieldReference_written u htarget hdeclared.2.2
  unfold emitMultiply
  dsimp only
  rw [hreference, pure_bind]
  dsimp only
  rw [isBlank_of_writes hsource, isBlank_of_writes hby, numericExpression_writes u hby hdeclared.2.1,
    numericExpression_writes u hsource hdeclared.1]
  exact congrArg (fun line => pure [line])
    (assignNumeric_text _ (javaNumber site.fields (.apply .multiply by_ source)))

theorem emitDivide_written {dividend divisor : Expression} {target : Place}
    (hdividend : Writes dividend (operand operands "dividend" []))
    (hdivisor : Writes divisor (operand operands "divisor" []))
    (htarget : Written target (operand operands "target" (operand operands "dividend" [])))
    (hdeclared : (Statement.divide dividend divisor target).Declared site.fields) :
    emitDivide u site operands = pure [.statement
      (javaAssignment site.fields (target, .apply .divide dividend divisor)).text] := by
  obtain ⟨field, hreference⟩ := fieldReference_written u htarget hdeclared.2.2
  unfold emitDivide
  dsimp only
  rw [hreference, pure_bind]
  dsimp only
  rw [isBlank_of_writes hdividend, isBlank_of_writes hdivisor,
    numericExpression_writes u hdividend hdeclared.1, numericExpression_writes u hdivisor hdeclared.2.1]
  exact congrArg (fun line => pure [line])
    (assignNumeric_text _ (javaNumber site.fields (.apply .divide dividend divisor)))

variable {sources : List Expression} {targets : List Place}
  (hsources : List.Forall₂ Writes sources (operandStrings operands "sources" "source"))
  (htargets : List.Forall₂ Written targets (operandStrings operands "targets" "target"))
  (hfilled : sources ≠ [] ∧ targets ≠ [])
include hsources htargets hfilled

theorem emitAdd_written
    (hdeclared : (Statement.accumulate .add sources targets).Declared site.fields) :
    emitAdd u site operands = pure ((Statement.accumulate .add sources targets).assignments.map
      fun a => .statement (javaAssignment site.fields a).text) := by
  have hemit := emitAccumulatorArithmetic_written u accumulates_add hsources hdeclared.1 htargets
    hdeclared.2 hfilled
  unfold emitAdd
  dsimp only
  rw [forall₂_isEmpty hsources hfilled.1, forall₂_isEmpty htargets hfilled.2,
    if_neg (by decide), hemit]

theorem emitSubtract_written
    (hdeclared : (Statement.accumulate .subtract sources targets).Declared site.fields) :
    emitSubtract u site operands =
      pure ((Statement.accumulate .subtract sources targets).assignments.map
        fun a => .statement (javaAssignment site.fields a).text) := by
  have hemit := emitAccumulatorArithmetic_written u accumulates_subtract hsources hdeclared.1
    htargets hdeclared.2 hfilled
  unfold emitSubtract
  dsimp only
  rw [forall₂_isEmpty hsources hfilled.1, forall₂_isEmpty htargets hfilled.2, Bool.or_self,
    Bool.false_and, Bool.false_and, if_neg (by decide), hemit]

omit hsources htargets hfilled

variable {source : Source}

/-- What a statement emits: a comment, and its assignments. -/
theorem leafLines_encodes {operation : Operation} {statement : Statement}
    (h : Encodes source.operands operation statement) (hdeclared : statement.Declared fields) :
    ∃ comment, leafLines u fields source operation = some (pure (.comment comment ::
      statement.assignments.map fun a => .statement (javaAssignment fields a).text)) := by
  have hleaf (operation : String) {emitted : Emits (List JavaLine)} {lines : List JavaLine}
      (hemitted : emitted = pure lines) : ∃ comment,
        some (leafLines.leaf source operation emitted) =
          some (pure (.comment comment :: lines)) := by
    subst hemitted
    exact ⟨_, rfl⟩
  have hsite : statement.Declared (source.site fields).fields := hdeclared
  cases h with
  | compute htarget hvalue => exact hleaf "compute" (emitCompute_written u htarget hvalue hsite)
  | add hsources htargets hfilled =>
      exact hleaf "add" (emitAdd_written u hsources htargets hfilled hsite)
  | subtract hsources htargets hfilled =>
      exact hleaf "subtract" (emitSubtract_written u hsources htargets hfilled hsite)
  | multiply hsource hby htarget =>
      exact hleaf "multiply" (emitMultiply_written u hsource hby htarget hsite)
  | divide hdividend hdivisor htarget =>
      exact hleaf "divide" (emitDivide_written u hdividend hdivisor htarget hsite)

end Emission

section Programs

variable {fields : Fields} {memory store : Memory}

/-- A statement of the IR with the statement it writes. -/
structure EncodedStatement where
  source : Source
  operation : Operation
  statement : Statement
  encodes : Encodes source.operands operation statement

/-- The lines emitted for a run of statements. -/
theorem exists_lines (u : UnicodeData) {program : List EncodedStatement}
    (hdeclared : ∀ s ∈ program, s.statement.Declared fields) :
    ∃ emitted : List (List JavaLine),
      program.map (fun s => leafLines u fields s.source s.operation) =
        emitted.map (fun lines => some (pure lines)) ∧
      Lines fields emitted.flatten (program.flatMap fun s => s.statement.assignments) := by
  induction program with
  | nil => exact ⟨[], rfl, .nil⟩
  | cons s program ih =>
      obtain ⟨emitted, hemitted, hlines⟩ := ih fun t ht => hdeclared t (List.mem_cons_of_mem _ ht)
      obtain ⟨comment, hcomment⟩ := leafLines_encodes u s.encodes (hdeclared s List.mem_cons_self)
      have hstatements (assignments : List (Place × Expression)) : Lines fields
          (assignments.map fun a => .statement (javaAssignment fields a).text) assignments := by
        induction assignments with
        | nil => exact .nil
        | cons a assignments ih => exact .assignment a ih
      refine ⟨(.comment comment :: s.statement.assignments.map fun a =>
        .statement (javaAssignment fields a).text) :: emitted, ?_, ?_⟩
      · rw [List.map_cons, List.map_cons, hcomment, hemitted]
      · rw [List.flatten_cons, List.flatMap_cons]
        exact (Lines.comment comment (hstatements _)).append hlines

/-- Of a run of arithmetic statements nothing is reported, and the lines emitted for
it, run one after the other, do to the variables of the generated class what the
statements do to the fields, or fail as they do. -/
theorem arithmetic_statements_mean (d : DigitData) (u : UnicodeData) {program : List EncodedStatement}
    (hdeclared : ∀ s ∈ program, s.statement.Declared fields) (hvariables : VariablesNamed fields)
    (happart : VariablesApart fields) (hrepresents : Represents fields memory store) :
    ∃ emitted : List (List JavaLine),
      program.map (fun s => leafLines u fields s.source s.operation) =
        emitted.map (fun lines => some (pure lines)) ∧
      ∃ result, execute d emitted.flatten memory = some result ∧
        Agree fields result
          (performAll (program.flatMap fun s => s.statement.assignments) store) := by
  obtain ⟨emitted, hemitted, hlines⟩ := exists_lines u hdeclared
  refine ⟨emitted, hemitted, execute_lines d hvariables happart hlines ?_ hrepresents⟩
  intro a ha
  obtain ⟨s, hs, hmem⟩ := List.mem_flatMap.mp ha
  exact Statement.assignments_declared (hdeclared s hs) a hmem

def operandsOfA : ObjectMap :=
  [("target".toList, .str ['a']), ("expression".toList, .str "2 * (a + 1)".toList)]

theorem encodes_operandsOfA :
    Encodes operandsOfA .compute (.compute (.scalar ['A']) doubledSuccessor) := by
  have htarget : operand operandsOfA "target" [] = ['a'] := by decide
  have hvalue : operand operandsOfA "expression" [] = "2 * (a + 1)".toList := by decide
  have hwritten : Written (.scalar (upper ['a'])) ['a'] := .scalar isDataName_a
  exact .compute (htarget ▸ hwritten) (hvalue ▸ writes_doubledSuccessor)

/-- `COMPUTE A = 2 * (A + 1)`. -/
def computeA : EncodedStatement :=
  ⟨⟨"s1".toList, 1, [], operandsOfA⟩, .compute, .compute (.scalar ['A']) doubledSuccessor,
    encodes_operandsOfA⟩

theorem declared_computeA : computeA.statement.Declared soleField := by
  have htarget : WrittenReferences.Declared soleField (.scalar ['A']) := ⟨_, rfl, rfl⟩
  exact ⟨htarget, declared_doubledSuccessor⟩

theorem variablesApart_soleField : VariablesApart soleField := by
  intro name name' field field' hget hget' _
  rw [(soleField_get hget).1, (soleField_get hget').1]

theorem computeA_means :
    ∃ emitted : List (List JavaLine),
      [computeA].map (fun s => leafLines .ascii soleField s.source s.operation) =
        emitted.map (fun lines => some (pure lines)) ∧
      ∃ result, execute .ascii emitted.flatten (held ['A'] ['a']) = some result ∧
        Agree soleField result
          (performAll ([computeA].flatMap fun s => s.statement.assignments)
            (held ['A'] ['A'])) := by
  have hdeclared : ∀ s ∈ [computeA], s.statement.Declared soleField := by
    intro s hs
    obtain rfl := List.mem_singleton.mp hs
    exact declared_computeA
  exact arithmetic_statements_mean .ascii .ascii hdeclared variablesNamed_soleField
    variablesApart_soleField represents_held

end Programs

end C2c.TargetJava.ArithmeticStatements
