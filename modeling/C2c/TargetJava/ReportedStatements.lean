import C2c.TargetJava.ConfinedTexts

/-!
Which statements the generator answers with Java code or with a diagnostic.
-/

namespace C2c.TargetJava.ReportedStatements

open C2c.Library.JavaText
open C2c.Library.JavaObject
open C2c.CobolParser.Tokens
open C2c.SemanticIr.Statements
open C2c.TargetJava.Literals
open C2c.TargetJava.References
open C2c.TargetJava.Expressions
open C2c.TargetJava.Conditions
open C2c.TargetJava.LeafStatements
open C2c.TargetJava.Generation
open C2c.TargetJava.BlockSteps
open C2c.TargetJava.FieldNames
open C2c.TargetJava.JavaClass
open C2c.TargetJava.Weaving
open C2c.TargetJava.WovenLines
open C2c.TargetJava.ConfinedTexts

/-- The call that records an assumption. -/
def recordCall : Text :=
  "assumptionRegistry.record(".toList

/-- Every line but a comment and the record of an assumption. -/
def isEffect : JavaLine → Bool
  | .comment _ => false
  | .statement code => !startsWith code recordCall
  | _ => true

/-- The message has the id in parentheses. -/
def names (stmtId : Text) (diagnostic : Diagnostic) : Bool :=
  contains diagnostic.message ('(' :: stmtId ++ [')'])

/-- The lines have an effect, or a diagnostic names the statement. -/
def Answers (stmtId : Text) (emits : Emits (List JavaLine)) : Prop :=
  emits.value.any isEffect = true ∨ emits.diagnostics.any (names stmtId) = true

section Answers

variable {α : Type} {stmtId : Text}

theorem answers_bind {x : Emits α} {f : α → Emits (List JavaLine)}
    (h : Answers stmtId (f x.value)) : Answers stmtId (x >>= f) := by
  rcases h with h | h
  · exact .inl h
  · right
    rw [diagnostics_bind, List.any_append, h, Bool.or_true]

theorem answers_of_noted {x : Emits α} (h : x.diagnostics.any (names stmtId) = true)
    (f : α → Emits (List JavaLine)) : Answers stmtId (x >>= f) := by
  right
  rw [diagnostics_bind, List.any_append, h, Bool.true_or]

theorem names_message (line : Int) (code before after : Text) :
    names stmtId ⟨line, code, before ++ '(' :: stmtId ++ ')' :: after⟩ = true := by
  rw [names, contains_iff_infix]
  exact ⟨before, after, by simp⟩

theorem noted_note (site : Site) (code : String) (message : Text) :
    (site.note code message).diagnostics.any (names site.stmtId) = true := by
  have hmessage : message ++ " (".toList ++ site.stmtId ++ [')'] =
      (message ++ [' ']) ++ '(' :: site.stmtId ++ ')' :: [] := by
    simp
  rw [Site.note, note, hmessage, List.any_cons, names_message, Bool.true_or]

theorem diagnostics_map {β : Type} (f : α → β) (x : Emits α) :
    (f <$> x).diagnostics = x.diagnostics :=
  List.append_nil _

theorem diagnostics_mapM {β : Type} (f : α → Emits β) (xs : List α) :
    (xs.mapM f).diagnostics = xs.flatMap fun x => (f x).diagnostics := by
  induction xs with
  | nil => rfl
  | cons x xs ih => simp [List.mapM_cons, diagnostics_map, ih]

/-- Lines of several emissions answer when those of one do. -/
theorem answers_flatten_iff (f : α → Emits (List JavaLine)) (xs : List α) :
    Answers stmtId (xs.mapM f >>= fun lines => pure lines.flatten) ↔
      ∃ x ∈ xs, Answers stmtId (f x) := by
  rw [Answers, value_bind, value_pure, value_mapM, diagnostics_bind, diagnostics_pure,
    List.append_nil, diagnostics_mapM, List.any_flatten, List.any_map, List.any_flatMap,
    List.any_eq_true, List.any_eq_true]
  constructor
  · rintro (⟨x, hx, h⟩ | ⟨x, hx, h⟩)
    · exact ⟨x, hx, .inl h⟩
    · exact ⟨x, hx, .inr h⟩
  · rintro ⟨x, hx, h | h⟩
    · exact .inl ⟨x, hx, h⟩
    · exact .inr ⟨x, hx, h⟩

theorem not_isEffect_record (site : Site) (description : Text) :
    isEffect (assumptionRecordCall site description) = false := by
  have hcall : "assumptionRegistry.record(\"".toList = recordCall ++ ['"'] := rfl
  rw [assumptionRecordCall, isEffect, Bool.not_eq_false', startsWith, List.isPrefixOf_iff_prefix,
    hcall]
  simp only [List.append_assoc]
  exact List.prefix_append _ _

theorem not_answers_record (site : Site) (description : Text) :
    ¬ Answers stmtId (pure [assumptionRecordCall site description]) := by
  rintro (h | h)
  · rw [value_pure, List.any_cons, not_isEffect_record] at h
    cases h
  · cases h

end Answers

section References

variable (u : UnicodeData) {site : Site}

theorem fieldReference_of_blank {token : Text} (h : isBlank (referenceName u token) = true) :
    fieldReference u site token = pure none := by
  rw [fieldReference, fieldReferenceWithin]
  exact if_pos h

/-- The accessor of a declared field is its variable, or an element of it. -/
theorem fieldReference_declared {token : Text} {field : FieldEmission}
    (h : isBlank (referenceName u token) = false)
    (hget : site.fields.get (referenceName u token) = some field) :
    ∃ accessor, (fieldReference u site token).value = some ⟨field, accessor⟩ ∧
      (accessor = field.fieldVar ∨
        ∃ index, accessor = field.fieldVar ++ ".get(".toList ++ index) := by
  rw [fieldReference, fieldReferenceWithin, h, if_neg Bool.false_ne_true, hget]
  dsimp only
  split
  · rw [value_bind]
    split
    · exact ⟨_, rfl, .inr ⟨_, List.append_assoc ..⟩⟩
    · exact ⟨_, rfl, .inr ⟨_, List.append_assoc ..⟩⟩
  · split
    · exact ⟨_, rfl, .inl rfl⟩
    · exact ⟨_, rfl, .inl rfl⟩

theorem noted_fieldReference {token : Text} (h : isBlank (referenceName u token) = false)
    (hnone : (fieldReference u site token).value = none) :
    (fieldReference u site token).diagnostics.any (names site.stmtId) = true := by
  cases hget : site.fields.get (referenceName u token) with
  | none =>
      rw [fieldReference, fieldReferenceWithin, h, if_neg Bool.false_ne_true, hget]
      exact noted_note site _ _
  | some field =>
      obtain ⟨accessor, hvalue, -⟩ := fieldReference_declared u h hget
      rw [hvalue] at hnone
      cases hnone

/-- Behind a name, no call but `record` is taken for the record of an assumption. -/
theorem isEffect_call {name call : Text} (hname : '.' ∉ name)
    (hcall : startsWith call "record(".toList = false) :
    isEffect (.statement (name ++ '.' :: call)) = true := by
  have hother : startsWith (name ++ '.' :: call) recordCall = false := by
    by_contra hrecord
    rw [Bool.not_eq_false, startsWith, List.isPrefixOf_iff_prefix] at hrecord
    obtain ⟨rest, hrest⟩ := hrecord
    have hsplit : recordCall ++ rest =
        "assumptionRegistry".toList ++ '.' :: ("record(".toList ++ rest) := rfl
    obtain ⟨-, rfl⟩ := append_cons_inj (by decide) hname (hsplit.symm.trans hrest)
    rw [startsWith, List.isPrefixOf_iff_prefix.mpr (List.prefix_append _ _)] at hcall
    cases hcall
  rw [isEffect, hother, Bool.not_false]

theorem isEffect_accessor (hfields : FieldsNamed site.fields) {token : Text} {ref : FieldReference}
    (h : (fieldReference u site token).value = some ref) {call : Text}
    (hcall : startsWith call "record(".toList = false) :
    isEffect (.statement (ref.accessor ++ '.' :: call)) = true := by
  cases hblank : isBlank (referenceName u token) with
  | true =>
      rw [fieldReference_of_blank u hblank] at h
      cases h
  | false =>
      cases hget : site.fields.get (referenceName u token) with
      | none =>
          rw [fieldReference, fieldReferenceWithin, hblank, if_neg Bool.false_ne_true, hget] at h
          cases h
      | some field =>
          have hname : '.' ∉ field.fieldVar := by
            intro hdot
            have hpart := List.all_eq_true.mp (isName_of_get hfields hget) '.' hdot
            revert hpart
            decide
          obtain ⟨accessor, hvalue, haccessor⟩ := fieldReference_declared u hblank hget
          obtain rfl := Option.some.inj (hvalue.symm.trans h)
          rcases haccessor with rfl | ⟨index, rfl⟩
          · exact isEffect_call hname hcall
          · have hsplit : field.fieldVar ++ ".get(".toList ++ index ++ '.' :: call =
                field.fieldVar ++ '.' :: ("get(".toList ++ (index ++ '.' :: call)) := by
              simp
            rw [hsplit]
            exact isEffect_call hname rfl

end References

section Emissions

variable (u : UnicodeData) {site : Site}

/-- The text of a target, empty for `null`. -/
def targetName (target : Value) : Text :=
  if target.isNull then [] else trim target.toText

def IsNamed (token : Text) : Prop :=
  isBlank (referenceName u token) = false

theorem answers_reference_iff {token : Text} {f : FieldReference → Emits (List JavaLine)}
    (hanswers : ∀ ref, (fieldReference u site token).value = some ref →
      Answers site.stmtId (f ref)) :
    Answers site.stmtId (do
      match ← fieldReference u site token with
      | none => return []
      | some ref => f ref) ↔ IsNamed u token := by
  unfold IsNamed
  cases hblank : isBlank (referenceName u token) with
  | true =>
      rw [fieldReference_of_blank u hblank]
      refine iff_of_false ?_ Bool.noConfusion
      rintro (h | h) <;> cases h
  | false =>
      refine iff_of_true ?_ rfl
      cases hvalue : (fieldReference u site token).value with
      | none => exact answers_of_noted (noted_fieldReference u hblank hvalue) _
      | some ref =>
          apply answers_bind
          rw [hvalue]
          exact hanswers ref hvalue

theorem answers_effect {line : JavaLine} (h : isEffect line = true) {stmtId : Text} :
    Answers stmtId (pure [line]) :=
  .inl (by rw [value_pure, List.any_cons, h, Bool.true_or])

theorem answers_moveTo_iff (hfields : FieldsNamed site.fields) (source : Text) (target : Value) :
    Answers site.stmtId (emitMoveTo u site source target) ↔ IsNamed u (targetName target) := by
  apply answers_reference_iff
  intro ref href
  have hcall {line : Text} (call : Text) (hcall : startsWith call "record(".toList = false)
      (hline : line = ref.accessor ++ '.' :: call) :
      Answers site.stmtId (pure [.statement line]) := by
    rw [hline]
    exact answers_effect (isEffect_accessor u hfields href hcall)
  split
  · exact hcall ("moveLiteral(".toList ++ _) rfl (by simp; rfl)
  · split
    · exact hcall ("setNumericValue(".toList ++ _) rfl (by simp; rfl)
    · apply answers_bind
      split
      · exact answers_of_noted (noted_note site _ _) _
      · exact hcall ("moveFrom(".toList ++ _) rfl (by simp; rfl)

theorem answers_assignNumeric (hfields : FieldsNamed site.fields) {token : Text}
    {ref : FieldReference} (href : (fieldReference u site token).value = some ref)
    (expression : Text) :
    Answers site.stmtId (pure [assignNumeric ref.accessor expression]) := by
  have hline : assignNumeric ref.accessor expression =
      .statement (ref.accessor ++
        '.' :: ("setNumericValue(".toList ++ (expression ++ ");".toList))) := by
    simp [assignNumeric]
  rw [hline]
  exact answers_effect (isEffect_accessor u hfields href rfl)

theorem answers_accumulateInto_iff (hfields : FieldsNamed site.fields) (method : String)
    (sources : List Text) (target : Text) :
    Answers site.stmtId (emitAccumulateInto u site method sources target) ↔ IsNamed u target := by
  apply answers_reference_iff
  intro ref href
  exact answers_bind (answers_assignNumeric u hfields href _)

theorem answers_emitCompute (hfields : FieldsNamed site.fields) (operands : ObjectMap) :
    Answers site.stmtId (emitCompute u site operands) := by
  apply answers_bind
  cases hvalue : (fieldReference u site (operand operands "target" [])).value with
  | none => exact answers_of_noted (noted_note site _ _) _
  | some ref =>
      dsimp only
      split
      · exact answers_bind (answers_assignNumeric u hfields hvalue _)
      · exact answers_of_noted (noted_note site _ _) _

theorem answers_emitMultiply (hfields : FieldsNamed site.fields) (operands : ObjectMap) :
    Answers site.stmtId (emitMultiply u site operands) := by
  apply answers_bind
  cases hvalue : (fieldReference u site
      (operand operands "target" (operand operands "by" []))).value with
  | none => exact answers_of_noted (noted_note site _ _) _
  | some ref =>
      dsimp only
      split
      · exact answers_bind (answers_bind (answers_assignNumeric u hfields hvalue _))
      · exact answers_of_noted (noted_note site _ _) _

theorem answers_emitDivide (hfields : FieldsNamed site.fields) (operands : ObjectMap) :
    Answers site.stmtId (emitDivide u site operands) := by
  apply answers_bind
  cases hvalue : (fieldReference u site
      (operand operands "target" (operand operands "dividend" []))).value with
  | none => exact answers_of_noted (noted_note site _ _) _
  | some ref =>
      dsimp only
      split
      · exact answers_bind (answers_bind (answers_assignNumeric u hfields hvalue _))
      · exact answers_of_noted (noted_note site _ _) _

omit u in
theorem noted_emitUnsupported (operation raw : Text) :
    (emitUnsupported site operation raw).diagnostics.any (names site.stmtId) = true := by
  have hmessage (description : Text) :
      description ++ " (".toList ++ site.stmtId ++ "): ".toList ++ raw =
        (description ++ [' ']) ++ '(' :: site.stmtId ++ ')' :: (": ".toList ++ raw) := by
    simp
  rw [emitUnsupported, diagnostics_bind, note, hmessage, List.any_append, List.any_cons,
    names_message, Bool.true_or, Bool.true_or]

/-- The sources and the targets of an `ADD`. -/
def addOperands (operands : ObjectMap) : List Text × List Text :=
  let sources := operandStrings operands "sources" "source"
  let targets := operandStrings operands "targets" "target"
  if sources.isEmpty || targets.isEmpty then
    (addSourcesFromTokens operands, addTargetsFromTokens operands)
  else (sources, targets)

/-- The sources and the targets of a `SUBTRACT`. -/
def subtractOperands (operands : ObjectMap) : List Text × List Text :=
  let sources := operandStrings operands "sources" "source"
  let targets := operandStrings operands "targets" "target"
  let tokens := tokenStrings (get "tokens".toList operands)
  let fromIndex := tokenIndex "FROM".toList tokens
  if (sources.isEmpty || targets.isEmpty) && 1 < fromIndex && fromIndex + 1 < tokens.length then
    (subList tokens 1 fromIndex, subList tokens (fromIndex + 1) tokens.length)
  else (sources, targets)

/-- There are sources and targets, but no target has a name. -/
def NamelessTargets (operands : List Text × List Text) : Prop :=
  operands.1 ≠ [] ∧ operands.2 ≠ [] ∧ ∀ target ∈ operands.2, ¬ IsNamed u target

theorem exists_named_iff {α : Type} {targets : List α} {named : α → Prop} {complete : Prop}
    (hcomplete : complete) (htargets : targets ≠ []) :
    (∃ target ∈ targets, named target) ↔
      ¬ (complete ∧ targets ≠ [] ∧ ∀ target ∈ targets, ¬ named target) := by
  constructor
  · rintro ⟨target, hmem, hnamed⟩ ⟨-, -, hall⟩
    exact hall target hmem hnamed
  · intro h
    by_contra hnone
    exact h ⟨hcomplete, htargets, fun target hmem hnamed => hnone ⟨target, hmem, hnamed⟩⟩

theorem answers_accumulator_iff (hfields : FieldsNamed site.fields) (method : String)
    (sources targets : List Text) :
    Answers site.stmtId (emitAccumulatorArithmetic u site method sources targets) ↔
      ¬ NamelessTargets u (sources, targets) := by
  unfold emitAccumulatorArithmetic NamelessTargets
  dsimp only
  split
  · next hempty =>
      refine iff_of_true (answers_of_noted ?_ _) ?_
      · have hmessage (before : Text) : before ++ " missing sources or targets (".toList ++
            site.stmtId ++ [')'] =
            (before ++ " missing sources or targets ".toList) ++
              '(' :: site.stmtId ++ ')' :: [] := by
          simp
        rw [note, hmessage, List.any_cons, names_message, Bool.true_or]
      · rintro ⟨hsources, htargets, -⟩
        rw [Bool.or_eq_true, List.isEmpty_iff, List.isEmpty_iff] at hempty
        exact hempty.elim hsources htargets
  · next hempty =>
      rw [Bool.or_eq_true, List.isEmpty_iff, List.isEmpty_iff, not_or] at hempty
      rw [answers_flatten_iff]
      simp only [answers_accumulateInto_iff u hfields]
      exact exists_named_iff hempty.1 hempty.2

theorem answers_emitAdd_iff (hfields : FieldsNamed site.fields) (operands : ObjectMap) :
    Answers site.stmtId (emitAdd u site operands) ↔
      ¬ NamelessTargets u (addOperands operands) := by
  unfold emitAdd addOperands
  dsimp only
  split
  · exact answers_accumulator_iff u hfields _ _ _
  · exact answers_accumulator_iff u hfields _ _ _

theorem answers_emitSubtract_iff (hfields : FieldsNamed site.fields) (operands : ObjectMap) :
    Answers site.stmtId (emitSubtract u site operands) ↔
      ¬ NamelessTargets u (subtractOperands operands) := by
  unfold emitSubtract subtractOperands
  dsimp only
  split
  · exact answers_accumulator_iff u hfields _ _ _
  · exact answers_accumulator_iff u hfields _ _ _

/-- A `MOVE` with a source and targets, none of which has a name. -/
def NamelessMove (operands : ObjectMap) : Prop :=
  trim (operand operands "source" []) ≠ [] ∧ listOrEmpty (get "targets".toList operands) ≠ [] ∧
    ∀ target ∈ listOrEmpty (get "targets".toList operands), ¬ IsNamed u (targetName target)

theorem answers_emitMove_iff (hfields : FieldsNamed site.fields) (operands : ObjectMap) :
    Answers site.stmtId (emitMove u site operands) ↔ ¬ NamelessMove u operands := by
  unfold emitMove NamelessMove
  dsimp only
  split
  · next hempty =>
      refine iff_of_true (answers_of_noted (noted_note site _ _) _) ?_
      rintro ⟨hsource, htargets, -⟩
      rw [Bool.or_eq_true, List.isEmpty_iff, List.isEmpty_iff] at hempty
      exact hempty.elim hsource htargets
  · next hempty =>
      rw [Bool.or_eq_true, List.isEmpty_iff, List.isEmpty_iff, not_or] at hempty
      rw [answers_flatten_iff]
      simp only [answers_moveTo_iff u hfields]
      exact exists_named_iff hempty.1 hempty.2

/-- A `DISPLAY` with items, all of them `null` or blank. -/
def BlankItems (operands : ObjectMap) : Prop :=
  listOrEmpty (get "items".toList operands) ≠ [] ∧
    ∀ item ∈ listOrEmpty (get "items".toList operands), targetName item = []

theorem answers_emitDisplay_iff (operands : ObjectMap) :
    Answers site.stmtId (emitDisplay u site operands) ↔ ¬ BlankItems operands := by
  unfold emitDisplay BlankItems
  dsimp only
  split
  · next hempty =>
      refine iff_of_true (answers_of_noted (noted_note site _ _) _) ?_
      rintro ⟨hitems, -⟩
      exact hitems (List.isEmpty_iff.mp hempty)
  · next hempty =>
      rw [List.isEmpty_iff] at hempty
      have htokens : ((listOrEmpty (get "items".toList operands)).map targetName).filter
          (fun text => !text.isEmpty) = [] ↔
            ∀ item ∈ listOrEmpty (get "items".toList operands), targetName item = [] := by
        simp [List.filter_eq_nil_iff]
      rw [← htokens, and_iff_right hempty]
      change Answers site.stmtId
        ((((listOrEmpty (get "items".toList operands)).map targetName).filter
          (fun text => !text.isEmpty)).mapM (renderDisplayFragment u site) >>= _) ↔ _
      generalize ((listOrEmpty (get "items".toList operands)).map targetName).filter
        (fun text => !text.isEmpty) = tokens
      cases tokens with
      | nil =>
          refine iff_of_false ?_ fun h => h rfl
          exact not_answers_record site _
      | cons token tokens =>
          refine iff_of_true (answers_bind ?_) nofun
          rw [value_mapM, List.map_cons, List.isEmpty_cons, if_neg Bool.false_ne_true]
          exact answers_effect rfl

end Emissions

/-- The statement has operands, and they are of a kind the generator passes over. -/
def IsPassedOver (u : UnicodeData) (statement : IrStatement) : Prop :=
  match operationOf u statement with
  | .display => BlankItems statement.operands
  | .move => NamelessMove u statement.operands
  | .add => NamelessTargets u (addOperands statement.operands)
  | .subtract => NamelessTargets u (subtractOperands statement.operands)
  | _ => False

/-- An effective line, or a change of the open blocks. -/
def TakesEffect (s s' : EmissionState) : Prop :=
  s'.frames ≠ s.frames ∨ ∃ added, s'.lines = s.lines ++ added ∧ added.any isEffect = true

def LeavesDiagnostic (stmtId : Text) (s s' : EmissionState) : Prop :=
  ∃ added, s'.diagnostics = s.diagnostics ++ added ∧ added.any (names stmtId) = true

def Handles (stmtId : Text) (s s' : EmissionState) : Prop :=
  TakesEffect s s' ∨ LeavesDiagnostic stmtId s s'

theorem diagnostics_addAll (s : EmissionState) (lines : List JavaLine) :
    (s.addAll lines).diagnostics = s.diagnostics := by
  induction lines generalizing s with
  | nil => rfl
  | cons line lines ih => exact ih (s.add line)

theorem emittedStatementIds_addAll (s : EmissionState) (lines : List JavaLine) :
    (s.addAll lines).emittedStatementIds = s.emittedStatementIds := by
  induction lines generalizing s with
  | nil => rfl
  | cons line lines ih => exact ih (s.add line)

section Handles

variable (u : UnicodeData) {fields : Fields} {source : Source} {s : EmissionState}

theorem handles_emitLeaf_iff (stmtId : Text) (lines : Emits (List JavaLine)) :
    Handles stmtId s (emitLeaf lines s) ↔ Answers stmtId lines := by
  have hframes : (emitLeaf lines s).frames = s.frames := by simp [emitLeaf]
  have hlines : (emitLeaf lines s).lines = s.lines ++ lines.value := by simp [emitLeaf]
  have hdiagnostics : (emitLeaf lines s).diagnostics = s.diagnostics ++ lines.diagnostics :=
    diagnostics_addAll _ _
  rw [Handles, TakesEffect, LeavesDiagnostic, hframes, hlines, hdiagnostics, Answers]
  simp only [ne_eq, not_true_eq_false, false_or, List.append_cancel_left_eq, exists_eq_left']

theorem handles_onTop {kind : BlockKind} {frames : List BlockFrame} {stmtId : Text}
    {hit : BlockFrame → List BlockFrame → EmissionState} {miss : EmissionState}
    (hhit : ∀ frame rest, frames = frame :: rest → Handles stmtId s (hit frame rest))
    (hmiss : Handles stmtId s miss) : Handles stmtId s (onTop kind frames hit miss) := by
  cases frames with
  | nil => exact hmiss
  | cons frame rest =>
      rw [onTop]
      split
      · exact hhit frame rest rfl
      · exact hmiss

theorem handles_mismatch (comment : JavaLine) (code : String) (message description : Text) :
    Handles source.stmtId s
      (emitMismatch fields source code message description (s.add comment)) :=
  .inr ⟨_, rfl, noted_note (source.site fields) code message⟩

theorem handles_pop {frame : BlockFrame} {rest : List BlockFrame}
    (hframes : s.frames = frame :: rest) {s' : EmissionState} (hs' : s'.frames = rest)
    {stmtId : Text} : Handles stmtId s s' := by
  refine .inl (.inl ?_)
  rw [hs', hframes]
  exact (List.cons_ne_self frame rest).symm

theorem handles_push {frame : BlockFrame} {s' : EmissionState} (hs' : s'.frames = frame :: s.frames)
    {stmtId : Text} : Handles stmtId s s' :=
  .inl (.inl (hs' ▸ List.cons_ne_self frame s.frames))

theorem handles_line {s' : EmissionState} (line : JavaLine) (heffect : isEffect line = true)
    (hs' : ∃ comment, s'.lines = s.lines ++ [comment, line]) {stmtId : Text} :
    Handles stmtId s s' := by
  obtain ⟨comment, hs'⟩ := hs'
  refine .inl (.inr ⟨_, hs', ?_⟩)
  rw [List.any_cons, List.any_cons, heffect, Bool.true_or, Bool.or_true]

theorem handles_when : Handles source.stmtId s (emitWhen u fields source s) := by
  apply handles_onTop
  · intro frame rest _
    dsimp only
    split
    · split
      · exact handles_line .openElse rfl ⟨headComment "when".toList source, by simp⟩
      · exact handles_line (.openElseIf (whenCondition u fields frame.selector source)) rfl
          ⟨headComment "when".toList source, by simp [whenCondition, whenValue]⟩
    · split
      · exact handles_line (.openIf .always) rfl
          ⟨headComment "when".toList source, by simp⟩
      · exact handles_line (.openIf (.test (whenCondition u fields frame.selector source))) rfl
          ⟨headComment "when".toList source, by simp [whenCondition, whenValue]⟩
  · exact handles_mismatch _ _ _ _

/-- A block statement opens, closes or continues a block, or is reported. -/
theorem handles_emitBlock {operation : Operation}
    (hleaf : leafLines u fields source operation = none) :
    Handles source.stmtId s (emitBlock u fields source operation s) := by
  cases operation with
  | «if» => exact handles_push (does_if u fields).frames
  | «else» =>
      apply handles_onTop
      · intro frame rest _
        exact handles_line .openElse rfl ⟨headComment "else".toList source, by simp⟩
      · exact handles_mismatch _ _ _ _
  | endIf =>
      apply handles_onTop
      · intro frame rest hframes
        have hframes : s.frames = frame :: rest := hframes
        exact handles_pop hframes (by simp)
      · exact handles_mismatch _ _ _ _
  | evaluate => exact handles_push does_evaluate.frames
  | «when» => exact handles_when u
  | endEvaluate =>
      apply handles_onTop
      · intro frame rest hframes
        have hframes : s.frames = frame :: rest := hframes
        apply handles_pop hframes
        dsimp only
        split <;> rfl
      · exact handles_mismatch _ _ _ _
  | perform => exact handles_push (does_perform u fields).frames
  | endPerform =>
      apply handles_onTop
      · intro frame rest hframes
        have hframes : s.frames = frame :: rest := hframes
        exact handles_pop hframes (by simp)
      · exact handles_mismatch _ _ _ _
  | stop =>
      exact handles_line .leave rfl ⟨headComment "stop".toList source, by simp [emitBlock]⟩
  | paragraph => contradiction
  | display => contradiction
  | move => contradiction
  | compute => contradiction
  | add => contradiction
  | subtract => contradiction
  | multiply => contradiction
  | divide => contradiction
  | unsupported operation => contradiction

end Handles

section Statements

variable (u : UnicodeData) (fields : Fields)

theorem answers_leaf_iff {operation : String} {source : Source} {lines : Emits (List JavaLine)}
    {stmtId : Text} :
    Answers stmtId (leafLines.leaf source operation lines) ↔ Answers stmtId lines := by
  have hdiagnostics : (leafLines.leaf source operation lines).diagnostics = lines.diagnostics :=
    List.append_nil _
  rw [Answers, hdiagnostics]
  rfl

theorem handles_leaf_iff (s : EmissionState) {statement : IrStatement} {operation : Operation}
    (hoperation : operationOf u statement = operation) {lines : Emits (List JavaLine)}
    (hlines : leafLines u fields (sourceOf statement) operation = some lines) :
    Handles (sourceOf statement).stmtId s (emitStatement u fields s statement) ↔
      Handles (sourceOf statement).stmtId s (emitLeaf lines s) := by
  unfold emitStatement
  dsimp only
  rw [hoperation, hlines]
  rfl

theorem handles_block (s : EmissionState) {statement : IrStatement} {operation : Operation}
    (hoperation : operationOf u statement = operation)
    (hlines : leafLines u fields (sourceOf statement) operation = none) :
    Handles (sourceOf statement).stmtId s (emitStatement u fields s statement) := by
  unfold emitStatement
  dsimp only
  rw [hoperation, hlines]
  exact handles_emitBlock u hlines

/-- A statement is answered, unless the generator passes over its operands. -/
theorem handles_emitStatement_iff (hfields : FieldsNamed fields) (s : EmissionState)
    {statement : IrStatement} (hlabel : operationOf u statement ≠ .paragraph) :
    Handles (sourceOf statement).stmtId s (emitStatement u fields s statement) ↔
      ¬ IsPassedOver u statement := by
  have hsite : FieldsNamed ((sourceOf statement).site fields).fields := hfields
  unfold IsPassedOver
  cases hoperation : operationOf u statement with
  | paragraph => exact absurd hoperation hlabel
  | display =>
      rw [handles_leaf_iff u fields s hoperation rfl, handles_emitLeaf_iff, answers_leaf_iff]
      exact answers_emitDisplay_iff u _
  | move =>
      rw [handles_leaf_iff u fields s hoperation rfl, handles_emitLeaf_iff, answers_leaf_iff]
      exact answers_emitMove_iff u hsite _
  | compute =>
      rw [handles_leaf_iff u fields s hoperation rfl, handles_emitLeaf_iff, answers_leaf_iff]
      exact iff_of_true (answers_emitCompute u hsite _) id
  | add =>
      rw [handles_leaf_iff u fields s hoperation rfl, handles_emitLeaf_iff, answers_leaf_iff]
      exact answers_emitAdd_iff u hsite _
  | subtract =>
      rw [handles_leaf_iff u fields s hoperation rfl, handles_emitLeaf_iff, answers_leaf_iff]
      exact answers_emitSubtract_iff u hsite _
  | multiply =>
      rw [handles_leaf_iff u fields s hoperation rfl, handles_emitLeaf_iff, answers_leaf_iff]
      exact iff_of_true (answers_emitMultiply u hsite _) id
  | divide =>
      rw [handles_leaf_iff u fields s hoperation rfl, handles_emitLeaf_iff, answers_leaf_iff]
      exact iff_of_true (answers_emitDivide u hsite _) id
  | unsupported operation =>
      rw [handles_leaf_iff u fields s hoperation rfl, handles_emitLeaf_iff]
      exact iff_of_true (answers_of_noted (noted_emitUnsupported _ _) _) id
  | «if» => exact iff_of_true (handles_block u fields s hoperation rfl) id
  | «else» => exact iff_of_true (handles_block u fields s hoperation rfl) id
  | endIf => exact iff_of_true (handles_block u fields s hoperation rfl) id
  | evaluate => exact iff_of_true (handles_block u fields s hoperation rfl) id
  | «when» => exact iff_of_true (handles_block u fields s hoperation rfl) id
  | endEvaluate => exact iff_of_true (handles_block u fields s hoperation rfl) id
  | perform => exact iff_of_true (handles_block u fields s hoperation rfl) id
  | endPerform => exact iff_of_true (handles_block u fields s hoperation rfl) id
  | stop => exact iff_of_true (handles_block u fields s hoperation rfl) id

/-- Nothing that was recorded is lost on the way to another state. -/
structure Keeps (s s' : EmissionState) : Prop where
  diagnostics : s.diagnostics <+: s'.diagnostics
  emittedStatementIds : s'.emittedStatementIds = s.emittedStatementIds

section Keeps

variable {u fields} {s s' s'' : EmissionState}

theorem keeps_same (hdiagnostics : s'.diagnostics = s.diagnostics)
    (hids : s'.emittedStatementIds = s.emittedStatementIds) : Keeps s s' :=
  ⟨hdiagnostics ▸ List.prefix_refl _, hids⟩

theorem keeps_noting {α : Type} {x : Emits α}
    (hdiagnostics : s'.diagnostics = s.diagnostics ++ x.diagnostics)
    (hids : s'.emittedStatementIds = s.emittedStatementIds) : Keeps s s' :=
  ⟨hdiagnostics ▸ List.prefix_append _ _, hids⟩

theorem Keeps.trans (h : Keeps s s') (h' : Keeps s' s'') : Keeps s s'' :=
  ⟨h.diagnostics.trans h'.diagnostics, h'.emittedStatementIds.trans h.emittedStatementIds⟩

theorem keeps_addAll (s : EmissionState) (lines : List JavaLine) : Keeps s (s.addAll lines) :=
  keeps_same (diagnostics_addAll s lines) (emittedStatementIds_addAll s lines)

theorem keeps_onTop {kind : BlockKind} {frames : List BlockFrame}
    {hit : BlockFrame → List BlockFrame → EmissionState} {miss : EmissionState}
    (hhit : ∀ frame rest, Keeps s (hit frame rest)) (hmiss : Keeps s miss) :
    Keeps s (onTop kind frames hit miss) := by
  cases frames with
  | nil => exact hmiss
  | cons frame rest =>
      rw [onTop]
      split
      · exact hhit frame rest
      · exact hmiss

theorem keeps_mismatch (source : Source) (comment : JavaLine) (code : String)
    (message description : Text) :
    Keeps s (emitMismatch fields source code message description (s.add comment)) :=
  keeps_noting rfl rfl

theorem keeps_when (source : Source) : Keeps s (emitWhen u fields source s) := by
  apply keeps_onTop
  · intro frame rest
    dsimp only
    split
    · split
      · exact keeps_same rfl rfl
      · exact keeps_noting rfl rfl
    · split
      · exact keeps_same rfl rfl
      · exact keeps_noting rfl rfl
  · exact keeps_mismatch source _ _ _ _

theorem keeps_perform (source : Source) : Keeps s (emitPerform u fields source s) := by
  let site := source.site fields
  let spec := performSpec source.operands
  let start := performStart u site spec
  have hstart : Keeps s ((s.add (headComment "perform".toList source)).noting start) :=
    keeps_noting rfl rfl
  have hcondition {s' : EmissionState} :
      Keeps s' (s'.noting (conditionExpression u site spec.condition)) :=
    keeps_noting rfl rfl
  have hincrement {s' : EmissionState} : Keeps s' (s'.noting (performIncrement u site spec)) :=
    keeps_noting rfl rfl
  have hall := ((hstart.trans (keeps_addAll _ start.value)).trans hcondition).trans hincrement
  exact ⟨hall.diagnostics, hall.emittedStatementIds⟩

theorem keeps_emitBlock (source : Source) (operation : Operation) :
    Keeps s (emitBlock u fields source operation s) := by
  cases operation with
  | «if» => exact keeps_noting rfl rfl
  | «else» => exact keeps_onTop (fun _ _ => keeps_same rfl rfl) (keeps_mismatch source _ _ _ _)
  | endIf => exact keeps_onTop (fun _ _ => keeps_same rfl rfl) (keeps_mismatch source _ _ _ _)
  | «when» => exact keeps_when source
  | endEvaluate =>
      apply keeps_onTop
      · intro frame rest
        dsimp only
        split
        · exact keeps_same rfl rfl
        · exact keeps_same rfl rfl
      · exact keeps_mismatch source _ _ _ _
  | perform => exact keeps_perform source
  | endPerform =>
      apply keeps_onTop
      · intro frame rest
        exact keeps_same (diagnostics_addAll _ _) (emittedStatementIds_addAll _ _)
      · exact keeps_mismatch source _ _ _ _
  | _ => exact keeps_same rfl rfl

theorem keeps_emitLeaf (lines : Emits (List JavaLine)) : Keeps s (emitLeaf lines s) := by
  have hnoting : Keeps s (s.noting lines) := keeps_noting rfl rfl
  exact hnoting.trans (keeps_addAll _ lines.value)

/-- A statement's id is the last one recorded behind it. -/
theorem emitStatement_keeps (statement : IrStatement) :
    s.diagnostics <+: (emitStatement u fields s statement).diagnostics ∧
      (emitStatement u fields s statement).emittedStatementIds =
        s.emittedStatementIds ++ [(sourceOf statement).stmtId] := by
  unfold emitStatement
  dsimp only
  split
  · next lines _ =>
      have hkeeps : Keeps s (emitLeaf lines s) := keeps_emitLeaf lines
      exact ⟨hkeeps.diagnostics, by rw [EmissionState.emitted, hkeeps.emittedStatementIds]⟩
  · have hkeeps : Keeps s (emitBlock u fields (sourceOf statement) (operationOf u statement) s) :=
      keeps_emitBlock _ _
    exact ⟨hkeeps.diagnostics, by rw [EmissionState.emitted, hkeeps.emittedStatementIds]⟩

variable (u fields) in
theorem foldl_emitStatement_keeps (statements : List IrStatement) (s : EmissionState) :
    s.diagnostics <+: (statements.foldl (emitStatement u fields) s).diagnostics ∧
      (statements.foldl (emitStatement u fields) s).emittedStatementIds =
        s.emittedStatementIds ++ statements.map fun statement => (sourceOf statement).stmtId := by
  induction statements generalizing s with
  | nil => exact ⟨List.prefix_refl _, (List.append_nil _).symm⟩
  | cons statement statements ih =>
      obtain ⟨hdiagnostics, hids⟩ :
          _ ∧ (emitStatement u fields s statement).emittedStatementIds = _ :=
        emitStatement_keeps statement
      obtain ⟨hdiagnostics', hids'⟩ := ih (emitStatement u fields s statement)
      refine ⟨hdiagnostics.trans hdiagnostics', ?_⟩
      rw [List.foldl_cons, hids', hids, List.append_assoc, List.map_cons, List.singleton_append]

theorem keeps_closeOpenBlocks (s : EmissionState) : Keeps s (closeOpenBlocks s) := by
  have hframe (s : EmissionState) (frame : BlockFrame) : Keeps s (closeFrame s frame) := by
    unfold closeFrame
    dsimp only
    split
    · exact keeps_noting rfl rfl
    · exact keeps_noting rfl rfl
  have hframes (frames : List BlockFrame) (s : EmissionState) :
      Keeps s (frames.foldl closeFrame s) := by
    induction frames generalizing s with
    | nil => exact keeps_same rfl rfl
    | cons frame frames ih => exact (hframe s frame).trans (ih (closeFrame s frame))
  have hcleared : Keeps s (s.withFrames []) := keeps_same rfl rfl
  exact hcleared.trans (hframes s.frames _)

end Keeps

end Statements

section Documents

variable (u : UnicodeData) (ir : ObjectMap)

/-- The fields `generate` materialises. -/
def fieldsOf : Fields :=
  (materialise u (mapList (get "fieldLayouts".toList ir))).value

/-- The ids of the fields `generate` materialises. -/
def emittedFieldIds : List Text :=
  ((mapList (get "fieldLayouts".toList ir)).filter isMaterialised).map layoutId

/-- The `EmissionState` at the end of `generate`. -/
def emission : EmissionState :=
  generateBody u (fieldsOf u ir) (irStatements ir)

/-- The node ids `generate` lists for the Java file. -/
def fileNodeIds : List Text :=
  emittedFieldIds ir ++ (emission u ir).emittedStatementIds

/-- What `generate` does for a statement behind others takes effect, or leaves a
diagnostic that names the statement and is still there at the end. -/
def IsAccounted (before : List IrStatement) (statement : IrStatement) : Prop :=
  let s := emitStatements u (fieldsOf u ir) before
  let s' := emitStatement u (fieldsOf u ir) s statement
  TakesEffect s s' ∨
    LeavesDiagnostic (sourceOf statement).stmtId s s' ∧
      s'.diagnostics <+: (emission u ir).diagnostics

/-- No statement but a label is dropped silently. -/
def NothingDropped : Prop :=
  ∀ before statement after, irStatements ir = before ++ statement :: after →
    operationOf u statement ≠ .paragraph → IsAccounted u ir before statement

theorem prefix_emission (before after : List IrStatement)
    (h : irStatements ir = before ++ after) :
    (emitStatements u (fieldsOf u ir) before).diagnostics <+: (emission u ir).diagnostics := by
  have hclosed := (keeps_closeOpenBlocks
    (emitStatements u (fieldsOf u ir) (irStatements ir))).diagnostics
  have hafter := (foldl_emitStatement_keeps u (fieldsOf u ir) after
    (emitStatements u (fieldsOf u ir) before)).1
  rw [h] at hclosed
  rw [emission, generateBody, h]
  refine List.IsPrefix.trans ?_ hclosed
  rw [emitStatements, emitStatements, List.foldl_append]
  exact hafter

theorem nothingDropped_iff (hu : CasesKeepLetters u) :
    NothingDropped u ir ↔ ∀ statement ∈ irStatements ir, ¬ IsPassedOver u statement := by
  have hfields : FieldsNamed (fieldsOf u ir) := fieldsNamed_materialise u hu _
  constructor
  · intro h statement hmem hpassed
    obtain ⟨before, after, hsplit⟩ := List.append_of_mem hmem
    have hlabel : operationOf u statement ≠ .paragraph := by
      intro hlabel
      rw [IsPassedOver, hlabel] at hpassed
      exact hpassed
    have hhandles : Handles (sourceOf statement).stmtId _ _ :=
      (h before statement after hsplit hlabel).imp id And.left
    exact (handles_emitStatement_iff u _ hfields _ hlabel).mp hhandles hpassed
  · intro h before statement after hsplit hlabel
    have hmem : statement ∈ irStatements ir := by
      rw [hsplit]
      exact List.mem_append_right _ List.mem_cons_self
    have hprefix : (emitStatement u (fieldsOf u ir) (emitStatements u (fieldsOf u ir) before)
        statement).diagnostics <+: (emission u ir).diagnostics := by
      have hbehind := prefix_emission u ir (before ++ [statement]) after
        (by rw [hsplit, List.append_assoc]; rfl)
      rwa [emitStatements, List.foldl_append] at hbehind
    exact ((handles_emitStatement_iff u _ hfields _ hlabel).mpr (h statement hmem)).imp id
      fun hleaves => ⟨hleaves, hprefix⟩

/-- Every statement is recorded once and in order; nothing is dropped silently
exactly when the generator passes over no operands. -/
theorem statements_recorded_and_reported (hu : CasesKeepLetters u) :
    fileNodeIds u ir = emittedFieldIds ir ++
        (irStatements ir).map (fun statement => (sourceOf statement).stmtId) ∧
      (NothingDropped u ir ↔ ∀ statement ∈ irStatements ir, ¬ IsPassedOver u statement) := by
  refine ⟨?_, nothingDropped_iff u ir hu⟩
  rw [fileNodeIds, emission, generateBody, (keeps_closeOpenBlocks _).emittedStatementIds,
    emitStatements, (foldl_emitStatement_keeps _ _ _ _).2]
  rfl

end Documents

/-- A document with one `DISPLAY`. -/
def displayIr (item : String) : ObjectMap :=
  [("schemaVersion".toList, .str "v0".toList), ("irId".toList, .str "ir-1".toList),
    ("programId".toList, .str "PROG".toList), ("sourceHash".toList, .str "abc".toList),
    ("sourceKind".toList, .str "cobol".toList), ("fieldLayouts".toList, .list []),
    ("statements".toList, .list [.map [
      ("id".toList, .str "S1".toList), ("operation".toList, .str "display".toList),
      ("operands".toList, .map [("items".toList, .list [.str item.toList])])]])]

theorem displayIr_reported :
    fileNodeIds .ascii (displayIr "TOTAL") = ["S1".toList] ∧
      NothingDropped .ascii (displayIr "TOTAL") := by
  obtain ⟨hids, hiff⟩ := statements_recorded_and_reported .ascii (displayIr "TOTAL")
    ascii_casesKeepLetters
  refine ⟨hids.trans (by decide), hiff.mpr ?_⟩
  intro statement hstatement
  obtain rfl := List.mem_singleton.mp hstatement
  rintro ⟨-, hblank⟩
  have hitem := hblank (.str "TOTAL".toList) List.mem_cons_self
  revert hitem
  decide

/-- A `DISPLAY` whose one item is a blank leaves no diagnostic. -/
theorem blank_display_dropped :
    ¬ ∀ (u : UnicodeData) (ir : ObjectMap), CasesKeepLetters u → validate u ir = [] →
      NothingDropped u ir := by
  intro h
  have hdropped := (nothingDropped_iff .ascii (displayIr " ") ascii_casesKeepLetters).mp
    (h .ascii (displayIr " ") ascii_casesKeepLetters (by decide))
  refine hdropped _ List.mem_cons_self ⟨nofun, ?_⟩
  intro item hitem
  obtain rfl := List.mem_singleton.mp hitem
  decide

end C2c.TargetJava.ReportedStatements
