import C2c.TargetJava.WovenLines

/-!
Every text of the document ends up in one comment or literal of the generated
file, or in a name, exactly when the texts that go into comments as they are
leave them closed.
-/

namespace C2c.TargetJava.ConfinedTexts

open C2c.Library.JavaText
open C2c.Library.JsonText (hexValue)
open C2c.Library.JavaObject
open C2c.Library.JavaSource
open C2c.SemanticIr.Statements
open C2c.TargetJava.Literals
open C2c.TargetJava.References
open C2c.TargetJava.Expressions
open C2c.TargetJava.LeafStatements
open C2c.TargetJava.Generation
open C2c.TargetJava.BlockSteps
open C2c.TargetJava.FieldNames (materialise materialiseLayout)
open C2c.TargetJava.JavaClass
open C2c.TargetJava.Weaving
open C2c.TargetJava.WovenLines

/-! Comments. -/

/-- What of a statement goes into its comment unescaped. -/
structure StatementHarmless (operation : Operation) (source : Source) : Prop where
  stmtId : LineSafe source.stmtId
  paragraphName : operation = .paragraph → LineSafe (operand source.operands "name" [])
  operation : ∀ text, operation = .unsupported text → LineSafe text

theorem mem_escapeComment (raw : Text) :
    '\\' ∉ escapeComment raw ∧ (escapeComment raw).any isLineEnd = false := by
  have hsplit : ∀ t : Text, '\\' ∉ t → '\\' ∉ splitCommentEnds t := by
    intro t
    fun_induction splitCommentEnds t with
    | case1 t ih =>
        intro h
        simp only [List.mem_cons, not_or] at h ⊢
        exact ⟨by decide, by decide, by decide, ih h.2.2⟩
    | case2 c t _ ih =>
        intro h
        simp only [List.mem_cons, not_or] at h ⊢
        exact ⟨h.1, ih h.2⟩
    | case3 => exact id
  have hslashes : '\\' ∉ raw.map fun c => if c == '\\' then '/' else c := by
    intro h
    obtain ⟨c, -, hc⟩ := List.mem_map.mp h
    split at hc
    · cases hc
    · next hne => exact hne (beq_iff_eq.mpr hc)
  constructor
  · intro h
    obtain ⟨c, hmem, hc⟩ := List.mem_map.mp h
    split at hc
    · cases hc
    · exact hsplit _ hslashes (hc ▸ hmem)
  · rw [List.any_eq_false]
    intro c hc
    obtain ⟨d, -, rfl⟩ := List.mem_map.mp hc
    split
    · decide
    · next h => exact h

theorem intText_plain (k : Int) : '\\' ∉ intText k ∧ (intText k).any isLineEnd = false := by
  have hdigit : ∀ c ∈ intText k, isDigitAscii c = true ∨ c = '-' := by
    intro c hc
    unfold intText at hc
    split at hc
    · rcases List.mem_cons.mp hc with rfl | hc
      · exact .inr rfl
      · exact .inl (isDigitAscii_of_mem_natText hc)
    · exact .inl (isDigitAscii_of_mem_natText hc)
  constructor
  · intro h
    rcases hdigit _ h with h | h
    · exact absurd h (by decide)
    · cases h
  · rw [List.any_eq_false]
    intro c hc hend
    rw [isLineEnd, Bool.or_eq_true, beq_iff_eq, beq_iff_eq] at hend
    rcases hend with rfl | rfl <;> rcases hdigit _ hc with h | h <;> exact absurd h (by decide)

theorem fresh_blank (t : Text) : Fresh (' ' :: t) :=
  fresh_cons (by decide) t

/-- The place of a statement ends its comment without harm, but for its id. -/
theorem lineSafe_place (source : Source) (behind : Text) (hback : '\\' ∉ behind)
    (hend : behind.any isLineEnd = false) :
    LineSafe (' ' :: source.place ++ behind) ↔ LineSafe source.stmtId := by
  obtain ⟨hline, hlineEnd⟩ := intText_plain source.line
  have htext : ' ' :: source.place ++ behind =
      [' ', '['] ++ (source.stmtId ++
        ' ' :: ("line ".toList ++ (intText source.line ++ ']' :: behind))) := by
    simp [Source.place]
  have htail : LineSafe (' ' :: ("line ".toList ++ (intText source.line ++ ']' :: behind))) := by
    apply lineSafe_plain
    · simp [hline, hback]
    · rw [List.any_cons, List.any_append, List.any_append, List.any_cons, hlineEnd, hend]
      rfl
  rw [htext, lineSafe_plain_append (by decide) rfl, lineSafe_append _ (fresh_blank _)]
  exact and_iff_left htail

theorem lineSafe_headComment (word : Text) (source : Source) :
    LineSafe (' ' :: (word ++ ' ' :: source.place ++ ' ' :: escapeComment source.raw)) ↔
      LineSafe word ∧ LineSafe source.stmtId := by
  obtain ⟨hback, hend⟩ := mem_escapeComment source.raw
  have hplace := lineSafe_place source (' ' :: escapeComment source.raw)
    (by simp [hback]) (by rw [List.any_cons, hend]; rfl)
  have htext : ' ' :: (word ++ ' ' :: source.place ++ ' ' :: escapeComment source.raw) =
      [' '] ++ (word ++ ' ' :: (source.place ++ ' ' :: escapeComment source.raw)) := by
    simp
  rw [htext, lineSafe_plain_append (by decide) rfl, lineSafe_append _ (fresh_blank _)]
  exact and_congr_right fun _ => hplace

theorem lineSafe_paragraphComment (name : Text) (source : Source) :
    LineSafe (' ' :: ("paragraph ".toList ++ name ++ ' ' :: source.place)) ↔
      LineSafe name ∧ LineSafe source.stmtId := by
  have hplace := lineSafe_place source [] (by simp) rfl
  rw [List.append_nil] at hplace
  have htext : ' ' :: ("paragraph ".toList ++ name ++ ' ' :: source.place) =
      " paragraph ".toList ++ (name ++ ' ' :: source.place) := by
    simp
  rw [htext, lineSafe_plain_append (by decide) (by decide), lineSafe_append _ (fresh_blank _),
    hplace]

/-! Lines of blocks. -/

section Blocks

variable (u : UnicodeData) {fields : Fields}

theorem wovenLine_openIf {condition : Text} (h : Woven condition) :
    WovenLine (.openIf (.test condition)) :=
  ⟨by simp, ((woven_word .ifWord).append h).word .openBlock⟩

theorem wovenLine_always : WovenLine (.openIf .always) :=
  ⟨by simp, ((woven_word IsWord.ifWord).word
    IsWord.trueWord).word .openBlock⟩

theorem wovenLine_openElseIf {condition : Text} (h : Woven condition) :
    WovenLine (.openElseIf condition) :=
  ⟨by simp, ((woven_word .elseIf).append h).word .openBlock⟩

theorem wovenLine_openElse : WovenLine .openElse :=
  ⟨by simp, woven_word .openElse⟩

theorem wovenLine_close : WovenLine .close :=
  ⟨by simp, woven_word .close⟩

theorem wovenLine_leave : WovenLine .leave :=
  ⟨by simp, woven_word .leave⟩

/-- The lines of a loop in front of its body. -/
theorem wovenLines_guards (hu : CasesKeepLetters u) {condition : Text} (h : Woven condition)
    (stmtId : Text) :
    AllWoven [.declareGuard (loopGuard u stmtId), .openWhile condition,
      .checkGuard (loopGuard u stmtId), .throwGuard stmtId, .close] := by
  have hguard := isName_loopGuard u hu stmtId
  simp only [AllWoven, List.forall_mem_cons, List.not_mem_nil, false_imp_iff, implies_true,
    and_true]
  refine ⟨⟨by simp, ?_⟩, ⟨by simp, ?_⟩, ⟨by simp, ?_⟩, ⟨by simp, ?_⟩, wovenLine_close⟩
  · exact ((woven_word .int).name hguard).word .fromZero
  · exact ((woven_word .whileNot).append h).word .openLoop
  · exact ((((woven_word .ifCounted).name hguard).word .greater).name
      (isName_natText loopGuardLimit)).word .openBlock
  · exact ((woven_word .throwWord).literal_before _).word .endCall

/-- The increments kept for the ends of loops are woven. -/
def FramesWoven (frames : List BlockFrame) : Prop :=
  ∀ frame ∈ frames, ∀ line ∈ frame.incrementLine, WovenLine line

theorem FramesWoven.tail {frame : BlockFrame} {rest : List BlockFrame}
    (h : FramesWoven (frame :: rest)) : FramesWoven rest :=
  fun other hother => h other (List.mem_cons_of_mem _ hother)

theorem FramesWoven.cons {frame : BlockFrame} {rest : List BlockFrame}
    (hframe : ∀ line ∈ frame.incrementLine, WovenLine line) (h : FramesWoven rest) :
    FramesWoven (frame :: rest) :=
  List.forall_mem_cons.mpr ⟨hframe, h⟩

structure StepWoven (step : BlockStep) : Prop where
  frames : FramesWoven step.frames
  lines : AllWoven step.lines

theorem stepWoven_onTop {kind : BlockKind} {frames : List BlockFrame}
    {hit : BlockFrame → List BlockFrame → BlockStep} {miss : BlockStep}
    (hhit : ∀ frame rest, frames = frame :: rest → StepWoven (hit frame rest))
    (hmiss : StepWoven miss) : StepWoven (onTop kind frames hit miss) := by
  cases frames with
  | nil => exact hmiss
  | cons frame rest =>
      unfold onTop
      dsimp only
      split
      · exact hhit frame rest rfl
      · exact hmiss

theorem stepWoven_mismatch {source : Source} {description : Text} {frames : List BlockFrame}
    (h : FramesWoven frames) : StepWoven (mismatchStep fields source description frames) :=
  ⟨h, wovenLines_singleton (wovenLine_assumption _ _)⟩

theorem wovenLines_start (hfields : FieldsNamed fields) (source : Source) :
    AllWoven (startLines u fields source) := by
  have hsite : FieldsNamed (source.site fields).fields := hfields
  unfold startLines performStart varyingReference
  rw [value_bind]
  split
  · next ref href =>
      split at href
      · exact wovenLines_singleton (wovenLine_assign (woven_fieldReference u hsite href)
          (woven_numericExpression u hsite _))
      · cases href
  · exact wovenLines_nil

theorem wovenLine_increment (hfields : FieldsNamed fields) (source : Source) :
    ∀ line ∈ (performFrame u fields source).incrementLine, WovenLine line := by
  have hsite : FieldsNamed (source.site fields).fields := hfields
  intro line hline
  unfold performFrame performIncrement varyingReference at hline
  dsimp only at hline
  rw [value_bind] at hline
  split at hline
  · next ref href =>
      obtain rfl := Option.some.inj hline
      split at href
      · have href := woven_fieldReference u hsite href
        exact wovenLine_assign href
          (((href.word .increment).append (woven_numericExpression u hsite _)).word .rightParen)
      · cases href
  · cases hline

theorem stepWoven_block (hu : CasesKeepLetters u) (hfields : FieldsNamed fields)
    (source : Source) (operation : Operation) {frames : List BlockFrame} (h : FramesWoven frames) :
    StepWoven (blockStep u fields source operation frames) := by
  have hsite : FieldsNamed (source.site fields).fields := hfields
  cases operation with
  | «if» =>
      exact ⟨h.cons (by rintro _ ⟨⟩),
        wovenLines_singleton (wovenLine_openIf (woven_conditionExpression u hsite _))⟩
  | «else» =>
      apply stepWoven_onTop
      · intro frame rest hframes
        exact ⟨h, wovenLines_singleton wovenLine_openElse⟩
      · exact stepWoven_mismatch h
  | endIf =>
      apply stepWoven_onTop
      · rintro frame rest rfl
        exact ⟨h.tail, wovenLines_singleton wovenLine_close⟩
      · exact stepWoven_mismatch h
  | evaluate => exact ⟨h.cons (by rintro _ ⟨⟩), wovenLines_nil⟩
  | when =>
      apply stepWoven_onTop
      · rintro frame rest rfl
        refine ⟨h.tail.cons (h frame List.mem_cons_self), wovenLines_singleton ?_⟩
        have hcondition := woven_evaluateCondition u hsite (frame.selector.getD [])
          (whenValue source)
        unfold armLine
        split
        · split
          · exact wovenLine_openElse
          · exact wovenLine_openElseIf hcondition
        · split
          · exact wovenLine_always
          · exact wovenLine_openIf hcondition
      · exact stepWoven_mismatch h
  | endEvaluate =>
      apply stepWoven_onTop
      · rintro frame rest rfl
        refine ⟨h.tail, ?_⟩
        dsimp only
        split
        · exact wovenLines_singleton wovenLine_close
        · exact wovenLines_nil
      · exact stepWoven_mismatch h
  | perform =>
      exact ⟨h.cons (wovenLine_increment u hfields source),
        wovenLines_append (wovenLines_start u hfields source)
          (wovenLines_guards u hu (woven_conditionExpression u hsite _) _)⟩
  | endPerform =>
      apply stepWoven_onTop
      · rintro frame rest rfl
        refine ⟨h.tail, wovenLines_append ?_ (wovenLines_singleton wovenLine_close)⟩
        intro line hline
        exact h frame List.mem_cons_self line (by simpa using hline)
      · exact stepWoven_mismatch h
  | _ => exact ⟨h, wovenLines_singleton wovenLine_leave⟩

/-! Statements. -/

/-- A statement writes its comment, which is safe when the statement is harmless,
and woven lines behind it. -/
structure Commented (operation : Operation) (source : Source) (lines : List JavaLine) : Prop where
  split : ∃ text rest, lines = .comment text :: rest ∧ AllWoven rest ∧
    (LineSafe (' ' :: text) ↔ StatementHarmless operation source)

theorem commented_head {operation : Operation} {source : Source} {word : Text}
    {rest : List JavaLine} (hrest : AllWoven rest)
    (hparagraph : operation ≠ .paragraph)
    (hword : LineSafe word ↔ ∀ text, operation = .unsupported text → LineSafe text) :
    Commented operation source (headComment word source :: rest) := by
  refine ⟨_, rest, rfl, hrest, ?_⟩
  rw [lineSafe_headComment, hword]
  constructor
  · rintro ⟨hoperation, hid⟩
    exact ⟨hid, fun h => absurd h hparagraph, hoperation⟩
  · intro h
    exact ⟨h.operation, h.stmtId⟩

theorem commented_word {operation : Operation} {source : Source} {word : Text}
    {rest : List JavaLine} (hrest : AllWoven rest) (hparagraph : operation ≠ .paragraph)
    (hsupported : ∀ text, operation ≠ .unsupported text) (hback : '\\' ∉ word)
    (hend : word.any isLineEnd = false) :
    Commented operation source (headComment word source :: rest) :=
  commented_head hrest hparagraph
    (iff_of_true (lineSafe_plain hback hend) fun text h => absurd h (hsupported text))

theorem commented_leaf (hfields : FieldsNamed fields) {source : Source} {operation : Operation}
    {lines : Emits (List JavaLine)} (h : leafLines u fields source operation = some lines) :
    Commented operation source lines.value := by
  have hsite : FieldsNamed (source.site fields).fields := hfields
  cases operation with
  | paragraph =>
      obtain rfl := Option.some.inj h
      refine ⟨_, [], rfl, wovenLines_nil, ?_⟩
      rw [lineSafe_paragraphComment]
      constructor
      · rintro ⟨hname, hid⟩
        exact ⟨hid, fun _ => hname, nofun⟩
      · intro h
        exact ⟨h.paragraphName rfl, h.stmtId⟩
  | display =>
      obtain rfl := Option.some.inj h
      exact commented_word (wovenLines_display u hsite _) nofun nofun (by decide) (by decide)
  | move =>
      obtain rfl := Option.some.inj h
      exact commented_word (wovenLines_move u hsite _) nofun nofun (by decide) (by decide)
  | compute =>
      obtain rfl := Option.some.inj h
      exact commented_word (wovenLines_compute u hsite _) nofun nofun (by decide) (by decide)
  | add =>
      obtain rfl := Option.some.inj h
      exact commented_word (wovenLines_add u hsite _) nofun nofun (by decide) (by decide)
  | subtract =>
      obtain rfl := Option.some.inj h
      exact commented_word (wovenLines_subtract u hsite _) nofun nofun (by decide) (by decide)
  | multiply =>
      obtain rfl := Option.some.inj h
      exact commented_word (wovenLines_multiply u hsite _) nofun nofun (by decide) (by decide)
  | divide =>
      obtain rfl := Option.some.inj h
      exact commented_word (wovenLines_divide u hsite _) nofun nofun (by decide) (by decide)
  | unsupported operation =>
      obtain rfl := Option.some.inj h
      refine commented_head (wovenLines_singleton (wovenLine_assumption _ _)) nofun ?_
      constructor
      · rintro hoperation text ⟨⟩
        exact hoperation
      · intro hall
        exact hall operation rfl
  | «if» | «else» | endIf | evaluate | when | endEvaluate | perform | endPerform | stop =>
      contradiction

theorem commented_block (hu : CasesKeepLetters u) (hfields : FieldsNamed fields)
    {source : Source} {operation : Operation} {frames : List BlockFrame} (h : FramesWoven frames)
    (hleaf : leafLines u fields source operation = none) :
    Commented operation source
      (blockComment source operation :: (blockStep u fields source operation frames).lines) := by
  have hlines := (stepWoven_block u hu hfields source operation h).lines
  cases operation with
  | «if» => exact commented_word hlines nofun nofun (by decide) (by decide)
  | «else» => exact commented_word hlines nofun nofun (by decide) (by decide)
  | endIf => exact commented_word hlines nofun nofun (by decide) (by decide)
  | evaluate => exact commented_word hlines nofun nofun (by decide) (by decide)
  | when => exact commented_word hlines nofun nofun (by decide) (by decide)
  | endEvaluate => exact commented_word hlines nofun nofun (by decide) (by decide)
  | perform => exact commented_word hlines nofun nofun (by decide) (by decide)
  | endPerform => exact commented_word hlines nofun nofun (by decide) (by decide)
  | stop => exact commented_word hlines nofun nofun (by decide) (by decide)
  | paragraph | display | move | compute | add | subtract | multiply | divide | unsupported =>
      contradiction

/-- What a statement writes, at any depth of blocks. -/
theorem commented_statement (hu : CasesKeepLetters u) (hfields : FieldsNamed fields)
    (statement : IrStatement) {frames : List BlockFrame} (h : FramesWoven frames) :
    FramesWoven (statementStep u fields statement frames).frames ∧
      Commented (operationOf u statement) (sourceOf statement)
        (statementStep u fields statement frames).lines := by
  unfold statementStep
  cases hleaf : leafLines u fields (sourceOf statement) (operationOf u statement) with
  | some lines => exact ⟨h, commented_leaf u hfields hleaf⟩
  | none =>
      exact ⟨(stepWoven_block u hu hfields _ _ h).frames, commented_block u hu hfields h hleaf⟩

/-- A line whose place in the file is as it should be. -/
def LineHarmless : JavaLine → Prop
  | .comment text => LineSafe (' ' :: text)
  | _ => True

/-- Lines that are comments or woven. -/
def CommentsAndCode (lines : List JavaLine) : Prop :=
  ∀ line ∈ lines, (∃ text, line = .comment text) ∨ WovenLine line

theorem lineHarmless_of_woven {line : JavaLine} (h : WovenLine line) : LineHarmless line := by
  cases line with
  | comment text => exact absurd rfl (h.code text)
  | _ => trivial

/-- The lines of a run of statements are harmless when the statements are. -/
theorem statements_harmless_iff (hu : CasesKeepLetters u) (hfields : FieldsNamed fields)
    (statements : List IrStatement) {frames : List BlockFrame} (h : FramesWoven frames) :
    CommentsAndCode (stepsFrom u fields statements frames).lines ∧
      ((∀ line ∈ (stepsFrom u fields statements frames).lines, LineHarmless line) ↔
        ∀ statement ∈ statements,
          StatementHarmless (operationOf u statement) (sourceOf statement)) := by
  induction statements generalizing frames with
  | nil => exact ⟨by rintro _ ⟨⟩, by simp [stepsFrom]⟩
  | cons statement statements ih =>
      obtain ⟨hframes, ⟨text, rest, hlines, hwoven, hsafe⟩⟩ :=
        commented_statement u hu hfields statement h
      obtain ⟨hcode, hharmless⟩ := ih hframes
      constructor
      · intro line hline
        rw [stepsFrom, hlines] at hline
        rcases List.mem_append.mp hline with hline | hline
        · rcases List.mem_cons.mp hline with rfl | hline
          · exact .inl ⟨text, rfl⟩
          · exact .inr (hwoven line hline)
        · exact hcode line hline
      · have hrest : ∀ line ∈ rest, LineHarmless line := fun line hline =>
          lineHarmless_of_woven (hwoven line hline)
        rw [stepsFrom, List.forall_mem_append, List.forall_mem_cons, hharmless, hlines,
          List.forall_mem_cons, and_iff_left hrest, ← hsafe]
        exact Iff.rfl

theorem body_harmless_iff (hu : CasesKeepLetters u) (hfields : FieldsNamed fields)
    (statements : List IrStatement) :
    CommentsAndCode (generateBody u fields statements).lines ∧
      ((∀ line ∈ (generateBody u fields statements).lines, LineHarmless line) ↔
        ∀ statement ∈ statements,
          StatementHarmless (operationOf u statement) (sourceOf statement)) := by
  obtain ⟨hcode, hharmless⟩ :=
    @statements_harmless_iff u fields hu hfields statements [] (by rintro _ ⟨⟩)
  have hclosing : ∀ line ∈ (stepsFrom u fields statements []).frames.flatMap closingLines,
      line = .close := by
    intro line hline
    obtain ⟨frame, -, hline⟩ := List.mem_flatMap.mp hline
    unfold closingLines at hline
    split at hline
    · cases hline
    · exact List.mem_singleton.mp hline
  rw [generateBody_lines]
  constructor
  · intro line hline
    rcases List.mem_append.mp hline with hline | hline
    · exact hcode line hline
    · exact .inr (hclosing line hline ▸ wovenLine_close)
  · rw [List.forall_mem_append, hharmless]
    exact and_iff_left fun line hline => hclosing line hline ▸ trivial

end Blocks

/-! The file. -/

section Files

variable (u : UnicodeData)

def lineChunks (line : CodeLine) : List Chunk :=
  match line.line with
  | .comment text => [.code (repeatText line.indent "    ".toList), .lineComment (' ' :: text)]
  | _ => [.code (line.text ++ ['\n'])]

/-- The code and the comments the generated file is made of. -/
def classChunks (parts : ClassParts) : List Chunk :=
  [.code ("package ".toList ++ parts.packageName ++ importLines),
    .blockComment (headerText parts), .code (classHead parts ++ classMembers u parts)] ++
  (if parts.runBody.isEmpty then [.code "        ".toList, .lineComment emptyBodyComment]
    else parts.runBody.flatMap lineChunks) ++
  [.code (classEnd parts)]

/-- The file's code is woven from the generator's words, names and literals, and
the reader of Java tells its comments from it as the generator does. -/
structure Confined (ir : ObjectMap) : Prop where
  woven : ∀ s, .code s ∈ classChunks u (classParts u ir) → Woven s
  split : lex (javaSource u ir) =
    some ((classChunks u (classParts u ir)).flatMap Chunk.elements)

/-- The ids in the Javadoc do not end it, and what of a statement goes into its
comment unescaped does not end that. -/
structure Harmless (ir : ObjectMap) : Prop where
  irId : BlockSafe (classParts u ir).irId
  programId : BlockSafe (classParts u ir).programId
  sourceHash : BlockSafe (classParts u ir).sourceHash
  statements : ∀ statement ∈ irStatements ir,
    StatementHarmless (operationOf u statement) (sourceOf statement)

theorem lineChunks_text (line : CodeLine) :
    (lineChunks line).flatMap Chunk.text = line.text ++ ['\n'] := by
  obtain ⟨indent, line⟩ := line
  cases line with
  | comment text =>
      unfold lineChunks
      rw [List.flatMap_cons, List.flatMap_cons, List.flatMap_nil, List.append_nil, CodeLine.text,
        List.append_assoc]
      rfl
  | _ => simp only [lineChunks, List.flatMap_cons, List.flatMap_nil, Chunk.text, List.append_nil]

theorem classChunks_text (parts : ClassParts) :
    (classChunks u parts).flatMap Chunk.text = renderJavaClass u parts := by
  have hbody : (parts.runBody.flatMap lineChunks).flatMap Chunk.text =
      parts.runBody.flatMap fun line => line.text ++ ['\n'] := by
    rw [List.flatMap_assoc]
    exact congrArg (List.flatMap · _) (funext lineChunks_text)
  unfold classChunks renderJavaClass
  split
  · simp [Chunk.text]
  · rw [List.flatMap_append, List.flatMap_append, hbody]
    simp [Chunk.text]

/-- The Javadoc is one comment exactly when each id in it leaves it so. -/
theorem headerText_safe_iff (parts : ClassParts) :
    BlockSafe (headerText parts) ↔
      BlockSafe parts.irId ∧ BlockSafe parts.programId ∧ BlockSafe parts.sourceHash := by
  have htext : headerText parts =
      (headerLines ++ " * IR id:".toList) ++ ' ' :: (parts.irId ++ '\n' ::
        (" * Program id:".toList ++ ' ' :: (parts.programId ++ '\n' ::
          (" * Source hash:".toList ++ ' ' :: (parts.sourceHash ++ '\n' :: [' ']))))) := by
    simp [headerText]
  have hend : BlockSafe [' '] := ⟨[' '], translate_self (by decide), not_endMarked_singleton ' '⟩
  have hhole (before : Text) (hback : '\\' ∉ before) (hmark : contains before ['*', '/'] = false)
      (hole after : Text) :
      BlockSafe (before ++ ' ' :: (hole ++ '\n' :: after)) ↔ BlockSafe hole ∧ BlockSafe after := by
    apply blockSafe_hole hback
    intro hmarked
    rw [(contains_iff_endMarked before).mpr hmarked] at hmark
    cases hmark
  rw [htext, hhole _ (by decide +kernel) (by decide +kernel), hhole _ (by decide) (by decide),
    hhole _ (by decide) (by decide), and_iff_left hend]

/-! The code around the body. -/

theorem isName_className (hu : CasesKeepLetters u) (programId : Text) :
    IsName (toClassName u programId) := by
  have hletters : ∀ (t : Text) (upper : Bool), IsName (classLetters u upper t) := by
    intro t
    induction t with
    | nil => exact fun _ => rfl
    | cons c t ih =>
        intro upper
        rw [classLetters]
        split
        · next hletter =>
            obtain ⟨hupper, hlower⟩ := hu c hletter
            have hpart : IsName [if upper then u.charUpper c else u.charLower c] := by
              rw [IsName, List.all_cons, List.all_nil, Bool.and_true]
              split
              · exact isNamePart_of_letterOrDigit u hupper
              · exact isNamePart_of_letterOrDigit u hlower
            exact isName_append hpart (ih false)
        · exact ih true
  have hprogram : IsName "Program".toList := by
    rw [IsName]
    decide
  have hletter : IsName ['P'] := rfl
  unfold toClassName
  split
  · exact hprogram
  · have hname := hletters programId true
    split
    · next c t heq =>
        rw [heq] at hname
        split
        · exact hname
        · exact isName_append hletter hname
    · exact hletter

theorem woven_packageName (programId : Text) : Woven (packageFor u programId) := by
  have hprogram : IsName "program".toList := by
    rw [IsName]
    decide
  unfold packageFor
  dsimp only
  apply Woven.append (woven_word .packagePrefix)
  split
  · exact woven_name hprogram
  · apply woven_name
    refine List.all_eq_true.mpr fun c hc => ?_
    have hkept := (List.mem_filter.mp hc).2
    simp only [Bool.or_eq_true, Bool.and_eq_true, decide_eq_true_eq] at hkept
    rcases hkept with hkept | hkept
    · have hlower : c.isLower = true := by
        simpa [Char.isLower, Char.le_def] using hkept
      simp [isNamePart, Char.isAlphanum, Char.isAlpha, hlower]
    · have hdigit : c.isDigit = true := by
        simpa [Char.isDigit, isDigitAscii, Char.le_def] using hkept
      simp [isNamePart, Char.isAlphanum, hdigit]

theorem woven_classHead {parts : ClassParts} (h : IsName parts.className) :
    Woven (classHead parts) := by
  unfold classHead
  apply Expression.word _ .constants
  apply Woven.literal_before
  apply Expression.word _ .sourceHashConstant
  apply Woven.literal_before
  apply Expression.word _ .irIdConstant
  apply Woven.literal_before
  exact ((woven_word .publicClass).name h).word .programIdConstant

theorem woven_choice {b : Bool} {s t : Text} (hs : IsWord s) (ht : IsWord t) :
    Woven (if b then s else t) := by
  cases b
  · exact woven_word ht
  · exact woven_word hs

theorem woven_fieldDeclaration {field : FieldEmission} (h : IsName field.fieldVar) :
    Woven (fieldDeclaration field) :=
  ((((woven_word .privateFinal).append (woven_choice .fieldArray .field)).name h).word
    .endLine)

theorem woven_fieldCreation {field : FieldEmission} (h : IsName field.fieldVar) :
    Woven (fieldCreation field) := by
  have hpicture {creation : Text} (hcreation : IsWord creation) :
      Expression ("        this.".toList ++ field.fieldVar ++ creation ++
        javaStringLiteral field.cobolName ++ ", ".toList ++ javaStringLiteral field.irNodeId ++
        ", PictureSpec.parse(".toList ++ javaStringLiteral field.picture) := by
    apply Woven.literal_before
    apply Expression.word _ .parsePicture
    apply Woven.literal_before
    apply Expression.word _ .comma
    apply Woven.literal_before
    exact ((woven_word .thisField).name h).word hcreation
  unfold fieldCreation
  cases field.array with
  | true =>
      have harray := (((hpicture IsWord.newFieldArray).word
        IsWord.beforeOccurs).append (woven_intText field.occurs)).word
        IsWord.endCallLine
      simpa only [if_true, List.append_assoc] using harray
  | false =>
      have hscalar := (hpicture IsWord.newField).word
        IsWord.endCreation
      simpa only [Bool.false_eq_true, if_false, List.append_assoc] using hscalar

theorem woven_fieldInitialization {field : FieldEmission} (h : IsName field.fieldVar) :
    Woven (fieldInitialization u field) := by
  have hthis := (woven_word IsWord.thisField).name h
  unfold fieldInitialization
  split
  · exact .nil
  · split
    · exact ((hthis.append (woven_choice .setNumericValueToAll .setNumericValue)).append
        (woven_decimalLiteral _)).word .endCallLine
    · exact ((hthis.append (woven_choice .moveLiteralToAll .moveLiteral)).literal_before _).word
        .endCallLine

theorem woven_classMembers {parts : ClassParts} (hname : IsName parts.className)
    (hfields : ∀ field ∈ parts.fields, IsName field.fieldVar) :
    Woven (classMembers u parts) := by
  unfold classMembers
  apply Expression.word _ .run
  apply Woven.literal_before
  apply Woven.word _ .suppressWarnings
  apply Woven.word _ .accessor
  apply Woven.append _ (woven_flatMap _ fun field hfield =>
    woven_fieldInitialization u (hfields field hfield))
  apply Woven.append _ (woven_flatMap _ fun field hfield => woven_fieldCreation (hfields field hfield))
  apply Woven.word _ .constructorHead
  apply Woven.name _ hname
  exact (woven_flatMap _ fun field hfield => woven_fieldDeclaration (hfields field hfield)).word
    .publicConstructor

theorem woven_classEnd {parts : ClassParts} (h : IsName parts.className) :
    Woven (classEnd parts) :=
  ((woven_word .main).name h).word .runCall

theorem fieldsNamed_materialise (hu : CasesKeepLetters u) (layouts : List ObjectMap) :
    FieldsNamed (materialise u layouts).value := by
  have hput {fields : Fields} (h : FieldsNamed fields) (name : Text) {field : FieldEmission}
      (hfield : IsName field.fieldVar) : FieldsNamed (fields.put name field) := by
    intro entry hentry
    unfold Fields.put at hentry
    split at hentry
    · obtain ⟨old, hold, rfl⟩ := List.mem_map.mp hentry
      split
      · exact hfield
      · exact h old hold
    · rcases List.mem_append.mp hentry with hentry | hentry
      · exact h entry hentry
      · obtain rfl := List.mem_singleton.mp hentry
        exact hfield
  have hstep {fields : Fields} (h : FieldsNamed fields) (layout : ObjectMap) :
      FieldsNamed (materialiseLayout u fields layout).value := by
    unfold materialiseLayout
    dsimp only
    split
    · exact h
    · split
      · exact h
      · exact hput h _ (isName_javaIdentifier u hu _)
  have hrun : ∀ fields : Fields, FieldsNamed fields →
      FieldsNamed (layouts.foldlM (materialiseLayout u) fields).value := by
    induction layouts with
    | nil => exact fun fields h => h
    | cons layout layouts ih =>
        intro fields h
        rw [List.foldlM_cons, value_bind]
        exact ih _ (hstep h layout)
  exact hrun [] (by rintro _ ⟨⟩)

/-- The code of the file is woven. -/
theorem woven_classChunks (hu : CasesKeepLetters u) (ir : ObjectMap) :
    ∀ s, .code s ∈ classChunks u (classParts u ir) → Woven s := by
  have hfields := fieldsNamed_materialise u hu (mapList (get "fieldLayouts".toList ir))
  have hname : IsName (classParts u ir).className := isName_className u hu _
  have hnames : ∀ field ∈ (classParts u ir).fields, IsName field.fieldVar := by
    intro field hfield
    obtain ⟨entry, hentry, rfl⟩ := List.mem_map.mp hfield
    exact hfields entry hentry
  have hbody := (body_harmless_iff u hu hfields (irStatements ir)).1
  have hlines : ∀ line ∈ (classParts u ir).runBody, ∀ s, .code s ∈ lineChunks line → Woven s := by
    intro line hline s hs
    have hkind := hbody line.line (List.mem_map_of_mem hline)
    have hindent := woven_repeat IsWord.indent line.indent
    obtain ⟨indent, line⟩ := line
    rcases hkind with ⟨text, rfl⟩ | hwoven
    · have hcode : Chunk.code s = .code (repeatText indent "    ".toList) := by
        simpa [lineChunks] using hs
      exact Chunk.code.inj hcode ▸ hindent
    · have hcode : Chunk.code s = .code (CodeLine.text ⟨indent, line⟩ ++ ['\n']) := by
        cases line with
        | comment text => exact absurd rfl (hwoven.code text)
        | _ => exact List.mem_singleton.mp hs
      exact Chunk.code.inj hcode ▸ (hindent.append hwoven.woven).word .lineEnd
  intro s hs
  unfold classChunks at hs
  rcases List.mem_append.mp hs with hs | hs
  · rcases List.mem_append.mp hs with hs | hs
    · simp only [List.mem_cons, Chunk.code.injEq, reduceCtorEq, List.not_mem_nil, or_false,
        false_or] at hs
      rcases hs with rfl | rfl
      · exact ((woven_word .package).append (woven_packageName u _)).word .imports
      · exact (woven_classHead hname).append (woven_classMembers u hname hnames)
    · split at hs
      · simp only [List.mem_cons, Chunk.code.injEq, reduceCtorEq, List.not_mem_nil, or_false] at hs
        subst hs
        exact woven_word .commentIndent
      · obtain ⟨line, hline, hs⟩ := List.mem_flatMap.mp hs
        exact hlines line hline s hs
  · obtain rfl := Chunk.code.inj (List.mem_singleton.mp hs)
    exact woven_classEnd hname

theorem emptyBodyComment_safe : LineSafe emptyBodyComment :=
  lineSafe_plain (by decide) (by decide)

/-- The chunks of the body are safe when its lines are harmless. -/
theorem lineChunks_safe_iff {line : CodeLine}
    (h : ∀ s, .code s ∈ lineChunks line → Woven s) :
    (∀ chunk ∈ lineChunks line, chunk.Safe) ↔ LineHarmless line.line := by
  obtain ⟨indent, line⟩ := line
  cases line with
  | comment text =>
      have hindent := woven_lexes (h _ List.mem_cons_self)
      unfold lineChunks
      rw [List.forall_mem_cons, List.forall_mem_singleton]
      exact and_iff_right hindent
  | _ =>
      refine iff_of_true (fun chunk hchunk => ?_) trivial
      obtain rfl := List.mem_singleton.mp hchunk
      exact woven_lexes (h _ List.mem_cons_self)

/-- The chunks of the file are safe when the document is harmless. -/
theorem chunks_safe_iff (hu : CasesKeepLetters u) (ir : ObjectMap) :
    (∀ chunk ∈ classChunks u (classParts u ir), chunk.Safe) ↔ Harmless u ir := by
  have hwoven := woven_classChunks u hu ir
  have hfields := fieldsNamed_materialise u hu (mapList (get "fieldLayouts".toList ir))
  have hlines : (∀ line ∈ (classParts u ir).runBody, LineHarmless line.line) ↔
      ∀ statement ∈ irStatements ir,
        StatementHarmless (operationOf u statement) (sourceOf statement) := by
    rw [← (body_harmless_iff u hu hfields (irStatements ir)).2]
    exact List.forall_mem_map.symm
  have hbody : (∀ chunk ∈ (if (classParts u ir).runBody.isEmpty then
        [.code "        ".toList, .lineComment emptyBodyComment]
        else (classParts u ir).runBody.flatMap lineChunks), chunk.Safe) ↔
      ∀ line ∈ (classParts u ir).runBody, LineHarmless line.line := by
    split
    · next hempty =>
        rw [List.isEmpty_iff.mp hempty]
        refine iff_of_true ?_ (by rintro _ ⟨⟩)
        rw [List.forall_mem_cons, List.forall_mem_singleton]
        exact ⟨woven_lexes (woven_word .commentIndent), emptyBodyComment_safe⟩
    · next hfilled =>
        have hline (line : CodeLine) (hmem : line ∈ (classParts u ir).runBody) :
            (∀ chunk ∈ lineChunks line, chunk.Safe) ↔ LineHarmless line.line := by
          apply lineChunks_safe_iff
          intro s hs
          apply hwoven s
          unfold classChunks
          rw [if_neg hfilled]
          exact List.mem_append_left _ (List.mem_append_right _
            (List.mem_flatMap.mpr ⟨line, hmem, hs⟩))
        rw [List.forall_mem_flatMap]
        exact forall₂_congr hline
  constructor
  · intro h
    unfold classChunks at h
    rw [List.forall_mem_append, List.forall_mem_append, hbody, hlines] at h
    obtain ⟨hir, hprogram, hhash⟩ := (headerText_safe_iff _).mp
      (h.1.1 (.blockComment (headerText (classParts u ir))) (by simp))
    exact ⟨hir, hprogram, hhash, h.1.2⟩
  · intro h chunk hchunk
    have hbodySafe := hbody.mpr (hlines.mpr h.statements)
    cases chunk with
    | code s => exact woven_lexes (hwoven s hchunk)
    | lineComment t =>
        unfold classChunks at hchunk
        simp only [List.mem_append, List.mem_cons, reduceCtorEq, List.not_mem_nil, or_false,
          false_or] at hchunk
        exact hbodySafe _ hchunk
    | blockComment t =>
        unfold classChunks at hchunk
        simp only [List.mem_append, List.mem_cons, Chunk.blockComment.injEq, reduceCtorEq,
          List.not_mem_nil, or_false, false_or] at hchunk
        rcases hchunk with rfl | hchunk
        · exact (headerText_safe_iff _).mpr ⟨h.irId, h.programId, h.sourceHash⟩
        · exact hbodySafe _ hchunk

/-- The file falls into its chunks when they are safe. -/
theorem split_iff_safe (hu : CasesKeepLetters u) (ir : ObjectMap) :
    lex (javaSource u ir) = some ((classChunks u (classParts u ir)).flatMap Chunk.elements) ↔
      ∀ chunk ∈ classChunks u (classParts u ir), chunk.Safe := by
  rw [javaSource, ← classChunks_text]
  exact lex_chunks_iff fun s hs => woven_lexes (woven_classChunks u hu ir s hs)

theorem ascii_casesKeepLetters : CasesKeepLetters .ascii := by
  intro c hc
  have hascii : c.toNat < 128 := by
    have hrange : c.isAlpha = true ∨ isDigitAscii c = true := Bool.or_eq_true .. ▸ hc
    have hval : c.val.toNat = c.toNat := rfl
    simp only [Char.isAlpha, Char.isUpper, Char.isLower, isDigitAscii, Bool.or_eq_true,
      Bool.and_eq_true, decide_eq_true_eq, Char.le_def, UInt32.le_iff_toNat_le] at hrange
    have hz : 'z'.val.toNat = 122 := rfl
    have hZ : 'Z'.val.toNat = 90 := rfl
    have h9 : '9'.val.toNat = 57 := rfl
    omega
  have hall := of_ascii (p := fun c => !UnicodeData.ascii.isLetterOrDigit c ||
    (UnicodeData.ascii.isLetterOrDigit c.toUpper && UnicodeData.ascii.isLetterOrDigit c.toLower))
    (by decide) hascii
  rw [hc, Bool.not_true, Bool.false_or, Bool.and_eq_true] at hall
  exact hall

def sampleIr (irId : String) : ObjectMap :=
  [("schemaVersion".toList, .str "v0".toList), ("irId".toList, .str irId.toList),
    ("programId".toList, .str "PROG".toList), ("sourceHash".toList, .str "abc".toList),
    ("sourceKind".toList, .str "cobol".toList), ("fieldLayouts".toList, .list []),
    ("statements".toList, .list [.map [
      ("id".toList, .str "S1".toList), ("operation".toList, .str "display".toList),
      ("raw".toList, .str "DISPLAY \"*/ \\u0022\"".toList),
      ("operands".toList, .map [("items".toList, .list [.str "\"*/ \\u0022\"".toList])])]])]

end Files

end C2c.TargetJava.ConfinedTexts
