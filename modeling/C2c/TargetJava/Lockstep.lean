import C2c.TargetJava.BlockSteps

namespace C2c.TargetJava.Lockstep

open C2c.Library.JavaText
open C2c.Library.JavaObject
open C2c.CobolParser.Model
open C2c.CobolParser.Tokens
open C2c.CobolParser.DataDivision
open C2c.CobolParser.Statements
open C2c.CobolParser.Parse
open C2c.SemanticIr.Statements
open C2c.TargetJava.Literals
open C2c.TargetJava.References
open C2c.TargetJava.LeafStatements
open C2c.TargetJava.Generation
open C2c.TargetJava.BlockSteps

def kindOf : BlockKind → Kind
  | .if => .if
  | .evaluate => .evaluate
  | .perform => .perform

/-- The frames of the generator as blocks of the parser. -/
def asBlocks (frames : List BlockFrame) : List Block :=
  frames.map fun frame => ⟨kindOf frame.kind, frame.stmtId⟩

def operationOfKind : Kind → Operation
  | .endIf => .endIf
  | .endEvaluate => .endEvaluate
  | .endPerform => .endPerform
  | .else => .else
  | .if => .if
  | .evaluate => .evaluate
  | .when => .when
  | .perform => .perform
  | .move => .move
  | .display => .display
  | .compute => .compute
  | .add => .add
  | .subtract => .subtract
  | .multiply => .multiply
  | .divide => .divide
  | .call => .unsupported ['c', 'a', 'l', 'l']
  | .stop => .stop
  | .paragraph => .paragraph

theorem toLowerCase_kind (u : UnicodeData) (kind : Kind) :
    u.toLowerCase kind.text = kind.text.map Char.toLower := by
  apply u.toLowerCase_ascii
  cases kind <;> decide

theorem text_kind (kind : Kind) : text (.str kind.text) "UNKNOWN".toList = kind.text := by
  cases kind <;> decide +kernel

theorem readOperation_kind (kind : Kind) :
    readOperation (string (.str (kind.text.map Char.toLower)) "unknown".toList) =
      operationOfKind kind := by
  cases kind <;> decide +kernel

theorem toLowerCase_again (u : UnicodeData) (kind : Kind) :
    u.toLowerCase (string (.str (kind.text.map Char.toLower)) "unknown".toList) =
      string (.str (kind.text.map Char.toLower)) "unknown".toList := by
  rw [u.toLowerCase_ascii]
  · cases kind <;> decide +kernel
  · cases kind <;> decide +kernel

/-- The generator reads the operation the parser's kind stands for. -/
theorem operationOf_normalizeStatement (u : UnicodeData) (statement : Statement) :
    operationOf u (normalizeStatement u statement) = operationOfKind statement.kind := by
  unfold operationOf normalizeStatement
  dsimp only
  rw [text_kind, toLowerCase_kind, toLowerCase_again, readOperation_kind]

theorem isTrimmed_hash {c : Char} {value : Text} (h : c ∈ shortHash value) :
    isTrimmed c = false := by
  have hdigits : ['0', '1', '2', '3', '4', '5', '6', '7', '8', '9', 'a', 'b', 'c', 'd', 'e',
      'f'].all (fun d => !isTrimmed d) = true := by decide
  have hc := C2c.Library.Sha256.mem_sha256Hex (List.mem_of_mem_take h)
  simpa using List.all_eq_true.mp hdigits c hc

/-- An id has no blanks to trim. -/
theorem string_id (token value : Text) :
    string (.str ("s-".toList ++ token ++ ['-'] ++ shortHash value)) [] =
      "s-".toList ++ token ++ ['-'] ++ shortHash value := by
  have hcons : "s-".toList ++ token ++ ['-'] ++ shortHash value =
      's' :: ('-' :: token ++ '-' :: shortHash value) := by simp
  have htrim : trim ('s' :: ('-' :: token ++ '-' :: shortHash value)) =
      's' :: ('-' :: token ++ '-' :: shortHash value) := by
    apply trim_eq_self
    · rintro c ⟨⟩
      decide
    · intro c hc
      rw [List.getLast?_cons, List.getLast?_append, List.getLast?_cons] at hc
      have hmem : c ∈ '-' :: shortHash value := by
        cases hlast : (shortHash value).getLast? with
        | none =>
            rw [hlast] at hc
            obtain rfl : '-' = c := by simpa using hc
            exact List.mem_cons_self
        | some d =>
            rw [hlast] at hc
            obtain rfl : d = c := by simpa using hc
            exact List.mem_cons_of_mem _ (List.mem_of_getLast? hlast)
      rcases List.mem_cons.mp hmem with rfl | hmem
      · decide
      · exact isTrimmed_hash hmem
  rw [hcons]
  simp only [string, textOr, Value.toText, Value.isNull, htrim, Bool.false_or]
  rw [if_neg]
  simp [isBlank, show isWhitespace 's' = false by decide]

/-- What a statement makes of the generator's frames, seen as blocks. -/
def framesAfter (kind : Kind) (id : Text) (blocks : List Block) : List Block :=
  match kind with
  | .if | .evaluate | .perform => ⟨kind, id⟩ :: blocks
  | .endIf | .endEvaluate | .endPerform =>
      match blocks with
      | block :: rest => if closes block.kind kind then rest else blocks
      | [] => []
  | _ => blocks

theorem asBlocks_onTop {kind : BlockKind} {end_ : Kind} {frames : List BlockFrame}
    {lines : BlockFrame → List BlockFrame → List JavaLine} {miss : List JavaLine}
    (hcloses : ∀ other, closes (kindOf other) end_ = decide (other = kind)) :
    asBlocks (onTop kind frames (fun frame rest => ⟨rest, lines frame rest⟩)
        ⟨frames, miss⟩ : BlockStep).frames =
      match asBlocks frames with
      | block :: rest => if closes block.kind end_ then rest else asBlocks frames
      | [] => [] := by
  cases frames with
  | nil => rfl
  | cons frame rest =>
      unfold onTop
      simp only [asBlocks, List.map_cons, hcloses]
      by_cases hkind : frame.kind = kind
      · simp [hkind]
      · simp [hkind]

/-- The generator's frames go with its statements as `framesAfter` says. -/
theorem asBlocks_statementStep (u : UnicodeData) (fields : Fields) (statement : Statement)
    (hid : string (.str statement.id) [] = statement.id) (frames : List BlockFrame) :
    asBlocks (statementStep u fields (normalizeStatement u statement) frames).frames =
      framesAfter statement.kind statement.id (asBlocks frames) := by
  have hstmtId : (sourceOf (normalizeStatement u statement)).stmtId = statement.id := hid
  unfold statementStep
  rw [operationOf_normalizeStatement]
  cases hkind : statement.kind with
  | «if» => simp [operationOfKind, leafLines, blockStep, ifStep, asBlocks, framesAfter, kindOf, hstmtId]
  | evaluate =>
      simp [operationOfKind, leafLines, blockStep, evaluateFrame, asBlocks, framesAfter, kindOf,
        hstmtId]
  | perform =>
      simp [operationOfKind, leafLines, blockStep, performFrame, asBlocks, framesAfter, kindOf,
        hstmtId]
  | endIf => exact asBlocks_onTop (by rintro ⟨⟩ <;> decide)
  | endEvaluate => exact asBlocks_onTop (by rintro ⟨⟩ <;> decide)
  | endPerform => exact asBlocks_onTop (by rintro ⟨⟩ <;> decide)
  | «else» =>
      simp only [operationOfKind, leafLines, blockStep, elseStep, framesAfter, onTop]
      cases frames with
      | nil => rfl
      | cons frame rest =>
          dsimp only
          split <;> rfl
  | when =>
      simp only [operationOfKind, leafLines, blockStep, whenStep, framesAfter, onTop]
      cases frames with
      | nil => rfl
      | cons frame rest =>
          dsimp only
          split <;> rfl
  | stop => rfl
  | move => rfl
  | display => rfl
  | compute => rfl
  | add => rfl
  | subtract => rfl
  | multiply => rfl
  | divide => rfl
  | call => rfl
  | paragraph => rfl

/-- What a statement makes of the parser's blocks. -/
def blocksAfter (kind : Kind) (id : Text) (effect : StatementParse) (blocks : List Block) :
    List Block :=
  let opened := if effect.opensBlock then ⟨kind, id⟩ :: blocks else blocks
  if effect.closesBlock then opened.tail else opened

/-- A statement that closes a block meets the one it closes. -/
def ClosesWell (kind : Kind) (effect : StatementParse) (blocks : List Block) : Prop :=
  effect.closesBlock = true →
    ∃ block rest, blocks = block :: rest ∧ closes block.kind kind = true

/-- What `classifyStatement` says of blocks, kind by kind. -/
structure BlockShape (statementText : Text) (effect : StatementParse) : Prop where
  opens : effect.opensBlock =
    match effect.kind with
    | .if | .evaluate => true
    | .perform => performOpens statementText
    | _ => false
  closes : effect.closesBlock =
    match effect.kind with
    | .endIf | .endEvaluate | .endPerform => true
    | _ => false

/-- The shape of what a branch of `classifyStatement` yields. -/
def Shaped (statementText : Text) (result : Option StatementParse) : Prop :=
  ∀ effect ∈ result, BlockShape statementText effect

theorem shaped_some {statementText : Text} {effect : StatementParse}
    (h : BlockShape statementText effect) : Shaped statementText (some effect) := by
  rintro _ ⟨⟩
  exact h

theorem shaped_ite {statementText : Text} {condition : Prop} [Decidable condition]
    {yes no : Option StatementParse} (hyes : Shaped statementText yes)
    (hno : Shaped statementText no) : Shaped statementText (if condition then yes else no) := by
  split
  · exact hyes
  · exact hno

theorem arithmeticKind_cases {token : Text} {kind : Kind} (h : arithmeticKind token = some kind) :
    kind = .add ∨ kind = .subtract ∨ kind = .multiply ∨ kind = .divide := by
  unfold arithmeticKind at h
  split at h
  · exact .inl (Option.some.inj h).symm
  · split at h
    · exact .inr (.inl (Option.some.inj h).symm)
    · split at h
      · exact .inr (.inr (.inl (Option.some.inj h).symm))
      · split at h
        · exact .inr (.inr (.inr (Option.some.inj h).symm))
        · contradiction

theorem shaped_arithmetic {statementText : Text} {rest : Option StatementParse}
    (hrest : Shaped statementText rest) :
    Shaped statementText
      (match arithmeticKind (firstToken statementText) with
        | some kind => some { kind := kind, operands := parseArithmetic statementText [] }
        | none => rest) := by
  split
  · rename_i hkind
    rcases arithmeticKind_cases hkind with rfl | rfl | rfl | rfl
    all_goals exact shaped_some ⟨rfl, rfl⟩
  · exact hrest

theorem shaped_classifyStatement (statementText : Text) :
    Shaped statementText (classifyStatement statementText) := by
  unfold classifyStatement
  iterate 11 refine shaped_ite (shaped_some ⟨rfl, rfl⟩) ?_
  apply shaped_arithmetic
  iterate 3 refine shaped_ite (shaped_some ⟨rfl, rfl⟩) ?_
  rintro _ ⟨⟩

/-- The statement's text, as `parseStatement` reads it. -/
def statementText (u : UnicodeData) (statement : Statement) : Text :=
  stripTrailingPeriod (u.toUpperCase statement.raw)

def NoErrors (diagnostics : List C2c.CobolParser.Model.Diagnostic) : Prop :=
  ∀ diagnostic ∈ diagnostics, diagnostic.severity ≠ .error

theorem NoErrors.of_append {before after : List C2c.CobolParser.Model.Diagnostic}
    (h : NoErrors (before ++ after)) : NoErrors before :=
  fun diagnostic hmem => h diagnostic (List.mem_append_left after hmem)

section Parser

variable {u : UnicodeData} {s : ParserState} {statement : Statement} {effect : StatementParse}

/-- What reading a statement changes. -/
structure Stated (s s' : ParserState) (statement : Statement) (effect : StatementParse) : Prop where
  statements : s'.program.statements = s.program.statements ++ [statement]
  blocks : s'.blocks = blocksAfter statement.kind statement.id effect s.blocks
  diagnostics : ∃ more, s'.diagnostics = s.diagnostics ++ more
  closesWell : NoErrors s'.diagnostics → ClosesWell statement.kind effect s.blocks

theorem stated_closeBlock (s : ParserState) (statement : Statement) :
    (closeBlock u s statement).program.statements = s.program.statements ∧
      (closeBlock u s statement).blocks = s.blocks.tail ∧
      (∃ more, (closeBlock u s statement).diagnostics = s.diagnostics ++ more) ∧
      (NoErrors (closeBlock u s statement).diagnostics →
        ∃ block rest, s.blocks = block :: rest ∧ closes block.kind statement.kind = true) := by
  unfold closeBlock
  cases hblocks : s.blocks with
  | nil =>
      refine ⟨rfl, hblocks, ⟨_, rfl⟩, ?_⟩
      intro h
      exact absurd rfl (h _ (List.mem_append_right _ List.mem_cons_self))
  | cons block rest =>
      dsimp only
      split
      · rename_i hcloses
        exact ⟨rfl, rfl, ⟨[], by simp [ParserState.addEdge]⟩, fun _ => ⟨block, rest, rfl, hcloses⟩⟩
      · refine ⟨rfl, rfl, ⟨_, rfl⟩, ?_⟩
        intro h
        exact absurd rfl (h _ (List.mem_append_right _ List.mem_cons_self))

theorem stated_addStatement (hshape : effect.closesBlock = true → effect.opensBlock = false) :
    Stated s (addStatement u s statement effect) statement effect := by
  unfold addStatement
  extract_lets program added linked opened closed branched
  have hlinked : linked.program.statements = s.program.statements ++ [statement] ∧
      linked.blocks = s.blocks ∧ linked.diagnostics = s.diagnostics := by
    dsimp only [linked]
    split
    · exact ⟨rfl, rfl, rfl⟩
    · exact ⟨rfl, rfl, rfl⟩
  have hopened : opened.program.statements = s.program.statements ++ [statement] ∧
      opened.blocks = (if effect.opensBlock then ⟨statement.kind, statement.id⟩ :: s.blocks
        else s.blocks) ∧ opened.diagnostics = s.diagnostics := by
    dsimp only [opened]
    split
    · exact ⟨hlinked.1, by rw [hlinked.2.1], hlinked.2.2⟩
    · exact hlinked
  have hbranched : branched.program.statements = closed.program.statements ∧
      branched.blocks = closed.blocks ∧ branched.diagnostics = closed.diagnostics := by
    dsimp only [branched]
    split
    · split
      · exact ⟨rfl, rfl, rfl⟩
      · exact ⟨rfl, rfl, rfl⟩
    · exact ⟨rfl, rfl, rfl⟩
  obtain ⟨hstatements, hblocks, hdiagnostics⟩ := hbranched
  cases hcloses : effect.closesBlock with
  | true =>
      obtain ⟨hstatements', hblocks', hdiagnostics', hends⟩ := stated_closeBlock (u := u) opened statement
      have hclosed : closed = closeBlock u opened statement := by simp [closed, hcloses]
      rw [hclosed] at hstatements hblocks hdiagnostics
      refine ⟨?_, ?_, ?_, ?_⟩
      · exact hstatements.trans (hstatements'.trans hopened.1)
      · rw [blocksAfter, hcloses, ← hopened.2.1]
        exact hblocks.trans hblocks'
      · obtain ⟨more, hmore⟩ := hdiagnostics'
        exact ⟨more, by rw [← hopened.2.2, ← hmore]; exact hdiagnostics⟩
      · intro h _
        have h : NoErrors branched.diagnostics := h
        rw [hdiagnostics] at h
        obtain ⟨block, rest, hopen, hends⟩ := hends h
        rw [hopened.2.1, hshape hcloses] at hopen
        exact ⟨block, rest, hopen, hends⟩
  | false =>
      have hclosed : closed = opened := by simp [closed, hcloses]
      rw [hclosed] at hstatements hblocks hdiagnostics
      refine ⟨hstatements.trans hopened.1, ?_, ⟨[], ?_⟩, ?_⟩
      · rw [blocksAfter, hcloses, ← hopened.2.1]
        exact hblocks
      · rw [List.append_nil, ← hopened.2.2]
        exact hdiagnostics
      · intro _ h
        rw [hcloses] at h
        contradiction

/-- What a line makes of the parser's state: it leaves the statements and the
blocks alone, or it adds a statement. -/
inductive LineEffect (u : UnicodeData) (s s' : ParserState) : Prop
  | quiet (hstatements : s'.program.statements = s.program.statements)
      (hblocks : s'.blocks = s.blocks)
      (hdiagnostics : ∃ more, s'.diagnostics = s.diagnostics ++ more)
  | stated (statement : Statement) (effect : StatementParse)
      (hkind : effect.kind = statement.kind)
      (hshape : BlockShape (statementText u statement) effect)
      (hid : string (.str statement.id) [] = statement.id)
      (hstated : Stated s s' statement effect)

theorem LineEffect.diagnostics {s s' : ParserState} (h : LineEffect u s s') :
    ∃ more, s'.diagnostics = s.diagnostics ++ more := by
  cases h with
  | quiet hstatements hblocks hdiagnostics => exact hdiagnostics
  | stated statement effect hkind hshape hid hstated => exact hstated.diagnostics

theorem LineEffect.statements {s s' : ParserState} (h : LineEffect u s s') :
    ∃ more, s'.program.statements = s.program.statements ++ more := by
  cases h with
  | quiet hstatements hblocks hdiagnostics => exact ⟨[], by simp [hstatements]⟩
  | stated statement effect hkind hshape hid hstated => exact ⟨_, hstated.statements⟩

theorem normalizeLine_eq_trim {rawLine : Text} (h : isBlank (normalizeLine rawLine) = false) :
    normalizeLine rawLine = trim rawLine := by
  unfold normalizeLine at h ⊢
  dsimp only at h ⊢
  split
  · rename_i hcomment
    rw [if_pos hcomment] at h
    contradiction
  · rfl

theorem closes_not_opens {statementText : Text} {effect : StatementParse}
    (h : BlockShape statementText effect) (hcloses : effect.closesBlock = true) :
    effect.opensBlock = false := by
  rw [h.closes] at hcloses
  rw [h.opens]
  revert hcloses
  cases effect.kind <;> simp

theorem parseStatement_stated {rawLine : Text} {lineNo sequence : Nat}
    (h : parseStatement u (u.toUpperCase (trim rawLine)) (trim rawLine) lineNo sequence =
      some (.ok (statement, effect))) :
    effect.kind = statement.kind ∧ BlockShape (statementText u statement) effect ∧
      string (.str statement.id) [] = statement.id := by
  unfold parseStatement at h
  dsimp only at h
  split at h
  · contradiction
  · split at h
    · cases Option.some.inj h
    · rename_i parse hparse
      simp only [Option.some.injEq, Except.ok.injEq, Prod.mk.injEq] at h
      obtain ⟨rfl, rfl⟩ := h
      exact ⟨rfl, shaped_classifyStatement _ _ hparse, string_id _ _⟩

theorem lineEffect {sourceHash rawLine : Text} {s s' : ParserState}
    (h : parseLine u sourceHash s rawLine = .ok s') : LineEffect u s s' := by
  unfold parseLine at h
  dsimp only at h
  split at h
  · obtain rfl := Except.ok.inj h
    exact .quiet rfl rfl ⟨[], by simp⟩
  · rename_i hblank
    split at h
    · obtain rfl := Except.ok.inj h
      exact .quiet rfl rfl ⟨[], by simp⟩
    · split at h
      · obtain rfl := Except.ok.inj h
        exact .quiet rfl rfl ⟨_, rfl⟩
      · split at h
        · obtain rfl := Except.ok.inj h
          split
          · exact .quiet rfl rfl ⟨[], by simp⟩
          · exact .quiet rfl rfl ⟨[], by simp⟩
        · obtain ⟨item, hitem, hs'⟩ := bind_eq_ok h
          obtain rfl := Except.ok.inj hs'
          exact .quiet rfl rfl ⟨_, rfl⟩
        · obtain rfl := Except.ok.inj h
          split
          · exact .quiet rfl rfl ⟨[], by simp⟩
          · exact .quiet rfl rfl ⟨_, rfl⟩
          · rename_i statement effect hparse
            rw [normalizeLine_eq_trim (by simpa using hblank)] at hparse
            obtain ⟨hkind, hshape, hid⟩ := parseStatement_stated hparse
            have hstated : Stated
                { s with
                  lineNo := s.lineNo + 1
                  statementSeq := s.statementSeq + 1
                  assumptions := s.assumptions ++ effect.assumptions }
                (addStatement u
                  { s with
                    lineNo := s.lineNo + 1
                    statementSeq := s.statementSeq + 1
                    assumptions := s.assumptions ++ effect.assumptions } statement effect)
                statement effect := stated_addStatement (closes_not_opens hshape)
            exact .stated statement effect hkind hshape hid
              ⟨hstated.statements, hstated.blocks, hstated.diagnostics, hstated.closesWell⟩
        · obtain rfl := Except.ok.inj h
          exact .quiet rfl rfl ⟨[], by simp⟩

end Parser

/-- Reading some lines of a source leads the parser to a state. -/
def Reads (u : UnicodeData) (request : ParseRequest) (lines : List Text) (s : ParserState) : Prop :=
  lines.foldlM (parseLine u (sourceHashOf request)) (initialState request) = .ok s

/-- The generator's frames behind the statements of a program. -/
def framesOf (u : UnicodeData) (fields : Fields) (statements : List Statement) :
    List BlockFrame :=
  (emitStatements u fields (statements.map (normalizeStatement u))).frames

/-- A statement that ends a block finds the block's frame on top. -/
def EndMatches (kind : Kind) (frames : List BlockFrame) : Prop :=
  ∀ block, closes block kind = true → ∃ frame rest, frames = frame :: rest ∧ kindOf frame.kind = block

/-- The generator keeps its frames in step with the parser's blocks. -/
structure InLockstep (u : UnicodeData) (fields : Fields) (request : ParseRequest) : Prop where
  sameStacks : ∀ before after s, splitLines request.source = before ++ after →
    Reads u request before s → asBlocks (framesOf u fields s.program.statements) = s.blocks
  noOpenFrame : ∀ s, Reads u request (splitLines request.source) s →
    framesOf u fields s.program.statements = []
  endsMatch : ∀ s, Reads u request (splitLines request.source) s →
    ∀ before statement after, s.program.statements = before ++ statement :: after →
      EndMatches statement.kind (framesOf u fields before)

/-- Every `PERFORM` of the program opens a block for the parser. -/
def PerformsOpen (u : UnicodeData) (statements : List Statement) : Prop :=
  ∀ statement ∈ statements, statement.kind = .perform →
    performOpens (statementText u statement) = true

section Runs

variable {u : UnicodeData} {fields : Fields} {request : ParseRequest}

theorem asBlocks_framesOf_append (statements : List Statement) {statement : Statement}
    (hid : string (.str statement.id) [] = statement.id) :
    asBlocks (framesOf u fields (statements ++ [statement])) =
      framesAfter statement.kind statement.id (asBlocks (framesOf u fields statements)) := by
  unfold framesOf
  rw [List.map_append, emitStatements_frames, stepsFrom_append, ← emitStatements_frames]
  exact asBlocks_statementStep u fields statement hid _

theorem reads_append {before after : List Text} {s : ParserState}
    (h : Reads u request (before ++ after) s) :
    ∃ s₀, Reads u request before s₀ ∧
      after.foldlM (parseLine u (sourceHashOf request)) s₀ = .ok s := by
  unfold Reads at h
  rw [List.foldlM_append] at h
  exact bind_eq_ok h

theorem reads_concat {before : List Text} {line : Text} {s : ParserState}
    (h : Reads u request (before ++ [line]) s) :
    ∃ s₀, Reads u request before s₀ ∧ LineEffect u s₀ s := by
  obtain ⟨s₀, hbefore, hline⟩ := reads_append h
  rw [List.foldlM_cons] at hline
  obtain ⟨s₁, hs₁, hs⟩ := bind_eq_ok hline
  obtain rfl := Except.ok.inj hs
  exact ⟨s₀, hbefore, lineEffect hs₁⟩

/-- Statements and diagnostics are only added to. -/
theorem foldlM_grows {after : List Text} {s s' : ParserState}
    (h : after.foldlM (parseLine u (sourceHashOf request)) s = .ok s') :
    (∃ more, s'.diagnostics = s.diagnostics ++ more) ∧
      ∃ more, s'.program.statements = s.program.statements ++ more := by
  induction after generalizing s with
  | nil =>
      obtain rfl := Except.ok.inj h
      exact ⟨⟨[], by simp⟩, [], by simp⟩
  | cons line after ih =>
      rw [List.foldlM_cons] at h
      obtain ⟨s₁, hs₁, hs'⟩ := bind_eq_ok h
      obtain ⟨⟨diagnostics, hdiagnostics⟩, statements, hstatements⟩ := ih hs'
      obtain ⟨diagnostics₁, hdiagnostics₁⟩ := (lineEffect hs₁).diagnostics
      obtain ⟨statements₁, hstatements₁⟩ := (lineEffect hs₁).statements
      refine ⟨⟨diagnostics₁ ++ diagnostics, ?_⟩, statements₁ ++ statements, ?_⟩
      · rw [hdiagnostics, hdiagnostics₁, List.append_assoc]
      · rw [hstatements, hstatements₁, List.append_assoc]

theorem PerformsOpen.of_append {before after : List Statement}
    (h : PerformsOpen u (before ++ after)) : PerformsOpen u before :=
  fun statement hmem => h statement (List.mem_append_left after hmem)

/-- One statement, read well, moves both stacks alike. -/
theorem framesAfter_eq_blocksAfter {statement : Statement} {effect : StatementParse}
    {blocks : List Block} (hkind : effect.kind = statement.kind)
    (hshape : BlockShape (statementText u statement) effect)
    (hcloses : ClosesWell statement.kind effect blocks)
    (hopens : statement.kind = .perform → performOpens (statementText u statement) = true) :
    framesAfter statement.kind statement.id blocks =
      blocksAfter statement.kind statement.id effect blocks := by
  have hopensBlock := hshape.opens
  have hclosesBlock := hshape.closes
  rw [hkind] at hopensBlock hclosesBlock
  unfold blocksAfter
  cases hstatement : statement.kind
  case endIf | endEvaluate | endPerform =>
    simp only [hstatement] at hopensBlock hclosesBlock
    obtain ⟨block, rest, rfl, hends⟩ := hcloses hclosesBlock
    rw [hstatement] at hends
    simp [framesAfter, hopensBlock, hclosesBlock, hends]
  case perform =>
    simp only [hstatement] at hopensBlock hclosesBlock
    simp [framesAfter, hopensBlock, hclosesBlock, hopens hstatement]
  all_goals
    simp only [hstatement] at hopensBlock hclosesBlock
    simp [framesAfter, hopensBlock, hclosesBlock]

/-- What holds behind some lines of a source that is read without error. -/
structure InStep (u : UnicodeData) (fields : Fields) (s : ParserState) : Prop where
  sameStacks : asBlocks (framesOf u fields s.program.statements) = s.blocks
  endsMatch : ∀ before statement after, s.program.statements = before ++ statement :: after →
    EndMatches statement.kind (framesOf u fields before)

theorem closes_unique {block block' end_ : Kind} (h : closes block end_ = true)
    (h' : closes block' end_ = true) : block = block' := by
  simp only [closes, Bool.or_eq_true, Bool.and_eq_true, beq_iff_eq] at h h'
  rcases h with (⟨rfl, rfl⟩ | ⟨rfl, rfl⟩) | ⟨rfl, rfl⟩
  all_goals simpa [eq_comm] using h'

theorem endMatches_of_closesWell {statement : Statement} {effect : StatementParse}
    {frames : List BlockFrame} (hkind : effect.kind = statement.kind)
    (hshape : BlockShape (statementText u statement) effect)
    (hcloses : ClosesWell statement.kind effect (asBlocks frames)) :
    EndMatches statement.kind frames := by
  intro block hblock
  have hclosesBlock : effect.closesBlock = true := by
    rw [hshape.closes, hkind]
    revert hblock
    cases statement.kind <;> simp [closes]
  obtain ⟨top, rest, hframes, htop⟩ := hcloses hclosesBlock
  cases frames with
  | nil => contradiction
  | cons frame frames =>
      obtain ⟨rfl, -⟩ := List.cons.inj hframes
      refine ⟨frame, frames, rfl, ?_⟩
      exact closes_unique htop hblock

theorem inStep_of_performsOpen {before : List Text} {s : ParserState}
    (hreads : Reads u request before s) (herrors : NoErrors s.diagnostics)
    (hperforms : PerformsOpen u s.program.statements) : InStep u fields s := by
  induction before using List.reverseRecOn generalizing s with
  | nil =>
      obtain rfl := Except.ok.inj hreads
      refine ⟨rfl, ?_⟩
      intro before statement after h
      exact absurd h (by simp [initialState])
  | append_singleton before line ih =>
      obtain ⟨s₀, hbefore, heffect⟩ := reads_concat hreads
      cases heffect with
      | quiet hstatements hblocks hdiagnostics =>
          obtain ⟨more, hmore⟩ := hdiagnostics
          rw [hmore] at herrors
          rw [hstatements] at hperforms
          have hstep := ih hbefore herrors.of_append hperforms
          exact ⟨by rw [hstatements, hblocks, hstep.sameStacks], by
            rw [hstatements]
            exact hstep.endsMatch⟩
      | stated statement effect hkind hshape hid hstated =>
          have hcloses := hstated.closesWell herrors
          obtain ⟨more, hmore⟩ := hstated.diagnostics
          rw [hmore] at herrors
          rw [hstated.statements] at hperforms
          have hstep := ih hbefore herrors.of_append hperforms.of_append
          have hopens := hperforms statement (List.mem_append_right _ List.mem_cons_self)
          refine ⟨?_, ?_⟩
          · rw [hstated.statements, asBlocks_framesOf_append _ hid, hstep.sameStacks, hstated.blocks]
            exact framesAfter_eq_blocksAfter hkind hshape hcloses hopens
          · intro before' statement' after' hsplit
            rw [hstated.statements] at hsplit
            rcases List.eq_nil_or_concat after' with rfl | ⟨after', last, rfl⟩
            · obtain ⟨rfl, hlast⟩ := List.append_inj' hsplit rfl
              obtain ⟨rfl, -⟩ := List.cons.inj hlast
              rw [← hstep.sameStacks] at hcloses
              exact endMatches_of_closesWell hkind hshape hcloses
            · have hsplit' : s₀.program.statements ++ [statement] =
                  (before' ++ statement' :: after') ++ [last] := by
                simpa using hsplit
              obtain ⟨hinit, -⟩ := List.append_inj' hsplit' rfl
              exact hstep.endsMatch before' statement' after' hinit

/-- A `PERFORM` that opens no block for the parser breaks the step. -/
theorem performsOpen_of_stacks
    (hstacks : ∀ before after s, splitLines request.source = before ++ after →
      Reads u request before s → asBlocks (framesOf u fields s.program.statements) = s.blocks)
    {before after : List Text} {s : ParserState}
    (hsource : splitLines request.source = before ++ after) (hreads : Reads u request before s) :
    PerformsOpen u s.program.statements := by
  induction before using List.reverseRecOn generalizing s after with
  | nil =>
      obtain rfl := Except.ok.inj hreads
      rintro _ ⟨⟩
  | append_singleton before line ih =>
      obtain ⟨s₀, hbefore, heffect⟩ := reads_concat hreads
      have hsource' : splitLines request.source = before ++ (line :: after) := by
        rw [hsource, List.append_assoc]
        rfl
      have hperforms := ih hsource' hbefore
      have hstacks₀ := hstacks before _ s₀ hsource' hbefore
      have hstacks₁ := hstacks _ _ s hsource hreads
      cases heffect with
      | quiet hstatements hblocks hdiagnostics => rwa [hstatements]
      | stated statement effect hkind hshape hid hstated =>
          rw [hstated.statements, asBlocks_framesOf_append _ hid, hstacks₀, hstated.blocks]
            at hstacks₁
          rw [hstated.statements]
          intro other hother hperform
          rcases List.mem_append.mp hother with hother | hother
          · exact hperforms other hother hperform
          · obtain rfl := List.mem_singleton.mp hother
            have hopens := hshape.opens
            have hcloses := hshape.closes
            rw [hkind, hperform] at hopens hcloses
            dsimp only at hopens hcloses
            rw [← hopens]
            -- without the parser's block the frames are one too many
            cases hblock : effect.opensBlock with
            | true => rfl
            | false =>
                simp [hperform, framesAfter, blocksAfter, hblock, hcloses] at hstacks₁

theorem parse_ok {result : ParseResult} (h : parse u request = .ok result) :
    ∃ s, Reads u request (splitLines request.source) s ∧ result = finish s := by
  unfold parse at h
  split at h
  · contradiction
  · obtain ⟨s, hs, h⟩ := bind_eq_ok h
    exact ⟨s, hs, (Except.ok.inj h).symm⟩

theorem finish_ok {s : ParserState} (h : (finish s).status = .ok) :
    NoErrors s.diagnostics ∧ s.blocks = [] := by
  have herrors : NoErrors (s.diagnostics ++ s.blocks.map unterminatedBlock) := by
    intro diagnostic hmem herror
    unfold finish at h
    dsimp only at h
    rw [if_pos] at h
    · contradiction
    · exact List.any_eq_true.mpr ⟨diagnostic, hmem, by simp [herror]⟩
  refine ⟨herrors.of_append, ?_⟩
  cases hblocks : s.blocks with
  | nil => rfl
  | cons block blocks =>
      rw [hblocks] at herrors
      exact absurd rfl (herrors (unterminatedBlock block)
        (List.mem_append_right _ (List.mem_map_of_mem List.mem_cons_self)))

end Runs

/-- For an accepted source the two stacks stay in step exactly if every
`PERFORM` names `UNTIL` or `VARYING`. -/
theorem lockstep_iff (u : UnicodeData) (fields : Fields) (request : ParseRequest)
    (result : ParseResult) (hparse : parse u request = .ok result)
    (hstatus : result.status = .ok) :
    InLockstep u fields request ↔ PerformsOpen u result.program.statements := by
  obtain ⟨s, hreads, rfl⟩ := parse_ok hparse
  obtain ⟨herrors, hblocks⟩ := finish_ok hstatus
  constructor
  · intro hlockstep
    exact performsOpen_of_stacks hlockstep.sameStacks (List.append_nil _).symm hreads
  · intro hperforms
    have hperforms : PerformsOpen u s.program.statements := hperforms
    have hfinal : ∀ s', Reads u request (splitLines request.source) s' → s' = s :=
      fun s' hs' => Except.ok.inj (hs'.symm.trans hreads)
    refine ⟨?_, ?_, ?_⟩
    · intro before after s₀ hsource hbefore
      rw [hsource] at hreads
      obtain ⟨s₁, hs₁, hafter⟩ := reads_append hreads
      obtain rfl := Except.ok.inj (hs₁.symm.trans hbefore)
      obtain ⟨⟨diagnostics, hdiagnostics⟩, statements, hstatements⟩ := foldlM_grows hafter
      rw [hdiagnostics] at herrors
      rw [hstatements] at hperforms
      exact (inStep_of_performsOpen hbefore herrors.of_append hperforms.of_append).sameStacks
    · intro s' hs'
      obtain rfl := hfinal s' hs'
      have hstep : InStep u fields s' := inStep_of_performsOpen hreads herrors hperforms
      have hstacks := hstep.sameStacks
      rw [hblocks] at hstacks
      exact List.map_eq_nil_iff.mp hstacks
    · intro s' hs'
      obtain rfl := hfinal s' hs'
      exact (inStep_of_performsOpen hreads herrors hperforms).endsMatch

def countingLoop : ParseRequest :=
  sourceRequest "PROCEDURE DIVISION.\nPERFORM UNTIL A = 1.\nADD 1 TO A.\nEND-PERFORM."

theorem lockstep_countingLoop : InLockstep .ascii [] countingLoop := by
  have haccepted : (parse .ascii countingLoop).toOption.any (fun result =>
      result.status == .ok && result.program.statements.all fun statement =>
        performOpens (statementText .ascii statement) || statement.kind != .perform) = true := by
    decide +kernel
  obtain ⟨result, hparse, hresult⟩ := ok_of_any haccepted
  rw [Bool.and_eq_true, beq_iff_eq, List.all_eq_true] at hresult
  apply (lockstep_iff .ascii [] countingLoop result hparse hresult.1).mpr
  intro statement hmem hkind
  simpa [hkind] using hresult.2 statement hmem

/-- A `PERFORM` of a paragraph. -/
def paragraphCall : ParseRequest :=
  sourceRequest "PROCEDURE DIVISION.\nPERFORM A-STEP."

theorem paragraphCall_not_lockstep :
    (parse .ascii paragraphCall).toOption.any (fun result => result.status == .ok) = true ∧
      ¬ InLockstep .ascii [] paragraphCall := by
  refine ⟨by decide +kernel, ?_⟩
  intro hlockstep
  have hframe : ((splitLines paragraphCall.source).foldlM
      (parseLine .ascii (sourceHashOf paragraphCall)) (initialState paragraphCall)).toOption.any
        (fun s => framesOf .ascii [] s.program.statements != []) = true := by
    decide +kernel
  obtain ⟨s, hs, hopen⟩ := ok_of_any hframe
  simp [hlockstep.noOpenFrame s hs] at hopen

end C2c.TargetJava.Lockstep
