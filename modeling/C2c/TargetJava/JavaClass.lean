import C2c.TargetJava.FieldNames

/-!
The Java file of a generated class, from the document of the Semantic IR.
-/

namespace C2c.TargetJava.JavaClass

open C2c.Library.JavaText
open C2c.Library.JavaObject
open C2c.SemanticIr.Statements
open C2c.TargetJava.Literals
open C2c.TargetJava.References
open C2c.TargetJava.LeafStatements
open C2c.TargetJava.Generation
open C2c.TargetJava.FieldNames

/-! The validator. -/

/-- An entry of the validator's diagnostics, all of severity `error`. -/
structure ValidationError where
  code : Text
  message : Text

/-- `IrValidator.requireField`. -/
def requireField (ir : ObjectMap) (field : String) : List ValidationError :=
  let value := get field.toList ir
  if value.isNull || isBlank value.toText then
    [⟨"missing-required-field".toList, "ir.".toList ++ field.toList ++ " is required".toList⟩]
  else []

def requireList (ir : ObjectMap) (field code : String) : List ValidationError :=
  match (get field.toList ir).asList with
  | some _ => []
  | none => [⟨code.toList, "ir.".toList ++ field.toList ++ " must be a list".toList⟩]

section Files

variable (u : UnicodeData)

def blockerAssumptions (ir : ObjectMap) : List ValidationError :=
  ((listOrEmpty (get "assumptions".toList ir)).filter fun entry =>
    !entry.isNull && startsWith (u.toLowerCase entry.toText) "blocker:".toList).map fun entry =>
      ⟨"blocker-assumption".toList,
        "Refusing to emit code: blocker assumption present: ".toList ++ entry.toText⟩

/-- `IrValidator.validate`; the empty document stands for a missing one, too. -/
def validate (ir : ObjectMap) : List ValidationError :=
  if ir.isEmpty then [⟨"missing-ir".toList, "ir document is required".toList⟩]
  else
    let schemaVersion := get "schemaVersion".toList ir
    let text := if schemaVersion.isNull then [] else schemaVersion.toText
    (if text = "v0".toList then []
      else [⟨"unsupported-schema-version".toList,
        "ir.schemaVersion must be 'v0', got: ".toList ++ text⟩]) ++
    requireField ir "irId" ++ requireField ir "programId" ++ requireField ir "sourceHash" ++
    requireField ir "sourceKind" ++
    requireList ir "fieldLayouts" "missing-field-layouts" ++
    requireList ir "statements" "missing-statements" ++
    blockerAssumptions u ir

/-! The names of the class. -/

/-- The letters and digits of a program id: one behind another character is
raised, the others are lowered. -/
def classLetters (upper : Bool) : Text → Text
  | [] => []
  | c :: t =>
      if u.isLetterOrDigit c then
        (if upper then u.charUpper c else u.charLower c) :: classLetters false t
      else classLetters true t

/-- `toClassName`. -/
def toClassName (programId : Text) : Text :=
  if isBlank programId then "Program".toList
  else
    match classLetters u true programId with
    | c :: t => if u.isLetter c then c :: t else 'P' :: c :: t
    | [] => ['P']

/-- `packageFor`. -/
def packageFor (programId : Text) : Text :=
  let slug := (u.toLowerCase programId).filter fun c => ('a' ≤ c && c ≤ 'z') || isDigitAscii c
  "c2c.generated.".toList ++ if slug.isEmpty then "program".toList else slug

/-! Initial values. -/

def isOneOfIgnoreCase (words : List String) (value : Text) : Bool :=
  words.any fun word => u.equalsIgnoreCase word.toList value

/-- `normalizeInitialValue`. -/
def normalizeInitialValue (raw : Option Text) : Option Text :=
  match raw with
  | none => none
  | some raw =>
      if isBlank raw then none
      else
        let value := trim raw
        let value := if endsWith value ['.'] then trim value.dropLast else value
        if isOneOfIgnoreCase u ["ZERO", "ZEROS", "ZEROES"] value then some ['0']
        else if isOneOfIgnoreCase u ["SPACE", "SPACES"] value then some [' ']
        else some (unquote value)

/-- `alphanumericInitialValue`. -/
def alphanumericInitialValue (value : Text) : Text :=
  if isOneOfIgnoreCase u ["SPACE", "SPACES"] value then [' '] else value

/-! The parts of the file. -/

/-- What `renderJavaClass` is given; no assumption is recorded in the constructor. -/
structure ClassParts where
  packageName : Text
  className : Text
  programId : Text
  irId : Text
  sourceHash : Text
  fields : List FieldEmission
  runBody : List CodeLine

def textLines (lines : List String) : Text :=
  lines.flatMap fun line => line.toList ++ ['\n']

def importLines : Text :=
  textLines [
    ";",
    "",
    "import com.c2c.target.java.runtime.AssumptionRegistry;",
    "import com.c2c.target.java.runtime.AssumptionRegistry.Severity;",
    "import com.c2c.target.java.runtime.CobolDecimal;",
    "import com.c2c.target.java.runtime.CobolField;",
    "import com.c2c.target.java.runtime.CobolFieldArray;",
    "import com.c2c.target.java.runtime.ConditionStatus;",
    "import com.c2c.target.java.runtime.PictureSpec;",
    "import com.c2c.target.java.runtime.RuntimeMetadata;",
    ""]

/-- The first lines of the Javadoc, up to the id of the IR. -/
def headerLines : Text :=
  textLines [
    "*",
    " * Generated by target-java-generation-service 0.1.0.",
    " * Contract: target-generator-contract-v0",
    " * IR version: semantic-ir-v0"]

/-- The Javadoc between its marks. -/
def headerText (parts : ClassParts) : Text :=
  headerLines ++ " * IR id: ".toList ++ parts.irId ++ "\n * Program id: ".toList ++
    parts.programId ++ "\n * Source hash: ".toList ++ parts.sourceHash ++ "\n ".toList

def runtimeConstants : Text :=
  textLines [
    ";",
    "    public static final String RUNTIME_NAME = RuntimeMetadata.RUNTIME_NAME;",
    "    public static final String RUNTIME_VERSION = RuntimeMetadata.RUNTIME_VERSION;",
    "    public static final String CONTRACT_VERSION = RuntimeMetadata.CONTRACT_VERSION;",
    "",
    "    private final AssumptionRegistry assumptionRegistry = new AssumptionRegistry();"]

/-- The head of the class with its constants. -/
def classHead (parts : ClassParts) : Text :=
  "\npublic final class ".toList ++ parts.className ++
    " \x7b\n\n    public static final String PROGRAM_ID = ".toList ++
    javaStringLiteral parts.programId ++ ";\n    public static final String IR_ID = ".toList ++
    javaStringLiteral parts.irId ++ ";\n    public static final String SOURCE_HASH = ".toList ++
    javaStringLiteral parts.sourceHash ++ runtimeConstants

def fieldDeclaration (field : FieldEmission) : Text :=
  "    private final ".toList ++
    (if field.array then "CobolFieldArray ".toList else "CobolField ".toList) ++
    field.fieldVar ++ ";\n".toList

def fieldCreation (field : FieldEmission) : Text :=
  "        this.".toList ++ field.fieldVar ++
    (if field.array then " = new CobolFieldArray(".toList else " = new CobolField(".toList) ++
    javaStringLiteral field.cobolName ++ ", ".toList ++ javaStringLiteral field.irNodeId ++
    ", PictureSpec.parse(".toList ++ javaStringLiteral field.picture ++
    if field.array then "), ".toList ++ intText field.occurs ++ ");\n".toList
    else "));\n".toList

def fieldInitialization (field : FieldEmission) : Text :=
  match normalizeInitialValue u field.initialValue with
  | none => []
  | some initialValue =>
      if field.numeric then
        "        this.".toList ++ field.fieldVar ++
          (if field.array then ".setNumericValueToAll(".toList else ".setNumericValue(".toList) ++
          decimalLiteral initialValue ++ ");\n".toList
      else
        "        this.".toList ++ field.fieldVar ++
          (if field.array then ".moveLiteralToAll(".toList else ".moveLiteral(".toList) ++
          javaStringLiteral (alphanumericInitialValue u initialValue) ++ ");\n".toList

def accessorLines : Text :=
  textLines [
    "    \x7d",
    "",
    "    public AssumptionRegistry assumptions() \x7b",
    "        return assumptionRegistry;",
    "    \x7d",
    ""]

def runLines : Text :=
  textLines [
    ")",
    "    private static boolean numericEquals(CobolDecimal left, CobolDecimal right) \x7b",
    "        return ConditionStatus.equalTo(left, right);",
    "    \x7d",
    "",
    "    public void run() \x7b"]

/-- The members of the class up to the body of `run()`. -/
def classMembers (parts : ClassParts) : Text :=
  parts.fields.flatMap fieldDeclaration ++ "\n    public ".toList ++ parts.className ++
    "() \x7b\n".toList ++ parts.fields.flatMap fieldCreation ++
    parts.fields.flatMap (fieldInitialization u) ++ accessorLines ++
    "    @SuppressWarnings(".toList ++ javaStringLiteral "unused".toList ++ runLines

def mainLines : Text :=
  textLines [
    "    \x7d",
    "",
    "    public static void main(String[] args) \x7b"] ++ "        new ".toList

def classEnd (parts : ClassParts) : Text :=
  mainLines ++ parts.className ++ "().run();\n    \x7d\n\x7d\n".toList

def emptyBodyComment : Text :=
  " no procedure statements were emitted from the IR".toList

/-- `renderJavaClass`. -/
def renderJavaClass (parts : ClassParts) : Text :=
  "package ".toList ++ parts.packageName ++ importLines ++ "/*".toList ++ headerText parts ++
    "*/".toList ++ classHead parts ++ classMembers u parts ++
    (if parts.runBody.isEmpty then "        //".toList ++ emptyBodyComment ++ ['\n']
      else parts.runBody.flatMap fun line => line.text ++ ['\n']) ++
    classEnd parts

/-! The document. -/

def mapList (value : Value) : List ObjectMap :=
  (listOrEmpty value).filterMap Value.asMap

/-- What `emitStatement` reads of an entry of `statements`. -/
def readStatement (entry : ObjectMap) : IrStatement where
  id := string (get "id".toList entry) []
  operation := string (get "operation".toList entry) "unknown".toList
  sourceLine := intValue (get "sourceLine".toList entry) 0
  operands := (get "operands".toList entry).asMap.getD []
  raw := string (get "raw".toList entry) []

def irStatements (ir : ObjectMap) : List IrStatement :=
  (mapList (get "statements".toList ir)).map readStatement

/-- What `generate` reads of the document for the class. -/
def classParts (ir : ObjectMap) : ClassParts :=
  let programId := string (get "programId".toList ir) "UNKNOWN".toList
  let fields := (materialise u (mapList (get "fieldLayouts".toList ir))).value
  { packageName := packageFor u programId
    className := toClassName u programId
    programId := programId
    irId := string (get "irId".toList ir) "ir-unknown".toList
    sourceHash := string (get "sourceHash".toList ir) "unknown".toList
    fields := fields.map Prod.snd
    runBody := (generateBody u fields (irStatements ir)).code }

/-- The Java file `generate` writes. -/
def javaSource (ir : ObjectMap) : Text :=
  renderJavaClass u (classParts u ir)

end Files

end C2c.TargetJava.JavaClass
