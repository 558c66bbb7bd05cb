import Mathlib
import C2c.Library.GoText
import C2c.Library.PosixPaths
import C2c.Library.PythonDict
import C2c.Library.PythonJson

/-!
The Java candidate in the output of the model: the paths and the contents of its
files, its entry class and its entry package.
-/

namespace C2c.Orchestrator.JavaCandidates

open C2c.Library.JavaText
open C2c.Library.GoText (byteLength)
open C2c.Library.PythonText
open C2c.Library.PythonJson
open C2c.Library.PythonDict
open C2c.Library.PosixPaths

section Patterns

/-- The characters of `\w`, fixed on ASCII. -/
structure WordData where
  isWord : Char → Bool
  isWord_ascii : ∀ c : Char, c.toNat < 128 → isWord c = (c.isAlphanum || c == '_')

/-- `\w` of a text that stays in ASCII. -/
def WordData.ascii : WordData where
  isWord c := c.isAlphanum || c == '_'
  isWord_ascii _ _ := rfl

/-- `[A-Za-z_$]`. -/
def isIdentifierStart (c : Char) : Bool :=
  c.isAlpha || c == '_' || c == '$'

/-- `[A-Za-z0-9_$]`. -/
def isIdentifierPart (c : Char) : Bool :=
  c.isAlphanum || c == '_' || c == '$'

/-- What follows a word and the white space behind it. -/
def afterWord (word t : Text) : Option Text :=
  if startsWith t word && ((t.drop word.length).head?.any isSpace) then
    some ((t.drop word.length).dropWhile isSpace)
  else none

/-- `class|interface|enum|record`. -/
def typeKeywords : List Text :=
  ["class".toList, "interface".toList, "enum".toList, "record".toList]

/-- `(?:class|interface|enum|record)\s+([A-Za-z_$][A-Za-z0-9_$]*)` at the head of
a text. -/
def typeNameHere (t : Text) : Option Text :=
  match typeKeywords.findSome? fun keyword => afterWord keyword t with
  | some (c :: rest) =>
      if isIdentifierStart c then some (c :: rest.takeWhile isIdentifierPart) else none
  | _ => none

/-- `(?:public\s+)?(?:final\s+)?` in front of a type. -/
def skipModifiers (t : Text) : Text :=
  let t := (afterWord "public".toList t).getD t
  (afterWord "final".toList t).getD t

/-- The first match of a pattern that starts with `\b` and a letter. -/
def searchWord (words : WordData) (here : Text → Option Text) (before : Option Char) :
    Text → Option Text
  | [] => none
  | c :: t =>
      (if before.any words.isWord then none else here (c :: t)).or (searchWord words here (some c) t)

/-- `_JAVA_SHAPE_HINTS.search`. -/
def hasJavaShape (words : WordData) (t : Text) : Bool :=
  (searchWord words typeNameHere none t).isSome

/-- The name in the first match of `_JAVA_TYPE_DECLARATION`. -/
def typeDeclaration (words : WordData) (t : Text) : Option Text :=
  searchWord words (fun t => typeNameHere (skipModifiers t)) none t

/-- `_JAVA_PACKAGE_LINE` at the head of a line. -/
def packageHere (words : WordData) (t : Text) : Option Text :=
  match afterWord "package".toList (t.dropWhile isSpace) with
  | some (c :: rest) =>
      let inName := fun d => words.isWord d || d == '$' || d == '.'
      if isIdentifierStart c && ((rest.dropWhile inName).dropWhile isSpace).head? == some ';' then
        some (c :: rest.takeWhile inName)
      else none
  | _ => none

/-- The name in the first match of `_JAVA_PACKAGE_LINE`. -/
def packageLineFrom (words : WordData) (lineStart : Bool) : Text → Option Text
  | [] => none
  | c :: t =>
      (if lineStart then packageHere words (c :: t) else none).or
        (packageLineFrom words (c == '\n') t)

def packageLine (words : WordData) (t : Text) : Option Text :=
  packageLineFrom words true t

/-- `_JAVA_IDENTIFIER.match` of a stripped text, which does not end in a line
break. -/
def isJavaIdentifier : Text → Bool
  | [] => false
  | c :: rest => isIdentifierStart c && rest.all isIdentifierPart

/-- `_JAVA_PACKAGE_PATTERN.match` of a stripped text. -/
def isJavaPackage (t : Text) : Bool :=
  (splitAtChar '.' t).all isJavaIdentifier

/-- `rpartition(".")`, the separator aside. -/
def rpartition (t : Text) : Text × Text :=
  match lastIndexOf '.' t with
  | some i => (t.take i, t.drop (i + 1))
  | none => ([], t)

example : packageLine .ascii "// entry\n  package  a.b ;\nclass C {}".toList = some "a.b".toList := by
  decide

example : typeDeclaration .ascii "subclass x; public final class C {}".toList = some "C".toList := by
  decide

end Patterns

section Paths

/-- `^[A-Za-z]:/`. -/
def hasDrive : Text → Bool
  | c :: ':' :: '/' :: _ => c.isAlpha
  | _ => false

/-- The path in POSIX spelling, without the blanks around it. -/
def posixText (raw : Text) : Text :=
  strip (replaceChar '\\' '/' raw)

/-- `PurePosixPath(normalized).parts`. -/
def segments (raw : Text) : List Text :=
  pathParts (posixText raw)

/-- `_safe_relpath` of a string. -/
def safeRelpath (raw : Text) : Option Text :=
  if raw.isEmpty then none
  else if raw.contains '\x00' then none
  else
    let normalized := posixText raw
    if normalized.isEmpty || startsWith normalized ['/'] then none
    else if hasDrive normalized then none
    else
      let parts := segments raw
      if parts.any fun segment => segment == [] || segment == ['.'] || segment == ['.', '.'] then none
      else some (pathText parts)

/-- `path.lower().endswith(".java")`. -/
def isJavaFile (path : Text) : Bool :=
  endsWith (lower path) ".java".toList

example : safeRelpath " src\\main//A.java".toList = some "src/main/A.java".toList := by
  decide

end Paths

section Envelope

/-- `envelope.get(first) or envelope.get(second)`. -/
def getOr (value : Json) (first second : String) : Json :=
  if truthy (get value first) then get value first else get value second

/-- A value that is a mapping with members. -/
def filledMapping : Json → Option (List (Text × Json))
  | .object members => if members.isEmpty then none else some members
  | _ => none

/-- A string that is not blank. -/
def filledText : Json → Option Text
  | .text t => if (strip t).isEmpty then none else some t
  | _ => none

/-- The path of an item of the artifact list. -/
def artifactPath (item : Json) : Option Text :=
  filledText (if truthy (get item "path") then get item "path" else getOr item "filePath" "name")

/-- The file an item of the artifact list names. -/
def artifactFile (item : Json) : Option (Text × Json) :=
  match artifactPath item, getOr item "content" "source" with
  | some path, .text content => some (path, .text content)
  | _, _ => none

def artifactItems (envelope : Json) : List Json :=
  match get envelope "artifacts" with
  | .array items => items
  | _ => []

/-- The files under `artifacts`. -/
def artifactFiles (envelope : Json) : List (Text × Json) :=
  update [] ((artifactItems envelope).filterMap artifactFile)

/-- The path of the one Java source where the envelope names none. -/
def defaultEntryFilePath (envelope : Json) : Text :=
  let entryClass := getOr envelope "entryClass" "entry_class"
  let text := if truthy entryClass then str entryClass else "GeneratedProgram".toList
  let name := ((splitAtChar '.' (strip text)).getLast?).getD []
  let name := if name.isEmpty then "GeneratedProgram".toList else name
  "src/main/java/generated/".toList ++ name ++ ".java".toList

/-- The path and the text of the one Java source. -/
def javaSource (envelope : Json) : Option (Text × Text) :=
  (filledText (getOr envelope "javaSource" "javaCode")).map fun source =>
    ((filledText (getOr envelope "entryFilePath" "entry_file_path")).getD
      (defaultEntryFilePath envelope), source)

/-- The file of `javaSource`, and the project file beside it. -/
def javaSourceFiles (envelope : Json) : List (Text × Json) :=
  match javaSource envelope with
  | none => []
  | some (entryFilePath, source) =>
      match filledText (getOr envelope "pomXml" "pomXML") with
      | some pom => assign "pom.xml".toList (.text pom) [(entryFilePath, .text source)]
      | none => [(entryFilePath, .text source)]

/-- The filled mapping under one of the names. -/
def mappingUnder (envelope : Json) (keys : List String) : Option (List (Text × Json)) :=
  keys.findSome? fun key => filledMapping (get envelope key)

/-- The files of a project under one of the names. -/
def projectFiles (envelope : Json) : Option (List (Text × Json)) :=
  ["generatedProject", "project", "javaProject"].findSome? fun key =>
    if isMapping (get envelope key) then
      filledMapping (getOr (get envelope key) "files" "generatedFiles")
    else none

/-- The files of a file map or of a project. -/
def mappedFiles (envelope : Json) : Option (List (Text × Json)) :=
  (mappingUnder envelope ["files", "generatedFiles", "projectFiles"]).or (projectFiles envelope)

/-- `_candidate_files_from_inner_output`; no files stand for `None`. -/
def candidateFilesFromInnerOutput (envelope : Json) : List (Text × Json) :=
  match mappedFiles envelope with
  | some files => files
  | none =>
      if artifactFiles envelope ≠ [] then artifactFiles envelope
      else javaSourceFiles envelope

end Envelope

section Decoding

variable (words : WordData)

/-- `GeneratedJavaCandidate`. -/
structure GeneratedJavaCandidate where
  files : List (Text × Text)
  entryClass : Text
  entryPackage : Text
  entryFilePath : Text
  unsupportedConstructs : List Text
  explanation : Text
deriving DecidableEq

/-- What the loop over the files has read so far. -/
structure DecodedFiles where
  files : List (Text × Text) := []
  totalBytes : Nat := 0
  hasJavaShape : Bool := false
  hasJavaFile : Bool := false

/-- One file of the map; a limit that is not positive is none. -/
def decodeFile (maxOutputBytes : Int) (decoded : DecodedFiles) (file : Text × Json) :
    Except Text DecodedFiles :=
  match safeRelpath file.1 with
  | none => .error ("invalid generated file path: ".toList ++ reprText file.1)
  | some path =>
      match file.2 with
      | .text content =>
          let totalBytes := decoded.totalBytes + byteLength content
          if 0 < maxOutputBytes ∧ maxOutputBytes < totalBytes then
            .error ("generated files exceed size limit (".toList ++ natText totalBytes ++
              " > ".toList ++ intText maxOutputBytes ++ " bytes)".toList)
          else
            .ok
              { files := assign path content decoded.files
                totalBytes := totalBytes
                hasJavaShape :=
                  decoded.hasJavaShape || (isJavaFile path && hasJavaShape words content)
                hasJavaFile := decoded.hasJavaFile || isJavaFile path }
      | _ => .error ("generated file ".toList ++ reprText path ++
          " content must be a string".toList)

/-- The map of the files, one of which is Java and looks like it. -/
def decodeFiles (maxOutputBytes : Int) (filesRaw : List (Text × Json)) :
    Except Text (List (Text × Text)) := do
  let decoded ← filesRaw.foldlM (decodeFile words maxOutputBytes) {}
  if !decoded.hasJavaFile then
    throw "success response must include at least one .java file".toList
  if !decoded.hasJavaShape then
    throw ("no generated file contains a Java type declaration ".toList ++
      "(class/interface/enum/record); non-Java content rejected".toList)
  pure decoded.files

/-- The entry file and its content. -/
def decodeEntryFile (envelope : Json) (files : List (Text × Text)) :
    Except Text (Text × Text) :=
  match filledText (getOr envelope "entryFilePath" "entry_file_path") with
  | some raw =>
      match safeRelpath raw with
      | none => .error ("invalid entryFilePath: ".toList ++ reprText raw)
      | some path =>
          if !isJavaFile path then
            .error ("entryFilePath ".toList ++ reprText path ++
              " must point to a .java file".toList)
          else
            match files.find? fun file => file.1 == path with
            | some file => .ok file
            | none => .error ("entryFilePath ".toList ++ reprText path ++
                " is not present in generated files".toList)
  | none =>
      match files.filter fun file => isJavaFile file.1 with
      | [file] => .ok file
      | _ => .error ("missing entryFilePath and generated files ".toList ++
          "do not contain exactly one .java file".toList)

/-- The package the envelope names, or else the declared one. -/
def namedPackage (envelope : Json) (declaredPackage : Text) : Except Text Text :=
  let raw := getOr envelope "entryPackage" "entry_package"
  let invalid := "invalid entryPackage identifier: ".toList ++ repr raw
  match raw with
  | .null => .ok declaredPackage
  | .text t =>
      if (strip t).isEmpty then .ok declaredPackage
      else if isJavaPackage (strip t) then .ok (strip t)
      else .error invalid
  | _ => .error invalid

/-- The package the entry file declares, which is the one the envelope names. -/
def decodeEntryPackage (envelope : Json) (entry : Text × Text) : Except Text Text := do
  let some declaredPackage := packageLine words entry.2
    | throw ("entry file ".toList ++ reprText entry.1 ++
        " is missing a 'package' declaration".toList)
  let entryPackage ← namedPackage envelope declaredPackage
  if declaredPackage ≠ entryPackage then
    throw ("entryPackage ".toList ++ reprText entryPackage ++
      " does not match package declaration ".toList ++ reprText declaredPackage)
  pure entryPackage

/-- The entry class: a name, a name qualified by the package, or the first type
of the entry file. -/
def decodeEntryClass (envelope : Json) (entryPackage entryContent : Text) : Except Text Text :=
  let raw := getOr envelope "entryClass" "entry_class"
  let missing := "missing or invalid entryClass identifier: ".toList ++ repr raw
  let absent :=
    match raw with
    | .null => true
    | value => (strip (str value)).isEmpty
  let declared : Except Text Text :=
    if absent then
      match typeDeclaration words entryContent with
      | some name => .ok name
      | none => .error missing
    else .error missing
  match raw with
  | .text t =>
      if isJavaIdentifier (strip t) then .ok (strip t)
      else if isJavaPackage (strip t) then
        let (rawPackage, rawClass) := rpartition (strip t)
        if rawPackage ≠ entryPackage ∨ !isJavaIdentifier rawClass then
          .error ("entryClass ".toList ++ repr raw ++ " does not match entryPackage ".toList ++
            reprText entryPackage)
        else .ok rawClass
      else declared
  | _ => declared

/-- `unsupportedConstructs`: one text, or the items that are not blank. -/
def decodeUnsupported (envelope : Json) : Except Text (List Text) :=
  let raw := getOr envelope "unsupportedConstructs" "unsupported_constructs"
  if !truthy raw then .ok []
  else
    match raw with
    | .text t => .ok [t]
    | .array items => .ok ((items.map str).filter fun item => !(strip item).isEmpty)
    | _ => .error "unsupportedConstructs must be an array of strings".toList

/-- `str(envelope.get("explanation") or envelope.get("notes") or "")`. -/
def explanationOf (envelope : Json) : Text :=
  strOrEmpty (getOr envelope "explanation" "notes")

/-- What the explanation says of a reused baseline. -/
def fallbackSuffix : Text :=
  "Model returned success without a files map; the orchestrator ".toList ++
    "reused the deterministic baseline files as the agent candidate ".toList ++
    "and will validate them through compile/run/oracle gates.".toList

def fallbackExplanation (explanation : Text) : Text :=
  strip (strip explanation ++ ' ' :: fallbackSuffix)

/-- The files to decode, and whether they are the fallback. -/
def rawFiles (envelope : Json) (fallbackFiles : List (Text × Text)) :
    Except Text (List (Text × Json) × Bool) :=
  if candidateFilesFromInnerOutput envelope ≠ [] then
    .ok (candidateFilesFromInnerOutput envelope, false)
  else if fallbackFiles ≠ [] then .ok (fallbackFiles.map fun file => (file.1, .text file.2), true)
  else .error "success response must include non-empty 'files' map".toList

/-- `_decode_candidate`. -/
def decodeCandidate (envelope : Json) (maxOutputBytes : Int)
    (fallbackFiles : List (Text × Text)) : Except Text GeneratedJavaCandidate := do
  let (filesRaw, usedFallbackFiles) ← rawFiles envelope fallbackFiles
  let files ← decodeFiles words maxOutputBytes filesRaw
  let entry ← decodeEntryFile envelope files
  let entryPackage ← decodeEntryPackage words envelope entry
  let entryClass ← decodeEntryClass words envelope entryPackage entry.2
  let unsupportedConstructs ← decodeUnsupported envelope
  let explanation := explanationOf envelope
  pure
    { files := files
      entryClass := entryClass
      entryPackage := entryPackage
      entryFilePath := entry.1
      unsupportedConstructs := unsupportedConstructs
      explanation :=
        if usedFallbackFiles then fallbackExplanation explanation else explanation }

end Decoding

end C2c.Orchestrator.JavaCandidates
