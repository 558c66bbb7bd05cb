import C2c.BuildTest.Outcomes

namespace C2c.BuildTest.Request

open C2c.Library.JavaText
open C2c.Library.JavaObject
open C2c.BuildTest.Outcomes

def mapOrEmpty (value : Value) : ObjectMap :=
  value.asMap.getD []

def stringMap (value : Value) : List (Text × Text) :=
  (mapOrEmpty value).map fun entry =>
    (entry.1, if entry.2.isNull then [] else entry.2.toText)

/-- `string(value, null)`. -/
def string (value : Value) : Option Text :=
  if value.isNull then none
  else if isBlank (trim value.toText) then none
  else some (trim value.toText)

def exactStringOrNull : Value → Option Text
  | .str text => if text.isEmpty then none else some text
  | _ => none

/-- `Long.parseLong`, over ASCII digits. -/
def parseLong (text : Text) : Option Int :=
  let signed (negative : Bool) (digits : Text) : Option Int :=
    if digits.isEmpty || !digits.all isDigitAscii then none
    else
      let n : Int := if negative then -(digitsValue digits : Int) else digitsValue digits
      if -(2 ^ 63) ≤ n ∧ n < 2 ^ 63 then some n else none
  match text with
  | '-' :: digits => signed true digits
  | '+' :: digits => signed false digits
  | digits => signed false digits

def longValue (value : Value) (fallback : Int) : Int :=
  match value with
  | .int n => n.bmod (2 ^ 64)
  | .decimal _ whole => whole
  | .str text => if isBlank text then fallback else (parseLong (trim text)).getD fallback
  | _ => fallback

def booleanFlag (u : UnicodeData) (value : Value) (fallback : Bool) : Bool :=
  match value with
  | .bool b => b
  | .str text => u.equalsIgnoreCase (trim text) "true".toList
  | _ => fallback

def clampTimeout (requested : Int) : Int :=
  if requested < 100 then 100 else if 30000 < requested then 30000 else requested

def extractGeneratedProject (request : ObjectMap) : ObjectMap :=
  match get "generatedProject".toList request with
  | .map project => project
  | _ =>
      match get "generationResponse".toList request with
      | .map outer => mapOrEmpty (get "generatedProject".toList outer)
      | _ => []

def isCobolRuntimeOracle (oracleSpec : ObjectMap) : Bool :=
  !oracleSpec.isEmpty && string (get "mode".toList oracleSpec) == some "cobol-runtime".toList

/-- What `runVerification` reads from its request. -/
structure Setup where
  programId : Text
  runId : Text
  workflowId : Text
  generatedProject : ObjectMap
  files : List (Text × Text)
  entryClass : Option Text
  entryFilePath : Option Text
  skipExecution : Bool
  compareOutput : Bool
  timeoutMs : Int
  oracleSpec : ObjectMap
  oracleEnabled : Bool
  oracleTimeoutMs : Int
  goldenMaster : ObjectMap

def readRequest (u : UnicodeData) (request : Option ObjectMap) : Except JavaException Setup :=
  match request with
  | none => .error (.illegalArgument "request is required".toList)
  | some request =>
      match string (get "programId".toList request) with
      | none => .error (.illegalArgument "request.programId is required".toList)
      | some programId =>
          let project := extractGeneratedProject request
          let options := mapOrEmpty (get "options".toList request)
          let timeoutMs := clampTimeout (longValue (get "timeoutMs".toList options) 5000)
          let oracleSpec := mapOrEmpty (get "oracle".toList request)
          .ok
            { programId := programId
              runId := (string (get "runId".toList request)).getD "run-unknown".toList
              workflowId := (string (get "workflowId".toList request)).getD
                "w0-migration-v0".toList
              generatedProject := project
              files := stringMap (get "files".toList project)
              entryClass := string (get "entryClass".toList project)
              entryFilePath := string (get "entryFilePath".toList project)
              skipExecution := booleanFlag u (get "skipExecution".toList options) false
              compareOutput := booleanFlag u (get "compareOutput".toList options) true
              timeoutMs := timeoutMs
              oracleSpec := oracleSpec
              oracleEnabled := isCobolRuntimeOracle oracleSpec
              oracleTimeoutMs := clampTimeout
                (longValue (get "timeoutMs".toList oracleSpec) timeoutMs)
              goldenMaster := mapOrEmpty (get "goldenMaster".toList request) }

def forbiddenTokens : List String :=
  ["Runtime.getRuntime", "ProcessBuilder", "System.exit", "System.getenv", "System.setProperty",
    "System.setOut", "System.setErr", "java.nio.file.", "java.io.", "java.net.", "javax.script.",
    "java.lang.reflect.", "ClassLoader", "sun.misc.Unsafe", "jdk.internal."]

def lineNumber (content : Text) (offset : Nat) : Nat :=
  (content.take offset).count '\n' + 1

def generatedJavaSafetyDiagnostics (files : List (Text × Text)) : List Diagnostic :=
  files.flatMap fun file =>
    if endsWith file.1 ".java".toList then
      forbiddenTokens.filterMap fun token =>
        (indexOf token.toList file.2).map fun offset =>
          { severity := .error
            code := "generated-java-policy-denied".toList
            filePath := file.1
            line := lineNumber file.2 offset
            column := 1
            message := "Generated Java uses forbidden API token: ".toList ++ token.toList }
    else []

end C2c.BuildTest.Request
