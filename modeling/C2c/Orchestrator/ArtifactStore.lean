import C2c.Library.FileTree
import C2c.Library.PythonJson
import C2c.Library.Sha256

/-!
The run-scoped artifact store of the orchestrator on the file system.
-/

namespace C2c.Orchestrator.ArtifactStore

open C2c.Library.FileTree
open C2c.Library.JavaText
open C2c.Library.PythonJson
open C2c.Library.PythonText
open C2c.Library.Raising
open C2c.Library.Sha256

abbrev Bytes := List UInt8

abbrev Location := List Text

/-- `str.encode("utf-8")`. -/
def encodeUtf8 (t : Text) : Bytes :=
  (t.flatMap utf8Bytes).map UInt8.ofNat

/-- `sha256(data).hexdigest()`. -/
def sha256Digest (data : Bytes) : Text :=
  (hashBytes (data.map UInt8.toNat)).words.flatMap hexWord

def indexFile : Text := "artifacts-index.json".toList

structure ArtifactMetadata where
  uri : Text
  sha256 : Text
  byteSize : Nat
  mimeType : Text
  kind : Text
  createdBy : Text
  createdAt : Text
  runId : Text
  workflowId : Text
  path : Text
  name : Text
deriving DecidableEq

/-- The state that the index file of a run holds. -/
structure Index where
  runId : Text
  workflowId : Text
  requester : Text
  createdAt : Text
  updatedAt : Option Text := none
  artifacts : List ArtifactMetadata

section Texts

mutual

/-- `json.dumps` with sorted keys and without blanks. -/
def canonicalText : Json → Text
  | .null => "null".toList
  | .bool true => "true".toList
  | .bool false => "false".toList
  | .number text => text
  | .text value => jsonString false value
  | .array items => jsonArray (canonicalItems items)
  | .object members =>
      '\x7b' :: joinWith [','] (((canonicalMembers members).mergeSort fun a b => a.1 ≤ b.1).map
        fun member => jsonString false member.1 ++ ':' :: member.2) ++ ['\x7d']

def canonicalItems : List Json → List Text
  | [] => []
  | item :: items => canonicalText item :: canonicalItems items

def canonicalMembers : List (Text × Json) → List (Text × Text)
  | [] => []
  | (key, value) :: members => (key, canonicalText value) :: canonicalMembers members

end

/-- `_canonical_json_bytes`. -/
def canonicalJsonBytes (payload : Json) : Bytes :=
  encodeUtf8 (canonicalText payload)

/-- The lines between two brackets, indented. -/
def indented (opening closing : Char) (indent : Nat) (lines : List Text) : Text :=
  if lines.isEmpty then [opening, closing]
  else
    opening :: '\n' :: joinWith [',', '\n'] (lines.map fun line =>
      List.replicate (indent + 2) ' ' ++ line) ++ '\n' :: List.replicate indent ' ' ++ [closing]

def memberLine (member : String × Text) : Text :=
  jsonString false member.1.toList ++ ':' :: ' ' :: member.2

def ArtifactMetadata.jsonText (metadata : ArtifactMetadata) : Text :=
  indented '\x7b' '\x7d' 4 ([("byteSize", (Nat.repr metadata.byteSize).toList),
    ("createdAt", jsonString false metadata.createdAt),
    ("createdBy", jsonString false metadata.createdBy),
    ("kind", jsonString false metadata.kind), ("mimeType", jsonString false metadata.mimeType),
    ("name", jsonString false metadata.name), ("path", jsonString false metadata.path),
    ("runId", jsonString false metadata.runId), ("sha256", jsonString false metadata.sha256),
    ("uri", jsonString false metadata.uri),
    ("workflowId", jsonString false metadata.workflowId)].map memberLine)

/-- `_index_bytes`. -/
def indexBytes (state : Index) : Bytes :=
  let updated := match state.updatedAt with
    | some time => [("updatedAt", jsonString false time)]
    | none => []
  encodeUtf8 (indented '\x7b' '\x7d' 0
    (([("artifacts", indented '[' ']' 2 (state.artifacts.map ArtifactMetadata.jsonText)),
      ("createdAt", jsonString false state.createdAt),
      ("requester", jsonString false state.requester),
      ("runId", jsonString false state.runId)] ++ updated ++
      [("workflowId", jsonString false state.workflowId)]).map memberLine))

/-- `_mime_for_path`. -/
def mimeForPath (relpath default : Text) : Text :=
  let lowered := lower relpath
  let ends (suffix : String) := endsWith lowered suffix.toList
  if ends ".json" then "application/json".toList
  else if ends ".java" then "text/x-java-source".toList
  else if ends ".xml" || ends ".pom" then "application/xml".toList
  else if ends ".cbl" || ends ".cob" then "text/x-cobol".toList
  else if ends ".txt" || ends ".md" then "text/plain".toList
  else default

/-- A byte of `urllib.parse.quote`. -/
def quoteByte (n : Nat) : Text :=
  let c := Char.ofNat n
  if n < 128 ∧ (c.isAlphanum ∨ ['_', '.', '-', '~'].contains c) then [c]
  else ['%', (Library.PythonText.hexDigit (n / 16)).toUpper, (Library.PythonText.hexDigit (n % 16)).toUpper]

/-- `Path.as_uri` of an absolute path. -/
def asUri (location : Location) : Text :=
  "file://".toList ++ location.flatMap fun name =>
    '/' :: (name.flatMap utf8Bytes).flatMap quoteByte

end Texts

section Files

/-- What a file holds: bytes, or an index that the store has written, whose bytes
are those of `indexBytes`. -/
inductive Content
  | bytes (data : Bytes)
  | index (state : Index)

abbrev Files := Tree Text Content

def Content.data : Content → Bytes
  | .bytes data => data
  | .index state => indexBytes state

inductive StoreError
  | valueError (message : Text)
  | os (e : OsError)
  /-- An index file with other JSON than an index in it, or no text at all. -/
  | unusableIndex

/-- What `json.loads` makes of the bytes of a file. -/
inductive Loaded
  | index (state : Index)
  | notJson
  | unusable

/-- An operation of the system, as the store calls it. -/
def system {A : Type} (m : EStateM OsError Files A) : EStateM StoreError Files A :=
  fun files =>
    match m files with
    | .ok a files' => .ok a files'
    | .error e files' => .error (.os e) files'

/-- `f".{name}.tmp"`. -/
def temporaryName (name : Text) : Text :=
  '.' :: name ++ ".tmp".toList

/-- `_atomic_write_bytes`. -/
def atomicWriteBytes (path : Location) (content : Content) : EStateM StoreError Files Unit :=
  match path.getLast? with
  | none => throw (.valueError "PosixPath('/') has an empty name".toList)
  | some name => system do
      writeFile path.dropLast (temporaryName name) content
      replaceFile path.dropLast (temporaryName name) name

end Files

structure RunArtifactStore where
  root : Location
  createdBy : Text
  loads : Bytes → Loaded

/-- The arguments of `write_bytes`, and the time of the call. -/
structure Write where
  runId : Text
  workflowId : Text
  relpath : Text
  data : Bytes
  kind : Text
  mimeType : Option Text
  now : Text

inductive Call
  | writeBytes (w : Write)
  | writeJson (runId workflowId relpath : Text) (payload : Json) (kind now : Text)
  | writeText (runId workflowId relpath text kind : Text) (mimeType : Option Text) (now : Text)

/-- `write_json` and `write_text` are `write_bytes` of the encoded text. -/
def Call.write : Call → Write
  | .writeBytes w => w
  | .writeJson runId workflowId relpath payload kind now =>
      ⟨runId, workflowId, relpath, canonicalJsonBytes payload, kind,
        some "application/json".toList, now⟩
  | .writeText runId workflowId relpath text kind mimeType now =>
      ⟨runId, workflowId, relpath, encodeUtf8 text, kind,
        some ((mimeType.filter (· ≠ [])).getD (mimeForPath relpath "text/plain".toList)), now⟩

namespace RunArtifactStore

variable (s : RunArtifactStore)

/-- `_run_dir`. -/
def runDir (runId : Text) : Except StoreError Location :=
  if runId = [] then .error (.valueError "run_id is required".toList)
  else if runId.contains '/' || runId.contains '\\' || contains runId ['.', '.'] then
    .error (.valueError ("invalid run_id: ".toList ++ reprText runId))
  else .ok (s.root ++ pathParts runId)

/-- The relative paths that `write_bytes` takes. -/
def TakesPath (relpath : Text) : Prop :=
  relpath ≠ [] ∧ startsWith relpath ['/'] = false ∧ ['.', '.'] ∉ pathParts relpath

instance (relpath : Text) : Decidable (TakesPath relpath) :=
  inferInstanceAs (Decidable (_ ∧ _ ∧ _))

def freshIndex (runId workflowId now : Text) : Index :=
  { runId, workflowId, requester := [], createdAt := now, artifacts := [] }

/-- `json.loads` of a file. -/
def loadContent : Content → Loaded
  | .bytes data => s.loads data
  | .index state => .index state

/-- The state that `_record` starts from. -/
def currentIndex (files : Files) (dir : Location) (runId workflowId now : Text) :
    Except StoreError Index :=
  match files.node (dir ++ [indexFile]) with
  | none => .ok (freshIndex runId workflowId now)
  | some .directory => .error (.os .isADirectory)
  | some (.file content) =>
      match s.loadContent content with
      | .index state => .ok state
      | .notJson => .ok (freshIndex runId workflowId now)
      | .unusable => .error .unusableIndex

/-- The index after the entry of a path has been put in. -/
def withEntry (state : Index) (metadata : ArtifactMetadata) (now : Text) : Index :=
  { state with
    artifacts := state.artifacts.filter (fun entry => entry.path ≠ metadata.path) ++ [metadata]
    updatedAt := some now }

/-- `_record`. -/
def record (runId : Text) (metadata : ArtifactMetadata) (now : Text) :
    EStateM StoreError Files Unit := do
  let dir ← returning (s.runDir runId)
  let files ← get
  let state ← returning (s.currentIndex files dir runId metadata.workflowId now)
  atomicWriteBytes (dir ++ [indexFile]) (.index (withEntry state metadata now))

def metadataOf (dir : Location) (w : Write) : ArtifactMetadata where
  uri := asUri (dir ++ pathParts w.relpath)
  sha256 := sha256Digest w.data
  byteSize := w.data.length
  mimeType := (w.mimeType.filter (· ≠ [])).getD
    (mimeForPath w.relpath "application/octet-stream".toList)
  kind := w.kind
  createdBy := s.createdBy
  createdAt := w.now
  runId := w.runId
  workflowId := w.workflowId
  path := w.relpath
  name := (pathParts w.relpath).getLastD []

/-- `write_bytes`. -/
def writeBytes (w : Write) : EStateM StoreError Files ArtifactMetadata := do
  require (TakesPath w.relpath)
    (.valueError ("invalid relative path: ".toList ++ reprText w.relpath))
  let dir ← returning (s.runDir w.runId)
  let target := dir ++ pathParts w.relpath
  system (makeDirectories [] target.dropLast)
  atomicWriteBytes target (.bytes w.data)
  let metadata := s.metadataOf dir w
  s.record w.runId metadata w.now
  return metadata

section Reading

variable (files : Files)

/-- The node that a path leads to from the directory of a run. -/
def nodeAt (dir : Location) (relpath : Text) : Option (Node Content) :=
  files.lookup ['.', '.'] (if startsWith relpath ['/'] then [] else dir) (pathParts relpath)

/-- `read_bytes`. -/
def readBytes (runId relpath : Text) : Except StoreError (Option Bytes) := do
  let dir ← s.runDir runId
  return match nodeAt files dir relpath with
    | some (.file content) => some content.data
    | _ => none

/-- `read_index`. -/
def readIndex (runId : Text) : Except StoreError (Option Index) := do
  let dir ← s.runDir runId
  match files.node (dir ++ [indexFile]) with
  | some (.file content) =>
      match s.loadContent content with
      | .index state => return some state
      | .notJson => return none
      | .unusable => throw .unusableIndex
  | _ => return none

/-- `find_metadata`. -/
def findMetadata (runId relpath : Text) : Except StoreError (Option ArtifactMetadata) := do
  let index ← s.readIndex files runId
  return (index.map Index.artifacts).getD [] |>.find? fun entry => entry.path = relpath

end Reading

/-- One call, whether it returns or raises. -/
def step (files : Files) (call : Call) : Files :=
  stateAfter (s.writeBytes call.write) files

end RunArtifactStore

end C2c.Orchestrator.ArtifactStore
