import C2c.Library.GoJson
import C2c.Library.GoText

/-!
Append-only logs of JSON lines: each accepted call writes one record as one
line, and a restart reads the lines with a `bufio.Scanner`.
-/

namespace C2c.Library.JsonLines

open C2c.Library.JavaText
open C2c.Library.GoText
open C2c.Library.JsonText
open C2c.Library.GoJson

/-- `bufio.MaxScanTokenSize`. -/
def maxScanTokenSize : Nat :=
  65536

/-- The lines of a file, the last of which may lack its line break. -/
def scanLines : Text → List Text
  | [] => []
  | c :: t =>
      if c = '\n' then [] :: scanLines t
      else
        match scanLines t with
        | [] => [[c]]
        | line :: lines => (c :: line) :: lines

/-- `dropCR`. -/
def dropReturn (line : Text) : Text :=
  if line.getLast? = some '\r' then line.dropLast else line

/-- How the records of a log are checked and spelled. -/
structure Format (Call Record Error : Type) where
  prepare : UInt64 → Call → Except Error Record
  json : Record → Option Json
  ofJson : Json → Option Record

variable {Call Record Error : Type}

/-- A log that refuses what a check finds wrong. -/
def Format.checked (validate : Record → Option Error) (json : Record → Option Json)
    (ofJson : Json → Option Record) : Format Record Record Error where
  prepare _ record :=
    match validate record with
    | some e => .error e
    | none => .ok record
  json := json
  ofJson := ofJson

/-- The file, the records in memory, and the number of calls so far. -/
structure Log (Record : Type) where
  file : Text
  records : List Record
  seq : UInt64

inductive AppendError (Error : Type)
  | refused (e : Error)
  | marshal

inductive RestoreError
  | invalidLine
  | tooLong
deriving DecidableEq

section Operations

variable (format : Format Call Record Error)

/-- `Append` on a disk that does not fail. -/
def append (log : Log Record) (call : Call) :
    Log Record × Except (AppendError Error) Record :=
  let seq := log.seq + 1
  match format.prepare seq call with
  | .error e => ({ log with seq }, .error (.refused e))
  | .ok record =>
    match format.json record with
    | none => ({ log with seq }, .error .marshal)
    | some v =>
        ({ file := log.file ++ (marshal v ++ ['\n']), records := log.records ++ [record], seq },
          .ok record)

/-- `restoreFromDisk`, over the lines that are left to scan. -/
def restoreLines (records : List Record) : List Text → Except RestoreError (List Record)
  | [] => .ok records
  | line :: lines =>
      if maxScanTokenSize ≤ byteLength line then .error .tooLong
      else
        let text := trimSpace (dropReturn line)
        if text = [] then restoreLines records lines
        else
          match (unmarshal text).bind format.ofJson with
          | none => .error .invalidLine
          | some record => restoreLines (records ++ [record]) lines

def restoreFromDisk (file : Text) : Except RestoreError (List Record) :=
  restoreLines format [] (scanLines file)

/-- The log over a new file. -/
def newLog : Log Record where
  file := []
  records := []
  seq := 0

def logAfter (calls : List Call) : Log Record :=
  calls.foldl (fun log call => (append format log call).1) newLog

/-- The records that calls return. -/
def acceptedFrom (log : Log Record) : List Call → List Record
  | [] => []
  | call :: calls =>
      match append format log call with
      | (log, .ok record) => record :: acceptedFrom log calls
      | (log, .error _) => acceptedFrom log calls

def accepted (calls : List Call) : List Record :=
  acceptedFrom format newLog calls

/-- What a restart reads back of a record's line. -/
def Readable (record : Record) : Prop :=
  ∀ v, format.json record = some v →
    byteLength (marshal v) < maxScanTokenSize ∧ depth v ≤ maxNestingDepth

/-- Records are objects that are read as what they were. -/
def Lawful : Prop :=
  ∀ record v, format.json record = some v →
    (∃ members, v = .object members) ∧ format.ofJson v = some record

end Operations

theorem scanLines_line {line : Text} (h : '\n' ∉ line) (rest : Text) :
    scanLines (line ++ '\n' :: rest) = line :: scanLines rest := by
  induction line with
  | nil => rfl
  | cons c line ih =>
      obtain ⟨hc, hline⟩ := not_or.mp (List.mem_cons.not.mp h)
      rw [List.cons_append, scanLines, if_neg (Ne.symm hc), ih hline]

theorem scanLines_lines {lines : List Text} (h : ∀ line ∈ lines, '\n' ∉ line) :
    scanLines (lines.flatMap fun line => line ++ ['\n']) = lines := by
  induction lines with
  | nil => rfl
  | cons line lines ih =>
      have hfirst := h line List.mem_cons_self
      have hrest := ih fun l hl => h l (List.mem_cons_of_mem _ hl)
      rw [List.flatMap_cons, List.append_assoc, List.singleton_append, scanLines_line hfirst, hrest]

theorem marshal_graphic (v : Json) : ∀ c ∈ marshal v, 32 ≤ c.toNat :=
  graphic_write v

theorem newline_notMem_marshal (v : Json) : '\n' ∉ marshal v := by
  intro h
  exact absurd (marshal_graphic v _ h) (by decide)

theorem marshal_object (members : List (Text × Json)) :
    ∃ t, marshal (.object members) = '\x7b' :: (t ++ ['\x7d']) := by
  cases members with
  | nil => exact ⟨[], rfl⟩
  | cons m members =>
      refine ⟨writeMember goSpelling m ++ writeMembers goSpelling members, ?_⟩
      rw [marshal, write, List.append_assoc]

/-- The line of an object is the text that is read. -/
theorem trimmed_marshal (members : List (Text × Json)) :
    trimSpace (dropReturn (marshal (.object members))) = marshal (.object members) := by
  obtain ⟨t, ht⟩ := marshal_object members
  have hlast : ('\x7b' :: (t ++ ['\x7d'])).getLast? ≠ some '\r' := by
    rw [← List.cons_append, List.getLast?_concat]
    decide
  rw [ht, dropReturn, if_neg hlast, trimSpace, List.dropWhile_cons_of_neg (by decide),
    ← List.cons_append, List.rdropWhile_concat_neg _ _ _ (by decide)]

section Restores

variable {format : Format Call Record Error}

/-- The records of a log and the lines of its file belong to the same values. -/
def Written (format : Format Call Record Error) (log : Log Record) : Prop :=
  ∃ values : List Json, log.file = (values.map marshal).flatMap (fun line => line ++ ['\n']) ∧
    List.Forall₂ (fun record v => format.json record = some v) log.records values

theorem written_append {log : Log Record} (h : Written format log) (call : Call) :
    Written format (append format log call).1 := by
  obtain ⟨values, hfile, hrecords⟩ := h
  unfold append
  dsimp only
  split
  · exact ⟨values, hfile, hrecords⟩
  split
  · exact ⟨values, hfile, hrecords⟩
  · next record _ v hv =>
      refine ⟨values ++ [v], ?_, ?_⟩
      · rw [List.map_append, List.flatMap_append, ← hfile]
        simp
      · exact List.rel_append hrecords (.cons hv .nil)

theorem written_logAfter (calls : List Call) : Written format (logAfter format calls) := by
  have hfold : ∀ log, Written format log →
      Written format (calls.foldl (fun log call => (append format log call).1) log) := by
    induction calls with
    | nil => exact fun _ h => h
    | cons call calls ih => exact fun log h => ih _ (written_append h call)
  exact hfold newLog ⟨[], rfl, .nil⟩

theorem records_append (log : Log Record) (call : Call) :
    (append format log call).1.records = log.records ++
      (match (append format log call).2 with
      | .ok record => [record]
      | .error _ => []) := by
  unfold append
  dsimp only
  split
  · exact (List.append_nil _).symm
  split
  · exact (List.append_nil _).symm
  · rfl

theorem append_ok {log : Log Record} {call : Call} {record : Record}
    (hprepare : format.prepare (log.seq + 1) call = .ok record)
    (hjson : ∃ v, format.json record = some v) :
    ∃ next, append format log call = (next, .ok record) ∧
      next.records = log.records ++ [record] := by
  obtain ⟨v, hv⟩ := hjson
  unfold append
  simp only [hprepare, hv]
  exact ⟨_, rfl, rfl⟩

theorem prefix_append (log : Log Record) (call : Call) :
    log.records <+: (append format log call).1.records := by
  rw [records_append]
  exact List.prefix_append _ _

/-- A log that refuses what a check finds wrong has only records that pass it. -/
theorem mem_append_checked {validate : Record → Option Error} {json : Record → Option Json}
    {ofJson : Json → Option Record} {log : Log Record} {call record : Record}
    (h : record ∈ (append (.checked validate json ofJson) log call).1.records) :
    record ∈ log.records ∨ validate record = none := by
  unfold append Format.checked at h
  dsimp only at h
  cases hvalid : validate call with
  | some e => exact .inl (by simpa [hvalid] using h)
  | none =>
      cases hjson : json call with
      | none => exact .inl (by simpa [hvalid, hjson] using h)
      | some v =>
          simp only [hvalid, hjson, List.mem_append, List.mem_singleton] at h
          rcases h with h | rfl
          · exact .inl h
          · exact .inr hvalid

section Checked

variable {validate : Record → Option Error} {json : Record → Option Json}
  {ofJson : Json → Option Record}

theorem append_checked_ok (log : Log Record) {record : Record} {v : Json}
    (hvalid : validate record = none) (hjson : json record = some v) :
    append (.checked validate json ofJson) log record =
      (⟨log.file ++ (marshal v ++ ['\n']), log.records ++ [record], log.seq + 1⟩, .ok record) := by
  unfold append Format.checked
  simp only [hvalid, hjson]

theorem append_checked_error (log : Log Record) {record : Record}
    (h : validate record = none → json record = none) :
    ∃ e, append (.checked validate json ofJson) log record =
      ({ log with seq := log.seq + 1 }, .error e) := by
  unfold append Format.checked
  cases hvalid : validate record with
  | some e =>
      simp only [hvalid]
      exact ⟨_, rfl⟩
  | none =>
      simp only [hvalid, h hvalid]
      exact ⟨_, rfl⟩

end Checked

/-- The records in memory are the accepted ones. -/
theorem records_logAfter (calls : List Call) :
    (logAfter format calls).records = accepted format calls := by
  have hfold : ∀ log, (calls.foldl (fun log call => (append format log call).1) log).records =
      log.records ++ acceptedFrom format log calls := by
    induction calls with
    | nil => exact fun log => (List.append_nil _).symm
    | cons call calls ih =>
        intro log
        have hrecords := @records_append _ _ _ format log call
        rw [List.foldl_cons, ih, acceptedFrom]
        rcases hcall : append format log call with ⟨next, result⟩
        simp only [hcall] at hrecords
        cases result with
        | ok record => simp only [hrecords, List.append_assoc, List.singleton_append]
        | error e => simp only [hrecords, List.append_nil]
  exact hfold newLog

/-- Reading the lines of records gives the records back if and only if each of
them can be read. -/
theorem restoreLines_iff (hlaw : Lawful format) {records : List Record} {values : List Json}
    (h : List.Forall₂ (fun record v => format.json record = some v) records values)
    (before : List Record) :
    restoreLines format before (values.map marshal) = .ok (before ++ records) ↔
      ∀ record ∈ records, Readable format record := by
  induction h generalizing before with
  | nil => simp [restoreLines]
  | @cons record v records values hv _ ih =>
      obtain ⟨⟨members, rfl⟩, hread⟩ := hlaw record v hv
      have hreadable : Readable format record ↔
          byteLength (marshal (.object members)) < maxScanTokenSize ∧
            depth (.object members) ≤ maxNestingDepth := by
        refine ⟨fun hr => hr _ hv, fun hr w hw => ?_⟩
        rw [hv] at hw
        exact Option.some.inj hw ▸ hr
      rw [List.forall_mem_cons, hreadable, List.map_cons, restoreLines]
      by_cases hlong : maxScanTokenSize ≤ byteLength (marshal (.object members))
      · rw [if_pos hlong]
        have hnot : ¬ byteLength (marshal (.object members)) < maxScanTokenSize := by omega
        simp [hnot]
      have hshort : byteLength (marshal (.object members)) < maxScanTokenSize := by omega
      have hne : marshal (.object members) ≠ [] := by
        obtain ⟨t, ht⟩ := marshal_object members
        rw [ht]
        exact List.cons_ne_nil _ _
      rw [if_neg hlong]
      simp only [trimmed_marshal, if_neg hne, unmarshal_marshal]
      by_cases hdepth : depth (.object members) ≤ maxNestingDepth
      · have hbefore : before ++ record :: records = (before ++ [record]) ++ records := by simp
        simp only [hdepth, if_true, Option.bind_some, hread, hbefore, ih, hshort, true_and]
      · simp [hdepth]

/-- Lines of records that are read at all are read as what they were. -/
theorem restoreLines_ok (hlaw : Lawful format) {records : List Record} {values : List Json}
    (h : List.Forall₂ (fun record v => format.json record = some v) records values)
    {before restored : List Record}
    (hrestored : restoreLines format before (values.map marshal) = .ok restored) :
    restored = before ++ records := by
  induction h generalizing before with
  | nil =>
      cases hrestored
      exact (List.append_nil _).symm
  | @cons record v records values hv _ ih =>
      obtain ⟨⟨members, rfl⟩, hread⟩ := hlaw record v hv
      have hne : marshal (.object members) ≠ [] := by
        obtain ⟨t, ht⟩ := marshal_object members
        rw [ht]
        exact List.cons_ne_nil _ _
      rw [List.map_cons, restoreLines] at hrestored
      split at hrestored
      · cases hrestored
      simp only [trimmed_marshal, if_neg hne, unmarshal_marshal] at hrestored
      split at hrestored
      · cases hrestored
      next found hfound =>
      obtain ⟨w, hw, hfound⟩ := Option.bind_eq_some_iff.mp hfound
      have hsame : .object members = w := by
        split at hw
        · exact Option.some.inj hw
        · cases hw
      rw [← hsame, hread] at hfound
      cases hfound
      rw [ih hrestored, List.append_assoc, List.singleton_append]

/-- A restart that reads the file of a log has the records of the log. -/
theorem restored_eq (hlaw : Lawful format) {log : Log Record} (h : Written format log)
    {restored : List Record} (hrestored : restoreFromDisk format log.file = .ok restored) :
    restored = log.records := by
  obtain ⟨values, hfile, hrecords⟩ := h
  have hlines : ∀ line ∈ values.map marshal, '\n' ∉ line := by
    intro line hline
    obtain ⟨v, _, rfl⟩ := List.mem_map.mp hline
    exact newline_notMem_marshal v
  rw [restoreFromDisk, hfile, scanLines_lines hlines] at hrestored
  exact restoreLines_ok hlaw hrecords hrestored

/-- A restart gives the accepted records back if and only if each of them can
be read. -/
theorem restore_iff (hlaw : Lawful format) (calls : List Call) :
    restoreFromDisk format (logAfter format calls).file = .ok (accepted format calls) ↔
      ∀ record ∈ accepted format calls, Readable format record := by
  obtain ⟨values, hfile, hrecords⟩ := @written_logAfter _ _ _ format calls
  have hlines : ∀ line ∈ values.map marshal, '\n' ∉ line := by
    intro line hline
    obtain ⟨v, _, rfl⟩ := List.mem_map.mp hline
    exact newline_notMem_marshal v
  rw [records_logAfter] at hrecords
  rw [restoreFromDisk, hfile, scanLines_lines hlines]
  exact restoreLines_iff hlaw hrecords []

end Restores

/-! Long texts make long lines. -/

theorem length_le_byteLength (t : Text) : t.length ≤ byteLength t := by
  induction t with
  | nil => exact Nat.zero_le _
  | cons c t ih =>
      have hbyte : 1 ≤ (Sha256.utf8Bytes c).length := by
        unfold Sha256.utf8Bytes
        dsimp only
        split_ifs <;> simp
      unfold byteLength at ih ⊢
      rw [List.flatMap_cons, List.length_append, List.length_cons]
      omega

theorem spell_ne_nil (escapes : Escapes) (c : Char) : escapes.spell c ≠ [] := by
  intro h
  have hread := escapes.read_spell c ['"']
  rw [h] at hread
  simp [readUnits] at hread

theorem length_le_marshal_string (t : Text) : t.length ≤ (marshal (.string t)).length := by
  have hspelled : t.length ≤ (t.flatMap goSpelling.spell).length := by
    induction t with
    | nil => exact Nat.zero_le _
    | cons c t ih =>
        have hpos := List.length_pos_iff.mpr (spell_ne_nil goSpelling c)
        rw [List.flatMap_cons, List.length_append, List.length_cons]
        omega
  simp only [marshal, write, writeString, List.length_cons, List.length_append]
  omega

/-- The text of an object is at least as long as that of each member. -/
theorem length_le_marshal_object {members : List (Text × Json)} {m : Text × Json}
    (h : m ∈ members) : (marshal m.2).length ≤ (marshal (.object members)).length := by
  have hmember : ∀ m : Text × Json, (marshal m.2).length ≤ (writeMember goSpelling m).length := by
    rintro ⟨name, v⟩
    rw [writeMember, List.length_append, List.length_cons]
    exact Nat.le_add_left_of_le (Nat.le_succ _)
  have hmembers : ∀ {members : List (Text × Json)}, m ∈ members →
      (marshal m.2).length ≤ (writeMembers goSpelling members).length := by
    intro members h
    induction members with
    | nil => cases h
    | cons first members ih =>
        rw [writeMembers, List.length_cons, List.length_append]
        rcases List.mem_cons.mp h with rfl | h
        · have := hmember m
          omega
        · have := ih h
          omega
  cases members with
  | nil => cases h
  | cons first members =>
      simp only [marshal, write, List.length_cons, List.length_append] at hmembers hmember ⊢
      rcases List.mem_cons.mp h with rfl | h
      · have := hmember m
        omega
      · have := hmembers h
        omega

end C2c.Library.JsonLines
