import C2c.Orchestrator.JavaProject

namespace C2c.Orchestrator.ProposalAgreement

open C2c.Library.JavaText
open C2c.Library.Sha256
open C2c.Orchestrator.JavaProject

section Proposals

variable {unifiedFileDiff : Text → Text → Text → Text} {snapshot candidate : FileMap}

/-- What the entry of a proposal records of the two contents of its file. -/
structure Records (unifiedFileDiff : Text → Text → Text → Text) (snapshot candidate : FileMap)
    (entry : ProposalFile) : Prop where
  before : entry.beforeSha256 = (snapshot[entry.path]?).map sha256Hex
  after : ∃ content : Text, candidate[entry.path]? = some content ∧
    snapshot.getD entry.path [] ≠ content ∧ entry.afterSha256 = sha256Hex content ∧
      entry.diff = unifiedFileDiff entry.path (snapshot.getD entry.path []) content
  kept : entry.changeType = if entry.path ∈ snapshot then .modify else .add

theorem getElem?_of_mem {files : FileMap} {path : Text} (h : path ∈ files) :
    files[path]? = some (files.getD path []) :=
  Std.ExtTreeMap.getElem?_eq_some_getD h

theorem getElem?_of_not_mem {files : FileMap} {path : Text} (h : path ∉ files) :
    files[path]? = none := by
  simpa using h

theorem proposalFile_eq_some {path content : Text} {entry : ProposalFile} :
    proposalFile unifiedFileDiff snapshot path content = some entry ↔
      snapshot.getD path [] ≠ content ∧
        entry =
          { path := path
            changeType := if path ∈ snapshot then .modify else .add
            beforeSha256 := (snapshot[path]?).map sha256Hex
            afterSha256 := sha256Hex content
            diff := unifiedFileDiff path (snapshot.getD path []) content } := by
  have hbefore : (if path ∈ snapshot then some (sha256Hex (snapshot.getD path [])) else none) =
      (snapshot[path]?).map sha256Hex := by
    split
    · rename_i hmem
      rw [getElem?_of_mem hmem]
      rfl
    · rename_i hmem
      rw [getElem?_of_not_mem hmem]
      rfl
  unfold proposalFile
  dsimp only
  rw [hbefore]
  split
  · rename_i heq
    simp [heq]
  · rename_i hne
    simp only [Option.some.injEq, ne_eq, hne, not_false_eq_true, true_and]
    exact eq_comm

theorem mem_proposalFiles {entry : ProposalFile} :
    entry ∈ proposalFiles unifiedFileDiff snapshot candidate ↔
      Records unifiedFileDiff snapshot candidate entry := by
  simp only [proposalFiles, List.mem_filterMap, Prod.exists,
    Std.ExtTreeMap.mem_toList_iff_getElem?_eq_some, proposalFile_eq_some]
  constructor
  · rintro ⟨path, content, hcontent, hne, rfl⟩
    exact ⟨rfl, ⟨content, hcontent, hne, rfl, rfl⟩, rfl⟩
  · rintro ⟨hbefore, ⟨content, hcontent, hne, hafter, hdiff⟩, hkept⟩
    refine ⟨entry.path, content, hcontent, hne, ?_⟩
    rw [← hbefore, ← hkept, ← hafter, ← hdiff]

theorem Records.present {entry : ProposalFile}
    (h : Records unifiedFileDiff snapshot candidate entry) :
    entry.beforeSha256.isSome ↔ entry.path ∈ snapshot := by
  rw [h.before, Option.isSome_map, Std.ExtTreeMap.mem_iff_isSome_getElem?]

theorem Records.not_delete {entry : ProposalFile}
    (h : Records unifiedFileDiff snapshot candidate entry) : entry.changeType ≠ .delete := by
  rw [h.kept]
  split
  · simp
  · simp

theorem proposalFiles_sorted :
    (proposalFiles unifiedFileDiff snapshot candidate).Pairwise
      fun left right => compare left.path right.path = .lt := by
  refine List.Pairwise.filterMap _ ?_ (Std.ExtTreeMap.ordered_keys_toList (t := candidate))
  intro left right hlt before hbefore after hafter
  rw [proposalFile_eq_some] at hbefore hafter
  rw [hbefore.2, hafter.2]
  exact hlt

/-- Two proposals with the same entries are the same. -/
theorem proposalFiles_eq {snapshot' candidate' : FileMap}
    (h : ∀ entry, Records unifiedFileDiff snapshot candidate entry ↔
      Records unifiedFileDiff snapshot' candidate' entry) :
    proposalFiles unifiedFileDiff snapshot candidate =
      proposalFiles unifiedFileDiff snapshot' candidate' := by
  let earlier (left right : ProposalFile) : Prop := compare left.path right.path = .lt
  have hirrefl : Std.Irrefl earlier := ⟨fun entry => by simp [earlier]⟩
  have hantisymm : Std.Antisymm earlier := by
    constructor
    intro left right hlt hgt
    exact absurd (Std.OrientedCmp.gt_of_lt hgt) (by simp [show compare _ _ = _ from hlt])
  refine List.Pairwise.eq_of_mem_iff proposalFiles_sorted proposalFiles_sorted ?_
  intro entry
  rw [mem_proposalFiles, mem_proposalFiles]
  exact h entry

theorem buildProposalFiles_eq_ok {files : List ProposalFile}
    (h : buildProposalFiles unifiedFileDiff snapshot candidate = .ok files) :
    files = proposalFiles unifiedFileDiff snapshot candidate ∧
      ∀ path ∈ candidate, isAllowedRepairJavaPath path = true := by
  unfold buildProposalFiles at h
  split at h
  · contradiction
  · rename_i hnone
    refine ⟨(Except.ok.inj h).symm, ?_⟩
    intro path hpath
    have hmem := Std.ExtTreeMap.mem_toList_iff_getElem?_eq_some.mpr (getElem?_of_mem hpath)
    simpa using List.find?_eq_none.mp hnone _ hmem

end Proposals

section Validation

variable {snapshot candidate expected expected' : FileMap}

/-- What the check of an entry that is no deletion finds. -/
theorem expectFile_eq_ok {entry : ProposalFile} (hkept : entry.changeType ≠ .delete)
    (h : expectFile snapshot candidate expected entry = .ok expected') :
    isAllowedRepairJavaPath entry.path = true ∧
      (∀ before ∈ entry.beforeSha256, sha256Hex (snapshot.getD entry.path []) = before) ∧
        ∃ content : Text, candidate[entry.path]? = some content ∧
          sha256Hex content = entry.afterSha256 ∧
            expected' = expected.insert entry.path content := by
  unfold expectFile at h
  dsimp only at h
  split at h
  · contradiction
  · rename_i hallowed
    split at h
    · contradiction
    · rename_i hbefore
      split at h
      · contradiction
      · rename_i hafter
        split at h
        · rename_i hdelete
          exact absurd hdelete hkept
        · contradiction
        · rename_i content hcontent _
          refine ⟨by simpa using hallowed, ?_, content, hcontent, ?_, (Except.ok.inj h).symm⟩
          · intro before hmem
            rw [Option.mem_def.mp hmem] at hbefore
            simpa using hbefore
          · rw [Std.ExtTreeMap.getD_eq_getD_getElem?, hcontent] at hafter
            simpa using hafter

/-- What the checks of a proposal find, no entry being a deletion. -/
structure Checked (snapshot candidate : FileMap) (entry : ProposalFile) : Prop where
  allowed : isAllowedRepairJavaPath entry.path = true
  before : ∀ before ∈ entry.beforeSha256, sha256Hex (snapshot.getD entry.path []) = before
  after : ∃ content : Text, candidate[entry.path]? = some content ∧
    sha256Hex content = entry.afterSha256

theorem expectedFiles_eq_ok {entries : List ProposalFile}
    (hkept : ∀ entry ∈ entries, entry.changeType ≠ .delete)
    (h : expectedFiles snapshot candidate entries expected = .ok expected') :
    (∀ entry ∈ entries, Checked snapshot candidate entry) ∧
      ∀ path, expected'[path]? =
        if path ∈ entries.map ProposalFile.path then candidate[path]? else expected[path]? := by
  induction entries generalizing expected with
  | nil =>
      obtain rfl : expected = expected' := Except.ok.inj h
      simp
  | cons entry entries ih =>
      simp only [expectedFiles] at h
      cases hfile : expectFile snapshot candidate expected entry with
      | error e =>
          rw [hfile] at h
          contradiction
      | ok next =>
          rw [hfile] at h
          obtain ⟨hchecked, hrest⟩ :=
            ih (fun other hother => hkept other (List.mem_cons_of_mem _ hother)) h
          obtain ⟨hallowed, hbefore, content, hcontent, hafter, rfl⟩ :=
            expectFile_eq_ok (hkept entry List.mem_cons_self) hfile
          refine ⟨?_, ?_⟩
          · intro other hother
            rcases List.mem_cons.mp hother with rfl | hother
            · exact ⟨hallowed, hbefore, content, hcontent, hafter⟩
            · exact hchecked other hother
          · intro path
            simp only [hrest path, List.map_cons, List.mem_cons, Std.ExtTreeMap.getElem?_insert]
            by_cases hpath : path = entry.path
            · simp [hpath, hcontent]
            · have hne : compare entry.path path ≠ .eq := by
                simpa using Ne.symm hpath
              simp [hpath, hne]

/-- What a proposal that passes the checks says of the candidate. -/
theorem validate_eq_ok {entries : List ProposalFile}
    (hkept : ∀ entry ∈ entries, entry.changeType ≠ .delete)
    (h : validateManualCompileApplyCandidate entries snapshot candidate = .ok ⟨⟩) :
    (∀ entry ∈ entries, Checked snapshot candidate entry) ∧
      ∀ path ∉ entries.map ProposalFile.path, candidate[path]? = snapshot[path]? := by
  unfold validateManualCompileApplyCandidate at h
  cases hexpected : expectedFiles snapshot candidate entries snapshot with
  | error e =>
      rw [hexpected] at h
      contradiction
  | ok expected =>
      rw [hexpected] at h
      obtain ⟨hchecked, hlookup⟩ := expectedFiles_eq_ok hkept hexpected
      refine ⟨hchecked, ?_⟩
      intro path hpath
      have hexpectedPath := hlookup path
      rw [if_neg hpath] at hexpectedPath
      rw [← hexpectedPath]
      change (if candidate.keys ≠ expected.keys then _ else _) = _ at h
      split at h
      · contradiction
      · rename_i hkeys
        rw [not_not] at hkeys
        split at h
        · contradiction
        · rename_i hnone
          cases hcontent : expected[path]? with
          | some content =>
              have hmem := Std.ExtTreeMap.mem_toList_iff_getElem?_eq_some.mpr hcontent
              simpa using List.find?_eq_none.mp hnone _ hmem
          | none =>
              have hnotin : path ∉ expected.keys := by
                rw [Std.ExtTreeMap.mem_keys]
                simpa using hcontent
              rw [← hkeys, Std.ExtTreeMap.mem_keys] at hnotin
              exact getElem?_of_not_mem hnotin

end Validation

/-- No file has two contents with one hash. -/
def NoCollision (left right : FileMap) : Prop :=
  ∀ path before after : Text, left[path]? = some before → right[path]? = some after →
    sha256Hex before = sha256Hex after → before = after

theorem noCollision_self (files : FileMap) : NoCollision files files := by
  intro path before after hbefore hafter _
  exact Option.some.inj (hbefore.symm.trans hafter)

/-- What the hashes of a proposal leave open: an added file is still absent, a
changed one still there, and no two contents collide. -/
structure Current (entries : List ProposalFile) (base made snapshot candidate : FileMap) :
    Prop where
  present : ∀ entry ∈ entries, entry.beforeSha256.isSome ↔ entry.path ∈ snapshot
  snapshot : NoCollision base snapshot
  candidate : NoCollision made candidate

section Agreement

variable {unifiedFileDiff : Text → Text → Text → Text} {base made snapshot candidate : FileMap}

/-- A checked entry stands for the same change where it was made. -/
theorem same_change {entries : List ProposalFile} {entry : ProposalFile} (hmem : entry ∈ entries)
    (hrecords : Records unifiedFileDiff base made entry)
    (hcurrent : Current entries base made snapshot candidate)
    (hchecked : Checked snapshot candidate entry) :
    snapshot[entry.path]? = base[entry.path]? ∧ candidate[entry.path]? = made[entry.path]? := by
  constructor
  · by_cases hbase : entry.path ∈ base
    · have hsnapshot : entry.path ∈ snapshot :=
        (hcurrent.present entry hmem).mp (hrecords.present.mpr hbase)
      have hhash : sha256Hex (base.getD entry.path []) = sha256Hex (snapshot.getD entry.path []) := by
        refine (hchecked.before _ ?_).symm
        rw [hrecords.before, getElem?_of_mem hbase]
        rfl
      rw [getElem?_of_mem hsnapshot, getElem?_of_mem hbase]
      exact congrArg some (hcurrent.snapshot _ _ _ (getElem?_of_mem hbase)
        (getElem?_of_mem hsnapshot) hhash).symm
    · have hsnapshot : entry.path ∉ snapshot := by
        intro hpresent
        exact hbase (hrecords.present.mp ((hcurrent.present entry hmem).mpr hpresent))
      rw [getElem?_of_not_mem hbase, getElem?_of_not_mem hsnapshot]
  · obtain ⟨after, hmade, _, hafter, _⟩ := hrecords.after
    obtain ⟨content, hcandidate, hcontent⟩ := hchecked.after
    rw [hmade, hcandidate, hcurrent.candidate _ _ _ hmade hcandidate (hafter.symm.trans hcontent.symm)]

/-- A proposal is current where it was made. -/
theorem current_self :
    Current (proposalFiles unifiedFileDiff base made) base made base made := by
  refine ⟨?_, noCollision_self base, noCollision_self made⟩
  intro entry hentry
  exact (mem_proposalFiles.mp hentry).present

/-- The same change at one path is recorded the same way. -/
theorem Records.transfer {entry : ProposalFile} (h : Records unifiedFileDiff base made entry)
    (hsnapshot : snapshot[entry.path]? = base[entry.path]?)
    (hcandidate : candidate[entry.path]? = made[entry.path]?) :
    Records unifiedFileDiff snapshot candidate entry := by
  have hmem : entry.path ∈ snapshot ↔ entry.path ∈ base := by
    rw [Std.ExtTreeMap.mem_iff_isSome_getElem?, hsnapshot, Std.ExtTreeMap.mem_iff_isSome_getElem?]
  have hgetD : snapshot.getD entry.path [] = base.getD entry.path [] := by
    rw [Std.ExtTreeMap.getD_eq_getD_getElem?, hsnapshot, Std.ExtTreeMap.getD_eq_getD_getElem?]
  obtain ⟨hbefore, ⟨content, hcontent, hne, hafter, hdiff⟩, hkept⟩ := h
  refine ⟨?_, ⟨content, ?_, ?_, hafter, ?_⟩, ?_⟩
  · rw [hsnapshot, hbefore]
  · rw [hcandidate, hcontent]
  · rw [hgetD]
    exact hne
  · rw [hgetD, hdiff]
  · simp only [hmem, hkept]

/-- A checked proposal is the difference of the snapshot and the candidate. -/
theorem proposalFiles_of_checked
    (hcurrent : Current (proposalFiles unifiedFileDiff base made) base made snapshot candidate)
    (hchecked : ∀ entry ∈ proposalFiles unifiedFileDiff base made,
      Checked snapshot candidate entry)
    (huntouched : ∀ path ∉ (proposalFiles unifiedFileDiff base made).map ProposalFile.path,
      candidate[path]? = snapshot[path]?) :
    proposalFiles unifiedFileDiff snapshot candidate = proposalFiles unifiedFileDiff base made := by
  have hsame : ∀ entry ∈ proposalFiles unifiedFileDiff base made,
      snapshot[entry.path]? = base[entry.path]? ∧ candidate[entry.path]? = made[entry.path]? :=
    fun entry hentry =>
      same_change hentry (mem_proposalFiles.mp hentry) hcurrent (hchecked entry hentry)
  refine proposalFiles_eq ?_
  intro entry
  constructor
  · intro hrecords
    have htouched : entry.path ∈ (proposalFiles unifiedFileDiff base made).map ProposalFile.path := by
      by_contra hnot
      obtain ⟨content, hcontent, hne, _⟩ := hrecords.after
      rw [huntouched _ hnot] at hcontent
      rw [Std.ExtTreeMap.getD_eq_getD_getElem?, hcontent] at hne
      exact hne rfl
    obtain ⟨other, hother, hpath⟩ := List.mem_map.mp htouched
    obtain ⟨hsnapshot, hcandidate⟩ := hsame other hother
    rw [hpath] at hsnapshot hcandidate
    exact hrecords.transfer hsnapshot.symm hcandidate.symm
  · intro hrecords
    obtain ⟨hsnapshot, hcandidate⟩ := hsame entry (mem_proposalFiles.mpr hrecords)
    exact hrecords.transfer hsnapshot hcandidate

end Agreement

end C2c.Orchestrator.ProposalAgreement
