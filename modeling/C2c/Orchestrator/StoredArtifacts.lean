import C2c.Library.Machine
import C2c.Orchestrator.ArtifactStore

/-!
What the index of a run says of its artifacts, and what a write does to other runs.
-/

namespace C2c.Orchestrator.StoredArtifacts

open C2c.Library.FileTree
open C2c.Library.JavaText
open C2c.Library.Machine
open C2c.Library.PythonText
open C2c.Library.Raising
open C2c.Orchestrator.ArtifactStore
open C2c.Orchestrator.ArtifactStore.RunArtifactStore

section Property

variable (s : RunArtifactStore)

/-- The artifacts of a run are what its index says of them. -/
def Sound (files : Files) (runId : Text) : Prop :=
  ∃ index, s.readIndex files runId = .ok (some index) ∧
    (index.artifacts.map ArtifactMetadata.path).Nodup ∧
    ∀ entry ∈ index.artifacts, ∃ data, s.readBytes files runId entry.path = .ok (some data) ∧
      sha256Digest data = entry.sha256 ∧ data.length = entry.byteSize

/-- What a run is read to have at a path is the same in two states. -/
def SameReads (files files' : Files) (runId relpath : Text) : Prop :=
  s.readBytes files' runId relpath = s.readBytes files runId relpath ∧
    s.readIndex files' runId = s.readIndex files runId ∧
    s.findMetadata files' runId relpath = s.findMetadata files runId relpath

/-- In every state the calls lead to, the runs that a call has written to are
sound, and no call has changed what `reads` get of another run. -/
def Faithful (reads : Text → Text → Prop) (files : Files) (calls : List Call) : Prop :=
  ∀ before call later rest, calls = before ++ call :: later ++ rest →
    let state := run s.step files before
    (resultOf (s.writeBytes call.write) state ≠ none →
      Sound s (run s.step files (before ++ call :: later)) call.write.runId) ∧
    ∀ runId relpath, reads runId relpath → runId ≠ call.write.runId →
      SameReads s state (s.step state call) runId relpath

/-- The write is to a file of the run's own directory that no other part of the
store uses: not the index, not the temporary file of the index, no artifact that
is known under another spelling, and no artifact that has the name of the
temporary file. -/
structure Clear (files : Files) (w : Write) : Prop where
  run : w.runId ≠ ['.']
  file : pathParts w.relpath ≠ []
  index : pathParts w.relpath ≠ [indexFile]
  temporaryIndex : ¬ [temporaryName indexFile] <+: pathParts w.relpath
  temporary : ∀ state, s.readIndex files w.runId = .ok (some state) →
    ∀ entry ∈ state.artifacts, ∀ dir name, pathParts w.relpath = dir ++ [name] →
      pathParts entry.path ≠ dir ++ [temporaryName name]
  spelling : ∀ state, s.readIndex files w.runId = .ok (some state) →
    ∀ entry ∈ state.artifacts, pathParts entry.path = pathParts w.relpath →
      entry.path ≠ w.relpath →
        sha256Digest w.data = entry.sha256 ∧ w.data.length = entry.byteSize

/-- A read that stays in the directory of a run. -/
def Confined (runId relpath : Text) : Prop :=
  runId ≠ ['.'] ∧ startsWith relpath ['/'] = false ∧ ['.', '.'] ∉ pathParts relpath

end Property

section Locations

variable {s : RunArtifactStore} {files : Files}

theorem splitAtChar_of_notMem {c : Char} {t : Text} (h : c ∉ t) : splitAtChar c t = [t] := by
  induction t with
  | nil => rfl
  | cons d t ih =>
      have hd : d ≠ c := fun heq => h (heq ▸ List.mem_cons_self)
      have ht : c ∉ t := fun hmem => h (List.mem_cons_of_mem _ hmem)
      rw [splitAtChar, if_neg hd, ih ht]

theorem pathParts_name {t : Text} (hslash : '/' ∉ t) (hempty : t ≠ []) (hdot : t ≠ ['.']) :
    pathParts t = [t] := by
  simp [pathParts, splitAtChar_of_notMem hslash, hempty, hdot]

/-- A run id that is taken is the name of a directory of the store, unless it is
the store's own. -/
theorem runDir_eq {runId : Text} {dir : Location} (h : s.runDir runId = .ok dir)
    (hdot : runId ≠ ['.']) : dir = s.root ++ [runId] := by
  unfold runDir at h
  split_ifs at h with hempty hinvalid
  rw [Bool.or_eq_true, not_or, Bool.or_eq_true, not_or] at hinvalid
  have hslash : '/' ∉ runId := fun hmem => hinvalid.1.1 (List.contains_iff_mem.mpr hmem)
  rw [pathParts_name hslash hempty hdot] at h
  exact (Except.ok.inj h).symm

theorem temporaryName_injective {name name' : Text} (h : temporaryName name = temporaryName name') :
    name = name' :=
  List.append_cancel_right (List.cons.inj h).2

theorem temporaryName_ne (name : Text) : temporaryName name ≠ indexFile :=
  fun h => absurd (List.cons.inj h).1 (by decide)

theorem temporaryName_ne_self (name : Text) : temporaryName name ≠ name := by
  intro h
  have hlength := congrArg List.length h
  simp only [temporaryName, List.length_cons, List.length_append] at hlength
  omega

end Locations

section Elsewhere

variable (s : RunArtifactStore)

/-- Nothing has changed below the directories of other runs. -/
def Elsewhere (runId : Text) (files files' : Files) : Prop :=
  ∀ other rest, other ≠ runId → files'.node (s.root ++ other :: rest) =
    files.node (s.root ++ other :: rest)

variable {s} {runId : Text}

instance : IsPreorder Files (Elsewhere s runId) where
  refl _ _ _ _ := rfl
  trans _ _ _ h₁ h₂ other rest hother := (h₂ other rest hother).trans (h₁ other rest hother)

theorem after_system {A : Type} {m : EStateM OsError Files A} {post : A → Files → Prop}
    {raised : StoreError → Files → Prop} {files : Files} :
    After (system m) post raised files ↔ After m post (fun e => raised (.os e)) files := by
  unfold After system
  cases m files <;> rfl

theorem elsewhere_of_grown {path : List Text} {files files' : Files}
    (h : Grown (fun l => l <+: s.root ++ runId :: path) files files') :
    Elsewhere s runId files files' := by
  intro other rest hother
  rcases h (s.root ++ other :: rest) with heq | ⟨hbelow, -⟩
  · exact heq
  · have hcons := (List.prefix_append_right_inj _).mp hbelow
    exact absurd (List.cons_prefix_cons.mp hcons).1 hother

theorem elsewhere_update {files files' : Files} {path : List Text} {x : Option (Node Content)}
    (h : files'.node = Function.update files.node (s.root ++ runId :: path) x) :
    Elsewhere s runId files files' := by
  intro other rest hother
  rw [h, Function.update_of_ne]
  intro heq
  exact hother (List.cons.inj (List.append_cancel_left heq)).1

/-- Making the parents of a file of a run. -/
theorem grown_parents {dir : List Text} {name : Text} :
    Within (Grown fun l => l <+: s.root ++ runId :: dir)
      (system (makeDirectories [] (s.root ++ runId :: (dir ++ [name])).dropLast)) := by
  intro files
  have hparent : (s.root ++ runId :: (dir ++ [name])).dropLast = s.root ++ runId :: dir := by
    rw [← List.cons_append, ← List.append_assoc, List.dropLast_concat]
  rw [hparent]
  exact after_system.mpr (within_makeDirectories (fun _ hl => hl) files)

/-- The outcome of an atomic write of a file of a run. -/
theorem after_atomicWriteBytes {files : Files} {dir : List Text} {name : Text} {content : Content} :
    After (atomicWriteBytes (s.root ++ runId :: (dir ++ [name])) content)
      (fun _ files' => files'.node =
        Function.update (Function.update files.node
          (s.root ++ runId :: (dir ++ [temporaryName name])) none)
          (s.root ++ runId :: (dir ++ [name])) (some (.file content)))
      (fun _ files' => (files' = files ∨ files'.node = Function.update files.node
          (s.root ++ runId :: (dir ++ [temporaryName name])) (some (.file content))) ∧
        (files.node (s.root ++ runId :: dir) = some .directory →
          files.node (s.root ++ runId :: (dir ++ [temporaryName name])) ≠ some .directory →
            files.node (s.root ++ runId :: (dir ++ [name])) = some .directory)) files := by
  have hassoc (last : Text) : s.root ++ runId :: (dir ++ [last]) =
      (s.root ++ runId :: dir) ++ [last] := by simp
  have hlast : (s.root ++ runId :: (dir ++ [name])).getLast? = some name := by
    rw [hassoc, List.getLast?_concat]
  unfold atomicWriteBytes
  rw [hlast, hassoc, hassoc, List.dropLast_concat]
  exact after_system.mpr ((after_write_replace (temporaryName_ne_self name)).mono
    (fun _ _ h => h.2) fun _ _ h => h)

theorem elsewhere_atomicWriteBytes {dir : List Text} {name : Text} {content : Content} :
    Within (Elsewhere s runId) (atomicWriteBytes (s.root ++ runId :: (dir ++ [name])) content) := by
  intro files
  refine after_atomicWriteBytes.mono ?_ ?_
  · intro _ files' h other rest hother
    have hne (path : List Text) : s.root ++ other :: rest ≠ s.root ++ runId :: path :=
      fun heq => hother (List.cons.inj (List.append_cancel_left heq)).1
    rw [h, Function.update_of_ne (hne _), Function.update_of_ne (hne _)]
  · rintro _ files' ⟨rfl | h, -⟩
    · exact refl_of (Elsewhere s runId) files'
    · exact elsewhere_update h

theorem elsewhere_record {metadata : ArtifactMetadata} {now : Text} (hdot : runId ≠ ['.']) :
    Within (Elsewhere s runId) (s.record runId metadata now) := by
  intro files
  unfold record
  rw [after_bind, after_returning]
  refine ⟨fun dir hdir => ?_, fun _ _ => refl_of (Elsewhere s runId) files⟩
  obtain rfl := runDir_eq hdir hdot
  refine within_bind within_get (fun files => within_bind (within_returning _) fun state => ?_) files
  rw [List.append_assoc]
  exact @elsewhere_atomicWriteBytes s runId [] indexFile _

/-- A write leaves the directories of other runs alone. -/
theorem elsewhere_writeBytes {w : Write} (hdot : w.runId ≠ ['.']) (hfile : pathParts w.relpath ≠ []) :
    Within (Elsewhere s w.runId) (s.writeBytes w) := by
  intro files
  unfold writeBytes
  rw [after_bind, after_require]
  refine ⟨fun _ => ?_, fun _ => refl_of (Elsewhere s w.runId) files⟩
  rw [after_bind, after_returning]
  refine ⟨fun location hdir => ?_, fun _ _ => refl_of (Elsewhere s w.runId) files⟩
  obtain rfl := runDir_eq hdir hdot
  obtain ⟨dir, name, hparts⟩ : ∃ dir name, pathParts w.relpath = dir ++ [name] :=
    ⟨_, _, (List.dropLast_append_getLast hfile).symm⟩
  have htarget : s.root ++ [w.runId] ++ pathParts w.relpath = s.root ++ w.runId :: (dir ++ [name]) := by
    simp [hparts]
  dsimp only
  rw [htarget]
  refine within_bind (fun files => ?_) (fun _ => within_bind elsewhere_atomicWriteBytes fun _ =>
    within_bind (elsewhere_record hdot) fun _ => within_pure _) files
  exact (grown_parents files).mono (fun _ _ => elsewhere_of_grown) fun _ _ => elsewhere_of_grown

end Elsewhere

section Kept

variable (s : RunArtifactStore)

abbrev Nodes := Location → Option (Node Content)

/-- The file of an entry in the index of a run. -/
structure EntryKept (node : Nodes) (runId : Text) (entry : ArtifactMetadata) : Prop where
  path : TakesPath entry.path
  index : pathParts entry.path ≠ [indexFile]
  temporary : pathParts entry.path ≠ [temporaryName indexFile]
  stored : ∃ data, node (s.root ++ runId :: pathParts entry.path) = some (.file (.bytes data)) ∧
    sha256Digest data = entry.sha256 ∧ data.length = entry.byteSize

/-- Every index file is an index of stored artifacts, apart from the entries that
are about to be replaced, and can be replaced. -/
structure Kept (stale : Text → Text → Prop) (node : Nodes) : Prop where
  index : ∀ runId content, node (s.root ++ [runId, indexFile]) = some (.file content) →
    ∃ state, content = .index state ∧ (state.artifacts.map ArtifactMetadata.path).Nodup ∧
      ∀ entry ∈ state.artifacts, ¬ stale runId entry.path → EntryKept s node runId entry
  temporary : ∀ runId, node (s.root ++ [runId, temporaryName indexFile]) ≠ some .directory

/-- No entry is stale. -/
def fresh : Text → Text → Prop := fun _ _ => False

variable {s} {stale stale' : Text → Text → Prop} {node : Nodes} {runId : Text}

theorem kept_grown {files files' : Files} {dir : List Text} (hkept : Kept s stale files.node)
    (hgrown : Grown (fun l => l <+: s.root ++ runId :: dir) files files')
    (hdir : ¬ [temporaryName indexFile] <+: dir) : Kept s stale files'.node := by
  constructor
  · intro other content h
    obtain ⟨state, hcontent, hnodup, hentries⟩ :=
      hkept.index other content ((grown_file hgrown).mp h)
    refine ⟨state, hcontent, hnodup, fun entry hentry hstale => ?_⟩
    obtain ⟨hpath, hindex, htemporary, data, hdata, hagrees⟩ := hentries entry hentry hstale
    exact ⟨hpath, hindex, htemporary, data, (grown_file hgrown).mpr hdata, hagrees⟩
  · intro other
    rcases hgrown (s.root ++ [other, temporaryName indexFile]) with heq | ⟨hbelow, -⟩
    · rw [heq]
      exact hkept.temporary other
    · have hcons := List.cons_prefix_cons.mp ((List.prefix_append_right_inj _).mp hbelow)
      exact absurd hcons.2 hdir

theorem EntryKept.update {entry : ArtifactMetadata} {l : Location} {x : Option (Node Content)}
    (h : EntryKept s node runId entry) (hne : s.root ++ runId :: pathParts entry.path ≠ l) :
    EntryKept s (Function.update node l x) runId entry := by
  obtain ⟨hpath, hindex, htemporary, data, hdata, hagrees⟩ := h
  refine ⟨hpath, hindex, htemporary, data, ?_, hagrees⟩
  rw [Function.update_of_ne hne]
  exact hdata

theorem location_inj {other : Text} {path path' : List Text}
    (h : s.root ++ other :: path = s.root ++ runId :: path') : other = runId ∧ path = path' :=
  List.cons.inj (List.append_cancel_left h)

/-- A file of a run may change that is not the index, if it then agrees with the
entries that are known at its place. -/
theorem kept_update (hkept : Kept s stale node) {path : List Text} {x : Option (Node Content)}
    (hindex : path ≠ [indexFile]) (hfile : x ≠ some .directory)
    (hstale : ∀ other p, stale other p → stale' other p)
    (hentries : ∀ state, node (s.root ++ [runId, indexFile]) = some (.file (.index state)) →
      ∀ entry ∈ state.artifacts, pathParts entry.path = path → ¬ stale' runId entry.path →
        EntryKept s node runId entry →
        ∃ data, x = some (.file (.bytes data)) ∧ sha256Digest data = entry.sha256 ∧
          data.length = entry.byteSize) :
    Kept s stale' (Function.update node (s.root ++ runId :: path) x) := by
  constructor
  · intro other content h
    rw [Function.update_of_ne fun heq => hindex (location_inj heq).2.symm] at h
    obtain ⟨state, rfl, hnodup, hbefore⟩ := hkept.index other content h
    refine ⟨state, rfl, hnodup, fun entry hentry hfresh => ?_⟩
    have hentryKept := hbefore entry hentry fun hold => hfresh (hstale _ _ hold)
    by_cases heq : s.root ++ other :: pathParts entry.path = s.root ++ runId :: path
    · obtain ⟨rfl, hpath⟩ := location_inj heq
      obtain ⟨data, rfl, hagrees⟩ := hentries state h entry hentry hpath hfresh hentryKept
      refine ⟨hentryKept.path, hentryKept.index, hentryKept.temporary, data, ?_, hagrees⟩
      rw [heq, Function.update_self]
    · exact hentryKept.update heq
  · intro other
    rw [Function.update_apply]
    split
    · exact hfile
    · exact hkept.temporary other

/-- An index may be replaced by one whose entries are all kept. -/
theorem kept_setIndex (hkept : Kept s stale node) {state : Index}
    (hstale : ∀ other p, stale other p → other = runId)
    (hnodup : (state.artifacts.map ArtifactMetadata.path).Nodup)
    (hentries : ∀ entry ∈ state.artifacts, EntryKept s node runId entry) :
    Kept s fresh (Function.update node (s.root ++ [runId, indexFile])
      (some (.file (.index state)))) := by
  have hplace {other : Text} {entry : ArtifactMetadata} (h : EntryKept s node other entry) :
      EntryKept s (Function.update node (s.root ++ [runId, indexFile])
        (some (.file (.index state)))) other entry :=
    h.update fun heq => h.index (location_inj heq).2
  constructor
  · intro other content h
    by_cases hother : other = runId
    · subst hother
      rw [Function.update_self] at h
      cases h
      exact ⟨state, rfl, hnodup, fun entry hentry _ => hplace (hentries entry hentry)⟩
    · rw [Function.update_of_ne fun heq => hother (location_inj heq).1] at h
      obtain ⟨state', rfl, hnodup', hbefore⟩ := hkept.index other content h
      exact ⟨state', rfl, hnodup', fun entry hentry _ =>
        hplace (hbefore entry hentry fun hold => hother (hstale _ _ hold))⟩
  · intro other
    rw [Function.update_of_ne fun heq => temporaryName_ne indexFile
      (List.cons.inj (location_inj heq).2).1]
    exact hkept.temporary other

end Kept

section Writes

variable {s : RunArtifactStore} {runId : Text}

/-- A run that has an index. -/
def HasIndex (s : RunArtifactStore) (node : Nodes) (runId : Text) : Prop :=
  ∃ state, node (s.root ++ [runId, indexFile]) = some (.file (.index state))

theorem nodup_withEntry {state : Index} {metadata : ArtifactMetadata} {now : Text}
    (h : (state.artifacts.map ArtifactMetadata.path).Nodup) :
    ((withEntry state metadata now).artifacts.map ArtifactMetadata.path).Nodup := by
  have hkept : ((state.artifacts.filter fun entry => entry.path ≠ metadata.path).map
      ArtifactMetadata.path).Nodup := h.sublist (List.filter_sublist.map _)
  rw [withEntry, List.map_append, List.nodup_append]
  refine ⟨hkept, by simp, ?_⟩
  intro path hpath other hother heq
  obtain ⟨entry, hentry, rfl⟩ := List.mem_map.mp hpath
  have hne := (List.mem_filter.mp hentry).2
  simp only [List.map_cons, List.map_nil, List.mem_singleton] at hother
  exact of_decide_eq_true hne (heq.trans hother)

/-- The index that a write starts from is the one that is stored, or empty. -/
theorem currentIndex_cases {files : Files} {stale : Text → Text → Prop} {workflowId now : Text}
    (hkept : Kept s stale files.node) :
    (∃ state, s.currentIndex files (s.root ++ [runId]) runId workflowId now = .ok state ∧
      files.node (s.root ++ [runId, indexFile]) ≠ some .directory ∧
      (state.artifacts.map ArtifactMetadata.path).Nodup ∧
      ∀ entry ∈ state.artifacts, ¬ stale runId entry.path → EntryKept s files.node runId entry) ∨
    (∃ e, s.currentIndex files (s.root ++ [runId]) runId workflowId now = .error e) ∧
      files.node (s.root ++ [runId, indexFile]) = some .directory := by
  unfold currentIndex
  rw [List.append_assoc]
  change _ ∨ _ ∧ files.node (s.root ++ ([runId] ++ [indexFile])) = some .directory
  rcases hnode : files.node (s.root ++ ([runId] ++ [indexFile])) with _ | _ | content
  · refine .inl ⟨_, rfl, ?_, List.nodup_nil, fun _ h => nomatch h⟩
    exact fun h => nomatch hnode.symm.trans h
  · exact .inr ⟨⟨_, rfl⟩, rfl⟩
  · obtain ⟨state, rfl, hnodup, hentries⟩ := hkept.index runId content hnode
    refine .inl ⟨state, rfl, ?_, hnodup, hentries⟩
    exact fun h => nomatch hnode.symm.trans h

theorem after_record {files : Files} {metadata : ArtifactMetadata} {now : Text}
    (hkept : Kept s (fun other path => other = runId ∧ path = metadata.path) files.node)
    (hrun : s.runDir runId = .ok (s.root ++ [runId]))
    (hdir : files.node (s.root ++ [runId]) = some .directory)
    (hentry : EntryKept s files.node runId metadata) :
    After (s.record runId metadata now)
      (fun _ files' => Kept s fresh files'.node ∧ HasIndex s files'.node runId)
      (fun _ files' => Kept s fresh files'.node ∧ files' = files) files := by
  unfold record
  rw [hrun]
  simp only [after_bind, after_returning, after_get]
  refine ⟨?_, fun e he => by cases he⟩
  rintro - ⟨⟩
  rcases currentIndex_cases hkept with ⟨state, hstate, hnot, hnodup, hentries⟩ | ⟨⟨e, he⟩, hisDirectory⟩
  · refine ⟨?_, fun e he => (by cases he.symm.trans hstate)⟩
    intro state' hstate'
    obtain rfl := Except.ok.inj (hstate'.symm.trans hstate)
    rw [List.append_assoc]
    refine (@after_atomicWriteBytes s runId files [] indexFile _).mono ?_ ?_
    · intro _ files' h
      have htemporary : Kept s (fun other path => other = runId ∧ path = metadata.path)
          (Function.update files.node (s.root ++ [runId, temporaryName indexFile]) none) := by
        refine kept_update hkept (fun h => temporaryName_ne indexFile (List.cons.inj h).1)
          (Option.some_ne_none _).symm (fun _ _ hold => hold) ?_
        intro _ _ entry _ hplace _ hkept
        exact absurd hplace hkept.temporary
      have hstays {entry : ArtifactMetadata} (h : EntryKept s files.node runId entry) :
          EntryKept s (Function.update files.node (s.root ++ [runId, temporaryName indexFile]) none)
            runId entry := h.update fun heq => h.temporary (location_inj heq).2
      have hindex : files'.node (s.root ++ [runId, indexFile]) =
          some (.file (.index (withEntry state' metadata now))) := by
        rw [h]
        exact Function.update_self _ _ _
      refine ⟨?_, _, hindex⟩
      rw [h]
      refine kept_setIndex htemporary (fun _ _ hstale => hstale.1) (nodup_withEntry hnodup) ?_
      intro entry hmem
      rcases List.mem_append.mp hmem with hold | hnew
      · obtain ⟨hmem, hne⟩ := List.mem_filter.mp hold
        exact hstays (hentries entry hmem fun hstale => of_decide_eq_true hne hstale.2)
      · obtain rfl := List.mem_singleton.mp hnew
        exact hstays hentry
    · rintro _ files' ⟨-, hraised⟩
      exact absurd (hraised hdir (hkept.temporary runId)) hnot
  · refine ⟨fun state hstate => (by cases he.symm.trans hstate),
      fun _ _ => ⟨⟨?_, hkept.temporary⟩, trivial⟩⟩
    intro other content hcontent
    obtain ⟨state, rfl, hnodup, hentries⟩ := hkept.index other content hcontent
    refine ⟨state, rfl, hnodup, fun entry hentry _ => hentries entry hentry ?_⟩
    rintro ⟨rfl, -⟩
    cases hcontent.symm.trans hisDirectory

theorem readIndex_of_node {files : Files} (hrun : s.runDir runId = .ok (s.root ++ [runId]))
    {state : Index} (h : files.node (s.root ++ [runId, indexFile]) = some (.file (.index state))) :
    s.readIndex files runId = .ok (some state) := by
  unfold readIndex
  rw [hrun]
  dsimp only [bind, Except.bind]
  rw [List.append_assoc, List.singleton_append, h]
  rfl

/-- What a write of a clear path leaves. -/
theorem after_writeBytes {files : Files} {w : Write} (hkept : Kept s fresh files.node)
    (hclear : Clear s files w) :
    After (s.writeBytes w)
      (fun _ files' => Kept s fresh files'.node ∧ HasIndex s files'.node w.runId ∧
        s.runDir w.runId = .ok (s.root ++ [w.runId]))
      (fun _ files' => Kept s fresh files'.node ∧
        (HasIndex s files.node w.runId → HasIndex s files'.node w.runId)) files := by
  unfold writeBytes
  simp only [after_bind, after_require, after_returning]
  refine ⟨fun htakes => ⟨?_, fun _ _ => ⟨hkept, id⟩⟩, fun _ => ⟨hkept, id⟩⟩
  intro location hrun
  obtain rfl := runDir_eq hrun hclear.run
  obtain ⟨dir, name, hparts⟩ : ∃ dir name, pathParts w.relpath = dir ++ [name] :=
    ⟨_, _, (List.dropLast_append_getLast hclear.file).symm⟩
  have htarget : s.root ++ [w.runId] ++ pathParts w.relpath =
      s.root ++ w.runId :: (dir ++ [name]) := by simp [hparts]
  have htemporaryIndex : ¬ [temporaryName indexFile] <+: dir := fun hbelow =>
    hclear.temporaryIndex (hparts ▸ hbelow.trans (List.prefix_append _ _))
  rw [htarget]
  refine (grown_parents files).mono ?_ ?_
  · rintro - grown hgrown
    have hindex : ∀ state, grown.node (s.root ++ [w.runId, indexFile]) =
        some (.file (.index state)) → s.readIndex files w.runId = .ok (some state) :=
      fun state h => readIndex_of_node hrun ((grown_file hgrown).mp h)
    have hbeside : dir ++ [temporaryName name] ≠ [indexFile] := fun heq =>
      temporaryName_ne name (List.cons.inj (@List.append_inj' _ dir [temporaryName name] [] [indexFile] heq rfl).2).1
    -- The temporary file is no artifact, whether it stays or not.
    have hwritten (x : Option (Node Content)) (hx : x ≠ some .directory) : Kept s fresh
        (Function.update grown.node (s.root ++ w.runId :: (dir ++ [temporaryName name])) x) := by
      refine kept_update (kept_grown hkept hgrown htemporaryIndex) hbeside hx (fun _ _ h => h) ?_
      intro state hstate entry hentry hplace _ _
      exact absurd hplace (hclear.temporary state (hindex state hstate) entry hentry dir name hparts)
    have hkeepsIndex (x : Option (Node Content)) {node : Nodes} (path : List Text)
        (hpath : path ≠ [indexFile]) : HasIndex s node w.runId →
          HasIndex s (Function.update node (s.root ++ w.runId :: path) x) w.runId := by
      rintro ⟨state, hstate⟩
      refine ⟨state, ?_⟩
      rw [Function.update_of_ne fun heq => hpath (location_inj heq).2.symm]
      exact hstate
    have hgrownIndex : HasIndex s files.node w.runId → HasIndex s grown.node w.runId :=
      Exists.imp fun _ hstate => (grown_file hgrown).mpr hstate
    rw [after_bind]
    refine after_atomicWriteBytes.mono ?_ ?_
    · rintro - written h
      have hplace : dir ++ [name] ≠ [indexFile] := hparts ▸ hclear.index
      have hwrittenIndex (hbefore : HasIndex s files.node w.runId) :
          HasIndex s written.node w.runId := by
        rw [h]
        exact hkeepsIndex _ _ hplace (hkeepsIndex _ _ hbeside (hgrownIndex hbefore))
      have hstale : Kept s (fun other path => other = w.runId ∧ path = w.relpath) written.node := by
        rw [h]
        refine kept_update (hwritten none (Option.some_ne_none _).symm) hplace
          (by simp) (fun _ _ h => h.elim) ?_
        intro state hstate entry hentry hsame hfresh _
        rw [Function.update_of_ne fun heq => hbeside (location_inj heq).2.symm] at hstate
        exact ⟨w.data, rfl, hclear.spelling state (hindex state hstate) entry hentry
          (hsame.trans hparts.symm) fun heq => hfresh ⟨rfl, heq⟩⟩
      have hstored : written.node (s.root ++ w.runId :: pathParts w.relpath) =
          some (.file (.bytes w.data)) := by
        rw [h, hparts, Function.update_self]
      have hentry : EntryKept s written.node w.runId
          (s.metadataOf (s.root ++ [w.runId]) w) :=
        ⟨htakes, hclear.index, fun heq => hclear.temporaryIndex (heq ▸ List.prefix_rfl),
          w.data, hstored, rfl, rfl⟩
      have hdir : written.node (s.root ++ [w.runId]) = some .directory := by
        by_contra hother
        obtain ⟨first, rest, hcons⟩ := List.exists_cons_of_ne_nil hclear.file
        have hbelow : written.node (s.root ++ [w.runId] ++ first :: rest) = none :=
          written.node_below hother
        rw [List.append_assoc, List.singleton_append, ← hcons, hstored] at hbelow
        cases hbelow
      rw [after_bind]
      refine (after_record hstale hrun hdir hentry).mono
        (fun _ _ hdone => ⟨hdone.1, hdone.2, hrun⟩) ?_
      rintro _ files' ⟨hkept', rfl⟩
      exact ⟨hkept', hwrittenIndex⟩
    · rintro _ written ⟨rfl | h, -⟩
      · exact ⟨kept_grown hkept hgrown htemporaryIndex, hgrownIndex⟩
      · rw [h]
        exact ⟨hwritten _ (by simp), fun hbefore => hkeepsIndex _ _ hbeside (hgrownIndex hbefore)⟩
  · rintro _ grown hgrown
    refine ⟨kept_grown hkept hgrown htemporaryIndex, ?_⟩
    rintro ⟨state, hstate⟩
    exact ⟨state, (grown_file hgrown).mpr hstate⟩

end Writes

section Runs

variable {s : RunArtifactStore} {files : Files} {runId : Text}

/-- Nothing stands in the root of the store, if there is one. -/
def EmptyStore (s : RunArtifactStore) (files : Files) : Prop :=
  ∀ name, files.node (s.root ++ [name]) = none

theorem kept_empty (hempty : EmptyStore s files) : Kept s fresh files.node := by
  have hnothing (runId name : Text) : files.node (s.root ++ [runId, name]) = none := by
    have hnone : files.node (s.root ++ [runId]) ≠ some .directory := by
      rw [hempty]
      exact nofun
    have hbelow : files.node (s.root ++ [runId] ++ [name]) = none := files.node_below hnone
    simpa using hbelow
  constructor
  · intro runId content h
    exact nomatch (hnothing runId indexFile).symm.trans h
  · intro runId h
    exact nomatch (hnothing runId (temporaryName indexFile)).symm.trans h

/-- A path that stays in a directory is read there. -/
theorem nodeAt_eq {dir : Location} {relpath : Text} (hslash : startsWith relpath ['/'] = false)
    (hup : ['.', '.'] ∉ pathParts relpath) :
    nodeAt files dir relpath = files.node (dir ++ pathParts relpath) := by
  unfold nodeAt
  rw [hslash]
  exact files.lookup_eq hup dir

theorem sound_of_kept (hkept : Kept s fresh files.node) (hindex : HasIndex s files.node runId)
    (hrun : s.runDir runId = .ok (s.root ++ [runId])) : Sound s files runId := by
  obtain ⟨state, hstate⟩ := hindex
  obtain ⟨_, ⟨⟩, hnodup, hentries⟩ := hkept.index runId _ hstate
  refine ⟨state, readIndex_of_node hrun hstate, hnodup, fun entry hentry => ?_⟩
  obtain ⟨⟨-, hslash, hup⟩, -, -, data, hdata, hagrees⟩ := hentries entry hentry id
  refine ⟨data, ?_, hagrees⟩
  unfold readBytes
  rw [hrun]
  dsimp only [bind, Except.bind]
  rw [nodeAt_eq hslash hup, List.append_assoc, List.singleton_append, hdata]
  rfl

theorem sameReads_of_elsewhere {files' : Files} {other relpath : Text}
    (h : Elsewhere s runId files files') (hother : other ≠ runId) (hread : Confined other relpath) :
    SameReads s files files' other relpath := by
  have hindex : s.readIndex files' other = s.readIndex files other := by
    unfold readIndex
    cases hdir : s.runDir other with
    | error e => rfl
    | ok dir =>
        obtain rfl := runDir_eq hdir hread.1
        dsimp only [bind, Except.bind]
        rw [List.append_assoc, List.singleton_append, h other _ hother]
  refine ⟨?_, hindex, ?_⟩
  · unfold readBytes
    cases hdir : s.runDir other with
    | error e => rfl
    | ok dir =>
        obtain rfl := runDir_eq hdir hread.1
        dsimp only [bind, Except.bind]
        rw [nodeAt_eq hread.2.1 hread.2.2, nodeAt_eq hread.2.1 hread.2.2, List.append_assoc,
          List.singleton_append, h other _ hother]
  · unfold findMetadata
    rw [hindex]

theorem elsewhere_step {call : Call} (hclear : Clear s files call.write) :
    Elsewhere s call.write.runId files (s.step files call) :=
  (elsewhere_writeBytes hclear.run hclear.file files).result (p := fun _ files' =>
    Elsewhere s call.write.runId files files')

/-- A clear write keeps what is stored, and the index of every run. -/
theorem kept_step {call : Call} (hkept : Kept s fresh files.node)
    (hclear : Clear s files call.write) :
    Kept s fresh (s.step files call).node ∧
      (HasIndex s files.node runId → HasIndex s (s.step files call).node runId) := by
  have hresult : Kept s fresh (s.step files call).node ∧ (HasIndex s files.node call.write.runId →
      HasIndex s (s.step files call).node call.write.runId) :=
    After.result (p := fun _ (files' : Files) => Kept s fresh files'.node ∧
      (HasIndex s files.node call.write.runId → HasIndex s files'.node call.write.runId))
      ((after_writeBytes hkept hclear).mono (fun _ _ h => ⟨h.1, fun _ => h.2.1⟩) fun _ _ h => h)
  refine ⟨hresult.1, ?_⟩
  by_cases hrun : runId = call.write.runId
  · exact hrun ▸ hresult.2
  · rintro ⟨state, hstate⟩
    exact ⟨state, (elsewhere_step hclear runId _ hrun).trans hstate⟩

theorem kept_run {calls : List Call} (hkept : Kept s fresh files.node)
    (hclear : Along s.step (fun files call => Clear s files call.write) files calls) :
    Kept s fresh (run s.step files calls).node ∧
      (HasIndex s files.node runId → HasIndex s (run s.step files calls).node runId) := by
  have hstep : ∀ (files' : Files) (call : Call), (Kept s fresh files'.node ∧
      (HasIndex s files.node runId → HasIndex s files'.node runId)) → Clear s files' call.write →
      Kept s fresh (s.step files' call).node ∧
        (HasIndex s files.node runId → HasIndex s (s.step files' call).node runId) := by
    rintro files' call ⟨hkept', hindex⟩ hcall
    obtain ⟨hkept'', hindex'⟩ := kept_step hkept' hcall
    exact ⟨hkept'', fun hbefore => hindex' (hindex hbefore)⟩
  exact run_invariant_along hstep ⟨hkept, id⟩ hclear

/-- Writes to clear paths of an empty store are all faithful. -/
theorem clear_writes_faithful (s : RunArtifactStore) (files : Files) (calls : List Call)
    (hempty : EmptyStore s files)
    (hclear : Along s.step (fun files call => Clear s files call.write) files calls) :
    Faithful s Confined files calls := by
  rintro before call later rest rfl
  rw [List.append_assoc, along_append] at hclear
  obtain ⟨hbefore, hcall, hafter⟩ := hclear
  have hkept := (@kept_run s files call.write.runId before (kept_empty hempty) hbefore).1
  refine ⟨fun hreturns => ?_, fun other relpath hread hother => ?_⟩
  · have hspec := after_writeBytes hkept hcall
    obtain ⟨metadata, hmetadata⟩ := Option.ne_none_iff_exists'.mp hreturns
    obtain ⟨files', hreturns⟩ := returns_of_resultOf hmetadata
    unfold After at hspec
    rw [hreturns] at hspec
    obtain ⟨hkept', hindex, hrun⟩ := hspec
    have hstep : s.step (run s.step files before) call = files' :=
      stateAfter_of_returns hreturns
    have hlater := @kept_run s _ call.write.runId later (hstep ▸ hkept')
      ((along_append s.step).mp hafter).1
    rw [run_append, run_cons]
    exact sound_of_kept hlater.1 (hlater.2 (hstep ▸ hindex)) hrun
  · exact sameReads_of_elsewhere (elsewhere_step hcall) hother hread

/-- A store in an empty file system. -/
def emptyFiles : Files where
  node l := if l = [] then some .directory else none
  top := rfl
  parent {dir name} h := absurd (if_neg (by simp)) h

def localStore : RunArtifactStore :=
  ⟨[], "orchestrator-service".toList, fun _ => .notJson⟩

theorem emptyFiles_empty : EmptyStore localStore emptyFiles := fun _ => rfl

def writeOf (runId relpath : String) (data : Bytes) : Call :=
  .writeBytes ⟨runId.toList, "w".toList, relpath.toList, data, "source".toList, none, "t".toList⟩

theorem readIndex_none {call : Call} (h : (localStore.readIndex files
    call.write.runId).toOption.join.isNone = true) {state : Index} :
    localStore.readIndex files call.write.runId ≠ .ok (some state) := by
  intro heq
  rw [heq] at h
  exact nomatch h

theorem two_runs_faithful : Faithful localStore Confined emptyFiles
    [writeOf "run-1" "source/a.cbl" [65], writeOf "run-2" "source/a.cbl" [66, 67]] := by
  refine clear_writes_faithful localStore emptyFiles _ emptyFiles_empty ⟨?_, ?_, trivial⟩
  · exact ⟨by decide +kernel, by decide +kernel, by decide +kernel, by decide +kernel,
      fun _ h => absurd h (readIndex_none (by decide +kernel)),
      fun _ h => absurd h (readIndex_none (by decide +kernel))⟩
  · exact ⟨by decide +kernel, by decide +kernel, by decide +kernel, by decide +kernel,
      fun _ h => absurd h (readIndex_none (by decide +kernel)),
      fun _ h => absurd h (readIndex_none (by decide +kernel))⟩

/-- The lengths in the index of a run are those of the files. -/
def lengthsAgree (s : RunArtifactStore) (files : Files) (runId : Text) : Bool :=
  (s.readIndex files runId).toOption.join.all fun index => index.artifacts.all fun entry =>
    (s.readBytes files runId entry.path).toOption.join.all fun data =>
      data.length == entry.byteSize

theorem lengthsAgree_of_sound {s : RunArtifactStore} (h : Sound s files runId) :
    lengthsAgree s files runId = true := by
  obtain ⟨index, hindex, -, hentries⟩ := h
  unfold lengthsAgree
  rw [hindex]
  refine List.all_eq_true.mpr fun entry hentry => ?_
  obtain ⟨data, hdata, -, hlength⟩ := hentries entry hentry
  rw [hdata]
  exact beq_iff_eq.mpr hlength

/-- Two spellings of one path leave an entry that is not true of the file. -/
theorem second_spelling_breaks_entry : ¬ ∀ files calls, EmptyStore localStore files →
    Faithful localStore (fun _ _ => True) files calls := by
  intro hall
  have hfaithful := hall emptyFiles [writeOf "run-1" "a" [65], writeOf "run-1" "./a" [66, 67]]
    emptyFiles_empty [writeOf "run-1" "a" [65]] (writeOf "run-1" "./a" [66, 67]) [] [] rfl
  have hreturns : (resultOf (localStore.writeBytes (writeOf "run-1" "./a" [66, 67]).write)
      (run localStore.step emptyFiles [writeOf "run-1" "a" [65]])).isSome = true := by
    decide +kernel
  have hsound := hfaithful.1 (Option.isSome_iff_ne_none.mp hreturns)
  have hlengths : lengthsAgree localStore (run localStore.step emptyFiles
      [writeOf "run-1" "a" [65], writeOf "run-1" "./a" [66, 67]]) "run-1".toList = false := by
    decide +kernel
  exact nomatch hlengths.symm.trans (lengthsAgree_of_sound hsound)

end Runs

end C2c.Orchestrator.StoredArtifacts
