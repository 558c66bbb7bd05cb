import C2c.Library.FileTree
import C2c.Library.PosixPaths
import Mathlib.Data.List.Forall2

/-!
The files of a generated project, written into a temporary directory.
-/

namespace C2c.BuildTest.Materialisation

open C2c.Library.JavaText
open C2c.Library.PythonText (splitAtChar pathParts)
open C2c.Library.PosixPaths
open C2c.Library.Raising
open C2c.Library.FileTree

section Materialiser

/-- A string, which may have the code units of no text. -/
inductive JavaString
  | null
  | text (value : Text)
  | malformed (units : List UInt16)
deriving DecidableEq

/-- The entries of a map in the order it is walked. -/
structure FileMap where
  entries : List (JavaString × JavaString)
  distinct : (entries.map Prod.fst).Nodup

inductive Failure
  | illegalArgument (message : Text)
  | invalidPath
  | os (e : OsError)
  | refused
  | malformedContent

abbrev Files (A : Type) := EStateM Failure (Tree Text Text) A

/-- A call of the operating system. -/
def call {A : Type} (m : EStateM OsError (Tree Text Text) A) : Files A :=
  EStateM.adaptExcept .os m

/-- The directory that `createTempDirectory` makes, by its real path. -/
structure Scratch (t : Tree Text Text) where
  parent : List Text
  name : Text
  directory : t.node parent = some .directory
  fresh : t.node (parent ++ [name]) = none
  real : ['.'] ∉ parent ++ [name] ∧ "..".toList ∉ parent ++ [name]

def Scratch.root {t : Tree Text Text} (scratch : Scratch t) : List Text :=
  scratch.parent ++ [scratch.name]

/-- `Path.normalize` of an absolute path. -/
def normalize (segments : List Text) : List Text :=
  segments.foldl (fun path segment =>
    if segment = ['.'] then path
    else if segment = "..".toList then path.dropLast
    else path ++ [segment]) []

def safeResolve (root : List Text) : JavaString → Except Failure (Text × List Text)
  | .null => .error (.illegalArgument "generatedProject contained an empty path".toList)
  | .malformed _ => .error .invalidPath
  | .text relative =>
      if isBlank relative then
        .error (.illegalArgument "generatedProject contained an empty path".toList)
      else if startsWith relative ['/'] || contains relative ['\\'] ||
          contains relative "..".toList then
        .error (.illegalArgument ("generatedProject path is unsafe: ".toList ++ relative))
      else if '\x00' ∈ relative then .error .invalidPath
      else
        let candidate := normalize (root ++ (splitAtChar '/' relative).filter (· ≠ []))
        if root <+: candidate then .ok (relative, candidate)
        else .error (.illegalArgument
          ("generatedProject path escapes working root: ".toList ++ relative))

/-- What `writeString` encodes. -/
def contentOf : JavaString → Option Text
  | .null => some []
  | .text content => some content
  | .malformed _ => none

structure MaterializedProject where
  root : List Text
  files : List (Text × List Text)
  javaSources : List (List Text)

-- Whether the operating system takes a file at a place: there may be no room, or
-- its name may be too long.
variable (takes : List Text → Bool)

/-- One turn of the loop over the entries. -/
def writeEntry (root : List Text) (entry : JavaString × JavaString) :
    Files (Text × List Text) := do
  let written ← returning (safeResolve root entry.1)
  let target := written.2
  require (takes target = true) .refused
  call (makeDirectories [] target.dropLast)
  match contentOf entry.2 with
  | none => throw .malformedContent
  | some content => call (writeFile target.dropLast (target.getLast?.getD []) content)
  pure written

def writeEntries (root : List Text) :
    List (JavaString × JavaString) → Files (List (Text × List Text))
  | [] => pure []
  | entry :: entries => do
      let written ← writeEntry takes root entry
      let rest ← writeEntries root entries
      pure (written :: rest)

/-- `javaSources`. -/
def sourcesOf (written : List (Text × List Text)) : List (List Text) :=
  (written.filter fun file => endsWith file.1 ".java".toList).map Prod.snd

/-- `materialise`, whose temporary directory is `scratch`. -/
def materialise {t : Tree Text Text} (scratch : Scratch t) (files : Option FileMap) :
    Files MaterializedProject :=
  match files with
  | none => throw (.illegalArgument "generatedProject.files is empty".toList)
  | some files =>
      if files.entries = [] then
        throw (.illegalArgument "generatedProject.files is empty".toList)
      else do
        call (makeDirectory scratch.parent scratch.name)
        let written ← writeEntries takes scratch.root files.entries
        pure ⟨scratch.root, written, sourcesOf written⟩

end Materialiser

section Statement

/-- A project has one file for each entry, and no other. -/
structure Complete (files : FileMap) (workingRoot : List Text) (project : MaterializedProject)
    (t : Tree Text Text) : Prop where
  root : project.root = workingRoot
  keys : project.files.map (fun file => JavaString.text file.1) = files.entries.map Prod.fst
  apart : (project.files.map Prod.snd).Nodup
  contents : List.Forall₂ (fun entry file => ∃ content, contentOf entry.2 = some content ∧
    t.node file.2 = some (.file content)) files.entries project.files
  inside : ∀ file ∈ project.files, ∃ path, path ≠ [] ∧ file.2 = workingRoot ++ path
  only : ∀ path content, t.node (workingRoot ++ path) = some (.file content) →
    workingRoot ++ path ∈ project.files.map Prod.snd
  sources : project.javaSources = sourcesOf project.files

variable (takes : List Text → Bool)

/-- A complete project is returned, or an exception is thrown and the working
directory is not there. -/
def Materialised {t : Tree Text Text} (scratch : Scratch t) (files : Option FileMap) : Prop :=
  After (materialise takes scratch files)
    (fun project t' => ∃ entries, files = some entries ∧ Complete entries scratch.root project t')
    (fun _ t' => t'.node scratch.root = none) t

/-- The names that a key stands for below the root. -/
def segmentsOf : JavaString → List Text
  | .text relative => pathParts relative
  | _ => []

/-- An entry that is written if nothing else is in its way. -/
structure Writable (root : List Text) (entry : JavaString × JavaString) : Prop where
  key : ∃ relative, entry.1 = .text relative ∧ isBlank relative = false ∧
    startsWith relative ['/'] = false ∧ contains relative ['\\'] = false ∧
    contains relative "..".toList = false ∧ '\x00' ∉ relative
  named : segmentsOf entry.1 ≠ []
  taken : takes (root ++ segmentsOf entry.1) = true
  encoded : (contentOf entry.2).isSome

/-- Neither place is the other or above it. -/
def Apart (path path' : List Text) : Prop :=
  ¬ path <+: path' ∧ ¬ path' <+: path

/-- There are no entries, or each can be written and no two are in each other's way. -/
def Clean (root : List Text) (files : Option FileMap) : Prop :=
  ∀ map, files = some map → map.entries = [] ∨
    (∀ entry ∈ map.entries, Writable takes root entry) ∧
      map.entries.Pairwise fun entry entry' => Apart (segmentsOf entry.1) (segmentsOf entry'.1)

end Statement

section Paths

/-- A path without a step upwards is normalised to its names. -/
theorem foldl_normalize {segments : List Text} (h : "..".toList ∉ segments) (path : List Text) :
    segments.foldl (fun path segment =>
      if segment = ['.'] then path
      else if segment = "..".toList then path.dropLast
      else path ++ [segment]) path = path ++ segments.filter (· ≠ ['.']) := by
  induction segments generalizing path with
  | nil => exact (List.append_nil _).symm
  | cons segment segments ih =>
      obtain ⟨hne, hrest⟩ := not_or.mp (List.mem_cons.not.mp h)
      rw [List.foldl_cons, ih hrest]
      by_cases hdot : segment = ['.']
      · simp [hdot]
      · rw [if_neg hdot, if_neg (Ne.symm hne), List.filter_cons_of_pos (by simpa using hdot),
          List.append_assoc, List.singleton_append]

theorem parent_notMem {relative : Text} (h : contains relative "..".toList = false) :
    "..".toList ∉ splitAtChar '/' relative := by
  intro hmem
  have hinfix := infix_pathText hmem
  rw [pathText_splitAtChar, ← contains_iff_infix, h] at hinfix
  cases hinfix

/-- A safe key leads to its names below the root. -/
theorem normalize_root {root : List Text} (hroot : ['.'] ∉ root ∧ "..".toList ∉ root)
    {relative : Text} (h : contains relative "..".toList = false) :
    normalize (root ++ (splitAtChar '/' relative).filter (· ≠ [])) =
      root ++ pathParts relative := by
  have hparent : "..".toList ∉ root ++ (splitAtChar '/' relative).filter (· ≠ []) := by
    rw [List.mem_append, not_or]
    exact ⟨hroot.2, fun hmem => parent_notMem h (List.mem_of_mem_filter hmem)⟩
  rw [normalize, foldl_normalize hparent, List.nil_append, List.filter_append, List.filter_filter,
    pathParts]
  congr 1
  · apply List.filter_eq_self.mpr
    intro segment hsegment
    have hne : segment ≠ ['.'] := fun heq => hroot.1 (heq ▸ hsegment)
    simpa using hne
  · apply List.filter_congr
    intro segment _
    by_cases hdot : segment = ['.'] <;> by_cases hempty : segment = [] <;> simp [hdot, hempty]

/-- The keys that are resolved, and where to. -/
theorem of_safeResolve {root : List Text} (hroot : ['.'] ∉ root ∧ "..".toList ∉ root)
    {key : JavaString} {written : Text × List Text} (h : safeResolve root key = .ok written) :
    (∃ relative, key = .text relative ∧ isBlank relative = false ∧
      startsWith relative ['/'] = false ∧ contains relative ['\\'] = false ∧
      contains relative "..".toList = false ∧ '\x00' ∉ relative) ∧
    key = .text written.1 ∧ written.2 = root ++ segmentsOf key := by
  cases key with
  | null => cases h
  | malformed units => cases h
  | text relative =>
      simp only [safeResolve] at h
      split_ifs at h with hblank hunsafe hnul hwithin
      obtain rfl := Except.ok.inj h
      simp only [Bool.or_eq_true, not_or, Bool.not_eq_true] at hblank hunsafe
      obtain ⟨⟨hslash, hback⟩, hparent⟩ := hunsafe
      exact ⟨⟨relative, rfl, hblank, hslash, hback, hparent, hnul⟩, rfl,
        normalize_root hroot hparent⟩

/-- A key that is safe is resolved. -/
theorem safeResolve_text {root : List Text} (hroot : ['.'] ∉ root ∧ "..".toList ∉ root)
    {relative : Text} (hblank : isBlank relative = false) (hslash : startsWith relative ['/'] = false)
    (hback : contains relative ['\\'] = false) (hparent : contains relative "..".toList = false)
    (hnul : '\x00' ∉ relative) :
    safeResolve root (.text relative) = .ok (relative, root ++ pathParts relative) := by
  simp only [safeResolve, hblank, hslash, hback, hparent, hnul, Bool.or_self, Bool.false_eq_true,
    if_false, normalize_root hroot hparent, List.prefix_append, if_true]

end Paths

section Writing

variable {takes : List Text → Bool} {root : List Text}

theorem after_call {A : Type} {m : EStateM OsError (Tree Text Text) A}
    {post : A → Tree Text Text → Prop} {raised : Failure → Tree Text Text → Prop}
    {t : Tree Text Text} :
    After (call m) post raised t ↔ After m post (fun e => raised (.os e)) t := by
  simp only [After, call, EStateM.adaptExcept]
  cases m t <;> rfl

theorem call_ok {A : Type} {m : EStateM OsError (Tree Text Text) A} {t t' : Tree Text Text}
    {a : A} (h : m t = .ok a t') : call m t = .ok a t' := by
  simp only [call, EStateM.adaptExcept, h]

theorem within_call {A : Type} {R : Tree Text Text → Tree Text Text → Prop}
    {m : EStateM OsError (Tree Text Text) A} (h : Within R m) : Within R (call m) :=
  fun t => after_call.mpr (h t)

/-- Each entry has its place. -/
structure Placed (root : List Text) (entries : List (JavaString × JavaString))
    (files : List (Text × List Text)) : Prop where
  keys : files.map (fun file => JavaString.text file.1) = entries.map Prod.fst
  places : files.map Prod.snd = entries.map fun entry => root ++ segmentsOf entry.1

/-- What is known of an entry that was written. -/
theorem after_writeEntry (hroot : ['.'] ∉ root ∧ "..".toList ∉ root) (hne : root ≠ [])
    (entry : JavaString × JavaString) {t : Tree Text Text} (ht : t.node root = some .directory) :
    After (writeEntry takes root entry)
      (fun file t' => (Writable takes root entry ∧ entry.1 = .text file.1 ∧
        file.2 = root ++ segmentsOf entry.1) ∧ KeepsDirectories t t')
      (fun _ t' => KeepsDirectories t t') t := by
  unfold writeEntry
  rw [after_bind, after_returning]
  refine ⟨fun file hfile => ?_, fun _ _ => refl_of KeepsDirectories t⟩
  obtain ⟨hkey, hplaced⟩ := of_safeResolve hroot hfile
  rw [after_bind, after_require]
  refine ⟨fun htaken => ?_, fun _ => refl_of KeepsDirectories t⟩
  refine (within_call (keeps_makeDirectories _)).bind (fun _ t₁ h₁ => ?_) fun _ _ => id
  cases hcontent : contentOf entry.2 with
  | none => exact h₁
  | some content =>
      rw [after_bind, after_call]
      refine (after_writeFile.and (keeps_writeFile _ _ t₁)).mono ?_ ?_
      · rintro _ t' ⟨⟨-, hplace, -⟩, h'⟩
        refine ⟨⟨⟨hkey, fun hnamed => ?_, ?_, by rw [hcontent]; rfl⟩, hplaced⟩,
          trans_of KeepsDirectories h₁ h'⟩
        · -- A key without a name stands for the root itself.
          rw [hplaced.2, hnamed, List.append_nil, List.getLast?_eq_some_getLast hne,
            Option.getD_some, List.dropLast_append_getLast hne] at hplace
          exact hplace (h₁ _ ht)
        · rw [← hplaced.2]
          exact htaken
      · rintro _ t' ⟨-, h'⟩
        exact trans_of KeepsDirectories h₁ h'

/-- If all entries were written, each could be; and the root stays. -/
theorem after_writeEntries (hroot : ['.'] ∉ root ∧ "..".toList ∉ root) (hne : root ≠ [])
    (entries : List (JavaString × JavaString)) {t : Tree Text Text}
    (ht : t.node root = some .directory) :
    After (writeEntries takes root entries)
      (fun files _ => (∀ entry ∈ entries, Writable takes root entry) ∧ Placed root entries files)
      (fun _ t' => t'.node root = some .directory) t := by
  induction entries generalizing t with
  | nil => exact ⟨nofun, rfl, rfl⟩
  | cons entry entries ih =>
      unfold writeEntries
      rw [after_bind]
      refine (after_writeEntry hroot hne entry ht).mono ?_ fun _ t' h' => h' _ ht
      rintro file t₁ ⟨⟨hwritable, hkey, hplace⟩, h₁⟩
      rw [after_bind]
      refine (ih (h₁ _ ht)).mono ?_ fun _ _ => id
      rintro files - ⟨hall, hkeys, hplaces⟩
      exact ⟨List.forall_mem_cons.mpr ⟨hwritable, hall⟩, by simp [hkey, hkeys],
        by simp [hplace, hplaces]⟩

end Writing

section Standing

variable {takes : List Text → Bool} {root : List Text}

/-- Below the root there are the files of the entries, and what leads to them. -/
structure Standing (root : List Text) (entries : List (JavaString × JavaString))
    (t : Tree Text Text) : Prop where
  top : t.node root = some .directory
  files : ∀ entry ∈ entries, ∃ content, contentOf entry.2 = some content ∧
    t.node (root ++ segmentsOf entry.1) = some (.file content)
  only : ∀ path content, t.node (root ++ path) = some (.file content) →
    ∃ entry ∈ entries, path = segmentsOf entry.1
  directories : ∀ path, path ≠ [] → t.node (root ++ path) = some .directory →
    ∃ entry ∈ entries, path <+: segmentsOf entry.1

/-- Nothing stands in the way of an entry that is apart from the others. -/
theorem Standing.free {entries : List (JavaString × JavaString)} {t : Tree Text Text}
    (h : Standing root entries t) {path : List Text}
    (hapart : ∀ entry ∈ entries, Apart (segmentsOf entry.1) path) {l : List Text}
    (hl : l <+: root ++ path) (content : Text) : t.node l ≠ some (.file content) := by
  intro hfile
  rcases List.prefix_or_prefix_of_prefix hl (List.prefix_append root path) with habove | hbelow
  · rw [t.node_prefix h.top habove] at hfile
    cases hfile
  · obtain ⟨below, rfl⟩ := hbelow
    obtain ⟨entry, hmem, rfl⟩ := h.only below content hfile
    exact (hapart entry hmem).1 ((List.prefix_append_right_inj root).mp hl)

/-- One more entry is written. -/
theorem Standing.writeEntry {entries : List (JavaString × JavaString)} {t : Tree Text Text}
    (h : Standing root entries t) (hroot : ['.'] ∉ root ∧ "..".toList ∉ root)
    {entry : JavaString × JavaString} (hentry : Writable takes root entry)
    (hapart : ∀ entry' ∈ entries, Apart (segmentsOf entry'.1) (segmentsOf entry.1)) :
    ∃ file t', writeEntry takes root entry t = .ok file t' ∧
      Standing root (entries ++ [entry]) t' := by
  obtain ⟨key, value⟩ := entry
  obtain ⟨⟨relative, rfl, hblank, hslash, hback, hparent, hnul⟩, hnamed, htaken, hencoded⟩ := hentry
  obtain ⟨content, hcontent⟩ := Option.isSome_iff_exists.mp hencoded
  obtain ⟨front, last, hsegments⟩ : ∃ front last, pathParts relative = front ++ [last] :=
    ⟨_, _, (List.dropLast_append_getLast hnamed).symm⟩
  change ∀ entry' ∈ entries, Apart (segmentsOf entry'.1) (pathParts relative) at hapart
  change takes (root ++ pathParts relative) = true at htaken
  have hplace : root ++ pathParts relative = (root ++ front) ++ [last] := by
    rw [hsegments, List.append_assoc]
  have hfront : front <+: pathParts relative := hsegments ▸ List.prefix_append _ _
  obtain ⟨t₁, t', hmade, hwritten, hnode⟩ := @makeDirectories_writeFile_ok
    _ _ _ t (root ++ front) last content
    (fun l hl => h.free hapart (hl.trans ((List.prefix_append_right_inj root).mpr hfront)))
    (by
      rw [← hplace]
      intro hdirectory
      obtain ⟨entry', hmem, hprefix⟩ := h.directories _ hnamed hdirectory
      exact (hapart entry' hmem).2 hprefix)
  rw [← hplace] at hnode
  -- What stood below the root before stands there still.
  have hkept (path : List Text) (hother : path ≠ pathParts relative)
      (habove : ¬ path <+: front) : t'.node (root ++ path) = t.node (root ++ path) := by
    rw [hnode, if_neg (fun heq => hother (List.append_cancel_left heq)),
      if_neg (fun hl => habove ((List.prefix_append_right_inj root).mp hl))]
  have hnew : t'.node (root ++ pathParts relative) = some (.file content) := by
    rw [hnode, if_pos rfl]
  refine ⟨(relative, root ++ pathParts relative), t', ?_, ?_, ?_, ?_, ?_⟩
  · unfold Materialisation.writeEntry
    rw [safeResolve_text hroot hblank hslash hback hparent hnul]
    have hdirectory : (root ++ pathParts relative).dropLast = root ++ front := by
      rw [hplace, List.dropLast_concat]
    have hname : (root ++ pathParts relative).getLast?.getD [] = last := by
      rw [hplace, List.getLast?_concat, Option.getD_some]
    simp only [returning, pure_bind, require, htaken, if_true, hdirectory, hname, hcontent]
    simp only [bind, EStateM.bind, call_ok hmade, call_ok hwritten]
    rfl
  · rw [hnode, if_neg, if_pos (List.prefix_append root front)]
    intro heq
    exact hnamed (List.append_right_eq_self.mp heq.symm)
  · intro entry hmem
    rcases List.mem_append.mp hmem with hold | hlast
    · obtain ⟨content', hcontent', hfile⟩ := h.files entry hold
      refine ⟨content', hcontent', ?_⟩
      rw [hkept _ (fun heq => (hapart entry hold).1 (heq ▸ List.prefix_refl _))
        fun hl => (hapart entry hold).1 (hl.trans hfront)]
      exact hfile
    · obtain rfl := List.mem_singleton.mp hlast
      exact ⟨content, hcontent, hnew⟩
  · intro path content' hfile
    by_cases hpath : path = pathParts relative
    · exact ⟨_, List.mem_append_right _ (List.mem_singleton_self _), hpath⟩
    · by_cases habove : path <+: front
      · rw [hnode, if_neg (fun heq => hpath (List.append_cancel_left heq)),
          if_pos ((List.prefix_append_right_inj root).mpr habove)] at hfile
        cases hfile
      · rw [hkept path hpath habove] at hfile
        obtain ⟨entry, hmem, heq⟩ := h.only path content' hfile
        exact ⟨entry, List.mem_append_left _ hmem, heq⟩
  · intro path hne hdirectory
    by_cases hpath : path = pathParts relative
    · rw [hpath, hnew] at hdirectory
      cases hdirectory
    · by_cases habove : path <+: front
      · exact ⟨_, List.mem_append_right _ (List.mem_singleton_self _), habove.trans hfront⟩
      · rw [hkept path hpath habove] at hdirectory
        obtain ⟨entry, hmem, hprefix⟩ := h.directories path hne hdirectory
        exact ⟨entry, List.mem_append_left _ hmem, hprefix⟩

/-- All entries are written. -/
theorem Standing.writeEntries (hroot : ['.'] ∉ root ∧ "..".toList ∉ root)
    {entries rest : List (JavaString × JavaString)} {t : Tree Text Text}
    (h : Standing root entries t) (hrest : ∀ entry ∈ rest, Writable takes root entry)
    (hapart : (entries ++ rest).Pairwise fun entry entry' =>
      Apart (segmentsOf entry.1) (segmentsOf entry'.1)) :
    ∃ files t', writeEntries takes root rest t = .ok files t' ∧
      Standing root (entries ++ rest) t' := by
  induction rest generalizing entries t with
  | nil =>
      rw [List.append_nil]
      exact ⟨[], t, rfl, h⟩
  | cons entry rest ih =>
      obtain ⟨file, t₁, hwritten, h₁⟩ := h.writeEntry hroot (hrest entry List.mem_cons_self)
        fun entry' hmem => (List.pairwise_append.mp hapart).2.2 entry' hmem entry
          List.mem_cons_self
      have hsplit : entries ++ entry :: rest = (entries ++ [entry]) ++ rest := by simp
      rw [hsplit] at hapart ⊢
      obtain ⟨files, t', hall, h'⟩ := ih h₁
        (fun entry' hmem => hrest entry' (List.mem_cons_of_mem _ hmem)) hapart
      refine ⟨file :: files, t', ?_, h'⟩
      simp only [Materialisation.writeEntries, bind, EStateM.bind, hwritten, hall]
      rfl

/-- The temporary directory is empty at first. -/
theorem standing_makeDirectory {t : Tree Text Text} (scratch : Scratch t) :
    ∃ t₁, makeDirectory scratch.parent scratch.name t = .ok () t₁ ∧
      Standing scratch.root [] t₁ := by
  have hbelow (path : List Text) (hne : path ≠ []) :
      t.node (scratch.root ++ path) = none := by
    obtain ⟨name, rest, rfl⟩ := List.exists_cons_of_ne_nil hne
    apply t.node_below
    rw [Scratch.root, scratch.fresh]
    exact nofun
  unfold makeDirectory
  rw [dif_pos scratch.directory, if_pos scratch.fresh]
  refine ⟨_, rfl, ?_, nofun, ?_, ?_⟩
  · rw [Tree.set_node]
    exact Function.update_self ..
  · intro path content hfile
    rw [Tree.set_node, ← Scratch.root] at hfile
    by_cases hne : path = []
    · rw [hne, List.append_nil, Function.update_self] at hfile
      cases hfile
    · rw [Function.update_of_ne (fun heq => hne (List.append_right_eq_self.mp heq)),
        hbelow path hne] at hfile
      cases hfile
  · intro path hne hdirectory
    rw [Tree.set_node, ← Scratch.root,
      Function.update_of_ne (fun heq => hne (List.append_right_eq_self.mp heq)),
      hbelow path hne] at hdirectory
    cases hdirectory

end Standing

section Outcome

variable {takes : List Text → Bool} {t : Tree Text Text} {scratch : Scratch t}

theorem Scratch.root_ne_nil (scratch : Scratch t) : scratch.root ≠ [] :=
  List.append_ne_nil_of_right_ne_nil _ (List.cons_ne_nil _ _)

/-- The entries are written into an empty directory. -/
theorem after_materialise {files : FileMap} (hne : files.entries ≠ []) :
    ∃ t₁, Standing scratch.root [] t₁ ∧ ∀ post raised,
      After (materialise takes scratch (some files)) post raised t ↔
        After (writeEntries takes scratch.root files.entries)
          (fun written => post ⟨scratch.root, written, sourcesOf written⟩) raised t₁ := by
  obtain ⟨t₁, hmade, hstanding⟩ := standing_makeDirectory scratch
  refine ⟨t₁, hstanding, fun post raised => ?_⟩
  simp only [materialise, hne, if_false]
  rw [after_bind, After, call_ok hmade]
  exact after_bind _

/-- The files of the entries stand in their places. -/
theorem Placed.contents_iff {root : List Text} {entries : List (JavaString × JavaString)}
    {files : List (Text × List Text)} (h : Placed root entries files) {t' : Tree Text Text} :
    List.Forall₂ (fun entry file => ∃ content, contentOf entry.2 = some content ∧
        t'.node file.2 = some (.file content)) entries files ↔
      ∀ entry ∈ entries, ∃ content, contentOf entry.2 = some content ∧
        t'.node (root ++ segmentsOf entry.1) = some (.file content) := by
  rw [← List.forall₂_map_right_iff (R := fun (entry : JavaString × JavaString) place =>
      ∃ content, contentOf entry.2 = some content ∧ t'.node place = some (.file content))
    (f := Prod.snd), h.places, List.forall₂_map_right_iff, List.forall₂_same]

/-- Two files of a tree are apart. -/
theorem apart_of_files {t' : Tree Text Text} {root path path' : List Text} {content content' : Text}
    (hne : path ≠ path') (hfile : t'.node (root ++ path) = some (.file content))
    (hfile' : t'.node (root ++ path') = some (.file content')) : Apart path path' := by
  have habove {l l' : List Text} {c c' : Text} (hother : l ≠ l')
      (h : t'.node (root ++ l) = some (.file c)) (h' : t'.node (root ++ l') = some (.file c')) :
      ¬ l <+: l' := by
    rintro ⟨rest, rfl⟩
    cases rest with
    | nil => exact hother (List.append_nil l).symm
    | cons name rest =>
        rw [← List.append_assoc, t'.node_below (by rw [h]; exact nofun)] at h'
        cases h'
  exact ⟨habove hne hfile hfile', habove hne.symm hfile' hfile⟩

/-- The entries of a complete project are not in each other's way. -/
theorem apart_of_complete {files : FileMap} {project : MaterializedProject} {t' : Tree Text Text}
    (h : Complete files scratch.root project t')
    (hplaced : Placed scratch.root files.entries project.files) :
    files.entries.Pairwise fun entry entry' =>
      Apart (segmentsOf entry.1) (segmentsOf entry'.1) := by
  have hfiles := hplaced.contents_iff.mp h.contents
  have hapart := h.apart
  rw [hplaced.places, List.Nodup, List.pairwise_map] at hapart
  refine hapart.imp_of_mem fun hmem hmem' hother => ?_
  obtain ⟨content, -, hfile⟩ := hfiles _ hmem
  obtain ⟨content', -, hfile'⟩ := hfiles _ hmem'
  exact apart_of_files (fun heq => hother (congrArg _ heq)) hfile hfile'

/-- What was materialised had nothing in its way. -/
theorem clean_of_materialised {files : Option FileMap} (h : Materialised takes scratch files) :
    Clean takes scratch.root files := by
  rintro map rfl
  by_cases hne : map.entries = []
  · exact .inl hne
  · right
    obtain ⟨t₁, hstanding, hrun⟩ := @after_materialise takes t scratch map hne
    have hwritten := ((hrun _ _).mp h).and
      (after_writeEntries scratch.real scratch.root_ne_nil map.entries hstanding.top)
    unfold After at hwritten
    split at hwritten
    · obtain ⟨⟨entries, heq, hcomplete⟩, hwritable, hplaced⟩ := hwritten
      obtain rfl := Option.some.inj heq
      exact ⟨hwritable, apart_of_complete hcomplete hplaced⟩
    · -- The working directory is still there.
      obtain ⟨hgone, hthere⟩ := hwritten
      exact nomatch hgone.symm.trans hthere

/-- A project is complete when the files of its entries stand in its directory. -/
theorem complete_of_standing {files : FileMap} {written : List (Text × List Text)}
    {t' : Tree Text Text} (h : Standing scratch.root files.entries t')
    (hplaced : Placed scratch.root files.entries written)
    (hnamed : ∀ entry ∈ files.entries, segmentsOf entry.1 ≠ [])
    (hapart : files.entries.Pairwise fun entry entry' =>
      Apart (segmentsOf entry.1) (segmentsOf entry'.1)) :
    Complete files scratch.root ⟨scratch.root, written, sourcesOf written⟩ t' where
  root := rfl
  keys := hplaced.keys
  apart := by
    rw [hplaced.places, List.Nodup, List.pairwise_map]
    refine hapart.imp fun happart heq => ?_
    exact happart.1 (List.append_cancel_left heq ▸ List.prefix_refl _)
  contents := hplaced.contents_iff.mpr h.files
  inside := by
    intro file hmem
    have hplace := List.mem_map_of_mem (f := Prod.snd) hmem
    rw [hplaced.places] at hplace
    obtain ⟨entry, hentry, heq⟩ := List.mem_map.mp hplace
    exact ⟨_, hnamed entry hentry, heq.symm⟩
  only := by
    intro path content hfile
    obtain ⟨entry, hmem, rfl⟩ := h.only path content hfile
    rw [hplaced.places]
    exact List.mem_map_of_mem hmem
  sources := rfl

/-- What has nothing in its way is materialised. -/
theorem materialised_of_clean {files : Option FileMap} (h : Clean takes scratch.root files) :
    Materialised takes scratch files := by
  have hgone : t.node scratch.root = none := scratch.fresh
  cases files with
  | none => exact hgone
  | some files =>
      by_cases hne : files.entries = []
      · simp only [Materialised, materialise, hne, if_true, after_throw]
        exact hgone
      · obtain hempty | ⟨hwritable, hapart⟩ := h files rfl
        · exact absurd hempty hne
        have hreal : ['.'] ∉ scratch.root ∧ "..".toList ∉ scratch.root := scratch.real
        obtain ⟨t₁, hstanding, hrun⟩ := @after_materialise takes t scratch files hne
        obtain ⟨written, t', hwritten, hall⟩ := hstanding.writeEntries hreal hwritable hapart
        have hplaced := @after_writeEntries takes _ hreal scratch.root_ne_nil files.entries _
          hstanding.top
        refine (hrun _ _).mpr ?_
        unfold After at hplaced ⊢
        rw [hwritten] at hplaced ⊢
        exact ⟨files, rfl, complete_of_standing hall hplaced.2
          (fun entry hmem => (hwritable entry hmem).named) hapart⟩

/-- A map is materialised just when its keys are safe, the files can be written and
no two entries are in each other's way. -/
theorem materialised_iff {files : Option FileMap} :
    Materialised takes scratch files ↔ Clean takes scratch.root files :=
  ⟨clean_of_materialised, materialised_of_clean⟩

end Outcome

section Refused

/-- A file system with a directory for temporary files. -/
def freshTree : Tree Text Text where
  node path := if path = [] ∨ path = ["tmp".toList] then some .directory else none
  top := rfl
  parent := by
    intro directory name h
    by_cases hempty : directory = []
    · rw [hempty]
      rfl
    · rw [if_neg (by simp [List.append_eq_cons_iff, hempty])] at h
      exact absurd rfl h

def someScratch : Scratch freshTree where
  parent := ["tmp".toList]
  name := "c2c-build-test-1".toList
  directory := rfl
  fresh := rfl
  real := by decide

def oneUnsafe : FileMap where
  entries := [(.text "A.java".toList, .text "class A {}".toList),
    (.text "../B.java".toList, .text "class B {}".toList)]
  distinct := by decide

def twoSpellings : FileMap where
  entries := [(.text "A.java".toList, .text "class A {}".toList),
    (.text "./A.java".toList, .text "class B {}".toList)]
  distinct := by decide

/-- The directory of a refused map stays; and two keys write one file. -/
theorem refused_or_overwritten :
    ¬ Materialised (fun _ => true) someScratch (some oneUnsafe) ∧
      ¬ Materialised (fun _ => true) someScratch (some twoSpellings) := by
  constructor
  · intro h
    rcases clean_of_materialised h _ rfl with hempty | ⟨hwritable, -⟩
    · cases hempty
    · obtain ⟨relative, heq, -, -, -, hparent, -⟩ :=
        (hwritable _ (List.mem_cons_of_mem _ List.mem_cons_self)).key
      cases heq
      revert hparent
      decide
  · intro h
    rcases clean_of_materialised h _ rfl with hempty | ⟨-, hapart⟩
    · cases hempty
    · have hfirst := (List.pairwise_cons.mp hapart).1 _ List.mem_cons_self
      exact hfirst.1 (by decide)

end Refused

end C2c.BuildTest.Materialisation
