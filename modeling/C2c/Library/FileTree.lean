import C2c.Library.Raising
import Mathlib.Data.List.Infix

/-!
A file system as a tree of named nodes, and the operations of an operating
system that change it.
-/

namespace C2c.Library.FileTree

open C2c.Library.Raising

inductive Node (Content : Type)
  | directory
  | file (content : Content)

/-- The nodes by location, which is the list of the names that lead to one.
What a directory does not have, nothing below it has. -/
structure Tree (Name Content : Type) where
  node : List Name → Option (Node Content)
  top : node [] = some .directory
  parent : ∀ {dir : List Name} {name : Name},
    node (dir ++ [name]) ≠ none → node dir = some .directory

/-- What an operation raises. -/
inductive OsError
  | notFound
  | fileExists
  | notADirectory
  | isADirectory

variable {Name Content : Type} [DecidableEq Name]

namespace Tree

/-- The tree after a node of a directory has changed. -/
def set (t : Tree Name Content) (dir : List Name) (name : Name) (x : Option (Node Content))
    (hdir : t.node dir = some .directory)
    (hold : t.node (dir ++ [name]) = some .directory → x = some .directory) :
    Tree Name Content where
  node := Function.update t.node (dir ++ [name]) x
  top := by
    rw [Function.update_of_ne (by simp)]
    exact t.top
  parent := by
    intro dir' name' h
    have hparent : t.node dir' = some .directory := by
      by_cases heq : dir' ++ [name'] = dir ++ [name]
      · rw [(List.append_inj' heq rfl).1]
        exact hdir
      · rw [Function.update_of_ne heq] at h
        exact t.parent h
    by_cases hchanged : dir' = dir ++ [name]
    · rw [hchanged, Function.update_self]
      exact hold (hchanged ▸ hparent)
    · rw [Function.update_of_ne hchanged]
      exact hparent

@[simp] theorem set_node (t : Tree Name Content) {dir : List Name} {name : Name}
    {x : Option (Node Content)} (hdir : t.node dir = some .directory)
    (hold : t.node (dir ++ [name]) = some .directory → x = some .directory) :
    (t.set dir name x hdir hold).node = Function.update t.node (dir ++ [name]) x := rfl

omit [DecidableEq Name] in
/-- Only a directory has something below it. -/
theorem node_below (t : Tree Name Content) {here rest : List Name} {name : Name}
    (h : t.node here ≠ some .directory) : t.node (here ++ name :: rest) = none := by
  by_contra hsome
  apply h
  induction rest using List.reverseRecOn with
  | nil => exact t.parent hsome
  | append_singleton rest last ih =>
      rw [← List.cons_append, ← List.append_assoc] at hsome
      apply ih
      rw [t.parent hsome]
      exact Option.some_ne_none _

/-- The location a path leads to from `here`, where `up` is the name of the
parent. -/
def walk (t : Tree Name Content) (up : Name) : List Name → List Name → Option (List Name)
  | here, [] => some here
  | here, name :: rest =>
      match t.node here with
      | some .directory => t.walk up (if name = up then here.dropLast else here ++ [name]) rest
      | _ => none

/-- What a path leads to. -/
def lookup (t : Tree Name Content) (up : Name) (here path : List Name) :
    Option (Node Content) :=
  (t.walk up here path).bind t.node

/-- A path that never goes up leads to what stands below. -/
theorem lookup_eq (t : Tree Name Content) {up : Name} {path : List Name} (h : up ∉ path)
    (here : List Name) : t.lookup up here path = t.node (here ++ path) := by
  induction path generalizing here with
  | nil => simp [lookup, walk]
  | cons name rest ih =>
      have hname : name ≠ up := fun heq => h (heq ▸ List.mem_cons_self)
      have hrest : up ∉ rest := fun hmem => h (List.mem_cons_of_mem _ hmem)
      have hbelow := ih hrest (here ++ [name])
      rw [List.append_assoc] at hbelow
      unfold lookup walk
      rw [if_neg hname]
      split
      · exact hbelow
      · rename_i hother
        exact (t.node_below hother).symm

end Tree

section Operations

instance (x : Option (Node Content)) : Decidable (x = some .directory) :=
  match x with
  | some .directory => .isTrue rfl
  | some (.file _) => .isFalse nofun
  | none => .isFalse nofun

/-- What is raised where something should be in a location that is no directory. -/
def noDirectory (t : Tree Name Content) (dir : List Name) : OsError :=
  if t.node dir = none then .notFound else .notADirectory

/-- Make a directory, unless it is there. -/
def makeDirectory (dir : List Name) (name : Name) : EStateM OsError (Tree Name Content) Unit :=
  fun t =>
    if hdir : t.node dir = some .directory then
      if t.node (dir ++ [name]) = none then
        .ok () (t.set dir name (some .directory) hdir fun _ => rfl)
      else if t.node (dir ++ [name]) = some .directory then .ok () t
      else .error .fileExists t
    else .error (noDirectory t dir) t

/-- Make all directories on a path from `dir`. -/
def makeDirectories (dir : List Name) : List Name → EStateM OsError (Tree Name Content) Unit
  | [] => pure ()
  | name :: rest => do
      makeDirectory dir name
      makeDirectories (dir ++ [name]) rest

/-- Open a file for writing and write it. -/
def writeFile (dir : List Name) (name : Name) (content : Content) :
    EStateM OsError (Tree Name Content) Unit :=
  fun t =>
    if hdir : t.node dir = some .directory then
      if hold : t.node (dir ++ [name]) = some .directory then .error .isADirectory t
      else .ok () (t.set dir name (some (.file content)) hdir fun h => absurd h hold)
    else .error (noDirectory t dir) t

/-- Give a file of a directory another name in it, in place of the file that had
that name. -/
def replaceFile (dir : List Name) (source target : Name) :
    EStateM OsError (Tree Name Content) Unit :=
  fun t =>
    if hdir : t.node dir = some .directory then
      if hold : t.node (dir ++ [target]) = some .directory then .error .isADirectory t
      else
        match hsource : t.node (dir ++ [source]) with
        | some (.file content) =>
            .ok () ((t.set dir source none hdir fun h => nomatch hsource.symm.trans h).set dir target
              (some (.file content)) (by simp [hdir]) fun h => absurd h (by
                rw [Tree.set_node, Function.update_apply]
                split
                · exact nofun
                · exact hold))
        | _ => .error .notFound t
    else .error (noDirectory t dir) t

end Operations

section Rules

variable {t : Tree Name Content} {dir : List Name}

/-- A tree that has more directories, all of them at some locations. -/
def Grown (p : List Name → Prop) (t t' : Tree Name Content) : Prop :=
  ∀ l, t'.node l = t.node l ∨ p l ∧ t.node l = none ∧ t'.node l = some .directory

instance {p : List Name → Prop} : IsPreorder (Tree Name Content) (Grown p) where
  refl _ _ := .inl rfl
  trans t₁ t₂ t₃ h₁ h₂ l := by
    rcases h₁ l with heq | ⟨hp, hnone, hdirectory⟩
    · rw [← heq]
      exact h₂ l
    · refine .inr ⟨hp, hnone, ?_⟩
      rcases h₂ l with heq | ⟨-, hnone', -⟩
      · exact heq.trans hdirectory
      · exact nomatch hdirectory.symm.trans hnone'

/-- It has the same files. -/
theorem grown_file {p : List Name → Prop} {t' : Tree Name Content} (h : Grown p t t')
    {l : List Name} {content : Content} :
    t'.node l = some (.file content) ↔ t.node l = some (.file content) := by
  rcases h l with heq | ⟨-, hnone, hdirectory⟩
  · rw [heq]
  · simp [hnone, hdirectory]

theorem within_makeDirectory {p : List Name → Prop} {name : Name} (hp : p (dir ++ [name])) :
    Within (Grown p) (makeDirectory dir name : EStateM OsError (Tree Name Content) Unit) := by
  intro t
  unfold After makeDirectory
  split_ifs with hdir hnew hold
  · intro l
    rw [Tree.set_node, Function.update_apply]
    split
    · rename_i heq
      exact .inr ⟨heq ▸ hp, heq ▸ hnew, rfl⟩
    · exact .inl rfl
  · exact refl_of (Grown p) t
  · exact refl_of (Grown p) t
  · exact refl_of (Grown p) t

/-- Making directories only adds the missing ones of the path. -/
theorem within_makeDirectories {p : List Name → Prop} {path : List Name}
    (hp : ∀ l, l <+: dir ++ path → p l) :
    Within (Grown p) (makeDirectories dir path : EStateM OsError (Tree Name Content) Unit) := by
  induction path generalizing dir with
  | nil => exact within_pure ()
  | cons name rest ih =>
      have hsplit : dir ++ name :: rest = (dir ++ [name]) ++ rest := by simp
      refine within_bind (within_makeDirectory (hp _ ?_)) fun _ => ih ?_
      · exact hsplit ▸ List.prefix_append _ _
      · rwa [← hsplit]

theorem after_writeFile {name : Name} {content : Content} :
    After (writeFile dir name content)
      (fun _ t' => t.node dir = some .directory ∧ t.node (dir ++ [name]) ≠ some .directory ∧
        t'.node = Function.update t.node (dir ++ [name]) (some (.file content)))
      (fun _ t' => t' = t ∧
        (t.node dir ≠ some .directory ∨ t.node (dir ++ [name]) = some .directory)) t := by
  unfold After writeFile
  split_ifs with hdir hold
  · exact ⟨rfl, .inr hold⟩
  · exact ⟨hdir, hold, rfl⟩
  · exact ⟨rfl, .inl hdir⟩

theorem after_replaceFile {source target : Name} {content : Content}
    (hdir : t.node dir = some .directory)
    (hsource : t.node (dir ++ [source]) = some (.file content)) :
    After (replaceFile dir source target)
      (fun _ t' => t'.node = Function.update (Function.update t.node (dir ++ [source]) none)
        (dir ++ [target]) (some (.file content)))
      (fun _ t' => t' = t ∧ t.node (dir ++ [target]) = some .directory) t := by
  unfold After replaceFile
  rw [dif_pos hdir]
  split_ifs with hold
  · exact ⟨rfl, hold⟩
  · split
    · rename_i heq
      split at heq
      · rename_i content' hsource'
        obtain rfl : content' = content := by
          rw [hsource] at hsource'
          cases hsource'
          rfl
        cases heq
        rfl
      · cases heq
    · rename_i heq
      split at heq
      · cases heq
      · rename_i hother
        exact absurd hsource (hother content)

/-- Writing a file under another name first, and then renaming it: all of it, or
the file of the other name only. -/
theorem after_write_replace {temporary name : Name} {content : Content}
    (hname : temporary ≠ name) :
    After (writeFile dir temporary content >>= fun _ => replaceFile dir temporary name)
      (fun _ t' => t.node dir = some .directory ∧
        t'.node = Function.update (Function.update t.node (dir ++ [temporary]) none)
          (dir ++ [name]) (some (.file content)))
      (fun _ t' => (t' = t ∨
          t'.node = Function.update t.node (dir ++ [temporary]) (some (.file content))) ∧
        (t.node dir = some .directory → t.node (dir ++ [temporary]) ≠ some .directory →
          t.node (dir ++ [name]) = some .directory)) t := by
  rw [after_bind]
  refine after_writeFile.mono ?_ ?_
  · rintro - t₁ ⟨hdir, htemporary, h₁⟩
    have hdir₁ : t₁.node dir = some .directory := by
      rw [h₁, Function.update_of_ne (by simp)]
      exact hdir
    have hsource : t₁.node (dir ++ [temporary]) = some (.file content) := by
      rw [h₁, Function.update_self]
    refine (after_replaceFile hdir₁ hsource).mono ?_ ?_
    · intro _ t' h'
      refine ⟨hdir, ?_⟩
      rw [h', h₁, Function.update_idem]
    · rintro _ t' ⟨rfl, htarget⟩
      refine ⟨.inr h₁, fun _ _ => ?_⟩
      rwa [h₁, Function.update_of_ne (by simpa using hname.symm)] at htarget
  · rintro _ t' ⟨rfl, hraised⟩
    refine ⟨.inl rfl, fun hdir htemporary => ?_⟩
    rcases hraised with hdir' | htemporary'
    · exact absurd hdir hdir'
    · exact absurd htemporary' htemporary

/-- No directory is lost. -/
def KeepsDirectories (t t' : Tree Name Content) : Prop :=
  ∀ l, t.node l = some .directory → t'.node l = some .directory

instance : IsPreorder (Tree Name Content) KeepsDirectories where
  refl _ _ := id
  trans _ _ _ h h' l hl := h' l (h l hl)

theorem keeps_makeDirectories (path : List Name) : Within KeepsDirectories
    (makeDirectories dir path : EStateM OsError (Tree Name Content) Unit) := by
  intro t
  refine (within_makeDirectories (p := fun _ => True) (fun _ _ => trivial) t).mono ?_ ?_ <;>
  · intro _ t' h l hl
    rcases h l with heq | ⟨-, -, hdirectory⟩
    · rw [heq]
      exact hl
    · exact hdirectory

theorem keeps_writeFile (name : Name) (content : Content) : Within KeepsDirectories
    (writeFile dir name content : EStateM OsError (Tree Name Content) Unit) := by
  intro t
  refine after_writeFile.mono ?_ ?_
  · rintro _ t' ⟨-, hold, h⟩ l hl
    rw [h, Function.update_of_ne]
    · exact hl
    · rintro rfl
      exact hold hl
  · rintro _ t' ⟨rfl, -⟩
    exact refl_of KeepsDirectories t'

omit [DecidableEq Name] in
/-- What leads to a directory are directories. -/
theorem Tree.node_prefix (t : Tree Name Content) {l here : List Name}
    (h : t.node here = some .directory) (hl : l <+: here) : t.node l = some .directory := by
  obtain ⟨rest, rfl⟩ := hl
  cases rest with
  | nil => rwa [List.append_nil] at h
  | cons name rest =>
      by_contra hnot
      rw [t.node_below hnot] at h
      cases h

/-- Where no file is in the way, all directories of a path are made. -/
theorem makeDirectories_ok {path : List Name} (hdir : t.node dir = some .directory)
    (hfree : ∀ l, l <+: dir ++ path → ∀ content, t.node l ≠ some (.file content)) :
    ∃ t', makeDirectories dir path t = .ok () t' ∧
      ∀ l, t'.node l = if l <+: dir ++ path then some .directory else t.node l := by
  induction path generalizing dir t with
  | nil =>
      refine ⟨t, rfl, fun l => ?_⟩
      rw [List.append_nil]
      split
      · next hl => exact t.node_prefix hdir hl
      · rfl
  | cons name rest ih =>
      have hsplit : dir ++ name :: rest = (dir ++ [name]) ++ rest := by simp
      have hprefix : dir ++ [name] <+: dir ++ name :: rest := hsplit ▸ List.prefix_append _ _
      obtain ⟨t₁, hmade, hnode⟩ : ∃ t₁, makeDirectory dir name t = .ok () t₁ ∧
          t₁.node = Function.update t.node (dir ++ [name]) (some .directory) := by
        unfold makeDirectory
        rw [dif_pos hdir]
        split_ifs with hnew hold
        · exact ⟨_, rfl, rfl⟩
        · refine ⟨t, rfl, ?_⟩
          rw [← hold, Function.update_eq_self]
        · exfalso
          rcases hsome : t.node (dir ++ [name]) with _ | _ | content
          · exact hnew hsome
          · exact hold hsome
          · exact hfree _ hprefix content hsome
      have hdir₁ : t₁.node (dir ++ [name]) = some .directory := by
        rw [hnode, Function.update_self]
      have hfree₁ : ∀ l, l <+: (dir ++ [name]) ++ rest → ∀ content,
          t₁.node l ≠ some (.file content) := by
        intro l hl content
        rw [hnode, Function.update_apply]
        split
        · exact nofun
        · exact hfree l (hsplit ▸ hl) content
      obtain ⟨t', hrest, hnode'⟩ := ih hdir₁ hfree₁
      refine ⟨t', ?_, fun l => ?_⟩
      · show (makeDirectory dir name >>= fun _ => makeDirectories (dir ++ [name]) rest) t = _
        simp only [bind, EStateM.bind, hmade, hrest]
      · rw [hnode', hsplit, hnode, Function.update_apply]
        split
        · rfl
        · next hnot =>
          rw [if_neg]
          rintro rfl
          exact hnot (List.prefix_append _ _)

/-- A file is written with the directories on its path where no file is in the way
and no directory in its place. -/
theorem makeDirectories_writeFile_ok {name : Name} {content : Content}
    (hfree : ∀ l, l <+: dir → ∀ content, t.node l ≠ some (.file content))
    (hplace : t.node (dir ++ [name]) ≠ some .directory) :
    ∃ t' t'', makeDirectories [] dir t = .ok () t' ∧ writeFile dir name content t' = .ok () t'' ∧
      ∀ l, t''.node l = if l = dir ++ [name] then some (.file content)
        else if l <+: dir then some .directory else t.node l := by
  obtain ⟨t', hmade, hnode⟩ := @makeDirectories_ok _ _ _ t [] dir t.top
    (by rwa [List.nil_append])
  rw [List.nil_append] at hnode
  have hdir : t'.node dir = some .directory := by
    rw [hnode, if_pos (List.prefix_refl dir)]
  have hnot : ¬ dir ++ [name] <+: dir := by
    intro h
    have hle := h.length_le
    rw [List.length_append, List.length_singleton] at hle
    omega
  have hplace' : t'.node (dir ++ [name]) ≠ some .directory := by
    rw [hnode, if_neg hnot]
    exact hplace
  have hwritten := @after_writeFile _ _ _ t' dir name content
  refine ⟨t', ?_⟩
  unfold After at hwritten
  rcases hwrite : writeFile dir name content t' with ⟨⟨⟩, t''⟩ | ⟨e, t''⟩
  · rw [hwrite] at hwritten
    refine ⟨t'', hmade, rfl, fun l => ?_⟩
    rw [hwritten.2.2, Function.update_apply]
    split
    · rfl
    · exact hnode l
  · rw [hwrite] at hwritten
    exact absurd hwritten.2 (not_or.mpr ⟨fun h => h hdir, hplace'⟩)

end Rules

end C2c.Library.FileTree
