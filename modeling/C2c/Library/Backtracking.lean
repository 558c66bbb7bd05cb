import Mathlib.Data.List.Basic
import C2c.Library.JavaText

/-!
Regular expressions that capture parts of what they match.  A matcher lists the
ways it can match at the head of a text, in the order in which they are tried.
-/

namespace C2c.Library.Backtracking

open C2c.Library.JavaText

/-- The ways to match at the head of a text: what each captures and leaves. -/
def Matcher (A : Type) := Text → List (A × Text)

instance : Monad Matcher where
  pure a := fun t => [(a, t)]
  bind m f := fun t => (m t).flatMap fun way => f way.1 way.2

/-- A run of characters of a class, and the shorter ones behind it. -/
def runs (p : Char → Bool) : Matcher Text
  | [] => [([], [])]
  | c :: t =>
      if p c then (runs p t).map (fun way => (c :: way.1, way.2)) ++ [([], c :: t)]
      else [([], c :: t)]

/-- `p{least,}`, which is greedy. -/
def repeated (least : Nat) (p : Char → Bool) : Matcher Text := fun t =>
  (runs p t).filter fun way => least ≤ way.1.length

def one (p : Char → Bool) : Matcher Char
  | c :: t => if p c then [(c, t)] else []
  | [] => []

def literal (word : Text) : Matcher Unit := fun t =>
  if word.isPrefixOf t then [((), t.drop word.length)] else []

/-- `m?`, which is greedy and captures nothing. -/
def possibly {A : Type} (m : Matcher A) : Matcher Unit := fun t =>
  (m t).map (fun way => ((), way.2)) ++ [((), t)]

/-- What the first way captures. -/
def exec {A : Type} (m : Matcher A) (t : Text) : Option A :=
  (m t).head?.map Prod.fst

section Ways

variable {A B : Type} {p : Char → Bool} {t rest : Text}

theorem mem_pure {a a' : A} : (a', rest) ∈ (pure a : Matcher A) t ↔ a' = a ∧ rest = t := by
  show (a', rest) ∈ [(a, t)] ↔ _
  rw [List.mem_singleton, Prod.mk.injEq]

theorem mem_bind {m : Matcher A} {f : A → Matcher B} {b : B} :
    (b, rest) ∈ (m >>= f) t ↔ ∃ a middle, (a, middle) ∈ m t ∧ (b, rest) ∈ f a middle := by
  show (b, rest) ∈ (m t).flatMap (fun way => f way.1 way.2) ↔ _
  rw [List.mem_flatMap, Prod.exists]

theorem mem_runs {s : Text} :
    (s, rest) ∈ runs p t ↔ t = s ++ rest ∧ ∀ c ∈ s, p c = true := by
  induction t generalizing s with
  | nil =>
      rw [runs, List.mem_singleton, Prod.mk.injEq]
      constructor
      · rintro ⟨rfl, rfl⟩
        exact ⟨rfl, nofun⟩
      · rintro ⟨hnil, -⟩
        exact List.append_eq_nil_iff.mp hnil.symm
  | cons c t ih =>
      rw [runs]
      cases s with
      | nil =>
          have hnil : c :: t = [] ++ rest ↔ rest = c :: t := eq_comm
          rw [hnil]
          split
          · simp
          · simp
      | cons d s =>
          split
          · rename_i hc
            simp only [List.mem_append, List.mem_map, List.mem_singleton, Prod.mk.injEq,
              List.cons_append, List.cons.injEq, List.forall_mem_cons]
            constructor
            · rintro (⟨way, hway, ⟨rfl, rfl⟩, rfl⟩ | ⟨h, -⟩)
              · obtain ⟨rfl, hs⟩ := ih.mp hway
                exact ⟨⟨rfl, rfl⟩, hc, hs⟩
              · cases h
            · rintro ⟨⟨rfl, rfl⟩, -, hs⟩
              exact Or.inl ⟨(s, rest), ih.mpr ⟨rfl, hs⟩, ⟨rfl, rfl⟩, rfl⟩
          · rename_i hc
            simp only [List.mem_singleton, Prod.mk.injEq, List.cons_append, List.cons.injEq,
              List.forall_mem_cons]
            constructor
            · rintro ⟨h, -⟩
              cases h
            · rintro ⟨⟨rfl, -⟩, hd, -⟩
              exact absurd hd hc

theorem mem_repeated {least : Nat} {s : Text} :
    (s, rest) ∈ repeated least p t ↔
      t = s ++ rest ∧ (∀ c ∈ s, p c = true) ∧ least ≤ s.length := by
  rw [repeated, List.mem_filter, mem_runs, decide_eq_true_iff, and_assoc]

theorem mem_one {c : Char} : (c, rest) ∈ one p t ↔ t = c :: rest ∧ p c = true := by
  cases t with
  | nil => exact ⟨nofun, nofun⟩
  | cons d t =>
      rw [one]
      split
      · rename_i hd
        rw [List.mem_singleton, Prod.mk.injEq, List.cons.injEq]
        constructor
        · rintro ⟨rfl, rfl⟩
          exact ⟨⟨rfl, rfl⟩, hd⟩
        · rintro ⟨⟨rfl, rfl⟩, -⟩
          exact ⟨rfl, rfl⟩
      · rename_i hd
        rw [List.cons.injEq]
        constructor
        · exact nofun
        · rintro ⟨⟨rfl, -⟩, hc⟩
          exact absurd hc hd

theorem mem_literal {word : Text} : ((), rest) ∈ literal word t ↔ t = word ++ rest := by
  rw [literal]
  split
  · rename_i h
    obtain ⟨behind, rfl⟩ := List.isPrefixOf_iff_prefix.mp h
    rw [List.drop_left, List.mem_singleton, Prod.mk.injEq, List.append_cancel_left_eq]
    exact ⟨fun h => h.2.symm, fun h => ⟨rfl, h.symm⟩⟩
  · rename_i h
    refine ⟨nofun, ?_⟩
    rintro rfl
    exact absurd (List.isPrefixOf_iff_prefix.mpr (List.prefix_append word rest)) h

theorem mem_possibly {m : Matcher A} :
    ((), rest) ∈ possibly m t ↔ (∃ a, (a, rest) ∈ m t) ∨ rest = t := by
  rw [possibly, List.mem_append, List.mem_map, List.mem_singleton, Prod.mk.injEq]
  refine or_congr ?_ ⟨fun h => h.2, fun h => ⟨rfl, h⟩⟩
  constructor
  · rintro ⟨way, hway, hrest⟩
    obtain rfl := (Prod.mk.inj hrest).2
    exact ⟨way.1, hway⟩
  · rintro ⟨a, ha⟩
    exact ⟨(a, rest), ha, rfl⟩

theorem exec_eq_none {m : Matcher A} : exec m t = none ↔ ∀ a rest, (a, rest) ∉ m t := by
  rw [exec, Option.map_eq_none_iff, List.head?_eq_none_iff, List.eq_nil_iff_forall_not_mem,
    Prod.forall]

theorem exists_of_exec {m : Matcher A} {a : A} (h : exec m t = some a) :
    ∃ rest, (a, rest) ∈ m t := by
  obtain ⟨way, hway, rfl⟩ := Option.map_eq_some_iff.mp h
  exact ⟨way.2, List.mem_of_mem_head? hway⟩

theorem head_cons {q : Char → Prop} {c : Char} (hc : q c) : ∀ d ∈ (c :: t).head?, q d := by
  intro d hd
  obtain rfl := Option.some.inj hd
  exact hc

/-- A run of characters of a class that nothing of the class follows is the only one. -/
theorem run_unique {s s' rest' : Text} (hs : ∀ c ∈ s, p c = true)
    (hrest : ∀ c ∈ rest.head?, p c = false) (hs' : ∀ c ∈ s', p c = true)
    (hrest' : ∀ c ∈ rest'.head?, p c = false) (h : s ++ rest = s' ++ rest') :
    s = s' ∧ rest = rest' := by
  have hrun {s rest : Text} (hs : ∀ c ∈ s, p c = true) (hrest : ∀ c ∈ rest.head?, p c = false) :
      (s ++ rest).takeWhile p = s := by
    rw [List.takeWhile_append_of_pos hs]
    cases rest with
    | nil => exact List.append_nil s
    | cons c rest =>
        rw [List.takeWhile_cons_of_neg (by simp [hrest c rfl]), List.append_nil]
  have heq : s = s' := by
    rw [← hrun hs hrest, h, hrun hs' hrest']
  subst heq
  exact ⟨rfl, List.append_cancel_left h⟩

/-- A text that matches in ways that all capture the same. -/
theorem exec_eq_some {m : Matcher A} {a : A} (hmem : ∃ rest, (a, rest) ∈ m t)
    (hall : ∀ b rest, (b, rest) ∈ m t → b = a) : exec m t = some a := by
  cases h : exec m t with
  | none =>
      obtain ⟨rest, hrest⟩ := hmem
      exact absurd hrest (exec_eq_none.mp h a rest)
  | some b =>
      obtain ⟨rest, hrest⟩ := exists_of_exec h
      rw [hall b rest hrest]

end Ways

end C2c.Library.Backtracking
