import Mathlib.Data.List.Basic
import Mathlib.Order.RelClasses

namespace C2c.Library.Machine

section Runs

variable {State Call : Type*} (step : State → Call → State)

/-- The state a list of calls leads to. -/
def run (s : State) (calls : List Call) : State :=
  calls.foldl step s

@[simp] theorem run_nil (s : State) : run step s [] = s := rfl

@[simp] theorem run_cons (s : State) (call : Call) (calls : List Call) :
    run step s (call :: calls) = run step (step s call) calls := rfl

theorem run_append (s : State) (calls later : List Call) :
    run step s (calls ++ later) = run step (run step s calls) later :=
  List.foldl_append

/-- A condition on the state before a call and the call, at every step. -/
def Along (condition : State → Call → Prop) : State → List Call → Prop
  | _, [] => True
  | s, call :: calls => condition s call ∧ Along condition (step s call) calls

theorem along_append {condition : State → Call → Prop} {s : State} {calls later : List Call} :
    Along step condition s (calls ++ later) ↔
      Along step condition s calls ∧ Along step condition (run step s calls) later := by
  induction calls generalizing s with
  | nil => simp [Along]
  | cons call calls ih => simp [Along, ih, and_assoc]

theorem along_of_forall {condition : State → Call → Prop} {calls : List Call}
    (h : ∀ s, ∀ call ∈ calls, condition s call) (s : State) : Along step condition s calls := by
  induction calls generalizing s with
  | nil => exact trivial
  | cons call calls ih =>
      exact ⟨h s call List.mem_cons_self,
        ih (fun s later hlater => h s later (List.mem_cons_of_mem _ hlater)) _⟩

variable {step}

/-- A property the start has and every step keeps holds after every run. -/
theorem run_invariant {invariant : State → Prop}
    (hstep : ∀ s call, invariant s → invariant (step s call)) {s : State} (hs : invariant s)
    (calls : List Call) : invariant (run step s calls) := by
  induction calls generalizing s with
  | nil => exact hs
  | cons call calls ih => exact ih (hstep s call hs)

/-- The same for a property that every step meeting a condition keeps. -/
theorem run_invariant_along {invariant : State → Prop} {condition : State → Call → Prop}
    (hstep : ∀ s call, invariant s → condition s call → invariant (step s call)) {s : State}
    (hs : invariant s) {calls : List Call} (halong : Along step condition s calls) :
    invariant (run step s calls) := by
  induction calls generalizing s with
  | nil => exact hs
  | cons call calls ih => exact ih (hstep s call hs halong.1) halong.2

/-- A quantity only counted calls make grow, by one at most, is bounded by their
number. -/
theorem run_bounded (measure : State → Nat) (counted : Call → Bool)
    (hstep : ∀ s call, measure (step s call) ≤ measure s + if counted call then 1 else 0)
    (s : State) (calls : List Call) :
    measure (run step s calls) ≤ measure s + calls.countP counted := by
  induction calls generalizing s with
  | nil => exact Nat.le_refl _
  | cons call calls ih =>
      calc measure (run step (step s call) calls)
          ≤ measure (step s call) + calls.countP counted := ih (step s call)
        _ ≤ measure s + (call :: calls).countP counted := by
            rw [List.countP_cons]
            have h := hstep s call
            omega

/-- A run whose steps each use up some of a measure is no longer than it. -/
theorem along_length_le {condition : State → Call → Prop} (measure : State → Nat)
    (hstep : ∀ s call, condition s call → measure (step s call) < measure s) {s : State}
    {calls : List Call} (halong : Along step condition s calls) : calls.length ≤ measure s := by
  induction calls generalizing s with
  | nil => exact Nat.zero_le _
  | cons call calls ih =>
      calc calls.length + 1 ≤ measure (step s call) + 1 := Nat.succ_le_succ (ih halong.2)
        _ ≤ measure s := hstep s call halong.1

/-- When a step keeps a property exactly if its condition is met, the property
holds all along a run exactly if every step meets the condition. -/
theorem run_invariant_iff {invariant : State → Prop} {condition : State → Call → Prop}
    (hstep : ∀ s call, invariant s → (invariant (step s call) ↔ condition s call)) {s : State}
    (hs : invariant s) (calls : List Call) :
    (∀ n, invariant (run step s (calls.take n))) ↔ Along step condition s calls := by
  induction calls generalizing s with
  | nil => simpa [Along] using hs
  | cons call calls ih =>
      constructor
      · intro hall
        have hnext : invariant (step s call) := hall 1
        exact ⟨(hstep s call hs).mp hnext, (ih hnext).mp fun n => hall (n + 1)⟩
      · rintro ⟨hcondition, halong⟩ n
        cases n with
        | zero => exact hs
        | succ n => exact (ih ((hstep s call hs).mpr hcondition)).mpr halong n

/-- The same along the runs that meet an assumption at every step. -/
theorem run_invariant_iff_along {invariant : State → Prop} {assumed condition : State → Call → Prop}
    (hstep : ∀ s call, invariant s → assumed s call →
      (invariant (step s call) ↔ condition s call)) {s : State} (hs : invariant s)
    {calls : List Call} (halong : Along step assumed s calls) :
    (∀ n, invariant (run step s (calls.take n))) ↔ Along step condition s calls := by
  induction calls generalizing s with
  | nil => simpa [Along] using hs
  | cons call calls ih =>
      constructor
      · intro hall
        have hnext : invariant (step s call) := hall 1
        exact ⟨(hstep s call hs halong.1).mp hnext,
          (ih hnext halong.2).mp fun n => hall (n + 1)⟩
      · rintro ⟨hcondition, hrest⟩ n
        cases n with
        | zero => exact hs
        | succ n => exact (ih ((hstep s call hs halong.1).mpr hcondition) halong.2).mpr hrest n

end Runs

section Batches

variable {State Item Error : Type*} (take : State → Item → State × Option Error)

/-- A loop over items that the first refused one ends. -/
def takeEach (s : State) : List Item → State × Option Error
  | [] => (s, none)
  | item :: items =>
      match take s item with
      | (next, none) => takeEach next items
      | (next, some e) => (next, some e)

variable {take}

theorem takeEach_cons_none {s : State} {item : Item} (h : (take s item).2 = none)
    (items : List Item) : takeEach take s (item :: items) = takeEach take (take s item).1 items := by
  rw [takeEach]
  rcases htake : take s item with ⟨next, _ | e⟩
  · rfl
  · rw [htake] at h
    cases h

theorem takeEach_cons_some {s : State} {item : Item} (h : (take s item).2 ≠ none)
    (items : List Item) : takeEach take s (item :: items) = take s item := by
  rw [takeEach]
  rcases htake : take s item with ⟨next, _ | e⟩
  · rw [htake] at h
    exact absurd rfl h
  · rfl

theorem takeEach_invariant {invariant : State → Prop}
    (hstep : ∀ s item, invariant s → invariant (take s item).1) {s : State} (hs : invariant s)
    (items : List Item) : invariant (takeEach take s items).1 := by
  induction items generalizing s with
  | nil => exact hs
  | cons item items ih =>
      by_cases h : (take s item).2 = none
      · rw [takeEach_cons_none h]
        exact ih (hstep s item hs)
      · rw [takeEach_cons_some h]
        exact hstep s item hs

theorem takeEach_error {invariant : State → Prop} {wrong : Error → Prop}
    (hstep : ∀ s item, invariant s → invariant (take s item).1)
    (herror : ∀ s item e, invariant s → (take s item).2 = some e → wrong e) {s : State}
    (hs : invariant s) {items : List Item} {e : Error}
    (h : (takeEach take s items).2 = some e) : wrong e := by
  induction items generalizing s with
  | nil => cases h
  | cons item items ih =>
      by_cases hnone : (take s item).2 = none
      · rw [takeEach_cons_none hnone] at h
        exact ih (hstep s item hs) h
      · rw [takeEach_cons_some hnone] at h
        exact herror s item e hs h

/-- A loop body that adds an accepted item to what is held, and refuses another
one without a trace. -/
structure Takes {Whole Held : Type*} (take : State → Item → State × Option Error)
    (invariant : State → Prop) (accepted : Item → Prop) (whole : State → Whole)
    (held : Whole → Held) (add : Held → Item → Held) : Prop where
  keeps : ∀ s item, invariant s → invariant (take s item).1
  accepts : ∀ s item, invariant s → accepted item →
    (take s item).2 = none ∧ held (whole (take s item).1) = add (held (whole s)) item
  refuses : ∀ s item, invariant s → ¬ accepted item →
    (take s item).2 ≠ none ∧ whole (take s item).1 = whole s

variable {Whole Held : Type*} {invariant : State → Prop} {accepted : Item → Prop}
  {whole : State → Whole} {held : Whole → Held} {add : Held → Item → Held}

theorem takeEach_accepted (h : Takes take invariant accepted whole held add) {s : State}
    (hs : invariant s) {items : List Item} (hitems : ∀ item ∈ items, accepted item) :
    (takeEach take s items).2 = none ∧
      held (whole (takeEach take s items).1) = items.foldl add (held (whole s)) := by
  induction items generalizing s with
  | nil => exact ⟨rfl, rfl⟩
  | cons item items ih =>
      obtain ⟨hitem, hrest⟩ := List.forall_mem_cons.mp hitems
      obtain ⟨hnone, hheld⟩ := h.accepts s item hs hitem
      rw [takeEach_cons_none hnone, List.foldl_cons, ← hheld]
      exact ih (h.keeps s item hs) hrest

/-- A loop with a refused item fails, and holds at least what it held. -/
theorem takeEach_refused (h : Takes take invariant accepted whole held add) (size : Held → Nat)
    (hsize : ∀ m item, accepted item → size (add m item) = size m + 1) {s : State}
    (hs : invariant s) {items : List Item} (hitems : ¬ ∀ item ∈ items, accepted item) :
    (takeEach take s items).2 ≠ none ∧
      size (held (whole s)) ≤ size (held (whole (takeEach take s items).1)) := by
  induction items generalizing s with
  | nil => exact absurd nofun hitems
  | cons item items ih =>
      by_cases hitem : accepted item
      · obtain ⟨hnone, hheld⟩ := h.accepts s item hs hitem
        have hrest : ¬ ∀ item ∈ items, accepted item :=
          fun hall => hitems (List.forall_mem_cons.mpr ⟨hitem, hall⟩)
        obtain ⟨hsome, hle⟩ := ih (h.keeps s item hs) hrest
        rw [hheld, hsize _ _ hitem] at hle
        rw [takeEach_cons_none hnone]
        exact ⟨hsome, by omega⟩
      · obtain ⟨hsome, hwhole⟩ := h.refuses s item hs hitem
        rw [takeEach_cons_some hsome, hwhole]
        exact ⟨hsome, Nat.le_refl _⟩

/-- The loop takes all items or leaves no trace if and only if all items are
accepted or already the first is refused. -/
theorem takeEach_atomic_iff (h : Takes take invariant accepted whole held add) (size : Held → Nat)
    (hsize : ∀ m item, accepted item → size (add m item) = size m + 1) {s : State}
    (hs : invariant s) (items : List Item) :
    ((takeEach take s items).2 = none ∧
        held (whole (takeEach take s items).1) = items.foldl add (held (whole s)) ∨
      (takeEach take s items).2 ≠ none ∧ whole (takeEach take s items).1 = whole s) ↔
      (∀ item ∈ items, accepted item) ∨ ∃ item, items.head? = some item ∧ ¬ accepted item := by
  by_cases hall : ∀ item ∈ items, accepted item
  · exact iff_of_true (.inl (takeEach_accepted h hs hall)) (.inl hall)
  obtain ⟨hsome, _⟩ := takeEach_refused h size hsize hs hall
  cases items with
  | nil => exact absurd nofun hall
  | cons item items =>
      simp only [hsome, hall, false_and, false_or, ne_eq, not_false_eq_true, true_and,
        List.head?_cons, Option.some.injEq, exists_eq_left']
      constructor
      · intro hwhole hitem
        obtain ⟨hnone, hheld⟩ := h.accepts s item hs hitem
        have hrest : ¬ ∀ item ∈ items, accepted item :=
          fun hrest => hall (List.forall_mem_cons.mpr ⟨hitem, hrest⟩)
        obtain ⟨_, hle⟩ := takeEach_refused h size hsize (h.keeps s item hs) hrest
        rw [takeEach_cons_none hnone] at hwhole
        rw [hwhole, hheld, hsize _ _ hitem] at hle
        omega
      · intro hitem
        obtain ⟨hsome, hwhole⟩ := h.refuses s item hs hitem
        rw [takeEach_cons_some hsome]
        exact hwhole

end Batches

section Waiting

/-- Among threads that each are ready or wait for one of lower rank, some thread
is ready. -/
theorem exists_ready {Thread Rank : Type*} [LT Rank] [WellFoundedLT Rank]
    {pending ready : Thread → Prop} (rank : Thread → Rank)
    (hwaits : ∀ t, pending t → ready t ∨ ∃ u, pending u ∧ rank u < rank t) {t : Thread}
    (ht : pending t) : ∃ u, pending u ∧ ready u := by
  induction h : rank t using WellFoundedLT.induction generalizing t with
  | ind r ih =>
      rcases hwaits t ht with hready | ⟨u, hu, hlt⟩
      · exact ⟨t, ht, hready⟩
      · exact ih (rank u) (h ▸ hlt) hu rfl

end Waiting

section Partial

variable {A B A' B' : Type*}

/-- Two partial computations that fail together and keep a relation. -/
theorem rel_bind {before : A → B → Prop} {after : A' → B' → Prop} {x : Option A} {y : Option B}
    {f : A → Option A'} {g : B → Option B'} (h : Option.Rel before x y)
    (hnext : ∀ a b, before a b → Option.Rel after (f a) (g b)) :
    Option.Rel after (x.bind f) (y.bind g) := by
  cases h with
  | none => exact .none
  | some hab => exact hnext _ _ hab

theorem rel_isSome {R : A → B → Prop} {x : Option A} {y : Option B} (h : Option.Rel R x y) :
    x.isSome = y.isSome := by
  cases h with
  | none => rfl
  | some hab => rfl

/-- Two choices under one condition. -/
theorem rel_ite {R : A → B → Prop} {condition : Prop} [Decidable condition] {x x' : Option A}
    {y y' : Option B} (hyes : Option.Rel R x y) (hno : Option.Rel R x' y') :
    Option.Rel R (if condition then x else x') (if condition then y else y') := by
  split
  · exact hyes
  · exact hno

end Partial

end C2c.Library.Machine
