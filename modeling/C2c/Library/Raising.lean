import Mathlib.Order.Defs.Unbundled

/-!
Computations that change a state and may raise an exception, the changes made
before it being kept.
-/

namespace C2c.Library.Raising

section Rules

variable {Error State A B : Type}

/-- What holds after a computation: `post` when it returns, `raised` when it
raises. -/
def After (m : EStateM Error State A) (post : A → State → Prop) (raised : Error → State → Prop)
    (s : State) : Prop :=
  match m s with
  | .ok a s' => post a s'
  | .error e s' => raised e s'

variable {m : EStateM Error State A} {post post' : A → State → Prop}
  {raised raised' : Error → State → Prop} {s : State}

@[simp] theorem after_pure (a : A) : After (pure a) post raised s ↔ post a s :=
  Iff.rfl

@[simp] theorem after_throw (e : Error) :
    After (throw e : EStateM Error State A) post raised s ↔ raised e s :=
  Iff.rfl

@[simp] theorem after_get {post : State → State → Prop} :
    After (get : EStateM Error State State) post raised s ↔ post s s :=
  Iff.rfl

@[simp] theorem after_set (s' : State) {post : PUnit → State → Prop} :
    After (set s' : EStateM Error State PUnit) post raised s ↔ post ⟨⟩ s' :=
  Iff.rfl

@[simp] theorem after_modify (f : State → State) {post : PUnit → State → Prop} :
    After (modify f : EStateM Error State PUnit) post raised s ↔ post ⟨⟩ (f s) :=
  Iff.rfl

@[simp] theorem after_bind (f : A → EStateM Error State B) {post : B → State → Prop} :
    After (m >>= f) post raised s ↔ After m (fun a => After (f a) post raised) raised s := by
  simp only [After, bind, EStateM.bind]
  cases m s <;> rfl

@[simp] theorem after_map (f : A → B) {post : B → State → Prop} :
    After (f <$> m) post raised s ↔ After m (fun a => post (f a)) raised s := by
  simp only [After, Functor.map, EStateM.map]
  cases m s <;> rfl

@[simp] theorem after_tryCatch (handle : Error → EStateM Error State A) :
    After (tryCatch m handle) post raised s ↔
      After m post (fun e => After (handle e) post raised) s := by
  have hruns : (tryCatch m handle : EStateM Error State A) s =
      match m s with
      | .error e s' => handle e s'
      | .ok a s' => .ok a s' := by
    show EStateM.tryCatch m handle s = _
    delta EStateM.tryCatch
    cases m s <;> rfl
  unfold After
  rw [hruns]
  cases m s <;> rfl

/-- Go on if a condition holds. -/
def require (condition : Prop) [Decidable condition] (e : Error) : EStateM Error State PUnit :=
  if condition then pure ⟨⟩ else throw e

theorem after_require {condition : Prop} [Decidable condition] {e : Error}
    {post : PUnit → State → Prop} :
    After (require condition e) post raised s ↔
      (condition → post ⟨⟩ s) ∧ (¬ condition → raised e s) := by
  unfold require
  split
  · rename_i h
    simp [h]
  · rename_i h
    simp [h]

/-- A pure computation that may raise. -/
def returning : Except Error A → EStateM Error State A
  | .ok a => pure a
  | .error e => throw e

theorem after_returning {x : Except Error A} :
    After (returning x) post raised s ↔
      (∀ a, x = .ok a → post a s) ∧ ∀ e, x = .error e → raised e s := by
  cases x with
  | ok a => simp [returning]
  | error e => simp [returning]

/-- The state a computation leaves, whether it returns or raises. -/
def stateAfter (m : EStateM Error State A) (s : State) : State :=
  match m s with
  | .ok _ s' => s'
  | .error _ s' => s'

/-- What a computation raises. -/
def errorOf (m : EStateM Error State A) (s : State) : Option Error :=
  match m s with
  | .ok _ _ => none
  | .error e _ => some e

/-- What a computation returns. -/
def resultOf (m : EStateM Error State A) (s : State) : Option A :=
  match m s with
  | .ok a _ => some a
  | .error _ _ => none

theorem returns_of_resultOf {a : A} (h : resultOf m s = some a) : ∃ s', m s = .ok a s' := by
  unfold resultOf at h
  split at h
  · rename_i b s' hreturns
    obtain rfl := Option.some.inj h
    exact ⟨s', hreturns⟩
  · contradiction

theorem stateAfter_of_returns {a : A} {s' : State} (h : m s = .ok a s') : stateAfter m s = s' := by
  rw [stateAfter, h]

/-- A sequence that returns is two computations that do. -/
theorem returns_of_bind {f : A → EStateM Error State B} {b : B} {s' : State}
    (h : (m >>= f) s = .ok b s') : ∃ a s₁, m s = .ok a s₁ ∧ f a s₁ = .ok b s' := by
  simp only [bind, EStateM.bind] at h
  split at h
  · rename_i a s₁ hm
    exact ⟨a, s₁, hm, h⟩
  · contradiction

theorem After.result {p : Option Error → State → Prop}
    (h : After m (fun _ => p none) (fun e => p (some e)) s) : p (errorOf m s) (stateAfter m s) := by
  unfold After at h
  unfold errorOf stateAfter
  split at h
  · exact h
  · exact h

theorem After.mono (h : After m post raised s) (hpost : ∀ a s', post a s' → post' a s')
    (hraised : ∀ e s', raised e s' → raised' e s') : After m post' raised' s := by
  unfold After at h ⊢
  split at h
  · exact hpost _ _ h
  · exact hraised _ _ h

/-- What holds after a computation, with the outcome at hand. -/
theorem After.outcome (h : After m post raised s) :
    After m (fun a s' => m s = .ok a s' ∧ post a s') (fun e s' => m s = .error e s' ∧ raised e s')
      s := by
  unfold After at h ⊢
  split at h
  · rename_i heq
    exact ⟨heq, h⟩
  · rename_i heq
    exact ⟨heq, h⟩

theorem After.and (h : After m post raised s) (h' : After m post' raised' s) :
    After m (fun a s' => post a s' ∧ post' a s') (fun e s' => raised e s' ∧ raised' e s') s := by
  unfold After at h h' ⊢
  split at h
  · rename_i heq
    rw [heq] at h'
    exact ⟨h, h'⟩
  · rename_i heq
    rw [heq] at h'
    exact ⟨h, h'⟩

end Rules

section Keeping

variable {Error State A B : Type} {invariant : State → Prop}

/-- The computation keeps a property of the state, also when it raises. -/
def Keeps (invariant : State → Prop) (m : EStateM Error State A) : Prop :=
  ∀ s, invariant s → After m (fun _ => invariant) (fun _ => invariant) s

theorem keeps_pure (a : A) : Keeps invariant (pure a : EStateM Error State A) :=
  fun _ hs => hs

theorem keeps_throw (e : Error) : Keeps invariant (throw e : EStateM Error State A) :=
  fun _ hs => hs

theorem keeps_bind {m : EStateM Error State A} {f : A → EStateM Error State B}
    (hm : Keeps invariant m) (hf : ∀ a, Keeps invariant (f a)) : Keeps invariant (m >>= f) := by
  intro s hs
  rw [after_bind]
  exact (hm s hs).mono (fun a s' hs' => hf a s' hs') fun _ _ hs' => hs'

theorem keeps_tryCatch {m : EStateM Error State A} {handle : Error → EStateM Error State A}
    (hm : Keeps invariant m) (hhandle : ∀ e, Keeps invariant (handle e)) :
    Keeps invariant (tryCatch m handle) := by
  intro s hs
  rw [after_tryCatch]
  exact (hm s hs).mono (fun _ _ hs' => hs') fun e s' hs' => hhandle e s' hs'

theorem keeps_modify {f : State → State} (hf : ∀ s, invariant s → invariant (f s)) :
    Keeps invariant (modify f : EStateM Error State PUnit) :=
  fun s hs => hf s hs

end Keeping

section Relating

variable {Error State A B : Type} {R : State → State → Prop}

/-- The computation leads to related states only, also when it raises. -/
def Within (R : State → State → Prop) (m : EStateM Error State A) : Prop :=
  ∀ s, After m (fun _ => R s) (fun _ => R s) s

theorem within_modify {f : State → State} (hf : ∀ s, R s (f s)) :
    Within R (modify f : EStateM Error State PUnit) :=
  fun s => hf s

/-- A computation that leads to related states, and what comes after it. -/
theorem Within.bind {m : EStateM Error State A} {f : A → EStateM Error State B}
    {post : B → State → Prop} {raised : Error → State → Prop} {s : State} (hm : Within R m)
    (hf : ∀ a s', R s s' → After (f a) post raised s')
    (hraised : ∀ e s', R s s' → raised e s') : After (m >>= f) post raised s := by
  rw [after_bind]
  exact (hm s).mono hf hraised

theorem within_map {m : EStateM Error State A} (f : A → B) (hm : Within R m) :
    Within R (f <$> m) := by
  intro s
  rw [after_map]
  exact hm s

variable [IsPreorder State R]

theorem within_pure (a : A) : Within R (pure a : EStateM Error State A) :=
  fun s => refl_of R s

theorem within_throw (e : Error) : Within R (throw e : EStateM Error State A) :=
  fun s => refl_of R s

theorem within_get : Within R (get : EStateM Error State State) :=
  fun s => refl_of R s

/-- What is reached from a related state is related. -/
theorem Within.from {m : EStateM Error State A} (h : Within R m) {s s' : State} (hs : R s s') :
    After m (fun _ => R s) (fun _ => R s) s' :=
  (h s').mono (fun _ _ hs' => trans_of R hs hs') fun _ _ hs' => trans_of R hs hs'

theorem within_bind {m : EStateM Error State A} {f : A → EStateM Error State B}
    (hm : Within R m) (hf : ∀ a, Within R (f a)) : Within R (m >>= f) := by
  intro s
  rw [after_bind]
  exact (hm s).mono (fun a s' hs' => (hf a).from hs') fun _ _ hs' => hs'

theorem within_tryCatch {m : EStateM Error State A} {handle : Error → EStateM Error State A}
    (hm : Within R m) (hhandle : ∀ e, Within R (handle e)) : Within R (tryCatch m handle) := by
  intro s
  rw [after_tryCatch]
  exact (hm s).mono (fun _ _ hs' => hs') fun e s' hs' => (hhandle e).from hs'

theorem within_returning (x : Except Error A) :
    Within R (returning x : EStateM Error State A) := by
  cases x with
  | ok a => exact within_pure a
  | error e => exact within_throw e

end Relating

section Expecting

variable {Error State A B : Type} {R : State → State → Prop} {expected expected' : Error → Prop}

/-- The computation leads to related states only and raises only what is
expected. -/
def WithinExpecting (R : State → State → Prop) (expected : Error → Prop)
    (m : EStateM Error State A) : Prop :=
  ∀ s, After m (fun _ => R s) (fun e s' => R s s' ∧ expected e) s

theorem WithinExpecting.mono {m : EStateM Error State A} (h : WithinExpecting R expected m)
    (hexpected : ∀ e, expected e → expected' e) : WithinExpecting R expected' m :=
  fun s => (h s).mono (fun _ _ hs => hs) fun e _ hs => ⟨hs.1, hexpected e hs.2⟩

theorem expecting_modify {f : State → State} (hf : ∀ s, R s (f s)) :
    WithinExpecting R expected (modify f : EStateM Error State PUnit) :=
  fun s => hf s

variable [IsPreorder State R]

theorem expecting_pure (a : A) :
    WithinExpecting R expected (pure a : EStateM Error State A) :=
  fun s => refl_of R s

theorem expecting_throw {e : Error} (he : expected e) :
    WithinExpecting R expected (throw e : EStateM Error State A) :=
  fun s => ⟨refl_of R s, he⟩

theorem expecting_get : WithinExpecting R expected (get : EStateM Error State State) :=
  fun s => refl_of R s

theorem expecting_bind {m : EStateM Error State A} {f : A → EStateM Error State B}
    (hm : WithinExpecting R expected m) (hf : ∀ a, WithinExpecting R expected (f a)) :
    WithinExpecting R expected (m >>= f) := by
  intro s
  rw [after_bind]
  refine (hm s).mono ?_ fun _ _ hs => hs
  intro a s₁ h₁
  exact (hf a s₁).mono (fun _ _ hs => trans_of R h₁ hs) fun _ _ hs => ⟨trans_of R h₁ hs.1, hs.2⟩

theorem expecting_tryCatch {m : EStateM Error State A} {handle : Error → EStateM Error State A}
    (hm : WithinExpecting R expected m)
    (hhandle : ∀ e, expected e → WithinExpecting R expected' (handle e)) :
    WithinExpecting R expected' (tryCatch m handle) := by
  intro s
  rw [after_tryCatch]
  refine (hm s).mono (fun _ _ hs => hs) ?_
  rintro e s₁ ⟨h₁, he⟩
  exact (hhandle e he s₁).mono (fun _ _ hs => trans_of R h₁ hs)
    fun _ _ hs => ⟨trans_of R h₁ hs.1, hs.2⟩

end Expecting

end C2c.Library.Raising
