import Mathlib.Data.List.Basic

/-!
Structured control flow over arbitrary actions and tests: choices between arms,
loops that test before each iteration and give up at a limit, and leaving.
-/

namespace C2c.Library.StructuredCode

/-- A piece of code.  An arm without a test is always taken. -/
inductive Piece (A T : Type) where
  | act (action : A)
  | choose (arms : List (Option T × List (Piece A T)))
  | loop (test : T) (body : List (Piece A T))
  | leave

/-- How code ends: at its end, by leaving, or in a loop beyond the limit. -/
inductive Outcome (S : Type) where
  | done (s : S)
  | left (s : S)
  | exceeded (s : S)
deriving DecidableEq

namespace Outcome

variable {S S' : Type}

def state : Outcome S → S
  | done s => s
  | left s => s
  | exceeded s => s

def map (f : S → S') : Outcome S → Outcome S'
  | done s => done (f s)
  | left s => left (f s)
  | exceeded s => exceeded (f s)

/-- Go on where the code ended at its end. -/
def andThen (o : Outcome S) (next : S → Outcome S) : Outcome S :=
  match o with
  | done s => next s
  | left s => left s
  | exceeded s => exceeded s

@[simp] theorem andThen_done (s : S) (next : S → Outcome S) : (done s).andThen next = next s := rfl

theorem andThen_assoc (o : Outcome S) (next last : S → Outcome S) :
    (o.andThen next).andThen last = o.andThen fun s => (next s).andThen last := by
  cases o <;> rfl

theorem andThen_done_right (o : Outcome S) : o.andThen done = o := by
  cases o <;> rfl

end Outcome

/-- What actions and tests do to a state. -/
structure Interpretation (A T S : Type) where
  act : A → S → S
  test : T → S → Bool × S

/-- Test, and run the body until the test succeeds, at most `limit` times. -/
def iterate {S : Type} (test : S → Bool × S) (body : S → Outcome S) : Nat → S → Outcome S
  | 0, s => if (test s).1 then .done (test s).2 else .exceeded (test s).2
  | limit + 1, s =>
      if (test s).1 then .done (test s).2
      else (body (test s).2).andThen (iterate test body limit)

section Execution

variable {A T S : Type} (I : Interpretation A T S) (limit : Nat)

mutual

def execPiece : Piece A T → S → Outcome S
  | .act action, s => .done (I.act action s)
  | .choose arms, s => execArms arms s
  | .loop test body, s => iterate (I.test test) (exec body) limit s
  | .leave, s => .left s

/-- Run a list of pieces. -/
def exec : List (Piece A T) → S → Outcome S
  | [], s => .done s
  | piece :: pieces, s => (execPiece piece s).andThen (exec pieces)

/-- Run the first arm whose test succeeds. -/
def execArms : List (Option T × List (Piece A T)) → S → Outcome S
  | [], s => .done s
  | arm :: arms, s => execArm arm (execArms arms) s

def execArm : Option T × List (Piece A T) → (S → Outcome S) → S → Outcome S
  | (none, body), _, s => exec body s
  | (some test, body), others, s =>
      if (I.test test s).1 then exec body (I.test test s).2 else others (I.test test s).2

end

@[simp] theorem exec_nil (s : S) : exec I limit [] s = .done s := by
  rw [exec]

theorem exec_cons (piece : Piece A T) (pieces : List (Piece A T)) (s : S) :
    exec I limit (piece :: pieces) s =
      (execPiece I limit piece s).andThen (exec I limit pieces) := by
  rw [exec]

@[simp] theorem exec_act (action : A) (pieces : List (Piece A T)) (s : S) :
    exec I limit (.act action :: pieces) s = exec I limit pieces (I.act action s) := by
  rw [exec_cons, execPiece, Outcome.andThen_done]

theorem exec_append (before after : List (Piece A T)) (s : S) :
    exec I limit (before ++ after) s =
      (exec I limit before s).andThen (exec I limit after) := by
  induction before generalizing s with
  | nil => rw [List.nil_append, exec_nil, Outcome.andThen_done]
  | cons piece before ih =>
      rw [List.cons_append, exec_cons, exec_cons, Outcome.andThen_assoc]
      congr 1
      exact funext ih

theorem exec_singleton (piece : Piece A T) (s : S) :
    exec I limit [piece] s = execPiece I limit piece s := by
  rw [exec_cons]
  have hnil : exec I limit ([] : List (Piece A T)) = Outcome.done := funext (exec_nil I limit)
  rw [hnil, Outcome.andThen_done_right]

theorem exec_acts (actions : List A) (s : S) :
    exec I limit (actions.map .act) s =
      .done (actions.foldl (fun s action => I.act action s) s) := by
  induction actions generalizing s with
  | nil => exact exec_nil I limit s
  | cons action actions ih => rw [List.map_cons, exec_act, ih, List.foldl_cons]

end Execution

section Invariants

variable {A T S : Type} {I : Interpretation A T S} {limit : Nat} {invariant : S → Prop}

theorem andThen_invariant {o : Outcome S} {next : S → Outcome S} (ho : invariant o.state)
    (hnext : ∀ s, invariant s → invariant (next s).state) : invariant (o.andThen next).state := by
  cases o with
  | done s => exact hnext s ho
  | left s => exact ho
  | exceeded s => exact ho

theorem iterate_invariant {test : S → Bool × S} {body : S → Outcome S}
    (htest : ∀ s, invariant s → invariant (test s).2)
    (hbody : ∀ s, invariant s → invariant (body s).state) {s : S} (hs : invariant s) :
    invariant (iterate test body limit s).state := by
  induction limit generalizing s with
  | zero =>
      rw [iterate]
      split
      · exact htest s hs
      · exact htest s hs
  | succ limit ih =>
      rw [iterate]
      split
      · exact htest s hs
      · exact andThen_invariant (hbody _ (htest s hs)) fun s hs => ih hs

/-- Every action and every test keeps the invariant. -/
structure Keeps (I : Interpretation A T S) (invariant : S → Prop) : Prop where
  act : ∀ action s, invariant s → invariant (I.act action s)
  test : ∀ test s, invariant s → invariant (I.test test s).2

mutual

theorem execPiece_invariant (h : Keeps I invariant) (piece : Piece A T) (s : S)
    (hs : invariant s) : invariant (execPiece I limit piece s).state := by
  cases piece with
  | act action =>
      rw [execPiece]
      exact h.act action s hs
  | choose arms =>
      rw [execPiece]
      exact execArms_invariant h arms s hs
  | loop test body =>
      rw [execPiece]
      exact iterate_invariant (h.test test) (exec_invariant h body) hs
  | leave =>
      rw [execPiece]
      exact hs
termination_by structural piece

/-- What every action and test keeps, code keeps. -/
theorem exec_invariant (h : Keeps I invariant) (pieces : List (Piece A T)) (s : S)
    (hs : invariant s) : invariant (exec I limit pieces s).state := by
  cases pieces with
  | nil =>
      rw [exec_nil]
      exact hs
  | cons piece pieces =>
      rw [exec_cons]
      exact andThen_invariant (execPiece_invariant h piece s hs) (exec_invariant h pieces)
termination_by structural pieces

theorem execArms_invariant (h : Keeps I invariant) (arms : List (Option T × List (Piece A T)))
    (s : S) (hs : invariant s) : invariant (execArms I limit arms s).state := by
  cases arms with
  | nil =>
      rw [execArms]
      exact hs
  | cons arm arms =>
      rw [execArms]
      exact execArm_invariant h arm _ (execArms_invariant h arms) s hs
termination_by structural arms

theorem execArm_invariant (h : Keeps I invariant) (arm : Option T × List (Piece A T))
    (others : S → Outcome S) (hothers : ∀ s, invariant s → invariant (others s).state) (s : S)
    (hs : invariant s) : invariant (execArm I limit arm others s).state := by
  match arm with
  | (none, body) =>
      rw [execArm]
      exact exec_invariant h body s hs
  | (some test, body) =>
      rw [execArm]
      split
      · exact exec_invariant h body _ (h.test test s hs)
      · exact hothers _ (h.test test s hs)
termination_by structural arm

end

end Invariants

section Simulation

variable {S S' : Type} {spoiled : S → Prop} {project : S → S'}

/-- The second run ends as the first, unless the first came upon a spoiled
state. -/
def Follows (spoiled : S → Prop) (project : S → S') (o : Outcome S) (o' : Outcome S') : Prop :=
  spoiled o.state ∨ o' = o.map project

theorem follows_done (s : S) : Follows spoiled project (.done s) (.done (project s)) :=
  .inr rfl

/-- Runs that follow each other are followed by runs that do.  What is spoiled
stays so. -/
theorem Follows.andThen {o : Outcome S} {o' : Outcome S'} {next : S → Outcome S}
    {next' : S' → Outcome S'} (h : Follows spoiled project o o')
    (hspoiled : ∀ s, spoiled s → spoiled (next s).state)
    (hnext : ∀ s, Follows spoiled project (next s) (next' (project s))) :
    Follows spoiled project (o.andThen next) (o'.andThen next') := by
  rcases h with hs | rfl
  · exact .inl (andThen_invariant hs hspoiled)
  · cases o with
    | done s => exact hnext s
    | left s => exact .inr rfl
    | exceeded s => exact .inr rfl

theorem iterate_follows {test : S → Bool × S} {test' : S' → Bool × S'} {body : S → Outcome S}
    {body' : S' → Outcome S'} {limit : Nat}
    (htest : ∀ s, test' (project s) = ((test s).1, project (test s).2))
    (hspoiledTest : ∀ s, spoiled s → spoiled (test s).2)
    (hspoiledBody : ∀ s, spoiled s → spoiled (body s).state)
    (hbody : ∀ s, Follows spoiled project (body s) (body' (project s))) (s : S) :
    Follows spoiled project (iterate test body limit s)
      (iterate test' body' limit (project s)) := by
  induction limit generalizing s with
  | zero =>
      rw [iterate, iterate, htest]
      split
      · exact .inr rfl
      · exact .inr rfl
  | succ limit ih =>
      rw [iterate, iterate, htest]
      split
      · exact .inr rfl
      · apply (hbody _).andThen
        · intro s hs
          exact iterate_invariant hspoiledTest hspoiledBody hs
        · exact ih

end Simulation

end C2c.Library.StructuredCode
