import C2c.Library.StructuredCode

/-!
Simulation between structured codes that have actions, tests and states of their
own, under a relation between the states.
-/

namespace C2c.Library.CodeSimulation

open C2c.Library.StructuredCode

section Outcomes

variable {S S' : Type} {R : S → S' → Prop}

/-- Both runs end in the same way, in related states. -/
def Related (R : S → S' → Prop) : Outcome S → Outcome S' → Prop
  | .done s, .done s' => R s s'
  | .left s, .left s' => R s s'
  | .exceeded s, .exceeded s' => R s s'
  | _, _ => False

theorem Related.andThen {o : Outcome S} {o' : Outcome S'} {next : S → Outcome S}
    {next' : S' → Outcome S'} (h : Related R o o')
    (hnext : ∀ s s', R s s' → Related R (next s) (next' s')) :
    Related R (o.andThen next) (o'.andThen next') := by
  match o, o', h with
  | .done s, .done s', h => exact hnext s s' h
  | .left _, .left _, h => exact h
  | .exceeded _, .exceeded _, h => exact h

/-- In related states two tests answer alike and leave related states. -/
def TestsAlike (R : S → S' → Prop) (test : S → Bool × S) (test' : S' → Bool × S') : Prop :=
  ∀ s s', R s s' → (test s).1 = (test' s').1 ∧ R (test s).2 (test' s').2

theorem iterate_related {test : S → Bool × S} {test' : S' → Bool × S'} {body : S → Outcome S}
    {body' : S' → Outcome S'} (htest : TestsAlike R test test')
    (hbody : ∀ s s', R s s' → Related R (body s) (body' s')) (limit : Nat) {s : S} {s' : S'}
    (h : R s s') : Related R (iterate test body limit s) (iterate test' body' limit s') := by
  induction limit generalizing s s' with
  | zero =>
      obtain ⟨hanswer, hstate⟩ := htest s s' h
      rw [iterate, iterate, ← hanswer]
      split
      · exact hstate
      · exact hstate
  | succ limit ih =>
      obtain ⟨hanswer, hstate⟩ := htest s s' h
      rw [iterate, iterate, ← hanswer]
      split
      · exact hstate
      · exact (hbody _ _ hstate).andThen fun _ _ => ih

end Outcomes

section Codes

variable {A A' T T' S S' : Type} (I : Interpretation A T S) (I' : Interpretation A' T' S')
  (limit : Nat) (R : S → S' → Prop)

/-- From related states the second code runs as the first. -/
def Simulates (code : List (Piece A T)) (code' : List (Piece A' T')) : Prop :=
  ∀ s s', R s s' → Related R (exec I limit code s) (exec I' limit code' s')

def ArmsSimulate (arms : List (Option T × List (Piece A T)))
    (arms' : List (Option T' × List (Piece A' T'))) : Prop :=
  ∀ s s', R s s' → Related R (execArms I limit arms s) (execArms I' limit arms' s')

variable {I I' limit R} {code next : List (Piece A T)} {code' next' : List (Piece A' T')}
  {arms : List (Option T × List (Piece A T))} {arms' : List (Option T' × List (Piece A' T'))}

theorem simulates_nil : Simulates I I' limit R [] [] := by
  intro s s' h
  rw [exec_nil, exec_nil]
  exact h

theorem Simulates.append (h : Simulates I I' limit R code code')
    (hnext : Simulates I I' limit R next next') :
    Simulates I I' limit R (code ++ next) (code' ++ next') := by
  intro s s' hs
  rw [exec_append, exec_append]
  exact (h s s' hs).andThen hnext

/-- One action is simulated by several. -/
theorem simulates_act {action : A} {actions : List A'}
    (h : ∀ s s', R s s' → R (I.act action s) (actions.foldl (fun s a => I'.act a s) s')) :
    Simulates I I' limit R [.act action] (actions.map .act) := by
  intro s s' hs
  rw [exec_act, exec_nil, exec_acts]
  exact h s s' hs

theorem simulates_leave : Simulates I I' limit R [.leave] [.leave] := by
  intro s s' h
  rw [exec_singleton, exec_singleton, execPiece, execPiece]
  exact h

theorem simulates_choose (h : ArmsSimulate I I' limit R arms arms') :
    Simulates I I' limit R [.choose arms] [.choose arms'] := by
  intro s s' hs
  rw [exec_singleton, exec_singleton, execPiece, execPiece]
  exact h s s' hs

theorem simulates_loop {test : T} {test' : T'} (htest : TestsAlike R (I.test test) (I'.test test'))
    (hbody : Simulates I I' limit R code code') :
    Simulates I I' limit R [.loop test code] [.loop test' code'] := by
  intro s s' hs
  rw [exec_singleton, exec_singleton, execPiece, execPiece]
  exact iterate_related htest hbody limit hs

theorem armsSimulate_nil : ArmsSimulate I I' limit R [] [] := by
  intro s s' h
  rw [execArms, execArms]
  exact h

theorem armsSimulate_always (hbody : Simulates I I' limit R code code') :
    ArmsSimulate I I' limit R ((none, code) :: arms) ((none, code') :: arms') := by
  intro s s' h
  rw [execArms, execArms, execArm, execArm]
  exact hbody s s' h

theorem armsSimulate_test {test : T} {test' : T'}
    (htest : TestsAlike R (I.test test) (I'.test test'))
    (hbody : Simulates I I' limit R code code') (harms : ArmsSimulate I I' limit R arms arms') :
    ArmsSimulate I I' limit R ((some test, code) :: arms) ((some test', code') :: arms') := by
  intro s s' h
  obtain ⟨hanswer, hstate⟩ := htest s s' h
  rw [execArms, execArms, execArm, execArm, ← hanswer]
  split
  · exact hbody _ _ hstate
  · exact harms _ _ hstate

end Codes

end C2c.Library.CodeSimulation
