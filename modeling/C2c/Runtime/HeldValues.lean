import C2c.Runtime.CobolField

namespace C2c.Runtime

open C2c.Library
open C2c.Library.JavaText
open C2c.Library.JavaObject
open C2c.Library.BigDecimal
open C2c.Library.Raising

/-- A number a picture describes. -/
structure CobolDecimal.Fits (picture : PictureSpec) (value : CobolDecimal) : Prop where
  scale : value.scale = picture.scale
  value_scale : value.value.scale = picture.scale
  whole_part : value.value.unscaled.natAbs / 10 ^ picture.scale < 10 ^ picture.integerDigits
  nonneg : picture.signed = false → 0 ≤ value.value.unscaled
  signed : picture.signed = true → value.signed = true

/-- Contents a picture describes. -/
def Contents.Fit {picture : PictureSpec} : Contents picture → Prop
  | .number _ value => value.Fits picture
  | .display _ text => (text.length : Int) = picture.byteSize

namespace CobolField

def WithinPicture (field : CobolField) : Prop :=
  field.contents.Fit

/-- What a call leaves: the picture and contents it describes, or the field as
it was when the call throws. -/
def Moved (call : EStateM JavaException CobolField Unit) (field : CobolField) : Prop :=
  After call (fun _ later => later.picture = field.picture ∧ later.WithinPicture)
    (fun _ later => later = field) field

/-- A check of the current field before a call. -/
theorem moved_require {condition : Prop} [Decidable condition] {e : JavaException}
    {call : EStateM JavaException CobolField Unit} {field : CobolField}
    (h : condition → Moved call field) : Moved (require condition e >>= fun _ => call) field := by
  unfold Moved
  rw [after_bind, after_require]
  exact ⟨h, fun _ => rfl⟩

theorem moved_returning {A : Type} {x : Except JavaException A}
    {call : A → EStateM JavaException CobolField Unit} {field : CobolField}
    (h : ∀ a, x = .ok a → Moved (call a) field) : Moved (returning x >>= call) field := by
  unfold Moved
  rw [after_bind, after_returning]
  exact ⟨h, fun _ _ => rfl⟩

theorem overflowsIntegerDigits_eq_ok {picture : PictureSpec} {candidate : CobolDecimal}
    {tooLarge : Bool} (h : overflowsIntegerDigits picture candidate = .ok tooLarge) :
    tooLarge = decide (10 ^ picture.integerDigits ≤
      candidate.value.unscaled.natAbs / 10 ^ candidate.scale) := by
  obtain ⟨integerPart, hpart, h⟩ := bind_eq_ok h
  obtain ⟨limit, hlimit, h⟩ := bind_eq_ok h
  obtain rfl := Except.ok.inj h
  obtain ⟨-, rfl⟩ := (toBigInteger_abs_eq_ok candidate.value_scale).mp hpart
  obtain ⟨-, rfl⟩ := powerOfTen_eq_ok.mp hlimit
  exact decide_eq_decide.mpr Int.ofNat_le

/-- The number stored under a signed picture carries the sign flag. -/
theorem stored_eq_ok {picture : PictureSpec} {rescaled stored : CobolDecimal}
    (h : (if picture.signed && !rescaled.signed then
      CobolDecimal.ofValue rescaled.value rescaled.scale true else .ok rescaled) = .ok stored) :
    stored.value = rescaled.value ∧ stored.scale = rescaled.scale ∧
      (picture.signed = true → stored.signed = true) := by
  split at h
  · rw [CobolDecimal.ofValue_natCast,
      CobolDecimal.construct_self rescaled.value_scale (fun hsigned => by cases hsigned)] at h
    obtain rfl := Except.ok.inj h
    exact ⟨rfl, rfl, fun _ => rfl⟩
  · rename_i hflag
    obtain rfl := Except.ok.inj h
    refine ⟨rfl, rfl, fun hsigned => ?_⟩
    simpa [hsigned] using hflag

theorem moved_setNumericValue (value : CobolDecimal) (field : CobolField) :
    Moved (setNumericValue value) field := by
  unfold setNumericValue Moved
  rw [after_bind, after_get]
  split
  · rename_i hnumeric
    apply moved_returning
    intro rescaled hrescaled
    obtain ⟨-, hscale, -⟩ :=
      CobolDecimal.construct_eq_ok ((CobolDecimal.rescale_natCast _ _).symm.trans hrescaled)
    apply moved_require
    intro hsign
    apply moved_returning
    intro tooLarge htooLarge
    apply moved_require
    rintro rfl
    have hfits := of_decide_eq_false (overflowsIntegerDigits_eq_ok htooLarge).symm
    apply moved_returning
    intro stored hstored
    obtain ⟨hvalue, hstoredScale, hsigned⟩ := stored_eq_ok hstored
    refine ⟨rfl, hstoredScale.trans hscale, ?_, ?_, ?_, hsigned⟩
    · rw [hvalue, rescaled.value_scale, hscale]
    · rw [hvalue, ← hscale]
      exact Nat.lt_of_not_le hfits
    · intro hunsigned
      rw [hvalue]
      exact hsign.resolve_left (by rw [hunsigned]; exact Bool.false_ne_true)
  · rfl

theorem moved_moveNumericLiteral (d : DigitData) (literal : Units) (field : CobolField) :
    Moved (moveNumericLiteral d literal) field := by
  unfold moveNumericLiteral Moved
  rw [after_bind, after_get]
  apply moved_require
  intro hnumeric
  apply moved_returning
  intro value hvalue
  exact moved_setNumericValue value field

theorem moved_moveLiteral (literal : Units) (field : CobolField) :
    Moved (moveLiteral literal) field := by
  unfold moveLiteral Moved
  rw [after_bind, after_get]
  split
  · rename_i hdisplay
    dsimp only
    split
    · rename_i hlong
      apply moved_require
      intro hwidth
      refine ⟨rfl, ?_⟩
      show ((literal.take field.picture.byteSize.toNat).length : Int) = field.picture.byteSize
      rw [List.length_take]
      omega
    · rename_i hshort
      refine ⟨rfl, ?_⟩
      show ((literal ++ List.replicate (field.picture.byteSize.toNat - literal.length)
        32).length : Int) = field.picture.byteSize
      rw [List.length_append, List.length_replicate]
      omega
  · rfl

theorem moved_moveFrom (source field : CobolField) : Moved (moveFrom source) field := by
  unfold moveFrom Moved
  rw [after_bind, after_get]
  split
  · rename_i value _
    apply moved_require
    intro hnumeric
    exact moved_setNumericValue value field
  · rename_i text _
    apply moved_require
    intro hdisplay
    exact moved_moveLiteral text field

theorem moved_perform (d : DigitData) (call : Call) (field : CobolField) :
    Moved (call.perform d) field := by
  cases call with
  | setNumericValue value => exact moved_setNumericValue value field
  | moveNumericLiteral literal => exact moved_moveNumericLiteral d literal field
  | moveFrom source => exact moved_moveFrom source field
  | moveLiteral literal => exact moved_moveLiteral literal field

/-- A call that throws leaves the field as it was. -/
theorem stateAfter_of_throws {d : DigitData} {call : Call} {field : CobolField}
    (h : errorOf (call.perform d) field ≠ none) :
    stateAfter (call.perform d) field = field := by
  have hmoved := moved_perform d call field
  unfold Moved After at hmoved
  unfold errorOf at h
  unfold stateAfter
  split at hmoved
  · rename_i heq
    simp [heq] at h
  · rename_i heq
    simpa [heq] using hmoved

/-- One call keeps the picture and what it describes. -/
theorem step_withinPicture {d : DigitData} {picture : PictureSpec} (field : CobolField)
    (call : Call) (h : field.picture = picture ∧ field.WithinPicture) :
    (step d field call).picture = picture ∧ (step d field call).WithinPicture := by
  have hmoved := moved_perform d call field
  unfold Moved After at hmoved
  unfold step stateAfter
  split at hmoved
  · exact ⟨hmoved.1.trans h.1, hmoved.2⟩
  · obtain rfl := hmoved
    exact h

/-- A new field holds zero or blanks. -/
theorem new_withinPicture {name irNodeId : Text} {picture : PictureSpec} {field : CobolField}
    (h : new name irNodeId picture = .ok field) :
    field.picture = picture ∧ field.WithinPicture := by
  unfold new at h
  split at h
  · rename_i hnumeric
    obtain ⟨zero, hzero, h⟩ := bind_eq_ok h
    obtain rfl := Except.ok.inj h
    obtain ⟨raw, hraw, hzero⟩ := bind_eq_ok hzero
    rw [CobolDecimal.ofValue_natCast] at hzero
    obtain ⟨hset, hscale, hsigned⟩ := CobolDecimal.construct_eq_ok hzero
    obtain ⟨hunscaled, hrawScale⟩ := make_eq_ok.mp hraw
    have hvalue : zero.value.unscaled = 0 :=
      unscaled_of_setScale hunscaled (by rw [hrawScale]; exact Int.natCast_nonneg _) hset
    refine ⟨rfl, hscale, ?_, ?_, ?_, fun h => hsigned.trans h⟩
    · rw [zero.value_scale, hscale]
    · rw [hvalue]
      simp
    · rw [hvalue]
      exact fun _ => Int.le_refl 0
  · split at h
    · cases h
    · obtain rfl := Except.ok.inj h
      refine ⟨rfl, ?_⟩
      show ((List.replicate picture.byteSize.toNat (32 : UInt16)).length : Int) = picture.byteSize
      rw [List.length_replicate]
      omega

/-- After every sequence of calls, some of which may throw, a field holds what
its picture describes, and a call that throws changes nothing. -/
theorem held_within_picture {name irNodeId : Text} {picture : PictureSpec} {field : CobolField}
    (hnew : new name irNodeId picture = .ok field) (d : DigitData) (calls : List Call) :
    let held := Machine.run (step d) field calls
    held.picture = picture ∧ held.WithinPicture ∧
      ∀ call, errorOf (Call.perform d call) held ≠ none → step d held call = held := by
  have hstep : ∀ (s : CobolField) (call : Call), s.picture = picture ∧ s.WithinPicture →
      (step d s call).picture = picture ∧ (step d s call).WithinPicture :=
    fun s call => step_withinPicture s call
  obtain ⟨hpicture, hwithin⟩ := Machine.run_invariant hstep (new_withinPicture hnew) calls
  exact ⟨hpicture, hwithin, fun call hthrows => stateAfter_of_throws hthrows⟩

/-- The rounded literal is held, and the one that overflows changes nothing. -/
theorem amount_within_picture :
    ∃ field, new "WS-AMOUNT".toList "ir-1".toList ⟨"S9(2)V9".toList, .numeric, 2, 1, 3, true⟩ =
      .ok field ∧
      let held := Machine.run (step .ascii) field
        [.moveNumericLiteral (units "-12.35".toList), .moveNumericLiteral (units "99.95".toList)]
      held.WithinPicture ∧ displayValue .ascii held = .ok (units "-12.4".toList) := by
  have hnew : new "WS-AMOUNT".toList "ir-1".toList
      ⟨"S9(2)V9".toList, .numeric, 2, 1, 3, true⟩ = .ok _ := rfl
  exact ⟨_, hnew, (held_within_picture hnew .ascii _).2.1, rfl⟩

end CobolField

end C2c.Runtime
