import C2c.Library.BigDecimal

namespace C2c.Runtime

open C2c.Library
open C2c.Library.JavaText
open C2c.Library.JavaObject
open C2c.Library.BigDecimal

/-- `CobolDecimal`: a number at a frozen scale, not negative unless signed. -/
structure CobolDecimal where
  value : BigDecimal
  scale : Nat
  signed : Bool
  value_scale : value.scale = scale
  nonneg : signed = false → 0 ≤ value.unscaled

namespace CobolDecimal

/-- The constructor of `CobolDecimal`. -/
def construct (value : BigDecimal) (scale : Nat) (signed : Bool) :
    Except JavaException CobolDecimal :=
  match hscale : value.setScale halfEven scale with
  | .error e => .error e
  | .ok rescaled =>
      if hneg : signed = false ∧ rescaled.unscaled < 0 then
        .error (.illegalArgument ("Unsigned CobolDecimal cannot hold negative value: ".toList ++
          rescaled.toPlainString))
      else
        .ok ⟨rescaled, scale, signed, scale_of_setScale hscale,
          fun hsigned => Int.not_lt.mp fun hlt => hneg ⟨hsigned, hlt⟩⟩

/-- `CobolDecimal.of(BigDecimal, int, boolean)`. -/
def ofValue (raw : BigDecimal) (scale : Int) (signed : Bool) : Except JavaException CobolDecimal :=
  if scale < 0 then
    .error (.illegalArgument ("scale must be >= 0, got: ".toList ++ intText scale))
  else construct raw scale.toNat signed

/-- `CobolDecimal.of(String, int, boolean)`. -/
def ofLiteral (d : DigitData) (literal : Units) (scale : Int) (signed : Bool) :
    Except JavaException CobolDecimal := do
  let raw ← parse d literal
  ofValue raw scale signed

/-- `CobolDecimal.of(long, int, boolean)`. -/
def ofWhole (whole : Int) (scale : Int) (signed : Bool) : Except JavaException CobolDecimal := do
  let raw ← make whole 0
  ofValue raw scale signed

def rescale (x : CobolDecimal) (newScale : Int) : Except JavaException CobolDecimal :=
  if newScale < 0 then
    .error (.illegalArgument ("newScale must be >= 0, got: ".toList ++ intText newScale))
  else construct x.value newScale.toNat x.signed

def toText (x : CobolDecimal) : Text :=
  x.value.toPlainString

theorem construct_eq_ok {value : BigDecimal} {scale : Nat} {signed : Bool} {x : CobolDecimal}
    (h : construct value scale signed = .ok x) :
    value.setScale halfEven scale = .ok x.value ∧ x.scale = scale ∧ x.signed = signed := by
  unfold construct at h
  split at h
  · cases h
  · rename_i rescaled hscale
    split at h
    · cases h
    · obtain rfl := Except.ok.inj h
      exact ⟨hscale, rfl, rfl⟩

/-- A number already at the scale is kept. -/
theorem construct_self {value : BigDecimal} {scale : Nat} {signed : Bool}
    (hscale : value.scale = scale) (hnonneg : signed = false → 0 ≤ value.unscaled) :
    construct value scale signed = .ok ⟨value, scale, signed, hscale, hnonneg⟩ := by
  have hset : value.setScale halfEven scale = .ok value := by
    rw [← hscale]
    exact setScale_self _ _
  unfold construct
  split
  · rename_i e herror
    rw [hset] at herror
    cases herror
  · rename_i rescaled hrescaled
    obtain rfl := Except.ok.inj (hset.symm.trans hrescaled)
    rw [dif_neg]
    rintro ⟨hsigned, hlt⟩
    exact absurd (hnonneg hsigned) (Int.not_le.mpr hlt)

theorem ofValue_natCast (raw : BigDecimal) (scale : Nat) (signed : Bool) :
    ofValue raw scale signed = construct raw scale signed := by
  unfold ofValue
  rw [if_neg (Int.not_lt.mpr (Int.natCast_nonneg scale)), Int.toNat_natCast]

theorem rescale_natCast (x : CobolDecimal) (scale : Nat) :
    x.rescale scale = construct x.value scale x.signed := by
  unfold rescale
  rw [if_neg (Int.not_lt.mpr (Int.natCast_nonneg scale)), Int.toNat_natCast]

theorem rescale_self (x : CobolDecimal) : x.rescale x.scale = .ok x := by
  rw [rescale_natCast, construct_self x.value_scale x.nonneg]

end CobolDecimal

end C2c.Runtime
