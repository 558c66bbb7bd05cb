import C2c.Runtime.CobolArithmetic
import C2c.TargetJava.LeafStatements

/-!
What the chains of additions and subtractions come to that are generated for `ADD`
and `SUBTRACT`.
-/

namespace C2c.TargetJava.Accumulation

open C2c.Library.JavaText
open C2c.Library.JavaObject
open C2c.Library.BigDecimal (toRat Ranged LeavesRange magnitudeAt supported)
open C2c.Runtime
open C2c.Runtime.CobolDecimal
open C2c.TargetJava.References
open C2c.TargetJava.Expressions
open C2c.TargetJava.LeafStatements

section Chains

/-- The methods of an accumulation. -/
inductive Method
  | add
  | subtract

def Method.name : Method → String
  | .add => "add"
  | .subtract => "subtract"

def Method.call : Method → CobolDecimal → CobolDecimal → Except JavaException CobolDecimal
  | .add => CobolDecimal.add
  | .subtract => CobolDecimal.subtract

/-- What a chain of calls comes to. -/
def chain (method : Method) (start : CobolDecimal) (sources : List CobolDecimal) :
    Except JavaException CobolDecimal :=
  sources.foldlM method.call start

/-- What a call adds. -/
def Method.part (method : Method) (source : CobolDecimal) : Rat :=
  match method with
  | .add => source.value.toRat
  | .subtract => -source.value.toRat

/-- Whether a call makes the result signed. -/
def Method.signs (method : Method) (source : CobolDecimal) : Bool :=
  match method with
  | .add => source.signed
  | .subtract => true

variable {method : Method} {start source result : CobolDecimal}

theorem call_eq_ok (h : method.call start source = .ok result) :
    result.value.toRat = start.value.toRat + method.part source ∧
      result.scale = max start.scale source.scale ∧
      result.signed = (start.signed || method.signs source) := by
  cases method with
  | add => exact add_eq_ok h
  | subtract =>
      obtain ⟨hnumber, hscale, hsigned⟩ := subtract_eq_ok h
      exact ⟨by rw [hnumber, sub_eq_add_neg]; rfl, hscale, by rw [hsigned]; exact (Bool.or_true _).symm⟩

theorem foldr_max (scales : List Nat) (m n : Nat) :
    scales.foldr max (max m n) = max n (scales.foldr max m) := by
  induction scales with
  | nil => exact max_comm m n
  | cons scale scales ih => rw [List.foldr_cons, List.foldr_cons, ih, max_left_comm]

/-- A chain that returns is exact, as wide as its widest part, and signed if a call
made it so. -/
theorem chain_eq_ok {sources : List CobolDecimal} (h : chain method start sources = .ok result) :
    result.value.toRat = start.value.toRat + (sources.map method.part).sum ∧
      result.scale = (sources.map CobolDecimal.scale).foldr max start.scale ∧
      result.signed = (start.signed || sources.any method.signs) := by
  induction sources generalizing start with
  | nil =>
      obtain rfl := Except.ok.inj h
      simp
  | cons source sources ih =>
      obtain ⟨middle, hmiddle, hrest⟩ := bind_eq_ok h
      obtain ⟨hnumber, hscale, hsigned⟩ := call_eq_ok hmiddle
      obtain ⟨hnumber', hscale', hsigned'⟩ := ih hrest
      refine ⟨?_, ?_, ?_⟩
      · rw [hnumber', hnumber, List.map_cons, List.sum_cons, add_assoc]
      · rw [hscale', hscale, List.map_cons, List.foldr_cons, foldr_max]
      · rw [hsigned', hsigned, List.any_cons, Bool.or_assoc]

/-- Two orders of the sources that both return give the same. -/
theorem chain_perm {sources sources' : List CobolDecimal} {result' : CobolDecimal}
    (hperm : sources.Perm sources') (h : chain method start sources = .ok result)
    (h' : chain method start sources' = .ok result') : result = result' := by
  obtain ⟨hnumber, hscale, hsigned⟩ := chain_eq_ok h
  obtain ⟨hnumber', hscale', hsigned'⟩ := chain_eq_ok h'
  apply ext_number
  · rw [hnumber, hnumber', (hperm.map _).sum_eq]
  · rw [hscale, hscale']
    exact (hperm.map _).foldr_eq start.scale
  · rw [hsigned, hsigned', hperm.any_eq]

/-- A chain returns where the magnitudes of all its parts add up within the range. -/
theorem exists_chain {scale : Nat} {sources : List CobolDecimal} (hstart : start.scale ≤ scale)
    (hsources : ∀ source ∈ sources, source.scale ≤ scale)
    (h : supported (magnitudeAt scale start.value +
      (sources.map fun source => magnitudeAt scale source.value).sum) = true) :
    ∃ result, chain method start sources = .ok result := by
  induction sources generalizing start with
  | nil => exact ⟨start, rfl⟩
  | cons source sources ih =>
      rw [List.forall_mem_cons] at hsources
      rw [List.map_cons, List.sum_cons, ← add_assoc] at h
      obtain ⟨middle, hmiddle, hmagnitude⟩ : ∃ middle, method.call start source = .ok middle ∧
          magnitudeAt scale middle.value ≤
            magnitudeAt scale start.value + magnitudeAt scale source.value := by
        have hpair := C2c.Library.BigDecimal.supported_mono (Nat.le_add_right _ _) h
        cases method with
        | add => exact exists_add hstart hsources.1 hpair
        | subtract => exact exists_subtract hstart hsources.1 hpair
      have hscale : middle.scale ≤ scale := by
        rw [(call_eq_ok hmiddle).2.1]
        exact max_le hstart hsources.1
      obtain ⟨result, hresult⟩ := ih hscale hsources.2
        (C2c.Library.BigDecimal.supported_mono (Nat.add_le_add_right hmagnitude _) h)
      refine ⟨result, ?_⟩
      unfold chain
      rw [List.foldlM_cons, hmiddle]
      exact hresult

end Chains

section Emission

variable (u : UnicodeData) (site : Site)

/-- The text of a chain of calls behind a field's value. -/
def chainText (accessor : Text) (method : Method) (operands : List Text) : Text :=
  accessor ++ ".numericValue()".toList ++
    operands.flatMap fun operand => '.' :: method.name.toList ++ '(' :: operand ++ [')']

/-- The operands of a statement's sources, in their order. -/
def operandsOf (sources : List Text) : List Text :=
  sources.map fun source => (numericExpression u site source).value

/-- What a chain's text comes to, when its parts have these values. -/
def evaluate (valueOf : Text → CobolDecimal) (accessor : Text) (method : Method)
    (operands : List Text) : Except JavaException CobolDecimal :=
  chain method (valueOf (accessor ++ ".numericValue()".toList)) (operands.map valueOf)

/-- A target that is a field is assigned one chain. -/
theorem value_emitAccumulateInto (method : Method) (sources : List Text) (targetName : Text) :
    (emitAccumulateInto u site method.name sources targetName).value =
      ((fieldReference u site targetName).value.elim [] fun target =>
        [assignNumeric target.accessor
          (chainText target.accessor method (operandsOf u site sources))]) := by
  unfold emitAccumulateInto
  rw [value_bind]
  cases (fieldReference u site targetName).value with
  | none => rfl
  | some target =>
      rw [value_bind, value_mapM]
      rfl

end Emission

section Statement

/-- No operation leads out of the decimals, and they throw only where they divide
by zero, are asked for a negative scale or leave the range of numbers; numbers of few
enough digits do not leave it. -/
structure Closed (x y : CobolDecimal) : Prop where
  invariant : x.value.scale = x.scale ∧ (x.signed = false → 0 ≤ x.value.unscaled)
  add : Ranged (x.add y)
  subtract : Ranged (x.subtract y)
  multiply : Ranged (x.multiply y)
  divide : ∀ e, x.divide y = .error e →
    y.value.unscaled = 0 ∧ e = dividedByZero ∨ LeavesRange e
  rescale : ∀ newScale e, x.rescale newScale = .error e → newScale < 0 ∨ LeavesRange e
  zeroLike : ∃ z, x.zeroLike = .ok z
  returns : ∀ k, supported (10 ^ (3 * k + 1)) = true → Digits k x → Digits k y →
    (∃ z, x.add y = .ok z) ∧ (∃ z, x.subtract y = .ok z) ∧ (∃ z, x.multiply y = .ok z) ∧
      (y.value.unscaled ≠ 0 → ∃ z, x.divide y = .ok z) ∧
      ∀ newScale : Nat, newScale ≤ k → ∃ z, x.rescale newScale = .ok z

/-- The laws of addition, for what is returned. -/
structure Additive (x y z : CobolDecimal) : Prop where
  exact : ∀ s, x.add y = .ok s → s.value.toRat = x.value.toRat + y.value.toRat ∧
    s.scale = max x.scale y.scale ∧ s.signed = (x.signed || y.signed)
  comm : x.add y = y.add x
  assoc : ∀ xy yz left right, x.add y = .ok xy → xy.add z = .ok left → y.add z = .ok yz →
    x.add yz = .ok right → left = right
  back : ∀ difference r, x.subtract y = .ok difference → difference.add y = .ok r →
    r.equals x = true

variable (u : UnicodeData) (site : Site)

/-- The chain of a statement gives the same for every order of its sources, unless
a sum on the way leaves the range; none does where the magnitudes add up within it. -/
structure OrderFree (method : Method) (sources : List Text) (targetName : Text) : Prop where
  emitted : ∀ target, (fieldReference u site targetName).value = some target →
    (emitAccumulateInto u site method.name sources targetName).value =
      [assignNumeric target.accessor
        (chainText target.accessor method (operandsOf u site sources))]
  same : ∀ sources', sources.Perm sources' → ∀ valueOf accessor result result',
    evaluate valueOf accessor method (operandsOf u site sources) = .ok result →
    evaluate valueOf accessor method (operandsOf u site sources') = .ok result' →
    result = result'
  returns : ∀ valueOf accessor (scale : Nat),
    (valueOf (accessor ++ ".numericValue()".toList)).scale ≤ scale →
    (∀ operand ∈ operandsOf u site sources, (valueOf operand).scale ≤ scale) →
    supported (magnitudeAt scale (valueOf (accessor ++ ".numericValue()".toList)).value +
      ((operandsOf u site sources).map fun operand =>
        magnitudeAt scale (valueOf operand).value).sum) = true →
    ∃ result, evaluate valueOf accessor method (operandsOf u site sources) = .ok result

end Statement

section Settled

theorem closed (x y : CobolDecimal) : Closed x y where
  invariant := ⟨x.value_scale, x.nonneg⟩
  add := ranged_add x y
  subtract := ranged_subtract x y
  multiply := ranged_multiply x y
  divide := by
    intro e he
    by_cases hzero : y.value.unscaled = 0
    · unfold CobolDecimal.divide at he
      rw [if_pos hzero] at he
      exact .inl ⟨hzero, (Except.error.inj he).symm⟩
    · exact .inr (ranged_divide hzero e he)
  rescale := by
    intro newScale e he
    rcases lt_or_ge newScale 0 with hneg | hpos
    · exact .inl hneg
    · exact .inr (ranged_rescale x hpos e he)
  zeroLike := exists_zeroLike x
  returns := by
    intro k hk hx hy
    have hsum := hx.supported_sum hk hy
    obtain ⟨sum, hadd, -⟩ := exists_add hx.scale hy.scale hsum
    obtain ⟨difference, hsubtract, -⟩ := exists_subtract hx.scale hy.scale hsum
    exact ⟨⟨sum, hadd⟩, ⟨difference, hsubtract⟩, exists_multiply hk hx hy,
      exists_divide hk hx hy, fun newScale hnew => exists_rescale hk hx hnew⟩

theorem additive (x y z : CobolDecimal) : Additive x y z where
  exact := fun _ => add_eq_ok
  comm := sum_comm x y
  assoc := fun _ _ _ _ => sum_assoc
  back := fun _ _ => equals_of_subtract_add

variable (u : UnicodeData) (site : Site)

theorem orderFree (method : Method) (sources : List Text) (targetName : Text) :
    OrderFree u site method sources targetName where
  emitted := by
    intro target htarget
    rw [value_emitAccumulateInto, htarget]
    rfl
  same := by
    intro sources' h valueOf accessor result result' hresult hresult'
    exact chain_perm ((h.map _).map _) hresult hresult'
  returns := by
    intro valueOf accessor scale hstart hoperands hsum
    refine exists_chain hstart ?_ ?_
    · intro source hsource
      obtain ⟨operand, hoperand, rfl⟩ := List.mem_map.mp hsource
      exact hoperands operand hoperand
    · rwa [List.map_map]

/-- Decimals are closed under arithmetic, addition obeys its laws, and the order of
the sources of an `ADD` or a `SUBTRACT` does not matter. -/
theorem decimals_lawful :
    (∀ x y, Closed x y) ∧ (∀ x y z, Additive x y z) ∧
      ∀ (u : UnicodeData) (site : Site) (method : Method) (sources : List Text)
        (targetName : Text), OrderFree u site method sources targetName :=
  ⟨closed, additive, orderFree⟩

def tenth : CobolDecimal :=
  ⟨⟨1, 1, by decide⟩, 1, true, rfl, nofun⟩

/-- Zero at the widest scale of all. -/
def widestZero : CobolDecimal :=
  ⟨⟨0, 2147483647, Library.BigDecimal.zero.supported_unscaled⟩, 2147483647, true, rfl, nofun⟩

/-- A product with a zero of the widest scale is refused, and so is a negative scale. -/
theorem refused_without_division :
    ofWhole 0 2147483647 true = .ok widestZero ∧
      tenth.multiply widestZero = .error (.arithmetic "Underflow".toList) ∧
      tenth.rescale (-1) =
        .error (.illegalArgument "newScale must be >= 0, got: -1".toList) :=
  ⟨rfl, rfl, rfl⟩

end Settled

end C2c.TargetJava.Accumulation
