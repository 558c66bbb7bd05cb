import C2c.Library.JavaText
import C2c.Library.Nesting
import Mathlib.Data.Int.Order.Basic

/-!
The field layouts of the Semantic IR, and the `OCCURS` groups that enclose the data
items.
-/

namespace C2c.SemanticIr.FieldLayouts

open C2c.Library.JavaText
open C2c.Library.Nesting

section Layouts

/-- An entry of `dataItems`, as the service reads it. -/
structure DataItem where
  id : Text
  name : Text
  level : Int
  picture : Option Text := none
  byteSize : Option Int := none
  occurs : Option Int := none
  numeric : Bool := false
  signed : Bool := false
  scale : Option Int := none
  value : Option Text := none
  line : Int := 0

structure FieldLayout where
  id : Text
  name : Text
  level : Int
  picture : Option Text
  byteSize : Option Int
  occurs : Option Int
  occursParent : Option Text
  occursParentLevel : Option Int
  numeric : Bool
  signed : Bool
  scale : Option Int
  value : Option Text
  sourceLine : Int
deriving DecidableEq

/-- An entry of `activeOccursGroups`. -/
structure OccursGroup where
  name : Text
  level : Int
  occurs : Int

/-- The layout of an item within the active groups. -/
def layoutOf (activeOccursGroups : List OccursGroup) (item : DataItem) : FieldLayout :=
  let parent := activeOccursGroups.getLast?
  let inherits := item.occurs.isNone
  { id := item.id
    name := item.name
    level := item.level
    picture := item.picture
    byteSize := item.byteSize
    occurs := item.occurs.or (parent.map OccursGroup.occurs)
    occursParent := if inherits then parent.map OccursGroup.name else none
    occursParentLevel := if inherits then parent.map OccursGroup.level else none
    numeric := item.numeric
    signed := item.signed
    scale := item.scale
    value := item.value
    sourceLine := item.line }

/-- The group that an item opens. -/
def groupOf (item : DataItem) : Option OccursGroup :=
  match item.occurs, item.picture with
  | some occurs, none => some ⟨item.name, item.level, occurs⟩
  | _, _ => none

/-- The loop of `fieldLayouts`. -/
def layoutsFrom (activeOccursGroups : List OccursGroup) : List DataItem → List FieldLayout
  | [] => []
  | item :: items =>
      let active := activeOccursGroups.filter fun group => !(group.level ≥ item.level)
      layoutOf active item :: layoutsFrom (active ++ (groupOf item).toList) items

/-- `fieldLayouts`. -/
def fieldLayouts (items : List DataItem) : List FieldLayout :=
  layoutsFrom [] items

end Layouts

section Enclosing

/-- An `OCCURS` group. -/
def DataItem.opens (item : DataItem) : Bool :=
  item.occurs.isSome && item.picture.isNone

/-- A group encloses an item behind it, with some items between them. -/
def Encloses (group : DataItem) (between : List DataItem) (item : DataItem) : Prop :=
  group.opens = true ∧ item.level ≠ 77 ∧ ∀ c ∈ between ++ [item], group.level < c.level

/-- The innermost group that encloses an item behind others. -/
def Innermost (before : List DataItem) (group item : DataItem) : Prop :=
  ∃ pre between, before = pre ++ group :: between ∧ Encloses group between item ∧
    ∀ pre' group' between', between = pre' ++ group' :: between' →
      ¬ Encloses group' between' item

/-- No group encloses an item behind others. -/
def Unenclosed (before : List DataItem) (item : DataItem) : Prop :=
  ∀ pre group between, before = pre ++ group :: between → ¬ Encloses group between item

/-- A layout inherits what the innermost enclosing group has. -/
def Inherits (before : List DataItem) (item : DataItem) (layout : FieldLayout) : Prop :=
  (∀ group, Innermost before group item → layout.occurs = group.occurs ∧
    layout.occursParent = some group.name ∧ layout.occursParentLevel = some group.level) ∧
  (Unenclosed before item → layout.occurs = none ∧ layout.occursParent = none ∧
    layout.occursParentLevel = none)

/-- Every item without an `OCCURS` of its own inherits as it should. -/
def InheritsAll (items : List DataItem) : Prop :=
  ∀ before item after, items = before ++ item :: after → item.occurs = none →
    ∃ layout, (fieldLayouts items)[before.length]? = some layout ∧ Inherits before item layout

/-- Every item of level 77 without an `OCCURS` of its own stands outside of the items
of inner levels behind a group. -/
def StandaloneOutside (items : List DataItem) : Prop :=
  ∀ before item after, items = before ++ item :: after → item.occurs = none → item.level = 77 →
    ∀ pre group between, before = pre ++ group :: between → group.opens = true →
      ¬ ∀ c ∈ between ++ [item], group.level < c.level

end Enclosing

section Stack

/-- The group of an item that opens one. -/
def DataItem.asGroup (item : DataItem) : OccursGroup :=
  ⟨item.name, item.level, item.occurs.getD 0⟩

theorem toList_groupOf (item : DataItem) :
    (groupOf item).toList = (if item.opens then [item] else []).map DataItem.asGroup := by
  obtain ⟨id, name, level, picture, byteSize, occurs, numeric, signed, scale, value, line⟩ := item
  cases occurs <;> cases picture <;> rfl

theorem filter_asGroup (stack : List DataItem) (level : Int) :
    (stack.map DataItem.asGroup).filter (fun group => !(group.level ≥ level)) =
      (stack.filter fun g => g.level < level).map DataItem.asGroup := by
  rw [List.filter_map]
  congr 1
  refine List.filter_congr fun g _ => ?_
  rw [Bool.eq_iff_iff]
  simp only [Function.comp_apply, DataItem.asGroup, Bool.not_eq_true', decide_eq_true_eq]
  exact decide_eq_false_iff_not.trans Int.not_le

/-- The groups that are active at an item are those of the items that are open. -/
theorem layoutsFrom_at (stack before : List DataItem) (item : DataItem) (after : List DataItem) :
    (layoutsFrom (stack.map DataItem.asGroup) (before ++ item :: after))[before.length]? =
      some (layoutOf (((before.foldl (push DataItem.level DataItem.opens) stack).filter
        fun g => g.level < item.level).map DataItem.asGroup) item) := by
  induction before generalizing stack with
  | nil =>
      rw [List.nil_append, layoutsFrom, filter_asGroup]
      rfl
  | cons a before ih =>
      rw [List.cons_append, layoutsFrom, filter_asGroup, toList_groupOf, ← List.map_append,
        List.length_cons, List.getElem?_cons_succ]
      exact ih (push DataItem.level DataItem.opens stack a)

theorem fieldLayouts_at (before : List DataItem) (item : DataItem) (after : List DataItem) :
    (fieldLayouts (before ++ item :: after))[before.length]? =
      some (layoutOf ((enclosers DataItem.level DataItem.opens item before).map
        DataItem.asGroup) item) := by
  have h := layoutsFrom_at [] before item after
  rw [filter_foldl_push] at h
  exact h

/-- What an item without an `OCCURS` of its own inherits. -/
theorem layoutOf_parent {item : DataItem} (h : item.occurs = none) (active : List OccursGroup) :
    (layoutOf active item).occurs = active.getLast?.map OccursGroup.occurs ∧
      (layoutOf active item).occursParent = active.getLast?.map OccursGroup.name ∧
      (layoutOf active item).occursParentLevel = active.getLast?.map OccursGroup.level := by
  simp [layoutOf, h]

theorem occurs_asGroup {group : DataItem} (h : group.opens = true) :
    some group.asGroup.occurs = group.occurs := by
  have hsome := (Bool.and_eq_true_iff.mp h).1
  obtain ⟨occurs, hoccurs⟩ := Option.isSome_iff_exists.mp hsome
  rw [DataItem.asGroup, hoccurs]
  rfl

/-- The groups that enclose an item of another level than 77 are the open items. -/
theorem unenclosed_iff {before : List DataItem} {item : DataItem} (h : item.level ≠ 77) :
    Unenclosed before item ↔ enclosers DataItem.level DataItem.opens item before = [] := by
  rw [enclosers_eq_nil]
  constructor
  · exact fun hun pre group between hbefore hopens hlevels =>
      hun pre group between hbefore ⟨hopens, h, hlevels⟩
  · exact fun hnone pre group between hbefore henc =>
      hnone pre group between hbefore henc.1 henc.2.2

theorem innermost_iff {before : List DataItem} {group item : DataItem} (h : item.level ≠ 77) :
    Innermost before group item ↔
      (enclosers DataItem.level DataItem.opens item before).getLast? = some group := by
  rw [getLast?_enclosers]
  constructor
  · rintro ⟨pre, between, hbefore, ⟨hopens, _, hlevels⟩, hinner⟩
    exact ⟨pre, between, hbefore, hopens, hlevels, (unenclosed_iff h).mp hinner⟩
  · rintro ⟨pre, between, hbefore, hopens, hlevels, hnone⟩
    exact ⟨pre, between, hbefore, ⟨hopens, h, hlevels⟩, (unenclosed_iff h).mpr hnone⟩

theorem opens_of_innermost {before : List DataItem} {group item : DataItem}
    (h : Innermost before group item) : group.opens = true := by
  obtain ⟨_, _, _, henc, _⟩ := h
  exact henc.1

/-- An item of another level than 77 inherits as it should. -/
theorem inherits_of_ne {before : List DataItem} {item : DataItem} (hown : item.occurs = none)
    (hlevel : item.level ≠ 77) : Inherits before item
      (layoutOf ((enclosers DataItem.level DataItem.opens item before).map DataItem.asGroup)
        item) := by
  obtain ⟨hoccurs, hparent, hparentLevel⟩ := layoutOf_parent hown
    ((enclosers DataItem.level DataItem.opens item before).map DataItem.asGroup)
  constructor
  · intro group hgroup
    rw [hoccurs, hparent, hparentLevel, List.getLast?_map, (innermost_iff hlevel).mp hgroup]
    exact ⟨occurs_asGroup (opens_of_innermost hgroup), rfl, rfl⟩
  · intro hnone
    rw [hoccurs, hparent, hparentLevel, (unenclosed_iff hlevel).mp hnone]
    exact ⟨rfl, rfl, rfl⟩

/-- An item of level 77 inherits as it should if and only if no item is open. -/
theorem inherits_standalone_iff {before : List DataItem} {item : DataItem}
    (hown : item.occurs = none) (hlevel : item.level = 77) : Inherits before item
      (layoutOf ((enclosers DataItem.level DataItem.opens item before).map DataItem.asGroup)
        item) ↔ enclosers DataItem.level DataItem.opens item before = [] := by
  obtain ⟨hoccurs, hparent, hparentLevel⟩ := layoutOf_parent hown
    ((enclosers DataItem.level DataItem.opens item before).map DataItem.asGroup)
  have hun : Unenclosed before item := fun _ _ _ _ henc => henc.2.1 hlevel
  constructor
  · intro h
    have hnone := (h.2 hun).2.1
    rw [hparent, List.getLast?_map, Option.map_eq_none_iff, Option.map_eq_none_iff] at hnone
    exact List.getLast?_eq_none_iff.mp hnone
  · intro hnone
    refine ⟨fun group hgroup => ?_, fun _ => ?_⟩
    · obtain ⟨_, _, _, henc, _⟩ := hgroup
      exact absurd hlevel henc.2.1
    · rw [hoccurs, hparent, hparentLevel, hnone]
      exact ⟨rfl, rfl, rfl⟩

end Stack

/-- Every item inherits as it should exactly where the items of level 77 stand
outside of the groups. -/
theorem inheritsAll_iff (items : List DataItem) :
    InheritsAll items ↔ StandaloneOutside items := by
  constructor
  · rintro h before item after rfl hown hlevel
    obtain ⟨layout, hlayout, hinherits⟩ := h before item after rfl hown
    rw [fieldLayouts_at] at hlayout
    cases hlayout
    exact (enclosers_eq_nil _ _).mp ((inherits_standalone_iff hown hlevel).mp hinherits)
  · rintro h before item after rfl hown
    refine ⟨_, fieldLayouts_at before item after, ?_⟩
    by_cases hlevel : item.level = 77
    · have hnone := (enclosers_eq_nil _ _).mpr (h before item after rfl hown hlevel)
      exact (inherits_standalone_iff hown hlevel).mpr hnone
    · exact inherits_of_ne hown hlevel

def tableItems : List DataItem :=
  [{ id := "d-table".toList, name := "TABLE".toList, level := 1, occurs := some 5 },
    { id := "d-count".toList, name := "COUNT".toList, level := 77,
      picture := some "9(4)".toList }]

/-- A standalone item behind a table becomes a part of the table. -/
theorem standalone_item_inherits_table :
    (fieldLayouts tableItems)[1]?.map (fun l => (l.occurs, l.occursParent)) =
      some (some 5, some "TABLE".toList) ∧ ¬ InheritsAll tableItems := by
  refine ⟨by decide, fun h => ?_⟩
  have houtside := (inheritsAll_iff tableItems).mp h
  refine houtside [tableItems[0]] tableItems[1] [] rfl rfl rfl [] tableItems[0] [] rfl rfl ?_
  decide

end C2c.SemanticIr.FieldLayouts
