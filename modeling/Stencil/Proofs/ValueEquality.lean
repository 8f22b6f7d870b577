import Mathlib.Data.List.Perm.Subperm
import Stencil.Macro.Builtin

/-!
# Equality of values

Without floating-point numbers, equality of values is sameness of their structure: scalars of
one kind with one content, arrays item by item, and objects name by name, in whatever order
their names were put in.  Objects are compared by walking over one of them and looking the
names up in the other one, which is only as long; that this is symmetric and transitive rests
on every name being there once.
-/

namespace Stencil

/-- Of two objects with as many names each, one has all names of the other one, if the other one
has all of its names. -/
theorem Named.names_subset_of_length_le {α : Type} {lefts rights : Named α}
    (within : lefts.names ⊆ rights.names) (length : rights.names.length ≤ lefts.names.length) :
    rights.names ⊆ lefts.names :=
  ((lefts.once.subperm within).perm_of_length_le length).symm.subset

namespace Value

/-- The values that stand directly inside a value. -/
def parts : Value → List Value
  | .array items => items
  | .object fields => fields.entries.map Prod.snd
  | _ => []

theorem mem_parts_object {fields : Fields} {name : String} {value : Value}
    (found : fields.get? name = some value) : value ∈ (object fields).parts :=
  List.mem_map_of_mem (Named.mem_entries_iff.mpr found)

mutual

/-- What holds of a value if it holds of all that stands directly inside it holds of every
value. -/
theorem induction_parts {motive : Value → Prop}
    (step : ∀ value : Value, (∀ part ∈ value.parts, motive part) → motive value) :
    ∀ value, motive value
  | .array items => step (.array items) (induction_items step items)
  | .object fields => step (.object fields) (induction_fields step fields)
  | .null | .boolean _ | .integer _ | .float _ | .string _ | .verbatim _ | .date _ =>
      step _ nofun

theorem induction_items {motive : Value → Prop}
    (step : ∀ value : Value, (∀ part ∈ value.parts, motive part) → motive value) :
    ∀ items : List Value, ∀ item ∈ items, motive item
  | [] => nofun
  | item :: items =>
      List.forall_mem_cons.mpr ⟨induction_parts step item, induction_items step items⟩

theorem induction_fields {motive : Value → Prop}
    (step : ∀ value : Value, (∀ part ∈ value.parts, motive part) → motive value) :
    ∀ fields : Named Value, ∀ part ∈ (object fields).parts, motive part
  | ⟨names, once, value⟩ => by
      intro part isPart
      obtain ⟨field, isField, rfl⟩ := List.mem_map.mp isPart
      obtain ⟨name, -, rfl⟩ := List.mem_map.mp isField
      exact induction_parts step (value name)

end

mutual

/-- Whether there is no floating-point number at any depth. -/
def isFloatFree : Value → Bool
  | .float _ => false
  | .array items => areFloatFree items
  | .object fields => fieldsAreFloatFree fields
  | _ => true

def areFloatFree : List Value → Bool
  | [] => true
  | item :: items => item.isFloatFree && areFloatFree items

def fieldsAreFloatFree : Named Value → Bool
  | ⟨names, _, value⟩ => names.attach.all fun name => (value name).isFloatFree

end

theorem isFloatFree_parts {value : Value} (free : value.isFloatFree) :
    ∀ part ∈ value.parts, part.isFloatFree := by
  cases value with
  | array items =>
      rw [isFloatFree] at free
      induction items with
      | nil => nofun
      | cons item items ih =>
          obtain ⟨first, others⟩ := (Bool.and_eq_true _ _).mp free
          exact List.forall_mem_cons.mpr ⟨first, ih others⟩
  | object fields =>
      rw [isFloatFree, fieldsAreFloatFree, List.all_eq_true] at free
      intro part isPart
      obtain ⟨field, isField, rfl⟩ := List.mem_map.mp isPart
      obtain ⟨name, isName, rfl⟩ := List.mem_map.mp isField
      exact free name isName
  | _ => nofun

end Value

/-- A value without floating-point numbers. -/
structure ExactValue where
  value : Value
  floatFree : value.isFloatFree

namespace Value

/-- Two values have the same structure. -/
inductive SameAs : Value → Value → Prop
  | null : SameAs .null .null
  | boolean (value : Bool) : SameAs (.boolean value) (.boolean value)
  | integer (number : Int64) : SameAs (.integer number) (.integer number)
  | string (content : String) : SameAs (.string content) (.string content)
  | verbatim (content : String) : SameAs (.verbatim content) (.verbatim content)
  | date (moment : Moment) : SameAs (.date moment) (.date moment)
  | array {lefts rights : List Value} :
      List.Forall₂ SameAs lefts rights → SameAs (.array lefts) (.array rights)
  | object {lefts rights : Fields} :
      (∀ name, (lefts.get? name).isSome ↔ (rights.get? name).isSome) →
        (∀ name left right, lefts.get? name = some left → rights.get? name = some right →
          SameAs left right) →
          SameAs (.object lefts) (.object rights)

namespace SameAs

theorem array_iff {lefts rights : List Value} :
    (Value.array lefts).SameAs (.array rights) ↔ List.Forall₂ SameAs lefts rights := by
  refine ⟨fun same => ?_, .array⟩
  cases same with
  | array items => exact items

theorem object_iff {lefts rights : Fields} :
    (Value.object lefts).SameAs (.object rights) ↔
      (∀ name, (lefts.get? name).isSome ↔ (rights.get? name).isSome) ∧
        ∀ name left right, lefts.get? name = some left → rights.get? name = some right →
          left.SameAs right := by
  refine ⟨fun same => ?_, fun ⟨names, values⟩ => .object names values⟩
  cases same with
  | object names values => exact ⟨names, values⟩

end SameAs

/-- What follows for the items of two lists follows item by item. -/
theorem forall₂_of_mem {related implied : Value → Value → Prop} {lefts rights : List Value}
    (follows : ∀ left ∈ lefts, ∀ right ∈ rights, related left right → implied left right)
    (all : List.Forall₂ related lefts rights) : List.Forall₂ implied lefts rights := by
  obtain ⟨length, pairs⟩ := List.forall₂_iff_zip.mp all
  refine List.forall₂_iff_zip.mpr ⟨length, fun member => ?_⟩
  obtain ⟨isLeft, isRight⟩ := List.of_mem_zip member
  exact follows _ isLeft _ isRight (pairs member)

theorem forall₂_trans_of_mem {related : Value → Value → Prop} {lefts middles rights : List Value}
    (trans : ∀ left ∈ lefts, ∀ middle right, related left middle → related middle right →
      related left right)
    (first : List.Forall₂ related lefts middles) (second : List.Forall₂ related middles rights) :
    List.Forall₂ related lefts rights := by
  induction first generalizing rights with
  | nil => exact second
  | cons same _ ih =>
      cases second with
      | cons further others =>
          exact .cons (trans _ List.mem_cons_self _ _ same further)
            (ih (fun left later => trans left (List.mem_cons_of_mem _ later)) others)

theorem equalItems_iff {lefts rights : List Value} :
    equalItems lefts rights ↔ List.Forall₂ (fun left right => left.equals right) lefts rights := by
  induction lefts generalizing rights with
  | nil => cases rights <;> simp [equalItems]
  | cons left lefts ih => cases rights <;> simp [equalItems, ih]

/-- Whether every field of an object is found in others, with an equal value. -/
theorem equalFields_iff {fields others : Fields} :
    equalFields fields others ↔ ∀ name value, fields.get? name = some value →
      ∃ other, others.get? name = some other ∧ value.equals other := by
  rw [equalFields, List.all_eq_true]
  constructor
  · intro all name value found
    obtain ⟨known, rfl⟩ := Named.get?_eq_some_iff.mp found
    have equal := all ⟨name, known⟩ (List.mem_attach _ _)
    split at equal
    · exact ⟨_, ‹_›, equal⟩
    · cases equal
  · intro all name _
    obtain ⟨other, found, equal⟩ :=
      all name.val _ (Named.get?_eq_some_iff.mpr ⟨name.property, rfl⟩)
    rw [found]
    exact equal

theorem equals_array_iff {lefts rights : List Value} (items : ∀ left ∈ lefts, ∀ right ∈ rights,
      (left.equals right ↔ left.SameAs right)) :
    (array lefts).equals (.array rights) ↔ (array lefts).SameAs (.array rights) := by
  rw [equals, equalItems_iff, SameAs.array_iff]
  exact ⟨forall₂_of_mem fun left isLeft right isRight => (items left isLeft right isRight).mp,
    forall₂_of_mem fun left isLeft right isRight => (items left isLeft right isRight).mpr⟩

/-- Walking over one object suffices: where it has no more names than the other one, and each
of them is there too, none is left. -/
theorem equals_object_iff {lefts rights : Fields}
    (values : ∀ left ∈ (object lefts).parts, ∀ right ∈ (object rights).parts,
      (left.equals right ↔ left.SameAs right)) :
    (object lefts).equals (.object rights) ↔ (object lefts).SameAs (.object rights) := by
  have alike {name : String} {left right : Value} (isLeft : lefts.get? name = some left)
      (isRight : rights.get? name = some right) : left.equals right ↔ left.SameAs right :=
    values left (mem_parts_object isLeft) right (mem_parts_object isRight)
  rw [equals, Bool.and_eq_true, beq_iff_eq, equalFields_iff, SameAs.object_iff]
  simp only [Named.isSome_get?_iff]
  constructor
  · rintro ⟨length, found⟩
    have within : lefts.names ⊆ rights.names := by
      intro name member
      obtain ⟨value, isValue⟩ := Option.isSome_iff_exists.mp (Named.isSome_get?_iff.mpr member)
      obtain ⟨other, isOther, -⟩ := found name value isValue
      exact Named.isSome_get?_iff.mp (Option.isSome_of_eq_some isOther)
    have covers := Named.names_subset_of_length_le within (Nat.le_of_eq length.symm)
    refine ⟨fun name => ⟨@within name, @covers name⟩, fun name left right isLeft isRight => ?_⟩
    obtain ⟨other, isOther, equal⟩ := found name left isLeft
    obtain rfl := Option.some.inj (isOther.symm.trans isRight)
    exact (alike isLeft isRight).mp equal
  · rintro ⟨names, same⟩
    refine ⟨((List.perm_ext_iff_of_nodup lefts.once rights.once).mpr names).length_eq,
      fun name left isLeft => ?_⟩
    obtain ⟨right, isRight⟩ := Option.isSome_iff_exists.mp (Named.isSome_get?_iff.mpr
      ((names name).mp (Named.isSome_get?_iff.mp (Option.isSome_of_eq_some isLeft))))
    exact ⟨right, isRight, (alike isLeft isRight).mpr (same name left right isLeft isRight)⟩

/-- Scalars of one kind are compared by their contents. -/
theorem equal_contents_iff {α : Type} [BEq α] [LawfulBEq α] {scalar : α → Value}
    (same : ∀ content, (scalar content).SameAs (scalar content))
    (content_eq : ∀ {content other}, (scalar content).SameAs (scalar other) → content = other)
    {content other : α} : content == other ↔ (scalar content).SameAs (scalar other) := by
  rw [beq_iff_eq]
  refine ⟨?_, content_eq⟩
  rintro rfl
  exact same content

/-- Without floating-point numbers, values are equal if they have the same structure. -/
theorem equals_iff_sameAs {left right : Value} (leftFree : left.isFloatFree)
    (rightFree : right.isFloatFree) : left.equals right ↔ left.SameAs right := by
  induction left using induction_parts generalizing right with
  | step left ih =>
      have alike : ∀ part ∈ left.parts, ∀ other ∈ right.parts,
          (part.equals other ↔ part.SameAs other) :=
        fun part isPart other isOther => ih part isPart (isFloatFree_parts leftFree part isPart)
          (isFloatFree_parts rightFree other isOther)
      cases left with
      | float => cases leftFree
      | null =>
          cases right with
          | null => exact iff_of_true rfl .null
          | _ => exact ⟨nofun, nofun⟩
      | boolean =>
          cases right with
          | boolean => exact equal_contents_iff .boolean (by rintro _ _ ⟨⟩; rfl)
          | _ => exact ⟨nofun, nofun⟩
      | integer =>
          cases right with
          | integer => exact equal_contents_iff .integer (by rintro _ _ ⟨⟩; rfl)
          | float => cases rightFree
          | _ => exact ⟨nofun, nofun⟩
      | string =>
          cases right with
          | string => exact equal_contents_iff .string (by rintro _ _ ⟨⟩; rfl)
          | _ => exact ⟨nofun, nofun⟩
      | verbatim =>
          cases right with
          | verbatim => exact equal_contents_iff .verbatim (by rintro _ _ ⟨⟩; rfl)
          | _ => exact ⟨nofun, nofun⟩
      | date =>
          cases right with
          | date => exact equal_contents_iff .date (by rintro _ _ ⟨⟩; rfl)
          | _ => exact ⟨nofun, nofun⟩
      | array =>
          cases right with
          | array => exact equals_array_iff alike
          | _ => exact ⟨nofun, nofun⟩
      | object =>
          cases right with
          | object => exact equals_object_iff alike
          | _ => exact ⟨nofun, nofun⟩

namespace SameAs

theorem refl {value : Value} (free : value.isFloatFree) : value.SameAs value := by
  induction value using induction_parts with
  | step value ih =>
      have same : ∀ part ∈ value.parts, part.SameAs part :=
        fun part isPart => ih part isPart (isFloatFree_parts free part isPart)
      cases value with
      | float => cases free
      | null => exact .null
      | boolean value => exact .boolean value
      | integer number => exact .integer number
      | string content => exact .string content
      | verbatim content => exact .verbatim content
      | date moment => exact .date moment
      | array items => exact .array (List.forall₂_same.mpr same)
      | object fields =>
          refine .object (fun _ => Iff.rfl) fun name left right isLeft isRight => ?_
          obtain rfl := Option.some.inj (isLeft.symm.trans isRight)
          exact same left (mem_parts_object isLeft)

theorem symm {left right : Value} (same : left.SameAs right) : right.SameAs left := by
  induction left using induction_parts generalizing right with
  | step left ih =>
      cases same with
      | null => exact .null
      | boolean value => exact .boolean value
      | integer number => exact .integer number
      | string content => exact .string content
      | verbatim content => exact .verbatim content
      | date moment => exact .date moment
      | array items =>
          have reversed := forall₂_of_mem (fun left isLeft right _ => @ih left isLeft right) items
          exact .array reversed.flip
      | object names values =>
          refine .object (fun name => (names name).symm) fun name right left isRight isLeft => ?_
          exact ih left (mem_parts_object isLeft) (values name left right isLeft isRight)

theorem trans {left middle right : Value} (same : left.SameAs middle)
    (further : middle.SameAs right) : left.SameAs right := by
  induction left using induction_parts generalizing middle right with
  | step left ih =>
      cases same with
      | null | boolean | integer | string | verbatim | date => exact further
      | @array lefts middles items =>
          cases further with
          | @array _ rights others =>
              exact .array (forall₂_trans_of_mem (fun left isLeft _ _ => ih left isLeft)
                items others)
      | @object lefts middles names values =>
          cases further with
          | @object _ rights otherNames otherValues =>
              refine .object (fun name => (names name).trans (otherNames name)) ?_
              intro name left right isLeft isRight
              obtain ⟨between, isBetween⟩ := Option.isSome_iff_exists.mp
                ((names name).mp (Option.isSome_of_eq_some isLeft))
              exact ih left (mem_parts_object isLeft) (values name left between isLeft isBetween)
                (otherValues name between right isBetween isRight)

end SameAs

/-- The macro `equals` says whether two values are equal.  On values without floating-point
numbers this is an equivalence, and sameness of structure; a string is no verbatim text. -/
theorem equality_structural :
    (∀ left right : Value,
      Builtin.equals.toMacro.apply [left, right] = .ok (.boolean (left.equals right))) ∧
    Equivalence (fun left right : ExactValue => left.value.equals right.value) ∧
    (∀ left right : ExactValue, left.value.equals right.value ↔ left.value.SameAs right.value) ∧
    ∀ content : String, (string content).equals (.verbatim content) = false := by
  have iff (left right : ExactValue) :
      left.value.equals right.value ↔ left.value.SameAs right.value :=
    equals_iff_sameAs left.floatFree right.floatFree
  refine ⟨fun left right => rfl, ⟨fun exact => ?_, fun {left right} equal => ?_,
    fun {left middle right} equal further => ?_⟩, iff, fun content => rfl⟩
  · exact (iff exact exact).mpr (.refl exact.floatFree)
  · exact (iff right left).mpr ((iff left right).mp equal).symm
  · exact (iff left right).mpr (((iff left middle).mp equal).trans ((iff middle right).mp further))

/-- An object inside an object, and the names of both in another order. -/
theorem equality_structural_reordered :
    let array : Value := .array [.integer 1, .null]
    let inner : Fields := .ofPairs [("b", array), ("c", .string "x")]
    let turned : Fields := .ofPairs [("c", .string "x"), ("b", array)]
    let first : ExactValue :=
      ⟨.object (.ofPairs [("a", .object inner), ("d", .boolean true)]), by decide⟩
    let second : ExactValue :=
      ⟨.object (.ofPairs [("d", .boolean true), ("a", .object turned)]), by decide⟩
    first.value.SameAs second.value ∧ second.value.equals first.value := by
  intro array inner turned first second
  obtain ⟨-, equivalence, same, -⟩ := equality_structural
  have equal : first.value.equals second.value := by decide
  exact ⟨(same first second).mp equal, equivalence.symm equal⟩

end Value

end Stencil
