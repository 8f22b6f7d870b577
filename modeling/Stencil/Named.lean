/-!
# Things by name

What some names stand for, with the names in the order in which they were first put
in.  No name is there twice: putting something in under a name that is taken replaces
what was there.
-/

namespace Stencil

/-- Things by name. -/
structure Named (α : Type) where
  /-- The names, in the order in which they were first put in. -/
  names : List String
  once : names.Nodup
  content : { name // name ∈ names } → α

namespace Named

variable {α : Type}

instance : EmptyCollection (Named α) :=
  ⟨⟨[], List.nodup_nil, fun name => absurd name.property List.not_mem_nil⟩⟩

instance : Inhabited (Named α) := ⟨∅⟩

/-- Each name with what it stands for, in order. -/
def entries (named : Named α) : List (String × α) :=
  named.names.attach.map fun name => (name.val, named.content name)

instance [Repr α] : Repr (Named α) := ⟨fun named => reprPrec named.entries⟩

def get? (named : Named α) (name : String) : Option α :=
  if known : name ∈ named.names then some (named.content ⟨name, known⟩) else none

theorem nodup_concat {names : List String} (once : names.Nodup) {name : String}
    (new : name ∉ names) : (names ++ [name]).Nodup := by
  refine List.nodup_append.mpr ⟨once, by simp, fun known isKnown last isLast same => ?_⟩
  rw [same, List.mem_singleton.mp isLast] at isKnown
  exact new isKnown

theorem mem_of_mem_concat {names : List String} {name other : String}
    (member : other ∈ names ++ [name]) (apart : other ≠ name) : other ∈ names :=
  (List.mem_append.mp member).resolve_right fun isLast => apart (List.mem_singleton.mp isLast)

/-- Put something in under a name: in place of what is there, or else at the end. -/
def put (named : Named α) (name : String) (item : α) : Named α :=
  if taken : name ∈ named.names then
    { named with
      content := fun other => if other.val = name then item else named.content other }
  else
    { names := named.names ++ [name]
      once := nodup_concat named.once taken
      content := fun other =>
        if same : other.val = name then item
        else named.content ⟨other, mem_of_mem_concat other.property same⟩ }

/-- What comes of putting in one thing after the other. -/
def ofPairs (pairs : List (String × α)) : Named α :=
  pairs.foldl (fun named pair => named.put pair.1 pair.2) ∅

theorem ofPairs_concat (pairs : List (String × α)) (name : String) (item : α) :
    ofPairs (pairs ++ [(name, item)]) = (ofPairs pairs).put name item := by
  simp [ofPairs]

@[simp] theorem get?_empty (name : String) : (∅ : Named α).get? name = none := rfl

/-- The name that was put in stands for the new thing, every other name for what it stood for. -/
theorem get?_put (named : Named α) (name : String) (item : α) (other : String) :
    (named.put name item).get? other = if other = name then some item else named.get? other := by
  unfold put
  split
  · by_cases same : other = name <;> simp_all [get?]
  · by_cases same : other = name <;> simp_all [get?]

theorem get?_eq_some_iff {named : Named α} {name : String} {item : α} :
    named.get? name = some item ↔ ∃ known, named.content ⟨name, known⟩ = item := by
  unfold get?
  split <;> simp_all

theorem isSome_get?_iff {named : Named α} {name : String} :
    (named.get? name).isSome ↔ name ∈ named.names := by
  unfold get?
  split <;> simp_all

theorem mem_entries_iff {named : Named α} {name : String} {item : α} :
    (name, item) ∈ named.entries ↔ named.get? name = some item := by
  rw [entries, get?_eq_some_iff, List.mem_map]
  constructor
  · rintro ⟨⟨known, isKnown⟩, -, pair⟩
    obtain ⟨rfl, rfl⟩ := Prod.mk.inj pair
    exact ⟨isKnown, rfl⟩
  · rintro ⟨known, rfl⟩
    exact ⟨⟨name, known⟩, List.mem_attach _ _, rfl⟩

/-- The order of the names does not matter. -/
theorem get?_perm {first second : Named α} (permuted : first.entries.Perm second.entries)
    (name : String) : second.get? name = first.get? name := by
  refine Option.ext fun item => ?_
  rw [← mem_entries_iff, ← mem_entries_iff, permuted.mem_iff]

end Named

end Stencil
