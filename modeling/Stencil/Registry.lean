import Stencil.LogEvent
import Stencil.Macro.Builtin
import Stencil.SortedNames

/-!
# Registries

A registry holds macros by name.  Registering a macro under a name that is
taken puts it in place of the macro that was there.
-/

namespace Stencil

/-- Macros by name. -/
structure Registry where
  macros : List Macro
  once : (macros.map Macro.name).Nodup

namespace Registry

def empty : Registry := ⟨[], List.nodup_nil⟩

instance : Inhabited Registry := ⟨empty⟩

def lookup (registry : Registry) (name : String) : Option Macro :=
  registry.macros.find? fun entry => entry.name == name

def contains (registry : Registry) (name : String) : Bool :=
  (registry.lookup name).isSome

/-- Put a macro in place of the one of its name, or else at the end. -/
def putMacro (added : Macro) : List Macro → List Macro
  | [] => [added]
  | first :: others =>
      if first.name = added.name then added :: others
      else first :: putMacro added others

theorem map_name_putMacro_subset (added : Macro) (macros : List Macro) :
    (putMacro added macros).map Macro.name ⊆ added.name :: macros.map Macro.name := by
  induction macros with
  | nil => simp [putMacro]
  | cons first others ih =>
      rw [putMacro]
      split
      · simp
      · rw [List.map_cons, List.map_cons]
        intro name member
        rcases List.mem_cons.mp member with rfl | later
        · simp
        · exact List.mem_cons.mpr ((List.mem_cons.mp (ih later)).imp_right
            (List.mem_cons_of_mem first.name))

theorem nodup_putMacro (added : Macro) {macros : List Macro}
    (once : (macros.map Macro.name).Nodup) :
    ((putMacro added macros).map Macro.name).Nodup := by
  induction macros with
  | nil => simp [putMacro]
  | cons first others ih =>
      obtain ⟨new, further⟩ := List.nodup_cons.mp once
      rw [putMacro]
      split
      · rename_i same
        rwa [List.map_cons, ← same]
      · rename_i other
        refine List.nodup_cons.mpr ⟨fun member => ?_, ih further⟩
        rcases List.mem_cons.mp (map_name_putMacro_subset added others member) with same | old
        · exact other same
        · exact new old

def register (registry : Registry) (added : Macro) : Registry :=
  ⟨putMacro added registry.macros, nodup_putMacro added registry.once⟩

def registrationEvent (registry : Registry) (added : Macro) : LogEvent :=
  if registry.contains added.name then .replaced added.name
  else .registered added.name

def registerAll (registry : Registry) (added : List Macro) : Registry :=
  added.foldl register registry

def registrationEvents (registry : Registry) : List Macro → List LogEvent
  | [] => []
  | added :: others =>
      registry.registrationEvent added ::
        registrationEvents (registry.register added) others

def builtinMacros : List Macro := Builtin.all.map Builtin.toMacro

def builtins : Registry := empty.registerAll builtinMacros

def size (registry : Registry) : Nat := registry.macros.length

/-- The names that are taken, in increasing order. -/
def names (registry : Registry) : List String :=
  sortedNames (registry.macros.map Macro.name)

/-- The names of a registry as one line for people. -/
def summary (registry : Registry) : String :=
  "MacroRegistry \x7b macros: " ++ exposeList registry.names ++ " \x7d"

theorem find?_putMacro (added : Macro) (macros : List Macro) (name : String) :
    ((putMacro added macros).find? fun entry => entry.name == name) =
      if added.name = name then some added
      else macros.find? fun entry => entry.name == name := by
  induction macros with
  | nil => by_cases same : added.name = name <;> simp [putMacro, same]
  | cons first others ih => grind [putMacro]

/-- A registered macro is found under its name, and every other name leads to the
same macro as before. -/
theorem lookup_register (registry : Registry) (added : Macro) (name : String) :
    (registry.register added).lookup name =
      if added.name = name then some added else registry.lookup name :=
  find?_putMacro added registry.macros name

end Registry

end Stencil
