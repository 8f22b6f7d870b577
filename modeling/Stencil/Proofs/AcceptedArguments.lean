import Stencil.Proofs.EvaluationPairs

/-!
# Macros get as many arguments as they take

Evaluations check the number of arguments before they apply a macro, so that what a macro does
with any other number of arguments is of no account.  The built-in macros find every argument
that they read.
-/

namespace Stencil

/-- Macros that differ at most on numbers of arguments that they do not take. -/
theorem Macro.seen_eq {found replacement : Macro} (sameArity : replacement.arity = found.arity)
    (sameValues : ∀ arguments, found.arity.accepts arguments.length →
      replacement.apply arguments = found.apply arguments) :
    replacement.seen = found.seen := by
  rw [seen, seen, sameArity]
  congr 1
  funext arguments
  split
  · rename_i accepted
    rw [sameValues arguments accepted]
  · rfl

namespace Registry

/-- In two registries evaluations see the same under every name. -/
def SeenAlike (first second : Registry) : Prop :=
  ∀ name, (second.lookup name).map Macro.seen = (first.lookup name).map Macro.seen

namespace SeenAlike

variable {first second : Registry}

theorem refl (registry : Registry) : registry.SeenAlike registry :=
  fun _ => rfl

theorem register (alike : first.SeenAlike second) {added other : Macro}
    (sameName : other.name = added.name) (sameSeen : other.seen = added.seen) :
    (first.register added).SeenAlike (second.register other) := by
  intro name
  rw [lookup_register, lookup_register, sameName]
  split
  · exact congrArg some sameSeen
  · exact alike name

theorem registerAll {α : Type} (alike : first.SeenAlike second) (made other : α → Macro)
    (sameName : ∀ kind, (other kind).name = (made kind).name)
    (sameSeen : ∀ kind, (other kind).seen = (made kind).seen) (kinds : List α) :
    (first.registerAll (kinds.map made)).SeenAlike (second.registerAll (kinds.map other)) := by
  induction kinds generalizing first second with
  | nil => exact alike
  | cons kind kinds ih => exact ih (alike.register (sameName kind) (sameSeen kind))

/-- Putting a macro in place of one that is seen alike changes nothing that is seen. -/
theorem replace {registry : Registry} {found replacement : Macro}
    (registered : registry.lookup replacement.name = some found)
    (sameSeen : replacement.seen = found.seen) :
    registry.SeenAlike (registry.register replacement) := by
  intro name
  rw [lookup_register]
  split
  · rename_i isName
    rw [← isName, registered]
    exact congrArg some sameSeen
  · rfl

end SeenAlike

end Registry

namespace Evaluator

variable (evaluator : Evaluator) {first second : Registry}

theorem seenAlike_pairs (alike : first.SeenAlike second) :
    NodePairs { evaluator with registry := first } { evaluator with registry := second } id
      (fun _ => True) fun _ left right => right = left where
  pure _ := rfl
  bind same further := by
    rw [same]
    exact congrArg _ (funext further)
  fail _ _ _ := rfl
  path _ := rfl
  lookup _ := alike _
  nested same _ := congrArg _ same
  tell _ := rfl
  define _ _ := rfl
  inFrame same := congrArg _ same

theorem evaluate_of_seenAlike (alike : first.SeenAlike second) (program : Program) :
    { evaluator with registry := second }.evaluate program =
      { evaluator with registry := first }.evaluate program := by
  have same := evaluate_related (seenAlike_pairs evaluator alike) program fun _ _ => trivial
  rwa [Program.mapSpans, mapBodySpans_id] at same

end Evaluator

namespace Builtin

/-- A built-in macro that does anything at all where it would read an argument that is not
there. -/
def withMissing (missing : Builtin → List Value → Except MacroError Value)
    (builtin : Builtin) : Macro :=
  { builtin.toMacro with
    apply := fun arguments => (builtin.value? arguments).getD (missing builtin arguments) }

theorem value?_of_accepts {builtin : Builtin} {arguments : List Value}
    (accepted : builtin.arity.accepts arguments.length) :
    builtin.value? arguments = some (builtin.toMacro.apply arguments) := by
  obtain ⟨value, isValue⟩ := Option.isSome_iff_exists.mp (isSome_value?_of_accepts accepted)
  simp only [toMacro, isValue, Option.getD_some]

theorem seen_withMissing (missing : Builtin → List Value → Except MacroError Value)
    (builtin : Builtin) : (builtin.withMissing missing).seen = builtin.toMacro.seen := by
  refine Macro.seen_eq rfl fun arguments accepted => ?_
  have accepted : builtin.arity.accepts arguments.length := accepted
  simp only [withMissing, value?_of_accepts accepted, Option.getD_some]

end Builtin

/-- The built-in macros with any behaviour where they would read a missing argument, and the
macros of a host. -/
def Registry.withMissing (missing : Builtin → List Value → Except MacroError Value)
    (hosts : List Macro) : Registry :=
  (empty.registerAll (Builtin.all.map (Builtin.withMissing missing))).registerAll hosts

/-- A macro never gets a number of arguments that it does not take: evaluations do not change
if it is replaced by one that differs only there.  The built-in macros have a value for every
number of arguments that they take, and no evaluation ever depends on what they would do where
an argument that they read is not there. -/
theorem macros_get_accepted_arguments :
    (∀ (evaluator : Evaluator) (found replacement : Macro),
      evaluator.registry.lookup replacement.name = some found →
        replacement.arity = found.arity →
          (∀ arguments, found.arity.accepts arguments.length →
            replacement.apply arguments = found.apply arguments) →
            ∀ program state,
              ({ evaluator with
                registry := evaluator.registry.register replacement }.evaluate program).outcome
                  state = (evaluator.evaluate program).outcome state) ∧
      (∀ (builtin : Builtin) (arguments : List Value),
        builtin.arity.accepts arguments.length →
          builtin.value? arguments = some (builtin.toMacro.apply arguments)) ∧
      ∀ (missing : Builtin → List Value → Except MacroError Value) (hosts : List Macro)
        (evaluator : Evaluator) (program : Program) (state : EvaluationState),
        ({ evaluator with registry := .withMissing missing hosts }.evaluate program).outcome
            state =
          ({ evaluator with registry := Registry.builtins.registerAll hosts }.evaluate
            program).outcome state := by
  refine ⟨?_, fun _ _ => Builtin.value?_of_accepts, ?_⟩
  · intro evaluator found replacement registered sameArity sameValues program state
    have alike := Registry.SeenAlike.replace registered (Macro.seen_eq sameArity sameValues)
    rw [evaluator.evaluate_of_seenAlike alike program]
  · intro missing hosts evaluator program state
    have builtins := (Registry.SeenAlike.refl .empty).registerAll Builtin.toMacro
      (Builtin.withMissing missing) (fun _ => rfl) (Builtin.seen_withMissing missing) Builtin.all
    have alike := builtins.registerAll id id (fun _ => rfl) (fun _ => rfl) hosts
    rw [List.map_id] at alike
    exact congrArg (fun evaluation => evaluation.outcome state)
      (evaluator.evaluate_of_seenAlike alike program)

/-- The built-in macro for integers, but with null for any other number of arguments than
one. -/
def forgivingInt : Macro :=
  { Builtin.int.toMacro with
    apply := fun arguments =>
      match arguments with
      | [argument] => Builtin.int.toMacro.apply [argument]
      | _ => .ok .null }

theorem macros_get_accepted_arguments_int :
    forgivingInt.apply [] ≠ Builtin.int.toMacro.apply [] ∧
      ∀ program state,
        (Evaluator.evaluate ⟨Registry.builtins.register forgivingInt, ⟨"<template>", ""⟩, 8⟩
          program).outcome state =
        (Evaluator.evaluate ⟨Registry.builtins, ⟨"<template>", ""⟩, 8⟩ program).outcome
          state := by
  refine ⟨by simp [forgivingInt, Builtin.toMacro, Builtin.value?], ?_⟩
  refine macros_get_accepted_arguments.1 ⟨Registry.builtins, ⟨"<template>", ""⟩, 8⟩
    Builtin.int.toMacro forgivingInt rfl rfl fun arguments accepted => ?_
  rcases arguments with _ | ⟨argument, _ | ⟨second, others⟩⟩
  · cases accepted
  · rfl
  · simp [Builtin.toMacro, Builtin.arity, Arity.exactly, Arity.accepts] at accepted

end Stencil
