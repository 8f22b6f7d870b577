import Stencil.Environment
import Stencil.Proofs.Balanced
import Stencil.Proofs.NameOrder

/-!
# Environments as lists of definitions

Whatever sequence of frames is opened and closed, and whatever is defined meanwhile, an
environment shows what a plain list of definitions shows: for each frame that is still open the
definitions that were made in it, in order.  A name stands for its last definition in the
innermost frame that has one.  Frames that are closed again leave nothing behind.
-/

namespace Stencil

/-- What can be done to the frames of an environment. -/
inductive ScopeOperation where
  | push
  | pop
  | define (name : String) (value : Value)
  deriving Repr, Inhabited

/-- Frames are opened and closed like brackets. -/
def scopeBrackets : Brackets ScopeOperation where
  opens
    | .push => true
    | _ => false
  closes
    | .pop => true
    | _ => false
  apart
    | .push, _ => rfl

namespace Environment

/-- Carry out an operation.  Where no frame can be closed, nothing happens. -/
def perform (environment : Environment) : ScopeOperation → Environment
  | .push => environment.push
  | .pop => (environment.pop?.map Prod.snd).getD environment
  | .define name value => environment.define name value

def performAll (environment : Environment) (operations : List ScopeOperation) : Environment :=
  operations.foldl perform environment

variable (environment : Environment)

theorem performAll_cons (operation : ScopeOperation) (operations : List ScopeOperation) :
    environment.performAll (operation :: operations) =
      (environment.perform operation).performAll operations :=
  rfl

theorem performAll_append (first second : List ScopeOperation) :
    environment.performAll (first ++ second) =
      (environment.performAll first).performAll second :=
  List.foldl_append

/-- An operation that closes a frame does what closing one does in an evaluation. -/
theorem perform_pop : environment.perform .pop = environment.pop := by
  rcases environment with ⟨data, program, _ | ⟨frame, loops⟩⟩ <;> rfl

theorem pop?_eq_none_iff : environment.pop? = none ↔ environment.depth = 0 := by
  rcases environment with ⟨data, program, _ | ⟨frame, loops⟩⟩ <;> simp [pop?, depth]

/-- The frame of the program stays, whatever is closed. -/
theorem perform_pop_of_depth_zero (bottom : environment.depth = 0) :
    environment.perform .pop = environment := by
  simp [perform, environment.pop?_eq_none_iff.mpr bottom]

/-- Pushes that are not undone open frames on those that no later pop reaches. -/
theorem depth_performAll (operations : List ScopeOperation) :
    (environment.performAll operations).depth =
      scopeBrackets.unclosed operations +
        (environment.depth - scopeBrackets.excess operations) := by
  induction operations generalizing environment with
  | nil => simp [performAll, Brackets.unclosed, Brackets.excess]
  | cons operation operations ih =>
      rw [performAll_cons, ih]
      cases operation with
      | push =>
          rw [Brackets.unclosed_opener rfl, Brackets.excess_opener rfl]
          simp only [perform, depth_push]
          split <;> omega
      | pop =>
          have less : environment.pop.depth = environment.depth - 1 := List.length_tail
          rw [Brackets.unclosed_of_not_opener rfl, Brackets.excess_closer rfl, perform_pop, less]
          omega
      | define name value =>
          rw [Brackets.unclosed_of_not_opener rfl, Brackets.excess_plain rfl rfl]
          simp only [perform, depth_define]

/-- Operations that close `depth` frames more than they open do so, and leave one more frame in
place. -/
theorem performAll_of_settles {depth : Nat} {operations : List ScopeOperation}
    (settles : scopeBrackets.Settles depth operations) (above : List Fields) (frame : Fields)
    (height : above.length = depth) :
    ∃ changed, { environment with loops := above ++ frame :: environment.loops }.performAll
      operations = { environment with loops := changed :: environment.loops } := by
  induction operations generalizing depth above frame with
  | nil =>
      rw [Brackets.settles_nil.mp settles, List.length_eq_zero_iff] at height
      exact ⟨frame, by rw [height]; rfl⟩
  | cons operation operations ih =>
      rw [performAll_cons]
      cases operation with
      | push =>
          exact ih ((Brackets.settles_opener rfl).mp settles) (∅ :: above) frame
            (congrArg Nat.succ height)
      | pop =>
          rcases above with _ | ⟨innermost, above⟩
          · subst height
            exact absurd settles (Brackets.not_balanced_closer rfl)
          · subst height
            exact ih ((Brackets.settles_closer rfl).mp settles) above frame rfl
      | define name value =>
          have further := (Brackets.settles_plain rfl rfl).mp settles
          rcases above with _ | ⟨innermost, above⟩
          · exact ih further [] (frame.put name value) height
          · exact ih further (innermost.put name value :: above) frame height

/-- A frame that is opened and closed again leaves the environment as it was. -/
theorem performAll_bracketed {inside : List ScopeOperation}
    (balanced : scopeBrackets.Balanced inside) :
    environment.performAll (.push :: inside ++ [.pop]) = environment := by
  obtain ⟨changed, performed⟩ := environment.performAll_of_settles balanced [] ∅ rfl
  rw [performAll_append, performAll_cons]
  change (({ environment with loops := [] ++ ∅ :: environment.loops } :
    Environment).performAll inside).perform .pop = environment
  rw [performed]
  rfl

end Environment

/-- The value that was last defined for a name. -/
def lastDefined (name : String) (definitions : List (String × Value)) : Option Value :=
  (definitions.filter fun definition => definition.1 = name).getLast?.map Prod.snd

/-- What an operation does to the definitions made in each frame, innermost first. -/
def trackScope : List (List (String × Value)) → ScopeOperation → List (List (String × Value))
  | frames, .push => [] :: frames
  | _ :: outer :: frames, .pop => outer :: frames
  | frames, .pop => frames
  | frame :: frames, .define name value => (frame ++ [(name, value)]) :: frames
  | [], .define _ _ => []

/-- The definitions made in each frame that is open after some operations, innermost first.  The
last of the frames is that of the program. -/
def liveDefinitions (operations : List ScopeOperation) : List (List (String × Value)) :=
  operations.foldl trackScope [[]]

theorem lastDefined_concat (name : String) (definitions : List (String × Value))
    (own : String) (value : Value) :
    lastDefined name (definitions ++ [(own, value)]) =
      if name = own then some value else lastDefined name definitions := by
  by_cases same : own = name
  · simp [lastDefined, same]
  · simp [lastDefined, same, Ne.symm same]

/-- In a frame, a name stands for what was last defined. -/
theorem Named.get?_ofPairs (definitions : List (String × Value)) (name : String) :
    (Named.ofPairs definitions).get? name = lastDefined name definitions := by
  induction definitions using List.reverseRecOn with
  | nil => rfl
  | append_singleton definitions definition ih =>
      rw [Named.ofPairs_concat, Named.get?_put, lastDefined_concat, ih]

namespace Environment

variable {environment : Environment}

theorem perform_data (operation : ScopeOperation) :
    (environment.perform operation).data = environment.data := by
  rcases environment with ⟨data, program, _ | ⟨frame, loops⟩⟩ <;> cases operation <;> rfl

theorem performAll_data (operations : List ScopeOperation) :
    (environment.performAll operations).data = environment.data := by
  induction operations generalizing environment with
  | nil => rfl
  | cons operation operations ih => rw [performAll_cons, ih, perform_data]

/-- Every operation does to the frames what it does to the lists of definitions. -/
theorem frames_perform {definitions : List (List (String × Value))}
    (same : environment.frames = definitions.map Named.ofPairs) (operation : ScopeOperation) :
    (environment.perform operation).frames =
      (trackScope definitions operation).map Named.ofPairs := by
  rcases definitions with _ | ⟨innermost, definitions⟩
  · exact absurd (congrArg List.length same) (by simp [frames])
  rcases environment with ⟨data, program, _ | ⟨frame, loops⟩⟩
  · obtain ⟨isProgram, isLast⟩ := List.cons.inj same
    obtain rfl : definitions = [] := List.map_eq_nil_iff.mp isLast.symm
    cases operation with
    | push => exact congrArg (List.cons ∅) same
    | pop => exact same
    | define name value =>
        simp only [perform, define, frames, trackScope, List.map_cons, Named.ofPairs_concat]
        exact congrArg (fun frame => [Named.put frame name value]) isProgram
  · obtain ⟨isFrame, areOuter⟩ := List.cons.inj same
    cases operation with
    | push => exact congrArg (List.cons ∅) same
    | pop =>
        rcases definitions with _ | ⟨outer, definitions⟩
        · exact absurd (congrArg List.length areOuter) (by simp)
        · exact areOuter
    | define name value =>
        simp only [perform, define, frames, trackScope, List.map_cons, Named.ofPairs_concat,
          List.cons_append]
        exact congr (congrArg (fun frame => List.cons (Named.put frame name value)) isFrame)
          areOuter

theorem frames_performAll (data : Fields) (operations : List ScopeOperation) :
    (({ data } : Environment).performAll operations).frames =
      (liveDefinitions operations).map Named.ofPairs := by
  suffices tracked : ∀ (environment : Environment) (definitions : List (List (String × Value))),
      environment.frames = definitions.map Named.ofPairs →
        (environment.performAll operations).frames =
          (operations.foldl trackScope definitions).map Named.ofPairs from
    tracked { data } [[]] rfl
  induction operations with
  | nil => exact fun _ _ same => same
  | cons operation operations ih =>
      intro environment definitions same
      exact ih _ _ (frames_perform same operation)

/-- The visible names are those that have a value. -/
theorem mem_visibleNames_iff (name : String) :
    name ∈ environment.visibleNames ↔ (environment.get? name).isSome := by
  rw [visibleNames, mem_sortedNames, List.mem_append, List.mem_flatMap, get?, Option.isSome_or,
    Bool.or_eq_true, Named.isSome_get?_iff, List.isSome_findSome?, List.any_eq_true]
  simp only [Named.isSome_get?_iff]

end Environment

/-- After any operations on a new environment, its depth is the number of pushes that are not
undone; a pop that meets only the frame of the program gives nothing and changes nothing; a name
stands for its last definition in the innermost live frame that defines it, or else for its value
in the data; the visible names are strictly increasing and are those that have a value; and a
frame that is opened and closed again changes neither. -/
theorem scopeStack_refines (data : Fields) (operations : List ScopeOperation) :
    let environment := ({ data } : Environment).performAll operations
    environment.depth = scopeBrackets.unclosed operations ∧
      (environment.depth = 0 →
        environment.pop? = none ∧ environment.perform .pop = environment) ∧
      (∀ name, environment.get? name =
        ((liveDefinitions operations).findSome? (lastDefined name)).or (data.get? name)) ∧
      (environment.visibleNames.Pairwise fun first second =>
        nameBytes first < nameBytes second) ∧
      (∀ name, name ∈ environment.visibleNames ↔ (environment.get? name).isSome) ∧
      ∀ inside, scopeBrackets.Balanced inside →
        let later := environment.performAll (.push :: inside ++ [.pop])
        (∀ name, later.get? name = environment.get? name) ∧
          later.visibleNames = environment.visibleNames := by
  intro environment
  have depth : environment.depth = scopeBrackets.unclosed operations := by
    have counted := ({ data } : Environment).depth_performAll operations
    rwa [show ({ data } : Environment).depth = 0 from rfl, Nat.zero_sub] at counted
  have values : ∀ name, environment.get? name =
      ((liveDefinitions operations).findSome? (lastDefined name)).or (data.get? name) := by
    intro name
    rw [Environment.get?, Environment.frames_performAll, Environment.performAll_data,
      List.findSome?_map]
    exact congrArg (fun found : List (String × Value) → Option Value =>
      ((liveDefinitions operations).findSome? found).or (data.get? name))
      (funext fun definitions => Named.get?_ofPairs definitions name)
  refine ⟨depth, fun bottom => ?_, values, sortedNames_increasing _,
    fun name => environment.mem_visibleNames_iff name, fun inside balanced => ?_⟩
  · exact ⟨environment.pop?_eq_none_iff.mpr bottom, environment.perform_pop_of_depth_zero bottom⟩
  · dsimp only
    rw [environment.performAll_bracketed balanced]
    exact ⟨fun _ => rfl, rfl⟩

/-- A pop too many leaves the frame of the program, and what shadows its name in a frame above is
gone with that frame. -/
theorem scopeStack_refines_excessPop :
    let environment := ({ data := .ofPairs [("x", .integer 1)] } : Environment).performAll
      [.define "x" (.integer 2), .push, .define "x" (.integer 3), .pop, .pop]
    let inside : List ScopeOperation := [.define "x" (.integer 4), .push, .pop]
    environment.depth = 0 ∧ environment.pop? = none ∧ scopeBrackets.Balanced inside ∧
      (environment.performAll (.push :: inside ++ [.pop])).get? "x" =
        some (.integer 2) := by
  intro environment inside
  obtain ⟨depth, bottom, values, -, -, bracketed⟩ := scopeStack_refines
    (.ofPairs [("x", .integer 1)])
    [.define "x" (.integer 2), .push, .define "x" (.integer 3), .pop, .pop]
  have balanced : scopeBrackets.Balanced inside :=
    (Brackets.settles_plain rfl rfl).mpr <| (Brackets.settles_opener rfl).mpr <|
      (Brackets.settles_closer rfl).mpr <| Brackets.settles_nil.mpr rfl
  refine ⟨rfl, (bottom rfl).1, balanced, ?_⟩
  rw [(bracketed inside balanced).1 "x", values "x"]
  rfl

end Stencil
