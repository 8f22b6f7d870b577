import Stencil.CommandLine
import Stencil.Proofs.DepthLimit
import Stencil.Proofs.EvaluationRules
import Stencil.Proofs.FaithfulParse

/-!
# Resolving many records

The command that resolves a template against many records loses none of them and repeats
none.  Each record gives what it gives alone.  The outputs are printed in order, up to the
first record that fails, or, with the flag to keep going, without the records that fail,
each of which is told by a warning with its number.
-/

namespace Stencil

namespace Evaluation

variable {α β : Type}

/-- An evaluation adds no warning to the events told. -/
def WarnsOfNothing (evaluation : Evaluation α) : Prop :=
  ∀ state, ∀ event ∈ (evaluation.outcome state).2.log,
    event ∈ state.log ∨ event.isWarning = false

namespace WarnsOfNothing

theorem tell {event : LogEvent} (noWarning : event.isWarning = false) :
    (Evaluation.tell event).WarnsOfNothing := by
  intro state told member
  rcases Array.mem_push.mp member with earlier | rfl
  · exact .inl earlier
  · exact .inr noWarning

theorem bind {first : Evaluation α} {next : α → Evaluation β}
    (holds : first.WarnsOfNothing) (further : ∀ value, (next value).WarnsOfNothing) :
    (first >>= next).WarnsOfNothing := by
  intro state event member
  have earlier := holds state event
  rw [outcome_bind] at member
  rcases ended : first.outcome state with ⟨error | value, after⟩ <;>
    rw [ended] at member earlier
  · exact earlier member
  · rcases further value after event member with before | noWarning
    · exact earlier before
    · exact .inr noWarning

theorem nested {evaluation : Evaluation α} (holds : evaluation.WarnsOfNothing)
    (evaluator : Evaluator) (span : Span) :
    (evaluator.nested span evaluation).WarnsOfNothing := by
  intro state event member
  rw [Evaluator.outcome_nested] at member
  split at member
  · exact .inl member
  · exact holds { state with depth := state.depth + 1 } event member

end WarnsOfNothing

end Evaluation

theorem Evaluator.warnsOfNothing_rules (evaluator : Evaluator) :
    evaluator.NodeRules fun _ => Evaluation.WarnsOfNothing where
  pure _ _ _ member := .inl member
  get _ _ member := .inl member
  fail _ _ _ _ member := .inl member
  tell noWarning := .tell noWarning
  define _ _ _ _ member := .inl member
  bind holds further := .bind holds further
  inFrame holds state event member :=
    holds { state with environment := state.environment.push } event member
  nested holds span := holds.nested _ span

theorem Registry.registrationEvents_noWarning (registry : Registry) (added : List Macro) :
    ∀ event ∈ registry.registrationEvents added, event.isWarning = false := by
  induction added generalizing registry with
  | nil => exact nofun
  | cons first others ih =>
      refine List.forall_mem_cons.mpr ⟨?_, ih _⟩
      unfold registrationEvent
      split <;> rfl

namespace Engine

theorem evaluateRecord_noWarning (engine : Engine) (parsed : ParsedTemplate) (data : Fields) :
    ∀ event ∈ (engine.evaluateRecord parsed data).events, event.isWarning = false := by
  intro event member
  let evaluator := engine.evaluatorFor parsed
  have quiet := Evaluator.evaluate_respects evaluator.warnsOfNothing_rules parsed.program
  rcases quiet _ event (Array.mem_toList_iff.mp member) with before | noWarning
  · simp at before
  · exact noWarning

/-- Of a batch nothing is told as a warning. -/
theorem resolveBatch_noWarning (engine : Engine) (template : String) (records : List Fields) :
    ∀ event ∈ (engine.resolveBatch template records).events, event.isWarning = false := by
  have parsing : ((engine.parse template).event).isWarning = false := rfl
  unfold resolveBatch
  dsimp only
  split
  · exact List.forall_mem_cons.mpr ⟨parsing, nofun⟩
  · refine List.forall_mem_cons.mpr ⟨parsing, fun event member => ?_⟩
    obtain ⟨logged, isLogged, member⟩ := List.mem_flatMap.mp member
    obtain ⟨data, -, rfl⟩ := List.mem_map.mp isLogged
    exact engine.evaluateRecord_noWarning _ data event member

end Engine

namespace LogEvent

theorem filter_isWarning_eq_nil {events : List LogEvent}
    (noWarning : ∀ event ∈ events, event.isWarning = false) : events.filter isWarning = [] :=
  List.filter_eq_nil_iff.mpr fun event member => by simp [noWarning event member]

/-- At the lowest verbosity only warnings are shown. -/
theorem lines_warning (events : List LogEvent) :
    lines .warning events = String.join ((events.filter isWarning).map line) := by
  have sameLevel (event : LogEvent) :
      decide (event.level.rank ≤ LogLevel.warning.rank) = event.isWarning := by
    cases event <;> rfl
  simp only [lines, sameLevel]

end LogEvent

/-- The outputs of the records that resolve, in order. -/
def outputsOf (answers : List (Except TemplateError String)) : List String :=
  answers.filterMap Except.toOption

/-- The warning that tells of a record that fails, with its number. -/
def skipWarning? : Except TemplateError String × Nat → Option LogEvent
  | (.ok _, _) => none
  | (.error error, index) => some (.skipping index error.message)

/-- One warning for each record that fails, in order; the first record has a given number. -/
def skipWarnings (index : Nat) (answers : List (Except TemplateError String)) :
    List LogEvent :=
  (answers.zipIdx index).filterMap skipWarning?

section Printing

variable {answers : List (Except TemplateError String)}

@[simp]
theorem outputsOf_ok (text : String) :
    outputsOf (.ok text :: answers) = text :: outputsOf answers :=
  rfl

@[simp]
theorem outputsOf_error (error : TemplateError) :
    outputsOf (.error error :: answers) = outputsOf answers :=
  rfl

@[simp]
theorem skipWarnings_ok (index : Nat) (text : String) :
    skipWarnings index (.ok text :: answers) = skipWarnings (index + 1) answers :=
  rfl

@[simp]
theorem skipWarnings_error (index : Nat) (error : TemplateError) :
    skipWarnings index (.error error :: answers) =
      .skipping index error.message :: skipWarnings (index + 1) answers :=
  rfl

/-- With the flag to keep going, all that can be printed is, and failures are told. -/
theorem printRecords_keepGoing (index : Nat) :
    printRecords true index answers =
      { output := String.join (outputsOf answers), events := skipWarnings index answers } := by
  induction answers generalizing index with
  | nil => rfl
  | cons answer answers ih => cases answer <;> simp [printRecords, ih]

theorem skipWarnings_areWarnings (index : Nat) :
    ∀ event ∈ skipWarnings index answers, event.isWarning := by
  induction answers generalizing index with
  | nil => exact nofun
  | cons answer answers ih =>
      cases answer with
      | ok text => exact ih (index + 1)
      | error error => exact List.forall_mem_cons.mpr ⟨rfl, ih (index + 1)⟩

/-- If no record fails, all outputs are printed and nothing is told. -/
theorem printRecords_of_allResolve {keepGoing : Bool}
    (allResolve : ∀ answer ∈ answers, answer.isOk) (index : Nat) :
    printRecords keepGoing index answers = { output := String.join (outputsOf answers) } := by
  induction answers generalizing index with
  | nil => rfl
  | cons answer answers ih =>
      obtain ⟨resolves, othersResolve⟩ := List.forall_mem_cons.mp allResolve
      cases answer with
      | ok text => simp [printRecords, ih othersResolve]
      | error error => cases resolves

/-- Without the flag, printing stops at the first record that fails. -/
theorem printRecords_of_firstFails {position : Nat} {error : TemplateError}
    (fails : answers[position]? = some (.error error))
    (earlierResolve : ∀ answer ∈ answers.take position, answer.isOk) (index : Nat) :
    printRecords false index answers =
      { output := String.join (outputsOf (answers.take position))
        failure := some ("record " ++ toString (index + position) ++ ": " ++ error.advice) } := by
  induction answers generalizing index position with
  | nil => cases fails
  | cons answer answers ih =>
      cases position with
      | zero =>
          obtain rfl : answer = .error error := Option.some.inj fails
          rfl
      | succ position =>
          obtain ⟨resolves, othersResolve⟩ := List.forall_mem_cons.mp earlierResolve
          have rest := ih fails othersResolve (index + 1)
          rw [Nat.add_assoc, Nat.add_comm 1] at rest
          cases answer with
          | ok text => simp [printRecords, rest]
          | error error => cases resolves

end Printing

section Reading

variable {m : Type → Type} [Monad m]

/-- What a command finds as its settings: the usual ones, or those of a file. -/
def ReadsSettings (read : FileReader m) : Option String → Settings → Prop
  | none, settings => settings = {}
  | some path, settings =>
      ∃ text, read path = pure (.ok text) ∧ readSettings text = .ok settings

/-- What a command finds as its records: one without fields, or those of a file, which has
an array of objects, one for each record, or one object alone. -/
def ReadsRecords (read : FileReader m) : Option String → List Fields → Prop
  | none, records => records = [∅]
  | some path, records =>
      ∃ text, read path = pure (.ok text) ∧
        (Json.read? text = some (.array (records.map .object)) ∨
          ∃ record, Json.read? text = some (.object record) ∧ records = [record])

theorem recordsOfItems_objects (index : Nat) (records : List Fields) :
    recordsOfItems index (records.map .object) = .ok records := by
  induction records generalizing index with
  | nil => rfl
  | cons record records ih =>
      rw [List.map_cons, recordsOfItems, ih]
      rfl

variable [LawfulMonad m] {read : FileReader m}

theorem readFile_of_text {path text : String} (holds : read path = pure (.ok text))
    (complaint : FileError → String) : readFile read path complaint = pure text := by
  rw [readFile, holds, pure_bind]
  rfl

theorem loadSettings_of_reads {config : Option String} {settings : Settings}
    (reads : ReadsSettings read config settings) :
    loadSettings read config = pure settings := by
  cases config with
  | none =>
      obtain rfl := reads
      rfl
  | some path =>
      obtain ⟨text, holds, given⟩ := reads
      rw [loadSettings, readFile_of_text holds, pure_bind, given]

theorem loadRecords_of_reads {data : Option String} {records : List Fields}
    (reads : ReadsRecords read data records) : loadRecords read data = pure records := by
  cases data with
  | none =>
      obtain rfl := reads
      rfl
  | some path =>
      obtain ⟨text, holds, given⟩ := reads
      rw [loadRecords, readFile_of_text holds, pure_bind]
      rcases given with items | ⟨record, alone, rfl⟩
      · simp only [items, recordsOfValue, recordsOfItems_objects]
        rfl
      · simp only [alone]
        rfl

theorem loadTemplate_of_reads {path template : String}
    (holds : read path = pure (.ok template)) : loadTemplate read path = pure template :=
  readFile_of_text holds _

end Reading

/-- The warnings among the events of a transcript. -/
def Transcript.warnings (transcript : Transcript) : List LogEvent :=
  transcript.events.filter LogEvent.isWarning

theorem skippedEvents_noWarning (answers : List (Except TemplateError String)) :
    ∀ event ∈ skippedEvents answers, event.isWarning = false := by
  unfold skippedEvents
  dsimp only
  split
  · exact nofun
  · exact List.forall_mem_singleton.mpr rfl

/-- What the command prints, and why it fails, is decided by what each record gives alone,
and so are the warnings. -/
theorem resolveRecords_eq {settings : Settings} {template : String} {records : List Fields}
    {answers : List (Except TemplateError String)}
    (clean : (parseTemplate settings template).diagnostics = [])
    (alone : answers = records.map fun record =>
      ((Engine.create settings).resolve template record).answer)
    (path : String) (keepGoing : Bool) :
    let transcript := resolveRecords settings path template records keepGoing
    let printed := printRecords keepGoing 0 answers
    (∃ events, transcript = { printed with events }) ∧ transcript.warnings = printed.warnings := by
  intro transcript printed
  let engine := Engine.create settings
  let batch := engine.resolveBatch template records
  have answered : batch.answer = .ok answers := by
    rw [show batch.answer = _ from engine.resolveBatch_of_clean clean records, alone]
    exact congrArg Except.ok <| List.map_congr_left fun record _ =>
      (engine.resolve_of_clean clean record).symm
  let before := .resolving path records.length :: Engine.creationEvents ++ batch.events
  let closing := if keepGoing then skippedEvents answers else []
  have whole : transcript = { printed with events := before ++ printed.events ++ closing } := by
    simp only [transcript, resolveRecords]
    rw [show (engine.resolveBatch template records).answer = _ from answered]
  -- Neither what is told before printing nor what is told after it is a warning.
  have beforeQuiet : before.filter LogEvent.isWarning = [] := by
    apply LogEvent.filter_isWarning_eq_nil
    refine List.forall_mem_cons.mpr ⟨rfl, fun event member => ?_⟩
    rcases List.mem_append.mp member with created | resolved
    · exact Registry.empty.registrationEvents_noWarning Registry.builtinMacros event created
    · exact engine.resolveBatch_noWarning template records event resolved
  have closingQuiet : closing.filter LogEvent.isWarning = [] := by
    apply LogEvent.filter_isWarning_eq_nil
    intro event member
    simp only [closing] at member
    split at member
    · exact skippedEvents_noWarning _ event member
    · cases member
  refine ⟨⟨_, whole⟩, ?_⟩
  rw [whole]
  simp [Transcript.warnings, beforeQuiet, closingQuiet]

section Running

variable {m : Type → Type} [Monad m] [LawfulMonad m] {read : FileReader m}
  {path template : String} {data config : Option String} {keepGoing : Bool}
  {settings : Settings} {records : List Fields}

theorem run_resolve (keepGoing : Bool) (configured : ReadsSettings read config settings)
    (templateRead : read path = pure (.ok template))
    (recordsRead : ReadsRecords read data records) :
    (Command.resolve path data config keepGoing).run read =
      pure (resolveRecords settings path template records keepGoing) := by
  rw [Command.run, loadSettings_of_reads configured, pure_bind,
    loadTemplate_of_reads templateRead, pure_bind, loadRecords_of_reads recordsRead, pure_bind]
  simp [Transcript.ofExcept]

/-- Resolving many records loses none and repeats none.  With the flag to keep going, the
command succeeds and prints the outputs of the records that resolve, in order, and tells
one warning for each record that fails, with its number.  Without the flag it prints the
outputs before the first record that fails and names that record as the reason of its
failure; if no record fails, it succeeds and prints what it prints with the flag.  Unless
more is asked for, the warnings are all that is told. -/
theorem runCommandLine_resolves_records {words : List String} {verbosity : Nat}
    (understood :
      readCommandLine words = .run (.resolve path data config keepGoing) verbosity)
    (configured : ReadsSettings read config settings)
    (templateRead : read path = pure (.ok template))
    (recordsRead : ReadsRecords read data records)
    (clean : (parseTemplate settings template).diagnostics = []) :
    let answers := records.map fun record =>
      ((Engine.create settings).resolve template record).answer
    let finest := finestLevel verbosity
    ∃ transcript : Transcript,
      (Command.resolve path data config keepGoing).run read = pure transcript ∧
      runCommandLine read words = pure (transcript.outcome finest) ∧
      (keepGoing →
        transcript.outcome finest =
          ⟨0, String.join (outputsOf answers), LogEvent.lines finest transcript.events⟩ ∧
        transcript.warnings = skipWarnings 0 answers) ∧
      (keepGoing = false → (∀ answer ∈ answers, answer.isOk) →
        transcript.outcome finest =
          ⟨0, String.join (outputsOf answers), LogEvent.lines finest transcript.events⟩ ∧
        transcript.warnings = []) ∧
      (keepGoing = false → ∀ position error, answers[position]? = some (.error error) →
        (∀ answer ∈ answers.take position, answer.isOk) →
          transcript.outcome finest =
            ⟨1, String.join (outputsOf (answers.take position)),
              LogEvent.lines finest transcript.events ++ "Error: " ++
                ("record " ++ toString position ++ ": " ++ error.advice) ++ "\n"⟩ ∧
          transcript.warnings = []) ∧
      (verbosity = 0 → LogEvent.lines finest transcript.events =
        String.join (transcript.warnings.map LogEvent.line)) := by
  intro answers finest
  let transcript := resolveRecords settings path template records keepGoing
  have runs := run_resolve keepGoing configured templateRead recordsRead
  obtain ⟨⟨events, prints⟩, warnings⟩ :=
    resolveRecords_eq clean (show answers = _ from rfl) path keepGoing
  refine ⟨transcript, runs, ?_, ?_, ?_, ?_, ?_⟩
  · rw [runCommandLine, understood]
    simp only [runs, pure_bind]
    rfl
  · rintro rfl
    rw [printRecords_keepGoing] at prints warnings
    refine ⟨?_, warnings.trans (List.filter_eq_self.mpr (skipWarnings_areWarnings 0))⟩
    rw [show transcript = _ from prints]
    simp [Transcript.outcome]
  · rintro rfl allResolve
    rw [printRecords_of_allResolve allResolve] at prints warnings
    refine ⟨?_, warnings⟩
    rw [show transcript = _ from prints]
    simp [Transcript.outcome]
  · rintro rfl position error fails earlierResolve
    rw [printRecords_of_firstFails fails earlierResolve, Nat.zero_add] at prints warnings
    refine ⟨?_, warnings⟩
    rw [show transcript = _ from prints]
    simp [Transcript.outcome]
  · rintro rfl
    exact LogEvent.lines_warning transcript.events

set_option maxRecDepth 2000 in
/-- Of four records the second and the fourth lack a field that the template wants. -/
theorem runCommandLine_resolves_records_lacking :
    let data := "[\x7b\"x\":\"a\"\x7d,\x7b\x7d,\x7b\"x\":null\x7d,\x7b\x7d]"
    let read : FileReader Id := Directory.read ⟨[("t", "$x;"), ("d", data)]⟩
    let words := ["resolve", "t", "-d", "d"]
    let reason := "undefined variable 'x' at 1:1"
    runCommandLine read (words ++ ["--keep-going"]) =
        ⟨0, "a;null;", "[WARN ] qtemplate - skipping record 1: " ++ reason ++
          "\n[WARN ] qtemplate - skipping record 3: " ++ reason ++ "\n"⟩ ∧
      runCommandLine read words =
        ⟨1, "a;", "Error: record 1: " ++ reason ++ "\n  help: provide 'x' in the data, " ++
          "or bind it with '#let' or '#for' before use\n"⟩ := by
  intro data read words reason
  let records : List Fields := [.ofPairs [("x", .string "a")], ∅, .ofPairs [("x", .null)], ∅]
  have configured : ReadsSettings read none {} := rfl
  have templateRead : read "t" = pure (.ok "$x;") := by
    change Directory.read _ "t" = Except.ok "$x;"
    decide +kernel
  have isArray : Json.read? "[\x7b\"x\":\"a\"\x7d,\x7b\x7d,\x7b\"x\":null\x7d,\x7b\x7d]" =
      some (.array [.object (.ofPairs [("x", .string "a")]), .object ∅,
        .object (.ofPairs [("x", .null)]), .object ∅]) := by
    with_unfolding_all rfl
  have recordsRead : ReadsRecords read (some "d") records := by
    refine ⟨data, ?_, .inl isArray⟩
    change Directory.read _ "d" = Except.ok data
    decide +kernel
  have clean : (parseTemplate {} "$x;").diagnostics = [] :=
    templateReports_eq_nil.mp (by decide +kernel)
  constructor
  · have understood : readCommandLine (words ++ ["--keep-going"]) =
        .run (.resolve "t" (some "d") none true) 0 := by decide +kernel
    obtain ⟨transcript, -, outcome, keeps, -, -, told⟩ :=
      runCommandLine_resolves_records understood configured templateRead recordsRead clean
    obtain ⟨prints, warnings⟩ := keeps rfl
    rw [outcome, prints, told rfl, warnings]
    refine congrArg pure (?_ : (_ : CommandOutcome) = _)
    decide +kernel
  · have understood : readCommandLine words =
        .run (.resolve "t" (some "d") none false) 0 := by decide +kernel
    obtain ⟨transcript, -, outcome, -, -, stops, told⟩ :=
      runCommandLine_resolves_records understood configured templateRead recordsRead clean
    obtain ⟨prints, warnings⟩ := stops rfl 1
      (.stopped ⟨.undefinedVariable "x", ⟨1, 1, 0⟩⟩) (by decide +kernel) (by decide +kernel)
    rw [outcome, prints, told rfl, warnings]
    refine congrArg pure (?_ : (_ : CommandOutcome) = _)
    decide +kernel

end Running

end Stencil
