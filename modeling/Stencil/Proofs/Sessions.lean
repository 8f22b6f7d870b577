import Mathlib.Data.List.Find
import Mathlib.Data.List.Nodup
import Mathlib.Data.List.Sort
import Stencil.Proofs.Dependence
import Stencil.Proofs.NameOrder
import Stencil.Session

/-!
# Sessions keep nothing but registrations

What an engine replies does not depend on the requests before, apart from the macros
that they register, and of these only the last one of each name counts.  A batch
replies to each of its records as a request of its own would.
-/

namespace Stencil

namespace Registry

/-- A name leads to the last macro that is registered under it, or else to the one
that was there before. -/
theorem lookup_registerAll (registry : Registry) (added : List Macro) (name : String) :
    (registry.registerAll added).lookup name =
      (added.reverse.find? fun entry => entry.name == name).or (registry.lookup name) := by
  unfold registerAll
  induction added generalizing registry with
  | nil => rfl
  | cons first others ih =>
      rw [List.foldl_cons, ih, lookup_register, List.reverse_cons, List.find?_append]
      by_cases same : first.name = name <;>
        cases others.reverse.find? fun entry => entry.name == name <;> simp [same]

theorem mem_names {registry : Registry} {name : String} :
    name ∈ registry.names ↔ (registry.lookup name).isSome := by
  rw [names, mem_sortedNames]
  simp [lookup]

/-- Registries that lead to the same macros have the same names. -/
theorem names_eq_of_lookup {first second : Registry}
    (same : ∀ name, second.lookup name = first.lookup name) :
    second.names = first.names := by
  have members (name : String) : name ∈ second.names ↔ name ∈ first.names := by
    rw [mem_names, mem_names, same name]
  have strict (registry : Registry) : registry.names.SortedLT :=
    (sortedNames_pairwise_lt _).sortedLT
  exact (strict second).eq_of_mem_iff (strict first) members

/-- There are as many names as macros. -/
theorem length_names (registry : Registry) : registry.names.length = registry.size := by
  have distinct : registry.names.Nodup := (sortedNames_pairwise_lt _).imp ne_of_lt
  have permuted : registry.names.Perm (registry.macros.map Macro.name) :=
    (List.perm_ext_iff_of_nodup distinct registry.once).mpr fun _ => mem_sortedNames
  exact permuted.length_eq.trans (List.length_map Macro.name)

end Registry

/-- Of some macros, the last one of each name. -/
def lastOfEachName : List Macro → List Macro
  | [] => []
  | first :: others =>
      if ∃ other ∈ others, other.name = first.name then
        lastOfEachName others
      else
        first :: lastOfEachName others

theorem lastOfEachName_subset (macros : List Macro) : lastOfEachName macros ⊆ macros := by
  fun_induction lastOfEachName macros with
  | case1 => exact List.Subset.refl _
  | case2 first others _ ih => exact fun _ member => List.mem_cons_of_mem _ (ih member)
  | case3 first others _ ih => exact List.cons_subset_cons first ih

theorem lastOfEachName_distinct (macros : List Macro) :
    ((lastOfEachName macros).map Macro.name).Nodup := by
  fun_induction lastOfEachName macros with
  | case1 => exact List.nodup_nil
  | case2 first others _ ih => exact ih
  | case3 first others unique ih =>
      refine List.nodup_cons.mpr ⟨?_, ih⟩
      intro taken
      obtain ⟨other, member, same⟩ := List.mem_map.mp taken
      exact unique ⟨other, lastOfEachName_subset others member, same⟩

theorem find?_lastOfEachName (macros : List Macro) (name : String) :
    ((lastOfEachName macros).find? fun entry => entry.name == name) =
      macros.reverse.find? fun entry => entry.name == name := by
  fun_induction lastOfEachName macros with
  | case1 => rfl
  | case2 first others taken ih =>
      rw [List.reverse_cons, List.find?_append, ← ih]
      by_cases same : first.name = name
      · obtain ⟨other, member, otherSame⟩ := taken
        have found : ((lastOfEachName others).find? fun entry => entry.name == name).isSome := by
          rw [ih, List.find?_isSome]
          exact ⟨other, List.mem_reverse.mpr member, by simp [otherSame, same]⟩
        rw [Option.or_of_isSome found]
      · simp [same]
  | case3 first others unique ih =>
      rw [List.reverse_cons, List.find?_append, ← ih, List.find?_cons]
      by_cases same : first.name = name
      · have absent : ((lastOfEachName others).find? fun entry => entry.name == name) = none := by
          rw [ih, List.find?_eq_none]
          intro other member isSame
          exact unique ⟨other, List.mem_reverse.mp member, by simpa [same] using isSame⟩
        simp [absent, same]
      · simp [beq_eq_false_iff_ne.mpr same]

/-- The order of macros whose names are all different does not matter. -/
theorem find?_perm {first second : List Macro} (permuted : first.Perm second)
    (distinct : (first.map Macro.name).Nodup) (name : String) :
    (second.find? fun entry => entry.name == name) =
      first.find? fun entry => entry.name == name := by
  refine (List.find?_eq_find?_of_perm permuted ?_).symm
  rintro entry ⟨isEntry, named⟩ other ⟨isOther, otherNamed⟩
  exact List.inj_on_of_nodup_map distinct isEntry isOther
    ((beq_iff_eq.mp named).trans (beq_iff_eq.mp otherNamed).symm)

/-- Registering only the last macro of each name, in any order, leads to the same
macros. -/
theorem Registry.lookup_lastOfEachName (registry : Registry) {added chosen : List Macro}
    (permuted : chosen.Perm (lastOfEachName added)) (name : String) :
    (registry.registerAll chosen).lookup name = (registry.registerAll added).lookup name := by
  have distinct := lastOfEachName_distinct added
  have reversed : (lastOfEachName added).Perm chosen.reverse :=
    permuted.symm.trans chosen.reverse_perm.symm
  rw [lookup_registerAll, lookup_registerAll, find?_perm reversed distinct,
    find?_lastOfEachName]

/-- The names after some macros are registered. -/
theorem Registry.mem_names_registerAll {registry : Registry} {added : List Macro}
    {name : String} :
    name ∈ (registry.registerAll added).names ↔
      name ∈ registry.names ∨ name ∈ added.map Macro.name := by
  rw [mem_names, mem_names, lookup_registerAll, Option.isSome_or, Bool.or_eq_true,
    or_comm]
  simp

namespace Engine

def registerAll (engine : Engine) (added : List Macro) : Engine :=
  { engine with registry := engine.registry.registerAll added }

theorem resolve_of_lookup (engine : Engine) {registry : Registry}
    (same : ∀ name, registry.lookup name = engine.registry.lookup name)
    (template : String) (data : Fields) :
    ({ engine with registry }.resolve template data).answer =
      (engine.resolve template data).answer :=
  engine.resolve_eq_of_agreesOn (fun name _ => same name) fun _ _ => rfl

/-- A batch is answered by what each record alone resolves to, unless the template is
malformed. -/
theorem resolveBatch_eq (engine : Engine) (template : String) (records : List Fields) :
    (engine.resolveBatch template records).answer =
      (engine.check template).answer.map fun _ =>
        records.map fun data => (engine.resolve template data).answer := by
  by_cases clean : (engine.parse template).diagnostics = []
  · simp only [resolveBatch_of_clean clean, resolve_of_clean clean]
    simp [check, ParsedTemplate.program?, clean, Except.map]
  · rw [resolveBatch_of_malformed clean]
    simp [check, ParsedTemplate.program?, clean, Except.map]

/-- If checking gives an error, the template is malformed, and so it is for every
record. -/
theorem resolve_of_check_error {engine : Engine} {template : String}
    {error : TemplateError} (failed : (engine.check template).answer = .error error) :
    error.isMalformed = true ∧
      ∀ data, (engine.resolve template data).answer = .error error := by
  by_cases clean : (engine.parse template).diagnostics = []
  · simp [check, ParsedTemplate.program?, clean] at failed
  · simp only [check, ParsedTemplate.program?, clean, if_false, Except.error.injEq] at failed
    subst failed
    exact ⟨rfl, resolve_of_malformed clean⟩

/-- Engines with the same macros and settings give the same replies. -/
theorem reply_of_lookup (engine : Engine) {registry : Registry}
    (same : ∀ name, registry.lookup name = engine.registry.lookup name)
    (request : Request) :
    { engine with registry }.reply request = engine.reply request := by
  cases request with
  | register added =>
      have registered (name : String) : (registry.register added).lookup name =
          (engine.registry.register added).lookup name := by
        rw [Registry.lookup_register, Registry.lookup_register, same]
      exact congrArg (fun names : List String => Reply.registered names.length)
        (Registry.names_eq_of_lookup registered)
  | names => exact congrArg Reply.names (Registry.names_eq_of_lookup same)
  | settings => rfl
  | check template => rfl
  | resolve template data =>
      exact congrArg Reply.resolved (engine.resolve_of_lookup same template data)
  | batch template records =>
      refine congrArg Reply.batch ?_
      rw [resolveBatch_eq, resolveBatch_eq]
      simp only [engine.resolve_of_lookup same]
      rfl

end Engine

/-- A registration is answered with the number of macros that there are then. -/
theorem Engine.reply_register (engine : Engine) (added : Macro) :
    engine.reply (.register added) = .registered (engine.registry.register added).size :=
  congrArg Reply.registered (engine.registry.register added).length_names

/-- The macros that requests register, in the order of the requests. -/
def registrations : List Request → List Macro
  | [] => []
  | .register added :: requests => added :: registrations requests
  | _ :: requests => registrations requests

theorem registrations_register (added : List Macro) :
    registrations (added.map Request.register) = added := by
  induction added with
  | nil => rfl
  | cons first others ih => rw [List.map_cons, registrations, ih]

namespace Engine

theorem length_replies (engine : Engine) (requests : List Request) :
    (engine.replies requests).length = requests.length := by
  induction requests generalizing engine with
  | nil => rfl
  | cons request requests ih => rw [replies, List.length_cons, List.length_cons, ih]

/-- Later requests get the replies of the engine in which the macros of the earlier
ones are registered. -/
theorem replies_append (engine : Engine) (earlier later : List Request) :
    engine.replies (earlier ++ later) =
      engine.replies earlier ++
        (engine.registerAll (registrations earlier)).replies later := by
  induction earlier generalizing engine with
  | nil => rfl
  | cons request earlier ih =>
      rw [List.cons_append, replies, replies, ih, List.cons_append]
      cases request <;> rfl

/-- The reply to a request that a new engine gives after nothing but registrations. -/
def replyAfter (settings : Settings) (added : List Macro) (request : Request) :
    Option Reply :=
  ((create settings).replies (added.map Request.register ++ [request])).getLast?

theorem replyAfter_eq (settings : Settings) (added : List Macro) (request : Request) :
    replyAfter settings added request =
      some (((create settings).registerAll added).reply request) := by
  rw [replyAfter, replies_append, registrations_register, replies, replies,
    List.getLast?_concat]

theorem replies_getElem? (settings : Settings) (earlier later : List Request)
    (request : Request) :
    ((create settings).replies (earlier ++ request :: later))[earlier.length]? =
      replyAfter settings (registrations earlier) request := by
  rw [replies_append, replies, List.getElem?_append_right (length_replies _ _).le,
    length_replies, Nat.sub_self, List.getElem?_cons_zero, replyAfter_eq]

/-- Of the registrations before a request only the last one of each name counts, in
whatever order. -/
theorem replyAfter_lastOfEachName (settings : Settings) {added chosen : List Macro}
    (permuted : chosen.Perm (lastOfEachName added)) (request : Request) :
    replyAfter settings chosen request = replyAfter settings added request := by
  rw [replyAfter_eq, replyAfter_eq]
  exact congrArg some (((create settings).registerAll added).reply_of_lookup
    (Registry.builtins.lookup_lastOfEachName permuted) request)

/-- What a batch is answered after registrations: what each of its records alone is
answered, or else the error that the template is malformed. -/
theorem replyAfter_batch (settings : Settings) (added : List Macro) (template : String)
    (records : List Fields) :
    (∃ program results,
      replyAfter settings added (.batch template records) = some (.batch (.ok results)) ∧
        replyAfter settings added (.check template) = some (.checked (.ok program)) ∧
          List.Forall₂ (fun data result =>
            replyAfter settings added (.resolve template data) = some (.resolved result))
            records results) ∨
    (∃ error : TemplateError, error.isMalformed = true ∧
      replyAfter settings added (.batch template records) = some (.batch (.error error)) ∧
        replyAfter settings added (.check template) = some (.checked (.error error)) ∧
          ∀ data, replyAfter settings added (.resolve template data) =
            some (.resolved (.error error))) := by
  simp only [replyAfter_eq, reply, Option.some.injEq, Reply.batch.injEq,
    Reply.checked.injEq, Reply.resolved.injEq, resolveBatch_eq]
  cases checked : (((create settings).registerAll added).check template).answer with
  | ok program =>
      refine .inl ⟨program, _, rfl, rfl, ?_⟩
      rw [List.forall₂_map_right_iff]
      exact List.forall₂_same.mpr fun _ _ => rfl
  | error error =>
      obtain ⟨malformed, refused⟩ := resolve_of_check_error checked
      exact .inr ⟨error, malformed, rfl, rfl, refused⟩

theorem replyAfter_names (settings : Settings) (added : List Macro) :
    ∃ names, replyAfter settings added .names = some (.names names) ∧
      (names.Pairwise fun first second => nameBytes first < nameBytes second) ∧
        ∀ name, name ∈ names ↔ name ∈ (Registry.builtinMacros ++ added).map Macro.name := by
  refine ⟨_, replyAfter_eq settings added .names, sortedNames_increasing _, ?_⟩
  intro name
  rw [List.map_append, List.mem_append]
  refine Registry.mem_names_registerAll.trans (or_congr_left ?_)
  refine Registry.mem_names_registerAll.trans ?_
  rw [Registry.mem_names]
  simp [Registry.empty, Registry.lookup]

/-- A session keeps nothing but registrations.  Every request gets the reply that a new
engine with the same settings gives after only the registrations before the request,
and after only the last one of each name in any order.  A batch has one result for each
record, which is what the record alone resolves to, unless the template is malformed;
and the names are those of the built-in and the registered macros, each once and in
increasing order of their bytes. -/
theorem replies_keep_registrations_only (settings : Settings) (earlier later : List Request)
    (request : Request) :
    let added := registrations earlier
    ∃ reply,
      ((create settings).replies (earlier ++ request :: later))[earlier.length]? =
        some reply ∧
      replyAfter settings added request = some reply ∧
      (∀ chosen : List Macro, chosen.Perm (lastOfEachName added) →
        replyAfter settings chosen request = some reply) ∧
      (∀ template records, request = .batch template records →
        (∃ program results, reply = .batch (.ok results) ∧
          replyAfter settings added (.check template) = some (.checked (.ok program)) ∧
            List.Forall₂ (fun data result =>
              replyAfter settings added (.resolve template data) = some (.resolved result))
              records results) ∨
        (∃ error : TemplateError, error.isMalformed = true ∧
          reply = .batch (.error error) ∧
          replyAfter settings added (.check template) = some (.checked (.error error)) ∧
            ∀ data, replyAfter settings added (.resolve template data) =
              some (.resolved (.error error)))) ∧
      (request = .names → ∃ names, reply = .names names ∧
        (names.Pairwise fun first second => nameBytes first < nameBytes second) ∧
          ∀ name, name ∈ names ↔
            name ∈ (Registry.builtinMacros ++ added).map Macro.name) := by
  intro added
  obtain ⟨reply, replied⟩ : ∃ reply, replyAfter settings added request = some reply :=
    ⟨_, replyAfter_eq settings added request⟩
  refine ⟨reply, ?_, replied, ?_, ?_, ?_⟩
  · rw [replies_getElem?, replied]
  · intro chosen permuted
    rw [replyAfter_lastOfEachName settings permuted, replied]
  · rintro template records rfl
    have answers := replyAfter_batch settings added template records
    simpa only [replied, Option.some.injEq] using answers
  · rintro rfl
    have answers := replyAfter_names settings added
    simpa only [replied, Option.some.injEq] using answers

/-- A built-in macro is replaced twice, with a failing resolution in between. -/
theorem replies_keep_registrations_only_replaced :
    let shout : Macro := ⟨"upper", .exactly 1, fun _ => .ok (.verbatim "!")⟩
    let twice : Macro := ⟨"twice", .exactly 1, fun arguments => .ok (.array arguments)⟩
    let quiet : Macro := ⟨"upper", .exactly 1, fun _ => .ok (.verbatim "?")⟩
    let earlier : List Request :=
      [.register shout, .resolve "#let (x = 1)$y" ∅, .register twice, .register quiet]
    let records : List Fields := [.ofPairs [("x", .null)], ∅]
    let request : Request := .batch "@upper($x)" records
    let replies := (create {}).replies (earlier ++ [request, .names])
    [quiet, twice].Perm (lastOfEachName (registrations earlier)) ∧
      (∃ results, replies[4]? = some (.batch (.ok results)) ∧
        replyAfter {} [quiet, twice] request = some (.batch (.ok results)) ∧
          List.Forall₂ (fun data result =>
            replyAfter {} (registrations earlier) (.resolve "@upper($x)" data) =
              some (.resolved result)) records results) ∧
      ∃ names, replies[5]? = some (.names names) ∧
        (names.Pairwise fun first second => nameBytes first < nameBytes second) ∧
          "twice" ∈ names := by
  intro shout twice quiet earlier records request replies
  have permuted : [quiet, twice].Perm (lastOfEachName (registrations earlier)) :=
    List.Perm.swap twice quiet []
  have parses : (parseTemplate {} "@upper($x)").diagnostics = [] := by decide +kernel
  obtain ⟨reply, replied, -, last, batch, -⟩ :=
    replies_keep_registrations_only {} earlier [.names] request
  obtain ⟨answer, named, -, -, -, listed⟩ :=
    replies_keep_registrations_only {} (earlier ++ [request]) [] .names
  obtain ⟨names, rfl, increasing, known⟩ := listed rfl
  refine ⟨permuted, ?_, names, named, increasing, (known "twice").mpr (by decide)⟩
  rcases batch "@upper($x)" records rfl with
    ⟨program, results, rfl, -, alone⟩ | ⟨error, -, rfl, checked, -⟩
  · exact ⟨results, replied, last _ permuted, alone⟩
  · rw [replyAfter_eq, reply, Option.some.injEq, Reply.checked.injEq, check] at checked
    have clean : (((create {}).registerAll (registrations earlier)).parse
        "@upper($x)").diagnostics = [] := parses
    simp [ParsedTemplate.program?, clean] at checked

end Engine

end Stencil
