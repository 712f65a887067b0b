import Verdict.Proofs.Evidence
import Verdict.Proofs.Canonical
import Verdict.Proofs.Directory

/-!
The life of a rule's compiled form. A rule has none until something compiles it; the one that it
gets is the compilation of its text at its limit, declares the paths that occur in the sequence,
and stays. Where compilation fails there is never one.
-/
namespace Verdict

/-- The form is the compilation of this text at this limit: it has the text, the sequence that the
    text is read as, and the set of the paths that occur there. -/
structure Compiled.CompiledFrom (limit : Nat) (query : Text) (form : Compiled) : Prop where
  ownQuery : form.query = query
  read : Query.parse limit query = .ok form.sequence
  declared : ∀ p, p ∈ form.paths ↔ ∃ node ∈ form.sequence, node.Mentions p
  ascending : form.paths.Pairwise fun p p' => Text.before p p'

namespace Compiled
variable {limit : Nat} {query : Text} {form : Compiled}

theorem compiledFrom_of_ofQuery (compiles : ofQuery limit query = .ok form) :
    form.CompiledFrom limit query := by
  obtain ⟨nodes, read, rfl⟩ := ofQuery_eq_ok_iff.mp compiles
  refine ⟨rfl, read, fun p => ?_, ?_⟩
  · rw [Sequence.mem_paths, Node.mem_allPaths_iff]
  · exact (Table.ascending_iff _).mp (Table.ascending_ofList _)

theorem CompiledFrom.ofQuery (own : form.CompiledFrom limit query) :
    Compiled.ofQuery limit query = .ok form := by
  refine ofQuery_eq_ok_iff.mpr ⟨form.sequence, own.read, ?_⟩
  have other := compiledFrom_of_ofQuery (ofQuery_eq_ok_iff.mpr ⟨_, own.read, rfl⟩)
  have paths : form.sequence.paths = form.paths :=
    other.ascending.eq_of_mem_iff own.ascending fun p =>
      (other.declared p).trans (own.declared p).symm
  rw [paths, ← own.ownQuery]

theorem ofQuery_eq_ok_iff_compiledFrom :
    Compiled.ofQuery limit query = .ok form ↔ form.CompiledFrom limit query :=
  ⟨compiledFrom_of_ofQuery, CompiledFrom.ofQuery⟩

end Compiled

namespace Rule
variable {limit : Nat} {config : Config} {query : Text} {chain : Resolver} {made rule : Rule}

theorem Stands.compiled_next (stands : Stands limit query chain rule) :
    rule.compile.next.compiled = (Compiled.ofQuery limit query).toOption := by
  rw [Rule.compile]
  split
  case isTrue all =>
    -- The text `*` cannot be read, so its rule never had a form to keep.
    have unread (form : Compiled) : Compiled.ofQuery limit query ≠ .ok form := by
      intro compiles
      obtain ⟨nodes, read, -⟩ := Compiled.ofQuery_eq_ok_iff.mp compiles
      exact Query.ne_matchAll read (stands.isMatchAll_iff.mp all)
    cases kept : rule.compiled with
    | some form => exact absurd (stands.kept form kept) (unread form)
    | none =>
      cases compiles : Compiled.ofQuery limit query with
      | error e => rfl
      | ok form => exact absurd compiles (unread form)
  case isFalse =>
    rw [stands.ownLimit, stands.ownQuery]
    cases kept : rule.compiled with
    | some form => simp [kept, stands.kept form kept, Except.toOption]
    | none =>
      cases Compiled.ofQuery limit query with
      | error e => simp [kept, Except.toOption]
      | ok form => simp [Except.toOption]

theorem compiled_create (created : (create config query).1 = .ok made) : made.compiled =
    if config.lazy then none else (Compiled.ofQuery config.maxNestingDepth query).toOption := by
  have stands := stands_fresh config query
  rw [create] at created
  by_cases deferred : config.lazy
  · rw [if_pos deferred]
    simp only [deferred, Bool.true_or, ↓reduceIte] at created
    cases created
    rfl
  · rw [if_neg deferred, ← stands.compiled_next]
    simp only [deferred, Bool.false_or] at created
    split at created
    case isTrue all =>
      cases created
      rw [compile, if_pos all]
    case isFalse =>
      cases answer : (fresh config query).compile.answer with
      | error e =>
        rw [answer] at created
        cases created
      | ok form =>
        rw [answer] at created
        cases created
        rfl

theorem compiled_after (created : (create config query).1 = .ok made) (chain : Resolver)
    (calls : List Call) : ((made.withResolver chain).after calls).compiled =
      if config.lazy ∧ calls = [] then none
      else (Compiled.ofQuery config.maxNestingDepth query).toOption := by
  have stands := stands_create created chain
  rcases List.eq_nil_or_concat calls with rfl | ⟨before, last, rfl⟩
  · simp only [and_true]
    show made.compiled = _
    exact compiled_create created
  · rw [if_neg (by simp), after, List.concat_eq_append, List.foldl_concat, perform_next]
    exact (stands.after before).compiled_next

theorem compiled_after_iff (created : (create config query).1 = .ok made) (chain : Resolver)
    (calls : List Call) {form : Compiled} :
    ((made.withResolver chain).after calls).compiled = some form ↔
      (config.lazy = false ∨ calls ≠ []) ∧ form.CompiledFrom config.maxNestingDepth query := by
  rw [compiled_after created chain, ← Compiled.ofQuery_eq_ok_iff_compiledFrom,
    ← Bool.not_eq_true, ← not_and_or]
  split
  case isTrue waits => simp [waits]
  case isFalse asked =>
    cases Compiled.ofQuery config.maxNestingDepth query <;> simp [asked, Except.toOption]

theorem perform_next_of_error {e : Error} (fails : rule.compile.answer = .error e) (call : Call) :
    (rule.perform call).next = rule := by
  rw [perform_next]
  revert fails
  rw [compile]
  split
  · rintro ⟨⟩
  · split
    · rintro ⟨⟩
    · split
      · rintro ⟨⟩
      · exact fun _ => rfl

/-- The life of the compiled form, at every point of every run of calls. The form that a rule keeps
    is the compilation of its text at its limit, and no later call drops or replaces it. A rule
    keeps one exactly if its text can be read, and is not `*`, and it was compiled when it was made
    or was asked for something since. Compilation that fails, in whatever call, leaves the rule as
    it is. -/
theorem compiled_lifecycle (created : (create config query).1 = .ok made) (chain : Resolver)
    (calls : List Call) :
    (∀ form, ((made.withResolver chain).after calls).compiled = some form →
      form.CompiledFrom config.maxNestingDepth query ∧
        ∀ more, ((made.withResolver chain).after (calls ++ more)).compiled = some form) ∧
    (((made.withResolver chain).after calls).compiled.isSome ↔
      query ≠ matchAll ∧ (∃ nodes, Query.parse config.maxNestingDepth query = .ok nodes) ∧
        (config.lazy = false ∨ calls ≠ [])) ∧
    ∀ e, ((made.withResolver chain).after calls).compile.answer = .error e → ∀ call,
      (((made.withResolver chain).after calls).perform call).next =
        (made.withResolver chain).after calls := by
  have kept (calls : List Call) (form : Compiled) :
      ((made.withResolver chain).after calls).compiled = some form ↔
        (config.lazy = false ∨ calls ≠ []) ∧ form.CompiledFrom config.maxNestingDepth query :=
    compiled_after_iff created chain calls
  refine ⟨fun form here => ?_, ?_, fun e => perform_next_of_error⟩
  · obtain ⟨asked, own⟩ := (kept calls form).mp here
    refine ⟨own, fun more => (kept (calls ++ more) form).mpr ⟨?_, own⟩⟩
    exact asked.imp_right fun some => List.append_ne_nil_of_left_ne_nil some more
  · rw [Option.isSome_iff_exists]
    constructor
    · rintro ⟨form, here⟩
      obtain ⟨asked, own⟩ := (kept calls form).mp here
      exact ⟨Query.ne_matchAll own.read, ⟨_, own.read⟩, asked⟩
    · rintro ⟨-, ⟨nodes, read⟩, asked⟩
      have compiles := Compiled.ofQuery_eq_ok_iff.mpr ⟨nodes, read, rfl⟩
      exact ⟨_, (kept calls _).mpr ⟨asked, Compiled.compiledFrom_of_ofQuery compiles⟩⟩

theorem deferred_rule_keeps_form :
    ∃ made, (create { Config.standard with lazy := true } aboveOne.query).1 = .ok made ∧
      ((made.withResolver .standard).after []).compiled = none ∧
      ∀ more, ((made.withResolver .standard).after (.test none :: more)).compiled =
        some aboveOne := by
  have created : (create { Config.standard with lazy := true } aboveOne.query).1 =
      .ok (fresh { Config.standard with lazy := true } aboveOne.query) := rfl
  refine ⟨_, created, rfl, ?_⟩
  exact ((compiled_lifecycle created .standard [.test none]).1 aboveOne (by cbv)).2

end Rule
end Verdict
