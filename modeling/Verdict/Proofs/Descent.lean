import Verdict.Proofs.Extension

/-!
Paths go down a value segment by segment. A path that is continued first comes to the value of its
front, and from there its tail is looked up as a path of its own, unless that value counts as an
empty context. Names of members, joined by points, lead to the member they name.
-/
namespace Verdict.Resolver

/-- Names of members, one inside the other, lead from a value to another one. -/
inductive Leads : Json → List Text → Json → Prop where
  | here (value : Json) : Leads value [] value
  | member {members : List (Text × Json)} {name : Text} {names : List Text} {next last : Json}
      (found : Table.find? name members = some next) (behind : Leads next names last) :
      Leads (.object members) (name :: names) last

variable {chain : Resolver} {context : Context} {p q path : Text} {v w : Json} {e : Error}

theorem follow_concat (chain : Resolver) (value : Json) (front behind : List Text) :
    chain.follow value (front ++ behind) =
      (chain.follow value front).bind fun middle => chain.follow middle behind := by
  induction front generalizing value with
  | nil => rfl
  | cons segment rest ih =>
    rw [List.cons_append, follow, follow]
    cases chain.step value segment with
    | none => rfl
    | some next => exact ih next

theorem follow_joined (chain : Resolver) (value : Json) (p q : Text) :
    chain.follow value ((p ++ '.' :: q).splitOn '.') =
      (chain.follow value (p.splitOn '.')).bind fun middle =>
        chain.follow middle (q.splitOn '.') := by
  rw [List.splitOn_append_cons_self, follow_concat]

theorem resolve_front (found : chain.resolve (some context) (p ++ '.' :: q) = .ok w) :
    ∃ v, chain.resolve (some context) p = .ok v := by
  obtain ⟨present, followed⟩ := resolve_ok_iff.mp found
  rw [follow_joined] at followed
  obtain ⟨v, front, -⟩ := Option.bind_eq_some_iff.mp followed
  exact ⟨v, resolve_ok_iff.mpr ⟨present, front⟩⟩

theorem resolve_behind (front : chain.resolve (some context) p = .ok v)
    (present : Context.isEmpty ⟨v⟩ = false) :
    chain.resolve (some context) (p ++ '.' :: q) = .ok w ↔ chain.resolve (some ⟨v⟩) q = .ok w := by
  obtain ⟨nonempty, followed⟩ := resolve_ok_iff.mp front
  rw [resolve_ok_iff, resolve_ok_iff, follow_joined, followed, Option.bind_some]
  exact and_congr_left fun _ => iff_of_true nonempty present

theorem resolve_error_names (present : context.isEmpty = false)
    (failed : chain.resolve (some context) path = .error e) : e = .missing (.noValue path) := by
  rw [resolve, present] at failed
  simp only [Bool.false_eq_true, ↓reduceIte] at failed
  split at failed <;> cases failed
  rfl

theorem message_names (path : Text) : path <:+: (Error.missing (.noValue path)).message :=
  (List.infix_append _ path _).trans (List.suffix_append _ _).isInfix

theorem follow_of_leads {names : List Text} (leads : Leads v names w) :
    standard.follow v names = some w := by
  induction leads with
  | here value => rfl
  | member found behind ih => rw [follow, step_object, found, Option.bind_some, ih]

theorem resolve_of_leads {names : List Text} (leads : Leads context.data names w)
    (nonempty : names ≠ []) (plain : ∀ name ∈ names, '.' ∉ name) :
    standard.resolve (some context) (Text.joined ['.'] names) = .ok w := by
  refine resolve_ok_iff.mpr ⟨?_, ?_⟩
  · obtain ⟨data⟩ := context
    cases leads with
    | here => exact absurd rfl nonempty
    | @member members name names next last found behind =>
      cases members with
      | nil => cases found
      | cons entry rest => rfl
  · rw [Text.joined, List.splitOn_intercalate '.' plain nonempty, follow_of_leads leads]

/-- A longer path has a value only where its front has one, and if that value is not empty, the
    longer path has the value that its tail has there. Every failure names the whole path. In a
    standard chain the names of members, joined by points, have the value that they lead to. -/
theorem paths_compose (chain : Resolver) (context : Context) (present : context.isEmpty = false) :
    (∀ p q w, chain.resolve (some context) (p ++ '.' :: q) = .ok w →
      ∃ v, chain.resolve (some context) p = .ok v) ∧
    (∀ p q v, chain.resolve (some context) p = .ok v → Context.isEmpty ⟨v⟩ = false → ∀ w,
      (chain.resolve (some context) (p ++ '.' :: q) = .ok w ↔
        chain.resolve (some ⟨v⟩) q = .ok w)) ∧
    (∀ path e, chain.resolve (some context) path = .error e →
      e = .missing (.noValue path) ∧ path <:+: e.message) ∧
    ∀ names w, Leads context.data names w → names ≠ [] → (∀ name ∈ names, '.' ∉ name) →
      standard.resolve (some context) (Text.joined ['.'] names) = .ok w := by
  refine ⟨fun _ _ _ => resolve_front, fun _ _ _ front present _ => resolve_behind front present,
    fun path e failed => ?_, fun _ _ => resolve_of_leads⟩
  obtain rfl := resolve_error_names present failed
  exact ⟨rfl, message_names path⟩

def ordered : Context :=
  ⟨.object [("order".toList,
    .object [("length".toList, .number (.int 7)), ("tags".toList, .array [])])]⟩

theorem length_below_member :
    ordered.isEmpty = false ∧
      standard.resolve (some ordered) "order.tags.length".toList = .ok (.number (.int 0)) ∧
      standard.resolve (some ordered) "order.length".toList = .ok (.number (.int 7)) ∧
      standard.resolve (some ⟨.array []⟩) "length".toList =
        .error (.missing (.noContext "length".toList)) := by
  have present : ordered.isEmpty = false := rfl
  obtain ⟨-, behind, -, members⟩ := paths_compose standard ordered present
  refine ⟨present, ?_, ?_, rfl⟩
  · have front : standard.resolve (some ordered) "order".toList = .ok (.object
        [("length".toList, .number (.int 7)), ("tags".toList, .array [])]) := by rfl
    exact (behind _ "tags.length".toList _ front rfl _).mpr (by rfl)
  · exact members ["order".toList, "length".toList] _ (.member rfl (.member rfl (.here _)))
      (by decide) (by decide)

end Verdict.Resolver
