import Verdict.Config.Load
import Verdict.Proofs.Lookup
import Verdict.Proofs.SmallLetters
import Mathlib.Data.Set.Basic

/-!
What a gatherer's laws say of a whole load. One entry after the other and one source after the
other, the members hold for each setting what the highest layer gives that gives it anything; each
setting is then converted by itself.
-/
namespace Verdict.Config
open Table (names)

def fields : List Text := [lazyKey, depthKey, traceKey]

theorem fields_apart : lazyKey ≠ depthKey ∧ lazyKey ≠ traceKey ∧ depthKey ≠ traceKey := by decide

namespace Found
variable {Value : Type} {toBool? : Value → Option Bool} {toWord? : Value → Option Nat}

def filled {α : Type} (convert : Value → Option α) (place : Option α) :
    Option Value → Option (Option α)
  | none => some place
  | some value => if place.isNone then (convert value).map some else none

-- Each place is filled by itself, so the order of the members does not matter.
theorem addMembers_eq {members : List (Text × Value)} (once : (names members).Nodup)
    (found : Found) : found.addMembers? toBool? toWord? members = do
      return {
        lazy := ← filled toBool? found.lazy (Table.find? lazyKey members)
        maxNestingDepth := ← filled toWord? found.maxNestingDepth (Table.find? depthKey members)
        trace := ← filled toBool? found.trace (Table.find? traceKey members) } := by
  induction members generalizing found with
  | nil => rfl
  | cons entry rest ih =>
    obtain ⟨name, value⟩ := entry
    obtain ⟨fresh, later⟩ := List.nodup_cons.mp once
    have absent : Table.find? name rest = none := Table.find_eq_none fresh
    obtain ⟨lazyDepth, lazyTrace, depthTrace⟩ := fields_apart
    rw [addMembers?, addMember?]
    by_cases isLazy : name = lazyKey
    · subst isLazy
      cases found.lazy <;> cases converts : toBool? value <;>
        simp [ih later, Table.find?, filled, converts, absent, lazyDepth, lazyTrace]
    · by_cases isDepth : name = depthKey
      · subst isDepth
        cases found.maxNestingDepth <;> cases converts : toWord? value <;>
          simp [ih later, Table.find?, filled, converts, absent, isLazy, depthTrace]
      · by_cases isTrace : name = traceKey
        · subst isTrace
          cases found.trace <;> cases converts : toBool? value <;>
            simp [ih later, Table.find?, filled, converts, absent, isLazy, isDepth]
        · simp [ih later, Table.find?, isLazy, isDepth, isTrace]

end Found

/-- What a setting is given: one raw value, or parts of a list or a table. -/
inductive Given (Raw : Type) where
  | value (raw : Raw)
  | parts

def Given.convert? {Raw α : Type} (convert : Raw → Option α) : Given Raw → Option α
  | .value raw => convert raw
  | .parts => none

namespace Gatherer
variable {g : Gatherer} {field : Text} {given : Given g.Raw}

abbrev Layer (g : Gatherer) := Set (Text × g.Raw)

/-- A key is for the field of its name, and a path is for the field at its root. -/
inductive Sets (g : Gatherer) (field : Text) : Text × g.Raw → Given g.Raw → Prop where
  | whole {raw : g.Raw} (form : g.form raw = .plain) : Sets g field (field, raw) (.value raw)
  | compound {raw : g.Raw} (form : g.form raw = .parts) : Sets g field (field, raw) .parts
  | part {key : Text} {raw : g.Raw} (path : g.root? key = some field) :
      Sets g field (key, raw) .parts

def Gives (layer : g.Layer) (field : Text) (given : Given g.Raw) : Prop :=
  ∃ entry ∈ layer, Sets g field entry given

/-- What the highest of the layers gives that give anything. -/
inductive Wins (field : Text) : List g.Layer → Given g.Raw → Prop where
  | top {layer : g.Layer} {lower : List g.Layer} {given : Given g.Raw}
      (gives : Gives layer field given) : Wins field (layer :: lower) given
  | silent {layer : g.Layer} {lower : List g.Layer} {given : Given g.Raw}
      (nothing : ∀ other, ¬ Gives layer field other) (wins : Wins field lower given) :
      Wins field (layer :: lower) given

/-- No field has both a value of its own and, by paths, parts of a list or a table. -/
def Undivided (layer : g.Layer) : Prop :=
  ∀ field ∈ fields, ∀ key part raw, (key, part) ∈ layer → g.root? key = some field →
    (field, raw) ∈ layer → g.form raw ≠ .plain

def fileLayer (g : Gatherer) (file : Option Text) : g.Layer :=
  {entry | ∃ members, g.collect? (g.file false file) = some members ∧ entry ∈ members}

def variableLayer (g : Gatherer) (environment : List (Text × Text)) : g.Layer :=
  {entry | ∃ name text, (name, text) ∈ environment ∧
    g.small name = "boolrule_".toList ++ entry.1 ∧ g.guess text = entry.2}

/-- A file reads without errors, if there is one. -/
def Readable (g : Gatherer) (file : Option Text) : Prop :=
  ∀ t, file = some t → (g.collect? (g.file false (some t))).isSome

/-- All that is known of the settings, from the environment down to what is built in. -/
def layers (g : Gatherer) (file : Option Text) (environment : List (Text × Text)) :
    List g.Layer :=
  [g.variableLayer environment, g.fileLayer file, {entry | entry ∈ g.standardMembers}]

/-- What the members hold of a field. -/
def Holds (members : List (Text × g.Raw)) (field : Text) : Given g.Raw → Prop
  | .value raw => (field, raw) ∈ members
  | .parts => ∃ raw, g.form raw = .parts ∧ (field, raw) ∈ members

section
variable {members source : List (Text × g.Raw)} {entry : Text × g.Raw}

-- One step: an entry that sets the field decides what is held, any other leaves it.
theorem holds_of_sets (lawful : g.Lawful) (plain : g.root? field = none)
    (sets : Sets g field entry given) : Holds (g.set members entry.1 entry.2) field given := by
  cases sets with
  | whole form => exact lawful.set_plain plain form
  | compound form => exact lawful.set_parts plain form
  | part path => exact lawful.set_path path

theorem kept_of_silent (lawful : g.Lawful) {raw : g.Raw}
    (silent : ∀ other, ¬ Sets g field entry other) (held : (field, raw) ∈ members) :
    (field, raw) ∈ g.set members entry.1 entry.2 := by
  obtain ⟨key, new⟩ := entry
  cases path : g.root? key with
  | some root =>
    have apart : field ≠ root := by
      rintro rfl
      exact silent _ (.part path)
    exact lawful.set_other (by simpa [path] using apart) held
  | none =>
    by_cases same : field = key
    · subst same
      cases form : g.form new with
      | plain => exact absurd (.whole form) (silent _)
      | parts => exact absurd (.compound form) (silent _)
      | hollow => exact lawful.set_hollow path form held
    · exact lawful.set_other (by simpa [path] using same) held

theorem holds_of_silent (lawful : g.Lawful) (silent : ∀ other, ¬ Sets g field entry other)
    (held : Holds members field given) : Holds (g.set members entry.1 entry.2) field given := by
  cases given with
  | value raw => exact kept_of_silent lawful silent held
  | parts =>
    obtain ⟨raw, form, inside⟩ := held
    exact ⟨raw, form, kept_of_silent lawful silent inside⟩

theorem gives_cons {rest : List (Text × g.Raw)} : Gives {e | e ∈ entry :: rest} field given ↔
    Sets g field entry given ∨ Gives {e | e ∈ rest} field given := by
  simp [Gives]

-- One source, by induction on its members.
theorem lay_of_silent (lawful : g.Lawful)
    (silent : ∀ other, ¬ Gives {e | e ∈ source} field other)
    (held : Holds members field given) : Holds (g.lay members source) field given := by
  induction source generalizing members with
  | nil => exact held
  | cons entry rest ih =>
    simp only [gives_cons, not_or, forall_and] at silent
    exact ih silent.2 (holds_of_silent lawful silent.1 held)

theorem lay_of_gives (lawful : g.Lawful) (plain : g.root? field = none)
    (gives : ∃ given, Gives {e | e ∈ source} field given) :
    ∃ last, Gives {e | e ∈ source} field last ∧ Holds (g.lay members source) field last := by
  induction source generalizing members with
  | nil => simp [Gives] at gives
  | cons entry rest ih =>
    simp only [gives_cons]
    by_cases later : ∃ given, Gives {e | e ∈ rest} field given
    · obtain ⟨last, gives, held⟩ := ih later
      exact ⟨last, .inr gives, held⟩
    · obtain ⟨last, gives⟩ := gives
      have sets : Sets g field entry last :=
        (gives_cons.mp gives).resolve_right fun other => later ⟨last, other⟩
      have silent : ∀ other, ¬ Gives {e | e ∈ rest} field other :=
        fun other gives => later ⟨other, gives⟩
      have set := @holds_of_sets g field last members entry lawful plain sets
      have held := lay_of_silent lawful silent set
      exact ⟨last, .inl sets, held⟩

theorem lay_once (lawful : g.Lawful) (once : (names members).Nodup) :
    (names (g.lay members source)).Nodup := by
  induction source generalizing members with
  | nil => exact once
  | cons entry rest ih => exact ih (lawful.set_once once)

end

def laid (g : Gatherer) : List (List (Text × g.Raw)) → List (Text × g.Raw)
  | [] => []
  | source :: lower => g.lay (g.laid lower) source

theorem laid_once (lawful : g.Lawful) (sources : List (List (Text × g.Raw))) :
    (names (g.laid sources)).Nodup := by
  cases sources with
  | nil => exact List.nodup_nil
  | cons source lower => exact lay_once lawful (laid_once lawful lower)

-- All sources, from the lowest up: what wins so far is held, until a higher source replaces it.
theorem laid_holds (lawful : g.Lawful) (plain : g.root? field = none)
    {sources : List (List (Text × g.Raw))}
    (wins : Wins field (sources.map fun source => {e | e ∈ source}) given) :
    ∃ last, Wins field (sources.map fun source => {e | e ∈ source}) last ∧
      Holds (g.laid sources) field last := by
  induction sources generalizing given with
  | nil => cases wins
  | cons source lower ih =>
    cases wins with
    | top gives =>
      obtain ⟨last, gives, held⟩ := lay_of_gives lawful plain ⟨given, gives⟩
      exact ⟨last, .top gives, held⟩
    | silent nothing wins =>
      obtain ⟨last, wins, held⟩ := ih wins
      exact ⟨last, .silent nothing wins, lay_of_silent lawful nothing held⟩

theorem collected (lawful : g.Lawful) {file : Option Text} {environment : List (Text × Text)}
    (readable : g.Readable file) (apart : g.Apart environment) :
    ∃ members assigned, g.collect? (g.file false file) = some members ∧
      g.collect? (g.variableSource environment) = some assigned ∧
      g.fileLayer file = {entry | entry ∈ members} ∧
      g.variableLayer environment = {entry | entry ∈ assigned} := by
  have read : ∃ members, g.collect? (g.file false file) = some members := by
    cases file with
    | none => exact ⟨[], lawful.missing_file⟩
    | some t => exact Option.isSome_iff_exists.mp (readable t rfl)
  obtain ⟨members, read⟩ := read
  obtain ⟨assigned, given, known⟩ := lawful.variables_collected "BOOLRULE".toList "_".toList apart
  have start : g.small ("BOOLRULE".toList ++ "_".toList) = "boolrule_".toList :=
    (Text.lowered_eq_iff (by decide +kernel) g.final [] _).mpr (by decide)
  refine ⟨members, assigned, read, given, ?_, ?_⟩
  · ext entry
    simp [fileLayer, read]
  · ext ⟨key, raw⟩
    simp only [variableLayer, Set.mem_ofPred_eq, known, start]

theorem fields_plain (lawful : g.Lawful) : ∀ field ∈ fields, g.root? field = none := by
  have named : ∀ field ∈ fields, ∀ c ∈ field, isNameChar c := by decide
  exact fun field known => lawful.root_of_name (named field known)

theorem holds_converts (lawful : g.Lawful) {members : List (Text × g.Raw)}
    (once : (names members).Nodup) (held : Holds members field given) :
    ∃ raw, Table.find? field members = some raw ∧
      g.toBool? raw = given.convert? g.toBool? ∧ g.toWord? raw = given.convert? g.toWord? := by
  cases given with
  | value raw => exact ⟨raw, Table.find_of_nodup once held, rfl, rfl⟩
  | parts =>
    obtain ⟨raw, form, inside⟩ := held
    exact ⟨raw, Table.find_of_nodup once inside, lawful.toBool_parts form, lawful.toWord_parts form⟩

def configOf? (lazy depth trace : Given g.Raw) : Option Config := do
  return ⟨← lazy.convert? g.toBool?, ← depth.convert? g.toWord?, ← trace.convert? g.toBool?⟩

theorem laid_converts (lawful : g.Lawful) {sources : List (List (Text × g.Raw))}
    (known : field ∈ fields)
    (decides : ∀ other, Wins field (sources.map fun source => {e | e ∈ source}) other ↔
      other = given) :
    ∃ raw, Table.find? field (g.laid sources) = some raw ∧
      g.toBool? raw = given.convert? g.toBool? ∧ g.toWord? raw = given.convert? g.toWord? := by
  have wins := (decides given).mpr rfl
  obtain ⟨last, lastWins, held⟩ := laid_holds lawful (fields_plain lawful field known) wins
  rw [(decides last).mp lastWins] at held
  exact holds_converts lawful (laid_once lawful sources) held

theorem exists_built (lawful : g.Lawful) {file : Option Text} {environment : List (Text × Text)}
    (readable : g.Readable file) (apart : g.Apart environment) :
    ∃ sources, g.layers file environment = sources.map (fun source => {e | e ∈ source}) ∧
      g.build? g.standardMembers [g.file false file, g.variableSource environment] =
        some (g.laid sources) := by
  obtain ⟨members, assigned, read, given, ofFile, ofVariables⟩ := collected lawful readable apart
  refine ⟨[assigned, members, g.standardMembers], ?_, ?_⟩
  · rw [layers, ofFile, ofVariables]
    rfl
  · rw [lawful.built_in_turn]
    simp only [List.mapM_cons, List.mapM_nil, read, given]
    rfl

theorem load_eq (lawful : g.Lawful) {file : Option Text} {environment : List (Text × Text)}
    (readable : g.Readable file) (apart : g.Apart environment)
    {lazy depth trace : Given g.Raw}
    (lazyDecides : ∀ given, Wins lazyKey (g.layers file environment) given ↔ given = lazy)
    (depthDecides : ∀ given, Wins depthKey (g.layers file environment) given ↔ given = depth)
    (traceDecides : ∀ given, Wins traceKey (g.layers file environment) given ↔ given = trace) :
    g.load? file environment = configOf? lazy depth trace := by
  obtain ⟨sources, stack, built⟩ := exists_built lawful readable apart
  rw [stack] at lazyDecides depthDecides traceDecides
  obtain ⟨lazyRaw, lazyFound, lazyConverts, -⟩ := laid_converts lawful (by decide) lazyDecides
  obtain ⟨depthRaw, depthFound, -, depthConverts⟩ := laid_converts lawful (by decide) depthDecides
  obtain ⟨traceRaw, traceFound, traceConverts, -⟩ := laid_converts lawful (by decide) traceDecides
  rw [load?, built, configOf?, ← lazyConverts, ← depthConverts, ← traceConverts]
  simp only [Option.bind_eq_bind, Option.bind_some, Found.addMembers_eq (laid_once lawful sources),
    lazyFound, depthFound, traceFound, Found.filled, Found.nothing, Option.isNone_none, if_true]
  cases g.toBool? lazyRaw <;> cases g.toWord? depthRaw <;> cases g.toBool? traceRaw <;> rfl

end Gatherer
end Verdict.Config
