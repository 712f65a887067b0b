import Verdict.Proofs.Gathering
import Verdict.Proofs.TomlGathering

/-!
Settings from layers. Which raw value decides a setting is told without the members that are built
up and without the order of keys: it is what the highest of the layers gives that give the setting
anything. Nothing else bears on a configuration, and it exists where the three deciding values
convert.
-/
namespace Verdict.Config
open Table (names)

namespace Gatherer
variable {g : Gatherer} {field : Text} {given : Given g.Raw}

def Clear (layer : g.Layer) : Prop :=
  ∀ field ∈ fields, ∀ given other, Gives layer field given → Gives layer field other →
    given = other

theorem clear_of_undivided {members : List (Text × g.Raw)} (once : (names members).Nodup)
    (undivided : Undivided {entry | entry ∈ members}) :
    Clear {entry | entry ∈ members} := by
  intro field known given other first second
  have same {key : Text} {raw raw' : g.Raw} (here : (key, raw) ∈ members)
      (there : (key, raw') ∈ members) : raw = raw' :=
    congrArg Prod.snd (List.inj_on_of_nodup_map once here there rfl)
  obtain ⟨entry, inside, sets⟩ := first
  obtain ⟨entry', inside', sets'⟩ := second
  cases sets with
  | whole form =>
    cases sets' with
    | whole form' => rw [same inside inside']
    | compound form' =>
      rw [same inside inside', form'] at form
      cases form
    | part path => exact absurd form (undivided field known _ _ _ inside' path inside)
  | compound form =>
    cases sets' with
    | whole form' =>
      rw [same inside inside', form'] at form
      cases form
    | compound form' => rfl
    | part path => rfl
  | part path =>
    cases sets' with
    | whole form' => exact absurd form' (undivided field known _ _ _ inside path inside')
    | compound form' => rfl
    | part path' => rfl

theorem undivided_of_plain {layer : g.Layer}
    (plain : ∀ entry ∈ layer, g.root? entry.1 = none) : Undivided layer := by
  intro field known key part raw inside path
  rw [plain _ inside] at path
  cases path

theorem silent_of_plain {layer : g.Layer}
    (plain : ∀ entry ∈ layer, g.root? entry.1 = none) (absent : ∀ entry ∈ layer, entry.1 ≠ field)
    (given : Given g.Raw) : ¬ Gives layer field given := by
  intro gives
  obtain ⟨entry, inside, sets⟩ := gives
  cases sets with
  | whole form => exact absent _ inside rfl
  | compound form => exact absent _ inside rfl
  | part path =>
    rw [plain _ inside] at path
    cases path

theorem clear_standard (lawful : g.Lawful) : Clear {entry | entry ∈ g.standardMembers} := by
  have once : (names g.standardMembers).Nodup := by
    show fields.Nodup
    decide
  refine clear_of_undivided once (undivided_of_plain fun entry inside => ?_)
  exact fields_plain lawful entry.1 (List.mem_map_of_mem inside)

theorem standard_gives (lawful : g.Lawful) :
    ∀ field ∈ fields, ∃ given, Gives {entry | entry ∈ g.standardMembers} field given := by
  simp only [fields, List.forall_mem_cons, List.not_mem_nil, false_imp_iff, implies_true, and_true]
  refine ⟨⟨_, _, ?_, .whole (lawful.plain_ofBool standard.lazy)⟩,
    ⟨_, _, ?_, .whole (lawful.plain_ofWord standard.maxNestingDepth)⟩,
    ⟨_, _, ?_, .whole (lawful.plain_ofBool standard.trace)⟩⟩
  all_goals simp [standardMembers]

theorem wins_one {stack : List g.Layer} (clear : ∀ layer ∈ stack, Clear layer)
    (known : field ∈ fields) {other : Given g.Raw} (first : Wins field stack given)
    (second : Wins field stack other) : given = other := by
  induction first with
  | @top layer lower given gives =>
    cases second with
    | top gives' => exact clear layer List.mem_cons_self field known _ _ gives gives'
    | silent nothing _ => exact absurd gives (nothing _)
  | @silent layer lower given nothing wins ih =>
    cases second with
    | top gives => exact absurd gives (nothing _)
    | silent _ wins' =>
      exact ih (fun layer member => clear layer (List.mem_cons_of_mem _ member)) wins'

theorem exists_wins {stack : List g.Layer} {layer : g.Layer} (member : layer ∈ stack)
    (gives : Gives layer field given) : ∃ other, Wins field stack other := by
  induction stack with
  | nil => cases member
  | cons first lower ih =>
    by_cases above : ∃ other, Gives first field other
    · obtain ⟨other, above⟩ := above
      exact ⟨other, .top above⟩
    · rcases List.mem_cons.mp member with rfl | inside
      · exact absurd ⟨given, gives⟩ above
      · obtain ⟨other, wins⟩ := ih inside
        exact ⟨other, .silent (fun other gives => above ⟨other, gives⟩) wins⟩

theorem exists_decisive (lawful : g.Lawful) {file : Option Text} {environment : List (Text × Text)}
    (readable : g.Readable file) (apart : g.Apart environment)
    (wholeFile : Undivided (g.fileLayer file))
    (wholeVariables : Undivided (g.variableLayer environment)) (known : field ∈ fields) :
    ∃ decisive, ∀ given, Wins field (g.layers file environment) given ↔ given = decisive := by
  obtain ⟨members, assigned, read, collects, ofFile, ofVariables⟩ :=
    collected lawful readable apart
  have clear : ∀ layer ∈ g.layers file environment, Clear layer := by
    rw [ofFile] at wholeFile
    rw [ofVariables] at wholeVariables
    simp only [layers, ofFile, ofVariables, List.forall_mem_cons, List.not_mem_nil, false_imp_iff,
      implies_true, and_true]
    exact ⟨clear_of_undivided (lawful.collected_once collects) wholeVariables,
      clear_of_undivided (lawful.collected_once read) wholeFile, clear_standard lawful⟩
  obtain ⟨_, built⟩ := standard_gives lawful field known
  have lowest : {entry | entry ∈ g.standardMembers} ∈ g.layers file environment := by simp [layers]
  obtain ⟨decisive, wins⟩ := exists_wins lowest built
  refine ⟨decisive, fun given => ⟨fun other => wins_one clear known other wins, ?_⟩⟩
  rintro rfl
  exact wins

/-- Another file and another environment give the settings the same, the file where no variable
    does. Whatever else they hold may differ. -/
def Untouched (g : Gatherer) (file : Option Text) (environment : List (Text × Text))
    (file' : Option Text) (environment' : List (Text × Text)) : Prop :=
  ∀ field ∈ fields,
    (∀ given, Gives (g.variableLayer environment') field given ↔
      Gives (g.variableLayer environment) field given) ∧
    ((∃ given, Gives (g.variableLayer environment) field given) ∨
      ∀ given, Gives (g.fileLayer file') field given ↔ Gives (g.fileLayer file) field given)

theorem wins_cons {layer : g.Layer} {lower : List g.Layer} :
    Wins field (layer :: lower) given ↔ Gives layer field given ∨
      (∀ other, ¬ Gives layer field other) ∧ Wins field lower given := by
  constructor
  · intro wins
    cases wins with
    | top gives => exact .inl gives
    | silent nothing wins => exact .inr ⟨nothing, wins⟩
  · intro wins
    rcases wins with gives | ⟨nothing, wins⟩
    · exact .top gives
    · exact .silent nothing wins

theorem wins_of_untouched {file file' : Option Text} {environment environment' : List (Text × Text)}
    (untouched : g.Untouched file environment file' environment') (known : field ∈ fields) :
    Wins field (g.layers file' environment') given ↔
      Wins field (g.layers file environment) given := by
  obtain ⟨same, hidden⟩ := untouched field known
  rw [layers, layers, wins_cons, @wins_cons g field given (g.variableLayer environment)]
  rcases hidden with hidden | sameFile
  · have spoken : ¬ ∀ other, ¬ Gives (g.variableLayer environment) field other := by
      simpa using hidden
    simp only [same, spoken, false_and, or_false]
  · simp only [wins_cons, same, sameFile]

theorem configOf_iff {lazy depth trace : Given g.Raw} {config : Config} :
    configOf? lazy depth trace = some config ↔
      lazy.convert? g.toBool? = some config.lazy ∧
      depth.convert? g.toWord? = some config.maxNestingDepth ∧
      trace.convert? g.toBool? = some config.trace := by
  obtain ⟨l, d, t⟩ := config
  unfold configOf?
  cases lazy.convert? g.toBool? <;> cases depth.convert? g.toWord? <;>
    cases trace.convert? g.toBool? <;> simp

theorem isSome_configOf {lazy depth trace : Given g.Raw} :
    (configOf? lazy depth trace).isSome ↔ (lazy.convert? g.toBool?).isSome ∧
      (depth.convert? g.toWord?).isSome ∧ (trace.convert? g.toBool?).isSome := by
  unfold configOf?
  cases lazy.convert? g.toBool? <;> cases depth.convert? g.toWord? <;>
    cases trace.convert? g.toBool? <;> simp

/-- Where a file reads without errors, if there is one, no two variables differ in the case of
    their letters only, and neither gives a setting both a value and parts, each setting has one
    layer's raw value that decides it. The configuration is what the three of them convert to, and
    there is one if they do; sources that leave the three as they are lead to the same. -/
theorem layers_decide (lawful : g.Lawful) {file : Option Text} {environment : List (Text × Text)}
    (readable : g.Readable file) (apart : g.Apart environment)
    (wholeFile : Undivided (g.fileLayer file))
    (wholeVariables : Undivided (g.variableLayer environment)) :
    (∃ lazy depth trace : Given g.Raw,
      (∀ given, Wins lazyKey (g.layers file environment) given ↔ given = lazy) ∧
      (∀ given, Wins depthKey (g.layers file environment) given ↔ given = depth) ∧
      (∀ given, Wins traceKey (g.layers file environment) given ↔ given = trace) ∧
      (∀ config, g.load? file environment = some config ↔
        lazy.convert? g.toBool? = some config.lazy ∧
        depth.convert? g.toWord? = some config.maxNestingDepth ∧
        trace.convert? g.toBool? = some config.trace) ∧
      ((g.load? file environment).isSome ↔ (lazy.convert? g.toBool?).isSome ∧
        (depth.convert? g.toWord?).isSome ∧ (trace.convert? g.toBool?).isSome)) ∧
    ∀ file' environment', g.Readable file' → g.Apart environment' →
      g.Untouched file environment file' environment' →
        g.load? file' environment' = g.load? file environment := by
  have decisive {field : Text} (known : field ∈ fields) :=
    exists_decisive lawful readable apart wholeFile wholeVariables known
  obtain ⟨lazy, lazyDecides⟩ := decisive (show lazyKey ∈ fields by decide)
  obtain ⟨depth, depthDecides⟩ := decisive (show depthKey ∈ fields by decide)
  obtain ⟨trace, traceDecides⟩ := decisive (show traceKey ∈ fields by decide)
  have loaded := load_eq lawful readable apart lazyDecides depthDecides traceDecides
  refine ⟨⟨lazy, depth, trace, lazyDecides, depthDecides, traceDecides, ?_, ?_⟩, ?_⟩
  · intro config
    rw [loaded, configOf_iff]
  · rw [loaded, isSome_configOf]
  · intro file' environment' readable' apart' untouched
    have same {field : Text} (known : field ∈ fields) {decisive : Given g.Raw}
        (decides : ∀ given, Wins field (g.layers file environment) given ↔ given = decisive)
        (given : Given g.Raw) :
        Wins field (g.layers file' environment') given ↔ given = decisive :=
      (wins_of_untouched untouched known).trans (decides given)
    rw [loaded]
    exact load_eq lawful readable' apart' (same (by decide) lazyDecides)
      (same (by decide) depthDecides) (same (by decide) traceDecides)

end Gatherer

open Gatherer

def sampleFile : Text := "lazy = 'maybe'\nmax_nesting_depth = 9\n[other]\nlazy = 1".toList

def sampleMembers : List (Text × Setting) :=
  [(lazyKey, .text "maybe".toList), (depthKey, .int 9), ("other".toList, .compound)]

def sampleEnvironment : List (Text × Text) :=
  [("boolrule_Lazy".toList, "on".toList), ("PATH".toList, "/".toList)]

def sampleVariables : List (Text × Setting) := [(lazyKey, .text "on".toList)]

theorem sample_read :
    TomlGatherer.collect? (.file false (some sampleFile)) = some sampleMembers := by
  decide +kernel

theorem sample_fileLayer :
    tomlGatherer.fileLayer (some sampleFile) = {entry | entry ∈ sampleMembers} := by
  unfold fileLayer
  simp only [sample_read]
  ext entry
  simp

theorem sample_variableLayer :
    tomlGatherer.variableLayer sampleEnvironment = {entry | entry ∈ sampleVariables} := by
  have marked : tomlGatherer.small "boolrule_Lazy".toList = "boolrule_".toList ++ lazyKey := by
    decide +kernel
  have unmarked : tomlGatherer.small "PATH".toList = "path".toList := by decide +kernel
  have guessed : Setting.ofVariable "on".toList = .text "on".toList := by decide +kernel
  ext ⟨key, raw⟩
  simp only [variableLayer, sampleEnvironment, sampleVariables, Set.mem_ofPred_eq, List.mem_cons,
    List.not_mem_nil, or_false, Prod.mk.injEq]
  constructor
  · rintro ⟨name, text, ⟨rfl, rfl⟩ | ⟨rfl, rfl⟩, named, given⟩
    · exact ⟨(List.append_cancel_left (marked.symm.trans named)).symm, given.symm.trans guessed⟩
    · rw [unmarked] at named
      cases named
  · rintro ⟨rfl, rfl⟩
    exact ⟨_, _, .inl ⟨rfl, rfl⟩, marked, guessed⟩

theorem hidden_text_loads :
    tomlGatherer.Lawful ∧
      tomlGatherer.Readable (some sampleFile) ∧ tomlGatherer.Apart sampleEnvironment ∧
      Undivided (tomlGatherer.fileLayer (some sampleFile)) ∧
      Undivided (tomlGatherer.variableLayer sampleEnvironment) ∧
      tomlGatherer.load? (some sampleFile) sampleEnvironment = some ⟨true, 9, false⟩ := by
  have plainFile : ∀ entry ∈ sampleMembers, TomlGatherer.root? entry.1 = none := by decide +kernel
  have plainVariables : ∀ entry ∈ sampleVariables, TomlGatherer.root? entry.1 = none := by
    decide +kernel
  have readable : tomlGatherer.Readable (some sampleFile) := by
    intro t same
    cases same
    simp only [sample_read, Option.isSome_some]
  have apart : tomlGatherer.Apart sampleEnvironment := by
    unfold Apart
    decide +kernel
  have wholeFile : Undivided (tomlGatherer.fileLayer (some sampleFile)) := by
    rw [sample_fileLayer]
    exact undivided_of_plain plainFile
  have wholeVariables : Undivided (tomlGatherer.variableLayer sampleEnvironment) := by
    rw [sample_variableLayer]
    exact undivided_of_plain plainVariables
  refine ⟨tomlGatherer_lawful, readable, apart, wholeFile, wholeVariables, ?_⟩
  obtain ⟨⟨lazy, depth, trace, lazyDecides, depthDecides, traceDecides, loads, -⟩, -⟩ :=
    layers_decide tomlGatherer_lawful readable apart wholeFile wholeVariables
  simp only [layers, sample_fileLayer, sample_variableLayer]
    at lazyDecides depthDecides traceDecides
  have depthUnset : ∀ entry ∈ sampleVariables, entry.1 ≠ depthKey := by decide
  have traceUnset : ∀ entry ∈ sampleVariables, entry.1 ≠ traceKey := by decide
  have traceNotInFile : ∀ entry ∈ sampleMembers, entry.1 ≠ traceKey := by decide
  have above := (lazyDecides (.value (.text "on".toList))).mp
    (.top ⟨_, List.mem_cons_self, .whole rfl⟩)
  have inFile := (depthDecides (.value (.int 9))).mp
    (.silent (silent_of_plain plainVariables depthUnset)
      (.top ⟨_, List.mem_cons_of_mem _ List.mem_cons_self, .whole rfl⟩))
  have builtIn := (traceDecides (.value (.truth false))).mp
    (.silent (silent_of_plain plainVariables traceUnset)
      (.silent (silent_of_plain plainFile traceNotInFile)
        (.top ⟨_, List.mem_of_getLast? rfl, .whole rfl⟩)))
  rw [loads, ← above, ← inFile, ← builtIn]
  decide +kernel

/-- A variable whose key is no setting is not always skipped: its key can be a path into one. -/
theorem unknown_variable_fails :
    tomlGatherer.Lawful ∧
      tomlGatherer.small "BOOLRULE_LAZY.X".toList = "boolrule_lazy.x".toList ∧
      "lazy.x".toList ∉ fields ∧ tomlGatherer.load? none [] = some standard ∧
      tomlGatherer.load? none [("BOOLRULE_LAZY.X".toList, "true".toList)] = none := by
  refine ⟨tomlGatherer_lawful, ?_⟩
  decide +kernel

/-- An empty table is no value. -/
example : tomlGatherer.load? (some "[lazy]\n[trace]\nx = 1".toList)
    [("BOOLRULE_TRACE".toList, ['1'])] = some ⟨false, 64, true⟩ := by
  decide +kernel

end Verdict.Config
