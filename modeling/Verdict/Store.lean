import Verdict.Rule

/-!
Named rules. A store holds its rules by ascending names. Loading replaces a rule only if the new
one can be made; evaluation leaves names and texts as they are, it only compiles.
-/
namespace Verdict

structure Store where
  config : Config
  rules : List (Text × Rule)
  ascending : Table.Ascending rules

namespace Store

def empty (config : Config) : Store := ⟨config, [], .nil⟩

def put (store : Store) (name : Text) (rule : Rule) : Store :=
  { store with
    rules := Table.insert name rule store.rules
    ascending := Table.ascending_insert name rule store.rules store.ascending }

def remove (store : Store) (name : Text) : Store :=
  { store with
    rules := Table.erase name store.rules
    ascending := Table.ascending_erase name store.rules store.ascending }

def get? (store : Store) (name : Text) : Option Rule := Table.find? name store.rules

def contains (store : Store) (name : Text) : Bool := (store.get? name).isSome

def names (store : Store) : List Text := Table.names store.rules

def size (store : Store) : Nat := store.rules.length

def load (store : Store) (name query : Text) : Turn Store Unit :=
  match Rule.create store.config query with
  | (.error e, events) => ⟨.error e, store, events⟩
  | (.ok rule, events) =>
    ⟨.ok (), store.put name rule,
      events ++ [if store.contains name then .replaced name else .loaded name]⟩

def delete (store : Store) (name : Text) : Turn Store Unit :=
  if store.contains name then ⟨.ok (), store.remove name, [.deleted name]⟩
  else ⟨.error (.ruleNotFound name), store, [.deletedAbsent name]⟩

structure Batch where
  store : Store
  loaded : List Text
  failures : List (Text × Error)
  events : List Event

def loadAll (store : Store) : List (Text × Text) → Batch
  | [] => ⟨store, [], [], []⟩
  | (name, query) :: rest =>
    let turn := store.load name query
    let batch := loadAll turn.next rest
    match turn.answer with
    | .ok _ => { batch with loaded := name :: batch.loaded, events := turn.events ++ batch.events }
    | .error e =>
      { batch with
        failures := (name, e) :: batch.failures
        events := turn.events ++ batch.events }

def loadBatch (store : Store) (rules : List (Text × Text)) : Turn Store (List Text) :=
  let batch := store.loadAll rules
  let warning := if batch.failures.isEmpty then [] else [Event.batchFailed batch.failures]
  ⟨.ok batch.loaded, batch.store,
    batch.events ++ warning ++ [.batchLoaded batch.loaded.length batch.failures.length]⟩

def evaluate (store : Store) (name : Text) (context : Option Context) : Turn Store Bool :=
  match store.get? name with
  | none => ⟨.error (.ruleNotFound name), store, []⟩
  | some rule =>
    let turn := rule.test context
    ⟨turn.answer, store.put name turn.next, turn.events⟩

/-- Tests the rules in turn and collects the names of those that match. A missing variable counts
    as no match; any other error ends the tests. -/
def testAll (context : Option Context) :
    List (Text × Rule) → Turn (List (Text × Rule)) (List Text)
  | [] => ⟨.ok [], [], []⟩
  | (name, rule) :: rest =>
    let turn := rule.test context
    let more := testAll context rest
    match turn.answer with
    | .ok matched =>
      ⟨more.answer.map fun names => if matched then name :: names else names,
        (name, turn.next) :: more.next, turn.events ++ more.events⟩
    | .error e =>
      if e.isMissing then
        ⟨more.answer, (name, turn.next) :: more.next,
          turn.events ++ .variableMissing name e :: more.events⟩
      else ⟨.error e, (name, turn.next) :: rest, turn.events ++ [.evaluationFailed name e]⟩

theorem names_testAll (context : Option Context) (rules : List (Text × Rule)) :
    Table.names (testAll context rules).next = Table.names rules := by
  induction rules with
  | nil => rfl
  | cons entry rest ih =>
    simp only [Table.names] at ih
    simp only [testAll, Table.names]
    split
    · simp [ih]
    · split <;> simp [ih]

def evaluateAll (store : Store) (context : Option Context) : Turn Store (List Text) :=
  let turn := testAll context store.rules
  ⟨turn.answer,
    { store with
      rules := turn.next
      ascending := by
        have ascending := store.ascending
        rw [Table.ascending_iff] at ascending ⊢
        rw [names_testAll]
        exact ascending },
    turn.events⟩

def clear (store : Store) : Turn Store Unit :=
  ⟨.ok (), empty store.config, [.cleared store.size]⟩

structure Statistics where
  rules : Nat
  compiled : Nat
  fields : Nat
deriving DecidableEq

namespace Statistics

def average (s : Statistics) : Binary64 :=
  if s.compiled = 0 then .finite (.zero false) else .nearest false s.fields s.compiled

def averageNotation : Binary64.Notation := { Operand.realNotation with pointedExponent := false }

def writeAverage (s : Statistics) : Text :=
  match s.average with
  | .finite x => averageNotation.write x
  | .infinity _ => "inf".toList
  | .nan => "NaN".toList

end Statistics

def statistics (store : Store) : Statistics :=
  let compiled := store.rules.filterMap fun entry => entry.2.compiled
  ⟨store.size, compiled.length, compiled.foldl (fun n c => n + c.paths.length) 0⟩

end Store
end Verdict
