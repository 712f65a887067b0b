import Verdict.Store

/-!
A session with a store. All handles that are cloned in it share its rules, so a request may come
through any of them. A clone takes over the settings of the handle that it is made from.
-/
namespace Verdict

inductive Command where
  | load (name query : Text)
  | delete (name : Text)
  | get (name : Text)
  | contains (name : Text)
  | list
  | loadBatch (rules : List (Text × Text))
  | evaluate (name : Text) (context : Option Context)
  | evaluateAll (context : Option Context)
  | clear
  | statistics
  | clone

inductive Reply where
  | nothing
  | truth (b : Bool)
  | names (names : List Text)
  | rule (found : Option (Text × Bool))
  | statistics (s : Store.Statistics)
  | handle (number : Nat)
deriving DecidableEq

structure Session where
  store : Store
  handles : Nat

namespace Session

def start (config : Config) : Session := ⟨.empty config, 1⟩

def lift {α : Type} (session : Session) (turn : Turn Store α) (reply : α → Reply) :
    Turn Session Reply :=
  ⟨turn.answer.map reply, { session with store := turn.next }, turn.events⟩

def run (session : Session) : Command → Turn Session Reply
  | .load name query => session.lift (session.store.load name query) fun _ => .nothing
  | .delete name => session.lift (session.store.delete name) fun _ => .nothing
  | .get name =>
    ⟨.ok (.rule ((session.store.get? name).map fun rule => (rule.query, rule.isCompiled))),
      session, []⟩
  | .contains name => ⟨.ok (.truth (session.store.contains name)), session, []⟩
  | .list => ⟨.ok (.names session.store.names), session, []⟩
  | .loadBatch rules => session.lift (session.store.loadBatch rules) .names
  | .evaluate name context => session.lift (session.store.evaluate name context) .truth
  | .evaluateAll context => session.lift (session.store.evaluateAll context) .names
  | .clear => session.lift session.store.clear fun _ => .nothing
  | .statistics => ⟨.ok (.statistics session.store.statistics), session, []⟩
  | .clone =>
    ⟨.ok (.handle session.handles), { session with handles := session.handles + 1 }, []⟩

end Session

inductive Request where
  | command (c : Command)
  | size
  | isEmpty

inductive Response where
  | reply (r : Reply)
  | size (n : Nat)
  | isEmpty (b : Bool)
deriving DecidableEq

/-- The settings of each handle, and the rules that the handles share. -/
structure Handles where
  configs : List Config
  rules : List (Text × Rule)
  ascending : Table.Ascending rules

namespace Handles

def start (config : Config) : Handles :=
  ⟨[config], (Store.empty config).rules, (Store.empty config).ascending⟩

def session? (h : Handles) (handle : Nat) : Option Session :=
  h.configs[handle]?.map fun config => ⟨⟨config, h.rules, h.ascending⟩, h.configs.length⟩

def cloned (configs : List Config) (config : Config) : Command → List Config
  | .clone => configs ++ [config]
  | _ => configs

def ask (h : Handles) (request : Nat × Request) : Option (Except Error Response) × Handles :=
  match h.session? request.1 with
  | none => (none, h)
  | some session =>
    match request.2 with
    | .command c =>
      let turn := session.run c
      (some (turn.answer.map .reply),
        ⟨cloned h.configs session.store.config c, turn.next.store.rules,
          turn.next.store.ascending⟩)
    | .size => (some (.ok (.size session.store.size)), h)
    | .isEmpty => (some (.ok (.isEmpty session.store.rules.isEmpty)), h)

end Handles
end Verdict
