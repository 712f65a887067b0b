import Verdict.Proofs.Roster

/-!
Handles on a store. Each handle has its settings, and all of them share the rules; a clone takes
over the settings of the handle that it is made from. However many handles there are, and whichever
of them a request comes through, the answers are those of one directory.
-/
namespace Verdict

namespace Machine
variable {σ τ ι α : Type}

def answers (step : σ → ι → α × σ) : σ → List ι → List α
  | _, [] => []
  | s, input :: rest => (step s input).1 :: answers step (step s input).2 rest

def after (step : σ → ι → α × σ) (s : σ) (inputs : List ι) : σ :=
  inputs.foldl (fun s input => (step s input).2) s

/-- A relation between two machines that every step keeps is kept by every run, and then both
    machines give the same answers. -/
theorem simulates {step : σ → ι → α × σ} {step' : τ → ι → α × τ} (related : σ → τ → Prop)
    (keeps : ∀ s t input, related s t →
      (step s input).1 = (step' t input).1 ∧ related (step s input).2 (step' t input).2)
    {s : σ} {t : τ} (start : related s t) (inputs : List ι) :
    answers step s inputs = answers step' t inputs ∧
      related (after step s inputs) (after step' t inputs) := by
  induction inputs generalizing s t with
  | nil => exact ⟨rfl, start⟩
  | cons input rest ih =>
    obtain ⟨same, next⟩ := keeps s t input start
    obtain ⟨others, last⟩ := ih next
    exact ⟨by rw [answers, answers, same, others], last⟩

theorem after_keeps {step : σ → ι → α × σ} (invariant : σ → Prop)
    (keeps : ∀ s input, invariant s → invariant (step s input).2) {s : σ} (start : invariant s)
    (inputs : List ι) : invariant (after step s inputs) :=
  List.foldlRecOn inputs _ start fun s holds input _ => keeps s input holds

end Machine

def Registry.ask (r : Registry) (request : Nat × Request) :
    Option (Except Error Response) × Registry :=
  if request.1 < r.handles then
    match request.2 with
    | .command c => (some ((r.run c).1.map .reply), (r.run c).2)
    | .size => (some (.ok (.size r.directory.entries.card)), r)
    | .isEmpty => (some (.ok (.isEmpty (r.directory = ∅))), r)
  else (none, r)

namespace Session
variable {session : Session} {r : Registry}

structure Shows (r : Registry) (session : Session) : Prop where
  handles : session.handles = r.handles
  store : session.store.Shows r.config r.directory

theorem Shows.run (shows : session.Shows r) (c : Command) :
    (session.run c).answer = (r.run c).1 ∧ (session.run c).next.Shows (r.run c).2 := by
  obtain ⟨handles, store⟩ := shows
  cases c with
  | load name query =>
    obtain ⟨answer, next⟩ := store.load name query
    exact ⟨congrArg (Except.map _) answer, handles, next⟩
  | delete name =>
    simp only [Session.run, Session.lift, Store.delete, Registry.run, store.contains,
      decide_eq_true_eq]
    split
    · exact ⟨rfl, handles, store.remove name⟩
    · exact ⟨rfl, handles, store⟩
  | get name =>
    refine ⟨?_, handles, store⟩
    simp only [Session.run, Registry.run, store.lookup, Option.map_map]
    rfl
  | contains name =>
    refine ⟨?_, handles, store⟩
    simp only [Session.run, Registry.run, store.contains]
  | list =>
    refine ⟨?_, handles, store⟩
    simp only [Session.run, Registry.run, store.names]
  | loadBatch rules =>
    obtain ⟨loaded, next⟩ := store.loadAll rules
    refine ⟨?_, handles, next⟩
    simp only [Session.run, Session.lift, Store.loadBatch, Registry.run, loaded]
    rfl
  | evaluate name context =>
    simp only [Session.run, Session.lift, Registry.run, store.lookup]
    cases found : session.store.get? name with
    | none =>
      simp only [Store.evaluate, found]
      exact ⟨rfl, handles, store⟩
    | some rule =>
      obtain ⟨answer, next⟩ := store.evaluate found context
      exact ⟨congrArg (Except.map _) answer, handles, next⟩
  | evaluateAll context =>
    obtain ⟨answer, next⟩ := store.evaluateAll context
    refine ⟨?_, handles, next⟩
    simp only [Session.run, Session.lift, Registry.run, Registry.limit, answer]
    cases r.directory.failure? r.config.maxNestingDepth context <;> rfl
  | clear =>
    refine ⟨rfl, handles, ?_⟩
    show Store.Shows r.config ∅ (Store.empty session.store.config)
    rw [store.settings]
    exact Store.shows_empty r.config
  | statistics =>
    refine ⟨?_, handles, store⟩
    simp only [Session.run, Registry.run, store.statistics]
    rfl
  | clone =>
    refine ⟨?_, ?_, store⟩
    · simp only [Session.run, Registry.run, handles]
    · simp only [Session.run, Registry.run, handles]

end Session

namespace Registry
variable (r : Registry) (c : Command)

theorem run_config : (r.run c).2.config = r.config := by
  cases c with
  | delete name =>
    simp only [run]
    split <;> rfl
  | evaluate name context =>
    simp only [run]
    split <;> rfl
  | _ => rfl

theorem run_handles : List.replicate (r.run c).2.handles r.config =
    Handles.cloned (List.replicate r.handles r.config) r.config c := by
  cases c with
  | delete name =>
    simp only [run]
    split <;> rfl
  | evaluate name context =>
    simp only [run]
    split <;> rfl
  | clone => exact List.replicate_succ'
  | _ => rfl

theorem ask_config (request : Nat × Request) : (r.ask request).2.config = r.config := by
  unfold Registry.ask
  split
  · split
    case h_1 c _ => exact r.run_config c
    all_goals rfl
  · rfl

theorem after_config (requests : List (Nat × Request)) :
    (Machine.after Registry.ask r requests).config = r.config :=
  Machine.after_keeps (fun s : Registry => s.config = r.config)
    (fun s request same => (s.ask_config request).trans same) rfl requests

end Registry

namespace Handles
variable {h : Handles} {r : Registry}

/-- All handles have the settings of the first one, and the rules that they share show the
    directory. -/
structure Shows (r : Registry) (h : Handles) : Prop where
  configs : h.configs = List.replicate r.handles r.config
  store : Store.Shows r.config r.directory ⟨r.config, h.rules, h.ascending⟩

theorem shows_start (config : Config) : (start config).Shows (Registry.start config) :=
  ⟨rfl, Store.shows_empty config⟩

theorem Shows.session (shows : h.Shows r) (handle : Nat) :
    h.session? handle =
      if handle < r.handles then some ⟨⟨r.config, h.rules, h.ascending⟩, r.handles⟩ else none := by
  simp only [session?, shows.configs, List.length_replicate, List.getElem?_replicate]
  split <;> rfl

theorem Shows.ask (shows : h.Shows r) (request : Nat × Request) :
    (h.ask request).1 = (r.ask request).1 ∧ (h.ask request).2.Shows (r.ask request).2 := by
  obtain ⟨handle, request⟩ := request
  simp only [Handles.ask, Registry.ask, shows.session]
  by_cases there : handle < r.handles
  · simp only [if_pos there]
    cases request with
    | size => exact ⟨by simp only [shows.store.size], shows⟩
    | isEmpty =>
      have empty : h.rules.isEmpty = decide (r.directory = ∅) := shows.store.isEmpty
      exact ⟨by simp only [empty], shows⟩
    | command c =>
      have session : Session.Shows r ⟨⟨r.config, h.rules, h.ascending⟩, r.handles⟩ :=
        ⟨rfl, shows.store⟩
      obtain ⟨answer, next⟩ := session.run c
      refine ⟨by simp only [answer], ?_, ?_⟩
      · simp only [shows.configs]
        rw [r.run_config c, r.run_handles c]
      · exact next.store.restored
  · simp only [if_neg there]
    exact ⟨trivial, shows⟩

theorem Shows.run (shows : h.Shows r) (requests : List (Nat × Request)) :
    Machine.answers Handles.ask h requests = Machine.answers Registry.ask r requests ∧
      (Machine.after Handles.ask h requests).Shows (Machine.after Registry.ask r requests) :=
  Machine.simulates (fun h r => Shows r h) (fun _ _ request shows => shows.ask request) shows
    requests

end Handles

/-- A store is one directory to all of its handles. In every run of requests, through any of the
    handles that there are by then, each answer is the one that the directory gives, and what the
    handles share shows the directory afterwards: its names, its texts and its flags. -/
theorem handles_share_directory (config : Config) (requests : List (Nat × Request)) :
    Machine.answers Handles.ask (Handles.start config) requests =
        Machine.answers Registry.ask (Registry.start config) requests ∧
      (Machine.after Handles.ask (Handles.start config) requests).Shows
        (Machine.after Registry.ask (Registry.start config) requests) :=
  (Handles.shows_start config).run requests

end Verdict
