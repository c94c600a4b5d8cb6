import LocalHold.Transition.Run
import Mathlib.Data.List.Forall2
import Mathlib.Data.List.Perm.Basic

/-!
# Programs that ask their surroundings

A program asks a request and goes on with the answer.  What a program can do is
the set of its traces: the requests it asks, with the answers it got.  A pool
runs any number of programs over one shared state, in any order; a request may
start further programs, and other parties may change the shared state between
two requests.  The log of a finished pool is, up to order, one complete trace
of every program it ran.
-/

namespace Transition

/-- A program over requests with typed answers. -/
inductive Program (Request : Type) (Answer : Request → Type) (α : Type) : Type
  /-- The program has ended. -/
  | done (value : α)
  /-- The program waits for an answer. -/
  | ask (request : Request) (next : Answer request → Program Request Answer α)

/-- A request with its answer. -/
abbrev Event (Request : Type) (Answer : Request → Type) : Type :=
  Σ request, Answer request

variable {Request : Type} {Answer : Request → Type} {α β γ : Type}

namespace Program

/-- Run a program and go on with its value. -/
def bind : Program Request Answer α → (α → Program Request Answer β) → Program Request Answer β
  | .done value, rest => rest value
  | .ask request next, rest => .ask request fun answer => (next answer).bind rest

instance : Monad (Program Request Answer) where
  pure := .done
  bind := Program.bind

/-- Ask one request. -/
def perform (request : Request) : Program Request Answer (Answer request) :=
  .ask request .done

/-! ## Traces -/

/-- A program after some answers. -/
inductive After : Program Request Answer α → List (Event Request Answer) →
    Program Request Answer α → Prop
  | refl (program : Program Request Answer α) : After program [] program
  | ask {request : Request} {next : Answer request → Program Request Answer α}
      {answer : Answer request} {events : List (Event Request Answer)}
      {program : Program Request Answer α} (later : After (next answer) events program) :
      After (.ask request next) (⟨request, answer⟩ :: events) program

/-- A complete trace with its value. -/
abbrev Traces (program : Program Request Answer α) (events : List (Event Request Answer))
    (value : α) : Prop :=
  After program events (.done value)

theorem After.snoc {program : Program Request Answer α} {events : List (Event Request Answer)}
    {request : Request} {next : Answer request → Program Request Answer α}
    (before : After program events (.ask request next)) (answer : Answer request) :
    After program (events ++ [⟨request, answer⟩]) (next answer) := by
  generalize reached : Program.ask request next = waiting at before
  induction before with
  | refl program =>
      subst reached
      exact .ask (.refl _)
  | ask later inductionHypothesis => exact .ask (inductionHypothesis reached)

theorem traces_pure {value result : α} {events : List (Event Request Answer)}
    (ran : Traces (pure value) events result) : events = [] ∧ result = value := by
  cases ran
  exact ⟨rfl, rfl⟩

theorem traces_perform {request : Request} {answer : Answer request}
    {events : List (Event Request Answer)} (ran : Traces (perform request) events answer) :
    events = [⟨request, answer⟩] := by
  cases ran with
  | ask later =>
      cases later
      rfl

/-- A trace of a sequence splits. -/
theorem traces_bind {first : Program Request Answer α} {rest : α → Program Request Answer β}
    {events : List (Event Request Answer)} {result : β}
    (ran : Traces (first >>= rest) events result) :
    ∃ early value late, Traces first early value ∧ Traces (rest value) late result ∧
      events = early ++ late := by
  induction first generalizing events with
  | done value => exact ⟨[], value, events, .refl _, ran, rfl⟩
  | ask request next inductionHypothesis =>
      cases ran with
      | ask later =>
          obtain ⟨early, value, late, firstRan, restRan, rfl⟩ := inductionHypothesis _ later
          exact ⟨_ :: early, value, late, .ask firstRan, restRan, rfl⟩

/-- A request and what follows it. -/
theorem traces_perform_bind {request : Request} {rest : Answer request → Program Request Answer β}
    {events : List (Event Request Answer)} {result : β}
    (ran : Traces (perform request >>= rest) events result) :
    ∃ answer late, Traces (rest answer) late result ∧ events = ⟨request, answer⟩ :: late := by
  cases ran with
  | ask later => exact ⟨_, _, later, rfl⟩

/-- A loop runs its body once for each item, in order. -/
theorem traces_forM {items : List β} {body : β → Program Request Answer Unit}
    {fact : β → List (Event Request Answer) → Prop}
    (each : ∀ item ∈ items, ∀ events, Traces (body item) events () → fact item events)
    {events : List (Event Request Answer)} (ran : Traces (items.forM body) events ()) :
    ∃ parts, List.Forall₂ fact items parts ∧ events = parts.flatten := by
  induction items generalizing events with
  | nil =>
      cases ran
      exact ⟨[], .nil, rfl⟩
  | cons item rest inductionHypothesis =>
      obtain ⟨early, _, late, first, later, rfl⟩ := traces_bind ran
      obtain ⟨parts, facts, rfl⟩ := inductionHypothesis
        (fun other otherMem => each other (List.mem_cons_of_mem item otherMem)) later
      exact ⟨early :: parts, .cons (each item List.mem_cons_self early first) facts, rfl⟩

/-- A loop with an accumulator. -/
theorem traces_foldlM {items : List β} {body : γ → β → Program Request Answer γ}
    {fact : β → List (Event Request Answer) → Prop}
    (each : ∀ state, ∀ item ∈ items, ∀ events next, Traces (body state item) events next →
      fact item events)
    {events : List (Event Request Answer)} {state final : γ}
    (ran : Traces (items.foldlM body state) events final) :
    ∃ parts, List.Forall₂ fact items parts ∧ events = parts.flatten := by
  induction items generalizing events state with
  | nil =>
      cases ran
      exact ⟨[], .nil, rfl⟩
  | cons item rest inductionHypothesis =>
      obtain ⟨early, next, late, first, later, rfl⟩ := traces_bind ran
      obtain ⟨parts, facts, rfl⟩ := inductionHypothesis
        (fun other next nextMem => each other next (List.mem_cons_of_mem item nextMem)) later
      exact ⟨early :: parts, .cons (each state item List.mem_cons_self early next first) facts, rfl⟩

/-! ## Requests of a program -/

/-- Every request of every trace is allowed. -/
def Asks (allowed : Request → Prop) (program : Program Request Answer α) : Prop :=
  ∀ events value, Traces program events value → ∀ event ∈ events, allowed event.1

variable {allowed : Request → Prop}

theorem Asks.pure (value : α) : Asks allowed (pure value : Program Request Answer α) := by
  intro events result ran
  rw [(traces_pure ran).1]
  exact List.forall_mem_nil _

theorem Asks.perform {request : Request} (holds : allowed request) :
    Asks allowed (perform request : Program Request Answer (Answer request)) := by
  intro events answer ran
  rw [traces_perform ran]
  exact List.forall_mem_singleton.mpr holds

theorem Asks.bind {first : Program Request Answer α} {rest : α → Program Request Answer β}
    (firstAsks : Asks allowed first) (restAsks : ∀ value, Asks allowed (rest value)) :
    Asks allowed (first >>= rest) := by
  intro events result ran
  obtain ⟨early, value, late, firstRan, restRan, rfl⟩ := traces_bind ran
  exact List.forall_mem_append.mpr
    ⟨firstAsks early value firstRan, restAsks value late result restRan⟩

theorem Asks.forM {items : List β} {body : β → Program Request Answer Unit}
    (each : ∀ item, Asks allowed (body item)) : Asks allowed (items.forM body) := by
  induction items with
  | nil => exact Asks.pure ()
  | cons item rest inductionHypothesis => exact (each item).bind fun _ => inductionHypothesis

end Program

/-! ## Pools -/

/-- What surrounds the programs of a pool: how the shared state answers a
request, given a choice where the answer is not determined, which programs an
answered request starts, and what others may do to the shared state. -/
structure Surroundings (Request : Type) (Answer : Request → Type) (σ Choice Interference : Type)
    where
  answer : σ → (request : Request) → Choice → Option (Answer request × σ)
  starts : Event Request Answer → List (Program Request Answer Unit)
  interfere : σ → Interference → Option σ

/-- Programs over a shared state, with the log of all answered requests. -/
structure Pool (Request : Type) (Answer : Request → Type) (σ : Type) where
  shared : σ
  programs : List (Program Request Answer Unit)
  log : List (Event Request Answer)

/-- One program gets an answer, or another party acts. -/
inductive PoolAction (Choice Interference : Type) where
  | advance (index : Nat) (choice : Choice)
  | interfere (action : Interference)

variable {σ Choice Interference : Type}

/-- One step of a pool. -/
def poolStep (around : Surroundings Request Answer σ Choice Interference)
    (pool : Pool Request Answer σ) :
    PoolAction Choice Interference → Option (Pool Request Answer σ)
  | .advance index choice =>
      match pool.programs[index]? with
      | some (.ask request next) =>
          (around.answer pool.shared request choice).map fun answered =>
            ⟨answered.2, pool.programs.set index (next answered.1) ++
              around.starts ⟨request, answered.1⟩, pool.log ++ [⟨request, answered.1⟩]⟩
      | _ => none
  | .interfere action =>
      (around.interfere pool.shared action).map fun shared => { pool with shared := shared }

namespace Pool

/-- A pool with one program. -/
def start (shared : σ) (main : Program Request Answer Unit) : Pool Request Answer σ :=
  ⟨shared, [main], []⟩

/-- Every program has ended. -/
def Finished (pool : Pool Request Answer σ) : Prop :=
  ∀ program ∈ pool.programs, program = .done ()

/-- The log is made of one trace of each program that the pool was given or has
started. -/
def Explained (around : Surroundings Request Answer σ Choice Interference)
    (main : Program Request Answer Unit) (pool : Pool Request Answer σ) : Prop :=
  ∃ histories : List (Program Request Answer Unit × List (Event Request Answer)),
    histories.map Prod.fst = main :: pool.log.flatMap around.starts ∧
    List.Forall₂ (fun history program => Program.After history.1 history.2 program) histories
      pool.programs ∧
    pool.log.Perm (histories.flatMap Prod.snd)

variable {around : Surroundings Request Answer σ Choice Interference}
  {main : Program Request Answer Unit}

theorem explained_start (shared : σ) : Explained around main (start shared main) :=
  ⟨[(main, [])], rfl, .cons (.refl main) .nil, List.Perm.refl _⟩

/-- The history of a program that waits. -/
theorem exists_history
    {histories : List (Program Request Answer Unit × List (Event Request Answer))}
    {programs : List (Program Request Answer Unit)} {index : Nat}
    {program : Program Request Answer Unit}
    (current : List.Forall₂ (fun history program => Program.After history.1 history.2 program)
      histories programs) (found : programs[index]? = some program) :
    ∃ history, histories[index]? = some history ∧ Program.After history.1 history.2 program := by
  induction current generalizing index with
  | nil => cases found
  | cons after rest inductionHypothesis =>
      cases index with
      | zero =>
          cases found
          exact ⟨_, rfl, after⟩
      | succ index => exact inductionHypothesis found

/-- Adding one event to one history. -/
theorem set_history
    {histories : List (Program Request Answer Unit × List (Event Request Answer))}
    {programs : List (Program Request Answer Unit)} {index : Nat}
    {history : Program Request Answer Unit × List (Event Request Answer)}
    {program : Program Request Answer Unit} {event : Event Request Answer}
    (current : List.Forall₂ (fun history program => Program.After history.1 history.2 program)
      histories programs) (found : histories[index]? = some history)
    (after : Program.After history.1 (history.2 ++ [event]) program) :
    let extended := histories.set index (history.1, history.2 ++ [event])
    extended.map Prod.fst = histories.map Prod.fst ∧
      List.Forall₂ (fun history program => Program.After history.1 history.2 program) extended
        (programs.set index program) ∧
      (extended.flatMap Prod.snd).Perm (histories.flatMap Prod.snd ++ [event]) := by
  induction current generalizing index with
  | nil => cases found
  | cons first rest inductionHypothesis =>
      cases index with
      | zero =>
          cases found
          refine ⟨rfl, .cons after rest, ?_⟩
          simp only [List.set_cons_zero, List.flatMap_cons, List.append_assoc]
          exact List.Perm.append_left history.2 List.perm_append_comm
      | succ index =>
          obtain ⟨same, current, log⟩ := inductionHypothesis found
          refine ⟨?_, .cons first current, ?_⟩
          · simp only [List.set_cons_succ, List.map_cons]
            rw [same]
          · simp only [List.set_cons_succ, List.flatMap_cons, List.append_assoc]
            exact List.Perm.append_left _ log

theorem explained_step {pool next : Pool Request Answer σ}
    {action : PoolAction Choice Interference} (explained : Explained around main pool)
    (stepEq : poolStep around pool action = some next) : Explained around main next := by
  obtain ⟨histories, programs, current, log⟩ := explained
  cases action with
  | interfere action =>
      obtain ⟨shared, _, rfl⟩ := Option.map_eq_some_iff.mp stepEq
      exact ⟨histories, programs, current, log⟩
  | advance index choice =>
      simp only [poolStep] at stepEq
      split at stepEq
      next request rest found =>
        obtain ⟨answered, _, rfl⟩ := Option.map_eq_some_iff.mp stepEq
        obtain ⟨history, historyFound, after⟩ := exists_history current found
        obtain ⟨same, extended, longer⟩ :=
          set_history current historyFound (after.snoc answered.1)
        let started := around.starts ⟨request, answered.1⟩
        refine ⟨histories.set index (history.1, history.2 ++ [⟨request, answered.1⟩]) ++
          started.map fun program => (program, []), ?_, ?_, ?_⟩
        · rw [List.map_append, same, programs, List.flatMap_append, List.map_map]
          simp [started, Function.comp_def]
        · refine List.rel_append extended ?_
          rw [List.forall₂_map_left_iff, List.forall₂_same]
          exact fun program _ => .refl program
        · have none : (started.map fun program : Program Request Answer Unit =>
              (program, ([] : List (Event Request Answer)))).flatMap Prod.snd = [] := by
            simp
          rw [List.flatMap_append, none, List.append_nil]
          exact (log.append_right _).trans longer.symm
      next => cases stepEq

/-- In a finished pool every history is complete. -/
theorem ended_history
    {histories : List (Program Request Answer Unit × List (Event Request Answer))}
    {programs : List (Program Request Answer Unit)}
    (current : List.Forall₂ (fun history program => Program.After history.1 history.2 program)
      histories programs) (ended : ∀ program ∈ programs, program = .done ()) :
    ∀ history ∈ histories, Program.Traces history.1 history.2 () := by
  induction current with
  | nil => simp
  | cons after _ inductionHypothesis =>
      intro history historyMem
      rcases List.mem_cons.mp historyMem with rfl | later
      · rwa [ended _ List.mem_cons_self] at after
      · exact inductionHypothesis (fun program programMem =>
          ended program (List.mem_cons_of_mem _ programMem)) history later

/-- The log of a finished pool. -/
theorem finished_log {shared : σ} {pool : Pool Request Answer σ}
    {actions : List (PoolAction Choice Interference)}
    (runEq : run (poolStep around) (start shared main) actions = some pool)
    (finished : pool.Finished) :
    ∃ traces, List.Forall₂ (fun program events => Program.Traces program events ())
        (main :: pool.log.flatMap around.starts) traces ∧ pool.log.Perm traces.flatten := by
  have preserved : ∀ state action next, Explained around main state →
      poolStep around state action = some next → Explained around main next :=
    fun _ _ _ explained stepEq => explained_step explained stepEq
  obtain ⟨histories, programs, current, log⟩ :=
    run_invariant preserved (explained_start shared) runEq
  refine ⟨histories.map Prod.snd, ?_, log⟩
  rw [← programs, List.forall₂_map_left_iff, List.forall₂_map_right_iff, List.forall₂_same]
  intro history historyMem
  exact ended_history current finished history historyMem

/-- The step of a run that logs an event as the one at a position: the pools before
and after it, and the answer given there. -/
structure LoggedBy (around : Surroundings Request Answer σ Choice Interference)
    (first : Pool Request Answer σ) (actions : List (PoolAction Choice Interference))
    (position : Nat) (event : Event Request Answer) (before after : Pool Request Answer σ) :
    Prop where
  reached : PassedThrough (poolStep around) first actions before
  left : PassedThrough (poolStep around) first actions after
  position_eq : before.log.length = position
  logged : after.log = before.log ++ [event]
  answered : ∃ choice, around.answer before.shared event.1 choice = some (event.2, after.shared)

/-- What a step does to the shared state and to the log. -/
theorem poolStep_cases {pool next : Pool Request Answer σ}
    {action : PoolAction Choice Interference} (stepEq : poolStep around pool action = some next) :
    (∃ interference, around.interfere pool.shared interference = some next.shared ∧
      next.log = pool.log) ∨
    ∃ event choice, around.answer pool.shared event.1 choice = some (event.2, next.shared) ∧
      next.log = pool.log ++ [event] := by
  cases action with
  | interfere action =>
      obtain ⟨shared, interfered, rfl⟩ := Option.map_eq_some_iff.mp stepEq
      exact Or.inl ⟨action, interfered, rfl⟩
  | advance index choice =>
      simp only [poolStep] at stepEq
      split at stepEq
      next request rest found =>
        obtain ⟨given, gave, rfl⟩ := Option.map_eq_some_iff.mp stepEq
        exact Or.inr ⟨⟨request, given.1⟩, choice, gave, rfl⟩
      next => cases stepEq

theorem LoggedBy.longer {first before after : Pool Request Answer σ}
    {actions : List (PoolAction Choice Interference)} {position : Nat}
    {event : Event Request Answer} (logged : LoggedBy around first actions position event before
      after) (more : List (PoolAction Choice Interference)) :
    LoggedBy around first (actions ++ more) position event before after :=
  { logged with reached := logged.reached.longer more, left := logged.left.longer more }

/-- Every event of the log was logged by a step of its own. -/
theorem exists_loggedBy {shared : σ} {pool : Pool Request Answer σ}
    {actions : List (PoolAction Choice Interference)}
    (runEq : run (poolStep around) (start shared main) actions = some pool) {position : Nat}
    {event : Event Request Answer} (found : pool.log[position]? = some event) :
    ∃ before after, LoggedBy around (start shared main) actions position event before after := by
  let accounted (past : List (PoolAction Choice Interference)) (pool : Pool Request Answer σ) :
      Prop := ∀ position event, pool.log[position]? = some event → ∃ before after,
    LoggedBy around (start shared main) past position event before after
  have opening : accounted [] (start shared main) := by
    intro position event absent
    cases absent
  have preserved : ∀ past pool action next,
      run (poolStep around) (start shared main) past = some pool → accounted past pool →
      poolStep around pool action = some next → accounted (past ++ [action]) next := by
    intro past pool action next pastRun logged stepEq position event found
    rcases poolStep_cases stepEq with ⟨_, _, same⟩ | ⟨last, choice, answered, longer⟩
    · rw [same] at found
      obtain ⟨before, after, loggedBy⟩ := logged position event found
      exact ⟨before, after, loggedBy.longer [action]⟩
    · rw [longer] at found
      rcases Nat.lt_or_ge position pool.log.length with earlier | late
      · rw [List.getElem?_append_left earlier] at found
        obtain ⟨before, after, loggedBy⟩ := logged position event found
        exact ⟨before, after, loggedBy.longer [action]⟩
      · rw [List.getElem?_append_right late] at found
        obtain ⟨inside, same⟩ := List.getElem?_eq_some_iff.mp found
        rw [List.length_singleton] at inside
        rw [List.getElem_singleton] at same
        subst same
        have nextRun : run (poolStep around) (start shared main) (past ++ [action]) = some next :=
          run_append_eq_some_iff.mpr ⟨pool, pastRun, run_cons_eq_some_iff.mpr
            ⟨next, stepEq, rfl⟩⟩
        exact ⟨pool, next, (passedThrough_final pastRun).longer [action],
          passedThrough_final nextRun, by omega, longer, choice, answered⟩
  exact run_history opening preserved runEq position event found

end Pool

end Transition
