import Mathlib.Order.Defs.Unbundled
import Mathlib.Data.List.Basic

/-!
# Transactions and their rules

A transaction reads and rewrites a state and may abort.  An abort carries an
error and no state, so an aborted transaction has no effect: the caller keeps
the state it started from.

`Within` bounds a successful transaction by a relation between the states
before and after it.  `Ensures` is the usual partial-correctness judgement.
Both come with one rule for each way a transaction is built, so a property of a
long transaction follows the shape of its text.
-/

namespace Transition

variable {ε σ α β : Type}

/-- A state transformer that may abort with an error. -/
abbrev Txn (ε σ : Type) := StateT σ (Except ε)

namespace Txn

/-! ## Building blocks -/

/-- Compute a value from the current state. -/
def reads (view : σ → α) : Txn ε σ α :=
  fun state => .ok (view state, state)

/-- Rewrite the state. -/
def writes (change : σ → σ) : Txn ε σ Unit :=
  fun state => .ok ((), change state)

/-- Abort. -/
def fails (error : ε) : Txn ε σ α :=
  fun _ => .error error

/-- Abort unless a condition holds. -/
def require (condition : Bool) (error : ε) : Txn ε σ Unit :=
  if condition then pure () else fails error

/-- The value of an option, or an abort. -/
def expect (value : Option α) (error : ε) : Txn ε σ α :=
  match value with
  | some found => pure found
  | none => fails error

/-- Run a transaction on a present value. -/
def onSome (value : Option α) (body : α → Txn ε σ Unit) : Txn ε σ Unit :=
  match value with
  | some found => body found
  | none => pure ()

/-! ## Successful runs -/

@[simp]
theorem pure_eq_ok {value : α} {state : σ} {result : α × σ} :
    (pure value : Txn ε σ α) state = .ok result ↔ (value, state) = result := by
  constructor
  · intro ran
    exact Except.ok.inj ran
  · rintro rfl
    rfl

theorem bind_of_ok {first : Txn ε σ α} {rest : α → Txn ε σ β} {state middle : σ} {value : α}
    (ran : first state = .ok (value, middle)) : (first >>= rest) state = rest value middle :=
  congrArg (fun outcome => outcome.bind fun pair => rest pair.1 pair.2) ran

theorem bind_of_error {first : Txn ε σ α} {rest : α → Txn ε σ β} {state : σ} {error : ε}
    (ran : first state = .error error) : (first >>= rest) state = .error error :=
  congrArg (fun outcome => outcome.bind fun pair => rest pair.1 pair.2) ran

theorem bind_eq_ok {first : Txn ε σ α} {rest : α → Txn ε σ β} {state : σ} {result : β × σ} :
    (first >>= rest) state = .ok result ↔
      ∃ value middle, first state = .ok (value, middle) ∧ rest value middle = .ok result := by
  constructor
  · intro ran
    cases firstRan : first state with
    | error error =>
        rw [bind_of_error firstRan] at ran
        cases ran
    | ok pair =>
        rw [bind_of_ok firstRan] at ran
        exact ⟨pair.1, pair.2, rfl, ran⟩
  · rintro ⟨value, middle, firstRan, restRan⟩
    rw [bind_of_ok firstRan]
    exact restRan

@[simp]
theorem reads_eq_ok {view : σ → α} {state : σ} {result : α × σ} :
    (reads view : Txn ε σ α) state = .ok result ↔ (view state, state) = result := by
  simp [reads]

@[simp]
theorem writes_eq_ok {change : σ → σ} {state : σ} {result : Unit × σ} :
    (writes change : Txn ε σ Unit) state = .ok result ↔ ((), change state) = result := by
  simp [writes]

@[simp]
theorem fails_eq_ok {error : ε} {state : σ} {result : α × σ} :
    (fails error : Txn ε σ α) state = .ok result ↔ False := by
  simp [fails]

@[simp]
theorem require_eq_ok {condition : Bool} {error : ε} {state : σ} {result : Unit × σ} :
    (require condition error : Txn ε σ Unit) state = .ok result ↔
      condition = true ∧ ((), state) = result := by
  cases condition <;> simp [require]

@[simp]
theorem expect_eq_ok {value : Option α} {error : ε} {state : σ} {result : α × σ} :
    (expect value error : Txn ε σ α) state = .ok result ↔
      ∃ found, value = some found ∧ (found, state) = result := by
  cases value <;> simp [expect]

/-- A check that holds may be skipped. -/
theorem require_bind_of_holds {condition : Bool} {error : ε} {rest : Unit → Txn ε σ β}
    {state : σ} (holds : condition = true) :
    (require condition error >>= rest) state = rest () state := by
  rw [holds]
  rfl

/-- A value that is present may be named. -/
theorem expect_bind_of_some {value : Option α} {error : ε} {rest : α → Txn ε σ β} {state : σ}
    {found : α} (present : value = some found) :
    (expect value error >>= rest) state = rest found state := by
  rw [present]
  rfl

/-- A fact that every successful item establishes holds of all items of a
successful loop. -/
theorem forM_ok_forall {items : List α} {body : α → Txn ε σ Unit} {fact : α → Prop}
    (establishes : ∀ item state value next, body item state = .ok (value, next) → fact item)
    {state : σ} {result : Unit × σ} (ran : items.forM body state = .ok result) :
    ∀ item ∈ items, fact item := by
  induction items generalizing state with
  | nil => simp
  | cons item rest inductionHypothesis =>
      rw [List.forM_eq_forM, List.forM_cons] at ran
      obtain ⟨_, _, itemRan, restRan⟩ := bind_eq_ok.mp ran
      intro other otherMem
      rcases List.mem_cons.mp otherMem with rfl | later
      · exact establishes other _ _ _ itemRan
      · exact inductionHypothesis restRan other later

theorem mapM_ok_forall {items : List α} {body : α → Txn ε σ β} {fact : α → Prop}
    (establishes : ∀ item state value next, body item state = .ok (value, next) → fact item)
    {state : σ} {result : List β × σ} (ran : items.mapM body state = .ok result) :
    ∀ item ∈ items, fact item := by
  induction items generalizing state result with
  | nil => simp
  | cons item rest inductionHypothesis =>
      rw [List.mapM_cons] at ran
      obtain ⟨_, _, itemRan, ran⟩ := bind_eq_ok.mp ran
      obtain ⟨_, _, restRan, _⟩ := bind_eq_ok.mp ran
      intro other otherMem
      rcases List.mem_cons.mp otherMem with rfl | later
      · exact establishes other _ _ _ itemRan
      · exact inductionHypothesis restRan other later

theorem mapM_ok_length {items : List α} {body : α → Txn ε σ β} {state : σ}
    {result : List β × σ} (ran : items.mapM body state = .ok result) :
    result.1.length = items.length := by
  induction items generalizing state result with
  | nil =>
      cases pure_eq_ok.mp ran
      rfl
  | cons item rest inductionHypothesis =>
      rw [List.mapM_cons] at ran
      obtain ⟨_, _, _, ran⟩ := bind_eq_ok.mp ran
      obtain ⟨_, _, restRan, done⟩ := bind_eq_ok.mp ran
      cases pure_eq_ok.mp done
      simpa using inductionHypothesis restRan

/-! ## Relating the states before and after -/

/-- A successful run relates the state before to the state after. -/
def Within (relation : σ → σ → Prop) (body : Txn ε σ α) : Prop :=
  ∀ ⦃state value next⦄, body state = .ok (value, next) → relation state next

namespace Within

variable {relation : σ → σ → Prop}

theorem mono {stronger : σ → σ → Prop} {body : Txn ε σ α} (inner : Within stronger body)
    (weaken : ∀ state next, stronger state next → relation state next) :
    Within relation body := by
  intro state value next ran
  exact weaken state next (inner ran)

/-- Consecutive parts may be bounded by different relations. -/
theorem comp {early late : σ → σ → Prop} {first : Txn ε σ α} {rest : α → Txn ε σ β}
    (firstWithin : Within early first) (restWithin : ∀ value, Within late (rest value))
    (compose : ∀ state middle next, early state middle → late middle next →
      relation state next) :
    Within relation (first >>= rest) := by
  intro state value next ran
  obtain ⟨_, middle, firstRan, restRan⟩ := bind_eq_ok.mp ran
  exact compose state middle next (firstWithin firstRan) (restWithin _ restRan)

theorem bind [IsTrans σ relation] {first : Txn ε σ α} {rest : α → Txn ε σ β}
    (firstWithin : Within relation first) (restWithin : ∀ value, Within relation (rest value)) :
    Within relation (first >>= rest) := by
  intro state value next ran
  obtain ⟨_, middle, firstRan, restRan⟩ := bind_eq_ok.mp ran
  exact IsTrans.trans state middle next (firstWithin firstRan) (restWithin _ restRan)

/-- A continuation only has to be considered at values the first part returns. -/
theorem bind_of [IsTrans σ relation] {first : Txn ε σ α} {rest : α → Txn ε σ β}
    (firstWithin : Within relation first)
    (restWithin : ∀ state value next, first state = .ok (value, next) →
      ∀ result final, rest value next = .ok (result, final) → relation next final) :
    Within relation (first >>= rest) := by
  intro state value next ran
  obtain ⟨firstValue, middle, firstRan, restRan⟩ := bind_eq_ok.mp ran
  exact IsTrans.trans state middle next (firstWithin firstRan)
    (restWithin state firstValue middle firstRan value next restRan)

theorem writes {change : σ → σ} (step : ∀ state, relation state (change state)) :
    Within relation (writes change : Txn ε σ Unit) := by
  intro state value next ran
  cases writes_eq_ok.mp ran
  exact step state

theorem fails {error : ε} : Within relation (fails error : Txn ε σ α) := by
  intro state value next ran
  cases fails_eq_ok.mp ran

/-- Compute the next value of a part of the state, abort if there is none, and
store it. -/
theorem reads_expect_writes {view : σ → Option β} {error : ε} {change : β → σ → σ}
    (step : ∀ state found, view state = some found → relation state (change found state)) :
    Within relation (Txn.reads view >>= fun next =>
      Txn.expect next error >>= fun found => (Txn.writes (change found) : Txn ε σ Unit)) := by
  intro state value next ran
  obtain ⟨_, _, readRan, ran⟩ := bind_eq_ok.mp ran
  cases reads_eq_ok.mp readRan
  obtain ⟨_, _, expectRan, written⟩ := bind_eq_ok.mp ran
  obtain ⟨_, present, equal⟩ := expect_eq_ok.mp expectRan
  cases equal
  cases writes_eq_ok.mp written
  exact step state _ present

variable [Std.Refl relation]

theorem pure {value : α} : Within relation (pure value : Txn ε σ α) := by
  intro state result next ran
  cases pure_eq_ok.mp ran
  exact Std.Refl.refl state

theorem reads {view : σ → α} : Within relation (reads view : Txn ε σ α) := by
  intro state value next ran
  cases reads_eq_ok.mp ran
  exact Std.Refl.refl state

theorem require {condition : Bool} {error : ε} :
    Within relation (require condition error : Txn ε σ Unit) := by
  intro state value next ran
  cases (require_eq_ok.mp ran).2
  exact Std.Refl.refl state

theorem expect {value : Option α} {error : ε} :
    Within relation (expect value error : Txn ε σ α) := by
  intro state result next ran
  obtain ⟨_, _, equal⟩ := expect_eq_ok.mp ran
  cases equal
  exact Std.Refl.refl state

theorem onSome {value : Option α} {body : α → Txn ε σ Unit}
    (bodyWithin : ∀ found, value = some found → Within relation (body found)) :
    Within relation (onSome value body) := by
  cases present : value with
  | none => exact pure
  | some found => exact bodyWithin found present

theorem forM [IsTrans σ relation] {items : List α} {body : α → Txn ε σ Unit}
    (bodyWithin : ∀ item ∈ items, Within relation (body item)) :
    Within relation (items.forM body) := by
  induction items with
  | nil => exact pure
  | cons item rest inductionHypothesis =>
      rw [List.forM_eq_forM, List.forM_cons]
      apply bind (bodyWithin item List.mem_cons_self)
      intro _
      apply inductionHypothesis
      intro later laterMem
      exact bodyWithin later (List.mem_cons_of_mem item laterMem)

theorem mapM [IsTrans σ relation] {items : List α} {body : α → Txn ε σ β}
    (bodyWithin : ∀ item ∈ items, Within relation (body item)) :
    Within relation (items.mapM body) := by
  induction items with
  | nil => exact pure
  | cons item rest inductionHypothesis =>
      rw [List.mapM_cons]
      apply bind (bodyWithin item List.mem_cons_self)
      intro _
      apply bind
      · apply inductionHypothesis
        intro later laterMem
        exact bodyWithin later (List.mem_cons_of_mem item laterMem)
      · intro _
        exact pure

theorem foldlM [IsTrans σ relation] {items : List α} {body : β → α → Txn ε σ β} {start : β}
    (bodyWithin : ∀ state, ∀ item ∈ items, Within relation (body state item)) :
    Within relation (items.foldlM body start) := by
  induction items generalizing start with
  | nil => exact pure
  | cons item rest inductionHypothesis =>
      rw [List.foldlM_cons]
      apply bind (bodyWithin start item List.mem_cons_self)
      intro state
      apply inductionHypothesis
      intro later laterItem laterMem
      exact bodyWithin later laterItem (List.mem_cons_of_mem item laterMem)

end Within

/-! ## Unchanged parts of the state -/

/-- Two states agree on a view. -/
def Keeps (view : σ → β) (state next : σ) : Prop :=
  view next = view state

instance (view : σ → β) : Std.Refl (Keeps view) :=
  ⟨fun _ => rfl⟩

instance (view : σ → β) : IsTrans σ (Keeps view) :=
  ⟨fun _ _ _ early late => Eq.trans late early⟩

/-- A transaction that leaves the state as it was. -/
abbrev ReadsOnly (body : Txn ε σ α) : Prop :=
  Within (Keeps fun state => state) body

theorem ReadsOnly.within {relation : σ → σ → Prop} [Std.Refl relation] {body : Txn ε σ α}
    (reads : ReadsOnly body) : Within relation body :=
  reads.mono fun state next same => by
    rw [show next = state from same]
    exact Std.Refl.refl state

/-- A check at the head of a successful transaction passed and left the state. -/
theorem ReadsOnly.of_bind {first : Txn ε σ α} {rest : α → Txn ε σ β} {state : σ}
    {result : β × σ} (reads : ReadsOnly first) (ran : (first >>= rest) state = .ok result) :
    ∃ value, first state = .ok (value, state) ∧ rest value state = .ok result := by
  obtain ⟨value, middle, firstRan, restRan⟩ := bind_eq_ok.mp ran
  have same : middle = state := reads firstRan
  subst same
  exact ⟨value, firstRan, restRan⟩

/-- Each check of a successful loop of checks passes where the loop starts. -/
theorem ReadsOnly.of_forM {items : List α} {body : α → Txn ε σ Unit} {state : σ}
    {result : Unit × σ} (reads : ∀ item, ReadsOnly (body item))
    (ran : items.forM body state = .ok result) :
    ∀ item ∈ items, body item state = .ok ((), state) := by
  induction items with
  | nil => exact fun _ absent => absurd absent List.not_mem_nil
  | cons item rest inductionHypothesis =>
      rw [List.forM_eq_forM, List.forM_cons] at ran
      obtain ⟨_, itemRan, restRan⟩ := (reads item).of_bind ran
      intro other otherMem
      rcases List.mem_cons.mp otherMem with rfl | later
      · exact itemRan
      · exact inductionHypothesis restRan other later

theorem of_require_bind {condition : Bool} {error : ε} {rest : Unit → Txn ε σ β} {state : σ}
    {result : β × σ} (ran : (require condition error >>= rest) state = .ok result) :
    condition = true ∧ rest () state = .ok result := by
  obtain ⟨_, checked, restRan⟩ := ReadsOnly.of_bind Within.require ran
  exact ⟨(require_eq_ok.mp checked).1, restRan⟩

theorem of_reads_bind {view : σ → α} {rest : α → Txn ε σ β} {state : σ} {result : β × σ}
    (ran : (reads view >>= rest) state = .ok result) : rest (view state) state = .ok result :=
  ran

theorem of_expect_bind {value : Option α} {error : ε} {rest : α → Txn ε σ β} {state : σ}
    {result : β × σ} (ran : (expect value error >>= rest) state = .ok result) :
    ∃ found, value = some found ∧ rest found state = .ok result := by
  obtain ⟨found, expected, restRan⟩ := ReadsOnly.of_bind Within.expect ran
  obtain ⟨_, present, equal⟩ := expect_eq_ok.mp expected
  cases equal
  exact ⟨found, present, restRan⟩

/-- Checks before a transaction do not weaken its bound. -/
theorem ReadsOnly.bind_within {relation : σ → σ → Prop} {first : Txn ε σ α}
    {rest : α → Txn ε σ β} (reads : ReadsOnly first)
    (restWithin : ∀ state value next, first state = .ok (value, next) →
      Within relation (rest value)) : Within relation (first >>= rest) := by
  intro state value next ran
  obtain ⟨firstValue, middle, firstRan, restRan⟩ := bind_eq_ok.mp ran
  have same : middle = state := reads firstRan
  subst same
  exact restWithin middle firstValue middle firstRan restRan

/-! ## Preconditions and postconditions -/

/-- From a state that meets the precondition, every successful run ends in the
postcondition. -/
def Ensures (before : σ → Prop) (body : Txn ε σ α) (after : α → σ → Prop) : Prop :=
  ∀ ⦃state value next⦄, before state → body state = .ok (value, next) → after value next

namespace Ensures

variable {before : σ → Prop}

theorem forM_keeps {items : List α} {body : α → Txn ε σ Unit} {fact : β → σ → Prop}
    (keeps : ∀ item ∈ items,
      Within (fun state next => ∀ other, fact other state → fact other next) (body item))
    {state next : σ} {value : Unit} (ran : items.forM body state = .ok (value, next)) :
    ∀ other, fact other state → fact other next := by
  induction items generalizing state with
  | nil =>
      cases pure_eq_ok.mp ran
      exact fun _ held => held
  | cons item rest inductionHypothesis =>
      rw [List.forM_eq_forM, List.forM_cons] at ran
      obtain ⟨_, _, itemRan, restRan⟩ := bind_eq_ok.mp ran
      intro other held
      exact inductionHypothesis (fun later laterMem => keeps later (List.mem_cons_of_mem item laterMem))
        restRan other (keeps item List.mem_cons_self itemRan other held)

theorem bind {first : Txn ε σ α} {rest : α → Txn ε σ β} {between : α → σ → Prop}
    {after : β → σ → Prop} (firstEnsures : Ensures before first between)
    (restEnsures : ∀ value, Ensures (between value) (rest value) after) :
    Ensures before (first >>= rest) after := by
  intro state value next holds ran
  obtain ⟨_, _, firstRan, restRan⟩ := bind_eq_ok.mp ran
  exact restEnsures _ (firstEnsures holds firstRan) restRan

theorem of_within {relation : σ → σ → Prop} {body : Txn ε σ α} {after : α → σ → Prop}
    (bodyWithin : Within relation body)
    (carry : ∀ state value next, before state → relation state next → after value next) :
    Ensures before body after := by
  intro state value next holds ran
  exact carry state value next holds (bodyWithin ran)

theorem mono {body : Txn ε σ α} {stronger : σ → Prop} {inner after : α → σ → Prop}
    (bodyEnsures : Ensures stronger body inner) (enter : ∀ state, before state → stronger state)
    (leave : ∀ value next, inner value next → after value next) :
    Ensures before body after := by
  intro state value next holds ran
  exact leave value next (bodyEnsures (enter state holds) ran)

theorem pure {value : α} {after : α → σ → Prop} (holds : ∀ state, before state → after value state) :
    Ensures before (pure value : Txn ε σ α) after := by
  intro state result next held ran
  cases pure_eq_ok.mp ran
  exact holds state held

/-- What a part does not need, it need not say. -/
theorem after_bind {first : Txn ε σ α} {rest : α → Txn ε σ β} {after : β → σ → Prop}
    (restEnsures : ∀ value, Ensures (fun _ => True) (rest value) after) :
    Ensures before (first >>= rest) after := by
  intro state value next _ ran
  obtain ⟨_, _, _, restRan⟩ := bind_eq_ok.mp ran
  exact restEnsures _ trivial restRan

theorem require_bind {condition : Bool} {error : ε} {rest : Unit → Txn ε σ β}
    {after : β → σ → Prop} (restEnsures : condition = true → Ensures before (rest ()) after) :
    Ensures before (require condition error >>= rest) after := by
  intro state value next held ran
  obtain ⟨holds, restRan⟩ := of_require_bind ran
  exact restEnsures holds held restRan

/-- A condition that the first part keeps is there for the rest. -/
theorem keeping_bind {first : Txn ε σ α} {rest : α → Txn ε σ β} {after : β → σ → Prop}
    (firstEnsures : Ensures before first fun _ => before)
    (restEnsures : ∀ value, Ensures before (rest value) after) :
    Ensures before (first >>= rest) after :=
  bind firstEnsures restEnsures

/-- A loop in which every item establishes its fact and keeps the facts of the
others establishes all of them. -/
theorem forM {items : List α} {body : α → Txn ε σ Unit} {fact : α → σ → Prop}
    (establishes : ∀ item ∈ items, Ensures (fun _ => True) (body item) fun _ => fact item)
    (keeps : ∀ item ∈ items,
      Within (fun state next => ∀ other, fact other state → fact other next) (body item)) :
    Ensures (fun _ => True) (items.forM body) fun _ state => ∀ item ∈ items, fact item state := by
  intro state value next _ ran
  induction items generalizing state with
  | nil => simp
  | cons item rest inductionHypothesis =>
      rw [List.forM_eq_forM, List.forM_cons] at ran
      obtain ⟨_, middle, itemRan, restRan⟩ := bind_eq_ok.mp ran
      have early := establishes item List.mem_cons_self trivial itemRan
      have laterKeeps : ∀ later ∈ rest, Within
          (fun state next => ∀ other, fact other state → fact other next) (body later) :=
        fun later laterMem => keeps later (List.mem_cons_of_mem item laterMem)
      intro other otherMem
      rcases List.mem_cons.mp otherMem with rfl | later
      · exact forM_keeps laterKeeps restRan other early
      · exact inductionHypothesis
          (fun later laterMem => establishes later (List.mem_cons_of_mem item laterMem))
          laterKeeps restRan other later

end Ensures

end Txn

end Transition
