import Mathlib.Data.List.Basic

/-!
# Checked computations

Rules for computations in `Except`: what a successful sequence, check or loop
says about its parts.
-/

namespace Transition.Checked

variable {ε α β : Type}

/-- Fail unless a condition holds. -/
def ensure (condition : Bool) (error : ε) : Except ε Unit :=
  if condition then .ok () else .error error

theorem bind_eq_ok {first : Except ε α} {rest : α → Except ε β} {result : β} :
    (first >>= rest) = .ok result ↔ ∃ value, first = .ok value ∧ rest value = .ok result := by
  cases first with
  | error error => simp [bind, Except.bind]
  | ok value => simp [bind, Except.bind]

@[simp]
theorem ensure_eq_ok {condition : Bool} {error : ε} {done : Unit} :
    ensure condition error = .ok done ↔ condition = true := by
  cases condition <;> simp [ensure]

/-- A check at the head of a successful computation passed. -/
theorem of_ensure_bind {condition : Bool} {error : ε} {rest : Unit → Except ε β} {result : β}
    (ran : (ensure condition error >>= rest) = .ok result) :
    condition = true ∧ rest () = .ok result := by
  obtain ⟨_, checked, continued⟩ := bind_eq_ok.mp ran
  exact ⟨ensure_eq_ok.mp checked, continued⟩

/-- Fail with the error of a found objection. -/
def refuse (objection : Option α) (error : α → ε) : Except ε Unit :=
  match objection with
  | none => .ok ()
  | some found => .error (error found)

@[simp]
theorem refuse_eq_ok {objection : Option α} {error : α → ε} {done : Unit} :
    refuse objection error = .ok done ↔ objection = none := by
  cases objection <;> simp [refuse]

/-- An objection check at the head of a successful computation found nothing. -/
theorem of_refuse_bind {objection : Option α} {error : α → ε} {rest : Unit → Except ε β}
    {result : β} (ran : (refuse objection error >>= rest) = .ok result) :
    objection = none ∧ rest () = .ok result := by
  obtain ⟨_, checked, continued⟩ := bind_eq_ok.mp ran
  exact ⟨refuse_eq_ok.mp checked, continued⟩

theorem forM_ok_forall {items : List α} {body : α → Except ε Unit} {done : Unit}
    (ran : items.forM body = .ok done) : ∀ item ∈ items, body item = .ok () := by
  induction items with
  | nil => simp
  | cons item rest inductionHypothesis =>
      rw [List.forM_eq_forM, List.forM_cons] at ran
      obtain ⟨_, itemRan, restRan⟩ := bind_eq_ok.mp ran
      intro other otherMem
      rcases List.mem_cons.mp otherMem with rfl | later
      · exact itemRan
      · exact inductionHypothesis restRan other later

/-- A loop whose every round succeeds succeeds. -/
theorem forM_ok_of_forall {items : List α} {body : α → Except ε Unit}
    (each : ∀ item ∈ items, body item = .ok ()) : items.forM body = .ok () := by
  induction items with
  | nil => rfl
  | cons item rest inductionHypothesis =>
      rw [List.forM_eq_forM, List.forM_cons, bind_eq_ok]
      exact ⟨(), each item List.mem_cons_self, inductionHypothesis fun other later =>
        each other (List.mem_cons_of_mem item later)⟩

/-- A search whose every test succeeds finds what the tests find. -/
theorem anyM_ok {items : List α} {test : α → Except ε Bool} {holds : α → Bool}
    (each : ∀ item ∈ items, test item = .ok (holds item)) :
    items.anyM test = .ok (items.any holds) := by
  induction items with
  | nil => rfl
  | cons item rest inductionHypothesis =>
      have later := inductionHypothesis fun other placed => each other (List.mem_cons_of_mem item placed)
      rw [List.anyM, each item List.mem_cons_self, List.any_cons]
      cases holds item with
      | true => rfl
      | false => exact later

theorem map_eq_ok {body : Except ε α} {change : α → β} {result : β} :
    body.map change = .ok result ↔ ∃ value, body = .ok value ∧ change value = result := by
  cases body <;> simp [Except.map]

@[simp]
theorem mapError_eq_ok {δ : Type} {body : Except ε α} {change : ε → δ} {result : α} :
    body.mapError change = .ok result ↔ body = .ok result := by
  cases body <;> simp [Except.mapError]

/-- A successful traversal succeeds at every item. -/
theorem mapM_ok_forall {items : List α} {body : α → Except ε β} {results : List β}
    (ran : items.mapM body = .ok results) :
    ∀ item ∈ items, ∃ result ∈ results, body item = .ok result := by
  induction items generalizing results with
  | nil => simp
  | cons item rest inductionHypothesis =>
      rw [List.mapM_cons] at ran
      obtain ⟨first, firstRan, ran⟩ := bind_eq_ok.mp ran
      obtain ⟨others, othersRan, done⟩ := bind_eq_ok.mp ran
      cases done
      intro other otherMem
      rcases List.mem_cons.mp otherMem with rfl | later
      · exact ⟨first, List.mem_cons_self, firstRan⟩
      · obtain ⟨result, resultMem, resultRan⟩ := inductionHypothesis othersRan other later
        exact ⟨result, List.mem_cons_of_mem first resultMem, resultRan⟩

/-- A traversal that succeeds at every item succeeds. -/
theorem exists_mapM_ok {items : List α} {body : α → Except ε β}
    (each : ∀ item ∈ items, ∃ result, body item = .ok result) :
    ∃ results, items.mapM body = .ok results := by
  induction items with
  | nil => exact ⟨[], rfl⟩
  | cons item rest inductionHypothesis =>
      obtain ⟨first, firstRan⟩ := each item List.mem_cons_self
      obtain ⟨others, othersRan⟩ := inductionHypothesis fun other later =>
        each other (List.mem_cons_of_mem item later)
      refine ⟨first :: others, ?_⟩
      rw [List.mapM_cons, bind_eq_ok]
      exact ⟨first, firstRan, bind_eq_ok.mpr ⟨others, othersRan, rfl⟩⟩

/-- A traversal succeeds where its body does at every item. -/
theorem mapM_eq_ok_iff {items : List α} {body : α → Except ε β} {passes : α → Prop}
    {result : α → β} (each : ∀ item value, body item = .ok value ↔ passes item ∧ value = result item)
    {results : List β} :
    items.mapM body = .ok results ↔ (∀ item ∈ items, passes item) ∧ results = items.map result := by
  induction items generalizing results with
  | nil =>
      rw [List.mapM_nil]
      change Except.ok [] = _ ↔ _
      simp [eq_comm]
  | cons item rest inductionHypothesis =>
      simp only [List.mapM_cons, bind_eq_ok, each, inductionHypothesis, List.forall_mem_cons]
      constructor
      · rintro ⟨first, ⟨passed, rfl⟩, others, ⟨restPassed, rfl⟩, done⟩
        cases done
        exact ⟨⟨passed, restPassed⟩, rfl⟩
      · rintro ⟨⟨passed, restPassed⟩, rfl⟩
        exact ⟨_, ⟨passed, rfl⟩, _, ⟨restPassed, rfl⟩, rfl⟩

/-- A fold succeeds where each of its steps does. -/
theorem foldlM_eq_ok_iff {items : List α} {body : β → α → Except ε β} {passes : α → Prop}
    {result : β → α → β}
    (each : ∀ value item next,
      body value item = .ok next ↔ passes item ∧ next = result value item) {value final : β} :
    items.foldlM body value = .ok final ↔
      (∀ item ∈ items, passes item) ∧ final = items.foldl result value := by
  induction items generalizing value with
  | nil =>
      rw [List.foldlM_nil]
      change Except.ok value = _ ↔ _
      simp [eq_comm]
  | cons item rest inductionHypothesis =>
      simp only [List.foldlM_cons, bind_eq_ok, each, inductionHypothesis, List.forall_mem_cons,
        List.foldl_cons]
      constructor
      · rintro ⟨next, ⟨passed, rfl⟩, restPassed, rfl⟩
        exact ⟨⟨passed, restPassed⟩, rfl⟩
      · rintro ⟨⟨passed, restPassed⟩, rfl⟩
        exact ⟨_, ⟨passed, rfl⟩, restPassed, rfl⟩

/-- Every result of a traversal comes from an item. -/
theorem exists_of_mem_mapM {items : List α} {body : α → Except ε β} {results : List β}
    (ran : items.mapM body = .ok results) {result : β} (member : result ∈ results) :
    ∃ item ∈ items, body item = .ok result := by
  induction items generalizing results with
  | nil =>
      cases ran
      cases member
  | cons item rest inductionHypothesis =>
      rw [List.mapM_cons] at ran
      obtain ⟨first, firstRan, ran⟩ := bind_eq_ok.mp ran
      obtain ⟨others, othersRan, done⟩ := bind_eq_ok.mp ran
      cases done
      rcases List.mem_cons.mp member with rfl | later
      · exact ⟨item, List.mem_cons_self, firstRan⟩
      · obtain ⟨source, sourceMem, sourceRan⟩ := inductionHypothesis othersRan later
        exact ⟨source, List.mem_cons_of_mem item sourceMem, sourceRan⟩

/-- A successful selection keeps exactly what its test keeps, and tests all. -/
theorem filterMapM_ok {items : List α} {body : α → Except ε (Option β)} {results : List β}
    (ran : items.filterMapM body = .ok results) :
    (∀ item ∈ items, ∃ kept, body item = .ok kept) ∧
      ∀ result, result ∈ results ↔ ∃ item ∈ items, body item = .ok (some result) := by
  induction items generalizing results with
  | nil =>
      cases ran
      simp
  | cons item rest inductionHypothesis =>
      rw [List.filterMapM_cons] at ran
      obtain ⟨kept, keptRan, ran⟩ := bind_eq_ok.mp ran
      cases kept with
      | none =>
          obtain ⟨tested, described⟩ := inductionHypothesis ran
          constructor
          · intro other otherMem
            rcases List.mem_cons.mp otherMem with rfl | later
            · exact ⟨none, keptRan⟩
            · exact tested other later
          · intro result
            simp [described, keptRan]
      | some value =>
          obtain ⟨others, othersRan, done⟩ := bind_eq_ok.mp ran
          cases done
          obtain ⟨tested, described⟩ := inductionHypothesis othersRan
          constructor
          · intro other otherMem
            rcases List.mem_cons.mp otherMem with rfl | later
            · exact ⟨some value, keptRan⟩
            · exact tested other later
          · intro result
            simp [described, keptRan, eq_comm]

/-- A selection whose every test succeeds succeeds. -/
theorem exists_filterMapM_ok {items : List α} {body : α → Except ε (Option β)}
    (each : ∀ item ∈ items, ∃ kept, body item = .ok kept) :
    ∃ results, items.filterMapM body = .ok results := by
  induction items with
  | nil => exact ⟨[], rfl⟩
  | cons item rest inductionHypothesis =>
      obtain ⟨kept, keptRan⟩ := each item List.mem_cons_self
      obtain ⟨others, othersRan⟩ := inductionHypothesis fun other later =>
        each other (List.mem_cons_of_mem item later)
      rw [List.filterMapM_cons]
      cases kept with
      | none => exact ⟨others, bind_eq_ok.mpr ⟨none, keptRan, othersRan⟩⟩
      | some value =>
          exact ⟨value :: others,
            bind_eq_ok.mpr ⟨some value, keptRan, bind_eq_ok.mpr ⟨others, othersRan, rfl⟩⟩⟩

/-- A property that every step of a loop keeps holds at its end. -/
theorem foldlM_invariant {items : List α} {body : β → α → Except ε β} {holds : β → Prop}
    (keeps : ∀ state, ∀ item ∈ items, ∀ next, holds state → body state item = .ok next →
      holds next) :
    ∀ {start final : β}, holds start → items.foldlM body start = .ok final → holds final := by
  induction items with
  | nil =>
      intro start final held ran
      cases ran
      exact held
  | cons item rest inductionHypothesis =>
      intro start final held ran
      rw [List.foldlM_cons] at ran
      obtain ⟨middle, stepRan, restRan⟩ := bind_eq_ok.mp ran
      exact inductionHypothesis
        (fun state later laterMem => keeps state later (List.mem_cons_of_mem item laterMem))
        (keeps start item List.mem_cons_self middle held stepRan) restRan

/-- A loop that appends to a part of its state appends what each item adds. -/
theorem foldlM_appends {γ : Type} {items : List α} {body : β → α → Except ε β}
    (part : β → List γ) (adds : α → List γ)
    (each : ∀ state item next, body state item = .ok next → part next = part state ++ adds item)
    {start final : β} (ran : items.foldlM body start = .ok final) :
    part final = part start ++ items.flatMap adds := by
  induction items generalizing start with
  | nil =>
      cases ran
      simp
  | cons item rest inductionHypothesis =>
      rw [List.foldlM_cons] at ran
      obtain ⟨middle, stepRan, restRan⟩ := bind_eq_ok.mp ran
      rw [inductionHypothesis restRan, each start item middle stepRan, List.flatMap_cons,
        List.append_assoc]

/-- A part of the state that no pass changes. -/
theorem foldlM_leaves {γ : Type} {items : List α} {body : β → α → Except ε β} (part : β → γ)
    (each : ∀ state item next, body state item = .ok next → part next = part state)
    {start final : β} (ran : items.foldlM body start = .ok final) : part final = part start := by
  induction items generalizing start with
  | nil =>
      cases ran
      rfl
  | cons item rest inductionHypothesis =>
      rw [List.foldlM_cons] at ran
      obtain ⟨middle, stepRan, restRan⟩ := bind_eq_ok.mp ran
      rw [inductionHypothesis restRan, each start item middle stepRan]

/-! ## Errors -/

section Errors

variable {δ : Type} {shown : ε → δ}

/-- Sequences agree up to what their errors show where their parts do. -/
theorem bind_mapError_congr {first other : Except ε α} {rest otherRest : α → Except ε β}
    (heads : first.mapError shown = other.mapError shown)
    (rests : ∀ value, (rest value).mapError shown = (otherRest value).mapError shown) :
    (first >>= rest).mapError shown = (other >>= otherRest).mapError shown := by
  cases first with
  | error error =>
      cases other with
      | error otherError => exact congrArg Except.error (Except.error.inj heads)
      | ok value => cases heads
  | ok value =>
      cases other with
      | error error => cases heads
      | ok otherValue =>
          cases heads
          exact rests value

theorem refuse_mapError_congr {objection : Option α} {error otherError : α → ε}
    (same : ∀ found, shown (error found) = shown (otherError found)) :
    (refuse objection error).mapError shown = (refuse objection otherError).mapError shown := by
  cases objection with
  | none => rfl
  | some found => exact congrArg Except.error (same found)

theorem forM_mapError_congr {items : List α} {body otherBody : α → Except ε Unit}
    (each : ∀ item, (body item).mapError shown = (otherBody item).mapError shown) :
    (items.forM body).mapError shown = (items.forM otherBody).mapError shown := by
  induction items with
  | nil => rfl
  | cons item rest inductionHypothesis =>
      rw [List.forM_eq_forM, List.forM_cons, List.forM_cons]
      exact bind_mapError_congr (each item) fun _ => inductionHypothesis

/-- Computations that agree up to what their errors show succeed together. -/
theorem ok_iff_of_mapError_eq {first other : Except ε α}
    (same : first.mapError shown = other.mapError shown) {value : α} :
    first = .ok value ↔ other = .ok value := by
  rw [← @mapError_eq_ok _ _ _ first shown, same, mapError_eq_ok]

/-- Whatever a computation fails with has a property. -/
def FailsWith (holds : ε → Prop) (body : Except ε α) : Prop :=
  ∀ error, body = .error error → holds error

variable {holds : ε → Prop}

theorem FailsWith.bind {first : Except ε α} {rest : α → Except ε β}
    (head : FailsWith holds first) (rests : ∀ value, FailsWith holds (rest value)) :
    FailsWith holds (first >>= rest) := by
  intro error failed
  cases first with
  | error early => exact head error (congrArg Except.error (Except.error.inj failed))
  | ok value => exact rests value error failed

theorem FailsWith.ok (value : α) : FailsWith holds (.ok value) := by
  intro error failed
  cases failed

theorem FailsWith.map {body : Except ε α} (inner : FailsWith holds body) (change : α → β) :
    FailsWith holds (body.map change) := by
  cases body with
  | error early => exact fun error failed => inner error (by cases failed; rfl)
  | ok value => exact FailsWith.ok (change value)

theorem FailsWith.mapOption {item : Option α} {body : α → Except ε β}
    (each : ∀ value, FailsWith holds (body value)) : FailsWith holds (item.mapM body) := by
  cases item with
  | none => exact FailsWith.ok none
  | some value => exact (each value).map some

theorem FailsWith.refuse {objection : Option α} {error : α → ε}
    (each : ∀ found, objection = some found → holds (error found)) :
    FailsWith holds (refuse objection error) := by
  intro raised failed
  cases objection with
  | none => cases failed
  | some found =>
      cases failed
      exact each found rfl

theorem FailsWith.forM {items : List α} {body : α → Except ε Unit}
    (each : ∀ item ∈ items, FailsWith holds (body item)) : FailsWith holds (items.forM body) := by
  induction items with
  | nil =>
      intro error failed
      cases failed
  | cons item rest inductionHypothesis =>
      rw [List.forM_eq_forM, List.forM_cons]
      exact FailsWith.bind (each item List.mem_cons_self) fun _ =>
        inductionHypothesis fun other later => each other (List.mem_cons_of_mem item later)

end Errors

end Transition.Checked
