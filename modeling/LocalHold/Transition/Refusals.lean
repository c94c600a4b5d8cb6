import LocalHold.Transition.Transaction

/-!
# Errors a transaction avoids

A part of a transaction that never aborts with an error leaves that error to the
other parts.  Where all parts but one avoid it, it tells how far the run came.
-/

namespace Transition.Txn

variable {ε σ α β : Type} {refusal error : ε}

/-- No run aborts with the error. -/
def Avoids (refusal : ε) (body : Txn ε σ α) : Prop :=
  ∀ state, body state ≠ .error refusal

namespace Avoids

theorem pure {value : α} : Avoids refusal (pure value : Txn ε σ α) :=
  nofun

theorem reads {view : σ → α} : Avoids refusal (reads view : Txn ε σ α) :=
  nofun

theorem writes {change : σ → σ} : Avoids refusal (writes change : Txn ε σ Unit) :=
  nofun

theorem require {condition : Bool} (other : error ≠ refusal) :
    Avoids refusal (require condition error : Txn ε σ Unit) := by
  intro state ran
  cases condition with
  | false => exact other (Except.error.inj ran)
  | true => cases ran

theorem expect {value : Option α} (other : error ≠ refusal) :
    Avoids refusal (expect value error : Txn ε σ α) := by
  intro state ran
  cases value with
  | none => exact other (Except.error.inj ran)
  | some found => cases ran

theorem onSome {value : Option α} {body : α → Txn ε σ Unit}
    (bodyAvoids : ∀ found, Avoids refusal (body found)) : Avoids refusal (onSome value body) := by
  cases value with
  | none => exact pure
  | some found => exact bodyAvoids found

theorem bind {first : Txn ε σ α} {rest : α → Txn ε σ β} (firstAvoids : Avoids refusal first)
    (restAvoids : ∀ value, Avoids refusal (rest value)) : Avoids refusal (first >>= rest) := by
  intro state ran
  cases firstRan : first state with
  | error error =>
      rw [bind_of_error firstRan] at ran
      cases ran
      exact firstAvoids state firstRan
  | ok pair =>
      rw [bind_of_ok firstRan] at ran
      exact restAvoids pair.1 pair.2 ran

theorem forM {items : List α} {body : α → Txn ε σ Unit}
    (bodyAvoids : ∀ item, Avoids refusal (body item)) : Avoids refusal (items.forM body) := by
  induction items with
  | nil => exact pure
  | cons item rest inductionHypothesis =>
      rw [List.forM_eq_forM, List.forM_cons]
      exact bind (bodyAvoids item) fun _ => inductionHypothesis

/-- The error comes from behind a part that avoids it. -/
theorem bind_eq_error {first : Txn ε σ α} {rest : α → Txn ε σ β} {state : σ}
    (firstAvoids : Avoids refusal first) :
    (first >>= rest) state = .error refusal ↔
      ∃ value middle, first state = .ok (value, middle) ∧ rest value middle = .error refusal := by
  constructor
  · intro ran
    cases firstRan : first state with
    | error error =>
        rw [bind_of_error firstRan] at ran
        cases ran
        exact absurd firstRan (firstAvoids state)
    | ok pair =>
        rw [bind_of_ok firstRan] at ran
        exact ⟨pair.1, pair.2, rfl, ran⟩
  · rintro ⟨value, middle, firstRan, restRan⟩
    rw [bind_of_ok firstRan]
    exact restRan

theorem reads_bind_eq_error {view : σ → α} {rest : α → Txn ε σ β} {state : σ} :
    (Txn.reads view >>= rest) state = .error refusal ↔
      rest (view state) state = .error refusal :=
  Iff.rfl

theorem require_bind_eq_error {condition : Bool} {rest : Unit → Txn ε σ β} {state : σ}
    (other : error ≠ refusal) :
    (Txn.require condition error >>= rest) state = .error refusal ↔
      condition = true ∧ rest () state = .error refusal := by
  rw [bind_eq_error (require other)]
  constructor
  · rintro ⟨_, _, checked, ran⟩
    obtain ⟨holds, equal⟩ := require_eq_ok.mp checked
    cases equal
    exact ⟨holds, ran⟩
  · rintro ⟨holds, ran⟩
    exact ⟨(), state, require_eq_ok.mpr ⟨holds, rfl⟩, ran⟩

theorem expect_bind_eq_error {value : Option α} {rest : α → Txn ε σ β} {state : σ}
    (other : error ≠ refusal) :
    (Txn.expect value error >>= rest) state = .error refusal ↔
      ∃ found, value = some found ∧ rest found state = .error refusal := by
  rw [bind_eq_error (expect other)]
  constructor
  · rintro ⟨_, _, checked, ran⟩
    obtain ⟨_, present, equal⟩ := expect_eq_ok.mp checked
    cases equal
    exact ⟨_, present, ran⟩
  · rintro ⟨found, present, ran⟩
    exact ⟨found, state, expect_eq_ok.mpr ⟨found, present, rfl⟩, ran⟩

/-- Checks that avoid the error and leave the state pass in front of it. -/
theorem readsOnly_bind_eq_error {first : Txn ε σ Unit} {rest : Unit → Txn ε σ β} {state : σ}
    (firstAvoids : Avoids refusal first) (readsOnly : ReadsOnly first) :
    (first >>= rest) state = .error refusal ↔
      first state = .ok ((), state) ∧ rest () state = .error refusal := by
  rw [bind_eq_error firstAvoids]
  constructor
  · rintro ⟨_, middle, passed, ran⟩
    have same : middle = state := readsOnly passed
    subst same
    exact ⟨passed, ran⟩
  · rintro ⟨passed, ran⟩
    exact ⟨(), state, passed, ran⟩

/-- The error comes from in front of a rest that avoids it. -/
theorem bind_eq_error_of_rest {first : Txn ε σ α} {rest : α → Txn ε σ β} {state : σ}
    (restAvoids : ∀ value, Avoids refusal (rest value)) :
    (first >>= rest) state = .error refusal ↔ first state = .error refusal := by
  constructor
  · intro ran
    cases firstRan : first state with
    | error error =>
        rw [bind_of_error firstRan] at ran
        cases ran
        rfl
    | ok pair =>
        rw [bind_of_ok firstRan] at ran
        exact absurd ran (restAvoids pair.1 pair.2)
  · exact bind_of_error

end Avoids

end Transition.Txn
