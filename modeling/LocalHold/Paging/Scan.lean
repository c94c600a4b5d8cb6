import Mathlib.Data.List.Basic

/-!
# Paged scans

A scan reads a fixed list page after page and hands each page to a consumer,
until the consumer is done, a page is short, or the offset reaches a cap.  A
consumer whose work on two lists is its work on their concatenation cannot
tell the pages: below the cap the scan is one call on the whole list.
-/

namespace Paging

universe u v w x y z

variable {ρ : Type u} {α : Type v} {σ : Type w} {ε : Type x}

/-! ## Pages -/

/-- `LIMIT size OFFSET offset`. -/
def page (rows : List ρ) (size offset : Nat) : List ρ :=
  (rows.drop offset).take size

theorem page_append_drop (rows : List ρ) (size offset : Nat) :
    page rows size offset ++ rows.drop (offset + size) = rows.drop offset := by
  rw [page, ← List.drop_drop, List.take_append_drop]

theorem drop_eq_nil_of_short {rows : List ρ} {size offset : Nat}
    (short : (page rows size offset).length < size) : rows.drop (offset + size) = [] := by
  rw [List.drop_eq_nil_iff]
  simp only [page, List.length_take, List.length_drop] at short
  omega

theorem drop_eq_nil_of_page_nil {rows : List ρ} {size offset : Nat} (positive : 0 < size)
    (empty : page rows size offset = []) : rows.drop offset = [] := by
  simpa [page, Nat.ne_of_gt positive] using empty

/-- Accepted rows keep their keys, in order. -/
theorem map_filterMap_sublist {κ : Type w} {accept : ρ → Option α} {rowKey : ρ → κ}
    {key : α → κ} (same : ∀ row shown, accept row = some shown → key shown = rowKey row)
    (rows : List ρ) : ((rows.filterMap accept).map key).Sublist (rows.map rowKey) := by
  induction rows with
  | nil => exact List.Sublist.refl _
  | cons row rest inductionHypothesis =>
      cases accepted : accept row with
      | none =>
          rw [List.filterMap_cons_none accepted]
          exact inductionHypothesis.cons _
      | some shown =>
          rw [List.filterMap_cons_some accepted, List.map_cons, List.map_cons,
            same row shown accepted]
          exact inductionHypothesis.cons_cons _

/-! ## The scan -/

/-- What a consumer does with one page: its next state and whether it wants
more. -/
abbrev Consumer (ε : Type x) (σ : Type w) (ρ : Type u) :=
  σ → List ρ → Except ε (σ × Bool)

/-- Read page after page.  An empty page ends the scan. -/
def scan (cap size : Nat) (rows : List ρ) (consume : Consumer ε σ ρ) (offset : Nat) (state : σ) :
    Except ε σ :=
  if page rows size offset = [] then
    .ok state
  else do
    let (next, more) ← consume state (page rows size offset)
    if more && decide (size ≤ (page rows size offset).length) then
      if offset + size < cap then
        scan cap size rows consume (offset + size) next
      else
        return next
    else
      return next
termination_by cap - offset
decreasing_by
  have positive : 0 < size := by
    rcases Nat.eq_zero_or_pos size with rfl | positive
    · exact absurd List.take_zero ‹¬ page rows 0 offset = []›
    · exact positive
  omega

/-- A consumer that cannot tell where a page ends, as long as it is ready. -/
structure Incremental (ready : σ → Prop) (consume : Consumer ε σ ρ) : Prop where
  nil : ∀ state, ready state → consume state [] = .ok (state, true)
  append : ∀ state, ready state → ∀ first second,
    consume state (first ++ second) = do
      let (next, more) ← consume state first
      if more then consume next second else return (next, false)
  ready : ∀ state, ready state → ∀ rows next,
    consume state rows = .ok (next, true) → ready next

/-- Below the cap, a scan is one call of the consumer on what is left. -/
theorem Incremental.scan_eq {ready : σ → Prop} {consume : Consumer ε σ ρ}
    (incremental : Incremental ready consume) {cap size : Nat} {rows : List ρ}
    (positive : 0 < size) (fits : rows.length ≤ cap) (offset : Nat) (state : σ)
    (isReady : ready state) :
    scan cap size rows consume offset state =
      (consume state (rows.drop offset)).map Prod.fst := by
  induction offset, state using scan.induct cap size rows with
  | case1 offset state empty =>
      rw [scan, if_pos empty, drop_eq_nil_of_page_nil positive empty,
        incremental.nil state isReady]
      rfl
  | case2 offset state nonempty inductionHypothesis =>
      rw [scan, if_neg nonempty, ← page_append_drop rows size offset,
        incremental.append state isReady]
      cases consumed : consume state (page rows size offset) with
      | error problem => rfl
      | ok result =>
          obtain ⟨next, more⟩ := result
          cases more with
          | false => rfl
          | true =>
              have nextReady := incremental.ready state isReady _ next consumed
              -- Whenever the scan stops here, nothing is left to read.
              have stops (exhausted : rows.drop (offset + size) = []) :
                  (consume next (rows.drop (offset + size))).map Prod.fst = .ok next := by
                rw [exhausted, incremental.nil next nextReady]
                rfl
              change (if true && decide (size ≤ (page rows size offset).length) then
                  if offset + size < cap then scan cap size rows consume (offset + size) next
                  else .ok next
                else .ok next) = (consume next (rows.drop (offset + size))).map Prod.fst
              by_cases full : size ≤ (page rows size offset).length
              · have goesOn : (true && decide (size ≤ (page rows size offset).length)) = true := by
                  simpa using full
                rw [if_pos goesOn]
                by_cases under : offset + size < cap
                · rw [if_pos under]
                  exact inductionHypothesis next true goesOn under nextReady
                · rw [if_neg under, stops]
                  exact List.drop_eq_nil_of_le (by omega)
              · rw [if_neg (by simpa using full), stops]
                exact drop_eq_nil_of_short (by omega)

/-- Below the cap, a scan from the start is one call on the whole list. -/
theorem Incremental.scan_zero {ready : σ → Prop} {consume : Consumer ε σ ρ}
    (incremental : Incremental ready consume) {cap size : Nat} {rows : List ρ}
    (positive : 0 < size) (fits : rows.length ≤ cap) {state : σ} (isReady : ready state) :
    scan cap size rows consume 0 state = (consume state rows).map Prod.fst :=
  incremental.scan_eq positive fits 0 state isReady

/-! ## Consumers -/

/-- Test every row of a page and hand on the page that is left, unless it is
empty. -/
def filtered (accept : ρ → Option α) (consume : Consumer ε σ α) : Consumer ε σ ρ :=
  fun state rows =>
    match rows.filterMap accept with
    | [] => .ok (state, true)
    | accepted :: rest => consume state (accepted :: rest)

theorem Incremental.filtered_apply {ready : σ → Prop} {consume : Consumer ε σ α}
    (incremental : Incremental ready consume) (accept : ρ → Option α) {state : σ}
    (isReady : ready state) (rows : List ρ) :
    filtered accept consume state rows = consume state (rows.filterMap accept) := by
  unfold filtered
  split
  case h_1 none => rw [none, incremental.nil state isReady]
  case h_2 accepted rest some => rw [some]

theorem Incremental.filtered {ready : σ → Prop} {consume : Consumer ε σ α}
    (incremental : Incremental ready consume) (accept : ρ → Option α) :
    Incremental ready (filtered accept consume) where
  nil state _ := rfl
  append state isReady first second := by
    simp only [incremental.filtered_apply accept isReady, List.filterMap_append,
      incremental.append state isReady]
    cases consumed : consume state (first.filterMap accept) with
    | error problem => rfl
    | ok result =>
        obtain ⟨next, more⟩ := result
        cases more with
        | false => rfl
        | true =>
            have nextReady := incremental.ready state isReady _ next consumed
            exact (incremental.filtered_apply accept nextReady second).symm
  ready state isReady rows next consumed := by
    rw [incremental.filtered_apply accept isReady] at consumed
    exact incremental.ready state isReady _ next consumed

/-- Tally every row of every page. -/
def tallyPages (tally : σ → α → σ) : Consumer ε σ α :=
  fun state rows => .ok (rows.foldl tally state, true)

theorem incremental_tallyPages (tally : σ → α → σ) :
    Incremental (fun _ => True) (tallyPages tally : Consumer ε σ α) where
  nil state _ := rfl
  append state _ first second := by
    simp only [tallyPages, bind, Except.bind, if_true, List.foldl_append]
  ready _ _ _ _ _ := trivial

/-- `Iterator::all` with a stateful test: stop at the first row that is refused. -/
def allRows (step : σ → α → σ × Bool) : σ → List α → σ × Bool
  | state, [] => (state, true)
  | state, row :: rest =>
      match step state row with
      | (next, true) => allRows step next rest
      | (next, false) => (next, false)

/-- Consume a page row by row. -/
def rowByRow (step : σ → α → σ × Bool) : Consumer ε σ α :=
  fun state rows => .ok (allRows step state rows)

theorem allRows_append (step : σ → α → σ × Bool) (state : σ) (first second : List α) :
    allRows step state (first ++ second) =
      match allRows step state first with
      | (next, true) => allRows step next second
      | (next, false) => (next, false) := by
  induction first generalizing state with
  | nil => rfl
  | cons row rest inductionHypothesis =>
      rw [List.cons_append, allRows, allRows]
      split
      · exact inductionHypothesis _
      · rfl

theorem incremental_rowByRow (step : σ → α → σ × Bool) :
    Incremental (fun _ => True) (rowByRow step : Consumer ε σ α) where
  nil state _ := rfl
  append state _ first second := by
    simp only [rowByRow, bind, Except.bind, allRows_append]
    rcases allRows step state first with ⟨next, more⟩
    cases more <;> rfl
  ready _ _ _ _ _ := trivial

/-! ## Taking the first rows -/

/-- Keep what a view shows of a row, until there are `limit` rows. -/
def takeStep {β : Type y} (limit : Nat) (view : α → Option β) (kept : List β) (row : α) :
    List β × Bool :=
  match view row with
  | none => (kept, true)
  | some shown => (kept ++ [shown], decide ((kept ++ [shown]).length < limit))

/-- Before the limit is reached, the consumer keeps the first rows that show. -/
theorem allRows_takeStep {β : Type y} {limit : Nat} {view : α → Option β} {kept : List β}
    (room : kept.length < limit) (rows : List α) :
    (allRows (takeStep limit view) kept rows).1 =
      kept ++ (rows.filterMap view).take (limit - kept.length) := by
  induction rows generalizing kept with
  | nil => simp [allRows]
  | cons row rest inductionHypothesis =>
      rw [allRows, takeStep]
      cases shown : view row with
      | none => simpa [shown] using inductionHypothesis room
      | some value =>
          obtain ⟨spare, spareEq⟩ := Nat.exists_eq_add_of_lt room
          have left : limit - kept.length = spare + 1 := by omega
          rw [List.filterMap_cons_some shown, left, List.take_succ_cons]
          by_cases more : (kept ++ [value]).length < limit
          · have after : limit - (kept ++ [value]).length = spare := by simp; omega
            simp only [more, decide_true]
            rw [inductionHypothesis more, after]
            simp
          · simp only [more, decide_false]
            have exhausted : spare = 0 := by simp at more; omega
            simp [exhausted]

/-- The rows of a page that are kept when `taken` rows are there already: the
loop leaves the page once the limit is reached. -/
def takeUntil {β : Type y} (limit : Nat) (accept : α → Option β) : Nat → List α → List β
  | _, [] => []
  | taken, row :: rest =>
      match accept row with
      | none => takeUntil limit accept taken rest
      | some shown =>
          if limit ≤ taken + 1 then [shown]
          else shown :: takeUntil limit accept (taken + 1) rest

theorem takeUntil_eq {β : Type y} {limit taken : Nat} {accept : α → Option β}
    (room : taken < limit) (rows : List α) :
    takeUntil limit accept taken rows = (rows.filterMap accept).take (limit - taken) := by
  induction rows generalizing taken with
  | nil => simp [takeUntil]
  | cons row rest inductionHypothesis =>
      rw [takeUntil]
      cases shown : accept row with
      | none => simpa [shown] using inductionHypothesis room
      | some value =>
          obtain ⟨spare, spareEq⟩ := Nat.exists_eq_add_of_lt room
          have left : limit - taken = spare + 1 := by omega
          rw [List.filterMap_cons_some shown, left, List.take_succ_cons]
          by_cases last : limit ≤ taken + 1
          · have exhausted : spare = 0 := by omega
            simp [last, exhausted]
          · have after : limit - (taken + 1) = spare := by omega
            simp only [last, if_false]
            rw [inductionHypothesis (by omega), after]

/-- The loop keeps only accepted rows, in order. -/
theorem takeUntil_sublist {β : Type y} (limit : Nat) (accept : α → Option β) (taken : Nat)
    (rows : List α) : (takeUntil limit accept taken rows).Sublist (rows.filterMap accept) := by
  induction rows generalizing taken with
  | nil => exact List.Sublist.refl _
  | cons row rest inductionHypothesis =>
      rw [takeUntil]
      cases shown : accept row with
      | none =>
          rw [List.filterMap_cons_none shown]
          exact inductionHypothesis taken
      | some value =>
          rw [List.filterMap_cons_some shown]
          dsimp only
          split
          · exact (List.nil_sublist _).cons_cons _
          · exact (inductionHypothesis _).cons_cons _

theorem takeUntil_map {β : Type y} {γ : Type z} (limit : Nat) (accept : α → Option β)
    (prepare : γ → α) (taken : Nat) (rows : List γ) :
    takeUntil limit accept taken (rows.map prepare) =
      takeUntil limit (fun row => accept (prepare row)) taken rows := by
  induction rows generalizing taken with
  | nil => rfl
  | cons row rest inductionHypothesis =>
      simp only [List.map_cons, takeUntil, inductionHypothesis]

/-- Rows that are all finished after the loop could have been finished in it. -/
theorem filterMap_takeUntil {β : Type y} {γ : Type z} {accept : α → Option β}
    {finish : β → Option γ}
    (always : ∀ row shown, accept row = some shown → (finish shown).isSome)
    (limit taken : Nat) (rows : List α) :
    (takeUntil limit accept taken rows).filterMap finish =
      takeUntil limit (fun row => (accept row).bind finish) taken rows := by
  induction rows generalizing taken with
  | nil => rfl
  | cons row rest inductionHypothesis =>
      rw [takeUntil, takeUntil]
      cases shown : accept row with
      | none => exact inductionHypothesis taken
      | some value =>
          obtain ⟨result, finished⟩ := Option.isSome_iff_exists.mp (always row value shown)
          rw [Option.bind_some, finished]
          by_cases last : limit ≤ taken + 1
          · simp [last, finished]
          · simp only [last, if_false]
            rw [List.filterMap_cons_some finished, inductionHypothesis]

/-- Extend the kept rows by the first rows of a page, until there are `limit`. -/
def takePage {β : Type y} (limit : Nat) (accept : α → Option β) : Consumer ε (List β) α :=
  fun kept rows =>
    let results := kept ++ takeUntil limit accept kept.length rows
    .ok (results, decide (results.length < limit))

theorem takePage_eq {β : Type y} {limit : Nat} {accept : α → Option β} {kept : List β}
    (room : kept.length < limit) (rows : List α) :
    (takePage limit accept : Consumer ε (List β) α) kept rows =
      .ok (kept ++ (rows.filterMap accept).take (limit - kept.length),
        decide (kept.length + (rows.filterMap accept).length < limit)) := by
  simp only [takePage, takeUntil_eq room, List.length_append, List.length_take, Except.ok.injEq,
    Prod.mk.injEq, decide_eq_decide, true_and]
  omega

theorem incremental_takePage {β : Type y} (limit : Nat) (accept : α → Option β) :
    Incremental (fun kept : List β => kept.length < limit)
      (takePage limit accept : Consumer ε (List β) α) where
  nil kept room := by simp [takePage_eq room, room]
  append kept room first second := by
    simp only [takePage_eq room, bind, Except.bind]
    by_cases more : kept.length + (first.filterMap accept).length < limit
    · have all : (first.filterMap accept).take (limit - kept.length) = first.filterMap accept :=
        List.take_of_length_le (by omega)
      have roomLeft : (kept ++ first.filterMap accept).length < limit := by
        simpa using more
      rw [all]
      simp only [more, decide_true, if_true, takePage_eq roomLeft]
      simp only [List.filterMap_append, List.length_append, List.take_append, all,
        List.append_assoc, Except.ok.injEq, Prod.mk.injEq, decide_eq_decide]
      refine ⟨?_, ?_⟩
      · rw [Nat.sub_sub]
      · omega
    · have spent : limit - kept.length - (first.filterMap accept).length = 0 := by omega
      have beyond : ¬ kept.length + ((first ++ second).filterMap accept).length < limit := by
        simp only [List.filterMap_append, List.length_append]
        omega
      simp only [more, beyond, decide_false, Bool.false_eq_true, if_false]
      simp only [List.filterMap_append, List.take_append, spent, List.take_zero, List.append_nil]
      rfl
  ready kept room rows next consumed := by
    rw [takePage_eq room] at consumed
    simp only [Except.ok.injEq, Prod.mk.injEq, decide_eq_true_eq] at consumed
    obtain ⟨rfl, more⟩ := consumed
    simp only [List.length_append, List.length_take]
    omega

end Paging
