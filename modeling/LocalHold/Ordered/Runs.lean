import LocalHold.Ordered.Ranking
import Mathlib.Data.List.Dedup
import Mathlib.Data.List.Destutter
import Mathlib.Data.List.Perm.Subperm

/-!
# Runs of one label

A ranked list from which neighbours with the same label are dropped keeps one
row, the first, of each run of rows with one label.  A label that has several
runs is kept several times.  Cut off after some rows, the list has each label
once exactly when no label comes back early, and then it holds the best rows of
the best labels.
-/

namespace Ranking

universe u v w

variable {α : Type u} {κ : Type v} {β : Type w} [LinearOrder κ] [DecidableEq β]
  {key : α → κ} {label : α → β}

/-- The first row of each run. -/
def runs (label : α → β) (rows : List α) : List α :=
  rows.destutter fun first second => label first ≠ label second

/-- Rows by falling keys, where a key has one label. -/
structure Ranked (key : α → κ) (label : α → β) (rows : List α) : Prop where
  sorted : rows.Pairwise fun first second => key second ≤ key first
  alike : ∀ first ∈ rows, ∀ second ∈ rows, key first = key second → label first = label second

omit [DecidableEq β] in
theorem Ranked.sublist {rows fewer : List α} (ranked : Ranked key label rows)
    (included : fewer.Sublist rows) : Ranked key label fewer :=
  ⟨ranked.sorted.sublist included, fun first firstMem second secondMem =>
    ranked.alike first (included.subset firstMem) second (included.subset secondMem)⟩

theorem mem_of_mem_runs {rows : List α} {row : α} (member : row ∈ runs label rows) : row ∈ rows :=
  (List.destutter_sublist _ rows).subset member

/-- Each row is in the run of a kept row, which no row of another label cuts off. -/
theorem Ranked.exists_head' {rest : List α} {first : α}
    (ranked : Ranked key label (first :: rest)) :
    ∀ row ∈ first :: rest, ∃ head ∈ rest.destutter' (fun first second =>
        label first ≠ label second) first,
      label head = label row ∧ key row ≤ key head ∧ ∀ other ∈ first :: rest,
        label other ≠ label row → key row < key other → key head < key other := by
  induction rest generalizing first with
  | nil =>
      intro row rowMem
      rw [List.mem_singleton.mp rowMem]
      refine ⟨first, List.mem_singleton.mpr rfl, rfl, le_refl _, fun other otherMem differ => ?_⟩
      rw [List.mem_singleton.mp otherMem] at differ
      exact absurd rfl differ
  | cons next rest inductionHypothesis =>
      obtain ⟨least, restSorted⟩ := List.pairwise_cons.mp ranked.sorted
      intro row rowMem
      by_cases differ : label first ≠ label next
      · rw [List.destutter'_cons_pos rest differ]
        rcases List.mem_cons.mp rowMem with rfl | later
        · refine ⟨row, List.mem_cons_self, rfl, le_refl _, fun other otherMem _ above => ?_⟩
          rcases List.mem_cons.mp otherMem with rfl | inRest
          · exact above
          · exact absurd above (not_lt.mpr (least other inRest))
        · obtain ⟨head, headMem, same, atLeast, uncut⟩ :=
            inductionHypothesis (ranked.sublist (List.sublist_cons_self first _)) row later
          refine ⟨head, List.mem_cons_of_mem first headMem, same, atLeast,
            fun other otherMem apart above => ?_⟩
          rcases List.mem_cons.mp otherMem with rfl | inRest
          · have headLater : head ∈ next :: rest := (List.destutter'_sublist _ _ _).subset headMem
            refine lt_of_le_of_ne (least head headLater) fun sameKey => apart ?_
            rw [← same]
            exact (ranked.alike head (List.mem_cons_of_mem _ headLater) other
              List.mem_cons_self sameKey).symm
          · exact uncut other inRest apart above
      · have joined : label first = label next := not_not.mp differ
        rw [List.destutter'_cons_neg rest differ]
        have shorter : Ranked key label (first :: rest) :=
          ranked.sublist ((List.sublist_cons_self next rest).cons_cons first)
        rcases List.mem_cons.mp rowMem with isFirst | later
        · obtain ⟨head, headMem, same, atLeast, uncut⟩ :=
            inductionHypothesis shorter first List.mem_cons_self
          rw [isFirst]
          refine ⟨head, headMem, same, atLeast, fun other otherMem apart above => ?_⟩
          rcases List.mem_cons.mp otherMem with isFirst' | inRest
          · rw [isFirst'] at above
            exact absurd above (lt_irrefl _)
          · exact absurd above (not_lt.mpr (least other inRest))
        · rcases List.mem_cons.mp later with isNext | inRest
          · obtain ⟨head, headMem, same, atLeast, -⟩ :=
              inductionHypothesis shorter first List.mem_cons_self
            rw [isNext]
            refine ⟨head, headMem, same.trans joined,
              (least next List.mem_cons_self).trans atLeast, fun other otherMem apart above => ?_⟩
            rcases List.mem_cons.mp otherMem with isFirst | others
            · rw [isFirst] at apart
              exact absurd joined apart
            · rcases List.mem_cons.mp others with isNext' | inRest
              · rw [isNext'] at apart
                exact absurd rfl apart
              · exact absurd above (not_lt.mpr ((List.pairwise_cons.mp restSorted).1 other inRest))
          · obtain ⟨head, headMem, same, atLeast, uncut⟩ :=
              inductionHypothesis shorter row (List.mem_cons_of_mem first inRest)
            refine ⟨head, headMem, same, atLeast, fun other otherMem apart above => ?_⟩
            rcases List.mem_cons.mp otherMem with isFirst | others
            · exact uncut other (isFirst ▸ List.mem_cons_self) apart above
            · rcases List.mem_cons.mp others with isNext | inRest'
              · -- the head has another label than the row before, so it comes after it
                rw [isNext] at apart ⊢
                have headRest : head ∈ rest := by
                  have listed := (List.destutter'_sublist _ _ _).subset headMem
                  rcases List.mem_cons.mp listed with isFirst | inRest
                  · rw [isFirst, joined] at same
                    exact absurd same apart
                  · exact inRest
                refine lt_of_le_of_ne ((List.pairwise_cons.mp restSorted).1 head headRest)
                  fun sameKey => apart ?_
                rw [← same]
                exact (ranked.alike head (by simp [headRest]) next (by simp) sameKey).symm
              · exact uncut other (List.mem_cons_of_mem first inRest') apart above

theorem Ranked.exists_head {rows : List α} (ranked : Ranked key label rows) {row : α}
    (rowMem : row ∈ rows) :
    ∃ head ∈ runs label rows, label head = label row ∧ key row ≤ key head ∧
      ∀ other ∈ rows, label other ≠ label row → key row < key other → key head < key other := by
  cases rows with
  | nil => cases rowMem
  | cons first rest => exact ranked.exists_head' row rowMem

omit [DecidableEq β] in
/-- Where neighbours have different labels, keys fall strictly. -/
theorem Ranked.pairwise_lt {rows : List α} (ranked : Ranked key label rows)
    (chained : rows.IsChain fun first second => label first ≠ label second) :
    rows.Pairwise fun first second => key second < key first := by
  induction rows with
  | nil => exact List.Pairwise.nil
  | cons first rest inductionHypothesis =>
      have restRanked := ranked.sublist (List.sublist_cons_self first rest)
      have restChained := chained.tail
      refine List.pairwise_cons.mpr ⟨fun later laterMem => ?_, inductionHypothesis restRanked
        restChained⟩
      cases rest with
      | nil => cases laterMem
      | cons next others =>
          obtain ⟨least, restSorted⟩ := List.pairwise_cons.mp ranked.sorted
          have below : key next < key first := by
            refine lt_of_le_of_ne (least next List.mem_cons_self) fun sameKey => ?_
            refine (List.isChain_cons_cons.mp chained).1 ?_
            exact (ranked.alike next (by simp) first List.mem_cons_self sameKey).symm
          rcases List.mem_cons.mp laterMem with rfl | inOthers
          · exact below
          · exact ((List.pairwise_cons.mp restSorted).1 later inOthers).trans_lt below

/-- The kept rows have strictly falling keys. -/
theorem Ranked.pairwise_runs {rows : List α} (ranked : Ranked key label rows) :
    (runs label rows).Pairwise fun first second => key second < key first :=
  (ranked.sublist (List.destutter_sublist _ rows)).pairwise_lt (List.isChain_destutter _ rows)

/-! ## Cutting off -/

/-- The labels with a row above a key. -/
def labelsAbove (key : α → κ) (label : α → β) (rows : List α) (bound : κ) : List β :=
  ((rows.filter fun row => decide (bound < key row)).map label).dedup

/-- A label comes back at a row: a row of another label lies between two of its
rows. -/
def ComesBack (key : α → κ) (label : α → β) (rows : List α) (late : α) : Prop :=
  ∃ first ∈ rows, ∃ between ∈ rows, label first = label late ∧ label between ≠ label late ∧
    key between < key first ∧ key late < key between

/-- A first part of the runs has each label once, unless a label comes back. -/
theorem Ranked.nodup_prefix {rows : List α} (ranked : Ranked key label rows) {count : Nat}
    (comeBack : ∀ late ∈ rows, ComesBack key label rows late →
      count ≤ (labelsAbove key label rows (key late)).length)
    {kept rest : List α} (parts : runs label rows = kept ++ rest) (short : kept.length ≤ count) :
    (kept.map label).Nodup := by
  induction kept using List.reverseRecOn generalizing rest with
  | nil => exact List.nodup_nil
  | append_singleton kept late inductionHypothesis =>
      rw [List.length_append, List.length_singleton] at short
      rw [List.append_assoc, List.singleton_append] at parts
      have each := inductionHypothesis parts (Nat.le_of_succ_le short)
      have strict := ranked.pairwise_runs
      rw [parts] at strict
      obtain ⟨keptFalls, -, across⟩ := List.pairwise_append.mp strict
      have inRows {row : α} (member : row ∈ kept ++ late :: rest) : row ∈ rows :=
        mem_of_mem_runs (parts ▸ member)
      rw [List.map_append, List.map_singleton, List.nodup_append]
      refine ⟨each, List.nodup_singleton _, fun first firstMem second secondMem same => ?_⟩
      rw [List.mem_singleton.mp secondMem] at same
      obtain ⟨first, firstKept, rfl⟩ := List.mem_map.mp firstMem
      -- the row before the late one has another label, so the label comes back
      have comesBack : ComesBack key label rows late := by
        rcases List.eq_nil_or_concat kept with rfl | ⟨earlier, between, rfl⟩
        · cases firstKept
        · have chained : (runs label rows).IsChain fun first second =>
              label first ≠ label second := List.isChain_destutter _ rows
          rw [parts, List.concat_eq_append, List.append_assoc, List.singleton_append] at chained
          have apart := (List.isChain_cons_cons.mp (List.isChain_append.mp chained).2.1).1
          rw [List.concat_eq_append] at firstKept keptFalls across inRows
          have firstEarlier : first ∈ earlier := by
            rcases List.mem_append.mp firstKept with earlierMem | last
            · exact earlierMem
            · rw [List.mem_singleton.mp last] at same
              exact absurd same apart
          have betweenMem : between ∈ earlier ++ [between] := by simp
          refine ⟨first, inRows (by simp [firstEarlier]), between, inRows (by simp), same, apart,
            ?_, across between betweenMem late List.mem_cons_self⟩
          exact (List.pairwise_append.mp keptFalls).2.2 first firstEarlier between
            (List.mem_singleton.mpr rfl)
      have included : labelsAbove key label rows (key late) ⊆ kept.map label := by
        intro other otherMem
        obtain ⟨row, rowMem, rfl⟩ := List.mem_map.mp (List.mem_dedup.mp otherMem)
        obtain ⟨inside, above⟩ := List.mem_filter.mp rowMem
        obtain ⟨head, headMem, alike, atLeast, -⟩ := ranked.exists_head inside
        have headAbove : key late < key head := (of_decide_eq_true above).trans_le atLeast
        rw [parts] at headMem
        rcases List.mem_append.mp headMem with headKept | headLate
        · exact List.mem_map.mpr ⟨head, headKept, alike⟩
        · rcases List.mem_cons.mp headLate with rfl | headRest
          · exact absurd headAbove (lt_irrefl _)
          · have below := (List.pairwise_cons.mp (List.pairwise_append.mp strict).2.1).1 head headRest
            exact absurd headAbove (lt_asymm below)
      have distinct : (labelsAbove key label rows (key late)).Nodup := List.nodup_dedup _
      have counted := (distinct.subperm included).length_le
      rw [List.length_map] at counted
      have enough := comeBack late (inRows (by simp)) comesBack
      omega

/-- The first runs have each label once exactly when a label comes back only
after enough others. -/
theorem Ranked.nodup_take_runs_iff {rows : List α} (ranked : Ranked key label rows) (count : Nat) :
    (((runs label rows).take count).map label).Nodup ↔
      ∀ late ∈ rows, ComesBack key label rows late →
        count ≤ (labelsAbove key label rows (key late)).length := by
  have strict := ranked.pairwise_runs
  constructor
  · intro each late lateMem comesBack
    obtain ⟨first, firstMem, between, betweenMem, same, apart, above, below⟩ := comesBack
    obtain ⟨firstHead, firstHeadMem, firstSame, firstLeast, -⟩ := ranked.exists_head firstMem
    obtain ⟨lateHead, lateHeadMem, lateSame, lateLeast, lateUncut⟩ := ranked.exists_head lateMem
    have headsFall : key lateHead < key firstHead :=
      (lateUncut between betweenMem apart below).trans (above.trans_le firstLeast)
    have headsAlike : label firstHead = label lateHead := by
      rw [firstSame, same, lateSame]
    have split := List.take_append_drop count (runs label rows)
    have parts := strict
    rw [← split] at parts
    obtain ⟨-, -, across⟩ := List.pairwise_append.mp parts
    rw [← split] at firstHeadMem lateHeadMem
    rcases List.mem_append.mp lateHeadMem with lateKept | lateDropped
    · rcases List.mem_append.mp firstHeadMem with firstKept | firstDropped
      · have equal := List.inj_on_of_nodup_map each firstKept lateKept headsAlike
        rw [equal] at headsFall
        exact absurd headsFall (lt_irrefl _)
      · exact absurd headsFall (lt_asymm (across lateHead lateKept firstHead firstDropped))
    · -- every kept row lies above the head of the late row
      have included : ((runs label rows).take count).map label ⊆
          labelsAbove key label rows (key late) := by
        intro kept keptMem
        obtain ⟨row, rowMem, rfl⟩ := List.mem_map.mp keptMem
        refine List.mem_dedup.mpr (List.mem_map.mpr ⟨row, List.mem_filter.mpr ⟨?_, ?_⟩, rfl⟩)
        · exact mem_of_mem_runs (List.mem_of_mem_take rowMem)
        · exact decide_eq_true (lateLeast.trans_lt (across row rowMem lateHead lateDropped))
      have long : count ≤ (runs label rows).length := by
        by_contra short
        rw [List.drop_eq_nil_of_le (Nat.not_le.mp short).le] at lateDropped
        cases lateDropped
      have distinct : (((runs label rows).take count).map label).Nodup := each
      have counted := (distinct.subperm included).length_le
      rw [List.length_map, List.length_take_of_le long] at counted
      exact counted
  · intro comeBack
    refine ranked.nodup_prefix comeBack (List.take_append_drop count _).symm ?_
    rw [List.length_take]
    exact Nat.min_le_left _ _

/-! ## The best rows -/

/-- The best rows of the best labels: each label once, with its best row. -/
structure BestRows (key : α → κ) (label : α → β) (rows : List α) (count : Nat) (kept : List α) :
    Prop where
  once : (kept.map label).Nodup
  largest : ∀ row ∈ kept, row ∈ rows ∧
    ∀ other ∈ rows, label other = label row → key other ≤ key row
  sorted : kept.Pairwise fun first second => key second ≤ key first
  complete : ∀ row ∈ rows, label row ∈ kept.map label ∨
    (kept.length = count ∧ ∀ best ∈ kept, key row ≤ key best)

/-- The first runs are the best rows when they have each label once. -/
theorem Ranked.bestRows_take_runs {rows : List α} (ranked : Ranked key label rows) {count : Nat}
    (each : (((runs label rows).take count).map label).Nodup) :
    BestRows key label rows count ((runs label rows).take count) := by
  have split := List.take_append_drop count (runs label rows)
  have strict := ranked.pairwise_runs
  rw [← split] at strict
  obtain ⟨keptFalls, -, across⟩ := List.pairwise_append.mp strict
  refine ⟨each, fun row rowMem => ⟨mem_of_mem_runs (List.mem_of_mem_take rowMem),
    fun other otherMem same => ?_⟩, keptFalls.imp fun below => below.le, fun row rowMem => ?_⟩
  · obtain ⟨head, headMem, alike, atLeast, -⟩ := ranked.exists_head otherMem
    rw [← split] at headMem
    refine atLeast.trans ?_
    rcases List.mem_append.mp headMem with kept | dropped
    · rw [List.inj_on_of_nodup_map each kept rowMem (alike.trans same)]
    · exact (across row rowMem head dropped).le
  · obtain ⟨head, headMem, alike, atLeast, -⟩ := ranked.exists_head rowMem
    rw [← split] at headMem
    rcases List.mem_append.mp headMem with kept | dropped
    · exact Or.inl (List.mem_map.mpr ⟨head, kept, alike⟩)
    · right
      refine ⟨?_, fun best bestMem => atLeast.trans (across best bestMem head dropped).le⟩
      rw [List.length_take]
      refine Nat.min_eq_left ?_
      by_contra short
      rw [List.drop_eq_nil_of_le (Nat.not_le.mp short).le] at dropped
      cases dropped

end Ranking
