import LocalHold.Coding.Separated
import LocalHold.Store.Query
import LocalHold.Transition.Checked
import LocalHold.Utf8
import LocalHold.Validation
import Mathlib.Data.Finset.Card
import Mathlib.Data.Finset.Insert
import Mathlib.Data.List.Nodup
import Mathlib.Data.Set.Card

/-!
# Expanding scope keys into their ancestors

A legacy scope key names a place in a hierarchy, with slashes between its
segments.  A filter on scopes is widened to the ancestors of its keys, up to a
depth and a number of values.  The widened list replaces the given one only if
the two have different lengths.
-/

namespace LocalHold

open Coding

/-- `MAX_LEGACY_SCOPE_DEPTH`. -/
def maxLegacyScopeDepth : Nat := 32

/-- `MAX_EXPANDED_LEGACY_SCOPES`. -/
def maxExpandedLegacyScopes : Nat := 256

/-- `&s[..pos]` for `s.rfind('/')`. -/
def beforeLastSlash (s : String) : Option String :=
  (parent? '/' s.toList).map String.ofList

theorem length_lt_of_beforeLastSlash {s shorter : String}
    (cut : beforeLastSlash s = some shorter) : shorter.length < s.length := by
  obtain ⟨letters, cutLetters, rfl⟩ := Option.map_eq_some_iff.mp cut
  rw [String.length_ofList]
  exact length_lt_of_parent? cutLetters

/-- The loop of `expand_scope_hierarchy`. -/
def expandAncestors (s : String) : List String :=
  match _cut : beforeLastSlash s with
  | none => []
  | some shorter =>
      if shorter.isEmpty then expandAncestors shorter
      else shorter :: expandAncestors shorter
termination_by s.length
decreasing_by
  · exact length_lt_of_beforeLastSlash _cut
  · exact length_lt_of_beforeLastSlash _cut

/-- `expand_scope_hierarchy`. -/
def expandScopeHierarchy (scope : String) : List String :=
  if scope.isEmpty then [] else scope :: expandAncestors scope

/-- The local variables of `expand_scope_keys`. -/
structure ScopeExpansion where
  seen : Finset String
  expanded : List String
deriving DecidableEq

/-- The inner loop of `expand_scope_keys`. -/
def ScopeExpansion.push (state : ScopeExpansion) (ancestor : String) :
    Except ValidationError ScopeExpansion :=
  if ancestor ∈ state.seen then .ok state
  else if maxExpandedLegacyScopes ≤ state.expanded.length then
    .error ⟨"scope", "expanded legacy scope selection must contain at most 256 unique values"⟩
  else .ok ⟨insert ancestor state.seen, state.expanded ++ [ancestor]⟩

/-- `key.split('/').count()`. -/
def scopeDepth (key : String) : Nat :=
  (key.toList.splitOn '/').length

/-- The outer loop of `expand_scope_keys`. -/
def ScopeExpansion.addKey (state : ScopeExpansion) (key : String) :
    Except ValidationError ScopeExpansion :=
  if maxLegacyScopeDepth < scopeDepth key then
    .error ⟨"scope", "legacy scope hierarchy depth must be at most 32"⟩
  else (expandScopeHierarchy key).foldlM ScopeExpansion.push state

/-- `expand_scope_keys`. -/
def expandScopeKeys (scopeKeys : List String) : Except ValidationError (List String) := do
  let state ← scopeKeys.foldlM ScopeExpansion.addKey ⟨∅, []⟩
  .ok state.expanded

/-- `maybe_expand_scope_hierarchy`. -/
def maybeExpandScopeHierarchy (filter : MemoryFilter) (expand : Bool) :
    Except ValidationError MemoryFilter :=
  match expand, filter.scopesAny with
  | true, some scopeKeys => do
      let expanded ← expandScopeKeys scopeKeys
      if expanded.length ≠ scopeKeys.length then .ok { filter with scopesAny := some expanded }
      else .ok filter
  | _, _ => .ok filter

/-! ## The hierarchy -/

/-- A non-empty proper prefix that ends in front of a slash. -/
def IsScopeAncestor (value key : String) : Prop :=
  value ≠ "" ∧ ∃ rest, key = value ++ "/" ++ rest

/-- The keys together with their ancestors. -/
def scopeClosure (scopeKeys : List String) : Set String :=
  { value | ∃ key ∈ scopeKeys, value = key ∨ IsScopeAncestor value key }

section Hierarchy

variable {value key s : String}

/-- The loop pushes the texts in front of the slashes that are not empty. -/
theorem expandAncestors_eq (s : String) :
    expandAncestors s =
      ((ancestors '/' s.toList).map String.ofList).filter fun value => !value.isEmpty := by
  fun_induction expandAncestors s with
  | case1 s uncut =>
      rw [ancestors, Option.map_eq_none_iff.mp uncut]
      rfl
  | case2 s shorter cut empty inductionHypothesis =>
      obtain ⟨letters, cutLetters, rfl⟩ := Option.map_eq_some_iff.mp cut
      rw [String.toList_ofList] at inductionHypothesis
      rw [ancestors, cutLetters, inductionHypothesis]
      simp [empty]
  | case3 s shorter cut filled inductionHypothesis =>
      obtain ⟨letters, cutLetters, rfl⟩ := Option.map_eq_some_iff.mp cut
      rw [String.toList_ofList] at inductionHypothesis
      rw [ancestors, cutLetters, inductionHypothesis]
      simp [filled]

theorem mem_expandAncestors_iff : value ∈ expandAncestors s ↔ IsScopeAncestor value s := by
  rw [expandAncestors_eq, List.mem_filter, List.mem_map]
  constructor
  · rintro ⟨⟨letters, placed, rfl⟩, filled⟩
    obtain ⟨rest, split⟩ := mem_ancestors_iff.mp placed
    refine ⟨?_, String.ofList rest, String.toList_injective ?_⟩
    · intro empty
      rw [empty] at filled
      cases filled
    · rw [split]
      simp
  · rintro ⟨filled, rest, rfl⟩
    refine ⟨⟨value.toList, mem_ancestors_iff.mpr ⟨rest.toList, by simp⟩, String.ofList_toList⟩, ?_⟩
    simpa using filled

/-- A key that is not empty expands to itself and its ancestors. -/
theorem mem_expandScopeHierarchy_iff (filled : key ≠ "") :
    value ∈ expandScopeHierarchy key ↔ value = key ∨ IsScopeAncestor value key := by
  rw [expandScopeHierarchy, if_neg (by simpa using filled), List.mem_cons, mem_expandAncestors_iff]

/-- The loop makes a turn for each slash. -/
theorem length_expandScopeHierarchy_le (key : String) :
    (expandScopeHierarchy key).length ≤ scopeDepth key := by
  rw [expandScopeHierarchy, scopeDepth, length_splitOn]
  split
  · exact Nat.zero_le _
  · rw [List.length_cons, expandAncestors_eq, ← length_ancestors]
    refine Nat.succ_le_succ (Nat.le_trans (List.length_filter_le _ _) ?_)
    rw [List.length_map]

end Hierarchy

/-! ## The loops -/

namespace ScopeExpansion

/-- The set and the list hold the same values, and not too many. -/
structure Holds (state : ScopeExpansion) (values : Finset String) : Prop where
  seen : state.seen = values
  nodup : state.expanded.Nodup
  listed : state.expanded.toFinset = values
  few : values.card ≤ maxExpandedLegacyScopes

variable {state : ScopeExpansion} {values : Finset String}

theorem Holds.length_eq (holds : state.Holds values) : state.expanded.length = values.card := by
  rw [← holds.listed, List.toFinset_card_of_nodup holds.nodup]

/-- One value is added, unless it is one too many. -/
theorem Holds.push_eq (holds : state.Holds values) (ancestor : String) :
    ((insert ancestor values).card ≤ maxExpandedLegacyScopes ∧
        ∃ next, state.push ancestor = .ok next ∧ next.Holds (insert ancestor values)) ∨
      (maxExpandedLegacyScopes < (insert ancestor values).card ∧
        ∃ error, state.push ancestor = .error error) := by
  rw [push, holds.seen]
  by_cases known : ancestor ∈ values
  · rw [if_pos known, Finset.insert_eq_of_mem known]
    exact .inl ⟨holds.few, state, rfl, holds⟩
  · rw [if_neg known, holds.length_eq, Finset.card_insert_of_notMem known]
    by_cases full : maxExpandedLegacyScopes ≤ values.card
    · rw [if_pos full]
      exact .inr ⟨Nat.lt_succ_of_le full, _, rfl⟩
    · rw [if_neg full]
      have room : values.card + 1 ≤ maxExpandedLegacyScopes := Nat.lt_of_not_le full
      refine .inl ⟨room, _, rfl, rfl, ?_, ?_, ?_⟩
      · refine List.nodup_append.mpr ⟨holds.nodup, List.nodup_singleton _, ?_⟩
        rintro value placed _ same rfl
        rw [List.mem_singleton] at same
        rw [← holds.listed, List.mem_toFinset, ← same] at known
        exact known placed
      · rw [List.toFinset_append, holds.listed, Finset.union_comm, List.toFinset_cons,
          List.toFinset_nil, Finset.insert_union, Finset.empty_union]
      · rw [Finset.card_insert_of_notMem known]
        exact room

/-- The values of one key are added, unless they are too many together. -/
theorem Holds.pushAll_eq (holds : state.Holds values) (added : List String) :
    ((values ∪ added.toFinset).card ≤ maxExpandedLegacyScopes ∧
        ∃ next, added.foldlM push state = .ok next ∧ next.Holds (values ∪ added.toFinset)) ∨
      (maxExpandedLegacyScopes < (values ∪ added.toFinset).card ∧
        ∃ error, added.foldlM push state = .error error) := by
  induction added generalizing state values with
  | nil =>
      rw [List.toFinset_nil, Finset.union_empty]
      exact .inl ⟨holds.few, state, rfl, holds⟩
  | cons ancestor added inductionHypothesis =>
      have union : values ∪ (ancestor :: added).toFinset =
          insert ancestor values ∪ added.toFinset := by
        rw [List.toFinset_cons, Finset.union_insert, Finset.insert_union]
      rw [List.foldlM_cons, union]
      rcases holds.push_eq ancestor with ⟨_, next, pushed, nextHolds⟩ | ⟨many, error, failed⟩
      · rw [pushed]
        exact inductionHypothesis nextHolds
      · rw [failed]
        exact .inr ⟨Nat.lt_of_lt_of_le many (Finset.card_le_card Finset.subset_union_left),
          error, rfl⟩

/-- The keys are added one after the other, unless one is too deep or the values
are too many together. -/
theorem Holds.addKeys_eq (holds : state.Holds values) (scopeKeys : List String) :
    ((∀ key ∈ scopeKeys, scopeDepth key ≤ maxLegacyScopeDepth) ∧
        (values ∪ (scopeKeys.flatMap expandScopeHierarchy).toFinset).card ≤
          maxExpandedLegacyScopes ∧
        ∃ next, scopeKeys.foldlM addKey state = .ok next ∧
          next.Holds (values ∪ (scopeKeys.flatMap expandScopeHierarchy).toFinset)) ∨
      (((∃ key ∈ scopeKeys, maxLegacyScopeDepth < scopeDepth key) ∨
        maxExpandedLegacyScopes <
          (values ∪ (scopeKeys.flatMap expandScopeHierarchy).toFinset).card) ∧
        ∃ error, scopeKeys.foldlM addKey state = .error error) := by
  induction scopeKeys generalizing state values with
  | nil =>
      rw [List.flatMap_nil, List.toFinset_nil, Finset.union_empty]
      exact .inl ⟨by simp, holds.few, state, rfl, holds⟩
  | cons key scopeKeys inductionHypothesis =>
      rw [List.flatMap_cons, List.toFinset_append, ← Finset.union_assoc, List.foldlM_cons, addKey]
      by_cases deep : maxLegacyScopeDepth < scopeDepth key
      · rw [if_pos deep]
        exact .inr ⟨.inl ⟨key, List.mem_cons_self, deep⟩, _, rfl⟩
      · rw [if_neg deep]
        rcases holds.pushAll_eq (expandScopeHierarchy key) with
          ⟨_, next, pushed, nextHolds⟩ | ⟨many, error, failed⟩
        · rw [pushed]
          rcases inductionHypothesis nextHolds with ⟨shallow, few, ran⟩ | ⟨broken, ran⟩
          · refine .inl ⟨?_, few, ran⟩
            exact List.forall_mem_cons.mpr ⟨Nat.le_of_not_lt deep, shallow⟩
          · refine .inr ⟨broken.imp ?_ id, ran⟩
            exact fun ⟨other, placed, otherDeep⟩ =>
              ⟨other, List.mem_cons_of_mem _ placed, otherDeep⟩
        · rw [failed]
          exact .inr ⟨.inr (Nat.lt_of_lt_of_le many
            (Finset.card_le_card Finset.subset_union_left)), error, rfl⟩

end ScopeExpansion

/-! ## The filter -/

section Filter

variable {filter : MemoryFilter} {scopeKeys : List String}

theorem coe_expandScopeHierarchy (filled : ∀ key ∈ scopeKeys, key ≠ "") :
    ((scopeKeys.flatMap expandScopeHierarchy).toFinset : Set String) = scopeClosure scopeKeys := by
  ext value
  rw [Finset.mem_coe, List.mem_toFinset, List.mem_flatMap]
  constructor
  · rintro ⟨key, placed, expanded⟩
    exact ⟨key, placed, (mem_expandScopeHierarchy_iff (filled key placed)).mp expanded⟩
  · rintro ⟨key, placed, closed⟩
    exact ⟨key, placed, (mem_expandScopeHierarchy_iff (filled key placed)).mpr closed⟩

/-- Some key is too deep, or there are too many keys and ancestors. -/
def ScopesRefused (scopeKeys : List String) : Prop :=
  (∃ key ∈ scopeKeys, maxLegacyScopeDepth < scopeDepth key) ∨
    maxExpandedLegacyScopes < (scopeClosure scopeKeys).ncard

/-- The keys expand to the values of their closure, or are refused. -/
theorem expandScopeKeys_eq (filled : ∀ key ∈ scopeKeys, key ≠ "") :
    (¬ ScopesRefused scopeKeys ∧ ∃ expanded, expandScopeKeys scopeKeys = .ok expanded ∧
        (∀ value, value ∈ expanded ↔ value ∈ scopeClosure scopeKeys) ∧
        expanded.length = (scopeClosure scopeKeys).ncard) ∨
      (ScopesRefused scopeKeys ∧ ∃ error, expandScopeKeys scopeKeys = .error error) := by
  have start : (ScopeExpansion.mk ∅ []).Holds ∅ :=
    ⟨rfl, List.nodup_nil, List.toFinset_nil, Nat.zero_le _⟩
  have closed := coe_expandScopeHierarchy filled
  have counted : (scopeClosure scopeKeys).ncard =
      (scopeKeys.flatMap expandScopeHierarchy).toFinset.card := by
    rw [← closed, Set.ncard_coe_finset]
  have outcome := start.addKeys_eq scopeKeys
  rw [Finset.empty_union, ← counted] at outcome
  rcases outcome with ⟨shallow, few, state, ran, holds⟩ | ⟨refused, error, ran⟩
  · refine .inl ⟨?_, state.expanded, by rw [expandScopeKeys, ran]; rfl, fun value => ?_, ?_⟩
    · rintro (⟨key, placed, deep⟩ | many)
      · exact Nat.not_lt_of_le (shallow key placed) deep
      · exact Nat.not_lt_of_le few many
    · rw [← closed, Finset.mem_coe, ← holds.listed, List.mem_toFinset]
    · rw [holds.length_eq, counted]
  · exact .inr ⟨refused, error, by rw [expandScopeKeys, ran]; rfl⟩

/-- The expansion of a filter on these keys: it is refused for too deep keys and
too many values alone, it gives the keys with all their ancestors, and its loop
makes a turn for each segment at most. -/
structure ExpandsScopes (filter : MemoryFilter) (scopeKeys : List String) : Prop where
  refused_iff : (∃ error, maybeExpandScopeHierarchy filter true = .error error) ↔
    ScopesRefused scopeKeys
  values : ∀ next, maybeExpandScopeHierarchy filter true = .ok next →
    ∃ values, next.scopesAny = some values ∧
      ∀ value, value ∈ values ↔ value ∈ scopeClosure scopeKeys
  turns : ∀ key ∈ scopeKeys, (expandScopeHierarchy key).length ≤ scopeDepth key

/-- The list is accepted and as long as its keys and their ancestors are many,
but lacks one of these: its repetitions make up for what is missing. -/
def AncestorsHidden (scopeKeys : List String) : Prop :=
  ¬ ScopesRefused scopeKeys ∧ (scopeClosure scopeKeys).ncard = scopeKeys.length ∧
    ∃ value ∈ scopeClosure scopeKeys, value ∉ scopeKeys

theorem mem_scopeClosure {key : String} (placed : key ∈ scopeKeys) :
    key ∈ scopeClosure scopeKeys :=
  ⟨key, placed, .inl rfl⟩

/-- What the filter gets from accepted keys. -/
theorem maybeExpandScopeHierarchy_eq (listed : filter.scopesAny = some scopeKeys)
    {expanded : List String} (ran : expandScopeKeys scopeKeys = .ok expanded) :
    maybeExpandScopeHierarchy filter true =
      .ok (if expanded.length ≠ scopeKeys.length then { filter with scopesAny := some expanded }
        else filter) := by
  unfold maybeExpandScopeHierarchy
  rw [listed]
  refine Transition.Checked.bind_eq_ok.mpr ⟨expanded, ran, ?_⟩
  split <;> rfl

/-- A filter is expanded exactly unless repetitions hide the added ancestors. -/
theorem scopes_expanded_iff (filter : MemoryFilter) (scopeKeys : List String)
    (listed : filter.scopesAny = some scopeKeys) (filled : ∀ key ∈ scopeKeys, key ≠ "") :
    ExpandsScopes filter scopeKeys ↔ ¬ AncestorsHidden scopeKeys := by
  have turns : ∀ key ∈ scopeKeys, (expandScopeHierarchy key).length ≤ scopeDepth key :=
    fun key _ => length_expandScopeHierarchy_le key
  rcases expandScopeKeys_eq filled with
    ⟨accepted, expanded, ran, members, length⟩ | ⟨refused, error, ran⟩
  · have result := maybeExpandScopeHierarchy_eq listed ran
    have refused_iff : (∃ error, maybeExpandScopeHierarchy filter true = .error error) ↔
        ScopesRefused scopeKeys := by
      rw [result]
      exact iff_of_false (fun ⟨_, failed⟩ => by cases failed) accepted
    constructor
    · rintro expands ⟨_, sameLength, value, closed, missing⟩
      rw [← length] at sameLength
      rw [if_neg (not_not_intro sameLength)] at result
      obtain ⟨values, valuesEq, exact_⟩ := expands.values filter result
      rw [listed] at valuesEq
      cases valuesEq
      exact missing ((exact_ value).mpr closed)
    · intro shown
      refine ⟨refused_iff, fun next nextRan => ?_, turns⟩
      rw [result] at nextRan
      cases nextRan
      by_cases changed : expanded.length ≠ scopeKeys.length
      · rw [if_pos changed]
        exact ⟨expanded, rfl, members⟩
      · rw [if_neg changed]
        refine ⟨scopeKeys, listed, fun value => ⟨mem_scopeClosure, fun closed => ?_⟩⟩
        by_contra missing
        exact shown ⟨accepted, by rw [← length]; exact not_not.mp changed, value, closed, missing⟩
  · have failed : maybeExpandScopeHierarchy filter true = .error error := by
      unfold maybeExpandScopeHierarchy
      rw [listed]
      dsimp only
      rw [ran]
      rfl
    refine iff_of_true ⟨iff_of_true ⟨error, failed⟩ refused, fun next nextRan => ?_, turns⟩
      fun hidden => hidden.1 refused
    rw [failed] at nextRan
    cases nextRan

/-- The keys of a filter. -/
def filterOfScopes (scopeKeys : List String) : MemoryFilter :=
  { MemoryFilter.default with scopesAny := some scopeKeys }

theorem scopes_expanded_single :
    ExpandsScopes (filterOfScopes ["a/b"]) ["a/b"] ↔ ¬ AncestorsHidden ["a/b"] :=
  scopes_expanded_iff (filterOfScopes ["a/b"]) ["a/b"] rfl (by simp)

/-- A repeated key hides its ancestor. -/
theorem repeated_scope_not_expanded :
    ∃ next, maybeExpandScopeHierarchy (filterOfScopes ["a/b", "a/b"]) true = .ok next ∧
      ¬ ∃ values, next.scopesAny = some values ∧
        ∀ value, value ∈ values ↔ value ∈ scopeClosure ["a/b", "a/b"] := by
  have ran : expandScopeKeys ["a/b", "a/b"] = .ok ["a/b", "a"] := by decide +kernel
  refine ⟨_, maybeExpandScopeHierarchy_eq rfl ran, ?_⟩
  rintro ⟨values, valuesEq, members⟩
  cases valuesEq
  have ancestor : "a" ∈ scopeClosure ["a/b", "a/b"] :=
    ⟨"a/b", List.mem_cons_self, .inr ⟨by decide, "b", by decide⟩⟩
  exact absurd ((members "a").mpr ancestor) (by decide)

end Filter

end LocalHold
