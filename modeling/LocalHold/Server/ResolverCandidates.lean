import LocalHold.Ordered.Runs
import LocalHold.Server.MembershipLaw
import Mathlib.Data.Prod.Lex

/-!
# The candidates of a resolution

The lookups of a resolution that find no context exactly gather candidates, each
with a score.  The gathered candidates are sorted by score, neighbours of one
context are dropped, and five remain.  A context that two lookups score
differently is offered twice when the candidate of another context lies between
its two scores.
-/

namespace LocalHold

open Ranking Relational Transition.Checked

variable [Host] [IdentityHost]

/-! ## Gathering -/

/-- The keys of the references that find no context. -/
def unresolvedKeyRefs (db : Db) (principal : String) (refs : List ContextReference) :
    List (String × Option ContextKind) :=
  refs.flatMap fun reference =>
    match exactContextLookup reference with
    | .error _ => []
    | .ok lookup =>
        if (db.findContextRecords principal false lookup).isEmpty then
          (reference.key.map fun key => (key, reference.kind)).toList
        else
          []

omit [IdentityHost] in
/-- The hints and query texts that find no context, by key or by resolver hint. -/
def unresolvedValues (db : Db) (principal : String) (values : List String) : List String :=
  (values.filter fun value =>
    (db.findContextRecords principal false (.key none (normalizeContextKey value))).isEmpty).filter
      fun value => ((db.authorizedContextRecords principal).filter
        (matchesResolverHint (normalizeContextKey value))).isEmpty

/-- The fuzzy lookups of a resolution. -/
def fuzzyLookups (db : Db) (principal : String) (envelope : ContextEnvelope)
    (query : Option String) : List (String × Option ContextKind) :=
  unresolvedKeyRefs db principal envelope.refs ++
    (unresolvedValues db principal (lookupValues envelope query)).map fun value => (value, none)

/-- The candidates of all fuzzy lookups, over all authorized contexts. -/
def gatheredCandidates (db : Db) (principal : String) (envelope : ContextEnvelope)
    (query : Option String) : List ContextCandidate :=
  (fuzzyLookups db principal envelope query).flatMap fun lookup =>
    fuzzyContextCandidates (db.authorizedContextRecords principal) lookup.1 lookup.2

section Lookups

variable {db : Db} {principal : String}

theorem parts_of_resolveReference {state next : SelectionState} {reference : ContextReference}
    (ran : resolveReference db principal state reference = .ok next) :
    next.candidates = state.candidates ∧
      next.unresolvedLookupValues = state.unresolvedLookupValues ∧
      next.unresolvedKeyRefs =
        state.unresolvedKeyRefs ++ unresolvedKeyRefs db principal [reference] := by
  rw [resolveReference] at ran
  obtain ⟨lookup, lookupRan, ran⟩ := bind_eq_ok.mp ran
  rw [unresolvedKeyRefs, List.flatMap_singleton, lookupRan]
  dsimp only
  split at ran
  case h_1 record found =>
    cases ran
    rw [found]
    exact ⟨rfl, rfl, (List.append_nil _).symm⟩
  case h_2 found =>
    cases ran
    rw [found]
    exact ⟨rfl, rfl, rfl⟩
  case h_3 => cases ran

omit [IdentityHost] in
theorem parts_of_resolveLookupValue {state next : SelectionState} {value : String}
    (ran : resolveLookupValue db principal state value = .ok next) :
    next.candidates = state.candidates ∧ next.unresolvedKeyRefs = state.unresolvedKeyRefs ∧
      next.unresolvedLookupValues = state.unresolvedLookupValues ++ [value].filter fun value =>
        (db.findContextRecords principal false (.key none (normalizeContextKey value))).isEmpty := by
  rw [resolveLookupValue] at ran
  split at ran
  case h_1 record found =>
    cases ran
    rw [List.filter_singleton, found]
    exact ⟨rfl, rfl, (List.append_nil _).symm⟩
  case h_2 found =>
    cases ran
    rw [List.filter_singleton, found]
    exact ⟨rfl, rfl, rfl⟩
  case h_3 => cases ran

omit [IdentityHost] in
theorem candidates_of_resolveHint {records : List ContextRecord} {state next : SelectionState}
    {value : String} (ran : resolveHint records state value = .ok next) :
    next.candidates = state.candidates ++
      ([value].filter fun value =>
        (records.filter (matchesResolverHint (normalizeContextKey value))).isEmpty).flatMap
          fun value => fuzzyContextCandidates records value none := by
  rw [resolveHint] at ran
  split at ran
  case h_1 record found =>
    cases ran
    rw [List.filter_singleton, found]
    exact (List.append_nil _).symm
  case h_2 found =>
    cases ran
    rw [List.filter_singleton, found]
    simp
  case h_3 => cases ran

/-- The lookup phases rank the gathered candidates. -/
theorem candidates_of_lookupSelection {envelope : ContextEnvelope} {query : Option String}
    {state : SelectionState} (ran : lookupSelection db principal envelope query = .ok state) :
    state.candidates = rankCandidates (gatheredCandidates db principal envelope query) := by
  rw [lookupSelection] at ran
  obtain ⟨referenced, referencedRan, ran⟩ := bind_eq_ok.mp ran
  obtain ⟨looked, lookedRan, ran⟩ := bind_eq_ok.mp ran
  obtain ⟨hinted, hintedRan, done⟩ := bind_eq_ok.mp ran
  cases done
  have keyRefs : looked.unresolvedKeyRefs = unresolvedKeyRefs db principal envelope.refs := by
    rw [foldlM_leaves SelectionState.unresolvedKeyRefs
        (fun _ _ _ stepRan => (parts_of_resolveLookupValue stepRan).2.1) lookedRan,
      foldlM_appends SelectionState.unresolvedKeyRefs
        (fun reference => unresolvedKeyRefs db principal [reference])
        (fun _ _ _ stepRan => (parts_of_resolveReference stepRan).2.2) referencedRan]
    simp only [SelectionState.start, List.nil_append, unresolvedKeyRefs, List.flatMap_singleton]
  have values : looked.unresolvedLookupValues =
      (lookupValues envelope query).filter fun value =>
        (db.findContextRecords principal false (.key none (normalizeContextKey value))).isEmpty := by
    rw [foldlM_appends SelectionState.unresolvedLookupValues
        (fun value => [value].filter fun value =>
          (db.findContextRecords principal false (.key none (normalizeContextKey value))).isEmpty)
        (fun _ _ _ stepRan => (parts_of_resolveLookupValue stepRan).2.2) lookedRan,
      foldlM_leaves SelectionState.unresolvedLookupValues
        (fun _ _ _ stepRan => (parts_of_resolveReference stepRan).2.1) referencedRan,
      ← List.filter_flatMap, List.flatMap_singleton']
    rfl
  have noCandidates : looked.candidates = [] := by
    rw [foldlM_leaves SelectionState.candidates
        (fun _ _ _ stepRan => (parts_of_resolveLookupValue stepRan).1) lookedRan,
      foldlM_leaves SelectionState.candidates
        (fun _ _ _ stepRan => (parts_of_resolveReference stepRan).1) referencedRan]
    rfl
  have hints := foldlM_appends SelectionState.candidates
    (fun value => ([value].filter fun value => ((fuzzyRecords db principal looked).filter
      (matchesResolverHint (normalizeContextKey value))).isEmpty).flatMap fun value =>
        fuzzyContextCandidates (fuzzyRecords db principal looked) value none)
    (fun _ _ _ stepRan => candidates_of_resolveHint stepRan) hintedRan
  have gathered : hinted.candidates = gatheredCandidates db principal envelope query := by
    rw [hints, ← List.flatMap_assoc, ← List.filter_flatMap, List.flatMap_singleton']
    dsimp only
    rw [noCandidates, List.nil_append, keyRefCandidates, gatheredCandidates, fuzzyLookups,
      List.flatMap_append, List.flatMap_map, unresolvedValues, ← values, ← keyRefs]
    by_cases resolved : (looked.unresolvedKeyRefs.isEmpty &&
        looked.unresolvedLookupValues.isEmpty) = true
    · rw [Bool.and_eq_true, List.isEmpty_iff, List.isEmpty_iff] at resolved
      rw [resolved.1, resolved.2]
      rfl
    · rw [fuzzyRecords, if_neg resolved]
  exact congrArg rankCandidates gathered

end Lookups

/-! ## Ranking -/

section Offered

omit [Host] [IdentityHost]

/-- The context of a candidate. -/
def ContextCandidate.id (candidate : ContextCandidate) : ContextId :=
  candidate.context.id

/-- What candidates are sorted by, the largest first: the score, then the
smaller identifier. -/
def candidateKey (candidate : ContextCandidate) : ℚ ×ₗ ContextIdᵒᵈ :=
  toLex (candidate.score, OrderDual.toDual candidate.id)

theorem score_le_of_candidateKey_le {first second : ContextCandidate}
    (below : candidateKey first ≤ candidateKey second) : first.score ≤ second.score := by
  rcases Prod.Lex.le_iff.mp below with less | ⟨same, -⟩
  · exact less.le
  · exact same.le

theorem id_of_candidateKey_eq {first second : ContextCandidate}
    (same : candidateKey first = candidateKey second) : first.id = second.id :=
  congrArg (fun key => OrderDual.ofDual (ofLex key).2) same

/-- Ranking sorts by the key and keeps the first of each run of one context. -/
theorem rankCandidates_eq (candidates : List ContextCandidate) :
    rankCandidates candidates =
      (runs ContextCandidate.id (rankBy candidateKey candidates)).take maxContextConfirmations := by
  have before : (fun first second : ContextCandidate => decide (second.score < first.score) ||
      (first.score == second.score && decide (first.context.id ≤ second.context.id))) =
        fun first second => decide (candidateKey second ≤ candidateKey first) := by
    funext first second
    rw [Bool.eq_iff_iff, decide_eq_true_iff, candidateKey, candidateKey, Prod.Lex.toLex_le_toLex]
    simp only [Bool.or_eq_true, Bool.and_eq_true, decide_eq_true_iff, beq_iff_eq,
      OrderDual.toDual_le_toDual]
    constructor
    · rintro (less | ⟨same, ordered⟩)
      · exact Or.inl less
      · exact Or.inr ⟨same.symm, ordered⟩
    · rintro (less | ⟨same, ordered⟩)
      · exact Or.inl less
      · exact Or.inr ⟨same.symm, ordered⟩
  rw [rankCandidates, before]
  rfl

theorem ranked_rankBy_candidateKey (candidates : List ContextCandidate) :
    Ranked candidateKey ContextCandidate.id (rankBy candidateKey candidates) :=
  ⟨pairwise_rankBy candidateKey candidates, fun _ _ _ _ same => id_of_candidateKey_eq same⟩

/-- What a list of offered candidates promises about the gathered ones. -/
structure BestCandidates (gathered offered : List ContextCandidate) : Prop where
  /-- Each context at most once. -/
  once : (offered.map ContextCandidate.id).Nodup
  /-- With its best score over all lookups. -/
  best : ∀ candidate ∈ offered, candidate ∈ gathered ∧
    ∀ other ∈ gathered, other.id = candidate.id → other.score ≤ candidate.score
  sorted : offered.Pairwise fun first second => second.score ≤ first.score
  /-- No better context is left out. -/
  complete : ∀ candidate ∈ gathered, candidate.id ∈ offered.map ContextCandidate.id ∨
    (offered.length = maxContextConfirmations ∧
      ∀ kept ∈ offered, candidate.score ≤ kept.score)

/-- A context whose candidates are cut apart by one of another context comes back
only after as many contexts as are offered. -/
def NoEarlyReturn (gathered : List ContextCandidate) : Prop :=
  ∀ late ∈ gathered, ComesBack candidateKey ContextCandidate.id gathered late →
    maxContextConfirmations ≤
      (labelsAbove candidateKey ContextCandidate.id gathered (candidateKey late)).length

/-- The ranking keeps its promise exactly when no context comes back early. -/
theorem bestCandidates_rankCandidates_iff (gathered : List ContextCandidate) :
    BestCandidates gathered (rankCandidates gathered) ↔ NoEarlyReturn gathered := by
  have ranked := ranked_rankBy_candidateKey gathered
  have above (bound : ℚ ×ₗ ContextIdᵒᵈ) :
      (labelsAbove candidateKey ContextCandidate.id (rankBy candidateKey gathered) bound).length =
        (labelsAbove candidateKey ContextCandidate.id gathered bound).length :=
    ((((perm_rankBy candidateKey gathered).filter _).map _).dedup).length_eq
  have early : (∀ late ∈ rankBy candidateKey gathered,
      ComesBack candidateKey ContextCandidate.id (rankBy candidateKey gathered) late →
        maxContextConfirmations ≤ (labelsAbove candidateKey ContextCandidate.id
          (rankBy candidateKey gathered) (candidateKey late)).length) ↔ NoEarlyReturn gathered := by
    simp only [above, ComesBack, mem_rankBy, NoEarlyReturn]
  rw [← early, ← ranked.nodup_take_runs_iff, rankCandidates_eq]
  constructor
  · exact BestCandidates.once
  · intro each
    have kept := ranked.bestRows_take_runs each
    refine ⟨each, fun candidate offered => ?_, kept.sorted.imp score_le_of_candidateKey_le,
      fun candidate member => ?_⟩
    · obtain ⟨inside, largest⟩ := kept.largest candidate offered
      refine ⟨mem_rankBy.mp inside, fun other otherMem same => ?_⟩
      exact score_le_of_candidateKey_le (largest other (mem_rankBy.mpr otherMem) same)
    · rcases kept.complete candidate (mem_rankBy.mpr member) with offered | ⟨full, below⟩
      · exact Or.inl offered
      · exact Or.inr ⟨full, fun best bestMem => score_le_of_candidateKey_le (below best bestMem)⟩

end Offered

/-! ## The candidates of the result -/

section Results

variable {db : Db} {principal : String} {envelope : ContextEnvelope} {query : Option String}
  {state : SelectionState}

omit [Host] [IdentityHost] in
theorem candidates_of_resolvePolicies [Host] {policyState : ContextPolicyState}
    {governedWrite : Bool} {selection : ResolvedContextSelection}
    (ran : resolvePolicies db principal policyState envelope governedWrite state =
      .ok selection) : selection.resolution.candidates = state.candidates := by
  rw [resolvePolicies] at ran
  obtain ⟨effective, -, ran⟩ := bind_eq_ok.mp ran
  obtain ⟨_, -, ran⟩ := bind_eq_ok.mp ran
  cases ran
  rfl

omit [Host] [IdentityHost] in
/-- Choosing defaults adds no candidates. -/
theorem candidates_of_selectDefaults [Host] {policies : List EffectiveContextPolicy}
    {guidance : List String} {next : SelectionState}
    (ran : selectDefaults db principal policies guidance state = .ok next) :
    next.candidates = state.candidates := by
  have one (defaults : DefaultState) (policy : EffectiveContextPolicy) :
      (selectDefault db principal defaults policy).selection.candidates =
        defaults.selection.candidates := by
    have missing (problem : String) : (selectDefault.missing policy defaults
        problem).selection.candidates = defaults.selection.candidates := by
      rw [selectDefault.missing]
      split
      · rfl
      · rfl
    rw [selectDefault]
    split
    · split
      · exact missing _
      · split
        · split
          · rfl
          · exact missing _
        · exact missing _
    · exact missing _
  have all (policies : List EffectiveContextPolicy) (defaults : DefaultState) :
      (policies.foldl (selectDefault db principal) defaults).selection.candidates =
        defaults.selection.candidates := by
    induction policies generalizing defaults with
    | nil => rfl
    | cons policy rest inductionHypothesis =>
        rw [List.foldl_cons, inductionHypothesis, one]
  rw [selectDefaults] at ran
  obtain ⟨-, done⟩ := of_ensure_bind ran
  cases done
  exact all policies _

/-- The candidates of an outcome. -/
def EmptyOutcome.candidates : EmptyOutcome → List ContextCandidate
  | .done selection => selection.resolution.candidates
  | .proceed state => state.candidates

omit [Host] [IdentityHost] in
/-- An empty selection is settled with its candidates, or there was nothing to
look up. -/
theorem candidates_of_settleEmpty {governedWrite : Bool} {guidance : List String}
    {outcome : EmptyOutcome}
    (ran : settleEmpty envelope query governedWrite guidance state = .ok outcome) :
    outcome.candidates = state.candidates ∨
      (envelope.refs = [] ∧ envelope.hints = [] ∧ query = none ∧ outcome.candidates = []) := by
  rw [settleEmpty] at ran
  split at ran
  · split at ran
    · cases ran
      exact Or.inl rfl
    · next notQueried =>
      split at ran
      · cases ran
      · next nothing =>
        cases ran
        right
        simp only [Bool.or_eq_true, Bool.not_eq_true', not_or, Bool.not_eq_true,
          Bool.not_eq_false, List.isEmpty_iff, Bool.and_eq_true, not_and] at nothing notQueried
        refine ⟨nothing.1.2, nothing.2, ?_, rfl⟩
        cases asked : query with
        | none => rfl
        | some text =>
            rw [asked] at notQueried
            rw [notQueried rfl] at nothing
            cases nothing.1.1
  · cases ran
    exact Or.inl rfl

omit [Host] [IdentityHost] in
theorem candidates_of_resolveEmpty [Host] {policyState : ContextPolicyState} {governedWrite : Bool}
    {outcome : EmptyOutcome}
    (ran : resolveEmpty db principal policyState envelope query governedWrite state =
      .ok outcome) :
    outcome.candidates = state.candidates ∨
      (envelope.refs = [] ∧ envelope.hints = [] ∧ query = none ∧ outcome.candidates = []) := by
  rw [resolveEmpty] at ran
  obtain ⟨-, ran⟩ := of_ensure_bind ran
  split at ran
  · cases ran
    exact Or.inl rfl
  · split at ran
    · obtain ⟨defaulted, defaultedRan, settled⟩ := bind_eq_ok.mp ran
      have same := candidates_of_selectDefaults defaultedRan
      rcases candidates_of_settleEmpty settled with kept | nothing
      · exact Or.inl (kept.trans same)
      · exact Or.inr nothing
    · exact candidates_of_settleEmpty ran

omit [IdentityHost] in
theorem candidates_of_finishSelection {policyState : ContextPolicyState} {governedWrite : Bool}
    {selection : ResolvedContextSelection}
    (ran : finishSelection db principal policyState envelope query governedWrite state =
      .ok selection) :
    selection.resolution.candidates = state.candidates ∨
      (envelope.refs = [] ∧ envelope.hints = [] ∧ query = none ∧
        selection.resolution.candidates = []) := by
  rw [finishSelection] at ran
  obtain ⟨-, ran⟩ := of_ensure_bind ran
  split at ran
  · obtain ⟨outcome, emptyRan, ran⟩ := bind_eq_ok.mp ran
    have kept := candidates_of_resolveEmpty emptyRan
    cases outcome with
    | done settled =>
        cases ran
        exact kept
    | proceed next =>
        have same := candidates_of_resolvePolicies ran
        rw [same]
        exact kept
  · exact Or.inl (candidates_of_resolvePolicies ran)

/-- Without references, hints and query nothing is gathered. -/
theorem gatheredCandidates_nothing (refs : envelope.refs = []) (hints : envelope.hints = []) :
    gatheredCandidates db principal envelope none = [] := by
  rw [gatheredCandidates, fuzzyLookups, lookupValues, refs, hints]
  rfl

/-- A resolution that succeeds returns the ranked candidates. -/
theorem candidates_of_resolveContextSelection {requested : Option ContextEnvelope}
    {governedWrite : Bool} {selection : ResolvedContextSelection}
    (ran : db.resolveContextSelection principal requested query governedWrite = .ok selection) :
    selection.resolution.candidates = rankCandidates
      (gatheredCandidates db principal (requested.getD ContextEnvelope.default) query) := by
  rw [Db.resolveContextSelection] at ran
  obtain ⟨_, -, ran⟩ := bind_eq_ok.mp ran
  split at ran
  · next omitted =>
    cases ran
    simp only [Bool.and_eq_true, Option.isNone_iff_eq_none] at omitted
    rw [omitted.1.1, omitted.1.2]
    rfl
  · obtain ⟨state, lookedUp, ran⟩ := bind_eq_ok.mp ran
    rcases candidates_of_finishSelection ran with kept | ⟨refs, hints, unasked, none⟩
    · rw [kept, candidates_of_lookupSelection lookedUp]
    · rw [none, unasked, gatheredCandidates_nothing refs hints]
      rfl

end Results

/-- The candidates that a resolution offers are the best of the gathered ones,
each context once, exactly when no context comes back early: in the result of a
resolution, and after the lookups, from where its errors take them. -/
theorem resolver_candidates_best_iff (db : Db) (principal : String)
    (requested : Option ContextEnvelope) (query : Option String) :
    (∀ governedWrite selection,
      db.resolveContextSelection principal requested query governedWrite = .ok selection →
        (BestCandidates
            (gatheredCandidates db principal (requested.getD ContextEnvelope.default) query)
            selection.resolution.candidates ↔
          NoEarlyReturn
            (gatheredCandidates db principal (requested.getD ContextEnvelope.default) query))) ∧
    ∀ state, lookupSelection db principal (requested.getD ContextEnvelope.default) query =
        .ok state →
      (BestCandidates
          (gatheredCandidates db principal (requested.getD ContextEnvelope.default) query)
          state.candidates ↔
        NoEarlyReturn
          (gatheredCandidates db principal (requested.getD ContextEnvelope.default) query)) := by
  constructor
  · intro governedWrite selection ran
    rw [candidates_of_resolveContextSelection ran]
    exact bestCandidates_rankCandidates_iff _
  · intro state lookedUp
    rw [candidates_of_lookupSelection lookedUp]
    exact bestCandidates_rankCandidates_iff _

/-! ## Two projects -/

omit [Host] [IdentityHost]

/-- Two projects whose keys are single letters. -/
def letterProjects : List StoreCall :=
  [⟨⟨3, none⟩, 0, .createContext (projectDraft ⟨1⟩ "a b c d")
      ⟨"owner", "memory_context", none, none, none⟩⟩,
    ⟨⟨3, none⟩, 0, .createContext (projectDraft ⟨2⟩ "p q r s")
      ⟨"owner", "memory_context", none, none, none⟩⟩]

/-- Hints that come close to both projects. -/
def letterHints : ContextEnvelope :=
  { ContextEnvelope.default with hints := ["a x c d", "p q r s t"] }

/-- Whether a resolution offers a context twice. -/
def offersTwice : Except ToolError ResolvedContextSelection → Bool
  | .ok selection => !decide (selection.resolution.candidates.map ContextCandidate.id).Nodup
  | .error _ => false

theorem exists_resolution_offering_twice :
    ∃ db selection, Transition.run (@storeStep asciiHost) projectKindStore letterProjects =
        some db ∧
      @Db.resolveContextSelection asciiHost plainIdentities db "owner" (some letterHints)
        (some "d c b a") false = .ok selection ∧
      ¬(selection.resolution.candidates.map ContextCandidate.id).Nodup := by
  have ran : ∃ db, Transition.run (@storeStep asciiHost) projectKindStore letterProjects =
      some db ∧ offersTwice (@Db.resolveContextSelection asciiHost plainIdentities db "owner"
        (some letterHints) (some "d c b a") false) = true := by
    refine ⟨_, rfl, ?_⟩
    decide +kernel
  obtain ⟨db, reached, twice⟩ := ran
  cases resolved : @Db.resolveContextSelection asciiHost plainIdentities db "owner"
      (some letterHints) (some "d c b a") false with
  | error error =>
      rw [resolved] at twice
      cases twice
  | ok selection =>
      rw [resolved, offersTwice, Bool.not_eq_true', decide_eq_false_iff_not] at twice
      exact ⟨db, selection, reached, resolved, twice⟩

/-- The first project is offered twice: for the query with score 1 and for a hint
with score 3/4; the second project with score 4/5 lies between. -/
theorem resolver_offers_context_twice :
    ∃ db selection, Transition.run (@storeStep asciiHost) projectKindStore letterProjects =
        some db ∧
      @Db.resolveContextSelection asciiHost plainIdentities db "owner" (some letterHints)
        (some "d c b a") false = .ok selection ∧
      ¬@BestCandidates (@gatheredCandidates asciiHost plainIdentities db "owner" letterHints
        (some "d c b a")) selection.resolution.candidates := by
  obtain ⟨db, selection, reached, resolved, twice⟩ := exists_resolution_offering_twice
  exact ⟨db, selection, reached, resolved, fun best => twice best.once⟩

/-- There a context comes back early. -/
theorem resolver_candidates_best_iff_letters :
    ∃ db, Transition.run (@storeStep asciiHost) projectKindStore letterProjects = some db ∧
      ¬NoEarlyReturn (@gatheredCandidates asciiHost plainIdentities db "owner" letterHints
        (some "d c b a")) := by
  obtain ⟨db, selection, reached, resolved, twice⟩ := exists_resolution_offering_twice
  refine ⟨db, reached, fun noReturn => twice ?_⟩
  exact (((@resolver_candidates_best_iff asciiHost plainIdentities db "owner" (some letterHints)
    (some "d c b a")).1 false selection resolved).mpr noReturn).once

end LocalHold
