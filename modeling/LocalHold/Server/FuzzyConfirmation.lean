import Mathlib.Data.List.Chain
import LocalHold.Server.ContextCreate
import LocalHold.Server.GovernedPolicy
import LocalHold.Store.StaleConfirmations

/-!
# Two checks of the similar contexts

The tool and the store look for similar contexts separately: they read other
records, score them in other loops, and sort and cut the candidates in other orders.
Both come to the same ids, so a request that confirms them passes both checks.  The
tool does not look at the confirmations when there is nothing to confirm.
-/

namespace LocalHold

open Relational Transition Transition.Txn Transition.Checked

variable [Host]

/-! ## The same scores -/

/-- The loop of the tool keeps the maximum that the store folds. -/
theorem recordSimilarity_fst (record : ContextRecord) (query : String) :
    (recordSimilarity record query).1 =
      contextSimilarity query record.context.key record.context.displayName record.aliases := by
  have folds : ∀ (surfaces : List (String × String)) (best : ℚ × List String),
      (surfaces.foldl (fun best surface =>
        let score := max (normalizedSetOverlap (contextTokens query) (contextTokens surface.2))
          (normalizedSetOverlap (contextTrigrams query) (contextTrigrams surface.2))
        if best.1 < score then (score, [surface.1])
        else if score = best.1 ∧ 0 < score then (best.1, best.2 ++ [surface.1])
        else best) best).1 =
      ((surfaces.map Prod.snd).map fun surface =>
        max (normalizedSetOverlap (contextTokens query) (contextTokens surface))
          (normalizedSetOverlap (contextTrigrams query) (contextTrigrams surface))).foldl max
        best.1 := by
    intro surfaces
    induction surfaces with
    | nil => exact fun _ => rfl
    | cons surface surfaces inductionHypothesis =>
        intro best
        rw [List.foldl_cons, inductionHypothesis, List.map_cons, List.map_cons, List.foldl_cons]
        congr 1
        dsimp only
        split
        · next better => exact (max_eq_right better.le).symm
        · next notBetter =>
            rw [max_eq_left (not_lt.mp notBetter)]
            split
            · rfl
            · rfl
  have surfaces : (("key", record.context.key) :: ("display_name", record.context.displayName) ::
      record.aliases.map fun value => ("alias", value)).map Prod.snd =
      record.context.key :: record.context.displayName :: record.aliases := by
    simp
  rw [recordSimilarity, folds, surfaces]
  rfl

/-- A record as a candidate of the store. -/
def fuzzyCandidate (query : String) (record : ContextRecord) : FuzzyCandidate :=
  ⟨record.context.id, record.context.key,
    contextSimilarity query record.context.key record.context.displayName record.aliases⟩

/-- The record reaches the threshold. -/
def FuzzyCandidate.similar (candidate : FuzzyCandidate) : Bool :=
  decide (18 / 25 ≤ candidate.score)

/-- A candidate of the tool as a candidate of the store. -/
def ContextCandidate.fuzzy (candidate : ContextCandidate) : FuzzyCandidate :=
  ⟨candidate.context.id, candidate.context.key, candidate.score⟩

/-- The candidates of the tool, scored and ordered as in the store. -/
theorem map_fuzzy_fuzzyContextCandidates (records : List ContextRecord) (query : String)
    (kind : ContextKind) :
    (fuzzyContextCandidates records query (some kind)).map ContextCandidate.fuzzy =
      (orderBy FuzzyCandidate.before
        (((records.filter fun record => record.context.kind == kind).map
          (fuzzyCandidate query)).filter FuzzyCandidate.similar)).take 5 := by
  have kinds : (records.filter fun record => (some kind).all fun expected =>
      record.context.kind == expected) =
      records.filter fun record => record.context.kind == kind := rfl
  rw [fuzzyContextCandidates, kinds, List.map_take]
  congr 1
  generalize (records.filter fun record => record.context.kind == kind) = ofKind
  dsimp only
  rw [orderBy, orderBy]
  refine (List.map_insertionSort _ (fun first second => FuzzyCandidate.before first second = true)
    ContextCandidate.fuzzy _ fun _ _ _ _ => Iff.rfl).trans ?_
  congr 1
  induction ofKind with
  | nil => rfl
  | cons record ofKind inductionHypothesis =>
      have candidate : fuzzyCandidate query record =
          ⟨record.context.id, record.context.key, (recordSimilarity record query).1⟩ := by
        rw [fuzzyCandidate, recordSimilarity_fst]
      have reached : (fuzzyCandidate query record).similar =
          decide (18 / 25 ≤ (recordSimilarity record query).1) := by
        rw [FuzzyCandidate.similar, candidate]
      rw [List.filterMap_cons, List.map_cons, List.filter_cons, reached, ← inductionHypothesis]
      by_cases reaches : 18 / 25 ≤ (recordSimilarity record query).1
      · rw [if_pos reaches, if_pos (decide_eq_true reaches), List.map_cons, candidate]
        rfl
      · rw [if_neg reaches, if_neg (by simpa using reaches)]

/-! ## The same order -/

namespace FuzzyCandidate

omit [Host] in
theorem before_iff {first second : FuzzyCandidate} :
    before first second = true ↔ second.score < first.score ∨
      first.score = second.score ∧ (first.key < second.key ∨
        first.key = second.key ∧ first.id ≤ second.id) := by
  simp [before]

omit [Host] in
theorem before_total (first second : FuzzyCandidate) :
    (before first second || before second first) = true := by
  rw [Bool.or_eq_true, before_iff, before_iff]
  rcases lt_trichotomy first.score second.score with less | same | more
  · exact Or.inr (Or.inl less)
  · rcases lt_trichotomy first.key second.key with less | sameKey | more
    · exact Or.inl (Or.inr ⟨same, Or.inl less⟩)
    · exact (le_total first.id second.id).imp (fun le => Or.inr ⟨same, Or.inr ⟨sameKey, le⟩⟩)
        fun le => Or.inr ⟨same.symm, Or.inr ⟨sameKey.symm, le⟩⟩
    · exact Or.inr (Or.inr ⟨same.symm, Or.inl more⟩)
  · exact Or.inl (Or.inl more)

omit [Host] in
theorem before_trans {first second third : FuzzyCandidate} (earlier : before first second = true)
    (later : before second third = true) : before first third = true := by
  rw [before_iff] at earlier later ⊢
  rcases earlier with more | ⟨same, keys⟩
  · rcases later with more' | ⟨same', _⟩
    · exact Or.inl (more'.trans more)
    · exact Or.inl (same' ▸ more)
  · rcases later with more' | ⟨same', keys'⟩
    · exact Or.inl (same ▸ more')
    · refine Or.inr ⟨same.trans same', ?_⟩
      rcases keys with less | ⟨sameKey, ids⟩
      · rcases keys' with less' | ⟨sameKey', _⟩
        · exact Or.inl (less.trans less')
        · exact Or.inl (sameKey' ▸ less)
      · rcases keys' with less' | ⟨sameKey', ids'⟩
        · exact Or.inl (sameKey ▸ less')
        · exact Or.inr ⟨sameKey.trans sameKey', ids.trans ids'⟩

omit [Host] in
theorem before_antisymm {first second : FuzzyCandidate} (ahead : before first second = true)
    (behind : before second first = true) : first = second := by
  rw [before_iff] at ahead behind
  obtain ⟨firstId, firstKey, firstScore⟩ := first
  obtain ⟨secondId, secondKey, secondScore⟩ := second
  rcases ahead with more | ⟨same, keys⟩
  · rcases behind with more' | ⟨same', _⟩
    · exact absurd more' more.asymm
    · exact absurd same' more.ne
  · rcases behind with more' | ⟨_, keys'⟩
    · exact absurd same more'.ne
    · rcases keys with less | ⟨sameKey, ids⟩
      · rcases keys' with less' | ⟨sameKey', _⟩
        · exact absurd less' less.asymm
        · exact absurd sameKey' less.ne'
      · rcases keys' with less' | ⟨_, ids'⟩
        · exact absurd sameKey less'.ne'
        · cases same
          cases sameKey
          cases le_antisymm ids ids'
          rfl

omit [Host] in
/-- Both sorts of the same candidates give one list. -/
theorem orderBy_eq_mergeSort {candidates others : List FuzzyCandidate}
    (same : candidates.Perm others) :
    orderBy before candidates = others.mergeSort before := by
  have : Std.Total fun first second : FuzzyCandidate => before first second = true :=
    ⟨fun first second => by
      rw [← Bool.or_eq_true]
      exact before_total first second⟩
  have : IsTrans FuzzyCandidate fun first second => before first second = true :=
    ⟨fun _ _ _ => before_trans⟩
  have ordered : (orderBy before candidates).Pairwise fun first second =>
      before first second = true := List.pairwise_insertionSort _ candidates
  have merged : (others.mergeSort before).Pairwise fun first second =>
      before first second = true :=
    @List.pairwise_mergeSort _ before (fun _ _ _ => before_trans) before_total others
  have antisymm : ∀ first second, first ∈ orderBy before candidates →
      second ∈ others.mergeSort before → before first second = true →
      before second first = true → first = second :=
    fun _ _ _ _ ahead behind => before_antisymm ahead behind
  have perm : (orderBy before candidates).Perm (others.mergeSort before) :=
    (perm_orderBy before candidates).trans (same.trans (List.mergeSort_perm others before).symm)
  exact perm.eq_of_pairwise antisymm ordered merged

end FuzzyCandidate

omit [Host] in
/-- With distinct ids nothing is left out. -/
theorem destutter_ids {candidates : List FuzzyCandidate}
    (distinct : (candidates.map (·.id)).Nodup) :
    (candidates.destutter fun first second => first.id ≠ second.id) = candidates := by
  refine List.destutter_of_isChain _ _ ?_
  exact (List.pairwise_map.mp distinct).isChain

/-! ## The same records -/

/-- The rows that both checks read. -/
def Db.comparedRows (db : Db) (principal : String) (kind : ContextKind) : List ContextRow :=
  db.contexts.select fun row =>
    row.context.kind == kind && row.context.lifecycle == .active &&
      db.contextVisible row.context principal

/-- A row as a candidate. -/
def Db.rowCandidate (db : Db) (query : String) (row : ContextRow) : FuzzyCandidate :=
  fuzzyCandidate query ⟨row.context, db.contextAliasTexts row.context.id, [], []⟩

/-- The records of the tool come from these rows. -/
theorem perm_authorizedContextRecords (db : Db) (principal query : String) (kind : ContextKind) :
    (((db.authorizedContextRecords principal).filter fun record =>
        record.context.kind == kind).map (fuzzyCandidate query)).Perm
      ((db.comparedRows principal kind).map (db.rowCandidate query)) := by
  have filtered : ((db.contexts.select fun row => db.contextVisible row.context principal &&
      row.context.lifecycle == .active).filter fun row => row.context.kind == kind) =
      db.comparedRows principal kind := by
    rw [Table.select, List.filter_filter, Db.comparedRows, Table.select]
    refine List.filter_congr fun row _ => ?_
    rw [Bool.and_assoc, Bool.and_comm (db.contextVisible _ _)]
  rw [Db.authorizedContextRecords, List.filter_map, List.map_map, ← filtered]
  exact ((perm_orderBy _ _).filter _).map _

/-- The records of the store come from these rows. -/
theorem perm_visibleActiveOfKind (db : Db) (principal query : String) (kind : ContextKind) :
    ((db.visibleActiveOfKind principal kind).map (fuzzyCandidate query)).Perm
      ((db.comparedRows principal kind).map (db.rowCandidate query)) := by
  rw [Db.visibleActiveOfKind, List.map_map]
  exact (List.mergeSort_perm _ _).map _

/-- Different rows have different ids. -/
theorem nodup_comparedRows (db : Db) (principal query : String) (kind : ContextKind) :
    (((db.comparedRows principal kind).map (db.rowCandidate query)).map (·.id)).Nodup := by
  rw [List.map_map, Db.comparedRows, Table.select]
  exact db.contexts.nodup.sublist (List.filter_sublist.map _)

section Agreement

variable {db : Db} {principal : String} {params : ContextCreateParams} {newId : ContextId}
  {parentId : Option ContextId} {identity : Option ContextIdentity}

/-- Behind the check for exact matches no compared record has the key. -/
theorem normalizeContextKey_ne_of_lateExact
    (free : db.lateExact principal params.kind (normalizeContextKey params.trimmedKey) identity =
      [])
    {query : String} {candidate : FuzzyCandidate}
    (compared : candidate ∈ (db.visibleActiveOfKind principal params.kind).map
      (fuzzyCandidate query)) :
    (normalizeContextKey candidate.key != normalizeContextKey params.trimmedKey) = true := by
  have listed := (perm_authorizedContextRecords db principal query params.kind).mem_iff.mpr
    ((perm_visibleActiveOfKind db principal query params.kind).mem_iff.mp compared)
  obtain ⟨record, recordMem, rfl⟩ := List.mem_map.mp listed
  obtain ⟨authorized, ofKind⟩ := List.mem_filter.mp recordMem
  have other := List.filter_eq_nil_iff.mp free record authorized
  rw [ofKind, Bool.true_and, Bool.or_eq_true, Bool.or_eq_true, not_or, not_or] at other
  rw [bne, Bool.not_eq_true']
  exact eq_false_of_ne_true other.1.1

/-- The store looks for the ids that the tool has found. -/
theorem fuzzyConfirmations_draft
    (free : db.lateExact principal params.kind (normalizeContextKey params.trimmedKey) identity =
      []) :
    fuzzyConfirmations (params.draft newId principal parentId identity)
        (db.visibleActiveOfKind principal params.kind) =
      (db.similarContexts principal params.kind params.trimmedKey params.trimmedName).map
        (·.context.id) := by
  let query := params.trimmedKey ++ " " ++ params.trimmedName
  let compared := (db.visibleActiveOfKind principal params.kind).map (fuzzyCandidate query)
  have close : compared.filter (fun candidate =>
      normalizeContextKey candidate.key != normalizeContextKey params.trimmedKey &&
        decide (18 / 25 ≤ candidate.score)) = compared.filter FuzzyCandidate.similar := by
    refine List.filter_congr fun candidate candidateMem => ?_
    rw [normalizeContextKey_ne_of_lateExact free candidateMem, Bool.true_and]
    rfl
  have rows := perm_visibleActiveOfKind db principal query params.kind
  have perm : ((((db.authorizedContextRecords principal).filter fun record =>
      record.context.kind == params.kind).map (fuzzyCandidate query)).filter
        FuzzyCandidate.similar).Perm (compared.filter FuzzyCandidate.similar) :=
    ((perm_authorizedContextRecords db principal query params.kind).trans rows.symm).filter _
  have distinct : (((compared.filter FuzzyCandidate.similar).mergeSort
      FuzzyCandidate.before).map (·.id)).Nodup := by
    refine ((List.mergeSort_perm _ _).map _).nodup_iff.mpr ?_
    refine List.Nodup.sublist (List.filter_sublist.map _) ?_
    exact (rows.map _).nodup_iff.mpr (nodup_comparedRows db principal query params.kind)
  have ids : (db.similarContexts principal params.kind params.trimmedKey params.trimmedName).map
      (·.context.id) = ((db.similarContexts principal params.kind params.trimmedKey
        params.trimmedName).map ContextCandidate.fuzzy).map (·.id) := by
    rw [List.map_map]
    rfl
  rw [ids, Db.similarContexts, map_fuzzy_fuzzyContextCandidates,
    FuzzyCandidate.orderBy_eq_mergeSort perm, ← destutter_ids distinct, ← close]
  rfl

theorem storeConfirms_draft_iff
    (free : db.lateExact principal params.kind (normalizeContextKey params.trimmedKey) identity =
      []) :
    db.StoreConfirms (params.draft newId principal parentId identity) ↔
      confirmedIds params.confirmDistinctFrom =
        db.demandedConfirmations principal params.kind params.trimmedKey params.trimmedName := by
  have found : fuzzyConfirmations (params.draft newId principal parentId identity)
      (db.visibleActiveOfKind (params.draft newId principal parentId identity).ownerPrincipal
        (params.draft newId principal parentId identity).kind) = _ :=
    fuzzyConfirmations_draft free
  rw [Db.StoreConfirms, validateFuzzyConfirmation, found, require_eq_ok, and_iff_left rfl]
  simp only [ContextCreateParams.draft, Bool.not_true, Bool.false_or, beq_iff_eq]
  exact eq_comm

/-- Some visible active context of the kind reaches the threshold. -/
def Db.HasSimilar (db : Db) (principal : String) (params : ContextCreateParams) : Prop :=
  ∃ record ∈ db.visibleActiveOfKind principal params.kind,
    18 / 25 ≤ contextSimilarity (params.trimmedKey ++ " " ++ params.trimmedName)
      record.context.key record.context.displayName record.aliases

theorem demandedConfirmations_eq_nil_iff :
    db.demandedConfirmations principal params.kind params.trimmedKey params.trimmedName = [] ↔
      ¬ db.HasSimilar principal params := by
  let query := params.trimmedKey ++ " " ++ params.trimmedName
  have ids : db.demandedConfirmations principal params.kind params.trimmedKey
      params.trimmedName = [] ↔ (db.similarContexts principal params.kind params.trimmedKey
        params.trimmedName).map ContextCandidate.fuzzy = [] := by
    rw [← List.length_eq_zero_iff, ← List.length_eq_zero_iff, Db.demandedConfirmations,
      List.length_mergeSort, List.length_map, List.length_map]
  have perm := (perm_authorizedContextRecords db principal query params.kind).trans
    (perm_visibleActiveOfKind db principal query params.kind).symm
  rw [ids, Db.similarContexts, map_fuzzy_fuzzyContextCandidates, List.take_eq_nil_iff,
    or_iff_right (by decide), ← List.length_eq_zero_iff, (perm_orderBy _ _).length_eq,
    (perm.filter _).length_eq, List.length_eq_zero_iff, List.filter_eq_nil_iff]
  have scored : ∀ record, (fuzzyCandidate query record).similar = true ↔
      18 / 25 ≤ contextSimilarity query record.context.key record.context.displayName
        record.aliases := by
    intro record
    rw [FuzzyCandidate.similar, fuzzyCandidate, decide_eq_true_iff]
  constructor
  · rintro none ⟨record, recordMem, similar⟩
    exact none (fuzzyCandidate query record) (List.mem_map_of_mem recordMem)
      ((scored record).mpr similar)
  · intro none candidate candidateMem similar
    obtain ⟨record, recordMem, rfl⟩ := List.mem_map.mp candidateMem
    exact none ⟨record, recordMem, (scored record).mp similar⟩

/-- The ids that have to be confirmed are different ones. -/
theorem nodup_demandedConfirmations :
    (db.demandedConfirmations principal params.kind params.trimmedKey
      params.trimmedName).Nodup := by
  let query := params.trimmedKey ++ " " ++ params.trimmedName
  have ids : (db.similarContexts principal params.kind params.trimmedKey params.trimmedName).map
      (·.context.id) = ((db.similarContexts principal params.kind params.trimmedKey
        params.trimmedName).map ContextCandidate.fuzzy).map (·.id) := by
    rw [List.map_map]
    rfl
  rw [Db.demandedConfirmations, (List.mergeSort_perm _ _).nodup_iff, ids, Db.similarContexts,
    map_fuzzy_fuzzyContextCandidates, List.map_take]
  refine List.Nodup.sublist (List.take_sublist _ _) ?_
  rw [((perm_orderBy _ _).map _).nodup_iff]
  refine List.Nodup.sublist (List.filter_sublist.map _) ?_
  rw [((perm_authorizedContextRecords db principal query params.kind).map _).nodup_iff]
  exact nodup_comparedRows db principal query params.kind

/-- They are as few as a request may list. -/
theorem length_demandedConfirmations_le :
    (db.demandedConfirmations principal params.kind params.trimmedKey
      params.trimmedName).length ≤ maxContextConfirmations := by
  rw [Db.demandedConfirmations, List.length_mergeSort, List.length_map, Db.similarContexts,
    fuzzyContextCandidates]
  exact List.length_take_le _ _

end Agreement

omit [Host] in
theorem confirmedIds_eq_nil_iff {confirmed : List ContextId} :
    confirmedIds confirmed = [] ↔ confirmed = [] := by
  rw [confirmedIds, ← List.length_eq_zero_iff, List.length_mergeSort, List.length_eq_zero_iff,
    List.dedup_eq_nil]

omit [Host] in
/-- Confirmations are compared as sets. -/
theorem confirmedIds_of_perm {confirmed ids : List ContextId} (distinct : ids.Nodup)
    (same : confirmed.Perm ids) :
    confirmedIds confirmed = ids.mergeSort fun first second => decide (first ≤ second) := by
  have total : ∀ first second : ContextId,
      (decide (first ≤ second) || decide (second ≤ first)) = true := by
    intro first second
    simpa using le_total first second
  have trans : ∀ first second third : ContextId, decide (first ≤ second) = true →
      decide (second ≤ third) = true → decide (first ≤ third) = true := by
    intro first second third earlier later
    simp only [decide_eq_true_eq] at earlier later ⊢
    exact earlier.trans later
  rw [confirmedIds, (same.nodup_iff.mpr distinct).dedup]
  refine List.Perm.eq_of_pairwise (fun first second _ _ ahead behind => ?_)
    (List.pairwise_mergeSort trans total _) (List.pairwise_mergeSort trans total _)
    ((List.mergeSort_perm _ _).trans (same.trans (List.mergeSort_perm _ _).symm))
  exact le_antisymm (by simpa using ahead) (by simpa using behind)

/-! ## Requests that are checked -/

variable [IdentityHost]

/-- The checks of the tool in front of the similar contexts let the request pass:
its limits, its identity, the exact matches, the parent and the policy. -/
structure Db.ReachesCheck (db : Db) (principal : String) (params : ContextCreateParams)
    (parentId : Option ContextId) (identity : Option ContextIdentity)
    (policy : EffectiveContextPolicy) : Prop where
  limits : params.validate = .ok ()
  named : params.identity.mapM normalizeContextIdentity = .ok identity
  unmatched : db.exactContextMatches principal params.kind
    (normalizeContextKey params.trimmedKey) identity = []
  placed : db.creationParent principal params = .ok parentId
  evaluated : db.creationPolicy principal params parentId = .ok policy
  permitted : checkCreationPolicy policy (policyGuidanceFor [policy]) identity = .ok ()
  free : db.lateExact principal params.kind (normalizeContextKey params.trimmedKey) identity = []

section Checked

variable {db : Db} {newId : ContextId} {principal : String} {params : ContextCreateParams}
  {parentId : Option ContextId} {identity : Option ContextIdentity}
  {policy : EffectiveContextPolicy} {draft : ContextCreateDraft} {guidance : List String}

/-- A draft is handed to the store for a request that reaches the check of the tool
and passes it. -/
theorem prepareContext_create_iff :
    db.prepareContext newId principal params = .ok (.create draft guidance) ↔
      ∃ parentId identity policy, db.ReachesCheck principal params parentId identity policy ∧
        db.confirmsCandidates principal params = true ∧
        draft = params.draft newId principal parentId identity ∧
        guidance = policyGuidanceFor [policy] := by
  constructor
  · intro prepared
    obtain ⟨_, limits, rest⟩ := bind_eq_ok.mp prepared
    obtain ⟨identity, named, rest⟩ := bind_eq_ok.mp rest
    split at rest
    · split at rest
      · cases rest
      · cases rest
    · next unmatched =>
        obtain ⟨parentId, parent, rest⟩ := bind_eq_ok.mp rest
        obtain ⟨policy, evaluated, rest⟩ := bind_eq_ok.mp rest
        obtain ⟨_, permitted, rest⟩ := bind_eq_ok.mp rest
        split at rest
        · cases rest
        · next free =>
            obtain ⟨_, confirms, rest⟩ := bind_eq_ok.mp rest
            cases rest
            exact ⟨parentId, identity, policy,
              ⟨limits, mapError_eq_ok.mp named, unmatched, parent, evaluated, permitted, free⟩,
              ensure_eq_ok.mp confirms, rfl, rfl⟩
        · cases rest
    · cases rest
  · rintro ⟨parentId, identity, policy, reaches, confirms, rfl, rfl⟩
    refine bind_eq_ok.mpr ⟨(), reaches.limits, bind_eq_ok.mpr ⟨identity,
      mapError_eq_ok.mpr reaches.named, ?_⟩⟩
    rw [reaches.unmatched]
    refine bind_eq_ok.mpr ⟨parentId, reaches.placed, bind_eq_ok.mpr ⟨policy, reaches.evaluated,
      bind_eq_ok.mpr ⟨(), reaches.permitted, ?_⟩⟩⟩
    rw [reaches.free]
    exact bind_eq_ok.mpr ⟨(), ensure_eq_ok.mpr confirms, rfl⟩

/-- Other confirmations within the limits reach the check as well. -/
theorem Db.ReachesCheck.withConfirmations
    (reaches : db.ReachesCheck principal params parentId identity policy)
    {confirmed : List ContextId} (few : confirmed.length ≤ maxContextConfirmations)
    (distinct : confirmed.Nodup) :
    db.ReachesCheck principal { params with confirmDistinctFrom := confirmed } parentId identity
      policy := by
  have limits : ({ params with confirmDistinctFrom := confirmed } :
      ContextCreateParams).validate = .ok () := by
    obtain ⟨bounded, _⟩ := of_ensure_bind reaches.limits
    rw [ContextCreateParams.validate]
    refine bind_eq_ok.mpr ⟨(), ensure_eq_ok.mpr ?_, ensure_eq_ok.mpr (decide_eq_true distinct)⟩
    simp only [Bool.and_eq_true, decide_eq_true_eq] at bounded ⊢
    exact ⟨bounded.1, few⟩
  exact ⟨limits, reaches.named, reaches.unmatched, reaches.placed, reaches.evaluated,
    reaches.permitted, reaches.free⟩

end Checked

/-! ## Agreement of the two checks -/

/-- What the two checks of a request owe each other, whatever it confirms: the store
accepts just the set that the tool demands, a request that lists this set passes both
checks, and a request that passes the first check is not rejected by the second. -/
structure Db.ConfirmationsAgree (db : Db) (newId : ContextId) (principal : String)
    (params : ContextCreateParams) : Prop where
  accepted : ∀ confirmed parentId identity policy,
    db.ReachesCheck principal { params with confirmDistinctFrom := confirmed } parentId identity
      policy →
    (db.StoreConfirms (({ params with confirmDistinctFrom := confirmed } :
        ContextCreateParams).draft newId principal parentId identity) ↔
      confirmedIds confirmed =
        db.demandedConfirmations principal params.kind params.trimmedKey params.trimmedName)
  confirmable : ∀ parentId identity policy,
    db.ReachesCheck principal params parentId identity policy →
    ∀ confirmed, confirmed.Perm (db.demandedConfirmations principal params.kind
        params.trimmedKey params.trimmedName) →
      ∃ draft guidance, db.prepareContext newId principal
          { params with confirmDistinctFrom := confirmed } = .ok (.create draft guidance) ∧
        db.StoreConfirms draft
  passes : ∀ draft guidance,
    db.prepareContext newId principal params = .ok (.create draft guidance) →
      ∀ now, ¬db.RejectedAsStale draft draft.creationAudit now

/-- The request lists confirmations that both checks look at, and there is nothing
to confirm. -/
structure Db.ConfirmsNothing (db : Db) (newId : ContextId) (principal : String)
    (params : ContextCreateParams) : Prop where
  reaches : ∃ parentId identity policy,
    db.ReachesCheck principal params parentId identity policy ∧
      db.ReachesRevalidation (params.draft newId principal parentId identity)
        (params.draft newId principal parentId identity).creationAudit
  lists : params.confirmDistinctFrom ≠ []
  dissimilar : ¬db.HasSimilar principal params

/-- The tool and the store agree about every request but those that list confirmations
where there is nothing to confirm. -/
theorem fuzzy_confirmation_agrees (db : Db) (newId : ContextId) (principal : String)
    (params : ContextCreateParams) :
    db.ConfirmationsAgree newId principal params ↔
      ¬db.ConfirmsNothing newId principal params := by
  have accepted : ∀ confirmed parentId identity policy,
      db.ReachesCheck principal { params with confirmDistinctFrom := confirmed } parentId identity
        policy →
      (db.StoreConfirms (({ params with confirmDistinctFrom := confirmed } :
          ContextCreateParams).draft newId principal parentId identity) ↔
        confirmedIds confirmed =
          db.demandedConfirmations principal params.kind params.trimmedKey params.trimmedName) :=
    fun confirmed _ _ _ reaches => @storeConfirms_draft_iff _ db principal
      { params with confirmDistinctFrom := confirmed } _ _ _ reaches.free
  constructor
  · rintro agree ⟨⟨parentId, identity, policy, reaches, revalidates⟩, lists, dissimilar⟩
    have none := demandedConfirmations_eq_nil_iff.mpr dissimilar
    have passed : db.confirmsCandidates principal params = true := by
      rw [Db.confirmsCandidates, none]
      rfl
    have prepared : db.prepareContext newId principal params = .ok (.create
        (params.draft newId principal parentId identity) (policyGuidanceFor [policy])) :=
      prepareContext_create_iff.mpr ⟨parentId, identity, policy, reaches, passed, rfl, rfl⟩
    refine agree.passes _ _ prepared 0
      (Db.rejectedAsStale_iff.mpr ⟨revalidates, fun confirms => ?_⟩)
    have confirmed := (accepted params.confirmDistinctFrom _ _ _ reaches).mp confirms
    exact lists (confirmedIds_eq_nil_iff.mp (confirmed.trans none))
  · intro condition
    refine ⟨accepted, fun parentId identity policy reaches confirmed same => ?_, ?_⟩
    · have listed := reaches.withConfirmations
        (same.length_eq.trans_le length_demandedConfirmations_le)
        (same.nodup_iff.mpr nodup_demandedConfirmations)
      have matching : confirmedIds confirmed = db.demandedConfirmations principal params.kind
          params.trimmedKey params.trimmedName :=
        confirmedIds_of_perm
          ((List.mergeSort_perm _ _).nodup_iff.mp nodup_demandedConfirmations)
          (same.trans (List.mergeSort_perm _ _))
      refine ⟨_, _, prepareContext_create_iff.mpr ⟨parentId, identity, policy, listed, ?_, rfl,
        rfl⟩, (accepted confirmed _ _ _ listed).mpr matching⟩
      rw [Db.confirmsCandidates, Bool.or_eq_true, beq_iff_eq]
      exact Or.inr matching.symm
    · intro draft guidance prepared now rejected
      obtain ⟨revalidates, unconfirmed⟩ := Db.rejectedAsStale_iff.mp rejected
      obtain ⟨parentId, identity, policy, reaches, passed, rfl, rfl⟩ :=
        prepareContext_create_iff.mp prepared
      have checked := accepted params.confirmDistinctFrom _ _ _ reaches
      rw [Db.confirmsCandidates, Bool.or_eq_true, beq_iff_eq, List.isEmpty_iff] at passed
      rcases passed with none | matching
      · refine condition ⟨⟨parentId, identity, policy, reaches, revalidates⟩, fun empty => ?_,
          demandedConfirmations_eq_nil_iff.mp none⟩
        refine unconfirmed (checked.mpr ?_)
        rw [none, empty]
        exact confirmedIds_eq_nil_iff.mpr rfl
      · exact unconfirmed (checked.mpr matching.symm)

/-- A store that lets agents create projects without an identity, and an archived project. -/
def archivedProjectStore : Db :=
  { Db.empty 3 with
    contextKinds := Table.empty.upsert ⟨ContextKind.project, "Project", true, true, 0, 0⟩
    contexts := Table.empty.upsert
      ⟨⟨⟨7⟩, ContextKind.project, "atlas app", "Atlas App", none, "owner", none, none, .archived,
        false, 0, 0⟩, "atlas app"⟩
    kindPolicies := Table.empty.upsert
      ⟨.operator, "", ContextKind.project,
        { ContextKindPolicy.default with requireIdentity := some false }, 0⟩ }

/-- A request that confirms the archived project as distinct. -/
def archivedConfirmation : ContextCreateParams where
  kind := ContextKind.project
  key := "atlas apps"
  displayName := "Atlas Apps"
  description := none
  identity := none
  parent := none
  confirmDistinctFrom := [⟨7⟩]

/-- The answer tells of changed candidates, with nothing to confirm. -/
def tellsOfChangedCandidates (answer : Except ContextCreateError ContextCreateResponse) : Bool :=
  match answer with
  | .error (.tool error (.confirmation candidates _ retry)) =>
      error.message.startsWith "fuzzy context candidates changed" && candidates.isEmpty &&
        retry.isEmpty
  | _ => false

/-- The error of an answer. -/
def refusalOf {α : Type} : Except StoreError α → Option StoreError
  | .error error => some error
  | .ok _ => none

omit [Host] [IdentityHost] in
theorem refusalOf_eq_some {α : Type} {answer : Except StoreError α} {error : StoreError} :
    refusalOf answer = some error ↔ answer = .error error := by
  cases answer with
  | error other =>
      rw [refusalOf, Option.some_inj]
      exact ⟨congrArg Except.error, Except.error.inj⟩
  | ok value => exact iff_of_false nofun nofun

/-- The refusal of the store to the draft that the tool hands over. -/
def Db.refusalOfDraft (db : Db) (now : Instant) :
    Except ContextCreateError PreparedContext → Option StoreError
  | .ok (.create draft _) => refusalOf (createContext draft draft.creationAudit now db)
  | _ => none

omit [IdentityHost] in
theorem Db.refusalOfDraft_eq_some {db : Db} {now : Instant}
    {prepared : Except ContextCreateError PreparedContext} {error : StoreError}
    (refused : db.refusalOfDraft now prepared = some error) :
    ∃ draft guidance, prepared = .ok (.create draft guidance) ∧
      createContext draft draft.creationAudit now db = .error error := by
  cases prepared with
  | error failure => cases refused
  | ok plan =>
      cases plan with
      | reused response => cases refused
      | create draft guidance => exact ⟨draft, guidance, rfl, refusalOf_eq_some.mp refused⟩

omit [Host] [IdentityHost] in
theorem archived_confirmation_rejected :
    tellsOfChangedCandidates (@Db.contextCreate asciiHost plainIdentities archivedProjectStore ⟨9⟩
        "owner" archivedConfirmation 0).1 = true ∧
      ¬@Db.ConfirmationsAgree asciiHost plainIdentities archivedProjectStore ⟨9⟩ "owner"
        archivedConfirmation := by
  refine ⟨by decide +kernel, fun agree => ?_⟩
  have stale : @Db.refusalOfDraft asciiHost archivedProjectStore 0
      (@Db.prepareContext asciiHost plainIdentities archivedProjectStore ⟨9⟩ "owner"
        archivedConfirmation) = some staleConfirmations := by decide +kernel
  obtain ⟨draft, guidance, prepared, rejected⟩ := @Db.refusalOfDraft_eq_some asciiHost _ _ _ _ stale
  exact @Db.ConfirmationsAgree.passes asciiHost plainIdentities _ _ _ _ agree draft guidance
    prepared 0 rejected

end LocalHold
