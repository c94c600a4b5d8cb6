import LocalHold.Server.CreatedContexts

/-!
# Previews of legacy writes

A handoff preview resolves a legacy scope without storing anything, by checks of
its own in place of those of the store.  The two modes part only where a context
would be created, and there they agree unless the store refuses a draft that the
preview does not look at.
-/

namespace LocalHold

open Relational Transition Transition.Checked

/-- What a caller is shown of a context, its identifier apart. -/
def ContextDescriptor.label (descriptor : ContextDescriptor) : ContextKind × String × String :=
  (descriptor.kind, descriptor.key, descriptor.displayName)

variable [Host] [IdentityHost] {db : Db} {principal : String} {resolution : ScopeResolution}

/-! ## What the modes share -/

/-- A governed write of a scope comes to the implicit creation of a context. -/
structure Db.CreatesImplicitly (db : Db) (principal : String) (resolution : ScopeResolution) :
    Prop where
  governable : (normalizeContextKey resolution.scope == normalizeContextKey unresolvedContextKey &&
    resolution.resolvedBy == .explicit) = false
  resolved : resolution.unresolvedScope = false
  unmatched : db.findContextRecords principal false
    (.key none (normalizeContextKey resolution.scope)) = []
  bounded : validateImplicitLegacyContextKey resolution.scope = .ok ()
  permitted : checkImplicitCreation (db.contextPolicyState principal) = .ok ()

/-- The branch of a creation, where nothing was matched. -/
theorem Db.legacyTarget_of_unmatched {newId : ContextId} {mode : LegacyContextResolutionMode}
    (governed : mode.governedWrite = true)
    (governable : (normalizeContextKey resolution.scope ==
      normalizeContextKey unresolvedContextKey && resolution.resolvedBy == .explicit) = false)
    (resolved : resolution.unresolvedScope = false)
    (unmatched : db.findContextRecords principal false
      (.key none (normalizeContextKey resolution.scope)) = []) :
    db.legacyTarget newId principal resolution mode =
      legacyCreation db newId principal resolution.scope mode := by
  rw [Db.legacyTarget]
  simp only [governable, resolved, unmatched, governed, Bool.not_false, Bool.false_eq_true, if_true,
    if_false]
  rfl

theorem Db.CreatesImplicitly.legacyTarget (creates : db.CreatesImplicitly principal resolution)
    (newId : ContextId) {mode : LegacyContextResolutionMode} (governed : mode.governedWrite = true) :
    db.legacyTarget newId principal resolution mode =
      if mode.persistsCreation then
        .ok (.create (legacyContextDraft newId principal resolution.scope)
          (legacyContextAudit newId principal resolution.scope))
      else
        previewCreation db principal (db.contextPolicyState principal)
          (legacyContextDraft newId principal resolution.scope) := by
  rw [Db.legacyTarget_of_unmatched governed creates.governable creates.resolved creates.unmatched,
    legacyCreation, creates.bounded]
  dsimp only
  rw [creates.permitted]
  rfl

/-- A target that is not a stored context belongs to a creation. -/
theorem Db.createsImplicitly_of_legacyTarget {newId : ContextId}
    {mode : LegacyContextResolutionMode} {target : LegacyTarget}
    (governed : mode.governedWrite = true) (absent : ∀ id, target ≠ .existing id)
    (ran : db.legacyTarget newId principal resolution mode = .ok target) :
    db.CreatesImplicitly principal resolution := by
  rw [Db.legacyTarget, governed] at ran
  obtain ⟨governable, ran⟩ := of_ensure_bind ran
  rw [Bool.not_eq_true'] at governable
  split at ran
  · obtain ⟨ungoverned, _⟩ := of_ensure_bind ran
    cases ungoverned
  · rename_i resolved
    split at ran
    · cases ran
      exact absurd rfl (absent _)
    · rename_i unmatched
      rw [if_pos rfl, legacyCreation] at ran
      obtain ⟨_, bounded, ran⟩ := bind_eq_ok.mp ran
      obtain ⟨_, permitted, _⟩ := bind_eq_ok.mp ran
      exact ⟨governable, by simpa using resolved, unmatched, mapError_eq_ok.mp bounded, permitted⟩
    · cases ran

omit [IdentityHost] in
/-- The checks on an implicit creation do not depend on the mode. -/
theorem legacyCreation_shared {scope : String} {firstId secondId : ContextId}
    {first second : LegacyContextResolutionMode}
    (refused : ¬(validateImplicitLegacyContextKey scope = .ok () ∧
      checkImplicitCreation (db.contextPolicyState principal) = .ok ())) :
    legacyCreation db firstId principal scope first =
      legacyCreation db secondId principal scope second := by
  rw [legacyCreation, legacyCreation]
  cases bounded : validateImplicitLegacyContextKey scope with
  | error message => rfl
  | ok done =>
      dsimp only
      cases permitted : checkImplicitCreation (db.contextPolicyState principal) with
      | error error => rfl
      | ok done => exact absurd ⟨bounded, permitted⟩ refused

/-- Short of a creation the modes take the same target or fail alike. -/
theorem Db.legacyTarget_shared (uncreating : ¬db.CreatesImplicitly principal resolution)
    {firstId secondId : ContextId} {first second : LegacyContextResolutionMode}
    (firstGoverned : first.governedWrite = true) (secondGoverned : second.governedWrite = true) :
    db.legacyTarget firstId principal resolution first =
      db.legacyTarget secondId principal resolution second := by
  cases governable : (normalizeContextKey resolution.scope ==
      normalizeContextKey unresolvedContextKey && resolution.resolvedBy == .explicit) with
  | true =>
      rw [Db.legacyTarget, Db.legacyTarget, firstGoverned, secondGoverned]
      simp only [governable]
      rfl
  | false =>
      cases resolved : resolution.unresolvedScope with
      | true =>
          rw [Db.legacyTarget, Db.legacyTarget, firstGoverned, secondGoverned]
          simp only [governable, resolved]
          rfl
      | false =>
          by_cases unmatched : db.findContextRecords principal false
              (.key none (normalizeContextKey resolution.scope)) = []
          · rw [Db.legacyTarget_of_unmatched firstGoverned governable resolved unmatched,
              Db.legacyTarget_of_unmatched secondGoverned governable resolved unmatched]
            apply legacyCreation_shared
            rintro ⟨bounded, permitted⟩
            exact uncreating ⟨governable, resolved, unmatched, bounded, permitted⟩
          · rw [Db.legacyTarget, Db.legacyTarget, firstGoverned, secondGoverned]
            apply congrArg
            funext _
            split
            · rfl
            · split
              · rfl
              · contradiction
              · rfl

/-! ## The policy checks -/

omit [Host] [IdentityHost] in
/-- The field and the candidates of the policy checks do not decide their outcome. -/
theorem checkPolicies_code {policies : List EffectiveContextPolicy}
    {effectiveKinds directKinds : List ContextKind} {governedWrite : Bool}
    (firstField secondField : String) (firstCandidates secondCandidates : List ContextCandidate) :
    (checkPolicies firstField policies effectiveKinds directKinds governedWrite
        firstCandidates).mapError (·.code) =
      (checkPolicies secondField policies effectiveKinds directKinds governedWrite
        secondCandidates).mapError (·.code) := by
  rw [checkPolicies, checkPolicies]
  refine bind_mapError_congr (refuse_mapError_congr fun _ => rfl) fun _ => ?_
  refine bind_mapError_congr (refuse_mapError_congr fun _ => rfl) fun _ => ?_
  refine bind_mapError_congr (refuse_mapError_congr fun _ => rfl) fun _ => ?_
  exact forM_mapError_congr fun _ => refuse_mapError_congr fun _ => rfl

omit [Host] [IdentityHost] in
/-- One kind alone has no companions to object to. -/
theorem checkImplicitPolicies_not_conflict {field : String} :
    FailsWith (fun error => error.code ≠ .conflict) (checkImplicitPolicies db principal field) := by
  rw [checkImplicitPolicies, checkPolicies]
  refine FailsWith.bind (FailsWith.refuse ?_) fun _ => ?_
  · intro _ _ same
    cases same
  refine FailsWith.bind (FailsWith.refuse ?_) fun _ => ?_
  · intro _ _ same
    cases same
  refine FailsWith.bind (FailsWith.refuse ?_) fun _ => ?_
  · intro _ _ same
    cases same
  apply FailsWith.forM
  intro policy policyMem
  apply FailsWith.refuse
  intro disallowed objected
  exfalso
  have custom : policy.kind = ContextKind.custom := by
    simpa using (List.mem_filter.mp policyMem).2
  rw [disallowedCompanion, Option.bind_eq_some_iff] at objected
  obtain ⟨companions, _, found⟩ := objected
  have listed := List.mem_of_find?_eq_some found
  have distinct := List.find?_some found
  rw [List.mem_singleton] at listed
  simp [listed, custom] at distinct

/-! ## The store's demands -/

omit [Host] [IdentityHost] in
/-- An evaluated kind is enabled exactly where the store has it enabled. -/
theorem Db.kindIsEnabled_of_kindEnabled {kind : ContextKind}
    (enabled : kindEnabled db.listContextKinds kind = true) : db.kindIsEnabled kind = true := by
  rw [kindEnabled] at enabled
  split at enabled
  · cases enabled
  · rename_i definition found
    have stored := Db.mem_listContextKinds.mp (List.mem_of_find?_eq_some found)
    have named : definition.kind = kind := by simpa using List.find?_some found
    rw [Db.kindIsEnabled, Table.find?_eq_some_iff.mpr ⟨stored, named⟩]
    exact enabled

omit [Host] [IdentityHost] in
theorem kindEnabled_of_allowed {kind : ContextKind} {kinds : List ContextKindDefinition}
    {kindPolicies : List ContextKindPolicyRecord}
    {anchorPolicies : List ContextAnchorPolicyRecord} {records : List ContextRecord}
    {ids : List ContextId}
    (allowed : (evaluateEffectiveContextPolicy kind kinds kindPolicies anchorPolicies records
      ids).allowed = true) : kindEnabled kinds kind = true := by
  rw [evaluateEffectiveContextPolicy] at allowed
  split at allowed
  · assumption
  · cases allowed

omit [Host] [IdentityHost] in
/-- The policies permit implicit creation only of an enabled kind. -/
theorem Db.kindIsEnabled_of_permitted
    (permitted : checkImplicitCreation (db.contextPolicyState principal) = .ok ()) :
    db.kindIsEnabled ContextKind.custom = true := by
  rw [checkImplicitCreation] at permitted
  obtain ⟨creatable, _⟩ := of_ensure_bind permitted
  rw [Bool.and_eq_true] at creatable
  exact Db.kindIsEnabled_of_kindEnabled (kindEnabled_of_allowed creatable.1)

omit [Host] [IdentityHost] in
/-- A lookup comes back empty where no stored context answers it. -/
theorem Db.findContextRecords_eq_nil_iff {includeArchived : Bool} {lookup : ContextExactLookup} :
    db.findContextRecords principal includeArchived lookup = [] ↔
      ∀ row ∈ db.contexts, (db.contextVisible row.context principal &&
        db.answersLookup lookup row &&
          (includeArchived || row.context.lifecycle == .active)) = false := by
  simp only [Db.findContextRecords, List.map_eq_nil_iff, List.take_eq_nil_iff, OfNat.ofNat_ne_zero,
    false_or]
  rw [← List.length_eq_zero_iff, (perm_orderBy contextRowBefore _).length_eq,
    List.length_eq_zero_iff, Table.select, List.filter_eq_nil_iff]
  simp only [Bool.not_eq_true, Table.mem_def]

omit [Host] [IdentityHost] in
/-- The preview looks for a reserved key where the store does. -/
theorem Db.unreserved_iff {key : String} :
    (db.findContextRecords principal true (.key (some ContextKind.custom) key)).isEmpty = true ↔
      db.exactKeyOrAlias principal ContextKind.custom key = false := by
  rw [List.isEmpty_iff, Db.findContextRecords_eq_nil_iff, Db.exactKeyOrAlias, List.any_eq_false]
  apply forall₂_congr
  intro row rowMem
  rw [Bool.not_eq_true]
  apply Eq.congr _ rfl
  rw [Bool.true_or, Bool.and_true, Db.answersLookup, Option.all_some, ← Bool.and_assoc,
    Bool.and_comm (db.contextVisible row.context principal)]

omit [Host] [IdentityHost] in
theorem bounds_of_validateImplicit {scope : String}
    (bounded : validateImplicitLegacyContextKey scope = .ok ()) :
    (isBlank scope = false ∧ scope.utf8ByteSize ≤ maxContextSurfaceLen) ∧
      (legacyScopeDisplayName scope).utf8ByteSize ≤ maxContextDisplayNameLen := by
  rw [validateImplicitLegacyContextKey] at bounded
  obtain ⟨_, key, name⟩ := bind_eq_ok.mp bounded
  have key : (!isBlank scope && decide (scope.utf8ByteSize ≤ maxContextSurfaceLen)) = true :=
    ensure_eq_ok.mp key
  have name : decide ((legacyScopeDisplayName scope).utf8ByteSize ≤ maxContextDisplayNameLen) =
      true := ensure_eq_ok.mp name
  rw [Bool.and_eq_true, Bool.not_eq_true', decide_eq_true_eq] at key
  exact ⟨key, of_decide_eq_true name⟩

/-- The draft of an implied context says who owns it and what it is called. -/
structure StatedDraft (principal scope : String) : Prop where
  principalStated : isBlank principal = false
  nameStated : isBlank (legacyScopeDisplayName scope) = false

omit [IdentityHost] in
/-- Where a creation is reached, the store takes the draft exactly where it is
stated and its key is free. -/
theorem Db.CreatesImplicitly.creatable_iff (creates : db.CreatesImplicitly principal resolution)
    {newId : ContextId} (free : db.contexts.contains newId = false) :
    db.ImplicitlyCreatable newId principal resolution.scope ↔
      StatedDraft principal resolution.scope ∧
        db.exactKeyOrAlias principal ContextKind.custom
          (normalizeContextKey resolution.scope) = false := by
  obtain ⟨⟨scopeStated, scopeBounded⟩, nameBounded⟩ := bounds_of_validateImplicit creates.bounded
  constructor
  · intro creatable
    exact ⟨⟨creatable.principalStated, creatable.nameStated⟩, creatable.keyFree⟩
  · rintro ⟨stated, keyFree⟩
    exact ⟨stated.principalStated, scopeStated, scopeBounded, stated.nameStated, nameBounded,
      Db.kindIsEnabled_of_permitted creates.permitted, keyFree, free⟩

/-! ## Both modes at a creation -/

/-- The preview of a creation. -/
theorem Db.CreatesImplicitly.preview (creates : db.CreatesImplicitly principal resolution)
    (newId : ContextId) (now : Instant) :
    db.resolveLegacyContextSelection newId principal resolution .previewWrite now =
      if db.exactKeyOrAlias principal ContextKind.custom (normalizeContextKey resolution.scope) then
        (.error (toolError .conflict "scope"
          "legacy scope key or alias is reserved by an archived compatibility context"
          "Reactivate the archived context in the TUI before retrying the write." false), db)
      else
        ((checkImplicitPolicies db principal "scope").map fun _ =>
          previewSelection (legacyContextDraft newId principal resolution.scope)
            (effectivePolicies (db.contextPolicyState principal) [] []), db) := by
  have target := creates.legacyTarget newId
    (show LegacyContextResolutionMode.previewWrite.governedWrite = true from rfl)
  rw [if_neg (show ¬LegacyContextResolutionMode.previewWrite.persistsCreation = true from nofun),
    previewCreation, show (legacyContextDraft newId principal resolution.scope).normalizedKey =
      normalizeContextKey resolution.scope from rfl] at target
  rw [Db.resolveLegacyContextSelection, target]
  cases reserved : db.exactKeyOrAlias principal ContextKind.custom
      (normalizeContextKey resolution.scope) with
  | true =>
      have found : (db.findContextRecords principal true (.key (some ContextKind.custom)
          (normalizeContextKey resolution.scope))).isEmpty = false := by
        rw [Bool.eq_false_iff, ne_eq, Db.unreserved_iff, reserved]
        exact Bool.true_eq_false_eq_False
      rw [found]
      rfl
  | false =>
      rw [Db.unreserved_iff.mpr reserved]
      rw [if_neg Bool.false_ne_true, checkImplicitPolicies]
      simp only [ensure, if_true, bind, Except.bind]
      rw [show (legacyContextDraft newId principal resolution.scope).kind = ContextKind.custom
        from rfl]
      cases checkPolicies "scope" (effectivePolicies (db.contextPolicyState principal) [] [])
        [ContextKind.custom] [ContextKind.custom] true [] with
      | error error => rfl
      | ok done => rfl

/-- The write of a creation that the store refuses. -/
theorem Db.CreatesImplicitly.write_refused (creates : db.CreatesImplicitly principal resolution)
    {newId : ContextId} (refused : ¬db.ImplicitlyCreatable newId principal resolution.scope)
    (now : Instant) :
    ∃ message, db.resolveLegacyContextSelection newId principal resolution .write now =
      (.error (toolError .conflict "scope" message
        ("Resolve the scope again; another caller may have created its compatibility " ++
          "context.") true), db) := by
  have target := creates.legacyTarget newId
    (show LegacyContextResolutionMode.write.governedWrite = true from rfl)
  rw [if_pos (show LegacyContextResolutionMode.write.persistsCreation = true from rfl)] at target
  rw [Db.resolveLegacyContextSelection, target]
  dsimp only
  rw [Db.createAndResolve]
  cases creation : createContext (legacyContextDraft newId principal resolution.scope)
      (legacyContextAudit newId principal resolution.scope) now db with
  | error error =>
      dsimp only
      rw [show (legacyContextDraft newId principal resolution.scope).normalizedKey =
        normalizeContextKey resolution.scope from rfl, creates.unmatched]
      exact ⟨error.display, rfl⟩
  | ok result => exact absurd (createContext_legacy_iff.mp creation).1 refused

/-- The write of a creation that the store takes. -/
theorem Db.CreatesImplicitly.write_created (creates : db.CreatesImplicitly principal resolution)
    {newId : ContextId} (unused : db.Unused newId)
    (creatable : db.ImplicitlyCreatable newId principal resolution.scope) (now : Instant) :
    ∃ created, db.ImplicitlyCreated newId principal resolution.scope now created ∧
      db.resolveLegacyContextSelection newId principal resolution .write now =
        match checkImplicitPolicies db principal "context" with
        | .ok _ => (.ok { previewSelection (legacyContextDraft newId principal resolution.scope)
            (effectivePolicies (db.contextPolicyState principal) [] []) with
              createdLegacyContext := some newId }, created)
        | .error error => (.error error, db) := by
  have target := creates.legacyTarget newId
    (show LegacyContextResolutionMode.write.governedWrite = true from rfl)
  rw [if_pos (show LegacyContextResolutionMode.write.persistsCreation = true from rfl)] at target
  obtain ⟨created, isCreated⟩ := creatable.exists_created now
  refine ⟨created, isCreated, ?_⟩
  rw [Db.resolveLegacyContextSelection, target]
  dsimp only
  rw [Db.createAndResolve, createContext_legacy_iff.mpr ⟨creatable, rfl, isCreated⟩]
  dsimp only
  rw [show (legacyContextDraft newId principal resolution.scope).id = newId from rfl,
    show LegacyContextResolutionMode.write.governedWrite = true from rfl,
    isCreated.resolveById unused]
  cases checkImplicitPolicies db principal "context" with
  | ok done => rfl
  | error error =>
      simp only [Except.map]
      rw [rollback_of_created unused isCreated]

/-! ## Agreement -/

/-- The preview of a scope. -/
def Db.previewWrite (db : Db) (newId : ContextId) (principal : String)
    (resolution : ScopeResolution) (now : Instant) :
    Except ToolError ResolvedContextSelection × Db :=
  db.resolveLegacyContextSelection newId principal resolution .previewWrite now

/-- The write of a scope. -/
def Db.commitWrite (db : Db) (newId : ContextId) (principal : String)
    (resolution : ScopeResolution) (now : Instant) :
    Except ToolError ResolvedContextSelection × Db :=
  db.resolveLegacyContextSelection newId principal resolution .write now

/-- A preview promises what the write on the same store then does. -/
structure PreviewAgrees (db : Db) (previewId writtenId : ContextId) (principal : String)
    (resolution : ScopeResolution) (now : Instant) : Prop where
  succeeds : (∃ selection, (db.previewWrite previewId principal resolution now).1 = .ok selection) ↔
    ∃ selection, (db.commitWrite writtenId principal resolution now).1 = .ok selection
  direct : ∀ previewed written,
    (db.previewWrite previewId principal resolution now).1 = .ok previewed →
    (db.commitWrite writtenId principal resolution now).1 = .ok written →
    previewed.resolution.direct.map (·.label) = written.resolution.direct.map (·.label)
  code : ∀ refused failed,
    (db.previewWrite previewId principal resolution now).1 = .error refused →
    (db.commitWrite writtenId principal resolution now).1 = .error failed →
    refused.code = failed.code
  unchanged : (db.previewWrite previewId principal resolution now).2 = db

/-- A preview that looks past the draft: the write comes to a creation under a
free key, and the store refuses the draft. -/
structure Db.PreviewsRefusedDraft (db : Db) (principal : String) (resolution : ScopeResolution) :
    Prop where
  creates : db.CreatesImplicitly principal resolution
  keyFree : db.exactKeyOrAlias principal ContextKind.custom
    (normalizeContextKey resolution.scope) = false
  unstated : isBlank principal = true ∨ isBlank (legacyScopeDisplayName resolution.scope) = true

variable {previewId writtenId : ContextId} {now : Instant}

/-- Short of a creation, the preview is the write. -/
theorem previewAgrees_of_uncreating (uncreating : ¬db.CreatesImplicitly principal resolution) :
    PreviewAgrees db previewId writtenId principal resolution now := by
  have shared : db.legacyTarget previewId principal resolution .previewWrite =
      db.legacyTarget writtenId principal resolution .write :=
    Db.legacyTarget_shared uncreating rfl rfl
  have stored : ∀ target, db.legacyTarget writtenId principal resolution .write = .ok target →
      ∃ id, target = .existing id := by
    intro target ran
    by_contra absent
    exact uncreating (Db.createsImplicitly_of_legacyTarget rfl
      (fun id same => absent ⟨id, same⟩) ran)
  have outcome : ∃ result : Except ToolError ResolvedContextSelection,
      db.previewWrite previewId principal resolution now = (result, db) ∧
        db.commitWrite writtenId principal resolution now = (result, db) := by
    rw [Db.previewWrite, Db.commitWrite, Db.resolveLegacyContextSelection,
      Db.resolveLegacyContextSelection, shared]
    cases targeted : db.legacyTarget writtenId principal resolution .write with
    | error error => exact ⟨.error error, rfl, rfl⟩
    | ok target =>
        obtain ⟨id, rfl⟩ := stored target targeted
        exact ⟨db.resolveById principal id true, rfl, rfl⟩
  obtain ⟨result, previewed, written⟩ := outcome
  constructor
  · rw [previewed, written]
  · rw [previewed, written]
    intro first second firstOk secondOk
    rw [Except.ok.inj (firstOk.symm.trans secondOk)]
  · rw [previewed, written]
    intro first second firstFailed secondFailed
    rw [Except.error.inj (firstFailed.symm.trans secondFailed)]
  · rw [previewed]

/-- Where the key of the scope is reserved, both modes report the conflict. -/
theorem previewAgrees_of_reserved (creates : db.CreatesImplicitly principal resolution)
    (reserved : db.exactKeyOrAlias principal ContextKind.custom
      (normalizeContextKey resolution.scope) = true) :
    PreviewAgrees db previewId writtenId principal resolution now := by
  have previewed := creates.preview previewId now
  rw [if_pos reserved] at previewed
  have uncreatable : ¬db.ImplicitlyCreatable writtenId principal resolution.scope := by
    intro creatable
    rw [creatable.keyFree] at reserved
    cases reserved
  obtain ⟨message, written⟩ := creates.write_refused uncreatable now
  rw [← Db.previewWrite] at previewed
  rw [← Db.commitWrite] at written
  constructor
  · rw [previewed, written]
    constructor
    · rintro ⟨_, failed⟩
      cases failed
    · rintro ⟨_, failed⟩
      cases failed
  · rw [previewed]
    intro first second failed
    cases failed
  · rw [previewed, written]
    intro first second firstFailed secondFailed
    cases firstFailed
    cases secondFailed
    rfl
  · rw [previewed]

/-- Where the store takes the draft, the policies decide both modes alike. -/
theorem previewAgrees_of_stated (unused : db.Unused writtenId)
    (creates : db.CreatesImplicitly principal resolution)
    (keyFree : db.exactKeyOrAlias principal ContextKind.custom
      (normalizeContextKey resolution.scope) = false)
    (stated : StatedDraft principal resolution.scope) :
    PreviewAgrees db previewId writtenId principal resolution now := by
  have previewed := creates.preview previewId now
  rw [if_neg (by rw [keyFree]; exact Bool.false_ne_true)] at previewed
  have creatable := (creates.creatable_iff unused.absent).mpr ⟨stated, keyFree⟩
  obtain ⟨created, _, written⟩ := creates.write_created unused creatable now
  rw [← Db.previewWrite] at previewed
  rw [← Db.commitWrite] at written
  have codes : (checkImplicitPolicies db principal "scope").mapError (·.code) =
      (checkImplicitPolicies db principal "context").mapError (·.code) :=
    checkPolicies_code "scope" "context" [] []
  cases scopeChecked : checkImplicitPolicies db principal "scope" with
  | ok done =>
      have contextChecked := (ok_iff_of_mapError_eq codes).mp scopeChecked
      rw [scopeChecked] at previewed
      rw [contextChecked] at written
      constructor
      · rw [previewed, written]
        exact ⟨fun _ => ⟨_, rfl⟩, fun _ => ⟨_, rfl⟩⟩
      · rw [previewed, written]
        intro first second firstOk secondOk
        cases firstOk
        cases secondOk
        rfl
      · rw [previewed]
        intro first second failed
        cases failed
      · rw [previewed]
  | error refusal =>
      cases contextChecked : checkImplicitPolicies db principal "context" with
      | ok done =>
          have passed := (ok_iff_of_mapError_eq codes).mpr contextChecked
          rw [scopeChecked] at passed
          cases passed
      | error failure =>
          rw [scopeChecked, contextChecked] at codes
          rw [scopeChecked] at previewed
          rw [contextChecked] at written
          constructor
          · rw [previewed, written]
            constructor
            · rintro ⟨_, failed⟩
              cases failed
            · rintro ⟨_, failed⟩
              cases failed
          · rw [previewed]
            intro first second failed
            cases failed
          · rw [previewed, written]
            intro first second firstFailed secondFailed
            cases firstFailed
            cases secondFailed
            exact Except.error.inj codes
          · rw [previewed]

/-- Where the store refuses the draft, the preview promises what the write does
not do, or fails for another reason. -/
theorem Db.PreviewsRefusedDraft.disagrees (refused : db.PreviewsRefusedDraft principal resolution) :
    ¬PreviewAgrees db previewId writtenId principal resolution now := by
  intro agrees
  have previewed := refused.creates.preview previewId now
  rw [if_neg (by rw [refused.keyFree]; exact Bool.false_ne_true)] at previewed
  have uncreatable : ¬db.ImplicitlyCreatable writtenId principal resolution.scope := by
    intro creatable
    rcases refused.unstated with blank | blank
    · rw [creatable.principalStated] at blank
      cases blank
    · rw [creatable.nameStated] at blank
      cases blank
  obtain ⟨message, written⟩ := refused.creates.write_refused uncreatable now
  rw [← Db.previewWrite] at previewed
  rw [← Db.commitWrite] at written
  cases checked : checkImplicitPolicies db principal "scope" with
  | ok done =>
      obtain ⟨selection, succeeded⟩ := agrees.succeeds.mp ⟨_, by rw [previewed, checked]; rfl⟩
      rw [written] at succeeded
      cases succeeded
  | error refusal =>
      have code := agrees.code refusal _ (by rw [previewed, checked]; rfl) (by rw [written])
      exact checkImplicitPolicies_not_conflict refusal checked code

/-- The preview of a legacy scope agrees with the write on the same store, in
success, direct context and error code, and changes nothing, exactly where the
write does not come to a draft that only the store refuses. -/
theorem preview_agrees_iff (unused : db.Unused writtenId) :
    PreviewAgrees db previewId writtenId principal resolution now ↔
      ¬db.PreviewsRefusedDraft principal resolution := by
  constructor
  · exact fun agrees refused => refused.disagrees agrees
  · intro unrefused
    by_cases creates : db.CreatesImplicitly principal resolution
    · cases keyFree : db.exactKeyOrAlias principal ContextKind.custom
          (normalizeContextKey resolution.scope) with
      | true => exact previewAgrees_of_reserved creates keyFree
      | false =>
          apply previewAgrees_of_stated unused creates keyFree
          constructor
          · rw [Bool.eq_false_iff]
            exact fun blank => unrefused ⟨creates, keyFree, Or.inl blank⟩
          · rw [Bool.eq_false_iff]
            exact fun blank => unrefused ⟨creates, keyFree, Or.inr blank⟩
    · exact previewAgrees_of_uncreating creates

/-- A scope that a caller states. -/
def statedScope (scope : String) : ScopeResolution :=
  ⟨scope, false, .explicit, none, none⟩

omit [Host] [IdentityHost] in
theorem preview_agrees_iff_atlas :
    customKindStore.Unused ⟨2⟩ ∧
      ¬@Db.PreviewsRefusedDraft asciiHost customKindStore "owner" (statedScope "atlas") ∧
      @PreviewAgrees asciiHost plainIdentities customKindStore ⟨1⟩ ⟨2⟩ "owner"
        (statedScope "atlas") 0 := by
  have stated : ¬@Db.PreviewsRefusedDraft asciiHost customKindStore "owner"
      (statedScope "atlas") := by
    intro refused
    rcases @Db.PreviewsRefusedDraft.unstated asciiHost _ _ _ refused with blank | blank
    · exact absurd blank (by decide)
    · exact absurd blank (by decide)
  exact ⟨unused_customKindStore ⟨2⟩, stated,
    (@preview_agrees_iff asciiHost plainIdentities _ _ _ _ _ _ (unused_customKindStore ⟨2⟩)).mpr
      stated⟩

omit [Host] [IdentityHost] in
/-- The last segment of this scope that states anything is a blank. -/
theorem preview_of_blank_segment_disagrees :
    ¬@PreviewAgrees asciiHost plainIdentities customKindStore ⟨1⟩ ⟨2⟩ "owner"
      (statedScope "a/ /") 0 := by
  have creates : @Db.CreatesImplicitly asciiHost customKindStore "owner" (statedScope "a/ /") :=
    @Db.CreatesImplicitly.mk asciiHost _ _ _ rfl rfl rfl rfl rfl
  have refused : @Db.PreviewsRefusedDraft asciiHost customKindStore "owner"
      (statedScope "a/ /") :=
    @Db.PreviewsRefusedDraft.mk asciiHost _ _ _ creates rfl (Or.inr (by decide))
  exact @Db.PreviewsRefusedDraft.disagrees asciiHost plainIdentities _ _ _ _ _ _ refused

end LocalHold
