import LocalHold.Context.Relaxation
import LocalHold.Server.SpecificAnchors

/-!
# Descendants in a governed write

Including descendants adds contexts below the selected ones.  Their overrides
displace the overrides above them and take part in the policy, so they can lift
a denial, a requirement, a restriction of companions or a conflict.  Where they
lift nothing, a write that succeeds with descendants succeeds without them.
-/

namespace LocalHold

open Relational Hierarchy Transition.Checked

variable {db : Db} {principal : String} {directIds : List ContextId} {kind : ContextKind}

/-- An override of a selection below which no other one is reached without
passing an archived context. -/
structure Db.TakesPart (db : Db) (principal : String) (directIds : List ContextId) (flag : Bool)
    (kind : ContextKind) (record : ContextAnchorPolicyRecord) : Prop where
  override : db.SelectedOverride principal directIds flag kind record
  lowest : ∀ other, db.SelectedOverride principal directIds flag kind other →
    other.anchorContextId ≠ record.anchorContextId →
    ¬db.ActivelyAbove record.anchorContextId other.anchorContextId

open Classical in
/-- What the overrides that take part in a selection say about a kind. -/
noncomputable def Db.overridesTakingPart (db : Db) (principal : String)
    (directIds : List ContextId) (flag : Bool) (kind : ContextKind) : List ContextKindPolicy :=
  ((db.listContextAnchorPolicies principal).filter fun record =>
    decide (db.TakesPart principal directIds flag kind record)).filterMap (·.policy.get kind)

/-- The overrides that take part with descendants lift nothing that the ones
taking part without them impose. -/
def Db.DescendantsLiftNothing (db : Db) (principal : String) (directIds : List ContextId)
    (kind : ContextKind) : Prop :=
  let policies := (db.contextPolicyState principal).kindPolicies
  LiftsNothing kind (layerPolicy policies .operator kind) (layerPolicy policies .principal kind)
    (db.overridesTakingPart principal directIds false kind)
    (db.overridesTakingPart principal directIds true kind)

open Classical in
/-- The code collects the overrides that take part. -/
theorem Expansion.overridesTakingPart_eq {flag : Bool} {effective : List ContextDefinition}
    (expansion : Expansion db principal directIds flag effective) :
    db.overridesTakingPart principal directIds flag kind =
      (specificAnchorRecords kind (db.listContextAnchorPolicies principal)
        (policyRecords effective) (effective.map (·.id))).filterMap (·.policy.get kind) := by
  rw [Db.overridesTakingPart, specificAnchorRecords, activeAnchorRecords, List.filter_filter]
  congr 1
  apply List.filter_congr
  intro record listed
  have kept : record ∈ db.participatingAnchors principal (effective.map (·.id)) kind ↔ _ :=
    expansion.mem_participatingAnchors_iff
  rw [Db.participatingAnchors, Db.definitionsOf_map_id expansion.stored, specificAnchorRecords,
    activeAnchorRecords, List.filter_filter, List.mem_filter, and_iff_right listed] at kept
  rw [Bool.eq_iff_iff, decide_eq_true_iff]
  refine Iff.trans ?_ kept.symm
  exact ⟨fun takes => ⟨takes.override, takes.lowest⟩, fun takes => ⟨takes.1, takes.2⟩⟩

theorem Db.SelectedOrInherited.widen {id : ContextId}
    (selected : db.SelectedOrInherited principal directIds false id) :
    db.SelectedOrInherited principal directIds true id := by
  refine ⟨selected.1, ?_⟩
  rcases selected.2 with direct | above | ⟨absent, _⟩
  · exact Or.inl direct
  · exact Or.inr (Or.inl above)
  · cases absent

variable {narrow wide : List ContextDefinition}

/-- The policy evaluated with descendants is at least as strict. -/
theorem Db.DescendantsLiftNothing.tightens
    (harmless : db.DescendantsLiftNothing principal directIds kind)
    (narrowed : Expansion db principal directIds false narrow)
    (widened : Expansion db principal directIds true wide) :
    Tightens
      (effectivePolicyFor (db.contextPolicyState principal) (policyRecords wide) kind
        (wide.map (·.id)))
      (effectivePolicyFor (db.contextPolicyState principal) (policyRecords narrow) kind
        (narrow.map (·.id))) := by
  rw [Db.DescendantsLiftNothing, narrowed.overridesTakingPart_eq,
    widened.overridesTakingPart_eq] at harmless
  exact LiftsNothing.evaluateEffective harmless

/-- The contexts of a selection occur in the selection with descendants. -/
theorem Expansion.kinds_subset (narrowed : Expansion db principal directIds false narrow)
    (widened : Expansion db principal directIds true wide) :
    ∀ kind ∈ narrow.map (·.kind), kind ∈ wide.map (·.kind) := by
  intro kind member
  obtain ⟨context, contextMem, rfl⟩ := List.mem_map.mp member
  have selected := (narrowed.mem_iff context.id).mp (List.mem_map_of_mem contextMem)
  obtain ⟨other, otherMem, sameId⟩ :=
    List.mem_map.mp ((widened.mem_iff context.id).mpr selected.widen)
  obtain ⟨row, rowMem, rfl⟩ := narrowed.stored context contextMem
  obtain ⟨otherRow, otherRowMem, rfl⟩ := widened.stored other otherMem
  have sameRow := Table.eq_of_mem_of_key_eq otherRowMem rowMem sameId
  exact List.mem_map.mpr ⟨otherRow.context, otherMem, by rw [sameRow]⟩

/-- Checks that pass with descendants pass without them. -/
theorem PoliciesPass.without_descendants {directKinds : List ContextKind}
    (harmless : ∀ kind, db.contextKinds.contains kind = true →
      db.DescendantsLiftNothing principal directIds kind)
    (narrowed : Expansion db principal directIds false narrow)
    (widened : Expansion db principal directIds true wide)
    (passed : PoliciesPass
      (effectivePolicies (db.contextPolicyState principal) (policyRecords wide)
        (wide.map (·.id))) (wide.map (·.kind)) directKinds) :
    PoliciesPass
      (effectivePolicies (db.contextPolicyState principal) (policyRecords narrow)
        (narrow.map (·.id))) (narrow.map (·.kind)) directKinds := by
  have evaluated : ∀ policy ∈ effectivePolicies (db.contextPolicyState principal)
      (policyRecords narrow) (narrow.map (·.id)),
      ∃ strict ∈ effectivePolicies (db.contextPolicyState principal) (policyRecords wide)
        (wide.map (·.id)), strict.kind = policy.kind ∧ Tightens strict policy := by
    intro policy member
    obtain ⟨definition, definitionMem, rfl⟩ := List.mem_map.mp member
    have known : db.contextKinds.contains definition.kind = true :=
      Table.contains_eq_true_iff.mpr
        ⟨definition, Db.mem_listContextKinds.mp definitionMem, rfl⟩
    refine ⟨_, List.mem_map.mpr ⟨definition, definitionMem, rfl⟩, ?_,
      (harmless _ known).tightens narrowed widened⟩
    simp only [effectivePolicyFor, evaluateEffectiveContextPolicy_kind]
  constructor
  · intro policy member
    obtain ⟨strict, strictMem, _, tightens⟩ := evaluated policy member
    exact tightens.unambiguous (passed.unambiguous strict strictMem)
  · intro policy member kindMem
    obtain ⟨strict, strictMem, sameKind, tightens⟩ := evaluated policy member
    exact tightens.allowed (passed.allowed strict strictMem
      (by rw [sameKind]; exact narrowed.kinds_subset widened _ kindMem))
  · intro policy member required
    obtain ⟨strict, strictMem, sameKind, tightens⟩ := evaluated policy member
    rw [← sameKind]
    exact passed.required strict strictMem
      (tightens.required (passed.unambiguous strict strictMem) required)
  · intro policy member kindMem companions stated companion companionMem distinct
    obtain ⟨strict, strictMem, sameKind, tightens⟩ := evaluated policy member
    refine tightens.companions companion (fun fewer fewerStated => ?_) companions stated
    refine passed.companions strict strictMem ?_ fewer fewerStated companion
      (narrowed.kinds_subset widened _ companionMem) (by rw [sameKind]; exact distinct)
    rw [sameKind]
    exact narrowed.kinds_subset widened _ kindMem

/-! ## The resolution without descendants -/

/-- The same envelope, asking for descendants or not. -/
def ContextEnvelope.askDescendants (envelope : ContextEnvelope) (asked : Bool) : ContextEnvelope :=
  { envelope with includeDescendants := asked }

/-- A narrow expansion suffices for a selection that passes the checks on it. -/
theorem resolvePolicies_of_expandFinal {policyState : ContextPolicyState}
    {envelope : ContextEnvelope} {state : SelectionState} {effective : List ContextDefinition}
    (expanded : expandFinal db principal policyState envelope state = .ok effective)
    (passed : PoliciesPass
      (effectivePolicies policyState (policyRecords effective) (effective.map (·.id)))
      (effective.map (·.kind)) state.directKinds) :
    ∃ selection, resolvePolicies db principal policyState envelope true state = .ok selection ∧
      selection.directIds = state.directIds := by
  rw [resolvePolicies]
  exact ⟨_, bind_eq_ok.mpr ⟨effective, expanded,
    bind_eq_ok.mpr ⟨(), checkPolicies_of_policiesPass passed, rfl⟩⟩, rfl⟩

theorem directIds_of_resolvePolicies {policyState : ContextPolicyState}
    {envelope : ContextEnvelope} {state : SelectionState} {selection : ResolvedContextSelection}
    (ran : resolvePolicies db principal policyState envelope true state = .ok selection) :
    selection.directIds = state.directIds := by
  rw [resolvePolicies] at ran
  obtain ⟨_, _, ran⟩ := bind_eq_ok.mp ran
  obtain ⟨_, _, done⟩ := bind_eq_ok.mp ran
  cases done
  rfl

/-- The policy phase without descendants. -/
theorem resolvePolicies_without_descendants {state : SelectionState}
    {envelope : ContextEnvelope} {selection : ResolvedContextSelection}
    (ran : resolvePolicies db principal (db.contextPolicyState principal)
      (envelope.askDescendants true) true state = .ok selection)
    (harmless : ∀ kind, db.contextKinds.contains kind = true →
      db.DescendantsLiftNothing principal selection.directIds kind) :
    ∃ narrow, resolvePolicies db principal (db.contextPolicyState principal)
      (envelope.askDescendants false) true state = .ok narrow ∧
      narrow.directIds = selection.directIds := by
  rw [directIds_of_resolvePolicies ran] at harmless ⊢
  rw [resolvePolicies] at ran
  obtain ⟨wide, expandedRan, ran⟩ := bind_eq_ok.mp ran
  obtain ⟨_, checked, _⟩ := bind_eq_ok.mp ran
  have passed := policiesPass_of_checkPolicies checked
  rw [expandFinal] at expandedRan
  obtain ⟨initial, initialRan, expandedRan⟩ := bind_eq_ok.mp expandedRan
  rw [if_pos (by rfl)] at expandedRan
  cases policyAsks : includesDescendants (db.contextPolicyState principal)
      (envelope.askDescendants false) state.directKinds initial with
  | true =>
      refine resolvePolicies_of_expandFinal ?_ passed
      rw [expandFinal]
      exact bind_eq_ok.mpr ⟨initial, initialRan, by rw [if_pos policyAsks]; exact expandedRan⟩
  | false =>
      refine @resolvePolicies_of_expandFinal _ _ _ _ _ initial ?_ ?_
      · rw [expandFinal]
        exact bind_eq_ok.mpr ⟨initial, initialRan, by rw [if_neg (by simp [policyAsks])]; rfl⟩
      · exact passed.without_descendants harmless
          (Db.expandContextSelection_ok (mapError_eq_ok.mp initialRan))
          (Db.expandContextSelection_ok (mapError_eq_ok.mp expandedRan))

variable [Host] [IdentityHost]

/-- A governed write that resolves with descendants resolves without them, to
the same direct contexts, unless the overrides of the descendants lift a denial,
a requirement, a restriction of companions or a conflict. -/
theorem resolves_without_descendants {envelope : ContextEnvelope} {query : Option String}
    {selection : ResolvedContextSelection}
    (ran : db.resolveContextSelection principal (some (envelope.askDescendants true)) query true =
      .ok selection)
    (harmless : ∀ kind, db.contextKinds.contains kind = true →
      db.DescendantsLiftNothing principal selection.directIds kind) :
    ∃ narrow, db.resolveContextSelection principal (some (envelope.askDescendants false)) query
      true = .ok narrow ∧ narrow.directIds = selection.directIds := by
  rw [Db.resolveContextSelection] at ran ⊢
  obtain ⟨_, validated, ran⟩ := bind_eq_ok.mp ran
  simp only [Option.isNone_some, Bool.false_and, Bool.false_eq_true, ↓reduceIte,
    Option.getD_some] at ran ⊢
  obtain ⟨state, lookedUp, ran⟩ := bind_eq_ok.mp ran
  rw [finishSelection] at ran
  obtain ⟨resolved, ran⟩ := of_ensure_bind ran
  have finish : ∃ narrow, finishSelection db principal (db.contextPolicyState principal)
      (envelope.askDescendants false) query true state = .ok narrow ∧
      narrow.directIds = selection.directIds := by
    rw [finishSelection]
    split at ran
    · rename_i empty
      obtain ⟨outcome, emptyRan, ran⟩ := bind_eq_ok.mp ran
      cases outcome with
      | done deferred =>
          cases ran
          refine ⟨selection, ?_, rfl⟩
          refine bind_eq_ok.mpr ⟨(), ensure_eq_ok.mpr resolved, ?_⟩
          rw [if_pos empty]
          exact bind_eq_ok.mpr ⟨_, emptyRan, rfl⟩
      | proceed next =>
          obtain ⟨narrow, narrowRan, direct⟩ := resolvePolicies_without_descendants ran harmless
          refine ⟨narrow, bind_eq_ok.mpr ⟨(), ensure_eq_ok.mpr resolved, ?_⟩, direct⟩
          rw [if_pos empty]
          exact bind_eq_ok.mpr ⟨_, emptyRan, narrowRan⟩
    · rename_i nonempty
      obtain ⟨narrow, narrowRan, direct⟩ := resolvePolicies_without_descendants ran harmless
      refine ⟨narrow, bind_eq_ok.mpr ⟨(), ensure_eq_ok.mpr resolved, ?_⟩, direct⟩
      rw [if_neg nonempty]
      exact narrowRan
  obtain ⟨narrow, finished, direct⟩ := finish
  exact ⟨narrow, bind_eq_ok.mpr ⟨(), validated, bind_eq_ok.mpr ⟨state, lookedUp, finished⟩⟩, direct⟩

/-! ## A project and its subproject -/

/-- Two projects, one below the other, with the given overrides. -/
def familyStore (overrides : List ContextAnchorPolicyRecord) : Db :=
  { Db.empty 3 with
    contextKinds := Table.empty.upsert ⟨ContextKind.project, "Project", true, true, 0, 0⟩
    contexts := (Table.empty.upsert (chainProject 1 "group" none .active)).upsert
      (chainProject 2 "task" (some ⟨1⟩) .active)
    anchorPolicies := overrides.foldl Table.upsert Table.empty }

/-- An override that allows or denies projects. -/
def permission (id : Nat) (allowed : Bool) : ContextAnchorPolicyRecord :=
  ⟨⟨id⟩, "owner", ⟨Table.empty.upsert
    ("project", { ContextKindPolicy.default with allowed := some allowed })⟩, 0⟩

/-- A write to the upper project. -/
def familyEnvelope : ContextEnvelope :=
  { ContextEnvelope.default with refs := [ContextReference.byId ⟨1⟩] }

/-- Both projects carry guidance; the override of the lower one displaces the
override of the upper one. -/
def guidedStore : Db :=
  familyStore [chainOverride 1 "group rules", chainOverride 2 "task rules"]

omit [Host] [IdentityHost] in
/-- Guidance that displaces guidance lifts nothing. -/
theorem guidedStore_liftsNothing :
    guidedStore.DescendantsLiftNothing "owner" [⟨1⟩] ContextKind.project := by
  have narrowed : ∃ narrow, guidedStore.expandContextSelection [⟨1⟩] "owner" false = .ok narrow ∧
      (specificAnchorRecords ContextKind.project (guidedStore.listContextAnchorPolicies "owner")
        (policyRecords narrow) (narrow.map (·.id))).filterMap (·.policy.get ContextKind.project) =
      [{ ContextKindPolicy.default with guidance := some "group rules" }] :=
    ⟨_, rfl, by decide⟩
  have widened : ∃ wide, guidedStore.expandContextSelection [⟨1⟩] "owner" true = .ok wide ∧
      (specificAnchorRecords ContextKind.project (guidedStore.listContextAnchorPolicies "owner")
        (policyRecords wide) (wide.map (·.id))).filterMap (·.policy.get ContextKind.project) =
      [{ ContextKindPolicy.default with guidance := some "task rules" }] :=
    ⟨_, rfl, by decide⟩
  obtain ⟨narrow, narrowExpanded, groupRules⟩ := narrowed
  obtain ⟨wide, wideExpanded, taskRules⟩ := widened
  rw [Db.DescendantsLiftNothing,
    (Db.expandContextSelection_ok narrowExpanded).overridesTakingPart_eq, groupRules,
    (Db.expandContextSelection_ok wideExpanded).overridesTakingPart_eq, taskRules]
  have silent : ∀ layer, layerPolicy (guidedStore.contextPolicyState "owner").kindPolicies layer
      ContextKind.project = none := by
    intro layer
    cases layer <;> rfl
  rw [silent, silent]
  have agree : ∀ guidance, ScalarsAgree
      [{ ContextKindPolicy.default with guidance := some guidance }] := by
    intro guidance
    constructor <;> simp [Unanimous, ContextKindPolicy.default]
  constructor
  · simp [Denies, ContextKindPolicy.default]
  · simp [Requires, ContextKindPolicy.default]
  · simp [Excludes, policyLayers, ContextKindPolicy.default]
  · exact fun split => absurd (agree _) split

omit [Host] [IdentityHost] in
theorem resolves_without_descendants_guided_child :
    ∃ selection, @Db.resolveContextSelection asciiHost plainIdentities guidedStore "owner"
        (some (familyEnvelope.askDescendants true)) none true = .ok selection ∧
      selection.effectiveIds = [⟨1⟩, ⟨2⟩] ∧
      ∃ narrow, @Db.resolveContextSelection asciiHost plainIdentities guidedStore "owner"
        (some (familyEnvelope.askDescendants false)) none true = .ok narrow ∧
      narrow.directIds = selection.directIds := by
  have ran : ∃ selection, @Db.resolveContextSelection asciiHost plainIdentities guidedStore
      "owner" (some (familyEnvelope.askDescendants true)) none true = .ok selection ∧
      selection.effectiveIds = [⟨1⟩, ⟨2⟩] ∧ selection.directIds = [⟨1⟩] := ⟨_, rfl, rfl, rfl⟩
  obtain ⟨selection, resolved, effective, direct⟩ := ran
  refine ⟨selection, resolved, effective,
    @resolves_without_descendants _ _ asciiHost plainIdentities _ _ _ resolved ?_⟩
  intro kind known
  obtain ⟨row, rowMem, sameKind⟩ := Table.contains_eq_true_iff.mp known
  have projects : ∀ row ∈ guidedStore.contextKinds.rows, row.kind = ContextKind.project := by
    decide
  have project : kind = ContextKind.project := sameKind.symm.trans (projects row rowMem)
  rw [direct, project]
  exact guidedStore_liftsNothing

omit [Host] [IdentityHost] in
/-- The permission of the subproject lifts the denial of the selected project. -/
theorem descendant_override_lifts_denial :
    (∃ selection, @Db.resolveContextSelection asciiHost plainIdentities
        (familyStore [permission 1 false, permission 2 true]) "owner"
        (some (familyEnvelope.askDescendants true)) none true = .ok selection) ∧
      ¬∃ narrow, @Db.resolveContextSelection asciiHost plainIdentities
        (familyStore [permission 1 false, permission 2 true]) "owner"
        (some (familyEnvelope.askDescendants false)) none true = .ok narrow := by
  refine ⟨⟨_, rfl⟩, ?_⟩
  rintro ⟨narrow, resolved⟩
  have refused : ∃ error, @Db.resolveContextSelection asciiHost plainIdentities
      (familyStore [permission 1 false, permission 2 true]) "owner"
      (some (familyEnvelope.askDescendants false)) none true = .error error := ⟨_, rfl⟩
  obtain ⟨error, refused⟩ := refused
  rw [refused] at resolved
  cases resolved

end LocalHold
