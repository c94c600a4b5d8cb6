import LocalHold.Naming.Answers
import LocalHold.Store.AliasAnchors
import LocalHold.Store.DisabledKinds

/-!
# Exact locators stay unambiguous

A context answers an exact lookup by its key and by its aliases.  The writers
that create contexts each look for a visible holder of the new key first.  Two
of them miss a holder: reassignment looks at keys of active contexts only, and
registration writes the aliases of a scope without looking, after it may have
created the parent under one of them.
-/

namespace LocalHold

open Relational Transition Transition.Txn Naming

/-! ## Who answers a lookup -/

/-- A context that a principal sees answers a key of its kind. -/
def Db.answers (db : Db) (principal : String) (includeArchived : Bool)
    (name : ContextKind × String) (id : ContextId) : Prop :=
  ∃ row ∈ db.contexts, row.context.id = id ∧ row.context.kind = name.1 ∧
    db.contextVisible row.context principal = true ∧
    (includeArchived = true ∨ row.context.lifecycle = .active) ∧ db.heldBy row name.2

theorem Db.answers_all {db : Db} {principal : String} {includeArchived : Bool}
    {name : ContextKind × String} {id : ContextId}
    (answered : db.answers principal includeArchived name id) :
    db.answers principal true name id := by
  obtain ⟨row, rowMem, named, kind, visible, _, held⟩ := answered
  exact ⟨row, rowMem, named, kind, visible, Or.inl rfl, held⟩

theorem Db.answersLookup_key_iff {db : Db} {kind : ContextKind} {key : String}
    {row : ContextRow} :
    db.answersLookup (.key (some kind) key) row = true ↔
      row.context.kind = kind ∧ db.heldBy row key := by
  simp [Db.answersLookup, Db.heldBy, Table.mem_def, List.any_eq_true]

/-- An exact lookup finds at most one context exactly when its key is unambiguous. -/
theorem Db.findContextRecords_length_le_one_iff {db : Db} {principal : String}
    {includeArchived : Bool} {kind : ContextKind} {key : String} :
    (db.findContextRecords principal includeArchived (.key (some kind) key)).length ≤ 1 ↔
      Unambiguous (db.answers principal includeArchived) (kind, key) := by
  let rows := db.contexts.select fun row =>
    db.contextVisible row.context principal && db.answersLookup (.key (some kind) key) row &&
      (includeArchived || row.context.lifecycle == .active)
  have answered : ∀ id, db.answers principal includeArchived (kind, key) id ↔
      ∃ row ∈ rows, row.context.id = id := by
    intro id
    simp only [rows, Db.answers, Table.mem_select_iff, Bool.and_eq_true, Bool.or_eq_true,
      beq_iff_eq, Db.answersLookup_key_iff]
    constructor
    · rintro ⟨row, rowMem, named, sameKind, visible, active, held⟩
      exact ⟨row, ⟨rowMem, ⟨visible, sameKind, held⟩, active⟩, named⟩
    · rintro ⟨row, ⟨rowMem, ⟨visible, sameKind, held⟩, active⟩, named⟩
      exact ⟨row, rowMem, named, sameKind, visible, active, held⟩
  have shorter : (db.findContextRecords principal includeArchived
      (.key (some kind) key)).length ≤ 1 ↔ rows.length ≤ 1 := by
    have sorted : (orderBy contextRowBefore rows).length = rows.length :=
      (perm_orderBy _ _).length_eq
    rw [Db.findContextRecords, List.length_map, List.length_take, sorted]
    omega
  have determined : ∀ first ∈ rows, ∀ second ∈ rows, first.context.id = second.context.id →
      first = second := by
    intro first firstMem second secondMem same
    exact Table.eq_of_mem_of_key_eq (Table.mem_select_iff.mp firstMem).1
      (Table.mem_select_iff.mp secondMem).1 same
  rw [shorter, length_le_one_iff (Table.nodup_select _ _) determined]
  constructor
  · intro same first second firstAnswers secondAnswers
    obtain ⟨firstRow, firstMem, rfl⟩ := (answered first).mp firstAnswers
    obtain ⟨secondRow, secondMem, rfl⟩ := (answered second).mp secondAnswers
    exact same firstRow firstMem secondRow secondMem
  · intro unique firstRow firstMem secondRow secondMem
    exact unique _ _ ((answered _).mpr ⟨firstRow, firstMem, rfl⟩)
      ((answered _).mpr ⟨secondRow, secondMem, rfl⟩)

/-! ## Changes that keep lookups unambiguous -/

/-- What a step may do to the lookups of a principal that creates contexts:
unambiguous ones stay so, and every new context is the principal's own and
answers its key alone. -/
structure SeparatesLocators (principal : String) (db next : Db) : Prop where
  keeps : ∀ includeArchived name, Unambiguous (db.answers principal includeArchived) name →
    Unambiguous (next.answers principal includeArchived) name
  fresh : ∀ name ∈ next.contextNames, name ∈ db.contextNames ∨
    (name.2.1 = principal ∧ ∀ includeArchived,
      Unambiguous (next.answers principal includeArchived) (name.2.2.1, name.2.2.2))

instance (principal : String) : Std.Refl (SeparatesLocators principal) where
  refl _ := ⟨fun _ _ unique => unique, fun _ named => Or.inl named⟩

instance (principal : String) : IsTrans Db (SeparatesLocators principal) where
  trans _ _ _ early late :=
    { keeps := fun includeArchived name unique =>
        late.keeps includeArchived name (early.keeps includeArchived name unique)
      fresh := by
        intro name named
        rcases late.fresh name named with middle | new
        · rcases early.fresh name middle with old | ⟨own, unique⟩
          · exact Or.inl old
          · exact Or.inr ⟨own, fun includeArchived => late.keeps _ _ (unique includeArchived)⟩
        · exact Or.inr new }

/-- Lookups are decided by the view of locators. -/
theorem Db.answers_congr {db next : Db} (same : next.locatorView = db.locatorView)
    {principal : String} {includeArchived : Bool} {name : ContextKind × String} {id : ContextId}
    (answered : next.answers principal includeArchived name id) :
    db.answers principal includeArchived name id := by
  simp only [Db.locatorView, Prod.mk.injEq] at same
  obtain ⟨rows, aliases, grants⟩ := same
  obtain ⟨row, rowMem, named, kind, visible, active, held⟩ := answered
  have viewed := List.mem_map_of_mem (f := fun row : ContextRow =>
    ((row.context.id, row.context.ownerPrincipal, row.context.kind, row.normalizedKey),
      row.context.lifecycle)) rowMem
  rw [rows] at viewed
  obtain ⟨old, oldMem, oldEq⟩ := List.mem_map.mp viewed
  simp only [Prod.mk.injEq] at oldEq
  obtain ⟨⟨sameId, sameOwner, sameKind, sameKey⟩, sameLifecycle⟩ := oldEq
  refine ⟨old, oldMem, sameId.trans named, sameKind.trans kind, ?_, ?_, ?_⟩
  · rw [Db.contextVisible, sameOwner, sameId, ← grants]
    exact visible
  · rw [sameLifecycle]
    exact active
  · rw [Db.heldBy, sameKey, sameId, ← aliases]
    exact held

theorem SeparatesLocators.of_view {db next : Db} (same : next.locatorView = db.locatorView)
    (principal : String) : SeparatesLocators principal db next where
  keeps _ _ unique := unique.mono fun _ answered => Db.answers_congr same answered
  fresh name named := by
    rw [Db.contextNames_of_locatorView same] at named
    exact Or.inl named

/-- A context that is inserted answers its own key and nothing else. -/
theorem answers_insert {db next : Db} {row : ContextRow} {contexts : _} {principal : String}
    (anchored : db.AliasesAnchored) (inserted : db.contexts.insert? row = some contexts)
    (written : next = { db with
      contexts := contexts
      contextAudit := next.contextAudit }) {includeArchived : Bool} {name : ContextKind × String}
    {id : ContextId} (answered : next.answers principal includeArchived name id) :
    db.answers principal includeArchived name id ∨
      (id = row.context.id ∧ name = (row.context.kind, row.normalizedKey)) := by
  obtain ⟨other, otherMem, named, kind, visible, active, held⟩ := answered
  rw [written] at otherMem visible held
  rcases (Table.mem_insert?_iff inserted).mp otherMem with old | rfl
  · exact Or.inl ⟨other, old, named, kind, visible, active, held⟩
  · refine Or.inr ⟨named.symm, ?_⟩
    rcases held with key | ⟨entry, entryMem, ofNew, _⟩
    · exact Prod.ext kind.symm key.symm
    · have stored := anchored entry entryMem
      rw [ofNew, (Table.insert?_eq_some_iff.mp inserted).1] at stored
      cases stored

/-- Inserting a context under a key that nobody answers. -/
theorem separates_insert {db next : Db} {row : ContextRow} {contexts : _} {principal : String}
    (anchored : db.AliasesAnchored) (inserted : db.contexts.insert? row = some contexts)
    (written : next = { db with
      contexts := contexts
      contextAudit := next.contextAudit })
    (own : row.context.ownerPrincipal = principal)
    (free : ∀ id, ¬ db.answers principal true (row.context.kind, row.normalizedKey) id) :
    SeparatesLocators principal db next := by
  have takes : ∀ includeArchived, Takes (db.answers principal includeArchived)
      (next.answers principal includeArchived) row.context.id
      { (row.context.kind, row.normalizedKey) } := by
    intro includeArchived
    constructor
    · intro name id answered
      exact answers_insert anchored inserted written answered
    · rintro name rfl id answered
      exact absurd (Db.answers_all answered) (free id)
  constructor
  · intro includeArchived name unique
    exact (takes includeArchived).unambiguous unique
  · intro name named
    rw [written] at named
    have rows := (Table.insert?_eq_some_iff.mp inserted).2
    simp only [Db.contextNames, rows, List.map_append, List.mem_append, List.map_cons,
      List.map_nil, List.mem_singleton] at named
    rcases named with old | rfl
    · exact Or.inl old
    · exact Or.inr ⟨own, fun includeArchived =>
        (takes includeArchived).unambiguous_of_mem (Set.mem_singleton _)⟩

/-- The aliases of one context become others. -/
structure RewritesAliases (id : ContextId) (surfaces : Set String) (db next : Db) : Prop where
  frame : next = { db with contextAliases := next.contextAliases }
  gained : ∀ entry ∈ next.contextAliases,
    entry ∈ db.contextAliases ∨ (entry.contextId = id ∧ entry.normalizedAlias ∈ surfaces)

instance (id : ContextId) (surfaces : Set String) : Std.Refl (RewritesAliases id surfaces) where
  refl _ := ⟨rfl, fun _ entryMem => Or.inl entryMem⟩

instance (id : ContextId) (surfaces : Set String) :
    IsTrans Db (RewritesAliases id surfaces) where
  trans _ _ _ early late :=
    { frame := by
        rw [late.frame, early.frame]
      gained := by
        intro entry entryMem
        rcases late.gained entry entryMem with middle | new
        · exact early.gained entry middle
        · exact Or.inr new }

theorem rewritesAliases_insertAliasRow {row : AliasRow} {surfaces : Set String}
    (stated : row.normalizedAlias ∈ surfaces) :
    Within (RewritesAliases row.contextId surfaces) (insertAliasRow row) := by
  intro db value next ran
  have ran := of_reads_bind ran
  obtain ⟨_, ran⟩ := of_require_bind ran
  have ran := of_reads_bind ran
  obtain ⟨aliases, inserted, written⟩ := of_expect_bind ran
  cases writes_eq_ok.mp written
  refine ⟨rfl, fun entry entryMem => ?_⟩
  rcases (Table.mem_insert?_iff inserted).mp entryMem with old | rfl
  · exact Or.inl old
  · exact Or.inr ⟨rfl, stated⟩

/-- Aliases that no other visible context of the kind answers make nothing
ambiguous. -/
theorem RewritesAliases.separates {id : ContextId} {surfaces : Set String} {db next : Db}
    (rewrites : RewritesAliases id surfaces db next) {principal : String} {row : ContextRow}
    (found : db.contexts.find? id = some row)
    (free : ∀ surface ∈ surfaces, ∀ other,
      db.answers principal true (row.context.kind, surface) other → other = id) :
    SeparatesLocators principal db next := by
  have takes : ∀ includeArchived, Takes (db.answers principal includeArchived)
      (next.answers principal includeArchived) id
      { name | name.1 = row.context.kind ∧ name.2 ∈ surfaces } := by
    intro includeArchived
    constructor
    · rintro name other ⟨holder, holderMem, named, kind, visible, active, held⟩
      rw [rewrites.frame] at holderMem visible
      rcases held with key | ⟨entry, entryMem, own, same⟩
      · exact Or.inl ⟨holder, holderMem, named, kind, visible, active, Or.inl key⟩
      · rcases rewrites.gained entry entryMem with old | ⟨ofId, stated⟩
        · exact Or.inl ⟨holder, holderMem, named, kind, visible, active,
            Or.inr ⟨entry, old, own, same⟩⟩
        · have here : holder.context.id = id := own.symm.trans ofId
          have same' : holder = row := by
            apply Option.some.inj
            rw [← found, ← here]
            exact (Table.mem_iff_find?.mp holderMem).symm
          refine Or.inr ⟨named.symm.trans here, ?_, ?_⟩
          · rw [← kind, same']
          · rw [← same]
            exact stated
    · rintro name ⟨kind, stated⟩ other answered
      have answeredAll := Db.answers_all answered
      rw [← kind] at free
      exact free name.2 stated other answeredAll
  constructor
  · intro includeArchived name unique
    exact (takes includeArchived).unambiguous unique
  · intro name named
    rw [rewrites.frame] at named
    exact Or.inl named

/-! ## Writers -/

/-- With anchored aliases a step separates the locators and keeps them anchored. -/
def SeparatesAnchored (principal : String) (db next : Db) : Prop :=
  db.AliasesAnchored → next.AliasesAnchored ∧ SeparatesLocators principal db next

instance (principal : String) : Std.Refl (SeparatesAnchored principal) :=
  ⟨fun db anchored => ⟨anchored, Std.Refl.refl db⟩⟩

instance (principal : String) : IsTrans Db (SeparatesAnchored principal) where
  trans db middle next early late := by
    intro anchored
    obtain ⟨middleAnchored, first⟩ := early anchored
    obtain ⟨nextAnchored, second⟩ := late middleAnchored
    exact ⟨nextAnchored, IsTrans.trans db middle next first second⟩

theorem LeavesLocators.separatesAnchored {α : Type} {body : StoreM α} {principal : String}
    (inner : LeavesLocators body) : Within (SeparatesAnchored principal) body :=
  inner.mono fun _ _ same anchored =>
    ⟨AnchorsAliases.of_view (Db.aliasView_of_locatorView same) anchored,
      SeparatesLocators.of_view same principal⟩

theorem Db.exactKeyOrAlias_eq_true_iff {db : Db} {principal : String} {kind : ContextKind}
    {key : String} : db.exactKeyOrAlias principal kind key = true ↔
      ∃ id, db.answers principal true (kind, key) id := by
  simp only [Db.exactKeyOrAlias, Db.answers, Db.heldBy, List.any_eq_true, Bool.and_eq_true,
    Bool.or_eq_true, beq_iff_eq, Table.mem_def, true_or, true_and]
  constructor
  · rintro ⟨row, rowMem, ⟨sameKind, visible⟩, held⟩
    exact ⟨row.context.id, row, rowMem, rfl, sameKind, visible, held⟩
  · rintro ⟨id, row, rowMem, _, sameKind, visible, held⟩
    exact ⟨row, rowMem, ⟨sameKind, visible⟩, held⟩

variable [Host]

theorem separates_ensurePrivateLegacyScopeContext (newId : ContextId) (key : String)
    (displayName description : Option String) (principal : String) (now : Instant) :
    Within (SeparatesAnchored principal)
      (ensurePrivateLegacyScopeContext newId key displayName description principal now) := by
  intro db value next ran anchored
  refine ⟨anchorsAliases_ensurePrivateLegacyScopeContext _ _ _ _ _ _ ran anchored, ?_⟩
  cases ensurePrivateLegacyScopeContext_ok ran with
  | owned _ _ _ view => exact SeparatesLocators.of_view view principal
  | created _ unclaimed _ _ _ _ inserted written =>
      refine separates_insert anchored inserted written rfl ?_
      rintro id ⟨row, rowMem, _, _, visible, _, held⟩
      exact unclaimed row rowMem visible held

/-- What a registration of one key adds to the lookups. -/
theorem RegisteredContext.answers {newId id : ContextId} {key principal : String} {now : Instant}
    {db next : Db} (registered : RegisteredContext newId key principal now db id next)
    (anchored : db.AliasesAnchored) {includeArchived : Bool} {name : ContextKind × String}
    {other : ContextId} (answered : next.answers principal includeArchived name other) :
    db.answers principal includeArchived name other ∨
      (other = id ∧ name = (ContextKind.custom, normalizeContextKey key)) := by
  cases registered with
  | owned _ _ _ view => exact Or.inl (Db.answers_congr view answered)
  | created _ _ _ _ _ new inserted written =>
      rcases answers_insert anchored inserted written answered with old | ⟨same, named⟩
      · exact Or.inl old
      · exact Or.inr ⟨same.trans new.symm, named⟩

/-- Names of contexts stay, also while others are added. -/
def NamesGrow (db next : Db) : Prop :=
  ∀ name ∈ db.contextNames, name ∈ next.contextNames

theorem RegisteredContext.namesGrow {newId id : ContextId} {key principal : String}
    {now : Instant} {db next : Db}
    (registered : RegisteredContext newId key principal now db id next) : NamesGrow db next := by
  intro name named
  cases registered with
  | owned _ _ _ view =>
      rw [Db.contextNames_of_locatorView view]
      exact named
  | created _ _ _ _ _ _ inserted written =>
      have rows := (Table.insert?_eq_some_iff.mp inserted).2
      rw [written]
      simp only [Db.contextNames, rows, List.map_append, List.mem_append]
      exact Or.inl named

/-- A registered context is the principal's custom context of its key. -/
theorem RegisteredContext.named {newId id : ContextId} {key principal : String} {now : Instant}
    {db next : Db} (registered : RegisteredContext newId key principal now db id next) :
    (id, principal, ContextKind.custom, normalizeContextKey key) ∈ next.contextNames := by
  cases registered with
  | owned existing found same view =>
      obtain ⟨row, rowMem, rfl, sameKey, owner, kind⟩ := Db.ownedCustomContext_spec found
      rw [Db.contextNames_of_locatorView view]
      exact List.mem_map.mpr ⟨row, rowMem, by rw [same, owner, kind, sameKey]⟩
  | created _ _ displayName description _ new inserted written =>
      have rows := (Table.insert?_eq_some_iff.mp inserted).2
      rw [written]
      simp only [Db.contextNames, rows, List.map_append, List.mem_append]
      refine Or.inr (List.mem_singleton.mpr ?_)
      rw [new]
      rfl

omit [Host] in
theorem Db.find?_of_contextNames {db : Db} {id : ContextId} {owner : String} {kind : ContextKind}
    {key : String} (named : (id, owner, kind, key) ∈ db.contextNames) :
    ∃ row, db.contexts.find? id = some row ∧ row.context.kind = kind := by
  obtain ⟨row, rowMem, same⟩ := List.mem_map.mp named
  simp only [Prod.mk.injEq] at same
  obtain ⟨rfl, _, sameKind, _⟩ := same
  exact ⟨row, Table.mem_iff_find?.mp rowMem, sameKind⟩

/-- The parent of a registered scope is registered, and then linked. -/
theorem registerScopeParent_ok {newId contextId : ContextId} {scope : ScopeDefinition}
    {principal : String} {now : Instant} {db next : Db} {value : Unit}
    (ran : registerScopeParent newId contextId scope principal now db = .ok (value, next)) :
    next.locatorView = db.locatorView ∨
      ∃ parent parentId middle, scope.parent = some parent ∧
        RegisteredContext newId parent principal now db parentId middle ∧
        next.locatorView = middle.locatorView := by
  unfold registerScopeParent at ran
  cases stated : scope.parent with
  | none =>
      rw [stated] at ran
      obtain ⟨_, _, updated, done⟩ := bind_eq_ok.mp ran
      cases pure_eq_ok.mp done
      exact Or.inl (leavesLocators_updateContext (by intro _; rfl) (by intro _; rfl)
        (by intro _; rfl) updated)
  | some parent =>
      rw [stated] at ran
      obtain ⟨parentId, middle, ensured, ran⟩ := bind_eq_ok.mp ran
      obtain ⟨_, ran⟩ := of_require_bind ran
      have ran := of_reads_bind ran
      obtain ⟨_, ran⟩ := of_require_bind ran
      obtain ⟨_, _, updated, done⟩ := bind_eq_ok.mp ran
      cases pure_eq_ok.mp done
      refine Or.inr ⟨parent, parentId, middle, rfl, ensurePrivateLegacyScopeContext_ok ensured, ?_⟩
      exact leavesLocators_updateContext (by intro _; rfl) (by intro _; rfl) (by intro _; rfl)
        updated

theorem separates_registerScopeParent (newId contextId : ContextId) (scope : ScopeDefinition)
    (principal : String) (now : Instant) :
    Within (SeparatesAnchored principal)
      (registerScopeParent newId contextId scope principal now) := by
  unfold registerScopeParent
  split
  · exact Within.bind (leavesLocators_updateContext (by intro _; rfl) (by intro _; rfl)
      (by intro _; rfl)).separatesAnchored fun _ => Within.pure
  · refine Within.bind (separates_ensurePrivateLegacyScopeContext _ _ _ _ _ _) fun _ => ?_
    refine Within.bind Within.require fun _ => ?_
    refine Within.bind Within.reads fun _ => ?_
    refine Within.bind Within.require fun _ => ?_
    exact Within.bind (leavesLocators_updateContext (by intro _; rfl) (by intro _; rfl)
      (by intro _; rfl)).separatesAnchored fun _ => Within.pure

/-- No alias of a scope is the key of its parent, or answered by a visible custom
context other than the one the scope has already. -/
def Db.AliasesUnanswered (db : Db) (principal : String) (scope : ScopeDefinition) : Prop :=
  ∀ entry ∈ normalizedSurfaces scope.aliases,
    (∀ parent, scope.parent = some parent → normalizeContextKey parent ≠ entry.2) ∧
    ∀ row ∈ db.contexts, row.context.kind = ContextKind.custom →
      db.contextVisible row.context principal = true → db.heldBy row entry.2 →
        db.ownedCustomContext principal (normalizeContextKey scope.scopeKey) = some row.context

/-- Before its aliases are written, the context of a scope is the only one that
answers them. -/
theorem aliasesUnanswered_registered {firstId parentId contextId : ContextId}
    {scope : ScopeDefinition} {principal : String} {now : Instant} {db middle next : Db}
    {value : Unit} (unanswered : db.AliasesUnanswered principal scope)
    (anchored : db.AliasesAnchored)
    (registered : RegisteredContext firstId scope.scopeKey principal now db contextId middle)
    (middleAnchored : middle.AliasesAnchored)
    (ran : registerScopeParent parentId contextId scope principal now middle =
      .ok (value, next)) :
    ∀ entry ∈ normalizedSurfaces scope.aliases, ∀ other,
      next.answers principal true (ContextKind.custom, entry.2) other → other = contextId := by
  intro entry entryMem other answered
  obtain ⟨apart, free⟩ := unanswered entry entryMem
  have inMiddle : middle.answers principal true (ContextKind.custom, entry.2) other := by
    rcases registerScopeParent_ok ran with view | ⟨parent, _, _, stated, parentRegistered, view⟩
    · exact Db.answers_congr view answered
    · rcases parentRegistered.answers middleAnchored (Db.answers_congr view answered) with
        old | ⟨_, same⟩
      · exact old
      · exact absurd (Prod.mk.inj same).2.symm (apart parent stated)
  rcases registered.answers anchored inMiddle with old | ⟨same, _⟩
  · obtain ⟨row, rowMem, named, kind, visible, _, held⟩ := old
    have owned := free row rowMem kind visible held
    cases registered with
    | owned existing found same _ =>
        rw [found] at owned
        rw [same, Option.some.inj owned, named]
    | created unowned _ _ _ _ _ _ _ =>
        rw [unowned] at owned
        cases owned
  · exact same

theorem separates_registerLegacyScopeContext {newId : Nat → ContextId} {scope : ScopeDefinition}
    {principal : String} {now : Instant} {db next : Db} {value : Unit}
    (unanswered : db.AliasesUnanswered principal scope)
    (ran : registerLegacyScopeContext newId scope principal now db = .ok (value, next)) :
    SeparatesAnchored principal db next := by
  intro anchored
  obtain ⟨_, _, ran⟩ := ReadsOnly.of_bind (readsOnly_orConflict _) ran
  obtain ⟨contextId, middle, ensured, ran⟩ := bind_eq_ok.mp ran
  obtain ⟨_, linked, parentRan, ran⟩ := bind_eq_ok.mp ran
  obtain ⟨_, emptied, deleted, ran⟩ := bind_eq_ok.mp ran
  obtain ⟨_, aliased, aliasRan, ran⟩ := bind_eq_ok.mp ran
  have registered := ensurePrivateLegacyScopeContext_ok ensured
  obtain ⟨middleAnchored, first⟩ :=
    separates_ensurePrivateLegacyScopeContext _ _ _ _ _ _ ensured anchored
  obtain ⟨linkedAnchored, second⟩ :=
    separates_registerScopeParent _ _ _ _ _ parentRan middleAnchored
  let surfaces : Set String := { surface | ∃ entry ∈ normalizedSurfaces scope.aliases,
    entry.2 = surface }
  have rewrites : RewritesAliases contextId surfaces linked aliased := by
    have emptying : RewritesAliases contextId surfaces linked emptied := by
      cases writes_eq_ok.mp deleted
      exact ⟨rfl, fun entry entryMem => Or.inl (Table.mem_deleteWhere_iff.mp entryMem).1⟩
    have filling : RewritesAliases contextId surfaces emptied aliased := by
      refine (Within.forM fun entry entryMem => ?_ :
        Within (RewritesAliases contextId surfaces) _) aliasRan
      exact @rewritesAliases_insertAliasRow ⟨contextId, entry.1, entry.2, now⟩ surfaces
        ⟨entry, entryMem, rfl⟩
    exact IsTrans.trans _ _ _ emptying filling
  have named : (contextId, principal, ContextKind.custom, normalizeContextKey scope.scopeKey) ∈
      linked.contextNames := by
    rcases registerScopeParent_ok parentRan with view | ⟨_, _, _, _, parentRegistered, view⟩
    · rw [Db.contextNames_of_locatorView view]
      exact registered.named
    · rw [Db.contextNames_of_locatorView view]
      exact parentRegistered.namesGrow _ registered.named
  obtain ⟨row, found, kind⟩ := Db.find?_of_contextNames named
  have third : SeparatesLocators principal linked aliased := by
    refine rewrites.separates found ?_
    rintro surface ⟨entry, entryMem, rfl⟩ other answered
    rw [kind] at answered
    exact aliasesUnanswered_registered unanswered anchored registered middleAnchored parentRan
      entry entryMem other answered
  have aliasedAnchored : aliased.AliasesAnchored := by
    have emptiedAnchored := anchorsAliases_deleteAliases _ deleted linkedAnchored
    exact (Within.forM fun _ _ => anchorsAliases_insertAliasRow _ : Within AnchorsAliases _)
      aliasRan emptiedAnchored
  have rest : Within (SeparatesAnchored principal) (do
      writes fun db =>
        { db with
          contextHints := db.contextHints.deleteWhere fun row =>
            decide (row.contextId = contextId) }
      (normalizedSurfaces scope.matchers).forM fun entry =>
        insertHintRow ⟨contextId, entry.1, entry.2, now⟩
      writes fun db =>
        { db with
          contextRelations := db.contextRelations.deleteWhere fun row =>
            decide (row.fromContextId = contextId ∧ row.relation = "legacy_related") }
      scope.related.zipIdx.forM fun entry =>
        registerRelatedScope (newId (entry.2 + 2)) contextId entry.1 principal now
      insertContextAudit (legacyKeyAudit principal "legacy_scope_register" scope.scopeKey)
        (some contextId) none now) := by
    refine Within.bind (LeavesLocators.separatesAnchored (Within.writes fun _ => rfl)) fun _ => ?_
    refine Within.bind (Within.forM fun _ _ => (leavesLocators_insertHintRow _).separatesAnchored)
      fun _ => ?_
    refine Within.bind (LeavesLocators.separatesAnchored (Within.writes fun _ => rfl)) fun _ => ?_
    refine Within.bind (Within.forM fun _ _ => ?_) fun _ =>
      (leavesLocators_insertContextAudit _ _ _ _).separatesAnchored
    refine Within.bind (separates_ensurePrivateLegacyScopeContext _ _ _ _ _ _) fun _ => ?_
    apply LeavesLocators.separatesAnchored
    split
    · exact Within.pure
    · exact Within.writes fun _ => rfl
  obtain ⟨nextAnchored, last⟩ := rest ran aliasedAnchored
  exact ⟨nextAnchored, IsTrans.trans _ _ _ first
    (IsTrans.trans _ _ _ second (IsTrans.trans _ _ _ third last))⟩

theorem separates_createContext {draft : ContextCreateDraft} {audit : ContextAuditDraft}
    {now : Instant} {db next : Db} {value : ContextDefinition}
    (unanswered : ∀ entry ∈ draft.aliases,
      db.exactKeyOrAlias draft.ownerPrincipal draft.kind entry.2 = false)
    (anchored : db.AliasesAnchored)
    (ran : createContext draft audit now db = .ok (value, next)) :
    SeparatesLocators draft.ownerPrincipal db next := by
  obtain ⟨_, drafted, ran⟩ := ReadsOnly.of_bind (readsOnly_validateCreateDraft _ _) ran
  obtain ⟨_, validated, ran⟩ := ReadsOnly.of_bind (readsOnly_validateCreation _) ran
  obtain ⟨_, placed, insertedRan, ran⟩ := bind_eq_ok.mp ran
  obtain ⟨_, aliased, aliasRan, attached⟩ := bind_eq_ok.mp ran
  obtain ⟨contexts, inserted, _, rfl⟩ := insertContextRow_ok insertedRan
  have keyFree : db.exactKeyOrAlias draft.ownerPrincipal draft.kind
      (normalizeContextKey draft.key) = false := by
    obtain ⟨_, _, drafted⟩ := ReadsOnly.of_bind (readsOnly_validateAuditActor _ _) drafted
    obtain ⟨key, _⟩ := of_require_bind drafted
    simp only [Bool.and_eq_true, beq_iff_eq] at key
    have validated := of_reads_bind validated
    obtain ⟨_, _, validated⟩ := of_expect_bind validated
    obtain ⟨_, validated⟩ := of_require_bind validated
    obtain ⟨_, _, validated⟩ := ReadsOnly.of_bind (Within.onSome fun _ _ =>
      Within.bind Within.reads fun _ => Within.require) validated
    have validated := of_reads_bind validated
    obtain ⟨exact, _⟩ := of_require_bind validated
    simp only [Bool.not_eq_true', Bool.or_eq_false_iff] at exact
    rw [← key.2]
    exact exact.1
  have free : ∀ key, db.exactKeyOrAlias draft.ownerPrincipal draft.kind key = false →
      ∀ id, ¬ db.answers draft.ownerPrincipal true (draft.kind, key) id := by
    intro key absent id answered
    rw [Db.exactKeyOrAlias_eq_true_iff.mpr ⟨id, answered⟩] at absent
    cases absent
  have first : SeparatesLocators draft.ownerPrincipal db { db with contexts := contexts } :=
    separates_insert anchored inserted rfl rfl (free _ keyFree)
  let surfaces : Set String := { surface | ∃ entry ∈ draft.aliases, entry.2 = surface }
  have rewrites : RewritesAliases draft.id surfaces { db with contexts := contexts } aliased := by
    refine (Within.forM fun entry entryMem => ?_ :
      Within (RewritesAliases draft.id surfaces) _) aliasRan
    exact @rewritesAliases_insertAliasRow ⟨draft.id, entry.1, entry.2, now⟩ surfaces
      ⟨entry, entryMem, rfl⟩
  have found : contexts.find? draft.id = some (draft.toRow now) := by
    rw [Table.find?_insert? inserted]
    exact if_pos rfl
  have second : SeparatesLocators draft.ownerPrincipal { db with contexts := contexts } aliased := by
    refine rewrites.separates found ?_
    rintro surface ⟨entry, entryMem, rfl⟩ other answered
    rcases answers_insert anchored inserted rfl answered with old | ⟨same, _⟩
    · exact absurd old (free _ (unanswered entry entryMem) other)
    · exact same
  have rest : LeavesLocators (do
      draft.identities.forM fun identity =>
        insertIdentityRow ⟨draft.id, draft.ownerPrincipal, draft.kind, identity, now⟩
      (normalizedSurfaces draft.resolverHints).forM fun entry =>
        insertHintRow ⟨draft.id, entry.1, entry.2, now⟩
      insertContextAudit audit (some draft.id) none now
      return draft.toDefinition now) := by
    refine Within.bind (Within.forM fun _ _ => leavesLocators_insertIdentityRow _) fun _ => ?_
    refine Within.bind (Within.forM fun _ _ => leavesLocators_insertHintRow _) fun _ => ?_
    exact Within.bind (leavesLocators_insertContextAudit _ _ _ _) fun _ => Within.pure
  exact IsTrans.trans _ _ _ first
    (IsTrans.trans _ _ _ second (SeparatesLocators.of_view (rest attached) _))

theorem separates_applyReassignScope {newId : ContextId} {fromScope toScope : String}
    {origin : Option String} {principal : String} {audit : Option AuditDraft} {now : Instant}
    {db next : Db} {value : List MemoryId}
    (unanswered : db.activeUnderKey principal (normalizeContextKey toScope) ≠ [] ∨
      db.ownsKey principal toScope = true ∨
      db.exactKeyOrAlias principal ContextKind.custom (normalizeContextKey toScope) = false)
    (anchored : db.AliasesAnchored)
    (ran : applyReassignScope newId fromScope toScope origin principal audit now db =
      .ok (value, next)) : SeparatesLocators principal db next := by
  have ran := of_reads_bind ran
  split at ran
  · cases pure_eq_ok.mp ran
    exact Std.Refl.refl db
  · obtain ⟨id, middle, resolved, ran⟩ := bind_eq_ok.mp ran
    have rest : LeavesLocators (do
        let row ← reads fun db => db.contexts.find? id
        let found ← expect row (.database "Query returned no rows")
        (db.reassignableIds fromScope origin principal).forM
          (reassignMemory id found.context.key fromScope principal audit now)
        return db.reassignableIds fromScope origin principal) := by
      refine Within.bind Within.reads fun _ => ?_
      refine Within.bind Within.expect fun _ => ?_
      exact Within.bind (Within.forM fun _ _ => leavesLocators_reassignMemory _ _ _ _ _ _ _)
        fun _ => Within.pure
    have moved : SeparatesLocators principal middle next :=
      SeparatesLocators.of_view (rest ran) principal
    refine IsTrans.trans _ _ _ ?_ moved
    cases (resolveOrCreatePrivateLegacyContext_ok resolved).2 with
    | owned _ _ _ _ unchanged =>
        rw [unchanged]
        exact Std.Refl.refl db
    | visible _ _ unchanged =>
        rw [unchanged]
        exact Std.Refl.refl db
    | created unowned missing _ _ _ _ inserted written =>
        refine separates_insert anchored inserted written rfl ?_
        intro other answered
        rcases unanswered with listed | owned | absent
        · exact listed missing
        · rw [Db.ownsKey, unowned] at owned
          cases owned
        · have present : db.exactKeyOrAlias principal ContextKind.custom
              (normalizeContextKey toScope) = true :=
            Db.exactKeyOrAlias_eq_true_iff.mpr ⟨other, answered⟩
          rw [absent] at present
          cases present

/-! ## Steps and runs -/

omit [Host] in
/-- A step keeps the exact locators distinct: no context that it creates has a
key that another visible context of its kind answers, and no lookup of the
creating principal becomes ambiguous. -/
structure LocatorsDistinct (db next : Db) : Prop where
  distinct : ∀ row ∈ next.contexts, db.contexts.contains row.context.id = false →
    ∀ other ∈ next.contexts, other.context.id ≠ row.context.id →
      other.context.kind = row.context.kind →
        next.contextVisible other.context row.context.ownerPrincipal = true →
          ¬ next.heldBy other row.normalizedKey
  unambiguous : ∀ row ∈ next.contexts, db.contexts.contains row.context.id = false →
    ∀ includeArchived kind key,
      (db.findContextRecords row.context.ownerPrincipal includeArchived
        (.key (some kind) key)).length ≤ 1 →
      (next.findContextRecords row.context.ownerPrincipal includeArchived
        (.key (some kind) key)).length ≤ 1

omit [Host] in
theorem LocatorsDistinct.of_uncreated {db next : Db}
    (stored : ∀ row ∈ next.contexts, db.contexts.contains row.context.id = true) :
    LocatorsDistinct db next where
  distinct row rowMem absent := by
    rw [stored row rowMem] at absent
    cases absent
  unambiguous row rowMem absent := by
    rw [stored row rowMem] at absent
    cases absent

omit [Host] in
theorem SeparatesLocators.distinct {principal : String} {db next : Db}
    (separates : SeparatesLocators principal db next) : LocatorsDistinct db next := by
  have created : ∀ row ∈ next.contexts, db.contexts.contains row.context.id = false →
      row.context.ownerPrincipal = principal ∧ ∀ includeArchived,
        Unambiguous (next.answers principal includeArchived)
          (row.context.kind, row.normalizedKey) := by
    intro row rowMem absent
    rcases separates.fresh _ (List.mem_map_of_mem rowMem) with old | new
    · obtain ⟨other, otherMem, same⟩ := List.mem_map.mp old
      exact absurd (Prod.mk.inj same).1 (Table.contains_eq_false_iff.mp absent other otherMem)
    · exact new
  constructor
  · intro row rowMem absent other otherMem apart kind visible held
    obtain ⟨own, unique⟩ := created row rowMem absent
    rw [own] at visible
    apply apart
    refine unique true _ _ ⟨other, otherMem, rfl, kind, visible, Or.inl rfl, held⟩
      ⟨row, rowMem, rfl, rfl, ?_, Or.inl rfl, Or.inl rfl⟩
    rw [Db.contextVisible, own, beq_self_eq_true, Bool.true_or]
  · intro row rowMem absent includeArchived kind key short
    rw [(created row rowMem absent).1] at short ⊢
    rw [Db.findContextRecords_length_le_one_iff] at short ⊢
    exact separates.keeps includeArchived (kind, key) short

omit [Host] in
/-- Where a command keeps the exact locators distinct.  Drafts must not state an
alias that is already answered, a registration must not write one or must create
nothing, and a reassignment must not create a context whose key is answered. -/
def StoreCommand.AvoidsCollisions (db : Db) : StoreCommand → Prop
  | .createContext draft _ => ∀ entry ∈ draft.aliases,
      db.exactKeyOrAlias draft.ownerPrincipal draft.kind entry.2 = false
  | .registerScope _ scope principal =>
      (∀ key ∈ scope.keys, db.ownsKey principal key = true) ∨ db.AliasesUnanswered principal scope
  | .reassignScope _ _ toScope _ principal _ =>
      db.activeUnderKey principal (normalizeContextKey toScope) ≠ [] ∨
        db.ownsKey principal toScope = true ∨
        db.exactKeyOrAlias principal ContextKind.custom (normalizeContextKey toScope) = false
  | _ => True

theorem distinct_body {handle : StoreHandle} {now : Instant} {command : StoreCommand}
    {db next : Db} {value : Unit} (avoids : command.AvoidsCollisions db)
    (anchored : db.AliasesAnchored) (ran : command.body handle now db = .ok (value, next)) :
    LocatorsDistinct db next := by
  cases command with
  | createContext draft audit =>
      obtain ⟨_, _, ran, done⟩ := bind_eq_ok.mp ran
      cases pure_eq_ok.mp done
      exact (separates_createContext avoids anchored ran).distinct
  | registerScope newId scope principal =>
      rcases avoids with owned | unanswered
      · have names := namesKept_registerLegacyScopeContext _ _ _ _ ran owned
        exact .of_uncreated fun row rowMem => contains_of_sameNames names rowMem
      · exact (separates_registerLegacyScopeContext unanswered ran anchored).2.distinct
  | reassignScope newId fromScope toScope origin principal audit =>
      obtain ⟨_, _, ran, done⟩ := bind_eq_ok.mp ran
      cases pure_eq_ok.mp done
      exact (separates_applyReassignScope avoids anchored ran).distinct
  | _ =>
      refine .of_uncreated (uncreated_body ?_ ?_ ran)
      · rfl
      · exact trivial

theorem locatorsDistinct_step {db next : Db} {call : StoreCall}
    (avoids : call.command.AvoidsCollisions db) (anchored : db.AliasesAnchored)
    (stepEq : storeStep db call = some next) : LocatorsDistinct db next := by
  have : Std.Refl fun before after => before = db → LocatorsDistinct before after :=
    ⟨fun _ _ => .of_uncreated fun row rowMem =>
      Table.contains_eq_true_iff.mpr ⟨row, rowMem, rfl⟩⟩
  have bounded : Within (fun before after => before = db → LocatorsDistinct before after)
      (call.command.body call.handle call.now) := by
    rintro before value after ran rfl
    exact distinct_body avoids anchored ran
  exact storeStep_within bounded stepEq rfl

/-- In every run whose calls avoid collisions, wherever a call is taken, no
context that it creates has a key that another visible context of its kind
answers by key or alias, and every exact lookup of the creating principal that
was unambiguous stays so. -/
theorem exact_locators_stay_distinct {start middle next : Db} {before after : List StoreCall}
    {call : StoreCall} (anchored : start.AliasesAnchored)
    (guarded : Guarded storeStep (fun db call => call.command.AvoidsCollisions db) start
      (before ++ call :: after))
    (reached : run storeStep start before = some middle)
    (stepEq : storeStep middle call = some next) : LocatorsDistinct middle next :=
  locatorsDistinct_step (guarded.allowed_at reached) (aliasesAnchored_run anchored reached) stepEq

omit [Host] in
/-- A scope whose parent has the key that the scope also takes as an alias. -/
def parentAsAlias : StoreCall :=
  ⟨⟨3, none⟩, 0, .registerScope (fun n => ⟨n + 1⟩)
    ⟨"atlas", "Atlas", none, ["maps"], [], some "maps", []⟩ "owner"⟩

omit [Host] in
/-- A registration creates a parent and then gives its key to the child as an
alias, so that the key finds both. -/
theorem exact_locator_doubled :
    (Db.empty 3).AliasesAnchored ∧
    ∃ middle next, @run _ _ (@storeStep asciiHost) (Db.empty 3) (customDisabled.take 1) =
        some middle ∧ @storeStep asciiHost middle parentAsAlias = some next ∧
      (middle.findContextRecords "owner" false
        (.key (some ContextKind.custom) "maps")).length = 0 ∧
      ¬ LocatorsDistinct middle next := by
  have ran : ∃ middle next,
      @run _ _ (@storeStep asciiHost) (Db.empty 3) (customDisabled.take 1) = some middle ∧
        @storeStep asciiHost middle parentAsAlias = some next ∧
        (middle.findContextRecords "owner" false
          (.key (some ContextKind.custom) "maps")).length = 0 ∧
        middle.contexts.contains ⟨2⟩ = false ∧
        (∃ row, next.contexts.find? ⟨2⟩ = some row ∧ row.normalizedKey = "maps" ∧
          row.context.kind = ContextKind.custom ∧ row.context.ownerPrincipal = "owner") ∧
        (∃ other, next.contexts.find? ⟨1⟩ = some other ∧
          other.context.kind = ContextKind.custom ∧ other.context.ownerPrincipal = "owner") ∧
        next.contextAliases.contains (⟨1⟩, "maps") = true :=
    ⟨_, _, rfl, rfl, rfl, rfl, ⟨_, rfl, rfl, rfl, rfl⟩, ⟨_, rfl, rfl, rfl⟩, rfl⟩
  obtain ⟨middle, next, reached, stepEq, unheld, absent, ⟨row, found, key, kind, owner⟩,
    ⟨other, otherFound, otherKind, otherOwner⟩, aliased⟩ := ran
  refine ⟨fun entry absent => absurd absent List.not_mem_nil, middle, next, reached, stepEq, unheld,
    fun distinct => ?_⟩
  obtain ⟨rowMem, named⟩ := Table.find?_eq_some_iff.mp found
  obtain ⟨otherMem, otherNamed⟩ := Table.find?_eq_some_iff.mp otherFound
  obtain ⟨entry, entryMem, entryEq⟩ := Table.contains_eq_true_iff.mp aliased
  refine distinct.distinct row rowMem (by rw [named]; exact absent) other otherMem ?_
    (otherKind.trans kind.symm) ?_ (Or.inr ⟨entry, entryMem, ?_, ?_⟩)
  · rw [otherNamed, named]
    decide
  · rw [Db.contextVisible, otherOwner, owner, beq_self_eq_true, Bool.true_or]
  · rw [otherNamed]
    exact (Prod.mk.inj entryEq).1
  · rw [key]
    exact (Prod.mk.inj entryEq).2

omit [Host] in
/-- A scope with an alias, and a project whose key another scope takes as an alias. -/
def harborRegistered : List StoreCall :=
  let kindAudit : ContextAuditDraft := ⟨operatorPrincipal, "context_kind_upsert", none, none, none⟩
  let audit : ContextAuditDraft := ⟨"owner", "context_create", none, none, none⟩
  [.registerScope (fun n => ⟨n + 11⟩) ⟨"harbor", "Harbor", none, ["port"], [], none, []⟩ "owner",
    .upsertContextKind ContextKind.project "Project" true operatorPrincipal kindAudit,
    .createContext (projectDraft ⟨8⟩ "maps") audit].map fun command => ⟨⟨3, none⟩, 0, command⟩

omit [Host] in
/-- The scope `atlas` with an alias of its own, below the first scope. -/
def atlasBelowHarbor : StoreCall :=
  ⟨⟨3, none⟩, 0, .registerScope (fun n => ⟨n + 1⟩)
    ⟨"atlas", "Atlas", none, ["maps"], [], some "harbor", []⟩ "owner"⟩

/-- A scope may take aliases that no context answers. -/
theorem aliasesUnanswered_of_free {db : Db} {principal : String} {scope : ScopeDefinition}
    (apart : ∀ entry ∈ normalizedSurfaces scope.aliases, ∀ parent, scope.parent = some parent →
      normalizeContextKey parent ≠ entry.2)
    (free : ∀ entry ∈ normalizedSurfaces scope.aliases,
      db.exactKeyOrAlias principal ContextKind.custom entry.2 = false) :
    db.AliasesUnanswered principal scope := by
  intro entry entryMem
  refine ⟨apart entry entryMem, fun row rowMem kind visible held => ?_⟩
  have answered : db.exactKeyOrAlias principal ContextKind.custom entry.2 = true :=
    Db.exactKeyOrAlias_eq_true_iff.mpr
      ⟨row.context.id, row, rowMem, rfl, kind, visible, Or.inl rfl, held⟩
  rw [free entry entryMem] at answered
  cases answered

omit [Host] in
theorem exact_locators_stay_distinct_atlas :
    ∃ middle next,
      @run _ _ (@storeStep asciiHost) (Db.empty 3) (customDisabled.take 1 ++ harborRegistered) =
        some middle ∧ @storeStep asciiHost middle atlasBelowHarbor = some next ∧
      middle.contextAliases.contains (⟨11⟩, "port") = true ∧
      next.contextAliases.contains (⟨1⟩, "maps") = true ∧
      next.contexts.rows.map (·.context.id) = [⟨11⟩, ⟨8⟩, ⟨1⟩] ∧ LocatorsDistinct middle next := by
  have ran : ∃ first middle next,
      @run _ _ (@storeStep asciiHost) (Db.empty 3) (customDisabled.take 1) = some first ∧
      @run _ _ (@storeStep asciiHost) first harborRegistered = some middle ∧
      @storeStep asciiHost middle atlasBelowHarbor = some next ∧
      middle.contextAliases.contains (⟨11⟩, "port") = true ∧
      next.contextAliases.contains (⟨1⟩, "maps") = true ∧
      next.contexts.rows.map (·.context.id) = [⟨11⟩, ⟨8⟩, ⟨1⟩] ∧
      (∀ entry ∈ @normalizedSurfaces asciiHost ["port"],
        first.exactKeyOrAlias "owner" ContextKind.custom entry.2 = false) ∧
      (∀ entry ∈ @normalizedSurfaces asciiHost ["maps"],
        middle.exactKeyOrAlias "owner" ContextKind.custom entry.2 = false) := by
    refine ⟨_, _, _, rfl, rfl, rfl, rfl, rfl, rfl, ?_, ?_⟩ <;> decide +kernel
  obtain ⟨first, middle, next, firstRun, laterRun, stepEq, ported, mapped, created, portFree,
    mapsFree⟩ := ran
  have reached := run_append_eq_some_iff.mpr ⟨first, firstRun, laterRun⟩
  refine ⟨middle, next, reached, stepEq, ported, mapped, created, ?_⟩
  have anchored : (Db.empty 3).AliasesAnchored := fun entry absent => absurd absent List.not_mem_nil
  obtain ⟨_, enables, same⟩ := run_cons_eq_some_iff.mp firstRun
  cases same
  obtain ⟨second, registers, restRun⟩ := run_cons_eq_some_iff.mp laterRun
  have portUnanswered := @aliasesUnanswered_of_free asciiHost first "owner"
    ⟨"harbor", "Harbor", none, ["port"], [], none, []⟩ (fun _ _ => nofun) portFree
  have mapsUnanswered := @aliasesUnanswered_of_free asciiHost middle "owner"
    ⟨"atlas", "Atlas", none, ["maps"], [], some "harbor", []⟩ (by decide +kernel) mapsFree
  have harmless : ∀ call ∈ harborRegistered.drop 1, ∀ db,
      @StoreCommand.AvoidsCollisions asciiHost db call.command := by
    intro call callMem db
    fin_cases callMem
    · trivial
    · exact List.forall_mem_nil _
  refine @exact_locators_stay_distinct asciiHost (Db.empty 3) middle next
    (customDisabled.take 1 ++ harborRegistered) [] atlasBelowHarbor anchored ?_ reached stepEq
  refine Guarded.cons trivial enables (Guarded.cons (Or.inr portUnanswered) registers ?_)
  exact Guarded.concat harmless restRun (Or.inr mapsUnanswered)

end LocalHold
