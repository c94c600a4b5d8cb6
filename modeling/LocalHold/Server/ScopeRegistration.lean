import LocalHold.Server.ImplicitContexts
import LocalHold.Server.ReservedKey
import LocalHold.Store.LegacyAdapter
import Mathlib.Data.List.Forall2
import Mathlib.Data.Option.Basic

/-!
# Registering a legacy scope twice

A registration creates the contexts of its keys or takes the ones that the
principal owns, and rewrites the parent link, the aliases, the hints and the
related scopes of the first.  A second registration of the same definition finds
every context it needs and writes the same rows again.  The exception is a
definition without a description: a context that the registration creates gets a
default description, a context that it finds gets none.
-/

namespace LocalHold

open Relational Hierarchy Transition Transition.Txn

/-! ## Tables up to timestamps -/

/-- What an insertion loop adds to a table. -/
structure InsertsInto {κ ρ : Type} {key : ρ → κ} [DecidableEq κ] (get : Db → Table key)
    (put : Db → Table key → Db) (admits : Db → ρ → Prop) (body : ρ → StoreM Unit) : Prop where
  inserts : ∀ row db next, body row db = .ok ((), next) ↔
    admits db row ∧ ∃ table, (get db).insert? row = some table ∧ next = put db table
  get_put : ∀ db table, get (put db table) = table
  put_get : ∀ db, put db (get db) = db
  put_put : ∀ db first second, put (put db first) second = put db second
  admits_put : ∀ db table row, admits (put db table) row ↔ admits db row

/-- An insertion loop appends its rows. -/
theorem InsertsInto.forM_eq_ok_iff {κ ρ : Type} {key : ρ → κ} [DecidableEq κ]
    {get : Db → Table key} {put : Db → Table key → Db} {admits : Db → ρ → Prop}
    {body : ρ → StoreM Unit} (into : InsertsInto get put admits body) {rows : List ρ}
    {db next : Db} : rows.forM body db = .ok ((), next) ↔
      (∀ row ∈ rows, admits db row) ∧
        ∃ table, table.rows = (get db).rows ++ rows ∧ next = put db table := by
  induction rows generalizing db with
  | nil =>
      rw [List.forM_eq_forM, List.forM_nil, pure_eq_ok]
      constructor
      · intro same
        refine ⟨by simp, get db, by simp, ?_⟩
        rw [into.put_get]
        exact (Prod.mk.inj same).2.symm
      · rintro ⟨_, table, rowsEq, rfl⟩
        have same : table = get db := by
          ext1
          rw [rowsEq, List.append_nil]
        rw [same, into.put_get]
  | cons row rest inductionHypothesis =>
      rw [List.forM_eq_forM, List.forM_cons, bind_eq_ok]
      constructor
      · rintro ⟨_, middle, rowRan, restRan⟩
        obtain ⟨admitted, table, inserted, rfl⟩ := (into.inserts row db middle).mp rowRan
        obtain ⟨restAdmitted, final, finalRows, rfl⟩ := inductionHypothesis.mp restRan
        refine ⟨?_, final, ?_, into.put_put _ _ _⟩
        · intro other otherMem
          rcases List.mem_cons.mp otherMem with rfl | later
          · exact admitted
          · exact (into.admits_put _ _ _).mp (restAdmitted other later)
        · rw [finalRows, into.get_put, (Table.insert?_eq_some_iff.mp inserted).2,
            List.append_assoc, List.singleton_append]
      · rintro ⟨admitted, final, finalRows, rfl⟩
        have distinct := final.nodup
        rw [finalRows, List.map_append, List.map_cons, List.nodup_append] at distinct
        have absent : (get db).contains (key row) = false := by
          refine Table.contains_eq_false_iff.mpr fun other otherMem same => ?_
          exact distinct.2.2 _ (List.mem_map_of_mem otherMem) _ List.mem_cons_self same
        obtain ⟨table, inserted⟩ : ∃ table, (get db).insert? row = some table := by
          unfold Table.insert?
          rw [dif_pos absent]
          exact ⟨_, rfl⟩
        refine ⟨(), put db table, (into.inserts row db _).mpr
          ⟨admitted row List.mem_cons_self, table, inserted, rfl⟩, ?_⟩
        refine inductionHypothesis.mpr ⟨?_, final, ?_, (into.put_put _ _ _).symm⟩
        · intro other otherMem
          exact (into.admits_put _ _ _).mpr (admitted other (List.mem_cons_of_mem _ otherMem))
        · rw [finalRows, into.get_put, (Table.insert?_eq_some_iff.mp inserted).2,
            List.append_assoc, List.singleton_append]

/-- Check the parent of a row, insert the row and store the table. -/
theorem InsertsInto.of_checked {κ ρ : Type} {key : ρ → κ} [DecidableEq κ]
    {get : Db → Table key} {put : Db → Table key → Db} {admits : Db → ρ → Bool}
    {foreign unique : StoreError} (get_put : ∀ db table, get (put db table) = table)
    (put_get : ∀ db, put db (get db) = db)
    (put_put : ∀ db first second, put (put db first) second = put db second)
    (admits_put : ∀ db table row, admits (put db table) row = admits db row) :
    InsertsInto get put (fun db row => admits db row = true) fun row => do
      let parent ← reads fun db => admits db row
      require parent foreign
      let next ← reads fun db => (get db).insert? row
      let table ← expect next unique
      writes fun db => put db table where
  inserts row db next := by
    constructor
    · intro ran
      have ran := of_reads_bind ran
      obtain ⟨admitted, ran⟩ := of_require_bind ran
      have ran := of_reads_bind ran
      obtain ⟨table, inserted, written⟩ := of_expect_bind ran
      cases writes_eq_ok.mp written
      exact ⟨admitted, table, inserted, rfl⟩
    · rintro ⟨admitted, table, inserted, rfl⟩
      refine bind_eq_ok.mpr ⟨_, db, rfl, (require_bind_of_holds admitted).trans ?_⟩
      exact bind_eq_ok.mpr ⟨_, db, rfl, bind_eq_ok.mpr
        ⟨table, db, expect_eq_ok.mpr ⟨table, inserted, rfl⟩, rfl⟩⟩
  get_put := get_put
  put_get := put_get
  put_put := put_put
  admits_put db table row := by rw [admits_put]

theorem insertsInto_insertAliasRow :
    InsertsInto Db.contextAliases (fun db table => { db with contextAliases := table })
      (fun db row => db.contexts.contains row.contextId = true) insertAliasRow :=
  .of_checked (fun _ _ => rfl) (fun _ => rfl) (fun _ _ _ => rfl) fun _ _ _ => rfl

theorem insertsInto_insertHintRow :
    InsertsInto Db.contextHints (fun db table => { db with contextHints := table })
      (fun db row => db.contexts.contains row.contextId = true) insertHintRow :=
  .of_checked (fun _ _ => rfl) (fun _ => rfl) (fun _ _ _ => rfl) fun _ _ _ => rfl

section Refill

variable {κ ρ α β : Type} {key : ρ → κ} [DecidableEq κ] {get : Db → Table key}
  {put : Db → Table key → Db} {admits : Db → ρ → Prop} {body : ρ → StoreM Unit}
  {drop : ρ → Bool} {items : List α} {db : Db}

/-- Some rows are deleted and others are appended. -/
theorem InsertsInto.of_refill (into : InsertsInto get put admits body) (rowOf : α → ρ)
    {rest : StoreM β} {result : β × Db} (ran : (do
      writes fun db => put db ((get db).deleteWhere drop)
      items.forM fun item => body (rowOf item)
      rest) db = .ok result) :
    ∃ table, table.rows = (get db).rows.filter (fun row => !drop row) ++ items.map rowOf ∧
      rest (put db table) = .ok result := by
  obtain ⟨_, _, deleted, ran⟩ := bind_eq_ok.mp ran
  cases writes_eq_ok.mp deleted
  obtain ⟨_, filled, inserted, ran⟩ := bind_eq_ok.mp ran
  rw [List.forM_eq_forM, ← List.forM_map, ← List.forM_eq_forM] at inserted
  obtain ⟨_, table, rows, rfl⟩ := into.forM_eq_ok_iff.mp inserted
  rw [into.get_put] at rows
  rw [into.put_put] at ran
  exact ⟨table, rows, ran⟩

/-- Rows with the keys of deleted ones can be appended. -/
theorem InsertsInto.refill (into : InsertsInto get put admits body) (rowOf : α → ρ)
    {others rows : List ρ} (filled : (get db).rows = others ++ rows)
    (stay : ∀ row ∈ others, drop row = false) (go : ∀ row ∈ rows, drop row = true)
    (sameKeys : (items.map rowOf).map key = rows.map key)
    (admitted : ∀ item ∈ items, admits db (rowOf item)) :
    ∃ table, table.rows = others ++ items.map rowOf ∧ ∀ rest : StoreM β, (do
      writes fun db => put db ((get db).deleteWhere drop)
      items.forM fun item => body (rowOf item)
      rest) db = rest (put db table) := by
  have distinct : ((others ++ items.map rowOf).map key).Nodup := by
    have before := (get db).nodup
    rw [filled, List.map_append] at before
    rw [List.map_append, sameKeys]
    exact before
  have emptied : ((get db).deleteWhere drop).rows = others := by
    refine (congrArg (List.filter fun row => !drop row) filled).trans ?_
    rw [List.filter_append, List.filter_eq_self.mpr, List.filter_eq_nil_iff.mpr, List.append_nil]
    · intro row rowMem
      rw [go row rowMem]
      simp
    · intro row rowMem
      rw [stay row rowMem]
      rfl
  refine ⟨⟨others ++ items.map rowOf, distinct⟩, rfl, fun rest => ?_⟩
  refine (bind_of_ok rfl).trans (@bind_of_ok _ _ _ _ _ _ _ _ () ?_)
  rw [List.forM_eq_forM, ← List.forM_map, ← List.forM_eq_forM]
  refine into.forM_eq_ok_iff.mpr ⟨?_, _, ?_, (into.put_put _ _ _).symm⟩
  · intro row rowMem
    obtain ⟨item, itemMem, rfl⟩ := List.mem_map.mp rowMem
    exact (into.admits_put _ _ _).mpr (admitted item itemMem)
  · rw [into.get_put, emptied]

end Refill

/-! ## The context of a key -/

/-- What lookups of the adapter read of a context. -/
def Db.adapterRows (db : Db) :=
  db.contexts.rows.map fun row =>
    ((row.context.ownerPrincipal, row.normalizedKey, row.context.kind),
      (row.context.id, row.context.frozen, row.context.lifecycle))

/-- Contexts are added behind those that the adapter finds. -/
def GrowsAdapters (db next : Db) : Prop :=
  db.adapterRows <+: next.adapterRows

theorem GrowsAdapters.of_contexts {db next : Db} (same : next.contexts = db.contexts) :
    GrowsAdapters db next := by
  have sameRows : next.adapterRows = db.adapterRows := by rw [Db.adapterRows, Db.adapterRows, same]
  exact ⟨[], (List.append_nil _).trans sameRows.symm⟩

variable [Host]

/-- The principal owns a mutable active custom context under a usable key. -/
structure Db.HoldsScope (db : Db) (principal key : String) (id : ContextId) : Prop where
  named : (normalizeContextKey key != "" && normalizeContextKey key != unresolvedContextKey) = true
  owned : (db.ownedCustomContext principal (normalizeContextKey key)).map (fun context =>
    (context.id, context.frozen, context.lifecycle)) = some (id, false, .active)

omit [Host] in
theorem Db.map_ownedCustomContext (db : Db) (principal normalized : String) :
    (db.ownedCustomContext principal normalized).map (fun context =>
      (context.id, context.frozen, context.lifecycle)) =
    (db.adapterRows.find? fun row =>
      row.1.1 == principal && row.1.2.1 == normalized && row.1.2.2 == ContextKind.custom).map
        (·.2) := by
  rw [Db.ownedCustomContext, Db.adapterRows, List.find?_map, Option.map_map, Option.map_map]
  rfl

/-- A held key stays held. -/
theorem Db.HoldsScope.grow {db next : Db} {principal key : String} {id : ContextId}
    (held : db.HoldsScope principal key id) (grown : GrowsAdapters db next) :
    next.HoldsScope principal key id := by
  obtain ⟨added, rows⟩ := grown
  refine ⟨held.named, ?_⟩
  have owned := held.owned
  rw [Db.map_ownedCustomContext] at owned ⊢
  rw [← rows, List.find?_append]
  obtain ⟨row, found, values⟩ := Option.map_eq_some_iff.mp owned
  rw [found, Option.some_or, Option.map_some, values]

/-- A key is held by one context. -/
theorem Db.HoldsScope.unique {db : Db} {principal key : String} {first second : ContextId}
    (left : db.HoldsScope principal key first) (right : db.HoldsScope principal key second) :
    first = second := by
  have same := left.owned.symm.trans right.owned
  simpa using same

/-- The row of a held key. -/
theorem Db.HoldsScope.exists_row {db : Db} {principal key : String} {id : ContextId}
    (held : db.HoldsScope principal key id) : ∃ row, db.contexts.find? id = some row ∧
      row.normalizedKey = normalizeContextKey key ∧ row.context.ownerPrincipal = principal ∧
      row.context.kind = ContextKind.custom ∧ row.context.frozen = false ∧
      row.context.lifecycle = .active := by
  obtain ⟨context, owned, values⟩ := Option.map_eq_some_iff.mp held.owned
  simp only [Prod.mk.injEq] at values
  obtain ⟨row, rowMem, rfl, key, owner, kind⟩ := Db.ownedCustomContext_spec owned
  refine ⟨row, ?_, key, owner, kind, values.2.1, values.2.2⟩
  rw [← values.1]
  exact Table.mem_iff_find?.mp rowMem

omit [Host] in
theorem growsAdapters_updateContext {id : ContextId}
    {change : ContextDefinition → ContextDefinition}
    {keepsId : ∀ context, (change context).id = context.id}
    (sameOwner : ∀ context, (change context).ownerPrincipal = context.ownerPrincipal)
    (sameKind : ∀ context, (change context).kind = context.kind)
    (sameFrozen : ∀ context, (change context).frozen = context.frozen)
    (sameLifecycle : ∀ context, (change context).lifecycle = context.lifecycle) {db : Db} :
    GrowsAdapters db { db with
      contexts := db.contexts.update id (fun row => { row with context := change row.context })
        fun row => keepsId row.context } := by
  have same : ({ db with
      contexts := db.contexts.update id (fun row => { row with context := change row.context })
        fun row => keepsId row.context } : Db).adapterRows = db.adapterRows := by
    simp only [Db.adapterRows, Table.update, Table.updateWhere, List.map_map]
    apply List.map_congr_left
    intro row _
    simp only [Function.comp_apply]
    split
    · rw [sameOwner, sameKind, sameFrozen, sameLifecycle, keepsId]
    · rfl
  exact ⟨[], (List.append_nil _).trans same.symm⟩

omit [Host] in
theorem Db.growsAdapters_describe {db : Db} {id : ContextId}
    {displayName description : Option String} {now : Instant} :
    GrowsAdapters db (db.describe id displayName description now) := by
  cases displayName with
  | none => exact List.prefix_rfl
  | some name =>
      exact @growsAdapters_updateContext id (fun context => { context with
        displayName := name, description := description, updatedAt := now }) (fun _ => rfl)
          (fun _ => rfl) (fun _ => rfl) (fun _ => rfl) (fun _ => rfl) db

/-- The description that a registration leaves at the context of a key. -/
def Db.describedAs (db : Db) (principal key : String) (description : Option String) :
    Option String :=
  if (db.ownedCustomContext principal (normalizeContextKey key)).isSome then description
  else description.or (some privateCompatibilityDescription)

/-- What `ensure_private_legacy_scope_context` leaves of the other tables. -/
def Db.withoutContexts (db : Db) :=
  (db.contextAliases, db.contextHints, db.contextRelations)

/-- The context of a key is held afterwards. -/
theorem holdsScope_of_ensure {newId id : ContextId} {key principal : String}
    {displayName description : Option String} {now : Instant} {db next : Db}
    (ran : ensurePrivateLegacyScopeContext newId key displayName description principal now db =
      .ok (id, next)) :
    next.HoldsScope principal key id ∧ GrowsAdapters db next ∧
      next.withoutContexts = db.withoutContexts := by
  obtain ⟨named, ⟨existing, owned, thawed, active, rfl, rfl⟩ |
    ⟨unowned, _, rfl, contexts, inserted, written⟩⟩ := ensurePrivateLegacyScopeContext_cases ran
  · have held : db.HoldsScope principal key existing.id := by
      refine ⟨named, ?_⟩
      rw [owned, Option.map_some, thawed, active]
    refine ⟨held.grow Db.growsAdapters_describe, Db.growsAdapters_describe, ?_⟩
    cases displayName <;> rfl
  · have rows := (Table.insert?_eq_some_iff.mp inserted).2
    have grown : next.adapterRows = db.adapterRows ++
        [((principal, normalizeContextKey key, ContextKind.custom), (id, false, .active))] := by
      rw [written]
      simp only [Db.adapterRows, rows, List.map_append]
      rfl
    refine ⟨⟨named, ?_⟩, ⟨_, grown.symm⟩, ?_⟩
    · have missing := db.map_ownedCustomContext principal (normalizeContextKey key)
      rw [unowned, Option.map_none] at missing
      have absent := Option.map_eq_none_iff.mp missing.symm
      rw [Db.map_ownedCustomContext, grown, List.find?_append, absent, Option.none_or]
      simp
    · rw [written]
      rfl

/-- A held key is found again. -/
theorem ensure_of_holdsScope {newId id : ContextId} {key principal : String}
    {displayName description : Option String} {now : Instant} {db : Db}
    (held : db.HoldsScope principal key id) :
    ensurePrivateLegacyScopeContext newId key displayName description principal now db =
      .ok (id, db.describe id displayName description now) := by
  obtain ⟨context, owned, values⟩ := Option.map_eq_some_iff.mp held.owned
  simp only [Prod.mk.injEq] at values
  obtain ⟨rfl, thawed, active⟩ := values
  unfold ensurePrivateLegacyScopeContext
  refine (require_bind_of_holds held.named).trans ?_
  refine bind_eq_ok.mpr ⟨_, db, rfl, ?_⟩
  dsimp only
  rw [owned]
  refine (require_bind_of_holds (by rw [thawed]; rfl)).trans ?_
  refine (require_bind_of_holds (by rw [active]; rfl)).trans ?_
  cases displayName with
  | none => rfl
  | some name => rfl

omit [Host] in
/-- Every context stays as it is. -/
def KeepsRows (db next : Db) : Prop :=
  ∀ id row, db.contexts.find? id = some row → next.contexts.find? id = some row

/-- Finding a key without a stated name rewrites no context. -/
theorem keepsRows_ensure {newId id : ContextId} {key principal : String}
    {description : Option String} {now : Instant} {db next : Db}
    (ran : ensurePrivateLegacyScopeContext newId key none description principal now db =
      .ok (id, next)) : KeepsRows db next := by
  intro other row found
  obtain ⟨_, ⟨_, _, _, _, _, rfl⟩ | ⟨_, _, _, contexts, inserted, written⟩⟩ :=
    ensurePrivateLegacyScopeContext_cases ran
  · exact found
  · have absent := (Table.insert?_eq_some_iff.mp inserted).1
    rw [written, Table.find?_insert? inserted]
    split
    · rename_i here
      rw [here] at found
      rw [Table.contains, found] at absent
      cases absent
    · exact found

omit [Host] in
theorem Db.find?_describe {db : Db} {id : ContextId} {row : ContextRow} {name : String}
    {description : Option String} {now : Instant} (found : db.contexts.find? id = some row) :
    (db.describe id (some name) description now).contexts.find? id =
      some { row with
        context := { row.context with
          displayName := name, description := description, updatedAt := now } } := by
  rw [Db.describe, Table.find?_update, if_pos rfl, found]
  rfl

/-- Finding a key with a stated name describes its context. -/
theorem described_ensure {newId id : ContextId} {key principal name : String}
    {description : Option String} {now : Instant} {db next : Db}
    (ran : ensurePrivateLegacyScopeContext newId key (some name) description principal now db =
      .ok (id, next)) :
    ∃ row, next.contexts.find? id = some row ∧ row.context.displayName = name ∧
      row.context.description = db.describedAs principal key description := by
  obtain ⟨_, ⟨existing, owned, _, _, rfl, rfl⟩ | ⟨unowned, _, rfl, contexts, inserted, written⟩⟩ :=
    ensurePrivateLegacyScopeContext_cases ran
  · obtain ⟨row, rowMem, rfl, _⟩ := Db.ownedCustomContext_spec owned
    refine ⟨_, Db.find?_describe (Table.mem_iff_find?.mp rowMem), rfl, ?_⟩
    rw [Db.describedAs, owned]
    rfl
  · refine ⟨adapterRowOf id key (some name) description principal now, ?_, rfl, ?_⟩
    · rw [written, Table.find?_insert? inserted]
      exact if_pos rfl
    · rw [Db.describedAs, unowned]
      rfl

/-! ## The parent -/

omit [Host] in
/-- Link a context to its parent. -/
def Db.hang (db : Db) (id : ContextId) (parentId : Option ContextId) (now : Instant) : Db :=
  { db with
    contexts := db.contexts.update id fun row =>
      { row with context := { row.context with parentId := parentId, updatedAt := now } } }

omit [Host] in
theorem Db.growsAdapters_hang {db : Db} {id : ContextId} {parentId : Option ContextId}
    {now : Instant} : GrowsAdapters db (db.hang id parentId now) :=
  @growsAdapters_updateContext id (fun context => { context with
    parentId := parentId, updatedAt := now }) (fun _ => rfl) (fun _ => rfl) (fun _ => rfl)
      (fun _ => rfl) (fun _ => rfl) db

omit [Host] in
theorem Db.find?_hang {db : Db} {id : ContextId} {row : ContextRow} {parentId : Option ContextId}
    {now : Instant} (found : db.contexts.find? id = some row) :
    (db.hang id parentId now).contexts.find? id =
      some { row with context := { row.context with parentId := parentId, updatedAt := now } } := by
  rw [Db.hang, Table.find?_update, if_pos rfl, found]
  rfl

/-- A registration links its context to the context of the parent key. -/
theorem registerScopeParent_registered {newId contextId : ContextId} {scope : ScopeDefinition}
    {principal : String} {now : Instant} {db next : Db}
    (ran : registerScopeParent newId contextId scope principal now db = .ok ((), next)) :
    ∃ parentId middle, next = middle.hang contextId parentId now ∧ KeepsRows db middle ∧
      GrowsAdapters db middle ∧ middle.withoutContexts = db.withoutContexts ∧
      Option.Rel (middle.HoldsScope principal) scope.parent parentId ∧
      parentId ≠ some contextId := by
  unfold registerScopeParent at ran
  cases stated : scope.parent with
  | none =>
      rw [stated] at ran
      obtain ⟨_, _, updateRan, done⟩ := bind_eq_ok.mp ran
      cases pure_eq_ok.mp done
      have updateRan := of_reads_bind updateRan
      obtain ⟨_, _, written, done⟩ := bind_eq_ok.mp updateRan
      cases writes_eq_ok.mp written
      cases pure_eq_ok.mp done
      exact ⟨none, db, rfl, fun _ _ found => found, List.prefix_rfl, rfl, .none, nofun⟩
  | some key =>
      rw [stated] at ran
      obtain ⟨parentId, middle, ensured, ran⟩ := bind_eq_ok.mp ran
      obtain ⟨distinct, ran⟩ := of_require_bind ran
      have ran := of_reads_bind ran
      obtain ⟨_, ran⟩ := of_require_bind ran
      obtain ⟨_, _, updateRan, done⟩ := bind_eq_ok.mp ran
      cases pure_eq_ok.mp done
      have updateRan := of_reads_bind updateRan
      obtain ⟨_, _, written, done⟩ := bind_eq_ok.mp updateRan
      cases writes_eq_ok.mp written
      cases pure_eq_ok.mp done
      obtain ⟨held, grown, others⟩ := holdsScope_of_ensure ensured
      refine ⟨some parentId, middle, rfl, keepsRows_ensure ensured, grown, others, .some held, ?_⟩
      intro same
      rw [Option.some.inj same] at distinct
      simp at distinct

/-- With its parent key held, a registration links its context again. -/
theorem registerScopeParent_of_holds {newId contextId : ContextId} {scope : ScopeDefinition}
    {principal : String} {now : Instant} {db : Db} {parentId : Option ContextId}
    (parents : Option.Rel (db.HoldsScope principal) scope.parent parentId)
    (distinct : parentId ≠ some contextId)
    (passes : ∀ parent, parentId = some parent → db.wouldCloseCycle contextId parent = false) :
    registerScopeParent newId contextId scope principal now db =
      .ok ((), db.hang contextId parentId now) := by
  unfold registerScopeParent
  cases stated : scope.parent with
  | none =>
      rw [stated] at parents
      cases parents
      rfl
  | some key =>
      rw [stated] at parents
      cases parents with
      | some held =>
          rename_i parent
          refine bind_eq_ok.mpr ⟨parent, db, ensure_of_holdsScope held, ?_⟩
          have apart : (parent != contextId) = true := by
            rw [bne_iff_ne]
            rintro rfl
            exact distinct rfl
          refine (require_bind_of_holds apart).trans ?_
          refine bind_eq_ok.mpr ⟨_, db, rfl, ?_⟩
          refine (require_bind_of_holds ?_).trans rfl
          exact (Bool.not_eq_true' _).mpr (passes parent rfl)

omit [Host] in
/-- The cycle query finds the start and what lies above it. -/
theorem Db.eq_or_above_of_mem_ancestorIds {db : Db} {node : ContextId} :
    ∀ {fuel : Nat} {start : ContextId}, node ∈ db.ancestorIds fuel start →
      node = start ∨ Above db.contextParent node start := by
  intro fuel
  induction fuel with
  | zero =>
      intro start member
      exact absurd member List.not_mem_nil
  | succ fuel inductionHypothesis =>
      intro start member
      rw [Db.ancestorIds] at member
      split at member
      · rcases List.mem_cons.mp member with here | above
        · exact Or.inl here
        · right
          cases linked : db.contextParent start with
          | none =>
              rw [linked] at above
              exact absurd above List.not_mem_nil
          | some up =>
              rw [linked] at above
              exact (above_iff_of_parent linked).mpr (inductionHypothesis above)
      · exact absurd member List.not_mem_nil

omit [Host] in
/-- A link that is there passes the cycle query. -/
theorem Db.Hierarchical.wouldCloseCycle_eq_false {db : Db} (hierarchical : db.Hierarchical)
    {id parent : ContextId} (linked : db.contextParent id = some parent) :
    db.wouldCloseCycle id parent = false := by
  rw [Db.wouldCloseCycle, List.contains_eq_mem, decide_eq_false_iff_not]
  intro member
  rcases Db.eq_or_above_of_mem_ancestorIds member with rfl | above
  · exact hierarchical.acyclic _ (Above.of_parent linked)
  · exact hierarchical.acyclic _ (above.trans (Above.of_parent linked))

/-! ## The related scopes -/

/-- The relation to a related scope. -/
def relationTo (contextId : ContextId) (now : Instant) (relatedId : ContextId) : RelationRow :=
  ⟨contextId, relatedId, "legacy_related", now⟩

/-- A related scope is related once, and no scope to itself. -/
def addRelated (contextId : ContextId) (ids : List ContextId) (id : ContextId) : List ContextId :=
  if id = contextId ∨ id ∈ ids then ids else ids ++ [id]

/-- Relations of other contexts, or of another kind. -/
def RelatesElsewhere (contextId : ContextId) (row : RelationRow) : Prop :=
  ¬(row.fromContextId = contextId ∧ row.relation = "legacy_related")

omit [Host] in
/-- A relation that is there is ignored, another one is appended. -/
theorem rows_insertOrIgnore_relationTo {db : Db} {contextId id : ContextId} {now : Instant}
    {kept : List RelationRow} {ids : List ContextId}
    (rows : db.contextRelations.rows = kept ++ ids.map (relationTo contextId now))
    (apart : ∀ row ∈ kept, RelatesElsewhere contextId row) (different : id ≠ contextId) :
    (db.contextRelations.insertOrIgnore (relationTo contextId now id)).rows =
      kept ++ (addRelated contextId ids id).map (relationTo contextId now) := by
  have present : db.contextRelations.contains (contextId, id, "legacy_related") = true ↔
      id ∈ ids := by
    rw [Table.contains_eq_true_iff]
    constructor
    · rintro ⟨row, rowMem, same⟩
      simp only [Prod.mk.injEq] at same
      rw [Table.mem_def, rows] at rowMem
      rcases List.mem_append.mp rowMem with inKept | related
      · exact absurd ⟨same.1, same.2.2⟩ (apart row inKept)
      · obtain ⟨other, otherMem, rfl⟩ := List.mem_map.mp related
        rw [← same.2.1]
        exact otherMem
    · intro idMem
      refine ⟨relationTo contextId now id, ?_, rfl⟩
      rw [Table.mem_def, rows]
      exact List.mem_append_right _ (List.mem_map_of_mem idMem)
  rw [addRelated]
  rcases Table.insertOrIgnore_cases db.contextRelations (relationTo contextId now id) with
    inserted | ⟨here, unchanged⟩
  · obtain ⟨absent, appended⟩ := Table.insert?_eq_some_iff.mp inserted
    have fresh : id ∉ ids := by
      intro idMem
      cases absent.symm.trans (present.mpr idMem)
    rw [if_neg (by simp [different, fresh]), appended, rows, List.map_append, List.append_assoc]
    rfl
  · rw [if_pos (Or.inr (present.mp here)), unchanged, rows]

/-- What registering related scopes leaves and adds. -/
structure RelatesScopes (contextId : ContextId) (now : Instant) (relatedIds : List ContextId)
    (db next : Db) : Prop where
  kept : KeepsRows db next
  grown : GrowsAdapters db next
  aliases : next.contextAliases = db.contextAliases
  hints : next.contextHints = db.contextHints
  rows : ∀ elsewhere ids,
    db.contextRelations.rows = elsewhere ++ ids.map (relationTo contextId now) →
    (∀ row ∈ elsewhere, RelatesElsewhere contextId row) →
    next.contextRelations.rows =
      elsewhere ++ (relatedIds.foldl (addRelated contextId) ids).map (relationTo contextId now)

/-- One related key. -/
theorem registerRelatedScope_registered {newId contextId : ContextId} {key principal : String}
    {now : Instant} {db next : Db}
    (ran : registerRelatedScope newId contextId key principal now db = .ok ((), next)) :
    ∃ id, next.HoldsScope principal key id ∧ RelatesScopes contextId now [id] db next := by
  obtain ⟨id, middle, ensured, ran⟩ := bind_eq_ok.mp ran
  obtain ⟨held, grown, others⟩ := holdsScope_of_ensure ensured
  simp only [Db.withoutContexts, Prod.mk.injEq] at others
  obtain ⟨aliases, hints, relations⟩ := others
  have kept := keepsRows_ensure ensured
  by_cases itself : id = contextId
  · rw [if_pos itself] at ran
    cases pure_eq_ok.mp ran
    refine ⟨id, held, kept, grown, aliases, hints, ?_⟩
    intro elsewhere ids rows _
    rw [List.foldl_cons, List.foldl_nil, addRelated, if_pos (Or.inl itself), relations, rows]
  · rw [if_neg itself] at ran
    cases writes_eq_ok.mp ran
    refine ⟨id, held.grow (GrowsAdapters.of_contexts rfl), kept, grown, aliases, hints, ?_⟩
    intro elsewhere ids rows apart
    rw [← relations] at rows
    exact rows_insertOrIgnore_relationTo rows apart itself

/-- All related keys, one after the other. -/
theorem registered_related {newId : Nat → ContextId} {contextId : ContextId} {principal : String}
    {now : Instant} {entries : List (String × Nat)} {db next : Db}
    (ran : entries.forM (fun entry =>
      registerRelatedScope (newId (entry.2 + 2)) contextId entry.1 principal now) db =
        .ok ((), next)) :
    ∃ relatedIds, List.Forall₂ (next.HoldsScope principal) (entries.map Prod.fst) relatedIds ∧
      RelatesScopes contextId now relatedIds db next := by
  induction entries generalizing db with
  | nil =>
      cases pure_eq_ok.mp ran
      exact ⟨[], .nil, fun _ _ found => found, List.prefix_rfl, rfl, rfl, fun _ _ rows _ => rows⟩
  | cons entry rest inductionHypothesis =>
      rw [List.forM_eq_forM, List.forM_cons] at ran
      obtain ⟨_, middle, entryRan, restRan⟩ := bind_eq_ok.mp ran
      obtain ⟨id, held, first⟩ := registerRelatedScope_registered entryRan
      obtain ⟨relatedIds, holds, later⟩ := inductionHypothesis restRan
      refine ⟨id :: relatedIds, .cons (held.grow later.grown) holds, ?_, ?_, ?_, ?_, ?_⟩
      · exact fun other row found => later.kept other row (first.kept other row found)
      · exact first.grown.trans later.grown
      · exact later.aliases.trans first.aliases
      · exact later.hints.trans first.hints
      · intro elsewhere ids rows apart
        exact later.rows elsewhere _ (first.rows elsewhere ids rows apart) apart

/-- With all related keys held, only the relations are written. -/
theorem related_of_holds {newId : Nat → ContextId} {contextId : ContextId} {principal : String}
    {now : Instant} {entries : List (String × Nat)} {relatedIds : List ContextId} {db : Db}
    (holds : List.Forall₂ (db.HoldsScope principal) (entries.map Prod.fst) relatedIds) :
    ∃ relations, entries.forM (fun entry =>
      registerRelatedScope (newId (entry.2 + 2)) contextId entry.1 principal now) db =
        .ok ((), { db with contextRelations := relations }) := by
  induction entries generalizing db relatedIds with
  | nil => exact ⟨db.contextRelations, rfl⟩
  | cons entry rest inductionHypothesis =>
      obtain ⟨id, relatedIds, held, restHolds, rfl⟩ := List.forall₂_cons_left_iff.mp holds
      obtain ⟨relations, entryRan⟩ : ∃ relations,
          registerRelatedScope (newId (entry.2 + 2)) contextId entry.1 principal now db =
            .ok ((), { db with contextRelations := relations }) := by
        by_cases itself : id = contextId
        · refine ⟨db.contextRelations, bind_eq_ok.mpr ⟨id, db, ensure_of_holdsScope held, ?_⟩⟩
          rw [if_pos itself]
          rfl
        · refine ⟨db.contextRelations.insertOrIgnore (relationTo contextId now id),
            bind_eq_ok.mpr ⟨id, db, ensure_of_holdsScope held, ?_⟩⟩
          rw [if_neg itself]
          rfl
      have restHolds' : List.Forall₂
          (({ db with contextRelations := relations } : Db).HoldsScope principal)
          (rest.map Prod.fst) relatedIds :=
        restHolds.imp fun _ _ held => held.grow (GrowsAdapters.of_contexts rfl)
      obtain ⟨final, restRan⟩ := inductionHypothesis restHolds'
      refine ⟨final, ?_⟩
      rw [List.forM_eq_forM, List.forM_cons]
      exact bind_eq_ok.mpr ⟨(), _, entryRan, restRan⟩

/-! ## A registered scope -/

/-- The alias row of a surface. -/
def aliasOf (contextId : ContextId) (now : Instant) (entry : String × String) : AliasRow :=
  ⟨contextId, entry.1, entry.2, now⟩

/-- The hint row of a surface. -/
def hintOf (contextId : ContextId) (now : Instant) (entry : String × String) : HintRow :=
  ⟨contextId, entry.1, entry.2, now⟩

/-- The rows that a registration leaves. -/
structure Db.Registered (db : Db) (principal : String) (scope : ScopeDefinition)
    (id : ContextId) (description : Option String) (parentId : Option ContextId)
    (relatedIds : List ContextId) : Prop where
  held : db.HoldsScope principal scope.scopeKey id
  described : ∃ row, db.contexts.find? id = some row ∧
    row.context.displayName = scope.displayName ∧ row.context.description = description ∧
      row.context.parentId = parentId
  parents : Option.Rel (db.HoldsScope principal) scope.parent parentId
  distinct : parentId ≠ some id
  aliases : ∃ others now, db.contextAliases.rows =
      others ++ (normalizedSurfaces scope.aliases).map (aliasOf id now) ∧
    ∀ row ∈ others, row.contextId ≠ id
  hints : ∃ others now, db.contextHints.rows =
      others ++ (normalizedSurfaces scope.matchers).map (hintOf id now) ∧
    ∀ row ∈ others, row.contextId ≠ id
  related : List.Forall₂ (db.HoldsScope principal) scope.related relatedIds
  relations : ∃ elsewhere now, db.contextRelations.rows =
      elsewhere ++ (relatedIds.foldl (addRelated id) []).map (relationTo id now) ∧
    ∀ row ∈ elsewhere, RelatesElsewhere id row
  audited : ∃ audit ∈ db.contextAudit, audit.contextId = some id ∧
    audit.action = "legacy_scope_register"

theorem holds_of_rel {first second : Db} {principal : String} {key : Option String}
    {id : Option ContextId} (related : Option.Rel (first.HoldsScope principal) key id)
    (grown : GrowsAdapters first second) : Option.Rel (second.HoldsScope principal) key id := by
  cases related with
  | none => exact .none
  | some held => exact .some (held.grow grown)

/-- A registration registers its scope. -/
theorem registered_of_register {newId : Nat → ContextId} {scope : ScopeDefinition}
    {principal : String} {now : Instant} {db next : Db}
    (ran : registerLegacyScopeContext newId scope principal now db = .ok ((), next)) :
    ∃ id parentId relatedIds, next.Registered principal scope id
      (db.describedAs principal scope.scopeKey scope.description) parentId relatedIds := by
  obtain ⟨_, _, ran⟩ := ReadsOnly.of_bind (readsOnly_orConflict _) ran
  obtain ⟨id, placed, ensured, ran⟩ := bind_eq_ok.mp ran
  obtain ⟨_, linked, parentRan, ran⟩ := bind_eq_ok.mp ran
  obtain ⟨aliases, aliasRows, ran⟩ := insertsInto_insertAliasRow.of_refill (aliasOf id now) ran
  obtain ⟨hints, hintRows, ran⟩ := insertsInto_insertHintRow.of_refill (hintOf id now) ran
  obtain ⟨_, _, relationsDeleted, ran⟩ := bind_eq_ok.mp ran
  cases writes_eq_ok.mp relationsDeleted
  obtain ⟨_, related, relatedRan, audited⟩ := bind_eq_ok.mp ran
  cases writes_eq_ok.mp audited
  obtain ⟨held, _, _⟩ := holdsScope_of_ensure ensured
  obtain ⟨row, found, displayed, described⟩ := described_ensure ensured
  obtain ⟨parentId, middle, rfl, kept, grown, _, parents, distinct⟩ :=
    registerScopeParent_registered parentRan
  obtain ⟨relatedIds, holds, relates⟩ := registered_related relatedRan
  have grows : GrowsAdapters middle related := Db.growsAdapters_hang.trans relates.grown
  have linkedRow := relates.kept id _ (Db.find?_hang (kept id row found))
  refine ⟨id, parentId, relatedIds, ?_, ⟨_, linkedRow, displayed, described, rfl⟩, ?_, distinct,
    ?_, ?_, ?_, ?_, ?_⟩
  · exact (held.grow (grown.trans grows)).grow (GrowsAdapters.of_contexts rfl)
  · exact holds_of_rel parents (grows.trans (GrowsAdapters.of_contexts rfl))
  · refine ⟨_, now, (congrArg Table.rows relates.aliases).trans aliasRows, ?_⟩
    intro other otherMem
    simpa using (List.mem_filter.mp otherMem).2
  · refine ⟨_, now, (congrArg Table.rows relates.hints).trans hintRows, ?_⟩
    intro other otherMem
    simpa using (List.mem_filter.mp otherMem).2
  · rw [List.zipIdx_map_fst] at holds
    exact holds.imp fun _ _ held => held.grow (GrowsAdapters.of_contexts rfl)
  · have apart : ∀ other ∈ (middle.hang id parentId now).contextRelations.rows.filter (fun row =>
        !decide (row.fromContextId = id ∧ row.relation = "legacy_related")),
          RelatesElsewhere id other := by
      intro other otherMem
      have other := (List.mem_filter.mp otherMem).2
      rw [Bool.not_eq_true', decide_eq_false_iff_not] at other
      exact other
    exact ⟨_, now, relates.rows _ [] (List.append_nil _).symm apart, apart⟩
  · exact ⟨_, List.mem_append_right _ List.mem_cons_self, rfl, rfl⟩

/-! ## Registering again -/

omit [Host] in
/-- A context without the time of its last change. -/
def ContextRow.timeless (row : ContextRow) : ContextRow :=
  { row with context := { row.context with updatedAt := 0 } }

omit [Host] in
/-- Contexts with their parents, aliases, hints and relations, without the times
at which they were written. -/
def Db.registrationTables (db : Db) :=
  (db.contexts.rows.map ContextRow.timeless,
    db.contextAliases.rows.map fun row => (row.contextId, row.aliasText, row.normalizedAlias),
    db.contextHints.rows.map fun row => (row.contextId, row.hint, row.normalizedHint),
    db.contextRelations.rows.map fun row => (row.fromContextId, row.toContextId, row.relation))

omit [Host] in
/-- A rewritten row is not seen in a view that it leaves. -/
theorem map_rows_update {κ ρ β : Type} [DecidableEq κ] {key : ρ → κ} {table : Table key} {k : κ}
    {change : ρ → ρ} {keepsKey : ∀ row, key (change row) = key row} {view : ρ → β}
    (same : ∀ row ∈ table, key row = k → view (change row) = view row) :
    (table.update k change keepsKey).rows.map view = table.rows.map view := by
  simp only [Table.update, Table.updateWhere, List.map_map]
  apply List.map_congr_left
  intro row rowMem
  simp only [Function.comp_apply, decide_eq_true_eq]
  split
  · rename_i here
    exact same row rowMem here
  · rfl

omit [Host] in
/-- Whether a validation passes does not depend on the state. -/
theorem orConflict_ok {result : Except String Unit} {db : Db} {pair : Unit × Db}
    (ran : orConflict result db = .ok pair) (other : Db) :
    orConflict result other = .ok ((), other) := by
  cases result with
  | ok _ => rfl
  | error message =>
      rw [orConflict, fails_eq_ok] at ran
      cases ran

omit [Host] in
theorem refill_aliases {β : Type} {db : Db} {id : ContextId} {surfaces : List (String × String)}
    {others : List AliasRow} {before now : Instant} (stored : db.contexts.contains id = true)
    (rows : db.contextAliases.rows = others ++ surfaces.map (aliasOf id before))
    (apart : ∀ row ∈ others, row.contextId ≠ id) :
    ∃ table, table.rows = others ++ surfaces.map (aliasOf id now) ∧ ∀ rest : StoreM β, (do
      writes fun db =>
        { db with
          contextAliases := db.contextAliases.deleteWhere fun row => decide (row.contextId = id) }
      surfaces.forM fun entry => insertAliasRow ⟨id, entry.1, entry.2, now⟩
      rest : StoreM β) db = rest { db with contextAliases := table } := by
  refine insertsInto_insertAliasRow.refill (aliasOf id now) rows
    (fun row rowMem => decide_eq_false (apart row rowMem)) ?_ ?_ fun _ _ => stored
  · intro row rowMem
    obtain ⟨_, _, rfl⟩ := List.mem_map.mp rowMem
    exact decide_eq_true rfl
  · rw [List.map_map, List.map_map]
    rfl

omit [Host] in
theorem refill_hints {β : Type} {db : Db} {id : ContextId} {surfaces : List (String × String)}
    {others : List HintRow} {before now : Instant} (stored : db.contexts.contains id = true)
    (rows : db.contextHints.rows = others ++ surfaces.map (hintOf id before))
    (apart : ∀ row ∈ others, row.contextId ≠ id) :
    ∃ table, table.rows = others ++ surfaces.map (hintOf id now) ∧ ∀ rest : StoreM β, (do
      writes fun db =>
        { db with
          contextHints := db.contextHints.deleteWhere fun row => decide (row.contextId = id) }
      surfaces.forM fun entry => insertHintRow ⟨id, entry.1, entry.2, now⟩
      rest : StoreM β) db = rest { db with contextHints := table } := by
  refine insertsInto_insertHintRow.refill (hintOf id now) rows
    (fun row rowMem => decide_eq_false (apart row rowMem)) ?_ ?_ fun _ _ => stored
  · intro row rowMem
    obtain ⟨_, _, rfl⟩ := List.mem_map.mp rowMem
    exact decide_eq_true rfl
  · rw [List.map_map, List.map_map]
    rfl

/-- A registered scope can be registered again; only the description may change. -/
theorem register_again {newId : Nat → ContextId} {scope : ScopeDefinition} {principal : String}
    {now : Instant} {db : Db} {id : ContextId} {description : Option String}
    {parentId : Option ContextId} {relatedIds : List ContextId}
    (registered : db.Registered principal scope id description parentId relatedIds)
    (hierarchical : db.Hierarchical)
    (valid : orConflict (validateLegacyScopeDefinition scope) db = .ok ((), db)) :
    ∃ next, registerLegacyScopeContext newId scope principal now db = .ok ((), next) ∧
      next.contexts = ((db.describe id (some scope.displayName) scope.description now).hang id
        parentId now).contexts ∧
      next.registrationTables.2 = db.registrationTables.2 := by
  obtain ⟨row, found, displayed, described, linked⟩ := registered.described
  let placed := db.describe id (some scope.displayName) scope.description now
  let hung := placed.hang id parentId now
  have grown : GrowsAdapters db placed := Db.growsAdapters_describe
  have grows : GrowsAdapters db hung := grown.trans Db.growsAdapters_hang
  have placedRow := @Db.find?_describe db id row scope.displayName scope.description now found
  have stored : hung.contexts.contains id = true := by
    rw [Table.contains, Db.find?_hang placedRow]
    rfl
  have placedRan : ensurePrivateLegacyScopeContext (newId 0) scope.scopeKey
      (some scope.displayName) scope.description principal now db = .ok (id, placed) :=
    ensure_of_holdsScope registered.held
  have placedHierarchical : placed.Hierarchical := by
    have evolved : ContextsEvolve (fun _ => True) db placed :=
      evolves_ensurePrivateLegacyScopeContext (fun _ _ _ => trivial) _ _ _ _ _ _ placedRan
    exact evolved.invariant (fun _ _ held change => held.change change) hierarchical
  have parentRan : registerScopeParent (newId 1) id scope principal now placed =
      .ok ((), hung) := by
    refine registerScopeParent_of_holds (holds_of_rel registered.parents grown)
      registered.distinct fun parent same => placedHierarchical.wouldCloseCycle_eq_false ?_
    rw [Db.contextParent_of_find? placedRow, ← same]
    exact linked
  obtain ⟨otherAliases, _, aliasRows, otherAlias⟩ := registered.aliases
  obtain ⟨aliases, aliasesAgain, aliasRan⟩ :=
    @refill_aliases Unit hung id _ _ _ now stored aliasRows otherAlias
  obtain ⟨otherHints, _, hintRows, otherHint⟩ := registered.hints
  obtain ⟨hints, hintsAgain, hintRan⟩ :=
    @refill_hints Unit { hung with contextAliases := aliases } id _ _ _ now stored hintRows
      otherHint
  obtain ⟨elsewhere, _, relationRows, apart⟩ := registered.relations
  let emptied : Db :=
    { hung with
      contextAliases := aliases
      contextHints := hints
      contextRelations := db.contextRelations.deleteWhere fun row =>
        decide (row.fromContextId = id ∧ row.relation = "legacy_related") }
  have emptiedRows : emptied.contextRelations.rows =
      elsewhere ++ [].map (relationTo id now) := by
    refine (congrArg (List.filter _) relationRows).trans ?_
    rw [List.filter_append, List.filter_eq_self.mpr, List.filter_eq_nil_iff.mpr]
    · rfl
    · intro relation relationMem
      obtain ⟨_, _, rfl⟩ := List.mem_map.mp relationMem
      simp [relationTo]
    · intro relation relationMem
      rw [Bool.not_eq_true', decide_eq_false_iff_not]
      exact apart relation relationMem
  have emptiedHolds : List.Forall₂ (emptied.HoldsScope principal)
      (scope.related.zipIdx.map Prod.fst) relatedIds := by
    rw [List.zipIdx_map_fst]
    exact registered.related.imp fun _ _ held =>
      held.grow (grows.trans (GrowsAdapters.of_contexts rfl))
  obtain ⟨relations, relatedRan⟩ := @related_of_holds _ newId id principal now _ _ _ emptiedHolds
  obtain ⟨again, holds, relates⟩ := registered_related relatedRan
  have same : again = relatedIds := by
    refine List.right_unique_forall₂' (fun _ _ _ left right => left.unique right) holds ?_
    exact emptiedHolds.imp fun _ _ held => held.grow (GrowsAdapters.of_contexts rfl)
  have relationsAgain := relates.rows elsewhere [] emptiedRows apart
  rw [same] at relationsAgain
  let audit := legacyKeyAudit principal "legacy_scope_register" scope.scopeKey
  let final : Db :=
    { emptied with
      contextRelations := relations
      contextAudit := db.contextAudit ++
        [⟨audit.actorPrincipal, audit.action, some id, none, now, audit.details⟩] }
  have ran : registerLegacyScopeContext newId scope principal now db = .ok ((), final) := by
    refine (bind_of_ok valid).trans ((bind_of_ok placedRan).trans ((bind_of_ok parentRan).trans ?_))
    refine (aliasRan _).trans ((hintRan _).trans ?_)
    exact (bind_of_ok rfl).trans ((bind_of_ok relatedRan).trans rfl)
  refine ⟨final, ran, rfl, ?_⟩
  have aliasesEq : final.contextAliases.rows = _ := aliasesAgain
  have hintsEq : final.contextHints.rows = _ := hintsAgain
  have relationsEq : final.contextRelations.rows = _ := relationsAgain
  simp only [Db.registrationTables, Prod.mk.injEq, aliasesEq, hintsEq, relationsEq, aliasRows,
    hintRows, relationRows, List.map_append, List.map_map]
  exact ⟨rfl, rfl, rfl⟩

/-! ## Reading a registered scope back -/

/-- A listed scope states a definition: keys up to spelling, aliases and matchers
without blanks and repetitions, and without a relation to itself. -/
structure ScopeDefinition.Restates (entry scope : ScopeDefinition) : Prop where
  key : normalizeContextKey entry.scopeKey = normalizeContextKey scope.scopeKey
  displayName : entry.displayName = scope.displayName
  description : entry.description = scope.description
  parent : entry.parent.map normalizeContextKey = scope.parent.map normalizeContextKey
  aliases : entry.aliases.Perm ((normalizedSurfaces scope.aliases).map Prod.fst)
  matchers : entry.matchers.Perm ((normalizedSurfaces scope.matchers).map Prod.fst)
  related : (entry.related.map normalizeContextKey).Perm
    ((scope.related.map normalizeContextKey).dedup.filter fun key =>
      decide (key ≠ normalizeContextKey scope.scopeKey))

/-- The key column of every context is the normal form of its key. -/
def Db.KeysNormalized (db : Db) : Prop :=
  ∀ row ∈ db.contexts, row.normalizedKey = normalizeContextKey row.context.key

theorem Db.KeysNormalized.change {newRow : ContextRow → Prop} {db next : Db}
    (normal : db.KeysNormalized) (change : ContextChange newRow db next) : next.KeysNormalized := by
  cases change with
  | kinds contexts _ =>
      rw [Db.KeysNormalized, contexts]
      exact normal
  | insert row _ inserted _ _ normalized _ =>
      intro other otherMem
      rcases (Table.mem_insert?_iff inserted).mp otherMem with older | rfl
      · exact normal other older
      · exact normalized
  | update row context found _ _ sameKey _ contexts _ =>
      intro other otherMem
      have otherFound := Table.find?_eq_some_iff.mpr ⟨otherMem, rfl⟩
      rw [contexts] at otherFound
      split at otherFound
      · cases otherFound
        rw [sameKey]
        exact normal row (Table.mem_of_find? found)
      · exact normal other (Table.mem_of_find? otherFound)
  | delete id _ contexts _ =>
      intro row rowMem
      rw [contexts] at rowMem
      exact normal row (Table.mem_deleteWhere_iff.mp rowMem).1

/-- Every run of the store keeps the key columns normalized. -/
theorem keysNormalized_run {start final : Db} {calls : List StoreCall}
    (normal : start.KeysNormalized) (runEq : run storeStep start calls = some final) :
    final.KeysNormalized := by
  refine run_invariant (fun db call next held stepEq => ?_) normal runEq
  have evolved : ContextsEvolve (fun _ => True) db next := by
    refine storeStep_evolves (fun _ _ _ _ => trivial) ?_ stepEq
    cases call.command <;> trivial
  exact evolved.invariant (fun _ _ held change => held.change change) held

omit [Host] in
/-- The related scopes are the others, each once. -/
theorem mem_foldl_addRelated {contextId other : ContextId} {relatedIds : List ContextId} :
    ∀ {ids : List ContextId}, other ∈ relatedIds.foldl (addRelated contextId) ids ↔
      other ∈ ids ∨ (other ∈ relatedIds ∧ other ≠ contextId) := by
  induction relatedIds with
  | nil => simp
  | cons id rest inductionHypothesis =>
      intro ids
      rw [List.foldl_cons, inductionHypothesis, addRelated, List.mem_cons]
      split
      · rename_i known
        constructor
        · rintro (old | ⟨later, different⟩)
          · exact Or.inl old
          · exact Or.inr ⟨Or.inr later, different⟩
        · rintro (old | ⟨rfl | later, different⟩)
          · exact Or.inl old
          · exact Or.inl (known.resolve_left different)
          · exact Or.inr ⟨later, different⟩
      · rename_i unknown
        rw [List.mem_append, List.mem_singleton]
        constructor
        · rintro ((old | rfl) | ⟨later, different⟩)
          · exact Or.inl old
          · exact Or.inr ⟨Or.inl rfl, fun same => unknown (Or.inl same)⟩
          · exact Or.inr ⟨Or.inr later, different⟩
        · rintro (old | ⟨rfl | later, different⟩)
          · exact Or.inl (Or.inl old)
          · exact Or.inl (Or.inr rfl)
          · exact Or.inr ⟨later, different⟩

omit [Host] in
theorem nodup_foldl_addRelated {contextId : ContextId} {relatedIds : List ContextId} :
    ∀ {ids : List ContextId}, ids.Nodup → (relatedIds.foldl (addRelated contextId) ids).Nodup := by
  induction relatedIds with
  | nil => exact fun distinct => distinct
  | cons id rest inductionHypothesis =>
      intro ids distinct
      rw [List.foldl_cons]
      apply inductionHypothesis
      rw [addRelated]
      split
      · exact distinct
      · rename_i unknown
        refine List.Nodup.append distinct (List.nodup_singleton id) ?_
        intro other otherMem here
        rw [List.mem_singleton.mp here] at otherMem
        exact unknown (Or.inr otherMem)

/-- Keys of one normal form are held by one context. -/
theorem Db.HoldsScope.eq_of_normal {db : Db} {principal first second : String}
    {firstId secondId : ContextId} (left : db.HoldsScope principal first firstId)
    (right : db.HoldsScope principal second secondId)
    (same : normalizeContextKey first = normalizeContextKey second) : firstId = secondId := by
  refine left.unique ⟨left.named, ?_⟩
  rw [same]
  exact right.owned

omit [Host] in
/-- The rows of one context, behind those of the others. -/
theorem filter_owned {ρ : Type} {others rows : List ρ} {owned : ρ → Bool}
    (apart : ∀ row ∈ others, owned row = false) (own : ∀ row ∈ rows, owned row = true) :
    (others ++ rows).filter owned = rows := by
  rw [List.filter_append, List.filter_eq_nil_iff.mpr, List.filter_eq_self.mpr own, List.nil_append]
  intro row rowMem
  rw [apart row rowMem]
  exact Bool.false_ne_true

section ReadBack

variable {db : Db} {principal : String} {scope : ScopeDefinition} {id : ContextId}
  {description : Option String} {parentId : Option ContextId} {relatedIds : List ContextId}

/-- The scope of a registered key is listed. -/
theorem Db.Registered.listed
    (registered : db.Registered principal scope id description parentId relatedIds)
    {row : ContextRow} (found : db.contexts.find? id = some row) :
    db.scopeDefinition row ∈ db.listLegacyScopeContexts principal := by
  obtain ⟨held, heldFound, _, owner, kind, thawed, active⟩ := registered.held.exists_row
  cases found.symm.trans heldFound
  obtain ⟨audit, auditMem, about, action⟩ := registered.audited
  refine List.mem_map_of_mem (mem_orderBy.mpr (Table.mem_select_iff.mpr
    ⟨Table.mem_of_find? found, ?_⟩))
  have audited : (db.contextAudit.any fun audit =>
      audit.contextId == some row.context.id &&
        (audit.action == "migrate_registered_scope" ||
          audit.action == "legacy_scope_register")) = true := by
    refine List.any_eq_true.mpr ⟨audit, auditMem, ?_⟩
    rw [about, action, (Table.find?_eq_some_iff.mp found).2]
    simp
  rw [Db.listsScope, audited, owner, kind, thawed, active]
  simp

theorem Db.Registered.parent_listed
    (registered : db.Registered principal scope id description parentId relatedIds)
    (normal : db.KeysNormalized) :
    ((parentId.bind db.contexts.find?).map (·.context.key)).map normalizeContextKey =
      scope.parent.map normalizeContextKey := by
  have parents := registered.parents
  revert parents
  cases scope.parent with
  | none =>
      intro parents
      cases parents
      rfl
  | some key =>
      intro parents
      cases parents with
      | some held =>
          obtain ⟨row, found, key, _⟩ := held.exists_row
          rw [Option.bind_some, found, Option.map_some, Option.map_some, Option.map_some,
            ← normal row (Table.mem_of_find? found), key]

omit [Host] in
theorem exists_left_of_forall₂ {α β : Type} {related : α → β → Prop} {left : List α}
    {right : List β} (paired : List.Forall₂ related left right) {second : β}
    (secondMem : second ∈ right) : ∃ first ∈ left, related first second := by
  induction paired with
  | nil => cases secondMem
  | cons here _ inductionHypothesis =>
      rcases List.mem_cons.mp secondMem with rfl | later
      · exact ⟨_, List.mem_cons_self, here⟩
      · obtain ⟨first, firstMem, holds⟩ := inductionHypothesis later
        exact ⟨first, List.mem_cons_of_mem _ firstMem, holds⟩

omit [Host] in
theorem exists_right_of_forall₂ {α β : Type} {related : α → β → Prop} {left : List α}
    {right : List β} (paired : List.Forall₂ related left right) {first : α}
    (firstMem : first ∈ left) : ∃ second ∈ right, related first second :=
  exists_left_of_forall₂ paired.flip firstMem

/-- The related keys that are listed are the registered ones. -/
theorem Db.Registered.related_listed
    (registered : db.Registered principal scope id description parentId relatedIds)
    (normal : db.KeysNormalized) :
    (((relatedIds.foldl (addRelated id) []).filterMap db.contexts.find?).map fun row =>
      normalizeContextKey row.context.key).Perm
    ((scope.related.map normalizeContextKey).dedup.filter fun key =>
      decide (key ≠ normalizeContextKey scope.scopeKey)) := by
  have rowKey : ∀ {other row key}, db.contexts.find? other = some row →
      db.HoldsScope principal key other →
        normalizeContextKey row.context.key = normalizeContextKey key := by
    intro other row key found held
    obtain ⟨heldRow, heldFound, sameKey, _⟩ := held.exists_row
    cases found.symm.trans heldFound
    rw [← normal row (Table.mem_of_find? found), sameKey]
  have listed : ∀ {other}, other ∈ relatedIds.foldl (addRelated id) [] ↔
      other ∈ relatedIds ∧ other ≠ id := by
    intro other
    rw [mem_foldl_addRelated]
    simp
  rw [List.perm_ext_iff_of_nodup]
  · intro normalKey
    rw [List.mem_map, List.mem_filter, List.mem_dedup, List.mem_map, decide_eq_true_eq]
    constructor
    · rintro ⟨row, rowMem, rfl⟩
      obtain ⟨other, otherMem, found⟩ := List.mem_filterMap.mp rowMem
      obtain ⟨related, different⟩ := listed.mp otherMem
      obtain ⟨key, keyMem, held⟩ := exists_left_of_forall₂ registered.related related
      rw [rowKey found held]
      refine ⟨⟨key, keyMem, rfl⟩, fun same => different ?_⟩
      exact held.eq_of_normal registered.held same
    · rintro ⟨⟨key, keyMem, rfl⟩, different⟩
      obtain ⟨other, related, held⟩ := exists_right_of_forall₂ registered.related keyMem
      obtain ⟨row, found, _⟩ := held.exists_row
      refine ⟨row, List.mem_filterMap.mpr ⟨other, listed.mpr ⟨related, ?_⟩, found⟩,
        rowKey found held⟩
      rintro rfl
      obtain ⟨_, scopeFound, scopeKey, _⟩ := registered.held.exists_row
      obtain ⟨_, heldFound, heldKey, _⟩ := held.exists_row
      cases scopeFound.symm.trans heldFound
      exact different (heldKey.symm.trans scopeKey)
  · refine List.Nodup.map_on ?_ (List.Nodup.filterMap ?_ (nodup_foldl_addRelated List.nodup_nil))
    · intro first firstMem second secondMem same
      obtain ⟨firstId, firstListed, firstFound⟩ := List.mem_filterMap.mp firstMem
      obtain ⟨secondId, secondListed, secondFound⟩ := List.mem_filterMap.mp secondMem
      obtain ⟨_, _, firstHeld⟩ :=
        exists_left_of_forall₂ registered.related (listed.mp firstListed).1
      obtain ⟨_, _, secondHeld⟩ :=
        exists_left_of_forall₂ registered.related (listed.mp secondListed).1
      rw [rowKey firstFound firstHeld, rowKey secondFound secondHeld] at same
      rw [firstHeld.eq_of_normal secondHeld same] at firstFound
      exact Option.some.inj (firstFound.symm.trans secondFound)
    · intro first second row firstFound secondFound
      exact (Table.find?_eq_some_iff.mp firstFound).2.symm.trans
        (Table.find?_eq_some_iff.mp secondFound).2
  · exact (List.nodup_dedup _).filter _

/-- A registered scope is listed as it was registered, with the description that
the registration left. -/
theorem Db.Registered.restated
    (registered : db.Registered principal scope id scope.description parentId relatedIds)
    (normal : db.KeysNormalized) :
    ∃ entry ∈ db.listLegacyScopeContexts principal, entry.Restates scope := by
  obtain ⟨row, found, displayed, described, linked⟩ := registered.described
  obtain ⟨_, heldFound, sameKey, _⟩ := registered.held.exists_row
  cases found.symm.trans heldFound
  obtain ⟨otherAliases, aliasedAt, aliasRows, otherAlias⟩ := registered.aliases
  obtain ⟨otherHints, hintedAt, hintRows, otherHint⟩ := registered.hints
  obtain ⟨elsewhere, relatedAt, relationRows, apart⟩ := registered.relations
  have named := (Table.find?_eq_some_iff.mp found).2
  have aliases : db.contextAliases.select (fun entry => decide (entry.contextId = row.context.id)) =
      (normalizedSurfaces scope.aliases).map (aliasOf id aliasedAt) := by
    rw [Table.select, aliasRows, named]
    refine filter_owned (fun other otherMem => decide_eq_false (otherAlias other otherMem)) ?_
    intro own ownMem
    obtain ⟨_, _, rfl⟩ := List.mem_map.mp ownMem
    exact decide_eq_true rfl
  have hints : db.contextHints.select (fun entry => decide (entry.contextId = row.context.id)) =
      (normalizedSurfaces scope.matchers).map (hintOf id hintedAt) := by
    rw [Table.select, hintRows, named]
    refine filter_owned (fun other otherMem => decide_eq_false (otherHint other otherMem)) ?_
    intro own ownMem
    obtain ⟨_, _, rfl⟩ := List.mem_map.mp ownMem
    exact decide_eq_true rfl
  have relations : db.contextRelations.select (fun relation =>
        decide (relation.fromContextId = row.context.id ∧ relation.relation = "legacy_related")) =
      (relatedIds.foldl (addRelated id) []).map (relationTo id relatedAt) := by
    rw [Table.select, relationRows, named]
    refine filter_owned (fun other otherMem => decide_eq_false (apart other otherMem)) ?_
    intro own ownMem
    obtain ⟨_, _, rfl⟩ := List.mem_map.mp ownMem
    exact decide_eq_true ⟨rfl, rfl⟩
  refine ⟨db.scopeDefinition row, registered.listed found, ?_, displayed, described, ?_, ?_, ?_, ?_⟩
  · exact (normal row (Table.mem_of_find? found)).symm.trans sameKey
  · rw [Db.scopeDefinition, linked]
    exact registered.parent_listed normal
  · refine ((perm_orderBy _ _).map _).trans (List.Perm.of_eq ?_)
    rw [aliases, List.map_map]
    rfl
  · refine ((perm_orderBy _ _).map _).trans (List.Perm.of_eq ?_)
    rw [hints, List.map_map]
    rfl
  · refine (((perm_orderBy _ _).map _).map _).trans ?_
    rw [relations, List.filterMap_map, List.map_map]
    exact registered.related_listed normal

end ReadBack

/-! ## The second registration -/

section Again

variable {newId : Nat → ContextId} {scope : ScopeDefinition} {principal : String} {now : Instant}
  {db next : Db}

theorem evolves_register
    (ran : registerLegacyScopeContext newId scope principal now db = .ok ((), next)) :
    ContextsEvolve (fun _ => True) db next :=
  evolves_registerLegacyScopeContext (fun _ _ _ => trivial) _ _ _ _ ran

/-- A registered key is described as stated. -/
theorem Db.HoldsScope.describedAs {key : String} {id : ContextId}
    (held : db.HoldsScope principal key id) (description : Option String) :
    db.describedAs principal key description = description := by
  obtain ⟨_, owned, _⟩ := Option.map_eq_some_iff.mp held.owned
  rw [Db.describedAs, owned]
  rfl

omit [Host] in
/-- A registration that meets its own description changes no context. -/
theorem timeless_describe_hang {id : ContextId} {parentId : Option ContextId} {row : ContextRow}
    (found : db.contexts.find? id = some row)
    (displayed : row.context.displayName = scope.displayName)
    (described : row.context.description = scope.description)
    (linked : row.context.parentId = parentId) :
    ((db.describe id (some scope.displayName) scope.description now).hang id parentId
      now).contexts.rows.map ContextRow.timeless = db.contexts.rows.map ContextRow.timeless := by
  have placed := @Db.find?_describe db id row scope.displayName scope.description now found
  rw [Db.hang, map_rows_update]
  · rw [Db.describe, map_rows_update]
    intro other otherMem here
    have otherFound := Table.find?_eq_some_iff.mpr ⟨otherMem, here⟩
    rw [Option.some.inj (otherFound.symm.trans found), ← displayed, ← described]
    rfl
  · intro other otherMem here
    have otherFound := Table.find?_eq_some_iff.mpr ⟨otherMem, here⟩
    rw [Option.some.inj (otherFound.symm.trans placed), ← linked]

omit [Host] in
/-- The row of a described and linked context. -/
theorem find?_describe_hang {id : ContextId} {parentId : Option ContextId} {row : ContextRow}
    (found : db.contexts.find? id = some row) :
    ∃ hung, ((db.describe id (some scope.displayName) scope.description now).hang id parentId
      now).contexts.find? id = some hung ∧ hung.context.description = scope.description :=
  ⟨_, Db.find?_hang (Db.find?_describe found), rfl⟩

/-- A definition without a description meets the default one only once. -/
theorem registrationTables_ne_of_undescribed (hierarchical : db.Hierarchical)
    (undescribed : scope.description = none)
    (unowned : db.ownedCustomContext principal (normalizeContextKey scope.scopeKey) = none)
    (ran : registerLegacyScopeContext newId scope principal now db = .ok ((), next))
    {laterId : Nat → ContextId} {later : Instant} {again : Db}
    (againRan : registerLegacyScopeContext laterId scope principal later next =
      .ok ((), again)) : again.registrationTables ≠ next.registrationTables := by
  intro same
  obtain ⟨id, parentId, relatedIds, registered⟩ := registered_of_register ran
  obtain ⟨_, valid, _⟩ := ReadsOnly.of_bind (readsOnly_orConflict _) ran
  have nextHierarchical : next.Hierarchical :=
    (evolves_register ran).invariant (fun _ _ held change => held.change change) hierarchical
  obtain ⟨row, found, displayed, described, linked⟩ := registered.described
  obtain ⟨final, finalRan, contexts, _⟩ :=
    @register_again _ laterId _ _ later _ _ _ _ _ registered nextHierarchical
      (orConflict_ok valid next)
  cases againRan.symm.trans finalRan
  obtain ⟨hung, hungFound, hungDescribed⟩ :=
    @find?_describe_hang scope later next id parentId _ found
  rw [← contexts] at hungFound
  have listed : hung.timeless ∈ next.contexts.rows.map ContextRow.timeless := by
    rw [← (Prod.mk.inj same).1]
    exact List.mem_map_of_mem (Table.mem_of_find? hungFound)
  obtain ⟨before, beforeMem, timeless⟩ := List.mem_map.mp listed
  have contextsAlike := congrArg ContextRow.context timeless
  have beforeId : before.context.id = id :=
    (congrArg ContextDefinition.id contextsAlike).trans (Table.find?_eq_some_iff.mp hungFound).2
  have beforeRow : before = row := Option.some.inj
    ((Table.find?_eq_some_iff.mpr ⟨beforeMem, beforeId⟩).symm.trans found)
  have alike := congrArg ContextDefinition.description contextsAlike
  have defaulted : row.context.description = some privateCompatibilityDescription := by
    rw [described, Db.describedAs, unowned, undescribed]
    rfl
  have unstated : row.context.description = none := by
    rw [← undescribed, ← hungDescribed, ← beforeRow]
    exact alike
  rw [unstated] at defaulted
  cases defaulted

/-- A registered definition is listed, and registering it again succeeds, changes
nothing but times and audit rows, and lists it again, exactly where the
definition has a description or the principal owned the context of its key
before. -/
theorem registration_repeats_iff (hierarchical : db.Hierarchical) (normal : db.KeysNormalized)
    (ran : registerLegacyScopeContext newId scope principal now db = .ok ((), next)) :
    ((∃ entry ∈ next.listLegacyScopeContexts principal, entry.Restates scope) ∧
      ∀ (newId : Nat → ContextId) (now : Instant), ∃ again,
      registerLegacyScopeContext newId scope principal now next = .ok ((), again) ∧
        again.registrationTables = next.registrationTables ∧
          ∃ entry ∈ again.listLegacyScopeContexts principal, entry.Restates scope) ↔
    (scope.description.isSome = true ∨
      (db.ownedCustomContext principal (normalizeContextKey scope.scopeKey)).isSome = true) := by
  constructor
  · rintro ⟨_, repeats⟩
    obtain ⟨again, againRan, same, _⟩ := repeats newId now
    by_contra neither
    rw [not_or, Bool.not_eq_true, Option.isSome_eq_false_iff, Option.isNone_iff_eq_none,
      Bool.not_eq_true, Option.isSome_eq_false_iff, Option.isNone_iff_eq_none] at neither
    exact registrationTables_ne_of_undescribed hierarchical neither.1 neither.2 ran againRan same
  · intro stated
    obtain ⟨id, parentId, relatedIds, registered⟩ := registered_of_register ran
    obtain ⟨_, valid, _⟩ := ReadsOnly.of_bind (readsOnly_orConflict _) ran
    have evolved := evolves_register ran
    have stays : db.describedAs principal scope.scopeKey scope.description = scope.description := by
      rw [Db.describedAs]
      split
      · rfl
      · rename_i unowned
        obtain ⟨text, stated⟩ := Option.isSome_iff_exists.mp (stated.resolve_right unowned)
        rw [stated, Option.some_or]
    rw [stays] at registered
    have normalNext := evolved.invariant (fun _ _ held change => held.change change) normal
    refine ⟨registered.restated normalNext, fun newId now => ?_⟩
    obtain ⟨row, found, displayed, described, linked⟩ := registered.described
    obtain ⟨again, againRan, contexts, others⟩ :=
      @register_again _ newId _ _ now _ _ _ _ _ registered
        (evolved.invariant (fun _ _ held change => held.change change) hierarchical)
        (orConflict_ok valid next)
    refine ⟨again, againRan, Prod.ext ?_ others, ?_⟩
    · exact (congrArg (fun table => table.rows.map ContextRow.timeless) contexts).trans
        (timeless_describe_hang found displayed described linked)
    · obtain ⟨_, _, _, registeredAgain⟩ := registered_of_register againRan
      rw [registered.held.describedAs] at registeredAgain
      exact registeredAgain.restated ((evolves_register againRan).invariant
        (fun _ _ held change => held.change change) normalNext)

omit [Host] in
/-- A scope with a parent and related scopes, under several spellings. -/
def toolsScope : ScopeDefinition where
  scopeKey := "Team/Tools"
  displayName := "Tools"
  description := some "Shared tools"
  aliases := ["Kit", "kit", "box"]
  matchers := ["bin/"]
  parent := some "team"
  related := ["Team", "team/tools", "docs"]

omit [Host] in
theorem exists_registration {scope : ScopeDefinition}
    (succeeds : (@registerLegacyScopeContext asciiHost (fun number => ⟨number + 1⟩) scope "owner" 0
      customKindStore).isOk = true) :
    ∃ next, @registerLegacyScopeContext asciiHost (fun number => ⟨number + 1⟩) scope "owner" 0
      customKindStore = .ok ((), next) := by
  cases ran : @registerLegacyScopeContext asciiHost (fun number => ⟨number + 1⟩) scope "owner" 0
      customKindStore with
  | error error =>
      rw [ran] at succeeds
      cases succeeds
  | ok result => exact ⟨result.2, rfl⟩

omit [Host] in
theorem keysNormalized_customKindStore : @Db.KeysNormalized asciiHost customKindStore :=
  fun _ rowMem => absurd rowMem List.not_mem_nil

omit [Host] in
theorem registration_repeats_iff_tools :
    customKindStore.Hierarchical ∧ @Db.KeysNormalized asciiHost customKindStore ∧
    ∃ next, @registerLegacyScopeContext asciiHost (fun number => ⟨number + 1⟩) toolsScope "owner" 0
        customKindStore = .ok ((), next) ∧
      (∃ entry ∈ next.listLegacyScopeContexts "owner",
        @ScopeDefinition.Restates asciiHost entry toolsScope) ∧
      ∀ (newId : Nat → ContextId) (now : Instant), ∃ again,
        @registerLegacyScopeContext asciiHost newId toolsScope "owner" now next =
            .ok ((), again) ∧
          again.registrationTables = next.registrationTables ∧
            ∃ entry ∈ again.listLegacyScopeContexts "owner",
              @ScopeDefinition.Restates asciiHost entry toolsScope := by
  obtain ⟨next, ran⟩ := @exists_registration toolsScope (by decide +kernel)
  have hierarchical : customKindStore.Hierarchical := Db.Hierarchical.of_empty rfl
  exact ⟨hierarchical, keysNormalized_customKindStore, next, ran,
    (@registration_repeats_iff asciiHost _ _ _ _ _ _ hierarchical keysNormalized_customKindStore
      ran).mpr (Or.inl rfl)⟩

omit [Host] in
/-- Without a description, the second registration drops the default description
of the first. -/
theorem registration_drops_default_description :
    ∃ next, @registerLegacyScopeContext asciiHost (fun number => ⟨number + 1⟩)
        { toolsScope with description := none } "owner" 0 customKindStore = .ok ((), next) ∧
      ¬((∃ entry ∈ next.listLegacyScopeContexts "owner",
          @ScopeDefinition.Restates asciiHost entry { toolsScope with description := none }) ∧
        ∀ (newId : Nat → ContextId) (now : Instant), ∃ again,
          @registerLegacyScopeContext asciiHost newId { toolsScope with description := none }
              "owner" now next = .ok ((), again) ∧
            again.registrationTables = next.registrationTables ∧
              ∃ entry ∈ again.listLegacyScopeContexts "owner",
                @ScopeDefinition.Restates asciiHost entry
                  { toolsScope with description := none }) := by
  obtain ⟨next, ran⟩ :=
    @exists_registration { toolsScope with description := none } (by decide +kernel)
  refine ⟨next, ran, fun ⟨_, repeats⟩ => ?_⟩
  obtain ⟨again, againRan, same, _⟩ := repeats (fun number => ⟨number + 9⟩) 1
  exact @registrationTables_ne_of_undescribed asciiHost _ _ _ _ _ _ (Db.Hierarchical.of_empty rfl)
    rfl rfl ran _ _ _ againRan same

end Again

end LocalHold
