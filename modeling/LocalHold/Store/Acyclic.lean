import LocalHold.Store.ContextRuns

/-!
# The context hierarchy has no cycles

The cycle query visits every stored ancestor of the new parent, archived and
hidden ones included, so a link that passes it closes no cycle.  The other
changes of the context tables add leaves, keep links or remove them.
-/

namespace LocalHold

open Relational Hierarchy Transition Transition.Txn

/-- Parents are stored and no context lies above itself. -/
structure Db.Hierarchical (db : Db) : Prop where
  stored : ∀ id parent, db.contextParent id = some parent → db.contexts.contains parent = true
  acyclic : Acyclic db.contextParent

theorem Db.contextParent_of_find? {db : Db} {id : ContextId} {row : ContextRow}
    (found : db.contexts.find? id = some row) : db.contextParent id = row.context.parentId := by
  rw [Db.contextParent, found, Option.bind_some]

/-! ## The cycle query -/

/-- The query reaches every context above the start that its depth allows. -/
theorem Db.mem_ancestorIds_of_climb {db : Db} (hierarchical : db.Hierarchical) {steps fuel : Nat}
    {node : ContextId} (enough : steps < fuel) {start : ContextId}
    (stored : db.contexts.contains start = true)
    (climbed : climb db.contextParent steps start = some node) :
    node ∈ db.ancestorIds fuel start := by
  induction steps generalizing fuel start with
  | zero =>
      obtain ⟨fuel, rfl⟩ := Nat.exists_eq_succ_of_ne_zero (Nat.ne_of_gt enough)
      cases climbed
      rw [Db.ancestorIds, if_pos stored]
      exact List.mem_cons_self
  | succ steps inductionHypothesis =>
      obtain ⟨fuel, rfl⟩ := Nat.exists_eq_succ_of_ne_zero (by omega : fuel ≠ 0)
      cases linked : db.contextParent start with
      | none => simp [climb, linked] at climbed
      | some up =>
          have further : climb db.contextParent steps up = some node := by
            simpa [climb, linked] using climbed
          rw [Db.ancestorIds, if_pos stored, linked]
          exact List.mem_cons_of_mem _ (inductionHypothesis (by omega)
            (hierarchical.stored start up linked) further)

/-- A link that passes the query closes no cycle. -/
theorem Db.not_above_of_wouldCloseCycle {db : Db} (hierarchical : db.Hierarchical)
    {id parent : ContextId} (stored : db.contexts.contains parent = true)
    (passes : db.wouldCloseCycle id parent = false) :
    id ≠ parent ∧ ¬Above db.contextParent id parent := by
  have absent : id ∉ db.ancestorIds (db.contexts.rows.length + 1) parent := by
    simpa [Db.wouldCloseCycle] using passes
  constructor
  · rintro rfl
    exact absent (Db.mem_ancestorIds_of_climb hierarchical (Nat.succ_pos _) stored rfl)
  · intro above
    obtain ⟨steps, climbed⟩ := exists_climb_of_above above
    obtain ⟨fewest, shortest⟩ := exists_shortestClimb climbed
    have listed : ∀ other, db.contexts.contains other = true →
        other ∈ db.contexts.rows.map fun row => row.context.id := by
      intro other present
      obtain ⟨row, rowMem, rfl⟩ := Table.contains_eq_true_iff.mp present
      exact List.mem_map_of_mem rowMem
    have short := shortest.lt_length (listed parent stored) fun child up linked =>
      listed up (hierarchical.stored child up linked)
    rw [List.length_map] at short
    exact absent (Db.mem_ancestorIds_of_climb hierarchical (by omega) stored shortest.1)

/-! ## Changes -/

section Changes

variable {db next : Db}

theorem Db.Hierarchical.of_contexts (hierarchical : db.Hierarchical)
    (contexts : next.contexts = db.contexts) : next.Hierarchical := by
  have sameParent : next.contextParent = db.contextParent := by
    funext id
    rw [Db.contextParent, Db.contextParent, contexts]
  refine ⟨?_, ?_⟩
  · rw [sameParent, contexts]
    exact hierarchical.stored
  · rw [sameParent]
    exact hierarchical.acyclic

/-- A new context is a leaf, so it lies above nothing. -/
theorem Db.Hierarchical.insert (hierarchical : db.Hierarchical) {row : ContextRow}
    (inserted : db.contexts.insert? row = some next.contexts)
    (parent : ∀ parent, row.context.parentId = some parent →
      db.contexts.contains parent = true) : next.Hierarchical := by
  have fresh : db.contexts.contains row.context.id = false :=
    (Table.insert?_eq_some_iff.mp inserted).1
  have grown : ∀ other, db.contexts.contains other = true → next.contexts.contains other = true := by
    intro other present
    rw [Table.contains_insert? inserted, present, Bool.or_true]
  have parents : ∀ other, next.contextParent other =
      if other = row.context.id then row.context.parentId else db.contextParent other := by
    intro other
    rw [Db.contextParent, Table.find?_insert? inserted]
    split
    · rfl
    · rfl
  have rootBefore : db.contextParent row.context.id = none := by
    rw [Db.contextParent, Table.find?_eq_none_iff.mpr (Table.contains_eq_false_iff.mp fresh),
      Option.bind_none]
  have neverParent : ∀ id, db.contextParent id ≠ some row.context.id := by
    intro id linked
    rw [hierarchical.stored id _ linked] at fresh
    cases fresh
  constructor
  · intro id up linked
    rw [parents] at linked
    split at linked
    · exact grown up (parent up linked)
    · exact grown up (hierarchical.stored id up linked)
  · cases link : row.context.parentId with
    | none =>
        refine hierarchical.acyclic.mono fun node up linked => ?_
        rw [parents, link] at linked
        split at linked
        · cases linked
        · exact linked
    | some up =>
        refine hierarchical.acyclic.relink (by rw [parents, if_pos rfl, link])
          (fun other different => by rw [parents, if_neg different]) ?_ ?_
        · intro same
          have present := parent up link
          rw [← same, fresh] at present
          cases present
        · intro above
          obtain ⟨middle, _, linked⟩ := Relation.TransGen.tail'_iff.mp above
          exact neverParent middle linked

/-- Rewriting a context keeps its link or sets one that passed the cycle query. -/
theorem Db.Hierarchical.update (hierarchical : db.Hierarchical) {row : ContextRow}
    {context : ContextDefinition} (found : db.contexts.find? row.context.id = some row)
    (allowed : db.ParentAllowed row.context.id row.context.parentId context.parentId)
    (contexts : ∀ other, next.contexts.find? other =
      if other = row.context.id then some { row with context := context }
      else db.contexts.find? other) : next.Hierarchical := by
  have sameIds : ∀ other, next.contexts.contains other = db.contexts.contains other := by
    intro other
    rw [Table.contains, Table.contains, contexts]
    split
    · rename_i here
      rw [here, found, Option.isSome_some, Option.isSome_some]
    · rfl
  have parents : ∀ other, next.contextParent other =
      if other = row.context.id then context.parentId else db.contextParent other := by
    intro other
    rw [Db.contextParent, contexts]
    split
    · rfl
    · rfl
  have before : db.contextParent row.context.id = row.context.parentId :=
    Db.contextParent_of_find? found
  rcases allowed with same | allowed
  · have sameParent : next.contextParent = db.contextParent := by
      funext other
      rw [parents, same]
      split
      · rename_i here
        rw [here, before]
      · rfl
    refine ⟨?_, ?_⟩
    · intro id up linked
      rw [sameParent] at linked
      rw [sameIds]
      exact hierarchical.stored id up linked
    · rw [sameParent]
      exact hierarchical.acyclic
  · constructor
    · intro id up linked
      rw [sameIds]
      rw [parents] at linked
      split at linked
      · exact (allowed up linked).1
      · exact hierarchical.stored id up linked
    · cases link : context.parentId with
      | none =>
          refine hierarchical.acyclic.mono fun node up linked => ?_
          rw [parents, link] at linked
          split at linked
          · cases linked
          · exact linked
      | some up =>
          obtain ⟨stored, passes⟩ := allowed up link
          obtain ⟨distinct, notAbove⟩ :=
            Db.not_above_of_wouldCloseCycle hierarchical stored passes
          exact hierarchical.acyclic.relink (by rw [parents, if_pos rfl, link])
            (fun other different => by rw [parents, if_neg different]) distinct notAbove

/-- Deleting a childless context breaks no link. -/
theorem Db.Hierarchical.delete (hierarchical : db.Hierarchical) {id : ContextId}
    (childless : ∀ row ∈ db.contexts, row.context.parentId ≠ some id)
    (contexts : next.contexts = db.contexts.delete id) : next.Hierarchical := by
  have kept : ∀ node up, next.contextParent node = some up → db.contextParent node = some up := by
    intro node up linked
    rw [Db.contextParent, contexts, Table.find?_delete] at linked
    split at linked
    · cases linked
    · exact linked
  constructor
  · intro node up linked
    have linkedBefore := kept node up linked
    have present := hierarchical.stored node up linkedBefore
    have different : up ≠ id := by
      rintro rfl
      rw [Db.contextParent, Option.bind_eq_some_iff] at linkedBefore
      obtain ⟨row, found, isChild⟩ := linkedBefore
      exact childless row (Table.find?_eq_some_iff.mp found).1 isChild
    rw [Table.contains, contexts, Table.find?_delete, if_neg different]
    exact present
  · exact hierarchical.acyclic.mono kept

/-- Every change of the context tables keeps the hierarchy. -/
theorem Db.Hierarchical.change [Host] {newRow : ContextRow → Prop}
    (hierarchical : db.Hierarchical) (change : ContextChange newRow db next) : next.Hierarchical := by
  cases change with
  | kinds contexts _ => exact hierarchical.of_contexts contexts
  | insert row _ inserted _ parent _ _ => exact hierarchical.insert inserted parent
  | update row context found _ _ _ parent contexts _ =>
      exact hierarchical.update found parent contexts
  | delete id childless contexts _ => exact hierarchical.delete childless contexts

end Changes

/-! ## Runs -/

variable [Host]

omit [Host] in
/-- A store without contexts has a hierarchy. -/
theorem Db.Hierarchical.of_empty {db : Db} (none : db.contexts = Table.empty) :
    db.Hierarchical := by
  have root : ∀ id, db.contextParent id = Option.none := by
    intro id
    rw [Db.contextParent, none]
    rfl
  constructor
  · intro id parent linked
    rw [root] at linked
    cases linked
  · intro id above
    exact not_above_of_parent_none (root id) above

/-- Every run of the store keeps the hierarchy. -/
theorem hierarchical_run {start final : Db} {calls : List StoreCall}
    (hierarchical : start.Hierarchical) (runEq : run storeStep start calls = some final) :
    final.Hierarchical := by
  refine run_invariant (fun db call next held stepEq => ?_) hierarchical runEq
  have evolved : ContextsEvolve (fun _ => True) db next := by
    refine storeStep_evolves (fun _ _ _ _ => trivial) ?_ stepEq
    cases call.command <;> trivial
  exact evolved.invariant (fun _ _ held change => held.change change) held

/-- From a store without contexts, whatever commands run, following parent links
never comes back to a context. -/
theorem context_hierarchy_never_revisits {start final : Db} {calls : List StoreCall}
    (fresh : start.contexts = Table.empty) (runEq : run storeStep start calls = some final)
    (id node : ContextId) {early late : Nat} (earlier : early < late)
    (climbed : climb final.contextParent early id = some node) :
    climb final.contextParent late id ≠ some node :=
  (hierarchical_run (Db.Hierarchical.of_empty fresh) runEq).acyclic.climb_ne earlier climbed

/-- A store that knows one kind of contexts. -/
def projectKindStore : Db :=
  { Db.empty 3 with
    contextKinds := Table.empty.upsert ⟨ContextKind.project, "Project", true, true, 0, 0⟩ }

/-- The draft of a top-level project. -/
def projectDraft (id : ContextId) (key : String) : ContextCreateDraft where
  id := id
  kind := ContextKind.project
  key := key
  normalizedKey := key
  displayName := key
  description := none
  ownerPrincipal := "owner"
  guidance := none
  parentId := none
  aliases := []
  identities := []
  resolverHints := []
  confirmDistinctFrom := []
  enforceFuzzyConfirmation := false
  frozen := false

/-- Two projects are created, the second is hung below the first, and the
attempt to hang the first below the second is refused. -/
def nestedProjects : List StoreCall :=
  let audit : ContextAuditDraft := ⟨"owner", "context_create", none, none, none⟩
  [.createContext (projectDraft ⟨1⟩ "atlas") audit, .createContext (projectDraft ⟨2⟩ "borealis") audit,
    .setContextParent ⟨2⟩ (some ⟨1⟩) "owner" audit,
    .setContextParent ⟨1⟩ (some ⟨2⟩) "owner" audit].map fun command => ⟨⟨3, none⟩, 0, command⟩

omit [Host] in
theorem context_hierarchy_never_revisits_nested :
    projectKindStore.contexts = Table.empty ∧
      ∃ final, @run _ _ (@storeStep asciiHost) projectKindStore nestedProjects = some final ∧
        climb final.contextParent 0 ⟨2⟩ = some ⟨2⟩ ∧ climb final.contextParent 1 ⟨2⟩ = some ⟨1⟩ ∧
        climb final.contextParent 1 ⟨2⟩ ≠ some ⟨2⟩ := by
  have ran : ∃ final, @run _ _ (@storeStep asciiHost) projectKindStore nestedProjects =
      some final ∧ climb final.contextParent 1 ⟨2⟩ = some ⟨1⟩ :=
    ⟨_, rfl, rfl⟩
  obtain ⟨final, runEq, below⟩ := ran
  exact ⟨rfl, final, runEq, rfl, below,
    @context_hierarchy_never_revisits asciiHost _ _ _ rfl runEq ⟨2⟩ ⟨2⟩ 0 1 (by decide) rfl⟩

end LocalHold
