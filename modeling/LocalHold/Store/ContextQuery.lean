import LocalHold.Store.ContextWriter
import LocalHold.Transition.Checked

/-!
# Reading governed contexts

The queries of `context_store.rs` behind context resolution: kinds, policies,
exact lookups, and the expansion of a selection through the hierarchy.  The
expansion first selects definitions with recursive queries and then walks their
parents in memory.
-/

namespace LocalHold

open Relational Transition.Checked

/-! ## Kinds and policies -/

/-- `list_context_kinds`. -/
def Db.listContextKinds (db : Db) : List ContextKindDefinition :=
  orderBy (fun first second =>
    (first.builtin && !second.builtin) ||
      (first.builtin == second.builtin && decide (first.kind ≤ second.kind)))
    db.contextKinds.rows

/-- `list_context_kind_policies`: the operator layer and the principal's own. -/
def Db.listContextKindPolicies (db : Db) (principal : String) : List ContextKindPolicyRecord :=
  orderBy (fun first second =>
    (first.layer == .operator && second.layer == .principal) ||
      (first.layer == second.layer && decide (first.kind ≤ second.kind)))
    (db.kindPolicies.select fun row =>
      row.layer == .operator || (row.layer == .principal && row.principal == principal))

/-- `list_context_anchor_policies`: the principal's overrides of active contexts
it can see. -/
def Db.listContextAnchorPolicies (db : Db) (principal : String) :
    List ContextAnchorPolicyRecord :=
  orderBy (fun first second => decide (first.anchorContextId ≤ second.anchorContextId))
    (db.anchorPolicies.select fun row =>
      row.principal == principal &&
        (db.contexts.find? row.anchorContextId).any fun anchor =>
          anchor.context.lifecycle == .active && db.contextVisible anchor.context principal)

theorem Db.mem_listContextKinds {db : Db} {definition : ContextKindDefinition} :
    definition ∈ db.listContextKinds ↔ definition ∈ db.contextKinds := by
  simp [Db.listContextKinds, Table.mem_def]

/-- An anchor override is only listed for a stored context. -/
theorem Db.contains_of_mem_listContextAnchorPolicies {db : Db} {principal : String}
    {record : ContextAnchorPolicyRecord}
    (listed : record ∈ db.listContextAnchorPolicies principal) :
    db.contexts.contains record.anchorContextId = true := by
  simp only [Db.listContextAnchorPolicies, mem_orderBy, Table.mem_select_iff,
    Bool.and_eq_true] at listed
  obtain ⟨_, _, visible⟩ := listed
  cases found : db.contexts.find? record.anchorContextId with
  | none =>
      rw [found] at visible
      cases visible
  | some row => simp [Table.contains, found]

/-! ## Records -/

/-- `fetch_sqlite_context_record`: a definition with its resolver metadata. -/
def Db.fetchContextRecord (db : Db) (context : ContextDefinition) : ContextRecord where
  context := context
  aliases := db.contextAliasTexts context.id
  identities :=
    (orderBy (fun first second =>
      decide (first.identity.scheme < second.identity.scheme) ||
        (first.identity.scheme == second.identity.scheme &&
          (decide (first.identity.identityNamespace.getD "" <
              second.identity.identityNamespace.getD "") ||
            (first.identity.identityNamespace == second.identity.identityNamespace &&
              decide (first.identity.fingerprint ≤ second.identity.fingerprint)))))
      (db.contextIdentities.select fun row => row.contextId == context.id)).map (·.identity)
  hints :=
    (orderBy (fun first second => decide (first.normalizedHint ≤ second.normalizedHint))
      (db.contextHints.select fun row => row.contextId == context.id)).map (·.hint)

/-- `ORDER BY kind, normalized_key, id`. -/
def contextRowBefore (first second : ContextRow) : Bool :=
  decide (first.context.kind < second.context.kind) ||
    (first.context.kind == second.context.kind &&
      (decide (first.normalizedKey < second.normalizedKey) ||
        (first.normalizedKey == second.normalizedKey &&
          decide (first.context.id ≤ second.context.id))))

/-- The visible active contexts of a principal.  `authorized_context_records`
reads `list_context_records` page by page until a page is not full. -/
def Db.authorizedContextRecords (db : Db) (principal : String) : List ContextRecord :=
  (orderBy contextRowBefore (db.contexts.select fun row =>
    db.contextVisible row.context principal && row.context.lifecycle == .active)).map fun row =>
    db.fetchContextRecord row.context

/-- A normalized exact locator. -/
inductive ContextExactLookup where
  | id (id : ContextId)
  | key (kind : Option ContextKind) (normalizedKey : String)
  | identity (kind : ContextKind) (identity : ContextIdentity)
deriving DecidableEq

/-- Whether a stored context answers an exact locator.  A key also matches an
alias. -/
def Db.answersLookup (db : Db) (lookup : ContextExactLookup) (row : ContextRow) : Bool :=
  match lookup with
  | .id id => row.context.id == id
  | .key kind normalizedKey =>
      (kind.all fun expected => row.context.kind == expected) &&
        (row.normalizedKey == normalizedKey ||
          db.contextAliases.rows.any fun entry =>
            entry.contextId == row.context.id && entry.normalizedAlias == normalizedKey)
  | .identity kind identity =>
      row.context.kind == kind &&
        db.contextIdentities.rows.any fun entry =>
          entry.contextId == row.context.id && entry.kind == kind &&
            entry.identity.scheme == identity.scheme &&
            entry.identity.identityNamespace == identity.identityNamespace &&
            entry.identity.fingerprint == identity.fingerprint

/-- `find_context_records`: at most six visible contexts. -/
def Db.findContextRecords (db : Db) (principal : String) (includeArchived : Bool)
    (lookup : ContextExactLookup) : List ContextRecord :=
  ((orderBy contextRowBefore (db.contexts.select fun row =>
    db.contextVisible row.context principal && db.answersLookup lookup row &&
      (includeArchived || row.context.lifecycle == .active))).take 6).map fun row =>
    db.fetchContextRecord row.context

/-- A stored context that a principal may select. -/
def Db.Selectable (db : Db) (principal : String) (context : ContextDefinition) : Prop :=
  (∃ row ∈ db.contexts, row.context = context) ∧ db.contextVisible context principal = true ∧
    context.lifecycle = .active

theorem Db.selectable_of_mem_findContextRecords {db : Db} {principal : String}
    {lookup : ContextExactLookup} {record : ContextRecord}
    (found : record ∈ db.findContextRecords principal false lookup) :
    db.Selectable principal record.context := by
  simp only [Db.findContextRecords, List.mem_map] at found
  obtain ⟨row, taken, rfl⟩ := found
  have selected := mem_orderBy.mp (List.mem_of_mem_take taken)
  simp only [Table.mem_select_iff, Bool.and_eq_true, Bool.false_or, beq_iff_eq] at selected
  exact ⟨⟨row, selected.1, rfl⟩, selected.2.1.1, selected.2.2⟩

theorem Db.selectable_of_mem_authorizedContextRecords {db : Db} {principal : String}
    {record : ContextRecord} (listed : record ∈ db.authorizedContextRecords principal) :
    db.Selectable principal record.context := by
  simp only [Db.authorizedContextRecords, List.mem_map, mem_orderBy] at listed
  obtain ⟨row, selected, rfl⟩ := listed
  simp only [Table.mem_select_iff, Bool.and_eq_true, beq_iff_eq] at selected
  exact ⟨⟨row, selected.1, rfl⟩, selected.2.1, selected.2.2⟩

/-! ## Expansion through the hierarchy -/

/-- The identifiers of all stored contexts. -/
def Db.contextIds (db : Db) : List ContextId :=
  db.contexts.rows.map (·.context.id)

/-- The join of `descendants`: a visible child of a selected context. -/
def Db.visibleChild (db : Db) (principal : String) (parent child : ContextId) : Bool :=
  (db.contexts.find? child).any fun row =>
    row.context.parentId == some parent && db.contextVisible row.context principal

/-- The join of `effective`: the visible parent of a selected context. -/
def Db.visibleParent (db : Db) (principal : String) (child parent : ContextId) : Bool :=
  db.contextParent child == some parent &&
    (db.contexts.find? parent).any fun row => db.contextVisible row.context principal

/-- Whether a stored context is active. -/
def Db.isActive (db : Db) (id : ContextId) : Bool :=
  (db.contexts.find? id).any fun row => row.context.lifecycle == .active

/-- The `effective` query: the selection, its descendants on request, and the
contexts above them. -/
def Db.effectiveIds (db : Db) (contextIds : List ContextId) (principal : String)
    (includeDescendants : Bool) : List ContextId :=
  recursiveUnion db.contextIds (db.visibleParent principal)
    (recursiveUnion db.contextIds
      (fun parent child => includeDescendants && db.visibleChild principal parent child)
      contextIds)

/-- The `selected_effective` query: a bounded number of active contexts with the
contexts above them. -/
def Db.selectedEffectiveIds (db : Db) (contextIds : List ContextId) (principal : String)
    (includeDescendants : Bool) : List ContextId :=
  recursiveUnion db.contextIds (db.visibleParent principal)
    (((db.effectiveIds contextIds principal includeDescendants).filter db.isActive).take
      (maxEffectiveContexts + 1))

/-- The definitions that the expansion works on. -/
def Db.expansionDefinitions (db : Db) (contextIds : List ContextId) (principal : String)
    (includeDescendants : Bool) : List ContextDefinition :=
  let selected := db.selectedEffectiveIds contextIds principal includeDescendants
  (orderBy contextRowBefore (db.contexts.select fun row =>
    decide (row.context.id ∈ selected))).map (·.context)

/-- The definition of an identifier among the selected ones. -/
def definitionById (definitions : List ContextDefinition) (id : ContextId) :
    Option ContextDefinition :=
  definitions.find? fun context => context.id = id

/-- The parent of an identifier among the selected definitions. -/
def definitionParent (definitions : List ContextDefinition) (id : ContextId) :
    Option ContextId :=
  (definitionById definitions id).bind (·.parentId)

/-- The error of a walk that meets a context twice. -/
def hierarchyCycle : StoreError :=
  .conflict "context hierarchy contains a cycle"

/-- The error of a selection that is not available. -/
def contextNotGranted (id : ContextId) : StoreError :=
  .notFound ("context not found, archived, or not granted: " ++ id.display)

/-- The error of a selection that is archived. -/
def contextArchived (id : ContextId) : StoreError :=
  .conflict ("context " ++ id.display ++ " is archived and cannot be selected")

/-- The ancestor walk above a direct context, returning the active contexts it
passes.  Every context met is the parent of a definition, so a walk longer than
the definitions has met one twice. -/
def activeAncestors (definitions : List ContextDefinition) (direct : ContextId) :
    Nat → List ContextId → Option ContextId → Except StoreError (List ContextDefinition)
  | _, _, none => .ok []
  | 0, _, some _ => .error hierarchyCycle
  | fuel + 1, ancestors, some parentId =>
      if parentId ∈ ancestors then .error hierarchyCycle
      else
        match definitionById definitions parentId with
        | none => .error (.conflict ("context " ++ direct.display ++
            " references unavailable parent " ++ parentId.display))
        | some parent => do
            let above ← activeAncestors definitions direct fuel (parentId :: ancestors)
              parent.parentId
            return if parent.lifecycle = .active then parent :: above else above

/-- A direct context followed by its active ancestors. -/
def directWithAncestors (definitions : List ContextDefinition) (directId : ContextId) :
    Except StoreError (List ContextDefinition) :=
  match definitionById definitions directId with
  | none => .error (contextNotGranted directId)
  | some direct => do
      ensure (direct.lifecycle == .active) (contextArchived directId)
      let above ← activeAncestors definitions directId (definitions.length + 1) []
        direct.parentId
      return direct :: above

/-- Whether a parent walk reaches one of the direct contexts. -/
def reachesDirect (definitions : List ContextDefinition) (directIds : List ContextId) :
    Nat → List ContextId → Option ContextId → Except StoreError Bool
  | _, _, none => .ok false
  | 0, _, some _ => .error hierarchyCycle
  | fuel + 1, visited, some parentId =>
      if parentId ∈ visited then .error hierarchyCycle
      else if parentId ∈ directIds then .ok true
      else reachesDirect definitions directIds fuel (parentId :: visited)
        (definitionParent definitions parentId)

/-- A candidate that lies below a direct context. -/
def descendantCandidate (definitions : List ContextDefinition) (directIds : List ContextId)
    (candidate : ContextDefinition) : Except StoreError (Option ContextDefinition) := do
  let below ← reachesDirect definitions directIds (definitions.length + 1) []
    candidate.parentId
  return if below then some candidate else none

/-- `append_context_once`. -/
def appendContextOnce (result : List ContextDefinition) (context : ContextDefinition) :
    List ContextDefinition :=
  if result.any fun included => included.id = context.id then result else result ++ [context]

/-- The active definitions of a list. -/
def activeDefinitions (definitions : List ContextDefinition) : List ContextDefinition :=
  definitions.filter fun context => context.lifecycle == .active

/-- The active definitions below a direct context, where descendants are asked
for. -/
def requestedDescendants (definitions : List ContextDefinition) (directIds : List ContextId)
    (includeDescendants : Bool) : Except StoreError (List ContextDefinition) :=
  if includeDescendants then
    (activeDefinitions definitions).filterMapM (descendantCandidate definitions directIds)
  else
    .ok []

/-- `expand_context_definitions`. -/
def expandContextDefinitions (definitions : List ContextDefinition) (directIds : List ContextId)
    (includeDescendants : Bool) : Except StoreError (List ContextDefinition) := do
  ensure (decide ((activeDefinitions definitions).length ≤ maxEffectiveContexts))
    (.conflict ("context selection expands beyond the maximum of " ++
      toString maxEffectiveContexts ++ " effective contexts"))
  let chains ← directIds.mapM (directWithAncestors definitions)
  let below ← requestedDescendants definitions directIds includeDescendants
  return (chains.flatten ++ below).foldl appendContextOnce []

/-- The checks on each selected context. -/
def Db.requireSelectable (db : Db) (principal : String) (id : ContextId) :
    Except StoreError Unit :=
  match db.fetchContextAuthorized id principal with
  | none => .error (contextNotGranted id)
  | some context => ensure (context.lifecycle == .active) (contextArchived id)

/-- `expand_context_selection`. -/
def Db.expandContextSelection (db : Db) (contextIds : List ContextId) (principal : String)
    (includeDescendants : Bool) : Except StoreError (List ContextDefinition) := do
  let _ ← contextIds.mapM (db.requireSelectable principal)
  expandContextDefinitions (db.expansionDefinitions contextIds principal includeDescendants)
    contextIds includeDescendants

end LocalHold
