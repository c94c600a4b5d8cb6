import LocalHold.Store.SqlPlaceholders

/-!
# What a statement binds and what its text depends on

The values at the numbers of a clause are those that the clause was built from, and
the text of a statement depends on which options are set and how long their lists
are, not on the values.
-/

namespace LocalHold

open Coding

/-! ## Values of the clauses -/

section Values

set_option maxRecDepth 8000

variable [Host] {filter : MemoryFilter} {caller : Option String} {now : Instant}

omit [Host] in
theorem infix_intercalate {separator : String} {texts : List String} {text : String}
    (member : text ∈ texts) : text.toList <:+: (separator.intercalate texts).toList := by
  induction texts with
  | nil => cases member
  | cons first texts inductionHypothesis =>
      cases texts with
      | nil =>
          rw [List.mem_singleton.mp member, String.intercalate_singleton]
      | cons second texts =>
          rw [String.intercalate_cons_cons, String.toList_append, String.toList_append]
          rcases List.mem_cons.mp member with rfl | later
          · rw [List.append_assoc]
            exact List.infix_append' [] _ _
          · exact (inductionHypothesis later).trans (List.suffix_append _ _).isInfix

/-- Every template stands in the statement with its number, and the values at these
numbers are the ones that it was built from. -/
def BoundStatement.Binds {ν : Type} (statement : BoundStatement) (start : Nat)
    (templates : List (Template ν)) (bind : ν → SqlValue) : Prop :=
  ∀ earlier template later, templates = earlier ++ template :: later →
    (template.text (start + (Template.allValues earlier).length)).toList <:+:
        statement.sql.toList ∧
      (statement.bindings.drop (start - 1 + (Template.allValues earlier).length)).take
        template.values.length = template.values.map bind

omit [Host] in
/-- The values of numbered templates, behind the values that are numbered before. -/
theorem binds_of_layout {ν : Type} {statement : BoundStatement} {start : Nat}
    {templates : List (Template ν)} {bind : ν → SqlValue} {separator : String}
    {front back : List SqlValue}
    (written : (separator.intercalate (Template.numbered start templates)).toList <:+:
      statement.sql.toList)
    (bound : statement.bindings = front ++ ((Template.allValues templates).map bind ++ back))
    (numbered : start = front.length + 1) : statement.Binds start templates bind := by
  rintro earlier template later rfl
  constructor
  · refine (infix_intercalate ?_).trans written
    rw [Template.numbered_append, Template.numbered]
    exact List.mem_append_right _ List.mem_cons_self
  · rw [bound, numbered, Nat.add_sub_cancel, ← List.drop_drop, List.drop_left,
      Template.allValues_append, Template.allValues_cons, List.map_append, List.append_assoc,
      List.map_append]
    have length : ((Template.allValues earlier).map bind).length =
        (Template.allValues earlier).length := List.length_map bind
    have valuesLength : (template.values.map bind).length = template.values.length :=
      List.length_map bind
    rw [← length, List.drop_left, List.append_assoc, ← valuesLength, List.take_left]

omit [Host] in
theorem infix_before {part : List Char} {front : String} (back : String)
    (inside : part <:+: front.toList) : part <:+: (front ++ back).toList := by
  rw [String.toList_append]
  exact inside.trans (List.prefix_append _ _).isInfix

omit [Host] in
theorem infix_behind {part : List Char} {back : String} (front : String)
    (inside : part <:+: back.toList) : part <:+: (front ++ back).toList := by
  rw [String.toList_append]
  exact inside.trans (List.suffix_append _ _).isInfix

/-- The clauses of a filter in a `WHERE` clause. -/
theorem clauses_in_toWhereSql (start : Nat) :
    (" AND ".intercalate (Template.numbered start (filterTemplates filter caller now))).toList <:+:
      (WhereClause.fromFilter filter caller start now).toWhereSql.toList := by
  rw [WhereClause.toWhereSql]
  split
  · next empty =>
      rw [← (fromFilter_follows filter caller start now).clauses, List.isEmpty_iff.mp empty]
      exact List.nil_infix
  · rw [(fromFilter_follows filter caller start now).clauses]
    exact infix_behind _ List.infix_rfl

theorem clauses_in_toWhereSqlWithExtra (start : Nat) (extraWhere : Option String) :
    (" AND ".intercalate (Template.numbered start (filterTemplates filter caller now))).toList <:+:
      ((WhereClause.fromFilter filter caller start now).toWhereSqlWithExtra
        extraWhere).toList := by
  cases extraWhere with
  | none => exact clauses_in_toWhereSql start
  | some extra =>
      rw [WhereClause.toWhereSqlWithExtra, (fromFilter_follows filter caller start now).clauses]
      refine infix_behind _ ?_
      cases Template.numbered start (filterTemplates filter caller now) with
      | nil => exact List.nil_infix
      | cons first rest =>
          rw [String.intercalate_cons_cons]
          exact infix_behind _ List.infix_rfl

theorem binds_pagedScanStatement (extraWhere : Option String) (extraParams : List String)
    (pageSize offset : Int) :
    (pagedScanStatement filter caller now extraWhere extraParams pageSize offset).Binds
      (extraParams.length + 1) (filterTemplates filter caller now) .text := by
  have follows := fromFilter_follows filter caller (extraParams.length + 1) now
  refine @binds_of_layout _ _ _ _ _ " AND " (extraParams.map .text)
    [.integer pageSize, .integer offset] ?_ ?_ ?_
  · unfold pagedScanStatement
    exact infix_before _ (infix_before _ (infix_before _ (infix_before _
      (infix_behind _ (clauses_in_toWhereSqlWithExtra _ extraWhere)))))
  · unfold pagedScanStatement
    dsimp only
    rw [WhereClause.bindParams, follows.values, List.append_assoc]
  · rw [List.length_map]

theorem binds_ftsSearchStatement (ftsQuery : String) (pageSize offset : Int) :
    (ftsSearchStatement ftsQuery filter caller now pageSize offset).Binds 2
      (filterTemplates filter caller now) .text := by
  have follows := fromFilter_follows filter caller 2 now
  refine @binds_of_layout _ _ _ _ _ " AND " [.text ftsQuery]
    [.integer pageSize, .integer offset] ?_ ?_ rfl
  · unfold ftsSearchStatement
    exact infix_before _ (infix_before _ (infix_before _ (infix_before _
      (infix_behind _ (clauses_in_toWhereSql 2)))))
  · unfold ftsSearchStatement
    dsimp only
    rw [WhereClause.bindParams, follows.values, List.append_assoc, List.map_singleton]

theorem binds_filteredEmbeddingSearchStatement (embedding : List Component)
    (candidateLimit : Int) :
    (filteredEmbeddingSearchStatement embedding filter caller now candidateLimit).Binds 2
      (filterTemplates filter caller now) .text := by
  have follows := fromFilter_follows filter caller 2 now
  refine @binds_of_layout _ _ _ _ _ " AND " [.blob embedding] [.integer candidateLimit] ?_ ?_ rfl
  · unfold filteredEmbeddingSearchStatement
    exact infix_before _ (infix_before _ (infix_before _
      (infix_behind _ (clauses_in_toWhereSql 2))))
  · unfold filteredEmbeddingSearchStatement
    dsimp only
    rw [follows.values, List.cons_append, List.singleton_append]

theorem binds_updateStatement (id : String) (update : MemoryUpdate) :
    (updateStatement id update now).Binds 1 (updateTemplates update now) fun value => value := by
  have follows := buildSetClause_follows update now
  cases emptyEq : (buildSetClause update now).clauses.isEmpty with
  | true =>
      have none : updateTemplates update now = [] := by
        have length := Template.length_numbered 1 (updateTemplates update now)
        rw [← follows.clauses, List.isEmpty_iff.mp emptyEq] at length
        exact List.length_eq_zero_iff.mp length.symm
      intro earlier template later split
      rw [none] at split
      simp at split
  | false =>
      refine @binds_of_layout _ _ _ _ _ ", " [] [.text id] ?_ ?_ rfl
      · unfold updateStatement
        dsimp only
        rw [emptyEq, if_neg (by decide), follows.clauses]
        exact infix_before _ (infix_before _ (infix_behind _ List.infix_rfl))
      · unfold updateStatement
        dsimp only
        rw [emptyEq, if_neg (by decide), follows.values, List.nil_append, List.map_id']

/-- A placeholder behind fixed text that is bound to a value. -/
def BoundStatement.BindsBehind (statement : BoundStatement) (before : String) (value : SqlValue) :
    Prop :=
  ∃ index, (before ++ placeholder (index + 1)).toList <:+: statement.sql.toList ∧
    statement.bindings[index]? = some value

omit [Host] in
theorem infix_last (front before mark : String) :
    (before ++ mark).toList <:+: (front ++ before ++ mark).toList := by
  rw [String.append_assoc]
  exact infix_behind front List.infix_rfl

omit [Host] in
theorem getElem?_behind {α : Type} {front back : List α} {value : α} {index : Nat}
    (length : front.length = index) : (front ++ value :: back)[index]? = some value := by
  rw [← length, List.getElem?_append_right (Nat.le_refl _), Nat.sub_self]
  rfl

/-- The limit and the offset of a page. -/
theorem bindsBehind_pagedScanStatement (extraWhere : Option String) (extraParams : List String)
    (pageSize offset : Int) :
    (pagedScanStatement filter caller now extraWhere extraParams pageSize offset).BindsBehind
        " ORDER BY created_at DESC, id DESC LIMIT " (.integer pageSize) ∧
      (pagedScanStatement filter caller now extraWhere extraParams pageSize offset).BindsBehind
        " OFFSET " (.integer offset) := by
  have follows := fromFilter_follows filter caller (extraParams.length + 1) now
  have next : (WhereClause.fromFilter filter caller (extraParams.length + 1) now).nextIdx =
      extraParams.length + (filterValues filter caller now).length + 1 := by
    rw [follows.nextIdx, filterValues]
    omega
  unfold pagedScanStatement
  dsimp only
  constructor
  · refine ⟨extraParams.length + (filterValues filter caller now).length, ?_, ?_⟩
    · rw [next]
      exact infix_before _ (infix_before _ (infix_last _ _ _))
    · dsimp only
      rw [WhereClause.bindParams, follows.values]
      exact getElem?_behind (by rw [List.length_append, List.length_map, List.length_map]; rfl)
  · refine ⟨extraParams.length + (filterValues filter caller now).length + 1, ?_, ?_⟩
    · rw [next]
      exact infix_last _ _ _
    · dsimp only
      rw [WhereClause.bindParams, follows.values, List.append_cons]
      exact getElem?_behind (by
        rw [List.length_append, List.length_append, List.length_map, List.length_map]; rfl)

/-- The pattern of a text search. -/
theorem bindsBehind_textSearchStatement (query : String) (pageSize offset : Int) :
    (textSearchStatement query filter caller now pageSize offset).BindsBehind "content LIKE "
      (.text (searchPattern query)) := by
  refine ⟨0, ?_, rfl⟩
  unfold textSearchStatement pagedScanStatement
  dsimp only
  refine infix_before _ (infix_before _ (infix_before _ (infix_before _ (infix_behind _ ?_))))
  rw [WhereClause.toWhereSqlWithExtra]
  refine infix_behind _ ?_
  cases (WhereClause.fromFilter filter caller ([searchPattern query].length + 1) now).clauses with
  | nil =>
      rw [String.intercalate_singleton]
      exact infix_before _ List.infix_rfl
  | cons first rest =>
      rw [String.intercalate_cons_cons]
      exact infix_before _ (infix_before _ (infix_before _ List.infix_rfl))

/-- The query, the limit and the offset of a full-text search. -/
theorem bindsBehind_ftsSearchStatement (ftsQuery : String) (pageSize offset : Int) :
    (ftsSearchStatement ftsQuery filter caller now pageSize offset).BindsBehind
        "JOIN memories m ON m.rowid = fts.rowid WHERE memory_fts MATCH " (.text ftsQuery) ∧
      (ftsSearchStatement ftsQuery filter caller now pageSize offset).BindsBehind
        ") ORDER BY fts.rank, m.created_at DESC, m.id DESC LIMIT " (.integer pageSize) ∧
      (ftsSearchStatement ftsQuery filter caller now pageSize offset).BindsBehind
        " OFFSET " (.integer offset) := by
  have follows := fromFilter_follows filter caller 2 now
  have next : (WhereClause.fromFilter filter caller 2 now).nextIdx =
      (filterValues filter caller now).length + 1 + 1 := by
    rw [follows.nextIdx, filterValues]
    omega
  unfold ftsSearchStatement
  dsimp only
  refine ⟨⟨0, ?_, rfl⟩, ⟨(filterValues filter caller now).length + 1, ?_, ?_⟩,
    ⟨(filterValues filter caller now).length + 1 + 1, ?_, ?_⟩⟩
  · exact infix_before _ (infix_before _ (infix_before _ (infix_before _ (infix_before _
      (infix_before _ (infix_last _ _ _))))))
  · rw [next]
    exact infix_before _ (infix_before _ (infix_last _ _ _))
  · dsimp only
    rw [WhereClause.bindParams, follows.values]
    exact getElem?_behind (by
      rw [List.length_append, List.length_map, List.length_map, Nat.add_comm]; rfl)
  · rw [next]
    exact infix_last _ _ _
  · dsimp only
    rw [WhereClause.bindParams, follows.values, List.append_cons]
    exact getElem?_behind (by
      rw [List.length_append, List.length_append, List.length_map, List.length_map,
        List.length_singleton, List.length_singleton, Nat.add_comm 1]
      rfl)

/-- The embedding and the limit of a vector search. -/
theorem bindsBehind_filteredEmbeddingSearchStatement (embedding : List Component)
    (candidateLimit : Int) :
    (filteredEmbeddingSearchStatement embedding filter caller now candidateLimit).BindsBehind
        nearestRows (.blob embedding) ∧
      (filteredEmbeddingSearchStatement embedding filter caller now candidateLimit).BindsBehind
        byDistance (.integer candidateLimit) := by
  have follows := fromFilter_follows filter caller 2 now
  have next : (WhereClause.fromFilter filter caller 2 now).nextIdx =
      (filterValues filter caller now).length + 1 + 1 := by
    rw [follows.nextIdx, filterValues]
    omega
  unfold filteredEmbeddingSearchStatement
  dsimp only
  refine ⟨⟨0, ?_, rfl⟩, ⟨(filterValues filter caller now).length + 1, ?_, ?_⟩⟩
  · exact infix_before _ (infix_before _ (infix_before _ (infix_before _
      (infix_before _ List.infix_rfl))))
  · rw [next]
    exact infix_before _ (infix_last _ _ _)
  · dsimp only
    rw [follows.values]
    exact getElem?_behind (by rw [List.length_cons, List.length_map]; rfl)

/-- The memory of an update. -/
theorem bindsBehind_updateStatement (id : String) (update : MemoryUpdate) :
    ∃ before, (updateStatement id update now).BindsBehind before (.text id) ∧
      before ∈ ["UPDATE memories SET record_revision = record_revision + 1 WHERE id = ",
        "SELECT EXISTS(SELECT 1 FROM memories WHERE id = ", " WHERE id = "] := by
  have follows := buildSetClause_follows update now
  unfold updateStatement
  dsimp only
  split
  · split
    · exact ⟨_, ⟨0, List.infix_rfl, rfl⟩, List.mem_cons_self⟩
    · exact ⟨_, ⟨0, infix_before _ List.infix_rfl, rfl⟩,
        List.mem_cons_of_mem _ List.mem_cons_self⟩
  · refine ⟨" WHERE id = ", ⟨(Template.allValues (updateTemplates update now)).length, ?_, ?_⟩,
      List.mem_cons_of_mem _ (List.mem_cons_of_mem _ List.mem_cons_self)⟩
    · rw [follows.nextIdx, Nat.add_comm 1]
      exact infix_last _ _ _
    · rw [follows.values]
      exact getElem?_behind rfl

end Values

/-! ## Shapes -/

section Outlines

variable {ν α β : Type} {left right : List (Template ν)}

/-- The templates have the same fixed text and as many values. -/
def SameOutlines (left right : List (Template ν)) : Prop :=
  left.map (fun template => (template.before, template.after, template.values.length)) =
    right.map fun template => (template.before, template.after, template.values.length)

theorem numbered_eq_of_sameOutlines (same : SameOutlines left right) (start : Nat) :
    Template.numbered start left = Template.numbered start right := by
  induction left generalizing right start with
  | nil =>
      cases right with
      | nil => rfl
      | cons => cases same
  | cons first left inductionHypothesis =>
      cases right with
      | nil => cases same
      | cons second right =>
          obtain ⟨outlines, rests⟩ := List.cons.inj same
          obtain ⟨befores, others⟩ := Prod.mk.inj outlines
          obtain ⟨afters, lengths⟩ := Prod.mk.inj others
          rw [Template.numbered, Template.numbered, Template.text, Template.text, befores, afters,
            lengths, inductionHypothesis rests]

theorem sameOutlines_append {left' right' : List (Template ν)} (same : SameOutlines left right)
    (same' : SameOutlines left' right') : SameOutlines (left ++ left') (right ++ right') := by
  rw [SameOutlines, List.map_append, List.map_append, same, same']

theorem SameOutlines.addSome (same : SameOutlines left right) (before after : String)
    (encode : α → ν) {first second : Option α} (set : first.isSome = second.isSome) :
    SameOutlines (left ++ templateSome first before after encode)
      (right ++ templateSome second before after encode) := by
  refine sameOutlines_append same ?_
  cases first with
  | none =>
      cases second with
      | none => rfl
      | some => cases set
  | some =>
      cases second with
      | none => cases set
      | some => rfl

theorem SameOutlines.addListed (same : SameOutlines left right) (before after : String)
    (encode : α → ν) {first second : Option (List α)}
    (lengths : (first.getD []).length = (second.getD []).length) :
    SameOutlines (left ++ templateListed first before after encode)
      (right ++ templateListed second before after encode) := by
  have outlines : ∀ value : Option (List α),
      (templateListed value before after encode).map
          (fun template => (template.before, template.after, template.values.length)) =
        if (value.getD []).length = 0 then [] else [(before, after, (value.getD []).length)] := by
    rintro (_ | _ | ⟨item, items⟩)
    · rfl
    · rfl
    · simp [templateListed]
  refine sameOutlines_append same ?_
  rw [SameOutlines, outlines, outlines, lengths]

theorem SameOutlines.addWhen (same : SameOutlines left right) (clause : String)
    {first second : Bool} (conditions : first = second) :
    SameOutlines (left ++ templateWhen first clause) (right ++ templateWhen second clause) := by
  rw [conditions]
  exact sameOutlines_append same rfl

end Outlines

/-- Two filters set the same options, with lists of the same lengths. -/
structure MemoryFilter.SameShape (first second : MemoryFilter) : Prop where
  after : (first.timeRange.bind (·.after)).isSome = (second.timeRange.bind (·.after)).isSome
  before : (first.timeRange.bind (·.before)).isSome = (second.timeRange.bind (·.before)).isSome
  agentLabel : first.agentLabel.isSome = second.agentLabel.isSome
  scope : first.scope.isSome = second.scope.isSome
  originScope : first.originScope.isSome = second.originScope.isSome
  scopesAny : (first.scopesAny.getD []).length = (second.scopesAny.getD []).length
  contextIds : first.contextIds.isSome = second.contextIds.isSome
  listedContextIds : (first.contextIds.filter fun contextIds => !contextIds.isEmpty).isSome =
    (second.contextIds.filter fun contextIds => !contextIds.isEmpty).isSome
  legacyContextIdsAny :
    (first.legacyContextIdsAny.filter fun contextIds => !contextIds.isEmpty).isSome =
      (second.legacyContextIdsAny.filter fun contextIds => !contextIds.isEmpty).isSome
  textSearch : first.textSearch.isSome = second.textSearch.isSome
  hasEmbedding : first.hasEmbedding.isSome = second.hasEmbedding.isSome
  tags : (first.tags.getD []).length = (second.tags.getD []).length
  memoryType : first.memoryType.isSome = second.memoryType.isSome
  includeSuperseded : first.includeSuperseded.getD false = second.includeSuperseded.getD false
  entity : first.entity.isSome = second.entity.isSome
  entitiesAny : (first.entitiesAny.getD []).length = (second.entitiesAny.getD []).length
  entityType : first.entityType.isSome = second.entityType.isSome

theorem sameOutlines_filterTemplates [Host] {first second : MemoryFilter}
    {firstCaller secondCaller : Option String} {firstNow secondNow : Instant}
    (same : first.SameShape second) (callers : firstCaller.isNone = secondCaller.isNone) :
    SameOutlines (filterTemplates first firstCaller firstNow)
      (filterTemplates second secondCaller secondNow) := by
  have expiry : SameOutlines
      [⟨"(expires_at IS NULL OR expires_at > ", [Host.toRfc3339 firstNow], ")"⟩]
      [⟨"(expires_at IS NULL OR expires_at > ", [Host.toRfc3339 secondNow], ")"⟩] := rfl
  exact expiry
    |>.addSome _ _ _ same.after |>.addSome _ _ _ same.before |>.addSome _ _ _ same.agentLabel
    |>.addSome _ _ _ same.scope |>.addSome _ _ _ same.originScope
    |>.addListed _ _ _ same.scopesAny |>.addWhen _ same.contextIds
    |>.addSome _ _ _ same.listedContextIds |>.addSome _ _ _ same.legacyContextIdsAny
    |>.addSome _ _ _ same.textSearch |>.addSome _ _ _ same.hasEmbedding
    |>.addListed _ _ _ same.tags |>.addSome _ _ _ same.memoryType
    |>.addWhen _ (congrArg (! ·) same.includeSuperseded) |>.addSome _ _ _ same.entity
    |>.addListed _ _ _ same.entitiesAny |>.addSome _ _ _ same.entityType |>.addWhen _ callers

/-- Two updates set the same fields. -/
structure MemoryUpdate.SameShape (first second : MemoryUpdate) : Prop where
  content : first.content.isSome = second.content.isSome
  tags : first.tags.isSome = second.tags.isSome
  accessPolicy : first.accessPolicy.isSome = second.accessPolicy.isSome
  importance : first.importance.isSome = second.importance.isSome
  expiresAt : first.expiresAt.isSome = second.expiresAt.isSome
  confidence : first.confidence.isSome = second.confidence.isSome
  sourceConversation : first.sourceConversation.isSome = second.sourceConversation.isSome
  entities : first.entities.isSome = second.entities.isSome

theorem sameOutlines_updateTemplates [Host] {first second : MemoryUpdate}
    {firstNow secondNow : Instant} (same : first.SameShape second) :
    SameOutlines (updateTemplates first firstNow) (updateTemplates second secondNow) := by
  have none : SameOutlines ([] : List (Template SqlValue)) [] := rfl
  have columns : first.hasColumnUpdates = second.hasColumnUpdates := by
    rw [MemoryUpdate.hasColumnUpdates, MemoryUpdate.hasColumnUpdates, same.content, same.tags,
      same.accessPolicy, same.importance, same.expiresAt, same.confidence,
      same.sourceConversation]
  have updated : (first.content.map fun _ => firstNow).isSome =
      (second.content.map fun _ => secondNow).isSome := by
    rw [Option.isSome_map, Option.isSome_map, same.content]
  exact none
    |>.addSome _ _ _ same.content |>.addWhen _ same.content |>.addWhen _ same.content
    |>.addWhen _ same.content |>.addWhen _ same.content |>.addSome _ _ _ same.tags
    |>.addSome _ _ _ same.accessPolicy |>.addSome _ _ _ same.importance
    |>.addSome _ _ _ same.expiresAt |>.addSome _ _ _ same.confidence
    |>.addSome _ _ _ same.sourceConversation |>.addSome _ _ _ updated |>.addWhen _ columns

/-! ## The statements -/

theorem length_allValues_eq_of_sameOutlines {ν : Type} {left right : List (Template ν)}
    (same : SameOutlines left right) :
    (Template.allValues left).length = (Template.allValues right).length := by
  induction left generalizing right with
  | nil =>
      cases right with
      | nil => rfl
      | cons => cases same
  | cons first left inductionHypothesis =>
      cases right with
      | nil => cases same
      | cons second right =>
          obtain ⟨outlines, rests⟩ := List.cons.inj same
          obtain ⟨-, others⟩ := Prod.mk.inj outlines
          obtain ⟨-, lengths⟩ := Prod.mk.inj others
          rw [Template.allValues_cons, Template.allValues_cons, List.length_append,
            List.length_append, lengths, inductionHypothesis rests]

/-- The clauses and the next number do not depend on the values. -/
theorem fromFilter_sameText [Host] {first second : MemoryFilter}
    {firstCaller secondCaller : Option String} (same : first.SameShape second)
    (callers : firstCaller.isNone = secondCaller.isNone) (start : Nat)
    (firstNow secondNow : Instant) :
    (WhereClause.fromFilter first firstCaller start firstNow).clauses =
        (WhereClause.fromFilter second secondCaller start secondNow).clauses ∧
      (WhereClause.fromFilter first firstCaller start firstNow).nextIdx =
        (WhereClause.fromFilter second secondCaller start secondNow).nextIdx := by
  have firstFollows := fromFilter_follows first firstCaller start firstNow
  have secondFollows := fromFilter_follows second secondCaller start secondNow
  have outlines := @sameOutlines_filterTemplates _ first second firstCaller secondCaller
    firstNow secondNow same callers
  constructor
  · rw [firstFollows.clauses, secondFollows.clauses, numbered_eq_of_sameOutlines outlines]
  · rw [firstFollows.nextIdx, secondFollows.nextIdx, length_allValues_eq_of_sameOutlines outlines]

/-- The text of a statement depends on the shape of the filter and not on its values. -/
theorem filter_statements_sameText [Host] {first second : MemoryFilter}
    {firstCaller secondCaller : Option String} (same : first.SameShape second)
    (callers : firstCaller.isNone = secondCaller.isNone) (firstNow secondNow : Instant)
    (firstSize firstOffset secondSize secondOffset : Int) (firstQuery secondQuery : String)
    (firstEmbedding secondEmbedding : List Component) :
    (listStatement first firstCaller firstNow firstSize firstOffset).sql =
        (listStatement second secondCaller secondNow secondSize secondOffset).sql ∧
      (textSearchStatement firstQuery first firstCaller firstNow firstSize firstOffset).sql =
        (textSearchStatement secondQuery second secondCaller secondNow secondSize
          secondOffset).sql ∧
      (ftsSearchStatement firstQuery first firstCaller firstNow firstSize firstOffset).sql =
        (ftsSearchStatement secondQuery second secondCaller secondNow secondSize
          secondOffset).sql ∧
      (filteredEmbeddingSearchStatement firstEmbedding first firstCaller firstNow firstSize).sql =
        (filteredEmbeddingSearchStatement secondEmbedding second secondCaller secondNow
          secondSize).sql := by
  have texts := fun start => fromFilter_sameText same callers start firstNow secondNow
  refine ⟨?_, ?_, ?_, ?_⟩
  · unfold listStatement pagedScanStatement
    dsimp only [WhereClause.toWhereSqlWithExtra, WhereClause.toWhereSql]
    rw [(texts _).1, (texts _).2]
  · unfold textSearchStatement pagedScanStatement
    dsimp only [WhereClause.toWhereSqlWithExtra, List.length_singleton]
    rw [(texts _).1, (texts _).2]
  · unfold ftsSearchStatement
    dsimp only [WhereClause.toWhereSql]
    rw [(texts _).1, (texts _).2]
  · unfold filteredEmbeddingSearchStatement
    dsimp only [WhereClause.toWhereSql]
    rw [(texts _).1, (texts _).2]

/-- The text of an update depends on which fields are set and not on their values. -/
theorem update_statement_sameText [Host] {first second : MemoryUpdate}
    (same : first.SameShape second) (firstNow secondNow : Instant) (firstId secondId : String) :
    (updateStatement firstId first firstNow).sql =
      (updateStatement secondId second secondNow).sql := by
  have outlines := @sameOutlines_updateTemplates _ first second firstNow secondNow same
  have firstFollows := buildSetClause_follows first firstNow
  have secondFollows := buildSetClause_follows second secondNow
  have clauses :
      (buildSetClause first firstNow).clauses = (buildSetClause second secondNow).clauses := by
    rw [firstFollows.clauses, secondFollows.clauses, numbered_eq_of_sameOutlines outlines]
  have nextIdx :
      (buildSetClause first firstNow).nextIdx = (buildSetClause second secondNow).nextIdx := by
    rw [firstFollows.nextIdx, secondFollows.nextIdx, length_allValues_eq_of_sameOutlines outlines]
  unfold updateStatement
  dsimp only
  rw [clauses, nextIdx, same.entities]
  split
  · rfl
  · rfl

/-- Every statement numbers its placeholders from one and binds as many values; each
clause of the filter or the update stands in it with the numbers of the values that
it was built from, as do the search, the limit, the offset and the id; and its text
depends on the shape of the filter or the update alone. -/
theorem placeholders_in_step [Host] :
    (∀ (filter : MemoryFilter) (caller : Option String) (now : Instant) (size offset : Int)
        (query : String) (embedding : List Component),
      ((listStatement filter caller now size offset).Aligned ∧
          (listStatement filter caller now size offset).Binds 1
            (filterTemplates filter caller now) .text ∧
          (listStatement filter caller now size offset).BindsBehind
            " ORDER BY created_at DESC, id DESC LIMIT " (.integer size) ∧
          (listStatement filter caller now size offset).BindsBehind " OFFSET "
            (.integer offset)) ∧
        ((textSearchStatement query filter caller now size offset).Aligned ∧
          (textSearchStatement query filter caller now size offset).Binds 2
            (filterTemplates filter caller now) .text ∧
          (textSearchStatement query filter caller now size offset).BindsBehind "content LIKE "
            (.text (searchPattern query)) ∧
          (textSearchStatement query filter caller now size offset).BindsBehind
            " ORDER BY created_at DESC, id DESC LIMIT " (.integer size) ∧
          (textSearchStatement query filter caller now size offset).BindsBehind " OFFSET "
            (.integer offset)) ∧
        ((ftsSearchStatement query filter caller now size offset).Aligned ∧
          (ftsSearchStatement query filter caller now size offset).Binds 2
            (filterTemplates filter caller now) .text ∧
          (ftsSearchStatement query filter caller now size offset).BindsBehind
            "JOIN memories m ON m.rowid = fts.rowid WHERE memory_fts MATCH " (.text query) ∧
          (ftsSearchStatement query filter caller now size offset).BindsBehind
            ") ORDER BY fts.rank, m.created_at DESC, m.id DESC LIMIT " (.integer size) ∧
          (ftsSearchStatement query filter caller now size offset).BindsBehind " OFFSET "
            (.integer offset)) ∧
        (filteredEmbeddingSearchStatement embedding filter caller now size).Aligned ∧
        (filteredEmbeddingSearchStatement embedding filter caller now size).Binds 2
          (filterTemplates filter caller now) .text ∧
        (filteredEmbeddingSearchStatement embedding filter caller now size).BindsBehind
          nearestRows (.blob embedding) ∧
        (filteredEmbeddingSearchStatement embedding filter caller now size).BindsBehind
          byDistance (.integer size)) ∧
      (∀ (id : String) (update : MemoryUpdate) (now : Instant),
        (updateStatement id update now).Aligned ∧
          ((updateStatement id update now).Binds 1 (updateTemplates update now) fun value =>
            value) ∧
          ∃ before, (updateStatement id update now).BindsBehind before (.text id) ∧
            before ∈ ["UPDATE memories SET record_revision = record_revision + 1 WHERE id = ",
              "SELECT EXISTS(SELECT 1 FROM memories WHERE id = ", " WHERE id = "]) ∧
      (∀ (first second : MemoryFilter) (firstCaller secondCaller : Option String),
        first.SameShape second → firstCaller.isNone = secondCaller.isNone →
        ∀ (firstNow secondNow : Instant) (firstSize firstOffset secondSize secondOffset : Int)
          (firstQuery secondQuery : String) (firstEmbedding secondEmbedding : List Component),
          (listStatement first firstCaller firstNow firstSize firstOffset).sql =
              (listStatement second secondCaller secondNow secondSize secondOffset).sql ∧
            (textSearchStatement firstQuery first firstCaller firstNow firstSize
                firstOffset).sql =
              (textSearchStatement secondQuery second secondCaller secondNow secondSize
                secondOffset).sql ∧
            (ftsSearchStatement firstQuery first firstCaller firstNow firstSize
                firstOffset).sql =
              (ftsSearchStatement secondQuery second secondCaller secondNow secondSize
                secondOffset).sql ∧
            (filteredEmbeddingSearchStatement firstEmbedding first firstCaller firstNow
                firstSize).sql =
              (filteredEmbeddingSearchStatement secondEmbedding second secondCaller secondNow
                secondSize).sql) ∧
      ∀ (first second : MemoryUpdate), first.SameShape second →
        ∀ (firstNow secondNow : Instant) (firstId secondId : String),
          (updateStatement firstId first firstNow).sql =
            (updateStatement secondId second secondNow).sql := by
  refine ⟨fun filter caller now size offset query embedding => ⟨?_, ?_, ?_, ?_⟩, ?_, ?_, ?_⟩
  · exact ⟨aligned_listStatement size offset, binds_pagedScanStatement none [] size offset,
      bindsBehind_pagedScanStatement none [] size offset⟩
  · exact ⟨aligned_textSearchStatement query size offset,
      binds_pagedScanStatement (some _) [_] size offset,
      bindsBehind_textSearchStatement query size offset,
      bindsBehind_pagedScanStatement (some _) [_] size offset⟩
  · exact ⟨aligned_ftsSearchStatement query size offset,
      binds_ftsSearchStatement query size offset,
      bindsBehind_ftsSearchStatement query size offset⟩
  · exact ⟨aligned_filteredEmbeddingSearchStatement embedding size,
      binds_filteredEmbeddingSearchStatement embedding size,
      bindsBehind_filteredEmbeddingSearchStatement embedding size⟩
  · exact fun id update now => ⟨aligned_updateStatement id update,
      binds_updateStatement id update, bindsBehind_updateStatement id update⟩
  · exact fun first second firstCaller secondCaller same callers firstNow secondNow firstSize
      firstOffset secondSize secondOffset firstQuery secondQuery firstEmbedding secondEmbedding =>
      filter_statements_sameText same callers firstNow secondNow firstSize firstOffset secondSize
        secondOffset firstQuery secondQuery firstEmbedding secondEmbedding
  · exact fun first second same => update_statement_sameText same

/-- A label that reads like a statement leaves the text of a list and of an update as it is. -/
theorem placeholders_in_step_quoted :
    (@listStatement asciiHost { MemoryFilter.default with agentLabel := some "' OR 1 = 1 --" } none
        0 100 0).sql =
      (@listStatement asciiHost { MemoryFilter.default with agentLabel := some "codex" } none
        0 100 0).sql ∧
      (@updateStatement asciiHost "m" { MemoryUpdate.default with content := some "?1" } 0).sql =
        (@updateStatement asciiHost "m" { MemoryUpdate.default with content := some "note" }
          0).sql :=
  ⟨((@placeholders_in_step asciiHost).2.2.1
      { MemoryFilter.default with agentLabel := some "' OR 1 = 1 --" }
      { MemoryFilter.default with agentLabel := some "codex" } none none
      ⟨rfl, rfl, rfl, rfl, rfl, rfl, rfl, rfl, rfl, rfl, rfl, rfl, rfl, rfl, rfl, rfl, rfl⟩ rfl
      0 0 100 0 100 0 "" "" [] []).1,
    (@placeholders_in_step asciiHost).2.2.2 { MemoryUpdate.default with content := some "?1" }
      { MemoryUpdate.default with content := some "note" }
      ⟨rfl, rfl, rfl, rfl, rfl, rfl, rfl, rfl⟩ 0 0 "m" "m"⟩

end LocalHold
