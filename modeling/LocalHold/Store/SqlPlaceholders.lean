import LocalHold.Store.SqlText

/-!
# Placeholders are in step with their values

Every filter and every update has a list of templates, one for each clause, that
says which values the clause was built from.  The builders number these templates
one after another.
-/

namespace LocalHold

open Coding

/-! ## Builders follow their templates -/

section Follows

variable {ν α : Type} {builder : ClauseBuilder ν} {start : Nat} {templates : List (Template ν)}

/-- The clauses are the templates numbered from a start, with their values and the
next number. -/
structure ClauseBuilder.Follows (builder : ClauseBuilder ν) (start : Nat)
    (templates : List (Template ν)) : Prop where
  clauses : builder.clauses = Template.numbered start templates
  values : builder.values = Template.allValues templates
  nextIdx : builder.nextIdx = start + (Template.allValues templates).length

/-- The template of an option that is set. -/
def templateSome (value : Option α) (before after : String) (encode : α → ν) :
    List (Template ν) :=
  value.toList.map fun value => ⟨before, [encode value], after⟩

/-- The template of an option that lists something. -/
def templateListed (value : Option (List α)) (before after : String) (encode : α → ν) :
    List (Template ν) :=
  (value.filter fun items => !items.isEmpty).toList.map fun items =>
    ⟨before, items.map encode, after⟩

/-- The template of a fixed clause under a condition. -/
def templateWhen (condition : Bool) (clause : String) : List (Template ν) :=
  if condition then [⟨clause, [], ""⟩] else []

theorem follows_new (start : Nat) : (ClauseBuilder.new start : ClauseBuilder ν).Follows start [] :=
  ⟨rfl, rfl, rfl⟩

/-- A pushed clause with its values is one more template. -/
theorem ClauseBuilder.Follows.append (follows : builder.Follows start templates)
    (template : Template ν) :
    (ClauseBuilder.mk (builder.clauses ++ [template.text builder.nextIdx])
      (builder.values ++ template.values) (builder.nextIdx + template.values.length)).Follows start
        (templates ++ [template]) := by
  constructor
  · rw [Template.numbered_append, follows.clauses, follows.nextIdx]
    rfl
  · rw [Template.allValues_append, follows.values, Template.allValues_cons,
      Template.allValues_nil, List.append_nil]
  · rw [Template.allValues_append, List.length_append, Template.allValues_cons,
      Template.allValues_nil, List.append_nil, follows.nextIdx, Nat.add_assoc]

theorem ClauseBuilder.Follows.push (follows : builder.Follows start templates)
    (before after : String) (value : ν) :
    (builder.push before after value).Follows start (templates ++ [⟨before, [value], after⟩]) := by
  have appended := follows.append ⟨before, [value], after⟩
  rw [Template.text, List.length_singleton, placeholderList, List.range'_one, List.map_singleton,
    String.intercalate_singleton] at appended
  exact appended

theorem ClauseBuilder.Follows.pushLiteral (follows : builder.Follows start templates)
    (clause : String) :
    (builder.pushLiteral clause).Follows start (templates ++ [⟨clause, [], ""⟩]) := by
  have appended := follows.append ⟨clause, [], ""⟩
  have plain : (⟨clause, [], ""⟩ : Template ν).text builder.nextIdx = clause := by
    rw [Template.text, placeholderList]
    simp
  rw [plain, List.append_nil] at appended
  exact appended

theorem ClauseBuilder.Follows.pushList (follows : builder.Follows start templates)
    (before after : String) (items : List ν) :
    (builder.pushList before after items).Follows start
      (templates ++ [⟨before, items, after⟩]) := by
  have appended := follows.append ⟨before, items, after⟩
  rw [Template.text, placeholderList, List.range'_eq_map_range, List.map_map] at appended
  exact appended

theorem ClauseBuilder.Follows.pushSome (follows : builder.Follows start templates)
    (value : Option α) (before after : String) (encode : α → ν) :
    (builder.pushSome value before after encode).Follows start
      (templates ++ templateSome value before after encode) := by
  cases value with
  | none =>
      rw [templateSome, Option.toList_none, List.map_nil, List.append_nil]
      exact follows
  | some value => exact follows.push before after (encode value)

theorem ClauseBuilder.Follows.pushListed (follows : builder.Follows start templates)
    (value : Option (List α)) (before after : String) (encode : α → ν) :
    (builder.pushListed value before after encode).Follows start
      (templates ++ templateListed value before after encode) := by
  cases value with
  | none =>
      rw [templateListed, Option.filter_none, Option.toList_none, List.map_nil, List.append_nil]
      exact follows
  | some items =>
      cases items with
      | nil =>
          rw [templateListed, Option.filter_some, if_neg (by simp), Option.toList_none,
            List.map_nil, List.append_nil]
          exact follows
      | cons item items => exact follows.pushList before after ((item :: items).map encode)

theorem ClauseBuilder.Follows.pushWhen (follows : builder.Follows start templates)
    (condition : Bool) (clause : String) :
    (builder.pushWhen condition clause).Follows start
      (templates ++ templateWhen condition clause) := by
  cases condition with
  | true => exact follows.pushLiteral clause
  | false =>
      rw [templateWhen, if_neg (by decide), List.append_nil]
      exact follows

end Follows

/-! ## The templates of filters and updates -/

/-- The clauses of a filter, each with the values it was built from. -/
def filterTemplates [Host] (filter : MemoryFilter) (caller : Option String) (now : Instant) :
    List (Template String) :=
  [⟨"(expires_at IS NULL OR expires_at > ", [Host.toRfc3339 now], ")"⟩] ++
    templateSome (filter.timeRange.bind (·.after)) "created_at >= " "" Host.toRfc3339 ++
    templateSome (filter.timeRange.bind (·.before)) "created_at < " "" Host.toRfc3339 ++
    templateSome filter.agentLabel "json_extract(provenance, '$.source_agent') = " "" id ++
    templateSome filter.scope "json_extract(provenance, '$.source_conversation') = " "" id ++
    templateSome filter.originScope
      ("COALESCE(json_extract(provenance, '$.origin_conversation'), " ++
        "json_extract(provenance, '$.source_conversation')) = ") "" id ++
    templateListed filter.scopesAny
      "json_extract(provenance, '$.source_conversation') IN (" ")" id ++
    templateWhen filter.contextIds.isSome governedClause ++
    templateSome (filter.contextIds.filter fun contextIds => !contextIds.isEmpty)
      "NOT EXISTS (
                        SELECT 1
                        FROM memory_contexts AS attached_membership
                        JOIN contexts AS attached_context
                          ON attached_context.id = attached_membership.context_id
                        WHERE attached_membership.memory_id = memories.id
                          AND attached_context.lifecycle = 'active'
                          AND NOT EXISTS (
                              SELECT 1
                              FROM memory_contexts AS compatible_membership
                              JOIN contexts AS compatible_context
                                ON compatible_context.id = compatible_membership.context_id
                              WHERE compatible_membership.memory_id = memories.id
                                AND compatible_context.kind = attached_context.kind
                                AND compatible_context.lifecycle = 'active'
                                AND compatible_membership.context_id IN (
                                    SELECT CAST(value AS TEXT) FROM json_each("
      ")
                                )
                          )
                    )" contextIdsJson ++
    templateSome (filter.legacyContextIdsAny.filter fun contextIds => !contextIds.isEmpty)
      "memories.id IN (
                    SELECT legacy_membership.memory_id
                    FROM memory_contexts AS legacy_membership INDEXED BY idx_memory_contexts_context
                    JOIN contexts AS legacy_context
                      ON legacy_context.id = legacy_membership.context_id
                    WHERE legacy_membership.context_id IN (
                        SELECT CAST(value AS TEXT) FROM json_each("
      ")
                    )
                      AND legacy_context.lifecycle = 'active'
                )" contextIdsJson ++
    templateSome filter.textSearch "content LIKE " " ESCAPE '\\'" searchPattern ++
    templateSome filter.hasEmbedding "has_embedding = " "" (fun wanted =>
      if wanted then "1" else "0") ++
    templateListed filter.tags
      "EXISTS (SELECT 1 FROM json_each(tags) AS t WHERE t.value IN (" "))" id ++
    templateSome filter.memoryType "memory_type = " "" MemoryType.display ++
    templateWhen (!filter.includeSuperseded.getD false) "superseded_by IS NULL" ++
    templateSome filter.entity
      ("EXISTS (SELECT 1 FROM memory_entities me WHERE me.memory_id = memories.id " ++
        "AND me.entity = ") ")" id ++
    templateListed filter.entitiesAny
      ("EXISTS (SELECT 1 FROM memory_entities me WHERE me.memory_id = memories.id " ++
        "AND me.entity IN (") "))" id ++
    templateSome filter.entityType
      ("EXISTS (SELECT 1 FROM memory_entities me WHERE me.memory_id = memories.id " ++
        "AND me.entity_type = ") ")" id ++
    templateWhen caller.isNone "json_extract(access_policy, '$.type') = 'public'"

theorem fromFilter_follows [Host] (filter : MemoryFilter) (caller : Option String) (start : Nat)
    (now : Instant) :
    (WhereClause.fromFilter filter caller start now).Follows start
      (filterTemplates filter caller now) :=
  (follows_new start).push _ _ _
    |>.pushSome _ _ _ _ |>.pushSome _ _ _ _ |>.pushSome _ _ _ _ |>.pushSome _ _ _ _
    |>.pushSome _ _ _ _ |>.pushListed _ _ _ _ |>.pushWhen _ _ |>.pushSome _ _ _ _
    |>.pushSome _ _ _ _ |>.pushSome _ _ _ _ |>.pushSome _ _ _ _ |>.pushListed _ _ _ _
    |>.pushSome _ _ _ _ |>.pushWhen _ _ |>.pushSome _ _ _ _ |>.pushListed _ _ _ _
    |>.pushSome _ _ _ _ |>.pushWhen _ _

/-- The assignments of an update, each with the value it was built from. -/
def updateTemplates [Host] (update : MemoryUpdate) (now : Instant) : List (Template SqlValue) :=
  templateSome update.content "content = " "" SqlValue.text ++
    templateWhen update.content.isSome "has_embedding = 0" ++
    templateWhen update.content.isSome "embedding_revision = embedding_revision + 1" ++
    templateWhen update.content.isSome "embedding_claimed_at = NULL" ++
    templateWhen update.content.isSome "embedding_claim_token = NULL" ++
    templateSome update.tags "tags = " "" (fun tags => SqlValue.json (.array (tags.map .string))) ++
    templateSome update.accessPolicy "access_policy = " "" (fun policy =>
      SqlValue.json policy.document) ++
    templateSome update.importance "importance = " "" SqlValue.score ++
    templateSome update.expiresAt "expires_at = " "" (fun expiresAt =>
      match expiresAt with
      | none => SqlValue.null
      | some value => SqlValue.text (Host.toRfc3339 value)) ++
    templateSome update.confidence "confidence = " "" SqlValue.score ++
    templateSome update.sourceConversation
      "provenance = json_set(provenance, '$.source_conversation', " ")" SqlValue.text ++
    templateSome (update.content.map fun _ => now) "updated_at = " "" (fun now =>
      SqlValue.text (Host.toRfc3339 now)) ++
    templateWhen update.hasColumnUpdates "record_revision = record_revision + 1"

theorem buildSetClause_follows [Host] (update : MemoryUpdate) (now : Instant) :
    (buildSetClause update now).Follows 1 (updateTemplates update now) :=
  (follows_new 1).pushSome _ _ _ _
    |>.pushWhen _ _ |>.pushWhen _ _ |>.pushWhen _ _ |>.pushWhen _ _ |>.pushSome _ _ _ _
    |>.pushSome _ _ _ _ |>.pushSome _ _ _ _ |>.pushSome _ _ _ _ |>.pushSome _ _ _ _
    |>.pushSome _ _ _ _ |>.pushSome _ _ _ _ |>.pushWhen _ _

-- The texts of the statements are long lists of letters.
set_option maxRecDepth 8000

/-! ## Fixed text -/

section Plain

variable {ν α : Type} {templates : List (Template ν)}

/-- Fixed text has no placeholder and starts with no digit. -/
def isFixedText (text : String) : Bool :=
  decide ('?' ∉ text.toList) && decide (StartsPlain text.toList)

theorem plain_of_isFixedText {before after : String} (values : List ν)
    (beforeFixed : isFixedText before = true) (afterFixed : isFixedText after = true) :
    (Template.mk before values after).Plain := by
  rw [isFixedText, Bool.and_eq_true, decide_eq_true_eq, decide_eq_true_eq]
    at beforeFixed afterFixed
  exact ⟨beforeFixed.1, afterFixed.1, afterFixed.2⟩

/-- The same test on the letters of a text. -/
def isFixedLetters (letters : List Char) : Bool :=
  letters.all (fun letter => letter != '?') && decide (StartsPlain letters)

theorem isFixedText_ofList {letters : List Char} (fixed : isFixedLetters letters = true) :
    isFixedText (String.ofList letters) = true := by
  rw [isFixedLetters, Bool.and_eq_true, List.all_eq_true] at fixed
  rw [isFixedText, String.toList_ofList, Bool.and_eq_true, decide_eq_true_eq]
  exact ⟨fun placed => bne_iff_ne.mp (fixed.1 '?' placed) rfl, fixed.2⟩

theorem filled_ofList {letters : List Char} (filled : letters ≠ []) :
    (String.ofList letters).toList ≠ [] := by
  rw [String.toList_ofList]
  exact filled

theorem isFixedText_empty : isFixedText "" = true :=
  isFixedText_ofList (by decide)

theorem isFixedText_append {first second : String} (firstFixed : isFixedText first = true)
    (secondFixed : isFixedText second = true) : isFixedText (first ++ second) = true := by
  rw [isFixedText, Bool.and_eq_true, decide_eq_true_eq, decide_eq_true_eq]
    at firstFixed secondFixed ⊢
  rw [String.toList_append]
  refine ⟨fun member => ?_, ?_⟩
  · rcases List.mem_append.mp member with inFirst | inSecond
    · exact firstFixed.1 inFirst
    · exact secondFixed.1 inSecond
  · by_cases empty : first.toList = []
    · rw [empty]
      exact secondFixed.2
    · exact startsPlain_append _ empty firstFixed.2

theorem isFixedText_intercalate {separator : String} {texts : List String}
    (separatorFixed : isFixedText separator = true)
    (fixed : ∀ text ∈ texts, isFixedText text = true) :
    isFixedText (separator.intercalate texts) = true := by
  induction texts with
  | nil =>
      rw [String.intercalate_nil]
      exact isFixedText_empty
  | cons first texts inductionHypothesis =>
      rw [List.forall_mem_cons] at fixed
      cases texts with
      | nil =>
          rw [String.intercalate_singleton]
          exact fixed.1
      | cons second texts =>
          rw [String.intercalate_cons_cons]
          exact isFixedText_append (isFixedText_append fixed.1 separatorFixed)
            (inductionHypothesis fixed.2)

/-- Every template has fixed text around its placeholders. -/
def AllPlain (templates : List (Template ν)) : Prop :=
  ∀ template ∈ templates, template.Plain

theorem AllPlain.addSome (plain : AllPlain templates) {before after : String} (value : Option α)
    (encode : α → ν) (beforeFixed : isFixedText before = true)
    (afterFixed : isFixedText after = true) :
    AllPlain (templates ++ templateSome value before after encode) := by
  refine List.forall_mem_append.mpr ⟨plain, ?_⟩
  cases value with
  | none => exact List.forall_mem_nil _
  | some value =>
      exact List.forall_mem_singleton.mpr (plain_of_isFixedText _ beforeFixed afterFixed)

theorem AllPlain.addListed (plain : AllPlain templates) {before after : String}
    (value : Option (List α)) (encode : α → ν) (beforeFixed : isFixedText before = true)
    (afterFixed : isFixedText after = true) :
    AllPlain (templates ++ templateListed value before after encode) := by
  refine List.forall_mem_append.mpr ⟨plain, ?_⟩
  rw [templateListed]
  cases value.filter fun items => !items.isEmpty with
  | none => exact List.forall_mem_nil _
  | some items =>
      exact List.forall_mem_singleton.mpr (plain_of_isFixedText _ beforeFixed afterFixed)

theorem AllPlain.addWhen (plain : AllPlain templates) {clause : String} (condition : Bool)
    (fixed : isFixedText clause = true) :
    AllPlain (templates ++ templateWhen condition clause) := by
  refine List.forall_mem_append.mpr ⟨plain, ?_⟩
  cases condition with
  | true => exact List.forall_mem_singleton.mpr (plain_of_isFixedText [] fixed isFixedText_empty)
  | false => exact List.forall_mem_nil _

end Plain

theorem isFixedText_governedClause : isFixedText governedClause = true := by
  unfold governedClause
  exact isFixedText_ofList (by decide)

theorem allPlain_filterTemplates [Host] (filter : MemoryFilter) (caller : Option String)
    (now : Instant) : AllPlain (filterTemplates filter caller now) := by
  have first : AllPlain
      [⟨"(expires_at IS NULL OR expires_at > ", [Host.toRfc3339 now], ")"⟩] :=
    List.forall_mem_singleton.mpr (plain_of_isFixedText _
      (isFixedText_ofList (by decide)) (isFixedText_ofList (by decide)))
  exact first
    |>.addSome _ _ (isFixedText_ofList (by decide)) isFixedText_empty
    |>.addSome _ _ (isFixedText_ofList (by decide)) isFixedText_empty
    |>.addSome _ _ (isFixedText_ofList (by decide)) isFixedText_empty
    |>.addSome _ _ (isFixedText_ofList (by decide)) isFixedText_empty
    |>.addSome _ _ (isFixedText_append (isFixedText_ofList (by decide))
      (isFixedText_ofList (by decide))) isFixedText_empty
    |>.addListed _ _ (isFixedText_ofList (by decide))
      (isFixedText_ofList (by decide))
    |>.addWhen _ isFixedText_governedClause
    |>.addSome _ _ (isFixedText_ofList (by decide)) (isFixedText_ofList (by decide))
    |>.addSome _ _ (isFixedText_ofList (by decide)) (isFixedText_ofList (by decide))
    |>.addSome _ _ (isFixedText_ofList (by decide)) (isFixedText_ofList (by decide))
    |>.addSome _ _ (isFixedText_ofList (by decide)) isFixedText_empty
    |>.addListed _ _ (isFixedText_ofList (by decide))
      (isFixedText_ofList (by decide))
    |>.addSome _ _ (isFixedText_ofList (by decide)) isFixedText_empty
    |>.addWhen _ (isFixedText_ofList (by decide))
    |>.addSome _ _ (isFixedText_append (isFixedText_ofList (by decide))
      (isFixedText_ofList (by decide))) (isFixedText_ofList (by decide))
    |>.addListed _ _ (isFixedText_append (isFixedText_ofList (by decide))
      (isFixedText_ofList (by decide))) (isFixedText_ofList (by decide))
    |>.addSome _ _ (isFixedText_append (isFixedText_ofList (by decide))
      (isFixedText_ofList (by decide))) (isFixedText_ofList (by decide))
    |>.addWhen _ (isFixedText_ofList (by decide))

theorem allPlain_updateTemplates [Host] (update : MemoryUpdate) (now : Instant) :
    AllPlain (updateTemplates update now) := by
  have none : AllPlain ([] : List (Template SqlValue)) := List.forall_mem_nil _
  exact none
    |>.addSome _ _ (isFixedText_ofList (by decide)) isFixedText_empty
    |>.addWhen _ (isFixedText_ofList (by decide))
    |>.addWhen _ (isFixedText_ofList (by decide))
    |>.addWhen _ (isFixedText_ofList (by decide))
    |>.addWhen _ (isFixedText_ofList (by decide))
    |>.addSome _ _ (isFixedText_ofList (by decide)) isFixedText_empty
    |>.addSome _ _ (isFixedText_ofList (by decide)) isFixedText_empty
    |>.addSome _ _ (isFixedText_ofList (by decide)) isFixedText_empty
    |>.addSome _ _ (isFixedText_ofList (by decide)) isFixedText_empty
    |>.addSome _ _ (isFixedText_ofList (by decide)) isFixedText_empty
    |>.addSome _ _ (isFixedText_ofList (by decide)) (isFixedText_ofList (by decide))
    |>.addSome _ _ (isFixedText_ofList (by decide)) isFixedText_empty
    |>.addWhen _ (isFixedText_ofList (by decide))

/-! ## Placeholders of the statements -/

section Statements

variable [Host] (filter : MemoryFilter) (caller : Option String) (now : Instant)

/-- The values of a filter. -/
def filterValues : List String :=
  Template.allValues (filterTemplates filter caller now)

variable {filter caller now}

omit [Host] in
theorem fixed_letters {text : String} (fixed : isFixedText text = true) :
    '?' ∉ text.toList ∧ StartsPlain text.toList := by
  rw [isFixedText, Bool.and_eq_true, decide_eq_true_eq, decide_eq_true_eq] at fixed
  exact fixed

omit [Host] in
/-- Fixed text in front has no placeholder. -/
theorem placeholders_fixed {text : String} (fixed : isFixedText text = true) (rest : List Char) :
    placeholders (text.toList ++ rest) = placeholders rest :=
  placeholders_append_of_free (fixed_letters fixed).1 rest

omit [Host] in
/-- A placeholder that fixed text follows. -/
theorem placeholders_placeholder_fixed (index : Nat) {text : String}
    (fixed : isFixedText text = true) (filled : text.toList ≠ []) (rest : List Char) :
    placeholders ((placeholder index).toList ++ (text.toList ++ rest)) =
      index :: placeholders rest := by
  rw [placeholders_placeholder index (startsPlain_append rest filled (fixed_letters fixed).2),
    placeholders_fixed fixed]

theorem filterTemplates_ne_nil : filterTemplates filter caller now ≠ [] := by
  unfold filterTemplates
  iterate 18 refine List.append_ne_nil_of_left_ne_nil ?_ _
  exact List.cons_ne_nil _ _

/-- The placeholders of a `WHERE` clause. -/
theorem placeholders_toWhereSql (start : Nat) {rest : List Char} (plain : StartsPlain rest) :
    placeholders ((WhereClause.fromFilter filter caller start now).toWhereSql.toList ++ rest) =
      List.range' start (filterValues filter caller now).length ++ placeholders rest := by
  have follows := fromFilter_follows filter caller start now
  have filled : (WhereClause.fromFilter filter caller start now).clauses.isEmpty = false := by
    rw [follows.clauses]
    have length := Template.length_numbered start (filterTemplates filter caller now)
    cases numberedEq : Template.numbered start (filterTemplates filter caller now) with
    | nil =>
        rw [numberedEq] at length
        exact absurd (List.length_eq_zero_iff.mp length.symm) filterTemplates_ne_nil
    | cons => rfl
  rw [WhereClause.toWhereSql, filled, if_neg (by decide), follows.clauses, String.toList_append,
    List.append_assoc, placeholders_fixed (isFixedText_ofList (by decide)),
    Template.placeholders_intercalate (allPlain_filterTemplates filter caller now) (by decide)
      (by decide) (by decide) start plain]
  rfl

/-- The placeholders of a `WHERE` clause behind one that was given. -/
theorem placeholders_toWhereSqlWithExtra (start : Nat) (extra : Template String)
    (extraPlain : extra.Plain) (extraValues : start = 1 + extra.values.length) {rest : List Char}
    (plain : StartsPlain rest) :
    placeholders (((WhereClause.fromFilter filter caller start now).toWhereSqlWithExtra
        (some (extra.text 1))).toList ++ rest) =
      List.range' 1 (extra.values.length + (filterValues filter caller now).length) ++
        placeholders rest := by
  have follows := fromFilter_follows filter caller start now
  have joined : extra.text 1 :: (WhereClause.fromFilter filter caller start now).clauses =
      Template.numbered 1 (extra :: filterTemplates filter caller now) := by
    rw [Template.numbered, ← extraValues, follows.clauses]
  have allPlain : AllPlain (extra :: filterTemplates filter caller now) :=
    List.forall_mem_cons.mpr ⟨extraPlain, allPlain_filterTemplates filter caller now⟩
  rw [WhereClause.toWhereSqlWithExtra, joined, String.toList_append, List.append_assoc,
    placeholders_fixed (isFixedText_ofList (by decide)),
    Template.placeholders_intercalate allPlain (by decide) (by decide) (by decide) 1 plain,
    Template.allValues_cons, List.length_append]
  rfl

theorem length_bindParams (start : Nat) (extraParams : List String) (limit offset : Int) :
    ((WhereClause.fromFilter filter caller start now).bindParams extraParams limit offset).length =
      extraParams.length + (filterValues filter caller now).length + 2 := by
  have follows := fromFilter_follows filter caller start now
  rw [WhereClause.bindParams, follows.values, List.length_append, List.length_append,
    List.length_map, List.length_map]
  rfl

/-- The placeholders of a statement are numbered from one, in order, and there are
as many as bound values. -/
def BoundStatement.Aligned (statement : BoundStatement) : Prop :=
  placeholders statement.sql.toList = List.range' 1 statement.bindings.length

omit [Host] in
theorem placeholders_last (index : Nat) :
    placeholders (placeholder index).toList = [index] := by
  have last := @placeholders_placeholder index [] nofun
  rw [List.append_nil] at last
  exact last

omit [Host] in
theorem range'_append_pair (start count : Nat) :
    List.range' start count ++ [start + count, start + count + 1] =
      List.range' start (count + 2) := by
  rw [← List.range'_append_1]
  rfl

omit [Host] in
/-- The end of a page statement. -/
theorem placeholders_page {ordering : String} (fixed : isFixedText ordering = true)
    (index : Nat) :
    placeholders (ordering.toList ++ ((placeholder index).toList ++
      (" OFFSET ".toList ++ (placeholder (index + 1)).toList))) = [index, index + 1] := by
  rw [placeholders_fixed fixed, placeholders_placeholder_fixed index
    (isFixedText_ofList (by decide)) (by decide), placeholders_last]

omit [Host] in
theorem isFixedText_memoryColumns : isFixedText memoryColumns = true :=
  isFixedText_intercalate (isFixedText_ofList (by decide))
    (List.all_eq_true.mp (by decide +kernel))

omit [Host] in
theorem isFixedText_prefixedColumns : isFixedText prefixedColumns = true :=
  isFixedText_intercalate (isFixedText_ofList (by decide))
    (List.all_eq_true.mp (by decide +kernel))

omit [Host] in
/-- A page statement around a `WHERE` clause with the placeholders up to a count. -/
theorem placeholders_pagedScan {whereSql : String} {count : Nat}
    (counted : ∀ rest, StartsPlain rest →
      placeholders (whereSql.toList ++ rest) = List.range' 1 count ++ placeholders rest) :
    placeholders ("SELECT " ++ memoryColumns ++ " FROM memories" ++ whereSql ++
        " ORDER BY created_at DESC, id DESC LIMIT " ++ placeholder (1 + count) ++ " OFFSET " ++
        placeholder (1 + count + 1)).toList = List.range' 1 (count + 2) := by
  have ordering : isFixedText " ORDER BY created_at DESC, id DESC LIMIT " = true :=
    isFixedText_ofList (by decide)
  simp only [String.toList_append, List.append_assoc]
  rw [placeholders_fixed (isFixedText_ofList (by decide)),
    placeholders_fixed isFixedText_memoryColumns,
    placeholders_fixed (isFixedText_ofList (by decide)),
    counted _ (startsPlain_append _ (filled_ofList (List.cons_ne_nil _ _))
      (fixed_letters ordering).2),
    placeholders_page ordering, range'_append_pair]

/-- The statement of a list, page by page. -/
theorem aligned_listStatement (pageSize offset : Int) :
    (listStatement filter caller now pageSize offset).Aligned := by
  have next : (WhereClause.fromFilter filter caller 1 now).nextIdx =
      1 + (filterValues filter caller now).length :=
    (fromFilter_follows filter caller 1 now).nextIdx
  unfold BoundStatement.Aligned listStatement pagedScanStatement
  dsimp only [WhereClause.toWhereSqlWithExtra, List.length_nil, Nat.reduceAdd]
  rw [next, placeholders_pagedScan fun rest => placeholders_toWhereSql 1, length_bindParams,
    List.length_nil, Nat.zero_add]

/-- The statement of a text search, page by page. -/
theorem aligned_textSearchStatement (query : String) (pageSize offset : Int) :
    (textSearchStatement query filter caller now pageSize offset).Aligned := by
  have follows := fromFilter_follows filter caller 2 now
  have extraPlain : (Template.mk "content LIKE " [searchPattern query] " ESCAPE '\\'").Plain :=
    plain_of_isFixedText _ (isFixedText_ofList (by decide))
      (isFixedText_ofList (by decide))
  have extraText : (Template.mk "content LIKE " [searchPattern query] " ESCAPE '\\'").text 1 =
      "content LIKE " ++ placeholder 1 ++ " ESCAPE '\\'" := by
    rw [Template.text, List.length_singleton, placeholderList, List.range'_one, List.map_singleton,
      String.intercalate_singleton]
  have counted : ∀ rest, StartsPlain rest → placeholders
      (((WhereClause.fromFilter filter caller 2 now).toWhereSqlWithExtra
        (some ("content LIKE " ++ placeholder 1 ++ " ESCAPE '\\'"))).toList ++ rest) =
          List.range' 1 (1 + (filterValues filter caller now).length) ++ placeholders rest := by
    intro rest plain
    rw [← extraText]
    exact placeholders_toWhereSqlWithExtra 2 _ extraPlain rfl plain
  have next : (WhereClause.fromFilter filter caller 2 now).nextIdx =
      1 + (1 + (filterValues filter caller now).length) := by
    rw [follows.nextIdx, ← Nat.add_assoc]
    rfl
  unfold BoundStatement.Aligned textSearchStatement pagedScanStatement
  dsimp only [List.length_singleton, Nat.reduceAdd]
  rw [next, placeholders_pagedScan counted, length_bindParams, List.length_singleton]

/-- The statement of a full-text search, page by page. -/
theorem aligned_ftsSearchStatement (ftsQuery : String) (pageSize offset : Int) :
    (ftsSearchStatement ftsQuery filter caller now pageSize offset).Aligned := by
  have next : (WhereClause.fromFilter filter caller 2 now).nextIdx =
      2 + (filterValues filter caller now).length :=
    (fromFilter_follows filter caller 2 now).nextIdx
  have ordering : isFixedText ") ORDER BY fts.rank, m.created_at DESC, m.id DESC LIMIT " = true :=
    isFixedText_ofList (by decide)
  unfold BoundStatement.Aligned ftsSearchStatement
  simp only [String.toList_append, List.append_assoc]
  rw [placeholders_fixed (isFixedText_ofList (by decide)),
    placeholders_fixed isFixedText_prefixedColumns,
    placeholders_fixed (isFixedText_ofList (by decide)),
    placeholders_fixed (isFixedText_ofList (by decide)),
    placeholders_placeholder_fixed 1 (isFixedText_ofList (by decide))
      (filled_ofList (List.cons_ne_nil _ _)),
    placeholders_toWhereSql 2 (startsPlain_append _ (filled_ofList (List.cons_ne_nil _ _))
      (fixed_letters ordering).2),
    placeholders_page ordering, next, length_bindParams, List.length_singleton,
    range'_append_pair, Nat.add_assoc, Nat.add_comm 1]
  rfl

omit [Host] in
theorem isFixedText_nearestRows : isFixedText nearestRows = true := by
  unfold nearestRows
  exact isFixedText_ofList (by decide)

omit [Host] in
theorem isFixedText_candidateRows : isFixedText candidateRows = true := by
  unfold candidateRows
  exact isFixedText_ofList (by decide)

omit [Host] in
theorem isFixedText_byDistance : isFixedText byDistance = true := by
  unfold byDistance
  exact isFixedText_ofList (by decide)

omit [Host] in
theorem isFixedText_nearestMemories : isFixedText nearestMemories = true := by
  unfold nearestMemories
  exact isFixedText_ofList (by decide)

omit [Host] in
theorem candidateRows_filled : candidateRows.toList ≠ [] := by
  unfold candidateRows
  exact filled_ofList (List.cons_ne_nil _ _)

omit [Host] in
theorem byDistance_filled : byDistance.toList ≠ [] := by
  unfold byDistance
  exact filled_ofList (List.cons_ne_nil _ _)

omit [Host] in
theorem nearestMemories_filled : nearestMemories.toList ≠ [] := by
  unfold nearestMemories
  exact filled_ofList (List.cons_ne_nil _ _)

/-- The statement of a filtered vector search. -/
theorem aligned_filteredEmbeddingSearchStatement (embedding : List Component)
    (candidateLimit : Int) :
    (filteredEmbeddingSearchStatement embedding filter caller now candidateLimit).Aligned := by
  have follows := fromFilter_follows filter caller 2 now
  have next : (WhereClause.fromFilter filter caller 2 now).nextIdx =
      2 + (filterValues filter caller now).length := follows.nextIdx
  unfold BoundStatement.Aligned filteredEmbeddingSearchStatement
  simp only [String.toList_append, List.append_assoc]
  rw [placeholders_fixed isFixedText_nearestRows,
    placeholders_placeholder_fixed 1 isFixedText_candidateRows candidateRows_filled,
    placeholders_toWhereSql 2 (startsPlain_append _ byDistance_filled
      (fixed_letters isFixedText_byDistance).2),
    placeholders_fixed isFixedText_byDistance, next,
    ← List.append_nil nearestMemories.toList,
    placeholders_placeholder_fixed _ isFixedText_nearestMemories nearestMemories_filled,
    follows.values, List.cons_append, List.length_cons, List.length_append, List.length_map,
    List.length_singleton, List.range'_succ, ← List.range'_append_1]
  rfl

/-- The row statement of an update. -/
theorem aligned_updateStatement (id : String) (update : MemoryUpdate) :
    (updateStatement id update now).Aligned := by
  have follows := buildSetClause_follows update now
  unfold BoundStatement.Aligned updateStatement
  dsimp only
  split
  · dsimp only
    split
    · rw [String.toList_append, placeholders_fixed (isFixedText_ofList (by decide)),
        placeholders_last]
      rfl
    · rw [String.toList_append, String.toList_append, List.append_assoc,
        placeholders_fixed (isFixedText_ofList (by decide)),
        placeholders_placeholder 1 (by decide)]
      rfl
  · dsimp only
    rw [follows.clauses]
    simp only [String.toList_append, List.append_assoc]
    rw [placeholders_fixed (isFixedText_ofList (by decide)),
      Template.placeholders_intercalate (allPlain_updateTemplates update now) (by decide)
        (by decide) (by decide) 1 (startsPlain_append _ (by decide) (by decide)),
      placeholders_fixed (isFixedText_ofList (by decide)), placeholders_last,
      follows.values, follows.nextIdx, List.length_append, ← List.range'_append_1]
    rfl

end Statements

end LocalHold
