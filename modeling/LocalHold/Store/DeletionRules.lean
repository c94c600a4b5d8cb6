import LocalHold.Store.Footprints

/-!
# Rules for the deletion paths

Every path that deletes memories entombs some of them and writes audit rows.  A
relation that holds across these two statements holds across all of the paths.
-/

namespace LocalHold

open Relational Transition Transition.Txn

variable {relation : Db → Db → Prop} [Std.Refl relation] [IsTrans Db relation]

theorem within_applyDelete
    (entombs : ∀ memory deletedAt deletedBy,
      Within relation (entombMemory memory deletedAt deletedBy))
    (id : MemoryId) (deletedAt : Instant) : Within relation (applyDelete id deletedAt) := by
  refine Within.bind Within.reads fun found => ?_
  cases found with
  | none => exact Within.pure
  | some existing => exact entombs _ _ _

variable
  (entombs : ∀ memory deletedAt deletedBy,
    Within relation (entombMemory memory deletedAt deletedBy))
  (audits : ∀ id draft, Within relation (insertAuditDraft id draft))

include entombs audits

theorem within_deleteAuthorized (id : MemoryId) (principal : String) (audit : Option AuditDraft)
    (deletedAt : Instant) : Within relation (deleteAuthorized id principal audit deletedAt) := by
  refine Within.bind Within.reads fun found => ?_
  cases found with
  | none => exact Within.pure
  | some existing =>
      dsimp only
      split
      · refine Within.bind (entombs _ _ _) fun _ => ?_
        exact Within.bind (Within.onSome fun _ _ => audits _ _) fun _ => Within.pure
      · exact Within.pure

theorem within_deleteAuthorizedIfUnmodified (id : MemoryId) (expectedRevision : Int)
    (principal : String) (audit : AuditDraft) (deletedAt : Instant) :
    Within relation
      (deleteAuthorizedIfUnmodified id expectedRevision principal audit deletedAt) := by
  refine Within.bind Within.reads fun found => ?_
  cases found with
  | none => exact Within.pure
  | some existing =>
      dsimp only
      split
      · refine Within.bind Within.require fun _ => ?_
        refine Within.bind (entombs _ _ _) fun _ => ?_
        refine Within.bind Within.require fun _ => ?_
        exact Within.bind (audits _ _) fun _ => Within.pure
      · exact Within.pure

theorem within_bulkDeleteIds (ids : List MemoryId) (principal : String)
    (audit : Option AuditDraft) (deletedAt : Instant) :
    Within relation (bulkDeleteIds ids principal audit deletedAt) := by
  refine Within.foldlM fun outcome id _ => ?_
  refine Within.bind Within.reads fun found => ?_
  cases found with
  | none => exact Within.pure
  | some memory =>
      dsimp only
      split
      · refine Within.bind (entombs _ _ _) fun _ => ?_
        exact Within.bind (Within.onSome fun _ _ => audits _ _) fun _ => Within.pure
      · exact Within.pure

theorem within_evictExpired [Host] (scope : ExpiredCleanupScope) (audit : AuditDraft)
    (now : Instant) : Within relation (evictExpired scope audit now) := by
  refine Within.bind Within.reads fun _ => ?_
  refine Within.bind (Within.mapM fun row _ => ?_) fun _ => Within.pure
  unfold evictOne
  split
  · exact Within.pure
  · refine Within.bind (entombs _ _ _) fun _ => ?_
    exact Within.bind (Within.onSome fun _ _ => audits _ _) fun _ => Within.pure

end LocalHold
