import Rsap.Library.Replay
import Rsap.Webapp.Sync

/-!
# `Rsap.Proofs.SyncRows`: what a synchronization call does to one row

A call that commits is a list of operations on single rows (`SyncOp`). `run_ops` turns a list of
calls into the list of the operations of its committed calls.

On one row, the upsert of an item is settled by its first delivery, and a resolution does not
undo that: `alert_replayable` and `event_replayable` are the two instances of the library's
`Replayable`. The view of an event leaves out `synced_at`, the time of its last delivery.
-/

set_option autoImplicit false

namespace Rsap.Proofs

open Rsap.Desktop (Uuid Timestamp)
open Rsap.Library
open Rsap.Webapp

/-! ### Operations on rows -/

/-- What one transaction does to one row. -/
inductive SyncOp where
  | store (now : Timestamp) (item : SyncItem)
  | resolve (user : CurrentUser) (alertId : Uuid)

namespace SyncOp

/-- The operation, which does nothing when its transaction would raise. -/
def apply (db : SyncTables) : SyncOp → SyncTables
  | .store now item => db.commit (item.upsert now db)
  | .resolve user alertId => db.commit (resolveAlert user db alertId)

/-- The operation touches the alert of the id. -/
def touchesAlert (id : Uuid) : SyncOp → Bool
  | .store _ (.alert item) => item.id == id
  | .resolve _ alertId => alertId == id
  | _ => false

/-- The operation touches the event of the id. -/
def touchesEvent (id : Uuid) : SyncOp → Bool
  | .store _ (.event item) => item.id == id
  | .store _ (.peopleCount item) => item.id == id
  | _ => false

/-- The operation is a resolution. -/
def isResolve : SyncOp → Bool
  | .resolve _ _ => true
  | .store _ _ => false

/-- The operation stores the item. -/
def Stores (item : SyncItem) : SyncOp → Prop
  | .store _ stored => stored = item
  | .resolve _ _ => False

end SyncOp

/-- The operations of a call. -/
def opsOf (call : SyncCall) : List SyncOp :=
  if call.interrupted then []
  else
    match call.request with
    | .resolve alertId => [.resolve call.user alertId]
    | request => request.items.map (.store call.now)

/-- The operations of the calls that commit. A resolution that raises is a resolution that does
nothing, so it stays in the list. -/
def committedOps : SyncTables → List SyncCall → List SyncOp
  | _, [] => []
  | db, call :: calls =>
    (if call.Commits db ∨ call.request.isResolve then opsOf call else []) ++
      committedOps (db.commit (call.serve db)) calls

/-! ### A run is its operations -/

/-- Upserts that all succeed are the operations in their order. -/
theorem foldlM_upsert {now : Timestamp} {items : List SyncItem} {db db' : SyncTables}
    (h : items.foldlM (SyncItem.upsert now) db = Except.ok db') :
    (items.map (SyncOp.store now)).foldl SyncOp.apply db = db' := by
  induction items generalizing db with
  | nil =>
    cases h
    rfl
  | cons item items ih =>
    rw [List.foldlM_cons] at h
    cases hitem : item.upsert now db with
    | error failure =>
      rw [hitem] at h
      cases h
    | ok next =>
      rw [hitem] at h
      show (items.map (SyncOp.store now)).foldl SyncOp.apply (db.commit (item.upsert now db)) = db'
      rw [hitem]
      exact ih h

/-- A batch that commits is its operations. -/
theorem syncBatch_ops {now : Timestamp} {user : CurrentUser} {db db' : SyncTables}
    {items : List SyncItem} (h : syncBatch now user db items = .ok db') :
    (items.map (SyncOp.store now)).foldl SyncOp.apply db = db' := by
  simp only [syncBatch] at h
  split at h
  · cases h
  · split at h
    · cases h
    · exact foldlM_upsert h

/-- A message that commits is its operation. -/
theorem storeMessage_ops {now : Timestamp} {user : CurrentUser} {db db' : SyncTables}
    {item : SyncItem} (h : storeMessage now user db item = .ok db') :
    ([item].map (SyncOp.store now)).foldl SyncOp.apply db = db' := by
  simp only [storeMessage] at h
  split at h
  · cases h
  · split at h
    · show db.commit (item.upsert now db) = db'
      rw [h]
      rfl
    · cases h

/-- A call that commits has the effect of its operations. -/
theorem serve_ops {db db' : SyncTables} {call : SyncCall} (h : call.serve db = .ok db') :
    (opsOf call).foldl SyncOp.apply db = db' := by
  obtain ⟨user, now, interrupted, request⟩ := call
  simp only [SyncCall.serve] at h
  split at h
  · cases h
  · rename_i hrun
    simp only [opsOf, hrun]
    cases request with
    | events payload => exact syncBatch_ops h
    | alerts payload => exact syncBatch_ops h
    | peopleCount payload => exact syncBatch_ops h
    | message item => exact storeMessage_ops h
    | resolve alertId =>
      show db.commit (resolveAlert user db alertId) = db'
      rw [show resolveAlert user db alertId = .ok db' from h]
      rfl

/-- A call has the effect of the operations that `committedOps` lists for it. -/
theorem commit_ops (db : SyncTables) (call : SyncCall) :
    (if call.Commits db ∨ call.request.isResolve then opsOf call else []).foldl SyncOp.apply db =
      db.commit (call.serve db) := by
  cases hserve : call.serve db with
  | ok db' =>
    have hcommits : call.Commits db := by
      rw [SyncCall.Commits, hserve]
      rfl
    rw [if_pos (.inl hcommits)]
    exact serve_ops hserve
  | error failure =>
    have hraised : ¬ call.Commits db := by
      rw [SyncCall.Commits, hserve]
      exact Bool.false_ne_true
    show _ = db
    -- a resolution that raised has written nothing either
    by_cases hresolve : call.request.isResolve
    · rw [if_pos (.inr hresolve)]
      obtain ⟨user, now, interrupted, request⟩ := call
      cases request with
      | resolve alertId =>
        cases interrupted with
        | true => rfl
        | false =>
          show db.commit (resolveAlert user db alertId) = db
          rw [show resolveAlert user db alertId = .error failure from hserve]
          rfl
      | _ => cases hresolve
    · rw [if_neg (fun h => h.elim hraised hresolve)]
      rfl

/-- A run is the operations of its committed calls. -/
theorem run_ops (db : SyncTables) (calls : List SyncCall) :
    db.run calls = (committedOps db calls).foldl SyncOp.apply db := by
  induction calls generalizing db with
  | nil => rfl
  | cons call calls ih =>
    rw [committedOps, List.foldl_append, commit_ops]
    exact ih _

/-- The operations of a run in two parts. -/
theorem committedOps_append (db : SyncTables) (before after : List SyncCall) :
    committedOps db (before ++ after) =
      committedOps db before ++ committedOps (db.run before) after := by
  induction before generalizing db with
  | nil => rfl
  | cons call before ih =>
    rw [List.cons_append, committedOps, committedOps, ih, List.append_assoc]
    rfl

/-! ### One row -/

section Row
variable {ρ : Type}

/-- The row after an upsert under its id: inserted, updated, or left to the other camera. -/
def upsertRow (camera : ρ → Option Uuid) (cameraId : Uuid) (insert : ρ) (update : ρ → ρ) :
    Option ρ → Option ρ
  | none => some insert
  | some row => if camera row = some cameraId then some (update row) else some row

/-- An upsert that raises leaves the table as it was, which is the update of its row to
itself. -/
theorem upsertAt_commit (table : Uuid → Option ρ) (camera : ρ → Option Uuid) (id cameraId : Uuid)
    (insert : ρ) (update : ρ → ρ) (conflict : String) :
    (match upsertAt table camera id cameraId insert update conflict with
      | .ok table' => table'
      | .error _ => table) =
      Function.update table id (upsertRow camera cameraId insert update (table id)) := by
  cases hrow : table id with
  | none => simp only [upsertAt, hrow, upsertRow]
  | some row =>
    by_cases hcamera : camera row = some cameraId
    · simp only [upsertAt, hrow, upsertRow, hcamera, if_true]
    · simp only [upsertAt, hrow, upsertRow, hcamera, if_false]
      rw [← hrow, Function.update_eq_self]

end Row

/-- The event row after `upsert_event`. -/
def eventRow (now : Timestamp) (item : AnalyticsEventIn) :
    Option AnalyticsEvent → Option AnalyticsEvent :=
  upsertRow AnalyticsEvent.cameraId item.cameraId
    { cameraId := some item.cameraId, eventType := item.eventType, payload := item.payload,
      capturedImageId := item.capturedImageId, syncedAt := some now, createdAt := item.createdAt }
    (fun row => { row with
      payload := item.payload, capturedImageId := item.capturedImageId, syncedAt := some now })

/-- The alert row after `upsert_alert`. -/
def alertRow (item : AlertIn) : Option IntrusionAlert → Option IntrusionAlert :=
  upsertRow IntrusionAlert.cameraId item.cameraId
    { cameraId := some item.cameraId, zoneId := item.zoneId,
      capturedImageId := item.capturedImageId, confidence := item.confidence,
      resolved := item.resolved, createdAt := item.createdAt }
    (fun row => { row with
      capturedImageId := item.capturedImageId, confidence := item.confidence,
      resolved := row.resolved || item.resolved })

/-- The event row after `upsert_people_count`. -/
def countRow (now : Timestamp) (item : PeopleCountIn) (row : Option AnalyticsEvent) :
    Option AnalyticsEvent :=
  if maxInt4 < item.countIn ∨ maxInt4 < item.countOut then row
  else
    upsertRow AnalyticsEvent.cameraId item.cameraId
      { cameraId := some item.cameraId, eventType := "people_count", payload := countPayload item,
        capturedImageId := none, syncedAt := some now, createdAt := item.timestamp }
      (fun row => { row with payload := countPayload item, syncedAt := some now }) row

/-- The user may resolve the alerts of the camera. -/
def mayResolve (db : SyncTables) (user : CurrentUser) (cameraId : Option Uuid) : Bool :=
  cameraId.any fun cameraId =>
    inScope db user cameraId &&
      (authorize user "analytics" "resolve" (some user.id) (some cameraId)).isOk

/-- The alert row after a resolution. -/
def resolvedRow (db : SyncTables) (user : CurrentUser) (row : Option IntrusionAlert) :
    Option IntrusionAlert :=
  row.map fun row => if mayResolve db user row.cameraId then { row with resolved := true } else row

section Apply
variable (db : SyncTables)

/-- An event is written to the row of its id. -/
theorem apply_event (now : Timestamp) (item : AnalyticsEventIn) :
    SyncOp.apply db (.store now (.event item)) =
      { db with
        events := Function.update db.events item.id (eventRow now item (db.events item.id)) } := by
  rw [eventRow, ← upsertAt_commit _ _ _ _ _ _ "Event ID belongs to another camera"]
  show db.commit (Except.map _ _) = _
  split
  · rename_i table h
    rw [h]
    rfl
  · rename_i failure h
    rw [h]
    rfl

/-- An alert is written to the row of its id. -/
theorem apply_alert (now : Timestamp) (item : AlertIn) :
    SyncOp.apply db (.store now (.alert item)) =
      { db with
        alerts := Function.update db.alerts item.id (alertRow item (db.alerts item.id)) } := by
  rw [alertRow, ← upsertAt_commit _ _ _ _ _ _ "Alert ID belongs to another camera"]
  show db.commit (Except.map _ _) = _
  split
  · rename_i table h
    rw [h]
    rfl
  · rename_i failure h
    rw [h]
    rfl

/-- A people count is written to the row of its id. -/
theorem apply_count (now : Timestamp) (item : PeopleCountIn) :
    SyncOp.apply db (.store now (.peopleCount item)) =
      { db with
        events := Function.update db.events item.id (countRow now item (db.events item.id)) } := by
  by_cases hlarge : maxInt4 < item.countIn ∨ maxInt4 < item.countOut
  · show db.commit (upsertPeopleCount now db item) = _
    rw [upsertPeopleCount, if_pos hlarge, countRow, if_pos hlarge, Function.update_eq_self]
    rfl
  · rw [countRow, if_neg hlarge, ← upsertAt_commit _ _ _ _ _ _ "Count ID belongs to another camera"]
    show db.commit (upsertPeopleCount now db item) = _
    rw [upsertPeopleCount, if_neg hlarge]
    split
    · rename_i table h
      rw [h]
      rfl
    · rename_i failure h
      rw [h]
      rfl

/-- Resolving an alert writes its row. -/
theorem apply_resolve (user : CurrentUser) (alertId : Uuid) :
    SyncOp.apply db (.resolve user alertId) =
      { db with
        alerts := Function.update db.alerts alertId
          (resolvedRow db user (db.alerts alertId)) } := by
  show db.commit (resolveAlert user db alertId) = _
  -- a resolution that raises writes the row that is there
  have hself : db = { db with
      alerts := Function.update db.alerts alertId (db.alerts alertId) } := by
    rw [Function.update_eq_self]
  cases hrow : db.alerts alertId with
  | none =>
    rw [hrow] at hself
    simpa only [resolveAlert, hrow, resolvedRow, Option.map_none, SyncTables.commit] using hself
  | some row =>
    rw [hrow] at hself
    cases hcamera : row.cameraId with
    | none =>
      simpa [resolveAlert, hrow, hcamera, resolvedRow, mayResolve, SyncTables.commit] using hself
    | some cameraId =>
      by_cases hscope : inScope db user cameraId
      · cases hauth : authorize user "analytics" "resolve" (some user.id) (some cameraId) with
        | ok permission =>
          simp [resolveAlert, hrow, hcamera, resolvedRow, mayResolve, SyncTables.commit, hscope,
            hauth, Except.map, Except.isOk, Except.toBool]
        | error failure =>
          simpa [resolveAlert, hrow, hcamera, resolvedRow, mayResolve, SyncTables.commit, hscope,
            hauth, Except.map, Except.isOk, Except.toBool] using hself
      · simpa [resolveAlert, hrow, hcamera, resolvedRow, mayResolve, SyncTables.commit, hscope]
          using hself

/-- No operation changes the owners of the cameras. -/
@[simp] theorem apply_cameras (op : SyncOp) : (op.apply db).cameras = db.cameras := by
  rcases op with ⟨now, item | item | item⟩ | ⟨user, alertId⟩
  · rw [apply_event]
  · rw [apply_alert]
  · rw [apply_count]
  · rw [apply_resolve]

/-- An operation on another alert leaves the alert alone. -/
theorem apply_alerts_of_not {id : Uuid} {op : SyncOp} (h : op.touchesAlert id = false) :
    (op.apply db).alerts id = db.alerts id := by
  rcases op with ⟨now, item | item | item⟩ | ⟨user, alertId⟩
  · rw [apply_event]
  · rw [apply_alert]
    exact Function.update_of_ne (Ne.symm (ne_of_beq_false h)) _ _
  · rw [apply_count]
  · rw [apply_resolve]
    exact Function.update_of_ne (Ne.symm (ne_of_beq_false h)) _ _

/-- An operation on another event leaves the event alone. -/
theorem apply_events_of_not {id : Uuid} {op : SyncOp} (h : op.touchesEvent id = false) :
    (op.apply db).events id = db.events id := by
  rcases op with ⟨now, item | item | item⟩ | ⟨user, alertId⟩
  · rw [apply_event]
    exact Function.update_of_ne (Ne.symm (ne_of_beq_false h)) _ _
  · rw [apply_alert]
  · rw [apply_count]
    exact Function.update_of_ne (Ne.symm (ne_of_beq_false h)) _ _
  · rw [apply_resolve]

end Apply

/-! ### Deliveries of one row are replayable -/

/-- The row without the time of its last delivery. -/
def eventContent (event : AnalyticsEvent) : AnalyticsEvent := { event with syncedAt := none }

/-- What the alert of an id depends on. -/
def alertView (id : Uuid) (db : SyncTables) : (Uuid → Option Uuid) × Option IntrusionAlert :=
  (db.cameras, db.alerts id)

/-- The content of the event of an id. -/
def eventView (id : Uuid) (db : SyncTables) : Option AnalyticsEvent :=
  (db.events id).map eventContent

/-- A second delivery of an alert changes nothing. -/
theorem alertRow_again (item : AlertIn) (row : Option IntrusionAlert) :
    alertRow item (alertRow item row) = alertRow item row := by
  cases row with
  | none => simp [alertRow, upsertRow]
  | some row =>
    by_cases hcamera : row.cameraId = some item.cameraId
    · simp [alertRow, upsertRow, hcamera]
    · simp [alertRow, upsertRow, hcamera]

/-- A resolution keeps a delivered alert delivered. -/
theorem alertRow_resolved (db : SyncTables) (user : CurrentUser) {item : AlertIn}
    {row : Option IntrusionAlert} (h : alertRow item row = row) :
    alertRow item (resolvedRow db user row) = resolvedRow db user row := by
  cases row with
  | none => cases h
  | some row =>
    by_cases hmay : mayResolve db user row.cameraId
    · have hresolved : resolvedRow db user (some row) = some { row with resolved := true } := by
        simp [resolvedRow, hmay]
      by_cases hcamera : row.cameraId = some item.cameraId
      · simp only [alertRow, upsertRow, hcamera, if_true, Option.some.injEq] at h
        have himage : item.capturedImageId = row.capturedImageId := by rw [← h]
        have hconfidence : item.confidence = row.confidence := by rw [← h]
        rw [hresolved]
        simp [alertRow, upsertRow, hcamera, himage, hconfidence]
      · rw [hresolved]
        simp [alertRow, upsertRow, hcamera]
    · have hsame : resolvedRow db user (some row) = some row := by simp [resolvedRow, hmay]
      rw [hsame, h]

/-- Whether a user may resolve the alerts of a camera depends on the cameras only. -/
theorem resolvedRow_congr {db db' : SyncTables} (h : db.cameras = db'.cameras) (user : CurrentUser)
    (row : Option IntrusionAlert) : resolvedRow db user row = resolvedRow db' user row := by
  have hmay : ∀ cameraId, mayResolve db user cameraId = mayResolve db' user cameraId := by
    intro cameraId
    simp only [mayResolve, inScope, h]
  simp only [resolvedRow, hmay]

/-- The operations on one alert: deliveries of the item, and resolutions. -/
def OnAlert (item : AlertIn) (op : SyncOp) : Prop :=
  op.Stores (.alert item) ∨ ∃ user, op = .resolve user item.id

/-- The row of an alert after it was stored depends on the row before only. -/
theorem alertView_store (now : Timestamp) (item : AlertIn) (db : SyncTables) :
    alertView item.id (SyncOp.apply db (.store now (.alert item))) =
      (db.cameras, alertRow item (db.alerts item.id)) := by
  rw [apply_alert]
  show (db.cameras, Function.update db.alerts item.id _ item.id) = _
  rw [Function.update_self]

/-- So does the row after it was resolved. -/
theorem alertView_resolve (user : CurrentUser) (id : Uuid) (db : SyncTables) :
    alertView id (SyncOp.apply db (.resolve user id)) =
      (db.cameras, resolvedRow db user (db.alerts id)) := by
  rw [apply_resolve]
  show (db.cameras, Function.update db.alerts id _ id) = _
  rw [Function.update_self]

/-- An operation that stores an item is its `store`. -/
theorem SyncOp.Stores.eq {item : SyncItem} {op : SyncOp} (h : op.Stores item) :
    ∃ now, op = .store now item := by
  cases op with
  | store now stored =>
    cases h
    exact ⟨now, rfl⟩
  | resolve user alertId => cases h

/-- The deliveries of one alert are replayable among its resolutions. -/
theorem alert_replayable (item : AlertIn) :
    Replayable SyncOp.apply (alertView item.id) (OnAlert item) (SyncOp.Stores (.alert item)) where
  -- an operation on the alert reads the cameras and the row
  determined op hop db db' hview := by
    obtain ⟨hcameras, hrow⟩ := Prod.mk.inj hview
    rcases hop with hstore | ⟨user, rfl⟩
    · obtain ⟨now, rfl⟩ := hstore.eq
      rw [alertView_store, alertView_store, hcameras, hrow]
    · rw [alertView_resolve, alertView_resolve, hcameras, hrow, resolvedRow_congr hcameras]
  same d d' db hd hd' := by
    obtain ⟨now, rfl⟩ := hd.eq
    obtain ⟨now', rfl⟩ := hd'.eq
    rw [alertView_store, alertView_store]
  again d db hd := by
    obtain ⟨now, rfl⟩ := hd.eq
    have hfirst := alertView_store now item db
    rw [alertView_store, hfirst, apply_cameras]
    rw [(Prod.mk.inj hfirst).2, alertRow_again]
  -- a row that has taken the delivery once is not changed by it again
  kept d op db hd hop hsettled := by
    obtain ⟨now, rfl⟩ := hd.eq
    rw [alertView_store] at hsettled
    have hrow : alertRow item (db.alerts item.id) = db.alerts item.id := (Prod.mk.inj hsettled).2
    rcases hop with hstore | ⟨user, rfl⟩
    · obtain ⟨now', rfl⟩ := hstore.eq
      have hfirst := alertView_store now' item db
      rw [alertView_store, hfirst, apply_cameras]
      rw [(Prod.mk.inj hfirst).2, alertRow_again]
    · have hfirst := alertView_resolve user item.id db
      rw [alertView_store, hfirst, apply_cameras]
      rw [(Prod.mk.inj hfirst).2, alertRow_resolved db user hrow]

/-- The event row after the delivery of an event or of a people count. -/
def itemRow (now : Timestamp) (item : SyncItem) (row : Option AnalyticsEvent) :
    Option AnalyticsEvent :=
  match item with
  | .event item => eventRow now item row
  | .peopleCount item => countRow now item row
  | .alert _ => row

/-- The item goes to the table of events. -/
def isEvent : SyncItem → Bool
  | .alert _ => false
  | _ => true

/-- The row of an item after it was stored depends on the row before only. -/
theorem events_store {item : SyncItem} (hitem : isEvent item = true) (now : Timestamp)
    (db : SyncTables) :
    (SyncOp.apply db (.store now item)).events item.id = itemRow now item (db.events item.id) := by
  cases item with
  | event item =>
    rw [apply_event]
    exact Function.update_self _ _ _
  | peopleCount item =>
    rw [apply_count]
    exact Function.update_self _ _ _
  | alert item => cases hitem

/-- An upsert takes rows of one content to rows of one content, when its insert and its update
do. -/
theorem upsertRow_content {cameraId : Uuid} {insert insert' : AnalyticsEvent}
    {update update' : AnalyticsEvent → AnalyticsEvent} {row row' : Option AnalyticsEvent}
    (hinsert : eventContent insert = eventContent insert')
    (hupdate : ∀ r r', eventContent r = eventContent r' →
      eventContent (update r) = eventContent (update' r'))
    (h : row.map eventContent = row'.map eventContent) :
    (upsertRow AnalyticsEvent.cameraId cameraId insert update row).map eventContent =
      (upsertRow AnalyticsEvent.cameraId cameraId insert' update' row').map eventContent := by
  cases row with
  | none =>
    cases row' with
    | none => exact congrArg some hinsert
    | some r' => cases h
  | some r =>
    cases row' with
    | none => cases h
    | some r' =>
      have hcontent : eventContent r = eventContent r' := Option.some.inj h
      have hcamera : (eventContent r).cameraId = (eventContent r').cameraId := by rw [hcontent]
      change r.cameraId = r'.cameraId at hcamera
      -- the upsert may touch only a row of the same camera
      by_cases hcase : r.cameraId = some cameraId
      · simp only [upsertRow, hcase, hcamera ▸ hcase, if_true]
        exact congrArg some (hupdate r r' hcontent)
      · simp only [upsertRow, hcase, hcamera ▸ hcase, if_false]
        exact congrArg some hcontent

/-- The content after a delivery depends on the content before it, not on the times. -/
theorem itemRow_congr (now now' : Timestamp) (item : SyncItem) {row row' : Option AnalyticsEvent}
    (h : row.map eventContent = row'.map eventContent) :
    (itemRow now item row).map eventContent = (itemRow now' item row').map eventContent := by
  cases item with
  | event item =>
    refine upsertRow_content rfl ?_ h
    intro r r' hr
    simp only [eventContent, AnalyticsEvent.mk.injEq] at hr ⊢
    simp [hr.1, hr.2.1, hr.2.2.2.2.2]
  | peopleCount item =>
    show (countRow now item row).map eventContent = (countRow now' item row').map eventContent
    by_cases hlarge : maxInt4 < item.countIn ∨ maxInt4 < item.countOut
    · rw [countRow, countRow, if_pos hlarge, if_pos hlarge, h]
    · rw [countRow, countRow, if_neg hlarge, if_neg hlarge]
      refine upsertRow_content rfl ?_ h
      intro r r' hr
      simp only [eventContent, AnalyticsEvent.mk.injEq] at hr ⊢
      simp [hr.1, hr.2.1, hr.2.2.2.1, hr.2.2.2.2.2]
  | alert item => exact h

/-- A second delivery changes nothing. -/
theorem itemRow_again (now : Timestamp) (item : SyncItem) (row : Option AnalyticsEvent) :
    itemRow now item (itemRow now item row) = itemRow now item row := by
  cases item with
  | event item =>
    cases row with
    | none => simp [itemRow, eventRow, upsertRow]
    | some row =>
      by_cases h : row.cameraId = some item.cameraId <;>
        simp [itemRow, eventRow, upsertRow, h]
  | peopleCount item =>
    by_cases hlarge : maxInt4 < item.countIn ∨ maxInt4 < item.countOut
    · simp only [itemRow, countRow, if_pos hlarge]
    · simp only [itemRow, countRow, if_neg hlarge]
      cases row with
      | none => simp [upsertRow]
      | some row => by_cases h : row.cameraId = some item.cameraId <;> simp [upsertRow, h]
  | alert item => rfl

/-- The deliveries of one event, or of one people count, are replayable. -/
theorem event_replayable {item : SyncItem} (hitem : isEvent item = true) :
    Replayable SyncOp.apply (eventView item.id) (SyncOp.Stores item) (SyncOp.Stores item) := by
  have hdetermined : ∀ d d' db db', d.Stores item → d'.Stores item →
      eventView item.id db = eventView item.id db' →
      eventView item.id (SyncOp.apply db d) = eventView item.id (SyncOp.apply db' d') := by
    intro d d' db db' hd hd' hview
    obtain ⟨now, rfl⟩ := hd.eq
    obtain ⟨now', rfl⟩ := hd'.eq
    rw [eventView, eventView, events_store hitem, events_store hitem]
    exact itemRow_congr now now' item hview
  refine ⟨fun op hop db db' => hdetermined op op db db' hop hop,
    fun d d' db hd hd' => hdetermined d d' db db hd hd' rfl, ?_, ?_⟩
  · intro d db hd
    obtain ⟨now, rfl⟩ := hd.eq
    rw [eventView, eventView, events_store hitem, events_store hitem, itemRow_again]
  · intro d op db hd hop hsettled
    have hop' : eventView item.id (op.apply db) = eventView item.id db :=
      (hdetermined op d db db hop hd rfl).trans hsettled
    exact (hdetermined d d _ db hd hd hop').trans (hsettled.trans hop'.symm)

end Rsap.Proofs
