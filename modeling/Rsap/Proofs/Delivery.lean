import Rsap.Library.Table
import Rsap.Proofs.SyncRows

/-!
# `Rsap.Proofs.Delivery`: repeated deliveries have the effect of one

The desktop sends every item at least once, in batches that may overlap, repeat and arrive in
any order. `DeliverySequence` is what the sequence of calls satisfies. `Rsap.Proofs.SyncRows`
follows one row through it, and the library's rule for replayed operations gives the row at the
end. `delivered_once` collects the rows: the tables are those after one delivery of each item
and the same resolutions.

An item counts as delivered when a call that carries it commits. A batch that raises stores
nothing of it. `synced_at` is the time of the last delivery, so the tables are compared without
it (`SyncTables.content`).
-/

set_option autoImplicit false

namespace Rsap.Proofs

open Rsap.Desktop (Uuid Timestamp)
open Rsap.Library
open Rsap.Webapp

/-! ### The operations of a sequence of deliveries -/

/-- The item occurs in a call of the list that commits. -/
def Delivered (db : SyncTables) (calls : List SyncCall) (item : SyncItem) : Prop :=
  ∃ before call after, calls = before ++ call :: after ∧ item ∈ call.request.items ∧
    call.Commits (db.run before)

/-- A sequence of calls that delivers the items: only these, each at least once, and no alert is
resolved before its first delivery. The ids are distinct across the three kinds. -/
structure DeliverySequence (db : SyncTables) (items : List SyncItem) (calls : List SyncCall) :
    Prop where
  distinct : UniqueOn SyncItem.id items
  only : ∀ call ∈ calls, ∀ item ∈ call.request.items, item ∈ items
  every : ∀ item ∈ items, Delivered db calls item
  order : ∀ before call after item, calls = before ++ call :: after →
    call.request = .resolve item.id → .alert item ∈ items → Delivered db before (.alert item)

/-- A call that carries an item and commits stores it. -/
theorem mem_opsOf {db : SyncTables} {call : SyncCall} {item : SyncItem}
    (hitem : item ∈ call.request.items) (hcommits : call.Commits db) :
    SyncOp.store call.now item ∈ opsOf call := by
  obtain ⟨user, now, interrupted, request⟩ := call
  cases interrupted with
  | true => cases hcommits
  | false =>
    cases request with
    | resolve alertId => cases hitem
    | _ => exact List.mem_map_of_mem hitem

/-- The items that a call stores are the items that it carries. -/
theorem item_of_opsOf {call : SyncCall} {now : Timestamp} {item : SyncItem}
    (h : SyncOp.store now item ∈ opsOf call) : item ∈ call.request.items := by
  obtain ⟨user, now', interrupted, request⟩ := call
  cases interrupted with
  | true => cases h
  | false =>
    cases request with
    | resolve alertId => cases List.mem_singleton.mp h
    | _ =>
      obtain ⟨stored, hstored, heq⟩ := List.mem_map.mp h
      cases heq
      exact hstored

/-- A call without items has no operation but its resolution. -/
theorem filter_opsOf (call : SyncCall) :
    (opsOf call).filter SyncOp.isResolve = if call.request.isResolve then opsOf call else [] := by
  obtain ⟨user, now, interrupted, request⟩ := call
  cases interrupted with
  | true => cases request <;> rfl
  | false =>
    cases request with
    | resolve alertId => rfl
    | _ =>
      refine List.filter_eq_nil_iff.mpr ?_
      intro op hop
      obtain ⟨item, -, rfl⟩ := List.mem_map.mp hop
      exact Bool.false_ne_true

/-- A delivered item is stored by an operation of the run. -/
theorem Delivered.mem {db : SyncTables} {calls : List SyncCall} {item : SyncItem}
    (h : Delivered db calls item) : ∃ now, SyncOp.store now item ∈ committedOps db calls := by
  obtain ⟨before, call, after, rfl, hitem, hcommits⟩ := h
  refine ⟨call.now, ?_⟩
  rw [committedOps_append, committedOps, if_pos (.inl hcommits)]
  exact List.mem_append_right _ (List.mem_append_left _ (mem_opsOf hitem hcommits))

/-- The operations of a run come from its calls. -/
theorem mem_committedOps {db : SyncTables} {calls : List SyncCall} {op : SyncOp}
    (h : op ∈ committedOps db calls) : ∃ call ∈ calls, op ∈ opsOf call := by
  induction calls generalizing db with
  | nil => cases h
  | cons call calls ih =>
    rcases List.mem_append.mp h with hop | hop
    · split at hop
      · exact ⟨call, List.mem_cons_self, hop⟩
      · cases hop
    · obtain ⟨call', hcall', hop'⟩ := ih hop
      exact ⟨call', List.mem_cons_of_mem _ hcall', hop'⟩

/-- The resolutions of a run are those of its resolution calls, in their order. -/
theorem filter_committedOps (db : SyncTables) (calls : List SyncCall) :
    (committedOps db calls).filter SyncOp.isResolve =
      (calls.filter fun call => call.request.isResolve).flatMap opsOf := by
  induction calls generalizing db with
  | nil => rfl
  | cons call calls ih =>
    rw [committedOps, List.filter_append, ih]
    by_cases hresolve : call.request.isResolve
    · rw [if_pos (.inr hresolve), filter_opsOf, if_pos hresolve]
      simp only [List.filter_cons, hresolve, if_true, List.flatMap_cons]
    · have hnone : (if call.Commits db ∨ call.request.isResolve then opsOf call else []).filter
          SyncOp.isResolve = [] := by
        split
        · rw [filter_opsOf, if_neg hresolve]
        · rfl
      rw [hnone, List.nil_append]
      simp only [List.filter_cons, hresolve, Bool.false_eq_true, if_false]

/-- Calls that are all resolutions keep their operations. -/
theorem committedOps_resolves (db : SyncTables) {calls : List SyncCall}
    (h : ∀ call ∈ calls, call.request.isResolve = true) :
    committedOps db calls = calls.flatMap opsOf := by
  induction calls generalizing db with
  | nil => rfl
  | cons call calls ih =>
    rw [committedOps, if_pos (.inr (h call List.mem_cons_self)),
      ih _ fun call' hcall' => h call' (List.mem_cons_of_mem _ hcall'), List.flatMap_cons]

/-- A resolution in the list of operations comes from a call, and the operations of the earlier
calls stand before it. -/
theorem resolve_call {db : SyncTables} {calls : List SyncCall} {l₁ l₂ : List SyncOp}
    {user : CurrentUser} {id : Uuid} (h : committedOps db calls = l₁ ++ .resolve user id :: l₂) :
    ∃ before call after, calls = before ++ call :: after ∧ call.request = .resolve id ∧
      committedOps db before ⊆ l₁ := by
  induction calls generalizing db l₁ with
  | nil => simp [committedOps] at h
  | cons call calls ih =>
    rw [committedOps] at h
    -- either the resolution is an operation of this call, or it comes from a later one
    rcases List.append_eq_append_iff.mp h with ⟨l, hl, hrest⟩ | ⟨l, hl, hrest⟩
    · obtain ⟨before, call', after, rfl, hresolve, hsub⟩ := ih hrest
      refine ⟨call :: before, call', after, rfl, hresolve, ?_⟩
      rw [committedOps, hl]
      exact List.append_subset.mpr ⟨List.subset_append_left _ _,
        List.Subset.trans hsub (List.subset_append_right _ _)⟩
    · cases l with
      | nil =>
        have hrest' := hrest.symm
        rw [← List.nil_append (SyncOp.resolve user id :: l₂)] at hrest'
        obtain ⟨before, call', after, rfl, hresolve, hsub⟩ := ih hrest'
        refine ⟨call :: before, call', after, rfl, hresolve, ?_⟩
        rw [List.append_nil] at hl
        rw [committedOps, hl]
        exact List.append_subset.mpr ⟨List.Subset.refl _,
          List.Subset.trans hsub (List.nil_subset _)⟩
      | cons op l =>
        obtain ⟨rfl, -⟩ := List.cons.inj hrest
        refine ⟨[], call, calls, rfl, ?_, List.nil_subset _⟩
        have hop : SyncOp.resolve user id ∈ opsOf call := by
          have hmem : SyncOp.resolve user id ∈ l₁ ++ .resolve user id :: l :=
            List.mem_append_right _ List.mem_cons_self
          rw [← hl] at hmem
          split at hmem
          · exact hmem
          · cases hmem
        obtain ⟨user', now, interrupted, request⟩ := call
        cases interrupted with
        | true => cases hop
        | false =>
          cases request with
          | resolve alertId =>
            cases List.mem_singleton.mp hop
            rfl
          | _ =>
            obtain ⟨item, -, heq⟩ := List.mem_map.mp hop
            cases heq

/-! ### One delivery of each item -/

/-- A single delivery of the item by the sender. -/
def once (sender : CurrentUser) (now : Timestamp) (item : SyncItem) : SyncCall :=
  ⟨sender, now, false, .message item⟩

/-- Each item delivered once, then the resolutions of the calls in their order. -/
def onceEach (sender : CurrentUser) (now : Timestamp) (items : List SyncItem)
    (calls : List SyncCall) : List SyncCall :=
  items.map (once sender now) ++ calls.filter fun call => call.request.isResolve

/-- The tables without the times of the last deliveries. -/
def SyncTables.content (db : SyncTables) : SyncTables :=
  { db with events := fun id => (db.events id).map eventContent }

/-- The sender may write, and the cameras of the items are his. -/
structure Sends (db : SyncTables) (sender : CurrentUser) (items : List SyncItem) : Prop where
  authorized : (authorize sender "sync" "write" (some sender.id) none).isOk = true
  owned : ∀ item ∈ items, db.cameras item.cameraId = some sender.id

/-- A single delivery by the sender is the operation. -/
theorem once_op {db : SyncTables} {sender : CurrentUser} {items : List SyncItem}
    (hsends : Sends db sender items) {item : SyncItem} (hitem : item ∈ items) (now : Timestamp) :
    db.commit ((once sender now item).serve db) = SyncOp.apply db (.store now item) := by
  have hserve : (once sender now item).serve db = storeMessage now sender db item := rfl
  rw [hserve, storeMessage]
  cases hauth : authorize sender "sync" "write" (some sender.id) none with
  | error failure =>
    have hok := hsends.authorized
    rw [hauth] at hok
    cases hok
  | ok permission =>
    simp only [hsends.owned item hitem, if_true]
    rfl

/-- The single deliveries are the operations, one for each item. -/
theorem run_once {db : SyncTables} {sender : CurrentUser} {items : List SyncItem}
    (hsends : Sends db sender items) (now : Timestamp) :
    db.run (items.map (once sender now)) =
      (items.map (SyncOp.store now)).foldl SyncOp.apply db := by
  induction items generalizing db with
  | nil => rfl
  | cons item items ih =>
    show (db.commit ((once sender now item).serve db)).run (items.map (once sender now)) = _
    rw [once_op hsends List.mem_cons_self]
    refine ih ⟨hsends.authorized, fun item' hitem' => ?_⟩
    rw [apply_cameras]
    exact hsends.owned item' (List.mem_cons_of_mem _ hitem')

/-- The reference run as a list of operations. -/
theorem run_onceEach {db : SyncTables} {sender : CurrentUser} {items : List SyncItem}
    (hsends : Sends db sender items) (now : Timestamp) (calls : List SyncCall) :
    db.run (onceEach sender now items calls) =
      (items.map (SyncOp.store now) ++ (committedOps db calls).filter SyncOp.isResolve).foldl
        SyncOp.apply db := by
  have hsplit : db.run (onceEach sender now items calls) =
      (db.run (items.map (once sender now))).run
        (calls.filter fun call => call.request.isResolve) :=
    List.foldl_append
  rw [hsplit, run_once hsends, run_ops, List.foldl_append, filter_committedOps,
    committedOps_resolves]
  intro call hcall
  exact (List.mem_filter.mp hcall).2

/-- Among items with distinct ids, one item is the only one that a test of its id selects. -/
theorem filter_stores {items : List SyncItem} (hdistinct : UniqueOn SyncItem.id items)
    {item : SyncItem} (hitem : item ∈ items) {touches : SyncOp → Bool} {now : Timestamp}
    (htouches : touches (.store now item) = true)
    (hid : ∀ other, touches (.store now other) = true → other.id = item.id) :
    (items.map (SyncOp.store now)).filter touches = [.store now item] := by
  have hids : items.filter (fun other => touches (.store now other)) =
      (items.filter fun other => other.id = item.id).filter
        (fun other => touches (.store now other)) := by
    rw [List.filter_filter]
    refine List.filter_congr fun other _ => ?_
    by_cases h : touches (.store now other) = true
    · simp [h, hid other h]
    · simp [h]
  rw [List.filter_map]
  show List.map _ (items.filter fun other => touches (.store now other)) = _
  rw [hids, hdistinct.filter_eq_singleton hitem]
  simp [htouches]

section Sequence
variable {db : SyncTables} {items : List SyncItem} {calls : List SyncCall}

/-- The items of a sequence of deliveries are the ones that its operations store. -/
theorem DeliverySequence.stored (h : DeliverySequence db items calls) {now : Timestamp}
    {item : SyncItem} (hop : SyncOp.store now item ∈ committedOps db calls) : item ∈ items := by
  obtain ⟨call, hcall, hop'⟩ := mem_committedOps hop
  exact h.only call hcall item (item_of_opsOf hop')

/-- The view of an alert depends on itself under each operation that touches the alert. -/
theorem alertView_determined {id : Uuid} {op : SyncOp} (h : op.touchesAlert id = true) :
    ViewDetermined SyncOp.apply (alertView id) op := by
  rcases op with ⟨now, item | item | item⟩ | ⟨user, alertId⟩
  · cases h
  · cases beq_iff_eq.mp h
    exact (alert_replayable item).determined _ (.inl rfl)
  · cases h
  · cases beq_iff_eq.mp h
    intro s s' hview
    obtain ⟨hcameras, hrow⟩ := Prod.mk.inj hview
    rw [alertView_resolve, alertView_resolve, hcameras, hrow, resolvedRow_congr hcameras]

/-- An operation that does not touch the alert does not change its view. -/
theorem alertView_idle {id : Uuid} {op : SyncOp} (h : ¬ op.touchesAlert id = true)
    (s : SyncTables) : alertView id (op.apply s) = alertView id s := by
  rw [alertView, apply_cameras, apply_alerts_of_not s (Bool.eq_false_iff.mpr h)]
  rfl

/-- The alert of an id after operations depends on the operations that touch it. -/
theorem alertView_active (id : Uuid) (ops : List SyncOp) (s : SyncTables) :
    alertView id (ops.foldl SyncOp.apply s) =
      alertView id ((ops.filter (SyncOp.touchesAlert id)).foldl SyncOp.apply s) := by
  have hactive := foldl_active ops (fun op => SyncOp.touchesAlert id op = true)
    (fun op _ h => alertView_determined h) (fun op _ h => alertView_idle h) s
  simpa only [Bool.decide_eq_true] using hactive

/-- The event of an id after operations depends on the operations that touch it, all of which
store one item. -/
theorem eventView_active {id : Uuid} {item : SyncItem} (hitem : isEvent item = true)
    (hid : item.id = id) {ops : List SyncOp}
    (hops : ∀ op ∈ ops, op.touchesEvent id = true → op.Stores item) (s : SyncTables) :
    eventView id (ops.foldl SyncOp.apply s) =
      eventView id ((ops.filter (SyncOp.touchesEvent id)).foldl SyncOp.apply s) := by
  subst hid
  have hactive := foldl_active ops (fun op => SyncOp.touchesEvent item.id op = true)
    (fun op hop h => (event_replayable hitem).determined op (hops op hop h))
    (fun op _ h s => by
      rw [eventView, apply_events_of_not s (Bool.eq_false_iff.mpr h)]
      rfl) s
  simpa only [Bool.decide_eq_true] using hactive

/-- Operations that do not touch the event leave it alone. -/
theorem foldl_events {id : Uuid} {ops : List SyncOp}
    (hops : ∀ op ∈ ops, op.touchesEvent id = false) {s : SyncTables} :
    (ops.foldl SyncOp.apply s).events id = s.events id := by
  induction ops generalizing s with
  | nil => rfl
  | cons op ops ih =>
    rw [List.foldl_cons, ih fun op' hop' => hops op' (List.mem_cons_of_mem _ hop'),
      apply_events_of_not s (hops op List.mem_cons_self)]

/-- The first operation on a delivered alert stores it. -/
theorem DeliverySequence.first_alert (h : DeliverySequence db items calls) {item : AlertIn}
    (hitem : .alert item ∈ items) :
    ∃ d rest, (committedOps db calls).filter (SyncOp.touchesAlert item.id) = d :: rest ∧
      d.Stores (.alert item) := by
  obtain ⟨now, hstore⟩ := (h.every _ hitem).mem
  have hmem : SyncOp.store now (.alert item) ∈
      (committedOps db calls).filter (SyncOp.touchesAlert item.id) :=
    List.mem_filter.mpr ⟨hstore, beq_self_eq_true _⟩
  -- the first call that touches the alert
  cases hlist : (committedOps db calls).filter (SyncOp.touchesAlert item.id) with
  | nil =>
    rw [hlist] at hmem
    cases hmem
  | cons d rest =>
    refine ⟨d, rest, rfl, ?_⟩
    obtain ⟨l₁, l₂, hops, hbefore, htouches, -⟩ := List.filter_eq_cons_iff.mp hlist
    have hd : d ∈ committedOps db calls := by
      rw [hops]
      exact List.mem_append_right _ List.mem_cons_self
    rcases d with ⟨now', stored | stored | stored⟩ | ⟨user, alertId⟩
    · cases htouches
    · exact h.distinct.eq (h.stored hd) hitem (beq_iff_eq.mp htouches)
    · cases htouches
    · -- a resolution has a delivery of its alert before it
      cases beq_iff_eq.mp htouches
      obtain ⟨before, call, after, hcalls, hresolve, hsub⟩ := resolve_call hops
      obtain ⟨now', hearlier⟩ := (h.order before call after item hcalls hresolve hitem).mem
      exact absurd (beq_self_eq_true item.id) (hbefore _ (hsub hearlier))

/-- Every alert is, after the sequence, as after one delivery and the same resolutions. -/
theorem DeliverySequence.alert (h : DeliverySequence db items calls) (now : Timestamp) (id : Uuid) :
    alertView id ((committedOps db calls).foldl SyncOp.apply db) =
      alertView id ((items.map (SyncOp.store now) ++
        (committedOps db calls).filter SyncOp.isResolve).foldl SyncOp.apply db) := by
  classical
  rw [alertView_active id, alertView_active id (_ ++ _), List.filter_append, List.filter_filter]
  by_cases hsent : ∃ item, .alert item ∈ items ∧ item.id = id
  · obtain ⟨item, hitem, rfl⟩ := hsent
    obtain ⟨d, rest, hlist, hd⟩ := h.first_alert hitem
    have hsingle : (items.map (SyncOp.store now)).filter (SyncOp.touchesAlert item.id) =
        [.store now (.alert item)] := by
      refine filter_stores h.distinct hitem (beq_self_eq_true _) ?_
      rintro (other | other | other) hother
      · cases hother
      · exact beq_iff_eq.mp hother
      · cases hother
    -- every operation of the list is a delivery of this alert or a resolution of it
    have hlive : ∀ op ∈ d :: rest, OnAlert item op := by
      intro op hop
      rw [← hlist] at hop
      obtain ⟨hmem, htouches⟩ := List.mem_filter.mp hop
      rcases op with ⟨now', stored | stored | stored⟩ | ⟨user, alertId⟩
      · cases htouches
      · exact .inl (h.distinct.eq (h.stored hmem) hitem (beq_iff_eq.mp htouches))
      · cases htouches
      · cases beq_iff_eq.mp htouches
        exact .inr ⟨user, rfl⟩
    have hresolves : rest.filter (fun op => ¬ op.Stores (.alert item)) =
        (committedOps db calls).filter
          (fun op => SyncOp.touchesAlert item.id op && SyncOp.isResolve op) := by
      have hsplit : (committedOps db calls).filter
          (fun op => SyncOp.touchesAlert item.id op && SyncOp.isResolve op) =
          (d :: rest).filter SyncOp.isResolve := by
        rw [← hlist, List.filter_filter]
        refine List.filter_congr fun op _ => ?_
        rw [Bool.and_comm]
      obtain ⟨now', rfl⟩ := hd.eq
      rw [hsplit, List.filter_cons_of_neg Bool.false_ne_true]
      refine List.filter_congr fun op hop => ?_
      rcases hlive op (List.mem_cons_of_mem _ hop) with hstores | ⟨user, rfl⟩
      · obtain ⟨now'', rfl⟩ := hstores.eq
        simp [SyncOp.Stores, SyncOp.isResolve]
      · simp [SyncOp.Stores, SyncOp.isResolve]
    rw [hlist, hsingle, (alert_replayable item).foldl_replay
      (fun op hop => hlive op (List.mem_cons_of_mem _ hop)) hd
      (show SyncOp.Stores (.alert item) (.store now (.alert item)) from rfl), hresolves]
    rfl
  · -- the alert is none of the items: both lists are its resolutions
    have hresolve : ∀ op ∈ committedOps db calls, SyncOp.touchesAlert id op = true →
        SyncOp.isResolve op = true := by
      intro op hop htouches
      rcases op with ⟨now', stored | stored | stored⟩ | ⟨user, alertId⟩
      · cases htouches
      · exact absurd ⟨stored, h.stored hop, beq_iff_eq.mp htouches⟩ hsent
      · cases htouches
      · rfl
    have hnone : (items.map (SyncOp.store now)).filter (SyncOp.touchesAlert id) = [] := by
      refine List.filter_eq_nil_iff.mpr ?_
      intro op hop htouches
      obtain ⟨item, hitem, rfl⟩ := List.mem_map.mp hop
      rcases item with item | item | item
      · cases htouches
      · exact hsent ⟨item, hitem, beq_iff_eq.mp htouches⟩
      · cases htouches
    have hsame : (committedOps db calls).filter (SyncOp.touchesAlert id) =
        (committedOps db calls).filter
          (fun op => SyncOp.touchesAlert id op && SyncOp.isResolve op) := by
      refine List.filter_congr fun op hop => ?_
      by_cases htouches : SyncOp.touchesAlert id op = true
      · rw [htouches, hresolve op hop htouches]
        rfl
      · rw [Bool.eq_false_iff.mpr htouches]
        rfl
    rw [hnone, hsame, List.nil_append]

/-- Every event is, after the sequence, as after one delivery. -/
theorem DeliverySequence.event (h : DeliverySequence db items calls) (now : Timestamp) (id : Uuid) :
    eventView id ((committedOps db calls).foldl SyncOp.apply db) =
      eventView id ((items.map (SyncOp.store now) ++
        (committedOps db calls).filter SyncOp.isResolve).foldl SyncOp.apply db) := by
  classical
  by_cases hsent : ∃ item ∈ items, isEvent item = true ∧ item.id = id
  · obtain ⟨item, hitem, hevent, rfl⟩ := hsent
    -- an operation that touches the event stores the item
    have htouched : ∀ now' other, SyncOp.touchesEvent item.id (.store now' other) = true →
        other.id = item.id := by
      intro now' other htouches
      cases other with
      | alert other => cases htouches
      | event other => exact beq_iff_eq.mp htouches
      | peopleCount other => exact beq_iff_eq.mp htouches
    have hown : ∀ now', SyncOp.touchesEvent item.id (.store now' item) = true := by
      intro now'
      cases item with
      | alert item => cases hevent
      | event item => exact beq_self_eq_true _
      | peopleCount item => exact beq_self_eq_true _
    have hstored : ∀ op ∈ committedOps db calls, op.touchesEvent item.id = true →
        op.Stores item := by
      intro op hop htouches
      cases op with
      | store now' other =>
        exact h.distinct.eq (h.stored hop) hitem (htouched now' other htouches)
      | resolve user alertId => cases htouches
    have hreference : ∀ op ∈ items.map (SyncOp.store now) ++
        (committedOps db calls).filter SyncOp.isResolve, op.touchesEvent item.id = true →
        op.Stores item := by
      intro op hop htouches
      rcases List.mem_append.mp hop with hop | hop
      · obtain ⟨other, hother, rfl⟩ := List.mem_map.mp hop
        exact h.distinct.eq hother hitem (htouched now other htouches)
      · exact hstored op (List.mem_of_mem_filter hop) htouches
    have hresolves : ((committedOps db calls).filter SyncOp.isResolve).filter
        (SyncOp.touchesEvent item.id) = [] := by
      refine List.filter_eq_nil_iff.mpr ?_
      intro op hop htouches
      obtain ⟨-, hresolve⟩ := List.mem_filter.mp hop
      cases op with
      | store now' other => cases hresolve
      | resolve user alertId => cases htouches
    rw [eventView_active hevent rfl hstored, eventView_active hevent rfl hreference,
      List.filter_append, filter_stores h.distinct hitem (hown now) (htouched now), hresolves]
    -- the item is delivered, so the list of its operations is not empty
    obtain ⟨now', hstore⟩ := (h.every item hitem).mem
    have hmem := List.mem_filter.mpr ⟨hstore, hown now'⟩
    cases hlist : (committedOps db calls).filter (SyncOp.touchesEvent item.id) with
    | nil =>
      rw [hlist] at hmem
      cases hmem
    | cons d rest =>
      have hall : ∀ op ∈ d :: rest, op.Stores item := by
        intro op hop
        rw [← hlist] at hop
        obtain ⟨hop, htouches⟩ := List.mem_filter.mp hop
        exact hstored op hop htouches
      have hnone : rest.filter (fun op => ¬ op.Stores item) = [] := by
        refine List.filter_eq_nil_iff.mpr fun op hop => ?_
        simpa using hall op (List.mem_cons_of_mem _ hop)
      rw [(event_replayable hevent).foldl_replay
        (fun op hop => hall op (List.mem_cons_of_mem _ hop))
        (hall d List.mem_cons_self) (show SyncOp.Stores item (.store now item) from rfl), hnone]
      rfl
  · -- no operation touches the event
    have hidle : ∀ op ∈ committedOps db calls, op.touchesEvent id = false := by
      intro op hop
      rcases op with ⟨now', other | other | other⟩ | ⟨user, alertId⟩
      · exact beq_eq_false_iff_ne.mpr fun hid => hsent ⟨_, h.stored hop, rfl, hid⟩
      · rfl
      · exact beq_eq_false_iff_ne.mpr fun hid => hsent ⟨_, h.stored hop, rfl, hid⟩
      · rfl
    have hreference : ∀ op ∈ items.map (SyncOp.store now) ++
        (committedOps db calls).filter SyncOp.isResolve, op.touchesEvent id = false := by
      intro op hop
      rcases List.mem_append.mp hop with hop | hop
      · obtain ⟨other, hother, rfl⟩ := List.mem_map.mp hop
        rcases other with other | other | other
        · exact beq_eq_false_iff_ne.mpr fun hid => hsent ⟨_, hother, rfl, hid⟩
        · rfl
        · exact beq_eq_false_iff_ne.mpr fun hid => hsent ⟨_, hother, rfl, hid⟩
      · exact hidle op (List.mem_of_mem_filter hop)
    rw [eventView, eventView, foldl_events hidle, foldl_events hreference]

end Sequence

/-! ### What no call undoes -/

/-- An upsert keeps the camera of a row. -/
theorem upsertRow_camera {ρ : Type} {camera : ρ → Option Uuid} {cameraId : Uuid} {insert : ρ}
    {update : ρ → ρ} (hupdate : ∀ row, camera (update row) = camera row) (row : ρ) :
    ∃ row', upsertRow camera cameraId insert update (some row) = some row' ∧
      camera row' = camera row := by
  by_cases hcamera : camera row = some cameraId
  · exact ⟨update row, if_pos hcamera, hupdate row⟩
  · exact ⟨row, if_neg hcamera, rfl⟩

/-- The alert keeps its camera, and it stays resolved. -/
def AlertKept (row row' : IntrusionAlert) : Prop :=
  row'.cameraId = row.cameraId ∧ (row.resolved = true → row'.resolved = true)

/-- An operation keeps every alert with its camera, and keeps it resolved. -/
theorem apply_keeps_alert (db : SyncTables) (op : SyncOp) {id : Uuid} {row : IntrusionAlert}
    (h : db.alerts id = some row) :
    ∃ row', (op.apply db).alerts id = some row' ∧ AlertKept row row' := by
  -- deliveries of the alert and resolutions of it, and all other calls
  by_cases htouches : op.touchesAlert id = true
  · rcases op with ⟨now, item | item | item⟩ | ⟨user, alertId⟩
    · cases htouches
    · cases beq_iff_eq.mp htouches
      rw [apply_alert]
      show ∃ row', Function.update db.alerts item.id _ item.id = some row' ∧ _
      rw [Function.update_self, h]
      -- a delivery for another camera leaves the row
      by_cases hcamera : row.cameraId = some item.cameraId
      · refine ⟨_, if_pos hcamera, rfl, ?_⟩
        intro hresolved
        show (row.resolved || item.resolved) = true
        rw [hresolved, Bool.true_or]
      · exact ⟨row, if_neg hcamera, rfl, id⟩
    · cases htouches
    · cases beq_iff_eq.mp htouches
      rw [apply_resolve]
      show ∃ row', Function.update db.alerts id _ id = some row' ∧ _
      rw [Function.update_self, h]
      refine ⟨_, rfl, ?_⟩
      -- a user without access resolves nothing
      by_cases hmay : mayResolve db user row.cameraId = true
      · simp only [hmay, if_true]
        exact ⟨rfl, fun _ => rfl⟩
      · simp only [hmay]
        exact ⟨rfl, fun hresolved => hresolved⟩
  · rw [apply_alerts_of_not db (Bool.eq_false_iff.mpr htouches)]
    exact ⟨row, h, rfl, fun hresolved => hresolved⟩

/-- An operation keeps every event with its camera. -/
theorem apply_keeps_event (db : SyncTables) (op : SyncOp) {id : Uuid} {row : AnalyticsEvent}
    (h : db.events id = some row) :
    ∃ row', (op.apply db).events id = some row' ∧ row'.cameraId = row.cameraId := by
  by_cases htouches : op.touchesEvent id = true
  · rcases op with ⟨now, item | item | item⟩ | ⟨user, alertId⟩
    · cases beq_iff_eq.mp htouches
      rw [apply_event]
      show ∃ row', Function.update db.events item.id _ item.id = some row' ∧ _
      rw [Function.update_self, h]
      refine upsertRow_camera ?_ row
      intro row
      rfl
    · cases htouches
    · cases beq_iff_eq.mp htouches
      rw [apply_count]
      show ∃ row', Function.update db.events item.id _ item.id = some row' ∧ _
      rw [Function.update_self, h]
      -- a count that does not fit the column leaves the row
      by_cases hlarge : maxInt4 < item.countIn ∨ maxInt4 < item.countOut
      · exact ⟨row, if_pos hlarge, rfl⟩
      · rw [countRow, if_neg hlarge]
        refine upsertRow_camera ?_ row
        intro row
        rfl
    · cases htouches
  · rw [apply_events_of_not db (Bool.eq_false_iff.mpr htouches)]
    exact ⟨row, h, rfl⟩

/-- Nothing of an alert or an event is undone between two tables. -/
structure Kept (db db' : SyncTables) : Prop where
  alert : ∀ id row, db.alerts id = some row → ∃ row', db'.alerts id = some row' ∧ AlertKept row row'
  event : ∀ id row, db.events id = some row →
    ∃ row', db'.events id = some row' ∧ row'.cameraId = row.cameraId

/-- A list of operations undoes nothing. -/
theorem kept_foldl (ops : List SyncOp) (db : SyncTables) : Kept db (ops.foldl SyncOp.apply db) := by
  induction ops generalizing db with
  | nil => exact ⟨fun id row h => ⟨row, h, rfl, fun hresolved => hresolved⟩,
      fun id row h => ⟨row, h, rfl⟩⟩
  | cons op ops ih =>
    refine ⟨fun id row h => ?_, fun id row h => ?_⟩
    · obtain ⟨row₁, h₁, hcamera₁, hresolved₁⟩ := apply_keeps_alert db op h
      obtain ⟨row₂, h₂, hcamera₂, hresolved₂⟩ := (ih (op.apply db)).alert id row₁ h₁
      exact ⟨row₂, h₂, hcamera₂.trans hcamera₁, fun h => hresolved₂ (hresolved₁ h)⟩
    · obtain ⟨row₁, h₁, hcamera₁⟩ := apply_keeps_event db op h
      obtain ⟨row₂, h₂, hcamera₂⟩ := (ih (op.apply db)).event id row₁ h₁
      exact ⟨row₂, h₂, hcamera₂.trans hcamera₁⟩

/-- No call changes the owners of the cameras. -/
theorem foldl_cameras (ops : List SyncOp) (db : SyncTables) :
    (ops.foldl SyncOp.apply db).cameras = db.cameras := by
  induction ops generalizing db with
  | nil => rfl
  | cons op ops ih => rw [List.foldl_cons, ih, apply_cameras]

/-! ### Delivered at least once, stored once -/

/-- After a sequence of deliveries, the tables are those after one delivery of each item and the
same resolutions. From any point of the sequence on, no alert is reopened and no row changes
its camera. -/
theorem delivered_once (db : SyncTables) (items : List SyncItem) (calls : List SyncCall)
    (sender : CurrentUser) (now : Timestamp) (hsends : Sends db sender items)
    (h : DeliverySequence db items calls) :
    SyncTables.content (db.run calls) =
        SyncTables.content (db.run (onceEach sender now items calls)) ∧
      ∀ before after, calls = before ++ after → Kept (db.run before) (db.run calls) := by
  constructor
  · rw [run_ops db calls, run_onceEach hsends]
    have halert := h.alert now
    have hevent := h.event now
    simp only [SyncTables.content, SyncTables.mk.injEq]
    refine ⟨?_, funext hevent, funext fun id => (Prod.mk.inj (halert id)).2⟩
    rw [foldl_cameras, foldl_cameras]
  · rintro before after rfl
    have hsplit : db.run (before ++ after) = (db.run before).run after := List.foldl_append
    rw [hsplit, run_ops (db.run before) after]
    exact kept_foldl _ _

/-! ### A run with a retry -/

/-- A user who may synchronize. -/
def syncUser : CurrentUser := ⟨1, .vaUser, [⟨"sync", ["write"], none⟩]⟩

/-- An alert of camera 7. -/
def syncAlert : AlertIn := ⟨10, 7, none, none, none, false, 5, fun _ h => by cases h⟩

/-- A people count of camera 7. -/
def syncCount : PeopleCountIn := ⟨11, 7, 3, 2, 6⟩

/-- Camera 7 belongs to user 1. The tables are empty. -/
def syncStart : SyncTables :=
  ⟨fun id => if id = 7 then some 1 else none, fun _ => none, fun _ => none⟩

/-- The alert is sent, an administrator resolves it, and the response is lost, so the desktop
sends it again. The count goes over the websocket. -/
def retriedCalls : List SyncCall :=
  [⟨syncUser, 100, false, .alerts ⟨[syncAlert], by decide, by decide⟩⟩,
    ⟨⟨2, .admin, []⟩, 110, false, .resolve 10⟩,
    ⟨syncUser, 120, false, .alerts ⟨[syncAlert], by decide, by decide⟩⟩,
    ⟨syncUser, 130, false, .message (.peopleCount syncCount)⟩]

/-- The retried alert is stored once and stays resolved. -/
theorem delivered_once_retried :
    SyncTables.content (syncStart.run retriedCalls) =
        SyncTables.content (syncStart.run (onceEach syncUser 100
          [.alert syncAlert, .peopleCount syncCount] retriedCalls)) ∧
      ∀ before after, retriedCalls = before ++ after →
        Kept (syncStart.run before) (syncStart.run retriedCalls) := by
  refine delivered_once syncStart [.alert syncAlert, .peopleCount syncCount] retriedCalls syncUser
    100 ⟨by decide, ?_⟩ ⟨by unfold UniqueOn; decide, ?_, ?_, ?_⟩
  · intro item hitem
    rcases List.mem_pair.mp hitem with rfl | rfl <;> rfl
  · intro call hcall item hitem
    simp only [retriedCalls, List.mem_cons, List.not_mem_nil, or_false] at hcall
    rcases hcall with rfl | rfl | rfl | rfl
    · cases List.mem_singleton.mp hitem
      exact List.mem_cons_self
    · cases hitem
    · cases List.mem_singleton.mp hitem
      exact List.mem_cons_self
    · cases List.mem_singleton.mp hitem
      exact List.mem_cons_of_mem _ List.mem_cons_self
  · intro item hitem
    rcases List.mem_pair.mp hitem with rfl | rfl
    · exact ⟨[], _, _, rfl, List.mem_cons_self, by decide⟩
    · exact ⟨retriedCalls.take 3, _, [], rfl, List.mem_cons_self, by decide⟩
  · intro before call after item hcalls hresolve hitem
    have halert : item = syncAlert := by
      rcases List.mem_pair.mp hitem with h | h
      · exact SyncItem.alert.inj h
      · cases h
    subst halert
    rcases before with - | ⟨first, - | ⟨second, - | ⟨third, - | ⟨fourth, before⟩⟩⟩⟩
    · cases hcalls
      cases hresolve
    · cases hcalls
      exact ⟨[], _, [], rfl, List.mem_cons_self, by decide⟩
    · cases hcalls
      cases hresolve
    · cases hcalls
      cases hresolve
    · have hlength := congrArg List.length hcalls
      simp [retriedCalls] at hlength

end Rsap.Proofs
