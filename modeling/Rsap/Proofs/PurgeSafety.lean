import Rsap.Proofs.CameraOrder
import Rsap.Proofs.LeasedRows
import Rsap.Proofs.Purge

/-!
# `Rsap.Proofs.PurgeSafety`: what a purge leaves behind

`afterTurns` follows one row through the turns of a purge. It loses the links to the candidates,
and it is cancelled when some turn withdraws it (`Withdrawn`), so a withdrawal is always one that
the links of the queue before the purge explain.

Two facts about reachable stores make this safe. A dependency names the first row of a camera,
which hangs on nothing, and a row that was leased depends on a row that succeeded (`Anchored`).
A predecessor was leased or is done (`Preceded`), so a purge that cancels a waiting predecessor
cancels it for a dead letter, and then the successor with it.

`purge_safe` is the result.
-/

set_option autoImplicit false

namespace Rsap.Proofs

open Rsap.Library
open Rsap.Library.Machine (Reachable Any)
open Rsap.Desktop
open Relation (ReflTransGen)
open SyncQueueRepository (purgeCandidate descendantIds linkedRow)

/-! ### A row through the turns -/

/-- What the turns of the candidates make of a row. -/
def afterTurns (now : Timestamp) : List Row → List (Uuid × QueueState) → Row → Row
  | _, [], r => r
  | q, c :: cs, r => afterTurns now (purgeCandidate now q c) cs (turnRow now q c r)

/-- Some turn withdraws the row. -/
def Withdrawn (now : Timestamp) (q : List Row) (cs : List (Uuid × QueueState)) (r : Row) : Prop :=
  ∃ before c after, cs = before ++ c :: after ∧
    WithdrawnBy (before.foldl (purgeCandidate now) q) c (afterTurns now q before r)

section Turns
variable {now : Timestamp} {q : List Row} {r r' : Row} {c : Uuid × QueueState}
  {cs before after : List (Uuid × QueueState)}

/-- The rows after the turns are the old rows that no turn removes. -/
theorem mem_turns : r' ∈ cs.foldl (purgeCandidate now) q ↔
    ∃ r ∈ q, (∀ c ∈ cs, r.id ≠ c.1) ∧ afterTurns now q cs r = r' := by
  induction cs generalizing q with
  | nil => simp [afterTurns]
  | cons c cs ih =>
    rw [List.foldl_cons, ih]
    constructor
    · rintro ⟨r₁, hr₁, hid, rfl⟩
      obtain ⟨r, hr, hne, rfl⟩ := mem_purgeCandidate.mp hr₁
      refine ⟨r, hr, fun c' hc' => ?_, rfl⟩
      rcases List.mem_cons.mp hc' with rfl | hc'
      · exact hne
      · rw [← (turnRow_fixed now q c r).1]
        exact hid c' hc'
    · rintro ⟨r, hr, hid, rfl⟩
      refine ⟨turnRow now q c r, ?_, fun c' hc' => ?_, rfl⟩
      · exact mem_purgeCandidate.mpr ⟨r, hr, hid c List.mem_cons_self, rfl⟩
      · rw [(turnRow_fixed now q c r).1]
        exact hid c' (List.mem_cons_of_mem _ hc')

/-- The turns keep the name of a row, its key and the time of its last attempt. -/
theorem afterTurns_fixed (now : Timestamp) (q : List Row) (cs : List (Uuid × QueueState))
    (r : Row) : (afterTurns now q cs r).id = r.id ∧
      (afterTurns now q cs r).logicalKey = r.logicalKey ∧
      (afterTurns now q cs r).lastAttemptAt = r.lastAttemptAt := by
  induction cs generalizing q r with
  | nil => exact ⟨rfl, rfl, rfl⟩
  | cons c cs ih =>
    obtain ⟨hid, hkey, hlast⟩ := ih (purgeCandidate now q c) (turnRow now q c r)
    obtain ⟨hid₁, hkey₁, -, hlast₁⟩ := turnRow_fixed now q c r
    exact ⟨hid.trans hid₁, hkey.trans hkey₁, hlast.trans hlast₁⟩

/-- A link is left exactly when it leads to another item. -/
theorem cut_eq_some {itemId k : Uuid} {link : Option Uuid} :
    cut itemId link = some k ↔ link = some k ∧ itemId ≠ k := by
  unfold cut
  split
  · rename_i h
    subst h
    simp
  · rename_i h
    refine ⟨fun hk => ⟨hk, fun he => h (he ▸ hk)⟩, And.left⟩

/-- The turns cut the links to the candidates and no others. -/
theorem afterTurns_links (now : Timestamp) (q : List Row) (cs : List (Uuid × QueueState))
    (r : Row) (k : Uuid) :
    ((afterTurns now q cs r).predecessorId = some k ↔
      r.predecessorId = some k ∧ ∀ c ∈ cs, c.1 ≠ k) ∧
    ((afterTurns now q cs r).dependsOnId = some k ↔
      r.dependsOnId = some k ∧ ∀ c ∈ cs, c.1 ≠ k) := by
  induction cs generalizing q r with
  | nil => simp [afterTurns]
  | cons c cs ih =>
    obtain ⟨hpred, hdep⟩ := ih (purgeCandidate now q c) (turnRow now q c r)
    have hcutPred : (turnRow now q c r).predecessorId = cut c.1 r.predecessorId := rfl
    have hcutDep : (turnRow now q c r).dependsOnId = cut c.1 r.dependsOnId := rfl
    rw [hcutPred, cut_eq_some] at hpred
    rw [hcutDep, cut_eq_some] at hdep
    simp only [afterTurns, hpred, hdep, List.forall_mem_cons, and_assoc, and_self]

/-- An inflight row stays inflight. -/
theorem afterTurns_inflight (h : r.state = .inflight) :
    (afterTurns now q cs r).state = .inflight := by
  induction cs generalizing q r with
  | nil => exact h
  | cons c cs ih =>
    refine ih ?_
    rw [turnRow_state, if_neg fun hw => hw.1 h]
    exact h

/-- The turns cancel a row when one of them withdraws it, and keep its state otherwise. -/
theorem afterTurns_state (now : Timestamp) (q : List Row) (cs : List (Uuid × QueueState))
    (r : Row) : (Withdrawn now q cs r ∧ (afterTurns now q cs r).state = .cancelled) ∨
      (¬ Withdrawn now q cs r ∧ (afterTurns now q cs r).state = r.state) := by
  induction cs generalizing q r with
  | nil =>
    refine .inr ⟨?_, rfl⟩
    rintro ⟨before, c, after, hcs, -⟩
    simp at hcs
  | cons c cs ih =>
    have hstate := turnRow_state now q c r
    have hih := ih (purgeCandidate now q c) (turnRow now q c r)
    -- the first turn that withdraws the row decides, and no other turn touches its state
    by_cases hw : WithdrawnBy q c r
    · rw [if_pos hw] at hstate
      refine .inl ⟨⟨[], c, cs, rfl, hw⟩, ?_⟩
      rcases hih with ⟨-, h⟩ | ⟨-, h⟩
      · exact h
      · exact h.trans hstate
    · rw [if_neg hw] at hstate
      rcases hih with ⟨⟨before, c', after, hcs, hw'⟩, h⟩ | ⟨hnot, h⟩
      · exact .inl ⟨⟨c :: before, c', after, by rw [hcs]; rfl, hw'⟩, h⟩
      · refine .inr ⟨?_, h.trans hstate⟩
        rintro ⟨before, c', after, hcs, hw'⟩
        cases before with
        | nil =>
          obtain ⟨rfl, -⟩ := List.cons.inj hcs
          exact hw hw'
        | cons c₀ before =>
          obtain ⟨rfl, hrest⟩ := List.cons.inj hcs
          exact hnot ⟨before, c', after, hrest, hw'⟩

/-- A row that is not inflight does not become inflight. -/
theorem afterTurns_idle (h : r.state ≠ .inflight) : (afterTurns now q cs r).state ≠ .inflight := by
  rcases afterTurns_state now q cs r with ⟨-, h'⟩ | ⟨-, h'⟩ <;> rw [h']
  · nofun
  · exact h

/-! ### What the links say of a withdrawal -/

/-- The links between the rows that are left are links of the old queue. -/
theorem descends_turns {k j : Uuid}
    (h : Descends Row.id linkedRow (cs.foldl (purgeCandidate now) q) k j) :
    Descends Row.id linkedRow q k j := by
  refine h.mono fun r' hr' => ?_
  obtain ⟨r, hr, -, rfl⟩ := mem_turns.mp hr'
  refine ⟨r, hr, (afterTurns_fixed now q cs r).1.symm, fun i hi => ?_⟩
  obtain ⟨hpred, hdep⟩ := afterTurns_links now q cs r i
  simp only [linkedRow, decide_eq_true_eq, hpred, hdep] at hi ⊢
  exact hi.imp And.left And.left

/-- A withdrawn row hangs on a candidate that was dead or cancelled. -/
theorem Withdrawn.descends (h : Withdrawn now q cs r) (hr : r ∈ q) (hid : ∀ c ∈ cs, r.id ≠ c.1) :
    ∃ c ∈ cs, (c.2 = .deadLetter ∨ c.2 = .cancelled) ∧ Descends Row.id linkedRow q c.1 r.id := by
  obtain ⟨before, c, after, rfl, -, hw⟩ := h
  refine ⟨c, by simp, ?_⟩
  rcases hw with ⟨hdead, hmem⟩ | ⟨hcancelled, hlink⟩
  · rw [(afterTurns_fixed now q before r).1] at hmem
    exact ⟨.inl hdead, descends_turns (mem_descendants.mp hmem)⟩
  · have hold := ((afterTurns_links _ _ _ _ c.1).2.mp hlink).1
    exact ⟨.inr hcancelled, .child hr (by simp [linkedRow, hold])⟩

/-- A row that hangs on a dead letter at its turn is withdrawn. -/
theorem withdrawn_dead (hstate : r.state ≠ .inflight) (hcs : cs = before ++ c :: after)
    (hdead : c.2 = .deadLetter)
    (h : Descends Row.id linkedRow (before.foldl (purgeCandidate now) q) c.1 r.id) :
    Withdrawn now q cs r := by
  refine ⟨before, c, after, hcs, afterTurns_idle hstate, .inl ⟨hdead, ?_⟩⟩
  rw [(afterTurns_fixed now q before r).1]
  exact mem_descendants.mpr h

/-- A row that is left is there in each turn. -/
theorem mem_before (hr : r ∈ q) (hid : ∀ c ∈ cs, r.id ≠ c.1) (hcs : cs = before ++ c :: after) :
    afterTurns now q before r ∈ before.foldl (purgeCandidate now) q := by
  subst hcs
  exact mem_turns.mpr ⟨r, hr, fun c' hc' => hid c' (List.mem_append_left _ hc'), rfl⟩

/-- A row that names a dead letter is withdrawn in its turn. -/
theorem withdrawn_child (hr : r ∈ q) (hid : ∀ c ∈ cs, r.id ≠ c.1) (hstate : r.state ≠ .inflight)
    (hcs : cs = before ++ c :: after) (hfirst : ∀ c' ∈ before, c'.1 ≠ c.1)
    (hdead : c.2 = .deadLetter) (hlink : linkedRow c.1 r = true) : Withdrawn now q cs r := by
  have hlink' : linkedRow c.1 (afterTurns now q before r) = true := by
    obtain ⟨hpred, hdep⟩ := afterTurns_links now q before r c.1
    simp only [linkedRow, decide_eq_true_eq, hpred, hdep] at hlink ⊢
    exact hlink.imp (⟨·, hfirst⟩) (⟨·, hfirst⟩)
  refine withdrawn_dead hstate hcs hdead ?_
  rw [← (afterTurns_fixed now q before r).1]
  exact .child (mem_before hr hid hcs) hlink'

/-- A row whose predecessor is withdrawn for a dead letter is withdrawn with it. -/
theorem withdrawn_step {p : Row} (hr : r ∈ q) (hid : ∀ c ∈ cs, r.id ≠ c.1)
    (hstate : r.state ≠ .inflight) (hpred : r.predecessorId = some p.id)
    (hpid : ∀ c ∈ cs, p.id ≠ c.1) (hcs : cs = before ++ c :: after) (hdead : c.2 = .deadLetter)
    (h : Descends Row.id linkedRow (before.foldl (purgeCandidate now) q) c.1 p.id) :
    Withdrawn now q cs r := by
  have hlink : linkedRow p.id (afterTurns now q before r) = true := by
    have hkept := (afterTurns_links now q before r p.id).1.mpr
      ⟨hpred, fun c' hc' he => hpid c' (by rw [hcs]; exact List.mem_append_left _ hc') he.symm⟩
    simp [linkedRow, hkept]
  refine withdrawn_dead hstate hcs hdead ?_
  rw [← (afterTurns_fixed now q before r).1]
  exact .step h (mem_before hr hid hcs) hlink

end Turns

/-! ### Predecessors were leased or are done -/

/-- The row was leased or is done. -/
abbrev Touched (r : Row) : Prop := r.lastAttemptAt ≠ none ∨ r.Done

/-- Each predecessor link names a row that was leased or is done. -/
structure Preceded (q : List Row) : Prop where
  classified : ∀ r ∈ q, Classified r
  touched : ∀ r ∈ q, ∀ k, r.predecessorId = some k → ∃ p ∈ q, p.id = k ∧ Touched p

/-- A change keeps a touched row touched. -/
theorem Change.touched {c : Change} {r : Row} (hg : c.Guard r) (h : Touched r) :
    Touched (c.apply r) := by
  -- an open row was leased
  have hleased : ¬ r.Done → r.lastAttemptAt ≠ none := h.resolve_right
  cases c with
  | coalesce =>
    refine absurd hg.2 (hleased ?_)
    simp [hg.1]
  | lease => exact .inl nofun
  | succeed => exact .inr (.inl rfl)
  | cancel => exact .inr (.inr rfl)
  | withdraw => exact .inr (.inr rfl)
  | release | fail | retry =>
    refine .inl (hleased ?_)
    simp [show r.state = _ from hg]
  | unlinkPredecessor | unlinkDependency => exact h

section Preceded
variable {may : Change → Row → Prop} {q q' : List Row}

/-- Updates keep what is known of predecessors. -/
theorem Updates.preceded (h : Updates may q q') (hq : Preceded q) : Preceded q' := by
  obtain ⟨f, rfl, hsteps⟩ := h.map
  have hclassified : ∀ r ∈ q, Classified (f r) := fun r hr =>
    rowSteps_keep (fun _ _ _ hg hc => Change.classified hg hc) (hsteps r hr) (hq.classified r hr)
  constructor
  · intro r' hr'
    obtain ⟨r, hr, rfl⟩ := List.mem_map.mp hr'
    exact hclassified r hr
  · intro r' hr' k hk
    obtain ⟨r, hr, rfl⟩ := List.mem_map.mp hr'
    have hold : r.predecessorId = some k := by
      refine rowSteps_keep (P := fun t => t.predecessorId = some k → r.predecessorId = some k)
        (fun t c _ _ ht hset => ?_) (hsteps r hr) id hk
      rcases c.predecessorId t with h | h
      · exact ht (h ▸ hset)
      · rw [h] at hset
        cases hset
    obtain ⟨p, hp, hid, htouched⟩ := hq.touched r hr k hold
    refine ⟨f p, List.mem_map_of_mem hp, (rowSteps_fixed (hsteps p hp)).1.trans hid, ?_⟩
    exact rowSteps_keep (fun _ _ _ hg ht => Change.touched hg ht) (hsteps p hp) htouched

/-- An `_enqueue` call links a new row to a row that it may not rewrite. -/
theorem enqueue_preceded (e : Enqueue) (hunique : UniqueOn Row.id q) (hq : Preceded q) :
    Preceded (enqueue e q).1 := by
  -- a new row is pending, and its predecessor is the latest row of its key
  have hinsert : ∀ version pred, (∀ k, pred = some k → ∃ p ∈ q, p.id = k ∧ Touched p) →
      Preceded (q ++ [.new e.itemId e.endpoint e.payload e.logicalKey version pred e.dependsOnId
        e.maxAttempts e.now]) := by
    refine fun version pred hpred => ⟨fun r hr => ?_, fun r hr k hk => ?_⟩
    · rcases List.mem_append.mp hr with hr | hr
      · exact hq.classified r hr
      · rw [List.mem_singleton.mp hr]
        exact fun _ => .inl rfl
    · suffices hold : ∃ p ∈ q, p.id = k ∧ Touched p by
        obtain ⟨p, hp, hrest⟩ := hold
        exact ⟨p, List.mem_append_left _ hp, hrest⟩
      rcases List.mem_append.mp hr with hr | hr
      · exact hq.touched r hr k hk
      · rw [List.mem_singleton.mp hr] at hk
        exact hpred k hk
  unfold enqueue
  split
  · rename_i latest hlatest
    obtain ⟨hmem, -⟩ := latestBy_mem hlatest
    split
    -- a fresh latest row takes the new payload itself
    · rename_i hfresh
      refine @Updates.preceded (fun _ _ => True) q _ (.one _ _ fun r hr hp => ?_) hq
      rw [hunique.eq hr hmem hp.1]
      exact ⟨.coalesce _ _ _ _, trivial, hfresh, rfl⟩
    · rename_i hfresh
      refine hinsert _ _ fun k hk => ⟨latest, hmem, Option.some.inj hk, ?_⟩
      rcases (hq.classified latest hmem).cases with hdone | htried | hf
      · exact .inr hdone
      · exact .inl htried.2
      · exact absurd hf hfresh
  · exact hinsert _ _ fun k hk => (by cases hk)

/-- One turn of the purge deletes no predecessor without its links. -/
theorem purgeCandidate_preceded (now : Timestamp) (candidate : Uuid × QueueState)
    (hq : Preceded q) : Preceded (purgeCandidate now q candidate) := by
  obtain ⟨q₁, hupdates, hcut, heq⟩ := @purgeCandidate_cases (fun _ _ => True) q now candidate
    (fun _ => trivial) (fun _ => trivial) fun _ => trivial
  have hq₁ := hupdates.preceded hq
  rw [heq]
  refine ⟨fun r hr => hq₁.classified r (mem_deleteWhere.mp hr).1, fun r hr k hk => ?_⟩
  obtain ⟨hr, -⟩ := mem_deleteWhere.mp hr
  obtain ⟨p, hp, rfl, htouched⟩ := hq₁.touched r hr k hk
  exact ⟨p, mem_deleteWhere.mpr ⟨hp, fun hid => (hcut r hr).1 (hid ▸ hk)⟩, rfl, htouched⟩

end Preceded

/-- Links lead to earlier rows in every reachable store. -/
theorem preceded_reachable {ok : Store → Op → Prop} {s : Store}
    (h : Reachable storeMachine ok s) : Preceded s.db.syncQueue := by
  refine h.invariant (I := fun s => Preceded s.db.syncQueue)
    ⟨fun _ hr => absurd hr List.not_mem_nil, fun _ hr => absurd hr List.not_mem_nil⟩ ?_
  intro _ _ _ hreach _ hstep
  exact queue_step (keyed_reachable hreach) hstep (fun _ _ hu => hu.preceded)
    (fun e hq => enqueue_preceded e hq) fun now _ candidate => purgeCandidate_preceded now candidate

/-! ### Dependencies name the first rows of cameras -/

/-- The row is under a camera's key and has no predecessor. -/
structure Heads (t : Row) : Prop where
  first : t.predecessorId = none
  camera : ∃ c, t.logicalKey = .camera c

/-- The dependency of a row names a first row, which succeeded when the row was leased. -/
structure AnchoredIn (q : List Row) (r : Row) : Prop where
  revocation : r.logicalKey = .sessionRevoke → r.dependsOnId = none
  anchor : ∀ d, r.dependsOnId = some d → ∃ t ∈ q, t.id = d ∧ Heads t ∧
    (r.lastAttemptAt ≠ none → t.state = .succeeded)

section Anchors
variable {db : Db} {op : Op}

/-- The row that a camera's record is told to wait for is the first one of the camera. -/
theorem cameraDependency_heads (hlinked : Linked db.syncQueue) {cameraId d : Uuid}
    (h : AnalyticsRepository.cameraDependency cameraId db = .ok (some d)) :
    ∃ t ∈ db.syncQueue, t.id = d ∧ Heads t := by
  unfold AnalyticsRepository.cameraDependency at h
  split at h
  · cases h
  · split at h
    · cases h
    · split at h
      · cases h
      · rename_i t hfirst
        cases h
        obtain ⟨ht, hkey⟩ := firstBy_mem hfirst
        refine ⟨t, ht, rfl, ?_, cameraId, hkey⟩
        -- a predecessor would be an older row of the camera
        cases hpred : t.predecessorId with
        | none => rfl
        | some k =>
          obtain ⟨p, hp, -, hpkey, hlt⟩ := hlinked t ht k hpred
          have hle := firstBy_le hfirst hp (hpkey.trans hkey)
          omega

/-- What an operation enqueues depends on a first row, and a revocation on nothing. -/
theorem enqueueOf_anchored (hlinked : Linked db.syncQueue) {e : Enqueue}
    (h : enqueueOf db op = some e) :
    (e.logicalKey = .sessionRevoke → e.dependsOnId = none) ∧
      ∀ d, e.dependsOnId = some d → ∃ t ∈ db.syncQueue, t.id = d ∧ Heads t := by
  -- only records depend on a row, and it is the first of its camera
  cases op <;> simp only [enqueueOf, reduceCtorEq, Option.some.injEq, Option.map_eq_some_iff] at h
  case addEvent | addAlert | addPeopleCount =>
    split at h
    · cases h
      refine ⟨fun hkey => (by cases hkey), fun d hd => ?_⟩
      have hd' : _ = some d := hd
      subst hd'
      exact cameraDependency_heads hlinked ‹_›
    · cases h
  case updateCamera =>
    obtain ⟨current, -, rfl⟩ := h
    exact ⟨fun _ => rfl, fun d hd => by cases hd⟩
  case deleteCamera =>
    split at h
    · split at h <;> cases h
      exact ⟨fun _ => rfl, fun d hd => by cases hd⟩
    · cases h
  all_goals
    subst h
    exact ⟨fun _ => rfl, fun d hd => by cases hd⟩

/-- A lease finds the dependency of its row succeeded. -/
theorem leases_dependency (hq : UniqueOn Row.id db.syncQueue) {now expires : Timestamp}
    {token : Uuid} {owner : String} {r : Row} (h : Leases db op now expires token owner r)
    (hrevocation : r.logicalKey = .sessionRevoke → r.dependsOnId = none) :
    ∀ t ∈ db.syncQueue, r.dependsOnId = some t.id → t.state = .succeeded := by
  intro t ht hdep
  cases op with
  | claim now' token' owner' limit key leaseSeconds =>
    obtain ⟨-, -, -, -, -, -, -, -, -, hnone | ⟨d, hd, hid, hsucceeded⟩⟩ := h
    · rw [hnone] at hdep
      cases hdep
    · obtain ⟨d₀, hd₀, rfl⟩ := mem_updateWhere.mp hd
      have hsame : d₀.id = t.id := by
        rw [hdep] at hid
        rw [Option.some.inj hid]
        split <;> rfl
      obtain rfl := hq.eq hd₀ ht hsame
      split at hsucceeded
      · cases hsucceeded
      · exact hsucceeded
  | beginRevocation =>
    rw [hrevocation h.2.2] at hdep
    cases hdep
  | _ => cases h

/-- Every change of an operation keeps a row anchored among the rows before the operation. -/
theorem makes_anchored (hq : UniqueOn Row.id db.syncQueue) (hlinked : Linked db.syncQueue)
    {c : Change} {r : Row} (hmakes : Makes db op c r) (hg : c.Guard r)
    (h : AnchoredIn db.syncQueue r) : AnchoredIn db.syncQueue (c.apply r) := by
  cases c with
  -- the row takes over the dependency of the call, where it has one
  | coalesce endpoint payload now dependsOnId =>
    obtain ⟨e, he, -, hlatest, -, -, -, rfl⟩ := hmakes
    obtain ⟨hrevocation, hanchor⟩ := enqueueOf_anchored hlinked he
    have hkey : r.logicalKey = e.logicalKey := (latestBy_mem hlatest).2
    constructor
    · intro hrevoke
      have hnew := hrevocation (hkey.symm.trans hrevoke)
      show (e.dependsOnId <|> r.dependsOnId) = none
      rw [hnew, h.revocation hrevoke]
      rfl
    · intro d hd
      have hd' : (e.dependsOnId <|> r.dependsOnId) = some d := hd
      have hnever : ¬ r.lastAttemptAt ≠ none := fun hne => hne hg.2
      cases hdep : e.dependsOnId with
      | some d' =>
        rw [hdep] at hd'
        cases hd'
        obtain ⟨t, ht, hid, hheads⟩ := hanchor d hdep
        exact ⟨t, ht, hid, hheads, fun hne => absurd hne hnever⟩
      | none =>
        rw [hdep] at hd'
        obtain ⟨t, ht, hid, hheads, -⟩ := h.anchor d hd'
        exact ⟨t, ht, hid, hheads, fun hne => absurd hne hnever⟩
  -- a lease finds the dependency done
  | lease now expires token owner =>
    refine ⟨h.revocation, fun d hd => ?_⟩
    obtain ⟨t, ht, rfl, hheads, -⟩ := h.anchor d hd
    exact ⟨t, ht, rfl, hheads, fun _ => leases_dependency hq hmakes h.revocation t ht hd⟩
  | unlinkDependency => exact ⟨fun _ => rfl, nofun⟩
  | release | succeed | fail | cancel | withdraw | retry | unlinkPredecessor =>
    exact ⟨h.revocation, h.anchor⟩

/-- An operation other than a purge keeps each row, up to its changes. -/
theorem OpCases.old_row {q' : List Row} (hcases : OpCases db op q')
    (hq : UniqueOn Row.id db.syncQueue) (hop : ∀ now d d', op ≠ .purgeRetained now d d') {r : Row}
    (hr : r ∈ db.syncQueue) : ∃ r' ∈ q', ReflTransGen (RowStep (Makes db op)) r r' := by
  -- an `_enqueue` rewrites the latest row of its key, or adds one
  have henqueue : ∀ e, enqueueOf db op = some e → ∃ r' ∈ (enqueue e db.syncQueue).1,
      ReflTransGen (RowStep (Makes db op)) r r' := by
    intro e he
    unfold enqueue
    split
    · rename_i latest hlatest
      split
      · rename_i hfresh
        refine ⟨_, mem_updateWhere.mpr ⟨r, hr, rfl⟩, ?_⟩
        split
        · rename_i hp
          have hsame := hq.eq hr (latestBy_mem hlatest).1 hp.1
          subst hsame
          exact .single ⟨.coalesce _ _ _ _, ⟨e, he, hr, hlatest, rfl, rfl, rfl, rfl⟩, hfresh, rfl⟩
        · exact .refl
      · exact ⟨r, List.mem_append_left _ hr, .refl⟩
    · exact ⟨r, List.mem_append_left _ hr, .refl⟩
  cases hcases with
  | updates hu =>
    obtain ⟨f, rfl, hsteps⟩ := hu.map
    exact ⟨f r, List.mem_map_of_mem hr, hsteps r hr⟩
  | enqueued e he => exact henqueue e he
  | revoked e he _ hu =>
    obtain ⟨r₁, hr₁, hsteps₁⟩ := henqueue e he
    obtain ⟨f, rfl, hsteps⟩ := hu.map
    exact ⟨f r₁, List.mem_map_of_mem hr₁, hsteps₁.trans (hsteps r₁ hr₁)⟩
  -- only a purge takes rows away
  | purged now d d' hpurge => exact absurd hpurge (hop now d d')

/-- Outside of a purge a first row stays one, and stays succeeded. -/
theorem heads_steps (hop : ∀ now d d', op ≠ .purgeRetained now d d') {t t' : Row}
    (hsteps : ReflTransGen (RowStep (Makes db op)) t t') (h : Heads t) :
    Heads t' ∧ (t.state = .succeeded → t'.state = .succeeded) := by
  constructor
  · refine rowSteps_keep (fun r c _ _ hr => ⟨?_, ?_⟩) hsteps h
    · rcases c.predecessorId r with hsame | hnone
      · exact hsame.trans hr.first
      · exact hnone
    · exact (c.apply_fixed r).2.1 ▸ hr.camera
  · refine fun hstate => rowSteps_keep (P := fun r => r.state = .succeeded)
      (fun r c hmakes hg hr => ?_) hsteps hstate
    cases c with
    | withdraw =>
      cases op with
      | purgeRetained now d d' => exact absurd rfl (hop now d d')
      | _ => cases hmakes
    | unlinkPredecessor | unlinkDependency => exact hr
    | coalesce | lease | release | succeed | fail | cancel | retry =>
      simp [Change.Guard, Row.Fresh, Row.Waiting, hr] at hg

end Anchors

section Purge
variable {now : Timestamp} {q : List Row} {r : Row} {cs : List (Uuid × QueueState)}

/-- A first row hangs on nothing, so no turn withdraws it. -/
theorem heads_spared (hq : UniqueOn Row.id q) {t : Row} (ht : t ∈ q) (hid : ∀ c ∈ cs, t.id ≠ c.1)
    (hheads : Heads t) (hfree : Free t) : ¬ Withdrawn now q cs t := by
  intro hw
  obtain ⟨c, -, -, hdescends⟩ := hw.descends ht hid
  have hnone : ∀ n ∈ q, n.id = t.id → ∀ k, ¬ linkedRow k n = true := by
    intro n hn hname k hlink
    obtain rfl := hq.eq hn ht hname
    obtain ⟨camera, hkey⟩ := hheads.camera
    simp [linkedRow, hheads.first, hfree camera hkey] at hlink
  generalize hj : t.id = j at hdescends
  cases hdescends with
  | child hn hlink => exact hnone _ hn hj.symm _ hlink
  | step _ hn hlink => exact hnone _ hn hj.symm _ hlink

/-- The turns leave each row anchored. -/
theorem anchored_turns (hq : UniqueOn Row.id q) (hfree : ∀ r ∈ q, Free r)
    (h : ∀ r ∈ q, AnchoredIn q r) :
    ∀ r' ∈ cs.foldl (purgeCandidate now) q, AnchoredIn (cs.foldl (purgeCandidate now) q) r' := by
  intro r' hr'
  obtain ⟨r, hr, hid, rfl⟩ := mem_turns.mp hr'
  obtain ⟨-, hkey, hlast⟩ := afterTurns_fixed now q cs r
  constructor
  -- a revocation has no dependency, and a turn adds none
  · intro hrevoke
    have hnone := (h r hr).revocation (hkey ▸ hrevoke)
    refine Option.eq_none_iff_forall_ne_some.mpr fun d hd => ?_
    rw [((afterTurns_links _ _ _ _ d).2.mp hd).1] at hnone
    cases hnone
  · intro d hd
    obtain ⟨hold, hleft⟩ := (afterTurns_links _ _ _ _ d).2.mp hd
    obtain ⟨t, ht, rfl, hheads, hsucceeded⟩ := (h r hr).anchor d hold
    have htid : ∀ c ∈ cs, t.id ≠ c.1 := fun c hc he => hleft c hc he.symm
    obtain ⟨hname, htkey, -⟩ := afterTurns_fixed now q cs t
    refine ⟨_, mem_turns.mpr ⟨t, ht, htid, rfl⟩, hname, ⟨?_, htkey ▸ hheads.camera⟩, ?_⟩
    · refine Option.eq_none_iff_forall_ne_some.mpr fun k hk => ?_
      have hfirst := hheads.first
      rw [((afterTurns_links _ _ _ _ k).1.mp hk).1] at hfirst
      cases hfirst
    · intro hleased
      -- the row that a record waits for is not withdrawn while the record is alive
      rcases afterTurns_state now q cs t with ⟨hw, -⟩ | ⟨-, hstate⟩
      · exact absurd hw (heads_spared hq ht htid hheads (hfree t ht))
      · exact hstate.trans (hsucceeded (hlast ▸ hleased))

end Purge

/-- In every reachable store every row is anchored. -/
theorem anchored_reachable {ok : Store → Op → Prop} {s : Store}
    (h : Reachable storeMachine ok s) : ∀ r ∈ s.db.syncQueue, AnchoredIn s.db.syncQueue r := by
  refine h.invariant (I := fun s => ∀ r ∈ s.db.syncQueue, AnchoredIn s.db.syncQueue r)
    (fun _ hr => absurd hr List.not_mem_nil) ?_
  intro s op s' hreach _ hstep ih
  have hkeyed := keyed_reachable hreach
  have hlinked := linked_reachable hreach
  by_cases hop : ∃ now d d', op = .purgeRetained now d d'
  · obtain ⟨now, d, d', rfl⟩ := hop
    obtain ⟨-, rfl⟩ := store_step hstep
    exact anchored_turns hkeyed.unique (free_reachable hreach) ih
  push Not at hop
  have hrows := step_rows hkeyed hstep ih
    (fun r hr => by
      obtain ⟨e, _, _, he, rfl⟩ := hr
      obtain ⟨hrevocation, hanchor⟩ := enqueueOf_anchored hlinked he
      refine ⟨hrevocation, fun d hd => ?_⟩
      obtain ⟨t, ht, hid, hheads⟩ := hanchor d hd
      exact ⟨t, ht, hid, hheads, fun hne => absurd rfl hne⟩)
    fun r c hmakes hg hr => makes_anchored hkeyed.unique hlinked hmakes hg hr
  obtain ⟨hadmits, rfl⟩ := store_step hstep
  have hcases := op_cases s.db op hkeyed.unique
    fun r hr hmem => hadmits.2 _ hmem (hkeyed.issued r hr)
  -- the first rows are still there after the operation
  refine fun r' hr' => ⟨(hrows r' hr').revocation, fun d hd => ?_⟩
  obtain ⟨t, ht, rfl, hheads, hsucceeded⟩ := (hrows r' hr').anchor d hd
  obtain ⟨t', ht', hsteps⟩ := hcases.old_row hkeyed.unique hop ht
  obtain ⟨hheads', hstays⟩ := heads_steps hop hsteps hheads
  exact ⟨t', ht', (rowSteps_fixed hsteps).1, hheads', fun hne => hstays (hsucceeded hne)⟩

/-! ### The purge -/

/-- A purge made `queue` of the old queue and is safe: no link dangles, no gate of a waiting row
opens, no inflight row changes its state, and a row that changes it is cancelled, for a deleted
row that was dead or cancelled. -/
structure PurgeSafe (old queue : List Row) : Prop where
  rows : ∀ r' ∈ queue, ∃ r ∈ old, r.id = r'.id
  predecessors : ∀ r' ∈ queue, ∀ p, r'.predecessorId = some p → ∃ t ∈ queue, t.id = p
  dependencies : ∀ r' ∈ queue, ∀ d, r'.dependsOnId = some d → ∃ t ∈ queue, t.id = d
  unblocked : ∀ r ∈ old, ∀ r' ∈ queue, r'.id = r.id → r'.Waiting →
    SyncQueueRepository.Unblocked queue r' → SyncQueueRepository.Unblocked old r
  dependencyMet : ∀ r ∈ old, ∀ r' ∈ queue, r'.id = r.id → r'.Waiting →
    SyncQueueRepository.DependencyMet queue r' → SyncQueueRepository.DependencyMet old r
  inflight : ∀ r ∈ old, r.state = .inflight → ∃ r' ∈ queue, r'.id = r.id ∧ r'.state = .inflight
  changed : ∀ r ∈ old, ∀ r' ∈ queue, r'.id = r.id → r'.state ≠ r.state →
    r'.state = .cancelled ∧ ∃ c ∈ old, (c.state = .deadLetter ∨ c.state = .cancelled) ∧
      (∀ t ∈ queue, t.id ≠ c.id) ∧ Descends Row.id linkedRow old c.id r.id

/-- What a purge may rely on: the invariants of the queue, and candidates that are settled rows
with their states. -/
structure Purgeable (q : List Row) (cs : List (Uuid × QueueState)) : Prop where
  unique : UniqueOn Row.id q
  linked : Linked q
  free : ∀ r ∈ q, Free r
  anchored : ∀ r ∈ q, AnchoredIn q r
  preceded : Preceded q
  candidates : ∀ c ∈ cs, ∃ t ∈ q, Settled t ∧ c = (t.id, t.state)

namespace Purgeable
variable {now : Timestamp} {q : List Row} {cs : List (Uuid × QueueState)} {r : Row}

/-- A name that is a candidate's has its first turn, with the state of its row. -/
theorem turn (h : Purgeable q cs) {k : Uuid} (hk : ¬ ∀ c ∈ cs, c.1 ≠ k) :
    ∃ t ∈ q, t.id = k ∧ Settled t ∧ ∃ before after,
      cs = before ++ (t.id, t.state) :: after ∧ ∀ c ∈ before, c.1 ≠ t.id := by
  push Not at hk
  obtain ⟨c, hc, rfl⟩ := hk
  obtain ⟨t, ht, hsettled, rfl⟩ := h.candidates c hc
  obtain ⟨before, after, hcs, hfirst⟩ := List.eq_append_cons_of_mem hc
  refine ⟨t, ht, rfl, hsettled, before, after, hcs, fun c' hc' hid => ?_⟩
  -- one name has one row, so an earlier turn of it would be the same candidate
  obtain ⟨t', ht', -, rfl⟩ := h.candidates c' (by rw [hcs]; exact List.mem_append_left _ hc')
  obtain rfl := h.unique.eq ht' ht hid
  exact hfirst hc'

/-- A row that still waits kept its state. -/
theorem spared (hwaiting : (afterTurns now q cs r).Waiting) :
    ¬ Withdrawn now q cs r ∧ r.state ≠ .inflight := by
  rcases afterTurns_state now q cs r with ⟨-, hstate⟩ | ⟨hnot, hstate⟩
  · rcases hwaiting with hw | hw <;> rw [hstate] at hw <;> cases hw
  · refine ⟨hnot, fun hinflight => ?_⟩
    rcases hwaiting with hw | hw <;> rw [hstate, hinflight] at hw <;> cases hw

/-- A waiting row that no predecessor blocks after the turns was not blocked before. -/
theorem unblocked (h : Purgeable q cs) (hr : r ∈ q) (hid : ∀ c ∈ cs, r.id ≠ c.1)
    (hwaiting : (afterTurns now q cs r).Waiting)
    (hgate : SyncQueueRepository.Unblocked (cs.foldl (purgeCandidate now) q)
      (afterTurns now q cs r)) : SyncQueueRepository.Unblocked q r := by
  obtain ⟨hspared, hidle⟩ := spared hwaiting
  rcases hgate with hcut | ⟨p', hp', hlink, hdone⟩
  · cases hpred : r.predecessorId with
    | none => exact .inl hpred
    | some k =>
      -- the link was cut in the turn of the predecessor
      have hk : ¬ ∀ c ∈ cs, c.1 ≠ k := fun hleft => by
        rw [(afterTurns_links _ _ _ _ k).1.mpr ⟨hpred, hleft⟩] at hcut
        cases hcut
      obtain ⟨t, ht, rfl, hdone | hdead, before, after, hcs, hfirst⟩ := h.turn hk
      · exact .inr ⟨t, ht, hpred, hdone⟩
      · refine absurd (withdrawn_child hr hid hidle hcs hfirst hdead ?_) hspared
        simp [linkedRow, hpred]
  · obtain ⟨p, hp, hpid, rfl⟩ := mem_turns.mp hp'
    rw [(afterTurns_fixed now q cs p).1] at hlink
    have hpred := ((afterTurns_links _ _ _ _ p.id).1.mp hlink).1
    refine .inr ⟨p, hp, hpred, ?_⟩
    by_contra hopen
    rcases afterTurns_state now q cs p with ⟨⟨before, c, after, hcs, -, hw⟩, -⟩ | ⟨-, hstate⟩
    · rcases hw with ⟨hdead, hmem⟩ | ⟨hcancelled, hdep⟩
      · rw [(afterTurns_fixed now q before p).1] at hmem
        exact hspared (withdrawn_step hr hid hidle hpred hpid hcs hdead (mem_descendants.mp hmem))
      · -- the predecessor was leased, so it does not depend on a cancelled row
        have hdep' := ((afterTurns_links _ _ _ _ c.1).2.mp hdep).1
        obtain ⟨t, ht, -, rfl⟩ := h.candidates c (by simp [hcs])
        obtain ⟨p₁, hp₁, hsame, htouched⟩ := h.preceded.touched r hr p.id hpred
        obtain rfl := h.unique.eq hp₁ hp hsame
        obtain ⟨t₁, ht₁, hname, -, hsucceeded⟩ := (h.anchored p₁ hp).anchor t.id hdep'
        obtain rfl := h.unique.eq ht₁ ht hname
        have hstate : t₁.state = .cancelled := hcancelled
        rw [hsucceeded (htouched.resolve_right hopen)] at hstate
        cases hstate
    · exact hopen (by simpa only [Row.Done, hstate] using hdone)

/-- A waiting row whose dependency is met after the turns had it met before. -/
theorem dependencyMet (h : Purgeable q cs) (hr : r ∈ q) (hid : ∀ c ∈ cs, r.id ≠ c.1)
    (hwaiting : (afterTurns now q cs r).Waiting)
    (hgate : SyncQueueRepository.DependencyMet (cs.foldl (purgeCandidate now) q)
      (afterTurns now q cs r)) : SyncQueueRepository.DependencyMet q r := by
  obtain ⟨hspared, hidle⟩ := spared hwaiting
  rcases hgate with hcut | ⟨d', hd', hlink, hsucceeded⟩
  · cases hdep : r.dependsOnId with
    | none => exact .inl hdep
    | some k =>
      have hk : ¬ ∀ c ∈ cs, c.1 ≠ k := fun hleft => by
        rw [(afterTurns_links _ _ _ _ k).2.mpr ⟨hdep, hleft⟩] at hcut
        cases hcut
      obtain ⟨t, ht, rfl, (hsucceeded | hcancelled) | hdead, before, after, hcs, hfirst⟩ :=
        h.turn hk
      · exact .inr ⟨t, ht, hdep, hsucceeded⟩
      · -- a dependent row is cancelled with a cancelled row
        refine absurd ⟨before, _, after, hcs, afterTurns_idle hidle, .inr ⟨hcancelled, ?_⟩⟩ hspared
        exact (afterTurns_links _ _ _ _ t.id).2.mpr ⟨hdep, hfirst⟩
      · refine absurd (withdrawn_child hr hid hidle hcs hfirst hdead ?_) hspared
        simp [linkedRow, hdep]
  · obtain ⟨d, hd, -, rfl⟩ := mem_turns.mp hd'
    rw [(afterTurns_fixed now q cs d).1] at hlink
    refine .inr ⟨d, hd, ((afterTurns_links _ _ _ _ d.id).2.mp hlink).1, ?_⟩
    -- the turns do not make a row succeed
    rcases afterTurns_state now q cs d with ⟨-, hstate⟩ | ⟨-, hstate⟩ <;> rw [hstate] at hsucceeded
    · cases hsucceeded
    · exact hsucceeded

/-- The turns of the candidates are safe. -/
theorem safe (h : Purgeable q cs) (now : Timestamp) :
    PurgeSafe q (cs.foldl (purgeCandidate now) q) := by
  -- a row of the new queue is the row of its name in the old one, after the turns
  have hsame : ∀ r ∈ q, ∀ r' ∈ cs.foldl (purgeCandidate now) q, r'.id = r.id →
      (∀ c ∈ cs, r.id ≠ c.1) ∧ afterTurns now q cs r = r' := by
    intro r hr r' hr' hid
    obtain ⟨r₀, hr₀, hleft, rfl⟩ := mem_turns.mp hr'
    rw [(afterTurns_fixed now q cs r₀).1] at hid
    obtain rfl := h.unique.eq hr₀ hr hid
    exact ⟨hleft, rfl⟩
  constructor
  case rows =>
    intro r' hr'
    obtain ⟨r, hr, -, rfl⟩ := mem_turns.mp hr'
    exact ⟨r, hr, (afterTurns_fixed now q cs r).1.symm⟩
  case predecessors =>
    intro r' hr' p hlink
    obtain ⟨r, hr, -, rfl⟩ := mem_turns.mp hr'
    obtain ⟨hpred, hleft⟩ := (afterTurns_links _ _ _ _ p).1.mp hlink
    obtain ⟨t, ht, rfl, -⟩ := h.linked r hr p hpred
    exact ⟨_, mem_turns.mpr ⟨t, ht, fun c hc he => hleft c hc he.symm, rfl⟩,
      (afterTurns_fixed now q cs t).1⟩
  case dependencies =>
    intro r' hr' d hlink
    obtain ⟨t, ht, hid, -⟩ := (anchored_turns h.unique h.free h.anchored r' hr').anchor d hlink
    exact ⟨t, ht, hid⟩
  case unblocked =>
    intro r hr r' hr' hid hwaiting hgate
    obtain ⟨hleft, rfl⟩ := hsame r hr r' hr' hid
    exact h.unblocked hr hleft hwaiting hgate
  case dependencyMet =>
    intro r hr r' hr' hid hwaiting hgate
    obtain ⟨hleft, rfl⟩ := hsame r hr r' hr' hid
    exact h.dependencyMet hr hleft hwaiting hgate
  case inflight =>
    intro r hr hstate
    refine ⟨_, mem_turns.mpr ⟨r, hr, fun c hc hid => ?_, rfl⟩, (afterTurns_fixed now q cs r).1,
      afterTurns_inflight hstate⟩
    obtain ⟨t, ht, hsettled, rfl⟩ := h.candidates c hc
    obtain rfl := h.unique.eq hr ht hid
    simp [Settled, Row.Done, hstate] at hsettled
  case changed =>
    intro r hr r' hr' hid hne
    obtain ⟨hleft, rfl⟩ := hsame r hr r' hr' hid
    rcases afterTurns_state now q cs r with ⟨hw, hstate⟩ | ⟨-, hstate⟩
    · obtain ⟨c, hc, hkind, hdescends⟩ := hw.descends hr hleft
      obtain ⟨t, ht, -, rfl⟩ := h.candidates c hc
      refine ⟨hstate, t, ht, hkind, fun t' ht' hname => ?_, hdescends⟩
      exact (hsame t ht t' ht' hname).1 _ hc rfl
    · exact absurd hstate hne

end Purgeable

/-- In every reachable store the queue is ready for a purge. -/
theorem purgeable_reachable {s : Store} (h : Reachable storeMachine Any s)
    (succeededBefore deadBefore : Timestamp) : Purgeable s.db.syncQueue
      (SyncQueueRepository.purgeCandidates succeededBefore deadBefore s.db.syncQueue) where
  unique := (keyed_reachable h).unique
  linked := linked_reachable h
  free := free_reachable h
  anchored := anchored_reachable h
  preceded := preceded_reachable h
  candidates _ hc := purgeCandidates_mem hc

/-- Purging is safe: in every reachable store, the turns of the candidates are safe for all
thresholds, and so is `purge_retained` at every time and for all retentions. -/
theorem purge_safe {s : Store} (h : Reachable storeMachine Any s) (now : Timestamp) :
    (∀ succeededBefore deadBefore, PurgeSafe s.db.syncQueue
      ((SyncQueueRepository.purgeCandidates succeededBefore deadBefore s.db.syncQueue).foldl
        (purgeCandidate now) s.db.syncQueue)) ∧
    ∀ succeededDays deadLetterDays, PurgeSafe s.db.syncQueue
      (SyncQueueRepository.purgeRetained now succeededDays deadLetterDays s.db).1.syncQueue :=
  ⟨fun succeededBefore deadBefore => (purgeable_reachable h succeededBefore deadBefore).safe now,
    fun _ _ => (purgeable_reachable h _ _).safe now⟩

/-- A camera's creation fails for good while an event of the camera waits for it. -/
def failedCreation : List Op :=
  [.createCamera 0 1 2 ⟨"gate", "rtsp://gate", .rtsp, none, [], []⟩ 4 defaultMaxAttempts,
    .claim 1 3 "worker" 1 none 60,
    .addEvent 2 4 5 ⟨1, "person", [], none, none, 2⟩ defaultMaxAttempts,
    .fail 3 2 3 "worker" "contract_error" "Central request failed" true]

/-- The purge a month later deletes the dead letter and cancels the event. -/
theorem purge_safe_failed :
    let db := (storeMachine.final .empty failedCreation).db
    let queue := (SyncQueueRepository.purgeRetained (days 31) 7 30 db).1.syncQueue
    PurgeSafe db.syncQueue queue ∧ db.syncQueue.length = 2 ∧
      queue.map (fun r => (r.id, r.state, r.dependsOnId)) = [(4, .cancelled, none)] :=
  ⟨(purge_safe (.final .init failedCreation (by decide +kernel)) (days 31)).2 7 30,
    by decide +kernel, by decide +kernel⟩

end Rsap.Proofs
