import Rsap.Proofs.Items

/-!
# `Rsap.Proofs.Completions`: each completion is of a row of its kind

`flush_once` chooses the completion of an item by the item's payload. Since the item's copy of
the payload is true (`Coherent`), the completion is one for the kind of its row (`Matched`): a
camera's `POST` or `PATCH` is completed by `complete_camera` for that camera, a revocation by
`complete_revocation`, and everything else by `complete`. The one exception is a revocation
that does not concern the pass, which is completed by `complete`.

`matched_reachable` turns a run of the world into a run of the store with matched completions.
-/

set_option autoImplicit false

namespace Rsap.Proofs

open Rsap.Library
open Rsap.Library.Machine (Reachable Any)
open Rsap.Desktop

/-- The payload creates or changes a camera. -/
def savesCamera : Payload → Bool
  | .cameraPost _ _ => true
  | .cameraPatch _ _ _ => true
  | _ => false

/-- The completion is one for the kind of the row that it names. -/
def Matched (s : Store) : Op → Prop
  | .complete _ itemId _ _ => ∀ r ∈ s.db.syncQueue, r.id = itemId → savesCamera r.payload = false
  | .completeCamera _ itemId _ _ localId _ =>
    ∀ r ∈ s.db.syncQueue, r.id = itemId → r.logicalKey = .camera localId
  | .completeRevocation _ itemId _ _ _ =>
    ∀ r ∈ s.db.syncQueue, r.id = itemId → r.logicalKey = .sessionRevoke
  | _ => True

/-! ### The stages of an item -/

/-- The settlement is one for the payload of the item. -/
def settlementFits (item : Item) : Settlement → Prop
  | .complete => savesCamera item.payload = false
  | .completeCamera localId _ => (∃ body, item.payload = .cameraPost localId body) ∨
      ∃ body analytics, item.payload = .cameraPatch localId body analytics
  | .completeRevocation generation => item.payload = .sessionRevoke generation
  | .fail .. => True

/-- The stage is one for the payload of the item: only a revocation makes the `logout` call,
and the settlement fits. -/
def stageFits (item : Item) : Stage → Prop
  | .calling .logout _ => ∃ generation, item.payload = .sessionRevoke generation
  | .calling _ _ => ∀ generation, item.payload ≠ .sessionRevoke generation
  | .settling settlement => settlementFits item settlement
  | .raised => True

section Stages
variable {item : Item}

/-- The stage after the requests of an item fits the item. -/
theorem afterRequests_fits (item : Item) (data : Json) :
    stageFits item (afterRequests item data) := by
  have hcamera : ∀ localId, ((∃ body, item.payload = .cameraPost localId body) ∨
      ∃ body analytics, item.payload = .cameraPatch localId body analytics) →
      stageFits item (.settling (settleCamera data localId)) := fun localId h => by
    unfold settleCamera
    split
    · exact h
    · trivial
  unfold afterRequests
  split
  · rename_i localId body heq
    exact hcamera localId (.inl ⟨body, heq⟩)
  · rename_i localId body analytics heq
    exact hcamera localId (.inr ⟨body, analytics, heq⟩)
  · rename_i hpost hpatch
    show savesCamera item.payload = false
    cases heq : item.payload with
    | cameraPost localId body => exact absurd heq (hpost localId body)
    | cameraPatch localId body analytics => exact absurd heq (hpatch localId body analytics)
    | _ => rfl

/-- So does the stage after its main request. -/
theorem afterMain_fits (h : ∀ generation, item.payload ≠ .sessionRevoke generation)
    (data : Json) : stageFits item (afterMain item data) := by
  unfold afterMain
  split
  · exact h
  · exact afterRequests_fits item data

/-- The handling of an item starts at a stage for its payload. -/
theorem startItem_fits (record : SessionRecord) (item : Item) :
    stageFits item (startItem record item) := by
  unfold startItem
  split
  · rename_i generation heq
    split
    · show savesCamera item.payload = false
      rw [heq]
      rfl
    · exact ⟨generation, heq⟩
  · rename_i hrevoke
    split
    · exact hrevoke
    · exact afterMain_fits hrevoke _

/-- A call leads to a stage for the payload. -/
theorem afterCall_fits {call : Call} {attempt : Nat} (h : stageFits item (.calling call attempt))
    (result : CallResult) : stageFits item (afterCall item call result) := by
  -- the request of a logout is made for a revocation only
  have hrevoke : call = .logout →
      stageFits item (.settling (.completeRevocation item.payload.generation)) := by
    rintro rfl
    obtain ⟨generation, heq⟩ := h
    show item.payload = .sessionRevoke item.payload.generation
    rw [heq]
    rfl
  cases result with
  | raised => trivial
  | data data =>
    cases call with
    | main => exact afterMain_fits h data
    | analytics data => exact afterRequests_fits item data
    | logout => exact hrevoke rfl
  | error e =>
    cases call with
    | main =>
      simp only [afterCall]
      split
      · exact afterMain_fits h _
      · trivial
    | analytics => trivial
    | logout =>
      simp only [afterCall]
      split
      · exact hrevoke rfl
      · trivial

/-- An attempt leads to a stage for the payload. -/
theorem receive_fits (settings : Settings) {stage : Stage} (h : stageFits item stage)
    (outcome : AttemptOutcome) : stageFits item (stage.receive settings item outcome) := by
  cases stage with
  | settling | raised => exact h
  | calling call attempt =>
    simp only [Stage.receive]
    split
    · exact afterCall_fits h _
    · cases call <;> exact h

end Stages

/-! ### The passes -/

/-- Every pass is at a stage for the payload of its item. -/
def StagesFit (w : World) : Prop :=
  ∀ pass ∈ w.passes, ∀ item stage rest, pass.stage = .working item stage rest →
    stageFits item stage

section Worlds
variable {settings : Settings} {ok : World → Act → Prop} {w w' : World} {a : Act}

/-- A step keeps the passes at fitting stages. -/
theorem stagesFit_step (hstep : StepCases settings w a w') (h : StagesFit w) : StagesFit w' :=
  stage_step (P := fun _ item stage => stageFits item stage) startItem_fits
    (fun _ _ _ outcome hfits => receive_fits settings hfits outcome) hstep h

/-- The stage of every pass fits its item, in every reachable world. -/
theorem stagesFit_reachable (h : Reachable (worldMachine settings) ok w) : StagesFit w :=
  h.invariant (I := StagesFit) (fun _ hpass => absurd hpass List.not_mem_nil)
    fun _ _ _ _ _ hstep => stagesFit_step (step_cases hstep)

/-- A settlement that fits its item is matched by the item's row. -/
theorem settlement_matched {s : Store} (hfits : ∀ r ∈ s.db.syncQueue,
      Fits r.logicalKey r.endpoint r.payload) {item : Item}
    (htracked : Tracked s item.id item.endpoint item.payload) {settlement : Settlement}
    (h : settlementFits item settlement) (now : Timestamp) :
    Matched s (settlement.op item now) := by
  cases settlement with
  | complete =>
    intro r hr hid
    rw [(htracked.row r hr hid).2.2]
    exact h
  | completeCamera localId serverId =>
    intro r hr hid
    have hrow := hfits r hr
    rw [(htracked.row r hr hid).2.2] at hrow
    rcases h with ⟨body, heq⟩ | ⟨body, analytics, heq⟩ <;> rw [heq] at hrow <;> exact hrow.1
  | completeRevocation generation =>
    intro r hr hid
    have hrow := hfits r hr
    rw [(htracked.row r hr hid).2.2, show item.payload = _ from h] at hrow
    exact hrow.1
  | fail => trivial

/-- The write of an authentication task is matched. -/
theorem authWrite_matched (hfits : ∀ r ∈ w.store.db.syncQueue,
      Fits r.logicalKey r.endpoint r.payload) (hcoherent : Coherent w) {task : AuthTask}
    (hauth : w.auth = some task) {now : Timestamp} {itemId claimToken : Uuid} {op : Op}
    (hop : task.op settings.maxAttempts settings.leaseSeconds.val now itemId claimToken =
      some op) : Matched w.store op := by
  cases task <;> cases hop
  case logoutComplete record generation itemId claimToken =>
    obtain ⟨g, htracked⟩ := hcoherent.auth _ hauth itemId rfl
    intro r hr hid
    have hrow := hfits r hr
    rw [(htracked.row r hr hid).2.2] at hrow
    exact hrow.1
  all_goals trivial

/-- A step of the world writes the store at most once, by a matched operation. -/
theorem step_matched (hfits : ∀ r ∈ w.store.db.syncQueue,
      Fits r.logicalKey r.endpoint r.payload) (hcoherent : Coherent w) (hstages : StagesFit w)
    (h : StepCases settings w a w') :
    w'.store = w.store ∨
      ∃ op reply, w.store.apply op = some (w'.store, reply) ∧ Matched w.store op := by
  cases h with
  | flush | attempted | attemptRaised | login | license | logout | refresh | authLogout
    | authRefresh | authenticate | expire | crash => exact .inl rfl
  | @op op _ _ hlocal happly =>
    refine .inr ⟨op, _, happly, ?_⟩
    cases op with
    | complete | completeCamera | completeRevocation => cases hlocal
    | _ => trivial
  | claimed _ _ happly | claimRaised _ happly | purged happly | clear _ happly =>
    exact .inr ⟨_, _, happly, trivial⟩
  | @settled i now pass item settlement rest _ _ hmem hstage happly =>
    refine .inr ⟨_, _, happly, settlement_matched hfits ?_ (hstages pass hmem _ _ _ hstage) now⟩
    exact hcoherent.passes pass hmem item (by rw [passItems, hstage]; exact List.mem_cons_self)
  | authWrite hauth hop happly =>
    exact .inr ⟨_, _, happly, authWrite_matched hfits hcoherent hauth hop⟩

/-- The store of a reachable world is reached by matched completions. -/
theorem matched_reachable (h : Reachable (worldMachine settings) ok w) :
    Reachable storeMachine Matched w.store := by
  refine h.invariant (I := fun w => Reachable storeMachine Matched w.store) .init
    fun w a w' hreach _ hstep ih => ?_
  rcases step_matched (fits_reachable (store_reachable hreach)) (coherent_reachable hreach)
    (stagesFit_reachable hreach) (step_cases hstep) with heq | ⟨op, reply, happly, hmatched⟩
  · rw [heq]
    exact ih
  · exact ih.step op hmatched (apply_step happly).1

end Worlds

end Rsap.Proofs
