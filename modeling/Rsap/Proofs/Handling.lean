import Rsap.Desktop.Sync

/-!
# `Rsap.Proofs.Handling`: the handling of one item ends

The handling of an item makes a bounded number of HTTP attempts (`drive_ended`). It ends with
a settlement, or it raises. It raises exactly when an attempt that it makes escapes the client
(`handleItem_raised`): the attempt ends in an exception outside of the two classes that
`_request` translates, or in a JSON body on which the parser raises something else than a
`ValueError`.
-/

set_option autoImplicit false

namespace Rsap.Desktop

/-- The attempt ends in an exception that `_request` does not translate. -/
def AttemptOutcome.escapes : AttemptOutcome → Bool
  | .raised .timeout | .raised .network => false
  | .raised _ => true
  | .response r => r.mediaType == "application/json" && r.body == .recursionError

namespace CentralApiClient

/-- Unwrapping a response raises exactly when the parser of its body does. -/
theorem unwrap_raised {r : Response} :
    unwrap r = .raised ↔ (AttemptOutcome.response r).escapes = true := by
  simp only [unwrap, AttemptOutcome.escapes, Bool.and_eq_true, beq_iff_eq]
  split
  · rename_i hmedia
    simp [invalidResponse, hmedia]
  · rename_i hmedia
    have hjson : r.mediaType = "application/json" := by simpa using hmedia
    cases hbody : r.body with
    | valueError => simp [invalidResponse]
    | recursionError => simp [hjson]
    | value body =>
      simp only [reduceCtorEq, and_false, iff_false]
      split <;> nofun

/-- An attempt raises exactly when it escapes. -/
theorem settleAttempt_raised {last : Bool} {outcome : AttemptOutcome} :
    settleAttempt last outcome = some .raised ↔ outcome.escapes = true := by
  cases outcome with
  | raised error => cases error <;> cases last <;> simp [settleAttempt, AttemptOutcome.escapes]
  | response r =>
    rw [← unwrap_raised]
    simp only [settleAttempt]
    split
    · rename_i e he
      simp only [he, reduceCtorEq, iff_false]
      split <;> simp
    · simp

end CentralApiClient

section Stages
variable {settings : Settings} {item : Item}

/-- Every call may make an attempt. -/
theorem attempts_pos (settings : Settings) (item : Item) (call : Call) :
    0 < attempts settings item call := by
  have hretry := settings.retryAttempts.property
  cases call with
  | logout => exact Nat.one_pos
  | main | analytics =>
    simp only [attempts]
    split
    · exact hretry
    · exact Nat.one_pos

/-- The stage is in a call with an attempt left, or it has ended. -/
def Stage.Within (settings : Settings) (item : Item) : Stage → Prop
  | .calling call attempt => attempt < attempts settings item call
  | _ => True

/-- The handling makes no further attempt. -/
def Stage.Ended : Stage → Prop
  | .calling .. => False
  | _ => True

/-- After the requests there is a settlement. -/
theorem afterRequests_settling (item : Item) (data : Json) :
    ∃ settlement, afterRequests item data = .settling settlement := by
  unfold afterRequests
  split <;> exact ⟨_, rfl⟩

/-- After the main request there is the analytics call or a settlement. -/
theorem afterMain_cases (item : Item) (data : Json) :
    afterMain item data = .calling (.analytics data) 0 ∨
      ∃ settlement, afterMain item data = .settling settlement := by
  unfold afterMain
  split
  · exact .inl rfl
  · exact .inr (afterRequests_settling item data)

/-- After a call: the exception of the call, the analytics call after the main one, or a
settlement. -/
theorem afterCall_cases (item : Item) (call : Call) (result : CallResult) :
    (result = .raised ∧ afterCall item call result = .raised) ∨
      (call = .main ∧ ∃ data, afterCall item call result = .calling (.analytics data) 0) ∨
      result ≠ .raised ∧ ∃ settlement, afterCall item call result = .settling settlement := by
  -- an answer to the main request may ask for the analytics of the camera
  have hmain : ∀ data, (∃ d, afterMain item data = .calling (.analytics d) 0) ∨
      ∃ settlement, afterMain item data = .settling settlement := fun data =>
    (afterMain_cases item data).imp_left fun h => ⟨data, h⟩
  cases result with
  | raised => exact .inl ⟨rfl, rfl⟩
  | data data =>
    -- which of the three requests the answer is for
    cases call with
    | main =>
      rcases hmain data with h | h
      · exact .inr (.inl ⟨rfl, h⟩)
      · exact .inr (.inr ⟨nofun, h⟩)
    | analytics d => exact .inr (.inr ⟨nofun, afterRequests_settling item d⟩)
    | logout => exact .inr (.inr ⟨nofun, _, rfl⟩)
  | error e =>
    cases call with
    | main =>
      simp only [afterCall]
      split
      · rcases hmain (.obj []) with h | h
        · exact .inr (.inl ⟨trivial, h⟩)
        · exact .inr (.inr ⟨nofun, h⟩)
      · exact .inr (.inr ⟨nofun, _, rfl⟩)
    | analytics d => exact .inr (.inr ⟨nofun, _, rfl⟩)
    | logout =>
      simp only [afterCall]
      split
      · exact .inr (.inr ⟨nofun, _, rfl⟩)
      · exact .inr (.inr ⟨nofun, _, rfl⟩)

/-- One attempt: the next attempt of the call, when there is one, or the end of the call. -/
theorem receive_calling (settings : Settings) (item : Item) (call : Call) (attempt : Nat)
    (outcome : AttemptOutcome) :
    (attempt + 1 < attempts settings item call ∧ outcome.escapes = false ∧
        (Stage.calling call attempt).receive settings item outcome =
          .calling call (attempt + 1)) ∨
      ∃ result, (result = .raised ↔ outcome.escapes = true) ∧
        (Stage.calling call attempt).receive settings item outcome =
          afterCall item call result := by
  have hraised : ∀ last, CentralApiClient.settleAttempt last outcome = some .raised ↔ _ :=
    fun _ => CentralApiClient.settleAttempt_raised
  simp only [Stage.receive]
  -- the last attempt always has a result, an earlier one may be made again
  cases hlast : decide (attempts settings item call ≤ attempt + 1) with
  | true =>
    obtain ⟨result, hresult⟩ :=
      Option.isSome_iff_exists.mp (CentralApiClient.settleAttempt_last outcome)
    have hiff := hraised true
    rw [hresult] at hiff ⊢
    exact .inr ⟨result, by simpa using hiff, rfl⟩
  | false =>
    have hleft : attempt + 1 < attempts settings item call := by simpa using hlast
    have hiff := hraised false
    cases hresult : CentralApiClient.settleAttempt false outcome with
    | none =>
      rw [hresult] at hiff
      exact .inl ⟨hleft, by simpa using hiff, rfl⟩
    | some result =>
      rw [hresult] at hiff
      exact .inr ⟨result, by simpa using hiff, rfl⟩

/-- An attempt keeps the number of attempts of the call within its bound. -/
theorem Stage.Within.receive {stage : Stage} (h : stage.Within settings item)
    (outcome : AttemptOutcome) : (stage.receive settings item outcome).Within settings item := by
  cases stage with
  | settling | raised => exact h
  | calling call attempt =>
    rcases receive_calling settings item call attempt outcome with
      ⟨hleft, -, heq⟩ | ⟨result, -, heq⟩
    · rw [heq]
      exact hleft
    · rw [heq]
      rcases afterCall_cases item call result with ⟨-, heq⟩ | ⟨-, data, heq⟩ | ⟨-, _, heq⟩ <;>
        rw [heq]
      · trivial
      · exact attempts_pos settings item (.analytics data)
      · trivial

/-- An attempt uses up one of those that remain. -/
theorem Stage.Within.remaining_lt {call : Call} {attempt : Nat}
    (h : (Stage.calling call attempt).Within settings item) (outcome : AttemptOutcome) :
    ((Stage.calling call attempt).receive settings item outcome).remaining settings item <
      (Stage.calling call attempt).remaining settings item := by
  have hwithin : attempt < attempts settings item call := h
  have hanalytics : ∀ data, attempts settings item (.analytics data) =
      attempts settings item (.analytics .null) := fun _ => rfl
  have hleft : 0 < (Stage.calling call attempt).remaining settings item := by
    cases call <;> simp only [Stage.remaining] <;> omega
  rcases receive_calling settings item call attempt outcome with
    ⟨hmore, -, heq⟩ | ⟨result, -, heq⟩
  · rw [heq]
    cases call <;> simp only [Stage.remaining] <;> omega
  · rw [heq]
    rcases afterCall_cases item call result with ⟨-, heq⟩ | ⟨rfl, data, heq⟩ | ⟨-, _, heq⟩ <;>
      rw [heq]
    · exact hleft
    · simp only [Stage.remaining, hanalytics data]
      omega
    · exact hleft

/-- The handling ends within the attempts that remain. -/
theorem drive_ended {n : Nat} {stage : Stage} (outcomes : Nat → AttemptOutcome)
    (h : stage.Within settings item) (hn : stage.remaining settings item ≤ n) :
    (stage.drive settings item n outcomes).Ended := by
  induction n generalizing stage outcomes with
  | zero =>
    cases stage with
    | settling | raised => trivial
    | calling call attempt =>
      have hlt := h.remaining_lt (outcomes 0)
      omega
  | succ n ih =>
    refine ih (fun i => outcomes (i + 1)) (h.receive (outcomes 0)) ?_
    cases stage with
    | settling | raised => exact Nat.zero_le _
    | calling call attempt =>
      have hlt := h.remaining_lt (outcomes 0)
      omega

/-- Further attempts change nothing once the handling has ended. -/
theorem drive_of_ended (stage : Stage) (h : stage.Ended) (n : Nat)
    (outcomes : Nat → AttemptOutcome) : stage.drive settings item n outcomes = stage := by
  induction n generalizing outcomes with
  | zero => rfl
  | succ n ih =>
    cases stage with
    | calling => cases h
    | settling | raised => exact ih _

/-- `n` attempts raise exactly when one of them is made and escapes. -/
theorem drive_raised {n : Nat} {stage : Stage} (outcomes : Nat → AttemptOutcome)
    (h : stage ≠ .raised) :
    stage.drive settings item n outcomes = .raised ↔
      ∃ k < n, (∃ call attempt, stage.drive settings item k outcomes = .calling call attempt) ∧
        (outcomes k).escapes = true := by
  -- on the number of attempts, one outcome each
  induction n generalizing stage outcomes with
  | zero => simp [Stage.drive, h]
  | succ n ih =>
    cases stage with
    | raised => exact absurd rfl h
    | settling settlement =>
      have hstill : ∀ k, (Stage.settling settlement).drive settings item k outcomes =
          .settling settlement := fun k =>
        drive_of_ended (.settling settlement) trivial k outcomes
      simp [hstill]
    | calling call attempt =>
      by_cases hescapes : (outcomes 0).escapes = true
      · -- the first attempt raises, and the stage stays raised
        have hraised : (Stage.calling call attempt).receive settings item (outcomes 0) =
            .raised := by
          rcases receive_calling settings item call attempt (outcomes 0) with
            ⟨-, hnot, -⟩ | ⟨result, hresult, heq⟩
          · rw [hescapes] at hnot
            cases hnot
          · rw [heq, hresult.mpr hescapes]
            rfl
        refine iff_of_true ?_ ⟨0, Nat.succ_pos n, ⟨call, attempt, rfl⟩, hescapes⟩
        simp only [Stage.drive, hraised]
        exact drive_of_ended .raised trivial n _
      · have hnext : (Stage.calling call attempt).receive settings item (outcomes 0) ≠
            .raised := by
          rcases receive_calling settings item call attempt (outcomes 0) with
            ⟨-, -, heq⟩ | ⟨result, hresult, heq⟩
          · rw [heq]
            nofun
          · rw [heq]
            rcases afterCall_cases item call result with
              ⟨hr, -⟩ | ⟨-, data, heq⟩ | ⟨-, _, heq⟩
            · exact absurd (hresult.mp hr) hescapes
            · rw [heq]
              nofun
            · rw [heq]
              nofun
        -- this attempt does not raise, so a later one has to
        refine (ih (fun i => outcomes (i + 1)) hnext).trans ⟨?_, ?_⟩
        · rintro ⟨k, hk, hcalling, hesc⟩
          exact ⟨k + 1, Nat.succ_lt_succ hk, hcalling, hesc⟩
        · rintro ⟨k, hk, hcalling, hesc⟩
          cases k with
          | zero => exact absurd hesc hescapes
          | succ k => exact ⟨k, Nat.lt_of_succ_lt_succ hk, hcalling, hesc⟩

end Stages

section Items
variable {settings : Settings} {record : SessionRecord} {item : Item}
  {outcomes : Nat → AttemptOutcome}

/-- The handling of an item starts with a settlement or with the first attempt of a call. -/
theorem startItem_cases (record : SessionRecord) (item : Item) :
    (∃ settlement, startItem record item = .settling settlement) ∨
      ∃ call, startItem record item = .calling call 0 := by
  unfold startItem
  split
  · split
    · exact .inl ⟨_, rfl⟩
    · exact .inr ⟨_, rfl⟩
  · split
    · exact .inr ⟨_, rfl⟩
    · exact (afterMain_cases item (.obj [])).symm.imp_right fun h => ⟨_, h⟩

/-- The handling of the item makes the `k`-th attempt. -/
def Attempted (settings : Settings) (record : SessionRecord) (item : Item)
    (outcomes : Nat → AttemptOutcome) (k : Nat) : Prop :=
  ∃ call attempt, (startItem record item).drive settings item k outcomes = .calling call attempt

/-- An item begins with its first call, where an attempt is left, or with its settlement. -/
theorem startItem_within (settings : Settings) (record : SessionRecord) (item : Item) :
    (startItem record item).Within settings item := by
  rcases startItem_cases record item with ⟨_, h⟩ | ⟨call, h⟩ <;> rw [h]
  · trivial
  · exact attempts_pos settings item call

/-- The handling ends with a settlement, or it raises. -/
theorem handleItem_cases (settings : Settings) (record : SessionRecord) (item : Item)
    (outcomes : Nat → AttemptOutcome) :
    (∃ settlement, handleItem settings record item outcomes = .settling settlement) ∨
      handleItem settings record item outcomes = .raised := by
  have hended : (handleItem settings record item outcomes).Ended :=
    drive_ended outcomes (startItem_within settings record item) (Nat.le_refl _)
  cases h : handleItem settings record item outcomes with
  | calling =>
    rw [h] at hended
    cases hended
  | settling settlement => exact .inl ⟨settlement, rfl⟩
  | raised => exact .inr rfl

/-- The handling raises exactly when an attempt that it makes escapes. -/
theorem handleItem_raised : handleItem settings record item outcomes = .raised ↔
    ∃ k, Attempted settings record item outcomes k ∧ (outcomes k).escapes = true := by
  have hstart : startItem record item ≠ .raised := by
    rcases startItem_cases record item with ⟨_, h⟩ | ⟨_, h⟩ <;> rw [h] <;> nofun
  refine (drive_raised outcomes hstart).trans ⟨?_, ?_⟩
  · rintro ⟨k, _, hattempted, hescapes⟩
    exact ⟨k, hattempted, hescapes⟩
  · rintro ⟨k, hattempted, hescapes⟩
    refine ⟨k, ?_, hattempted, hescapes⟩
    by_contra hk
    have hended : ((startItem record item).drive settings item k outcomes).Ended :=
      drive_ended outcomes (startItem_within settings record item) (Nat.le_of_not_lt hk)
    obtain ⟨call, attempt, h⟩ := hattempted
    rw [h] at hended
    cases hended

end Items

end Rsap.Desktop
