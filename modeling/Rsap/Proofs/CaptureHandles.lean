import Mathlib.Data.List.Nodup
import Mathlib.Data.List.Perm.Basic
import Mathlib.Data.List.Range
import Mathlib.Tactic.SplitIfs
import Rsap.Cv.Capture

/-!
# `Rsap.Proofs.CaptureHandles`: who releases a handle

A handle is installed, in the hands of one thread that will release or install it, or released.
`owned` are the handles in the hands of a thread, and `advance_perm` says that a step only moves
handles between these three places: the handles before the step, with the one that the factory
builds in it, are those after it. `HandlesHeld` is the invariant: the three places together are a
permutation of the handles that were built.
-/

set_option autoImplicit false

namespace Rsap.Proofs

open Rsap.Library
open Rsap.Library.Machine (Reachable Path Any)
open Rsap.Cv

/-- The handles in the hands of a thread. -/
def owned : CaptureThread → List Handle
  | .releaseStale staleCapture _ => staleCapture.toList
  | .install candidate _ _ => [candidate]
  | .releaseReplaced replacedCapture rejected => replacedCapture.toList ++ rejected.toList
  | .releaseCandidate rejected => rejected.toList
  | .releaseFailed failedCapture => failedCapture.toList
  | .releaseClosed capture => capture.toList
  | _ => []

/-- The handles of the capture: the installed one and the released ones. -/
def placed (c : ResilientCapture) : List Handle := c.cap.toList ++ c.released

section Steps
variable {reconnectDelay : Micros} {c : ResilientCapture} {env : Native}

/-- The handles that a step builds. -/
def builtBy (c : ResilientCapture) : CaptureThread → List Handle
  | .construct _ => [c.built.length]
  | _ => []

/-- The handles of the capture and those in the hands of a thread, counted. -/
theorem count_release (c : ResilientCapture) (capture : Option Handle) (handle : Handle) :
    (placed (c.release capture)).count handle =
      (placed c).count handle + capture.toList.count handle := by
  show (c.cap.toList ++ (capture.toList ++ c.released)).count handle =
    (c.cap.toList ++ c.released).count handle + _
  simp only [List.count_append]
  omega

/-- Taking the installed handle leaves the released ones. -/
theorem count_placed (c : ResilientCapture) (handle : Handle) :
    (placed c).count handle = c.cap.toList.count handle + c.released.count handle := by
  simp only [placed, List.count_append]

variable (reconnectDelay c env) in
/-- A step moves handles between the capture and the hands of its thread. -/
theorem advance_perm (thread : CaptureThread) :
    (placed (c.advance reconnectDelay env thread).1 ++
      ((c.advance reconnectDelay env thread).2.toList.flatMap owned)).Perm
      (builtBy c thread ++ (placed c ++ owned thread)) := by
  refine List.perm_iff_count.mpr fun handle => ?_
  -- at every step a handle is built, passed on, put in place or released, and never copied
  cases thread with
  | loop =>
    simp only [ResilientCapture.advance]
    split
    · simp [builtBy, owned]
    · split <;> simp [builtBy, owned]
  | waiting =>
    simp only [ResilientCapture.advance]
    split <;> simp [builtBy, owned]
  | check =>
    simp only [ResilientCapture.advance, ResilientCapture.check]
    split
    · simp [builtBy, owned]
    · split
      · simp [builtBy, owned, placed]
        omega
      · simp [builtBy, owned]
  | releaseStale staleCapture generation =>
    simp only [ResilientCapture.advance, List.count_append, count_release]
    cases generation <;> simp [builtBy, owned]
  | construct generation =>
    simp [ResilientCapture.advance, builtBy, owned, placed, List.count_cons]
    omega
  | install candidate opened generation =>
    simp only [ResilientCapture.advance, ResilientCapture.install]
    split
    · simp [builtBy, owned, placed, List.count_cons]
      omega
    · split <;> simp [builtBy, owned, placed]
  | releaseReplaced replacedCapture rejected =>
    simp only [ResilientCapture.advance, List.count_append, count_release]
    simp [builtBy, owned]
    omega
  | releaseCandidate rejected =>
    simp only [ResilientCapture.advance, List.count_append, count_release]
    split <;> simp [builtBy, owned]
  | readFrame =>
    simp only [ResilientCapture.advance]
    split
    · simp [builtBy, owned]
    · split
      · simp [builtBy, owned]
      · simp [builtBy, owned, placed]
        omega
  | releaseFailed failedCapture =>
    simp [ResilientCapture.advance, count_release, builtBy, owned]
  | setStop => simp [ResilientCapture.advance, builtBy, owned, placed]
  | shut =>
    simp only [ResilientCapture.advance]
    split
    · simp [builtBy, owned]
    · simp [builtBy, owned, placed]
      omega
  | releaseClosed capture =>
    simp [ResilientCapture.advance, count_release, builtBy, owned]

/-- A step builds the next handle or none. -/
theorem advance_built (thread : CaptureThread) :
    List.range (c.advance reconnectDelay env thread).1.built.length =
      List.range c.built.length ++ builtBy c thread := by
  cases thread with
  | construct generation =>
    simp [ResilientCapture.advance, builtBy, List.range_succ]
  | releaseStale | releaseReplaced | releaseCandidate | releaseFailed | setStop
    | releaseClosed =>
    simp only [ResilientCapture.advance, ResilientCapture.release, builtBy, List.append_nil]
  | check =>
    simp only [ResilientCapture.advance, ResilientCapture.check, builtBy, List.append_nil]
    split_ifs <;> rfl
  | install =>
    simp only [ResilientCapture.advance, ResilientCapture.install, builtBy, List.append_nil]
    split_ifs <;> rfl
  | loop | waiting | readFrame | shut =>
    simp only [ResilientCapture.advance, builtBy, List.append_nil]
    split_ifs <;> rfl

end Steps

/-! ### Runs -/

section Runs
variable {reconnectDelay : Micros}

/-- Each handle that was built is in one place. -/
def HandlesHeld (w : CaptureWorld) : Prop :=
  (placed w.capture ++ w.threads.flatMap owned).Perm (List.range w.capture.built.length)

/-- No handle has been built. -/
theorem handlesHeld_init : HandlesHeld (captureMachine reconnectDelay).init := List.Perm.refl _

/-- Every step keeps the handles in their places or moves them. -/
theorem handlesHeld_step {w w' : CaptureWorld} {act : CaptureAct} (hinv : HandlesHeld w)
    (hstep : captureStep reconnectDelay w act = some w') : HandlesHeld w' := by
  cases act with
  | read | close =>
    simp only [captureStep, Option.some.injEq] at hstep
    subst hstep
    simpa [HandlesHeld, owned] using hinv
  | run i env =>
    simp only [captureStep] at hstep
    split at hstep
    · cases hstep
    · rename_i thread hthread
      cases hstep
      have hadvance := advance_perm reconnectDelay w.capture env thread
      have hall := custody_step owned hthread hadvance hinv
      show (placed _ ++ _).Perm (List.range _)
      rw [advance_built]
      exact hall.trans List.perm_append_comm

/-- Every handle is in one place, in every reachable state. -/
theorem reachable_handlesHeld {w : CaptureWorld}
    (h : Reachable (captureMachine reconnectDelay) Any w) : HandlesHeld w := by
  refine h.invariant handlesHeld_init ?_
  intro w act w' _ _ hstep hinv
  exact handlesHeld_step hinv hstep

/-- What the generations and the flag say: a candidate keeps the generation it was built for, and
a closed capture has no handle. -/
structure GenerationFenced (w : CaptureWorld) : Prop where
  candidate : ∀ candidate opened generation,
    .install candidate opened generation ∈ w.threads →
    w.capture.built[candidate]? = some generation
  closed : w.capture.closed = true → w.capture.cap = none

/-- Nothing has been built, and nothing is closed. -/
theorem generationFenced_init : GenerationFenced (captureMachine reconnectDelay).init where
  candidate _ _ _ h := absurd h List.not_mem_nil
  closed h := by cases h

variable (reconnectDelay) in
/-- The generations are never changed. -/
theorem advance_prefix (c : ResilientCapture) (env : Native) (thread : CaptureThread) :
    ∃ built, (c.advance reconnectDelay env thread).1.built = c.built ++ built := by
  cases thread with
  | construct generation => exact ⟨[generation], rfl⟩
  | loop | waiting | readFrame | shut =>
    simp only [ResilientCapture.advance]
    split_ifs <;> exact ⟨[], (List.append_nil _).symm⟩
  | check =>
    simp only [ResilientCapture.advance, ResilientCapture.check]
    split_ifs <;> exact ⟨[], (List.append_nil _).symm⟩
  | install =>
    simp only [ResilientCapture.advance, ResilientCapture.install]
    split_ifs <;> exact ⟨[], (List.append_nil _).symm⟩
  | releaseStale | releaseReplaced | releaseCandidate | releaseFailed | setStop
    | releaseClosed => exact ⟨[], (List.append_nil _).symm⟩

/-- Only the factory call leads to the installation of its candidate. -/
theorem advance_install {c : ResilientCapture} {env : Native} {thread : CaptureThread}
    {candidate : Handle} {opened : Bool} {generation : Nat}
    (h : (c.advance reconnectDelay env thread).2 = some (.install candidate opened generation)) :
    (c.advance reconnectDelay env thread).1.built[candidate]? = some generation := by
  -- only the construction hands a candidate to the installation
  cases thread with
  | construct g =>
    simp only [ResilientCapture.advance] at h
    cases h
    simp [ResilientCapture.advance]
  | releaseStale staleCapture g => cases g <;> cases h
  | loop | waiting | readFrame | shut =>
    simp only [ResilientCapture.advance] at h
    split_ifs at h <;> cases h
  | check =>
    simp only [ResilientCapture.advance, ResilientCapture.check] at h
    split_ifs at h <;> cases h
  | install =>
    simp only [ResilientCapture.advance, ResilientCapture.install] at h
    split_ifs at h <;> cases h
  | releaseCandidate =>
    simp only [ResilientCapture.advance] at h
    split_ifs at h
    cases h
  | releaseReplaced | releaseFailed | setStop | releaseClosed => cases h

variable (reconnectDelay) in
/-- What a step does to the installed handle. It stays, is taken away, or is replaced by a
candidate of the current generation, in a capture that is not closed. -/
theorem advance_cap (c : ResilientCapture) (env : Native) (thread : CaptureThread) :
    (c.advance reconnectDelay env thread).1.cap = c.cap ∨
    (c.advance reconnectDelay env thread).1.cap = none ∨
    ∃ candidate, (c.advance reconnectDelay env thread).1.cap = some candidate ∧
      thread = .install candidate true c.connectGeneration ∧ c.closed = false := by
  cases thread with
  | loop | waiting | readFrame | shut =>
    simp only [ResilientCapture.advance]
    split_ifs <;> simp
  | check =>
    simp only [ResilientCapture.advance, ResilientCapture.check]
    split_ifs <;> simp
  | install candidate opened generation =>
    simp only [ResilientCapture.advance, ResilientCapture.install]
    split
    · rename_i h
      obtain ⟨rfl, hopen, rfl⟩ := h
      exact .inr (.inr ⟨candidate, rfl, rfl, hopen⟩)
    · split <;> exact .inl rfl
  | construct | releaseStale | releaseReplaced | releaseCandidate | releaseFailed | setStop
    | releaseClosed => exact .inl rfl

variable (reconnectDelay) in
/-- A closed capture stays closed, and a step that closes it takes the handle away. -/
theorem advance_closed (c : ResilientCapture) (env : Native) (thread : CaptureThread) :
    (c.advance reconnectDelay env thread).1.closed = c.closed ∨
    (c.advance reconnectDelay env thread).1.closed = true ∧
      (c.advance reconnectDelay env thread).1.cap = none := by
  cases thread with
  | loop | waiting | readFrame | shut =>
    simp only [ResilientCapture.advance]
    split_ifs <;> simp
  | check =>
    simp only [ResilientCapture.advance, ResilientCapture.check]
    split_ifs <;> exact .inl rfl
  | install =>
    simp only [ResilientCapture.advance, ResilientCapture.install]
    split_ifs <;> exact .inl rfl
  | construct | releaseStale | releaseReplaced | releaseCandidate | releaseFailed | setStop
    | releaseClosed => exact .inl rfl

/-- In a closed capture no step installs a handle. -/
theorem advance_shut {c : ResilientCapture} (hclosed : c.closed = true) (hcap : c.cap = none)
    (env : Native) (thread : CaptureThread) :
    (c.advance reconnectDelay env thread).1.closed = true ∧
      (c.advance reconnectDelay env thread).1.cap = none := by
  refine ⟨?_, ?_⟩
  · rcases advance_closed reconnectDelay c env thread with h | h
    · exact h.trans hclosed
    · exact h.1
  · rcases advance_cap reconnectDelay c env thread with h | h | ⟨_, -, -, h⟩
    · exact h.trans hcap
    · exact h
    · rw [hclosed] at h
      cases h

/-- Every step keeps the generations of the candidates, and a close leaves no handle. -/
theorem generationFenced_step {w w' : CaptureWorld} {act : CaptureAct} (hinv : GenerationFenced w)
    (hstep : captureStep reconnectDelay w act = some w') : GenerationFenced w' := by
  cases act with
  | read | close =>
    simp only [captureStep, Option.some.injEq] at hstep
    subst hstep
    refine ⟨fun candidate opened generation hmem => ?_, hinv.closed⟩
    rcases List.mem_append.mp hmem with hold | hnew
    · exact hinv.candidate candidate opened generation hold
    · cases List.mem_singleton.mp hnew
  | run i env =>
    simp only [captureStep] at hstep
    split at hstep
    · cases hstep
    · rename_i thread hthread
      cases hstep
      constructor
      -- the list of handles only grows, so an old index means what it meant
      case candidate =>
        intro candidate opened generation hmem
        rcases mem_resume hmem with hnext | hold
        · exact advance_install hnext
        · obtain ⟨built, heq⟩ := advance_prefix reconnectDelay w.capture env thread
          have hbuilt := hinv.candidate candidate opened generation hold
          show ((w.capture.advance reconnectDelay env thread).1.built)[candidate]? = _
          rw [heq, List.getElem?_append_left (List.getElem?_eq_some_iff.mp hbuilt).1]
          exact hbuilt
      -- a closed capture installs nothing any more
      case closed =>
        intro hclosed
        rcases advance_closed reconnectDelay w.capture env thread with
          h | ⟨-, h⟩
        · have hbefore : w.capture.closed = true := h.symm.trans hclosed
          exact (advance_shut hbefore (hinv.closed hbefore) env thread).2
        · exact h

/-- Generations and flag agree in every reachable state. -/
theorem reachable_generationFenced {w : CaptureWorld}
    (h : Reachable (captureMachine reconnectDelay) Any w) : GenerationFenced w := by
  refine h.invariant generationFenced_init ?_
  intro w act w' _ _ hstep hinv
  exact generationFenced_step hinv hstep

/-- No `read` is running, and no `close` has yet to release the handle that it took. -/
def CaptureIdle (w : CaptureWorld) : Prop :=
  ∀ thread ∈ w.threads, thread.reading = false ∧ ∀ handle, thread ≠ .releaseClosed (some handle)

/-- Idle threads hold nothing. -/
theorem CaptureIdle.owned {w : CaptureWorld} (h : CaptureIdle w) :
    w.threads.flatMap owned = [] := by
  refine List.flatMap_eq_nil_iff.mpr fun thread hmem => ?_
  obtain ⟨hreading, hclosed⟩ := h thread hmem
  cases thread with
  | setStop | shut => rfl
  | releaseClosed capture =>
    cases capture with
    | none => rfl
    | some handle => exact absurd rfl (hclosed handle)
  | loop | waiting | check | releaseStale | construct | install | releaseReplaced
    | releaseCandidate | readFrame | releaseFailed => cases hreading

/-- The handle is installed and was not released, or was released once. -/
def HandleSettled (c : ResilientCapture) (handle : Handle) : Prop :=
  (c.cap = some handle ∧ c.released.count handle = 0) ∨
    (c.cap ≠ some handle ∧ c.released.count handle = 1)

/-- When nothing runs, a handle that was built is the current one, or it was released once. -/
theorem idle_settled {w : CaptureWorld} (hheld : HandlesHeld w) (hquiet : CaptureIdle w)
    {handle : Handle}
    (hbuilt : handle < w.capture.built.length) : HandleSettled w.capture handle := by
  have hcount := List.Perm.count_eq hheld handle
  rw [hquiet.owned, List.append_nil, count_placed,
    List.count_eq_one_of_mem List.nodup_range (List.mem_range.mpr hbuilt)] at hcount
  by_cases hcap : w.capture.cap = some handle
  · refine .inl ⟨hcap, ?_⟩
    have hone : w.capture.cap.toList.count handle = 1 := by simp [hcap]
    omega
  · refine .inr ⟨hcap, ?_⟩
    have hzero : w.capture.cap.toList.count handle = 0 := by
      refine List.count_eq_zero.mpr fun hmem => hcap ?_
      simpa using hmem
    omega

/-- Who releases the handles, over every interleaving of reads and closes. A handle is released at
most once. When no thread holds one, each of them is installed or was released once. A handle is
installed only for the current generation, and never in a closed capture, whose handles are all
released once its threads are quiet. -/
theorem capture_handles {w : CaptureWorld}
    (h : Reachable (captureMachine reconnectDelay) Any w) :
    w.capture.released.Nodup ∧
    (CaptureIdle w → ∀ handle < w.capture.built.length, HandleSettled w.capture handle) ∧
    (∀ act w' handle, captureStep reconnectDelay w act = some w' →
      w'.capture.cap = some handle → w.capture.cap ≠ some handle →
      w.capture.built[handle]? = some w.capture.connectGeneration ∧ w.capture.closed = false) ∧
    (w.capture.closed = true → ∀ w', Path (captureMachine reconnectDelay) Any w w' →
      w'.capture.cap = none ∧
      (CaptureIdle w' → ∀ handle < w'.capture.built.length,
        w'.capture.released.count handle = 1)) := by
  have hheld := reachable_handlesHeld h
  have hfenced := reachable_generationFenced h
  refine ⟨?_, ?_, ?_, ?_⟩
  -- each handle is in one place, so none is released twice
  · have hnodup := hheld.symm.nodup List.nodup_range
    exact ((List.nodup_append.mp hnodup).1.sublist (List.sublist_append_right _ _))
  · intro hquiet handle hbuilt
    exact idle_settled hheld hquiet hbuilt
  · intro act w' handle hstep hcap hnew
    cases act with
    | read | close =>
      simp only [captureStep, Option.some.injEq] at hstep
      subst hstep
      exact absurd hcap hnew
    | run i env =>
      simp only [captureStep] at hstep
      split at hstep
      · cases hstep
      · rename_i thread hthread
        cases hstep
        -- a handle in place was there before, or was just installed
        rcases advance_cap reconnectDelay w.capture env thread with
          hsame | hnone | ⟨candidate, hinstalled, rfl, hopen⟩
        · exact absurd (hsame.symm.trans hcap) hnew
        · cases hnone.symm.trans hcap
        · cases hinstalled.symm.trans hcap
          exact ⟨hfenced.candidate _ _ _ (List.mem_of_getElem? hthread), hopen⟩
  · intro hclosed w' hpath
    -- after the close nothing is installed, so every quiet state has released all handles
    have hrun : HandlesHeld w' ∧ w'.capture.closed = true ∧ w'.capture.cap = none := by
      refine hpath.invariant (I := fun w => HandlesHeld w ∧ w.capture.closed = true ∧
        w.capture.cap = none) ⟨hheld, hclosed, hfenced.closed hclosed⟩ ?_
      intro w act w' _ hstep ⟨hheld, hclosed, hcap⟩
      refine ⟨handlesHeld_step hheld hstep, ?_⟩
      cases act with
      | read | close =>
        cases hstep
        exact ⟨hclosed, hcap⟩
      | run i env =>
        simp only [captureMachine, captureStep] at hstep
        split at hstep
        · cases hstep
        · cases hstep
          exact advance_shut hclosed hcap env _
    obtain ⟨hheld', -, hcap⟩ := hrun
    refine ⟨hcap, fun hquiet handle hbuilt => ?_⟩
    rcases idle_settled hheld' hquiet hbuilt with ⟨hinstalled, -⟩ | ⟨-, hone⟩
    · cases hcap.symm.trans hinstalled
    · exact hone

end Runs

/-! ### Runs of two threads -/

/-- A native call that answers, at some time. -/
def answering : Native := ⟨0, true, true⟩

/-- A `read` connects and returns a frame. -/
def readOnce : List CaptureAct :=
  .read :: List.replicate 8 (.run 0 answering)

/-- A `close` has taken the handle and has not released it yet. No `read` is running. -/
theorem closing_holds_handle :
    let w := (captureMachine 0).final (captureMachine 0).init
      (readOnce ++ [.close, .run 0 answering, .run 0 answering])
    Reachable (captureMachine 0) Any w ∧ (∀ thread ∈ w.threads, thread.reading = false) ∧
      w.capture.built.length = 1 ∧ w.capture.cap = none ∧ w.capture.released = [] := by
  intro w
  have hrun : Reachable (captureMachine 0) Any w := Reachable.init.final _ (by decide)
  exact ⟨hrun, by decide, by decide, by decide, by decide⟩

/-- After the release the handle is released once. -/
theorem closed_releases_handle :
    let w := (captureMachine 0).final (captureMachine 0).init
      (readOnce ++ .close :: List.replicate 3 (.run 0 answering))
    w.capture.released.count 0 = 1 := by
  intro w
  have hrun : Reachable (captureMachine 0) Any w := Reachable.init.final _ (by decide)
  obtain ⟨-, -, -, hclosed⟩ := capture_handles hrun
  exact (hclosed (by decide) w .refl).2 (by intro thread h; cases h) 0 (by decide)

end Rsap.Proofs
