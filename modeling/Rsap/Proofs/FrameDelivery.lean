import Rsap.Cv.FrameBuffer

/-!
# `Rsap.Proofs.FrameDelivery`: what the consumers of a frame buffer receive

The deque holds the latest puts since the last `clear`, as many as fit (`Windowed`). So a frame
that a call returns is the newest one, and its number is the number of puts so far. A consumer
that passes the last number it received gets a greater one each time (`Ascending`).

`frame_delivery` puts these together for every interleaving.
-/

set_option autoImplicit false

namespace Rsap.Proofs

open Rsap.Library
open Rsap.Library.Machine (Reachable Any)
open Rsap.Cv

variable {φ : Type}

/-- The puts have the numbers from one on. -/
def PutNumbers : List (Nat × φ) → Prop
  | [] => True
  | put :: puts => put.1 = puts.length + 1 ∧ PutNumbers puts

/-- The deque is the part of the puts since the last `clear` that fits. -/
structure Windowed (maxsize : Nat) (w : BufferWorld φ) : Prop where
  capacity : w.buffer.maxsize = maxsize
  numbered : PutNumbers w.puts
  sequence : w.buffer.sequence = w.puts.length
  cleared : w.cleared ≤ w.puts.length
  frames : w.buffer.frames = w.puts.take (min maxsize (w.puts.length - w.cleared))

section
variable {maxsize : Nat} {w w' : BufferWorld φ}

/-- Delivering a frame leaves the window. -/
theorem windowed_deliver (h : Windowed maxsize w) (consumer : Nat) (result : Option (Nat × φ)) :
    Windowed maxsize (w.deliver consumer result) :=
  ⟨h.capacity, h.numbered, h.sequence, h.cleared, h.frames⟩

/-- A put evicts the oldest frame when the deque is full. -/
theorem windowed_put (h : Windowed maxsize w) (frame : φ) :
    Windowed maxsize { w with
      buffer := (w.buffer.put frame).1
      puts := ((w.buffer.put frame).2, frame) :: w.puts } := by
  constructor
  case capacity => exact h.capacity
  case numbered => exact ⟨congrArg (· + 1) h.sequence, h.numbered⟩
  case sequence => exact congrArg (· + 1) h.sequence
  case cleared => exact Nat.le_succ_of_le h.cleared
  case frames =>
    have hcleared := h.cleared
    show (((w.buffer.sequence + 1, frame) :: w.buffer.frames).take w.buffer.maxsize) =
      ((w.buffer.sequence + 1, frame) :: w.puts).take
        (min maxsize (w.puts.length + 1 - w.cleared))
    have hpos : 1 ≤ maxsize := h.capacity ▸ w.buffer.maxsize_pos
    obtain ⟨n, rfl⟩ : ∃ n, maxsize = n + 1 := ⟨maxsize - 1, by omega⟩
    have hmin : min (n + 1) (w.puts.length + 1 - w.cleared) =
        min n (w.puts.length - w.cleared) + 1 := by omega
    rw [h.capacity, h.frames, hmin, List.take_succ_cons, List.take_succ_cons, List.take_take]
    congr 2
    omega

/-- Every step keeps the window of the latest frames. -/
theorem windowed_step {a : BufferAct φ} (h : Windowed maxsize w) (hstep : w.step a = some w') :
    Windowed maxsize w' := by
  cases a with
  | put frame =>
    cases hstep
    exact windowed_put h frame
  | putInvalid | getLatest =>
    cases hstep
    exact h
  | clear =>
    cases hstep
    refine ⟨h.capacity, h.numbered, h.sequence, Nat.le_refl _, ?_⟩
    show [] = w.puts.take (min maxsize (w.puts.length - w.puts.length))
    simp
  -- a wait returns at once or begins, and reads only
  | wait consumer timeout afterSequence =>
    simp only [BufferWorld.step] at hstep
    split at hstep
    · cases hstep
    · split at hstep
      · cases hstep
        exact h
      · split at hstep
        · cases hstep
          exact windowed_deliver h consumer _
        · cases hstep
          exact ⟨h.capacity, h.numbered, h.sequence, h.cleared, h.frames⟩
  | wake consumer =>
    obtain ⟨target, -, rfl⟩ := Option.map_eq_some_iff.mp hstep
    exact windowed_deliver h consumer _

/-- The newest frame of the deque is the newest put. -/
theorem Windowed.newest (h : Windowed maxsize w) {put : Nat × φ}
    (hhead : w.buffer.frames.head? = some put) :
    w.puts.head? = some put ∧ put.1 = w.buffer.sequence := by
  rw [h.frames] at hhead
  have hnumbered := h.numbered
  rw [h.sequence]
  cases hputs : w.puts with
  | nil =>
    rw [hputs] at hhead
    simp at hhead
  | cons first puts =>
    rw [hputs] at hhead hnumbered
    cases hsize : min maxsize ((first :: puts).length - w.cleared) with
    | zero =>
      rw [hsize] at hhead
      cases hhead
    | succ n =>
      rw [hsize] at hhead
      cases hhead
      exact ⟨rfl, hnumbered.1⟩

/-! ### Deliveries -/

/-- `get_latest` returns the newest put since the last `clear`, if there is one. -/
theorem Windowed.latest (h : Windowed maxsize w) : w.buffer.getLatest =
    (w.puts.take (w.puts.length - w.cleared)).head?.map Prod.snd := by
  have hpos := h.capacity ▸ w.buffer.maxsize_pos
  rw [FrameBuffer.getLatest, FrameBuffer.getLatestWithSequence, h.frames, List.head?_take,
    List.head?_take]
  by_cases hnone : w.puts.length - w.cleared = 0
  · rw [hnone, Nat.min_zero]
  · rw [if_neg (by omega), if_neg hnone]

/-- What a call returns is the newest frame, and newer than the target. -/
theorem wake_eq_some {buffer : FrameBuffer φ} {target : Int} {put : Nat × φ}
    (h : buffer.wake target = some put) :
    buffer.frames.head? = some put ∧ target < buffer.sequence := by
  unfold FrameBuffer.wake at h
  split at h
  · cases h
  · rename_i hready
    exact ⟨h, Int.not_le.mp fun hle => hready (.inr hle)⟩

/-- A call that does not wait returns the newest frame. Without a number to be newer than, it takes
any frame. -/
theorem enter_returned {buffer : FrameBuffer φ} {afterSequence : Option Int}
    {put : Nat × φ} (h : buffer.enter afterSequence = .returned (some put)) :
    buffer.frames.head? = some put ∧
      ∀ last, afterSequence = some last → last < (buffer.sequence : Int) := by
  unfold FrameBuffer.enter at h
  split at h
  · rename_i hnone
    injection h with hhead
    refine ⟨hhead, fun last hlast => ?_⟩
    rw [hnone.1] at hlast
    cases hlast
  · dsimp only at h
    split at h
    · cases h
    · injection h with hwake
      obtain ⟨hhead, hlt⟩ := wake_eq_some hwake
      refine ⟨hhead, fun last hlast => ?_⟩
      rw [hlast] at hlt
      exact hlt

/-- A call that waits for a frame waits for one after the caller's. -/
theorem enter_waits {buffer : FrameBuffer φ} {afterSequence : Option Int} {target : Int}
    (h : buffer.enter afterSequence = .waits target) :
    ∀ last, afterSequence = some last → last = target := by
  unfold FrameBuffer.enter at h
  split at h
  · cases h
  · dsimp only at h
    split at h
    · cases h
      exact fun last hlast => by rw [hlast]; rfl
    · cases h

/-- A step gives nothing to a consumer, or the result of its call. -/
theorem received_cases {a : BufferAct φ} (hstep : w.step a = some w') (consumer : Nat) :
    (w'.received consumer = w.received consumer ∧ (w'.waiting consumer = w.waiting consumer ∨
        ∃ timeout afterSequence target, a = .wait consumer timeout afterSequence ∧
          w.buffer.enter afterSequence = .waits target ∧ w'.waiting consumer = some target)) ∨
      ∃ result, w'.received consumer = result.toList ++ w.received consumer ∧
        w'.waiting consumer = none ∧
        ((∃ timeout afterSequence, a = .wait consumer timeout afterSequence ∧
            w.buffer.enter afterSequence = .returned result) ∨
          ∃ target, w.waiting consumer = some target ∧ w.buffer.wake target = result) := by
  cases a with
  | put | putInvalid | getLatest | clear =>
    cases hstep
    exact .inl ⟨rfl, .inl rfl⟩
  -- one consumer at a time receives, and only from its own wait
  | wait other timeout afterSequence =>
    simp only [BufferWorld.step] at hstep
    split at hstep
    · cases hstep
    · split at hstep
      · cases hstep
        exact .inl ⟨rfl, .inl rfl⟩
      · by_cases hsame : consumer = other
        · subst hsame
          split at hstep
          · rename_i result hreturned
            cases hstep
            exact .inr ⟨result, if_pos rfl, if_pos rfl,
              .inl ⟨timeout, afterSequence, rfl, hreturned⟩⟩
          · rename_i target hwaits
            cases hstep
            exact .inl ⟨rfl, .inr ⟨timeout, afterSequence, target, rfl, hwaits, if_pos rfl⟩⟩
        · split at hstep
          · cases hstep
            exact .inl ⟨if_neg hsame, .inl (if_neg hsame)⟩
          · cases hstep
            exact .inl ⟨rfl, .inl (if_neg hsame)⟩
  -- the wait that a put or the timeout ends
  | wake other =>
    obtain ⟨target, htarget, rfl⟩ := Option.map_eq_some_iff.mp hstep
    by_cases hsame : consumer = other
    · subst hsame
      exact .inr ⟨_, if_pos rfl, if_pos rfl, .inr ⟨target, htarget, rfl⟩⟩
    · exact .inl ⟨if_neg hsame, .inl (if_neg hsame)⟩

/-- What a consumer receives is the newest put. -/
theorem received_newest {a : BufferAct φ} (h : Windowed maxsize w) (hstep : w.step a = some w')
    {consumer : Nat} (hnew : w'.received consumer ≠ w.received consumer) :
    ∃ put, w'.received consumer = put :: w.received consumer ∧ w.puts.head? = some put := by
  rcases received_cases hstep consumer with ⟨hsame, -⟩ | ⟨result, hreceived, -, hcall⟩
  · exact absurd hsame hnew
  · cases result with
    | none => exact absurd hreceived hnew
    | some put =>
      refine ⟨put, hreceived, ?_⟩
      rcases hcall with ⟨_, _, -, hreturned⟩ | ⟨_, -, hwake⟩
      · exact (h.newest (enter_returned hreturned).1).1
      · exact (h.newest (wake_eq_some hwake).1).1

/-! ### A consumer that passes the last number it received -/

/-- The last number that the consumer received. -/
def lastReceived (w : BufferWorld φ) (consumer : Nat) : Option Int :=
  (w.received consumer).head?.map fun put => (put.1 : Int)

/-- Once the consumer received a frame, it passes the last number. -/
def PassesLast (consumer : Nat) (w : BufferWorld φ) : BufferAct φ → Prop
  | .wait other _ afterSequence =>
    other = consumer → (lastReceived w consumer).isSome → afterSequence = lastReceived w consumer
  | _ => True

/-- The numbers that the consumer received ascend, and a call that waits waits for a greater
one. -/
structure Ascending (consumer : Nat) (w : BufferWorld φ) : Prop where
  ascending : (w.received consumer).Pairwise fun later earlier => earlier.1 < later.1
  target : ∀ target last, w.waiting consumer = some target →
    lastReceived w consumer = some last → last = target

/-- A number above the last one is above all. -/
theorem ascending_cons {received : List (Nat × φ)} {put : Nat × φ}
    (h : received.Pairwise fun later earlier => earlier.1 < later.1)
    (hlast : ∀ last, received.head? = some last → last.1 < put.1) :
    (put :: received).Pairwise fun later earlier => earlier.1 < later.1 := by
  refine List.pairwise_cons.mpr ⟨fun earlier hmem => ?_, h⟩
  cases received with
  | nil => exact absurd hmem List.not_mem_nil
  | cons last rest =>
    have hlt := hlast last rfl
    rcases List.mem_cons.mp hmem with rfl | hmem
    · exact hlt
    · have hbelow := (List.pairwise_cons.mp h).1 earlier hmem
      omega

/-- A consumer that passes its last number gets ascending ones. -/
theorem ascending_step {consumer : Nat} {a : BufferAct φ} (hwindow : Windowed maxsize w)
    (hpasses : PassesLast consumer w a) (hstep : w.step a = some w')
    (h : Ascending consumer w) : Ascending consumer w' := by
  rcases received_cases hstep consumer with ⟨hsame, hwaiting⟩ | ⟨result, hreceived, hidle, hcall⟩
  · have hlast : lastReceived w' consumer = lastReceived w consumer := by
      rw [lastReceived, hsame, lastReceived]
    refine ⟨by rw [hsame]; exact h.ascending, fun target last htarget hreceived => ?_⟩
    rw [hlast] at hreceived
    rcases hwaiting with hwaiting | ⟨timeout, afterSequence, target', rfl, hwaits, hwaiting⟩
    · rw [hwaiting] at htarget
      exact h.target target last htarget hreceived
    · rw [hwaiting] at htarget
      cases htarget
      have hafter := hpasses rfl (by rw [hreceived]; rfl)
      rw [hreceived] at hafter
      exact enter_waits hwaits last hafter
  · refine ⟨?_, fun target last htarget => by rw [hidle] at htarget; cases htarget⟩
    rw [hreceived]
    cases result with
    | none => exact h.ascending
    | some put =>
      refine ascending_cons h.ascending fun last hhead => ?_
      have hlast : lastReceived w consumer = some (last.1 : Int) := by
        have hhead' : (w.received consumer).head? = some last := hhead
        rw [lastReceived, hhead']
        rfl
      -- the frame is newer than the last one
      have hnewer : (last.1 : Int) < w.buffer.sequence ∧ put.1 = w.buffer.sequence := by
        rcases hcall with ⟨timeout, afterSequence, rfl, hreturned⟩ | ⟨target, htarget, hwake⟩
        · have hafter := hpasses rfl (by rw [hlast]; rfl)
          rw [hlast] at hafter
          obtain ⟨hnewest, hlt⟩ := enter_returned hreturned
          exact ⟨hlt _ hafter, (hwindow.newest hnewest).2⟩
        · obtain ⟨hnewest, hlt⟩ := wake_eq_some hwake
          rw [← h.target target _ htarget hlast] at hlt
          exact ⟨hlt, (hwindow.newest hnewest).2⟩
      omega

end

/-! ### Every interleaving -/

/-- The numbers of the newest puts, the oldest first. -/
theorem putNumbers_take {puts : List (Nat × φ)} (h : PutNumbers puts) {n : Nat}
    (hn : n ≤ puts.length) :
    ((puts.take n).map Prod.fst).reverse = List.range' (puts.length + 1 - n) n := by
  induction puts generalizing n with
  | nil =>
    obtain rfl : n = 0 := by simpa using hn
    rfl
  | cons put puts ih =>
    cases n with
    | zero => rfl
    | succ n =>
      have hle : n ≤ puts.length := by simpa using hn
      rw [List.take_succ_cons, List.map_cons, List.reverse_cons, ih h.2 hle, List.range'_concat,
        h.1, List.length_cons]
      congr 1
      · congr 1
        omega
      · congr 1
        omega

/-- A new buffer holds no frame. -/
theorem windowed_new {maxsize : Nat} {buffer : FrameBuffer φ}
    (hnew : FrameBuffer.new φ maxsize = some buffer) :
    Windowed maxsize (bufferMachine buffer).init := by
  unfold FrameBuffer.new at hnew
  split at hnew
  · cases hnew
    exact ⟨rfl, trivial, rfl, Nat.le_refl _, by simp [bufferMachine]⟩
  · cases hnew

/-- The buffer holds at most `maxsize` frames, with consecutive numbers up to the latest put since
the last `clear`. `get_latest` returns the newest put since then. Every frame that a waiting call
returns is the newest put. A consumer that passes the last number it received gets greater and
greater ones. -/
theorem frame_delivery {maxsize : Nat} {buffer : FrameBuffer φ}
    (hnew : FrameBuffer.new φ maxsize = some buffer) {w : BufferWorld φ}
    (h : Reachable (bufferMachine buffer) Any w) :
    (w.buffer.frames.length = min maxsize (w.puts.length - w.cleared) ∧
      w.buffer.frames <+: w.puts ∧
      (w.buffer.frames.map Prod.fst).reverse =
        List.range' (w.puts.length + 1 - w.buffer.frames.length) w.buffer.frames.length) ∧
    w.buffer.getLatest = (w.puts.take (w.puts.length - w.cleared)).head?.map Prod.snd ∧
    (∀ a w', w.step a = some w' → ∀ consumer, w'.received consumer ≠ w.received consumer →
      ∃ put, w'.received consumer = put :: w.received consumer ∧ w.puts.head? = some put) ∧
    ∀ consumer, Reachable (bufferMachine buffer) (PassesLast consumer) w →
      (w.received consumer).Pairwise fun later earlier => earlier.1 < later.1 := by
  have hwindow : ∀ {v : BufferWorld φ}, Reachable (bufferMachine buffer) Any v →
      Windowed maxsize v := fun hv =>
    hv.invariant (windowed_new hnew) fun _ _ _ _ _ hstep hI => windowed_step hI hstep
  have hw := hwindow h
  -- the buffer holds the newest frames since the last clear
  have hle : min maxsize (w.puts.length - w.cleared) ≤ w.puts.length := by omega
  have hlength : w.buffer.frames.length = min maxsize (w.puts.length - w.cleared) := by
    rw [hw.frames, List.length_take]
    omega
  refine ⟨⟨hlength, ?_, ?_⟩, hw.latest, fun a w' hstep consumer hreceived =>
    received_newest hw hstep hreceived, fun consumer hpasses => ?_⟩
  · rw [hw.frames]
    exact List.take_prefix _ _
  · rw [hlength, hw.frames]
    exact putNumbers_take hw.numbered hle
  -- a consumer that passes the sequence on gets ascending numbers
  · have hascending : Ascending consumer w := by
      refine hpasses.invariant ⟨List.Pairwise.nil, fun target last htarget => ?_⟩
        fun v a v' hv hok hstep hI => ascending_step (hwindow hv.any) hok hstep hI
      cases htarget
    exact hascending.ascending

/-- Two frames fit. The second call waits over a `clear` for the next put. -/
def clearedRun : List (BufferAct Nat) :=
  [.put 70, .put 80, .put 90, .wait 0 1 none, .wait 0 1 (some 3), .clear, .put 100, .wake 0]

/-- A buffer that is cleared between two frames. -/
theorem frame_delivery_cleared :
    let w := (bufferMachine ⟨2, [], 0, by decide⟩).final
      (bufferMachine ⟨2, [], 0, by decide⟩).init clearedRun
    w.received 0 = [(4, 100), (3, 90)] ∧
      (w.received 0).Pairwise fun later earlier => earlier.1 < later.1 := by
  intro w
  have hpasses : Reachable (bufferMachine ⟨2, [], 0, by decide⟩) (PassesLast 0) w :=
    Machine.Reachable.final .init clearedRun (by
      refine ⟨trivial, trivial, trivial, ?_, ?_, trivial, trivial, trivial, trivial⟩
      · exact fun _ hsome => by cases hsome
      · exact fun _ _ => rfl)
  refine ⟨rfl, ?_⟩
  exact (@frame_delivery Nat 2 _ rfl _ hpasses.any).2.2.2 0 hpasses

end Rsap.Proofs
