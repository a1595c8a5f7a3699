import Mathlib.Data.List.Basic
import Mathlib.Tactic.ByContra

/-!
# `Rsap.Library.Alternation`: edge detection with a memory that expires

A detector watches one subject. At each tick it sees the subject inside, sees it outside, or does
not see it. It reports `true` when the subject comes in and `false` when it goes out, against what
it remembers, and a subject that it does not remember counts as outside. It forgets a subject
that it has not seen for more than `limit` ticks in a row.

`alternates_iff` says exactly when the reports alternate. They do so unless the detector forgets
a subject that was inside and sees it inside again (`Lapses`): then two entries follow each other.

A report may also be lost on its way. `heard_alternates_iff` is about the reports that arrive: they
alternate unless one arrives after an odd number of changes that were not reported or whose report
was lost (`strays`).
-/

set_option autoImplicit false

namespace Rsap.Library

/-- The reports alternate, and the first one is `first`. -/
def Alternates : Bool → List Bool → Prop
  | _, [] => True
  | first, report :: reports => report = first ∧ Alternates (!first) reports

instance Alternates.decidable : ∀ (first : Bool) (reports : List Bool),
    Decidable (Alternates first reports)
  | _, [] => .isTrue trivial
  | first, _ :: reports =>
    have := Alternates.decidable (!first) reports
    inferInstanceAs (Decidable (_ ∧ _))

/-- What a detector remembers of a subject: whether it was inside, and for how many ticks it was
not seen. -/
structure Memory where
  inside : Bool
  unseen : Nat
  deriving DecidableEq

/-- The subject counts as inside. -/
def inside (memory : Option Memory) : Bool := (memory.map Memory.inside).getD false

/-- The memory after a tick. -/
def Memory.next (limit : Nat) (memory : Option Memory) : Option Bool → Option Memory
  | some seen => some ⟨seen, 0⟩
  | none => (memory.map fun m => { m with unseen := m.unseen + 1 }).filter fun m =>
      m.unseen ≤ limit

/-- The report of a tick. -/
def report (memory : Option Memory) : Option Bool → List Bool
  | some seen => if seen = inside memory then [] else [seen]
  | none => []

/-- The reports of a run of ticks. -/
def reports (limit : Nat) : Option Memory → List (Option Bool) → List Bool
  | _, [] => []
  | memory, tick :: ticks =>
    report memory tick ++ reports limit (Memory.next limit memory tick) ticks

/-- The subject is inside, is then unseen for more than `limit` ticks, and is inside again some
time later. -/
def Lapses (limit : Nat) (ticks : List (Option Bool)) : Prop :=
  ∃ before n after, ticks = before ++ some true :: (List.replicate n none ++ after) ∧
    limit < n ∧ some true ∈ after

/-- The ticks begin with unseen ones, so that more than `limit` pass together with `unseen`
earlier ones, and the subject is inside after them. -/
def LapsesAfter (limit unseen : Nat) (ticks : List (Option Bool)) : Prop :=
  ∃ n after, ticks = List.replicate n none ++ after ∧ limit < unseen + n ∧ some true ∈ after

section
variable {limit : Nat}

/-- Nothing has lapsed before the first frame. -/
theorem lapses_nil : ¬ Lapses limit [] := by
  rintro ⟨before, n, after, h, -⟩
  cases before <;> cases h

/-- A lapse begins at the first tick or later. -/
theorem lapses_cons {tick : Option Bool} {ticks : List (Option Bool)} :
    Lapses limit (tick :: ticks) ↔
      (tick = some true ∧ LapsesAfter limit 0 ticks) ∨ Lapses limit ticks := by
  constructor
  · rintro ⟨before, n, after, h, hn, hafter⟩
    cases before with
    | nil =>
      cases h
      exact .inl ⟨rfl, n, after, rfl, by omega, hafter⟩
    | cons first before =>
      cases h
      exact .inr ⟨before, n, after, rfl, hn, hafter⟩
  · rintro (⟨rfl, n, after, rfl, hn, hafter⟩ | ⟨before, n, after, rfl, hn, hafter⟩)
    · exact ⟨[], n, after, rfl, by omega, hafter⟩
    · exact ⟨tick :: before, n, after, rfl, hn, hafter⟩

/-- An unseen tick counts to those before it. -/
theorem lapsesAfter_none {unseen : Nat} {ticks : List (Option Bool)} (h : unseen ≤ limit) :
    LapsesAfter limit unseen (none :: ticks) ↔ LapsesAfter limit (unseen + 1) ticks := by
  constructor
  · rintro ⟨n, after, heq, hn, hafter⟩
    cases n with
    | zero => omega
    | succ n =>
      cases heq
      exact ⟨n, after, rfl, by omega, hafter⟩
  · rintro ⟨n, after, rfl, hn, hafter⟩
    exact ⟨n + 1, after, rfl, by omega, hafter⟩

/-- A seen tick ends the unseen ones. -/
theorem not_lapsesAfter_some {unseen : Nat} {seen : Bool} {ticks : List (Option Bool)}
    (h : unseen ≤ limit) : ¬ LapsesAfter limit unseen (some seen :: ticks) := by
  rintro ⟨n, after, heq, hn, -⟩
  cases n with
  | zero => omega
  | succ n => cases heq

/-- Once enough ticks have passed, the subject only has to be inside again. -/
theorem lapsesAfter_of_lt {unseen : Nat} {ticks : List (Option Bool)} (h : limit < unseen) :
    LapsesAfter limit unseen ticks ↔ some true ∈ ticks := by
  constructor
  · rintro ⟨n, after, rfl, -, hafter⟩
    exact List.mem_append_right _ hafter
  · intro hmem
    exact ⟨0, ticks, rfl, by omega, hmem⟩

/-- A lapse ends with the subject inside. -/
theorem Lapses.mem {ticks : List (Option Bool)} (h : Lapses limit ticks) : some true ∈ ticks := by
  obtain ⟨before, n, after, rfl, -, -⟩ := h
  exact List.mem_append_right _ List.mem_cons_self

/-! ### The reports from a memory -/

/-- A report that follows the memory keeps the alternation going. -/
theorem alternates_seen (memory : Option Memory) (seen : Bool) (rest : List Bool) :
    Alternates (!inside memory) (report memory (some seen) ++ rest) ↔ Alternates (!seen) rest := by
  by_cases heq : seen = inside memory
  · rw [report, if_pos heq, heq]
    rfl
  · rw [report, if_neg heq]
    have hseen : seen = !inside memory := by
      cases seen <;> cases hinside : inside memory <;> simp_all
    show seen = !inside memory ∧ Alternates (!(!inside memory)) rest ↔ Alternates (!seen) rest
    rw [← hseen]
    exact ⟨And.right, fun h => ⟨rfl, h⟩⟩

variable (limit) in
/-- After an entry whose subject is forgotten, the reports alternate only when the subject is
never inside again. -/
theorem alternates_forgotten (memory : Option Memory) (h : inside memory = false)
    (ticks : List (Option Bool)) :
    Alternates false (reports limit memory ticks) ↔ some true ∉ ticks := by
  induction ticks generalizing memory with
  | nil => exact ⟨fun _ hmem => absurd hmem List.not_mem_nil, fun _ => trivial⟩
  | cons tick ticks ih =>
    rcases tick with _ | seen
    · have hnext : inside (Memory.next limit memory none) = false := by
        cases memory with
        | none => rfl
        | some m =>
          have hout : m.inside = false := h
          by_cases hle : m.unseen + 1 ≤ limit <;>
            simp [Memory.next, inside, Option.filter, hle, hout]
      show Alternates false (reports limit (Memory.next limit memory none) ticks) ↔ _
      rw [ih _ hnext]
      simp
    · cases seen with
      | false =>
        show Alternates false (report memory (some false) ++ _) ↔ _
        rw [report, if_pos h.symm, List.nil_append, ih _ rfl]
        simp
      | true =>
        show Alternates false (report memory (some true) ++ _) ↔ _
        rw [report, if_neg (by rw [h]; decide)]
        constructor
        · rintro ⟨heq, -⟩
          cases heq
        · intro hmem
          exact absurd List.mem_cons_self hmem

variable (limit) in
/-- From a memory on, the reports alternate unless the remembered subject or a later one
lapses. -/
theorem alternates_memory (memory : Option Memory) (ticks : List (Option Bool))
    (hfresh : ∀ m, memory = some m → m.unseen ≤ limit) :
    Alternates (!inside memory) (reports limit memory ticks) ↔
      ¬ ((∃ m, memory = some m ∧ m.inside = true ∧ LapsesAfter limit m.unseen ticks) ∨
        Lapses limit ticks) := by
  induction ticks generalizing memory with
  | nil =>
    refine ⟨fun _ h => ?_, fun _ => trivial⟩
    rcases h with ⟨m, -, -, n, after, heq, -, hafter⟩ | h
    · rw [(List.append_eq_nil_iff.mp heq.symm).2] at hafter
      exact absurd hafter List.not_mem_nil
    · exact lapses_nil h
  | cons tick ticks ih =>
    rcases tick with _ | seen
    · show Alternates (!inside memory) (reports limit (Memory.next limit memory none) ticks) ↔ _
      cases memory with
      | none =>
        rw [lapses_cons]
        rw [show Memory.next limit none none = none from rfl, ih none (by intro m h; cases h)]
        simp
      | some m =>
        have hm := hfresh m rfl
        by_cases hle : m.unseen + 1 ≤ limit
        · -- the subject is still remembered
          have hnext : Memory.next limit (some m) none = some { m with unseen := m.unseen + 1 } :=
            by simp [Memory.next, Option.filter, hle]
          have hmemory : ∀ m', some { m with unseen := m.unseen + 1 } = some m' →
              m'.unseen ≤ limit := by
            intro m' heq
            cases heq
            exact hle
          have hih := ih _ hmemory
          rw [hnext, lapses_cons]
          simpa [inside, lapsesAfter_none hm] using hih
        · have hnext : Memory.next limit (some m) none = none := by
            simp [Memory.next, Option.filter, hle]
          rw [hnext, lapses_cons]
          cases hinside : m.inside with
          | false =>
            have hih := ih none (by intro m h; cases h)
            simpa [inside, hinside] using hih
          | true =>
            -- the subject is forgotten while it is inside
            have hforgotten := alternates_forgotten limit none rfl ticks
            have hafter : LapsesAfter limit (m.unseen + 1) ticks ↔ some true ∈ ticks :=
              lapsesAfter_of_lt (by omega)
            rw [show (!inside (some m)) = false by simp [inside, hinside], hforgotten]
            constructor
            · rintro hmem (⟨m', heq, -, hlapses⟩ | ⟨hfirst, -⟩ | hlapses)
              · cases heq
                exact hmem (hafter.mp ((lapsesAfter_none hm).mp hlapses))
              · cases hfirst
              · exact hmem hlapses.mem
            · intro hno hmem
              exact hno (.inl ⟨m, rfl, hinside, (lapsesAfter_none hm).mpr (hafter.mpr hmem)⟩)
    · show Alternates (!inside memory) (report memory (some seen) ++
        reports limit (some ⟨seen, 0⟩) ticks) ↔ _
      have hmemory : ∀ m', some (⟨seen, 0⟩ : Memory) = some m' → m'.unseen ≤ limit := by
        intro m' heq
        cases heq
        exact Nat.zero_le _
      have hih := ih _ hmemory
      rw [alternates_seen, lapses_cons]
      have hbefore : ¬ ∃ m, memory = some m ∧ m.inside = true ∧
          LapsesAfter limit m.unseen (some seen :: ticks) := by
        rintro ⟨m, heq, -, hlapses⟩
        exact not_lapsesAfter_some (hfresh m heq) hlapses
      simpa [inside, hbefore] using hih

/-- The reports alternate and start with an entry, unless the subject lapses. -/
theorem alternates_iff (ticks : List (Option Bool)) :
    Alternates true (reports limit none ticks) ↔ ¬ Lapses limit ticks := by
  have h := alternates_memory limit none ticks (by intro m h; cases h)
  simpa [inside] using h

end

/-! ### Reports that are lost -/

/-- The reports that arrive, from ticks that say whether theirs does. -/
def heard (limit : Nat) : Option Memory → List (Bool × Option Bool) → List Bool
  | _, [] => []
  | memory, (arrives, tick) :: ticks =>
    (if arrives then report memory tick else []) ++
      heard limit (Memory.next limit memory tick) ticks

/-- A report arrives after an odd number of changes of which none arrived. The subject changes when
it is seen on the other side, and when it is forgotten inside, which makes no report. -/
def strays (limit : Nat) : Option Memory → Bool → List (Bool × Option Bool) → Bool
  | _, _, [] => false
  | memory, odd, (arrives, tick) :: ticks =>
    let next := Memory.next limit memory tick
    if inside next = inside memory then strays limit next odd ticks
    else if arrives ∧ tick ≠ none then odd || strays limit next odd ticks
    else strays limit next (!odd) ticks

section
variable {limit : Nat}

/-- Without a change there is no report. -/
theorem report_eq_nil {memory : Option Memory} {tick : Option Bool}
    (h : inside (Memory.next limit memory tick) = inside memory) : report memory tick = [] := by
  cases tick with
  | none => rfl
  | some seen => exact if_pos h

/-- What arrives from a memory on, when `odd` says how the last report that arrived stands to the
memory. -/
theorem heard_alternates (memory : Option Memory) (odd : Bool)
    (ticks : List (Bool × Option Bool)) :
    Alternates (!(inside memory ^^ odd)) (heard limit memory ticks) ↔
      strays limit memory odd ticks = false := by
  induction ticks generalizing memory odd with
  | nil => exact ⟨fun _ => rfl, fun _ => trivial⟩
  | cons first ticks ih =>
    obtain ⟨arrives, tick⟩ := first
    simp only [heard, strays]
    by_cases hsame : inside (Memory.next limit memory tick) = inside memory
    · -- nothing changes
      rw [if_pos hsame, report_eq_nil hsame, ite_self, List.nil_append, ← hsame]
      exact ih _ odd
    · have hother : inside (Memory.next limit memory tick) = !inside memory := by
        cases hnext : inside (Memory.next limit memory tick) <;>
          cases hinside : inside memory <;> simp_all
      rw [if_neg hsame]
      by_cases harrives : arrives = true ∧ tick ≠ none
      · -- the report of the change arrives
        obtain ⟨rfl, htick⟩ := harrives
        obtain ⟨seen, rfl⟩ := Option.ne_none_iff_exists'.mp htick
        have hseen : seen = !inside memory := hother
        have hreport : report memory (some seen) = [seen] := if_neg hsame
        rw [if_pos rfl, if_pos ⟨rfl, htick⟩, hreport]
        show seen = _ ∧ Alternates _ _ ↔ _
        have hih := ih (Memory.next limit memory (some seen)) false
        rw [hother] at hih
        cases odd with
        | false => simpa [hseen] using hih
        | true => simp [hseen]
      · -- the change makes no report, or the report is lost
        have hsilent : (if arrives = true then report memory tick else []) = [] := by
          cases tick with
          | none => exact ite_self _
          | some seen => exact if_neg fun h => harrives ⟨h, Option.some_ne_none seen⟩
        rw [if_neg harrives, hsilent, List.nil_append]
        have hih := ih (Memory.next limit memory tick) (!odd)
        rw [hother] at hih
        simpa using hih

/-- The reports that arrive alternate and start with an entry, unless one of them strays. -/
theorem heard_alternates_iff (ticks : List (Bool × Option Bool)) :
    Alternates true (heard limit none ticks) ↔ strays limit none false ticks = false := by
  simpa [inside] using heard_alternates none false ticks

/-- When all reports arrive, one of them strays exactly when the subject lapses. -/
theorem strays_eq_false_iff {ticks : List (Bool × Option Bool)}
    (h : ∀ tick ∈ ticks, tick.1 = true) :
    strays limit none false ticks = false ↔ ¬ Lapses limit (ticks.map Prod.snd) := by
  have hall : ∀ memory, heard limit memory ticks = reports limit memory (ticks.map Prod.snd) := by
    induction ticks with
    | nil => exact fun _ => rfl
    | cons first ticks ih =>
      intro memory
      obtain ⟨hfirst, hrest⟩ := List.forall_mem_cons.mp h
      show (if first.1 = true then _ else _) ++ _ = _
      rw [if_pos hfirst, ih hrest]
      rfl
  rw [← heard_alternates_iff, hall, alternates_iff]

end

end Rsap.Library
