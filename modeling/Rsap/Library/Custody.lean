import Mathlib.Data.List.Perm.Basic

/-!
# `Rsap.Library.Custody`: resources in the hands of tasks

Tasks run side by side, and a step advances one of them (`resume`). A resource is in a place of
the shared state or in the hands of a task, which `owned` lists. When a step only moves resources
between the shared state and its own task, and takes `new` ones into the system, then all
resources together are those from before and the new ones (`custody_step`). The statements are
permutations, so a resource is never in two places.
-/

set_option autoImplicit false

namespace Rsap.Library

variable {α β : Type}

/-- The tasks after a step of one of them, which goes on or is over. -/
def resume (tasks : List α) (i : Nat) : Option α → List α
  | some task => tasks.set i task
  | none => tasks.eraseIdx i

/-- After a step a task is the one that went on, or was there before. -/
theorem mem_resume {tasks : List α} {i : Nat} {next : Option α} {task : α}
    (h : task ∈ resume tasks i next) : next = some task ∨ task ∈ tasks := by
  cases next with
  | none => exact .inr (List.mem_of_mem_eraseIdx h)
  | some next =>
    rcases List.mem_or_eq_of_mem_set h with hmem | rfl
    · exact .inr hmem
    · exact .inl rfl

variable (owned : α → List β)

/-- The resources of the tasks are those of one task and those of the others. -/
theorem flatMap_eraseIdx_perm {tasks : List α} {i : Nat} {task : α} (h : tasks[i]? = some task) :
    (tasks.flatMap owned).Perm (owned task ++ (tasks.eraseIdx i).flatMap owned) := by
  obtain ⟨hlt, rfl⟩ := List.getElem?_eq_some_iff.mp h
  exact ((List.getElem_cons_eraseIdx_perm hlt).flatMap_right owned).symm

/-- The resources of the tasks after a step of one of them. -/
theorem flatMap_resume_perm {tasks : List α} {i : Nat} {task : α} (h : tasks[i]? = some task)
    (next : Option α) :
    ((resume tasks i next).flatMap owned).Perm
      (next.toList.flatMap owned ++ (tasks.eraseIdx i).flatMap owned) := by
  obtain ⟨hlt, -⟩ := List.getElem?_eq_some_iff.mp h
  cases next with
  | none => exact List.Perm.refl _
  | some next => simpa [resume] using (List.set_perm_cons_eraseIdx hlt next).flatMap_right owned

/-- A step that moves resources between the shared state and its task keeps them all. -/
theorem custody_step [BEq β] [LawfulBEq β] {tasks : List α} {i : Nat} {task : α}
    (h : tasks[i]? = some task) {next : Option α} {placed placed' new all : List β}
    (hstep : (placed' ++ next.toList.flatMap owned).Perm (new ++ (placed ++ owned task)))
    (hall : (placed ++ tasks.flatMap owned).Perm all) :
    (placed' ++ (resume tasks i next).flatMap owned).Perm (new ++ all) := by
  refine List.perm_iff_count.mpr fun resource => ?_
  have hmoved := hstep.count_eq resource
  have hbefore := hall.count_eq resource
  have htask := (flatMap_eraseIdx_perm owned h).count_eq resource
  have hafter := (flatMap_resume_perm owned h next).count_eq resource
  simp only [List.count_append] at hmoved hbefore htask hafter ⊢
  omega

/-- A task that begins with nothing changes nothing. -/
theorem custody_begin {tasks : List α} {task : α} (h : owned task = []) :
    (tasks ++ [task]).flatMap owned = tasks.flatMap owned := by
  simp [h]

/-- How many tasks satisfy a condition, when one of them goes on. -/
theorem countP_set_add {tasks : List α} {i : Nat} {task : α} (h : tasks[i]? = some task)
    (p : α → Bool) (next : α) :
    (tasks.set i next).countP p + (p task).toNat = tasks.countP p + (p next).toNat := by
  obtain ⟨hlt, rfl⟩ := List.getElem?_eq_some_iff.mp h
  have hset := ((List.set_perm_cons_eraseIdx hlt next).countP_eq p)
  have hold := ((List.getElem_cons_eraseIdx_perm hlt).countP_eq p)
  rw [List.countP_cons] at hset hold
  cases hp : p tasks[i] <;> cases hq : p next <;> simp [hp, hq] at hset hold ⊢ <;> omega

/-- A task with a property counts. -/
theorem countP_pos_of_getElem? {tasks : List α} {i : Nat} {task : α} (h : tasks[i]? = some task)
    {p : α → Bool} (hp : p task = true) : 0 < tasks.countP p :=
  List.countP_pos_iff.mpr ⟨task, List.mem_of_getElem? h, hp⟩

end Rsap.Library
