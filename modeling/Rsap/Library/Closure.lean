import Mathlib.Data.List.Basic

/-!
# `Rsap.Library.Closure`: the transitive closure of links by rounds

`WITH RECURSIVE … UNION …` over a table of nodes: start from the nodes linked to a name, and
add, round after round, the nodes linked to a name found so far. `descendants` runs as many
rounds as there are nodes. `mem_descendants` says that this is enough: a name is found exactly
when a chain of links leads to it from the start (`Descends`).

Each round that is not the last one adds a node that was missing before, so the number of
missing nodes (`missing`) bounds the number of rounds.
-/

set_option autoImplicit false

namespace Rsap.Library

variable {ν κ : Type} [DecidableEq κ] (name : ν → κ) (linked : κ → ν → Bool) (nodes : List ν)

/-- The nodes linked to one of the names `acc`, as names. -/
def linkedTo (acc : List κ) : List κ :=
  (nodes.filter fun n => acc.any fun k => linked k n).map name

/-- One round: the names found so far and the nodes linked to them. -/
def spread (acc : List κ) : List κ :=
  acc ++ (linkedTo name linked nodes acc).filter (· ∉ acc)

/-- `n` rounds. -/
def rounds : Nat → List κ → List κ
  | 0, acc => acc
  | n + 1, acc => rounds n (spread name linked nodes acc)

/-- The names of the nodes that a chain of links leads to from `start`. -/
def descendants (start : κ) : List κ :=
  rounds name linked nodes nodes.length (linkedTo name linked nodes [start])

/-- A chain of one or more links leads from `start` to the name. -/
inductive Descends (start : κ) : κ → Prop where
  | child {n : ν} : n ∈ nodes → linked start n = true → Descends start (name n)
  | step {k : κ} {n : ν} : Descends start k → n ∈ nodes → linked k n = true →
      Descends start (name n)

/-- Links read through a map of the nodes are the links of the mapped nodes. -/
theorem descendants_map {ν' : Type} (f : ν' → ν) (nodes : List ν') (start : κ) :
    descendants name linked (nodes.map f) start =
      descendants (fun n => name (f n)) (fun k n => linked k (f n)) nodes start := by
  have hlinked : ∀ acc, linkedTo name linked (nodes.map f) acc =
      linkedTo (fun n => name (f n)) (fun k n => linked k (f n)) nodes acc := fun acc => by
    rw [linkedTo, List.filter_map, List.map_map]
    rfl
  have hrounds : ∀ n acc, rounds name linked (nodes.map f) n acc =
      rounds (fun n => name (f n)) (fun k n => linked k (f n)) nodes n acc := by
    intro n
    induction n with
    | zero => exact fun _ => rfl
    | succ n ih =>
      intro acc
      rw [rounds, rounds, ih, spread, spread, hlinked]
  rw [descendants, descendants, hrounds, hlinked, List.length_map]

omit [DecidableEq κ] in
/-- Chains of links are chains among nodes of the same names with more links. -/
theorem Descends.mono {name : ν → κ} {linked : κ → ν → Bool} {nodes nodes' : List ν} {start k : κ}
    (hsub : ∀ n ∈ nodes, ∃ m ∈ nodes', name m = name n ∧ ∀ j, linked j n = true →
      linked j m = true) (h : Descends name linked nodes start k) :
    Descends name linked nodes' start k := by
  induction h with
  | child hn hl =>
    obtain ⟨m, hm, hname, hmore⟩ := hsub _ hn
    exact hname ▸ .child hm (hmore _ hl)
  | step _ hn hl ih =>
    obtain ⟨m, hm, hname, hmore⟩ := hsub _ hn
    exact hname ▸ .step ih hm (hmore _ hl)

/-- Every node linked to a found name is found. -/
def Closed (acc : List κ) : Prop :=
  ∀ n ∈ nodes, ∀ k ∈ acc, linked k n = true → name n ∈ acc

/-- The number of nodes not found yet. -/
def missing (acc : List κ) : Nat := nodes.countP fun n => name n ∉ acc

variable {name linked nodes}

omit [DecidableEq κ] in
/-- A name is linked to the set when a node of that name is linked to a member. -/
theorem mem_linkedTo {acc : List κ} {k : κ} :
    k ∈ linkedTo name linked nodes acc ↔
      ∃ n ∈ nodes, (∃ j ∈ acc, linked j n = true) ∧ name n = k := by
  simp [linkedTo, and_assoc]

/-- One round of spreading keeps the set and adds the names linked to it. -/
theorem mem_spread {acc : List κ} {k : κ} :
    k ∈ spread name linked nodes acc ↔ k ∈ acc ∨ k ∈ linkedTo name linked nodes acc := by
  by_cases h : k ∈ acc <;> simp [spread, h]

/-- Rounds keep what is found. -/
theorem subset_rounds {n : Nat} {acc : List κ} {k : κ} (h : k ∈ acc) :
    k ∈ rounds name linked nodes n acc := by
  induction n generalizing acc with
  | zero => exact h
  | succ n ih => exact ih (mem_spread.mpr (Or.inl h))

/-- A round over names that chains reach finds only names that chains reach. -/
theorem rounds_sound {start : κ} {n : Nat} {acc : List κ}
    (hacc : ∀ k ∈ acc, Descends name linked nodes start k) :
    ∀ k ∈ rounds name linked nodes n acc, Descends name linked nodes start k := by
  induction n generalizing acc with
  | zero => exact hacc
  | succ n ih =>
    refine ih fun k hk => ?_
    rcases mem_spread.mp hk with h | h
    · exact hacc k h
    · obtain ⟨m, hm, ⟨j, hj, hl⟩, rfl⟩ := mem_linkedTo.mp h
      exact .step (hacc j hj) hm hl

/-- A count falls strictly when no element is gained and one is lost. -/
theorem countP_lt_countP {α : Type} {p q : α → Bool} {l : List α}
    (hle : ∀ a ∈ l, p a = true → q a = true) {a : α} (ha : a ∈ l) (hp : p a = false)
    (hq : q a = true) : l.countP p < l.countP q := by
  induction l with
  | nil => cases ha
  | cons b l ih =>
    have htail : l.countP p ≤ l.countP q :=
      List.countP_mono_left fun x hx => hle x (List.mem_cons_of_mem _ hx)
    rcases List.mem_cons.mp ha with rfl | ha'
    · rw [List.countP_cons_of_pos hq, List.countP_cons_of_neg (by simp [hp])]
      omega
    · have ih' := ih (fun x hx => hle x (List.mem_cons_of_mem _ hx)) ha'
      have hb := hle b List.mem_cons_self
      rw [List.countP_cons, List.countP_cons]
      by_cases hpb : p b = true
      · rw [if_pos hpb, if_pos (hb hpb)]
        omega
      · rw [if_neg hpb]
        omega

/-- A round over a set of names that is not closed finds a missing node. -/
theorem missing_spread {acc : List κ} (h : ¬ Closed name linked nodes acc) :
    missing name nodes (spread name linked nodes acc) < missing name nodes acc := by
  simp only [Closed, not_forall] at h
  obtain ⟨n, hn, k, hk, hl, hmiss⟩ := h
  have hfound : name n ∈ spread name linked nodes acc :=
    mem_spread.mpr (Or.inr (mem_linkedTo.mpr ⟨n, hn, ⟨k, hk, hl⟩, rfl⟩))
  refine countP_lt_countP (fun m _ hm => ?_) hn (by simpa using hfound) (by simpa using hmiss)
  simp only [decide_eq_true_eq] at hm ⊢
  exact fun hacc => hm (mem_spread.mpr (Or.inl hacc))

/-- A round over a closed set of names adds nothing. -/
theorem spread_of_closed {acc : List κ} (h : Closed name linked nodes acc) :
    spread name linked nodes acc = acc := by
  have hnone : (linkedTo name linked nodes acc).filter (· ∉ acc) = [] := by
    rw [List.filter_eq_nil_iff]
    intro k hk
    obtain ⟨n, hn, ⟨j, hj, hl⟩, rfl⟩ := mem_linkedTo.mp hk
    simpa using h n hn j hj hl
  rw [spread, hnone, List.append_nil]

/-- Rounds over a closed set of names add nothing. -/
theorem rounds_of_closed {n : Nat} {acc : List κ} (h : Closed name linked nodes acc) :
    rounds name linked nodes n acc = acc := by
  induction n with
  | zero => rfl
  | succ n ih =>
    show rounds name linked nodes n (spread name linked nodes acc) = acc
    rw [spread_of_closed h, ih]

/-- As many rounds as there are missing nodes end in a closed set of names. -/
theorem closed_rounds {n : Nat} {acc : List κ} (h : missing name nodes acc ≤ n) :
    Closed name linked nodes (rounds name linked nodes n acc) := by
  induction n generalizing acc with
  | zero =>
    -- No node is missing, so every linked node is found.
    intro m hm k _ _
    have hzero : missing name nodes acc = 0 := Nat.le_zero.mp h
    rw [missing, List.countP_eq_zero] at hzero
    show name m ∈ acc
    simpa using hzero m hm
  | succ n ih =>
    by_cases hc : Closed name linked nodes acc
    · rw [rounds_of_closed hc]
      exact hc
    · exact ih (by have := missing_spread hc; omega)

/-- `descendants` finds exactly the names that a chain of links leads to. -/
theorem mem_descendants {start k : κ} :
    k ∈ descendants name linked nodes start ↔ Descends name linked nodes start k := by
  have hchild : ∀ n ∈ nodes, linked start n = true →
      name n ∈ linkedTo name linked nodes [start] := fun n hn hl =>
    mem_linkedTo.mpr ⟨n, hn, ⟨start, List.mem_singleton_self _, hl⟩, rfl⟩
  constructor
  · refine fun h => rounds_sound (fun j hj => ?_) k h
    obtain ⟨n, hn, ⟨i, hi, hl⟩, rfl⟩ := mem_linkedTo.mp hj
    rw [List.mem_singleton.mp hi] at hl
    exact .child hn hl
  · intro h
    have hclosed : Closed name linked nodes (descendants name linked nodes start) :=
      closed_rounds List.countP_le_length
    induction h with
    | child hn hl => exact subset_rounds (hchild _ hn hl)
    | step _ hn hl ih => exact hclosed _ hn _ ih hl

end Rsap.Library
