import Mathlib.Data.List.Basic
import Mathlib.Data.List.TakeWhile

/-!
# `Rsap.Library.Substitution`: replacing the matches of a pattern

A `Matcher` tells at one position whether a pattern matches: what replaces the match, and the text
behind it. `sub` replaces the matches from left to right.

`Lands m k s out` says that the scan of `s ++ k` comes to `k` itself, having written `out`: no
match covers the start of `k`.
-/

set_option autoImplicit false

namespace Rsap.Library

variable {α : Type}

/-- A pattern whose matches are not empty. -/
structure Matcher (α : Type) where
  run : List α → Option (List α × List α)
  shrinks : ∀ s out rest, run s = some (out, rest) → rest.length < s.length

namespace Matcher

variable (m : Matcher α)

/-- The scan, for a number of positions. -/
def subFrom : Nat → List α → List α
  | 0, s => s
  | _ + 1, [] => []
  | n + 1, c :: s =>
    match m.run (c :: s) with
    | some (out, rest) => out ++ subFrom n rest
    | none => c :: subFrom n s

/-- Every match replaced. -/
def sub (s : List α) : List α := m.subFrom s.length s

/-- The scan comes to `k`, with `out` written. -/
inductive Lands (k : List α) : List α → List α → Prop where
  | done : Lands k [] []
  | skip {c : α} {s out : List α} : m.run (c :: s ++ k) = none → Lands k s out →
      Lands k (c :: s) (c :: out)
  | jump {s rest out more : List α} : m.run (s ++ k) = some (out, rest ++ k) →
      Lands k rest more → Lands k s (out ++ more)

variable {m} {s out rest : List α} {c : α}

/-- Nothing is substituted in the empty text. -/
@[simp] theorem sub_nil : m.sub [] = [] := rfl

/-- Two scans that have enough positions agree. -/
theorem subFrom_congr {n k : Nat} (hn : s.length ≤ n) (hk : s.length ≤ k) :
    m.subFrom n s = m.subFrom k s := by
  induction n generalizing k s with
  | zero =>
    rw [List.length_eq_zero_iff.mp (Nat.le_zero.mp hn)]
    cases k <;> rfl
  | succ n ih =>
    cases s with
    | nil => cases k <;> rfl
    | cons c s =>
      cases k with
      | zero => exact absurd hk (Nat.not_succ_le_zero _)
      | succ k =>
        simp only [List.length_cons, Nat.add_le_add_iff_right] at hn hk
        simp only [subFrom]
        cases hrun : m.run (c :: s) with
        | none => simp only [ih hn hk]
        | some found =>
          obtain ⟨out, rest⟩ := found
          have hshrinks := m.shrinks _ _ _ hrun
          simp only [List.length_cons] at hshrinks
          have hrest : m.subFrom n rest = m.subFrom k rest := ih (by omega) (by omega)
          simp only [hrest]

/-- More positions than the text has make no difference. -/
theorem subFrom_eq {n : Nat} (h : s.length ≤ n) : m.subFrom n s = m.sub s :=
  subFrom_congr h (Nat.le_refl _)

/-- A match is replaced, and the scan goes on behind it. -/
theorem sub_of_some (h : m.run s = some (out, rest)) : m.sub s = out ++ m.sub rest := by
  have hshrinks := m.shrinks _ _ _ h
  cases s with
  | nil => exact absurd hshrinks (Nat.not_lt_zero _)
  | cons c s =>
    simp only [List.length_cons] at hshrinks
    show m.subFrom (s.length + 1) (c :: s) = _
    simp only [subFrom, h]
    rw [subFrom_eq (by omega)]

/-- Without a match, the scan goes on with the next character. -/
theorem sub_of_none (h : m.run (c :: s) = none) : m.sub (c :: s) = c :: m.sub s := by
  show m.subFrom (s.length + 1) (c :: s) = _
  simp only [subFrom, h]
  rfl

/-- Where nothing matches, nothing is replaced. -/
theorem sub_append_of_none {t : List α}
    (h : ∀ c u, (c :: u) <:+ s → m.run (c :: u ++ t) = none) : m.sub (s ++ t) = s ++ m.sub t := by
  induction s with
  | nil => rfl
  | cons c s ih =>
    have hrest := ih fun d u hu => h d u (hu.trans (List.suffix_cons c s))
    have hnone : m.run (c :: (s ++ t)) = none := h c s (List.suffix_refl _)
    rw [List.cons_append, sub_of_none hnone, hrest, List.cons_append]

/-- A property of every character that the replacements have too. -/
theorem forall_mem_sub {p : α → Prop}
    (hrun : ∀ s out rest, m.run s = some (out, rest) → (∀ c ∈ s, p c) →
      (∀ c ∈ out, p c) ∧ ∀ c ∈ rest, p c) (h : ∀ c ∈ s, p c) : ∀ c ∈ m.sub s, p c := by
  induction hn : s.length using Nat.strongRecOn generalizing s with
  | ind n ih =>
    cases s with
    | nil => exact fun c hc => absurd hc List.not_mem_nil
    | cons c s =>
      simp only [List.length_cons] at hn
      cases hfound : m.run (c :: s) with
      | none =>
        rw [sub_of_none hfound]
        rw [List.forall_mem_cons] at h ⊢
        exact ⟨h.1, ih s.length (by omega) h.2 rfl⟩
      | some found =>
        obtain ⟨out, rest⟩ := found
        obtain ⟨hout, hrest⟩ := hrun _ _ _ hfound h
        have hshrinks := m.shrinks _ _ _ hfound
        simp only [List.length_cons] at hshrinks
        rw [sub_of_some hfound, List.forall_mem_append]
        exact ⟨hout, ih rest.length (by omega) hrest rfl⟩

/-- Where no suffix matches, the scan lands with the text as it is. -/
theorem lands_of_none {k : List α} (h : ∀ c u, (c :: u) <:+ s → m.run (c :: u ++ k) = none) :
    m.Lands k s s := by
  induction s with
  | nil => exact .done
  | cons c s ih =>
    apply Lands.skip (h c s (List.suffix_refl _))
    apply ih
    intro d u hu
    exact h d u (hu.trans (List.suffix_cons c s))

/-- A scan has one result. -/
theorem Lands.unique {k more : List α} (h : m.Lands k s out)
    (h' : m.Lands k s more) : out = more := by
  -- at every position the matcher decides between a skip and a jump
  induction h generalizing more with
  | done =>
    generalize hs : ([] : List α) = s at h'
    cases h' with
    | done => rfl
    | skip => cases hs
    | @jump s rest out more hrun hlands =>
      subst hs
      have hshrinks := m.shrinks _ _ _ hrun
      simp only [List.nil_append, List.length_append] at hshrinks
      omega
  | @skip c s out hrun _ ih =>
    generalize hs : c :: s = t at h'
    cases h' with
    | done => cases hs
    | skip _ hlands =>
      cases hs
      rw [ih hlands]
    | jump hjump _ =>
      subst hs
      rw [hrun] at hjump
      cases hjump
  | @jump s rest out tail hrun _ ih =>
    cases h' with
    | done =>
      have hshrinks := m.shrinks _ _ _ hrun
      simp only [List.nil_append, List.length_append] at hshrinks
      omega
    | skip hskip _ =>
      rw [hskip] at hrun
      cases hrun
    | jump hjump hlands =>
      rw [hrun] at hjump
      simp only [Option.some.injEq, Prod.mk.injEq, List.append_cancel_right_eq] at hjump
      obtain ⟨rfl, rfl⟩ := hjump
      rw [ih hlands]

/-- How a position before `k` goes on, the same way for every tail behind `k`: without a match,
with a match that ends before `k`, with a match that takes the beginning of the tail, or with no
match up to `k`. A match that takes the beginning of the tail writes something of the kind
`Out`. -/
inductive Settled (m : Matcher α) (k : List α) (Tail Out : List α → Prop)
    (after : List α → List α) (c : α) (x : List α) : Prop where
  | none (h : ∀ t, Tail t → m.run (c :: x ++ k ++ t) = Option.none)
  | ends (out rest : List α) (hle : rest.length ≤ x.length)
      (h : ∀ t, Tail t → m.run (c :: x ++ k ++ t) = some (out, rest ++ k ++ t))
  | swallows (out : List α) (hout : Out out)
      (h : ∀ t, Tail t → m.run (c :: x ++ k ++ t) = some (out, after t))
  | lands (h : m.Lands k (c :: x) (c :: x))
      (hsub : ∀ t, Tail t → m.sub (c :: x ++ k ++ t) = c :: x ++ m.sub (k ++ t))

/-- When every position before `k` is settled, the scan comes to `k`, or a match takes `k` and the
beginning of the tail. Which of the two happens does not depend on the tail. -/
theorem lands_or_swallowed {k : List α} {Tail Out : List α → Prop} {after : List α → List α}
    (hk : k ≠ []) (hnil : Tail []) (hafter : after [] = [])
    (hsettled : ∀ c x, Settled m k Tail Out after c x) (x : List α) :
    (∃ out, m.Lands k x out ∧ ∀ t, Tail t → m.sub (x ++ k ++ t) = out ++ m.sub (k ++ t)) ∨
    ((∀ out, ¬m.Lands k x out) ∧ ∃ before out, Out out ∧
      ∀ t, Tail t → m.sub (x ++ k ++ t) = before ++ out ++ m.sub (after t)) := by
  induction hn : x.length using Nat.strongRecOn generalizing x with
  | ind n ih =>
    cases x with
    | nil => exact .inl ⟨[], .done, fun t _ => rfl⟩
    | cons c x =>
      rw [List.length_cons] at hn
      cases hsettled c x with
      | none h =>
        have hrun : m.run (c :: x ++ k) = Option.none := by simpa using h [] hnil
        have hsub : ∀ t, Tail t → m.sub (c :: x ++ k ++ t) = c :: m.sub (x ++ k ++ t) :=
          fun t ht => sub_of_none (h t ht)
        rcases ih x.length (by omega) x rfl with
          ⟨out, hlands, hout⟩ | ⟨hnot, before, out, hkind, hout⟩
        · refine .inl ⟨c :: out, .skip hrun hlands, fun t ht => ?_⟩
          rw [hsub t ht, hout t ht, List.cons_append]
        · refine .inr ⟨fun more hmore => ?_, c :: before, out, hkind, fun t ht => ?_⟩
          · generalize hs : c :: x = s at hmore
            cases hmore with
            | done => cases hs
            | skip _ hlands =>
              cases hs
              exact hnot _ hlands
            | jump hjump _ =>
              subst hs
              rw [hrun] at hjump
              cases hjump
          · rw [hsub t ht, hout t ht, List.cons_append, List.cons_append]
      | ends out rest hle h =>
        have hrun : m.run (c :: x ++ k) = some (out, rest ++ k) := by simpa using h [] hnil
        have hsub : ∀ t, Tail t → m.sub (c :: x ++ k ++ t) = out ++ m.sub (rest ++ k ++ t) :=
          fun t ht => sub_of_some (h t ht)
        rcases ih rest.length (by omega) rest rfl with
          ⟨more, hlands, hmore⟩ | ⟨hnot, before, more, hkind, hmore⟩
        · refine .inl ⟨out ++ more, .jump hrun hlands, fun t ht => ?_⟩
          rw [hsub t ht, hmore t ht, List.append_assoc]
        · refine .inr ⟨fun all hall => ?_, out ++ before, more, hkind, fun t ht => ?_⟩
          · generalize hs : c :: x = s at hall
            cases hall with
            | done => cases hs
            | skip hskip _ =>
              cases hs
              rw [hrun] at hskip
              cases hskip
            | jump hjump hlands =>
              subst hs
              rw [hrun] at hjump
              simp only [Option.some.injEq, Prod.mk.injEq, List.append_cancel_right_eq] at hjump
              obtain ⟨rfl, rfl⟩ := hjump
              exact hnot _ hlands
          · rw [hsub t ht, hmore t ht]
            simp only [List.append_assoc]
      | swallows out hkind h =>
        have hrun : m.run (c :: x ++ k) = some (out, []) := by
          simpa [hafter] using h [] hnil
        refine .inr ⟨fun all hall => ?_, [], out, hkind, fun t ht => sub_of_some (h t ht)⟩
        -- a match that takes `k` ends behind it, and `k` is not empty
        generalize hs : c :: x = s at hall
        cases hall with
        | done => cases hs
        | skip hskip _ =>
          cases hs
          rw [hrun] at hskip
          cases hskip
        | jump hjump _ =>
          subst hs
          rw [hrun] at hjump
          simp only [Option.some.injEq, Prod.mk.injEq] at hjump
          exact hk (List.append_eq_nil_iff.mp hjump.2.symm).2
      | lands h hsub => exact .inl ⟨c :: x, h, hsub⟩

end Matcher

/-! ### Where a run of characters stops -/

section
variable {p : α → Bool} {x y : List α}

/-- The text does not go on with a character of the kind. -/
def Stops (p : α → Bool) (y : List α) : Prop := ∀ c ∈ y.head?, p c = false

/-- A scan stops at the end of the text. -/
theorem Stops.nil : Stops p [] := fun _ h => (by cases h)

/-- A scan stops before the first character that it does not take. -/
theorem stops_cons {c : α} : Stops p (c :: y) ↔ p c = false := by
  simp [Stops]

/-- A scan over `x` followed by a text it stops at takes what it takes of `x` alone. -/
theorem takeWhile_append_stops (h : Stops p y) : (x ++ y).takeWhile p = x.takeWhile p := by
  induction x with
  | nil =>
    cases y with
    | nil => rfl
    | cons c y => simp [stops_cons.mp h]
  | cons c x ih => simp only [List.cons_append, List.takeWhile_cons, ih]

/-- What such a scan leaves is the rest of `x`, then all of the text it stops at. -/
theorem dropWhile_append_stops (h : Stops p y) : (x ++ y).dropWhile p = x.dropWhile p ++ y := by
  induction x with
  | nil =>
    cases y with
    | nil => rfl
    | cons c y => simp [stops_cons.mp h]
  | cons c x ih =>
    simp only [List.cons_append, List.dropWhile_cons, ih]
    split <;> rfl

/-- What a scan leaves is a text it stops at. -/
theorem stops_dropWhile (x : List α) : Stops p (x.dropWhile p) := by
  induction x with
  | nil => exact Stops.nil
  | cons c x ih =>
    rw [List.dropWhile_cons]
    split
    next => exact ih
    next hc => exact stops_cons.mpr (Bool.eq_false_iff.mpr hc)

/-- A run that does not cover a text ends in it. -/
theorem dropWhile_append_some {d : α} {rest : List α} (h : x.dropWhile p = d :: rest) :
    (x ++ y).dropWhile p = d :: rest ++ y := by
  induction x with
  | nil => cases h
  | cons c x ih =>
    rw [List.dropWhile_cons] at h
    rw [List.cons_append, List.dropWhile_cons]
    split
    next hc =>
      rw [if_pos hc] at h
      exact ih h
    next hc =>
      rw [if_neg hc] at h
      rw [← h]
      rfl

/-- Nothing is dropped where the run stops at once. -/
theorem Stops.dropWhile_eq (h : Stops p y) : y.dropWhile p = y := by
  refine List.dropWhile_eq_self_iff.mpr fun hlength => ?_
  rw [h y[0] (by rw [List.head?_eq_getElem?, Option.mem_def, List.getElem?_eq_getElem hlength])]
  exact Bool.false_ne_true

end

end Rsap.Library
