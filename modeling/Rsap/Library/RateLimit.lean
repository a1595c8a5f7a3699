import Mathlib.Data.List.Pairwise
import Mathlib.Algebra.Order.Group.Int

/-!
# `Rsap.Library.RateLimit`: a rate limiter that forgets

A limiter admits a request when the last admitted one is at least `cooldown` old. This one also
forgets the last admitted request, when it is older than `retention` and whenever the subject is
absent (`forgetful`).

To forget by age does no harm when the retention is not shorter than the cooldown. To forget by
absence does, exactly when a request comes within the cooldown of the last admitted one and the
subject was absent since (`lapses`). `spaced_iff` is this equivalence.
-/

set_option autoImplicit false

namespace Rsap.Library

/-- What the limiter sees of its subject. -/
inductive Visit where
  | absent
  | idle
  | asking
  deriving DecidableEq

/-- The request is admitted: the last admitted one is at least `cooldown` old. -/
def admits (cooldown : Int) (last : Option Int) (time : Int) : Bool :=
  match last with
  | some previous => decide (cooldown ≤ time - previous)
  | none => true

/-- The last admitted request, as far as it is remembered after a visit. -/
def remembered (retention time : Int) (last : Option Int) : Visit → Option Int
  | .absent => none
  | _ => last.filter fun previous => time - retention ≤ previous

/-- The requests that the forgetful limiter admits. -/
def forgetful (cooldown retention : Int) : Option Int → List (Int × Visit) → List Int
  | _, [] => []
  | last, (time, visit) :: visits =>
    if visit = .asking ∧ admits cooldown last time = true then
      time :: forgetful cooldown retention (remembered retention time (some time) visit) visits
    else forgetful cooldown retention (remembered retention time last visit) visits

/-- Run a limiter that does not forget, and remember whether the subject was absent since the
last admitted request: some request after an absence is not admitted. -/
def lapses (cooldown : Int) : Option Int → Bool → List (Int × Visit) → Bool
  | _, _, [] => false
  | last, _, (_, .absent) :: visits => lapses cooldown last true visits
  | last, absent, (_, .idle) :: visits => lapses cooldown last absent visits
  | last, absent, (time, .asking) :: visits =>
    if admits cooldown last time then lapses cooldown (some time) false visits
    else absent || lapses cooldown last absent visits

/-- Any two of the times are at least `cooldown` apart. -/
def Spaced (cooldown : Int) (times : List Int) : Prop :=
  times.Pairwise fun earlier later => cooldown ≤ later - earlier

section
variable {cooldown retention : Int}

/-- The admitted times are times of visits. -/
theorem mem_forgetful {last : Option Int} {visits : List (Int × Visit)} {time : Int}
    (h : time ∈ forgetful cooldown retention last visits) : ∃ visit, (time, visit) ∈ visits := by
  induction visits generalizing last with
  | nil => exact absurd h List.not_mem_nil
  | cons first visits ih =>
    obtain ⟨t, visit⟩ := first
    simp only [forgetful] at h
    split at h
    · rcases List.mem_cons.mp h with rfl | hmem
      · exact ⟨visit, List.mem_cons_self⟩
      · obtain ⟨v, hv⟩ := ih hmem
        exact ⟨v, List.mem_cons_of_mem _ hv⟩
    · obtain ⟨v, hv⟩ := ih h
      exact ⟨v, List.mem_cons_of_mem _ hv⟩

/-- What the forgetful limiter remembers against what a limiter would know: the same, or nothing
because the last request is old or the subject was absent. -/
def Recalls (cooldown now : Int) (memory last : Option Int) (absent : Bool) : Prop :=
  match absent with
  | true => memory = none
  | false => memory = last ∨ memory = none ∧ ∀ previous, last = some previous →
      cooldown ≤ now - previous

/-- After a visit that admits nothing, what is remembered still agrees. -/
theorem Recalls.idle {now time : Int} {memory last : Option Int} {absent : Bool} {visit : Visit}
    (h : Recalls cooldown now memory last absent) (hvisit : visit ≠ .absent) (hnow : now ≤ time)
    (hretention : cooldown ≤ retention) :
    Recalls cooldown time (remembered retention time memory visit) last absent := by
  have hkept : remembered retention time memory visit =
      memory.filter fun previous => time - retention ≤ previous := by
    cases visit with
    | absent => exact absurd rfl hvisit
    | idle | asking => rfl
  rw [hkept]
  cases absent with
  | true =>
    have hnone : memory = none := h
    rw [hnone]
    exact (rfl : (none : Option Int) = none)
  | false =>
    rcases h with rfl | ⟨rfl, hold⟩
    · cases memory with
      | none => exact .inl rfl
      | some previous =>
        by_cases hle : time - retention ≤ previous
        · exact .inl (by simp [Option.filter, hle])
        · refine .inr ⟨by simp [Option.filter, hle], ?_⟩
          intro p hp
          cases hp
          omega
    · refine .inr ⟨rfl, ?_⟩
      intro p hp
      have := hold p hp
      omega

/-- From any memory on, the admitted times keep their distance to each other and to the last
admitted one, unless the subject lapses. -/
theorem spaced_from (hcooldown : 0 ≤ cooldown) (hretention : cooldown ≤ retention)
    (visits : List (Int × Visit)) {now : Int} {memory last : Option Int} {absent : Bool}
    (hrecalls : Recalls cooldown now memory last absent)
    (hlast : ∀ previous, last = some previous → previous ≤ now)
    (hnow : ∀ visit ∈ visits, now ≤ visit.1)
    (hsorted : visits.Pairwise fun earlier later => earlier.1 ≤ later.1) :
    Spaced cooldown (last.toList ++ forgetful cooldown retention memory visits) ↔
      lapses cooldown last absent visits = false := by
  induction visits generalizing now memory last absent with
  | nil =>
    refine ⟨fun _ => rfl, fun _ => ?_⟩
    cases last <;> simp [Spaced, forgetful]
  | cons first visits ih =>
    obtain ⟨time, visit⟩ := first
    have htime : now ≤ time := hnow _ List.mem_cons_self
    obtain ⟨hfirst, hrest⟩ := List.pairwise_cons.mp hsorted
    have hlater : ∀ previous, last = some previous → previous ≤ time := fun previous hprevious =>
      (hlast previous hprevious).trans htime
    cases visit with
    | absent =>
      show Spaced cooldown (last.toList ++ forgetful cooldown retention
        (remembered retention time memory .absent) visits) ↔
          lapses cooldown last true visits = false
      exact @ih time none last true rfl hlater hfirst hrest
    | idle =>
      show Spaced cooldown (last.toList ++ forgetful cooldown retention
        (remembered retention time memory .idle) visits) ↔
          lapses cooldown last absent visits = false
      exact ih (hrecalls.idle (by decide) htime hretention) hlater hfirst hrest
    | asking =>
      by_cases hadmits : admits cooldown last time = true
      · -- both limiters admit the request
        have hmemory : admits cooldown memory time = true := by
          cases absent with
          | true =>
            have hnone : memory = none := hrecalls
            rw [hnone]
            rfl
          | false =>
            rcases hrecalls with rfl | ⟨rfl, -⟩
            · exact hadmits
            · rfl
        have hkept : remembered retention time (some time) .asking = some time := by
          have hle : time - retention ≤ time := by omega
          simp [remembered, Option.filter, hle]
        rw [forgetful, if_pos ⟨rfl, hmemory⟩, lapses, if_pos hadmits, hkept]
        have hlast : ∀ p ∈ some time, p ≤ time := fun p hp => (Option.some.inj hp).ge
        rw [← @ih time (some time) (some time) false (.inl rfl) hlast hfirst hrest]
        show _ ↔ Spaced cooldown (time :: forgetful cooldown retention (some time) visits)
        cases last with
        | none => rfl
        | some previous =>
          have hgap : cooldown ≤ time - previous := of_decide_eq_true hadmits
          refine ⟨fun h => (List.pairwise_cons.mp h).2, fun h => List.pairwise_cons.mpr ⟨?_, h⟩⟩
          intro later hlater'
          rcases List.mem_cons.mp hlater' with rfl | hmem
          · exact hgap
          · obtain ⟨visit, hvisit⟩ := mem_forgetful hmem
            have := hfirst _ hvisit
            omega
      · rw [lapses, if_neg hadmits]
        cases last with
        | none => exact absurd rfl hadmits
        | some previous =>
          have hgap : time - previous < cooldown := by
            simpa [admits] using hadmits
          cases absent with
          | true =>
            -- the request is admitted again, too early
            have hnone : memory = none := hrecalls
            subst hnone
            rw [forgetful, if_pos ⟨rfl, rfl⟩]
            refine ⟨fun h => ?_, fun h => by cases h⟩
            have hspaced := (List.pairwise_cons.mp h).1 time List.mem_cons_self
            omega
          | false =>
            have hmemory : memory = some previous := by
              rcases hrecalls with heq | ⟨-, hold⟩
              · exact heq
              · have := hold previous rfl
                omega
            subst hmemory
            rw [forgetful, if_neg (by simpa using hadmits)]
            exact ih (hrecalls.idle (by decide) htime hretention) hlater hfirst hrest

/-- The admitted times keep the cooldown, unless the subject lapses. -/
theorem spaced_iff (hcooldown : 0 ≤ cooldown) (hretention : cooldown ≤ retention)
    (visits : List (Int × Visit))
    (hsorted : visits.Pairwise fun earlier later => earlier.1 ≤ later.1) :
    Spaced cooldown (forgetful cooldown retention none visits) ↔
      lapses cooldown none false visits = false := by
  cases visits with
  | nil => simp [Spaced, forgetful, lapses]
  | cons first visits =>
    have hnow : ∀ visit ∈ first :: visits, first.1 ≤ visit.1 := by
      intro visit hvisit
      rcases List.mem_cons.mp hvisit with rfl | hmem
      · exact Int.le_refl _
      · exact (List.pairwise_cons.mp hsorted).1 visit hmem
    exact @spaced_from _ _ hcooldown hretention (first :: visits) _ none none false (.inl rfl)
      (fun p hp => by cases hp) hnow hsorted

end

end Rsap.Library
