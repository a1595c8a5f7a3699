import Mathlib.Algebra.Group.Nat.Defs
import Mathlib.Data.List.Basic

/-!
# `Rsap.Library.OrderKeys`: numbers as texts that sort like the numbers

`OrderKey bound f` says that `f` writes the numbers below `bound` as texts whose lexicographic
order is the order of the numbers. A key of one width followed by another key is a key again, with
the first number as the more significant digit (`OrderKey.append`). So the digits of a number are
a key (`digits_key`), and what is composed of digits and separators is one too.
-/

set_option autoImplicit false

namespace Rsap.Library

variable {β : Type}

/-! ### Texts of one width -/

/-- The texts of the numbers below the bound have one length. -/
def FixedWidth (bound width : Nat) (f : Nat → List β) : Prop :=
  ∀ n, n < bound → (f n).length = width

section Width
variable {bound width : Nat} {f : Nat → List β} (hf : FixedWidth bound width f)
include hf

/-- A constant separator in front keeps the width fixed. -/
theorem FixedWidth.cons (separator : List β) :
    FixedWidth bound (separator.length + width) fun n => separator ++ f n := by
  intro n hn
  rw [List.length_append, hf n hn]

/-- A field read off a number with a bounded value has the width of the field. -/
theorem FixedWidth.comp {range : Nat} {g : Nat → Nat} (hrange : ∀ n < range, g n < bound) :
    FixedWidth range width fun n => f (g n) :=
  fun n hn => hf _ (hrange n hn)

/-- Two fields of fixed width side by side, the first written from the quotient and the second
from the remainder. -/
theorem FixedWidth.append {base width' : Nat} {g : Nat → List β} (hg : FixedWidth base width' g) :
    FixedWidth (bound * base) (width + width') fun n => f (n / base) ++ g (n % base) := by
  intro n hn
  have hbase : 0 < base := Nat.pos_of_ne_zero (by rintro rfl; omega)
  rw [List.length_append, hf _ (Nat.div_lt_of_lt_mul (Nat.mul_comm bound base ▸ hn)),
    hg _ (Nat.mod_lt n hbase)]

end Width

/-- The digits of a number to the base ten, in a given width. -/
def digits (digit : Nat → List β) : Nat → Nat → List β
  | 0, _ => []
  | width + 1, n => digits digit width (n / 10) ++ digit (n % 10)

/-- A number below `10 ^ width` is written with exactly `width` digits. -/
theorem digits_width {digit : Nat → List β} (hdigit : FixedWidth 10 1 digit) (width : Nat) :
    FixedWidth (10 ^ width) width (digits digit width) := by
  induction width with
  | zero => exact fun _ _ => rfl
  | succ width ih => exact ih.append hdigit

/-! ### Texts in the order of the numbers -/

variable [LT β]

/-- Texts of one length are compared before what follows them. -/
theorem append_lt_append_iff {x y : List β} (h : x.length = y.length) (u v : List β) :
    x ++ u < y ++ v ↔ x < y ∨ x = y ∧ u < v := by
  induction x generalizing y with
  | nil =>
    cases y with
    | nil => simp
    | cons b y => simp at h
  | cons a x ih =>
    cases y with
    | nil => simp at h
    | cons b y =>
      have htail := ih (Nat.succ.inj h)
      rw [List.cons_append, List.cons_append, List.cons_lt_cons_iff, List.cons_lt_cons_iff, htail]
      grind

/-- The texts of the numbers below the bound sort like the numbers. -/
def OrderKey (bound : Nat) (f : Nat → List β) : Prop :=
  ∀ m n, m < bound → n < bound → (f m < f n ↔ m < n)

/-- Keys of numbers that grow with the argument are keys of the argument. -/
theorem OrderKey.comp {bound range : Nat} {f : Nat → List β} {g : Nat → Nat}
    (hf : OrderKey bound f) (hrange : ∀ n < range, g n < bound)
    (hg : ∀ m n, m < range → n < range → (g m < g n ↔ m < n)) :
    OrderKey range fun n => f (g n) := by
  intro m n hm hn
  rw [hf _ _ (hrange m hm) (hrange n hn), hg m n hm hn]

section
variable [Std.Irrefl (· < · : β → β → Prop)]
variable {bound width : Nat} {f : Nat → List β} (hf : OrderKey bound f)
include hf

/-- Distinct numbers have distinct keys. -/
theorem OrderKey.eq_iff {m n : Nat} (hm : m < bound) (hn : n < bound) : f m = f n ↔ m = n := by
  constructor
  · intro heq
    have hlt := hf m n hm hn
    have hgt := hf n m hn hm
    rw [heq] at hlt hgt
    have hnot : ¬m < n := fun h => List.lt_irrefl _ (hlt.mpr h)
    have hnot' : ¬n < m := fun h => List.lt_irrefl _ (hgt.mpr h)
    omega
  · exact congrArg f

/-- A separator in front changes no comparison. -/
theorem OrderKey.cons (separator : List β) : OrderKey bound fun n => separator ++ f n := by
  intro m n hm hn
  rw [append_lt_append_iff rfl, hf m n hm hn]
  simp [List.lt_irrefl]

/-- A text of its own behind changes no comparison, when the keys have one width. -/
theorem OrderKey.concat (hwidth : FixedWidth bound width f) (suffix : List β) :
    OrderKey bound fun n => f n ++ suffix := by
  intro m n hm hn
  rw [append_lt_append_iff ((hwidth m hm).trans (hwidth n hn).symm), hf m n hm hn]
  simp [List.lt_irrefl]

/-- The quotient and the rest of a number, the quotient first and with one width. -/
theorem OrderKey.append {base : Nat} {g : Nat → List β} (hwidth : FixedWidth bound width f)
    (hg : OrderKey base g) : OrderKey (bound * base) fun n => f (n / base) ++ g (n % base) := by
  intro m n hm hn
  have hbase : 0 < base := Nat.pos_of_ne_zero (by rintro rfl; omega)
  have hm' : m / base < bound := Nat.div_lt_of_lt_mul (Nat.mul_comm bound base ▸ hm)
  have hn' : n / base < bound := Nat.div_lt_of_lt_mul (Nat.mul_comm bound base ▸ hn)
  rw [append_lt_append_iff ((hwidth _ hm').trans (hwidth _ hn').symm), hf _ _ hm' hn',
    hf.eq_iff hm' hn', hg _ _ (Nat.mod_lt m hbase) (Nat.mod_lt n hbase)]
  have hsplit := Nat.div_add_mod m base
  have hsplit' := Nat.div_add_mod n base
  constructor
  · rintro (hquotient | ⟨hquotient, hrest⟩)
    · exact Nat.lt_of_div_lt_div hquotient
    · rw [hquotient] at hsplit
      omega
  · intro hlt
    have hle : m / base ≤ n / base := Nat.div_le_div_right (Nat.le_of_lt hlt)
    rcases Nat.lt_or_eq_of_le hle with h | h
    · exact .inl h
    · rw [h] at hsplit
      exact .inr ⟨h, by omega⟩

end

/-- The digits of a number are a key when one digit is. -/
theorem digits_key [Std.Irrefl (· < · : β → β → Prop)] {digit : Nat → List β}
    (hdigit : OrderKey 10 digit) (hwidth : FixedWidth 10 1 digit) (width : Nat) :
    OrderKey (10 ^ width) (digits digit width) := by
  induction width with
  | zero =>
    intro m n hm hn
    have heq : m = n := by omega
    simp [digits, heq]
  | succ width ih => exact ih.append (digits_width hwidth width) hdigit

end Rsap.Library
