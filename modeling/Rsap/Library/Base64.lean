import Mathlib.Logic.Basic

/-!
# `Rsap.Library.Base64`: URL-safe base64

`encode` writes bytes as characters of the URL-safe alphabet, with padding. `decode` reads them as
lenient decoders do: it takes both alphabets, skips characters of neither, stops at a full padding
and refuses an incomplete quad. Characters are their ASCII codes.

`decode_encode` is the round trip.
-/

set_option autoImplicit false

namespace Rsap.Library.Base64

/-- The character of a sextet. -/
def charOf (n : Nat) : UInt8 :=
  if n < 26 then UInt8.ofNat (65 + n)
  else if n < 52 then UInt8.ofNat (97 + (n - 26))
  else if n < 62 then UInt8.ofNat (48 + (n - 52))
  else if n = 62 then 45
  else 95

/-- The sextet of a character. -/
def valueOf (c : UInt8) : Option Nat :=
  if 65 ≤ c ∧ c ≤ 90 then some (c.toNat - 65)
  else if 97 ≤ c ∧ c ≤ 122 then some (c.toNat - 97 + 26)
  else if 48 ≤ c ∧ c ≤ 57 then some (c.toNat - 48 + 52)
  else if c = 43 ∨ c = 45 then some 62
  else if c = 47 ∨ c = 95 then some 63
  else none

/-- The padding character. -/
def pad : UInt8 := 61

def encode : List UInt8 → List UInt8
  | a :: b :: c :: rest =>
    let word := a.toNat * 65536 + b.toNat * 256 + c.toNat
    charOf (word / 262144) :: charOf (word / 4096 % 64) :: charOf (word / 64 % 64) ::
      charOf (word % 64) :: encode rest
  | [a, b] =>
    let word := a.toNat * 1024 + b.toNat * 4
    [charOf (word / 4096), charOf (word / 64 % 64), charOf (word % 64), pad]
  | [a] => [charOf (a.toNat / 4), charOf (a.toNat % 4 * 16), pad, pad]
  | [] => []

/-- Read from a position in a quad, with the bits left over from the last character and the number
of paddings seen since. -/
def decodeFrom : Nat → Nat → Nat → List UInt8 → Option (List UInt8)
  | position, _, _, [] => if position = 0 then some [] else none
  | position, left, pads, c :: rest =>
    if c = pad then
      if 2 ≤ position then
        if 4 ≤ position + (pads + 1) then some [] else decodeFrom position left (pads + 1) rest
      else decodeFrom position left pads rest
    else
      match valueOf c with
      | none => decodeFrom position left pads rest
      | some value =>
        match position with
        | 0 => decodeFrom 1 value 0 rest
        | 1 => (decodeFrom 2 (value % 16) 0 rest).map (UInt8.ofNat (left * 4 + value / 16) :: ·)
        | 2 => (decodeFrom 3 (value % 4) 0 rest).map (UInt8.ofNat (left * 16 + value / 4) :: ·)
        | _ => (decodeFrom 0 0 0 rest).map (UInt8.ofNat (left * 64 + value) :: ·)

def decode (text : List UInt8) : Option (List UInt8) := decodeFrom 0 0 0 text

/-- Each of the 64 digits is a character of its own, is not the padding, and reads back as itself.
-/
theorem charOf_sextet : ∀ n < 64,
    charOf n ≠ pad ∧ valueOf (charOf n) = some n ∧ charOf n < 128 := by
  decide

/-- What a sextet does at a position with the bits that are left. -/
def afterSextet (rest : List UInt8) : Nat → Nat → Nat → Option (List UInt8)
  | 0, _, value => decodeFrom 1 value 0 rest
  | 1, left, value =>
    (decodeFrom 2 (value % 16) 0 rest).map (UInt8.ofNat (left * 4 + value / 16) :: ·)
  | 2, left, value =>
    (decodeFrom 3 (value % 4) 0 rest).map (UInt8.ofNat (left * 16 + value / 4) :: ·)
  | _ + 3, left, value => (decodeFrom 0 0 0 rest).map (UInt8.ofNat (left * 64 + value) :: ·)

/-- A character of the alphabet is read as its sextet, at every position. -/
theorem decodeFrom_charOf {n left pads : Nat} {rest : List UInt8} (position : Nat) (hn : n < 64) :
    decodeFrom position left pads (charOf n :: rest) = afterSextet rest position left n := by
  obtain ⟨hpad, hvalue, -⟩ := charOf_sextet n hn
  rw [decodeFrom, if_neg hpad, hvalue]
  match position with
  | 0 | 1 | 2 | _ + 3 => rfl

/-- A byte is what its bits say. -/
theorem ofNat_eq {a : UInt8} {n : Nat} (h : n = a.toNat) : UInt8.ofNat n = a := by
  rw [h, UInt8.ofNat_toNat]

/-- The encoding of any bytes decodes to them. Induction over the groups of three bytes; the last
group of one or two ends in padding. -/
theorem decode_encode_from (bytes : List UInt8) : decodeFrom 0 0 0 (encode bytes) = some bytes := by
  induction bytes using encode.induct with
  | case1 a b c rest ih =>
    have ha := a.toNat_lt
    have hb := b.toNat_lt
    have hc := c.toNat_lt
    rw [encode]
    -- the four sextets are the digits of one number of 24 bits
    generalize hword : a.toNat * 65536 + b.toNat * 256 + c.toNat = word
    show decodeFrom 0 0 0 (charOf (word / 262144) :: charOf (word / 4096 % 64) ::
      charOf (word / 64 % 64) :: charOf (word % 64) :: encode rest) = _
    rw [decodeFrom_charOf 0 (by omega), afterSextet, decodeFrom_charOf 1 (by omega), afterSextet,
      decodeFrom_charOf 2 (by omega), afterSextet, decodeFrom_charOf 3 (by omega), afterSextet, ih,
      ofNat_eq (show _ = a.toNat by omega), ofNat_eq (show _ = b.toNat by omega),
      ofNat_eq (show _ = c.toNat by omega)]
    rfl
  | case2 a b =>
    have ha := a.toNat_lt
    have hb := b.toNat_lt
    rw [encode]
    -- the rest of two bytes is shifted by two bits
    generalize hword : a.toNat * 1024 + b.toNat * 4 = word
    show decodeFrom 0 0 0 [charOf (word / 4096), charOf (word / 64 % 64), charOf (word % 64), pad] =
      _
    rw [decodeFrom_charOf 0 (by omega), afterSextet, decodeFrom_charOf 1 (by omega), afterSextet,
      decodeFrom_charOf 2 (by omega), afterSextet, ofNat_eq (show _ = a.toNat by omega),
      ofNat_eq (show _ = b.toNat by omega)]
    rfl
  | case3 a =>
    have ha := a.toNat_lt
    show decodeFrom 0 0 0 [charOf (a.toNat / 4), charOf (a.toNat % 4 * 16), pad, pad] = _
    rw [decodeFrom_charOf 0 (by omega), afterSextet, decodeFrom_charOf 1 (by omega), afterSextet,
      ofNat_eq (show _ = a.toNat by omega)]
    rfl
  | case4 => rfl

/-- What was encoded decodes to itself. -/
theorem decode_encode (bytes : List UInt8) : decode (encode bytes) = some bytes :=
  decode_encode_from bytes

/-- Encoded text is ASCII. -/
theorem encode_ascii (bytes : List UInt8) : ∀ c ∈ encode bytes, c < 128 := by
  induction bytes using encode.induct with
  | case1 a b c rest ih =>
    have ha := a.toNat_lt
    have hb := b.toNat_lt
    have hc := c.toNat_lt
    rw [encode]
    generalize hword : a.toNat * 65536 + b.toNat * 256 + c.toNat = word
    show ∀ x ∈ charOf (word / 262144) :: charOf (word / 4096 % 64) ::
      charOf (word / 64 % 64) :: charOf (word % 64) :: encode rest, x < 128
    simp only [List.forall_mem_cons]
    exact ⟨(charOf_sextet _ (by omega)).2.2, (charOf_sextet _ (by omega)).2.2,
      (charOf_sextet _ (by omega)).2.2, (charOf_sextet _ (by omega)).2.2, ih⟩
  | case2 a b =>
    have ha := a.toNat_lt
    have hb := b.toNat_lt
    rw [encode]
    generalize hword : a.toNat * 1024 + b.toNat * 4 = word
    show ∀ x ∈ [charOf (word / 4096), charOf (word / 64 % 64), charOf (word % 64), pad], x < 128
    simp only [List.forall_mem_cons]
    exact ⟨(charOf_sextet _ (by omega)).2.2, (charOf_sextet _ (by omega)).2.2,
      (charOf_sextet _ (by omega)).2.2, by decide, fun x hx => absurd hx List.not_mem_nil⟩
  | case3 a =>
    have ha := a.toNat_lt
    show ∀ x ∈ [charOf (a.toNat / 4), charOf (a.toNat % 4 * 16), pad, pad], x < 128
    simp only [List.forall_mem_cons]
    exact ⟨(charOf_sextet _ (by omega)).2.2, (charOf_sextet _ (by omega)).2.2, by decide,
      by decide, fun x hx => absurd hx List.not_mem_nil⟩
  | case4 => exact fun x hx => absurd hx List.not_mem_nil

end Rsap.Library.Base64
