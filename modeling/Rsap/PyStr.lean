import Mathlib.Logic.Basic

/-!
# `Rsap.PyStr`: the strings of the backends

A Python string is a list of code points, lone surrogates included. UTF-8 encodes every string but
those with a surrogate.
-/

set_option autoImplicit false

namespace Rsap

/-- A code point of a Python string. -/
inductive CodePoint where
  | scalar (c : Char)
  | surrogate (n : Fin 2048)
  deriving DecidableEq

/-- `str`. -/
abbrev PyStr := List CodePoint

namespace PyStr

def ofChars (chars : List Char) : PyStr := chars.map .scalar

def ofString (s : String) : PyStr := ofChars s.toList

/-- The characters of a string that has no surrogate. -/
def scalars : PyStr → Option (List Char)
  | [] => some []
  | .scalar c :: rest => (scalars rest).map (c :: ·)
  | .surrogate _ :: _ => none

/-- `encode("utf-8")`, where `none` is `UnicodeEncodeError`. -/
def encodeUtf8 (s : PyStr) : Option (List UInt8) :=
  s.scalars.map fun chars => chars.flatMap String.utf8EncodeChar

/-- `decode("utf-8")`, where `none` is `UnicodeDecodeError`. -/
def decodeUtf8 (bytes : List UInt8) : Option PyStr :=
  bytes.toByteArray.utf8Decode?.map fun chars => ofChars chars.toList

/-- `decode("ascii")` of bytes below 128. -/
def ofAscii (bytes : List UInt8) : PyStr :=
  bytes.map fun b => .scalar (Char.ofNat b.toNat)

/-- `encode("ascii")`, where `none` is `UnicodeEncodeError`. -/
def encodeAscii : PyStr → Option (List UInt8)
  | [] => some []
  | .scalar c :: rest =>
    if c.toNat < 128 then (encodeAscii rest).map (UInt8.ofNat c.toNat :: ·) else none
  | .surrogate _ :: _ => none

/-- `isspace()` of one character. -/
def isSpace : CodePoint → Bool
  | .scalar c =>
    let n := c.toNat
    (9 ≤ n ∧ n ≤ 13) ∨ (28 ≤ n ∧ n ≤ 32) ∨ n = 0x85 ∨ n = 0xA0 ∨ n = 0x1680 ∨
      (0x2000 ≤ n ∧ n ≤ 0x200A) ∨ n = 0x2028 ∨ n = 0x2029 ∨ n = 0x202F ∨ n = 0x205F ∨ n = 0x3000
  | .surrogate _ => false

/-- `not s.strip()`. -/
def isBlank (s : PyStr) : Bool := s.all isSpace

/-! ### Round trips -/

/-- A text made of Unicode characters reads back as these. -/
theorem scalars_ofChars (chars : List Char) : (ofChars chars).scalars = some chars := by
  induction chars with
  | nil => rfl
  | cons c chars ih =>
    show ((ofChars chars).scalars).map (c :: ·) = _
    rw [ih]
    rfl

/-- A text without lone surrogates is the text of its characters. -/
theorem eq_ofChars {s : PyStr} {chars : List Char} (h : s.scalars = some chars) :
    s = ofChars chars := by
  induction s generalizing chars with
  | nil =>
    cases h
    rfl
  | cons p s ih =>
    cases p with
    | scalar c =>
      simp only [scalars, Option.map_eq_some_iff] at h
      obtain ⟨rest, hrest, rfl⟩ := h
      rw [ih hrest]
      rfl
    | surrogate n => cases h

/-- A string without a surrogate. -/
def HasBytes (s : PyStr) : Prop := (s.encodeUtf8).isSome

instance (s : PyStr) : Decidable (HasBytes s) := inferInstanceAs (Decidable (_ = true))

/-- A text without lone surrogates has a UTF-8 encoding. -/
theorem HasBytes.bytes {s : PyStr} (h : HasBytes s) : ∃ bytes, s.encodeUtf8 = some bytes :=
  Option.isSome_iff_exists.mp h

/-- A Lean string never holds a lone surrogate. -/
theorem hasBytes_ofString (s : String) : HasBytes (ofString s) := by
  simp [HasBytes, ofString, encodeUtf8, scalars_ofChars]

/-- What `encode("utf-8")` writes, `decode("utf-8")` reads back. -/
theorem decodeUtf8_encodeUtf8 {s : PyStr} {bytes : List UInt8} (h : s.encodeUtf8 = some bytes) :
    decodeUtf8 bytes = some s := by
  simp only [encodeUtf8, Option.map_eq_some_iff] at h
  obtain ⟨chars, hchars, rfl⟩ := h
  have hdecode : (chars.flatMap String.utf8EncodeChar).toByteArray.utf8Decode? =
      some chars.toArray := List.utf8Decode?_utf8Encode
  rw [decodeUtf8, hdecode, eq_ofChars hchars]
  rfl

/-- UTF-8 keeps two strings apart. -/
theorem encodeUtf8_inj {s t : PyStr} {bytes : List UInt8} (hs : s.encodeUtf8 = some bytes)
    (ht : t.encodeUtf8 = some bytes) : s = t := by
  have h := decodeUtf8_encodeUtf8 hs
  rw [decodeUtf8_encodeUtf8 ht] at h
  exact (Option.some.inj h).symm

/-- Only the empty string has no bytes. -/
theorem bytes_eq_nil {s : PyStr} {bytes : List UInt8} (h : s.encodeUtf8 = some bytes) :
    bytes = [] ↔ s = [] := by
  constructor
  · intro hbytes
    subst hbytes
    exact encodeUtf8_inj h rfl
  · intro hs
    subst hs
    exact (Option.some.inj h).symm

/-- An ASCII code is its own character's code. -/
theorem toNat_ofNat_ascii : ∀ n < 128, (Char.ofNat n).toNat = n := by decide

/-- ASCII bytes read as text encode to the same bytes. -/
theorem encodeAscii_ofAscii {bytes : List UInt8} (h : ∀ b ∈ bytes, b < 128) :
    (ofAscii bytes).encodeAscii = some bytes := by
  induction bytes with
  | nil => rfl
  | cons b bytes ih =>
    have hb : b.toNat < 128 := h b List.mem_cons_self
    have hchar := toNat_ofNat_ascii b.toNat hb
    show (if (Char.ofNat b.toNat).toNat < 128 then
      ((ofAscii bytes).encodeAscii).map (UInt8.ofNat (Char.ofNat b.toNat).toNat :: ·)
      else none) = _
    rw [hchar, if_pos hb, ih fun x hx => h x (List.mem_cons_of_mem b hx), UInt8.ofNat_toNat]
    rfl

end PyStr

end Rsap
