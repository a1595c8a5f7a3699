import Mathlib.Algebra.Group.Nat.Defs
import Mathlib.Data.List.TakeWhile
import Rsap.FileServer.Requests

/-!
# `Rsap.Proofs.ObjectNames`: the name of an uploaded object carries its file id

The upload routes write a file id into the name of the object, and the other routes read it back
with `PurePosixPath.stem` and the constructor `UUID`. Reading goes through the whole parser, and
each of its steps leaves the text of a UUID as it is:

* `name_join`, `stem_dot`: the directory and the ending are taken off.
* `removeAll_of_notMem`, `strip_of_none`: nothing is replaced or stripped.
* `hexDigits_hexPad`: the digits are read back as the number.

`fileIdFromObjectName_upload` puts them together for the three routes.
-/

set_option autoImplicit false

namespace Rsap.Proofs

open Rsap.FileServer Rsap.Library

/-! ### Digits of base 16 -/

/-- The characters that `hexPad` writes. -/
def IsHex (c : Char) : Prop := ∃ d < 16, c = hexChar d

/-- What the parser asks of a digit. -/
structure PlainDigit (c : Char) : Prop where
  ascii : c.toNat < 127
  space : isAsciiSpace c = false
  plain : c ∉ ['_', '-', 'u', 'x', 'X', '+', '\x7b', '\x7d', '/', '.']

/-- A hexadecimal digit reads back as its value. -/
theorem hexValue_hexChar : ∀ d < 16, hexValue (hexChar d) = some d := by decide

/-- The digits that are written are plain. -/
theorem plainDigit_hexChar : ∀ d < 16, (hexChar d).toNat < 127 ∧
    isAsciiSpace (hexChar d) = false ∧
    hexChar d ∉ ['_', '-', 'u', 'x', 'X', '+', '\x7b', '\x7d', '/', '.'] := by
  decide

/-- What is written as hexadecimal is plain to the parser. -/
theorem IsHex.plain {c : Char} (h : IsHex c) : PlainDigit c := by
  obtain ⟨d, hd, rfl⟩ := h
  obtain ⟨hascii, hspace, hplain⟩ := plainDigit_hexChar d hd
  exact ⟨hascii, hspace, hplain⟩

/-- A hexadecimal digit is none of the characters that the parser treats apart. -/
theorem IsHex.ne {c c' : Char} (h : IsHex c)
    (hc' : c' ∈ ['_', '-', 'u', 'x', 'X', '+', '\x7b', '\x7d', '/', '.']) : c ≠ c' := by
  intro he
  subst he
  exact h.plain.plain hc'

/-- A padded number consists of hexadecimal digits. -/
theorem hexPad_isHex (width n : Nat) : ∀ c ∈ hexPad width n, IsHex c := by
  induction width generalizing n with
  | zero => simp [hexPad]
  | succ width ih =>
    intro c hc
    rw [hexPad, List.mem_append, List.mem_singleton] at hc
    rcases hc with hc | rfl
    · exact ih _ c hc
    · exact ⟨n % 16, Nat.mod_lt _ (by omega), rfl⟩

/-- It has the width it is padded to. -/
theorem hexPad_length (width n : Nat) : (hexPad width n).length = width := by
  induction width generalizing n with
  | zero => rfl
  | succ width ih => simp [hexPad, ih]

/-- Digits, once one has been read, are read one after the other. -/
theorem hexDigits_append (xs : List Char) (hxs : ∀ c ∈ xs, IsHex c) (value : Nat) (d : Nat)
    (hd : d < 16) : hexDigits value true (xs ++ [hexChar d]) =
      (hexDigits value true xs).map fun v => 16 * v + d := by
  induction xs generalizing value with
  | nil =>
    have hne : hexChar d ≠ '_' := IsHex.ne ⟨d, hd, rfl⟩ (by simp)
    simp [hexDigits, hne, hexValue_hexChar d hd]
  | cons c xs ih =>
    obtain ⟨e, he, rfl⟩ := hxs c List.mem_cons_self
    have hne : hexChar e ≠ '_' := IsHex.ne ⟨e, he, rfl⟩ (by simp)
    simp only [List.cons_append, hexDigits, if_neg hne, hexValue_hexChar e he, Option.bind_some]
    exact ih (fun c hc => hxs c (List.mem_cons_of_mem _ hc)) _

/-- A padded number is read back. -/
theorem hexDigits_hexPad (width n : Nat) (h : n < 16 ^ width) :
    hexDigits 0 true (hexPad width n) = some n := by
  induction width generalizing n with
  | zero =>
    have hn : n = 0 := by simpa using h
    subst hn
    rfl
  | succ width ih =>
    have hdiv : n / 16 < 16 ^ width := by
      rw [Nat.pow_succ] at h
      omega
    rw [hexPad, hexDigits_append _ (hexPad_isHex _ _) _ _ (Nat.mod_lt _ (by omega)), ih _ hdiv]
    show some (16 * (n / 16) + n % 16) = some n
    rw [Nat.div_add_mod]

/-- The first digit may stand alone. -/
theorem hexDigits_first (c : Char) (hc : IsHex c) (rest : List Char) :
    hexDigits 0 false (c :: rest) = hexDigits 0 true (c :: rest) := by
  have hne : c ≠ '_' := hc.ne (by simp)
  simp only [hexDigits, if_neg hne]

/-! ### What the parser leaves alone -/

/-- Nothing is removed where the pattern's first character does not occur. -/
theorem removeAll_of_notMem (p : Char) (pattern text : List Char) (h : p ∉ text) :
    removeAll (p :: pattern) 0 text = text := by
  induction text with
  | nil => rfl
  | cons c text ih =>
    have hc : ¬ (p :: pattern).isPrefixOf (c :: text) = true := by
      intro hstarts
      rw [List.isPrefixOf_cons_cons, Bool.and_eq_true, beq_iff_eq] at hstarts
      exact h (hstarts.1 ▸ List.mem_cons_self)
    rw [removeAll, if_neg hc, ih fun hmem => h (List.mem_cons_of_mem _ hmem)]

/-- Nothing is stripped when no character is of the kind. -/
theorem strip_of_none {p : Char → Bool} {text : List Char} (h : ∀ c ∈ text, p c = false) :
    strip p text = text := by
  have hkept : ∀ t : List Char, (∀ c ∈ t, p c = false) → t.dropWhile p = t := fun t ht =>
    List.dropWhile_eq_self_iff.mpr fun hl => by simp [ht _ (List.getElem_mem hl)]
  rw [strip, hkept text h, hkept text.reverse fun c hc => h c (List.mem_reverse.mp hc),
    List.reverse_reverse]

/-- Hexadecimal digits are ASCII already. -/
theorem map_toAscii {decimal : Char → Option (Fin 10)} {text : List Char}
    (h : ∀ c ∈ text, IsHex c) : text.map (toAscii decimal) = text := by
  conv_rhs => rw [← List.map_id text]
  exact List.map_congr_left fun c hc => if_pos (h c hc).plain.ascii

/-- A text of digits is no number with a sign or with a marker of the base. -/
theorem intBase16_hex {decimal : Char → Option (Fin 10)} {text : List Char}
    (h : ∀ c ∈ text, IsHex c) (hne : text ≠ []) :
    intBase16 decimal text = hexDigits 0 true text := by
  rw [intBase16, map_toAscii h, strip_of_none fun c hc => (h c hc).plain.space]
  obtain ⟨c, rest, rfl⟩ := List.exists_cons_of_ne_nil hne
  have hc := h c List.mem_cons_self
  rw [← hexDigits_first c hc]
  have hplus : c ≠ '+' := hc.ne (by simp)
  have hmark : ∀ x rest', rest = x :: rest' → IsHex x := fun x rest' he =>
    h x (by rw [he]; simp)
  -- the first four cases have a marker as their second character
  split
  iterate 4
    rename_i heq
    split at heq
    · rename_i hsign
      exact absurd (List.cons.inj hsign).1 hplus
    · exact absurd rfl ((hmark _ _ (List.cons.inj heq).2).ne (by simp))
  split
  · rename_i hsign
    exact absurd (List.cons.inj hsign).1 hplus
  · rfl

/-! ### The text of a UUID -/

/-- The text of a UUID has its digits and four dashes. -/
theorem mem_text {u : UUID} {c : Char} (h : c ∈ u.text) : IsHex c ∨ c = '-' := by
  have hhex : ∀ c ∈ hexPad 32 u.int, IsHex c := hexPad_isHex 32 u.int
  have htake : ∀ {i n : Nat}, c ∈ ((hexPad 32 u.int).drop i).take n → IsHex c := fun hmem =>
    hhex c (List.mem_of_mem_drop (List.mem_of_mem_take hmem))
  simp only [UUID.text, List.mem_append, List.mem_cons] at h
  rcases h with h | rfl | h | rfl | h | rfl | h | rfl | h
  · exact .inl (hhex c (List.mem_of_mem_take h))
  · exact .inr rfl
  · exact .inl (htake h)
  · exact .inr rfl
  · exact .inl (htake h)
  · exact .inr rfl
  · exact .inl (htake h)
  · exact .inr rfl
  · exact .inl (hhex c (List.mem_of_mem_drop h))

/-- They contain no dash. -/
theorem filter_dash {text : List Char} (h : ∀ c ∈ text, IsHex c) :
    text.filter (fun c => decide (c ≠ '-')) = text :=
  List.filter_eq_self.mpr fun c hc => decide_eq_true ((h c hc).ne (by simp))

/-- Digits with four dashes between them are the digits. -/
theorem filter_dashed {hex : List Char} (h : ∀ c ∈ hex, IsHex c) :
    (hex.take 8 ++ '-' :: ((hex.drop 8).take 4 ++ '-' :: ((hex.drop 12).take 4 ++ '-' ::
      ((hex.drop 16).take 4 ++ '-' :: hex.drop 20)))).filter (fun c => decide (c ≠ '-')) = hex := by
  have hpart : ∀ i n, ∀ c ∈ (hex.drop i).take n, IsHex c := fun i n c hc =>
    h c (List.mem_of_mem_drop (List.mem_of_mem_take hc))
  have hdash : ∀ rest : List Char, ('-' :: rest).filter (fun c => decide (c ≠ '-')) =
      rest.filter fun c => decide (c ≠ '-') := fun rest => rfl
  have hsplit : ∀ i, (hex.drop i).take 4 ++ hex.drop (i + 4) = hex.drop i := fun i => by
    rw [← List.drop_drop, List.take_append_drop]
  rw [List.filter_append, hdash, List.filter_append, hdash, List.filter_append, hdash,
    List.filter_append, hdash, filter_dash fun c hc => h c (List.mem_of_mem_take hc),
    filter_dash (hpart 8 4), filter_dash (hpart 12 4), filter_dash (hpart 16 4),
    filter_dash fun c hc => h c (List.mem_of_mem_drop hc), hsplit 16, hsplit 12, hsplit 8,
    List.take_append_drop]

/-- The constructor reads the text of a UUID back. -/
theorem ofText_text (decimal : Char → Option (Fin 10)) (u : UUID) :
    UUID.ofText decimal u.text = some u := by
  have hu : 'u' ∉ u.text := fun hmem => (mem_text hmem).elim
    (fun h => h.ne (by simp) rfl) (by decide)
  have hbrace : ∀ c ∈ u.text, decide (c = '\x7b' ∨ c = '\x7d') = false := fun c hc =>
    decide_eq_false <| by
      rcases mem_text hc with h | rfl
      · rintro (he | he)
        · exact h.ne (by simp) he
        · exact h.ne (by simp) he
      · decide
  have hlength := hexPad_length 32 u.int
  have hbound : u.int < 16 ^ 32 := Nat.lt_of_lt_of_eq u.int_lt (by decide)
  have hne : hexPad 32 u.int ≠ [] := by
    intro he
    rw [he] at hlength
    cases hlength
  have hurn : removeAll "urn:".toList 0 u.text = u.text := removeAll_of_notMem 'u' _ _ hu
  have huuid : removeAll "uuid:".toList 0 u.text = u.text := removeAll_of_notMem 'u' _ _ hu
  simp only [UUID.ofText]
  rw [hurn, huuid, strip_of_none hbrace, UUID.text, filter_dashed (hexPad_isHex 32 u.int),
    if_neg (by rw [hlength]; simp), intBase16_hex (hexPad_isHex 32 u.int) hne,
    hexDigits_hexPad 32 u.int hbound]
  show (if int_lt : u.int < 2 ^ 128 then some (⟨u.int, int_lt⟩ : UUID) else none) = some u
  rw [dif_pos u.int_lt]

/-- Two UUIDs have different texts. -/
theorem text_inj {u v : UUID} (h : u.text = v.text) : u = v := by
  have hu := ofText_text (fun _ => none) u
  rw [h, ofText_text] at hu
  exact (Option.some.inj hu).symm

/-- A name of the flat form determines its file id. -/
theorem directName_inj {u v : UUID} (h : directName u = directName v) : u = v :=
  text_inj (List.append_cancel_right (String.ofList_injective h))

/-! ### Paths -/

/-- The name of a path is what stands behind the last slash. -/
theorem name_join (directory file : List Char) (hfile : '/' ∉ file) (hne : file ≠ [])
    (hdot : file ≠ ['.']) (hdirectory : directory = [] ∨ ∃ parent, directory = parent ++ ['/']) :
    name (directory ++ file) = file := by
  have hlast : ∀ parts : List (List Char),
      ((parts ++ [file]).filter fun part => part ≠ [] ∧ part ≠ ['.']).getLast? = some file := by
    intro parts
    simp [List.filter_append, hne, hdot]
  rw [name]
  rcases hdirectory with rfl | ⟨parent, rfl⟩
  · have hparts := hlast []
    rw [List.nil_append] at hparts ⊢
    rw [List.splitOn_eq_singleton hfile, hparts]
    rfl
  · rw [List.append_assoc]
    show (((parent ++ '/' :: file).splitOn '/').filter _).getLast?.getD [] = file
    rw [List.splitOn_append_cons_self, List.splitOn_eq_singleton hfile, hlast]
    rfl

/-- The stem of a name is what stands before its last dot. -/
theorem stem_dot {path base suffix : List Char} (hname : name path = base ++ '.' :: suffix)
    (hbase : base ≠ []) (hsuffix : suffix ≠ []) (hdot : '.' ∉ suffix) : stem path = base := by
  have hrun : ∀ c ∈ suffix.reverse, decide (c ≠ '.') = true := fun c hc =>
    decide_eq_true fun he => hdot (he ▸ List.mem_reverse.mp hc)
  have hreverse : (base ++ '.' :: suffix).reverse = suffix.reverse ++ '.' :: base.reverse := by
    simp
  rw [stem, hname, hreverse, List.takeWhile_append_of_pos hrun, List.dropWhile_append_of_pos hrun]
  simp [hbase, hsuffix]

/-! ### Uploads -/

/-- The endings of the objects. -/
def IsEnding (ending : List Char) : Prop :=
  ∃ suffix, ending = '.' :: suffix ∧ suffix ≠ [] ∧ '.' ∉ suffix ∧ '/' ∉ suffix

/-- The ending that an upload gets is one of those of the objects. -/
theorem ending_isEnding {kind : UploadKind} {contentType : String}
    (h : contentType ∈ kind.contentTypes.map Prod.fst) : IsEnding (kind.ending contentType) := by
  have hjpg : IsEnding ".jpg".toList := ⟨"jpg".toList, by decide⟩
  cases kind with
  | face => exact hjpg
  | capture => exact hjpg
  | document category =>
    have hall : ∀ entry ∈ documentContentTypes,
        IsEnding ((documentContentTypes.lookup entry.1).getD "").toList := by
      simp only [documentContentTypes, List.mem_cons, List.not_mem_nil, or_false]
      rintro entry (rfl | rfl | rfl | rfl | rfl | rfl | rfl)
      · exact ⟨"pdf".toList, by decide⟩
      · exact ⟨"jpg".toList, by decide⟩
      · exact ⟨"png".toList, by decide⟩
      · exact ⟨"txt".toList, by decide⟩
      · exact ⟨"csv".toList, by decide⟩
      · exact ⟨"docx".toList, by decide +kernel⟩
      · exact ⟨"xlsx".toList, by decide +kernel⟩
    obtain ⟨entry, hentry, rfl⟩ := List.mem_map.mp h
    exact hall entry hentry

/-- A name has no directory, or one that ends in a slash. -/
theorem directory_cases (kind : UploadKind) :
    kind.directory = [] ∨ ∃ parent, kind.directory = parent ++ ['/'] := by
  cases kind with
  | face => exact .inl rfl
  | capture date => exact .inr ⟨_, rfl⟩
  | document category => exact .inr ⟨_, rfl⟩

/-- Every object name that an upload route makes carries the file id of the upload. -/
theorem fileIdFromObjectName_upload (decimal : Char → Option (Fin 10)) (settings : Settings)
    (kind : UploadKind) {fileId : UUID} (hversion : fileId.version = some 4) {contentType : String}
    (htype : contentType ∈ kind.contentTypes.map Prod.fst) (data : List UInt8) :
    fileIdFromObjectName decimal
      (kind.upload settings fileId contentType data).objectName = some fileId := by
  obtain ⟨suffix, hending, hne, hdot, hslash⟩ := ending_isEnding htype
  have htext : fileId.text ≠ [] := by
    intro he
    have hmem : '-' ∈ fileId.text := by simp [UUID.text]
    rw [he] at hmem
    cases hmem
  have hfile : '/' ∉ fileId.text ++ '.' :: suffix := by
    intro hmem
    rcases List.mem_append.mp hmem with hmem | hmem
    · exact (mem_text hmem).elim (fun h => h.ne (by simp) rfl) (by decide)
    · exact (List.mem_cons.mp hmem).elim (by decide) hslash
  have hname : name (kind.directory ++ (fileId.text ++ '.' :: suffix)) =
      fileId.text ++ '.' :: suffix := by
    refine name_join _ _ hfile (by simp) (fun he => ?_) (directory_cases kind)
    have hlength := congrArg List.length he
    have hpos := List.length_pos_iff.mpr htext
    simp at hlength
    omega
  rw [fileIdFromObjectName]
  show Option.filter _ (UUID.ofText decimal (stem (String.toList (String.ofList
    (kind.directory ++ fileId.text ++ kind.ending contentType))))) = _
  rw [String.toList_ofList, hending, List.append_assoc, stem_dot hname htext hne hdot, ofText_text]
  simp [hversion]

end Rsap.Proofs
