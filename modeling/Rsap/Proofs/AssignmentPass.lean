import Rsap.Proofs.UrlPass

/-!
# `Rsap.Proofs.AssignmentPass`: the second pass of an error summary

Behind a separator the first pass leaves a plain value. When the secret makes a URL with what stands
around it (`Completes`), what is left behind the value is the text from its first space on
(`behind_completes`), and otherwise the text from its first delimiter on (`behind_plain`).

The scan of `_SENSITIVE_ASSIGNMENT` comes to a sensitive word, or a match takes the word with what
follows it up to a delimiter (`assignment_settled`). When it comes to the word, the assignment is
replaced (`sub_assignment`).
-/

set_option autoImplicit false

namespace Rsap.Proofs

open Rsap Rsap.Orchestration Rsap.Library

/-! ### A separator -/

/-- `\s*[=:]\s*`. -/
def IsSeparator (sep : PyStr) : Prop :=
  ∃ before e after, sep = before ++ e :: after ∧ (∀ c ∈ before, PyStr.isSpace c = true) ∧
    (e = .scalar '=' ∨ e = .scalar ':') ∧ ∀ c ∈ after, PyStr.isSpace c = true

/-- The characters of a separator. -/
def isSeparatorChar (c : CodePoint) : Bool :=
  PyStr.isSpace c || c == .scalar '=' || c == .scalar ':'

/-- A separator consists of white space and of `=` or `:`. -/
theorem separatorChar_cases {c : CodePoint} (h : isSeparatorChar c = true) :
    PyStr.isSpace c = true ∨ c = .scalar '=' ∨ c = .scalar ':' := by
  simpa [isSeparatorChar, or_assoc] using h

/-- No character of a separator is one of a scheme. -/
theorem separatorChar_noScheme {c : CodePoint} (h : isSeparatorChar c = true) :
    isSchemeChar c = false := by
  rcases separatorChar_cases h with hspace | rfl | rfl
  · by_contra hscheme
    have hnot := schemeChar_notSpace (Bool.of_not_eq_false hscheme)
    rw [notSpace, hspace] at hnot
    cases hnot
  · decide
  · decide

/-- What is no scheme character is no letter. -/
theorem noScheme_noLetter {c : CodePoint} (h : isSchemeChar c = false) : isLetter c = false := by
  by_contra hletter
  rw [letter_schemeChar (Bool.of_not_eq_false hletter)] at h
  cases h

/-- The first pass keeps the characters of a separator. -/
theorem url_sub_separators {s : PyStr} (h : ∀ c ∈ s, isSeparatorChar c = true) (t : PyStr) :
    url.sub (s ++ t) = s ++ url.sub t := by
  apply Matcher.sub_append_of_none
  intro c u hu
  have hc := noScheme_noLetter (separatorChar_noScheme (h c (hu.subset List.mem_cons_self)))
  show urlRun (c :: (u ++ t)) = none
  rw [urlRun, hc]
  rfl

section
variable {sep : PyStr} (h : IsSeparator sep)
include h

/-- Every character of a separator is white space, `=` or `:`. -/
theorem IsSeparator.chars : ∀ c ∈ sep, isSeparatorChar c = true := by
  obtain ⟨before, e, after, rfl, hbefore, he, hafter⟩ := h
  intro c hc
  rw [List.mem_append, List.mem_cons] at hc
  rcases hc with hc | rfl | hc
  · simp [isSeparatorChar, hbefore c hc]
  · rcases he with rfl | rfl <;> rfl
  · simp [isSeparatorChar, hafter c hc]

/-- A separator has its `=` or `:`. -/
theorem IsSeparator.ne_nil : sep ≠ [] := by
  obtain ⟨before, e, after, rfl, -, -, -⟩ := h
  simp

/-- A scheme ends where a separator begins. -/
theorem IsSeparator.stops (t : PyStr) : Stops isSchemeChar (sep ++ t) := by
  cases hsep : sep with
  | nil => exact absurd hsep h.ne_nil
  | cons c sep' =>
    exact stops_cons.mpr (separatorChar_noScheme (h.chars c (hsep ▸ List.mem_cons_self)))

/-- Only a bare colon can be the beginning of a mark. -/
theorem IsSeparator.urlRest {t rest : PyStr} (hrest : urlRest (sep ++ t) = some rest) :
    sep = [.scalar ':'] ∧ ∃ c body, t = .scalar '/' :: .scalar '/' :: c :: body ∧
      notSpace c = true ∧ rest = body.dropWhile notSpace := by
  obtain ⟨before, e, after, rfl, hbefore, -, hafter⟩ := h
  obtain ⟨c, body, heq, hc, hbody⟩ := urlRest_eq_some.mp hrest
  have hcolon : PyStr.isSpace (.scalar ':') = false := by decide
  have hslash : PyStr.isSpace (.scalar '/') = false := by decide
  have hmarkEq : PyStr.ofString "://" = [.scalar ':', .scalar '/', .scalar '/'] := rfl
  rw [hmarkEq] at heq
  -- white space before the sign or behind it would stand where the mark is
  cases before with
  | cons d before =>
    have hspace := hbefore d List.mem_cons_self
    simp only [List.cons_append, List.cons.injEq] at heq
    rw [heq.1, hcolon] at hspace
    cases hspace
  | nil =>
    cases after with
    | cons d after =>
      have hspace := hafter d List.mem_cons_self
      simp only [List.nil_append, List.cons_append, List.cons.injEq] at heq
      rw [heq.2.1, hslash] at hspace
      cases hspace
    | nil =>
      simp only [List.nil_append, List.cons_append, List.cons.injEq] at heq
      obtain ⟨rfl, rfl⟩ := heq
      exact ⟨rfl, c, body, rfl, hc, hbody⟩

end

/-! ### The text behind a separator -/

/-- A secret that may stand behind a sensitive word. -/
structure AssignedSecret (u : PyStr) : Prop where
  ne_nil : u ≠ []
  valueChars : ∀ c ∈ u, isValueChar c = true
  noMark : ¬mark <:+: u

/-- A scan that takes fewer characters stops there as well. -/
theorem stops_mono {p q : CodePoint → Bool} {t : PyStr} (hpq : ∀ c, p c = true → q c = true)
    (h : Stops q t) : Stops p t := by
  intro c hc
  by_contra hp
  have hq := hpq c (Bool.of_not_eq_false hp)
  rw [h c hc] at hq
  cases hq

/-- A prefix of a text is a prefix of its first part, or it goes on there with the first character
of the second. -/
theorem prefix_append_drop {α : Type} {m w z : List α} (h : m <+: w ++ z) :
    m <+: w ∨ ∃ c ∈ z.head?, c ∈ m.drop w.length := by
  rcases List.prefix_or_prefix_of_prefix h (List.prefix_append w z) with hshort | ⟨more, rfl⟩
  · exact .inl hshort
  · cases more with
    | nil =>
      rw [List.append_nil]
      exact .inl (List.prefix_refl w)
    | cons c more =>
      have htail : c :: more <+: z := (List.prefix_append_right_inj w).mp h
      obtain ⟨rest, rfl⟩ := htail
      refine .inr ⟨c, rfl, ?_⟩
      rw [List.drop_left]
      exact List.mem_cons_self

/-- A prefix of a text is a prefix of its first part, or it takes the first character of the
second. -/
theorem prefix_append_cases {α : Type} {m w z : List α} (h : m <+: w ++ z) :
    m <+: w ∨ ∃ c ∈ z.head?, c ∈ m :=
  (prefix_append_drop h).imp_right fun ⟨c, hc, hmem⟩ => ⟨c, hc, List.mem_of_mem_drop hmem⟩

/-- The text is empty or starts with a delimiter. -/
def StartsWithDelimiter (b : PyStr) : Prop := Stops isValueChar b ∨ mark <+: b

/-- A delimiter is no scheme character. -/
theorem StartsWithDelimiter.stops {b : PyStr} (h : StartsWithDelimiter b) :
    Stops isSchemeChar b := by
  rcases h with hstops | ⟨rest, rfl⟩
  · exact stops_mono (fun _ => schemeChar_valueChar) hstops
  · exact stops_scheme_mark rest

/-- A delimiter is no slash. -/
theorem StartsWithDelimiter.noSlash {b : PyStr} (h : StartsWithDelimiter b) :
    ∀ c ∈ b.head?, c ≠ .scalar '/' := by
  rcases h with hstops | ⟨rest, rfl⟩
  · rintro c hc rfl
    exact absurd (hstops _ hc) (by decide)
  · rintro c hc rfl
    have hcolon : CodePoint.scalar ':' = .scalar '/' := Option.some.inj hc
    exact absurd hcolon (by decide)

/-- A secret that ends in no scheme is kept by the first pass. -/
theorem url_sub_noScheme {w b : PyStr} (hw : AssignedSecret w) (hscheme : ¬HasScheme w)
    (hb : StartsWithDelimiter b) : url.sub (w ++ b) = w ++ url.sub b := by
  apply Matcher.sub_append_of_none
  intro c x hx
  show urlRun (c :: (x ++ b)) = none
  rw [urlRun, dropWhile_append_stops hb.stops]
  split
  case isFalse => rfl
  rename_i hletter
  cases hdrop : x.dropWhile isSchemeChar with
  | nil =>
    -- the secret would end in this letter and what follows it
    obtain ⟨before, rfl⟩ := hx
    have hall : ∀ d ∈ x, isSchemeChar d = true := List.dropWhile_eq_nil_iff.mp hdrop
    exact absurd ⟨before, c, x, rfl, hletter, hall⟩ hscheme
  | cons d z =>
    have hsuffix : d :: z <:+ w :=
      ((hdrop ▸ List.dropWhile_suffix _).trans (List.suffix_cons c x)).trans hx
    cases hrest : urlRest (d :: z ++ b) with
    | none => rfl
    | some rest =>
      exfalso
      obtain ⟨e, body, heq, -, -⟩ := urlRest_eq_some.mp hrest
      rcases prefix_append_drop (⟨e :: body, heq.symm⟩ : mark <+: d :: z ++ b) with
        hinside | ⟨f, hf, hmem⟩
      · exact hw.noMark (hinside.isInfix.trans hsuffix.isInfix)
      · -- only the slashes of a mark come after another character
        have hslashes : ∀ g ∈ mark.tail, g = .scalar '/' := by decide
        have htail : f ∈ mark.tail := List.mem_of_mem_drop
          (show f ∈ mark.tail.drop z.length by simpa using hmem)
        exact hb.noSlash f hf (hslashes f htail)

/-- A secret that ends in a scheme decides with what follows it. -/
theorem url_sub_hasScheme {w b : PyStr} (hw : AssignedSecret w) (hscheme : HasScheme w)
    (hb : StartsWithDelimiter b) : url.sub (w ++ b) = w ++ behind b :=
  sub_schemeWord ⟨fun c hc => valueChar_notSpace (hw.valueChars c hc), hw.noMark, hscheme⟩ hb.stops

/-! #### Up to the first space -/

/-- A match that runs to a space leaves the same with any text behind that space. -/
theorem urlRest_append_space {w z : PyStr} (hz : StartsWithSpace z) :
    urlRest (w ++ z) = (urlRest w).map (· ++ z) := by
  cases hrest : urlRest w with
  | some rest =>
    obtain ⟨c, body, rfl, hc, rfl⟩ := urlRest_eq_some.mp hrest
    refine urlRest_eq_some.mpr ⟨c, body ++ z, rfl, hc, ?_⟩
    rw [dropWhile_append_stops hz]
  | none =>
    cases hlong : urlRest (w ++ z) with
    | none => rfl
    | some rest =>
      exfalso
      obtain ⟨c, body, heq, hc, -⟩ := urlRest_eq_some.mp hlong
      have hprefix : mark ++ [c] <+: w ++ z := ⟨body, by rw [heq, List.append_assoc]; rfl⟩
      rcases prefix_append_cases hprefix with ⟨more, rfl⟩ | ⟨d, hd, hmem⟩
      · rw [urlRest_eq_some.mpr ⟨c, more, by rw [List.append_assoc]; rfl, hc, rfl⟩] at hrest
        cases hrest
      · have hall : ∀ d ∈ mark ++ [c], notSpace d = true :=
          List.forall_mem_append.mpr ⟨mark_notSpace, List.forall_mem_singleton.mpr hc⟩
        exact absurd (hall d hmem) (by rw [hz d hd]; decide)

/-- A space ends every match, so the first pass works on the two parts on their own. -/
theorem url_sub_append {y z : PyStr} (hz : StartsWithSpace z) :
    url.sub (y ++ z) = url.sub y ++ url.sub z := by
  have hscheme : Stops isSchemeChar z := stops_mono (fun _ => schemeChar_notSpace) hz
  -- on the length of the text, as a match may take many characters at once
  induction hn : y.length using Nat.strongRecOn generalizing y with
  | ind n ih =>
    cases y with
    | nil => rfl
    | cons c y =>
      rw [List.length_cons] at hn
      have hrun : url.run (c :: (y ++ z)) =
          (url.run (c :: y)).map fun found => (found.1, found.2 ++ z) := by
        show urlRun (c :: (y ++ z)) = (urlRun (c :: y)).map _
        rw [urlRun, urlRun, takeWhile_append_stops hscheme, dropWhile_append_stops hscheme,
          urlRest_append_space hz]
        split
        · rw [Option.map_map, Option.map_map]
          rfl
        · rfl
      -- no match here, or one that ends before the white space
      cases hfound : url.run (c :: y) with
      | none =>
        rw [hfound] at hrun
        rw [Matcher.sub_of_none hfound, List.cons_append, Matcher.sub_of_none hrun,
          ih y.length (by omega) rfl]
        rfl
      | some found =>
        obtain ⟨out, rest⟩ := found
        rw [hfound] at hrun
        have hshrinks := url.shrinks _ _ _ hfound
        rw [List.length_cons] at hshrinks
        rw [Matcher.sub_of_some hfound, List.cons_append, Matcher.sub_of_some hrun,
          ih rest.length (by omega) rfl, List.append_assoc]

/-- The first pass brings in no space. -/
theorem url_sub_notSpace {y : PyStr} (hy : ∀ c ∈ y, notSpace c = true) :
    ∀ c ∈ url.sub y, notSpace c = true := by
  refine Matcher.forall_mem_sub (fun s out rest hfound hs => ?_) hy
  have hout : urlRun s = some (out, rest) := hfound
  cases s with
  | nil => cases hout
  | cons c s =>
    rw [urlRun] at hout
    split at hout
    next =>
      obtain ⟨r, hr, heq⟩ := Option.map_eq_some_iff.mp hout
      cases heq
      rw [List.forall_mem_cons] at hs
      -- a match puts its scheme and the mark in place of text without white space
      obtain ⟨d, body, hbody, -, rfl⟩ := urlRest_eq_some.mp hr
      have hredacted : ∀ c ∈ redacted, notSpace c = true := by decide
      have hbodyMem : ∀ e ∈ body, e ∈ s := fun e he =>
        (List.dropWhile_suffix (l := s) isSchemeChar).subset
          (hbody ▸ List.mem_append_right _ (List.mem_cons_of_mem _ he))
      constructor
      · simp only [List.cons_append, List.forall_mem_cons, List.forall_mem_append]
        exact ⟨hs.1, ⟨fun e he => hs.2 e ((List.takeWhile_prefix _).subset he), mark_notSpace⟩,
          hredacted⟩
      · exact fun e he => hs.2 e (hbodyMem e ((List.dropWhile_suffix _).subset he))
    next => cases hout

/-- The first pass keeps a space at the beginning. -/
theorem url_sub_space {z : PyStr} (hz : StartsWithSpace z) : StartsWithSpace (url.sub z) := by
  cases z with
  | nil => exact hz
  | cons c z =>
    have hc := stops_cons.mp hz
    have hnone : url.run (c :: z) = none := by
      show urlRun (c :: z) = none
      have hletter : isLetter c = false := by
        by_contra hletter
        rw [schemeChar_notSpace (letter_schemeChar (Bool.of_not_eq_false hletter))] at hc
        cases hc
      rw [urlRun, hletter]
      rfl
    rw [Matcher.sub_of_none hnone]
    exact stops_cons.mpr hc

/-! #### Behind a separator -/

/-- The text up to its first space has no delimiter. -/
def FirstWordPlain (b : PyStr) : Prop := ∀ c ∈ b.takeWhile notSpace, isValueChar c = true

/-- The secret makes a URL with the separator before it or with the text behind it. -/
def Completes (sep w b : PyStr) : Prop :=
  (urlRest (sep ++ (w ++ b))).isSome ∨ (HasScheme w ∧ (urlRest b).isSome)

/-- A match behind a text without spaces goes on to the first space. -/
theorem urlRest_word {b rest : PyStr} (h : urlRest b = some rest) :
    rest = b.dropWhile notSpace := by
  obtain ⟨c, body, rfl, hc, rfl⟩ := urlRest_eq_some.mp h
  have hall : ∀ d ∈ PyStr.ofString "://" ++ [c], notSpace d = true :=
    List.forall_mem_append.mpr ⟨mark_notSpace, List.forall_mem_singleton.mpr hc⟩
  rw [List.append_cons, List.dropWhile_append_of_pos hall]

/-- What the first pass leaves behind the value when the secret is in a URL: the text from its first
space on. -/
def urlTail (b : PyStr) : PyStr := url.sub (b.dropWhile notSpace)

/-- What it leaves behind the value otherwise: the text from its first delimiter on. -/
def valueTail (b : PyStr) : PyStr := (url.sub b).dropWhile isValueChar

/-- The first pass works on the first word of a text and on the rest of it. -/
theorem url_sub_firstWord (b : PyStr) :
    url.sub b = url.sub (b.takeWhile notSpace) ++ urlTail b := by
  have hsplit : b.takeWhile notSpace ++ b.dropWhile notSpace = b :=
    List.takeWhile_append_dropWhile
  have happend := url_sub_append (y := b.takeWhile notSpace) (stops_dropWhile b)
  rwa [hsplit] at happend

/-- It is empty or begins with white space. -/
theorem urlTail_space (b : PyStr) : StartsWithSpace (urlTail b) :=
  url_sub_space (stops_dropWhile b)

/-- So no value of an assignment reaches into it. -/
theorem stops_urlTail (b : PyStr) : Stops isValueChar (urlTail b) :=
  stops_mono (fun _ => valueChar_notSpace) (urlTail_space b)

/-- A value ends where this part begins. -/
theorem stops_valueTail (b : PyStr) : Stops isValueChar (valueTail b) := stops_dropWhile _

/-- The first word of the text, after the first pass. -/
theorem firstWord_notSpace (b : PyStr) : ∀ c ∈ url.sub (b.takeWhile notSpace), notSpace c = true :=
  url_sub_notSpace fun _ hc => List.mem_takeWhile_imp hc

/-- Whether the secret is in a URL makes no difference when the first word stays plain. -/
theorem valueTail_eq {b : PyStr} (h : FirstWordPlain (url.sub b)) : valueTail b = urlTail b := by
  have hword := firstWord_notSpace b
  have hplain : ∀ c ∈ url.sub (b.takeWhile notSpace), isValueChar c = true := by
    intro c hc
    apply h c
    rw [url_sub_firstWord, takeWhile_append_stops (urlTail_space b),
      List.takeWhile_eq_self_iff.mpr hword]
    exact hc
  rw [valueTail, url_sub_firstWord, List.dropWhile_append_of_pos hplain,
    Stops.dropWhile_eq (stops_urlTail b)]

/-- Otherwise the rest of the value begins with a delimiter that is no space. -/
theorem valueTail_delimiter {b : PyStr} (h : ¬FirstWordPlain (url.sub b)) :
    ∃ d rest, valueTail b = d :: rest ∧ isValueChar d = false ∧ notSpace d = true := by
  have hword := firstWord_notSpace b
  cases hdrop : (url.sub (b.takeWhile notSpace)).dropWhile isValueChar with
  | nil =>
    exfalso
    refine h fun c hc => ?_
    rw [url_sub_firstWord, takeWhile_append_stops (urlTail_space b),
      List.takeWhile_eq_self_iff.mpr hword] at hc
    exact List.dropWhile_eq_nil_iff.mp hdrop c hc
  | cons d rest =>
    have hstops := stops_dropWhile (p := isValueChar) (url.sub (b.takeWhile notSpace))
    rw [hdrop, stops_cons] at hstops
    have hmem : d ∈ url.sub (b.takeWhile notSpace) :=
      (List.dropWhile_suffix isValueChar).subset (hdrop ▸ List.mem_cons_self)
    refine ⟨d, rest ++ urlTail b, ?_, hstops, hword d hmem⟩
    rw [valueTail, url_sub_firstWord, dropWhile_append_some hdrop, List.cons_append]

/-- The two slashes of a mark. -/
def slashes : PyStr := PyStr.ofString "//"

/-- A secret in a URL: the first pass leaves a plain value behind the separator, and goes on at the
first space behind the secret. -/
theorem behind_completes {sep w b : PyStr} (hsep : IsSeparator sep) (hw : AssignedSecret w)
    (hb : StartsWithDelimiter b) (h : Completes sep w b) :
    ∃ value, value ≠ [] ∧ (∀ c ∈ value, isValueChar c = true) ∧
      behind (sep ++ (w ++ b)) = sep ++ (value ++ urlTail b) := by
  have hredacted : ∀ c ∈ redacted, isValueChar c = true := by decide
  have hmark : ∀ c ∈ mark, isValueChar c = true := by decide
  cases hrest : urlRest (sep ++ (w ++ b)) with
  | some rest =>
    -- the separator is the colon of the mark
    obtain ⟨rfl, c, body, heq, hc, rfl⟩ := hsep.urlRest hrest
    refine ⟨slashes ++ redacted, by decide, by decide, ?_⟩
    have hall : ∀ c ∈ w, notSpace c = true := fun c hc => valueChar_notSpace (hw.valueChars c hc)
    have hdrop : (w ++ b).dropWhile notSpace = body.dropWhile notSpace := by
      have hslash : notSpace (.scalar '/') = true := by decide
      simp only [heq, List.dropWhile_cons, hslash, hc, if_true]
    rw [behind_of_some hrest, ← hdrop, List.dropWhile_append_of_pos hall, List.append_assoc]
    rfl
  | none =>
    -- the mark is behind the secret
    obtain ⟨hscheme, hsome⟩ := h.resolve_left (by rw [hrest]; exact Bool.false_ne_true)
    obtain ⟨rest, hbehind⟩ := Option.isSome_iff_exists.mp hsome
    refine ⟨w ++ (mark ++ redacted), by simp [hw.ne_nil],
      List.forall_mem_append.mpr ⟨hw.valueChars, List.forall_mem_append.mpr ⟨hmark, hredacted⟩⟩, ?_⟩
    rw [behind_of_none hrest, url_sub_separators hsep.chars, url_sub_hasScheme hw hscheme hb,
      behind_of_some hbehind, urlRest_word hbehind, ← urlTail]
    simp only [List.append_assoc]

/-- A secret in no URL: the first pass keeps it. -/
theorem behind_kept {sep w b : PyStr} (hsep : IsSeparator sep) (hw : AssignedSecret w)
    (hb : StartsWithDelimiter b) (h : ¬Completes sep w b) :
    behind (sep ++ (w ++ b)) = sep ++ (w ++ url.sub b) := by
  rw [Completes, not_or, Option.not_isSome_iff_eq_none, not_and, Option.not_isSome_iff_eq_none] at h
  obtain ⟨hrest, hmark⟩ := h
  rw [behind_of_none hrest, url_sub_separators hsep.chars]
  by_cases hscheme : HasScheme w
  · rw [url_sub_hasScheme hw hscheme hb, behind_of_none (hmark hscheme)]
  · rw [url_sub_noScheme hw hscheme hb]

/-- Behind the separator there is then a plain value up to the first delimiter. -/
theorem behind_plain {sep w b : PyStr} (hsep : IsSeparator sep) (hw : AssignedSecret w)
    (hb : StartsWithDelimiter b) (h : ¬Completes sep w b) :
    ∃ value, value ≠ [] ∧ (∀ c ∈ value, isValueChar c = true) ∧
      behind (sep ++ (w ++ b)) = sep ++ (value ++ valueTail b) := by
  refine ⟨w ++ (url.sub b).takeWhile isValueChar, by simp [hw.ne_nil], ?_, ?_⟩
  · exact List.forall_mem_append.mpr ⟨hw.valueChars, fun _ hc => List.mem_takeWhile_imp hc⟩
  · rw [behind_kept hsep hw hb h, List.append_assoc, valueTail, List.takeWhile_append_dropWhile]

/-! ### The second pass -/

/-- The word is sensitive, in any case. -/
def SensitiveWord (kw : PyStr) : Prop := kw.map foldCase ∈ sensitiveWords

/-- No sensitive word has a separator or a delimiter in it. -/
theorem sensitive_chars : ∀ word ∈ sensitiveWords, ∀ c ∈ word,
    isSeparatorChar c = false ∧ isValueChar c = true := by
  decide +kernel

/-- Every sensitive word begins with a lower-case letter. -/
theorem sensitive_first : ∀ word ∈ sensitiveWords, ∃ c ∈ word.head?,
    isLetter c = true ∧ foldCase c = c := by
  decide +kernel

/-- Every sensitive word ends in a lower-case letter. -/
theorem sensitive_last : ∀ word ∈ sensitiveWords, ∃ c ∈ word.getLast?,
    isLetter c = true ∧ foldCase c = c := by
  decide +kernel

/-- No sensitive word begins another one. -/
theorem sensitive_prefix_free : ∀ v ∈ sensitiveWords, ∀ w ∈ sensitiveWords,
    v <+: w → v = w := by
  decide +kernel

/-- No sensitive word ends another one. -/
theorem sensitive_suffix_free : ∀ v ∈ sensitiveWords, ∀ w ∈ sensitiveWords,
    v <:+ w → v = w := by
  decide +kernel

/-- The characters of a separator have no case. -/
theorem foldCase_separator {c : CodePoint} (h : isSeparatorChar c = true) : foldCase c = c := by
  rcases separatorChar_cases h with hspace | rfl | rfl
  · exact foldCase_space hspace
  · rfl
  · rfl

/-- The delimiters have no case. -/
theorem foldCase_delimiter {c : CodePoint} (h : isValueChar c = false) : foldCase c = c := by
  simp only [isValueChar, Bool.not_eq_false', Bool.or_eq_true, beq_iff_eq] at h
  rcases h with ((hspace | rfl) | rfl) | rfl
  · exact foldCase_space hspace
  · rfl
  · rfl
  · rfl

section
variable {kw : PyStr} (h : SensitiveWord kw)
include h

/-- A sensitive word in any case has no separator in it, since separators have no case. -/
theorem SensitiveWord.noSeparator : ∀ c ∈ kw, isSeparatorChar c = false := by
  intro c hc
  by_contra hseparator
  have hfold := foldCase_separator (Bool.of_not_eq_false hseparator)
  exact hseparator (hfold ▸ (sensitive_chars _ h _ (List.mem_map_of_mem hc)).1)

/-- Nor has it a delimiter. -/
theorem SensitiveWord.valueChars : ∀ c ∈ kw, isValueChar c = true := by
  intro c hc
  by_contra hvalue
  have hfold := foldCase_delimiter (Bool.eq_false_iff.mpr hvalue)
  exact hvalue (hfold ▸ (sensitive_chars _ h _ (List.mem_map_of_mem hc)).2)

/-- A sensitive word ends in a letter. -/
theorem SensitiveWord.last : ∃ before c, kw = before ++ [c] ∧ isLetter c = true := by
  obtain ⟨e, he, hletter, hself⟩ := sensitive_last _ h
  rw [List.getLast?_map, Option.mem_def, Option.map_eq_some_iff] at he
  obtain ⟨c, hc, hfold⟩ := he
  obtain ⟨before, rfl⟩ := List.getLast?_eq_some_iff.mp hc
  refine ⟨before, c, rfl, ?_⟩
  rw [isLetter, hfold]
  rw [isLetter, hself] at hletter
  exact hletter

/-- A sensitive word could be the scheme of a URL. -/
theorem SensitiveWord.schemeWord : SchemeWord kw where
  notSpace c hc := valueChar_notSpace (h.valueChars c hc)
  noMark := noMark_of_noColon fun hc => absurd (h.noSeparator _ hc) (by decide)
  hasScheme := by
    obtain ⟨before, c, heq, hc⟩ := h.last
    exact ⟨before, c, [], heq, hc, fun d hd => absurd hd List.not_mem_nil⟩

end

/-! #### A word at one position -/

/-- A word is matched exactly when the text begins with it up to case. -/
theorem dropWord_eq_some {word s rest : PyStr} :
    dropWord word s = some rest ↔ ∃ w, s = w ++ rest ∧ w.map foldCase = word := by
  unfold dropWord
  constructor
  · intro hfound
    split at hfound
    next hword =>
      cases hfound
      exact ⟨s.take word.length, (List.take_append_drop _ _).symm, hword⟩
    next => cases hfound
  · rintro ⟨w, rfl, rfl⟩
    have htake : (w ++ rest).take (w.map foldCase).length = w := by
      rw [List.length_map, List.take_left]
    have hdrop : (w ++ rest).drop (w.map foldCase).length = rest := by
      rw [List.length_map, List.drop_left]
    rw [htake, hdrop, if_pos rfl]

/-- The text begins like a separator, or it is empty. -/
def StartsLikeSeparator (t : PyStr) : Prop := Stops (fun c => !isSeparatorChar c) t

/-- A separator ends a word. -/
theorem dropWord_append {word s t : PyStr} (hword : word ∈ sensitiveWords)
    (ht : StartsLikeSeparator t) : dropWord word (s ++ t) = (dropWord word s).map (· ++ t) := by
  cases hshort : dropWord word s with
  | some rest =>
    obtain ⟨w, rfl, hw⟩ := dropWord_eq_some.mp hshort
    exact dropWord_eq_some.mpr ⟨w, by rw [List.append_assoc], hw⟩
  | none =>
    cases hlong : dropWord word (s ++ t) with
    | none => rfl
    | some rest =>
      exfalso
      obtain ⟨w, heq, rfl⟩ := dropWord_eq_some.mp hlong
      rcases prefix_append_cases (⟨rest, heq.symm⟩ : w <+: s ++ t) with ⟨more, rfl⟩ | ⟨c, hc, hmem⟩
      · rw [dropWord_eq_some.mpr ⟨w, rfl, rfl⟩] at hshort
        cases hshort
      · have hseparator : isSeparatorChar c = true := by simpa using ht c hc
        have hnot := SensitiveWord.noSeparator hword c hmem
        rw [hseparator] at hnot
        cases hnot

/-- When a single alternative matches, the first one that matches is this one. -/
theorem findSome?_eq_of_unique {α β : Type} {f : α → Option β} {l : List α} {a : α} (ha : a ∈ l)
    (hunique : ∀ b ∈ l, b ≠ a → f b = none) : l.findSome? f = f a := by
  cases hfound : l.findSome? f with
  | none => exact (List.findSome?_eq_none_iff.mp hfound a ha).symm
  | some value =>
    obtain ⟨b, hb, hvalue⟩ := List.exists_of_findSome?_eq_some hfound
    by_cases heq : b = a
    · rw [← heq, hvalue]
    · rw [hunique b hb heq] at hvalue
      cases hvalue

/-- At most one word matches at a position, and it decides. -/
theorem assignmentRun_of_word {word s rest : PyStr} (hword : word ∈ sensitiveWords)
    (hrest : dropWord word s = some rest) :
    assignmentRun s = (assignedRest rest).map fun found => (redacted, found) := by
  obtain ⟨w, rfl, hw⟩ := dropWord_eq_some.mp hrest
  have hunique : ∀ v ∈ sensitiveWords, v ≠ word →
      (dropWord v (w ++ rest) >>= assignedRest) = none := by
    intro v hv hne
    cases hother : dropWord v (w ++ rest) with
    | none => rfl
    | some other =>
      exfalso
      obtain ⟨u, heq, hu⟩ := dropWord_eq_some.mp hother
      rcases List.prefix_or_prefix_of_prefix (List.prefix_append w rest) ⟨other, heq.symm⟩
        with hshort | hshort
      · exact hne (sensitive_prefix_free _ hword _ hv (hw ▸ hu ▸ hshort.map foldCase)).symm
      · exact hne (sensitive_prefix_free _ hv _ hword (hw ▸ hu ▸ hshort.map foldCase))
  rw [assignmentRun, findSome?_eq_of_unique hword hunique, hrest]
  rfl

/-- No match of `_SENSITIVE_ASSIGNMENT` begins where no sensitive word does. -/
theorem assignmentRun_of_none {s : PyStr} (h : ∀ word ∈ sensitiveWords, dropWord word s = none) :
    assignmentRun s = none := by
  rw [assignmentRun, List.findSome?_eq_none_iff.mpr fun word hword => by rw [h word hword]; rfl]
  rfl

/-! #### The text behind a word -/

/-- The text ends in a character that is no separator. -/
def EndsPlain (r : PyStr) : Prop := ∃ before c, r = before ++ [c] ∧ isSeparatorChar c = false

/-- There is a last character. -/
theorem EndsPlain.ne_nil {r : PyStr} (h : EndsPlain r) : r ≠ [] := by
  obtain ⟨before, c, rfl, -⟩ := h
  simp

/-- Every end of such a text is one. -/
theorem EndsPlain.suffix {r s : PyStr} (h : EndsPlain s) (hsuffix : r <:+ s) (hne : r ≠ []) :
    EndsPlain r := by
  obtain ⟨before, c, rfl, hc⟩ := h
  obtain ⟨front, hfront⟩ := hsuffix
  obtain ⟨init, d, rfl⟩ : ∃ init d, r = init ++ [d] :=
    ⟨r.dropLast, r.getLast hne, (List.dropLast_append_getLast hne).symm⟩
  rw [← List.append_assoc] at hfront
  have hlast : d = c := (List.cons.inj (List.append_inj' hfront rfl).2).1
  exact ⟨init, d, rfl, hlast ▸ hc⟩

/-- White space does not take all of such a text. -/
theorem EndsPlain.dropSpace {r : PyStr} (h : EndsPlain r) :
    ∃ c rest, r.dropWhile PyStr.isSpace = c :: rest ∧ c :: rest <:+ r := by
  cases hdrop : r.dropWhile PyStr.isSpace with
  | nil =>
    obtain ⟨before, c, rfl, hc⟩ := h
    have hspace := List.dropWhile_eq_nil_iff.mp hdrop c (by simp)
    rw [isSeparatorChar, hspace] at hc
    cases hc
  | cons c rest => exact ⟨c, rest, rfl, hdrop ▸ List.dropWhile_suffix _⟩

/-- Behind a word there is no assignment, or its value ends at a delimiter, or its value runs into
what comes later. -/
theorem assignedRest_cases {r : PyStr} (hr : EndsPlain r) :
    (∀ t, assignedRest (r ++ t) = none) ∨
    (∃ rest, rest <:+ r ∧ (∃ c ∈ rest.head?, isValueChar c = false) ∧
      ∀ t, assignedRest (r ++ t) = some (rest ++ t)) ∨
    ∀ t, assignedRest (r ++ t) = some (t.dropWhile isValueChar) := by
  obtain ⟨e, tail, htail, hsuffix⟩ := hr.dropSpace
  -- the sign decides whether this is an assignment at all
  by_cases he : e = .scalar '=' ∨ e = .scalar ':'
  · have hne : tail ≠ [] := by
      rintro rfl
      obtain ⟨before, c, heq, hc⟩ := hr.suffix hsuffix (List.cons_ne_nil _ _)
      obtain ⟨-, hlast⟩ := List.append_inj' (heq.symm.trans (List.nil_append [e]).symm) rfl
      cases hlast
      rcases he with rfl | rfl <;> cases hc
    have htailSuffix : tail <:+ r := (List.suffix_cons e tail).trans hsuffix
    obtain ⟨f, value, hvalue, hvalueSuffix⟩ := (hr.suffix htailSuffix hne).dropSpace
    have hrun : ∀ t, assignedRest (r ++ t) = valueRest (f :: (value ++ t)) := by
      intro t
      rw [assignedRest, dropWhile_append_some htail]
      simp only [List.cons_append, if_pos he, dropWhile_append_some hvalue]
    -- and the first character of the value whether it has one
    by_cases hf : isValueChar f = true
    · right
      have hsome : ∀ t, assignedRest (r ++ t) = some ((value ++ t).dropWhile isValueChar) := by
        intro t
        rw [hrun t, valueRest, if_pos hf]
      -- the value ends before the text does, or goes on into what follows
      cases hdrop : value.dropWhile isValueChar with
      | nil =>
        right
        intro t
        rw [hsome t, List.dropWhile_append_of_pos (List.dropWhile_eq_nil_iff.mp hdrop)]
      | cons g rest =>
        left
        have hg := stops_dropWhile (p := isValueChar) value
        rw [hdrop, stops_cons] at hg
        have hrest : g :: rest <:+ value := hdrop ▸ List.dropWhile_suffix _
        refine ⟨g :: rest, ?_, ⟨g, rfl, hg⟩, fun t => ?_⟩
        · exact ((hrest.trans (List.suffix_cons f value)).trans hvalueSuffix).trans htailSuffix
        · rw [hsome t, dropWhile_append_some hdrop]
    · left
      intro t
      rw [hrun t, valueRest, if_neg hf]
  · left
    intro t
    rw [assignedRest, dropWhile_append_some htail]
    simp only [List.cons_append, if_neg he]

/-- The second pass comes to a sensitive word, or a match takes the word and what follows it up to
a delimiter. -/
theorem assignment_settled {kw : PyStr} (h : SensitiveWord kw) (c : CodePoint) (x : PyStr) :
    Matcher.Settled assignment kw StartsLikeSeparator (· = redacted) (List.dropWhile isValueChar)
      c x := by
  by_cases hword : ∃ word ∈ sensitiveWords, ∃ r, dropWord word (c :: x ++ kw) = some r
  · obtain ⟨word, hword, r, hr⟩ := hword
    obtain ⟨w, heq, hw⟩ := dropWord_eq_some.mp hr
    have hne : r ≠ [] := by
      -- a sensitive word would end another one
      rintro rfl
      rw [List.append_nil] at heq
      have hsuffix : kw <:+ w := heq ▸ List.suffix_append _ _
      have hsame := sensitive_suffix_free _ h _ hword (hw ▸ hsuffix.map foldCase)
      have hlength := congrArg List.length (hsame.trans hw.symm)
      rw [List.length_map, List.length_map, ← heq, List.length_append, List.length_cons] at hlength
      omega
    have hplain : EndsPlain r := by
      obtain ⟨before, d, hkw, -⟩ := h.last
      have hd : isSeparatorChar d = false := h.noSeparator d (by rw [hkw]; simp)
      have hwhole : EndsPlain (c :: x ++ kw) :=
        ⟨c :: x ++ before, d, by rw [hkw, List.append_assoc], hd⟩
      exact hwhole.suffix (heq ▸ List.suffix_append _ _) hne
    have hrun : ∀ t, StartsLikeSeparator t → assignment.run (c :: x ++ kw ++ t) =
        (assignedRest (r ++ t)).map fun found => (redacted, found) := by
      intro t ht
      have hdrop := dropWord_append (s := c :: x ++ kw) hword ht
      rw [hr] at hdrop
      exact assignmentRun_of_word hword hdrop
    rcases assignedRest_cases hplain with
      hnone | ⟨rest, hsuffix, ⟨d, hd, hdelimiter⟩, hrest⟩ | hrest
    · refine .none fun t ht => ?_
      rw [hrun t ht, hnone t]
      rfl
    · -- the rest begins with a delimiter, so it is longer than the word
      have hall : rest <:+ c :: x ++ kw := hsuffix.trans (heq ▸ List.suffix_append _ _)
      rcases List.suffix_or_suffix_of_suffix hall (List.suffix_append (c :: x) kw) with
        hshort | hlong
      · have hvalue := h.valueChars d (hshort.subset (List.mem_of_head? hd))
        rw [hdelimiter] at hvalue
        cases hvalue
      · obtain ⟨more, rfl⟩ := hlong
        have hshrinks := assignment.shrinks _ _ _ ((hrun [] Stops.nil).trans
          (congrArg _ (hrest [])))
        simp only [List.length_append, List.length_cons, List.length_nil] at hshrinks
        refine .ends redacted more (by omega) fun t ht => ?_
        rw [hrun t ht, hrest t]
        rfl
    · refine .swallows redacted rfl fun t ht => ?_
      rw [hrun t ht, hrest t]
      rfl
  · refine .none fun t ht => assignmentRun_of_none fun word hmem => ?_
    cases hr : dropWord word (c :: x ++ kw) with
    | some r => exact absurd ⟨word, hmem, r, hr⟩ hword
    | none => rw [dropWord_append hmem ht, hr, Option.map_none]

/-- The second pass replaces an assignment when it comes to its word. -/
theorem sub_assignment {kw sep value t : PyStr} (hkw : SensitiveWord kw) (hsep : IsSeparator sep)
    (hne : value ≠ []) (hvalue : ∀ c ∈ value, isValueChar c = true) (ht : Stops isValueChar t) :
    assignment.sub (kw ++ (sep ++ (value ++ t))) = redacted ++ assignment.sub t := by
  obtain ⟨before, e, after, rfl, hbefore, he, hafter⟩ := hsep
  obtain ⟨c, value, rfl⟩ := List.exists_cons_of_ne_nil hne
  rw [List.forall_mem_cons] at hvalue
  have hspace : ∀ d, isValueChar d = true → PyStr.isSpace d = false := by
    intro d hd
    have hnot := valueChar_notSpace hd
    rwa [notSpace, Bool.not_eq_true'] at hnot
  have heSpace : PyStr.isSpace e = false := by
    rcases he with rfl | rfl <;> rfl
  -- white space, the sign, white space and then the whole value up to its delimiter
  have hassigned : assignedRest (before ++ e :: after ++ (c :: value ++ t)) = some t := by
    rw [List.append_assoc, assignedRest, List.dropWhile_append_of_pos hbefore, List.cons_append,
      Stops.dropWhile_eq (stops_cons.mpr heSpace)]
    simp only [if_pos he]
    rw [List.dropWhile_append_of_pos hafter, List.cons_append,
      Stops.dropWhile_eq (stops_cons.mpr (hspace c hvalue.1)), valueRest, if_pos hvalue.1,
      List.dropWhile_append_of_pos hvalue.2, Stops.dropWhile_eq ht]
  have hrun := assignmentRun_of_word hkw
    (dropWord_eq_some.mpr ⟨kw, rfl, rfl⟩ : dropWord (kw.map foldCase)
      (kw ++ (before ++ e :: after ++ (c :: value ++ t))) = some _)
  rw [hassigned] at hrun
  exact Matcher.sub_of_some hrun

/-! #### What the second pass keeps -/

/-- A match begins with a letter. -/
theorem assignmentRun_noLetter {c : CodePoint} {s : PyStr} (hc : isLetter c = false) :
    assignmentRun (c :: s) = none := by
  refine assignmentRun_of_none fun word hword => ?_
  cases hfound : dropWord word (c :: s) with
  | none => rfl
  | some rest =>
    exfalso
    obtain ⟨w, heq, rfl⟩ := dropWord_eq_some.mp hfound
    obtain ⟨e, he, hletter, hself⟩ := sensitive_first _ hword
    cases w with
    | nil => cases he
    | cons d w =>
      cases heq
      cases he
      rw [isLetter, hself] at hletter
      rw [isLetter, hletter] at hc
      cases hc

/-- A delimiter is kept. -/
theorem assignment_sub_delimiter {c : CodePoint} (s : PyStr) (hc : isValueChar c = false) :
    assignment.sub (c :: s) = c :: assignment.sub s := by
  apply Matcher.sub_of_none
  apply assignmentRun_noLetter
  by_contra hletter
  rw [schemeChar_valueChar (letter_schemeChar (Bool.of_not_eq_false hletter))] at hc
  cases hc

/-- The characters of a separator are kept. -/
theorem assignment_sub_separators {s : PyStr} (h : ∀ c ∈ s, isSeparatorChar c = true) (t : PyStr) :
    assignment.sub (s ++ t) = s ++ assignment.sub t := by
  apply Matcher.sub_append_of_none
  intro c u hu
  exact assignmentRun_noLetter
    (noScheme_noLetter (separatorChar_noScheme (h c (hu.subset List.mem_cons_self))))

/-- The text ends in the bracket of a replacement. -/
def Closed (y : PyStr) : Prop := ∃ before, y = before ++ [.scalar '>']

/-- A replacement ends in its bracket. -/
theorem EndsRedacted.closed {y : PyStr} (h : EndsRedacted y) : Closed y := by
  obtain ⟨before, rfl⟩ := h
  exact ⟨before ++ PyStr.ofString "<redacted", by rw [List.append_assoc]; rfl⟩

/-- Every end of such a text is empty or one. -/
theorem Closed.suffix {x y : PyStr} (h : Closed y) (hsuffix : x <:+ y) : x = [] ∨ Closed x := by
  obtain ⟨before, rfl⟩ := h
  rcases List.suffix_or_suffix_of_suffix hsuffix (List.suffix_append before [.scalar '>']) with
    hshort | ⟨more, rfl⟩
  · rcases List.suffix_cons_iff.mp hshort with rfl | hnil
    · exact .inr ⟨[], rfl⟩
    · exact .inl (List.suffix_nil.mp hnil)
  · exact .inr ⟨more, rfl⟩

/-- Such a text is no word, so what follows a word in it is not empty. -/
theorem Closed.plain {y r : PyStr} (h : Closed y) {word : PyStr} (hword : word ∈ sensitiveWords)
    (hr : dropWord word y = some r) : EndsPlain r := by
  obtain ⟨w, rfl, hw⟩ := dropWord_eq_some.mp hr
  rcases h.suffix (List.suffix_append w r) with rfl | ⟨before, rfl⟩
  · -- the word would end in the bracket
    exfalso
    have hkw : SensitiveWord w := by rwa [SensitiveWord, hw]
    obtain ⟨front, c, rfl, hc⟩ := hkw.last
    obtain ⟨back, hback⟩ := h
    rw [List.append_nil] at hback
    obtain ⟨-, hlast⟩ := List.append_inj' hback rfl
    cases hlast
    exact absurd hc (by decide)
  · exact ⟨before, .scalar '>', rfl, by decide⟩

/-- A space behind such a text ends every match, so the second pass works on the two parts on their
own. -/
theorem assignment_sub_append {y z : PyStr} (hy : y = [] ∨ Closed y) (hz : StartsWithSpace z) :
    assignment.sub (y ++ z) = assignment.sub y ++ assignment.sub z := by
  have hseparator : StartsLikeSeparator z := by
    intro c hc
    have hspace := hz c hc
    rw [notSpace, Bool.not_eq_false'] at hspace
    simp [isSeparatorChar, hspace]
  induction hn : y.length using Nat.strongRecOn generalizing y with
  | ind n ih =>
    cases y with
    | nil => rfl
    | cons c y =>
      rw [List.length_cons] at hn
      have hclosed : Closed (c :: y) := hy.resolve_left (List.cons_ne_nil c y)
      -- without a match the scan goes on with the next character
      have hskip : assignment.run (c :: y) = none → assignment.run (c :: (y ++ z)) = none →
          assignment.sub (c :: y ++ z) = assignment.sub (c :: y) ++ assignment.sub z := by
        intro hnone hnone'
        rw [Matcher.sub_of_none hnone, List.cons_append, Matcher.sub_of_none hnone',
          ih y.length (by omega) (hclosed.suffix (List.suffix_cons c y)) rfl]
        rfl
      by_cases hword : ∃ word ∈ sensitiveWords, ∃ r, dropWord word (c :: y) = some r
      · obtain ⟨word, hword, r, hr⟩ := hword
        obtain ⟨w, heq, -⟩ := dropWord_eq_some.mp hr
        have hrun : assignment.run (c :: y) =
            (assignedRest (r ++ [])).map fun found => (redacted, found) := by
          rw [List.append_nil]
          exact assignmentRun_of_word hword hr
        have hrun' : assignment.run (c :: y ++ z) =
            (assignedRest (r ++ z)).map fun found => (redacted, found) := by
          have hdrop := dropWord_append (s := c :: y) hword hseparator
          rw [hr] at hdrop
          exact assignmentRun_of_word hword hdrop
        rcases assignedRest_cases (hclosed.plain hword hr) with
          hnone | ⟨rest, hsuffix, -, hrest⟩ | hrest
        · rw [hnone] at hrun hrun'
          exact hskip hrun hrun'
        · -- the match ends before the space
          rw [hrest, List.append_nil] at hrun
          rw [hrest] at hrun'
          have hshrinks := assignment.shrinks _ _ _ hrun
          rw [List.length_cons] at hshrinks
          have hall : rest <:+ c :: y := hsuffix.trans (heq ▸ List.suffix_append w r)
          rw [Matcher.sub_of_some hrun, Matcher.sub_of_some hrun',
            ih rest.length (by omega) (hclosed.suffix hall) rfl, List.append_assoc]
        · -- the match ends at the space
          rw [hrest, List.dropWhile_nil] at hrun
          rw [hrest, Stops.dropWhile_eq (stops_mono (fun _ => valueChar_notSpace) hz)] at hrun'
          rw [Matcher.sub_of_some hrun, Matcher.sub_of_some hrun', Matcher.sub_nil,
            List.append_nil]
      · have hnone : ∀ word ∈ sensitiveWords, dropWord word (c :: y) = none := by
          intro word hmem
          cases hr : dropWord word (c :: y) with
          | none => rfl
          | some r => exact absurd ⟨word, hmem, r, hr⟩ hword
        refine hskip (assignmentRun_of_none hnone) (assignmentRun_of_none fun word hmem => ?_)
        have hdrop := dropWord_append (s := c :: y) hmem hseparator
        rw [hnone word hmem] at hdrop
        exact hdrop

end Rsap.Proofs
