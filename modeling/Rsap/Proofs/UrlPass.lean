import Rsap.Orchestration.Security

/-!
# `Rsap.Proofs.UrlPass`: the first pass of an error summary

A match of `_URL` that starts in a text ends in it or runs into what follows, whatever that is
(`urlRun_cases`). So the scan of a text and a word that ends in a scheme comes to the word, or a
match takes the word with what follows it up to a space (`url_settled`).

A secret behind a scheme is always replaced with the rest of its word (`url_sub_secret`).
-/

set_option autoImplicit false

namespace Rsap.Proofs

open Rsap Rsap.Orchestration Rsap.Library

/-! ### Characters -/

section
variable {c d : CodePoint} {s t : PyStr}

/-- `re.I` changes the upper-case letters and four letters outside ASCII. -/
theorem foldCase_eq_self {c : Char} (hupper : ¬ (65 ≤ c.toNat ∧ c.toNat ≤ 90))
    (hspecial : c.toNat ≠ 0x130 ∧ c.toNat ≠ 0x131 ∧ c.toNat ≠ 0x17F ∧ c.toNat ≠ 0x212A) :
    foldCase (.scalar c) = .scalar c := by
  have hif : ¬ ('A' ≤ c ∧ c ≤ 'Z') := hupper
  simp only [foldCase, if_neg hif]
  split
  next h => exact absurd h hspecial.1
  next h => exact absurd h hspecial.2.1
  next h => exact absurd h hspecial.2.2.1
  next h => exact absurd h hspecial.2.2.2
  next => rfl

/-- The codes of the letters: ASCII, and the four characters that fold to an ASCII letter. -/
theorem letter_code {c : Char} (h : isLetter (.scalar c) = true) :
    (65 ≤ c.toNat ∧ c.toNat ≤ 122) ∨ c.toNat = 0x130 ∨ c.toNat = 0x131 ∨ c.toNat = 0x17F ∨
      c.toNat = 0x212A := by
  by_contra hnot
  rw [isLetter, foldCase_eq_self (by omega) (by omega), Bool.and_eq_true, decide_eq_true_iff,
    decide_eq_true_iff] at h
  have hlow : 97 ≤ c.toNat := h.1
  have hhigh : c.toNat ≤ 122 := h.2
  omega

/-- The codes of the scheme characters. -/
theorem schemeChar_code {c : Char} (h : isSchemeChar (.scalar c) = true) :
    (43 ≤ c.toNat ∧ c.toNat ≤ 57) ∨ (65 ≤ c.toNat ∧ c.toNat ≤ 122) ∨ c.toNat = 0x130 ∨
      c.toNat = 0x131 ∨ c.toNat = 0x17F ∨ c.toNat = 0x212A := by
  rw [isSchemeChar, Bool.or_eq_true] at h
  cases h with
  | inl hletter => exact .inr (letter_code hletter)
  | inr hother =>
    simp only [Bool.or_eq_true, Bool.and_eq_true, decide_eq_true_iff, beq_iff_eq] at hother
    rcases hother with ((⟨hlow, hhigh⟩ | rfl) | rfl) | rfl
    · have hlow : 48 ≤ c.toNat := hlow
      have hhigh : c.toNat ≤ 57 := hhigh
      omega
    · decide
    · decide
    · decide

/-- The codes of white space, which lie apart from those. -/
theorem space_code {c : Char} (h : PyStr.isSpace (.scalar c) = true) :
    c.toNat ≤ 32 ∨ c.toNat = 0x85 ∨ c.toNat = 0xA0 ∨ c.toNat = 0x1680 ∨
      (0x2000 ≤ c.toNat ∧ c.toNat ≤ 0x205F) ∨ c.toNat = 0x3000 := by
  simp only [PyStr.isSpace, decide_eq_true_iff] at h
  omega

/-- White space has no case. -/
theorem foldCase_space (h : PyStr.isSpace c = true) : foldCase c = c := by
  cases c with
  | scalar c =>
    have hcode := space_code h
    exact foldCase_eq_self (by omega) (by omega)
  | surrogate n => cases h

/-- A scheme has no white space in it. -/
theorem schemeChar_notSpace (h : isSchemeChar c = true) : notSpace c = true := by
  cases c with
  | scalar c =>
    have hcode := schemeChar_code h
    cases hspace : PyStr.isSpace (.scalar c) with
    | true =>
      have hcode' := space_code hspace
      omega
    | false => simp only [notSpace, hspace, Bool.not_false]
  | surrogate n => rfl

/-- A value has no white space in it. -/
theorem valueChar_notSpace (h : isValueChar c = true) : notSpace c = true := by
  rw [isValueChar, Bool.not_eq_true'] at h
  simp only [Bool.or_eq_false_iff] at h
  rw [notSpace, h.1.1.1, Bool.not_false]

/-- A character of a scheme may stand in a value. -/
theorem schemeChar_valueChar (h : isSchemeChar c = true) : isValueChar c = true := by
  have hspace : PyStr.isSpace c = false := by
    have hnot := schemeChar_notSpace h
    rwa [notSpace, Bool.not_eq_true'] at hnot
  rw [isValueChar, hspace, Bool.false_or, Bool.not_eq_true']
  simp only [Bool.or_eq_false_iff, beq_eq_false_iff_ne]
  refine ⟨⟨?_, ?_⟩, ?_⟩
  · rintro rfl
    exact absurd h (by decide)
  · rintro rfl
    exact absurd h (by decide)
  · rintro rfl
    exact absurd h (by decide)

/-- A letter may stand in a scheme. -/
theorem letter_schemeChar (h : isLetter c = true) : isSchemeChar c = true := by
  unfold isSchemeChar
  rw [h, Bool.true_or]

end

/-! ### The first pass -/

/-- `://`. -/
def mark : PyStr := PyStr.ofString "://"

/-- The text ends as the replacement of a match does. -/
def EndsRedacted (s : PyStr) : Prop := ∃ before, s = before ++ redacted

/-- The last character, if there is one, is of a scheme. -/
def EndsScheme (s : PyStr) : Prop := ∀ c ∈ s.getLast?, isSchemeChar c = true

/-- Every end of such a text is one. -/
theorem EndsScheme.suffix {s t : PyStr} (h : EndsScheme t) (hsuffix : s <:+ t) : EndsScheme s := by
  intro c hc
  obtain ⟨before, rfl⟩ := hsuffix
  apply h c
  rw [List.getLast?_append, Option.mem_def.mp hc]
  rfl

section
variable {s t z : PyStr} {c : CodePoint}

/-- What is behind a scheme is a mark with a character, or it is not, whatever comes later. -/
theorem urlRest_append (hne : z ≠ []) (hz : EndsScheme z) :
    (∀ t, urlRest (z ++ t) = none) ∨
      ∃ c body, z = mark ++ c :: body ∧ notSpace c = true ∧
        ∀ t, urlRest (z ++ t) = some ((body ++ t).dropWhile notSpace) := by
  by_cases hmark : ∃ c body, z = mark ++ c :: body ∧ notSpace c = true
  · obtain ⟨c, body, rfl, hc⟩ := hmark
    refine .inr ⟨c, body, rfl, hc, fun t => ?_⟩
    exact urlRest_eq_some.mpr ⟨c, body ++ t, rfl, hc, rfl⟩
  · left
    intro t
    cases hrest : urlRest (z ++ t) with
    | none => rfl
    | some rest =>
      exfalso
      obtain ⟨c, body, heq, hc, -⟩ := urlRest_eq_some.mp hrest
      have hcolon : ¬ isSchemeChar (.scalar ':') = true := by decide
      have hslash : ¬ isSchemeChar (.scalar '/') = true := by decide
      have hmarkEq : PyStr.ofString "://" = [.scalar ':', .scalar '/', .scalar '/'] := rfl
      rw [hmarkEq] at heq
      -- the last character of the text is none of the mark
      rcases z with - | ⟨z₁, - | ⟨z₂, - | ⟨z₃, - | ⟨z₄, z⟩⟩⟩⟩
      · exact hne rfl
      · simp only [List.cons_append, List.cons.injEq] at heq
        exact hcolon (heq.1 ▸ hz z₁ rfl)
      · simp only [List.cons_append, List.cons.injEq] at heq
        exact hslash (heq.2.1 ▸ hz z₂ rfl)
      · simp only [List.cons_append, List.cons.injEq] at heq
        exact hslash (heq.2.2.1 ▸ hz z₃ rfl)
      · simp only [List.cons_append, List.nil_append, List.cons.injEq] at heq
        obtain ⟨rfl, rfl, rfl, rfl, -⟩ := heq
        exact hmark ⟨z₄, z, rfl, hc⟩

/-- The four ways in which the first pattern can start at a text that ends in a scheme character:
there is no match, it ends at a space of the text, it runs into what comes later, or the scheme
does. -/
theorem urlRun_cases (hs : EndsScheme (c :: s)) :
    (∀ t, Stops isSchemeChar t → urlRun (c :: s ++ t) = none) ∨
    (∃ out rest, rest <:+ s ∧ (∃ d ∈ rest.head?, PyStr.isSpace d = true) ∧
      ∀ t, Stops isSchemeChar t → urlRun (c :: s ++ t) = some (out, rest ++ t)) ∨
    (mark <:+: s ∧ ∃ out, EndsRedacted out ∧ ∀ t, Stops isSchemeChar t →
      urlRun (c :: s ++ t) = some (out, t.dropWhile notSpace)) ∨
    ((∀ d ∈ c :: s, isSchemeChar d = true) ∧ ∀ t, Stops isSchemeChar t →
      urlRun (c :: s ++ t) = (urlRest t).map fun rest => (c :: s ++ mark ++ redacted, rest)) := by
  -- the match starts here only at a letter
  cases hletter : isLetter c with
  | false =>
    left
    intro t _
    simp only [List.cons_append, urlRun, hletter, Bool.false_eq_true, if_false]
  | true =>
    have hrun : ∀ t, Stops isSchemeChar t → urlRun (c :: s ++ t) =
        (urlRest (s.dropWhile isSchemeChar ++ t)).map fun rest =>
          (c :: s.takeWhile isSchemeChar ++ mark ++ redacted, rest) := by
      intro t ht
      simp only [List.cons_append, urlRun, hletter, if_true, dropWhile_append_stops ht,
        takeWhile_append_stops ht]
      rfl
    -- the scheme may end before the word does, or go on into what follows
    cases hdrop : s.dropWhile isSchemeChar with
    | nil =>
      right; right; right
      have hall : ∀ d ∈ s, isSchemeChar d = true := by
        intro d hd
        rw [← List.takeWhile_append_dropWhile (p := isSchemeChar) (l := s), hdrop,
          List.append_nil] at hd
        exact List.mem_takeWhile_imp hd
      have htake : s.takeWhile isSchemeChar = s := List.takeWhile_eq_self_iff.mpr hall
      refine ⟨List.forall_mem_cons.mpr ⟨letter_schemeChar hletter, hall⟩, fun t ht => ?_⟩
      rw [hrun t ht, hdrop, htake, List.nil_append]
    | cons d z =>
      have hsuffix : d :: z <:+ s := hdrop ▸ List.dropWhile_suffix _
      have hends := hs.suffix (hsuffix.trans (List.suffix_cons c s))
      rcases urlRest_append (List.cons_ne_nil d z) hends with hnone | ⟨e, body, heq, he, hsome⟩
      · left
        intro t ht
        rw [hrun t ht, hdrop, hnone t]
        rfl
      · right
        rw [heq] at hsuffix
        have hbody : body <:+ s :=
          ((List.suffix_cons e body).trans (List.suffix_append _ _)).trans hsuffix
        -- and so may the URL
        cases hrest : body.dropWhile notSpace with
        | nil =>
          right; left
          refine ⟨(List.prefix_append mark _).isInfix.trans hsuffix.isInfix,
            c :: s.takeWhile isSchemeChar ++ mark ++ redacted, ⟨_, rfl⟩, fun t ht => ?_⟩
          have hbodyAll : ∀ x ∈ body, notSpace x = true := by
            intro x hx
            rw [← List.takeWhile_append_dropWhile (p := notSpace) (l := body), hrest,
              List.append_nil] at hx
            exact List.mem_takeWhile_imp hx
          rw [hrun t ht, hdrop, hsome t, List.dropWhile_append_of_pos hbodyAll]
          rfl
        | cons x rest =>
          left
          have hstops := stops_dropWhile (p := notSpace) body
          rw [hrest, stops_cons, notSpace, Bool.not_eq_false'] at hstops
          have hrestSuffix : x :: rest <:+ s := (hrest ▸ List.dropWhile_suffix _).trans hbody
          refine ⟨c :: s.takeWhile isSchemeChar ++ mark ++ redacted, x :: rest, hrestSuffix,
            ⟨x, rfl, hstops⟩, fun t ht => ?_⟩
          rw [hrun t ht, hdrop, hsome t, dropWhile_append_some hrest]
          rfl

/-- In a text of scheme characters only the mark behind it can make a match. -/
theorem urlRun_scheme (hs : ∀ d ∈ c :: s, isSchemeChar d = true) (ht : Stops isSchemeChar t) :
    urlRun (c :: s ++ t) =
      if isLetter c then (urlRest t).map fun rest => (c :: s ++ mark ++ redacted, rest)
      else none := by
  have htail : ∀ d ∈ s, isSchemeChar d = true := (List.forall_mem_cons.mp hs).2
  have htake : (s ++ t).takeWhile isSchemeChar = s := by
    rw [takeWhile_append_stops ht, List.takeWhile_eq_self_iff.mpr htail]
  have hdrop : (s ++ t).dropWhile isSchemeChar = t := by
    rw [List.dropWhile_append_of_pos htail, Stops.dropWhile_eq ht]
  rw [List.cons_append, urlRun, htake, hdrop]
  rfl

end

/-! ### A word that ends in a scheme -/

/-- The text ends in a letter and scheme characters. -/
def HasScheme (y : PyStr) : Prop :=
  ∃ before c scheme, y = before ++ c :: scheme ∧ isLetter c = true ∧
    ∀ d ∈ scheme, isSchemeChar d = true

/-- A word without a mark that ends in a scheme, such as a scheme or a sensitive word. -/
structure SchemeWord (y : PyStr) : Prop where
  notSpace : ∀ c ∈ y, notSpace c = true
  noMark : ¬mark <:+: y
  hasScheme : HasScheme y

/-- A text without a colon has no mark. -/
theorem noMark_of_noColon {y : PyStr} (h : .scalar ':' ∉ y) : ¬mark <:+: y :=
  fun hmark => h (hmark.subset (show .scalar ':' ∈ mark by decide))

/-- A text that ends in a scheme ends in a scheme character. -/
theorem HasScheme.ends {y : PyStr} (h : HasScheme y) : EndsScheme y := by
  obtain ⟨before, c, scheme, rfl, hc, hscheme⟩ := h
  intro d hd
  rw [List.getLast?_append, List.getLast?_cons, Option.some_or, Option.mem_some_iff] at hd
  rw [← hd]
  cases hlast : scheme.getLast? with
  | none => exact letter_schemeChar hc
  | some e => exact hscheme e (List.mem_of_getLast? hlast)

/-- A scheme has at least its letter. -/
theorem HasScheme.ne_nil {y : PyStr} (h : HasScheme y) : y ≠ [] := by
  obtain ⟨before, c, scheme, rfl, -, -⟩ := h
  simp

/-- What stands before a scheme does not matter. -/
theorem HasScheme.append (x : PyStr) {y : PyStr} (h : HasScheme y) : HasScheme (x ++ y) := by
  obtain ⟨before, c, scheme, rfl, hc, hscheme⟩ := h
  exact ⟨x ++ before, c, scheme, (List.append_assoc ..).symm, hc, hscheme⟩

/-- What the first pass makes of the text behind a scheme. -/
def behind (t : PyStr) : PyStr :=
  match urlRest t with
  | some rest => mark ++ redacted ++ url.sub rest
  | none => url.sub t

/-- Without a URL the text behind a scheme is treated as any text. -/
theorem behind_of_none {t : PyStr} (h : urlRest t = none) : behind t = url.sub t := by
  rw [behind, h]

/-- The URL behind a scheme is replaced, and the pass goes on behind it. -/
theorem behind_of_some {t rest : PyStr} (h : urlRest t = some rest) :
    behind t = mark ++ redacted ++ url.sub rest := by
  rw [behind, h]

/-- Scheme characters that no mark follows are kept. -/
theorem sub_scheme {y t : PyStr} (hy : ∀ d ∈ y, isSchemeChar d = true) (ht : Stops isSchemeChar t)
    (hrest : urlRest t = none) : url.sub (y ++ t) = y ++ url.sub t := by
  apply Matcher.sub_append_of_none
  intro c u hu
  have hrun := urlRun_scheme (fun d hd => hy d (hu.subset hd)) ht
  rw [hrest, Option.map_none, ite_self] at hrun
  exact hrun

/-- A word that ends in a scheme is kept, and decides what becomes of the text behind it. -/
theorem sub_schemeWord {y t : PyStr} (hy : SchemeWord y) (ht : Stops isSchemeChar t) :
    url.sub (y ++ t) = y ++ behind t := by
  obtain ⟨hspace, hnoMark, hscheme⟩ := hy
  induction y with
  | nil => exact absurd rfl hscheme.ne_nil
  | cons c y ih =>
    obtain ⟨before, d, scheme, heq, hd, hall⟩ := hscheme
    -- what is left of the word when its first character does not start a match
    have hskip : urlRun (c :: y ++ t) = none → url.sub (c :: y ++ t) = c :: y ++ behind t := by
      intro hnone
      rw [List.cons_append, Matcher.sub_of_none hnone, List.cons_append]
      congr 1
      cases before with
      | nil =>
        cases heq
        have hchars : ∀ d ∈ c :: y, isSchemeChar d = true :=
          List.forall_mem_cons.mpr ⟨letter_schemeChar hd, hall⟩
        rw [urlRun_scheme hchars ht, hd, if_pos rfl, Option.map_eq_none_iff] at hnone
        rw [sub_scheme hall ht hnone, behind_of_none hnone]
      | cons e before =>
        cases heq
        exact ih (fun x hx => hspace x (List.mem_cons_of_mem _ hx))
          (fun h => hnoMark (h.trans (List.suffix_cons _ _).isInfix))
          ⟨before, d, scheme, rfl, hd, hall⟩
    have hends : EndsScheme (c :: y) := HasScheme.ends ⟨before, d, scheme, heq, hd, hall⟩
    rcases urlRun_cases hends with hnone | ⟨-, rest, hsuffix, ⟨e, he, hespace⟩, -⟩ |
      ⟨hpart, -⟩ | ⟨-, hrun⟩
    · exact hskip (hnone t ht)
    · -- a match ends only before a space
      have hmem : e ∈ c :: y := List.mem_cons_of_mem _ (hsuffix.subset (List.mem_of_head? he))
      have hnot := hspace e hmem
      rw [Rsap.Orchestration.notSpace, hespace] at hnot
      cases hnot
    · exact absurd (hpart.trans (List.suffix_cons c y).isInfix) hnoMark
    · cases hrest : urlRest t with
      | none =>
        apply hskip
        rw [hrun t ht, hrest]
        rfl
      | some rest =>
        have hmatch : url.run (c :: y ++ t) = some (c :: y ++ mark ++ redacted, rest) := by
          show urlRun (c :: y ++ t) = _
          rw [hrun t ht, hrest]
          rfl
        rw [Matcher.sub_of_some hmatch, behind_of_some hrest]
        simp only [List.append_assoc]

/-- The first pass comes to such a word, or a match takes the word and what follows it up to a
space. -/
theorem url_settled {k : PyStr} (hk : SchemeWord k) (c : CodePoint) (x : PyStr) :
    Matcher.Settled url k (Stops isSchemeChar) EndsRedacted (List.dropWhile notSpace) c x := by
  have hends : EndsScheme (c :: x ++ k) := (hk.hasScheme.append (c :: x)).ends
  rw [List.cons_append] at hends
  rcases urlRun_cases hends with hnone | ⟨out, rest, hsuffix, ⟨e, he, hespace⟩, hrun⟩ |
    ⟨-, out, hout, hrun⟩ | ⟨hall, hrun⟩
  · exact .none hnone
  · -- the rest begins with a space, so it is longer than the word
    rcases List.suffix_or_suffix_of_suffix hsuffix (List.suffix_append x k) with hshort | hlong
    · have hnot := hk.notSpace e (hshort.subset (List.mem_of_head? he))
      rw [Rsap.Orchestration.notSpace, hespace] at hnot
      cases hnot
    · obtain ⟨more, rfl⟩ := hlong
      have hle := hsuffix.length_le
      rw [List.length_append, List.length_append] at hle
      exact .ends out more (by omega) hrun
  · exact .swallows out hout hrun
  -- a scheme up to the end of the word, whose mark would have to follow it
  · have hword : SchemeWord (c :: x ++ k) := by
      refine ⟨fun d hd => schemeChar_notSpace (hall d hd), ?_, hk.hasScheme.append _⟩
      exact noMark_of_noColon fun hmem => absurd (hall _ hmem) (by decide)
    refine .lands (Matcher.lands_of_none fun d u hu => ?_) fun t ht => ?_
    · have hchars : ∀ e ∈ d :: u ++ k, isSchemeChar e = true := by
        intro e he
        obtain ⟨before, hbefore⟩ := hu
        apply hall e
        rw [← List.cons_append, ← hbefore, List.append_assoc]
        exact List.mem_append_right _ he
      have hrun := urlRun_scheme (s := u ++ k) hchars Stops.nil
      rw [List.append_nil] at hrun
      show urlRun (d :: (u ++ k)) = none
      rw [hrun]
      simp [urlRest, afterMark]
    · rw [sub_schemeWord hword ht, sub_schemeWord hk ht, List.append_assoc]

/-! ### A secret behind a scheme -/

/-- A scheme ends where a mark begins. -/
theorem stops_scheme_mark (t : PyStr) : Stops isSchemeChar (mark ++ t) :=
  stops_cons.mpr (by decide)

/-- The character is white space, or there is none. -/
def StartsWithSpace (t : PyStr) : Prop := Stops notSpace t

/-- The characters of the secret are taken with the URL, up to the white space behind it. -/
theorem dropWhile_secret {u b : PyStr} (hu : ∀ c ∈ u, notSpace c = true) (hb : StartsWithSpace b) :
    (u ++ b).dropWhile notSpace = b := by
  rw [List.dropWhile_append_of_pos hu, Stops.dropWhile_eq hb]

/-- The first pass replaces the secret behind a mark. -/
theorem urlRest_secret {u b : PyStr} (hne : u ≠ []) (hu : ∀ c ∈ u, notSpace c = true)
    (hb : StartsWithSpace b) : urlRest (mark ++ (u ++ b)) = some b := by
  cases u with
  | nil => exact absurd rfl hne
  | cons c u =>
    rw [List.forall_mem_cons] at hu
    exact urlRest_eq_some.mpr ⟨c, u ++ b, rfl, hu.1, (dropWhile_secret hu.2 hb).symm⟩

/-- A mark has no white space in it. -/
theorem mark_notSpace : ∀ c ∈ mark, notSpace c = true := by decide

/-- What the first pass makes of a text with a scheme does not depend on the secret behind it. -/
theorem url_sub_secret {a scheme u v b : PyStr} (hscheme : SchemeWord scheme) (hune : u ≠ [])
    (hvne : v ≠ []) (hu : ∀ c ∈ u, notSpace c = true) (hv : ∀ c ∈ v, notSpace c = true)
    (hb : StartsWithSpace b) :
    url.sub (a ++ scheme ++ (mark ++ (u ++ b))) = url.sub (a ++ scheme ++ (mark ++ (v ++ b))) := by
  have hdrop : ∀ w : PyStr, (∀ c ∈ w, notSpace c = true) →
      (mark ++ (w ++ b)).dropWhile notSpace = b := fun w hw => by
    rw [List.dropWhile_append_of_pos mark_notSpace, dropWhile_secret hw hb]
  rcases Matcher.lands_or_swallowed hscheme.hasScheme.ne_nil Stops.nil rfl (url_settled hscheme) a
    with ⟨out, -, hsub⟩ | ⟨-, before, out, -, hsub⟩
  · rw [hsub _ (stops_scheme_mark _), hsub _ (stops_scheme_mark _),
      sub_schemeWord hscheme (stops_scheme_mark _), sub_schemeWord hscheme (stops_scheme_mark _),
      behind_of_some (urlRest_secret hune hu hb), behind_of_some (urlRest_secret hvne hv hb)]
  · rw [hsub _ (stops_scheme_mark _), hsub _ (stops_scheme_mark _), hdrop u hu, hdrop v hv]

end Rsap.Proofs
