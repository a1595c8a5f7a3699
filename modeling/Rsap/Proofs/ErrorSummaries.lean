import Rsap.Proofs.AssignmentPass

/-!
# `Rsap.Proofs.ErrorSummaries`: what an error summary tells of a secret

A secret behind a scheme is always replaced with the rest of its word.

A secret behind a sensitive word is replaced when the separator has no white space, or when the
scans of both passes come to the word (`passes_reached`, `passes_swallowed`). What is left of the
text behind the secret may depend on whether the secret makes a URL with what stands around it.
Otherwise an earlier match ends at the white space of the separator, and the secret is treated as
if it stood alone (`passes_left`).

`passes_take_iff` puts the three cases together for two secrets (`Hides`), and `hides_all_iff` for
all of them (`HidesAll`). `error_summaries_hide_secrets` is about the summaries.
-/

set_option autoImplicit false

namespace Rsap.Proofs

open Rsap Rsap.Orchestration Rsap.Library

/-! ### When the scans come to the word -/

/-- The first pass comes to the word behind the text. -/
def UrlReaches (a kw : PyStr) : Prop := ∃ out, url.Lands kw a out

/-- Both passes come to the word behind the text. -/
def BothReach (a kw : PyStr) : Prop :=
  ∃ out more, url.Lands kw a out ∧ assignment.Lands kw out more

/-- The passes take the secret: the separator has no white space, or both of them come to the
word. -/
def TakesSecret (a kw sep : PyStr) : Prop :=
  (∀ c ∈ sep, PyStr.isSpace c = false) ∨ BothReach a kw

/-- Both passes over a text on one line. -/
def passes (s : PyStr) : PyStr := assignment.sub (url.sub s)

/-- Behind a separator anything starts like one. -/
theorem IsSeparator.starts {sep : PyStr} (h : IsSeparator sep) (rest : PyStr) :
    StartsLikeSeparator (sep ++ rest) := by
  cases hcase : sep with
  | nil => exact absurd hcase h.ne_nil
  | cons c sep' =>
    have hc := h.chars c (hcase ▸ List.mem_cons_self)
    exact stops_cons.mpr (by rw [hc]; rfl)

section
variable {a kw sep : PyStr} (hkw : SensitiveWord kw) (hsep : IsSeparator sep)
include hkw hsep

/-- The second pass treats every plain value behind a word alike when its scan comes to the word or
the separator has no white space. -/
theorem second_pass {text : PyStr}
    (hreached : (∀ c ∈ sep, PyStr.isSpace c = false) ∨ ∃ out, assignment.Lands kw text out) :
    ∃ before, ∀ value t, value ≠ [] → (∀ c ∈ value, isValueChar c = true) → Stops isValueChar t →
      assignment.sub (text ++ kw ++ (sep ++ (value ++ t))) = before ++ assignment.sub t := by
  rcases Matcher.lands_or_swallowed hkw.schemeWord.hasScheme.ne_nil Stops.nil rfl
    (assignment_settled hkw) text with ⟨out, -, hsub⟩ | ⟨hnot, before, out, -, hsub⟩
  · refine ⟨out ++ redacted, fun value t hne hvalue ht => ?_⟩
    rw [hsub _ (hsep.starts _), sub_assignment hkw hsep hne hvalue ht, List.append_assoc]
  · have hspace : ∀ c ∈ sep, PyStr.isSpace c = false := by
      rcases hreached with hspace | ⟨more, hmore⟩
      · exact hspace
      · exact absurd hmore (hnot more)
    -- without white space the separator is taken with the value
    have hall : ∀ c ∈ sep, isValueChar c = true := by
      intro c hc
      rcases separatorChar_cases (hsep.chars c hc) with h | rfl | rfl
      · rw [hspace c hc] at h
        cases h
      · decide
      · decide
    refine ⟨before ++ out, fun value t _ hvalue ht => ?_⟩
    rw [hsub _ (hsep.starts _), List.dropWhile_append_of_pos hall,
      List.dropWhile_append_of_pos hvalue, Stops.dropWhile_eq ht]

/-- Both passes, when they take the secret and the first one comes to the word: the same text comes
first for every secret, and then what is left behind the value. -/
theorem passes_reached (hreached : TakesSecret a kw sep) (hurl : UrlReaches a kw) :
    ∃ before, ∀ w b, AssignedSecret w → StartsWithDelimiter b →
      (Completes sep w b →
        passes (a ++ kw ++ (sep ++ (w ++ b))) = before ++ assignment.sub (urlTail b)) ∧
      (¬Completes sep w b →
        passes (a ++ kw ++ (sep ++ (w ++ b))) = before ++ assignment.sub (valueTail b)) := by
  -- the first pass comes to the keyword, by the hypothesis
  rcases Matcher.lands_or_swallowed hkw.schemeWord.hasScheme.ne_nil Stops.nil rfl
    (url_settled hkw.schemeWord) a with ⟨out, hlands, hsub⟩ | ⟨hnot, -⟩
  -- and so does the second one, or the separator has no white space
  · have hreached' : (∀ c ∈ sep, PyStr.isSpace c = false) ∨
        ∃ more, assignment.Lands kw out more := by
      rcases hreached with hspace | ⟨out', more, hout, hmore⟩
      · exact .inl hspace
      · exact .inr ⟨more, hlands.unique hout ▸ hmore⟩
    obtain ⟨before, hbefore⟩ := second_pass hkw hsep hreached'
    have hbehind : ∀ s, passes (a ++ kw ++ (sep ++ s)) =
        assignment.sub (out ++ kw ++ behind (sep ++ s)) := by
      intro s
      rw [passes, hsub _ (hsep.stops _), sub_schemeWord hkw.schemeWord (hsep.stops _),
        List.append_assoc]
    -- the value of the assignment is the secret, or the URL that it completes
    refine ⟨before, fun w b hw hb => ⟨fun h => ?_, fun h => ?_⟩⟩
    · obtain ⟨value, hne, hvalue, heq⟩ := behind_completes hsep hw hb h
      rw [hbehind, heq, hbefore value _ hne hvalue (stops_urlTail b)]
    · obtain ⟨value, hne, hvalue, heq⟩ := behind_plain hsep hw hb h
      rw [hbehind, heq, hbefore value _ hne hvalue (stops_valueTail b)]
  · obtain ⟨out, hout⟩ := hurl
    exact absurd hout (hnot out)

/-- Both passes, when a URL takes the word and the separator has no white space: the URL takes the
secret too. -/
theorem passes_swallowed (hspace : ∀ c ∈ sep, PyStr.isSpace c = false) (hurl : ¬UrlReaches a kw)
    {u v b : PyStr} (hu : AssignedSecret u) (hv : AssignedSecret v) :
    passes (a ++ kw ++ (sep ++ (u ++ b))) = passes (a ++ kw ++ (sep ++ (v ++ b))) := by
  rcases Matcher.lands_or_swallowed hkw.schemeWord.hasScheme.ne_nil Stops.nil rfl
    (url_settled hkw.schemeWord) a with ⟨out, hlands, -⟩ | ⟨-, before, out, -, hsub⟩
  · exact absurd ⟨out, hlands⟩ hurl
  · have hall : ∀ c ∈ sep, notSpace c = true := fun c hc => by rw [notSpace, hspace c hc]; rfl
    have hdrop : ∀ w, AssignedSecret w →
        (sep ++ (w ++ b)).dropWhile notSpace = b.dropWhile notSpace := by
      intro w hw
      rw [List.dropWhile_append_of_pos hall,
        List.dropWhile_append_of_pos fun c hc => valueChar_notSpace (hw.valueChars c hc)]
    rw [passes, passes, hsub _ (hsep.stops _), hsub _ (hsep.stops _), hdrop u hu, hdrop v hv]

/-- Both passes, when a match that takes the word ends at the white space of the separator: the
secret and the text behind it are treated on their own. -/
theorem passes_left (h : ¬TakesSecret a kw sep) :
    ∃ before, ∀ s, passes (a ++ kw ++ (sep ++ s)) = before ++ passes s := by
  obtain ⟨hspaced, hboth⟩ := not_or.mp h
  push Not at hspaced
  obtain ⟨space, hmem, hspace⟩ := hspaced
  have hspace : PyStr.isSpace space = true := by simpa using hspace
  -- a run that stops at a space ends in the separator
  have hstop : ∀ p : CodePoint → Bool, p space = false → ∃ c front,
      (∀ d ∈ c :: front, isSeparatorChar d = true) ∧ p c = false ∧
        ∀ t, (sep ++ t).dropWhile p = c :: front ++ t := by
    intro p hp
    cases hdrop : sep.dropWhile p with
    | nil =>
      rw [List.dropWhile_eq_nil_iff.mp hdrop space hmem] at hp
      cases hp
    | cons c front =>
      have hc := stops_dropWhile (p := p) sep
      rw [hdrop, stops_cons] at hc
      refine ⟨c, front, fun d hd => hsep.chars d ?_, hc, fun t => dropWhile_append_some hdrop⟩
      exact (List.dropWhile_suffix p).subset (hdrop ▸ hd)
  rcases Matcher.lands_or_swallowed hkw.schemeWord.hasScheme.ne_nil Stops.nil rfl
    (url_settled hkw.schemeWord) a with ⟨out, hlands, hsub⟩ | ⟨-, before, out, hout, hsub⟩
  · -- the second pass does not come to the word, and its match ends at the white space
    rcases Matcher.lands_or_swallowed hkw.schemeWord.hasScheme.ne_nil Stops.nil rfl
      (assignment_settled hkw) out with ⟨more, hmore, -⟩ | ⟨-, before, more, -, hassigned⟩
    · exact absurd ⟨out, more, hlands, hmore⟩ hboth
    · have hvalue : isValueChar space = false := by simp [isValueChar, hspace]
      obtain ⟨c, front, hfront, -, hdrop⟩ := hstop isValueChar hvalue
      refine ⟨before ++ more ++ (c :: front), fun s => ?_⟩
      have hrest : urlRest (sep ++ s) = none := by
        cases hfound : urlRest (sep ++ s) with
        | none => rfl
        | some rest =>
          obtain ⟨rfl, -⟩ := hsep.urlRest hfound
          rw [List.mem_singleton.mp hmem] at hspace
          exact absurd hspace (by decide)
      rw [passes, hsub _ (hsep.stops _), sub_schemeWord hkw.schemeWord (hsep.stops _),
        behind_of_none hrest, url_sub_separators hsep.chars, ← List.append_assoc,
        hassigned _ (hsep.starts _), hdrop, assignment_sub_separators hfront, passes,
        ← List.append_assoc]
  · -- a URL ends at the white space, and nothing before it takes what comes later
    have hword : notSpace space = false := by rw [notSpace, hspace]; rfl
    obtain ⟨c, front, hfront, hc, hdrop⟩ := hstop notSpace hword
    refine ⟨assignment.sub (before ++ out) ++ (c :: front), fun s => ?_⟩
    have hclosed : Closed (before ++ out) := by
      obtain ⟨init, rfl⟩ := hout
      exact EndsRedacted.closed ⟨before ++ init, (List.append_assoc ..).symm⟩
    have hstart : StartsWithSpace (c :: front ++ url.sub s) := stops_cons.mpr hc
    rw [passes, hsub _ (hsep.stops _), hdrop, url_sub_separators hfront,
      assignment_sub_append (.inr hclosed) hstart, assignment_sub_separators hfront, passes,
      ← List.append_assoc]

end

/-! ### When two secrets make a difference -/

/-- A text is a secret when its characters may stand in a value and it has no mark. -/
theorem assignedSecret_of_text {text : String}
    (h : PyStr.ofString text ≠ [] ∧ (∀ c ∈ PyStr.ofString text, isValueChar c = true) ∧
      ¬mark <:+: PyStr.ofString text) : AssignedSecret (PyStr.ofString text) :=
  ⟨h.1, h.2.1, h.2.2⟩

/-- Both secrets make a URL with what stands around them, or none of the two does, or the first
word behind them stays plain. -/
def SameRest (sep u v b : PyStr) : Prop :=
  (Completes sep u b ↔ Completes sep v b) ∨ FirstWordPlain (url.sub b)

/-- When the passes leave the same for two secrets. `room` is what the maximum length leaves for the
text from the first place on where they can differ. -/
def Hides (a kw sep u v b : PyStr) (room : Nat) : Prop :=
  (TakesSecret a kw sep → room = 0 ∨ (UrlReaches a kw → SameRest sep u v b)) ∧
  (¬TakesSecret a kw sep → (passes (u ++ b)).take room = (passes (v ++ b)).take room)

/-- When the passes leave the same for every secret: they take it, and no secret can make a URL with
what stands around it, or the first word behind it stays plain. -/
def HidesAll (a kw sep b : PyStr) : Prop :=
  TakesSecret a kw sep ∧ (UrlReaches a kw →
    sep = [.scalar ':'] ∨ (urlRest b).isSome → FirstWordPlain (url.sub b))

/-- The text behind a secret in a URL begins with a space, and behind another secret with the first
delimiter. -/
theorem take_tails {b : PyStr} (room : Nat) (h : ¬FirstWordPlain (url.sub b)) :
    (assignment.sub (urlTail b)).take room = (assignment.sub (valueTail b)).take room ↔
      room = 0 := by
  obtain ⟨d, rest, heq, hd, hword⟩ := valueTail_delimiter h
  rw [heq, assignment_sub_delimiter rest hd]
  have hspace := urlTail_space b
  constructor
  · intro htake
    cases room with
    | zero => rfl
    | succ room =>
      exfalso
      -- one tail begins with a delimiter and the other with white space, or it is empty
      cases htail : urlTail b with
      | nil =>
        rw [htail, Matcher.sub_nil, List.take_nil, List.take_succ_cons] at htake
        cases htake
      | cons e tail =>
        rw [htail, StartsWithSpace, stops_cons] at hspace
        have he : isValueChar e = false := by
          by_contra hvalue
          rw [valueChar_notSpace (Bool.of_not_eq_false hvalue)] at hspace
          cases hspace
        rw [htail, assignment_sub_delimiter tail he, List.take_succ_cons, List.take_succ_cons,
          List.cons.injEq] at htake
        rw [htake.1, hword] at hspace
        cases hspace
  · rintro rfl
    rfl

/-- Cut texts that begin alike are equal exactly when what the cut leaves of the rest is. -/
theorem take_append_congr {α : Type} (before x y : List α) (n : Nat) :
    (before ++ x).take n = (before ++ y).take n ↔
      x.take (n - before.length) = y.take (n - before.length) := by
  rw [List.take_append, List.take_append, List.append_cancel_left_eq]

section
variable {a kw sep : PyStr} (hkw : SensitiveWord kw) (hsep : IsSeparator sep)
include hkw hsep

/-- The same text comes first for every secret, and `Hides` tells when the rest is the same. -/
theorem passes_take_iff : ∃ before : PyStr,
    (∀ w b, AssignedSecret w → StartsWithDelimiter b →
      before <+: passes (a ++ kw ++ (sep ++ (w ++ b)))) ∧
    ∀ n u v b, AssignedSecret u → AssignedSecret v → StartsWithDelimiter b →
      ((passes (a ++ kw ++ (sep ++ (u ++ b)))).take n =
          (passes (a ++ kw ++ (sep ++ (v ++ b)))).take n ↔
        Hides a kw sep u v b (n - before.length)) := by
  by_cases htakes : TakesSecret a kw sep
  · by_cases hurl : UrlReaches a kw
    · obtain ⟨before, hpasses⟩ := passes_reached hkw hsep htakes hurl
      refine ⟨before, fun w b hw hb => ?_, fun n u v b hu hv hb => ?_⟩
      · by_cases hcompletes : Completes sep w b
        · rw [(hpasses w b hw hb).1 hcompletes]
          exact List.prefix_append _ _
        · rw [(hpasses w b hw hb).2 hcompletes]
          exact List.prefix_append _ _
      · have hiff : Hides a kw sep u v b (n - before.length) ↔
            n - before.length = 0 ∨ SameRest sep u v b :=
          ⟨fun h => (h.1 htakes).imp_right fun hsame => hsame hurl,
            fun h => ⟨fun _ => h.imp_right fun hsame _ => hsame, fun hnot => absurd htakes hnot⟩⟩
        rw [hiff]
        -- what is left behind the value, for each of the two secrets
        by_cases hplain : FirstWordPlain (url.sub b)
        · have hsame : ∀ w, AssignedSecret w → passes (a ++ kw ++ (sep ++ (w ++ b))) =
              before ++ assignment.sub (urlTail b) := by
            intro w hw
            by_cases hcompletes : Completes sep w b
            · exact (hpasses w b hw hb).1 hcompletes
            · rw [(hpasses w b hw hb).2 hcompletes, valueTail_eq hplain]
          rw [hsame u hu, hsame v hv]
          exact iff_of_true rfl (.inr (.inr hplain))
        · have hrest : SameRest sep u v b ↔ (Completes sep u b ↔ Completes sep v b) :=
            or_iff_left hplain
          rw [hrest]
          by_cases hcu : Completes sep u b <;> by_cases hcv : Completes sep v b
          · rw [(hpasses u b hu hb).1 hcu, (hpasses v b hv hb).1 hcv]
            exact iff_of_true rfl (.inr (iff_of_true hcu hcv))
          · rw [(hpasses u b hu hb).1 hcu, (hpasses v b hv hb).2 hcv, take_append_congr,
              take_tails _ hplain]
            exact ⟨.inl, fun h => h.resolve_right fun hsame => hcv (hsame.mp hcu)⟩
          · rw [(hpasses u b hu hb).2 hcu, (hpasses v b hv hb).1 hcv, take_append_congr, eq_comm,
              take_tails _ hplain]
            exact ⟨.inl, fun h => h.resolve_right fun hsame => hcu (hsame.mpr hcv)⟩
          · rw [(hpasses u b hu hb).2 hcu, (hpasses v b hv hb).2 hcv]
            exact iff_of_true rfl (.inr (iff_of_false hcu hcv))
    · have hspace : ∀ c ∈ sep, PyStr.isSpace c = false :=
        htakes.resolve_right fun ⟨out, _, hlands, _⟩ => hurl ⟨out, hlands⟩
      refine ⟨[], fun w b _ _ => List.nil_prefix, fun n u v b hu hv _ => ?_⟩
      rw [passes_swallowed hkw hsep hspace hurl hu hv]
      exact iff_of_true rfl
        ⟨fun _ => .inr fun h => absurd h hurl, fun hnot => absurd htakes hnot⟩
  · obtain ⟨before, hpasses⟩ := passes_left hkw hsep htakes
    refine ⟨before, fun w b _ _ => ?_, fun n u v b _ _ _ => ?_⟩
    · rw [hpasses]
      exact List.prefix_append _ _
    · rw [hpasses, hpasses, take_append_congr]
      exact ⟨fun h => ⟨fun htakes' => absurd htakes' htakes, fun _ => h⟩, fun h => h.2 htakes⟩

end

section
variable {kw sep : PyStr} (hsep : IsSeparator sep)
include hsep

/-- A secret that makes a URL with what stands around it stands behind a bare colon or before a
mark. -/
theorem Completes.context {w b : PyStr} (h : Completes sep w b) :
    sep = [.scalar ':'] ∨ (urlRest b).isSome := by
  rcases h with hsome | ⟨-, hsome⟩
  · obtain ⟨rest, hrest⟩ := Option.isSome_iff_exists.mp hsome
    exact .inl (hsep.urlRest hrest).1
  · exact .inr hsome

/-- A digit makes no URL. -/
theorem not_completes_digit {c : CodePoint} (hc : isLetter c = false ∧ c ≠ .scalar '/')
    (b : PyStr) : ¬Completes sep [c] b := by
  rintro (hsome | ⟨⟨before, d, scheme, heq, hd, -⟩, -⟩)
  · obtain ⟨rest, hrest⟩ := Option.isSome_iff_exists.mp hsome
    obtain ⟨-, d, body, heq, -, -⟩ := hsep.urlRest hrest
    exact hc.2 (List.cons.inj heq).1
  · have hmem : d ∈ [c] := heq ▸ List.mem_append_right _ List.mem_cons_self
    rw [List.mem_singleton.mp hmem, hc.1] at hd
    cases hd

/-- All secrets are treated alike exactly when nothing of the text behind the common beginning fits,
or the passes hide every secret. -/
theorem hides_all_iff {a b : PyStr} (room : Nat) :
    (∀ u v, AssignedSecret u → AssignedSecret v → Hides a kw sep u v b room) ↔
      room = 0 ∨ HidesAll a kw sep b := by
  have hone : AssignedSecret (PyStr.ofString "1") := assignedSecret_of_text (by decide +kernel)
  constructor
  · intro h
    cases room with
    | zero => exact .inl rfl
    | succ room =>
      right
      have htakes : TakesSecret a kw sep := by
        -- two digits stay as they are
        by_contra hnot
        have htake := (h _ (PyStr.ofString "2") hone (assignedSecret_of_text (by decide +kernel))).2
          hnot
        have hkept : ∀ c s, isLetter c = false → passes (c :: s) = c :: passes s := by
          intro c s hc
          have hurl : url.run (c :: s) = none := by
            show urlRun (c :: s) = none
            rw [urlRun, hc]
            rfl
          rw [passes, Matcher.sub_of_none hurl, Matcher.sub_of_none (assignmentRun_noLetter hc),
            passes]
        have hdigits : (passes (.scalar '1' :: b)).take (room + 1) =
            (passes (.scalar '2' :: b)).take (room + 1) := htake
        rw [hkept _ _ (by decide), hkept _ _ (by decide), List.take_succ_cons,
          List.take_succ_cons] at hdigits
        exact absurd (List.cons.inj hdigits).1 (by decide)
      refine ⟨htakes, fun hurl hcontext => ?_⟩
      -- a secret that makes a URL here, against a digit
      obtain ⟨w, hw, hcompletes⟩ : ∃ w, AssignedSecret w ∧ Completes sep w b := by
        rcases hcontext with rfl | hsome
        · refine ⟨PyStr.ofString "//a", assignedSecret_of_text (by decide +kernel), .inl ?_⟩
          have hrest : urlRest ([.scalar ':'] ++ (PyStr.ofString "//a" ++ b)) =
              some (b.dropWhile notSpace) :=
            urlRest_eq_some.mpr ⟨.scalar 'a', b, rfl, by decide, rfl⟩
          rw [hrest]
          rfl
        · exact ⟨PyStr.ofString "a", assignedSecret_of_text (by decide +kernel),
            .inr ⟨⟨[], .scalar 'a', [], rfl, by decide, fun d hd => absurd hd List.not_mem_nil⟩,
              hsome⟩⟩
      have hsame := ((h w _ hw hone).1 htakes).resolve_left (Nat.succ_ne_zero room)
      refine (hsame hurl).resolve_left fun hiff => ?_
      exact not_completes_digit hsep (by decide) b (hiff.mp hcompletes)
  · rintro (rfl | ⟨htakes, hplain⟩) u v - -
    · exact ⟨fun _ => .inl rfl, fun _ => rfl⟩
    · refine ⟨fun _ => .inr fun hurl => ?_, fun hnot => absurd htakes hnot⟩
      by_cases hcontext : sep = [.scalar ':'] ∨ (urlRest b).isSome
      · exact .inr (hplain hurl hcontext)
      · have hnone : ∀ w, ¬Completes sep w b := fun w h => hcontext (h.context hsep)
        exact .inl (iff_of_false (hnone u) (hnone v))

end

/-! ### Line ends -/

/-- What `oneLine` makes of a character. -/
def flat (c : CodePoint) : CodePoint :=
  if c = .scalar '\r' ∨ c = .scalar '\n' then .scalar ' ' else c

/-- The text on one line, character by character. -/
theorem oneLine_eq (s : PyStr) : oneLine s = s.map flat := rfl

/-- A line end becomes a space, and stays white space. -/
theorem isSpace_flat (c : CodePoint) : PyStr.isSpace (flat c) = PyStr.isSpace c := by
  unfold flat
  split
  next h => rcases h with rfl | rfl <;> decide
  next => rfl

/-- It ends a value before and after. -/
theorem isValueChar_flat (c : CodePoint) : isValueChar (flat c) = isValueChar c := by
  unfold flat
  split
  next h => rcases h with rfl | rfl <;> decide
  next => rfl

/-- The characters of a word are the same on one line. -/
theorem flat_eq_self {c : CodePoint} (h : notSpace (flat c) = true) : flat c = c := by
  unfold flat at h ⊢
  split
  next hline =>
    rw [if_pos hline] at h
    cases h
  next => rfl

/-- It ends a URL before and after. -/
theorem notSpace_flat (c : CodePoint) : notSpace (flat c) = notSpace c := by
  rw [notSpace, notSpace, isSpace_flat]

/-- A text without white space is all of its single line. -/
theorem eq_of_oneLine {s t : PyStr} (h : oneLine s = t) (ht : ∀ c ∈ t, notSpace c = true) :
    s = t := by
  induction s generalizing t with
  | nil => exact h
  | cons c s ih =>
    subst h
    rw [oneLine_eq, List.map_cons, List.forall_mem_cons] at ht
    show c :: s = flat c :: oneLine s
    rw [flat_eq_self ht.1, ← ih rfl ht.2]

/-- A word has no line end. -/
theorem oneLine_word {s : PyStr} (h : ∀ c ∈ s, notSpace c = true) : oneLine s = s := by
  have hflat : ∀ c ∈ oneLine s, notSpace c = true := by
    intro c hc
    rw [oneLine_eq, List.mem_map] at hc
    obtain ⟨d, hd, rfl⟩ := hc
    rw [notSpace_flat, h d hd]
  exact (eq_of_oneLine rfl hflat).symm

/-- A scan that does not tell white space apart stops at the same place on one line. -/
theorem stops_oneLine {p : CodePoint → Bool} (hp : ∀ c, p (flat c) = p c) {t : PyStr}
    (h : Stops p t) : Stops p (oneLine t) := by
  cases t with
  | nil => exact h
  | cons c t => exact stops_cons.mpr ((hp c).trans (stops_cons.mp h))

/-- A text that begins with a delimiter does so on one line. -/
theorem startsWithDelimiter_oneLine {b : PyStr} (h : StartsWithDelimiter b) :
    StartsWithDelimiter (oneLine b) := by
  cases h with
  | inl hstops => exact .inl (stops_oneLine isValueChar_flat hstops)
  | inr hmark =>
    obtain ⟨rest, rfl⟩ := hmark
    rw [oneLine_eq, List.map_append]
    exact .inr (List.prefix_append mark (rest.map flat))

/-- A separator is one on one line. -/
theorem isSeparator_oneLine {sep : PyStr} (h : IsSeparator sep) : IsSeparator (oneLine sep) := by
  obtain ⟨before, e, after, rfl, hbefore, he, hafter⟩ := h
  have hspaces : ∀ s : PyStr, (∀ c ∈ s, PyStr.isSpace c = true) →
      ∀ c ∈ oneLine s, PyStr.isSpace c = true := by
    intro s hs c hc
    rw [oneLine_eq, List.mem_map] at hc
    obtain ⟨d, hd, rfl⟩ := hc
    rw [isSpace_flat, hs d hd]
  have hflat : flat e = e := flat_eq_self (by rcases he with rfl | rfl <;> decide)
  refine ⟨oneLine before, e, oneLine after, ?_, hspaces before hbefore, he, hspaces after hafter⟩
  rw [oneLine_eq, List.map_append, List.map_cons, hflat]
  rfl

/-! ### The summary -/

/-- `[a-z][a-z0-9+.-]*`. -/
def IsScheme (scheme : PyStr) : Prop :=
  ∃ c rest, scheme = c :: rest ∧ isLetter c = true ∧ ∀ d ∈ rest, isSchemeChar d = true

/-- A scheme has no mark in it. -/
theorem IsScheme.schemeWord {scheme : PyStr} (h : IsScheme scheme) : SchemeWord scheme := by
  obtain ⟨c, rest, rfl, hc, hrest⟩ := h
  have hall : ∀ d ∈ c :: rest, isSchemeChar d = true :=
    List.forall_mem_cons.mpr ⟨letter_schemeChar hc, hrest⟩
  exact ⟨fun d hd => schemeChar_notSpace (hall d hd),
    noMark_of_noColon fun hd => absurd (hall _ hd) (by decide), [], c, rest, rfl, hc, hrest⟩

/-- A secret that may stand behind a scheme. -/
structure UrlSecret (u : PyStr) : Prop where
  ne_nil : u ≠ []
  notSpace : ∀ c ∈ u, notSpace c = true

/-- The URL part: a secret behind a scheme makes no difference. -/
theorem sanitizeError_url {a scheme u v b : PyStr} (maximumLength : Nat) (hscheme : IsScheme scheme)
    (hu : UrlSecret u) (hv : UrlSecret v) (hb : StartsWithSpace b) :
    sanitizeError maximumLength (a ++ scheme ++ mark ++ u ++ b) =
      sanitizeError maximumLength (a ++ scheme ++ mark ++ v ++ b) := by
  have hline : ∀ w, UrlSecret w → oneLine (a ++ scheme ++ mark ++ w ++ b) =
      oneLine a ++ scheme ++ (mark ++ (w ++ oneLine b)) := by
    intro w hw
    have hschemeLine : scheme.map flat = scheme := oneLine_word hscheme.schemeWord.notSpace
    have hmarkLine : mark.map flat = mark := oneLine_word mark_notSpace
    have hwLine : w.map flat = w := oneLine_word hw.notSpace
    simp only [oneLine_eq, List.map_append, hschemeLine, hmarkLine, hwLine, List.append_assoc]
  rw [sanitizeError, sanitizeError, redact, redact, hline u hu, hline v hv,
    url_sub_secret hscheme.schemeWord hu.ne_nil hv.ne_nil hu.notSpace hv.notSpace
      (stops_oneLine notSpace_flat hb)]

/-- Line ends inside the text around an assigned secret are spaces for both passes. -/
theorem redact_assignment {a kw sep w b : PyStr} (hkw : SensitiveWord kw) (hw : AssignedSecret w) :
    redact (a ++ kw ++ sep ++ w ++ b) =
      passes (oneLine a ++ kw ++ (oneLine sep ++ (w ++ oneLine b))) := by
  have hkwLine : kw.map flat = kw := oneLine_word hkw.schemeWord.notSpace
  have hwLine : w.map flat = w :=
    oneLine_word fun c hc => valueChar_notSpace (hw.valueChars c hc)
  rw [redact, passes]
  simp only [oneLine_eq, List.map_append, hkwLine, hwLine, List.append_assoc]

/-- The assignment part: behind a text that is the same for all of them, two secrets make no
difference exactly when the passes hide them, and all secrets do not exactly when the passes hide
every one. -/
theorem sanitizeError_assignment {a kw sep : PyStr} (hkw : SensitiveWord kw)
    (hsep : IsSeparator sep) : ∃ before : PyStr,
    (∀ w b, AssignedSecret w → StartsWithDelimiter b →
      before <+: redact (a ++ kw ++ sep ++ w ++ b)) ∧
    (∀ maximumLength u v b, AssignedSecret u → AssignedSecret v → StartsWithDelimiter b →
      (sanitizeError maximumLength (a ++ kw ++ sep ++ u ++ b) =
          sanitizeError maximumLength (a ++ kw ++ sep ++ v ++ b) ↔
        Hides (oneLine a) kw (oneLine sep) u v (oneLine b) (maximumLength - before.length))) ∧
    ∀ maximumLength b, StartsWithDelimiter b →
      ((∀ u v, AssignedSecret u → AssignedSecret v →
          sanitizeError maximumLength (a ++ kw ++ sep ++ u ++ b) =
            sanitizeError maximumLength (a ++ kw ++ sep ++ v ++ b)) ↔
        maximumLength ≤ before.length ∨ HidesAll (oneLine a) kw (oneLine sep) (oneLine b)) := by
  have hsepLine := isSeparator_oneLine hsep
  obtain ⟨before, hbefore, htake⟩ := passes_take_iff (a := oneLine a) hkw hsepLine
  -- cutting the summary is cutting what follows the common part
  have hpair : ∀ maximumLength u v b, AssignedSecret u → AssignedSecret v →
      StartsWithDelimiter b →
      (sanitizeError maximumLength (a ++ kw ++ sep ++ u ++ b) =
          sanitizeError maximumLength (a ++ kw ++ sep ++ v ++ b) ↔
        Hides (oneLine a) kw (oneLine sep) u v (oneLine b) (maximumLength - before.length)) := by
    intro maximumLength u v b hu hv hb
    rw [sanitizeError, sanitizeError, redact_assignment hkw hu, redact_assignment hkw hv]
    exact htake maximumLength u v (oneLine b) hu hv (startsWithDelimiter_oneLine hb)
  refine ⟨before, fun w b hw hb => ?_, hpair, fun maximumLength b hb => ?_⟩
  · rw [redact_assignment hkw hw]
    exact hbefore w (oneLine b) hw (startsWithDelimiter_oneLine hb)
  · rw [← Nat.sub_eq_zero_iff_le, ← hides_all_iff hsepLine]
    constructor
    · exact fun h u v hu hv => (hpair maximumLength u v b hu hv hb).mp (h u v hu hv)
    · exact fun h u v hu hv => (hpair maximumLength u v b hu hv hb).mpr (h u v hu hv)

/-- An error summary does not depend on a secret behind a scheme. Behind a sensitive word, a part
of the summary is the same for every secret, and `Hides` tells exactly when the rest is the same for
two of them, `HidesAll` when it is for all. -/
theorem error_summaries_hide_secrets (a : PyStr) :
    (∀ maximumLength scheme u v b, IsScheme scheme → UrlSecret u → UrlSecret v →
      StartsWithSpace b →
      sanitizeError maximumLength (a ++ scheme ++ mark ++ u ++ b) =
        sanitizeError maximumLength (a ++ scheme ++ mark ++ v ++ b)) ∧
    ∀ kw sep, SensitiveWord kw → IsSeparator sep → ∃ before : PyStr,
      (∀ w b, AssignedSecret w → StartsWithDelimiter b →
        before <+: redact (a ++ kw ++ sep ++ w ++ b)) ∧
      (∀ maximumLength u v b, AssignedSecret u → AssignedSecret v → StartsWithDelimiter b →
        (sanitizeError maximumLength (a ++ kw ++ sep ++ u ++ b) =
            sanitizeError maximumLength (a ++ kw ++ sep ++ v ++ b) ↔
          Hides (oneLine a) kw (oneLine sep) u v (oneLine b) (maximumLength - before.length))) ∧
      ∀ maximumLength b, StartsWithDelimiter b →
        ((∀ u v, AssignedSecret u → AssignedSecret v →
            sanitizeError maximumLength (a ++ kw ++ sep ++ u ++ b) =
              sanitizeError maximumLength (a ++ kw ++ sep ++ v ++ b)) ↔
          maximumLength ≤ before.length ∨ HidesAll (oneLine a) kw (oneLine sep) (oneLine b)) :=
  ⟨fun maximumLength _ _ _ _ hscheme hu hv hb => sanitizeError_url maximumLength hscheme hu hv hb,
    fun _ _ hkw hsep => sanitizeError_assignment hkw hsep⟩

/-- Three messages whose summaries do not tell the secret: a URL, an assignment, and an assignment
whose secret completes a URL in both messages. -/
theorem error_summaries_hide_secrets_token :
    sanitizeError defaultLength (PyStr.ofString "rtsp://admin:abc") =
      sanitizeError defaultLength (PyStr.ofString "rtsp://admin:xyz") ∧
    sanitizeError defaultLength (PyStr.ofString "Token=abc&next") =
      sanitizeError defaultLength (PyStr.ofString "Token=xyz&next") ∧
    sanitizeError defaultLength (PyStr.ofString "token=1://x&y") =
      sanitizeError defaultLength (PyStr.ofString "token=2://x&y") := by
  have hsecret : ∀ text ∈ ["admin:abc", "admin:xyz"], UrlSecret (PyStr.ofString text) := by
    intro text htext
    simp only [List.mem_cons, List.not_mem_nil, or_false] at htext
    rcases htext with rfl | rfl
    · exact ⟨by decide +kernel, by decide +kernel⟩
    · exact ⟨by decide +kernel, by decide +kernel⟩
  have hsep : IsSeparator (PyStr.ofString "=") :=
    ⟨[], .scalar '=', [], rfl, by decide, .inl rfl, by decide⟩
  have hspace : ∀ c ∈ oneLine (PyStr.ofString "="), PyStr.isSpace c = false := by decide +kernel
  refine ⟨?_, ?_, ?_⟩
  · exact (error_summaries_hide_secrets []).1 defaultLength (PyStr.ofString "rtsp")
      (PyStr.ofString "admin:abc") (PyStr.ofString "admin:xyz") []
      ⟨.scalar 'r', PyStr.ofString "tsp", rfl, by decide +kernel, by decide +kernel⟩
      (hsecret _ (by simp)) (hsecret _ (by simp)) Stops.nil
  · obtain ⟨before, -, hpair, -⟩ := (error_summaries_hide_secrets []).2
      (PyStr.ofString "Token") (PyStr.ofString "=") (by unfold SensitiveWord; decide +kernel) hsep
    refine (hpair defaultLength (PyStr.ofString "abc") (PyStr.ofString "xyz")
      (PyStr.ofString "&next") (assignedSecret_of_text (by decide +kernel))
      (assignedSecret_of_text (by decide +kernel)) (.inl (stops_cons.mpr (by decide)))).mpr ?_
    refine ⟨fun _ => .inr fun _ => .inl (iff_of_false ?_ ?_), fun hnot => absurd (.inl hspace) hnot⟩
    · rintro (hrest | ⟨-, hrest⟩) <;> exact absurd hrest (by decide +kernel)
    · rintro (hrest | ⟨-, hrest⟩) <;> exact absurd hrest (by decide +kernel)
  · -- a digit makes no URL with the mark behind it
    obtain ⟨before, -, hpair, -⟩ := (error_summaries_hide_secrets []).2
      (PyStr.ofString "token") (PyStr.ofString "=") (by unfold SensitiveWord; decide +kernel) hsep
    refine (hpair defaultLength (PyStr.ofString "1") (PyStr.ofString "2")
      (PyStr.ofString "://x&y") (assignedSecret_of_text (by decide +kernel))
      (assignedSecret_of_text (by decide +kernel)) (.inr (by decide +kernel))).mpr ?_
    refine ⟨fun _ => .inr fun _ => .inl (iff_of_false ?_ ?_), fun hnot => absurd (.inl hspace) hnot⟩
    · exact not_completes_digit (isSeparator_oneLine hsep) (by decide) _
    · exact not_completes_digit (isSeparator_oneLine hsep) (by decide) _

/-- The first sensitive word takes the second one for its value, and the secret stays. -/
theorem error_summaries_leak :
    ¬∀ a kw sep u v b, SensitiveWord kw → IsSeparator sep → AssignedSecret u → AssignedSecret v →
      StartsWithDelimiter b →
      sanitizeError defaultLength (a ++ kw ++ sep ++ u ++ b) =
        sanitizeError defaultLength (a ++ kw ++ sep ++ v ++ b) := by
  intro h
  have hequal := h (PyStr.ofString "auth: ") (PyStr.ofString "token") (PyStr.ofString ": ")
    (PyStr.ofString "abc") (PyStr.ofString "xyz") [] (by unfold SensitiveWord; decide +kernel)
    ⟨[], .scalar ':', [.scalar ' '], rfl, by decide, .inr rfl, by decide⟩
    (assignedSecret_of_text (by decide +kernel)) (assignedSecret_of_text (by decide +kernel))
    (.inl Stops.nil)
  revert hequal
  decide +kernel

end Rsap.Proofs
