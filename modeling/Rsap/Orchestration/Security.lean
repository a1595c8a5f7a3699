import Rsap.Library.Substitution
import Rsap.PyStr

/-!
# `Rsap.Orchestration.Security`: `sanitize_error`

The two regular expressions are functions that match at one position, and `re.sub` is
`Matcher.sub`. A repetition is greedy, and what follows it in the pattern cannot start with one of
its characters, so there is nothing to backtrack to.

`re.I` also lets four letters outside ASCII stand for `i`, `s` and `k` (`foldCase`).
-/

set_option autoImplicit false

namespace Rsap.Orchestration

open Rsap.Library

/-- The character that `re.I` compares, as far as it can be an ASCII letter. -/
def foldCase : CodePoint → CodePoint
  | .scalar c =>
    if 'A' ≤ c ∧ c ≤ 'Z' then .scalar (Char.ofNat (c.toNat + 32))
    else match c.toNat with
      | 0x130 => .scalar 'i'
      | 0x131 => .scalar 'i'
      | 0x17F => .scalar 's'
      | 0x212A => .scalar 'k'
      | _ => .scalar c
  | .surrogate n => .surrogate n

/-- `[a-z]`. -/
def isLetter (c : CodePoint) : Bool :=
  match foldCase c with
  | .scalar c => 'a' ≤ c && c ≤ 'z'
  | .surrogate _ => false

/-- `[a-z0-9+.-]`. -/
def isSchemeChar (c : CodePoint) : Bool :=
  isLetter c || match c with
    | .scalar c => ('0' ≤ c && c ≤ '9') || c == '+' || c == '.' || c == '-'
    | .surrogate _ => false

/-- `[^\s]`. -/
def notSpace (c : CodePoint) : Bool := !PyStr.isSpace c

/-- `[^&\s,;]`. -/
def isValueChar (c : CodePoint) : Bool :=
  !(PyStr.isSpace c || c == .scalar '&' || c == .scalar ',' || c == .scalar ';')

def redacted : PyStr := PyStr.ofString "<redacted>"

/-- What follows `://`. -/
def afterMark : PyStr → Option PyStr
  | .scalar ':' :: .scalar '/' :: .scalar '/' :: rest => some rest
  | _ => none

/-- The part of `_URL` behind the scheme: the text behind the match. -/
def urlRest (s : PyStr) : Option PyStr :=
  match afterMark s with
  | some (c :: rest) => if notSpace c then some (rest.dropWhile notSpace) else none
  | _ => none

/-- `_URL`, with its replacement. -/
def urlRun : PyStr → Option (PyStr × PyStr)
  | [] => none
  | c :: s =>
    if isLetter c then
      (urlRest (s.dropWhile isSchemeChar)).map fun rest =>
        (c :: s.takeWhile isSchemeChar ++ PyStr.ofString "://" ++ redacted, rest)
    else none

/-- `api[_-]?key|token|password|passwd|secret|auth|credential|aadhaar`. -/
def sensitiveWords : List PyStr :=
  ["api_key", "api-key", "apikey", "token", "password", "passwd", "secret", "auth", "credential",
    "aadhaar"].map PyStr.ofString

/-- The text behind a word. -/
def dropWord (word s : PyStr) : Option PyStr :=
  if (s.take word.length).map foldCase = word then some (s.drop word.length) else none

/-- `[^&\s,;]+`: the text behind it. -/
def valueRest : PyStr → Option PyStr
  | [] => none
  | c :: s => if isValueChar c then some (s.dropWhile isValueChar) else none

/-- `\s*[=:]\s*[^&\s,;]+`: the text behind it. -/
def assignedRest (s : PyStr) : Option PyStr :=
  match s.dropWhile PyStr.isSpace with
  | [] => none
  | c :: rest =>
    if c = .scalar '=' ∨ c = .scalar ':' then valueRest (rest.dropWhile PyStr.isSpace) else none

/-- `_SENSITIVE_ASSIGNMENT`, with its replacement. -/
def assignmentRun (s : PyStr) : Option (PyStr × PyStr) :=
  (sensitiveWords.findSome? fun word => dropWord word s >>= assignedRest).map fun rest =>
    (redacted, rest)

/-! ### The passes -/

/-- A scan leaves no more than it was given. -/
theorem length_dropWhile_le {α : Type} (p : α → Bool) (s : List α) :
    (s.dropWhile p).length ≤ s.length :=
  (List.dropWhile_suffix p).length_le

/-- The `://` is consumed exactly when the text starts with it. -/
theorem afterMark_eq_some {s rest : PyStr} :
    afterMark s = some rest ↔ s = PyStr.ofString "://" ++ rest := by
  constructor
  · intro h
    unfold afterMark at h
    split at h
    next body =>
      cases h
      rfl
    next => cases h
  · rintro rfl
    rfl

/-- `://\S+` matches exactly a mark and at least one character that is not white space, and takes
the longest run of these. -/
theorem urlRest_eq_some {s rest : PyStr} : urlRest s = some rest ↔ ∃ c body,
    s = PyStr.ofString "://" ++ c :: body ∧ notSpace c = true ∧ rest = body.dropWhile notSpace := by
  unfold urlRest
  constructor
  · intro h
    split at h
    next c body hmark =>
      split at h
      next hc =>
        cases h
        exact ⟨c, body, afterMark_eq_some.mp hmark, hc, rfl⟩
      next => cases h
    next => cases h
  · rintro ⟨c, body, rfl, hc, rfl⟩
    rw [afterMark_eq_some.mpr rfl]
    simp only [hc, if_true]

/-- A match of `_URL` consumes at least one character, so the scan over the text ends. -/
theorem urlRun_shrinks (s out rest : PyStr) (h : urlRun s = some (out, rest)) :
    rest.length < s.length := by
  cases s with
  | nil => cases h
  | cons c s =>
    simp only [urlRun] at h
    split at h
    next =>
      obtain ⟨found, hfound, heq⟩ := Option.map_eq_some_iff.mp h
      cases heq
      obtain ⟨d, body, hbody, -, rfl⟩ := urlRest_eq_some.mp hfound
      have hle := length_dropWhile_le isSchemeChar s
      have hle' := length_dropWhile_le notSpace body
      rw [hbody, List.length_append, List.length_cons] at hle
      simp only [List.length_cons]
      omega
    next => cases h

/-- `[^&\s,;]+` matches exactly where a value character stands, and takes the longest run of
these. -/
theorem valueRest_eq_some {s rest : PyStr} : valueRest s = some rest ↔ ∃ c body,
    s = c :: body ∧ isValueChar c = true ∧ rest = body.dropWhile isValueChar := by
  cases s with
  | nil => simp [valueRest]
  | cons c s =>
    rw [valueRest]
    constructor
    · intro h
      split at h
      next hc =>
        cases h
        exact ⟨c, s, rfl, hc, rfl⟩
      next => cases h
    · rintro ⟨d, body, heq, hd, rfl⟩
      cases heq
      rw [if_pos hd]

/-- The separator and value of an assignment consume at least one character. -/
theorem assignedRest_shrinks {s rest : PyStr} (h : assignedRest s = some rest) :
    rest.length < s.length := by
  unfold assignedRest at h
  split at h
  next => cases h
  next c tail htail =>
    split at h
    next =>
      obtain ⟨d, body, hbody, -, rfl⟩ := valueRest_eq_some.mp h
      have h₁ := length_dropWhile_le PyStr.isSpace s
      have h₂ := length_dropWhile_le PyStr.isSpace tail
      have h₃ := length_dropWhile_le isValueChar body
      rw [htail, List.length_cons] at h₁
      rw [hbody, List.length_cons] at h₂
      omega
    next => cases h

/-- A match of `_SENSITIVE_ASSIGNMENT` consumes at least one character, so the scan over the text
ends. -/
theorem assignmentRun_shrinks (s out rest : PyStr) (h : assignmentRun s = some (out, rest)) :
    rest.length < s.length := by
  obtain ⟨found, hfound, heq⟩ := Option.map_eq_some_iff.mp h
  cases heq
  obtain ⟨word, -, hword⟩ := List.exists_of_findSome?_eq_some hfound
  obtain ⟨tail, htail, hrest⟩ := Option.bind_eq_some_iff.mp hword
  have hshrinks := assignedRest_shrinks hrest
  unfold dropWord at htail
  split at htail
  next =>
    cases htail
    rw [List.length_drop] at hshrinks
    omega
  next => cases htail

/-- `_URL`. -/
def url : Matcher CodePoint := ⟨urlRun, urlRun_shrinks⟩

/-- `_SENSITIVE_ASSIGNMENT`. -/
def assignment : Matcher CodePoint := ⟨assignmentRun, assignmentRun_shrinks⟩

/-- `replace("\r", " ").replace("\n", " ")`. -/
def oneLine (message : PyStr) : PyStr :=
  message.map fun c => if c = .scalar '\r' ∨ c = .scalar '\n' then .scalar ' ' else c

/-- The message before it is cut. -/
def redact (message : PyStr) : PyStr := assignment.sub (url.sub (oneLine message))

/-- `sanitize_error`, of the text of the error. -/
def sanitizeError (maximumLength : Nat) (message : PyStr) : PyStr :=
  (redact message).take maximumLength

/-- The default of `maximum_length`. -/
def defaultLength : Nat := 500

end Rsap.Orchestration
