import Mathlib.Data.List.Nodup
import Rsap.Orchestration.Payload

/-!
# `Rsap.Proofs.Payloads`: what a `FrozenPayload` holds and what it exports

`Denotes` reads a value off the heap. `from_mapping` succeeds exactly on the mappings whose value
passes its checks, and the payload is that value (`fromMapping_ok_iff`). `to_dict` builds the value
from new cells in any later heap (`thawValue_spec`).

No check looks for a URL in a key. This is all that a payload needs to be free of URLs
(`routed_payloads`).
-/

set_option autoImplicit false

namespace Rsap.Proofs

open Rsap Rsap.Orchestration

/-! ### The value of an object -/

mutual
/-- The object reads as the value, with its sequences as tuples. -/
def Denotes (heap : Heap) : FrozenValue → Obj → Prop
  | .scalar s, obj => obj = .scalar s
  | .tuple items, obj => ∃ address kind objs, obj = .ref address ∧
      heap[address]? = some (.seq kind objs) ∧ DenotesItems heap items objs
  | .payload entries, obj => ∃ address dict, obj = .ref address ∧
      heap[address]? = some (.mapping dict) ∧ DenotesEntries heap entries dict.entries

def DenotesItems (heap : Heap) : List FrozenValue → List Obj → Prop
  | [], objs => objs = []
  | item :: items, objs => ∃ obj rest, objs = obj :: rest ∧ Denotes heap item obj ∧
      DenotesItems heap items rest

def DenotesEntries (heap : Heap) : List (PyStr × FrozenValue) → List (Key × Obj) → Prop
  | [], objs => objs = []
  | (key, value) :: entries, objs => ∃ obj rest, objs = (.str key, obj) :: rest ∧
      Denotes heap value obj ∧ DenotesEntries heap entries rest
end

mutual
/-- The keys at every depth. -/
def keysOf : FrozenValue → List PyStr
  | .scalar _ => []
  | .tuple items => keysOfItems items
  | .payload entries => keysOfEntries entries

def keysOfItems : List FrozenValue → List PyStr
  | [] => []
  | item :: items => keysOf item ++ keysOfItems items

def keysOfEntries : List (PyStr × FrozenValue) → List PyStr
  | [] => []
  | (key, value) :: entries => key :: (keysOf value ++ keysOfEntries entries)
end

mutual
/-- The scalars at every depth. -/
def scalarsOf : FrozenValue → List Scalar
  | .scalar s => [s]
  | .tuple items => scalarsOfItems items
  | .payload entries => scalarsOfEntries entries

def scalarsOfItems : List FrozenValue → List Scalar
  | [] => []
  | item :: items => scalarsOf item ++ scalarsOfItems items

def scalarsOfEntries : List (PyStr × FrozenValue) → List Scalar
  | [] => []
  | (_, value) :: entries => scalarsOf value ++ scalarsOfEntries entries
end

mutual
/-- How deep the containers nest. -/
def depthOf : FrozenValue → Nat
  | .scalar _ => 0
  | .tuple items => depthOfItems items + 1
  | .payload entries => depthOfEntries entries + 1

def depthOfItems : List FrozenValue → Nat
  | [] => 0
  | item :: items => max (depthOf item) (depthOfItems items)

def depthOfEntries : List (PyStr × FrozenValue) → Nat
  | [] => 0
  | (_, value) :: entries => max (depthOf value) (depthOfEntries entries)
end

mutual
/-- Every payload has distinct keys. -/
def DistinctKeys : FrozenValue → Prop
  | .scalar _ => True
  | .tuple items => DistinctItems items
  | .payload entries => (entries.map (·.1)).Nodup ∧ DistinctEntries entries

def DistinctItems : List FrozenValue → Prop
  | [] => True
  | item :: items => DistinctKeys item ∧ DistinctItems items

def DistinctEntries : List (PyStr × FrozenValue) → Prop
  | [] => True
  | (_, value) :: entries => DistinctKeys value ∧ DistinctEntries entries
end

/-! ### Freezing -/

/-- What `_freeze_value` accepts of a scalar. -/
def PlainScalar : Scalar → Prop
  | .str s => ¬ HasUrl s
  | .float bits => isFinite bits = true
  | _ => True

/-- What `from_mapping` accepts of a key. -/
def PlainKey (key : PyStr) : Prop := casefold key ∉ sensitiveEventKeys

/-- The checks of `from_mapping`, on the keys and the scalars of a value. -/
structure Plain (keys : List PyStr) (scalars : List Scalar) : Prop where
  keys : ∀ key ∈ keys, PlainKey key
  scalars : ∀ s ∈ scalars, PlainScalar s

/-- A value without keys and scalars passes every check. -/
theorem Plain.nil : Plain [] [] where
  keys _ h := absurd h List.not_mem_nil
  scalars _ h := absurd h List.not_mem_nil

/-- The checks of two parts of a value are the checks of both. -/
theorem plain_append {k₁ k₂ : List PyStr} {s₁ s₂ : List Scalar} :
    Plain (k₁ ++ k₂) (s₁ ++ s₂) ↔ Plain k₁ s₁ ∧ Plain k₂ s₂ := by
  constructor
  · rintro ⟨hkeys, hscalars⟩
    rw [List.forall_mem_append] at hkeys hscalars
    exact ⟨⟨hkeys.1, hscalars.1⟩, ⟨hkeys.2, hscalars.2⟩⟩
  · rintro ⟨h₁, h₂⟩
    exact ⟨List.forall_mem_append.mpr ⟨h₁.keys, h₂.keys⟩,
      List.forall_mem_append.mpr ⟨h₁.scalars, h₂.scalars⟩⟩

/-- A key is checked besides the rest. -/
theorem plain_cons {key : PyStr} {keys : List PyStr} {scalars : List Scalar} :
    Plain (key :: keys) scalars ↔ PlainKey key ∧ Plain keys scalars := by
  constructor
  · rintro ⟨hkeys, hscalars⟩
    rw [List.forall_mem_cons] at hkeys
    exact ⟨hkeys.1, ⟨hkeys.2, hscalars⟩⟩
  · rintro ⟨hkey, hkeys, hscalars⟩
    exact ⟨List.forall_mem_cons.mpr ⟨hkey, hkeys⟩, hscalars⟩

/-- A scalar is frozen to itself, exactly when it passes its check. -/
theorem freezeScalar_ok_iff {s t : Scalar} : freezeScalar s = .ok t ↔ s = t ∧ PlainScalar t := by
  cases s with
  -- only texts and floats are checked
  | str text =>
    by_cases hurl : HasUrl text
    · simp only [freezeScalar, if_pos hurl]
      constructor
      · intro h
        cases h
      · rintro ⟨rfl, hplain⟩
        exact absurd hurl hplain
    · simp only [freezeScalar, if_neg hurl, Except.ok.injEq]
      exact ⟨fun h => ⟨h, h ▸ hurl⟩, fun h => h.1⟩
  | float bits =>
    cases hfinite : isFinite bits with
    | true =>
      simp only [freezeScalar, hfinite, if_true, Except.ok.injEq]
      exact ⟨fun h => ⟨h, h ▸ hfinite⟩, fun h => h.1⟩
    | false =>
      simp only [freezeScalar, hfinite, Bool.false_eq_true, if_false]
      constructor
      · intro h
        cases h
      · rintro ⟨rfl, hplain⟩
        rw [PlainScalar, hfinite] at hplain
        cases hplain
  | none =>
    simp only [freezeScalar, Except.ok.injEq]
    exact ⟨fun h => ⟨h, h ▸ trivial⟩, fun h => h.1⟩
  | bool b =>
    simp only [freezeScalar, Except.ok.injEq]
    exact ⟨fun h => ⟨h, h ▸ trivial⟩, fun h => h.1⟩
  | int n =>
    simp only [freezeScalar, Except.ok.injEq]
    exact ⟨fun h => ⟨h, h ▸ trivial⟩, fun h => h.1⟩

/-- A key is accepted exactly when it is a text that passes the checks of keys. -/
theorem checkKey_ok_iff {key : Key} {s : PyStr} :
    checkKey key = .ok s ↔ key = .str s ∧ PlainKey s := by
  cases key with
  | other hash =>
    constructor
    · intro h
      cases h
    · rintro ⟨h, -⟩
      cases h
  | str t =>
    by_cases hsensitive : casefold t ∈ sensitiveEventKeys
    · simp only [checkKey, if_pos hsensitive]
      constructor
      · intro h
        cases h
      · rintro ⟨heq, hplain⟩
        cases heq
        exact absurd hsensitive hplain
    · simp only [checkKey, if_neg hsensitive, Except.ok.injEq, Key.str.injEq]
      exact ⟨fun h => ⟨h, h ▸ hsensitive⟩, fun h => h.1⟩

/-- One turn of the loop succeeds exactly when the key is accepted and the value freezes. -/
theorem freezeEntry_ok_iff {freeze : Obj → Except PayloadError FrozenValue} {entry : Key × Obj}
    {key : PyStr} {value : FrozenValue} : freezeEntry freeze entry = .ok (key, value) ↔
      entry.1 = .str key ∧ PlainKey key ∧ freeze entry.2 = .ok value := by
  rw [← and_assoc, ← checkKey_ok_iff]
  show (checkKey entry.1 >>= fun key => freeze entry.2 >>= fun value => pure (key, value)) = _ ↔ _
  cases checkKey entry.1 with
  | error error =>
    constructor
    · intro h
      cases h
    · rintro ⟨h, -⟩
      cases h
  | ok found =>
    cases freeze entry.2 with
    | error error =>
      constructor
      · intro h
        cases h
      · rintro ⟨-, h⟩
        cases h
    | ok result =>
      show Except.ok (found, result) = _ ↔ _
      simp only [Except.ok.injEq, Prod.mk.injEq]

/-- A loop yields `y :: ys` exactly when its first turn yields `y` and the others yield `ys`. -/
theorem mapM_cons_ok_iff {α β ε : Type} {f : α → Except ε β} {xs : List α} {y : β} {ys : List β} :
    xs.mapM f = .ok (y :: ys) ↔ ∃ x rest, xs = x :: rest ∧ f x = .ok y ∧ rest.mapM f = .ok ys := by
  cases xs with
  | nil =>
    constructor
    · intro h
      cases h
    · rintro ⟨x, rest, h, -⟩
      cases h
  -- the loop stops at the first error
  | cons x rest =>
    rw [List.mapM_cons]
    constructor
    · intro h
      cases hx : f x with
      | error error =>
        rw [hx] at h
        cases h
      | ok first =>
        cases hrest : rest.mapM f with
        | error error =>
          rw [hx, hrest] at h
          cases h
        | ok others =>
          rw [hx, hrest] at h
          cases h
          exact ⟨x, rest, rfl, hx, hrest⟩
    · rintro ⟨x', rest', heq, hx, hrest⟩
      cases heq
      rw [hx, hrest]
      rfl

/-- A loop yields nothing exactly when there is nothing to go through. -/
theorem mapM_nil_ok_iff {α β ε : Type} {f : α → Except ε β} {xs : List α} :
    xs.mapM f = .ok [] ↔ xs = [] := by
  cases xs with
  | nil => exact ⟨fun _ => rfl, fun _ => rfl⟩
  | cons x rest =>
    rw [List.mapM_cons]
    constructor
    · intro h
      cases hx : f x with
      | error error =>
        rw [hx] at h
        cases h
      | ok first =>
        cases hrest : rest.mapM f with
        | error error =>
          rw [hx, hrest] at h
          cases h
        | ok others =>
          rw [hx, hrest] at h
          cases h
    · intro h
      cases h

/-- A map over a result is `ok` on the results that are. -/
theorem map_ok_iff {α β ε : Type} {g : α → β} {x : Except ε α} {y : β} :
    x.map g = .ok y ↔ ∃ a, x = .ok a ∧ g a = y := by
  cases x with
  | error error =>
    constructor
    · intro h
      cases h
    · rintro ⟨a, h, -⟩
      cases h
  | ok a =>
    show Except.ok (g a) = _ ↔ _
    simp only [Except.ok.injEq, exists_eq_left']

/-- A reference is frozen through its cell, one level deeper. -/
theorem freezeRef_ok_iff {heap : Heap} {limit address : Nat} {value : FrozenValue} :
    freezeValue heap limit (.ref address) = .ok value ↔ ∃ n, limit = n + 1 ∧
      ((∃ kind objs items, heap[address]? = some (.seq kind objs) ∧
          objs.mapM (freezeValue heap n) = .ok items ∧ .tuple items = value) ∨
        ∃ dict entries, heap[address]? = some (.mapping dict) ∧
          dict.entries.mapM (freezeEntry (freezeValue heap n)) = .ok entries ∧
            .payload entries = value) := by
  cases limit with
  -- a container needs a level of its own
  | zero =>
    constructor
    · intro h
      cases h
    · rintro ⟨n, hn, -⟩
      cases hn
  | succ n =>
    rw [freezeValue]
    constructor
    · intro h
      refine ⟨n, rfl, ?_⟩
      cases hcell : heap[address]? with
      | none =>
        rw [hcell] at h
        cases h
      | some cell =>
        cases cell with
        | seq kind objs =>
          rw [hcell] at h
          obtain ⟨items, hitems, heq⟩ := map_ok_iff.mp h
          exact .inl ⟨kind, objs, items, rfl, hitems, heq⟩
        | mapping dict =>
          rw [hcell] at h
          obtain ⟨entries, hentries, heq⟩ := map_ok_iff.mp h
          exact .inr ⟨dict, entries, rfl, hentries, heq⟩
    · rintro ⟨m, hm, ⟨kind, objs, items, hcell, hitems, heq⟩ |
        ⟨dict, entries, hcell, hentries, heq⟩⟩
      · cases hm
        rw [hcell]
        exact map_ok_iff.mpr ⟨items, hitems, heq⟩
      · cases hm
        rw [hcell]
        exact map_ok_iff.mpr ⟨entries, hentries, heq⟩

/-- The check of a lone scalar is that of `_freeze_value`. -/
theorem plain_scalar {s : Scalar} : Plain [] [s] ↔ PlainScalar s := by
  constructor
  · intro h
    exact h.scalars s List.mem_cons_self
  · intro h
    exact { keys := fun key hkey => absurd hkey List.not_mem_nil,
            scalars := List.forall_mem_singleton.mpr h }

mutual
/-- An object is frozen exactly when it has a value that passes the checks, within the stack. -/
theorem freezeValue_ok_iff (heap : Heap) : ∀ (value : FrozenValue) (limit : Nat) (obj : Obj),
    freezeValue heap limit obj = .ok value ↔
      Denotes heap value obj ∧ Plain (keysOf value) (scalarsOf value) ∧ depthOf value ≤ limit
  | .scalar s, limit, obj => by
    rw [Denotes, keysOf, scalarsOf, depthOf, plain_scalar]
    cases obj with
    | scalar t =>
      rw [freezeValue, map_ok_iff]
      constructor
      · rintro ⟨found, hfound, heq⟩
        cases heq
        obtain ⟨rfl, hplain⟩ := freezeScalar_ok_iff.mp hfound
        exact ⟨rfl, hplain, Nat.zero_le _⟩
      · rintro ⟨heq, hplain, -⟩
        cases heq
        exact ⟨s, freezeScalar_ok_iff.mpr ⟨rfl, hplain⟩, rfl⟩
    | unsupported typeName =>
      rw [freezeValue]
      constructor
      · intro h
        cases h
      · rintro ⟨h, -⟩
        cases h
    | ref address =>
      rw [freezeRef_ok_iff]
      constructor
      · rintro ⟨n, -, ⟨_, _, _, -, -, heq⟩ | ⟨_, _, -, -, heq⟩⟩ <;> cases heq
      · rintro ⟨h, -⟩
        cases h
  | .tuple items, limit, obj => by
    rw [Denotes, keysOf, scalarsOf, depthOf]
    cases obj with
    | scalar t =>
      rw [freezeValue, map_ok_iff]
      constructor
      · rintro ⟨found, -, heq⟩
        cases heq
      · rintro ⟨⟨_, _, _, heq, -⟩, -⟩
        cases heq
    | unsupported typeName =>
      rw [freezeValue]
      constructor
      · intro h
        cases h
      · rintro ⟨⟨_, _, _, heq, -⟩, -⟩
        cases heq
    | ref address =>
      rw [freezeRef_ok_iff]
      constructor
      · rintro ⟨n, rfl, ⟨kind, objs, found, hcell, hitems, heq⟩ | ⟨_, _, -, -, heq⟩⟩
        · cases heq
          -- one frame of the stack is spent on the sequence itself
          obtain ⟨hdenotes, hplain, hdepth⟩ := (freezeItems_ok_iff heap items n objs).mp hitems
          exact ⟨⟨address, kind, objs, rfl, hcell, hdenotes⟩, hplain, by omega⟩
        · cases heq
      · rintro ⟨⟨_, kind, objs, heq, hcell, hdenotes⟩, hplain, hdepth⟩
        cases heq
        have hitems := (freezeItems_ok_iff heap items (limit - 1) objs).mpr
          ⟨hdenotes, hplain, by omega⟩
        exact ⟨limit - 1, by omega, .inl ⟨kind, objs, items, hcell, hitems, rfl⟩⟩
  | .payload entries, limit, obj => by
    rw [Denotes, keysOf, scalarsOf, depthOf]
    cases obj with
    | scalar t =>
      rw [freezeValue, map_ok_iff]
      constructor
      · rintro ⟨found, -, heq⟩
        cases heq
      · rintro ⟨⟨_, _, heq, -⟩, -⟩
        cases heq
    | unsupported typeName =>
      rw [freezeValue]
      constructor
      · intro h
        cases h
      · rintro ⟨⟨_, _, heq, -⟩, -⟩
        cases heq
    | ref address =>
      rw [freezeRef_ok_iff]
      constructor
      · rintro ⟨n, rfl, ⟨_, _, _, -, -, heq⟩ | ⟨dict, found, hcell, hentries, heq⟩⟩
        · cases heq
        · cases heq
          -- and one on the mapping
          obtain ⟨hdenotes, hplain, hdepth⟩ :=
            (freezeEntries_ok_iff heap entries n dict.entries).mp hentries
          exact ⟨⟨address, dict, rfl, hcell, hdenotes⟩, hplain, by omega⟩
      · rintro ⟨⟨_, dict, heq, hcell, hdenotes⟩, hplain, hdepth⟩
        cases heq
        have hentries := (freezeEntries_ok_iff heap entries (limit - 1) dict.entries).mpr
          ⟨hdenotes, hplain, by omega⟩
        exact ⟨limit - 1, by omega, .inr ⟨dict, entries, hcell, hentries, rfl⟩⟩

/-- The items of a sequence freeze to `items` exactly when they denote these, and these are plain
and nest within the limit. -/
theorem freezeItems_ok_iff (heap : Heap) :
    ∀ (items : List FrozenValue) (limit : Nat) (objs : List Obj),
    objs.mapM (freezeValue heap limit) = .ok items ↔
      DenotesItems heap items objs ∧ Plain (keysOfItems items) (scalarsOfItems items) ∧
        depthOfItems items ≤ limit
  | [], limit, objs => by
    rw [mapM_nil_ok_iff]
    exact ⟨fun h => ⟨h, Plain.nil, Nat.zero_le _⟩, fun h => h.1⟩
  | item :: items, limit, objs => by
    rw [mapM_cons_ok_iff]
    simp only [freezeValue_ok_iff heap item, freezeItems_ok_iff heap items, DenotesItems,
      keysOfItems,
      scalarsOfItems, plain_append, depthOfItems, Nat.max_le]
    constructor
    · rintro ⟨obj, rest, heq, ⟨hobj, hplain, hdepth⟩, hrest, hplains, hdepths⟩
      exact ⟨⟨obj, rest, heq, hobj, hrest⟩, ⟨hplain, hplains⟩, hdepth, hdepths⟩
    · rintro ⟨⟨obj, rest, heq, hobj, hrest⟩, ⟨hplain, hplains⟩, hdepth, hdepths⟩
      exact ⟨obj, rest, heq, ⟨hobj, hplain, hdepth⟩, hrest, hplains, hdepths⟩

/-- The entries of a mapping freeze to `entries` exactly when they denote these, and these are
plain and nest within the limit. -/
theorem freezeEntries_ok_iff (heap : Heap) :
    ∀ (entries : List (PyStr × FrozenValue)) (limit : Nat) (objs : List (Key × Obj)),
    objs.mapM (freezeEntry (freezeValue heap limit)) = .ok entries ↔
      DenotesEntries heap entries objs ∧ Plain (keysOfEntries entries) (scalarsOfEntries entries) ∧
        depthOfEntries entries ≤ limit
  | [], limit, objs => by
    rw [mapM_nil_ok_iff]
    exact ⟨fun h => ⟨h, Plain.nil, Nat.zero_le _⟩, fun h => h.1⟩
  | (key, value) :: entries, limit, objs => by
    rw [mapM_cons_ok_iff]
    simp only [freezeEntry_ok_iff, freezeValue_ok_iff heap value, freezeEntries_ok_iff heap entries,
      DenotesEntries, keysOfEntries, scalarsOfEntries, plain_cons, plain_append, depthOfEntries,
      Nat.max_le]
    constructor
    · rintro ⟨⟨k, obj⟩, rest, heq, ⟨hkey, hsensitive, hobj, hplain, hdepth⟩,
        hrest, hplains, hdepths⟩
      cases hkey
      exact ⟨⟨obj, rest, heq, hobj, hrest⟩, ⟨hsensitive, hplain, hplains⟩, hdepth, hdepths⟩
    · rintro ⟨⟨obj, rest, heq, hobj, hrest⟩, ⟨hsensitive, hplain, hplains⟩, hdepth, hdepths⟩
      exact ⟨(.str key, obj), rest, heq, ⟨rfl, hsensitive, hobj, hplain, hdepth⟩, hrest, hplains,
        hdepths⟩
end

/-! ### Thawing -/

/-- The payload has the keys of the mapping, in their order. -/
theorem denotesEntries_keys {heap : Heap} {entries : List (PyStr × FrozenValue)}
    {objs : List (Key × Obj)} (h : DenotesEntries heap entries objs) :
    objs.map (·.1) = (entries.map (·.1)).map Key.str := by
  induction entries generalizing objs with
  | nil =>
    rw [h]
    rfl
  | cons entry entries ih =>
    obtain ⟨obj, rest, heq, -, hrest⟩ := h
    rw [heq, List.map_cons, ih hrest]
    rfl

mutual
/-- A mapping of the heap has distinct keys, so its value has. -/
theorem Denotes.distinct {heap : Heap} : ∀ {value : FrozenValue} {obj : Obj},
    Denotes heap value obj → DistinctKeys value
  | .scalar _, _, _ => trivial
  | .tuple _, _, ⟨_, _, _, _, _, hitems⟩ => DenotesItems.distinct hitems
  | .payload _, _, ⟨_, dict, _, _, hentries⟩ =>
    ⟨List.Nodup.of_map Key.str (denotesEntries_keys hentries ▸ dict.distinct),
      DenotesEntries.distinct hentries⟩

/-- What a sequence of well-formed objects denotes has distinct keys at every depth. -/
theorem DenotesItems.distinct {heap : Heap} : ∀ {items : List FrozenValue} {objs : List Obj},
    DenotesItems heap items objs → DistinctItems items
  | [], _, _ => trivial
  | _ :: _, _, ⟨_, _, _, hitem, hitems⟩ => ⟨hitem.distinct, DenotesItems.distinct hitems⟩

/-- What the entries of a well-formed mapping denote has distinct keys at every depth. -/
theorem DenotesEntries.distinct {heap : Heap} : ∀ {entries : List (PyStr × FrozenValue)}
    {objs : List (Key × Obj)}, DenotesEntries heap entries objs → DistinctEntries entries
  | [], _, _ => trivial
  | _ :: _, _, ⟨_, _, _, hvalue, hentries⟩ => ⟨hvalue.distinct, DenotesEntries.distinct hentries⟩
end

/-- A cell stays at its address when cells are added. -/
theorem cell_more {heap cells : Heap} {address : Nat} {cell : Cell}
    (h : heap[address]? = some cell) : (heap ++ cells)[address]? = some cell := by
  obtain ⟨hlt, -⟩ := List.getElem?_eq_some_iff.mp h
  rw [List.getElem?_append_left hlt, h]

mutual
/-- More cells do not change the value of an object. -/
theorem Denotes.append {heap cells : Heap} : ∀ {value : FrozenValue} {obj : Obj},
    Denotes heap value obj → Denotes (heap ++ cells) value obj
  | .scalar _, _, h => h
  | .tuple _, _, ⟨address, kind, objs, heq, hcell, hitems⟩ =>
    ⟨address, kind, objs, heq, cell_more hcell, hitems.append⟩
  | .payload _, _, ⟨address, dict, heq, hcell, hentries⟩ =>
    ⟨address, dict, heq, cell_more hcell, hentries.append⟩

/-- Items denote the same when cells are added. -/
theorem DenotesItems.append {heap cells : Heap} : ∀ {items : List FrozenValue} {objs : List Obj},
    DenotesItems heap items objs → DenotesItems (heap ++ cells) items objs
  | [], _, h => h
  | _ :: _, _, ⟨obj, rest, heq, hitem, hitems⟩ => ⟨obj, rest, heq, hitem.append, hitems.append⟩

/-- Entries denote the same when cells are added. -/
theorem DenotesEntries.append {heap cells : Heap} : ∀ {entries : List (PyStr × FrozenValue)}
    {objs : List (Key × Obj)}, DenotesEntries heap entries objs →
      DenotesEntries (heap ++ cells) entries objs
  | [], _, h => h
  | _ :: _, _, ⟨obj, rest, heq, hvalue, hentries⟩ =>
    ⟨obj, rest, heq, hvalue.append, hentries.append⟩
end

/-- Assigning to a key that is not there appends it. -/
theorem setEntry_new {key : Key} {value : Obj} {entries : List (Key × Obj)}
    (h : key ∉ entries.map (·.1)) : setEntry key value entries = entries ++ [(key, value)] := by
  induction entries with
  | nil => rfl
  | cons entry rest ih =>
    rw [List.map_cons, List.mem_cons, not_or] at h
    rw [setEntry, if_neg fun heq => h.1 heq.symm, ih h.2]
    rfl

/-- Assigning distinct new keys one after the other appends the entries in their order. -/
theorem foldl_set_entries {entries : List (Key × Obj)} {dict : PyDict}
    (h : ((dict.entries ++ entries).map (·.1)).Nodup) :
    (entries.foldl (fun dict entry => dict.set entry.1 entry.2) dict).entries =
      dict.entries ++ entries := by
  induction entries generalizing dict with
  | nil => exact (List.append_nil _).symm
  | cons entry rest ih =>
    have hnew : entry.1 ∉ dict.entries.map (·.1) := by
      intro hmem
      rw [List.map_append, List.nodup_append] at h
      exact h.2.2 _ hmem _ List.mem_cons_self rfl
    have hset : (dict.set entry.1 entry.2).entries = dict.entries ++ [entry] := setEntry_new hnew
    have hassoc : (dict.set entry.1 entry.2).entries ++ rest = dict.entries ++ entry :: rest := by
      rw [hset, List.append_assoc]
      rfl
    rw [List.foldl_cons, ih (by rw [hassoc]; exact h), hassoc]

/-- A comprehension over distinct keys keeps every entry in its place. -/
theorem ofEntries_entries {entries : List (Key × Obj)} (h : (entries.map (·.1)).Nodup) :
    (PyDict.ofEntries entries).entries = entries :=
  @foldl_set_entries entries ⟨[], List.nodup_nil⟩ h

/-- The object is a scalar or a new cell. -/
def NewObj (bound : Nat) : Obj → Prop
  | .scalar _ => True
  | .ref address => bound ≤ address
  | .unsupported _ => False

/-- The cell is a list or a mapping, of scalars and new cells. -/
def NewCell (bound : Nat) : Cell → Prop
  | .seq kind items => kind = .list ∧ ∀ obj ∈ items, NewObj bound obj
  | .mapping dict => ∀ entry ∈ dict.entries, NewObj bound entry.2

/-- The later heap has the same cells, and new ones. -/
def Extends (heap later : Heap) : Prop :=
  ∃ cells, later = heap ++ cells ∧ ∀ cell ∈ cells, NewCell heap.length cell

/-- What is new since a later heap is new since an earlier one. -/
theorem NewObj.mono {m n : Nat} {obj : Obj} (h : NewObj n obj) (hmn : m ≤ n) : NewObj m obj := by
  cases obj with
  | scalar s => trivial
  | ref address => exact Nat.le_trans hmn h
  | unsupported typeName => exact h

/-- A cell of objects new since a later heap consists of objects new since an earlier one. -/
theorem NewCell.mono {m n : Nat} {cell : Cell} (h : NewCell n cell) (hmn : m ≤ n) :
    NewCell m cell := by
  cases cell with
  | seq kind items => exact ⟨h.1, fun obj hobj => (h.2 obj hobj).mono hmn⟩
  | mapping dict => exact fun entry hentry => (h entry hentry).mono hmn

/-- A heap extends itself. -/
theorem Extends.rfl {heap : Heap} : Extends heap heap :=
  ⟨[], (List.append_nil heap).symm, fun _ h => absurd h List.not_mem_nil⟩

/-- A heap that extends another has at least its cells. -/
theorem Extends.length_le {heap later : Heap} (h : Extends heap later) :
    heap.length ≤ later.length := by
  obtain ⟨cells, rfl, -⟩ := h
  rw [List.length_append]
  omega

/-- Extensions compose: what the second adds is new since the first heap too. -/
theorem Extends.trans {heap later last : Heap} (h : Extends heap later)
    (hlast : Extends later last) :
    Extends heap last := by
  have hle := h.length_le
  obtain ⟨cells, rfl, hcells⟩ := h
  obtain ⟨more, rfl, hmore⟩ := hlast
  refine ⟨cells ++ more, List.append_assoc _ _ _, ?_⟩
  rw [List.forall_mem_append]
  exact ⟨hcells, fun cell hcell => (hmore cell hcell).mono hle⟩

/-- Allocating a cell of new objects extends the heap. -/
theorem Extends.push {heap later : Heap} {cell : Cell} (h : Extends heap later)
    (hcell : NewCell heap.length cell) : Extends heap (later ++ [cell]) := by
  obtain ⟨cells, rfl, hcells⟩ := h
  refine ⟨cells ++ [cell], List.append_assoc _ _ _, ?_⟩
  rw [List.forall_mem_append]
  exact ⟨hcells, List.forall_mem_singleton.mpr hcell⟩

/-- An object denotes the same in every extension of its heap. -/
theorem Denotes.extends {heap later : Heap} {value : FrozenValue} {obj : Obj}
    (h : Denotes heap value obj) (hlater : Extends heap later) : Denotes later value obj := by
  obtain ⟨cells, rfl, -⟩ := hlater
  exact h.append

/-- The cell just allocated is at the old end of the heap. -/
theorem cell_push (heap : Heap) (cell : Cell) :
    (heap ++ [cell])[heap.length]? = some cell := by
  rw [List.getElem?_append_right (Nat.le_refl _), Nat.sub_self]
  rfl

mutual
/-- A thawed value is the value again, in cells of its own. -/
theorem thawValue_spec : ∀ (value : FrozenValue) (heap : Heap), DistinctKeys value →
    Extends heap (thawValue value heap).1 ∧ NewObj heap.length (thawValue value heap).2 ∧
      Denotes (thawValue value heap).1 value (thawValue value heap).2
  | .scalar s, heap, _ => ⟨Extends.rfl, trivial, rfl⟩
  | .tuple items, heap, hdistinct => by
    obtain ⟨hextends, hnew, hdenotes⟩ := thawItems_spec items heap hdistinct
    refine ⟨hextends.push ⟨rfl, hnew⟩, hextends.length_le, ?_⟩
    exact ⟨_, .list, _, rfl, cell_push _ _, hdenotes.append⟩
  | .payload entries, heap, hdistinct => by
    obtain ⟨hextends, hnew, hdenotes⟩ := thawEntries_spec entries heap hdistinct.2
    have hnodup : ((thawEntries entries heap).2.map (·.1)).Nodup := by
      rw [denotesEntries_keys hdenotes]
      exact hdistinct.1.map (fun _ _ h => Key.str.inj h)
    have hentries := ofEntries_entries hnodup
    have hcell : NewCell heap.length
        (.mapping (PyDict.ofEntries (thawEntries entries heap).2)) := by
      rw [NewCell, hentries]
      exact hnew
    refine ⟨hextends.push hcell, hextends.length_le, ?_⟩
    refine ⟨_, PyDict.ofEntries (thawEntries entries heap).2, rfl, cell_push _ _, ?_⟩
    rw [hentries]
    exact hdenotes.append

/-- Thawing items only adds cells, gives new objects, and these denote the items. -/
theorem thawItems_spec : ∀ (items : List FrozenValue) (heap : Heap), DistinctItems items →
    Extends heap (thawItems items heap).1 ∧
      (∀ obj ∈ (thawItems items heap).2, NewObj heap.length obj) ∧
      DenotesItems (thawItems items heap).1 items (thawItems items heap).2
  | [], heap, _ => ⟨Extends.rfl, fun _ h => absurd h List.not_mem_nil, rfl⟩
  | item :: items, heap, hdistinct => by
    obtain ⟨hextends, hnew, hdenotes⟩ := thawValue_spec item heap hdistinct.1
    obtain ⟨hmore, hnews, hrest⟩ := thawItems_spec items (thawValue item heap).1 hdistinct.2
    refine ⟨hextends.trans hmore, ?_, ?_⟩
    · exact List.forall_mem_cons.mpr ⟨hnew, fun obj hobj =>
        (hnews obj hobj).mono hextends.length_le⟩
    · exact ⟨_, _, rfl, hdenotes.extends hmore, hrest⟩

/-- Thawing entries only adds cells, gives new objects, and these denote the entries. -/
theorem thawEntries_spec : ∀ (entries : List (PyStr × FrozenValue)) (heap : Heap),
    DistinctEntries entries → Extends heap (thawEntries entries heap).1 ∧
      (∀ entry ∈ (thawEntries entries heap).2, NewObj heap.length entry.2) ∧
      DenotesEntries (thawEntries entries heap).1 entries (thawEntries entries heap).2
  | [], heap, _ => ⟨Extends.rfl, fun _ h => absurd h List.not_mem_nil, rfl⟩
  | (key, value) :: entries, heap, hdistinct => by
    obtain ⟨hextends, hnew, hdenotes⟩ := thawValue_spec value heap hdistinct.1
    obtain ⟨hmore, hnews, hrest⟩ := thawEntries_spec entries (thawValue value heap).1 hdistinct.2
    refine ⟨hextends.trans hmore, ?_, ?_⟩
    · exact List.forall_mem_cons.mpr ⟨hnew, fun entry hentry =>
        (hnews entry hentry).mono hextends.length_le⟩
    · exact ⟨_, _, rfl, hdenotes.extends hmore, hrest⟩
end

/-! ### Routed payloads -/

/-- The payload is faithful to the mapping, and free of connection data. -/
structure Faithful (heap : Heap) (dict : PyDict) (payload : List (PyStr × FrozenValue)) : Prop where
  input : DenotesEntries heap payload dict.entries
  -- the heap of an export is any, so nothing that changed in between matters
  exports : ∀ later, Extends later (toDict payload later).1 ∧
    NewObj later.length (toDict payload later).2 ∧
    Denotes (toDict payload later).1 (.payload payload) (toDict payload later).2
  sensitive : ∀ key ∈ keysOfEntries payload, casefold key ∉ sensitiveEventKeys
  urlKeys : ∀ key ∈ keysOfEntries payload, ¬ HasUrl key
  urlValues : ∀ text, .str text ∈ scalarsOfEntries payload → ¬ HasUrl text

/-- `from_mapping` accepts a mapping as `payload` exactly when its entries denote `payload`, and
this is plain and nests within the limit. -/
theorem fromMapping_ok_iff {heap : Heap} {limit : Nat} {dict : PyDict}
    {payload : List (PyStr × FrozenValue)} : fromMapping heap limit dict = .ok payload ↔
      DenotesEntries heap payload dict.entries ∧
        Plain (keysOfEntries payload) (scalarsOfEntries payload) ∧
        depthOfEntries payload ≤ limit :=
  freezeEntries_ok_iff heap payload limit dict.entries

/-- All but the keys. -/
theorem faithful_of_fromMapping {heap : Heap} {limit : Nat} {dict : PyDict}
    {payload : List (PyStr × FrozenValue)} (h : fromMapping heap limit dict = .ok payload)
    (hkeys : ∀ key ∈ keysOfEntries payload, ¬ HasUrl key) : Faithful heap dict payload := by
  obtain ⟨hdenotes, hplain, -⟩ := fromMapping_ok_iff.mp h
  have hnodup : (payload.map (·.1)).Nodup :=
    List.Nodup.of_map Key.str (denotesEntries_keys hdenotes ▸ dict.distinct)
  exact { input := hdenotes
          exports := fun later => thawValue_spec _ later ⟨hnodup, hdenotes.distinct⟩
          sensitive := hplain.keys
          urlKeys := hkeys
          urlValues := fun text htext => hplain.scalars _ htext }

/-- Every payload of a mapping is faithful and free of connection data exactly when the mapping has
no key with a URL, at any depth, unless one of its other parts has it refused. -/
theorem routed_payloads (heap : Heap) (limit : Nat) (dict : PyDict) :
    (∀ payload, fromMapping heap limit dict = .ok payload → Faithful heap dict payload) ↔
      ∀ value, DenotesEntries heap value dict.entries →
        Plain (keysOfEntries value) (scalarsOfEntries value) → depthOfEntries value ≤ limit →
        ∀ key ∈ keysOfEntries value, ¬ HasUrl key := by
  constructor
  · intro h value hdenotes hplain hdepth
    exact (h value (fromMapping_ok_iff.mpr ⟨hdenotes, hplain, hdepth⟩)).urlKeys
  · intro h payload hok
    obtain ⟨hdenotes, hplain, hdepth⟩ := fromMapping_ok_iff.mp hok
    exact faithful_of_fromMapping hok (h payload hdenotes hplain hdepth)

/-- The event payload `{"rtsp://x": 1}`. -/
def urlKeyed : PyDict where
  entries := [(.str (PyStr.ofString "rtsp://x"), .scalar (.int 1))]
  distinct := List.pairwise_singleton _ _

/-- A URL as a key gets through. -/
theorem routed_payloads_url_key :
    fromMapping [] 1 urlKeyed = .ok [(PyStr.ofString "rtsp://x", .scalar (.int 1))] ∧
      ¬ Faithful [] urlKeyed [(PyStr.ofString "rtsp://x", .scalar (.int 1))] := by
  constructor
  · rfl
  · intro h
    exact h.urlKeys (PyStr.ofString "rtsp://x") List.mem_cons_self (by decide +kernel)

end Rsap.Proofs
