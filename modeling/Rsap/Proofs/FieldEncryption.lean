import Rsap.Desktop.Crypto

/-!
# `Rsap.Proofs.FieldEncryption`: which encrypted values are readable again

`decrypt` wants 31 bytes, which is one more than the version, the nonce and the tag take. The empty
plaintext is encrypted all the same, and `decrypt` refuses what it gave (`decrypt_encrypt`).

`PersonCacheEntry` admits an empty phone, so the persons cache can hold a row that fails `list`
(`readable_iff`).
-/

set_option autoImplicit false

namespace Rsap.Proofs

open Rsap Rsap.Desktop Rsap.Library PyStr

/-! ### The cipher -/

/-- The purpose is one of those in use, or has no bytes at all. -/
def InUse (inUse : Set (List UInt8)) (purpose : PyStr) : Prop :=
  ∀ bytes, purpose.encodeUtf8 = some bytes → bytes ∈ inUse

section
variable {cipher : FieldCipher} {nonce : Nonce} {s p q encoded : PyStr}
  {data associated : List UInt8} {inUse : Set (List UInt8)}

/-- The text of an encryption: the version, the nonce and the sealed data, in base 64. -/
theorem encrypt_eq (hs : s.encodeUtf8 = some data) (hp : p.encodeUtf8 = some associated) :
    cipher.encrypt nonce s p = .ok (PyStr.ofAscii (Base64.encode
      (FieldCipher.version ++ nonce.val ++ cipher.aes.encrypt nonce.val data associated))) := by
  simp only [FieldCipher.encrypt, hs, hp]

/-- What encryption succeeds on. -/
theorem encrypt_ok (h : cipher.encrypt nonce s p = .ok encoded) : HasBytes s ∧ HasBytes p := by
  unfold FieldCipher.encrypt at h
  cases hs : s.encodeUtf8 with
  | none =>
    rw [hs] at h
    cases h
  | some data =>
    cases hp : p.encodeUtf8 with
    | none =>
      rw [hs, hp] at h
      cases h
    | some associated =>
      simp only [HasBytes, hs, hp, Option.isSome_some, and_self]

/-- `decrypt` of an encrypted value comes down to the length check and AES-GCM. -/
theorem opened_encrypt (hs : s.encodeUtf8 = some data) (hp : p.encodeUtf8 = some associated)
    (hlength : (cipher.aes.encrypt nonce.val data associated).length = data.length + 16)
    (h : cipher.encrypt nonce s p = .ok encoded) :
    cipher.opened encoded q =
      if data = [] then none
      else q.encodeUtf8.bind fun other =>
        (cipher.aes.decrypt nonce.val (cipher.aes.encrypt nonce.val data associated) other).bind
          PyStr.decodeUtf8 := by
  rw [encrypt_eq hs hp] at h
  generalize hcipher : cipher.aes.encrypt nonce.val data associated = ciphertext at h hlength ⊢
  have hnonce := nonce.property
  have hpayload : FieldCipher.version ++ nonce.val ++ ciphertext =
      118 :: 49 :: (nonce.val ++ ciphertext) := rfl
  have hsize : (118 :: 49 :: (nonce.val ++ ciphertext)).length = data.length + 30 := by
    simp only [List.length_cons, List.length_append]
    omega
  -- the payload splits into the version, the nonce and the ciphertext
  have htake : (nonce.val ++ ciphertext).take 12 = nonce.val := by
    exact List.take_left' hnonce
  have hdrop : (nonce.val ++ ciphertext).drop 12 = ciphertext := by
    exact List.drop_left' hnonce
  rw [← Except.ok.inj h, FieldCipher.opened, encodeAscii_ofAscii (Base64.encode_ascii _)]
  simp only [Option.bind_eq_bind, Option.bind_some, Base64.decode_encode, hpayload, hsize]
  have hversion : (118 :: 49 :: (nonce.val ++ ciphertext)).take 2 = FieldCipher.version := rfl
  -- an empty text is shorter than `decrypt` asks for
  by_cases hdata : data = []
  · subst hdata
    rw [if_pos (Or.inr (by simp)), if_pos rfl]
  · have hpos : 0 < data.length := List.length_pos_iff.mpr hdata
    rw [if_neg (not_or.mpr ⟨fun hne => hne hversion, by omega⟩), if_neg hdata]
    show q.encodeUtf8.bind (fun other =>
      (cipher.aes.decrypt ((nonce.val ++ ciphertext).take 12) ((nonce.val ++ ciphertext).drop 12)
        other).bind PyStr.decodeUtf8) = _
    rw [htake, hdrop]

/-- The value is readable under its purpose and no other. -/
def RoundTrips (cipher : FieldCipher) (inUse : Set (List UInt8)) (nonce : Nonce) (s p : PyStr) :
    Prop :=
  ∃ encoded, cipher.encrypt nonce s p = .ok encoded ∧ cipher.decrypt encoded p = .ok s ∧
    ∀ q, InUse inUse q → p ≠ q → cipher.decrypt encoded q = .error FieldCipher.unauthenticated

/-- What cannot be opened is not authenticated. -/
theorem decrypt_of_opened_none (h : cipher.opened encoded q = none) :
    cipher.decrypt encoded q = .error FieldCipher.unauthenticated := by
  simp only [FieldCipher.decrypt, h]

/-- What can be opened is the value. -/
theorem decrypt_of_opened_some (h : cipher.opened encoded q = some s) :
    cipher.decrypt encoded q = .ok s := by
  simp only [FieldCipher.decrypt, h]

/-- The empty plaintext is refused under every purpose. -/
theorem decrypt_empty (hsound : cipher.aes.Sound inUse)
    (h : cipher.encrypt nonce [] p = .ok encoded) :
    cipher.decrypt encoded q = .error FieldCipher.unauthenticated := by
  obtain ⟨associated, hp⟩ := (encrypt_ok h).2.bytes
  have hempty : PyStr.encodeUtf8 [] = some [] := rfl
  apply decrypt_of_opened_none
  rw [opened_encrypt hempty hp (hsound.length _ _ _) h, if_pos rfl]

/-- A value that is not empty is read back under its purpose. -/
theorem decrypt_same (hsound : cipher.aes.Sound inUse) (hp : InUse inUse p) (hne : s ≠ [])
    (h : cipher.encrypt nonce s p = .ok encoded) : cipher.decrypt encoded p = .ok s := by
  obtain ⟨data, hdata⟩ := (encrypt_ok h).1.bytes
  obtain ⟨associated, hassociated⟩ := (encrypt_ok h).2.bytes
  have hsome : data ≠ [] := mt (bytes_eq_nil hdata).mp hne
  apply decrypt_of_opened_some
  rw [opened_encrypt hdata hassociated (hsound.length _ _ _) h, if_neg hsome, hassociated,
    Option.bind_some, hsound.opens _ _ _ (hp _ hassociated), Option.bind_some,
    decodeUtf8_encodeUtf8 hdata]

/-- It is read back under no other purpose. -/
theorem decrypt_other (hsound : cipher.aes.Sound inUse) (hp : InUse inUse p) (hq : InUse inUse q)
    (hpq : p ≠ q) (h : cipher.encrypt nonce s p = .ok encoded) :
    cipher.decrypt encoded q = .error FieldCipher.unauthenticated := by
  obtain ⟨data, hdata⟩ := (encrypt_ok h).1.bytes
  obtain ⟨associated, hassociated⟩ := (encrypt_ok h).2.bytes
  apply decrypt_of_opened_none
  rw [opened_encrypt hdata hassociated (hsound.length _ _ _) h]
  by_cases hnil : data = []
  · rw [if_pos hnil]
  · rw [if_neg hnil]
    cases hother : q.encodeUtf8 with
    | none => rfl
    | some other =>
      have hne : other ≠ associated := by
        intro heq
        exact hpq (encodeUtf8_inj hassociated (heq ▸ hother))
      rw [Option.bind_some, hsound.rejects _ _ _ (hp _ hassociated) _ (hq _ hother) hne]
      rfl

/-- The round trip holds exactly for values that are not empty and have bytes, under a purpose
that has bytes. -/
theorem roundTrips_iff (hsound : cipher.aes.Sound inUse) (hp : InUse inUse p) :
    RoundTrips cipher inUse nonce s p ↔ s ≠ [] ∧ HasBytes s ∧ HasBytes p := by
  constructor
  · rintro ⟨encoded, hencrypt, hdecrypt, -⟩
    refine ⟨?_, encrypt_ok hencrypt⟩
    intro hs
    subst hs
    rw [decrypt_empty hsound hencrypt] at hdecrypt
    cases hdecrypt
  · rintro ⟨hne, hs, hpurpose⟩
    obtain ⟨data, hdata⟩ := hs.bytes
    obtain ⟨associated, hassociated⟩ := hpurpose.bytes
    have hencrypt : cipher.encrypt nonce s p = _ := encrypt_eq hdata hassociated
    exact ⟨_, hencrypt, decrypt_same hsound hp hne hencrypt,
      fun q hq hpq => decrypt_other hsound hp hq hpq hencrypt⟩

end

/-! ### The persons cache -/

/-- The entry of the batch that a person's row ends with: `ON CONFLICT` keeps the last one. -/
def lastEntry : List (PersonCacheEntry × Nonce) → Uuid → Option PersonCacheEntry
  | [], _ => none
  | (person, _) :: rest, id =>
    match lastEntry rest id with
    | some later => some later
    | none => if person.serverId = id then some person else none

/-- The row holds the entry, with the phone encrypted. -/
structure Holds (cipher : FieldCipher) (person : PersonCacheEntry) (row : PersonRow) : Prop where
  serverId : row.serverId = person.serverId
  name : row.name = person.name
  phone : ∃ nonce, cipher.encrypt nonce (PyStr.ofString person.phone)
    (phonePurpose person.serverId) = .ok row.phoneEncrypted

section
variable {cipher : FieldCipher} {people : List (PersonCacheEntry × Nonce)}
  {person : PersonCacheEntry} {nonce : Nonce} {table stored : List PersonRow} {row old : PersonRow}
  {id : Uuid} {inUse : Set (List UInt8)}

/-- The last entry of a person is one of the batch. -/
theorem lastEntry_mem (h : lastEntry people id = some person) : person ∈ people.map (·.1) := by
  induction people with
  | nil => cases h
  | cons entry rest ih =>
    simp only [lastEntry] at h
    cases hrest : lastEntry rest id with
    | some later =>
      rw [hrest] at h
      exact List.mem_cons_of_mem _ (ih (hrest.trans h))
    | none =>
      rw [hrest] at h
      by_cases hid : entry.1.serverId = id
      · rw [if_pos hid] at h
        exact Option.some.inj h ▸ List.mem_cons_self
      · rw [if_neg hid] at h
        cases h

/-- A person without a last entry is not in the batch. -/
theorem lastEntry_none (h : lastEntry people id = none) : id ∉ people.map (·.1.serverId) := by
  induction people with
  | nil => exact List.not_mem_nil
  | cons entry rest ih =>
    simp only [lastEntry] at h
    cases hrest : lastEntry rest id with
    | some later =>
      rw [hrest] at h
      cases h
    | none =>
      rw [hrest] at h
      by_cases hid : entry.1.serverId = id
      · rw [if_pos hid] at h
        cases h
      · intro hmem
        rcases List.mem_cons.mp hmem with heq | hmem
        · exact hid heq.symm
        · exact ih hrest hmem

/-- Another person's row stays. -/
theorem mem_upsert_of_ne (hold : old ∈ table) (hne : old.serverId ≠ row.serverId) :
    old ∈ upsertPerson table row := by
  unfold upsertPerson
  split
  · exact List.mem_map.mpr ⟨old, hold, if_neg hne⟩
  · exact List.mem_append_left _ hold

/-- A row is the person's new row, or another person's row of before. -/
theorem mem_upsert (hold : old ∈ upsertPerson table row) :
    (∃ id, old = { row with id := id }) ∨ (old ∈ table ∧ old.serverId ≠ row.serverId) := by
  unfold upsertPerson at hold
  split at hold
  next =>
    obtain ⟨before, hbefore, heq⟩ := List.mem_map.mp hold
    by_cases hid : before.serverId = row.serverId
    · rw [if_pos hid] at heq
      exact .inl ⟨before.id, heq.symm⟩
    · rw [if_neg hid] at heq
      subst heq
      exact .inr ⟨hbefore, hid⟩
  next hany =>
    rcases List.mem_append.mp hold with hmem | hmem
    · right
      refine ⟨hmem, ?_⟩
      intro hid
      exact hany (List.any_eq_true.mpr ⟨old, hmem, beq_iff_eq.mpr hid⟩)
    · left
      exact ⟨row.id, List.mem_singleton.mp hmem⟩

/-- The person has its new row. -/
theorem exists_upsert (table : List PersonRow) (row : PersonRow) :
    ∃ id, { row with id := id } ∈ upsertPerson table row := by
  unfold upsertPerson
  split
  next hany =>
    obtain ⟨old, hold, hid⟩ := List.any_eq_true.mp hany
    exact ⟨old.id, List.mem_map.mpr ⟨old, hold, if_pos (beq_iff_eq.mp hid)⟩⟩
  next => exact ⟨row.id, List.mem_append_right _ List.mem_cons_self⟩

/-- Entries are encodable, so a person's row is always made. -/
theorem personRow_ok (cipher : FieldCipher) (person : PersonCacheEntry) (nonce : Nonce) :
    ∃ row, personRow cipher person nonce = .ok row ∧
    ∀ id, Holds cipher person { row with id := id } := by
  obtain ⟨data, hdata⟩ := (hasBytes_ofString person.phone).bytes
  obtain ⟨associated, hassociated⟩ :=
    (hasBytes_ofString ("person-phone:" ++ person.serverId.text)).bytes
  obtain ⟨phone, hphone⟩ : ∃ phone, cipher.encrypt nonce (PyStr.ofString person.phone)
      (phonePurpose person.serverId) = .ok phone := ⟨_, encrypt_eq hdata hassociated⟩
  have hrow : personRow cipher person nonce = .ok
      { id := person.serverId, serverId := person.serverId, name := person.name,
        phoneEncrypted := phone, faceEncodingPath := person.faceEncodingPath,
        syncedAt := person.syncedAt } := by
    show (cipher.encrypt nonce (PyStr.ofString person.phone)
      (phonePurpose person.serverId) >>= _) = _
    rw [hphone]
    rfl
  exact ⟨_, hrow, fun id => { serverId := rfl, name := rfl, phone := ⟨nonce, hphone⟩ }⟩

/-- What the loop leaves: the last entry of each person of the batch, and the rows of the
others. -/
structure Stores (cipher : FieldCipher) (people : List (PersonCacheEntry × Nonce))
    (table stored : List PersonRow) : Prop where
  rows : ∀ row ∈ stored, (∃ person, lastEntry people row.serverId = some person ∧
    Holds cipher person row) ∨ (lastEntry people row.serverId = none ∧ row ∈ table)
  kept : ∀ row ∈ table, lastEntry people row.serverId = none → row ∈ stored
  entries : ∀ id person, lastEntry people id = some person →
    ∃ row ∈ stored, Holds cipher person row

/-- An entry in front of the last one does not count. -/
theorem lastEntry_cons_some {entry : PersonCacheEntry × Nonce}
    (h : lastEntry people id = some person) : lastEntry (entry :: people) id = some person := by
  simp only [lastEntry, h]

/-- A first entry counts when none of that person follows. -/
theorem lastEntry_cons_none {entry : PersonCacheEntry × Nonce} (h : lastEntry people id = none) :
    lastEntry (entry :: people) id = if entry.1.serverId = id then some entry.1 else none := by
  simp only [lastEntry, h]

/-- One turn of the loop, ahead of the rest. -/
theorem Stores.cons (hrow : ∀ id, Holds cipher person { row with id := id })
    (h : Stores cipher people (upsertPerson table row) stored) :
    Stores cipher ((person, nonce) :: people) table stored := by
  have hid : row.serverId = person.serverId := (hrow row.id).serverId
  constructor
  -- a row of the table is an old one or the one that was just written
  case rows =>
    intro found hfound
    rcases h.rows found hfound with ⟨last, hlast, hholds⟩ | ⟨hnone, hmem⟩
    · exact .inl ⟨last, lastEntry_cons_some hlast, hholds⟩
    · rw [lastEntry_cons_none hnone]
      rcases mem_upsert hmem with ⟨id, rfl⟩ | ⟨hbefore, hne⟩
      · exact .inl ⟨person, if_pos hid.symm, hrow id⟩
      · exact .inr ⟨if_neg fun heq => hne (heq.symm.trans hid.symm), hbefore⟩
  -- the upsert leaves the rows of other ids
  case kept =>
    intro before hbefore hnone
    cases hrest : lastEntry people before.serverId with
    | some last =>
      rw [lastEntry_cons_some hrest] at hnone
      cases hnone
    | none =>
      rw [lastEntry_cons_none hrest] at hnone
      have hne : before.serverId ≠ row.serverId := by
        intro heq
        rw [if_pos (hid.symm.trans heq.symm)] at hnone
        cases hnone
      exact h.kept before (mem_upsert_of_ne hbefore hne) hrest
  -- the last entry of an id is what its row holds in the end
  case entries =>
    intro id last hlast
    cases hrest : lastEntry people id with
    | some later =>
      rw [lastEntry_cons_some hrest] at hlast
      exact h.entries id last (hrest.trans hlast)
    | none =>
      rw [lastEntry_cons_none hrest] at hlast
      by_cases heq : person.serverId = id
      · rw [if_pos heq] at hlast
        obtain ⟨rowId, hmem⟩ := exists_upsert table row
        have hkept := h.kept _ hmem (show lastEntry people row.serverId = none by
          rw [hid, heq, hrest])
        exact ⟨_, hkept, Option.some.inj hlast ▸ hrow rowId⟩
      · rw [if_neg heq] at hlast
        cases hlast

/-- The loop of `replace_cache` never fails. -/
theorem storePeople_ok (cipher : FieldCipher) (people : List (PersonCacheEntry × Nonce))
    (table : List PersonRow) : ∃ stored, storePeople cipher people table = .ok stored ∧
    Stores cipher people table stored := by
  induction people generalizing table with
  | nil =>
    exact ⟨table, rfl, { rows := fun row hrow => .inr ⟨rfl, hrow⟩,
                         kept := fun row hrow _ => hrow,
                         entries := fun id person h => (by cases h) }⟩
  | cons entry rest ih =>
    obtain ⟨row, hrow, hholds⟩ := personRow_ok cipher entry.1 entry.2
    obtain ⟨stored, hstored, hstores⟩ := ih (upsertPerson table row)
    refine ⟨stored, ?_, hstores.cons hholds⟩
    show (personRow cipher entry.1 entry.2 >>= fun row =>
      storePeople cipher rest (upsertPerson table row)) = _
    rw [hrow]
    exact hstored

/-- The table after `replace_cache`: one row for the last entry of each person, and no other. -/
theorem replaceCache_ok (cipher : FieldCipher) (people : List (PersonCacheEntry × Nonce))
    (table : List PersonRow) : ∃ stored, replaceCache cipher people table = .ok stored ∧
    (∀ row ∈ stored, ∃ person, lastEntry people row.serverId = some person ∧
      Holds cipher person row) ∧
    ∀ id person, lastEntry people id = some person → ∃ row ∈ stored, Holds cipher person row := by
  obtain ⟨stored, hstored, hstores⟩ := storePeople_ok cipher people table
  have hreplace : replaceCache cipher people table =
      if people.map (·.1.serverId) ≠ [] then
        .ok (stored.filter ((people.map (·.1.serverId)).contains ·.serverId))
      else .ok [] := by
    show (storePeople cipher people table >>= fun table => _) = _
    rw [hstored]
    rfl
  -- an empty list deletes every row
  by_cases hids : people.map (·.1.serverId) ≠ []
  · rw [if_pos hids] at hreplace
    refine ⟨_, hreplace, ?_, ?_⟩
    · intro row hrow
      obtain ⟨hmem, hcontains⟩ := List.mem_filter.mp hrow
      rcases hstores.rows row hmem with hlast | ⟨hnone, -⟩
      · exact hlast
      · exact absurd (List.contains_iff_mem.mp hcontains) (lastEntry_none hnone)
    · intro id person hperson
      obtain ⟨row, hmem, hholds⟩ := hstores.entries id person hperson
      refine ⟨row, List.mem_filter.mpr ⟨hmem, List.contains_iff_mem.mpr ?_⟩, hholds⟩
      have hentry := List.mem_map_of_mem (f := PersonCacheEntry.serverId) (lastEntry_mem hperson)
      rw [List.map_map] at hentry
      rw [hholds.serverId]
      exact hentry
  · rw [if_neg hids] at hreplace
    have hnil : people = [] := List.map_eq_nil_iff.mp (not_not.mp hids)
    subst hnil
    exact ⟨[], hreplace, fun row hrow => absurd hrow List.not_mem_nil,
      fun id person h => (by cases h)⟩

/-- An item of a stored entry with a phone. -/
theorem personItem_ok (hsound : cipher.aes.Sound inUse)
    (huse : InUse inUse (phonePurpose person.serverId)) (hholds : Holds cipher person row)
    (hphone : person.phone ≠ "") : ∃ item, personItem cipher row = .ok item ∧
      item.serverId = row.serverId ∧ item.name = person.name ∧
      item.phone = PyStr.ofString person.phone := by
  obtain ⟨nonce, hnonce⟩ := hholds.phone
  have hne : PyStr.ofString person.phone ≠ [] := by
    intro hnil
    exact hphone (String.toList_eq_nil_iff.mp (List.map_eq_nil_iff.mp hnil))
  have hdecrypt := decrypt_same hsound huse hne hnonce
  rw [← hholds.serverId] at hdecrypt
  have hitem : personItem cipher row = .ok
      { id := row.id, serverId := row.serverId, name := row.name,
        phone := PyStr.ofString person.phone, faceEncodingPath := row.faceEncodingPath,
        syncedAt := row.syncedAt } := by
    show (cipher.decrypt row.phoneEncrypted (phonePurpose row.serverId) >>= _) = _
    rw [hdecrypt]
    rfl
  exact ⟨_, hitem, rfl, hholds.name, rfl⟩

/-- An item of a stored entry without a phone. -/
theorem personItem_error (hsound : cipher.aes.Sound inUse) (hholds : Holds cipher person row)
    (hphone : person.phone = "") :
    personItem cipher row = .error FieldCipher.unauthenticated := by
  obtain ⟨nonce, hnonce⟩ := hholds.phone
  rw [hphone] at hnonce
  have hdecrypt := decrypt_empty (q := phonePurpose row.serverId) hsound hnonce
  show (cipher.decrypt row.phoneEncrypted (phonePurpose row.serverId) >>= _) = _
  rw [hdecrypt]
  rfl

end

/-- A list of rows is read when each of them is. -/
theorem mapM_ok {α β : Type} {f : α → Except CipherError β} {P : β → Prop} {rows : List α}
    (h : ∀ row ∈ rows, ∃ item, f row = .ok item ∧ P item) :
    ∃ items, rows.mapM f = .ok items ∧ ∀ item ∈ items, P item := by
  induction rows with
  | nil => exact ⟨[], rfl, fun item hitem => absurd hitem List.not_mem_nil⟩
  | cons row rows ih =>
    obtain ⟨item, hitem, hP⟩ := h row List.mem_cons_self
    obtain ⟨items, hitems, hall⟩ := ih fun other hother => h other (List.mem_cons_of_mem row hother)
    refine ⟨item :: items, ?_, List.forall_mem_cons.mpr ⟨hP, hall⟩⟩
    rw [List.mapM_cons, hitem, hitems]
    rfl

/-- A loop over the rows raises when one of its turns does. -/
theorem mapM_error {α β : Type} {f : α → Except CipherError β} {error : CipherError}
    {rows : List α} {row : α} {items : List β} (hrow : row ∈ rows) (hf : f row = .error error) :
    rows.mapM f ≠ .ok items := by
  induction rows generalizing items with
  | nil => exact absurd hrow List.not_mem_nil
  | cons first rows ih =>
    rw [List.mapM_cons]
    intro hok
    rcases List.mem_cons.mp hrow with heq | hmem
    · rw [← heq, hf] at hok
      cases hok
    · cases hfirst : f first with
      | error other =>
        rw [hfirst] at hok
        cases hok
      | ok item =>
        cases hrest : rows.mapM f with
        | error other =>
          rw [hfirst, hrest] at hok
          cases hok
        | ok rest => exact ih hmem hrest

/-- Every page of the cache can be listed, with the names and the phones of the batch. -/
def Readable (cipher : FieldCipher) (people : List (PersonCacheEntry × Nonce))
    (stored : List PersonRow) : Prop :=
  ∀ limit offset, ∃ page, listPeople cipher stored limit offset = .ok page ∧
    ∀ item ∈ page.items, ∃ person, lastEntry people item.serverId = some person ∧
      item.name = person.name ∧ item.phone = PyStr.ofString person.phone

/-- The cache is stored, and it can be listed exactly when the last entry of each person has a
phone. -/
theorem readable_iff {cipher : FieldCipher} {people : List (PersonCacheEntry × Nonce)}
    {table : List PersonRow} {inUse : Set (List UInt8)} (hsound : cipher.aes.Sound inUse)
    (huse : ∀ entry ∈ people, InUse inUse (phonePurpose entry.1.serverId)) :
    ∃ stored, replaceCache cipher people table = .ok stored ∧
      (Readable cipher people stored ↔
        ∀ id person, lastEntry people id = some person → person.phone ≠ "") := by
  obtain ⟨stored, hstored, hrows, hentries⟩ := replaceCache_ok cipher people table
  refine ⟨stored, hstored, ?_, ?_⟩
  · intro hreadable id person hperson hphone
    obtain ⟨row, hrow, hholds⟩ := hentries id person hperson
    have herror := personItem_error hsound hholds hphone
    -- a page of the whole table has the row that does not decrypt
    obtain ⟨page, hpage, -⟩ := hreadable stored.length 0
    have hmem : row ∈ ((stored.insertionSort PersonRow.before).drop 0).take stored.length := by
      rw [List.drop_zero, List.take_of_length_le (List.length_insertionSort _ _).le]
      exact (List.mem_insertionSort _).mpr hrow
    cases hitems : (((stored.insertionSort PersonRow.before).drop 0).take stored.length).mapM
        (personItem cipher) with
    | ok items => exact mapM_error hmem herror hitems
    | error error =>
      simp only [listPeople, hitems] at hpage
      cases hpage
  · intro hphones limit offset
    have hitem : ∀ row ∈ ((stored.insertionSort PersonRow.before).drop offset).take limit,
        ∃ item, personItem cipher row = .ok item ∧ ∃ person,
          lastEntry people item.serverId = some person ∧ item.name = person.name ∧
          item.phone = PyStr.ofString person.phone := by
      intro row hrow
      have hmem := (List.mem_insertionSort _).mp
        (List.mem_of_mem_drop (List.mem_of_mem_take hrow))
      obtain ⟨person, hlast, hholds⟩ := hrows row hmem
      obtain ⟨entry, hentry, hperson⟩ := List.mem_map.mp (lastEntry_mem hlast)
      obtain ⟨item, hok, hserver, hname, hphone⟩ := personItem_ok hsound
        (hperson ▸ huse entry hentry) hholds (hphones _ _ hlast)
      exact ⟨item, hok, person, hserver ▸ hlast, hname, hphone⟩
    obtain ⟨items, hitems, hall⟩ := mapM_ok hitem
    refine ⟨{ items, limit, offset, total := stored.length }, ?_, hall⟩
    simp only [listPeople, hitems]
    rfl

/-- A value is readable under its purpose, and under no other, exactly when it is not empty and
can be encoded. The persons cache is readable exactly when no cached phone is empty. -/
theorem field_encryption (cipher : FieldCipher) (inUse : Set (List UInt8))
    (hsound : cipher.aes.Sound inUse) :
    (∀ nonce s p, InUse inUse p →
      (RoundTrips cipher inUse nonce s p ↔ s ≠ [] ∧ HasBytes s ∧ HasBytes p)) ∧
    ∀ people table, (∀ entry ∈ people, InUse inUse (phonePurpose entry.1.serverId)) →
      ∃ stored, replaceCache cipher people table = .ok stored ∧
        (Readable cipher people stored ↔
          ∀ id person, lastEntry people id = some person → person.phone ≠ "") :=
  ⟨fun _ _ _ hp => roundTrips_iff hsound hp, fun _ _ huse => readable_iff hsound huse⟩

/-! ### An authenticated cipher -/

/-- A tag that is the end of the associated data. -/
def tagOf (associated : List UInt8) : List UInt8 :=
  (List.replicate 16 0 ++ associated).drop associated.length

/-- The data in the clear, with its tag behind. -/
def appendTag : Aead where
  encrypt _ data associated := data ++ tagOf associated
  decrypt _ data associated :=
    if data.length < 16 ∨ data.drop (data.length - 16) ≠ tagOf associated then none
    else some (data.take (data.length - 16))

/-- A tag has sixteen bytes. -/
theorem length_tagOf (associated : List UInt8) : (tagOf associated).length = 16 := by
  rw [tagOf, List.length_drop, List.length_append, List.length_replicate]
  omega

/-- The cipher opens what it sealed exactly when the tags agree. -/
theorem appendTag_decrypt (nonce data associated other : List UInt8) :
    appendTag.decrypt nonce (appendTag.encrypt nonce data associated) other =
      if tagOf associated = tagOf other then some data else none := by
  have hlength : (data ++ tagOf associated).length - 16 = data.length := by
    rw [List.length_append, length_tagOf]
    omega
  show (if (data ++ tagOf associated).length < 16 ∨
      (data ++ tagOf associated).drop ((data ++ tagOf associated).length - 16) ≠ tagOf other then
    none else some ((data ++ tagOf associated).take ((data ++ tagOf associated).length - 16))) = _
  rw [hlength, List.drop_left, List.take_left, List.length_append, length_tagOf]
  by_cases htag : tagOf associated = tagOf other
  · rw [if_neg (not_or.mpr ⟨by omega, not_not.mpr htag⟩), if_pos htag]
  · rw [if_pos (Or.inr htag), if_neg htag]

/-- The cipher is sound on associated data with distinct tags. -/
theorem appendTag_sound {inUse : Set (List UInt8)}
    (h : ∀ a ∈ inUse, ∀ b ∈ inUse, tagOf a = tagOf b → a = b) : appendTag.Sound inUse where
  length nonce data associated := by
    rw [appendTag, List.length_append, length_tagOf]
  opens nonce data associated hmem := by
    rw [appendTag_decrypt, if_pos rfl]
  rejects nonce data associated hmem other hother hne := by
    rw [appendTag_decrypt, if_neg fun heq => hne (h _ hmem _ hother heq).symm]

/-- The associated data of the phones of two persons. -/
def twoPhones : Set (List UInt8) :=
  {bytes | (phonePurpose 1).encodeUtf8 = some bytes ∨ (phonePurpose 2).encodeUtf8 = some bytes}

/-- The tags of the two phones are distinct. -/
theorem twoPhones_sound : appendTag.Sound twoPhones := by
  have hne : (phonePurpose 1).encodeUtf8.map tagOf ≠ (phonePurpose 2).encodeUtf8.map tagOf := by
    decide +kernel
  have hdistinct : ∀ a b, (phonePurpose 1).encodeUtf8 = some a →
      (phonePurpose 2).encodeUtf8 = some b → tagOf a ≠ tagOf b := by
    intro a b ha hb heq
    apply hne
    rw [ha, hb, Option.map_some, Option.map_some, heq]
  apply appendTag_sound
  intro a ha b hb htag
  cases ha with
  | inl ha =>
    cases hb with
    | inl hb => exact Option.some.inj (ha.symm.trans hb)
    | inr hb => exact absurd htag (hdistinct a b ha hb)
  | inr ha =>
    cases hb with
    | inl hb => exact absurd htag.symm (hdistinct b a hb ha)
    | inr hb => exact Option.some.inj (ha.symm.trans hb)

/-- `bytes(12)`. -/
def zeros : Nonce := ⟨List.replicate 12 0, rfl⟩

/-- A person whose phone is not known. -/
def phoneless : PersonCacheEntry where
  serverId := 1
  name := "Ada"
  phone := ""
  faceEncodingPath := none
  syncedAt := 0
  nameLength := by decide
  phoneLength := by decide

/-- The two parts of the claim for a phone number and for a person without one. -/
theorem field_encryption_phone :
    (RoundTrips ⟨appendTag⟩ twoPhones zeros (PyStr.ofString "555") (phonePurpose 2) ↔
      PyStr.ofString "555" ≠ [] ∧ HasBytes (PyStr.ofString "555") ∧
        HasBytes (phonePurpose 2)) ∧
    ∃ stored, replaceCache ⟨appendTag⟩ [(phoneless, zeros)] [] = .ok stored ∧
      (Readable ⟨appendTag⟩ [(phoneless, zeros)] stored ↔
        ∀ id person, lastEntry [(phoneless, zeros)] id = some person → person.phone ≠ "") :=
  have h := field_encryption ⟨appendTag⟩ twoPhones twoPhones_sound
  ⟨h.1 zeros (PyStr.ofString "555") (phonePurpose 2) fun _ hbytes => Or.inr hbytes,
    h.2 [(phoneless, zeros)] [] (List.forall_mem_singleton.mpr fun _ hbytes => Or.inl hbytes)⟩

/-- The phone that nobody entered: it is encrypted, and then neither read back nor listed. -/
theorem field_encryption_empty :
    (¬ ∀ (cipher : FieldCipher) (inUse : Set (List UInt8)), cipher.aes.Sound inUse →
      ∀ nonce s p, InUse inUse p → HasBytes s → HasBytes p →
        RoundTrips cipher inUse nonce s p) ∧
    ((⟨appendTag⟩ : FieldCipher).encrypt zeros (PyStr.ofString "") (phonePurpose 1) >>=
      fun encoded => (⟨appendTag⟩ : FieldCipher).decrypt encoded (phonePurpose 1)) =
        .error FieldCipher.unauthenticated ∧
    (replaceCache ⟨appendTag⟩ [(phoneless, zeros)] [] >>= fun stored =>
      listPeople ⟨appendTag⟩ stored 50 0) = .error FieldCipher.unauthenticated := by
  refine ⟨?_, by decide +kernel, rfl⟩
  intro h
  have hroundTrips := h ⟨appendTag⟩ twoPhones twoPhones_sound zeros [] (phonePurpose 1)
    (fun _ hbytes => Or.inl hbytes) (by decide) (hasBytes_ofString _)
  exact ((roundTrips_iff twoPhones_sound fun _ hbytes => Or.inl hbytes).mp hroundTrips).1 rfl

end Rsap.Proofs
