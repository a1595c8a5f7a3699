import Rsap.Desktop.Migrations

/-!
# `Rsap.Proofs.Migrations`: what a run of the migrations leaves

A statement of a migration is `Ordinary` when it neither ends the transaction nor writes
`schema_migrations`. The service ships its own files and does not check this of them. When all
statements are ordinary, everything before `commit` happens in the transaction (`InTransaction`), so
a run that raises leaves the committed database (`Ends`). The rows that a run adds are those of the
files that are not applied (`Through`), and the checks before the loop make the applied rows a
prefix of those of the files (`applied_prefix`).
-/

set_option autoImplicit false

namespace Rsap.Proofs

open Rsap.Desktop

variable {Tables : Type}

/-- The rows of `schema_migrations`. -/
def historyRows (db : SchemaDb Tables) : List HistoryRow :=
  match db.schemaMigrations with
  | some table => table.rows
  | none => []

/-- The row of a file that can be read. -/
def historyRow (sha256 : String → String) (file : MigrationFile) : Option HistoryRow :=
  file.text.map fun sql => ⟨.text file.version, .text (sha256 sql)⟩

/-- The statement stays in the transaction and leaves `schema_migrations`. -/
def Ordinary (sqlite : String → Content Tables → Option (Content Tables)) (statement : String) :
    Prop :=
  ∀ committed db c, sqlite statement ⟨committed, some db⟩ = some c →
    c.committed = committed ∧
      ∃ db', c.transaction = some db' ∧ db'.schemaMigrations = db.schemaMigrations

/-- All statements of the files are ordinary. -/
def OrdinaryFiles (sqlite : String → Content Tables → Option (Content Tables))
    (files : List MigrationFile) : Prop :=
  ∀ file ∈ files, ∀ sql, file.text = some sql → ∀ statement ∈ statements sql,
    Ordinary sqlite statement

/-- The transaction is open, on the committed database `db₀`, and sees the history `table`. -/
structure InTransaction (db₀ : SchemaDb Tables) (table : HistoryTable) (c : Content Tables) :
    Prop where
  committed : c.committed = db₀
  opened : ∃ db, c.transaction = some db ∧ db.schemaMigrations = some table

/-- A run ends with a connection of which `good` holds, or raises with `db₀` committed. -/
def Ends (db₀ : SchemaDb Tables) (good : Connection Tables → Prop) :
    Except (Failure Tables) (Connection Tables) → Prop
  | .ok c => good c
  | .error failure => failure.connection.content.committed = db₀

section Run
variable {faults : Nat → Bool} {sqlite : String → Content Tables → Option (Content Tables)}
  {sha256 : String → String} {db₀ : SchemaDb Tables} {table : HistoryTable}
  {good good' : Connection Tables → Prop}

/-- Runs compose: what raises leaves the committed database, what ends hands on its connection. -/
theorem Ends.bind {x : Except (Failure Tables) (Connection Tables)}
    {f : Connection Tables → Except (Failure Tables) (Connection Tables)}
    (hx : Ends db₀ good x) (hf : ∀ c, good c → Ends db₀ good' (f c)) :
    Ends db₀ good' (x >>= f) := by
  cases x with
  | error failure => exact hx
  | ok c => exact hf c hx

/-- A weaker condition on the connection. -/
theorem Ends.mono {x : Except (Failure Tables) (Connection Tables)} (hx : Ends db₀ good x)
    (h : ∀ c, good c → good' c) : Ends db₀ good' x := by
  cases x with
  | error failure => exact hx
  | ok c => exact h c hx

/-- One statement: it may fail, and the committed database is as before. -/
theorem execute_ends {c : Connection Tables}
    {statement : Content Tables → Option (Content Tables)} (hc : c.content.committed = db₀)
    (h : ∀ c', statement c.content = some c'.content → good c') :
    Ends db₀ good (c.execute faults statement) := by
  unfold Connection.execute
  split
  · exact hc
  · split
    · exact h _ ‹_›
    · exact hc

/-! ### The files -/

/-- The ordinary statements of a file stay in the transaction. -/
theorem applyStatements_ends {rest : List String} (hrest : ∀ s ∈ rest, Ordinary sqlite s)
    {c : Connection Tables} (hc : InTransaction db₀ table c.content) :
    Ends db₀ (fun c' => InTransaction db₀ table c'.content)
      (applyStatements faults sqlite rest c) := by
  induction rest generalizing c with
  | nil => exact hc
  | cons statement rest ih =>
    refine (execute_ends hc.committed fun c' hrun => ?_).bind fun c' =>
      ih fun s hs => hrest s (List.mem_cons_of_mem _ hs)
    obtain ⟨hcommitted, db, hdb, htable⟩ := hc
    rw [show c.content = ⟨c.content.committed, some db⟩ by rw [← hdb]] at hrun
    obtain ⟨hcommitted', db', hdb', htable'⟩ := hrest statement List.mem_cons_self _ db _ hrun
    exact ⟨hcommitted'.trans hcommitted, db', hdb', htable'.trans htable⟩

/-- The row of a file is inserted in the transaction. -/
theorem insertVersion_ends {c : Connection Tables} (hc : InTransaction db₀ table c.content)
    (version checksum : String) :
    Ends db₀ (fun c' => InTransaction db₀
        { table with rows := table.rows ++ [⟨.text version, .text checksum⟩] } c'.content)
      (c.execute faults (·.insertVersion version checksum)) := by
  refine execute_ends hc.committed fun c' hrun => ?_
  obtain ⟨hcommitted, db, hdb, htable⟩ := hc
  have hcurrent : c.content.current = db := by simp [Content.current, hdb]
  simp only [Content.insertVersion, hcurrent, htable, Option.bind_some] at hrun
  split at hrun
  · cases hrun
  · rw [← Option.some.inj hrun]
    simp only [Content.write, hdb]
    exact ⟨hcommitted, _, rfl, rfl⟩

/-- No applied row has the version of the row. -/
def Fresh (applied : List HistoryRow) (row : HistoryRow) : Bool :=
  (applied.find? (·.version = row.version)).isNone

/-- The loop got through the files: each could be read, the applied ones with their checksum, and
the history got the rows of the others. -/
structure Through (sha256 : String → String) (applied : List HistoryRow)
    (files : List MigrationFile) (db₀ : SchemaDb Tables) (table : HistoryTable)
    (rows : List HistoryRow) (c : Connection Tables) : Prop where
  readable : files.map (historyRow sha256) = rows.map some
  agrees : ∀ row ∈ rows, ∀ row' ∈ applied.find? (·.version = row.version), row' = row
  transaction : InTransaction db₀ { table with rows := table.rows ++ rows.filter (Fresh applied) }
    c.content

/-- The loop over the files ends in the transaction with the rows of the files, or raises. -/
theorem applyMigrations_ends {applied : List HistoryRow} {files : List MigrationFile}
    (hfiles : OrdinaryFiles sqlite files) {c : Connection Tables}
    (hc : InTransaction db₀ table c.content) :
    Ends db₀ (fun c' => ∃ rows, Through sha256 applied files db₀ table rows c')
      (applyMigrations faults sqlite sha256 applied files c) := by
  induction files generalizing c table with
  | nil =>
    refine ⟨[], rfl, by simp, ?_⟩
    simpa using hc
  | cons file files ih =>
    have hrest : OrdinaryFiles sqlite files := fun f hf => hfiles f (List.mem_cons_of_mem _ hf)
    -- what holds after the rest holds after the file and the rest
    have hcons : ∀ {sql : String} {table' : HistoryTable} {c' : Connection Tables},
        file.text = some sql →
        (∀ row' ∈ applied.find? (·.version = .text file.version),
          row' = ⟨.text file.version, .text (sha256 sql)⟩) →
        { table with rows := table.rows ++
          [⟨.text file.version, .text (sha256 sql)⟩].filter (Fresh applied) } = table' →
        (∃ rows, Through sha256 applied files db₀ table' rows c') →
        ∃ rows, Through sha256 applied (file :: files) db₀ table rows c' := by
      rintro sql _ c' htext hagrees rfl ⟨rows, hrows⟩
      refine ⟨⟨.text file.version, .text (sha256 sql)⟩ :: rows, ?_, ?_, ?_⟩
      · simp [historyRow, htext, hrows.readable]
      · intro row hrow
        rcases List.mem_cons.mp hrow with rfl | hmem
        · exact hagrees
        · exact hrows.agrees row hmem
      · rw [← List.singleton_append, List.filter_append, ← List.append_assoc]
        exact hrows.transaction
    unfold applyMigrations
    split
    · exact hc.committed
    · rename_i sql htext
      split
      · rename_i row hrow
        split
        · exact hc.committed
        · rename_i hchecksum
          -- an applied file
          have hversion : row.version = .text file.version := by simpa using List.find?_some hrow
          have hagrees : row = ⟨.text file.version, .text (sha256 sql)⟩ := by
            rw [← hversion, ← not_not.mp hchecksum]
          refine (ih hrest hc).mono fun c' => hcons htext ?_ ?_
          · intro row' hrow'
            rw [hrow] at hrow'
            rw [← Option.some.inj hrow', hagrees]
          · simp [Fresh, hrow]
      · rename_i hnone
        -- a file that is not applied
        refine (applyStatements_ends (hfiles file List.mem_cons_self sql htext) hc).bind
          fun c₁ hc₁ => (insertVersion_ends hc₁ _ _).bind fun c₂ hc₂ => ?_
        refine (ih hrest hc₂).mono fun c' => hcons htext (by simp [hnone]) ?_
        simp [Fresh, hnone]

/-! ### The history before the loop -/

/-- The version column of the rows of the files. -/
theorem versions_of_readable {files : List MigrationFile} {rows : List HistoryRow}
    (h : files.map (historyRow sha256) = rows.map some) :
    rows.map (·.version) = files.map (.text ·.version) := by
  induction files generalizing rows with
  | nil => simp_all
  | cons file files ih =>
    cases rows with
    | nil => cases h
    | cons row rows =>
      simp only [List.map_cons, List.cons.injEq] at h ⊢
      refine ⟨?_, ih h.2⟩
      obtain ⟨sql, -, rfl⟩ := Option.map_eq_some_iff.mp h.1
      rfl

/-- Applied rows whose versions are the first ones of the files, and which agree with the rows of
the files, are the first rows of the files. The others are the rows that are not applied. -/
theorem applied_prefix {applied rows : List HistoryRow}
    (hnodup : (rows.map (·.version)).Nodup)
    (hversions : applied.map (·.version) = (rows.map (·.version)).take applied.length)
    (hagrees : ∀ row ∈ rows, ∀ row' ∈ applied.find? (·.version = row.version), row' = row) :
    applied = rows.take applied.length ∧
      rows.filter (Fresh applied) = rows.drop applied.length := by
  have hsub : (rows.take applied.length).map (·.version) = applied.map (·.version) := by
    rw [hversions, List.map_take]
  have hnodup' : (applied.map (·.version)).Nodup := by
    rw [hversions]
    exact hnodup.sublist (List.take_sublist _ _)
  -- the applied row of a version is the row of the file
  have hfound : ∀ a ∈ applied, ∀ row ∈ rows, row.version = a.version → a = row := by
    intro a ha row hrow hversion
    obtain ⟨row', hrow'⟩ := Option.isSome_iff_exists.mp
      ((List.find?_isSome (p := (·.version = row.version))).mpr
        ⟨a, ha, decide_eq_true hversion.symm⟩)
    have hsame : row'.version = row.version := by simpa using List.find?_some hrow'
    have ha' : a = row' := List.inj_on_of_nodup_map hnodup' ha (List.mem_of_find?_eq_some hrow')
      (hversion.symm.trans hsame.symm)
    exact ha'.trans (hagrees row hrow row' hrow')
  have happlied : applied = rows.take applied.length := by
    refine List.ext_getElem? fun i => ?_
    have hi := congrArg (·[i]?) hsub
    simp only [List.getElem?_map] at hi
    cases hr : (rows.take applied.length)[i]? with
    | none =>
      rw [hr] at hi
      exact Option.map_eq_none_iff.mp hi.symm
    | some row =>
      rw [hr] at hi
      obtain ⟨a, ha, hversion⟩ := Option.map_eq_some_iff.mp hi.symm
      rw [ha, hfound a (List.mem_of_getElem? ha) row
        (List.mem_of_mem_take (List.mem_of_getElem? hr)) hversion.symm]
  refine ⟨happlied, ?_⟩
  have hsplit := List.take_append_drop applied.length rows
  rw [← hsplit, List.map_append] at hnodup
  calc rows.filter (Fresh applied)
      = (rows.take applied.length).filter (Fresh applied) ++
          (rows.drop applied.length).filter (Fresh applied) := by
        rw [← List.filter_append, hsplit]
    _ = [] ++ rows.drop applied.length := ?_
    _ = rows.drop applied.length := rfl
  congr 1
  · refine List.filter_eq_nil_iff.mpr fun row hrow => ?_
    rw [← happlied] at hrow
    simp only [Fresh, Option.isNone_iff_eq_none, List.find?_eq_none, not_forall]
    exact ⟨row, hrow, by simp⟩
  · refine List.filter_eq_self.mpr fun row hrow => ?_
    simp only [Fresh, Option.isNone_iff_eq_none, List.find?_eq_none, decide_eq_true_eq]
    intro a ha hversion
    rw [happlied] at ha
    exact (List.nodup_append.mp hnodup).2.2 _ (List.mem_map_of_mem ha) _
      (List.mem_map_of_mem hrow) hversion

/-- The checked history is a beginning of the files. -/
theorem checkHistory_none {known applied : List Cell} (h : checkHistory known applied = none) :
    applied = known.take applied.length := by
  unfold checkHistory at h
  split at h
  · cases h
  · split at h
    · cases h
    · split at h
      · cases h
      · exact not_not.mp ‹_›

/-! ### The transaction -/

/-- The versions are `0001`, `0002` and so on. -/
structure Contiguous (migrations : List MigrationFile) : Prop where
  nonempty : migrations ≠ []
  versions : migrations.map MigrationFile.version =
    (List.range' 1 migrations.length).map fourDigits
  nodup : (migrations.map MigrationFile.version).Nodup

/-- The checked files are numbered without gaps. -/
theorem checkShipped_none {migrations : List MigrationFile}
    (h : checkShipped migrations = none) : Contiguous migrations := by
  unfold checkShipped at h
  dsimp only at h
  split at h
  · cases h
  · split at h
    · cases h
    · split at h
      · cases h
      · rename_i hnonempty hnodup hversions
        rw [List.length_map] at hversions
        exact ⟨hnonempty, not_not.mp hversions, not_not.mp hnodup⟩

/-- From the history of `db` to the one of `db'`: the files could be read, the first history is that
of the first files, and the second one that of all files. -/
def Extended (sha256 : String → String) (migrations : List MigrationFile)
    (db db' : SchemaDb Tables) : Prop :=
  ∃ rows, migrations.map (historyRow sha256) = rows.map some ∧
    (∃ applied, (historyRows db).Perm (rows.take applied)) ∧ (historyRows db').Perm rows

/-- The content after `BEGIN` and `CREATE TABLE`. -/
def prepared (db : SchemaDb Tables) : Content Tables :=
  ⟨db, some { db with schemaMigrations := some (db.schemaMigrations.getD ⟨true, []⟩) }⟩

/-- After `BEGIN` and `CREATE TABLE` the transaction is open, with the history there was. -/
theorem prepared_transaction (db : SchemaDb Tables) :
    InTransaction db (db.schemaMigrations.getD ⟨true, []⟩) (prepared db) := ⟨rfl, _, rfl, rfl⟩

/-- Without a table the history is empty. -/
theorem prepared_rows (db : SchemaDb Tables) :
    (db.schemaMigrations.getD ⟨true, []⟩).rows = historyRows db := by
  unfold historyRows
  cases db.schemaMigrations <;> rfl

/-- The applied rows are those of the history, sorted. -/
theorem prepared_applied (db : SchemaDb Tables) :
    (prepared db).appliedRows.Perm (historyRows db) := by
  rw [← prepared_rows]
  exact List.perm_insertionSort _ _

/-- The statements before the checks of the history, and the checks. -/
theorem migrateBody_ends {migrations : List MigrationFile} {db : SchemaDb Tables}
    (hloop : ∀ c : Connection Tables, c.content = prepared db →
      checkHistory (migrations.map (.text ·.version))
        ((prepared db).appliedRows.map (·.version)) = none →
      Ends db good (applyMigrations faults sqlite sha256 (prepared db).appliedRows migrations c))
    (hcommit : ∀ c, good c → c.content.committed = db)
    (n : Nat) : Ends db (fun c' => ∃ c, good c ∧ c'.content = c.content.commit)
      (migrateBody faults sqlite sha256 migrations ⟨⟨db, none⟩, n⟩) := by
  -- the statements of the body, each of which may raise and roll back
  have hbegin : Ends db (fun c => c.content = ⟨db, some db⟩)
      (Connection.execute faults ⟨⟨db, none⟩, n⟩ (·.beginExclusive)) :=
    execute_ends rfl fun c' hrun => (Option.some.inj hrun).symm
  have hcreate : ∀ c : Connection Tables, c.content = ⟨db, some db⟩ →
      Ends db (fun c => c.content = prepared db) (c.execute faults (·.createHistory)) := by
    intro c hc
    refine execute_ends (by rw [hc]) fun c' hrun => ?_
    rw [hc] at hrun
    exact (Option.some.inj hrun).symm
  have hselect : ∀ c : Connection Tables, c.content = prepared db →
      Ends db (fun c => c.content = prepared db) (c.execute faults some) := by
    intro c hc
    refine execute_ends (by rw [hc]; rfl) fun c' hrun => ?_
    exact (Option.some.inj hrun).symm.trans hc
  refine hbegin.bind fun c hc => (hcreate c hc).bind fun c hc => (hselect c hc).bind fun c hc => ?_
  rw [hc]
  dsimp only
  -- the history does not fit the files, or the loop over them runs
  split
  · show c.content.committed = db
    rw [hc]
    rfl
  · rename_i hnone
    refine (hloop c hc hnone).bind fun c₁ hc₁ => ?_
    refine execute_ends (hcommit c₁ hc₁) fun c₂ hrun => ?_
    exact ⟨c₁, hc₁, (Option.some.inj hrun).symm⟩

/-- The whole body commits the history extended by the rows of the new files, or raises. -/
theorem migrateBody_extends {migrations : List MigrationFile}
    (hfiles : OrdinaryFiles sqlite migrations)
    (hnodup : (migrations.map MigrationFile.version).Nodup) (db : SchemaDb Tables) (n : Nat) :
    Ends db (fun c' => c'.content.transaction = none ∧
        Extended sha256 migrations db c'.content.committed)
      (migrateBody faults sqlite sha256 migrations ⟨⟨db, none⟩, n⟩) := by
  -- the loop goes through every file
  have hloop : ∀ c : Connection Tables, c.content = prepared db →
      checkHistory (migrations.map (.text ·.version))
        ((prepared db).appliedRows.map (·.version)) = none →
      Ends db (fun c' => ∃ rows, Through sha256 (prepared db).appliedRows migrations db
          (db.schemaMigrations.getD ⟨true, []⟩) rows c' ∧
          checkHistory (migrations.map (.text ·.version))
            ((prepared db).appliedRows.map (·.version)) = none)
        (applyMigrations faults sqlite sha256 (prepared db).appliedRows migrations c) := by
    intro c hc hcheck
    refine (applyMigrations_ends hfiles (hc ▸ prepared_transaction db)).mono ?_
    rintro c' ⟨rows, hrows⟩
    exact ⟨rows, hrows, hcheck⟩
  refine (migrateBody_ends hloop ?_ n).mono ?_
  · rintro c ⟨rows, hrows, -⟩
    exact hrows.transaction.committed
  · rintro c' ⟨c, ⟨rows, hrows, hcheck⟩, hcommit⟩
    rw [hcommit]
    refine ⟨rfl, rows, hrows.readable, ?_⟩
    have hversions := versions_of_readable hrows.readable
    -- the history has each version once
    have htexts : (rows.map (·.version)).Nodup := by
      rw [hversions]
      have htext : Function.Injective Cell.text := fun _ _ h => Cell.text.inj h
      have := hnodup.map htext
      rwa [List.map_map] at this
    have happlied := checkHistory_none hcheck
    rw [List.length_map, ← hversions] at happlied
    obtain ⟨htake, hfresh⟩ := applied_prefix htexts happlied hrows.agrees
    -- the rows that were there are the first ones of the new history
    have hperm : (historyRows db).Perm (rows.take (prepared db).appliedRows.length) := by
      rw [← htake]
      exact (prepared_applied db).symm
    refine ⟨⟨_, hperm⟩, ?_⟩
    obtain ⟨-, db', hdb', htable⟩ := hrows.transaction
    -- and the new ones were added behind them
    have hrows' : historyRows c.content.commit.committed =
        historyRows db ++ rows.drop (prepared db).appliedRows.length := by
      have hcurrent : c.content.commit.committed = db' := by
        show c.content.current = db'
        rw [Content.current, hdb']
        rfl
      rw [hcurrent, ← hfresh, ← prepared_rows db]
      unfold historyRows
      rw [htable]
    rw [hrows']
    refine (hperm.append_right _).trans ?_
    rw [List.take_append_drop]

/-- When every file is applied the loop executes nothing. -/
theorem applyMigrations_applied {applied : List HistoryRow} {files : List MigrationFile}
    (hall : ∀ file ∈ files, ∃ row ∈ applied, row.version = .text file.version)
    {c : Connection Tables} (hc : c.content.committed = db₀) :
    Ends db₀ (· = c) (applyMigrations faults sqlite sha256 applied files c) := by
  induction files with
  | nil => rfl
  | cons file files ih =>
    unfold applyMigrations
    split
    · exact hc
    · split
      · split
        · exact hc
        · exact ih fun f hf => hall f (List.mem_cons_of_mem _ hf)
      · rename_i hnone
        obtain ⟨row, hrow, hversion⟩ := hall file List.mem_cons_self
        exact absurd (decide_eq_true hversion) (List.find?_eq_none.mp hnone row hrow)

/-- A run on a database with the history of all files changes nothing. -/
theorem migrateBody_again {migrations : List MigrationFile} {db : SchemaDb Tables}
    (hsome : db.schemaMigrations ≠ none)
    (hall : ∀ file ∈ migrations, ∃ row ∈ historyRows db, row.version = .text file.version)
    (n : Nat) : Ends db (fun c' => c'.content.committed = db)
      (migrateBody faults sqlite sha256 migrations ⟨⟨db, none⟩, n⟩) := by
  -- every version is applied, so the loop changes nothing
  have hloop : ∀ c : Connection Tables, c.content = prepared db →
      checkHistory (migrations.map (.text ·.version))
        ((prepared db).appliedRows.map (·.version)) = none →
      Ends db (fun c' => c'.content = prepared db)
        (applyMigrations faults sqlite sha256 (prepared db).appliedRows migrations c) := by
    intro c hc _
    refine (applyMigrations_applied (fun file hfile => ?_) (hc ▸ rfl)).mono fun c' hc' => hc' ▸ hc
    obtain ⟨row, hrow, hversion⟩ := hall file hfile
    exact ⟨row, (prepared_applied db).mem_iff.mpr hrow, hversion⟩
  refine (migrateBody_ends hloop ?_ n).mono ?_
  · intro c hc
    rw [hc]
    rfl
  · rintro c' ⟨c, hc, hcommit⟩
    rw [hcommit, hc]
    obtain ⟨table, htable⟩ := Option.ne_none_iff_exists'.mp hsome
    show ({ db with schemaMigrations := _ } : SchemaDb Tables) = db
    rw [htable]
    show ({ db with schemaMigrations := some table } : SchemaDb Tables) = db
    rw [← htable]

/-! ### `_migrate_sync` -/

/-- The outcome of a run in terms of its `try` block. -/
theorem migrateSync_cases {directory : List MigrationFile} {db : SchemaDb Tables}
    (good : SchemaDb Tables → Prop)
    (hbody : Contiguous (shippedMigrations directory) →
      Ends db (fun c' => good c'.content.committed)
        (migrateBody faults sqlite sha256 (shippedMigrations directory) ⟨⟨db, none⟩, 1⟩)) :
    ((migrateSync faults sqlite sha256 directory db).1 = .ok () →
      Contiguous (shippedMigrations directory) ∧
        good (migrateSync faults sqlite sha256 directory db).2) ∧
    ∀ e, (migrateSync faults sqlite sha256 directory db).1 = .error e →
      (migrateSync faults sqlite sha256 directory db).2 = db := by
  -- the files may be refused before the database is opened
  unfold migrateSync
  dsimp only
  split
  · exact ⟨by simp, fun _ _ => rfl⟩
  · rename_i hshipped
    have hcontiguous := checkShipped_none hshipped
    have hends := hbody hcontiguous
    split
    · exact ⟨by simp, fun _ _ => rfl⟩
    · split
      · rename_i c hrun
        rw [hrun] at hends
        exact ⟨fun _ => ⟨hcontiguous, hends⟩, by simp⟩
      · rename_i hrun
        rw [hrun] at hends
        exact ⟨by simp, fun _ _ => hends⟩

/-- Afterwards every file has its row. -/
theorem Extended.all_applied {migrations : List MigrationFile} {db db' : SchemaDb Tables}
    (h : Extended sha256 migrations db db') :
    ∀ file ∈ migrations, ∃ row ∈ historyRows db', row.version = .text file.version := by
  obtain ⟨rows, hreadable, -, hperm⟩ := h
  intro file hfile
  have hversion : Cell.text file.version ∈ rows.map (·.version) := by
    rw [versions_of_readable hreadable]
    exact List.mem_map_of_mem hfile
  obtain ⟨row, hrow, heq⟩ := List.mem_map.mp hversion
  exact ⟨row, hperm.mem_iff.mpr hrow, heq⟩

/-- When the statements of the files are ordinary, a run that returns found contiguous files and the
history of the first ones, and leaves the history of all; a second run changes nothing. A run that
raises leaves the database. -/
theorem migrateSync_atomic {directory : List MigrationFile} {db db' : SchemaDb Tables}
    {outcome : Except MigrationError Unit}
    (hfiles : OrdinaryFiles sqlite (shippedMigrations directory))
    (hrun : migrateSync faults sqlite sha256 directory db = (outcome, db')) :
    (outcome = .ok () →
      Contiguous (shippedMigrations directory) ∧
      Extended sha256 (shippedMigrations directory) db db' ∧
      ∀ faults', (migrateSync faults' sqlite sha256 directory db').2 = db') ∧
    ∀ e, outcome = .error e → db' = db := by
  have hbody : Contiguous (shippedMigrations directory) →
      Ends db (fun c' => Extended sha256 (shippedMigrations directory) db c'.content.committed)
        (migrateBody faults sqlite sha256 (shippedMigrations directory) ⟨⟨db, none⟩, 1⟩) :=
    fun hcontiguous =>
      (migrateBody_extends hfiles hcontiguous.nodup db 1).mono fun _ h => h.2
  have hcases := migrateSync_cases (Extended sha256 (shippedMigrations directory) db) hbody
  rw [hrun] at hcases
  refine ⟨fun hok => ?_, hcases.2⟩
  obtain ⟨hcontiguous, hextended⟩ := hcases.1 hok
  refine ⟨hcontiguous, hextended, fun faults' => ?_⟩
  have hall := hextended.all_applied
  have hsome : db'.schemaMigrations ≠ none := by
    intro hnone
    obtain ⟨file, hfile⟩ := List.exists_mem_of_ne_nil _ hcontiguous.nonempty
    obtain ⟨row, hrow, -⟩ := hall file hfile
    simp [historyRows, hnone] at hrow
  -- the second run ends with the same database when it returns, and when it raises
  have hbody' : Contiguous (shippedMigrations directory) →
      Ends db' (fun c' => c'.content.committed = db')
        (migrateBody faults' sqlite sha256 (shippedMigrations directory) ⟨⟨db', none⟩, 1⟩) :=
    fun _ => migrateBody_again hsome hall 1
  have hagain := migrateSync_cases (· = db') hbody'
  cases houtcome : (migrateSync faults' sqlite sha256 directory db').1 with
  | ok u => exact (hagain.1 houtcome).2
  | error e => exact hagain.2 e houtcome

end Run

/-! ### Runs -/

/-- The SHA-256 of the texts below. -/
def textDigest (sql : String) : String :=
  if sql = "CREATE TABLE t(x);" then
    "9a6aa16eb38692e3d9c12d9b8dd8b5ac33dc51441ff6386543635b1f165b0827"
  else if sql = "COMMIT" then
    "79663c1d3b43ceaf9ee728e501c64b57ae2e4d6cb36ff5c65eddcda1de27342f"
  else if sql = "DELETE FROM schema_migrations" then
    "2b53d17f73d67f9ad0bc882ac4c4ecd2ad9ed95db372964c2b656fe9cd6dfd0f"
  else ""

/-- What SQLite does with the statements below, where the tables are a list of names. -/
def smallSqlite (statement : String) (c : Content (List String)) :
    Option (Content (List String)) :=
  if statement = "CREATE TABLE t(x)" then
    if "t" ∈ c.current.tables then none
    else some (c.write { c.current with tables := c.current.tables ++ ["t"] })
  else if statement = "COMMIT" then
    if c.transaction = none then none else some c.commit
  else if statement = "DELETE FROM schema_migrations" then
    c.current.schemaMigrations.map fun table =>
      c.write { c.current with schemaMigrations := some { table with rows := [] } }
  else none

def emptyDb : SchemaDb (List String) := ⟨none, []⟩

/-- One ordinary migration. -/
def tableDirectory : List MigrationFile := [⟨"0001_initial.sql", some "CREATE TABLE t(x);"⟩]

/-- The statements of the sample directory are ordinary. -/
theorem tableDirectory_ordinary : OrdinaryFiles smallSqlite (shippedMigrations tableDirectory) := by
  have hshipped : shippedMigrations tableDirectory = tableDirectory := by decide +kernel
  have hstatements : statements "CREATE TABLE t(x);" = ["CREATE TABLE t(x)"] := by decide +kernel
  rw [hshipped]
  intro file hfile sql hsql statement hstatement committed db c hrun
  rw [List.mem_singleton.mp hfile] at hsql
  rw [← Option.some.inj hsql, hstatements] at hstatement
  rw [List.mem_singleton.mp hstatement] at hrun
  simp only [smallSqlite, if_true] at hrun
  split at hrun
  · cases hrun
  · rw [← Option.some.inj hrun]
    exact ⟨rfl, _, rfl, rfl⟩

/-- The first start of a service with one file. -/
theorem first_start : Contiguous (shippedMigrations tableDirectory) ∧
    Extended textDigest (shippedMigrations tableDirectory) emptyDb
      ⟨some ⟨true, [⟨.text "0001", .text (textDigest "CREATE TABLE t(x);")⟩]⟩, ["t"]⟩ := by
  have hrun : migrateSync (fun _ => false) smallSqlite textDigest tableDirectory emptyDb =
      (.ok (), ⟨some ⟨true, [⟨.text "0001", .text (textDigest "CREATE TABLE t(x);")⟩]⟩,
        ["t"]⟩) := by decide +kernel
  have h := (migrateSync_atomic tableDirectory_ordinary hrun).1 rfl
  exact ⟨h.1, h.2.1⟩

/-- A migration ends the transaction, and the next one is not valid SQL. -/
def committingDirectory : List MigrationFile :=
  [⟨"0001_commit.sql", some "COMMIT"⟩, ⟨"0002_select.sql", some "SELECT"⟩]

/-- A migration deletes the history. -/
def deletingDirectory : List MigrationFile :=
  [⟨"0001_initial.sql", some "CREATE TABLE t(x);"⟩,
    ⟨"0002_delete.sql", some "DELETE FROM schema_migrations"⟩]

/-- The first run raises and leaves a table, and the second one returns without the first row. -/
theorem unordinary_runs :
    (migrateSync (fun _ => false) smallSqlite textDigest committingDirectory emptyDb).1 =
      .error .driver ∧
    (migrateSync (fun _ => false) smallSqlite textDigest committingDirectory emptyDb).2 ≠ emptyDb ∧
    (migrateSync (fun _ => false) smallSqlite textDigest deletingDirectory emptyDb).1 = .ok () ∧
    (historyRows (migrateSync (fun _ => false) smallSqlite textDigest deletingDirectory
      emptyDb).2).map (·.version) = [.text "0002"] := by
  refine ⟨?_, ?_, ?_, ?_⟩ <;> decide +kernel

end Rsap.Proofs
