import Mathlib.Data.List.Nodup
import Mathlib.Data.List.Sort

/-!
# `Rsap.Desktop.Migrations`: `Database._migrate_sync`

The desktop service applies the SQL files of its directory `migrations` in one exclusive transaction
(`app/database.py`). Each applied file has a row in `schema_migrations` with its version and the
checksum of its text.

`Content` is what SQLite keeps: the committed database, and the database that the open transaction
sees. Outside a transaction a statement commits at once. What `execute` does with a statement of a
migration is a parameter `sqlite`, and so is `sha256`. `faults n` says that the statement number `n`
of the run raises, where number 0 is `connect`. The columns of `schema_migrations` have the affinity
`TEXT`. The table can lack its primary key when it was made by somebody else. `applied_at` is left
out, since nothing reads it.
-/

set_option autoImplicit false

namespace Rsap.Desktop

/-- A value in a column of the affinity `TEXT`. -/
inductive Cell where
  | null
  | text (s : String)
  | blob (bytes : List UInt8)
  deriving DecidableEq

/-- The order of `ORDER BY`: `NULL` first, then texts, then blobs. -/
def Cell.le : Cell → Cell → Bool
  | .null, _ => true
  | .text _, .null => false
  | .text s, .text s' => decide (s ≤ s')
  | .text _, .blob _ => true
  | .blob bytes, .blob bytes' => decide (bytes ≤ bytes')
  | .blob _, _ => false

/-- A row of `schema_migrations`. -/
structure HistoryRow where
  version : Cell
  checksum : Cell
  deriving DecidableEq

structure HistoryTable where
  primaryKey : Bool
  rows : List HistoryRow
  deriving DecidableEq

/-- The tables of the database. -/
structure SchemaDb (Tables : Type) where
  schemaMigrations : Option HistoryTable
  tables : Tables
  deriving DecidableEq

/-- The committed database and the open transaction. -/
structure Content (Tables : Type) where
  committed : SchemaDb Tables
  transaction : Option (SchemaDb Tables)
  deriving DecidableEq

namespace Content

variable {Tables : Type}

/-- What the connection sees. -/
def current (c : Content Tables) : SchemaDb Tables := c.transaction.getD c.committed

/-- A statement that leaves the database `db`. -/
def write (c : Content Tables) (db : SchemaDb Tables) : Content Tables :=
  match c.transaction with
  | some _ => { c with transaction := some db }
  -- outside a transaction each statement commits
  | none => { c with committed := db }

/-- `BEGIN EXCLUSIVE`. -/
def beginExclusive (c : Content Tables) : Option (Content Tables) :=
  match c.transaction with
  | some _ => none
  | none => some { c with transaction := some c.committed }

/-- `CREATE TABLE IF NOT EXISTS schema_migrations`. -/
def createHistory (c : Content Tables) : Option (Content Tables) :=
  some (c.write { c.current with
    schemaMigrations := some (c.current.schemaMigrations.getD ⟨true, []⟩) })

/-- `SELECT version, checksum FROM schema_migrations ORDER BY version`. -/
def appliedRows (c : Content Tables) : List HistoryRow :=
  match c.current.schemaMigrations with
  | some table => table.rows.insertionSort fun row row' => row.version.le row'.version
  | none => []

/-- `INSERT INTO schema_migrations`. -/
def insertVersion (version checksum : String) (c : Content Tables) : Option (Content Tables) :=
  c.current.schemaMigrations.bind fun table =>
    if table.primaryKey ∧ .text version ∈ table.rows.map (·.version) then none
    else some (c.write { c.current with
      schemaMigrations :=
        some { table with rows := table.rows ++ [⟨.text version, .text checksum⟩] } })

def commit (c : Content Tables) : Content Tables := ⟨c.current, none⟩

def rollback (c : Content Tables) : Content Tables := { c with transaction := none }

end Content

/-! ### The shipped files -/

/-- A file of the directory. `text` is `none` when `read_text` raises. -/
structure MigrationFile where
  name : String
  text : Option String
  deriving DecidableEq

/-- `[0-9][0-9][0-9][0-9]_*.sql`. -/
def MigrationFile.matches (file : MigrationFile) : Bool :=
  match file.name.toList with
  | a :: b :: c :: d :: '_' :: rest =>
    [a, b, c, d].all Char.isDigit && ".sql".toList.isSuffixOf rest
  | _ => false

/-- `migration.name.split("_", 1)[0]`. -/
def MigrationFile.version (file : MigrationFile) : String :=
  String.ofList (file.name.toList.takeWhile (· ≠ '_'))

/-- `f"{value:04d}"`. -/
def fourDigits (value : Nat) : String :=
  String.ofList ((Nat.toDigits 10 value).leftpad 4 '0')

/-- `str.isspace` of a character. -/
def isSpace (c : Char) : Bool :=
  let n := c.toNat
  (9 ≤ n && n ≤ 13) || (28 ≤ n && n ≤ 32) || n == 0x85 || n == 0xa0 || n == 0x1680 ||
    (0x2000 ≤ n && n ≤ 0x200a) || n == 0x2028 || n == 0x2029 || n == 0x202f || n == 0x205f ||
    n == 0x3000

/-- `part.strip() for part in sql.split(";")`, without the empty ones. -/
def statements (sql : String) : List String :=
  let strip (part : List Char) := (part.dropWhile isSpace).reverse.dropWhile isSpace |>.reverse
  ((sql.toList.splitOn ';').map strip).filter (· ≠ []) |>.map String.ofList

/-- What `_migrate_sync` raises. -/
inductive MigrationError where
  | noMigrations
  | duplicateVersions
  | notContiguous
  | duplicateApplied
  | unknownApplied (versions : List Cell)
  | gap
  | checksumChanged (version : String)
  | unreadable (name : String)
  | driver
  deriving DecidableEq

/-- `sorted(migrations_dir.glob(…))`. -/
def shippedMigrations (directory : List MigrationFile) : List MigrationFile :=
  (directory.filter MigrationFile.matches).insertionSort fun file file' => file.name ≤ file'.name

/-- The checks of the files, before `connect`. -/
def checkShipped (migrations : List MigrationFile) : Option MigrationError :=
  let knownVersions := migrations.map MigrationFile.version
  if migrations = [] then some .noMigrations
  else if ¬ knownVersions.Nodup then some .duplicateVersions
  else if knownVersions ≠ (List.range' 1 knownVersions.length).map fourDigits then
    some .notContiguous
  else none

/-- The checks of the history against the versions of the files. -/
def checkHistory (knownVersions : List Cell) (appliedVersions : List Cell) :
    Option MigrationError :=
  if ¬ appliedVersions.Nodup then some .duplicateApplied
  else if ∃ version ∈ appliedVersions, version ∉ knownVersions then
    some (.unknownApplied (appliedVersions.filter (· ∉ knownVersions)))
  else if appliedVersions ≠ knownVersions.take appliedVersions.length then some .gap
  else none

/-! ### The run -/

/-- A connection, with the number of statements that were executed. -/
structure Connection (Tables : Type) where
  content : Content Tables
  executed : Nat

/-- What was raised, and the connection then. -/
structure Failure (Tables : Type) where
  error : MigrationError
  connection : Connection Tables

section Run
variable {Tables : Type} (faults : Nat → Bool)

/-- `connection.execute`. -/
def Connection.execute (c : Connection Tables)
    (statement : Content Tables → Option (Content Tables)) :
    Except (Failure Tables) (Connection Tables) :=
  let executed := c.executed + 1
  if faults c.executed then .error ⟨.driver, { c with executed }⟩
  else match statement c.content with
    | some content => .ok ⟨content, executed⟩
    | none => .error ⟨.driver, { c with executed }⟩

variable (sqlite : String → Content Tables → Option (Content Tables)) (sha256 : String → String)

/-- The statements of one file. -/
def applyStatements : List String → Connection Tables →
    Except (Failure Tables) (Connection Tables)
  | [], c => .ok c
  | statement :: rest, c => do
    let c ← c.execute faults (sqlite statement)
    applyStatements rest c

/-- The loop over the files. -/
def applyMigrations (applied : List HistoryRow) : List MigrationFile → Connection Tables →
    Except (Failure Tables) (Connection Tables)
  | [], c => .ok c
  | file :: rest, c =>
    match file.text with
    | none => .error ⟨.unreadable file.name, c⟩
    | some sql =>
      match applied.find? (·.version = .text file.version) with
      | some row =>
        if row.checksum ≠ .text (sha256 sql) then .error ⟨.checksumChanged file.version, c⟩
        else applyMigrations applied rest c
      | none => do
        let c ← applyStatements faults sqlite (statements sql) c
        let c ← c.execute faults (·.insertVersion file.version (sha256 sql))
        applyMigrations applied rest c

/-- The `try` block. -/
def migrateBody (migrations : List MigrationFile) (c : Connection Tables) :
    Except (Failure Tables) (Connection Tables) := do
  let c ← c.execute faults (·.beginExclusive)
  let c ← c.execute faults (·.createHistory)
  let c ← c.execute faults some
  let applied := c.content.appliedRows
  match checkHistory (migrations.map (.text ·.version)) (applied.map (·.version)) with
  | some error => .error ⟨error, c⟩
  | none =>
    let c ← applyMigrations faults sqlite sha256 applied migrations c
    c.execute faults (some ·.commit)

/-- `_migrate_sync`: what it returns or raises, and the database that it leaves. -/
def migrateSync (directory : List MigrationFile) (db : SchemaDb Tables) :
    Except MigrationError Unit × SchemaDb Tables :=
  let migrations := shippedMigrations directory
  match checkShipped migrations with
  | some error => (.error error, db)
  | none =>
    if faults 0 then (.error .driver, db)
    else match migrateBody faults sqlite sha256 migrations ⟨⟨db, none⟩, 1⟩ with
      -- `close` drops an open transaction
      | .ok c => (.ok (), c.content.rollback.committed)
      | .error ⟨error, c⟩ =>
        -- an error of `rollback` replaces the first one
        (.error (if faults c.executed then .driver else error), c.content.rollback.committed)

end Run

end Rsap.Desktop
