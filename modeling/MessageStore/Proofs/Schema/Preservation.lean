import MessageStore.Proofs.Schema.Resumption
import MessageStore.Proofs.Schema.Stepping
import MessageStore.Proofs.Store.Adding

/-!
# Migrations keep messages

A store of any version is brought to the current one without losing or changing
a message.  Every old row becomes one new row, in the same order.  What becomes
of a row is followed from the last step back to the first, since a row that has
been carried over from a version has been carried over from the version before.
-/

namespace MessageStore.Schema

open Relational (Database Row Table sameName)

/-! ## Rows that are carried over -/

/-- A row that has been made of a row of a layout. -/
structure Carried (layout : Nat) (old new : Row) : Prop where
  id : new.cells.lookup "mid" = old.cells.lookup (if layout < 5 then "id" else "mid")
  kept : ∀ column ∈ dataColumns layout,
    new.cells.lookup column.name = old.cells.lookup column.name
  /-- What came later is empty or zero, and older rows are published. -/
  added : ∀ column ∈ contentColumns, column ∉ dataColumns layout →
    new.cells.lookup column.name = some (withFallback column).fallback
  updated : layout < 6 → new.cells.lookup "updated" = old.cells.lookup "time"

theorem Carried.refl (row : Row) : Carried 6 row row where
  id := rfl
  kept := fun _ _ => rfl
  added := by
    have all : ∀ column ∈ contentColumns, column ∈ dataColumns 6 := by
      decide
    intro column member absent
    exact absurd (all column member) absent
  updated := fun impossible => absurd impossible (Nat.lt_irrefl 6)

section Back

variable {old middle new : Row}

/-- What is carried over from a row with its time of modification is carried over from the row
without it. -/
theorem Carried.before_date (carried : Carried 6 middle new)
    (updated : middle.cells.lookup "updated" = old.cells.lookup "time")
    (same : ∀ column ∈ dataColumns 5,
      middle.cells.lookup column.name = old.cells.lookup column.name) :
    Carried 5 old new where
  id := carried.id.trans (same (text "mid") (by decide))
  kept := by
    have later : ∀ column ∈ dataColumns 5, column ∈ dataColumns 6 := by
      decide
    intro column member
    exact (carried.kept column (later column member)).trans (same column member)
  added := by
    have all : ∀ column ∈ contentColumns, column ∈ dataColumns 5 := by
      decide
    intro column member absent
    exact absurd (all column member) absent
  updated := fun _ => (carried.kept (integer "updated") (by decide)).trans updated

/-- What is carried over from a copied row is carried over from the row that was copied. -/
theorem Carried.before_rebuild (carried : Carried 5 middle new)
    (id : middle.cells.lookup "mid" = old.cells.lookup "id")
    (same : ∀ column ∈ keptColumns,
      middle.cells.lookup column.name = old.cells.lookup column.name) :
    Carried 4 old new where
  id := carried.id.trans id
  kept := by
    have later : ∀ column ∈ dataColumns 4, column ∈ keptColumns ∧ column ∈ dataColumns 5 := by
      decide
    intro column member
    obtain ⟨isKept, inNext⟩ := later column member
    exact (carried.kept column inNext).trans (same column isKept)
  added := by
    have all : ∀ column ∈ contentColumns, column ∈ dataColumns 4 := by
      decide
    intro column member absent
    exact absurd (all column member) absent
  updated := fun _ => (carried.updated (by decide)).trans (same (integer "time") (by decide))

theorem dataColumns_succ {version : Nat} (below : version < 4) :
    dataColumns (version + 1) = dataColumns version ++ addedIn (version + 1) := by
  revert version
  decide

theorem time_mem {version : Nat} (below : version < 4) : integer "time" ∈ dataColumns version := by
  revert version
  decide

/-- What is carried over from a row with more columns is carried over from the row without them. -/
theorem Carried.before_widen {version : Nat} (below : version < 4)
    (carried : Carried (version + 1) middle new)
    (same : ∀ column ∈ layoutColumns version,
      middle.cells.lookup column.name = old.cells.lookup column.name)
    (more : ∀ column ∈ addedAfter version,
      middle.cells.lookup column.name = some column.fallback) :
    Carried version old new where
  id := by
    have idSame := same (keyColumn version) List.mem_cons_self
    have key : (keyColumn version).name = "id" := by
      unfold keyColumn
      split <;> rfl
    rw [key] at idSame
    rw [carried.id, if_pos (by omega), if_pos (by omega), idSame]
  kept := by
    intro column member
    have later : column ∈ dataColumns (version + 1) := by
      rw [dataColumns_succ below]
      exact List.mem_append_left _ member
    exact (carried.kept column later).trans (same column (List.mem_cons_of_mem _ member))
  added := by
    intro column member absent
    by_cases later : column ∈ dataColumns (version + 1)
    · rw [carried.kept column later]
      rw [dataColumns_succ below] at later
      rcases List.mem_append.mp later with inOld | inNew
      · exact absurd inOld absent
      · exact more (withFallback column) (List.mem_map_of_mem inNew)
    · exact carried.added column member later
  updated := by
    intro _
    rw [carried.updated (by omega)]
    exact same (integer "time") (List.mem_cons_of_mem _ (time_mem below))

end Back

/-! ## Whole migrations -/

/-- The position that a row comes to from a layout: its place in the order of the rows where the
table is rebuilt, and otherwise the one that it has. -/
def newPosition (layout index : Nat) (old : Row) : Int64 :=
  if layout < 5 then Int64.ofNat (index + 1) else old.position

/-- The position that is the next one after a table has been brought up from a layout. -/
def nextPositionFrom (layout : Nat) (table : Table) : Option Int64 :=
  if layout < 5 then
    if (table.rows.length : Int) < Int64.maxValue.toInt then
      some (Int64.ofNat (table.rows.length + 1))
    else none
  else table.nextPosition?

/-- What a setup makes of a table of messages in a layout. -/
structure Migrated (layout : Nat) (table : Table) (run : Run) (migrated : Table) : Prop where
  succeeded : run.outcome = .ok ()
  holds : Holds 6 6 run.db migrated
  length : migrated.rows.length = table.rows.length
  rows : ∀ (index : Nat) (old : Row), table.rows[index]? = some old →
    ∃ new, migrated.rows[index]? = some new ∧ Carried layout old new ∧
      new.position = newPosition layout index old
  next : migrated.nextPosition? = nextPositionFrom layout table
  counts : (5 ≤ layout → ∃ largest, table.Counts largest) → ∃ largest, migrated.Counts largest

section Chain

variable {db after : Database} {table migrated : Table}

/-- A setup makes of a table what it makes of the one that the first step leaves. -/
theorem Migrated.of_step {step : Step} {layout : Nat} (member : step ∈ steps)
    (standing : Standing step.source db) (done : step.apply none db = .ok after)
    (result : Migrated layout table (setup after) migrated) :
    Migrated layout table (setup db) migrated := by
  have climbs : step.source < currentVersion := target_le member
  have run : setup db = { setup after with log := step.log db ++ (setup after).log } :=
    setupTo_after_step standing member climbs done
  rw [run]
  exact
    { succeeded := result.succeeded
      holds := result.holds
      length := result.length
      rows := result.rows
      next := result.next
      counts := result.counts }

theorem Holds.migrated_current (holds : Holds 6 6 db table) :
    Migrated 6 table (setup db) table := by
  rw [setup_of_current holds.standing]
  refine ⟨rfl, holds, rfl, ?_, rfl, fun counts => counts (by decide)⟩
  intro index old present
  exact ⟨old, present, Carried.refl old, rfl⟩

/-- From version 5 with the time of modification on, the table of messages stays as it is. -/
theorem Holds.migrated_kept (holds : Holds 5 6 db table) : Migrated 6 table (setup db) table := by
  obtain ⟨after, done, holdsAfter⟩ := holds.keep
  exact Migrated.of_step dating_mem holds.standing done holdsAfter.migrated_current

theorem Holds.migrated_dated (holds : Holds 5 5 db table) :
    Migrated 5 table (setup db) (dated table) := by
  obtain ⟨after, done, holdsAfter⟩ := holds.date
  have last := holdsAfter.migrated_current
  apply Migrated.of_step dating_mem holds.standing done
  have positions := dated_positions table
  have sameLength : (dated table).rows.length = table.rows.length := by
    simpa using congrArg List.length positions
  refine ⟨last.succeeded, last.holds, sameLength, ?_, Table.nextPosition?_congr positions rfl, ?_⟩
  · intro index old present
    obtain ⟨new, newPresent, position, updated, same⟩ := dated_row holds.laid present
    exact ⟨new, newPresent, (Carried.refl new).before_date updated same, position⟩
  · intro counts
    obtain ⟨largest, counts⟩ := counts (Nat.le_refl 5)
    exact ⟨largest, counts.of_positions rfl positions⟩

theorem Holds.migrated_rebuilt (holds : Holds 4 4 db table)
    (room : (table.rows.length : Int) ≤ Int64.maxValue.toInt) :
    ∃ migrated, Migrated 4 table (setup db) migrated := by
  obtain ⟨after, filled, done, result, holdsAfter⟩ := holds.rebuild room
  have rest := holdsAfter.migrated_dated
  have sameLength : (rebuilt filled).rows.length = table.rows.length := by
    change filled.rows.length = _
    rw [copied_rows result, List.length_mapIdx]
  have member : (⟨4, .always Schema.rebuild⟩ : Step) ∈ steps := by decide
  refine ⟨_, Migrated.of_step member holds.standing done
    ⟨rest.succeeded, rest.holds, rest.length.trans sameLength, ?_, ?_, ?_⟩⟩
  · intro index old present
    obtain ⟨middle, middlePresent, position, copied⟩ := rebuilt_row holds.laid result present
    obtain ⟨new, newPresent, carried, newPosition⟩ := rest.rows index middle middlePresent
    have id : middle.cells.lookup "mid" = old.cells.lookup "id" :=
      copied (text "mid") (by decide) (keyColumn 4) (by decide) (by decide) (by decide)
    have members : ∀ column ∈ keptColumns, column ∈ blankTable.dataColumns ∧
        column ∈ layoutColumns 4 ∧ column.key ≠ .position ∧
        (column.name, column.name) ∈ rebuildPairs := by
      decide +kernel
    have same : ∀ column ∈ keptColumns,
        middle.cells.lookup column.name = old.cells.lookup column.name := by
      intro column columnMember
      obtain ⟨isNew, isOld, data, pair⟩ := members column columnMember
      exact copied column isNew column isOld data pair
    exact ⟨new, newPresent, carried.before_rebuild id same, newPosition.trans position⟩
  · rw [rest.next, nextPositionFrom, if_neg (by decide), nextPositionFrom, if_pos (by decide)]
    exact rebuilt_nextPosition? result
  · intro _
    obtain ⟨used, counts, _⟩ := rebuilt_counts result
    exact rest.counts fun _ => ⟨used, counts⟩

/-- From a version below 4 the columns are added that lead to the next layout. -/
theorem Holds.migrated_widened {version count : Nat} (sum : version + count = 4)
    (holds : Holds version version db table)
    (room : (table.rows.length : Int) ≤ Int64.maxValue.toInt) :
    ∃ migrated, Migrated version table (setup db) migrated := by
  -- On the steps that are left up to version 4, so that the rebuild is the base case.
  induction count generalizing version db table with
  | zero =>
      obtain rfl : version = 4 := sum
      exact holds.migrated_rebuilt room
  | succ count ih =>
      have below : version < 4 := by omega
      have rebuilds : version < 5 := by omega
      have stillRebuilds : version + 1 < 5 := by omega
      obtain ⟨after, done, holdsAfter⟩ := holds.widen below
      have sameLength : (table.withColumns (addedAfter version)).rows.length = table.rows.length :=
        List.length_map _
      obtain ⟨migrated, rest⟩ := ih (by omega) holdsAfter (by rw [sameLength]; exact room)
      refine ⟨migrated, Migrated.of_step (adding_mem below) holds.standing done
        ⟨rest.succeeded, rest.holds, rest.length.trans sameLength, ?_, ?_, ?_⟩⟩
      · intro index old present
        have oldMember := List.mem_of_getElem? present
        obtain ⟨new, newPresent, carried, position⟩ := rest.rows index
          { old with
            cells := old.cells ++ (addedAfter version).map fun column =>
              (column.name, column.fallback) }
          (by simp [Table.withColumns, present])
        refine ⟨new, newPresent, carried.before_widen below ?_ ?_, ?_⟩
        · intro column member
          have data : column.key ≠ .position := by
            have each : ∀ version < 4, ∀ column ∈ layoutColumns version,
                column.key ≠ .position := by
              decide
            exact each version below column member
          exact holds.laid.lookup_append oldMember member data _
        · intro column member
          have supported : version + 1 ≤ currentVersion := by
            unfold currentVersion
            omega
          exact (holds.laid.rows old oldMember).lookup_append
            (holds.laid.distinct_append supported (List.Perm.of_eq (layoutColumns_succ below).symm))
            member
        · rw [position, newPosition, if_pos stillRebuilds, newPosition, if_pos rebuilds]
      · rw [rest.next, nextPositionFrom, if_pos stillRebuilds, sameLength, nextPositionFrom,
          if_pos rebuilds]
      · intro _
        exact rest.counts fun late => absurd stillRebuilds (Nat.not_lt.mpr late)

end Chain

/-! ## Stores of earlier versions -/

/-- A database that consists of a table of messages in a layout, indexes of it, and from version 1
on a table with the record of the version. -/
structure LaidOut (version layout : Nat) (db : Database) (table : Table) : Prop where
  /-- The layout is that of the version; in version 5 the time of modification may be there. -/
  inLayout : version < 5 ∧ layout = version ∨ version = 5 ∧ (layout = 5 ∨ layout = 6)
  tables : (db.tables.map (·.name)).Perm
    (if version = 0 then [messageTable] else [messageTable, versionTable])
  views : db.views = []
  indexes : ∀ index ∈ db.indexes,
    index.table = messageTable ∧ (index.name = "idx_mid" ∨ index.name = "idx_topic")
  found : db.tableNamed? messageTable = some table
  messages : Laid layout table
  /-- The row whose ID is 1 holds the version. -/
  record : ∀ versions, db.tableNamed? versionTable = some versions →
    versions.columns = versionColumns ∧
      (∀ row ∈ versions.rows, row.cells.map Prod.fst = ["id", "version"]) ∧
      ∃ row, versions.rows.find? isRecord = some row ∧
        row.cells.lookup "version" = some (versionCell version)

section Earlier

variable {version layout : Nat} {db : Database} {table : Table}

theorem LaidOut.owned (laidOut : LaidOut version layout db table) : Owned db := by
  refine ⟨?_, laidOut.views, laidOut.indexes⟩
  intro name member
  rw [laidOut.tables.mem_iff] at member
  split at member
  · exact .inl (List.mem_singleton.mp member)
  · simpa using member

theorem Owned.spelled (owned : Owned db) {name : String}
    (own : name = messageTable ∨ name = versionTable) :
    ∀ table ∈ db.tables, sameName table.name name = true → table.name = name := by
  have apart : ∀ first ∈ [messageTable, versionTable], ∀ second ∈ [messageTable, versionTable],
      sameName first second = true → first = second := by
    decide
  intro table member same
  have first := owned.tables table.name (List.mem_map_of_mem member)
  exact apart table.name (by simpa using first) name (by simpa using own) same

/-- A store of an earlier version has what the steps need. -/
theorem LaidOut.holds (laidOut : LaidOut version layout db table) :
    Holds version layout db table := by
  have owned := laidOut.owned
  have spelled := owned.spelled (.inr rfl)
  have sameLookup : db.table? versionTable = db.tableNamed? versionTable :=
    Database.table?_eq_tableNamed? spelled
  have versionLayout : VersionLayout db :=
    ⟨fun versions present => (laidOut.record versions present).1, spelled⟩
  have messages : messageTable ∈ db.tables.map (·.name) := by
    rw [laidOut.tables.mem_iff]
    split <;> simp
  have named : versionTable ∈ db.tables.map (·.name) ↔ version ≠ 0 := by
    rw [laidOut.tables.mem_iff]
    split <;> simp_all [messageTable, versionTable]
  have found : db.table? messageTable = some table := by
    rw [Database.table?_eq_tableNamed? (owned.spelled (.inl rfl))]
    exact laidOut.found
  have supported : version ≤ currentVersion := by
    unfold currentVersion
    rcases laidOut.inLayout with ⟨below, _⟩ | ⟨rfl, _⟩
    · omega
    · decide
  by_cases zero : version = 0
  · have absent : db.table? versionTable = none := by
      rw [sameLookup, ← Option.not_isSome_iff_eq_none, tableNamed?_isSome_iff, named]
      exact fun nonzero => nonzero zero
    refine ⟨⟨messages, versionLayout.plain, ?_⟩, owned, ?_, found, laidOut.messages⟩
    · rw [zero]
      exact storedVersion_of_none absent
    · exact ⟨fun _ => absent, fun positive => absurd zero (Nat.ne_of_gt positive)⟩
  · obtain ⟨versions, present⟩ := Option.isSome_iff_exists.mp
      (tableNamed?_isSome_iff.mpr (named.mpr zero))
    obtain ⟨columns, names, row, recordRow, holdsVersion⟩ := laidOut.record versions present
    have foundVersions := sameLookup.trans present
    refine ⟨⟨messages, versionLayout.plain, ?_⟩, owned, ?_, found, laidOut.messages⟩
    · rw [storedVersion_of_some versionLayout.plain foundVersions, recordedIn, recordRow]
      simp only [holdsVersion, Option.getD_some]
      exact versionOf_versionCell supported
    · exact ⟨fun isZero => absurd isZero zero, fun _ => ⟨versions, foundVersions, columns, names⟩⟩

/-- The table of messages of a store has the exact name. -/
theorem Holds.tableNamed? (holds : Holds version layout db table) :
    db.tableNamed? messageTable = some table := by
  rw [← Database.table?_eq_tableNamed? (holds.owned.spelled (.inl rfl))]
  exact holds.found

/-- A setup of a store of an earlier version makes a current table of messages of its table. -/
theorem LaidOut.migrated (laidOut : LaidOut version layout db table)
    (room : version < 5 → (table.rows.length : Int) ≤ Int64.maxValue.toInt) :
    ∃ migrated, Migrated layout table (setup db) migrated := by
  have holds := laidOut.holds
  rcases laidOut.inLayout with ⟨below, rfl⟩ | ⟨rfl, rfl | rfl⟩
  · obtain ⟨count, sum⟩ := Nat.exists_eq_add_of_le (Nat.le_of_lt_succ below)
    exact holds.migrated_widened sum.symm (room below)
  · exact ⟨_, holds.migrated_dated⟩
  · exact ⟨_, holds.migrated_kept⟩

end Earlier

/-- What a setup makes of a store of an earlier version. -/
structure Preserved (layout : Nat) (table : Table) (run : Run) (migrated : Table) : Prop where
  succeeded : run.outcome = .ok ()
  recorded : storedVersion run.db = .ok currentVersion
  found : run.db.tableNamed? messageTable = some migrated
  laid : Laid currentVersion migrated
  /-- There is one row for each old one, in the same order, and no other. -/
  length : migrated.rows.length = table.rows.length
  rows : ∀ (index : Nat) (old : Row), table.rows[index]? = some old →
    ∃ new, migrated.rows[index]? = some new ∧ Carried layout old new ∧
      new.position = newPosition layout index old
  next : migrated.nextPosition? = nextPositionFrom layout table
  /-- The next message comes behind all rows. -/
  behind : ∀ position, migrated.nextPosition? = some position →
    ∀ row ∈ migrated.rows, row.position < position
  adds : ∀ (now : Instant) (message : Message) (position : Int64), message.event = .message →
    migrated.nextPosition? = some position →
      ∃ after, Store.add now message run.db = .ok after ∧
        after.tableNamed? messageTable = some (migrated.withRow
          (migrated.newRow (Store.newRow message (message.isDue now.seconds)) position))

/-- A setup keeps all messages of a store of an earlier version.  Where the table is rebuilt there
have to be positions for its rows; there are more than a file can hold rows. -/
theorem setup_preserves {version layout : Nat} {db : Database} {table : Table}
    (laidOut : LaidOut version layout db table)
    (room : version < 5 → (table.rows.length : Int) ≤ Int64.maxValue.toInt) :
    ∃ migrated, Preserved layout table (setup db) migrated := by
  obtain ⟨migrated, result⟩ := laidOut.migrated room
  obtain ⟨standing, owned, _, found, laid⟩ := result.holds
  refine ⟨migrated,
    { succeeded := result.succeeded
      recorded := standing.stored
      found := result.holds.tableNamed?
      laid
      length := result.length
      rows := result.rows
      next := result.next
      behind := fun position next => Table.lt_nextPosition next
      adds := ?_ }⟩
  intro now message position event next
  have added : Store.add now message (setup db).db = _ :=
    Store.add_eq event (owned.writable found) laid
  rw [next] at added
  refine ⟨_, added, ?_⟩
  have ownedAfter := owned.congr (Database.replace_outline (setup db).db (migrated.withRow
    (migrated.newRow (Store.newRow message (message.isDue now.seconds)) position)))
  rw [← Database.table?_eq_tableNamed? (ownedAfter.spelled (.inl rfl))]
  exact Database.table?_replace_self found rfl

theorem laid_earlyTable : Laid 0 earlyTable where
  supported := by decide
  named := rfl
  columns := List.Perm.refl _
  rows := by decide
  ordered := by decide
  numbered := by decide

theorem laidOut_early : LaidOut 0 0 early earlyTable where
  inLayout := .inl ⟨by decide, rfl⟩
  tables := List.Perm.refl _
  views := rfl
  indexes := by decide
  found := rfl
  messages := laid_earlyTable
  record := by
    intro versions found
    cases found

/-- Both messages of a table of version 0 are kept. -/
theorem setup_early_preserves : ∃ migrated, Preserved 0 earlyTable (setup early) migrated :=
  setup_preserves laidOut_early (by decide)

end MessageStore.Schema
