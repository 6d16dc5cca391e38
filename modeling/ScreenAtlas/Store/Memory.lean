import ScreenAtlas.Record.Codec

/-!
# Records in memory

Records are kept in their encoded form under their identifiers. Saving under an
identifier again replaces what was there; other identifiers are not touched.
-/
namespace ScreenAtlas

/-- Encoded records by identifier. -/
structure MemoryStore where
  records : List (String × Members) := []

namespace MemoryStore

/-- Keeps a record. -/
def save (store : MemoryStore) (id : String) (record : Record) : MemoryStore :=
  { records := Entries.put id record.encode store.records }

/-- The record kept under an identifier. -/
def get (store : MemoryStore) (id : String) : Except Fault Record :=
  match store.records.lookup id with
  | some members => Record.decode members
  | none => .error (.unknownAnalysis id)

/-- Something is kept under the identifier. -/
def contains (store : MemoryStore) (id : String) : Bool := (store.records.lookup id).isSome

/-- How many records are kept. -/
def size (store : MemoryStore) : Nat := store.records.length

end MemoryStore

end ScreenAtlas
