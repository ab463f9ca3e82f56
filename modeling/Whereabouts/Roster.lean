import Whereabouts.Record.Merge

/-! # Rosters

A roster holds what is known of each user: one record for each key of a handle.  Updates are
merged into the record of their key, or begin one. -/

namespace Whereabouts

/-- A record with the key that it is filed under. -/
structure Roster.Slot where
  key : String
  record : Record
  key_eq : key = record.key

/-- The records that are known, at most one for each key. -/
structure Roster where
  slots : List Roster.Slot
  keys_nodup : (slots.map Roster.Slot.key).Nodup

/-- What an update did to a roster. -/
inductive Roster.Change where
  | created
  | updated
deriving DecidableEq, Repr

def Roster.Change.name : Roster.Change → String
  | created => "created"
  | updated => "updated"

namespace Roster

def empty : Roster := ⟨[], List.nodup_nil⟩

def size (r : Roster) : Nat := r.slots.length

def records (r : Roster) : List Record := r.slots.map Slot.record

def atKey? (r : Roster) (key : String) : Option Record :=
  (r.slots.find? fun slot => slot.key == key).map Slot.record

/-- The record of a handle, however it is spelled. -/
def find? (r : Roster) (handle : String) : Option Record := r.atKey? (Handle.key handle)

theorem atKey?_eq_none {r : Roster} {key : String} (h : r.atKey? key = none) :
    key ∉ r.slots.map Slot.key := by
  intro mem
  obtain ⟨slot, hslot, e⟩ := List.mem_map.mp mem
  have := List.find?_eq_none.mp (Option.map_eq_none_iff.mp h) slot hslot
  simp [e] at this

/-- The roster with one more record, whose key it does not have yet. -/
def insertNew (r : Roster) (record : Record) (h : r.atKey? record.key = none) : Roster :=
  ⟨r.slots ++ [⟨record.key, record, rfl⟩], by
    rw [List.map_append, List.nodup_append]
    refine ⟨r.keys_nodup, by simp, fun a ha b hb e => atKey?_eq_none h ?_⟩
    rw [List.map_singleton, List.mem_singleton] at hb
    obtain rfl : a = record.key := e.trans hb
    exact ha⟩

/-- The slot with an update for its key merged in. -/
def Slot.merge (slot : Slot) (record : Record) (h : slot.key = record.key) : Slot :=
  ⟨slot.key, slot.record.merge record, h⟩

/-- The roster with an update merged into the record of its key. -/
def update (r : Roster) (record : Record) : Roster :=
  ⟨r.slots.map fun slot => if h : slot.key = record.key then slot.merge record h else slot, by
    have same : (r.slots.map fun slot =>
        if h : slot.key = record.key then slot.merge record h else slot).map Slot.key =
          r.slots.map Slot.key := by
      rw [List.map_map]
      apply List.map_congr_left
      intro slot _
      by_cases h : slot.key = record.key <;> simp [h, Slot.merge]
    rw [same]
    exact r.keys_nodup⟩

/-- The roster after an update, the record of its key, and whether there was one before. -/
def merge (r : Roster) (record : Record) : Roster × Record × Change :=
  match h : r.atKey? record.key with
  | none => (r.insertNew record h, record, .created)
  | some known => (r.update record, known.merge record, .updated)

/-- The roster without the record of a handle. -/
def erase (r : Roster) (handle : String) : Roster :=
  ⟨r.slots.filter fun slot => slot.key != Handle.key handle,
    r.keys_nodup.sublist (List.filter_sublist.map Slot.key)⟩

/-- The records with their keys, in the order of the keys. -/
def sorted (r : Roster) : List (String × Record) :=
  (r.slots.map fun slot => (slot.key, slot.record)).mergeSort fun a b => a.1 ≤ b.1

/-! ### The records without their slots -/

theorem size_eq (r : Roster) : r.size = r.records.length := (List.length_map _).symm

theorem map_key_records (r : Roster) : r.records.map Record.key = r.slots.map Slot.key := by
  unfold records
  rw [List.map_map]
  exact List.map_congr_left fun slot _ => slot.key_eq.symm

theorem records_nodup (r : Roster) : (r.records.map Record.key).Nodup :=
  r.map_key_records ▸ r.keys_nodup

theorem atKey?_eq (r : Roster) (key : String) :
    r.atKey? key = r.records.find? fun known => known.key == key := by
  unfold atKey? records
  rw [List.find?_map]
  congr 2
  funext slot
  rw [slot.key_eq]
  rfl

theorem records_insertNew (r : Roster) (record : Record) (h : r.atKey? record.key = none) :
    (r.insertNew record h).records = r.records ++ [record] := List.map_append

theorem records_update (r : Roster) (record : Record) :
    (r.update record).records =
      r.records.map fun known => if known.key = record.key then known.merge record else known := by
  unfold records update
  rw [List.map_map, List.map_map]
  apply List.map_congr_left
  intro slot _
  by_cases h : slot.key = record.key
  · simp [h, ← slot.key_eq, Slot.merge]
  · simp [h, ← slot.key_eq]

theorem records_erase (r : Roster) (handle : String) :
    (r.erase handle).records = r.records.filter fun known => known.key != Handle.key handle := by
  unfold records
  rw [List.filter_map]
  refine congrArg (List.map Slot.record) (List.filter_congr fun slot _ => ?_)
  rw [slot.key_eq]
  rfl

end Roster
end Whereabouts
