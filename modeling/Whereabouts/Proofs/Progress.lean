import Mathlib
import Whereabouts.Inspect.Basic
import Whereabouts.Proofs.Layout
import Whereabouts.Proofs.Readings
import Whereabouts.Proofs.RosterHistory
import Whereabouts.Proofs.SharedRegistry
import Whereabouts.Proofs.Tallies

/-! # Records taken in one after another

The command line keeps a list of handles beside the roster of its session, with one spelling for
each key.  Each argument adds to both from the same octets: the handle is read from the front of
the record a second time (`handleOf_decode`).  So the list has the keys of the roster in the order
in which they first appeared, and the metrics are what counting the readings gives
(`Progress.Holds`). -/

namespace Whereabouts

/-! ### The handle at the front -/

namespace Record

theorem handle_foldl_apply (entries : List Entry) (r : Record) :
    (entries.foldl Entry.apply r).handle = r.handle :=
  field_foldl_same r handle fun e _ r => by cases e <;> rfl

variable {cat : Catalogue} {c c' : Cursor} {reading : Reading}

theorem counted_of_readBlock (h : readBlock cat c = .ok reading c') :
    ∃ handle c₁, Reader.counted c = .ok handle c₁ ∧
      reading.record.handle = Utf8.decodeLossy handle := by
  obtain ⟨handle, c₁, hcounted, h⟩ := Reader.bind_inv h
  obtain ⟨level, c₂, -, h⟩ := Reader.bind_inv h
  obtain ⟨count, c₃, -, h⟩ := Reader.bind_inv h
  obtain ⟨found, c₄, -, h⟩ := Reader.bind_inv h
  obtain ⟨rfl, -⟩ := Reader.pure_inv h
  exact ⟨handle, c₁, hcounted, handle_foldl_apply _ _⟩

theorem counted_of_read (h : read cat c = .ok reading c') :
    ∃ handle c₁, Reader.counted c = .ok handle c₁ ∧
      reading.record.handle = Utf8.decodeLossy handle := by
  obtain ⟨block, c₁, hblock, h⟩ := Reader.bind_inv h
  obtain ⟨handle, c₂, hcounted, hhandle⟩ := counted_of_readBlock hblock
  obtain ⟨here, c₃, -, h⟩ := Reader.bind_inv h
  split_ifs at h
  · obtain ⟨rfl, -⟩ := Reader.pure_inv h
    exact ⟨handle, c₂, hcounted, hhandle⟩
  · obtain ⟨found, c₄, -, h⟩ := Reader.bind_inv h
    obtain ⟨rfl, -⟩ := Reader.pure_inv h
    exact ⟨handle, c₂, hcounted, (congrArg Record.handle (foldl_addScan _ _)).trans hhandle⟩

end Record

/-! ### Results behind a journal -/

namespace Journaled

variable {α β : Type}

theorem result_bind (run : Journaled α) (next : α → Journaled β) :
    (run >>= next).result = run.result >>= fun a => (next a).result := by
  show (run.andThen next).result = _
  unfold andThen
  cases run.result <;> rfl

theorem result_pure (a : α) : (pure a : Journaled α).result = .ok a := rfl

theorem result_liftM (result : Except Fault α) : (liftM result : Journaled α).result = result := rfl

theorem result_note (lines : List JournalLine) : (note lines).result = .ok () := rfl

end Journaled

namespace Inspect

/-! ### Taking in arguments -/

/-- What is read of the record in an argument. -/
def readArgument (index : Nat) (text : String) : Except Fault Reading := do
  Record.decode Session.catalogue (← bytesOf index text)

/-- The progress after one more reading. -/
def Progress.add (p : Progress) (reading : Reading) : Progress :=
  let step := p.session.accept p.metrics reading
  { session := step.session
    metrics := step.metrics
    handles :=
      if p.handles.any fun h => Handle.same h reading.record.handle then p.handles
      else p.handles ++ [reading.record.handle] }

/-- The handle at the front is that of the record, and if it is missing so is the record. -/
theorem handleOf_decode (cat : Catalogue) (bytes : Bytes) :
    (∀ reading, Record.decode cat bytes = .ok reading →
      handleOf bytes = .ok reading.record.handle) ∧
    ∀ fault, handleOf bytes = .error fault → Record.decode cat bytes = .error fault := by
  unfold handleOf Record.decode
  constructor
  · intro reading h
    split at h
    · rename_i hread
      obtain rfl := Except.ok.inj h
      obtain ⟨handle, c₁, hcounted, hhandle⟩ := Record.counted_of_read hread
      rw [hcounted, hhandle]
    · cases h
  · intro fault h
    split at h
    · cases h
    · rename_i hcounted
      obtain rfl := Except.error.inj h
      have hblock : Record.readBlock cat (.ofBytes bytes) = .error _ _ := Reader.bind_error hcounted
      have hread : Record.read cat (.ofBytes bytes) = .error _ _ := Reader.bind_error hblock
      rw [hread]

/-- Taking in an argument is reading its record. -/
theorem result_takeRecord (p : Progress) (index : Nat) (text : String) :
    (takeRecord p index text).result = (readArgument index text).map p.add := by
  have hsteps : (takeRecord p index text).result = (do
      let bytes ← bytesOf index text
      let handle ← handleOf bytes
      let step := p.session.receive p.metrics bytes
      let _ ← step.answer
      return {
        session := step.session
        metrics := step.metrics
        handles :=
          if p.handles.any fun h => Handle.same h handle then p.handles
          else p.handles ++ [handle] }) := by
    simp only [takeRecord, Journaled.result_bind, Journaled.result_liftM, Journaled.result_pure,
      Journaled.result_note]
    rfl
  rw [hsteps]
  unfold readArgument
  cases bytesOf index text with
  | error fault => rfl
  | ok bytes =>
      obtain ⟨hok, herror⟩ := handleOf_decode Session.catalogue bytes
      show (handleOf bytes >>= _) = (Record.decode Session.catalogue bytes).map p.add
      cases hdecode : Record.decode Session.catalogue bytes with
      | ok reading =>
          rw [hok reading hdecode]
          show ((p.session.receive p.metrics bytes).answer >>= _) = _
          unfold Session.receive
          rw [hdecode]
          rfl
      | error fault =>
          cases hhandle : handleOf bytes with
          | error other =>
              rw [herror other hhandle] at hdecode
              exact congrArg Except.error (Except.error.inj hdecode)
          | ok handle =>
              show ((p.session.receive p.metrics bytes).answer >>= _) = _
              unfold Session.receive
              rw [hdecode]
              rfl

theorem result_takeRecords (p : Progress) (index : Nat) (texts : List String) :
    (takeRecords p index texts).result =
      ((texts.zipIdx index).mapM fun t => readArgument t.2 t.1).map (List.foldl Progress.add p) := by
  induction texts generalizing p index with
  | nil => rfl
  | cons text texts ih =>
      unfold takeRecords
      rw [Journaled.result_bind, result_takeRecord, List.zipIdx_cons, List.mapM_cons]
      cases readArgument index text with
      | error fault => rfl
      | ok reading =>
          show (takeRecords (p.add reading) (index + 1) texts).result = _
          rw [ih]
          cases (texts.zipIdx (index + 1)).mapM fun t => readArgument t.2 t.1 with
          | error fault => rfl
          | ok readings => rfl

/-! ### The list of handles and the roster -/

/-- Without removals all updates of a key count. -/
theorem updatesFor_map_merge (key : String) (given : List Record) :
    Roster.updatesFor key (given.map .merge) = given.filter fun r => r.key = key := by
  induction given using List.reverseRecOn with
  | nil => rfl
  | append_singleton given r ih =>
      rw [List.map_append, List.map_singleton, Roster.updatesFor_merge, ih, List.filter_append]
      split_ifs with h
      · simp [h]
      · simp [h]

/-- A key begins an entry if it was not given before. -/
theorem atKey?_run_eq_none_iff (key : String) (given : List Record) :
    (Roster.run (given.map .merge)).atKey? key = none ↔ key ∉ given.map Record.key := by
  have htracks := Roster.tracks_run key (given.map .merge)
  unfold Roster.Tracks at htracks
  rw [updatesFor_map_merge] at htracks
  have hempty : (given.filter fun r => r.key = key) = [] ↔ key ∉ given.map Record.key := by
    simp [List.filter_eq_nil_iff]
  rw [← hempty]
  cases hknown : (Roster.run (given.map .merge)).atKey? key with
  | none =>
      rw [hknown] at htracks
      simp [htracks]
  | some known =>
      rw [hknown] at htracks
      simp [htracks.1]

theorem eraseDups_concat (keys : List String) (key : String) :
    (keys ++ [key]).eraseDups = keys.eraseDups ++ if key ∈ keys then [] else [key] := by
  rw [List.eraseDups_append]
  split_ifs with h
  · simp [List.removeAll, h]
  · simp [List.removeAll, h, List.eraseDups_cons]

theorem eraseDups_eq_nil_iff (keys : List String) : keys.eraseDups = [] ↔ keys = [] := by
  constructor
  · intro h
    rw [List.eq_nil_iff_forall_not_mem]
    intro key hkey
    rw [← List.mem_eraseDups, h] at hkey
    exact List.not_mem_nil hkey
  · rintro rfl
    rfl

theorem length_eraseDups_le (keys : List String) : keys.eraseDups.length ≤ keys.length := by
  induction keys using List.reverseRecOn with
  | nil => exact Nat.le_refl _
  | append_singleton keys key ih =>
      rw [eraseDups_concat, List.length_append, List.length_append]
      refine Nat.add_le_add ih ?_
      split_ifs
      · exact Nat.zero_le _
      · exact Nat.le_refl _

/-- The keys of readings. -/
def keysOf (given : List Reading) : List String := (given.map Reading.record).map Record.key

theorem keysOf_concat (given : List Reading) (reading : Reading) :
    keysOf (given ++ [reading]) = keysOf given ++ [reading.record.key] := by
  unfold keysOf
  rw [List.map_append, List.map_append, List.map_singleton, List.map_singleton]

/-- What is counted while readings are taken in. -/
def census (given : List Reading) : Metrics.Census where
  created := (keysOf given).eraseDups.length
  updated := given.length - (keysOf given).eraseDups.length
  unmatched := (given.map Reading.unmatched).sum
  unknown := (given.map Reading.unknown).sum

theorem created_le (given : List Reading) : (census given).created ≤ given.length := by
  have hle := length_eraseDups_le (keysOf given)
  rwa [keysOf, List.length_map, List.length_map] at hle

theorem given_census (given : List Reading) : (census given).given = given.length :=
  Nat.add_sub_cancel' (created_le given)

theorem created_eq_zero_iff (given : List Reading) : (census given).created = 0 ↔ given = [] := by
  show (keysOf given).eraseDups.length = 0 ↔ _
  rw [List.length_eq_zero_iff, eraseDups_eq_nil_iff, keysOf, List.map_eq_nil_iff,
    List.map_eq_nil_iff]

/-- One more reading counts a key that is new or one that is known. -/
theorem census_concat (given : List Reading) (reading : Reading) :
    census (given ++ [reading]) =
      if reading.record.key ∈ keysOf given then
        { created := (census given).created
          updated := (census given).updated + 1
          unmatched := (census given).unmatched + reading.unmatched
          unknown := (census given).unknown + reading.unknown }
      else
        { created := (census given).created + 1
          updated := (census given).updated
          unmatched := (census given).unmatched + reading.unmatched
          unknown := (census given).unknown + reading.unknown } := by
  have hle : (keysOf given).eraseDups.length ≤ given.length := created_le given
  unfold census
  rw [keysOf_concat, eraseDups_concat]
  simp only [List.map_append, List.map_singleton, List.sum_append, List.sum_singleton,
    List.length_append, List.length_singleton]
  split_ifs
  · rw [List.length_nil, Nat.add_zero, Nat.sub_add_comm hle]
  · rw [List.length_singleton, Nat.add_sub_add_right]

/-- What is true after some readings were taken in. -/
structure Progress.Holds (p : Progress) (given : List Reading) : Prop where
  roster : p.session.roster = .run ((given.map Reading.record).map .merge)
  queue : p.session.queue.requests = []
  handles : p.handles.map Handle.key = (keysOf given).eraseDups
  metrics : (census given).In p.metrics

theorem Progress.holds_start (settings : Settings) :
    Progress.Holds { session := .start settings } [] :=
  ⟨rfl, rfl, rfl, Metrics.Census.in_start⟩

section step

variable {p : Progress} {given : List Reading} (h : p.Holds given) (reading : Reading)
include h

theorem Progress.Holds.change :
    (p.session.roster.merge reading.record).2.2 =
      if reading.record.key ∈ keysOf given then .updated else .created := by
  have hnone : (Roster.run ((given.map Reading.record).map .merge)).atKey? reading.record.key =
      none ↔ reading.record.key ∉ keysOf given :=
    atKey?_run_eq_none_iff reading.record.key (given.map Reading.record)
  rw [h.roster]
  unfold Roster.merge
  split
  · rename_i hnew
    rw [if_neg (hnone.mp hnew)]
  · rename_i known hold
    rw [if_pos]
    by_contra hmem
    rw [hnone.mpr hmem] at hold
    cases hold

theorem Progress.Holds.unsolicited :
    Settlement.ofKind (p.session.queue.resolve reading.record.handle).2 = .unsolicited := by
  have hnone : p.session.queue.awaits? (Handle.key reading.record.handle) = none := by
    rw [RequestQueue.awaits?, RequestQueue.atKey?, h.queue]
    rfl
  rw [RequestQueue.resolve_snd, hnone]
  rfl

theorem Progress.Holds.census_add :
    (census (given ++ [reading])).In (p.add reading).metrics := by
  have hgiven : (census (given ++ [reading])).given = (census given).given + 1 := by
    rw [given_census, given_census, List.length_append]
    rfl
  have hunmatched : (census (given ++ [reading])).unmatched =
      (census given).unmatched + reading.unmatched := by
    rw [census_concat]
    split_ifs <;> rfl
  have hunknown : (census (given ++ [reading])).unknown =
      (census given).unknown + reading.unknown := by
    rw [census_concat]
    split_ifs <;> rfl
  have hmetrics : (p.add reading).metrics = _ :=
    Session.metrics_accept p.session p.metrics reading
  rw [h.change, h.unsolicited] at hmetrics
  have hold := h.metrics
  refine
    { recordsDecoded := ?_
      decodeFailures := ?_
      unmatchedCapabilities := ?_
      unknownFields := ?_
      cacheMerges := ?_
      cacheEntries := ?_
      requests := ?_
      resolutions := ?_ }
  · rw [hmetrics, hgiven]
    exact Family.cells_add_single hold.recordsDecoded Nat.one_ne_zero
  · rw [hmetrics]
    exact hold.decodeFailures
  · rw [hmetrics, hunmatched]
    dsimp only
    rw [apply_ite Counter.words]
    exact Family.cells_add_unless_zero hold.unmatchedCapabilities reading.unmatched
  · rw [hmetrics, hunknown]
    dsimp only
    rw [apply_ite Counter.words]
    exact Family.cells_add_unless_zero hold.unknownFields reading.unknown
  · rw [hmetrics, census_concat]
    by_cases hmem : reading.record.key ∈ keysOf given
    · have hcreated : (census given).created ≠ 0 := by
        rw [Ne, created_eq_zero_iff]
        rintro rfl
        exact absurd hmem List.not_mem_nil
      simp only [if_pos hmem]
      exact Family.cells_inc_second hold.cacheMerges hcreated (by decide +kernel)
    · simp only [if_neg hmem]
      refine Family.cells_inc_first hold.cacheMerges fun hzero => ?_
      rw [created_eq_zero_iff] at hzero
      rw [hzero]
      rfl
  · rw [hmetrics, census_concat]
    by_cases hmem : reading.record.key ∈ keysOf given
    · simp only [if_pos hmem, reduceCtorEq, if_false]
      exact hold.cacheEntries
    · simp only [if_neg hmem, if_true]
      exact Family.cells_add_single hold.cacheEntries Nat.one_ne_zero
  · rw [hmetrics]
    exact hold.requests
  · rw [hmetrics, hgiven]
    exact Family.cells_add_single hold.resolutions Nat.one_ne_zero

/-- One more reading keeps list, roster and metrics together. -/
theorem Progress.Holds.add : (p.add reading).Holds (given ++ [reading]) := by
  have hknown : (p.handles.any fun h => Handle.same h reading.record.handle) = true ↔
      reading.record.key ∈ keysOf given := by
    rw [← List.mem_eraseDups, ← h.handles, List.any_eq_true, List.mem_map]
    simp [Handle.same, Record.key]
  refine ⟨?_, ?_, ?_, h.census_add reading⟩
  · show (p.session.roster.merge reading.record).1 = _
    rw [h.roster, List.map_append, List.map_append, Roster.run, Roster.run, List.foldl_append]
    rfl
  · show (p.session.queue.resolve reading.record.handle).1.requests = []
    rw [RequestQueue.resolve_eq]
    show p.session.queue.requests.filter _ = []
    rw [h.queue, List.filter_nil]
  · show List.map Handle.key (if _ then p.handles else p.handles ++ [reading.record.handle]) = _
    rw [keysOf_concat, eraseDups_concat, ← h.handles]
    by_cases hmem : reading.record.key ∈ keysOf given
    · rw [if_pos (hknown.mpr hmem), if_pos hmem, List.append_nil]
    · rw [if_neg (mt hknown.mp hmem), if_neg hmem, List.map_append]
      rfl

end step

theorem Progress.Holds.foldl {p : Progress} {given : List Reading} (h : p.Holds given)
    (readings : List Reading) :
    (readings.foldl Progress.add p).Holds (given ++ readings) := by
  induction readings generalizing p given with
  | nil => rwa [List.append_nil]
  | cons reading readings ih =>
      rw [List.foldl_cons, List.append_cons]
      exact ih (h.add reading)

/-! ### What is shown -/

/-- The records that are shown of those that were given: one for each key, in the order in which
the keys first appeared, with each field as the last record of that key left it. -/
structure Shown (given shown : List Record) : Prop where
  keys : shown.map Record.key = (given.map Record.key).eraseDups
  latest : ∀ r ∈ shown, Record.LatestOf (given.filter fun g => g.key = r.key) r

theorem Progress.Holds.shown {p : Progress} {given : List Reading} (h : p.Holds given) :
    Shown (given.map Reading.record) (p.handles.filterMap p.session.find?) := by
  have hfind : ∀ handle ∈ p.handles, ∃ known, p.session.find? handle = some known ∧
      known.key = Handle.key handle ∧
      Record.LatestOf ((given.map Reading.record).filter fun g => g.key = known.key) known := by
    intro handle hhandle
    have hmem : Handle.key handle ∈ keysOf given := by
      rw [← List.mem_eraseDups, ← h.handles]
      exact List.mem_map_of_mem hhandle
    have htracks :=
      Roster.tracks_run (Handle.key handle) ((given.map Reading.record).map .merge)
    unfold Roster.Tracks at htracks
    rw [updatesFor_map_merge, ← h.roster] at htracks
    show ∃ known, p.session.roster.atKey? (Handle.key handle) = some known ∧ _
    cases hknown : p.session.roster.atKey? (Handle.key handle) with
    | none =>
        rw [h.roster] at hknown
        exact absurd hmem ((atKey?_run_eq_none_iff _ _).mp hknown)
    | some known =>
        rw [hknown] at htracks
        have hkey := Roster.key_of_atKey? hknown
        exact ⟨known, rfl, hkey, hkey ▸ htracks.2⟩
  refine ⟨?_, ?_⟩
  · show _ = (keysOf given).eraseDups
    rw [← h.handles]
    generalize p.handles = handles at hfind
    induction handles with
    | nil => rfl
    | cons handle handles ih =>
        obtain ⟨hhandle, hrest⟩ := List.forall_mem_cons.mp hfind
        obtain ⟨known, hknown, hkey, -⟩ := hhandle
        rw [List.filterMap_cons_some hknown, List.map_cons, hkey, ih hrest, List.map_cons]
  · intro r hr
    obtain ⟨handle, hhandle, hknown⟩ := List.mem_filterMap.mp hr
    obtain ⟨known, hfound, -, hlatest⟩ := hfind handle hhandle
    rw [hknown] at hfound
    obtain rfl := Option.some.inj hfound
    exact hlatest

end Inspect
end Whereabouts
