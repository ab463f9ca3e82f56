import Mathlib.Data.List.DropRight
import Whereabouts.Proofs.Accumulation
import Whereabouts.Proofs.Keyed
import Whereabouts.Roster

/-! # What a roster remembers

A roster is the outcome of updates and removals in some order.  What it knows of a key depends
only on the updates for that key since the key was last removed (`updatesFor`), each field on
the last of them that carries it: `Record.LatestOf`.

One step changes one key, for which it adds an update at the end or begins anew (`tracks_perform`);
`run_spec` follows by induction on the operations. -/

namespace Whereabouts

/-! ### The last that carries a field -/

namespace Record

def iconChecksum? (r : Record) : Option IconChecksum := r.extras.bind Extras.iconChecksum

def externalLink? (r : Record) : Option Text := r.extras.bind Extras.externalLink

def mood? (r : Record) : Option Icon := r.extras.bind Extras.mood

/-- The value of a field in the last record that carries it. -/
def latest {α : Type} (field : Record → Option α) (history : List Record) : Option α :=
  history.reverse.findSome? field

/-- What a record is after updates, the last of which stands last. -/
structure LatestOf (history : List Record) (r : Record) : Prop where
  handle : history.getLast?.map Record.handle = some r.handle
  warningLevel : history.getLast?.map Record.warningLevel = some r.warningLevel
  userClass : r.userClass = latest Record.userClass history
  createdAt : r.createdAt = latest Record.createdAt history
  onlineSince : r.onlineSince = latest Record.onlineSince history
  memberSince : r.memberSince = latest Record.memberSince history
  idleMinutes : r.idleMinutes = latest Record.idleMinutes history
  sessionLength : r.sessionLength = latest Record.sessionLength history
  icqStatus : r.icqStatus = latest Record.icqStatus history
  externalIp : r.externalIp = latest Record.externalIp history
  advertised : r.advertised = latest Record.advertised history
  profile : r.profile = latest Record.profile history
  awayMessage : r.awayMessage = latest Record.awayMessage history
  extras : r.extras.isSome = history.any fun update => update.extras.isSome
  iconChecksum : r.iconChecksum? = latest Record.iconChecksum? history
  externalLink : r.externalLink? = latest Record.externalLink? history
  mood : r.mood? = latest Record.mood? history
  /-- The last block of extras counts, with or without an away text. -/
  away : r.away? = (latest Record.extras history).bind Extras.away

theorem latest_concat {α : Type} (field : Record → Option α) (history : List Record)
    (update : Record) :
    latest field (history ++ [update]) = (field update).or (latest field history) :=
  latest?_concat field history update

theorem latestOf_singleton (r : Record) : LatestOf [r] r := by
  have hlatest : ∀ {α : Type} (field : Record → Option α), field r = latest field [r] :=
    fun field => ((latest_concat field [] r).trans Option.or_none).symm
  exact
    { handle := rfl
      warningLevel := rfl
      userClass := hlatest _
      createdAt := hlatest _
      onlineSince := hlatest _
      memberSince := hlatest _
      idleMinutes := hlatest _
      sessionLength := hlatest _
      icqStatus := hlatest _
      externalIp := hlatest _
      advertised := hlatest _
      profile := hlatest _
      awayMessage := hlatest _
      extras := (Bool.or_false _).symm
      iconChecksum := hlatest iconChecksum?
      externalLink := hlatest externalLink?
      mood := hlatest mood?
      away := congrArg (Option.bind · Extras.away) (hlatest Record.extras) }

theorem bind_mergeExtras {α : Type} {field : Extras → Option α}
    (hfield : ∀ known update, field (known.merge update) = (field update).or (field known))
    (hempty : field {} = none) (known update : Option Extras) :
    (mergeExtras known update).bind field = (update.bind field).or (known.bind field) := by
  cases update with
  | none => rfl
  | some update => cases known <;> simp [mergeExtras, hfield, hempty]

/-- An update goes behind those that made the record. -/
theorem LatestOf.merge {history : List Record} {known : Record} (h : LatestOf history known)
    (update : Record) : LatestOf (history ++ [update]) (known.merge update) := by
  have hstep : ∀ {α : Type} {field : Record → Option α}, field known = latest field history →
      (field update).or (field known) = latest field (history ++ [update]) := by
    intro α field hfield
    rw [latest_concat, hfield]
  have hblock : ∀ {α : Type} {field : Extras → Option α},
      (∀ known update : Extras, field (known.merge update) = (field update).or (field known)) →
      field {} = none →
      known.extras.bind field = latest (fun r => r.extras.bind field) history →
      (known.merge update).extras.bind field =
        latest (fun r => r.extras.bind field) (history ++ [update]) := by
    intro α field hfield hempty hknown
    rw [latest_concat, ← hknown]
    exact bind_mergeExtras hfield hempty known.extras update.extras
  exact
    { handle := by rw [List.getLast?_concat]; rfl
      warningLevel := by rw [List.getLast?_concat]; rfl
      userClass := hstep h.userClass
      createdAt := hstep h.createdAt
      onlineSince := hstep h.onlineSince
      memberSince := hstep h.memberSince
      idleMinutes := hstep h.idleMinutes
      sessionLength := hstep h.sessionLength
      icqStatus := hstep h.icqStatus
      externalIp := hstep h.externalIp
      advertised := hstep h.advertised
      profile := hstep h.profile
      awayMessage := hstep h.awayMessage
      extras := by
        rw [List.any_append, ← h.extras]
        cases hu : update.extras <;> simp [Record.merge, mergeExtras, hu]
      iconChecksum := hblock (fun _ _ => rfl) rfl h.iconChecksum
      externalLink := hblock (fun _ _ => rfl) rfl h.externalLink
      mood := hblock (fun _ _ => rfl) rfl h.mood
      away := by
        have haway := h.away
        rw [latest_concat]
        unfold away? at haway ⊢
        cases hu : update.extras with
        | none => simpa [Record.merge, mergeExtras, hu] using haway
        | some x => simp [Record.merge, mergeExtras, hu, Extras.merge] }

end Record

/-! ### Operations -/

namespace Roster

inductive Op where
  | merge (update : Record)
  | erase (handle : String)

def perform (r : Roster) : Op → Roster
  | .merge update => (r.merge update).1
  | .erase handle => r.erase handle

/-- The roster after operations, from the roster that knows nobody. -/
def run (ops : List Op) : Roster := ops.foldl perform empty

/-- Whether an operation removes a key. -/
def Op.removes (key : String) : Op → Bool
  | merge _ => false
  | erase handle => Handle.key handle == key

/-- The update that an operation brings for a key. -/
def Op.updateFor (key : String) : Op → Option Record
  | merge update => if update.key = key then some update else none
  | erase _ => none

/-- The updates for a key since it was last removed, in order. -/
def updatesFor (key : String) (ops : List Op) : List Record :=
  (ops.rtakeWhile fun op => !op.removes key).filterMap (Op.updateFor key)

theorem updatesFor_merge (key : String) (ops : List Op) (update : Record) :
    updatesFor key (ops ++ [.merge update]) =
      if update.key = key then updatesFor key ops ++ [update] else updatesFor key ops := by
  rw [updatesFor, List.rtakeWhile_concat_pos _ _ _ rfl, List.filterMap_append, updatesFor]
  by_cases h : update.key = key
  · rw [if_pos h]
    simp [Op.updateFor, h]
  · rw [if_neg h]
    simp [Op.updateFor, h]

theorem updatesFor_erase (key : String) (ops : List Op) (handle : String) :
    updatesFor key (ops ++ [.erase handle]) =
      if Handle.key handle = key then [] else updatesFor key ops := by
  rw [updatesFor, List.rtakeWhile_concat, updatesFor]
  by_cases h : Handle.key handle = key
  · simp [Op.removes, h]
  · simp [Op.removes, Op.updateFor, h]

/-! ### Look-ups after one operation -/

theorem key_of_atKey? {r : Roster} {key : String} {known : Record}
    (h : r.atKey? key = some known) : known.key = key :=
  Keyed.tell_of_find? (r.atKey?_eq key ▸ h)

theorem mem_records_of_find? {r : Roster} {handle : String} {known : Record}
    (h : r.find? handle = some known) : known ∈ r.records := by
  rw [find?, atKey?_eq] at h
  exact List.mem_of_find?_eq_some h

theorem atKey?_insertNew (r : Roster) (record : Record) (h : r.atKey? record.key = none)
    (key : String) :
    (r.insertNew record h).atKey? key =
      if record.key = key then some record else r.atKey? key := by
  rw [atKey?_eq] at h
  rw [atKey?_eq, atKey?_eq, records_insertNew, Keyed.find?_concat h key]

theorem atKey?_update (r : Roster) (record : Record) (key : String) :
    (r.update record).atKey? key =
      if record.key = key then (r.atKey? key).map fun known => known.merge record
      else r.atKey? key := by
  rw [atKey?_eq, atKey?_eq, records_update]
  exact Keyed.find?_change (fun known _ => Record.key_merge known record) key

theorem atKey?_merge (r : Roster) (update : Record) (key : String) :
    (r.merge update).1.atKey? key =
      if update.key = key then
        some (match r.atKey? key with
          | none => update
          | some known => known.merge update)
      else r.atKey? key := by
  unfold merge
  split
  · rename_i hnone
    rw [atKey?_insertNew]
    by_cases h : update.key = key
    · rw [if_pos h, if_pos h, ← h, hnone]
    · rw [if_neg h, if_neg h]
  · rename_i known hknown
    rw [atKey?_update]
    by_cases h : update.key = key
    · rw [if_pos h, if_pos h, ← h, hknown]
      rfl
    · rw [if_neg h, if_neg h]

theorem atKey?_erase (r : Roster) (handle key : String) :
    (r.erase handle).atKey? key =
      if Handle.key handle = key then none else r.atKey? key := by
  rw [atKey?_eq, atKey?_eq, records_erase]
  exact Keyed.find?_erase (Handle.key handle) key

theorem erase_of_find?_eq_none {r : Roster} {handle : String} (h : r.find? handle = none) :
    r.erase handle = r := by
  have hkeep : (r.slots.filter fun slot => slot.key != Handle.key handle) = r.slots := by
    refine Keyed.filter_of_ne fun slot hslot hkey => ?_
    exact atKey?_eq_none h (hkey ▸ List.mem_map_of_mem hslot)
  cases r
  unfold erase
  simp only [hkeep]

/-! ### Runs -/

/-- Whether a roster knows of a key what updates left. -/
def Tracks (r : Roster) (key : String) (history : List Record) : Prop :=
  match r.atKey? key with
  | none => history = []
  | some known => history ≠ [] ∧ Record.LatestOf history known

theorem tracks_empty (key : String) : empty.Tracks key [] := rfl

theorem tracks_perform {r : Roster} {key : String} {ops : List Op}
    (h : r.Tracks key (updatesFor key ops)) (op : Op) :
    (r.perform op).Tracks key (updatesFor key (ops ++ [op])) := by
  unfold Tracks at h ⊢
  cases op with
  | merge update =>
      unfold perform
      rw [atKey?_merge, updatesFor_merge]
      by_cases hkey : update.key = key
      · rw [if_pos hkey, if_pos hkey]
        cases hknown : r.atKey? key with
        | none =>
            rw [hknown] at h
            rw [h]
            exact ⟨List.cons_ne_nil _ _, Record.latestOf_singleton update⟩
        | some known =>
            rw [hknown] at h
            exact ⟨List.append_ne_nil_of_right_ne_nil _ (List.cons_ne_nil _ _), h.2.merge update⟩
      · rw [if_neg hkey, if_neg hkey]
        exact h
  | erase handle =>
      unfold perform
      rw [atKey?_erase, updatesFor_erase]
      by_cases hkey : Handle.key handle = key
      · rw [if_pos hkey, if_pos hkey]
      · rw [if_neg hkey, if_neg hkey]
        exact h

theorem tracks_run (key : String) (ops : List Op) : (run ops).Tracks key (updatesFor key ops) := by
  -- The last operation decides, so the induction goes from the end of the history.
  induction ops using List.reverseRecOn with
  | nil => exact tracks_empty key
  | append_singleton ops op ih =>
      unfold run
      rw [List.foldl_append]
      exact tracks_perform ih op

theorem holds_perform {P : Record → Prop} {r : Roster} (h : ∀ known ∈ r.records, P known) {op : Op}
    (hop : ∀ update, op = .merge update → P update)
    (hmerge : ∀ known update, P known → P update → P (known.merge update)) :
    ∀ known ∈ (r.perform op).records, P known := by
  cases op with
  | merge record =>
      have hrecord := hop record rfl
      show ∀ known ∈ (r.merge record).1.records, P known
      unfold merge
      split
      · rw [records_insertNew]
        exact List.forall_mem_append.mpr ⟨h, List.forall_mem_singleton.mpr hrecord⟩
      · rw [records_update]
        refine List.forall_mem_map.mpr fun known hknown => ?_
        split_ifs
        · exact hmerge known record (h known hknown) hrecord
        · exact h known hknown
  | erase handle =>
      intro known hknown
      rw [perform, records_erase] at hknown
      exact h known (List.mem_of_mem_filter hknown)

/-- What each update has and a merge keeps is true of all that is known. -/
theorem holds_run {P : Record → Prop} {ops : List Op}
    (hops : ∀ update, .merge update ∈ ops → P update)
    (hmerge : ∀ known update, P known → P update → P (known.merge update)) :
    ∀ known ∈ (run ops).records, P known := by
  induction ops using List.reverseRecOn with
  | nil => exact fun _ h => (List.not_mem_nil h).elim
  | append_singleton ops op ih =>
      unfold run
      rw [List.foldl_append]
      refine holds_perform (ih fun update h => hops update (List.mem_append_left _ h)) ?_ hmerge
      rintro update rfl
      exact hops update (List.mem_append_right _ (List.mem_singleton_self _))

/-- **A roster remembers the updates of each key since its last removal**, field by field. -/
theorem run_spec (ops : List Op) :
    ((run ops).records.map Record.key).Nodup ∧
    (∀ known ∈ (run ops).records, (run ops).find? known.handle = some known) ∧
    ∀ handle,
      ((run ops).find? handle = none ↔ updatesFor (Handle.key handle) ops = []) ∧
      ∀ known, (run ops).find? handle = some known →
        known.key = Handle.key handle ∧
        Record.LatestOf (updatesFor (Handle.key handle) ops) known := by
  refine ⟨(run ops).records_nodup, fun known hknown => ?_, fun handle => ?_⟩
  · exact ((run ops).atKey?_eq known.key).trans (Keyed.find?_of_mem (run ops).records_nodup hknown)
  have h := tracks_run (Handle.key handle) ops
  unfold Tracks at h
  unfold find?
  cases hknown : (run ops).atKey? (Handle.key handle) with
  | none =>
      rw [hknown] at h
      exact ⟨⟨fun _ => h, fun _ => rfl⟩, fun known e => (Option.some_ne_none known e.symm).elim⟩
  | some known =>
      rw [hknown] at h
      refine ⟨⟨fun e => (Option.some_ne_none known e).elim, fun e => (h.1 e).elim⟩, ?_⟩
      intro other e
      obtain rfl := Option.some.inj e
      exact ⟨key_of_atKey? hknown, h.2⟩

theorem run_spec_spellings :
    ∃ known,
      (run [.merge { handle := "Ann", extras := some { away := some ⟨[120], none⟩ } },
        .merge { handle := "Bob" }, .erase "bob", .merge { handle := "a N n" }]).find? "ANN" =
          some known ∧
      known.key = "ann" ∧ known.away? = some ⟨[120], none⟩ := by
  have hfind : (run [.merge { handle := "Ann", extras := some { away := some ⟨[120], none⟩ } },
      .merge { handle := "Bob" }, .erase "bob", .merge { handle := "a N n" }]).find? "ANN" =
        some { handle := "a N n", extras := some { away := some ⟨[120], none⟩ } } := by
    decide +kernel
  obtain ⟨hkey, hlatest⟩ := ((run_spec _).2.2 "ANN").2 _ hfind
  exact ⟨_, hfind, hkey.trans (by decide +kernel), hlatest.away.trans (by decide +kernel)⟩

end Roster
end Whereabouts
