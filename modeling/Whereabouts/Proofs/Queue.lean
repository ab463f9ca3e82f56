import Whereabouts.Proofs.Keyed
import Whereabouts.Request

/-! # What a queue of requests awaits

A queue awaits a key in one of two ways or not at all, `RequestQueue.awaits?`.  Asking never makes
less of what is awaited (`awaits?_request`), whatever its fate, and settling a key leaves the
others alone (`awaits?_resolve`).

The queue goes through its requests in loops.  As a key occurs once, a loop that stops at the first
request for a key and one that goes on behind it do the same (`upgradeFirst_eq_map`), and which
kind wins among several never matters (`retain_snd`, `resolve_eq`). -/

namespace Whereabouts

/-- Who wants to know of a key once one more asks: the application, if it ever asked. -/
def Request.Kind.join : Option Request.Kind → Request.Kind → Request.Kind
  | some .explicit, _ => .explicit
  | _, kind => kind

namespace Request

variable {rs : List Request} {key : String}

theorem upgrade_eq (r : Request) : r.upgrade = ofHandle r.handle .explicit := by
  obtain ⟨handle, kind, key, rfl⟩ := r
  rfl

theorem upgradeFirst_eq_map (h : (rs.map Request.key).Nodup) :
    upgradeFirst key rs = rs.map fun r => if r.key = key then r.upgrade else r := by
  induction rs with
  | nil => rfl
  | cons r rest ih =>
      rw [List.map_cons, List.nodup_cons] at h
      unfold upgradeFirst
      rw [List.map_cons]
      split_ifs with hkey
      · rw [Keyed.map_of_ne]
        rintro b hb rfl
        exact h.1 (hkey ▸ List.mem_map_of_mem hb)
      · rw [ih h.2]

theorem retain_snd_of_ne {found : Option Kind} (h : ∀ r ∈ rs, r.key ≠ key) :
    (retain key found rs).2 = found := by
  induction rs with
  | nil => rfl
  | cons r rest ih =>
      obtain ⟨hr, hrest⟩ := List.forall_mem_cons.mp h
      unfold retain
      rw [if_pos hr]
      exact ih hrest

/-- The loop finds the kind of the first request for the key. -/
theorem retain_snd (h : (rs.map Request.key).Nodup) :
    (retain key none rs).2 = (rs.find? fun r => r.key == key).map Request.kind := by
  induction rs with
  | nil => rfl
  | cons r rest ih =>
      rw [List.map_cons, List.nodup_cons] at h
      unfold retain
      by_cases hkey : r.key = key
      · rw [if_neg (not_not.mpr hkey), List.find?_cons_of_pos (by simpa using hkey)]
        refine retain_snd_of_ne ?_
        rintro b hb rfl
        exact h.1 (hkey ▸ List.mem_map_of_mem hb)
      · rw [if_pos hkey, List.find?_cons_of_neg (by simpa using hkey)]
        exact ih h.2

end Request

namespace RequestQueue

theorem requests_upgrade (q : RequestQueue) (key : String) :
    (q.upgrade key).requests = q.requests.map fun r => if r.key = key then r.upgrade else r :=
  Request.upgradeFirst_eq_map q.keys_nodup

/-- The queue without the request for a key. -/
def eraseKey (q : RequestQueue) (key : String) : RequestQueue :=
  ⟨q.capacity, q.requests.filter fun r => r.key != key,
    q.keys_nodup.sublist (List.filter_sublist.map Request.key),
    Nat.le_trans (List.length_filter_le _ _) q.length_le⟩

theorem resolve_eq (q : RequestQueue) (handle : String) :
    q.resolve handle =
      (q.eraseKey (Handle.key handle), (q.atKey? (Handle.key handle)).map Request.kind) := by
  unfold resolve eraseKey
  simp only [Request.retain_fst, Request.retain_snd q.keys_nodup]
  rfl

/-- How a key is awaited. -/
def awaits? (q : RequestQueue) (key : String) : Option Request.Kind :=
  (q.atKey? key).map Request.kind

theorem awaits?_of_atKey?_eq_none {q : RequestQueue} {key : String} (h : q.atKey? key = none) :
    q.awaits? key = none := by
  rw [awaits?, h, Option.map_none]

theorem awaits?_empty (capacity : Nat) (key : String) : (empty capacity).awaits? key = none := rfl

theorem awaits?_push (q : RequestQueue) (r : Request) (new : q.atKey? r.key = none)
    (room : q.size < q.capacity) (key : String) :
    (q.push r new room).awaits? key = if r.key = key then some r.kind else q.awaits? key := by
  rw [awaits?, awaits?, show (q.push r new room).atKey? key = _ from Keyed.find?_concat new key]
  split_ifs
  · rfl
  · rfl

theorem awaits?_upgrade (q : RequestQueue) (k key : String) :
    (q.upgrade k).awaits? key =
      if k = key then (q.awaits? key).map fun _ => .explicit else q.awaits? key := by
  have hkey : ∀ r : Request, r.key = k → r.upgrade.key = k := fun _ h => h
  have hfind := Keyed.find?_change (l := q.requests) hkey key
  rw [← requests_upgrade] at hfind
  rw [awaits?, awaits?, show (q.upgrade k).atKey? key = _ from hfind]
  split_ifs
  · rw [Option.map_map, Option.map_map]
    rfl
  · rfl

theorem awaits?_eraseKey (q : RequestQueue) (k key : String) :
    (q.eraseKey k).awaits? key = if k = key then none else q.awaits? key := by
  rw [awaits?, awaits?, show (q.eraseKey k).atKey? key = _ from Keyed.find?_erase k key]
  split_ifs
  · rfl
  · rfl

/-! ### Asking -/

/-- What asking does to a queue, with the fate of the request. -/
inductive Asked (q : RequestQueue) (handle : String) (kind : Request.Kind) :
    RequestQueue × Request.Fate → Prop where
  | upgraded (found : q.awaits? (Handle.key handle) = some .implicit) (asks : kind = .explicit) :
      Asked q handle kind (q.upgrade (Handle.key handle), .upgraded)
  | duplicate {waiting : Request.Kind} (found : q.awaits? (Handle.key handle) = some waiting)
      (asks : ¬ (kind = .explicit ∧ waiting = .implicit)) : Asked q handle kind (q, .duplicate)
  | queued (new : q.atKey? (Request.ofHandle handle kind).key = none) (room : q.size < q.capacity) :
      Asked q handle kind (q.push (.ofHandle handle kind) new room, .queued)
  | dropped (new : q.awaits? (Handle.key handle) = none) (full : q.capacity ≤ q.size) :
      Asked q handle kind (q, .dropped)

theorem asked_request (q : RequestQueue) (handle : String) (kind : Request.Kind) :
    Asked q handle kind (q.request handle kind) := by
  unfold request
  split
  · rename_i waiting hwaiting
    have found : q.awaits? (Handle.key handle) = some waiting.kind := by
      unfold awaits?
      rw [hwaiting, Option.map_some]
    split_ifs with hup
    · exact .upgraded (hup.2 ▸ found) hup.1
    · exact .duplicate found hup
  · rename_i hnone
    split_ifs with room
    · exact .queued hnone room
    · exact .dropped (awaits?_of_atKey?_eq_none hnone) (Nat.le_of_not_lt room)

/-- A request that is not dropped joins what is awaited of its key. -/
theorem awaits?_request (q : RequestQueue) (handle : String) (kind : Request.Kind) (key : String) :
    (q.request handle kind).1.awaits? key =
      if Handle.key handle = key ∧ (q.request handle kind).2 ≠ .dropped then
        some (.join (q.awaits? key) kind)
      else q.awaits? key := by
  have h := asked_request q handle kind
  generalize q.request handle kind = result at h
  by_cases hkey : Handle.key handle = key
  · subst hkey
    cases h with
    | upgraded found asks => simp [awaits?_upgrade, found, asks, Request.Kind.join]
    | duplicate found asks =>
        rename_i waiting
        cases waiting <;> cases kind <;> simp_all [Request.Kind.join]
    | queued new room =>
        have hnone : q.awaits? (Handle.key handle) = none := awaits?_of_atKey?_eq_none new
        simp [awaits?_push, hnone, Request.Kind.join]
    | dropped new full => simp [new]
  · rw [if_neg fun both => hkey both.1]
    cases h with
    | upgraded found asks => rw [awaits?_upgrade, if_neg hkey]
    | duplicate found asks => rfl
    | queued new room => exact (awaits?_push q _ new room key).trans (if_neg hkey)
    | dropped new full => rfl

/-! ### Settling -/

theorem resolve_snd (q : RequestQueue) (handle : String) :
    (q.resolve handle).2 = q.awaits? (Handle.key handle) :=
  congrArg Prod.snd (resolve_eq q handle)

theorem awaits?_resolve (q : RequestQueue) (handle key : String) :
    (q.resolve handle).1.awaits? key =
      if Handle.key handle = key then none else q.awaits? key := by
  rw [resolve_eq]
  exact awaits?_eraseKey q (Handle.key handle) key

end RequestQueue
end Whereabouts
