import Whereabouts.Handle

/-! # Outstanding requests

Requests for a user's record wait in the order in which they were made, one for each key of a
handle.  A request is explicit if the application asked for it and implicit if it was made
ahead of need.  Asking explicitly for what is awaited implicitly makes the waiting request
explicit and keeps its place.  A full queue takes no new key. -/

namespace Whereabouts

/-- Who wants to know. -/
inductive Request.Kind where
  /-- The application asked. -/
  | explicit
  /-- It was asked for ahead of need. -/
  | implicit
deriving DecidableEq, Repr

def Request.Kind.name : Request.Kind → String
  | explicit => "explicit"
  | implicit => "implicit"

/-- What became of a request. -/
inductive Request.Fate where
  | queued
  /-- The key is awaited already; nothing changed. -/
  | duplicate
  /-- The key was awaited implicitly and is now awaited explicitly. -/
  | upgraded
  /-- The queue is full; nothing changed. -/
  | dropped
deriving DecidableEq, Repr

def Request.Fate.name : Request.Fate → String
  | queued => "queued"
  | duplicate => "duplicate"
  | upgraded => "upgraded"
  | dropped => "dropped"

/-- A request that waits for its answer. -/
structure Request where
  /-- The handle as it was spelled first. -/
  handle : String
  kind : Request.Kind
  key : String
  key_eq : key = Handle.key handle
deriving DecidableEq, Repr

namespace Request

def ofHandle (handle : String) (kind : Kind) : Request := ⟨handle, kind, Handle.key handle, rfl⟩

@[simp] theorem key_ofHandle (handle : String) (kind : Kind) :
    (ofHandle handle kind).key = Handle.key handle := rfl

@[simp] theorem kind_ofHandle (handle : String) (kind : Kind) :
    (ofHandle handle kind).kind = kind := rfl

def upgrade (r : Request) : Request := { r with kind := .explicit }

@[simp] theorem key_upgrade (r : Request) : r.upgrade.key = r.key := rfl

/-- Makes the first request for a key explicit. -/
def upgradeFirst (key : String) : List Request → List Request
  | [] => []
  | r :: rest => if r.key = key then r.upgrade :: rest else r :: upgradeFirst key rest

theorem map_key_upgradeFirst (key : String) (rs : List Request) :
    (upgradeFirst key rs).map Request.key = rs.map Request.key := by
  induction rs with
  | nil => rfl
  | cons r rest ih =>
      unfold upgradeFirst
      split
      · rfl
      · rw [List.map_cons, ih, List.map_cons]

/-- Keeps the requests for other keys, and tells of what kind the others were.  `found` is the kind
that was found so far.  Explicit wins. -/
def retain (key : String) (found : Option Kind) : List Request → List Request × Option Kind
  | [] => ([], found)
  | r :: rest =>
      if r.key ≠ key then
        let (kept, found) := retain key found rest
        (r :: kept, found)
      else retain key (if found ≠ some .explicit then some r.kind else found) rest

theorem retain_fst (key : String) (found : Option Kind) (rs : List Request) :
    (retain key found rs).1 = rs.filter fun r => r.key != key := by
  induction rs generalizing found with
  | nil => rfl
  | cons r rest ih =>
      unfold retain
      split
      · rename_i h
        rw [List.filter_cons_of_pos (by simpa using h), ← ih found]
      · rename_i h
        rw [List.filter_cons_of_neg (by simpa using h)]
        exact ih _

end Request

/-- The requests that wait, the oldest first, at most one for each key. -/
structure RequestQueue where
  /-- How many requests may wait. -/
  capacity : Nat
  requests : List Request
  keys_nodup : (requests.map Request.key).Nodup
  length_le : requests.length ≤ capacity

namespace RequestQueue

def empty (capacity : Nat) : RequestQueue := ⟨capacity, [], List.nodup_nil, Nat.zero_le _⟩

def size (q : RequestQueue) : Nat := q.requests.length

/-- The request that waits for a key. -/
def atKey? (q : RequestQueue) (key : String) : Option Request :=
  q.requests.find? fun r => r.key == key

def isPending (q : RequestQueue) (handle : String) : Bool :=
  (q.atKey? (Handle.key handle)).isSome

/-- The request that has waited longest. -/
def next? (q : RequestQueue) : Option Request := q.requests.head?

theorem atKey?_eq_none {q : RequestQueue} {key : String} (h : q.atKey? key = none) :
    key ∉ q.requests.map Request.key := by
  intro mem
  obtain ⟨r, hr, e⟩ := List.mem_map.mp mem
  have := List.find?_eq_none.mp h r hr
  simp [e] at this

/-- The queue with one more request at the end. -/
def push (q : RequestQueue) (r : Request) (new : q.atKey? r.key = none)
    (room : q.size < q.capacity) : RequestQueue :=
  ⟨q.capacity, q.requests ++ [r], by
    rw [List.map_append, List.nodup_append]
    refine ⟨q.keys_nodup, by simp, fun a ha b hb e => atKey?_eq_none new ?_⟩
    rw [List.mem_map] at hb
    obtain ⟨x, hx, rfl⟩ := hb
    rw [List.mem_singleton.mp hx] at e
    exact e ▸ ha, by
    rw [List.length_append]
    exact room⟩

/-- The queue with the first request for a key made explicit. -/
def upgrade (q : RequestQueue) (key : String) : RequestQueue :=
  ⟨q.capacity, Request.upgradeFirst key q.requests, by
    rw [Request.map_key_upgradeFirst]
    exact q.keys_nodup, by
    rw [← List.length_map Request.key, Request.map_key_upgradeFirst, List.length_map]
    exact q.length_le⟩

/-- Asks for a handle.  A key that is awaited already never counts against the capacity. -/
def request (q : RequestQueue) (handle : String) (kind : Request.Kind) :
    RequestQueue × Request.Fate :=
  match new : q.atKey? (Handle.key handle) with
  | some waiting =>
      if kind = .explicit ∧ waiting.kind = .implicit then
        (q.upgrade (Handle.key handle), .upgraded)
      else (q, .duplicate)
  | none =>
      if room : q.size < q.capacity then (q.push (.ofHandle handle kind) new room, .queued)
      else (q, .dropped)

/-- Settles what waits for a handle, and tells its kind. -/
def resolve (q : RequestQueue) (handle : String) : RequestQueue × Option Request.Kind :=
  let taken := Request.retain (Handle.key handle) none q.requests
  (⟨q.capacity, taken.1, by
    rw [Request.retain_fst]
    exact q.keys_nodup.sublist (List.filter_sublist.map Request.key), by
    rw [Request.retain_fst]
    exact Nat.le_trans (List.length_filter_le _ _) q.length_le⟩, taken.2)

/-- Settles what waits for a handle, and tells whether the application had asked. -/
def settle (q : RequestQueue) (handle : String) : RequestQueue × Bool :=
  let (rest, kind) := q.resolve handle
  (rest, kind = some .explicit)

end RequestQueue
end Whereabouts
