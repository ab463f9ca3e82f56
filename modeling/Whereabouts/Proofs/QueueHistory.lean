import Whereabouts.Proofs.Queue

/-! # What waits in a queue, read off its history

A queue is the outcome of requests and settlements in some order.  What waits in it can be told
from that history alone, without a queue: the requests that were queued and whose key was not
settled later, in order, each explicit if it was made so or the application asked for its key
later (`unsettled`).

One operation changes the queue as it changes this list (`unsettled_concat`,
`requests_perform`), so the two agree after every history.  `Run.reference` says so, and what
each operation does to the list: `RequestLaw` for a request, `SettleLaw` for a settlement. -/

namespace Whereabouts

namespace Request

@[simp] theorem upgrade_upgrade (r : Request) : r.upgrade.upgrade = r.upgrade := rfl

theorem upgrade_of_ne {r : Request} (h : r.kind ≠ .implicit) : r.upgrade = r := by
  obtain ⟨handle, kind, key, hkey⟩ := r
  cases kind with
  | explicit => rfl
  | implicit => exact absurd rfl h

end Request

namespace RequestQueue

/-! ### Histories -/

inductive Op where
  | request (handle : String) (kind : Request.Kind)
  /-- Settles a handle and asks for the kind of what waited. -/
  | resolve (handle : String)
  /-- Settles a handle and asks whether the application is to be told. -/
  | settle (handle : String)

inductive Reply where
  | requested (fate : Request.Fate)
  | resolved (kind : Option Request.Kind)
  | settled (told : Bool)

/-- The queue after an operation, and its answer. -/
def perform (q : RequestQueue) : Op → RequestQueue × Reply
  | .request handle kind => ((q.request handle kind).1, .requested (q.request handle kind).2)
  | .resolve handle => ((q.resolve handle).1, .resolved (q.resolve handle).2)
  | .settle handle => ((q.settle handle).1, .settled (q.settle handle).2)

/-- An operation and its answer. -/
structure Occurrence where
  op : Op
  reply : Reply

/-- `Run capacity history q`: the queue `q` began empty with the capacity, and then the operations
of the history were performed, the last of which stands last. -/
inductive Run (capacity : Nat) : List Occurrence → RequestQueue → Prop where
  | start : Run capacity [] (empty capacity)
  | perform {history : List Occurrence} {q : RequestQueue} (run : Run capacity history q)
      (op : Op) : Run capacity (history ++ [⟨op, (q.perform op).2⟩]) (q.perform op).1

namespace Occurrence

/-- Whether a key is settled. -/
def settles (key : String) (o : Occurrence) : Bool :=
  match o.op with
  | .request .. => false
  | .resolve handle | .settle handle => Handle.key handle == key

/-- Whether the application asks for a key. -/
def urges (key : String) (o : Occurrence) : Bool :=
  match o.op with
  | .request handle .explicit => Handle.key handle == key
  | _ => false

/-- The request that goes into the queue. -/
def queued? (o : Occurrence) : Option Request :=
  match o.op, o.reply with
  | .request handle kind, .requested .queued => some (.ofHandle handle kind)
  | _, _ => none

end Occurrence

/-- A request that went into the queue, after what came later: nothing, once its key is settled. -/
def outlasting? (later : List Occurrence) (r : Request) : Option Request :=
  if later.any (Occurrence.settles r.key) then none
  else some (if later.any (Occurrence.urges r.key) then r.upgrade else r)

/-- The requests that wait after a history, in the order in which they were queued and with the
handle as it was spelled then.  As their keys are distinct, each is the first that was queued for
its key since the key was last settled. -/
def unsettled : List Occurrence → List Request
  | [] => []
  | o :: later => (o.queued?.bind (outlasting? later)).toList ++ unsettled later

theorem outlasting?_concat (later : List Occurrence) (o : Occurrence) (r : Request) :
    outlasting? (later ++ [o]) r =
      ((outlasting? later r).filter fun r => !o.settles r.key).map fun r =>
        if o.urges r.key then r.upgrade else r := by
  simp only [outlasting?, List.any_append, List.any_cons, List.any_nil, Bool.or_false]
  cases later.any (Occurrence.settles r.key) with
  | true => rfl
  | false =>
      -- Upgrading keeps the key, so the last occurrence meets the same key either way.
      cases later.any (Occurrence.urges r.key) <;> cases hs : o.settles r.key <;>
        cases hu : o.urges r.key <;> simp [Option.filter, hs, hu]

/-- One more occurrence takes out what it settles, makes explicit what the application asks for, and
adds what it queues. -/
theorem unsettled_concat (history : List Occurrence) (o : Occurrence) :
    unsettled (history ++ [o]) =
      ((unsettled history).filter fun r => !o.settles r.key).map
        (fun r => if o.urges r.key then r.upgrade else r) ++ o.queued?.toList := by
  induction history with
  | nil =>
      have hnew : o.queued?.bind (outlasting? []) = o.queued? := by
        cases o.queued? <;> rfl
      simp only [List.nil_append, unsettled, hnew, List.filter_nil, List.map_nil, List.append_nil]
  | cons o' later ih =>
      have hfirst : (o'.queued?.bind (outlasting? (later ++ [o]))).toList =
          ((o'.queued?.bind (outlasting? later)).toList.filter fun r => !o.settles r.key).map
            fun r => if o.urges r.key then r.upgrade else r := by
        cases o'.queued? with
        | none => rfl
        | some r =>
            simp only [Option.bind_some, outlasting?_concat]
            cases outlasting? later r with
            | none => rfl
            | some r => cases h : o.settles r.key <;> simp [Option.filter, h]
      simp only [List.cons_append, unsettled, hfirst, ih, List.filter_append, List.map_append,
        List.append_assoc]

theorem unsettled_request (history : List Occurrence) (handle : String) (kind : Request.Kind)
    (fate : Request.Fate) :
    unsettled (history ++ [⟨.request handle kind, .requested fate⟩]) =
      (if kind = .explicit then
        (unsettled history).map fun r => if r.key = Handle.key handle then r.upgrade else r
      else unsettled history) ++ if fate = .queued then [.ofHandle handle kind] else [] := by
  have hkept : ((unsettled history).filter fun r =>
      !(Occurrence.mk (.request handle kind) (.requested fate)).settles r.key) =
        unsettled history := List.filter_true _
  rw [unsettled_concat, hkept]
  congr 1
  · cases kind with
    | explicit =>
        rw [if_pos rfl]
        apply List.map_congr_left
        intro r _
        exact if_congr (beq_iff_eq.trans eq_comm) rfl rfl
    | implicit => exact List.map_id _
  · cases fate <;> rfl

theorem unsettled_settled (history : List Occurrence) {o : Occurrence} {handle : String}
    (h : o.op = .resolve handle ∨ o.op = .settle handle) :
    unsettled (history ++ [o]) =
      (unsettled history).filter fun r => r.key != Handle.key handle := by
  have hsettles : (fun r : Request => !o.settles r.key) = fun r => r.key != Handle.key handle := by
    funext r
    rcases h with h | h <;> simp [Occurrence.settles, h, Bool.beq_comm, bne]
  have hurges : ∀ key, o.urges key = false := by
    intro key
    rcases h with h | h <;> simp [Occurrence.urges, h]
  have hqueued : o.queued? = none := by
    rcases h with h | h <;> simp [Occurrence.queued?, h]
  simp [unsettled_concat, hsettles, hurges, hqueued]

/-! ### One operation -/

section operation

variable (q : RequestQueue)

theorem awaits?_of_mem {r : Request} (h : r ∈ q.requests) : q.awaits? r.key = some r.kind := by
  have hfind : q.atKey? r.key = some r := Keyed.find?_of_mem q.keys_nodup h
  rw [awaits?, hfind, Option.map_some]

/-- Only what is awaited implicitly can be made explicit. -/
theorem requests_upgrade_of_ne {key : String} (h : q.awaits? key ≠ some .implicit) :
    (q.upgrade key).requests = q.requests := by
  rw [requests_upgrade]
  conv_rhs => rw [← List.map_id q.requests]
  apply List.map_congr_left
  intro r hr
  by_cases hkey : r.key = key
  · have hkind : r.kind ≠ .implicit := by
      intro himplicit
      apply h
      rw [← hkey, awaits?_of_mem q hr, himplicit]
    rw [if_pos hkey, id_eq]
    exact Request.upgrade_of_ne hkind
  · rw [if_neg hkey, id_eq]

/-- Whatever its fate, an explicit request leaves its key explicit, and a request joins the queue
exactly if it is queued. -/
theorem requests_request (handle : String) (kind : Request.Kind) :
    (q.request handle kind).1.requests =
      (if kind = .explicit then (q.upgrade (Handle.key handle)).requests else q.requests) ++
        if (q.request handle kind).2 = .queued then [.ofHandle handle kind] else [] := by
  have h := asked_request q handle kind
  generalize q.request handle kind = result at h
  have hsame : q.awaits? (Handle.key handle) ≠ some .implicit →
      (if kind = .explicit then (q.upgrade (Handle.key handle)).requests else q.requests) =
        q.requests := by
    intro hne
    rw [requests_upgrade_of_ne q hne, ite_self]
  cases h with
  | upgraded found asks => simp [asks]
  | @duplicate waiting found asks =>
      cases kind with
      | implicit => simp
      | explicit =>
          have hne : waiting ≠ .implicit := fun himplicit => asks ⟨rfl, himplicit⟩
          rw [hsame (by rw [found]; exact fun e => hne (Option.some.inj e))]
          simp
  | queued new room =>
      have hnone : q.awaits? (Handle.key handle) = none := awaits?_of_atKey?_eq_none new
      rw [hsame (by simp [hnone])]
      rfl
  | dropped new full =>
      rw [hsame (by simp [new])]
      simp

theorem requests_perform {history : List Occurrence} (h : q.requests = unsettled history)
    (op : Op) :
    (q.perform op).1.requests = unsettled (history ++ [⟨op, (q.perform op).2⟩]) := by
  cases op with
  | request handle kind =>
      show (q.request handle kind).1.requests =
        unsettled (history ++ [⟨.request handle kind, .requested (q.request handle kind).2⟩])
      rw [requests_request, unsettled_request, ← h, requests_upgrade]
  | resolve handle =>
      rw [unsettled_settled history (.inl rfl), ← h]
      exact congrArg (·.1.requests) (resolve_eq q handle)
  | settle handle =>
      rw [unsettled_settled history (.inr rfl), ← h]
      exact congrArg (·.1.requests) (resolve_eq q handle)

theorem capacity_perform (op : Op) : (q.perform op).1.capacity = q.capacity := by
  cases op with
  | request handle kind =>
      show (q.request handle kind).1.capacity = q.capacity
      have h := asked_request q handle kind
      generalize q.request handle kind = result at h
      cases h <;> rfl
  | resolve handle => rfl
  | settle handle => rfl

/-! ### What an operation does -/

/-- What a request does to a queue. -/
structure RequestLaw (handle : String) (kind : Request.Kind) : Prop where
  dropped_iff : (q.request handle kind).2 = .dropped ↔
    Handle.key handle ∉ q.requests.map Request.key ∧ q.capacity ≤ q.requests.length
  queued_iff : (q.request handle kind).2 = .queued ↔
    Handle.key handle ∉ q.requests.map Request.key ∧ q.requests.length < q.capacity
  upgraded_iff : (q.request handle kind).2 = .upgraded ↔
    kind = .explicit ∧ ∃ r ∈ q.requests, r.key = Handle.key handle ∧ r.kind = .implicit
  duplicate_iff : (q.request handle kind).2 = .duplicate ↔
    Handle.key handle ∈ q.requests.map Request.key ∧
      ¬ (kind = .explicit ∧ ∃ r ∈ q.requests, r.key = Handle.key handle ∧ r.kind = .implicit)
  unchanged : (q.request handle kind).2 = .dropped ∨ (q.request handle kind).2 = .duplicate →
    (q.request handle kind).1 = q
  /-- A new request goes to the end. -/
  queued : (q.request handle kind).2 = .queued →
    (q.request handle kind).1.requests = q.requests ++ [.ofHandle handle kind]
  /-- An upgraded request keeps its place and its handle. -/
  upgraded : (q.request handle kind).2 = .upgraded →
    ∃ front r back, q.requests = front ++ r :: back ∧ r.key = Handle.key handle ∧
      r.kind = .implicit ∧
      (q.request handle kind).1.requests = front ++ .ofHandle r.handle .explicit :: back

/-- What settling a handle does to a queue. -/
structure SettleLaw (handle : String) : Prop where
  /-- At most one request goes, the others keep their order, and none of the key is left. -/
  parted : ∃ front back, q.requests = front ++ (q.atKey? (Handle.key handle)).toList ++ back ∧
    (q.resolve handle).1.requests = front ++ back ∧
    Handle.key handle ∉ (front ++ back).map Request.key
  answer : (q.resolve handle).2 = (q.atKey? (Handle.key handle)).map Request.kind
  same : (q.settle handle).1 = (q.resolve handle).1
  told_iff : (q.settle handle).2 = true ↔
    ∃ r, q.atKey? (Handle.key handle) = some r ∧ r.kind = .explicit

theorem awaits?_eq_none_iff (key : String) :
    q.awaits? key = none ↔ key ∉ q.requests.map Request.key := by
  rw [awaits?, Option.map_eq_none_iff]
  exact Keyed.find?_eq_none_iff

theorem awaits?_eq_some_iff (key : String) (kind : Request.Kind) :
    q.awaits? key = some kind ↔ ∃ r ∈ q.requests, r.key = key ∧ r.kind = kind := by
  constructor
  · intro h
    obtain ⟨r, hfind, hkind⟩ := Option.map_eq_some_iff.mp h
    exact ⟨r, List.mem_of_find?_eq_some hfind, Keyed.tell_of_find? hfind, hkind⟩
  · rintro ⟨r, hr, rfl, rfl⟩
    exact awaits?_of_mem q hr

/-- The fate of a request: what is awaited of its key comes before the capacity. -/
theorem fate_request (handle : String) (kind : Request.Kind) :
    (q.request handle kind).2 =
      match q.awaits? (Handle.key handle) with
      | some waiting =>
          if kind = .explicit ∧ waiting = .implicit then .upgraded else .duplicate
      | none => if q.requests.length < q.capacity then .queued else .dropped := by
  have h := asked_request q handle kind
  generalize q.request handle kind = result at h
  cases h with
  | upgraded found asks => simp [found, asks]
  | duplicate found asks => simp only [found, if_neg asks]
  | queued new room =>
      have hnone : q.awaits? (Handle.key handle) = none := awaits?_of_atKey?_eq_none new
      simp only [hnone, if_pos (show q.requests.length < q.capacity from room)]
  | dropped new full =>
      simp only [new, if_neg (Nat.not_lt.mpr (show q.capacity ≤ q.requests.length from full))]

theorem requestLaw (handle : String) (kind : Request.Kind) : RequestLaw q handle kind := by
  have hfate := fate_request q handle kind
  have hasked := asked_request q handle kind
  refine { dropped_iff := ?_, queued_iff := ?_, upgraded_iff := ?_, duplicate_iff := ?_,
           unchanged := ?_, queued := ?_, upgraded := ?_ }
  · rw [hfate, ← awaits?_eq_none_iff]
    cases q.awaits? (Handle.key handle) with
    | none => simp
    | some waiting => cases waiting <;> cases kind <;> simp
  · rw [hfate, ← awaits?_eq_none_iff]
    cases q.awaits? (Handle.key handle) with
    | none => simp
    | some waiting => cases waiting <;> cases kind <;> simp
  · rw [hfate, ← awaits?_eq_some_iff]
    cases q.awaits? (Handle.key handle) with
    | none => simp; split_ifs <;> simp
    | some waiting => cases waiting <;> cases kind <;> simp
  · rw [hfate, ← awaits?_eq_some_iff, ← not_not (a := Handle.key handle ∈ _),
      ← awaits?_eq_none_iff]
    cases q.awaits? (Handle.key handle) with
    | none => simp; split_ifs <;> simp
    | some waiting => cases waiting <;> cases kind <;> simp
  · generalize q.request handle kind = result at hasked ⊢
    cases hasked <;> simp
  · generalize q.request handle kind = result at hasked ⊢
    cases hasked <;> simp [push]
  · generalize q.request handle kind = result at hasked ⊢
    intro hup
    cases hasked with
    | upgraded found asks =>
        obtain ⟨r, hfind, hkind⟩ := Option.map_eq_some_iff.mp found
        obtain ⟨front, back, hsplit, hkey, hothers⟩ := Keyed.exists_parting q.keys_nodup hfind
        refine ⟨front, r, back, hsplit, hkey, hkind, ?_⟩
        rw [requests_upgrade, hsplit, ← Request.upgrade_eq]
        exact Keyed.map_parted hkey hothers
    | duplicate found asks => cases hup
    | queued new room => cases hup
    | dropped new full => cases hup

theorem settleLaw (handle : String) : SettleLaw q handle := by
  have hresolve := resolve_eq q handle
  refine { parted := ?_, answer := congrArg Prod.snd hresolve, same := rfl, told_iff := ?_ }
  · rw [hresolve]
    show ∃ front back, _ ∧ (q.requests.filter fun r => r.key != Handle.key handle) = _ ∧ _
    cases hfind : q.atKey? (Handle.key handle) with
    | none =>
        have hnone : Handle.key handle ∉ q.requests.map Request.key :=
          Keyed.find?_eq_none_iff.mp hfind
        refine ⟨q.requests, [], by simp, ?_, by simpa using hnone⟩
        rw [List.append_nil]
        exact Keyed.filter_of_ne fun r hr hkey => hnone (hkey ▸ List.mem_map_of_mem hr)
    | some r =>
        obtain ⟨front, back, hsplit, hkey, hothers⟩ := Keyed.exists_parting q.keys_nodup hfind
        refine ⟨front, back, by simp [hsplit], ?_, ?_⟩
        · rw [hsplit]
          exact Keyed.filter_parted hkey hothers
        · rintro hmem
          obtain ⟨x, hx, hsame⟩ := List.mem_map.mp hmem
          exact hothers x hx hsame
  · show decide ((q.resolve handle).2 = some .explicit) = true ↔ _
    rw [hresolve, decide_eq_true_iff, Option.map_eq_some_iff]

end operation

/-! ### Runs -/

variable {capacity : Nat} {history : List Occurrence} {q : RequestQueue}

theorem capacity_of_run (run : Run capacity history q) : q.capacity = capacity := by
  induction run with
  | start => rfl
  | perform _ op ih => rw [capacity_perform, ih]

theorem requests_of_run (run : Run capacity history q) : q.requests = unsettled history := by
  induction run with
  | start => rfl
  | perform _ op ih => exact requests_perform _ ih op

/-- **A queue holds what its history leaves unsettled**, one request a key and no more than its
capacity, and each operation changes that list as it should. -/
theorem Run.reference (run : Run capacity history q) :
    q.capacity = capacity ∧ q.requests = unsettled history ∧
    ((unsettled history).map Request.key).Nodup ∧
    (∀ r ∈ unsettled history, q.atKey? (Handle.key r.handle) = some r) ∧
    (unsettled history).length ≤ capacity ∧
    q.next? = (unsettled history).head? ∧
    (∀ handle, q.isPending handle = true ↔
      Handle.key handle ∈ (unsettled history).map Request.key) ∧
    (∀ handle kind, RequestLaw q handle kind) ∧ ∀ handle, SettleLaw q handle := by
  have hcapacity := capacity_of_run run
  have hrequests := requests_of_run run
  rw [← hrequests]
  refine ⟨hcapacity, rfl, q.keys_nodup, ?_, ?_, rfl, ?_, requestLaw q, settleLaw q⟩
  · intro r hr
    exact r.key_eq ▸ Keyed.find?_of_mem q.keys_nodup hr
  · rw [← hcapacity]
    exact q.length_le
  · intro handle
    have hnone : q.atKey? (Handle.key handle) = none ↔ _ := Keyed.find?_eq_none_iff
    rw [isPending, Option.isSome_iff_ne_none, Ne, hnone, not_not]

/-- In a full queue a request keeps its place and its first spelling when the application asks for
it again, and moves up when the one before it is settled. -/
theorem Run.reference_spellings :
    ∃ history q, Run 2 history q ∧ q.requests = [.ofHandle "Bob" .explicit] ∧
      unsettled history = [.ofHandle "Bob" .explicit] ∧ q.next? = some (.ofHandle "Bob" .explicit) ∧
      (q.request "b OB" .explicit).2 = .duplicate ∧ (q.settle "BOB").2 = true := by
  have run : Run 2 _ _ :=
    .perform (.perform (.perform (.perform (.perform .start (.request "Ann" .implicit))
      (.request "Bob" .implicit)) (.request "Cleo" .explicit)) (.request "bob" .explicit))
      (.resolve "a nn")
  obtain ⟨-, hrequests, -, -, -, hnext, -, hrequest, hsettle⟩ := run.reference
  have hbob := hrequests.symm.trans (by decide +kernel : _ = [.ofHandle "Bob" .explicit])
  refine ⟨_, _, run, hrequests.trans hbob, hbob, hnext.trans (by rw [hbob]; rfl), ?_, ?_⟩
  · exact (hrequest "b OB" .explicit).duplicate_iff.mpr ⟨by decide +kernel, by decide +kernel⟩
  · exact (hsettle "BOB").told_iff.mpr ⟨.ofHandle "Bob" .explicit, by decide +kernel, rfl⟩

end RequestQueue
end Whereabouts
