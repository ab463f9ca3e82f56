import Whereabouts.Proofs.EntryRuns

/-! # Chains that are read in two goes or that are cut short

A walk over entries may stop anywhere and go on from there (`Walk.trans`), so a reader that takes
some entries first and the rest with what is left of its limit takes the same entries as one that
takes them at once.

Octets that are cut short begin as the whole octets do, and so does a walk over them: its entries
are those of the whole, and only the last may have lost some of its value (`Walk.begins`). -/

namespace Whereabouts

/-! ### Two goes -/

/-- Reads at most `count` entries, and then the others with what is left of the limit. -/
def Chain.readInTwo (count : UInt16) (limit : Nat) : Reader (List Tlv.Found) := do
  let start ← get
  let first ← read (some count) limit
  let stop ← get
  let second ← read none (limit - (stop.position - start.position))
  return first ++ second

/-- The same on a machine. -/
def Checked.entriesInTwo (count : UInt16) (limit : Nat) : Checked (List Tlv.Found) := do
  let start ← get
  let first ← entries (some count) limit
  let stop ← get
  let consumed ← sub stop.position start.position
  let room ← sub limit consumed
  let second ← entries none room
  return first ++ second

namespace Chain

/-- The entries of both goes are those of one walk, and each go reads its own. -/
theorem exists_reads_twice (count : UInt16) (limit : Nat) (c : Cursor) :
    ∃ first second c₁ c₂, Reads (some count) limit c first c₁ ∧
      c.position ≤ c₁.position ∧ c₁.position - c.position ≤ limit ∧ c₁.buffer = c.buffer ∧
      Reads none (limit - (c₁.position - c.position)) c₁ second c₂ ∧
      Reads none limit c (first ++ second) c₂ := by
  obtain ⟨first, room, mid, hwalk, hfirst, -, -⟩ := exists_reads (some count) limit c
  have hroom := hwalk.room_eq
  have hposition := hwalk.position_advance
  have hleft : limit - ((c.advance (foundSize first)).position - c.position) = room := by omega
  obtain ⟨second, room', left, hwalk', hsecond, -, hend⟩ :=
    exists_reads none room (c.advance (foundSize first))
  have hstop : Tlv.split? room' left = none := hend fun _ h => nomatch h
  rw [hwalk.unread_advance] at hwalk'
  have hboth := (hwalk.trans hwalk').reads none (fun _ h => nomatch h) fun _ => hstop
  have hsize : foundSize (first ++ second) = foundSize first + foundSize second := by
    unfold foundSize
    rw [List.map_append, List.sum_append]
  rw [hsize, ← Cursor.advance_advance] at hboth
  exact ⟨first, second, _, _, hfirst, by omega, by omega, rfl, hleft ▸ hsecond, hboth⟩

theorem readInTwo_eq (count : UInt16) (limit : Nat) : readInTwo count limit = read none limit := by
  funext c
  obtain ⟨first, second, c₁, c₂, hfirst, -, -, -, hsecond, hboth⟩ := exists_reads_twice count limit c
  unfold readInTwo
  rw [hboth.library, Reader.get_bind, Reader.bind_ok hfirst.library, Reader.get_bind,
    Reader.bind_ok hsecond.library]
  rfl

end Chain

theorem Checked.follows_entriesInTwo (count : UInt16) (limit : Nat) :
    Follows (entriesInTwo count limit) (Chain.read none limit) := by
  intro c hc
  obtain ⟨first, second, c₁, c₂, hfirst, hposition, hlimit, hbuffer, hsecond, hboth⟩ :=
    Chain.exists_reads_twice count limit c
  have hread := (follows_entries none limit c hc).buffer_eq hboth.library
  refine .of_runs hboth.library ?_ hread
  refine (runs_get c).bind ((hfirst.machine hc).bind ((runs_get c₁).bind ?_))
  refine (runs_sub hposition c₁).bind ((runs_sub hlimit c₁).bind ?_)
  exact (hsecond.machine (hc.of_buffer hbuffer)).bind (runs_pure _ c₂)

/-! ### Octets that are cut short -/

/-- The front of octets that are cut short is that of the whole octets, or its value is all that
there is. -/
theorem Tlv.split?_of_prefix {room : Nat} {bytes whole rest : Bytes} {f : Found}
    (h : split? room bytes = some (f, rest)) (hbytes : bytes <+: whole) :
    ∃ f' rest', split? room whole = some (f', rest') ∧
      (f' = f ∧ rest <+: rest' ∨
        f'.type = f.type ∧ f'.declared = f.declared ∧ f.value <+: f'.value ∧ rest = []) := by
  obtain ⟨hroom, a, b, m, n, octets, rfl, rfl, rfl⟩ := split?_inv h
  obtain ⟨more, rfl⟩ := hbytes
  refine ⟨_, _, split?_header hroom a b m n (octets ++ more), ?_⟩
  generalize min (Bytes.word16 m n).toNat (room - headerSize) = kept
  rcases Nat.le_total kept octets.length with henough | hshort
  · refine .inl ⟨?_, ?_⟩
    · rw [List.take_append_of_le_length henough]
    · rw [List.drop_append_of_le_length henough]
      exact List.prefix_append _ _
  · refine .inr ⟨rfl, rfl, ?_, List.drop_of_length_le hshort⟩
    dsimp only
    rw [List.take_of_length_le hshort, List.take_append, List.take_of_length_le hshort]
    exact List.prefix_append _ _

namespace Chain

/-- Whether entries are the first of others, but that the last of them may have lost some of its
value. -/
inductive Begins : List Tlv.Found → List Tlv.Found → Prop
  | nil (whole : List Tlv.Found) : Begins [] whole
  | cut {f f' : Tlv.Found} (type : f'.type = f.type) (declared : f'.declared = f.declared)
      (value : f.value <+: f'.value) (whole : List Tlv.Found) : Begins [f] (f' :: whole)
  | cons (f : Tlv.Found) {short whole : List Tlv.Found} (behind : Begins short whole) :
      Begins (f :: short) (f :: whole)

theorem Walk.begins {room r r' : Nat} {bytes bytes' left left' : Bytes} {short whole : List Tlv.Found}
    (h : Walk room bytes short r left) (h' : Walk room bytes' whole r' left') (hbytes : bytes <+: bytes')
    (hmore : whole.length < short.length → Tlv.split? r' left' = none) : Begins short whole := by
  induction h generalizing bytes' whole with
  | refl _ _ => exact .nil whole
  | @step room r bytes rest left f short first behind ih =>
      obtain ⟨f', rest', first', halike⟩ := Tlv.split?_of_prefix first hbytes
      cases h' with
      | refl _ _ =>
          rw [hmore (Nat.succ_pos _)] at first'
          cases first'
      | @step _ _ _ rest'' _ f'' whole first'' behind' =>
          rw [first'] at first''
          obtain ⟨rfl, rfl⟩ := Prod.mk.inj (Option.some.inj first'')
          rcases halike with ⟨rfl, hrest⟩ | ⟨htype, hdeclared, hvalue, rfl⟩
          · exact .cons _ (ih behind' hrest fun h => hmore (Nat.succ_lt_succ h))
          · obtain ⟨rfl, -, -⟩ := behind.eq_nil (.inr rfl)
            exact .cut htype hdeclared hvalue whole

theorem Begins.dropLast_prefix {short whole : List Tlv.Found} (h : Begins short whole) :
    short.dropLast <+: whole := by
  induction h with
  | nil whole => exact List.nil_prefix
  | cut _ _ _ whole => exact List.nil_prefix
  | @cons f short whole _ ih =>
      cases short with
      | nil => exact List.nil_prefix
      | cons g short =>
          rw [List.dropLast_cons_cons]
          exact List.prefix_cons_inj f |>.mpr ih

theorem Begins.last {short whole : List Tlv.Found} (h : Begins short whole) :
    ∀ f ∈ short.getLast?, ∃ f' ∈ whole[short.length - 1]?,
      f'.type = f.type ∧ f'.declared = f.declared ∧ f.value <+: f'.value := by
  induction h with
  | nil whole => exact fun _ hf => nomatch hf
  | @cut f f' type declared value whole =>
      intro g hg
      obtain rfl := Option.some.inj hg
      exact ⟨f', rfl, type, declared, value⟩
  | @cons f short whole _ ih =>
      cases short with
      | nil =>
          intro g hg
          obtain rfl := Option.some.inj hg
          exact ⟨f, rfl, rfl, rfl, List.prefix_refl _⟩
      | cons g short =>
          rw [List.getLast?_cons_cons]
          exact ih

/-- **A chain can be read in two goes, and a chain that is cut short begins as the whole does.**  No
count and no cut makes a reader find an entry elsewhere, or one that is not there. -/
theorem read_in_parts :
    (∀ (count : UInt16) (limit : Nat), readInTwo count limit = read none limit ∧
      Checked.Follows (Checked.entriesInTwo count limit) (read none limit)) ∧
    ∀ (count? : Option UInt16) (limit kept start : Nat) (bytes : Bytes), ∃ short whole c c',
      Reads count? limit ((Cursor.ofBytes (bytes.take kept)).seek start) short c ∧
      Reads count? limit ((Cursor.ofBytes bytes).seek start) whole c' ∧
      short.dropLast <+: whole ∧
      ∀ f ∈ short.getLast?, ∃ f' ∈ whole[short.length - 1]?,
        f'.type = f.type ∧ f'.declared = f.declared ∧ f.value <+: f'.value := by
  refine ⟨fun count limit => ⟨readInTwo_eq count limit, Checked.follows_entriesInTwo count limit⟩, ?_⟩
  intro count? limit kept start bytes
  obtain ⟨short, r, left, hwalk, hshort, hcount, -⟩ :=
    exists_reads count? limit ((Cursor.ofBytes (bytes.take kept)).seek start)
  obtain ⟨whole, r', left', hwalk', hwhole, -, hend⟩ :=
    exists_reads count? limit ((Cursor.ofBytes bytes).seek start)
  have hbytes : ((Cursor.ofBytes (bytes.take kept)).seek start).unread <+:
      ((Cursor.ofBytes bytes).seek start).unread := by
    rw [Cursor.unread_seek, Cursor.unread_seek]
    show (bytes.take kept).drop start <+: bytes.drop start
    rw [List.drop_take]
    exact List.take_prefix _ _
  have hbegins := hwalk.begins hwalk' hbytes fun hless =>
    hend fun count h => Nat.lt_of_lt_of_le hless (hcount count h)
  exact ⟨short, whole, _, _, hshort, hwhole, hbegins.dropLast_prefix, hbegins.last⟩

/-- A cut through the value of an entry, in front of another. -/
theorem read_in_parts_torn :
    ∃ whole c', Reads none 11 ((Cursor.ofBytes [0, 1, 0, 2, 7, 8, 0, 2, 0, 1, 9]).seek 0) whole c' ∧
      ∃ f' ∈ whole[0]?, f'.type = 1 ∧ f'.declared = 2 ∧ [7] <+: f'.value := by
  obtain ⟨short, whole, c, c', hshort, hwhole, -, hlast⟩ :=
    read_in_parts.2 none 11 5 0 [0, 1, 0, 2, 7, 8, 0, 2, 0, 1, 9]
  obtain ⟨rfl, -⟩ : [⟨1, 2, [7]⟩] = short ∧ _ = c := EStateM.Result.ok.inj hshort.library
  exact ⟨whole, c', hwhole, hlast _ rfl⟩

end Chain
end Whereabouts
