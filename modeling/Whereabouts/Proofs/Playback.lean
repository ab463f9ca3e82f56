import Whereabouts.Proofs.Accesses

/-! # Playing items back

Items are written behind everything that is there, and read where the position is, so that a user
of a cursor may read while it writes.  The reads come in the order of the writes, each is the one
that goes with its item, and the user may go back to any border between two items and read on from
there.

A `Schedule` is such a use.  It is told on the items alone: a list of those that are written and
the place of the next one to read.  What carries the proof is that the unread octets of the cursor
are those of the items from this place on (`Stage.Holds`): a write adds to both ends alike, a read
takes the first item from both, and a border lies as many octets behind the start as the items
before it take. -/

namespace Whereabouts

namespace Item

/-- The octets of items in a row. -/
def encodeAll (items : List Item) : Bytes := items.flatMap encode

theorem encodeAll_append (items more : List Item) :
    encodeAll (items ++ more) = encodeAll items ++ encodeAll more := List.flatMap_append

theorem encodeAll_singleton (item : Item) : encodeAll [item] = item.encode :=
  List.flatMap_singleton _ _

theorem drop_encodeAll (items : List Item) (count : Nat) :
    (encodeAll items).drop (encodeAll (items.take count)).length =
      encodeAll (items.drop count) := by
  have hsplit : encodeAll (items.take count) ++ encodeAll (items.drop count) = encodeAll items := by
    rw [← encodeAll_append, List.take_append_drop]
  rw [← hsplit]
  exact List.drop_left

/-- The read that goes with an item. -/
def matching : Item → Access
  | octet _ => .octet
  | word16 _ => .word16
  | word32 _ => .word32
  | raw bytes => .upTo bytes.length
  | counted _ => .counted

/-- What an item is read back as: itself, or as much of it as one length octet can announce. -/
def answer : Item → Answer
  | octet v => .octet v
  | word16 v => .word16 v
  | word32 v => .word32 v
  | raw bytes => .bytes bytes
  | counted bytes => .bytes (bytes.take 255)

/-- An item at the front is read back, and what is behind it stays unread. -/
theorem perform_matching {item : Item} {c : Cursor} {rest : Bytes}
    (h : c.unread = item.encode ++ rest) :
    ∃ c', item.matching.perform c = .ok item.answer c' ∧ c'.unread = rest ∧
      c'.buffer = c.buffer := by
  cases item with
  | octet v =>
      obtain ⟨hread, hrest⟩ := Reader.octet_of_unread h
      exact ⟨_, Reader.bind_ok hread, hrest, rfl⟩
  | word16 v =>
      obtain ⟨hread, hrest⟩ := Reader.word16_of_unread h
      exact ⟨_, Reader.bind_ok hread, hrest, rfl⟩
  | word32 v =>
      obtain ⟨hread, hrest⟩ := Reader.word32_of_unread h
      exact ⟨_, Reader.bind_ok hread, hrest, rfl⟩
  | raw bytes =>
      have hfront : c.unread.take bytes.length = bytes := by
        rw [h]
        exact List.take_left
      refine ⟨_, Reader.bind_ok (Reader.upTo_of_take hfront), ?_, rfl⟩
      rw [Cursor.unread_advance, h]
      exact List.drop_left
  | counted bytes =>
      obtain ⟨c', hread, hrest, hbuffer⟩ := Reader.counted_of_unread h
      exact ⟨c', Reader.bind_ok hread, hrest, hbuffer⟩

end Item

/-! ### Schedules -/

/-- How far the user of a cursor is: the items that are written, and how many of them are read. -/
structure Stage where
  written : List Item
  next : Nat

/-- Whether an access, with its answer, leads from one stage to another.  The items are written
behind a buffer of `start` octets. -/
inductive Stage.Step (start : Nat) : Stage → Access → Answer → Stage → Prop
  | write (s : Stage) (item : Item) :
      Stage.Step start s (.write item) .done ⟨s.written ++ [item], s.next⟩
  | read {s : Stage} {item : Item} (h : s.written[s.next]? = some item) :
      Stage.Step start s item.matching item.answer ⟨s.written, s.next + 1⟩
  /-- Goes to the border behind the first `count` items. -/
  | rewind (s : Stage) {count : Nat} (h : count ≤ s.written.length) :
      Stage.Step start s (.seek (start + (Item.encodeAll (s.written.take count)).length)) .done
        ⟨s.written, count⟩

/-- Whether accesses, with their answers, lead from one stage to another. -/
inductive Schedule (start : Nat) : Stage → List Access → List Answer → Stage → Prop
  | nil (s : Stage) : Schedule start s [] [] s
  | cons {s s₁ s₂ : Stage} {a : Access} {answer : Answer} {accesses : List Access}
      {answers : List Answer} (first : Stage.Step start s a answer s₁)
      (rest : Schedule start s₁ accesses answers s₂) :
      Schedule start s (a :: accesses) (answer :: answers) s₂

variable {start : Cursor} {c : Cursor} {s s' : Stage}

theorem Schedule.append {n : Nat} {s₁ s₂ s₃ : Stage} {accesses more : List Access}
    {answers others : List Answer} (h : Schedule n s₁ accesses answers s₂)
    (h' : Schedule n s₂ more others s₃) :
    Schedule n s₁ (accesses ++ more) (answers ++ others) s₃ := by
  induction h with
  | nil s => exact h'
  | cons first _ ih => exact .cons first (ih h')

theorem Schedule.writes (n : Nat) (s : Stage) (items : List Item) :
    Schedule n s (items.map .write) (items.map fun _ => .done) ⟨s.written ++ items, s.next⟩ := by
  induction items generalizing s with
  | nil =>
      rw [List.append_nil]
      exact .nil s
  | cons item items ih =>
      have hrest := ih ⟨s.written ++ [item], s.next⟩
      rw [List.append_assoc] at hrest
      exact .cons (.write s item) hrest

theorem Schedule.reads (n : Nat) (done items : List Item) :
    Schedule n ⟨done ++ items, done.length⟩ (items.map Item.matching) (items.map Item.answer)
      ⟨done ++ items, (done ++ items).length⟩ := by
  induction items generalizing done with
  | nil =>
      rw [List.append_nil]
      exact .nil _
  | cons item items ih =>
      have hitem : (done ++ item :: items)[done.length]? = some item := by simp
      have hrest := ih (done ++ [item])
      rw [List.append_assoc, List.length_append] at hrest
      exact .cons (.read hitem) hrest

/-! ### Cursors at a stage -/

/-- Whether a cursor that was at `start` is at a stage. -/
structure Stage.Holds (start : Cursor) (s : Stage) (c : Cursor) : Prop where
  next_le : s.next ≤ s.written.length
  buffer : c.buffer = start.buffer ++ Item.encodeAll s.written
  unread : c.unread = Item.encodeAll (s.written.drop s.next)

theorem Stage.holds_start (h : start.remaining = 0) : Holds start ⟨[], 0⟩ start :=
  ⟨Nat.le_refl 0, (List.append_nil start.buffer).symm, (Cursor.remaining_eq_zero_iff start).mp h⟩

/-- An access gives its answer and leads a cursor to the next stage. -/
theorem Stage.Step.perform {a : Access} {answer : Answer} (h : Stage.Step start.length s a answer s')
    (hc : s.Holds start c) : ∃ c', a.perform c = .ok answer c' ∧ s'.Holds start c' := by
  cases h with
  | write item =>
      refine ⟨c.append item.encode, rfl, ?_, ?_, ?_⟩
      · rw [List.length_append]
        exact Nat.le_add_right_of_le hc.next_le
      · rw [Cursor.buffer_append, hc.buffer, List.append_assoc, Item.encodeAll_append,
          Item.encodeAll_singleton]
      · rw [Cursor.unread_append, hc.unread, List.drop_append_of_le_length hc.next_le,
          Item.encodeAll_append, Item.encodeAll_singleton]
  | read hitem =>
      obtain ⟨hnext, rfl⟩ := List.getElem?_eq_some_iff.mp hitem
      have hunread := hc.unread
      rw [List.drop_eq_getElem_cons hnext] at hunread
      obtain ⟨c', hread, hrest, hbuffer⟩ := Item.perform_matching hunread
      exact ⟨c', hread, hnext, hbuffer.trans hc.buffer, hrest⟩
  | rewind hcount =>
      refine ⟨c.seek _, rfl, hcount, hc.buffer, ?_⟩
      rw [Cursor.unread_seek, hc.buffer, Cursor.length, List.drop_length_add_append]
      exact Item.drop_encodeAll s.written _

/-- What a schedule tells is what the accesses give, and a cursor is where the schedule leads. -/
theorem Schedule.performAll {accesses : List Access} {answers : List Answer}
    (h : Schedule start.length s accesses answers s') (hc : s.Holds start c) :
    ∃ c', Access.performAll accesses c = .ok (answers.map .ok) c' ∧ s'.Holds start c' := by
  unfold Access.performAll
  induction h generalizing c with
  | nil s => exact ⟨c, rfl, hc⟩
  | cons first _ ih =>
      obtain ⟨c₁, hperform, hc₁⟩ := first.perform hc
      obtain ⟨c', hperforms, hc'⟩ := ih hc₁
      refine ⟨c', ?_, hc'⟩
      rw [List.mapM_cons, Reader.bind_ok (Reader.observing_ok hperform), Reader.bind_ok hperforms]
      rfl

theorem Stage.Holds.remaining_eq_zero (hc : s.Holds start c) (h : s.next = s.written.length) :
    c.remaining = 0 := by
  rw [Cursor.remaining_eq_zero_iff, hc.unread, h, List.drop_length]
  rfl

/-- **What is written is played back.**  From a cursor at the end of its buffer, items that are
written and then read are all read unchanged, but for counted strings, which are cut to what their
length can say; and nothing remains.

So it is in every other schedule: however the reads fall between the writes, and to whatever borders
the position goes back, each read gives the item that is due, and the buffer is the one at the start
with the items behind it. -/
theorem Schedule.plays_back (hstart : start.remaining = 0) :
    (∀ items : List Item, ∃ c',
      Access.performAll (items.map .write ++ items.map Item.matching) start =
        .ok ((items.map fun _ => .ok .done) ++ items.map fun item => .ok item.answer) c' ∧
      c'.remaining = 0) ∧
    ∀ accesses answers s, Schedule start.length ⟨[], 0⟩ accesses answers s → ∃ c',
      Access.performAll accesses start = .ok (answers.map .ok) c' ∧
      c'.buffer = start.buffer ++ Item.encodeAll s.written ∧
      c'.unread = Item.encodeAll (s.written.drop s.next) ∧
      (s.next = s.written.length → c'.remaining = 0) := by
  have hholds := Stage.holds_start hstart
  refine ⟨fun items => ?_, fun accesses answers s hschedule => ?_⟩
  · have hwrites := Schedule.writes start.length ⟨[], 0⟩ items
    have hreads := Schedule.reads start.length [] items
    obtain ⟨c', hperforms, hc'⟩ := (hwrites.append hreads).performAll hholds
    refine ⟨c', ?_, hc'.remaining_eq_zero rfl⟩
    rw [hperforms, List.map_append, List.map_map, List.map_map]
    rfl
  · obtain ⟨c', hperforms, hc'⟩ := hschedule.performAll hholds
    exact ⟨c', hperforms, hc'.buffer, hc'.unread, hc'.remaining_eq_zero⟩

/-- Items of three kinds. -/
def Item.assorted (long : Bytes) : List Item := [.counted long, .word32 65537, .raw [1, 2]]

/-- They are read between the writes and again after going back. -/
theorem Schedule.rewound (long : Bytes) :
    Schedule 2 ⟨[], 0⟩
      [.write (.counted long), .counted, .write (.word32 65537), .seek 2, .counted,
        .write (.raw [1, 2]), .word32, .upTo 2,
        .seek (2 + (Item.encodeAll [.counted long]).length), .word32, .upTo 2]
      [.done, .bytes (long.take 255), .done, .done, .bytes (long.take 255), .done, .word32 65537,
        .bytes [1, 2], .done, .word32 65537, .bytes [1, 2]]
      ⟨Item.assorted long, 3⟩ := by
  have readLong {more : List Item} : Stage.Step 2 ⟨.counted long :: more, 0⟩ .counted
      (.bytes (long.take 255)) ⟨.counted long :: more, 1⟩ :=
    .read (show _ = some (.counted long) from rfl)
  have readWord : Stage.Step 2 ⟨Item.assorted long, 1⟩ .word32 (.word32 65537)
      ⟨Item.assorted long, 2⟩ := .read (show _ = some (.word32 65537) from rfl)
  have readRaw : Stage.Step 2 ⟨Item.assorted long, 2⟩ (.upTo 2) (.bytes [1, 2])
      ⟨Item.assorted long, 3⟩ := .read (show _ = some (.raw [1, 2]) from rfl)
  have back : Stage.Step 2 ⟨Item.assorted long, 3⟩
      (.seek (2 + (Item.encodeAll [.counted long]).length)) .done ⟨Item.assorted long, 1⟩ :=
    @Stage.Step.rewind 2 ⟨Item.assorted long, 3⟩ 1 (Nat.le_add_left 1 2)
  refine .cons (.write _ _) (.cons readLong (.cons (.write _ _) ?_))
  refine .cons (.rewind _ (Nat.zero_le _)) (.cons readLong (.cons (.write _ _) ?_))
  exact .cons readWord (.cons readRaw (.cons back (.cons readWord (.cons readRaw (.nil _)))))

/-- The same with a string that is one octet too long, behind two octets that were read before. -/
theorem Schedule.plays_back_rewound :
    ∃ c', Access.performAll
        [.write (.counted (List.replicate 256 7)), .counted, .write (.word32 65537), .seek 2,
          .counted, .write (.raw [1, 2]), .word32, .upTo 2, .seek 258, .word32, .upTo 2]
        ⟨[250, 251], 2, Nat.le_refl 2⟩ =
      .ok [.ok .done, .ok (.bytes (List.replicate 255 7)), .ok .done, .ok .done,
          .ok (.bytes (List.replicate 255 7)), .ok .done, .ok (.word32 65537), .ok (.bytes [1, 2]),
          .ok .done, .ok (.word32 65537), .ok (.bytes [1, 2])] c' ∧ c'.remaining = 0 := by
  have hstart : Cursor.remaining ⟨[250, 251], 2, Nat.le_refl 2⟩ = 0 := rfl
  have hlong : (List.replicate 256 (7 : UInt8)).take 255 = List.replicate 255 7 :=
    List.take_replicate
  have hlength (long : Bytes) :
      (Item.encodeAll [.counted long]).length = (long.take 255).length + 1 := by
    rw [Item.encodeAll_singleton]
    rfl
  have hschedule := Schedule.rewound (List.replicate 256 7)
  rw [hlength, hlong, List.length_replicate] at hschedule
  obtain ⟨-, hany⟩ := Schedule.plays_back hstart
  obtain ⟨c', hperforms, -, -, hend⟩ := hany _ _ _ hschedule
  exact ⟨c', hperforms, hend rfl⟩

end Whereabouts
