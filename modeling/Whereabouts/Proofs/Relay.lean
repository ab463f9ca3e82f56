import Whereabouts.Proofs.Reencoding

/-! # Records that are passed on

A record that is written and read comes back with its texts cut to their places, and a text that
is cut inside a character comes back longer than it was written: a replacement of three octets
stands for the one to three octets that were left of the character.  So the next cut may fall
inside of the replacement, and the text may take more room than its place has.

It is cut no further all the same.  What is left of a replacement is read as a replacement
(`Utf8.clip_clip`), and the name of an encoding takes up as much of its entry as before
(`Utf8.min_length_clip`), so the text beside it keeps its room.  One way over the wire settles a
record, and any number of ways behind it change nothing (`relay_settles`). -/

namespace Whereabouts

/-! ### Texts that were cut -/

namespace Utf8

/-- A cut behind a cut at the same place changes nothing. -/
theorem cutChars_cutChars (room : Nat) (cs : List Char) :
    cutChars room (cutChars room cs) = cutChars room cs := by
  induction cs generalizing room with
  | nil => rfl
  | cons c rest ih =>
      rw [cutChars]
      by_cases h0 : room = 0
      · rw [if_pos h0]
        rfl
      rw [if_neg h0]
      by_cases hfit : c.utf8Size ≤ room
      · rw [if_pos hfit, cutChars, if_neg h0, if_pos hfit, ih]
      · -- The replacement fits, or it is cut through and replaced by itself.
        rw [if_neg hfit, cutChars, if_neg h0]
        split_ifs <;> rfl

/-- A cut text takes up as much of its place as the text did: there is a replacement only where
less than its three octets are left. -/
theorem min_length_cutChars (room : Nat) (cs : List Char) :
    min room ((cutChars room cs).flatMap String.utf8EncodeChar).length =
      min room (cs.flatMap String.utf8EncodeChar).length := by
  induction cs generalizing room with
  | nil => rfl
  | cons c rest ih =>
      rw [cutChars]
      by_cases h0 : room = 0
      · rw [if_pos h0, h0, Nat.zero_min, Nat.zero_min]
      rw [if_neg h0]
      by_cases hfit : c.utf8Size ≤ room
      · have hrest := ih (room - c.utf8Size)
        rw [if_pos hfit, length_flatMap_cons, length_flatMap_cons]
        omega
      · have hsize := c.utf8Size_le_four
        have hthree : ([replacement].flatMap String.utf8EncodeChar).length = 3 := by decide
        rw [if_neg hfit, hthree, length_flatMap_cons]
        omega

theorem clip_clip (limit : Nat) (s : String) : clip limit (clip limit s) = clip limit s := by
  simp only [clip_eq, String.toList_ofList, cutChars_cutChars]

theorem min_length_clip (limit : Nat) (s : String) :
    min limit (encode (clip limit s)).length = min limit (encode s).length := by
  rw [clip_eq, encode, encode, String.toList_ofList, min_length_cutChars]

end Utf8

/-- Of four octets the last is cut off; three are the replacement, and are cut in turn. -/
example : Utf8.clip 2 "a😀" = "a\uFFFD" ∧ Utf8.clip 2 "a\uFFFD" = "a\uFFFD" := by
  decide +kernel

namespace Text

theorem clipExtra_clipExtra (t : Text) : t.clipExtra.clipExtra = t.clipExtra := by
  obtain ⟨bytes, encoding⟩ := t
  cases encoding with
  | none => simp only [clipExtra, List.take_take, Nat.min_self]
  | some name =>
      simp only [clipExtra, Utf8.clip_clip, Utf8.min_length_clip, List.take_take, Nat.min_self]

theorem clipTrailer_clipTrailer (t : Text) : t.clipTrailer.clipTrailer = t.clipTrailer := by
  obtain ⟨bytes, encoding⟩ := t
  simp only [clipTrailer, List.take_take, Nat.min_self, Option.map_map, Function.comp_def,
    Utf8.clip_clip]

end Text

theorem Extras.clip_canon (cat : Catalogue) (x : Extras) : (x.canon cat).clip = x.canon cat := by
  simp only [canon, clip, Option.map_map, Function.comp_def, Text.clipExtra_clipExtra]

namespace Record

/-- What is left of a record on the wire fits its places, up to replacements. -/
theorem clip_canon (cat : Catalogue) (r : Record) : (r.canon cat).clip = r.canon cat := by
  simp only [canon, clip, Option.map_map, Function.comp_def, Utf8.clip_clip, Extras.clip_canon,
    Text.clipTrailer_clipTrailer]

/-! ### Ways over the wire -/

/-- A way over the wire: the record is written, and what was written is read. -/
def relay (r : Record) (aol : Bool) : Except Fault Record :=
  (decode .standard (r.encode .standard aol)).map Reading.record

theorem relay_eq (r : Record) (aol : Bool) : relay r aol = .ok (r.canon .standard) := by
  obtain ⟨reading, hread, gives⟩ := decode_encode Catalogue.standard_wellFormed r aol
  rw [relay, hread, ← gives.record]
  rfl

theorem canon_of_relay {r first : Record} {aol : Bool} (h : relay r aol = .ok first) :
    first.canon .standard = first := by
  obtain ⟨reading, hread, gives⟩ := decode_encode Catalogue.standard_wellFormed r aol
  have hfirst : reading.record = first := by
    rw [relay, hread] at h
    exact Except.ok.inj h
  have hclip := canon_of_offWire (offWire_of_decode hread)
  rw [gives.record, clip_canon] at hclip
  rw [← hfirst, gives.record, hclip]

theorem foldlM_relay {r : Record} (h : r.canon .standard = r) (flags : List Bool) :
    flags.foldlM relay r = .ok r := by
  induction flags with
  | nil => rfl
  | cons aol flags ih =>
      rw [List.foldlM_cons, relay_eq, h]
      exact ih

/-- **One way over the wire settles a record.**  It arrives, whatever the record is; the next
way leaves it as it is, and so does any number of them, with either type of session length. -/
theorem relay_settles (r : Record) (aol : Bool) :
    ∃ first, relay r aol = .ok first ∧
      (∀ again, relay first again = .ok first) ∧
      ∀ flags : List Bool, flags.foldlM relay first = .ok first := by
  refine ⟨r.canon .standard, relay_eq r aol, ?_, ?_⟩
  · intro again
    rw [relay_eq, canon_of_relay (relay_eq r aol)]
  · exact foldlM_relay (canon_of_relay (relay_eq r aol))

end Record
end Whereabouts
