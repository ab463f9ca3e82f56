import Whereabouts.Proofs.Checked.Reads
import Whereabouts.Proofs.Counts

/-! # Checked extras

The loop over the extras of a record, and the texts in it, in the steps of a machine.  Each entry
takes at least a header and counts for at most one unknown field, so the sum of what was counted
and of what is left never grows (`runs_extrasAfter`). -/

namespace Whereabouts
namespace Checked

/-! ### Texts -/

def encodingName : Checked (Option String) := do
  match ← observing word16, ← observing word16 with
  | .ok _, .ok length =>
      let name ← upTo length.toNat
      return some (Utf8.decodeLossy name)
  | _, _ => return none

/-- The name of an encoding behind the octets of a text. -/
def encoding : Checked (Option String) := do
  match ← observing word16 with
  | .ok flag => if flag = Text.hasEncoding then encodingName else return none
  | .error _ => return none

/-- The text behind its length. -/
def countedText : Checked Text := do
  match ← observing word16 with
  | .ok length =>
      let bytes ← upTo length.toNat
      let name ← encoding
      return ⟨bytes, name⟩
  | .error _ => return .empty

/-- The text in the body of an entry. -/
def text (body : Bytes) : Checked Text :=
  if body.length < 4 then pure .empty else within body countedText

/-! ### Entries -/

/-- The next entry of the extras, if its header fits. -/
def extra? : Checked (Option ExtraEntry) := do
  let left ← remaining
  if left < 4 then return none
  else
    match ← observing word16, ← observing octet, ← observing octet with
    | .ok type, .ok number, .ok declared =>
        let body ← upTo declared.toNat
        return some ⟨type, number, declared, body⟩
    | _, _, _ => return none

def ofEntry (cat : Catalogue) (entry : ExtraEntry) : Checked Extra := do
  match ExtraType.ofCode? entry.type with
  | some .statusText => return .away (← text entry.body)
  | some .externalLink => return .externalLink (← text entry.body)
  | _ => return .ofEntry cat entry

/-- Puts an entry of the extras into a reading. -/
def addExtra (r : Reading) (e : Extra) : Checked Reading := do
  let unknown ← match e with
    | .unknown _ => add r.unknown 1
    | _ => pure r.unknown
  return { r with
    record := { r.record with extras := some (Extra.apply (r.record.extras.getD {}) e) }
    unknown
    remarks := r.remarks ++ e.remarks }

/-- One round of the loop over the extras: the next entry goes into the reading. -/
def nextExtra (cat : Catalogue) (r : Reading) : Checked (Reading ⊕ Reading) := do
  match ← extra? with
  | none => return .inr r
  | some entry =>
      let e ← ofEntry cat entry
      let r ← addExtra r e
      return .inl r

/-- Reads the entries that are left and puts each into the reading. -/
def extrasAfter (cat : Catalogue) : Reading → Checked Reading := loop (nextExtra cat)

variable {c : Cursor}

/-! ### What is read of a text -/

/-- The name behind a flag is read if nothing of what stands in front is missing. -/
theorem runs_encodingName {f g : UInt8} {rest : Bytes} (hc : c.Addressable) (hunread : c.unread = rest)
    (hflag : Bytes.word16 f g = Text.hasEncoding) :
    ∃ c', Runs encodingName c (Text.encodingOfBody (f :: g :: rest)) c' := by
  match rest, hunread with
  | [], hunread | [_], hunread =>
      have hshort := observes_no_word16 (by rw [hunread]; simp)
      exact ⟨c, hshort.bind (hshort.bind (runs_pure none c))⟩
  | x :: y :: tail, hunread =>
      have hskipped := observes_word16 hc hunread
      have htail : (c.advance 2).unread = tail := by
        rw [Cursor.unread_advance, hunread]
        rfl
      match tail, htail with
      | [], htail | [_], htail =>
          have hshort := observes_no_word16 (c := c.advance 2) (by rw [htail]; simp)
          exact ⟨c.advance 2, hskipped.bind (hshort.bind (runs_pure none _))⟩
      | m :: n :: name, htail =>
          have hlength := observes_word16 (c := c.advance 2) hc htail
          have hname := (follows_upTo (Bytes.word16 m n).toNat ((c.advance 2).advance 2) hc).runs rfl
          rw [Cursor.unread_advance, htail] at hname
          refine ⟨((c.advance 2).advance 2).advance (Bytes.word16 m n).toNat, ?_⟩
          rw [Text.encodingOfBody, if_pos hflag]
          exact hskipped.bind (hlength.bind (hname.bind (runs_pure _ _)))

theorem encodingOfBody_eq_none {f g : UInt8} {rest : Bytes}
    (hflag : Bytes.word16 f g ≠ Text.hasEncoding) :
    Text.encodingOfBody (f :: g :: rest) = none := by
  match rest with
  | [] | [_] | [_, _] | [_, _, _] => rfl
  | _ :: _ :: _ :: _ :: _ => exact if_neg hflag

theorem runs_encoding (hc : c.Addressable) :
    ∃ c', Runs encoding c (Text.encodingOfBody c.unread) c' := by
  match hunread : c.unread with
  | [] | [_] =>
      exact ⟨c, (observes_no_word16 (by rw [hunread]; simp)).bind (runs_pure none c)⟩
  | f :: g :: rest =>
      have hword := observes_word16 hc hunread
      have hrest : (c.advance 2).unread = rest := by
        rw [Cursor.unread_advance, hunread]
        rfl
      by_cases hflag : Bytes.word16 f g = Text.hasEncoding
      · obtain ⟨c', hname⟩ := runs_encodingName (c := c.advance 2) hc hrest hflag
        refine ⟨c', hword.bind ?_⟩
        dsimp only
        rwa [if_pos hflag]
      · refine ⟨c.advance 2, hword.bind ?_⟩
        dsimp only
        rw [if_neg hflag, encodingOfBody_eq_none hflag]
        exact runs_pure none _

theorem runs_text {body : Bytes} (hbody : body.length < 2 ^ 63) (c : Cursor) :
    Runs (text body) c (Text.ofBody body) c := by
  unfold text Text.ofBody
  split_ifs with hshort
  · exact runs_pure _ c
  · match body, hshort with
    | [], hshort | [_], hshort => simp at hshort
    | a :: b :: rest, _ =>
        have haddressable : (Cursor.ofBytes (a :: b :: rest)).Addressable := hbody
        have hlength := observes_word16 haddressable rfl
        have hbytes := (follows_upTo (Bytes.word16 a b).toNat
          ((Cursor.ofBytes (a :: b :: rest)).advance 2) haddressable).runs rfl
        rw [Cursor.unread_advance, show (Cursor.ofBytes (a :: b :: rest)).unread.drop 2 = rest from rfl]
          at hbytes
        obtain ⟨c', hname⟩ := runs_encoding
          (c := ((Cursor.ofBytes (a :: b :: rest)).advance 2).advance (Bytes.word16 a b).toNat)
          haddressable
        rw [Cursor.unread_advance, Cursor.unread_advance,
          show (Cursor.ofBytes (a :: b :: rest)).unread.drop 2 = rest from rfl] at hname
        exact runs_within (hlength.bind (hbytes.bind (hname.bind (runs_pure _ c'))))

/-! ### What is read of the extras -/

theorem runs_extra?_none (h : ExtraEntry.split? c.unread = none) : Runs extra? c none c := by
  have hshort : c.remaining < 4 := by
    rw [← Cursor.length_unread]
    match hunread : c.unread with
    | _ :: _ :: _ :: _ :: _ =>
        rw [hunread] at h
        cases h
    | [] | [_] | [_, _] | [_, _, _] => simp
  refine (runs_remaining c).bind ?_
  rw [if_pos hshort]
  exact runs_pure none c

theorem runs_extra?_some {entry : ExtraEntry} {rest : Bytes} (hc : c.Addressable)
    (h : ExtraEntry.split? c.unread = some (entry, rest)) :
    ∃ c', Runs extra? c (some entry) c' ∧ c'.unread = rest ∧ c'.buffer = c.buffer := by
  unfold ExtraEntry.split? at h
  split at h
  · rename_i a b number declared octets hunread
    obtain ⟨rfl, rfl⟩ := Prod.mk.inj (Option.some.inj h)
    have hlength : ¬ c.remaining < 4 := by
      rw [← Cursor.length_unread, hunread]
      simp
    have hnumber : (c.advance 2).unread = number :: declared :: octets := by
      rw [Cursor.unread_advance, hunread]
      rfl
    have hdeclared : ((c.advance 2).advance 1).unread = declared :: octets := by
      rw [Cursor.unread_advance, hnumber]
      rfl
    have hbody : (((c.advance 2).advance 1).advance 1).unread = octets := by
      rw [Cursor.unread_advance, hdeclared]
      rfl
    have hupTo := (follows_upTo declared.toNat (((c.advance 2).advance 1).advance 1) hc).runs rfl
    rw [hbody] at hupTo
    refine ⟨(((c.advance 2).advance 1).advance 1).advance declared.toNat, ?_, ?_, rfl⟩
    · refine (runs_remaining c).bind ?_
      rw [if_neg hlength]
      exact (observes_word16 hc hunread).bind <|
        (observes_octet (c := c.advance 2) hc hnumber).bind <|
        (observes_octet (c := (c.advance 2).advance 1) hc hdeclared).bind <|
        hupTo.bind (runs_pure _ _)
    · rw [Cursor.unread_advance, hbody]
  · cases h

theorem runs_ofEntry (cat : Catalogue) {entry : ExtraEntry} (h : entry.body.length < 2 ^ 63)
    (c : Cursor) : Runs (ofEntry cat entry) c (.ofEntry cat entry) c := by
  unfold ofEntry
  split
  · rename_i htype
    have hmeaning : Extra.ofEntry cat entry = .away (Text.ofBody entry.body) := by
      unfold Extra.ofEntry
      rw [htype]
    rw [hmeaning]
    exact (runs_text h c).bind (runs_pure _ c)
  · rename_i htype
    have hmeaning : Extra.ofEntry cat entry = .externalLink (Text.ofBody entry.body) := by
      unfold Extra.ofEntry
      rw [htype]
    rw [hmeaning]
    exact (runs_text h c).bind (runs_pure _ c)
  · exact runs_pure _ c

theorem runs_addExtra {r : Reading} (h : r.unknown + 1 < words) (e : Extra) (c : Cursor) :
    Runs (addExtra r e) c (r.addExtra e) c := by
  cases e with
  | unknown entry => exact (runs_add h c).bind (runs_pure _ c)
  | _ => exact (runs_pure r.unknown c).bind (runs_pure _ c)

/-- What was counted and what is left is a word together, and stays one. -/
theorem runs_extrasAfter (cat : Catalogue) {r : Reading} {count : Nat} (hc : c.Addressable)
    (hcount : c.remaining ≤ count) (hword : r.unknown + c.remaining < words) :
    ∃ c', Runs (extrasAfter cat r) c
      (((ExtraEntry.splitAfter count [] c.unread).map (Extra.ofEntry cat)).foldl Reading.addExtra r)
      c' := by
  induction count generalizing c r with
  | zero =>
      refine ⟨c, ?_⟩
      have hnone : ExtraEntry.split? c.unread = none := by
        rw [(Cursor.remaining_eq_zero_iff c).mp (Nat.le_zero.mp hcount)]
        rfl
      exact Runs.loop_last ((runs_extra?_none hnone).bind (runs_pure _ c))
  | succ count ih =>
      rw [ExtraEntry.splitAfter]
      cases hsplit : ExtraEntry.split? c.unread with
      | none =>
          exact ⟨c, Runs.loop_last ((runs_extra?_none hsplit).bind (runs_pure _ c))⟩
      | some split =>
          obtain ⟨entry, rest⟩ := split
          obtain ⟨c₁, hentry, rfl, hbuffer⟩ := runs_extra?_some hc hsplit
          have hlength := ExtraEntry.length_of_split? hsplit
          rw [Cursor.length_unread, Cursor.length_unread] at hlength
          have hunknown : (r.addExtra (.ofEntry cat entry)).unknown ≤ r.unknown + 1 := by
            exact Nat.add_le_add_left (Extra.length_unknownTypes_le _) _
          have hbody : entry.body.length < 2 ^ 63 := by
            have hbound : c.remaining < 2 ^ 63 := Nat.lt_of_le_of_lt (Nat.sub_le _ _) hc
            omega
          obtain ⟨c', hrest⟩ := ih (c := c₁) (r := r.addExtra (.ofEntry cat entry))
            (hc.of_buffer hbuffer) (by omega) (by omega)
          have hround : Runs (nextExtra cat r) c (.inl (r.addExtra (.ofEntry cat entry))) c₁ :=
            hentry.bind <| (runs_ofEntry cat hbody c₁).bind <|
              (runs_addExtra (by omega) _ c₁).bind (runs_pure _ c₁)
          refine ⟨c', ?_⟩
          dsimp only
          rw [ExtraEntry.splitAfter_eq]
          exact hround.loop_next hrest

end Checked
end Whereabouts
