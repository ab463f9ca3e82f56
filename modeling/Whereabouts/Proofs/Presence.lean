import Whereabouts.Proofs.Features
import Whereabouts.Proofs.RosterHistory

/-! # What a merge keeps

The fields that a record carries are told by its presence bits (`Field.bits`), and a merge adds
those of the update to those that were known.  Two fields are not so plain.  A block of extras
without an away text takes a known one back.  An icon is carried by the extras as a mood and by
the capabilities as an identifier, and a merge looks at extras and capabilities only: an update
of the capabilities drops an icon that was among the old ones (`presence_merge`), and the mood of
an older update hides an icon among newer capabilities (`icon?_run`). -/

namespace Whereabouts

/-! ### Fields and their bits -/

namespace Record.Field

theorem getElem?_all (f : Field) : all[f.ctorIdx]? = some f := by cases f <;> rfl

theorem mem_all (f : Field) : f ∈ all := List.mem_of_getElem? f.getElem?_all

theorem ctorIdx_inj {f g : Field} (h : f.ctorIdx = g.ctorIdx) : f = g := by
  have hf := f.getElem?_all
  rw [h, g.getElem?_all] at hf
  exact (Option.some.inj hf).symm

theorem ctorIdx_lt (f : Field) : f.ctorIdx < 32 := by cases f <;> decide

theorem getLsbD_bit (f : Field) (i : Nat) : f.bit.toBitVec.getLsbD i = decide (f.ctorIdx = i) :=
  getLsbD_one_shiftLeft f.ctorIdx_lt i

/-- The bits of the fields that satisfy a test. -/
def bits (p : Field → Bool) : UInt32 :=
  (all.filter p).foldl (fun word f => word ||| f.bit) 0

theorem getLsbD_foldl (fields : List Field) (word : UInt32) (i : Nat) :
    (fields.foldl (fun word f => word ||| f.bit) word).toBitVec.getLsbD i = true ↔
      word.toBitVec.getLsbD i = true ∨ ∃ f ∈ fields, f.ctorIdx = i := by
  induction fields generalizing word with
  | nil => simp
  | cons f fields ih =>
      rw [List.foldl_cons, ih, UInt32.toBitVec_or, BitVec.getLsbD_or, getLsbD_bit]
      simp [or_assoc]

theorem getLsbD_bits (p : Field → Bool) (i : Nat) :
    (bits p).toBitVec.getLsbD i = true ↔ ∃ f, p f = true ∧ f.ctorIdx = i := by
  unfold bits
  rw [getLsbD_foldl]
  simp [mem_all]

theorem getLsbD_bits_ctorIdx (p : Field → Bool) (f : Field) :
    (bits p).toBitVec.getLsbD f.ctorIdx = p f := by
  rw [Bool.eq_iff_iff, getLsbD_bits]
  constructor
  · rintro ⟨g, hg, same⟩
    exact ctorIdx_inj same ▸ hg
  · intro hf
    exact ⟨f, hf, rfl⟩

theorem bits_inj {p q : Field → Bool} : bits p = bits q ↔ ∀ f, p f = q f := by
  constructor
  · intro h f
    rw [← getLsbD_bits_ctorIdx p, h, getLsbD_bits_ctorIdx]
  · intro h
    rw [funext h]

theorem bits_or_without (p q r : Field → Bool) :
    bits (fun f => (p f || q f) && !r f) = (bits p ||| bits q) &&& ~~~bits r := by
  apply UInt32.toBitVec_inj.mp
  apply BitVec.eq_of_getLsbD_eq
  intro i hi
  rw [UInt32.toBitVec_and, UInt32.toBitVec_or, UInt32.toBitVec_not, BitVec.getLsbD_and,
    BitVec.getLsbD_or, BitVec.getLsbD_not, Bool.eq_iff_iff, getLsbD_bits]
  simp only [Bool.and_eq_true, Bool.or_eq_true, Bool.not_eq_true', decide_eq_true hi, true_and,
    getLsbD_bits, ← Bool.not_eq_true]
  constructor
  · rintro ⟨f, ⟨hpq, hr⟩, rfl⟩
    refine ⟨hpq.imp (fun h => ⟨f, h, rfl⟩) fun h => ⟨f, h, rfl⟩, ?_⟩
    rintro ⟨g, hg, same⟩
    exact hr (ctorIdx_inj same ▸ hg)
  · rintro ⟨⟨f, hf, rfl⟩ | ⟨f, hf, rfl⟩, hr⟩
    · exact ⟨f, ⟨.inl hf, fun h => hr ⟨f, h, rfl⟩⟩, rfl⟩
    · exact ⟨f, ⟨.inr hf, fun h => hr ⟨f, h, rfl⟩⟩, rfl⟩

end Record.Field

/-! ### The fields after a merge -/

namespace Record

theorem presence_eq (r : Record) : r.presence = Field.bits r.carries := rfl

/-- The fields that an update takes back: the away text, by extras that have none. -/
def takesBack (update : Record) : Field → Bool
  | .awayText => update.extras.any fun x => x.away.isNone
  | _ => false

/-- Whether a merge drops an icon: it was among the known capabilities alone, and the update has
capabilities and no icon. -/
def dropsIcon (known update : Record) : Bool :=
  known.icon?.isSome && known.mood?.isNone && update.advertised.isSome && update.icon?.isNone

/-- The fields that a merge takes out. -/
def loses (known update : Record) : Field → Bool
  | .customIcon => known.dropsIcon update
  | f => update.takesBack f

theorem icon?_merge (known update : Record) :
    (known.merge update).icon? =
      (update.mood?.or known.mood?).or
        ((update.advertised.or known.advertised).bind Advertised.icon) := by
  have hmood : (mergeExtras known.extras update.extras).bind Extras.mood =
      update.mood?.or known.mood? :=
    bind_mergeExtras (fun _ _ => rfl) rfl known.extras update.extras
  unfold icon? merge
  rw [hmood]

theorem carries_merge (known update : Record) (f : Field) :
    (known.merge update).carries f =
      ((known.carries f || update.carries f) && !known.loses update f) := by
  have hfield : ∀ {α : Type} (old new : Option α),
      (new.or old).isSome = ((old.isSome || new.isSome) && !false) := by
    intro α old new
    cases old <;> cases new <;> rfl
  cases f with
  | customIcon =>
      have hknown : known.icon? = known.mood?.or (known.advertised.bind Advertised.icon) := rfl
      have hupdate : update.icon? = update.mood?.or (update.advertised.bind Advertised.icon) := rfl
      simp only [carries, loses, dropsIcon, icon?_merge, hknown, hupdate]
      cases update.advertised with
      | none => cases update.mood? <;> cases known.mood? <;> simp
      | some advertised =>
          cases advertised.icon <;> cases update.mood? <;> cases known.mood? <;>
            cases known.advertised.bind Advertised.icon <;> simp
  | extras => cases hx : update.extras <;> simp [carries, loses, takesBack, merge, mergeExtras, hx]
  | iconChecksum =>
      exact (congrArg Option.isSome (bind_mergeExtras (fun _ _ => rfl) rfl _ _)).trans (hfield _ _)
  | externalLink =>
      exact (congrArg Option.isSome (bind_mergeExtras (fun _ _ => rfl) rfl _ _)).trans (hfield _ _)
  | awayText =>
      cases hx : update.extras with
      | none => simp [carries, loses, takesBack, away?, merge, mergeExtras, hx]
      | some x =>
          cases ha : x.away <;>
            simp [carries, loses, takesBack, away?, merge, mergeExtras, Extras.merge, hx, ha]
  | _ => exact hfield _ _

theorem presence_merge_eq (known update : Record) :
    (known.merge update).presence =
      (known.presence ||| update.presence) &&& ~~~Field.bits (known.loses update) := by
  rw [presence_eq, funext (carries_merge known update)]
  exact Field.bits_or_without known.carries update.carries (known.loses update)

/-- A merge adds up the fields but for an away text that is taken back, unless it drops an icon. -/
theorem presence_merge_iff (known update : Record) :
    (known.merge update).presence =
        (known.presence ||| update.presence) &&& ~~~Field.bits update.takesBack ↔
      known.dropsIcon update = false := by
  rw [presence_eq, presence_eq known, presence_eq update, ← Field.bits_or_without,
    Field.bits_inj]
  constructor
  · intro h
    have hicon := h .customIcon
    rw [carries_merge] at hicon
    cases hdrops : known.dropsIcon update with
    | false => rfl
    | true =>
        -- The icon was carried, so without the loss it would be carried still.
        have hcarried : known.carries .customIcon = true := by
          unfold dropsIcon at hdrops
          simp only [Bool.and_eq_true] at hdrops
          exact hdrops.1.1.1
        simp [loses, takesBack, hdrops, hcarried] at hicon
  · intro hdrops f
    rw [carries_merge]
    cases f with
    | customIcon =>
        rw [loses, hdrops]
        rfl
    | _ => rfl

end Record

namespace Roster

theorem find?_merge {r : Roster} {known update : Record} (h : r.find? update.handle = some known) :
    (r.merge update).1.find? update.handle = some (known.merge update) := by
  have hknown : r.atKey? update.key = some known := h
  have hmerged := atKey?_merge r update update.key
  rw [if_pos rfl, hknown] at hmerged
  exact hmerged

/-- **A merge adds up what record and update carry**, but for an away text that the update takes
back, and but for an icon that the update's capabilities drop. -/
theorem presence_merge {r : Roster} {known update : Record}
    (h : r.find? update.handle = some known) :
    ∃ merged, (r.merge update).1.find? update.handle = some merged ∧
      merged.presence =
        (known.presence ||| update.presence) &&& ~~~Record.Field.bits (known.loses update) ∧
      (merged.presence =
          (known.presence ||| update.presence) &&& ~~~Record.Field.bits update.takesBack ↔
        known.dropsIcon update = false) :=
  ⟨known.merge update, find?_merge h, Record.presence_merge_eq known update,
    Record.presence_merge_iff known update⟩

/-- A user who shows the icon in row 5 among the capabilities. -/
def withIcon : Record where
  handle := "ann"
  advertised := some ⟨.none, some ⟨5, by decide⟩⟩

/-- The same user, who is away besides. -/
def withIconAway : Record := { withIcon with extras := some { away := some .empty } }

/-- An update, by another spelling, that takes the away text back. -/
def back : Record where
  handle := "A nn"
  extras := some {}

theorem presence_merge_back :
    ∃ merged, ((run [.merge withIconAway]).merge back).1.find? back.handle = some merged ∧
      merged.presence = withIcon.presence ||| Record.Field.extras.bit := by
  have hknown : (run [.merge withIconAway]).find? back.handle = some withIconAway := by
    decide +kernel
  obtain ⟨merged, hmerged, -, hpresence⟩ := presence_merge hknown
  exact ⟨merged, hmerged, (hpresence.mpr (by decide +kernel)).trans (by decide +kernel)⟩

/-- Capabilities without an icon drop the icon of the capabilities before them. -/
theorem not_presence_merge_additive :
    ¬ ∀ (r : Roster) (known update merged : Record), r.find? update.handle = some known →
      (r.merge update).1.find? update.handle = some merged →
      merged.presence =
        (known.presence ||| update.presence) &&& ~~~Record.Field.bits update.takesBack := by
  intro claim
  have hadd := claim (run [.merge withIcon]) withIcon
    { handle := "ann", advertised := some ⟨.ofBit 3, none⟩ }
    { handle := "ann", advertised := some ⟨.ofBit 3, none⟩ } (by decide +kernel) (by decide +kernel)
  revert hadd
  decide +kernel

end Roster

/-! ### The icon that a record shows -/

/-- The icon after updates: the last mood, or else the one among the last capabilities. -/
theorem Record.LatestOf.icon?_eq {history : List Record} {r : Record}
    (h : Record.LatestOf history r) :
    r.icon? = (Record.latest Record.mood? history).or
      ((Record.latest Record.advertised history).bind Advertised.icon) := by
  rw [← h.mood, ← h.advertised]
  rfl

/-- If the last update has an icon, a record shows it unless the last mood is older. -/
theorem Record.LatestOf.icon?_concat {history : List Record} {last r : Record} {icon : Icon}
    (h : Record.LatestOf (history ++ [last]) r) (hicon : last.icon? = some icon) :
    r.icon? = some ((last.mood?.or (Record.latest Record.mood? history)).getD icon) := by
  have hlast : last.mood?.or (last.advertised.bind Advertised.icon) = some icon := hicon
  rw [h.icon?_eq, Record.latest_concat, Record.latest_concat]
  cases hmood : last.mood? with
  | some mood =>
      rw [hmood, Option.some_or] at hlast
      rw [Option.some_or, Option.some_or, Option.getD_some]
  | none =>
      rw [hmood, Option.none_or] at hlast
      obtain ⟨advertised, hadvertised, -⟩ := Option.bind_eq_some_iff.mp hlast
      rw [hadvertised] at hlast ⊢
      rw [Option.none_or, Option.some_or, hlast]
      cases Record.latest Record.mood? history <;> rfl

namespace Roster

theorem exists_latestOf {ops : List Op} {handle : String}
    (h : updatesFor (Handle.key handle) ops ≠ []) :
    ∃ slot, (run ops).find? handle = some slot ∧
      Record.LatestOf (updatesFor (Handle.key handle) ops) slot := by
  have htracks := tracks_run (Handle.key handle) ops
  unfold Tracks at htracks
  unfold find?
  cases hslot : (run ops).atKey? (Handle.key handle) with
  | none =>
      rw [hslot] at htracks
      exact (h htracks).elim
  | some slot =>
      rw [hslot] at htracks
      exact ⟨slot, rfl, htracks.2⟩

/-- **The icon of the last update is shown**, unless it came among the capabilities and an older
update had another icon as its mood. -/
theorem icon?_run {ops : List Op} {handle : String} {history : List Record} {last : Record}
    {icon : Icon} (hupdates : updatesFor (Handle.key handle) ops = history ++ [last])
    (hicon : last.icon? = some icon) :
    ∃ slot, (run ops).find? handle = some slot ∧
      slot.icon? = some ((last.mood?.or (Record.latest Record.mood? history)).getD icon) ∧
      (slot.icon? = some icon ↔
        last.mood?.isSome ∨ ∀ older ∈ Record.latest Record.mood? history, older = icon) := by
  have hsome : updatesFor (Handle.key handle) ops ≠ [] := by
    rw [hupdates]
    exact List.append_ne_nil_of_right_ne_nil _ (List.cons_ne_nil _ _)
  obtain ⟨slot, hslot, hlatest⟩ := exists_latestOf hsome
  rw [hupdates] at hlatest
  have hshown := hlatest.icon?_concat hicon
  refine ⟨slot, hslot, hshown, ?_⟩
  rw [hshown]
  cases hmood : last.mood? with
  | some mood =>
      have hsame : mood = icon := by
        have hlast : last.mood?.or (last.advertised.bind Advertised.icon) = some icon := hicon
        rw [hmood, Option.some_or] at hlast
        exact Option.some.inj hlast
      simp [hsame]
  | none => cases Record.latest Record.mood? history <;> simp

/-- A user who shows the icon in row 1 as a mood. -/
def withMood : Record where
  handle := "ann"
  extras := some { mood := some ⟨1, by decide⟩ }

theorem icon?_run_mood :
    ∃ slot, (run [.merge withIcon, .merge withMood]).find? "Ann" = some slot ∧
      slot.icon? = some ⟨1, by decide⟩ := by
  have hupdates : updatesFor (Handle.key "Ann") [.merge withIcon, .merge withMood] =
      [withIcon] ++ [withMood] := by
    decide +kernel
  have hicon : withMood.icon? = some ⟨1, by decide⟩ := rfl
  obtain ⟨slot, hslot, -, hshown⟩ := icon?_run hupdates hicon
  exact ⟨slot, hslot, hshown.mpr (.inl rfl)⟩

/-- An older mood hides the icon among newer capabilities. -/
theorem not_icon?_run_last :
    ¬ ∀ (ops : List Op) (handle : String) (history : List Record) (last slot : Record) (icon : Icon),
      updatesFor (Handle.key handle) ops = history ++ [last] → last.icon? = some icon →
      (run ops).find? handle = some slot → slot.icon? = some icon := by
  intro claim
  have hshown := claim [.merge withMood, .merge withIcon] "ann" [withMood] withIcon
    { withIcon with extras := withMood.extras } ⟨5, by decide⟩ (by decide +kernel)
    (by decide +kernel) (by decide +kernel)
  revert hshown
  decide +kernel

end Roster
end Whereabouts
