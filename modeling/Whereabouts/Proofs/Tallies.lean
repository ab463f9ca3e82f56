import Mathlib
import Whereabouts.Proofs.Samples

/-! # What a registry shows of plain counts

A family that counted under known labels has a sample for each of them that it met (`tallied`), and
shows a line for each sample.  `Metrics.Census` is what is counted while records are taken in and
nobody asked for them, and `Metrics.Census.text` the whole text that a registry shows of it. -/

namespace Whereabouts

namespace Family

/-- The samples of labels under which something was counted. -/
def tallied (counts : List (List (String × String) × Nat)) : List (Labels × UInt64) :=
  (counts.filter fun count => count.2 ≠ 0).map fun count => (.ofList count.1, .ofNat count.2)

variable {f : Family} {pairs : List (String × String)} {v : UInt64}

theorem cells_add_of_not_mem (h : .ofList pairs ∉ f.cells.map Prod.fst) :
    (f.add pairs v).cells = f.cells ++ [(.ofList pairs, v)] := by
  unfold add
  dsimp only
  split
  · rfl
  · rename_i cell hcell
    exact absurd (Keyed.find?_eq_none_iff.mpr h) (by
      rw [show (f.cells.find? fun cell => cell.1 == .ofList pairs) = some cell from hcell]
      exact Option.some_ne_none cell)

theorem cells_add_of_parted {front back : List (Labels × UInt64)} {w : UInt64}
    (h : f.cells = front ++ (.ofList pairs, w) :: back) :
    (f.add pairs v).cells = front ++ (.ofList pairs, w + v) :: back := by
  have hnodup := f.labels_nodup
  rw [h, List.map_append, List.map_cons, List.nodup_middle, List.nodup_cons,
    ← List.map_append] at hnodup
  have hothers : ∀ cell ∈ front ++ back, cell.1 ≠ Labels.ofList pairs :=
    fun cell hcell hsame => hnodup.1 (List.mem_map.mpr ⟨cell, hcell, hsame⟩)
  unfold add
  dsimp only
  split
  · rename_i hnone
    have hmem : Labels.ofList pairs ∈ f.cells.map Prod.fst := by
      rw [h]
      simp
    exact absurd hmem (cell?_eq_none hnone)
  · show f.cells.map _ = _
    rw [h]
    exact Keyed.map_parted rfl hothers

/-! ### Families of one sample -/

variable {n : Nat}

theorem tallied_cons_zero (counts : List (List (String × String) × Nat)) :
    tallied ((pairs, 0) :: counts) = tallied counts := rfl

theorem tallied_cons_of_ne (hn : n ≠ 0) (counts : List (List (String × String) × Nat)) :
    tallied ((pairs, n) :: counts) = (.ofList pairs, .ofNat n) :: tallied counts := by
  unfold tallied
  rw [List.filter_cons_of_pos (by simpa using hn), List.map_cons]

theorem cells_add_single (h : f.cells = tallied [(pairs, n)]) {m : Nat} (hm : m ≠ 0) :
    (f.add pairs (.ofNat m)).cells = tallied [(pairs, n + m)] := by
  by_cases hn : n = 0
  · subst hn
    rw [tallied_cons_zero] at h
    rw [cells_add_of_not_mem (by rw [h]; exact List.not_mem_nil), h, Nat.zero_add,
      tallied_cons_of_ne hm]
    rfl
  · have hparted : f.cells = [] ++ (.ofList pairs, .ofNat n) :: tallied [] :=
      h.trans (tallied_cons_of_ne hn [])
    rw [cells_add_of_parted hparted, tallied_cons_of_ne (by omega), UInt64.ofNat_add]
    rfl

theorem cells_add_unless_zero (h : f.cells = tallied [(pairs, n)]) (m : Nat) :
    (if m = 0 then f else f.add pairs (.ofNat m)).cells = tallied [(pairs, n + m)] := by
  split_ifs with hm
  · rw [h, hm]
    rfl
  · exact cells_add_single h hm

/-! ### Families of two samples -/

section two

variable {other : List (String × String)} {k : Nat}

theorem cells_inc_first (h : f.cells = tallied [(pairs, n), (other, k)]) (hfirst : n = 0 → k = 0) :
    (f.add pairs 1).cells = tallied [(pairs, n + 1), (other, k)] := by
  by_cases hn : n = 0
  · rw [hfirst hn, hn] at h
    rw [cells_add_of_not_mem (by rw [h]; exact List.not_mem_nil), h, hfirst hn, hn]
    rfl
  · have hparted : f.cells = [] ++ (.ofList pairs, .ofNat n) :: tallied [(other, k)] :=
      h.trans (tallied_cons_of_ne hn _)
    rw [cells_add_of_parted hparted, tallied_cons_of_ne (Nat.add_one_ne_zero n), UInt64.ofNat_add]
    rfl

theorem cells_inc_second (h : f.cells = tallied [(pairs, n), (other, k)]) (hn : n ≠ 0)
    (hne : Labels.ofList pairs ≠ .ofList other) :
    (f.add other 1).cells = tallied [(pairs, n), (other, k + 1)] := by
  rw [tallied_cons_of_ne hn] at h ⊢
  rw [tallied_cons_of_ne (Nat.add_one_ne_zero k)]
  by_cases hk : k = 0
  · subst hk
    rw [tallied_cons_zero] at h
    rw [cells_add_of_not_mem (by rw [h]; simpa [tallied] using hne.symm), h]
    rfl
  · have hparted : f.cells =
        [(.ofList pairs, .ofNat n)] ++ (.ofList other, .ofNat k) :: tallied [] := by
      rw [h, tallied_cons_of_ne hk]
      rfl
    rw [cells_add_of_parted hparted, UInt64.ofNat_add]
    rfl

end two

/-! ### Lines -/

/-- The line that declares the type of a family. -/
def typeText (name type : String) : String := "# TYPE " ++ name ++ " " ++ type ++ "\n"

/-- The line of a sample, which is there once something was counted. -/
def sampleText (series : String) (n : Nat) (shown : String) : String :=
  if n = 0 then "" else series ++ " " ++ shown ++ "\n"

theorem render_of_tallied {counts : List (List (String × String) × Nat)} {shown : UInt64 → String}
    {name type : String} (h : f.cells = tallied counts)
    (hsorted : ((tallied counts).map (sampleLine shown name)).Pairwise (· ≤ ·)) :
    f.render shown name type = typeText name type ++
      String.join (counts.map fun count =>
        sampleText (seriesText name (.ofList count.1)) count.2 (shown (.ofNat count.2))) := by
  have hlines : ∀ counts : List (List (String × String) × Nat),
      String.join (((tallied counts).map (sampleLine shown name)).map fun line => line ++ "\n") =
        String.join (counts.map fun count =>
          sampleText (seriesText name (.ofList count.1)) count.2 (shown (.ofNat count.2))) := by
    intro counts
    induction counts with
    | nil => rfl
    | cons count counts ih =>
        obtain ⟨pairs, n⟩ := count
        unfold sampleText at ih ⊢
        rw [List.map_cons, String.join_cons, ← ih]
        by_cases hn : n = 0
        · rw [hn, tallied_cons_zero]
          simp
        · rw [tallied_cons_of_ne hn, List.map_cons, List.map_cons, String.join_cons, sampleLine_eq,
            if_neg hn]
  have hsame : f.sampleLines shown name = (tallied counts).map (sampleLine shown name) := by
    unfold sampleLines
    rw [h]
    exact List.mergeSort_of_pairwise (hsorted.imp decide_eq_true)
  unfold render
  dsimp only
  rw [hsame, List.map_cons, String.join_cons, hlines]
  rfl

theorem render_of_tallied_single {shown : UInt64 → String} {name type : String}
    (h : f.cells = tallied [(pairs, n)]) :
    f.render shown name type = typeText name type ++
      sampleText (seriesText name (.ofList pairs)) n (shown (.ofNat n)) := by
  rw [render_of_tallied h]
  · simp
  · by_cases hn : n = 0
    · rw [hn]
      exact List.Pairwise.nil
    · rw [tallied_cons_of_ne hn]
      exact List.pairwise_singleton _ _

end Family

namespace Metrics

/-- What is counted while records are taken in that nobody asked for. -/
structure Census where
  /-- How many records began an entry of the roster. -/
  created : Nat := 0
  updated : Nat := 0
  unmatched : Nat := 0
  unknown : Nat := 0

namespace Census

/-- How many records were taken in. -/
def given (c : Census) : Nat := c.created + c.updated

/-- The text of a registry that counted this.  Sums over the records may outgrow a word and wrap. -/
def text (c : Census) : String :=
  String.join
    [Family.typeText "locate_records_decoded_total" "counter",
      Family.sampleText "locate_records_decoded_total" c.given (toString c.given),
      Family.typeText "locate_decode_failures_total" "counter",
      Family.typeText "locate_unmatched_capabilities_total" "counter",
      Family.sampleText "locate_unmatched_capabilities_total" c.unmatched
        (toString (c.unmatched % 2 ^ 64)),
      Family.typeText "locate_unknown_fields_total" "counter",
      Family.sampleText "locate_unknown_fields_total" c.unknown (toString (c.unknown % 2 ^ 64)),
      Family.typeText "locate_cache_merges_total" "counter",
      Family.sampleText "locate_cache_merges_total\x7bresult=\"created\"\x7d" c.created
        (toString c.created),
      Family.sampleText "locate_cache_merges_total\x7bresult=\"updated\"\x7d" c.updated
        (toString c.updated),
      Family.typeText "locate_cache_entries" "gauge",
      Family.sampleText "locate_cache_entries" c.created (toString c.created),
      Family.typeText "locate_requests_total" "counter",
      Family.typeText "locate_resolutions_total" "counter",
      Family.sampleText "locate_resolutions_total\x7boutcome=\"unsolicited\"\x7d" c.given
        (toString c.given)]

/-- Whether a registry counted this and nothing else. -/
structure In (c : Census) (m : Metrics) : Prop where
  recordsDecoded : m.recordsDecoded.words.cells = Family.tallied [([], c.given)]
  decodeFailures : m.decodeFailures.words.cells = []
  unmatchedCapabilities : m.unmatchedCapabilities.words.cells = Family.tallied [([], c.unmatched)]
  unknownFields : m.unknownFields.words.cells = Family.tallied [([], c.unknown)]
  cacheMerges : m.cacheMerges.words.cells =
    Family.tallied [([("result", "created")], c.created), ([("result", "updated")], c.updated)]
  cacheEntries : m.cacheEntries.words.cells = Family.tallied [([], c.created)]
  requests : m.requests.words.cells = []
  resolutions : m.resolutions.words.cells =
    Family.tallied [([("outcome", "unsolicited")], c.given)]

theorem in_start : In {} {} := ⟨rfl, rfl, rfl, rfl, rfl, rfl, rfl, rfl⟩

theorem toString_word {n : Nat} (h : n < 2 ^ 63) : toString (UInt64.ofNat n) = toString n :=
  congrArg toString (UInt64.toNat_ofNat_of_lt' (Nat.lt_trans h (by decide)))

theorem toString_wrapped (n : Nat) : toString (UInt64.ofNat n) = toString (n % 2 ^ 64) :=
  congrArg toString UInt64.toNat_ofNat'

theorem toString_signed {n : Nat} (h : n < 2 ^ 63) :
    toString (UInt64.ofNat n).toInt64 = toString n :=
  congrArg toString (Int64.toInt_ofNat_of_lt h)

theorem render_merges {c : Census} {f : Family} {shown : UInt64 → String} {type : String}
    (h : f.cells = Family.tallied
      [([("result", "created")], c.created), ([("result", "updated")], c.updated)]) :
    f.render shown "locate_cache_merges_total" type =
      Family.typeText "locate_cache_merges_total" type ++ String.join
        [Family.sampleText "locate_cache_merges_total\x7bresult=\"created\"\x7d" c.created
            (shown (.ofNat c.created)),
          Family.sampleText "locate_cache_merges_total\x7bresult=\"updated\"\x7d" c.updated
            (shown (.ofNat c.updated))] := by
  have hcreated : Family.seriesText "locate_cache_merges_total" (.ofList [("result", "created")]) =
      "locate_cache_merges_total\x7bresult=\"created\"\x7d" := by decide +kernel
  have hupdated : Family.seriesText "locate_cache_merges_total" (.ofList [("result", "updated")]) =
      "locate_cache_merges_total\x7bresult=\"updated\"\x7d" := by decide +kernel
  rw [Family.render_of_tallied h, List.map_cons, List.map_singleton, hcreated, hupdated]
  have hle : ∀ a b : String, "locate_cache_merges_total\x7bresult=\"created\"\x7d" ++ " " ++ a ≤
      "locate_cache_merges_total\x7bresult=\"updated\"\x7d" ++ " " ++ b := by
    intro a b
    rw [← String.not_lt, String.lt_iff_toList_lt, List.not_lt]
    simp only [String.toList_append]
    exact List.le_of_lt (by simp [List.cons_lt_cons_iff])
  have hpair : List.Pairwise (· ≤ ·)
      ([((Labels.ofList [("result", "created")]), UInt64.ofNat c.created),
        ((Labels.ofList [("result", "updated")]), UInt64.ofNat c.updated)].map
          (Family.sampleLine shown "locate_cache_merges_total")) := by
    simp only [List.map_cons, List.map_nil, Family.sampleLine_eq, hcreated, hupdated]
    exact List.pairwise_pair.mpr (hle _ _)
  exact hpair.sublist (((List.filter_sublist (l := [([("result", "created")], c.created),
    ([("result", "updated")], c.updated)])).map _).map _)

/-- **The whole text of a registry is that of what it counted.** -/
theorem render_of_in {c : Census} {m : Metrics} (h : c.In m) (hfits : c.given < 2 ^ 63) :
    m.render = c.text := by
  have hcreated : c.created < 2 ^ 63 := Nat.lt_of_le_of_lt (Nat.le_add_right _ _) hfits
  have hupdated : c.updated < 2 ^ 63 := Nat.lt_of_le_of_lt (Nat.le_add_left _ _) hfits
  have hempty : ∀ {f : Family} {shown : UInt64 → String} {name type : String}, f.cells = [] →
      f.render shown name type = Family.typeText name type := by
    intro f shown name type hnil
    have hcells : f.cells = Family.tallied [([], 0)] := hnil
    rw [Family.render_of_tallied_single hcells]
    exact String.append_empty
  have hplain : ∀ name, Family.seriesText name (.ofList []) = name :=
    fun name => if_pos (by decide +kernel)
  have houtcome : Family.seriesText "locate_resolutions_total"
      (.ofList [("outcome", "unsolicited")]) =
        "locate_resolutions_total\x7boutcome=\"unsolicited\"\x7d" := by decide +kernel
  unfold render Counter.render Gauge.render
  rw [Family.render_of_tallied_single h.recordsDecoded, hempty h.decodeFailures,
    Family.render_of_tallied_single h.unmatchedCapabilities,
    Family.render_of_tallied_single h.unknownFields, render_merges h.cacheMerges,
    Family.render_of_tallied_single h.cacheEntries, hempty h.requests,
    Family.render_of_tallied_single h.resolutions, houtcome]
  simp only [hplain, toString_word hfits, toString_word hcreated, toString_word hupdated,
    toString_wrapped, toString_signed hcreated]
  unfold text
  simp only [String.join_cons, String.append_assoc]
  rfl

end Census
end Metrics
end Whereabouts
