import Whereabouts.Proofs.Totals

/-! # What a registry shows

A registry is eight families, and an operation touches one of them.  So each family is the outcome
of the operations on it (`Metrics.family_run`), and what is known of the totals of one family is
known of all.

`Metrics.render_run` puts it together: the text of a registry tells what was added under which
labels, and neither the order of the operations nor that of their pairs nor that of the samples
can be seen in it. -/

namespace Whereabouts

/-! ### Operations -/

namespace Metrics

/-- The counters of a registry. -/
inductive Tally where
  | recordsDecoded
  | decodeFailures
  | unmatchedCapabilities
  | unknownFields
  | cacheMerges
  | requests
  | resolutions
deriving DecidableEq, Repr

/-- The families of a registry. -/
inductive Meter where
  | tally (t : Tally)
  | cacheEntries
deriving DecidableEq, Repr

/-- A counter of a registry. -/
def counter (m : Metrics) : Tally → Counter
  | .recordsDecoded => m.recordsDecoded
  | .decodeFailures => m.decodeFailures
  | .unmatchedCapabilities => m.unmatchedCapabilities
  | .unknownFields => m.unknownFields
  | .cacheMerges => m.cacheMerges
  | .requests => m.requests
  | .resolutions => m.resolutions

/-- The registry with a counter in place of another. -/
def setCounter (m : Metrics) (c : Counter) : Tally → Metrics
  | .recordsDecoded => { m with recordsDecoded := c }
  | .decodeFailures => { m with decodeFailures := c }
  | .unmatchedCapabilities => { m with unmatchedCapabilities := c }
  | .unknownFields => { m with unknownFields := c }
  | .cacheMerges => { m with cacheMerges := c }
  | .requests => { m with requests := c }
  | .resolutions => { m with resolutions := c }

/-- The words of a family. -/
def family (m : Metrics) : Meter → Family
  | .tally t => (m.counter t).words
  | .cacheEntries => m.cacheEntries.words

namespace Meter

def name : Meter → String
  | tally .recordsDecoded => "locate_records_decoded_total"
  | tally .decodeFailures => "locate_decode_failures_total"
  | tally .unmatchedCapabilities => "locate_unmatched_capabilities_total"
  | tally .unknownFields => "locate_unknown_fields_total"
  | tally .cacheMerges => "locate_cache_merges_total"
  | tally .requests => "locate_requests_total"
  | tally .resolutions => "locate_resolutions_total"
  | cacheEntries => "locate_cache_entries"

def type : Meter → String
  | tally _ => "counter"
  | cacheEntries => "gauge"

/-- How a word of a family is shown. -/
def shown : Meter → UInt64 → String
  | tally _ => fun w => toString w
  | cacheEntries => fun w => toString w.toInt64

/-- The families in the order of the exposition. -/
def all : List Meter :=
  [tally .recordsDecoded, tally .decodeFailures, tally .unmatchedCapabilities,
    tally .unknownFields, tally .cacheMerges, cacheEntries, tally .requests, tally .resolutions]

end Meter

/-- What is done to a registry. -/
inductive Op where
  | count (t : Tally) (op : Counter.Op)
  | gauge (op : Gauge.Op)

def perform (m : Metrics) : Op → Metrics
  | .count t op => m.setCounter ((m.counter t).perform op) t
  | .gauge op => { m with cacheEntries := m.cacheEntries.perform op }

/-- The registry after operations, from the registry without a sample. -/
def run (ops : List Op) : Metrics := ops.foldl perform {}

namespace Op

def meter : Op → Meter
  | count t _ => .tally t
  | gauge _ => .cacheEntries

/-- What an operation adds to its family. -/
def addition : Op → Addition
  | count _ op => op.addition
  | gauge op => op.addition

/-- Whether two operations do the same, with the pairs in some order. -/
def Alike (a b : Op) : Prop := a.meter = b.meter ∧ a.addition.Alike b.addition

/-- What operations add to a family. -/
def additions (meter : Meter) (ops : List Op) : List Addition :=
  (ops.filter fun op => op.meter = meter).map addition

theorem additions_of_shuffled {ops ops' : List Op} (h : Shuffled Alike ops ops')
    (meter : Meter) :
    Shuffled Addition.Alike (additions meter ops) (additions meter ops') := by
  have hmeter : ∀ a b : Op, a.Alike b → decide (a.meter = meter) = decide (b.meter = meter) :=
    fun a b hab => by rw [hab.1]
  exact (h.filter hmeter).map fun a b hab => hab.2

end Op

theorem counter_setCounter (m : Metrics) (c : Counter) (t t' : Tally) :
    (m.setCounter c t).counter t' = if t = t' then c else m.counter t' := by
  cases t <;> cases t' <;> rfl

theorem cacheEntries_setCounter (m : Metrics) (c : Counter) (t : Tally) :
    (m.setCounter c t).cacheEntries = m.cacheEntries := by
  cases t <;> rfl

theorem family_perform (m : Metrics) (op : Op) (meter : Meter) :
    (m.perform op).family meter =
      if op.meter = meter then (m.family meter).perform op.addition else m.family meter := by
  cases op with
  | count t op =>
      cases meter with
      | tally t' =>
          simp only [family, perform, counter_setCounter, Op.meter, Meter.tally.injEq]
          by_cases h : t = t'
          · rw [if_pos h, if_pos h, Counter.words_perform, h]
            rfl
          · rw [if_neg h, if_neg h]
      | cacheEntries =>
          simp only [family, perform, cacheEntries_setCounter, Op.meter, reduceCtorEq, if_false]
  | gauge op =>
      cases meter with
      | tally t' => cases t' <;> rfl
      | cacheEntries => exact Gauge.words_perform _ op

theorem family_run (ops : List Op) (meter : Meter) :
    (run ops).family meter = .run (Op.additions meter ops) := by
  induction ops using List.reverseRecOn with
  | nil =>
      cases meter with
      | tally t => cases t <;> rfl
      | cacheEntries => rfl
  | append_singleton ops op ih =>
      have hstep : run (ops ++ [op]) = (run ops).perform op := by
        rw [run, List.foldl_append]
        rfl
      rw [hstep, family_perform, ih, Op.additions, Op.additions, List.filter_append,
        List.map_append]
      by_cases h : op.meter = meter
      · rw [if_pos h, List.filter_cons_of_pos (by simpa using h), List.filter_nil, List.map_cons,
          List.map_nil, Family.run_concat]
        rfl
      · rw [if_neg h, List.filter_cons_of_neg (by simpa using h), List.filter_nil, List.map_nil,
          List.append_nil]

/-! ### The exposition -/

/-- Whether two registries hold the same samples, in some order. -/
def SameSamples (m m' : Metrics) : Prop :=
  ∀ meter, (m.family meter).cells.Perm (m'.family meter).cells

theorem render_eq (m : Metrics) :
    m.render = String.join
      (Meter.all.map fun meter => (m.family meter).render meter.shown meter.name meter.type) :=
  rfl

theorem render_of_sameSamples {m m' : Metrics} (h : m.SameSamples m') : m.render = m'.render := by
  rw [render_eq, render_eq]
  congr 1
  exact List.map_congr_left fun meter _ => Family.render_of_perm _ _ _ (h meter)

/-- The line that declares the type of a family. -/
def Meter.typeLine (meter : Meter) : String := "# TYPE " ++ meter.name ++ " " ++ meter.type

/-- Whether a registry shows operations: behind the line of its type, each family has one line
for each set of labels that was touched, with what was added under it. -/
def Shows (m : Metrics) (ops : List Op) : Prop :=
  ∃ lines : Meter → List String,
    m.render = String.join
      ((Meter.all.flatMap fun meter => meter.typeLine :: lines meter).map fun line =>
        line ++ "\n") ∧
    ∀ meter, (lines meter).Perm
      ((Addition.touched (Op.additions meter ops)).map fun labels =>
        Family.sampleLine meter.shown meter.name
          (labels, ((run ops).family meter).get labels.pairs))

theorem shows_of_sameSamples {ops : List Op} {m : Metrics} (h : (run ops).SameSamples m) :
    m.Shows ops := by
  refine ⟨fun meter => (m.family meter).sampleLines meter.shown meter.name, ?_, ?_⟩
  · have hjoin : ∀ meters : List Meter,
        String.join (meters.map fun meter =>
          (m.family meter).render meter.shown meter.name meter.type) =
        String.join ((meters.flatMap fun meter => meter.typeLine ::
          (m.family meter).sampleLines meter.shown meter.name).map fun line => line ++ "\n") := by
      intro meters
      induction meters with
      | nil => rfl
      | cons meter meters ih =>
          rw [List.map_cons, String.join_cons, ih, List.flatMap_cons, List.map_append,
            String.join_append]
          rfl
    rw [render_eq]
    exact hjoin Meter.all
  · intro meter
    have hmeter := h meter
    rw [family_run] at hmeter ⊢
    exact Family.perm_sampleLines_run _ _ hmeter

/-- **The exposition tells the sums and nothing of the order.**  A counter or a gauge shows, under
any pairs, the sum of what was added under permutations of them; an addition leaves all other
samples alone.  Registries that hold the samples of the same operations, in whatever order these
were done, their pairs were given and the samples are kept, are shown by one text, with one line
for each set of labels that was touched. -/
theorem render_run :
    (∀ (ops : List Counter.Op) (pairs : List (String × String)),
      ((Counter.run ops).get pairs).toNat =
        ((ops.filter fun op : Counter.Op => op.pairs.Perm pairs).map fun op : Counter.Op =>
          op.delta.toNat).sum % 2 ^ 64) ∧
    (∀ (ops : List Gauge.Op) (pairs : List (String × String)),
      ((Gauge.run ops).get pairs).toInt =
        ((ops.filter fun op : Gauge.Op => op.pairs.Perm pairs).map fun op : Gauge.Op =>
          op.delta.toInt).sum.bmod (2 ^ 64)) ∧
    (∀ (f : Family) (pairs other : List (String × String)) (v : UInt64), ¬ pairs.Perm other →
      (f.add pairs v).cell? (.ofList other) = f.cell? (.ofList other)) ∧
    ∀ (ops ops' : List Op) (m m' : Metrics), Shuffled Op.Alike ops ops' →
      (run ops).SameSamples m → (run ops').SameSamples m' →
        m.render = m'.render ∧ m.Shows ops := by
  refine ⟨Counter.toNat_get_run, Gauge.toInt_get_run, ?_, ?_⟩
  · intro f pairs other v h
    rw [Family.cell?_add, if_neg (mt (Labels.ofList_eq_ofList_iff pairs other).mp h)]
  · intro ops ops' m m' h hm hm'
    refine ⟨render_of_sameSamples fun meter => ?_, shows_of_sameSamples hm⟩
    have hsame := Family.perm_cells_of_shuffled (Op.additions_of_shuffled h meter)
    rw [← family_run, ← family_run] at hsame
    exact ((hm meter).symm.trans hsame).trans (hm' meter)

/-- A queued request, counted under its labels. -/
def countQueued : Op := .count .requests (.inc [("kind", "explicit"), ("outcome", "queued")])

/-- A queued request, counted under its labels in the other order. -/
def countQueuedBack : Op := .count .requests (.inc [("outcome", "queued"), ("kind", "explicit")])

/-- An operation that touches a sample and leaves it at zero. -/
def touchEntries : Op := .gauge (.add [] 0)

theorem render_run_shuffled :
    Shuffled Op.Alike [countQueued, countQueuedBack, touchEntries]
        [touchEntries, countQueued, countQueued] ∧
      (run [countQueued, countQueuedBack, touchEntries]).render =
        (run [touchEntries, countQueued, countQueued]).render ∧
      ((Family.run [countQueued.addition]).add [("kind", "implicit")] 1).cell?
          (.ofList [("kind", "explicit")]) =
        (Family.run [countQueued.addition]).cell? (.ofList [("kind", "explicit")]) := by
  have hshuffled : Shuffled Op.Alike [countQueued, countQueuedBack, touchEntries]
      [touchEntries, countQueued, countQueued] := by
    refine ⟨[touchEntries, countQueued, countQueuedBack], ?_, ?_⟩
    · show ([countQueued, countQueuedBack] ++ [touchEntries]).Perm
        ([touchEntries] ++ [countQueued, countQueuedBack])
      exact List.perm_append_comm
    · exact .cons ⟨rfl, rfl, .refl _⟩ (.cons ⟨rfl, rfl, .refl _⟩
        (.cons ⟨rfl, rfl, .swap _ _ _⟩ .nil))
  have hother : ¬ [("kind", "implicit")].Perm [("kind", "explicit")] := by decide
  exact ⟨hshuffled,
    (render_run.2.2.2 _ _ _ _ hshuffled (fun _ => .refl _) fun _ => .refl _).1,
    render_run.2.2.1 _ _ _ 1 hother⟩

end Metrics
end Whereabouts
