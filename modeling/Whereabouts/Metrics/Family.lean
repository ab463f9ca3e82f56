import Whereabouts.Metrics.Labels

/-! # Families of samples

A family is a 64-bit word for each set of labels that was ever touched.  Words wrap.  A counter
shows its words as numbers without a sign and a gauge shows them with one, so both count in the
same way.

The exposition of a family is a line that declares its type and a line for each sample, in the
order of the lines. -/

namespace Whereabouts

/-- A word for each set of labels. -/
structure Family where
  cells : List (Labels × UInt64)
  labels_nodup : (cells.map Prod.fst).Nodup

namespace Family

def empty : Family := ⟨[], List.nodup_nil⟩

/-- The sample of some labels. -/
def cell? (f : Family) (labels : Labels) : Option (Labels × UInt64) :=
  f.cells.find? fun cell => cell.1 == labels

/-- The word of some labels, zero if they were never touched. -/
def get (f : Family) (pairs : List (String × String)) : UInt64 :=
  match f.cell? (.ofList pairs) with
  | some cell => cell.2
  | none => 0

theorem cell?_eq_none {f : Family} {labels : Labels} (h : f.cell? labels = none) :
    labels ∉ f.cells.map Prod.fst := by
  intro mem
  obtain ⟨cell, hc, e⟩ := List.mem_map.mp mem
  have := List.find?_eq_none.mp h cell hc
  simp [e] at this

/-- The family with one more sample. -/
def push (f : Family) (labels : Labels) (v : UInt64) (new : f.cell? labels = none) : Family :=
  ⟨f.cells ++ [(labels, v)], by
    rw [List.map_append, List.nodup_append]
    refine ⟨f.labels_nodup, by simp, fun a ha b hb e => cell?_eq_none new ?_⟩
    rw [List.mem_map] at hb
    obtain ⟨x, hx, rfl⟩ := hb
    have e' : a = labels := by rw [e, List.mem_singleton.mp hx]
    exact e' ▸ ha⟩

/-- The family with a number added to a sample that it has. -/
def increase (f : Family) (labels : Labels) (v : UInt64) : Family :=
  ⟨f.cells.map fun cell => if cell.1 = labels then (cell.1, cell.2 + v) else cell, by
    have same : (f.cells.map fun cell =>
        if cell.1 = labels then (cell.1, cell.2 + v) else cell).map Prod.fst =
          f.cells.map Prod.fst := by
      rw [List.map_map]
      apply List.map_congr_left
      intro cell _
      by_cases h : cell.1 = labels <;> simp [h]
    rw [same]
    exact f.labels_nodup⟩

/-- The family with a number added to the sample of some labels.  Labels that are touched for
the first time start from zero. -/
def add (f : Family) (pairs : List (String × String)) (v : UInt64) : Family :=
  let labels := Labels.ofList pairs
  match new : f.cell? labels with
  | none => f.push labels v new
  | some _ => f.increase labels v

/-- The line of one sample, whose word `shown` writes.  Empty labels go without braces. -/
def sampleLine (shown : UInt64 → String) (name : String) (cell : Labels × UInt64) : String :=
  let labels := cell.1.render
  if labels.isEmpty then name ++ " " ++ shown cell.2
  else name ++ "\x7b" ++ labels ++ "\x7d " ++ shown cell.2

def sampleLines (f : Family) (shown : UInt64 → String) (name : String) : List String :=
  (f.cells.map (sampleLine shown name)).mergeSort fun a b => a ≤ b

/-- The exposition of a family of some type. -/
def render (f : Family) (shown : UInt64 → String) (name type : String) : String :=
  let lines := ("# TYPE " ++ name ++ " " ++ type) :: f.sampleLines shown name
  String.join (lines.map fun line => line ++ "\n")

end Family

/-! ### Counters and gauges -/

/-- A family of numbers that only grow, but for wrapping. -/
structure Counter where
  words : Family := .empty

namespace Counter

def get (c : Counter) (pairs : List (String × String)) : UInt64 := c.words.get pairs

def add (c : Counter) (pairs : List (String × String)) (v : UInt64) : Counter :=
  ⟨c.words.add pairs v⟩

def inc (c : Counter) (pairs : List (String × String)) : Counter := c.add pairs 1

def render (c : Counter) (name : String) : String :=
  c.words.render (fun w => toString w) name "counter"

end Counter

/-- A family of numbers that rise and fall. -/
structure Gauge where
  words : Family := .empty

namespace Gauge

def get (g : Gauge) (pairs : List (String × String)) : Int64 := (g.words.get pairs).toInt64

def add (g : Gauge) (pairs : List (String × String)) (v : Int64) : Gauge :=
  ⟨g.words.add pairs v.toUInt64⟩

def inc (g : Gauge) (pairs : List (String × String)) : Gauge := g.add pairs 1

def dec (g : Gauge) (pairs : List (String × String)) : Gauge := g.add pairs (-1)

def render (g : Gauge) (name : String) : String :=
  g.words.render (fun w => toString w.toInt64) name "gauge"

end Gauge
end Whereabouts
