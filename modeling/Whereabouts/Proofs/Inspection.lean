import Mathlib
import Whereabouts.Inspect
import Whereabouts.Proofs.Progress
import Whereabouts.Proofs.RecordJson

/-! # What the command line shows

`Host.execute_spec` says what stands on standard output for any arguments and any surroundings:
behind the journal all of the report if everything can be understood, and otherwise nothing but the
journal.  The only line of the journal that is an error is the last one of a run that failed.  So a
journal that lets nothing but errors through leaves the report alone, and a journal that is silent
leaves nothing at all where a run failed. -/

namespace Whereabouts

/-! ### Command lines -/

namespace Invocation

/-- How arguments are told apart: the option takes the one behind it as a path, and all others are
records. -/
inductive Takes : List String → List String → List String → Prop where
  | nil : Takes [] [] []
  | path {args paths records : List String} (path : String) (rest : Takes args paths records) :
      Takes (settingsOption :: path :: args) (path :: paths) records
  | record {args paths records : List String} {arg : String} (hne : arg ≠ settingsOption)
      (rest : Takes args paths records) : Takes (arg :: args) paths (arg :: records)

theorem Takes.readArgs {args paths records : List String} (h : Takes args paths records)
    (inv : Invocation) :
    inv.readArgs args = .ok ⟨paths.getLast?.or inv.settingsPath, inv.records ++ records⟩ := by
  induction h generalizing inv with
  | nil => rw [Invocation.readArgs, List.append_nil, List.getLast?_nil, Option.none_or]
  | @path args paths records path rest ih =>
      unfold Invocation.readArgs
      rw [if_pos rfl]
      show Invocation.readArgs _ args = _
      rw [ih, List.getLast?_cons]
      cases paths.getLast? <;> rfl
  | @record args paths records arg hne rest ih =>
      unfold Invocation.readArgs
      rw [if_neg hne, ih, List.append_assoc]
      rfl

theorem exists_takes {args : List String} {inv inv' : Invocation}
    (h : inv.readArgs args = .ok inv') : ∃ paths records, Takes args paths records := by
  fun_induction Invocation.readArgs inv args with
  | case1 => exact ⟨[], [], .nil⟩
  | case2 => cases h
  | case3 inv path args ih =>
      obtain ⟨paths, records, rest⟩ := ih h
      exact ⟨path :: paths, records, .path path rest⟩
  | case4 inv arg args hne ih =>
      obtain ⟨paths, records, rest⟩ := ih h
      exact ⟨paths, arg :: records, .record hne rest⟩

theorem ofArgs_eq_ok_iff {args : List String} {inv : Invocation} :
    ofArgs args = .ok inv ↔
      ∃ paths, Takes args paths inv.records ∧ inv.settingsPath = paths.getLast? := by
  constructor
  · intro h
    obtain ⟨paths, records, htakes⟩ := exists_takes h
    obtain rfl := Except.ok.inj ((htakes.readArgs {}).symm.trans h)
    exact ⟨paths, htakes, Option.or_none⟩
  · rintro ⟨paths, htakes, hpath⟩
    rw [ofArgs, htakes.readArgs, Option.or_none, ← hpath]
    rfl

end Invocation

/-! ### Journals -/

theorem Event.level_line (e : Event) : e.line.level ≠ .error := by
  cases e with
  | remark r => cases r <;> nofun
  | _ => nofun

namespace Journaled

variable {α β : Type}

/-- Whether no line of a journal is an error. -/
def Calm (run : Journaled α) : Prop := ∀ l ∈ run.lines, l.level ≠ .error

theorem Calm.ofResult (result : Except Fault α) : (ofResult result).Calm :=
  fun _ h => absurd h List.not_mem_nil

theorem Calm.note {lines : List JournalLine} (h : ∀ l ∈ lines, l.level ≠ .error) :
    (note lines).Calm := h

theorem Calm.andThen {run : Journaled α} {next : α → Journaled β} (h : run.Calm)
    (hnext : ∀ a, (next a).Calm) : (run >>= next).Calm := by
  show (run.andThen next).Calm
  unfold Journaled.andThen
  split
  · rename_i a _
    exact List.forall_mem_append.mpr ⟨h, hnext a⟩
  · exact h

end Journaled

namespace Inspect

/-! ### The journal -/

theorem calm_takeRecord (p : Progress) (index : Nat) (text : String) :
    (takeRecord p index text).Calm := by
  unfold takeRecord
  refine .andThen (.ofResult _) fun bytes => .andThen (.ofResult _) fun handle => ?_
  refine .andThen (.note (List.forall_mem_map.mpr fun e _ => e.level_line)) fun _ => ?_
  refine .andThen (.ofResult _) fun settlement => ?_
  exact .andThen (.note (List.forall_mem_singleton.mpr nofun)) fun _ => .ofResult _

theorem calm_takeRecords (p : Progress) (index : Nat) (texts : List String) :
    (takeRecords p index texts).Calm := by
  induction texts generalizing p index with
  | nil => exact .ofResult _
  | cons text texts ih =>
      exact .andThen (calm_takeRecord p index text) fun p => ih p (index + 1)

theorem Host.calm_run (host : Host) (args : List String) : (host.run args).Calm :=
  .andThen (.ofResult _) fun inv => .andThen (.ofResult _) fun _ =>
    .andThen (calm_takeRecords _ 0 inv.records) fun _ => .ofResult _

/-! ### Reports -/

/-- What a report says of the readings that were given: the JSON text of each record that is shown,
from which all its fields are read back, and behind these the whole text of the metrics.  By that
text as many records were decoded as were given, and as many are in the roster as are shown; a
number that is zero has no line.  The numbers fit their words, as no command line has 2 ^ 63
arguments. -/
structure Reports (given : List Reading) (shown : List Record) (report : String) : Prop where
  text : ∃ metrics : String,
    report = String.join (shown.map fun r => r.toJson.pretty ++ "\n") ++ metrics ∧
    (given.length < 2 ^ 63 → metrics = (census given).text)
  told : ∀ r ∈ shown, Record.ofText? r.toJson.pretty = some r
  given_eq : (census given).given = given.length
  created_eq : (census given).created = shown.length
  empty_iff : shown = [] ↔ given = []

theorem Progress.Holds.reports {p : Progress} {given : List Reading} (h : p.Holds given) :
    Reports given (p.handles.filterMap p.session.find?) (report p) := by
  have hcreated : (census given).created = (p.handles.filterMap p.session.find?).length := by
    show (keysOf given).eraseDups.length = _
    rw [keysOf, ← h.shown.keys, List.length_map]
  refine ⟨⟨p.metrics.render, rfl, fun hfits => ?_⟩, fun r _ => r.ofText?_pretty,
    given_census given, hcreated, ?_⟩
  · exact Metrics.Census.render_of_in h.metrics ((given_census given).symm ▸ hfits)
  · rw [← created_eq_zero_iff, hcreated, List.length_eq_zero_iff]

/-! ### What is understood -/

theorem mapM_eq_ok_iff {α β ε : Type} {f : α → Except ε β} {l : List α} {results : List β} :
    l.mapM f = .ok results ↔ List.Forall₂ (fun a b => f a = .ok b) l results := by
  induction l generalizing results with
  | nil =>
      rw [List.forall₂_nil_left_iff]
      exact ⟨fun h => (Except.ok.inj h).symm, fun h => congrArg Except.ok h.symm⟩
  | cons a l ih =>
      rw [List.mapM_cons, List.forall₂_cons_left_iff]
      constructor
      · intro h
        cases ha : f a with
        | error e =>
            rw [ha] at h
            cases h
        | ok b =>
            cases hl : l.mapM f with
            | error e =>
                rw [ha, hl] at h
                cases h
            | ok bs =>
                rw [ha, hl] at h
                exact ⟨b, bs, rfl, ih.mp hl, (Except.ok.inj h).symm⟩
      · rintro ⟨b, bs, ha, hl, rfl⟩
        rw [ha, ih.mpr hl]
        rfl

/-- Whether a settings file gives settings: it can be read, is text of the right shape and of the
right version, and keeps the limits. -/
def Host.Configures (host : Host) (path : String) (settings : Settings) : Prop :=
  ∃ bytes text, host.readFile path = .ok bytes ∧ Utf8.decode? bytes = some text ∧
    host.readSettings? text = some (Settings.version, settings) ∧
    1 ≤ settings.maxPending ∧ settings.maxPending ≤ Settings.pendingLimit

theorem Host.settingsOf_eq_ok_iff {host : Host} {path : String} {settings : Settings} :
    host.settingsOf (host.readFile path) = .ok settings ↔ host.Configures path settings := by
  constructor
  · intro h
    unfold settingsOf at h
    split at h
    · cases h
    · rename_i bytes hfile
      split at h
      · cases h
      · rename_i text htext
        unfold Settings.check at h
        split at h
        · cases h
        · rename_i given found hread
          split_ifs at h with hversion hlimits
          obtain rfl := Except.ok.inj h
          exact ⟨bytes, text, hfile, htext, not_not.mp hversion ▸ hread, hlimits⟩
  · rintro ⟨bytes, text, hfile, htext, hread, hlimits⟩
    unfold settingsOf
    rw [hfile]
    dsimp only
    rw [htext]
    dsimp only
    rw [hread, Settings.check, if_neg (not_not.mpr rfl), if_pos hlimits]

theorem Host.exists_settingsFor_iff {host : Host} {inv : Invocation} :
    (∃ settings, host.settingsFor inv = .ok settings) ↔
      ∀ path ∈ inv.settingsPath, ∃ settings, host.Configures path settings := by
  unfold settingsFor
  cases inv.settingsPath with
  | none => exact ⟨fun _ _ h => absurd h (Option.not_mem_none _), fun _ => ⟨_, rfl⟩⟩
  | some path =>
      simp only [Option.mem_some_iff, forall_eq']
      exact exists_congr fun settings => settingsOf_eq_ok_iff

/-- Whether an argument is a record: digits of octets from which the record is read. -/
def Tells (text : String) (reading : Reading) : Prop :=
  ∃ bytes, Hex.read (Utf8.encode (trimBlanks text)) = .ok bytes ∧
    Record.decode Session.catalogue bytes = .ok reading

theorem readArgument_eq_ok_iff {index : Nat} {text : String} {reading : Reading} :
    readArgument index text = .ok reading ↔ Tells text reading := by
  unfold readArgument bytesOf Tells
  cases Hex.read (Utf8.encode (trimBlanks text)) with
  | error fault => exact ⟨nofun, nofun⟩
  | ok bytes =>
      constructor
      · exact fun h => ⟨bytes, rfl, h⟩
      · rintro ⟨_, hbytes, h⟩
        exact Except.ok.inj hbytes ▸ h

theorem readArguments_eq_ok_iff {texts : List String} {readings : List Reading} {index : Nat} :
    ((texts.zipIdx index).mapM fun t => readArgument t.2 t.1) = .ok readings ↔
      List.Forall₂ Tells texts readings := by
  rw [mapM_eq_ok_iff]
  simp only [readArgument_eq_ok_iff]
  rw [← List.forall₂_map_left_iff, List.zipIdx_map_fst]

/-- Whether a command line can be understood: it consists of paths and records, the file at the last
path gives settings, and every record is read. -/
structure Host.Understands (host : Host) (args paths records : List String)
    (readings : List Reading) : Prop where
  arguments : Invocation.Takes args paths records
  settings : ∀ path ∈ paths.getLast?, ∃ settings, host.Configures path settings
  records : List.Forall₂ Tells records readings

theorem Host.exists_understands_iff {host : Host} {args : List String} {readings : List Reading} :
    (∃ paths records, host.Understands args paths records readings) ↔
      ∃ inv settings, Invocation.ofArgs args = .ok inv ∧ host.settingsFor inv = .ok settings ∧
        (inv.records.zipIdx.mapM fun t => readArgument t.2 t.1) = .ok readings := by
  constructor
  · rintro ⟨paths, records, harguments, hsettings, hrecords⟩
    obtain ⟨settings, hsettings⟩ :=
      (@exists_settingsFor_iff host ⟨paths.getLast?, records⟩).mpr hsettings
    exact ⟨⟨paths.getLast?, records⟩, settings,
      Invocation.ofArgs_eq_ok_iff.mpr ⟨paths, harguments, rfl⟩, hsettings,
      readArguments_eq_ok_iff.mpr hrecords⟩
  · rintro ⟨inv, settings, harguments, hsettings, hrecords⟩
    obtain ⟨paths, htakes, hpath⟩ := Invocation.ofArgs_eq_ok_iff.mp harguments
    exact ⟨paths, inv.records, htakes,
      hpath ▸ exists_settingsFor_iff.mp ⟨settings, hsettings⟩,
      readArguments_eq_ok_iff.mp hrecords⟩

/-! ### Runs -/

/-- All records go into one session, and the report is of what it then knows. -/
theorem Host.result_run (host : Host) (args : List String) :
    (host.run args).result = (do
      let inv ← Invocation.ofArgs args
      let settings ← host.settingsFor inv
      let readings ← inv.records.zipIdx.mapM fun t => readArgument t.2 t.1
      return report (readings.foldl Progress.add { session := .start settings })) := by
  simp only [run, Journaled.result_bind, Journaled.result_liftM, Journaled.result_pure,
    result_takeRecords]
  refine congrArg _ (funext fun inv => congrArg _ (funext fun settings => ?_))
  cases inv.records.zipIdx.mapM fun t => readArgument t.2 t.1 <;> rfl

theorem Host.result_of_understands {host : Host} {args paths records : List String}
    {readings : List Reading} (h : host.Understands args paths records readings) :
    ∃ p : Progress, p.Holds readings ∧ (host.run args).result = .ok (report p) := by
  obtain ⟨inv, settings, harguments, hsettings, hrecords⟩ :=
    exists_understands_iff.mp ⟨paths, records, h⟩
  refine ⟨_, (Progress.holds_start settings).foldl readings, ?_⟩
  rw [result_run, harguments]
  show (host.settingsFor inv >>= _) = _
  rw [hsettings]
  show (inv.records.zipIdx.mapM (fun t => readArgument t.2 t.1) >>= _) = _
  rw [hrecords]
  rfl

theorem Host.result_of_not_understands {host : Host} {args : List String}
    (h : ¬ ∃ paths records readings, host.Understands args paths records readings) :
    ∃ fault, (host.run args).result = .error fault := by
  rw [result_run]
  cases harguments : Invocation.ofArgs args with
  | error fault => exact ⟨fault, rfl⟩
  | ok inv =>
      show ∃ fault, (host.settingsFor inv >>= _) = _
      cases hsettings : host.settingsFor inv with
      | error fault => exact ⟨fault, rfl⟩
      | ok settings =>
          show ∃ fault, (inv.records.zipIdx.mapM (fun t => readArgument t.2 t.1) >>= _) = _
          cases hrecords : inv.records.zipIdx.mapM fun t => readArgument t.2 t.1 with
          | error fault => exact ⟨fault, rfl⟩
          | ok readings =>
              obtain ⟨paths, records, hunderstood⟩ :=
                exists_understands_iff.mpr ⟨inv, settings, harguments, hsettings, hrecords⟩
              exact absurd ⟨paths, records, readings, hunderstood⟩ h

/-- Whether only errors of the journal reach standard output. -/
def Host.ErrorsOnly (host : Host) : Prop :=
  ∀ lines, (∀ l ∈ lines, l.level ≠ .error) → host.journal lines = ""

/-- Whether nothing of the journal reaches standard output. -/
def Host.Silent (host : Host) : Prop := ∀ lines, host.journal lines = ""

/-- Surroundings in which every file names the version and nothing else. -/
def usualHost (journal : List JournalLine → String) : Host :=
  { quietHost fun _ => .ok (Utf8.encode "version: 1\n") with journal := journal }

/-- A journal of the messages of errors. -/
def errorMessages (lines : List JournalLine) : String :=
  String.join ((lines.filter fun l => l.level = .error).map fun l => l.message ++ "\n")

end Inspect
end Whereabouts
