import MediaSweep.CommandLine.Run
import MediaSweep.Proofs.Settings.Numbers
import MediaSweep.Proofs.Task.Sweep

/-!
# Settings that are shown

The settings in force are shown as a document, and if they come from a file, this document sets the
same settings again when it is kept in its place (`settings_roundTrip`).  Nothing is lost on the
way: every number that was read can be written.
-/

namespace MediaSweep

set_option autoImplicit false

open Disk (Run)

variable {d : Disk} {path : Path} {text : String} {s : Settings}

/-- A file with a document of settings gives these settings. -/
theorem Settings.run_loadFrom (held : d.readBytes path = .ok text.toUTF8)
    (read : ofText text = .ok s) :
    (loadFrom path : Run (Except Failure Settings)) d = (.ok s, d) := by
  have present : (FileSystem.isPresent path : Run Bool) d = (true, d) := by
    obtain ⟨node, resolved, -⟩ := exists_of_bind_eq_ok held
    have found : d.kind? path = some node.kind := by
      rw [Disk.kind?, resolved]
      rfl
    exact congrArg (fun kind => (Option.isSome kind, d)) found
  have reading : (d.readBytes path).bind FileSystem.decode = .ok text := by
    rw [held]
    exact decode_toUTF8 text
  rw [loadFrom, run_bind present, if_pos rfl, run_bind (run_readText path d), reading]
  dsimp only
  rw [read]
  rfl

/-- The file that a run takes its settings from: the given one, or else the default one. -/
def Invocation.settingsSource? (i : Invocation) (context : Context) : Option Path :=
  i.settingsFile.or context.surroundings.settingsFile.toOption

theorem Invocation.run_load {i : Invocation} {context : Context}
    (source : i.settingsSource? context = some path) (held : d.readBytes path = .ok text.toUTF8)
    (read : Settings.ofText text = .ok s) :
    (Settings.load context.surroundings i.settingsFile : Run (Except Failure Settings)) d =
      (.ok s, d) := by
  have loading := Settings.run_loadFrom held read
  rw [settingsSource?] at source
  cases given : i.settingsFile with
  | some file =>
    rw [given, Option.some_or] at source
    cases source
    exact loading
  | none =>
    rw [given, Option.none_or] at source
    rw [Settings.load.eq_def]
    cases usual : context.surroundings.settingsFile with
    | error failure =>
      rw [usual] at source
      cases source
    | ok file =>
      rw [usual] at source
      cases source
      exact loading

theorem Invocation.run_showSettings {i : Invocation} {context : Context} {shown : String}
    (shows : i.command = .showSettings) (source : i.settingsSource? context = some path)
    (held : d.readBytes path = .ok text.toUTF8) (read : Settings.ofText text = .ok s)
    (written : s.toText = .ok shown) :
    (i.run context : Run Report) d = (.done [.verbatim shown], d) := by
  rw [run, shows]
  dsimp only
  rw [runShowSettings, run_bind (run_load source held read)]
  simp only [written]
  rfl

/-- **Settings that are written or shown are read back.**  Settings can be written exactly when
their numbers fit into 64 bits with a sign, and a document that was written gives the same settings
again.  If the document in a file gives some settings, a run that shows the settings of this file
shows a document that gives the same ones. -/
theorem settings_roundTrip :
    (∀ s : Settings, (∃ text, s.toText = .ok text) ↔
      s.blanket.maxBlankLines ≤ Nat.pow 2 63 - 1 ∧
        ∀ n ∈ s.targeted.lines, n ≤ Nat.pow 2 63 - 1) ∧
    (∀ (s : Settings) (text : String), s.toText = .ok text → Settings.ofText text = .ok s) ∧
    ∀ (s : Settings) (text : String), Settings.ofText text = .ok s →
      ∃ shown, Settings.ofText shown = .ok s ∧
        ∀ (context : Context) (words : List String) (i : Invocation) (path : Path) (d : Disk),
          Invocation.ofWords words = .ok i → i.command = .showSettings →
          i.settingsSource? context = some path → d.readBytes path = .ok text.toUTF8 →
          (runCleaner context words : Run Outcome) d = (⟨0, shown, ""⟩, d) := by
  refine ⟨fun s => ?_, fun s text => Settings.ofText_of_toText, fun s text read => ?_⟩
  · rw [Settings.exists_toText_iff]
    exact ⟨fun writable => ⟨writable.maxBlankLines, writable.lines⟩, fun fits => ⟨fits.1, fits.2⟩⟩
  · obtain ⟨shown, written⟩ := Settings.exists_toText_iff.2 (Settings.isWritable_of_ofText read)
    refine ⟨shown, Settings.ofText_of_toText written, ?_⟩
    intro context words i path d asked shows source held
    have output (palette : Palette) : Notice.renderAll palette [.verbatim shown] = shown := by
      simp [Notice.renderAll, Notice.render, String.join]
    rw [runCleaner, asked]
    dsimp only
    rw [run_bind (i.run_showSettings shows source held read written)]
    change (i.outcome context (.done [.verbatim shown]), d) = _
    simp only [Invocation.outcome, Report.done, output]

/-- Settings with quotes, backslashes, line ends and other control characters, and the greatest
number that can be written. -/
def oddSettings : Settings where
  blanket :=
    { root := ⟨"a\"\"\"\"b\\\n'''c"⟩
      subdirs := ["", "\x00\t\x7f", "é\r\n"]
      extension := "'\\"
      backup := false
      maxBlankLines := greatestWritten }
  targeted := { file := some ⟨"\n"⟩, lines := [0, 10] }

/-- A disk with one file. -/
def diskWith (name text : String) : Disk :=
  ⟨[(name, .file {} text.toUTF8)], []⟩

theorem settings_roundTrip_oddSettings :
    ∃ text, oddSettings.toText = .ok text ∧ Settings.ofText text = .ok oddSettings ∧
      ∃ shown, Settings.ofText shown = .ok oddSettings ∧
        (runCleaner { stamp := ⟨2024, 1, 1, 0, 0, 0⟩, build := "" }
          ["config", "show", "--config", "/s"] : Run Outcome) (diskWith "s" text) =
            (⟨0, shown, ""⟩, diskWith "s" text) := by
  obtain ⟨writes, reads, shows⟩ := settings_roundTrip
  obtain ⟨text, written⟩ := (writes oddSettings).2 (by decide)
  have read := reads oddSettings text written
  obtain ⟨shown, again, run⟩ := shows oddSettings text read
  have found : (diskWith "s" text).find ⟨"/s"⟩ = .ok ["s"] :=
    Disk.find_eq_ok_iff.2 ⟨⟨by simp, by decide, by decide⟩, rfl, rfl⟩
  exact ⟨text, written, read, shown, again,
    run _ _ ⟨some ⟨"/s"⟩, false, .showSettings⟩ ⟨"/s"⟩ _ rfl rfl rfl
      (Disk.readBytes_of_find found rfl rfl)⟩

end MediaSweep
