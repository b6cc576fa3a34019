import RepoAtlas.Config.Load
import RepoAtlas.Proofs.Cache.Trouble
import RepoAtlas.Proofs.Text.Ends

/-!
What reading the settings can fail with: a file that is not made up of settings is
reported as such, but a file that is no text and numbers that are too large for what
they are to become break the reading off.
-/
namespace RepoAtlas

/-- Whether something fails with anything but a report on the settings. -/
def Surprises {α : Type} (x : Except Failure α) : Prop :=
  ∃ failure, x = .error failure ∧ ∀ message, failure ≠ .badConfig message

section Failing

variable {ε α β : Type}

/-- Two steps fail where one of them does, if the second one does so whatever the first gives. -/
theorem bind_fails_iff {x : Except ε α} {f : α → Except ε β} {P : Prop}
    (hf : ∀ a, (∃ failure, f a = .error failure) ↔ P) :
    (∃ failure, (x >>= f) = .error failure) ↔ (∃ failure, x = .error failure) ∨ P := by
  cases x with
  | error failure => simp [bind, Except.bind]
  | ok a => simpa [bind, Except.bind] using hf a

theorem map_fails_iff {x : Except ε α} {f : α → β} :
    (∃ failure, x.map f = .error failure) ↔ ∃ failure, x = .error failure := by
  cases x with
  | error failure => simp [Except.map]
  | ok a => simp [Except.map]

theorem not_pure_fails {a : α} : ¬ ∃ failure, (pure a : Except ε α) = .error failure := by
  rintro ⟨failure, h⟩
  cases h

theorem surprises_mapError_iff {x : Except Unexpected α} :
    Surprises (x.mapError .unexpected) ↔ ∃ failure, x = .error failure := by
  rw [Surprises]
  cases x with
  | error failure => simp [Except.mapError]
  | ok a => simp [Except.mapError]

theorem not_surprises_ok {a : α} : ¬ Surprises (.ok a) := by
  rintro ⟨failure, h, -⟩
  cases h

theorem not_surprises_pure {a : α} : ¬ Surprises (pure a) :=
  not_surprises_ok

theorem not_surprises_badConfig {message : String} :
    ¬ Surprises (.error (.badConfig message) : Except Failure α) := by
  rintro ⟨failure, h, hother⟩
  cases h
  exact hother message rfl

theorem surprises_bind_iff {x : Except Failure α} {f : α → Except Failure β} :
    Surprises (x >>= f) ↔ Surprises x ∨ ∃ a, x = .ok a ∧ Surprises (f a) := by
  cases x with
  | error failure => simp [Surprises, bind, Except.bind]
  | ok a => simp [not_surprises_ok, bind, Except.bind]

/-- A step that may break off surprises if it does, or if the next one does after it. -/
theorem surprises_mapError_bind_iff {x : Except Unexpected α} {f : α → Except Failure β} {P : Prop}
    (hf : ∀ a, x = .ok a → (Surprises (f a) ↔ P)) :
    Surprises (x.mapError .unexpected >>= f) ↔ (∃ failure, x = .error failure) ∨ P := by
  cases x with
  | error failure =>
      rw [surprises_bind_iff, surprises_mapError_iff]
      exact iff_of_true (.inl ⟨failure, rfl⟩) (.inl ⟨failure, rfl⟩)
  | ok a =>
      rw [← hf a rfl]
      simp [bind, Except.bind, Except.mapError]

theorem not_surprises_iff {x : Except Failure α} :
    ¬ Surprises x ↔ (∃ a, x = .ok a) ∨ ∃ message, x = .error (.badConfig message) := by
  cases x with
  | ok a => simp [not_surprises_ok]
  | error failure =>
      constructor
      · intro h
        by_contra hbad
        rw [not_or, not_exists, not_exists] at hbad
        exact h ⟨failure, rfl, fun message heq => hbad.2 message (congrArg _ heq)⟩
      · rintro (⟨a, h⟩ | ⟨message, h⟩)
        · cases h
        · cases h
          exact not_surprises_badConfig

end Failing

namespace Yaml.Value

/-- Whether a value is a whole number with more digits than are written out. -/
def TooLong (v : Value) : Prop :=
  ∃ i : Int, v = .scalar (.int i) ∧ Nat.pow 10 NumberText.maxDigits ≤ i.natAbs

/-- Whether a value is a whole number that no floating-point number is near to. -/
def TooLarge (v : Value) : Prop :=
  ∃ i, v = .scalar (.int i) ∧ (Quantity.whole i).TooLarge

/-- Whether a value has an entry of this name and some kind. -/
def HoldsAt (v : Value) (name : String) (p : Value → Prop) : Prop :=
  ∃ entry, v.get? name = some entry ∧ p entry

variable {v : Value}

theorem writeWhole_fails_iff {i : Int} :
    (∃ failure, NumberText.writeWhole i = .error failure) ↔
      Nat.pow 10 NumberText.maxDigits ≤ i.natAbs := by
  rw [NumberText.writeWhole]
  split
  · next hlong => exact iff_of_true ⟨_, rfl⟩ hlong
  · next hshort =>
      refine iff_of_false ?_ hshort
      rintro ⟨failure, h⟩
      cases h

theorem asText?_fails_iff (v : Value) : (∃ failure, v.asText? = .error failure) ↔ v.TooLong := by
  rw [TooLong]
  cases v with
  | scalar s =>
      cases s with
      | int i =>
          rw [asText?, map_fails_iff, writeWhole_fails_iff]
          simp only [scalar.injEq, Scalar.int.injEq, exists_eq_left']
      | _ => simp [asText?]
  | _ => simp [asText?]

theorem asReal?_fails_iff (v : Value) : (∃ failure, v.asReal? = .error failure) ↔ v.TooLarge := by
  rw [TooLarge]
  cases v with
  | scalar s =>
      cases s with
      | int i =>
          rw [asReal?, map_fails_iff, Quantity.toReal_fails_iff]
          simp only [scalar.injEq, Scalar.int.injEq, exists_eq_left']
      | _ => simp [asReal?]
  | _ => simp [asReal?]

theorem itemText?_fails_iff (v : Value) :
    (∃ failure, v.itemText? = .error failure) ↔ v.TooLong := by
  by_cases hbool : ∃ b, v = .scalar (.bool b)
  · obtain ⟨b, rfl⟩ := hbool
    simp [itemText?, TooLong]
  · have hitem : v.itemText? = v.asText? := by
      rw [itemText?]
      intro b hv
      exact hbool ⟨b, hv⟩
    rw [hitem, asText?_fails_iff]

theorem asTexts_fails_iff (v : Value) :
    (∃ failure, v.asTexts = .error failure) ↔
      ∃ items, v = .list items ∧ ∃ item ∈ items, item.TooLong := by
  cases v with
  | list items =>
      rw [asTexts, map_fails_iff, RepoCache.mapM_fails_iff]
      simp only [itemText?_fails_iff, list.injEq, exists_eq_left']
  | scalar s =>
      cases s with
      | _ => simp [asTexts]
  | _ => simp [asTexts]

end Yaml.Value

open Yaml (Value)

section Entries

variable {α : Type} {v : Value} {name : String}

theorem readEntry_fails_iff {read : Value → Except Unexpected (Option α)} {p : Value → Prop}
    (hread : ∀ entry, (∃ failure, read entry = .error failure) ↔ p entry) :
    (∃ failure, readEntry v name read = .error failure) ↔ v.HoldsAt name p := by
  rw [readEntry, Value.HoldsAt]
  cases v.get? name with
  | none => simp
  | some entry => simpa using hread entry

theorem readFilled_fails_iff :
    (∃ failure, readFilled v name = .error failure) ↔ v.HoldsAt name Value.TooLong := by
  rw [readFilled, map_fails_iff]
  exact readEntry_fails_iff Value.asText?_fails_iff

theorem readReal_fails_iff :
    (∃ failure, readEntry v name Value.asReal? = .error failure) ↔
      v.HoldsAt name Value.TooLarge :=
  readEntry_fails_iff Value.asReal?_fails_iff

end Entries

namespace CacheSettings

/-- Whether a number in the section about the cache is too large for what it is to become. -/
def Oversized (v : Value) : Prop :=
  v.HoldsAt "directory" Value.TooLong ∨ v.HoldsAt "ttl_hours" Value.TooLarge ∨
    v.HoldsAt "max_size_mb" Value.TooLarge

theorem ofYaml_fails_iff (v : Value) : (∃ failure, ofYaml v = .error failure) ↔ Oversized v := by
  have henabled (f : Option Bool → CacheSettings) :
      (∃ failure, (readEntry v "enabled" (.ok ·.asBool?) >>= fun enabled => pure (f enabled)) =
        Except.error failure) ↔ False := by
    have hread : (∃ failure, readEntry v "enabled" (.ok ·.asBool?) = .error failure) ↔
        v.HoldsAt "enabled" fun _ => False :=
      readEntry_fails_iff fun entry => by simp
    rw [bind_fails_iff fun _ => iff_false_intro not_pure_fails, hread, or_false]
    simp [Value.HoldsAt]
  rw [Oversized, ← readFilled_fails_iff, ← readReal_fails_iff, ← readReal_fails_iff, ofYaml]
  refine bind_fails_iff fun directory => bind_fails_iff fun ttl => ?_
  rw [bind_fails_iff fun maxSize => henabled _, or_false]

end CacheSettings

namespace HostSettings

/-- Whether a number in the section about the host is too large for what it is to become. -/
def Oversized (v : Value) : Prop :=
  v.HoldsAt "token" Value.TooLong ∨ v.HoldsAt "api_base" Value.TooLong ∨
    v.HoldsAt "raw_base" Value.TooLong ∨ v.HoldsAt "timeout" Value.TooLarge ∨
      v.HoldsAt "user_agent" Value.TooLong

theorem ofYaml_fails_iff (v : Value) : (∃ failure, ofYaml v = .error failure) ↔ Oversized v := by
  have htoken : (∃ failure, readEntry v "token" Value.asText? = .error failure) ↔
      v.HoldsAt "token" Value.TooLong :=
    readEntry_fails_iff Value.asText?_fails_iff
  rw [Oversized, ← htoken, ← readFilled_fails_iff, ← readFilled_fails_iff, ← readReal_fails_iff,
    ← readFilled_fails_iff, ofYaml]
  refine bind_fails_iff fun token => bind_fails_iff fun api => bind_fails_iff fun raw =>
    bind_fails_iff fun timeout => ?_
  rw [bind_fails_iff fun agent => iff_false_intro not_pure_fails, or_false]

end HostSettings

namespace AnalysisSettings

/-- The mode that a section names, or else the one that holds without it. -/
def modeOr (mode : Option String) : String :=
  mode.getD ({} : AnalysisSettings).mode

/--
Whether a number in the section about the analysis is too large for what it is to
become. What comes behind the mode is read if the mode is a known one.
-/
def Oversized (v : Value) : Prop :=
  v.HoldsAt "mode" Value.TooLong ∨
    ∃ mode, readFilled v "mode" = .ok mode ∧ modes.contains (modeOr mode) = true ∧
      (v.HoldsAt "pace_delay" Value.TooLarge ∨
        v.HoldsAt "exclude_paths" fun entry =>
          ∃ items, entry = .list items ∧ ∃ item ∈ items, item.TooLong)

/-- What is read behind a mode that is known. -/
def behindMode (v : Value) (mode : String) : Except Failure AnalysisSettings := do
  let base : AnalysisSettings := {}
  let delay ← (readEntry v "pace_delay" Value.asReal?).mapError .unexpected
  let excludes ← (match v.get? "exclude_paths" with
    | some entry => entry.asTexts
    | none => .ok []).mapError .unexpected
  return {
    mode
    paceEvery := ((v.get? "pace_every").bind Value.asWhole?).getD base.paceEvery
    paceDelay := (delay.map .real).getD base.paceDelay
    maxFiles := (v.get? "max_files").bind Value.asWhole?
    excludePaths := excludes }

theorem ofYaml_eq (v : Value) :
    ofYaml v = (readFilled v "mode").mapError .unexpected >>= fun mode =>
      if modes.contains (modeOr mode) then behindMode v (modeOr mode)
      else .error (unknownMode (modeOr mode)) := by
  rw [ofYaml]
  refine bind_congr fun mode => ?_
  by_cases hmode : modes.contains (modeOr mode) = true
  · rw [if_pos hmode]
    exact if_neg (by rw [← modeOr, hmode]; decide)
  · rw [if_neg hmode]
    exact if_pos (by simpa [modeOr] using hmode)

theorem surprises_behindMode_iff (v : Value) (mode : String) :
    Surprises (behindMode v mode) ↔
      v.HoldsAt "pace_delay" Value.TooLarge ∨
        v.HoldsAt "exclude_paths" fun entry =>
          ∃ items, entry = .list items ∧ ∃ item ∈ items, item.TooLong := by
  rw [← readReal_fails_iff, behindMode]
  refine surprises_mapError_bind_iff fun delay _ => ?_
  rw [surprises_mapError_bind_iff fun excludes _ => iff_false_intro not_surprises_pure, or_false,
    Value.HoldsAt]
  cases v.get? "exclude_paths" with
  | none => simp
  | some entry => simpa using Value.asTexts_fails_iff entry

theorem surprises_ofYaml_iff (v : Value) : Surprises (ofYaml v) ↔ Oversized v := by
  rw [Oversized, ← readFilled_fails_iff, ofYaml_eq]
  refine surprises_mapError_bind_iff fun mode hmode => ?_
  rw [hmode]
  by_cases hknown : modes.contains (modeOr mode) = true
  · rw [if_pos hknown, surprises_behindMode_iff]
    constructor
    · intro hbehind
      exact ⟨mode, rfl, hknown, hbehind⟩
    · rintro ⟨_, -, -, hbehind⟩
      exact hbehind
  · rw [if_neg hknown]
    refine iff_of_false not_surprises_badConfig ?_
    rintro ⟨other, hsame, hother, -⟩
    cases hsame
    exact hknown hother

end AnalysisSettings

namespace Settings

variable {data : Value}

/-- Whether a section of a mapping has a number that is too large for what it is to become. -/
def Oversized (data : Value) : Prop :=
  (∃ inner, data.section? "cache" = some inner ∧ CacheSettings.Oversized inner) ∨
    (∃ inner, data.section? "github" = some inner ∧ HostSettings.Oversized inner) ∨
      ∃ inner, data.section? "analysis" = some inner ∧ AnalysisSettings.Oversized inner

/-- A section that is only read, or what holds without it. -/
def readSection {α : Type} (data : Value) (name : String) (base : α)
    (read : Value → Except Unexpected α) : Except Unexpected α :=
  match data.section? name with
  | some inner => read inner
  | none => .ok base

theorem sectionOf_mapError {α : Type} (data : Value) (name : String) (base : α)
    (read : Value → Except Unexpected α) :
    (sectionOf data name base fun v => (read v).mapError .unexpected) =
      (readSection data name base read).mapError .unexpected := by
  rw [sectionOf, readSection]
  cases data.section? name with
  | none => rfl
  | some inner => rfl

theorem readSection_fails_iff {α : Type} (data : Value) (name : String) (base : α)
    {read : Value → Except Unexpected α} {p : Value → Prop}
    (hread : ∀ inner, (∃ failure, read inner = .error failure) ↔ p inner) :
    (∃ failure, readSection data name base read = .error failure) ↔
      ∃ inner, data.section? name = some inner ∧ p inner := by
  rw [readSection]
  cases data.section? name with
  | none => simp
  | some inner => simpa using hread inner

theorem surprises_ofYaml_iff (root : PurePath) : Surprises (ofYaml root data) ↔ Oversized data := by
  have hcache := readSection_fails_iff data "cache" {} CacheSettings.ofYaml_fails_iff
  have hhost := readSection_fails_iff data "github" {} HostSettings.ofYaml_fails_iff
  rw [Oversized, ← hcache, ← hhost, ofYaml, sectionOf_mapError, sectionOf_mapError]
  refine surprises_mapError_bind_iff fun cache _ => surprises_mapError_bind_iff fun host _ => ?_
  rw [surprises_bind_iff, sectionOf]
  cases data.section? "analysis" with
  | none => simp [not_surprises_ok, not_surprises_pure]
  | some inner => simp [not_surprises_pure, AnalysisSettings.surprises_ofYaml_iff]

theorem not_surprises_mappingOf {parse : YamlReader}
    (hparse : ∀ text cause, parse text ≠ .error (.unexpected cause)) (name text : String) :
    ¬ Surprises (mappingOf parse name text) := by
  rw [mappingOf]
  split
  · exact not_surprises_ok
  · split
    · exact not_surprises_badConfig
    · next cause hunexpected => exact absurd hunexpected (hparse _ cause)
    · exact not_surprises_ok
    · exact not_surprises_ok
    · exact not_surprises_badConfig

theorem hasPath_of_read {disk : DiskNode} {names : List String} {bytes : List UInt8}
    (h : disk.read names = .ok bytes) : disk.hasPath names = .ok true := by
  rw [DiskNode.read] at h
  rw [DiskNode.hasPath]
  split at h
  · next hstat => rw [hstat]
  · cases h
  · cases h

/-- The settings where there is a file: its text, the mapping in it, and the settings in that. -/
theorem load_of_read {parse : YamlReader} {s : Session} {path : Option PurePath}
    {names : List String} {bytes : List UInt8}
    (hfile : fileOf s (path.getD ⟨"/", s.current⟩) = .ok names)
    (hread : s.disk.read names = .ok bytes) :
    load parse s path =
      match Utf8.decode bytes with
      | .error fault => .error (.unexpected ⟨"UnicodeDecodeError", fault.message⟩)
      | .ok chars =>
        mappingOf parse (names.getLast?.getD "") (String.ofList (Text.universalNewlines chars)) >>=
          fun data => ofYaml ⟨"/", names.dropLast⟩ data >>= fun settings =>
            pure (inSession s settings) := by
  rw [load, hfile]
  simp only [Except.mapError, bind, Except.bind, hasPath_of_read hread, if_true, readFile, hread]
  cases Utf8.decode bytes with
  | error fault => rfl
  | ok chars => rfl

theorem surprises_load_iff {parse : YamlReader}
    (hparse : ∀ text cause, parse text ≠ .error (.unexpected cause)) {s : Session}
    {path : Option PurePath} {names : List String} {bytes : List UInt8}
    (hfile : fileOf s (path.getD ⟨"/", s.current⟩) = .ok names)
    (hread : s.disk.read names = .ok bytes) :
    Surprises (load parse s path) ↔
      ∀ chars, Utf8.decode bytes = .ok chars →
        ∃ data, mappingOf parse (names.getLast?.getD "")
          (String.ofList (Text.universalNewlines chars)) = .ok data ∧ Oversized data := by
  rw [load_of_read hfile hread]
  cases Utf8.decode bytes with
  | error fault => exact iff_of_true ⟨_, rfl, by simp⟩ (by simp)
  | ok chars =>
      have hdata (data : Value) :
          Surprises (ofYaml ⟨"/", names.dropLast⟩ data >>= fun settings =>
            pure (inSession s settings)) ↔ Oversized data := by
        rw [surprises_bind_iff, surprises_ofYaml_iff]
        simp [not_surprises_pure]
      simp only [surprises_bind_iff, not_surprises_mappingOf hparse, hdata, false_or]
      simp

end Settings

/--
Where there is a settings file, reading it gives settings or reports what is wrong with
them just if the file is text and no number in it is too large for what it is to
become. The library that reads the text is to report whatever it cannot read.
-/
theorem Settings.load_reports_iff {parse : YamlReader}
    (hparse : ∀ text cause, parse text ≠ .error (.unexpected cause)) {s : Session}
    {path : Option PurePath} {names : List String} {bytes : List UInt8}
    (hfile : fileOf s (path.getD ⟨"/", s.current⟩) = .ok names)
    (hread : s.disk.read names = .ok bytes) :
    ((∃ settings, load parse s path = .ok settings) ∨
        ∃ message, load parse s path = .error (.badConfig message)) ↔
      ∃ chars, Utf8.decode bytes = .ok chars ∧
        ∀ data, mappingOf parse (names.getLast?.getD "")
            (String.ofList (Text.universalNewlines chars)) = .ok data → ¬ Oversized data := by
  rw [← not_surprises_iff, surprises_load_iff hparse hfile hread]
  simp only [not_forall, not_exists, not_and, exists_prop]

namespace SampleSettings

/-- A reader that reports what the library would break off at. -/
def reader : YamlReader := fun text =>
  match Value.ofText text with
  | .error (.unexpected _) => .error .malformed
  | other => other

theorem reader_reports (text : List Char) (cause : Unexpected) :
    reader text ≠ .error (.unexpected cause) := by
  rw [reader]
  split
  · rintro ⟨⟩
  · next hother => exact hother cause

/-- A program that runs in a folder with a settings file. -/
def session (bytes : List UInt8) : Session where
  disk := .folder [(settingsName, .file bytes .zero)]
  current := []
  home := ["home"]

theorem fileOf_session (bytes : List UInt8) :
    Settings.fileOf (session bytes) ((none : Option PurePath).getD ⟨"/", (session bytes).current⟩) =
      .ok [settingsName] := by
  have hplain : '\x00' ∉ settingsName.toList ∧ settingsName ≠ ".." := by
    decide
  simp [Settings.fileOf, session, Session.expanded, Session.absolute, PurePath.isAbsolute,
    DiskNode.stat, DiskNode.locate, DiskNode.follow, DiskNode.at?, DiskNode.resolve,
    DiskNode.replaceLinks, DiskNode.child?, DiskNode.entries, Table.get?, DiskNode.normalNames,
    bind, Except.bind, hplain]

theorem read_session (bytes : List UInt8) :
    (session bytes).disk.read [settingsName] = .ok bytes := by
  have hplain : nameFault? settingsName = none ∧ (settingsName == "..") = false := by
    decide
  simp [session, DiskNode.read, DiskNode.stat, DiskNode.locate, DiskNode.follow, DiskNode.at?,
    DiskNode.child?, DiskNode.entries, Table.get?, hplain]

/-- A file that says for how many hours results are kept. -/
def hoursText (digits : String) : String :=
  "cache:\n  ttl_hours: " ++ digits ++ "\n"

theorem mem_hoursText (digits : String) : 'c' ∈ (hoursText digits).toList := by
  have hfirst : 'c' ∈ "cache:\n  ttl_hours: ".toList := by decide +kernel
  change 'c' ∈ ("cache:\n  ttl_hours: " ++ digits ++ "\n").toList
  rw [String.toList_append, String.toList_append]
  exact List.mem_append_left _ (List.mem_append_left _ hfirst)

def ofHours (hours : Int) : Value :=
  .mapping [(.scalar (.text "cache"),
    .mapping [(.scalar (.text "ttl_hours"), .scalar (.int hours))])]

/-- The hours in what was read, if it has the shape of such a file. -/
def hours? : Except Failure Value → Option Int
  | .ok (.mapping [(.scalar (.text "cache"),
      .mapping [(.scalar (.text "ttl_hours"), .scalar (.int hours))])]) => some hours
  | _ => none

theorem eq_of_hours? {x : Except Failure Value} {hours : Int} (h : hours? x = some hours) :
    x = .ok (ofHours hours) := by
  unfold hours? at h
  split at h
  · cases h
    rfl
  · cases h

theorem oversized_ofHours_iff (hours : Int) :
    Settings.Oversized (ofHours hours) ↔ (Quantity.whole hours).TooLarge := by
  have hgithub : (ofHours hours).section? "github" = none := rfl
  have hanalysis : (ofHours hours).section? "analysis" = none := rfl
  have hcache : (ofHours hours).section? "cache" =
      some (.mapping [(.scalar (.text "ttl_hours"), .scalar (.int hours))]) := rfl
  rw [Settings.Oversized, hgithub, hanalysis, hcache]
  simp [CacheSettings.Oversized, Value.HoldsAt, Value.get?, Value.TooLarge]

/-- A file that says for how many hours results are kept, and not for too many. -/
theorem load_reports_iff_hours :
    (∀ text cause, reader text ≠ .error (.unexpected cause)) ∧
      Settings.fileOf (session (Utf8.encode (hoursText "12")))
        ((none : Option PurePath).getD
          ⟨"/", (session (Utf8.encode (hoursText "12"))).current⟩) = .ok [settingsName] ∧
      (session (Utf8.encode (hoursText "12"))).disk.read [settingsName] =
        .ok (Utf8.encode (hoursText "12")) ∧
      ((∃ settings, Settings.load reader (session (Utf8.encode (hoursText "12"))) none =
          .ok settings) ∨
        ∃ message, Settings.load reader (session (Utf8.encode (hoursText "12"))) none =
          .error (.badConfig message)) := by
  refine ⟨reader_reports, fileOf_session _, read_session _, ?_⟩
  rw [Settings.load_reports_iff reader_reports (fileOf_session _) (read_session _)]
  refine ⟨(hoursText "12").toList, Utf8.decode_encode _, ?_⟩
  have hmapping : Settings.mappingOf reader settingsName
      (String.ofList (Text.universalNewlines (hoursText "12").toList)) = .ok (ofHours 12) :=
    eq_of_hours? (by decide +kernel)
  intro data hdata hoversized
  have hname : [settingsName].getLast?.getD "" = settingsName := rfl
  rw [hname, hmapping] at hdata
  cases hdata
  rw [oversized_ofHours_iff] at hoversized
  obtain ⟨i, hwhole, hnone⟩ := hoversized
  cases hwhole
  revert hnone
  decide +kernel

/-- So many hours that no floating-point number is near to them. -/
def endless : Int := 10 ^ 400

/-- The file that says so. -/
def endlessBytes : List UInt8 :=
  Utf8.encode (hoursText (String.ofList ('1' :: List.replicate 400 '0')))

/-- A reader that reads so many hours out of a file. -/
def endlessReader : YamlReader := fun _ => .ok (ofHours endless)

theorem oversized_endless : Settings.Oversized (ofHours endless) := by
  rw [oversized_ofHours_iff]
  exact ⟨endless, rfl, by decide +kernel⟩

/-- A file that is no text and a number that is too large break the reading off. -/
theorem not_always_reported :
    ¬((∃ settings, Settings.load reader (session [0xff]) none = .ok settings) ∨
        ∃ message, Settings.load reader (session [0xff]) none = .error (.badConfig message)) ∧
      ¬((∃ settings, Settings.load endlessReader (session endlessBytes) none = .ok settings) ∨
        ∃ message, Settings.load endlessReader (session endlessBytes) none =
          .error (.badConfig message)) := by
  have hreader (text : List Char) (cause : Unexpected) :
      endlessReader text ≠ .error (.unexpected cause) := by
    rintro ⟨⟩
  rw [← not_surprises_iff, ← not_surprises_iff, not_not, not_not,
    Settings.surprises_load_iff reader_reports (fileOf_session _) (read_session _),
    Settings.surprises_load_iff hreader (fileOf_session _) (read_session _)]
  constructor
  · intro chars hdecode
    have hfault : (Utf8.decode [0xff]).toOption = none := by decide
    rw [hdecode] at hfault
    cases hfault
  · intro chars hdecode
    rw [endlessBytes, Utf8.decode_encode, Except.ok.injEq] at hdecode
    have hfilled : Text.trim (String.ofList (Text.universalNewlines chars)) ≠ "" := by
      apply Text.trim_ne_empty (c := 'c')
      · rw [← hdecode, String.toList_ofList]
        exact Text.mem_universalNewlines (mem_hoursText _) (by decide)
      · decide
    refine ⟨ofHours endless, ?_, oversized_endless⟩
    rw [Settings.mappingOf, if_neg (by simpa using hfilled)]
    rfl

end SampleSettings

end RepoAtlas
