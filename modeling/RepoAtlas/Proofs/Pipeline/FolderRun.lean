import RepoAtlas.Proofs.Pipeline.Footprint
import RepoAtlas.Proofs.Repository.Reading

/-!
The analysis of a folder on disk ends well unless the path of one of the files
that it looks into cannot be resolved.
-/
namespace RepoAtlas

/-- Whether a failure is that of a file that could not be read. -/
def Failure.IsUnreadable (failure : Failure) : Prop :=
  ∃ shown reason, failure = .unreadableFile shown reason

namespace Moment

/-- Whether a moment is one in which a source is chosen. -/
def Chooses : Moment → Prop
  | action (.choose _) _ => True
  | _ => False

/-- Whether an answer is that of a source which lists some files, reads them in some
way, and otherwise does as it is told. -/
def AnswersAs (files : List FileRecord) (read : String → Except Failure String) :
    Moment → Prop
  | action .openSource answer => answer = .ok ()
  | action .closeSource answer => answer = .ok ()
  | action .list answer => answer = .ok files
  | action (.read path) answer => answer = read path
  | action (.pause _) answer => answer = .ok ()
  | _ => True

theorem IsVisit.not_chooses {moment : Moment} (h : moment.IsVisit) : ¬moment.Chooses := by
  cases moment with
  | event e => exact id
  | action action answer => cases action <;> first | exact id | exact fun _ => h

end Moment

namespace AnalysisPlan

open Script

section Outcome

variable {listed : List FileRecord} {read : String → Except Failure String}

/-- How reading some files can come out: at most they cannot be read, or one fails otherwise. -/
inductive Outcome (read : String → Except Failure String) (files : List FileRecord) {α : Type} :
    Except Failure α → Prop where
  | passes (a : α)
      (hread : ∀ file ∈ files, ∀ failure, read file.path = .error failure → failure.IsUnreadable) :
      Outcome read files (.ok a)
  | fails {file : FileRecord} (hfile : file ∈ files) {failure : Failure}
      (hread : read file.path = .error failure) (hfailure : ¬failure.IsUnreadable) :
      Outcome read files (.error failure)

theorem Outcome.map {α β : Type} {files : List FileRecord} {result : Except Failure α} (f : α → β)
    (h : Outcome read files result) : Outcome read files (result.map f) := by
  cases h with
  | passes a hread => exact .passes (f a) hread
  | fails hfile hread hfailure => exact .fails hfile hread hfailure

/-- A file in front that is read, or cannot be, changes nothing about how others come out. -/
theorem Outcome.cons {α : Type} {file : FileRecord} {files : List FileRecord}
    {result : Except Failure α} (h : Outcome read files result)
    (hfirst : ∀ failure, read file.path = .error failure → failure.IsUnreadable) :
    Outcome read (file :: files) result := by
  cases h with
  | passes a hread => exact .passes a (List.forall_mem_cons.mpr ⟨hfirst, hread⟩)
  | fails hfile hread hfailure => exact .fails (List.mem_cons_of_mem _ hfile) hread hfailure

theorem Visited.outcome {path : String} {moments : List Moment}
    {result : Except Failure (Option (Option Entity))} (h : Visited path moments result)
    (hanswers : ∀ moment ∈ moments, moment.AnswersAs listed read) :
    (∃ found, result = .ok found ∧ ∀ failure, read path = .error failure → failure.IsUnreadable) ∨
      ∃ failure, result = .error failure ∧ read path = .error failure ∧ ¬failure.IsUnreadable := by
  have hread : ∀ answer, Moment.action (.read path) answer ∈ moments → read path = answer :=
    fun answer hmem => (hanswers _ hmem).symm
  cases h with
  | unreadable shown reason record answer =>
      refine .inl ⟨none, rfl, fun failure hfailure => ?_⟩
      rw [hread _ List.mem_cons_self] at hfailure
      exact ⟨shown, reason, (Except.error.inj hfailure).symm⟩
  | fails failure hfailure =>
      refine .inr ⟨failure, rfl, hread _ List.mem_cons_self, ?_⟩
      rintro ⟨shown, reason, heq⟩
      exact hfailure shown reason heq
  | reads content hexamined =>
      have hfound : ∃ found, result = .ok found := by
        cases hexamined <;> exact ⟨_, rfl⟩
      obtain ⟨found, rfl⟩ := hfound
      refine .inl ⟨found, rfl, fun failure hfailure => ?_⟩
      rw [hread _ List.mem_cons_self] at hfailure
      cases hfailure

theorem Walked.outcome {s : AnalysisSettings} {total index : Nat} {files : List FileRecord}
    {moments : List Moment} {result : Except Failure Tally}
    (h : Walked s total index files moments result)
    (hanswers : ∀ moment ∈ moments, moment.AnswersAs listed read) :
    Outcome read files result := by
  induction h with
  | nil index => exact .passes _ (by simp)
  | pauseFails file rest failure hpauses => cases hanswers _ List.mem_cons_self
  | visitFails rest hvisited =>
      have hlater := (List.forall_mem_append.mp hanswers).2
      rcases hvisited.outcome (List.forall_mem_cons.mp hlater).2 with
        ⟨found, heq, -⟩ | ⟨failure, heq, hread, hfailure⟩
      · cases heq
      · cases heq
        exact .fails List.mem_cons_self hread hfailure
  | cons hvisited hrest ih =>
      have hlater := (List.forall_mem_append.mp hanswers).2
      obtain ⟨hvisit, hbehind⟩ :=
        List.forall_mem_append.mp (List.forall_mem_cons.mp hlater).2
      rcases hvisited.outcome hvisit with ⟨found, -, hfirst⟩ | ⟨failure, heq, -⟩
      · exact ((ih hbehind).map _).cons hfirst
      · cases heq

/-- The files that an analysis looks into, if some are listed. -/
def chosenFrom (s : AnalysisSettings) (allFiles : Bool) (listed : List FileRecord) :
    List FileRecord :=
  selectCandidates s.maxFiles allFiles (keptFiles listed)

theorem Surveyed.outcome {s : AnalysisSettings} {repository : Coordinates} {allFiles : Bool}
    {moments : List Moment} {result : Except Failure Survey}
    (h : Surveyed s repository allFiles moments result)
    (hanswers : ∀ moment ∈ moments, moment.AnswersAs listed read) :
    Outcome read (chosenFrom s allFiles listed) result ∧
      ∀ found, result = .ok found → found.total = (chosenFrom s allFiles listed).length := by
  cases h with
  | listFails failure => cases hanswers _ List.mem_cons_self
  | lists files hchosen hwalked =>
      obtain ⟨hlist, hafter⟩ := List.forall_mem_cons.mp hanswers
      obtain rfl : files = listed := Except.ok.inj hlist
      subst hchosen
      have hwalk := (List.forall_mem_cons.mp (List.forall_mem_cons.mp hafter).2).2
      refine ⟨(hwalked.outcome hwalk).map _, ?_⟩
      intro found hfound
      next tally =>
      cases tally with
      | error failure => cases hfound
      | ok tally =>
          obtain rfl := Except.ok.inj hfound
          rfl

theorem Analyzed.outcome {s : AnalysisSettings} {repository : Coordinates} {allFiles : Bool}
    {moments : List Moment} {result : Except Failure Unit}
    (h : Analyzed s repository allFiles none moments result)
    (hanswers : ∀ moment ∈ moments, moment.AnswersAs listed read) :
    Outcome read (chosenFrom s allFiles listed) result ∧
      (result = .ok () → ∃ before entities, eventsOf moments = before ++
        [.complete entities (chosenFrom s allFiles listed).length entities.length false]) := by
  cases h with
  | openFails failure => cases hanswers _ List.mem_cons_self
  | surveyFails hsurveyed closing failure hfailure =>
      obtain ⟨hinner, hclosing⟩ :=
        List.forall_mem_append.mp (List.forall_mem_cons.mp hanswers).2
      obtain rfl : closing = .ok () := hclosing _ List.mem_cons_self
      next found =>
      obtain rfl : found = .error failure := hfailure
      have houtcome := (hsurveyed.outcome hinner).1.map fun _ => ()
      exact ⟨houtcome, fun heq => by cases heq⟩
  | @concludes inner found hsurveyed _ _ hconcluded =>
      have hinner := (List.forall_mem_append.mp (List.forall_mem_cons.mp hanswers).2).1
      obtain ⟨houtcome, htotal⟩ := hsurveyed.outcome hinner
      cases hconcluded with
      | storeFails location hplace hreports failure => cases hplace
      | completes hreports record answer =>
          refine ⟨houtcome.map fun _ => (), fun _ => ?_⟩
          rw [← htotal _ rfl]
          refine ⟨eventsOf inner, resolve found.tally.entities, ?_⟩
          rw [List.cons_append, eventsOf_action, eventsOf_append, eventsOf_action, eventsOf_append,
            eventsOf_append, hreports.eventsOf]
          rfl

end Outcome

/-- Once a source has been chosen, no other is. -/
theorem Analyzed.not_chooses {s : AnalysisSettings} {repository : Coordinates} {allFiles : Bool}
    {place : Option String} {moments : List Moment} {result : Except Failure Unit}
    (h : Analyzed s repository allFiles place moments result) :
    ∀ moment ∈ moments, ¬moment.Chooses := by
  cases h with
  | openFails failure => simp [Moment.Chooses]
  | surveyFails hsurveyed closing failure hfailure =>
      rw [List.forall_mem_append, List.forall_mem_cons, List.forall_mem_singleton]
      exact ⟨⟨id, fun moment hmem => (hsurveyed.isVisit moment hmem).not_chooses⟩, id⟩
  | concludes hsurveyed hconcluded =>
      rw [List.forall_mem_append, List.forall_mem_cons, List.forall_mem_cons]
      refine ⟨⟨id, fun moment hmem => (hsurveyed.isVisit moment hmem).not_chooses⟩, id, ?_⟩
      have hreported {reports : List Moment} (hreports : OnlyReports reports) :
          ∀ moment ∈ reports, ¬moment.Chooses := by
        intro moment hmem
        obtain ⟨record, answer, rfl⟩ := hreports moment hmem
        exact id
      cases hconcluded with
      | storeFails location hplace hreports failure =>
          rw [List.forall_mem_append, List.forall_mem_singleton]
          exact ⟨hreported hreports, id⟩
      | completes hreports record answer =>
          rw [List.forall_mem_append, List.forall_mem_append]
          refine ⟨⟨hreported hreports, ?_⟩, by simp [Moment.Chooses]⟩
          cases place <;> simp [storedAt, Moment.Chooses]

theorem Scanned.not_chooses {plan : AnalysisPlan} {source : SourceInfo} {allFiles : Bool}
    {moments : List Moment} {result : Except Failure Unit}
    (h : Scanned plan source allFiles moments result) :
    ∀ moment ∈ moments, ¬moment.Chooses := by
  obtain ⟨hanalyzed⟩ := h
  exact List.forall_mem_cons.mpr ⟨id, hanalyzed.not_chooses⟩

theorem Scanned.outcome {plan : AnalysisPlan} {source : SourceInfo} {allFiles : Bool}
    {moments : List Moment} {result : Except Failure Unit} {listed : List FileRecord}
    {read : String → Except Failure String} (h : Scanned plan source allFiles moments result)
    (hanswers : ∀ moment ∈ moments, moment.AnswersAs listed read) :
    Outcome read (chosenFrom plan.settings allFiles listed) result ∧
      (result = .ok () → ∃ before entities, eventsOf moments = before ++
        [.complete entities (chosenFrom plan.settings allFiles listed).length entities.length
          false]) := by
  obtain ⟨hanalyzed⟩ := h
  obtain ⟨houtcome, hcomplete⟩ := hanalyzed.outcome (List.forall_mem_cons.mp hanswers).2
  refine ⟨houtcome, fun hok => ?_⟩
  obtain ⟨before, entities, heq⟩ := hcomplete hok
  exact ⟨_ :: before, entities, by rw [eventsOf_event, heq, List.cons_append]⟩

end AnalysisPlan

namespace WorldLaws

variable {laws : WorldLaws (Option LocalTree)} {disk : DiskNode} {current excludes : List String}

/-- A folder that has been chosen stays so. -/
theorem source_stateAfter (hsource : laws.source = folderSource disk current excludes)
    {moments : List Moment} (h : ∀ moment ∈ moments, ¬moment.Chooses)
    (w : World (Option LocalTree)) :
    (Script.stateAfter laws.handler w moments).source = w.source := by
  induction moments generalizing w with
  | nil => rfl
  | cons moment rest ih =>
      obtain ⟨hmoment, hrest⟩ := List.forall_mem_cons.mp h
      cases moment with
      | event e => exact ih hrest w
      | action action answer =>
          refine (ih hrest _).trans ?_
          cases action <;> simp only [handler, perform, hsource] <;>
            first | exact absurd trivial hmoment | rfl

/-- A folder that has been chosen answers with its files and their texts. -/
theorem answersAs (hsource : laws.source = folderSource disk current excludes)
    {w : World (Option LocalTree)} {t : LocalTree} (hw : w.source = some t) (action : Action) :
    (Moment.action action (laws.handler.perform action w).1).AnswersAs (t.files disk)
      (t.readText disk) := by
  cases action <;> simp only [handler, perform, hsource, Moment.AnswersAs, World.withReply, hw] <;>
    rfl

end WorldLaws

section FolderRun

open AnalysisPlan Script

variable {laws : WorldLaws (Option LocalTree)} {disk : DiskNode} {current excludes : List String}
  {path : String} {t : LocalTree}

/-- After a folder has been chosen, a run gets its files and their texts for answers. -/
theorem answersAs_of_history (hsource : laws.source = folderSource disk current excludes)
    (hopen : LocalTree.openAt disk current path excludes none = .ok t)
    {s : Script Unit} {world : World (Option LocalTree)} {answer} {inner last : List Moment}
    (hhistory : history laws.handler s world =
      .action (.choose (.folder path)) answer :: (inner ++ last))
    (hinner : ∀ moment ∈ inner, ¬moment.Chooses) :
    ∀ moment ∈ inner, moment.AnswersAs (t.files disk) (t.readText disk) := by
  intro moment hmem
  cases moment with
  | event e => trivial
  | action action reply =>
      obtain ⟨before, after, rfl⟩ := List.append_of_mem hmem
      have hsplit : history laws.handler s world =
          (.action (.choose (.folder path)) answer :: before) ++
            .action action reply :: (after ++ last) := by
        rw [hhistory]
        simp only [List.append_assoc, List.cons_append]
      have hchosen : (laws.handler.perform (.choose (.folder path)) world).2.source = some t := by
        simp only [WorldLaws.handler, WorldLaws.perform, hsource, folderSource, hopen,
          World.withReply]
      have hstays : (stateAfter laws.handler world
          (.action (.choose (.folder path)) answer :: before)).source = some t := by
        rw [stateAfter, WorldLaws.source_stateAfter hsource]
        · exact hchosen
        · exact fun moment hbefore => hinner moment (List.mem_append_left _ hbefore)
      rw [answer_of_history hsplit]
      exact WorldLaws.answersAs hsource hstays action

/-- A failure to read a file of a folder is about that file, or not foreseen. -/
theorem exists_unexpected_of_readText {failure : Failure} {name : String}
    (h : t.readText disk name = .error failure) (hfailure : ¬failure.IsUnreadable) :
    ∃ cause, failure = .unexpected cause := by
  by_contra hforeseen
  have hread : LocalTree.ReadsOrSkips name (t.readText disk name) := by
    apply LocalTree.readsOrSkips
    intro cause heq
    exact hforeseen ⟨cause, Except.error.inj (h.symm.trans heq)⟩
  rw [h] at hread
  cases hread with
  | skips reason => exact hfailure ⟨name, reason, rfl⟩

/-- A run over a folder ends with its result, or with what went wrong with the path of a file. -/
theorem folder_run_outcome (hsource : laws.source = folderSource disk current excludes)
    (hopen : LocalTree.openAt disk current path excludes none = .ok t) (plan : AnalysisPlan)
    (allFiles : Bool) (world : World (Option LocalTree)) :
    let chosen := chosenFrom plan.settings allFiles (t.files disk)
    let events := (drain laws.handler (plan.analyzeFolder path allFiles) world).events
    (∃ entities, events.getLast? =
        some (.complete entities chosen.length entities.length false) ∧
      ∀ file ∈ chosen, ∀ cause, t.readText disk file.path ≠ .error (.unexpected cause)) ∨
    ∃ file ∈ chosen, ∃ cause, t.readText disk file.path = .error (.unexpected cause) ∧
      events.getLast? = some (.error ("Analysis failed: " ++ cause.message)) := by
  intro chosen events
  have hevents : events = eventsOf (history laws.handler (plan.analyzeFolder path allFiles) world) :=
    drain_events _ _ _
  obtain ⟨_, hcourse⟩ := course_history laws.handler (plan.analyzeFolder path allFiles) world
  have hran := folderRan_of_course hcourse
  generalize hhistory : history laws.handler (plan.analyzeFolder path allFiles) world = moments
    at hevents hran
  cases hran with
  | chooseFails failure record answer =>
      rw [← List.nil_append (_ :: _)] at hhistory
      have hanswer := answer_of_history hhistory
      simp only [stateAfter, WorldLaws.handler, WorldLaws.perform, hsource, folderSource, hopen,
        World.withReply] at hanswer
      cases hanswer
  | chooses source hfinished =>
      cases hfinished with
      | succeeds hscanned =>
          rw [← List.append_nil (_ :: _), List.cons_append] at hhistory
          obtain ⟨houtcome, hcomplete⟩ := hscanned.outcome
            (answersAs_of_history hsource hopen hhistory hscanned.not_chooses)
          obtain ⟨before, entities, heq⟩ := hcomplete rfl
          refine .inl ⟨entities, ?_, ?_⟩
          · rw [hevents, eventsOf_action, heq, List.getLast?_concat]
          · cases houtcome with
            | passes _ hread =>
                intro file hfile cause hcause
                obtain ⟨shown, reason, hunreadable⟩ := hread file hfile _ hcause
                cases hunreadable
      | fails hscanned record answer =>
          obtain ⟨houtcome, -⟩ := hscanned.outcome
            (answersAs_of_history hsource hopen hhistory hscanned.not_chooses)
          cases houtcome with
          | @fails file hfile failure hread hfailure =>
              obtain ⟨cause, rfl⟩ := exists_unexpected_of_readText hread hfailure
              refine .inr ⟨file, hfile, cause, hread, ?_⟩
              rw [hevents, eventsOf_action, eventsOf_append, List.getLast?_append]
              rfl

/--
In a folder of files, folders and links, reading what is listed as a blob gives
a text or fails about that file, unless the path is one of a link that cannot be
resolved: following it never ends, or there are very many links. A run over the
folder completes exactly if it looks into no such link. Otherwise it ends with
what is wrong with one.
-/
theorem folder_runs_complete_unless_entangled (hdisk : disk.WellNamed)
    (hopen : LocalTree.openAt disk current path excludes none = .ok t) :
    (∀ file ∈ t.files disk, file.type = .blob →
      ((∀ cause, ¬disk.Entangled (t.namesOf file.path) cause) →
        LocalTree.ReadsOrSkips file.path (t.readText disk file.path)) ∧
      ∀ cause, disk.Entangled (t.namesOf file.path) cause →
        t.readText disk file.path = .error (.unexpected cause) ∧
        (∃ target, disk.at? (t.namesOf file.path) = some (.link target)) ∧
        (¬disk.Ends ⟨[], t.namesOf file.path⟩ ∨
          ∃ links : List (List String), links.Nodup ∧ maxNesting < links.length ∧
            ∀ link ∈ links, ∃ target, disk.at? link = some (.link target))) ∧
    ∀ laws : WorldLaws (Option LocalTree), laws.source = folderSource disk current excludes →
      ∀ (plan : AnalysisPlan) (allFiles : Bool) (world : World (Option LocalTree)),
        let chosen := chosenFrom plan.settings allFiles (t.files disk)
        let events := (drain laws.handler (plan.analyzeFolder path allFiles) world).events
        ((∃ entities, events.getLast? =
            some (.complete entities chosen.length entities.length false)) ↔
          ∀ file ∈ chosen, ∀ cause, ¬disk.Entangled (t.namesOf file.path) cause) ∧
        ∀ file ∈ chosen, ∀ cause, disk.Entangled (t.namesOf file.path) cause →
          ∃ other ∈ chosen, ∃ cause, disk.Entangled (t.namesOf other.path) cause ∧
            events.getLast? = some (.error ("Analysis failed: " ++ cause.message)) := by
  have hiff : ∀ file ∈ t.files disk, file.type = .blob → ∀ cause,
      t.readText disk file.path = .error (.unexpected cause) ↔
        disk.Entangled (t.namesOf file.path) cause := by
    intro file hfile hblob cause
    obtain ⟨hnames, heq, -⟩ := LocalTree.found_of_mem_files hdisk hfile hblob
    rw [← heq] at hnames ⊢
    exact LocalTree.readText_unexpected_iff hnames
  refine ⟨?_, ?_⟩
  · intro file hfile hblob
    obtain ⟨hnames, -, found, hfound, hfolder⟩ := LocalTree.found_of_mem_files hdisk hfile hblob
    refine ⟨fun hfree => LocalTree.readsOrSkips fun cause hcause => ?_, fun cause htangled => ?_⟩
    · exact hfree cause ((hiff file hfile hblob cause).mp hcause)
    · refine ⟨(hiff file hfile hblob cause).mpr htangled, ?_, htangled.endless_or_deep⟩
      by_contra hlink
      refine DiskNode.not_entangled_of_linkFree (fun hup => (hnames _ hup).notUp rfl) ?_ htangled
      apply DiskNode.linkFreeAlong_of_at? hfound
      rintro target rfl
      exact hlink ⟨target, hfound⟩
  · intro laws hsource plan allFiles world chosen events
    have hchosen : ∀ file ∈ chosen, ∀ cause,
        t.readText disk file.path = .error (.unexpected cause) ↔
          disk.Entangled (t.namesOf file.path) cause := by
      intro file hfile
      obtain ⟨hkept, hselectable⟩ := mem_of_mem_selectCandidates hfile
      exact hiff file (List.mem_of_mem_filter hkept) (type_of_isSelectable hselectable)
    rcases folder_run_outcome hsource hopen plan allFiles world with
      ⟨entities, hlast, hread⟩ | ⟨file, hfile, cause, hread, hlast⟩
    · have hfree : ∀ file ∈ chosen, ∀ cause, ¬disk.Entangled (t.namesOf file.path) cause :=
        fun file hfile cause htangled =>
          hread file hfile cause ((hchosen file hfile cause).mpr htangled)
      refine ⟨⟨fun _ => hfree, fun _ => ⟨entities, hlast⟩⟩, ?_⟩
      intro file hfile cause htangled
      exact absurd htangled (hfree file hfile cause)
    · have htangled := (hchosen file hfile cause).mp hread
      refine ⟨⟨?_, fun hfree => absurd htangled (hfree file hfile cause)⟩, ?_⟩
      · rintro ⟨entities, hcomplete⟩
        cases hlast.symm.trans hcomplete
      · exact fun _ _ _ _ => ⟨file, hfile, cause, htangled, hlast⟩

end FolderRun

namespace SampleLoop

open AnalysisPlan

/-- A file and a link to itself. -/
def root : DiskNode :=
  .folder [("a.ts", .file [0x61] .zero), ("loop.ts", .link "loop.ts")]

def disk : DiskNode :=
  .folder [("repo", root)]

def tree : LocalTree where
  folder := ["repo"]
  coordinates := ⟨"local", "repo", "local"⟩
  rules := []

theorem wellNamed : disk.WellNamed := by
  have hname : ∀ name ∈ ["repo", "a.ts", "loop.ts"], IsName name := by
    simp only [List.forall_mem_cons, List.not_mem_nil, false_imp_iff, implies_true, and_true]
    exact ⟨⟨by decide, by decide, by decide, by decide, by decide⟩,
      ⟨by decide, by decide, by decide, by decide, by decide⟩,
      ⟨by decide, by decide, by decide, by decide, by decide⟩⟩
  refine .folder (by decide) ?_ ?_
  · exact List.forall_mem_singleton.mpr (hname _ (by decide))
  · refine List.forall_mem_singleton.mpr (.folder (by decide) ?_ ?_)
    · exact List.forall_mem_cons.mpr
        ⟨hname _ (by decide), List.forall_mem_singleton.mpr (hname _ (by decide))⟩
    · exact List.forall_mem_cons.mpr ⟨.file _ _, List.forall_mem_singleton.mpr (.link _)⟩

theorem possible : ∀ name ∈ ["repo", "a.ts", "loop.ts", ".gitignore"], nameFault? name = none := by
  decide

theorem openAt_repo : LocalTree.openAt disk [] "repo" [] none = .ok tree := by
  have hnames : LocalTree.namesFrom [] "repo" = ["repo"] := by decide
  rw [LocalTree.openAt, hnames]
  simp [DiskNode.resolve, disk, root, DiskNode.replaceLinks, DiskNode.locate, DiskNode.follow,
    DiskNode.at?, DiskNode.child?, DiskNode.entries, Table.get?, DiskNode.normalNames, maxLinks,
    maxNesting, possible, DiskNode.hasPath, DiskNode.stat, DiskNode.isFolderAt,
    LocalTree.ignoreRules, bind, Except.bind, Except.mapError, pure, Except.pure,
    IgnoreRule.ofPatterns, tree]

theorem at?_loop : disk.at? ["repo", "loop.ts"] = some (.link "loop.ts") := rfl

/-- However many links may be followed, the link to itself takes more. -/
theorem follow_loop (links : Nat) :
    disk.follow links ["loop.ts"] ["repo"] = .error .linkLoop := by
  have htarget : PurePath.ofString "loop.ts" = ⟨"", ["loop.ts"]⟩ := by decide
  induction links with
  | zero =>
      rw [DiskNode.follow]
      simp [at?_loop, possible]
  | succ links ih =>
      rw [DiskNode.follow]
      simp [at?_loop, possible, htarget, PurePath.isAbsolute, ih]

theorem locate_loop : disk.locate ["repo", "loop.ts"] = .error .linkLoop := by
  have hrepo : disk.at? ["repo"] = some root := rfl
  rw [DiskNode.locate, DiskNode.follow]
  simpa [hrepo, root, possible] using follow_loop maxLinks

theorem entangled :
    disk.Entangled (tree.namesOf "loop.ts") (DiskNode.linkLoop ["repo", "loop.ts"]) := by
  have hnames : tree.namesOf "loop.ts" = ["repo", "loop.ts"] := by decide
  have htarget : PurePath.ofString "loop.ts" = ⟨"", ["loop.ts"]⟩ := by decide
  have hrepo : disk.at? ["repo"] = some root := rfl
  have hnormal : DiskNode.normalNames ["repo", "loop.ts"] = ["repo", "loop.ts"] := by decide
  have hloop : disk.replaceLinks maxNesting [] ["repo", "loop.ts"] [] =
      .loop ["repo", "loop.ts"] := by
    simp [DiskNode.replaceLinks, hrepo, root, at?_loop, maxNesting, htarget, PurePath.isAbsolute]
  have hneeded : disk.locate (DiskNode.normalNames ["repo", "loop.ts"]) = .error .linkLoop := by
    rw [hnormal]
    exact locate_loop
  have htangled := DiskNode.Entangled.loops hloop hneeded
  rw [hnormal] at htangled
  rwa [hnames]

theorem shows {name : String} (hname : name ∈ ["a.ts", "loop.ts"]) :
    tree.Shows disk root [name] false where
  named := by simp
  ancestors := by
    intro front hfront hnil hne
    rcases List.prefix_cons_iff.mp hfront with rfl | ⟨rest, rfl, hrest⟩
    · exact absurd rfl hnil
    · rw [List.prefix_nil.mp hrest] at hne
      exact absurd rfl hne
  itself := by
    have hnowhere : disk.isFolderAt ["repo", "loop.ts"] = false := by
      rw [DiskNode.isFolderAt, DiskNode.stat, locate_loop]
    simp only [List.mem_cons, List.not_mem_nil, or_false] at hname
    rcases hname with rfl | rfl
    · exact ⟨_, rfl, rfl⟩
    · exact ⟨_, rfl, hnowhere.symm⟩
  admitted := by
    simp only [List.mem_cons, List.not_mem_nil, or_false] at hname
    rcases hname with rfl | rfl <;>
      exact LocalTree.isHidden_eq_false_iff.mp (by decide +kernel)

theorem exists_listed {name : String} (hname : name ∈ ["a.ts", "loop.ts"]) :
    ∃ file ∈ tree.files disk, file.path = name ∧ file.type = .blob := by
  have hroot : disk.at? tree.folder = some root := rfl
  have hnamed : root.WellNamed := (wellNamed.of_at? hroot).2
  have hsplit : Text.splitOnChar '/' name = [name] := by
    simp only [List.mem_cons, List.not_mem_nil, or_false] at hname
    rcases hname with rfl | rfl <;> decide
  have hlisted : ⟨name, false⟩ ∈ tree.listing disk := by
    apply (LocalTree.mem_listing_iff hroot hnamed).mpr
    rw [Listed.names, hsplit]
    exact shows hname
  exact ⟨_, List.mem_map_of_mem hlisted, rfl, rfl⟩

/-- A world with the folder and an empty cache. -/
def laws : WorldLaws (Option LocalTree) where
  source := folderSource disk [] []
  cache := { directory := "" }
  context := { now := .zero, stamp := .zero, temporary := "" }

theorem source_laws : laws.source = folderSource disk [] [] := rfl

/-- The link is looked into if all files are. -/
theorem exists_chosen :
    ∃ file ∈ chosenFrom {} true (tree.files disk), file.path = "loop.ts" := by
  obtain ⟨file, hfile, hpath, hblob⟩ := exists_listed (by decide : "loop.ts" ∈ ["a.ts", "loop.ts"])
  have hincluded : isExcluded "loop.ts" = false := by decide
  refine ⟨file, ?_, hpath⟩
  apply (mem_selectCandidates_iff (by simp [Unlimited])).mpr
  rw [keptFiles, List.mem_filter, isSelectable, hpath, hblob, hincluded]
  exact ⟨⟨hfile, rfl⟩, rfl⟩

theorem readText_loop : tree.readText disk "loop.ts" =
    .error (.unexpected (DiskNode.linkLoop ["repo", "loop.ts"])) := by
  obtain ⟨file, hfile, hpath, hblob⟩ :=
    exists_listed (by decide : "loop.ts" ∈ ["a.ts", "loop.ts"])
  obtain ⟨hnames, heq, -⟩ := LocalTree.found_of_mem_files wellNamed hfile hblob
  rw [hpath] at hnames heq
  rw [← heq] at hnames
  apply (LocalTree.readText_unexpected_iff hnames).mpr
  rw [heq]
  exact entangled

/-- Not every listed file is read or skipped, and not every run over a folder is completed. -/
theorem not_every_file_is_skipped :
    (¬∀ file ∈ tree.files disk, file.type = .blob →
      LocalTree.ReadsOrSkips file.path (tree.readText disk file.path)) ∧
    ¬∀ (plan : AnalysisPlan) (allFiles : Bool) (world : World (Option LocalTree)),
      ∃ entities total analyzed fromCache,
        (Script.drain laws.handler (plan.analyzeFolder "repo" allFiles) world).events.getLast? =
          some (.complete entities total analyzed fromCache) := by
  constructor
  · intro hall
    obtain ⟨file, hfile, hpath, hblob⟩ :=
      exists_listed (by decide : "loop.ts" ∈ ["a.ts", "loop.ts"])
    have hread := hall file hfile hblob
    rw [hpath, readText_loop] at hread
    cases hread
  · intro hall
    obtain ⟨_, _, _, _, hcomplete⟩ := hall {} true { source := none }
    rcases folder_run_outcome source_laws openAt_repo {} true { source := none } with
      ⟨_, -, hread⟩ | ⟨_, -, _, -, hlast⟩
    · obtain ⟨file, hfile, hpath⟩ := exists_chosen
      exact hread file hfile _ (hpath ▸ readText_loop)
    · cases hlast.symm.trans hcomplete

end SampleLoop

open SampleLoop AnalysisPlan in
/-- A file is read beside a link to itself, which keeps the run over all files from its end. -/
theorem folder_runs_complete_unless_entangled_loop :
    disk.WellNamed ∧ LocalTree.openAt disk [] "repo" [] none = .ok tree ∧
      laws.source = folderSource disk [] [] ∧
      (∃ file ∈ tree.files disk, file.path = "loop.ts" ∧
        tree.readText disk file.path =
          .error (.unexpected (DiskNode.linkLoop ["repo", "loop.ts"])) ∧
        ∃ target, disk.at? (tree.namesOf file.path) = some (.link target)) ∧
      ∃ cause : Unexpected,
        (Script.drain laws.handler (analyzeFolder {} "repo" true) { source := none }).events.getLast?
          = some (.error ("Analysis failed: " ++ cause.message)) := by
  obtain ⟨hfiles, hruns⟩ := folder_runs_complete_unless_entangled wellNamed openAt_repo
  obtain ⟨file, hchosen, hpath⟩ := exists_chosen
  have hloop : disk.Entangled (tree.namesOf file.path)
      (DiskNode.linkLoop ["repo", "loop.ts"]) := by
    rw [hpath]
    exact entangled
  obtain ⟨hkept, hselectable⟩ := mem_of_mem_selectCandidates hchosen
  have hfile : file ∈ tree.files disk := List.mem_of_mem_filter hkept
  obtain ⟨hread, hlink, -⟩ := (hfiles file hfile (type_of_isSelectable hselectable)).2 _ hloop
  obtain ⟨-, hends⟩ := hruns laws source_laws {} true { source := none }
  obtain ⟨_, -, cause, -, hlast⟩ := hends file hchosen _ hloop
  exact ⟨wellNamed, openAt_repo, source_laws, ⟨file, hfile, hpath, hread, hlink⟩, cause, hlast⟩

end RepoAtlas
