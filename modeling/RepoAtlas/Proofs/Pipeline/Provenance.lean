import RepoAtlas.Proofs.Pipeline.Offer

/-!
Where the entities of a run come from. What a run hands out or stores was found when its
file was looked into, or else the cache had it in a record.
-/
namespace RepoAtlas

namespace Moment

/-- The entities that are handed out or stored in a moment. -/
def entities : Moment → List Entity
  | event (.component e) => [e]
  | event (.complete entities ..) => entities
  | action (.store _ _ entities ..) _ => entities
  | _ => []

/-- Whether an entity of the file at a path is found in a moment. -/
def Finds (path : String) : Moment → Prop
  | action (.examine ..) answer => ∃ e, answer = .ok (some e) ∧ e.file = path
  | _ => False

/-- Whether the cache answers with a record that holds an entity of the file at a path. -/
def Recalls (path : String) : Moment → Prop
  | action (.lookup ..) answer =>
    ∃ record : CacheRecord, answer = .ok (some record) ∧ ∃ e ∈ record.entities, e.file = path
  | _ => False

/-- Whether nothing of the file at a path is handed out or stored in a moment. -/
def Omits (path : String) (moment : Moment) : Prop :=
  ∀ e ∈ moment.entities, e.file ≠ path

theorem omits_of_nil {path : String} {moment : Moment} (h : moment.entities = []) :
    moment.Omits path := by
  rw [Omits, h]
  exact fun e he => absurd he List.not_mem_nil

end Moment

/-- Whether some entities are all of other files than the one at a path. -/
def NoneOf (path : String) (entities : List Entity) : Prop :=
  ∀ e ∈ entities, e.file ≠ path

theorem NoneOf.resolve {path : String} {entities : List Entity} (h : NoneOf path entities) :
    NoneOf path (resolve entities) := by
  intro e he
  obtain ⟨found, i, hget, rfl⟩ := mem_resolve.mp he
  exact h found (List.mem_of_getElem? hget)

namespace AnalysisPlan

variable {path : String}

theorem Examined.omits {shown content : String} {moments : List Moment}
    {result : Except Failure (Option (Option Entity))} (h : Examined shown content moments result)
    (hnot : ∀ moment ∈ moments, ¬ moment.Finds path) :
    (∀ moment ∈ moments, moment.Omits path) ∧
      ∀ found, result = .ok found → NoneOf path found.join.toList := by
  cases h with
  | fails failure record answer => simp [Moment.Omits, Moment.entities, NoneOf]
  | findsNothing => simp [Moment.Omits, Moment.entities, NoneOf]
  | finds entity record answer =>
      have hentity : entity.file ≠ path := fun hfile =>
        (List.forall_mem_cons.mp hnot).1 ⟨entity, rfl, hfile⟩
      simp [Moment.Omits, Moment.entities, NoneOf, hentity]

theorem Visited.omits {shown : String} {moments : List Moment}
    {result : Except Failure (Option (Option Entity))} (h : Visited shown moments result)
    (hnot : ∀ moment ∈ moments, ¬ moment.Finds path) :
    (∀ moment ∈ moments, moment.Omits path) ∧
      ∀ found, result = .ok found → NoneOf path found.join.toList := by
  cases h with
  | unreadable shown reason record answer => simp [Moment.Omits, Moment.entities, NoneOf]
  | fails failure hfailure => simp [Moment.Omits, Moment.entities]
  | reads content hexamined =>
      obtain ⟨homits, hfound⟩ := hexamined.omits (List.forall_mem_cons.mp hnot).2
      exact ⟨List.forall_mem_cons.mpr ⟨Moment.omits_of_nil rfl, homits⟩, hfound⟩

theorem omits_pauseAt (s : AnalysisSettings) (index : Nat) :
    ∀ moment ∈ pauseAt s index, moment.Omits path := by
  unfold pauseAt
  split
  · exact List.forall_mem_singleton.mpr (Moment.omits_of_nil rfl)
  · exact fun moment hmem => absurd hmem List.not_mem_nil

/-- A walk hands out what its visits find, and its tally holds nothing else. -/
theorem Walked.omits {s : AnalysisSettings} {total index : Nat} {files : List FileRecord}
    {moments : List Moment} {result : Except Failure Tally}
    (h : Walked s total index files moments result)
    (hnot : ∀ moment ∈ moments, ¬ moment.Finds path) :
    (∀ moment ∈ moments, moment.Omits path) ∧
      ∀ tally, result = .ok tally → NoneOf path tally.entities := by
  induction h with
  | nil index => simp [NoneOf]
  | pauseFails file rest failure hpauses => simp [Moment.Omits, Moment.entities]
  | visitFails rest hvisited =>
      rw [List.forall_mem_append, List.forall_mem_cons] at hnot ⊢
      obtain ⟨homits, -⟩ := hvisited.omits hnot.2.2
      exact ⟨⟨omits_pauseAt s _, Moment.omits_of_nil rfl, homits⟩, by simp⟩
  | @cons index file rest moments later found result hvisited hrest ih =>
      rw [List.forall_mem_append, List.forall_mem_cons, List.forall_mem_append] at hnot ⊢
      obtain ⟨homits, hfound⟩ := hvisited.omits hnot.2.2.1
      obtain ⟨hlater, htally⟩ := ih hnot.2.2.2
      refine ⟨⟨omits_pauseAt s _, Moment.omits_of_nil rfl, homits, hlater⟩, fun tally heq => ?_⟩
      cases result with
      | error failure => cases heq
      | ok rest =>
          obtain rfl := Except.ok.inj heq
          rw [NoneOf, entities_withFirst, List.forall_mem_append]
          exact ⟨hfound _ rfl, htally _ rfl⟩

theorem Surveyed.omits {s : AnalysisSettings} {repository : Coordinates} {allFiles : Bool}
    {moments : List Moment} {result : Except Failure Survey}
    (h : Surveyed s repository allFiles moments result)
    (hnot : ∀ moment ∈ moments, ¬ moment.Finds path) :
    (∀ moment ∈ moments, moment.Omits path) ∧
      ∀ found, result = .ok found → NoneOf path found.tally.entities := by
  cases h with
  | listFails failure => simp [Moment.Omits, Moment.entities]
  | @lists listed chosen hchosen moments tally hwalked =>
      simp only [List.forall_mem_cons] at hnot ⊢
      obtain ⟨homits, htally⟩ := hwalked.omits hnot.2.2.2
      refine ⟨⟨Moment.omits_of_nil rfl, Moment.omits_of_nil rfl, Moment.omits_of_nil rfl, homits⟩,
        fun found heq => ?_⟩
      cases tally with
      | error failure => cases heq
      | ok tally =>
          obtain rfl := Except.ok.inj heq
          exact htally tally rfl

theorem OnlyReports.omits {moments : List Moment} (h : OnlyReports moments) :
    ∀ moment ∈ moments, moment.Omits path := by
  intro moment hmem
  obtain ⟨record, answer, rfl⟩ := h moment hmem
  exact Moment.omits_of_nil rfl

theorem Concluded.omits {place : Option String} {repository : Coordinates} {found : Survey}
    {moments : List Moment} {result : Except Failure Unit}
    (h : Concluded place repository found moments result)
    (hfound : NoneOf path found.tally.entities) : ∀ moment ∈ moments, moment.Omits path := by
  cases h with
  | storeFails location hplace hreports failure =>
      rw [List.forall_mem_append, List.forall_mem_singleton]
      exact ⟨hreports.omits, hfound.resolve⟩
  | completes hreports record answer =>
      simp only [List.forall_mem_append, List.forall_mem_cons]
      refine ⟨⟨hreports.omits, ?_⟩, Moment.omits_of_nil rfl, hfound.resolve, by simp⟩
      unfold storedAt
      split
      · rw [List.forall_mem_singleton]
        exact hfound.resolve
      · simp

theorem Analyzed.omits {s : AnalysisSettings} {repository : Coordinates} {allFiles : Bool}
    {place : Option String} {moments : List Moment} {result : Except Failure Unit}
    (h : Analyzed s repository allFiles place moments result)
    (hnot : ∀ moment ∈ moments, ¬ moment.Finds path) :
    ∀ moment ∈ moments, moment.Omits path := by
  cases h with
  | openFails failure => exact List.forall_mem_singleton.mpr (Moment.omits_of_nil rfl)
  | surveyFails hsurveyed closing failure hfailure =>
      simp only [List.forall_mem_append, List.forall_mem_cons] at hnot ⊢
      exact ⟨⟨Moment.omits_of_nil rfl, (hsurveyed.omits hnot.1.2).1⟩, Moment.omits_of_nil rfl,
        by simp⟩
  | concludes hsurveyed hconcluded =>
      simp only [List.forall_mem_append, List.forall_mem_cons] at hnot ⊢
      obtain ⟨homits, hfound⟩ := hsurveyed.omits hnot.1.2
      exact ⟨⟨Moment.omits_of_nil rfl, homits⟩, Moment.omits_of_nil rfl,
        hconcluded.omits (hfound _ rfl)⟩

theorem Asked.omits {plan : AnalysisPlan} {request : AnalysisRequest} {repository : Coordinates}
    {moments : List Moment} {result : Except Failure (Option CacheRecord)}
    (h : Asked plan request repository moments result) :
    ∀ moment ∈ moments, moment.Omits path := by
  cases h with
  | skips hcache => simp
  | asks hcache answer =>
      simp only [List.forall_mem_cons]
      exact ⟨Moment.omits_of_nil rfl, Moment.omits_of_nil rfl, by simp⟩

theorem Asked.recalls {plan : AnalysisPlan} {request : AnalysisRequest} {repository : Coordinates}
    {moments : List Moment} {record : CacheRecord}
    (h : Asked plan request repository moments (.ok (some record)))
    (hrecord : ¬ NoneOf path record.entities) : ∃ moment ∈ moments, moment.Recalls path := by
  cases h with
  | asks hcache answer =>
      simp only [NoneOf, not_forall, not_not] at hrecord
      obtain ⟨e, he, hfile⟩ := hrecord
      exact ⟨_, List.mem_cons_of_mem _ List.mem_cons_self, record, rfl, e, he, hfile⟩

theorem omits_replayEvents {s : AnalysisSettings} {record : CacheRecord} {allFiles : Bool}
    (h : NoneOf path record.entities) :
    ∀ moment ∈ (replayEvents s record allFiles).map .event, Moment.Omits path moment := by
  simp only [replayEvents, List.map_append, List.forall_mem_append, List.map_cons, List.map_nil,
    List.forall_mem_cons, List.map_map, List.forall_mem_map]
  refine ⟨⟨⟨Moment.omits_of_nil rfl, Moment.omits_of_nil rfl, by simp⟩, fun e he => ?_⟩, h,
    by simp⟩
  exact List.forall_mem_singleton.mpr (h e he)

end AnalysisPlan

/-- How a file may come up in a run that finds nothing in it: nothing of it is stored, and it
is handed out only if the cache answered with a record that holds something of it. -/
structure OnlyRecalled (path : String) (moments : List Moment) : Prop where
  stored : ∀ moment ∈ moments, moment.isStore = true → moment.Omits path
  shown : (∀ moment ∈ moments, moment.Omits path) ∨ ∃ moment ∈ moments, moment.Recalls path

theorem OnlyRecalled.of_omits {path : String} {moments : List Moment}
    (h : ∀ moment ∈ moments, moment.Omits path) : OnlyRecalled path moments where
  stored moment hmem _ := h moment hmem
  shown := .inl h

theorem OnlyRecalled.append {path : String} {first last : List Moment}
    (h : OnlyRecalled path first) (hlast : ∀ moment ∈ last, moment.Omits path) :
    OnlyRecalled path (first ++ last) where
  stored := List.forall_mem_append.mpr ⟨h.stored, fun moment hmem _ => hlast moment hmem⟩
  shown := by
    refine h.shown.imp (fun homits => List.forall_mem_append.mpr ⟨homits, hlast⟩) ?_
    rintro ⟨moment, hmem, hrecalls⟩
    exact ⟨moment, List.mem_append_left _ hmem, hrecalls⟩

namespace AnalysisPlan

open Script

variable {path : String}

theorem Ran.onlyRecalled {plan : AnalysisPlan} {request : AnalysisRequest}
    {moments : List Moment} {result : Except Failure Unit} (h : Ran plan request moments result)
    (hnot : ∀ moment ∈ moments, ¬ moment.Finds path) : OnlyRecalled path moments := by
  cases h with
  | badLocation failure hlocation => exact .of_omits (by simp)
  | badMode failure hmode => exact .of_omits (by simp)
  | lookupFails hlocation hasked => exact .of_omits hasked.omits
  | @replays repository hlocation asked record hasked =>
      by_cases hrecord : NoneOf path record.entities
      · exact (OnlyRecalled.of_omits hasked.omits).append (omits_replayEvents hrecord)
      · obtain ⟨moment, hmem, hrecalls⟩ := hasked.recalls hrecord
        refine ⟨List.forall_mem_append.mpr ⟨fun moment hmem _ => hasked.omits moment hmem, ?_⟩,
          .inr ⟨moment, List.mem_append_left _ hmem, hrecalls⟩⟩
        rintro moment hmem hstore
        obtain ⟨e, -, rfl⟩ := List.mem_map.mp hmem
        cases hstore
  | chooseFails hlocation hmode hasked record answer failure =>
      refine (OnlyRecalled.of_omits hasked.omits).append ?_
      simp only [fetching, List.forall_mem_cons]
      exact ⟨Moment.omits_of_nil rfl, Moment.omits_of_nil rfl, Moment.omits_of_nil rfl, by simp⟩
  | analyzes hlocation hmode hasked record answer source hanalyzed =>
      rw [List.forall_mem_append] at hnot
      refine ((OnlyRecalled.of_omits hasked.omits).append ?_).append (hanalyzed.omits hnot.2)
      simp only [fetching, List.forall_mem_cons]
      exact ⟨Moment.omits_of_nil rfl, Moment.omits_of_nil rfl, Moment.omits_of_nil rfl, by simp⟩

/-- The end of a run adds nothing to what was handed out before. -/
theorem Finished.inherits {stage : List Moment → Except Failure Unit → Prop}
    {holds : List Moment → Prop} {moments : List Moment} (h : Finished stage moments)
    (hnot : ∀ moment ∈ moments, ¬ moment.Finds path)
    (hstage : ∀ {moments result}, stage moments result →
      (∀ moment ∈ moments, ¬ moment.Finds path) → holds moments)
    (happend : ∀ {first last : List Moment}, holds first →
      (∀ moment ∈ last, moment.Omits path) → holds (first ++ last)) : holds moments := by
  cases h with
  | succeeds hsucceeds => exact hstage hsucceeds hnot
  | fails hfails record answer =>
      refine happend (hstage hfails (List.forall_mem_append.mp hnot).1) ?_
      simp only [List.forall_mem_cons]
      exact ⟨Moment.omits_of_nil rfl, Moment.omits_of_nil rfl, by simp⟩

/-- Whatever a run of a request hands out or stores was found by it, or recalled. -/
theorem onlyRecalled_of_analyze {plan : AnalysisPlan} {request : AnalysisRequest}
    {moments : List Moment} {value : Unit} (h : Course (analyze plan request) moments value)
    (hnot : ∀ moment ∈ moments, ¬ moment.Finds path) : OnlyRecalled path moments :=
  (finished_of_analyze h).inherits hnot Ran.onlyRecalled OnlyRecalled.append

theorem Scanned.omits {plan : AnalysisPlan} {source : SourceInfo} {allFiles : Bool}
    {moments : List Moment} {result : Except Failure Unit}
    (h : Scanned plan source allFiles moments result)
    (hnot : ∀ moment ∈ moments, ¬ moment.Finds path) : ∀ moment ∈ moments, moment.Omits path := by
  cases h with
  | scans hanalyzed =>
      rw [List.forall_mem_cons] at hnot ⊢
      exact ⟨Moment.omits_of_nil rfl, hanalyzed.omits hnot.2⟩

/-- Whatever a run over a folder hands out was found by it. -/
theorem omits_of_analyzeFolder {plan : AnalysisPlan} {shown : String} {allFiles : Bool}
    {moments : List Moment} {value : Unit}
    (h : Course (analyzeFolder plan shown allFiles) moments value)
    (hnot : ∀ moment ∈ moments, ¬ moment.Finds path) :
    ∀ moment ∈ moments, moment.Omits path := by
  cases folderRan_of_course h with
  | chooseFails failure record answer =>
      simp only [List.forall_mem_cons]
      exact ⟨Moment.omits_of_nil rfl, Moment.omits_of_nil rfl, Moment.omits_of_nil rfl, by simp⟩
  | chooses source hfinished =>
      rw [List.forall_mem_cons] at hnot ⊢
      refine ⟨Moment.omits_of_nil rfl, hfinished.inherits hnot.2 Scanned.omits ?_⟩
      exact fun hfirst hlast => List.forall_mem_append.mpr ⟨hfirst, hlast⟩

end AnalysisPlan

/-- What is delivered by the events of a run is handed out in one of its moments. -/
theorem exists_of_delivered {moments : List Moment} {e : Entity}
    (h : Delivered (eventsOf moments) e) : ∃ moment ∈ moments, e ∈ moment.entities := by
  have hevent {event : Event} (hmem : event ∈ eventsOf moments) : .event event ∈ moments := by
    obtain ⟨moment, hmoment, heq⟩ := List.mem_filterMap.mp hmem
    cases moment with
    | event shown =>
        obtain rfl := Option.some.inj heq
        exact hmoment
    | action a answer => cases heq
  rcases h with hmem | ⟨entities, total, analyzed, fromCache, hmem, he⟩
  · exact ⟨_, hevent hmem, List.mem_singleton_self e⟩
  · exact ⟨_, hevent hmem, he⟩

end RepoAtlas
