import RepoAtlas.Proofs.Pipeline.Footprint
import RepoAtlas.Proofs.SourceModule.Members

/-!
What a run finds in some holdings and stores: a run that is completed has stored its
findings, and a run whose findings can be stored is completed.
-/
namespace RepoAtlas

/-- What a run finds: the listed files, the entities, and how many files it looks into. -/
structure Findings where
  files : List FileRecord
  entities : List Entity
  total : Nat

namespace Holdings

variable {w : Holdings}

/-- What a run with some settings finds in some holdings. -/
def findings (w : Holdings) (s : AnalysisSettings) (allFiles : Bool) : Findings where
  files := AnalysisPlan.keptFiles w.listed
  entities := resolve (w.foundIn (w.chosen s allFiles))
  total := (w.chosen s allFiles).length

/-- Whether entities are found as the analyzer of modules finds them. -/
def OfModules (w : Holdings) : Prop :=
  ∀ path text, w.find? path text = (Entity.ofFile path text).value

theorem OfModules.is_source (h : w.OfModules) {path : String} {e : Entity}
    (hentity : w.entityIn path = some e) : isSourceFile path = true := by
  obtain ⟨text, -, hfind⟩ := Option.bind_eq_some_iff.mp hentity
  rw [h] at hfind
  exact isSourceFile_of_ofFile hfind

/-- Files that are no source files add nothing to what is found. -/
theorem OfModules.foundIn_filter (h : w.OfModules) (files : List FileRecord) :
    w.foundIn (files.filter fun file => isSourceFile file.path) = w.foundIn files := by
  induction files with
  | nil => rfl
  | cons file rest ih =>
      rw [foundIn_cons, List.filter_cons]
      split
      · rw [foundIn_cons, ih]
      · next hother =>
          cases hentity : w.entityIn file.path with
          | none => exact ih
          | some e => exact absurd (h.is_source hentity) hother

/-- Whether all files are asked for or only source files, the entities are the same. -/
theorem OfModules.entities_eq (h : w.OfModules) {s : AnalysisSettings} {allFiles others : Bool}
    (hchoice : allFiles = others ∨ Unlimited s.maxFiles) :
    (w.findings s allFiles).entities = (w.findings s others).entities := by
  rcases hchoice with rfl | hunlimited
  · rfl
  · have hsame (flag : Bool) : w.foundIn (w.chosen s flag) = w.foundIn (w.chosen s false) := by
      rw [← h.foundIn_filter, chosen, filter_selectCandidates hunlimited, ← chosen]
    rw [findings, findings, hsame allFiles, hsame others]

theorem OfModules.described (h : w.OfModules) (s : AnalysisSettings) (allFiles : Bool) :
    ∀ e ∈ (w.findings s allFiles).entities, e.Described := by
  intro e hmem
  refine described_of_mem_resolve (fun found hfound => ?_) hmem
  obtain ⟨file, -, hentity⟩ := mem_foundIn.mp hfound
  obtain ⟨text, -, hfind⟩ := Option.bind_eq_some_iff.mp hentity
  rw [h] at hfind
  exact described_of_ofFile hfind

end Holdings

namespace Stance

/-- A run that has ended after storing its result has handed it out. -/
theorem completes_of_stores {cached : Bool} {q : Stance} (hfinal : q.isFinal = true)
    (hstores : 0 < q.tally cached .stores) : 0 < q.tally cached .completes := by
  cases q <;> simp_all [tally, isFinal]

end Stance

namespace AnalysisPlan

open Script Stance

variable {plan : AnalysisPlan} {request : AnalysisRequest} {repository : Coordinates}
  {w : Holdings}

/-- What is passed to the cache is what is found in the holdings that the answers show. -/
theorem Passes.stores {moments : List Moment} {result : Except Failure Unit}
    (h : Passes plan request repository moments result)
    (hfits : ∀ moment ∈ moments, moment.IsVisit → moment.Fits w)
    (hshows : ∀ moment ∈ moments, moment.SparesCache → moment.Shows w repository) :
    ∃ asked visit last, Asked plan request repository asked (.ok none) ∧
      (∀ moment ∈ visit, moment.SparesCache) ∧ (∀ moment ∈ last, moment.SparesCache) ∧
      moments = asked ++ visit ++ .action (.store (cacheLocation repository) repository.branch
        (w.findings plan.settings request.allFiles).entities
        (w.findings plan.settings request.allFiles).files repository) result :: last := by
  cases h with
  | passes hasked hspares hsource hinner hsurveyed result hlast =>
      next asked visit mode source inner survey last =>
      obtain rfl : source.repository = repository :=
        hshows _ (List.mem_append_left _ (List.mem_append_right _ hsource)) trivial source rfl
      have hinnerFits : AllFit w inner := by
        intro moment hmem
        apply hfits moment _ (hsurveyed.isVisit moment hmem)
        exact List.mem_append_left _ (List.mem_append_right _ (hinner moment hmem))
      obtain ⟨_, heq, -, hentities, -⟩ := hsurveyed.fits hinnerFits
      obtain rfl := Except.ok.inj heq
      refine ⟨asked, visit, last, hasked, hspares, hlast, ?_⟩
      rw [hentities, hsurveyed.files_eq hinnerFits rfl]
      rfl

/-- A run that finds no record, and gets answers that fit, passes its result to the cache. -/
theorem Ran.passes_of_miss (hcached : plan.cached = true)
    {moments : List Moment} {result : Except Failure Unit} (h : Ran plan request moments result)
    (hlocation : Coordinates.ofLocation request.location request.branch = .ok repository)
    {mode : Mode} (hmode : modeOf plan.settings request = .ok mode)
    (hmiss : ∀ asked answer, Asked plan request repository asked answer →
      asked <+: moments → answer = .ok none)
    (hfits : ∀ moment ∈ moments, moment.SparesCache → moment.Fits w) :
    Passes plan request repository moments result := by
  cases h with
  | badLocation failure hbad => cases hlocation.symm.trans hbad
  | badMode failure hbad => cases hmode.symm.trans hbad
  | lookupFails hlocation' hasked =>
      obtain rfl := Except.ok.inj (hlocation.symm.trans hlocation')
      cases hmiss _ _ hasked List.prefix_rfl
  | replays hlocation' hasked =>
      obtain rfl := Except.ok.inj (hlocation.symm.trans hlocation')
      cases hmiss _ _ hasked (List.prefix_append _ _)
  | chooseFails hlocation' hmode' hasked record answer failure =>
      next there mode' asked =>
      obtain ⟨source, heq⟩ := hfits (.action (.choose (.hosted there mode')) (.error failure))
        (by simp [fetching]) trivial
      cases heq
  | analyzes hlocation' hmode' hasked record answer source hanalyzed =>
      obtain rfl := Except.ok.inj (hlocation.symm.trans hlocation')
      cases hanalyzed with
      | openFails failure => cases hfits (.action .openSource (.error failure)) (by simp) trivial
      | surveyFails hsurveyed closing failure hfailure =>
          obtain ⟨found, rfl, -⟩ := hsurveyed.fits (w := w) fun moment hmem =>
            hfits moment (by simp [hmem]) (hsurveyed.isVisit moment hmem).sparesCache
          obtain rfl : closing = .ok () :=
            hfits (.action .closeSource closing) (by simp) trivial
          cases hfailure
      | concludes hsurveyed hconcluded =>
          exact passes_of_concluded hcached hasked record answer hsurveyed hconcluded

/-- A run that does not ask the cache, and gets answers that fit, passes its result to it. -/
theorem Ran.passes_of_fits (hcached : plan.cached = true) (huse : request.useCache = false)
    {moments : List Moment} {result : Except Failure Unit} (h : Ran plan request moments result)
    (hlocation : Coordinates.ofLocation request.location request.branch = .ok repository)
    {mode : Mode} (hmode : modeOf plan.settings request = .ok mode)
    (hfits : ∀ moment ∈ moments, moment.SparesCache → moment.Fits w) :
    Passes plan request repository moments result := by
  refine h.passes_of_miss hcached hlocation hmode (fun asked answer hasked _ => ?_) hfits
  cases hasked with
  | skips => rfl
  | asks hcache => simp [huse] at hcache

/-- A run begins with its stage, which has come to some result. -/
theorem Finished.begins {stage : List Moment → Except Failure Unit → Prop}
    {moments : List Moment} (h : Finished stage moments) :
    ∃ first rest result, moments = first ++ rest ∧ stage first result := by
  cases h with
  | succeeds hstage => exact ⟨_, [], _, (List.append_nil _).symm, hstage⟩
  | fails hstage record answer => exact ⟨_, _, _, rfl, hstage⟩

section Stored

variable {σ : Type} {laws : WorldLaws σ} {world : World σ}

/-- The folder that is there when a run passes its result to the cache. -/
theorem folder_of_passes (hcached : plan.cached = true) {asked visit : List Moment}
    (hasked : Asked plan request repository asked (.ok none))
    (hspares : ∀ moment ∈ visit, moment.SparesCache) :
    (stateAfter laws.handler world (asked ++ visit)).folder =
      laws.askedFolder request repository world.folder := by
  rw [stateAfter_append, WorldLaws.folder_stateAfter hspares,
    WorldLaws.folder_of_asked hcached hasked]

/-- A run that is completed leaves the cache's folder as storing its findings leaves it. -/
theorem folder_of_completed (hcached : plan.cached = true)
    (hexamine : ∀ path text, laws.examine path text = .ok <$> Entity.ofFile path text)
    (hmodules : w.OfModules)
    (hlocation : Coordinates.ofLocation request.location request.branch = .ok repository)
    (hshows : ∀ moment ∈ history laws.handler (plan.analyze request) world,
      moment.Shows w repository)
    (hcompleted : ∃ e ∈ (drain laws.handler (plan.analyze request) world).events,
      e.isOwnResult = true) :
    let found := w.findings plan.settings request.allFiles
    let stored := laws.cache.put laws.context (cacheLocation repository) repository.branch
      found.entities found.files repository (laws.askedFolder request repository world.folder)
    stored.result = .ok () ∧
      (drain laws.handler (plan.analyze request) world).state.folder = stored.folder := by
  intro found stored
  obtain ⟨_, hcourse⟩ := course_history laws.handler (plan.analyze request) world
  have hown : 0 < times .completes (history laws.handler (plan.analyze request) world) := by
    rw [times_completes, ← drain_events]
    exact List.countP_pos_iff.mpr hcompleted
  have hpasses := (finished_of_analyze hcourse).passes_of_completes hcached hown hlocation
  have hfits : ∀ moment ∈ history laws.handler (plan.analyze request) world,
      moment.IsVisit → moment.Fits w := by
    intro moment hmem hvisit
    apply WorldLaws.fits_of_isVisit hexamine hmodules hvisit (hshows moment hmem)
    rintro action answer rfl
    exact answer_of_mem_history hmem
  obtain ⟨asked, visit, last, hasked, hspares, hlast, heq⟩ :=
    hpasses.stores hfits fun moment hmem _ => hshows moment hmem
  have hanswer := answer_of_history heq
  have hfolder : (stateAfter laws.handler world (asked ++ visit)).folder =
      laws.askedFolder request repository world.folder :=
    folder_of_passes hcached hasked hspares
  rw [drain_state, heq, stateAfter_append]
  generalize stateAfter laws.handler world (asked ++ visit) = reached at hanswer hfolder ⊢
  simp only [WorldLaws.handler, WorldLaws.perform, World.withStep, hfolder] at hanswer
  refine ⟨?_, ?_⟩
  · cases hresult : stored.result with
    | ok _ => rfl
    | error failure =>
        rw [hresult] at hanswer
        cases hanswer
  · refine (WorldLaws.folder_stateAfter hlast _).trans ?_
    simp only [WorldLaws.handler, WorldLaws.perform, World.withStep, hfolder]
    rfl

/-- A whole run that has stored its result has handed it out. -/
theorem completed_of_stores {h : Handler σ} {state : σ}
    (hstores : 0 < times .stores (history h (plan.analyze request) state)) :
    ∃ e ∈ (drain h (plan.analyze request) state).events, e.isOwnResult = true := by
  obtain ⟨_, hcourse⟩ := course_history h (plan.analyze request) state
  obtain ⟨q, hrun, hfinal⟩ := (finished_of_analyze hcourse).stance Ran.stance
  have hstored := tally_run hrun (by decide : IsCounted .stores)
  have hcompletes := tally_run hrun (by decide : IsCounted .completes)
  have hown : 0 < q.tally plan.cached .completes := completes_of_stores hfinal (by omega)
  rw [hcompletes, times_completes, ← drain_events] at hown
  exact List.countP_pos_iff.mp (by simpa [tally] using hown)

/-- A run of its own is completed where the source behaves and the result can be stored. -/
theorem completed_of_put (hcached : plan.cached = true) (huse : request.useCache = false)
    (hlocation : Coordinates.ofLocation request.location request.branch = .ok repository)
    {mode : Mode} (hmode : modeOf plan.settings request = .ok mode)
    (hfits : ∀ action state, (Moment.action action (laws.perform action state).1).SparesCache →
      (Moment.action action (laws.perform action state).1).Fits w)
    (hshows : ∀ action state, (Moment.action action (laws.perform action state).1).SparesCache →
      (Moment.action action (laws.perform action state).1).Shows w repository)
    (hput : (laws.cache.put laws.context (cacheLocation repository) repository.branch
      (w.findings plan.settings request.allFiles).entities
      (w.findings plan.settings request.allFiles).files repository world.folder).result = .ok ()) :
    ∃ e ∈ (drain laws.handler (plan.analyze request) world).events, e.isOwnResult = true := by
  obtain ⟨_, hcourse⟩ := course_history laws.handler (plan.analyze request) world
  have hfitting : ∀ moment ∈ history laws.handler (plan.analyze request) world,
      moment.SparesCache → moment.Fits w ∧ moment.Shows w repository := by
    intro moment hmem hspares
    cases moment with
    | event e => exact ⟨trivial, trivial⟩
    | action action answer =>
        obtain ⟨reached, rfl⟩ := answer_of_mem_history hmem
        exact ⟨hfits action reached hspares, hshows action reached hspares⟩
  obtain ⟨first, rest, result, heq, hran⟩ := (finished_of_analyze hcourse).begins
  rw [heq] at hfitting
  have hfirst {moment : Moment} (hmem : moment ∈ first) : moment ∈ first ++ rest :=
    List.mem_append_left _ hmem
  have hpasses := hran.passes_of_fits hcached huse hlocation hmode
    fun moment hmem hspares => (hfitting moment (hfirst hmem) hspares).1
  obtain ⟨asked, visit, last, hasked, hspares, -, rfl⟩ := hpasses.stores
    (fun moment hmem hvisit => (hfitting moment (hfirst hmem) hvisit.sparesCache).1)
    fun moment hmem hspares => (hfitting moment (hfirst hmem) hspares).2
  rw [List.append_assoc, List.cons_append] at heq
  have hanswer := answer_of_history heq
  have hfolder : (stateAfter laws.handler world (asked ++ visit)).folder = world.folder := by
    rw [folder_of_passes hcached hasked hspares, WorldLaws.askedFolder, huse]
    rfl
  generalize stateAfter laws.handler world (asked ++ visit) = reached at hanswer hfolder
  simp only [WorldLaws.handler, WorldLaws.perform, World.withStep, hfolder, hput] at hanswer
  obtain rfl : result = .ok () := hanswer
  apply completed_of_stores
  rw [heq, times_append, times_cons]
  simp only [Moment.deed, if_true]
  omega

end Stored

end AnalysisPlan

end RepoAtlas
