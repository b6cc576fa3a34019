import RepoAtlas.Proofs.Pipeline.Completion

/-!
Sources that offer some holdings from when they are opened until they are closed: a
run of its own over such a source stores what there is to be found in them.
-/
namespace RepoAtlas

namespace Script

variable {α σ : Type} {h : Handler σ}

/-- Whether all answers in some moments are those that a world gives, one after the other. -/
def Answered (h : Handler σ) : σ → List Moment → Prop
  | _, [] => True
  | state, .event _ :: rest => Answered h state rest
  | state, .action action answer :: rest =>
    answer = (h.perform action state).1 ∧ Answered h (h.perform action state).2 rest

/-- The moments of a run have the answers of its world. -/
theorem answered_of_history {s : Script α} {state : σ} {moments : List Moment}
    (heq : history h s state = moments) : Answered h state moments := by
  induction s generalizing state moments with
  | done value =>
      subst heq
      trivial
  | emit event next ih =>
      subst heq
      have hrest : Answered h state (history h next state) := ih rfl
      exact hrest
  | act action next ih =>
      subst heq
      exact ⟨rfl, ih _ rfl⟩

theorem answered_append {state : σ} {first last : List Moment} :
    Answered h state (first ++ last) ↔
      Answered h state first ∧ Answered h (stateAfter h state first) last := by
  induction first generalizing state with
  | nil => simp [Answered, stateAfter]
  | cons moment first ih =>
      cases moment with
      | event e => exact ih
      | action action answer => exact (and_congr_right fun _ => ih).trans and_assoc.symm

end Script

/-- Whether a moment is one in which a result is passed to the cache. -/
def Moment.isStore : Moment → Bool
  | action (.store ..) _ => true
  | _ => false

/-- What becomes of the result of a run: it is passed to the cache once, as it was found. -/
def Keeps (found : Findings) (repository : Coordinates) (moments : List Moment) : Prop :=
  ∃ answer, moments.filter Moment.isStore =
    [.action (.store (AnalysisPlan.cacheLocation repository) repository.branch found.entities
      found.files repository) answer]

/--
Whether a source that is chosen for an origin is one of a repository, can be opened,
and gives some holdings until it is closed. `chosen` and `opened` are the states in
which it is before it is opened and from then on.
-/
structure Source.Offers {σ : Type} (source : Source σ) (origin : Origin)
    (repository : Coordinates) (w : Holdings) (chosen opened : σ → Prop) : Prop where
  choose : ∀ state, ∃ info, (source.choose origin state).result = .ok info ∧
    info.repository = repository ∧ chosen (source.choose origin state).state
  openIt : ∀ state, chosen state →
    (source.openIt state).result = .ok () ∧ opened (source.openIt state).state
  list : ∀ state, opened state →
    (source.list state).result = .ok w.listed ∧ opened (source.list state).state
  read : ∀ state, opened state → ∀ file ∈ w.listed, file.type = .blob →
    Moment.Shows w repository (.action (.read file.path) (source.read file.path state).result) ∧
      opened (source.read file.path state).state
  closeIt : ∀ state, opened state → (source.closeIt state).result = .ok ()

namespace AnalysisPlan

open Script

/-- What is read in a visit is the file that is visited. -/
theorem Visited.path_of_read {name path : String} {moments : List Moment}
    {found : Except Failure (Option (Option Entity))} (h : Visited name moments found) {answer}
    (hread : .action (.read path) answer ∈ moments) : name = path := by
  cases h with
  | unreadable shown reason record reply =>
      rcases List.mem_cons.mp hread with heq | hlater
      · cases heq
        rfl
      · simp at hlater
  | fails failure hfailure =>
      cases List.mem_singleton.mp hread
      rfl
  | reads content hexamined =>
      rcases List.mem_cons.mp hread with heq | hlater
      · cases heq
        rfl
      · cases hexamined <;> simp at hlater

theorem read_not_mem_pauseAt (s : AnalysisSettings) (index : Nat) (path : String) (answer) :
    .action (.read path) answer ∉ pauseAt s index := by
  unfold pauseAt
  split <;> simp

/-- Only files that are walked through are read. -/
theorem Walked.mem_of_read {s : AnalysisSettings} {total index : Nat} {files : List FileRecord}
    {moments : List Moment} {result : Except Failure Tally}
    (h : Walked s total index files moments result) {path : String} {answer}
    (hmem : .action (.read path) answer ∈ moments) : ∃ file ∈ files, file.path = path := by
  induction h with
  | nil index => cases hmem
  | pauseFails file rest failure hpauses => simp at hmem
  | visitFails rest hvisited =>
      rcases List.mem_append.mp hmem with hmem | hmem
      · exact absurd hmem (read_not_mem_pauseAt _ _ _ _)
      · rcases List.mem_cons.mp hmem with heq | hmem
        · cases heq
        · exact ⟨_, List.mem_cons_self, hvisited.path_of_read hmem⟩
  | cons hvisited hrest ih =>
      rcases List.mem_append.mp hmem with hmem | hmem
      · exact absurd hmem (read_not_mem_pauseAt _ _ _ _)
      · rcases List.mem_cons.mp hmem with heq | hmem
        · cases heq
        · rcases List.mem_append.mp hmem with hmem | hmem
          · exact ⟨_, List.mem_cons_self, hvisited.path_of_read hmem⟩
          · obtain ⟨file, hfile, hpath⟩ := ih hmem
            exact ⟨file, List.mem_cons_of_mem _ hfile, hpath⟩

section Offers

variable {σ : Type} {laws : WorldLaws σ} {mode : Mode} {repository : Coordinates} {w : Holdings}
  {chosen opened : σ → Prop} {plan : AnalysisPlan} {request : AnalysisRequest} {world : World σ}
  {moments : List Moment}

/-- Whether what is answered in some moments fits, where the cache is left alone. -/
def FitsApart (w : Holdings) (repository : Coordinates) (moments : List Moment) : Prop :=
  ∀ moment ∈ moments, moment.SparesCache → moment.Fits w ∧ moment.Shows w repository

theorem fitsApart_cons {moment : Moment} :
    FitsApart w repository (moment :: moments) ↔
      (moment.SparesCache → moment.Fits w ∧ moment.Shows w repository) ∧
        FitsApart w repository moments :=
  List.forall_mem_cons

theorem fitsApart_append {first last : List Moment} :
    FitsApart w repository (first ++ last) ↔
      FitsApart w repository first ∧ FitsApart w repository last :=
  List.forall_mem_append

theorem OnlyReports.fitsApart (h : OnlyReports moments) : FitsApart w repository moments := by
  intro moment hmem _
  obtain ⟨record, answer, rfl⟩ := h moment hmem
  exact ⟨trivial, trivial⟩

/-- After the source is closed, only the cache gives answers that matter. -/
theorem Concluded.fitsApart {place : Option String} {there : Coordinates} {found : Survey}
    {result : Except Failure Unit} (h : Concluded place there found moments result) :
    FitsApart w repository moments := by
  cases h with
  | storeFails location hplace hreports failure =>
      exact fitsApart_append.mpr
        ⟨hreports.fitsApart, fitsApart_cons.mpr ⟨False.elim, fun _ hmem => absurd hmem (by simp)⟩⟩
  | completes hreports record answer =>
      rw [fitsApart_append, fitsApart_append]
      refine ⟨⟨hreports.fitsApart, ?_⟩, ?_⟩
      · intro moment hmem hspares
        cases place with
        | none => simp [storedAt] at hmem
        | some location =>
            obtain rfl := List.mem_singleton.mp hmem
            exact absurd hspares id
      · intro moment hmem _
        simp only [List.mem_cons, List.not_mem_nil, or_false] at hmem
        rcases hmem with rfl | rfl <;> exact ⟨trivial, trivial⟩

/-- Before a source is chosen, only the cache gives answers that matter. -/
theorem Asked.fitsApart {there : Coordinates} {answer : Except Failure (Option CacheRecord)}
    (h : Asked plan request there moments answer) : FitsApart w repository moments := by
  cases h with
  | skips => simp [FitsApart]
  | asks =>
      rw [fitsApart_cons, fitsApart_cons]
      exact ⟨fun _ => ⟨trivial, trivial⟩, False.elim, fun _ hmem => absurd hmem (by simp)⟩

/-- In a visit, an open source shows its holdings and stays open. -/
theorem shows_of_visit (h : laws.source.Offers (.hosted repository mode) repository w chosen opened)
    (hopened : opened world.source) (hvisit : ∀ moment ∈ moments, moment.IsVisit)
    (hreads : ∀ path answer, .action (.read path) answer ∈ moments →
      ∃ file ∈ w.listed, file.type = .blob ∧ file.path = path)
    (hanswered : Answered laws.handler world moments) :
    (∀ moment ∈ moments, moment.Shows w repository) ∧
      opened (stateAfter laws.handler world moments).source := by
  induction moments generalizing world with
  | nil => exact ⟨by simp, hopened⟩
  | cons moment moments ih =>
      obtain ⟨hfirst, hrest⟩ := List.forall_mem_cons.mp hvisit
      have hreadsRest : ∀ path answer, .action (.read path) answer ∈ moments →
          ∃ file ∈ w.listed, file.type = .blob ∧ file.path = path :=
        fun path answer hmem => hreads path answer (List.mem_cons_of_mem _ hmem)
      rw [List.forall_mem_cons]
      cases moment with
      | event e =>
          obtain ⟨hshows, hstays⟩ := ih hopened hrest hreadsRest hanswered
          exact ⟨⟨trivial, hshows⟩, hstays⟩
      | action action answer =>
          obtain ⟨rfl, hlater⟩ := hanswered
          have hstep : Moment.Shows w repository
              (.action action (laws.handler.perform action world).1) ∧
              opened (laws.handler.perform action world).2.source := by
            cases action with
            | list => exact h.list _ hopened
            | read path =>
                obtain ⟨file, hfile, hblob, rfl⟩ := hreads path _ List.mem_cons_self
                exact h.read _ hopened file hfile hblob
            | examine path text => exact ⟨trivial, hopened⟩
            | pause delay => exact ⟨trivial, hopened⟩
            | report record => exact ⟨trivial, hopened⟩
            | _ => exact absurd hfirst id
          obtain ⟨hshows, hstays⟩ := ih hstep.2 hrest hreadsRest hlater
          exact ⟨⟨hstep.1, hshows⟩, hstays⟩

theorem surveyed_of_offers
    (h : laws.source.Offers (.hosted repository mode) repository w chosen opened)
    (hexamine : ∀ path text, laws.examine path text = .ok <$> Entity.ofFile path text)
    (hmodules : w.OfModules) {s : AnalysisSettings} {allFiles : Bool}
    {result : Except Failure Survey} (hsurveyed : Surveyed s repository allFiles moments result)
    (hopened : opened world.source) (hanswered : Answered laws.handler world moments) :
    FitsApart w repository moments ∧ opened (stateAfter laws.handler world moments).source := by
  have hvisit := hsurveyed.isVisit
  have hreads : ∀ path answer, .action (.read path) answer ∈ moments →
      ∃ file ∈ w.listed, file.type = .blob ∧ file.path = path := by
    intro path answer hmem
    cases hsurveyed with
    | listFails failure => simp at hmem
    | lists listed hchosen hwalked =>
        obtain rfl : listed = w.listed :=
          Except.ok.inj (hanswered.1.trans (h.list _ hopened).1)
        obtain ⟨file, hfile, hpath⟩ := hwalked.mem_of_read (by simpa using hmem)
        rw [hchosen] at hfile
        obtain ⟨hkept, hselectable⟩ := mem_of_mem_selectCandidates hfile
        exact ⟨file, (List.mem_filter.mp hkept).1, type_of_isSelectable hselectable, hpath⟩
  obtain ⟨hshows, hstays⟩ := shows_of_visit h hopened hvisit hreads hanswered
  refine ⟨fun moment hmem _ => ⟨?_, hshows moment hmem⟩, hstays⟩
  apply WorldLaws.fits_of_isVisit hexamine hmodules (hvisit moment hmem) (hshows moment hmem)
  rintro action answer rfl
  obtain ⟨first, last, rfl⟩ := List.append_of_mem hmem
  exact ⟨_, (answered_append.mp hanswered).2.1⟩

/-- From when it is opened, the source of an analysis gives answers that fit. -/
theorem analyzed_of_offers
    (h : laws.source.Offers (.hosted repository mode) repository w chosen opened)
    (hexamine : ∀ path text, laws.examine path text = .ok <$> Entity.ofFile path text)
    (hmodules : w.OfModules) {s : AnalysisSettings} {allFiles : Bool} {place : Option String}
    {result : Except Failure Unit}
    (hanalyzed : Analyzed s repository allFiles place moments result)
    (hchosen : chosen world.source) (hanswered : Answered laws.handler world moments) :
    FitsApart w repository moments := by
  obtain ⟨hopens, hopened⟩ := h.openIt _ hchosen
  cases hanalyzed with
  | openFails failure => cases hanswered.1.trans hopens
  | surveyFails hsurveyed closing failure hfailure =>
      obtain ⟨hinner, hclosing⟩ := answered_append.mp hanswered.2
      obtain ⟨hfits, hstays⟩ := surveyed_of_offers h hexamine hmodules hsurveyed hopened hinner
      have hcloses : closing = .ok () := hclosing.1.trans (h.closeIt _ hstays)
      rw [List.cons_append, fitsApart_cons, fitsApart_append, fitsApart_cons]
      exact ⟨fun _ => ⟨rfl, trivial⟩, hfits, fun _ => ⟨hcloses, trivial⟩,
        fun _ hmem => absurd hmem (by simp)⟩
  | concludes hsurveyed hconcluded =>
      obtain ⟨hinner, hlater⟩ := answered_append.mp hanswered.2
      obtain ⟨hfits, hstays⟩ := surveyed_of_offers h hexamine hmodules hsurveyed hopened hinner
      rw [List.cons_append, fitsApart_cons, fitsApart_append, fitsApart_cons]
      exact ⟨fun _ => ⟨rfl, trivial⟩, hfits, fun _ => ⟨rfl, trivial⟩, hconcluded.fitsApart⟩

theorem fitsApart_fetching {record : LogRecord} {answer : Answer (.report record)}
    {info : SourceInfo} (hrepository : info.repository = repository) :
    FitsApart w repository (fetching repository mode record answer (.ok info)) := by
  rw [fetching, fitsApart_cons, fitsApart_cons, fitsApart_cons]
  refine ⟨fun _ => ⟨trivial, trivial⟩, fun _ => ⟨trivial, trivial⟩, fun _ => ⟨⟨_, rfl⟩, ?_⟩,
    fun _ hmem => absurd hmem (by simp)⟩
  rintro shown heq
  obtain rfl := Except.ok.inj heq
  exact hrepository

/-- In a run over a source, all that is answered fits what it offers, the cache apart. -/
theorem ran_of_offers
    (h : laws.source.Offers (.hosted repository mode) repository w chosen opened)
    (hexamine : ∀ path text, laws.examine path text = .ok <$> Entity.ofFile path text)
    (hmodules : w.OfModules)
    (hlocation : Coordinates.ofLocation request.location request.branch = .ok repository)
    (hmode : modeOf plan.settings request = .ok mode) {result : Except Failure Unit}
    (hran : Ran plan request moments result) (hanswered : Answered laws.handler world moments) :
    FitsApart w repository moments := by
  cases hran with
  | badLocation failure hbad => simp [FitsApart]
  | badMode failure hbad => simp [FitsApart]
  | lookupFails hlocation' hasked => exact hasked.fitsApart
  | replays hlocation' hasked =>
      refine fitsApart_append.mpr ⟨hasked.fitsApart, fun moment hmem _ => ?_⟩
      obtain ⟨e, -, rfl⟩ := List.mem_map.mp hmem
      exact ⟨trivial, trivial⟩
  | chooseFails hlocation' hmode' hasked record answer failure =>
      obtain rfl := Except.ok.inj (hlocation.symm.trans hlocation')
      obtain rfl := Except.ok.inj (hmode.symm.trans hmode')
      obtain ⟨-, hlater⟩ := answered_append.mp hanswered
      obtain ⟨info, hinfo, -⟩ := h.choose (stateAfter laws.handler world _).source
      cases hlater.2.1.trans hinfo
  | analyzes hlocation' hmode' hasked record answer source hanalyzed =>
      obtain rfl := Except.ok.inj (hlocation.symm.trans hlocation')
      obtain rfl := Except.ok.inj (hmode.symm.trans hmode')
      obtain ⟨hfirst, hlater⟩ := answered_append.mp hanswered
      obtain ⟨-, hfetched⟩ := answered_append.mp hfirst
      next asked inner =>
      obtain ⟨info, hinfo, hrepository, hchosen⟩ :=
        h.choose (stateAfter laws.handler world asked).source
      obtain rfl : source = info := Except.ok.inj (hfetched.2.1.trans hinfo)
      rw [hrepository] at hanalyzed
      rw [stateAfter_append] at hlater
      rw [fitsApart_append, fitsApart_append]
      exact ⟨⟨hasked.fitsApart, fitsApart_fetching hrepository⟩,
        analyzed_of_offers h hexamine hmodules hanalyzed hchosen hlater⟩

theorem filter_isStore_of_sparesCache (h : ∀ moment ∈ moments, moment.SparesCache) :
    moments.filter Moment.isStore = [] := by
  apply List.filter_eq_nil_iff.mpr
  intro moment hmem hstore
  have hspares := h moment hmem
  cases moment with
  | event e => cases hstore
  | action action answer => cases action <;> first | exact hspares | cases hstore

theorem Asked.filter_isStore {there : Coordinates} {answer : Except Failure (Option CacheRecord)}
    (h : Asked plan request there moments answer) : moments.filter Moment.isStore = [] := by
  cases h <;> rfl

/-- Where the cache has no record, it is not asked, or it says so. -/
theorem Asked.answer_of_miss {answer : Except Failure (Option CacheRecord)} {later : List Moment}
    (h : Asked plan request repository moments answer)
    (hmiss : request.useCache = true → (laws.cache.get laws.context.now (cacheLocation repository)
      repository.branch world.folder).result = .ok none)
    (hanswered : Answered laws.handler world (moments ++ later)) : answer = .ok none := by
  cases h with
  | skips => rfl
  | asks hcache =>
      rw [Bool.and_eq_true] at hcache
      have hlookup : answer = (laws.handler.perform
          (.lookup (cacheLocation repository) repository.branch) world).1 := hanswered.1
      simp only [WorldLaws.handler, WorldLaws.perform, World.withStep, hmiss hcache.1] at hlookup
      exact hlookup

section Miss

variable (h : laws.source.Offers (.hosted repository mode) repository w chosen opened)
  (hexamine : ∀ path text, laws.examine path text = .ok <$> Entity.ofFile path text)
  (hmodules : w.OfModules) (hcached : plan.cached = true)
  (hlocation : Coordinates.ofLocation request.location request.branch = .ok repository)
  (hmode : modeOf plan.settings request = .ok mode)
  (hmiss : request.useCache = true → (laws.cache.get laws.context.now (cacheLocation repository)
    repository.branch world.folder).result = .ok none)

include h hexamine hmodules hcached hlocation hmode hmiss

/-- A run that finds no record keeps what is found, whatever comes after it but for the cache. -/
theorem Ran.keeps_of_offers {rest : List Moment} {result : Except Failure Unit}
    (hran : Ran plan request moments result) (hanswered : Answered laws.handler world moments)
    (hrest : ∀ moment ∈ rest, moment.SparesCache) :
    Keeps (w.findings plan.settings request.allFiles) repository (moments ++ rest) := by
  have hfits := ran_of_offers h hexamine hmodules hlocation hmode hran hanswered
  have hpasses := hran.passes_of_miss (w := w) hcached hlocation hmode ?_
    fun moment hmem hspares => (hfits moment hmem hspares).1
  · obtain ⟨asked, visit, last, hasked, hspares, hlast, rfl⟩ := hpasses.stores
      (fun moment hmem hvisit => (hfits moment hmem hvisit.sparesCache).1)
      fun moment hmem hspares => (hfits moment hmem hspares).2
    refine ⟨result, ?_⟩
    simp only [List.filter_append, hasked.filter_isStore, filter_isStore_of_sparesCache hspares,
      List.filter_cons, Moment.isStore, filter_isStore_of_sparesCache hlast,
      filter_isStore_of_sparesCache hrest]
    rfl
  · rintro asked answer hasked ⟨later, rfl⟩
    exact hasked.answer_of_miss hmiss hanswered

/-- A run that finds no record keeps what is found in the holdings that its source offers. -/
theorem keeps_of_offers :
    Keeps (w.findings plan.settings request.allFiles) repository
      (history laws.handler (plan.analyze request) world) := by
  obtain ⟨_, hcourse⟩ := course_history laws.handler (plan.analyze request) world
  have hfinished := finished_of_analyze hcourse
  generalize hmoments : history laws.handler (plan.analyze request) world = moments at *
  have hanswered := answered_of_history hmoments
  cases hfinished with
  | succeeds hran =>
      rw [← List.append_nil moments]
      exact hran.keeps_of_offers h hexamine hmodules hcached hlocation hmode hmiss hanswered
        (by simp)
  | fails hran record answer =>
      apply hran.keeps_of_offers h hexamine hmodules hcached hlocation hmode hmiss
        (answered_append.mp hanswered).1
      simp [Moment.SparesCache]

end Miss

end Offers

end AnalysisPlan

end RepoAtlas
