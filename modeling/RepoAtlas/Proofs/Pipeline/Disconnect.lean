import RepoAtlas.Pipeline.World
import RepoAtlas.Proofs.Cache.Trouble
import RepoAtlas.Proofs.Pipeline.Stance

/-!
Runs that are left early. Whoever takes some events of a run and then leaves has
the first events of the whole run; the source is closed if it was opened, nothing
else happens after the last event, and a result is stored exactly if the event
that hands it out is taken.
-/
namespace RepoAtlas

namespace Script

variable {α σ : Type}

/-- The moments of a run until it has yielded `n` events, and of closing its source then. -/
def takenFrom (h : Handler σ) (isOpen : Bool) : (n : Nat) → Script α → σ → List Moment
  | 0, _, state =>
    if isOpen then [.action .closeSource (h.perform .closeSource state).1] else []
  | _ + 1, done _, _ => []
  | n + 1, emit event next, state => .event event :: takenFrom h isOpen n next state
  | n + 1, act action next, state =>
    .action action (h.perform action state).1 ::
      takenFrom h (isOpenAfter isOpen action (h.perform action state).1) (n + 1)
        (next (h.perform action state).1) (h.perform action state).2

/-- The moments of a run of which `n` events are taken. -/
def taken (h : Handler σ) (n : Nat) (s : Script α) (state : σ) : List Moment :=
  takenFrom h false n s state

/-- The state of a world after the actions among some moments. -/
def stateAfter (h : Handler σ) : σ → List Moment → σ
  | state, [] => state
  | state, .event _ :: rest => stateAfter h state rest
  | state, .action action _ :: rest => stateAfter h (h.perform action state).2 rest

/-- The events that are taken and the world that is left are those of the moments. -/
theorem takeFrom_eq (h : Handler σ) (isOpen : Bool) (n : Nat) (s : Script α) (state : σ) :
    takeFrom h isOpen n s state =
      ⟨eventsOf (takenFrom h isOpen n s state),
        stateAfter h state (takenFrom h isOpen n s state)⟩ := by
  induction s generalizing n isOpen state with
  | done value =>
      cases n with
      | zero => cases isOpen <;> rfl
      | succ n => rfl
  | emit event next ih =>
      cases n with
      | zero => cases isOpen <;> rfl
      | succ n =>
          rw [takeFrom, ih]
          rfl
  | act action next ih =>
      cases n with
      | zero => cases isOpen <;> rfl
      | succ n =>
          rw [takeFrom]
          exact ih _ _ _ _

theorem take_eq (h : Handler σ) (n : Nat) (s : Script α) (state : σ) :
    take h n s state = ⟨eventsOf (taken h n s state), stateAfter h state (taken h n s state)⟩ :=
  takeFrom_eq h false n s state

/-- The events that are taken are the first ones of the whole run. -/
theorem takeFrom_events (h : Handler σ) (isOpen : Bool) (n : Nat) (s : Script α) (state : σ) :
    (takeFrom h isOpen n s state).events = (drain h s state).events.take n := by
  induction s generalizing n isOpen state with
  | done value => cases n <;> rfl
  | emit event next ih =>
      cases n with
      | zero => rfl
      | succ n => exact congrArg (event :: ·) (ih isOpen n state)
  | act action next ih =>
      cases n with
      | zero => rfl
      | succ n =>
          rw [takeFrom, drain]
          exact ih _ _ _ _

/-- After the last event that is taken the source may be closed, and nothing else happens. -/
theorem quiet_takenFrom {h : Handler σ} {isOpen : Bool} {n : Nat} {s : Script α} {state : σ}
    {first last : List Moment} {e : Event}
    (heq : takenFrom h isOpen n s state = first ++ .event e :: last)
    (hlast : (eventsOf first).length + 1 = n) : ∀ moment ∈ last, moment.deed = .closes := by
  have hclosing (isOpen : Bool) (s : Script α) (state : σ) :
      ∀ moment ∈ takenFrom h isOpen 0 s state, moment.deed = .closes := by
    cases isOpen <;> simp [takenFrom, Moment.deed]
  obtain ⟨n, rfl⟩ : ∃ k, n = k + 1 := ⟨n - 1, by omega⟩
  induction s generalizing n isOpen state first with
  | done value => simp [takenFrom] at heq
  | emit event next ih =>
      rw [takenFrom] at heq
      cases first with
      | nil =>
          obtain rfl : n = 0 := by simpa using hlast.symm
          obtain ⟨-, rfl⟩ := List.cons.inj heq
          exact hclosing isOpen next state
      | cons moment first =>
          obtain ⟨rfl, hrest⟩ := List.cons.inj heq
          rw [eventsOf_event, List.length_cons] at hlast
          obtain ⟨n, rfl⟩ : ∃ k, n = k + 1 := ⟨n - 1, by omega⟩
          exact ih n hrest (by omega)
  | act action next ih =>
      rw [takenFrom] at heq
      cases first with
      | nil => cases (List.cons.inj heq).1
      | cons moment first =>
          obtain ⟨rfl, hrest⟩ := List.cons.inj heq
          exact ih _ n hrest (by simpa using hlast)

end Script

/-- What an event can do. -/
theorem Moment.deed_event (e : Event) :
    (Moment.event e).deed ∈ [Deed.shows, .completes, .replays, .fails] := by
  unfold Moment.deed
  split <;> simp_all

theorem Moment.deed_action_ne_completes {action : Action} (answer : Answer action) :
    (Moment.action action answer).deed ≠ .completes := by
  cases action with
  | openSource => cases answer <;> exact Deed.noConfusion
  | lookup location branch => rcases answer with failure | _ | record <;> exact Deed.noConfusion
  | store location branch entities files repository => cases answer <;> exact Deed.noConfusion
  | _ => exact Deed.noConfusion

/-- Whether the source is open depends on what an action does. -/
theorem isOpenAfter_eq (isOpen : Bool) (action : Action) (answer : Answer action) :
    isOpenAfter isOpen action answer =
      match (Moment.action action answer).deed with
      | .opens => true
      | .closes => false
      | _ => isOpen := by
  cases action with
  | openSource => cases answer <;> rfl
  | lookup location branch => rcases answer with failure | _ | record <;> rfl
  | store location branch entities files repository => cases answer <;> rfl
  | _ => rfl

namespace Stance

variable {cached : Bool} {p q : Stance}

/-- Whether a run stands between storing and the event that follows. -/
def isStoring : Stance → Bool
  | stored | unstored => true
  | _ => false

theorem of_step_event {e : Event} (h : p.step cached (Moment.event e).deed = some q) :
    decide (p = visiting) = decide (q = visiting) ∧ q.isStoring = false := by
  have hdeed := Moment.deed_event e
  generalize (Moment.event e).deed = d at *
  cases cached <;> cases p <;> cases d <;> simp_all [step] <;> simp [← h, isStoring]

/-- A run stands among the files exactly while its source is open. -/
theorem isOpenAfter_of_step {action : Action} {answer : Answer action}
    (h : p.step cached (Moment.action action answer).deed = some q) :
    isOpenAfter (decide (p = visiting)) action answer = decide (q = visiting) := by
  rw [isOpenAfter_eq]
  generalize (Moment.action action answer).deed = d at *
  cases cached <;> cases p <;> cases d <;> simp_all [step] <;> simp [← h]

section Left

open Script

variable {α σ : Type} {h : Handler σ} {s : Script α} {state : σ}

/-- Left at once, a run that stands among the files closes its source. -/
theorem run_takenFrom_zero (hstoring : p.isStoring = false) :
    ∃ q, run cached p (takenFrom h (decide (p = visiting)) 0 s state) = some q ∧
      q ≠ visiting ∧ q.isStoring = false := by
  by_cases hp : p = visiting
  · subst hp
    exact ⟨closed, by simp [takenFrom, run, step, Moment.deed], by decide, rfl⟩
  · exact ⟨p, by simp [takenFrom, hp, run], hp, hstoring⟩

/--
A run that is left stands where its source is closed, and where nothing has been
stored for which the event is still to come.
-/
theorem run_takenFrom {n : Nat} (hstart : n = 0 → p.isStoring = false) {r : Stance}
    (hwhole : run cached p (history h s state) = some r) (hfinal : r.isFinal = true) :
    ∃ q, run cached p (takenFrom h (decide (p = visiting)) n s state) = some q ∧
      q ≠ visiting ∧ q.isStoring = false := by
  induction s generalizing p n state with
  | done value =>
      cases n with
      | zero => exact run_takenFrom_zero (hstart rfl)
      | succ n =>
          obtain rfl := Option.some.inj hwhole
          refine ⟨p, rfl, ?_, ?_⟩ <;> cases p <;> simp_all [isFinal, isStoring]
  | emit event next ih =>
      cases n with
      | zero => exact run_takenFrom_zero (hstart rfl)
      | succ n =>
          obtain ⟨next, hstep, hrest⟩ := Option.bind_eq_some_iff.mp hwhole
          obtain ⟨hopen, hstoring⟩ := of_step_event hstep
          rw [takenFrom, hopen, run_cons_of_eq hstep]
          exact ih (fun _ => hstoring) hrest
  | act action next ih =>
      cases n with
      | zero => exact run_takenFrom_zero (hstart rfl)
      | succ n =>
          obtain ⟨next, hstep, hrest⟩ := Option.bind_eq_some_iff.mp hwhole
          rw [takenFrom, isOpenAfter_of_step hstep, run_cons_of_eq hstep]
          exact ih _ (fun hzero => by cases hzero) hrest

end Left

section Tallies

theorem tally_opens_le : q.tally cached .opens ≤ 1 := by
  cases q with
  | broken opened lost => exact Bool.toNat_le opened
  | _ => simp [tally]

theorem tally_closes (hq : q ≠ visiting) : q.tally cached .closes = q.tally cached .opens := by
  cases q with
  | visiting => exact absurd rfl hq
  | _ => rfl

theorem tally_stores (hstoring : q.isStoring = false) :
    q.tally cached .stores = if cached then q.tally cached .completes else 0 := by
  cases q with
  | stored | unstored => cases hstoring
  | _ => cases cached <;> rfl

theorem tally_puts_le :
    q.tally cached .stores + q.tally cached .losesStore ≤ cached.toNat := by
  cases q with
  | broken opened lost => cases lost <;> simp [tally]
  | _ => simp [tally]

theorem tally_losesStore_le (hstoring : q.isStoring = false) :
    q.tally cached .losesStore ≤ q.tally cached .fails := by
  cases q with
  | stored | unstored => cases hstoring
  | broken opened lost => exact Bool.toNat_le _
  | _ => simp [tally]

theorem unstored_of_finds (h : 0 < q.tally cached .finds) :
    q.tally cached .stores = 0 ∧ q.tally cached .losesStore = 0 := by
  cases q with
  | replaying | replayed => exact ⟨rfl, rfl⟩
  | _ => cases h

theorem unstored_of_fails (h : 0 < q.tally cached .fails) : q.tally cached .stores = 0 := by
  cases q with
  | broken opened lost => rfl
  | _ => cases h

/-- A run hands out its result after it has stored it, if it stores it at all. -/
theorem tally_stores_of_step (h : p.step cached .completes = some q) :
    p.tally cached .stores = cached.toNat := by
  cases p with
  | stored => rfl
  | closed =>
      cases cached with
      | true => cases h
      | false => rfl
  | _ => cases h

end Tallies

end Stance

/-- Whether an event hands out a result of the run's own. -/
def Event.isOwnResult : Event → Bool
  | complete _ _ _ fromCache => !fromCache
  | _ => false

theorem times_completes (moments : List Moment) :
    times .completes moments = (eventsOf moments).countP Event.isOwnResult := by
  induction moments with
  | nil => rfl
  | cons moment rest ih =>
      cases moment with
      | event e =>
          rw [times_cons, eventsOf_event, List.countP_cons, ih]
          congr 1
          cases e with
          | complete entities totalFiles analyzedFiles fromCache =>
              cases fromCache <;> simp [Moment.deed, Event.isOwnResult]
          | _ => simp [Moment.deed, Event.isOwnResult]
      | action action answer =>
          rw [times_cons, eventsOf_action, if_neg (Moment.deed_action_ne_completes answer), ih,
            Nat.add_zero]

/--
What holds of a run of which `n` events are taken. A result that cannot be stored,
because the cache itself fails, is the one case in which it is passed to the cache
and is not handed out.
-/
structure LeftCleanly (cached : Bool) {σ : Type} (h : Handler σ) (n : Nat) (s : Script Unit)
    (state : σ) : Prop where
  /-- The events and the world that is left are those of the moments. -/
  moments : Script.take h n s state =
    ⟨eventsOf (Script.taken h n s state), Script.stateAfter h state (Script.taken h n s state)⟩
  first_events : (Script.take h n s state).events = (Script.drain h s state).events.take n
  opens_once : times .opens (Script.taken h n s state) ≤ 1
  closes : times .closes (Script.taken h n s state) = times .opens (Script.taken h n s state)
  /-- After the last event the source may be closed, and nothing else happens. -/
  quiet : ∀ first e last, Script.taken h n s state = first ++ .event e :: last →
    (eventsOf first).length + 1 = n → ∀ moment ∈ last, moment.deed = .closes
  stores : times .stores (Script.taken h n s state) =
    if cached then (Script.take h n s state).events.countP Event.isOwnResult else 0
  puts_once : times .stores (Script.taken h n s state) +
    times .losesStore (Script.taken h n s state) ≤ cached.toNat
  stores_first : ∀ first moment last, Script.taken h n s state = first ++ moment :: last →
    moment.deed = .completes → times .stores first = cached.toNat
  loses_shown : times .losesStore (Script.taken h n s state) ≤
    times .fails (Script.taken h n s state)
  replays_unstored : 0 < times .finds (Script.taken h n s state) →
    times .stores (Script.taken h n s state) = 0 ∧
      times .losesStore (Script.taken h n s state) = 0
  fails_unstored : 0 < times .fails (Script.taken h n s state) →
    times .stores (Script.taken h n s state) = 0

open Stance in
theorem leftCleanly_of_run {cached : Bool} {σ : Type} {h : Handler σ} {n : Nat}
    {s : Script Unit} {state : σ} {r : Stance}
    (hwhole : Stance.run cached .fresh (Script.history h s state) = some r)
    (hfinal : r.isFinal = true) : LeftCleanly cached h n s state := by
  obtain ⟨q, hrun, hq, hstoring⟩ := run_takenFrom (n := n) (fun _ => rfl) hwhole hfinal
  change Stance.run cached .fresh (Script.taken h n s state) = some q at hrun
  have htally {d : Deed} (hd : IsCounted d) :
      times d (Script.taken h n s state) = q.tally cached d := by
    have hcount := tally_run hrun hd
    rw [hcount]
    cases d <;> simp [tally]
  have hevents : (Script.take h n s state).events = eventsOf (Script.taken h n s state) := by
    rw [Script.take_eq]
  exact {
    moments := Script.take_eq h n s state
    first_events := Script.takeFrom_events h false n s state
    quiet := fun first e last heq hlast => Script.quiet_takenFrom heq hlast
    opens_once := by
      rw [htally (by decide)]
      exact tally_opens_le
    closes := by
      rw [htally (by decide), htally (by decide)]
      exact tally_closes hq
    stores := by
      rw [hevents, ← times_completes, htally (by decide), htally (by decide)]
      exact tally_stores hstoring
    puts_once := by
      rw [htally (by decide), htally (by decide)]
      exact tally_puts_le
    stores_first := by
      intro first moment last heq hdeed
      rw [heq, Stance.run_append] at hrun
      obtain ⟨p, hfirst, hrest⟩ := Option.bind_eq_some_iff.mp hrun
      obtain ⟨next, hstep, -⟩ := Option.bind_eq_some_iff.mp hrest
      have hcount := tally_run hfirst (by decide : IsCounted .stores)
      rw [hdeed] at hstep
      rw [tally_stores_of_step hstep] at hcount
      exact (hcount.trans (Nat.zero_add _)).symm
    loses_shown := by
      rw [htally (by decide), htally (by decide)]
      exact tally_losesStore_le hstoring
    replays_unstored := by
      rw [htally (by decide), htally (by decide), htally (by decide)]
      exact unstored_of_finds
    fails_unstored := by
      rw [htally (by decide), htally (by decide)]
      exact unstored_of_fails }

open AnalysisPlan in
/--
Whoever takes some events of an analysis and leaves has the first events of the
whole run, a closed source, and a stored result exactly if it was handed out.
-/
theorem runs_left_early_are_clean {σ : Type} (h : Handler σ) (state : σ) (plan : AnalysisPlan)
    (request : AnalysisRequest) (path : String) (allFiles : Bool) (n : Nat) :
    LeftCleanly plan.cached h n (plan.analyze request) state ∧
      LeftCleanly false h n (plan.analyzeFolder path allFiles) state := by
  constructor
  · obtain ⟨_, hcourse⟩ := Script.course_history h (plan.analyze request) state
    obtain ⟨r, hwhole, hfinal⟩ := (finished_of_analyze hcourse).stance Ran.stance
    exact leftCleanly_of_run hwhole hfinal
  · obtain ⟨_, hcourse⟩ := Script.course_history h (plan.analyzeFolder path allFiles) state
    obtain ⟨r, hwhole, hfinal⟩ := (folderRan_of_course hcourse).stance
    exact leftCleanly_of_run hwhole hfinal

/-- In a world with a cache a result is lost exactly where the cache fails to put it. -/
theorem losesStore_iff_put_fails {σ : Type} {laws : WorldLaws σ} {w : World σ}
    {location branch : String} {entities : List Entity} {files : List FileRecord}
    {repository : Coordinates} :
    (Moment.action (.store location branch entities files repository)
      (laws.perform (.store location branch entities files repository) w).1).deed = .losesStore ↔
      (laws.cache.put laws.context location branch entities files repository w.folder).Fails := by
  simp only [WorldLaws.perform, World.withStep, CacheStep.Fails]
  cases (laws.cache.put laws.context location branch entities files repository w.folder).result <;>
    simp [Except.mapError, Moment.deed]

namespace LostResult

/-- A repository without files. -/
def source : Source Unit where
  choose _ _ := ⟨.ok ⟨⟨"acme", "widgets", "main"⟩, ""⟩, (), []⟩
  openIt _ := ⟨.ok (), (), []⟩
  closeIt _ := ⟨.ok (), (), []⟩
  list _ := ⟨.ok [], (), []⟩
  read path _ := ⟨.error (.unreadableFile path "gone"), (), []⟩

def laws : WorldLaws Unit where
  source
  cache := { directory := ".cache/repos" }
  context := ⟨.zero, .zero, ".tmp-.part", fun _ => none⟩

/-- The cache's folder holds one file, of nothing but brackets. -/
def entries : Entries :=
  [("deep.json", .file (Utf8.encode (String.ofList (List.replicate 100000 '['))) .zero)]

def world : World Unit where
  source := ()
  folder := .present entries

def request : AnalysisRequest where
  location := "acme/widgets"
  useCache := false

theorem onlyFiles : OnlyFiles entries := by
  intro entry hmem
  obtain rfl := List.mem_singleton.mp hmem
  exact ⟨_, _, rfl⟩

theorem put_fails (location branch : String) (entities : List Entity) (files : List FileRecord)
    (repository : Coordinates) :
    (laws.cache.put laws.context location branch entities files repository
      (.present entries)).Fails := by
  obtain ⟨record, hrecord⟩ : ∃ record, laws.cache.newRecord laws.context.now location branch
      entities files repository = .ok record := ⟨_, rfl⟩
  have hkey : IsRecordKey record.key := by
    obtain rfl := Except.ok.inj hrecord
    exact isRecordKey_hexDigest _
  have hother : recordName record.key ≠ "deep.json" := hkey.recordName_ne (by decide)
  have hwrite : laws.cache.writeRecord laws.context (recordName record.key) record.toBytes entries =
      (Table.set (recordName record.key) (.file record.toBytes .zero) entries, none) :=
    onlyFiles.writeRecord_eq laws.cache (fun _ => rfl) (hkey.recordName_ne (by decide)).symm
      (by decide) record.toBytes
  have hnested : CacheRecord.Nested
      (Utf8.encode (String.ofList (List.replicate 100000 '['))) :=
    CacheRecord.nested_brackets (by decide)
  refine RepoCache.put_fails_iff.mpr (.inr ⟨record, hrecord, rfl, entries, _, rfl, hwrite,
    "deep.json", ?_, _, .zero, stat_of_file (by decide) (by decide) ?_, hnested⟩)
  · rw [recordNames, List.mem_mergeSort, List.mem_filter, Table.map_fst_set]
    exact ⟨Text.mem_addNew.mpr (.inl (by decide)), by decide⟩
  · rw [Table.get?_set, if_neg hother]
    rfl

/-- The result that is passed to the cache. -/
def storing : Action :=
  .store "https://github.com/acme/widgets" "main" [] [] ⟨"acme", "widgets", "main"⟩

/-- The run lists no files, closes its source, and passes its result to the cache. -/
theorem taken_eq : ∃ (first last : List Moment) (w : World Unit),
    Script.taken laws.handler 4 (AnalysisPlan.analyze {} request) world =
      first ++ .action storing (laws.perform storing w).1 :: last ∧ w.folder = world.folder := by
  have hlocation : Coordinates.ofLocation request.location request.branch =
      .ok ⟨"acme", "widgets", "main"⟩ := by decide +kernel
  have hmode : AnalysisPlan.modeOf ({} : AnalysisPlan).settings request = .ok .remote := by decide
  unfold AnalysisPlan.analyze AnalysisPlan.run
  rw [hlocation, hmode]
  exact ⟨[_, _, _, _, _, _, _, _, _], _, _, by with_unfolding_all rfl, by rfl⟩

/-- A result can be passed to the cache and yet not be handed out. -/
theorem not_every_put_is_handed_out :
    ¬∀ (laws : WorldLaws Unit) (world : World Unit) (plan : AnalysisPlan)
        (request : AnalysisRequest) (n : Nat), plan.cached = true →
      (times .stores (Script.taken laws.handler n (plan.analyze request) world) +
          times .losesStore (Script.taken laws.handler n (plan.analyze request) world) = 1 ↔
        ∃ e ∈ (Script.take laws.handler n (plan.analyze request) world).events,
          e.isOwnResult = true) := by
  intro hclaim
  have hclean := (runs_left_early_are_clean laws.handler world {} request "" false 4).1
  obtain ⟨first, last, w, htaken, hfolder⟩ := taken_eq
  have hlost : 0 < times .losesStore
      (Script.taken laws.handler 4 (AnalysisPlan.analyze {} request) world) := by
    have hdeed : (Moment.action storing (laws.perform storing w).1).deed = .losesStore := by
      refine losesStore_iff_put_fails.mpr ?_
      rw [hfolder]
      exact put_fails _ _ _ _ _
    rw [htaken, times_append, times_cons, if_pos hdeed]
    omega
  have honce := hclean.puts_once
  have hstores := hclean.stores
  simp only [Bool.toNat_true, if_true] at honce hstores
  have hown := (hclaim laws world {} request 4 rfl).mp (by omega)
  have hcount := List.countP_pos_iff.mpr hown
  omega

end LostResult

end RepoAtlas
