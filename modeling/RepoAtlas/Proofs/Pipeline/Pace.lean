import RepoAtlas.Proofs.Pipeline.FolderRun
import RepoAtlas.Proofs.Pipeline.Pauses

/-!
The pace of a run: with every so many files looked into there is one pause before the next
file, and there is no other pause, whatever comes of the files.
-/
namespace RepoAtlas

/-- What shows of a run in time: its events, and the pauses between them. -/
inductive Beat where
  | event (e : Event)
  | pause (delay : Quantity)

def Beat.delay? : Beat → Option Quantity
  | event _ => none
  | pause delay => some delay

namespace Moment

def beat? : Moment → Option Beat
  | event e => some (.event e)
  | action (.pause delay) _ => some (.pause delay)
  | action .. => none

def listing? : Moment → Option (List FileRecord)
  | action .list (.ok listed) => some listed
  | _ => none

/-- Whether a pause ends, and reading fails for nothing but the file. -/
def GoesOn : Moment → Prop
  | action (.pause _) answer => answer = .ok ()
  | action (.read _) answer => ∀ failure, answer = .error failure → failure.IsUnreadable
  | _ => True

/-- Whether a moment is neither a pause nor the listing of some files. -/
def IsQuiet : Moment → Prop
  | action (.pause _) _ | action .list (.ok _) => False
  | _ => True

theorem IsQuiet.delay? {moment : Moment} (h : moment.IsQuiet) :
    moment.beat?.bind Beat.delay? = none := by
  cases moment with
  | event e => rfl
  | action action answer => cases action <;> first | rfl | exact h.elim

theorem IsQuiet.listing? {moment : Moment} (h : moment.IsQuiet) : moment.listing? = none := by
  cases moment with
  | event e => rfl
  | action action answer => cases action <;> cases answer <;> first | rfl | exact h.elim

/-- In a world with some holdings, every answer lets a run go on. -/
theorem Fits.goesOn {w : Holdings} {moment : Moment} (h : moment.Fits w) : moment.GoesOn := by
  cases moment with
  | event e => trivial
  | action action answer =>
      cases action with
      | pause delay => exact h
      | read path =>
          intro failure hfailure
          simp only [Fits] at h
          split at h
          · cases h.symm.trans hfailure
          · obtain ⟨shown, reason, heq⟩ := h
            exact ⟨shown, reason, Except.error.inj (hfailure.symm.trans heq)⟩
      | _ => trivial

end Moment

/-- The beats among some moments. -/
def beatsOf (moments : List Moment) : List Beat :=
  moments.filterMap Moment.beat?

/-- The pauses among some beats. -/
def pausesOf (beats : List Beat) : List Quantity :=
  beats.filterMap Beat.delay?

/-- The files that are listed in some moments, if any are. -/
def listingOf (moments : List Moment) : Option (List FileRecord) :=
  moments.findSome? Moment.listing?

@[simp]
theorem beatsOf_append (first last : List Moment) :
    beatsOf (first ++ last) = beatsOf first ++ beatsOf last :=
  List.filterMap_append

@[simp]
theorem pausesOf_append (first last : List Beat) :
    pausesOf (first ++ last) = pausesOf first ++ pausesOf last :=
  List.filterMap_append

/-- Whether there is no pause in some moments, and no listing of files. -/
def AllQuiet (moments : List Moment) : Prop :=
  ∀ moment ∈ moments, moment.IsQuiet

namespace AllQuiet

variable {first last moments : List Moment}

theorem append (hfirst : AllQuiet first) (hlast : AllQuiet last) : AllQuiet (first ++ last) :=
  List.forall_mem_append.mpr ⟨hfirst, hlast⟩

theorem events (events : List Event) : AllQuiet (events.map .event) :=
  List.forall_mem_map.mpr fun _ _ => trivial

theorem pausesOf (h : AllQuiet moments) : pausesOf (beatsOf moments) = [] := by
  rw [RepoAtlas.pausesOf, beatsOf, List.filterMap_filterMap, List.filterMap_eq_nil_iff]
  exact fun moment hmem => (h moment hmem).delay?

theorem listingOf (h : AllQuiet moments) : listingOf moments = none := by
  rw [RepoAtlas.listingOf, List.findSome?_eq_none_iff]
  exact fun moment hmem => (h moment hmem).listing?

end AllQuiet

section Split

variable {quiet beats before after : List Beat} {delay : Quantity}

/-- A pause that follows beats without pauses stands behind all of these. -/
theorem eq_append_of_quiet_append (hquiet : pausesOf quiet = [])
    (h : quiet ++ beats = before ++ .pause delay :: after) :
    ∃ rest, before = quiet ++ rest ∧ beats = rest ++ .pause delay :: after := by
  induction quiet generalizing before with
  | nil => exact ⟨before, rfl, h⟩
  | cons beat quiet ih =>
      cases beat with
      | pause other => cases hquiet
      | event e =>
          cases before with
          | nil => cases h
          | cons first before =>
              obtain ⟨rfl, hrest⟩ := List.cons.inj h
              obtain ⟨rest, rfl, hbeats⟩ := ih hquiet hrest
              exact ⟨rest, rfl, hbeats⟩

/-- A pause that beats without pauses follow stands before all of these. -/
theorem eq_append_of_append_quiet (hquiet : pausesOf quiet = [])
    (h : beats ++ quiet = before ++ .pause delay :: after) :
    ∃ rest, after = rest ++ quiet ∧ beats = before ++ .pause delay :: rest := by
  rcases List.append_eq_append_iff.mp h with ⟨more, rfl, hmore⟩ | ⟨more, rfl, hmore⟩
  · rw [hmore, pausesOf_append] at hquiet
    cases (List.append_eq_nil_iff.mp hquiet).2
  · cases more with
    | nil =>
        rw [List.nil_append] at hmore
        rw [← hmore] at hquiet
        cases hquiet
    | cons beat more =>
        obtain ⟨rfl, rfl⟩ := List.cons.inj hmore
        exact ⟨more, rfl, rfl⟩

end Split

namespace AnalysisSettings

/-- Whether some settings ask for pauses at all. -/
def Paced (s : AnalysisSettings) : Prop :=
  0 < s.paceEvery ∧ s.paceDelay.isPositive = true

/-- After how many files there is a pause, if there are any. -/
def batchSize (s : AnalysisSettings) : Nat :=
  s.paceEvery.toNat

theorem Paced.batchSize_pos {s : AnalysisSettings} (h : s.Paced) : 0 < s.batchSize := by
  have := h.1
  unfold batchSize
  omega

end AnalysisSettings

namespace AnalysisPlan

variable {s : AnalysisSettings}

theorem paced_of_pausesBefore {index : Nat} (h : pausesBefore s index = true) : s.Paced := by
  simp only [pausesBefore, Bool.and_eq_true, decide_eq_true_eq] at h
  exact h.1.1

/-- There is a pause before each file that stands behind some whole batches. -/
theorem pausesBefore_succ_iff (h : s.Paced) {done : Nat} :
    pausesBefore s (done + 1) = true ↔ 0 < done ∧ s.batchSize ∣ done := by
  obtain ⟨hevery, hdelay⟩ := h
  have hsize : ((s.batchSize : Nat) : Int) = s.paceEvery := Int.toNat_of_nonneg hevery.le
  have hdvd : (done : Int) % s.paceEvery = 0 ↔ s.batchSize ∣ done := by
    rw [← hsize, ← Int.dvd_iff_emod_eq_zero, Int.natCast_dvd_natCast]
  have hindex : ((done + 1 : Nat) : Int) - 1 = done := by omega
  simp only [pausesBefore, hevery, hdelay, decide_true, Bool.true_and, hindex, Bool.and_eq_true,
    decide_eq_true_eq, beq_iff_eq, hdvd]
  exact and_congr_left' (by omega)

/-- The beats of a visit: a file is announced, and the entity in it is handed out, if there is
one. -/
def visitBeats (total number : Nat) (path : String) (found : Option Entity) : List Beat :=
  .event (.progress number total path) :: (found.map fun e => .event (.component e)).toList

/-- The pause before the file at a place, if there is one. -/
def pauseBeats (s : AnalysisSettings) (index : Nat) : List Beat :=
  if pausesBefore s index then [.pause s.paceDelay] else []

/-- The beats of visits to some files with what is found there; `index` is the number of the
first. -/
def walkBeats (s : AnalysisSettings) (total : Nat) :
    (index : Nat) → List (FileRecord × Option Entity) → List Beat
  | _, [] => []
  | index, (file, found) :: rest =>
    pauseBeats s index ++
      (visitBeats total index file.path found ++ walkBeats s total (index + 1) rest)

theorem pausesOf_visitBeats (total number : Nat) (path : String) (found : Option Entity) :
    pausesOf (visitBeats total number path found) = [] := by
  cases found <;> rfl

theorem walkBeats_append (total index : Nat) (done rest : List (FileRecord × Option Entity)) :
    walkBeats s total index (done ++ rest) =
      walkBeats s total index done ++ walkBeats s total (index + done.length) rest := by
  induction done generalizing index with
  | nil => rfl
  | cons visit done ih =>
      rw [List.cons_append, walkBeats, walkBeats, ih, List.length_cons, Nat.add_right_comm,
        ← Nat.add_assoc]
      simp only [List.append_assoc]

/-- A pause is the one before a file, or stands among the beats that follow. -/
theorem split_pauseBeats {index : Nat} {beats before after : List Beat} {delay : Quantity}
    (h : pauseBeats s index ++ beats = before ++ .pause delay :: after) :
    (pausesBefore s index = true ∧ delay = s.paceDelay ∧ before = [] ∧ after = beats) ∨
      ∃ later, before = pauseBeats s index ++ later ∧ beats = later ++ .pause delay :: after := by
  rw [pauseBeats] at h ⊢
  split at h
  · next hpauses =>
      rw [if_pos hpauses]
      cases before with
      | nil =>
          cases h
          exact .inl ⟨hpauses, rfl, rfl, rfl⟩
      | cons first before =>
          obtain ⟨rfl, hbeats⟩ := List.cons.inj h
          exact .inr ⟨before, rfl, hbeats⟩
  · next hpauses =>
      rw [if_neg hpauses]
      exact .inr ⟨before, rfl, h⟩

/-- A pause among the beats of some visits stands between two of them. -/
theorem split_walkBeats {total index : Nat} {visits : List (FileRecord × Option Entity)}
    {before after : List Beat} {delay : Quantity}
    (h : walkBeats s total index visits = before ++ .pause delay :: after) :
    ∃ done visit rest, visits = done ++ visit :: rest ∧
      pausesBefore s (index + done.length) = true ∧ delay = s.paceDelay ∧
      before = walkBeats s total index done ∧
      after = visitBeats total (index + done.length) visit.1.path visit.2 ++
        walkBeats s total (index + done.length + 1) rest := by
  induction visits generalizing index before with
  | nil => cases (List.append_eq_nil_iff.mp h.symm).2
  | cons visit visits ih =>
      rcases split_pauseBeats h with ⟨hpauses, hdelay, rfl, rfl⟩ | ⟨later, rfl, hlater⟩
      · exact ⟨[], visit, visits, rfl, hpauses, hdelay, rfl, rfl⟩
      · obtain ⟨more, rfl, hmore⟩ :=
          eq_append_of_quiet_append (pausesOf_visitBeats _ _ _ _) hlater
        obtain ⟨done, next, rest, rfl, hpauses, hdelay, rfl, hafter⟩ := ih hmore
        have hindex : index + 1 + done.length = index + (visit :: done).length := by
          rw [List.length_cons, Nat.add_assoc, Nat.add_comm 1]
        rw [hindex] at hpauses hafter
        exact ⟨visit :: done, next, rest, rfl, hpauses, hdelay, rfl, hafter⟩

/-- With each whole batch that is followed by a file, there is one pause more. -/
theorem length_pausesOf_walkBeats (h : s.Paced) (total : Nat)
    (visits : List (FileRecord × Option Entity)) :
    (pausesOf (walkBeats s total 1 visits)).length = (visits.length - 1) / s.batchSize := by
  induction visits using List.reverseRecOn with
  | nil => exact (Nat.zero_div _).symm
  | append_singleton done visit ih =>
      have hlast : walkBeats s total (1 + done.length) [visit] =
          pauseBeats s (done.length + 1) ++
            visitBeats total (1 + done.length) visit.1.path visit.2 := by
        rw [walkBeats, walkBeats, List.append_nil, Nat.add_comm 1]
      rw [walkBeats_append, hlast, pausesOf_append, pausesOf_append, pausesOf_visitBeats,
        List.append_nil, List.length_append, ih, List.length_append, List.length_singleton,
        Nat.add_sub_cancel, pauseBeats]
      split
      · next hpauses =>
          obtain ⟨hdone, hdvd⟩ := (pausesBefore_succ_iff h).mp hpauses
          obtain ⟨count, hcount⟩ := Nat.exists_eq_add_one.mpr hdone
          rw [hcount] at hdvd ⊢
          exact (Nat.succ_div_of_dvd hdvd).symm
      · next hpauses =>
          rcases Nat.eq_zero_or_pos done.length with hzero | hdone
          · rw [hzero]
            rfl
          · have hdvd : ¬s.batchSize ∣ done.length :=
              fun hdvd => hpauses ((pausesBefore_succ_iff h).mpr ⟨hdone, hdvd⟩)
            obtain ⟨count, hcount⟩ := Nat.exists_eq_add_one.mpr hdone
            rw [hcount] at hdvd ⊢
            exact (Nat.succ_div_of_not_dvd hdvd).symm

/-- Whether some beats end with the visit to the file at a place, counted from one, and others
begin with the announcement of the next file. -/
def MeetAfter (chosen : List FileRecord) (place : Nat) (before after : List Beat) : Prop :=
  ∃ earlier file found next later, chosen[place - 1]? = some file ∧ chosen[place]? = some next ∧
    before = earlier ++ visitBeats chosen.length place file.path found ∧
    after = .event (.progress (place + 1) chosen.length next.path) :: later

theorem MeetAfter.surround {chosen : List FileRecord} {place : Nat} {before after : List Beat}
    (h : MeetAfter chosen place before after) (opening closing : List Beat) :
    MeetAfter chosen place (opening ++ before) (after ++ closing) := by
  obtain ⟨earlier, file, found, next, later, hfile, hnext, rfl, rfl⟩ := h
  exact ⟨opening ++ earlier, file, found, next, later ++ closing, hfile, hnext,
    (List.append_assoc _ _ _).symm, rfl⟩

/-- Whether some beats keep the pace of some settings with the files that are chosen: there is
a pause between each whole batch and the file that follows, and there is no other. -/
structure KeepsPace (s : AnalysisSettings) (chosen : List FileRecord) (beats : List Beat) :
    Prop where
  between : ∀ batch, 0 < batch → batch * s.batchSize < chosen.length →
    ∃ before after, beats = before ++ .pause s.paceDelay :: after ∧
      MeetAfter chosen (batch * s.batchSize) before after
  placed : ∀ before delay after, beats = before ++ .pause delay :: after →
    let batch := (pausesOf before).length + 1
    delay = s.paceDelay ∧ batch * s.batchSize < chosen.length ∧
      MeetAfter chosen (batch * s.batchSize) before after
  times : (pausesOf beats).length = (chosen.length - 1) / s.batchSize

theorem keepsPace_of_quiet {beats : List Beat} (h : pausesOf beats = []) :
    KeepsPace s [] beats where
  between batch _ hlt := absurd hlt (Nat.not_lt_zero _)
  placed before delay after heq := by
    rw [heq, pausesOf_append] at h
    cases (List.append_eq_nil_iff.mp h).2
  times := by rw [h, List.length_nil, List.length_nil, Nat.zero_div]

/-- What has no pauses may stand before and behind. -/
theorem KeepsPace.surround {chosen : List FileRecord} {beats opening closing : List Beat}
    (h : KeepsPace s chosen beats) (hopening : pausesOf opening = [])
    (hclosing : pausesOf closing = []) : KeepsPace s chosen (opening ++ (beats ++ closing)) where
  between batch hbatch hlt := by
    obtain ⟨before, after, rfl, hmeet⟩ := h.between batch hbatch hlt
    refine ⟨opening ++ before, after ++ closing, ?_, hmeet.surround opening closing⟩
    simp only [List.append_assoc, List.cons_append]
  placed before delay after heq := by
    obtain ⟨first, rfl, hfirst⟩ := eq_append_of_quiet_append hopening heq
    obtain ⟨last, rfl, hlast⟩ := eq_append_of_append_quiet hclosing hfirst
    obtain ⟨hdelay, hlt, hmeet⟩ := h.placed first delay last hlast
    rw [pausesOf_append, hopening, List.nil_append]
    exact ⟨hdelay, hlt, hmeet.surround opening closing⟩
  times := by
    rw [pausesOf_append, pausesOf_append, hopening, hclosing, List.nil_append, List.append_nil,
      h.times]

/-- Where the visits to some files end, those to the files behind them begin. -/
theorem meetAfter_walkBeats {done rest : List (FileRecord × Option Entity)}
    {visit : FileRecord × Option Entity} (hdone : 0 < done.length) {total : Nat}
    (htotal : total = (done ++ visit :: rest).length) :
    MeetAfter ((done ++ visit :: rest).map Prod.fst) done.length (walkBeats s total 1 done)
      (visitBeats total (1 + done.length) visit.1.path visit.2 ++
        walkBeats s total (1 + done.length + 1) rest) := by
  obtain ⟨earlier, last, rfl⟩ : ∃ earlier last, done = earlier ++ [last] :=
    (List.eq_nil_or_concat' done).resolve_left (List.ne_nil_of_length_pos hdone)
  have hplace : (earlier ++ [last]).length = 1 + earlier.length := by
    rw [List.length_append, List.length_singleton, Nat.add_comm]
  refine ⟨walkBeats s total 1 earlier ++ pauseBeats s (1 + earlier.length), last.1, last.2, visit.1,
    (visit.2.map fun e => .event (.component e)).toList ++
      walkBeats s total (1 + (earlier ++ [last]).length + 1) rest, ?_, ?_, ?_, ?_⟩
  · simp [hplace]
  · simp
  · rw [walkBeats_append, walkBeats, walkBeats, List.append_nil, hplace, List.length_map, ← htotal,
      List.append_assoc]
  · rw [visitBeats, List.cons_append, List.length_map, ← htotal, Nat.add_comm 1, Nat.cast_succ]

/-- The beats of visits to the files that are chosen keep the pace. -/
theorem keepsPace_walkBeats (h : s.Paced) (visits : List (FileRecord × Option Entity)) :
    KeepsPace s (visits.map Prod.fst) (walkBeats s visits.length 1 visits) where
  between batch hbatch hlt := by
    rw [List.length_map] at hlt
    obtain ⟨done, visit, rest, rfl, hdone⟩ : ∃ done visit rest,
        visits = done ++ visit :: rest ∧ done.length = batch * s.batchSize := by
      refine ⟨visits.take _, visits[batch * s.batchSize], visits.drop (batch * s.batchSize + 1),
        ?_, List.length_take_of_le hlt.le⟩
      rw [← List.drop_eq_getElem_cons, List.take_append_drop]
    have hpos : 0 < done.length := by
      rw [hdone]
      exact Nat.mul_pos hbatch h.batchSize_pos
    have hpauses : pausesBefore s (1 + done.length) = true := by
      rw [Nat.add_comm]
      exact (pausesBefore_succ_iff h).mpr ⟨hpos, hdone ▸ Nat.dvd_mul_left _ _⟩
    rw [← hdone]
    refine ⟨walkBeats s _ 1 done, _, ?_, meetAfter_walkBeats hpos rfl⟩
    rw [walkBeats_append, walkBeats, pauseBeats, if_pos hpauses]
    rfl
  placed before delay after heq := by
    obtain ⟨done, visit, rest, rfl, hpauses, hdelay, rfl, rfl⟩ := split_walkBeats heq
    rw [Nat.add_comm] at hpauses
    obtain ⟨hpos, hdvd⟩ := (pausesBefore_succ_iff h).mp hpauses
    have hbatch : ((pausesOf (walkBeats s (done ++ visit :: rest).length 1 done)).length + 1) *
        s.batchSize = done.length := by
      rw [length_pausesOf_walkBeats h]
      obtain ⟨count, hcount⟩ := Nat.exists_eq_add_one.mpr hpos
      rw [hcount] at hdvd ⊢
      rw [Nat.add_sub_cancel, ← Nat.succ_div_of_dvd hdvd, Nat.div_mul_cancel hdvd]
    intro batch
    rw [hbatch]
    refine ⟨hdelay, ?_, meetAfter_walkBeats hpos rfl⟩
    rw [List.length_map, List.length_append, List.length_cons]
    omega
  times := by rw [length_pausesOf_walkBeats h, List.length_map]

theorem Examined.isQuiet {path content : String} {moments : List Moment}
    {result : Except Failure (Option (Option Entity))}
    (h : Examined path content moments result) : AllQuiet moments := by
  cases h <;> simp [AllQuiet, Moment.IsQuiet]

theorem Examined.beats {path content : String} {moments : List Moment}
    {result : Except Failure (Option (Option Entity))}
    (h : Examined path content moments result) :
    ∃ found : Option Entity,
      beatsOf moments = (found.map fun e => .event (.component e)).toList := by
  cases h with
  | fails failure record answer => exact ⟨none, rfl⟩
  | findsNothing => exact ⟨none, rfl⟩
  | finds entity record answer => exact ⟨some entity, rfl⟩

theorem Visited.isQuiet {path : String} {moments : List Moment}
    {result : Except Failure (Option (Option Entity))} (h : Visited path moments result) :
    AllQuiet moments := by
  cases h with
  | unreadable shown reason record answer => simp [AllQuiet, Moment.IsQuiet]
  | fails failure hfailure => simp [AllQuiet, Moment.IsQuiet]
  | reads content hexamined => exact List.forall_mem_cons.mpr ⟨trivial, hexamined.isQuiet⟩

/-- A visit that lets the run go on shows in at most one entity. -/
theorem Visited.beats {path : String} {moments : List Moment}
    {result : Except Failure (Option (Option Entity))} (h : Visited path moments result)
    (hgoes : ∀ moment ∈ moments, moment.GoesOn) :
    (∀ failure, result ≠ .error failure) ∧
      ∃ found : Option Entity,
        beatsOf moments = (found.map fun e => .event (.component e)).toList := by
  cases h with
  | unreadable shown reason record answer => exact ⟨nofun, none, rfl⟩
  | fails failure hfailure =>
      obtain ⟨shown, reason, heq⟩ := hgoes _ List.mem_cons_self failure rfl
      exact absurd heq (hfailure shown reason)
  | reads content hexamined =>
      refine ⟨?_, hexamined.beats⟩
      cases hexamined <;> exact nofun

theorem beatsOf_pauseAt (index : Nat) : beatsOf (pauseAt s index) = pauseBeats s index := by
  rw [pauseAt, pauseBeats]
  split <;> rfl

/-- A walk that is let go on has the beats of visits to all its files. -/
theorem Walked.beats {total index : Nat} {files : List FileRecord} {moments : List Moment}
    {result : Except Failure Tally} (h : Walked s total index files moments result)
    (hgoes : ∀ moment ∈ moments, moment.GoesOn) :
    ∃ visits : List (FileRecord × Option Entity), visits.map Prod.fst = files ∧
      beatsOf moments = walkBeats s total index visits := by
  induction h with
  | nil index => exact ⟨[], rfl, rfl⟩
  | pauseFails file rest failure hpauses => cases hgoes _ List.mem_cons_self
  | visitFails rest hvisited =>
      have hvisit := (List.forall_mem_cons.mp (List.forall_mem_append.mp hgoes).2).2
      exact absurd rfl ((hvisited.beats hvisit).1 _)
  | @cons index file rest moments later found result hvisited hrest ih =>
      obtain ⟨hvisit, hlater⟩ := List.forall_mem_append.mp
        (List.forall_mem_cons.mp (List.forall_mem_append.mp hgoes).2).2
      obtain ⟨-, entity, hentity⟩ := hvisited.beats hvisit
      obtain ⟨visits, rfl, hvisits⟩ := ih hlater
      refine ⟨(file, entity) :: visits, rfl, ?_⟩
      rw [beatsOf_append, beatsOf_pauseAt, walkBeats, visitBeats, ← hentity, ← hvisits,
        List.cons_append, ← beatsOf_append]
      rfl

/-- Where no pauses are asked for, a walk is quiet. -/
theorem Walked.isQuiet {total index : Nat} {files : List FileRecord} {moments : List Moment}
    {result : Except Failure Tally} (h : Walked s total index files moments result)
    (hpaced : ¬s.Paced) : AllQuiet moments := by
  have hnone : ∀ index, pausesBefore s index = false :=
    fun index => Bool.eq_false_iff.mpr fun hpauses => hpaced (paced_of_pausesBefore hpauses)
  have hpause : ∀ index, pauseAt s index = [] := fun index => by simp [pauseAt, hnone]
  induction h with
  | nil index => exact List.forall_mem_nil _
  | pauseFails file rest failure hpauses => cases hpauses.symm.trans (hnone _)
  | visitFails rest hvisited =>
      rw [hpause]
      exact List.forall_mem_cons.mpr ⟨trivial, hvisited.isQuiet⟩
  | cons hvisited hrest ih =>
      rw [hpause]
      exact List.forall_mem_cons.mpr ⟨trivial, hvisited.isQuiet.append ih⟩

/-- The files that are looked into in some moments, those chosen of the ones that are listed. -/
def candidatesIn (s : AnalysisSettings) (allFiles : Bool) (moments : List Moment) :
    List FileRecord :=
  ((listingOf moments).map (chosenFrom s allFiles)).getD []

/-- Whether files are listed and visited once in some moments, or never, and all else is quiet. -/
inductive VisitsOnce (s : AnalysisSettings) (allFiles : Bool) : List Moment → Prop where
  | never {moments : List Moment} (hquiet : AllQuiet moments) : VisitsOnce s allFiles moments
  | once {first announced walked last : List Moment} {chosen : List FileRecord}
      {result : Except Failure Tally} (hfirst : AllQuiet first) (listed : List FileRecord)
      (hannounced : AllQuiet announced) (hchosen : chosen = chosenFrom s allFiles listed)
      (hwalked : Walked s chosen.length 1 chosen walked result) (hlast : AllQuiet last) :
      VisitsOnce s allFiles (first ++ .action .list (.ok listed) :: announced ++ (walked ++ last))

namespace VisitsOnce

variable {allFiles : Bool} {moments : List Moment}

theorem surround {first last : List Moment} (h : VisitsOnce s allFiles moments)
    (hfirst : AllQuiet first) (hlast : AllQuiet last) :
    VisitsOnce s allFiles (first ++ moments ++ last) := by
  cases h with
  | never hquiet => exact .never ((hfirst.append hquiet).append hlast)
  | once hbefore listed hannounced hchosen hwalked hafter =>
      have hsurrounded : VisitsOnce s allFiles _ :=
        .once (hfirst.append hbefore) listed hannounced hchosen hwalked (hafter.append hlast)
      simpa only [List.append_assoc, List.cons_append] using hsurrounded

theorem keepsPace (h : VisitsOnce s allFiles moments) (hpaced : s.Paced)
    (hgoes : ∀ moment ∈ moments, moment.GoesOn) :
    KeepsPace s (candidatesIn s allFiles moments) (beatsOf moments) := by
  cases h with
  | never hquiet =>
      rw [candidatesIn, hquiet.listingOf]
      exact keepsPace_of_quiet hquiet.pausesOf
  | @once first announced walked last chosen _ hfirst listed hannounced hchosen hwalked hlast =>
      have hcandidates : candidatesIn s allFiles
          (first ++ .action .list (.ok listed) :: announced ++ (walked ++ last)) = chosen := by
        rw [candidatesIn, listingOf, List.append_assoc, List.findSome?_append, ← listingOf,
          hfirst.listingOf, hchosen]
        rfl
      have hwalk := (List.forall_mem_append.mp (List.forall_mem_append.mp hgoes).2).1
      obtain ⟨visits, rfl, hbeats⟩ := hwalked.beats hwalk
      have hopening :
          pausesOf (beatsOf (first ++ .action .list (.ok listed) :: announced)) = [] := by
        rw [beatsOf_append, pausesOf_append, hfirst.pausesOf, List.nil_append]
        exact hannounced.pausesOf
      rw [hcandidates, beatsOf_append (first ++ _), beatsOf_append walked, hbeats, List.length_map]
      exact (keepsPace_walkBeats hpaced visits).surround hopening hlast.pausesOf

theorem unpaced (h : VisitsOnce s allFiles moments) (hpaced : ¬s.Paced) :
    pausesOf (beatsOf moments) = [] := by
  cases h with
  | never hquiet => exact hquiet.pausesOf
  | once hfirst listed hannounced hchosen hwalked hlast =>
      rw [beatsOf_append, pausesOf_append, ((hwalked.isQuiet hpaced).append hlast).pausesOf,
        List.append_nil, beatsOf_append, pausesOf_append, hfirst.pausesOf, List.nil_append]
      exact hannounced.pausesOf

end VisitsOnce

section Stages

variable {moments : List Moment} {plan : AnalysisPlan}

theorem Surveyed.visitsOnce {repository : Coordinates} {allFiles : Bool}
    {result : Except Failure Survey} (h : Surveyed s repository allFiles moments result) :
    VisitsOnce s allFiles moments := by
  cases h with
  | listFails failure => exact .never (by simp [AllQuiet, Moment.IsQuiet])
  | @lists listed chosen hchosen moments tally hwalked =>
      have hannounced : AllQuiet [.event (.files (keptFiles listed) repository),
          .event (foundStatus chosen.length)] := by simp [AllQuiet, Moment.IsQuiet]
      have honce : VisitsOnce s allFiles _ :=
        .once (List.forall_mem_nil _) listed hannounced hchosen hwalked (List.forall_mem_nil _)
      rwa [List.append_nil] at honce

theorem OnlyReports.allQuiet (h : OnlyReports moments) : AllQuiet moments := by
  intro moment hmem
  obtain ⟨record, answer, rfl⟩ := h moment hmem
  trivial

theorem Concluded.allQuiet {place : Option String} {repository : Coordinates} {found : Survey}
    {result : Except Failure Unit} (h : Concluded place repository found moments result) :
    AllQuiet moments := by
  cases h with
  | storeFails location hplace hreports failure =>
      exact hreports.allQuiet.append (by simp [AllQuiet, Moment.IsQuiet])
  | completes hreports record answer =>
      refine (hreports.allQuiet.append ?_).append (by simp [AllQuiet, Moment.IsQuiet])
      cases place <;> simp [storedAt, AllQuiet, Moment.IsQuiet]

theorem Analyzed.visitsOnce {repository : Coordinates} {allFiles : Bool} {place : Option String}
    {result : Except Failure Unit} (h : Analyzed s repository allFiles place moments result) :
    VisitsOnce s allFiles moments := by
  have hopens : AllQuiet [.action .openSource (.ok ())] := by simp [AllQuiet, Moment.IsQuiet]
  cases h with
  | openFails failure => exact .never (by simp [AllQuiet, Moment.IsQuiet])
  | surveyFails hsurveyed closing failure hfailure =>
      exact hsurveyed.visitsOnce.surround hopens (by simp [AllQuiet, Moment.IsQuiet])
  | concludes hsurveyed hconcluded =>
      exact hsurveyed.visitsOnce.surround hopens
        (List.forall_mem_cons.mpr ⟨trivial, hconcluded.allQuiet⟩)

theorem Asked.allQuiet {request : AnalysisRequest} {repository : Coordinates}
    {result : Except Failure (Option CacheRecord)}
    (h : Asked plan request repository moments result) : AllQuiet moments := by
  cases h <;> simp [AllQuiet, Moment.IsQuiet]

theorem allQuiet_fetching (repository : Coordinates) (mode : Mode) (record : LogRecord)
    (answer : Answer (.report record)) (source : Answer (.choose (.hosted repository mode))) :
    AllQuiet (fetching repository mode record answer source) := by
  simp [fetching, AllQuiet, Moment.IsQuiet]

theorem Ran.visitsOnce {request : AnalysisRequest} {result : Except Failure Unit}
    (h : Ran plan request moments result) :
    VisitsOnce plan.settings request.allFiles moments := by
  cases h with
  | badLocation failure hlocation => exact .never (List.forall_mem_nil _)
  | badMode failure hmode => exact .never (List.forall_mem_nil _)
  | lookupFails hlocation hasked => exact .never hasked.allQuiet
  | replays hlocation hasked => exact .never (hasked.allQuiet.append (.events _))
  | chooseFails hlocation hmode hasked record answer failure =>
      exact .never (hasked.allQuiet.append (allQuiet_fetching _ _ _ _ _))
  | @analyzes repository _ mode _ _ hasked record answer source _ _ hanalyzed =>
      have hfetching := hasked.allQuiet.append
        (allQuiet_fetching repository mode record answer (.ok source))
      have honce := hanalyzed.visitsOnce.surround hfetching (List.forall_mem_nil _)
      rwa [List.append_nil] at honce

theorem Finished.visitsOnce {allFiles : Bool} {stage : List Moment → Except Failure Unit → Prop}
    (hstage : ∀ {moments result}, stage moments result → VisitsOnce s allFiles moments)
    (h : Finished stage moments) : VisitsOnce s allFiles moments := by
  cases h with
  | succeeds h => exact hstage h
  | fails h record answer =>
      exact (hstage h).surround (List.forall_mem_nil _) (by simp [AllQuiet, Moment.IsQuiet])

theorem Scanned.visitsOnce {source : SourceInfo} {allFiles : Bool} {result : Except Failure Unit}
    (h : Scanned plan source allFiles moments result) :
    VisitsOnce plan.settings allFiles moments := by
  obtain ⟨hanalyzed⟩ := h
  have hstatus : AllQuiet [.event (.status ("Scanning " ++ source.root ++ "..."))] :=
    List.forall_mem_singleton.mpr trivial
  have honce := hanalyzed.visitsOnce.surround hstatus (List.forall_mem_nil _)
  rwa [List.append_nil] at honce

theorem FolderRan.visitsOnce {path : String} {allFiles : Bool}
    (h : FolderRan plan path allFiles moments) : VisitsOnce plan.settings allFiles moments := by
  cases h with
  | chooseFails failure record answer => exact .never (by simp [AllQuiet, Moment.IsQuiet])
  | chooses source hfinished =>
      have hchoice : AllQuiet [.action (.choose (.folder path)) (.ok source)] :=
        List.forall_mem_singleton.mpr trivial
      have honce :=
        (hfinished.visitsOnce Scanned.visitsOnce).surround hchoice (List.forall_mem_nil _)
      rwa [List.append_nil] at honce

end Stages

end AnalysisPlan

open AnalysisPlan Script

/-- Whatever is to be analyzed, files are listed and visited once in a run, or never. -/
theorem Errand.visitsOnce {σ : Type} (errand : Errand) (plan : AnalysisPlan) (h : Handler σ)
    (state : σ) :
    VisitsOnce plan.settings errand.allFiles (history h (errand.script plan) state) := by
  obtain ⟨_, hcourse⟩ := course_history h (errand.script plan) state
  cases errand with
  | repository request => exact (finished_of_analyze hcourse).visitsOnce Ran.visitsOnce
  | folder path allFiles => exact (folderRan_of_course hcourse).visitsOnce

/--
A run in which pauses end and reading fails for nothing but files keeps the pace that is asked
for, whatever comes of the files. If no pace is asked for, there is no pause in any run; and
at any pace, a run in a world made of a source and a cache hands out the same events.
-/
theorem runs_pause_between_batches {σ : Type} (h : Handler σ) (state : σ) (plan : AnalysisPlan)
    (errand : Errand) :
    let moments := history h (errand.script plan) state
    (plan.settings.Paced → (∀ moment ∈ moments, moment.GoesOn) →
      KeepsPace plan.settings (candidatesIn plan.settings errand.allFiles moments)
        (beatsOf moments)) ∧
    (¬plan.settings.Paced → pausesOf (beatsOf moments) = []) ∧
    ∀ {τ : Type} (laws : WorldLaws τ) (w : World τ) (every : Int) (delay : Quantity),
      (drain laws.handler (errand.script (plan.atPace every delay)) w).events =
        (drain laws.handler (errand.script plan) w).events := by
  have honce := errand.visitsOnce plan h state
  refine ⟨honce.keepsPace, honce.unpaced, ?_⟩
  exact fun laws w every delay => events_atPace laws w errand plan every delay

open SampleWorld in
/-- In the sample world, where three files are chosen, there is one pause if there is to be one
after each two files, and none if there is to be one after each zero. -/
theorem runs_pause_between_batches_sample :
    let plan : AnalysisPlan := { settings := { paceEvery := 2, paceDelay := .whole 1 } }
    let unpaced := plan.atPace 0 (.whole 1)
    let errand : Errand := .folder "repo" false
    let moments := history (handler holdings) (errand.script plan) ()
    plan.settings.Paced ∧ (∀ moment ∈ moments, moment.GoesOn) ∧
      KeepsPace plan.settings (candidatesIn plan.settings false moments) (beatsOf moments) ∧
      (pausesOf (beatsOf moments)).length = 1 ∧
      ¬unpaced.settings.Paced ∧
      pausesOf (beatsOf (history (handler holdings) (errand.script unpaced) ())) = [] := by
  intro plan unpaced errand moments
  have hpaced : plan.settings.Paced := ⟨by decide, by decide⟩
  have hunpaced : ¬unpaced.settings.Paced := fun h => absurd h.1 (by decide)
  have hgoes : ∀ moment ∈ moments, moment.GoesOn :=
    fun moment hmem => (allFit_history (fits holdings) _ _ moment hmem).goesOn
  have hkeeps :=
    (runs_pause_between_batches (handler holdings) () plan errand).1 hpaced hgoes
  have hlisting : listingOf moments = some holdings.listed := rfl
  have hcount : (candidatesIn plan.settings false moments).length = 3 := by
    rw [candidatesIn, hlisting, Option.map_some, Option.getD_some, chosenFrom, selectCandidates,
      limited_of_unlimited (by simp [plan, Unlimited]), List.length_mergeSort]
    decide +kernel
  refine ⟨hpaced, hgoes, hkeeps, ?_, hunpaced, ?_⟩
  · exact hkeeps.times.trans (congrArg (fun count => (count - 1) / 2) hcount)
  · exact (runs_pause_between_batches (handler holdings) () unpaced errand).2.1 hunpaced

end RepoAtlas
