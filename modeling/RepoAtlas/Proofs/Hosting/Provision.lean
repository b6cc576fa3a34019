import RepoAtlas.Hosting.Source
import RepoAtlas.Proofs.Pipeline.Offer

/-!
What a hosted source gives depends on its repository and mode alone, not on what was
asked before; so it offers just what it gives when it has been opened.
-/
namespace RepoAtlas

open HostClient

/-- Whether two states of a hosted source differ in the requests that were sent at most. -/
structure HostedState.Like (s t : HostedState) : Prop where
  repository : t.repository = s.repository
  mode : t.mode = s.mode
  isClosed : t.isClosed = s.isClosed
  checkout : t.checkout = s.checkout

namespace HostedState.Like

variable {s t u : HostedState}

protected theorem refl (s : HostedState) : s.Like s :=
  ⟨rfl, rfl, rfl, rfl⟩

/-- States that are like one state are like each other. -/
theorem of_common (ht : s.Like t) (hu : s.Like u) : t.Like u where
  repository := hu.repository.trans ht.repository.symm
  mode := hu.mode.trans ht.mode.symm
  isClosed := hu.isClosed.trans ht.isClosed.symm
  checkout := hu.checkout.trans ht.checkout.symm

end HostedState.Like

namespace HostAccess

variable {a : HostAccess} {r : Coordinates} {mode : Mode} {s t : HostedState}

/-- The source of a repository before it is opened. -/
def unopened (r : Coordinates) (mode : Mode) : HostedState :=
  { repository := r, mode }

/-- The source of a repository after it has been opened. -/
def opened (a : HostAccess) (r : Coordinates) (mode : Mode) : HostedState :=
  (a.openSource (unopened r mode)).state

/-- What the source of a repository holds in a mode. -/
def holdings (a : HostAccess) (r : Coordinates) (mode : Mode) : Holdings where
  listed := (a.list (a.opened r mode)).result.toOption.getD []
  text? path := (a.read path (a.opened r mode)).result.toOption
  find? path text := (Entity.ofFile path text).value

theorem ofModules_holdings (a : HostAccess) (r : Coordinates) (mode : Mode) :
    (a.holdings r mode).OfModules := by
  intro path text
  rw [holdings]

theorem listed_holdings {listed : List FileRecord}
    (h : (a.list (a.opened r mode)).result = .ok listed) : (a.holdings r mode).listed = listed := by
  rw [holdings, h]
  rfl

theorem text?_holdings {path text : String}
    (h : (a.read path (a.opened r mode)).result = .ok text) :
    (a.holdings r mode).text? path = some text := by
  rw [holdings]
  simp only [h, Except.toOption]

/-- What was asked before does not change what an online request comes to. -/
theorem online_like (h : s.Like t) {α : Type} (ask : HostClient → Online α) :
    (a.online t ask).result = (a.online s ask).result ∧ s.Like (a.online t ask).state := by
  have hclient : a.client t = a.client s := by rw [client, client, h.isClosed]
  unfold online
  rw [hclient]
  exact ⟨rfl, h.repository, h.mode, h.isClosed, h.checkout⟩

theorem openSource_like (h : s.Like t) :
    (a.openSource t).result = (a.openSource s).result ∧
      (a.openSource s).state.Like (a.openSource t).state := by
  rw [openSource, openSource, h.mode]
  cases s.mode with
  | remote => exact ⟨rfl, h⟩
  | archive =>
      simp only [openArchive, h.checkout, h.repository]
      split
      · exact ⟨rfl, h⟩
      · obtain ⟨hresult, hlater⟩ := online_like (a := a) h fun c => c.downloadArchive s.repository
        obtain ⟨-, hbefore⟩ :=
          online_like (a := a) (.refl s) fun c => c.downloadArchive s.repository
        have hlike := hbefore.of_common hlater
        clear hlater hbefore
        generalize (a.online s fun c => c.downloadArchive s.repository) = before at *
        generalize (a.online t fun c => c.downloadArchive s.repository) = later at *
        rw [hresult]
        split
        · exact ⟨rfl, hlike.repository, hlike.mode, hlike.isClosed, rfl⟩
        · exact ⟨rfl, hlike.repository, hlike.mode, rfl, rfl⟩

theorem list_like (h : s.Like t) :
    (a.list t).result = (a.list s).result ∧ s.Like (a.list t).state := by
  rw [list, list, h.mode, h.checkout, h.repository]
  split
  · exact online_like h fun c => c.fetchTree s.repository
  · exact ⟨rfl, h⟩
  · exact ⟨rfl, h⟩

theorem read_like (path : String) (h : s.Like t) :
    (a.read path t).result = (a.read path s).result ∧ s.Like (a.read path t).state := by
  rw [read, read, h.mode, h.checkout, h.repository]
  split
  · exact online_like h fun c => c.readText s.repository path
  · exact ⟨rfl, h⟩
  · exact ⟨rfl, h⟩

/--
A source that can be opened and listed, and whose files can be read, offers what
it then holds.
-/
theorem offers_holdings (hpermitted : refusal? a.settings = none)
    (hopen : (a.openSource (unopened r mode)).result = .ok ()) {listed : List FileRecord}
    (hlist : (a.list (a.opened r mode)).result = .ok listed)
    (hread : ∀ file ∈ listed, file.type = .blob →
      ∃ text, (a.read file.path (a.opened r mode)).result = .ok text) :
    a.source.Offers (.hosted r mode) r (a.holdings r mode) (unopened r mode).Like
      (a.opened r mode).Like where
  choose state := by
    refine ⟨{ repository := r }, ?_, rfl, ?_⟩
    · simp only [source, choose, hpermitted]
    · simp only [source, choose, hpermitted]
      exact ⟨rfl, rfl, rfl, rfl⟩
  openIt state hstate := by
    obtain ⟨hresult, hlike⟩ := openSource_like (a := a) hstate
    exact ⟨hresult.trans hopen, hlike⟩
  list state hstate := by
    obtain ⟨hresult, hlike⟩ := list_like (a := a) hstate
    rw [listed_holdings hlist]
    exact ⟨hresult.trans hlist, hlike⟩
  read state hstate file hfile hblob := by
    rw [listed_holdings hlist] at hfile
    obtain ⟨text, htext⟩ := hread file hfile hblob
    obtain ⟨hresult, hlike⟩ := read_like (a := a) file.path hstate
    refine ⟨?_, hlike⟩
    simp only [Moment.Shows, text?_holdings htext]
    exact hresult.trans htext
  closeIt state _ := rfl

end HostAccess

end RepoAtlas
