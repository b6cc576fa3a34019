import RepoAtlas.Proofs.Cache.Trouble
import RepoAtlas.Proofs.Hosting.Requests
import RepoAtlas.Proofs.Hosting.Service

/-!
What the answers of the hosting service make of a listing and of a file: which of them give
records or a text, and with which failure each of the others ends.
-/
namespace RepoAtlas

namespace Response

/-- Whether the body is JSON that opens more brackets than are followed. -/
def IsTooDeep (response : Response) : Prop :=
  ∃ cause, response.json = .error (.tooDeep cause)

/-- Whether the body is a document with a list of items. -/
def Lists (response : Response) (items : List Json) : Prop :=
  ∃ document, response.json = .ok document ∧ document.get? "tree" = some (.arr items)

/-- Whether the body is no document, or one without a list of items. -/
def ListsNothing (response : Response) : Prop :=
  response.json = .error .notJson ∨ ∃ document, response.json = .ok document ∧
    ∀ items, document.get? "tree" ≠ some (.arr items)

/-- Whether the body is a document that encodes a text. -/
def Encodes (response : Response) (text : String) : Prop :=
  ∃ document encoded bytes chars, response.json = .ok document ∧
    (document.get? "content").bind Json.string? = some encoded ∧ encoded ≠ "" ∧
    Base64.decode encoded = .ok bytes ∧ Utf8.decode bytes = .ok chars ∧
    text = String.ofList chars

end Response

namespace HostClient

theorem ofJson_eq_ok_iff {item : Json} {entry : ListedEntry} :
    ListedEntry.ofJson item = .ok entry ↔ Tells item entry := by
  refine ⟨fun h => ?_, fun h => h.ofJson_eq⟩
  unfold ListedEntry.ofJson at h
  split at h
  · split at h
    · next hpath =>
        simp only at h
        split at h <;> cases h
        · next htype => exact ⟨hpath, .inl rfl, htype, rfl⟩
        · next htype => exact ⟨hpath, .inr rfl, htype, rfl⟩
    · cases h
  · cases h

/-- The entries that are kept of a listing: those that its items tell of, in order. -/
inductive Kept : List Json → List ListedEntry → Prop where
  | nil : Kept [] []
  | keep {item : Json} {entry : ListedEntry} {items : List Json} {entries : List ListedEntry}
      (hitem : Tells item entry) (hrest : Kept items entries) :
      Kept (item :: items) (entry :: entries)
  | drop {item : Json} {items : List Json} {entries : List ListedEntry}
      (hitem : ∀ entry, ¬ Tells item entry) (hrest : Kept items entries) :
      Kept (item :: items) entries

section Entries

variable {item : Json} {items : List Json} {entries : List ListedEntry}

theorem kept_cons_of_tells {entry : ListedEntry} (h : Tells item entry) :
    Kept (item :: items) entries ↔ ∃ rest, entries = entry :: rest ∧ Kept items rest := by
  constructor
  · intro hkept
    cases hkept with
    | keep hitem hrest =>
        obtain rfl := Except.ok.inj (h.ofJson_eq.symm.trans hitem.ofJson_eq)
        exact ⟨_, rfl, hrest⟩
    | drop hitem hrest => exact absurd h (hitem entry)
  · rintro ⟨rest, rfl, hrest⟩
    exact .keep h hrest

theorem kept_cons_of_not (h : ∀ entry, ¬ Tells item entry) :
    Kept (item :: items) entries ↔ Kept items entries := by
  constructor
  · intro hkept
    cases hkept with
    | keep hitem hrest => exact absurd hitem (h _)
    | drop hitem hrest => exact hrest
  · exact .drop h

/-- A listing has entries unless an item in it has a list or an object for its type. -/
theorem entriesOf_eq_ok_iff : entriesOf items = .ok entries ↔
    (∀ item ∈ items, ¬ FileRecord.Mistyped item) ∧ Kept items entries := by
  induction items generalizing entries with
  | nil =>
      constructor
      · intro h
        cases h
        exact ⟨by simp, .nil⟩
      · rintro ⟨-, h⟩
        cases h
        rfl
  | cons item items ih =>
      rw [entriesOf, List.forall_mem_cons, ← ListedEntry.ofJson_unhashable_iff]
      cases hitem : ListedEntry.ofJson item with
      | ok entry =>
          rw [kept_cons_of_tells (ofJson_eq_ok_iff.mp hitem)]
          constructor
          · intro h
            cases hrest : entriesOf items with
            | error failure =>
                rw [hrest] at h
                cases h
            | ok rest =>
                rw [hrest] at h
                obtain ⟨hnone, hkept⟩ := ih.mp hrest
                exact ⟨⟨by simp, hnone⟩, rest, (Except.ok.inj h).symm, hkept⟩
          · rintro ⟨⟨-, hnone⟩, rest, rfl, hkept⟩
            rw [ih.mpr ⟨hnone, hkept⟩]
            rfl
      | error unreadable =>
          have hnot : ∀ entry, ¬ Tells item entry := fun entry h => by
            rw [h.ofJson_eq] at hitem
            cases hitem
          rw [kept_cons_of_not hnot]
          cases unreadable with
          | dropped => simp [ih]
          | unhashable type => simp

theorem exists_kept (items : List Json) : ∃ entries, Kept items entries := by
  induction items with
  | nil => exact ⟨[], .nil⟩
  | cons item items ih =>
      obtain ⟨entries, hentries⟩ := ih
      by_cases hitem : ∃ entry, Tells item entry
      · obtain ⟨entry, hentry⟩ := hitem
        exact ⟨entry :: entries, .keep hentry hentries⟩
      · exact ⟨entries, .drop (not_exists.mp hitem) hentries⟩

theorem entriesOf_cases (items : List Json) : (∃ entries, entriesOf items = .ok entries) ∨
    ∃ cause, entriesOf items = .error (.unexpected cause) := by
  induction items with
  | nil => exact .inl ⟨[], rfl⟩
  | cons item items ih =>
      rw [entriesOf]
      cases ListedEntry.ofJson item with
      | ok entry =>
          rcases ih with ⟨entries, hentries⟩ | ⟨cause, hcause⟩
          · exact .inl ⟨entry :: entries, by rw [hentries]; rfl⟩
          · exact .inr ⟨cause, by rw [hcause]; rfl⟩
      | error unreadable =>
          cases unreadable with
          | dropped => exact ih
          | unhashable type => exact .inr ⟨_, rfl⟩

theorem entriesOf_fails_iff : (∃ cause, entriesOf items = .error (.unexpected cause)) ↔
    ∃ item ∈ items, FileRecord.Mistyped item := by
  constructor
  · rintro ⟨cause, hcause⟩
    by_contra hnone
    obtain ⟨entries, hkept⟩ := exists_kept items
    have hok : entriesOf items = .ok entries :=
      entriesOf_eq_ok_iff.mpr ⟨fun item hmem h => hnone ⟨item, hmem, h⟩, hkept⟩
    rw [hok] at hcause
    cases hcause
  · rintro ⟨item, hmem, hitem⟩
    refine (entriesOf_cases items).resolve_left ?_
    rintro ⟨entries, hentries⟩
    exact (entriesOf_eq_ok_iff.mp hentries).1 item hmem hitem

end Entries

section Tree

variable {c : HostClient} {r : Coordinates} {q : Request}

/-- What becomes of the answer to the request for a listing. -/
def treeIn : Except ExchangeFault Response → Except Failure (List ListedEntry)
  | .error fault => .error (.repositoryUnavailable ("GitHub API request failed: " ++ fault.message))
  | .ok response =>
    if response.status = 404 then .error notFound
    else if response.isError then
      .error (.repositoryUnavailable s!"GitHub API error: {response.status}")
    else
      (documentOf response (.repositoryUnavailable "GitHub API returned invalid JSON")).bind
        fun document => (listingOf document).bind fun listing => entriesOf listing.1

theorem outcome_fetchListing
    (h : c.asked? true (c.treeAddress r) (some [("recursive", "1")]) = some q) (t : Traffic) :
    (outcome (c.fetchListing r) t).1 = treeIn (c.sent q).1 := by
  rw [fetchListing, outcome_bind, outcome_tell]
  simp only
  rw [outcome_bind, outcome_get_of_some h]
  cases (c.sent q).1 with
  | error fault => rfl
  | ok response =>
      simp only [Except.mapError, treeIn, beq_iff_eq]
      by_cases hmissing : response.status = 404
      · simp only [hmissing, if_true, outcome_bind, outcome_throw]
      · cases herror : response.isError with
        | true => simp only [hmissing, if_true, if_false, outcome_bind, outcome_throw]
        | false =>
            simp only [hmissing, if_false, Bool.false_eq_true]
            rw [outcome_bind, outcome_lift]
            cases documentOf response _ with
            | error failure => rfl
            | ok document =>
                simp only [Except.bind]
                rw [outcome_bind, outcome_lift]
                cases listingOf document with
                | error failure => rfl
                | ok listing =>
                    obtain ⟨items, isCut⟩ := listing
                    cases isCut <;> exact congrArg Prod.fst (outcome_lift _ _)

/-- Whether a request was answered, and not with an error. -/
def Succeeds (exchange : Except ExchangeFault Response) (response : Response) : Prop :=
  exchange = .ok response ∧ response.isError = false

/-- Whether the answer is that there is nothing. -/
def IsMissing (exchange : Except ExchangeFault Response) : Prop :=
  ∃ response, exchange = .ok response ∧ response.status = 404

/-- Whether there is no answer, or one without a listing, be it an error or not. -/
def GivesNoListing (exchange : Except ExchangeFault Response) : Prop :=
  (∃ fault, exchange = .error fault) ∨ ∃ response, exchange = .ok response ∧
    response.status ≠ 404 ∧ (response.isError = true ∨ response.ListsNothing)

/-- Whether the answer is a listing of which some entries are kept. -/
def GivesListing (exchange : Except ExchangeFault Response) (entries : List ListedEntry) : Prop :=
  ∃ response items, Succeeds exchange response ∧ response.Lists items ∧
    (∀ item ∈ items, ¬ FileRecord.Mistyped item) ∧ Kept items entries

/-- Whether the answer is one that is not foreseen: nested too deeply, or a listing with a list
or an object in the place of a type. -/
def GivesUnforeseen (exchange : Except ExchangeFault Response) : Prop :=
  ∃ response, Succeeds exchange response ∧
    (response.IsTooDeep ∨ ∃ items, response.Lists items ∧ ∃ item ∈ items, FileRecord.Mistyped item)

theorem Succeeds.status_ne {exchange : Except ExchangeFault Response} {response : Response}
    (h : Succeeds exchange response) : response.status ≠ 404 := by
  intro hmissing
  have herror := h.2
  rw [Response.isError, hmissing] at herror
  cases herror

variable {exchange : Except ExchangeFault Response}

theorem treeIn_of_isMissing (h : IsMissing exchange) : treeIn exchange = .error notFound := by
  obtain ⟨response, rfl, hstatus⟩ := h
  simp only [treeIn, if_pos hstatus]

theorem treeIn_of_givesNoListing (h : GivesNoListing exchange) :
    ∃ message, treeIn exchange = .error (.repositoryUnavailable message) := by
  obtain ⟨fault, rfl⟩ | ⟨response, rfl, hstatus, hnothing⟩ := h
  · exact ⟨_, rfl⟩
  · simp only [treeIn, if_neg hstatus]
    by_cases herror : response.isError = true
    · rw [if_pos herror]
      exact ⟨_, rfl⟩
    · rw [if_neg herror]
      rcases hnothing.resolve_left herror with hjson | ⟨document, hjson, hnone⟩
      · rw [documentOf, hjson]
        exact ⟨_, rfl⟩
      · rw [documentOf, hjson]
        simp only [Except.bind, listingOf]
        exact ⟨_, rfl⟩

theorem treeIn_of_succeeds {response : Response} (h : Succeeds exchange response) :
    treeIn exchange =
      (documentOf response (.repositoryUnavailable "GitHub API returned invalid JSON")).bind
        fun document => (listingOf document).bind fun listing => entriesOf listing.1 := by
  have hstatus := h.status_ne
  obtain ⟨rfl, herror⟩ := h
  simp only [treeIn, if_neg hstatus, herror, Bool.false_eq_true, if_false]

theorem treeIn_of_lists {response : Response} (h : Succeeds exchange response) {items : List Json}
    (hlists : response.Lists items) : treeIn exchange = entriesOf items := by
  obtain ⟨document, hjson, hitems⟩ := hlists
  rw [treeIn_of_succeeds h, documentOf, hjson]
  simp only [Except.bind, listingOf, hitems]

theorem treeIn_of_givesListing {entries : List ListedEntry} (h : GivesListing exchange entries) :
    treeIn exchange = .ok entries := by
  obtain ⟨response, items, hsucceeds, hlists, hentries⟩ := h
  rw [treeIn_of_lists hsucceeds hlists]
  exact entriesOf_eq_ok_iff.mpr hentries

theorem treeIn_of_givesUnforeseen (h : GivesUnforeseen exchange) :
    ∃ cause, treeIn exchange = .error (.unexpected cause) := by
  obtain ⟨response, hsucceeds, ⟨cause, hjson⟩ | ⟨items, hlists, hmistyped⟩⟩ := h
  · rw [treeIn_of_succeeds hsucceeds, documentOf, hjson]
    exact ⟨cause, rfl⟩
  · rw [treeIn_of_lists hsucceeds hlists]
    exact entriesOf_fails_iff.mpr hmistyped

/-- Whatever comes of the request for a listing is of one of four kinds. -/
theorem exchange_cases (exchange : Except ExchangeFault Response) : IsMissing exchange ∨
    GivesNoListing exchange ∨ (∃ entries, GivesListing exchange entries) ∨
    GivesUnforeseen exchange := by
  cases exchange with
  | error fault => exact .inr (.inl (.inl ⟨fault, rfl⟩))
  | ok response =>
      by_cases hstatus : response.status = 404
      · exact .inl ⟨response, rfl, hstatus⟩
      · cases herror : response.isError with
        | true => exact .inr (.inl (.inr ⟨response, rfl, hstatus, .inl herror⟩))
        | false =>
            cases hjson : response.json with
            | error fault =>
                cases fault with
                | notJson => exact .inr (.inl (.inr ⟨response, rfl, hstatus, .inr (.inl hjson)⟩))
                | tooDeep cause =>
                    exact .inr (.inr (.inr ⟨response, ⟨rfl, herror⟩, .inl ⟨cause, hjson⟩⟩))
            | ok document =>
                by_cases hitems : ∃ items, document.get? "tree" = some (.arr items)
                · obtain ⟨items, hitems⟩ := hitems
                  have hlists : response.Lists items := ⟨document, hjson, hitems⟩
                  by_cases hmistyped : ∃ item ∈ items, FileRecord.Mistyped item
                  · exact .inr (.inr (.inr ⟨response, ⟨rfl, herror⟩, .inr ⟨items, hlists, hmistyped⟩⟩))
                  · obtain ⟨entries, hkept⟩ := exists_kept items
                    exact .inr (.inr (.inl ⟨entries, response, items, ⟨rfl, herror⟩, hlists,
                      fun item hmem h => hmistyped ⟨item, hmem, h⟩, hkept⟩))
                · exact .inr (.inl (.inr ⟨response, rfl, hstatus,
                    .inr (.inr ⟨document, hjson, not_exists.mp hitems⟩)⟩))

/-- What a listing is reported as, told by what came of the request for it. -/
structure TreeReport (exchange : Except ExchangeFault Response)
    (result : Except Failure (List ListedEntry)) : Prop where
  missing : (∃ message, result = .error (.repositoryNotFound message)) ↔ IsMissing exchange
  unavailable : (∃ message, result = .error (.repositoryUnavailable message)) ↔
    GivesNoListing exchange
  listed : ∀ entries, result = .ok entries ↔ GivesListing exchange entries
  unforeseen : (∃ cause, result = .error (.unexpected cause)) ↔ GivesUnforeseen exchange
  nothing_else : ∀ failure, result = .error failure →
    (∃ message, failure = .repositoryNotFound message) ∨
      (∃ message, failure = .repositoryUnavailable message) ∨ ∃ cause, failure = .unexpected cause

/-- The kind of answer that a report of a listing tells. -/
def KindTold (exchange : Except ExchangeFault Response) :
    Except Failure (List ListedEntry) → Prop
  | .ok entries => GivesListing exchange entries
  | .error (.repositoryNotFound _) => IsMissing exchange
  | .error (.repositoryUnavailable _) => GivesNoListing exchange
  | .error (.unexpected _) => GivesUnforeseen exchange
  | .error _ => False

/-- The four kinds are reported in four ways, so each report tells its kind. -/
theorem kindTold_treeIn (exchange : Except ExchangeFault Response) :
    KindTold exchange (treeIn exchange) := by
  rcases exchange_cases exchange with h | h | ⟨entries, h⟩ | h
  · rw [treeIn_of_isMissing h]
    exact h
  · obtain ⟨message, hmessage⟩ := treeIn_of_givesNoListing h
    rw [hmessage]
    exact h
  · rw [treeIn_of_givesListing h]
    exact h
  · obtain ⟨cause, hcause⟩ := treeIn_of_givesUnforeseen h
    rw [hcause]
    exact h

theorem treeReport (exchange : Except ExchangeFault Response) :
    TreeReport exchange (treeIn exchange) := by
  have hkind {result : Except Failure (List ListedEntry)} (h : treeIn exchange = result) :
      KindTold exchange result := by
    rw [← h]
    exact kindTold_treeIn exchange
  constructor
  case missing => exact ⟨fun ⟨_, h⟩ => hkind h, fun h => ⟨_, treeIn_of_isMissing h⟩⟩
  case unavailable => exact ⟨fun ⟨_, h⟩ => hkind h, treeIn_of_givesNoListing⟩
  case listed => exact fun entries => ⟨hkind, treeIn_of_givesListing⟩
  case unforeseen => exact ⟨fun ⟨_, h⟩ => hkind h, treeIn_of_givesUnforeseen⟩
  case nothing_else =>
    intro failure h
    have htold := hkind h
    cases failure with
    | repositoryNotFound message => exact .inl ⟨message, rfl⟩
    | repositoryUnavailable message => exact .inr (.inl ⟨message, rfl⟩)
    | unexpected cause => exact .inr (.inr ⟨cause, rfl⟩)
    | _ => exact htold.elim

end Tree

section Text

variable {c : HostClient} {r : Coordinates} {path : String} {q : Request}
  {exchange : Except ExchangeFault Response}

/-- What becomes of the answer to the request for a document that encodes a file. -/
def contentsIn (path : String) : Except ExchangeFault Response → Except Failure String
  | .error fault => .error (.unreadableFile path fault.message)
  | .ok response =>
    if response.isError then
      .error (.unreadableFile path s!"contents API returned {response.status}")
    else
      (documentOf response (.unreadableFile path "contents API returned invalid JSON")).bind
        (contentOf path)

theorem outcome_fetchContents (h : c.contentsRequest? r path = some q) (t : Traffic) :
    (outcome (c.fetchContents r path) t).1 = contentsIn path (c.sent q).1 := by
  rw [fetchContents, outcome_bind, outcome_get_of_some h]
  cases (c.sent q).1 with
  | error fault => rfl
  | ok response =>
      cases herror : response.isError with
      | true => simp only [Except.mapError, contentsIn, herror, if_true, outcome_bind, outcome_throw]
      | false =>
          simp only [Except.mapError, contentsIn, herror, Bool.false_eq_true, if_false]
          rw [outcome_bind, outcome_lift]
          cases documentOf response _ with
          | error failure => rfl
          | ok document => exact congrArg Prod.fst (outcome_lift _ _)

/-- Whether the answer is a document that encodes a text. -/
def GivesText (exchange : Except ExchangeFault Response) (text : String) : Prop :=
  ∃ response, Succeeds exchange response ∧ response.Encodes text

/-- Whether the answer is one that is nested too deeply. -/
def IsTooDeep (exchange : Except ExchangeFault Response) : Prop :=
  ∃ response, Succeeds exchange response ∧ response.IsTooDeep

theorem contentOf_cases (path : String) (document : Json) :
    (∃ text, contentOf path document = .ok text) ∨
      ∃ reason, contentOf path document = .error (.unreadableFile path reason) := by
  unfold contentOf
  split
  · split
    · exact .inr ⟨_, rfl⟩
    · split
      · exact .inr ⟨_, rfl⟩
      · split
        · exact .inr ⟨_, rfl⟩
        · exact .inl ⟨_, rfl⟩
  · exact .inr ⟨_, rfl⟩

theorem contentOf_eq_ok_iff {document : Json} {text : String} :
    contentOf path document = .ok text ↔ ∃ encoded bytes chars,
      (document.get? "content").bind Json.string? = some encoded ∧ encoded ≠ "" ∧
        Base64.decode encoded = .ok bytes ∧ Utf8.decode bytes = .ok chars ∧
        text = String.ofList chars := by
  constructor
  · intro h
    unfold contentOf at h
    split at h
    · next encoded hencoded =>
        split at h
        · cases h
        · next hempty =>
            split at h
            · cases h
            · next bytes hbytes =>
                split at h
                · cases h
                · next chars hchars =>
                    exact ⟨encoded, bytes, chars, hencoded, by simpa using hempty, hbytes, hchars,
                      (Except.ok.inj h).symm⟩
    · cases h
  · rintro ⟨encoded, bytes, chars, hencoded, hempty, hbytes, hchars, rfl⟩
    simp [contentOf, hencoded, hempty, hbytes, hchars]

/-- The kind of answer that a report of an encoded file tells. -/
def TextTold (path : String) (exchange : Except ExchangeFault Response) :
    Except Failure String → Prop
  | .ok text => GivesText exchange text
  | .error (.unreadableFile shown _) =>
    shown = path ∧ (∀ text, ¬ GivesText exchange text) ∧ ¬ IsTooDeep exchange
  | .error (.unexpected _) => IsTooDeep exchange
  | .error _ => False

theorem contentsIn_of_givesText {text : String} (h : GivesText exchange text) :
    contentsIn path exchange = .ok text := by
  obtain ⟨response, ⟨rfl, herror⟩, document, encoded, bytes, chars, hjson, hcontent⟩ := h
  rw [contentsIn, if_neg (Bool.eq_false_iff.mp herror), documentOf, hjson]
  exact contentOf_eq_ok_iff.mpr ⟨encoded, bytes, chars, hcontent⟩

theorem contentsIn_of_isTooDeep (h : IsTooDeep exchange) :
    ∃ cause, contentsIn path exchange = .error (.unexpected cause) := by
  obtain ⟨response, ⟨rfl, herror⟩, cause, hjson⟩ := h
  rw [contentsIn, if_neg (Bool.eq_false_iff.mp herror), documentOf, hjson]
  exact ⟨cause, rfl⟩

/-- An answer that gives no text and is not nested too deeply shows the file as unreadable. -/
theorem contentsIn_cases (path : String) (exchange : Except ExchangeFault Response) :
    (∃ text, GivesText exchange text) ∨ IsTooDeep exchange ∨
      ∃ reason, contentsIn path exchange = .error (.unreadableFile path reason) := by
  cases exchange with
  | error fault => exact .inr (.inr ⟨_, rfl⟩)
  | ok response =>
      rw [contentsIn]
      by_cases herror : response.isError = true
      · rw [if_pos herror]
        exact .inr (.inr ⟨_, rfl⟩)
      · rw [if_neg herror, documentOf]
        have hsucceeds : Succeeds (.ok response) response := ⟨rfl, Bool.eq_false_iff.mpr herror⟩
        cases hjson : response.json with
        | error fault =>
            cases fault with
            | tooDeep cause => exact .inr (.inl ⟨response, hsucceeds, cause, hjson⟩)
            | notJson => exact .inr (.inr ⟨_, rfl⟩)
        | ok document =>
            rcases contentOf_cases path document with ⟨text, htext⟩ | ⟨reason, hreason⟩
            · obtain ⟨encoded, bytes, chars, hcontent⟩ := contentOf_eq_ok_iff.mp htext
              exact .inl ⟨text, response, hsucceeds, document, encoded, bytes, chars, hjson, hcontent⟩
            · exact .inr (.inr ⟨reason, hreason⟩)

theorem textTold_contentsIn (path : String) (exchange : Except ExchangeFault Response) :
    TextTold path exchange (contentsIn path exchange) := by
  rcases contentsIn_cases path exchange with ⟨text, h⟩ | h | ⟨reason, hreason⟩
  · rw [contentsIn_of_givesText h]
    exact h
  · obtain ⟨cause, hcause⟩ := contentsIn_of_isTooDeep h
    rw [hcause]
    exact h
  · rw [hreason]
    refine ⟨rfl, fun text h => ?_, fun h => ?_⟩
    · rw [contentsIn_of_givesText h] at hreason
      cases hreason
    · obtain ⟨cause, hcause⟩ := contentsIn_of_isTooDeep h
      rw [hcause] at hreason
      cases hreason

/-- What becomes of the answers to the two requests for a file. -/
def textIn (path : String) (raw contents : Except ExchangeFault Response) :
    Except Failure String :=
  match raw with
  | .error _ => contentsIn path contents
  | .ok response => if response.isError then contentsIn path contents else .ok response.text

theorem outcome_readText {other : Request} (h : c.rawRequest? r path = some q)
    (h' : c.contentsRequest? r path = some other) (t : Traffic) :
    (outcome (c.readText r path) t).1 = textIn path (c.sent q).1 (c.sent other).1 := by
  rw [readText, outcome_tryCatch, fetchRaw, outcome_bind, outcome_get_of_some h]
  cases (c.sent q).1 with
  | error fault =>
      simp only [Except.mapError, outcome_throw, textIn]
      rw [outcome_bind, outcome_tell]
      exact outcome_fetchContents h' _
  | ok response =>
      cases herror : response.isError with
      | true =>
          simp only [Except.mapError, herror, if_true, outcome_bind, outcome_throw, outcome_tell,
            textIn]
          exact outcome_fetchContents h' _
      | false =>
          simp only [Except.mapError, herror, textIn]
          rfl

/-- What a file is reported as, told by what came of the requests for it at the mirror and
at the service. -/
structure TextReport (path : String) (raw contents : Except ExchangeFault Response)
    (result : Except Failure String) : Prop where
  from_mirror : ∀ response, Succeeds raw response → result = .ok response.text
  from_service : (∀ response, ¬ Succeeds raw response) →
    ∀ text, result = .ok text ↔ GivesText contents text
  unreadable : (∃ reason, result = .error (.unreadableFile path reason)) ↔
    (∀ response, ¬ Succeeds raw response) ∧ (∀ text, ¬ GivesText contents text) ∧
      ¬ IsTooDeep contents
  unforeseen : (∃ cause, result = .error (.unexpected cause)) ↔
    (∀ response, ¬ Succeeds raw response) ∧ IsTooDeep contents
  nothing_else : ∀ failure, result = .error failure →
    (∃ reason, failure = .unreadableFile path reason) ∨ ∃ cause, failure = .unexpected cause

theorem textIn_of_succeeds {raw contents : Except ExchangeFault Response} {response : Response}
    (h : Succeeds raw response) : textIn path raw contents = .ok response.text := by
  obtain ⟨rfl, herror⟩ := h
  simp [textIn, herror]

theorem textIn_of_not {raw contents : Except ExchangeFault Response}
    (h : ∀ response, ¬ Succeeds raw response) :
    textIn path raw contents = contentsIn path contents := by
  cases raw with
  | error fault => rfl
  | ok response =>
      have herror : response.isError = true := by
        by_contra hnot
        exact h response ⟨rfl, Bool.eq_false_iff.mpr hnot⟩
      simp [textIn, herror]

theorem textReport_of_succeeds {raw contents : Except ExchangeFault Response}
    {response : Response} (h : Succeeds raw response) :
    TextReport path raw contents (.ok response.text) := by
  constructor
  case from_mirror =>
    intro other hother
    obtain rfl := Except.ok.inj (h.1.symm.trans hother.1)
    rfl
  case from_service => exact fun hnot => absurd h (hnot response)
  case unreadable => exact ⟨fun ⟨_, herror⟩ => (nomatch herror), fun hnot => absurd h (hnot.1 response)⟩
  case unforeseen => exact ⟨fun ⟨_, herror⟩ => (nomatch herror), fun hnot => absurd h (hnot.1 response)⟩
  case nothing_else => exact fun failure herror => nomatch herror

theorem textReport (path : String) (raw contents : Except ExchangeFault Response) :
    TextReport path raw contents (textIn path raw contents) := by
  by_cases hraw : ∃ response, Succeeds raw response
  · obtain ⟨response, hresponse⟩ := hraw
    rw [textIn_of_succeeds hresponse]
    exact textReport_of_succeeds hresponse
  · have hnot := not_exists.mp hraw
    rw [textIn_of_not hnot]
    have htold {result : Except Failure String} (h : contentsIn path contents = result) :
        TextTold path contents result := by
      rw [← h]
      exact textTold_contentsIn path contents
    constructor
    case from_mirror => exact fun response h => absurd h (hnot response)
    case from_service => exact fun _ text => ⟨htold, contentsIn_of_givesText⟩
    case unreadable =>
      refine ⟨fun ⟨_, h⟩ => ⟨hnot, (htold h).2⟩, fun ⟨_, hnone, hdeep⟩ => ?_⟩
      cases hresult : contentsIn path contents with
      | ok text => exact absurd (htold hresult) (hnone text)
      | error failure =>
          have hkind := htold hresult
          cases failure with
          | unreadableFile shown reason => exact ⟨reason, by rw [hkind.1]⟩
          | unexpected cause => exact absurd hkind hdeep
          | _ => exact hkind.elim
    case unforeseen =>
      exact ⟨fun ⟨_, h⟩ => ⟨hnot, htold h⟩, fun h => contentsIn_of_isTooDeep h.2⟩
    case nothing_else =>
      intro failure h
      have hkind := htold h
      cases failure with
      | unreadableFile shown reason => exact .inl ⟨reason, by rw [hkind.1]⟩
      | unexpected cause => exact .inr ⟨cause, rfl⟩
      | _ => exact hkind.elim

theorem fails_eq_true_iff :
    c.fails q = true ↔ ∀ response, ¬ Succeeds (c.sent q).1 response := by
  rw [fails]
  constructor
  · rintro h response ⟨hresponse, herror⟩
    rw [hresponse] at h
    exact Bool.false_ne_true (herror.symm.trans h)
  · intro h
    cases hresult : (c.sent q).1 with
    | error fault => rfl
    | ok response =>
        by_contra herror
        exact h response ⟨hresult, Bool.eq_false_iff.mpr herror⟩

/-- The service itself is asked for a file if and only if the mirror does not give it. -/
theorem requests_readText_of_some {other : Request} (h : c.rawRequest? r path = some q)
    (h' : c.contentsRequest? r path = some other) (t : Traffic) :
    (outcome (c.readText r path) t).2.requests =
      t.requests ++ (c.sent q).2 ++ if c.fails q then (c.sent other).2 else [] := by
  rw [requests_readText, issued, h, List.append_assoc]
  cases hfails : c.fails q with
  | true => simp [hfails, h']
  | false => simp [hfails]

end Text

section Loose

variable {c : HostClient} {r : LooseCoordinates} {path : LooseText}

/-- Whether something fails before anything is sent or told. -/
def FailsUnasked {α : Type} (ask : Online α) (t : Traffic) : Prop :=
  ∃ cause, outcome ask t = (.error (.unexpected cause), t)

theorem exists_strict_error (h : r.branch.IsBroken) : ∃ cause, r.strict = .error cause := by
  obtain ⟨cause, hcause⟩ := LooseText.strict_fails_iff.mpr h
  exact ⟨cause, by rw [LooseCoordinates.strict, hcause]; rfl⟩

theorem failsUnasked_fetchLooseListing (h : r.branch.IsBroken) (t : Traffic) :
    FailsUnasked (c.fetchLooseListing r) t := by
  obtain ⟨cause, hcause⟩ := exists_strict_error h
  refine ⟨cause, ?_⟩
  rw [fetchLooseListing, hcause]
  exact outcome_throw _ _

/-- The branch is written before the path. -/
theorem failsUnasked_readLooseText (h : r.branch.IsBroken ∨ path.IsBroken) (t : Traffic) :
    FailsUnasked (c.readLooseText r path) t := by
  cases hr : r.strict with
  | error cause =>
      refine ⟨cause, ?_⟩
      simp only [readLooseText, hr]
      exact outcome_throw _ _
  | ok known =>
      have hpath : path.IsBroken := by
        refine h.resolve_left fun hbranch => ?_
        obtain ⟨cause, hcause⟩ := exists_strict_error hbranch
        rw [hr] at hcause
        cases hcause
      obtain ⟨cause, hcause⟩ := LooseText.strict_fails_iff.mpr hpath
      refine ⟨cause, ?_⟩
      simp only [readLooseText, hr, hcause]
      exact outcome_throw _ _

theorem strict_loose (known : Coordinates) : known.loose.strict = .ok known := by
  rw [LooseCoordinates.strict, Coordinates.loose, LooseText.strict_ofString]
  rfl

theorem fetchLooseListing_loose (c : HostClient) (known : Coordinates) :
    c.fetchLooseListing known.loose = c.fetchListing known := by
  rw [fetchLooseListing, strict_loose]

theorem readLooseText_loose (c : HostClient) (known : Coordinates) (text : String) :
    c.readLooseText known.loose (.ofString text) = c.readText known text := by
  simp only [readLooseText, strict_loose, LooseText.strict_ofString]

end Loose

end HostClient

open HostClient

/--
What is reported of a listing and of a file, told by what came of the requests. Of
both, what is unforeseen is reported as such: a branch or a path that cannot be written,
of which nothing is sent, an answer that is nested too deeply, and a listing that has a
list or an object in the place of a type.
-/
theorem failures_of_hosting (c : HostClient) (r : LooseCoordinates) (path : LooseText)
    (t : Traffic) :
    (r.branch.IsBroken → FailsUnasked (c.fetchLooseListing r) t) ∧
      (r.branch.IsBroken ∨ path.IsBroken → FailsUnasked (c.readLooseText r path) t) ∧
      (∀ known tree, r = known.loose →
        c.asked? true (c.treeAddress known) (some [("recursive", "1")]) = some tree →
          TreeReport (c.sent tree).1 (outcome (c.fetchLooseListing r) t).1) ∧
      ∀ known text raw contents, r = known.loose → path = .ofString text →
        c.rawRequest? known text = some raw → c.contentsRequest? known text = some contents →
          TextReport text (c.sent raw).1 (c.sent contents).1
              (outcome (c.readLooseText r path) t).1 ∧
            (∀ response, Succeeds (c.sent raw).1 response →
              (outcome (c.readLooseText r path) t).2.requests =
                t.requests ++ (c.sent raw).2) ∧
            ((∀ response, ¬ Succeeds (c.sent raw).1 response) →
              (outcome (c.readLooseText r path) t).2.requests =
                t.requests ++ (c.sent raw).2 ++ (c.sent contents).2) := by
  refine ⟨fun h => failsUnasked_fetchLooseListing h t, fun h => failsUnasked_readLooseText h t,
    fun known tree hr htree => ?_, fun known text raw contents hr hpath hraw hcontents => ?_⟩
  · rw [hr, fetchLooseListing_loose, outcome_fetchListing htree]
    exact treeReport _
  · rw [hr, hpath, readLooseText_loose]
    have hrequests := requests_readText_of_some hraw hcontents t
    refine ⟨?_, fun response h => ?_, fun h => ?_⟩
    · rw [outcome_readText hraw hcontents]
      exact textReport _ _ _
    · have hfails : c.fails raw = false := by
        by_contra hnot
        exact fails_eq_true_iff.mp (Bool.eq_true_of_not_eq_false hnot) response h
      rw [hrequests, hfails]
      simp
    · rw [hrequests, fails_eq_true_iff.mpr h]
      rfl

namespace SampleFailures

/-- A client of a service that gives one answer to all that it is asked. -/
def client (response : Response) : HostClient where
  settings := { apiBase := "http://api", rawBase := "http://raw" }
  network := fun _ => .answered response

def repository : Coordinates where
  owner := "acme"
  name := "site"

def path : String := "a.ts"

/-- A path of one half of a surrogate pair. -/
def broken : LooseText := [.surrogate 0]

theorem isBroken_broken : broken.IsBroken :=
  ⟨0, List.mem_singleton_self _⟩

/-- A listing with a list in the place of a type. -/
def listing : Json :=
  .obj [("tree", .arr [.obj [("path", .str path), ("type", .arr [.str "blob"])]])]

def listed : Response where
  status := 200
  body := Utf8.encode listing.compact

theorem sent_client {response : Response} (h : response.redirection? = none) (q : Request) :
    (client response).sent q = (.ok response, [q]) := by
  have hnetwork : (client response).network q = .answered response := rfl
  rw [sent, Request.send.eq_def]
  simp only [hnetwork, h]

def missing : Response where
  status := 404

theorem asked_client : ((client missing).asked? true
      ((client missing).treeAddress repository) (some [("recursive", "1")])).isSome ∧
    ((client missing).rawRequest? repository path).isSome ∧
      ((client missing).contentsRequest? repository path).isSome := by
  decide +kernel

/-- Requests for the listing and for the file can be made, whatever is answered. -/
theorem exists_requests (response : Response) : ∃ tree raw contents,
    (client response).asked? true ((client response).treeAddress repository)
        (some [("recursive", "1")]) = some tree ∧
      (client response).rawRequest? repository path = some raw ∧
      (client response).contentsRequest? repository path = some contents := by
  obtain ⟨htree, hraw, hcontents⟩ := asked_client
  obtain ⟨tree, htree⟩ := Option.isSome_iff_exists.mp htree
  obtain ⟨raw, hraw⟩ := Option.isSome_iff_exists.mp hraw
  obtain ⟨contents, hcontents⟩ := Option.isSome_iff_exists.mp hcontents
  have hclient (api : Bool) (address : String) (params : Option (List (String × String))) :
      (client response).asked? api address params = (client missing).asked? api address params :=
    rfl
  simp only [rawRequest?, contentsRequest?, hclient]
  exact ⟨tree, raw, contents, htree, hraw, hcontents⟩

/-- A service that has nothing is reported as such, and is asked for the file after the mirror.
For a path that cannot be written it is not asked. -/
theorem failures_of_hosting_sample : ∃ tree raw contents,
    (client missing).asked? true ((client missing).treeAddress repository)
        (some [("recursive", "1")]) = some tree ∧
      (client missing).rawRequest? repository path = some raw ∧
      (client missing).contentsRequest? repository path = some contents ∧
      (∃ message, (outcome ((client missing).fetchLooseListing repository.loose) {}).1 =
        .error (.repositoryNotFound message)) ∧
      (∃ reason, (outcome ((client missing).readLooseText repository.loose (.ofString path)) {}).1 =
        .error (.unreadableFile path reason)) ∧
      (outcome ((client missing).readLooseText repository.loose (.ofString path)) {}).2.requests =
        [raw, contents] ∧
      FailsUnasked ((client missing).readLooseText repository.loose broken) {} := by
  obtain ⟨tree, raw, contents, htree, hraw, hcontents⟩ := exists_requests missing
  have hsent (q : Request) : (client missing).sent q = (.ok missing, [q]) := sent_client rfl q
  obtain ⟨-, -, hlisting, htext⟩ :=
    failures_of_hosting (client missing) repository.loose (.ofString path) {}
  obtain ⟨htextReport, -, hboth⟩ := htext repository path raw contents rfl rfl hraw hcontents
  obtain ⟨-, hunasked, -⟩ := failures_of_hosting (client missing) repository.loose broken {}
  have hnone (q : Request) (response : Response) :
      ¬ Succeeds ((client missing).sent q).1 response := by
    rintro ⟨hresponse, herror⟩
    rw [hsent q] at hresponse
    obtain rfl := Except.ok.inj hresponse
    cases herror
  refine ⟨tree, raw, contents, htree, hraw, hcontents, ?_, ?_, ?_,
    hunasked (.inr isBroken_broken)⟩
  · exact (hlisting repository tree rfl htree).missing.mpr
      ⟨missing, congrArg Prod.fst (hsent tree), rfl⟩
  · refine htextReport.unreadable.mpr ⟨hnone raw, fun text h => ?_, fun h => ?_⟩
    · exact hnone contents h.choose h.choose_spec.1
    · exact hnone contents h.choose h.choose_spec.1
  · rw [hboth (hnone raw), hsent raw, hsent contents]
    rfl

theorem readable_listing : Json.Readable Json.maxDepth listing := by
  have hitem : Json.Readable 978 (.obj [("path", .str path), ("type", .arr [.str "blob"])]) := by
    refine .obj (by simp) fun field hfield => ?_
    simp only [List.mem_cons, List.not_mem_nil, or_false] at hfield
    rcases hfield with rfl | rfl
    · exact .str _
    · refine .arr fun item hitem => ?_
      obtain rfl := List.mem_singleton.mp hitem
      exact .str _
  refine .obj (List.nodup_singleton _) fun field hfield => ?_
  obtain rfl := List.mem_singleton.mp hfield
  refine .arr fun item hmem => ?_
  obtain rfl := List.mem_singleton.mp hmem
  exact hitem

theorem json_listed : listed.json = .ok listing :=
  Response.json_of_compact rfl readable_listing

/-- Not all failures are foreseen: an item with a list for its type is not left out. -/
theorem not_all_failures_foreseen :
    ¬ ∀ (c : HostClient) (r : Coordinates) (tree : Request) (t : Traffic),
      c.asked? true (c.treeAddress r) (some [("recursive", "1")]) = some tree →
      ∀ cause, (outcome (c.fetchListing r) t).1 ≠ .error (.unexpected cause) := by
  intro hforeseen
  obtain ⟨tree, -, -, htree, -⟩ := exists_requests listed
  have hsucceeds : Succeeds ((client listed).sent tree).1 listed :=
    ⟨congrArg Prod.fst (sent_client rfl tree), rfl⟩
  obtain ⟨cause, hcause⟩ := (treeReport ((client listed).sent tree).1).unforeseen.mpr
    ⟨listed, hsucceeds, .inr ⟨_, ⟨listing, json_listed, rfl⟩, _, List.mem_singleton_self _,
      ⟨.ofString path, rfl⟩, _, rfl, trivial⟩⟩
  refine hforeseen (client listed) repository tree {} htree cause ?_
  rw [outcome_fetchListing htree, hcause]

end SampleFailures

end RepoAtlas
