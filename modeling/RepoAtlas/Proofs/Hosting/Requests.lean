import RepoAtlas.Proofs.Hosting.Online
import RepoAtlas.Proofs.Http.Base
import RepoAtlas.Proofs.Repository.Location

/-!
The requests that are sent to read a file of a hosted repository: where they lead,
and which of them show the credentials.
-/
namespace RepoAtlas

namespace HostClient

open Address (IsBase IsUnder StaysIn)

variable {c : HostClient} {api : Bool} {address : String}
  {params : Option (List (String × String))} {r : Coordinates} {path : String} {q : Request}

/-- Whether a request yields nothing: no answer, or one that tells of an error. -/
def fails (c : HostClient) (q : Request) : Bool :=
  match (c.sent q).1 with
  | .ok response => response.isError
  | .error _ => true

/-- The request for a file at the mirror. -/
def rawRequest? (c : HostClient) (r : Coordinates) (path : String) : Option Request :=
  c.asked? false (c.rawAddress r path) none

/-- The request for a file at the service itself. -/
def contentsRequest? (c : HostClient) (r : Coordinates) (path : String) : Option Request :=
  c.asked? true (c.contentsAddress r path) (some [("ref", r.branch)])

/-- The requests that are issued to read a file, redirections apart. -/
def issued (c : HostClient) (r : Coordinates) (path : String) : List Request :=
  match c.rawRequest? r path with
  | none => []
  | some q => if c.fails q then q :: (c.contentsRequest? r path).toList else [q]

theorem mem_issued (h : q ∈ c.issued r path) :
    c.rawRequest? r path = some q ∨ c.contentsRequest? r path = some q := by
  rw [issued] at h
  split at h
  · cases h
  · next first hfirst =>
      split at h
      · rcases List.mem_cons.mp h with rfl | hmem
        · exact .inl hfirst
        · exact .inr (Option.mem_toList.mp hmem)
      · rw [List.mem_singleton] at h
        exact .inl (h ▸ hfirst)

theorem outcome_fetchRaw_of_none (h : c.rawRequest? r path = none) (t : Traffic) :
    ∃ cause, outcome (c.fetchRaw r path) t = (.error (.unexpected cause), t) := by
  obtain ⟨cause, hcause⟩ := outcome_get_of_none h t
  refine ⟨cause, ?_⟩
  rw [fetchRaw, outcome_bind, hcause]

/-- Reading from the mirror takes the requests of one address, and tells whether that fails. -/
theorem outcome_fetchRaw_of_some (h : c.rawRequest? r path = some q) (t : Traffic) :
    (∃ reason, c.fails q = true ∧ outcome (c.fetchRaw r path) t =
        (.error (.unreadableFile path reason),
          { t with requests := t.requests ++ (c.sent q).2 })) ∨
      ∃ text, c.fails q = false ∧ outcome (c.fetchRaw r path) t =
        (.ok text, { t with requests := t.requests ++ (c.sent q).2 }) := by
  have hget := outcome_get_of_some h t
  rw [fetchRaw, outcome_bind, hget, fails]
  cases hresult : (c.sent q).1 with
  | error fault => exact .inl ⟨fault.message, rfl, rfl⟩
  | ok response =>
      cases herror : response.isError with
      | true =>
          refine .inl ⟨s!"raw mirror returned {response.status}", herror, ?_⟩
          simp only [Except.mapError, herror, if_true, outcome_bind, outcome_throw]
      | false =>
          refine .inr ⟨response.text, herror, ?_⟩
          simp only [Except.mapError, herror]
          rfl

theorem outcome_fetchContents_of_none (h : c.contentsRequest? r path = none) (t : Traffic) :
    (outcome (c.fetchContents r path) t).2 = t := by
  obtain ⟨cause, hcause⟩ := outcome_get_of_none h t
  rw [fetchContents, outcome_bind, hcause]

theorem outcome_fetchContents_of_some (h : c.contentsRequest? r path = some q) (t : Traffic) :
    (outcome (c.fetchContents r path) t).2 =
      { t with requests := t.requests ++ (c.sent q).2 } := by
  have hget := outcome_get_of_some h t
  rw [fetchContents, outcome_bind, hget]
  cases hresult : (c.sent q).1 with
  | error fault => rfl
  | ok response =>
      cases herror : response.isError with
      | true => simp only [Except.mapError, herror, if_true, outcome_bind, outcome_throw]
      | false =>
          simp only [Except.mapError, herror]
          generalize documentOf response _ = read
          cases read with
          | error failure => rfl
          | ok document => exact congrArg Prod.snd (outcome_lift _ (contentOf path document))

/-- Reading a file takes the requests that are issued, with their redirections. -/
theorem requests_readText (c : HostClient) (r : Coordinates) (path : String) (t : Traffic) :
    (outcome (c.readText r path) t).2.requests =
      t.requests ++ (c.issued r path).flatMap fun q => (c.sent q).2 := by
  rw [readText, outcome_tryCatch, issued]
  cases hraw : c.rawRequest? r path with
  | none =>
      obtain ⟨cause, hcause⟩ := outcome_fetchRaw_of_none hraw t
      rw [hcause]
      simp [outcome_throw]
  | some q =>
      rcases outcome_fetchRaw_of_some hraw t with ⟨reason, hfails, hfirst⟩ | ⟨text, hfails, hfirst⟩
      · rw [hfirst]
        simp only [hfails, if_true, outcome_bind, outcome_tell, List.flatMap_cons]
        cases hcontents : c.contentsRequest? r path with
        | none => simp [outcome_fetchContents_of_none hcontents]
        | some other => simp [outcome_fetchContents_of_some hcontents]
      · rw [hfirst]
        simp [hfails]

/-- The names of the folder in which the mirror keeps the files of a repository. -/
def rawFolder (r : Coordinates) : List String :=
  r.owner :: r.name :: (Text.splitOnChar '/' r.branch).map (Percent.quote [])

/-- The names of the folder in which the service keeps the files of a repository. -/
def contentsFolder (r : Coordinates) : List String :=
  ["repos", r.owner, r.name, "contents"]

theorem rawAddress_eq (c : HostClient) (r : Coordinates) (path : String) :
    c.rawAddress r path = c.settings.rawBase ++ "/" ++
      (r.owner ++ "/" ++ r.name ++ "/" ++ Percent.quotePath r.branch ++ "/" ++
        Percent.quotePath path) := by
  simp only [rawAddress, String.append_assoc]

theorem contentsAddress_eq (c : HostClient) (r : Coordinates) (path : String) :
    c.contentsAddress r path = c.settings.apiBase ++ "/" ++
      ("repos" ++ "/" ++ r.owner ++ "/" ++ r.name ++ "/" ++ "contents" ++ "/" ++
        Percent.quotePath path) := by
  have hrepos : "/repos/" = "/" ++ ("repos" ++ "/") := rfl
  have hcontents : "/contents/" = "/" ++ ("contents" ++ "/") := rfl
  simp only [contentsAddress, repositoryAddress, hrepos, hcontents, String.append_assoc]

theorem splitOnChar_rawFolder (howner : '/' ∉ r.owner.toList)
    (hname : '/' ∉ r.name.toList) :
    Text.splitOnChar '/' (r.owner ++ "/" ++ r.name ++ "/" ++ Percent.quotePath r.branch) =
      rawFolder r := by
  rw [Text.splitOnChar_append, Text.splitOnChar_append, Text.splitOnChar_of_not_mem howner,
    Text.splitOnChar_of_not_mem hname, Percent.splitOnChar_quotePath]
  rfl

theorem splitOnChar_contentsFolder (howner : '/' ∉ r.owner.toList)
    (hname : '/' ∉ r.name.toList) :
    Text.splitOnChar '/' ("repos" ++ "/" ++ r.owner ++ "/" ++ r.name ++ "/" ++ "contents") =
      contentsFolder r := by
  rw [Text.splitOnChar_append, Text.splitOnChar_append, Text.splitOnChar_append,
    Text.splitOnChar_of_not_mem howner, Text.splitOnChar_of_not_mem hname]
  rfl

theorem isUnder_withQuery {base a : Address} {folder : List String}
    (query : List (String × String)) :
    IsUnder (a.withQuery query) base folder ↔ IsUnder a base folder := by
  rw [Address.withQuery]
  split <;> rfl

/-- What is asked about a file of a folder leads there as its path does. -/
theorem isUnder_asked?_iff {text front : String} {base : Address}
    (hbase : IsBase text base)
    (h : c.asked? api (text ++ "/" ++ (front ++ "/" ++ Percent.quotePath path)) params = some q) :
    IsUnder q.address base (Text.splitOnChar '/' front) ↔
      StaysIn base (Text.splitOnChar '/' front) path := by
  obtain ⟨found, hfound, -, haddress⟩ := asked?_eq_some h
  obtain ⟨top, -, -, -, hcontinues⟩ := hbase.exists_names
  have habsolute := (hcontinues _ found hfound).1.isAbsolute hbase.absolute
  rw [haddress habsolute, ← hbase.isUnder_iff hfound]
  cases params with
  | none => rfl
  | some query => exact isUnder_withQuery query

end HostClient

open HostClient

/--
The requests that read a file of a repository lead below its folder at the mirror
or at the service if and only if the path stays in the folder. Only what is asked
of the service itself shows the credentials.
-/
theorem readText_requests {c : HostClient} {location : String} {branch : Option String}
    {r : Coordinates} {rawBase apiBase : Address}
    (hr : Coordinates.ofLocation? location branch = some r)
    (hraw : Address.IsBase c.settings.rawBase rawBase)
    (hapi : Address.IsBase c.settings.apiBase apiBase) (path : String) :
    ((c.readText r path).run.run {}).2.requests =
        (c.issued r path).flatMap (fun q => (c.sent q).2) ∧
      ∀ q ∈ c.issued r path, (c.sent q).2.head? = some q ∧
        (c.rawRequest? r path = some q ∧ q.authorization = none ∧
            (q.address.IsUnder rawBase (rawFolder r) ↔ rawBase.StaysIn (rawFolder r) path) ∨
          c.contentsRequest? r path = some q ∧ q.authorization = authorization? c.settings ∧
            (q.address.IsUnder apiBase (contentsFolder r) ↔
              apiBase.StaysIn (contentsFolder r) path)) := by
  obtain ⟨howner, hname⟩ := Coordinates.noSlash_of_ofLocation? hr
  constructor
  · have hrequests := requests_readText c r path {}
    rw [List.nil_append, outcome] at hrequests
    exact hrequests
  · intro q hq
    refine ⟨head?_sent c q, ?_⟩
    rcases mem_issued hq with hasked | hasked
    · obtain ⟨found, -, hsecret, -⟩ := asked?_eq_some hasked
      refine .inl ⟨hasked, hsecret, ?_⟩
      rw [rawRequest?, rawAddress_eq] at hasked
      rw [← splitOnChar_rawFolder howner hname]
      exact isUnder_asked?_iff hraw hasked
    · obtain ⟨found, -, hsecret, -⟩ := asked?_eq_some hasked
      refine .inr ⟨hasked, hsecret, ?_⟩
      rw [contentsRequest?, contentsAddress_eq] at hasked
      rw [← splitOnChar_contentsFolder howner hname]
      exact isUnder_asked?_iff hapi hasked

namespace StepsUp

/-- A client with a token, whose requests are all answered as not found. -/
def client : HostClient where
  settings := { token := some "t0ken" }
  network := fun _ => .answered { status := 404 }

def repository : Coordinates where
  owner := "acme"
  name := "widgets"

/-- A path that leads out of the folder, and then to another place. -/
def path : String := "../../../../user"

def rawBase : Address where
  scheme := "https"
  host := "raw.githubusercontent.com"

def apiBase : Address where
  scheme := "https"
  host := "api.github.com"

/-- Where the path leads at the service. -/
def user : Address :=
  { apiBase with path := "/user", query := some "ref=main" }

theorem ofLocation?_repository :
    Coordinates.ofLocation? "acme/widgets" none = some repository := by
  decide +kernel

theorem isBase_rawBase : Address.IsBase client.settings.rawBase rawBase where
  reads := by
    have htext : client.settings.rawBase = "https://raw.githubusercontent.com" := rfl
    rw [htext]
    decide +kernel
  absolute := by decide
  query := rfl
  fragment := rfl

theorem isBase_apiBase : Address.IsBase client.settings.apiBase apiBase where
  reads := by
    have htext : client.settings.apiBase = "https://api.github.com" := rfl
    rw [htext]
    decide +kernel
  absolute := by decide
  query := rfl
  fragment := rfl

theorem issued_client :
    (client.issued repository path).map (fun q => (q.address, q.authorization)) =
      [({ rawBase with path := "/user" }, none), (user, some "token t0ken")] := by
  decide +kernel

theorem exists_user : ∃ q ∈ client.issued repository path,
    q.address = user ∧ q.authorization = some "token t0ken" := by
  have hmem : (user, some "token t0ken") ∈
      (client.issued repository path).map (fun q => (q.address, q.authorization)) := by
    rw [issued_client]
    simp
  obtain ⟨q, hq, heq⟩ := List.mem_map.mp hmem
  exact ⟨q, hq, (Prod.mk.inj heq).1, (Prod.mk.inj heq).2⟩

theorem not_isUnder_user : ¬user.IsUnder rawBase (rawFolder repository) ∧
    ¬user.IsUnder apiBase (contentsFolder repository) := by
  have huser : user.names = ["", "user"] := by decide
  constructor
  · rintro ⟨⟨-, -, hhost, -⟩, -⟩
    exact absurd hhost (by decide)
  · rintro ⟨-, hbelow⟩
    have hlength := hbelow.length_lt
    have hfolder : (contentsFolder repository).length = 4 := rfl
    rw [huser, List.length_append, List.length_map, hfolder, List.length_cons,
      List.length_singleton] at hlength
    omega

/-- The path does not stay in the folder, and the credentials go along to where it leads. -/
theorem readText_requests_user :
    Coordinates.ofLocation? "acme/widgets" none = some repository ∧
      Address.IsBase client.settings.rawBase rawBase ∧
      Address.IsBase client.settings.apiBase apiBase ∧
      ¬apiBase.StaysIn (contentsFolder repository) path ∧
      ∃ q ∈ ((client.readText repository path).run.run {}).2.requests,
        q.address = user ∧ q.authorization = some "token t0ken" := by
  have hrequests :=
    readText_requests ofLocation?_repository isBase_rawBase isBase_apiBase path
  obtain ⟨q, hq, haddress, hsecret⟩ := exists_user
  obtain ⟨hhead, hkind⟩ := hrequests.2 q hq
  refine ⟨ofLocation?_repository, isBase_rawBase, isBase_apiBase, ?_, q, ?_, haddress, hsecret⟩
  · rcases hkind with ⟨-, hnone, -⟩ | ⟨-, -, hiff⟩
    · rw [hsecret] at hnone
      cases hnone
    · rw [← hiff, haddress]
      exact not_isUnder_user.2
  · rw [hrequests.1]
    exact List.mem_flatMap.mpr ⟨q, hq, List.mem_of_head? hhead⟩

theorem not_always_inside :
    ¬∀ (c : HostClient) (location : String) (branch : Option String) (r : Coordinates)
      (rawBase apiBase : Address) (path : String),
      Coordinates.ofLocation? location branch = some r →
      Address.IsBase c.settings.rawBase rawBase → Address.IsBase c.settings.apiBase apiBase →
      ∀ q ∈ c.issued r path,
        q.address.IsUnder rawBase (rawFolder r) ∨ q.address.IsUnder apiBase (contentsFolder r) := by
  intro hinside
  obtain ⟨q, hq, haddress, -⟩ := exists_user
  have hunder := hinside client "acme/widgets" none repository rawBase apiBase path
    ofLocation?_repository isBase_rawBase isBase_apiBase q hq
  rw [haddress] at hunder
  exact hunder.elim not_isUnder_user.1 not_isUnder_user.2

end StepsUp

end RepoAtlas
