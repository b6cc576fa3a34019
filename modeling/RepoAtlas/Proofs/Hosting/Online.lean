import RepoAtlas.Hosting.Client

/-!
What is done online, step by step: every step leaves a result and adds to the
traffic, and only asking for an address adds requests.
-/
namespace RepoAtlas.HostClient

/-- What is done online from some traffic on: the result, and the traffic after it. -/
def outcome {α : Type} (ask : Online α) (t : Traffic) : Except Failure α × Traffic :=
  (ask.run).run t

section Outcome

variable {α β : Type} (t : Traffic)

theorem outcome_bind (ask : Online α) (next : α → Online β) :
    outcome (ask >>= next) t = match outcome ask t with
      | (.ok a, later) => outcome (next a) later
      | (.error failure, later) => (.error failure, later) := by
  unfold outcome
  rw [ExceptT.run_bind, StateT.run_bind]
  generalize (ask.run).run t = found
  rcases found with ⟨_ | _, later⟩ <;> rfl

theorem outcome_tryCatch (ask : Online α) (next : Failure → Online α) :
    outcome (tryCatch ask next) t = match outcome ask t with
      | (.ok a, later) => (.ok a, later)
      | (.error failure, later) => outcome (next failure) later := by
  simp only [outcome, tryCatch, tryCatchThe, MonadExceptOf.tryCatch, ExceptT.tryCatch,
    ExceptT.run_mk]
  rw [StateT.run_bind]
  have hrun : StateT.run ask t = (ask.run).run t := rfl
  rw [hrun]
  generalize (ask.run).run t = found
  rcases found with ⟨_ | _, later⟩ <;> rfl

theorem outcome_throw (failure : Failure) :
    outcome (throw failure : Online α) t = (.error failure, t) := rfl

theorem outcome_lift (result : Except Failure α) :
    outcome (liftM result : Online α) t = (result, t) := by
  cases result <;> rfl

theorem outcome_tell (record : LogRecord) :
    outcome (tell record) t = (.ok (), { t with records := t.records ++ [record] }) := rfl

end Outcome

variable {c : HostClient} {api : Bool} {address : String}
  {params : Option (List (String × String))}

/-- The request for an address, if it can be made and the client is open. -/
def asked? (c : HostClient) (api : Bool) (address : String)
    (params : Option (List (String × String))) : Option Request :=
  match c.request api address params with
  | .ok q => if c.isClosed then none else some q
  | .error _ => none

/-- What a request comes to, and the requests that it takes. -/
def sent (c : HostClient) (q : Request) : Except ExchangeFault Response × List Request :=
  q.send c.network Request.maxRedirections

theorem head?_sent (c : HostClient) (q : Request) : (c.sent q).2.head? = some q := by
  rw [sent]
  unfold Request.send
  repeat' split
  all_goals rfl

theorem outcome_get_of_none (h : c.asked? api address params = none) (t : Traffic) :
    ∃ cause, outcome (c.get api address params) t = (.error (.unexpected cause), t) := by
  rw [asked?] at h
  unfold get
  split at h
  · next q hq =>
    split at h
    · next hclosed =>
      rw [hq]
      exact ⟨closedFailure, by simp only [hclosed, if_true, outcome_bind, outcome_throw]⟩
    · cases h
  · next cause hcause =>
    rw [hcause]
    exact ⟨cause, rfl⟩

theorem outcome_get_of_some {q : Request} (h : c.asked? api address params = some q)
    (t : Traffic) : outcome (c.get api address params) t =
      (.ok ((c.sent q).1.mapError ExchangeFault.message),
        { t with requests := t.requests ++ (c.sent q).2 }) := by
  rw [asked?] at h
  unfold get
  split at h
  · next q hq =>
    split at h
    · cases h
    · next hopen =>
      cases h
      rw [hq]
      simp only [hopen, sent]
      rcases Request.send c.network Request.maxRedirections q with ⟨_ | _, requests⟩ <;> rfl
  · cases h

/-- What is asked for an address, and with which credentials. -/
theorem asked?_eq_some {q : Request} (h : c.asked? api address params = some q) :
    ∃ found, Address.ofString address = .ok found ∧
      q.authorization = (if api then authorization? c.settings else none) ∧
      (found.isAbsolute → q.address = (params.map found.withQuery).getD found) := by
  rw [asked?] at h
  split at h
  · next made hmade =>
      rw [request] at hmade
      split at h
      · cases h
      · cases h
        split at hmade
        · cases hmade
        · next found hfound =>
            simp only at hmade
            split at hmade
            · cases hmade
            · cases hmade
              refine ⟨found, hfound, rfl, fun habsolute => ?_⟩
              rw [if_pos habsolute]
  · cases h

end RepoAtlas.HostClient
