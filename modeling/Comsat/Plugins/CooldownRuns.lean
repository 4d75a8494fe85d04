import Comsat.Plugins.Cooldown
import Comsat.Plugins.FetchedRecords

set_option relaxedAutoImplicit false
set_option autoImplicit false

/-!
# Rate limits of GitHub and of Stack Exchange

Which waits the two services announce, which of them the sources note, and that the sources keep to
them as long as none is forgotten.

## Main definitions

* `GitHub.announces`, `StackExchange.announces` — the waits that an answer announces.
* `GitHub.notes`, `StackExchange.notes` — the waits that the source notes for it.
* `GitHubSource.system`, `StackExchangeSource.system` — the calls of the sources side by side.

## Main results

* `cooldowns_honoured` — deadlines are honoured in every run in which none is forgotten.
* `cooldown_forgotten` — a shorter wait undoes an earlier, longer one.
-/

namespace Comsat

/-! ## GitHub -/

namespace GitHub

variable [UpstreamLibrary]

/-- The wait of a rate limit. -/
def waitOf (error : SourceError) : List ℕ :=
  if error.errorClass = .rateLimit then [error.retryAfterSeconds.getD 60] else []

/-- The waits that the source notes: those of rate limits that the status tells. -/
def notes (_operation : OperationKind) (_request : HttpRequest) (response : HttpResponse) : List ℕ :=
  match checkedBody response with
  | .ok _ => []
  | .error error => waitOf error

/-- The waits that an answer announces: those of rate limits that the status tells, or the declared
error of an answer about discussions, which are the requests that post something. The declared error
has no seconds: it always counts as 60, also if the answer has a `retry-after` header, which is read
for the status only. -/
def announces (operation : OperationKind) (request : HttpRequest) (response : HttpResponse) :
    List ℕ :=
  notes operation request response ++
    if request.body.isSome then
      match (checkedBody response).bind payload with
      | .ok _ => []
      | .error error => waitOf error
    else []

/-- A request observes the waits that the source notes. -/
lemma observes_exchange (operation : OperationKind) (request : HttpRequest) :
    (exchange operation request).Observes operation (notes operation) [] := by
  rw [exchange]
  cases UpstreamLibrary.requestError request with
  | some message => rfl
  | none =>
    refine ⟨rfl, fun answer => ?_⟩
    cases answer with
    | error e => rfl
    | ok response =>
      cases hbody : checkedBody response with
      | ok body => simp [waitsOf, notes, hbody, Program.Observes]
      | error e =>
        simp only [waitsOf, notes, hbody, observeError, waitOf]
        split
        · exact ⟨rfl, [], rfl, rfl⟩
        · rfl

end GitHub

namespace GitHubSource

variable [UpstreamLibrary] (source : GitHubSource)

/-- A request to the REST interface observes the waits. -/
lemma observes_rest {α : Type} (read : Json → Option α) (operation : OperationKind) (url : String) :
    (source.rest read operation url).Observes operation (GitHub.notes operation) [] :=
  (GitHub.observes_exchange operation _).andThen fun _ => rfl

/-- A request to the GraphQL interface observes the waits. -/
lemma observes_graphql (operation : OperationKind) (request : Json) :
    (source.graphql operation request).Observes operation (GitHub.notes operation) [] := by
  rw [graphql]
  split
  · rfl
  · exact (GitHub.observes_exchange operation _).andThen fun _ => rfl

/-- A call that is held back until its operation is ready, is ready. -/
lemma ready_whenReady {α : Type} {operation : OperationKind}
    {next : Program (Except SourceError α)}
    (h : next.Observes operation (GitHub.notes operation) []) :
    (whenReady operation next).Ready operation (GitHub.notes operation) :=
  .inr ⟨_, rfl, h, fun _ => ⟨_, rfl⟩⟩

/-- A search is ready. -/
lemma ready_search (query : Query) :
    (source.searchRecords query).Ready .search (GitHub.notes .search) := by
  rw [searchRecords]
  split
  · exact .inl ⟨_, rfl⟩
  · refine ready_whenReady ?_
    simp only
    split
    · exact (source.observes_rest _ _ _).andThen fun _ => rfl
    · exact (source.observes_rest _ _ _).andThen fun _ => rfl
    · exact (source.observes_graphql _ _).andThen fun _ => rfl

variable [UrlLibrary]

/-- A fetch is ready. -/
lemma ready_fetch (target : Target) :
    (source.fetchRecord target).Ready .fetch (GitHub.notes .fetch) := by
  refine ready_whenReady ?_
  split
  · rfl
  · exact (source.observes_rest _ _ _).andThen fun _ => rfl
  · exact (source.observes_rest _ _ _).andThen fun _ => rfl
  · exact (source.observes_graphql _ _).andThen fun _ => rfl

/-- A follow is ready. -/
lemma ready_follow (target : Target) :
    (source.followRecords target).Ready .follow (GitHub.notes .follow) := by
  refine ready_whenReady ?_
  split
  · rfl
  · exact (source.observes_graphql _ _).andThen fun _ => rfl
  · rename_i repository number pullRequest _
    rw [issueDiscussion.eq_def]
    have hcomments : (source.issueComments repository number).Observes .follow
        (GitHub.notes .follow) [] := (source.observes_rest _ _ _).andThen fun _ => rfl
    have hreviews : (source.reviews repository number).Observes .follow
        (GitHub.notes .follow) [] := (source.observes_rest _ _ _).andThen fun _ => rfl
    have hreviewComments : (source.reviewComments repository number).Observes .follow
        (GitHub.notes .follow) [] := (source.observes_rest _ _ _).andThen fun _ => rfl
    refine Program.Observes.andThen ?_ fun known => hcomments.andThen fun comments => ?_
    · cases pullRequest with
      | some known => rfl
      | none => exact (source.observes_rest _ _ _).andThen fun _ => rfl
    · split
      · exact hreviews.andThen fun _ => hreviewComments.andThen fun _ => rfl
      · rfl
  · exact (source.observes_graphql _ _).andThen fun _ => rfl

/-- The calls of the source side by side. -/
def system (last : ℕ) : CooldownSystem := ⟨source.upstream, last, GitHub.announces, GitHub.notes⟩

/-- The calls of the source are ready. -/
lemma callsReady (last : ℕ) : (source.system last).CallsReady := by
  intro invocation
  cases invocation with
  | search query => exact (source.ready_search query).together.bind fun _ => ⟨_, rfl⟩
  | fetch target => exact (source.ready_fetch target).bind fun _ => ⟨_, rfl⟩
  | follow target => exact (source.ready_follow target).together.bind fun _ => ⟨_, rfl⟩

end GitHubSource

/-! ## Stack Exchange -/

namespace StackExchange

variable [UpstreamLibrary]

/-- The error of an answer: the declared one if it can be read, else that of the status, unless it
is one of success. -/
def surfaced {α : Type} (read : Json → Option α) (response : HttpResponse) : Option SourceError :=
  match parseStackResponse read response.json with
  | .ok _ => if response.isSuccess then none else some (httpError response)
  | .error error =>
    if response.isSuccess ∨ error.errorClass ≠ .protocol then some error
    else some (httpError response)

/-- The wait that the service asks for in the body of an answer. -/
def carriedBackoff (response : HttpResponse) : Option ℕ := do
  let [_, backoff, _, _, _] ← (← response.json).fields
    ["items", "backoff", "error_id", "error_name", "error_message"] | none
  Json.asU64? (← backoff)

/-- The waits that the source notes for an answer whose items are read alike. -/
def notesOf {α : Type} (read : Json → Option α) (response : HttpResponse) : List ℕ :=
  match parseStackResponse read response.json with
  | .ok parsed =>
    if response.isSuccess then parsed.backoff.toList else (httpError response).retryAfterSeconds.toList
  | .error error =>
    error.retryAfterSeconds.toList ++
      if response.isSuccess ∨ error.errorClass ≠ .protocol then []
      else (httpError response).retryAfterSeconds.toList

/-- The waits that an answer announces: that of the header when it is a rate limit, and that of the
body. -/
def announcesOf {α : Type} (read : Json → Option α) (response : HttpResponse) : List ℕ :=
  (if (surfaced read response).any fun error => error.errorClass = .rateLimit then
    (retryAfter response).toList else []) ++ (carriedBackoff response).toList

/-- The waits that the source notes: a follow reads answers, other calls questions. -/
def notes (operation : OperationKind) (_request : HttpRequest) (response : HttpResponse) : List ℕ :=
  if operation = .follow then notesOf Answer.fromValue response
  else notesOf Question.fromValue response

/-- The waits that an answer announces: a follow reads answers, other calls questions. -/
def announces (operation : OperationKind) (_request : HttpRequest) (response : HttpResponse) :
    List ℕ :=
  if operation = .follow then announcesOf Answer.fromValue response
  else announcesOf Question.fromValue response

omit [UpstreamLibrary] in
/-- A wait is noted before what follows. -/
lemma observes_observeBackoff {α : Type} {operation : OperationKind}
    {waits : HttpRequest → HttpResponse → List ℕ} {seconds : Option ℕ} {rest : List ℕ}
    {next : Program α} (h : next.Observes operation waits rest) :
    (observeBackoff operation seconds next).Observes operation waits (seconds.toList ++ rest) := by
  cases seconds with
  | none => exact h
  | some seconds => exact ⟨rfl, rest, rfl, h⟩

omit [UpstreamLibrary] in
/-- What follows a wait that is noted goes on afterwards. -/
lemma observeBackoff_andThen {α β : Type} (operation : OperationKind) (seconds : Option ℕ)
    (next : Program (Except SourceError α)) (f : α → Program (Except SourceError β)) :
    (observeBackoff operation seconds next).andThen f =
      observeBackoff operation seconds (next.andThen f) := by
  cases seconds <;> rfl

omit [UpstreamLibrary] in
/-- A call that notes a wait and ends. -/
lemma observes_observeBackoff_done {α : Type} {operation : OperationKind}
    {waits : HttpRequest → HttpResponse → List ℕ} {seconds : Option ℕ} {result : α} :
    (observeBackoff operation seconds (.done result)).Observes operation waits seconds.toList := by
  have hdone : (Program.done result).Observes operation waits [] := rfl
  rw [← List.append_nil seconds.toList]
  exact observes_observeBackoff hdone

/-- A request observes the waits that the source notes. -/
lemma observes_exchange {α : Type} (read : Json → Option α) (operation : OperationKind)
    (url : String) :
    (exchange read operation url).Observes operation (fun _ => notesOf read) [] := by
  rw [exchange]
  split
  · rfl
  · refine ⟨rfl, fun answer => ?_⟩
    cases answer with
    | error e => rfl
    | ok response =>
      simp only [waitsOf, notesOf, parseHttpResponse, parseResponse]
      cases hparse : parseStackResponse read response.json with
      | ok parsed =>
        cases hsuccess : response.isSuccess with
        | true => exact observes_observeBackoff_done
        | false =>
          simp only [Bool.false_eq_true, if_false, observeBackoff_andThen]
          exact observes_observeBackoff_done
      | error e =>
        cases hsuccess : response.isSuccess with
        | true =>
          simp only [if_true, true_or, observeBackoff_andThen]
          exact observes_observeBackoff rfl
        | false =>
          simp only [Bool.false_eq_true, if_false, false_or, observeBackoff_andThen]
          refine observes_observeBackoff ?_
          split
          · rfl
          · rw [observeBackoff_andThen]
            exact observes_observeBackoff_done

end StackExchange

namespace StackExchangeSource

open StackExchange

variable [UpstreamLibrary] (source : StackExchangeSource)

omit [UpstreamLibrary] in
/-- A call that is held back until its operation is ready, is ready. -/
lemma ready_whenReady {α : Type} {operation : OperationKind}
    {waits : HttpRequest → HttpResponse → List ℕ} {next : Program (Except SourceError α)}
    (h : next.Observes operation waits []) : (whenReady operation next).Ready operation waits :=
  .inr ⟨_, rfl, h, fun _ => ⟨_, rfl⟩⟩

/-- A search is ready. -/
lemma ready_search (query : Query) :
    (source.searchRecords query).Ready .search (StackExchange.notes .search) := by
  rw [searchRecords]
  split
  · exact .inl ⟨_, rfl⟩
  · refine ready_whenReady ?_
    split
    · rfl
    · exact (observes_exchange Question.fromValue .search _).andThen fun _ => rfl

variable [UrlLibrary]

/-- A fetch is ready. -/
lemma ready_fetch (target : Target) :
    (source.fetchRecord target).Ready .fetch (StackExchange.notes .fetch) := by
  refine ready_whenReady ?_
  split
  · rfl
  · exact (observes_exchange Question.fromValue .fetch _).andThen fun _ => rfl

/-- A follow is ready. -/
lemma ready_follow (target : Target) :
    (source.followRecords target).Ready .follow (StackExchange.notes .follow) := by
  refine ready_whenReady ?_
  split
  · rfl
  · exact (observes_exchange Answer.fromValue .follow _).andThen fun _ => rfl

/-- The calls of the source side by side. -/
def system (last : ℕ) : CooldownSystem :=
  ⟨source.upstream, last, StackExchange.announces, StackExchange.notes⟩

/-- The calls of the source are ready. -/
lemma callsReady (last : ℕ) : (source.system last).CallsReady := by
  intro invocation
  cases invocation with
  | search query => exact (source.ready_search query).together.bind fun _ => ⟨_, rfl⟩
  | fetch target => exact (source.ready_fetch target).bind fun _ => ⟨_, rfl⟩
  | follow target => exact (source.ready_follow target).together.bind fun _ => ⟨_, rfl⟩

end StackExchangeSource

/-! ## Both sources -/

/-- Deadlines are honoured in every run of either source whose steps all meet a condition. -/
def CooldownsHonoured [UpstreamLibrary] [UrlLibrary]
    (condition : CooldownSystem → CooldownState → CooldownAction → Prop) : Prop :=
  ∀ last, (∀ (source : GitHubSource) (actions : List CooldownAction),
      (∀ step ∈ (source.system last).machine.trace actions,
        condition (source.system last) step.before step.input) →
      ((source.system last).machine.run actions).Honoured) ∧
    ∀ (source : StackExchangeSource) (actions : List CooldownAction),
      (∀ step ∈ (source.system last).machine.trace actions,
        condition (source.system last) step.before step.input) →
      ((source.system last).machine.run actions).Honoured

/-- **Rate limits are honoured.** In every run of either source in which no deadline is forgotten, no
call that begins after a wait was announced for its operation sends a request before the wait is
over.

**Proof sketch.** The calls of both sources look at the deadline of their operation before they send
anything, and note the waits of every answer. -/
theorem cooldowns_honoured [UpstreamLibrary] [UrlLibrary] :
    CooldownsHonoured fun system => system.Covers := fun last =>
  ⟨fun source actions hcovers =>
      CooldownSystem.honoured_of_covers (source.callsReady last) actions hcovers,
    fun source actions hcovers =>
      CooldownSystem.honoured_of_covers (source.callsReady last) actions hcovers⟩

/-- A query for one word. -/
def sampleQuery : Query := ⟨"rust", none, none, none⟩

/-- An answer that asks to wait. -/
def rateLimited (seconds : String) : HttpResponse := ⟨429, some seconds, [], none⟩

/-- Two searches begin, the first is told to wait for a hundred seconds, the second for one second,
and a third search begins after two seconds. -/
def sampleActions : List CooldownAction :=
  [.start (.search sampleQuery), .start (.search sampleQuery), .respond 0 (.ok (rateLimited "100")),
    .respond 1 (.ok (rateLimited "1")), .pass (2 * nanoseconds), .start (.search sampleQuery)]

/-- A shorter wait undoes an earlier, longer one. -/
theorem cooldown_forgotten :
    letI : UpstreamLibrary := .plain
    letI : UrlLibrary := .gitHub
    ¬CooldownsHonoured fun _ _ _ => True := by
  let _ : UpstreamLibrary := .plain
  let _ : UrlLibrary := .gitHub
  intro hclaim
  have hhonoured := (hclaim (1000 * nanoseconds)).1 ⟨none⟩ sampleActions fun _ _ => trivial
  have hsent : ⟨2 * nanoseconds, 100 * nanoseconds⟩ ∈
      ((GitHubSource.system ⟨none⟩ (1000 * nanoseconds)).machine.run sampleActions).sent := by
    decide
  exact absurd (hhonoured _ hsent) (by decide)

end Comsat
