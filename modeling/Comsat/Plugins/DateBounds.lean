import Comsat.Lib.Rfc3339
import Comsat.Plugins.GitHubClient
import Comsat.Plugins.HackerNews
import Comsat.Plugins.StackExchange

set_option relaxedAutoImplicit false
set_option autoImplicit false

/-!
# The bounds of a query upstream

A query is bounded by two instants, and every source writes the bounds in the words of its service.
Hacker News and Stack Exchange are told the seconds of the instants. GitHub is told days, which the
source takes from the text of the timestamps as it stands, in whatever offset it is written.

## Main definitions

* `DateBound` — a bound on the second at which an object was created.
* `GitHub.Says`, `HackerNews.filtersText`, `StackExchange.datesText` — the words of the services.
* `Query.Window` — the seconds between the bounds of a query.
* `Query.LosesNothing` — every second in the window satisfies all that is sent upstream.
* `Query.BoundsFit` — the days that GitHub is told hold the whole window.

## Main results

* `dates_lose_nothing_iff` — nothing is lost exactly when the bounds fit.
* `midnight_hides` — with an offset the day may be a day too late.

## Design

* GitHub promises what a bare date stands for, and nothing about another text in its place.
* The laws of the parser say that it accepts timestamps of RFC 3339 only, at their instants.
-/

namespace Comsat

open Rfc3339 (Timestamp bareDate)

/-! ## Bounds -/

/-- A bound on the second at which an object was created. -/
inductive DateBound where
  | since (second : ℤ)
  | «until» (second : ℤ)

/-- Whether a second is within a bound. -/
def DateBound.Admits (c : ℤ) : DateBound → Prop
  | since second => second ≤ c
  | «until» second => c ≤ second

/-- What a term of a search says: a bare date stands for its whole day. -/
inductive GitHub.Says : String → DateBound → Prop where
  | since {text : String} {date : Rfc3339.Date} (h : bareDate text.toList = some date) :
      GitHub.Says ("created:>=" ++ text) (.since date.firstSecond)
  | «until» {text : String} {date : Rfc3339.Date} (h : bareDate text.toList = some date) :
      GitHub.Says ("created:<=" ++ text) (.until date.lastSecond)

/-- A numeric filter of Hacker News. -/
def HackerNews.boundText : DateBound → String
  | .since second => "created_at_i>=" ++ toString second
  | .until second => "created_at_i<=" ++ toString second

/-- The numeric filters of Hacker News in an address. -/
def HackerNews.filtersText (bounds : List DateBound) : String :=
  if bounds.isEmpty then ""
  else "&numericFilters=" ++
    percentEncode (String.intercalate "," (bounds.map HackerNews.boundText))

/-- A bound of Stack Exchange in an address. -/
def StackExchange.boundText : DateBound → String
  | .since second => "&fromdate=" ++ toString second
  | .until second => "&todate=" ++ toString second

/-- The bounds of Stack Exchange in an address. -/
def StackExchange.datesText (bounds : List DateBound) : String :=
  String.join (bounds.map StackExchange.boundText)

/-! ## Instants -/

/-- The first whole second that is not before a timestamp. -/
def firstWhole (timestamp : Timestamp) : ℤ := -(-timestamp.instant / 1000000000)

/-- The last whole second that is not after a timestamp. -/
def lastWhole (timestamp : Timestamp) : ℤ := timestamp.instant / 1000000000

/-- A whole second is not before a timestamp when it is not before the first such second. -/
lemma instant_le_iff (timestamp : Timestamp) (c : ℤ) :
    timestamp.instant ≤ c * 1000000000 ↔ firstWhole timestamp ≤ c := by
  rw [firstWhole]
  omega

/-- A whole second is not after a timestamp when it is not after the last such second. -/
lemma le_instant_iff (timestamp : Timestamp) (c : ℤ) :
    c * 1000000000 ≤ timestamp.instant ↔ c ≤ lastWhole timestamp := by
  rw [lastWhole]
  omega

/-- What the program relies on in the parser of timestamps. -/
structure TimestampLaws [ExternalParsers] [UpstreamLibrary] : Prop where
  /-- A text that is accepted is a timestamp of RFC 3339, and stands for its instant. -/
  read_of_parse : ∀ value instant, ExternalParsers.parseTimestamp value = some instant →
    ∃ timestamp, Rfc3339.read value = some timestamp ∧ timestamp.instant = instant
  /-- Its seconds are those of the instant, rounded down. -/
  toUnix_of_parse : ∀ value instant, ExternalParsers.parseTimestamp value = some instant →
    UpstreamLibrary.toUnix value = .ok (instant / 1000000000)

/-- The parser of RFC 3339 and the addresses of one host. -/
@[reducible] def ExternalParsers.rfc3339 (host : String) : ExternalParsers where
  parseUrl := (ExternalParsers.ofHost host).parseUrl
  parseTimestamp value := (Rfc3339.read value).map Timestamp.instant

/-- Libraries that accept every request and know the timestamps of RFC 3339. -/
@[reducible] def UpstreamLibrary.rfc3339 : UpstreamLibrary where
  requestError _ := none
  statusText status := toString status
  decodeError _ := "invalid"
  toUnix value := match Rfc3339.read value with
    | some timestamp => .ok (lastWhole timestamp)
    | none => .error "invalid"
  ofUnix _ := none

/-- The parser of RFC 3339 keeps the laws. -/
lemma timestampLaws_rfc3339 (host : String) :
    @TimestampLaws (.rfc3339 host) .rfc3339 := by
  let _ : ExternalParsers := .rfc3339 host
  let _ : UpstreamLibrary := .rfc3339
  refine ⟨fun value instant h => ?_, fun value instant h => ?_⟩
  · exact Option.map_eq_some_iff.mp h
  · obtain ⟨timestamp, hread, rfl⟩ := Option.map_eq_some_iff.mp h
    show (match Rfc3339.read value with
      | some timestamp => Except.ok (lastWhole timestamp)
      | none => .error "invalid") = _
    rw [hread]
    rfl

/-! ## The window of a query -/

namespace Query

/-- The whole seconds between the bounds of a query. -/
def Window [ExternalParsers] (query : Query) (c : ℤ) : Prop :=
  (∀ since ∈ query.since, ∀ instant, ExternalParsers.parseTimestamp since = some instant →
    instant ≤ c * 1000000000) ∧
  (∀ «until» ∈ query.until, ∀ instant, ExternalParsers.parseTimestamp «until» = some instant →
    c * 1000000000 ≤ instant)

/-- A second satisfies every bound that the sources send upstream for a query. -/
structure SatisfiedBy [UpstreamLibrary] (query : Query) (c : ℤ) : Prop where
  gitHub : ∀ term ∈ GitHub.dateBounds query, ∃ bound, GitHub.Says term bound ∧ bound.Admits c
  hackerNews : ∃ bounds, HackerNews.algoliaFilters query = .ok (HackerNews.filtersText bounds) ∧
    ∀ bound ∈ bounds, bound.Admits c
  stackExchange : ∃ bounds, StackExchange.dateQuery query = .ok (StackExchange.datesText bounds) ∧
    ∀ bound ∈ bounds, bound.Admits c

/-- Every second between the bounds satisfies all that the sources send upstream. -/
def LosesNothing [ExternalParsers] [UpstreamLibrary] (query : Query) : Prop :=
  ∀ c, query.Window c → query.SatisfiedBy c

/-- If there is a whole second between the bounds, their dates are set apart by a `T`, the date of
the lower one is not after the UTC day of the first second, and the date of the upper one is not
before the UTC day of the last second. -/
def BoundsFit (query : Query) : Prop :=
  let since := query.since.bind Rfc3339.read
  let «until» := query.until.bind Rfc3339.read
  (∀ start ∈ since, ∀ stop ∈ «until», firstWhole start ≤ lastWhole stop) →
    (∀ start ∈ since, start.separator = 'T' ∧ start.date.dayNumber ≤ firstWhole start / 86400) ∧
    (∀ stop ∈ «until», stop.separator = 'T' ∧ lastWhole stop / 86400 ≤ stop.date.dayNumber)

end Query

/-! ## The words of the services -/

section Words

variable [ExternalParsers] [UpstreamLibrary]

omit [UpstreamLibrary] in
/-- The bounds of an accepted query are timestamps. -/
lemma Query.parse_of_validate {query : Query} (hvalid : query.validate = .ok ()) :
    (∀ since ∈ query.since, ∃ instant, ExternalParsers.parseTimestamp since = some instant) ∧
    ∀ «until» ∈ query.until, ∃ instant, ExternalParsers.parseTimestamp «until» = some instant := by
  have hparse : ∀ value instant, validateOptTimestamp value = .ok instant →
      ∀ text ∈ value, ∃ instant, ExternalParsers.parseTimestamp text = some instant := by
    rintro _ instant h text rfl
    cases hparse : ExternalParsers.parseTimestamp text with
    | some instant => exact ⟨instant, rfl⟩
    | none => simp [validateOptTimestamp, validateTimestamp, hparse, Except.map] at h
  cases hsince : validateOptTimestamp query.since with
  | error error =>
    rw [Query.validate, hsince] at hvalid
    split_ifs at hvalid <;> cases hvalid
  | ok since =>
    cases huntil : validateOptTimestamp query.until with
    | error error =>
      rw [Query.validate, hsince, huntil] at hvalid
      split_ifs at hvalid <;> cases hvalid
    | ok «until» => exact ⟨hparse _ _ hsince, hparse _ _ huntil⟩

omit [ExternalParsers] [UpstreamLibrary] in
/-- The date of a timestamp is what GitHub is told when a `T` follows it; otherwise that is no bare
date. -/
lemma GitHub.bareDate_date {value : String} {timestamp : Timestamp}
    (hread : Rfc3339.read value = some timestamp) (date : Rfc3339.Date) :
    bareDate (GitHub.date value).toList = some date ↔
      timestamp.separator = 'T' ∧ timestamp.date = date := by
  obtain ⟨chars, rest, hvalue, hdate⟩ := Rfc3339.bareDate_prefix hread
  obtain ⟨hlength, hchars⟩ := Rfc3339.bareDate_chars hdate
  have hfree : 'T' ∉ chars := fun hmem => by
    rcases hchars 'T' hmem with h | h <;> exact absurd h (by decide)
  rw [GitHub.date, hvalue, String.toList_ofList]
  by_cases hT : timestamp.separator = 'T'
  · rw [hT, Text.splitOnce_append hfree, hdate, Option.some_inj]
    exact ⟨fun h => ⟨rfl, h⟩, fun h => h.2⟩
  · -- without a `T` more than the date is left, which is then too long for a bare date
    refine ⟨fun h => absurd (Rfc3339.bareDate_chars h).1 ?_, fun h => absurd h.1 hT⟩
    rw [Text.splitOnce_append_of_not_mem hfree, Text.splitOnce, if_neg hT, List.length_append,
      List.length_cons]
    omega

/-- The bounds of a query, in the seconds of their instants. -/
def Query.bounds (query : Query) : List DateBound :=
  ((query.since.bind ExternalParsers.parseTimestamp).map fun instant =>
    DateBound.since (instant / 1000000000)).toList ++
  ((query.until.bind ExternalParsers.parseTimestamp).map fun instant =>
    DateBound.until (instant / 1000000000)).toList

omit [UpstreamLibrary] in
/-- A second between the instants is within the bounds. -/
lemma Query.admits_of_window {query : Query} {c : ℤ} (h : query.Window c) :
    ∀ bound ∈ query.bounds, bound.Admits c := by
  intro bound hbound
  rw [Query.bounds, List.mem_append, Option.mem_toList, Option.mem_toList] at hbound
  rcases hbound with hbound | hbound
  all_goals
    obtain ⟨instant, hinstant, rfl⟩ := Option.map_eq_some_iff.mp hbound
    obtain ⟨value, hvalue, hparse⟩ := Option.bind_eq_some_iff.mp hinstant
  · have := h.1 value hvalue instant hparse
    simp only [DateBound.Admits]
    omega
  · have := h.2 value hvalue instant hparse
    simp only [DateBound.Admits]
    omega

/-- What is sent to Hacker News. -/
lemma HackerNews.algoliaFilters_eq (laws : TimestampLaws) {query : Query}
    (hvalid : query.validate = .ok ()) :
    HackerNews.algoliaFilters query = .ok (HackerNews.filtersText query.bounds) := by
  obtain ⟨hsince, huntil⟩ := Query.parse_of_validate hvalid
  have hunix : ∀ value instant, ExternalParsers.parseTimestamp value = some instant →
      HackerNews.rfc3339ToUnix value = .ok (instant / 1000000000) := fun value instant h => by
    rw [HackerNews.rfc3339ToUnix, laws.toUnix_of_parse value instant h]
  have hsinceText : (query.since.toList.mapM fun since => do
      pure ("created_at_i>=" ++ toString (← HackerNews.rfc3339ToUnix since))) =
      (.ok (((query.since.bind ExternalParsers.parseTimestamp).map fun instant =>
        HackerNews.boundText (.since (instant / 1000000000))).toList) :
          Except SourceError (List String)) := by
    cases hcase : query.since with
    | none => rfl
    | some since =>
      obtain ⟨instant, hinstant⟩ := hsince since hcase
      simp [hunix since instant hinstant, hinstant, HackerNews.boundText]
  have huntilText : (query.until.toList.mapM fun «until» => do
      pure ("created_at_i<=" ++ toString (← HackerNews.rfc3339ToUnix «until»))) =
      (.ok (((query.until.bind ExternalParsers.parseTimestamp).map fun instant =>
        HackerNews.boundText (.until (instant / 1000000000))).toList) :
          Except SourceError (List String)) := by
    cases hcase : query.until with
    | none => rfl
    | some «until» =>
      obtain ⟨instant, hinstant⟩ := huntil «until» hcase
      simp [hunix «until» instant hinstant, hinstant, HackerNews.boundText]
  rw [HackerNews.algoliaFilters, hsinceText, huntilText, Query.bounds]
  cases query.since.bind ExternalParsers.parseTimestamp <;>
    cases query.until.bind ExternalParsers.parseTimestamp <;> rfl

/-- What is sent to Stack Exchange. -/
lemma StackExchange.dateQuery_eq (laws : TimestampLaws) {query : Query}
    (hvalid : query.validate = .ok ()) :
    StackExchange.dateQuery query = .ok (StackExchange.datesText query.bounds) := by
  obtain ⟨hsince, huntil⟩ := Query.parse_of_validate hvalid
  have hunix : ∀ value instant, ExternalParsers.parseTimestamp value = some instant →
      StackExchange.rfc3339ToUnix value = .ok (instant / 1000000000) := fun value instant h => by
    rw [StackExchange.rfc3339ToUnix, laws.toUnix_of_parse value instant h]
  rw [StackExchange.dateQuery, Query.bounds]
  cases hcase : query.since with
  | none =>
    cases hstop : query.until with
    | none => rfl
    | some stop =>
      obtain ⟨last, hlast⟩ := huntil stop hstop
      simp [hunix stop last hlast, hlast, StackExchange.datesText, StackExchange.boundText]
  | some start =>
    obtain ⟨first, hfirst⟩ := hsince start hcase
    cases hstop : query.until with
    | none =>
      simp [hunix start first hfirst, hfirst, StackExchange.datesText, StackExchange.boundText]
    | some stop =>
      obtain ⟨last, hlast⟩ := huntil stop hstop
      simp [hunix start first hfirst, hfirst, hunix stop last hlast, hlast,
        StackExchange.datesText, StackExchange.boundText]
      rfl

end Words

/-! ## What is lost -/

section Lost

variable [ExternalParsers] [UpstreamLibrary]

omit [ExternalParsers] [UpstreamLibrary] in
/-- What the term for a lower bound says. -/
lemma GitHub.says_since_iff {text : String} {bound : DateBound} :
    GitHub.Says ("created:>=" ++ text) bound ↔
      ∃ date, bareDate text.toList = some date ∧ bound = .since date.firstSecond := by
  constructor
  · intro h
    generalize hterm : "created:>=" ++ text = term at h
    cases h with
    | since hdate => exact ⟨_, (String.append_right_inj _).mp hterm ▸ hdate, rfl⟩
    | «until» hdate => exact absurd (congrArg String.toList hterm) (by simp)
  · rintro ⟨date, hdate, rfl⟩
    exact .since hdate

omit [ExternalParsers] [UpstreamLibrary] in
/-- What the term for an upper bound says. -/
lemma GitHub.says_until_iff {text : String} {bound : DateBound} :
    GitHub.Says ("created:<=" ++ text) bound ↔
      ∃ date, bareDate text.toList = some date ∧ bound = .until date.lastSecond := by
  constructor
  · intro h
    generalize hterm : "created:<=" ++ text = term at h
    cases h with
    | since hdate => exact absurd (congrArg String.toList hterm) (by simp)
    | «until» hdate => exact ⟨_, (String.append_right_inj _).mp hterm ▸ hdate, rfl⟩
  · rintro ⟨date, hdate, rfl⟩
    exact .until hdate

omit [ExternalParsers] [UpstreamLibrary] in
/-- A second satisfies what GitHub is told exactly when it is not before the first second of the
date of the lower bound and not after the last second of the date of the upper bound. -/
lemma GitHub.dateBounds_iff {query : Query} {c : ℤ}
    (hsince : ∀ value ∈ query.since, ∃ timestamp, Rfc3339.read value = some timestamp)
    (huntil : ∀ value ∈ query.until, ∃ timestamp, Rfc3339.read value = some timestamp) :
    (∀ term ∈ GitHub.dateBounds query, ∃ bound, GitHub.Says term bound ∧ bound.Admits c) ↔
      (∀ start ∈ query.since.bind Rfc3339.read,
        start.separator = 'T' ∧ start.date.firstSecond ≤ c) ∧
      ∀ stop ∈ query.until.bind Rfc3339.read,
        stop.separator = 'T' ∧ c ≤ stop.date.lastSecond := by
  simp only [GitHub.dateBounds, List.mem_append, Option.mem_toList, or_imp, forall_and]
  refine and_congr ?_ ?_
  · cases hcase : query.since with
    | none => simp
    | some value =>
      obtain ⟨start, hread⟩ := hsince value hcase
      simp only [Option.map_some, Option.mem_def, Option.some.injEq, forall_eq', GitHub.says_since_iff,
        GitHub.bareDate_date hread, Option.bind_some, hread]
      constructor
      · rintro ⟨bound, ⟨date, ⟨hT, rfl⟩, rfl⟩, hadmits⟩
        exact ⟨hT, hadmits⟩
      · rintro ⟨hT, hle⟩
        exact ⟨_, ⟨start.date, ⟨hT, rfl⟩, rfl⟩, hle⟩
  · cases hcase : query.until with
    | none => simp
    | some value =>
      obtain ⟨stop, hread⟩ := huntil value hcase
      simp only [Option.map_some, Option.mem_def, Option.some.injEq, forall_eq', GitHub.says_until_iff,
        GitHub.bareDate_date hread, Option.bind_some, hread]
      constructor
      · rintro ⟨bound, ⟨date, ⟨hT, rfl⟩, rfl⟩, hadmits⟩
        exact ⟨hT, hadmits⟩
      · rintro ⟨hT, hle⟩
        exact ⟨_, ⟨stop.date, ⟨hT, rfl⟩, rfl⟩, hle⟩

/-- The window of a query in the seconds of its timestamps. -/
lemma Query.window_iff (laws : TimestampLaws) {query : Query} (hvalid : query.validate = .ok ())
    (c : ℤ) :
    query.Window c ↔ (∀ start ∈ query.since.bind Rfc3339.read, firstWhole start ≤ c) ∧
      ∀ stop ∈ query.until.bind Rfc3339.read, c ≤ lastWhole stop := by
  obtain ⟨hsince, huntil⟩ := Query.parse_of_validate hvalid
  refine and_congr ?_ ?_
  · cases hcase : query.since with
    | none => simp
    | some value =>
      obtain ⟨instant, hinstant⟩ := hsince value hcase
      obtain ⟨start, hread, rfl⟩ := laws.read_of_parse value instant hinstant
      simp [hinstant, hread, instant_le_iff]
  · cases hcase : query.until with
    | none => simp
    | some value =>
      obtain ⟨instant, hinstant⟩ := huntil value hcase
      obtain ⟨stop, hread, rfl⟩ := laws.read_of_parse value instant hinstant
      simp [hinstant, hread, le_instant_iff]

/-- **Nothing is lost exactly when the bounds fit**: Hacker News and Stack Exchange are told the
seconds of the instants, but the dates that GitHub is told have to hold the window.

**Proof sketch.** The first whole second of the window is the one that the lower date may miss, and
the last one is the one that the upper date may miss; both are seconds of the window if there is one
at all. -/
theorem dates_lose_nothing_iff (laws : TimestampLaws) (query : Query)
    (hvalid : query.validate = .ok ()) : query.LosesNothing ↔ query.BoundsFit := by
  obtain ⟨hsince, huntil⟩ := Query.parse_of_validate hvalid
  have hreads : ∀ value, (∃ instant, ExternalParsers.parseTimestamp value = some instant) →
      ∃ timestamp, Rfc3339.read value = some timestamp := by
    rintro value ⟨instant, hinstant⟩
    obtain ⟨timestamp, hread, -⟩ := laws.read_of_parse value instant hinstant
    exact ⟨timestamp, hread⟩
  have hgitHub : ∀ c, _ := fun c => GitHub.dateBounds_iff (c := c)
    (fun value hvalue => hreads value (hsince value hvalue))
    (fun value hvalue => hreads value (huntil value hvalue))
  have hsatisfied : ∀ c, query.Window c → (query.SatisfiedBy c ↔
      ∀ term ∈ GitHub.dateBounds query, ∃ bound, GitHub.Says term bound ∧ bound.Admits c) :=
    fun c hc => ⟨fun h => h.gitHub, fun h => ⟨h,
      ⟨query.bounds, HackerNews.algoliaFilters_eq laws hvalid, Query.admits_of_window hc⟩,
      ⟨query.bounds, StackExchange.dateQuery_eq laws hvalid, Query.admits_of_window hc⟩⟩⟩
  constructor
  · intro h hsecond
    refine ⟨fun start hstart => ?_, fun stop hstop => ?_⟩
    · have hc : query.Window (firstWhole start) := (Query.window_iff laws hvalid _).mpr
        ⟨fun other hother => (Option.mem_unique hother hstart) ▸ le_refl _, hsecond start hstart⟩
      obtain ⟨hT, hle⟩ := ((hgitHub _).mp (h _ hc).gitHub).1 start hstart
      rw [Rfc3339.Date.firstSecond] at hle
      exact ⟨hT, by omega⟩
    · have hc : query.Window (lastWhole stop) := (Query.window_iff laws hvalid _).mpr
        ⟨fun start hstart => hsecond start hstart stop hstop,
          fun other hother => (Option.mem_unique hother hstop) ▸ le_refl _⟩
      obtain ⟨hT, hle⟩ := ((hgitHub _).mp (h _ hc).gitHub).2 stop hstop
      rw [Rfc3339.Date.lastSecond] at hle
      exact ⟨hT, by omega⟩
  · intro h c hc
    obtain ⟨hfirst, hlast⟩ := (Query.window_iff laws hvalid c).mp hc
    obtain ⟨hlower, hupper⟩ := h fun start hstart stop hstop =>
      (hfirst start hstart).trans (hlast stop hstop)
    refine (hsatisfied c hc).mpr ((hgitHub c).mpr ⟨fun start hstart => ?_, fun stop hstop => ?_⟩)
    · obtain ⟨hT, hday⟩ := hlower start hstart
      have hwhole := hfirst start hstart
      rw [Rfc3339.Date.firstSecond]
      exact ⟨hT, by omega⟩
    · obtain ⟨hT, hday⟩ := hupper stop hstop
      have hwhole := hlast stop hstop
      rw [Rfc3339.Date.lastSecond]
      exact ⟨hT, by omega⟩

omit [ExternalParsers] [UpstreamLibrary] in
/-- **Offsets that lose nothing**: a lower bound on a clock that is not ahead of UTC and an upper bound
on a clock that is not behind UTC fit. -/
theorem Query.boundsFit_of_offset {query : Query}
    (hsince : ∀ start ∈ query.since.bind Rfc3339.read, start.separator = 'T' ∧ start.offset ≤ 0)
    (huntil : ∀ stop ∈ query.until.bind Rfc3339.read, stop.separator = 'T' ∧ 0 ≤ stop.offset) :
    query.BoundsFit := by
  refine fun _ => ⟨fun start hstart => ?_, fun stop hstop => ?_⟩
  · obtain ⟨hT, hoffset⟩ := hsince start hstart
    have hclock := start.clockSecond_mem.1
    rw [Rfc3339.Date.firstSecond] at hclock
    have hinstant : start.clockSecond * 1000000000 ≤ start.instant := by
      rw [Timestamp.instant]
      omega
    refine ⟨hT, ?_⟩
    rw [firstWhole]
    omega
  · obtain ⟨hT, hoffset⟩ := huntil stop hstop
    have hclock := stop.clockSecond_mem.2
    rw [Rfc3339.Date.lastSecond] at hclock
    have hinstant : stop.instant < (stop.clockSecond + 1) * 1000000000 := by
      have hvalid := stop.valid.2.2.2
      rw [Timestamp.instant]
      omega
    refine ⟨hT, ?_⟩
    rw [lastWhole]
    omega

end Lost

/-- The first half hour of a day in UTC, on a clock that is an hour ahead. -/
def midnightQuery : Query :=
  ⟨"comsat", none, some "2026-01-02T00:30:00+01:00", some "2026-01-02T00:00:00Z"⟩

set_option maxRecDepth 100000 in
/-- What is lost is decided by the bounds, here on the timestamps of a clock that is ahead of UTC. -/
theorem midnight_loses :
    letI : ExternalParsers := .rfc3339 "example.com"
    letI : UpstreamLibrary := .rfc3339
    midnightQuery.validate = .ok () ∧ (midnightQuery.LosesNothing ↔ midnightQuery.BoundsFit) := by
  let _ : ExternalParsers := .rfc3339 "example.com"
  let _ : UpstreamLibrary := .rfc3339
  have hvalid : midnightQuery.validate = .ok () := by decide
  exact ⟨hvalid, dates_lose_nothing_iff (timestampLaws_rfc3339 _) midnightQuery hvalid⟩

set_option maxRecDepth 100000 in
/-- **Half an hour is hidden**: the lower bound is half past eleven on the first of January in UTC,
but GitHub is told the second of January. -/
theorem midnight_hides :
    letI : ExternalParsers := .rfc3339 "example.com"
    letI : UpstreamLibrary := .rfc3339
    ¬ ∀ query : Query, query.validate = .ok () → query.LosesNothing := by
  let _ : ExternalParsers := .rfc3339 "example.com"
  let _ : UpstreamLibrary := .rfc3339
  intro h
  have hlose := h midnightQuery (by decide)
  have hwindow : midnightQuery.Window 1767310200 := by
    refine ⟨?_, ?_⟩
    · rintro _ ⟨⟩ instant hinstant
      have : instant = 1767310200000000000 := Option.some.inj (hinstant.symm.trans (by decide))
      omega
    · rintro _ ⟨⟩ instant hinstant
      have : instant = 1767312000000000000 := Option.some.inj (hinstant.symm.trans (by decide))
      omega
  obtain ⟨bound, hsays, hadmits⟩ :=
    (hlose 1767310200 hwindow).gitHub ("created:>=" ++ "2026-01-02") (by decide)
  obtain ⟨date, hdate, rfl⟩ := GitHub.says_since_iff.mp hsays
  have hday : date.firstSecond = 1767312000 := by
    have hread : (bareDate "2026-01-02".toList).map Rfc3339.Date.firstSecond = some 1767312000 := by
      decide
    rw [hdate] at hread
    exact Option.some.inj hread
  rw [DateBound.Admits, hday] at hadmits
  omega

end Comsat
