import EasyDeployMesh.Core.Models
import EasyDeployMesh.Foundations.Run
import Mathlib.Data.List.Basic

/-!
# The activity history and its pages

`ActivityRepository` of `crates/service/src/activity_repository.rs` appends events, drops old ones,
and answers queries from the newest stored event on. The log page (`logs.vue`) reads the history in
pages of 200 events: each further page asks for events strictly before the time of the last event
shown.

A thread takes the time of its event before it enters the lock, so events may be stored in another
order than their times, and times may be equal. An event that was stored before the last one shown
is lost if its time is not strictly earlier: the next pages ask for earlier times only. And when 200
events that are strictly earlier than the last one shown are on the page already, a further page
shows nothing new.

## Main definitions

* `EasyDeployMesh.ActivityQuery`, `EasyDeployMesh.pruneEvents`: the operations of the repository.
* `EasyDeployMesh.ActivityWorld`: threads that record events, and the log page.
* `EasyDeployMesh.ActivityWorld.PagesComplete`, `EasyDeployMesh.ActivityWorld.Pageable`: what paging
  is for, and the steps at which a further page may be asked for.

## Main results

* `EasyDeployMesh.ActivityWorld.pagesComplete_of_leads`: the pages are complete in every run in
  which further pages are asked for at such steps only.
* `EasyDeployMesh.ActivityWorld.notMem_shown_of_leads`: an event that is not strictly earlier than
  the last one shown is never shown.
-/

namespace EasyDeployMesh

open Foundations

/-- Where an event comes from. -/
inductive ActivitySource
  | service
  | device
  | deployment
  deriving DecidableEq

/-- How grave an event is. -/
inductive ActivitySeverity
  | info
  | success
  | warning
  | error
  deriving DecidableEq

/-- The parts of an event that a query or a page reads. -/
structure ActivityEvent where
  id : Uuid
  occurredAt : Instant
  source : ActivitySource
  severity : ActivitySeverity
  deriving DecidableEq

/-! ### The repository -/

/-- `RETENTION_DAYS`. -/
def retention : Duration := minutes (30 * 24 * 60)

/-- The number of events that the repository keeps. -/
def maxEvents : ℕ := 10000

/-- What a page asks of the repository. -/
structure ActivityQuery where
  sources : List ActivitySource
  severities : List ActivitySeverity
  before : Option Instant
  after : Option Instant
  limit : ℕ

/-- The filters of a query; both bounds of the time are strict. -/
def ActivityQuery.accepts (query : ActivityQuery) (event : ActivityEvent) : Bool :=
  (query.sources.isEmpty || query.sources.contains event.source) &&
    (query.severities.isEmpty || query.severities.contains event.severity) &&
    query.before.all (fun before => event.occurredAt < before) &&
    query.after.all fun after => after < event.occurredAt

/-- `ActivityRepository::query`. -/
def ActivityQuery.run (query : ActivityQuery) (events : List ActivityEvent) : List ActivityEvent :=
  (events.reverse.filter query.accepts).take (max 1 (min query.limit 500))

/-- The events of the retention, and of them the last `maxEvents`. -/
def pruneEvents (events : List ActivityEvent) (now : Instant) : List ActivityEvent :=
  let retained := events.filter fun event => now - retention ≤ event.occurredAt
  retained.drop (retained.length - maxEvents)

/-! ### The log page -/

/-- The filter of the log page. -/
structure ActivityFilter where
  sources : List ActivitySource
  severities : List ActivitySeverity

/-- The query of the log page, for events before a time. -/
def ActivityFilter.query (filter : ActivityFilter) (before : Option Instant) : ActivityQuery where
  sources := filter.sources
  severities := filter.severities
  before := before
  after := none
  limit := 200

/-- What the log page shows, whether it offers a further page, what the repository held for the
filter when the paging started, and how many further pages were asked for. -/
structure LogPage where
  snapshot : List ActivityEvent
  shown : List ActivityEvent
  hasMore : Bool
  asked : ℕ
  deriving DecidableEq

/-- The first page for a filter. -/
def LogPage.reload (filter : ActivityFilter) (events : List ActivityEvent) : LogPage :=
  let next := (filter.query none).run events
  { snapshot := events.filter (filter.query none).accepts
    shown := next
    hasMore := next.length == 200
    asked := 0 }

/-- A further page, behind the last event shown. -/
def LogPage.loadMore (page : LogPage) (filter : ActivityFilter) (oldest : ActivityEvent)
    (events : List ActivityEvent) : LogPage :=
  let next := (filter.query (some oldest.occurredAt)).run events
  { page with
    shown := page.shown ++
      next.filter fun event => !(page.shown.map ActivityEvent.id).contains event.id
    hasMore := next.length == 200
    asked := page.asked + 1 }

/-! ### Threads that record events -/

/-- The repository, the events whose threads have not entered the lock yet, and the log page. The
events that were ever stored stand in `stored`, in the order of their storage. -/
structure ActivityWorld where
  clock : Instant
  inFlight : List ActivityEvent
  events : List ActivityEvent
  stored : List ActivityEvent
  page : Option LogPage
  deriving DecidableEq

/-- What happens between the writers of events and the page of the operator. -/
inductive ActivityStep
  /-- `record` makes its event, before it enters the lock. -/
  | stamp (id : Uuid) (now : Instant) (source : ActivitySource) (severity : ActivitySeverity)
  /-- `record` under the lock; the file may not be written. -/
  | enter (event : ActivityEvent) (now : Instant) (written : Bool)
  | reload
  | loadMore
  deriving DecidableEq

namespace ActivityWorld

/-- The repository after it has been opened on a file with these events. -/
def opened (file : List ActivityEvent) (now : Instant) : ActivityWorld where
  clock := now
  inFlight := []
  events := pruneEvents file now
  stored := pruneEvents file now
  page := none

/-- One step; a clock that runs back or an identifier used twice is no step. -/
def step (filter : ActivityFilter) (w : ActivityWorld) : ActivityStep → Option ActivityWorld
  | .stamp id now source severity =>
    if w.clock ≤ now ∧ id ∉ (w.stored ++ w.inFlight).map ActivityEvent.id then
      some { w with
        clock := now
        inFlight := w.inFlight ++ [{ id, occurredAt := now, source, severity }] }
    else none
  | .enter event now written =>
    if w.clock ≤ now ∧ event ∈ w.inFlight then
      if written then
        some { w with
          clock := now
          inFlight := w.inFlight.erase event
          events := pruneEvents (w.events ++ [event]) now
          stored := w.stored ++ [event] }
      else some { w with clock := now, inFlight := w.inFlight.erase event }
    else none
  | .reload => some { w with page := some (LogPage.reload filter w.events) }
  | .loadMore =>
    w.page.bind fun page =>
      if page.hasMore then
        page.shown.getLast?.map fun oldest =>
          { w with page := some (page.loadMore filter oldest w.events) }
      else none

/-! ### What paging is for -/

/-- The first event was stored before the second one. -/
def StoredBefore (stored : List ActivityEvent) (first second : ActivityEvent) : Prop :=
  ∃ front back, stored = front ++ back ∧ first ∈ front ∧ second ∈ back

/-- No event is shown twice, when there is no further page, every event that the repository held for
the filter when the paging started and still holds is shown, and no more further pages are asked for
than there are events. -/
def PagesComplete (w : ActivityWorld) : Prop :=
  ∀ page, w.page = some page → (page.shown.map ActivityEvent.id).Nodup ∧
    (page.hasMore = false → ∀ event ∈ page.snapshot, event ∈ w.events → event ∈ page.shown) ∧
    page.asked ≤ w.stored.length

/-- The events that are due and were stored before the last one shown are strictly earlier. -/
def TiesShown (w : ActivityWorld) (page : LogPage) (oldest : ActivityEvent) : Prop :=
  ∀ event ∈ page.snapshot, event ∈ w.events → event ∉ page.shown →
    StoredBefore w.stored event oldest → event.occurredAt < oldest.occurredAt

/-- The events that are on the page already and strictly earlier than the last one do not fill a
page. -/
def PageAdvances (w : ActivityWorld) (page : LogPage) (oldest : ActivityEvent) : Prop :=
  (page.shown.filter fun event =>
    event ∈ w.events ∧ event.occurredAt < oldest.occurredAt).length < 200

/-- A further page is asked for only when both hold. -/
def Pageable (w : ActivityWorld) (e : ActivityStep) : Prop :=
  e = .loadMore → ∀ page oldest, w.page = some page → page.shown.getLast? = some oldest →
    TiesShown w page oldest ∧ PageAdvances w page oldest

/-! ### Queries -/

section Query

variable {filter : ActivityFilter} {events stored : List ActivityEvent}
  {event other : ActivityEvent} {before : Option Instant}

theorem accepts_query_iff : (filter.query before).accepts event = true ↔
    (filter.query none).accepts event = true ∧ ∀ t, before = some t → event.occurredAt < t := by
  simp only [ActivityQuery.accepts, ActivityFilter.query, Option.all_none, Bool.and_true,
    Bool.and_eq_true]
  refine and_congr_right fun _ => ?_
  cases before with
  | none => simp
  | some t => simp

theorem mem_of_mem_run (h : event ∈ (filter.query before).run events) :
    event ∈ events ∧ (filter.query before).accepts event = true := by
  obtain ⟨hmem, haccepts⟩ := List.mem_filter.1 (List.mem_of_mem_take h)
  exact ⟨List.mem_reverse.1 hmem, haccepts⟩

/-- An event that is not on the page was stored before those that are, and the page is full. -/
theorem mem_run_or (hmem : event ∈ events) (haccepts : (filter.query before).accepts event = true) :
    event ∈ (filter.query before).run events ∨
      ((filter.query before).run events).length = 200 ∧
        ∀ other ∈ (filter.query before).run events, StoredBefore events event other := by
  have hlimit : max 1 (min (filter.query before).limit 500) = 200 := rfl
  rw [ActivityQuery.run, hlimit]
  set found := events.reverse.filter (filter.query before).accepts with hfound
  have hevent : event ∈ found := List.mem_filter.2 ⟨List.mem_reverse.2 hmem, haccepts⟩
  rw [← List.take_append_drop 200 found] at hevent
  rcases List.mem_append.1 hevent with htake | hdrop
  · exact .inl htake
  · refine .inr ⟨?_, fun other hother => ?_⟩
    · have hlength : 0 < (found.drop 200).length := List.length_pos_of_mem hdrop
      rw [List.length_drop] at hlength
      rw [List.length_take]
      omega
    · -- newest first: what is left over stands behind the page
      have hsub : ((found.drop 200).reverse ++ (found.take 200).reverse).Sublist events := by
        rw [← List.reverse_append, List.take_append_drop, ← List.reverse_reverse events]
        exact (List.filter_sublist).reverse
      obtain ⟨front, back, hevents, hfront, hback⟩ := List.append_sublist_iff.1 hsub
      exact ⟨front, back, hevents, hfront.subset (List.mem_reverse.2 hdrop),
        hback.subset (List.mem_reverse.2 hother)⟩

theorem nodup_run (h : (events.map ActivityEvent.id).Nodup) :
    (((filter.query before).run events).map ActivityEvent.id).Nodup := by
  have hsub : ((filter.query before).run events).Sublist events.reverse :=
    (List.take_sublist _ _).trans List.filter_sublist
  refine (hsub.map ActivityEvent.id).nodup ?_
  rwa [List.map_reverse, List.nodup_reverse]

theorem StoredBefore.of_sublist (h : StoredBefore events event other)
    (hsub : events.Sublist stored) :
    StoredBefore stored event other := by
  obtain ⟨front, back, rfl, hfront, hback⟩ := h
  obtain ⟨front', back', hstored, hfrontSub, hbackSub⟩ := List.append_sublist_iff.1 hsub
  exact ⟨front', back', hstored, hfrontSub.subset hfront, hbackSub.subset hback⟩

theorem pruneEvents_sublist (now : Instant) : (pruneEvents events now).Sublist events :=
  (List.drop_sublist _ _).trans List.filter_sublist

end Query

/-! ### The page -/

/-- What holds of the log page between two steps. -/
structure Tracks (filter : ActivityFilter) (stored events : List ActivityEvent) (page : LogPage) :
    Prop where
  shown_subset : page.shown ⊆ stored
  nodup_shown : (page.shown.map ActivityEvent.id).Nodup
  snapshot_subset : page.snapshot ⊆ stored
  accepts : ∀ event ∈ page.snapshot, (filter.query none).accepts event = true
  due : ∀ event ∈ page.snapshot, event ∈ events → event ∉ page.shown →
    page.hasMore = true ∧ ∃ oldest, page.shown.getLast? = some oldest ∧
      StoredBefore stored event oldest
  asked_le : page.asked ≤ page.shown.length
  asked_lt : page.hasMore = true → page.asked < page.shown.length

section Page

variable {filter : ActivityFilter} {w : ActivityWorld}
  {events events' stored stored' : List ActivityEvent} {event other oldest : ActivityEvent}
  {page : LogPage}

theorem Tracks.mono (h : Tracks filter stored events page) (hsub : stored.Sublist stored')
    (hevents : ∀ event ∈ stored, event ∈ events' → event ∈ events) :
    Tracks filter stored' events' page where
  shown_subset := fun _ hevent => hsub.subset (h.shown_subset hevent)
  nodup_shown := h.nodup_shown
  snapshot_subset := fun _ hevent => hsub.subset (h.snapshot_subset hevent)
  accepts := h.accepts
  due := by
    intro event hevent hmem hnot
    obtain ⟨hmore, oldest, holdest, hbefore⟩ :=
      h.due event hevent (hevents event (h.snapshot_subset hevent) hmem) hnot
    exact ⟨hmore, oldest, holdest, hbefore.of_sublist hsub⟩
  asked_le := h.asked_le
  asked_lt := h.asked_lt

theorem tracks_reload (hsub : events.Sublist stored)
    (hnodup : (stored.map ActivityEvent.id).Nodup) :
    Tracks filter stored events (LogPage.reload filter events) where
  shown_subset := fun _ hevent => hsub.subset (mem_of_mem_run hevent).1
  nodup_shown := nodup_run ((hsub.map _).nodup hnodup)
  snapshot_subset := fun _ hevent => hsub.subset (List.mem_filter.1 hevent).1
  accepts := fun _ hevent => (List.mem_filter.1 hevent).2
  due := by
    intro event hevent hmem hnot
    rcases mem_run_or hmem (List.mem_filter.1 hevent).2 with hrun | ⟨hlength, hbefore⟩
    · exact absurd hrun hnot
    · have hne : (filter.query none).run events ≠ [] := List.ne_nil_of_length_pos (by omega)
      refine ⟨beq_iff_eq.2 hlength, _, List.getLast?_eq_some_getLast hne, ?_⟩
      exact (hbefore _ (List.getLast_mem hne)).of_sublist hsub
  asked_le := Nat.zero_le _
  asked_lt := by
    intro hmore
    have hlength : ((filter.query none).run events).length = 200 := beq_iff_eq.1 hmore
    have hasked : (LogPage.reload filter events).asked = 0 := rfl
    have hshown : (LogPage.reload filter events).shown.length = 200 := hlength
    omega

/-- Events of the repository are told apart by their ids. -/
theorem eq_of_id_eq (hnodup : (stored.map ActivityEvent.id).Nodup) (hevent : event ∈ stored)
    (hother : other ∈ stored) (hid : event.id = other.id) : event = other :=
  List.inj_on_of_nodup_map hnodup hevent hother hid

/-- An event of the next page is on the page already, or it is new. -/
theorem mem_shown_or_mem_new (hsub : events.Sublist stored)
    (hnodup : (stored.map ActivityEvent.id).Nodup) (hshown : page.shown ⊆ stored)
    {before : Option Instant} (hevent : event ∈ (filter.query before).run events) :
    event ∈ page.shown ∨ event ∈ ((filter.query before).run events).filter fun event =>
      !(page.shown.map ActivityEvent.id).contains event.id := by
  by_cases hid : event.id ∈ page.shown.map ActivityEvent.id
  · obtain ⟨other, hother, heq⟩ := List.mem_map.1 hid
    have hstored := hsub.subset (mem_of_mem_run hevent).1
    exact .inl (eq_of_id_eq hnodup hstored (hshown hother) heq.symm ▸ hother)
  · exact .inr (List.mem_filter.2 ⟨hevent, by simpa using hid⟩)

/-- A full page shows something new, unless the events that are shown already fill it. -/
theorem PageAdvances.exists_new (h : PageAdvances w page oldest) (hsub : w.events.Sublist w.stored)
    (hnodup : (w.stored.map ActivityEvent.id).Nodup) (hshown : page.shown ⊆ w.stored)
    (hlength : ((filter.query (some oldest.occurredAt)).run w.events).length = 200) :
    ∃ event, event ∈ ((filter.query (some oldest.occurredAt)).run w.events).filter fun event =>
      !(page.shown.map ActivityEvent.id).contains event.id := by
  by_contra hnone
  set next := (filter.query (some oldest.occurredAt)).run w.events with hnext
  have hold : next ⊆ page.shown.filter fun event =>
      event ∈ w.events ∧ event.occurredAt < oldest.occurredAt := by
    intro event hevent
    rcases mem_shown_or_mem_new hsub hnodup hshown hevent with hmem | hnew
    · obtain ⟨hevents, haccepts⟩ := mem_of_mem_run hevent
      have htime := (accepts_query_iff.1 haccepts).2 _ rfl
      exact List.mem_filter.2 ⟨hmem, decide_eq_true ⟨hevents, htime⟩⟩
    · exact absurd ⟨event, hnew⟩ hnone
  have hnextNodup : next.Nodup := (nodup_run ((hsub.map _).nodup hnodup)).of_map
  have hle := (hnextNodup.subperm hold).length_le
  rw [hlength] at hle
  exact absurd h (Nat.not_lt.2 hle)

theorem Tracks.loadMore (h : Tracks filter w.stored w.events page)
    (hsub : w.events.Sublist w.stored)
    (hnodup : (w.stored.map ActivityEvent.id).Nodup) (hmore : page.hasMore = true)
    (holdest : page.shown.getLast? = some oldest) (hties : TiesShown w page oldest)
    (hadvances : PageAdvances w page oldest) :
    Tracks filter w.stored w.events (page.loadMore filter oldest w.events) := by
  set next := (filter.query (some oldest.occurredAt)).run w.events with hnext
  set new := next.filter fun event => !(page.shown.map ActivityEvent.id).contains event.id with hnew
  have hshown : (page.loadMore filter oldest w.events).shown = page.shown ++ new := rfl
  have hasked : (page.loadMore filter oldest w.events).asked = page.asked + 1 := rfl
  have hlt := h.asked_lt hmore
  refine ⟨?_, ?_, h.snapshot_subset, h.accepts, ?_, ?_, ?_⟩
  · intro event hevent
    rcases List.mem_append.1 hevent with hold | hevent
    · exact h.shown_subset hold
    · exact hsub.subset (mem_of_mem_run (List.mem_filter.1 hevent).1).1
  · rw [hshown, List.map_append]
    have hnewNodup : (new.map ActivityEvent.id).Nodup :=
      (List.filter_sublist.map _).nodup (nodup_run ((hsub.map _).nodup hnodup))
    refine h.nodup_shown.append hnewNodup fun id hold hid => ?_
    obtain ⟨event, hevent, rfl⟩ := List.mem_map.1 hid
    have hnot := (List.mem_filter.1 hevent).2
    simp only [Bool.not_eq_true', List.contains_eq_mem, decide_eq_false_iff_not] at hnot
    exact hnot hold
  · intro event hevent hmem hnot
    rw [hshown, List.mem_append, not_or] at hnot
    obtain ⟨-, oldest', holdest', hbefore⟩ := h.due event hevent hmem hnot.1
    obtain rfl : oldest = oldest' := Option.some.inj (holdest.symm.trans holdest')
    have haccepts := accepts_query_iff.2
      ⟨h.accepts event hevent, fun t ht =>
        Option.some.inj ht ▸ hties event hevent hmem hnot.1 hbefore⟩
    rcases mem_run_or hmem haccepts with hrun | ⟨hlength, hothers⟩
    · rcases mem_shown_or_mem_new hsub hnodup h.shown_subset hrun with hold | hnew
      · exact absurd hold hnot.1
      · exact absurd hnew hnot.2
    · -- the page is full, and all of it was stored after the event
      refine ⟨beq_iff_eq.2 hlength, ?_⟩
      rw [hshown]
      rcases List.eq_nil_or_concat' new with hempty | ⟨front, last, hlast⟩
      · exact ⟨oldest, by rw [hempty, List.append_nil, holdest], hbefore⟩
      · have hmemLast : last ∈ new := hlast ▸ List.mem_concat_self
        refine ⟨last, by rw [hlast, ← List.append_assoc, List.getLast?_concat], ?_⟩
        exact (hothers last (List.mem_filter.1 hmemLast).1).of_sublist hsub
  · rw [hasked, hshown, List.length_append]
    omega
  · intro hmore'
    have hlength : next.length = 200 := beq_iff_eq.1 hmore'
    obtain ⟨event, hevent⟩ := hadvances.exists_new hsub hnodup h.shown_subset hlength
    have hpos : 0 < new.length := List.length_pos_of_mem hevent
    rw [hasked, hshown, List.length_append]
    omega

end Page

/-! ### Runs -/

section Run

variable {filter : ActivityFilter} {w w' s t : ActivityWorld} {e : ActivityStep}
  {es : List ActivityStep} {event : ActivityEvent}

/-- Every event has its own id, the repository holds events in the order of their storage, and the
page follows it. -/
structure WellFormed (filter : ActivityFilter) (w : ActivityWorld) : Prop where
  nodup : ((w.stored ++ w.inFlight).map ActivityEvent.id).Nodup
  sublist : w.events.Sublist w.stored
  tracks : ∀ page, w.page = some page → Tracks filter w.stored w.events page

theorem WellFormed.nodup_stored (h : WellFormed filter w) :
    (w.stored.map ActivityEvent.id).Nodup :=
  ((List.sublist_append_left _ _).map _).nodup h.nodup

/-- An event whose thread has not entered the lock is not stored. -/
theorem WellFormed.notMem_stored (h : WellFormed filter w) (hevent : event ∈ w.inFlight) :
    event ∉ w.stored := by
  intro hstored
  have hnodup := h.nodup
  rw [List.map_append, List.nodup_append] at hnodup
  exact hnodup.2.2 event.id (List.mem_map_of_mem hstored) event.id (List.mem_map_of_mem hevent) rfl

theorem wellFormed_opened {file : List ActivityEvent} {now : Instant}
    (hnodup : (file.map ActivityEvent.id).Nodup) : WellFormed filter (opened file now) where
  nodup := by
    have hsub : (pruneEvents file now).Sublist file := pruneEvents_sublist now
    simp only [opened, List.append_nil]
    exact (hsub.map ActivityEvent.id).nodup hnodup
  sublist := List.Sublist.refl _
  tracks := nofun

theorem WellFormed.stamp (h : WellFormed filter w) {now : Instant} (hid : event.id ∉
    (w.stored ++ w.inFlight).map ActivityEvent.id) :
    WellFormed filter { w with clock := now, inFlight := w.inFlight ++ [event] } where
  nodup := by
    rw [← List.append_assoc, List.map_append, List.map_singleton]
    exact h.nodup.append (List.nodup_singleton _) (List.disjoint_singleton.2 hid)
  sublist := h.sublist
  tracks := h.tracks

theorem WellFormed.enter (h : WellFormed filter w) {now : Instant} {events : List ActivityEvent}
    (hevent : event ∈ w.inFlight) (hsub : events.Sublist (w.events ++ [event])) :
    WellFormed filter { w with
      clock := now
      inFlight := w.inFlight.erase event
      events := events
      stored := w.stored ++ [event] } where
  nodup := by
    have hperm : (w.stored ++ [event] ++ w.inFlight.erase event).Perm (w.stored ++ w.inFlight) := by
      rw [List.append_assoc]
      exact (List.perm_cons_erase hevent).symm.append_left _
    exact (hperm.map _).nodup_iff.2 h.nodup
  sublist := hsub.trans (h.sublist.append (List.Sublist.refl _))
  tracks := by
    intro page hpage
    refine (h.tracks page hpage).mono (List.sublist_append_left _ _) fun other hother hmem => ?_
    rcases List.mem_append.1 (hsub.subset hmem) with hheld | hnew
    · exact hheld
    · rw [List.mem_singleton.1 hnew] at hother
      exact absurd hother (h.notMem_stored hevent)

theorem WellFormed.step (h : WellFormed filter w) (he : Pageable w e)
    (hstep : step filter w e = some w') : WellFormed filter w' := by
  cases e with
  | stamp id now source severity =>
    rw [ActivityWorld.step, Option.ite_none_right_eq_some, Option.some.injEq] at hstep
    obtain ⟨⟨-, hid⟩, rfl⟩ := hstep
    exact h.stamp hid
  | enter event now written =>
    rw [ActivityWorld.step, Option.ite_none_right_eq_some] at hstep
    obtain ⟨⟨-, hevent⟩, hstep⟩ := hstep
    by_cases hwritten : written = true
    · rw [if_pos hwritten, Option.some.injEq] at hstep
      exact hstep ▸ h.enter hevent (pruneEvents_sublist now)
    · rw [if_neg hwritten, Option.some.injEq] at hstep
      have hsub := (List.Sublist.refl w.stored).append (List.erase_sublist (a := event)
        (l := w.inFlight))
      exact hstep ▸ ⟨(hsub.map _).nodup h.nodup, h.sublist, h.tracks⟩
  | reload =>
    rw [ActivityWorld.step, Option.some.injEq] at hstep
    refine hstep ▸ ⟨h.nodup, h.sublist, fun page hpage => ?_⟩
    exact Option.some.inj hpage ▸ tracks_reload h.sublist h.nodup_stored
  | loadMore =>
    rw [ActivityWorld.step, Option.bind_eq_some_iff] at hstep
    obtain ⟨page, hpage, hstep⟩ := hstep
    rw [Option.ite_none_right_eq_some, Option.map_eq_some_iff] at hstep
    obtain ⟨hmore, oldest, holdest, rfl⟩ := hstep
    obtain ⟨hties, hadvances⟩ := he rfl page oldest hpage holdest
    refine ⟨h.nodup, h.sublist, fun page' hpage' => ?_⟩
    rw [← Option.some.inj hpage']
    exact (h.tracks page hpage).loadMore h.sublist h.nodup_stored hmore holdest hties hadvances

theorem WellFormed.pagesComplete (h : WellFormed filter w) : PagesComplete w := by
  intro page hpage
  have htracks := h.tracks page hpage
  refine ⟨htracks.nodup_shown, fun hmore event hevent hmem => ?_, ?_⟩
  · by_contra hnot
    rw [(htracks.due event hevent hmem hnot).1] at hmore
    cases hmore
  · have hshown : page.shown.Nodup := htracks.nodup_shown.of_map
    exact htracks.asked_le.trans (hshown.subperm htracks.shown_subset).length_le

/-- Whatever threads record meanwhile: the pages lose nothing, as long as the events that are due
and stored before the last one shown are strictly earlier whenever a further page is asked for, and
the page is not full of events that are shown already. -/
theorem pagesComplete_of_leads {file : List ActivityEvent} {now : Instant}
    (hnodup : (file.map ActivityEvent.id).Nodup) (h : Leads (step filter) (opened file now) es t)
    (hes : Along (step filter) Pageable (opened file now) es) : PagesComplete t :=
  (h.invariant_along hes (wellFormed_opened hnodup) fun _ _ _ hm he hstep =>
    hm.step he hstep).pagesComplete

/-- The numbered event of a device. -/
def deviceEvent (time : ℕ → Instant) (n : ℕ) : ActivityEvent :=
  { id := BitVec.ofNat 128 n, occurredAt := time n, source := .device, severity := .info }

/-- A history of one event more than a page shows. -/
def deviceEvents (time : ℕ → Instant) : List ActivityEvent := (List.range 201).map
    (deviceEvent time)

private theorem deviceEvents_eq (time : ℕ → Instant) : deviceEvents time =
    deviceEvent time 0 :: (List.range 200).map fun n => deviceEvent time (n + 1) := by
  rw [deviceEvents, List.range_succ_eq_map, List.map_cons, List.map_map]
  rfl

private theorem nodup_deviceEvents (time : ℕ → Instant) :
    ((deviceEvents time).map ActivityEvent.id).Nodup := by
  rw [deviceEvents, List.map_map]
  refine List.nodup_range.map_on fun n hn m hm heq => ?_
  have hvalue := congrArg BitVec.toNat heq
  simp only [Function.comp_apply, deviceEvent, BitVec.toNat_ofNat] at hvalue
  rw [List.mem_range] at hn hm
  omega

private theorem opened_deviceEvents {time : ℕ → Instant} (htime : ∀ n, 0 ≤ time n) :
    (opened (deviceEvents time) 0).events = deviceEvents time := by
  have hretained : (deviceEvents time).filter (fun event => 0 - retention ≤ event.occurredAt) =
      deviceEvents time := by
    refine List.filter_eq_self.2 fun event hevent => decide_eq_true ?_
    obtain ⟨n, -, rfl⟩ := List.mem_map.1 hevent
    exact (by decide : (0 : ℤ) - retention ≤ 0).trans (htime n)
  simp only [opened, pruneEvents, hretained]
  rw [deviceEvents, List.length_map, List.length_range, maxEvents]
  rfl

/-- The first page of the history, which ends behind its oldest event. -/
def deviceEventsPage (time : ℕ → Instant) : LogPage where
  snapshot := deviceEvents time
  shown := ((List.range 200).map fun n => deviceEvent time (n + 1)).reverse
  hasMore := true
  asked := 0

private theorem reload_deviceEvents (time : ℕ → Instant) :
    LogPage.reload { sources := [], severities := [] } (deviceEvents time) =
      deviceEventsPage time := by
  set filter : ActivityFilter := { sources := [], severities := [] }
  have haccepts (l : List ActivityEvent) : l.filter (filter.query none).accepts = l :=
    List.filter_eq_self.2 fun _ _ => rfl
  have hrun : (filter.query none).run (deviceEvents time) =
      ((List.range 200).map fun n => deviceEvent time (n + 1)).reverse := by
    rw [ActivityQuery.run, haccepts, deviceEvents_eq, List.reverse_cons]
    refine List.take_left' ?_
    rw [List.length_reverse, List.length_map, List.length_range]
    rfl
  rw [LogPage.reload, hrun, haccepts, List.length_reverse, List.length_map, List.length_range]
  rfl

/-- The runs to the first page and to the second one. -/
private theorem leads_reload_loadMore {first : LogPage} {oldest : ActivityEvent}
    (hfirst : LogPage.reload filter w.events = first) (hmore : first.hasMore = true)
    (holdest : first.shown.getLast? = some oldest) :
    Leads (step filter) w [.reload] { w with page := some first } ∧
      Leads (step filter) w [.reload, .loadMore]
        { w with page := some (first.loadMore filter oldest w.events) } := by
  subst hfirst
  refine ⟨leads_cons.2 ⟨_, rfl, leads_nil.2 rfl⟩, leads_cons.2 ⟨_, rfl, ?_⟩⟩
  refine leads_cons.2 ⟨_, ?_, leads_nil.2 rfl⟩
  simp only [step, Option.bind_some]
  rw [if_pos hmore, holdest, Option.map_some]

private theorem getLast?_deviceEventsPage (time : ℕ → Instant) :
    (deviceEventsPage time).shown.getLast? = some (deviceEvent time 1) := by
  rw [deviceEventsPage, List.getLast?_reverse, List.range_succ_eq_map, List.map_cons,
    List.head?_cons]

/-- Two pages of a history of 201 events at different times. -/
theorem pagesComplete_of_leads_twoPages :
    let file := deviceEvents Int.ofNat
    ∃ t, Leads (step { sources := [], severities := [] }) (opened file 0) [.reload, .loadMore] t ∧
      PagesComplete t := by
  intro file
  obtain ⟨w, hw⟩ : ∃ w, opened file 0 = w := ⟨_, rfl⟩
  have hevents : w.events = file := hw ▸ opened_deviceEvents fun n => Int.natCast_nonneg n
  obtain ⟨hreload, hleads⟩ := leads_reload_loadMore
    ((congrArg _ hevents).trans (reload_deviceEvents Int.ofNat)) rfl
    (getLast?_deviceEventsPage Int.ofNat)
  rw [← hw] at hreload hleads
  refine ⟨_, hleads, pagesComplete_of_leads (nodup_deviceEvents _) hleads ?_⟩
  intro pre e post m hes hm hloadMore
  obtain rfl : pre = [.reload] := by
    match pre, hes with
    | [], hes => simp [hloadMore] at hes
    | [_], hes => simpa using (List.cons.inj hes).1.symm
    | _ :: _ :: _, hes => simp at hes
  obtain rfl := hreload.unique hm
  intro page oldest hpage holdest
  obtain rfl := Option.some.inj hpage
  obtain rfl := Option.some.inj ((getLast?_deviceEventsPage Int.ofNat).symm.trans holdest)
  constructor
  · intro event hevent _ hnot _
    rw [deviceEventsPage, deviceEvents_eq, List.mem_cons] at hevent
    obtain rfl := hevent.resolve_right fun hshown => hnot (List.mem_reverse.2 hshown)
    exact Int.zero_lt_one
  · refine lt_of_eq_of_lt ?_ (by decide : 0 < 200)
    refine List.length_eq_zero_iff.2 (List.filter_eq_nil_iff.2 fun event hevent => ?_)
    obtain ⟨n, -, rfl⟩ := List.mem_map.1 (List.mem_reverse.1 hevent)
    have hle : (1 : ℤ) ≤ Int.ofNat (n + 1) := by
      rw [Int.ofNat_eq_natCast]
      omega
    exact fun hboth => not_lt.2 hle (of_decide_eq_true hboth).2

/-- Threads whose events have the same time: the page ends between two of them. -/
theorem not_pagesComplete_sameTime :
    ¬ ∀ (filter : ActivityFilter) (file : List ActivityEvent) (now : Instant)
      (es : List ActivityStep) (t : ActivityWorld), (file.map ActivityEvent.id).Nodup →
        Leads (step filter) (opened file now) es t → PagesComplete t := by
  intro h
  set filter : ActivityFilter := { sources := [], severities := [] } with hfilter
  set time : ℕ → Instant := fun _ => 0
  obtain ⟨w, hw⟩ : ∃ w, opened (deviceEvents time) 0 = w := ⟨_, rfl⟩
  have hevents : w.events = deviceEvents time := hw ▸ opened_deviceEvents fun _ => le_rfl
  have hleads := (leads_reload_loadMore
    ((congrArg _ hevents).trans (reload_deviceEvents time)) rfl (getLast?_deviceEventsPage time)).2
  rw [← hfilter] at hleads
  have hcomplete := (h filter _ 0 _ _ (nodup_deviceEvents time)
    (by rw [hw]; exact hleads) _ rfl).2.1
  have hnext : (filter.query (some (deviceEvent time 1).occurredAt)).run w.events = [] := by
    have hnone : (deviceEvents time).reverse.filter (filter.query (some 0)).accepts = [] := by
      refine List.filter_eq_nil_iff.2 fun event hevent => ?_
      obtain ⟨n, -, rfl⟩ := List.mem_map.1 (List.mem_reverse.1 hevent)
      exact fun haccepts => lt_irrefl _ ((accepts_query_iff.1 haccepts).2 0 rfl)
    rw [hevents]
    exact (congrArg (List.take _) hnone).trans List.take_nil
  have hmem : deviceEvent time 0 ∈ deviceEvents time :=
    List.mem_map_of_mem (List.mem_range.2 (by decide))
  rw [LogPage.loadMore, hnext, List.filter_nil, List.append_nil] at hcomplete
  have hshown := hcomplete rfl (deviceEvent time 0) hmem (hevents.symm ▸ hmem)
  obtain ⟨n, hn, heq⟩ := List.mem_map.1 (List.mem_reverse.1 hshown)
  have hvalue := congrArg (fun event => event.id.toNat) heq
  simp only [deviceEvent, BitVec.toNat_ofNat] at hvalue
  rw [List.mem_range] at hn
  omega

/-- The time of the last event shown never rises: a page that has passed an event will not show
it. -/
theorem notMem_shown_of_leads (h : Leads (step filter) s es t) (hes : .reload ∉ es)
    (hs : ∃ page oldest, s.page = some page ∧ page.shown.getLast? = some oldest ∧
      event ∉ page.shown ∧ oldest.occurredAt ≤ event.occurredAt) :
    ∃ page oldest, t.page = some page ∧ page.shown.getLast? = some oldest ∧
      event ∉ page.shown ∧ oldest.occurredAt ≤ event.occurredAt := by
  induction es using List.reverseRecOn generalizing t with
  | nil => exact leads_nil.1 h ▸ hs
  | append_singleton es e ih =>
    obtain ⟨m, hm, hstep⟩ := leads_concat.1 h
    rw [List.mem_append, List.mem_singleton, not_or] at hes
    obtain ⟨page, oldest, hpage, holdest, hnot, hle⟩ := ih hm hes.1
    cases e with
    | stamp id now source severity =>
      rw [step, Option.ite_none_right_eq_some, Option.some.injEq] at hstep
      exact ⟨page, oldest, hstep.2 ▸ hpage, holdest, hnot, hle⟩
    | enter event now written =>
      rw [step, Option.ite_none_right_eq_some] at hstep
      refine ⟨page, oldest, ?_, holdest, hnot, hle⟩
      obtain ⟨-, hstep⟩ := hstep
      split_ifs at hstep <;> exact Option.some.inj hstep ▸ hpage
    | reload => exact absurd rfl hes.2
    | loadMore =>
      rw [step, hpage, Option.bind_some, Option.ite_none_right_eq_some, holdest, Option.map_some,
        Option.some.injEq] at hstep
      obtain ⟨-, rfl⟩ := hstep
      set next := (filter.query (some oldest.occurredAt)).run m.events with hnext
      set new := next.filter fun event => !(page.shown.map ActivityEvent.id).contains event.id
      have hearlier : ∀ other ∈ new, other.occurredAt < oldest.occurredAt := fun other hother =>
        (accepts_query_iff.1 (mem_of_mem_run (List.mem_filter.1 hother).1).2).2 _ rfl
      have hnotNew : event ∉ page.shown ++ new := by
        rw [List.mem_append, not_or]
        exact ⟨hnot, fun hnew => absurd (hearlier event hnew) (not_lt.2 hle)⟩
      rcases List.eq_nil_or_concat' new with hempty | ⟨front, last, hlast⟩
      · refine ⟨_, oldest, rfl, ?_, hnotNew, hle⟩
        show (page.shown ++ new).getLast? = some oldest
        rw [hempty, List.append_nil, holdest]
      · have hmemLast : last ∈ new := hlast ▸ List.mem_concat_self
        refine ⟨_, last, rfl, ?_, hnotNew, (hearlier last hmemLast).le.trans hle⟩
        show (page.shown ++ new).getLast? = some last
        rw [hlast, ← List.append_assoc, List.getLast?_concat]

end Run

end ActivityWorld

end EasyDeployMesh
