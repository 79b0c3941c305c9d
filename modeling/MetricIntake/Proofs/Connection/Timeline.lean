-- SUMMARY: When the items of a text connection are there, read off its bytes and their moments, and that the idle limit ends a connection at the first gap between items that is too long.
import MetricIntake.Proofs.Connection.Text

/-!
# The timeline of a text connection

`timeline` knows of a peer when each byte arrives and how reading ends. It tells when
each item is there: that of a line when its line feed arrives, that of an unfinished line
when the stream ends, and the end itself. It knows no reader and no limit. A connection
with an idle limit comes to the items up to the first gap that is longer than the limit,
and ends as long after the last of them as the limit says; what arrives inside a gap is
of no account.
-/

namespace MetricIntake.Connection.Text

variable {max : Nat} {limit : Option Span} {now since start moment k : Nat} {l : Span}
  {line before : List UInt8} {peer : Peer} {p : Progress}

-- ---------------------------------------------------------------------------
-- Bytes and lines with their moments
-- ---------------------------------------------------------------------------

/-- How reading a connection ends. -/
inductive Finish where
  | closed
  | failed (error : IoError)
  deriving DecidableEq, Repr

/-- The bytes that reads bring from a moment on, each with the moment at which it
    arrives. -/
def arrivals : (now : Nat) → Peer → List (Nat × UInt8)
  | _, [] => []
  | now, read :: peer =>
    match read.arrival with
    | .bytes chunk => chunk.map (now + read.wait, ·) ++ arrivals (now + read.wait) peer
    | .failure _ | .closed | .never => []

/-- How and when reading ends, unless a read waits for ever. -/
def finish? : (now : Nat) → Peer → Option (Nat × Finish)
  | now, [] => some (now, .closed)
  | now, read :: peer =>
    match read.arrival with
    | .bytes _ => finish? (now + read.wait) peer
    | .failure e => some (now + read.wait, .failed e)
    | .closed => some (now + read.wait, .closed)
    | .never => none

/-- The lines that a line feed ends, each with the moment of its line feed. The first of
    them has begun with the bytes of `line`. -/
def endedLines : (line : List UInt8) → List (Nat × UInt8) → List (Nat × List UInt8)
  | _, [] => []
  | line, (moment, b) :: bytes =>
    if b = Line.feed then (moment, line) :: endedLines [] bytes
    else endedLines (line ++ [b]) bytes

/-- The line that no line feed ends. -/
def lastLine : (line : List UInt8) → List (Nat × UInt8) → List UInt8
  | line, [] => line
  | line, (_, b) :: bytes =>
    if b = Line.feed then lastLine [] bytes else lastLine (line ++ [b]) bytes

/-- The lines that end among the bytes that arrive at one moment have that moment, and the
    bytes after the last of them begin a line. -/
theorem endedLines_append (h : Line.feed ∉ line) (moment : Nat) (chunk : List UInt8)
    (bytes : List (Nat × UInt8)) :
    endedLines line (chunk.map (moment, ·) ++ bytes) =
        (Line.ended (line ++ chunk)).map (moment, ·) ++
          endedLines (Line.unfinished (line ++ chunk)) bytes ∧
      lastLine line (chunk.map (moment, ·) ++ bytes) =
        lastLine (Line.unfinished (line ++ chunk)) bytes := by
  induction chunk generalizing line with
  | nil =>
    obtain ⟨hended, hline⟩ := Line.ended_of_not_mem h
    rw [List.append_nil, hended, hline]
    exact ⟨rfl, rfl⟩
  | cons b chunk ih =>
    rw [List.map_cons, List.cons_append, endedLines, lastLine]
    split
    · rename_i hfeed
      obtain ⟨hlines, hlast⟩ := ih (List.not_mem_nil (a := Line.feed))
      obtain ⟨hended, hline⟩ := Line.ended_append_feed h chunk
      rw [hfeed, hended, hline, hlines, hlast]
      exact ⟨rfl, rfl⟩
    · rename_i hfeed
      have hline : Line.feed ∉ line ++ [b] := by
        rw [List.mem_append, List.mem_singleton, not_or]
        exact ⟨h, Ne.symm hfeed⟩
      rw [List.append_cons line b chunk]
      exact ih hline

-- ---------------------------------------------------------------------------
-- Timelines
-- ---------------------------------------------------------------------------

/-- What a connection waits for. -/
inductive Event where
  | item (item : LineReader.Item)
  | finish (finish : Finish)
  deriving DecidableEq, Repr

/-- The item, unless it is the end. -/
def Event.item? : Event → Option LineReader.Item
  | .item i => some i
  | .finish _ => none

/-- The item of a line that is there at a moment; a blank line has none. -/
def lineEvent? (max : Nat) (line : Nat × List UInt8) : Option (Nat × Event) :=
  (Line.bounded? max line.2).map fun item => (line.1, .item item)

/-- The end of reading. The line that no line feed ends is there when the stream ends, and
    is lost when a read fails. -/
def finishEvents (max : Nat) (line : List UInt8) : Option (Nat × Finish) → List (Nat × Event)
  | some (moment, .closed) =>
    (lineEvent? max (moment, line)).toList ++ [(moment, .finish .closed)]
  | some (moment, .failed e) => [(moment, .finish (.failed e))]
  | none => []

/-- What the rest of a connection comes to, each with the moment at which it is there. A
    line has begun with the bytes of `line`. -/
def timelineFrom (max : Nat) (line : List UInt8) (now : Nat) (peer : Peer) :
    List (Nat × Event) :=
  let bytes := arrivals now peer
  (endedLines line bytes).filterMap (lineEvent? max) ++
    finishEvents max (lastLine line bytes) (finish? now peer)

/-- What a connection comes to over time. -/
def timeline (max : Nat) (peer : Peer) : List (Nat × Event) := timelineFrom max [] 0 peer

/-- Items that are all there at one moment. -/
def together (moment : Nat) (items : List LineReader.Item) : List (Nat × Event) :=
  items.map fun item => (moment, .item item)

/-- Bytes that arrive bring the items of the lines that they end, all at once. -/
theorem timelineFrom_bytes (h : Line.feed ∉ line) (wait : Nat) (chunk : List UInt8) :
    timelineFrom max line now (⟨wait, .bytes chunk⟩ :: peer) =
      together (now + wait) (Line.ofEnded max (line ++ chunk)) ++
        timelineFrom max (Line.unfinished (line ++ chunk)) (now + wait) peer := by
  obtain ⟨hlines, hlast⟩ :=
    endedLines_append h (now + wait) chunk (arrivals (now + wait) peer)
  have hitems : ((Line.ended (line ++ chunk)).map (now + wait, ·)).filterMap (lineEvent? max) =
      together (now + wait) (Line.ofEnded max (line ++ chunk)) := by
    rw [List.filterMap_map, together, Line.ofEnded, List.map_filterMap]
    rfl
  rw [timelineFrom, arrivals, hlines, hlast, finish?, List.filterMap_append, hitems,
    List.append_assoc]
  rfl

/-- The end of the stream comes after what the last line yields. -/
theorem finishEvents_closed :
    finishEvents max line (some (moment, .closed)) =
      together moment (Line.bounded? max line).toList ++ [(moment, .finish .closed)] := by
  rw [finishEvents, lineEvent?]
  cases Line.bounded? max line with
  | none => rfl
  | some item => rfl

/-- A read that waits happens at the end of its wait. -/
theorem timelineFrom_wait (wait : Nat) (arrival : Arrival) :
    timelineFrom max line now (⟨wait, arrival⟩ :: peer) =
      timelineFrom max line (now + wait) (⟨0, arrival⟩ :: peer) := by
  simp only [timelineFrom, arrivals, finish?, Nat.add_zero]

/-- The moments from one on, none of which is before the one before it. -/
def Ordered (start : Nat) (events : List (Nat × Event)) : Prop :=
  (start :: events.map (·.1)).Pairwise (· ≤ ·)

theorem Ordered.le_of_mem {events : List (Nat × Event)} {event : Nat × Event}
    (h : Ordered start events) (hmem : event ∈ events) : start ≤ event.1 :=
  (List.pairwise_cons.1 h).1 event.1 (List.mem_map_of_mem hmem)

theorem Ordered.of_le {start' : Nat} {events : List (Nat × Event)} (h : Ordered start events)
    (hle : start' ≤ start) : Ordered start' events := by
  obtain ⟨hstart, hevents⟩ := List.pairwise_cons.1 h
  exact List.pairwise_cons.2 ⟨fun m hm => Nat.le_trans hle (hstart m hm), hevents⟩

theorem Ordered.together_append {events : List (Nat × Event)} (h : Ordered moment events)
    (items : List LineReader.Item) : Ordered moment (together moment items ++ events) := by
  induction items with
  | nil => exact h
  | cons item items ih =>
    refine List.pairwise_cons.2 ⟨?_, ih⟩
    intro m hm
    obtain rfl | hm := List.mem_cons.1 hm
    · exact Nat.le_refl _
    · exact (List.pairwise_cons.1 ih).1 m hm

theorem ordered_timelineFrom (h : Line.feed ∉ line) (peer : Peer) :
    Ordered now (timelineFrom max line now peer) := by
  have hone : ∀ m event, Ordered m [(m, event)] := by simp [Ordered]
  induction peer generalizing now line with
  | nil =>
    have hevents : timelineFrom max line now [] = finishEvents max line (some (now, .closed)) := rfl
    rw [hevents, finishEvents_closed]
    exact (hone _ _).together_append _
  | cons read peer ih =>
    obtain ⟨wait, arrival⟩ := read
    refine Ordered.of_le ?_ (Nat.le_add_right now wait)
    rw [timelineFrom_wait]
    generalize now + wait = now
    cases arrival with
    | bytes chunk =>
      rw [timelineFrom_bytes h]
      exact (ih (Line.feed_not_mem_unfinished _)).together_append _
    | failure e => exact hone _ _
    | closed =>
      have hevents : timelineFrom max line now (⟨0, .closed⟩ :: peer) =
          finishEvents max line (some (now, .closed)) := rfl
      rw [hevents, finishEvents_closed]
      exact (hone _ _).together_append _
    | never => exact List.pairwise_singleton _ _

-- ---------------------------------------------------------------------------
-- Gaps
-- ---------------------------------------------------------------------------

/-- The first gap of a timeline that is longer than a limit. It begins at the moment
    `since`, which is that of the `k`-th item, or the start if `k` is zero; what comes next
    is there too late or never is, while all that comes before it is in time. -/
structure FirstGap (events : List (Nat × Event)) (start limit k since : Nat) : Prop where
  begins : (start :: events.map (·.1))[k]? = some since
  goes_on : ∀ e ∈ events.take k, e.2.item? ≠ none
  earlier : ∀ j < k, ∀ moment ∈ (start :: events.map (·.1))[j]?,
    ∀ next ∈ (events.map (·.1))[j]?, next - moment ≤ limit
  late : ∀ next ∈ (events.map (·.1))[k]?, limit < next - since

/-- The wait from the start is too long at once. -/
theorem firstGap_zero_iff {events : List (Nat × Event)} {bound : Nat} :
    FirstGap events start bound 0 since ↔
      since = start ∧ ∀ next ∈ events.head?, bound < next.1 - start := by
  have hhead : (∀ next ∈ events.head?, bound < next.1 - start) ↔
      ∀ next ∈ (events.map (·.1))[0]?, bound < next - start := by
    cases events with
    | nil => simp
    | cons event events => simp
  rw [hhead]
  constructor
  · intro h
    obtain rfl : start = since := Option.some.inj h.begins
    exact ⟨rfl, h.late⟩
  · rintro ⟨rfl, hlate⟩
    exact ⟨rfl, nofun, nofun, hlate⟩

/-- An item is in time, and the first gap that is too long comes after it. -/
theorem firstGap_succ_iff {event : Nat × Event} {events : List (Nat × Event)} {bound : Nat} :
    FirstGap (event :: events) start bound (k + 1) since ↔
      event.2.item? ≠ none ∧ event.1 - start ≤ bound ∧ FirstGap events event.1 bound k since := by
  constructor
  · intro h
    have hgoes := h.goes_on
    rw [List.take_succ_cons, List.forall_mem_cons] at hgoes
    exact ⟨hgoes.1, h.earlier 0 k.succ_pos start rfl event.1 rfl,
      h.begins, hgoes.2, fun j hj => h.earlier (j + 1) (Nat.succ_lt_succ hj), h.late⟩
  · rintro ⟨hitem, htime, h⟩
    refine ⟨h.begins, ?_, ?_, h.late⟩
    · rw [List.take_succ_cons, List.forall_mem_cons]
      exact ⟨hitem, h.goes_on⟩
    · rintro (_ | j) hj
      · rintro _ ⟨⟩ _ ⟨⟩
        exact htime
      · exact h.earlier j (Nat.lt_of_succ_lt_succ hj)

-- ---------------------------------------------------------------------------
-- Serving along a timeline
-- ---------------------------------------------------------------------------

/-- Waits for one event after the other, the first of them since a moment. -/
def await (limit : Option Span) : (since : Nat) → Progress → List (Nat × Event) → Outcome
  | since, p, [] => p.ending (endlessly limit since)
  | since, p, (moment, event) :: events =>
    match overdue limit since moment with
    | some (l, expiry) => p.failed expiry (.idle l)
    | none =>
      match event with
      | .item item => await limit moment (p.add [item]) events
      | .finish .closed => p.finished moment
      | .finish (.failed e) => p.failed moment (.io e)

theorem overdue_self (limit : Option Span) (moment : Nat) : overdue limit moment moment = none := by
  rw [overdue_eq_none_iff, Nat.sub_self]
  exact fun l _ => Nat.zero_le _

/-- Items that are there in time, all at one moment, put the next deadline off, unless there
    are none. -/
theorem await_together_append (htime : overdue limit since moment = none)
    (items : List LineReader.Item) (events : List (Nat × Event)) :
    await limit since p (together moment items ++ events) =
      await limit (if items.isEmpty then since else moment) (p.add items) events := by
  induction items generalizing since p with
  | nil => simp [together, Progress.add]
  | cons item items ih =>
    have hsince : (if items.isEmpty then moment else moment) = moment := ite_self _
    simp only [together, List.map_cons, List.cons_append, await, htime]
    rw [← together, ih (overdue_self limit moment), hsince, ← Progress.add_append]
    rfl

/-- If nothing comes before the deadline, the wait ends there. -/
theorem await_of_late {events : List (Nat × Event)}
    (h : ∀ next ∈ events.head?, l.nanos < next.1 - since) :
    await (some l) since p events = p.failed (since + l.nanos) (.idle l) := by
  cases events with
  | nil => rfl
  | cons next events =>
    have hlate : l.nanos < next.1 - since := h next rfl
    have hover : overdue (some l) since next.1 = some (l, since + l.nanos) := if_pos (by omega)
    obtain ⟨moment, event⟩ := next
    unfold await
    simp only [hover]

/-- When the stream ends, the last line is added. -/
theorem await_finishEvents_closed (htime : overdue limit since moment = none) :
    await limit since p (finishEvents max line (some (moment, .closed))) =
      (p.add (Line.bounded? max line).toList).finished moment := by
  have hnext : overdue limit (if (Line.bounded? max line).toList.isEmpty then since else moment)
      moment = none := by
    split
    · exact htime
    · exact overdue_self limit moment
  rw [finishEvents_closed, await_together_append htime, await, hnext]

/-- Serving the reads comes to the same as waiting along their timeline. Of all that has
    been received only the line that has not ended matters, and the wait for the next item
    goes on through reads that bring none. -/
theorem serveFrom_eq_await {reader : LineReader} (h : LineReader.Received max before reader)
    (htime : overdue limit since now = none) (peer : Peer) :
    serveFrom limit peer now since reader p =
      await limit since p (timelineFrom max (Line.unfinished before) now peer) := by
  induction peer generalizing before now since reader p with
  | nil =>
    rw [serveFrom, h.close_eq]
    exact (await_finishEvents_closed htime).symm
  | cons read peer ih =>
    obtain ⟨wait, arrival⟩ := read
    rw [serveFrom]
    dsimp only
    cases hover : overdue limit since (now + wait) with
    | some late =>
      obtain ⟨l, expiry⟩ := late
      obtain ⟨rfl, hlate, rfl⟩ := overdue_eq_some hover
      -- nothing on the timeline is there before this read, whatever it brings
      have hordered : Ordered (now + wait)
          (timelineFrom max (Line.unfinished before) now (⟨wait, arrival⟩ :: peer)) := by
        rw [timelineFrom_wait]
        exact ordered_timelineFrom (Line.feed_not_mem_unfinished before) _
      refine (await_of_late ?_).symm
      intro next hnext
      have hle := hordered.le_of_mem (List.mem_of_mem_head? hnext)
      omega
    | none =>
      cases arrival with
      | failure e =>
        have hevents : timelineFrom max (Line.unfinished before) now (⟨wait, .failure e⟩ :: peer) =
            [(now + wait, .finish (.failed e))] := rfl
        rw [hevents, await, hover]
      | closed =>
        dsimp only
        rw [h.close_eq]
        exact (await_finishEvents_closed hover).symm
      | never => rfl
      | bytes chunk =>
        obtain ⟨-, hreceived⟩ := h.drain_feed chunk
        rw [timelineFrom_bytes (Line.feed_not_mem_unfinished before), await_together_append hover,
          ← Line.unfinished_append, ← h.drain_feed_eq]
        apply ih hreceived
        split
        · exact hover
        · exact overdue_self limit _

/-- Up to a gap that is too long all items are added, and there the wait ends. -/
theorem await_of_firstGap {events : List (Nat × Event)}
    (h : FirstGap events start l.nanos k since) :
    await (some l) start p events =
      (p.add ((events.take k).filterMap (·.2.item?))).failed (since + l.nanos) (.idle l) := by
  induction k generalizing events start p with
  | zero =>
    obtain ⟨rfl, hlate⟩ := firstGap_zero_iff.1 h
    rw [await_of_late hlate]
    simp [Progress.add]
  | succ k ih =>
    cases events with
    | nil => cases h.begins
    | cons event events =>
      obtain ⟨hitem, htime, hrest⟩ := firstGap_succ_iff.1 h
      obtain ⟨moment, event⟩ := event
      have hover : overdue (some l) start moment = none :=
        overdue_eq_none_iff.2 (by rintro _ ⟨⟩; exact htime)
      cases event with
      | finish how => cases hitem rfl
      | item item =>
        simp only [await, hover, ih hrest, List.take_succ_cons, List.filterMap_cons, Event.item?]
        rw [← Progress.add_append]
        rfl

/-- A wait that ends with the limit ends at the first gap that is too long. -/
theorem exists_firstGap_of_await {events : List (Nat × Event)}
    (h : (await limit start p events).ending = .returned moment (.error (.idle l))) :
    limit = some l ∧
      ∃ k since, FirstGap events start l.nanos k since ∧ moment = since + l.nanos := by
  induction events generalizing start p with
  | nil =>
    cases limit with
    | none => cases h
    | some l' =>
      cases h
      exact ⟨rfl, 0, start, firstGap_zero_iff.2 ⟨rfl, nofun⟩, rfl⟩
  | cons event events ih =>
    obtain ⟨next, event⟩ := event
    cases hover : overdue limit start next with
    | some late =>
      obtain ⟨l', expiry⟩ := late
      obtain ⟨rfl, hlate, rfl⟩ := overdue_eq_some hover
      unfold await at h
      simp only [hover] at h
      cases h
      refine ⟨rfl, 0, start, firstGap_zero_iff.2 ⟨rfl, ?_⟩, rfl⟩
      rintro _ ⟨⟩
      exact hlate
    | none =>
      cases event with
      | finish how =>
        cases how with
        | closed =>
          simp only [await, hover] at h
          cases h
        | failed e =>
          simp only [await, hover] at h
          cases h
      | item item =>
        simp only [await, hover] at h
        obtain ⟨rfl, k, since, hrest, hmoment⟩ := ih h
        have htime : next - start ≤ l.nanos := overdue_eq_none_iff.1 hover l rfl
        exact ⟨rfl, k + 1, since, firstGap_succ_iff.2 ⟨nofun, htime, hrest⟩, hmoment⟩

theorem serve_eq_await (settings : Settings) (peer : Peer) :
    serve settings peer = await settings.idle 0 {} (timeline settings.maxLine peer) :=
  serveFrom_eq_await (LineReader.received_new settings.maxLine) (overdue_self _ 0) peer

/-- The items and the end of a connection are there in order. If a gap before one of them
    is longer than the limit, or it is the last because nothing more ever comes, the
    connection ends exactly as long after the beginning of the first such gap as the limit
    says, and the points of all items before it have been ingested. It ends with the limit
    at no other moment, and never without a limit. Nothing but the items and the end has
    any part in this: not when the bytes of an unfinished line arrive, nor those of a blank
    or an oversized one. -/
theorem idle_at_first_gap (settings : Settings) (peer : Peer) :
    let events := timeline settings.maxLine peer
    let served := serve settings peer
    (0 :: events.map (·.1)).Pairwise (· ≤ ·) ∧
    (∀ l ∈ settings.idle, ∀ k since, FirstGap events 0 l.nanos k since →
      served.ending = .returned (since + l.nanos) (.error (.idle l)) ∧
      served.ingested = ((events.take k).filterMap (·.2.item?)).filterMap Progress.point?) ∧
    (∀ moment l, served.ending = .returned moment (.error (.idle l)) →
      settings.idle = some l ∧
        ∃ k since, FirstGap events 0 l.nanos k since ∧ moment = since + l.nanos) ∧
    ∀ peer', timeline settings.maxLine peer' = events → serve settings peer' = served := by
  intro events served
  have hserved : served = await settings.idle 0 {} events := serve_eq_await settings peer
  refine ⟨ordered_timelineFrom (List.not_mem_nil (a := Line.feed)) peer, ?_, ?_, ?_⟩
  · intro l hl k since hgap
    rw [hserved, hl, await_of_firstGap hgap]
    exact ⟨rfl, List.nil_append _⟩
  · intro moment l hending
    rw [hserved] at hending
    exact exists_firstGap_of_await hending
  · intro peer' hsame
    rw [serve_eq_await, hsame, hserved]

/-- Two lines are in time. A blank line and the bytes of an oversized one that come after
    them do not put the deadline off, so that the line feed of the latter is too late. It
    would be without them, too. -/
theorem idle_at_first_gap_oversized :
    let settings : Settings := { maxLine := 6, idle := some (.ofNanos 10) }
    let peer : Peer := [⟨4, .bytes [0x61, 0x20, 0x31, 0x20, 0x31, 0x0A, 0x62]⟩,
      ⟨5, .bytes [0x20, 0x32, 0x20, 0x32, 0x0A, 0x20]⟩, ⟨3, .bytes [0x0A]⟩,
      ⟨4, .bytes [0x61, 0x61, 0x61, 0x61, 0x61, 0x61, 0x61]⟩, ⟨4, .bytes [0x61, 0x0A]⟩]
    let other : Peer := [⟨4, .bytes [0x61, 0x20, 0x31, 0x20, 0x31, 0x0A]⟩,
      ⟨5, .bytes [0x62, 0x20, 0x32, 0x20, 0x32, 0x0A]⟩,
      ⟨11, .bytes [0x62, 0x62, 0x62, 0x62, 0x62, 0x62, 0x62, 0x0A]⟩]
    let events : List (Nat × Event) := [(4, .item (.ok "a 1 1")), (9, .item (.ok "b 2 2")),
      (20, .item (.error (.lineTooLong 6))), (20, .finish .closed)]
    timeline settings.maxLine peer = events ∧
      FirstGap events 0 (Span.ofNanos 10).nanos 2 9 ∧
      (serve settings peer).ending = .returned 19 (.error (.idle (.ofNanos 10))) ∧
      (serve settings peer).ingested.map (·.name) = ["a", "b"] ∧
      (∃ k since, FirstGap events 0 (Span.ofNanos 10).nanos k since ∧
        19 = since + (Span.ofNanos 10).nanos) ∧
      timeline settings.maxLine other = events ∧
      serve settings other = serve settings peer := by
  intro settings peer other events
  have hpeer : timeline settings.maxLine peer = events := by decide +kernel
  have hother : timeline settings.maxLine other = events := by decide +kernel
  have hgap : FirstGap events 0 (Span.ofNanos 10).nanos 2 9 :=
    firstGap_succ_iff.2 ⟨by decide, by decide, firstGap_succ_iff.2
      ⟨by decide, by decide, firstGap_zero_iff.2 ⟨rfl, by decide⟩⟩⟩
  obtain ⟨-, hidle, hback, hsame⟩ := idle_at_first_gap settings peer
  rw [hpeer] at hidle hback hsame
  obtain ⟨hending, hingested⟩ := hidle _ rfl 2 9 hgap
  refine ⟨hpeer, hgap, hending, ?_, (hback _ _ hending).2, hother, hsame other hother⟩
  rw [hingested]
  decide +kernel

end MetricIntake.Connection.Text
