-- SUMMARY: A receive loop against its script: every datagram is decoded alone whatever the buffer holds, every error is waited out, and only a request ends the loop.
import MetricIntake.Listener.Datagrams
import MetricIntake.Proofs.Connection.Datagram
import MetricIntake.Proofs.Listener.Accept

/-!
# The course of a receive loop

`receptions` tells when every receive of a script would complete if the loop were never
asked to stop, and how many errors in a row come right before it. The loop takes the
first of them, up to a request to stop, and leaves the others; `DatagramRun.Takes` says
so of a run. The buffer has no part in it: what is decoded is the datagram, whatever the
buffer held before.
-/

namespace MetricIntake.Listener

-- ---------------------------------------------------------------------------
-- Receptions
-- ---------------------------------------------------------------------------

/-- The receive meets an error or a datagram that the buffer can hold. -/
def Attempt.Fits (a : Receive) : Prop :=
  ∀ datagram, a.result = .ok datagram → datagram.length ≤ datagramCapacity

/-- A receive in its place. -/
structure Reception where
  result : Except IoError (List UInt8)
  /-- When it completes. -/
  moment : Nat
  /-- How many errors have come since the last datagram before it. -/
  failures : Nat

namespace Reception

/-- What the datagram yields by itself. -/
def items (r : Reception) : List (Except DecodeError Point) :=
  match r.result with
  | .ok datagram => Datagram.points datagram
  | .error _ => []

/-- The delay after an error, whether it passes by itself or not. -/
def backOff? (config : BackoffConfig) (r : Reception) : Option Span :=
  match r.result with
  | .ok _ => none
  | .error _ => some (config.delay r.failures)

/-- When the loop receives again. -/
def resumes (config : BackoffConfig) (r : Reception) : Nat :=
  r.moment + ((r.backOff? config).elim 0 Span.nanos)

end Reception

/-- The receptions after some receives, of which the latest comes first, from a moment on. -/
def receptionsFrom (config : BackoffConfig) :
    (earlier : List Receive) → (now : Nat) → List Receive → List Reception
  | _, _, [] => []
  | earlier, now, receive :: later =>
    let failures := (earlier.takeWhile Attempt.isError).length
    let reception : Reception := ⟨receive.result, now + receive.wait, failures⟩
    reception :: receptionsFrom config (receive :: earlier) (reception.resumes config) later

/-- The receptions of a whole script. -/
def receptions (config : BackoffConfig) (receives : List Receive) : List Reception :=
  receptionsFrom config [] 0 receives

-- ---------------------------------------------------------------------------
-- What a run takes
-- ---------------------------------------------------------------------------

/-- A run takes receptions: their datagrams are decoded one by one, each by itself, and
    after every error it backs off. It ends when it is asked to stop, be it in a receive or
    backing off, and from then on takes no reception. Nothing else keeps it from the next. -/
structure DatagramRun.Takes (config : BackoffConfig) (stop : Option Nat)
    (taken left : List Reception) (r : DatagramRun) : Prop where
  ingested : r.ingested = taken.flatMap (·.items.filterMap Except.toOption)
  refused : r.refused = taken.flatMap (·.items.filterMap Connection.Text.error?)
  delays : r.delays = taken.filterMap (·.backOff? config)
  exit : r.exit = stop
  inTime : ∀ t ∈ taken, ∀ s ∈ stop, t.moment < s
  next : ∀ t ∈ left.head?, ∃ s ∈ stop, s ≤ t.moment

variable {config : BackoffConfig} {stop : Option Nat} {taken left : List Reception}
  {r : DatagramRun} {t : Reception}

theorem DatagramRun.ingest_eq (items : List (Except DecodeError Point)) (r : DatagramRun) :
    r.ingest items = { r with
      ingested := items.filterMap Except.toOption ++ r.ingested
      refused := items.filterMap Connection.Text.error? ++ r.refused } := by
  rw [ingest]
  congr 2
  refine List.filterMap_congr fun item _ => ?_
  cases item <;> rfl

namespace DatagramRun.Takes

/-- A run that is asked to stop while it waits for the first datagram. -/
theorem waiting (hnext : ∀ t ∈ left.head?, ∃ s ∈ stop, s ≤ t.moment) :
    ({ exit := stop } : DatagramRun).Takes config stop [] left where
  ingested := rfl
  refused := rfl
  delays := rfl
  exit := rfl
  inTime := nofun
  next := hnext

/-- A run that begins with a reception takes it and then what the rest of it takes. -/
theorem cons (h : r.Takes config stop taken left) (htime : ∀ s ∈ stop, t.moment < s) :
    DatagramRun.Takes config stop (t :: taken) left {
      ingested := t.items.filterMap Except.toOption ++ r.ingested
      refused := t.items.filterMap Connection.Text.error? ++ r.refused
      delays := (t.backOff? config).toList ++ r.delays
      exit := r.exit } where
  ingested := by rw [h.ingested, List.flatMap_cons]
  refused := by rw [h.refused, List.flatMap_cons]
  delays := by
    dsimp only
    rw [h.delays]
    cases hdelay : t.backOff? config <;> simp [hdelay]
  exit := h.exit
  inTime := List.forall_mem_cons.2 ⟨htime, h.inTime⟩
  next := h.next

/-- A run that goes on after a datagram gives its points to the sink. -/
theorem ingest (h : r.Takes config stop taken left) {datagram : List UInt8}
    (hresult : t.result = .ok datagram) (htime : ∀ s ∈ stop, t.moment < s) :
    (r.ingest (Datagram.points datagram)).Takes config stop (t :: taken) left := by
  have hcons := h.cons htime
  rw [ingest_eq]
  simpa [Reception.items, Reception.backOff?, hresult] using hcons

/-- A run that begins with an error backs off. -/
theorem backOff (h : r.Takes config stop taken left) {e : IoError} (hresult : t.result = .error e)
    (htime : ∀ s ∈ stop, t.moment < s) :
    (r.backOff (config.delay t.failures)).Takes config stop (t :: taken) left := by
  have hcons := h.cons htime
  simpa [Reception.items, Reception.backOff?, hresult, DatagramRun.backOff] using hcons

end DatagramRun.Takes

-- ---------------------------------------------------------------------------
-- Running a loop
-- ---------------------------------------------------------------------------

/-- What counts of the buffer is the datagram. -/
theorem take_receiveInto (buffer : List UInt8) {datagram : List UInt8}
    (hfits : datagram.length ≤ datagramCapacity) :
    (receiveInto buffer datagram).1.take (receiveInto buffer datagram).2 = datagram := by
  rw [receiveInto, List.take_left, List.take_of_length_le hfits]

/-- The next receive does not complete before it begins. -/
theorem le_moment_of_head?_receptions {earlier later : List Receive} {now : Nat}
    (ht : t ∈ (receptionsFrom config earlier now later).head?) : now ≤ t.moment := by
  cases later with
  | nil => cases ht
  | cons receive later =>
    obtain rfl := Option.some.inj ht
    exact Nat.le_add_right now receive.wait

/-- A loop that goes on after some receives takes some of the receptions that are left,
    whatever the buffer holds. -/
theorem exists_takes_receiveFrom (config : BackoffConfig) (receives earlier : List Receive)
    {now : Nat} (buffer : List UInt8) (hfits : ∀ receive ∈ receives, receive.Fits)
    (hnow : ∀ s ∈ stop, now ≤ s) :
    ∃ taken left, receptionsFrom config earlier now receives = taken ++ left ∧
      (receiveFrom stop receives now
        (.ofFailures config (earlier.takeWhile Attempt.isError).length) buffer).Takes
          config stop taken left := by
  induction receives generalizing earlier now buffer with
  | nil =>
    have hexit : stop.map (max now) = stop := by
      cases hstop : stop with
      | none => rfl
      | some s => exact congrArg some (max_eq_right (hnow s hstop))
    refine ⟨[], [], rfl, ?_⟩
    rw [receiveFrom, hexit]
    exact .waiting nofun
  | cons receive receives ih =>
    obtain ⟨hreceive, hreceives⟩ := List.forall_mem_cons.1 hfits
    let failures := (earlier.takeWhile Attempt.isError).length
    let t : Reception := ⟨receive.result, now + receive.wait, failures⟩
    let later := receptionsFrom config (receive :: earlier) (t.resumes config) receives
    have hreceptions : receptionsFrom config earlier now (receive :: receives) = t :: later := rfl
    rw [hreceptions, receiveFrom]
    cases hstopped : stopBy stop (now + receive.wait) with
    | some s =>
      obtain ⟨rfl, hle⟩ := stopBy_eq_some_iff.1 hstopped
      dsimp only
      rw [max_eq_right (hnow s rfl)]
      exact ⟨[], t :: later, rfl, .waiting (by simpa using hle)⟩
    | none =>
      have htime : ∀ s ∈ stop, t.moment < s := stopBy_eq_none_iff.1 hstopped
      dsimp only
      cases hresult : receive.result with
      | ok datagram =>
        have hresumes : t.resumes config = t.moment := by
          simp [t, Reception.resumes, Reception.backOff?, hresult]
        have hfailures : (receive :: earlier).takeWhile Attempt.isError = [] := by
          simp [Attempt.isError, hresult]
        have hle : ∀ s ∈ stop, t.resumes config ≤ s := fun s hs => hresumes ▸ (htime s hs).le
        obtain ⟨taken, left, hleft, htakes⟩ :=
          ih (receive :: earlier) (receiveInto buffer datagram).1 hreceives hle
        rw [hfailures, hresumes, List.length_nil] at htakes
        refine ⟨t :: taken, left, congrArg (t :: ·) hleft, ?_⟩
        dsimp only
        rw [Backoff.reset_ofFailures, take_receiveInto buffer (hreceive datagram hresult)]
        exact htakes.ingest hresult htime
      | error e =>
        have hfailures : ((receive :: earlier).takeWhile Attempt.isError).length = failures + 1 := by
          simp [Attempt.isError, hresult, failures]
        have hresumes : now + receive.wait + (config.delay failures).nanos = t.resumes config := by
          simp [t, Reception.resumes, Reception.backOff?, hresult]
        dsimp only
        rw [Backoff.nextDelay_ofFailures, hresumes]
        cases hstopped : stopBy stop (t.resumes config) with
        | some s =>
          obtain ⟨rfl, hle⟩ := stopBy_eq_some_iff.1 hstopped
          have hnext : ∀ t' ∈ later.head?, ∃ s' ∈ some s, s' ≤ t'.moment := fun t' ht' =>
            ⟨s, rfl, hle.trans (le_moment_of_head?_receptions ht')⟩
          exact ⟨[t], later, rfl, (DatagramRun.Takes.waiting hnext).backOff hresult htime⟩
        | none =>
          have hle : ∀ s ∈ stop, t.resumes config ≤ s := fun s hs =>
            (stopBy_eq_none_iff.1 hstopped s hs).le
          obtain ⟨taken, left, hleft, htakes⟩ := ih (receive :: earlier) buffer hreceives hle
          rw [hfailures] at htakes
          exact ⟨t :: taken, left, congrArg (t :: ·) hleft, htakes.backOff hresult htime⟩

/-- A loop takes the first receptions of its script, up to a request to stop, which alone
    ends it: the points of every datagram go to the sink, as the datagram yields them by
    itself, and after every error it backs off, by a delay that grows with the errors since
    the last datagram before. -/
theorem exists_takes_receive (config : BackoffConfig) (stop : Option Nat)
    {receives : List Receive} (hfits : ∀ receive ∈ receives, receive.Fits) :
    ∃ taken left, receptions config receives = taken ++ left ∧
      (receive config stop receives).Takes config stop taken left :=
  exists_takes_receiveFrom config receives [] _ hfits fun s _ => s.zero_le

/-- A datagram of two lines, the last one unfinished, and a shorter one after it; then three
    errors, one of which does not pass by itself. A request to stop comes while the third
    is waited out. -/
theorem exists_takes_receive_stopped :
    let config : BackoffConfig := { initial := .ofNanos 5, max := .ofNanos 12 }
    let long : List UInt8 := [0x61, 0x20, 0x31, 0x20, 0x31, 0x0A, 0x62, 0x20, 0x32, 0x20, 0x32]
    let short : List UInt8 := [0x63, 0x20, 0x33, 0x20, 0x33]
    let passing : Receive := ⟨1, .error (.made .wouldBlock "")⟩
    let lasting : Receive := ⟨1, .error (.made .notConnected "")⟩
    let receives : List Receive :=
      [⟨1, .ok long⟩, ⟨1, .ok short⟩, passing, lasting, passing, ⟨1, .ok short⟩]
    let run := receive config (some 25) receives
    (∀ receive ∈ receives, receive.Fits) ∧
      (∃ taken left, receptions config receives = taken ++ left ∧
        run.Takes config (some 25) taken left) ∧
      run.ingested.map Point.name = ["a", "b", "c"] ∧ run.delays.map Span.nanos = [5, 10, 12] ∧
      run.exit = some 25 := by
  intro config long short passing lasting receives run
  have hfits : ∀ receive ∈ receives, receive.Fits := by
    simp [receives, passing, lasting, long, short, Attempt.Fits, datagramCapacity]
  obtain ⟨taken, left, hreceptions, htakes⟩ := exists_takes_receive config (some 25) hfits
  refine ⟨hfits, ⟨taken, left, hreceptions, htakes⟩, ?_, ?_, htakes.exit⟩
  · decide +kernel
  · decide +kernel

end MetricIntake.Listener
