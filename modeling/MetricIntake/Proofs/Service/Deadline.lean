-- SUMMARY: The deadline of a drain: one for all that is waited for, and none if the timeout leads beyond the clock, as the longest timeouts do that an option may ask for.
import MetricIntake.Options.Reading
import MetricIntake.Proofs.Service.Drain

/-!
# The deadline of a drain

A drain waits for one loop after the other and then for the connections, every time for
what is left of one timeout. It ends as a single wait for all of them would.

A timeout is asked for in seconds of 64 bits, and the clock has half as many. If the timeout
leads beyond them there is no deadline, and the drain does not begin.
-/

namespace MetricIntake

/-! ## One deadline -/

namespace Activity

variable {meanwhile : List Timed}

/-- Within the clock a drain ends no later than its timeout after it began. It ends clean
    exactly if there is a moment by then, the last one included, at which every loop that is
    waited for has exited and no connection is open, and then at the first such moment;
    otherwise it ends when its time is up. -/
theorem drain_under_one_deadline (a : Activity) {now : Nat} {timeout : Span}
    (hclock : now + timeout.nanos < clockLimit)
    (hordered : meanwhile.Pairwise fun t t' => t.1 ≤ t'.1) :
    let deadline := now + timeout.nanos
    ∃ clean moment, (a.drain now timeout meanwhile).1 = .returned clean moment ∧
      moment ≤ deadline ∧
      (clean = true ↔ ∃ m ≤ deadline, a.Over now meanwhile m) ∧
      (clean = true → a.Over now meanwhile moment ∧
        ∀ m, a.Over now meanwhile m → moment ≤ m) ∧
      (clean = false → moment = deadline) := by
  intro deadline
  obtain ⟨clean, moment, hdrain, hawaits⟩ := a.exists_awaits_drain hordered hclock
  refine ⟨clean, moment, congrArg Prod.fst hdrain, hawaits.le_deadline, ?_⟩
  cases hawaits with
  | clean hover hleast hle =>
    exact ⟨iff_of_true rfl ⟨moment, hle, hover⟩, fun _ => ⟨hover, hleast⟩, nofun⟩
  | late hlate =>
    refine ⟨iff_of_false Bool.false_ne_true ?_, nofun, fun _ => rfl⟩
    rintro ⟨m, hle, hover⟩
    exact absurd hle (Nat.not_le.2 (hlate m hover))

/-- Two loops exit one after the other while a handler runs, which returns last. Three
    nanoseconds less, and the handler is still running when the time is up. -/
theorem drain_under_one_deadline_handler :
    let k : Kernel := { table := ⟨[(3, ⟨⟨40, .listener ⟨.loopback, 2003⟩⟩, true⟩),
      (4, ⟨⟨41, .listener ⟨.loopback, 2004⟩⟩, true⟩)]⟩ }
    let deeds : List Deed := [.resume ⟨[("gt", 3), ("gp", 4)]⟩,
      .happen (.dispatched .graphiteText 0), .happen (.started 0), .shutdown]
    let meanwhile : List Timed := [(7, .loopExited .graphitePickle 0),
      (9, .loopExited .graphiteText 0), (12, .returned 0)]
    let a := (create .loopback {} k).performAll deeds
    (a.drain 5 (.ofNanos 8) meanwhile).1 = .returned true 12 ∧ a.Over 5 meanwhile 12 ∧
      (∀ m, a.Over 5 meanwhile m → 12 ≤ m) ∧
      (a.drain 5 (.ofNanos 5) meanwhile).1 = .returned false 10 := by
  intro k deeds meanwhile a
  have hclock : 5 + (Span.ofNanos 8).nanos < clockLimit := by decide
  have hordered : meanwhile.Pairwise fun t t' => t.1 ≤ t'.1 := by decide
  have hreturned : (a.drain 5 (.ofNanos 8) meanwhile).1 = .returned true 12 := by decide +kernel
  obtain ⟨clean, moment, hdrain, -, -, hfirst, -⟩ :=
    drain_under_one_deadline a hclock hordered
  obtain ⟨rfl, rfl⟩ := Waited.returned.inj (hdrain.symm.trans hreturned)
  exact ⟨hreturned, (hfirst rfl).1, (hfirst rfl).2, by decide +kernel⟩

end Activity

/-! ## Timeouts beyond the clock -/

/-- A wait has come to an answer. -/
def Waited.Answers (w : Waited) : Prop := ∃ clean moment, w = .returned clean moment

theorem Drain.answers_awaitAll_iff {now : Nat} {timeout : Span} {ends : List (Option Nat)}
    {t : DrainTracker} {s : Schedule} :
    (awaitAll now timeout ends t s).Answers ↔ now + timeout.nanos < clockLimit := by
  rcases Nat.lt_or_ge (now + timeout.nanos) clockLimit with hclock | hbeyond
  · obtain ⟨clean, moment, hwait, -⟩ := exists_awaits_awaitAll hclock ends t s
    exact iff_of_true ⟨clean, moment, hwait⟩ hclock
  · rw [awaitAll_of_beyond hbeyond]
    exact iff_of_false nofun (Nat.not_lt.2 hbeyond)

namespace Options

/-- A timeout has all the seconds that are asked for. -/
theorem nanos_drainTimeout (o : Options) :
    o.drainTimeout.nanos = o.drainSeconds.toNat * nanosPerSecond := by
  have hseconds : o.drainSeconds.toNat * nanosPerSecond < UInt64.size * nanosPerSecond :=
    Nat.mul_lt_mul_of_pos_right o.drainSeconds.toNat_lt (by decide)
  rw [drainTimeout, Span.ofSeconds, Span.nanos_ofNanos]
  exact min_eq_left (Nat.le_sub_one_of_lt hseconds)

/-- Whatever number of seconds is asked for, and whatever there is to wait for, a drain comes
    to an answer exactly if the clock has the moment that many seconds later. -/
theorem drain_answers_iff (o : Options) (now : Nat) :
    let deadline := now + o.drainSeconds.toNat * nanosPerSecond
    (∀ (a : Activity) (meanwhile : List Activity.Timed),
      (a.drain now o.drainTimeout meanwhile).1.Answers ↔ deadline < clockLimit) ∧
    ∀ (m : Manager) (k : Kernel),
      (m.drain now o.drainTimeout k).1.Answers ↔ deadline < clockLimit := by
  intro deadline
  have hdeadline : now + o.drainTimeout.nanos = deadline := by rw [nanos_drainTimeout]
  refine ⟨fun a meanwhile => ?_, fun m k => ?_⟩
  · have hwaited : (a.drain now o.drainTimeout meanwhile).1 =
        Drain.awaitAll now o.drainTimeout (a.loopEnds now meanwhile) a.manager.tracker
          (Activity.connectionChanges meanwhile a) := by
      rw [Activity.drain]
      split <;> rfl
    rw [hwaited, Drain.answers_awaitAll_iff, hdeadline]
  · rw [Manager.drain, Drain.answers_awaitAll_iff, hdeadline]

/-- The largest number of seconds is accepted, and a drain with that timeout does not begin. -/
theorem drain_of_longest_timeout :
    ∃ o, Options.read ["--drain-timeout-secs", "18446744073709551615"] (fun _ => none) = .ok o ∧
      ((Manager.create o.listen o.settings).drain 0 o.drainTimeout {}).1 = .noDeadline := by
  refine ⟨{ drainSeconds := 18446744073709551615 }, ?_, ?_⟩
  · decide +kernel
  · decide +kernel

end Options
end MetricIntake
