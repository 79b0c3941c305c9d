-- SUMMARY: Waits under a deadline: when they end and how, two of them in a row as one, and the wait for connections as a wait for their count to be zero.
import MetricIntake.Drain.Schedule

/-!
# Waits under a deadline

A wait ends clean at the first moment at which what it is for holds, and at the deadline if
there is no such moment until then. Two waits in a row that share their deadline are one
wait for both (`Awaits.seq`): no time is added, and what holds already is not waited for.

The wait for connections goes step by step and looks at the count only when it is woken.
That loses no moment: a call that waits while no connection is open has been notified
(`IsAlert`), and it looks as soon as all that happens at one moment has happened.
-/

namespace MetricIntake

/-! ## Waits -/

namespace Drain

/-- How a wait until `P` holds ends: clean at the first moment at which it does, or at the
    deadline if it does only later or never. -/
inductive Awaits (P : Nat → Prop) (deadline : Nat) : Bool → Nat → Prop
  | clean {moment : Nat} : P moment → (∀ m, P m → moment ≤ m) → moment ≤ deadline →
    Awaits P deadline true moment
  | late : (∀ m, P m → deadline < m) → Awaits P deadline false deadline

variable {P Q : Nat → Prop} {deadline moment moment' : Nat} {clean clean' : Bool}

theorem Awaits.le_deadline (h : Awaits P deadline clean moment) : moment ≤ deadline := by
  cases h with
  | clean _ _ hle => exact hle
  | late => exact Nat.le_refl deadline

theorem Awaits.holds (h : Awaits P deadline true moment) : P moment := by
  cases h with
  | clean hover => exact hover

theorem Awaits.congr (h : Awaits P deadline clean moment) (hsame : ∀ m, P m ↔ Q m) :
    Awaits Q deadline clean moment := by
  obtain rfl : P = Q := funext fun m => propext (hsame m)
  exact h

/-- Two waits under one deadline, the second of which begins when the first one ends, are
    one wait for both, if what the first one is for goes on to hold. -/
theorem Awaits.seq (hfirst : Awaits P deadline clean moment)
    (hstays : ∀ m m', P m → m ≤ m' → P m')
    (hsecond : Awaits (fun m => moment ≤ m ∧ Q m) deadline clean' moment') :
    Awaits (fun m => P m ∧ Q m) deadline (clean && clean') moment' := by
  cases hfirst with
  | clean hover hleast _ =>
    cases hsecond with
    | clean hover' hleast' hle' =>
      exact .clean ⟨hstays moment moment' hover hover'.1, hover'.2⟩
        (fun m hm => hleast' m ⟨hleast m hm.1, hm.2⟩) hle'
    | late hlate => exact .late fun m hm => hlate m ⟨hleast m hm.1, hm.2⟩
  | late hlate =>
    -- nothing is left of the time, so the second wait ends where it begins
    have hends : moment' = deadline := by
      cases hsecond with
      | clean hover' _ hle' => exact Nat.le_antisymm hle' hover'.1
      | late => rfl
    rw [hends]
    exact .late fun m hm => hlate m hm.1

end Drain

/-! ## Calls that wait -/

namespace DrainTracker

variable {t : DrainTracker} {i : Nat}

/-- The `i`-th call has returned in time. -/
def IsDone (t : DrainTracker) (i : Nat) : Prop := t.calls[i]? = some (.returned true)

/-- The `i`-th call waits, and if no connection is open it has been notified. -/
def IsAlert (t : DrainTracker) (i : Nat) : Prop :=
  ∃ notified, t.calls[i]? = some (.waiting notified) ∧ (notified = true ∨ t.active ≠ 0)

theorem IsAlert.not_isDone (h : t.IsAlert i) : ¬ t.IsDone i := by
  obtain ⟨notified, hcall, -⟩ := h
  rw [IsDone, hcall]
  nofun

theorem IsAlert.acquire (h : t.IsAlert i) : t.acquire.IsAlert i := by
  obtain ⟨notified, hcall, -⟩ := h
  exact ⟨notified, hcall, .inr t.active.succ_ne_zero⟩

theorem IsAlert.release (h : t.IsAlert i) : t.release.IsAlert i := by
  obtain ⟨notified, hcall, hnotified⟩ := h
  by_cases hlast : t.active = 1
  · refine ⟨true, ?_, .inl rfl⟩
    rw [DrainTracker.release, if_pos hlast, List.getElem?_map, hcall]
    rfl
  · refine ⟨notified, ?_, hnotified.imp id fun hopen => ?_⟩
    · rw [DrainTracker.release, if_neg hlast, hcall]
    · rw [active_release]
      omega

theorem getElem?_poll (t : DrainTracker) (i : Nat) :
    (t.poll i).calls[i]? =
      (t.calls[i]?).map fun c => ((c.step t.active).step t.active).step t.active := by
  simp only [poll, step, List.getElem?_modify_eq, Option.map_eq_map, Option.map_map]
  rfl

/-- A call that is woken returns if no connection is open, and waits again otherwise. -/
theorem IsAlert.poll (h : t.IsAlert i) :
    t.active = 0 ∧ (t.poll i).IsDone i ∨ t.active ≠ 0 ∧ (t.poll i).IsAlert i := by
  obtain ⟨notified, hcall, hnotified⟩ := h
  have hpolled := t.getElem?_poll i
  rw [hcall, Option.map_some] at hpolled
  by_cases hzero : t.active = 0
  · obtain rfl := hnotified.resolve_right (not_not_intro hzero)
    exact .inl ⟨hzero, by simp [IsDone, hpolled, DrainCall.step, hzero]⟩
  · refine .inr ⟨hzero, false, ?_, .inr hzero⟩
    cases notified <;> simp [hpolled, DrainCall.step, hzero]

/-- A call that enters returns if no connection is open, and waits otherwise. -/
theorem poll_enter (t : DrainTracker) :
    t.active = 0 ∧ (t.enter.poll t.calls.length).IsDone t.calls.length ∨
      t.active ≠ 0 ∧ (t.enter.poll t.calls.length).IsAlert t.calls.length := by
  have hcall : t.enter.calls[t.calls.length]? =
      some (if t.active = 0 then .returned true else .entered) := List.getElem?_concat_length
  have hpolled := t.enter.getElem?_poll t.calls.length
  rw [hcall, Option.map_some, active_enter] at hpolled
  by_cases hzero : t.active = 0
  · exact .inl ⟨hzero, by simp [IsDone, hpolled, DrainCall.step, hzero]⟩
  · exact .inr ⟨hzero, false, by simp [hpolled, DrainCall.step, hzero], .inr hzero⟩

theorem active_poll (t : DrainTracker) (i : Nat) : (t.poll i).active = t.active := rfl

end DrainTracker

/-! ## Schedules -/

namespace Drain

variable {t t' : DrainTracker} {s : Schedule} {i start deadline : Nat}

theorem applyAll_cons (t : DrainTracker) (c : Scheduled) (s : Schedule) :
    applyAll t (c :: s) = applyAll (c.change.apply t) s := rfl

theorem applyAll_append (t : DrainTracker) (s s' : Schedule) :
    applyAll t (s ++ s') = applyAll (applyAll t s) s' :=
  List.foldl_append

/-- What connections come to does not depend on the calls. -/
theorem active_applyAll_congr (h : t'.active = t.active) (s : Schedule) :
    (applyAll t' s).active = (applyAll t s).active := by
  induction s generalizing t t' with
  | nil => exact h
  | cons c s ih =>
    have hchange : (c.change.apply t').active = (c.change.apply t).active := by
      cases c.change with
      | opened => exact congrArg (· + 1) h
      | closed => exact congrArg (· - 1) h
    exact ih hchange

/-- What happens up to a moment happens up to an earlier one, or after it. -/
theorem Schedule.upTo_of_le {moment later : Nat} (h : moment ≤ later) (s : Schedule) :
    (s.upTo later).1 = (s.upTo moment).1 ++ ((s.upTo moment).2.upTo later).1 := by
  induction s with
  | nil => rfl
  | cons c s ih =>
    unfold upTo at ih ⊢
    by_cases hc : c.moment ≤ moment
    · have hc' : c.moment ≤ later := Nat.le_trans hc h
      simp only [List.takeWhile_cons, List.dropWhile_cons, hc, hc', decide_true, if_true,
        List.cons_append]
      exact congrArg (c :: ·) ih
    · simp only [List.takeWhile_cons, List.dropWhile_cons, hc, decide_false, if_false,
        List.nil_append, Bool.false_eq_true]

theorem Schedule.upTo_cons {c : Scheduled} {moment : Nat} (h : c.moment ≤ moment) (s : Schedule) :
    upTo (c :: s) moment = (c :: (s.upTo moment).1, (s.upTo moment).2) := by
  simp only [upTo, List.takeWhile_cons, List.dropWhile_cons, decide_eq_true h, if_true]

theorem Schedule.upTo_eq_nil {moment : Nat} (h : ∀ c, s.head? = some c → moment < c.moment) :
    (s.upTo moment).1 = [] := by
  cases s with
  | nil => rfl
  | cons c s =>
    have hlt : ¬ c.moment ≤ moment := Nat.not_le.2 (h c rfl)
    rw [upTo, List.takeWhile_cons_of_neg (by simpa using hlt)]

/-- What happens after a moment begins after it. -/
theorem Schedule.lt_of_head?_upTo {moment : Nat} {c : Scheduled}
    (h : (s.upTo moment).2.head? = some c) : moment < c.moment := by
  have hhead := List.head?_dropWhile_not (fun c : Scheduled => decide (c.moment ≤ moment)) s
  rw [upTo] at h
  rw [h] at hhead
  simpa using hhead

theorem applyAll_upTo_of_lt {m : Nat} (h : ∀ c, s.head? = some c → m < c.moment) :
    applyAll t (s.upTo m).1 = t := by
  rw [Schedule.upTo_eq_nil h]
  rfl

/-! ## Waits for connections -/

/-- No change leaves a call waiting for a connection that is not open. -/
theorem isAlert_applyAll (h : t.IsAlert i) (s : Schedule) : (applyAll t s).IsAlert i := by
  induction s generalizing t with
  | nil => exact h
  | cons c s ih =>
    have hchange : (c.change.apply t).IsAlert i := by
      cases c.change with
      | opened => exact h.acquire
      | closed => exact h.release
    exact ih hchange

/-- A call that waits for connections waits for their count to be zero. -/
theorem continueCall_awaits (hcall : t.IsAlert i) (hopen : t.active ≠ 0) (deadline : Nat)
    (s : Schedule) :
    Awaits (fun m => (applyAll t (s.upTo m).1).active = 0) deadline
      (continueCall deadline i t s).drained (continueCall deadline i t s).moment := by
  fun_induction continueCall deadline i t s with
  | case1 t => exact .late fun m hzero => absurd hzero hopen
  | case2 t c rest hlate =>
    refine .late fun m hzero => Nat.lt_of_not_le fun hle => hopen ?_
    have hlt : m < c.moment := Nat.lt_of_le_of_lt hle hlate
    rwa [applyAll_upTo_of_lt (by simpa using hlt)] at hzero
  | case3 t c rest hlate split t' hdone =>
    obtain ⟨hzero, -⟩ | ⟨-, hcall'⟩ := (isAlert_applyAll hcall (c :: split.1)).poll
    · refine .clean ?_ (fun m hm => Nat.le_of_not_lt fun hlt => hopen ?_) (Nat.le_of_not_lt hlate)
      · rwa [Schedule.upTo_cons (Nat.le_refl c.moment)]
      · rwa [applyAll_upTo_of_lt (by simpa using hlt)] at hm
    · exact absurd hdone hcall'.not_isDone
  | case4 t c rest hlate split t' hdone ih =>
    obtain ⟨-, hdone'⟩ | ⟨hopen', hcall'⟩ := (isAlert_applyAll hcall (c :: split.1)).poll
    · exact absurd hdone' hdone
    · refine (ih hcall' hopen').congr fun m => ?_
      rcases Nat.lt_or_ge m c.moment with hlt | hge
      · rw [applyAll_upTo_of_lt (s := c :: rest) (by simpa using hlt),
          applyAll_upTo_of_lt fun c' hc' => Nat.lt_trans hlt (Schedule.lt_of_head?_upTo hc')]
        exact iff_of_false hopen' hopen
      · rw [Schedule.upTo_of_le hge (c :: rest), Schedule.upTo_cons (Nat.le_refl c.moment),
          applyAll_append, active_applyAll_congr (DrainTracker.active_poll _ i)]

/-- So does a wait as a whole, from its start on. -/
theorem drain_awaits (hahead : ∀ c, s.head? = some c → start < c.moment) (limit : Nat) :
    Awaits (fun m => start ≤ m ∧ (applyAll t (s.upTo m).1).active = 0) (start + limit)
      (drain t start limit s).drained (drain t start limit s).moment := by
  rw [drain]
  obtain ⟨hzero, hdone⟩ | ⟨hopen, hcall⟩ := t.poll_enter
  · rw [DrainTracker.IsDone] at hdone
    rw [if_pos hdone]
    refine .clean ⟨Nat.le_refl start, ?_⟩ (fun m hm => hm.1) (Nat.le_add_right start limit)
    rwa [applyAll_upTo_of_lt hahead]
  · have hgoes := hcall.not_isDone
    rw [DrainTracker.IsDone] at hgoes
    rw [if_neg hgoes]
    refine (continueCall_awaits hcall hopen _ s).congr fun m => ?_
    have hactive : (t.enter.poll t.calls.length).active = t.active := rfl
    rw [active_applyAll_congr hactive]
    refine ⟨fun hzero => ⟨Nat.le_of_not_lt fun hlt => hopen ?_, hzero⟩, fun h => h.2⟩
    rwa [applyAll_upTo_of_lt fun c hc => Nat.lt_trans hlt (hahead c hc)] at hzero

end Drain
end MetricIntake
