-- SUMMARY: Calls that wait for the last connection to end are all woken by it, and otherwise wait until their time is up.
import MetricIntake.Drain.Tracker

/-!
# No call is left waiting

A guard is dropped in two steps: the count goes down, and if that was the last guard the
calls are notified. A call takes its ticket in one step and looks at the count in
another. A `Scene` is a tracker with all that goes on around it, and `Scene.Step` is
anything that can happen next, in any order.

A call can be lost in one way only: it waits, no guard is left, and nobody is about to
notify it. No step leads there (`Scene.Sound.woken`). So when the count has come to zero,
each call is two steps of its own away from its answer (`DrainCall.stepsLeft`), and no
time passes before it has taken them.
-/

namespace MetricIntake

/-! ## Calls -/

namespace DrainCall

/-- The answer of a call, once it has returned. -/
def answer? : DrainCall → Option Bool
  | .returned drained => some drained
  | _ => none

/-- A call that has something to do: it has not returned, and does not wait for a
    notification. -/
def ready : DrainCall → Bool
  | .entered | .armed _ | .waiting true => true
  | .waiting false | .returned _ => false

/-- How many steps of its own a call still has to take if no connection is open. -/
def stepsLeft : DrainCall → Nat
  | .entered | .waiting _ => 2
  | .armed _ => 1
  | .returned _ => 0

variable {c : DrainCall} {active : Nat} {drained : Bool}

@[simp] theorem answer?_notify (c : DrainCall) : c.notify.answer? = c.answer? := by
  cases c <;> rfl

@[simp] theorem stepsLeft_notify (c : DrainCall) : c.notify.stepsLeft = c.stepsLeft := by
  cases c <;> rfl

theorem notify_ne_waiting (c : DrainCall) : c.notify ≠ .waiting false := by
  cases c <;> nofun

theorem expire_ne_waiting (c : DrainCall) : c.expire ≠ .waiting false := by
  cases c <;> nofun

theorem answer?_expire (h : c.answer? = none) : c.expire.answer? = some false := by
  cases c with
  | returned => cases h
  | _ => rfl

/-- A call returns in time only if it sees no open connection. -/
theorem answer?_step (hc : c.answer? = none) (h : (c.step active).answer? = some drained) :
    drained = true ∧ active = 0 := by
  cases c with
  | entered => cases h
  | armed notified =>
    rw [step] at h
    split at h
    · exact ⟨(Option.some.inj h).symm, ‹_›⟩
    · cases h
  | waiting notified => cases notified <;> cases h
  | returned => cases hc

/-- A call waits only for a connection that it has seen. -/
theorem eq_of_step_eq_waiting (h : c.step active = .waiting false) :
    c = .waiting false ∨ 0 < active := by
  cases c with
  | entered => cases h
  | armed notified =>
    rw [step] at h
    split at h
    · cases h
    · exact .inr (Nat.pos_of_ne_zero ‹_›)
  | waiting notified =>
    cases notified with
    | true => cases h
    | false => exact .inl rfl
  | returned => cases h

theorem stepsLeft_step (h : c.ready = true) : (c.step 0).stepsLeft + 1 = c.stepsLeft := by
  cases c with
  | entered | armed => rfl
  | waiting notified =>
    cases notified with
    | true => rfl
    | false => cases h
  | returned => cases h

theorem stepsLeft_pos (h : c.answer? = none) : 0 < c.stepsLeft := by
  cases c with
  | returned => cases h
  | _ => exact Nat.succ_pos _

theorem stepsLeft_le (c : DrainCall) : c.stepsLeft ≤ 2 := by
  cases c <;> simp [stepsLeft]

theorem eq_waiting_of_not_ready (hc : c.answer? = none) (h : ¬ c.ready = true) :
    c = .waiting false := by
  cases c with
  | entered | armed => exact absurd rfl h
  | waiting notified =>
    cases notified with
    | true => exact absurd rfl h
    | false => rfl
  | returned => cases hc

end DrainCall

namespace DrainTracker

/-! ## Drops -/

/-- A guard is taken from the count. -/
def countDown (t : DrainTracker) : DrainTracker := { t with active := t.active - 1 }

/-- Every call that holds a ticket is notified. -/
def notifyAll (t : DrainTracker) : DrainTracker := { t with calls := t.calls.map DrainCall.notify }

/-- The end of a connection is two steps, and the second only follows if it was the last. -/
theorem release_eq (t : DrainTracker) :
    t.release = if t.active = 1 then t.countDown.notifyAll else t.countDown := by
  rw [release]
  split <;> rfl

/-! ## Scenes -/

/-- A tracker in use. All clones of a tracker share its count and its calls. -/
structure Scene where
  now : Nat := 0
  tracker : DrainTracker := {}
  clones : Nat := 1
  /-- The guards that there are. -/
  guards : List Nat := []
  /-- How many drops have taken the count to zero and have not notified the calls yet. -/
  notifying : Nat := 0
  /-- When the time of each call is up. -/
  deadlines : List Nat := []

/-- What can happen next. -/
inductive Event where
  | cloned
  | opened (clone guard : Nat)
  | dropped (guard : Nat)
  | notified
  | entered (clone limit : Nat)
  | ran (call : Nat)
  | expired (call : Nat)
  | passed (time : Nat)
  deriving DecidableEq

/-- What an event does to a call that has been made, under a count of open connections. -/
def Event.effect (active call : Nat) : Event → DrainCall → DrainCall
  | .notified, c => c.notify
  | .ran i, c => if i = call then c.step active else c
  | .expired i, c => if i = call then c.expire else c
  | _, c => c

namespace Scene

/-- The answer of a call, once it has been made and has returned. -/
def answer? (s : Scene) (i : Nat) : Option Bool := s.tracker.calls[i]?.bind DrainCall.answer?

/-- A call has been made and has not returned. -/
def Waits (s : Scene) (i deadline : Nat) : Prop :=
  (∃ c, s.tracker.calls[i]? = some c ∧ c.answer? = none) ∧ s.deadlines[i]? = some deadline

/-- A call has something to do. -/
def CanRun (s : Scene) (i : Nat) : Prop :=
  ∃ c, s.tracker.calls[i]? = some c ∧ c.ready = true

/-- Nothing is to be done at this moment. -/
def Quiet (s : Scene) : Prop := s.notifying = 0 ∧ ∀ i, ¬ s.CanRun i

/-- One event. Guards and calls come from any clone. Time passes only when nothing is to
    be done, and never beyond the deadline of a call that has not returned. -/
inductive Step (s : Scene) : Event → Scene → Prop where
  | cloned : Step s .cloned { s with clones := s.clones + 1 }
  | opened {clone guard : Nat} (hclone : clone < s.clones) (hfresh : guard ∉ s.guards) :
    Step s (.opened clone guard)
      { s with tracker := s.tracker.acquire, guards := guard :: s.guards }
  | dropped {guard : Nat} (hguard : guard ∈ s.guards) :
    Step s (.dropped guard)
      { s with
        tracker := s.tracker.countDown
        guards := s.guards.erase guard
        notifying := if s.tracker.active = 1 then s.notifying + 1 else s.notifying }
  | notified (h : 0 < s.notifying) :
    Step s .notified { s with tracker := s.tracker.notifyAll, notifying := s.notifying - 1 }
  | entered {clone : Nat} (hclone : clone < s.clones) (limit : Nat) :
    Step s (.entered clone limit)
      { s with tracker := s.tracker.enter, deadlines := s.deadlines ++ [s.now + limit] }
  | ran {i : Nat} (h : s.CanRun i) : Step s (.ran i) { s with tracker := s.tracker.step i }
  | expired {i deadline : Nat} (hwaits : s.Waits i deadline) (hdue : deadline ≤ s.now) :
    Step s (.expired i) { s with tracker := s.tracker.expire i }
  | passed {time : Nat} (hquiet : s.Quiet)
    (hdue : ∀ i deadline, s.Waits i deadline → s.now + time ≤ deadline) :
    Step s (.passed time) { s with now := s.now + time }

/-- What happens from a scene on, latest first, when every event is one that is allowed. -/
inductive Run (allowed : Scene → Event → Prop) (s : Scene) : List Event → Scene → Prop where
  | start : Run allowed s [] s
  | next {events : List Event} {s' s'' : Scene} {e : Event} (hrun : Run allowed s events s')
    (hallowed : allowed s' e) (hstep : Step s' e s'') : Run allowed s (e :: events) s''

/-- A scene that a new tracker can come to. -/
def Reachable (s : Scene) : Prop := ∃ events, Run (fun _ _ => True) {} events s

variable {s s' : Scene} {e : Event} {i deadline : Nat} {c : DrainCall}

/-! ## What a step does to a call -/

theorem answer?_of_getElem? (h : s.tracker.calls[i]? = some c) : s.answer? i = c.answer? := by
  rw [answer?, h, Option.bind_some]

theorem Waits.answer? (h : s.Waits i deadline) : s.answer? i = none := by
  obtain ⟨⟨c, hc, hopen⟩, -⟩ := h
  rw [answer?_of_getElem? hc, hopen]

theorem Step.call (h : Step s e s') (hc : s.tracker.calls[i]? = some c) :
    s'.tracker.calls[i]? = some (e.effect s.tracker.active i c) := by
  cases h with
  | cloned | opened | dropped | passed => exact hc
  | notified => exact (List.getElem?_map ..).trans (congrArg (Option.map DrainCall.notify) hc)
  | entered => exact (List.getElem?_append_left (List.getElem?_eq_some_iff.1 hc).1).trans hc
  | ran | expired =>
    refine (List.getElem?_modify ..).trans ?_
    rw [hc]
    rfl

theorem Step.getElem?_deadlines (h : Step s e s') (hd : s.deadlines[i]? = some deadline) :
    s'.deadlines[i]? = some deadline := by
  cases h with
  | entered => exact (List.getElem?_append_left (List.getElem?_eq_some_iff.1 hd).1).trans hd
  | _ => exact hd

/-- A call that has not been made before enters in this step. -/
theorem Step.made (h : Step s e s') (hnone : s.tracker.calls[i]? = none)
    (hc : s'.tracker.calls[i]? = some c) :
    i = s.tracker.calls.length ∧ c = (if s.tracker.active = 0 then .returned true else .entered) ∧
      ∃ clone limit, e = .entered clone limit ∧ s'.now = s.now ∧
        s'.deadlines = s.deadlines ++ [s.now + limit] := by
  cases h with
  | cloned | opened | dropped | passed => cases hnone.symm.trans hc
  | notified =>
    replace hc := (List.getElem?_map ..).symm.trans hc
    rw [hnone] at hc
    cases hc
  | ran | expired =>
    replace hc := (List.getElem?_modify ..).symm.trans hc
    rw [hnone] at hc
    cases hc
  | @entered clone _ limit =>
    have hle : s.tracker.calls.length ≤ i := List.getElem?_eq_none_iff.1 hnone
    replace hc : (s.tracker.calls ++ [_])[i]? = some c := hc
    rw [List.getElem?_append_right hle, List.getElem?_singleton] at hc
    split at hc
    · exact ⟨Nat.le_antisymm (Nat.le_of_sub_eq_zero ‹_›) hle, (Option.some.inj hc).symm, clone, limit,
        rfl, rfl, rfl⟩
    · cases hc

/-- An answer is final. -/
theorem Event.answer?_effect {active call : Nat} {drained : Bool} (e : Event)
    (h : c.answer? = some drained) : (e.effect active call c).answer? = some drained := by
  cases c with
  | returned =>
    cases e with
    | notified => exact h
    | ran i | expired i =>
      rw [Event.effect]
      split <;> exact h
    | _ => exact h
  | _ => cases h

/-- A call waits only for a connection that it has seen, and for a notification that is
    still to come. -/
theorem Event.effect_eq_waiting {active call : Nat} (h : e.effect active call c = .waiting false) :
    e ≠ .notified ∧ (c = .waiting false ∨ 0 < active) := by
  cases e with
  | notified => exact absurd h c.notify_ne_waiting
  | ran i =>
    refine ⟨nofun, ?_⟩
    rw [Event.effect] at h
    split at h
    · exact DrainCall.eq_of_step_eq_waiting h
    · exact .inl h
  | expired i =>
    refine ⟨nofun, .inl ?_⟩
    rw [Event.effect] at h
    split at h
    · exact absurd h c.expire_ne_waiting
    · exact h
  | _ => exact ⟨nofun, .inl h⟩

theorem Step.answered {drained : Bool} (h : Step s e s') (ha : s.answer? i = some drained) :
    s'.answer? i = some drained := by
  obtain ⟨c, hc, hanswer⟩ := Option.bind_eq_some_iff.1 ha
  rw [answer?_of_getElem? (h.call hc), Event.answer?_effect e hanswer]

theorem Step.now_le (h : Step s e s') : s.now ≤ s'.now := by
  cases h with
  | passed => exact Nat.le_add_right ..
  | _ => exact Nat.le_refl _

/-! ## What every scene keeps -/

/-- What holds of a tracker in use: no call waits unseen, and none beyond its deadline. -/
structure Sound (s : Scene) : Prop where
  count : s.tracker.active = s.guards.length
  length : s.deadlines.length = s.tracker.calls.length
  woken : ∀ i : Nat, s.tracker.calls[i]? = some (DrainCall.waiting false) →
    0 < s.tracker.active ∨ 0 < s.notifying
  timely : ∀ i deadline, s.Waits i deadline → s.now ≤ deadline

theorem Sound.start : Sound {} where
  count := rfl
  length := rfl
  woken := nofun
  timely := nofun

/-- A call that has not returned after a step had not before, unless it is new. -/
theorem Step.waits (h : Step s e s') (hs : s.Sound) (hw : s'.Waits i deadline) :
    s.Waits i deadline ∨ s'.now ≤ deadline := by
  obtain ⟨⟨c', hc', hopen⟩, hd'⟩ := hw
  cases hc : s.tracker.calls[i]? with
  | some c =>
    obtain rfl := Option.some.inj ((h.call hc).symm.trans hc')
    refine .inl ⟨⟨c, hc, ?_⟩, ?_⟩
    · cases hanswer : c.answer? with
      | none => rfl
      | some drained => cases hopen.symm.trans (Event.answer?_effect e hanswer)
    · have hlt : i < s.deadlines.length := hs.length ▸ (List.getElem?_eq_some_iff.1 hc).1
      have hd := List.getElem?_eq_getElem hlt
      rw [hd, ← h.getElem?_deadlines hd, hd']
  | none =>
    obtain ⟨rfl, -, clone, limit, -, hnow, hdeadlines⟩ := h.made hc hc'
    rw [hdeadlines, ← hs.length, List.getElem?_concat_length] at hd'
    refine .inr ?_
    rw [hnow, ← Option.some.inj hd']
    exact Nat.le_add_right ..

theorem Step.count (h : Step s e s') (hs : s.Sound) : s'.tracker.active = s'.guards.length := by
  have hcount := hs.count
  cases h with
  | opened => exact congrArg (· + 1) hcount
  | dropped hguard => exact (congrArg (· - 1) hcount).trans (List.length_erase_of_mem hguard).symm
  | _ => exact hcount

theorem Step.length (h : Step s e s') (hs : s.Sound) :
    s'.deadlines.length = s'.tracker.calls.length := by
  have hlength := hs.length
  cases h with
  | notified => exact hlength.trans (List.length_map ..).symm
  | entered => simp only [DrainTracker.enter, List.length_append, hlength, List.length_singleton]
  | ran | expired => exact hlength.trans (List.length_modify ..).symm
  | _ => exact hlength

/-- A step that leaves a call waiting leaves somebody to wake it. -/
theorem Step.woken (h : Step s e s') (hs : s.Sound)
    (hw : s'.tracker.calls[i]? = some (DrainCall.waiting false)) :
    0 < s'.tracker.active ∨ 0 < s'.notifying := by
  cases hc : s.tracker.calls[i]? with
  | none =>
    obtain ⟨-, hnew, -⟩ := h.made hc hw
    split at hnew <;> cases hnew
  | some c =>
    obtain ⟨hnotified, hseen⟩ := Event.effect_eq_waiting (Option.some.inj ((h.call hc).symm.trans hw))
    have hbefore : 0 < s.tracker.active ∨ 0 < s.notifying := by
      rcases hseen with rfl | hpos
      · exact hs.woken i hc
      · exact .inl hpos
    cases h with
    | opened => exact .inl (Nat.succ_pos _)
    | dropped =>
      dsimp only [countDown]
      split <;> omega
    | notified => exact absurd rfl hnotified
    | _ => exact hbefore

theorem Sound.step (hs : s.Sound) (h : Step s e s') : s'.Sound where
  count := h.count hs
  length := h.length hs
  woken _ hw := h.woken hs hw
  timely i deadline hw := by
    rcases h.waits hs hw with hbefore | hdue
    · cases h with
      | passed _ hdue => exact hdue i deadline hbefore
      | _ => exact hs.timely i deadline hbefore
    · exact hdue

theorem Run.sound {allowed : Scene → Event → Prop} {events : List Event}
    (h : Run allowed s events s') (hs : s.Sound) : s'.Sound := by
  induction h with
  | start => exact hs
  | next _ _ hstep ih => exact ih.step hstep

theorem Reachable.sound (h : s.Reachable) : s.Sound := by
  obtain ⟨events, hrun⟩ := h
  exact hrun.sound .start

/-- A drop whose notification follows at once comes to what `release` makes of the tracker. -/
theorem exists_run_release {guard : Nat} (hguard : guard ∈ s.guards) :
    ∃ events, Run (fun _ _ => True) s events
      { s with tracker := s.tracker.release, guards := s.guards.erase guard } := by
  have hdropped : Run (fun _ _ => True) s [.dropped guard] _ := .next .start trivial (.dropped hguard)
  rw [release_eq]
  by_cases hlast : s.tracker.active = 1
  · rw [if_pos hlast] at hdropped ⊢
    exact ⟨_, hdropped.next trivial (.notified (Nat.succ_pos _))⟩
  · rw [if_neg hlast] at hdropped ⊢
    exact ⟨_, hdropped⟩

/-! ## Answers -/

/-- A call returns in time only by a step of its own, in which it sees no guard, and gives
    up only when its time is up. -/
theorem Step.answer {drained : Bool} (h : Step s e s') (hs : s.Sound) (hbefore : s.answer? i = none)
    (hafter : s'.answer? i = some drained) :
    drained = true ∧ s.tracker.active = 0 ∧
        (e = .ran i ∨ i = s.tracker.calls.length ∧ ∃ clone limit, e = .entered clone limit) ∨
      drained = false ∧ e = .expired i ∧ s.deadlines[i]? = some s.now := by
  obtain ⟨c', hc', hanswer⟩ := Option.bind_eq_some_iff.1 hafter
  cases hc : s.tracker.calls[i]? with
  | none =>
    obtain ⟨hi, hnew, clone, limit, hentered, -⟩ := h.made hc hc'
    split at hnew
    · obtain rfl := hnew
      exact .inl ⟨(Option.some.inj hanswer).symm, ‹_›, .inr ⟨hi, clone, limit, hentered⟩⟩
    · obtain rfl := hnew
      cases hanswer
  | some c =>
    obtain rfl := Option.some.inj ((h.call hc).symm.trans hc')
    rw [answer?_of_getElem? hc] at hbefore
    cases h with
    | cloned | opened | dropped | entered | passed => cases hbefore.symm.trans hanswer
    | notified => cases hbefore.symm.trans ((DrainCall.answer?_notify c).symm.trans hanswer)
    | @ran j =>
      rw [Event.effect] at hanswer
      split at hanswer
      · obtain ⟨hdrained, hzero⟩ := DrainCall.answer?_step hbefore hanswer
        exact .inl ⟨hdrained, hzero, .inl (congrArg _ ‹j = i›)⟩
      · cases hbefore.symm.trans hanswer
    | @expired j deadline hwaits hdue =>
      rw [Event.effect] at hanswer
      split at hanswer
      · obtain rfl := ‹j = i›
        rw [DrainCall.answer?_expire hbefore] at hanswer
        refine .inr ⟨(Option.some.inj hanswer).symm, rfl, ?_⟩
        rw [hwaits.2, Nat.le_antisymm hdue (hs.timely _ _ hwaits)]
      · cases hbefore.symm.trans hanswer

/-- A call returns at once if no guard is live, and else has its whole limit before it. -/
theorem Step.entered_answer {clone limit : Nat} (h : Step s (.entered clone limit) s')
    (hs : s.Sound) :
    if s.tracker.active = 0 then s'.answer? s.tracker.calls.length = some true
    else s'.Waits s.tracker.calls.length (s.now + limit) := by
  cases h with
  | entered =>
    have hcall : s.tracker.enter.calls[s.tracker.calls.length]? =
        some (if s.tracker.active = 0 then .returned true else .entered) :=
      List.getElem?_concat_length
    split
    · rw [if_pos ‹_›] at hcall
      exact congrArg (Option.bind · DrainCall.answer?) hcall
    · rw [if_neg ‹_›] at hcall
      refine ⟨⟨_, hcall, rfl⟩, ?_⟩
      rw [← hs.length]
      exact List.getElem?_concat_length

/-! ## When the last guard is dropped -/

/-- No guard is created. -/
def NoneOpens (_ : Scene) (e : Event) : Prop := ∀ clone guard, e ≠ .opened clone guard

theorem Step.active_eq_zero (h : Step s e s') (hallowed : NoneOpens s e)
    (hzero : s.tracker.active = 0) : s'.tracker.active = 0 := by
  cases h with
  | @opened clone guard => exact absurd rfl (hallowed clone guard)
  | dropped => exact congrArg (· - 1) hzero
  | _ => exact hzero

/-- Under no connection a call has one step less before it with each step that it takes. -/
theorem Event.stepsLeft_effect (hrun : e = .ran i → c.ready = true) (hexpired : e ≠ .expired i) :
    (if e = .ran i then 1 else 0) + (e.effect 0 i c).stepsLeft = c.stepsLeft := by
  cases e with
  | notified => exact (Nat.zero_add _).trans c.stepsLeft_notify
  | ran j =>
    by_cases hj : j = i
    · subst hj
      rw [if_pos rfl, Event.effect, if_pos rfl, Nat.add_comm]
      exact DrainCall.stepsLeft_step (hrun rfl)
    · rw [if_neg fun h => hj (Event.ran.inj h), Event.effect, if_neg hj, Nat.zero_add]
  | expired j =>
    have hj : j ≠ i := fun h => hexpired (congrArg _ h)
    rw [if_neg nofun, Event.effect, if_neg hj, Nat.zero_add]
  | _ => exact Nat.zero_add _

/-- A call that is bound to return in time has done so, or is at most two steps away from
    it, those counted that it has taken since some moment. -/
def Returning (s : Scene) (i moment deadline taken : Nat) : Prop :=
  s.answer? i = some true ∨
    s.now = moment ∧ s.deadlines[i]? = some deadline ∧
      ∃ c, s.tracker.calls[i]? = some c ∧ c.answer? = none ∧ taken + c.stepsLeft ≤ 2

variable {moment taken : Nat}

/-- No call waits unseen when no guard is live, so a call that has not returned can run or
    is about to be notified, and time does not pass. -/
theorem Sound.canRun (hs : s.Sound) (hzero : s.tracker.active = 0)
    (hc : s.tracker.calls[i]? = some c) (hopen : c.answer? = none) :
    s.CanRun i ∨ 0 < s.notifying := by
  by_cases hready : c.ready = true
  · exact .inl ⟨c, hc, hready⟩
  · obtain rfl := DrainCall.eq_waiting_of_not_ready hopen hready
    exact .inr ((hs.woken i hc).resolve_left (hzero ▸ Nat.lt_irrefl 0))

theorem Step.now_eq_of_waits (h : Step s e s') (hs : s.Sound) (hzero : s.tracker.active = 0)
    (hc : s.tracker.calls[i]? = some c) (hopen : c.answer? = none) : s'.now = s.now := by
  cases h with
  | passed hquiet =>
    rcases hs.canRun hzero hc hopen with hrun | hnotifying
    · exact absurd hrun (hquiet.2 i)
    · exact absurd hquiet.1 (Nat.ne_of_gt hnotifying)
  | _ => rfl

theorem Step.returning (h : Step s e s') (hs : s.Sound) (hzero : s.tracker.active = 0)
    (htime : moment < deadline) (hr : s.Returning i moment deadline taken) :
    s'.Returning i moment deadline (taken + if e = .ran i then 1 else 0) := by
  obtain hanswered | ⟨hnow, hdeadline, c, hc, hopen, htaken⟩ := hr
  · exact .inl (h.answered hanswered)
  · have hbefore : s.answer? i = none := (answer?_of_getElem? hc).trans hopen
    have hafter := h.call hc
    rw [hzero] at hafter
    cases hanswer : (e.effect 0 i c).answer? with
    | some drained =>
      rw [← answer?_of_getElem? hafter] at hanswer
      rcases h.answer hs hbefore hanswer with ⟨rfl, -⟩ | ⟨-, -, hdue⟩
      · exact .inl hanswer
      · rw [hdeadline, hnow] at hdue
        exact absurd (Option.some.inj hdue) (Nat.ne_of_gt htime)
    | none =>
      have hrun : e = .ran i → c.ready = true := by
        rintro rfl
        cases h with
        | ran hrun =>
          obtain ⟨c', hc', hready⟩ := hrun
          exact Option.some.inj (hc'.symm.trans hc) ▸ hready
      have hexpired : e ≠ .expired i := by
        rintro rfl
        rw [Event.effect, if_pos rfl, DrainCall.answer?_expire hopen] at hanswer
        cases hanswer
      refine .inr ⟨(h.now_eq_of_waits hs hzero hc hopen).trans hnow,
        h.getElem?_deadlines hdeadline, _, hafter, hanswer, ?_⟩
      rw [Nat.add_assoc, Event.stepsLeft_effect hrun hexpired]
      exact htaken

theorem Run.returning {events : List Event} (h : Run NoneOpens s events s') (hs : s.Sound)
    (hzero : s.tracker.active = 0) (htime : s.now < deadline) (hw : s.Waits i deadline) :
    s'.tracker.active = 0 ∧ s'.Returning i s.now deadline (events.count (.ran i)) := by
  induction h with
  | start =>
    obtain ⟨⟨c, hc, hopen⟩, hdeadline⟩ := hw
    refine ⟨hzero, .inr ⟨rfl, hdeadline, c, hc, hopen, ?_⟩⟩
    rw [List.count_nil, Nat.zero_add]
    exact c.stepsLeft_le
  | @next events s' s'' e hrun hallowed hstep ih =>
    obtain ⟨hzero', hreturning⟩ := ih
    refine ⟨hstep.active_eq_zero hallowed hzero', ?_⟩
    have hcount : (e :: events).count (.ran i) =
        events.count (.ran i) + if e = .ran i then 1 else 0 := by
      rw [List.count_cons]
      simp only [beq_iff_eq]
    rw [hcount]
    exact hstep.returning (hrun.sound hs) hzero' htime hreturning

/-- After the last guard is dropped no time passes until each call that waits has returned,
    which takes it no more than two steps. -/
theorem Run.answer_of_active_eq_zero {events : List Event} (h : Run NoneOpens s events s')
    (hs : s.Sound) (hzero : s.tracker.active = 0) (htime : s.now < deadline)
    (hw : s.Waits i deadline) :
    s'.answer? i = some true ∨
      events.count (.ran i) < 2 ∧ s'.Waits i deadline ∧ s'.now = s.now ∧
        (s'.CanRun i ∨ 0 < s'.notifying) := by
  obtain ⟨hzero', hanswer | ⟨hnow, hdeadline, c, hc, hopen, htaken⟩⟩ :=
    h.returning hs hzero htime hw
  · exact .inl hanswer
  · have hleft := DrainCall.stepsLeft_pos hopen
    exact .inr ⟨by omega, ⟨⟨c, hc, hopen⟩, hdeadline⟩, hnow,
      (h.sound hs).canRun hzero' hc hopen⟩

/-! ## When guards stay -/

/-- A call takes steps only while some guard is live. -/
def LooksAtGuards (i : Nat) (s : Scene) (e : Event) : Prop := e = .ran i → 0 < s.tracker.active

theorem Step.waits_of_looksAtGuards (h : Step s e s') (hs : s.Sound) (hallowed : LooksAtGuards i s e)
    (hw : s.Waits i deadline) :
    s'.Waits i deadline ∨ s'.answer? i = some false ∧ deadline ≤ s'.now := by
  have hbefore := hw.answer?
  obtain ⟨⟨c, hc, hopen⟩, hdeadline⟩ := hw
  have hafter := h.call hc
  cases hanswer : (e.effect s.tracker.active i c).answer? with
  | none => exact .inl ⟨⟨_, hafter, hanswer⟩, h.getElem?_deadlines hdeadline⟩
  | some drained =>
    rw [← answer?_of_getElem? hafter] at hanswer
    rcases h.answer hs hbefore hanswer with ⟨-, hzero, hown | ⟨hnew, -⟩⟩ | ⟨rfl, rfl, hdue⟩
    · exact absurd hzero (Nat.ne_of_gt (hallowed hown))
    · exact absurd hnew (Nat.ne_of_lt (List.getElem?_eq_some_iff.1 hc).1)
    · refine .inr ⟨hanswer, ?_⟩
      cases h with
      | expired => exact Nat.le_of_eq (Option.some.inj (hdeadline.symm.trans hdue))

theorem Run.waits_of_looksAtGuards {events : List Event} (h : Run (LooksAtGuards i) s events s')
    (hs : s.Sound) (hw : s.Waits i deadline) :
    s'.Waits i deadline ∨ s'.answer? i = some false ∧ deadline ≤ s'.now := by
  induction h with
  | start => exact .inl hw
  | next hrun hallowed hstep ih =>
    obtain hwaits | ⟨hanswer, hdue⟩ := ih
    · exact hstep.waits_of_looksAtGuards (hrun.sound hs) hallowed hwaits
    · exact .inr ⟨hstep.answered hanswer, Nat.le_trans hdue hstep.now_le⟩

/-- When nothing is to be done the time of a call is up, or time passes. -/
theorem Quiet.goes_on (hquiet : s.Quiet) (hs : s.Sound) :
    (∃ i s', Step s (.expired i) s' ∧ s'.answer? i = some false) ∨ ∃ s', Step s (.passed 1) s' := by
  by_cases hdue : ∃ i, s.Waits i s.now
  · obtain ⟨i, hw⟩ := hdue
    obtain ⟨⟨c, hc, hopen⟩, -⟩ := id hw
    have hstep : Step s (.expired i) _ := .expired hw (Nat.le_refl _)
    refine .inl ⟨i, _, hstep, (answer?_of_getElem? (hstep.call hc)).trans ?_⟩
    rw [Event.effect, if_pos rfl]
    exact DrainCall.answer?_expire hopen
  · refine .inr ⟨_, .passed hquiet fun i deadline hw => ?_⟩
    have hne : s.now ≠ deadline := by
      rintro rfl
      exact hdue ⟨i, hw⟩
    exact Nat.lt_of_le_of_ne (hs.timely i deadline hw) hne

/-! ## Draining -/

/-- What a tracker in use owes to its guards and to its calls. -/
structure Lawful (s : Scene) : Prop where
  count : s.tracker.active = s.guards.length
  /-- A drop finds at least its own guard in the count. -/
  dropped : ∀ guard s', Step s (.dropped guard) s' → s'.tracker.active + 1 = s.tracker.active
  /-- A call returns at once if no guard is live. -/
  entered : ∀ clone limit s', Step s (.entered clone limit) s' →
    if s.tracker.active = 0 then s'.answer? s.tracker.calls.length = some true
    else s'.Waits s.tracker.calls.length (s.now + limit)
  /-- A call returns in time only when no guard is live, and gives up only when its time is
      up. -/
  answered : ∀ e s' i drained, Step s e s' → s.answer? i = none → s'.answer? i = some drained →
    if drained then s.tracker.active = 0 else e = .expired i ∧ s.deadlines[i]? = some s.now
  /-- When the last guard has been dropped, and until one is created, a call that has not
      returned can run or is about to be notified. Two steps of it are enough, and no time
      passes before them. -/
  woken : ∀ i deadline, s.Waits i deadline → s.tracker.active = 0 → s.now < deadline →
    ∀ events s', Run NoneOpens s events s' →
      s'.answer? i = some true ∨
        events.count (.ran i) < 2 ∧ s'.Waits i deadline ∧ s'.now = s.now ∧
          (s'.CanRun i ∨ 0 < s'.notifying)
  /-- A call that sees a guard whenever it looks goes on waiting until its time is up. -/
  kept : ∀ i deadline, s.Waits i deadline → ∀ events s', Run (LooksAtGuards i) s events s' →
    s'.Waits i deadline ∧ s'.now ≤ deadline ∨ s'.answer? i = some false ∧ deadline ≤ s'.now
  /-- When nothing is to be done the time of a call is up, or time passes. -/
  goes_on : s.Quiet →
    (∃ i s', Step s (.expired i) s' ∧ s'.answer? i = some false) ∨ ∃ s', Step s (.passed 1) s'

theorem Step.dropped_count {guard : Nat} (h : Step s (.dropped guard) s') (hs : s.Sound) :
    s'.tracker.active + 1 = s.tracker.active := by
  cases h with
  | dropped hguard =>
    have hpos : 0 < s.guards.length := List.length_pos_of_mem hguard
    exact Nat.sub_add_cancel (hs.count ▸ hpos)

/-- Whatever is done to a new tracker and to its clones, in any order, the count is right
    and no call is left waiting. -/
theorem Reachable.drain_answers (h : s.Reachable) : s.Lawful where
  count := h.sound.count
  dropped _ _ hstep := hstep.dropped_count h.sound
  entered _ _ _ hstep := hstep.entered_answer h.sound
  answered e s' i drained hstep hbefore hafter := by
    rcases hstep.answer h.sound hbefore hafter with ⟨rfl, hzero, -⟩ | ⟨rfl, hexpired⟩
    · exact hzero
    · exact hexpired
  woken _ _ hw hzero htime _ _ hrun := hrun.answer_of_active_eq_zero h.sound hzero htime hw
  kept i deadline hw events s' hrun := by
    rcases hrun.waits_of_looksAtGuards h.sound hw with hwaits | hexpired
    · exact .inl ⟨hwaits, (hrun.sound h.sound).timely i deadline hwaits⟩
    · exact .inr hexpired
  goes_on hquiet := hquiet.goes_on h.sound

/-- The only guard is dropped after a call has looked at the count and before it waits,
    and the call returns. -/
theorem drain_answers_of_late_drop :
    let s : Scene := {
      tracker := ⟨0, [.waiting false]⟩, clones := 2, notifying := 1, deadlines := [5] }
    let s' : Scene := { s with tracker := ⟨0, [.returned true]⟩, notifying := 0 }
    s.Reachable ∧ s.Lawful ∧ s.Waits 0 5 ∧
      Run NoneOpens s [.ran 0, .ran 0, .notified] s' ∧ s'.answer? 0 = some true := by
  intro s s'
  have hreachable : s.Reachable := by
    have hlooked : Run (fun _ _ => True) {} [.ran 0, .ran 0, .entered 0 5, .opened 1 7, .cloned]
        { tracker := ⟨1, [.waiting false]⟩, clones := 2, guards := [7], deadlines := [5] } :=
      .next (.next (.next (.next (.next .start trivial .cloned)
        trivial (.opened (by decide) (by decide)))
        trivial (.entered (by decide) 5))
        trivial (.ran ⟨_, rfl, rfl⟩))
        trivial (.ran ⟨_, rfl, rfl⟩)
    exact ⟨.dropped 7 :: _, hlooked.next trivial (.dropped (by decide))⟩
  have hwaits : s.Waits 0 5 := ⟨⟨_, rfl, rfl⟩, rfl⟩
  have hrun : Run NoneOpens s [.ran 0, .ran 0, .notified] s' :=
    .next (.next (.next .start nofun (.notified (by decide)))
      nofun (.ran ⟨_, rfl, rfl⟩))
      nofun (.ran ⟨_, rfl, rfl⟩)
  have hlawful : s.Lawful := hreachable.drain_answers
  refine ⟨hreachable, hlawful, hwaits, hrun, ?_⟩
  rcases hlawful.woken 0 5 hwaits rfl (by decide) _ _ hrun with hanswer | ⟨hsteps, -⟩
  · exact hanswer
  · exact absurd hsteps (by decide)

end Scene
end DrainTracker
end MetricIntake
