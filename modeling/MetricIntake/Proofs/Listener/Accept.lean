-- SUMMARY: An accept loop against its script: which attempts it consumes, what it dispatches, how long it backs off, and why and when it ends.
import MetricIntake.Listener.Accept
import MetricIntake.Proofs.Backoff

/-!
# The course of an accept loop

`turns` tells when every attempt of a script would complete, and how long the loop would
back off after it, if nothing ended the loop. The number of errors in a row is read off
the attempts that went before. The loop takes the first of these turns, up to a lasting
error or a request to stop, and leaves the others; `AcceptRun.Takes` says so of a run.
-/

namespace MetricIntake.Listener

variable {κ : Type}

-- ---------------------------------------------------------------------------
-- Turns
-- ---------------------------------------------------------------------------

/-- Whether an attempt met an error. -/
def Attempt.isError (a : Attempt κ) : Bool :=
  match a.result with
  | .ok _ => false
  | .error _ => true

/-- An attempt in its place. -/
structure Turn (κ : Type) where
  result : Except IoError κ
  /-- When it completes. -/
  moment : Nat
  /-- How long the loop backs off after it, if it met an error that passes. -/
  delay : Span

namespace Turn

/-- The connection that is accepted, and when. -/
def connection? (t : Turn κ) : Option (κ × Nat) :=
  match t.result with
  | .ok conn => some (conn, t.moment)
  | .error _ => none

/-- The delay after an error that passes. -/
def backOff? (t : Turn κ) : Option Span :=
  match t.result with
  | .ok _ => none
  | .error e => if e.isTransient then some t.delay else none

/-- How an error that does not pass ends the loop. -/
def failure? (t : Turn κ) : Option (AcceptExit × Nat) :=
  match t.result with
  | .ok _ => none
  | .error e => if e.isTransient then none else some (.failed e, t.moment)

/-- When the loop accepts again. -/
def resumes (t : Turn κ) : Nat := t.moment + (t.backOff?.elim 0 Span.nanos)

end Turn

/-- The turns after some attempts, of which the latest comes first, from a moment on.
    The delay after an error depends on how many errors in a row came right before. -/
def turnsFrom (config : BackoffConfig) :
    (earlier : List (Attempt κ)) → (now : Nat) → List (Attempt κ) → List (Turn κ)
  | _, _, [] => []
  | earlier, now, attempt :: later =>
    let failures := (earlier.takeWhile Attempt.isError).length
    let turn : Turn κ := ⟨attempt.result, now + attempt.wait, config.delay failures⟩
    turn :: turnsFrom config (attempt :: earlier) turn.resumes later

/-- The turns of a whole script. -/
def turns (config : BackoffConfig) (attempts : List (Attempt κ)) : List (Turn κ) :=
  turnsFrom config [] 0 attempts

-- ---------------------------------------------------------------------------
-- What a run takes
-- ---------------------------------------------------------------------------

/-- What a loop reports when it ends after some turns: an error is for its caller to
    report, and when it is asked to stop it may still be backing off. -/
def endEvents (taken : List (Turn κ)) : Option (AcceptExit × Nat) → List AcceptEvent
  | some (.stopped, moment) =>
    if taken.getLast?.any (moment ≤ ·.resumes) then [.stoppedInBackoff] else [.stopped]
  | some (.failed _, _) | none => []

/-- A run takes turns: their connections are dispatched, each once and in order, and
    after errors that pass it backs off. It ends at an error that does not pass, which
    is the last turn that it takes, and otherwise when it is asked to stop, and from then
    on takes no turn. Nothing else keeps it from the next turn. -/
structure AcceptRun.Takes (stop : Option Nat) (taken left : List (Turn κ)) (r : AcceptRun κ) :
    Prop where
  dispatched : r.dispatched = taken.filterMap Turn.connection?
  exit : r.exit = (taken.findSome? Turn.failure?).or (stop.map (AcceptExit.stopped, ·))
  events : r.events =
    (taken.filterMap Turn.backOff?).map .backingOff ++ endEvents taken r.exit
  inTime : ∀ t ∈ taken, ∀ s ∈ stop, t.moment < s
  failure_last : ∀ t ∈ taken.dropLast, t.failure? = none
  next : taken.findSome? Turn.failure? = none → ∀ t ∈ left.head?, ∃ s ∈ stop, s ≤ t.moment

variable {stop : Option Nat} {taken left : List (Turn κ)} {r : AcceptRun κ} {t : Turn κ}

theorem stopBy_eq_none_iff {moment : Nat} :
    stopBy stop moment = none ↔ ∀ s ∈ stop, moment < s := by
  cases stop <;> simp [stopBy, Option.filter]

theorem stopBy_eq_some_iff {moment s : Nat} :
    stopBy stop moment = some s ↔ stop = some s ∧ s ≤ moment := by
  cases stop with
  | none => simp [stopBy]
  | some s' =>
    simp only [stopBy, Option.filter_eq_some_iff, Option.some.injEq, decide_eq_true_eq]

namespace AcceptRun.Takes

/-- A run that is asked to stop while it waits for the first connection. -/
theorem waiting {s : Nat} (hstop : stop = some s) (hnext : ∀ t ∈ left.head?, s ≤ t.moment) :
    (AcceptRun.stopped .stopped s : AcceptRun κ).Takes stop [] left where
  dispatched := rfl
  exit := by rw [hstop]; rfl
  events := rfl
  inTime := nofun
  failure_last := nofun
  next _ t ht := ⟨s, hstop, hnext t ht⟩

/-- A run that waits for ever. -/
theorem idle (hstop : stop = none) : ({} : AcceptRun κ).Takes stop [] [] where
  dispatched := rfl
  exit := by rw [hstop]; rfl
  events := rfl
  inTime := nofun
  failure_last := nofun
  next _ _ := nofun

/-- A run that ends with its first attempt. -/
theorem failed {e : IoError} (hresult : t.result = .error e) (hlasting : e.isTransient = false)
    (htime : ∀ s ∈ stop, t.moment < s) :
    (AcceptRun.failed e t.moment : AcceptRun κ).Takes stop [t] left := by
  have hfailure : t.failure? = some (.failed e, t.moment) := by
    simp [Turn.failure?, hresult, hlasting]
  constructor
  · simp [AcceptRun.failed, Turn.connection?, hresult]
  · simp [AcceptRun.failed, hfailure]
  · simp [AcceptRun.failed, Turn.backOff?, hresult, hlasting, endEvents]
  · exact List.forall_mem_singleton.2 htime
  · simp
  · simp [hfailure]

/-- A run that is asked to stop while it backs off after its first attempt. -/
theorem backingOff {e : IoError} {s : Nat} (hresult : t.result = .error e)
    (hpasses : e.isTransient = true) (hstop : stop = some s) (htime : t.moment < s)
    (hresumes : s ≤ t.resumes) (hnext : ∀ t' ∈ left.head?, t.resumes ≤ t'.moment) :
    ((AcceptRun.stopped .stoppedInBackoff s : AcceptRun κ).report (.backingOff t.delay)).Takes
      stop [t] left := by
  constructor
  · simp [report, stopped, Turn.connection?, hresult]
  · simp [report, stopped, Turn.failure?, hresult, hpasses, hstop]
  · simp [report, stopped, Turn.backOff?, hresult, hpasses, endEvents, hresumes]
  · simp [hstop, htime]
  · simp
  · exact fun _ t' ht' => ⟨s, hstop, hresumes.trans (hnext t' ht')⟩

/-- A run is only stopped when it is asked to. -/
theorem stop_eq (h : r.Takes stop taken left) {moment : Nat}
    (hexit : r.exit = some (.stopped, moment)) : stop = some moment := by
  rw [h.exit, Option.or_eq_some_iff] at hexit
  rcases hexit with hfailure | ⟨-, hstop⟩
  · obtain ⟨t, -, ht⟩ := List.exists_of_findSome?_eq_some hfailure
    unfold Turn.failure? at ht
    split at ht
    · cases ht
    · split at ht <;> cases ht
  · simpa using hstop

/-- A run that goes on after a turn takes this turn and then what the rest of it takes. -/
theorem cons (h : r.Takes stop taken left) (hgoes : t.failure? = none)
    (hresumes : ∀ s ∈ stop, t.resumes < s) :
    AcceptRun.Takes stop (t :: taken) left {
      dispatched := t.connection?.toList ++ r.dispatched
      events := t.backOff?.toList.map .backingOff ++ r.events
      exit := r.exit } where
  dispatched := by
    rw [h.dispatched]
    cases hconn : t.connection? <;> simp [hconn]
  exit := by
    rw [List.findSome?_cons_of_isNone (by simp [hgoes])]
    exact h.exit
  events := by
    have hend : endEvents (t :: taken) r.exit = endEvents taken r.exit := by
      rcases hexit : r.exit with _ | ⟨_ | e, moment⟩
      · rfl
      · have hlt := hresumes moment (h.stop_eq hexit)
        cases taken with
        | nil => simp [endEvents, hlt]
        | cons t' taken => simp [endEvents, List.getLast?_cons_cons]
      · rfl
    dsimp only
    rw [h.events, hend]
    cases hdelay : t.backOff? <;> simp [hdelay]
  inTime := by
    refine List.forall_mem_cons.2 ⟨fun s hs => ?_, h.inTime⟩
    exact Nat.lt_of_le_of_lt (Nat.le_add_right _ _) (hresumes s hs)
  failure_last := by
    cases taken with
    | nil => exact nofun
    | cons t' taken =>
      rw [List.dropLast_cons_cons]
      exact List.forall_mem_cons.2 ⟨hgoes, h.failure_last⟩
  next hnone := h.next (by simpa [hgoes] using hnone)

/-- A run that goes on after a connection dispatches it. -/
theorem dispatch (h : r.Takes stop taken left) {conn : κ} (hresult : t.result = .ok conn)
    (htime : ∀ s ∈ stop, t.moment < s) :
    (r.dispatch conn t.moment).Takes stop (t :: taken) left := by
  have hcons := h.cons (t := t) (by simp [Turn.failure?, hresult])
    (by simpa [Turn.resumes, Turn.backOff?, hresult] using htime)
  simpa [Turn.connection?, Turn.backOff?, hresult, AcceptRun.dispatch] using hcons

/-- A run that goes on after an error has backed off. -/
theorem report (h : r.Takes stop taken left) {e : IoError} (hresult : t.result = .error e)
    (hpasses : e.isTransient = true) (hresumes : ∀ s ∈ stop, t.resumes < s) :
    (r.report (.backingOff t.delay)).Takes stop (t :: taken) left := by
  have hcons := h.cons (t := t) (by simp [Turn.failure?, hresult, hpasses]) hresumes
  simpa [Turn.connection?, Turn.backOff?, hresult, hpasses, AcceptRun.report] using hcons

end AcceptRun.Takes

-- ---------------------------------------------------------------------------
-- Running a loop
-- ---------------------------------------------------------------------------

/-- The next attempt does not complete before it begins. -/
theorem le_moment_of_head? {config : BackoffConfig} {earlier later : List (Attempt κ)} {now : Nat}
    (ht : t ∈ (turnsFrom config earlier now later).head?) : now ≤ t.moment := by
  cases later with
  | nil => cases ht
  | cons attempt later =>
    obtain rfl := Option.some.inj ht
    exact Nat.le_add_right now attempt.wait

/-- A loop that goes on after some attempts takes some of the turns that are left. -/
theorem exists_takes_acceptFrom (config : BackoffConfig) (attempts earlier : List (Attempt κ))
    {now : Nat} (hnow : ∀ s ∈ stop, now ≤ s) :
    ∃ taken left, turnsFrom config earlier now attempts = taken ++ left ∧
      (acceptFrom stop attempts now
        (.ofFailures config (earlier.takeWhile Attempt.isError).length)).Takes stop taken left := by
  induction attempts generalizing earlier now with
  | nil =>
    refine ⟨[], [], rfl, ?_⟩
    cases hstop : stop with
    | none => exact .idle rfl
    | some s =>
      rw [acceptFrom, max_eq_right (hnow s hstop)]
      exact .waiting rfl nofun
  | cons attempt attempts ih =>
    let failures := (earlier.takeWhile Attempt.isError).length
    let t : Turn κ := ⟨attempt.result, now + attempt.wait, config.delay failures⟩
    let later := turnsFrom config (attempt :: earlier) t.resumes attempts
    have hturns : turnsFrom config earlier now (attempt :: attempts) = t :: later := rfl
    have hnext : ∀ t' ∈ later.head?, t.resumes ≤ t'.moment := fun _ => le_moment_of_head?
    rw [hturns, acceptFrom]
    cases hstopped : stopBy stop (now + attempt.wait) with
    | some s =>
      obtain ⟨hstop, hle⟩ := stopBy_eq_some_iff.1 hstopped
      dsimp only
      rw [max_eq_right (hnow s hstop)]
      exact ⟨[], t :: later, rfl, .waiting hstop (by simpa using hle)⟩
    | none =>
      have htime : ∀ s ∈ stop, t.moment < s := stopBy_eq_none_iff.1 hstopped
      dsimp only
      cases hresult : attempt.result with
      | ok conn =>
        have hresumes : t.resumes = t.moment := by simp [t, Turn.resumes, Turn.backOff?, hresult]
        have hfailures : (attempt :: earlier).takeWhile Attempt.isError = [] := by
          simp [Attempt.isError, hresult]
        have hle : ∀ s ∈ stop, t.resumes ≤ s := fun s hs => hresumes ▸ (htime s hs).le
        obtain ⟨taken, left, hleft, htakes⟩ := ih (attempt :: earlier) hle
        rw [hfailures, hresumes, List.length_nil] at htakes
        refine ⟨t :: taken, left, congrArg (t :: ·) hleft, ?_⟩
        rw [Backoff.reset_ofFailures]
        exact htakes.dispatch hresult htime
      | error e =>
        have hfailures : ((attempt :: earlier).takeWhile Attempt.isError).length = failures + 1 := by
          simp [Attempt.isError, hresult, failures]
        dsimp only
        cases hpasses : e.isTransient with
        | false =>
          rw [if_neg Bool.false_ne_true]
          exact ⟨[t], later, rfl, .failed hresult hpasses htime⟩
        | true =>
          have hresumes : now + attempt.wait + (config.delay failures).nanos = t.resumes := by
            simp [t, Turn.resumes, Turn.backOff?, hresult, hpasses]
          rw [if_pos rfl, Backoff.nextDelay_ofFailures, hresumes]
          cases hstopped : stopBy stop t.resumes with
          | some s =>
            obtain ⟨hstop, hle⟩ := stopBy_eq_some_iff.1 hstopped
            exact ⟨[t], later, rfl, .backingOff hresult hpasses hstop (htime s hstop) hle hnext⟩
          | none =>
            have htime' := stopBy_eq_none_iff.1 hstopped
            have hle : ∀ s ∈ stop, t.resumes ≤ s := fun s hs => (htime' s hs).le
            obtain ⟨taken, left, hleft, htakes⟩ := ih (attempt :: earlier) hle
            rw [hfailures] at htakes
            exact ⟨t :: taken, left, congrArg (t :: ·) hleft, htakes.report hresult hpasses htime'⟩

/-- A loop takes the first turns of its script, up to a lasting error or a request to
    stop: it dispatches their connections, each once and in order, and backs off after
    errors that pass, by a delay that grows with the errors in a row before. -/
theorem exists_takes_accept (config : BackoffConfig) (stop : Option Nat)
    (attempts : List (Attempt κ)) :
    ∃ taken left, turns config attempts = taken ++ left ∧
      (accept config stop attempts).Takes stop taken left :=
  exists_takes_acceptFrom config attempts [] fun s _ => s.zero_le

end MetricIntake.Listener
