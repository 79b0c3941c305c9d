-- SUMMARY: Runs of a manager at work: connections are counted from their dispatch until their handler returns, and once all is over nothing follows.
import MetricIntake.Service.Activity
import MetricIntake.Proofs.Service.Serving

/-!
# Runs of a manager at work

A run is any sequence of operations and of things that loops and handlers do by
themselves. At every step of it the count of connections is the number of handlers
that have not returned, those included that have never run. So when the loops that
dispatch have exited and the count is zero, no handler is left, and without another
start there never will be one.

Whether a loop goes on is all that matters here. Only a start makes a loop go on that
did not, and only its exit makes it stop.
-/

namespace MetricIntake

/-! ## Loops that go on -/

namespace Service

/-- Whether there is an `i`-th loop and it goes on. -/
def goesOn (s : Service) (i : Nat) : Bool := (s.loops[i]?).any (!·.exited)

theorem goesOn_iff {s : Service} {i : Nat} :
    s.goesOn i = true ↔ ∃ l, s.loops[i]? = some l ∧ l.exited = false := by
  simp only [goesOn, Option.any_eq_true, Bool.not_eq_true']

theorem forall_goesOn_eq_false_iff {s : Service} :
    (∀ i, s.goesOn i = false) ↔ ∀ l ∈ s.loops, l.exited = true := by
  simp only [← Bool.not_eq_true, goesOn_iff, not_exists, not_and, not_not]
  constructor
  · intro h l hl
    obtain ⟨i, hi⟩ := List.mem_iff_getElem?.1 hl
    exact h i l hi
  · exact fun h i l hi => h l (List.mem_of_getElem? hi)

/-- What is done to every loop without ending any. -/
theorem goesOn_of_map {s s' : Service} {f : ServingLoop → ServingLoop}
    (hloops : s'.loops = s.loops.map f) (hf : ∀ l, (f l).exited = l.exited) (i : Nat) :
    s'.goesOn i = s.goesOn i := by
  rw [goesOn, goesOn, hloops, List.getElem?_map, Option.any_map]
  simp only [hf]

theorem goesOn_stop (s : Service) (k : Kernel) (i : Nat) : (s.stop k).1.goesOn i = s.goesOn i := by
  refine goesOn_of_map rfl (fun l => ?_) i
  split <;> rfl

theorem goesOn_takeTracked (s : Service) (i : Nat) : s.takeTracked.2.goesOn i = s.goesOn i :=
  goesOn_of_map (f := fun l => { l with tracked := false }) rfl (fun _ => rfl) i

/-- An exit ends one loop. -/
theorem goesOn_exitLoop (s : Service) (j : Nat) (k : Kernel) (i : Nat) :
    (s.exitLoop j k).1.goesOn i = (decide (i ≠ j) && s.goesOn i) := by
  have hover : s.goesOn j = false → s.goesOn i = (decide (i ≠ j) && s.goesOn i) := by
    intro hj
    by_cases hij : i = j
    · rw [hij, hj, Bool.and_false]
    · rw [decide_eq_true hij, Bool.true_and]
  unfold exitLoop
  split
  · rename_i hj
    exact hover (by rw [goesOn, hj]; rfl)
  · rename_i l hj
    split
    · rename_i hexited
      exact hover (by rw [goesOn, hj, Option.any_some, hexited]; rfl)
    · have hset : Service.goesOn { s with loops := s.loops.set j { l with exited := true } } i =
          (decide (i ≠ j) && s.goesOn i) := by
        obtain ⟨hlt, -⟩ := List.getElem?_eq_some_iff.1 hj
        rw [goesOn, goesOn, List.getElem?_set]
        by_cases hij : i = j
        · simp [hij, hlt]
        · simp [hij, Ne.symm hij]
      dsimp only
      split <;> exact hset

end Service

namespace Activity

variable {a b : Activity} {p : Protocol} {i : Nat}

/-! ## What happens -/

/-- What becomes of a manager at work when something happens. -/
inductive Happens (a : Activity) : Happening → Activity → Prop where
  | loopExited (p : Protocol) (i : Nat) : Happens a (.loopExited p i) (a.exitLoop p i)
  | dispatched {p : Protocol} {i : Nat} (hprotocol : hasHandlers p = true)
    (hserving : a.isServing p i = true) : Happens a (.dispatched p i) (a.dispatch p i)
  | started {i : Nat} (hstate : a.handlerState? i = some .dispatched) :
    Happens a (.started i) (a.setHandler i .running)
  | ingested {i : Nat} (hstate : a.handlerState? i = some .running) (points : List Point) :
    Happens a (.ingested i points) (a.deliver points)
  | returned {i : Nat} (hstate : a.handlerState? i = some .running) :
    Happens a (.returned i) ((a.setHandler i .returned).setTracker a.manager.tracker.release)
  | received {i : Nat} (hserving : a.isServing .graphiteUdp i = true) (points : List Point) :
    Happens a (.received i points) (a.deliver points)
  /-- Only loops exit at any time. -/
  | ignored {h : Happening} (hexit : ∀ p i, h ≠ .loopExited p i) : Happens a h a

theorem happens (a : Activity) (h : Happening) : a.Happens h (a.happen h) := by
  cases h with
  | loopExited p i => exact .loopExited p i
  | dispatched p i =>
    rw [happen]
    split
    · rename_i hserving
      rw [Bool.and_eq_true] at hserving
      exact .dispatched hserving.1 hserving.2
    · exact .ignored nofun
  | started i =>
    rw [happen]
    split
    · exact .started ‹_›
    · exact .ignored nofun
  | ingested i points =>
    rw [happen]
    split
    · exact .ingested ‹_› points
    · exact .ignored nofun
  | returned i =>
    rw [happen]
    split
    · exact .returned ‹_›
    · exact .ignored nofun
  | received i points =>
    rw [happen]
    split
    · exact .received ‹_› points
    · exact .ignored nofun

/-! ## Runs -/

/-- A manager that has not been started, with nothing at work. -/
def create (listen : ListenConfig) (settings : Settings) (kernel : Kernel) : Activity where
  manager := .create listen settings
  kernel

/-- What is done with a manager, or happens. -/
inductive Deed where
  | run (manifest : Manifest) (base : Descriptor)
  | resume (h : Handoff)
  | exportSockets
  | shutdown
  /-- A wait, and what happens until it ends and later, in order. -/
  | drain (now : Nat) (timeout : Span) (meanwhile : List Timed)
    (ordered : meanwhile.Pairwise fun t t' => t.1 ≤ t'.1)
  | happen (h : Happening)
  /-- Others open and close descriptors. -/
  | elsewhere (kernel : Kernel)

/-- Whether services may be started. -/
def Deed.isStart : Deed → Bool
  | .run .. | .resume _ => true
  | _ => false

def perform (a : Activity) : Deed → Activity
  | .run manifest base => (a.run manifest base).2
  | .resume h => (a.resume h).2
  | .exportSockets => a.exportSockets.2
  | .shutdown => a.shutdown
  | .drain now timeout meanwhile _ => (a.drain now timeout meanwhile).2
  | .happen h => a.happen h
  | .elsewhere kernel => { a with kernel }

/-- What is left of a manager at work after a run. -/
def performAll (a : Activity) (deeds : List Deed) : Activity := deeds.foldl perform a

/-- Stops keeping track of loops. -/
def untrack (a : Activity) : Activity := { a with manager := a.manager.untrack }

/-- A wait that cannot be started changes nothing; any other ends at its moment, after all
    that happens until then. -/
theorem drain_cases (a : Activity) (now : Nat) (timeout : Span) (meanwhile : List Timed) :
    a.drain now timeout meanwhile = (.noDeadline, a) ∨ ∃ clean moment,
      Drain.awaitAll now timeout (a.loopEnds now meanwhile) a.manager.tracker
        (connectionChanges meanwhile a) = .returned clean moment ∧
      a.drain now timeout meanwhile =
        (.returned clean moment, (a.happenUpTo moment meanwhile).untrack) := by
  rw [drain]
  cases Drain.awaitAll now timeout (a.loopEnds now meanwhile) a.manager.tracker
      (connectionChanges meanwhile a) with
  | noDeadline => exact .inl rfl
  | returned clean moment => exact .inr ⟨clean, moment, rfl, rfl⟩

/-- A wait keeps what all that happens keeps, whether or not loops are waited for. -/
theorem drain_rec {P : Activity → Prop} (hhappen : ∀ b h, P b → P (b.happen h))
    (huntrack : ∀ b, P b → P b.untrack) (ha : P a) (now : Nat) (timeout : Span)
    (meanwhile : List Timed) : P (a.drain now timeout meanwhile).2 := by
  rcases a.drain_cases now timeout meanwhile with hdrain | ⟨_, moment, -, hdrain⟩
  · rwa [hdrain]
  · rw [hdrain]
    exact huntrack _ (List.foldlRecOn _ _ ha fun b hb t _ => hhappen b t.2 hb)

/-- A run keeps what every deed of it keeps. -/
theorem performAll_rec {P : Activity → Prop} {deeds : List Deed}
    (hperform : ∀ b, ∀ d ∈ deeds, P b → P (b.perform d)) (ha : P a) : P (a.performAll deeds) :=
  List.foldlRecOn _ _ ha fun b hb d hd => hperform b d hd hb

/-! ## Counting -/

/-- The connections that are counted are those whose handlers have not returned. -/
def Counted (a : Activity) : Prop := a.active = a.handlers.countP Handler.isPending

theorem handlerState?_eq_some_iff {state : HandlerState} : a.handlerState? i = some state ↔
    ∃ h, a.handlers[i]? = some h ∧ h.state = state := by
  rw [handlerState?, Option.map_eq_some_iff]

/-- A handler that has not returned is in another state: it does not count any more if it
    has returned now. -/
theorem countP_setHandler {state : HandlerState} (hstate : a.handlerState? i = some state)
    (hpending : state ≠ .returned) (state' : HandlerState) :
    (a.setHandler i state').handlers.countP Handler.isPending +
      (if state' = .returned then 1 else 0) = a.handlers.countP Handler.isPending := by
  obtain ⟨h, hi, rfl⟩ := handlerState?_eq_some_iff.1 hstate
  obtain ⟨hlt, hget⟩ := List.getElem?_eq_some_iff.1 hi
  have hbefore : h.isPending = true := by simpa [Handler.isPending] using hpending
  have hpos : 0 < a.handlers.countP Handler.isPending :=
    List.countP_pos_iff.2 ⟨h, List.mem_of_getElem? hi, hbefore⟩
  have hset : (a.setHandler i state').handlers = a.handlers.set i { h with state := state' } := by
    rw [setHandler, List.modify_eq_set_getElem?, hi]
    rfl
  rw [hset, List.countP_set hlt, hget, if_pos hbefore]
  cases state' <;> simp [Handler.isPending] <;> omega

theorem Counted.happens {h : Happening} (ha : a.Counted) (hb : a.Happens h b) : b.Counted := by
  cases hb with
  | loopExited | ingested | received | ignored => exact ha
  | @dispatched p i =>
    have hhandlers : (a.dispatch p i).handlers = a.handlers ++ [{ protocol := p, loop := i }] := rfl
    rw [Counted, hhandlers, List.countP_append, ← ha]
    rfl
  | started hstate => exact ha.trans (countP_setHandler hstate nofun .running).symm
  | returned hstate =>
    have hcount := countP_setHandler hstate nofun .returned
    rw [if_pos rfl, ← ha] at hcount
    exact Nat.sub_eq_of_eq_add hcount.symm

theorem Counted.perform (ha : a.Counted) (d : Deed) : (a.perform d).Counted := by
  -- operations on the manager leave the count alone
  have hstart : ∀ (m : Manager) p inherited k, m.tracker = a.manager.tracker →
      (m.startService p inherited k).2.1.tracker = a.manager.tracker := fun _ _ _ _ => id
  have hof : ∀ {m : Manager} {k : Kernel}, m.tracker = a.manager.tracker →
      Counted { a with manager := m, kernel := k } := fun htracker =>
    (congrArg DrainTracker.active htracker).trans ha
  cases d with
  | run manifest base =>
    exact hof (Manager.run_rec (P := (·.tracker = a.manager.tracker)) hstart rfl manifest base _)
  | resume h =>
    exact hof (Manager.startInherited_rec (P := (·.tracker = a.manager.tracker)) hstart rfl
      h.entries _)
  | shutdown =>
    exact hof (Manager.forEach_rec (P := (·.tracker = a.manager.tracker)) (f := Service.stop)
      (fun _ _ _ => id) rfl a.kernel)
  | drain now timeout meanwhile _ =>
    exact drain_rec (P := Counted) (fun b h hb => hb.happens (b.happens h)) (fun _ hb => hb) ha
      now timeout meanwhile
  | happen h => exact ha.happens (a.happens h)
  | exportSockets | elsewhere => exact ha

theorem counted_performAll (listen : ListenConfig) (settings : Settings) (k : Kernel)
    (deeds : List Deed) : ((create listen settings k).performAll deeds).Counted :=
  performAll_rec (P := Counted) (fun _ d _ hb => hb.perform d) rfl

/-! ## Loops only end -/

theorem isServing_iff :
    a.isServing p i = true ↔ ∃ l, (a.manager.services p).loops[i]? = some l ∧ l.exited = false :=
  Service.goesOn_iff

theorem isServing_eq_false_iff :
    (∀ i, a.isServing p i = false) ↔ ∀ l ∈ (a.manager.services p).loops, l.exited = true :=
  Service.forall_goesOn_eq_false_iff

theorem isServing_exitLoop (a : Activity) (q : Protocol) (j : Nat) (p : Protocol) (i : Nat) :
    (a.exitLoop q j).isServing p i = true ↔ ¬ (q = p ∧ j = i) ∧ a.isServing p i = true := by
  by_cases hqp : q = p
  · subst hqp
    have hservice : (a.exitLoop q j).manager.services q =
        ((a.manager.services q).exitLoop j a.kernel).1 := Manager.services_update_self ..
    rw [isServing, hservice]
    refine (Bool.eq_iff_iff.1 ((a.manager.services q).goesOn_exitLoop j a.kernel i)).trans ?_
    rw [Bool.and_eq_true, decide_eq_true_iff]
    refine and_congr_left' ⟨fun hne hsame => hne hsame.2.symm, fun hne hsame => ?_⟩
    exact hne ⟨rfl, hsame.symm⟩
  · have hservice : (a.exitLoop q j).manager.services p = a.manager.services p :=
      Manager.services_update_of_ne _ _ (Ne.symm hqp)
    rw [isServing, hservice]
    exact ⟨fun h => ⟨fun hsame => hqp hsame.1, h⟩, fun h => h.2⟩

/-- A loop goes on until it exits. -/
theorem Happens.isServing {h : Happening} (hb : a.Happens h b) (p : Protocol) (i : Nat) :
    b.isServing p i = true ↔ h ≠ .loopExited p i ∧ a.isServing p i = true := by
  cases hb with
  | loopExited q j => rw [isServing_exitLoop, Ne, Happening.loopExited.injEq]
  | dispatched | started | ingested | returned | received =>
    exact ⟨fun hserving => ⟨nofun, hserving⟩, fun h => h.2⟩
  | ignored hexit => exact ⟨fun hserving => ⟨hexit p i, hserving⟩, fun h => h.2⟩

/-- The same loops go on, the same handlers are there, and the same points have been
    delivered. -/
structure Alike (a b : Activity) : Prop where
  isServing : ∀ p i, b.isServing p i = a.isServing p i
  handlers : b.handlers = a.handlers
  delivered : b.delivered = a.delivered

theorem alike_untrack (a : Activity) : a.Alike a.untrack :=
  ⟨fun p i => (a.manager.services p).goesOn_takeTracked i, rfl, rfl⟩

theorem alike_shutdown (a : Activity) : a.Alike a.shutdown := by
  refine ⟨fun p i => ?_, rfl, rfl⟩
  obtain ⟨k, hstop⟩ := Manager.exists_services_forEach Service.stop a.manager a.kernel p
  have hservice : a.shutdown.manager.services p = ((a.manager.services p).stop k).1 := hstop
  rw [isServing, hservice]
  exact (a.manager.services p).goesOn_stop k i

/-- Without a start, a deed keeps what all that happens keeps if it depends on nothing but
    who goes on and what has been delivered. -/
theorem perform_rec {P : Activity → Prop} (hhappen : ∀ b h, P b → P (b.happen h))
    (halike : ∀ b c : Activity, b.Alike c → P b → P c) (ha : P a) {d : Deed}
    (hd : d.isStart = false) : P (a.perform d) := by
  cases d with
  | run | resume => cases hd
  | exportSockets | elsewhere => exact halike a _ ⟨fun _ _ => rfl, rfl, rfl⟩ ha
  | shutdown => exact halike a _ a.alike_shutdown ha
  | drain now timeout meanwhile _ =>
    exact drain_rec hhappen (fun b => halike b _ b.alike_untrack) ha now timeout meanwhile
  | happen h => exact hhappen a h ha

/-! ## When nothing goes on -/

/-- The loops that dispatch connections have exited, and all handlers have returned. -/
structure Quiet (a : Activity) : Prop where
  exited : ∀ p, hasHandlers p = true → ∀ i, a.isServing p i = false
  returned : ∀ h ∈ a.handlers, h.state = .returned

/-- If nothing is counted after the loops have exited, nothing goes on. -/
theorem Counted.quiet (ha : a.Counted)
    (hexited : ∀ p, hasHandlers p = true → ∀ i, a.isServing p i = false) (hzero : a.active = 0) :
    a.Quiet where
  exited := hexited
  returned h hh := by
    rw [ha, List.countP_eq_zero] at hzero
    simpa [Handler.isPending] using hzero h hh

theorem Quiet.eq_returned {state : HandlerState} (ha : a.Quiet)
    (hi : a.handlerState? i = some state) : state = .returned := by
  obtain ⟨h, hh, rfl⟩ := handlerState?_eq_some_iff.1 hi
  exact ha.returned h (List.mem_of_getElem? hh)

theorem Quiet.of_isServing (ha : a.Quiet)
    (hserving : ∀ p i, b.isServing p i = true → a.isServing p i = true)
    (hhandlers : b.handlers = a.handlers) : b.Quiet where
  exited p hp i := Bool.eq_false_of_not_eq_true fun hgoing => by
    have hfalse := ha.exited p hp i
    rw [hserving p i hgoing] at hfalse
    cases hfalse
  returned := hhandlers ▸ ha.returned

theorem Quiet.happens {h : Happening} (ha : a.Quiet) (hb : a.Happens h b) : b.Quiet := by
  have hserving : ∀ p i, b.isServing p i = true → a.isServing p i = true := fun p i hserving =>
    ((hb.isServing p i).1 hserving).2
  cases hb with
  | loopExited | ingested | received | ignored => exact ha.of_isServing hserving rfl
  | @dispatched p i hprotocol hgoing =>
    rw [ha.exited p hprotocol i] at hgoing
    cases hgoing
  | started hstate | returned hstate => cases ha.eq_returned hstate

theorem Quiet.alike (ha : a.Quiet) (hb : a.Alike b) : b.Quiet :=
  ha.of_isServing (fun p i => (hb.isServing p i ▸ ·)) hb.handlers

theorem Quiet.performAll {deeds : List Deed} (ha : a.Quiet)
    (hdeeds : ∀ d ∈ deeds, d.isStart = false) : (a.performAll deeds).Quiet := by
  refine performAll_rec (P := Quiet) (fun b d hd hb => ?_) ha
  exact perform_rec (P := Quiet) (fun c h hc => hc.happens (c.happens h))
    (fun _ _ halike hc => hc.alike halike) hb (hdeeds d hd)

/-- At every step of a run the connections that are counted are those that a loop has
    dispatched and whose handler has not returned, whether it has run or not. Once the
    loops that dispatch have exited and the count is zero, every handler has returned, and
    whatever follows without a start, none sends a point to the sink. -/
theorem active_eq_countP_pending (listen : ListenConfig) (settings : Settings) (k : Kernel)
    (deeds : List Deed) :
    let a := (create listen settings k).performAll deeds
    a.active = a.handlers.countP Handler.isPending ∧
      ((∀ p, hasHandlers p = true → ∀ l ∈ (a.manager.services p).loops, l.exited = true) →
        a.active = 0 → ∀ later : List Deed, (∀ d ∈ later, d.isStart = false) →
          let b := a.performAll later
          (∀ h ∈ b.handlers, h.state = .returned) ∧
            ∀ i points, b.happen (.ingested i points) = b) := by
  intro a
  have hcounted : a.Counted := counted_performAll listen settings k deeds
  refine ⟨hcounted, fun hexited hzero later hlater => ?_⟩
  have hquiet := hcounted.quiet (fun p hp => isServing_eq_false_iff.2 (hexited p hp)) hzero
  have hquiet' := hquiet.performAll hlater
  refine ⟨hquiet'.returned, fun i points => if_neg fun hstate => ?_⟩
  cases hquiet'.eq_returned hstate

/-- Two loops dispatch a connection each and exit before the handlers have run; one of
    the handlers returns, and then the other one runs and returns. -/
theorem active_eq_countP_pending_of_two :
    let k : Kernel := { table := ⟨[(3, ⟨⟨40, .listener ⟨.loopback, 2003⟩⟩, true⟩),
      (4, ⟨⟨41, .listener ⟨.loopback, 2004⟩⟩, true⟩)]⟩ }
    let deeds : List Deed := [.resume ⟨[("gt", 3), ("gp", 4)]⟩,
      .happen (.dispatched .graphiteText 0), .happen (.dispatched .graphitePickle 0),
      .happen (.loopExited .graphiteText 0), .happen (.loopExited .graphitePickle 0),
      .happen (.started 1), .happen (.returned 1), .happen (.started 0)]
    let more : List Deed := deeds ++ [.happen (.returned 0)]
    let later : List Deed := [.shutdown, .happen (.dispatched .graphiteText 0)]
    ((create .loopback {} k).performAll deeds).active = 1 ∧
      ((create .loopback {} k).performAll deeds).handlers.countP Handler.isPending = 1 ∧
      ((create .loopback {} k).performAll more).active = 0 ∧
      ∀ h ∈ (((create .loopback {} k).performAll more).performAll later).handlers,
        h.state = .returned := by
  intro k deeds more later
  have hone : ((create .loopback {} k).performAll deeds).active = 1 := by decide
  have hzero : ((create .loopback {} k).performAll more).active = 0 := by decide
  obtain ⟨hcount, -⟩ := active_eq_countP_pending .loopback {} k deeds
  have hover := (active_eq_countP_pending .loopback {} k more).2
    (by intro p _; cases p <;> decide) hzero later (by decide)
  exact ⟨hone, hcount.symm.trans hone, hzero, hover.1⟩

end Activity
end MetricIntake
