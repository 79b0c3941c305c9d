-- SUMMARY: A drain as one wait for loops and connections, and what it says if it ends clean: every loop has exited, no connection is open, and no point follows, unless an earlier drain has left loops behind.
import Mathlib.Data.List.Induction
import MetricIntake.Proofs.Drain.Schedule
import MetricIntake.Proofs.Service.Activity
import MetricIntake.Proofs.Service.Resumption

/-!
# Drains that end clean

A drain waits for one loop after the other and then for the connections, which comes to
one wait for all of them (`exists_awaits_drain`). It ends clean when every loop that is
waited for has exited in time and no connection is open then. It waits for every loop that
goes on, as long as no drain before it has been given up while a loop went on: what such a
drain leaves behind is not waited for again, and the next drain may end clean while it
goes on.
-/

namespace MetricIntake

/-! ## Waiting for loops and connections -/

namespace Drain

variable {now deadline moment moment' : Nat} {ends : Option Nat}

/-- What ends at some moment, or never, has ended by another. -/
def EndedBy (moment : Nat) (ends : Option Nat) : Prop := ∃ ended, ends = some ended ∧ ended ≤ moment

theorem EndedBy.mono (h : EndedBy moment ends) (hle : moment ≤ moment') : EndedBy moment' ends := by
  obtain ⟨ended, hended, hle'⟩ := h
  exact ⟨ended, hended, hle'.trans hle⟩

/-- At a moment of a wait that began at `now` all that is waited for has ended. -/
structure Ended (now : Nat) (ends : List (Option Nat)) (moment : Nat) : Prop where
  begun : now ≤ moment
  ended : ∀ e ∈ ends, EndedBy moment e

theorem Ended.mono {ends : List (Option Nat)} (h : Ended now ends moment) (hle : moment ≤ moment') :
    Ended now ends moment' :=
  ⟨h.begun.trans hle, fun e he => (h.ended e he).mono hle⟩

theorem awaitLoop_awaits (hnow : now ≤ deadline) (ends : Option Nat) :
    Awaits (fun m => now ≤ m ∧ EndedBy m ends) deadline (awaitLoop deadline now ends).1
      (awaitLoop deadline now ends).2 := by
  cases ends with
  | none =>
    rw [awaitLoop, max_eq_right hnow]
    exact .late fun m ⟨_, ended, hended, _⟩ => nomatch hended
  | some ended =>
    rw [awaitLoop]
    split
    · rename_i hle
      refine .clean ⟨le_max_left now ended, ended, rfl, le_max_right now ended⟩ ?_ (max_le hnow hle)
      rintro m ⟨hbegun, _, hended, hle'⟩
      obtain rfl := Option.some.inj hended
      exact max_le hbegun hle'
    · rename_i hlate
      rw [max_eq_right hnow]
      refine .late ?_
      rintro m ⟨-, _, hended, hle'⟩
      obtain rfl := Option.some.inj hended
      exact (Nat.lt_of_not_le hlate).trans_le hle'

/-- Waiting for loops one after the other is waiting for all of them. -/
theorem awaitLoops_awaits (hnow : now ≤ deadline) (ends : List (Option Nat)) :
    Awaits (Ended now ends) deadline (awaitLoops deadline now ends).1
      (awaitLoops deadline now ends).2 := by
  -- The loops are awaited from the first on, so the last wait is peeled off first.
  induction ends using List.reverseRecOn with
  | nil => exact .clean ⟨le_rfl, nofun⟩ (fun m hm => hm.begun) hnow
  | append_singleton ends last ih =>
    have hlast := awaitLoop_awaits ih.le_deadline last
    rw [awaitLoops, List.foldl_concat, ← awaitLoops]
    refine (ih.seq (fun _ _ => Ended.mono) hlast).congr fun m => ⟨fun h => ?_, fun h => ?_⟩
    · exact ⟨h.1.begun, List.forall_mem_append.2 ⟨h.1.ended, List.forall_mem_singleton.2 h.2⟩⟩
    · obtain ⟨hends, hlast⟩ := List.forall_mem_append.1 h.ended
      exact ⟨⟨h.begun, hends⟩, List.forall_mem_singleton.1 hlast⟩

/-- Within the clock, waiting for loops and then for connections is one wait for all of
    them. -/
theorem exists_awaits_awaitAll {timeout : Span} (hclock : now + timeout.nanos < clockLimit)
    (ends : List (Option Nat)) (t : DrainTracker) (s : Schedule) :
    ∃ clean moment, awaitAll now timeout ends t s = .returned clean moment ∧
      Awaits (fun m => Ended now ends m ∧ (applyAll t (s.upTo m).1).active = 0)
        (now + timeout.nanos) clean moment := by
  have hloops := awaitLoops_awaits (Nat.le_add_right now timeout.nanos) ends
  rcases hpast : awaitLoops (now + timeout.nanos) now ends with ⟨clean, past⟩
  rw [hpast] at hloops
  have hconnections := @drain_awaits (applyAll t (s.upTo past).1) (s.upTo past).2 past
    (fun _ => Schedule.lt_of_head?_upTo) (now + timeout.nanos - past)
  rw [Nat.add_sub_cancel' hloops.le_deadline] at hconnections
  refine ⟨_, _, ?_, hloops.seq (fun _ _ => Ended.mono) (hconnections.congr fun m => ?_)⟩
  · rw [awaitAll, deadline?, if_pos hclock]
    simp only [hpast, Bool.and_comm]
  · refine and_congr_right fun hle => ?_
    rw [Schedule.upTo_of_le hle s, applyAll_append]

theorem awaitAll_of_beyond {timeout : Span} (hbeyond : clockLimit ≤ now + timeout.nanos)
    (ends : List (Option Nat)) (t : DrainTracker) (s : Schedule) :
    awaitAll now timeout ends t s = .noDeadline := by
  rw [awaitAll, deadline?, if_neg (Nat.not_lt.2 hbeyond)]

end Drain

/-! ## Loops that are waited for -/

namespace Service

variable {s s' : Service} {n : Nat}

/-- A service whose loops that go on are all waited for. -/
structure Awaited (s : Service) : Prop extends Ordered s where
  tracked : s.KeepsTrack

theorem Awaited.gains (hs : s.Awaited) (hs' : s'.Ordered) (h : s.Gains n s') : s'.Awaited :=
  ⟨hs', h.keepsTrack hs.tracked⟩

theorem Ordered.exists_gains_start (hs : s.Ordered) (inherited : Option Descriptor) (k : Kernel) :
    ∃ n, s.Gains n (s.start inherited k).2.1 := by
  rcases start_cases hs inherited k with hsame | ⟨-, hrenew⟩ | ⟨-, -, b, hserve⟩
  · rw [hsame]
    exact ⟨0, .refl s⟩
  · rw [hrenew]
    exact ⟨0, .of_map (s.loops_renew.trans (List.map_id s.loops).symm) fun l _ => .refl l⟩
  · rw [hserve]
    exact ⟨1, .serve_ready s b⟩

theorem Awaited.start (hs : s.Awaited) (inherited : Option Descriptor) (k : Kernel) :
    (s.start inherited k).2.1.Awaited := by
  obtain ⟨n, hgains⟩ := hs.exists_gains_start inherited k
  exact hs.gains (hs.toOrdered.start inherited k) hgains

theorem Awaited.stop (hs : s.Awaited) (k : Kernel) : (s.stop k).1.Awaited :=
  hs.gains (hs.toOrdered.stop k) (hs.gains_stop k)

theorem Awaited.exitLoop (hs : s.Awaited) (i : Nat) (k : Kernel) : (s.exitLoop i k).1.Awaited :=
  hs.gains (hs.toOrdered.exitLoop i k) (hs.gains_exitLoop i k)

/-- Nobody has to be waited for when all loops have exited. -/
theorem Ordered.awaited (hs : s.Ordered) (hexited : ∀ i, s.goesOn i = false) : s.Awaited where
  __ := hs
  tracked l hl hgoing := by
    rw [forall_goesOn_eq_false_iff.1 hexited l hl] at hgoing
    cases hgoing

end Service

namespace Activity

variable {a b : Activity} {p : Protocol} {i : Nat} {meanwhile : List Timed} {moment : Nat}

/-! ## The schedule of what happens -/

theorem happenUpTo_cons_of_le {t : Timed} (h : t.1 ≤ moment) :
    a.happenUpTo moment (t :: meanwhile) = (a.happen t.2).happenUpTo moment meanwhile := by
  rw [happenUpTo, List.takeWhile_cons_of_pos (by simpa using h)]
  rfl

theorem happenUpTo_cons_of_lt {t : Timed} (h : moment < t.1) :
    a.happenUpTo moment (t :: meanwhile) = a := by
  rw [happenUpTo, List.takeWhile_cons_of_neg (by simpa using h)]
  rfl

/-- The count changes by one connection at a time. -/
theorem Happens.active {h : Happening} (hb : a.Happens h b) :
    b.active = a.active + 1 ∨ b.active = a.active - 1 ∨ b.active = a.active := by
  cases hb with
  | dispatched => exact .inl rfl
  | returned => exact .inr (.inl rfl)
  | loopExited | started | ingested | received | ignored => exact .inr (.inr rfl)

/-- Connections change when something happens. -/
theorem exists_of_mem_connectionChanges {c : Drain.Scheduled}
    (hc : c ∈ connectionChanges meanwhile a) : ∃ t ∈ meanwhile, t.1 = c.moment := by
  induction meanwhile generalizing a with
  | nil => cases hc
  | cons t meanwhile ih =>
    have hlater : c ∈ connectionChanges meanwhile (a.happen t.2) →
        ∃ t' ∈ t :: meanwhile, t'.1 = c.moment := by
      intro hc
      obtain ⟨t', ht', hmoment⟩ := ih hc
      exact ⟨t', List.mem_cons_of_mem t ht', hmoment⟩
    rw [connectionChanges] at hc
    split at hc
    · rcases List.mem_cons.1 hc with rfl | hc
      · exact ⟨t, List.mem_cons_self, rfl⟩
      · exact hlater hc
    · split at hc
      · rcases List.mem_cons.1 hc with rfl | hc
        · exact ⟨t, List.mem_cons_self, rfl⟩
        · exact hlater hc
      · exact hlater hc

/-- The schedule of the connections leads to the count that is left of what happens. -/
theorem active_connectionChanges (hordered : meanwhile.Pairwise fun t t' => t.1 ≤ t'.1) :
    (Drain.applyAll a.manager.tracker (Drain.Schedule.upTo (connectionChanges meanwhile a)
      moment).1).active = (a.happenUpTo moment meanwhile).active := by
  induction meanwhile generalizing a with
  | nil => rfl
  | cons t meanwhile ih =>
    have hrest := ih (a := a.happen t.2) (List.pairwise_cons.1 hordered).2
    have hactive := (a.happens t.2).active
    -- What happens by the moment is on the schedule exactly if it changes the count; what
    -- happens later cuts the schedule off, as all that follows is later still.
    by_cases hle : t.1 ≤ moment
    · rw [happenUpTo_cons_of_le hle, ← hrest, connectionChanges]
      split
      · rw [Drain.Schedule.upTo_cons hle, Drain.applyAll_cons]
        refine Drain.active_applyAll_congr ?_ _
        change a.active + 1 = (a.happen t.2).active
        omega
      · split
        · rw [Drain.Schedule.upTo_cons hle, Drain.applyAll_cons]
          refine Drain.active_applyAll_congr ?_ _
          change a.active - 1 = (a.happen t.2).active
          omega
        · refine Drain.active_applyAll_congr ?_ _
          change a.active = (a.happen t.2).active
          omega
    · have hlt : ∀ c, (connectionChanges (t :: meanwhile) a).head? = some c →
          moment < c.moment := by
        intro c hc
        obtain ⟨t', ht', hmoment⟩ := exists_of_mem_connectionChanges (List.mem_of_head? hc)
        rw [← hmoment]
        rcases List.mem_cons.1 ht' with rfl | ht'
        · exact Nat.lt_of_not_le hle
        · exact (Nat.lt_of_not_le hle).trans_le ((List.pairwise_cons.1 hordered).1 t' ht')
      rw [happenUpTo_cons_of_lt (Nat.lt_of_not_le hle), Drain.Schedule.upTo_eq_nil hlt]
      rfl

/-! ## The loops that end meanwhile -/

/-- What happens by a moment, if all happens in order. -/
theorem mem_takeWhile_of_le (hordered : meanwhile.Pairwise fun t t' => t.1 ≤ t'.1) {t : Timed}
    (ht : t ∈ meanwhile) (hle : t.1 ≤ moment) : t ∈ meanwhile.takeWhile (·.1 ≤ moment) := by
  induction meanwhile with
  | nil => cases ht
  | cons t' meanwhile ih =>
    obtain ⟨hfirst, hrest⟩ := List.pairwise_cons.1 hordered
    rcases List.mem_cons.1 ht with rfl | ht
    · rw [List.takeWhile_cons_of_pos (by simpa using hle)]
      exact List.mem_cons_self
    · have hle' : t'.1 ≤ moment := (hfirst t ht).trans hle
      rw [List.takeWhile_cons_of_pos (by simpa using hle')]
      exact List.mem_cons_of_mem t' (ih hrest ht)

theorem mem_of_exitMoment? (h : exitMoment? meanwhile p i = some moment) :
    (moment, .loopExited p i) ∈ meanwhile := by
  obtain ⟨⟨moment', h'⟩, hmem, hfound⟩ := List.exists_of_findSome?_eq_some h
  dsimp only at hfound
  split at hfound
  · split at hfound
    · rename_i hsame
      obtain ⟨rfl, rfl⟩ := hsame
      obtain rfl := Option.some.inj hfound
      exact hmem
    · cases hfound
  · cases hfound

/-- A loop that exits by a moment has its first exit by then. -/
theorem endedBy_exitMoment? {t : Timed} (ht : t ∈ meanwhile.takeWhile (·.1 ≤ moment))
    (hexit : t.2 = .loopExited p i) : Drain.EndedBy moment (exitMoment? meanwhile p i) := by
  have hsome : (exitMoment? (meanwhile.takeWhile (·.1 ≤ moment)) p i).isSome = true := by
    rw [exitMoment?, List.findSome?_isSome_iff]
    exact ⟨t, ht, by simp [hexit]⟩
  obtain ⟨ended, hended⟩ := Option.isSome_iff_exists.1 hsome
  refine ⟨ended, ?_, ?_⟩
  · rw [← List.takeWhile_append_dropWhile (p := (·.1 ≤ moment)) (l := meanwhile), exitMoment?,
      List.findSome?_append]
    rw [exitMoment?] at hended
    rw [hended, Option.some_or]
  · simpa using List.mem_takeWhile_imp (mem_of_exitMoment? hended)

/-- A loop goes on at a moment if it went on before and has not exited until then. -/
theorem isServing_happenUpTo_iff : (a.happenUpTo moment meanwhile).isServing p i = true ↔
    (∀ t ∈ meanwhile.takeWhile (·.1 ≤ moment), t.2 ≠ .loopExited p i) ∧
      a.isServing p i = true := by
  unfold happenUpTo
  generalize meanwhile.takeWhile (·.1 ≤ moment) = happened
  induction happened generalizing a with
  | nil => exact ⟨fun hserving => ⟨nofun, hserving⟩, fun h => h.2⟩
  | cons t happened ih =>
    rw [List.foldl_cons, ih, (a.happens t.2).isServing p i, List.forall_mem_cons, and_left_comm,
      and_assoc]

/-- It goes on until its first exit, if all happens in order. -/
theorem isServing_happenUpTo_eq_false_iff (hordered : meanwhile.Pairwise fun t t' => t.1 ≤ t'.1) :
    (a.happenUpTo moment meanwhile).isServing p i = false ↔
      (a.isServing p i = true → Drain.EndedBy moment (exitMoment? meanwhile p i)) := by
  rw [Bool.eq_false_iff, Ne, isServing_happenUpTo_iff, not_and']
  refine imp_congr_right fun _ => ⟨fun hnot => ?_, fun hended hnone => ?_⟩
  · push Not at hnot
    obtain ⟨t, ht, hexit⟩ := hnot
    exact endedBy_exitMoment? ht hexit
  · obtain ⟨ended, hmoment, hle⟩ := hended
    exact hnone _ (mem_takeWhile_of_le hordered (mem_of_exitMoment? hmoment) hle) rfl

/-! ## Waiting while things happen -/

/-- At a moment of a wait that began at `now` every loop that is waited for has exited and no
    connection is open. -/
structure Over (a : Activity) (now : Nat) (meanwhile : List Timed) (moment : Nat) : Prop where
  begun : now ≤ moment
  exited : ∀ p i l, (a.manager.services p).loops[i]? = some l → l.tracked = true →
    (a.happenUpTo moment meanwhile).isServing p i = false
  free : (a.happenUpTo moment meanwhile).active = 0

/-- What is waited for is the exit of each loop that is tracked, and one that has exited
    before has ended when the wait begins. -/
theorem mem_loopEnds_iff {now : Nat} {ends : Option Nat} : ends ∈ a.loopEnds now meanwhile ↔
    ∃ p i l, (a.manager.services p).loops[i]? = some l ∧ l.tracked = true ∧
      ends = if l.exited then some now else exitMoment? meanwhile p i := by
  simp only [loopEnds, List.mem_flatMap, List.mem_filterMap, Prod.exists,
    List.mk_mem_zipIdx_iff_getElem?]
  constructor
  · rintro ⟨p, -, l, i, hl, hends⟩
    split at hends
    · cases hends
    · rename_i htracked
      refine ⟨p, i, l, hl, by simpa using htracked, ?_⟩
      rw [← apply_ite some] at hends
      exact (Option.some.inj hends).symm
  · rintro ⟨p, i, l, hl, htracked, rfl⟩
    refine ⟨p, p.mem_all, l, i, hl, ?_⟩
    rw [htracked, ← apply_ite some]
    rfl

/-- The loops that are waited for have all ended when none of them goes on. -/
theorem ended_loopEnds_iff (hordered : meanwhile.Pairwise fun t t' => t.1 ≤ t'.1) {now : Nat} :
    Drain.Ended now (a.loopEnds now meanwhile) moment ↔ now ≤ moment ∧
      ∀ p i l, (a.manager.services p).loops[i]? = some l → l.tracked = true →
        (a.happenUpTo moment meanwhile).isServing p i = false := by
  have hserving : ∀ {p i l}, (a.manager.services p).loops[i]? = some l →
      (a.isServing p i = true ↔ l.exited = false) := by
    intro p i l hl
    simp [isServing_iff, hl]
  constructor
  · rintro ⟨hbegun, hended⟩
    refine ⟨hbegun, fun p i l hl htracked => ?_⟩
    rw [isServing_happenUpTo_eq_false_iff hordered, hserving hl]
    intro hgoing
    have hends := hended _ (mem_loopEnds_iff.2 ⟨p, i, l, hl, htracked, rfl⟩)
    rwa [hgoing, if_neg Bool.false_ne_true] at hends
  · rintro ⟨hbegun, hexited⟩
    refine ⟨hbegun, fun ends hends => ?_⟩
    obtain ⟨p, i, l, hl, htracked, rfl⟩ := mem_loopEnds_iff.1 hends
    have hover := hexited p i l hl htracked
    rw [isServing_happenUpTo_eq_false_iff hordered, hserving hl] at hover
    split
    · exact ⟨now, rfl, hbegun⟩
    · exact hover (Bool.eq_false_of_not_eq_true ‹_›)

/-- Within the clock a drain waits until all is over, and ends after all that happens until
    then. -/
theorem exists_awaits_drain (hordered : meanwhile.Pairwise fun t t' => t.1 ≤ t'.1) {now : Nat}
    {timeout : Span} (hclock : now + timeout.nanos < clockLimit) :
    ∃ clean moment, a.drain now timeout meanwhile =
        (.returned clean moment, (a.happenUpTo moment meanwhile).untrack) ∧
      Drain.Awaits (a.Over now meanwhile) (now + timeout.nanos) clean moment := by
  obtain ⟨clean, moment, hwait, hawaits⟩ := Drain.exists_awaits_awaitAll hclock
    (a.loopEnds now meanwhile) a.manager.tracker (connectionChanges meanwhile a)
  refine ⟨clean, moment, ?_, hawaits.congr fun m => ?_⟩
  · rw [drain, hwait]
    rfl
  · rw [active_connectionChanges hordered, ended_loopEnds_iff hordered]
    exact ⟨fun h => ⟨h.1.1, h.1.2, h.2⟩, fun h => ⟨⟨h.begun, h.exited⟩, h.free⟩⟩

/-- Beyond the clock it does not begin. -/
theorem drain_of_beyond (a : Activity) {now : Nat} {timeout : Span}
    (hbeyond : clockLimit ≤ now + timeout.nanos) (meanwhile : List Timed) :
    a.drain now timeout meanwhile = (.noDeadline, a) := by
  rw [drain, Drain.awaitAll_of_beyond hbeyond]

/-! ## Drains that end clean -/

/-- The loops that go on are all waited for. -/
def Awaited (a : Activity) : Prop := ∀ p, (a.manager.services p).Awaited

/-- A drain that ends clean while all loops are waited for ends with none that goes on and
    no connection open. -/
theorem Awaited.exited_of_drain (ha : a.Awaited) {now : Nat} {timeout : Span}
    (hordered : meanwhile.Pairwise fun t t' => t.1 ≤ t'.1)
    (hdrain : (a.drain now timeout meanwhile).1 = .returned true moment) :
    (∀ p i, (a.drain now timeout meanwhile).2.isServing p i = false) ∧
      (a.drain now timeout meanwhile).2.active = 0 := by
  rcases Nat.lt_or_ge (now + timeout.nanos) clockLimit with hclock | hbeyond
  · obtain ⟨clean, moment', hreturned, hawaits⟩ := a.exists_awaits_drain hordered hclock
    rw [hreturned] at hdrain ⊢
    obtain ⟨rfl, rfl⟩ := Waited.returned.inj hdrain
    have hover := hawaits.holds
    refine ⟨fun p i => ?_, hover.free⟩
    -- A loop that still went on went on before, so it was waited for and has exited by then.
    by_contra hserving
    rw [(alike_untrack _).isServing, Bool.not_eq_false] at hserving
    obtain ⟨l, hl, hgoing⟩ := isServing_iff.1 (isServing_happenUpTo_iff.1 hserving).2
    have htracked := (ha p).tracked l (List.mem_of_getElem? hl) hgoing
    rw [hover.exited p i l hl htracked] at hserving
    cases hserving
  · rw [a.drain_of_beyond hbeyond] at hdrain
    cases hdrain

/-! ## Runs without drains that are given up -/

/-- How a drain ends. -/
def waited? (a : Activity) : Deed → Option Waited
  | .drain now timeout meanwhile _ => some (a.drain now timeout meanwhile).1
  | _ => none

/-- No drain of a run is given up while a loop goes on. -/
def Patient (a : Activity) : List Deed → Prop
  | [] => True
  | d :: deeds =>
    (∀ moment, a.waited? d = some (.returned false moment) →
      ∀ p, ∀ l ∈ ((a.perform d).manager.services p).loops, l.exited = true) ∧
    Patient (a.perform d) deeds

/-- What happens changes a service only by the exit of a loop. -/
theorem Happens.forall_services {P : Service → Prop} {h : Happening} (hb : a.Happens h b)
    (hexit : ∀ s i k, P s → P (Service.exitLoop s i k).1)
    (ha : ∀ p, P (a.manager.services p)) (p : Protocol) : P (b.manager.services p) := by
  cases hb with
  | loopExited q i =>
    exact Manager.forall_services_update (P := fun _ => P) (hexit _ i a.kernel (ha q))
      (fun r _ => ha r) p
  | dispatched | started | ingested | returned | received | ignored => exact ha p

theorem ordered_drain (ha : ∀ p, (a.manager.services p).Ordered) (now : Nat) (timeout : Span)
    (meanwhile : List Timed) (p : Protocol) :
    ((a.drain now timeout meanwhile).2.manager.services p).Ordered := by
  refine drain_rec (P := fun b => ∀ p, (b.manager.services p).Ordered) ?_ ?_ ha now timeout
    meanwhile p
  · exact fun b h hb => (b.happens h).forall_services (fun _ i k hs => hs.exitLoop i k) hb
  · exact fun b hb p => (hb p).track fun _ => false

/-- A drain that is not given up while a loop goes on leaves none behind. -/
theorem Awaited.perform (ha : a.Awaited) (d : Deed)
    (hpatient : ∀ moment, a.waited? d = some (.returned false moment) →
      ∀ p, ∀ l ∈ ((a.perform d).manager.services p).loops, l.exited = true) :
    (a.perform d).Awaited := by
  have hstart := Manager.forall_services_startService (P := Service.Awaited)
    fun _ inherited k hs => hs.start inherited k
  cases d with
  | run manifest base => exact Manager.run_rec hstart ha manifest base a.kernel
  | resume h => exact Manager.startInherited_rec hstart ha h.entries a.kernel
  | shutdown => exact Manager.forall_services_forEach (fun _ k hs => hs.stop k) ha a.kernel
  | happen h => exact (a.happens h).forall_services (fun _ i k hs => hs.exitLoop i k) ha
  | exportSockets | elsewhere => exact ha
  | drain now timeout meanwhile hordered =>
    have hawaited : (∀ p i, (a.drain now timeout meanwhile).2.isServing p i = false) →
        (a.drain now timeout meanwhile).2.Awaited := fun hexited p =>
      (ordered_drain (fun p => (ha p).toOrdered) now timeout meanwhile p).awaited (hexited p)
    rcases a.drain_cases now timeout meanwhile with hsame | ⟨clean, moment, -, hreturned⟩
    · rw [Activity.perform, hsame]
      exact ha
    · have hwaited : (a.drain now timeout meanwhile).1 = .returned clean moment :=
        congrArg Prod.fst hreturned
      cases clean with
      | true => exact hawaited (ha.exited_of_drain hordered hwaited).1
      | false =>
        have hexited := hpatient moment (congrArg some hwaited)
        exact hawaited fun p => isServing_eq_false_iff.2 (hexited p)

theorem Awaited.performAll {deeds : List Deed} (ha : a.Awaited) (hpatient : a.Patient deeds) :
    (a.performAll deeds).Awaited := by
  induction deeds generalizing a with
  | nil => exact ha
  | cons d deeds ih => exact ih (ha.perform d hpatient.1) hpatient.2

theorem awaited_create (listen : ListenConfig) (settings : Settings) (k : Kernel) :
    (create listen settings k).Awaited := fun p =>
  (Service.ordered_new p (listen.spec p)).awaited fun _ => rfl

/-! ## After a clean end -/

/-- Nothing is left that could send points to the sink, and these points have got there. -/
structure Silent (a : Activity) (points : List Point) : Prop extends Quiet a where
  datagrams : ∀ i, a.isServing .graphiteUdp i = false
  delivered : a.delivered = points

theorem Silent.happens {points : List Point} {h : Happening} (ha : a.Silent points)
    (hb : a.Happens h b) : b.Silent points := by
  refine ⟨ha.toQuiet.happens hb, fun i => Bool.eq_false_of_not_eq_true fun hgoing => ?_, ?_⟩
  · have hbefore := ((hb.isServing .graphiteUdp i).1 hgoing).2
    rw [ha.datagrams] at hbefore
    cases hbefore
  · cases hb with
    | ingested hstate => cases ha.eq_returned hstate
    | received hserving =>
      rw [ha.datagrams] at hserving
      cases hserving
    | loopExited | dispatched | started | returned | ignored => exact ha.delivered

theorem Silent.alike {points : List Point} (ha : a.Silent points) (hb : a.Alike b) :
    b.Silent points :=
  ⟨ha.toQuiet.alike hb, fun i => (hb.isServing .graphiteUdp i).trans (ha.datagrams i),
    hb.delivered.trans ha.delivered⟩

theorem Silent.performAll {points : List Point} {deeds : List Deed} (ha : a.Silent points)
    (hdeeds : ∀ d ∈ deeds, d.isStart = false) : (a.performAll deeds).Silent points := by
  refine performAll_rec (P := (Silent · points)) (fun b d hd hb => ?_) ha
  exact perform_rec (P := (Silent · points)) (fun c h hc => hc.happens (c.happens h))
    (fun _ _ halike hc => hc.alike halike) hb (hdeeds d hd)

/-- In every run in which no drain has been given up while a loop went on: when a drain ends
    clean, every loop that was ever spawned has exited, no connection is counted, and
    whatever follows without a start, no point reaches the sink. -/
theorem drain_clean (listen : ListenConfig) (settings : Settings) (k : Kernel) (deeds : List Deed)
    (hpatient : (create listen settings k).Patient deeds) (now : Nat) (timeout : Span)
    (meanwhile : List Timed) (hordered : meanwhile.Pairwise fun t t' => t.1 ≤ t'.1)
    (hdrain : (((create listen settings k).performAll deeds).drain now timeout meanwhile).1 =
      .returned true moment) :
    let b := (((create listen settings k).performAll deeds).drain now timeout meanwhile).2
    (∀ p, ∀ l ∈ (b.manager.services p).loops, l.exited = true) ∧ b.active = 0 ∧
      ∀ later : List Deed, (∀ d ∈ later, d.isStart = false) →
        (b.performAll later).delivered = b.delivered := by
  intro b
  have hawaited := (awaited_create listen settings k).performAll hpatient
  obtain ⟨hexited, hzero⟩ := hawaited.exited_of_drain hordered hdrain
  have hcounted : b.Counted :=
    (counted_performAll listen settings k deeds).perform (.drain now timeout meanwhile hordered)
  have hsilent : b.Silent b.delivered :=
    ⟨hcounted.quiet (fun p _ => hexited p) hzero, hexited .graphiteUdp, rfl⟩
  refine ⟨fun p => isServing_eq_false_iff.1 (hexited p), hzero, fun later hlater => ?_⟩
  exact (hsilent.performAll hlater).delivered

/-- A drain is given up for a connection after the loop has exited; the next one ends when
    the handler has returned. -/
theorem drain_clean_after_connection :
    let k : Kernel := { table := ⟨[(3, ⟨⟨40, .listener ⟨.loopback, 2003⟩⟩, true⟩)]⟩ }
    let deeds : List Deed := [.resume ⟨[("gt", 3)]⟩, .happen (.dispatched .graphiteText 0),
      .shutdown,
      .drain 0 (.ofNanos 5) [(1, .loopExited .graphiteText 0)] (List.pairwise_singleton _ _)]
    let meanwhile : List Timed := [(6, .started 0), (7, .returned 0)]
    (create .loopback {} k).Patient deeds ∧
      (((create .loopback {} k).performAll deeds).drain 5 (.ofNanos 5) meanwhile).1 =
        .returned true 7 ∧
      (((create .loopback {} k).performAll deeds).drain 5 (.ofNanos 5) meanwhile).2.active = 0 := by
  intro k deeds meanwhile
  have hpatient : (create .loopback {} k).Patient deeds := by
    refine ⟨nofun, nofun, nofun, fun _ _ p => ?_, trivial⟩
    cases p <;> decide +kernel
  have hdrain : (((create .loopback {} k).performAll deeds).drain 5 (.ofNanos 5) meanwhile).1 =
      .returned true 7 := by decide +kernel
  have hordered : meanwhile.Pairwise fun t t' => t.1 ≤ t'.1 := by decide
  have hclean := drain_clean .loopback {} k deeds hpatient 5 (.ofNanos 5) meanwhile hordered hdrain
  exact ⟨hpatient, hdrain, hclean.2.1⟩

/-- What a drain leaves behind: the loop goes on after a shutdown, and the next drain ends
    clean at once. -/
theorem drain_of_left_behind :
    let k : Kernel := { table := ⟨[(3, ⟨⟨40, .listener ⟨.loopback, 2003⟩⟩, true⟩)]⟩ }
    let deeds : List Deed :=
      [.resume ⟨[("gt", 3)]⟩, .drain 0 (.ofMillis 15) [] .nil, .shutdown]
    let a := (create .loopback {} k).performAll deeds
    (a.drain 15000000 (.ofSeconds 2) []).1 = .returned true 15000000 ∧
      ∃ l ∈ ((a.drain 15000000 (.ofSeconds 2) []).2.manager.services .graphiteText).loops,
        l.exited = false := by
  decide +kernel

end Activity
end MetricIntake
