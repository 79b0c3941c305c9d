-- SUMMARY: Restarts that fail, any number of them: every bound service goes on with its socket and a new loop, and the rest is as it was.
import MetricIntake.Proofs.Service.Serving
import MetricIntake.Proofs.Service.Succession

/-!
# Resuming after restarts that fail

When a successor cannot be started, a manager that has exported its sockets and stopped
its services resumes on what it exported. A service that was bound gets a new loop on
the file that it was bound to, whether the loops before have come to their end or not,
and those that have not are waited for as before. A service that was not bound takes
no part in this. So a restart may fail as often as it likes.

A loop that goes on when a drain is given up is not waited for any more, and no restart
changes that. If a service has no such loop, then all its loops that have not exited are
waited for, however many there are by then (`Gains.keepsTrack`).

Loops exit when they like, meanwhile and in between. The exits are listed, so what is
left of a service that takes no part can be told exactly.
-/

namespace MetricIntake

/-! ## A loop at a later moment -/

/-- What may have become of a loop. If it has not exited, its end is waited for as it
    was. -/
structure ServingLoop.Later (l l' : ServingLoop) : Prop where
  generation : l'.generation = l.generation
  socket : l'.socket = l.socket
  stopRequested : l.stopRequested = true → l'.stopRequested = true
  exited : l.exited = true → l'.exited = true
  tracked : l'.exited = false → l'.tracked = l.tracked

namespace ServingLoop.Later

theorem refl (l : ServingLoop) : l.Later l := ⟨rfl, rfl, id, id, fun _ => rfl⟩

theorem of_not_exited {l l' : ServingLoop} (h : l.Later l') (hgoing : l'.exited = false) :
    l.exited = false := by
  by_contra hexited
  rw [Bool.not_eq_false] at hexited
  rw [h.exited hexited] at hgoing
  cases hgoing

theorem trans {l l' l'' : ServingLoop} (h : l.Later l') (h' : l'.Later l'') : l.Later l'' where
  generation := h'.generation.trans h.generation
  socket := h'.socket.trans h.socket
  stopRequested hstopped := h'.stopRequested (h.stopRequested hstopped)
  exited hexited := h'.exited (h.exited hexited)
  tracked hgoing := (h'.tracked hgoing).trans (h.tracked (h'.of_not_exited hgoing))

theorem stopped (l : ServingLoop) : l.Later l.stopped :=
  ⟨rfl, rfl, fun _ => rfl, id, fun _ => rfl⟩

theorem ended (l : ServingLoop) : l.Later l.ended := ⟨rfl, rfl, id, fun _ => rfl, nofun⟩

end ServingLoop.Later

/-! ## A service at a later moment -/

namespace Service

variable {s s' s'' : Service} {l l' : ServingLoop} {k : Kernel} {n n' : Nat}

/-- A service at a later moment, and how many loops it has got meanwhile. New loops are
    waited for unless they have exited. -/
structure Gains (s : Service) (n : Nat) (s' : Service) : Prop where
  length : s'.loops.length = s.loops.length + n
  earlier : ∀ (i : Nat) (l : ServingLoop), s.loops[i]? = some l →
    ∃ l', s'.loops[i]? = some l' ∧ l.Later l'
  fresh : ∀ (i : Nat) (l' : ServingLoop), s.loops.length ≤ i → s'.loops[i]? = some l' →
    l'.exited = false → l'.tracked = true

theorem Gains.trans (h : s.Gains n s') (h' : s'.Gains n' s'') : s.Gains (n + n') s'' where
  length := by rw [h'.length, h.length, Nat.add_assoc]
  earlier i l hl := by
    obtain ⟨l', hl', hlater⟩ := h.earlier i l hl
    obtain ⟨l'', hl'', hlater'⟩ := h'.earlier i l' hl'
    exact ⟨l'', hl'', hlater.trans hlater'⟩
  fresh i l'' hi hl'' hgoing := by
    cases hl' : s'.loops[i]? with
    | none => exact h'.fresh i l'' (List.getElem?_eq_none_iff.1 hl') hl'' hgoing
    | some l' =>
      obtain ⟨other, hother, hlater⟩ := h'.earlier i l' hl'
      obtain rfl : l'' = other := Option.some.inj (hl''.symm.trans hother)
      rw [hlater.tracked hgoing]
      exact h.fresh i l' hi hl' (hlater.of_not_exited hgoing)

/-- Every loop goes further by itself. -/
theorem Gains.of_map {f : ServingLoop → ServingLoop} (hloops : s'.loops = s.loops.map f)
    (hf : ∀ l ∈ s.loops, l.Later (f l)) : s.Gains 0 s' where
  length := by rw [hloops, List.length_map, Nat.add_zero]
  earlier i l hl := by
    refine ⟨f l, ?_, hf l (List.mem_of_getElem? hl)⟩
    rw [hloops, List.getElem?_map, hl]
    rfl
  fresh i l' hi hl' := by
    obtain ⟨hlt, -⟩ := List.getElem?_eq_some_iff.1 hl'
    rw [hloops, List.length_map] at hlt
    omega

theorem Gains.refl (s : Service) : s.Gains 0 s :=
  .of_map (List.map_id s.loops).symm fun l _ => .refl l

theorem Gains.serve (s : Service) (b : BoundSocket) : s.Gains 1 (s.serve b) where
  length := by rw [Service.serve, List.length_append, List.length_singleton]
  earlier i l hl := by
    obtain ⟨hlt, -⟩ := List.getElem?_eq_some_iff.1 hl
    exact ⟨l, (List.getElem?_append_left hlt).trans hl, .refl l⟩
  fresh i l' hi hl' _ := by
    rw [Service.serve, List.getElem?_append_right hi] at hl'
    obtain rfl := List.mem_singleton.1 (List.mem_of_getElem? hl')
    rfl

/-- A new loop comes after the loops that there were; of those, the ones that have exited
    are not waited for any more. -/
theorem Gains.serve_ready (s : Service) (b : BoundSocket) : s.Gains 1 (s.ready.serve b) := by
  have hready : s.Gains 0 s.ready := by
    refine .of_map (congrArg (List.map _) s.loops_renew) fun l _ => ?_
    refine ⟨rfl, rfl, id, id, fun hgoing => ?_⟩
    dsimp only at hgoing ⊢
    rw [hgoing, Bool.not_false, Bool.and_true]
  exact hready.trans (.serve s.ready b)

/-- The end of every loop that goes on is waited for: no drain has given one up. -/
def KeepsTrack (s : Service) : Prop := ∀ l ∈ s.loops, l.exited = false → l.tracked = true

theorem Gains.keepsTrack (h : s.Gains n s') (hs : s.KeepsTrack) : s'.KeepsTrack := by
  intro l' hl' hgoing
  obtain ⟨i, hi⟩ := List.mem_iff_getElem?.1 hl'
  cases hl : s.loops[i]? with
  | none => exact h.fresh i l' (List.getElem?_eq_none_iff.1 hl) hi hgoing
  | some l =>
    obtain ⟨other, hother, hlater⟩ := h.earlier i l hl
    obtain rfl : l' = other := Option.some.inj (hi.symm.trans hother)
    rw [hlater.tracked hgoing]
    exact hs l (List.mem_of_getElem? hl) (hlater.of_not_exited hgoing)

theorem Ordered.gains_advance (hs : s.Ordered) (hl : l ∈ s.loops) (hlater : l.Later l') :
    s.Gains 0 (s.advance l l' k).1 := by
  refine .of_map rfl fun other hother => ?_
  split
  · rename_i hsame
    rwa [hs.eq_of_generation hother hl hsame]
  · exact .refl other

theorem Ordered.gains_stop (hs : s.Ordered) (k : Kernel) : s.Gains 0 (s.stop k).1 := by
  rcases stop_cases hs k with hsame | ⟨l, hl, -, -, hstop⟩
  · rw [hsame]
    exact .refl s
  · rw [hstop]
    exact hs.gains_advance hl (.stopped l)

theorem Ordered.gains_exitLoop (hs : s.Ordered) (i : Nat) (k : Kernel) :
    s.Gains 0 (s.exitLoop i k).1 := by
  rcases exitLoop_cases hs i k with hsame | ⟨l, hl, -, -, hexit⟩
  · rw [hsame]
    exact .refl s
  · rw [hexit]
    exact hs.gains_advance hl (.ended l)

/-- A service that is not bound has nothing to stop. -/
theorem Ordered.stop_of_ne_bound (hs : s.Ordered) (hstate : s.state ≠ .bound) (k : Kernel) :
    s.stop k = (s, k) := by
  rcases stop_cases hs k with hsame | ⟨l, hl, -, hgoing, -⟩
  · exact hsame
  · refine absurd (hs.bound_iff.2 ?_) hstate
    exact List.ne_nil_of_mem (mem_going_iff.2 ⟨hl, hgoing⟩)

/-! ## Exits of loops -/

/-- What a loop that exits makes of its service does not depend on the kernel. -/
theorem exitLoop_fst (s : Service) (i : Nat) (k k' : Kernel) :
    (s.exitLoop i k).1 = (s.exitLoop i k').1 := by
  unfold exitLoop
  split
  · rfl
  · split
    · rfl
    · dsimp only
      split
      · cases hholding : s.socket.holding <;> simp [ListeningSocket.dropHandle, hholding]
      · rfl

theorem spec_exitLoop (s : Service) (i : Nat) (k : Kernel) : (s.exitLoop i k).1.spec = s.spec := by
  unfold exitLoop
  split
  · rfl
  · split
    · rfl
    · dsimp only
      split <;> rfl

/-- A service after some of its loops have exited, one after the other. -/
def afterExits (s : Service) (indices : List Nat) : Service :=
  indices.foldl (fun s i => (s.exitLoop i {}).1) s

theorem afterExits_append (s : Service) (indices indices' : List Nat) :
    s.afterExits (indices ++ indices') = (s.afterExits indices).afterExits indices' :=
  List.foldl_append

theorem Ordered.afterExits (hs : s.Ordered) (indices : List Nat) :
    (s.afterExits indices).Ordered := by
  induction indices generalizing s with
  | nil => exact hs
  | cons i indices ih => exact ih (hs.exitLoop i {})

theorem Ordered.gains_afterExits (hs : s.Ordered) (indices : List Nat) :
    s.Gains 0 (s.afterExits indices) := by
  induction indices generalizing s with
  | nil => exact .refl s
  | cons i indices ih => exact (hs.gains_exitLoop i {}).trans (ih (hs.exitLoop i {}))

theorem holding_afterExits (s : Service) (indices : List Nat) :
    (s.afterExits indices).socket.holding = s.socket.holding := by
  induction indices generalizing s with
  | nil => rfl
  | cons i indices ih => exact (ih _).trans (s.holding_exitLoop i {})

theorem spec_afterExits (s : Service) (indices : List Nat) :
    (s.afterExits indices).spec = s.spec := by
  induction indices generalizing s with
  | nil => rfl
  | cons i indices ih => exact (ih _).trans (s.spec_exitLoop i {})

theorem state_afterExits_eq_bound_iff (s : Service) (indices : List Nat) :
    (s.afterExits indices).state = .bound ↔ s.state = .bound := by
  rw [state_eq_bound_iff, holding_afterExits, ← state_eq_bound_iff]

/-- A service that is stopped, loops exiting before and after. -/
def stoppedAmid (s : Service) (before after : List Nat) (k : Kernel) : Service :=
  ((s.afterExits before).stop k).1.afterExits after

theorem spec_stoppedAmid (s : Service) (before after : List Nat) (k : Kernel) :
    (s.stoppedAmid before after k).spec = s.spec := by
  rw [stoppedAmid, spec_afterExits, Service.stop, spec_afterExits]

theorem Ordered.gains_stoppedAmid (hs : s.Ordered) (before after : List Nat) (k : Kernel) :
    s.Gains 0 (s.stoppedAmid before after k) := by
  have hbefore := hs.afterExits before
  have hstopped : s.Gains 0 ((s.afterExits before).stop k).1 :=
    (hs.gains_afterExits before).trans (hbefore.gains_stop k)
  exact hstopped.trans ((hbefore.stop k).gains_afterExits after)

/-- All that becomes of a service that is not bound is that its loops exit. -/
theorem Ordered.stoppedAmid_of_ne_bound (hs : s.Ordered) (hstate : s.state ≠ .bound)
    (before after : List Nat) (k : Kernel) :
    s.stoppedAmid before after k = s.afterExits (before ++ after) := by
  have hidle := mt (state_afterExits_eq_bound_iff s before).1 hstate
  rw [stoppedAmid, (hs.afterExits before).stop_of_ne_bound hidle, afterExits_append]

/-- A service whose latest loop is new and serves the socket that it is bound to. This
    loop alone has not been asked to stop. -/
def ServedAnew (s : Service) : Prop :=
  ∃ b, s.socket.holding = .held b ∧
    s.loops.getLast? = some { generation := s.generation, socket := b } ∧
    s.going = [{ generation := s.generation, socket := b }]

theorem Ordered.servedAnew (hs : s.Ordered) (hstate : s.state ≠ .bound) (b : BoundSocket) :
    (s.ready.serve b).ServedAnew := by
  obtain ⟨hready, hearlier⟩ := hs.ready hstate
  refine ⟨b, rfl, List.getLast?_concat, ?_⟩
  have hnone : s.ready.going = [] := by
    refine List.filter_eq_nil_iff.2 fun l hl => ?_
    rw [hready.earlier l hl (hearlier l hl)]
    decide
  rw [going, Service.serve, List.filter_append]
  exact congrArg (· ++ _) hnone

end Service

namespace Manager

variable {m m₁ m₂ m' : Manager} {k k₁ k₂ k' : Kernel} {p : Protocol} {file : OpenFile}
  {kept : List Descriptor} {exits exits' : List (Protocol × Nat)} {n n' : Nat}
  {entries : List (String × Descriptor)} {sockets : List (Protocol × OpenFile)}

/-! ## Meanwhile -/

/-- The loops of one service among those that exit. -/
def exitsOf (exits : List (Protocol × Nat)) (p : Protocol) : List Nat :=
  exits.filterMap fun exit => if exit.1 = p then some exit.2 else none

theorem exitsOf_append (exits exits' : List (Protocol × Nat)) (p : Protocol) :
    exitsOf (exits ++ exits') p = exitsOf exits p ++ exitsOf exits' p :=
  List.filterMap_append

/-- What happens by itself while some descriptors are kept: loops exit, as they are
    listed, connections are counted, and others open and close descriptors of their
    own. -/
inductive Meanwhile (m : Manager) (k : Kernel) (kept : List Descriptor) :
    List (Protocol × Nat) → Manager → Kernel → Prop where
  | nothing : Meanwhile m k kept [] m k
  | loopExited {exits : List (Protocol × Nat)} {m' : Manager} {k' : Kernel}
    (h : Meanwhile m k kept exits m' k') (p : Protocol) (i : Nat) :
    Meanwhile m k kept (exits ++ [(p, i)]) (m'.exitLoop p i k').1 (m'.exitLoop p i k').2
  | counted {exits : List (Protocol × Nat)} {m' : Manager} {k' : Kernel}
    (h : Meanwhile m k kept exits m' k') (tracker : DrainTracker) :
    Meanwhile m k kept exits { m' with tracker } k'
  | elsewhere {exits : List (Protocol × Nat)} {m' : Manager} {k' k'' : Kernel}
    (h : Meanwhile m k kept exits m' k')
    (hsame : ∀ fd, fd ∈ kept ∨ fd ∈ m'.owned → k''.table.get? fd = k'.table.get? fd) :
    Meanwhile m k kept exits m' k''

namespace Meanwhile

theorem services (h : m.Meanwhile k kept exits m' k') (p : Protocol) :
    m'.services p = (m.services p).afterExits (exitsOf exits p) := by
  induction h with
  | nothing => rfl
  | @loopExited exits m' k' _ q i ih =>
    rw [exitsOf_append, Service.afterExits_append, ← ih]
    by_cases hpq : p = q
    · subst hpq
      have hexits : exitsOf [(p, i)] p = [i] := by simp [exitsOf]
      rw [hexits]
      exact (services_update_self m' p _).trans ((m'.services p).exitLoop_fst i k' {})
    · have hexits : exitsOf [(q, i)] p = [] := by simp [exitsOf, Ne.symm hpq]
      rw [hexits]
      exact services_update_of_ne m' _ hpq
  | counted _ _ ih => exact ih
  | elsewhere _ _ ih => exact ih

theorem sound (hm : m.Sound k) (h : m.Meanwhile k kept exits m' k') : m'.Sound k' := by
  induction h with
  | nothing => exact hm
  | loopExited _ p i ih => exact (evolves_exitLoop ih p i).sound
  | counted _ tracker ih => exact ih.counted tracker
  | elsewhere _ hsame ih => exact ih.congr fun fd howned => hsame fd (.inr howned)

theorem serves (hm : m.Sound k) (h : m.Meanwhile k kept exits m' k')
    (hserves : m.Serves k p file) : m'.Serves k' p file := by
  induction h with
  | nothing => exact hserves
  | loopExited h q i ih => exact ih.exitLoop (h.sound hm) q i
  | counted _ _ ih => exact ih
  | elsewhere h hsame ih => exact ih.congr (h.sound hm) fun fd howned => hsame fd (.inr howned)

theorem offered (h : m.Meanwhile k (entries.map (·.2)) exits m' k')
    (hoffered : m.Offered k entries sockets) : m'.Offered k' entries sockets := by
  induction h with
  | nothing => exact hoffered
  | loopExited h q i ih => exact ih.evolves (evolves_exitLoop ih.sound q i) fun _ _ => id
  | counted _ tracker ih => exact { ih with sound := ih.sound.counted tracker }
  | elsewhere _ hsame ih => exact ih.congr hsame

theorem awaits (h : m.Meanwhile k (entries.map (·.2)) exits m' k')
    (hawaits : m.Awaits k entries sockets) : m'.Awaits k' entries sockets where
  __ := h.offered hawaits.toOffered
  idle s hs := by
    rw [h.services s.1, Ne, Service.state_afterExits_eq_bound_iff]
    exact hawaits.idle s hs

/-- What becomes of a service that is stopped while time goes by. -/
theorem exists_services_stopped (h : m.Meanwhile k kept exits m₁ k₁)
    (h' : (m₁.shutdown k₁).1.Meanwhile (m₁.shutdown k₁).2 kept exits' m' k') (p : Protocol) :
    ∃ k₂, m'.services p = (m.services p).stoppedAmid (exitsOf exits p) (exitsOf exits' p) k₂ := by
  -- each service is stopped once, on what the kernel is by then
  obtain ⟨k₂, hstop⟩ := exists_services_forEach Service.stop m₁ k₁ p
  refine ⟨k₂, ?_⟩
  rw [Service.stoppedAmid, ← h.services p, ← hstop]
  exact h'.services p

end Meanwhile

/-! ## Restarts that fail -/

/-- A restart that fails: the sockets are exported, the services are stopped, and then
    resumed on what was exported. -/
inductive FailedRestart (m : Manager) (k : Kernel) :
    Except ServiceError Unit → List (Protocol × Nat) → Manager → Kernel → Prop where
  | intro {exits exits' : List (Protocol × Nat)} {m₁ m₂ : Manager} {k₁ k₂ : Kernel}
    (hexported : m.Meanwhile (m.exportSockets k).2 (m.exportSockets k).1.descriptors
      exits m₁ k₁)
    (hstopped : (m₁.shutdown k₁).1.Meanwhile (m₁.shutdown k₁).2
      (m.exportSockets k).1.descriptors exits' m₂ k₂) :
    FailedRestart m k (m₂.resume (m.exportSockets k).1 k₂).1 (exits ++ exits')
      (m₂.resume (m.exportSockets k).1 k₂).2.1 (m₂.resume (m.exportSockets k).1 k₂).2.2

/-- Restarts that fail one after the other, and how the services were resumed each
    time. -/
inductive FailedRestarts (m : Manager) (k : Kernel) :
    List (Except ServiceError Unit) → List (Protocol × Nat) → Manager → Kernel → Prop where
  | none : FailedRestarts m k [] [] m k
  | next {answers : List (Except ServiceError Unit)} {answer : Except ServiceError Unit}
    {exits exits₁ exits₂ : List (Protocol × Nat)} {m₁ m₂ m' : Manager} {k₁ k₂ k' : Kernel}
    (h : FailedRestarts m k answers exits m₁ k₁) (hmeanwhile : m₁.Meanwhile k₁ [] exits₁ m₂ k₂)
    (hlast : m₂.FailedRestart k₂ answer exits₂ m' k') :
    FailedRestarts m k (answers ++ [answer]) (exits ++ exits₁ ++ exits₂) m' k'

/-- What is left of a manager after some restarts have failed. -/
structure Recovers (m : Manager) (k : Kernel) (n : Nat) (exits : List (Protocol × Nat))
    (m' : Manager) (k' : Kernel) : Prop where
  sound : m'.Sound k'
  /-- A bound service is bound to the same file, at the same address. -/
  bound : ∀ p, (m.services p).state = .bound → ∃ file, m.Serves k p file ∧ m'.Serves k' p file ∧
    (m'.services p).address? = (m.services p).address?
  /-- It has a new loop for every restart. -/
  loops : ∀ p, (m.services p).state = .bound → (m.services p).Gains n (m'.services p)
  /-- Other services are as they were, but for those of their loops that have exited. -/
  others : ∀ p, (m.services p).state ≠ .bound → (m'.services p).state ≠ .bound ∧
    m'.services p = (m.services p).afterExits (exitsOf exits p)

theorem Recovers.state_eq_bound_iff (h : m.Recovers k n exits m' k') (p : Protocol) :
    (m'.services p).state = .bound ↔ (m.services p).state = .bound := by
  constructor
  · intro hstate
    by_contra hne
    exact (h.others p hne).1 hstate
  · intro hstate
    obtain ⟨file, -, hserves, -⟩ := h.bound p hstate
    exact hserves.state

/-- A service that is bound to the same file is at the same address. -/
theorem Sound.exists_serves_both (hm : m.Sound k) (hm' : m'.Sound k')
    (hserves : ∀ file, m.Serves k p file → m'.Serves k' p file)
    (hstate : (m.services p).state = .bound) :
    ∃ file, m.Serves k p file ∧ m'.Serves k' p file ∧
      (m'.services p).address? = (m.services p).address? := by
  obtain ⟨file, hbefore⟩ := hm.exists_serves hstate
  have hafter := hserves file hbefore
  exact ⟨file, hbefore, hafter, hbefore.address?_eq hm hm' hafter⟩

theorem Recovers.trans (h : m.Recovers k n exits m₁ k₁) (h' : m₁.Recovers k₁ n' exits' m' k') :
    m.Recovers k (n + n') (exits ++ exits') m' k' where
  sound := h'.sound
  bound p hstate := by
    obtain ⟨file, hbefore, hbetween, haddress⟩ := h.bound p hstate
    obtain ⟨file', hbetween', hafter, haddress'⟩ := h'.bound p hbetween.state
    obtain rfl := hbetween.unique hbetween'
    exact ⟨file, hbefore, hafter, haddress'.trans haddress⟩
  loops p hstate := (h.loops p hstate).trans (h'.loops p ((h.state_eq_bound_iff p).2 hstate))
  others p hstate := by
    obtain ⟨hstate₁, hservice₁⟩ := h.others p hstate
    obtain ⟨hstate', hservice'⟩ := h'.others p hstate₁
    rw [exitsOf_append, Service.afterExits_append, ← hservice₁]
    exact ⟨hstate', hservice'⟩

theorem Meanwhile.recovers (hm : m.Sound k) (h : m.Meanwhile k kept exits m' k') :
    m.Recovers k 0 exits m' k' where
  sound := h.sound hm
  bound p hstate := hm.exists_serves_both (h.sound hm) (fun _ => h.serves hm) hstate
  loops p _ := by
    rw [h.services p]
    exact (hm.service p).gains_afterExits _
  others p hstate := by
    rw [h.services p, Ne, Service.state_afterExits_eq_bound_iff]
    exact ⟨hstate, rfl⟩

/-- Resuming on what was exported gives every service that was bound a new loop on its
    file, and leaves the others alone. -/
theorem Exports.exists_resume {k₀ : Kernel} (hexports : m.Exports k Protocol.all entries sockets k₀)
    (hawaits : m₁.Awaits k₁ entries sockets)
    (hspec : ∀ p, (m.services p).state = .bound → (m₁.services p).spec.isEmpty = false) :
    ∃ m' k', m₁.resume ⟨entries⟩ k₁ = (.ok (), m', k') ∧ m'.Sound k' ∧
      (∀ p file, m.Serves k p file → m₁.StartedOn p file m' k') ∧
      ∀ p, (m.services p).state ≠ .bound → m'.services p = m₁.services p := by
  obtain ⟨m', k', hstart, hstarted, hothers⟩ := hawaits.startInherited fun s hs =>
    hspec s.1 (hexports.exists_socket_iff.1 ⟨s.2, hs⟩)
  have hevolves := evolves_startInherited hawaits.sound hawaits.nodup hawaits.loose
  rw [hstart] at hevolves
  refine ⟨m', k', hstart, hevolves.sound, fun p file hserves => ?_, fun p hstate => ?_⟩
  · exact hstarted _ (hexports.mem_sockets hserves)
  · exact hothers p (mt hexports.mem_protocols_iff.1 hstate)

/-- A restart that fails leads to services that are resumed, every bound one and no
    other. -/
theorem FailedRestart.recovers {answer : Except ServiceError Unit} (hm : m.Sound k)
    (h : m.FailedRestart k answer exits m' k') :
    answer = .ok () ∧ m.Recovers k 1 exits m' k' ∧
      ∀ p, (m.services p).state = .bound → (m'.services p).ServedAnew := by
  obtain @⟨exits₁, exits₂, m₁, m₂, k₁, k₂, hexported, hstopped⟩ := h
  obtain ⟨entries, sockets, k₀, hexport, hexports⟩ := hm.exists_exportSockets
  simp only [hexport] at hexported hstopped ⊢
  have hservice := hexported.exists_services_stopped hstopped
  have hawaits : m₂.Awaits k₂ entries sockets :=
    hstopped.awaits (hexported.offered (hexports.offered hm)).shutdown
  have hidle : ∀ p, (m.services p).state = .bound → (m₂.services p).state ≠ .bound := by
    intro p hstate
    obtain ⟨file, hs⟩ := hexports.exists_socket_iff.2 hstate
    exact hawaits.idle _ hs
  have hspec : ∀ p, (m.services p).state = .bound → (m₂.services p).spec.isEmpty = false := by
    intro p hstate
    obtain ⟨file, hserves⟩ := hm.exists_serves hstate
    obtain ⟨-, -, -, hspec⟩ := hserves.adoptable hm
    obtain ⟨k₃, hservice⟩ := hservice p
    rw [hservice, Service.spec_stoppedAmid]
    exact hspec
  obtain ⟨m', k', hresume, hm', hstarted, hothers⟩ := hexports.exists_resume hawaits hspec
  have hserved : ∀ p, (m.services p).state = .bound →
      ∃ b, m'.services p = (m₂.services p).ready.serve b := by
    intro p hstate
    obtain ⟨file, hserves⟩ := hm.exists_serves hstate
    exact (hstarted p file hserves).imp fun _ hb => hb.1
  rw [hresume]
  refine ⟨rfl, ⟨hm', ?_, ?_, ?_⟩, ?_⟩ <;> intro p hstate
  · exact hm.exists_serves_both hm' (fun file hserves => (hstarted p file hserves).serves) hstate
  · obtain ⟨b, hb⟩ := hserved p hstate
    obtain ⟨k₃, hservice⟩ := hservice p
    have hgains := (hm.service p).gains_stoppedAmid (exitsOf exits₁ p) (exitsOf exits₂ p) k₃
    rw [← hservice] at hgains
    rw [hb]
    exact hgains.trans (.serve_ready _ b)
  · obtain ⟨k₃, hservice⟩ := hservice p
    rw [(hm.service p).stoppedAmid_of_ne_bound hstate, ← exitsOf_append] at hservice
    rw [hothers p hstate, hservice, Ne, Service.state_afterExits_eq_bound_iff]
    exact ⟨hstate, rfl⟩
  · obtain ⟨b, hb⟩ := hserved p hstate
    rw [hb]
    exact (hawaits.sound.service p).servedAnew (hidle p hstate) b

theorem Recovers.refl (hm : m.Sound k) : m.Recovers k 0 [] m k :=
  Meanwhile.recovers hm (.nothing : m.Meanwhile k [] [] m k)

/-- Every service has the loops that it had, and new ones if it was bound. -/
theorem Recovers.exists_gains (hm : m.Sound k) (h : m.Recovers k n exits m' k') (p : Protocol) :
    ∃ n', (m.services p).Gains n' (m'.services p) := by
  by_cases hstate : (m.services p).state = .bound
  · exact ⟨n, h.loops p hstate⟩
  · rw [(h.others p hstate).2]
    exact ⟨0, (hm.service p).gains_afterExits _⟩

theorem FailedRestarts.recovers {answers : List (Except ServiceError Unit)} (hm : m.Sound k)
    (h : m.FailedRestarts k answers exits m' k') :
    (∀ answer ∈ answers, answer = .ok ()) ∧ m.Recovers k answers.length exits m' k' ∧
      (answers ≠ [] → ∀ p, (m.services p).state = .bound → (m'.services p).ServedAnew) := by
  induction h with
  | none => exact ⟨nofun, .refl hm, fun hne => absurd rfl hne⟩
  | next _ hmeanwhile hlast ih =>
    obtain ⟨hanswers, hrecovers, -⟩ := ih
    have hbetween := hrecovers.trans (hmeanwhile.recovers hrecovers.sound)
    obtain ⟨hanswer, hrecovers', hanew⟩ := hlast.recovers hbetween.sound
    refine ⟨?_, ?_, fun _ p hstate => hanew p ((hbetween.state_eq_bound_iff p).2 hstate)⟩
    · exact List.forall_mem_append.2 ⟨hanswers, List.forall_mem_singleton.2 hanswer⟩
    · rw [List.length_append, List.length_singleton]
      exact hbetween.trans hrecovers'

/-- In every reachable state, and however often it is repeated, a restart that fails ends
    with the services resumed: those that were bound are bound to the same file at the
    same address, with one new loop for each time, the last of which serves it; the loops
    before are asked to stop; and nothing else changes. If no loop of a service had been
    given up, all its loops that have not exited are waited for. -/
theorem Reachable.recovers_of_failedRestarts {answers : List (Except ServiceError Unit)}
    (hm : m.Reachable k) (h : m.FailedRestarts k answers exits m' k') :
    (∀ answer ∈ answers, answer = .ok ()) ∧ m.Recovers k answers.length exits m' k' ∧
      (answers ≠ [] → ∀ p, (m.services p).state = .bound → (m'.services p).ServedAnew) ∧
      ∀ p, (m.services p).KeepsTrack → (m'.services p).KeepsTrack := by
  obtain ⟨hanswers, hrecovers, hanew⟩ := h.recovers hm.sound
  refine ⟨hanswers, hrecovers, hanew, fun p hp => ?_⟩
  obtain ⟨n', hgains⟩ := hrecovers.exists_gains hm.sound p
  exact hgains.keepsTrack hp

/-- A restart fails twice. The first loop exits before the second one; the loop that
    followed it has not noticed its stop when the third begins. -/
theorem recovers_of_two_restarts :
    let file : OpenFile := ⟨40, .listener ⟨.loopback, 2003⟩⟩
    let k : Kernel := { table := ⟨[(3, ⟨file, true⟩)]⟩ }
    let m := ((create .loopback).resume ⟨[("gt", 3)]⟩ k).2.1
    m.Reachable k ∧ ∃ answers m' k', m.FailedRestarts k answers [(.graphiteText, 0)] m' k' ∧
      answers = [.ok (), .ok ()] ∧ m'.Serves k' .graphiteText file ∧
      (m'.services .graphiteText).loops.map (fun l => (l.stopRequested, l.exited, l.tracked)) =
        [(true, true, false), (true, false, true), (false, false, true)] ∧
      (m'.services .graphiteText).ServedAnew ∧ (m'.services .graphiteText).KeepsTrack ∧
      m'.services .http = m.services .http := by
  intro file k m
  have hm : m.Reachable k := by
    have hresumed := Reachable.resumed (.created .loopback {} k) ⟨[("gt", 3)]⟩
      (by decide) (by
        rintro fd - ⟨p, l, hl, -⟩
        cases hl)
    exact hresumed
  have hrestarts : ∃ answers m' k', m.FailedRestarts k answers [(.graphiteText, 0)] m' k' ∧
      answers.length = 2 ∧
      (m'.services .graphiteText).loops.map (fun l => (l.stopRequested, l.exited, l.tracked)) =
        [(true, true, false), (true, false, true), (false, false, true)] :=
    ⟨_, _, _, .next (.next .none .nothing (.intro .nothing .nothing))
      (.loopExited .nothing .graphiteText 0) (.intro .nothing .nothing), rfl, by decide⟩
  obtain ⟨answers, m', k', hrestarts, hlength, hloops⟩ := hrestarts
  have hstate : (m.services .graphiteText).state = .bound := by decide
  obtain ⟨hanswers, hrecovers, hanew, hkeeps⟩ := hm.recovers_of_failedRestarts hrestarts
  refine ⟨hm, answers, m', k', hrestarts, ?_, ?_, hloops, hanew ?_ .graphiteText hstate,
    hkeeps .graphiteText ?_, ?_⟩
  · exact (List.eq_replicate_iff.2 ⟨hlength, hanswers⟩ : answers = List.replicate 2 (.ok ()))
  · obtain ⟨found, hbefore, hafter, -⟩ := hrecovers.bound .graphiteText hstate
    obtain rfl : file = found := hbefore.unique ⟨⟨3, .tcp, ⟨.loopback, 2003⟩⟩, rfl, rfl⟩ |>.symm
    exact hafter
  · rintro rfl
    cases hlength
  · unfold Service.KeepsTrack
    decide
  · exact (hrecovers.others .http (by decide)).2

/-- What becomes of loops that a drain gives up: the services go on when its time is up, a
    restart fails, and the loop of before goes on and is not waited for. A drain between the
    stop and the resumption ends clean at once and leaves the service draining. -/
theorem givenUp_of_failedRestart :
    let started := (create .loopback).run [] Successor.firstInherited {}
    let drained := started.2.1.drain 0 (.ofMillis 15) started.2.2
    let m := drained.2.1
    let k := drained.2.2
    let stopped := m.shutdown (m.exportSockets k).2
    let drained' := stopped.1.drain 15000000 (.ofSeconds 2) stopped.2
    drained.1 = .returned false 15000000 ∧ m.Reachable k ∧
      (m.services .graphiteText).state = .bound ∧
      (∃ m' k', m.FailedRestart k (.ok ()) [] m' k' ∧
        ∃ l ∈ (m'.services .graphiteText).loops,
          l.generation < (m'.services .graphiteText).generation ∧
            l.exited = false ∧ l.tracked = false) ∧
      drained'.1 = .returned true 15000000 ∧
      (drained'.2.1.services .graphiteText).state = .draining := by
  intro started drained m k stopped drained'
  have hm : m.Reachable k :=
    ((Reachable.created .loopback {} {}).run [] Successor.firstInherited nofun).drained 0 _
  obtain ⟨answer, m', k', hrestart, hloop⟩ : ∃ answer m' k', m.FailedRestart k answer [] m' k' ∧
      ∃ l ∈ (m'.services .graphiteText).loops,
        l.generation < (m'.services .graphiteText).generation ∧
          l.exited = false ∧ l.tracked = false :=
    ⟨_, _, _, .intro .nothing .nothing, by decide +kernel⟩
  obtain ⟨rfl, -⟩ := hrestart.recovers hm.sound
  exact ⟨by decide +kernel, hm, by decide +kernel, ⟨m', k', hrestart, hloop⟩, by decide +kernel,
    by decide +kernel⟩

end Manager
end MetricIntake
