-- SUMMARY: A socket that was handed over stays open in the successor, from the first move until its service is stopped there.
import MetricIntake.Restart
import MetricIntake.Proofs.Service.Succession

/-!
# In the successor

A socket that has been handed over waits at its descriptor, then it is served, and
only a stop of its service lets go of it. This is the same whether a successor starts
on the sockets or their first owner resumes on them.
-/

namespace MetricIntake

variable {m m' : Manager} {k k' : Kernel} {entries : List (String × Descriptor)}
  {sockets : List (Protocol × OpenFile)} {x : Protocol × OpenFile} {gone gone' : Prop}

/-! ## Services and what has arrived for them -/

namespace Manager

/-- A socket is among those that services wait to be started on, or it is served, or it
    has been given up. -/
def Secures (m : Manager) (k : Kernel) (entries : List (String × Descriptor))
    (x : Protocol × OpenFile) (gone : Prop) : Prop :=
  ∃ sockets, m.Awaits k entries sockets ∧ (x ∈ sockets ∨ m.Serves k x.1 x.2 ∨ gone)

theorem Secures.sound (h : m.Secures k entries x gone) : m.Sound k := by
  obtain ⟨sockets, hawaits, -⟩ := h
  exact hawaits.sound

theorem Secures.mono (h : m.Secures k entries x gone) (hgone : gone → gone') :
    m.Secures k entries x gone' :=
  h.imp fun _ h => ⟨h.1, h.2.imp_right (Or.imp_right hgone)⟩

/-- What is secured is open, unless it has been given up. -/
theorem Secures.exists_open (h : m.Secures k entries x gone) :
    (∃ fd, k.table.file? fd = some x.2) ∨ gone := by
  obtain ⟨sockets, hawaits, hx | ⟨b, -, hfile⟩ | hgone⟩ := h
  · exact .inl (hawaits.carries.exists_open hx)
  · exact .inl ⟨b.fd, hfile⟩
  · exact .inr hgone

/-- The next entry starts its service. The socket of a service that is disabled is given
    up. -/
theorem Secures.startEntry {entry : String × Descriptor}
    (h : m.Secures k (entry :: entries) x gone) :
    ∃ m' k', m.startEntry entry k = (.ok (), m', k') ∧
      m'.Secures k' entries x (gone ∨ (m.services x.1).spec.isEmpty = true) ∧
      ∀ p, (m'.services p).spec = (m.services p).spec := by
  obtain ⟨sockets, hawaits, hx⟩ := h
  obtain ⟨⟨p, file⟩, sockets, -, -, rfl⟩ := List.forall₂_cons_left_iff.1 hawaits.carries
  obtain ⟨m', k', hentry, hrest, hevolves, hserves, -, hothers⟩ := hawaits.startEntry
  refine ⟨m', k', hentry, ⟨sockets, hrest, ?_⟩, hevolves.spec⟩
  rcases hx with hx | hx | hgone
  · rcases List.mem_cons.1 hx with rfl | hx
    · cases hspec : (m.services p).spec.isEmpty with
      | true => exact .inr (.inr (.inr rfl))
      | false => exact .inr (.inl (hserves hspec).serves)
    · exact .inl hx
  · -- a service that is bound is none of those that sockets wait for
    have hne : x.1 ≠ p := by
      rintro rfl
      exact (List.forall_mem_cons.1 hawaits.idle).1 hx.state
    exact .inr (.inl (hx.evolves hevolves (by rw [hothers x.1 hne])))
  · exact .inr (.inr (.inl hgone))

theorem Secures.exitLoop (h : m.Secures k entries x gone) (p : Protocol) (i : Nat) :
    (m.exitLoop p i k).1.Secures (m.exitLoop p i k).2 entries x gone := by
  obtain ⟨sockets, hawaits, hx⟩ := h
  refine ⟨sockets, hawaits.exitLoop p i, ?_⟩
  exact hx.imp_right (Or.imp_left fun hserves => hserves.exitLoop hawaits.sound p i)

/-- A socket that is served is given up when the services are stopped. -/
theorem Secures.shutdown (h : m.Secures k [] x gone) :
    (m.shutdown k).1.Secures (m.shutdown k).2 [] x (gone ∨ m.Serves k x.1 x.2) := by
  obtain ⟨sockets, hawaits, hx⟩ := h
  refine ⟨sockets, hawaits.toOffered.shutdown, ?_⟩
  rcases hx with hx | hserves | hgone
  · exact .inl hx
  · exact .inr (.inr (.inr hserves))
  · exact .inr (.inr (.inl hgone))

end Manager

/-! ## From the first move to the last stop -/

namespace SuccessorProcess

variable {listen : ListenConfig} {settings : Settings} {s : SuccessorProcess}

/-- The program of the successor has started. -/
def HasStarted (s : SuccessorProcess) : Prop :=
  ∀ waiting target, s.phase ≠ .moving waiting target

/-- Sockets are at the places that a manifest gives them, and a socket is among them. -/
def Inherits (listen : ListenConfig) (settings : Settings) (k : Kernel) (inherited : String)
    (x : Protocol × OpenFile) : Prop :=
  ∃ sockets, x ∈ sockets ∧ Manifest.parse inherited = (sockets.map (·.1)).map Protocol.key ∧
    (Manager.create listen settings).Awaits k
      (Manifest.entriesFrom ((sockets.map (·.1)).map Protocol.key) Successor.firstInherited) sockets

/-- Where a socket that was handed over is in the successor. It arrives at its place once
    all moves are made; then it is taken and started on. It is given up when its service is
    stopped, and if it is disabled. -/
def Keeps (listen : ListenConfig) (settings : Settings) (x : Protocol × OpenFile) (gone : Prop)
    (s : SuccessorProcess) : Prop :=
  match s.phase with
  | .moving waiting target => s.manager = Manager.create listen settings ∧
      ∃ table, Successor.moveAll waiting target s.kernel.table = some table ∧
        Inherits listen settings { s.kernel with table := table.exec } s.inherited x
  | .started => s.manager = Manager.create listen settings ∧
      Inherits listen settings s.kernel s.inherited x
  | .starting waiting => (s.manager.services x.1).spec = listen.spec x.1 ∧
      s.manager.Secures s.kernel waiting x (gone ∨ (listen.spec x.1).isEmpty = true)
  | .running => (s.manager.services x.1).spec = listen.spec x.1 ∧
      s.manager.Secures s.kernel [] x (gone ∨ (listen.spec x.1).isEmpty = true)
  | .failed => False

theorem Keeps.mono (h : s.Keeps listen settings x gone) (hgone : gone → gone') :
    s.Keeps listen settings x gone' := by
  unfold Keeps at h ⊢
  split at h
  · exact h
  · exact h
  · exact h.imp_right fun hsecures => hsecures.mono (Or.imp_left hgone)
  · exact h.imp_right fun hsecures => hsecures.mono (Or.imp_left hgone)
  · exact h

theorem Keeps.move (h : s.Keeps listen settings x gone) : s.move.Keeps listen settings x gone := by
  unfold SuccessorProcess.move
  split
  · rename_i fd waiting target hphase
    simp only [Keeps, hphase] at h
    obtain ⟨hmanager, table, hmoves, hinherits⟩ := h
    obtain ⟨table₁, hmove, hmoves⟩ := Option.bind_eq_some_iff.1 hmoves
    simp only [hmove]
    exact ⟨hmanager, table, hmoves, hinherits⟩
  · rename_i target hphase
    simp only [Keeps, hphase] at h
    obtain ⟨hmanager, table, hmoves, hinherits⟩ := h
    obtain rfl : s.kernel.table = table := Option.some.inj hmoves
    exact ⟨hmanager, hinherits⟩
  · exact h

theorem Keeps.adopt (h : s.Keeps listen settings x gone) :
    s.adopt.Keeps listen settings x gone := by
  unfold SuccessorProcess.adopt
  split
  · rename_i hphase
    simp only [Keeps, hphase] at h
    obtain ⟨hmanager, sockets, hx, hparse, hawaits⟩ := h
    simp only [hparse, hawaits.adopt]
    rw [← hmanager] at hawaits
    refine ⟨?_, sockets, hawaits, .inl hx⟩
    rw [hmanager]
    rfl
  · exact h

/-- No service fails to start on a socket that was handed over. -/
theorem Keeps.start (h : s.Keeps listen settings x gone) :
    s.start.Keeps listen settings x gone := by
  unfold SuccessorProcess.start
  split
  · rename_i hphase
    simp only [Keeps, hphase] at h
    exact h
  · rename_i entry waiting hphase
    simp only [Keeps, hphase] at h
    obtain ⟨hspec, hsecures⟩ := h
    obtain ⟨m', k', hentry, hsecures', hspec'⟩ := hsecures.startEntry
    simp only [hentry]
    refine ⟨(hspec' x.1).trans hspec, hsecures'.mono ?_⟩
    rw [hspec]
    exact Or.rec id .inr
  · exact h

/-- A manager that has not been started has no loops. -/
theorem exitLoop_create (p : Protocol) (i : Nat) (k : Kernel) :
    (Manager.create listen settings).exitLoop p i k = (Manager.create listen settings, k) := by
  have hsame : (Manager.create listen settings).update p
      ((Manager.create listen settings).services p) = Manager.create listen settings := by
    unfold Manager.update
    congr 1
    funext q
    split
    · rename_i hqp
      subst hqp
      rfl
    · rfl
  exact congrArg (·, k) hsame

theorem Keeps.exitLoop (h : s.Keeps listen settings x gone) (p : Protocol) (i : Nat) :
    (s.exitLoop p i).Keeps listen settings x gone := by
  have hspec : s.manager.Sound s.kernel →
      ((s.manager.exitLoop p i s.kernel).1.services x.1).spec = (s.manager.services x.1).spec :=
    fun hm => (Manager.evolves_exitLoop hm p i).spec x.1
  unfold Keeps at h
  split at h
  · rename_i waiting target hphase
    obtain ⟨hmanager, hinherits⟩ := h
    simp only [SuccessorProcess.exitLoop, hmanager, exitLoop_create, Keeps, hphase]
    exact ⟨trivial, hinherits⟩
  · rename_i hphase
    obtain ⟨hmanager, hinherits⟩ := h
    simp only [SuccessorProcess.exitLoop, hmanager, exitLoop_create, Keeps, hphase]
    exact ⟨trivial, hinherits⟩
  · rename_i waiting hphase
    simp only [SuccessorProcess.exitLoop, Keeps, hphase]
    exact ⟨(hspec h.2.sound).trans h.1, h.2.exitLoop p i⟩
  · rename_i hphase
    simp only [SuccessorProcess.exitLoop, Keeps, hphase]
    exact ⟨(hspec h.2.sound).trans h.1, h.2.exitLoop p i⟩
  · exact h.elim

/-- A stop gives up what is served, and nothing else does. -/
theorem Keeps.stop (h : s.Keeps listen settings x gone) :
    s.stop.Keeps listen settings x
      (gone ∨ s.phase = .running ∧ s.manager.Serves s.kernel x.1 x.2) := by
  unfold SuccessorProcess.stop
  split
  · rename_i hphase
    simp only [Keeps, hphase] at h
    obtain ⟨hspec, hsecures⟩ := h
    simp only [Keeps, hphase, true_and]
    refine ⟨((Manager.evolves_shutdown hsecures.sound).spec x.1).trans hspec, ?_⟩
    exact hsecures.shutdown.mono or_right_comm.1
  · exact h.mono .inl

/-- Once its program has started, the successor has the socket open. -/
theorem Keeps.exists_open (h : s.Keeps listen settings x gone)
    (hstarted : s.HasStarted) :
    (∃ fd, s.kernel.table.file? fd = some x.2) ∨ gone ∨ (listen.spec x.1).isEmpty = true := by
  unfold Keeps at h
  split at h
  · rename_i waiting target hphase
    exact absurd hphase (hstarted waiting target)
  · obtain ⟨-, sockets, hx, -, hawaits⟩ := h
    exact .inl (hawaits.carries.exists_open hx)
  · exact h.2.exists_open
  · exact h.2.exists_open
  · exact h.elim

/-- A service that is bound is not disabled. -/
theorem Keeps.enabled (h : s.Keeps listen settings x gone) {file : OpenFile}
    (hserves : s.manager.Serves s.kernel x.1 file) : (listen.spec x.1).isEmpty = false := by
  have hcreated : s.manager = Manager.create listen settings → False := by
    intro hmanager
    rw [hmanager] at hserves
    obtain ⟨b, hb, -⟩ := hserves
    cases hb
  have hspec : ∀ {waiting}, (s.manager.services x.1).spec = listen.spec x.1 →
      s.manager.Secures s.kernel waiting x (gone ∨ (listen.spec x.1).isEmpty = true) →
      (listen.spec x.1).isEmpty = false := by
    intro waiting hspec hsecures
    obtain ⟨-, -, -, henabled⟩ := hserves.adoptable hsecures.sound
    rwa [hspec] at henabled
  unfold Keeps at h
  split at h
  · exact (hcreated h.1).elim
  · exact (hcreated h.1).elim
  · exact hspec h.1 h.2
  · exact hspec h.1 h.2
  · exact h.elim

/-! ## Steps that are taken once the program has started -/

theorem HasStarted.move (h : s.HasStarted) : s.move = s := by
  unfold SuccessorProcess.move
  split
  · rename_i hphase
    exact absurd hphase (h _ _)
  · rename_i hphase
    exact absurd hphase (h _ _)
  · rfl

theorem HasStarted.adopt (h : s.HasStarted) : s.adopt.HasStarted := by
  unfold SuccessorProcess.adopt
  split
  · split <;> exact nofun
  · exact h

theorem HasStarted.start (h : s.HasStarted) : s.start.HasStarted := by
  unfold SuccessorProcess.start
  split
  · exact nofun
  · split <;> exact nofun
  · exact h

theorem HasStarted.stop (h : s.HasStarted) : s.stop.HasStarted := by
  unfold SuccessorProcess.stop
  split
  · exact h
  · exact h

end SuccessorProcess
end MetricIntake
