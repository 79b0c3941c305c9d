-- SUMMARY: However the steps of a restart come, a socket stays open until the service that took it over is stopped.
import Mathlib.Data.List.Induction
import Mathlib.Data.List.Infix
import MetricIntake.Proofs.Restart.Successor

/-!
# A socket through a restart

A socket is kept open by its service, then by the handoff, then by what the successor
has of it, or by the service that resumes on the handoff. Each of them has it before
the one before lets go of it, and in no phase does anything else close it.
-/

namespace MetricIntake

variable {listen : ListenConfig} {settings : Settings} {x : Protocol × OpenFile}
  {gone gone' : Prop} {h : Handoff} {copies waiting : List Descriptor}

/-! ## The handoff and its duplicates -/

namespace Manager

variable {m : Manager} {k k' : Kernel}

/-- A handoff has a socket, and the services that it is for are not bound. -/
def Hands (m : Manager) (k : Kernel) (h : Handoff) (x : Protocol × OpenFile) : Prop :=
  (m.services x.1).spec.isEmpty = false ∧ ∃ sockets, x ∈ sockets ∧ m.Awaits k h.entries sockets

/-- Duplicates are nobody else's. -/
def Loose (m : Manager) (h : Handoff) (copies : List Descriptor) : Prop :=
  ∀ copy ∈ copies, copy ∉ h.descriptors ∧ copy ∉ m.owned

/-- Duplicates are open above the inherited range. -/
structure Spares (m : Manager) (k : Kernel) (h : Handoff) (copies : List Descriptor) : Prop where
  above : ∀ copy ∈ copies, (Successor.highBase h.entries.length : Int) ≤ copy
  opened : ∀ copy ∈ copies, k.table.get? copy ≠ none
  loose : m.Loose h copies

theorem Hands.sound (hm : m.Hands k h x) : m.Sound k := by
  obtain ⟨-, sockets, -, hawaits⟩ := hm
  exact hawaits.sound

/-- The sockets of a handoff are open, and so are those that the manager owns. -/
theorem Hands.get?_ne_none (hm : m.Hands k h x) {fd : Descriptor}
    (hfd : fd ∈ h.descriptors ∨ fd ∈ m.owned) : k.table.get? fd ≠ none := by
  obtain ⟨-, sockets, -, hawaits⟩ := hm
  exact hfd.elim (hawaits.carries.get?_ne_none fd) hawaits.sound.get?_ne_none

theorem Hands.not_mem_owned (hm : m.Hands k h x) {fd : Descriptor} (hfd : fd ∈ h.descriptors) :
    fd ∉ m.owned := by
  obtain ⟨-, sockets, -, hawaits⟩ := hm
  exact hawaits.loose fd hfd

theorem Hands.exists_open (hm : m.Hands k h x) : ∃ fd, k.table.file? fd = some x.2 := by
  obtain ⟨-, sockets, hx, hawaits⟩ := hm
  exact hawaits.carries.exists_open hx

theorem Hands.congr (hm : m.Hands k h x)
    (hsame : ∀ fd, fd ∈ h.descriptors ∨ fd ∈ m.owned → k'.table.get? fd = k.table.get? fd) :
    m.Hands k' h x := by
  obtain ⟨henabled, sockets, hx, hawaits⟩ := hm
  exact ⟨henabled, sockets, hx, ⟨hawaits.toOffered.congr hsame, hawaits.idle⟩⟩

/-- Closing a duplicate takes nothing from a handoff. -/
theorem Hands.close {copy : Descriptor} (hm : m.Hands k h x)
    (hloose : m.Loose h (copy :: copies)) : m.Hands (k.close copy) h x := by
  obtain ⟨hcopy, -⟩ := List.forall_mem_cons.1 hloose
  apply hm.congr
  rintro fd hfd
  have hne : fd ≠ copy := by
    rintro rfl
    exact hfd.elim hcopy.1 hcopy.2
  exact (DescriptorTable.get?_close k.table copy fd).trans (if_neg hne)

theorem Hands.exitLoop (hm : m.Hands k h x) (p : Protocol) (i : Nat) :
    (m.exitLoop p i k).1.Hands (m.exitLoop p i k).2 h x := by
  obtain ⟨henabled, sockets, hx, hawaits⟩ := hm
  refine ⟨?_, sockets, hx, hawaits.exitLoop p i⟩
  rw [(evolves_exitLoop hawaits.sound p i).spec x.1]
  exact henabled

/-- The services of a handoff can be resumed. -/
theorem Hands.secures (hm : m.Hands k h x) : m.Secures k h.entries x gone := by
  obtain ⟨-, sockets, hx, hawaits⟩ := hm
  exact ⟨sockets, hawaits, .inl hx⟩

theorem Spares.nil (m : Manager) (k : Kernel) (h : Handoff) : m.Spares k h [] :=
  ⟨nofun, nofun, nofun⟩

/-- A new duplicate is nobody else's. -/
theorem Spares.append {copy : Descriptor} (hspares : m.Spares k h copies) (hm : m.Hands k h x)
    (hsame : ∀ fd, k.table.get? fd ≠ none → k'.table.get? fd = k.table.get? fd)
    (habove : (Successor.highBase h.entries.length : Int) ≤ copy)
    (hfree : k.table.get? copy = none) (hopen : k'.table.get? copy ≠ none) :
    m.Spares k' h (copies ++ [copy]) where
  above := List.forall_mem_append.2 ⟨hspares.above, List.forall_mem_singleton.2 habove⟩
  opened := by
    refine List.forall_mem_append.2 ⟨fun other hother => ?_, List.forall_mem_singleton.2 hopen⟩
    rw [hsame other (hspares.opened other hother)]
    exact hspares.opened other hother
  loose := by
    refine List.forall_mem_append.2 ⟨hspares.loose, List.forall_mem_singleton.2 ⟨?_, ?_⟩⟩
    · exact fun hmem => hm.get?_ne_none (.inl hmem) hfree
    · exact fun hmem => hm.get?_ne_none (.inr hmem) hfree

/-- A loop that exits closes nothing but what its manager owned. -/
theorem get?_exitLoop (hm : m.Sound k) (p : Protocol) (i : Nat) {fd : Descriptor}
    (hfd : fd ∉ m.owned) : (m.exitLoop p i k).2.table.get? fd = k.table.get? fd := by
  apply (evolves_exitLoop hm p i).retains.same
  rw [Set.empty_union]
  exact .inr hfd

theorem Loose.exitLoop (hloose : m.Loose h copies) (hm : m.Sound k) (p : Protocol) (i : Nat) :
    (m.exitLoop p i k).1.Loose h copies := by
  intro copy hcopy
  refine ⟨(hloose copy hcopy).1, fun howned => (hloose copy hcopy).2 ?_⟩
  have hsubset := (evolves_exitLoop hm p i).owned_subset howned
  rwa [Set.empty_union] at hsubset

theorem Spares.exitLoop (hspares : m.Spares k h copies) (hm : m.Sound k) (p : Protocol) (i : Nat) :
    (m.exitLoop p i k).1.Spares (m.exitLoop p i k).2 h copies where
  above := hspares.above
  opened copy hcopy := by
    rw [get?_exitLoop hm p i (hspares.loose copy hcopy).2]
    exact hspares.opened copy hcopy
  loose := hspares.loose.exitLoop hm p i

end Manager

/-! ## Where the socket is -/

namespace Restart

open Manager (Carries)

variable {r : Restart}

/-- The program of the successor has started, and the successor keeps a socket. -/
def Continues (listen : ListenConfig) (settings : Settings) (x : Protocol × OpenFile)
    (gone : Prop) (r : Restart) : Prop :=
  ∃ s, r.successor = some s ∧ s.HasStarted ∧ s.Keeps listen settings x gone

theorem Continues.mono (hr : r.Continues listen settings x gone) (hgone : gone → gone') :
    r.Continues listen settings x gone' := by
  obtain ⟨s, hs, hstarted, hkeeps⟩ := hr
  exact ⟨s, hs, hstarted, hkeeps.mono hgone⟩

/-- What keeps a socket open in each phase of a restart, unless the service that took it
    over has been stopped. -/
def Keeps (listen : ListenConfig) (settings : Settings) (x : Protocol × OpenFile) (gone : Prop)
    (r : Restart) : Prop :=
  match r.phase with
  | .serving => r.successor = none ∧ r.manager.Sound r.kernel ∧ r.manager.Serves r.kernel x.1 x.2
  | .exported h => r.successor = none ∧ (r.manager.services x.1).spec.isEmpty = false ∧
      ∃ sockets, x ∈ sockets ∧ r.manager.Offered r.kernel h.entries sockets
  | .stopped h => r.successor = none ∧ r.manager.Hands r.kernel h x
  | .duplicating h waiting copies => r.successor = none ∧
      r.manager.Hands r.kernel h x ∧ r.manager.Spares r.kernel h copies ∧
      ∃ done, h.descriptors = done ++ waiting ∧
        copies.map r.kernel.table.file? = done.map r.kernel.table.file?
  | .spawning h copies => r.manager.Hands r.kernel h x ∧ r.manager.Spares r.kernel h copies ∧
      ∃ s, r.successor = some s ∧ s.Keeps listen settings x gone
  | .spawned _ _ | .discarding _ | .replaced => r.Continues listen settings x gone
  | .withdrawing h copies => r.successor = none ∧
      r.manager.Hands r.kernel h x ∧ r.manager.Loose h copies
  | .resuming waiting => r.successor = none ∧ (r.manager.services x.1).spec.isEmpty = false ∧
      r.manager.Secures r.kernel waiting x gone
  | .resumed => r.successor = none ∧ (r.manager.services x.1).spec.isEmpty = false ∧
      r.manager.Secures r.kernel [] x gone

theorem Keeps.mono (hr : r.Keeps listen settings x gone) (hgone : gone → gone') :
    r.Keeps listen settings x gone' := by
  unfold Keeps at hr ⊢
  split at hr
  · exact hr
  · exact hr
  · exact hr
  · exact hr
  · obtain ⟨hhands, hcopies, s, hs, hkeeps⟩ := hr
    exact ⟨hhands, hcopies, s, hs, hkeeps.mono hgone⟩
  · exact hr.mono hgone
  · exact hr.mono hgone
  · exact hr.mono hgone
  · exact hr
  · exact ⟨hr.1, hr.2.1, hr.2.2.mono hgone⟩
  · exact ⟨hr.1, hr.2.1, hr.2.2.mono hgone⟩

/-! ## Steps of the predecessor -/

theorem Keeps.exportSockets (hr : r.Keeps listen settings x gone) :
    r.exportSockets.Keeps listen settings x gone := by
  unfold Restart.exportSockets
  split
  · rename_i hphase
    simp only [Keeps, hphase] at hr
    obtain ⟨hnone, hsound, hserves⟩ := hr
    obtain ⟨entries, sockets, k', hexport, hexports⟩ := hsound.exists_exportSockets
    obtain ⟨-, -, -, henabled⟩ := hserves.adoptable hsound
    simp only [hexport]
    exact ⟨hnone, henabled, sockets, hexports.mem_sockets hserves, hexports.offered hsound⟩
  · exact hr

theorem Keeps.stop (hr : r.Keeps listen settings x gone) :
    r.stop.Keeps listen settings x
      (gone ∨ r.phase = .resumed ∧ r.manager.Serves r.kernel x.1 x.2) := by
  unfold Restart.stop
  dsimp only
  split
  · rename_i h hphase
    simp only [Keeps, hphase] at hr
    obtain ⟨hnone, henabled, sockets, hx, hoffered⟩ := hr
    refine ⟨hnone, ?_, sockets, hx, hoffered.shutdown⟩
    rw [(Manager.evolves_shutdown hoffered.sound).spec x.1]
    exact henabled
  · rename_i hphase
    simp only [Keeps, hphase] at hr
    obtain ⟨hnone, henabled, hsecures⟩ := hr
    simp only [Keeps, hphase, true_and]
    refine ⟨hnone, ?_, hsecures.shutdown⟩
    rw [(Manager.evolves_shutdown hsecures.sound).spec x.1]
    exact henabled
  · exact hr.mono .inl

theorem Keeps.exitLoop (hr : r.Keeps listen settings x gone) (p : Protocol) (i : Nat) :
    (r.exitLoop p i).Keeps listen settings x gone := by
  have hphase : (r.exitLoop p i).phase = r.phase := rfl
  have hsuccessor : (r.exitLoop p i).successor = r.successor := rfl
  have hspec : r.manager.Sound r.kernel → ((r.exitLoop p i).manager.services x.1).spec =
      (r.manager.services x.1).spec :=
    fun hm => (Manager.evolves_exitLoop hm p i).spec x.1
  unfold Keeps at hr ⊢
  rw [hphase, hsuccessor]
  split at hr
  · obtain ⟨hnone, hsound, hserves⟩ := hr
    exact ⟨hnone, (Manager.evolves_exitLoop hsound p i).sound, hserves.exitLoop hsound p i⟩
  · obtain ⟨hnone, henabled, sockets, hx, hoffered⟩ := hr
    refine ⟨hnone, (hspec hoffered.sound).symm ▸ henabled, sockets, hx, ?_⟩
    exact hoffered.evolves (Manager.evolves_exitLoop hoffered.sound p i) fun _ _ => id
  · exact ⟨hr.1, hr.2.exitLoop p i⟩
  · obtain ⟨hnone, hhands, hspares, done, hdone, hfiles⟩ := hr
    have hsound := hhands.sound
    have hloose : ∀ fd ∈ done, fd ∉ r.manager.owned := fun fd hfd =>
      hhands.not_mem_owned (by simp [hdone, hfd])
    refine ⟨hnone, hhands.exitLoop p i, hspares.exitLoop hsound p i, done, hdone, ?_⟩
    have hkept : ∀ {fds : List Descriptor}, (∀ fd ∈ fds, fd ∉ r.manager.owned) →
        fds.map (r.exitLoop p i).kernel.table.file? = fds.map r.kernel.table.file? :=
      fun hfds => DescriptorTable.map_file?_congr fun fd hfd =>
        Manager.get?_exitLoop hsound p i (hfds fd hfd)
    rw [hkept fun copy hcopy => (hspares.loose copy hcopy).2, hkept hloose]
    exact hfiles
  · obtain ⟨hhands, hspares, hs⟩ := hr
    exact ⟨hhands.exitLoop p i, hspares.exitLoop hhands.sound p i, hs⟩
  · exact hr
  · exact hr
  · exact hr
  · obtain ⟨hnone, hhands, hloose⟩ := hr
    exact ⟨hnone, hhands.exitLoop p i, hloose.exitLoop hhands.sound p i⟩
  · obtain ⟨hnone, henabled, hsecures⟩ := hr
    exact ⟨hnone, (hspec hsecures.sound).symm ▸ henabled, hsecures.exitLoop p i⟩
  · obtain ⟨hnone, henabled, hsecures⟩ := hr
    exact ⟨hnone, (hspec hsecures.sound).symm ▸ henabled, hsecures.exitLoop p i⟩

/-- One more duplicate is made, of the next socket of the handoff. -/
theorem Keeps.duplicate {fd : Descriptor} (hphase : r.phase = .duplicating h (fd :: waiting) copies)
    (hr : r.Keeps listen settings x gone) :
    (r.prepare (Manager.create listen settings)).Keeps listen settings x gone := by
  simp only [Keeps, hphase] at hr
  obtain ⟨hnone, hhands, hspares, done, hdone, hfiles⟩ := hr
  have hopen : ∀ other ∈ h.descriptors, r.kernel.table.get? other ≠ none :=
    fun other hother => hhands.get?_ne_none (.inl hother)
  rw [hdone, List.forall_mem_append, List.forall_mem_cons] at hopen
  obtain ⟨hopen_done, hopen_fd, -⟩ := hopen
  obtain ⟨file, hfile⟩ := DescriptorTable.get?_ne_none_iff.1 hopen_fd
  obtain ⟨copy, table, hcopy, habove, hfree, hnew, hkept⟩ :=
    DescriptorTable.exists_duplicate hfile (Successor.highBase h.entries.length)
  have hsame : ∀ other, r.kernel.table.get? other ≠ none →
      table.get? other = r.kernel.table.get? other := by
    intro other hother
    apply hkept
    rintro rfl
    exact hother hfree
  simp only [prepare, hphase, hcopy]
  have hhands' : r.manager.Hands { r.kernel with table } h x :=
    hhands.congr fun other hother => hsame other (hhands.get?_ne_none hother)
  refine ⟨hnone, hhands', ?_, done ++ [fd], by simp [hdone], ?_⟩
  · exact hspares.append hhands hsame habove hfree (DescriptorTable.get?_ne_none_iff.2 ⟨file, hnew⟩)
  · have hfile : table.file? copy = table.file? fd :=
      hnew.trans ((DescriptorTable.file?_congr (hsame fd hopen_fd)).trans hfile).symm
    have hold : copies.map table.file? = done.map table.file? := by
      rw [DescriptorTable.map_file?_congr fun fd hfd => hsame fd (hspares.opened fd hfd),
        DescriptorTable.map_file?_congr fun fd hfd => hsame fd (hopen_done fd hfd)]
      exact hfiles
    rw [List.map_append, List.map_append, List.map_singleton, List.map_singleton]
    exact congrArg₂ (· ++ [·]) hold hfile

/-- The successor process begins as a copy, in which every socket will arrive. -/
theorem Keeps.fork (hphase : r.phase = .duplicating h [] copies)
    (hr : r.Keeps listen settings x gone) :
    (r.prepare (Manager.create listen settings)).Keeps listen settings x gone := by
  simp only [Keeps, hphase] at hr
  obtain ⟨hnone, hhands, hspares, done, hdone, hfiles⟩ := hr
  obtain ⟨-, sockets, hx, hawaits⟩ := id hhands
  rw [List.append_nil] at hdone
  rw [← hdone] at hfiles
  have hlen : h.descriptors.length = h.entries.length := List.length_map _
  obtain ⟨table, hmoves, harrived⟩ := Successor.exists_arrival hfiles hspares.opened
    (hlen ▸ hspares.above)
  have hcarries : Carries { r.kernel with table := table.exec }
      (Manifest.entriesFrom (h.entries.map (·.1)) Successor.firstInherited) sockets := by
    refine hawaits.carries.entriesFrom fun i hi => ?_
    obtain ⟨file, hfile, hget⟩ := harrived i (hlen.symm ▸ hi)
    exact ⟨file, by simpa [Handoff.descriptors] using hfile, DescriptorTable.file?_of_get? hget⟩
  simp only [prepare, hphase]
  refine ⟨hhands, hspares, _, rfl, rfl, table, hmoves, sockets, hx, ?_, ?_⟩
  · rw [Handoff.manifest, hawaits.carries.keys]
    exact Manifest.parse_text_keys _
  · rw [hawaits.carries.keys] at hcarries
    exact .of_create listen settings hcarries (Manifest.nodup_descriptors_entriesFrom _ _)
      hawaits.distinct hawaits.adoptable

theorem Keeps.prepare (hr : r.Keeps listen settings x gone) :
    (r.prepare (Manager.create listen settings)).Keeps listen settings x gone := by
  cases hphase : r.phase with
  | stopped h =>
    simp only [Keeps, hphase] at hr
    simp only [Restart.prepare, hphase]
    exact ⟨hr.1, hr.2, .nil r.manager r.kernel h, [], rfl, rfl⟩
  | duplicating h waiting copies =>
    cases waiting with
    | nil => exact hr.fork hphase
    | cons fd waiting => exact hr.duplicate hphase
  | _ =>
    simp only [Restart.prepare, hphase]
    exact hr

theorem hasStarted_iff : r.hasStarted = true ↔ ∃ s, r.successor = some s ∧ s.HasStarted := by
  cases hsuccessor : r.successor with
  | none => simp [hasStarted, hsuccessor]
  | some s =>
    cases hphase : s.phase <;>
      simp [hasStarted, hsuccessor, SuccessorProcess.HasStarted, hphase]

/-- What is closed is not needed: by the handoff, or when the successor has it all. -/
theorem Keeps.cleanUp (hr : r.Keeps listen settings x gone) :
    r.cleanUp.Keeps listen settings x gone := by
  unfold Restart.cleanUp
  split
  · rename_i h copies hphase
    split
    · rename_i hstarted
      simp only [Keeps, hphase] at hr
      obtain ⟨-, -, s, hs, hkeeps⟩ := hr
      obtain ⟨s', hs', hstarted⟩ := hasStarted_iff.1 hstarted
      obtain rfl : s = s' := Option.some.inj (hs.symm.trans hs')
      exact ⟨s, hs, hstarted, hkeeps⟩
    · exact hr
  · rename_i h copy copies hphase
    simp only [Keeps, hphase] at hr
    exact hr
  · rename_i h hphase
    simp only [Keeps, hphase] at hr
    exact hr
  · rename_i fd waiting hphase
    simp only [Keeps, hphase] at hr
    exact hr
  · rename_i hphase
    simp only [Keeps, hphase] at hr
    exact hr
  · rename_i h copy copies hphase
    simp only [Keeps, hphase] at hr
    obtain ⟨hnone, hhands, hloose⟩ := hr
    exact ⟨hnone, hhands.close hloose, (List.forall_mem_cons.1 hloose).2⟩
  · rename_i h hphase
    simp only [Keeps, hphase] at hr
    exact ⟨hr.1, hr.2.1.1, hr.2.1.secures⟩
  · exact hr

theorem Keeps.giveUp (hr : r.Keeps listen settings x gone) :
    r.giveUp.Keeps listen settings x gone := by
  unfold Restart.giveUp
  split
  · rename_i h hphase
    simp only [Keeps, hphase] at hr
    exact ⟨hr.1, hr.2.1, hr.2.secures⟩
  · rename_i h waiting copies hphase
    simp only [Keeps, hphase] at hr
    obtain ⟨hnone, hhands, hspares, -⟩ := hr
    exact ⟨hnone, hhands, hspares.loose⟩
  · rename_i h copies hphase
    split
    · exact hr
    · simp only [Keeps, hphase] at hr
      obtain ⟨hhands, hspares, -⟩ := hr
      exact ⟨rfl, hhands, hspares.loose⟩
  · exact hr

/-- No service fails to resume. -/
theorem Keeps.resume (hr : r.Keeps listen settings x gone) :
    r.resume.Keeps listen settings x gone := by
  unfold Restart.resume
  split
  · rename_i hphase
    simp only [Keeps, hphase] at hr
    exact hr
  · rename_i entry waiting hphase
    simp only [Keeps, hphase] at hr
    obtain ⟨hnone, henabled, hsecures⟩ := hr
    obtain ⟨m', k', hentry, hsecures', hspec⟩ := hsecures.startEntry
    simp only [hentry]
    refine ⟨hnone, (hspec x.1).symm ▸ henabled, hsecures'.mono ?_⟩
    rintro (hgone | hdisabled)
    · exact hgone
    · simp [henabled] at hdisabled
  · exact hr

/-! ## Steps of the successor -/

/-- Steps of the successor change nothing in its predecessor. -/
theorem Keeps.onSuccessor {f : SuccessorProcess → SuccessorProcess}
    (hr : r.Keeps listen settings x gone) (hgone : gone → gone')
    (hkeeps : ∀ s, r.successor = some s → s.Keeps listen settings x gone →
      (f s).Keeps listen settings x gone')
    (hstarted : ∀ s : SuccessorProcess, s.HasStarted → (f s).HasStarted) :
    (r.onSuccessor f).Keeps listen settings x gone' := by
  have hphase : (r.onSuccessor f).phase = r.phase := rfl
  have hnone : r.successor = none → (r.onSuccessor f).successor = none := by
    intro hnone
    unfold Restart.onSuccessor
    rw [hnone, Option.map_none]
  have hsome : ∀ s, r.successor = some s → (r.onSuccessor f).successor = some (f s) := by
    intro s hs
    unfold Restart.onSuccessor
    rw [hs, Option.map_some]
  have hcontinues : r.Continues listen settings x gone →
      (r.onSuccessor f).Continues listen settings x gone' := by
    rintro ⟨s, hs, hs_started, hs_keeps⟩
    exact ⟨f s, hsome s hs, hstarted s hs_started, hkeeps s hs hs_keeps⟩
  unfold Keeps at hr ⊢
  rw [hphase]
  split at hr
  · exact ⟨hnone hr.1, hr.2⟩
  · exact ⟨hnone hr.1, hr.2⟩
  · exact ⟨hnone hr.1, hr.2⟩
  · exact ⟨hnone hr.1, hr.2⟩
  · obtain ⟨hhands, hspares, s, hs, hs_keeps⟩ := hr
    exact ⟨hhands, hspares, f s, hsome s hs, hkeeps s hs hs_keeps⟩
  · exact hcontinues hr
  · exact hcontinues hr
  · exact hcontinues hr
  · exact ⟨hnone hr.1, hr.2⟩
  · exact ⟨hnone hr.1, hr.2.1, hr.2.2.mono hgone⟩
  · exact ⟨hnone hr.1, hr.2.1, hr.2.2.mono hgone⟩

/-! ## All steps -/

/-- The step stops the service that has taken a socket over. -/
def Stops (r : Restart) (x : Protocol × OpenFile) : RestartStep → Prop
  | .stop => r.phase = .resumed ∧ r.manager.Serves r.kernel x.1 x.2
  | .successorStops =>
    ∃ s, r.successor = some s ∧ s.phase = .running ∧ s.manager.Serves s.kernel x.1 x.2
  | _ => False

theorem Keeps.step (hr : r.Keeps listen settings x gone) (st : RestartStep) :
    (r.step (Manager.create listen settings) st).Keeps listen settings x (gone ∨ r.Stops x st) := by
  cases st with
  | exportSockets => exact hr.exportSockets.mono .inl
  | stop => exact hr.stop
  | exitLoop p i => exact (hr.exitLoop p i).mono .inl
  | prepare => exact hr.prepare.mono .inl
  | cleanUp => exact hr.cleanUp.mono .inl
  | giveUp => exact hr.giveUp.mono .inl
  | resume => exact hr.resume.mono .inl
  | successorMoves =>
    refine hr.onSuccessor .inl (fun s _ hs => hs.move.mono .inl) fun s hs => ?_
    rw [hs.move]
    exact hs
  | successorAdopts =>
    exact hr.onSuccessor .inl (fun s _ hs => hs.adopt.mono .inl) fun s hs => hs.adopt
  | successorStarts =>
    exact hr.onSuccessor .inl (fun s _ hs => hs.start.mono .inl) fun s hs => hs.start
  | successorStops =>
    refine hr.onSuccessor .inl (fun s hs hkeeps => hkeeps.stop.mono ?_) fun s hs => hs.stop
    exact Or.imp_right fun hstops => ⟨s, hs, hstops⟩
  | successorExitsLoop p i =>
    exact hr.onSuccessor .inl (fun s _ hs => (hs.exitLoop p i).mono .inl) fun s hs => hs

/-- Somewhere among the steps the service that had taken a socket over was stopped. -/
def Stopped (successor : Manager) (r : Restart) (x : Protocol × OpenFile)
    (ss : List RestartStep) : Prop :=
  ∃ before st after, ss = before ++ st :: after ∧ (r.steps successor before).Stops x st

theorem Keeps.steps (hr : r.Keeps listen settings x False) (ss : List RestartStep) :
    (r.steps (Manager.create listen settings) ss).Keeps listen settings x
      (Stopped (Manager.create listen settings) r x ss) := by
  induction ss using List.reverseRecOn with
  | nil => exact hr.mono False.elim
  | append_singleton ss st ih =>
    have hstep : r.steps (Manager.create listen settings) (ss ++ [st]) =
        (r.steps (Manager.create listen settings) ss).step (Manager.create listen settings) st :=
      List.foldl_append ..
    rw [hstep]
    refine (ih.step st).mono ?_
    rintro (⟨before, st', after, rfl, hstops⟩ | hstops)
    · exact ⟨before, st', after ++ [st], by simp, hstops⟩
    · exact ⟨ss, st, [], rfl, hstops⟩

/-! ## The socket is never closed -/

/-- The predecessor has seen the successor start. -/
def Succeeded (r : Restart) : Prop :=
  match r.phase with
  | .spawned _ _ | .discarding _ | .replaced => True
  | _ => False

/-- The predecessor resumes, or has resumed. -/
def Resumes (r : Restart) : Prop :=
  match r.phase with
  | .resuming _ | .resumed => True
  | _ => False

theorem any_slots_of_file? {k : Kernel} {fd : Descriptor} {file : OpenFile}
    (h : k.table.file? fd = some file) :
    (k.table.slots.any fun s => s.2.file.id == file.id) = true := by
  obtain ⟨slot, hslot, rfl⟩ := Option.map_eq_some_iff.1 h
  exact List.any_eq_true.2 ⟨_, DescriptorTable.mem_slots_of_get? hslot, beq_self_eq_true _⟩

/-- In every phase one of the processes has the socket, unless its service was stopped
    after it had taken the socket over, or is disabled in the successor. -/
theorem Keeps.holds (hr : r.Keeps listen settings x gone) :
    r.holds x.2.id = true ∨ gone ∨ (listen.spec x.1).isEmpty = true ∧ r.Succeeded := by
  have hpredecessor : (∃ fd, r.kernel.table.file? fd = some x.2) → r.holds x.2.id = true := by
    rintro ⟨fd, hfile⟩
    simp [Restart.holds, any_slots_of_file? hfile]
  have hsuccessor : ∀ s, r.successor = some s → (∃ fd, s.kernel.table.file? fd = some x.2) →
      r.holds x.2.id = true := by
    rintro s hs ⟨fd, hfile⟩
    simp [Restart.holds, hs, any_slots_of_file? hfile]
  have hsecured : ∀ {waiting}, r.manager.Secures r.kernel waiting x gone →
      r.holds x.2.id = true ∨ gone ∨ (listen.spec x.1).isEmpty = true ∧ r.Succeeded :=
    fun hsecures => hsecures.exists_open.imp hpredecessor .inl
  have hsucceeded : r.Succeeded → r.Continues listen settings x gone →
      r.holds x.2.id = true ∨ gone ∨ (listen.spec x.1).isEmpty = true ∧ r.Succeeded := by
    rintro hsucceeded ⟨s, hs, hstarted, hkeeps⟩
    rcases hkeeps.exists_open hstarted with hopen | hgone | hdisabled
    · exact .inl (hsuccessor s hs hopen)
    · exact .inr (.inl hgone)
    · exact .inr (.inr ⟨hdisabled, hsucceeded⟩)
  unfold Keeps at hr
  split at hr
  · obtain ⟨-, -, b, -, hfile⟩ := hr
    exact .inl (hpredecessor ⟨b.fd, hfile⟩)
  · obtain ⟨-, -, sockets, hx, hoffered⟩ := hr
    exact .inl (hpredecessor (hoffered.carries.exists_open hx))
  · exact .inl (hpredecessor hr.2.exists_open)
  · exact .inl (hpredecessor hr.2.1.exists_open)
  · exact .inl (hpredecessor hr.1.exists_open)
  · rename_i h copies hphase
    exact hsucceeded (by simp [Succeeded, hphase]) hr
  · rename_i waiting hphase
    exact hsucceeded (by simp [Succeeded, hphase]) hr
  · rename_i hphase
    exact hsucceeded (by simp [Succeeded, hphase]) hr
  · exact .inl (hpredecessor hr.2.1.exists_open)
  · exact hsecured hr.2.2
  · exact hsecured hr.2.2

/-- A predecessor that has seen its successor start neither resumes nor starts again. -/
theorem Succeeded.step {successor : Manager} (hr : r.Succeeded) (st : RestartStep) :
    (r.step successor st).Succeeded := by
  unfold Succeeded at hr
  cases st with
  | cleanUp =>
    simp only [Restart.step, Restart.cleanUp]
    split <;> simp_all [Succeeded]
  | _ =>
    split at hr <;>
      simp_all [Succeeded, Restart.step, Restart.exportSockets, Restart.stop, Restart.exitLoop,
        Restart.prepare, Restart.giveUp, Restart.resume, Restart.onSuccessor]

/-- A predecessor that resumes starts no other successor. -/
theorem Resumes.step {successor : Manager} (hr : r.Resumes) (st : RestartStep) :
    (r.step successor st).Resumes := by
  unfold Resumes at hr
  cases st with
  | resume =>
    simp only [Restart.step, Restart.resume]
    split
    · simp [Resumes]
    · split <;> simp [Resumes]
    · exact hr
  | _ =>
    split at hr <;>
      simp_all [Resumes, Restart.step, Restart.exportSockets, Restart.stop, Restart.exitLoop,
        Restart.prepare, Restart.cleanUp, Restart.giveUp, Restart.onSuccessor]

theorem Resumes.not_succeeded (hr : r.Resumes) : ¬ r.Succeeded := by
  unfold Resumes at hr
  split at hr
  · rename_i hphase
    simp [Succeeded, hphase]
  · rename_i hphase
    simp [Succeeded, hphase]
  · exact hr.elim

/-- What every step keeps, all of them keep. -/
theorem steps_of_step {successor : Manager} {P : Restart → Prop}
    (hstep : ∀ r st, P r → P (r.step successor st)) (ss : List RestartStep) (hr : P r) :
    P (r.steps successor ss) := by
  induction ss generalizing r with
  | nil => exact hr
  | cons st ss ih => exact ih (hstep r st hr)

theorem steps_append {successor : Manager} (r : Restart) (ss ss' : List RestartStep) :
    r.steps successor (ss ++ ss') = (r.steps successor ss).steps successor ss' :=
  List.foldl_append ..

theorem Stopped.append {successor : Manager} {ss : List RestartStep} (h : Stopped successor r x ss)
    (ss' : List RestartStep) : Stopped successor r x (ss ++ ss') := by
  obtain ⟨before, st, after, rfl, hstops⟩ := h
  exact ⟨before, st, after ++ ss', by simp, hstops⟩

/-- A service has taken a socket over: one of the successor, or one that has resumed. -/
def TakenOver (r : Restart) (x : Protocol × OpenFile) : Prop :=
  (∃ s, r.successor = some s ∧ s.manager.Serves s.kernel x.1 x.2) ∨
    r.Resumes ∧ r.manager.Serves r.kernel x.1 x.2

theorem Keeps.successor {s : SuccessorProcess} (hr : r.Keeps listen settings x gone)
    (hs : r.successor = some s) : s.Keeps listen settings x gone := by
  have hnot : r.successor ≠ none := by simp [hs]
  have hsame : ∀ s', r.successor = some s' → s'.Keeps listen settings x gone →
      s.Keeps listen settings x gone := by
    intro s' hs' hkeeps
    rwa [Option.some.inj (hs.symm.trans hs')]
  have hcontinues : r.Continues listen settings x gone → s.Keeps listen settings x gone := by
    rintro ⟨s', hs', -, hkeeps⟩
    exact hsame s' hs' hkeeps
  unfold Keeps at hr
  split at hr
  · exact absurd hr.1 hnot
  · exact absurd hr.1 hnot
  · exact absurd hr.1 hnot
  · exact absurd hr.1 hnot
  · obtain ⟨-, -, s', hs', hkeeps⟩ := hr
    exact hsame s' hs' hkeeps
  · exact hcontinues hr
  · exact hcontinues hr
  · exact hcontinues hr
  · exact absurd hr.1 hnot
  · exact absurd hr.1 hnot
  · exact absurd hr.1 hnot

/-- Let a service be bound to a socket, and a restart take any steps. The socket is open
    in one of the processes, unless the service that took it over was stopped, or the
    successor was seen to start with the service disabled. In particular, if a service
    takes it over and is not stopped, it was open all the time. -/
theorem holds_until_stopped {m : Manager} {k : Kernel} (hm : m.Reachable k) {p : Protocol}
    {file : OpenFile} (hserves : m.Serves k p file) (listen : ListenConfig) (settings : Settings)
    (ss : List RestartStep) :
    let successor := Manager.create listen settings
    let r : Restart := { manager := m, kernel := k }
    ((r.steps successor ss).holds file.id = true ∨ Stopped successor r (p, file) ss ∨
      (listen.spec p).isEmpty = true ∧ (r.steps successor ss).Succeeded) ∧
    ((∃ taken, taken <+: ss ∧ (r.steps successor taken).TakenOver (p, file)) →
      ¬ Stopped successor r (p, file) ss →
      ∀ before, before <+: ss → (r.steps successor before).holds file.id = true) := by
  intro successor r
  have hr : r.Keeps listen settings (p, file) False := ⟨rfl, hm.sound, hserves⟩
  refine ⟨(hr.steps ss).holds, ?_⟩
  rintro ⟨taken, htaken, hover⟩ hnot before ⟨rest, rfl⟩
  rcases (hr.steps before).holds with hholds | hstopped | ⟨hdisabled, hsucceeded⟩
  · exact hholds
  · exact absurd (hstopped.append rest) hnot
  · exfalso
    rcases hover with ⟨s, hs, hserved⟩ | ⟨hresumes, -⟩
    · have henabled := ((hr.steps taken).successor hs).enabled hserved
      simp [henabled] at hdisabled
    · -- both ways out of the restart are final
      obtain ⟨rest', hrest'⟩ := htaken
      have hend : (r.steps successor (before ++ rest)).Succeeded := by
        rw [steps_append]
        exact steps_of_step (fun _ st h => h.step st) rest hsucceeded
      have hend' : (r.steps successor (taken ++ rest')).Resumes := by
        rw [steps_append]
        exact steps_of_step (fun _ st h => h.step st) rest' hresumes
      rw [hrest'] at hend'
      exact hend'.not_succeeded hend

/-- A successor takes over the one socket of its predecessor, whose loop exits meanwhile. -/
theorem holds_until_stopped_text :
    let file : OpenFile := ⟨41, .listener ⟨.loopback, 2003⟩⟩
    let k : Kernel := { table := ⟨[(3, ⟨file, true⟩)]⟩ }
    let m := ((Manager.create .loopback).resume ⟨[("gt", 3)]⟩ k).2.1
    let successor := Manager.create .loopback
    let r : Restart := { manager := m, kernel := k }
    let ss : List RestartStep := [.exportSockets, .stop, .prepare, .exitLoop .graphiteText 0,
      .prepare, .prepare, .successorMoves, .successorMoves, .cleanUp, .cleanUp, .cleanUp,
      .successorAdopts, .cleanUp, .cleanUp, .successorStarts, .successorStarts]
    m.Reachable k ∧ m.Serves k .graphiteText file ∧
      (r.steps successor ss).TakenOver (.graphiteText, file) ∧
      ¬ Stopped successor r (.graphiteText, file) ss ∧
      ∀ before, before <+: ss → (r.steps successor before).holds 41 = true := by
  intro file k m successor r ss
  have hm : m.Reachable k := by
    have hresumed := Manager.Reachable.resumed (.created .loopback {} k) ⟨[("gt", 3)]⟩
      (by decide) (by
        rintro fd - ⟨p, l, hl, -⟩
        cases hl)
    exact hresumed
  have hserves : m.Serves k .graphiteText file := ⟨⟨3, .tcp, ⟨.loopback, 2003⟩⟩, rfl, rfl⟩
  have hover : (r.steps successor ss).TakenOver (.graphiteText, file) := by
    have hstate : (r.steps successor ss).successor.map (fun s =>
        ((s.manager.services .graphiteText).socket.holding, s.kernel.table.file? 3)) =
        some (.held ⟨3, .tcp, ⟨.loopback, 2003⟩⟩, some file) := by decide
    obtain ⟨s, hs, hstate⟩ := Option.map_eq_some_iff.1 hstate
    obtain ⟨hheld, hfile⟩ := Prod.mk.inj hstate
    exact .inl ⟨s, hs, _, hheld, hfile⟩
  have hnot : ¬ Stopped successor r (.graphiteText, file) ss := by
    rintro ⟨before, st, after, hss, hstops⟩
    have hst : st ∈ ss := by simp [hss]
    have hresumed : ∀ before ∈ ss.inits, (r.steps successor before).phase ≠ .resumed := by decide
    cases st with
    | stop => exact hresumed before ((List.mem_inits _ _).2 ⟨_, hss.symm⟩) hstops.1
    | successorStops => exact absurd hst (by decide)
    | _ => exact hstops
  obtain ⟨-, hholds⟩ := holds_until_stopped hm hserves .loopback {} ss
  exact ⟨hm, hserves, hover, hnot, hholds ⟨ss, List.prefix_rfl, hover⟩ hnot⟩

end Restart
end MetricIntake
