-- SUMMARY: Taking inherited descriptors: all of them or none, which one is refused, what is closed then, and that no service is touched.
import MetricIntake.Proofs.Manifest
import MetricIntake.Proofs.Service.Manager

/-!
# Taking inherited descriptors

The descriptors of a manifest are taken one after the other, and each belongs to the
process from then on. If one of them is no open socket, those before it have been taken
and are closed, and it and those after it never were. A manager takes the descriptors
before it starts any service, so a refusal is the only error of this kind, and it leaves
the services alone.
-/

namespace MetricIntake

variable {k k' : Kernel} {base : Int}

/-! ## Errors of services -/

theorem Service.exists_eq_start (s : Service) {inherited : Option Descriptor} {e : ServiceError}
    (h : (s.start inherited k).1 = .error e) : ∃ p source, e = .start p source := by
  unfold start at h
  split at h
  · cases h
  · rcases hacquired : s.renew.acquire inherited k with ⟨source | address, s', k'⟩
    · rw [hacquired] at h
      exact ⟨_, source, (Except.error.inj h).symm⟩
    · rw [hacquired] at h
      dsimp only at h
      rcases hspawned : s'.spawnLoop with ⟨source | _, s''⟩
      · rw [hspawned] at h
        exact ⟨_, source, (Except.error.inj h).symm⟩
      · rw [hspawned] at h
        cases h

namespace Manager

variable {m : Manager} {e : ServiceError}

theorem exists_eq_start_of_startEntry {entry : String × Descriptor}
    (h : (m.startEntry entry k).1 = .error e) : ∃ p source, e = .start p source := by
  unfold startEntry at h
  split at h
  · cases h
  · exact (m.services _).exists_eq_start h

theorem exists_eq_start_of_startFresh {protocols : List Protocol}
    (h : (startFresh protocols m k).1 = .error e) : ∃ p source, e = .start p source := by
  induction protocols generalizing m k with
  | nil => cases h
  | cons protocol rest ih =>
    unfold startFresh at h
    split at h
    · rename_i hstart
      obtain rfl := Except.error.inj h
      exact (m.services protocol).exists_eq_start (congrArg Prod.fst hstart)
    · exact ih h

theorem exists_eq_start_of_startInherited {entries : List (String × Descriptor)}
    (h : (startInherited entries m k).1 = .error e) : ∃ p source, e = .start p source := by
  induction entries generalizing m k with
  | nil => cases h
  | cons entry rest ih =>
    unfold startInherited at h
    split at h
    · rename_i hstart
      obtain rfl := Except.error.inj h
      exact exists_eq_start_of_startEntry (congrArg Prod.fst hstart)
    · exact ih h

/-- A manager reports that descriptors are refused exactly when they are, and then it is
    what it was. -/
theorem run_eq_handoff_iff (m : Manager) (manifest : Manifest) (base : Descriptor) (k : Kernel)
    {source : SocketError} {m' : Manager} {k' : Kernel} :
    m.run manifest base k = (.error (.handoff source), m', k') ↔
      manifest.adopt base k = (.error source, k') ∧ m' = m := by
  have hstarted : ∀ p source', (ServiceError.start p source') ≠ .handoff source := nofun
  cases manifest with
  | nil =>
    constructor
    · intro h
      obtain ⟨p, source', hstart⟩ := exists_eq_start_of_startFresh (congrArg Prod.fst h)
      exact absurd hstart.symm (hstarted p source')
    · rintro ⟨h, -⟩
      cases h
  | cons key keys =>
    rcases hadopt : Manifest.adopt (key :: keys) base k with ⟨e | h, k₁⟩
    · have hrun : m.run (key :: keys) base k = (.error (.handoff e), m, k₁) := by
        rw [run, hadopt]
        rfl
      rw [hrun]
      simp only [Prod.mk.injEq, Except.error.injEq, ServiceError.handoff.injEq]
      constructor
      · rintro ⟨rfl, rfl, rfl⟩
        exact ⟨⟨rfl, rfl⟩, rfl⟩
      · rintro ⟨⟨rfl, rfl⟩, rfl⟩
        exact ⟨rfl, rfl, rfl⟩
    · have hrun : m.run (key :: keys) base k = m.resume h k₁ := by
        rw [run, hadopt]
        rfl
      rw [hrun]
      constructor
      · intro hresume
        obtain ⟨p, source', hstart⟩ := exists_eq_start_of_startInherited (congrArg Prod.fst hresume)
        exact absurd hstart.symm (hstarted p source')
      · rintro ⟨h, -⟩
        cases h

end Manager

/-! ## Taking and refusing -/

/-- Between two kernels a number of descriptors from one on have been closed, and nothing
    else has happened. -/
structure Kernel.ClosesFrom (k : Kernel) (base : Descriptor) (n : Nat) (k' : Kernel) : Prop where
  closed : ∀ fd, base ≤ fd → fd < base + n → k'.table.get? fd = none
  same : ∀ fd, ¬ (base ≤ fd ∧ fd < base + n) → k'.table.get? fd = k.table.get? fd
  rest : k' = { k with table := k'.table }

theorem Manifest.closesFrom_closeAll (k : Kernel) (m : Manifest) (base : Int) {n : Nat}
    (hn : n ≤ m.length) :
    k.ClosesFrom base n (k.closeAll (((m.entriesFrom base).take n).map (·.2))) := by
  have hmem : ∀ fd, fd ∈ ((m.entriesFrom base).take n).map (·.2) ↔ base ≤ fd ∧ fd < base + n := by
    intro fd
    rw [← entriesFrom_take, mem_descriptors_entriesFrom, List.length_take, min_eq_left hn]
    constructor
    · rintro ⟨i, hi, rfl⟩
      omega
    · rintro ⟨hle, hlt⟩
      exact ⟨(fd - base).toNat, by omega, by omega⟩
  constructor
  · intro fd hle hlt
    rw [Kernel.closeAll, DescriptorTable.get?_closeAll, if_pos ((hmem fd).2 ⟨hle, hlt⟩)]
  · intro fd hfd
    rw [Kernel.closeAll, DescriptorTable.get?_closeAll, if_neg (mt (hmem fd).1 hfd)]
  · rfl

/-- The descriptors of a manifest are taken exactly if all of them are open sockets, and
    then they are paired with the keys in their order and nothing is closed. Otherwise the
    first that is no open socket is reported with its key, those before it are closed, and
    nothing else changes. A manager that is run on the manifest reports this error exactly
    then, and is what it was. -/
theorem Manifest.adopt_iff_sockets (m : Manifest) (base : Descriptor) (k : Kernel) :
    ((∃ h k', m.adopt base k = (.ok h, k')) ↔
      ∀ i < m.length, k.isSocket (base + (i : Nat)) = true) ∧
    (∀ h k', m.adopt base k = (.ok h, k') →
      k' = k ∧ ∀ i : Nat, h.entries[i]? = m[i]?.map fun key => (key, base + i)) ∧
    (∀ e k', m.adopt base k = (.error e, k') →
      ∃ i key, Refuses k m base i key ∧ e = .notASocket (base + i) key ∧
        k.ClosesFrom base i k') ∧
    ∀ (manager manager' : Manager) (e : SocketError) (k' : Kernel),
      manager.run m base k = (.error (.handoff e), manager', k') ↔
        m.adopt base k = (.error e, k') ∧ manager' = manager := by
  have hrun : ∀ (manager manager' : Manager) (e : SocketError) (k' : Kernel),
      manager.run m base k = (.error (.handoff e), manager', k') ↔
        m.adopt base k = (.error e, k') ∧ manager' = manager :=
    fun manager _ _ _ => manager.run_eq_handoff_iff m base k
  rcases adoptFrom_cases (k := k) [] m base with ⟨hsockets, hok⟩ | ⟨i, key, hrefuses, herror⟩
  · have hadopt : m.adopt base k = (.ok ⟨m.entriesFrom base⟩, k) := hok
    refine ⟨⟨fun _ => hsockets, fun _ => ⟨_, k, hadopt⟩⟩, ?_, ?_, hrun⟩
    · intro h k' h'
      rw [hadopt, Prod.mk.injEq, Except.ok.injEq] at h'
      obtain ⟨rfl, rfl⟩ := h'
      exact ⟨rfl, m.getElem?_entriesFrom base⟩
    · intro e k' h'
      rw [hadopt] at h'
      cases h'
  · have hadopt : m.adopt base k = (.error (.notASocket (base + i) key),
        k.closeAll (((m.entriesFrom base).take i).map (·.2))) := herror
    refine ⟨⟨?_, ?_⟩, ?_, ?_, hrun⟩
    · rintro ⟨h, k', h'⟩
      rw [hadopt] at h'
      cases h'
    · intro hsockets
      have hsocket := hsockets i hrefuses.lt_length
      rw [hrefuses.refused] at hsocket
      cases hsocket
    · intro h k' h'
      rw [hadopt] at h'
      cases h'
    · intro e k' h'
      rw [hadopt, Prod.mk.injEq, Except.error.injEq] at h'
      obtain ⟨rfl, rfl⟩ := h'
      exact ⟨i, key, hrefuses, rfl, closesFrom_closeAll k m base hrefuses.lt_length.le⟩

/-- A manager that serves is run once more on descriptors of which the third is a file that
    is no socket. -/
theorem Manifest.adopt_iff_sockets_third_refused :
    let address : Address := ⟨.loopback, 2003⟩
    let inherited : DescriptorTable OpenFile := ⟨[(700, ⟨⟨0, .listener address⟩, false⟩),
      (701, ⟨⟨1, .datagram address⟩, false⟩), (702, ⟨⟨2, .plain⟩, false⟩),
      (703, ⟨⟨3, .listener address⟩, false⟩)]⟩
    let started := (Manager.create .loopback).run [] 3 { table := inherited, nextFile := 4 }
    let manager := started.2.1
    let k := started.2.2
    (manager.services .graphiteText).state = .bound ∧
      ∃ k', manager.run ["gt", "gu", "gp", "www"] 700 k =
          (.error (.handoff (.notASocket 702 "gp")), manager, k') ∧
        k.ClosesFrom 700 2 k' := by
  intro address inherited started manager k
  have hbound : (manager.services .graphiteText).state = .bound := by decide +kernel
  have hthird : Manifest.Refuses k ["gt", "gu", "gp", "www"] 700 2 "gp" :=
    ⟨rfl, by decide +kernel, by decide +kernel⟩
  obtain ⟨htaken, -, hrefused, hrun⟩ := adopt_iff_sockets ["gt", "gu", "gp", "www"] 700 k
  rcases hadopt : Manifest.adopt ["gt", "gu", "gp", "www"] 700 k with ⟨e | h, k'⟩
  · obtain ⟨i, key, hrefuses, rfl, hcloses⟩ := hrefused e k' hadopt
    obtain ⟨rfl, rfl⟩ := hthird.unique hrefuses
    exact ⟨hbound, k', (hrun manager manager _ k').2 ⟨hadopt, rfl⟩, hcloses⟩
  · have hsocket := htaken.1 ⟨h, k', hadopt⟩ 2 hthird.lt_length
    rw [hthird.refused] at hsocket
    cases hsocket

end MetricIntake
