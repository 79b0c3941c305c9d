-- SUMMARY: Bound sockets exported under the keys of their services, and services started on sockets that arrive so.
import MetricIntake.Proofs.Service.Manager

/-!
# Handing sockets over

Exporting gives one entry for every bound service, in order, each with a new
descriptor of the file that the service is bound to. Entries that carry sockets in
this way, wherever they have been meanwhile, can be started on: every service ends
up bound to the file that was carried under its key.
-/

namespace MetricIntake.Manager

open ListeningSocket (inspect)

variable {m m' : Manager} {k k' : Kernel} {given : Set Descriptor} {p : Protocol} {file : OpenFile}
  {entries : List (String × Descriptor)} {sockets : List (Protocol × OpenFile)}

/-! ## Bound services -/

/-- A service is bound to a file. -/
def Serves (m : Manager) (k : Kernel) (p : Protocol) (file : OpenFile) : Prop :=
  ∃ b, (m.services p).socket.holding = .held b ∧ k.table.file? b.fd = some file

/-- What a bound service is bound to can be adopted again. -/
theorem Serves.adoptable (hm : m.Sound k) (h : m.Serves k p file) :
    ∃ address, file.Serves p.transport address ∧ (m.services p).address? = some address ∧
      (m.services p).spec.isEmpty = false := by
  obtain ⟨b, hb, hfile⟩ := h
  obtain ⟨-, hinspect, haddress, hspec⟩ := (hm.service p).held hb
  obtain ⟨file', hfile', hserves, -⟩ := ListeningSocket.inspect_eq_ok_iff.1 hinspect
  rw [hfile, Option.some.injEq] at hfile'
  rw [← hfile', hm.protocol] at hserves
  exact ⟨b.address, hserves, haddress, hspec⟩

/-- The address of a bound service is that of the file. -/
theorem Serves.address? (hm : m.Sound k) (h : m.Serves k p file) :
    (m.services p).address? = file.kind.address? := by
  obtain ⟨address, hserves, haddress, -⟩ := h.adoptable hm
  rw [haddress, hserves.address]

theorem Sound.exists_serves (hm : m.Sound k) (h : (m.services p).state = .bound) :
    ∃ file, m.Serves k p file := by
  obtain ⟨b, hb⟩ := Service.state_eq_bound_iff.1 h
  obtain ⟨-, hinspect, -, -⟩ := (hm.service p).held hb
  obtain ⟨file, hfile, -, -⟩ := ListeningSocket.inspect_eq_ok_iff.1 hinspect
  exact ⟨file, b, hb, hfile⟩

theorem Serves.unique {file' : OpenFile} (h : m.Serves k p file) (h' : m.Serves k p file') :
    file = file' := by
  obtain ⟨b, hb, hfile⟩ := h
  obtain ⟨b', hb', hfile'⟩ := h'
  obtain rfl : b = b' := Holding.held.inj (hb.symm.trans hb')
  exact Option.some.inj (hfile.symm.trans hfile')

theorem Serves.state (h : m.Serves k p file) : (m.services p).state = .bound :=
  Service.state_eq_bound_iff.2 (h.imp fun _ hb => hb.1)

/-- Services that are bound to one file are at one address. -/
theorem Serves.address?_eq (hm : m.Sound k) (hm' : m'.Sound k') (h : m.Serves k p file)
    (h' : m'.Serves k' p file) : (m'.services p).address? = (m.services p).address? :=
  (h'.address? hm').trans (h.address? hm).symm

/-- A service that stays bound stays bound to the same file. -/
theorem Serves.evolves (h : m.Serves k p file) (hevolves : m.Evolves k given m' k')
    (hsame : (m'.services p).socket.holding = (m.services p).socket.holding) :
    m'.Serves k' p file := by
  obtain ⟨b, hb, hfile⟩ := h
  rw [← hsame] at hb
  have howned : b.fd ∈ m'.owned := ⟨p, ((hevolves.sound.service p).held hb).1⟩
  have hsame := hevolves.retains.same b.fd (.inl howned)
  exact ⟨b, hb, (DescriptorTable.file?_congr hsame).trans hfile⟩

/-- Whether a service is bound to a file does not depend on what others own. -/
theorem Serves.congr (hm : m.Sound k) (h : m.Serves k p file)
    (hsame : ∀ fd ∈ m.owned, k'.table.get? fd = k.table.get? fd) : m.Serves k' p file := by
  obtain ⟨b, hb, hfile⟩ := h
  have howned : b.fd ∈ m.owned := ⟨p, ((hm.service p).held hb).1⟩
  exact ⟨b, hb, (DescriptorTable.file?_congr (hsame b.fd howned)).trans hfile⟩

/-! ## Exporting -/

/-- Entries carry sockets: each has the key of the protocol and a descriptor of the file. -/
def Carries (k : Kernel) (entries : List (String × Descriptor))
    (sockets : List (Protocol × OpenFile)) : Prop :=
  List.Forall₂ (fun entry s => entry.1 = s.1.key ∧ k.table.file? entry.2 = some s.2)
    entries sockets

theorem Carries.keys (h : Carries k entries sockets) :
    entries.map (·.1) = (sockets.map (·.1)).map Protocol.key := by
  induction h with
  | nil => rfl
  | cons hentry _ ih => rw [List.map_cons, hentry.1, ih]; rfl

theorem Carries.exists_socket (h : Carries k entries sockets) {fd : Descriptor}
    (hfd : fd ∈ entries.map (·.2)) : ∃ s ∈ sockets, k.table.file? fd = some s.2 := by
  induction h with
  | nil => cases hfd
  | cons hentry _ ih =>
    rcases List.mem_cons.1 hfd with rfl | hmem
    · exact ⟨_, List.mem_cons_self, hentry.2⟩
    · obtain ⟨s, hs, hfile⟩ := ih hmem
      exact ⟨s, List.mem_cons_of_mem _ hs, hfile⟩

theorem Carries.get?_ne_none (h : Carries k entries sockets) :
    ∀ fd ∈ entries.map (·.2), k.table.get? fd ≠ none := by
  intro fd hfd
  obtain ⟨s, -, hfile⟩ := h.exists_socket hfd
  exact DescriptorTable.get?_ne_none_iff.2 ⟨s.2, hfile⟩

/-- What is carried is open. -/
theorem Carries.exists_open (h : Carries k entries sockets) {s : Protocol × OpenFile}
    (hs : s ∈ sockets) : ∃ fd, k.table.file? fd = some s.2 := by
  induction h with
  | nil => cases hs
  | cons hentry _ ih =>
    rcases List.mem_cons.1 hs with rfl | hmem
    · exact ⟨_, hentry.2⟩
    · exact ih hmem

/-- What carries sockets goes on to do so while its descriptors are left alone. -/
theorem Carries.congr (h : Carries k entries sockets)
    (hsame : ∀ fd ∈ entries.map (·.2), k'.table.get? fd = k.table.get? fd) :
    Carries k' entries sockets := by
  induction h with
  | nil => exact .nil
  | cons hentry _ ih =>
    rw [List.map_cons, List.forall_mem_cons] at hsame
    exact .cons ⟨hentry.1, (DescriptorTable.file?_congr hsame.1).trans hentry.2⟩ (ih hsame.2)

/-- What exporting makes of the bound services among some protocols. -/
structure Exports (m : Manager) (k : Kernel) (protocols : List Protocol)
    (entries : List (String × Descriptor)) (sockets : List (Protocol × OpenFile))
    (k' : Kernel) : Prop where
  protocols : sockets.map (·.1) = protocols.filter fun p => (m.services p).state = .bound
  serves : ∀ s ∈ sockets, m.Serves k s.1 s.2
  carries : Carries k' entries sockets
  nodup : (entries.map (·.2)).Nodup
  fresh : ∀ fd ∈ entries.map (·.2), k.table.get? fd = none
  same : ∀ fd, fd ∉ entries.map (·.2) → k'.table.get? fd = k.table.get? fd

theorem Exports.nil (m : Manager) (k : Kernel) : m.Exports k [] [] [] k :=
  ⟨rfl, nofun, .nil, List.nodup_nil, nofun, fun _ _ => rfl⟩

/-- A service that is not bound is left out. -/
theorem Exports.skip {protocols : List Protocol} (hstate : (m.services p).state ≠ .bound)
    (h : m.Exports k protocols entries sockets k') :
    m.Exports k (p :: protocols) entries sockets k' where
  __ := h
  protocols := by simpa [hstate] using h.protocols

/-- A bound service comes with a copy of its socket. -/
theorem Exports.cons {protocols : List Protocol} {k₁ : Kernel} {copy : Descriptor} (hm : m.Sound k)
    (hserves : m.Serves k p file) (hfree : k.table.get? copy = none)
    (hcopy : k₁.table.file? copy = some file)
    (hsame : ∀ fd, fd ≠ copy → k₁.table.get? fd = k.table.get? fd)
    (h : m.Exports k₁ protocols entries sockets k') :
    m.Exports k (p :: protocols) ((p.key, copy) :: entries) ((p, file) :: sockets) k' := by
  have howned : ∀ fd ∈ m.owned, k₁.table.get? fd = k.table.get? fd :=
    fun fd hfd => hsame fd (hm.ne_of_mem_owned hfd hfree)
  -- the copy is open by now, so no later one takes its place
  have hcopy_not_mem : copy ∉ entries.map (·.2) := fun hmem =>
    DescriptorTable.get?_ne_none_iff.2 ⟨file, hcopy⟩ (h.fresh copy hmem)
  constructor
  · simpa [hserves.state] using h.protocols
  · refine List.forall_mem_cons.2 ⟨hserves, fun s hs => ?_⟩
    exact (h.serves s hs).congr (hm.congr howned) fun fd hfd => (howned fd hfd).symm
  · have hcopied := DescriptorTable.file?_congr (h.same copy hcopy_not_mem)
    exact .cons ⟨rfl, hcopied.trans hcopy⟩ h.carries
  · exact List.nodup_cons.2 ⟨hcopy_not_mem, h.nodup⟩
  · refine List.forall_mem_cons.2 ⟨hfree, fun fd hfd => ?_⟩
    rw [← hsame fd (ne_of_mem_of_not_mem hfd hcopy_not_mem)]
    exact h.fresh fd hfd
  · intro fd hfd
    rw [List.map_cons, List.mem_cons, not_or] at hfd
    rw [h.same fd hfd.2, hsame fd hfd.1]

/-- Exporting duplicates the socket of every bound service, in order, and changes
    nothing else. -/
theorem Sound.exists_exportFrom (hm : m.Sound k) (protocols : List Protocol) (h : Handoff) :
    ∃ entries sockets k', m.exportFrom protocols h k = (⟨h.entries ++ entries⟩, k') ∧
      m.Exports k protocols entries sockets k' := by
  induction protocols generalizing h k with
  | nil =>
    refine ⟨[], [], k, ?_, .nil m k⟩
    rw [exportFrom, List.append_nil]
  | cons p protocols ih =>
    by_cases hstate : (m.services p).state = .bound
    · obtain ⟨file, hserves⟩ := hm.exists_serves hstate
      obtain ⟨b, hb, hfile⟩ := hserves
      obtain ⟨copy, k₁, hcopy, hfree, hnew, hsame⟩ := Kernel.exists_duplicate hfile
      have hdup : (m.services p).duplicate? k = some (copy, k₁) := by
        simp [Service.duplicate?, ListeningSocket.duplicate?, hb, hcopy]
      have hm₁ : m.Sound k₁ := hm.congr fun fd howned =>
        hsame fd (hm.ne_of_mem_owned howned hfree)
      obtain ⟨entries, sockets, k', hexport, hexports⟩ := ih hm₁ (h.push p.key copy)
      refine ⟨_, _, k', ?_, hexports.cons hm ⟨b, hb, hfile⟩ hfree hnew hsame⟩
      simp only [exportFrom, hdup, hexport]
      rw [Handoff.push, List.append_assoc, List.singleton_append]
    · have hdup : (m.services p).duplicate? k = none := by
        refine Option.eq_none_iff_forall_ne_some.2 fun copy hcopy => ?_
        exact hstate (Service.state_eq_bound_of_duplicate? hcopy)
      obtain ⟨entries, sockets, k', hexport, hexports⟩ := ih hm h
      refine ⟨entries, sockets, k', ?_, hexports.skip hstate⟩
      simp only [exportFrom, hdup, hexport]

theorem Sound.exists_exportSockets (hm : m.Sound k) :
    ∃ entries sockets k', m.exportSockets k = (⟨entries⟩, k') ∧
      m.Exports k Protocol.all entries sockets k' := by
  obtain ⟨entries, sockets, k', hexport, hexports⟩ := hm.exists_exportFrom Protocol.all {}
  exact ⟨entries, sockets, k', hexport, hexports⟩

theorem Exports.distinct (h : m.Exports k Protocol.all entries sockets k') :
    (sockets.map (·.1)).Nodup := by
  rw [h.protocols]
  exact List.Nodup.filter _ (by decide)

theorem Exports.adoptable {protocols : List Protocol} (hm : m.Sound k)
    (h : m.Exports k protocols entries sockets k') :
    ∀ s ∈ sockets, ∃ address, s.2.Serves s.1.transport address := by
  intro s hs
  obtain ⟨address, hserves, -, -⟩ := (h.serves s hs).adoptable hm
  exact ⟨address, hserves⟩

/-- Exactly the bound services are exported. -/
theorem Exports.mem_protocols_iff (h : m.Exports k Protocol.all entries sockets k') :
    p ∈ sockets.map (·.1) ↔ (m.services p).state = .bound := by
  rw [h.protocols, List.mem_filter]
  simp [Protocol.mem_all]

theorem Exports.exists_socket_iff (h : m.Exports k Protocol.all entries sockets k') :
    (∃ file, (p, file) ∈ sockets) ↔ (m.services p).state = .bound := by
  rw [← h.mem_protocols_iff, List.mem_map]
  constructor
  · rintro ⟨file, hs⟩
    exact ⟨(p, file), hs, rfl⟩
  · rintro ⟨⟨q, file⟩, hs, rfl⟩
    exact ⟨file, hs⟩

theorem Exports.mem_sockets (h : m.Exports k Protocol.all entries sockets k')
    (hserves : m.Serves k p file) : (p, file) ∈ sockets := by
  obtain ⟨file', hmem⟩ := h.exists_socket_iff.2 hserves.state
  rw [hserves.unique (h.serves _ hmem)]
  exact hmem

/-! ## Starting on what has arrived -/

/-- Sockets are at descriptors that nothing owns, for services of different protocols that
    can adopt them. -/
structure Offered (m : Manager) (k : Kernel) (entries : List (String × Descriptor))
    (sockets : List (Protocol × OpenFile)) : Prop where
  sound : m.Sound k
  carries : Carries k entries sockets
  nodup : (entries.map (·.2)).Nodup
  loose : ∀ fd ∈ entries.map (·.2), fd ∉ m.owned
  distinct : (sockets.map (·.1)).Nodup
  adoptable : ∀ s ∈ sockets, ∃ address, s.2.Serves s.1.transport address

/-- The services that sockets are offered to are not bound. -/
structure Awaits (m : Manager) (k : Kernel) (entries : List (String × Descriptor))
    (sockets : List (Protocol × OpenFile)) : Prop extends Offered m k entries sockets where
  idle : ∀ s ∈ sockets, (m.services s.1).state ≠ .bound

/-- Nobody owns what is exported. -/
theorem Exports.offered (hm : m.Sound k) (h : m.Exports k Protocol.all entries sockets k') :
    m.Offered k' entries sockets := by
  have hloose : ∀ fd ∈ entries.map (·.2), fd ∉ m.owned := fun fd hfd howned =>
    hm.get?_ne_none howned (h.fresh fd hfd)
  exact {
    sound := hm.congr fun fd howned => h.same fd fun hfd => hloose fd hfd howned
    carries := h.carries
    nodup := h.nodup
    loose := hloose
    distinct := h.distinct
    adoptable := h.adoptable hm }

/-- What is offered goes on to be while the manager does something else. -/
theorem Offered.evolves (h : m.Offered k entries sockets) (hevolves : m.Evolves k given m' k')
    (hgiven : ∀ fd ∈ entries.map (·.2), fd ∉ given) : m'.Offered k' entries sockets where
  __ := h
  sound := hevolves.sound
  carries := h.carries.congr fun fd hfd => hevolves.retains.same fd
    (.inr fun hmem => hmem.elim (hgiven fd hfd) (h.loose fd hfd))
  loose fd hfd howned :=
    (hevolves.owned_subset howned).elim (hgiven fd hfd) (h.loose fd hfd)

/-- What is offered does not depend on descriptors that have nothing to do with it. -/
theorem Offered.congr (h : m.Offered k entries sockets)
    (hsame : ∀ fd, fd ∈ entries.map (·.2) ∨ fd ∈ m.owned →
      k'.table.get? fd = k.table.get? fd) : m.Offered k' entries sockets where
  __ := h
  sound := h.sound.congr fun fd howned => hsame fd (.inr howned)
  carries := h.carries.congr fun fd hfd => hsame fd (.inl hfd)

theorem holding_exitLoop (m : Manager) (p q : Protocol) (i : Nat) (k : Kernel) :
    ((m.exitLoop p i k).1.services q).socket.holding = (m.services q).socket.holding := by
  by_cases hqp : q = p
  · subst hqp
    exact (congrArg (·.socket.holding) (services_update_self m q _)).trans
      (Service.holding_exitLoop (m.services q) i k)
  · exact congrArg (·.socket.holding) (services_update_of_ne m _ hqp)

theorem Awaits.exitLoop (h : m.Awaits k entries sockets) (p : Protocol) (i : Nat) :
    (m.exitLoop p i k).1.Awaits (m.exitLoop p i k).2 entries sockets where
  __ := h.toOffered.evolves (evolves_exitLoop h.sound p i) fun _ _ => id
  idle s hs := by
    rw [Ne, Service.state_eq_bound_iff, holding_exitLoop, ← Service.state_eq_bound_iff]
    exact h.idle s hs

theorem Serves.exitLoop (hm : m.Sound k) (h : m.Serves k p file) (q : Protocol) (i : Nat) :
    (m.exitLoop q i k).1.Serves (m.exitLoop q i k).2 p file :=
  h.evolves (evolves_exitLoop hm q i) (m.holding_exitLoop q p i k)

theorem state_shutdown_ne_bound (m : Manager) (k : Kernel) (p : Protocol) :
    ((m.shutdown k).1.services p).state ≠ .bound := by
  obtain ⟨k', hservices⟩ := exists_services_forEach Service.stop m k p
  rw [shutdown, hservices]
  exact Service.state_stop_ne_bound (m.services p) k'

/-- When services are stopped, sockets that are offered wait for them. -/
theorem Offered.shutdown (h : m.Offered k entries sockets) :
    (m.shutdown k).1.Awaits (m.shutdown k).2 entries sockets where
  __ := h.evolves (evolves_shutdown h.sound) fun _ _ => id
  idle s _ := m.state_shutdown_ne_bound k s.1

theorem Awaits.tail {entry : String × Descriptor} {s : Protocol × OpenFile}
    (h : m.Awaits k (entry :: entries) (s :: sockets)) : m.Awaits k entries sockets where
  sound := h.sound
  carries := (List.forall₂_cons.1 h.carries).2
  nodup := (List.nodup_cons.1 h.nodup).2
  loose := (List.forall_mem_cons.1 h.loose).2
  distinct := (List.nodup_cons.1 h.distinct).2
  adoptable := (List.forall_mem_cons.1 h.adoptable).2
  idle := (List.forall_mem_cons.1 h.idle).2

/-- A service has been given a new loop, on a socket that leads to a file. -/
def StartedOn (m : Manager) (p : Protocol) (file : OpenFile) (m' : Manager) (k' : Kernel) : Prop :=
  ∃ b, m'.services p = (m.services p).ready.serve b ∧ k'.table.file? b.fd = some file

theorem StartedOn.serves (h : m.StartedOn p file m' k') : m'.Serves k' p file := by
  obtain ⟨b, hservice, hfile⟩ := h
  exact ⟨b, by rw [hservice]; rfl, hfile⟩

/-- It stays so while the service is left alone. -/
theorem StartedOn.evolves {m₁ : Manager} {k₁ : Kernel} (h : m.StartedOn p file m₁ k₁)
    (hevolves : m₁.Evolves k₁ given m' k') (hsame : m'.services p = m₁.services p) :
    m.StartedOn p file m' k' := by
  obtain ⟨b, hservice, hfile⟩ := h
  have hb : (m'.services p).socket.holding = .held b := by
    rw [hsame, hservice]
    rfl
  have howned : b.fd ∈ m'.owned := ⟨p, ((hevolves.sound.service p).held hb).1⟩
  have hkept := hevolves.retains.same b.fd (.inl howned)
  exact ⟨b, hsame.trans hservice, (DescriptorTable.file?_congr hkept).trans hfile⟩

/-- A service can be started on what has arrived for it; if it is disabled, this is
    closed. -/
theorem Awaits.start {entry : String × Descriptor}
    (h : m.Awaits k (entry :: entries) ((p, file) :: sockets)) :
    ∃ s' k', (m.services p).start (some entry.2) k = (.ok (), s', k') ∧
      ((m.services p).spec.isEmpty = false →
        ∃ b, s' = (m.services p).ready.serve b ∧ k'.table.file? b.fd = some file) ∧
      ((m.services p).spec.isEmpty = true → s' = m.services p) := by
  obtain ⟨⟨-, hfile⟩, -⟩ := List.forall₂_cons.1 h.carries
  obtain ⟨⟨address, hserves⟩, -⟩ := List.forall_mem_cons.1 h.adoptable
  obtain ⟨hidle, -⟩ := List.forall_mem_cons.1 h.idle
  cases hspec : (m.services p).spec.isEmpty with
  | true => exact ⟨_, _, Service.start_of_blank hspec _ k, nofun, fun _ => rfl⟩
  | false =>
    have hinspect : inspect k (m.services p).protocol.transport entry.2 =
        .ok ⟨entry.2, p.transport, address⟩ := by
      rw [h.sound.protocol]
      exact ListeningSocket.inspect_eq_ok_iff.2 ⟨file, hfile, hserves, rfl⟩
    have hordered := (h.sound.service p).toOrdered
    refine ⟨_, k, Service.start_of_adoptable hordered hspec hidle hinspect, ?_, nofun⟩
    exact fun _ => ⟨_, rfl, hfile⟩

/-- The first entry starts its service and leaves the rest waiting. -/
theorem Awaits.startEntry {entry : String × Descriptor}
    (h : m.Awaits k (entry :: entries) ((p, file) :: sockets)) :
    ∃ m' k', m.startEntry entry k = (.ok (), m', k') ∧ m'.Awaits k' entries sockets ∧
      m.Evolves k {entry.2} m' k' ∧
      ((m.services p).spec.isEmpty = false → m.StartedOn p file m' k') ∧
      ((m.services p).spec.isEmpty = true → m'.services p = m.services p) ∧
      ∀ q, q ≠ p → m'.services q = m.services q := by
  obtain ⟨s', k', hstart, henabled, hdisabled⟩ := h.start
  obtain ⟨⟨hkey, -⟩, -⟩ := List.forall₂_cons.1 h.carries
  have hentry : m.startEntry entry k = (.ok (), m.update p s', k') := by
    simp only [Manager.startEntry, hkey, Protocol.ofKey?_key, startService, hstart]
  have hothers : ∀ q, q ≠ p → (m.update p s').services q = m.services q :=
    fun q hne => services_update_of_ne m s' hne
  have hevolves := evolves_startEntry h.sound (List.forall_mem_cons.1 h.loose).1
  rw [hentry] at hevolves
  refine ⟨m.update p s', k', hentry, ?_, hevolves, ?_, ?_, hothers⟩
  · refine ⟨h.tail.toOffered.evolves hevolves ?_, ?_⟩
    · intro fd hfd hgiven
      rw [Set.mem_singleton_iff.1 hgiven] at hfd
      exact (List.nodup_cons.1 h.nodup).1 hfd
    · intro s hs
      have hne : s.1 ≠ p := by
        rintro rfl
        exact (List.nodup_cons.1 h.distinct).1 (List.mem_map.2 ⟨s, hs, rfl⟩)
      rw [hothers s.1 hne]
      exact h.tail.idle s hs
  · intro hspec
    obtain ⟨b, hb, hfile⟩ := henabled hspec
    exact ⟨b, (services_update_self m p s').trans hb, hfile⟩
  · intro hspec
    rw [services_update_self, hdisabled hspec]

/-- Services that are enabled are all started on what has arrived for them, and no
    other service changes. -/
theorem Awaits.startInherited (h : m.Awaits k entries sockets)
    (hspec : ∀ s ∈ sockets, (m.services s.1).spec.isEmpty = false) :
    ∃ m' k', startInherited entries m k = (.ok (), m', k') ∧
      (∀ s ∈ sockets, m.StartedOn s.1 s.2 m' k') ∧
      ∀ q, q ∉ sockets.map (·.1) → m'.services q = m.services q := by
  induction entries generalizing m k sockets with
  | nil =>
    cases h.carries
    exact ⟨m, k, rfl, nofun, fun _ _ => rfl⟩
  | cons entry entries ih =>
    obtain ⟨⟨p, file⟩, sockets, -, -, rfl⟩ := List.forall₂_cons_left_iff.1 h.carries
    obtain ⟨hspec, hspec'⟩ := List.forall_mem_cons.1 hspec
    obtain ⟨m₁, k₁, hentry, hawaits, -, hstarted, -, hothers⟩ := h.startEntry
    have hnot : p ∉ sockets.map (·.1) := (List.nodup_cons.1 h.distinct).1
    have hrest_same : ∀ s ∈ sockets, m₁.services s.1 = m.services s.1 := fun s hs =>
      hothers s.1 (ne_of_mem_of_not_mem (List.mem_map_of_mem hs) hnot)
    have hspec₁ : ∀ s ∈ sockets, (m₁.services s.1).spec.isEmpty = false := by
      intro s hs
      rw [hrest_same s hs]
      exact hspec' s hs
    obtain ⟨m', k', hrest, hstarted', hothers'⟩ := ih hawaits hspec₁
    have hevolves := evolves_startInherited hawaits.sound hawaits.nodup hawaits.loose
    rw [hrest] at hevolves
    refine ⟨m', k', ?_, ?_, ?_⟩
    · simp only [Manager.startInherited, hentry, hrest]
    · refine List.forall_mem_cons.2 ⟨?_, fun s hs => ?_⟩
      · exact (hstarted hspec).evolves hevolves (hothers' p hnot)
      · obtain ⟨b, hservice, hfile⟩ := hstarted' s hs
        exact ⟨b, hrest_same s hs ▸ hservice, hfile⟩
    · intro q hq
      rw [List.map_cons, List.mem_cons, not_or] at hq
      rw [hothers' q hq.2, hothers q hq.1]

end MetricIntake.Manager
