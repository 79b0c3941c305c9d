-- SUMMARY: The states that a manager can reach, and that a successor takes over from any of them: every bound service, on its very socket.
import MetricIntake.Proofs.Successor
import MetricIntake.Proofs.Service.Handover

/-!
# Succession

A manager that is used as it may be, on descriptors that it is given once, stays
sound. From every such state its bound sockets can be handed over: they are exported
under the keys of their services, passed on by number alone, and named by a text; and
what a successor makes of the text and the numbers is the services that were bound,
each on the file that it was bound to.
-/

namespace MetricIntake.Manager

variable {m : Manager} {k k' : Kernel} {entries : List (String × Descriptor)}
  {sockets : List (Protocol × OpenFile)}

/-! ## Reachable states -/

/-- The states that the operations of a manager, and what happens around them, can lead
    to. -/
inductive Reachable : Manager → Kernel → Prop where
  | created (listen : ListenConfig) (settings : Settings) (k : Kernel) :
    Reachable (create listen settings) k
  /-- Others open and close descriptors of their own. -/
  | elsewhere {m : Manager} {k k' : Kernel} (hm : Reachable m k)
    (hkept : ∀ fd ∈ m.owned, k'.table.get? fd = k.table.get? fd) : Reachable m k'
  /-- Descriptors that a manifest names have not been taken before. -/
  | run {m : Manager} {k : Kernel} (hm : Reachable m k) (manifest : Manifest) (base : Descriptor)
    (hnew : ∀ i < manifest.length, base + (i : Int) ∉ m.owned) :
    Reachable (m.run manifest base k).2.1 (m.run manifest base k).2.2
  /-- The descriptors of a handoff belong to it alone. -/
  | resumed {m : Manager} {k : Kernel} (hm : Reachable m k) (h : Handoff)
    (hnodup : h.descriptors.Nodup) (hnew : ∀ fd ∈ h.descriptors, fd ∉ m.owned) :
    Reachable (m.resume h k).2.1 (m.resume h k).2.2
  | exported {m : Manager} {k : Kernel} (hm : Reachable m k) : Reachable m (m.exportSockets k).2
  | stopped {m : Manager} {k : Kernel} (hm : Reachable m k) :
    Reachable (m.shutdown k).1 (m.shutdown k).2
  | loopExited {m : Manager} {k : Kernel} (hm : Reachable m k) (p : Protocol) (loop : Nat) :
    Reachable (m.exitLoop p loop k).1 (m.exitLoop p loop k).2
  | drained {m : Manager} {k : Kernel} (hm : Reachable m k) (now : Nat) (timeout : Span) :
    Reachable (m.drain now timeout k).2.1 (m.drain now timeout k).2.2
  /-- The end of loops has been waited for, whether they came to it or not. -/
  | untracked {m : Manager} {k : Kernel} (hm : Reachable m k) : Reachable m.untrack k
  /-- Connections are counted. -/
  | counted {m : Manager} {k : Kernel} (hm : Reachable m k) (tracker : DrainTracker) :
    Reachable { m with tracker } k

theorem Reachable.sound (h : m.Reachable k) : m.Sound k := by
  induction h with
  | created listen settings k => exact sound_create listen settings k
  | elsewhere _ hkept ih => exact ih.congr hkept
  | run _ manifest base hnew ih => exact sound_run ih hnew
  | resumed _ h hnodup hnew ih => exact (evolves_startInherited ih hnodup hnew).sound
  | exported _ ih =>
    obtain ⟨entries, sockets, k', hexport, hexports⟩ := ih.exists_exportSockets
    rw [hexport]
    apply ih.congr
    intro fd howned
    exact hexports.same fd fun hfd => ih.get?_ne_none howned (hexports.fresh fd hfd)
  | stopped _ ih => exact (evolves_shutdown ih).sound
  | loopExited _ p loop ih => exact (evolves_exitLoop ih p loop).sound
  | drained _ now timeout ih =>
    unfold drain
    cases hasPending _ with
    | true => exact (evolves_untrack (evolves_settle ih).sound).sound
    | false => exact (evolves_untrack ih).sound
  | untracked _ ih => exact (evolves_untrack ih).sound
  | counted _ tracker ih => exact ih.counted tracker

/-! ## Taking over -/

/-- Sockets arrive at consecutive descriptors under the keys that they left with. -/
theorem Carries.entriesFrom {base : Int} (h : Carries k entries sockets)
    (harrived : ∀ (i : Nat) (hi : i < entries.length), ∃ file,
      k.table.file? entries[i].2 = some file ∧ k'.table.file? (base + i) = some file) :
    Carries k' (Manifest.entriesFrom (entries.map (·.1)) base) sockets := by
  induction h generalizing base with
  | nil => exact .nil
  | @cons entry s entries sockets hentry _ ih =>
    rw [List.map_cons, Manifest.entriesFrom]
    refine .cons ⟨hentry.1, ?_⟩ (ih fun i hi => ?_)
    · obtain ⟨file, hfile, hfile'⟩ := harrived 0 (Nat.succ_pos _)
      rw [Int.natCast_zero, Int.add_zero] at hfile'
      rw [hfile', ← hfile]
      exact hentry.2
    · obtain ⟨file, hfile, hfile'⟩ := harrived (i + 1) (Nat.succ_lt_succ hi)
      have hplace : base + 1 + (i : Int) = base + ((i + 1 : Nat) : Int) := by omega
      exact ⟨file, hfile, hplace ▸ hfile'⟩

/-- The sockets that arrive for a manager that has not been started are waiting for its
    services. -/
theorem Awaits.of_create (listen : ListenConfig) (settings : Settings)
    (hcarries : Carries k entries sockets) (hnodup : (entries.map (·.2)).Nodup)
    (hdistinct : (sockets.map (·.1)).Nodup)
    (hadoptable : ∀ s ∈ sockets, ∃ address, s.2.Serves s.1.transport address) :
    (create listen settings).Awaits k entries sockets where
  sound := sound_create listen settings k
  carries := hcarries
  nodup := hnodup
  loose _ _ := by
    rintro ⟨p, l, hl, -⟩
    cases hl
  distinct := hdistinct
  adoptable := hadoptable
  idle _ _ := nofun

/-- Sockets that have arrived at consecutive descriptors are all taken. -/
theorem Offered.adopt {manifest : Manifest} {base : Int}
    (h : m.Offered k (manifest.entriesFrom base) sockets) :
    manifest.adopt base k = (.ok ⟨manifest.entriesFrom base⟩, k) := by
  apply Manifest.adoptFrom_of_sockets []
  intro fd hfd
  obtain ⟨s, hs, hfile⟩ := h.carries.exists_socket hfd
  obtain ⟨address, hserves⟩ := h.adoptable s hs
  simp [Kernel.isSocket, Kernel.kind?, hfile, hserves.isSocket]

/-- A manager that runs on what has arrived starts the services that it is for. -/
theorem Awaits.run {manifest : Manifest} {base : Int} (hne : manifest ≠ [])
    (h : m.Awaits k (manifest.entriesFrom base) sockets)
    (hspec : ∀ s ∈ sockets, (m.services s.1).spec.isEmpty = false) :
    ∃ m' k', m.run manifest base k = (.ok (), m', k') ∧
      (∀ s ∈ sockets, m'.Serves k' s.1 s.2) ∧
      ∀ q, q ∉ sockets.map (·.1) → m'.services q = m.services q := by
  obtain ⟨m', k', hstart, hstarted, hothers⟩ := h.startInherited hspec
  refine ⟨m', k', ?_, fun s hs => (hstarted s hs).serves, hothers⟩
  simp only [Manager.run, List.isEmpty_iff, if_neg hne, h.adopt, resume]
  exact hstart

/-- What was exported arrives at a successor, at consecutive descriptors that its manifest
    names. The parent may do anything meanwhile but to the handoff. -/
theorem Carries.exists_spawn {t : DescriptorTable OpenFile} (h : Carries k entries sockets)
    (ht : ∀ fd ∈ entries.map (·.2), t.get? fd = k.table.get? fd) :
    ∃ s, Successor.spawn ⟨entries⟩ t = some s ∧ Manifest.parse s.manifest = entries.map (·.1) ∧
      ∀ k' : Kernel, (∀ i < entries.length,
        k'.table.get? (Successor.firstInherited + (i : Int)) =
          s.child.get? (Successor.firstInherited + (i : Int))) →
        Carries k' (Manifest.entriesFrom (entries.map (·.1)) Successor.firstInherited) sockets := by
  have hcarries : Carries { k with table := t } entries sockets := h.congr ht
  obtain ⟨s, hspawn, hmanifest, hchild⟩ :=
    Successor.exists_spawn (h := ⟨entries⟩) hcarries.get?_ne_none
  refine ⟨s, hspawn, ?_, fun k' hk' => ?_⟩
  · rw [hmanifest, Handoff.manifest, hcarries.keys]
    exact Manifest.parse_text_keys _
  · refine hcarries.entriesFrom fun i hi => ?_
    obtain ⟨file, hfile, hget⟩ := hchild i hi
    exact ⟨file, hfile, DescriptorTable.file?_of_get? ((hk' i hi).trans hget)⟩

/-- A manager has succeeded another one: the same services are bound, each to the same
    file and so at the same address, and no others. -/
structure Succeeds (m' : Manager) (k' : Kernel) (m : Manager) (k : Kernel) : Prop where
  bound : ∀ p, (m.services p).state = .bound → ∃ file, m.Serves k p file ∧ m'.Serves k' p file ∧
    (m'.services p).address? = (m.services p).address?
  unbound : ∀ p, (m.services p).state ≠ .bound → (m'.services p).state = .unbound

/-- A new manager that runs on what was exported succeeds the one that exported it. -/
theorem Exports.exists_run {k₁ k₂ : Kernel} (hm : m.Sound k)
    (hexports : m.Exports k Protocol.all entries sockets k₁)
    (hbound : ∃ p, (m.services p).state = .bound) {base : Int}
    (harrived : Carries k₂ (Manifest.entriesFrom (entries.map (·.1)) base) sockets)
    (listen : ListenConfig) (settings : Settings)
    (hspec : ∀ p, (m.services p).state = .bound → listen.spec p ≠ "") :
    ∃ m' k', (create listen settings).run (entries.map (·.1)) base k₂ = (.ok (), m', k') ∧
      m'.Succeeds k' m k := by
  have hawaits := Awaits.of_create listen settings harrived
    (Manifest.nodup_descriptors_entriesFrom _ base) hexports.distinct (hexports.adoptable hm)
  have hne : entries.map (·.1) ≠ [] := by
    obtain ⟨p, hp⟩ := hbound
    obtain ⟨file, hs⟩ := hexports.exists_socket_iff.2 hp
    rw [hexports.carries.keys, List.map_map]
    exact List.ne_nil_of_mem (List.mem_map_of_mem hs)
  have henabled : ∀ s ∈ sockets,
      ((create listen settings).services s.1).spec.isEmpty = false := by
    intro s hs
    have hne : listen.spec s.1 ≠ "" := hspec s.1 (hexports.exists_socket_iff.1 ⟨s.2, hs⟩)
    have hspec : (listen.spec s.1).isEmpty = false := by simpa using hne
    exact hspec
  obtain ⟨m', k', hrun, hserves, hothers⟩ := hawaits.run hne henabled
  have hm' : m'.Sound k' := by
    have hsound := sound_run hawaits.sound fun i hi =>
      hawaits.loose _ (Manifest.mem_descriptors_entriesFrom.2 ⟨i, hi, rfl⟩)
    rwa [hrun] at hsound
  refine ⟨m', k', hrun, ⟨fun p hstate => ?_, fun p hstate => ?_⟩⟩
  · obtain ⟨file, hs⟩ := hexports.exists_socket_iff.2 hstate
    have hbefore : m.Serves k p file := hexports.serves _ hs
    have hafter : m'.Serves k' p file := hserves _ hs
    exact ⟨file, hbefore, hafter, hbefore.address?_eq hm hm' hafter⟩
  · rw [hothers p (mt hexports.mem_protocols_iff.1 hstate)]
    rfl

/-- In every reachable state exporting lists the bound services, each once and in order,
    with a new descriptor of its socket. A successor that is passed these descriptors,
    and whose specs for these services are not empty, starts and serves the same
    services on the same sockets. -/
theorem Reachable.exists_successor (hm : m.Reachable k)
    (hbound : ∃ p, (m.services p).state = .bound) :
    ∃ h sockets k', m.exportSockets k = (h, k') ∧
      m.Exports k Protocol.all h.entries sockets k' ∧
      h.manifest = (Protocol.all.filter fun p => (m.services p).state = .bound).map Protocol.key ∧
      ∀ t : DescriptorTable OpenFile, (∀ fd ∈ h.descriptors, t.get? fd = k'.table.get? fd) →
        ∃ s, Successor.spawn h t = some s ∧
          ∀ (listen : ListenConfig) (settings : Settings) (k₂ : Kernel),
            (∀ p, (m.services p).state = .bound → listen.spec p ≠ "") →
            (∀ i < h.entries.length, k₂.table.get? (Successor.firstInherited + (i : Int)) =
              s.child.get? (Successor.firstInherited + (i : Int))) →
            ∃ m' k₃, (create listen settings).run (Manifest.parse s.manifest)
                Successor.firstInherited k₂ = (.ok (), m', k₃) ∧ m'.Succeeds k₃ m k := by
  obtain ⟨entries, sockets, k', hexport, hexports⟩ := hm.sound.exists_exportSockets
  refine ⟨⟨entries⟩, sockets, k', hexport, hexports, ?_, fun t ht => ?_⟩
  · rw [Handoff.manifest, hexports.carries.keys, hexports.protocols]
  · obtain ⟨s, hspawn, hparse, harrives⟩ := hexports.carries.exists_spawn ht
    refine ⟨s, hspawn, fun listen settings k₂ hspec hk₂ => ?_⟩
    rw [hparse]
    exact hexports.exists_run hm.sound hbound (harrives k₂ hk₂) listen settings hspec

/-- Two services that were resumed on sockets in each other's place. -/
theorem exists_successor_of_two :
    let address : Address := ⟨.loopback, 2003⟩
    let k : Kernel := { table := ⟨[(3, ⟨⟨40, .datagram address⟩, true⟩),
      (4, ⟨⟨41, .listener address⟩, true⟩)]⟩ }
    let m := ((create .loopback).resume ⟨[("gu", 3), ("gt", 4)]⟩ k).2.1
    m.Reachable k ∧ (m.services .graphiteText).state = .bound ∧
    ∃ h k', m.exportSockets k = (h, k') ∧ h.manifest = ["gt", "gu"] ∧
      ∃ s, Successor.spawn h k'.table = some s ∧
        ∃ m' k₃, (create .loopback).run (Manifest.parse s.manifest) 3 { table := s.child } =
            (.ok (), m', k₃) ∧
          m'.Serves k₃ .graphiteText ⟨41, .listener address⟩ ∧
          (m'.services .http).state = .unbound := by
  intro address k m
  have hm : m.Reachable k := by
    have hresumed := Reachable.resumed (.created .loopback {} k) ⟨[("gu", 3), ("gt", 4)]⟩
      (by decide) (by
        rintro fd - ⟨p, l, hl, -⟩
        cases hl)
    exact hresumed
  have hbound : (m.services .graphiteText).state = .bound := by decide
  obtain ⟨h, sockets, k', hexport, -, hmanifest, hall⟩ := hm.exists_successor ⟨_, hbound⟩
  obtain ⟨s, hspawn, hrun⟩ := hall k'.table fun _ _ => rfl
  obtain ⟨m', k₃, hrun, hsucceeds⟩ := hrun .loopback {} { table := s.child }
    (fun p _ => by cases p <;> decide) fun _ _ => rfl
  refine ⟨hm, hbound, h, k', hexport, hmanifest.trans (by decide), s, hspawn, m', k₃, hrun, ?_, ?_⟩
  · obtain ⟨file, ⟨b, hb, hfile⟩, hserves, -⟩ := hsucceeds.bound .graphiteText hbound
    obtain rfl : (⟨4, .tcp, address⟩ : BoundSocket) = b := Holding.held.inj hb
    obtain rfl : (⟨41, .listener address⟩ : OpenFile) = file := Option.some.inj hfile
    exact hserves
  · exact hsucceeds.unbound .http (by decide)

end MetricIntake.Manager
