-- SUMMARY: Who serves a service: one loop at most is not asked to stop, it is there while the service is bound, and disabled services have none.
import MetricIntake.Proofs.Service.Manager

/-!
# Who serves a service

A service is bound while one loop serves its socket and has not been asked to stop.
Whatever is done to a manager, and whatever becomes of descriptors meanwhile, no
service gets a second such loop, and none is left to a service that is not bound. A
disabled service never has a loop, and what it is handed is closed.

The order of the loops of a service is enough for this. It depends on nothing that
the kernel keeps, so here every operation may meet a kernel of its own.
-/

namespace MetricIntake

namespace Service

variable {s : Service}

/-! ## The loops of a service -/

theorem Ordered.stop (hs : s.Ordered) (k : Kernel) : (s.stop k).1.Ordered := by
  rcases stop_cases hs k with hsame | ⟨l, hl, -, -, hstop⟩
  · rwa [hsame]
  · rw [hstop]
    exact hs.advance hl rfl fun _ => rfl

theorem Ordered.exitLoop (hs : s.Ordered) (i : Nat) (k : Kernel) :
    (s.exitLoop i k).1.Ordered := by
  rcases exitLoop_cases hs i k with hsame | ⟨l, hl, -, -, hexit⟩
  · rwa [hsame]
  · rw [hexit]
    exact hs.advance hl rfl id

theorem Ordered.settle (hs : s.Ordered) (k : Kernel) : (s.settle k).1.Ordered := by
  refine List.foldlRecOn (motive := fun x : Service × Kernel => x.1.Ordered) _ _ hs ?_
  intro x hx i _
  dsimp only
  split
  · split
    · exact hx.exitLoop i x.2
    · exact hx
  · exact hx

/-- The loops that have not been asked to stop, whether or not they have exited. -/
def going (s : Service) : List ServingLoop := s.loops.filter fun l => !l.stopRequested

theorem mem_going_iff {l : ServingLoop} :
    l ∈ s.going ↔ l ∈ s.loops ∧ l.stopRequested = false := by
  rw [going, List.mem_filter, Bool.not_eq_true']

/-- Who serves a service, of all loops that were ever spawned for it. -/
structure Attended (s : Service) : Prop where
  unique : s.going.length ≤ 1
  bound_iff : s.state = .bound ↔ s.going ≠ []
  /-- The loop was given the socket that the service has now. -/
  socket : ∀ l ∈ s.going, l.generation = s.generation ∧ s.socket.holding = .held l.socket
  /-- A loop that was given the present socket is asked to stop when this socket is. -/
  token : ∀ l ∈ s.loops, l.generation = s.generation →
    l.stopRequested = s.socket.stopRequested
  /-- So stopping the service reaches whoever serves it. -/
  stops : ∀ k, (s.stop k).1.going = []

/-- A loop that has not been asked to stop is the latest. -/
theorem Ordered.generation_of_going (hs : s.Ordered) {l : ServingLoop} (hl : l ∈ s.going) :
    l.generation = s.generation := by
  obtain ⟨hmem, hgoing⟩ := mem_going_iff.1 hl
  by_contra hne
  have hstopped := hs.earlier l hmem (lt_of_le_of_ne (hs.bounded l hmem) hne)
  rw [hgoing] at hstopped
  cases hstopped

theorem Ordered.length_going_le (hs : s.Ordered) : s.going.length ≤ 1 := by
  have hsame : s.going.map ServingLoop.generation =
      List.replicate s.going.length s.generation := by
    refine List.eq_replicate_iff.2 ⟨List.length_map _, ?_⟩
    exact List.forall_mem_map.2 fun l hl => hs.generation_of_going hl
  have hdistinct : (s.going.map ServingLoop.generation).Nodup :=
    hs.distinct.sublist (List.filter_sublist.map _)
  rwa [hsame, List.nodup_replicate] at hdistinct

theorem Ordered.bound_iff (hs : s.Ordered) : s.state = .bound ↔ s.going ≠ [] := by
  constructor
  · intro hstate
    cases hs.current with
    | fresh hsocket _ =>
      rw [state, hsocket] at hstate
      cases hstate
    | @served l hmem _ hsocket =>
      have hgoing : l.stopRequested = false := by
        by_contra hstopped
        rw [Bool.not_eq_false] at hstopped
        rw [state, hsocket, ServingLoop.state_listening, if_pos hstopped] at hstate
        split at hstate <;> cases hstate
      exact List.ne_nil_of_mem (mem_going_iff.2 ⟨hmem, hgoing⟩)
  · intro hne
    obtain ⟨l, hl⟩ := List.exists_mem_of_ne_nil _ hne
    obtain ⟨hmem, hgoing⟩ := mem_going_iff.1 hl
    rw [state, hs.socket_eq_listening hmem (hs.generation_of_going hl),
      ServingLoop.state_listening, hgoing]
    rfl

theorem Ordered.attended (hs : s.Ordered) : s.Attended where
  unique := hs.length_going_le
  bound_iff := hs.bound_iff
  socket l hl := by
    obtain ⟨hmem, hgoing⟩ := mem_going_iff.1 hl
    have hgeneration := hs.generation_of_going hl
    rw [hs.socket_eq_listening hmem hgeneration]
    exact ⟨hgeneration, by rw [ServingLoop.listening, hgoing]; rfl⟩
  token l hl hgeneration := by
    rw [hs.socket_eq_listening hl hgeneration]
    rfl
  stops k := by
    by_contra hne
    exact s.state_stop_ne_bound k ((hs.stop k).bound_iff.2 hne)

/-- A disabled service has never been started. -/
theorem Ordered.of_blank (hs : s.Ordered) (hspec : s.spec.isEmpty = true) :
    s.loops = [] ∧ s.socket = {} := by
  have hloops : s.loops = [] := by
    by_contra hne
    rw [hs.enabled hne] at hspec
    cases hspec
  refine ⟨hloops, ?_⟩
  cases hs.current with
  | fresh hsocket _ => exact hsocket
  | served hmem =>
    rw [hloops] at hmem
    cases hmem

end Service

namespace Manager

variable {m : Manager} {p : Protocol}

/-! ## What managers make of their services -/

/-- The states that the operations of a manager, and what happens around them, can lead
    to, whatever the kernel is. Exporting leaves a manager as it is. -/
inductive Arises : Manager → Prop where
  | created (listen : ListenConfig) (settings : Settings) : Arises (create listen settings)
  | run {m : Manager} (hm : Arises m) (manifest : Manifest) (base : Descriptor) (k : Kernel) :
    Arises (m.run manifest base k).2.1
  | resumed {m : Manager} (hm : Arises m) (h : Handoff) (k : Kernel) : Arises (m.resume h k).2.1
  | stopped {m : Manager} (hm : Arises m) (k : Kernel) : Arises (m.shutdown k).1
  /-- A loop comes to its end, asked to or not. -/
  | loopExited {m : Manager} (hm : Arises m) (p : Protocol) (loop : Nat) (k : Kernel) :
    Arises (m.exitLoop p loop k).1
  | drained {m : Manager} (hm : Arises m) (now : Nat) (timeout : Span) (k : Kernel) :
    Arises (m.drain now timeout k).2.1
  /-- The end of loops has been waited for, whether they came to it or not. -/
  | untracked {m : Manager} (hm : Arises m) : Arises m.untrack
  /-- Connections are counted. -/
  | counted {m : Manager} (hm : Arises m) (tracker : DrainTracker) : Arises { m with tracker }

/-- The loops of all services are in order. -/
def Ordered (m : Manager) : Prop := ∀ p, (m.services p).Ordered

theorem Ordered.untrack (hm : m.Ordered) : m.untrack.Ordered :=
  fun p => (hm p).track fun _ => false

theorem ordered_startService (m : Manager) (p : Protocol) (inherited : Option Descriptor)
    (k : Kernel) (hm : m.Ordered) : (m.startService p inherited k).2.1.Ordered :=
  forall_services_startService (fun _ inherited k hs => hs.start inherited k) m p inherited k hm

theorem Ordered.startEntry (hm : m.Ordered) (entry : String × Descriptor) (k : Kernel) :
    (m.startEntry entry k).2.1.Ordered :=
  startEntry_rec ordered_startService hm entry k

theorem Arises.ordered (h : m.Arises) : m.Ordered := by
  induction h with
  | created listen settings => exact fun p => Service.ordered_new p (listen.spec p)
  | run _ manifest base k ih => exact run_rec ordered_startService ih manifest base k
  | resumed _ h k ih => exact startInherited_rec ordered_startService ih h.entries k
  | stopped _ k ih => exact forall_services_forEach (fun _ k hs => hs.stop k) ih k
  | loopExited _ p loop k ih =>
    exact forall_services_update (P := fun _ => Service.Ordered) ((ih p).exitLoop loop k)
      fun q _ => ih q
  | drained _ now timeout k ih =>
    unfold drain
    cases hasPending _ with
    | true =>
      exact Ordered.untrack
        (forall_services_forEach (P := Service.Ordered) (fun _ k hs => hs.settle k) ih k)
    | false => exact ih.untrack
  | untracked _ ih => exact ih.untrack
  | counted _ tracker ih => exact ih

/-! ## Disabled services -/

/-- What is exported has the keys of bound services. -/
theorem mem_manifest_exportFrom (m : Manager) (protocols : List Protocol) (h : Handoff)
    (k : Kernel) {key : String} (hkey : key ∈ (m.exportFrom protocols h k).1.manifest) :
    key ∈ h.manifest ∨ ∃ p, (m.services p).state = .bound ∧ p.key = key := by
  induction protocols generalizing h k with
  | nil => exact .inl hkey
  | cons p protocols ih =>
    rw [exportFrom] at hkey
    cases hdup : (m.services p).duplicate? k with
    | none =>
      rw [hdup] at hkey
      exact ih h k hkey
    | some copy =>
      rw [hdup] at hkey
      rcases ih _ _ hkey with hkey | hbound
      · rw [Handoff.manifest_push, List.mem_append, List.mem_singleton] at hkey
        have hstate := Service.state_eq_bound_of_duplicate? hdup
        exact hkey.imp_right fun hkey => ⟨p, hstate, hkey.symm⟩
      · exact .inr hbound

/-- What is closed stays closed while a service is started on a descriptor. -/
theorem Ordered.startEntry_closed (hm : m.Ordered) (entry : String × Descriptor) {k : Kernel}
    {fd : Descriptor} (hclosed : k.table.get? fd = none) :
    (m.startEntry entry k).2.2.table.get? fd = none := by
  have hclose : (k.close entry.2).table.get? fd = none := by
    rw [Kernel.close, DescriptorTable.get?_close, hclosed, ite_self]
  unfold Manager.startEntry
  split
  · exact hclose
  · rename_i p _
    rcases (hm p).kernel_start_some entry.2 k with hsame | hclosed'
    · exact (congrArg (·.table.get? fd) hsame).trans hclosed
    · exact (congrArg (·.table.get? fd) hclosed').trans hclose

/-- A descriptor that is closed, or that is to be handed to a disabled service, is closed
    after all services have been started on what they are handed. -/
theorem Ordered.startInherited_closed (hm : m.Ordered) (hspec : (m.services p).spec.isEmpty = true)
    {entries : List (String × Descriptor)} {k : Kernel} {fd : Descriptor}
    (hfd : k.table.get? fd = none ∨ (p.key, fd) ∈ entries) :
    (Manager.startInherited entries m k).2.2.table.get? fd = none := by
  induction entries generalizing m k with
  | nil => exact hfd.resolve_right (List.not_mem_nil)
  | cons entry entries ih =>
    have hentry := hm.startEntry entry k
    have hfd' : (m.startEntry entry k).2.2.table.get? fd = none ∨ (p.key, fd) ∈ entries := by
      rcases hfd with hclosed | hmem
      · exact .inl (hm.startEntry_closed entry hclosed)
      · rcases List.mem_cons.1 hmem with rfl | hmem
        · left
          simp only [Manager.startEntry, Protocol.ofKey?_key, startService,
            Service.start_of_blank hspec]
          exact DescriptorTable.get?_closeAll _ _ _ |>.trans (if_pos (List.mem_singleton_self fd))
        · exact .inr hmem
    have hspec' : ((m.startEntry entry k).2.1.services p).spec.isEmpty = true := by
      unfold Manager.startEntry
      split
      · exact hspec
      · rename_i q _
        refine forall_services_update (P := fun q s => s.spec = (m.services q).spec) ?_
          (fun _ _ => rfl) p ▸ hspec
        exact (hm q).spec_start (some entry.2) k
    rw [Manager.startInherited]
    rcases hstart : m.startEntry entry k with ⟨e | _, m₁, k₁⟩
    · rw [hstart] at hfd'
      dsimp only
      rw [Kernel.closeAll, DescriptorTable.get?_closeAll]
      split
      · rfl
      · rename_i hnot
        exact hfd'.resolve_right fun hmem => hnot (List.mem_map_of_mem hmem)
    · rw [hstart] at hentry hfd' hspec'
      exact ih hentry hspec' hfd'

/-- A service that is disabled: nobody serves it, nothing is exported for it, and it
    keeps no descriptor that is handed to it. -/
structure Disabled (m : Manager) (p : Protocol) : Prop where
  state : (m.services p).state = .unbound
  address : (m.services p).address? = none
  loops : (m.services p).loops = []
  manifest : ∀ k, p.key ∉ (m.exportSockets k).1.manifest
  resumed : ∀ (h : Handoff) (k : Kernel) (fd : Descriptor), (p.key, fd) ∈ h.entries →
    (m.resume h k).2.2.table.get? fd = none
  run : ∀ (manifest : Manifest) (base : Descriptor) (k k' : Kernel) (h : Handoff),
    manifest.adopt base k = (.ok h, k') → ∀ fd, (p.key, fd) ∈ h.entries →
      (m.run manifest base k).2.2.table.get? fd = none

theorem Ordered.disabled (hm : m.Ordered) (hspec : (m.services p).spec.isEmpty = true) :
    m.Disabled p := by
  obtain ⟨hloops, hsocket⟩ := (hm p).of_blank hspec
  have hstate : (m.services p).state = .unbound := by
    rw [Service.state, hsocket]
    rfl
  refine ⟨hstate, by rw [Service.address?, hsocket], hloops, ?_, ?_, ?_⟩
  · intro k hkey
    rcases m.mem_manifest_exportFrom Protocol.all {} k hkey with hkey | ⟨q, hbound, hkey⟩
    · cases hkey
    · obtain rfl := Protocol.key_injective hkey
      rw [hstate] at hbound
      cases hbound
  · intro h k fd hfd
    exact hm.startInherited_closed hspec (.inr hfd)
  · intro manifest base k k' h hadopt fd hfd
    cases manifest with
    | nil =>
      simp only [Manifest.adopt, Manifest.adoptFrom, Prod.mk.injEq, Except.ok.injEq] at hadopt
      rw [← hadopt.1] at hfd
      cases hfd
    | cons key keys =>
      simp only [Manager.run, List.isEmpty_cons, Bool.false_eq_true, if_false, hadopt]
      exact hm.startInherited_closed hspec (.inr hfd)

/-- In every state a service has one loop at most that has not been asked to stop, and it
    has one exactly while it is bound, on the socket that it is bound to; a disabled
    service has none, and keeps nothing of what it is handed. -/
theorem Arises.attended_and_disabled (h : m.Arises) (p : Protocol) :
    (m.services p).Attended ∧ ((m.services p).spec.isEmpty = true → m.Disabled p) :=
  ⟨(h.ordered p).attended, h.ordered.disabled⟩

/-- An enabled service is resumed while its first loop goes on, on the first of two
    sockets that it is handed; a disabled service is handed a third. -/
theorem attended_of_resumed :
    let address : Address := ⟨.loopback, 2003⟩
    let k : Kernel := { table := ⟨[(3, ⟨⟨40, .listener address⟩, true⟩),
      (4, ⟨⟨41, .listener address⟩, true⟩), (5, ⟨⟨42, .listener address⟩, true⟩),
      (6, ⟨⟨43, .datagram address⟩, true⟩)]⟩ }
    let listen : ListenConfig := { ListenConfig.disabled with graphiteText := "127.0.0.1:0" }
    let m := ((create listen).resume ⟨[("gt", 3)]⟩ k).2.1
    let h : Handoff := ⟨[("gu", 6), ("gt", 4), ("gt", 5)]⟩
    let m' := ((m.shutdown k).1.resume h (m.shutdown k).2).2.1
    m'.Arises ∧ (m'.services .graphiteText).loops.map (·.stopRequested) = [true, false] ∧
      (m'.services .graphiteText).Attended ∧ (m'.services .graphiteText).state = .bound ∧
      m'.Disabled .graphiteUdp := by
  intro address k listen m h m'
  have hm' : m'.Arises := .resumed (.stopped (.resumed (.created listen {}) ⟨[("gt", 3)]⟩ k) k) h _
  obtain ⟨hattended, -⟩ := hm'.attended_and_disabled .graphiteText
  obtain ⟨-, hdisabled⟩ := hm'.attended_and_disabled .graphiteUdp
  exact ⟨hm', by decide, hattended, by decide, hdisabled (by decide)⟩

end Manager
end MetricIntake
