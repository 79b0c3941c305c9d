-- SUMMARY: Starting a service: on a descriptor that it is given, which it keeps or closes, or on a socket that it binds.
import MetricIntake.Proofs.Service.Ownership

/-!
# Starting a service

A service that is not bound gets a new socket, and what it was served on before is
left to its loop. A descriptor that is given is kept for a new loop if the service
can be started on it, and closed otherwise. What is bound anew is a descriptor that
was free before, given to the service.
-/

namespace MetricIntake.Service

open DescriptorTable (Retains)
open ListeningSocket (inspect)

variable {s : Service} {k : Kernel} {fd : Descriptor}

/-! ## A new socket -/

theorem protocol_renew (s : Service) : s.renew.protocol = s.protocol := by
  unfold renew
  split <;> rfl

theorem spec_renew (s : Service) : s.renew.spec = s.spec := by
  unfold renew
  split <;> rfl

theorem loops_renew (s : Service) : s.renew.loops = s.loops := by
  unfold renew
  split <;> rfl

theorem owned_renew (s : Service) : s.renew.owned = s.owned := by
  simp only [owned, s.loops_renew]

/-- A stopped socket makes way for a new one, and its loop becomes an earlier one. -/
theorem Ordered.renew (hs : s.Ordered) (hstate : s.state ≠ .bound) :
    s.renew.Ordered ∧ s.renew.socket = {} ∧
      ∀ l ∈ s.renew.loops, l.generation < s.renew.generation := by
  cases hs.current with
  | fresh hsocket hearlier =>
    have hsame : s.renew = s := by simp [Service.renew, state, hsocket, ListeningSocket.state]
    rw [hsame]
    exact ⟨hs, hsocket, hearlier⟩
  | @served l hmem hgeneration hsocket =>
    have hstopped : l.stopRequested = true := by
      by_contra hgoing
      rw [state, hsocket, ServingLoop.state_listening, if_neg hgoing] at hstate
      exact hstate rfl
    have hrenew : s.renew = { s with socket := {}, generation := s.generation + 1 } := by
      rw [Service.renew, state, hsocket, ServingLoop.state_listening, if_pos hstopped]
      cases l.exited <;> rfl
    have hearlier : ∀ other ∈ s.loops, other.generation < s.generation + 1 :=
      fun other hother => Nat.lt_succ_of_le (hs.bounded other hother)
    rw [hrenew]
    refine ⟨?_, rfl, hearlier⟩
    exact {
      hs with
      bounded := fun other hother => (hearlier other hother).le
      current := .fresh rfl hearlier
      earlier := fun other hother _ => by
        rcases (hs.bounded other hother).lt_or_eq with hlt | hlast
        · exact hs.earlier other hother hlt
        · rw [hs.eq_of_generation hother hmem (hlast.trans hgeneration.symm)]
          exact hstopped }

theorem Sound.renew (hs : s.Sound k) (hstate : s.state ≠ .bound) : s.renew.Sound k where
  __ := (hs.toOrdered.renew hstate).1
  adoptable := by
    rw [loops_renew, protocol_renew]
    exact hs.adoptable
  apart := by
    rw [loops_renew]
    exact hs.apart

/-- A service with a new loop on a socket of its own. -/
def serve (s : Service) (b : BoundSocket) : Service :=
  { s with
    socket := ⟨.held b, 1, false, some b.address⟩
    loops := s.loops ++ [{ generation := s.generation, socket := b }] }

theorem owned_serve (s : Service) (b : BoundSocket) : (s.serve b).owned = insert b.fd s.owned := by
  ext fd
  simp only [owned, serve, List.mem_append, List.mem_singleton, Set.mem_insert_iff]
  constructor
  · rintro ⟨l, hl | rfl, hopen, rfl⟩
    · exact .inr ⟨l, hl, hopen, rfl⟩
    · exact .inl rfl
  · rintro (rfl | ⟨l, hl, hopen, rfl⟩)
    · exact ⟨_, .inr rfl, rfl, rfl⟩
    · exact ⟨l, .inl hl, hopen, rfl⟩

/-- What holds of all loops after a new one is there. -/
theorem forall_mem_loops_serve {P : ServingLoop → Prop} {b : BoundSocket} :
    (∀ l ∈ (s.serve b).loops, P l) ↔
      (∀ l ∈ s.loops, P l) ∧ P { generation := s.generation, socket := b } := by
  rw [serve, List.forall_mem_append, List.forall_mem_singleton]

theorem Ordered.serve (hs : s.Ordered) (hearlier : ∀ l ∈ s.loops, l.generation < s.generation)
    (hspec : s.spec.isEmpty = false) (b : BoundSocket) : (s.serve b).Ordered where
  distinct := by
    rw [Service.serve, List.map_append, List.map_singleton]
    refine List.Nodup.append hs.distinct (List.nodup_singleton _) ?_
    rw [List.disjoint_singleton]
    intro hmem
    obtain ⟨l, hl, hsame⟩ := List.mem_map.1 hmem
    exact (hearlier l hl).ne hsame
  bounded := forall_mem_loops_serve.2 ⟨hs.bounded, le_rfl⟩
  current := .served (List.mem_append_right _ (List.mem_singleton_self _)) rfl rfl
  earlier := forall_mem_loops_serve.2 ⟨hs.earlier, fun hlt => absurd hlt (lt_irrefl _)⟩
  enabled _ := hspec

theorem Sound.serve {b : BoundSocket} (hs : s.Sound k)
    (hearlier : ∀ l ∈ s.loops, l.generation < s.generation)
    (hspec : s.spec.isEmpty = false) (hinspect : inspect k s.protocol.transport b.fd = .ok b)
    (hnew : b.fd ∉ s.owned) : (s.serve b).Sound k where
  __ := hs.toOrdered.serve hearlier hspec b
  adoptable := forall_mem_loops_serve.2 ⟨hs.adoptable, fun _ => hinspect⟩
  apart := forall_mem_loops_serve.2
    ⟨fun l hl => forall_mem_loops_serve.2
      ⟨hs.apart l hl, fun hopen _ hfd => absurd ⟨l, hl, hopen, hfd⟩ hnew⟩,
    forall_mem_loops_serve.2
      ⟨fun l hl _ hopen hfd => absurd ⟨l, hl, hopen, hfd.symm⟩ hnew, fun _ _ _ => rfl⟩⟩

/-- A service with a new socket; loops that have exited are not waited for. -/
def ready (s : Service) : Service := s.renew.track fun l => l.tracked && !l.exited

theorem owned_ready (s : Service) : s.ready.owned = s.owned :=
  (owned_track _ _).trans s.owned_renew

theorem Ordered.ready (hs : s.Ordered) (hstate : s.state ≠ .bound) :
    s.ready.Ordered ∧ ∀ l ∈ s.ready.loops, l.generation < s.ready.generation := by
  obtain ⟨hrenew, -, hearlier⟩ := hs.renew hstate
  exact ⟨hrenew.track _, List.forall_mem_map.2 hearlier⟩

/-- A service that is not bound can be served on a socket that it does not own. -/
theorem evolves_serve_ready {b : BoundSocket} (hs : s.Sound k) (hspec : s.spec.isEmpty = false)
    (hstate : s.state ≠ .bound) (hinspect : inspect k s.protocol.transport b.fd = .ok b)
    (hfd : b.fd ∉ s.owned) : s.Evolves k {b.fd} (s.ready.serve b) k := by
  obtain ⟨-, hearlier⟩ := hs.toOrdered.ready hstate
  have hready : s.ready.Sound k := (hs.renew hstate).track _
  rw [← s.protocol_renew] at hinspect
  rw [← s.spec_renew] at hspec
  rw [← s.owned_ready] at hfd
  refine ⟨hready.serve hearlier hspec hinspect hfd, s.protocol_renew, s.spec_renew, ?_⟩
  rw [owned_serve, owned_ready, ← Set.singleton_union]
  exact .refl k.table _

/-! ## Acquiring a socket -/

theorem start_of_refused {inherited : Option Descriptor} {k' : Kernel} {e : SocketError}
    (hspec : s.spec.isEmpty = false)
    (hacquire : s.renew.acquire inherited k = (.error e, s.renew, k')) :
    s.start inherited k = (.error (.start s.renew.protocol e), s.renew, k') := by
  simp [start, hspec, hacquire]

theorem start_of_acquired {inherited : Option Descriptor} {k' : Kernel} {b : BoundSocket}
    (hspec : s.spec.isEmpty = false) (hacquire : s.renew.acquire inherited k =
      (.ok b.address, { s.renew with socket := ListeningSocket.hold {} b }, k')) :
    s.start inherited k = (.ok (), s.ready.serve b, k') := by
  simp [start, hspec, hacquire, spawnLoop, ListeningSocket.takeHandle, ListeningSocket.hold,
    Except.mapError, ready, serve, track]

theorem state_socket_renew (hs : s.Ordered) (hstate : s.state ≠ .bound) :
    s.renew.socket.state = .unbound := by
  obtain ⟨-, hsocket, -⟩ := hs.renew hstate
  rw [hsocket]
  rfl

/-! ## Starting on a descriptor -/

theorem start_of_blank (hspec : s.spec.isEmpty = true) (inherited : Option Descriptor)
    (k : Kernel) : s.start inherited k = (.ok (), s, k.closeAll inherited.toList) := by
  simp [start, hspec]

theorem start_of_bound (hspec : s.spec.isEmpty = false) (hstate : s.state = .bound)
    (fd : Descriptor) (k : Kernel) : s.start (some fd) k =
      (.error (.start s.protocol (.invalidState .adopt .bound)), s, k.close fd) := by
  have hsocket : s.socket.state = .bound := hstate
  simp [start, hspec, renew, hstate, acquire, ListeningSocket.adopt, hsocket]

theorem start_of_unadoptable (hs : s.Ordered) (hspec : s.spec.isEmpty = false)
    (hstate : s.state ≠ .bound) {e : SocketError}
    (hinspect : inspect k s.protocol.transport fd = .error e) :
    s.start (some fd) k = (.error (.start s.renew.protocol e), s.renew, k.close fd) := by
  apply start_of_refused hspec
  rw [← s.protocol_renew] at hinspect
  simp only [acquire, ListeningSocket.adopt, state_socket_renew hs hstate, hinspect, if_true]

theorem start_of_adoptable {b : BoundSocket} (hs : s.Ordered) (hspec : s.spec.isEmpty = false)
    (hstate : s.state ≠ .bound) (hinspect : inspect k s.protocol.transport fd = .ok b) :
    s.start (some fd) k = (.ok (), s.ready.serve b, k) := by
  obtain ⟨-, hsocket, -⟩ := hs.renew hstate
  apply start_of_acquired hspec
  rw [← s.protocol_renew] at hinspect
  simp only [acquire, ListeningSocket.adopt, state_socket_renew hs hstate, hinspect, if_true]
  rw [hsocket]

/-- Starting on a descriptor that the service does not own keeps it for a new loop, or
    closes it. -/
theorem evolves_start_some (hs : s.Sound k) (hfd : fd ∉ s.owned) :
    s.Evolves k {fd} (s.start (some fd) k).2.1 (s.start (some fd) k).2.2 := by
  have hclose : Retains k.table ({fd} ∪ s.owned) (k.close fd).table s.owned :=
    .close k.table hfd
  have hkept : s.Sound (k.close fd) := hs.congr fun other hother => hclose.same other (.inl hother)
  cases hspec : s.spec.isEmpty with
  | true =>
    rw [start_of_blank hspec]
    exact ⟨hkept, rfl, rfl, hclose⟩
  | false =>
    by_cases hstate : s.state = .bound
    · rw [start_of_bound hspec hstate]
      exact ⟨hkept, rfl, rfl, hclose⟩
    · cases hinspect : inspect k s.protocol.transport fd with
      | error e =>
        rw [start_of_unadoptable hs.toOrdered hspec hstate hinspect]
        refine ⟨hkept.renew hstate, s.protocol_renew, s.spec_renew, ?_⟩
        rw [owned_renew]
        exact hclose
      | ok b =>
        rw [start_of_adoptable hs.toOrdered hspec hstate hinspect]
        obtain ⟨-, -, -, hb⟩ := ListeningSocket.inspect_eq_ok_iff.1 hinspect
        obtain rfl : b.fd = fd := by rw [hb]
        exact evolves_serve_ready hs hspec hstate hinspect hfd

/-! ## Starting on a fresh socket -/

theorem start_none_of_bound (hspec : s.spec.isEmpty = false) (hstate : s.state = .bound)
    (k : Kernel) :
    s.start none k = (.error (.start s.protocol (.invalidState .bind .bound)), s, k) := by
  have hsocket : s.socket.state = .bound := hstate
  simp [start, hspec, renew, hstate, acquire, ListeningSocket.bind, hsocket]

/-- A service that is not bound is refused a socket, or it is served on the one that it
    binds. -/
theorem start_none_cases (hs : s.Ordered) (hspec : s.spec.isEmpty = false)
    (hstate : s.state ≠ .bound) :
    (∃ e, s.start none k = (.error (.start s.renew.protocol e), s.renew, k)) ∨
      ∃ address fd bound k', k.bind s.protocol.transport address = .ok (fd, bound, k') ∧
        s.start none k = (.ok (), s.ready.serve ⟨fd, s.protocol.transport, bound⟩, k') := by
  obtain ⟨-, hsocket, -⟩ := hs.renew hstate
  have hunbound := state_socket_renew hs hstate
  rw [← s.protocol_renew]
  cases hresolve : resolveSpec s.renew.spec with
  | error fault =>
    refine .inl ⟨.resolve s.renew.spec fault, start_of_refused hspec ?_⟩
    simp only [acquire, ListeningSocket.bind, hunbound, hresolve, if_true]
  | ok address =>
    cases hbind : k.bind s.renew.protocol.transport address with
    | error kind =>
      refine .inl ⟨.bind s.renew.protocol.transport s.renew.spec kind, start_of_refused hspec ?_⟩
      simp only [acquire, ListeningSocket.bind, hunbound, hresolve, hbind, if_true]
    | ok opened =>
      obtain ⟨fd, bound, k'⟩ := opened
      refine .inr ⟨address, fd, bound, k', hbind, start_of_acquired hspec ?_⟩
      simp only [acquire, ListeningSocket.bind, hunbound, hresolve, hbind, if_true]
      rw [hsocket]

/-- Starting without a descriptor opens one at most, and gives it to the service. -/
theorem exists_evolves_start_none (hs : s.Sound k) :
    ∃ (given : Set Descriptor) (k₁ : Kernel), (∀ fd ∈ given, k.table.get? fd = none) ∧
      (∀ fd, fd ∉ given → k₁.table.get? fd = k.table.get? fd) ∧
      s.Evolves k₁ given (s.start none k).2.1 (s.start none k).2.2 := by
  have hnothing : ∀ s', s.Evolves k ∅ s' k → ∃ (given : Set Descriptor) (k₁ : Kernel),
      (∀ fd ∈ given, k.table.get? fd = none) ∧
      (∀ fd, fd ∉ given → k₁.table.get? fd = k.table.get? fd) ∧ s.Evolves k₁ given s' k :=
    fun s' h => ⟨∅, k, nofun, fun _ _ => rfl, h⟩
  cases hspec : s.spec.isEmpty with
  | true =>
    rw [start_of_blank hspec]
    exact hnothing s (.refl hs)
  | false =>
    by_cases hstate : s.state = .bound
    · rw [start_none_of_bound hspec hstate]
      exact hnothing s (.refl hs)
    · rcases start_none_cases hs.toOrdered hspec hstate with
        ⟨e, hstart⟩ | ⟨address, fd, bound, k', hbind, hstart⟩
      · rw [hstart]
        refine hnothing s.renew ⟨hs.renew hstate, s.protocol_renew, s.spec_renew, ?_⟩
        rw [owned_renew, Set.empty_union]
        exact .refl k.table s.owned
      · obtain ⟨hfree, hsame, hinspect⟩ := Kernel.bind_spec hbind
        have hnew : fd ∉ s.owned := fun howned => hs.get?_ne_none howned hfree
        have hkept : s.Sound k' := hs.congr fun other howned =>
          hsame other (ne_of_mem_of_not_mem howned hnew)
        rw [hstart]
        refine ⟨{fd}, k', ?_, hsame, ?_⟩
        · rintro other rfl
          exact hfree
        exact @evolves_serve_ready s k' ⟨fd, s.protocol.transport, bound⟩ hkept hspec hstate
          hinspect hnew

/-! ## Whatever the kernel is -/

/-- Starting leaves a service alone, gives it a new socket in vain, or serves it on one. -/
theorem start_cases (hs : s.Ordered) (inherited : Option Descriptor) (k : Kernel) :
    (s.start inherited k).2.1 = s ∨
      s.state ≠ .bound ∧ (s.start inherited k).2.1 = s.renew ∨
      s.state ≠ .bound ∧ s.spec.isEmpty = false ∧
        ∃ b, (s.start inherited k).2.1 = s.ready.serve b := by
  cases hspec : s.spec.isEmpty with
  | true => exact .inl (by rw [start_of_blank hspec])
  | false =>
    by_cases hstate : s.state = .bound
    · left
      cases inherited with
      | none => rw [start_none_of_bound hspec hstate]
      | some fd => rw [start_of_bound hspec hstate]
    · right
      cases inherited with
      | none =>
        rcases start_none_cases (k := k) hs hspec hstate with
          ⟨e, hstart⟩ | ⟨_, fd, bound, k', -, hstart⟩
        · exact .inl ⟨hstate, by rw [hstart]⟩
        · exact .inr ⟨hstate, rfl, _, by rw [hstart]⟩
      | some fd =>
        cases hinspect : inspect k s.protocol.transport fd with
        | error e => exact .inl ⟨hstate, by rw [start_of_unadoptable hs hspec hstate hinspect]⟩
        | ok b => exact .inr ⟨hstate, rfl, b, by rw [start_of_adoptable hs hspec hstate hinspect]⟩

theorem Ordered.start (hs : s.Ordered) (inherited : Option Descriptor) (k : Kernel) :
    (s.start inherited k).2.1.Ordered := by
  rcases start_cases hs inherited k with hsame | ⟨hstate, hrenew⟩ | ⟨hstate, hspec, b, hserve⟩
  · rwa [hsame]
  · rw [hrenew]
    exact (hs.renew hstate).1
  · obtain ⟨hready, hearlier⟩ := hs.ready hstate
    rw [hserve]
    exact hready.serve hearlier (s.spec_renew.symm ▸ hspec) b

theorem Ordered.spec_start (hs : s.Ordered) (inherited : Option Descriptor) (k : Kernel) :
    (s.start inherited k).2.1.spec = s.spec := by
  rcases start_cases hs inherited k with hsame | ⟨-, hrenew⟩ | ⟨-, -, b, hserve⟩
  · rw [hsame]
  · rw [hrenew, spec_renew]
  · rw [hserve]
    exact s.spec_renew

/-- Starting on a descriptor closes this one or none, and opens none. -/
theorem Ordered.kernel_start_some (hs : s.Ordered) (fd : Descriptor) (k : Kernel) :
    (s.start (some fd) k).2.2 = k ∨ (s.start (some fd) k).2.2 = k.close fd := by
  cases hspec : s.spec.isEmpty with
  | true => exact .inr (by rw [start_of_blank hspec]; rfl)
  | false =>
    by_cases hstate : s.state = .bound
    · exact .inr (by rw [start_of_bound hspec hstate])
    · cases hinspect : inspect k s.protocol.transport fd with
      | error e => exact .inr (by rw [start_of_unadoptable hs hspec hstate hinspect])
      | ok b => exact .inl (by rw [start_of_adoptable hs hspec hstate hinspect])

end MetricIntake.Service
