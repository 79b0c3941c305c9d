-- SUMMARY: The descriptors that a service owns: each operation keeps or closes those it owns or is given, and touches no other.
import Mathlib.Order.BooleanAlgebra.Set
import MetricIntake.Service.Basic
import MetricIntake.Proofs.Descriptor.Custody
import MetricIntake.Proofs.Descriptor.Kernel

/-!
# What a service owns

The socket of a loop is open until the loop has both been asked to stop, for then
the service lets go of it, and exited. These sockets are what a service owns. All
its loops but the latest serve sockets that were stopped; the socket of the service
is new, or it is the one that the latest loop serves, and then it is the loop that
tells how far it has come.

Between its operations a service is sound, and every operation closes what the
service owned or was given and does not own afterwards.
-/

namespace MetricIntake

open DescriptorTable (Retains)
open ListeningSocket (inspect)

/-! ## Loops -/

namespace ServingLoop

/-- Whether the socket that a loop serves is open: the service lets go of it when the
    loop is asked to stop, and the loop when it exits. -/
def isOpen (l : ServingLoop) : Bool := !(l.stopRequested && l.exited)

/-- The socket of the service while this loop is the one that serves it. -/
def listening (l : ServingLoop) : ListeningSocket where
  holding := if l.stopRequested then .released l.socket else .held l.socket
  handles := if l.exited then 0 else 1
  stopRequested := l.stopRequested
  address? := some l.socket.address

/-- A loop that is asked to stop. -/
def stopped (l : ServingLoop) : ServingLoop := { l with stopRequested := true }

/-- A loop that exits. -/
def ended (l : ServingLoop) : ServingLoop := { l with exited := true }

theorem stop_listening {l : ServingLoop} (h : l.stopRequested = false) (k : Kernel) :
    l.listening.stop k =
      (l.stopped.listening, if l.stopped.isOpen then k else k.close l.socket.fd) := by
  cases hexited : l.exited <;>
    simp [ListeningSocket.stop, listening, stopped, isOpen, h, hexited]

theorem stop_listening_of_stopped {l : ServingLoop} (h : l.stopRequested = true) (k : Kernel) :
    l.listening.stop k = (l.listening, k) := by
  simp [ListeningSocket.stop, listening, h]

theorem dropHandle_listening {l : ServingLoop} (h : l.exited = false) (k : Kernel) :
    l.listening.dropHandle k =
      (l.ended.listening, if l.ended.isOpen then k else k.close l.socket.fd) := by
  cases hstopped : l.stopRequested <;>
    simp [ListeningSocket.dropHandle, listening, ended, isOpen, h, hstopped]

theorem state_listening (l : ServingLoop) : l.listening.state =
    if l.stopRequested then (if l.exited then .closed else .draining) else .bound := by
  cases hstopped : l.stopRequested <;> cases hexited : l.exited <;>
    simp [ListeningSocket.state, listening, hstopped, hexited]

end ServingLoop

namespace Service

variable {s s' : Service} {k k' : Kernel} {given : Set Descriptor} {fd : Descriptor}

/-- The descriptors of the open sockets of a service. -/
def owned (s : Service) : Set Descriptor :=
  {fd | ∃ l ∈ s.loops, l.isOpen = true ∧ l.socket.fd = fd}

/-- The socket of a service: a new one, or the one that a loop serves. -/
inductive Current (s : Service) : Prop where
  | fresh (hsocket : s.socket = {}) (hearlier : ∀ l ∈ s.loops, l.generation < s.generation)
  | served {l : ServingLoop} (hmem : l ∈ s.loops) (hgeneration : l.generation = s.generation)
      (hsocket : s.socket = l.listening)

/-- What holds of the loops of a service between its operations, whatever becomes of
    descriptors. -/
structure Ordered (s : Service) : Prop where
  distinct : (s.loops.map ServingLoop.generation).Nodup
  bounded : ∀ l ∈ s.loops, l.generation ≤ s.generation
  current : s.Current
  earlier : ∀ l ∈ s.loops, l.generation < s.generation → l.stopRequested = true
  /-- A service without a spec has never been started. -/
  enabled : s.loops ≠ [] → s.spec.isEmpty = false

/-- What holds of a service between its operations. -/
structure Sound (s : Service) (k : Kernel) : Prop extends Ordered s where
  adoptable : ∀ l ∈ s.loops, l.isOpen = true →
    inspect k s.protocol.transport l.socket.fd = .ok l.socket
  /-- No two open sockets have the same descriptor. -/
  apart : ∀ l ∈ s.loops, ∀ l' ∈ s.loops, l.isOpen = true → l'.isOpen = true →
    l.socket.fd = l'.socket.fd → l.generation = l'.generation

/-- What an operation that is given descriptors makes of a service. -/
structure Evolves (s : Service) (k : Kernel) (given : Set Descriptor) (s' : Service)
    (k' : Kernel) : Prop where
  sound : s'.Sound k'
  protocol : s'.protocol = s.protocol
  spec : s'.spec = s.spec
  retains : Retains k.table (given ∪ s.owned) k'.table s'.owned

/-! ## Soundness -/

/-- A service that has not been started. -/
theorem ordered_new (protocol : Protocol) (spec : String) : Ordered { protocol, spec } where
  distinct := List.nodup_nil
  bounded := nofun
  current := .fresh rfl nofun
  earlier := nofun
  enabled h := absurd rfl h

theorem sound_new (protocol : Protocol) (spec : String) (k : Kernel) :
    Sound { protocol, spec } k where
  __ := ordered_new protocol spec
  adoptable := nofun
  apart := nofun

/-- Loops of one generation are one loop. -/
theorem Ordered.eq_of_generation (hs : s.Ordered) {l l' : ServingLoop} (hl : l ∈ s.loops)
    (hl' : l' ∈ s.loops) (h : l.generation = l'.generation) : l = l' :=
  List.inj_on_of_nodup_map hs.distinct hl hl' h

/-- The latest loop tells what the socket of its service is. -/
theorem Ordered.socket_eq_listening (hs : s.Ordered) {l : ServingLoop} (hl : l ∈ s.loops)
    (hgeneration : l.generation = s.generation) : s.socket = l.listening := by
  cases hs.current with
  | fresh _ hearlier => exact absurd hgeneration (hearlier l hl).ne
  | served hmem hgeneration' hsocket =>
    rw [hsocket, hs.eq_of_generation hl hmem (hgeneration.trans hgeneration'.symm)]

/-- A kernel that leaves alone what a service owns is as good as the one before. -/
theorem Sound.congr (hs : s.Sound k)
    (hkept : ∀ fd ∈ s.owned, k'.table.get? fd = k.table.get? fd) : s.Sound k' where
  __ := hs
  adoptable l hl hopen := by
    rw [ListeningSocket.inspect_congr (hkept l.socket.fd ⟨l, hl, hopen, rfl⟩)]
    exact hs.adoptable l hl hopen

/-- Whoever is served by an open socket owns an open descriptor. -/
theorem Sound.get?_ne_none (hs : s.Sound k) (h : fd ∈ s.owned) : k.table.get? fd ≠ none := by
  obtain ⟨l, hl, hopen, rfl⟩ := h
  obtain ⟨file, hfile, -, -⟩ := ListeningSocket.inspect_eq_ok_iff.1 (hs.adoptable l hl hopen)
  exact DescriptorTable.get?_ne_none_iff.2 ⟨file, hfile⟩

/-- A bound service holds the socket of a loop that goes on for all it knows. -/
theorem Sound.exists_of_held (hs : s.Sound k) {b : BoundSocket} (h : s.socket.holding = .held b) :
    ∃ l ∈ s.loops, l.isOpen = true ∧ l.stopRequested = false ∧ l.socket = b ∧
      s.socket = l.listening := by
  cases hs.current with
  | fresh hsocket => simp [hsocket] at h
  | @served l hmem hgeneration hsocket =>
    cases hstopped : l.stopRequested with
    | true => simp [hsocket, ServingLoop.listening, hstopped] at h
    | false =>
      refine ⟨l, hmem, by simp [ServingLoop.isOpen, hstopped], hstopped, ?_, hsocket⟩
      simpa [hsocket, ServingLoop.listening, hstopped] using h

/-- The descriptor of a bound service is its own, and leads to a socket as it takes them. -/
theorem Sound.held (hs : s.Sound k) {b : BoundSocket} (h : s.socket.holding = .held b) :
    b.fd ∈ s.owned ∧ inspect k s.protocol.transport b.fd = .ok b ∧
      s.address? = some b.address ∧ s.spec.isEmpty = false := by
  obtain ⟨l, hmem, hopen, -, rfl, hsocket⟩ := hs.exists_of_held h
  have hspec := hs.enabled (List.ne_nil_of_mem hmem)
  refine ⟨⟨l, hmem, hopen, rfl⟩, hs.adoptable l hmem hopen, ?_, hspec⟩
  rw [address?, hsocket]
  rfl

theorem state_eq_bound_iff : s.state = .bound ↔ ∃ b, s.socket.holding = .held b := by
  cases hholding : s.socket.holding <;>
    simp [state, ListeningSocket.state, hholding]
  split <;> simp

theorem state_eq_bound_of_duplicate? {copy : Descriptor × Kernel}
    (h : s.duplicate? k = some copy) : s.state = .bound := by
  rw [state_eq_bound_iff]
  cases hholding : s.socket.holding with
  | held b => exact ⟨b, rfl⟩
  | nothing => simp [duplicate?, ListeningSocket.duplicate?, hholding] at h
  | released b => simp [duplicate?, ListeningSocket.duplicate?, hholding] at h

/-! ## One loop goes further -/

/-- The loops of a service, another one in the place of one of them. -/
def loopsWith (s : Service) (l l' : ServingLoop) : List ServingLoop :=
  s.loops.map fun other => if other.generation = l.generation then l' else other

/-- A service and its kernel when one loop has gone further. -/
def advance (s : Service) (l l' : ServingLoop) (k : Kernel) : Service × Kernel :=
  ({ s with
      socket := if l.generation = s.generation then l'.listening else s.socket
      loops := s.loopsWith l l' },
    if l'.isOpen then k else k.close l.socket.fd)

variable {l l' : ServingLoop}

/-- Changing the loop of a generation changes that one loop. -/
theorem Ordered.map_eq_loopsWith (hs : s.Ordered) (hl : l ∈ s.loops) {generation : Nat}
    (hgeneration : l.generation = generation) (f : ServingLoop → ServingLoop) :
    (s.loops.map fun other => if other.generation = generation then f other else other) =
      s.loopsWith l (f l) := by
  apply List.map_congr_left
  intro other hother
  rw [hgeneration]
  split
  · rename_i hsame
    rw [hs.eq_of_generation hother hl (hsame.trans hgeneration.symm)]
  · rfl

theorem Ordered.loopsWith_self (hs : s.Ordered) (hl : l ∈ s.loops) : s.loopsWith l l = s.loops := by
  have hmap := hs.map_eq_loopsWith hl rfl id
  simp only [id, ite_self, List.map_id'] at hmap
  exact hmap.symm

theorem Ordered.set_eq_loopsWith (hs : s.Ordered) {i : Nat} (hi : s.loops[i]? = some l) :
    s.loops.set i l' = s.loopsWith l l' := by
  apply List.ext_getElem?
  intro j
  rw [List.getElem?_set, loopsWith, List.getElem?_map]
  obtain ⟨hlt, -⟩ := List.getElem?_eq_some_iff.1 hi
  by_cases hij : i = j
  · subst hij
    rw [hi, if_pos rfl, if_pos hlt]
    simp
  · rw [if_neg hij]
    cases hj : s.loops[j]? with
    | none => rfl
    | some other =>
      -- a loop elsewhere is of another generation
      have hne : other.generation ≠ l.generation := by
        intro hsame
        have hlt : i < (s.loops.map ServingLoop.generation).length := by simpa using hlt
        apply hij ∘ (List.getElem?_inj hlt hs.distinct).1
        simp [hi, hj, hsame]
      simp [hne]

/-- Stopping a service asks the loop of its socket to stop, unless there is none or it
    has been asked. -/
theorem stop_cases (hs : s.Ordered) (k : Kernel) : s.stop k = (s, k) ∨
    ∃ l ∈ s.loops, l.generation = s.generation ∧ l.stopRequested = false ∧
      s.stop k = s.advance l l.stopped k := by
  cases hs.current with
  | fresh hsocket =>
    left
    simp only [stop, hsocket, ListeningSocket.stop, Bool.or_false, ite_self, List.map_id']
    rw [← hsocket]
  | @served l hmem hgeneration hsocket =>
    have hloops := fun socket : ListeningSocket => hs.map_eq_loopsWith hmem hgeneration fun other =>
      { other with stopRequested := other.stopRequested || socket.stopRequested }
    cases hstopped : l.stopRequested with
    | true =>
      left
      have hsame :
          { l with stopRequested := l.stopRequested || l.listening.stopRequested } = l := by
        rw [hstopped, Bool.true_or, ← hstopped]
      simp only [stop, hsocket, ServingLoop.stop_listening_of_stopped hstopped, hloops]
      rw [hsame, hs.loopsWith_self hmem, ← hsocket]
    | false =>
      right
      refine ⟨l, hmem, hgeneration, hstopped, ?_⟩
      simp only [stop, advance, hsocket, ServingLoop.stop_listening hstopped, hloops,
        if_pos hgeneration]
      simp [ServingLoop.listening, ServingLoop.stopped]

/-- A loop that is there and goes on is the one that exits. -/
theorem exitLoop_cases (hs : s.Ordered) (i : Nat) (k : Kernel) : s.exitLoop i k = (s, k) ∨
    ∃ l ∈ s.loops, s.loops[i]? = some l ∧ l.exited = false ∧
      s.exitLoop i k = s.advance l l.ended k := by
  cases hi : s.loops[i]? with
  | none => exact .inl (by simp [exitLoop, hi])
  | some l =>
    cases hexited : l.exited with
    | true => exact .inl (by simp [exitLoop, hi, hexited])
    | false =>
      right
      have hmem := List.mem_of_getElem? hi
      refine ⟨l, hmem, rfl, hexited, ?_⟩
      have hloops : s.loops.set i { l with exited := true } = s.loopsWith l l.ended :=
        hs.set_eq_loopsWith hi
      unfold exitLoop advance
      simp only [hi, hexited, hloops, Bool.false_eq_true, if_false]
      by_cases hgeneration : l.generation = s.generation
      · simp only [if_pos hgeneration]
        rw [hs.socket_eq_listening hmem hgeneration, ServingLoop.dropHandle_listening hexited]
      · have hstopped := hs.earlier l hmem (lt_of_le_of_ne (hs.bounded l hmem) hgeneration)
        simp [hgeneration, ServingLoop.isOpen, ServingLoop.ended, hstopped]

theorem mem_loopsWith (hl : l ∈ s.loops) (other : ServingLoop) :
    other ∈ s.loopsWith l l' ↔
      other = l' ∨ other ∈ s.loops ∧ other.generation ≠ l.generation := by
  unfold loopsWith
  rw [List.mem_map]
  constructor
  · rintro ⟨origin, horigin, rfl⟩
    by_cases hsame : origin.generation = l.generation
    · exact .inl (if_pos hsame)
    · rw [if_neg hsame]
      exact .inr ⟨horigin, hsame⟩
  · rintro (rfl | ⟨hother, hne⟩)
    · exact ⟨l, hl, if_pos rfl⟩
    · exact ⟨other, hother, if_neg hne⟩

/-- The open sockets of a service after a loop has gone further were open before. -/
theorem exists_of_mem_loopsWith (hl : l ∈ s.loops) (hopen : l.isOpen = true)
    (hgeneration : l'.generation = l.generation) (hsocket : l'.socket = l.socket)
    {other : ServingLoop} (hother : other ∈ s.loopsWith l l') :
    ∃ before ∈ s.loops, (other.isOpen = true → before.isOpen = true) ∧
      before.generation = other.generation ∧ before.socket = other.socket := by
  rcases (mem_loopsWith hl other).1 hother with rfl | ⟨hmem, -⟩
  · exact ⟨l, hl, fun _ => hopen, hgeneration.symm, hsocket.symm⟩
  · exact ⟨other, hmem, id, rfl, rfl⟩

/-- A loop whose socket stays open takes nothing from the service. -/
theorem Sound.owned_advance_of_open (hs : s.Sound k) (hl : l ∈ s.loops)
    (hopen : l.isOpen = true) (hgeneration : l'.generation = l.generation)
    (hsocket : l'.socket = l.socket) (hopen' : l'.isOpen = true) :
    (s.advance l l' k).1.owned = s.owned := by
  ext fd
  constructor
  · rintro ⟨other, hother, hother_open, rfl⟩
    obtain ⟨before, hbefore, hbefore_open, -, hsame⟩ :=
      exists_of_mem_loopsWith hl hopen hgeneration hsocket hother
    exact ⟨before, hbefore, hbefore_open hother_open, by rw [hsame]⟩
  · rintro ⟨other, hother, hother_open, rfl⟩
    by_cases hsame : other.generation = l.generation
    · obtain rfl := hs.eq_of_generation hother hl hsame
      exact ⟨l', (mem_loopsWith hl l').2 (.inl rfl), hopen', by rw [hsocket]⟩
    · exact ⟨other, (mem_loopsWith hl other).2 (.inr ⟨hother, hsame⟩), hother_open, rfl⟩

/-- A loop whose socket is closed takes the descriptor of this socket from the service. -/
theorem Sound.owned_advance_of_closed (hs : s.Sound k) (hl : l ∈ s.loops)
    (hopen : l.isOpen = true) (hclosed : l'.isOpen = false) :
    (s.advance l l' k).1.owned = s.owned \ {l.socket.fd} := by
  ext fd
  rw [Set.mem_sdiff, Set.mem_singleton_iff]
  constructor
  · rintro ⟨other, hother, hother_open, rfl⟩
    rcases (mem_loopsWith hl other).1 hother with rfl | ⟨hother, hne⟩
    · simp [hclosed] at hother_open
    · refine ⟨⟨other, hother, hother_open, rfl⟩, fun hfd => hne ?_⟩
      exact hs.apart other hother l hl hother_open hopen hfd
  · rintro ⟨⟨other, hother, hother_open, rfl⟩, hfd⟩
    have hne : other.generation ≠ l.generation := fun hsame =>
      hfd (by rw [hs.eq_of_generation hother hl hsame])
    exact ⟨other, (mem_loopsWith hl other).2 (.inr ⟨hother, hne⟩), hother_open, rfl⟩

/-- When a loop goes further the service loses the descriptor of this loop at most, and
    it is closed. -/
theorem Sound.retains_advance (hs : s.Sound k) (hl : l ∈ s.loops) (hopen : l.isOpen = true)
    (hgeneration : l'.generation = l.generation) (hsocket : l'.socket = l.socket) :
    Retains k.table s.owned (s.advance l l' k).2.table (s.advance l l' k).1.owned := by
  cases hopen' : l'.isOpen with
  | true =>
    rw [hs.owned_advance_of_open hl hopen hgeneration hsocket hopen']
    simp only [advance, hopen', if_true]
    exact .refl k.table s.owned
  | false =>
    have hfd : l.socket.fd ∈ s.owned := ⟨l, hl, hopen, rfl⟩
    have hnot : l.socket.fd ∉ s.owned \ {l.socket.fd} :=
      Set.notMem_sdiff_of_mem (Set.mem_singleton l.socket.fd)
    have hretains := Retains.close k.table hnot
    rw [Set.insert_sdiff_self_of_mem hfd] at hretains
    rw [hs.owned_advance_of_closed hl hopen hopen']
    simp only [advance, hopen', Bool.false_eq_true, if_false]
    exact hretains

/-- A loop keeps its generation while it goes further. -/
theorem map_generation_loopsWith (s : Service) (hgeneration : l'.generation = l.generation) :
    (s.loopsWith l l').map ServingLoop.generation = s.loops.map ServingLoop.generation := by
  rw [loopsWith, List.map_map]
  apply List.map_congr_left
  intro other _
  simp only [Function.comp_apply]
  split
  · rename_i hsame
    rw [hgeneration, hsame]
  · rfl

theorem Ordered.current_advance (hs : s.Ordered) (hl : l ∈ s.loops)
    (hgeneration : l'.generation = l.generation) : (s.advance l l' k).1.Current := by
  have hmem := @mem_loopsWith s l l' hl
  by_cases hcurrent : l.generation = s.generation
  · exact .served ((hmem l').2 (.inl rfl)) (hgeneration.trans hcurrent) (if_pos hcurrent)
  · cases hs.current with
    | fresh hfresh hearlier =>
      refine .fresh ((if_neg hcurrent).trans hfresh) fun other hother => ?_
      rcases (hmem other).1 hother with rfl | ⟨hother, -⟩
      · exact hgeneration ▸ hearlier l hl
      · exact hearlier other hother
    | @served serving hserving hgeneration' hserved =>
      have hne : serving.generation ≠ l.generation := by
        rintro hsame
        exact hcurrent (hsame.symm.trans hgeneration')
      exact .served ((hmem serving).2 (.inr ⟨hserving, hne⟩)) hgeneration'
        ((if_neg hcurrent).trans hserved)

/-- A loop that goes further without forgetting a request to stop leaves the loops in
    order. -/
theorem Ordered.advance (hs : s.Ordered) (hl : l ∈ s.loops)
    (hgeneration : l'.generation = l.generation)
    (hstopped : l.stopRequested = true → l'.stopRequested = true) :
    (s.advance l l' k).1.Ordered where
  distinct := (s.map_generation_loopsWith hgeneration).symm ▸ hs.distinct
  bounded other hother := by
    rcases (mem_loopsWith hl other).1 hother with rfl | ⟨hother, -⟩
    · exact hgeneration ▸ hs.bounded l hl
    · exact hs.bounded other hother
  current := hs.current_advance hl hgeneration
  earlier other hother hlt := by
    rcases (mem_loopsWith hl other).1 hother with rfl | ⟨hother, -⟩
    · exact hstopped (hs.earlier l hl (hgeneration ▸ hlt))
    · exact hs.earlier other hother hlt
  enabled _ := hs.enabled (List.ne_nil_of_mem hl)

/-- So it leaves the service sound. -/
theorem Sound.evolves_advance (hs : s.Sound k) (hl : l ∈ s.loops) (hopen : l.isOpen = true)
    (hgeneration : l'.generation = l.generation) (hsocket : l'.socket = l.socket)
    (hstopped : l.stopRequested = true → l'.stopRequested = true) :
    s.Evolves k ∅ (s.advance l l' k).1 (s.advance l l' k).2 := by
  have hretains := hs.retains_advance hl hopen hgeneration hsocket
  have hbefore := fun other => @exists_of_mem_loopsWith s l l' hl hopen hgeneration hsocket other
  refine ⟨?_, rfl, rfl, by rwa [Set.empty_union]⟩
  refine ⟨hs.advance hl hgeneration hstopped, ?_, ?_⟩
  · intro other hother hother_open
    obtain ⟨before, hmem, hbefore_open, -, hsame⟩ := hbefore other hother
    have hkept := hretains.same other.socket.fd (.inl ⟨other, hother, hother_open, rfl⟩)
    rw [ListeningSocket.inspect_congr hkept, ← hsame]
    exact hs.adoptable before hmem (hbefore_open hother_open)
  · intro other hother other' hother' hopen₁ hopen₂ hfd
    obtain ⟨before, hmem₁, hopen₁', hgeneration₁, hsocket₁⟩ := hbefore other hother
    obtain ⟨before', hmem₂, hopen₂', hgeneration₂, hsocket₂⟩ := hbefore other' hother'
    rw [← hgeneration₁, ← hgeneration₂]
    rw [← hsocket₁, ← hsocket₂] at hfd
    exact hs.apart before hmem₁ before' hmem₂ (hopen₁' hopen₁) (hopen₂' hopen₂) hfd

/-! ## Operations -/

theorem Evolves.refl (hs : s.Sound k) : s.Evolves k ∅ s k :=
  ⟨hs, rfl, rfl, by rw [Set.empty_union]; exact .refl k.table s.owned⟩

/-- Operations that are given nothing follow one another. -/
theorem Evolves.trans {s₁ : Service} {k₁ : Kernel} (h : s.Evolves k ∅ s₁ k₁)
    (h' : s₁.Evolves k₁ ∅ s' k') : s.Evolves k ∅ s' k' where
  sound := h'.sound
  protocol := h'.protocol.trans h.protocol
  spec := h'.spec.trans h.spec
  retains := by
    have hretains := h'.retains
    rw [Set.empty_union] at hretains
    exact h.retains.trans hretains

theorem evolves_stop (hs : s.Sound k) : s.Evolves k ∅ (s.stop k).1 (s.stop k).2 := by
  rcases stop_cases hs.toOrdered k with hsame | ⟨l, hl, -, hgoing, hstop⟩
  · rw [hsame]
    exact .refl hs
  · rw [hstop]
    exact hs.evolves_advance hl (by simp [ServingLoop.isOpen, hgoing]) rfl rfl fun _ => rfl

theorem evolves_exitLoop (hs : s.Sound k) (i : Nat) :
    s.Evolves k ∅ (s.exitLoop i k).1 (s.exitLoop i k).2 := by
  rcases exitLoop_cases hs.toOrdered i k with hsame | ⟨l, hl, -, hgoing, hexit⟩
  · rw [hsame]
    exact .refl hs
  · rw [hexit]
    exact hs.evolves_advance hl (by simp [ServingLoop.isOpen, hgoing]) rfl rfl id

/-- A service that has been stopped is not bound. -/
theorem state_stop_ne_bound (s : Service) (k : Kernel) : (s.stop k).1.state ≠ .bound := by
  rw [Ne, state_eq_bound_iff, not_exists]
  intro b
  cases hholding : s.socket.holding <;> simp [stop, ListeningSocket.stop, hholding]

/-- What a service is bound to does not depend on whether its loops go on. -/
theorem holding_exitLoop (s : Service) (i : Nat) (k : Kernel) :
    (s.exitLoop i k).1.socket.holding = s.socket.holding := by
  unfold exitLoop
  split
  · rfl
  · split
    · rfl
    · dsimp only
      split
      · cases hholding : s.socket.holding <;> simp [ListeningSocket.dropHandle, hholding]
      · rfl

theorem evolves_foldl {α : Type} (f : Service × Kernel → α → Service × Kernel)
    (hf : ∀ s k a, Sound s k → s.Evolves k ∅ (f (s, k) a).1 (f (s, k) a).2) (as : List α)
    (hs : s.Sound k) : s.Evolves k ∅ (as.foldl f (s, k)).1 (as.foldl f (s, k)).2 := by
  induction as generalizing s k with
  | nil => exact .refl hs
  | cons a as ih =>
    have hstep := hf s k a hs
    exact hstep.trans (ih hstep.sound)

theorem evolves_settle (hs : s.Sound k) : s.Evolves k ∅ (s.settle k).1 (s.settle k).2 := by
  apply evolves_foldl _ _ _ hs
  intro s k i hs
  cases hi : s.loops[i]? with
  | none => simpa only [hi] using Evolves.refl hs
  | some l =>
    simp only [hi]
    split
    · exact evolves_exitLoop hs i
    · exact .refl hs

/-- A service, some of its loops waited for and others not. -/
def track (s : Service) (tracked : ServingLoop → Bool) : Service :=
  { s with loops := s.loops.map fun l => { l with tracked := tracked l } }

/-- Whether a loop is waited for makes no difference to what is owned. -/
theorem owned_track (s : Service) (tracked : ServingLoop → Bool) :
    (s.track tracked).owned = s.owned := by
  ext fd
  simp [owned, track, ServingLoop.isOpen]

theorem Ordered.track (hs : s.Ordered) (tracked : ServingLoop → Bool) :
    (s.track tracked).Ordered where
  distinct := by
    rw [Service.track, List.map_map]
    exact hs.distinct
  bounded := List.forall_mem_map.2 hs.bounded
  current := by
    cases hs.current with
    | fresh hsocket hearlier => exact .fresh hsocket (List.forall_mem_map.2 hearlier)
    | served hmem hgeneration hsocket =>
      exact .served (List.mem_map_of_mem hmem) hgeneration hsocket
  earlier := List.forall_mem_map.2 hs.earlier
  enabled h := hs.enabled fun hnil => h (by rw [Service.track, hnil, List.map_nil])

theorem Sound.track (hs : s.Sound k) (tracked : ServingLoop → Bool) :
    (s.track tracked).Sound k where
  __ := hs.toOrdered.track tracked
  adoptable := List.forall_mem_map.2 hs.adoptable
  apart :=
    List.forall_mem_map.2 fun l hl => List.forall_mem_map.2 fun l' hl' => hs.apart l hl l' hl'

theorem evolves_takeTracked (hs : s.Sound k) : s.Evolves k ∅ s.takeTracked.2 k where
  sound := hs.track fun _ => false
  protocol := rfl
  spec := rfl
  retains := by
    have howned : s.takeTracked.2.owned = s.owned := owned_track s fun _ => false
    rw [Set.empty_union, howned]
    exact .refl k.table s.owned

end Service
end MetricIntake
