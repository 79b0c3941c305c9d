-- SUMMARY: The life of a listening socket: its state only goes forward, whatever is done to it and to its handles, and tells what can be had from it.
import Mathlib.Logic.Relation
import MetricIntake.Proofs.Descriptor.Kernel

/-!
# The life of a listening socket

The handles of a socket are in other hands, and the state of a socket that has been
stopped is known from them alone. A `Scene` puts the socket beside the number of
handles that there are, and `Scene.Step` lists what can be done to either. In every
scene that such steps lead to, the socket has the form that its state asks for
(`Scene.Sound`); all that is said about its life follows from this form.
-/

namespace MetricIntake.ListeningSocket

variable {s : ListeningSocket} {k : Kernel} {transport : Transport} {spec : String}
  {fd : Descriptor}

/-- The descriptor of a socket while it is open: the socket or a handle keeps it so. -/
def owned (s : ListeningSocket) : Set Descriptor :=
  {fd | ∃ b, (s.holding = .held b ∨ s.holding = .released b ∧ 0 < s.handles) ∧ b.fd = fd}

/-! ## Refusals -/

theorem bind_of_ne_unbound (h : s.state ≠ .unbound) (transport : Transport) (spec : String)
    (k : Kernel) :
    s.bind transport spec k = (.error (.invalidState .bind s.state), s, k) := by
  simp [bind, h]

theorem adopt_of_ne_unbound (h : s.state ≠ .unbound) (transport : Transport) (fd : Descriptor)
    (k : Kernel) :
    s.adopt transport fd k = (.error (.invalidState .adopt s.state), s, k.close fd) := by
  simp [adopt, h]

/-- A socket that could not be bound is what it was, and so is the kernel. -/
theorem bind_cases (s : ListeningSocket) (transport : Transport) (spec : String) (k : Kernel) :
    (∃ e, s.bind transport spec k = (.error e, s, k)) ∨
      s.state = .unbound ∧ ∃ asked fd address k',
        k.bind transport asked = .ok (fd, address, k') ∧
        s.bind transport spec k = (.ok address, s.hold ⟨fd, transport, address⟩, k') := by
  by_cases hstate : s.state = .unbound
  · cases hresolve : resolveSpec spec with
    | error fault => exact .inl ⟨.resolve spec fault, by simp [bind, hstate, hresolve]⟩
    | ok asked =>
      cases hbind : k.bind transport asked with
      | error kind =>
        exact .inl ⟨.bind transport spec kind, by simp [bind, hstate, hresolve, hbind]⟩
      | ok opened =>
        obtain ⟨fd, address, k'⟩ := opened
        refine .inr ⟨hstate, asked, fd, address, k', hbind, ?_⟩
        simp [bind, hstate, hresolve, hbind]
  · exact .inl ⟨_, bind_of_ne_unbound hstate transport spec k⟩

/-- A socket that could not adopt a descriptor is what it was, and the descriptor is
    closed. -/
theorem adopt_cases (s : ListeningSocket) (transport : Transport) (fd : Descriptor) (k : Kernel) :
    (∃ e, s.adopt transport fd k = (.error e, s, k.close fd)) ∨
      s.state = .unbound ∧ ∃ b, inspect k transport fd = .ok b ∧
        s.adopt transport fd k = (.ok b.address, s.hold b, k) := by
  by_cases hstate : s.state = .unbound
  · cases hinspect : inspect k transport fd with
    | error e => exact .inl ⟨e, by simp [adopt, hstate, hinspect]⟩
    | ok b => exact .inr ⟨hstate, b, rfl, by simp [adopt, hstate, hinspect]⟩
  · exact .inl ⟨_, adopt_of_ne_unbound hstate transport fd k⟩

/-! ## Scenes -/

/-- A socket, its kernel, and how many handles there are. -/
structure Scene where
  socket : ListeningSocket := {}
  kernel : Kernel
  alive : Nat := 0

namespace Scene

/-- What can be done to a socket and to its handles, and what others do to the kernel
    meanwhile. A descriptor that is to be adopted is not the socket's own, and only a
    handle that there is can be doubled or dropped. -/
inductive Step : Scene → Scene → Prop where
  | bound (x : Scene) (transport : Transport) (spec : String) :
    Step x { x with
      socket := (x.socket.bind transport spec x.kernel).2.1
      kernel := (x.socket.bind transport spec x.kernel).2.2 }
  | adopted (x : Scene) (transport : Transport) {fd : Descriptor} (hfd : fd ∉ x.socket.owned) :
    Step x { x with
      socket := (x.socket.adopt transport fd x.kernel).2.1
      kernel := (x.socket.adopt transport fd x.kernel).2.2 }
  | handleTaken {x : Scene} {b : BoundSocket} {socket : ListeningSocket}
    (h : x.socket.takeHandle = (some b, socket)) :
    Step x { x with socket, alive := x.alive + 1 }
  | handleCloned {x : Scene} (h : 0 < x.alive) :
    Step x { x with socket := x.socket.cloneHandle, alive := x.alive + 1 }
  | handleDropped {x : Scene} (h : 0 < x.alive) :
    Step x {
      socket := (x.socket.dropHandle x.kernel).1
      kernel := (x.socket.dropHandle x.kernel).2
      alive := x.alive - 1 }
  | stopped (x : Scene) :
    Step x { x with
      socket := (x.socket.stop x.kernel).1
      kernel := (x.socket.stop x.kernel).2 }
  | duplicated {x : Scene} {copy : Descriptor} {kernel : Kernel}
    (h : x.socket.duplicate? x.kernel = some (copy, kernel)) :
    Step x { x with kernel }
  | elsewhere {x : Scene} {kernel : Kernel}
    (hkept : ∀ fd ∈ x.socket.owned, kernel.table.get? fd = x.kernel.table.get? fd) :
    Step x { x with kernel }

/-- Any number of steps. -/
abbrev Steps : Scene → Scene → Prop := Relation.ReflTransGen Step

/-- The forms that a socket can have, one for each state. An open descriptor is as it
    should be. -/
inductive Sound : Scene → Prop where
  | unbound (k : Kernel) : Sound { kernel := k }
  | bound {b : BoundSocket} {k : Kernel} (n : Nat) (h : inspect k b.transport b.fd = .ok b) :
    Sound ⟨⟨.held b, n, false, some b.address⟩, k, n⟩
  | draining {b : BoundSocket} {k : Kernel} (n : Nat) (h : inspect k b.transport b.fd = .ok b) :
    Sound ⟨⟨.released b, n + 1, true, some b.address⟩, k, n + 1⟩
  | closed (b : BoundSocket) (k : Kernel) :
    Sound ⟨⟨.released b, 0, true, some b.address⟩, k, 0⟩

variable {x y : Scene}

/-- A kernel that leaves alone what the socket owns is as good as the one before. -/
theorem Sound.congr {kernel : Kernel} (hx : x.Sound)
    (hkept : ∀ fd ∈ x.socket.owned, kernel.table.get? fd = x.kernel.table.get? fd) :
    Sound { x with kernel } := by
  cases hx with
  | unbound => exact .unbound kernel
  | @bound b k n h =>
    have hsame := hkept b.fd ⟨b, .inl rfl, rfl⟩
    exact .bound n ((inspect_congr hsame).trans h)
  | @draining b k n h =>
    have hsame := hkept b.fd ⟨b, .inr ⟨rfl, n.succ_pos⟩, rfl⟩
    exact .draining n ((inspect_congr hsame).trans h)
  | closed b => exact .closed b kernel

/-- Only a new socket is unbound. -/
theorem Sound.eq_of_unbound (hx : x.Sound) (h : x.socket.state = .unbound) :
    x.socket = {} ∧ x.alive = 0 := by
  cases hx with
  | unbound => exact ⟨rfl, rfl⟩
  | bound => cases h
  | draining => cases h
  | closed => cases h

/-! ## Steps forward -/

/-- A scene comes after another one: the state has not gone back, and an address that
    was there is there still. -/
structure Follows (y x : Scene) : Prop where
  stage : x.socket.state.stage ≤ y.socket.state.stage
  address : ∀ a, x.socket.address? = some a → y.socket.address? = some a

theorem Follows.refl (x : Scene) : x.Follows x := ⟨Nat.le_refl _, fun _ => id⟩

theorem Follows.trans {z : Scene} (h : y.Follows x) (h' : z.Follows y) : z.Follows x :=
  ⟨Nat.le_trans h.stage h'.stage, fun a ha => h'.address a (h.address a ha)⟩

/-- Whatever comes after a new socket. -/
theorem Follows.of_new (h : x.socket = {}) : y.Follows x where
  stage := by
    rw [h]
    exact Nat.zero_le _
  address := by
    rw [h]
    exact nofun

/-- A new socket is bound. -/
theorem Sound.hold (hx : x.Sound) (hstate : x.socket.state = .unbound) {b : BoundSocket}
    {kernel : Kernel} (hinspect : inspect kernel b.transport b.fd = .ok b) :
    let y : Scene := { x with socket := x.socket.hold b, kernel }
    y.Sound ∧ y.Follows x := by
  obtain ⟨hnew, hnone⟩ := hx.eq_of_unbound hstate
  refine ⟨?_, .of_new hnew⟩
  simp only [hnew, hnone]
  exact .bound 0 hinspect

/-- Binding leaves the scene as it was, or binds a new socket. -/
theorem Sound.bind (hx : x.Sound) (transport : Transport) (spec : String) :
    let y : Scene := { x with
      socket := (x.socket.bind transport spec x.kernel).2.1
      kernel := (x.socket.bind transport spec x.kernel).2.2 }
    y.Sound ∧ y.Follows x := by
  rcases x.socket.bind_cases transport spec x.kernel with
    ⟨e, hbind⟩ | ⟨hstate, asked, fd, address, k', hkernel, hbind⟩
  · simp only [hbind]
    exact ⟨hx, .refl x⟩
  · obtain ⟨-, -, hinspect⟩ := Kernel.bind_spec hkernel
    simp only [hbind]
    exact hx.hold hstate hinspect

/-- Adopting closes the descriptor, which is not the socket's own, or binds a new
    socket to it. -/
theorem Sound.adopt (hx : x.Sound) (transport : Transport) (hfd : fd ∉ x.socket.owned) :
    let y : Scene := { x with
      socket := (x.socket.adopt transport fd x.kernel).2.1
      kernel := (x.socket.adopt transport fd x.kernel).2.2 }
    y.Sound ∧ y.Follows x := by
  rcases x.socket.adopt_cases transport fd x.kernel with
    ⟨e, hadopt⟩ | ⟨hstate, b, hinspect, hadopt⟩
  · simp only [hadopt]
    refine ⟨hx.congr fun other howned => ?_, Nat.le_refl _, fun _ => id⟩
    have hne : other ≠ fd := by
      rintro rfl
      exact hfd howned
    rw [Kernel.close, DescriptorTable.get?_close, if_neg hne]
  · obtain ⟨-, -, -, hb⟩ := inspect_eq_ok_iff.1 hinspect
    simp only [hadopt]
    refine hx.hold hstate ?_
    rw [hb]
    rwa [hb] at hinspect

/-- Dropping the last handle of a stopped socket closes it. -/
theorem Sound.dropHandle (hx : x.Sound) (h : 0 < x.alive) :
    let y : Scene := {
      socket := (x.socket.dropHandle x.kernel).1
      kernel := (x.socket.dropHandle x.kernel).2
      alive := x.alive - 1 }
    y.Sound ∧ y.Follows x := by
  cases hx with
  | unbound => cases h
  | bound n hopen => exact ⟨.bound (n - 1) hopen, Nat.le_refl _, fun _ => id⟩
  | @draining b k n hopen =>
    cases n with
    | zero => exact ⟨.closed b (k.close b.fd), (by decide : 2 ≤ 3), fun _ => id⟩
    | succ n => exact ⟨.draining n hopen, Nat.le_refl _, fun _ => id⟩
  | closed => cases h

/-- Stopping lets go of a bound socket, and closes it if there is no handle. -/
theorem Sound.stop (hx : x.Sound) :
    let y : Scene := { x with
      socket := (x.socket.stop x.kernel).1
      kernel := (x.socket.stop x.kernel).2 }
    y.Sound ∧ y.Follows x := by
  cases hx with
  | unbound k => exact ⟨.unbound k, .refl _⟩
  | @bound b k n hopen =>
    cases n with
    | zero => exact ⟨.closed b (k.close b.fd), (by decide : 1 ≤ 3), fun _ => id⟩
    | succ n => exact ⟨.draining n hopen, (by decide : 1 ≤ 2), fun _ => id⟩
  | draining n hopen => exact ⟨.draining n hopen, .refl _⟩
  | closed b k => exact ⟨.closed b k, .refl _⟩

/-- Only handles of a bound socket can be had, and there is a form for one more. -/
theorem Sound.takeHandle (hx : x.Sound) {b : BoundSocket} {socket : ListeningSocket}
    (h : x.socket.takeHandle = (some b, socket)) :
    let y : Scene := { x with socket, alive := x.alive + 1 }
    y.Sound ∧ y.Follows x := by
  cases hx with
  | unbound => cases h
  | bound n hopen =>
    cases h
    exact ⟨.bound (n + 1) hopen, Nat.le_refl _, fun _ => id⟩
  | draining => cases h
  | closed => cases h

theorem Sound.cloneHandle (hx : x.Sound) (h : 0 < x.alive) :
    let y : Scene := { x with socket := x.socket.cloneHandle, alive := x.alive + 1 }
    y.Sound ∧ y.Follows x := by
  cases hx with
  | unbound => cases h
  | bound n hopen =>
    simp only [ListeningSocket.cloneHandle, if_pos h]
    exact ⟨.bound (n + 1) hopen, Nat.le_refl _, fun _ => id⟩
  | draining n hopen => exact ⟨.draining (n + 1) hopen, Nat.le_refl _, fun _ => id⟩
  | closed => cases h

/-- A copy of the descriptor is not the socket's own. -/
theorem Sound.duplicate (hx : x.Sound) {copy : Descriptor} {kernel : Kernel}
    (h : x.socket.duplicate? x.kernel = some (copy, kernel)) :
    Sound { x with kernel } := by
  cases hx with
  | unbound => cases h
  | draining => cases h
  | closed => cases h
  | @bound b k n hopen =>
    obtain ⟨file, hfile, -, -⟩ := inspect_eq_ok_iff.1 hopen
    obtain ⟨copy', k', hdup, hfree, -, hsame⟩ := Kernel.exists_duplicate hfile
    obtain ⟨rfl, rfl⟩ := Prod.mk.inj (Option.some.inj (h.symm.trans hdup))
    have hne : b.fd ≠ copy := by
      rintro rfl
      exact DescriptorTable.get?_ne_none_iff.2 ⟨file, hfile⟩ hfree
    exact .bound n ((inspect_congr (hsame b.fd hne)).trans hopen)

/-- A step keeps the form of the socket and goes forward. -/
theorem Sound.step (hx : x.Sound) (h : x.Step y) : y.Sound ∧ y.Follows x := by
  cases h with
  | bound transport spec => exact hx.bind transport spec
  | adopted transport hfd => exact hx.adopt transport hfd
  | handleTaken h => exact hx.takeHandle h
  | handleCloned h => exact hx.cloneHandle h
  | handleDropped h => exact hx.dropHandle h
  | stopped => exact hx.stop
  | duplicated h => exact ⟨hx.duplicate h, Nat.le_refl _, fun _ => id⟩
  | elsewhere hkept => exact ⟨hx.congr hkept, Nat.le_refl _, fun _ => id⟩

/-- So does any number of steps. -/
theorem Sound.steps (hx : x.Sound) (h : x.Steps y) : y.Sound ∧ y.Follows x := by
  induction h with
  | refl => exact ⟨hx, .refl x⟩
  | tail _ hstep ih =>
    obtain ⟨hsound, hfollows⟩ := ih
    obtain ⟨hsound', hfollows'⟩ := hsound.step hstep
    exact ⟨hsound', hfollows.trans hfollows'⟩

/-! ## What a state tells -/

/-- What the state of a socket says about its handles, its stop request and its address,
    what can be had from it, and what becomes of it when it is bound or stopped. -/
structure Lawful (x : Scene) : Prop where
  draining_iff : x.socket.state = .draining ↔ x.socket.stopRequested = true ∧ 0 < x.alive
  closed_iff : x.socket.state = .closed ↔ x.socket.stopRequested = true ∧ x.alive = 0
  stopRequested_iff :
    x.socket.stopRequested = true ↔ x.socket.state = .draining ∨ x.socket.state = .closed
  stop_of_bound : x.socket.state = .bound →
    (x.socket.stop x.kernel).1.state = if 0 < x.alive then .draining else .closed
  stop_of_ne_bound : x.socket.state ≠ .bound → x.socket.stop x.kernel = (x.socket, x.kernel)
  takeHandle_iff : x.socket.takeHandle.1.isSome = true ↔ x.socket.state = .bound
  duplicate_iff : (x.socket.duplicate? x.kernel).isSome = true ↔ x.socket.state = .bound
  address_iff : x.socket.address? = none ↔ x.socket.state = .unbound
  /-- A socket that has been bound is not bound again. -/
  refused : x.socket.state ≠ .unbound →
    (∀ transport spec, x.socket.bind transport spec x.kernel =
      (.error (.invalidState .bind x.socket.state), x.socket, x.kernel)) ∧
    ∀ transport fd, x.socket.adopt transport fd x.kernel =
      (.error (.invalidState .adopt x.socket.state), x.socket, x.kernel.close fd)
  bind_ok : ∀ {transport spec address s k},
    x.socket.bind transport spec x.kernel = (.ok address, s, k) →
      s.state = .bound ∧ s.address? = some address
  bind_error : ∀ {transport spec e s k},
    x.socket.bind transport spec x.kernel = (.error e, s, k) → s = x.socket ∧ k = x.kernel
  adopt_ok : ∀ {transport fd address s k},
    x.socket.adopt transport fd x.kernel = (.ok address, s, k) →
      s.state = .bound ∧ s.address? = some address
  /-- A descriptor that is not adopted is closed, and nothing else is. -/
  adopt_error : ∀ {transport fd e s k},
    x.socket.adopt transport fd x.kernel = (.error e, s, k) →
      s = x.socket ∧ k = x.kernel.close fd ∧ k.table.get? fd = none

/-- A descriptor of a bound socket can be duplicated. -/
theorem Sound.duplicate_iff (hx : x.Sound) :
    (x.socket.duplicate? x.kernel).isSome = true ↔ x.socket.state = .bound := by
  cases hx with
  | unbound => simp [duplicate?, state]
  | draining => simp [duplicate?, state]
  | closed => simp [duplicate?, state]
  | bound n hopen =>
    obtain ⟨file, hfile, -, -⟩ := inspect_eq_ok_iff.1 hopen
    obtain ⟨copy, k', hdup, -, -, -⟩ := Kernel.exists_duplicate hfile
    simp [duplicate?, state, hdup]

theorem Sound.lawful (hx : x.Sound) : x.Lawful where
  draining_iff := by cases hx <;> simp [state]
  closed_iff := by cases hx <;> simp [state]
  stopRequested_iff := by cases hx <;> simp [state]
  stop_of_bound := by cases hx <;> simp [state, ListeningSocket.stop]
  stop_of_ne_bound := by cases hx <;> simp [state, ListeningSocket.stop]
  takeHandle_iff := by cases hx <;> simp [state, ListeningSocket.takeHandle]
  duplicate_iff := hx.duplicate_iff
  address_iff := by cases hx <;> simp [state]
  refused h := ⟨fun transport spec => bind_of_ne_unbound h transport spec x.kernel,
    fun transport fd => adopt_of_ne_unbound h transport fd x.kernel⟩
  bind_ok := by
    intro transport spec address s k h
    rcases x.socket.bind_cases transport spec x.kernel with
      ⟨e, hbind⟩ | ⟨-, asked, fd, address', k', -, hbind⟩
    · cases hbind.symm.trans h
    · cases hbind.symm.trans h
      exact ⟨rfl, rfl⟩
  bind_error := by
    intro transport spec e s k h
    rcases x.socket.bind_cases transport spec x.kernel with
      ⟨e', hbind⟩ | ⟨-, asked, fd, address', k', -, hbind⟩
    · cases hbind.symm.trans h
      exact ⟨rfl, rfl⟩
    · cases hbind.symm.trans h
  adopt_ok := by
    intro transport fd address s k h
    rcases x.socket.adopt_cases transport fd x.kernel with ⟨e, hadopt⟩ | ⟨-, b, -, hadopt⟩
    · cases hadopt.symm.trans h
    · cases hadopt.symm.trans h
      exact ⟨rfl, rfl⟩
  adopt_error := by
    intro transport fd e s k h
    rcases x.socket.adopt_cases transport fd x.kernel with ⟨e', hadopt⟩ | ⟨-, b, -, hadopt⟩
    · cases hadopt.symm.trans h
      refine ⟨rfl, rfl, ?_⟩
      rw [Kernel.close, DescriptorTable.get?_close, if_pos rfl]
    · cases hadopt.symm.trans h

/-- Let any steps be taken from a new socket, and then more. In between the socket is
    lawful; and later its state has not gone back, and its address is the same if it had
    one. -/
theorem lawful_of_steps {k : Kernel} (hx : Steps { kernel := k } x) (hy : x.Steps y) :
    x.Lawful ∧ x.socket.state.stage ≤ y.socket.state.stage ∧
      ∀ address, x.socket.address? = some address → y.socket.address? = some address := by
  obtain ⟨hsound, -⟩ := (Sound.unbound k).steps hx
  obtain ⟨-, hfollows⟩ := hsound.steps hy
  exact ⟨hsound.lawful, hfollows.stage, hfollows.address⟩

/-- A socket is adopted, served and stopped, and the handle is dropped at last. -/
theorem lawful_of_steps_adopted :
    let b : BoundSocket := ⟨5, .tcp, ⟨.loopback, 2003⟩⟩
    let k : Kernel := { table := ⟨[(5, ⟨⟨40, .listener b.address⟩, true⟩)]⟩ }
    let x : Scene := ⟨⟨.released b, 1, true, some b.address⟩, k, 1⟩
    let y : Scene := ⟨⟨.released b, 0, true, some b.address⟩, k.close 5, 0⟩
    Steps { kernel := k } x ∧ x.Step y ∧ x.Lawful ∧
      x.socket.state = .draining ∧ y.socket.state = .closed ∧
      y.socket.address? = some b.address := by
  intro b k x y
  have hadopted : Step { kernel := k } ⟨⟨.held b, 0, false, some b.address⟩, k, 0⟩ :=
    @Step.adopted { kernel := k } .tcp 5 (by
      rintro ⟨b, h | ⟨h, -⟩, -⟩
      · cases h
      · cases h)
  have htaken : Step ⟨⟨.held b, 0, false, some b.address⟩, k, 0⟩
      ⟨⟨.held b, 1, false, some b.address⟩, k, 1⟩ := .handleTaken rfl
  have hstopped : Step ⟨⟨.held b, 1, false, some b.address⟩, k, 1⟩ x := .stopped _
  have hdropped : x.Step y := .handleDropped Nat.one_pos
  have hx : Steps { kernel := k } x := .tail (.tail (.single hadopted) htaken) hstopped
  obtain ⟨hlawful, -, haddress⟩ := lawful_of_steps hx (.single hdropped)
  refine ⟨hx, hdropped, hlawful, ?_, ?_, haddress b.address rfl⟩
  · exact hlawful.draining_iff.2 ⟨rfl, Nat.one_pos⟩
  · rfl

end Scene

end MetricIntake.ListeningSocket
