-- SUMMARY: What inspecting a descriptor tells, and that a socket that is bound anew gets a descriptor of its own.
import MetricIntake.Socket.Listening
import MetricIntake.Proofs.Descriptor.Table

/-!
# Sockets behind descriptors

What an inspection finds depends on the file behind the descriptor alone. Binding
opens a descriptor that was free and changes no other.
-/

namespace MetricIntake

variable {k k' : Kernel} {transport : Transport} {fd : Descriptor} {b : BoundSocket}

/-- A file can serve a transport at an address. -/
structure OpenFile.Serves (file : OpenFile) (transport : Transport) (address : Address) : Prop where
  transport : file.kind.transport? = some transport
  address : file.kind.address? = some address

theorem OpenFile.Serves.isSocket {file : OpenFile} {address : Address}
    (h : file.Serves transport address) : file.kind.isSocket = true := by
  have htransport := h.transport
  cases hkind : file.kind with
  | plain => simp [hkind, FileKind.transport?] at htransport
  | _ => rfl

namespace ListeningSocket

/-- An inspection succeeds on files of the transport that have an address. -/
theorem inspect_eq_ok_iff : inspect k transport fd = .ok b ↔
    ∃ file, k.table.file? fd = some file ∧ file.Serves transport b.address ∧
      b = ⟨fd, transport, b.address⟩ := by
  constructor
  · intro h
    unfold inspect Kernel.kind? at h
    cases hfile : k.table.file? fd with
    | none => simp [hfile] at h
    | some file =>
      simp only [hfile, Option.map_some] at h
      split at h
      · rename_i htransport
        cases haddress : file.kind.address? with
        | none => simp [haddress] at h
        | some address =>
          simp only [haddress, Except.ok.injEq] at h
          subst h
          exact ⟨file, rfl, ⟨htransport, haddress⟩, rfl⟩
      · simp at h
  · rintro ⟨file, hfile, hserves, hb⟩
    rw [hb]
    simp [inspect, Kernel.kind?, hfile, hserves.transport, hserves.address]

theorem inspect_congr (h : k'.table.get? fd = k.table.get? fd) :
    inspect k' transport fd = inspect k transport fd := by
  simp only [inspect, Kernel.kind?, DescriptorTable.file?_congr h]

end ListeningSocket

namespace Kernel

open ListeningSocket (inspect)

theorem address?_bound (transport : Transport) (address : Address) :
    (FileKind.bound transport address).address? = some address := by
  cases transport <;> rfl

theorem transport?_bound (transport : Transport) (address : Address) :
    (FileKind.bound transport address).transport? = some transport := by
  cases transport <;> rfl

/-- A new file gets a descriptor that was free. -/
theorem exists_openFile (k : Kernel) (kind : FileKind) :
    ∃ fd table, k.openFile kind = (fd, { k with table, nextFile := k.nextFile + 1 }) ∧
      k.table.get? fd = none ∧ table = k.table.place fd ⟨⟨k.nextFile, kind⟩, true⟩ := by
  obtain ⟨fd, hopen, -, hfree⟩ := k.table.exists_openAt firstDescriptor ⟨⟨k.nextFile, kind⟩, true⟩
  refine ⟨fd, k.table.place fd ⟨⟨k.nextFile, kind⟩, true⟩, ?_, hfree, rfl⟩
  simp [openFile, hopen]

/-- A socket that is bound has a descriptor that was free, no other changes, and it is
    what its transport and its address say. -/
theorem bind_spec {address bound : Address}
    (h : k.bind transport address = .ok (fd, bound, k')) :
    k.table.get? fd = none ∧ (∀ other, other ≠ fd → k'.table.get? other = k.table.get? other) ∧
      inspect k' transport fd = .ok ⟨fd, transport, bound⟩ := by
  have htable : k.table.get? fd = none ∧
      k'.table = k.table.place fd ⟨⟨k.nextFile, .bound transport bound⟩, true⟩ := by
    unfold bind at h
    split at h
    · split at h
      · simp at h
      · rename_i port hport
        obtain ⟨fd', table, hopen, hfree, htable⟩ :=
          k.exists_openFile (.bound transport { address with port := UInt16.ofNat port })
        simp only [hopen, Except.ok.injEq, Prod.mk.injEq] at h
        obtain ⟨rfl, rfl, rfl⟩ := h
        exact ⟨hfree, htable⟩
    · split at h
      · simp at h
      · obtain ⟨fd', table, hopen, hfree, htable⟩ := k.exists_openFile (.bound transport address)
        simp only [hopen, Except.ok.injEq, Prod.mk.injEq] at h
        obtain ⟨rfl, rfl, rfl⟩ := h
        exact ⟨hfree, htable⟩
  obtain ⟨hfree, htable⟩ := htable
  refine ⟨hfree, fun other hne => ?_, ?_⟩
  · rw [htable, DescriptorTable.get?_place_of_ne _ _ hne]
  · have hfile : k'.table.file? fd = some ⟨k.nextFile, .bound transport bound⟩ := by
      rw [htable]
      exact DescriptorTable.file?_of_get? (DescriptorTable.get?_place_self _ fd _)
    exact ListeningSocket.inspect_eq_ok_iff.2 ⟨_, hfile,
      ⟨transport?_bound transport bound, address?_bound transport bound⟩, rfl⟩

/-- An open descriptor can be duplicated: the copy was free, it refers to the same file,
    and no other descriptor changes. -/
theorem exists_duplicate {file : OpenFile} (h : k.table.file? fd = some file) :
    ∃ copy k', k.duplicate? fd = some (copy, k') ∧ k.table.get? copy = none ∧
      k'.table.file? copy = some file ∧
      ∀ other, other ≠ copy → k'.table.get? other = k.table.get? other := by
  obtain ⟨copy, table, hcopy, -, hfree, hnew, hsame⟩ :=
    DescriptorTable.exists_duplicate h firstDescriptor
  refine ⟨copy, { k with table }, ?_, hfree, hnew, hsame⟩
  rw [duplicate?, hcopy, Option.map_some]

end Kernel
end MetricIntake
