-- SUMMARY: A successor finds every socket at its place, wherever they were in the parent, and the parent keeps nothing but what it had.
import MetricIntake.Successor
import MetricIntake.Proofs.Descriptor.Table

/-!
# Starting a successor

The sockets of a handoff are duplicated above the range of inherited descriptors.
A move into this range then overwrites no duplicate that is still to be moved,
and no duplicate is moved onto itself; so it does not matter where the sockets
were. In the parent the duplicates are all that is new.
-/

namespace MetricIntake.Successor

variable {φ : Type} {t : DescriptorTable φ}

/-! ## Duplicating -/

/-- One after the other, open descriptors are duplicated at new descriptors above a
    number, and nothing else changes. -/
theorem exists_duplicateAll (least : Nat) {fds : List Descriptor}
    (hopen : ∀ fd ∈ fds, t.get? fd ≠ none) :
    ∃ copies t', duplicateAll least fds t = some (copies, t') ∧
      copies.map t'.file? = fds.map t.file? ∧
      (∀ copy ∈ copies, least ≤ copy ∧ t.get? copy = none ∧ t'.get? copy ≠ none) ∧
      ∀ fd, fd ∉ copies → t'.get? fd = t.get? fd := by
  induction fds generalizing t with
  | nil => exact ⟨[], t, rfl, rfl, nofun, fun fd _ => rfl⟩
  | cons fd fds ih =>
    obtain ⟨file, hfile⟩ := DescriptorTable.get?_ne_none_iff.1 (hopen fd List.mem_cons_self)
    obtain ⟨copy, t₁, hcopy, hle, hfree, hnew, hkept⟩ :=
      DescriptorTable.exists_duplicate hfile least
    have hne : ∀ other ∈ fds, other ≠ copy := by
      rintro other hmem rfl
      exact hopen other (List.mem_cons_of_mem fd hmem) hfree
    have hopen₁ : ∀ other ∈ fds, t₁.get? other ≠ none := by
      intro other hmem
      rw [hkept other (hne other hmem)]
      exact hopen other (List.mem_cons_of_mem fd hmem)
    obtain ⟨copies, t', hall, hfiles, hcopies, hrest⟩ := ih hopen₁
    -- the copy is open by now, so no later one takes its place
    have hcopy_not_mem : copy ∉ copies := fun hmem =>
      DescriptorTable.get?_ne_none_iff.2 ⟨file, hnew⟩ (hcopies copy hmem).2.1
    have hcopied : t'.file? copy = some file :=
      (DescriptorTable.file?_congr (hrest copy hcopy_not_mem)).trans hnew
    refine ⟨copy :: copies, t', ?_, ?_, ?_, ?_⟩
    · rw [duplicateAll, hcopy]
      simp [hall]
    · have hfiles' : fds.map t₁.file? = fds.map t.file? :=
        DescriptorTable.map_file?_congr fun other hmem => hkept other (hne other hmem)
      rw [List.map_cons, hcopied, hfiles, hfiles', List.map_cons, hfile]
    · intro other hmem
      rcases List.mem_cons.1 hmem with rfl | hmem
      · exact ⟨hle, hfree, DescriptorTable.get?_ne_none_iff.2 ⟨file, hcopied⟩⟩
      · obtain ⟨hle', hfree', hopen'⟩ := hcopies other hmem
        have hne : other ≠ copy := ne_of_mem_of_not_mem hmem hcopy_not_mem
        exact ⟨hle', (hkept other hne).symm.trans hfree', hopen'⟩
    · intro other hmem
      rw [List.mem_cons, not_or] at hmem
      rw [hrest other hmem.2, hkept other hmem.1]

/-! ## Moving -/

/-- Open descriptors above a range are moved into it in their order, and nothing
    outside the range changes. -/
theorem exists_moveAll {copies : List Int} {target : Int}
    (hopen : ∀ copy ∈ copies, t.get? copy ≠ none)
    (habove : ∀ copy ∈ copies, target + copies.length ≤ copy) :
    ∃ t', moveAll copies target t = some t' ∧
      (∀ (i : Nat) (hi : i < copies.length), ∃ file, t.file? copies[i] = some file ∧
        t'.get? (target + i) = some ⟨file, false⟩) ∧
      ∀ fd, fd < target ∨ target + copies.length ≤ fd → t'.get? fd = t.get? fd := by
  induction copies generalizing t target with
  | nil => exact ⟨t, rfl, nofun, fun fd _ => rfl⟩
  | cons copy copies ih =>
    rw [List.length_cons] at habove
    obtain ⟨s, hs⟩ := Option.ne_none_iff_exists'.1 (hopen copy List.mem_cons_self)
    have hne : copy ≠ target := by
      have := habove copy List.mem_cons_self
      omega
    let t₁ := t.place target { s with closeOnExec := false }
    have hkept : ∀ other, other ≠ target → t₁.get? other = t.get? other :=
      fun other hne => DescriptorTable.get?_place_of_ne t _ hne
    have hne' : ∀ other ∈ copies, other ≠ target := by
      intro other hmem
      have := habove other (List.mem_cons_of_mem copy hmem)
      omega
    have hopen₁ : ∀ other ∈ copies, t₁.get? other ≠ none := by
      intro other hmem
      rw [hkept other (hne' other hmem)]
      exact hopen other (List.mem_cons_of_mem copy hmem)
    have habove₁ : ∀ other ∈ copies, target + 1 + copies.length ≤ other := by
      intro other hmem
      have := habove other (List.mem_cons_of_mem copy hmem)
      omega
    obtain ⟨t', hall, hmoved, hrest⟩ := ih hopen₁ habove₁
    refine ⟨t', ?_, ?_, ?_⟩
    · rw [moveAll, DescriptorTable.moveTo?_of_ne hs hne]
      exact hall
    · intro i hi
      cases i with
      | zero =>
        refine ⟨s.file, DescriptorTable.file?_of_get? hs, ?_⟩
        rw [Int.natCast_zero, Int.add_zero, hrest target (.inl (by omega)),
          DescriptorTable.get?_place_self]
      | succ i =>
        have hi : i < copies.length := Nat.lt_of_succ_lt_succ hi
        obtain ⟨file, hfile, hget⟩ := hmoved i hi
        refine ⟨file, ?_, ?_⟩
        · rw [List.getElem_cons_succ, ← hfile]
          exact (DescriptorTable.file?_congr (hkept _ (hne' _ (List.getElem_mem hi)))).symm
        · have hplace : target + ((i + 1 : Nat) : Int) = target + 1 + i := by omega
          rw [hplace, hget]
    · intro fd hfd
      rw [List.length_cons] at hfd
      rw [hrest fd (by omega), hkept fd (by omega)]

/-- Duplicates of descriptors, moved down before the program starts, refer there to the
    files of the descriptors. -/
theorem exists_arrival {u : DescriptorTable φ} {fds copies : List Descriptor}
    (hfiles : copies.map t.file? = fds.map u.file?) (hopen : ∀ copy ∈ copies, t.get? copy ≠ none)
    (habove : ∀ copy ∈ copies, (highBase fds.length : Int) ≤ copy) :
    ∃ t', moveAll copies firstInherited t = some t' ∧
      ∀ (i : Nat) (hi : i < fds.length), ∃ file, u.file? fds[i] = some file ∧
        t'.exec.get? (firstInherited + i) = some ⟨file, false⟩ := by
  have hlen : copies.length = fds.length := by
    have hlen := congrArg List.length hfiles
    simpa using hlen
  have habove : ∀ copy ∈ copies, (firstInherited : Int) + copies.length ≤ copy := by
    intro copy hmem
    have hbase : firstInherited + copies.length ≤ highBase fds.length := hlen ▸ Nat.le_max_left _ _
    exact Int.le_trans (by exact_mod_cast hbase) (habove copy hmem)
  obtain ⟨t', hmoves, hmoved, -⟩ := exists_moveAll hopen habove
  refine ⟨t', hmoves, fun i hi => ?_⟩
  obtain ⟨file, hfile, hget⟩ := hmoved i (hlen.symm ▸ hi)
  refine ⟨file, ?_, DescriptorTable.get?_exec hget rfl⟩
  have hfiles := congrArg (·[i]?) hfiles
  simpa [hi, hlen, hfile] using hfiles.symm

/-! ## Starting -/

variable {h : Handoff} {s : Spawned φ}

/-- Open descriptors of a handoff can be passed on: each arrives at its place, with the
    keys in the same order. -/
theorem exists_spawn (hopen : ∀ fd ∈ h.descriptors, t.get? fd ≠ none) :
    ∃ s, spawn h t = some s ∧ s.manifest = h.manifest.text ∧
      ∀ (i : Nat) (hi : i < h.entries.length), ∃ file, t.file? h.entries[i].2 = some file ∧
        s.child.get? (firstInherited + i) = some ⟨file, false⟩ := by
  have hlen : h.descriptors.length = h.entries.length := List.length_map _
  obtain ⟨copies, t', hdup, hfiles, hcopies, -⟩ :=
    exists_duplicateAll (highBase h.descriptors.length) hopen
  obtain ⟨child, hmove, harrived⟩ := exists_arrival hfiles
    (fun copy hmem => (hcopies copy hmem).2.2) fun copy hmem => (hcopies copy hmem).1
  rw [hlen] at hdup
  have hspawn : spawn h t = some {
      child := child.exec
      manifest := h.manifest.text
      parent := (t'.closeAll copies).closeAll h.descriptors } := by
    simp only [spawn, hdup, hmove, Option.bind_eq_bind, Option.bind_some, Option.pure_def]
  refine ⟨_, hspawn, rfl, fun i hi => ?_⟩
  obtain ⟨file, hfile, hget⟩ := harrived i (hlen.symm ▸ hi)
  exact ⟨file, by simpa [Handoff.descriptors] using hfile, hget⟩

/-- The parent is left without the handoff and without any duplicate, and with all
    else that it had. -/
theorem get?_parent (hopen : ∀ fd ∈ h.descriptors, t.get? fd ≠ none) (hs : spawn h t = some s)
    (fd : Descriptor) :
    s.parent.get? fd = if fd ∈ h.descriptors then none else t.get? fd := by
  obtain ⟨copies, t', hdup, -, hcopies, hrest⟩ :=
    exists_duplicateAll (highBase h.entries.length) hopen
  simp only [spawn, hdup, Option.bind_eq_bind, Option.bind_some, Option.pure_def,
    Option.bind_eq_some_iff, Option.some.injEq] at hs
  obtain ⟨child, -, rfl⟩ := hs
  rw [DescriptorTable.get?_closeAll, DescriptorTable.get?_closeAll]
  by_cases hmem : fd ∈ copies
  · -- a duplicate was no descriptor before, and is none now
    have hfree := (hcopies fd hmem).2.1
    rw [if_pos hmem, hfree]
  · rw [if_neg hmem, hrest fd hmem]

/-- A successor can be started on any handoff of open descriptors. When its program
    starts it has the `i`-th of them at the `i`-th place from three on, for the same
    file and kept open across the change of programs, and the keys in the same order;
    and the parent has lost the descriptors of the handoff and nothing else, and gained
    none. -/
theorem spawn_of_open (h : Handoff) (t : DescriptorTable φ)
    (hopen : ∀ fd ∈ h.descriptors, t.isOpen fd = true) :
    ∃ s, spawn h t = some s ∧
      (∀ (i : Nat) (hi : i < h.entries.length), ∃ file,
        t.file? (h.entries[i].2) = some file ∧ s.child.get? (3 + i) = some ⟨file, false⟩) ∧
      s.manifest = ",".intercalate (h.entries.map (·.1)) ∧
      ∀ fd, s.parent.get? fd = if fd ∈ h.descriptors then none else t.get? fd := by
  have hopen : ∀ fd ∈ h.descriptors, t.get? fd ≠ none :=
    fun fd hmem => DescriptorTable.isOpen_iff.1 (hopen fd hmem)
  obtain ⟨s, hs, hmanifest, hchild⟩ := exists_spawn hopen
  exact ⟨s, hs, hchild, hmanifest, get?_parent hopen hs⟩

/-- Two sockets that are in each other's place, one that is beside the range, and a
    file that has nothing to do with them. -/
theorem spawn_of_open_swapped :
    let t : DescriptorTable String :=
      ⟨[(0, ⟨"input", false⟩), (3, ⟨"udp", true⟩), (4, ⟨"text", true⟩), (100, ⟨"http", true⟩)]⟩
    let h : Handoff := ⟨[("gt", 4), ("gu", 3), ("www", 100)]⟩
    (∀ fd ∈ h.descriptors, t.isOpen fd = true) ∧
    ∃ s, spawn h t = some s ∧ s.child.get? 3 = some ⟨"text", false⟩ ∧
      s.child.get? 4 = some ⟨"udp", false⟩ ∧ s.child.get? 5 = some ⟨"http", false⟩ ∧
      s.manifest = "gt,gu,www" ∧ s.parent.get? 0 = some ⟨"input", false⟩ ∧
      ∀ fd ≠ 0, s.parent.get? fd = none := by
  intro t h
  have hopen : ∀ fd ∈ h.descriptors, t.isOpen fd = true := by decide
  obtain ⟨s, hs, hchild, hmanifest, hparent⟩ := spawn_of_open h t hopen
  refine ⟨hopen, s, hs, ?_, ?_, ?_, hmanifest.trans (by decide), ?_, ?_⟩
  · obtain ⟨file, hfile, hget⟩ := hchild 0 (by decide)
    rw [← Option.some.inj hfile] at hget
    exact hget
  · obtain ⟨file, hfile, hget⟩ := hchild 1 (by decide)
    rw [← Option.some.inj hfile] at hget
    exact hget
  · obtain ⟨file, hfile, hget⟩ := hchild 2 (by decide)
    rw [← Option.some.inj hfile] at hget
    exact hget
  · exact hparent 0
  · intro fd hfd
    rw [hparent fd]
    split
    · rfl
    · rename_i hmem
      simp only [h, Handoff.descriptors, List.map_cons, List.map_nil, List.mem_cons,
        List.not_mem_nil, or_false, not_or] at hmem
      simp [t, DescriptorTable.get?, List.lookup_cons, beq_eq_false_iff_ne.2 hfd,
        beq_eq_false_iff_ne.2 hmem.1, beq_eq_false_iff_ne.2 hmem.2.1,
        beq_eq_false_iff_ne.2 hmem.2.2]

end MetricIntake.Successor
