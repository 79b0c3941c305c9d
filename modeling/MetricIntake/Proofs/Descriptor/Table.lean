-- SUMMARY: What a descriptor table says after each operation on it, and that the lowest free descriptor exists.
import Mathlib.Data.List.Nodup
import Mathlib.Data.List.Perm.Subperm
import MetricIntake.Descriptor.Table

/-!
# Descriptor tables

Every operation on a table is told by what the table says of each descriptor
afterwards. The lowest free descriptor is among as many candidates as the table
has descriptors, and one more.
-/

namespace MetricIntake.DescriptorTable

variable {φ : Type} {t t' : DescriptorTable φ} {fd other : Descriptor} {s : Slot φ} {file : φ}

theorem isOpen_iff : t.isOpen fd = true ↔ t.get? fd ≠ none := by
  simp [isOpen, Option.isSome_iff_ne_none]

theorem mem_slots_of_get? (h : t.get? fd = some s) : (fd, s) ∈ t.slots := by
  obtain ⟨before, after, hslots, -⟩ := List.lookup_eq_some_iff.1 h
  simp [hslots]

theorem file?_of_get? (h : t.get? fd = some s) : t.file? fd = some s.file := by
  rw [file?, h]
  rfl

/-- The descriptors that refer to a file are the open ones. -/
theorem get?_ne_none_iff : t.get? fd ≠ none ↔ ∃ file, t.file? fd = some file := by
  cases h : t.get? fd <;> simp [file?, h]

/-- A descriptor that has not changed refers to the file that it did. -/
theorem file?_congr (h : t'.get? fd = t.get? fd) : t'.file? fd = t.file? fd := by
  rw [file?, h, file?]

theorem map_file?_congr {fds : List Descriptor} (h : ∀ fd ∈ fds, t'.get? fd = t.get? fd) :
    fds.map t'.file? = fds.map t.file? :=
  List.map_congr_left fun fd hfd => file?_congr (h fd hfd)

/-! ## Closing -/

theorem get?_closeAll (t : DescriptorTable φ) (fds : List Descriptor) (fd : Descriptor) :
    (t.closeAll fds).get? fd = if fd ∈ fds then none else t.get? fd := by
  induction fds generalizing t with
  | nil => simp [closeAll]
  | cons other fds ih =>
    have hrest := ih (t.close other)
    rw [get?_close] at hrest
    have hfold : t.closeAll (other :: fds) = (t.close other).closeAll fds := rfl
    rw [hfold, hrest]
    by_cases hmem : fd ∈ fds <;> by_cases heq : fd = other <;> simp [hmem, heq]

/-- A descriptor that outlives the change of programs is what it was. -/
theorem get?_exec (h : t.get? fd = some s) (hkept : s.closeOnExec = false) :
    t.exec.get? fd = some s := by
  obtain ⟨before, after, hslots, hbefore⟩ := List.lookup_eq_some_iff.1 h
  apply List.lookup_eq_some_iff.2
  refine ⟨before.filter (!·.2.closeOnExec), after.filter (!·.2.closeOnExec), ?_, ?_⟩
  · simp [exec, hslots, hkept]
  · intro slot hslot
    exact hbefore slot (List.mem_of_mem_filter hslot)

/-! ## Opening -/

theorem get?_place_self (t : DescriptorTable φ) (fd : Descriptor) (s : Slot φ) :
    (t.place fd s).get? fd = some s := by
  rw [get?_place, if_pos rfl]

theorem get?_place_of_ne (t : DescriptorTable φ) (s : Slot φ) (h : other ≠ fd) :
    (t.place fd s).get? other = t.get? other := by
  rw [get?_place, if_neg h]

/-- The lowest free descriptor is free, at or above the number, and all below it down
    to the number are open. -/
theorem lowestFree_spec (t : DescriptorTable φ) (least : Nat) :
    ∃ n : Nat, t.lowestFree least = n ∧ least ≤ n ∧ t.get? n = none ∧
      ∀ m : Nat, least ≤ m → m < n → t.get? m ≠ none := by
  let candidates := List.range' least (t.slots.length + 1)
  have hfree : ∃ n ∈ candidates, t.isOpen (n : Int) = false := by
    by_contra hall
    push Not at hall
    -- otherwise there are more candidates than descriptors
    have hsub : candidates.map Int.ofNat ⊆ t.slots.map (·.1) := by
      intro fd hfd
      obtain ⟨n, hn, rfl⟩ := List.mem_map.1 hfd
      have hopen : t.get? (n : Int) ≠ none :=
        isOpen_iff.1 (eq_true_of_ne_false (hall n hn))
      obtain ⟨s, hs⟩ := Option.ne_none_iff_exists'.1 hopen
      exact List.mem_map.2 ⟨_, mem_slots_of_get? hs, rfl⟩
    have hnodup : (candidates.map Int.ofNat).Nodup :=
      List.Nodup.map (fun _ _ => Int.ofNat.inj) List.nodup_range'
    have hlen := (hnodup.subperm hsub).length_le
    simp only [candidates, List.length_map, List.length_range'] at hlen
    omega
  obtain ⟨n, hn⟩ : ∃ n, candidates.find? (fun n : Nat => !t.isOpen (n : Int)) = some n := by
    rw [← Option.isSome_iff_exists, List.find?_isSome]
    obtain ⟨n, hmem, hopen⟩ := hfree
    exact ⟨n, hmem, by simp [hopen]⟩
  have hlowest : t.lowestFree least = n := by
    have hmap : (candidates.map Int.ofNat).find? (fun fd => !t.isOpen fd) = some (n : Int) := by
      have hsame : (fun fd => !t.isOpen fd) ∘ Int.ofNat = fun n : Nat => !t.isOpen (n : Int) := rfl
      rw [List.find?_map, hsame, hn]
      rfl
    rw [lowestFree, hmap]
    rfl
  obtain ⟨hclosed, hmem, hbelow⟩ := List.find?_range'_eq_some.1 hn
  refine ⟨n, hlowest, ?_, ?_, ?_⟩
  · exact (List.mem_range'_1.1 hmem).1
  · simpa [isOpen] using hclosed
  · intro m hm hmn
    have hopen := hbelow m hm hmn
    rw [Bool.not_not] at hopen
    exact isOpen_iff.1 hopen

/-- A descriptor that is opened was free, and no other changes. -/
theorem exists_openAt (t : DescriptorTable φ) (least : Nat) (s : Slot φ) :
    ∃ fd : Descriptor, t.openAt least s = (fd, t.place fd s) ∧ least ≤ fd ∧ t.get? fd = none := by
  obtain ⟨n, hn, hle, hfree, -⟩ := t.lowestFree_spec least
  refine ⟨n, ?_, by exact_mod_cast hle, hfree⟩
  rw [openAt, hn]

/-! ## Duplicating and moving -/

/-- A duplicate is a new descriptor for the same file, and no other changes. -/
theorem exists_duplicate (h : t.file? fd = some file) (least : Nat) :
    ∃ copy t', t.duplicate? fd least = some (copy, t') ∧ least ≤ copy ∧ t.get? copy = none ∧
      t'.file? copy = some file ∧ ∀ other, other ≠ copy → t'.get? other = t.get? other := by
  obtain ⟨s, hs, rfl⟩ := Option.map_eq_some_iff.1 h
  let copied : Slot φ := { s with closeOnExec := true }
  obtain ⟨copy, hcopy, hle, hfree⟩ := t.exists_openAt least copied
  refine ⟨copy, t.place copy copied, ?_, hle, hfree, ?_, ?_⟩
  · rw [duplicate?, hs, Option.map_some, hcopy]
  · exact file?_of_get? (s := copied) (get?_place_self t copy copied)
  · exact fun other hne => get?_place_of_ne t copied hne

/-- A descriptor that is moved to another place stays open across the change of
    programs. -/
theorem moveTo?_of_ne {target : Descriptor} (h : t.get? fd = some s) (hne : fd ≠ target) :
    t.moveTo? fd target = some (t.place target { s with closeOnExec := false }) := by
  rw [moveTo?, h, Option.map_some, if_neg hne]

end MetricIntake.DescriptorTable
