-- SUMMARY: Accounting for descriptors: of those given some are kept and the others closed, in sequence and beside others.
import Mathlib.Data.Set.Insert
import MetricIntake.Proofs.Descriptor.Table

/-!
# Custody

Whoever is given descriptors either keeps or closes each of them, and touches no
other descriptor. Such steps follow one another, and each can be taken while
others have descriptors of their own.
-/

namespace MetricIntake.DescriptorTable

variable {φ : Type} {t t₁ t' : DescriptorTable φ} {given kept kept' others : Set Descriptor}

/-- Between two tables the descriptors that were given and not kept have been closed, and
    all others are what they were. -/
structure Retains (t : DescriptorTable φ) (given : Set Descriptor) (t' : DescriptorTable φ)
    (kept : Set Descriptor) : Prop where
  subset : kept ⊆ given
  same : ∀ fd, fd ∈ kept ∨ fd ∉ given → t'.get? fd = t.get? fd
  closed : ∀ fd, fd ∈ given → fd ∉ kept → t'.get? fd = none

namespace Retains

theorem refl (t : DescriptorTable φ) (given : Set Descriptor) : Retains t given t given where
  subset := subset_rfl
  same _ _ := rfl
  closed _ hgiven hkept := absurd hgiven hkept

/-- One descriptor is closed. -/
theorem close (t : DescriptorTable φ) {fd : Descriptor} (h : fd ∉ kept) :
    Retains t (insert fd kept) (t.close fd) kept where
  subset := Set.subset_insert fd kept
  same other hother := by
    have hne : other ≠ fd := by
      rintro rfl
      exact hother.elim h fun hnot => hnot (Set.mem_insert other kept)
    rw [get?_close, if_neg hne]
  closed other hgiven hkept := by
    obtain rfl : other = fd := (Set.mem_insert_iff.1 hgiven).resolve_right hkept
    rw [get?_close, if_pos rfl]

/-- Several descriptors are closed. -/
theorem closeAll (t : DescriptorTable φ) {fds : List Descriptor} (h : ∀ fd ∈ fds, fd ∉ kept) :
    Retains t ({fd | fd ∈ fds} ∪ kept) (t.closeAll fds) kept where
  subset := Set.subset_union_right
  same other hother := by
    have hne : other ∉ fds := fun hmem =>
      hother.elim (h other hmem) fun hnot => hnot (Set.mem_union_left kept hmem)
    rw [get?_closeAll, if_neg hne]
  closed other hgiven hkept := by
    have hmem : other ∈ fds := hgiven.resolve_right hkept
    rw [get?_closeAll, if_pos hmem]

/-- What was kept may be given on. -/
theorem trans (h : Retains t given t₁ kept) (h' : Retains t₁ kept t' kept') :
    Retains t given t' kept' where
  subset := h'.subset.trans h.subset
  same fd hfd := by
    rcases hfd with hkept' | hgiven
    · rw [h'.same fd (.inl hkept'), h.same fd (.inl (h'.subset hkept'))]
    · have hkept : fd ∉ kept := fun hmem => hgiven (h.subset hmem)
      rw [h'.same fd (.inr hkept), h.same fd (.inr hgiven)]
  closed fd hgiven hkept' := by
    by_cases hkept : fd ∈ kept
    · exact h'.closed fd hkept hkept'
    · rw [h'.same fd (.inr hkept), h.closed fd hgiven hkept]

/-- The descriptors of others stay what they are. -/
theorem frame (h : Retains t given t' kept) (hothers : ∀ fd ∈ others, fd ∉ given) :
    Retains t (given ∪ others) t' (kept ∪ others) where
  subset := Set.union_subset_union_left others h.subset
  same fd hfd := by
    rcases hfd with (hkept | hother) | hnot
    · exact h.same fd (.inl hkept)
    · exact h.same fd (.inr (hothers fd hother))
    · exact h.same fd (.inr fun hgiven => hnot (.inl hgiven))
  closed fd hgiven hkept := by
    rw [Set.mem_union, not_or] at hkept
    exact h.closed fd (hgiven.resolve_right hkept.2) hkept.1

end Retains

end MetricIntake.DescriptorTable
