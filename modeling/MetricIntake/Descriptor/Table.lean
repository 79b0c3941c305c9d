-- SUMMARY: The descriptor table of a process: what each descriptor refers to, and opening, duplicating, moving and closing.

/-!
# Descriptors

A process refers to open files by number. Several descriptors, of one process or
of two, may refer to the same open file, and the file is closed when the last of
them is. What happens to an open file is of no interest here; its identity and
its kind are.
-/

namespace MetricIntake

/-- A descriptor as it is written in requests and messages. Only non-negative
    ones are ever open. -/
abbrev Descriptor := Int

/-- What a table says of an open descriptor: the file it refers to, and whether
    it is closed when the process replaces its program. -/
structure Slot (φ : Type) where
  file : φ
  closeOnExec : Bool
  deriving DecidableEq, Repr

/-- The open descriptors of a process. -/
structure DescriptorTable (φ : Type) where
  slots : List (Descriptor × Slot φ) := []
  deriving DecidableEq, Repr

namespace DescriptorTable

variable {φ : Type}

def get? (t : DescriptorTable φ) (fd : Descriptor) : Option (Slot φ) := t.slots.lookup fd

/-- The file that a descriptor refers to. -/
def file? (t : DescriptorTable φ) (fd : Descriptor) : Option φ := (t.get? fd).map Slot.file

def isOpen (t : DescriptorTable φ) (fd : Descriptor) : Bool := (t.get? fd).isSome

/-- Closes a descriptor; nothing happens if it is not open. -/
def close (t : DescriptorTable φ) (fd : Descriptor) : DescriptorTable φ :=
  ⟨t.slots.filter (·.1 != fd)⟩

/-- Closes several descriptors. -/
def closeAll (t : DescriptorTable φ) (fds : List Descriptor) : DescriptorTable φ :=
  fds.foldl close t

/-- Makes a descriptor refer to a file, whatever it referred to before. -/
def place (t : DescriptorTable φ) (fd : Descriptor) (s : Slot φ) : DescriptorTable φ :=
  ⟨(fd, s) :: (t.close fd).slots⟩

/-- What a table says after a descriptor was closed. -/
theorem get?_close (t : DescriptorTable φ) (fd other : Descriptor) :
    (t.close fd).get? other = if other = fd then none else t.get? other := by
  obtain ⟨slots⟩ := t
  simp only [get?, close]
  induction slots with
  | nil => simp
  | cons s slots ih =>
    obtain ⟨key, slot⟩ := s
    by_cases ho : other = key
    · subst ho
      by_cases hk : other = fd
      · subst hk
        simpa using ih
      · simp [hk]
    · rw [List.lookup_cons, beq_eq_false_iff_ne.2 ho, ← ih]
      by_cases hk : key = fd
      · simp [hk]
      · simp [hk, List.lookup_cons, beq_eq_false_iff_ne.2 ho]

/-- What a table says after a descriptor was placed. -/
theorem get?_place (t : DescriptorTable φ) (fd other : Descriptor) (s : Slot φ) :
    (t.place fd s).get? other = if other = fd then some s else t.get? other := by
  by_cases h : other = fd
  · subst h
    simp [place, get?]
  · have hc := get?_close t fd other
    rw [if_neg h] at hc ⊢
    rw [← hc]
    simp [place, get?, List.lookup_cons, beq_eq_false_iff_ne.2 h]

/-- The lowest descriptor at or above a number that is not open. Among as many
    candidates as the table has descriptors, and one more, there is one. -/
def lowestFree (t : DescriptorTable φ) (least : Nat) : Descriptor :=
  let candidates := (List.range' least (t.slots.length + 1)).map Int.ofNat
  (candidates.find? fun fd => !t.isOpen fd).getD (least + t.slots.length : Nat)

/-- Opens a descriptor on a file, at or above a number. -/
def openAt (t : DescriptorTable φ) (least : Nat) (s : Slot φ) :
    Descriptor × DescriptorTable φ :=
  let fd := t.lowestFree least
  (fd, t.place fd s)

/-- A second descriptor, at or above a number, for the file of an open one. It is
    closed when the process replaces its program. -/
def duplicate? (t : DescriptorTable φ) (fd : Descriptor) (least : Nat) :
    Option (Descriptor × DescriptorTable φ) :=
  (t.get? fd).map fun s => t.openAt least { s with closeOnExec := true }

/-- Makes `target` refer to the file of `source` and keeps it open when the
    process replaces its program. A descriptor moved onto itself stays as it
    is. -/
def moveTo? (t : DescriptorTable φ) (source target : Descriptor) :
    Option (DescriptorTable φ) :=
  (t.get? source).map fun s =>
    if source = target then t else t.place target { s with closeOnExec := false }

/-- The table after the process has replaced its program. -/
def exec (t : DescriptorTable φ) : DescriptorTable φ :=
  ⟨t.slots.filter fun s => !s.2.closeOnExec⟩

end DescriptorTable
end MetricIntake
