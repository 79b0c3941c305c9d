-- SUMMARY: Starting a successor process: its sockets moved to consecutive descriptors without one overwriting another.
import MetricIntake.Manifest

/-!
# Successors

A successor finds its sockets at consecutive descriptors from `firstInherited`
on. The sockets of the parent may be anywhere, also inside this range and in any
order, so a move could overwrite the source of a later one, and a move onto
itself would not survive the change of programs. Therefore every socket is first
duplicated above the range, and the child moves the duplicates down.
-/

namespace MetricIntake.Successor

/-- The first inherited descriptor, after standard input and output. -/
def firstInherited : Nat := 3

/-- The variable that carries the manifest. -/
def manifestVariable : String := "TIMERIVER_GRACEFUL_PROTOS"

/-- Duplicates of `n` sockets are made at or above this descriptor. -/
def highBase (n : Nat) : Nat := max (firstInherited + n) 100

variable {φ : Type}

/-- Duplicates descriptors one after the other. -/
def duplicateAll (least : Nat) :
    List Descriptor → DescriptorTable φ → Option (List Descriptor × DescriptorTable φ)
  | [], t => some ([], t)
  | fd :: fds, t => do
    let (copy, t) ← t.duplicate? fd least
    let (copies, t) ← duplicateAll least fds t
    return (copy :: copies, t)

/-- Moves descriptors to consecutive places from `target` on. -/
def moveAll : List Descriptor → (target : Descriptor) → DescriptorTable φ →
    Option (DescriptorTable φ)
  | [], _, t => some t
  | fd :: fds, target, t => do moveAll fds (target + 1) (← t.moveTo? fd target)

/-- A successor that has been started. -/
structure Spawned (φ : Type) where
  /-- The descriptors of the child when its program starts. -/
  child : DescriptorTable φ
  /-- The value of `manifestVariable` in the child. -/
  manifest : String
  /-- The descriptors of the parent afterwards. -/
  parent : DescriptorTable φ

/-- Starts a successor. The child begins as a copy of the parent; the parent
    closes the duplicates, and the handoff is used up. -/
def spawn (h : Handoff) (t : DescriptorTable φ) : Option (Spawned φ) := do
  let (copies, t) ← duplicateAll (highBase h.entries.length) h.descriptors t
  let child ← moveAll copies firstInherited t
  return {
    child := child.exec
    manifest := h.manifest.text
    parent := (t.closeAll copies).closeAll h.descriptors }

end MetricIntake.Successor
