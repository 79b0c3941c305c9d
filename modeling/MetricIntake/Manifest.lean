-- SUMMARY: Which protocol owns which inherited descriptor: the manifest as text, sockets to hand over, and taking inherited ones.
import MetricIntake.Text.Blank
import MetricIntake.Descriptor.Kernel
import MetricIntake.Socket.Error

/-!
# Manifests

A successor process inherits its sockets at consecutive descriptors. The
manifest lists the key of the protocol that each is for, in order, separated by
commas. Fields are trimmed but never left out, so a field's place is always the
place of its descriptor. A text of blanks is the empty manifest.

The empty key alone writes as the empty text, which reads as no key at all; and
a key with a comma, or with blanks at its ends, does not read back. No key in
use is of this kind.
-/

namespace MetricIntake

/-- The keys of inherited descriptors, in order. -/
abbrev Manifest := List String

namespace Manifest

/-- Reads a manifest. -/
def parse (raw : String) : Manifest :=
  let cs := Text.trim raw.toList
  if cs.isEmpty then []
  else (cs.splitOn ',').map fun field => String.ofList (Text.trim field)

/-- Writes a manifest. -/
def text (m : Manifest) : String := ",".intercalate m

end Manifest

/-- Sockets to hand over, with the keys of their protocols, in order. Their
    descriptors belong to the handoff. -/
structure Handoff where
  entries : List (String × Descriptor) := []
  deriving DecidableEq, Repr

namespace Handoff

/-- Adds a socket at the end. -/
def push (h : Handoff) (key : String) (fd : Descriptor) : Handoff :=
  ⟨h.entries ++ [(key, fd)]⟩

/-- The keys in the order of the descriptors. -/
def manifest (h : Handoff) : Manifest := h.entries.map (·.1)

@[simp] theorem manifest_push (h : Handoff) (key : String) (fd : Descriptor) :
    (h.push key fd).manifest = h.manifest ++ [key] := by
  simp [manifest, push]

def descriptors (h : Handoff) : List Descriptor := h.entries.map (·.2)

/-- Gives a handoff up, which closes its descriptors. -/
def discard (h : Handoff) (k : Kernel) : Kernel := k.closeAll h.descriptors

end Handoff

namespace Manifest

/-- Takes the descriptors from `next` on, one for each key. The first one that is
    not an open socket is reported, and those taken before it are closed. -/
def adoptFrom (k : Kernel) (taken : List (String × Descriptor)) :
    Manifest → (next : Descriptor) → Except SocketError Handoff × Kernel
  | [], _ => (.ok ⟨taken⟩, k)
  | key :: keys, next =>
    if k.isSocket next then adoptFrom k (taken ++ [(key, next)]) keys (next + 1)
    else (.error (.notASocket next key), k.closeAll (taken.map (·.2)))

/-- Takes the inherited descriptors that a manifest names, the first of them at
    `base`. -/
def adopt (m : Manifest) (base : Descriptor) (k : Kernel) :
    Except SocketError Handoff × Kernel :=
  adoptFrom k [] m base

end Manifest
end MetricIntake
