-- SUMMARY: What a framer and an unpickler of the protocols owe to each other: one cuts off exactly what the other accepts.
import Mathlib
import MetricIntake.Proofs.Pickle.Machine

/-!
# Unpicklers

A framer knows layouts only, an unpickler runs the pickle. All that a framer needs
of an unpickler is that it runs programs of the protocols: then the framer ends a
pickle where the unpickler does, and gives up on nothing that the unpickler could
still accept.
-/

namespace MetricIntake.Pickle

namespace Unpickler

/-- The unpickler runs the instructions of the protocols up to STOP, and lets
    nothing follow. -/
def RunsPrograms (unpickle : Unpickler) : Prop :=
  ∀ payload v, unpickle payload = .ok v → Program payload

/-- Of what fits into memory, the unpickler accepts nothing but frames. -/
def AcceptsFrames (unpickle : Unpickler) : Prop :=
  ∀ payload v, payload.length < offsetLimit → unpickle payload = .ok v → Frame payload

/-- The machine is such an unpickler. -/
theorem runsPrograms_ofPickle : RunsPrograms Value.ofPickle :=
  fun _ _ h => Value.program_of_ofPickle h

variable {unpickle : Unpickler} {buffer : List UInt8}

theorem RunsPrograms.acceptsFrames (h : unpickle.RunsPrograms) : unpickle.AcceptsFrames :=
  fun payload v hlimit hv => (h payload v hv).frame hlimit

/-- What a framer does not take for a complete pickle is refused. -/
theorem AcceptsFrames.refuses (h : unpickle.AcceptsFrames) (hlimit : buffer.length < offsetLimit)
    (hframing : Framing.of buffer ≠ .complete buffer.length) :
    ∃ fault, unpickle buffer = .error fault := by
  cases hv : unpickle buffer with
  | error fault => exact ⟨fault, rfl⟩
  | ok v => exact absurd (Framing.of_frame (h buffer v hlimit hv) List.prefix_rfl) hframing

end Unpickler

/-- On buffers that fit into memory, a framer waits for exactly the bytes of a pickle
    that is accepted, however they arrive, and ends it nowhere else; a buffer that it
    gives up on, or still waits on, is refused. -/
theorem Framer.answers_of_unpickler {unpickle : Unpickler} (h : unpickle.RunsPrograms) :
    (∀ (pickle : List UInt8) (v : Value), pickle.length < offsetLimit → unpickle pickle = .ok v →
      ∀ buffers, Growing buffers →
        List.Forall₂
          (fun buffer answer =>
            (buffer <+: pickle → buffer ≠ pickle → answer = .incomplete) ∧
            (pickle <+: buffer → answer = .complete pickle.length))
          buffers (answers {} buffers)) ∧
    ∀ buffers, Growing buffers →
      List.Forall₂
        (fun buffer answer => buffer.length < offsetLimit →
          answer = .invalid ∨ answer = .incomplete → ∃ fault, unpickle buffer = .error fault)
        buffers (answers {} buffers) := by
  refine ⟨fun pickle v hlimit hv buffers hgrowing => ?_, fun buffers hgrowing => ?_⟩
  · have hframe : Frame pickle := h.acceptsFrames pickle v hlimit hv
    rw [answers_new hgrowing, List.forall₂_map_right_iff, List.forall₂_same]
    intro buffer _
    have hcomplete := Framing.of_frame hframe List.prefix_rfl
    exact ⟨Framing.of_part hcomplete, Framing.of_frame hframe⟩
  · rw [answers_new hgrowing, List.forall₂_map_right_iff, List.forall₂_same]
    intro buffer _ hlimit hanswer
    apply h.acceptsFrames.refuses hlimit
    intro hcomplete
    rw [hcomplete] at hanswer
    rcases hanswer with hinvalid | hincomplete
    · cases hinvalid
    · cases hincomplete

/-- A string of two full stops that arrives in pieces, and a byte that is no opcode. -/
theorem Framer.answers_of_unpickler_stops :
    let pickle : List UInt8 := [0x55, 0x02, 0x2E, 0x2E, 0x2E]
    let buffers : List (List UInt8) := [[0x55, 0x02, 0x2E], pickle, pickle ++ [0x41]]
    Unpickler.RunsPrograms Value.ofPickle ∧ Value.ofPickle pickle = .ok (.str "..") ∧
      Growing buffers ∧
      List.Forall₂
        (fun buffer answer =>
          (buffer <+: pickle → buffer ≠ pickle → answer = .incomplete) ∧
          (pickle <+: buffer → answer = .complete pickle.length))
        buffers (answers {} buffers) ∧
      ∃ fault, Value.ofPickle [0xFF] = .error fault := by
  intro pickle buffers
  have hruns := Unpickler.runsPrograms_ofPickle
  have hpickle : Value.ofPickle pickle = .ok (.str "..") := by cbv
  have hgrowing : Growing buffers := by decide
  have hanswers := answers_of_unpickler hruns
  have hinvalid : answers {} [[0xFF]] = [.invalid] := by cbv
  refine ⟨hruns, hpickle, hgrowing, hanswers.1 pickle _ (by decide) hpickle buffers hgrowing, ?_⟩
  have hrefused := hanswers.2 [[0xFF]] (by decide)
  rw [hinvalid] at hrefused
  cases hrefused with
  | cons h _ => exact h (by decide) (.inl rfl)

end MetricIntake.Pickle
