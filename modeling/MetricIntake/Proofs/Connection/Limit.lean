-- SUMMARY: When a pickle that is small enough is refused as too large: if the read that completes it brings too many bytes behind it.
import MetricIntake.Proofs.Connection.Pickle
import MetricIntake.Proofs.Pickle.Record

/-!
# The size limit of pickle connections

The limit is on everything that has been read, and is looked at before the pickle is
looked for. So a pickle within the limit is decoded, whatever follows it, unless the
read that brings its last byte leads beyond the limit. Then it is refused, although the
same bytes are accepted if another read brings what follows.
-/

namespace MetricIntake

namespace Batch

open Pickle (Value Unpickler)

/-- Unpickling does not know the limit. -/
theorem ofPickleWith_ne_payloadTooLarge (unpickle : Unpickler) (payload : List UInt8) (max : Nat) :
    ofPickleWith unpickle payload ≠ .error (.payloadTooLarge max) := by
  intro h
  rw [ofPickleWith] at h
  cases hv : unpickle payload with
  | error fault =>
    rw [hv] at h
    cases h
  | ok v =>
    rw [hv] at h
    have hvalue : ofValue v = .error (.payloadTooLarge max) := h
    cases hitems : v.items? with
    | none =>
      rw [ofValue_of_no_items hitems] at hvalue
      cases hvalue
    | some records =>
      rw [ofValue_of_items hitems] at hvalue
      cases hvalue

end Batch

namespace Connection.Pickle

open Delivery
open MetricIntake.Pickle (Framing Unpickler)

/-- The connection was refused for the size of its pickle. -/
def TooLarge (o : Outcome) : Prop :=
  ∃ moment max, o.ending = .returned moment (.error (.decode (.payloadTooLarge max)))

variable {unpickle : Unpickler} {settings : Settings} {pickle : List UInt8}

theorem not_tooLarge_deliver (unpickle : Unpickler) (moment : Nat) (payload : List UInt8) :
    ¬ TooLarge (deliver unpickle moment payload) := by
  obtain ⟨points, result, hdecoded, hdeliver⟩ := exists_decoded unpickle payload
  rw [hdeliver]
  rintro ⟨moment', max, hending⟩
  obtain ⟨-, hresult⟩ := Ending.returned.inj hending
  cases hdecoded with
  | refused hbatch =>
    obtain rfl := Fault.decode.inj (Except.error.inj hresult)
    exact Batch.ofPickleWith_ne_payloadTooLarge unpickle payload max hbatch
  | whole => cases hresult
  | cut hbatch hyields =>
    obtain rfl := Fault.decode.inj (Except.error.inj hresult)
    cases hyields.ofRecord

/-- Serving a stream that holds a pickle within the limit is decided by the read that
    brings the last byte of the pickle: if that read leads beyond the limit. -/
theorem serveWith_of_cut {before after : List (Delivery settings.idle)}
    {last : Delivery settings.idle} (hfront : pickle <+: bytes (before ++ last :: after))
    (hpickle : Framing.of pickle = .complete pickle.length)
    (hfit : pickle.length ≤ settings.maxPickle) (hbefore : (bytes before).length < pickle.length)
    (hlast : pickle.length ≤ (bytes (before ++ [last])).length) (tail : Peer) :
    serveWith unpickle settings ((before ++ last :: after).map toRead ++ tail) =
      if settings.maxPickle < (bytes (before ++ [last])).length then
        { ending := .returned (waited (before ++ [last]))
            (.error (.decode (.payloadTooLarge settings.maxPickle))) }
      else deliver unpickle (waited (before ++ [last])) pickle := by
  have hcollect := collectFrom_of_cut 0 [] hpickle hfit hfront hbefore hlast tail
  rw [MetricIntake.Pickle.Framer.after_nil, Nat.zero_add, List.nil_append] at hcollect
  rw [serveWith, collect, hcollect]
  by_cases hover : settings.maxPickle < (bytes (before ++ [last])).length
  · rw [if_pos hover, if_pos hover]
  · rw [if_neg hover, if_neg hover]

/-- A pickle within the limit is refused as too large if the read that brings its last
    byte leads beyond the limit, and only then. Otherwise it is decoded, whatever follows
    it and however the bytes are cut. -/
theorem tooLarge_iff_overshoots {deliveries : List (Delivery settings.idle)}
    (hfront : pickle <+: bytes deliveries) (hpickle : Framing.of pickle = .complete pickle.length)
    (hfit : pickle.length ≤ settings.maxPickle) (tail : Peer) :
    ∃ before last after, deliveries = before ++ last :: after ∧
      (bytes before).length < pickle.length ∧
      pickle.length ≤ (bytes (before ++ [last])).length ∧
      (TooLarge (serveWith unpickle settings (deliveries.map toRead ++ tail)) ↔
        settings.maxPickle < (bytes (before ++ [last])).length) ∧
      ((bytes (before ++ [last])).length ≤ settings.maxPickle →
        serveWith unpickle settings (deliveries.map toRead ++ tail) =
          deliver unpickle (waited (before ++ [last])) pickle) := by
  have hpos : 0 < pickle.length := (Framing.of_eq_complete_le hpickle).1
  obtain ⟨before, last, after, rfl, hbefore, hlast⟩ :=
    @exists_cut settings.idle pickle [] deliveries hfront hpos
  have hserve := @serveWith_of_cut unpickle settings pickle before after last hfront hpickle hfit
    hbefore hlast tail
  refine ⟨before, last, after, rfl, hbefore, hlast, ?_, ?_⟩
  · rw [hserve]
    split
    · rename_i hover
      exact ⟨fun _ => hover, fun _ => ⟨_, _, rfl⟩⟩
    · rename_i hunder
      exact ⟨fun h => absurd h (not_tooLarge_deliver _ _ _), fun hover => absurd hover hunder⟩
  · intro hunder
    rw [hserve, if_neg (Nat.not_lt.2 hunder)]

/-- A batch of one record that fills the limit, in one read with a byte behind it. -/
theorem tooLarge_iff_overshoots_byte :
    let pickle : List UInt8 :=
      [0x5D, 0x55, 0x01, 0x61, 0x4B, 0x01, 0x4B, 0x02, 0x86, 0x86, 0x61, 0x2E]
    let settings : Settings := { idle := none, maxPickle := 12 }
    let whole : Delivery settings.idle := ⟨0, pickle ++ [0x41], nofun, by decide⟩
    pickle <+: bytes [whole] ∧ Framing.of pickle = .complete pickle.length ∧
      pickle.length ≤ settings.maxPickle ∧
      ∃ before last after, [whole] = before ++ last :: after ∧
        (bytes before).length < pickle.length ∧
        pickle.length ≤ (bytes (before ++ [last])).length ∧
        (TooLarge (serveWith MetricIntake.Pickle.Value.ofPickle settings ([whole].map toRead ++ [])) ↔
          settings.maxPickle < (bytes (before ++ [last])).length) ∧
        ((bytes (before ++ [last])).length ≤ settings.maxPickle →
          serveWith MetricIntake.Pickle.Value.ofPickle settings ([whole].map toRead ++ []) =
            deliver MetricIntake.Pickle.Value.ofPickle (waited (before ++ [last])) pickle) := by
  intro pickle settings whole
  have hpickle : Framing.of pickle = .complete pickle.length := by cbv
  have hfront : pickle <+: bytes [whole] := by decide
  exact ⟨hfront, hpickle, by decide, tooLarge_iff_overshoots hfront hpickle (by decide) []⟩

/-- The byte behind the pickle decides whether the pickle is accepted, and so does the
    cut: the same bytes are decoded if the last one comes with a read of its own. -/
theorem tooLarge_of_trailing_byte :
    let pickle : List UInt8 :=
      [0x5D, 0x55, 0x01, 0x61, 0x4B, 0x01, 0x4B, 0x02, 0x86, 0x86, 0x61, 0x2E]
    let settings : Settings := { idle := none, maxPickle := 12 }
    let whole : List (Delivery settings.idle) := [⟨0, pickle ++ [0x41], nofun, by decide⟩]
    let apart : List (Delivery settings.idle) :=
      [⟨0, pickle, nofun, by decide⟩, ⟨0, [0x41], nofun, by decide⟩]
    pickle <+: bytes whole ∧ bytes apart = bytes whole ∧
      Framing.of pickle = .complete pickle.length ∧ pickle.length ≤ settings.maxPickle ∧
      TooLarge (serve settings (whole.map toRead)) ∧
      ¬ TooLarge (serve settings (apart.map toRead)) := by
  intro pickle settings whole apart
  have hapart : collect settings (apart.map toRead) = .payload 0 pickle := by cbv
  refine ⟨by decide, rfl, by cbv, by decide, ⟨0, 12, rfl⟩, ?_⟩
  rw [serve, serveWith, hapart]
  exact not_tooLarge_deliver _ _ _

end Connection.Pickle
end MetricIntake
