-- SUMMARY: A frame of the layout grammar is what a framer takes for a complete pickle.
import MetricIntake.Proofs.Pickle.Framer

/-!
# Frames

The grammar says what a complete pickle is without saying how to find its end.
A scan that starts where a frame starts walks along its derivation: it knows the
extent of every argument, and stops behind STOP, whatever follows.
-/

namespace MetricIntake.Pickle

namespace Framer

variable {layout : Layout} {at_ : Nat} {argument : List UInt8}

/-- The search for lines behind `pre` ends with the last of them. -/
theorem seekLines_of_argument (f : Framer) {n : Nat} (h : Argument (.lines n) at_ argument)
    (body seen : Nat) (pre rest : List UInt8) :
    seekLines f body (pre ++ (argument ++ rest)) n seen (body + pre.length) =
      .known (pre.length + argument.length) := by
  induction n generalizing at_ argument seen pre with
  | zero =>
    cases h
    rw [seekLines, Nat.add_sub_cancel_left]
    rfl
  | succ n ih =>
    cases h with
    | @line _ _ first lines hfirst hlines =>
      obtain ⟨line, hline, rfl⟩ := hfirst
      have hnone : line.findIdx? (· == 0x0A) = none := by
        simp only [List.findIdx?_eq_none_iff, beq_eq_false_iff_ne]
        exact fun b hb hfeed => hline (hfeed ▸ hb)
      have hfind : (line ++ [0x0A] ++ (lines ++ rest)).findIdx? (· == 0x0A) = some line.length := by
        rw [List.append_assoc, List.findIdx?_append, hnone]
        simp [List.findIdx?_cons]
      have hnext := ih hlines (seen + 1) (pre ++ (line ++ [0x0A]))
      have hstart : body + (pre ++ (line ++ [0x0A])).length = body + pre.length + line.length + 1 := by
        simp only [List.length_append, List.length_singleton]
        omega
      rw [hstart] at hnext
      rw [seekLines, Nat.add_sub_cancel_left, List.drop_left, List.append_assoc _ lines, hfind]
      simp only [List.append_assoc] at hnext ⊢
      rw [hnext]
      simp only [List.length_append, List.length_singleton]
      congr 1
      omega

/-- A framer at the start of an argument knows how long it is. -/
theorem extent_of_argument (h : Argument layout (at_ + 1) argument) (rest : List UInt8) :
    extent { pos := at_ } (argument ++ rest) layout = .known argument.length := by
  cases layout with
  | fixed n =>
    cases h with
    | fixed hlen => rw [extent, hlen]
  | counted width =>
    cases h with
    | @counted _ _ count body hcount hbody hlimit =>
      have htake : take? width (count ++ body ++ rest) = some (count, body ++ rest) :=
        take?_eq_some_iff.2 ⟨List.append_assoc .., hcount⟩
      have hend : at_ + 1 + (width + littleEndian count) < offsetLimit := by
        rw [← hbody]
        omega
      simp only [extent, htake, if_pos hend, List.length_append, hcount, hbody]
  | signedCounted =>
    cases h with
    | @signedCounted _ count body hcount hlimit hbody =>
      have htake : take? 4 (count ++ body ++ rest) = some (count, body ++ rest) :=
        take?_eq_some_iff.2 ⟨List.append_assoc .., hcount⟩
      simp only [extent, htake, if_pos hlimit, List.length_append, hcount, hbody]
  | lines n =>
    have hseek := seekLines_of_argument { pos := at_ } h (at_ + 1) 0 [] rest
    rw [List.nil_append, List.length_nil, Nat.zero_add, Nat.add_zero] at hseek
    rw [extent, Nat.sub_zero, Nat.max_eq_right (Nat.zero_le _), hseek]

/-- A scan from the start of a frame stops at its end. -/
theorem scanFrom_of_frameFrom {frame : List UInt8} (h : FrameFrom at_ frame) (rest : List UInt8) :
    (scanFrom { pos := at_ } (frame ++ rest)).1 = .complete (at_ + frame.length) := by
  induction h with
  | @stop at_ =>
    rw [List.singleton_append, scanFrom_of_known ofOpcode?_stop rfl]
    simp [take?]
  | @instruction at_ op layout argument frame hstop hop hargument _ ih =>
    have hext := extent_of_argument hargument []
    rw [List.append_nil] at hext
    have htake : take? argument.length argument = some (argument, []) :=
      take?_eq_some_iff.2 ⟨(List.append_nil _).symm, rfl⟩
    rw [List.cons_append, List.append_assoc, scanFrom_instruction hop hext htake hstop,
      List.nil_append, ih, List.length_cons, List.length_append]
    congr 1
    omega

end Framer

/-! ## Fresh framers -/

/-- A frame is complete, whatever follows it. -/
theorem Framing.of_frame {frame buffer : List UInt8} (h : Frame frame) (hext : frame <+: buffer) :
    Framing.of buffer = .complete frame.length := by
  obtain ⟨rest, rfl⟩ := hext
  have := Framer.scanFrom_of_frameFrom h rest
  rwa [Nat.zero_add] at this

end MetricIntake.Pickle
