-- SUMMARY: A framer that meets a buffer piece by piece answers as one that meets it at once, and its verdicts are final.
import MetricIntake.Pickle.Framer
import Mathlib.Data.List.Chain

/-!
# Framing a growing buffer

A framer keeps three numbers from one buffer to the next. They are a shortcut
and nothing more: `scan_scan` says that going on from where the scan of a buffer
stopped is scanning the longer buffer from where that scan began. So the answers
on a growing buffer are those of a fresh framer, each on its buffer alone.
-/

namespace MetricIntake.Pickle

/-! ## Pieces -/

theorem take?_eq_none_iff {n : Nat} {bytes : List UInt8} :
    take? n bytes = none ↔ bytes.length < n := by
  simp only [take?, List.splitAt_eq, ite_eq_right_iff, reduceCtorEq, imp_false, List.length_take]
  omega

theorem take?_append {n : Nat} {bytes front rest : List UInt8}
    (h : take? n bytes = some (front, rest)) (more : List UInt8) :
    take? n (bytes ++ more) = some (front, rest ++ more) := by
  obtain ⟨rfl, hn⟩ := take?_eq_some_iff.1 h
  exact take?_eq_some_iff.2 ⟨List.append_assoc .., hn⟩

namespace Framer

variable {f f' : Framer} {bytes : List UInt8} {layout : Layout} {n : Nat}

/-! ## Lines -/

/-- A search for lines waits for more bytes or finds the lines among those that
    are there. -/
theorem seekLines_cases {body missing seen start : Nat} (hle : start ≤ body + bytes.length) :
    (∃ g, seekLines f body bytes missing seen start = .pending g) ∨
      ∃ n ≤ bytes.length, seekLines f body bytes missing seen start = .known n := by
  induction missing generalizing seen start with
  | zero => exact .inr ⟨start - body, by omega, rfl⟩
  | succ missing ih =>
    rw [seekLines]
    split
    · exact .inl ⟨_, rfl⟩
    · rename_i i hi
      have hlt := (List.findIdx?_eq_some_iff_getElem.1 hi).1
      rw [List.length_drop] at hlt
      exact ih (by omega)

/-- More bytes do not change a search that has come to an end. -/
theorem seekLines_append {body missing seen start : Nat}
    (h : ∀ g, seekLines f body bytes missing seen start ≠ .pending g) (more : List UInt8) :
    seekLines f body (bytes ++ more) missing seen start =
      seekLines f body bytes missing seen start := by
  induction missing generalizing seen start with
  | zero => rfl
  | succ missing ih =>
    rw [seekLines] at h ⊢
    rw [seekLines]
    cases hi : (bytes.drop (start - body)).findIdx? (· == 0x0A) with
    | none => exact (h _ (by rw [hi])).elim
    | some i =>
      rw [hi] at h
      rw [List.drop_append, List.findIdx?_append, hi]
      exact ih h

/-- Only the offset of the opcode matters of the framer that searches. -/
theorem seekLines_congr (h : f'.pos = f.pos) (body missing seen start : Nat) :
    seekLines f' body bytes missing seen start = seekLines f body bytes missing seen start := by
  induction missing generalizing seen start with
  | zero => rfl
  | succ missing ih =>
    rw [seekLines, seekLines, h]
    split
    · rfl
    · exact ih _ _

/-- A search for lines that runs out of bytes can be taken up where they end. -/
theorem seekLines_pending {body missing seen start : Nat}
    (h : seekLines f body bytes missing seen start = .pending f')
    (hstart : body ≤ start) (hle : start ≤ body + bytes.length) :
    f'.pos = f.pos ∧ f'.lineFrom = body + bytes.length ∧
      ∀ more, seekLines f body (bytes ++ more) missing seen start =
        seekLines f' body (bytes ++ more) (seen + missing - f'.linesSeen) f'.linesSeen
          (body + bytes.length) := by
  induction missing generalizing seen start with
  | zero => cases h
  | succ missing ih =>
    rw [seekLines] at h
    split at h
    · rename_i hnone
      obtain rfl := (Extent.pending.inj h).symm
      refine ⟨rfl, rfl, fun more => ?_⟩
      have hleft : (bytes ++ more).drop (start - body) = bytes.drop (start - body) ++ more :=
        List.drop_append_of_le_length (by omega)
      have hright : (bytes ++ more).drop (body + bytes.length - body) = more := by
        rw [Nat.add_sub_cancel_left, List.drop_left]
      have hmissing : seen + (missing + 1) - seen = missing + 1 := Nat.add_sub_cancel_left ..
      simp only [hmissing]
      rw [seekLines, seekLines, hleft, hright, List.findIdx?_append, hnone, Option.none_or]
      cases more.findIdx? (· == 0x0A) with
      | none => rfl
      | some j =>
        have hfrom : start + (j + (bytes.drop (start - body)).length) + 1 =
            body + bytes.length + j + 1 := by
          rw [List.length_drop]
          omega
        simp only [Option.map_some, hfrom]
        exact (seekLines_congr (by rfl) ..).symm
    · rename_i i hi
      have hlt := (List.findIdx?_eq_some_iff_getElem.1 hi).1
      rw [List.length_drop] at hlt
      obtain ⟨hpos, hfrom, hmore⟩ := ih h (by omega) (by omega)
      refine ⟨hpos, hfrom, fun more => ?_⟩
      rw [seekLines, List.drop_append, List.findIdx?_append, hi]
      have hmissing : seen + 1 + missing = seen + (missing + 1) := by omega
      exact hmissing ▸ hmore more

/-! ## Arguments -/

/-- More bytes do not change what is known of an argument. -/
theorem extent_append (h : ∀ g, f.extent bytes layout ≠ .pending g) (more : List UInt8) :
    f.extent (bytes ++ more) layout = f.extent bytes layout := by
  cases layout with
  | fixed k => rfl
  | counted width =>
    simp only [extent] at h ⊢
    cases htake : take? width bytes with
    | none => exact (h f (by rw [htake])).elim
    | some parts => rw [take?_append htake]
  | signedCounted =>
    simp only [extent] at h ⊢
    cases htake : take? 4 bytes with
    | none => exact (h f (by rw [htake])).elim
    | some parts => rw [take?_append htake]
  | lines k => exact seekLines_append h more

/-- A framer that waits for the rest of an argument goes on as the framer before
    it would; only an argument made of lines gives it something to remember. -/
theorem extent_pending (h : f.extent bytes layout = .pending f')
    (hfit : f.lineFrom ≤ f.pos + 1 + bytes.length) :
    f'.pos = f.pos ∧ f'.lineFrom ≤ f.pos + 1 + bytes.length ∧
      (∀ more, f'.extent (bytes ++ more) layout = f.extent (bytes ++ more) layout) ∧
      (f' = f ∨ ∃ k, layout = .lines k) := by
  cases layout with
  | fixed k => cases h
  | counted width =>
    simp only [extent] at h
    split at h
    · obtain rfl := Extent.pending.inj h
      exact ⟨rfl, hfit, fun _ => rfl, .inl rfl⟩
    · split at h <;> cases h
  | signedCounted =>
    simp only [extent] at h
    split at h
    · obtain rfl := Extent.pending.inj h
      exact ⟨rfl, hfit, fun _ => rfl, .inl rfl⟩
    · split at h <;> cases h
  | lines k =>
    simp only [extent] at h ⊢
    -- a search for no line ends at once, so some line was missing
    have hlt : f.linesSeen < k := by
      apply Nat.lt_of_not_le
      intro hle
      rw [Nat.sub_eq_zero_of_le hle] at h
      cases h
    obtain ⟨hpos, hfrom, hmore⟩ := seekLines_pending h (by omega) (by omega)
    refine ⟨hpos, Nat.le_of_eq hfrom, fun more => ?_, .inr ⟨k, rfl⟩⟩
    have hmissing : f.linesSeen + (k - f.linesSeen) - f'.linesSeen = k - f'.linesSeen := by omega
    have hstart : max f'.lineFrom (f.pos + 1) = f.pos + 1 + bytes.length := by omega
    rw [hpos, hstart, hmore more, hmissing]

theorem extent_lines_cases {k : Nat} (hfit : f.lineFrom ≤ f.pos + 1 + bytes.length) :
    (∃ g, f.extent bytes (.lines k) = .pending g) ∨
      ∃ n ≤ bytes.length, f.extent bytes (.lines k) = .known n :=
  seekLines_cases (by omega)

/-! ## One opcode -/

variable {op : UInt8}

@[simp] theorem scanFrom_nil (f : Framer) : f.scanFrom [] = (.incomplete, f) := by
  rw [scanFrom]

theorem scanFrom_of_unknown (hop : Layout.ofOpcode? op = none) :
    f.scanFrom (op :: bytes) = (.invalid, f) := by
  rw [scanFrom]
  simp only [hop]

theorem scanFrom_of_pending (hop : Layout.ofOpcode? op = some layout)
    (h : f.extent bytes layout = .pending f') :
    f.scanFrom (op :: bytes) = (.incomplete, f') := by
  rw [scanFrom]
  simp only [hop, h]

theorem scanFrom_of_impossible (hop : Layout.ofOpcode? op = some layout)
    (h : f.extent bytes layout = .impossible) :
    f.scanFrom (op :: bytes) = (.invalid, f) := by
  rw [scanFrom]
  simp only [hop, h]

theorem scanFrom_of_known (hop : Layout.ofOpcode? op = some layout)
    (h : f.extent bytes layout = .known n) :
    f.scanFrom (op :: bytes) =
      match take? n bytes with
      | none => (.incomplete, f)
      | some (_, rest) =>
        if op = stop then (.complete (f.pos + 1 + n), f)
        else scanFrom { pos := f.pos + 1 + n } rest := by
  rw [scanFrom]
  simp only [hop, h]
  split <;> rename_i heq <;> simp only [heq]

theorem extent_known_append (h : f.extent bytes layout = .known n) (more : List UInt8) :
    f.extent (bytes ++ more) layout = .known n := by
  rw [extent_append (by rw [h]; nofun), h]

/-- Past an instruction other than STOP, the scan starts afresh. -/
theorem scanFrom_instruction {front rest : List UInt8} (hop : Layout.ofOpcode? op = some layout)
    (h : f.extent bytes layout = .known n) (htake : take? n bytes = some (front, rest))
    (hstop : op ≠ stop) (more : List UInt8) :
    f.scanFrom (op :: (bytes ++ more)) = scanFrom { pos := f.pos + 1 + n } (rest ++ more) := by
  rw [scanFrom_of_known hop (extent_known_append h more), take?_append htake]
  exact if_neg hstop

theorem ofOpcode?_stop : Layout.ofOpcode? stop = some (.fixed 0) := by
  decide

/-- A framer that waits in the middle of an opcode goes on as the framer before it
    would. -/
theorem scanFrom_pending_append (hop : Layout.ofOpcode? op = some layout)
    (h : f.extent bytes layout = .pending f') (hfit : f.lineFrom ≤ f.pos + 1 + bytes.length)
    (more : List UInt8) :
    f'.scanFrom (op :: (bytes ++ more)) = f.scanFrom (op :: (bytes ++ more)) := by
  obtain ⟨hpos, -, hmore, rfl | ⟨k, rfl⟩⟩ := extent_pending h hfit
  · rfl
  · have hmore := hmore more
    have hlong : f.lineFrom ≤ f.pos + 1 + (bytes ++ more).length := by
      rw [List.length_append]
      omega
    rcases extent_lines_cases hlong with ⟨g, hg⟩ | ⟨n, hn, hknown⟩
    · rw [scanFrom_of_pending hop (hmore.trans hg), scanFrom_of_pending hop hg]
    · rw [scanFrom_of_known hop (hmore.trans hknown), scanFrom_of_known hop hknown, hpos]
      have hstop : op ≠ stop := by
        rintro rfl
        cases ofOpcode?_stop.symm.trans hop
      cases htake : take? n (bytes ++ more) with
      | none => exact absurd (take?_eq_none_iff.1 htake) (Nat.not_lt.2 hn)
      | some parts => simp only [hstop, if_false]

/-- The framer that a scan leaves stands where the scan stopped, and goes on from
    there as the framer before the scan would. -/
theorem scanFrom_resume {answer : Framing} (hfit : f.lineFrom ≤ f.pos + bytes.length)
    (h : f.scanFrom bytes = (answer, f')) :
    ∃ used rest, bytes = used ++ rest ∧ f'.pos = f.pos + used.length ∧
      f'.lineFrom ≤ f.pos + bytes.length ∧
      ∀ more, f'.scanFrom (rest ++ more) = f.scanFrom (bytes ++ more) := by
  fun_induction scanFrom f bytes with
  | case1 f =>
    obtain ⟨-, rfl⟩ := Prod.mk.inj h
    exact ⟨[], [], rfl, rfl, hfit, fun _ => rfl⟩
  | case2 f op bytes hop =>
    obtain ⟨-, rfl⟩ := Prod.mk.inj h
    exact ⟨[], op :: bytes, rfl, rfl, hfit, fun _ => rfl⟩
  | case3 f op bytes layout hop g hext =>
    obtain ⟨-, rfl⟩ := Prod.mk.inj h
    have hfit : f.lineFrom ≤ f.pos + 1 + bytes.length := by
      rw [List.length_cons] at hfit
      omega
    obtain ⟨hpos, hfrom, -, -⟩ := extent_pending hext hfit
    refine ⟨[], op :: bytes, rfl, hpos, ?_, scanFrom_pending_append hop hext hfit⟩
    rw [List.length_cons]
    omega
  | case4 f op bytes layout hop hext =>
    obtain ⟨-, rfl⟩ := Prod.mk.inj h
    exact ⟨[], op :: bytes, rfl, rfl, hfit, fun _ => rfl⟩
  | case5 f op bytes layout hop n hext htake =>
    obtain ⟨-, rfl⟩ := Prod.mk.inj h
    exact ⟨[], op :: bytes, rfl, rfl, hfit, fun _ => rfl⟩
  | case6 f bytes layout n hext front rest htake hlt hop =>
    obtain ⟨-, rfl⟩ := Prod.mk.inj h
    exact ⟨[], stop :: bytes, rfl, rfl, hfit, fun _ => rfl⟩
  | case7 f op bytes layout hop n hext front rest htake hlt hstop ih =>
    obtain ⟨used, rest', rfl, hpos, hfrom, hmore⟩ := ih (Nat.zero_le _) h
    obtain ⟨hbytes, hn⟩ := take?_eq_some_iff.1 htake
    refine ⟨op :: (front ++ used), rest', by simp [hbytes], ?_, ?_, fun more => ?_⟩
    · simp only [hpos, List.length_cons, List.length_append, hn]
      omega
    · simp only [hbytes, List.length_cons, List.length_append, hn] at hfrom ⊢
      omega
    · rw [hmore, List.cons_append, scanFrom_instruction hop hext htake hstop]

/-- A verdict on a buffer is the verdict on every longer one. -/
theorem scanFrom_append {answer : Framing} (h : f.scanFrom bytes = (answer, f'))
    (hdone : answer ≠ .incomplete) (more : List UInt8) :
    f.scanFrom (bytes ++ more) = (answer, f') := by
  fun_induction scanFrom f bytes with
  | case1 | case3 | case5 => exact absurd (Prod.mk.inj h).1.symm hdone
  | case2 f op bytes hop =>
    rw [List.cons_append, scanFrom_of_unknown hop, h]
  | case4 f op bytes layout hop hext =>
    have hext' : f.extent (bytes ++ more) layout = .impossible := by
      rw [extent_append (by rw [hext]; nofun), hext]
    rw [List.cons_append, scanFrom_of_impossible hop hext', h]
  | case6 f bytes layout n hext front rest htake hlt hop =>
    rw [List.cons_append, scanFrom_of_known hop (extent_known_append hext more),
      take?_append htake]
    exact (if_pos rfl).trans h
  | case7 f op bytes layout hop n hext front rest htake hlt hstop ih =>
    rw [List.cons_append, scanFrom_instruction hop hext htake hstop]
    exact ih h

/-- A complete pickle lies within the bytes scanned, and has at least the opcode
    STOP. -/
theorem scanFrom_complete_le {length : Nat} (h : f.scanFrom bytes = (.complete length, f')) :
    f.pos < length ∧ length ≤ f.pos + bytes.length := by
  fun_induction scanFrom f bytes with
  | case1 | case2 | case3 | case4 | case5 => cases h
  | case6 f bytes layout n hext front rest htake hlt hop =>
    obtain ⟨hlength, -⟩ := Prod.mk.inj h
    obtain rfl := Framing.complete.inj hlength
    have := length_of_take?_eq_some htake
    rw [List.length_cons]
    omega
  | case7 f op bytes layout hop n hext front rest htake hlt hstop ih =>
    obtain ⟨hlo, hhi⟩ := ih h
    have := length_of_take?_eq_some htake
    rw [List.length_cons]
    simp only at hlo hhi
    omega

/-! ## Buffers -/

/-- Scanning a buffer and then a longer one is scanning the longer one at once. -/
theorem scan_scan {buffer : List UInt8} (hfit : f.lineFrom ≤ buffer.length) (more : List UInt8) :
    (f.scan buffer).2.scan (buffer ++ more) = f.scan (buffer ++ more) := by
  cases hscan : f.scan buffer with
  | mk answer f' =>
    rcases Nat.lt_or_ge buffer.length f.pos with hpos | hpos
    · -- the framer has not reached its opcode, and stays as it is
      rw [scan, List.drop_eq_nil_of_le (Nat.le_of_lt hpos), scanFrom_nil] at hscan
      obtain ⟨-, rfl⟩ := Prod.mk.inj hscan
      rfl
    · have hlen : f.lineFrom ≤ f.pos + (buffer.drop f.pos).length := by
        rw [List.length_drop]
        omega
      obtain ⟨used, rest, hbuffer, hpos', -, hmore⟩ := scanFrom_resume hlen hscan
      have hdrop : (buffer ++ more).drop f'.pos = rest ++ more := by
        rw [hpos', ← List.drop_drop, List.drop_append_of_le_length hpos, hbuffer,
          List.append_assoc, List.drop_left]
      rw [scan, scan, hdrop, hmore, List.drop_append_of_le_length hpos]

end Framer

/-! ## Growing buffers -/

/-- What a fresh framer answers on a buffer. -/
def Framing.of (buffer : List UInt8) : Framing := (Framer.scan {} buffer).1

/-- The framer that the scan of a buffer leaves. -/
def Framer.after (buffer : List UInt8) : Framer := (Framer.scan {} buffer).2

/-- Each buffer extends the one before it. -/
def Growing (buffers : List (List UInt8)) : Prop := buffers.IsChain (· <+: ·)

instance (buffers : List (List UInt8)) : Decidable (Growing buffers) :=
  inferInstanceAs (Decidable (buffers.IsChain (· <+: ·)))

/-- The answers of one framer that is given buffer after buffer. -/
def Framer.answers : Framer → List (List UInt8) → List Framing
  | _, [] => []
  | f, buffer :: buffers => (f.scan buffer).1 :: answers (f.scan buffer).2 buffers

theorem Framer.after_nil : after [] = {} := by
  rw [after, scan, List.drop_nil, scanFrom_nil]

theorem Framer.scan_after {buffer longer : List UInt8} (h : buffer <+: longer) :
    (after buffer).scan longer = scan {} longer := by
  obtain ⟨more, rfl⟩ := h
  exact scan_scan (Nat.zero_le _) more

theorem Framing.of_longer {buffer longer : List UInt8} (h : buffer <+: longer)
    (hdone : Framing.of buffer ≠ .incomplete) : Framing.of longer = Framing.of buffer := by
  obtain ⟨more, rfl⟩ := h
  exact congrArg Prod.fst (Framer.scanFrom_append rfl hdone more)

theorem Framing.of_eq_complete_le {buffer : List UInt8} {n : Nat}
    (h : Framing.of buffer = .complete n) : 0 < n ∧ n ≤ buffer.length := by
  cases hscan : Framer.scan {} buffer with
  | mk answer f =>
    have hanswer : answer = .complete n := by rw [← h, Framing.of, hscan]
    have := Framer.scanFrom_complete_le (hanswer ▸ hscan)
    simpa using this

/-- A complete pickle stays complete, whatever follows it. -/
theorem Framing.of_whole {pickle buffer : List UInt8}
    (h : Framing.of pickle = .complete pickle.length) (hfront : pickle <+: buffer) :
    Framing.of buffer = .complete pickle.length := by
  rw [of_longer hfront (by rw [h]; nofun), h]

/-- A complete pickle is not complete before its end. -/
theorem Framing.of_part {pickle part : List UInt8} (h : Framing.of pickle = .complete pickle.length)
    (hpart : part <+: pickle) (hne : part ≠ pickle) : Framing.of part = .incomplete := by
  by_cases hdone : Framing.of part = .incomplete
  · exact hdone
  · have hcomplete : Framing.of part = .complete pickle.length := by
      rw [← of_longer hpart hdone, h]
    obtain ⟨-, hle⟩ := of_eq_complete_le hcomplete
    exact absurd (hpart.eq_of_length_le hle) hne

theorem Framer.answers_after {buffer : List UInt8} {buffers : List (List UInt8)}
    (h : Growing (buffer :: buffers)) :
    answers (after buffer) buffers = buffers.map Framing.of := by
  induction buffers generalizing buffer with
  | nil => rfl
  | cons longer buffers ih =>
    obtain ⟨hext, hrest⟩ := List.isChain_cons_cons.1 h
    rw [answers, scan_after hext, List.map_cons]
    exact congrArg (Framing.of longer :: ·) (ih hrest)

theorem Framer.answers_new {buffers : List (List UInt8)} (h : Growing buffers) :
    answers {} buffers = buffers.map Framing.of := by
  have hgrowing : Growing ([] :: buffers) :=
    List.isChain_cons.2 ⟨fun _ _ => List.nil_prefix, h⟩
  rw [← after_nil, answers_after hgrowing]

theorem Growing.pairwise {buffers : List (List UInt8)} (h : Growing buffers) :
    buffers.Pairwise (· <+: ·) := by
  have : Trans (α := List UInt8) (· <+: ·) (· <+: ·) (· <+: ·) := ⟨List.IsPrefix.trans⟩
  exact List.IsChain.pairwise h

/-- On a growing buffer one framer answers as a fresh framer does on each buffer
    alone, and an answer other than "more bytes are needed" is repeated for
    good. -/
theorem Framer.answers_of_growing {buffers : List (List UInt8)} (h : Growing buffers) :
    answers {} buffers = buffers.map Framing.of ∧
      (answers {} buffers).Pairwise fun earlier later =>
        earlier ≠ .incomplete → later = earlier := by
  refine ⟨answers_new h, ?_⟩
  rw [answers_new h, List.pairwise_map]
  exact h.pairwise.imp fun hext hdone => Framing.of_longer hext hdone

/-- A global whose two lines arrive in pieces, then STOP, then another byte. -/
theorem Framer.answers_of_growing_global :
    let buffers : List (List UInt8) :=
      [[0x63, 0x6D], [0x63, 0x6D, 0x0A, 0x6E], [0x63, 0x6D, 0x0A, 0x6E],
        [0x63, 0x6D, 0x0A, 0x6E, 0x0A, 0x2E], [0x63, 0x6D, 0x0A, 0x6E, 0x0A, 0x2E, 0x4E]]
    Growing buffers ∧
      answers {} buffers = buffers.map Framing.of ∧
      (answers {} buffers).Pairwise fun earlier later =>
        earlier ≠ .incomplete → later = earlier :=
  have h := by decide
  ⟨h, answers_of_growing h⟩

end MetricIntake.Pickle
