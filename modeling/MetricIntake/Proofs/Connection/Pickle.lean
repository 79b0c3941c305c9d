-- SUMMARY: Serving a pickle connection comes to unpickling the first complete pickle, however the bytes are cut into reads.
import MetricIntake.Connection.Pickle
import MetricIntake.Proofs.Connection.Delivery
import MetricIntake.Proofs.Pickle.Batch
import MetricIntake.Proofs.Pickle.Unpickler

/-!
# Pickle connections

The collector keeps a framer beside its buffer, and the framer is always the one
that a scan of the buffer leaves. So what a read comes to depends on the buffer
alone, and the collector stops at the read that brings the last byte of the first
complete pickle. Without such a pickle it hands some part of the stream to the
unpickler, which no unpickler of the protocols accepts.
-/

namespace MetricIntake.Connection.Pickle

open Delivery
open MetricIntake.Pickle (Framer Framing Frame Unpickler offsetLimit)

variable {limit : Option Span} {maxPickle : Nat} {pickle : List UInt8}

/-! ## Collecting -/

/-- More bytes of a pickle are needed, and there is room for what has been received. -/
structure Pending (maxPickle : Nat) (buffer : List UInt8) : Prop where
  incomplete : Framing.of buffer = .incomplete
  fits : buffer.length ≤ maxPickle

/-- What pends has pended before. -/
theorem Pending.of_prefix {buffer longer : List UInt8} (h : Pending maxPickle longer)
    (hfront : buffer <+: longer) : Pending maxPickle buffer where
  incomplete := by
    by_contra hdone
    rw [← Framing.of_longer hfront hdone] at hdone
    exact hdone h.incomplete
  fits := hfront.length_le.trans h.fits

/-- What a read that gets bytes comes to, with the framer that the buffer before it has
    left. -/
theorem collectFrom_read {read : Read} (h : read.Delivers limit) (now : Nat)
    (buffer : List UInt8) (peer : Peer) (hfit : (buffer ++ read.bytes).length ≤ maxPickle) :
    collectFrom limit maxPickle (read :: peer) now (.after buffer) buffer =
      match Framing.of (buffer ++ read.bytes) with
      | .complete length => .payload (now + read.wait) ((buffer ++ read.bytes).take length)
      | .invalid => .payload (now + read.wait) (buffer ++ read.bytes)
      | .incomplete =>
        collectFrom limit maxPickle peer (now + read.wait) (.after (buffer ++ read.bytes))
          (buffer ++ read.bytes) := by
  rw [collectFrom]
  simp only [h.inTime.overdue, h.arrival, if_neg (Nat.not_lt.2 hfit),
    Framer.scan_after (List.prefix_append buffer read.bytes)]
  rw [Framing.of, Framer.after]
  cases Framer.scan {} (buffer ++ read.bytes) with
  | mk answer f => cases answer <;> rfl

/-- A read that leads beyond the limit is the last one. -/
theorem collectFrom_overshoot {read : Read} (h : read.Delivers limit) (now : Nat)
    (buffer : List UInt8) (peer : Peer) (hover : maxPickle < (buffer ++ read.bytes).length)
    (f : Framer) :
    collectFrom limit maxPickle (read :: peer) now f buffer =
      .failed (now + read.wait) (.decode (.payloadTooLarge maxPickle)) := by
  rw [collectFrom]
  simp only [h.inTime.overdue, h.arrival, if_pos hover]

/-- As long as more bytes are needed and fit, the collector goes on. -/
theorem collectFrom_of_pending (now : Nat) (buffer : List UInt8) {before : List Read}
    (hbefore : ∀ r ∈ before, r.Delivers limit)
    (hpending : Pending maxPickle (buffer ++ received before)) (peer : Peer) :
    collectFrom limit maxPickle (before ++ peer) now (.after buffer) buffer =
      collectFrom limit maxPickle peer (now + elapsed before) (.after (buffer ++ received before))
        (buffer ++ received before) := by
  induction before generalizing now buffer with
  | nil => simp only [List.nil_append, received_nil, List.append_nil, elapsed_nil, Nat.add_zero]
  | cons read before ih =>
    obtain ⟨hread, hbefore⟩ := List.forall_mem_cons.1 hbefore
    rw [received_cons, ← List.append_assoc] at hpending ⊢
    have hpart := hpending.of_prefix (List.prefix_append (buffer ++ read.bytes) _)
    rw [List.cons_append, collectFrom_read hread now buffer _ hpart.fits, hpart.incomplete,
      elapsed_cons, ← Nat.add_assoc]
    exact ih (now + read.wait) (buffer ++ read.bytes) hbefore hpending

/-- As long as a pickle that fits goes on, so does the collector. -/
theorem collectFrom_of_part (now : Nat) (buffer : List UInt8)
    (hpickle : Framing.of pickle = .complete pickle.length) (hfit : pickle.length ≤ maxPickle)
    {before : List (Delivery limit)} (hpart : buffer ++ bytes before <+: pickle)
    (hmore : (buffer ++ bytes before).length < pickle.length) (peer : Peer) :
    collectFrom limit maxPickle (before.map toRead ++ peer) now (.after buffer) buffer =
      collectFrom limit maxPickle peer (now + waited before) (.after (buffer ++ bytes before))
        (buffer ++ bytes before) := by
  have hne : buffer ++ bytes before ≠ pickle := by
    rintro heq
    rw [heq] at hmore
    exact Nat.lt_irrefl _ hmore
  have hpending : Pending maxPickle (buffer ++ bytes before) :=
    ⟨Framing.of_part hpickle hpart hne, hpart.length_le.trans hfit⟩
  rw [← received_map_toRead] at hpending ⊢
  rw [← elapsed_map_toRead]
  exact collectFrom_of_pending now buffer (List.forall_mem_map.2 fun d _ => d.delivers_toRead)
    hpending peer

/-- The last byte of a pickle comes with one of the reads. -/
theorem exists_cut {buffer : List UInt8} {deliveries : List (Delivery limit)}
    (hfront : pickle <+: buffer ++ bytes deliveries) (hmore : buffer.length < pickle.length) :
    ∃ before last after, deliveries = before ++ last :: after ∧
      (buffer ++ bytes before).length < pickle.length ∧
      pickle.length ≤ (buffer ++ bytes (before ++ [last])).length := by
  induction deliveries generalizing buffer with
  | nil =>
    rw [bytes_nil, List.append_nil] at hfront
    exact absurd hfront.length_le (Nat.not_le.2 hmore)
  | cons d deliveries ih =>
    rw [bytes_cons, ← List.append_assoc] at hfront
    rcases Nat.lt_or_ge (buffer ++ d.chunk).length pickle.length with hlt | hge
    · obtain ⟨before, last, after, rfl, hbefore, hlast⟩ := ih hfront hlt
      refine ⟨d :: before, last, after, rfl, ?_, ?_⟩
      · rwa [bytes_cons, ← List.append_assoc]
      · rwa [List.cons_append, bytes_cons, ← List.append_assoc]
    · refine ⟨[], d, deliveries, rfl, ?_, ?_⟩
      · rwa [bytes_nil, List.append_nil]
      · rwa [List.nil_append, bytes_cons, bytes_nil, List.append_nil]

/-- At the read that brings the last byte of a pickle that fits, the collector stops. It
    keeps nothing of what follows the pickle, but the limit holds for that, too. -/
theorem collectFrom_of_cut (now : Nat) (buffer : List UInt8)
    (hpickle : Framing.of pickle = .complete pickle.length) (hfit : pickle.length ≤ maxPickle)
    {before after : List (Delivery limit)} {last : Delivery limit}
    (hfront : pickle <+: buffer ++ bytes (before ++ last :: after))
    (hbefore : (buffer ++ bytes before).length < pickle.length)
    (hlast : pickle.length ≤ (buffer ++ bytes (before ++ [last])).length) (tail : Peer) :
    collectFrom limit maxPickle ((before ++ last :: after).map toRead ++ tail) now (.after buffer)
        buffer =
      if maxPickle < (buffer ++ bytes (before ++ [last])).length then
        .failed (now + waited (before ++ [last])) (.decode (.payloadTooLarge maxPickle))
      else .payload (now + waited (before ++ [last])) pickle := by
  have hbytes : buffer ++ bytes (before ++ [last]) = buffer ++ bytes before ++ last.chunk := by
    rw [bytes_append, bytes_cons, bytes_nil, List.append_nil, List.append_assoc]
  have hwaited : now + waited (before ++ [last]) = now + waited before + last.wait := by
    rw [waited_append, waited_cons, waited_nil, Nat.add_zero, Nat.add_assoc]
  have hall : buffer ++ bytes (before ++ last :: after) =
      buffer ++ bytes before ++ last.chunk ++ bytes after := by
    rw [bytes_append, bytes_cons]
    simp only [List.append_assoc]
  rw [hbytes] at hlast ⊢
  rw [hall] at hfront
  have hwhole : pickle <+: buffer ++ bytes before ++ last.chunk :=
    List.prefix_of_prefix_length_le hfront (List.prefix_append _ _) hlast
  have hpart : buffer ++ bytes before <+: pickle :=
    List.prefix_of_prefix_length_le (by rw [List.append_assoc]; exact List.prefix_append _ _) hfront
      (Nat.le_of_lt hbefore)
  rw [List.map_append, List.append_assoc, collectFrom_of_part now buffer hpickle hfit hpart hbefore,
    hwaited, List.map_cons, List.cons_append]
  split
  · rename_i hover
    exact collectFrom_overshoot last.delivers_toRead _ _ _ hover _
  · rename_i hunder
    rw [collectFrom_read last.delivers_toRead _ _ _ (Nat.not_lt.1 hunder)]
    simp only [bytes_toRead, wait_toRead, Framing.of_whole hpickle hwhole,
      ← List.prefix_iff_eq_take.1 hwhole]

/-- The collector stops at the delivery that brings the last byte of a complete
    pickle, and keeps nothing of what follows it. -/
theorem collectFrom_of_complete (now : Nat) (buffer : List UInt8)
    (hpickle : Framing.of pickle = .complete pickle.length)
    {deliveries : List (Delivery limit)} (hfit : (buffer ++ bytes deliveries).length ≤ maxPickle)
    (hfront : pickle <+: buffer ++ bytes deliveries) (hmore : buffer.length < pickle.length)
    (tail : Peer) :
    ∃ before last after, deliveries = before ++ last :: after ∧
      (buffer ++ bytes before).length < pickle.length ∧
      pickle.length ≤ (buffer ++ bytes (before ++ [last])).length ∧
      collectFrom limit maxPickle (deliveries.map toRead ++ tail) now (.after buffer) buffer =
        .payload (now + waited (before ++ [last])) pickle := by
  obtain ⟨before, last, after, rfl, hbefore, hlast⟩ := exists_cut hfront hmore
  refine ⟨before, last, after, rfl, hbefore, hlast, ?_⟩
  have hunder : ¬ maxPickle < (buffer ++ bytes (before ++ [last])).length := by
    simp only [bytes_append, bytes_cons, bytes_nil, List.append_nil, List.length_append] at hfit ⊢
    omega
  rw [collectFrom_of_cut now buffer hpickle (Nat.le_trans hfront.length_le hfit) hfront hbefore hlast,
    if_neg hunder]

/-- A stream that ends is collected in part at least, or has no bytes. -/
theorem collectFrom_of_ends (now : Nat) (buffer : List UInt8) {deliveries : List (Delivery limit)}
    (hfit : (buffer ++ bytes deliveries).length ≤ maxPickle) {tail : Peer}
    (htail : EndsInTime limit tail) :
    ∃ moment,
      (buffer ++ bytes deliveries = [] ∧
        collectFrom limit maxPickle (deliveries.map toRead ++ tail) now (.after buffer) buffer =
          .nothing moment) ∨
      (buffer ++ bytes deliveries ≠ [] ∧ ∃ payload, payload <+: buffer ++ bytes deliveries ∧
        collectFrom limit maxPickle (deliveries.map toRead ++ tail) now (.after buffer) buffer =
          .payload moment payload) := by
  induction deliveries generalizing now buffer with
  | nil =>
    rw [bytes_nil, List.append_nil, List.map_nil, List.nil_append]
    have hend : ∃ moment,
        collectFrom limit maxPickle tail now (.after buffer) buffer = atEnd moment buffer := by
      cases htail with
      | ended => exact ⟨now, rfl⟩
      | @closed wait peer hwait =>
        refine ⟨now + wait, ?_⟩
        rw [collectFrom]
        simp only [hwait.overdue]
    obtain ⟨moment, hcollect⟩ := hend
    refine ⟨moment, ?_⟩
    rw [hcollect]
    cases buffer with
    | nil => exact .inl ⟨rfl, rfl⟩
    | cons b buffer => exact .inr ⟨nofun, _, List.prefix_rfl, rfl⟩
  | cons d deliveries ih =>
    rw [bytes_cons, ← List.append_assoc] at hfit ⊢
    have hne : buffer ++ d.chunk ++ bytes deliveries ≠ [] := by
      simp [d.chunk_ne_nil]
    have hread : (buffer ++ d.chunk).length ≤ maxPickle :=
      Nat.le_trans (List.prefix_append _ _).length_le hfit
    rw [List.map_cons, List.cons_append, collectFrom_read d.delivers_toRead now buffer _ hread,
      bytes_toRead, wait_toRead]
    cases Framing.of (buffer ++ d.chunk) with
    | incomplete => exact ih (now + d.wait) (buffer ++ d.chunk) hfit
    | invalid =>
      exact ⟨now + d.wait, .inr ⟨hne, _, List.prefix_append _ _, rfl⟩⟩
    | complete length =>
      have hpart := (List.take_prefix length (buffer ++ d.chunk)).trans (List.prefix_append _ (bytes deliveries))
      exact ⟨now + d.wait, .inr ⟨hne, _, hpart, rfl⟩⟩

/-! ## Delivering -/

/-- What unpickling a payload comes to: the points for the sink, and the result. -/
inductive Decoded (unpickle : Unpickler) (payload : List UInt8) :
    List Point → Except Fault Summary → Prop
  | refused {e : DecodeError} :
    Batch.ofPickleWith unpickle payload = .error e →
    Decoded unpickle payload [] (.error (.decode e))
  | whole {b : Batch} {points : List Point} :
    Batch.ofPickleWith unpickle payload = .ok b → Batch.Yields b.records points none →
    Decoded unpickle payload points (.ok { points := points.length, skipped := 0 })
  | cut {b : Batch} {points : List Point} {e : DecodeError} :
    Batch.ofPickleWith unpickle payload = .ok b → Batch.Yields b.records points (some e) →
    Decoded unpickle payload points (.error (.decode e))

theorem exists_decoded (unpickle : Unpickler) (payload : List UInt8) :
    ∃ points result, Decoded unpickle payload points result ∧
      ∀ moment, deliver unpickle moment payload =
        { ingested := points, ending := .returned moment result } := by
  cases hbatch : Batch.ofPickleWith unpickle payload with
  | error e =>
    refine ⟨[], _, .refused hbatch, fun moment => ?_⟩
    rw [deliver, hbatch]
  | ok b =>
    obtain ⟨points, fault?, hyields⟩ := Batch.exists_yields b.records
    have hpoints : b.points = points := by
      rw [Batch.eq_of_ofPickleWith hbatch, Batch.points_of_yields hyields]
    have hfault : b.fault? = fault? := by
      rw [Batch.eq_of_ofPickleWith hbatch, Batch.fault?_of_yields hyields]
    cases fault? with
    | none =>
      refine ⟨points, _, .whole hbatch hyields, fun moment => ?_⟩
      simp only [deliver, hbatch, hpoints, hfault]
    | some e =>
      refine ⟨points, _, .cut hbatch hyields, fun moment => ?_⟩
      simp only [deliver, hbatch, hpoints, hfault]

/-- A payload that is no frame is refused as a whole. -/
theorem deliver_of_refused {unpickle : Unpickler} {payload : List UInt8}
    (h : ∃ fault, unpickle payload = .error fault) (moment : Nat) :
    ∃ e, deliver unpickle moment payload =
      { ingested := [], ending := .returned moment (.error (.decode e)) } := by
  obtain ⟨fault, hfault⟩ := h
  have hbatch : Batch.ofPickleWith unpickle payload = .error (.pickle fault) := by
    rw [Batch.ofPickleWith, hfault]
    rfl
  refine ⟨.pickle fault, ?_⟩
  rw [deliver, hbatch]

/-! ## Serving -/

variable {unpickle : Unpickler} {settings : Settings} {deliveries : List (Delivery settings.idle)}

theorem serveWith_of_complete (hfit : (bytes deliveries).length ≤ settings.maxPickle)
    (hfront : pickle <+: bytes deliveries) (hpickle : Framing.of pickle = .complete pickle.length)
    (tail : Peer) :
    ∃ before last after, deliveries = before ++ last :: after ∧
      (bytes before).length < pickle.length ∧
      pickle.length ≤ (bytes (before ++ [last])).length ∧
      serveWith unpickle settings (deliveries.map toRead ++ tail) =
        deliver unpickle (waited (before ++ [last])) pickle := by
  have hpos : 0 < pickle.length := (Framing.of_eq_complete_le hpickle).1
  obtain ⟨before, last, after, hcut, hbefore, hlast, hcollect⟩ :=
    collectFrom_of_complete 0 [] hpickle hfit hfront hpos tail
  refine ⟨before, last, after, hcut, hbefore, hlast, ?_⟩
  rw [Framer.after_nil, Nat.zero_add] at hcollect
  rw [serveWith, collect, hcollect]

theorem serveWith_of_ends (hunpickle : unpickle.AcceptsFrames)
    (hmemory : (bytes deliveries).length < offsetLimit)
    (hfit : (bytes deliveries).length ≤ settings.maxPickle)
    (hnone : ∀ pickle, pickle <+: bytes deliveries → Framing.of pickle ≠ .complete pickle.length)
    {tail : Peer} (htail : EndsInTime settings.idle tail) :
    ∃ moment,
      (bytes deliveries = [] ∧ serveWith unpickle settings (deliveries.map toRead ++ tail) =
        { ingested := [], ending := .returned moment (.ok { points := 0, skipped := 0 }) }) ∨
      (bytes deliveries ≠ [] ∧ ∃ e, serveWith unpickle settings (deliveries.map toRead ++ tail) =
        { ingested := [], ending := .returned moment (.error (.decode e)) }) := by
  obtain ⟨moment, ⟨hempty, hcollect⟩ | ⟨hne, payload, hpart, hcollect⟩⟩ :=
    collectFrom_of_ends 0 [] hfit htail
  · refine ⟨moment, .inl ⟨hempty, ?_⟩⟩
    rw [Framer.after_nil] at hcollect
    rw [serveWith, collect, hcollect]
  · have hrefused : ∃ fault, unpickle payload = .error fault :=
      hunpickle.refuses (Nat.lt_of_le_of_lt hpart.length_le hmemory) (hnone payload hpart)
    refine ⟨moment, .inr ⟨hne, ?_⟩⟩
    rw [Framer.after_nil] at hcollect
    rw [serveWith, collect, hcollect]
    exact deliver_of_refused hrefused moment

/-- Two connections end alike: the same points are ingested, and both succeed or
    both fail. -/
def Alike (o o' : Outcome) : Prop :=
  o.ingested = o'.ingested ∧ ∃ moment moment' result result',
    o.ending = .returned moment result ∧ o'.ending = .returned moment' result' ∧
      (result.isOk ↔ result'.isOk)

/-- It makes no difference how the bytes of a stream are cut into reads, if they hold a
    complete pickle or the stream ends. -/
theorem alike_of_same_bytes (hunpickle : unpickle.AcceptsFrames)
    (hmemory : (bytes deliveries).length < offsetLimit)
    (hfit : (bytes deliveries).length ≤ settings.maxPickle)
    {deliveries' : List (Delivery settings.idle)} (hsame : bytes deliveries' = bytes deliveries)
    {tail tail' : Peer}
    (hends : (∃ pickle, pickle <+: bytes deliveries ∧ Framing.of pickle = .complete pickle.length) ∨
      EndsInTime settings.idle tail ∧ EndsInTime settings.idle tail') :
    Alike (serveWith unpickle settings (deliveries.map toRead ++ tail))
      (serveWith unpickle settings (deliveries'.map toRead ++ tail')) := by
  have hmemory' := hsame ▸ hmemory
  have hfit' := hsame ▸ hfit
  by_cases hsome : ∃ pickle, pickle <+: bytes deliveries ∧ Framing.of pickle = .complete pickle.length
  · obtain ⟨pickle, hfront, hpickle⟩ := hsome
    obtain ⟨points, result, -, hdeliver⟩ := exists_decoded unpickle pickle
    obtain ⟨_, _, _, -, -, -, hserve⟩ := serveWith_of_complete hfit hfront hpickle tail
    obtain ⟨_, _, _, -, -, -, hserve'⟩ := serveWith_of_complete hfit' (hsame ▸ hfront) hpickle tail'
    rw [hserve, hserve', hdeliver, hdeliver]
    exact ⟨rfl, _, _, _, _, rfl, rfl, Iff.rfl⟩
  · have hnone : ∀ pickle, pickle <+: bytes deliveries →
        Framing.of pickle ≠ .complete pickle.length :=
      fun pickle hfront hpickle => hsome ⟨pickle, hfront, hpickle⟩
    obtain ⟨htail, htail'⟩ := hends.resolve_left hsome
    have hends := serveWith_of_ends hunpickle hmemory hfit hnone htail
    have hends' := serveWith_of_ends hunpickle hmemory' hfit' (hsame ▸ hnone) htail'
    rw [hsame] at hends'
    obtain ⟨_, ⟨hempty, hserve⟩ | ⟨hne, _, hserve⟩⟩ := hends
    · obtain ⟨_, ⟨-, hserve'⟩ | ⟨hne, -⟩⟩ := hends'
      · rw [hserve, hserve']
        exact ⟨rfl, _, _, _, _, rfl, rfl, Iff.rfl⟩
      · exact absurd hempty hne
    · obtain ⟨_, ⟨hempty, -⟩ | ⟨-, _, hserve'⟩⟩ := hends'
      · exact absurd hempty hne
      · rw [hserve, hserve']
        exact ⟨rfl, _, _, _, _, rfl, rfl, Iff.rfl⟩

/-- Serving a stream that fits comes to unpickling the first complete pickle, at the
    read that brings its last byte, and to nothing else: what follows is ignored, a
    stream without such a pickle is refused when it ends, unless it is empty, and the
    cut into reads makes no difference. -/
theorem serveWith_of_deliveries (hunpickle : unpickle.AcceptsFrames)
    (hmemory : (bytes deliveries).length < offsetLimit)
    (hfit : (bytes deliveries).length ≤ settings.maxPickle) :
    (∀ pickle tail, pickle <+: bytes deliveries → Framing.of pickle = .complete pickle.length →
      ∃ before last after points result, deliveries = before ++ last :: after ∧
        (bytes before).length < pickle.length ∧
        pickle.length ≤ (bytes (before ++ [last])).length ∧
        Decoded unpickle pickle points result ∧
        serveWith unpickle settings (deliveries.map toRead ++ tail) =
          { ingested := points, ending := .returned (waited (before ++ [last])) result }) ∧
    (∀ tail, EndsInTime settings.idle tail →
      (∀ pickle, pickle <+: bytes deliveries → Framing.of pickle ≠ .complete pickle.length) →
      ∃ moment,
        (bytes deliveries = [] ∧ serveWith unpickle settings (deliveries.map toRead ++ tail) =
          { ingested := [], ending := .returned moment (.ok { points := 0, skipped := 0 }) }) ∨
        (bytes deliveries ≠ [] ∧ ∃ e, serveWith unpickle settings (deliveries.map toRead ++ tail) =
          { ingested := [], ending := .returned moment (.error (.decode e)) })) ∧
    ∀ (deliveries' : List (Delivery settings.idle)) (tail tail' : Peer),
      bytes deliveries' = bytes deliveries →
      ((∃ pickle, pickle <+: bytes deliveries ∧ Framing.of pickle = .complete pickle.length) ∨
        EndsInTime settings.idle tail ∧ EndsInTime settings.idle tail') →
      Alike (serveWith unpickle settings (deliveries.map toRead ++ tail))
        (serveWith unpickle settings (deliveries'.map toRead ++ tail')) := by
  refine ⟨?_, ?_, ?_⟩
  · intro pickle tail hfront hpickle
    obtain ⟨before, last, after, hcut, hbefore, hlast, hserve⟩ :=
      serveWith_of_complete hfit hfront hpickle tail
    obtain ⟨points, result, hdecoded, hdeliver⟩ := exists_decoded unpickle pickle
    refine ⟨before, last, after, points, result, hcut, hbefore, hlast, hdecoded, ?_⟩
    rw [hserve, hdeliver]
  · intro tail htail hnone
    exact serveWith_of_ends hunpickle hmemory hfit hnone htail
  · intro deliveries' tail tail' hsame hends
    exact alike_of_same_bytes hunpickle hmemory hfit hsame hends

/-- A batch of one record that arrives in two reads, with a byte behind it and a peer
    that never closes; the same bytes in one read; and the first of the two reads alone. -/
theorem serveWith_of_deliveries_record :
    let pickle : List UInt8 :=
      [0x5D, 0x55, 0x01, 0x61, 0x4B, 0x01, 0x4B, 0x02, 0x86, 0x86, 0x61, 0x2E]
    let settings : Settings := {}
    let inTime : InTime settings.idle 5 := fun l h => Option.some.inj h ▸ by decide
    let first : Delivery settings.idle := ⟨5, pickle.take 3, inTime, by decide⟩
    let second : Delivery settings.idle := ⟨5, pickle.drop 3 ++ [0x41], inTime, by decide⟩
    let whole : Delivery settings.idle := ⟨5, pickle ++ [0x41], inTime, by decide⟩
    let serve := serveWith MetricIntake.Pickle.Value.ofPickle settings
    (∃ before last after points result, [first, second] = before ++ last :: after ∧
      (bytes before).length < pickle.length ∧
      pickle.length ≤ (bytes (before ++ [last])).length ∧
      Decoded MetricIntake.Pickle.Value.ofPickle pickle points result ∧
      serve ([first, second].map toRead ++ [⟨0, .never⟩]) =
        { ingested := points, ending := .returned (waited (before ++ [last])) result }) ∧
    Alike (serve ([first, second].map toRead ++ [])) (serve ([whole].map toRead ++ [])) ∧
    ∃ moment e, serve ([first].map toRead ++ [⟨5, .closed⟩]) =
      { ingested := [], ending := .returned moment (.error (.decode e)) } := by
  intro pickle settings inTime first second whole serve
  have hframes := MetricIntake.Pickle.Unpickler.runsPrograms_ofPickle.acceptsFrames
  have hboth := @serveWith_of_deliveries MetricIntake.Pickle.Value.ofPickle settings [first, second]
    hframes (by decide) (by decide)
  have hfirst := @serveWith_of_deliveries MetricIntake.Pickle.Value.ofPickle settings [first]
    hframes (by decide) (by decide)
  refine ⟨?_, ?_, ?_⟩
  · exact hboth.1 pickle [⟨0, .never⟩] (by decide) (by cbv)
  · exact hboth.2.2 [whole] [] [] rfl (.inr ⟨.ended, .ended⟩)
  · have hincomplete : Framing.of (bytes [first]) = .incomplete := by cbv
    have hnone : ∀ part, part <+: bytes [first] → Framing.of part ≠ .complete part.length := by
      intro part hpart hcomplete
      have hsame := Framing.of_longer hpart (by simp [hcomplete])
      rw [hincomplete, hcomplete] at hsame
      cases hsame
    obtain ⟨moment, ⟨hempty, -⟩ | ⟨-, e, hserve⟩⟩ := hfirst.2.1 _ (.closed inTime) hnone
    · cases hempty
    · exact ⟨moment, e, hserve⟩

end MetricIntake.Connection.Pickle
