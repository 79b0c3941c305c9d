-- SUMMARY: Where collecting a pickle halts: at the first read that waits too long, fails, overflows the limit or ends the pickle; points follow a complete pickle alone.
import MetricIntake.Proofs.Connection.Limit

/-!
# Where a pickle connection halts

The collector goes on as long as reads get bytes in time and more bytes are needed and
fit (`Pending`). `Halts` lists all that can come next instead. The idle limit is one of
these ways, and the only one that ends a connection with it: a read stalls, however long
all the reads before it took together. Only one of the others hands a complete pickle to
the unpickler; what is handed over otherwise is no frame.
-/

namespace MetricIntake.Connection

-- ---------------------------------------------------------------------------
-- Stalls and faults
-- ---------------------------------------------------------------------------

/-- Nothing comes of the read before the limit. -/
def Read.Stalls (l : Span) (r : Read) : Prop := l.nanos < r.wait ∨ r.arrival = .never

/-- A fault that is found before a batch is there. -/
inductive Fault.BeforeBatch : Fault → Prop
  | io {error : IoError} : BeforeBatch (.io error)
  | idle {limit : Span} : BeforeBatch (.idle limit)
  | tooLarge {max : Nat} : BeforeBatch (.decode (.payloadTooLarge max))
  | pickle {fault : MetricIntake.Pickle.Fault} : BeforeBatch (.decode (.pickle fault))

theorem elapsed_concat (before : List Read) (last : Read) :
    elapsed (before ++ [last]) = elapsed before + last.wait := by
  induction before with
  | nil => exact Nat.add_comm last.wait 0
  | cons r before ih => rw [List.cons_append, elapsed_cons, ih, elapsed_cons, Nat.add_assoc]

theorem received_concat (before : List Read) (last : Read) :
    received (before ++ [last]) = received before ++ last.bytes := by
  simp [received]

namespace Pickle

open MetricIntake.Pickle (Framer Framing Frame Unpickler offsetLimit)

variable {limit : Option Span} {maxPickle now moment : Nat} {buffer payload : List UInt8}
  {peer : Peer} {collected : Collected}

-- ---------------------------------------------------------------------------
-- Halting
-- ---------------------------------------------------------------------------

/-- How collecting halts at the next read, or because there is none. -/
inductive Halts (limit : Option Span) (maxPickle now : Nat) (buffer : List UInt8) :
    Peer → Collected → Prop
  | ended : Halts limit maxPickle now buffer [] (atEnd now buffer)
  | closed {wait : Nat} {peer : Peer} :
    InTime limit wait →
    Halts limit maxPickle now buffer (⟨wait, .closed⟩ :: peer) (atEnd (now + wait) buffer)
  | failed {wait : Nat} {e : IoError} {peer : Peer} :
    InTime limit wait →
    Halts limit maxPickle now buffer (⟨wait, .failure e⟩ :: peer) (.failed (now + wait) (.io e))
  | stalled {l : Span} {read : Read} {peer : Peer} :
    limit = some l → read.Stalls l →
    Halts limit maxPickle now buffer (read :: peer) (.failed (now + l.nanos) (.idle l))
  | never {wait : Nat} {peer : Peer} :
    limit = none → Halts limit maxPickle now buffer (⟨wait, .never⟩ :: peer) .never
  | tooLarge {read : Read} {peer : Peer} :
    read.Delivers limit → maxPickle < (buffer ++ read.bytes).length →
    Halts limit maxPickle now buffer (read :: peer)
      (.failed (now + read.wait) (.decode (.payloadTooLarge maxPickle)))
  | complete {read : Read} {peer : Peer} {length : Nat} :
    read.Delivers limit → (buffer ++ read.bytes).length ≤ maxPickle →
    Framing.of (buffer ++ read.bytes) = .complete length →
    Halts limit maxPickle now buffer (read :: peer)
      (.payload (now + read.wait) ((buffer ++ read.bytes).take length))
  | invalid {read : Read} {peer : Peer} :
    read.Delivers limit → (buffer ++ read.bytes).length ≤ maxPickle →
    Framing.of (buffer ++ read.bytes) = .invalid →
    Halts limit maxPickle now buffer (read :: peer)
      (.payload (now + read.wait) (buffer ++ read.bytes))

/-- A read that stalls ends the collecting. -/
theorem collectFrom_of_stalls {l : Span} {read : Read} (hlimit : limit = some l)
    (hstalls : read.Stalls l) (now : Nat) (f : Framer) (buffer : List UInt8) (peer : Peer) :
    collectFrom limit maxPickle (read :: peer) now f buffer =
      .failed (now + l.nanos) (.idle l) := by
  rw [collectFrom]
  cases hover : overdue limit now (now + read.wait) with
  | some late =>
    obtain ⟨l', expiry⟩ := late
    obtain ⟨hlimit', -, rfl⟩ := overdue_eq_some hover
    obtain rfl := Option.some.inj (hlimit.symm.trans hlimit')
    rfl
  | none =>
    rcases hstalls with hlate | hnever
    · have hwait := overdue_eq_none_iff.1 hover
      rw [Nat.add_sub_cancel_left] at hwait
      exact absurd hlate (hwait.not_late hlimit)
    · simp only [hnever, hlimit, waiting]

/-- With one more read the collector goes on, or halts. -/
theorem goes_on_or_halts (now : Nat) (buffer : List UInt8) (read : Read) (peer : Peer) :
    (read.Delivers limit ∧ Pending maxPickle (buffer ++ read.bytes)) ∨
      Halts limit maxPickle now buffer (read :: peer)
        (collectFrom limit maxPickle (read :: peer) now (.after buffer) buffer) := by
  by_cases hstalls : ∃ l, limit = some l ∧ read.Stalls l
  · obtain ⟨l, hlimit, hstalls⟩ := hstalls
    rw [collectFrom_of_stalls hlimit hstalls]
    exact .inr (.stalled hlimit hstalls)
  · obtain ⟨wait, arrival⟩ := read
    have htime : InTime limit wait := fun l hl =>
      Nat.le_of_not_lt fun hlate => hstalls ⟨l, hl, .inl hlate⟩
    cases arrival with
    | closed =>
      right
      simp only [collectFrom, htime.overdue]
      exact .closed htime
    | failure e =>
      right
      simp only [collectFrom, htime.overdue]
      exact .failed htime
    | never =>
      have hnone : limit = none := Option.eq_none_iff_forall_not_mem.2 fun l hl =>
        hstalls ⟨l, hl, .inr rfl⟩
      right
      simp only [collectFrom, waiting, hnone]
      exact .never rfl
    | bytes chunk =>
      have hread : Read.Delivers limit ⟨wait, .bytes chunk⟩ := ⟨htime, rfl⟩
      by_cases hfit : (buffer ++ chunk).length ≤ maxPickle
      · cases hframing : Framing.of (buffer ++ chunk) with
        | incomplete => exact .inl ⟨hread, hframing, hfit⟩
        | complete length =>
          right
          rw [collectFrom_read hread now buffer peer hfit]
          simp only [Read.bytes, hframing]
          exact .complete hread hfit hframing
        | invalid =>
          right
          rw [collectFrom_read hread now buffer peer hfit]
          simp only [Read.bytes, hframing]
          exact .invalid hread hfit hframing
      · right
        rw [collectFrom_overshoot hread now buffer peer (Nat.lt_of_not_le hfit)]
        exact .tooLarge hread (Nat.lt_of_not_le hfit)

/-- The collector goes on for some reads, and then halts. -/
theorem exists_halts_collectFrom (now : Nat) (hpending : Pending maxPickle buffer) (peer : Peer) :
    ∃ before rest, peer = before ++ rest ∧ (∀ r ∈ before, r.Delivers limit) ∧
      Pending maxPickle (buffer ++ received before) ∧
      Halts limit maxPickle (now + elapsed before) (buffer ++ received before) rest
        (collectFrom limit maxPickle peer now (.after buffer) buffer) := by
  induction peer generalizing now buffer with
  | nil =>
    refine ⟨[], [], rfl, nofun, ?_, ?_⟩
    · rwa [received_nil, List.append_nil]
    · rw [received_nil, List.append_nil]
      exact .ended
  | cons read peer ih =>
    rcases goes_on_or_halts now buffer read peer with ⟨hread, hmore⟩ | hhalts
    · obtain ⟨before, rest, rfl, hbefore, hall, hhalts⟩ := ih (now + read.wait) hmore
      refine ⟨read :: before, rest, rfl, List.forall_mem_cons.2 ⟨hread, hbefore⟩, ?_, ?_⟩
      · rwa [received_cons, ← List.append_assoc]
      · rw [collectFrom_read hread now buffer _ hmore.fits, hmore.incomplete, received_cons,
          elapsed_cons, ← List.append_assoc, ← Nat.add_assoc]
        exact hhalts
    · refine ⟨[], read :: peer, rfl, nofun, ?_, ?_⟩
      · rwa [received_nil, List.append_nil]
      · rw [received_nil, List.append_nil]
        exact hhalts

theorem pending_nil (maxPickle : Nat) : Pending maxPickle [] where
  incomplete := by rw [Framing.of, Framer.scan, List.drop_nil, Framer.scanFrom_nil]
  fits := Nat.zero_le maxPickle

theorem exists_halts_collect (settings : Settings) (peer : Peer) :
    ∃ before rest, peer = before ++ rest ∧ (∀ r ∈ before, r.Delivers settings.idle) ∧
      Pending settings.maxPickle (received before) ∧
      Halts settings.idle settings.maxPickle (elapsed before) (received before) rest
        (collect settings peer) := by
  have hhalts :=
    @exists_halts_collectFrom settings.idle _ [] 0 (pending_nil settings.maxPickle) peer
  rw [collect, ← Framer.after_nil]
  simpa only [Nat.zero_add, List.nil_append] using hhalts

-- ---------------------------------------------------------------------------
-- Stalls
-- ---------------------------------------------------------------------------

/-- At a moment the connection has waited as long as its limit says for a read that stalls,
    after reads that have got bytes in time and have left a pickle open that still fits. -/
def StallsAt (settings : Settings) (peer : Peer) (l : Span) (moment : Nat) : Prop :=
  settings.idle = some l ∧ ∃ before read after, peer = before ++ read :: after ∧
    (∀ r ∈ before, r.Delivers settings.idle) ∧ Pending settings.maxPickle (received before) ∧
    read.Stalls l ∧ moment = elapsed before + l.nanos

theorem collect_eq_idle_iff {settings : Settings} {l : Span} :
    collect settings peer = .failed moment (.idle l) ↔ StallsAt settings peer l moment := by
  constructor
  · intro hcollect
    obtain ⟨before, rest, rfl, hbefore, hpending, hhalts⟩ := exists_halts_collect settings peer
    rw [hcollect] at hhalts
    generalize hidle : Collected.failed moment (.idle l) = collected at hhalts
    cases hhalts with
    | stalled hlimit hstalls =>
      cases hidle
      exact ⟨hlimit, before, _, _, rfl, hbefore, hpending, hstalls, rfl⟩
    | ended | closed => exact absurd hidle (by unfold atEnd; split <;> nofun)
    | failed | never | tooLarge | complete | invalid => cases hidle
  · rintro ⟨hlimit, before, read, after, rfl, hbefore, hpending, hstalls, rfl⟩
    rw [collect, ← Framer.after_nil, collectFrom_of_pending 0 [] hbefore hpending, Nat.zero_add]
    exact collectFrom_of_stalls hlimit hstalls _ _ _ _

-- ---------------------------------------------------------------------------
-- Payloads
-- ---------------------------------------------------------------------------

theorem atEnd_eq_payload {moment' : Nat} (h : atEnd moment' buffer = .payload moment payload) :
    payload = buffer ∧ payload ≠ [] := by
  rw [atEnd] at h
  split at h
  · cases h
  · rename_i hne
    obtain ⟨-, rfl⟩ := Collected.payload.inj h
    exact ⟨rfl, by simpa using hne⟩

/-- No front of what leaves a pickle open is a frame. -/
theorem Pending.not_frame (h : Pending maxPickle buffer) (hfront : payload <+: buffer) :
    Framing.of payload ≠ .complete payload.length := by
  intro hcomplete
  rw [(h.of_prefix hfront).incomplete] at hcomplete
  cases hcomplete

/-- What is handed to the unpickler has bytes, and no more of them than the limit says. If it
    is a frame, its last byte has come with the latest read. -/
theorem payload_of_collect {settings : Settings}
    (hcollect : collect settings peer = .payload moment payload) :
    0 < payload.length ∧ payload.length ≤ settings.maxPickle ∧
      (Framing.of payload = .complete payload.length →
        ∃ before last after, peer = before ++ last :: after ∧
          (∀ r ∈ before ++ [last], r.Delivers settings.idle) ∧
          ¬ payload <+: received before ∧ payload <+: received (before ++ [last]) ∧
          moment = elapsed (before ++ [last])) := by
  obtain ⟨before, rest, rfl, hbefore, hpending, hhalts⟩ := exists_halts_collect settings peer
  rw [hcollect] at hhalts
  generalize hpayload : Collected.payload moment payload = collected at hhalts
  cases hhalts with
  | ended | closed =>
    obtain ⟨rfl, hne⟩ := atEnd_eq_payload hpayload.symm
    refine ⟨List.length_pos_iff.2 hne, hpending.fits, fun hcomplete => ?_⟩
    exact absurd hcomplete (hpending.not_frame List.prefix_rfl)
  | @complete read after length hread hfit hframing =>
    obtain ⟨rfl, rfl⟩ := Collected.payload.inj hpayload
    obtain ⟨hpos, hle⟩ := Framing.of_eq_complete_le hframing
    refine ⟨?_, (List.length_take_le' _ _).trans hfit, fun hcomplete => ?_⟩
    · rw [List.length_take]
      omega
    · refine ⟨before, read, after, rfl, ?_, fun hfront => ?_, ?_, ?_⟩
      · exact List.forall_mem_append.2 ⟨hbefore, List.forall_mem_singleton.2 hread⟩
      · exact hpending.not_frame hfront hcomplete
      · rw [received_concat]
        exact List.take_prefix _ _
      · rw [elapsed_concat]
  | @invalid read after hread hfit hframing =>
    obtain ⟨rfl, rfl⟩ := Collected.payload.inj hpayload
    refine ⟨?_, hfit, fun hcomplete => ?_⟩
    · refine List.length_pos_iff.2 fun hnil => ?_
      rw [hnil, (pending_nil 0).incomplete] at hframing
      cases hframing
    · rw [hframing] at hcomplete
      cases hcomplete
  | failed | stalled | never | tooLarge => cases hpayload

-- ---------------------------------------------------------------------------
-- Serving
-- ---------------------------------------------------------------------------

variable {unpickle : Unpickler} {settings : Settings}

/-- Points come of frames alone. -/
theorem framing_of_ingested (hunpickle : unpickle.AcceptsFrames)
    (hword : payload.length < offsetLimit)
    (hsome : (deliver unpickle moment payload).ingested ≠ []) :
    Framing.of payload = .complete payload.length := by
  by_contra hframing
  obtain ⟨e, hdeliver⟩ := deliver_of_refused (hunpickle.refuses hword hframing) moment
  rw [hdeliver] at hsome
  exact hsome rfl

/-- Of a batch that is not there no points come. -/
theorem ingested_of_beforeBatch {fault : Fault} {moment' : Nat} (hfault : fault.BeforeBatch)
    (h : (deliver unpickle moment payload).ending = .returned moment' (.error fault)) :
    (deliver unpickle moment payload).ingested = [] := by
  obtain ⟨points, result, hdecoded, hdeliver⟩ := exists_decoded unpickle payload
  rw [hdeliver] at h ⊢
  obtain ⟨-, rfl⟩ := Ending.returned.inj h
  cases hdecoded with
  | refused => rfl
  | cut hbatch hyields =>
    cases hfault with
    | tooLarge | pickle => cases hyields.ofRecord

theorem deliver_ne_idle {l : Span} {moment' : Nat} :
    (deliver unpickle moment payload).ending ≠ .returned moment' (.error (.idle l)) := by
  obtain ⟨points, result, hdecoded, hdeliver⟩ := exists_decoded unpickle payload
  rw [hdeliver]
  intro hending
  obtain ⟨-, rfl⟩ := Ending.returned.inj hending
  cases hdecoded

theorem serveWith_eq_idle_iff {l : Span} :
    (serveWith unpickle settings peer).ending = .returned moment (.error (.idle l)) ↔
      StallsAt settings peer l moment := by
  rw [← collect_eq_idle_iff, serveWith]
  cases collect settings peer with
  | payload moment' bytes => exact iff_of_false deliver_ne_idle (by simp)
  | nothing | failed | never => simp

/-- Points are ingested at the read that brings the last byte of a frame. -/
theorem exists_frame_of_ingested (hunpickle : unpickle.AcceptsFrames)
    (hword : settings.maxPickle < offsetLimit)
    (hsome : (serveWith unpickle settings peer).ingested ≠ []) :
    ∃ before last after frame, peer = before ++ last :: after ∧
      (∀ r ∈ before ++ [last], r.Delivers settings.idle) ∧
      Framing.of frame = .complete frame.length ∧
      ¬ frame <+: received before ∧ frame <+: received (before ++ [last]) ∧
      ∃ result, (serveWith unpickle settings peer).ending =
        .returned (elapsed (before ++ [last])) result := by
  cases hcollect : collect settings peer with
  | payload moment payload =>
    have hserve : serveWith unpickle settings peer = deliver unpickle moment payload := by
      rw [serveWith, hcollect]
    rw [hserve] at hsome ⊢
    obtain ⟨-, hfit, hcut⟩ := payload_of_collect hcollect
    have hframing := framing_of_ingested hunpickle (hfit.trans_lt hword) hsome
    obtain ⟨before, last, after, rfl, hreads, hbefore, hlast, rfl⟩ := hcut hframing
    obtain ⟨points, result, -, hdeliver⟩ := exists_decoded unpickle payload
    refine ⟨before, last, after, payload, rfl, hreads, hframing, hbefore, hlast, result, ?_⟩
    rw [hdeliver]
  | nothing | failed | never =>
    rw [serveWith, hcollect] at hsome
    exact absurd rfl hsome

theorem ingested_of_fault {fault : Fault} (hfault : fault.BeforeBatch)
    (hending : (serveWith unpickle settings peer).ending = .returned moment (.error fault)) :
    (serveWith unpickle settings peer).ingested = [] := by
  rw [serveWith] at hending ⊢
  cases hcollect : collect settings peer with
  | payload moment' payload =>
    rw [hcollect] at hending
    exact ingested_of_beforeBatch hfault hending
  | nothing | failed | never => rfl

/-- The unpickler is asked about nothing that is empty or longer than the size limit. -/
theorem serveWith_congr {unpickle' : Unpickler}
    (hsame : ∀ payload, 0 < payload.length → payload.length ≤ settings.maxPickle →
      unpickle' payload = unpickle payload) :
    serveWith unpickle' settings peer = serveWith unpickle settings peer := by
  rw [serveWith, serveWith]
  cases hcollect : collect settings peer with
  | payload moment payload =>
    obtain ⟨hpos, hfit, -⟩ := payload_of_collect hcollect
    simp only [deliver, Batch.ofPickleWith, hsame payload hpos hfit]
  | nothing | failed | never => rfl

/-- Points are ingested at the read that brings the last byte of a complete pickle, and at no
    other moment; a connection that ends with a fault of the stream, the limits or the pickle
    has ingested none. It ends with the idle limit exactly if a read stalls while the pickle
    is open and fits, and then as long after that read began as the limit says. The unpickler
    is asked about nothing that is empty or longer than the size limit. -/
theorem serveWith_of_reads (hunpickle : unpickle.AcceptsFrames)
    (hword : settings.maxPickle < offsetLimit) (peer : Peer) :
    let served := serveWith unpickle settings peer
    (served.ingested ≠ [] → ∃ before last after frame, peer = before ++ last :: after ∧
      (∀ r ∈ before ++ [last], r.Delivers settings.idle) ∧
      Framing.of frame = .complete frame.length ∧
      ¬ frame <+: received before ∧ frame <+: received (before ++ [last]) ∧
      ∃ result, served.ending = .returned (elapsed (before ++ [last])) result) ∧
    (∀ moment fault, served.ending = .returned moment (.error fault) → fault.BeforeBatch →
      served.ingested = []) ∧
    (∀ moment l, served.ending = .returned moment (.error (.idle l)) ↔
      StallsAt settings peer l moment) ∧
    ∀ unpickle' : Unpickler,
      (∀ payload, 0 < payload.length → payload.length ≤ settings.maxPickle →
        unpickle' payload = unpickle payload) →
      serveWith unpickle' settings peer = served := by
  intro served
  refine ⟨fun hsome => ?_, fun moment fault hending hfault => ?_, fun moment l => ?_,
    fun unpickle' hsame => ?_⟩
  · exact exists_frame_of_ingested hunpickle hword hsome
  · exact ingested_of_fault hfault hending
  · exact serveWith_eq_idle_iff
  · exact serveWith_congr hsame

/-- Two reads that take eight nanoseconds each re-arm a limit of ten. The last part of the
    pickle is in time if it takes ten more, and if it takes eleven the connection stalls. -/
theorem serveWith_of_reads_stalled :
    let pickle : List UInt8 :=
      [0x5D, 0x55, 0x01, 0x61, 0x4B, 0x01, 0x4B, 0x02, 0x86, 0x86, 0x61, 0x2E]
    let settings : Settings := { idle := some (.ofNanos 10), maxPickle := 12 }
    let begun : List Read := [⟨8, .bytes (pickle.take 3)⟩, ⟨8, .bytes ((pickle.drop 3).take 3)⟩]
    let inTime := begun ++ [⟨10, .bytes (pickle.drop 6)⟩]
    let late := begun ++ [⟨11, .bytes (pickle.drop 6)⟩]
    let serve := serveWith MetricIntake.Pickle.Value.ofPickle settings
    (∃ before last after frame, inTime = before ++ last :: after ∧
      (∀ r ∈ before ++ [last], r.Delivers settings.idle) ∧
      Framing.of frame = .complete frame.length ∧
      ¬ frame <+: received before ∧ frame <+: received (before ++ [last]) ∧
      ∃ result, (serve inTime).ending = .returned (elapsed (before ++ [last])) result) ∧
    (serve late).ending = .returned 26 (.error (.idle (.ofNanos 10))) ∧
    (serve late).ingested = [] := by
  intro pickle settings begun inTime late serve
  have hframes := MetricIntake.Pickle.Unpickler.runsPrograms_ofPickle.acceptsFrames
  have hword : settings.maxPickle < offsetLimit := by decide
  have hinTime := serveWith_of_reads hframes hword inTime
  have hlate := serveWith_of_reads hframes hword late
  have hingested : (serve inTime).ingested ≠ [] := by
    have hcollect : collect settings inTime = .payload 26 pickle := by cbv
    have hbatch : Batch.ofPickleWith MetricIntake.Pickle.Value.ofPickle pickle =
        .ok { records := [.tuple [.str "a", .tuple [.int64 1, .int64 2]]] } := by cbv
    have hyields : Batch.Yields [.tuple [.str "a", .tuple [.int64 1, .int64 2]]]
        [⟨"a", ⟨1, by decide, by decide⟩, .ofInt 2⟩] none := .point rfl .done
    simp [serve, serveWith, hcollect, deliver, hbatch, Batch.points_of_yields hyields]
  have hstalls : StallsAt settings late (.ofNanos 10) 26 := by
    have hwait : InTime settings.idle 8 := fun l h => Option.some.inj h ▸ by decide
    refine ⟨rfl, begun, ⟨11, .bytes (pickle.drop 6)⟩, [], rfl, ?_, ?_, .inl (by decide), rfl⟩
    · exact List.forall_mem_cons.2 ⟨⟨hwait, rfl⟩, List.forall_mem_singleton.2 ⟨hwait, rfl⟩⟩
    · exact ⟨by cbv, by decide⟩
  have hending := (hlate.2.2.1 26 (.ofNanos 10)).2 hstalls
  exact ⟨hinTime.1 hingested, hending, hlate.2.1 _ _ hending .idle⟩

end Pickle
end MetricIntake.Connection
