-- SUMMARY: A batch asked record by record, any number of times: what each call answers, what all calls yield, and how many records may still come.
import MetricIntake.Proofs.Pickle.Record

/-!
# Calls for records

Whoever reads a batch asks for one record after the other, and may go on asking
when the batch has nothing more to say. A call is answered by the record whose turn
it is until one is malformed, and by nothing ever after. The number of records that
remain is a bound and no promise: a malformed record takes the rest with it.
-/

namespace MetricIntake.Batch

open MetricIntake.Pickle (Value)
open MetricIntake.Pickle.Value (Denotes)

/-- The answer to a call for the next record, and the batch that the call leaves. A
    batch that has no answer stays as it is. -/
def call (b : Batch) : Option (Except DecodeError Point) × Batch :=
  match b.next with
  | none => (none, b)
  | some (item, b') => (some item, b')

/-- The batch after a number of calls. -/
def after (b : Batch) : (calls : Nat) → Batch
  | 0 => b
  | calls + 1 => b.call.2.after calls

/-- The answer to a call; the first call has the index 0. -/
def answer? (b : Batch) (index : Nat) : Option (Except DecodeError Point) :=
  (b.after index).call.1

/-- The items among the answers to a number of calls, in order. -/
def yielded (b : Batch) (calls : Nat) : List (Except DecodeError Point) :=
  (List.range calls).filterMap b.answer?

variable {b : Batch} {record : Value} {records : List Value} {p : Point} {e : DecodeError}
  {index calls : Nat}

/-! ## One call -/

theorem call_of_denotes (h : Denotes record p) :
    call { records := record :: records } = (some (.ok p), { records }) := by
  simp [call, next, Point.ofRecord_of_denotes h]

theorem call_of_malformed (h : Point.ofRecord record = .error e) :
    call { records := record :: records } = (some (.error e), { records, failed := true }) := by
  simp [call, next, h]

/-- The batch has nothing more to say: it has failed, or its records are used up. -/
def Exhausted (b : Batch) : Prop := b.failed = true ∨ b.records = []

theorem Exhausted.call_eq (h : b.Exhausted) : b.call = (none, b) := by
  obtain ⟨records, failed⟩ := b
  rcases h with rfl | rfl
  · rfl
  · cases failed <;> rfl

theorem remaining_mk (records : List Value) : remaining { records } = records.length := rfl

theorem exhausted_of_failed : Exhausted { records, failed := true } := .inl rfl

theorem exhausted_nil : Exhausted { records := [] } := .inr rfl

/-- A batch is exhausted, or its next record is a point, or this record is malformed. -/
theorem cases_next (b : Batch) :
    b.Exhausted ∨ ∃ record records, b = { records := record :: records } ∧
      ((∃ p, Denotes record p) ∨ ∃ e, Point.ofRecord record = .error e) := by
  obtain ⟨records, failed⟩ := b
  cases failed with
  | true => exact .inl exhausted_of_failed
  | false =>
    cases records with
    | nil => exact .inl exhausted_nil
    | cons record records =>
      refine .inr ⟨record, records, rfl, ?_⟩
      rcases Point.settled record with ⟨p, hdenotes, -⟩ | ⟨e, -, herror⟩
      · exact .inl ⟨p, hdenotes⟩
      · exact .inr ⟨e, herror⟩

/-! ## Any number of calls -/

theorem yielded_succ (b : Batch) (calls : Nat) :
    b.yielded (calls + 1) = b.call.1.toList ++ b.call.2.yielded calls := by
  have hlater : b.answer? ∘ Nat.succ = b.call.2.answer? := rfl
  have hfirst : b.answer? 0 = b.call.1 := rfl
  rw [yielded, List.range_succ_eq_map, List.filterMap_cons, List.filterMap_map, hlater, hfirst]
  cases b.call.1 <;> rfl

theorem Exhausted.after_eq (h : b.Exhausted) : b.after calls = b := by
  induction calls with
  | zero => rfl
  | succ calls ih => rw [after, h.call_eq, ih]

theorem Exhausted.answer?_eq (h : b.Exhausted) : b.answer? index = none := by
  rw [answer?, h.after_eq, h.call_eq]

theorem Exhausted.yielded_eq (h : b.Exhausted) : b.yielded calls = [] :=
  List.filterMap_eq_nil_iff.2 fun _ _ => h.answer?_eq

theorem Exhausted.remaining_eq (h : b.Exhausted) : b.remaining = 0 := by
  obtain ⟨records, failed⟩ := b
  rcases h with rfl | rfl
  · rfl
  · cases failed <;> rfl

/-- The turn of a record comes if no record before it is malformed. -/
theorem answer?_of_denotes_before (hrecord : records[index]? = some record)
    (hbefore : ∀ earlier ∈ records.take index, ∃ p, Denotes earlier p) :
    answer? { records } index = some (Point.ofRecord record) := by
  induction index generalizing records with
  | zero =>
    obtain ⟨rest, rfl⟩ : ∃ rest, records = record :: rest := by
      cases records with
      | nil => cases hrecord
      | cons first rest => exact ⟨rest, by rw [Option.some.inj hrecord]⟩
    rcases Point.settled record with ⟨p, hdenotes, hok⟩ | ⟨e, -, herror⟩
    · rw [answer?, after, call_of_denotes hdenotes, hok]
    · rw [answer?, after, call_of_malformed herror, herror]
  | succ index ih =>
    cases records with
    | nil => cases hrecord
    | cons first rest =>
      obtain ⟨p, hfirst⟩ := hbefore first List.mem_cons_self
      rw [answer?, after, call_of_denotes hfirst]
      exact ih hrecord fun earlier h => hbefore earlier (List.mem_cons_of_mem _ h)

/-- Nothing comes when the records are used up, or behind a malformed one. -/
theorem answer?_of_over
    (h : records.length ≤ index ∨ ∃ earlier ∈ records.take index, ¬ ∃ p, Denotes earlier p) :
    answer? { records } index = none := by
  induction index generalizing records with
  | zero =>
    rcases h with hlength | ⟨earlier, hearlier, -⟩
    · rw [List.length_eq_zero_iff.1 (Nat.le_zero.1 hlength)]
      exact exhausted_nil.answer?_eq
    · cases hearlier
  | succ index ih =>
    cases records with
    | nil => exact exhausted_nil.answer?_eq
    | cons first rest =>
      rcases Point.settled first with ⟨p, hfirst, -⟩ | ⟨e, -, herror⟩
      · rw [answer?, after, call_of_denotes hfirst]
        refine ih ?_
        rcases h with hlength | ⟨earlier, hearlier, hmalformed⟩
        · exact .inl (Nat.le_of_succ_le_succ hlength)
        · rcases List.mem_cons.1 hearlier with rfl | hearlier
          · exact absurd ⟨p, hfirst⟩ hmalformed
          · exact .inr ⟨earlier, hearlier, hmalformed⟩
      · rw [answer?, after, call_of_malformed herror]
        exact exhausted_of_failed.answer?_eq

/-- Calls yield what the batch holds, one item each. -/
theorem yielded_eq_take_drain (b : Batch) (calls : Nat) : b.yielded calls = b.drain.take calls := by
  induction calls generalizing b with
  | zero => rfl
  | succ calls ih =>
    cases hnext : b.next with
    | none => simp [yielded_succ, call, hnext, ih, drain_of_next_none hnext]
    | some step => simp [yielded_succ, call, hnext, ih, drain_of_next_some hnext]

/-- A batch holds a longest run of points and, unless these are all its records, the
    fault of the record that follows them. -/
theorem exists_drain_eq (records : List Value) :
    ∃ before points after, records = before ++ after ∧ List.Forall₂ Denotes before points ∧
      (∀ record ∈ after.head?, ∃ e, Point.ofRecord record = .error e) ∧
      drain { records } = points.map .ok ++ after.head?.toList.map Point.ofRecord := by
  obtain ⟨points, fault?, hyields⟩ := exists_yields records
  have hdrain := drain_of_yields hyields
  cases fault? with
  | none =>
    exact ⟨records, points, [], (List.append_nil _).symm, yields_none_iff.1 hyields, nofun, hdrain⟩
  | some e =>
    obtain ⟨before, record, after, rfl, hbefore, hreport⟩ := yields_some_iff.1 hyields
    have herror := Point.ofRecord_eq_error_iff.2 hreport
    refine ⟨before, points, record :: after, rfl, hbefore, ?_, ?_⟩
    · rintro _ ⟨⟩
      exact ⟨e, herror⟩
    · simpa [herror] using hdrain

/-! ## What remains -/

/-- No more items come than there are records remaining. -/
theorem length_yielded_le (b : Batch) (calls : Nat) : (b.yielded calls).length ≤ b.remaining := by
  induction calls generalizing b with
  | zero => exact Nat.zero_le _
  | succ calls ih =>
    rcases b.cases_next with hexhausted | ⟨record, records, rfl, ⟨p, hdenotes⟩ | ⟨e, herror⟩⟩
    · rw [hexhausted.yielded_eq]
      exact Nat.zero_le _
    · have ih := ih { records }
      rw [remaining_mk] at ih
      rw [yielded_succ, call_of_denotes hdenotes, remaining_mk, List.length_append,
        List.length_cons, Nat.add_comm]
      exact Nat.succ_le_succ ih
    · rw [yielded_succ, call_of_malformed herror, exhausted_of_failed.yielded_eq]
      exact Nat.succ_le_succ (Nat.zero_le _)

/-- As long as no error has come, what has come and what remains make up the batch. -/
theorem remaining_after_add (h : ∀ e, .error e ∉ yielded { records } calls) :
    (after { records } calls).remaining + (yielded { records } calls).length = records.length := by
  induction calls generalizing records with
  | zero => rfl
  | succ calls ih =>
    cases records with
    | nil =>
      rw [exhausted_nil.after_eq, exhausted_nil.yielded_eq]
      rfl
    | cons first rest =>
      rcases Point.settled first with ⟨p, hfirst, -⟩ | ⟨e, -, herror⟩
      · rw [yielded_succ, call_of_denotes hfirst] at h ⊢
        have ih := ih fun e he => h e (List.mem_append_right _ he)
        rw [after, call_of_denotes hfirst, List.length_append, List.length_cons, ← ih]
        exact Nat.add_left_comm _ 1 _ ▸ Nat.add_comm _ _
      · rw [yielded_succ, call_of_malformed herror] at h
        exact absurd (List.mem_append_left _ List.mem_cons_self) (h e)

/-- An error ends the batch. -/
theorem remaining_after_eq_zero (h : .error e ∈ yielded { records } calls) :
    (after { records } calls).remaining = 0 := by
  induction calls generalizing records with
  | zero => cases h
  | succ calls ih =>
    cases records with
    | nil => rw [exhausted_nil.after_eq, exhausted_nil.remaining_eq]
    | cons first rest =>
      rcases Point.settled first with ⟨p, hfirst, -⟩ | ⟨_, -, herror⟩
      · rw [yielded_succ, call_of_denotes hfirst] at h
        rw [after, call_of_denotes hfirst]
        exact ih (by simpa using h)
      · rw [after, call_of_malformed herror, exhausted_of_failed.after_eq,
          exhausted_of_failed.remaining_eq]

/-- A call for a record is answered by what this record comes to as long as none before
    it is malformed, and all other calls are answered by nothing. So calls yield the
    points up to the first malformed record, then its fault, and nothing after it. The
    number of records that remain counts down with the items until there is a fault, is
    then zero, and is never exceeded by what still comes. -/
theorem calls_of_records (records : List Value) :
    (∀ index record, records[index]? = some record →
      (∀ earlier ∈ records.take index, ∃ p, Denotes earlier p) →
      answer? { records } index = some (Point.ofRecord record)) ∧
    (∀ index, records.length ≤ index ∨ (∃ earlier ∈ records.take index, ¬ ∃ p, Denotes earlier p) →
      answer? { records } index = none) ∧
    (∃ before points behind, records = before ++ behind ∧ List.Forall₂ Denotes before points ∧
      (∀ record ∈ behind.head?, ∃ e, Point.ofRecord record = .error e) ∧
      ∀ calls, yielded { records } calls =
        (points.map Except.ok ++ behind.head?.toList.map Point.ofRecord).take calls) ∧
    ∀ calls,
      ((∀ e, .error e ∉ yielded { records } calls) →
        (after { records } calls).remaining + (yielded { records } calls).length =
          records.length) ∧
      (∀ e, .error e ∈ yielded { records } calls → (after { records } calls).remaining = 0) ∧
      ∀ more, ((after { records } calls).yielded more).length ≤
        (after { records } calls).remaining := by
  refine ⟨fun _ _ => answer?_of_denotes_before, fun _ => answer?_of_over, ?_, fun calls =>
    ⟨remaining_after_add, fun _ => remaining_after_eq_zero, length_yielded_le _⟩⟩
  obtain ⟨before, points, behind, hrecords, hbefore, hbehind, hdrain⟩ := exists_drain_eq records
  refine ⟨before, points, behind, hrecords, hbefore, hbehind, fun calls => ?_⟩
  rw [yielded_eq_take_drain, hdrain]

/-- A batch whose second record of three is malformed. -/
theorem calls_of_records_three :
    let good : Value := .list [.str "a", .tuple [.int64 1, .int64 2]]
    let bad : Value := .list [.str "b"]
    let b : Batch := { records := [good, bad, good] }
    b.answer? 1 = some (.error (.wrongLength .record 1)) ∧ b.answer? 2 = none ∧
      b.answer? 3 = none ∧ (b.after 1).remaining = 2 ∧ (b.after 2).remaining = 0 := by
  intro good bad b
  have hgood : ∃ p, Denotes good p :=
    ⟨⟨"a", ⟨1, by decide, by decide⟩, .ofInt 2⟩, .record rfl rfl rfl .integer⟩
  have hbad : ¬ ∃ p, Denotes bad p := by
    rintro ⟨p, hp⟩
    cases Point.ofRecord_of_denotes hp
  obtain ⟨hturn, hover, -, hremaining⟩ := calls_of_records [good, bad, good]
  have hyielded : b.yielded 2 = [Point.ofRecord good, .error (.wrongLength .record 1)] := rfl
  refine ⟨?_, ?_, ?_, rfl, ?_⟩
  · exact hturn 1 bad rfl (by simpa using hgood)
  · exact hover 2 (.inr ⟨bad, by simp, hbad⟩)
  · exact hover 3 (.inl le_rfl)
  · refine (hremaining 2).2.1 (.wrongLength .record 1) ?_
    rw [hyielded]
    exact List.mem_cons_of_mem _ List.mem_cons_self

end MetricIntake.Batch
