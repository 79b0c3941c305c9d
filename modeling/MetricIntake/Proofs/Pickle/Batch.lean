-- SUMMARY: What a batch comes to, said of its records at once, and that decoding on demand yields just this.
import MetricIntake.Pickle.Batch
import MetricIntake.Proofs.Pickle.Machine

/-!
# What batches yield

A batch is decoded on demand and remembers whether a record has failed. `Yields`
says what comes of its records without any of this: points up to the first
malformed record.
-/

namespace MetricIntake.Batch

open MetricIntake.Pickle (Value Unpickler)

/-- What records come to: the points before the first malformed one, and its fault
    if there is one. -/
inductive Yields : List Value → List Point → Option DecodeError → Prop
  | done : Yields [] [] none
  | point {record : Value} {records : List Value} {p : Point} {points : List Point}
    {fault? : Option DecodeError} :
    Point.ofRecord record = .ok p → Yields records points fault? →
    Yields (record :: records) (p :: points) fault?
  | fault {record : Value} {records : List Value} {e : DecodeError} :
    Point.ofRecord record = .error e → Yields (record :: records) [] (some e)

theorem exists_yields (records : List Value) : ∃ points fault?, Yields records points fault? := by
  induction records with
  | nil => exact ⟨[], none, .done⟩
  | cons record records ih =>
    obtain ⟨points, fault?, hyields⟩ := ih
    cases hrecord : Point.ofRecord record with
    | ok p => exact ⟨p :: points, fault?, .point hrecord hyields⟩
    | error e => exact ⟨[], some e, .fault hrecord⟩

variable {records : List Value} {points : List Point} {fault? : Option DecodeError}

theorem drain_of_next_none {b : Batch} (h : b.next = none) : b.drain = [] := by
  unfold drain
  split
  · rfl
  · rename_i hnext
    rw [h] at hnext
    cases hnext

theorem drain_of_next_some {b b' : Batch} {item : Except DecodeError Point}
    (h : b.next = some (item, b')) : b.drain = item :: b'.drain := by
  rw [drain]
  split
  · rename_i hnext
    rw [h] at hnext
    cases hnext
  · rename_i hnext
    rw [h] at hnext
    cases hnext
    rfl

/-- Decoding on demand yields the points and then the fault. -/
theorem drain_of_yields (h : Yields records points fault?) :
    drain { records } = points.map .ok ++ fault?.toList.map .error := by
  induction h with
  | done => exact drain_of_next_none rfl
  | @point record records p points fault? hrecord _ ih =>
    have hnext : next { records := record :: records } = some (.ok p, { records }) := by
      simp [next, hrecord]
    rw [drain_of_next_some hnext, ih]
    rfl
  | @fault record records e hrecord =>
    have hnext : next { records := record :: records } = some (.error e, { records, failed := true }) := by
      simp [next, hrecord]
    rw [drain_of_next_some hnext, drain_of_next_none rfl]
    rfl

theorem points_of_drain (h : drain { records } = points.map .ok ++ fault?.toList.map .error) :
    Batch.points { records } = points := by
  unfold Batch.points
  rw [h]
  cases fault? <;> simp [Except.toOption, Function.comp_def]

theorem fault?_of_drain (h : drain { records } = points.map .ok ++ fault?.toList.map .error) :
    Batch.fault? { records } = fault? := by
  unfold Batch.fault?
  rw [h, List.findSome?_append, List.findSome?_eq_none_iff.2 (by simp)]
  cases fault? <;> rfl

theorem points_of_yields (h : Yields records points fault?) : Batch.points { records } = points :=
  points_of_drain (drain_of_yields h)

theorem fault?_of_yields (h : Yields records points fault?) : Batch.fault? { records } = fault? :=
  fault?_of_drain (drain_of_yields h)

/-- What decoding on demand yields is what the records come to. -/
theorem drain_eq_iff_yields :
    drain { records } = points.map .ok ++ fault?.toList.map .error ↔ Yields records points fault? := by
  refine ⟨fun h => ?_, drain_of_yields⟩
  obtain ⟨points', fault?', hyields⟩ := exists_yields records
  have hpoints := (points_of_drain h).symm.trans (points_of_yields hyields)
  have hfault := (fault?_of_drain h).symm.trans (fault?_of_yields hyields)
  rwa [hpoints, hfault]

/-- A batch starts out undecoded. -/
theorem eq_of_ofPickleWith {unpickle : Unpickler} {payload : List UInt8} {b : Batch}
    (h : ofPickleWith unpickle payload = .ok b) : b = { records := b.records } := by
  obtain ⟨v, -, hv⟩ := Pickle.bind_eq_ok_iff.1 h
  obtain ⟨records, -, hrecords⟩ := Pickle.bind_eq_ok_iff.1 hv
  obtain rfl := Except.ok.inj hrecords
  rfl

end MetricIntake.Batch
