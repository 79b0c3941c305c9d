-- SUMMARY: Which values are batches of points, what a malformed record is reported for, and that lists and tuples may replace each other.
import MetricIntake.Proofs.Pickle.Batch

/-!
# Records

A record is read from the outside in, and nothing is looked at twice. `Denotes` says
which records are points, without an order of reading. `Check` takes the reading apart
into checks that know nothing of each other: each looks at one part of the record, if
the record has that part at all. A malformed record is reported for the first check
that fails.

Lists and tuples are told apart nowhere on the way to the parts, so a batch may be
recast: any of the sequences that it is made of may change its kind.
-/

namespace MetricIntake

namespace Pickle.Value

-- ---------------------------------------------------------------------------
-- Points
-- ---------------------------------------------------------------------------

/-- What a value is as a number; an integer is rounded to the nearest float. -/
inductive Widens : Value → Binary64 → Prop
  | float {x : Binary64} : Widens (.float x) x
  | integer {i : Int64} : Widens (.int64 i) (.ofInt i.toInt)

/-- The record is a point: a pair of its name and a datapoint, which is a pair of its
    timestamp and its value. -/
inductive Denotes : Value → Point → Prop
  | record {record datapoint value : Value} {seconds : Int64} {p : Point} :
    record.items? = some [.str p.name, datapoint] →
    datapoint.items? = some [.int64 seconds, value] →
    seconds.toInt = p.timestamp.seconds → value.Widens p.value → Denotes record p

-- ---------------------------------------------------------------------------
-- Checks
-- ---------------------------------------------------------------------------

/-- The two items of a pair. -/
def halves? (v : Value) : Option (Value × Value) :=
  match v.items? with
  | some [a, b] => some (a, b)
  | _ => Option.none

/-- A part of a record. It is there as soon as everything around it is a pair. -/
def part? (record : Value) : BatchPart → Option Value
  | .batch => Option.none
  | .record => some record
  | .name => record.halves?.map Prod.fst
  | .datapoint => record.halves?.map Prod.snd
  | .timestamp => (record.halves?.bind (·.2.halves?)).map Prod.fst
  | .value => (record.halves?.bind (·.2.halves?)).map Prod.snd

/-- Whether a value has the type of a part. Integers that are not of 64 bits have
    none of the types. -/
def hasTypeOf (part : BatchPart) (v : Value) : Bool :=
  match part with
  | .batch | .record | .datapoint => v.items?.isSome
  | .name => (v matches .str _)
  | .timestamp => (v matches .int64 _)
  | .value => (v matches .float _ | .int64 _)

/-- What is looked at in a record: the type of a part, its length, or whether the
    timestamp is within the calendar. -/
inductive Check where
  | type (part : BatchPart)
  | length (part : BatchPart)
  | range
  deriving DecidableEq, Repr

/-- The checks of a record, in order. -/
def Check.order : List Check :=
  [.type .record, .length .record, .type .name, .type .datapoint, .length .datapoint,
    .type .timestamp, .type .value, .range]

/-- What a check on its own reports of a record. It passes what it does not find. -/
def Check.report? (record : Value) : Check → Option DecodeError
  | .type part =>
    (record.part? part).bind fun v =>
      if v.hasTypeOf part then Option.none else some (.wrongType part v.kind)
  | .length part =>
    ((record.part? part).bind items?).bind fun items =>
      if items.length = 2 then Option.none else some (.wrongLength part items.length)
  | .range =>
    match record.part? .timestamp with
    | some (.int64 seconds) =>
      if Timestamp.first ≤ seconds.toInt ∧ seconds.toInt ≤ Timestamp.last then Option.none
      else some (.timestampRange seconds.toInt)
    | _ => Option.none

/-- The report of the first check that fails. -/
def firstReport? (record : Value) : Option DecodeError :=
  Check.order.findSome? (·.report? record)

variable {record datapoint v v' : Value} {items : List Value} {part : BatchPart}

theorem pair_of_items (h : v.items? = some [record, datapoint]) (part : BatchPart) :
    v.pair part = .ok (record, datapoint) := by
  simp only [pair, sequence, h]
  rfl

theorem pair_of_no_items (h : v.items? = Option.none) (part : BatchPart) :
    v.pair part = .error (.wrongType part v.kind) := by
  simp only [pair, sequence, h]
  rfl

theorem pair_of_wrong_length (h : v.items? = some items) (hlength : items.length ≠ 2)
    (part : BatchPart) : v.pair part = .error (.wrongLength part items.length) := by
  simp only [pair, sequence, h]
  match items with
  | [] | [_] | _ :: _ :: _ :: _ => rfl
  | [_, _] => exact absurd rfl hlength

/-- A value has no items, a pair of them, or another number. -/
theorem items?_cases (v : Value) :
    v.items? = Option.none ∨ (∃ a b, v.items? = some [a, b]) ∨
      ∃ items, v.items? = some items ∧ items.length ≠ 2 := by
  cases h : v.items? with
  | none => exact .inl rfl
  | some items =>
    match items with
    | [] | [_] | _ :: _ :: _ :: _ => exact .inr (.inr ⟨_, rfl, by simp⟩)
    | [a, b] => exact .inr (.inl ⟨a, b, rfl⟩)

theorem part?_of_items (h : v.items? = some [record, datapoint]) :
    v.part? .name = some record ∧ v.part? .datapoint = some datapoint := by
  simp only [part?, halves?, h, Option.map_some, and_self]

theorem part?_of_datapoint {timestamp value : Value} (h : v.items? = some [record, datapoint])
    (hdatapoint : datapoint.items? = some [timestamp, value]) :
    v.part? .timestamp = some timestamp ∧ v.part? .value = some value := by
  simp only [part?, halves?, h, hdatapoint, Option.bind_some, Option.map_some, and_self]

theorem name_cases (v : Value) :
    (∃ name, v = .str name) ∨
      v.hasTypeOf .name = false ∧ v.name = .error (.wrongType .name v.kind) := by
  cases v with
  | str name => exact .inl ⟨name, rfl⟩
  | _ => exact .inr ⟨rfl, rfl⟩

theorem seconds_cases (v : Value) :
    (∃ seconds, v = .int64 seconds) ∨
      v.hasTypeOf .timestamp = false ∧ v.seconds = .error (.wrongType .timestamp v.kind) := by
  cases v with
  | int64 seconds => exact .inl ⟨seconds, rfl⟩
  | _ => exact .inr ⟨rfl, rfl⟩

theorem number_cases (v : Value) :
    (∃ x, v.Widens x) ∨
      v.hasTypeOf .value = false ∧ v.number = .error (.wrongType .value v.kind) := by
  cases v with
  | float x => exact .inl ⟨x, .float⟩
  | int64 i => exact .inl ⟨_, .integer⟩
  | _ => exact .inr ⟨rfl, rfl⟩

theorem Widens.number_eq {x : Binary64} (h : v.Widens x) : v.number = .ok x := by
  cases h with
  | float => rfl
  | integer => rfl

theorem Widens.hasTypeOf {x : Binary64} (h : v.Widens x) : v.hasTypeOf .value = true := by
  cases h with
  | float => rfl
  | integer => rfl

theorem hasTypeOf_timestamp (seconds : Int64) : (int64 seconds).hasTypeOf .timestamp = true := rfl

/-! ### Reports of single checks -/

theorem report?_type (hpart : record.part? part = some v) :
    (Check.type part).report? record =
      if v.hasTypeOf part then Option.none else some (.wrongType part v.kind) := by
  simp only [Check.report?, hpart, Option.bind_some]

theorem report?_length (hpart : record.part? part = some v) (hitems : v.items? = some items) :
    (Check.length part).report? record =
      if items.length = 2 then Option.none else some (.wrongLength part items.length) := by
  simp only [Check.report?, hpart, hitems, Option.bind_some]

theorem report?_range {seconds : Int64} (hpart : record.part? .timestamp = some (.int64 seconds)) :
    Check.range.report? record =
      if Timestamp.first ≤ seconds.toInt ∧ seconds.toInt ≤ Timestamp.last then Option.none
      else some (.timestampRange seconds.toInt) := by
  simp only [Check.report?, hpart]

/-- Past a pair, the checks of a name and a datapoint remain. -/
theorem firstReport?_of_pair {name : Value} (hrecord : record.items? = some [name, datapoint]) :
    record.firstReport? =
      [Check.type .name, .type .datapoint, .length .datapoint, .type .timestamp, .type .value,
        .range].findSome? (·.report? record) := by
  have hself : record.part? .record = some record := rfl
  simp [firstReport?, Check.order, report?_type hself, report?_length hself hrecord, hasTypeOf,
    hrecord]

/-- Past a name, the checks of the datapoint remain. -/
theorem firstReport?_of_name {name : String} (hrecord : record.items? = some [.str name, datapoint]) :
    record.firstReport? =
      [Check.type .datapoint, .length .datapoint, .type .timestamp, .type .value, .range].findSome?
        (·.report? record) := by
  have hname := (part?_of_items hrecord).1
  simp [firstReport?_of_pair hrecord, report?_type hname, hasTypeOf]

/-- Past a datapoint, the checks of what it holds remain. -/
theorem firstReport?_of_datapoint {name : String} {timestamp value : Value}
    (hrecord : record.items? = some [.str name, datapoint])
    (hitems : datapoint.items? = some [timestamp, value]) :
    record.firstReport? =
      [Check.type .timestamp, .type .value, .range].findSome? (·.report? record) := by
  have hdatapoint := (part?_of_items hrecord).2
  simp [firstReport?_of_name hrecord, report?_type hdatapoint, report?_length hdatapoint hitems,
    hasTypeOf, hitems]

end Pickle.Value

open Pickle (Value)
open Pickle.Value (Check Denotes report?_type report?_length report?_range)

/-- The errors that are about a part of a record. -/
inductive DecodeError.OfRecord : DecodeError → Prop
  | wrongType {part : BatchPart} {found : Pickle.Kind} : OfRecord (.wrongType part found)
  | wrongLength {part : BatchPart} {found : Nat} : OfRecord (.wrongLength part found)
  | timestampRange {seconds : Int} : OfRecord (.timestampRange seconds)

/-- The checks of a record report nothing else. -/
theorem DecodeError.OfRecord.of_firstReport? {record : Value} {e : DecodeError}
    (h : record.firstReport? = some e) : e.OfRecord := by
  obtain ⟨check, -, hreport⟩ := List.exists_of_findSome?_eq_some h
  cases check with
  | type part =>
    obtain ⟨v, -, hv⟩ := Option.bind_eq_some_iff.1 hreport
    split at hv <;> cases hv
    exact .wrongType
  | length part =>
    obtain ⟨items, -, hitems⟩ := Option.bind_eq_some_iff.1 hreport
    split at hitems <;> cases hitems
    exact .wrongLength
  | range =>
    rw [Check.report?] at hreport
    split at hreport
    · split at hreport <;> cases hreport
      exact .timestampRange
    · cases hreport

namespace Point

variable {record datapoint : Value}

theorem ofRecord_of_denotes {p : Point} (h : Denotes record p) : ofRecord record = .ok p := by
  cases h with
  | record hrecord hdatapoint hseconds hvalue =>
    simp only [ofRecord, Value.pair_of_items hrecord, Value.pair_of_items hdatapoint, bind,
      Except.bind, Value.name, Value.seconds, hvalue.number_eq, ofUnix, hseconds,
      Timestamp.ofSeconds?_seconds]

/-- No check fails on a point. -/
theorem firstReport?_of_denotes {p : Point} (h : Denotes record p) : record.firstReport? = none := by
  cases h with
  | @record datapoint value seconds _ hrecord hdatapoint hseconds hvalue =>
    obtain ⟨htimestamp, hpart⟩ := Value.part?_of_datapoint hrecord hdatapoint
    have hrange : Timestamp.first ≤ seconds.toInt ∧ seconds.toInt ≤ Timestamp.last := by
      rw [hseconds]
      exact ⟨p.timestamp.first_le, p.timestamp.le_last⟩
    simp [Value.firstReport?_of_datapoint hrecord hdatapoint, report?_type htimestamp,
      report?_type hpart, report?_range htimestamp, hvalue.hasTypeOf, hrange,
      Value.hasTypeOf_timestamp]

/-- A record is a point, or is reported for the first check that fails. -/
def Settled (record : Value) : Prop :=
  (∃ p, Denotes record p ∧ ofRecord record = .ok p) ∨
    ∃ e, record.firstReport? = some e ∧ ofRecord record = .error e

theorem Settled.of_denotes {p : Point} (h : Denotes record p) : Settled record :=
  .inl ⟨p, h, ofRecord_of_denotes h⟩

theorem Settled.of_report {e : DecodeError} (hreport : record.firstReport? = some e)
    (herror : ofRecord record = .error e) : Settled record :=
  .inr ⟨e, hreport, herror⟩

/-- Past a name and a pair, a timestamp and a value decide. -/
theorem settled_of_datapoint {name : String} {timestamp value : Value}
    (hrecord : record.items? = some [.str name, datapoint])
    (hitems : datapoint.items? = some [timestamp, value]) : Settled record := by
  have hpair := Value.pair_of_items hrecord
  have hdatapoint := Value.pair_of_items hitems
  have hfirst := Value.firstReport?_of_datapoint hrecord hitems
  obtain ⟨htimestamp, hvalue⟩ := Value.part?_of_datapoint hrecord hitems
  rw [List.findSome?_cons, report?_type htimestamp] at hfirst
  rcases timestamp.seconds_cases with ⟨seconds, rfl⟩ | ⟨htype, hseconds⟩
  · rw [Value.hasTypeOf_timestamp, if_pos rfl] at hfirst
    rcases value.number_cases with ⟨x, hwidens⟩ | ⟨htype, hnumber⟩
    · by_cases hrange : Timestamp.first ≤ seconds.toInt ∧ seconds.toInt ≤ Timestamp.last
      · exact .of_denotes (p := ⟨name, ⟨seconds.toInt, hrange.1, hrange.2⟩, x⟩)
          (.record hrecord hitems rfl hwidens)
      · refine .of_report (e := .timestampRange seconds.toInt) ?_ ?_
        · simp [hfirst, report?_type hvalue, report?_range htimestamp, hwidens.hasTypeOf,
            hrange]
        · simp [ofRecord, hpair, hdatapoint, Value.name, Value.seconds, hwidens.number_eq, ofUnix,
            Timestamp.ofSeconds?, hrange, bind, Except.bind]
    · refine .of_report (e := .wrongType .value value.kind) ?_ ?_
      · simp [hfirst, report?_type hvalue, htype]
      · simp [ofRecord, hpair, hdatapoint, Value.name, Value.seconds, hnumber, bind, Except.bind]
  · refine .of_report (e := .wrongType .timestamp timestamp.kind) ?_ ?_
    · simp [hfirst, htype]
    · simp [ofRecord, hpair, hdatapoint, Value.name, hseconds, bind, Except.bind]

/-- Past a name, the datapoint decides. -/
theorem settled_of_name {name : String} (hrecord : record.items? = some [.str name, datapoint]) :
    Settled record := by
  have hpair := Value.pair_of_items hrecord
  have hfirst := Value.firstReport?_of_name hrecord
  have hdatapoint := (Value.part?_of_items hrecord).2
  rcases datapoint.items?_cases with hitems | ⟨timestamp, value, hitems⟩ | ⟨items, hitems, hlength⟩
  · refine .of_report (e := .wrongType .datapoint datapoint.kind) ?_ ?_
    · simp [hfirst, report?_type hdatapoint, Value.hasTypeOf, hitems]
    · simp [ofRecord, hpair, Value.name, Value.pair_of_no_items hitems, bind, Except.bind]
  · exact settled_of_datapoint hrecord hitems
  · refine .of_report (e := .wrongLength .datapoint items.length) ?_ ?_
    · simp [hfirst, report?_type hdatapoint, report?_length hdatapoint hitems, Value.hasTypeOf,
        hitems, hlength]
    · simp [ofRecord, hpair, Value.name, Value.pair_of_wrong_length hitems hlength, bind, Except.bind]

theorem settled (record : Value) : Settled record := by
  have hself : record.part? .record = some record := rfl
  rcases record.items?_cases with hrecord | ⟨name, datapoint, hrecord⟩ | ⟨items, hrecord, hlength⟩
  · refine .of_report (e := .wrongType .record record.kind) ?_ ?_
    · simp [Value.firstReport?, Check.order, report?_type hself, Value.hasTypeOf, hrecord]
    · simp [ofRecord, Value.pair_of_no_items hrecord, bind, Except.bind]
  · rcases name.name_cases with ⟨name, rfl⟩ | ⟨htype, hname⟩
    · exact settled_of_name hrecord
    · have hnamePart := (Value.part?_of_items hrecord).1
      refine .of_report (e := .wrongType .name name.kind) ?_ ?_
      · simp [Value.firstReport?_of_pair hrecord, report?_type hnamePart, htype]
      · simp [ofRecord, Value.pair_of_items hrecord, hname, bind, Except.bind]
  · refine .of_report (e := .wrongLength .record items.length) ?_ ?_
    · simp [Value.firstReport?, Check.order, report?_type hself, report?_length hself hrecord,
        Value.hasTypeOf, hrecord, hlength]
    · simp [ofRecord, Value.pair_of_wrong_length hrecord hlength, bind, Except.bind]

/-- The points are the records that denote them. -/
theorem ofRecord_eq_ok_iff {p : Point} : ofRecord record = .ok p ↔ Denotes record p := by
  refine ⟨fun h => ?_, ofRecord_of_denotes⟩
  rcases settled record with ⟨p', hdenotes, hok⟩ | ⟨e, -, herror⟩
  · rw [h] at hok
    rwa [Except.ok.inj hok]
  · rw [h] at herror
    cases herror

/-- A malformed record is reported for the first check that fails. -/
theorem ofRecord_eq_error_iff {e : DecodeError} :
    ofRecord record = .error e ↔ record.firstReport? = some e := by
  rcases settled record with ⟨p, hdenotes, hok⟩ | ⟨e', hreport, herror⟩
  · rw [hok, firstReport?_of_denotes hdenotes]
    exact ⟨nofun, nofun⟩
  · rw [herror, hreport, Except.error.injEq, Option.some.injEq]

end Point

-- ---------------------------------------------------------------------------
-- Recasting
-- ---------------------------------------------------------------------------

namespace Pickle.Value

/-- The values are equal, or sequences of any kind whose items are in a relation. -/
inductive Recast (R : List Value → List Value → Prop) : Value → Value → Prop
  | same {v : Value} : Recast R v v
  | sequences {v v' : Value} {items items' : List Value} :
    v.items? = some items → v'.items? = some items' → R items items' → Recast R v v'

/-- A datapoint may change its kind and nothing else. -/
def RecastDatapoint : Value → Value → Prop := Recast (· = ·)

/-- Of the items of a record, the second is the datapoint. -/
inductive RecastItems : List Value → List Value → Prop
  | none : RecastItems [] []
  | one {item : Value} : RecastItems [item] [item]
  | more {item datapoint datapoint' : Value} {rest : List Value} :
    RecastDatapoint datapoint datapoint' →
    RecastItems (item :: datapoint :: rest) (item :: datapoint' :: rest)

/-- A record may change its kind and that of its datapoint. -/
def RecastRecord : Value → Value → Prop := Recast RecastItems

/-- A batch may change its kind and those of its records and their datapoints. -/
def RecastBatch : Value → Value → Prop := Recast (List.Forall₂ RecastRecord)

variable {v v' : Value} {items : List Value} {part : BatchPart}

/-- A pair is read from its items alone. -/
theorem pair_congr (h : v.items? = some items) (h' : v'.items? = some items) :
    v'.pair part = v.pair part := by
  simp only [pair, sequence, h, h']

theorem RecastDatapoint.pair_eq (h : RecastDatapoint v v') : v'.pair part = v.pair part := by
  cases h with
  | same => rfl
  | sequences hitems hitems' heq =>
    subst heq
    exact pair_congr hitems hitems'

theorem RecastRecord.ofRecord_eq (h : RecastRecord v v') : Point.ofRecord v' = Point.ofRecord v := by
  cases h with
  | same => rfl
  | sequences hitems hitems' hrecast =>
    cases hrecast with
    | none | one => simp only [Point.ofRecord, pair_congr hitems hitems']
    | @more item datapoint datapoint' rest hdatapoint =>
      cases rest with
      | nil =>
        simp only [Point.ofRecord, pair_of_items hitems, pair_of_items hitems', bind, Except.bind,
          hdatapoint.pair_eq]
      | cons third rest =>
        simp [Point.ofRecord, pair_of_wrong_length hitems, pair_of_wrong_length hitems', bind,
          Except.bind]

end Pickle.Value

-- ---------------------------------------------------------------------------
-- Batches
-- ---------------------------------------------------------------------------

namespace Batch

open Pickle.Value (RecastRecord RecastBatch)

variable {records records' : List Value} {points : List Point} {fault? : Option DecodeError}
  {v v' : Value}

theorem yields_none_iff : Yields records points none ↔ List.Forall₂ Denotes records points := by
  refine ⟨fun h => ?_, fun h => ?_⟩
  · generalize hfault : none = fault? at h
    induction h with
    | done => exact .nil
    | point hrecord _ ih => exact .cons (Point.ofRecord_eq_ok_iff.1 hrecord) (ih hfault)
    | fault => cases hfault
  · induction h with
    | nil => exact .done
    | cons hrecord _ ih => exact .point (Point.ofRecord_eq_ok_iff.2 hrecord) ih

theorem yields_some_iff {e : DecodeError} :
    Yields records points (some e) ↔ ∃ before record after, records = before ++ record :: after ∧
      List.Forall₂ Denotes before points ∧ record.firstReport? = some e := by
  refine ⟨fun h => ?_, ?_⟩
  · generalize hfault : some e = fault? at h
    induction h with
    | done => cases hfault
    | @point record _ _ _ _ hrecord _ ih =>
      obtain ⟨before, malformed, after, rfl, hbefore, hreport⟩ := ih hfault
      exact ⟨record :: before, malformed, after, rfl,
        .cons (Point.ofRecord_eq_ok_iff.1 hrecord) hbefore, hreport⟩
    | @fault record records _ hrecord =>
      obtain rfl := Option.some.inj hfault
      exact ⟨[], record, records, rfl, .nil, Point.ofRecord_eq_error_iff.1 hrecord⟩
  · rintro ⟨before, record, after, rfl, hbefore, hreport⟩
    induction hbefore with
    | nil => exact .fault (Point.ofRecord_eq_error_iff.2 hreport)
    | cons hrecord _ ih => exact .point (Point.ofRecord_eq_ok_iff.2 hrecord) ih

theorem Yields.ofRecord {e : DecodeError} (h : Yields records points (some e)) : e.OfRecord := by
  obtain ⟨_, _, _, -, -, hreport⟩ := yields_some_iff.1 h
  exact .of_firstReport? hreport

theorem Yields.recast (h : Yields records points fault?)
    (hrecast : List.Forall₂ RecastRecord records records') : Yields records' points fault? := by
  induction h generalizing records' with
  | done =>
    cases hrecast
    exact .done
  | point hrecord _ ih =>
    cases hrecast with
    | cons hfirst hrest => exact .point (hfirst.ofRecord_eq.trans hrecord) (ih hrest)
  | fault hrecord =>
    cases hrecast with
    | cons hfirst _ => exact .fault (hfirst.ofRecord_eq.trans hrecord)

theorem ofValue_of_items (h : v.items? = some records) : ofValue v = .ok { records } := by
  simp only [ofValue, Value.sequence, h]
  rfl

theorem ofValue_of_no_items (h : v.items? = none) :
    ofValue v = .error (.wrongType .batch v.kind) := by
  simp only [ofValue, Value.sequence, h]
  rfl

theorem drain_recast (h : RecastBatch v v') : (ofValue v').map drain = (ofValue v).map drain := by
  cases h with
  | same => rfl
  | @sequences _ records records' hitems hitems' hrecast =>
    obtain ⟨points, fault?, hyields⟩ := exists_yields records
    rw [ofValue_of_items hitems, ofValue_of_items hitems', Except.map, Except.map,
      drain_of_yields hyields, drain_of_yields (hyields.recast hrecast)]

/-- A batch that is opened and read to its end. -/
theorem exists_drain_iff :
    (∃ b, ofValue v = .ok b ∧ b.drain = points.map .ok ++ fault?.toList.map .error) ↔
      ∃ records, v.items? = some records ∧ Yields records points fault? := by
  cases hitems : v.items? with
  | none =>
    rw [ofValue_of_no_items hitems]
    exact ⟨nofun, nofun⟩
  | some records =>
    rw [ofValue_of_items hitems]
    constructor
    · rintro ⟨b, hb, hdrain⟩
      obtain rfl := Except.ok.inj hb
      exact ⟨records, rfl, drain_eq_iff_yields.1 hdrain⟩
    · rintro ⟨records', hrecords, hyields⟩
      obtain rfl := Option.some.inj hrecords
      exact ⟨_, rfl, drain_of_yields hyields⟩

/-- A batch yields points and nothing else if it is a sequence of records that denote
    them. Otherwise it yields the points before its first malformed record, and the
    report of the first check that fails there. It makes no difference which of its
    sequences are lists and which are tuples. -/
theorem drain_ofValue_iff (v : Value) :
    (∀ points : List Point, (∃ b, ofValue v = .ok b ∧ b.drain = points.map .ok) ↔
      ∃ records, v.items? = some records ∧ List.Forall₂ Denotes records points) ∧
    (∀ v', RecastBatch v v' → (ofValue v').map drain = (ofValue v).map drain) ∧
    (∀ (points : List Point) (e : DecodeError),
      (∃ b, ofValue v = .ok b ∧ b.drain = points.map .ok ++ [.error e]) ↔
        ∃ before record after, v.items? = some (before ++ record :: after) ∧
          List.Forall₂ Denotes before points ∧ record.firstReport? = some e) ∧
    (∀ record : Value, record.firstReport? = none ↔ ∃ p, Denotes record p) ∧
    ∀ e : DecodeError, ofValue v = .error e ↔ v.items? = none ∧ e = .wrongType .batch v.kind := by
  refine ⟨fun points => ?_, fun v' => drain_recast, fun points e => ?_, fun record => ?_, fun e => ?_⟩
  · have hread := @exists_drain_iff points none v
    simpa only [Option.toList_none, List.map_nil, List.append_nil, yields_none_iff] using hread
  · have hread := @exists_drain_iff points (some e) v
    simp only [Option.toList_some, List.map_cons, List.map_nil, yields_some_iff] at hread
    rw [hread]
    constructor
    · rintro ⟨_, hitems, before, record, after, rfl, hbefore, hreport⟩
      exact ⟨before, record, after, hitems, hbefore, hreport⟩
    · rintro ⟨before, record, after, hitems, hbefore, hreport⟩
      exact ⟨_, hitems, before, record, after, rfl, hbefore, hreport⟩
  · refine ⟨fun hpasses => ?_, fun ⟨p, hdenotes⟩ => Point.firstReport?_of_denotes hdenotes⟩
    rcases Point.settled record with ⟨p, hdenotes, -⟩ | ⟨e, hreport, -⟩
    · exact ⟨p, hdenotes⟩
    · rw [hreport] at hpasses
      cases hpasses
  · cases hitems : v.items? with
    | none =>
      rw [ofValue_of_no_items hitems, Except.error.injEq]
      exact ⟨fun h => ⟨rfl, h.symm⟩, fun h => h.2.symm⟩
    | some records =>
      rw [ofValue_of_items hitems]
      exact ⟨nofun, nofun⟩

/-- A list of tuples, the second of them no record, and a tuple of lists with the same
    parts. -/
theorem drain_ofValue_iff_recast :
    let datapoint : List Value := [.int64 1, .int64 2]
    let v : Value := .list [.tuple [.str "a", .tuple datapoint], .tuple [.str "b"]]
    let v' : Value := .tuple [.list [.str "a", .list datapoint], .list [.str "b"]]
    RecastBatch v v' ∧ (ofValue v').map drain = (ofValue v).map drain ∧
      ∃ b, ofValue v = .ok b ∧ b.drain =
        [(⟨"a", ⟨1, by decide, by decide⟩, .ofInt 2⟩ : Point)].map .ok ++
          [.error (.wrongLength .record 1)] := by
  intro datapoint v v'
  have hrecast : RecastBatch v v' :=
    .sequences rfl rfl
      (.cons (.sequences rfl rfl (.more (.sequences rfl rfl rfl)))
        (.cons (.sequences rfl rfl .one) .nil))
  refine ⟨hrecast, (drain_ofValue_iff v).2.1 v' hrecast, ?_⟩
  refine ((drain_ofValue_iff v).2.2.1 _ _).2 ⟨[_], .tuple [.str "b"], [], rfl, ?_, rfl⟩
  exact .cons (.record rfl rfl rfl .integer) .nil

end Batch
end MetricIntake
