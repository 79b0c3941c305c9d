-- SUMMARY: Peers that deliver bytes in time, and the ways in which they cut the bytes into reads.
import MetricIntake.Connection.Basic

/-!
# Deliveries

A delivery is a read that gets some bytes before the connection has been idle for
too long. A list of them is a way of cutting the bytes that they bring together.
-/

namespace MetricIntake.Connection

/-- The wait is within the idle limit, if there is one. -/
def InTime (limit : Option Span) (wait : Nat) : Prop := ∀ l ∈ limit, wait ≤ l.nanos

theorem InTime.mono {limit : Option Span} {wait wait' : Nat} (h : InTime limit wait)
    (hle : wait' ≤ wait) : InTime limit wait' :=
  fun l hl => Nat.le_trans hle (h l hl)

/-- What is in time is not late. -/
theorem InTime.not_late {limit : Option Span} {wait : Nat} {l : Span} (h : InTime limit wait)
    (hlimit : limit = some l) : ¬ l.nanos < wait :=
  Nat.not_lt.2 (h l hlimit)

theorem overdue_eq_none_iff {limit : Option Span} {since moment : Nat} :
    overdue limit since moment = none ↔ InTime limit (moment - since) := by
  cases limit with
  | none => simp [overdue, InTime]
  | some l =>
    simp only [overdue, InTime, Option.mem_def, Option.some.injEq, forall_eq', ite_eq_right_iff,
      reduceCtorEq, imp_false]
    omega

theorem InTime.overdue {limit : Option Span} {wait : Nat} (h : InTime limit wait) (now : Nat) :
    overdue limit now (now + wait) = none :=
  overdue_eq_none_iff.2 (by rwa [Nat.add_sub_cancel_left])

theorem overdue_eq_some {limit : Option Span} {since moment expiry : Nat} {l : Span}
    (h : overdue limit since moment = some (l, expiry)) :
    limit = some l ∧ l.nanos < moment - since ∧ expiry = since + l.nanos := by
  cases limit with
  | none => cases h
  | some l' =>
    rw [overdue] at h
    split at h
    · obtain ⟨rfl, rfl⟩ := Prod.mk.inj (Option.some.inj h)
      exact ⟨rfl, by omega, rfl⟩
    · cases h

/-! ## Reads -/

/-- The bytes that a read gets. -/
def Read.bytes (r : Read) : List UInt8 :=
  match r.arrival with
  | .bytes chunk => chunk
  | _ => []

/-- A read that gets bytes in time. -/
structure Read.Delivers (limit : Option Span) (r : Read) : Prop where
  inTime : InTime limit r.wait
  arrival : r.arrival = .bytes r.bytes

/-- The bytes that reads get. -/
def received (reads : List Read) : List UInt8 := reads.flatMap Read.bytes

/-- The time that reads take. -/
def elapsed : List Read → Nat
  | [] => 0
  | r :: reads => r.wait + elapsed reads

@[simp] theorem received_nil : received [] = [] := rfl

@[simp] theorem received_cons (r : Read) (reads : List Read) :
    received (r :: reads) = r.bytes ++ received reads := rfl

@[simp] theorem elapsed_nil : elapsed [] = 0 := rfl

@[simp] theorem elapsed_cons (r : Read) (reads : List Read) :
    elapsed (r :: reads) = r.wait + elapsed reads := rfl

/-! ## Deliveries -/

/-- A read that gets some bytes in time. -/
structure Delivery (limit : Option Span) where
  wait : Nat
  chunk : List UInt8
  inTime : InTime limit wait
  chunk_ne_nil : chunk ≠ []

namespace Delivery

variable {limit : Option Span}

def toRead (d : Delivery limit) : Read := ⟨d.wait, .bytes d.chunk⟩

/-- The bytes that deliveries bring. -/
def bytes (deliveries : List (Delivery limit)) : List UInt8 := deliveries.flatMap chunk

/-- The time that deliveries take. -/
def waited : List (Delivery limit) → Nat
  | [] => 0
  | d :: deliveries => d.wait + waited deliveries

@[simp] theorem bytes_nil : bytes ([] : List (Delivery limit)) = [] := rfl

@[simp] theorem bytes_cons (d : Delivery limit) (deliveries : List (Delivery limit)) :
    bytes (d :: deliveries) = d.chunk ++ bytes deliveries := rfl

@[simp] theorem waited_nil : waited ([] : List (Delivery limit)) = 0 := rfl

@[simp] theorem waited_cons (d : Delivery limit) (deliveries : List (Delivery limit)) :
    waited (d :: deliveries) = d.wait + waited deliveries := rfl

theorem delivers_toRead (d : Delivery limit) : d.toRead.Delivers limit := ⟨d.inTime, rfl⟩

@[simp] theorem bytes_toRead (d : Delivery limit) : d.toRead.bytes = d.chunk := rfl

@[simp] theorem wait_toRead (d : Delivery limit) : d.toRead.wait = d.wait := rfl

theorem received_map_toRead (deliveries : List (Delivery limit)) :
    received (deliveries.map toRead) = bytes deliveries := by
  simp only [received, List.flatMap_map, bytes_toRead]
  rfl

theorem elapsed_map_toRead (deliveries : List (Delivery limit)) :
    elapsed (deliveries.map toRead) = waited deliveries := by
  induction deliveries with
  | nil => rfl
  | cons d deliveries ih => rw [List.map_cons, elapsed_cons, ih, waited_cons, wait_toRead]

theorem bytes_append (before after : List (Delivery limit)) :
    bytes (before ++ after) = bytes before ++ bytes after :=
  List.flatMap_append

theorem waited_append (before after : List (Delivery limit)) :
    waited (before ++ after) = waited before + waited after := by
  induction before with
  | nil => exact (Nat.zero_add _).symm
  | cons d before ih => rw [List.cons_append, waited_cons, waited_cons, ih, Nat.add_assoc]

end Delivery

/-- The stream ends next, and in time. -/
inductive EndsInTime (limit : Option Span) : Peer → Prop
  | ended : EndsInTime limit []
  | closed {wait : Nat} {peer : Peer} : InTime limit wait → EndsInTime limit (⟨wait, .closed⟩ :: peer)

end MetricIntake.Connection
