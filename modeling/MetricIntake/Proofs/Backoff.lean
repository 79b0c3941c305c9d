-- SUMMARY: The delay after any number of failures in a row, in closed form: capping and saturating on the way lose nothing, whatever is called and however a product is worked out.
import Mathlib.Algebra.Order.Ring.Nat
import MetricIntake.Backoff

/-!
# The delays of a backoff

A backoff multiplies the delay that it handed out last, which has been capped, and
never leaves the range of spans. The delay after `n` failures is still the initial one
times the `n`-th power of the multiplier, capped once.

A backoff may be asked for delays and reset in any order. `Streak` keeps the delays of
the failures in a row so far beside it.
-/

namespace MetricIntake

attribute [ext] Span

namespace Span

/-- The span `k` times as long, worked out in words: seconds of 64 bits and nanoseconds
    below a second, whose product is carried over. If the seconds do not fit, it is the
    largest span. -/
def scaleInWords (s : Span) (k : UInt32) : Span :=
  let product : UInt64 := UInt64.ofNat s.subsecond * k.toUInt64
  let seconds := s.seconds * k.toNat + product.toNat / nanosPerSecond
  if seconds < UInt64.size then ofNanos (seconds * nanosPerSecond + product.toNat % nanosPerSecond)
  else ofNanos limit

/-- The product of the nanoseconds fits in a word. -/
theorem toNat_subsecond_mul (s : Span) (k : UInt32) :
    (UInt64.ofNat s.subsecond * k.toUInt64).toNat = s.subsecond * k.toNat := by
  have hsubsecond : s.subsecond < nanosPerSecond := Nat.mod_lt _ (by decide)
  have hproduct : s.subsecond * k.toNat < nanosPerSecond * UInt32.size :=
    Nat.mul_lt_mul'' hsubsecond k.toNat_lt
  have hfits : nanosPerSecond * UInt32.size ≤ UInt64.size := by decide
  have hword : nanosPerSecond ≤ UInt64.size := by decide
  rw [UInt64.toNat_mul, UInt64.toNat_ofNat_of_lt' (hsubsecond.trans_le hword), UInt32.toNat_toUInt64]
  exact Nat.mod_eq_of_lt (hproduct.trans_le hfits)

/-- Carrying loses nothing, and the seconds do not fit only if the product is beyond the
    largest span. -/
theorem scaleInWords_eq (s : Span) (k : UInt32) : s.scaleInWords k = s.scale k := by
  have hspan : s.nanos = s.seconds * nanosPerSecond + s.subsecond :=
    (Nat.div_add_mod' s.nanos nanosPerSecond).symm
  have hcarried : (s.seconds * k.toNat + s.subsecond * k.toNat / nanosPerSecond) * nanosPerSecond +
      s.subsecond * k.toNat % nanosPerSecond = s.nanos * k.toNat := by
    rw [hspan, Nat.add_mul, Nat.add_mul, Nat.add_assoc, Nat.div_add_mod', Nat.mul_right_comm]
  rw [scaleInWords, toNat_subsecond_mul, scale]
  split
  · rw [hcarried]
  · rename_i hover
    have hlimit : limit ≤ s.nanos * k.toNat := by
      have hseconds := Nat.mul_le_mul_right nanosPerSecond (Nat.not_lt.1 hover)
      rw [← hcarried, limit]
      omega
    apply Span.ext
    rw [nanos_ofNanos, nanos_ofNanos, min_self, min_eq_right hlimit]

end Span

/-- The delay after a number of failures in a row that went before. -/
def BackoffConfig.delay (config : BackoffConfig) (failures : Nat) : Span where
  nanos := Min.min config.max.nanos
    (config.initial.nanos * config.multiplier.toNat ^ failures)
  le_limit := (Nat.min_le_left _ _).trans config.max.le_limit

@[simp] theorem BackoffConfig.nanos_delay (config : BackoffConfig) (failures : Nat) :
    (config.delay failures).nanos = Min.min config.max.nanos
      (config.initial.nanos * config.multiplier.toNat ^ failures) := rfl

/-- Delays do not decrease unless the multiplier is zero. -/
theorem BackoffConfig.nanos_delay_mono (config : BackoffConfig) (hgrows : 1 ≤ config.multiplier)
    {i j : Nat} (hij : i ≤ j) : (config.delay i).nanos ≤ (config.delay j).nanos := by
  have hpos : 1 ≤ config.multiplier.toNat := UInt32.le_iff_toNat_le.1 hgrows
  exact min_le_min_left _ (Nat.mul_le_mul_left _ (Nat.pow_le_pow_right hpos hij))

namespace Backoff

/-- The backoff after a number of failures in a row. -/
def ofFailures (config : BackoffConfig) : Nat → Backoff
  | 0 => { config }
  | n + 1 => (ofFailures config n).fail

theorem config_ofFailures (config : BackoffConfig) (n : Nat) :
    (ofFailures config n).config = config := by
  induction n with
  | zero => rfl
  | succ n ih => exact ih

theorem current_ofFailures_succ (config : BackoffConfig) (n : Nat) :
    (ofFailures config (n + 1)).current = some (ofFailures config n).nextDelay := rfl

theorem reset_ofFailures (config : BackoffConfig) (n : Nat) :
    (ofFailures config n).reset = ofFailures config 0 := by
  rw [reset, config_ofFailures]
  rfl

/-- A product that is capped afterwards may be capped before. -/
theorem min_min_mul (cap a k : Nat) : min cap (min cap a * k) = min cap (a * k) := by
  rcases k.eq_zero_or_pos with rfl | hk
  · rw [Nat.mul_zero, Nat.mul_zero]
  · rcases le_total a cap with hle | hle
    · rw [min_eq_right hle]
    · have hcap : cap ≤ cap * k := Nat.le_mul_of_pos_right cap hk
      rw [min_eq_left hle, min_eq_left hcap, min_eq_left (hcap.trans (Nat.mul_le_mul_right k hle))]

/-- The delay in closed form. -/
theorem nextDelay_ofFailures (config : BackoffConfig) (n : Nat) :
    (ofFailures config n).nextDelay = config.delay n := by
  apply Span.ext
  induction n with
  | zero =>
    have hfirst : (ofFailures config 0).nextDelay = config.initial.min config.max := rfl
    rw [hfirst, Span.nanos_min, BackoffConfig.nanos_delay, pow_zero, Nat.mul_one, min_comm]
  | succ n ih =>
    have hnext : (ofFailures config (n + 1)).nextDelay =
        ((ofFailures config n).nextDelay.scale config.multiplier).min config.max := by
      rw [nextDelay, current_ofFailures_succ, config_ofFailures]
    rw [hnext, Span.nanos_min, Span.scale, Span.nanos_ofNanos, ih, min_assoc,
      min_eq_right config.max.le_limit, min_comm]
    simp only [BackoffConfig.nanos_delay]
    rw [min_min_mul, Nat.mul_assoc, ← pow_succ]

/-! ## Any calls -/

/-- What may be called on a backoff. -/
inductive Call where
  /-- The next delay is asked for. -/
  | nextDelay
  | reset
  deriving DecidableEq, Repr

/-- A backoff in use, and the delays that it has handed out since it was created or last
    reset, in order. -/
structure Streak where
  backoff : Backoff
  delays : List Span := []
  deriving DecidableEq, Repr

namespace Streak

/-- What a call does; a delay that is asked for is handed out. -/
def call (s : Streak) : Call → Streak
  | .nextDelay => ⟨s.backoff.fail, s.delays ++ [s.backoff.nextDelay]⟩
  | .reset => ⟨s.backoff.reset, []⟩

/-- A new backoff after some calls. -/
def ofCalls (config : BackoffConfig) (calls : List Call) : Streak :=
  calls.foldl call { backoff := { config } }

/-- The backoff is as after as many failures in a row as delays have been handed out, and
    these are the delays in closed form. -/
structure Regular (config : BackoffConfig) (s : Streak) : Prop where
  backoff : s.backoff = .ofFailures config s.delays.length
  delays : s.delays = (List.range s.delays.length).map config.delay

variable {config : BackoffConfig} {s : Streak}

theorem Regular.nextDelay (h : s.Regular config) :
    s.backoff.nextDelay = config.delay s.delays.length := by
  rw [h.backoff, nextDelay_ofFailures]

theorem Regular.call (h : s.Regular config) (c : Call) : (s.call c).Regular config := by
  cases c with
  | nextDelay =>
    constructor
    · simp [Streak.call, ofFailures, ← h.backoff]
    · simp [Streak.call, h.nextDelay, List.range_succ, ← h.delays]
  | reset =>
    refine ⟨?_, rfl⟩
    rw [Streak.call, h.backoff, reset_ofFailures]
    rfl

theorem regular_ofCalls (config : BackoffConfig) (calls : List Call) :
    (ofCalls config calls).Regular config :=
  List.foldlRecOn calls Streak.call ⟨rfl, rfl⟩ fun _ h c _ => h.call c

theorem Regular.eq_delay (h : s.Regular config) {k : Nat} {delay : Span}
    (hdelay : s.delays[k]? = some delay) : delay = config.delay k := by
  obtain ⟨hk, -⟩ := List.getElem?_eq_some_iff.1 hdelay
  rw [h.delays, List.getElem?_map, List.getElem?_range hk] at hdelay
  exact (Option.some.inj hdelay).symm

theorem Regular.pairwise_delays (h : s.Regular config) (hgrows : 1 ≤ config.multiplier) :
    s.delays.Pairwise (·.nanos ≤ ·.nanos) := by
  rw [h.delays, List.pairwise_map]
  exact List.pairwise_lt_range.imp fun hlt => config.nanos_delay_mono hgrows hlt.le

theorem Regular.current (h : s.Regular config) : s.backoff.current = s.delays.getLast? := by
  rw [h.delays, List.getLast?_map, List.getLast?_range, h.backoff]
  cases s.delays.length with
  | zero => rfl
  | succ n =>
    rw [current_ofFailures_succ, nextDelay_ofFailures]
    rfl

end Streak

/-- Whatever is called on a backoff, in any order, the delay that comes after `k` others in
    a row is the initial delay times the `k`-th power of the multiplier, in exact arithmetic
    and capped once, although each is worked out in words from the one before. So no delay
    exceeds the largest one, delays in a row do not decrease unless the multiplier is zero,
    and the current delay is the one that was handed out last. -/
theorem delays_of_calls (config : BackoffConfig) (calls : List Call) :
    let s := Streak.ofCalls config calls
    let next := s.backoff.nextDelay
    next.nanos = Min.min config.max.nanos
      (config.initial.nanos * config.multiplier.toNat ^ s.delays.length) ∧
    (∀ k, ∀ delay ∈ s.delays[k]?, delay.nanos = Min.min config.max.nanos
      (config.initial.nanos * config.multiplier.toNat ^ k)) ∧
    (∀ delay ∈ s.backoff.current,
      next = (delay.scaleInWords config.multiplier).min config.max) ∧
    (∀ delay ∈ s.delays, delay.nanos ≤ config.max.nanos) ∧
    (1 ≤ config.multiplier → s.delays.Pairwise (·.nanos ≤ ·.nanos)) ∧
    s.backoff.current = s.delays.getLast? := by
  intro s next
  have h : s.Regular config := Streak.regular_ofCalls config calls
  have hplace : ∀ k, ∀ delay ∈ s.delays[k]?, delay.nanos = Min.min config.max.nanos
      (config.initial.nanos * config.multiplier.toNat ^ k) := by
    intro k delay hdelay
    rw [h.eq_delay hdelay, config.nanos_delay]
  refine ⟨?_, hplace, ?_, ?_, h.pairwise_delays, h.current⟩
  · exact congrArg Span.nanos h.nextDelay
  · intro delay hdelay
    have hnext : next = (delay.scale s.backoff.config.multiplier).min s.backoff.config.max := by
      simp only [next, Backoff.nextDelay, Option.mem_def.1 hdelay]
    rw [hnext, h.backoff, config_ofFailures, Span.scaleInWords_eq]
  · intro delay hdelay
    obtain ⟨k, hk⟩ := List.mem_iff_getElem?.1 hdelay
    rw [hplace k delay hk]
    exact Nat.min_le_left _ _

/-- A first delay just below a second is carried, and a product that leaves the words is
    the largest span. -/
theorem delays_of_calls_carried :
    let config : BackoffConfig := ⟨.ofNanos 999999999, .ofNanos Span.limit, 4294967295⟩
    let calls : List Call := [.nextDelay, .reset, .nextDelay, .nextDelay, .nextDelay, .nextDelay]
    let s := Streak.ofCalls config calls
    1 ≤ config.multiplier ∧ s.delays.Pairwise (·.nanos ≤ ·.nanos) ∧
      s.delays.map Span.nanos =
        [999999999, 4294967290705032705, 18446744046672872959880382975, Span.limit] ∧
      s.backoff.current = some (.ofNanos Span.limit) := by
  intro config calls s
  have hgrows : 1 ≤ config.multiplier := by decide
  obtain ⟨-, -, -, -, hpairwise, hcurrent⟩ := delays_of_calls config calls
  refine ⟨hgrows, hpairwise hgrows, ?_, ?_⟩
  · decide +kernel
  · rw [hcurrent]
    decide +kernel

end Backoff
end MetricIntake
