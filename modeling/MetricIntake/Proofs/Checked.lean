-- SUMMARY: Sums, slices and loops that give nothing where they must not be taken, and the rule by which a loop comes to a result.
import Mathlib.Logic.Relation

/-!
# Checked steps

Sums and slices of lists are total: a sum has no largest word, and a range that leaves the
bytes is cut to them. The ones here give nothing instead, and so does a loop that takes more
turns than it may. A total function that is equal to one made of them takes no sum that is
too large and no slice out of range, and it ends.

The rule for loops (`exists_loop_eq`) is the usual one: an invariant that lets every turn be
taken, and a size that every turn makes smaller.
-/

namespace MetricIntake.Checked

-- ---------------------------------------------------------------------------
-- Sums and slices
-- ---------------------------------------------------------------------------

/-- The sum of two words, which are numbers below `limit`, if it is a word. -/
def add? (limit a b : Nat) : Option Nat :=
  if a + b < limit then some (a + b) else none

/-- The sum of two words, or the largest word if the sum is none. -/
def saturatingAdd (limit a b : Nat) : Nat :=
  min (a + b) (limit - 1)

/-- The bytes from offset `start` to offset `stop`, if that is a range within them. -/
def slice? (bytes : List UInt8) (start stop : Nat) : Option (List UInt8) :=
  if start ≤ stop ∧ stop ≤ bytes.length then some ((bytes.take stop).drop start) else none

variable {limit a b start stop : Nat} {bytes : List UInt8}

theorem add?_of_lt (h : a + b < limit) : add? limit a b = some (a + b) :=
  if_pos h

theorem add?_of_le (h : limit ≤ a + b) : add? limit a b = none :=
  if_neg (Nat.not_lt.2 h)

theorem slice?_of_le (hstart : start ≤ stop) (hstop : stop ≤ bytes.length) :
    slice? bytes start stop = some ((bytes.drop start).take (stop - start)) := by
  rw [slice?, if_pos ⟨hstart, hstop⟩, List.drop_take]

theorem slice?_of_length_lt (h : bytes.length < stop) : slice? bytes start stop = none :=
  if_neg fun hrange => Nat.not_le.2 h hrange.2

/-- The first bytes are always a slice. -/
theorem slice?_front (h : stop ≤ bytes.length) : slice? bytes 0 stop = some (bytes.take stop) := by
  rw [slice?_of_le (Nat.zero_le stop) h, List.drop_zero, Nat.sub_zero]

/-- The last bytes are always a slice. -/
theorem slice?_back (h : start ≤ bytes.length) :
    slice? bytes start bytes.length = some (bytes.drop start) := by
  rw [slice?_of_le h (Nat.le_refl bytes.length), ← List.length_drop, List.take_length]

-- ---------------------------------------------------------------------------
-- Loops
-- ---------------------------------------------------------------------------

/-- What a turn of a loop comes to: a result, with which the loop is left, or a state, from
    which it takes the next turn. -/
inductive Turn (σ α : Type) where
  | leaves (result : α)
  | goesOn (state : σ)

variable {σ α : Type} {turn? : σ → Option (Turn σ α)} {turn : σ → Turn σ α} {value : σ → α}
  {P : σ → Prop} {Q : α → Prop} {size : σ → Nat} {s s' : σ} {n : Nat}

/-- The result of a turn, if the rest of the loop comes to `value`. -/
def Turn.result (value : σ → α) : Turn σ α → α
  | .leaves result => result
  | .goesOn s => value s

/-- The result of a loop that is left in one of its first `n` turns. -/
def loop (turn? : σ → Option (Turn σ α)) : Nat → σ → Option α
  | 0, _ => none
  | n + 1, s =>
    match turn? s with
    | none => none
    | some (.leaves result) => some result
    | some (.goesOn s) => loop turn? n s

/-- A turn from `s` leaves the loop with a result as in `Q`, or goes on with a smaller state
    as in `P`. -/
inductive Turn.Keeps (P : σ → Prop) (Q : α → Prop) (size : σ → Nat) (s : σ) : Turn σ α → Prop
  | leaves {result : α} : Q result → Keeps P Q size s (.leaves result)
  | goesOn {s' : σ} : P s' → size s' < size s → Keeps P Q size s (.goesOn s')

/-- A loop whose turns can be taken from every state as in `P`, and keep it, comes to a result
    as in `Q`. -/
theorem exists_loop_eq (hturn : ∀ s, P s → ∃ t, turn? s = some t ∧ t.Keeps P Q size s) (hs : P s)
    (hn : size s < n) : ∃ result, loop turn? n s = some result ∧ Q result := by
  induction n generalizing s with
  | zero => cases hn
  | succ n ih =>
    obtain ⟨t, ht, hkeeps⟩ := hturn s hs
    rw [loop, ht]
    cases hkeeps with
    | leaves hresult => exact ⟨_, rfl, hresult⟩
    | goesOn hs' hsize => exact ih hs' (Nat.lt_of_lt_of_le hsize (Nat.lt_succ_iff.1 hn))

/-- A loop of turns that may fail comes to what the same loop comes to with turns that do not,
    if none of them fails. -/
theorem loop_eq (hvalue : ∀ s, value s = (turn s).result value)
    (hturn : ∀ s, P s → turn? s = some (turn s)) (hkeeps : ∀ s, P s → (turn s).Keeps P Q size s)
    (hs : P s) (hn : size s < n) : loop turn? n s = some (value s) ∧ Q (value s) := by
  have hsame : ∀ s', P s' ∧ value s' = value s → ∃ t, turn? s' = some t ∧
      t.Keeps (fun s' => P s' ∧ value s' = value s) (fun result => result = value s ∧ Q result)
        size s' := by
    rintro s' ⟨hs', heq⟩
    refine ⟨turn s', hturn s' hs', ?_⟩
    rw [hvalue] at heq
    cases ht : turn s' with
    | leaves result =>
      rw [ht] at heq
      cases ht ▸ hkeeps s' hs' with
      | leaves hresult => exact .leaves ⟨heq, hresult⟩
    | goesOn s'' =>
      rw [ht] at heq
      cases ht ▸ hkeeps s' hs' with
      | goesOn hs'' hsize => exact .goesOn ⟨hs'', heq⟩ hsize
  obtain ⟨result, hloop, rfl, hresult⟩ := exists_loop_eq hsame ⟨hs, rfl⟩ hn
  exact ⟨hloop, hresult⟩

/-- The state `s'` is one from which the loop takes a turn once it has begun with `s`. -/
def Reaches (turn? : σ → Option (Turn σ α)) : σ → σ → Prop :=
  Relation.ReflTransGen fun s s' => turn? s = some (.goesOn s')

theorem Reaches.keeps (h : Reaches turn? s s')
    (hturn : ∀ s, P s → ∃ t, turn? s = some t ∧ t.Keeps P Q size s) (hs : P s) : P s' := by
  induction h with
  | refl => exact hs
  | tail _ hgoes ih =>
    obtain ⟨t, ht, hkeeps⟩ := hturn _ ih
    obtain rfl := Option.some.inj (hgoes.symm.trans ht)
    cases hkeeps with
    | goesOn hs' => exact hs'

end MetricIntake.Checked
