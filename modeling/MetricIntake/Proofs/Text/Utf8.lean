-- SUMMARY: The scanner reads exactly the texts that are written as UTF-8, and reads each as itself.
import MetricIntake.Text.Utf8

/-!
# Reading UTF-8

`Spells` says which bytes stand for a character: the leading byte tells how many
follow, each byte holds its share of the bits, and no shorter sequence will do.
The writer writes these sequences, and the scanner accepts no others. What the
scanner has half read is always the front of such a sequence.
-/

namespace MetricIntake.Utf8

/-! ## Characters -/

/-- A byte that continues a character. -/
def IsTail (b : UInt8) : Prop := 0x80 ≤ b.toNat ∧ b.toNat < 0xC0

/-- The byte sequences that stand for a character. Each is as short as it can be;
    that the number is one of a character is part of having a character. -/
inductive Spells (c : Char) : List UInt8 → Prop
  | one {b : UInt8} : b.toNat < 0x80 → c.toNat = b.toNat → Spells c [b]
  | two {b x : UInt8} : 0xC0 ≤ b.toNat → b.toNat < 0xE0 → IsTail x →
    c.toNat = (b.toNat - 0xC0) * 64 + (x.toNat - 0x80) → 0x80 ≤ c.toNat → Spells c [b, x]
  | three {b x y : UInt8} : 0xE0 ≤ b.toNat → b.toNat < 0xF0 → IsTail x → IsTail y →
    c.toNat = ((b.toNat - 0xE0) * 64 + (x.toNat - 0x80)) * 64 + (y.toNat - 0x80) →
    0x800 ≤ c.toNat → Spells c [b, x, y]
  | four {b x y z : UInt8} : 0xF0 ≤ b.toNat → b.toNat < 0xF8 → IsTail x → IsTail y → IsTail z →
    c.toNat = (((b.toNat - 0xF0) * 64 + (x.toNat - 0x80)) * 64 + (y.toNat - 0x80)) * 64 +
      (z.toNat - 0x80) →
    0x10000 ≤ c.toNat → Spells c [b, x, y, z]

theorem toNat_lt (c : Char) : c.toNat < 0xD800 ∨ 0xDFFF < c.toNat ∧ c.toNat < 0x110000 :=
  c.valid

theorem toNat_ofNat {n : Nat} (h : n.isValidChar) : (Char.ofNat n).toNat = n := by
  rw [Char.ofNat, dif_pos h]
  rfl

theorem isTail_ofNat (n : Nat) : IsTail (UInt8.ofNat (n % 64 + 0x80)) := by
  simp only [IsTail, UInt8.toNat_ofNat']
  omega

theorem ofNat_eq (b : UInt8) {n : Nat} (h : n = b.toNat) : UInt8.ofNat n = b := by
  rw [h, UInt8.ofNat_toNat]

/-- The writer writes the sequence of a character. -/
theorem spells_iff {c : Char} {bytes : List UInt8} :
    Spells c bytes ↔ String.utf8EncodeChar c = bytes := by
  have hc := toNat_lt c
  have hval : c.val.toNat = c.toNat := rfl
  constructor
  · intro h
    unfold String.utf8EncodeChar
    cases h with
    | @one b hb hn =>
      rw [hval, if_pos (by omega), ofNat_eq b hn]
    | @two b x hb hb' hx hn hshort =>
      obtain ⟨hx, hx'⟩ := hx
      rw [hval, if_neg (by omega), if_pos (by omega), ofNat_eq b (by omega), ofNat_eq x (by omega)]
    | @three b x y hb hb' hx hy hn hshort =>
      obtain ⟨hx, hx'⟩ := hx
      obtain ⟨hy, hy'⟩ := hy
      rw [hval, if_neg (by omega), if_neg (by omega), if_pos (by omega), ofNat_eq b (by omega),
        ofNat_eq x (by omega), ofNat_eq y (by omega)]
    | @four b x y z hb hb' hx hy hz hn hshort =>
      obtain ⟨hx, hx'⟩ := hx
      obtain ⟨hy, hy'⟩ := hy
      obtain ⟨hz, hz'⟩ := hz
      rw [hval, if_neg (by omega), if_neg (by omega), if_neg (by omega), ofNat_eq b (by omega),
        ofNat_eq x (by omega), ofNat_eq y (by omega), ofNat_eq z (by omega)]
  · rintro rfl
    unfold String.utf8EncodeChar
    dsimp only
    rw [hval]
    split
    · refine .one ?_ ?_ <;> simp only [UInt8.toNat_ofNat'] <;> omega
    · split
      · refine .two ?_ ?_ (isTail_ofNat _) ?_ (by omega) <;> simp only [UInt8.toNat_ofNat'] <;> omega
      · split
        · refine .three ?_ ?_ (isTail_ofNat _) (isTail_ofNat _) ?_ (by omega) <;>
            simp only [UInt8.toNat_ofNat'] <;> omega
        · refine .four ?_ ?_ (isTail_ofNat _) (isTail_ofNat _) (isTail_ofNat _) ?_ (by omega) <;>
            simp only [UInt8.toNat_ofNat'] <;> omega

/-! ## Leading bytes -/

section lead

variable {b : UInt8}

theorem lead_one (h : b.toNat < 0x80) : lead b = .whole (Char.ofNat b.toNat) :=
  if_pos h

theorem lead_two (h : 0xC2 ≤ b.toNat) (h' : b.toNat < 0xE0) :
    lead b = .starts ⟨1, 0x80, 0xBF, b.toNat - 0xC0⟩ := by
  unfold lead
  simp only
  rw [if_neg (by omega), if_neg (by omega), if_pos h']

/-- A leading byte of three rules out what fits into two bytes, and surrogates. -/
theorem lead_three (h : 0xE0 ≤ b.toNat) (h' : b.toNat < 0xF0) :
    ∃ low high, lead b = .starts ⟨2, low, high, b.toNat - 0xE0⟩ ∧
      ∀ x : UInt8, low ≤ x ∧ x ≤ high ↔
        IsTail x ∧ (b.toNat = 0xE0 → 0xA0 ≤ x.toNat) ∧ (b.toNat = 0xED → x.toNat < 0xA0) := by
  unfold lead
  simp only
  rw [if_neg (by omega), if_neg (by omega), if_neg (by omega)]
  split
  · refine ⟨0xA0, 0xBF, by simp_all, fun x => ?_⟩
    simp only [UInt8.le_iff_toNat_le, IsTail, UInt8.reduceToNat]
    omega
  · split
    · refine ⟨0x80, 0x9F, by simp_all, fun x => ?_⟩
      simp only [UInt8.le_iff_toNat_le, IsTail, UInt8.reduceToNat]
      omega
    · refine ⟨0x80, 0xBF, rfl, fun x => ?_⟩
      simp only [UInt8.le_iff_toNat_le, IsTail, UInt8.reduceToNat]
      omega

/-- A leading byte of four rules out what fits into three bytes, and what lies beyond
    the last character. -/
theorem lead_four (h : 0xF0 ≤ b.toNat) (h' : b.toNat < 0xF5) :
    ∃ low high, lead b = .starts ⟨3, low, high, b.toNat - 0xF0⟩ ∧
      ∀ x : UInt8, low ≤ x ∧ x ≤ high ↔
        IsTail x ∧ (b.toNat = 0xF0 → 0x90 ≤ x.toNat) ∧ (b.toNat = 0xF4 → x.toNat < 0x90) := by
  unfold lead
  simp only
  rw [if_neg (by omega), if_neg (by omega), if_neg (by omega), if_neg (by omega), if_neg (by omega),
    if_neg (by omega)]
  split
  · refine ⟨0x90, 0xBF, by simp_all, fun x => ?_⟩
    simp only [UInt8.le_iff_toNat_le, IsTail, UInt8.reduceToNat]
    omega
  · split
    · refine ⟨0x80, 0xBF, rfl, fun x => ?_⟩
      simp only [UInt8.le_iff_toNat_le, IsTail, UInt8.reduceToNat]
      omega
    · rw [if_pos (by omega)]
      refine ⟨0x80, 0x8F, by simp; omega, fun x => ?_⟩
      simp only [UInt8.le_iff_toNat_le, IsTail, UInt8.reduceToNat]
      omega

theorem lead_bad (h : 0x80 ≤ b.toNat) (h' : b.toNat < 0xC2 ∨ 0xF5 ≤ b.toNat) : lead b = .bad := by
  unfold lead
  simp only
  rw [if_neg (by omega)]
  split
  · rfl
  · rw [if_neg (by omega), if_neg (by omega), if_neg (by omega), if_neg (by omega), if_neg (by omega),
      if_neg (by omega), if_neg (by omega)]

end lead

/-! ## Steps -/

namespace Scanner

variable {items : List (Option Char)} {p : Partial} {b x : UInt8}

theorem step_whole {c : Char} (h : lead b = .whole c) :
    step ⟨items, none⟩ b = ⟨some c :: items, none⟩ := by
  simp only [step, begin, h]

theorem step_starts (h : lead b = .starts p) : step ⟨items, none⟩ b = ⟨items, some p⟩ := by
  simp only [step, begin, h]

/-- A byte in range brings a pending character forward. -/
theorem step_more (hx : p.low ≤ x ∧ x ≤ p.high) (howed : 1 < p.owed) :
    step ⟨items, some p⟩ x =
      ⟨items, some ⟨p.owed - 1, 0x80, 0xBF, p.bits * 64 + (x.toNat - 0x80)⟩⟩ := by
  simp only [step, hx, decide_true, Bool.and_self, if_true, if_neg (Nat.not_le.2 howed)]

/-- The last byte that a pending character owes ends it. -/
theorem step_last (hx : p.low ≤ x ∧ x ≤ p.high) (howed : p.owed ≤ 1) :
    step ⟨items, some p⟩ x =
      ⟨some (Char.ofNat (p.bits * 64 + (x.toNat - 0x80))) :: items, none⟩ := by
  simp only [step, hx, decide_true, Bool.and_self, if_true, if_pos howed]

/-- A byte out of range is read anew behind an ill-formed part. -/
theorem step_out (hx : ¬ (p.low ≤ x ∧ x ≤ p.high)) :
    step ⟨items, some p⟩ x = step ⟨none :: items, none⟩ x := by
  simp only [step, ← Bool.decide_and, hx, decide_false]
  rfl

theorem isTail_iff : (0x80 : UInt8) ≤ x ∧ x ≤ 0xBF ↔ IsTail x := by
  simp only [UInt8.le_iff_toNat_le, IsTail, UInt8.reduceToNat]
  omega

/-- The sequence of a character is read as this character. -/
theorem foldl_step_of_spells {c : Char} {bytes : List UInt8} (h : Spells c bytes) :
    bytes.foldl step ⟨items, none⟩ = ⟨some c :: items, none⟩ := by
  have hc := toNat_lt c
  cases h with
  | @one b hb hn =>
    have hchar : Char.ofNat b.toNat = c := by rw [← hn, Char.ofNat_toNat]
    rw [List.foldl_cons, step_whole (lead_one hb), hchar]
    rfl
  | @two b x hb hb' hx hn hshort =>
    have hlead := lead_two (b := b) (by unfold IsTail at hx; omega) hb'
    have hchar : Char.ofNat ((b.toNat - 0xC0) * 64 + (x.toNat - 0x80)) = c := by
      rw [← hn, Char.ofNat_toNat]
    rw [List.foldl_cons, step_starts hlead, List.foldl_cons, step_last (isTail_iff.2 hx) (by simp),
      hchar]
    rfl
  | @three b x y hb hb' hx hy hn hshort =>
    obtain ⟨low, high, hlead, hrange⟩ := lead_three hb hb'
    have hx' := (hrange x).2 ⟨hx, by unfold IsTail at hx hy; omega, by unfold IsTail at hx hy; omega⟩
    have hchar : Char.ofNat (((b.toNat - 0xE0) * 64 + (x.toNat - 0x80)) * 64 + (y.toNat - 0x80)) = c := by
      rw [← hn, Char.ofNat_toNat]
    rw [List.foldl_cons, step_starts hlead, List.foldl_cons, step_more hx' (by simp), List.foldl_cons,
      step_last (isTail_iff.2 hy) (by simp), hchar]
    rfl
  | @four b x y z hb hb' hx hy hz hn hshort =>
    obtain ⟨low, high, hlead, hrange⟩ := lead_four (b := b) hb (by unfold IsTail at *; omega)
    have hx' := (hrange x).2
      ⟨hx, by unfold IsTail at hx hy hz; omega, by unfold IsTail at hx hy hz; omega⟩
    have hchar : Char.ofNat ((((b.toNat - 0xF0) * 64 + (x.toNat - 0x80)) * 64 + (y.toNat - 0x80)) * 64 +
        (z.toNat - 0x80)) = c := by
      rw [← hn, Char.ofNat_toNat]
    rw [List.foldl_cons, step_starts hlead, List.foldl_cons, step_more hx' (by simp), List.foldl_cons,
      step_more (isTail_iff.2 hy) (by simp), List.foldl_cons, step_last (isTail_iff.2 hz) (by simp),
      hchar]
    rfl

/-- A written text is read character by character. -/
theorem foldl_step_flatMap (cs : List Char) :
    (cs.flatMap String.utf8EncodeChar).foldl step ⟨items, none⟩ =
      ⟨(cs.map some).reverse ++ items, none⟩ := by
  induction cs generalizing items with
  | nil => rfl
  | cons c cs ih =>
    rw [List.flatMap_cons, List.foldl_append, foldl_step_of_spells (spells_iff.2 rfl), ih]
    simp

end Scanner

/-! ## Pending characters -/

/-- What a leading byte that starts a character begins. -/
theorem lead_eq_starts {b : UInt8} {p : Partial} (h : lead b = .starts p) :
    (0xC2 ≤ b.toNat ∧ b.toNat < 0xE0 ∧ p.owed = 1 ∧ p.bits = b.toNat - 0xC0 ∧
      ∀ x, p.low ≤ x ∧ x ≤ p.high → IsTail x) ∨
    (0xE0 ≤ b.toNat ∧ b.toNat < 0xF0 ∧ p.owed = 2 ∧ p.bits = b.toNat - 0xE0 ∧
      ∀ x, p.low ≤ x ∧ x ≤ p.high → IsTail x ∧
        (b.toNat = 0xE0 → 0xA0 ≤ x.toNat) ∧ (b.toNat = 0xED → x.toNat < 0xA0)) ∨
    (0xF0 ≤ b.toNat ∧ b.toNat < 0xF5 ∧ p.owed = 3 ∧ p.bits = b.toNat - 0xF0 ∧
      ∀ x, p.low ≤ x ∧ x ≤ p.high → IsTail x ∧
        (b.toNat = 0xF0 → 0x90 ≤ x.toNat) ∧ (b.toNat = 0xF4 → x.toNat < 0x90)) := by
  rcases Nat.lt_or_ge b.toNat 0x80 with h80 | h80
  · rw [lead_one h80] at h
    cases h
  rcases Nat.lt_or_ge b.toNat 0xC2 with hC2 | hC2
  · rw [lead_bad h80 (.inl hC2)] at h
    cases h
  rcases Nat.lt_or_ge b.toNat 0xE0 with hE0 | hE0
  · left
    obtain rfl := Lead.starts.inj ((lead_two hC2 hE0).symm.trans h)
    exact ⟨hC2, hE0, rfl, rfl, fun x => Scanner.isTail_iff.1⟩
  rcases Nat.lt_or_ge b.toNat 0xF0 with hF0 | hF0
  · right; left
    obtain ⟨low, high, hlead, hrange⟩ := lead_three hE0 hF0
    obtain rfl := Lead.starts.inj (hlead.symm.trans h)
    exact ⟨hE0, hF0, rfl, rfl, fun x => (hrange x).1⟩
  rcases Nat.lt_or_ge b.toNat 0xF5 with hF5 | hF5
  · right; right
    obtain ⟨low, high, hlead, hrange⟩ := lead_four hF0 hF5
    obtain rfl := Lead.starts.inj (hlead.symm.trans h)
    exact ⟨hF0, hF5, rfl, rfl, fun x => (hrange x).1⟩
  · rw [lead_bad h80 (.inr hF5)] at h
    cases h

theorem spells_of_lead {b : UInt8} {c : Char} (h : lead b = .whole c) : Spells c [b] := by
  rcases Nat.lt_or_ge b.toNat 0x80 with h80 | h80
  · obtain rfl := Lead.whole.inj ((lead_one h80).symm.trans h)
    exact .one h80 (toNat_ofNat (.inl (by omega)))
  · unfold lead at h
    simp only at h
    rw [if_neg (Nat.not_lt.2 h80)] at h
    repeat' split at h
    all_goals cases h

/-- The bytes of a pending character: a leading byte, and bytes that brought it
    forward. -/
inductive Begun : Option Partial → List UInt8 → Prop
  | none : Begun none []
  | lead {b : UInt8} {p : Partial} : lead b = .starts p → Begun (some p) [b]
  | more {p : Partial} {front : List UInt8} {x : UInt8} :
    Begun (some p) front → 1 < p.owed → p.low ≤ x ∧ x ≤ p.high →
    Begun (some ⟨p.owed - 1, 0x80, 0xBF, p.bits * 64 + (x.toNat - 0x80)⟩) (front ++ [x])

theorem owed_pos_of_lead {b : UInt8} {p : Partial} (h : lead b = .starts p) : 0 < p.owed := by
  rcases lead_eq_starts h with ⟨-, -, howed, -⟩ | ⟨-, -, howed, -⟩ | ⟨-, -, howed, -⟩ <;> omega

theorem Begun.owed_le {p : Partial} {front : List UInt8} (h : Begun (some p) front) : p.owed ≤ 3 := by
  generalize hpending : some p = pending at h
  induction h generalizing p with
  | none => cases hpending
  | lead hlead =>
    obtain rfl := Option.some.inj hpending
    rcases lead_eq_starts hlead with ⟨-, -, howed, -⟩ | ⟨-, -, howed, -⟩ | ⟨-, -, howed, -⟩ <;> omega
  | more _ _ _ ih =>
    obtain rfl := Option.some.inj hpending
    have := ih rfl
    simp only
    omega

section sequences

variable {b x y z : UInt8} {p : Partial}

theorem spells_two (h : lead b = .starts p) (howed : p.owed = 1) (hx : p.low ≤ x ∧ x ≤ p.high) :
    Spells (Char.ofNat (p.bits * 64 + (x.toNat - 0x80))) [b, x] := by
  rcases lead_eq_starts h with ⟨hb, hb', -, hbits, hrange⟩ | ⟨-, -, h2, -⟩ | ⟨-, -, h3, -⟩
  · have hx := hrange x hx
    have ⟨hxlow, hxhigh⟩ := hx
    have hchar := toNat_ofNat (n := p.bits * 64 + (x.toNat - 0x80)) (.inl (by omega))
    rw [hbits] at hchar ⊢
    exact .two (by omega) hb' hx hchar (by omega)
  · omega
  · omega

theorem spells_three (h : lead b = .starts p) (howed : p.owed = 2) (hx : p.low ≤ x ∧ x ≤ p.high)
    (hy : IsTail y) :
    Spells (Char.ofNat ((p.bits * 64 + (x.toNat - 0x80)) * 64 + (y.toNat - 0x80))) [b, x, y] := by
  rcases lead_eq_starts h with ⟨-, -, h1, -⟩ | ⟨hb, hb', -, hbits, hrange⟩ | ⟨-, -, h3, -⟩
  · omega
  · obtain ⟨hx, hE0, hED⟩ := hrange x hx
    have ⟨hxlow, hxhigh⟩ := hx
    have ⟨hylow, hyhigh⟩ := hy
    have hchar := toNat_ofNat (n := (p.bits * 64 + (x.toNat - 0x80)) * 64 + (y.toNat - 0x80))
      (by unfold Nat.isValidChar; omega)
    rw [hbits] at hchar ⊢
    exact .three hb hb' hx hy hchar (by omega)
  · omega

theorem spells_four (h : lead b = .starts p) (howed : p.owed = 3) (hx : p.low ≤ x ∧ x ≤ p.high)
    (hy : IsTail y) (hz : IsTail z) :
    Spells
      (Char.ofNat (((p.bits * 64 + (x.toNat - 0x80)) * 64 + (y.toNat - 0x80)) * 64 + (z.toNat - 0x80)))
      [b, x, y, z] := by
  rcases lead_eq_starts h with ⟨-, -, h1, -⟩ | ⟨-, -, h2, -⟩ | ⟨hb, hb', -, hbits, hrange⟩
  · omega
  · omega
  · obtain ⟨hx, hF0, hF4⟩ := hrange x hx
    have ⟨hxlow, hxhigh⟩ := hx
    have ⟨hylow, hyhigh⟩ := hy
    have ⟨hzlow, hzhigh⟩ := hz
    have hchar := toNat_ofNat
      (n := ((p.bits * 64 + (x.toNat - 0x80)) * 64 + (y.toNat - 0x80)) * 64 + (z.toNat - 0x80))
      (by unfold Nat.isValidChar; omega)
    rw [hbits] at hchar ⊢
    exact .four hb (by omega) hx hy hz hchar (by omega)

end sequences

/-- The last byte that a pending character owes completes its sequence. -/
theorem Begun.spells {p : Partial} {front : List UInt8} {x : UInt8} (h : Begun (some p) front)
    (howed : p.owed ≤ 1) (hx : p.low ≤ x ∧ x ≤ p.high) :
    Spells (Char.ofNat (p.bits * 64 + (x.toNat - 0x80))) (front ++ [x]) := by
  cases h with
  | lead hlead =>
    have hpos := owed_pos_of_lead hlead
    exact spells_two hlead (by omega) hx
  | more hfront hq hy =>
    have htailx := Scanner.isTail_iff.1 hx
    simp only at howed
    cases hfront with
    | lead hlead => exact spells_three hlead (by omega) hy htailx
    | more hfront hr hz =>
      have htaily := Scanner.isTail_iff.1 hy
      simp only at howed hq
      cases hfront with
      | lead hlead => exact spells_four hlead (by omega) hz htaily htailx
      | more hfront hr' _ =>
        -- no leading byte starts more than four
        have := hfront.owed_le
        simp only at hr hq
        omega

/-! ## Texts -/

namespace Scanner

/-- The scanner has read characters only, and the front of another one. -/
def Reads (s : Scanner) (bytes : List UInt8) : Prop :=
  ∃ (cs : List Char) (front : List UInt8), s.items.reverse = cs.map some ∧ Begun s.pending front ∧
    bytes = cs.flatMap String.utf8EncodeChar ++ front

theorem items_suffix_step (s : Scanner) (b : UInt8) : s.items <:+ (s.step b).items := by
  have hbegin : ∀ s : Scanner, s.items <:+ (s.begin b).items := by
    intro s
    unfold begin
    split
    · exact List.suffix_cons _ _
    · exact List.suffix_rfl
    · exact List.suffix_cons _ _
  unfold step
  split
  · exact hbegin s
  · split
    · simp only
      split
      · exact List.suffix_cons _ _
      · exact List.suffix_rfl
    · exact (List.suffix_cons none s.items).trans (hbegin ⟨none :: s.items, none⟩)

theorem items_suffix_foldl (s : Scanner) (bytes : List UInt8) :
    s.items <:+ (bytes.foldl step s).items := by
  induction bytes generalizing s with
  | nil => exact List.suffix_rfl
  | cons b bytes ih => exact (s.items_suffix_step b).trans (ih (s.step b))

/-- A step that finds nothing ill-formed reads on. -/
theorem Reads.step {s : Scanner} {bytes : List UInt8} (h : s.Reads bytes) {b : UInt8}
    (hgood : none ∉ (s.step b).items) : (s.step b).Reads (bytes ++ [b]) := by
  obtain ⟨cs, front, hitems, hbegun, rfl⟩ := h
  obtain ⟨items, pending⟩ := s
  cases pending with
  | none =>
    obtain rfl : front = [] := by cases hbegun; rfl
    cases hlead : lead b with
    | whole c =>
      rw [step_whole hlead]
      refine ⟨cs ++ [c], [], ?_, .none, ?_⟩
      · simpa using hitems
      · have hspells := spells_iff.1 (spells_of_lead hlead)
        simp [hspells]
    | starts p =>
      rw [step_starts hlead]
      exact ⟨cs, [b], hitems, .lead hlead, by simp⟩
    | bad =>
      simp [Scanner.step, begin, hlead] at hgood
  | some p =>
    by_cases hb : p.low ≤ b ∧ b ≤ p.high
    · rcases Nat.lt_or_ge 1 p.owed with howed | howed
      · rw [step_more hb howed]
        exact ⟨cs, front ++ [b], hitems, .more hbegun howed hb, List.append_assoc ..⟩
      · rw [step_last hb howed]
        refine ⟨cs ++ [Char.ofNat (p.bits * 64 + (b.toNat - 0x80))], [], ?_, .none, ?_⟩
        · simpa using hitems
        · have hspells := spells_iff.1 (hbegun.spells howed hb)
          simp [hspells]
    · rw [step_out hb] at hgood
      have hnone := (items_suffix_step ⟨none :: items, none⟩ b).subset List.mem_cons_self
      exact absurd hnone hgood

theorem Reads.foldl {s : Scanner} {front : List UInt8} (h : s.Reads front) {bytes : List UInt8}
    (hgood : none ∉ (bytes.foldl Scanner.step s).items) :
    (bytes.foldl Scanner.step s).Reads (front ++ bytes) := by
  induction bytes generalizing s front with
  | nil => rwa [List.append_nil]
  | cons b bytes ih =>
    have hstep : none ∉ (s.step b).items := by
      intro hnone
      exact hgood ((items_suffix_foldl (s.step b) bytes).subset hnone)
    have hrest := ih (h.step hstep) hgood
    rwa [List.append_assoc] at hrest

end Scanner

/-- A list of options holds values only if all can be taken out. -/
theorem mapM_id_eq_some_iff {α : Type} {items : List (Option α)} {as : List α} :
    items.mapM id = some as ↔ items = as.map some := by
  induction items generalizing as with
  | nil => cases as <;> simp
  | cons item items ih =>
    cases item with
    | none => cases as <;> simp
    | some a =>
      simp only [List.mapM_cons, id, Option.bind_eq_bind, Option.bind_some, Option.bind_eq_some_iff,
        Option.pure_def, ih]
      cases as with
      | nil => simp
      | cons a' as => simpa using And.comm

/-- The characters of a byte string are those that are written as it. -/
theorem decode?_eq_some_iff {bytes : List UInt8} {cs : List Char} :
    decode? bytes = some cs ↔ cs.flatMap String.utf8EncodeChar = bytes := by
  rw [decode?, mapM_id_eq_some_iff, scan]
  constructor
  · intro h
    have hnone : none ∉ (bytes.foldl Scanner.step {}).finish := by
      rw [h]
      simp
    cases hpending : (bytes.foldl Scanner.step {}).pending with
    | some p => simp [Scanner.finish, hpending] at hnone
    | none =>
      have hnew : Scanner.Reads {} [] := ⟨[], [], rfl, .none, rfl⟩
      simp only [Scanner.finish, hpending] at h hnone
      obtain ⟨cs', front, hitems, hbegun, hbytes⟩ := hnew.foldl (by simpa using hnone)
      rw [hpending] at hbegun
      cases hbegun
      rw [h] at hitems
      obtain rfl := (List.map_inj_right fun _ _ => Option.some.inj).1 hitems
      simpa using hbytes.symm
  · rintro rfl
    rw [Scanner.foldl_step_flatMap]
    simp [Scanner.finish]

/-! ## Texts -/

/-- A text is written character by character. -/
theorem encode_eq_flatMap (s : String) : encode s = s.toList.flatMap String.utf8EncodeChar := by
  rw [encode, ← String.utf8Encode_toList, List.utf8Encode]
  simp

/-- A byte string is read as the text that is written as it, if there is one. -/
theorem text?_eq_some_iff {bytes : List UInt8} {s : String} :
    text? bytes = some s ↔ encode s = bytes := by
  rw [encode_eq_flatMap, ← decode?_eq_some_iff, text?, Option.map_eq_some_iff]
  constructor
  · rintro ⟨cs, hcs, rfl⟩
    rwa [String.toList_ofList]
  · intro h
    exact ⟨s.toList, h, String.ofList_toList⟩

/-- No two texts are written alike. -/
theorem encode_inj {s s' : String} : encode s = encode s' ↔ s = s' := by
  constructor
  · intro h
    have hread : text? (encode s') = some s := text?_eq_some_iff.2 h
    rw [text?_eq_some_iff.2 rfl] at hread
    exact (Option.some.inj hread).symm
  · rintro rfl
    rfl

/-! ## ASCII -/

/-- An ASCII byte stands alone and for itself. -/
theorem Spells.eq_of_ascii {c : Char} {bytes : List UInt8} {b : UInt8} (h : Spells c bytes)
    (hmem : b ∈ bytes) (hb : b.toNat < 0x80) : bytes = [b] ∧ c.toNat = b.toNat := by
  cases h with
  | @one b' hb' hn =>
    obtain rfl := List.mem_singleton.1 hmem
    exact ⟨rfl, hn⟩
  | @two b' x hb' _ hx =>
    have := hx.1
    simp only [List.mem_cons, List.not_mem_nil, or_false] at hmem
    rcases hmem with rfl | rfl <;> omega
  | @three b' x y hb' _ hx hy =>
    have := hx.1
    have := hy.1
    simp only [List.mem_cons, List.not_mem_nil, or_false] at hmem
    rcases hmem with rfl | rfl | rfl <;> omega
  | @four b' x y z hb' _ hx hy hz =>
    have := hx.1
    have := hy.1
    have := hz.1
    simp only [List.mem_cons, List.not_mem_nil, or_false] at hmem
    rcases hmem with rfl | rfl | rfl | rfl <;> omega

/-- Bytes that end in an ASCII byte are written by texts that end in its character. -/
theorem encode_eq_append_iff {s : String} {bytes : List UInt8} {c : Char} {b : UInt8}
    (hb : b.toNat < 0x80) (hc : c.toNat = b.toNat) :
    encode s = bytes ++ [b] ↔ ∃ s', encode s' = bytes ∧ s = s' ++ String.singleton c := by
  have hone : String.utf8EncodeChar c = [b] := spells_iff.1 (.one hb hc)
  constructor
  · intro h
    rw [encode_eq_flatMap] at h
    rcases List.eq_nil_or_concat s.toList with hnil | ⟨front, last, hs⟩
    · simp [hnil] at h
    · rw [List.concat_eq_append] at hs
      rw [hs, List.flatMap_append, List.flatMap_singleton] at h
      have hspells : Spells last (String.utf8EncodeChar last) := spells_iff.2 rfl
      -- the last byte belongs to the last character
      have hlast : b ∈ String.utf8EncodeChar last := by
        rcases List.eq_nil_or_concat (String.utf8EncodeChar last) with hnil | ⟨init, x, hx⟩
        · rw [hnil] at hspells
          cases hspells
        · rw [List.concat_eq_append] at hx
          rw [hx, ← List.append_assoc] at h
          obtain rfl := List.singleton_inj.1 (List.append_inj_right' h rfl)
          simp [hx]
      obtain ⟨hbytes, hnat⟩ := hspells.eq_of_ascii hlast hb
      obtain rfl : last = c := Char.toNat_inj.1 (hnat.trans hc.symm)
      rw [hbytes] at h
      refine ⟨String.ofList front, ?_, ?_⟩
      · rw [encode_eq_flatMap, String.toList_ofList]
        exact List.append_cancel_right h
      · apply String.toList_inj.1
        simp [hs]
  · rintro ⟨s', rfl, rfl⟩
    simp [encode_eq_flatMap, List.flatMap_append, hone]

end MetricIntake.Utf8
