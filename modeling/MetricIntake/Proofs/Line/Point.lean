-- SUMMARY: What becomes of a line: it gives a point, is counted as refused, or is blank; the carriage return at its end never matters.
import MetricIntake.Proofs.Line.Stream
import MetricIntake.Proofs.Text.Fields

/-!
# Lines and their points

A reader takes the carriage return off a line, sets blank lines aside, and reads
the rest as text and the text as a point. `Fate` says what becomes of a line
without any of these steps: a line within the bound that is written by a text of
a point gives this point, and of all others only those go uncounted that are
blank.
-/

namespace MetricIntake

namespace Line

variable {max : Nat} {line body : List UInt8}

/-- What becomes of a line of a stream: the points that it gives, and how often it
    is counted as refused. -/
inductive Fate (max : Nat) (line : List UInt8) : List Point → Nat → Prop
  | accepted {s : String} {p : Point} :
    line.length ≤ max → Utf8.encode s = line → Point.ofLine s = .ok p → Fate max line [p] 0
  | refused :
    (∀ s p, line.length ≤ max → Utf8.encode s = line → Point.ofLine s ≠ .ok p) →
    max < line.length ∨ ¬ Blank line → Fate max line [] 1
  | blank : line.length ≤ max → Blank line → Fate max line [] 0

/-- What becomes of lines: the points that they give, in order, and how many of them
    are counted as refused. -/
inductive Fates (max : Nat) : List (List UInt8) → List Point → Nat → Prop
  | nil : Fates max [] [] 0
  | cons {line : List UInt8} {lines : List (List UInt8)} {points later : List Point}
      {refused laterRefused : Nat} :
    Fate max line points refused → Fates max lines later laterRefused →
    Fates max (line :: lines) (points ++ later) (refused + laterRefused)

/-! ## The carriage return -/

/-- A carriage return at the end changes nothing about the point of a text. -/
theorem ofLine_append_return (s : String) :
    Point.ofLine (s ++ String.singleton '\r') = Point.ofLine s := by
  have hfields : Text.fields (s ++ String.singleton '\r').toList = Text.fields s.toList := by
    rw [String.toList_append, String.toList_singleton]
    exact Text.fields_append_blanks _ (List.forall_mem_singleton.2 rfl)
  rw [Point.ofLine, hfields, Point.ofLine]

/-- A line and its body have the same point, or the same reason why not. -/
theorem Body.exists_ofLine_iff (h : Body line body) (result : Except DecodeError Point) :
    (∃ s, Utf8.encode s = line ∧ Point.ofLine s = result) ↔
      ∃ s, Utf8.encode s = body ∧ Point.ofLine s = result := by
  cases h with
  | plain => rfl
  | returned =>
    have hreturn : ('\r' : Char).toNat = (0x0D : UInt8).toNat := rfl
    constructor
    · rintro ⟨s, hs, hresult⟩
      obtain ⟨s', hs', rfl⟩ := (Utf8.encode_eq_append_iff (by decide) hreturn).1 hs
      exact ⟨s', hs', (ofLine_append_return s').symm.trans hresult⟩
    · rintro ⟨s, hs, hresult⟩
      refine ⟨s ++ String.singleton '\r', ?_, (ofLine_append_return s).trans hresult⟩
      exact (Utf8.encode_eq_append_iff (by decide) hreturn).2 ⟨s, hs, rfl⟩

theorem Body.blank_iff (h : Body line body) : Blank line ↔ Blank body := by
  cases h with
  | plain => rfl
  | returned => simp [Blank, or_imp, forall_and]

/-! ## Items -/

/-- A line that yields nothing is blank. -/
theorem Yields.fate_nil (h : Yields max line []) : Fate max line [] 0 := by
  cases h with
  | blank hlen hbody hblank => exact .blank hlen (hbody.blank_iff.2 hblank)

theorem Yields.fate_ok {item : Except DecodeError String} {p : Point}
    (h : Yields max line [item]) (hp : item >>= Point.ofLine = .ok p) : Fate max line [p] 0 := by
  cases h with
  | tooLong => cases hp
  | notUtf8 => cases hp
  | @decoded body s hlen hbody _ hs =>
    obtain ⟨s', hs', hp'⟩ := (hbody.exists_ofLine_iff _).2 ⟨s, hs, hp⟩
    exact .accepted hlen hs' hp'

theorem Yields.fate_error {item : Except DecodeError String} {e : DecodeError}
    (h : Yields max line [item]) (he : item >>= Point.ofLine = .error e) : Fate max line [] 1 := by
  cases h with
  | tooLong hlong =>
    apply Fate.refused
    · intro s p hlen
      exact absurd hlen (Nat.not_le.2 hlong)
    · exact .inl hlong
  | @notUtf8 body hlen hbody hblank hnone =>
    apply Fate.refused
    · intro s p _ hs hp
      obtain ⟨s', hs', -⟩ := (hbody.exists_ofLine_iff _).1 ⟨s, hs, hp⟩
      exact hnone s' hs'
    · exact .inr (mt hbody.blank_iff.1 hblank)
  | @decoded body s hlen hbody hblank hs =>
    apply Fate.refused
    · intro s' p _ hs' hp
      obtain ⟨s'', hs'', hp'⟩ := (hbody.exists_ofLine_iff _).1 ⟨s', hs', hp⟩
      obtain rfl := Utf8.encode_inj.1 (hs''.trans hs.symm)
      have he : Point.ofLine s'' = .error e := he
      rw [hp'] at he
      cases he
    · exact .inr (mt hbody.blank_iff.1 hblank)

end Line
end MetricIntake
