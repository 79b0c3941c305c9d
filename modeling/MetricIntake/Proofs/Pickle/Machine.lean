-- SUMMARY: The pickle machine accepts programs only: each instruction reads what the protocols let follow its opcode.
import MetricIntake.Pickle.Resolve
import MetricIntake.Proofs.Pickle.Opcode
import MetricIntake.Proofs.Text.Utf8

/-!
# What the machine reads

`Reads` says which bytes a reader consumes when it succeeds. A reader that runs
into the end of its input may succeed on less: a line need not have its line
feed there. That does no harm, since a program does not end before STOP, so the
statement is about readers that leave something.
-/

namespace MetricIntake.Pickle

/-- A chain of steps succeeds if each of them does. -/
theorem bind_eq_ok_iff {ε α β : Type} {x : Except ε α} {f : α → Except ε β} {b : β} :
    x >>= f = .ok b ↔ ∃ a, x = .ok a ∧ f a = .ok b := by
  cases x with
  | error e =>
    refine ⟨nofun, ?_⟩
    rintro ⟨a, ha, -⟩
    cases ha
  | ok a =>
    refine ⟨fun h => ⟨a, rfl, h⟩, ?_⟩
    rintro ⟨a', ha, h⟩
    cases ha
    exact h

/-! ## Readers -/

namespace Reader

variable {α β : Type}

/-- Whatever the reader yields comes from bytes as described, which it consumes
    unless it exhausts the input. -/
structure Reads (r : Reader α) (P : α → List UInt8 → Prop) : Prop where
  consumed : ∀ {c c' : Cursor} {a : α}, r.run c = .ok (a, c') →
    ∃ bytes, P a bytes ∧ (c'.rest ≠ [] → c.rest = bytes ++ c'.rest)

theorem Reads.imp {r : Reader α} {P Q : α → List UInt8 → Prop} (hr : r.Reads P)
    (h : ∀ a bytes, P a bytes → Q a bytes) : r.Reads Q where
  consumed hrun := by
    obtain ⟨bytes, hbytes, hrest⟩ := hr.consumed hrun
    exact ⟨bytes, h _ _ hbytes, hrest⟩

theorem Reads.pure {a : α} {P : α → List UInt8 → Prop} (h : P a []) :
    (pure a : Reader α).Reads P where
  consumed hrun := by
    obtain ⟨rfl, rfl⟩ := Prod.mk.inj (Except.ok.inj hrun)
    exact ⟨[], h, fun _ => rfl⟩

theorem Reads.fail {cause : MachineFault} {P : α → List UInt8 → Prop} :
    (fail cause : Reader α).Reads P where
  consumed hrun := by cases hrun

theorem Reads.bind {r : Reader α} {f : α → Reader β} {P : α → List UInt8 → Prop}
    {Q : β → List UInt8 → Prop} (hr : r.Reads P)
    (hf : ∀ a front, P a front → (f a).Reads fun b back => Q b (front ++ back)) :
    (r >>= f).Reads Q where
  consumed {c c' b} hrun := by
    rw [run_bind] at hrun
    cases hfirst : r.run c with
    | error e =>
      rw [hfirst] at hrun
      cases hrun
    | ok parts =>
      obtain ⟨a, c₁⟩ := parts
      rw [hfirst] at hrun
      obtain ⟨front, hfront, hrest₁⟩ := hr.consumed hfirst
      obtain ⟨back, hback, hrest₂⟩ := (hf a front hfront).consumed hrun
      refine ⟨front ++ back, hback, fun hne => ?_⟩
      -- what is left at the end was left in between
      have hne₁ : c₁.rest ≠ [] := by
        intro hnil
        have hle := (f a).shrinks hrun
        rw [hnil] at hle
        exact hne (List.eq_nil_of_length_eq_zero (Nat.le_zero.1 hle))
      rw [hrest₁ hne₁, hrest₂ hne, List.append_assoc]

theorem reads_bytes (n : Nat) :
    (bytes n).Reads fun front consumed => front = consumed ∧ consumed.length = n where
  consumed {c c' a} hrun := by
    simp only [bytes] at hrun
    split at hrun
    · cases hrun
    · rename_i front rest htake
      obtain ⟨rfl, rfl⟩ := Prod.mk.inj (Except.ok.inj hrun)
      obtain ⟨hrest, hn⟩ := take?_eq_some_iff.1 htake
      exact ⟨front, ⟨rfl, hn⟩, fun _ => hrest⟩

theorem reads_number (width : Nat) :
    (bytes width).Reads fun _ => (Operands.number width).Written :=
  (reads_bytes width).imp fun _ _ h => .number h.2

theorem reads_natural (width : Nat) :
    (natural width).Reads fun n consumed => n = littleEndian consumed ∧ consumed.length = width :=
  (reads_bytes width).bind fun front consumed h =>
    .pure <| by
      rw [List.append_nil]
      exact ⟨congrArg littleEndian h.1, h.2⟩

theorem reads_naturalNumber (width : Nat) :
    (natural width).Reads fun _ => (Operands.number width).Written :=
  (reads_natural width).imp fun _ _ h => .number h.2

theorem reads_counted (width : Nat) :
    (counted width).Reads fun _ => (Operands.string width).Written :=
  (reads_natural width).bind fun n _ hcount =>
    (reads_bytes n).imp fun _ _ hbody => .string hcount.2 (hcount.1.symm.trans hbody.2.symm)

theorem reads_signedCounted :
    signedCounted.Reads fun _ => Operands.signedString.Written :=
  (reads_bytes 4).bind fun count consumed hcount => by
    obtain ⟨rfl, hlen⟩ := hcount
    cases hsigned : signedLittleEndian count with
    | ofNat n =>
      refine (reads_bytes n).imp fun _ body hbody => .signedString hlen ?_
      rw [hsigned, hbody.2]
      rfl
    | negSucc n => exact .fail

theorem reads_line : line.Reads fun _ => IsLine where
  consumed {c c' a} hrun := by
    have hc' : (takeLine c).2 = c' := congrArg Prod.snd (Except.ok.inj hrun)
    have hsplit := List.takeWhile_append_dropWhile (p := (· != 0x0A)) (l := c.rest)
    rw [← hc', takeLine]
    split
    · exact ⟨[0x0A], ⟨[], List.not_mem_nil, rfl⟩, fun h => absurd rfl h⟩
    · rename_i b rest hdrop
      have hb : b = 0x0A := by
        have hne : c.rest.dropWhile (· != 0x0A) ≠ [] := by
          rw [hdrop]
          exact List.cons_ne_nil b rest
        simpa [hdrop] using List.head_dropWhile_not (· != 0x0A) hne
      have hbody : (0x0A : UInt8) ∉ c.rest.takeWhile (· != 0x0A) := by
        intro hmem
        simpa using List.all_eq_true.1 List.all_takeWhile _ hmem
      rw [hdrop, hb] at hsplit
      exact ⟨c.rest.takeWhile (· != 0x0A) ++ [0x0A], ⟨_, hbody, rfl⟩, fun _ => by
        rw [List.append_assoc]
        exact hsplit.symm⟩

theorem reads_text (piece : List UInt8) : (text piece).Reads fun _ consumed => consumed = [] := by
  unfold text
  split
  · exact .pure rfl
  · exact .fail

theorem reads_literal (shown : List UInt8) (o : Option α) :
    (literal shown o).Reads fun _ consumed => consumed = [] := by
  cases o with
  | none => exact .fail
  | some a => exact .pure rfl

end Reader

/-! ## Instructions -/

namespace Instruction

open Reader

variable {α : Type}

/-- A reader that reads nothing more and does not end the pickle. -/
def Silent (r : Reader Instruction) : Prop :=
  r.Reads fun i bytes => i ≠ .stop ∧ bytes = []

theorem silent_pure {i : Instruction} (h : i ≠ .stop) : Silent (pure i) :=
  .pure ⟨h, rfl⟩

theorem silent_bind {r : Reader α} {f : α → Reader Instruction}
    (hr : r.Reads fun _ bytes => bytes = []) (hf : ∀ a, Silent (f a)) : Silent (r >>= f) :=
  hr.bind fun a _ hfront => (hf a).imp fun _ _ h => by
    rw [hfront, h.2]
    exact ⟨h.1, rfl⟩

/-- An instruction other than STOP, read with its operands. -/
theorem reads_operands {operands : Operands} {r : Reader α} {f : α → Reader Instruction}
    (hr : r.Reads fun _ => operands.Written) (hf : ∀ a, Silent (f a)) :
    (r >>= f).Reads fun i bytes => i ≠ .stop ∧ operands.Written bytes :=
  hr.bind fun a _ hfront => (hf a).imp fun _ _ h => by
    rw [h.2, List.append_nil]
    exact ⟨h.1, hfront⟩

/-- A line is an operand of its own. -/
theorem reads_lineOperand : line.Reads fun _ => Operands.line.Written :=
  reads_line.imp fun _ _ h => .line h

theorem reads_lineOperands {f : List UInt8 → List UInt8 → Reader Instruction}
    (hf : ∀ first second, Silent (f first second)) :
    (line >>= fun first => line >>= f first).Reads fun i bytes =>
      i ≠ .stop ∧ Operands.twoLines.Written bytes :=
  reads_line.bind fun first _ hfirst =>
    reads_line.bind fun second _ hsecond =>
      (hf first second).imp fun _ _ h => by
        rw [h.2, List.append_nil]
        exact ⟨h.1, .twoLines hfirst hsecond⟩

/-- Each opcode but STOP is read with what the protocols let follow it. -/
theorem reads_ofOpcode (op : Opcode) (hstop : op ≠ .stop) :
    (ofOpcode op.code).Reads fun i bytes => i ≠ .stop ∧ op.operands.Written bytes := by
  cases op with
  | stop => exact absurd rfl hstop
  | mark | pop | popMark | dup | memoize | none | newtrue | newfalse | emptyTuple | tuple1 | tuple2
    | tuple3 | tuple | emptyList | list | append | appends | emptyDict | dict | setitem | setitems
    | emptySet | frozenset | additems | stackGlobal | reduce | obj | newobj | newobjEx | build =>
    exact .pure ⟨nofun, .nothing⟩
  | proto => exact reads_operands (reads_number 1) fun _ => silent_pure nofun
  | frame => exact reads_operands (reads_number 8) fun _ => silent_pure nofun
  | binput | binget | binint1 =>
    exact reads_operands (reads_naturalNumber 1) fun _ => silent_pure nofun
  | binint2 => exact reads_operands (reads_naturalNumber 2) fun _ => silent_pure nofun
  | longBinput | longBinget =>
    exact reads_operands (reads_naturalNumber 4) fun _ => silent_pure nofun
  | binint => exact reads_operands (reads_number 4) fun _ => silent_pure nofun
  | binfloat => exact reads_operands (reads_number 8) fun _ => silent_pure nofun
  | long1 | shortBinbytes => exact reads_operands (reads_counted 1) fun _ => silent_pure nofun
  | binbytes => exact reads_operands (reads_counted 4) fun _ => silent_pure nofun
  | binbytes8 | bytearray8 => exact reads_operands (reads_counted 8) fun _ => silent_pure nofun
  | long4 => exact reads_operands reads_signedCounted fun _ => silent_pure nofun
  | shortBinstring | shortBinunicode =>
    exact reads_operands (reads_counted 1) fun _ =>
      silent_bind (reads_text _) fun _ => silent_pure nofun
  | binunicode =>
    exact reads_operands (reads_counted 4) fun _ =>
      silent_bind (reads_text _) fun _ => silent_pure nofun
  | binunicode8 =>
    exact reads_operands (reads_counted 8) fun _ =>
      silent_bind (reads_text _) fun _ => silent_pure nofun
  | binstring =>
    exact reads_operands reads_signedCounted fun _ =>
      silent_bind (reads_text _) fun _ => silent_pure nofun
  | put | get | long | float | unicode =>
    exact reads_operands reads_lineOperand fun _ =>
      silent_bind (reads_literal _ _) fun _ => silent_pure nofun
  | int =>
    refine reads_operands reads_lineOperand fun _ => silent_bind (reads_literal _ _) fun small => ?_
    cases small with
    | bool b => exact silent_pure nofun
    | int i => exact silent_pure nofun
  | string =>
    exact reads_operands reads_lineOperand fun _ =>
      silent_bind (reads_literal _ _) fun _ =>
        silent_bind (reads_text _) fun _ => silent_pure nofun
  | global | inst => exact reads_lineOperands fun _ _ => silent_pure (by nofun)
  -- the machine does not know the other opcodes of the protocols
  | ext1 | ext2 | ext4 | persid | binpersid | nextBuffer | readonlyBuffer => exact .fail

theorem exists_code_of_char {b : UInt8} {c : Char} (hc : Char.ofNat b.toNat = c)
    (h : ∃ op ∈ Opcode.all, op.code = UInt8.ofNat c.toNat) : ∃ op : Opcode, op.code = b := by
  obtain ⟨op, -, hop⟩ := h
  have hlt : b.toNat < 256 := b.toNat_lt
  have hnat : c.toNat = b.toNat := by
    rw [← hc, Utf8.toNat_ofNat (.inl (by omega))]
  exact ⟨op, by rw [hop, hnat, UInt8.ofNat_toNat]⟩

/-- The machine knows no other opcodes than those of the protocols. -/
theorem ofOpcode_of_unknown {b : UInt8} (h : ¬ ∃ op : Opcode, op.code = b) :
    ofOpcode b = fail (.unsupported b) := by
  unfold ofOpcode
  split
  rotate_right
  · rfl
  all_goals
    rename_i hc
    exact absurd (exists_code_of_char hc (by decide)) h

/-- What is read at the front of an input is an instruction of the protocols. -/
theorem code_of_read {c c' : Cursor} {i : Instruction} (h : read c = .ok (i, c')) :
    (i = .stop ∧ c.rest = Opcode.stop.code :: c'.rest) ∨
    (i ≠ .stop ∧ ∃ op : Opcode, ∃ bytes, op ≠ .stop ∧ op.operands.Written bytes ∧
      (c'.rest ≠ [] → c.rest = op.code :: (bytes ++ c'.rest))) := by
  unfold read at h
  split at h
  · cases h
  · rename_i b rest hc
    rw [hc]
    by_cases hknown : ∃ op : Opcode, op.code = b
    · obtain ⟨op, rfl⟩ := hknown
      by_cases hstop : op = .stop
      · subst hstop
        left
        obtain ⟨rfl, rfl⟩ := Prod.mk.inj (Except.ok.inj h)
        exact ⟨rfl, rfl⟩
      · right
        obtain ⟨bytes, ⟨hi, hbytes⟩, hrest⟩ := (reads_ofOpcode op hstop).consumed h
        exact ⟨hi, op, bytes, hstop, hbytes, fun hne => congrArg _ (hrest hne)⟩
    · rw [ofOpcode_of_unknown hknown] at h
      cases h

end Instruction

/-! ## Runs -/

/-- A run goes through a program; what follows STOP is left. -/
theorem Machine.program_of_run {m : Machine} {c : Cursor} {finished : Finished}
    (h : m.run c = .ok finished) :
    ∃ program, Program program ∧ c.rest = program ++ finished.cursor.rest := by
  fun_induction Machine.run m c with
  | case1 m c fault hread => cases h
  | case2 m c c' hread cause hpop => cases h
  | case3 m c c' hread result m' hpop =>
    obtain rfl := Except.ok.inj h
    rcases Instruction.code_of_read hread with ⟨-, hrest⟩ | ⟨hne, -⟩
    · exact ⟨_, .stop, hrest⟩
    · exact absurd rfl hne
  | case4 m c i c' hne hread cause hstep => cases h
  | case5 m c i c' hne hread _ m' hstep _ ih =>
    obtain ⟨program, hprogram, hrest⟩ := ih h
    rcases Instruction.code_of_read hread with ⟨rfl, -⟩ | ⟨-, op, bytes, hop, hbytes, hfront⟩
    · exact absurd rfl hne
    · -- the rest of the program at least holds its STOP
      have hleft : c'.rest ≠ [] := by
        rw [hrest]
        cases hprogram <;> nofun
      refine ⟨_, .instruction hop hbytes hprogram, ?_⟩
      rw [hfront hleft, hrest, List.cons_append, List.append_assoc]

/-- Only programs are unpickled. -/
theorem Value.program_of_ofPickle {payload : List UInt8} {v : Value}
    (h : Value.ofPickle payload = .ok v) : Program payload := by
  unfold Value.ofPickle at h
  obtain ⟨finished, hrun, h⟩ := bind_eq_ok_iff.1 h
  obtain ⟨value, -, h⟩ := bind_eq_ok_iff.1 h
  obtain ⟨program, hprogram, hrest⟩ := Machine.program_of_run hrun
  split at h
  · rename_i hempty
    rw [List.isEmpty_iff.1 hempty, List.append_nil] at hrest
    rwa [← hrest] at hprogram
  · cases h

end MetricIntake.Pickle
