-- SUMMARY: Which manifests read back as they were written, what any text reads as, field by field, and which descriptors are taken.
import Mathlib.Data.List.Basic
import Mathlib.Data.List.Forall2
import MetricIntake.Manifest
import MetricIntake.Proofs.Text.Trim

/-!
# Manifests as text

Keys without commas survive the cut at commas, and keys that are tight survive
the trimming, each by itself and all of them together.
-/

namespace MetricIntake.Manifest

open Text (Blanks Tight Trimmed)

theorem isBlank_comma : Text.isBlank ',' = false := by decide

/-- What stands between commas is at the ends of the whole. -/
theorem tight_intercalate {fields : List (List Char)} (h : ∀ field ∈ fields, Tight field) :
    Tight ([','].intercalate fields) := by
  induction fields with
  | nil => exact ⟨nofun, nofun⟩
  | cons field fields ih =>
    have hfield := h field List.mem_cons_self
    have ih := ih fun other hmem => h other (List.mem_cons_of_mem field hmem)
    cases fields with
    | nil => rwa [List.intercalate_singleton]
    | cons next fields =>
      rw [List.intercalate_cons_cons, List.append_assoc, List.singleton_append]
      constructor
      · intro c hc
        cases field with
        | nil =>
          obtain rfl := Option.some.inj hc
          exact isBlank_comma
        | cons first field => exact hfield.front c hc
      · intro c hc
        rw [List.getLast?_append_of_ne_nil _ (List.cons_ne_nil _ _)] at hc
        generalize [','].intercalate (next :: fields) = rest at hc ih
        cases rest with
        | nil =>
          obtain rfl := Option.some.inj hc
          exact isBlank_comma
        | cons first rest => exact ih.back c hc

theorem parse_text {m : Manifest} (hne : m ≠ [""])
    (hkeys : ∀ key ∈ m, ',' ∉ key.toList ∧ Tight key.toList) : parse (text m) = m := by
  have hfields : ∀ field ∈ m.map String.toList, ',' ∉ field ∧ Tight field := by
    intro field hmem
    obtain ⟨key, hkey, rfl⟩ := List.mem_map.1 hmem
    exact hkeys key hkey
  have htrim : Text.trim (text m).toList = [','].intercalate (m.map String.toList) := by
    rw [text, String.toList_intercalate]
    exact (tight_intercalate fun field hmem => (hfields field hmem).2).trim
  cases m with
  | nil => rfl
  | cons key m =>
    have hfull : [','].intercalate ((key :: m).map String.toList) ≠ [] := by
      intro hnil
      cases m with
      | nil =>
        rw [List.map_singleton, List.intercalate_singleton, String.toList_eq_nil_iff] at hnil
        exact hne (by rw [hnil])
      | cons next m => simp [List.intercalate_cons_cons] at hnil
    have hcut : ([','].intercalate ((key :: m).map String.toList)).splitOn ',' =
        (key :: m).map String.toList :=
      List.splitOn_intercalate ',' (fun field hmem => (hfields field hmem).1) (by simp)
    have hread : ∀ key' ∈ key :: m, String.ofList (Text.trim key'.toList) = key' := by
      intro key' hmem
      rw [(hkeys key' hmem).2.trim, String.ofList_toList]
    rw [parse]
    simp only [htrim, List.isEmpty_iff, if_neg hfull, hcut, List.map_map]
    exact List.map_congr_left hread |>.trans (List.map_id _)

theorem tight_key (p : Protocol) : ',' ∉ p.key.toList ∧ Tight p.key.toList := by
  have hends : (p.key.toList.head?.all fun c => !Text.isBlank c) = true ∧
      (p.key.toList.getLast?.all fun c => !Text.isBlank c) = true := by
    cases p <;> decide
  simp only [Option.all_eq_true, Bool.not_eq_true'] at hends
  exact ⟨by cases p <;> decide, hends.1, hends.2⟩

/-- The keys of the protocols read back. -/
theorem parse_text_keys (protocols : List Protocol) :
    parse (text (protocols.map Protocol.key)) = protocols.map Protocol.key := by
  apply parse_text
  · intro h
    have hmem : "" ∈ protocols.map Protocol.key := by
      rw [h]
      exact List.mem_singleton_self ""
    obtain ⟨p, -, hp⟩ := List.mem_map.1 hmem
    exact absurd hp (by cases p <;> decide)
  · intro key hmem
    obtain ⟨p, -, rfl⟩ := List.mem_map.1 hmem
    exact tight_key p

/-! ## Reading any text -/

/-- A manifest that is read back as it is written. -/
structure Plain (m : Manifest) : Prop where
  ne_empty_key : m ≠ [""]
  keys : ∀ key ∈ m, ',' ∉ key.toList ∧ Tight key.toList

/-- The fields of a text: what stands between its commas, empty fields included. -/
structure HasFields (cs : List Char) (fields : List (List Char)) : Prop where
  ne_nil : fields ≠ []
  no_comma : ∀ field ∈ fields, ',' ∉ field
  joined : [','].intercalate fields = cs

theorem hasFields_splitOn (cs : List Char) : HasFields cs (cs.splitOn ',') where
  ne_nil := List.splitOn_ne_nil ',' cs
  no_comma _ h := Text.not_mem_of_mem_splitOn h
  joined := List.intercalate_splitOn ','

/-- Blanks are the empty manifest. -/
theorem parse_of_blanks {raw : String} (h : Blanks raw.toList) : parse raw = [] := by
  rw [parse, Text.trim_eq_nil_iff.2 h]
  rfl

/-- Any other text has one key for each field, although the text is trimmed before. -/
theorem parse_of_not_blanks {raw : String} (h : ¬ Blanks raw.toList) :
    parse raw = (raw.toList.splitOn ',').map fun field => String.ofList (Text.trim field) := by
  have htrim : Text.trim raw.toList ≠ [] := mt Text.trim_eq_nil_iff.1 h
  have hfields := Text.map_trim_splitOn_trim isBlank_comma raw.toList
  have hkeys := congrArg (List.map String.ofList) hfields
  rw [List.map_map, List.map_map] at hkeys
  rw [parse]
  simp only [List.isEmpty_iff, if_neg htrim]
  exact hkeys

/-- What is read can be written: commas are gone with the cut and blanks with the trimming,
    and the one field that could be empty alone is not blank. -/
theorem plain_parse (raw : String) : (parse raw).Plain := by
  by_cases hblanks : Blanks raw.toList
  · rw [parse_of_blanks hblanks]
    exact ⟨nofun, nofun⟩
  have hfields := hasFields_splitOn raw.toList
  rw [parse_of_not_blanks hblanks]
  constructor
  · intro hempty
    obtain ⟨field, hfield, hkey⟩ := List.map_eq_singleton_iff.1 hempty
    have hjoined := hfields.joined
    rw [hfield, List.intercalate_singleton] at hjoined
    rw [String.ofList_eq_empty_iff, Text.trim_eq_nil_iff, hjoined] at hkey
    exact hblanks hkey
  · intro key hmem
    obtain ⟨field, hfield, rfl⟩ := List.mem_map.1 hmem
    have htrimmed := Text.trimmed_trim field
    rw [String.toList_ofList]
    exact ⟨fun hcomma => hfields.no_comma field hfield (htrimmed.subset hcomma), htrimmed.tight⟩

/-- A manifest that is written is read back exactly if it is not the empty key alone and no
    key has a comma, or a blank at one of its ends. Every text reads as such a manifest. It
    is the empty one if the text is blank, and otherwise the `i`-th key is the `i`-th field
    without the blanks at its ends, whether or not anything is left. -/
theorem parse_text_iff_plain :
    (∀ m : Manifest, parse (text m) = m ↔ m.Plain) ∧
    ∀ raw : String,
      (parse raw).Plain ∧ parse (text (parse raw)) = parse raw ∧
      (parse raw = [] ↔ Blanks raw.toList) ∧
      (¬ Blanks raw.toList → ∃ fields, HasFields raw.toList fields ∧
        List.Forall₂ (fun field key => Trimmed field key.toList) fields (parse raw)) := by
  have hwritten : ∀ m : Manifest, parse (text m) = m ↔ m.Plain := by
    intro m
    constructor
    · intro h
      rw [← h]
      exact plain_parse (text m)
    · exact fun h => parse_text h.ne_empty_key h.keys
  refine ⟨hwritten, fun raw => ⟨plain_parse raw, (hwritten _).2 (plain_parse raw), ?_, ?_⟩⟩
  · refine ⟨fun hnil => ?_, parse_of_blanks⟩
    by_contra hblanks
    rw [parse_of_not_blanks hblanks, List.map_eq_nil_iff] at hnil
    exact (hasFields_splitOn raw.toList).ne_nil hnil
  · intro hblanks
    refine ⟨_, hasFields_splitOn raw.toList, ?_⟩
    rw [parse_of_not_blanks hblanks, List.forall₂_map_right_iff, List.forall₂_same]
    intro field _
    rw [String.toList_ofList]
    exact Text.trimmed_trim field

/-- Fields that are blank keep their places. -/
theorem parse_text_iff_plain_blank_fields :
    let raw := " gt, ,\u3000gp ,"
    ¬ Blanks raw.toList ∧ parse raw = ["gt", "", "gp", ""] ∧ parse "gt,,gp," = parse raw ∧
      ∃ fields, HasFields raw.toList fields ∧
        List.Forall₂ (fun field key => Trimmed field key.toList) fields (parse raw) := by
  intro raw
  have hblanks : ¬ Blanks raw.toList := fun h => absurd (h 'g' (by decide)) (by decide)
  have hparse : parse raw = ["gt", "", "gp", ""] := by decide +kernel
  obtain ⟨-, hback, -, hfields⟩ := parse_text_iff_plain.2 raw
  have htext : text (parse raw) = "gt,,gp," := by rw [hparse]; decide +kernel
  rw [htext] at hback
  exact ⟨hblanks, hparse, hback, hfields hblanks⟩

/-! ## Taking descriptors -/

/-- The keys of a manifest with the descriptors from a number on. -/
def entriesFrom (m : Manifest) (base : Int) : List (String × Descriptor) :=
  match m with
  | [] => []
  | key :: keys => (key, base) :: entriesFrom keys (base + 1)

theorem mem_descriptors_entriesFrom {m : Manifest} {base fd : Int} :
    fd ∈ (m.entriesFrom base).map (·.2) ↔ ∃ i : Nat, i < m.length ∧ fd = base + i := by
  induction m generalizing base with
  | nil => simp [entriesFrom]
  | cons key keys ih =>
    rw [entriesFrom, List.map_cons, List.mem_cons, ih]
    constructor
    · rintro (rfl | ⟨i, hi, rfl⟩)
      · exact ⟨0, by simp, by simp⟩
      · exact ⟨i + 1, by simpa using hi, by omega⟩
    · rintro ⟨i, hi, rfl⟩
      cases i with
      | zero => exact .inl (by simp)
      | succ i => exact .inr ⟨i, by simpa using hi, by omega⟩

theorem nodup_descriptors_entriesFrom (m : Manifest) (base : Int) :
    ((m.entriesFrom base).map (·.2)).Nodup := by
  induction m generalizing base with
  | nil => exact List.nodup_nil
  | cons key keys ih =>
    refine List.nodup_cons.2 ⟨?_, ih (base + 1)⟩
    intro hmem
    obtain ⟨i, -, hi⟩ := mem_descriptors_entriesFrom.1 hmem
    dsimp only at hi
    omega

/-- The `i`-th key has the `i`-th descriptor from the number on. -/
theorem getElem?_entriesFrom (m : Manifest) (base : Int) (i : Nat) :
    (m.entriesFrom base)[i]? = m[i]?.map fun key => (key, base + i) := by
  induction m generalizing base i with
  | nil => rfl
  | cons key keys ih =>
    cases i with
    | zero => simp [entriesFrom]
    | succ i => simp [entriesFrom, ih, Int.add_assoc, Int.add_comm 1]

theorem entriesFrom_take (m : Manifest) (base : Int) (n : Nat) :
    entriesFrom (m.take n) base = (m.entriesFrom base).take n := by
  induction m generalizing base n with
  | nil => rw [List.take_nil, entriesFrom, List.take_nil]
  | cons key keys ih =>
    cases n with
    | zero => rfl
    | succ n => rw [List.take_succ_cons, entriesFrom, ih, entriesFrom, List.take_succ_cons]

variable {k : Kernel}

/-- The first descriptor of a manifest that is no open socket, and the key it is for. -/
structure Refuses (k : Kernel) (m : Manifest) (base : Int) (i : Nat) (key : String) : Prop where
  key : m[i]? = some key
  earlier : ∀ j < i, k.isSocket (base + (j : Nat)) = true
  refused : k.isSocket (base + i) = false

theorem Refuses.lt_length {m : Manifest} {base : Int} {i : Nat} {key : String}
    (h : Refuses k m base i key) : i < m.length :=
  (List.getElem?_eq_some_iff.1 h.key).1

/-- There is one first descriptor that is refused. -/
theorem Refuses.unique {m : Manifest} {base : Int} {i i' : Nat} {key key' : String}
    (h : Refuses k m base i key) (h' : Refuses k m base i' key') : i = i' ∧ key = key' := by
  have hle : ∀ {j j' : Nat} {key key' : String}, Refuses k m base j key →
      Refuses k m base j' key' → j ≤ j' := by
    intro j j' _ _ hj hj'
    by_contra hlt
    have hsocket := hj.earlier j' (Nat.lt_of_not_le hlt)
    rw [hj'.refused] at hsocket
    cases hsocket
  obtain rfl := Nat.le_antisymm (hle h h') (hle h' h)
  exact ⟨rfl, Option.some.inj (h.key.symm.trans h'.key)⟩

theorem forall_isSocket_succ_iff {base : Int} {n : Nat} :
    (∀ i < n + 1, k.isSocket (base + (i : Nat)) = true) ↔
      k.isSocket base = true ∧ ∀ i < n, k.isSocket (base + 1 + (i : Nat)) = true := by
  have hnext : ∀ i : Nat, base + (i + 1 : Nat) = base + 1 + i := fun i => by omega
  have hzero : base + (0 : Nat) = base := Int.add_zero base
  rw [Nat.forall_lt_succ_left', hzero]
  simp only [hnext]

/-- Either every descriptor of a manifest is an open socket and is taken, or those before
    the first that is not are closed. -/
theorem adoptFrom_cases (taken : List (String × Descriptor)) (m : Manifest) (base : Int) :
    ((∀ i < m.length, k.isSocket (base + (i : Nat)) = true) ∧
      adoptFrom k taken m base = (.ok ⟨taken ++ m.entriesFrom base⟩, k)) ∨
    ∃ i key, Refuses k m base i key ∧ adoptFrom k taken m base =
      (.error (.notASocket (base + i) key),
        k.closeAll ((taken ++ (m.entriesFrom base).take i).map (·.2))) := by
  induction m generalizing taken base with
  | nil => exact .inl ⟨nofun, by simp [adoptFrom, entriesFrom]⟩
  | cons key keys ih =>
    rw [adoptFrom, entriesFrom]
    split
    · rename_i hfirst
      rcases ih (taken ++ [(key, base)]) (base + 1) with
        ⟨hsockets, hok⟩ | ⟨i, refused, hrefuses, herror⟩
      · exact .inl ⟨forall_isSocket_succ_iff.2 ⟨hfirst, hsockets⟩,
          by rw [hok, List.append_assoc, List.singleton_append]⟩
      · have hnext : base + (i + 1 : Nat) = base + 1 + i := by omega
        refine .inr ⟨i + 1, refused, ⟨hrefuses.key, ?_, ?_⟩, ?_⟩
        · exact forall_isSocket_succ_iff.2 ⟨hfirst, hrefuses.earlier⟩
        · rw [hnext]
          exact hrefuses.refused
        · rw [herror, hnext, List.append_assoc, List.singleton_append, List.take_succ_cons]
    · rename_i hfirst
      refine .inr ⟨0, key, ⟨rfl, nofun, ?_⟩, ?_⟩
      · simpa using hfirst
      · simp

/-- Open sockets are taken. -/
theorem adoptFrom_of_sockets (taken : List (String × Descriptor)) {m : Manifest} {base : Int}
    (h : ∀ fd ∈ (m.entriesFrom base).map (·.2), k.isSocket fd = true) :
    adoptFrom k taken m base = (.ok ⟨taken ++ m.entriesFrom base⟩, k) := by
  rcases adoptFrom_cases (k := k) taken m base with ⟨-, hok⟩ | ⟨i, key, hrefuses, -⟩
  · exact hok
  · have hsocket := h _ (mem_descriptors_entriesFrom.2 ⟨i, hrefuses.lt_length, rfl⟩)
    rw [hrefuses.refused] at hsocket
    cases hsocket

end MetricIntake.Manifest
