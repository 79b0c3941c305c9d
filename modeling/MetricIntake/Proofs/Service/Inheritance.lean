-- SUMMARY: Starting on a handoff: entry by entry up to the first that fails, and each descriptor ends up with one bound service or closed.
import MetricIntake.Proofs.Service.Succession

/-!
# Starting on a handoff

The entries of a handoff are taken in order. One whose key names an enabled service that
is not bound starts this service if its descriptor can be adopted; one whose key names
no service, or a disabled one, is set aside; any other fails, and nothing after it is
looked at. What was started before a failure goes on, and every descriptor that no
service has been started on is closed.
-/

namespace MetricIntake

/-- The protocol with a key has this key. -/
theorem Protocol.key_of_ofKey? {key : String} {p : Protocol} (h : ofKey? key = some p) :
    p.key = key := by
  have hfound := List.find?_some h
  exact beq_iff_eq.1 hfound

namespace Manager

open ListeningSocket (inspect)

variable {m m₁ m' : Manager} {k k₁ k' : Kernel} {p : Protocol} {e : ServiceError}
  {entry : String × Descriptor} {entries : List (String × Descriptor)}
  {result : Except ServiceError Unit}

/-! ## One entry -/

theorem update_services_self (m : Manager) (p : Protocol) : m.update p (m.services p) = m := by
  have hservices : (fun q => if q = p then m.services p else m.services q) = m.services := by
    funext q
    split
    · rename_i hqp
      rw [hqp]
    · rfl
  rw [update, hservices]

/-- An entry has no enabled service. -/
def Idle (m : Manager) (entry : String × Descriptor) : Prop :=
  ∀ p : Protocol, entry.1 = p.key → (m.services p).spec.isEmpty = true

/-- An entry names an enabled service. -/
structure Names (m : Manager) (entry : String × Descriptor) (p : Protocol) : Prop where
  key : entry.1 = p.key
  enabled : (m.services p).spec.isEmpty = false

/-- What becomes of an entry when its turn comes. -/
inductive Starts (m : Manager) (k : Kernel) (entry : String × Descriptor) :
    Except ServiceError Unit → Manager → Kernel → Prop
  | setAside : m.Idle entry → Starts m k entry (.ok ()) m (k.close entry.2)
  | started {p : Protocol} {b : BoundSocket} :
    m.Names entry p → (m.services p).state ≠ .bound → inspect k p.transport entry.2 = .ok b →
    Starts m k entry (.ok ()) (m.update p ((m.services p).ready.serve b)) k
  | repeated {p : Protocol} :
    m.Names entry p → (m.services p).state = .bound →
    Starts m k entry (.error (.start p (.invalidState .adopt .bound))) m (k.close entry.2)
  | refused {p : Protocol} {source : SocketError} :
    m.Names entry p → (m.services p).state ≠ .bound →
    inspect k p.transport entry.2 = .error source →
    Starts m k entry (.error (.start p source)) (m.update p (m.services p).renew)
      (k.close entry.2)

theorem Sound.starts (hm : m.Sound k) (entry : String × Descriptor)
    (hstart : m.startEntry entry k = (result, m', k')) : m.Starts k entry result m' k' := by
  rw [startEntry] at hstart
  cases hkey : Protocol.ofKey? entry.1 with
  | none =>
    have hidle : m.Idle entry := by
      intro p hp
      rw [hp, Protocol.ofKey?_key] at hkey
      cases hkey
    simp only [hkey, Prod.mk.injEq] at hstart
    obtain ⟨rfl, rfl, rfl⟩ := hstart
    exact .setAside hidle
  | some p =>
    have hkey' := (Protocol.key_of_ofKey? hkey).symm
    have hordered := (hm.service p).toOrdered
    have hprotocol := hm.protocol p
    simp only [hkey, startService] at hstart
    cases hspec : (m.services p).spec.isEmpty with
    | true =>
      have hidle : m.Idle entry := by
        intro q hq
        rwa [← Protocol.key_injective (hkey'.symm.trans hq)]
      simp only [Service.start_of_blank hspec, update_services_self, Prod.mk.injEq] at hstart
      obtain ⟨rfl, rfl, rfl⟩ := hstart
      exact .setAside hidle
    | false =>
      have hnames : m.Names entry p := ⟨hkey', hspec⟩
      by_cases hstate : (m.services p).state = .bound
      · simp only [Service.start_of_bound hspec hstate, update_services_self, hprotocol,
          Prod.mk.injEq] at hstart
        obtain ⟨rfl, rfl, rfl⟩ := hstart
        exact .repeated hnames hstate
      · cases hinspect : inspect k (m.services p).protocol.transport entry.2 with
        | error source =>
          simp only [Service.start_of_unadoptable hordered hspec hstate hinspect,
            Service.protocol_renew, hprotocol, Prod.mk.injEq] at hstart
          obtain ⟨rfl, rfl, rfl⟩ := hstart
          exact .refused hnames hstate (hprotocol ▸ hinspect)
        | ok b =>
          simp only [Service.start_of_adoptable hordered hspec hstate hinspect,
            Prod.mk.injEq] at hstart
          obtain ⟨rfl, rfl, rfl⟩ := hstart
          exact .started hnames hstate (hprotocol ▸ hinspect)

/-- An entry changes no service but the one that it names. -/
theorem Starts.services_of_not_names (h : m.Starts k entry result m' k')
    (hp : ¬ m.Names entry p) : m'.services p = m.services p := by
  have hne : ∀ {q}, m.Names entry q → p ≠ q := by
    rintro q hnames rfl
    exact hp hnames
  cases h with
  | setAside | repeated => rfl
  | started hnames | refused hnames => exact services_update_of_ne m _ (hne hnames)

theorem Names.congr (hspec : (m'.services p).spec = (m.services p).spec) :
    m'.Names entry p ↔ m.Names entry p :=
  ⟨fun h => ⟨h.key, hspec ▸ h.enabled⟩, fun h => ⟨h.key, hspec.symm ▸ h.enabled⟩⟩

theorem Starts.spec (h : m.Starts k entry result m' k') (p : Protocol) :
    (m'.services p).spec = (m.services p).spec := by
  cases h with
  | setAside | repeated => rfl
  | @started q | @refused q =>
    refine forall_services_update (P := fun p s => s.spec = (m.services p).spec) ?_
      (fun _ _ => rfl) p
    exact (m.services q).spec_renew

/-- An entry that takes effect leaves its service bound if it changes it. -/
theorem Starts.services_of_ne_bound (h : m.Starts k entry (.ok ()) m' k')
    (hstate : (m'.services p).state ≠ .bound) : m'.services p = m.services p := by
  cases h with
  | setAside => rfl
  | @started q b =>
    by_cases hpq : p = q
    · subst hpq
      rw [services_update_self] at hstate
      exact absurd rfl hstate
    · exact services_update_of_ne m _ hpq

/-- An entry closes its own descriptor at most. -/
theorem Starts.same (h : m.Starts k entry result m' k') {fd : Descriptor} (hfd : fd ≠ entry.2) :
    k'.table.get? fd = k.table.get? fd := by
  cases h with
  | started => rfl
  | setAside | repeated | refused => rw [Kernel.close, DescriptorTable.get?_close, if_neg hfd]

/-! ## All entries -/

/-- An entry has taken effect: its service has been started on its descriptor, or there
    is none to start and its descriptor has been closed. -/
inductive TakenUp (m : Manager) (k : Kernel) (m' : Manager) (k' : Kernel)
    (entry : String × Descriptor) : Prop
  | setAside : m.Idle entry → k'.table.get? entry.2 = none → TakenUp m k m' k' entry
  | started {p : Protocol} {b : BoundSocket} :
    m.Names entry p → (m.services p).state ≠ .bound → inspect k p.transport entry.2 = .ok b →
    m'.services p = (m.services p).ready.serve b →
    k'.table.get? entry.2 = k.table.get? entry.2 → TakenUp m k m' k' entry

/-- Entries have all taken effect, and nothing else has happened. -/
structure Takes (m : Manager) (k : Kernel) (entries : List (String × Descriptor)) (m' : Manager)
    (k' : Kernel) : Prop where
  each : ∀ entry ∈ entries, TakenUp m k m' k' entry
  services : ∀ p, (∀ entry ∈ entries, ¬ m.Names entry p) → m'.services p = m.services p
  spec : ∀ p, (m'.services p).spec = (m.services p).spec
  same : ∀ fd, fd ∉ entries.map (·.2) → k'.table.get? fd = k.table.get? fd

theorem Takes.nil (m : Manager) (k : Kernel) : m.Takes k [] m k :=
  ⟨nofun, fun _ _ => rfl, fun _ => rfl, fun _ _ => rfl⟩

/-- What takes effect after an entry takes effect on what was there before it. -/
theorem TakenUp.of_starts {later : String × Descriptor} (hstart : m.Starts k entry (.ok ()) m₁ k₁)
    (hfd : later.2 ≠ entry.2) (h : TakenUp m₁ k₁ m' k' later) : TakenUp m k m' k' later := by
  cases h with
  | setAside hidle hclosed =>
    refine .setAside (fun p hkey => ?_) hclosed
    rw [← hstart.spec p]
    exact hidle p hkey
  | started hnames hstate hinspect hservice hsame =>
    have hbefore := hstart.services_of_ne_bound hstate
    rw [hbefore] at hstate hservice
    rw [ListeningSocket.inspect_congr (hstart.same hfd)] at hinspect
    exact .started ⟨hnames.key, hbefore ▸ hnames.enabled⟩ hstate hinspect hservice
      (hsame.trans (hstart.same hfd))

/-- Entries that take effect do not touch an enabled service that is bound. -/
theorem Takes.services_of_bound (h : m.Takes k entries m' k')
    (hspec : (m.services p).spec.isEmpty = false) (hstate : (m.services p).state = .bound) :
    m'.services p = m.services p := by
  apply h.services p
  intro entry hentry hnames
  cases h.each entry hentry with
  | setAside hidle =>
    rw [hidle p hnames.key] at hspec
    cases hspec
  | @started q _ hnames' hidle =>
    obtain rfl := Protocol.key_injective (hnames.key.symm.trans hnames'.key)
    exact hidle hstate

/-- An entry that has taken effect goes on to when others do after it. -/
theorem Starts.takenUp (hstart : m.Starts k entry (.ok ()) m₁ k₁)
    (h : m₁.Takes k₁ entries m' k') (hnew : entry.2 ∉ entries.map (·.2)) :
    TakenUp m k m' k' entry := by
  have hkept := h.same entry.2 hnew
  cases hstart with
  | setAside hidle =>
    refine .setAside hidle (hkept.trans ?_)
    rw [Kernel.close, DescriptorTable.get?_close, if_pos rfl]
  | @started p b hnames hstate hinspect =>
    -- the service is bound by now, so no later entry is for it
    have hservice := services_update_self m p ((m.services p).ready.serve b)
    refine .started hnames hstate hinspect ?_ hkept
    rw [h.services_of_bound, hservice]
    · rw [hservice]
      exact (m.services p).spec_renew.symm ▸ hnames.enabled
    · rw [hservice]
      rfl

/-- One entry takes effect and then others do. -/
theorem Takes.cons (hstart : m.Starts k entry (.ok ()) m₁ k₁) (h : m₁.Takes k₁ entries m' k')
    (hnew : entry.2 ∉ entries.map (·.2)) : m.Takes k (entry :: entries) m' k' := by
  refine ⟨List.forall_mem_cons.2 ⟨hstart.takenUp h hnew, fun later hlater => ?_⟩, ?_, ?_, ?_⟩
  · have hfd : later.2 ≠ entry.2 :=
      ne_of_mem_of_not_mem (List.mem_map_of_mem (f := (·.2)) hlater) hnew
    exact (h.each later hlater).of_starts hstart hfd
  · intro p hp
    rw [List.forall_mem_cons] at hp
    refine (h.services p fun later hlater => ?_).trans (hstart.services_of_not_names hp.1)
    rw [Names.congr (hstart.spec p)]
    exact hp.2 later hlater
  · exact fun p => (h.spec p).trans (hstart.spec p)
  · intro fd hfd
    rw [List.map_cons, List.mem_cons, not_or] at hfd
    exact (h.same fd hfd.2).trans (hstart.same hfd.1)

/-- Entries take effect up to the first that fails; the descriptors after it are closed. -/
theorem Sound.startInherited_cases (hm : m.Sound k) (hnodup : (entries.map (·.2)).Nodup)
    (hnew : ∀ fd ∈ entries.map (·.2), fd ∉ m.owned)
    (hstart : startInherited entries m k = (result, m', k')) :
    (result = .ok () ∧ m.Takes k entries m' k') ∨
      ∃ earlier entry later m₁ k₁ e k₂, entries = earlier ++ entry :: later ∧
        startInherited earlier m k = (.ok (), m₁, k₁) ∧ m.Takes k earlier m₁ k₁ ∧
        m₁.Sound k₁ ∧ m₁.Starts k₁ entry (.error e) m' k₂ ∧ result = .error e ∧
        k' = k₂.closeAll (later.map (·.2)) := by
  induction entries generalizing m k with
  | nil =>
    obtain ⟨rfl, rfl, rfl⟩ := hstart
    exact .inl ⟨rfl, .nil m' k'⟩
  | cons entry entries ih =>
    rw [List.map_cons, List.nodup_cons] at hnodup
    rw [List.map_cons, List.forall_mem_cons] at hnew
    have hevolves := evolves_startEntry hm hnew.1
    rw [startInherited] at hstart
    rcases hentry : m.startEntry entry k with ⟨e | _, m₁, k₁⟩
    · rw [hentry] at hstart
      obtain ⟨rfl, rfl, rfl⟩ := hstart
      exact .inr ⟨[], entry, entries, m, k, e, k₁, rfl, rfl, .nil m k, hm,
        hm.starts entry hentry, rfl, rfl⟩
    · rw [hentry] at hstart hevolves
      have hnew₁ : ∀ fd ∈ entries.map (·.2), fd ∉ m₁.owned := by
        intro fd hfd howned
        rcases hevolves.owned_subset howned with hsame | howned
        · rw [Set.mem_singleton_iff.1 hsame] at hfd
          exact hnodup.1 hfd
        · exact hnew.2 fd hfd howned
      have hfirst := hm.starts entry hentry
      rcases ih hevolves.sound hnodup.2 hnew₁ hstart with
        ⟨hok, htakes⟩ | ⟨earlier, last, later, m₂, k₂, e, k₃, rfl, hearlier, htakes, hlast⟩
      · exact .inl ⟨hok, htakes.cons hfirst hnodup.1⟩
      · refine .inr ⟨entry :: earlier, last, later, m₂, k₂, e, k₃, rfl, ?_,
          htakes.cons hfirst fun hmem => hnodup.1 ?_, hlast⟩
        · rw [startInherited, hentry]
          exact hearlier
        · rw [List.map_append]
          exact List.mem_append_left _ hmem

/-! ## Where it stops -/

/-- An entry touches no service that is bound. -/
theorem Starts.services_of_bound (h : m.Starts k entry result m' k')
    (hstate : (m.services p).state = .bound) : m'.services p = m.services p := by
  cases h with
  | setAside | repeated => rfl
  | started _ hidle | refused _ hidle =>
    refine services_update_of_ne m _ ?_
    rintro rfl
    exact hidle hstate

/-- An entry that has taken effect stays so while its service stays bound and nothing
    happens to its descriptor. -/
theorem TakenUp.of_kept (h : TakenUp m k m₁ k₁ entry)
    (hservices : ∀ p, (m₁.services p).state = .bound → m'.services p = m₁.services p)
    (hsame : k'.table.get? entry.2 = k₁.table.get? entry.2) : TakenUp m k m' k' entry := by
  cases h with
  | setAside hidle hclosed => exact .setAside hidle (hsame.trans hclosed)
  | started hnames hidle hinspect hservice hkept =>
    refine .started hnames hidle hinspect ?_ (hsame.trans hkept)
    rw [hservices _ (by rw [hservice]; rfl), hservice]

/-- What starting a service on a descriptor comes to when it fails. No other service has
    changed, and this one is bound only if it was; then it has not changed either. -/
structure Fails (m : Manager) (k : Kernel) (p : Protocol) (fd : Descriptor)
    (source : SocketError) (m' : Manager) : Prop where
  others : ∀ q, q ≠ p → m'.services q = m.services q
  bound : (m.services p).state = .bound → source = .invalidState .adopt .bound ∧ m' = m
  unbound : (m.services p).state ≠ .bound →
    inspect k p.transport fd = .error source ∧ (m'.services p).state = .unbound

theorem Fails.congr {fd : Descriptor} {source : SocketError} (h : m.Fails k p fd source m')
    (hsame : k'.table.get? fd = k.table.get? fd) : m.Fails k' p fd source m' where
  others := h.others
  bound := h.bound
  unbound hstate := (ListeningSocket.inspect_congr hsame).symm ▸ h.unbound hstate

theorem Starts.exists_fails (hm : m.Sound k) (h : m.Starts k entry (.error e) m' k') :
    ∃ p source, e = .start p source ∧ m.Names entry p ∧ m.Fails k p entry.2 source m' := by
  cases h with
  | @repeated p hnames hstate =>
    refine ⟨p, _, rfl, hnames, fun _ _ => rfl, fun _ => ⟨rfl, rfl⟩, fun hidle => ?_⟩
    exact (hidle hstate).elim
  | @refused p source hnames hstate hinspect =>
    refine ⟨p, source, rfl, hnames, fun q hq => services_update_of_ne m _ hq,
      fun hbound => (hstate hbound).elim, fun _ => ⟨hinspect, ?_⟩⟩
    rw [services_update_self]
    exact Service.state_socket_renew (hm.service p).toOrdered hstate

theorem Starts.get?_of_error (h : m.Starts k entry (.error e) m' k') :
    k'.table.get? entry.2 = none := by
  cases h with
  | repeated | refused => rw [Kernel.close, DescriptorTable.get?_close, if_pos rfl]

/-- Starting on entries has stopped at one of them. Those before it have taken effect, no
    service has changed that is named after it only, and the rest of the descriptors has
    been closed. -/
structure Halts (m : Manager) (k : Kernel) (earlier : List (String × Descriptor))
    (entry : String × Descriptor) (later : List (String × Descriptor)) (p : Protocol)
    (source : SocketError) (m' : Manager) (k' : Kernel) : Prop where
  names : m.Names entry p
  taken : ∀ other ∈ earlier, TakenUp m k m' k' other
  untouched : ∀ q, (∀ other ∈ earlier ++ [entry], ¬ m.Names other q) →
    m'.services q = m.services q
  failed : ∃ m₁ k₁, startInherited earlier m k = (.ok (), m₁, k₁) ∧
    m₁.Fails k p entry.2 source m'
  closed : ∀ other ∈ entry :: later, k'.table.get? other.2 = none

theorem Takes.exists_halts {earlier later : List (String × Descriptor)} {k₂ : Kernel}
    (hm₁ : m₁.Sound k₁) (hnodup : ((earlier ++ entry :: later).map (·.2)).Nodup)
    (hearlier : startInherited earlier m k = (.ok (), m₁, k₁)) (htakes : m.Takes k earlier m₁ k₁)
    (h : m₁.Starts k₁ entry (.error e) m' k₂) :
    ∃ p source, e = .start p source ∧
      m.Halts k earlier entry later p source m' (k₂.closeAll (later.map (·.2))) := by
  obtain ⟨p, source, he, hnames, hfails⟩ := h.exists_fails hm₁
  rw [List.map_append, List.map_cons] at hnodup
  have hapart := (List.nodup_append.1 hnodup).2.2
  have hentry : entry.2 ∉ earlier.map (·.2) := fun hmem =>
    hapart _ hmem _ List.mem_cons_self rfl
  refine ⟨p, source, he, ?_, fun other hother => ?_, fun q hq => ?_, ?_, fun other hother => ?_⟩
  · exact (Names.congr (htakes.spec p)).1 hnames
  · have hmem : other.2 ∈ earlier.map (·.2) := List.mem_map_of_mem hother
    have hne : other.2 ≠ entry.2 := hapart _ hmem _ List.mem_cons_self
    have hlater : other.2 ∉ later.map (·.2) := fun hlater =>
      hapart _ hmem _ (List.mem_cons_of_mem _ hlater) rfl
    apply (htakes.each other hother).of_kept fun q => h.services_of_bound
    rw [Kernel.closeAll, DescriptorTable.get?_closeAll, if_neg hlater, h.same hne]
  · rw [List.forall_mem_append, List.forall_mem_singleton] at hq
    refine (h.services_of_not_names ?_).trans (htakes.services q hq.1)
    rw [Names.congr (htakes.spec q)]
    exact hq.2
  · exact ⟨m₁, k₁, hearlier, hfails.congr (htakes.same entry.2 hentry).symm⟩
  · rw [Kernel.closeAll, DescriptorTable.get?_closeAll]
    split
    · rfl
    · rename_i hlater
      obtain rfl : other = entry := (List.mem_cons.1 hother).resolve_right fun hmem =>
        hlater (List.mem_map_of_mem hmem)
      exact h.get?_of_error

/-- Either all entries take effect, or starting stops at one. -/
theorem Sound.takes_or_halts (hm : m.Sound k) (hnodup : (entries.map (·.2)).Nodup)
    (hnew : ∀ fd ∈ entries.map (·.2), fd ∉ m.owned)
    (hstart : startInherited entries m k = (result, m', k')) :
    (result = .ok () ∧ m.Takes k entries m' k') ∨
      ∃ earlier entry later p source, entries = earlier ++ entry :: later ∧
        result = .error (.start p source) ∧ m.Halts k earlier entry later p source m' k' := by
  rcases hm.startInherited_cases hnodup hnew hstart with htakes |
    ⟨earlier, entry, later, m₁, k₁, e, k₂, rfl, hearlier, htakes, hm₁, hlast, rfl, rfl⟩
  · exact .inl htakes
  · obtain ⟨p, source, rfl, hhalts⟩ := htakes.exists_halts hm₁ hnodup hearlier hlast
    exact .inr ⟨earlier, entry, later, p, source, rfl, rfl, hhalts⟩

/-! ## Every descriptor -/

/-- A descriptor that was handed over is at its one owner, the bound service that its key
    names, or it has been closed. -/
inductive Settled (k : Kernel) (m' : Manager) (k' : Kernel) (entry : String × Descriptor) : Prop
  | owned {p : Protocol} {b : BoundSocket} :
    entry.1 = p.key → (m'.services p).socket.holding = .held b → b.fd = entry.2 →
    (∀ q, entry.2 ∈ (m'.services q).owned ↔ q = p) →
    k'.table.get? entry.2 = k.table.get? entry.2 → Settled k m' k' entry
  | closed : k'.table.get? entry.2 = none → entry.2 ∉ m'.owned → Settled k m' k' entry

theorem Sound.settled_of_closed (hm : m'.Sound k') (h : k'.table.get? entry.2 = none) :
    Settled k m' k' entry :=
  .closed h fun howned => hm.get?_ne_none howned h

theorem TakenUp.settled (hm : m'.Sound k') (h : TakenUp m k m' k' entry) :
    Settled k m' k' entry := by
  cases h with
  | setAside _ hclosed => exact hm.settled_of_closed hclosed
  | @started p b hnames _ hinspect hservice hsame =>
    obtain ⟨-, -, -, hb⟩ := ListeningSocket.inspect_eq_ok_iff.1 hinspect
    have hfd : b.fd = entry.2 := by rw [hb]
    have hheld : (m'.services p).socket.holding = .held b := by rw [hservice]; rfl
    have howned : entry.2 ∈ (m'.services p).owned := hfd ▸ ((hm.service p).held hheld).1
    refine .owned hnames.key hheld hfd (fun q => ⟨fun hq => ?_, ?_⟩) hsame
    · exact hm.apart q p entry.2 hq howned
    · rintro rfl
      exact howned

theorem Halts.settled {earlier later : List (String × Descriptor)} {source : SocketError}
    (hm : m'.Sound k') (h : m.Halts k earlier entry later p source m' k') :
    ∀ other ∈ earlier ++ entry :: later, Settled k m' k' other := by
  intro other hother
  rcases List.mem_append.1 hother with hearlier | hrest
  · exact (h.taken other hearlier).settled hm
  · exact hm.settled_of_closed (h.closed other hrest)

/-! ## A key that comes again -/

theorem startInherited_append {later : List (String × Descriptor)}
    (h : startInherited entries m k = (.ok (), m₁, k₁)) :
    startInherited (entries ++ later) m k = startInherited later m₁ k₁ := by
  induction entries generalizing m k with
  | nil =>
    obtain ⟨-, rfl, rfl⟩ := h
    rfl
  | cons entry entries ih =>
    rw [startInherited] at h
    rw [List.cons_append, startInherited]
    split at h
    · cases h
    · exact ih h

/-- An enabled service is served on the descriptor of an entry that has taken effect. -/
theorem TakenUp.exists_serve (h : TakenUp m k m' k' entry) (hnames : m.Names entry p) :
    ∃ b, inspect k p.transport entry.2 = .ok b ∧ b.fd = entry.2 ∧
      m'.services p = (m.services p).ready.serve b := by
  cases h with
  | setAside hidle _ =>
    have hblank := hidle p hnames.key
    rw [hnames.enabled] at hblank
    cases hblank
  | @started q b hnames' _ hinspect hservice =>
    obtain rfl := Protocol.key_injective (hnames.key.symm.trans hnames'.key)
    obtain ⟨-, -, -, hb⟩ := ListeningSocket.inspect_eq_ok_iff.1 hinspect
    exact ⟨b, hinspect, by rw [hb], hservice⟩

/-- Entries that have all taken effect name an enabled service only once. -/
theorem Takes.eq_of_names (h : m.Takes k entries m' k') {other : String × Descriptor}
    (hentry : entry ∈ entries) (hother : other ∈ entries) (hnames : m.Names entry p)
    (hnames' : m.Names other p) : entry.2 = other.2 := by
  obtain ⟨b, -, hb, hservice⟩ := (h.each entry hentry).exists_serve hnames
  obtain ⟨b', -, hb', hservice'⟩ := (h.each other hother).exists_serve hnames'
  have hheld : Holding.held b = .held b' :=
    congrArg (·.socket.holding) (hservice.symm.trans hservice')
  rw [← hb, Holding.held.inj hheld, hb']

/-- An entry for a service that is bound is refused. -/
theorem Starts.of_bound (h : m.Starts k entry result m' k') (hnames : m.Names entry p)
    (hstate : (m.services p).state = .bound) :
    result = .error (.start p (.invalidState .adopt .bound)) ∧ m' = m := by
  have hsame : ∀ {q}, m.Names entry q → p = q := fun hnames' =>
    Protocol.key_injective (hnames.key.symm.trans hnames'.key)
  cases h with
  | setAside hidle =>
    have hblank := hidle p hnames.key
    rw [hnames.enabled] at hblank
    cases hblank
  | started hnames' hidle | refused hnames' hidle =>
    obtain rfl := hsame hnames'
    exact (hidle hstate).elim
  | repeated hnames' =>
    obtain rfl := hsame hnames'
    exact ⟨rfl, rfl⟩

/-- When an enabled service's turn comes again, it is served on its first descriptor and
    its key is refused. -/
theorem Sound.startInherited_repeated (hm : m.Sound k)
    {earlier later : List (String × Descriptor)} {fd fd' : Descriptor}
    (hnodup : ((earlier ++ (p.key, fd') :: later).map (·.2)).Nodup)
    (hnew : ∀ d ∈ (earlier ++ (p.key, fd') :: later).map (·.2), d ∉ m.owned)
    (hspec : (m.services p).spec.isEmpty = false) (hfirst : (p.key, fd) ∈ earlier)
    (hstart : startInherited (earlier ++ (p.key, fd') :: later) m k = (result, m', k')) :
    (∃ e, result = .error e) ∧
      ((startInherited earlier m k).1 = .ok () →
        result = .error (.start p (.invalidState .adopt .bound)) ∧
        ∃ b, inspect k p.transport fd = .ok b ∧
          m'.services p = (m.services p).ready.serve b) := by
  have hnames : ∀ d, m.Names (p.key, d) p := fun d => ⟨rfl, hspec⟩
  have hmem : (p.key, fd) ∈ earlier ++ (p.key, fd') :: later := List.mem_append_left _ hfirst
  have hmem' : (p.key, fd') ∈ earlier ++ (p.key, fd') :: later :=
    List.mem_append_right _ List.mem_cons_self
  constructor
  · rcases hm.takes_or_halts hnodup hnew hstart with ⟨-, htakes⟩ | ⟨_, _, _, _, _, -, herror, -⟩
    · have hsame : fd = fd' := htakes.eq_of_names hmem hmem' (hnames fd) (hnames fd')
      rw [List.map_append, List.nodup_append] at hnodup
      exact (hnodup.2.2 fd (List.mem_map_of_mem (f := (·.2)) hfirst) fd'
        List.mem_cons_self hsame).elim
    · exact ⟨_, herror⟩
  · intro hok
    rcases hearlier : startInherited earlier m k with ⟨r, m₁, k₁⟩
    obtain rfl : r = .ok () := by rwa [hearlier] at hok
    rw [List.map_append] at hnodup hnew
    have hnodup₁ := (List.nodup_append.1 hnodup).1
    have hnew₁ : ∀ d ∈ earlier.map (·.2), d ∉ m.owned := fun d hd =>
      hnew d (List.mem_append_left _ hd)
    have hm₁ : m₁.Sound k₁ := by
      have hsound := (evolves_startInherited hm hnodup₁ hnew₁).sound
      rwa [hearlier] at hsound
    rcases hm.takes_or_halts hnodup₁ hnew₁ hearlier with
      ⟨-, htakes⟩ | ⟨_, _, _, _, _, -, herror, -⟩
    · obtain ⟨b, hinspect, -, hservice⟩ := (htakes.each _ hfirst).exists_serve (hnames fd)
      have hbound : (m₁.services p).state = .bound := by
        rw [hservice]
        rfl
      rw [startInherited_append hearlier, startInherited] at hstart
      rcases hentry : m₁.startEntry (p.key, fd') k₁ with ⟨r, m₂, k₂⟩
      obtain ⟨rfl, rfl⟩ :=
        (hm₁.starts _ hentry).of_bound ((Names.congr (htakes.spec p)).2 (hnames fd')) hbound
      rw [hentry] at hstart
      obtain ⟨rfl, rfl, -⟩ := hstart
      exact ⟨rfl, b, hinspect, hservice⟩
    · cases herror

/-- On a handoff whose descriptors are its own, in every state that a manager can reach, the
    entries are taken in order up to the first that fails. The ones before it have taken
    effect, only its own service can have changed by it, and nothing after it is touched;
    and every descriptor is with the one bound service that its key names, or closed. So
    an enabled service whose key comes again is refused then and goes on with its first
    descriptor. -/
theorem Reachable.resume_in_order (hm : m.Reachable k) (h : Handoff)
    (hnodup : h.descriptors.Nodup) (hnew : ∀ fd ∈ h.descriptors, fd ∉ m.owned) :
    ∃ result m' k', m.resume h k = (result, m', k') ∧
      ((result = .ok () ∧ m.Takes k h.entries m' k') ∨
        ∃ earlier entry later p source, h.entries = earlier ++ entry :: later ∧
          result = .error (.start p source) ∧
          m.Halts k earlier entry later p source m' k') ∧
      (∀ entry ∈ h.entries, Settled k m' k' entry) ∧
      ∀ (p : Protocol) (earlier later : List (String × Descriptor)) (fd fd' : Descriptor),
        (m.services p).spec.isEmpty = false → h.entries = earlier ++ (p.key, fd') :: later →
        (p.key, fd) ∈ earlier →
        (∃ e, result = .error e) ∧
          ((startInherited earlier m k).1 = .ok () →
            result = .error (.start p (.invalidState .adopt .bound)) ∧
            ∃ b, inspect k p.transport fd = .ok b ∧
              m'.services p = (m.services p).ready.serve b) := by
  rcases hresume : m.resume h k with ⟨result, m', k'⟩
  have hcases := hm.sound.takes_or_halts hnodup hnew hresume
  have hm' : m'.Sound k' := by
    have hsound := (evolves_startInherited hm.sound hnodup hnew).sound
    rw [resume] at hresume
    rwa [hresume] at hsound
  refine ⟨result, m', k', rfl, hcases, ?_, ?_⟩
  · rcases hcases with ⟨-, htakes⟩ | ⟨earlier, entry, later, p, source, hentries, -, hhalts⟩
    · exact fun entry hentry => (htakes.each entry hentry).settled hm'
    · rw [hentries]
      exact hhalts.settled hm'
  · intro p earlier later fd fd' hspec hentries hfirst
    rw [Handoff.descriptors, hentries] at hnodup hnew
    rw [resume, hentries] at hresume
    exact hm.sound.startInherited_repeated hnodup hnew hspec hfirst hresume

/-- A handoff with an unknown key, a disabled service and a key that comes again before
    another. -/
theorem resume_in_order_of_repeated :
    let address : Address := ⟨.loopback, 2003⟩
    let k : Kernel := { table := ⟨[(3, ⟨⟨40, .listener address⟩, true⟩),
      (4, ⟨⟨41, .datagram address⟩, true⟩), (5, ⟨⟨42, .listener address⟩, true⟩),
      (6, ⟨⟨43, .listener address⟩, true⟩), (7, ⟨⟨44, .listener address⟩, true⟩)]⟩ }
    let m := create { ListenConfig.loopback with graphiteUdp := "" }
    let h : Handoff := ⟨[("zz", 3), ("gu", 4), ("gt", 5), ("gt", 6), ("gp", 7)]⟩
    m.Reachable k ∧ h.descriptors.Nodup ∧ (∀ fd ∈ h.descriptors, fd ∉ m.owned) ∧
    ∃ m' k', m.resume h k =
        (.error (.start .graphiteText (.invalidState .adopt .bound)), m', k') ∧
      (m'.services .graphiteText).socket.holding = .held ⟨5, .tcp, address⟩ ∧
      ∀ entry ∈ h.entries, Settled k m' k' entry := by
  intro address k m h
  have hm : m.Reachable k := .created _ {} k
  have hnodup : h.descriptors.Nodup := by decide
  have hnew : ∀ fd ∈ h.descriptors, fd ∉ m.owned := by
    rintro fd - ⟨p, l, hl, -⟩
    cases hl
  obtain ⟨result, m', k', hresume, -, hsettled, hrepeated⟩ := hm.resume_in_order h hnodup hnew
  obtain ⟨rfl, b, hinspect, hservice⟩ :=
    (hrepeated .graphiteText [("zz", 3), ("gu", 4), ("gt", 5)] [("gp", 7)] 5 6
      (by decide) rfl (by decide)).2 (by decide)
  obtain rfl : (⟨5, .tcp, address⟩ : BoundSocket) = b := Except.ok.inj hinspect
  refine ⟨hm, hnodup, hnew, m', k', hresume, ?_, hsettled⟩
  rw [hservice]
  rfl

end Manager
end MetricIntake
