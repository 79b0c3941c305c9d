-- SUMMARY: The descriptors that a manager owns, and the states that its operations and what happens around them can lead to.
import MetricIntake.Service.Drain
import MetricIntake.Proofs.Manifest
import MetricIntake.Proofs.Service.Start

/-!
# What a manager owns

The services of a manager own different descriptors. So an operation on one of them
leaves the others alone, and what holds of one service after its operations holds of
all of them after those of the manager.
-/

namespace MetricIntake.Manager

open DescriptorTable (Retains)

variable {m m₁ m' : Manager} {k k₁ k' : Kernel} {given given' : Set Descriptor}
  {s' : Service} {p : Protocol}

/-- The descriptors of the open sockets of all services. -/
def owned (m : Manager) : Set Descriptor := {fd | ∃ p, fd ∈ (m.services p).owned}

/-- What holds of a manager between its operations. -/
structure Sound (m : Manager) (k : Kernel) : Prop where
  protocol : ∀ p, (m.services p).protocol = p
  service : ∀ p, (m.services p).Sound k
  apart : ∀ p q fd, fd ∈ (m.services p).owned → fd ∈ (m.services q).owned → p = q

/-- What an operation that is given descriptors makes of a manager. -/
structure Evolves (m : Manager) (k : Kernel) (given : Set Descriptor) (m' : Manager)
    (k' : Kernel) : Prop where
  sound : m'.Sound k'
  spec : ∀ p, (m'.services p).spec = (m.services p).spec
  retains : Retains k.table (given ∪ m.owned) k'.table m'.owned

theorem sound_create (listen : ListenConfig) (settings : Settings) (k : Kernel) :
    (create listen settings).Sound k where
  protocol _ := rfl
  service p := Service.sound_new p (listen.spec p) k
  apart _ _ _ := by
    rintro ⟨l, hl, -⟩
    cases hl

theorem Sound.congr (hm : m.Sound k)
    (hkept : ∀ fd ∈ m.owned, k'.table.get? fd = k.table.get? fd) : m.Sound k' where
  __ := hm
  service p := (hm.service p).congr fun fd hfd => hkept fd ⟨p, hfd⟩

/-- Counting connections makes no difference to what is owned. -/
theorem Sound.counted (hm : m.Sound k) (tracker : DrainTracker) :
    Sound { m with tracker } k where
  __ := hm

theorem Sound.get?_ne_none (hm : m.Sound k) {fd : Descriptor} (h : fd ∈ m.owned) :
    k.table.get? fd ≠ none := by
  obtain ⟨p, hp⟩ := h
  exact (hm.service p).get?_ne_none hp

/-- What is not open is not owned. -/
theorem Sound.ne_of_mem_owned (hm : m.Sound k) {fd free : Descriptor} (hfd : fd ∈ m.owned)
    (hfree : k.table.get? free = none) : fd ≠ free := by
  rintro rfl
  exact hm.get?_ne_none hfd hfree

/-! ## One operation after another -/

theorem Evolves.refl (hm : m.Sound k) : m.Evolves k ∅ m k :=
  ⟨hm, fun _ => rfl, by rw [Set.empty_union]; exact .refl k.table m.owned⟩

/-- Descriptors that are given are owned afterwards or they are closed. -/
theorem Evolves.owned_subset (h : m.Evolves k given m' k') : m'.owned ⊆ given ∪ m.owned :=
  h.retains.subset

/-- Operations follow one another if they are given different descriptors. -/
theorem Evolves.trans (h : m.Evolves k given m₁ k₁) (h' : m₁.Evolves k₁ given' m' k')
    (hgiven : ∀ fd ∈ given', fd ∉ given ∪ m.owned) : m.Evolves k (given ∪ given') m' k' where
  sound := h'.sound
  spec p := (h'.spec p).trans (h.spec p)
  retains := by
    have hfirst := h.retains.frame hgiven
    rw [Set.union_comm m₁.owned, Set.union_right_comm] at hfirst
    exact hfirst.trans h'.retains

theorem Evolves.trans_empty (h : m.Evolves k given m₁ k₁) (h' : m₁.Evolves k₁ ∅ m' k') :
    m.Evolves k given m' k' := by
  have htrans := h.trans h' nofun
  rwa [Set.union_empty] at htrans

/-! ## One service -/

/-- The descriptors of all services but one. -/
def others (m : Manager) (p : Protocol) : Set Descriptor :=
  {fd | ∃ q, q ≠ p ∧ fd ∈ (m.services q).owned}

theorem owned_eq_union (m : Manager) (p : Protocol) :
    m.owned = (m.services p).owned ∪ m.others p := by
  ext fd
  constructor
  · rintro ⟨q, hq⟩
    by_cases hqp : q = p
    · exact .inl (hqp ▸ hq)
    · exact .inr ⟨q, hqp, hq⟩
  · rintro (hp | ⟨q, -, hq⟩)
    · exact ⟨p, hp⟩
    · exact ⟨q, hq⟩

theorem others_update (m : Manager) (p : Protocol) (s' : Service) :
    (m.update p s').others p = m.others p := by
  ext fd
  constructor
  · rintro ⟨q, hne, hq⟩
    exact ⟨q, hne, services_update_of_ne m s' hne ▸ hq⟩
  · rintro ⟨q, hne, hq⟩
    exact ⟨q, hne, (services_update_of_ne m s' hne).symm ▸ hq⟩

/-- What holds of a service that takes the place of another, and of all others, holds of
    all. -/
theorem forall_services_update {P : Protocol → Service → Prop} (hp : P p s')
    (hothers : ∀ q, q ≠ p → P q (m.services q)) (q : Protocol) :
    P q ((m.update p s').services q) := by
  by_cases hqp : q = p
  · subst hqp
    rwa [services_update_self]
  · rw [services_update_of_ne m s' hqp]
    exact hothers q hqp

/-- What one service does leaves the others alone. -/
theorem Sound.evolves_update (hm : m.Sound k) (h : (m.services p).Evolves k given s' k')
    (hgiven : ∀ fd ∈ given, fd ∉ m.owned) : m.Evolves k given (m.update p s') k' := by
  have hothers : ∀ fd ∈ m.others p, fd ∉ given ∪ (m.services p).owned := by
    rintro fd ⟨q, hne, hq⟩ (hfd | hfd)
    · exact hgiven fd hfd ⟨q, hq⟩
    · exact hne (hm.apart q p fd hq hfd)
  have hretains := h.retains.frame hothers
  rw [Set.union_assoc, ← owned_eq_union] at hretains
  have howned : (m.update p s').owned = s'.owned ∪ m.others p := by
    rw [owned_eq_union _ p, services_update_self, others_update]
  have hdisjoint : ∀ q, q ≠ p → ∀ fd, fd ∈ (m.services q).owned → fd ∉ s'.owned :=
    fun q hne fd hq hfd => hothers fd ⟨q, hne, hq⟩ (h.retains.subset hfd)
  refine ⟨⟨?_, ?_, ?_⟩, ?_, howned ▸ hretains⟩
  · exact forall_services_update (P := fun q s => s.protocol = q)
      (h.protocol.trans (hm.protocol p)) fun q _ => hm.protocol q
  · refine forall_services_update (P := fun _ s => s.Sound k') h.sound fun q hne => ?_
    exact (hm.service q).congr fun fd hfd => hretains.same fd (.inl (.inr ⟨q, hne, hfd⟩))
  · have hsame : ∀ q fd, fd ∈ s'.owned → fd ∈ ((m.update p s').services q).owned → p = q := by
      intro q fd hfd
      exact forall_services_update (P := fun q s => fd ∈ s.owned → p = q) (fun _ => rfl)
        (fun q hne hq => absurd hfd (hdisjoint q hne fd hq)) q
    refine forall_services_update
      (P := fun q s => ∀ q' fd, fd ∈ s.owned → fd ∈ ((m.update p s').services q').owned → q = q')
      hsame fun q hne q' fd hq => ?_
    exact forall_services_update (P := fun q' s => fd ∈ s.owned → q = q')
      (fun hfd => absurd hfd (hdisjoint q hne fd hq)) (fun q' _ => hm.apart q q' fd hq) q'
  · exact forall_services_update (P := fun q s => s.spec = (m.services q).spec) h.spec
      fun _ _ => rfl

/-! ## Operations without descriptors -/

/-- An operation on every service. -/
theorem evolves_forEach {f : Service → Kernel → Service × Kernel}
    (hf : ∀ s k, Service.Sound s k → s.Evolves k ∅ (f s k).1 (f s k).2) (hm : m.Sound k) :
    m.Evolves k ∅ (forEach f m k).1 (forEach f m k).2 := by
  unfold forEach
  generalize Protocol.all = protocols
  induction protocols generalizing m k with
  | nil => exact .refl hm
  | cons p protocols ih =>
    have hstep := hm.evolves_update (hf (m.services p) k (hm.service p)) nofun
    exact hstep.trans_empty (ih hstep.sound)

/-- Every service is operated on once, on what the kernel has become by then. -/
theorem exists_services_forEach (f : Service → Kernel → Service × Kernel) (m : Manager) (k : Kernel)
    (p : Protocol) : ∃ k', (forEach f m k).1.services p = (f (m.services p) k').1 := by
  have hnodup : Protocol.all.Nodup := by decide
  suffices h : (p ∉ Protocol.all → (forEach f m k).1.services p = m.services p) ∧
      (p ∈ Protocol.all → ∃ k', (forEach f m k).1.services p = (f (m.services p) k').1) from
    h.2 p.mem_all
  unfold forEach
  generalize Protocol.all = protocols at hnodup ⊢
  induction protocols generalizing m k with
  | nil => exact ⟨fun _ => rfl, nofun⟩
  | cons q protocols ih =>
    obtain ⟨hq, hnodup⟩ := List.nodup_cons.1 hnodup
    obtain ⟨hout, hin⟩ := ih (m.update q (f (m.services q) k).1) (f (m.services q) k).2 hnodup
    constructor
    · intro hp
      rw [List.mem_cons, not_or] at hp
      exact (hout hp.2).trans (services_update_of_ne m _ hp.1)
    · intro hp
      by_cases hpq : p = q
      · subst hpq
        exact ⟨k, (hout hq).trans (services_update_self m p _)⟩
      · obtain ⟨k', hk'⟩ := hin ((List.mem_cons.1 hp).resolve_left hpq)
        exact ⟨k', hk'.trans (by rw [services_update_of_ne m _ hpq])⟩

theorem evolves_shutdown (hm : m.Sound k) : m.Evolves k ∅ (m.shutdown k).1 (m.shutdown k).2 :=
  evolves_forEach (fun _ _ => Service.evolves_stop) hm

theorem evolves_settle (hm : m.Sound k) : m.Evolves k ∅ (m.settle k).1 (m.settle k).2 :=
  evolves_forEach (fun _ _ => Service.evolves_settle) hm

theorem evolves_exitLoop (hm : m.Sound k) (p : Protocol) (i : Nat) :
    m.Evolves k ∅ (m.exitLoop p i k).1 (m.exitLoop p i k).2 :=
  hm.evolves_update (Service.evolves_exitLoop (hm.service p) i) nofun

theorem evolves_untrack (hm : m.Sound k) : m.Evolves k ∅ m.untrack k := by
  have htrack := fun p => Service.evolves_takeTracked (hm.service p)
  have howned : ∀ p, (m.untrack.services p).owned = (m.services p).owned :=
    fun p => Service.owned_track (m.services p) fun _ => false
  refine ⟨⟨hm.protocol, fun p => (htrack p).sound, ?_⟩, fun _ => rfl, ?_⟩
  · intro p q fd
    rw [howned p, howned q]
    exact hm.apart p q fd
  · have hsame : m.untrack.owned = m.owned := by simp only [owned, howned]
    rw [hsame, Set.empty_union]
    exact .refl k.table m.owned

/-! ## What operations keep -/

section Kept

variable {P : Manager → Prop}

/-- What operating on one service keeps, operating on every service keeps. -/
theorem forEach_rec {f : Service → Kernel → Service × Kernel}
    (hf : ∀ m p k, P m → P (Manager.update m p (f (m.services p) k).1)) (hm : P m) (k : Kernel) :
    P (forEach f m k).1 :=
  List.foldlRecOn (motive := fun x : Manager × Kernel => P x.1) _ _ hm
    fun x hx p _ => hf x.1 p x.2 hx

/-- What starting one service keeps, starting on a descriptor keeps. -/
theorem startEntry_rec (hstart : ∀ m p inherited k, P m → P (startService m p inherited k).2.1)
    (hm : P m) (entry : String × Descriptor) (k : Kernel) : P (m.startEntry entry k).2.1 := by
  unfold startEntry
  split
  · exact hm
  · rename_i p _
    exact hstart m p (some entry.2) k hm

theorem startInherited_rec
    (hstart : ∀ m p inherited k, P m → P (startService m p inherited k).2.1)
    (hm : P m) (entries : List (String × Descriptor)) (k : Kernel) :
    P (startInherited entries m k).2.1 := by
  induction entries generalizing m k with
  | nil => exact hm
  | cons entry entries ih =>
    have hentry := startEntry_rec hstart hm entry k
    rw [startInherited]
    rcases hresult : m.startEntry entry k with ⟨e | _, m₁, k₁⟩
    · rw [hresult] at hentry
      exact hentry
    · rw [hresult] at hentry
      exact ih hentry k₁

theorem startFresh_rec (hstart : ∀ m p inherited k, P m → P (startService m p inherited k).2.1)
    (hm : P m) (protocols : List Protocol) (k : Kernel) : P (startFresh protocols m k).2.1 := by
  induction protocols generalizing m k with
  | nil => exact hm
  | cons p protocols ih =>
    have hservice := hstart m p none k hm
    rw [startFresh]
    rcases hresult : m.startService p none k with ⟨e | _, m₁, k₁⟩
    · rw [hresult] at hservice
      exact hservice
    · rw [hresult] at hservice
      exact ih hservice k₁

theorem run_rec (hstart : ∀ m p inherited k, P m → P (startService m p inherited k).2.1)
    (hm : P m) (manifest : Manifest) (base : Descriptor) (k : Kernel) :
    P (m.run manifest base k).2.1 := by
  unfold run
  split
  · exact startFresh_rec hstart hm Protocol.all k
  · split
    · exact hm
    · exact startInherited_rec hstart hm _ _

end Kept

/-- What holds of every service, if starting one keeps it. -/
theorem forall_services_startService {P : Service → Prop}
    (hstart : ∀ s inherited k, P s → P (Service.start s inherited k).2.1) (m : Manager)
    (p : Protocol) (inherited : Option Descriptor) (k : Kernel) (hm : ∀ q, P (m.services q)) :
    ∀ q, P ((m.startService p inherited k).2.1.services q) :=
  forall_services_update (P := fun _ => P) (hstart _ inherited k (hm p)) fun q _ => hm q

theorem forall_services_forEach {P : Service → Prop} {f : Service → Kernel → Service × Kernel}
    (hf : ∀ s k, P s → P (f s k).1) (hm : ∀ p, P (m.services p)) (k : Kernel) :
    ∀ p, P ((forEach f m k).1.services p) :=
  forEach_rec (P := fun m => ∀ p, P (m.services p))
    (fun _ p k hm => forall_services_update (P := fun _ => P) (hf _ k (hm p)) fun q _ => hm q) hm k

/-! ## Starting on descriptors -/

theorem evolves_closeAll (hm : m.Sound k) {fds : List Descriptor}
    (hnew : ∀ fd ∈ fds, fd ∉ m.owned) :
    m.Evolves k {fd | fd ∈ fds} m (k.closeAll fds) := by
  have hretains : Retains k.table ({fd | fd ∈ fds} ∪ m.owned) (k.closeAll fds).table m.owned :=
    .closeAll k.table hnew
  exact ⟨hm.congr fun fd hfd => hretains.same fd (.inl hfd), fun _ => rfl, hretains⟩

theorem evolves_startEntry (hm : m.Sound k) {entry : String × Descriptor}
    (hnew : entry.2 ∉ m.owned) :
    m.Evolves k {entry.2} (m.startEntry entry k).2.1 (m.startEntry entry k).2.2 := by
  unfold startEntry
  split
  · have hclose := evolves_closeAll hm (List.forall_mem_singleton.2 hnew)
    have hgiven : {fd | fd ∈ [entry.2]} = {entry.2} := by
      ext fd
      simp
    rwa [hgiven] at hclose
  · rename_i p _
    refine hm.evolves_update (Service.evolves_start_some (hm.service p) ?_) ?_
    · exact fun howned => hnew ⟨p, howned⟩
    · rintro fd rfl
      exact hnew

/-- Descriptors that are given to be started on are kept by services, or closed. -/
theorem evolves_startInherited (hm : m.Sound k) {entries : List (String × Descriptor)}
    (hnodup : (entries.map (·.2)).Nodup) (hnew : ∀ fd ∈ entries.map (·.2), fd ∉ m.owned) :
    m.Evolves k {fd | fd ∈ entries.map (·.2)} (startInherited entries m k).2.1
      (startInherited entries m k).2.2 := by
  induction entries generalizing m k with
  | nil => simpa [startInherited] using Evolves.refl hm
  | cons entry entries ih =>
    rw [List.map_cons, List.nodup_cons] at hnodup
    rw [List.map_cons, List.forall_mem_cons] at hnew
    have hentry := evolves_startEntry hm hnew.1
    have hgiven : {fd | fd ∈ (entry :: entries).map (·.2)} =
        {entry.2} ∪ {fd | fd ∈ entries.map (·.2)} := by
      ext fd
      simp
    have hrest : ∀ fd ∈ entries.map (·.2), fd ∉ ({entry.2} : Set Descriptor) ∪ m.owned := by
      rintro fd hfd (rfl | howned)
      · exact hnodup.1 hfd
      · exact hnew.2 fd hfd howned
    have hrest' : ∀ fd ∈ entries.map (·.2), fd ∉ (m.startEntry entry k).2.1.owned :=
      fun fd hfd howned => hrest fd hfd (hentry.owned_subset howned)
    rw [hgiven, startInherited]
    rcases hstart : m.startEntry entry k with ⟨e | _, m₁, k₁⟩
    · simp only [hstart] at hentry hrest'
      exact hentry.trans (evolves_closeAll hentry.sound hrest') hrest
    · simp only [hstart] at hentry hrest'
      exact hentry.trans (ih hentry.sound hnodup.2 hrest') hrest

/-! ## Starting on fresh sockets -/

theorem sound_startFresh (hm : m.Sound k) (protocols : List Protocol) :
    (startFresh protocols m k).2.1.Sound (startFresh protocols m k).2.2 := by
  induction protocols generalizing m k with
  | nil => exact hm
  | cons p protocols ih =>
    obtain ⟨given, k₁, hfree, hsame, hstart⟩ :=
      Service.exists_evolves_start_none (hm.service p)
    have hgiven : ∀ fd ∈ given, fd ∉ m.owned := fun fd hfd howned =>
      hm.get?_ne_none howned (hfree fd hfd)
    have hm₁ : m.Sound k₁ := hm.congr fun fd howned =>
      hsame fd fun hfd => hgiven fd hfd howned
    have hevolves := hm₁.evolves_update hstart hgiven
    rw [startFresh, startService]
    rcases hresult : (m.services p).start none k with ⟨e | _, s', k'⟩
    · simp only [hresult] at hevolves
      exact hevolves.sound
    · simp only [hresult] at hevolves
      exact ih hevolves.sound

/-- Descriptors that a manifest names are taken only if nothing else owns them. -/
theorem sound_run (hm : m.Sound k) {manifest : Manifest} {base : Int}
    (hnew : ∀ i < manifest.length, base + (i : Int) ∉ m.owned) :
    (m.run manifest base k).2.1.Sound (m.run manifest base k).2.2 := by
  have hnew : ∀ fd ∈ (manifest.entriesFrom base).map (·.2), fd ∉ m.owned := by
    intro fd hfd
    obtain ⟨i, hi, rfl⟩ := Manifest.mem_descriptors_entriesFrom.1 hfd
    exact hnew i hi
  unfold run
  split
  · exact sound_startFresh hm Protocol.all
  · rcases Manifest.adoptFrom_cases (k := k) [] manifest base with
      ⟨-, hok⟩ | ⟨i, key, -, herror⟩
    · simp only [Manifest.adopt, hok, List.nil_append]
      exact (evolves_startInherited hm (manifest.nodup_descriptors_entriesFrom base) hnew).sound
    · simp only [Manifest.adopt, herror, List.nil_append]
      refine (evolves_closeAll hm fun fd hfd => hnew fd ?_).sound
      obtain ⟨entry, hentry, rfl⟩ := List.mem_map.1 hfd
      exact List.mem_map_of_mem (List.mem_of_mem_take hentry)

end MetricIntake.Manager
