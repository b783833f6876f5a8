import Siren.Net.EPollPoller

/-!
# What a poll delivers

`epoll_wait` fills `events_` with pairs of a mask and the `data.ptr` that was registered, and
`fillActiveChannels` writes each mask into the channel behind its pointer. When all of `events_` was filled
it is doubled, and it never shrinks.

* `Delivered`: the polled channels are those of the reported descriptors, each with the reported mask, and
  nothing else changed; a read or write callback follows from it only where that interest is registered.
* `Grown`: `events_` has doubled once for each poll that filled it.
* `polls_deliver`: both hold over every run, and `events_` stays below twice the number of the descriptors
  in the epoll set, or at its initial size.
-/

namespace Siren

namespace Mask

/-- All bits of the mask are in `bound`. -/
def Within (m bound : Mask) : Prop := m &&& ~~~bound = 0#32

instance (m bound : Mask) : Decidable (m.Within bound) := inferInstanceAs (Decidable (_ = _))

variable {m m' bits bound : Mask}

theorem within_or (h : m.Within bound) (h' : m'.Within bound) : (m ||| m').Within bound := by
  rw [Within, BitVec.and_comm, BitVec.and_or_distrib_left, BitVec.and_comm _ m, BitVec.and_comm _ m', h, h']
  rfl

theorem within_and (h : m.Within bound) (bits : Mask) : (m &&& bits).Within bound := by
  rw [Within, BitVec.and_assoc, BitVec.and_comm bits, ← BitVec.and_assoc, h, BitVec.zero_and]

/-- A bound has the bits that a mask within it has. -/
theorem Within.has (h : m.Within bound) (hbits : Mask.has m bits = true) : Mask.has bound bits = true := by
  by_contra hnot
  rw [Bool.not_eq_true, has_eq_false] at hnot
  have hnone : m &&& bits = 0#32 := by
    ext i hi
    have hi₁ := congrArg (fun x : Mask => x[i]) h
    have hi₂ := congrArg (fun x : Mask => x[i]) hnot
    simp only [BitVec.getElem_and, BitVec.getElem_not] at hi₁ hi₂ ⊢
    cases hm : m[i] <;> simp_all
  rw [← has_eq_false, hbits] at hnone
  cases hnone

end Mask

namespace Registry

open Channel (InterestCall kReadEvent kWriteEvent)
open EPollPoller (Assertion kInitEventListSize)

variable {P : Type*} {r r' : Registry P} {p : P}

/-- A poll that reported `ready` in the state `r`. -/
structure Delivered (r r' : Registry P) (ready : List (Int × Mask)) (activeChannels : List P) : Prop where
  /-- The channels are those of the reported descriptors, in this order. -/
  active : activeChannels.map (fun p => (r.channel p).fd) = ready.map Prod.fst
  nodup : activeChannels.Nodup
  /-- Each is in the epoll set and has the mask that was reported for it. -/
  reported : ∀ p mask, ((r.channel p).fd, mask) ∈ ready →
    (r.channel p).index = kAdded ∧ r'.channel p = { r.channel p with revents := mask }
  others : ∀ p, p ∉ activeChannels → r'.channel p = r.channel p
  /-- It makes a callback for reading or writing only with that interest. -/
  handled : ∀ p ∈ activeChannels,
    (.read ∈ Channel.handleEventWithGuard (r'.channel p).revents → (r.channel p).isReading = true) ∧
    (.write ∈ Channel.handleEventWithGuard (r'.channel p).revents → (r.channel p).isWriting = true)

/-- The channels of `l` are in the epoll set, so there are at most `n` of them. -/
def ArmedAtMost (n : Nat) (r : Registry P) : Prop :=
  ∀ l : List P, l.Nodup → (∀ p ∈ l, (r.channel p).index = kAdded) → l.length ≤ n

/-- The poll filled `events_`. -/
def filled : Except Assertion (Registry P) → Label P → List Unit
  | .ok r, .poll ready => if ready.length = r.poller.eventsSize then [()] else []
  | _, _ => []

variable [DecidableEq P]

/-- Each poll of a state delivers what it reports. -/
def PollsDelivered (r : Registry P) : Prop :=
  ∀ ready r' activeChannels, r.poll ready = some (r', activeChannels) → r.Delivered r' ready activeChannels

/-! ### One poll -/

theorem forall₂_of_mapM_eq_some {α β : Type*} {f : α → Option β} {xs : List α} {ys : List β}
    (h : xs.mapM f = some ys) : List.Forall₂ (fun x y => f x = some y) xs ys := by
  induction xs generalizing ys with
  | nil =>
    obtain rfl : ys = [] := by simpa [eq_comm] using h
    exact .nil
  | cons x xs ih =>
    rw [List.mapM_cons] at h
    obtain ⟨y, hy, h⟩ := Option.bind_eq_some_iff.mp h
    obtain ⟨ys, hys, h⟩ := Option.bind_eq_some_iff.mp h
    obtain rfl := Option.some.inj h
    exact .cons hy (ih hys)

theorem exists_of_forall₂ {α β : Type*} {R : α → β → Prop} {xs : List α} {ys : List β}
    (h : List.Forall₂ R xs ys) {x : α} (hx : x ∈ xs) : ∃ y ∈ ys, R x y := by
  induction h with
  | nil => cases hx
  | cons hxy _ ih =>
    rcases List.mem_cons.mp hx with rfl | hx
    · exact ⟨_, List.mem_cons_self, hxy⟩
    · obtain ⟨y, hy, hR⟩ := ih hx
      exact ⟨y, List.mem_cons_of_mem _ hy, hR⟩

omit [DecidableEq P] in
/-- The pointer of an entry is the channel of its descriptor. -/
theorem Mirrors.epollEntry_eq_some (h : r.Mirrors) {fd : Int} {mask : Mask} {e : EpollEvent P}
    (he : epollEntry r.poller (fd, mask) = some e) :
    (r.channel e.ptr).fd = fd ∧ e.events = mask ∧ (r.channel e.ptr).index = kAdded ∧
      mask.Within ((r.channel e.ptr).events ||| POLLERR ||| POLLHUP) := by
  obtain ⟨event, hevent, he⟩ := Option.bind_eq_some_iff.mp he
  rw [Option.ite_none_right_eq_some] at he
  obtain ⟨hmask, he⟩ := he
  obtain rfl := Option.some.inj he
  obtain ⟨p, hfd, hindex, rfl⟩ := (h.epoll fd event).mp hevent
  exact ⟨hfd, rfl, hindex, hmask⟩

/-- What `fillActiveChannels` leaves in the channels when no pointer occurs twice. -/
theorem fillActiveChannels_spec (channel : P → Channel) {events : List (EpollEvent P)}
    (hnodup : (events.map (·.ptr)).Nodup) :
    (∀ e ∈ events, (fillActiveChannels channel events).1 e.ptr =
      { channel e.ptr with revents := e.events }) ∧
    ∀ p, p ∉ events.map (·.ptr) → (fillActiveChannels channel events).1 p = channel p := by
  induction events generalizing channel with
  | nil => simp [fillActiveChannels]
  | cons e events ih =>
    obtain ⟨hout, hnodup⟩ := List.nodup_cons.mp hnodup
    obtain ⟨hin, hother⟩ := ih (Function.update channel e.ptr { channel e.ptr with revents := e.events }) hnodup
    refine ⟨fun e' he' => ?_, fun p hp => ?_⟩
    · rcases List.mem_cons.mp he' with rfl | he'
      · refine (hother _ hout).trans ?_
        rw [Function.update_self]
      · have hne : e'.ptr ≠ e.ptr := ne_of_mem_of_not_mem (List.mem_map_of_mem he') hout
        refine (hin e' he').trans ?_
        rw [Function.update_of_ne hne]
    · rw [List.map_cons, List.mem_cons, not_or] at hp
      refine (hother p hp.2).trans ?_
      rw [Function.update_of_ne hp.1]

/-- The callbacks for reading and writing have their interest, since nothing else is ever registered. -/
theorem handled_of_within {events mask : Mask} (hevents : events.Within (kReadEvent ||| kWriteEvent))
    (hmask : mask.Within (events ||| POLLERR ||| POLLHUP)) :
    (.read ∈ Channel.handleEventWithGuard mask → events.has kReadEvent = true) ∧
    (.write ∈ Channel.handleEventWithGuard mask → events.has kWriteEvent = true) := by
  have hreported : ∀ bits : Mask, POLLERR &&& bits = 0#32 → POLLHUP &&& bits = 0#32 →
      mask.has bits = true → events.has bits = true := by
    intro bits herr hhup hhas
    rw [← Mask.has_or_disjoint herr, ← Mask.has_or_disjoint hhup]
    exact hmask.has hhas
  refine ⟨fun hmem => ?_, fun hmem => ?_⟩
  · have hhas : mask.has (POLLIN ||| POLLPRI ||| POLLRDHUP) = true := by
      simpa [Channel.handleEventWithGuard] using hmem
    have hhas := hreported _ (by decide) (by decide) hhas
    rw [Mask.has_or, Bool.or_eq_true] at hhas
    refine hhas.resolve_right fun hrdhup => ?_
    exact absurd (hevents.has hrdhup) (by decide)
  · have hhas : mask.has POLLOUT = true := by
      simpa [Channel.handleEventWithGuard] using hmem
    exact hreported _ (by decide) (by decide) hhas

/-- Every interest that is registered is one in reading or writing. -/
def EventsWithin (r : Registry P) : Prop := ∀ p, (r.channel p).events.Within (kReadEvent ||| kWriteEvent)

theorem Mirrors.delivered (h : r.Mirrors) (hevents : r.EventsWithin) : r.PollsDelivered := by
  intro ready r' activeChannels hpoll
  obtain ⟨events, hwait, hpoll⟩ := Option.bind_eq_some_iff.mp hpoll
  obtain ⟨rfl, rfl⟩ := Prod.mk.inj (Option.some.inj hpoll)
  rw [epollWait, Option.ite_none_right_eq_some] at hwait
  obtain ⟨⟨-, hready⟩, hwait⟩ := hwait
  have hentries : List.Forall₂ (fun x (e : EpollEvent P) => (r.channel e.ptr).fd = x.1 ∧ e.events = x.2 ∧
      (r.channel e.ptr).index = kAdded ∧
      e.events.Within ((r.channel e.ptr).events ||| POLLERR ||| POLLHUP)) ready events := by
    refine (forall₂_of_mapM_eq_some hwait).imp fun x e he => ?_
    obtain ⟨hfd, hmask, hindex, hwithin⟩ := h.epollEntry_eq_some he
    exact ⟨hfd, hmask, hindex, hmask ▸ hwithin⟩
  have hactive : (fillActiveChannels r.channel events).2 = events.map (·.ptr) :=
    fillActiveChannels_active r.channel events
  have hfds : (events.map (·.ptr)).map (fun p => (r.channel p).fd) = ready.map Prod.fst := by
    have hpairs : List.Forall₂ (· = ·) (ready.map Prod.fst) (events.map fun e => (r.channel e.ptr).fd) :=
      List.forall₂_map_left_iff.mpr (List.forall₂_map_right_iff.mpr (hentries.imp fun _ _ he => he.1.symm))
    rw [List.map_map]
    exact (List.forall₂_eq_eq_eq ▸ hpairs).symm
  have hnodup : (events.map (·.ptr)).Nodup := List.Nodup.of_map _ (hfds ▸ hready)
  obtain ⟨hin, hout⟩ := fillActiveChannels_spec r.channel hnodup
  refine ⟨hactive ▸ hfds, hactive ▸ hnodup, ?_, ?_, ?_⟩
  · intro p mask hmem
    obtain ⟨e, he, hfd, hmask, hindex, -⟩ := exists_of_forall₂ hentries hmem
    obtain rfl : e.ptr = p := h.distinct hfd
    exact ⟨hindex, (hin e he).trans (by rw [hmask])⟩
  · intro p hp
    rw [hactive] at hp
    exact hout p hp
  · intro p hp
    rw [hactive] at hp
    obtain ⟨e, he, rfl⟩ := List.mem_map.mp hp
    obtain ⟨x, -, hx⟩ := exists_of_forall₂ hentries.flip he
    have hrevents : ((fillActiveChannels r.channel events).1 e.ptr).revents = e.events := by
      rw [hin e he]
    show (_ ∈ Channel.handleEventWithGuard ((fillActiveChannels r.channel events).1 e.ptr).revents → _) ∧
      (_ ∈ Channel.handleEventWithGuard ((fillActiveChannels r.channel events).1 e.ptr).revents → _)
    rw [hrevents]
    exact handled_of_within (hevents e.ptr) hx.2.2.2

/-! ### The registered interests -/

theorem mask_within (call : InterestCall) {events : Mask} (h : events.Within (kReadEvent ||| kWriteEvent)) :
    (call.mask events).Within (kReadEvent ||| kWriteEvent) := by
  cases call with
  | enableReading => exact Mask.within_or h (by decide)
  | disableReading => exact Mask.within_and h _
  | enableWriting => exact Mask.within_or h (by decide)
  | disableWriting => exact Mask.within_and h _
  | disableAll =>
    show Mask.Within Channel.kNoneEvent _
    decide

theorem EventsWithin.step {a : Label P} (hevents : r.EventsWithin) (h : r.Mirrors)
    (hstep : r.step a = some (.ok r')) : r'.EventsWithin := by
  intro q
  cases a with
  | interest call p =>
    obtain ⟨t, hok, -, hchannel⟩ := setInterest_spec h call p
    obtain rfl : t = r' := Except.ok.inj (hok.symm.trans (Option.some.inj hstep))
    rw [hchannel]
    by_cases hq : q = p
    · subst hq
      rw [Function.update_self]
      exact mask_within call (hevents q)
    · rw [Function.update_of_ne hq]
      exact hevents q
  | remove p =>
    obtain ⟨-, -, hchannel⟩ := remove_spec h (Option.some.inj hstep)
    rw [hchannel]
    by_cases hq : q = p
    · subst hq
      rw [Function.update_self]
      exact hevents q
    · rw [Function.update_of_ne hq]
      exact hevents q
  | poll ready =>
    obtain ⟨⟨t, activeChannels⟩, hpoll, ht⟩ := Option.map_eq_some_iff.mp hstep
    obtain rfl := Except.ok.inj ht
    obtain ⟨revents, hq⟩ := (poll_spec hpoll).1 q
    rw [hq]
    exact hevents q

/-! ### The size of `events_` -/

omit [DecidableEq P] in
@[simp] theorem update_eventsSize (poller : EPollPoller P) (op : EpollOp) (self : P) (channel : Channel) :
    (poller.update op self channel).eventsSize = poller.eventsSize := by
  unfold EPollPoller.update
  split <;> rfl

theorem updateChannel_eventsSize {poller poller' : EPollPoller P} {self : P} {channel channel' : Channel}
    (h : poller.updateChannel self channel = .ok (poller', channel')) :
    poller'.eventsSize = poller.eventsSize := by
  unfold EPollPoller.updateChannel at h
  split at h
  · dsimp only at h
    split at h
    · obtain ⟨-, h⟩ := of_cassert_bind h
      obtain ⟨rfl, -⟩ := Prod.mk.inj (Except.ok.inj h)
      exact update_eventsSize ..
    · obtain ⟨-, h⟩ := of_cassert_bind h
      obtain ⟨rfl, -⟩ := Prod.mk.inj (Except.ok.inj h)
      exact update_eventsSize ..
  · split at h
    · obtain ⟨rfl, -⟩ := Prod.mk.inj (Except.ok.inj h)
      exact update_eventsSize ..
    · obtain ⟨rfl, -⟩ := Prod.mk.inj (Except.ok.inj h)
      exact update_eventsSize ..

/-- Only a poll that fills `events_` changes its size. -/
theorem eventsSize_step {a : Label P} (hstep : r.step a = some (.ok r')) :
    r'.poller.eventsSize = r.poller.eventsSize * 2 ^ (filled (.ok r) a).length := by
  cases a with
  | interest call p =>
    obtain ⟨⟨poller, channel⟩, hpoller, h⟩ := of_bind_ok (Option.some.inj hstep)
    obtain rfl := Except.ok.inj h
    show poller.eventsSize = r.poller.eventsSize * 2 ^ ([] : List Unit).length
    rw [updateChannel_eventsSize hpoller, List.length_nil, pow_zero, mul_one]
  | remove p =>
    obtain ⟨-, -, rfl⟩ := remove_eq_ok (Option.some.inj hstep)
    show EPollPoller.eventsSize (if _ then _ else _) = _
    split
    · simp [filled]
    · simp [filled]
  | poll ready =>
    obtain ⟨⟨t, activeChannels⟩, hpoll, ht⟩ := Option.map_eq_some_iff.mp hstep
    obtain rfl := Except.ok.inj ht
    obtain ⟨events, hwait, hpoll⟩ := Option.bind_eq_some_iff.mp hpoll
    obtain ⟨rfl, rfl⟩ := Prod.mk.inj (Option.some.inj hpoll)
    rw [epollWait, Option.ite_none_right_eq_some] at hwait
    have hlength : ready.length = events.length := (forall₂_of_mapM_eq_some hwait.2).length_eq
    show (if events.length = r.poller.eventsSize then r.poller.eventsSize * 2 else r.poller.eventsSize) = _
    rw [filled, hlength]
    split
    · simp
    · simp

/-! ### Every run -/

/-- The channels of the loop agree with the poller, and `events_` has doubled once for each poll that filled
it. -/
structure Grown (r : Registry P) (filling : List Unit) : Prop where
  mirrors : r.Mirrors
  eventsSize : r.poller.eventsSize = kInitEventListSize * 2 ^ filling.length

theorem Grown.step {a : Label P} {filling : List Unit} (h : r.Grown filling)
    (hstep : r.step a = some (.ok r')) : r'.Grown (filling ++ filled (.ok r) a) where
  mirrors := h.mirrors.step hstep
  eventsSize := by
    rw [eventsSize_step hstep, h.eventsSize, List.length_append, pow_add, mul_assoc]

/-- A poll that fills `events_` reports as many channels of the epoll set, and so it does not double it
beyond twice their number. -/
theorem eventsSize_step_le {a : Label P} {n : Nat} (hmirrors : r.Mirrors) (hevents : r.EventsWithin)
    (harmed : r.ArmedAtMost n) (hstep : r.step a = some (.ok r')) :
    r'.poller.eventsSize ≤ max r.poller.eventsSize (2 * n) := by
  rw [eventsSize_step hstep]
  cases a with
  | interest call p => simp [filled]
  | remove p => simp [filled]
  | poll ready =>
    obtain ⟨⟨t, activeChannels⟩, hpoll, -⟩ := Option.map_eq_some_iff.mp hstep
    have hdelivered := hmirrors.delivered hevents ready t activeChannels hpoll
    have hlength : activeChannels.length = ready.length := by
      simpa using congrArg List.length hdelivered.active
    have hle : activeChannels.length ≤ n :=
      harmed activeChannels hdelivered.nodup fun p hp => hmirrors.index_of_polled hpoll hp
    rw [filled]
    split
    · rw [List.length_singleton, pow_one]
      omega
    · rw [List.length_nil, pow_zero, mul_one]
      exact le_max_left _ _

/-- **What a poll delivers**: in every state of every run a poll makes active exactly the channels of the
reported descriptors, each with its mask, and no callback for reading or writing follows without that
interest. `events_` never shrinks and doubles when a poll fills it, and no more often than it takes to hold
the descriptors in the epoll set: when these are never more than `n`, its size stays within `2 * n`, or at
what it was at first. -/
theorem polls_deliver (fd : P ↪ Int) (as : List (Label P)) :
    (channels P).Always (Machine.HoldsIfOk PollsDelivered) (.ok (new fd)) as ∧
    (∀ r, (channels P).run (.ok (new fd)) as = some (.ok r) → r.poller.eventsSize =
      kInitEventListSize * 2 ^ ((channels P).collect filled (.ok (new fd)) as).length) ∧
    ∀ n, (channels P).Meets (Machine.AtOk fun r _ => r.ArmedAtMost n) (.ok (new fd)) as →
      (channels P).Always (Machine.HoldsIfOk fun r => r.poller.eventsSize ≤ max kInitEventListSize (2 * n))
        (.ok (new fd)) as := by
  have hevents : (new fd).EventsWithin := fun p => show Mask.Within 0#32 _ by decide
  have hnew : (new fd).Mirrors := new_mirrors fd.injective
  refine ⟨?_, fun r hrun => ?_, fun n hmeets => ?_⟩
  · refine (Machine.ofExcept_always_holdsIfOk (I := fun r => Mirrors r ∧ EventsWithin r)
      ⟨hnew, hevents⟩ ?_).mono ?_
    · exact fun r a t h hstep => ⟨h.1.step hstep, h.2.step h.1 hstep⟩
    · intro u hu
      cases u with
      | error e => trivial
      | ok r => exact hu.1.delivered hu.2
  · have hgrown : Machine.HoldsIfOk (fun r => Grown r ([] ++ (channels P).collect filled (.ok (new fd)) as))
        (.ok r : Except Assertion (Registry P)) := by
      refine Machine.run_collect (J := fun u filling => Machine.HoldsIfOk (fun r => Grown r filling) u)
        ?_ ⟨hnew, rfl⟩ hrun
      intro u a v filling hu huv
      cases u with
      | error e => cases huv
      | ok s =>
        cases v with
        | error e => trivial
        | ok t => exact hu.step huv
    exact hgrown.eventsSize
  · refine (Machine.ofExcept_always_of_meets (I := fun r => (Mirrors r ∧ EventsWithin r) ∧
      r.poller.eventsSize ≤ max kInitEventListSize (2 * n))
      ⟨⟨hnew, hevents⟩, le_max_left _ _⟩ ?_ hmeets).mono ?_
    · intro r a t h harmed hstep
      refine ⟨⟨h.1.1.step hstep, h.1.2.step h.1.1 hstep⟩, ?_⟩
      have hle := eventsSize_step_le h.1.1 h.1.2 harmed hstep
      omega
    · intro u hu
      cases u with
      | error e => trivial
      | ok r => exact hu.2

end Registry

/-! ### Registries that agree -/

namespace MirroredRegistry

open Channel (InterestCall)
open Registry (EventsWithin)

variable {P : Type*} [DecidableEq P] {r r' : MirroredRegistry P} {p : P}

/-- `events_.size()` -/
def eventsSize (r : MirroredRegistry P) : Nat := r.registry.poller.eventsSize

theorem eventsSize_setInterest (r : MirroredRegistry P) (call : InterestCall) (p : P) :
    (r.setInterest call p).eventsSize = r.eventsSize := by
  obtain ⟨t, hok⟩ := r.setInterest_ok call p
  have hsize := Registry.eventsSize_step (a := .interest call p) (congrArg some hok)
  show (okValue (r.registry.setInterest call p) (r.setInterest_ok call p)).poller.eventsSize = _
  rw [okValue_eq hok, hsize]
  simp [Registry.filled, eventsSize]

theorem poll_eq_some {ready : List (Int × Mask)} {activeChannels : List P} :
    r.poll ready = some (r', activeChannels) ↔ r.registry.poll ready = some (r'.registry, activeChannels) := by
  unfold poll
  split
  · rename_i registry active hpoll
    constructor
    · intro h
      obtain ⟨rfl, rfl⟩ := Prod.mk.inj (Option.some.inj h)
      exact hpoll
    · intro h
      obtain ⟨registry', mirrors⟩ := r'
      obtain ⟨rfl, rfl⟩ := Prod.mk.inj (Option.some.inj (hpoll.symm.trans h))
      rfl
  · rename_i hpoll
    simp [hpoll]

theorem eventsSize_poll {ready : List (Int × Mask)} {activeChannels : List P}
    (h : r.poll ready = some (r', activeChannels)) : r.eventsSize ≤ r'.eventsSize := by
  have hstep : r.registry.step (.poll ready) = some (.ok r'.registry) :=
    Option.map_eq_some_iff.mpr ⟨_, poll_eq_some.mp h, rfl⟩
  rw [eventsSize, eventsSize, Registry.eventsSize_step hstep]
  exact Nat.le_mul_of_pos_right _ (Nat.two_pow_pos _)

/-- A poll delivers what it reports. -/
theorem delivered {ready : List (Int × Mask)} {activeChannels : List P} (hevents : r.registry.EventsWithin)
    (h : r.poll ready = some (r', activeChannels)) : r.registry.Delivered r'.registry ready activeChannels :=
  r.mirrors.delivered hevents ready r'.registry activeChannels (poll_eq_some.mp h)

/-- A channel in the epoll set may be reported alone. -/
theorem exists_poll {mask : Mask} (hindex : (r.channel p).index = kAdded) (hsize : 0 < r.eventsSize)
    (hmask : mask.Within ((r.channel p).events ||| POLLERR ||| POLLHUP)) :
    ∃ r' activeChannels, r.poll [((r.channel p).fd, mask)] = some (r', activeChannels) := by
  have hentry : Registry.epollEntry r.registry.poller ((r.channel p).fd, mask) = some ⟨mask, p⟩ := by
    have hepoll : r.registry.poller.epoll (r.channel p).fd = some ⟨(r.channel p).events, p⟩ :=
      (r.mirrors.epoll_self p).trans (if_pos hindex)
    rw [Registry.epollEntry]
    refine Option.bind_eq_some_iff.mpr ⟨_, hepoll, if_pos hmask⟩
  have hwait : Registry.epollWait r.registry.poller [((r.channel p).fd, mask)] = some [⟨mask, p⟩] := by
    rw [Registry.epollWait, if_pos ⟨hsize, List.nodup_singleton _⟩, List.mapM_cons, hentry]
    rfl
  have hpoll : ∃ t activeChannels, r.registry.poll [((r.channel p).fd, mask)] = some (t, activeChannels) := by
    rw [Registry.poll, hwait]
    exact ⟨_, _, rfl⟩
  obtain ⟨t, activeChannels, hpoll⟩ := hpoll
  exact ⟨⟨t, r.mirrors.poll hpoll⟩, activeChannels, poll_eq_some.mpr hpoll⟩

/-- A removal changes the one channel. -/
theorem channel_remove (hok : r.remove p = .ok r') :
    r'.channel = Function.update r.channel p { r.channel p with index := kNew } := by
  unfold remove at hok
  split at hok
  · rename_i registry h
    obtain rfl := Except.ok.inj hok
    exact (Registry.remove_spec r.mirrors h).2.2
  · cases hok

end MirroredRegistry

end Siren
