import Mathlib.Logic.Function.Basic
import Siren.Lib.Machine
import Siren.Net.Channel

/-!
# `EPollPoller` and the kernel's interest table

`updateChannel` and `removeChannel` keep three copies of what is registered: the channel's `index_`, the
poller's map `channels_` and the kernel's table behind `epollfd_`. A `Registry` holds all three for any
set of channels.

* `Mirrors`: the three copies agree, and no `epoll_ctl` call failed so far. Every call keeps it
  (`setInterest_spec`, `remove_spec`, `poll_spec`), so it holds all along every run (`channels_mirror`).
* `armed_iff_interested`: a channel's fd is in the epoll set exactly while its mask is non-empty, in
  the runs that never empty the mask of a channel whose index is not `kAdded`, and in no others. The
  branch of `updateChannel` for new and deleted channels adds the fd whatever the mask is.

`MirroredRegistry` bundles a registry with `Mirrors`; on it the interest calls do not fail.
-/

namespace Siren

/-- An assertion of `EPollPoller.cpp` or of `Channel::remove`, named after its function. -/
inductive EPollPoller.Assertion where
  | updateChannelNew
  | updateChannelDeleted
  | removeChannelRegistered
  | removeChannelNoneEvent
  | removeChannelIndex
  | channelRemove
  deriving DecidableEq

/-! ### The kernel's table -/

inductive EpollOp where
  | add
  | mod
  | del
  deriving DecidableEq

/-- `struct epoll_event`: the mask and `data.ptr`. -/
structure EpollEvent (P : Type*) where
  events : Mask
  ptr : P
  deriving DecidableEq

/-- `epoll_ctl`: the new table, or `none` where the call returns -1 (`EEXIST`, `ENOENT`). -/
def epollCtl {P : Type*} (table : Int → Option (EpollEvent P)) (op : EpollOp) (fd : Int)
    (event : EpollEvent P) : Option (Int → Option (EpollEvent P)) :=
  match op, table fd with
  | .add, none => some (Function.update table fd (some event))
  | .mod, some _ => some (Function.update table fd (some event))
  | .del, some _ => some (Function.update table fd none)
  | _, _ => none

/-! ### The poller -/

structure EPollPoller (P : Type*) where
  /-- `channels_` -/
  channels : Int → Option P
  /-- `events_.size()` -/
  eventsSize : Nat
  /-- The kernel's interest table of `epollfd_`. -/
  epoll : Int → Option (EpollEvent P)
  /-- History: the `epoll_ctl` calls that returned -1. -/
  failures : List (EpollOp × Int)

namespace EPollPoller

variable {P : Type*}

def kInitEventListSize : Nat := 16

/-- A freshly constructed poller. -/
def new (P : Type*) : EPollPoller P := ⟨fun _ => none, kInitEventListSize, fun _ => none, []⟩

/-- `update(operation, channel)`: an error of `epoll_ctl` is only logged. -/
def update (poller : EPollPoller P) (op : EpollOp) (self : P) (channel : Channel) : EPollPoller P :=
  match epollCtl poller.epoll op channel.fd ⟨channel.events, self⟩ with
  | some table => { poller with epoll := table }
  | none => { poller with failures := poller.failures ++ [(op, channel.fd)] }

variable [DecidableEq P]

/-- `updateChannel(channel)`, where `self` is the channel's address. -/
def updateChannel (poller : EPollPoller P) (self : P) (channel : Channel) :
    Except Assertion (EPollPoller P × Channel) :=
  if channel.index = kNew ∨ channel.index = kDeleted then do
    let poller ←
      if channel.index = kNew then do
        cassert (poller.channels channel.fd = none) .updateChannelNew
        pure { poller with channels := Function.update poller.channels channel.fd (some self) }
      else do
        cassert (poller.channels channel.fd = some self) .updateChannelDeleted
        pure poller
    let channel := { channel with index := kAdded }
    return (poller.update .add self channel, channel)
  else if channel.isNoneEvent then
    return (poller.update .del self channel, { channel with index := kDeleted })
  else
    return (poller.update .mod self channel, channel)

/-- `removeChannel(channel)` -/
def removeChannel (poller : EPollPoller P) (self : P) (channel : Channel) :
    Except Assertion (EPollPoller P × Channel) := do
  cassert (poller.channels channel.fd = some self) .removeChannelRegistered
  cassert (channel.isNoneEvent = true) .removeChannelNoneEvent
  cassert (channel.index = kAdded ∨ channel.index = kDeleted) .removeChannelIndex
  let poller := { poller with channels := Function.update poller.channels channel.fd none }
  let poller := if channel.index = kAdded then poller.update .del self channel else poller
  return (poller, { channel with index := kNew })

/-! The four ways through `updateChannel` when the tables agree with the index. -/

variable {poller : EPollPoller P} {self : P} {channel : Channel}

/-- Never registered: entered in `channels_` and added to the epoll set. -/
theorem updateChannel_new (hi : channel.index = kNew) (hchannels : poller.channels channel.fd = none)
    (hepoll : poller.epoll channel.fd = none) :
    poller.updateChannel self channel = .ok
      ({ poller with
          channels := Function.update poller.channels channel.fd (some self)
          epoll := Function.update poller.epoll channel.fd (some ⟨channel.events, self⟩) },
        { channel with index := kAdded }) := by
  simp [updateChannel, update, epollCtl, cassert, hi, hchannels, hepoll, pure, Except.pure]

/-- Taken out of the epoll set before: added again, whatever the mask. -/
theorem updateChannel_deleted (hi : channel.index = kDeleted)
    (hchannels : poller.channels channel.fd = some self) (hepoll : poller.epoll channel.fd = none) :
    poller.updateChannel self channel = .ok
      ({ poller with epoll := Function.update poller.epoll channel.fd (some ⟨channel.events, self⟩) },
        { channel with index := kAdded }) := by
  have hnew : kDeleted ≠ kNew := by decide
  simp [updateChannel, update, epollCtl, cassert, hi, hnew, hchannels, hepoll, pure, Except.pure]

/-- In the epoll set with no interest left: taken out of it. -/
theorem updateChannel_none (hi : channel.index = kAdded) {event : EpollEvent P}
    (hepoll : poller.epoll channel.fd = some event) (hnone : channel.events = Channel.kNoneEvent) :
    poller.updateChannel self channel = .ok
      ({ poller with epoll := Function.update poller.epoll channel.fd none },
        { channel with index := kDeleted }) := by
  have hnew : kAdded ≠ kNew := by decide
  have hdel : kAdded ≠ kDeleted := by decide
  simp [updateChannel, update, epollCtl, hi, hnew, hdel, hepoll, Channel.isNoneEvent, hnone, pure,
    Except.pure]

/-- In the epoll set with some interest: modified there. -/
theorem updateChannel_some (hi : channel.index = kAdded) {event : EpollEvent P}
    (hepoll : poller.epoll channel.fd = some event) (hnone : channel.events ≠ Channel.kNoneEvent) :
    poller.updateChannel self channel = .ok
      ({ poller with epoll := Function.update poller.epoll channel.fd (some ⟨channel.events, self⟩) },
        channel) := by
  have hnew : kAdded ≠ kNew := by decide
  have hdel : kAdded ≠ kDeleted := by decide
  simp [updateChannel, update, epollCtl, hi, hnew, hdel, hepoll, Channel.isNoneEvent, hnone, pure,
    Except.pure]

end EPollPoller

/-! ### Channels and poller together -/

/-- The channels of a loop, by address, and its poller. -/
structure Registry (P : Type*) where
  channel : P → Channel
  poller : EPollPoller P

namespace Registry

open EPollPoller (Assertion)
open Channel (InterestCall)

variable {P : Type*}

/-- New channels with these descriptors and a new poller. -/
def new (fd : P → Int) : Registry P := ⟨fun p => Channel.new (fd p), EPollPoller.new P⟩

variable [DecidableEq P]

/-- `enableReading` and its siblings: set the mask, then `update()`. -/
def setInterest (r : Registry P) (call : InterestCall) (p : P) : Except Assertion (Registry P) := do
  let channel := { r.channel p with events := call.mask (r.channel p).events }
  let (poller, channel) ← r.poller.updateChannel p channel
  return ⟨Function.update r.channel p channel, poller⟩

def enableReading (r : Registry P) (p : P) : Except Assertion (Registry P) := r.setInterest .enableReading p
def disableReading (r : Registry P) (p : P) : Except Assertion (Registry P) := r.setInterest .disableReading p
def enableWriting (r : Registry P) (p : P) : Except Assertion (Registry P) := r.setInterest .enableWriting p
def disableWriting (r : Registry P) (p : P) : Except Assertion (Registry P) := r.setInterest .disableWriting p
def disableAll (r : Registry P) (p : P) : Except Assertion (Registry P) := r.setInterest .disableAll p

/-- `Channel::remove()` -/
def remove (r : Registry P) (p : P) : Except Assertion (Registry P) := do
  cassert ((r.channel p).isNoneEvent = true) .channelRemove
  let (poller, channel) ← r.poller.removeChannel p (r.channel p)
  return ⟨Function.update r.channel p channel, poller⟩

/-- One entry of `epoll_wait`: a descriptor registered in the kernel's table with a mask within the
registered one, `POLLERR` and `POLLHUP`; it carries the registered `data.ptr`. -/
def epollEntry (poller : EPollPoller P) (ready : Int × Mask) : Option (EpollEvent P) := do
  let event ← poller.epoll ready.1
  if ready.2 &&& ~~~(event.events ||| POLLERR ||| POLLHUP) = 0 then some ⟨ready.2, event.ptr⟩ else none

/-- `epoll_wait`: it reports any such entries, each descriptor once and at most `events_.size()` of
them. `none` for a report that cannot happen. -/
def epollWait (poller : EPollPoller P) (ready : List (Int × Mask)) : Option (List (EpollEvent P)) :=
  if ready.length ≤ poller.eventsSize ∧ (ready.map Prod.fst).Nodup then
    ready.mapM (epollEntry poller)
  else none

/-- `fillActiveChannels`: sets `revents_` and lists the channels. -/
def fillActiveChannels (channel : P → Channel) : List (EpollEvent P) → (P → Channel) × List P
  | [] => (channel, [])
  | e :: events =>
    let filled := fillActiveChannels
      (Function.update channel e.ptr { channel e.ptr with revents := e.events }) events
    (filled.1, e.ptr :: filled.2)

/-- `poll`, when `epoll_wait` reports `ready`: the channels to run. -/
def poll (r : Registry P) (ready : List (Int × Mask)) : Option (Registry P × List P) := do
  let events ← epollWait r.poller ready
  let (channel, activeChannels) := fillActiveChannels r.channel events
  let size := if events.length = r.poller.eventsSize then r.poller.eventsSize * 2 else r.poller.eventsSize
  return (⟨channel, { r.poller with eventsSize := size }⟩, activeChannels)

/-! ### The three copies agree -/

/-- The channels have distinct descriptors; `channels_` maps exactly those of the channels with index
`kAdded` or `kDeleted`, to these channels; the kernel's table holds exactly those of the channels with
index `kAdded`, each with its current mask and its own address; and no `epoll_ctl` call failed. -/
structure Mirrors (r : Registry P) : Prop where
  distinct : Function.Injective fun p => (r.channel p).fd
  index : ∀ p, (r.channel p).index = kNew ∨ (r.channel p).index = kAdded ∨ (r.channel p).index = kDeleted
  channels : ∀ fd p, r.poller.channels fd = some p ↔
    (r.channel p).fd = fd ∧ ((r.channel p).index = kAdded ∨ (r.channel p).index = kDeleted)
  epoll : ∀ fd event, r.poller.epoll fd = some event ↔
    ∃ p, (r.channel p).fd = fd ∧ (r.channel p).index = kAdded ∧ event = ⟨(r.channel p).events, p⟩
  failures : r.poller.failures = []

variable {r r' : Registry P} {p q : P}

omit [DecidableEq P] in
theorem new_mirrors {fd : P → Int} (h : Function.Injective fd) : (new fd).Mirrors where
  distinct := h
  index p := Or.inl rfl
  channels fd p := by simp [new, EPollPoller.new, Channel.new, kNew, kAdded, kDeleted]
  epoll fd event := by simp [new, EPollPoller.new, Channel.new, kNew, kAdded]
  failures := rfl

namespace Mirrors

omit [DecidableEq P] in
theorem channels_self (h : r.Mirrors) (p : P) : r.poller.channels (r.channel p).fd =
    if (r.channel p).index = kNew then none else some p := by
  split
  · rename_i hnew
    refine Option.eq_none_iff_forall_ne_some.mpr fun q hq => ?_
    obtain ⟨hfd, hidx⟩ := (h.channels _ q).mp hq
    obtain rfl := h.distinct hfd
    rw [hnew] at hidx
    exact absurd hidx (by decide)
  · rename_i hnew
    exact (h.channels _ p).mpr ⟨rfl, (h.index p).resolve_left hnew⟩

omit [DecidableEq P] in
theorem epoll_self (h : r.Mirrors) (p : P) : r.poller.epoll (r.channel p).fd =
    if (r.channel p).index = kAdded then some ⟨(r.channel p).events, p⟩ else none := by
  split
  · rename_i hadded
    exact (h.epoll _ _).mpr ⟨p, rfl, hadded, rfl⟩
  · rename_i hadded
    refine Option.eq_none_iff_forall_ne_some.mpr fun event hevent => ?_
    obtain ⟨q, hfd, hidx, -⟩ := (h.epoll _ _).mp hevent
    obtain rfl := h.distinct hfd
    exact hadded hidx

/-- Changing one channel keeps the agreement when both tables change at its descriptor alone and say
what its new index says. -/
theorem replace (h : r.Mirrors) {p : P} {c : Channel} {poller : EPollPoller P}
    (hfd : c.fd = (r.channel p).fd) (hidx : c.index = kNew ∨ c.index = kAdded ∨ c.index = kDeleted)
    (hchannels : poller.channels =
      Function.update r.poller.channels c.fd (if c.index = kNew then none else some p))
    (hepoll : poller.epoll =
      Function.update r.poller.epoll c.fd (if c.index = kAdded then some ⟨c.events, p⟩ else none))
    (hfail : poller.failures = []) :
    Mirrors ⟨Function.update r.channel p c, poller⟩ := by
  have hself : Function.update r.channel p c p = c := Function.update_self ..
  have hother : ∀ q, q ≠ p → Function.update r.channel p c q = r.channel q :=
    fun q hq => Function.update_of_ne hq ..
  have hfds : ∀ q, (Function.update r.channel p c q).fd = (r.channel q).fd := by
    intro q
    by_cases hq : q = p
    · subst hq; rw [hself, hfd]
    · rw [hother q hq]
  have hapart : ∀ q, q ≠ p → (r.channel q).fd ≠ c.fd := fun q hq he => hq (h.distinct (he.trans hfd))
  refine ⟨?_, ?_, ?_, ?_, hfail⟩
  · intro a b hab
    simp only [hfds] at hab
    exact h.distinct hab
  · intro q
    by_cases hq : q = p
    · subst hq; simpa [hself] using hidx
    · simpa [hother q hq] using h.index q
  · intro fd q
    simp only [hchannels]
    by_cases hq : q = p
    · subst hq
      rw [hself]
      by_cases he : fd = c.fd
      · subst he
        rw [Function.update_self]
        rcases hidx with hi | hi | hi <;> simp [hi, kNew, kAdded, kDeleted]
      · rw [Function.update_of_ne he, h.channels]
        exact ⟨fun hc => absurd (hc.1.symm.trans hfd.symm) he, fun hc => absurd hc.1.symm he⟩
    · rw [hother q hq]
      by_cases he : fd = c.fd
      · subst he
        rw [Function.update_self]
        refine ⟨fun hc => ?_, fun hc => absurd hc.1 (hapart q hq)⟩
        split at hc
        · cases hc
        · exact absurd (Option.some.inj hc).symm hq
      · rw [Function.update_of_ne he, h.channels]
  · intro fd event
    simp only [hepoll]
    by_cases he : fd = c.fd
    · subst he
      rw [Function.update_self]
      constructor
      · intro hc
        split at hc
        · rename_i hadded
          exact ⟨p, by rw [hself], by rw [hself]; exact hadded, by rw [hself]; exact (Option.some.inj hc).symm⟩
        · cases hc
      · rintro ⟨q, hq1, hq2, rfl⟩
        have hq : q = p := by
          by_contra hne
          rw [hother q hne] at hq1
          exact hapart q hne hq1
        subst hq
        rw [hself] at hq2 ⊢
        rw [if_pos hq2]
    · rw [Function.update_of_ne he, h.epoll]
      refine exists_congr fun q => ?_
      by_cases hq : q = p
      · subst hq
        rw [hself, ← hfd]
        exact ⟨fun hc => absurd hc.1.symm he, fun hc => absurd hc.1.symm he⟩
      · rw [hother q hq]

end Mirrors

/-! ### What each call does -/

/-- The index after `updateChannel`: a channel in the epoll set that lost its last interest is deleted,
every other one is in the epoll set. -/
def indexAfter (index : Int) (events : Mask) : Int :=
  if index = kAdded ∧ events = Channel.kNoneEvent then kDeleted else kAdded

/-- The channel after an interest call. -/
def afterInterest (call : InterestCall) (c : Channel) : Channel :=
  { c with events := call.mask c.events, index := indexAfter c.index (call.mask c.events) }

/-- An interest call succeeds and keeps the agreement; it changes the one channel. -/
theorem setInterest_spec (h : r.Mirrors) (call : InterestCall) (p : P) :
    ∃ r', r.setInterest call p = .ok r' ∧ r'.Mirrors ∧
      r'.channel = Function.update r.channel p (afterInterest call (r.channel p)) := by
  have hchannels := h.channels_self p
  have hepoll := h.epoll_self p
  -- in each case: the poller's answer, and the two tables at the channel's descriptor
  suffices hpoller : ∃ poller,
      r.poller.updateChannel p { r.channel p with events := call.mask (r.channel p).events } =
        .ok (poller, afterInterest call (r.channel p)) ∧
      poller.channels = Function.update r.poller.channels (r.channel p).fd
        (if (afterInterest call (r.channel p)).index = kNew then none else some p) ∧
      poller.epoll = Function.update r.poller.epoll (r.channel p).fd
        (if (afterInterest call (r.channel p)).index = kAdded then
          some ⟨call.mask (r.channel p).events, p⟩ else none) ∧
      poller.failures = [] by
    obtain ⟨poller, hok, hc, he, hf⟩ := hpoller
    refine ⟨⟨Function.update r.channel p (afterInterest call (r.channel p)), poller⟩, ?_, ?_, rfl⟩
    · rw [setInterest, hok]
      rfl
    · refine h.replace rfl ?_ hc he hf
      unfold afterInterest indexAfter
      split <;> simp
  have hkeep : Function.update r.poller.channels (r.channel p).fd
      (r.poller.channels (r.channel p).fd) = r.poller.channels := Function.update_eq_self ..
  rcases h.index p with hi | hi | hi
  · rw [hi, if_pos rfl] at hchannels
    rw [hi, if_neg (by decide)] at hepoll
    have hafter : afterInterest call (r.channel p) =
        { r.channel p with events := call.mask (r.channel p).events, index := kAdded } := by
      simp [afterInterest, indexAfter, hi, kNew, kAdded]
    rw [hafter]
    exact ⟨_, EPollPoller.updateChannel_new hi hchannels hepoll, rfl, rfl, h.failures⟩
  · rw [hi, if_neg (by decide)] at hchannels
    rw [hi, if_pos rfl] at hepoll
    rw [hchannels] at hkeep
    by_cases hnone : call.mask (r.channel p).events = Channel.kNoneEvent
    · have hafter : afterInterest call (r.channel p) =
          { r.channel p with events := call.mask (r.channel p).events, index := kDeleted } := by
        simp [afterInterest, indexAfter, hi, hnone]
      rw [hafter]
      exact ⟨_, EPollPoller.updateChannel_none hi hepoll hnone, hkeep.symm, rfl, h.failures⟩
    · have hafter : afterInterest call (r.channel p) =
          { r.channel p with events := call.mask (r.channel p).events } := by
        simp [afterInterest, indexAfter, hi, hnone]
      rw [hafter]
      refine ⟨_, EPollPoller.updateChannel_some hi hepoll hnone, ?_, ?_, h.failures⟩
      · simp [hi, kAdded, kNew, hkeep]
      · simp [hi]
  · rw [hi, if_neg (by decide)] at hchannels
    rw [hi, if_neg (by decide)] at hepoll
    rw [hchannels] at hkeep
    have hafter : afterInterest call (r.channel p) =
        { r.channel p with events := call.mask (r.channel p).events, index := kAdded } := by
      simp [afterInterest, indexAfter, hi, kDeleted, kAdded]
    rw [hafter]
    exact ⟨_, EPollPoller.updateChannel_deleted hi hchannels hepoll, hkeep.symm, rfl, h.failures⟩

/-- A removal whose assertions hold: the channel had no interest and was registered. -/
theorem remove_eq_ok (hok : r.remove p = .ok r') :
    (r.channel p).events = Channel.kNoneEvent ∧
      ((r.channel p).index = kAdded ∨ (r.channel p).index = kDeleted) ∧
      r' = ⟨Function.update r.channel p { r.channel p with index := kNew },
        if (r.channel p).index = kAdded then
          EPollPoller.update { r.poller with
            channels := Function.update r.poller.channels (r.channel p).fd none } .del p (r.channel p)
        else { r.poller with channels := Function.update r.poller.channels (r.channel p).fd none }⟩ := by
  by_cases hnone : (r.channel p).isNoneEvent = true
  · by_cases hreg : r.poller.channels (r.channel p).fd = some p
    · by_cases hidx : (r.channel p).index = kAdded ∨ (r.channel p).index = kDeleted
      · simp only [remove, EPollPoller.removeChannel, cassert_of hnone, cassert_of hreg, cassert_of hidx,
          ok_bind] at hok
        exact ⟨by simpa [Channel.isNoneEvent] using hnone, hidx, (Except.ok.inj hok).symm⟩
      · simp [remove, EPollPoller.removeChannel, cassert_of hnone, cassert_of hreg, cassert_of_not hidx] at hok
    · simp [remove, EPollPoller.removeChannel, cassert_of hnone, cassert_of_not hreg] at hok
  · simp [remove, cassert_of_not hnone] at hok

/-- A removal that fails no assertion keeps the agreement; it makes the one channel new again. -/
theorem remove_spec (h : r.Mirrors) (hok : r.remove p = .ok r') :
    (r.channel p).events = Channel.kNoneEvent ∧ r'.Mirrors ∧
      r'.channel = Function.update r.channel p { r.channel p with index := kNew } := by
  obtain ⟨hnone, hidx, hr⟩ := remove_eq_ok hok
  have hepoll := h.epoll_self p
  refine ⟨hnone, ?_, by rw [hr]⟩
  rw [hr]
  refine h.replace rfl (Or.inl rfl) ?_ ?_ ?_
  all_goals
    rcases hidx with hi | hi
    · simp [EPollPoller.update, epollCtl, hepoll, hi, h.failures, kNew, kAdded]
    · have hkeep : Function.update r.poller.epoll (r.channel p).fd none = r.poller.epoll := by
        rw [hi, if_neg (by decide)] at hepoll
        rw [← hepoll, Function.update_eq_self]
      simp [hi, hkeep, h.failures, kNew, kAdded, kDeleted]

/-- The converse of `remove_spec`: the assertions hold on a registered channel without interest. -/
theorem remove_ok (h : r.Mirrors) (hnone : (r.channel p).events = Channel.kNoneEvent)
    (hidx : (r.channel p).index ≠ kNew) : ∃ r', r.remove p = .ok r' := by
  have hchannels := h.channels_self p
  rw [if_neg hidx] at hchannels
  have hreg := (h.index p).resolve_left hidx
  simp [remove, EPollPoller.removeChannel, cassert, Channel.isNoneEvent, hnone, hchannels, hreg, pure,
    Except.pure, bind, Except.bind]

/-! ### What a poll does -/

theorem mem_of_mapM_eq_some {α β : Type*} {f : α → Option β} {xs : List α} {ys : List β}
    (h : xs.mapM f = some ys) {y : β} (hy : y ∈ ys) : ∃ x ∈ xs, f x = some y := by
  induction xs generalizing ys with
  | nil =>
    obtain rfl : ys = [] := by simpa [eq_comm] using h
    cases hy
  | cons x xs ih =>
    rw [List.mapM_cons] at h
    obtain ⟨z, hz, h⟩ := Option.bind_eq_some_iff.mp h
    obtain ⟨zs, hzs, h⟩ := Option.bind_eq_some_iff.mp h
    obtain rfl := Option.some.inj h
    rcases List.mem_cons.mp hy with rfl | hy
    · exact ⟨x, List.mem_cons_self, hz⟩
    · obtain ⟨w, hw, hwy⟩ := ih hzs hy
      exact ⟨w, List.mem_cons_of_mem _ hw, hwy⟩

omit [DecidableEq P] in
/-- Every entry of a report carries the pointer registered for a descriptor in the kernel's table. -/
theorem epollWait_ptr {poller : EPollPoller P} {ready : List (Int × Mask)} {events : List (EpollEvent P)}
    (h : epollWait poller ready = some events) {e : EpollEvent P} (he : e ∈ events) :
    ∃ fd event, poller.epoll fd = some event ∧ event.ptr = e.ptr := by
  rw [epollWait, Option.ite_none_right_eq_some] at h
  obtain ⟨⟨fd, revents⟩, -, hentry⟩ := mem_of_mapM_eq_some h.2 he
  obtain ⟨event, hevent, hentry⟩ := Option.bind_eq_some_iff.mp hentry
  rw [Option.ite_none_right_eq_some] at hentry
  obtain rfl := Option.some.inj hentry.2
  exact ⟨fd, event, hevent, rfl⟩

theorem fillActiveChannels_active (channel : P → Channel) (events : List (EpollEvent P)) :
    (fillActiveChannels channel events).2 = events.map (·.ptr) := by
  induction events generalizing channel with
  | nil => rfl
  | cons e events ih => simp [fillActiveChannels, ih]

/-- `fillActiveChannels` writes nothing but `revents_`. -/
theorem fillActiveChannels_channel (channel : P → Channel) (events : List (EpollEvent P)) (q : P) :
    ∃ revents, (fillActiveChannels channel events).1 q = { channel q with revents } := by
  induction events generalizing channel with
  | nil => exact ⟨_, rfl⟩
  | cons e events ih =>
    obtain ⟨revents, h⟩ :=
      ih (Function.update channel e.ptr { channel e.ptr with revents := e.events })
    refine ⟨revents, h.trans ?_⟩
    by_cases hq : q = e.ptr
    · subst hq; simp
    · simp [Function.update_of_ne hq]

/-- A poll leaves the tables and everything but `revents_` in the channels; the channels it returns are
those of descriptors in the epoll set. -/
theorem poll_spec {ready : List (Int × Mask)} {activeChannels : List P}
    (h : r.poll ready = some (r', activeChannels)) :
    (∀ q, ∃ revents, r'.channel q = { r.channel q with revents }) ∧
      r'.poller.channels = r.poller.channels ∧ r'.poller.epoll = r.poller.epoll ∧
      r'.poller.failures = r.poller.failures ∧
      ∀ q ∈ activeChannels, ∃ fd event, r.poller.epoll fd = some event ∧ event.ptr = q := by
  obtain ⟨events, hwait, h⟩ := Option.bind_eq_some_iff.mp h
  obtain ⟨rfl, rfl⟩ := Prod.mk.inj (Option.some.inj h)
  refine ⟨fillActiveChannels_channel r.channel events, rfl, rfl, rfl, fun q hq => ?_⟩
  rw [fillActiveChannels_active, List.mem_map] at hq
  obtain ⟨e, he, rfl⟩ := hq
  exact epollWait_ptr hwait he

/-- A poll that reports one descriptor. -/
theorem poll_singleton {fd : Int} {revents : Mask} {activeChannels : List P}
    (h : r.poll [(fd, revents)] = some (r', activeChannels)) :
    ∃ p, activeChannels = [p] ∧
      r'.channel = Function.update r.channel p { r.channel p with revents } := by
  obtain ⟨events, hwait, h⟩ := Option.bind_eq_some_iff.mp h
  obtain ⟨rfl, rfl⟩ := Prod.mk.inj (Option.some.inj h)
  rw [epollWait, Option.ite_none_right_eq_some, List.mapM_cons] at hwait
  obtain ⟨e, he, hwait⟩ := Option.bind_eq_some_iff.mp hwait.2
  obtain rfl := Option.some.inj hwait
  obtain ⟨event, -, hevent⟩ := Option.bind_eq_some_iff.mp he
  rw [Option.ite_none_right_eq_some] at hevent
  obtain rfl := Option.some.inj hevent.2
  exact ⟨event.ptr, rfl, rfl⟩

theorem Mirrors.poll (h : r.Mirrors) {ready : List (Int × Mask)} {activeChannels : List P}
    (hpoll : r.poll ready = some (r', activeChannels)) : r'.Mirrors := by
  obtain ⟨hchannel, hchannels, hepoll, hfailures, -⟩ := poll_spec hpoll
  have hfd : ∀ q, (r'.channel q).fd = (r.channel q).fd := fun q => by
    obtain ⟨revents, hq⟩ := hchannel q
    rw [hq]
  have hindex : ∀ q, (r'.channel q).index = (r.channel q).index := fun q => by
    obtain ⟨revents, hq⟩ := hchannel q
    rw [hq]
  have hevents : ∀ q, (r'.channel q).events = (r.channel q).events := fun q => by
    obtain ⟨revents, hq⟩ := hchannel q
    rw [hq]
  constructor
  · simpa only [hfd] using h.distinct
  · simpa only [hindex] using h.index
  · simpa only [hfd, hindex, hchannels] using h.channels
  · simpa only [hfd, hindex, hevents, hepoll] using h.epoll
  · rw [hfailures, h.failures]

/-- A polled channel is in the epoll set. -/
theorem Mirrors.index_of_polled (h : r.Mirrors) {ready : List (Int × Mask)} {activeChannels : List P}
    (hpoll : r.poll ready = some (r', activeChannels)) (hp : p ∈ activeChannels) :
    (r.channel p).index = kAdded := by
  obtain ⟨-, -, -, -, hactive⟩ := poll_spec hpoll
  obtain ⟨fd, event, hevent, rfl⟩ := hactive p hp
  obtain ⟨q, -, hidx, rfl⟩ := (h.epoll fd event).mp hevent
  exact hidx

/-! ### Every run of a loop's channels -/

/-- What happens to the channels of a loop. -/
inductive Label (P : Type*) where
  | interest (call : InterestCall) (channel : P)
  | remove (channel : P)
  | poll (ready : List (Int × Mask))

def step (r : Registry P) : Label P → Option (Except Assertion (Registry P))
  | .interest call p => some (r.setInterest call p)
  | .remove p => some (r.remove p)
  | .poll ready => (r.poll ready).map fun polled => .ok polled.1

/-- The channels and the poller of a loop, until an assertion fails. -/
def channels (P : Type*) [DecidableEq P] : Machine (Except Assertion (Registry P)) (Label P) :=
  .ofExcept step

/-- Every channel that the next poll may return is in `channels_`. -/
def PollsRegistered (r : Registry P) : Prop :=
  ∀ ready r' activeChannels, r.poll ready = some (r', activeChannels) →
    ∀ p ∈ activeChannels, r.poller.channels (r.channel p).fd = some p

theorem Mirrors.pollsRegistered (h : r.Mirrors) : r.PollsRegistered := by
  intro ready r' activeChannels hpoll p hp
  have hidx := h.index_of_polled hpoll hp
  rw [h.channels_self, if_neg (by rw [hidx]; decide)]

theorem Mirrors.step {a : Label P} (h : r.Mirrors) (hstep : r.step a = some (.ok r')) : r'.Mirrors := by
  cases a with
  | interest call p =>
    obtain ⟨t, hok, ht, -⟩ := setInterest_spec h call p
    obtain rfl : t = r' := Except.ok.inj (hok.symm.trans (Option.some.inj hstep))
    exact ht
  | remove p => exact (remove_spec h (Option.some.inj hstep)).2.1
  | poll ready =>
    obtain ⟨⟨t, activeChannels⟩, hpoll, ht⟩ := Option.map_eq_some_iff.mp hstep
    obtain rfl := Except.ok.inj ht
    exact h.poll hpoll

/-- **The kernel's interest set mirrors the poller**: from new channels with distinct descriptors, the
three copies agree after every call of every run whose assertions hold, and every channel a poll may
return is in `channels_`. -/
theorem channels_mirror (fd : P ↪ Int) (as : List (Label P)) :
    (channels P).Always (Machine.HoldsIfOk fun r => r.Mirrors ∧ r.PollsRegistered)
      (.ok (new fd)) as := by
  refine (Machine.ofExcept_always_holdsIfOk (new_mirrors fd.injective) ?_).mono ?_
  · exact fun r a t h hstep => h.step hstep
  · intro u hu
    cases u with
    | error e => trivial
    | ok r => exact ⟨hu, Mirrors.pollsRegistered hu⟩

/-! ### Channels without interest -/

/-- A channel's descriptor is in the epoll set exactly when its mask is not empty, and no poll returns a
channel whose mask is empty. -/
structure ArmedIffInterested (r : Registry P) : Prop where
  armed : ∀ p, (r.poller.epoll (r.channel p).fd).isSome ↔ (r.channel p).events ≠ Channel.kNoneEvent
  quiet : ∀ ready r' activeChannels, r.poll ready = some (r', activeChannels) →
    ∀ p ∈ activeChannels, (r.channel p).events ≠ Channel.kNoneEvent

/-- An interest call leaves some interest, or finds the channel in the epoll set. -/
def LeavesInterestOrAdded (r : Registry P) : Label P → Prop
  | .interest call p =>
    call.mask (r.channel p).events = Channel.kNoneEvent → (r.channel p).index = kAdded
  | .remove _ => True
  | .poll _ => True

/-- The copies agree, and the channels with index `kAdded` are those with some interest. -/
structure AddedIffInterested (r : Registry P) : Prop where
  mirrors : r.Mirrors
  added : ∀ p, (r.channel p).index = kAdded ↔ (r.channel p).events ≠ Channel.kNoneEvent

theorem AddedIffInterested.armed (h : r.AddedIffInterested) : r.ArmedIffInterested where
  armed p := by
    rw [h.mirrors.epoll_self, ← h.added p]
    split <;> simp [*]
  quiet ready r' activeChannels hpoll p hp := (h.added p).mp (h.mirrors.index_of_polled hpoll hp)

omit [DecidableEq P] in
theorem new_addedIffInterested (fd : P ↪ Int) : (new fd).AddedIffInterested where
  mirrors := new_mirrors fd.injective
  added p := by simp [new, Channel.new, kNew, kAdded, Channel.kNoneEvent]

theorem AddedIffInterested.step {a : Label P} (h : r.AddedIffInterested) (ha : r.LeavesInterestOrAdded a)
    (hstep : r.step a = some (.ok r')) : r'.AddedIffInterested := by
  refine ⟨h.mirrors.step hstep, fun q => ?_⟩
  cases a with
  | interest call p =>
    obtain ⟨t, hok, -, hchannel⟩ := setInterest_spec h.mirrors call p
    obtain rfl : t = r' := Except.ok.inj (hok.symm.trans (Option.some.inj hstep))
    rw [hchannel]
    by_cases hq : q = p
    · subst hq
      rw [Function.update_self]
      by_cases hnone : call.mask (r.channel q).events = Channel.kNoneEvent
      · simp [afterInterest, indexAfter, hnone, ha hnone, kDeleted, kAdded]
      · simp [afterInterest, indexAfter, hnone]
    · rw [Function.update_of_ne hq]
      exact h.added q
  | remove p =>
    obtain ⟨hnone, -, hchannel⟩ := remove_spec h.mirrors (Option.some.inj hstep)
    rw [hchannel]
    by_cases hq : q = p
    · subst hq
      simp [hnone, kNew, kAdded]
    · rw [Function.update_of_ne hq]
      exact h.added q
  | poll ready =>
    obtain ⟨⟨t, activeChannels⟩, hpoll, ht⟩ := Option.map_eq_some_iff.mp hstep
    obtain rfl := Except.ok.inj ht
    obtain ⟨revents, hq⟩ := (poll_spec hpoll).1 q
    rw [hq]
    exact h.added q

/-- An interest call that empties the mask of a channel outside the epoll set adds it there. -/
theorem AddedIffInterested.not_armed_of_adds {a : Label P} (h : r.AddedIffInterested)
    (ha : ¬ r.LeavesInterestOrAdded a) (hstep : r.step a = some (.ok r')) : ¬ r'.ArmedIffInterested := by
  cases a with
  | remove p => exact absurd trivial ha
  | poll ready => exact absurd trivial ha
  | interest call p =>
    obtain ⟨hnone, hidx⟩ := Classical.not_imp.mp ha
    obtain ⟨t, hok, ht, hchannel⟩ := setInterest_spec h.mirrors call p
    obtain rfl : t = r' := Except.ok.inj (hok.symm.trans (Option.some.inj hstep))
    intro harmed
    have hself : t.channel p = afterInterest call (r.channel p) := by rw [hchannel, Function.update_self]
    have hevents : (t.channel p).events = Channel.kNoneEvent := by rw [hself]; exact hnone
    refine (harmed.armed p).mp ?_ hevents
    rw [ht.epoll_self, if_pos]
    · rfl
    · rw [hself]
      simp [afterInterest, indexAfter, hidx]

/-- **Interest and the epoll set**: in the runs of any number of channels, in every state reached a
channel's descriptor is in the epoll set exactly while its mask is not empty, if and only if every
interest call of the run leaves some interest or finds the channel in the epoll set. -/
theorem armed_iff_interested (fd : P ↪ Int) (as : List (Label P)) :
    (channels P).Always (Machine.HoldsIfOk ArmedIffInterested) (.ok (new fd)) as ↔
      (channels P).Meets (Machine.AtOk LeavesInterestOrAdded) (.ok (new fd)) as := by
  refine Machine.ofExcept_always_iff_meets (I := AddedIffInterested) (fun _ h => h.armed)
    (fun _ _ _ h ha hstep => h.step ha hstep) (fun _ _ _ h ha hstep => h.not_armed_of_adds ha hstep)
    ?_ (new_addedIffInterested fd)
  intro r a e h ha
  cases a with
  | remove p => exact absurd trivial ha
  | poll ready => exact absurd trivial ha
  | interest call p =>
    obtain ⟨t, hok, -⟩ := setInterest_spec h.mirrors call p
    simp [step, hok]

/-- Two disables in a row: the second adds the descriptor with an empty mask. -/
theorem disabled_channel_armed :
    ¬ ∀ as, (channels Unit).Always (Machine.HoldsIfOk ArmedIffInterested) (.ok (new fun _ => 5)) as := by
  intro h
  have hlast := (h [.interest .enableReading (), .interest .disableReading (),
    .interest .disableReading ()]).last rfl
  exact absurd (hlast.armed ()) (by decide)

end Registry

/-! ### Registries that agree -/

/-- A registry whose copies agree. Its interest calls do not fail. -/
structure MirroredRegistry (P : Type*) where
  registry : Registry P
  mirrors : registry.Mirrors

namespace MirroredRegistry

open Channel (InterestCall)

variable {P : Type*}

def new (fd : P ↪ Int) : MirroredRegistry P := ⟨Registry.new fd, Registry.new_mirrors fd.injective⟩

def channel (r : MirroredRegistry P) (p : P) : Channel := r.registry.channel p

variable [DecidableEq P]

theorem setInterest_ok (r : MirroredRegistry P) (call : InterestCall) (p : P) :
    ∃ r', r.registry.setInterest call p = .ok r' :=
  let ⟨r', hok, _⟩ := Registry.setInterest_spec r.mirrors call p
  ⟨r', hok⟩

def setInterest (r : MirroredRegistry P) (call : InterestCall) (p : P) : MirroredRegistry P where
  registry := okValue (r.registry.setInterest call p) (r.setInterest_ok call p)
  mirrors := by
    obtain ⟨r', hok, hr', -⟩ := Registry.setInterest_spec r.mirrors call p
    rwa [okValue_eq hok]

theorem channel_setInterest (r : MirroredRegistry P) (call : InterestCall) (p : P) :
    (r.setInterest call p).channel =
      Function.update r.channel p (Registry.afterInterest call (r.channel p)) := by
  obtain ⟨r', hok, -, hchannel⟩ := Registry.setInterest_spec r.mirrors call p
  show (okValue (r.registry.setInterest call p) (r.setInterest_ok call p)).channel = _
  rw [okValue_eq hok, hchannel]
  rfl

/-- `poll` -/
def poll (r : MirroredRegistry P) (ready : List (Int × Mask)) : Option (MirroredRegistry P × List P) :=
  match h : r.registry.poll ready with
  | some (registry, activeChannels) => some (⟨registry, r.mirrors.poll h⟩, activeChannels)
  | none => none

/-- A poll that reports one descriptor: its channel is in the epoll set, and gets its `revents_`. -/
theorem poll_singleton {r r' : MirroredRegistry P} {fd : Int} {revents : Mask} {activeChannels : List P}
    (h : r.poll [(fd, revents)] = some (r', activeChannels)) :
    ∃ p, activeChannels = [p] ∧ (r.channel p).index = kAdded ∧
      r'.channel = Function.update r.channel p { r.channel p with revents } := by
  unfold poll at h
  split at h
  · rename_i registry active hpoll
    obtain ⟨rfl, rfl⟩ := Prod.mk.inj (Option.some.inj h)
    obtain ⟨p, rfl, hchannel⟩ := Registry.poll_singleton hpoll
    exact ⟨p, rfl, r.mirrors.index_of_polled hpoll List.mem_cons_self, hchannel⟩
  · cases h

/-- `Channel::remove()` -/
def remove (r : MirroredRegistry P) (p : P) : Except EPollPoller.Assertion (MirroredRegistry P) :=
  match h : r.registry.remove p with
  | .ok registry => .ok ⟨registry, (Registry.remove_spec r.mirrors h).2.1⟩
  | .error a => .error a

/-- `Poller::hasChannel` -/
def hasChannel (r : MirroredRegistry P) (p : P) : Bool :=
  r.registry.poller.channels (r.channel p).fd == some p

theorem hasChannel_of_new {r : MirroredRegistry P} {p : P} (h : (r.channel p).index = kNew) :
    r.hasChannel p = false := by
  have hchannels : r.registry.poller.channels (r.channel p).fd = none :=
    (r.mirrors.channels_self p).trans (if_pos h)
  simp [hasChannel, hchannels]

theorem hasChannel_iff {r : MirroredRegistry P} {p : P} :
    r.hasChannel p = true ↔ (r.channel p).index ≠ kNew := by
  have hchannels : r.registry.poller.channels (r.channel p).fd =
      if (r.channel p).index = kNew then none else some p :=
    r.mirrors.channels_self p
  unfold hasChannel
  rw [hchannels]
  split
  · simp_all
  · simp_all

/-- An interest call registers its channel. -/
theorem hasChannel_setInterest (r : MirroredRegistry P) (call : InterestCall) (p : P) :
    (r.setInterest call p).hasChannel p = true := by
  rw [hasChannel_iff, channel_setInterest, Function.update_self]
  show Registry.indexAfter _ _ ≠ kNew
  unfold Registry.indexAfter
  split <;> decide

/-- A channel that is polled is registered, and stays so. -/
theorem hasChannel_of_poll {r r' : MirroredRegistry Unit} {fd : Int} {revents : Mask}
    {activeChannels : List Unit} (h : r.poll [(fd, revents)] = some (r', activeChannels)) :
    r.hasChannel () = true ∧ r'.hasChannel () = true := by
  obtain ⟨⟨⟩, -, hadded, hchannel⟩ := poll_singleton h
  have hindex : (r.channel ()).index ≠ kNew := fun hnew => by cases hadded.symm.trans hnew
  refine ⟨hasChannel_iff.mpr hindex, hasChannel_iff.mpr ?_⟩
  rw [hchannel, Function.update_self]
  exact hindex

/-- A removal that fails no assertion: the channel was registered and without interest, and is new again. -/
theorem remove_spec {r r' : MirroredRegistry P} {p : P} (hok : r.remove p = .ok r') :
    (r.channel p).index ≠ kNew ∧ (r.channel p).events = Channel.kNoneEvent ∧
      r'.channel p = { r.channel p with index := kNew } := by
  unfold remove at hok
  split at hok
  · rename_i registry h
    obtain ⟨hnone, hindex, -⟩ := Registry.remove_eq_ok h
    obtain ⟨-, -, hchannel⟩ := Registry.remove_spec r.mirrors h
    obtain rfl := Except.ok.inj hok
    refine ⟨?_, hnone, ?_⟩
    · rcases hindex with hi | hi <;> simp [channel, hi, kNew, kAdded, kDeleted]
    · show registry.channel p = _
      rw [hchannel, Function.update_self]
      rfl
  · cases hok

/-- The removal of a registered channel without interest fails no assertion. -/
theorem remove_ok {r : MirroredRegistry P} {p : P} (hnone : (r.channel p).events = Channel.kNoneEvent)
    (hindex : (r.channel p).index ≠ kNew) : ∃ r', r.remove p = .ok r' := by
  obtain ⟨registry, hok⟩ := Registry.remove_ok r.mirrors hnone hindex
  unfold remove
  split
  · exact ⟨_, rfl⟩
  · rename_i a hfail
    cases hfail.symm.trans hok

/-- `disableAll` followed by `remove` fails no assertion; the channel is new again. -/
theorem remove_disableAll (r : MirroredRegistry P) (p : P) :
    ∃ r', (r.setInterest .disableAll p).remove p = .ok r' ∧ (r'.channel p).index = kNew ∧
      (r'.channel p).fd = (r.channel p).fd := by
  have hchannel : (r.setInterest .disableAll p).channel p =
      Registry.afterInterest .disableAll (r.channel p) := by
    rw [channel_setInterest, Function.update_self]
  have hindex : ((r.setInterest .disableAll p).channel p).index ≠ kNew :=
    hasChannel_iff.mp (hasChannel_setInterest r .disableAll p)
  obtain ⟨r', hok⟩ := remove_ok (by rw [hchannel]; rfl) hindex
  obtain ⟨-, -, hremoved⟩ := remove_spec hok
  refine ⟨r', hok, ?_, ?_⟩
  · rw [hremoved]
  · rw [hremoved, hchannel]
    rfl

end MirroredRegistry

end Siren
