import Siren.Net.BufferQueue

/-!
# The storage of a `Buffer`

`makeSpace` grows the storage to `writerIndex + len` and so carries along what was consumed in front of
`readerIndex`. It does so only where the free space at both ends is too small for the request, so that what is
carried along is smaller than the request and the prependable bytes. `Grows load b b'` is what follows for one
operation.

* `storage_bounded`: over any sequence of operations whose assertions are met, the storage never shrinks, and
  never exceeds the initial one or twice the largest load that a growth request met, whichever is larger.
-/

namespace Siren.Buffer

open Window

/-- `hasWritten` may come without the bytes that `Op.write` puts there. -/
inductive StorageCall where
  | op (op : Op)
  | hasWritten (len : Nat)

/-- What the operations assert of their arguments. -/
def StorageCall.Asserted (b : Buffer) : StorageCall → Prop
  | .op (.prepend data) => data.length ≤ b.prependableBytes
  | .op (.write data) => data.length ≤ b.writableBytes
  | .op (.retrieveAsString len) => len ≤ b.readableBytes
  | .hasWritten len => len ≤ b.writableBytes
  | _ => True

instance (b : Buffer) : (call : StorageCall) → Decidable (call.Asserted b)
  | .op (.prepend data) => Nat.decLe data.length b.prependableBytes
  | .op (.write data) => Nat.decLe data.length b.writableBytes
  | .op (.retrieveAsString len) => Nat.decLe len b.readableBytes
  | .hasWritten len => Nat.decLe len b.writableBytes
  | .op (.append _) => .isTrue trivial
  | .op (.ensureWritableBytes _) => .isTrue trivial
  | .op (.retrieve _) => .isTrue trivial
  | .op .retrieveAll => .isTrue trivial
  | .op (.readFd _) => .isTrue trivial

def execStorage (b : Buffer) : StorageCall → Except Assertion Buffer
  | .op op => (·.1) <$> b.exec op
  | .hasWritten len => b.hasWritten len

/-- The readable bytes and the request that a growth request brings together, when it led from `b` to `b'`. -/
def load (b b' : Buffer) : StorageCall → Nat
  | .op (.append data) => b.readableBytes + data.length
  | .op (.ensureWritableBytes len) => b.readableBytes + len
  | .op (.readFd _) => b'.readableBytes
  | _ => 0

/-! ### Growth of one operation -/

/-- The storage did not shrink, and if it grew, then to at most twice the load and the prependable bytes. -/
def Grows (load : Nat) (b b' : Buffer) : Prop :=
  b.buffer.length ≤ b'.buffer.length ∧ b'.buffer.length ≤ max b.buffer.length (2 * load + kCheapPrepend)

variable {b b' : Buffer} {data : List Byte} {len : Nat}

theorem Grows.of_length (load : Nat) (h : b'.buffer.length = b.buffer.length) : Grows load b b' :=
  ⟨h.ge, h.le.trans (le_max_left _ _)⟩

theorem retrieve_buffer (b : Buffer) (len : Int) : (b.retrieve len).buffer = b.buffer := by
  unfold retrieve
  split <;> rfl

theorem hasWritten_ok (hok : b.hasWritten len = .ok b') :
    len ≤ b.writableBytes ∧ b' = { b with writerIndex := b.writerIndex + len } := by
  obtain ⟨hlen, hok⟩ := of_cassert_bind hok
  exact ⟨hlen, (Except.ok.inj hok).symm⟩

theorem prepend_length (h : b.Wf) (hok : b.prepend data = .ok b') : b'.buffer.length = b.buffer.length := by
  obtain ⟨hlen, hok⟩ := of_cassert_bind hok
  obtain rfl := Except.ok.inj hok
  have := h.reader_le
  have := h.writer_le
  rw [prependableBytes] at hlen
  exact length_store (show b.readerIndex - data.length + data.length ≤ b.buffer.length by omega)

/-- What growing carries along in front of `readerIndex` is smaller than the request and the prependable bytes, or
there would be room without growing. -/
theorem makeSpace_grows (h : b.Wf) (hlack : b.writableBytes < len) (hok : b.makeSpace len = .ok b') :
    Grows (b.readableBytes + len) b b' := by
  have hr := h.reader_le
  have hw := h.writer_le
  unfold makeSpace at hok
  split at hok
  · rename_i hspace
    obtain rfl := Except.ok.inj hok
    have hlength : (resize b.buffer (b.writerIndex + len) 0).length = b.writerIndex + len := length_resize 0
    rw [writableBytes] at hlack
    rw [writableBytes, prependableBytes] at hspace
    have hconsumed : b.readerIndex < len + kCheapPrepend := by omega
    refine ⟨?_, ?_⟩
    · show b.buffer.length ≤ (resize b.buffer (b.writerIndex + len) 0).length
      omega
    · refine le_trans ?_ (le_max_right _ _)
      show (resize b.buffer (b.writerIndex + len) 0).length ≤ 2 * (b.readableBytes + len) + kCheapPrepend
      rw [hlength, readableBytes]
      omega
  · rename_i hspace
    obtain ⟨hreader, hok⟩ := of_cassert_bind hok
    obtain ⟨-, hok⟩ := of_cassert_bind hok
    obtain rfl := Except.ok.inj hok
    refine .of_length _ (length_store ?_)
    rw [length_window hw]
    omega

theorem ensureWritableBytes_grows (h : b.Wf) (hok : b.ensureWritableBytes len = .ok b') :
    Grows (b.readableBytes + len) b b' := by
  simp only [ensureWritableBytes] at hok
  split at hok
  · rename_i hlack
    obtain ⟨b₁, hspace, hok⟩ := of_bind_ok hok
    obtain ⟨-, hok⟩ := of_cassert_bind hok
    obtain rfl := Except.ok.inj hok
    exact makeSpace_grows h hlack hspace
  · obtain ⟨-, hok⟩ := of_cassert_bind hok
    obtain rfl := Except.ok.inj hok
    exact .of_length _ rfl

/-- The bytes that `append` writes lie in the storage that `ensureWritableBytes` left. -/
theorem append_grows (h : b.Wf) (hok : b.append data = .ok b') : Grows (b.readableBytes + data.length) b b' := by
  obtain ⟨b₁, hensure, hok⟩ := of_bind_ok hok
  obtain ⟨b₂, hensure₂, hwf, -, hroom⟩ := ensureWritableBytes_spec h data.length
  obtain rfl := Except.ok.inj (hensure.symm.trans hensure₂)
  obtain ⟨-, rfl⟩ := hasWritten_ok hok
  have hgrows := ensureWritableBytes_grows h hensure
  unfold Grows
  show b.buffer.length ≤ (b₁.copyToWrite data).buffer.length ∧ (b₁.copyToWrite data).buffer.length ≤ _
  rw [(hwf.copyToWrite hroom).2]
  exact hgrows

/-- What did not fit goes through `append`, with a buffer that is full by then. -/
theorem readFd_grows (h : b.Wf) {result : ReadResult} {n : Int} (hok : b.readFd result = .ok (b', n)) :
    Grows b'.readableBytes b b' := by
  cases result with
  | failed =>
    obtain ⟨rfl, -⟩ := Prod.mk.inj (Except.ok.inj hok)
    exact .of_length _ rfl
  | read bytes =>
    have hlen : (bytes.take b.writableBytes).length ≤ b.writableBytes := List.length_take_le _ _
    obtain ⟨hwf, hlength⟩ := h.copyToWrite hlen
    simp only [readFd] at hok
    split at hok
    · obtain ⟨rfl, -⟩ := Prod.mk.inj (Except.ok.inj hok)
      exact .of_length _ hlength
    · obtain ⟨b₁, happend, hok⟩ := of_bind_ok hok
      obtain ⟨rfl, -⟩ := Prod.mk.inj (Except.ok.inj hok)
      have hfull : Wf { b.copyToWrite (bytes.take b.writableBytes) with
          writerIndex := (b.copyToWrite (bytes.take b.writableBytes)).buffer.length } :=
        ⟨(hlength ▸ h.reader_le.trans h.writer_le : b.readerIndex ≤ _), le_rfl, hwf.cheap_le⟩
      obtain ⟨b₂, happend₂, hwf₂, hcontent⟩ := append_spec hfull (bytes.drop b.writableBytes)
      obtain rfl := Except.ok.inj (happend.symm.trans happend₂)
      have hgrows := append_grows hfull happend
      rw [← hfull.length_content, ← List.length_append, ← hcontent, hwf₂.length_content] at hgrows
      unfold Grows at hgrows ⊢
      rw [← hlength]
      exact hgrows

/-! ### Every operation -/

/-- With its assertion met an operation succeeds, and the storage grows at most with the load. -/
theorem execStorage_spec (h : b.Wf) (call : StorageCall) (hcall : call.Asserted b) :
    ∃ b', b.execStorage call = .ok b' ∧ b'.Wf ∧ Grows (load b b' call) b b' := by
  cases call with
  | hasWritten len =>
    have hroom : len ≤ b.writableBytes := hcall
    refine ⟨{ b with writerIndex := b.writerIndex + len }, ?_, ⟨?_, ?_, h.cheap_le⟩, .of_length _ rfl⟩
    · show b.hasWritten len = _
      rw [hasWritten, cassert_of hroom]
      rfl
    · exact h.reader_le.trans (Nat.le_add_right _ _)
    · have := h.writer_le
      rw [writableBytes] at hroom
      show b.writerIndex + len ≤ b.buffer.length
      omega
  | op op =>
    cases op with
    | append data =>
      obtain ⟨b', hok, hwf, -⟩ := append_spec h data
      exact ⟨b', by rw [execStorage, exec, hok]; rfl, hwf, append_grows h hok⟩
    | prepend data =>
      obtain ⟨b', hok, hwf, -⟩ := prepend_spec h hcall
      exact ⟨b', by rw [execStorage, exec, hok]; rfl, hwf, .of_length _ (prepend_length h hok)⟩
    | ensureWritableBytes len =>
      obtain ⟨b', hok, hwf, -⟩ := ensureWritableBytes_spec h len
      exact ⟨b', by rw [execStorage, exec, hok]; rfl, hwf, ensureWritableBytes_grows h hok⟩
    | write data =>
      obtain ⟨b', hok, hwf, -⟩ := hasWritten_spec h hcall
      obtain ⟨-, rfl⟩ := hasWritten_ok hok
      exact ⟨_, by rw [execStorage, exec, hok]; rfl, hwf, .of_length _ (h.copyToWrite hcall).2⟩
    | retrieve len =>
      exact ⟨b.retrieve len, rfl, (retrieve_spec h len).1,
        .of_length _ (congrArg List.length (retrieve_buffer b len))⟩
    | retrieveAsString len =>
      have hreadable : len ≤ b.readableBytes := hcall
      refine ⟨b.retrieve (toInt len), ?_, (retrieve_spec h _).1,
        .of_length _ (congrArg List.length (retrieve_buffer b _))⟩
      show (·.1) <$> ((fun r => (r.2, Result.string r.1)) <$> b.retrieveAsString len) = _
      rw [retrieveAsString, cassert_of hreadable]
      rfl
    | retrieveAll => exact ⟨b.retrieveAll, rfl, h.retrieveAll, .of_length _ rfl⟩
    | readFd result =>
      cases result with
      | failed => exact ⟨b, rfl, h, .of_length _ rfl⟩
      | read bytes =>
        obtain ⟨b', hok, hwf, -⟩ := readFd_read_spec h bytes
        exact ⟨b', by rw [execStorage, exec, hok]; rfl, hwf, readFd_grows h hok⟩

/-! ### Every sequence -/

/-- A buffer and its history: the largest load of its growth requests. -/
structure Loaded where
  buffer : Buffer
  peak : Nat

/-- An operation; it is called with its assertion met. -/
def Loaded.step (s : Loaded) (call : StorageCall) : Option (Except Assertion Loaded) :=
  if call.Asserted s.buffer then
    some ((s.buffer.execStorage call).map fun b => ⟨b, max s.peak (load s.buffer b call)⟩)
  else none

def storages : Machine (Except Assertion Loaded) StorageCall := .ofExcept Loaded.step

/-- The storage against the load so far. -/
structure Bounded (initialSize : Nat) (s : Loaded) : Prop where
  wf : s.buffer.Wf
  length_le : s.buffer.buffer.length ≤ max (kCheapPrepend + initialSize) (2 * s.peak + kCheapPrepend)

theorem bounded_fresh (initialSize : Nat) : Bounded initialSize ⟨fresh initialSize, 0⟩ where
  wf := fresh_wf initialSize
  length_le := by
    refine le_trans (le_of_eq ?_) (le_max_left _ _)
    exact List.length_replicate

/-- An operation succeeds, keeps the bound and does not shrink the storage. -/
theorem Bounded.step {initialSize : Nat} {s : Loaded} {call : StorageCall} {r : Except Assertion Loaded}
    (h : Bounded initialSize s) (hstep : s.step call = some r) :
    ∃ t, r = .ok t ∧ Bounded initialSize t ∧ s.buffer.buffer.length ≤ t.buffer.buffer.length := by
  obtain ⟨hcall, rfl⟩ := Machine.of_ite_eq_some hstep
  obtain ⟨b, hok, hwf, hle, hgrows⟩ := execStorage_spec h.wf call hcall
  refine ⟨⟨b, max s.peak (load s.buffer b call)⟩, by rw [hok]; rfl, ⟨hwf, ?_⟩, hle⟩
  have hlength := h.length_le
  show b.buffer.length ≤ max (kCheapPrepend + initialSize)
    (2 * max s.peak (load s.buffer b call) + kCheapPrepend)
  omega

/-- **The storage stays in proportion to the load**: from a fresh buffer of any size, in any sequence of
operations called with their assertions met, none fails; the storage never exceeds the initial one or twice the
peak of readable and requested bytes, with the prependable bytes; and no further operation shrinks it. -/
theorem storage_bounded (initialSize : Nat) (calls : List StorageCall) :
    new initialSize = .ok (fresh initialSize) ∧
      storages.Always (Machine.Holds fun s => s.buffer.buffer.length ≤
        max (kCheapPrepend + initialSize) (2 * s.peak + kCheapPrepend)) (.ok ⟨fresh initialSize, 0⟩) calls ∧
      ∀ s, storages.run (.ok ⟨fresh initialSize, 0⟩) calls = some (.ok s) → ∀ more t,
        storages.run (.ok s) more = some (.ok t) → s.buffer.buffer.length ≤ t.buffer.buffer.length := by
  have hkeep : ∀ u call v, Machine.Holds (Bounded initialSize) u → storages.step u call = some v →
      Machine.Holds (Bounded initialSize) v := by
    intro u call v hu hstep
    cases u with
    | error e => exact absurd hu Machine.holds_error
    | ok s =>
      obtain ⟨t, rfl, ht, -⟩ := Bounded.step hu hstep
      exact ht
  have hinit : Machine.Holds (ε := Assertion) (Bounded initialSize) (.ok ⟨fresh initialSize, 0⟩) :=
    bounded_fresh initialSize
  refine ⟨new_eq_fresh initialSize, ?_, ?_⟩
  · refine (Machine.Always.of_step hinit hkeep).mono fun u hu => ?_
    cases u with
    | error e => exact absurd hu Machine.holds_error
    | ok s => exact Bounded.length_le hu
  · intro s hrun more t hmore
    have hs : Machine.Holds (ε := Assertion) (Bounded initialSize) (.ok s) :=
      Machine.run_invariant hkeep hinit hrun
    have hgrown : Machine.Holds (ε := Assertion) (fun t => Bounded initialSize t ∧
        s.buffer.buffer.length ≤ t.buffer.buffer.length) (.ok t) := by
      refine Machine.run_invariant (M := storages) (s := .ok s) ?_ ⟨hs, le_rfl⟩ hmore
      intro u call v hu hstep
      cases u with
      | error e => exact absurd hu Machine.holds_error
      | ok u =>
        obtain ⟨v, rfl, hv, hle⟩ := hu.1.step hstep
        exact ⟨hv, hu.2.trans hle⟩
    exact hgrown.2

/-- The second `append` finds room in front of the reader and compacts. -/
example : ((storages.run (.ok ⟨fresh 0, 0⟩) [.op (.append [1, 2]), .op (.retrieve 1), .op (.append [3])]).map
    (·.toOption.map fun s => (s.buffer.buffer.length, s.peak))) = some (some (10, 2)) := by
  decide

end Siren.Buffer
