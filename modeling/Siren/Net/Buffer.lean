import Mathlib.Order.Nat
import Siren.Base.Types
import Siren.Lib.Window

/-!
# `Buffer`

The byte buffer of `Buffer.h` and `Buffer.cpp`: one block of storage and two indices into it. Below the
functions as the source computes them, one specification for each: on a well-formed buffer (`Wf`) no
assertion fails, the result is well formed, and its readable bytes (`content`) are what the operation
is for. Sizes are natural numbers: the source's `size_t` arithmetic does not wrap at the sizes a process
can hold.

`retrieveAsString` passes its length to `retrieve` as an `int`. `retrieveAsString_conserves_iff` says of which
lengths what is consumed is still what was returned.
-/

namespace Siren

open Window

/-- An assertion of `Buffer.h`, named after its function. -/
inductive Buffer.Assertion where
  | constructor
  | retrieveAsString
  | hasWritten
  | prepend
  | makeSpaceReader
  | makeSpaceReadable
  | ensureWritableBytes
  deriving DecidableEq

structure Buffer where
  buffer : List Byte
  readerIndex : Nat
  writerIndex : Nat
  deriving DecidableEq

namespace Buffer

def kCheapPrepend : Nat := 8
def kInitialSize : Nat := 1024

def readableBytes (b : Buffer) : Nat := b.writerIndex - b.readerIndex

def writableBytes (b : Buffer) : Nat := b.buffer.length - b.writerIndex

def prependableBytes (b : Buffer) : Nat := b.readerIndex

/-- The members as the constructor initialises them. -/
def fresh (initialSize : Nat) : Buffer :=
  ⟨List.replicate (kCheapPrepend + initialSize) 0, kCheapPrepend, kCheapPrepend⟩

/-- `Buffer(initialSize)` -/
def new (initialSize : Nat) : Except Assertion Buffer := do
  let b := fresh initialSize
  cassert (b.readableBytes = 0) .constructor
  cassert (b.writableBytes = initialSize) .constructor
  cassert (b.prependableBytes = kCheapPrepend) .constructor
  return b

def swap (b rhs : Buffer) : Buffer × Buffer :=
  (⟨rhs.buffer, rhs.readerIndex, rhs.writerIndex⟩, ⟨b.buffer, b.readerIndex, b.writerIndex⟩)

/-- The `len` bytes at `peek()`. -/
def peek (b : Buffer) (len : Nat) : List Byte := window b.buffer b.readerIndex (b.readerIndex + len)

def retrieveAll (b : Buffer) : Buffer :=
  { b with readerIndex := kCheapPrepend, writerIndex := kCheapPrepend }

/-- `retrieve(int len)`: the comparison with `readableBytes()` is one of `size_t`. -/
def retrieve (b : Buffer) (len : Int) : Buffer :=
  if toSize len < b.readableBytes then { b with readerIndex := b.readerIndex + toSize len }
  else b.retrieveAll

/-- `retrieveAsString(size_t len)`, which passes `len` on as an `int`. -/
def retrieveAsString (b : Buffer) (len : Nat) : Except Assertion (List Byte × Buffer) := do
  cassert (len ≤ b.readableBytes) .retrieveAsString
  return (b.peek len, b.retrieve (toInt len))

def retrieveAllAsString (b : Buffer) : Except Assertion (List Byte × Buffer) :=
  b.retrieveAsString b.readableBytes

/-- Bytes copied to `beginWrite()`. -/
def copyToWrite (b : Buffer) (data : List Byte) : Buffer :=
  { b with buffer := store b.buffer b.writerIndex data }

def hasWritten (b : Buffer) (len : Nat) : Except Assertion Buffer := do
  cassert (len ≤ b.writableBytes) .hasWritten
  return { b with writerIndex := b.writerIndex + len }

def prepend (b : Buffer) (data : List Byte) : Except Assertion Buffer := do
  cassert (data.length ≤ b.prependableBytes) .prepend
  let b := { b with readerIndex := b.readerIndex - data.length }
  return { b with buffer := store b.buffer b.readerIndex data }

def makeSpace (b : Buffer) (len : Nat) : Except Assertion Buffer := do
  if b.writableBytes + b.prependableBytes < len + kCheapPrepend then
    return { b with buffer := resize b.buffer (b.writerIndex + len) 0 }
  else
    cassert (kCheapPrepend < b.readerIndex) .makeSpaceReader
    let readable := b.readableBytes
    let b : Buffer :=
      ⟨store b.buffer kCheapPrepend (window b.buffer b.readerIndex b.writerIndex), kCheapPrepend,
        kCheapPrepend + readable⟩
    cassert (readable = b.readableBytes) .makeSpaceReadable
    return b

def ensureWritableBytes (b : Buffer) (len : Nat) : Except Assertion Buffer := do
  let b ← if b.writableBytes < len then b.makeSpace len else pure b
  cassert (b.writableBytes ≥ len) .ensureWritableBytes
  return b

def append (b : Buffer) (data : List Byte) : Except Assertion Buffer := do
  let b ← b.ensureWritableBytes data.length
  (b.copyToWrite data).hasWritten data.length

/-- `sizeof extrabuf` in `readFd`. -/
def extrabufSize : Nat := 65536

/-- The total capacity of the `iovec`s that `readFd` passes to `readv`: the free space of the buffer,
and `extrabuf` behind it unless the free space is as large. -/
def readCapacity (b : Buffer) : Nat :=
  if b.writableBytes < extrabufSize then b.writableBytes + extrabufSize else b.writableBytes

/-- `readFd` and its return value, when `readv` returned `result`. `readv` fills the free space first;
what it put into `extrabuf` is appended. -/
def readFd (b : Buffer) (result : ReadResult) : Except Assertion (Buffer × Int) := do
  match result with
  | .failed => return (b, -1)
  | .read bytes =>
    let writable := b.writableBytes
    let b := b.copyToWrite (bytes.take writable)
    if bytes.length ≤ writable then
      return ({ b with writerIndex := b.writerIndex + bytes.length }, bytes.length)
    else
      let b ← append { b with writerIndex := b.buffer.length } (bytes.drop writable)
      return (b, bytes.length)

/-! ### Well-formed buffers -/

/-- The indices are in order and inside the storage, which has room for the prependable bytes. -/
structure Wf (b : Buffer) : Prop where
  reader_le : b.readerIndex ≤ b.writerIndex
  writer_le : b.writerIndex ≤ b.buffer.length
  cheap_le : kCheapPrepend ≤ b.buffer.length

/-- The readable bytes. -/
def content (b : Buffer) : List Byte := window b.buffer b.readerIndex b.writerIndex

variable {b : Buffer} {data : List Byte} {len : Nat}

theorem Wf.length_content (h : b.Wf) : b.content.length = b.readableBytes :=
  length_window h.writer_le

theorem new_eq_fresh (initialSize : Nat) : new initialSize = .ok (fresh initialSize) := by
  simp [new, fresh, cassert, readableBytes, writableBytes, prependableBytes, pure, Except.pure]

theorem fresh_wf (initialSize : Nat) : (fresh initialSize).Wf :=
  ⟨le_rfl, by simp [fresh], by simp [fresh]⟩

@[simp] theorem content_fresh (initialSize : Nat) : (fresh initialSize).content = [] := by
  simp [content, fresh]

theorem peek_eq_take (h : b.Wf) (hlen : len ≤ b.readableBytes) : b.peek len = b.content.take len := by
  have := h.reader_le
  rw [readableBytes] at hlen
  rw [peek, content, take_window (by omega)]

theorem Wf.retrieveAll (h : b.Wf) : b.retrieveAll.Wf :=
  ⟨le_rfl, h.cheap_le, h.cheap_le⟩

@[simp] theorem content_retrieveAll (b : Buffer) : b.retrieveAll.content = [] := by
  simp [content, Buffer.retrieveAll]

/-- `retrieve` drops what it was asked to, or everything when that is more than there is. -/
theorem retrieve_spec (h : b.Wf) (len : Int) :
    (b.retrieve len).Wf ∧ (b.retrieve len).content = b.content.drop (toSize len) := by
  have := h.reader_le
  unfold retrieve
  split
  · rename_i hlt
    rw [readableBytes] at hlt
    refine ⟨⟨?_, h.writer_le, h.cheap_le⟩, ?_⟩
    · show b.readerIndex + toSize len ≤ b.writerIndex
      omega
    · rw [content, content, drop_window]
  · rename_i hge
    refine ⟨h.retrieveAll, ?_⟩
    rw [content_retrieveAll, List.drop_of_length_le (by rw [h.length_content]; omega)]

/-- With a length that fits an `int`, `retrieveAsString` returns the bytes it drops. -/
theorem retrieveAsString_spec (h : b.Wf) (hlen : len ≤ b.readableBytes) (hint : len ≤ intMax) :
    ∃ b', b.retrieveAsString len = .ok (b.content.take len, b') ∧ b'.Wf ∧
      b'.content = b.content.drop len := by
  have hsize : toSize (toInt len) = len := by
    rw [toInt_of_le hint, toSize_ofNat (by unfold intMax at hint; omega)]
  obtain ⟨hwf, hcontent⟩ := retrieve_spec h (toInt len)
  refine ⟨b.retrieve (toInt len), ?_, hwf, by rw [hcontent, hsize]⟩
  rw [retrieveAsString, cassert_of hlen, peek_eq_take h hlen]
  rfl

theorem Wf.copyToWrite (h : b.Wf) (hlen : data.length ≤ b.writableBytes) :
    (b.copyToWrite data).Wf ∧ (b.copyToWrite data).buffer.length = b.buffer.length := by
  have hroom : b.writerIndex + data.length ≤ b.buffer.length := by
    have := h.writer_le
    rw [writableBytes] at hlen
    omega
  have hlength : (b.copyToWrite data).buffer.length = b.buffer.length := length_store hroom
  exact ⟨⟨h.reader_le, hlength ▸ h.writer_le, hlength ▸ h.cheap_le⟩, hlength⟩

/-- Bytes put at `beginWrite()` become readable when `writerIndex` moves over them. -/
theorem content_copyToWrite (h : b.Wf) (hlen : data.length ≤ b.writableBytes) :
    window (b.copyToWrite data).buffer b.readerIndex (b.writerIndex + data.length) =
      b.content ++ data := by
  have hroom : b.writerIndex + data.length ≤ b.buffer.length := by
    have := h.writer_le
    rw [writableBytes] at hlen
    omega
  show window (store b.buffer b.writerIndex data) b.readerIndex (b.writerIndex + data.length) = _
  rw [← window_append h.reader_le (Nat.le_add_right _ _), window_store_before le_rfl h.writer_le,
    window_store_self h.writer_le, content]

/-- Bytes written at `beginWrite()` and announced by `hasWritten`. -/
theorem hasWritten_spec (h : b.Wf) (hlen : data.length ≤ b.writableBytes) :
    ∃ b', (b.copyToWrite data).hasWritten data.length = .ok b' ∧ b'.Wf ∧
      b'.content = b.content ++ data := by
  obtain ⟨hwf, hlength⟩ := h.copyToWrite hlen
  have hroom : data.length ≤ (b.copyToWrite data).writableBytes := by
    rw [writableBytes, hlength]
    exact hlen
  refine ⟨{ b.copyToWrite data with writerIndex := b.writerIndex + data.length }, ?_, ?_, ?_⟩
  · rw [hasWritten, cassert_of hroom]
    rfl
  · refine ⟨?_, ?_, hwf.cheap_le⟩
    · exact h.reader_le.trans (Nat.le_add_right _ _)
    · have := h.writer_le
      rw [writableBytes] at hlen
      show b.writerIndex + data.length ≤ (b.copyToWrite data).buffer.length
      omega
  · exact content_copyToWrite h hlen

theorem prepend_spec (h : b.Wf) (hlen : data.length ≤ b.prependableBytes) :
    ∃ b', b.prepend data = .ok b' ∧ b'.Wf ∧ b'.content = data ++ b.content := by
  have hr := h.reader_le
  have hw := h.writer_le
  have hback : b.readerIndex - data.length + data.length = b.readerIndex := Nat.sub_add_cancel hlen
  have hroom : b.readerIndex - data.length + data.length ≤ b.buffer.length := by omega
  refine ⟨⟨store b.buffer (b.readerIndex - data.length) data, b.readerIndex - data.length,
    b.writerIndex⟩, ?_, ⟨?_, ?_, ?_⟩, ?_⟩
  · rw [prepend, cassert_of hlen]
    rfl
  · exact (Nat.sub_le _ _).trans hr
  · rw [length_store hroom]
    exact hw
  · rw [length_store hroom]
    exact h.cheap_le
  · rw [content, ← window_append (j := b.readerIndex) (Nat.sub_le _ _) hr]
    have hfront : window (store b.buffer (b.readerIndex - data.length) data)
        (b.readerIndex - data.length) b.readerIndex = data := by
      have hself := window_store_self (l := b.buffer) (d := data) (i := b.readerIndex - data.length) (by omega)
      rwa [hback] at hself
    rw [hfront, window_store_after (by omega) (by omega), content]

/-- `makeSpace` makes room and keeps the readable bytes. The assertion in its compacting branch holds
because the caller lacked space behind `writerIndex`: what is missing lies in front of `readerIndex`. -/
theorem makeSpace_spec (h : b.Wf) (hlack : b.writableBytes < len) :
    ∃ b', b.makeSpace len = .ok b' ∧ b'.Wf ∧ b'.content = b.content ∧ len ≤ b'.writableBytes := by
  have hr := h.reader_le
  have hw := h.writer_le
  have hlength : (resize b.buffer (b.writerIndex + len) 0).length = b.writerIndex + len :=
    length_resize 0
  unfold makeSpace
  split
  · refine ⟨_, rfl, ⟨hr, ?_, ?_⟩, ?_, ?_⟩
    · rw [hlength]
      exact Nat.le_add_right _ _
    · have := h.cheap_le
      rw [writableBytes] at hlack
      rw [hlength]
      omega
    · exact window_resize 0 hw (Nat.le_add_right _ _)
    · show len ≤ (resize b.buffer (b.writerIndex + len) 0).length - b.writerIndex
      omega
  · rename_i hspace
    rw [writableBytes] at hlack
    rw [writableBytes, prependableBytes] at hspace
    have hreader : kCheapPrepend < b.readerIndex := by omega
    have hcontent : (window b.buffer b.readerIndex b.writerIndex).length = b.readableBytes :=
      h.length_content
    have hroom : kCheapPrepend + (window b.buffer b.readerIndex b.writerIndex).length ≤ b.buffer.length := by
      rw [hcontent, readableBytes]
      omega
    refine ⟨⟨store b.buffer kCheapPrepend (window b.buffer b.readerIndex b.writerIndex), kCheapPrepend,
      kCheapPrepend + b.readableBytes⟩, ?_, ⟨Nat.le_add_right _ _, ?_, ?_⟩, ?_, ?_⟩
    · simp [cassert, hreader, readableBytes, pure, Except.pure]
    · rw [length_store hroom, ← hcontent]
      exact hroom
    · rw [length_store hroom]
      exact h.cheap_le
    · rw [content, ← hcontent]
      exact window_store_self h.cheap_le
    · show len ≤ (store _ _ _).length - (kCheapPrepend + (b.writerIndex - b.readerIndex))
      rw [length_store hroom]
      omega

theorem ensureWritableBytes_spec (h : b.Wf) (len : Nat) :
    ∃ b', b.ensureWritableBytes len = .ok b' ∧ b'.Wf ∧ b'.content = b.content ∧
      len ≤ b'.writableBytes := by
  by_cases hlack : b.writableBytes < len
  · obtain ⟨b', hok, hwf, hcontent, hroom⟩ := makeSpace_spec h hlack
    refine ⟨b', ?_, hwf, hcontent, hroom⟩
    simp [ensureWritableBytes, hlack, hok, cassert_of hroom, pure, Except.pure]
  · have hroom : len ≤ b.writableBytes := Nat.le_of_not_lt hlack
    refine ⟨b, ?_, h, rfl, hroom⟩
    simp [ensureWritableBytes, hlack, cassert_of hroom, pure, Except.pure]

theorem append_spec (h : b.Wf) (data : List Byte) :
    ∃ b', b.append data = .ok b' ∧ b'.Wf ∧ b'.content = b.content ++ data := by
  obtain ⟨b₁, hok, hwf, hcontent, hroom⟩ := ensureWritableBytes_spec h data.length
  obtain ⟨b₂, hok₂, hwf₂, hcontent₂⟩ := hasWritten_spec hwf hroom
  refine ⟨b₂, ?_, hwf₂, hcontent ▸ hcontent₂⟩
  rw [append, hok, ok_bind, hok₂]

/-- `readFd` appends the bytes `readv` delivered, in order, across the free space and `extrabuf`. -/
theorem readFd_read_spec (h : b.Wf) (bytes : List Byte) :
    ∃ b', b.readFd (.read bytes) = .ok (b', bytes.length) ∧ b'.Wf ∧
      b'.content = b.content ++ bytes := by
  have hr := h.reader_le
  have hw := h.writer_le
  unfold readFd
  by_cases hfit : bytes.length ≤ b.writableBytes
  · have htake : bytes.take b.writableBytes = bytes := List.take_of_length_le hfit
    obtain ⟨hwf, hlength⟩ := h.copyToWrite hfit
    refine ⟨{ b.copyToWrite bytes with writerIndex := b.writerIndex + bytes.length }, ?_, ?_, ?_⟩
    · simp [hfit, htake, copyToWrite, pure, Except.pure]
    · refine ⟨hr.trans (Nat.le_add_right _ _), ?_, hwf.cheap_le⟩
      rw [writableBytes] at hfit
      show b.writerIndex + bytes.length ≤ (b.copyToWrite bytes).buffer.length
      omega
    · exact content_copyToWrite h hfit
  · -- the free space is full, and the rest lies in `extrabuf`
    have hlen : (bytes.take b.writableBytes).length = b.writableBytes := by
      rw [List.length_take]
      omega
    obtain ⟨hwf, hlength⟩ := h.copyToWrite hlen.le
    have hend : b.writerIndex + (bytes.take b.writableBytes).length = b.buffer.length := by
      rw [hlen, writableBytes]
      omega
    have hfull : Wf { b.copyToWrite (bytes.take b.writableBytes) with
        writerIndex := (b.copyToWrite (bytes.take b.writableBytes)).buffer.length } :=
      ⟨(hlength ▸ hr.trans hw : b.readerIndex ≤ _), le_rfl, hwf.cheap_le⟩
    obtain ⟨b', hok, hwf', hcontent⟩ := append_spec hfull (bytes.drop b.writableBytes)
    refine ⟨b', ?_, hwf', ?_⟩
    · simp only [hfit, if_false, hok, ok_bind]
      rfl
    · have hfront : window (b.copyToWrite (bytes.take b.writableBytes)).buffer b.readerIndex
          (b.copyToWrite (bytes.take b.writableBytes)).buffer.length =
            b.content ++ bytes.take b.writableBytes := by
        rw [hlength, ← hend]
        exact content_copyToWrite h hlen.le
      rw [hcontent]
      show window _ b.readerIndex _ ++ _ = _
      rw [hfront, List.append_assoc, List.take_append_drop]

/-! ### Lengths that pass through an `int` -/

/-- `len` bytes were taken out: they and what is left are the content. -/
def Conserves (b : Buffer) (len : Nat) : Except Assertion (List Byte × Buffer) → Prop
  | .ok (bytes, b') =>
    bytes = b.content.take len ∧ b'.readableBytes = b.readableBytes - len ∧ bytes ++ b'.content = b.content
  | .error _ => False

/-- The lengths that `retrieve` consumes as they are, though it is passed an `int`: those that an `int` holds,
the whole content where the low half of its length is a negative `int`, since `retrieve` then takes everything,
and the lengths next to `2 ^ 64`, which come back as they were. -/
def Survives (readable len : Nat) : Prop :=
  len ≤ intMax ∨ 2 ^ 64 - 2 ^ 31 ≤ len ∨ len = readable ∧ 2 ^ 31 ≤ len % 2 ^ 32

instance (readable len : Nat) : Decidable (Survives readable len) := by
  unfold Survives
  infer_instance

/-- The stream is conserved when `retrieve` drops as many bytes as were copied. -/
theorem conserves_iff (h : b.Wf) (hlen : len ≤ b.readableBytes) :
    b.Conserves len (b.retrieveAsString len) ↔ b.content.drop (toSize (toInt len)) = b.content.drop len := by
  obtain ⟨hwf, hcontent⟩ := retrieve_spec h (toInt len)
  have hok : b.retrieveAsString len = .ok (b.content.take len, b.retrieve (toInt len)) := by
    rw [retrieveAsString, cassert_of hlen, peek_eq_take h hlen]
    rfl
  rw [hok]
  constructor
  · rintro ⟨-, -, hall⟩
    have happend : b.content.take len ++ (b.retrieve (toInt len)).content =
        b.content.take len ++ b.content.drop len := by
      rw [hall, List.take_append_drop]
    rw [← hcontent]
    exact List.append_cancel_left happend
  · intro hdrop
    refine ⟨rfl, ?_, ?_⟩
    · rw [← hwf.length_content, hcontent, hdrop, List.length_drop, h.length_content]
    · rw [hcontent, hdrop, List.take_append_drop]

/-- Two drops of at most the content leave the same when they drop as many. -/
theorem drop_content_eq_iff (h : b.Wf) {m : Nat} (hlen : len ≤ b.readableBytes) :
    b.content.drop m = b.content.drop len ↔ m = len ∨ len = b.readableBytes ∧ len ≤ m := by
  have hlength := h.length_content
  constructor
  · intro hdrop
    have hsize := congrArg List.length hdrop
    rw [List.length_drop, List.length_drop, hlength] at hsize
    omega
  · rintro (rfl | ⟨hall, hle⟩)
    · rfl
    · rw [List.drop_of_length_le (by omega), List.drop_of_length_le (by omega)]

/-- Of which lengths below `2 ^ 64` nothing is lost. -/
theorem survives_iff (hlen : len ≤ b.readableBytes) (hsize : b.readableBytes < 2 ^ 64) :
    Survives b.readableBytes len ↔
      toSize (toInt len) = len ∨ len = b.readableBytes ∧ len ≤ toSize (toInt len) := by
  unfold Survives intMax
  by_cases hlow : len % 2 ^ 32 < 2 ^ 31
  · rw [toSize_toInt_of_low hlow]
    omega
  · rw [toSize_toInt_of_high (not_lt.mp hlow)]
    omega

/-- **Taking bytes out**: `retrieveAsString(len)` returns the first `len` readable bytes and leaves the rest
exactly when `len` survives the `int` of `retrieve`; `retrieveAllAsString` returns everything and leaves
nothing when the number of readable bytes does. -/
theorem retrieveAsString_conserves_iff (h : b.Wf) (hsize : b.buffer.length < 2 ^ 64) :
    (∀ len ≤ b.readableBytes,
      b.Conserves len (b.retrieveAsString len) ↔ Survives b.readableBytes len) ∧
    (b.Conserves b.readableBytes b.retrieveAllAsString ↔ Survives b.readableBytes b.readableBytes) := by
  have hreadable : b.readableBytes < 2 ^ 64 := by
    have := h.writer_le
    rw [readableBytes]
    omega
  have hiff : ∀ len ≤ b.readableBytes,
      b.Conserves len (b.retrieveAsString len) ↔ Survives b.readableBytes len := by
    intro len hlen
    rw [conserves_iff h hlen, drop_content_eq_iff h hlen, survives_iff hlen hreadable]
  exact ⟨hiff, hiff _ le_rfl⟩

/-- `retrieveAsString_conserves_iff` for a buffer of three bytes. -/
theorem three_bytes_conserved :
    Conserves ⟨List.replicate 8 0 ++ [1, 2, 3], 8, 11⟩ 2
        (retrieveAsString ⟨List.replicate 8 0 ++ [1, 2, 3], 8, 11⟩ 2) ∧
      Conserves ⟨List.replicate 8 0 ++ [1, 2, 3], 8, 11⟩ 3
        (retrieveAllAsString ⟨List.replicate 8 0 ++ [1, 2, 3], 8, 11⟩) := by
  have h := retrieveAsString_conserves_iff (b := ⟨List.replicate 8 0 ++ [1, 2, 3], 8, 11⟩)
    ⟨by decide, by decide, by decide⟩ (by decide)
  exact ⟨(h.1 2 (by decide)).mpr (by decide), h.2.mpr (by decide)⟩

/-- Of 4 GiB nothing is consumed: as an `int` the length is 0. -/
theorem four_gigabytes_not_consumed :
    ¬ ∀ (b : Buffer) (len : Nat), b.Wf → len ≤ b.readableBytes → b.Conserves len (b.retrieveAsString len) := by
  intro hall
  obtain ⟨len, hlen⟩ : ∃ len, len = 2 ^ 32 := ⟨_, rfl⟩
  have hlength : (List.replicate (8 + len) (0 : Byte)).length = 8 + len := List.length_replicate
  have hwf : Wf ⟨List.replicate (8 + len) 0, 8, 8 + len⟩ :=
    ⟨Nat.le_add_right _ _, hlength.ge, (Nat.le_add_right _ _).trans hlength.ge⟩
  have hreadable : readableBytes ⟨List.replicate (8 + len) 0, 8, 8 + len⟩ = len :=
    Nat.add_sub_cancel_left ..
  have hcut := (conserves_iff hwf hreadable.ge).mp (hall _ len hwf hreadable.ge)
  rw [drop_content_eq_iff hwf hreadable.ge, toSize_toInt_of_low (by omega), hreadable] at hcut
  omega

end Buffer

end Siren
