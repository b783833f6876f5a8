import Mathlib.Logic.Function.Basic
import Siren.Lib.Machine
import Siren.Net.Buffer

/-!
# `Buffer` refines a byte queue

What a `Buffer` is for: a queue of bytes, filled at the back, drained and (for a length prefix) extended
at the front. `Queue.exec` says this on plain lists of bytes, `exec_spec` that each operation of a
well-formed buffer does it to its readable bytes without failing an assertion, and `refines_queue` that
every sequence of operations on a family of buffers, swaps between them included, is matched by the same
operations on queues, returned values included.

`ByteBuffer` bundles a buffer with its well-formedness, for the code that uses buffers as queues.
-/

namespace Siren.Buffer

/-! ### Operations and their results -/

/-- The operations on one buffer, with their arguments and what the kernel did. -/
inductive Op where
  | append (data : List Byte)
  | prepend (data : List Byte)
  | ensureWritableBytes (len : Nat)
  /-- Bytes written at `beginWrite()`, then `hasWritten`. -/
  | write (data : List Byte)
  | retrieve (len : Int)
  | retrieveAsString (len : Nat)
  | retrieveAll
  | readFd (result : ReadResult)

/-- What an operation returns. -/
inductive Result where
  | none
  | string (bytes : List Byte)
  | count (n : Int)
  deriving DecidableEq

/-- What the callers of a buffer respect: `prepend` and `write` stay within the free space, `retrieve`
gets a non-negative `int`, `retrieveAsString` at most what is there and an `int` can hold, and `readv`
delivers at most what its `iovec`s hold. -/
def Op.Allowed (b : Buffer) : Op → Prop
  | .prepend data => data.length ≤ b.prependableBytes
  | .write data => data.length ≤ b.writableBytes
  | .retrieve len => 0 ≤ len ∧ len ≤ intMax
  | .retrieveAsString len => len ≤ b.readableBytes ∧ len ≤ intMax
  | .readFd (.read bytes) => bytes.length ≤ b.readCapacity
  | _ => True

instance (b : Buffer) (op : Op) : Decidable (op.Allowed b) := by
  cases op with
  | readFd result => cases result <;> unfold Op.Allowed <;> infer_instance
  | _ => unfold Op.Allowed; infer_instance

def exec (b : Buffer) : Op → Except Assertion (Buffer × Result)
  | .append data => (·, .none) <$> b.append data
  | .prepend data => (·, .none) <$> b.prepend data
  | .ensureWritableBytes len => (·, .none) <$> b.ensureWritableBytes len
  | .write data => (·, .none) <$> (b.copyToWrite data).hasWritten data.length
  | .retrieve len => .ok (b.retrieve len, .none)
  | .retrieveAsString len => (fun r => (r.2, .string r.1)) <$> b.retrieveAsString len
  | .retrieveAll => .ok (b.retrieveAll, .none)
  | .readFd result => (fun r => (r.1, .count r.2)) <$> b.readFd result

/-! ### The queue -/

/-- The operations on a queue of bytes. -/
def Queue.exec (q : List Byte) : Op → List Byte × Result
  | .append data => (q ++ data, .none)
  | .prepend data => (data ++ q, .none)
  | .ensureWritableBytes _ => (q, .none)
  | .write data => (q ++ data, .none)
  | .retrieve len => (q.drop len.toNat, .none)
  | .retrieveAsString len => (q.drop len, .string (q.take len))
  | .retrieveAll => ([], .none)
  | .readFd (.read bytes) => (q ++ bytes, .count bytes.length)
  | .readFd .failed => (q, .count (-1))

/-- Every allowed operation on a well-formed buffer succeeds and does to its readable bytes what the
operation does to a queue. -/
theorem exec_spec {b : Buffer} (h : b.Wf) (op : Op) (hop : op.Allowed b) :
    ∃ b', b.exec op = .ok (b', (Queue.exec b.content op).2) ∧ b'.Wf ∧
      b'.content = (Queue.exec b.content op).1 := by
  cases op with
  | append data =>
    obtain ⟨b', hok, hwf, hcontent⟩ := append_spec h data
    exact ⟨b', by rw [exec, hok]; rfl, hwf, hcontent⟩
  | prepend data =>
    obtain ⟨b', hok, hwf, hcontent⟩ := prepend_spec h hop
    exact ⟨b', by rw [exec, hok]; rfl, hwf, hcontent⟩
  | ensureWritableBytes len =>
    obtain ⟨b', hok, hwf, hcontent, -⟩ := ensureWritableBytes_spec h len
    exact ⟨b', by rw [exec, hok]; rfl, hwf, hcontent⟩
  | write data =>
    obtain ⟨b', hok, hwf, hcontent⟩ := hasWritten_spec h hop
    exact ⟨b', by rw [exec, hok]; rfl, hwf, hcontent⟩
  | retrieve len =>
    obtain ⟨hwf, hcontent⟩ := retrieve_spec h len
    obtain ⟨hnonneg, hmax⟩ := hop
    have hsize : toSize len = len.toNat := by
      unfold toSize intMax at *
      omega
    exact ⟨b.retrieve len, rfl, hwf, by rw [hcontent, hsize]; rfl⟩
  | retrieveAsString len =>
    obtain ⟨b', hok, hwf, hcontent⟩ := retrieveAsString_spec h hop.1 hop.2
    exact ⟨b', by rw [exec, hok]; rfl, hwf, hcontent⟩
  | retrieveAll => exact ⟨b.retrieveAll, rfl, h.retrieveAll, content_retrieveAll b⟩
  | readFd result =>
    cases result with
    | failed => exact ⟨b, rfl, h, rfl⟩
    | read bytes =>
      obtain ⟨b', hok, hwf, hcontent⟩ := readFd_read_spec h bytes
      exact ⟨b', by rw [exec, hok]; rfl, hwf, hcontent⟩

/-! ### Families of buffers -/

/-- A call: an operation on one buffer of a family, or a swap of two. -/
inductive Call (ι : Type*) where
  | on (i : ι) (op : Op)
  | swap (i j : ι)

/-- A family of buffers, or of queues, and the values returned so far. -/
structure Family (ι β : Type*) where
  member : ι → β
  returned : List Result

variable {ι : Type*} [DecidableEq ι]

/-- A call on buffers; it can happen when its caller respects `Op.Allowed`. -/
def step (s : Family ι Buffer) : Call ι → Option (Except Assertion (Family ι Buffer))
  | .on i op =>
    if op.Allowed (s.member i) then
      some (((s.member i).exec op).map fun r => ⟨Function.update s.member i r.1, s.returned ++ [r.2]⟩)
    else none
  | .swap i j =>
    let r := (s.member i).swap (s.member j)
    some (.ok ⟨Function.update (Function.update s.member i r.1) j r.2, s.returned⟩)

/-- The same call on queues. -/
def Queue.step (s : Family ι (List Byte)) : Call ι → Option (Family ι (List Byte))
  | .on i op =>
    let r := Queue.exec (s.member i) op
    some ⟨Function.update s.member i r.1, s.returned ++ [r.2]⟩
  | .swap i j =>
    some ⟨Function.update (Function.update s.member i (s.member j)) j (s.member i), s.returned⟩

def buffers (ι : Type*) [DecidableEq ι] : Machine (Except Assertion (Family ι Buffer)) (Call ι) :=
  .ofExcept step

def queues (ι : Type*) [DecidableEq ι] : Machine (Family ι (List Byte)) (Call ι) := ⟨Queue.step⟩

/-- The buffers are well formed, their readable bytes are the queues, and both families returned the
same values. -/
def Refines (s : Family ι Buffer) (q : Family ι (List Byte)) : Prop :=
  (∀ i, (s.member i).Wf) ∧ q = ⟨fun i => (s.member i).content, s.returned⟩

theorem content_update (f : ι → Buffer) (i : ι) (b : Buffer) :
    (fun j => (Function.update f i b j).content) =
      Function.update (fun j => (f j).content) i b.content := by
  funext j
  by_cases hj : j = i
  · subst hj; simp
  · simp [hj]

theorem forall_wf_update {f : ι → Buffer} (h : ∀ i, (f i).Wf) (i : ι) {b : Buffer} (hb : b.Wf) (j : ι) :
    (Function.update f i b j).Wf := by
  by_cases hj : j = i
  · subst hj; simpa using hb
  · simpa [hj] using h j

theorem buffers_simulate :
    Machine.Simulates (fun s q => Machine.Holds (Refines · q) s) (buffers ι) (queues ι) := by
  intro s q call s' hR hstep
  cases s with
  | error a => exact absurd hR Machine.holds_error
  | ok s =>
    obtain ⟨hwf, rfl⟩ := hR
    cases call with
    | on i op =>
      simp only [buffers, Machine.ofExcept_step_ok, step] at hstep
      split at hstep
      · rename_i hop
        obtain ⟨b, hok, hb, hcontent⟩ := exec_spec (hwf i) op hop
        obtain rfl := Option.some.inj hstep
        refine ⟨_, rfl, ?_⟩
        rw [hok]
        refine ⟨forall_wf_update hwf i hb, ?_⟩
        rw [content_update, hcontent]
      · cases hstep
    | swap i j =>
      simp only [buffers, Machine.ofExcept_step_ok, step, Option.some.injEq] at hstep
      subst hstep
      refine ⟨_, rfl, forall_wf_update (forall_wf_update hwf i (hwf j)) j (hwf i), ?_⟩
      rw [content_update, content_update]
      rfl

/-- **A family of buffers refines a family of byte queues**: from freshly constructed buffers of any
sizes, every sequence of calls that respects `Op.Allowed` fails no assertion, leaves every buffer well
formed, and its readable bytes and returned values are those of the same calls on empty queues. -/
theorem refines_queue (sizes : ι → Nat) (calls : List (Call ι)) :
    (∀ i, new (sizes i) = .ok (fresh (sizes i))) ∧
      ∀ s, (buffers ι).run (.ok ⟨fun i => fresh (sizes i), []⟩) calls = some s →
        ∃ t, s = .ok t ∧ (∀ i, (t.member i).Wf) ∧
          (queues ι).run ⟨fun _ => [], []⟩ calls = some ⟨fun i => (t.member i).content, t.returned⟩ := by
  refine ⟨fun i => new_eq_fresh _, fun s hrun => ?_⟩
  have hinit : Refines (ι := ι) ⟨fun i => fresh (sizes i), []⟩ ⟨fun _ => [], []⟩ :=
    ⟨fun i => fresh_wf _, by simp⟩
  obtain ⟨q, hq, hR⟩ := buffers_simulate.run (Machine.holds_ok.mpr hinit) hrun
  cases s with
  | error a => exact absurd hR Machine.holds_error
  | ok t => exact ⟨t, rfl, hR.1, hq.trans (congrArg some hR.2)⟩

example : ((buffers Bool).run (.ok ⟨fun _ => fresh 2, []⟩)
    [.on true (.append [1, 2, 3]), .on true (.retrieve 1), .swap true false, .on false (.prepend [9]),
      .on false (.retrieveAsString 2)]).map (·.toOption.map fun t =>
        (t.member false, (t.member true).content, t.returned)) =
    some (some (⟨[0, 0, 0, 0, 0, 0, 0, 0, 9, 2, 3], 10, 11⟩, [],
      [.none, .none, .none, .string [9, 2]])) := by
  decide

end Siren.Buffer

namespace Siren

/-! ### Buffers bundled with their well-formedness -/

/-- A well-formed buffer. Its operations do not fail. -/
structure ByteBuffer where
  toBuffer : Buffer
  wf : toBuffer.Wf

namespace ByteBuffer

def fresh (initialSize : Nat) : ByteBuffer := ⟨.fresh initialSize, Buffer.fresh_wf initialSize⟩

def content (b : ByteBuffer) : List Byte := b.toBuffer.content

def readableBytes (b : ByteBuffer) : Nat := b.toBuffer.readableBytes

theorem append_ok (b : ByteBuffer) (data : List Byte) : ∃ b', b.toBuffer.append data = .ok b' :=
  let ⟨b', hok, _⟩ := Buffer.append_spec b.wf data
  ⟨b', hok⟩

def append (b : ByteBuffer) (data : List Byte) : ByteBuffer where
  toBuffer := okValue (b.toBuffer.append data) (b.append_ok data)
  wf := by
    obtain ⟨b', hok, hwf, -⟩ := Buffer.append_spec b.wf data
    rwa [okValue_eq hok]

def retrieve (b : ByteBuffer) (len : Int) : ByteBuffer :=
  ⟨b.toBuffer.retrieve len, (Buffer.retrieve_spec b.wf len).1⟩

def retrieveAll (b : ByteBuffer) : ByteBuffer := ⟨b.toBuffer.retrieveAll, b.wf.retrieveAll⟩

theorem readFd_ok (b : ByteBuffer) (result : ReadResult) :
    ∃ r, b.toBuffer.readFd result = .ok r := by
  cases result with
  | failed => exact ⟨_, rfl⟩
  | read bytes =>
    obtain ⟨b', hok, -⟩ := Buffer.readFd_read_spec b.wf bytes
    exact ⟨_, hok⟩

/-- `readFd`: the buffer after it. -/
def readFd (b : ByteBuffer) (result : ReadResult) : ByteBuffer where
  toBuffer := (okValue (b.toBuffer.readFd result) (b.readFd_ok result)).1
  wf := by
    cases result with
    | failed => exact b.wf
    | read bytes =>
      obtain ⟨b', hok, hwf, -⟩ := Buffer.readFd_read_spec b.wf bytes
      rwa [okValue_eq hok]

@[simp] theorem content_fresh (initialSize : Nat) : (fresh initialSize).content = [] :=
  Buffer.content_fresh initialSize

@[simp] theorem content_append (b : ByteBuffer) (data : List Byte) :
    (b.append data).content = b.content ++ data := by
  obtain ⟨b', hok, -, hcontent⟩ := Buffer.append_spec b.wf data
  show (okValue (b.toBuffer.append data) (b.append_ok data)).content = _
  rw [okValue_eq hok]
  exact hcontent

@[simp] theorem content_retrieve (b : ByteBuffer) (len : Int) :
    (b.retrieve len).content = b.content.drop (toSize len) :=
  (Buffer.retrieve_spec b.wf len).2

@[simp] theorem content_retrieveAll (b : ByteBuffer) : b.retrieveAll.content = [] :=
  Buffer.content_retrieveAll b.toBuffer

@[simp] theorem content_readFd (b : ByteBuffer) (bytes : List Byte) :
    (b.readFd (.read bytes)).content = b.content ++ bytes := by
  obtain ⟨b', hok, -, hcontent⟩ := Buffer.readFd_read_spec b.wf bytes
  show (okValue (b.toBuffer.readFd (.read bytes)) (b.readFd_ok (.read bytes))).1.content = _
  rw [okValue_eq hok]
  exact hcontent

theorem readableBytes_eq (b : ByteBuffer) : b.readableBytes = b.content.length :=
  b.wf.length_content.symm

end ByteBuffer

end Siren
