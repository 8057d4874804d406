import WasmtimeMysql.Lemmas.FileMutex
import WasmtimeMysql.Lib.Atomic
import WasmtimeMysql.Theorems.Storage

/-!
# MySQL's file under many threads

InnoDB's threads use one fd at the same time, each with a buffer of its own. A method of the file module is one step, since it holds the
mutex. An import that transfers bytes reads guest memory before its method or writes to it afterwards, and `os_file_get_size` makes three
seeks; other threads go on in between. Still every call seems to happen at once, when its method runs, and a read leaves in its buffer what
the file had then (`storage_linearizable`): nobody else is at the buffer, and the seeks of `os_file_get_size` disturb the cursor only, which
no call reads.
-/

namespace WasmtimeMysql

open Effects Effects.Prog

/-! ## The threads -/

/-- A call of InnoDB that transfers no bytes. -/
inductive PlainCall where
  | getSize
  | seek (offset : UInt64)
  | truncate (size : UInt64)
  | close
  deriving DecidableEq, Repr

/-- As a call on the file. -/
def PlainCall.storage : PlainCall → StorageCall
  | .getSize => .getSize
  | .seek offset => .seek offset
  | .truncate size => .truncate size
  | .close => .close

/-- What a thread does: it puts bytes into its buffer and writes them, it reads into its buffer and looks at what has come, it makes another call on
the fd, or its own code changes guest memory. -/
inductive ThreadCall where
  | write (buf : Int32) (bytes : List UInt8) (offset : UInt64)
  | read (buf : Int32) (n : UInt32) (offset : UInt64)
  | plain (c : PlainCall)
  | store (ptr : Int32) (bytes : List UInt8)
  deriving DecidableEq, Repr

/-- What a thread gets: the reply to its call, and the bytes it has read. -/
abbrev ThreadReply := Except (Option Int32) Nat × List UInt8

/-- A thread looks at the bytes that a read has put into its buffer. -/
def loaded (buf : Int32) : Except (Option Int32) Nat → Prog (GuestMem.sum FileMethods) ThreadReply
  | .error errno => pure (.error errno, [])
  | .ok count => do
    match ← readGuest buf (Int32.ofNat count) with
    | .ok bytes => return (.ok count, bytes)
    | .error _ => return (.ok count, [])

/-- What that runs. The guest's own code loads and stores as the imports do. -/
def ThreadCall.prog (fd : Int32) : ThreadCall → Prog (GuestMem.sum FileMethods) ThreadReply
  | .write buf bytes offset => do
    let _ ← writeGuest buf bytes
    let reply ← ((StorageCall.execute false buf (UInt32.ofNat bytes.length) offset).prog fd).through methodImport
    return (reply, [])
  | .read buf n offset => do
    let reply ← ((StorageCall.execute true buf n offset).prog fd).through methodImport
    loaded buf reply
  | .plain c => do
    let reply ← (c.storage.prog fd).through methodImport
    return (reply, [])
  | .store ptr bytes => do
    let _ ← writeGuest ptr bytes
    return (.ok 0, [])

/-- A step of a thread: an access to guest memory, or a method, from the time it has the mutex to the time it gives it back. -/
def mutexMachine {P κ : Type} {Host : Sig} (ioErrno : IoError → Errno) (closeFile : Int32 → FileProg P Host Int32)
    (K : Machine ((Fs P).sum Host) κ) : Machine (GuestMem.sum FileMethods) (Export × (HostFilesInner P × κ))
  | s, .inl c, r, s' => guestMachine s.1 c r s'.1 ∧ s'.2 = s.2
  | s, .inr m, r, s' => ∃ tr, Runs (fileMachine guestMachine K) (m.prog ioErrno closeFile) s tr (.returned r) s'

/-- The buffers of the threads, no two of which have a byte in common. -/
structure Buffers (ι : Type) where
  start : ι → Int32
  size : ι → Nat
  size_le : ∀ i, size i ≤ maxIoLen
  apart : ∀ {i j}, i ≠ j → RangesApart (start i) (size i) (start j) (size j)

/-- A range of a thread's buffer. -/
def Buffers.Has {ι : Type} (B : Buffers ι) (i : ι) (ptr : Int32) (n : Nat) : Prop :=
  0 ≤ ptr ∧ (B.start i).toNatClampNeg ≤ ptr.toNatClampNeg ∧ ptr.toNatClampNeg + n ≤ (B.start i).toNatClampNeg + B.size i

/-- A thread transfers from and to its own buffer and within the room of the volume, and its own code stores nothing in the buffers of others. -/
def ThreadCall.Fit {ι : Type} (vol : Volume) (B : Buffers ι) (i : ι) : ThreadCall → Prop
  | .write buf bytes offset => B.Has i buf bytes.length ∧ offset.toNat + bytes.length ≤ vol.room
  | .read buf n offset => B.Has i buf n.toNat ∧ offset.toNat + n.toNat ≤ vol.room
  | .plain c => c.storage.InBounds vol
  | .store ptr bytes => ∀ j, j ≠ i → RangesApart (B.start j) (B.size j) ptr bytes.length

/-! ## The object -/

/-- What the calls see of the file: whether the fd is open, and the content. -/
structure Stored where
  live : Bool
  content : List UInt8
  deriving DecidableEq, Repr

/-- The file without its cursor. -/
def GuestFile.stored (g : GuestFile) : Stored := ⟨g.live, g.file.content⟩

/-- The calls that transfer no bytes. -/
def Stored.plain (f : Stored) : PlainCall → Except Errno Nat × Stored
  | .getSize => if f.live = false then (.error .ebadf, f) else (.ok f.content.length, f)
  | .seek offset =>
    if f.live = false then (.error .ebadf, f) else if offset.toNat > maxOffset then (.error .einval, f) else (.ok offset.toNat, f)
  | .truncate size =>
    if size.toNat > maxOffset then (.error .einval, f)
    else if f.live = false then (.error .ebadf, f)
    else (.ok 0, { f with content := resized f.content size.toNat })
  | .close => if f.live = false then (.error .ebadf, f) else (.ok 0, { f with live := false })

/-- What a call returns, and what it leaves of the file. -/
def Stored.serve (f : Stored) : ThreadCall → ThreadReply × Stored
  | .write _ bytes offset =>
    if f.live = false then ((toReply (.error .ebadf), []), f)
    else ((.ok bytes.length, []), { f with content := writtenAt f.content bytes offset.toNat })
  | .read _ n offset =>
    if f.live = false then ((toReply (.error .ebadf), []), f)
    else
      let data := dataAt f.content n.toNat offset.toNat
      ((.ok data.length, data), f)
  | .plain c => ((toReply (f.plain c).1, []), (f.plain c).2)
  | .store .. => ((.ok 0, []), f)

/-- The file as an object that does a call in one step. -/
def Stored.does (f : Stored) (c : ThreadCall) (v : ThreadReply) (f' : Stored) : Prop := (v, f') = f.serve c

namespace StorageThreadsAux

open RegularAux StorageAux FileFrameAux

/-- What a call on the file does does not depend on the cursor. -/
theorem plain_stored (e : Export) (g : GuestFile) (c : PlainCall) :
    g.stored.plain c = ((g.storage e c.storage).1, (g.storage e c.storage).2.2.stored) := by
  obtain ⟨live, content, cursor⟩ := g
  cases c <;> cases live <;> simp only [GuestFile.stored, Stored.plain, PlainCall.storage, GuestFile.storage, Bool.true_eq_false, if_true, if_false]
  all_goals split_ifs <;> rfl

/-- An fd that is closed stays closed. -/
theorem live_serve {f : Stored} {c : ThreadCall} (h : f.live = false) : (f.serve c).2.live = false := by
  cases c with
  | plain c =>
    cases c <;> simp only [Stored.serve, Stored.plain]
    all_goals split_ifs <;> exact h
  | _ =>
    simp only [Stored.serve]
    try split_ifs
    all_goals exact h

/-! ### The buffers -/

section
variable {ι : Type} {B : Buffers ι} {i j : ι} {ptr ptr' : Int32} {n m : Nat}

/-- What is apart from a buffer is apart from every range of it, ... -/
theorem apart_of_has (h : B.Has i ptr n) (hapart : RangesApart (B.start i) (B.size i) ptr' m) : RangesApart ptr n ptr' m := by
  obtain ⟨-, hstart, hend⟩ := h
  rcases hapart with hle | hle
  · exact .inl (by omega)
  · exact .inr (by omega)

/-- ... and a range of another buffer is. -/
theorem apart_of_ne (h : B.Has i ptr n) (hj : j ≠ i) : RangesApart (B.start j) (B.size j) ptr n := by
  obtain ⟨-, hstart, hend⟩ := h
  rcases B.apart hj with hle | hle
  · exact .inl (by omega)
  · exact .inr (by omega)

/-- A range of a buffer is not longer than an import transfers. -/
theorem le_maxIoLen (h : B.Has i ptr n) : n ≤ maxIoLen := by
  obtain ⟨-, hstart, hend⟩ := h
  have hsize := B.size_le i
  omega

/-- A range of a buffer has room where the buffer has. -/
theorem room_of_has {e : Export} (h : B.Has i ptr n) (hroom : e.Room (B.start i) (B.size i)) : e.Room ptr n := by
  obtain ⟨he, -, hle, hmax⟩ := hroom
  obtain ⟨hptr, hstart, hend⟩ := h
  exact ⟨he, hptr, by omega, by omega⟩

end

/-! ### The programs -/

section
variable (fd buf : Int32)

/-- What is left of a write that has its bytes, ... -/
def handing (bytes : List UInt8) (offset : UInt64) : Prog (GuestMem.sum FileMethods) ThreadReply :=
  .call (S := GuestMem.sum FileMethods) (.inr (.pwrite fd bytes offset)) fun rc => .ret ((decodeRc rc).reply32, [])

/-- ... and of one that takes them from its buffer. -/
def taking (n : Nat) (offset : UInt64) : Prog (GuestMem.sum FileMethods) ThreadReply :=
  .call (S := GuestMem.sum FileMethods) (.inl (.readGuest buf (Int32.ofNat n))) fun
    | .error errno => .ret (toReply (.error errno), [])
    | .ok bytes => handing fd bytes offset

/-- What is left of a read that has its buffer on the host, ... -/
def getting (n : UInt32) (offset : UInt64) : Prog (GuestMem.sum FileMethods) ThreadReply :=
  .call (S := GuestMem.sum FileMethods) (.inr (.pread fd n.toNat offset)) fun answer => do
    let rc ← deliver buf n.toNat answer
    loaded buf (decodeRc rc).reply32

/-- ... of one that has the data, ... -/
def delivering (data : List UInt8) : Prog (GuestMem.sum FileMethods) ThreadReply :=
  .call (S := GuestMem.sum FileMethods) (.inl (.writeGuest buf data)) fun
    | .error errno => loaded buf (toReply (.error errno))
    | .ok () => loaded buf (.ok data.length)

/-- ... and of one that has it in its buffer. -/
def loading (n : Nat) : Prog (GuestMem.sum FileMethods) ThreadReply :=
  .call (S := GuestMem.sum FileMethods) (.inl (.readGuest buf (Int32.ofNat n))) fun
    | .ok bytes => .ret (.ok n, bytes)
    | .error _ => .ret (.ok n, [])

/-- `os_file_get_size` once it has the size ... -/
def restoring (pos size : Decoded UInt64) : Prog (GuestMem.sum FileMethods) ThreadReply :=
  .call (S := GuestMem.sum FileMethods) (.inr (.seek fd pos.value.toInt64 seekSet)) fun rc =>
    .ret (Decoded.reply64 ⟨size.value, (osWasiFileSeek rc).errno <|> size.errno <|> pos.errno⟩, [])

/-- ... and before that, when it has the position. -/
def measuring (pos : Decoded UInt64) : Prog (GuestMem.sum FileMethods) ThreadReply :=
  .call (S := GuestMem.sum FileMethods) (.inr (.seek fd (0 : UInt64).toInt64 seekEnd)) fun rc => restoring fd pos (osWasiFileSeek rc)

/-- `os_file_get_size` begins with a seek, ... -/
theorem prog_getSize : (ThreadCall.plain .getSize).prog fd =
    .call (S := GuestMem.sum FileMethods) (.inr (.seek fd (0 : UInt64).toInt64 seekCur)) fun rc => measuring fd (osWasiFileSeek rc) := rfl

/-- ... a read that has given bytes ends with a look at them, ... -/
theorem loaded_ok (n : Nat) : loaded buf (.ok n) = loading buf n := by
  refine congrArg (Prog.call _) (funext fun read => ?_)
  cases read <;> rfl

/-- The import of a call, over its method. -/
theorem through_import32 {i : FileImport} {p : Prog (GuestMem.sum FileMethods) Int32} (hp : methodImport i = Int32.toInt64 <$> p) :
    (Os0file.import32 i).through methodImport = p := by
  have himport : (Os0file.import32 i).through methodImport = Int64.toInt32 <$> methodImport i := bind_pure_comp Int64.toInt32 (methodImport i)
  have hid : Int64.toInt32 ∘ Int32.toInt64 = id := funext Int32.toInt32_toInt64
  rw [himport, hp, ← LawfulFunctor.comp_map, hid, id_map]

/-- A read or a write, over its import. -/
theorem through_execute (isRead : Bool) {n : UInt32} (offset : UInt64) (h : ¬n > Os0file.int32Max) :
    ((StorageCall.execute isRead buf n offset).prog fd).through methodImport = do
      let rc ← if isRead then methodPread fd buf n.toInt32 offset.toInt64 else methodPwrite fd buf n.toInt32 offset.toInt64
      return (decodeRc rc).reply32 := by
  cases isRead with
  | true =>
    simp only [StorageCall.prog, Os0file.execute, if_true, Os0file.osWasiFilePread, if_neg h, through_bind]
    rw [through_import32 (p := methodPread fd buf n.toInt32 offset.toInt64) rfl, bind_assoc]
    rfl
  | false =>
    simp only [StorageCall.prog, Os0file.execute, Bool.false_eq_true, if_false, Os0file.osWasiFilePwrite, if_neg h, through_bind]
    rw [through_import32 (p := methodPwrite fd buf n.toInt32 offset.toInt64) rfl, bind_assoc]
    rfl

/-- A length that fits is what the guest passes. -/
theorem not_gt_of_le_maxIoLen {n : UInt32} (h : n.toNat ≤ maxIoLen) : ¬n > Os0file.int32Max := by
  have hmax : maxIoLen = 16777216 := rfl
  have hint : Os0file.int32Max.toNat = 2147483647 := rfl
  rw [gt_iff_lt, UInt32.lt_iff_toNat_lt]
  omega

/-- ... a write begins with its bytes, ... -/
theorem prog_write (bytes : List UInt8) (offset : UInt64) (h : bytes.length ≤ maxIoLen) : (ThreadCall.write buf bytes offset).prog fd =
    .call (S := GuestMem.sum FileMethods) (.inl (.writeGuest buf bytes)) fun _ => taking fd buf bytes.length offset := by
  have hmax : maxIoLen = 16777216 := rfl
  have hnat : (UInt32.ofNat bytes.length).toNat = bytes.length := UInt32.toNat_ofNat_of_lt' (by simp only [UInt32.size]; omega)
  have hlen : (UInt32.ofNat bytes.length).toInt32 = Int32.ofNat bytes.length := by rw [toInt32_eq, hnat]
  obtain ⟨offset, rfl⟩ : ∃ o : Int64, offset = o.toUInt64 := ⟨offset.toInt64, (UInt64.toUInt64_toInt64 offset).symm⟩
  refine congrArg (Prog.call _) (funext fun _ => ?_)
  rw [through_execute fd buf false _ (not_gt_of_le_maxIoLen (by rw [hnat]; exact h)), hlen, Int64.toInt64_toUInt64]
  refine congrArg (Prog.call _) (funext fun read => ?_)
  cases read with
  | error errno => exact congrArg (fun reply => Prog.ret (reply, [])) (reply32_negErrno errno)
  | ok data => rfl

/-- ... and a read with its buffer. -/
theorem prog_read {n : UInt32} (offset : UInt64) (h : n.toNat ≤ maxIoLen) : (ThreadCall.read buf n offset).prog fd =
    .call (S := GuestMem.sum FileMethods) (.inl (.alloc n.toNat)) fun _ => getting fd buf n offset := by
  have hfits := not_gt_of_le_maxIoLen h
  have hlen : checkedLen n.toInt32 = .ok n.toNat := by rw [checkedLen_toInt32 hfits, if_neg (Nat.not_lt.mpr h)]
  obtain ⟨offset, rfl⟩ : ∃ o : Int64, offset = o.toUInt64 := ⟨offset.toInt64, (UInt64.toUInt64_toInt64 offset).symm⟩
  simp only [ThreadCall.prog]
  rw [through_execute fd buf true _ hfits, Int64.toInt64_toUInt64]
  simp only [if_true, methodPread, hlen, bind_assoc]
  rfl

/-- The other calls that transfer no bytes are one import. -/
theorem prog_plain {c : PlainCall} (hc : c ≠ .getSize) :
    ∃ (i : FileImport) (f : Int64 → Except (Option Int32) Nat) (m : FileMethod) (value : m.Resp → Int64), i.OnFile fd ∧
      c.storage.prog fd = .call (S := GuestFiles) i (fun rc => .ret (f rc)) ∧ methodImport i = value <$> host (H := FileMethods) m ∧
      (ThreadCall.plain c).prog fd = .call (S := GuestMem.sum FileMethods) (.inr m) fun r => .ret (f (value r), []) := by
  cases c with
  | getSize => exact absurd rfl hc
  | seek offset => exact ⟨.seek fd offset.toInt64 seekSet, _, .seek fd offset.toInt64 seekSet, id, rfl, rfl, (id_map _).symm, rfl⟩
  | truncate size => exact ⟨.truncate fd size.toInt64, _, .truncate fd size.toInt64, Int32.toInt64, rfl, rfl, rfl, rfl⟩
  | close => exact ⟨.close fd, _, .close fd, Int32.toInt64, rfl, rfl, rfl, rfl⟩

/-- What a read does with the answer of its method: nothing, ... -/
theorem getting_dead (n : Nat) (errno : Errno) (hneg : negErrno errno ≤ 0) :
    (do
      let rc ← deliver buf n (negErrno errno, [])
      loaded buf (decodeRc rc).reply32) = .ret (toReply (.error errno), []) := by
  simp only [deliver, if_pos hneg, Prog.pure_eq, ret_bind, reply32_negErrno]
  rfl

/-- ... or it puts the data into its buffer, if there is some. -/
theorem getting_data {data : List UInt8} {n : Nat} (hle : data.length ≤ n) (hn : n ≤ maxIoLen) :
    (do
      let rc ← deliver buf n (Int32.ofNat data.length, data)
      loaded buf (decodeRc rc).reply32) = if data = [] then loading buf 0 else delivering buf data := by
  have hmax : maxIoLen = 16777216 := rfl
  by_cases hnil : data = []
  · subst hnil
    exact loaded_ok buf 0
  · obtain ⟨hpos, hcount⟩ := ofNat_length_pos (Nat.le_trans hle hn) hnil
    simp only [deliver, if_neg hpos, sliceTo, hcount, Bytes.length_fill, if_pos hle, take_fill hle, if_neg hnil, Prog.pure_eq, ret_bind]
    refine congrArg (Prog.call _) (funext fun written => ?_)
    cases written with
    | error errno => exact congrArg (loaded buf) (reply32_negErrno errno)
    | ok u => exact congrArg (loaded buf) (reply32_ofNat (by omega))

end

/-! ### The methods -/

section
variable {P κ : Type} {Host : Sig}

/-- What the calls need of a build. -/
structure StorageHost (moves : Bool) (vol : Volume) (ioErrno : IoError → Errno) (closeFile : Int32 → FileProg P Host Int32)
    (h : FileImport → FileProg P Host Int64) (K : Machine ((Fs P).sum Host) κ) (view : κ → OsFile) : Prop where
  regular : Regular moves vol K view
  files : FileModule ioErrno h
  methods : ∀ {fd c}, FileImport.OnFile fd c → (methodImport c).through (FileMethod.inPlace ioErrno closeFile) = h c
  close : ∀ {fd g a k}, Shows fd view (!moves) g a k → ∀ e,
    wp (fileMachine guestMachine K) (h (.close fd)) (fun _ => Did fd view (!moves) (g.step e (.close fd))) (e, a, k)
  quiet : ∀ fd, (closeFile fd).Only NoWrite

variable {moves : Bool} {vol : Volume} {ioErrno : IoError → Errno} {closeFile : Int32 → FileProg P Host Int32}
  {h : FileImport → FileProg P Host Int64} {K : Machine ((Fs P).sum Host) κ} {view : κ → OsFile} {fd : Int32} {f : Stored}
  {s s' : Export × (HostFilesInner P × κ)} {tr : List (Event (GuestMem.sum (FileSig P Host)))}

/-- The host has the file, its cursor anywhere, or where it is known within the room. -/
def Has (fd : Int32) (view : κ → OsFile) (vol : Volume) (moves : Bool) (f : Stored) (s : HostFilesInner P × κ) : Prop :=
  ∃ g : GuestFile, g.stored = f ∧ KeptFile fd view vol moves g s

/-- No method touches guest memory. -/
theorem method_memory (H : StorageHost moves vol ioErrno closeFile h K view) {m : FileMethod} {r : m.Resp}
    (hrun : Runs (fileMachine guestMachine K) (m.prog ioErrno closeFile) s tr (.returned r) s') : s'.1 = s.1 := by
  have honly : (m.prog ioErrno closeFile).Only NoWrite := by
    cases m with
    | close fd => exact H.quiet fd
    | pread fd len offset => exact noWrite_preadFile ioErrno fd len offset
    | pwrite fd buf offset => exact noWrite_pwriteFile ioErrno fd buf offset
    | seek fd offset whence => exact noWrite_seek ioErrno fd offset whence
    | truncate fd size => exact noWrite_truncate ioErrno fd size
  refine hrun.invariant_of_only (I := fun t => t.1 = s.1) honly ?_ rfl
  intro t c r t' hc hm ht
  rcases c with c | c
  · obtain ⟨-, hmemory⟩ := Machine.eq_of_det hm.1
    cases c with
    | writeGuest ptr bytes => exact hc.elim
    | _ => exact hmemory.trans ht
  · exact hm.2.trans ht

/-- A method that writes. -/
theorem run_pwrite (H : StorageHost moves vol ioErrno closeFile h K view) (hhas : Has fd view vol moves f s.2) {bytes : List UInt8}
    {offset : UInt64} (hlen : bytes.length ≤ maxIoLen) (hroom : offset.toNat + bytes.length ≤ vol.room) {rc : Int32}
    (hrun : Runs (fileMachine guestMachine K) ((FileMethod.pwrite fd bytes offset).prog ioErrno closeFile) s tr (.returned rc) s') (buf : Int32) :
    ∃ f', f.does (.write buf bytes offset) ((decodeRc rc).reply32, []) f' ∧ Has fd view vol moves f' s'.2 := by
  have hmax : maxIoLen = 16777216 := rfl
  obtain ⟨g, rfl, hshows, hsound⟩ := hhas
  obtain ⟨-, hafter, hrc⟩ := hrun.of_wp (wp_pwriteFile ioErrno H.regular hshows hlen hroom)
  have hafter := Shows.weaken hafter (known_cases moves)
  cases hlive : g.live with
  | false =>
    simp only [hlive, Bool.false_eq_true, if_false, Outcome.returned.injEq] at hrc hafter
    refine ⟨g.stored, ?_, g, rfl, hafter, hsound⟩
    simp only [Stored.does, Stored.serve, GuestFile.stored, hlive, if_true, hrc, reply32_negErrno]
  | true =>
    rw [if_pos hlive] at hrc hafter
    refine ⟨_, ?_, _, rfl, hafter, sound_write hsound hroom rfl⟩
    have hreply : (decodeRc rc).reply32 = .ok bytes.length := by rw [Outcome.returned.inj hrc, reply32_ofNat (by omega)]
    simp only [Stored.does, Stored.serve, GuestFile.stored, hlive, Bool.true_eq_false, if_false, hreply]

/-- A method that reads. -/
theorem run_pread (H : StorageHost moves vol ioErrno closeFile h K view) (hhas : Has fd view vol moves f s.2) {n : Nat}
    {offset : UInt64} (hlen : n ≤ maxIoLen) (hroom : offset.toNat + n ≤ vol.room) {answer : Int32 × List UInt8}
    (hrun : Runs (fileMachine guestMachine K) ((FileMethod.pread fd n offset).prog ioErrno closeFile) s tr (.returned answer) s') :
    Has fd view vol moves f s'.2 ∧ ((f.live = false ∧ answer = (negErrno .ebadf, [])) ∨
      (f.live = true ∧ answer = (Int32.ofNat (dataAt f.content n offset.toNat).length, dataAt f.content n offset.toNat))) := by
  obtain ⟨g, rfl, hshows, hsound⟩ := hhas
  obtain ⟨-, hafter, hanswer⟩ := hrun.of_wp (wp_preadFile ioErrno H.regular hshows hlen hroom)
  refine ⟨⟨g, rfl, Shows.weaken hafter (known_cases moves), hsound⟩, ?_⟩
  cases hlive : g.live with
  | false =>
    simp only [hlive, Bool.false_eq_true, if_false, Outcome.returned.injEq] at hanswer
    exact .inl ⟨hlive, hanswer⟩
  | true =>
    simp only [hlive, if_true, Outcome.returned.injEq] at hanswer
    exact .inr ⟨hlive, hanswer⟩

/-- The method of a call that is one import. -/
theorem run_plain (H : StorageHost moves vol ioErrno closeFile h K view) (hhas : Has fd view vol moves f s.2) {c : PlainCall}
    (hin : c.storage.InBounds vol) {i : FileImport} {reply : Int64 → Except (Option Int32) Nat} {m : FileMethod} {value : m.Resp → Int64}
    (hon : i.OnFile fd) (hprog : c.storage.prog fd = .call (S := GuestFiles) i (fun rc => .ret (reply rc)))
    (himport : methodImport i = value <$> host (H := FileMethods) m) {r : m.Resp}
    (hrun : Runs (fileMachine guestMachine K) (m.prog ioErrno closeFile) s tr (.returned r) s') :
    ∃ f', f.does (.plain c) (reply (value r), []) f' ∧ Has fd view vol moves f' s'.2 := by
  obtain ⟨g, rfl, hshows, hsound⟩ := hhas
  obtain ⟨e, a, k⟩ := s
  have hwp := wp_storage H.regular H.files hshows hsound (H.close hshows) (e := e) hin
  have hmethod : h i = value <$> m.prog ioErrno closeFile := by
    rw [← H.methods hon, himport, through_map, through_host]
  rw [hprog] at hwp
  have hwp : wp (fileMachine guestMachine K) (h i >>= fun rc => Prog.ret (reply rc))
      (fun _ => Served fd view moves (g.storage e c.storage)) (e, a, k) := hwp
  rw [hmethod, wp_bind, wp_map] at hwp
  obtain ⟨hreply, -, hafter⟩ := hrun.of_wp hwp
  refine ⟨(g.storage e c.storage).2.2.stored, ?_, _, rfl, hafter, sound_storage hsound hin⟩
  have hreply : reply (value r) = toReply (g.storage e c.storage).1 := by simpa using hreply
  simp only [Stored.does, Stored.serve, plain_stored e, hreply]

/-! ### The size -/

/-- The position that `os_file_get_size` seeks back to is within the room, or it is refused. Where positional calls move the cursor, it may be any. -/
def Position (vol : Volume) (moves : Bool) (pos : Decoded UInt64) : Prop := moves = false → (StorageCall.seek pos.value).InBounds vol

/-- The size that is going to be returned: it was found, or the fd was closed. -/
def Sized (f : Stored) (size : Decoded UInt64) (v : ThreadReply) : Prop :=
  (∃ n, ¬n > maxOffset ∧ size = osWasiFileSeek (Int64.ofNat n) ∧ v = (.ok n, [])) ∨ (f.live = false ∧ size.value = (-1 : Int64).toUInt64 ∧
    v = (toReply (.error .ebadf), []))

/-- The first seek. -/
theorem run_tell (H : StorageHost moves vol ioErrno closeFile h K view) (hhas : Has fd view vol moves f s.2) {rc : Int64}
    (hrun : Runs (fileMachine guestMachine K) ((FileMethod.seek fd (0 : UInt64).toInt64 seekCur).prog ioErrno closeFile) s tr (.returned rc) s') :
    Has fd view vol moves f s'.2 ∧ Position vol moves (osWasiFileSeek rc) := by
  obtain ⟨g, rfl, hshows, hsound⟩ := hhas
  obtain ⟨rc, hrc, -, hafter, htold⟩ := hrun.of_wp (wp_tell H.regular hshows hsound)
  cases hrc
  refine ⟨⟨g, rfl, hafter, hsound⟩, ?_⟩
  intro hmoves
  rcases htold hmoves with ⟨-, rfl⟩ | ⟨-, rfl⟩
  · have hcursor := hsound.cursor hmoves
    obtain ⟨hvalue, hnat, -⟩ := reply64_ofNat (not_gt_of_le_room hcursor)
    rw [hvalue]
    exact .inl (by rw [hnat]; exact hcursor)
  · rw [osWasiFileSeek_negErrno]
    exact .inr (by decide)

/-- Where the cursor is does not matter. -/
theorem has_cursor {g : GuestFile} {n : Nat} (hn : n ≤ vol.room) (hsound : g.Sound vol moves) {t : HostFilesInner P × κ}
    (hshows : Shows fd view (!moves) { g with file.cursor := n } t.1 t.2) : Has fd view vol moves g.stored t :=
  ⟨{ g with file.cursor := n }, rfl, hshows, hsound.length, fun _ => hn⟩

/-- The seek to the end: the call is done. -/
theorem run_measure (H : StorageHost moves vol ioErrno closeFile h K view) (hhas : Has fd view vol moves f s.2) {rc : Int64}
    (hrun : Runs (fileMachine guestMachine K) ((FileMethod.seek fd (0 : UInt64).toInt64 seekEnd).prog ioErrno closeFile) s tr (.returned rc) s') :
    ∃ v, f.does (.plain .getSize) v f ∧ Has fd view vol moves f s'.2 ∧ Sized f (osWasiFileSeek rc) v := by
  obtain ⟨g, rfl, hshows, hsound⟩ := hhas
  cases hlive : g.live with
  | false =>
    obtain ⟨hrc, rfl⟩ := hrun.of_wp (wp_seek_dead hshows hlive (0 : UInt64).toInt64 seekEnd)
    cases hrc
    refine ⟨_, ?_, ⟨g, rfl, hshows, hsound⟩, .inr ⟨hlive, ?_, rfl⟩⟩
    · simp only [Stored.does, Stored.serve, Stored.plain, GuestFile.stored, hlive, if_true]
    · rw [osWasiFileSeek_negErrno]
  | true =>
    obtain ⟨-, hrc, hafter⟩ := hrun.of_wp (wp_end H.regular hshows hsound hlive)
    cases hrc
    refine ⟨_, ?_, has_cursor hsound.length hsound hafter, .inl ⟨_, not_gt_of_le_room hsound.length, rfl, rfl⟩⟩
    simp only [Stored.does, Stored.serve, Stored.plain, GuestFile.stored, hlive, Bool.true_eq_false, if_false]
    rfl

/-- The seek back. -/
theorem run_restore (H : StorageHost moves vol ioErrno closeFile h K view) (hhas : Has fd view vol moves f s.2) {pos : Decoded UInt64}
    (hpos : Position vol moves pos) {rc : Int64}
    (hrun : Runs (fileMachine guestMachine K) ((FileMethod.seek fd pos.value.toInt64 seekSet).prog ioErrno closeFile) s tr (.returned rc) s') :
    Has fd view vol moves f s'.2 ∧ (f.live = false → rc = (negErrno .ebadf).toInt64) := by
  obtain ⟨g, rfl, hshows, hsound⟩ := hhas
  cases hlive : g.live with
  | false =>
    obtain ⟨hrc, rfl⟩ := hrun.of_wp (wp_seek_dead hshows hlive pos.value.toInt64 seekSet)
    exact ⟨⟨g, rfl, hshows, hsound⟩, fun _ => Outcome.returned.inj hrc⟩
  | true =>
    refine ⟨?_, fun hdead => by cases hlive.symm.trans hdead⟩
    cases hmoves : moves with
    | true =>
      subst hmoves
      obtain ⟨-, -, -, hafter⟩ := hrun.of_wp (wp_seek_moves H.regular rfl hshows _ _)
      exact ⟨g, rfl, hafter, hsound⟩
    | false =>
      subst hmoves
      have hbounds := hpos rfl
      obtain ⟨-, -, hafter⟩ := hrun.of_wp (wp_seek ioErrno H.regular hshows fun _ => steady_set (toInt_le_room hbounds))
      have hafter := Shows.weaken hafter (cursorAfter_seek false _ _)
      rcases step_seek_set g s.1 fd pos.value with ⟨hdead, -⟩ | ⟨-, -, hstep⟩ | ⟨-, hout, hstep⟩
      · cases hlive.symm.trans hdead
      · rw [hstep] at hafter
        exact ⟨g, rfl, hafter, hsound⟩
      · rw [hstep] at hafter
        exact has_cursor (hbounds.resolve_right hout) hsound hafter

/-- What is returned is the size that was found. -/
theorem reply_of_sized {size : Decoded UInt64} {v : ThreadReply} (hsized : Sized f size v) {rc : Int64}
    (hrc : f.live = false → rc = (negErrno .ebadf).toInt64) (pos : Decoded UInt64) :
    (Decoded.reply64 ⟨size.value, (osWasiFileSeek rc).errno <|> size.errno <|> pos.errno⟩, []) = v := by
  rcases hsized with ⟨n, hn, rfl, rfl⟩ | ⟨hdead, hvalue, rfl⟩
  · obtain ⟨hvalue, hnat, hne⟩ := reply64_ofNat hn
    simp only [hvalue, Decoded.reply64, if_neg hne, hnat]
  · simp only [hrc hdead, osWasiFileSeek_negErrno, hvalue, Decoded.reply64, if_true]
    rfl

/-! ### The simulation -/

section
variable {ι : Type} {B : Buffers ι}

/-- The states of the threads and of the object. The buffers are in the memory. -/
def Same (B : Buffers ι) (fd : Int32) (view : κ → OsFile) (vol : Volume) (moves : Bool) (s : Export × (HostFilesInner P × κ)) (t : Stored) : Prop :=
  (∀ i, s.1.Room (B.start i) (B.size i)) ∧ Has fd view vol moves t s.2

/-- What is left of a call that is not done, by how far it is. -/
inductive Stage (fd : Int32) (vol : Volume) (moves : Bool) (e : Export) (p : Prog (GuestMem.sum FileMethods) ThreadReply) : ThreadCall → Prop where
  | whole {c : ThreadCall} : p = c.prog fd → Stage fd vol moves e p c
  | taking {buf : Int32} {bytes : List UInt8} {offset : UInt64} : e.readGuest buf (Int32.ofNat bytes.length) = .ok bytes →
      p = taking fd buf bytes.length offset → Stage fd vol moves e p (.write buf bytes offset)
  | handing {buf : Int32} {bytes : List UInt8} {offset : UInt64} : p = handing fd bytes offset → Stage fd vol moves e p (.write buf bytes offset)
  | getting {buf : Int32} {n : UInt32} {offset : UInt64} : p = getting fd buf n offset → Stage fd vol moves e p (.read buf n offset)
  | measuring {pos : Decoded UInt64} : Position vol moves pos → p = measuring fd pos → Stage fd vol moves e p (.plain .getSize)

/-- What is left of a call that is done. -/
inductive Late (fd : Int32) (vol : Volume) (moves : Bool) (e : Export) (f : Stored) (v : ThreadReply)
    (p : Prog (GuestMem.sum FileMethods) ThreadReply) : ThreadCall → Prop where
  | returning {c : ThreadCall} : p = .ret v → Late fd vol moves e f v p c
  | delivering {buf : Int32} {n : UInt32} {offset : UInt64} {data : List UInt8} : data.length ≤ n.toNat → v = (.ok data.length, data) →
      p = delivering buf data → Late fd vol moves e f v p (.read buf n offset)
  | loading {buf : Int32} {n : UInt32} {offset : UInt64} {data : List UInt8} : e.readGuest buf (Int32.ofNat data.length) = .ok data →
      data.length ≤ n.toNat → v = (.ok data.length, data) → p = loading buf data.length → Late fd vol moves e f v p (.read buf n offset)
  | restoring {pos size : Decoded UInt64} : Position vol moves pos → Sized f size v → p = restoring fd pos size →
      Late fd vol moves e f v p (.plain .getSize)

/-- What is left of a thread's call that is not done. -/
def Pending (B : Buffers ι) (fd : Int32) (vol : Volume) (moves : Bool) (s : Export × (HostFilesInner P × κ)) (_ : Stored) (i : ι) (c : ThreadCall)
    (p : Prog (GuestMem.sum FileMethods) ThreadReply) : Prop :=
  c.Fit vol B i ∧ Stage fd vol moves s.1 p c

/-- What is left of one that is done. -/
def Done (B : Buffers ι) (fd : Int32) (vol : Volume) (moves : Bool) (s : Export × (HostFilesInner P × κ)) (t : Stored) (i : ι) (c : ThreadCall)
    (v : ThreadReply) (p : Prog (GuestMem.sum FileMethods) ThreadReply) : Prop :=
  c.Fit vol B i ∧ Late fd vol moves s.1 t v p c

variable {i x : ι} {t : Stored} {a : (GuestMem.sum FileMethods).Cmd}
  {k : (GuestMem.sum FileMethods).Resp a → Prog (GuestMem.sum FileMethods) ThreadReply} {r : (GuestMem.sum FileMethods).Resp a}

/-- An access of a thread to guest memory. -/
theorem step_guest {c : GuestMem.Cmd} {r : c.Resp} (hM : mutexMachine ioErrno closeFile K s (.inl c) r s') :
    r = (s.1.handle c).1 ∧ s'.1 = (s.1.handle c).2 ∧ s'.2 = s.2 :=
  ⟨(Machine.eq_of_det hM.1).1, (Machine.eq_of_det hM.1).2, hM.2⟩

/-- The buffers stay in the memory. -/
theorem Same.stored (h : Same B fd view vol moves s t) {ptr : Int32} {bytes : List UInt8} (hmemory : s'.1 = s.1.afterWrite ptr bytes)
    (hrest : s'.2 = s.2) : Same B fd view vol moves s' t := by
  refine ⟨fun i => ?_, hrest ▸ h.2⟩
  rw [hmemory]
  exact Export.room_afterWrite.mpr (h.1 i)

/-- The state of the file changes and the memory does not. -/
theorem Same.moved {t' : Stored} (h : Same B fd view vol moves s t) (hmemory : s'.1 = s.1) (hhas : Has fd view vol moves t' s'.2) :
    Same B fd view vol moves s' t' :=
  ⟨fun i => hmemory ▸ h.1 i, hhas⟩

/-- A call that is not done has a command to issue. -/
theorem Stage.exists_call {e : Export} {p : Prog (GuestMem.sum FileMethods) ThreadReply} {c : ThreadCall} (h : Stage fd vol moves e p c)
    (hfit : c.Fit vol B i) : ∃ a k, p = .call a k := by
  cases h with
  | whole hp =>
    cases c with
    | write buf bytes offset => exact ⟨_, _, hp.trans (prog_write fd buf bytes offset (le_maxIoLen hfit.1))⟩
    | read buf n offset => exact ⟨_, _, hp.trans (prog_read fd buf offset (le_maxIoLen hfit.1))⟩
    | plain c =>
      by_cases hc : c = .getSize
      · subst hc
        exact ⟨_, _, hp.trans (prog_getSize fd)⟩
      · obtain ⟨_, _, _, _, -, -, -, hprog⟩ := prog_plain fd hc
        exact ⟨_, _, hp.trans hprog⟩
    | store ptr bytes => exact ⟨_, _, hp⟩
  | taking _ hp => exact ⟨_, _, hp⟩
  | handing hp => exact ⟨_, _, hp⟩
  | getting hp => exact ⟨_, _, hp⟩
  | measuring _ hp => exact ⟨_, _, hp⟩

/-- One that is done has one, or it returns. -/
theorem Late.returns_or_calls {e : Export} {v : ThreadReply} {p : Prog (GuestMem.sum FileMethods) ThreadReply} {c : ThreadCall}
    (h : Late fd vol moves e t v p c) : p = .ret v ∨ ∃ a k, p = .call a k := by
  cases h with
  | returning hp => exact .inl hp
  | delivering _ _ hp => exact .inr ⟨_, _, hp⟩
  | loading _ _ _ hp => exact .inr ⟨_, _, hp⟩
  | restoring _ _ hp => exact .inr ⟨_, _, hp⟩

/-! #### What a command does to the other threads -/

/-- A thread writes to nobody else's buffer. -/
theorem writes_apart {ptr : Int32} {bytes : List UInt8} {k : Except Errno Unit → Prog (GuestMem.sum FileMethods) ThreadReply}
    (hactive : Active (Pending B fd vol moves) (Done B fd vol moves) s t i (.call (S := GuestMem.sum FileMethods) (.inl (.writeGuest ptr bytes)) k)) :
    ∀ j, j ≠ i → RangesApart (B.start j) (B.size j) ptr bytes.length := by
  rcases hactive with ⟨c, hfit, hstage⟩ | ⟨c, v, hfit, hlate⟩
  · cases hstage with
    | whole hp =>
      cases c with
      | write buf data offset =>
        rw [prog_write fd buf data offset (le_maxIoLen hfit.1)] at hp
        cases hp
        exact fun j hj => apart_of_ne hfit.1 hj
      | read buf n offset =>
        rw [prog_read fd buf offset (le_maxIoLen hfit.1)] at hp
        cases hp
      | plain c =>
        by_cases hc : c = .getSize
        · subst hc
          cases hp
        · obtain ⟨_, _, _, _, -, -, -, hprog⟩ := prog_plain fd hc
          rw [hprog] at hp
          cases hp
      | store ptr' data =>
        cases hp
        exact hfit
    | taking _ hp => cases hp
    | handing hp => cases hp
    | getting hp => cases hp
    | measuring _ hp => cases hp
  · cases hlate with
    | returning hp => cases hp
    | @delivering buf n offset data hle _ hp =>
      cases hp
      obtain ⟨hptr, hstart, hend⟩ := hfit.1
      exact fun j hj => apart_of_ne ⟨hptr, hstart, by omega⟩ hj
    | loading _ _ _ hp => cases hp
    | restoring _ _ hp => cases hp

/-- What another thread can read in its buffer stays there. -/
theorem reads_kept (H : StorageHost moves vol ioErrno closeFile h K view)
    (hactive : Active (Pending B fd vol moves) (Done B fd vol moves) s t i (.call a k)) (hM : mutexMachine ioErrno closeFile K s a r s') (hx : x ≠ i)
    {buf len : Int32} {n : Nat} {data : List UInt8} (hhas : B.Has x buf n) (hle : data.length ≤ n) (hread : s.1.readGuest buf len = .ok data) :
    s'.1.readGuest buf len = .ok data := by
  rcases a with c | m
  · obtain ⟨-, hmemory, -⟩ := step_guest hM
    cases c with
    | writeGuest ptr bytes =>
      rw [show s'.1 = s.1.afterWrite ptr bytes from hmemory]
      obtain ⟨hptr, hstart, hend⟩ := hhas
      exact Export.readGuest_afterWrite_apart hread (apart_of_has ⟨hptr, hstart, by omega⟩ (writes_apart hactive x hx))
    | _ => rw [show s'.1 = s.1 from hmemory, hread]
  · obtain ⟨tr, hrun⟩ := hM
    rw [method_memory H hrun, hread]

/-! #### A command of a call that is not done -/

/-- The call goes on, or it is done. -/
def Goes (B : Buffers ι) (fd : Int32) (view : κ → OsFile) (vol : Volume) (moves : Bool) (s' : Export × (HostFilesInner P × κ)) (t : Stored) (i : ι)
    (c : ThreadCall) (p : Prog (GuestMem.sum FileMethods) ThreadReply) : Prop :=
  (Same B fd view vol moves s' t ∧ Pending B fd vol moves s' t i c p) ∨
    ∃ v t', t.does c v t' ∧ Same B fd view vol moves s' t' ∧ Done B fd vol moves s' t' i c v p

/-- The first step of a call keeps the file and the call at one of their stages, ... -/
theorem goes_whole (H : StorageHost moves vol ioErrno closeFile h K view) (hR : Same B fd view vol moves s t) {c : ThreadCall}
    (hfit : c.Fit vol B i) (hp : .call a k = c.prog fd) (hM : mutexMachine ioErrno closeFile K s a r s') :
    Goes B fd view vol moves s' t i c (k r) := by
  cases c with
  | write buf bytes offset =>
    rw [prog_write fd buf bytes offset (le_maxIoLen hfit.1)] at hp
    cases hp
    obtain ⟨-, hmemory, hrest⟩ := step_guest hM
    refine .inl ⟨hR.stored hmemory hrest, hfit, .taking ?_ rfl⟩
    rw [hmemory]
    exact Export.readGuest_afterWrite (room_of_has hfit.1 (hR.1 i))
  | read buf n offset =>
    rw [prog_read fd buf offset (le_maxIoLen hfit.1)] at hp
    cases hp
    obtain ⟨-, hmemory, hrest⟩ := step_guest hM
    exact .inl ⟨hR.moved hmemory (hrest ▸ hR.2), hfit, .getting rfl⟩
  | plain c =>
    by_cases hc : c = .getSize
    · subst hc
      rw [prog_getSize] at hp
      cases hp
      obtain ⟨tr, hrun⟩ := hM
      obtain ⟨hhas, hpos⟩ := run_tell H hR.2 hrun
      exact .inl ⟨hR.moved (method_memory H hrun) hhas, hfit, .measuring hpos rfl⟩
    · obtain ⟨call, reply, m, value, hon, hstorage, himport, hprog⟩ := prog_plain fd hc
      rw [hprog] at hp
      cases hp
      obtain ⟨tr, hrun⟩ := hM
      obtain ⟨t', hdoes, hhas⟩ := run_plain H hR.2 hfit hon hstorage himport hrun
      exact .inr ⟨_, t', hdoes, hR.moved (method_memory H hrun) hhas, hfit, .returning rfl⟩
  | store ptr bytes =>
    cases hp
    obtain ⟨-, hmemory, hrest⟩ := step_guest hM
    exact .inr ⟨(.ok 0, []), t, rfl, hR.stored hmemory hrest, hfit, .returning rfl⟩

/-- A read has its answer. -/
theorem goes_getting (H : StorageHost moves vol ioErrno closeFile h K view) (hR : Same B fd view vol moves s t) {buf : Int32} {n : UInt32}
    {offset : UInt64} (hfit : (ThreadCall.read buf n offset).Fit vol B i) (hp : .call a k = getting fd buf n offset)
    (hM : mutexMachine ioErrno closeFile K s a r s') : Goes B fd view vol moves s' t i (.read buf n offset) (k r) := by
  cases hp
  obtain ⟨tr, hrun⟩ := hM
  have hmemory := method_memory H hrun
  obtain ⟨hhas, ⟨hdead, rfl⟩ | ⟨hlive, rfl⟩⟩ := run_pread H hR.2 (le_maxIoLen hfit.1) hfit.2 hrun
  · refine .inr ⟨(toReply (.error .ebadf), []), t, ?_, hR.moved hmemory hhas, hfit, .returning (getting_dead buf n.toNat .ebadf (by decide))⟩
    simp only [Stored.does, Stored.serve, hdead, if_true]
  · generalize hdata : dataAt t.content n.toNat offset.toNat = data
    have hle : data.length ≤ n.toNat := hdata ▸ length_dataAt_le _ _ _
    refine .inr ⟨(.ok data.length, data), t, ?_, hR.moved hmemory hhas, hfit, ?_⟩
    · simp only [Stored.does, Stored.serve, hlive, Bool.true_eq_false, if_false, hdata]
    · have hrest := getting_data buf hle (le_maxIoLen hfit.1)
      by_cases hnil : data = []
      · subst hnil
        refine .loading ?_ (Nat.zero_le _) rfl hrest
        have hroom := (room_of_has hfit.1 ((hR.moved hmemory hhas).1 i)).mono (Nat.zero_le _)
        have hread := Export.readGuest_of_room hroom
        simpa using hread
      · rw [if_neg hnil] at hrest
        exact .delivering hle rfl hrest

/-- ... and so does every other step. -/
theorem goes (H : StorageHost moves vol ioErrno closeFile h K view) (hR : Same B fd view vol moves s t) {c : ThreadCall} (hfit : c.Fit vol B i)
    (hstage : Stage fd vol moves s.1 (.call a k) c) (hM : mutexMachine ioErrno closeFile K s a r s') :
    Goes B fd view vol moves s' t i c (k r) := by
  cases hstage with
  | whole hp => exact goes_whole H hR hfit hp hM
  | taking hread hp =>
    cases hp
    obtain ⟨hr, hmemory, hrest⟩ := step_guest hM
    cases hr.trans hread
    exact .inl ⟨hR.moved hmemory (hrest ▸ hR.2), hfit, .handing rfl⟩
  | handing hp =>
    cases hp
    obtain ⟨tr, hrun⟩ := hM
    obtain ⟨t', hdoes, hhas⟩ := run_pwrite H hR.2 (le_maxIoLen hfit.1) hfit.2 hrun _
    exact .inr ⟨_, t', hdoes, hR.moved (method_memory H hrun) hhas, hfit, .returning rfl⟩
  | getting hp => exact goes_getting H hR hfit hp hM
  | measuring hpos hp =>
    cases hp
    obtain ⟨tr, hrun⟩ := hM
    obtain ⟨v, hdoes, hhas, hsized⟩ := run_measure H hR.2 hrun
    exact .inr ⟨v, t, hdoes, hR.moved (method_memory H hrun) hhas, hfit, .restoring hpos hsized rfl⟩

/-- A command of a call that is done. -/
theorem rest_goes (H : StorageHost moves vol ioErrno closeFile h K view) (hR : Same B fd view vol moves s t) {c : ThreadCall} {v : ThreadReply}
    (hfit : c.Fit vol B i) (hlate : Late fd vol moves s.1 t v (.call a k) c) (hM : mutexMachine ioErrno closeFile K s a r s') :
    Same B fd view vol moves s' t ∧ Late fd vol moves s'.1 t v (k r) c := by
  cases hlate with
  | returning hp => cases hp
  | @delivering buf n offset data hle hv hp =>
    cases hp
    obtain ⟨hr, hmemory, hrest⟩ := step_guest hM
    have hroom : s.1.Room buf data.length := (room_of_has hfit.1 (hR.1 i)).mono hle
    have hr : r = .ok () := by
      rcases s.1.writeAnswer_cases buf data with ⟨-, hok⟩ | ⟨hno, -⟩
      · exact hr.trans hok
      · exact absurd hroom hno
    refine ⟨hR.stored hmemory hrest, .loading ?_ hle hv ?_⟩
    · rw [hmemory]
      exact Export.readGuest_afterWrite hroom
    · rw [hr]
      exact loaded_ok buf data.length
  | loading hread hle hv hp =>
    cases hp
    obtain ⟨hr, hmemory, hrest⟩ := step_guest hM
    cases hr.trans hread
    exact ⟨hR.moved hmemory (hrest ▸ hR.2), .returning (congrArg Prog.ret hv.symm)⟩
  | restoring hpos hsized hp =>
    cases hp
    obtain ⟨tr, hrun⟩ := hM
    obtain ⟨hhas, hdead⟩ := run_restore H hR.2 hpos hrun
    exact ⟨hR.moved (method_memory H hrun) hhas, .returning (congrArg Prog.ret (reply_of_sized hsized hdead _))⟩

/-- The threads simulate the object. -/
theorem simulates (H : StorageHost moves vol ioErrno closeFile h K view) (B : Buffers ι) (fd : Int32) :
    Simulates (ThreadCall.prog fd) (mutexMachine ioErrno closeFile K) Stored.does (fun i c => c.Fit vol B i) (Same B fd view vol moves)
      (Pending B fd vol moves) (Done B fd vol moves) where
  start hfit := ⟨hfit, .whole rfl⟩
  issue hR hj hM := goes H hR hj.1 hj.2 hM
  rest hR hd hM := by
    obtain ⟨hR', hlate⟩ := rest_goes H hR hd.1 hd.2 hM
    exact ⟨hR', hd.1, hlate⟩
  last := by
    rintro s t i c v - ⟨hfit, hstage⟩
    obtain ⟨a, k, hp⟩ := hstage.exists_call hfit
    cases hp
  value := by
    rintro s t i c v v' ⟨-, hlate⟩
    rcases hlate.returns_or_calls with hp | ⟨a, k, hp⟩
    · cases hp
      rfl
    · cases hp
  safe := by
    rintro s t i (⟨c, hfit, hstage⟩ | ⟨c, v, -, hlate⟩)
    · obtain ⟨a, k, hp⟩ := hstage.exists_call hfit
      cases hp
    · rcases hlate.returns_or_calls with hp | ⟨a, k, hp⟩
      · cases hp
      · cases hp
  othersJ := by
    rintro s t s' i x a k r c p hx hactive hM ⟨hfit, hstage⟩
    refine ⟨hfit, ?_⟩
    cases hstage with
    | whole hp => exact .whole hp
    | taking hread hp => exact .taking (reads_kept H hactive hM hx hfit.1 (Nat.le_refl _) hread) hp
    | handing hp => exact .handing hp
    | getting hp => exact .getting hp
    | measuring hpos hp => exact .measuring hpos hp
  othersD := by
    rintro s t s' i x a k r c v p hx hactive hM ⟨hfit, hlate⟩
    refine ⟨hfit, ?_⟩
    cases hlate with
    | returning hp => exact .returning hp
    | delivering hle hv hp => exact .delivering hle hv hp
    | loading hread hle hv hp => exact .loading (reads_kept H hactive hM hx hfit.1 hle hread) hle hv hp
    | restoring hpos hsized hp => exact .restoring hpos hsized hp
  keepJ hj _ := hj
  keepD := by
    rintro s t t' i c v c' v' p ⟨hfit, hlate⟩ hdoes
    refine ⟨hfit, ?_⟩
    cases hlate with
    | returning hp => exact .returning hp
    | delivering hle hv hp => exact .delivering hle hv hp
    | loading hread hle hv hp => exact .loading hread hle hv hp
    | restoring hpos hsized hp =>
      refine .restoring hpos (hsized.imp_right fun hdead => ⟨?_, hdead.2⟩) hp
      have hlive := live_serve (c := c') hdead.1
      rwa [← show (v', t') = t.serve c' from hdoes] at hlive

end

end

/-- The module of Unix over a volume. -/
theorem unix_storageHost (lc : Libc) (vol : Volume) :
    StorageHost false vol (Unix.ioErrno lc) Unix.closeFile (Unix.fileProg lc) (Unix.disk lc vol) Prod.fst where
  regular := regular_unix lc vol
  files := unix_module lc
  methods hon := through_unixMethods lc hon
  close hshows _ := wp_unix_import lc hshows rfl trivial
  quiet := noWrite_unixClose

/-- The module of Windows over a volume. -/
theorem windows_storageHost (toUppercase : Str → Str) (vol : Volume) :
    StorageHost true vol Windows.ioErrno Windows.closeFile (Windows.fileProg toUppercase) (Windows.disk vol) Prod.fst where
  regular := regular_windows vol
  files := windows_module toUppercase
  methods hon := through_windowsMethods toUppercase hon
  close hshows _ := wp_windows_import toUppercase hshows rfl trivial
  quiet := noWrite_windowsClose

end StorageThreadsAux

open StorageThreadsAux

/-- The threads of a guest seem to make their calls on the fd one after another: whatever they see of their calls, the object shows, and the fd and
the content are those of the object. -/
def SeemsAtomic {ι : Type} [DecidableEq ι] (B : Buffers ι) (vol : Volume) {P κ : Type} {Host : Sig} (ioErrno : IoError → Errno)
    (closeFile : Int32 → FileProg P Host Int32) (K : Machine ((Fs P).sum Host) κ) (view : κ → OsFile) (fd : Int32) (e : Export)
    (s : HostFilesInner P × κ) : Prop :=
  ∀ (log : List (Move (GuestMem.sum FileMethods) ι ThreadCall ThreadReply (Export × (HostFilesInner P × κ)))) (last : Pool _ ι _ _ _),
    Pool.Run (ThreadCall.prog fd) (mutexMachine ioErrno closeFile K) (e, s) log last →
    (∀ m ∈ log, ∀ c, m.action = .start c → c.Fit vol B m.who) →
    ∃ calls t, Atomic.Run Stored.does ⟨true, (view s.2).content⟩ (history log) calls t ∧
      (last.state.2.1.files.find fd).isSome = t.live ∧ (view last.state.2.2).content = t.content

namespace StorageThreadsAux

/-- The threads of a guest on either host seem to make their calls one after another. -/
theorem seemsAtomic {ι : Type} [DecidableEq ι] {B : Buffers ι} {P κ : Type} {Host : Sig} {moves : Bool} {vol : Volume} {ioErrno : IoError → Errno}
    {closeFile : Int32 → FileProg P Host Int32} {h : FileImport → FileProg P Host Int64} {K : Machine ((Fs P).sum Host) κ} {view : κ → OsFile}
    (H : StorageHost moves vol ioErrno closeFile h K view) {fd : Int32} {e : Export} (hroom : ∀ i, e.Room (B.start i) (B.size i))
    {a : HostFilesInner P} {k : κ} (hopen : a.files.find fd ≠ none) (hsound : (⟨true, view k⟩ : GuestFile).Sound vol moves) :
    SeemsAtomic B vol ioErrno closeFile K view fd e (a, k) := by
  intro log last hrun hfit
  have hstart : Same B fd view vol moves (e, a, k) ⟨true, (view k).content⟩ :=
    ⟨hroom, ⟨true, view k⟩, rfl, ⟨Option.isSome_iff_ne_none.mpr hopen, rfl, fun _ _ => rfl⟩, hsound⟩
  obtain ⟨calls, t, hatomic, -, g, rfl, hshows, -⟩ := (simulates H B fd).linearizes hstart hrun hfit
  exact ⟨calls, g.stored, hatomic, hshows.live, hshows.content⟩

end StorageThreadsAux

/-- On every host, however many threads of the guest use an fd, and however their accesses to guest memory and the methods of the module
interleave, their calls seem to be done one after another, as long as they stay within the room that the volume has. -/
theorem storage_linearizable (ι : Type) [DecidableEq ι] (B : Buffers ι) (vol : Volume) (fd : Int32) (e : Export)
    (hroom : ∀ i, e.Room (B.start i) (B.size i)) (f : OsFile) (hlength : f.content.length ≤ vol.room) :
    (∀ lc, ∀ a : HostFilesInner Str, a.files.find fd ≠ none → f.cursor ≤ vol.room →
      SeemsAtomic B vol (Unix.ioErrno lc) Unix.closeFile (Unix.disk lc vol) Prod.fst fd e (a, f, ())) ∧
    ∀ maps, ∀ a : HostFilesInner WinPath, a.files.find fd ≠ none →
      SeemsAtomic B vol Windows.ioErrno Windows.closeFile (Windows.disk vol) Prod.fst fd e (a, f, maps, ()) := by
  constructor
  · intro lc a hopen hcursor
    exact seemsAtomic (unix_storageHost lc vol) hroom hopen ⟨hlength, fun _ => hcursor⟩
  · intro maps a hopen
    exact seemsAtomic (windows_storageHost id vol) hroom hopen ⟨hlength, nofun⟩

namespace StorageThreadsAux

open HostParityAux

/-- Two threads, with a byte each. -/
def twoBytes : Buffers Bool where
  start i := if i then 0 else 1
  size _ := 1
  size_le _ := by decide
  apart {i j} hij := by
    cases i <;> cases j
    · exact absurd rfl hij
    · exact .inr (by decide)
    · exact .inl (by decide)
    · exact absurd rfl hij

/-- A step of theirs. -/
abbrev twoMachine : Machine (GuestMem.sum FileMethods) (Export × (HostFilesInner Str × (OsFile × Unit))) :=
  mutexMachine (Unix.ioErrno linux) Unix.closeFile (Unix.disk linux gigabyte)

/-- An access to guest memory, ... -/
theorem access_step (f : OsFile) {e e' : Export} {c : GuestMem.Cmd} {r : c.Resp} (h : e.handle c = (r, e')) :
    twoMachine (e, unixAt f) (.inl c) r (e', unixAt f) := ⟨h.symm, rfl⟩

/-- ... and the two methods. -/
theorem method_pwrite (e : Export) (f : OsFile) (byte : UInt8) (offset : UInt64) (hroom : offset.toNat + 1 ≤ 2 ^ 30) :
    twoMachine (e, unixAt f) (.inr (.pwrite 20000 [byte] offset)) 1
      (e, unixAt { f with content := writtenAt f.content [byte] offset.toNat }) := by
  refine ⟨[⟨.inr (.inl (.files (.get 20000))), some ⟨7⟩⟩, ⟨.inr (.inr (.inl (.writeAt ⟨7⟩ [byte] offset))), .ok 1⟩], ?_⟩
  have hwrite : Unix.regularFile linux gigabyte f (.writeAt ⟨7⟩ [byte] offset) (.ok 1)
      { f with content := writtenAt f.content [byte] offset.toNat } := by
    refine ⟨fun _ => ⟨rfl, rfl⟩, fun hout => ?_⟩
    have hmax : maxOffset = 2 ^ 63 - 1 := rfl
    omega
  refine .via (e, unixAt f) ⟨⟨rfl, rfl⟩, rfl⟩ ?_
  refine .via (e, unixAt _) ⟨⟨⟨hwrite, rfl⟩, rfl⟩, rfl⟩ ?_
  exact .ret _ _

/-- One byte is read by the method of `pread`. -/
theorem method_pread (e : Export) (f : OsFile) (byte : UInt8) (offset : UInt64) (hroom : offset.toNat + 1 ≤ 2 ^ 30)
    (hdata : dataAt f.content 1 offset.toNat = [byte]) :
    twoMachine (e, unixAt f) (.inr (.pread 20000 1 offset)) (1, [byte]) (e, unixAt f) := by
  refine ⟨[⟨.inr (.inl (.files (.get 20000))), some ⟨7⟩⟩, ⟨.inr (.inr (.inl (.readAt ⟨7⟩ 1 offset))), .ok ⟨1, [byte]⟩⟩], ?_⟩
  have hread : Unix.regularFile linux gigabyte f (.readAt ⟨7⟩ 1 offset) (.ok ⟨1, [byte]⟩) f := by
    refine ⟨rfl, fun _ => by rw [hdata]; rfl, fun hout => ?_⟩
    have hmax : maxOffset = 2 ^ 63 - 1 := rfl
    omega
  refine .via (e, unixAt f) ⟨⟨rfl, rfl⟩, rfl⟩ ?_
  refine .via (e, unixAt f) ⟨⟨⟨hread, rfl⟩, rfl⟩, rfl⟩ ?_
  exact .ret _ _

end StorageThreadsAux

open HostParityAux in
/-- One thread writes a byte over the second of three while the other reads it: the write is done between the start of the read and its method. -/
theorem storage_linearizable_two : ∃ log last,
    Pool.Run (ThreadCall.prog 20000) twoMachine (.memory [0, 0], unixAt threeBytes) log last ∧
    history log = [.start true (.write 0 [9] 1), .start false (.read 1 1 1), .finish true (.ok 1, []), .finish false (.ok 1, [9])] ∧
    ∃ calls t, Atomic.Run Stored.does ⟨true, [1, 2, 3]⟩ (history log) calls t ∧ t.content = [1, 9, 3] := by
  have h₀ : Pool.Run (ThreadCall.prog 20000) twoMachine (.memory [0, 0], unixAt threeBytes) ([] : List (Move _ Bool _ _ _)) _ := .nil
  have h₁ := h₀.started true (.write 0 [9] 1) rfl
  have h₂ := h₁.issued true rfl (access_step threeBytes (rfl : (Export.memory [0, 0]).handle (.writeGuest 0 [9]) = (.ok (), .memory [9, 0])))
  have h₃ := h₂.started false (.read 1 1 1) rfl
  have h₄ := h₃.issued true rfl (access_step threeBytes (rfl : (Export.memory [9, 0]).handle (.readGuest 0 1) = (.ok [9], .memory [9, 0])))
  have h₅ := h₄.issued false rfl (access_step threeBytes (rfl : (Export.memory [9, 0]).handle (.alloc 1) = ((), .memory [9, 0])))
  have h₆ := h₅.issued true rfl (method_pwrite (.memory [9, 0]) threeBytes 9 1 (by decide))
  have h₇ := h₆.issued false rfl (method_pread (.memory [9, 0]) ⟨[1, 9, 3], 0⟩ 9 1 (by decide) rfl)
  have h₈ := h₇.finished true rfl
  have h₉ := h₈.issued false rfl (access_step ⟨[1, 9, 3], 0⟩ (rfl : (Export.memory [9, 0]).handle (.writeGuest 1 [9]) = (.ok (), .memory [9, 9])))
  have h₁₀ := h₉.issued false rfl (access_step ⟨[1, 9, 3], 0⟩ (rfl : (Export.memory [9, 9]).handle (.readGuest 1 1) = (.ok [9], .memory [9, 9])))
  have h₁₁ := h₁₀.finished false rfl
  have hroom (i : Bool) : (Export.memory [0, 0]).Room (twoBytes.start i) (twoBytes.size i) := by
    cases i <;> exact ⟨trivial, by decide, by decide, by decide⟩
  have hall := (storage_linearizable Bool twoBytes gigabyte 20000 (.memory [0, 0]) hroom threeBytes (by decide)).1 linux (oneFile Str)
    (by decide) (by decide)
  obtain ⟨calls, t, hatomic, -, hcontent⟩ := hall _ _ h₁₁ (by
    simp [ThreadCall.Fit, Buffers.Has, twoBytes, gigabyte])
  exact ⟨_, _, h₁₁, rfl, calls, t, hatomic, hcontent.symm⟩

end WasmtimeMysql
