import WasmtimeMysql.Lemmas.RegularFile
import WasmtimeMysql.Lib.Conversation
import WasmtimeMysql.Lib.Session

/-!
# The file imports on the two hosts

The same calls on one fd, over the same content, to the Unix module and to the Windows module. They return the same and leave the same as
long as every call ends where both volumes have room, no offset is negative, every seek is to a position that there is, and none is relative to
a cursor that `pread` or `pwrite` may have moved (`hosts_agree`). `seek_read` and `seek_write` do move it, and the offsets go to std without a
check (`hosts_differ`).
-/

namespace WasmtimeMysql

open Effects

/-- What the Unix module keeps of its one file. -/
abbrev UnixSide : Type := HostFilesInner Str × (OsFile × Unit)

/-- What the Windows module keeps of its one file. -/
abbrev WindowsSide : Type := HostFilesInner WinPath × (OsFile × (Windows.LockMaps × Unit))

/-- Calls to the Unix module. -/
abbrev UnixTalk (lc : Libc) (vol : Volume) : UnixSide → List (Exchange FileImport Int64 Export UnixSide) → UnixSide → Prop :=
  Conversation (Unix.fileProg lc) (fileMachine guestMachine (Unix.disk lc vol))

/-- Calls to the Windows module. -/
abbrev WindowsTalk (toUppercase : Str → Str) (vol : Volume) :
    WindowsSide → List (Exchange FileImport Int64 Export WindowsSide) → WindowsSide → Prop :=
  Conversation (Windows.fileProg toUppercase) (fileMachine guestMachine (Windows.disk vol))

/-- Whether the cursor is where the guest's seeks have put it, on both hosts, after these calls. -/
def cursorKnown (calls : List FileImport) : Bool := calls.foldl (cursorAfter true) true

/-- Every call is steady, over the file as it is before the call. -/
def SteadyTalk (vol : Volume) (log : List (Exchange FileImport Int64 Export UnixSide)) : Prop :=
  ∀ pre x post, log = pre ++ x :: post → Steady vol (cursorKnown (pre.map Exchange.call)) x.before.2.1 x.call

namespace HostParityAux

variable {vol : Volume} {fd : Int32}

/-- Both sides show the same file. -/
def Same (fd : Int32) (inputs : List (Export × FileImport)) (t : UnixSide) (t' : WindowsSide) : Prop :=
  ∃ g : GuestFile, Shows fd Prod.fst true g t.1 t.2 ∧ Shows fd Prod.fst (cursorKnown (inputs.map Prod.snd)) g t'.1 t'.2

theorem cursorAfter_unix (c : FileImport) : cursorAfter false true c = true := by
  cases c <;> rfl

theorem cursorKnown_snoc (inputs : List (Export × FileImport)) (e : Export) (c : FileImport) :
    cursorKnown ((inputs ++ [(e, c)]).map Prod.snd) = cursorAfter true (cursorKnown (inputs.map Prod.snd)) c := by
  unfold cursorKnown
  rw [List.map_append, List.foldl_append]
  rfl

/-- A steady call fits. -/
theorem fits_of_steady {known : Bool} {g : GuestFile} {t : UnixSide} (h : Shows fd Prod.fst true g t.1 t.2) {c : FileImport}
    (hsteady : Steady vol known t.2.1 c) : Fits vol known g c := by
  cases c with
  | seek fd' offset whence =>
    intro hlive
    obtain ⟨hset, hcur, hend⟩ := hsteady
    rw [h.cursor hlive rfl] at hcur
    rw [h.content] at hend
    exact ⟨hset, hcur, hend⟩
  | _ => exact hsteady

/-- On Unix the cursor is always known. -/
theorem Fits.known {known : Bool} {g : GuestFile} {c : FileImport} (h : Fits vol known g c) : Fits vol true g c := by
  cases c with
  | seek fd' offset whence =>
    intro hlive
    obtain ⟨hset, hcur, hend⟩ := h hlive
    exact ⟨hset, fun hwhence => ⟨rfl, (hcur hwhence).2⟩, hend⟩
  | _ => exact h

/-- One exchange. -/
theorem same_snoc (lc : Libc) (toUppercase : Str → Str) {pre : List (Exchange FileImport Int64 Export UnixSide)}
    {x : Exchange FileImport Int64 Export UnixSide} {x' : Exchange FileImport Int64 Export WindowsSide}
    {tr : List (Event Unix.Files)} {tr' : List (Event Windows.Files)}
    (hsame : Same fd (pre.map Exchange.input) x.before x'.before) (hinput : x.input = x'.input) (hon : x.call.OnFile fd)
    (hsteady : Steady vol (cursorKnown (pre.map Exchange.call)) x.before.2.1 x.call)
    (hrun : Runs (fileMachine guestMachine (Unix.disk lc vol)) (Unix.fileProg lc x.call) (x.shown, x.before) tr x.result (x.left, x.after))
    (hrun' : Runs (fileMachine guestMachine (Windows.disk vol)) (Windows.fileProg toUppercase x'.call) (x'.shown, x'.before) tr' x'.result
      (x'.left, x'.after)) :
    x.output = x'.output ∧ Same fd ((pre ++ [x]).map Exchange.input) x.after x'.after := by
  obtain ⟨g, hunix, hwindows⟩ := hsame
  obtain ⟨shown', call', before', result', left', after'⟩ := x'
  obtain ⟨hshown, hcall⟩ := Prod.mk.inj hinput
  cases hshown
  cases hcall
  have hcalls : (pre.map Exchange.input).map Prod.snd = pre.map Exchange.call := by
    rw [List.map_map]
    rfl
  rw [hcalls] at hwindows
  have hfits := fits_of_steady hunix hsteady
  obtain ⟨hresult, hleft, hshows⟩ := hrun.of_wp (wp_unix_import lc hunix hon (Fits.known hfits))
  obtain ⟨hresult', hleft', hshows'⟩ := hrun'.of_wp (wp_windows_import toUppercase hwindows hon hfits)
  constructor
  · exact Prod.ext (hresult.trans hresult'.symm) (hleft.trans hleft'.symm)
  · rw [cursorAfter_unix] at hshows
    refine ⟨_, hshows, ?_⟩
    rw [List.map_append, List.map_singleton]
    show Shows fd Prod.fst (cursorKnown ((pre.map Exchange.input ++ [(x.shown, x.call)]).map Prod.snd)) _ _ _
    rw [cursorKnown_snoc, hcalls]
    exact hshows'

end HostParityAux

/-- The two builds return the same values, leave guest memory the same and leave the same content, for every content and every sequence
of the five calls on one open fd that is steady. -/
theorem hosts_agree (vol : Volume) (lc : Libc) (toUppercase : Str → Str) (fd : Int32) (f : OsFile) (a : HostFilesInner Str)
    (a' : HostFilesInner WinPath) (maps : Windows.LockMaps) (hopen : a.files.find fd ≠ none) (hopen' : a'.files.find fd ≠ none)
    (log : List (Exchange FileImport Int64 Export UnixSide)) (t : UnixSide)
    (log' : List (Exchange FileImport Int64 Export WindowsSide)) (t' : WindowsSide)
    (htalk : UnixTalk lc vol (a, f, ()) log t) (htalk' : WindowsTalk toUppercase vol (a', f, maps, ()) log' t')
    (hinput : log.map Exchange.input = log'.map Exchange.input) (hon : ∀ x ∈ log, x.call.OnFile fd) (hsteady : SteadyTalk vol log) :
    log.map Exchange.output = log'.map Exchange.output ∧ t.2.1.content = t'.2.1.content := by
  have hstart : HostParityAux.Same fd [] (a, f, ()) (a', f, maps, ()) := by
    refine ⟨⟨true, f⟩, ⟨Option.isSome_iff_ne_none.mpr hopen, rfl, fun _ _ => rfl⟩, ?_⟩
    exact ⟨Option.isSome_iff_ne_none.mpr hopen', rfl, fun _ _ => rfl⟩
  have hguard : ∀ pre x post, log = pre ++ x :: post →
      x.call.OnFile fd ∧ Steady vol (cursorKnown (pre.map Exchange.call)) x.before.2.1 x.call := by
    intro pre x post hlog
    refine ⟨hon x ?_, hsteady pre x post hlog⟩
    rw [hlog]
    exact List.mem_append_right _ List.mem_cons_self
  obtain ⟨houtput, g, hunix, hwindows⟩ := Conversation.lockstep hstart
    (fun pre x x' tr tr' hsame hinput hG hrun hrun' => HostParityAux.same_snoc lc toUppercase hsame hinput hG.1 hG.2 hrun hrun')
    htalk htalk' hinput hguard
  exact ⟨houtput, hunix.content.trans hwindows.content.symm⟩

/-! ## Where they differ -/

namespace HostParityAux

/-- A table with one file. -/
def oneFile (P : Type) : HostFilesInner P := ⟨[], ((FdTable.empty fileFdBase File).insert ⟨7⟩).2⟩

/-- The Unix side with a file. -/
def unixAt (f : OsFile) : UnixSide := (oneFile Str, f, ())

/-- The Windows side with a file, and no path or lock. -/
def windowsAt (f : OsFile) : WindowsSide := (oneFile WinPath, f, ⟨fun _ => none, fun _ => none⟩, ())

/-- Room for files of a gigabyte. -/
def gigabyte : Volume := ⟨2 ^ 30, by decide⟩

/-- A file of three bytes. -/
def threeBytes : OsFile := ⟨[1, 2, 3], 0⟩

section
variable (m : UInt8)

/-- A read of one byte. -/
theorem unix_pread (byte : UInt8) (f : OsFile) (offset : Int64) (hroom : offset.toUInt64.toNat + 1 ≤ 2 ^ 30)
    (hdata : dataAt f.content 1 offset.toUInt64.toNat = [byte]) :
    ∃ tr, Runs (fileMachine guestMachine (Unix.disk linux gigabyte)) (Unix.fileProg linux (.pread 20000 0 1 offset))
      (.memory [m], unixAt f) tr (.returned 1) (.memory [byte], unixAt f) := by
  refine ⟨[⟨.inl (.alloc 1), ()⟩, ⟨.inr (.inl (.files (.get 20000))), some ⟨7⟩⟩,
    ⟨.inr (.inr (.inl (.readAt ⟨7⟩ 1 offset.toUInt64))), .ok ⟨1, [byte]⟩⟩, ⟨.inl (.writeGuest 0 [byte]), .ok ()⟩], ?_⟩
  have hread : Unix.regularFile linux gigabyte f (.readAt ⟨7⟩ 1 offset.toUInt64) (.ok ⟨1, [byte]⟩) f := by
    refine ⟨rfl, fun _ => by rw [hdata]; rfl, fun hout => ?_⟩
    have hmax : maxOffset = 2 ^ 63 - 1 := rfl
    omega
  refine .via (.memory [m], unixAt f) ⟨rfl, rfl⟩ ?_
  refine .via (.memory [m], unixAt f) ⟨⟨rfl, rfl⟩, rfl⟩ ?_
  refine .via (.memory [m], unixAt f) ⟨⟨⟨hread, rfl⟩, rfl⟩, rfl⟩ ?_
  refine .via (.memory [byte], unixAt f) ⟨rfl, rfl⟩ ?_
  exact .ret _ _

/-- On Windows the cursor moves. -/
theorem windows_pread (byte : UInt8) (f : OsFile) (offset : Int64) (hdata : dataAt f.content 1 offset.toUInt64.toNat = [byte]) :
    ∃ tr, Runs (fileMachine guestMachine (Windows.disk gigabyte)) (Windows.fileProg (fun s => s) (.pread 20000 0 1 offset))
      (.memory [m], windowsAt f) tr (.returned 1) (.memory [byte], windowsAt { f with cursor := offset.toUInt64.toNat + 1 }) := by
  refine ⟨[⟨.inl (.alloc 1), ()⟩, ⟨.inr (.inl (.files (.get 20000))), some ⟨7⟩⟩,
    ⟨.inr (.inr (.inl (.readAt ⟨7⟩ 1 offset.toUInt64))), .ok ⟨1, [byte]⟩⟩, ⟨.inl (.writeGuest 0 [byte]), .ok ()⟩], ?_⟩
  have hread : Windows.regularFile gigabyte f (.readAt ⟨7⟩ 1 offset.toUInt64) (.ok ⟨1, [byte]⟩)
      { f with cursor := offset.toUInt64.toNat + 1 } := ⟨rfl, fun _ => by rw [hdata]; exact ⟨rfl, fun _ => rfl⟩⟩
  refine .via (.memory [m], windowsAt f) ⟨rfl, rfl⟩ ?_
  refine .via (.memory [m], windowsAt f) ⟨⟨rfl, rfl⟩, rfl⟩ ?_
  refine .via (.memory [m], windowsAt _) ⟨⟨⟨hread, rfl⟩, rfl⟩, rfl⟩ ?_
  refine .via (.memory [byte], windowsAt _) ⟨rfl, rfl⟩ ?_
  exact .ret _ _

/-- A write of one byte. -/
theorem unix_pwrite (f : OsFile) (offset : Int64) (hroom : offset.toUInt64.toNat + 1 ≤ 2 ^ 30) :
    ∃ tr, Runs (fileMachine guestMachine (Unix.disk linux gigabyte)) (Unix.fileProg linux (.pwrite 20000 0 1 offset))
      (.memory [m], unixAt f) tr (.returned 1)
      (.memory [m], unixAt { f with content := writtenAt f.content [m] offset.toUInt64.toNat }) := by
  refine ⟨[⟨.inl (.readGuest 0 1), .ok [m]⟩, ⟨.inr (.inl (.files (.get 20000))), some ⟨7⟩⟩,
    ⟨.inr (.inr (.inl (.writeAt ⟨7⟩ [m] offset.toUInt64))), .ok 1⟩], ?_⟩
  have hwrite : Unix.regularFile linux gigabyte f (.writeAt ⟨7⟩ [m] offset.toUInt64) (.ok 1)
      { f with content := writtenAt f.content [m] offset.toUInt64.toNat } := by
    refine ⟨fun _ => ⟨rfl, rfl⟩, fun hout => ?_⟩
    have hmax : maxOffset = 2 ^ 63 - 1 := rfl
    omega
  refine .via (.memory [m], unixAt f) ⟨rfl, rfl⟩ ?_
  refine .via (.memory [m], unixAt f) ⟨⟨rfl, rfl⟩, rfl⟩ ?_
  refine .via (.memory [m], unixAt _) ⟨⟨⟨hwrite, rfl⟩, rfl⟩, rfl⟩ ?_
  exact .ret _ _

theorem windows_pwrite (f : OsFile) (offset : Int64) (hroom : offset.toUInt64.toNat + 1 ≤ 2 ^ 30) :
    ∃ tr, Runs (fileMachine guestMachine (Windows.disk gigabyte)) (Windows.fileProg (fun s => s) (.pwrite 20000 0 1 offset))
      (.memory [m], windowsAt f) tr (.returned 1)
      (.memory [m], windowsAt ⟨writtenAt f.content [m] offset.toUInt64.toNat, offset.toUInt64.toNat + 1⟩) := by
  refine ⟨[⟨.inl (.readGuest 0 1), .ok [m]⟩, ⟨.inr (.inl (.files (.get 20000))), some ⟨7⟩⟩,
    ⟨.inr (.inr (.inl (.writeAt ⟨7⟩ [m] offset.toUInt64))), .ok 1⟩], ?_⟩
  have hwrite : Windows.regularFile gigabyte f (.writeAt ⟨7⟩ [m] offset.toUInt64) (.ok 1)
      ⟨writtenAt f.content [m] offset.toUInt64.toNat, offset.toUInt64.toNat + 1⟩ :=
    ⟨fun _ => ⟨rfl, rfl, fun _ => rfl⟩, fun hend => by omega⟩
  refine .via (.memory [m], windowsAt f) ⟨rfl, rfl⟩ ?_
  refine .via (.memory [m], windowsAt f) ⟨⟨rfl, rfl⟩, rfl⟩ ?_
  refine .via (.memory [m], windowsAt _) ⟨⟨⟨hwrite, rfl⟩, rfl⟩, rfl⟩ ?_
  exact .ret _ _

end

/-- A seek that has room, on each host. -/
theorem seeks (f : OsFile) (m : UInt8) (offset : Int64) (whence : Int32) (n : Nat) {pos : SeekFrom}
    (hpos : HostFiles.seekFrom offset whence = .ok pos)
    (htarget : f.target pos = n) (hn : n ≤ 2 ^ 30) :
    (∃ tr, Runs (fileMachine guestMachine (Unix.disk linux gigabyte)) (Unix.fileProg linux (.seek 20000 offset whence))
      (.memory [m], unixAt f) tr (.returned (Int64.ofNat n)) (.memory [m], unixAt { f with cursor := n })) ∧
    ∃ tr, Runs (fileMachine guestMachine (Windows.disk gigabyte)) (Windows.fileProg (fun s => s) (.seek 20000 offset whence))
      (.memory [m], windowsAt f) tr (.returned (Int64.ofNat n)) (.memory [m], windowsAt { f with cursor := n }) := by
  have hhas : gigabyte.Has (n : Int) := ⟨Int.natCast_nonneg n, Int.ofNat_le.mpr hn⟩
  have hsought : f.sought pos = { f with cursor := n } := by rw [OsFile.sought, htarget, Int.toNat_natCast]
  have hvalue : UInt64.ofInt (n : Int) = UInt64.ofNat n := by
    unfold UInt64.ofInt
    congr 1
    omega
  have hnat : (UInt64.ofNat n).toNat < 2 ^ 63 := by
    rw [UInt64.toNat_ofNat_of_lt' (by unfold UInt64.size; omega)]
    omega
  have hend {P : Type} {Host : Sig} :
      (if (UInt64.ofNat n).toNat < 2 ^ 63 then pure (UInt64.ofNat n).toInt64 else pure (negErrno .eoverflow).toInt64 : FileProg P Host Int64) =
        .ret (Int64.ofNat n) := by
    rw [if_pos hnat, UInt64.toInt64_ofNat']
    rfl
  constructor
  · have hseek : Unix.regularFile linux gigabyte f (.seek ⟨7⟩ pos) (.ok (UInt64.ofNat n)) { f with cursor := n } := by
      simp only [Unix.regularFile, htarget, if_pos hhas, hvalue, hsought, and_self]
    refine ⟨[⟨.inr (.inl (.files (.get 20000))), some ⟨7⟩⟩, ⟨.inr (.inr (.inl (.seek ⟨7⟩ pos))), .ok (UInt64.ofNat n)⟩], ?_⟩
    refine .via (.memory [m], unixAt f) ⟨⟨rfl, rfl⟩, rfl⟩ ?_
    simp only [hpos]
    refine .via (.memory [m], unixAt { f with cursor := n }) ⟨⟨⟨hseek, rfl⟩, rfl⟩, rfl⟩ ?_
    exact (congrArg (fun p => Runs _ p _ _ _ _) hend).mpr (.ret _ _)
  · have hseek : Windows.regularFile gigabyte f (.seek ⟨7⟩ pos) (.ok (UInt64.ofNat n)) { f with cursor := n } := by
      simp only [Windows.regularFile, htarget, if_pos hhas, hvalue, hsought, and_self]
    refine ⟨[⟨.inr (.inl (.files (.get 20000))), some ⟨7⟩⟩, ⟨.inr (.inr (.inl (.seek ⟨7⟩ pos))), .ok (UInt64.ofNat n)⟩], ?_⟩
    refine .via (.memory [m], windowsAt f) ⟨⟨rfl, rfl⟩, rfl⟩ ?_
    simp only [hpos]
    refine .via (.memory [m], windowsAt { f with cursor := n }) ⟨⟨⟨hseek, rfl⟩, rfl⟩, rfl⟩ ?_
    exact (congrArg (fun p => Runs _ p _ _ _ _) hend).mpr (.ret _ _)

/-- A write at a negative offset. -/
theorem unix_pwrite_negative : ∃ tr, Runs (fileMachine guestMachine (Unix.disk linux gigabyte)) (Unix.fileProg linux (.pwrite 20000 0 1 (-1)))
    (.memory [8], unixAt threeBytes) tr (.returned (negErrno .einval).toInt64) (.memory [8], unixAt threeBytes) := by
  refine ⟨[⟨.inl (.readGuest 0 1), .ok [8]⟩, ⟨.inr (.inl (.files (.get 20000))), some ⟨7⟩⟩,
    ⟨.inr (.inr (.inl (.writeAt ⟨7⟩ [8] (-1 : Int64).toUInt64))), .error ⟨some 22⟩⟩], ?_⟩
  have hwrite : Unix.regularFile linux gigabyte threeBytes (.writeAt ⟨7⟩ [8] (-1 : Int64).toUInt64) (.error ⟨some 22⟩) threeBytes :=
    ⟨fun hroom => absurd hroom (by decide), fun _ => ⟨rfl, rfl⟩⟩
  refine .via (.memory [8], unixAt threeBytes) ⟨rfl, rfl⟩ ?_
  refine .via (.memory [8], unixAt threeBytes) ⟨⟨rfl, rfl⟩, rfl⟩ ?_
  refine .via (.memory [8], unixAt threeBytes) ⟨⟨⟨hwrite, rfl⟩, rfl⟩, rfl⟩ ?_
  exact .ret _ _

/-- It appends on Windows. -/
theorem windows_pwrite_negative :
    ∃ tr, Runs (fileMachine guestMachine (Windows.disk gigabyte)) (Windows.fileProg (fun s => s) (.pwrite 20000 0 1 (-1)))
      (.memory [8], windowsAt threeBytes) tr (.returned 1) (.memory [8], windowsAt ⟨[1, 2, 3, 8], 4⟩) := by
  refine ⟨[⟨.inl (.readGuest 0 1), .ok [8]⟩, ⟨.inr (.inl (.files (.get 20000))), some ⟨7⟩⟩,
    ⟨.inr (.inr (.inl (.writeAt ⟨7⟩ [8] (-1 : Int64).toUInt64))), .ok 1⟩], ?_⟩
  have hwrite : Windows.regularFile gigabyte threeBytes (.writeAt ⟨7⟩ [8] (-1 : Int64).toUInt64) (.ok 1) ⟨[1, 2, 3, 8], 4⟩ :=
    ⟨fun hroom => absurd hroom (by decide), fun _ _ => ⟨rfl, rfl, fun _ => rfl⟩⟩
  refine .via (.memory [8], windowsAt threeBytes) ⟨rfl, rfl⟩ ?_
  refine .via (.memory [8], windowsAt threeBytes) ⟨⟨rfl, rfl⟩, rfl⟩ ?_
  refine .via (.memory [8], windowsAt ⟨[1, 2, 3, 8], 4⟩) ⟨⟨⟨hwrite, rfl⟩, rfl⟩, rfl⟩ ?_
  exact .ret _ _

end HostParityAux

open HostParityAux in
/-- After a read of the second of three bytes, the cursor is at the start on Unix and after the byte on Windows. A write at the offset `-1`
fails on Unix, and on Windows it appends to the file. -/
theorem hosts_differ :
    (∃ log t log' t', UnixTalk linux gigabyte (unixAt threeBytes) log t ∧ WindowsTalk (fun s => s) gigabyte (windowsAt threeBytes) log' t' ∧
      log.map Exchange.input = log'.map Exchange.input ∧ (∀ x ∈ log, x.call.OnFile 20000) ∧
      log.map Exchange.output ≠ log'.map Exchange.output) ∧
    (∃ log t log' t', UnixTalk linux gigabyte (unixAt threeBytes) log t ∧ WindowsTalk (fun s => s) gigabyte (windowsAt threeBytes) log' t' ∧
      log.map Exchange.input = log'.map Exchange.input ∧ (∀ x ∈ log, x.call.OnFile 20000) ∧ t.2.1.content ≠ t'.2.1.content) := by
  constructor
  · obtain ⟨tr₁, hread⟩ := unix_pread 8 2 threeBytes 1 (by decide) rfl
    obtain ⟨⟨tr₂, hseek⟩, -⟩ := seeks threeBytes 2 0 seekCur 0 rfl rfl (by decide)
    obtain ⟨tr₁', hread'⟩ := windows_pread 8 2 threeBytes 1 rfl
    obtain ⟨-, tr₂', hseek'⟩ := seeks ⟨[1, 2, 3], 2⟩ 2 0 seekCur 2 rfl rfl (by decide)
    have htalk : UnixTalk linux gigabyte (unixAt threeBytes) _ _ := .snoc ⟨.memory [2], .seek 20000 0 seekCur, _, _, .memory [2], _⟩
      (.snoc ⟨.memory [8], .pread 20000 0 1 1, _, _, .memory [2], _⟩ .nil hread) hseek
    have htalk' : WindowsTalk (fun s => s) gigabyte (windowsAt threeBytes) _ _ :=
      .snoc ⟨.memory [2], .seek 20000 0 seekCur, _, _, .memory [2], _⟩
        (.snoc ⟨.memory [8], .pread 20000 0 1 1, _, _, .memory [2], _⟩ .nil hread') hseek'
    refine ⟨_, _, _, _, htalk, htalk', rfl, ?_, by decide⟩
    simp [FileImport.OnFile]
  · obtain ⟨tr, hwrite⟩ := unix_pwrite_negative
    obtain ⟨tr', hwrite'⟩ := windows_pwrite_negative
    have htalk : UnixTalk linux gigabyte (unixAt threeBytes) _ _ :=
      .snoc ⟨.memory [8], .pwrite 20000 0 1 (-1), _, _, .memory [8], _⟩ .nil hwrite
    have htalk' : WindowsTalk (fun s => s) gigabyte (windowsAt threeBytes) _ _ :=
      .snoc ⟨.memory [8], .pwrite 20000 0 1 (-1), _, _, .memory [8], _⟩ .nil hwrite'
    refine ⟨_, _, _, _, htalk, htalk', rfl, ?_, by decide⟩
    simp [FileImport.OnFile]

namespace HostParityAux

/-- A write over the second of three bytes, a read of the third, and a seek to the end. -/
theorem unix_transfers : ∃ log t, UnixTalk linux gigabyte (unixAt threeBytes) log t ∧
    log.map (fun x => (x.input, x.before.2.1)) = [((.memory [8], .pwrite 20000 0 1 1), threeBytes),
      ((.memory [8], .pread 20000 0 1 2), ⟨[1, 8, 3], 0⟩), ((.memory [3], .seek 20000 0 seekEnd), ⟨[1, 8, 3], 0⟩)] ∧
    t.2.1 = ⟨[1, 8, 3], 3⟩ := by
  obtain ⟨tr₁, hwrite⟩ := unix_pwrite 8 threeBytes 1 (by decide)
  obtain ⟨tr₂, hread⟩ := unix_pread 8 3 ⟨[1, 8, 3], 0⟩ 2 (by decide) rfl
  obtain ⟨⟨tr₃, hseek⟩, -⟩ := seeks ⟨[1, 8, 3], 0⟩ 3 0 seekEnd 3 rfl rfl (by decide)
  have h₁ : UnixTalk linux gigabyte (unixAt threeBytes) _ _ := .snoc ⟨.memory [8], .pwrite 20000 0 1 1, _, _, .memory [8], _⟩ .nil hwrite
  have h₂ := h₁.snoc ⟨.memory [8], .pread 20000 0 1 2, _, _, .memory [3], _⟩ hread
  have h₃ := h₂.snoc ⟨.memory [3], .seek 20000 0 seekEnd, _, _, .memory [3], _⟩ hseek
  exact ⟨_, _, h₃, rfl, rfl⟩

theorem windows_transfers : ∃ log t, WindowsTalk (fun s => s) gigabyte (windowsAt threeBytes) log t ∧
    log.map (fun x => (x.input, x.before.2.1)) = [((.memory [8], .pwrite 20000 0 1 1), threeBytes),
      ((.memory [8], .pread 20000 0 1 2), ⟨[1, 8, 3], 2⟩), ((.memory [3], .seek 20000 0 seekEnd), ⟨[1, 8, 3], 3⟩)] ∧
    t.2.1 = ⟨[1, 8, 3], 3⟩ := by
  obtain ⟨tr₁, hwrite⟩ := windows_pwrite 8 threeBytes 1 (by decide)
  obtain ⟨tr₂, hread⟩ := windows_pread 8 3 ⟨[1, 8, 3], 2⟩ 2 rfl
  obtain ⟨-, tr₃, hseek⟩ := seeks ⟨[1, 8, 3], 3⟩ 3 0 seekEnd 3 rfl rfl (by decide)
  have h₁ : WindowsTalk (fun s => s) gigabyte (windowsAt threeBytes) _ _ :=
    .snoc ⟨.memory [8], .pwrite 20000 0 1 1, _, _, .memory [8], _⟩ .nil hwrite
  have h₂ := h₁.snoc ⟨.memory [8], .pread 20000 0 1 2, _, _, .memory [3], _⟩ hread
  have h₃ := h₂.snoc ⟨.memory [3], .seek 20000 0 seekEnd, _, _, .memory [3], _⟩ hseek
  exact ⟨_, _, h₃, rfl, rfl⟩

theorem steady_of_eq {vol : Volume} {known : Bool} {x : Exchange FileImport Int64 Export UnixSide} {e : Export} {c : FileImport} {f : OsFile}
    (hx : (x.input, x.before.2.1) = ((e, c), f)) (h : Steady vol known f c) : Steady vol known x.before.2.1 x.call := by
  obtain ⟨hinput, hfile⟩ := Prod.mk.inj hx
  have hcall : x.call = c := (Prod.mk.inj hinput).2
  rw [hcall, hfile]
  exact h

end HostParityAux

open HostParityAux in
/-- A write over the second of three bytes, a read of the third and a seek to the end return the same on both hosts and leave the same content.
The cursor is elsewhere in between. -/
theorem hosts_agree_transfers : ∃ log t log' t', UnixTalk linux gigabyte (unixAt threeBytes) log t ∧
    WindowsTalk (fun s => s) gigabyte (windowsAt threeBytes) log' t' ∧
    log.map Exchange.call = [.pwrite 20000 0 1 1, .pread 20000 0 1 2, .seek 20000 0 seekEnd] ∧
    log.map (fun x => x.before.2.1.cursor) = [0, 0, 0] ∧ log'.map (fun x => x.before.2.1.cursor) = [0, 2, 3] ∧
    log.map Exchange.output = log'.map Exchange.output ∧ t.2.1.content = t'.2.1.content := by
  obtain ⟨log, t, htalk, hlog, -⟩ := unix_transfers
  obtain ⟨log', t', htalk', hlog', -⟩ := windows_transfers
  have hcalls := congrArg (List.map fun y => y.1.2) hlog
  have hinputs := congrArg (List.map Prod.fst) hlog
  have hinputs' := congrArg (List.map Prod.fst) hlog'
  have hcursors := congrArg (List.map fun y => y.2.cursor) hlog
  have hcursors' := congrArg (List.map fun y => y.2.cursor) hlog'
  rw [List.map_map] at hcalls hinputs hinputs' hcursors hcursors'
  refine ⟨log, t, log', t', htalk, htalk', hcalls, hcursors, hcursors', ?_⟩
  refine hosts_agree gigabyte linux (fun s => s) 20000 threeBytes _ _ _ (by decide) (by decide) _ _ _ _ htalk htalk'
    (hinputs.trans hinputs'.symm) ?_ ?_
  · intro x hx
    have hmem : x.call ∈ log.map Exchange.call := List.mem_map_of_mem hx
    rw [show log.map Exchange.call = _ from hcalls] at hmem
    simp only [List.map_cons, List.map_nil, List.mem_cons, List.not_mem_nil, or_false] at hmem
    rcases hmem with hcall | hcall | hcall <;> rw [hcall] <;> rfl
  · rintro pre x post rfl
    simp only [List.map_append, List.map_cons] at hlog
    -- the call is one of the three, over the file that the ones before have left
    rcases pre with _ | ⟨y, _ | ⟨z, _ | ⟨w, pre⟩⟩⟩
    · exact steady_of_eq (List.cons.inj hlog).1 ⟨by decide, by decide⟩
    · exact steady_of_eq (List.cons.inj (List.cons.inj hlog).2).1 ⟨by decide, by decide⟩
    · exact steady_of_eq (List.cons.inj (List.cons.inj (List.cons.inj hlog).2).2).1 ⟨nofun, nofun, fun _ => by decide⟩
    · simp at hlog

end WasmtimeMysql
