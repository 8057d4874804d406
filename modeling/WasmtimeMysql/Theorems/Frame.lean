import WasmtimeMysql.Lemmas.FileFrame
import WasmtimeMysql.Lemmas.SocketFrame

/-!
# No import writes guest memory outside its output regions

Whatever the host answers, an import of either module on either host leaves every guest byte as it was, except in the regions that its
arguments name for its results.
-/

namespace WasmtimeMysql

open Effects Bytes

/-- A call to an import of the program: of the socket or the file module, on Unix or on Windows. -/
inductive ImportCall where
  | unixSocket (lc : Libc) (c : SocketImport)
  | windowsSocket (c : SocketImport)
  | unixFile (lc : Libc) (c : FileImport)
  | windowsFile (toUppercase : Str → Str) (c : FileImport)

/-- The commands of the module apart from those on guest memory: its table and the calls to the host. -/
@[reducible] def ImportCall.Host : ImportCall → Sig
  | .unixSocket .. => SocketSig Unix.HostSocket Empty Unix.Net
  | .windowsSocket _ => SocketSig Windows.HostSocket Int32 Windows.Net
  | .unixFile .. => FileSig Str Unix.FileHost
  | .windowsFile .. => FileSig WinPath Windows.FileHost

/-- What a call runs. -/
def ImportCall.prog : (c : ImportCall) → Prog (GuestMem.sum c.Host) Int64
  | .unixSocket lc c => Int32.toInt64 <$> Unix.prog lc c
  | .windowsSocket c => Int32.toInt64 <$> Windows.prog c
  | .unixFile lc c => Unix.fileProg lc c
  | .windowsFile toUppercase c => Windows.fileProg toUppercase c

/-- The output regions its arguments name, given the memory on entry. -/
def ImportCall.outputs (e : Export) : ImportCall → List Region
  | .unixSocket _ c => c.outputs e
  | .windowsSocket c => c.outputs e
  | .unixFile _ c => c.outputs
  | .windowsFile _ c => c.outputs

/-- Every guest byte outside the output regions of an import is unchanged when the import returns. The table and the host are any
machine here: a count or a length that the host reports beyond the buffer it was given makes the import panic or fail, so nothing needs
to be assumed of them. -/
theorem import_frame (c : ImportCall) {τ : Type} {N : Machine c.Host τ} {e e' : Export} {t t' : τ}
    {tr : List (Event (GuestMem.sum c.Host))} {v : Int64}
    (hrun : Runs (guestMachine.sum N) c.prog (e, t) tr (.returned v) (e', t')) : AgreeOutside (c.outputs e) e.data e'.data := by
  cases c with
  | unixSocket lc c => exact Frames.agreeOutside_of_runs (Prog.obeys_map.mpr (FrameAux.frames_unix lc c)) hrun
  | windowsSocket c => exact Frames.agreeOutside_of_runs (Prog.obeys_map.mpr (WindowsFrameAux.frames_windows c)) hrun
  | unixFile lc c => exact Frames.agreeOutside_of_runs (FileFrameAux.frames_unixFile lc c) hrun
  | windowsFile toUppercase c => exact Frames.agreeOutside_of_runs (FileFrameAux.frames_windowsFile toUppercase c) hrun

/-- A `recv` of at most three bytes into the middle of the memory, for which the host has two. -/
theorem import_frame_recv :
    ∃ tr t', Runs (guestMachine.sum ((AppState.machine Empty.elim).sum (Machine.any (S := Unix.Net))))
        (ImportCall.unixSocket linux (.recv 10000 2 3 0)).prog
        (.memory [9, 9, 9, 9, 9, 9], (Unix.oneSocket, ())) tr (.returned 2) (.memory [9, 9, 7, 8, 9, 9], t') ∧
      AgreeOutside [⟨2, 3⟩] [9, 9, 9, 9, 9, 9] [9, 9, 7, 8, 9, 9] := by
  have hget : (guestMachine.sum ((AppState.machine Empty.elim).sum (Machine.any (S := Unix.Net))))
      (.memory [9, 9, 9, 9, 9, 9], (Unix.oneSocket, ())) (.inr (.inl (.sockets (.get 10000)))) (some ⟨3, 2, 2⟩)
      (.memory [9, 9, 9, 9, 9, 9], (Unix.oneSocket, ())) := ⟨⟨rfl, rfl⟩, rfl⟩
  have halloc : (guestMachine.sum ((AppState.machine Empty.elim).sum (Machine.any (S := Unix.Net))))
      (.memory [9, 9, 9, 9, 9, 9], (Unix.oneSocket, ())) (.inl (.alloc 3)) ()
      (.memory [9, 9, 9, 9, 9, 9], (Unix.oneSocket, ())) := ⟨rfl, rfl⟩
  have hrecv : (guestMachine.sum ((AppState.machine Empty.elim).sum (Machine.any (S := Unix.Net))))
      (.memory [9, 9, 9, 9, 9, 9], (Unix.oneSocket, ())) (.inr (.inr (.recv 3 3 0))) (⟨2, [7, 8]⟩ : Unix.RecvAnswer)
      (.memory [9, 9, 9, 9, 9, 9], (Unix.oneSocket, ())) := ⟨⟨trivial, rfl⟩, rfl⟩
  have hwrite : (guestMachine.sum ((AppState.machine Empty.elim).sum (Machine.any (S := Unix.Net))))
      (.memory [9, 9, 9, 9, 9, 9], (Unix.oneSocket, ())) (.inl (.writeGuest 2 [7, 8])) (.ok ())
      (.memory [9, 9, 7, 8, 9, 9], (Unix.oneSocket, ())) := ⟨rfl, rfl⟩
  have hrun : Runs (guestMachine.sum ((AppState.machine Empty.elim).sum (Machine.any (S := Unix.Net))))
      (ImportCall.unixSocket linux (.recv 10000 2 3 0)).prog (.memory [9, 9, 9, 9, 9, 9], (Unix.oneSocket, ()))
      [⟨.inr (.inl (.sockets (.get 10000))), some ⟨3, 2, 2⟩⟩, ⟨.inl (.alloc 3), ()⟩,
        ⟨.inr (.inr (.recv 3 3 0)), (⟨2, [7, 8]⟩ : Unix.RecvAnswer)⟩, ⟨.inl (.writeGuest 2 [7, 8]), .ok ()⟩]
      (.returned 2) (.memory [9, 9, 7, 8, 9, 9], (Unix.oneSocket, ())) :=
    .call hget (.call halloc (.call hrecv (.call hwrite (.ret 2 _))))
  exact ⟨_, _, hrun, import_frame (.unixSocket linux (.recv 10000 2 3 0)) hrun⟩

end WasmtimeMysql
