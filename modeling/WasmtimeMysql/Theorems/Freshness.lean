import WasmtimeMysql.Lemmas.FileWp
import WasmtimeMysql.Lemmas.Programs
import WasmtimeMysql.Lib.Session

/-!
# Fresh descriptors

The file table and the socket table take the next descriptor from a counter that is advanced with `saturating_add`. A descriptor they
hand out is not in the table unless the counter has stopped at the largest `i32` while that descriptor is live: from then on every new
entry replaces it. `descriptors_fresh` says so for every session of imports over any guest memory and any host.
-/

namespace WasmtimeMysql

open Effects Bytes

/-- The counter of a table has not stopped, or its last descriptor is free. -/
def Room {base : Int32} {E : Type} (t : FdTable base E) : Prop := t.next < Int32.maxValue ∨ t.find Int32.maxValue = none

/-- In every session of a module, the calls that hand out descriptors do it well as long as the table has room: a descriptor they
return was not in the table, and what was in the table stays. A call that is made without room and returns a descriptor returns one
that was in the table. -/
def HandsOutFresh {S : Sig} {C V σ E : Type} {base : Int32} (prog : C → Prog S V) (M : Machine S σ) (start : σ)
    (table : σ → FdTable base E) (opens : C → Prop) (result : Int32 → V) : Prop :=
  ∀ log s', Session prog (fun _ : Unit => M) start log s' →
    ((∀ e ∈ log, opens e.call → Room (table e.before)) →
      ∀ e ∈ log, opens e.call →
        (∀ fd, e.result = .returned (result fd) → (table e.before).find fd = none) ∧
        ∀ g x, (table e.before).find g = some x → (table e.after).find g = some x) ∧
    ∀ e ∈ log, opens e.call → ¬Room (table e.before) →
      ∀ fd, base ≤ fd → e.result = .returned (result fd) → (table e.before).find fd ≠ none

/-- The file import that hands out descriptors. -/
def FileImport.Opens : FileImport → Prop
  | .openFile .. => True
  | _ => False

namespace FreshnessAux

section
variable {base : Int32} {E : Type}

/-- What a call that hands out descriptors does to the table: it fails and changes nothing, or it inserts an entry and returns its
descriptor. -/
def Opened (t t' : FdTable base E) (o : Outcome Int32) : Prop :=
  (t' = t ∧ ∀ fd, o = .returned fd → fd < base) ∨ ∃ x, o = .returned t.next ∧ t' = (t.insert x).2

/-- What is not positive is no fd. -/
theorem opened_of_le_zero (hbase : 0 < base) {t : FdTable base E} {v : Int32} (hv : v ≤ 0) : Opened t t (.returned v) := by
  refine .inl ⟨rfl, ?_⟩
  intro fd heq
  cases heq
  exact Int32.lt_of_le_of_lt hv hbase

/-- An errno is none, ... -/
theorem opened_negErrno (hbase : 0 < base) {t : FdTable base E} (errno : Errno) : Opened t t (.returned (negErrno errno)) :=
  opened_of_le_zero hbase (Int32.le_of_lt (negErrno_lt_zero errno))

/-- ... and a panic gives none. -/
theorem opened_panicked {t : FdTable base E} : Opened t t .panicked := by
  refine .inl ⟨rfl, ?_⟩
  intro fd heq
  cases heq

/-- An insertion gives the next one. -/
theorem opened_insert {t : FdTable base E} (x : E) : Opened t (t.insert x).2 (.returned t.next) := .inr ⟨x, rfl, rfl⟩

/-- A module whose opening calls all do that hands out fresh descriptors. -/
theorem handsOutFresh_of_opened {S : Sig} {C V σ : Type} {prog : C → Prog S V} {M : Machine S σ} {start : σ}
    {table : σ → FdTable base E} {opens : C → Prop} {result : Int32 → V} (hresult : Function.Injective result)
    (h : ∀ c s, opens c → wp M (prog c) (fun _ o s' => ∃ o', o = o'.map result ∧ Opened (table s) (table s') o') s) :
    HandsOutFresh prog M start table opens result := by
  intro log s' hlog
  have hopened (e) (he : e ∈ log) (hcall : opens e.call) :
      ∃ o', e.result = o'.map result ∧ Opened (table e.before) (table e.after) o' := by
    obtain ⟨pre, post, hsplit⟩ := List.append_of_mem he
    obtain ⟨-, tr, hrun⟩ := hlog.split hsplit
    exact hrun.of_wp (h e.call e.before hcall)
  have hreturned (o' : Outcome Int32) (fd : Int32) (heq : o'.map result = .returned (result fd)) : o' = .returned fd := by
    cases o' with
    | returned v => exact congrArg _ (hresult (Outcome.returned.inj heq))
    | panicked => cases heq
  constructor
  · intro hroom e he hcall
    obtain ⟨o', ho', ⟨hsame, hlow⟩ | ⟨x, hfd, hins⟩⟩ := hopened e he hcall
    · rw [ho', hsame]
      refine ⟨?_, fun g x hg => hg⟩
      intro fd heq
      -- nothing was handed out, and a value below the base is no key
      refine Decidable.byContradiction fun hne => ?_
      have hbase := ((table e.before).key_range fd hne).1
      exact Int32.lt_irrefl (Int32.lt_of_le_of_lt hbase (hlow fd (hreturned o' fd heq)))
    · have hfree := (table e.before).find_next_eq_none_iff.mpr (hroom e he hcall)
      rw [ho', hins, hfd]
      constructor
      · intro fd heq
        cases hresult (Outcome.returned.inj heq)
        exact hfree
      · intro g y hg
        rw [FdTable.find_insert, if_neg ?_]
        · exact hg
        · rintro rfl
          rw [hfree] at hg
          cases hg
  · intro e he hcall hroom fd hbase heq
    obtain ⟨o', ho', ⟨-, hlow⟩ | ⟨x, hfd, -⟩⟩ := hopened e he hcall
    · rw [ho'] at heq
      exact absurd (hlow fd (hreturned o' fd heq)) (Int32.not_lt.mpr hbase)
    · rw [ho', hfd] at heq
      cases hresult (Outcome.returned.inj heq)
      intro hfree
      exact hroom ((table e.before).find_next_eq_none_iff.mp hfree)

end

section
variable {γ κ : Type} {G : Machine GuestMem γ} {g : γ} {k : κ}

/-- The fds of sockets are positive, ... -/
theorem socketFdBase_pos : 0 < socketFdBase := by decide

/-- ... and those of files. -/
theorem fileFdBase_pos : 0 < fileFdBase := by decide

/-! ### The socket table on Unix -/

section
variable {K : Machine Unix.Net κ} {a : AppState Unix.HostSocket} (lc : Libc)

/-- `socket` on Unix opens the next fd or none. -/
theorem unix_socket_opened (domain ty protocol : Int32) :
    wp (Unix.machineOver G K) (Unix.socket lc domain ty protocol) (fun _ o s' => Opened a.sockets s'.2.1.sockets o) (g, a, k) := by
  simp only [Unix.socket, wp_bind, wp_networkAllowed, wpNext_returned]
  cases a.networkAllowed with
  | false => exact opened_negErrno socketFdBase_pos _
  | true =>
    simp only [Bool.not_true, Bool.false_eq_true, if_false, Prog.pure_eq, Prog.ret_bind]
    cases Unix.normalizeSocketType lc ty with
    | error errno => exact opened_negErrno socketFdBase_pos _
    | ok socketType =>
      simp only [wp_bind, Unix.wp_libc]
      intro rawFd k₁ _
      rw [wpNext_returned]
      split
      · rw [Unix.wp_negLastErrno]
        intro r k₂ _
        exact opened_negErrno socketFdBase_pos _
      · rw [wp_bind]
        refine wp_mono (wp_of_only_call (Unix.only_configureSocketTypeFlags lc rawFd socketType)) ?_
        rintro tr o ⟨g', a', k'⟩ ⟨-, ha⟩
        cases ha
        rcases o with (errno | _) | _
        · simp only [wpNext_returned, wp_bind, Unix.wp_libc]
          intro r k₂ _
          exact opened_negErrno socketFdBase_pos _
        · rw [wpNext_returned, Unix.wp_insert]
          exact opened_insert _
        · exact opened_panicked

/-- `accept` on Unix opens the next fd or none. -/
theorem unix_accept_opened (fd addrPtr addrLenPtr : Int32) :
    wp (Unix.machineOver G K) (Unix.accept lc fd addrPtr addrLenPtr) (fun _ o s' => Opened a.sockets s'.2.1.sockets o)
      (g, a, k) := by
  simp only [Unix.accept, wp_bind, Unix.wp_get, wpNext_returned]
  cases a.sockets.find fd with
  | none => exact opened_negErrno socketFdBase_pos _
  | some socket =>
    simp only [okOrEbadf, Prog.pure_eq, Prog.ret_bind, wp_bind, wp_readU32_any, wpNext_returned]
    rintro (errno | bytes) g₁ -
    · exact opened_negErrno socketFdBase_pos _
    · simp only [Except.map, wp_bind, wp_alloc_any, wpNext_returned, Unix.wp_libc]
      intro _ g₂ _ accepted k₁ _
      split
      · rw [Unix.wp_negLastErrno]
        intro r k₂ _
        exact opened_negErrno socketFdBase_pos _
      · rw [wp_bind, wp_sliceTo]
        split
        · simp only [wpNext_returned, wp_bind, wp_writeGuest_any]
          rintro (errno | _) g₃ -
          · simp only [wp_bind, Unix.wp_libc, wpNext_returned]
            intro r k₂ _
            exact opened_negErrno socketFdBase_pos _
          · simp only [wp_bind, wp_writeU32_any, wpNext_returned]
            rintro (errno | _) g₄ -
            · simp only [wp_bind, Unix.wp_libc, wpNext_returned]
              intro r k₂ _
              exact opened_negErrno socketFdBase_pos _
            · rw [Unix.wp_insert]
              exact opened_insert _
        · exact opened_panicked

end

/-! ### The socket table on Windows -/

/-- The negated number of a WinSock error is no descriptor. -/
theorem neg_socketErrno_le (code : Int32) : -socketErrno code ≤ 0 := by
  by_cases h : code = 0
  · subst h
    decide
  · obtain ⟨e, he⟩ := socketErrno_of_ne_zero h
    rw [he]
    exact Int32.le_of_lt (negErrno_lt_zero e)

section
variable {K : Machine Windows.Net κ} {a : AppState Windows.HostSocket}

/-- The last error of WinSock is no fd. -/
theorem windows_lastErrno_opened :
    wp (Windows.machineOver G K) Windows.negLastSocketErrno (fun _ o s' => Opened a.sockets s'.2.1.sockets o) (g, a, k) := by
  rw [Windows.wp_negLastSocketErrno]
  intro r k₁ _
  exact opened_of_le_zero socketFdBase_pos (neg_socketErrno_le r)

/-- `socket` on Windows opens the next fd or none. -/
theorem windows_socket_opened (domain ty protocol : Int32) :
    wp (Windows.machineOver G K) (Windows.socket domain ty protocol) (fun _ o s' => Opened a.sockets s'.2.1.sockets o)
      (g, a, k) := by
  simp only [Windows.socket, wp_bind, wp_networkAllowed, wpNext_returned]
  cases a.networkAllowed with
  | false => exact opened_negErrno socketFdBase_pos _
  | true =>
    simp only [Bool.not_true, Bool.false_eq_true, if_false, Prog.pure_eq, Prog.ret_bind, wp_bind, Windows.wp_ensureWinsock,
      wpNext_returned]
    intro rc k₁ _
    by_cases hrc : rc = 0
    · simp only [hrc, if_true]
      cases Windows.normalizeSocketType ty with
      | error errno => exact opened_negErrno socketFdBase_pos _
      | ok socketType =>
        simp only [wp_bind, Windows.wp_ws, wpNext_returned]
        intro rawSocket k₂ _
        split
        · exact windows_lastErrno_opened
        · split
          · simp only [wp_bind, Windows.wp_ws, wpNext_returned]
            intro r k₃ _
            split
            · simp only [wp_bind, Windows.wp_ws, wpNext_returned]
              intro r k₄ _
              exact windows_lastErrno_opened
            · rw [Windows.wp_insert]
              exact opened_insert _
          · rw [Windows.wp_insert]
            exact opened_insert _
    · simp only [hrc, if_false]
      exact opened_of_le_zero socketFdBase_pos (neg_socketErrno_le rc)

/-- `accept` on Windows opens the next fd or none. -/
theorem windows_accept_opened (fd addrPtr addrLenPtr : Int32) :
    wp (Windows.machineOver G K) (Windows.accept fd addrPtr addrLenPtr) (fun _ o s' => Opened a.sockets s'.2.1.sockets o)
      (g, a, k) := by
  simp only [Windows.accept, wp_bind, Windows.wp_get, wpNext_returned]
  cases a.sockets.find fd with
  | none => exact opened_negErrno socketFdBase_pos _
  | some socket =>
    simp only [okOrEbadf, Prog.pure_eq, Prog.ret_bind, wp_bind, Windows.wp_readSockaddrLen_any, wpNext_returned]
    intro r g₁ _
    cases (r.map fun bytes => UInt32.ofNat (ofLeBytes bytes)).bind Windows.checkedSockaddrLen with
    | error errno => exact opened_negErrno socketFdBase_pos _
    | ok requestedLen =>
      simp only [wp_bind, wp_alloc_any, wpNext_returned, Windows.wp_ws]
      intro _ g₂ _ answer k₁ _
      split
      · exact windows_lastErrno_opened
      · split
        · simp only [wp_bind, Windows.wp_ws, wpNext_returned]
          intro r k₂ _
          exact opened_negErrno socketFdBase_pos _
        · rw [wp_bind, wp_sliceTo]
          split
          · simp only [wpNext_returned, wp_bind, wp_writeGuest_any]
            rintro (errno | _) g₃ -
            · simp only [wp_bind, Windows.wp_ws, wpNext_returned]
              intro r k₂ _
              exact opened_negErrno socketFdBase_pos _
            · simp only [wp_bind, wp_writeU32_any, wpNext_returned]
              rintro (errno | _) g₄ -
              · simp only [wp_bind, Windows.wp_ws, wpNext_returned]
                intro r k₂ _
                exact opened_negErrno socketFdBase_pos _
              · rw [Windows.wp_insert]
                exact opened_insert _
          · exact opened_panicked

end

/-! ### The file tables -/

/-- `open` on Unix opens the next fd or none. -/
theorem unix_open_opened {K : Machine ((Fs Str).sum Unix.FileHost) κ} {a : HostFilesInner Str} (lc : Libc)
    (pathPtr flags : Int32) :
    wp (fileMachine G K) (Unix.openFile lc pathPtr flags) (fun _ o s' => Opened a.files s'.2.1.files o) (g, a, k) := by
  simp only [Unix.openFile, wp_bind, wp_readCstr_any]
  rintro (errno | path) g₁ -
  · exact opened_negErrno fileFdBase_pos _
  · simp only [wpNext_returned, wp_bind]
    refine wp_openHost unixPaths (fun _ => opened_panicked) ?_ ?_ ?_
    · intro tr errno
      exact opened_negErrno fileFdBase_pos _
    · intro tr path err k₁ _
      exact opened_negErrno fileFdBase_pos _
    · intro tr path file k₁ _ _
      simp only [wpNext_returned]
      refine wp_insertFile ?_ ?_
      · intro tr' _
        exact opened_insert _
      · intro tr' old r k₂ _ _
        exact opened_insert _

/-- `open` on Windows opens the next fd or none. -/
theorem windows_open_opened {K : Machine ((Fs WinPath).sum Windows.FileHost) κ} {a : HostFilesInner WinPath}
    (pathPtr flags : Int32) :
    wp (fileMachine G K) (Windows.openFile pathPtr flags) (fun _ o s' => Opened a.files s'.2.1.files o) (g, a, k) := by
  simp only [Windows.openFile, wp_bind, wp_readCstr_any]
  rintro (errno | path) g₁ -
  · exact opened_negErrno fileFdBase_pos _
  · simp only [wpNext_returned, wp_bind]
    refine wp_openHost windowsPaths (fun _ => opened_panicked) ?_ ?_ ?_
    · intro tr errno
      exact opened_negErrno fileFdBase_pos _
    · intro tr path err k₁ _
      exact opened_negErrno fileFdBase_pos _
    · intro tr path file k₁ _ _
      simp only [wpNext_returned, wp_bind, Windows.win32, wp_own]
      intro canonical k₂ _
      refine wp_insertFile ?_ ?_
      · intro tr' _
        simp only [wpNext_returned, wp_bind, Windows.lockMaps, wp_own]
        intro _ k₃ _
        exact opened_insert _
      · intro tr' old r k₃ _ _
        simp only [wpNext_returned, wp_bind, Windows.lockMaps, wp_own]
        intro _ k₄ _
        exact opened_insert _

end

/-! ### A run to the end of the counter -/

/-- A kernel that only counts the sockets that are open, and numbers them from 3 on. -/
def counting : Nat → (c : Unix.Net.Cmd) → c.Resp × Nat
  | n, .socket .. => (Int32.ofNat (n + 3), n + 1)
  | n, .close _ => (0, n - 1)
  | n, .lastOsError => (some 9, n)
  | n, c => (Unix.refusing c, n)

/-- The runner over that kernel. Guest memory does not matter here. -/
abbrev countingMachine : Machine Unix.Sockets (Export × (AppState Unix.HostSocket × Nat)) := Unix.machine (.det counting)

/-- The small kernel answers every call. -/
theorem countingMachine_total : countingMachine.Total :=
  (Machine.total_det _).sum ((Machine.total_det _).sum (Machine.total_det (S := Unix.Net) counting))

/-- The runner with a table and a number of open sockets. -/
def running (t : FdTable socketFdBase Unix.HostSocket) (n : Nat) : Export × (AppState Unix.HostSocket × Nat) :=
  (.missing, ⟨true, t⟩, n)

/-- The sessions of the one runner from its start. -/
abbrev Counted (log : List (Entry Unit SocketImport Int32 (Export × (AppState Unix.HostSocket × Nat))))
    (s : Export × (AppState Unix.HostSocket × Nat)) : Prop :=
  Session (Unix.prog linux) (fun _ : Unit => countingMachine) (running (FdTable.empty socketFdBase _) 0) log s

/-- One `socket` of it, ... -/
theorem socket_step (t : FdTable socketFdBase Unix.HostSocket) {n : Nat} (hn : n < 2) :
    wp countingMachine (Unix.prog linux (.socket 2 1 0))
      (fun _ o s' => o = .returned t.next ∧ s' = running (t.insert ⟨Int32.ofNat (n + 3), 2, 2⟩).2 (n + 1)) (running t n) := by
  have hty : Unix.normalizeSocketType linux 1 = .ok ⟨1, false, false⟩ := by decide
  have hdomain : Unix.normalizeSocketDomain linux 2 = 2 := by decide
  have hpos : ¬Int32.ofNat (n + 3) < 0 := by
    obtain rfl | rfl : n = 0 ∨ n = 1 := by omega
    · decide
    · decide
  simp only [Unix.prog, Unix.socket, running, wp_bind, wp_networkAllowed, wpNext_returned, hty, hdomain, Bool.not_true,
    Bool.false_eq_true, if_false, Prog.pure_eq, Prog.ret_bind, Unix.wp_libc]
  intro rawFd k₁ hk
  cases hk
  rw [if_neg hpos]
  simp only [Unix.configureSocketTypeFlags, Unix.addFlag, Bool.false_eq_true, if_false, Prog.pure_eq, Prog.ret_bind,
    Unix.wp_insert]
  exact ⟨trivial, trivial⟩

/-- ... and one `close`. -/
theorem close_step (t : FdTable socketFdBase Unix.HostSocket) {fd : Int32} {socket : Unix.HostSocket} {n : Nat}
    (hfd : t.find fd = some socket) :
    wp countingMachine (Unix.prog linux (.close fd))
      (fun _ o s' => o = .returned 0 ∧ s' = running (t.remove fd) (n - 1)) (running t n) := by
  simp only [Unix.prog, Unix.close, running, wp_bind, Unix.wp_remove, hfd, okOrEbadf, wpNext_returned, Prog.pure_eq,
    Prog.ret_bind, Unix.wp_libc]
  intro rc k₁ hk
  cases hk
  exact ⟨rfl, rfl⟩

/-- A session goes on with a call. -/
theorem Counted.extend {log : List (Entry Unit SocketImport Int32 (Export × (AppState Unix.HostSocket × Nat)))}
    {s : Export × (AppState Unix.HostSocket × Nat)} (h : Counted log s) {c : SocketImport}
    {R : Outcome Int32 → Export × (AppState Unix.HostSocket × Nat) → Prop}
    (hstep : wp countingMachine (Unix.prog linux c) (fun _ => R) s) :
    ∃ o s', R o s' ∧ Counted (log ++ [⟨(), c, s, o, s'⟩]) s' := by
  obtain ⟨tr, o, s', hrun, hR⟩ := countingMachine_total.exists_runs hstep
  exact ⟨o, s', hR, .snoc ⟨(), c, s, o, s'⟩ h hrun⟩

/-- Opening and closing one socket after another brings the counter to its end, with no socket open. -/
theorem Counted.climb (m : Nat) {log : List (Entry Unit SocketImport Int32 (Export × (AppState Unix.HostSocket × Nat)))}
    {t : FdTable socketFdBase Unix.HostSocket} (h : Counted log (running t 0))
    (hm : Int32.maxValue.toInt = t.next.toInt + m) :
    ∃ log' t', Counted log' (running t' 0) ∧ t'.next = Int32.maxValue := by
  induction m generalizing log t with
  | zero =>
    refine ⟨log, t, h, Int32.toInt_inj.mp ?_⟩
    rw [hm]
    simp
  | succ m ih =>
    obtain ⟨o, s', ⟨-, rfl⟩, h₁⟩ := h.extend (socket_step t (by decide : 0 < 2))
    have hfd : (t.insert ⟨Int32.ofNat (0 + 3), 2, 2⟩).2.find t.next = some ⟨Int32.ofNat (0 + 3), 2, 2⟩ := by simp
    obtain ⟨o, s', ⟨-, rfl⟩, h₂⟩ := h₁.extend (close_step _ hfd)
    refine ih h₂ ?_
    have hne : t.next ≠ Int32.maxValue := by
      intro heq
      rw [heq] at hm
      omega
    rw [FdTable.remove_next, FdTable.insert_next, toInt_satSucc hne]
    omega

end FreshnessAux

/-- In every session of imports over any guest memory and any host, the socket tables of both hosts and the file tables of both hosts
hand out descriptors that are not in the table, and keep what is, as long as each call that hands out a descriptor finds room: the
counter below the largest `i32`, or that descriptor free. A call that finds no room and returns a descriptor returns a live one. -/
theorem descriptors_fresh {γ κ : Type} (G : Machine GuestMem γ) (g : γ) (k : κ) (lc : Libc) (toUppercase : Str → Str)
    (networkAllowed : Bool) (unixPreopens : List (PreopenMapping Str)) (windowsPreopens : List (PreopenMapping WinPath)) :
    (∀ K : Machine Unix.Net κ,
      HandsOutFresh (Unix.prog lc) (Unix.machineOver G K) (g, ⟨networkAllowed, FdTable.empty socketFdBase _⟩, k)
        (fun s => s.2.1.sockets) SocketImport.Opens id) ∧
    (∀ K : Machine Windows.Net κ,
      HandsOutFresh Windows.prog (Windows.machineOver G K) (g, ⟨networkAllowed, FdTable.empty socketFdBase _⟩, k)
        (fun s => s.2.1.sockets) SocketImport.Opens id) ∧
    (∀ K : Machine ((Fs Str).sum Unix.FileHost) κ,
      HandsOutFresh (Unix.fileProg lc) (fileMachine G K) (g, ⟨unixPreopens, FdTable.empty fileFdBase _⟩, k)
        (fun s => s.2.1.files) FileImport.Opens Int32.toInt64) ∧
    ∀ K : Machine ((Fs WinPath).sum Windows.FileHost) κ,
      HandsOutFresh (Windows.fileProg toUppercase) (fileMachine G K) (g, ⟨windowsPreopens, FdTable.empty fileFdBase _⟩, k)
        (fun s => s.2.1.files) FileImport.Opens Int32.toInt64 := by
  have hid {o : Outcome Int32} : o = o.map id := by cases o <;> rfl
  have hinj : Function.Injective Int32.toInt64 := Function.LeftInverse.injective Int32.toInt32_toInt64
  refine ⟨?_, ?_, ?_, ?_⟩
  · intro K
    refine FreshnessAux.handsOutFresh_of_opened Function.injective_id ?_
    rintro c ⟨g, a, k⟩ hc
    cases c with
    | socket domain ty protocol =>
      exact wp_mono (FreshnessAux.unix_socket_opened lc domain ty protocol) fun _ o _ ho => ⟨o, hid, ho⟩
    | accept fd addrPtr addrLenPtr =>
      exact wp_mono (FreshnessAux.unix_accept_opened lc fd addrPtr addrLenPtr) fun _ o _ ho => ⟨o, hid, ho⟩
    | _ => exact hc.elim
  · intro K
    refine FreshnessAux.handsOutFresh_of_opened Function.injective_id ?_
    rintro c ⟨g, a, k⟩ hc
    cases c with
    | socket domain ty protocol =>
      exact wp_mono (FreshnessAux.windows_socket_opened domain ty protocol) fun _ o _ ho => ⟨o, hid, ho⟩
    | accept fd addrPtr addrLenPtr =>
      exact wp_mono (FreshnessAux.windows_accept_opened fd addrPtr addrLenPtr) fun _ o _ ho => ⟨o, hid, ho⟩
    | _ => exact hc.elim
  · intro K
    refine FreshnessAux.handsOutFresh_of_opened hinj ?_
    rintro c ⟨g, a, k⟩ hc
    cases c with
    | openFile pathPtr flags mode =>
      exact wp_map.mpr (wp_mono (FreshnessAux.unix_open_opened lc pathPtr flags) fun _ o _ ho => ⟨o, rfl, ho⟩)
    | _ => exact hc.elim
  · intro K
    refine FreshnessAux.handsOutFresh_of_opened hinj ?_
    rintro c ⟨g, a, k⟩ hc
    cases c with
    | openFile pathPtr flags mode =>
      exact wp_map.mpr (wp_mono (FreshnessAux.windows_open_opened pathPtr flags) fun _ o _ ho => ⟨o, rfl, ho⟩)
    | _ => exact hc.elim

/-- A runner that has handed out every descriptor once, and is asked for two sockets more, gives the second the descriptor that the
first has. -/
theorem descriptors_replaced : ∃ log s', FreshnessAux.Counted log s' ∧
    ∃ e ∈ log, e.call.Opens ∧ ∃ fd, e.result = .returned fd ∧ e.before.2.1.sockets.find fd ≠ none := by
  have hmax : Int32.maxValue.toInt = socketFdBase.toInt + 2147473647 := by decide
  obtain ⟨log, t, h, hnext⟩ := FreshnessAux.Counted.climb 2147473647 .nil hmax
  obtain ⟨o, s', ⟨-, rfl⟩, h₁⟩ := h.extend (FreshnessAux.socket_step t (by decide : 0 < 2))
  obtain ⟨o, s', ⟨rfl, rfl⟩, h₂⟩ := h₁.extend (FreshnessAux.socket_step _ (by decide : 1 < 2))
  refine ⟨_, _, h₂, _, List.mem_append_right _ (List.mem_singleton.mpr rfl), trivial, _, rfl, ?_⟩
  simp only [FreshnessAux.running, FdTable.insert_next, FdTable.find_insert, satSucc, hnext, if_true]
  exact Option.some_ne_none _

end WasmtimeMysql
