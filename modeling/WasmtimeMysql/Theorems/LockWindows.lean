import WasmtimeMysql.Lib.NamedObjects
import WasmtimeMysql.Theorems.LockUnix

/-!
# Data-file locking on Windows

`lock_exclusive` creates a named kernel object for the canonical path of the file and keeps the handle in a map by path, which is never
taken out again. Runner processes of one session are the parties. The maps of a process stay consistent whatever its imports do, and
the objects keep the processes apart (`lock_windows`).
-/

namespace WasmtimeMysql.Windows

open Effects

section
variable {ι : Type} [DecidableEq ι]

/-- The kernel objects the locks are made of. -/
abbrev LockObjects (ι : Type) : Type := NamedObjects ι Handle (List UInt16)

/-- What the calls of a process do, next to its two maps. Files do not touch the locks, a path has a canonical form, and
`CreateFileMappingW` either creates the object or reports `ERROR_ALREADY_EXISTS`. Every call may set the last error. -/
def lockHost (p : ι) : Machine ((Fs WinPath).sum FileHost) (LockMaps × LockObjects ι)
  | s, .inl _, _, s' => ∃ err, s' = (s.1, s.2.setError p err)
  | s, .inr (.inl c), r, s' => (r, s'.1) = s.1.handle c ∧ s'.2 = s.2
  | s, .inr (.inr (.canonicalize _)), r, s' => ∃ path err, r = .ok path ∧ s' = (s.1, s.2.setError p err)
  | s, .inr (.inr (.createFileMappingW name)), r, s' =>
    ∃ h err, r = some h ∧ s.2.handle p h = none ∧ (err = errorAlreadyExists ↔ s.2.Exists name) ∧
      s' = (s.1, (s.2.openName p h name).setError p err)
  | s, .inr (.inr .getLastError), r, s' => r = s.2.lastError p ∧ s' = s
  | s, .inr (.inr (.closeHandle h)), _, s' => ∃ err, s' = (s.1, (s.2.closeHandle p h).setError p err)
  | s, .inr (.inr _), _, s' => ∃ err, s' = (s.1, s.2.setError p err)

/-- The runner processes, each with its table and its two maps, and the kernel they share. -/
abbrev Runners (ι : Type) : Type := (ι → HostFilesInner WinPath × LockMaps) × LockObjects ι

/-- A runner process; its guest memory may answer anything. -/
def runner (p : ι) : Machine Files (Runners ι) :=
  Machine.party (fun x k => ((), x.1, (x.2, k))) (fun p => fileMachine .any (lockHost p)) p

/-- The runners at their start. -/
def runnersStart (preopens : ι → List (PreopenMapping WinPath)) : Runners ι :=
  (fun p => (⟨preopens p, FdTable.empty fileFdBase File⟩, ⟨fun _ => none, fun _ => none⟩), .empty ι Handle (List UInt16))

/-- The sessions of the runners. -/
abbrev LockSession (toUppercase : Str → Str) (preopens : ι → List (PreopenMapping WinPath)) :
    List (Entry ι LockImport Int64 (Runners ι)) → Runners ι → Prop :=
  Session (fun c => fileProg toUppercase c.toImport) runner (runnersStart preopens)

end

section
variable {ι : Type}

/-- A guest fd of a process is open. -/
def IsOpen (s : Runners ι) (p : ι) (fd : Int32) : Prop := (s.1 p).1.files.find fd ≠ none

/-- The path a guest fd of a process is locked by. -/
def lockPathOf (s : Runners ι) (p : ι) (fd : Int32) : Option WinParts := (s.1 p).2.lockPaths fd

/-- A process holds a lock on a path: `lock_exclusive` returned 0 for an open guest fd with that path. A lock is never given up. -/
def HoldsLock (log : List (Entry ι LockImport Int64 (Runners ι))) (p : ι) (path : WinParts) : Prop :=
  ∃ e ∈ log, ∃ fd, e.who = p ∧ e.call = .lockExclusive fd ∧ e.result = .returned 0 ∧ IsOpen e.before p fd ∧
    lockPathOf e.before p fd = some path

end

namespace LockAux

section
variable {ι : Type} [DecidableEq ι] (toUppercase : Str → Str)

/-! ### What one import does -/

/-- Everything an import can do to the table and the maps of its process and to the kernel's handles. -/
inductive Effect (p : ι) (a : HostFilesInner WinPath) (m : LockMaps) (k : LockObjects ι) :
    LockImport → Outcome Int64 → HostFilesInner WinPath → LockMaps → LockObjects ι → Prop where
  | failed {c : LockImport} {o : Outcome Int64} {k' : LockObjects ι} : (∀ fd, c ≠ .lockExclusive fd) →
      k'.handle = k.handle → Effect p a m k c o a m k'
  | opened {pathPtr flags mode : Int32} {o : Outcome Int64} {file : File} {path : WinParts} {k' : LockObjects ι} :
      k'.handle = k.handle →
      Effect p a m k (.openFile pathPtr flags mode) o { a with files := (a.files.insert file).2 }
        { m with lockPaths := fun g => if g = a.files.next then some path else m.lockPaths g } k'
  | closed {fd : Int32} {o : Outcome Int64} {k' : LockObjects ι} : k'.handle = k.handle →
      Effect p a m k (.close fd) o { a with files := a.files.remove fd }
        { m with lockPaths := fun g => if g = fd then none else m.lockPaths g } k'
  | notOpen {fd : Int32} : (m.lockPaths fd = none ∨ a.files.find fd = none) →
      Effect p a m k (.lockExclusive fd) (.returned (negErrno .ebadf).toInt64) a m k
  | already {fd : Int32} {path : WinParts} : m.lockPaths fd = some path → m.locks path ≠ none →
      Effect p a m k (.lockExclusive fd) (.returned 0) a m k
  | refused {fd : Int32} {path : WinParts} {k' : LockObjects ι} : m.lockPaths fd = some path → m.locks path = none →
      k.Exists (windowsLockName toUppercase path) → k'.handle = k.handle →
      Effect p a m k (.lockExclusive fd) (.returned (negErrno .eagain).toInt64) a m k'
  | locked {fd : Int32} {path : WinParts} {h : Handle} {k' : LockObjects ι} : m.lockPaths fd = some path →
      m.locks path = none → ¬k.Exists (windowsLockName toUppercase path) → k.handle p h = none →
      k'.handle = (k.openName p h (windowsLockName toUppercase path)).handle →
      Effect p a m k (.lockExclusive fd) (.returned 0) a
        { m with locks := fun q => if q = path then some h else m.locks q } k'

variable {p : ι} {a : HostFilesInner WinPath} {m : LockMaps} {k : LockObjects ι}

/-- An operation on the two maps changes nothing else. -/
theorem wp_lockMaps {c : LockMaps.Cmd} {g : Unit}
    {Q : List (Event Files) → Outcome c.Resp → Unit × (HostFilesInner WinPath × (LockMaps × LockObjects ι)) → Prop} :
    wp (α := no_index c.Resp) (fileMachine .any (lockHost p)) (lockMaps c) Q (g, a, (m, k)) ↔
      Q [⟨.inr (.inr (.inr (.inl c))), (m.handle c).1⟩] (.returned (m.handle c).1) (g, a, ((m.handle c).2, k)) := by
  refine wp_own.trans ?_
  constructor
  · intro h
    exact h _ ((m.handle c).2, k) ⟨rfl, rfl⟩
  · rintro h r ⟨m', k'⟩ ⟨hm, hk⟩
    obtain ⟨rfl, rfl⟩ := Prod.ext_iff.mp hm
    cases hk
    exact h

theorem wp_openFile_effect (pathPtr flags mode : Int32) :
    wp (fileMachine .any (lockHost p)) (fileProg toUppercase (.openFile pathPtr flags mode))
      (fun _ o s' => Effect toUppercase p a m k (.openFile pathPtr flags mode) o s'.2.1 s'.2.2.1 s'.2.2.2) ((), a, (m, k)) := by
  have hfail {o : Outcome Int64} {k' : LockObjects ι} (hk : k'.handle = k.handle) :
      Effect toUppercase p a m k (.openFile pathPtr flags mode) o a m k' := .failed (fun fd h => by cases h) hk
  simp only [fileProg, openFile, wp_map, wp_bind, wp_readCstr_any]
  rintro (errno | path) _ -
  · exact hfail rfl
  · simp only [wpNext_returned, wp_bind]
    refine wp_openHost windowsPaths (fun _ => hfail rfl) (fun _ errno => hfail rfl) ?_ ?_
    · rintro tr path err k₁ ⟨err', rfl⟩
      exact hfail rfl
    · rintro tr path file k₁ - ⟨err, rfl⟩
      simp only [wpNext_returned, wp_bind, win32, wp_own]
      rintro canonical k₂ ⟨path', err', rfl, rfl⟩
      refine wp_insertFile ?_ ?_
      · intro tr' _
        simp only [wpNext_returned, wp_bind, wp_lockMaps]
        exact .opened rfl
      · rintro tr' old r k₃ _ ⟨err'', rfl⟩
        simp only [wpNext_returned, wp_bind, wp_lockMaps]
        exact .opened rfl

theorem wp_lockExclusive_effect (fd : Int32) :
    wp (fileMachine .any (lockHost p)) (fileProg toUppercase (.lockExclusive fd))
      (fun _ o s' => Effect toUppercase p a m k (.lockExclusive fd) o s'.2.1 s'.2.2.1 s'.2.2.2) ((), a, (m, k)) := by
  simp only [fileProg, lockExclusive, wp_map, wp_bind, wp_lockMaps, wpNext_returned, LockMaps.handle]
  cases hpath : m.lockPaths fd with
  | none => exact .notOpen (.inl hpath)
  | some path =>
    simp only [wp_bind, wp_lockMaps, wpNext_returned, LockMaps.handle]
    cases hlock : m.locks path with
    | some h => exact .already hpath (by rw [hlock]; exact Option.some_ne_none h)
    | none =>
      simp only [Option.isSome_none, Bool.false_eq_true, if_false, wp_bind, wp_filesGet, wpNext_returned]
      cases hfile : a.files.find fd with
      | none => exact .notOpen (.inr hfile)
      | some file =>
        simp only [wp_bind, win32, wp_own, wpNext_returned]
        rintro created k₁ ⟨h, err, rfl, hfresh, herr, rfl⟩
        simp only [wp_bind, wp_own, wpNext_returned]
        rintro r k₂ ⟨rfl, rfl⟩
        split
        · rename_i hexists
          simp only [wp_bind, wp_own, wpNext_returned]
          rintro r k₃ ⟨err', rfl⟩
          refine .refused hpath hlock (herr.mp ?_) (NamedObjects.handle_closeHandle_of_fresh hfresh rfl)
          rw [← hexists]
          simp [NamedObjects.setError]
        · rename_i hnew
          simp only [insertLock, wp_bind, wp_lockMaps, wpNext_returned, LockMaps.handle, hlock]
          refine .locked hpath hlock (fun hexists => hnew ?_) hfresh rfl
          rw [← herr.mpr hexists]
          simp [NamedObjects.setError]

theorem wp_close_effect (fd : Int32) :
    wp (fileMachine .any (lockHost p)) (fileProg toUppercase (.close fd))
      (fun _ o s' => Effect toUppercase p a m k (.close fd) o s'.2.1 s'.2.2.1 s'.2.2.2) ((), a, (m, k)) := by
  simp only [fileProg, closeFile, wp_map, wp_bind, wp_filesRemove, wpNext_returned]
  cases hfd : a.files.find fd with
  | none =>
    rw [FdTable.remove_of_find_none hfd]
    exact .failed (fun fd h => by cases h) rfl
  | some file =>
    simp only [wp_bind, wp_fs, wpNext_returned]
    rintro r k₁ ⟨err, rfl⟩
    rw [wp_lockMaps]
    exact .closed rfl

theorem wp_effect (c : LockImport) :
    wp (fileMachine .any (lockHost p)) (fileProg toUppercase c.toImport)
      (fun _ o s' => Effect toUppercase p a m k c o s'.2.1 s'.2.2.1 s'.2.2.2) ((), a, (m, k)) := by
  cases c with
  | openFile pathPtr flags mode => exact wp_openFile_effect toUppercase pathPtr flags mode
  | lockExclusive fd => exact wp_lockExclusive_effect toUppercase fd
  | close fd => exact wp_close_effect toUppercase fd

/-- A call of a session is the effect of an import on the process that makes it. -/
theorem effect_of_runs {c : LockImport} {s s' : Runners ι} {tr : List (Event Files)} {o : Outcome Int64}
    (h : Runs (runner p) (fileProg toUppercase c.toImport) s tr o s') :
    ∃ x, Effect toUppercase p (s.1 p).1 (s.1 p).2 s.2 c o x.1 x.2 s'.2 ∧ s'.1 = Function.update s.1 p x := by
  obtain ⟨x, hrun, hs'⟩ := h.of_party
  exact ⟨x, hrun.of_wp (wp_effect toUppercase c), hs'⟩

/-! ### The invariant -/

/-- The maps of one process agree with its table and with its handles. -/
structure ProcInv (a : HostFilesInner WinPath) (m : LockMaps) (handles : Handle → Option (List UInt16)) : Prop where
  /-- The key sets of `files` and `lock_paths` are equal. -/
  keys : ∀ fd, a.files.find fd ≠ none ↔ m.lockPaths fd ≠ none
  /-- A lock is a handle on the object of its path. -/
  held : ∀ path h, m.locks path = some h → handles h = some (windowsLockName toUppercase path)

/-- Every process is consistent, and an object has at most one handle. -/
structure Inv (s : Runners ι) : Prop where
  proc : ∀ p, ProcInv toUppercase (s.1 p).1 (s.1 p).2 (s.2.handle p)
  unique : ∀ p q h g n, s.2.handle p h = some n → s.2.handle q g = some n → p = q

variable {toUppercase} {c : LockImport} {o : Outcome Int64} {a' : HostFilesInner WinPath} {m' : LockMaps} {k' : LockObjects ι}

/-- An import keeps its process consistent. -/
theorem Effect.proc (h : Effect toUppercase p a m k c o a' m' k') (hinv : ProcInv toUppercase a m (k.handle p)) :
    ProcInv toUppercase a' m' (k'.handle p) := by
  cases h with
  | failed _ hk =>
    rw [hk]
    exact hinv
  | @opened _ _ _ _ file path _ hk =>
    refine ⟨?_, by rw [hk]; exact hinv.held⟩
    intro fd
    dsimp only
    rw [FdTable.find_insert]
    split
    · exact ⟨fun _ => nofun, fun _ => nofun⟩
    · exact hinv.keys fd
  | @closed fd _ _ hk =>
    refine ⟨?_, by rw [hk]; exact hinv.held⟩
    intro gd
    dsimp only
    rw [FdTable.find_remove]
    split
    · exact ⟨fun hne => absurd rfl hne, fun hne => absurd rfl hne⟩
    · exact hinv.keys gd
  | notOpen _ => exact hinv
  | already _ _ => exact hinv
  | refused _ _ _ hk =>
    rw [hk]
    exact hinv
  | @locked fd path h _ _ hlock _ hfresh hk =>
    refine ⟨hinv.keys, ?_⟩
    intro path' h' hlocked
    rw [hk, NamedObjects.handle_openName]
    dsimp only at hlocked
    split at hlocked
    · rename_i heq
      cases hlocked
      rw [heq]
      simp
    · have hheld := hinv.held path' h' hlocked
      rw [if_neg ?_]
      · exact hheld
      · rintro ⟨-, rfl⟩
        rw [hfresh] at hheld
        cases hheld

/-- An import leaves the handles of the other processes alone. -/
theorem Effect.handle_of_ne (h : Effect toUppercase p a m k c o a' m' k') {q : ι} (hq : q ≠ p) : k'.handle q = k.handle q := by
  cases h with
  | failed _ hk => rw [hk]
  | opened hk => rw [hk]
  | closed hk => rw [hk]
  | notOpen _ => rfl
  | already _ _ => rfl
  | refused _ _ _ hk => rw [hk]
  | locked _ _ _ _ hk =>
    funext g
    rw [hk, NamedObjects.handle_openName, if_neg]
    rintro ⟨heq, -⟩
    exact hq heq

/-- A handle that an import opens is on an object of which there was none. -/
theorem Effect.unique (h : Effect toUppercase p a m k c o a' m' k')
    (hinv : ∀ p q h g n, k.handle p h = some n → k.handle q g = some n → p = q) (q r : ι) (g g' : Handle) (n : List UInt16)
    (hq : k'.handle q g = some n) (hr : k'.handle r g' = some n) : q = r := by
  cases h with
  | failed _ hk => exact hinv q r g g' n (hk ▸ hq) (hk ▸ hr)
  | opened hk => exact hinv q r g g' n (hk ▸ hq) (hk ▸ hr)
  | closed hk => exact hinv q r g g' n (hk ▸ hq) (hk ▸ hr)
  | notOpen _ => exact hinv q r g g' n hq hr
  | already _ _ => exact hinv q r g g' n hq hr
  | refused _ _ _ hk => exact hinv q r g g' n (hk ▸ hq) (hk ▸ hr)
  | locked _ _ hnew _ hk =>
    rw [hk, NamedObjects.handle_openName] at hq hr
    split at hq <;> split at hr
    · rename_i heq heq'
      rw [heq.1, heq'.1]
    · cases hq
      exact absurd ⟨r, g', hr⟩ hnew
    · cases hr
      exact absurd ⟨q, g, hq⟩ hnew
    · exact hinv q r g g' n hq hr

/-- No import gives up a lock. -/
theorem Effect.locks_mono (h : Effect toUppercase p a m k c o a' m' k') {path : WinParts} (hlock : m.locks path ≠ none) :
    m'.locks path ≠ none := by
  cases h with
  | locked =>
    dsimp only
    split
    · exact nofun
    · exact hlock
  | _ => exact hlock

/-- `lock_exclusive` returns 0 only with the path locked. -/
theorem Effect.locks_of_zero {fd : Int32} {path : WinParts}
    (h : Effect toUppercase p a m k (.lockExclusive fd) (.returned 0) a' m' k') (hpath : m.lockPaths fd = some path) :
    m'.locks path ≠ none := by
  generalize hres : (Outcome.returned 0 : Outcome Int64) = o at h
  cases h with
  | failed hcall _ => exact absurd rfl (hcall fd)
  | notOpen _ => exact absurd hres (by decide)
  | already hpath' hlock =>
    cases hpath.symm.trans hpath'
    exact hlock
  | refused => exact absurd hres (by decide)
  | locked hpath' =>
    cases hpath.symm.trans hpath'
    simp

/-- `lock_exclusive` on an open guest fd whose path is locked returns 0. -/
theorem Effect.result_of_locks {fd : Int32} {path : WinParts} (h : Effect toUppercase p a m k (.lockExclusive fd) o a' m' k')
    (hopen : a.files.find fd ≠ none) (hpath : m.lockPaths fd = some path) (hlock : m.locks path ≠ none) :
    o = .returned 0 := by
  cases h with
  | failed hcall _ => exact absurd rfl (hcall fd)
  | notOpen hnone =>
    rcases hnone with hnone | hnone
    · rw [hnone] at hpath
      cases hpath
    · exact absurd hnone hopen
  | already _ _ => rfl
  | refused hpath' hnone =>
    cases hpath.symm.trans hpath'
    exact absurd hnone hlock
  | locked _ _ => rfl

/-- `lock_exclusive` returns `-EBADF` for guest fds that are not open, and for no others. -/
theorem Effect.ebadf_iff {fd : Int32} (h : Effect toUppercase p a m k (.lockExclusive fd) o a' m' k')
    (hkeys : a.files.find fd ≠ none ↔ m.lockPaths fd ≠ none) :
    o = .returned (negErrno .ebadf).toInt64 ↔ ¬a.files.find fd ≠ none := by
  -- a guest fd with a path is open, and the result is not the error
  have hother {path : WinParts} {v : Int64} (hpath : m.lockPaths fd = some path) (hv : v ≠ (negErrno .ebadf).toInt64) :
      (Outcome.returned v = .returned (negErrno .ebadf).toInt64) ↔ ¬a.files.find fd ≠ none := by
    refine ⟨fun heq => absurd (Outcome.returned.inj heq) hv, fun hnot => absurd (hkeys.mpr ?_) hnot⟩
    rw [hpath]
    nofun
  cases h with
  | failed hcall _ => exact absurd rfl (hcall fd)
  | notOpen hnone =>
    refine iff_of_true rfl ?_
    rcases hnone with hnone | hnone
    · exact fun hopen => hkeys.mp hopen hnone
    · exact fun hopen => hopen hnone
  | already hpath _ => exact hother hpath (by decide)
  | refused hpath => exact hother hpath (by decide)
  | locked hpath => exact hother hpath (by decide)

/-! ### Sessions -/

/-- An import keeps the invariant. -/
theorem Inv.step {s s' : Runners ι} (h : Inv toUppercase s) {tr : List (Event Files)}
    (hrun : Runs (runner p) (fileProg toUppercase c.toImport) s tr o s') : Inv toUppercase s' := by
  obtain ⟨x, heffect, hs'⟩ := effect_of_runs toUppercase hrun
  refine ⟨?_, heffect.unique h.unique⟩
  intro q
  rw [hs']
  by_cases hq : q = p
  · subst hq
    rw [Function.update_self]
    exact heffect.proc (h.proc q)
  · rw [Function.update_of_ne hq, heffect.handle_of_ne hq]
    exact h.proc q

/-- What a process holds is in its map. -/
theorem locks_of_session {preopens : ι → List (PreopenMapping WinPath)} {log : List (Entry ι LockImport Int64 (Runners ι))}
    {s : Runners ι} (h : LockSession toUppercase preopens log s) {p : ι} {path : WinParts} (hp : HoldsLock log p path) :
    (s.1 p).2.locks path ≠ none := by
  induction h with
  | nil =>
    obtain ⟨e, he, -⟩ := hp
    cases he
  | snoc e _ hrun ih =>
    obtain ⟨x, heffect, hs'⟩ := effect_of_runs toUppercase hrun
    obtain ⟨e', he', fd, hwho, hcall, hresult, hopen, hpath⟩ := hp
    rw [hs']
    rcases List.mem_append.mp he' with he' | he'
    · have hlock := ih ⟨e', he', fd, hwho, hcall, hresult, hopen, hpath⟩
      by_cases hq : p = e.who
      · subst hq
        rw [Function.update_self]
        exact heffect.locks_mono hlock
      · rw [Function.update_of_ne hq]
        exact hlock
    · cases List.mem_singleton.mp he'
      subst hwho
      rw [Function.update_self]
      rw [hcall, hresult] at heffect
      exact heffect.locks_of_zero hpath

/-- Every session keeps the invariant. -/
theorem inv_of_session {preopens : ι → List (PreopenMapping WinPath)} {log : List (Entry ι LockImport Int64 (Runners ι))}
    {s : Runners ι} (h : LockSession toUppercase preopens log s) : Inv toUppercase s := by
  induction h with
  | nil =>
    refine ⟨fun p => ⟨fun fd => ?_, nofun⟩, nofun⟩
    exact ⟨fun hne => absurd rfl hne, fun hne => absurd rfl hne⟩
  | snoc e _ hrun ih => exact ih.step hrun

end

/-! ### Two runners -/

/-- A host for two processes that open one lock each. Every path is its own canonical form. -/
def oneLock (p : Bool) (s : LockMaps × LockObjects Bool) : (c : ((Fs WinPath).sum FileHost).Cmd) →
    Option (((Fs WinPath).sum FileHost).Resp c × (LockMaps × LockObjects Bool))
  | .inl (.openFile ..) => some (.ok ⟨3⟩, (s.1, s.2.setError p 0))
  | .inl (.drop _) => some ((), (s.1, s.2.setError p 0))
  | .inl _ => none
  | .inr (.inl c) => some ((s.1.handle c).1, ((s.1.handle c).2, s.2))
  | .inr (.inr (.canonicalize path)) => some (.ok (parseWinPath path.text), (s.1, s.2.setError p 0))
  | .inr (.inr (.createFileMappingW name)) =>
    if s.2.handle p 7 = none then
      some (some 7, (s.1, (s.2.openName p 7 name).setError p (if s.2.handle (!p) 7 = some name then errorAlreadyExists else 0)))
    else none
  | .inr (.inr .getLastError) => some (s.2.lastError p, s)
  | .inr (.inr (.closeHandle h)) => some ((), (s.1, (s.2.closeHandle p h).setError p 0))
  | .inr (.inr _) => none

/-- No process has a second handle. -/
def OneHandle (k : LockObjects Bool) : Prop := ∀ p h, h ≠ 7 → k.handle p h = none

theorem oneLock_allowed (p : Bool) (s : LockMaps × LockObjects Bool) (c : ((Fs WinPath).sum FileHost).Cmd)
    (r : ((Fs WinPath).sum FileHost).Resp c) (s' : LockMaps × LockObjects Bool) (hone : OneHandle s.2)
    (h : oneLock p s c = some (r, s')) : lockHost p s c r s' ∧ OneHandle s'.2 := by
  rcases c with c | c | c
  · cases c with
    | openFile path options =>
      cases h
      exact ⟨⟨0, rfl⟩, hone⟩
    | drop file =>
      cases h
      exact ⟨⟨0, rfl⟩, hone⟩
    | _ => cases h
  · cases h
    exact ⟨⟨rfl, rfl⟩, hone⟩
  · cases c with
    | canonicalize path =>
      cases h
      exact ⟨⟨parseWinPath path.text, 0, rfl, rfl⟩, hone⟩
    | createFileMappingW name =>
      unfold oneLock at h
      dsimp only at h
      split at h
      · rename_i hfree
        cases h
        refine ⟨⟨7, _, rfl, hfree, ?_, rfl⟩, ?_⟩
        · -- the only handle there can be on the name is the other process's
          have hexists : s.2.Exists name ↔ s.2.handle (!p) 7 = some name := by
            refine ⟨?_, fun h => ⟨!p, 7, h⟩⟩
            rintro ⟨q, g, hg⟩
            by_cases hg7 : g = 7
            · subst hg7
              by_cases hq : q = p
              · subst hq
                cases hfree.symm.trans hg
              · rw [← Bool.eq_not_of_ne hq]
                exact hg
            · cases (hone q g hg7).symm.trans hg
          rw [hexists]
          split
          · rename_i hname
            exact iff_of_true rfl hname
          · rename_i hname
            exact iff_of_false (by decide) hname
        · intro q g hg
          rw [NamedObjects.handle_setError, NamedObjects.handle_openName, if_neg (fun heq => hg heq.2)]
          exact hone q g hg
      · cases h
    | getLastError =>
      cases h
      exact ⟨⟨rfl, rfl⟩, hone⟩
    | closeHandle handle =>
      cases h
      refine ⟨⟨0, rfl⟩, ?_⟩
      intro q g hg
      rw [NamedObjects.handle_setError, NamedObjects.handle_closeHandle, hone q g hg, ite_self]
    | _ => cases h

/-- The two runners, played. Every guest string is `d`. -/
def twoRunners (p : Bool) (s : Runners Bool) : (c : Files.Cmd) → Option (Files.Resp c × Runners Bool)
  | .inl c => some (Unix.LockAux.memoryD c, s)
  | .inr (.inl c) =>
    some (((s.1 p).1.handle c).1, (Function.update s.1 p (((s.1 p).1.handle c).2, (s.1 p).2), s.2))
  | .inr (.inr c) =>
    (oneLock p ((s.1 p).2, s.2) c).map fun x => (x.1, (Function.update s.1 p ((s.1 p).1, x.2.1), x.2.2))

theorem twoRunners_allowed (p : Bool) (s : Runners Bool) (c : Files.Cmd) (r : Files.Resp c) (s' : Runners Bool)
    (hone : OneHandle s.2) (h : twoRunners p s c = some (r, s')) : runner p s c r s' ∧ OneHandle s'.2 := by
  rcases c with c | c | c
  · cases h
    exact ⟨⟨s.1 p, ⟨trivial, rfl⟩, by simp⟩, hone⟩
  · cases h
    exact ⟨⟨(((s.1 p).1.handle c).2, (s.1 p).2), ⟨⟨rfl, rfl⟩, rfl⟩, rfl⟩, hone⟩
  · obtain ⟨x, hx, heq⟩ := Option.map_eq_some_iff.mp h
    cases heq
    obtain ⟨hstep, hone'⟩ := oneLock_allowed p _ c _ _ hone hx
    exact ⟨⟨((s.1 p).1, x.2.1), ⟨⟨hstep, rfl⟩, rfl⟩, rfl⟩, hone'⟩

/-- Both runners have one data directory. -/
def oneDir : Bool → List (PreopenMapping WinPath) := fun _ => [⟨['/'], ⟨"/data".toList⟩⟩]

/-- What a list of calls of the two runners comes to. -/
def played (calls : List (Bool × LockImport)) : List (Entry Bool LockImport Int64 (Runners Bool)) × Runners Bool :=
  (play (fun c => fileProg id c.toImport) twoRunners [] (runnersStart oneDir) calls).getD ([], runnersStart oneDir)

theorem played_session (calls : List (Bool × LockImport)) : LockSession id oneDir (played calls).1 (played calls).2 := by
  unfold played
  cases hplay : play (fun c => fileProg id c.toImport) twoRunners [] (runnersStart oneDir) calls with
  | none => exact .nil
  | some r => exact Session.nil.play twoRunners_allowed (fun _ _ _ => rfl) hplay

end LockAux

/-- In every session of runner processes over one kernel:
(a) no two processes hold a lock on the same path;
(b) `lock_exclusive` on an open guest fd whose path the process holds returns 0;
(c) `lock_exclusive` returns `-EBADF` exactly for guest fds that are not open, and the key sets of `lock_paths` and `files` are equal
in the state reached. -/
theorem lock_windows {ι : Type} [DecidableEq ι] (toUppercase : Str → Str) (preopens : ι → List (PreopenMapping WinPath))
    (log : List (Entry ι LockImport Int64 (Runners ι))) (s : Runners ι) (h : LockSession toUppercase preopens log s) :
    (∀ p q path, HoldsLock log p path → HoldsLock log q path → p = q) ∧
    (∀ pre e post fd path, log = pre ++ e :: post → e.call = .lockExclusive fd → IsOpen e.before e.who fd →
      lockPathOf e.before e.who fd = some path → HoldsLock pre e.who path → e.result = .returned 0) ∧
    (∀ pre e post fd, log = pre ++ e :: post → e.call = .lockExclusive fd →
      (e.result = .returned (negErrno .ebadf).toInt64 ↔ ¬IsOpen e.before e.who fd)) ∧
    ∀ p fd, IsOpen s p fd ↔ lockPathOf s p fd ≠ none := by
  refine ⟨?_, ?_, ?_, ?_⟩
  · intro p q path hp hq
    have hinv := LockAux.inv_of_session h
    obtain ⟨g, hg⟩ := Option.ne_none_iff_exists'.mp (LockAux.locks_of_session h hp)
    obtain ⟨g', hg'⟩ := Option.ne_none_iff_exists'.mp (LockAux.locks_of_session h hq)
    exact hinv.unique p q g g' _ ((hinv.proc p).held path g hg) ((hinv.proc q).held path g' hg')
  · intro pre e post fd path hlog hcall hopen hpath hheld
    obtain ⟨hpre, tr, hrun⟩ := h.split hlog
    obtain ⟨x, heffect, -⟩ := LockAux.effect_of_runs toUppercase hrun
    have hlock := LockAux.locks_of_session hpre hheld
    rw [hcall] at heffect
    exact heffect.result_of_locks hopen hpath hlock
  · intro pre e post fd hlog hcall
    obtain ⟨hpre, tr, hrun⟩ := h.split hlog
    obtain ⟨x, heffect, -⟩ := LockAux.effect_of_runs toUppercase hrun
    have hkeys := ((LockAux.inv_of_session hpre).proc e.who).keys fd
    rw [hcall] at heffect
    exact heffect.ebadf_iff hkeys
  · intro p fd
    exact ((LockAux.inv_of_session h).proc p).keys fd

/-- A runner that opened the data file and locked it holds the lock, alone, and the other one's request is refused. -/
theorem lock_windows_two : ∃ (log : List (Entry Bool LockImport Int64 (Runners Bool))) (s : Runners Bool),
    LockSession id LockAux.oneDir log s ∧ (∃ path, HoldsLock log true path ∧ ∀ q, HoldsLock log q path → q = true) ∧
      log.map (·.result) = [.returned 20000, .returned 0, .returned 20000, .returned (-6)] := by
  let calls : List (Bool × LockImport) :=
    [(true, .openFile 0 0 0), (true, .lockExclusive 20000), (false, .openFile 0 0 0), (false, .lockExclusive 20000)]
  have hsession := LockAux.played_session calls
  have hholds : HoldsLock (LockAux.played calls).1 true ⟨none, true, [.normal "data".toList, .normal ['d']]⟩ := by
    have hentry : ∃ e ∈ (LockAux.played calls).1, e.who = true ∧ e.call = .lockExclusive 20000 ∧ e.result = .returned 0 ∧
        (e.before.1 true).1.files.find 20000 ≠ none ∧
        (e.before.1 true).2.lockPaths 20000 = some ⟨none, true, [.normal "data".toList, .normal ['d']]⟩ := by decide +kernel
    obtain ⟨e, he, hlock⟩ := hentry
    exact ⟨e, he, 20000, hlock⟩
  refine ⟨_, _, hsession, ⟨_, hholds, ?_⟩, by decide +kernel⟩
  intro q hq
  exact (lock_windows id LockAux.oneDir _ _ hsession).1 q true _ hq hholds

end WasmtimeMysql.Windows
