import WasmtimeMysql.Lemmas.FileWp
import WasmtimeMysql.Lib.RecordLocks
import WasmtimeMysql.Lib.Session

/-!
# Data-file locking on Unix

`lock_exclusive` takes a record lock, which belongs to the process and is dropped when the process closes any descriptor of the file.
Runner processes over one filesystem are the parties of a session of `open`, `lock_exclusive` and `close` imports. As long as no
process closes a file while another of its descriptors for the same file is locked, no two processes have a locked descriptor for one
file (`lock_excludes_unix`). One such close is enough to let a second runner in (`lock_lost_unix`).
-/

namespace WasmtimeMysql

open Effects

/-- The imports that decide about locks. -/
inductive LockImport where
  | openFile (pathPtr flags mode : Int32)
  | lockExclusive (fd : Int32)
  | close (fd : Int32)
  deriving DecidableEq, Repr

/-- The import it is. -/
def LockImport.toImport : LockImport → FileImport
  | .openFile pathPtr flags mode => .openFile pathPtr flags mode
  | .lockExclusive fd => .lockExclusive fd
  | .close fd => .close fd

namespace Unix

section
variable {ι Inode : Type} [DecidableEq ι] [DecidableEq Inode]

/-- What the calls of a process do to the descriptors and locks. A path may lead to any file, and `fcntl` may fail for other reasons
than a lock of another process. -/
def lockKernel (p : ι) : Machine ((Fs Str).sum FileHost) (RecordLocks ι File Inode)
  | k, .inl (.openFile ..), .error _, k' => k' = k
  | k, .inl (.openFile ..), .ok file, k' => k.desc p file = none ∧ ∃ i, k' = k.openDesc p file i
  | k, .inl (.drop file), _, k' => k' = k.closeDesc p file
  | k, .inl _, _, k' => k' = k
  | k, .inr (.setlk file), rc, k' =>
    (rc = 0 ∧ ∃ i, k.desc p file = some i ∧ k.MayLock p i ∧ k' = k.lock p i) ∨ (rc ≠ 0 ∧ k' = k)
  | k, .inr .lastOsError, _, k' => k' = k

/-- The runner processes, and the kernel they share. -/
abbrev Runners (ι Inode : Type) : Type := (ι → HostFilesInner Str) × RecordLocks ι File Inode

/-- A runner process; its guest memory may answer anything. -/
def runner (p : ι) : Machine Files (Runners ι Inode) :=
  Machine.party (fun a k => ((), a, k)) (fun p => fileMachine .any (lockKernel p)) p

/-- The runners at their start. -/
def runnersStart (preopens : ι → List (PreopenMapping Str)) : Runners ι Inode :=
  (fun p => ⟨preopens p, FdTable.empty fileFdBase File⟩, .empty ι File Inode)

/-- The sessions of the runners. -/
abbrev LockSession (lc : Libc) (preopens : ι → List (PreopenMapping Str)) :
    List (Entry ι LockImport Int64 (Runners ι Inode)) → Runners ι Inode → Prop :=
  Session (fun c => fileProg lc c.toImport) runner (runnersStart preopens)

/-- The file a guest fd of a process is open on. -/
def fileOf (s : Runners ι Inode) (p : ι) (fd : Int32) : Option Inode := ((s.1 p).files.find fd).bind (s.2.desc p)

/-- A call after which a guest fd is not the one it was: it is closed or handed out anew. -/
def Renews (fd : Int32) (e : Entry ι LockImport Int64 (Runners ι Inode)) : Prop :=
  e.call = .close fd ∨ ∃ pathPtr flags mode, e.call = .openFile pathPtr flags mode ∧ e.result = .returned fd.toInt64

/-- `lock_exclusive` returned 0 for a guest fd of a process, which has been the same since. -/
def LockReturned (log : List (Entry ι LockImport Int64 (Runners ι Inode))) (p : ι) (fd : Int32) : Prop :=
  ∃ pre e post, log = pre ++ e :: post ∧ e.who = p ∧ e.call = .lockExclusive fd ∧ e.result = .returned 0 ∧
    ∀ e' ∈ post, e'.who = p → ¬Renews fd e'

/-- A process has an open guest fd for a file on which `lock_exclusive` returned 0. -/
def HasLocked (log : List (Entry ι LockImport Int64 (Runners ι Inode))) (s : Runners ι Inode) (p : ι) (i : Inode) : Prop :=
  ∃ fd, LockReturned log p fd ∧ fileOf s p fd = some i

/-- The guest fd whose file a call closes, if it is open: the one named by `close`, and for `open` the one it takes. -/
def Closes (t : FdTable fileFdBase File) (fd : Int32) : LockImport → Prop
  | .openFile .. => fd = t.next
  | .lockExclusive _ => False
  | .close gd => fd = gd

/-- A call does not close a file that another guest fd of the process has open and locked. -/
def KeepsLocks (log : List (Entry ι LockImport Int64 (Runners ι Inode))) (e : Entry ι LockImport Int64 (Runners ι Inode)) : Prop :=
  ∀ fd gd i, Closes (e.before.1 e.who).files fd e.call → gd ≠ fd → fileOf e.before e.who fd = some i →
    fileOf e.before e.who gd = some i → ¬LockReturned log e.who gd

end

namespace LockAux

section
variable {ι Inode : Type}

/-! ### The invariant -/

/-- The guest fds that count as locked, given as a predicate, have their files locked by their process. Descriptors are open and
belong to one guest fd each. -/
structure Inv (marked : ι → Int32 → Prop) (s : Runners ι Inode) : Prop where
  live : ∀ p fd file, (s.1 p).files.find fd = some file → s.2.desc p file ≠ none
  inj : ∀ p fd gd file, (s.1 p).files.find fd = some file → (s.1 p).files.find gd = some file → fd = gd
  owned : ∀ p fd i, marked p fd → fileOf s p fd = some i → s.2.owner i = some p


variable {marked : ι → Int32 → Prop} {s : Runners ι Inode}

/-- With fewer fds marked the invariant holds, too. -/
theorem Inv.mono {marked' : ι → Int32 → Prop} (h : Inv marked s) (hm : ∀ p fd, marked' p fd → marked p fd) : Inv marked' s where
  live := h.live
  inj := h.inj
  owned p fd i hmark := h.owned p fd i (hm p fd hmark)

/-- An fd has a file if it is open, and its description is of that file. -/
theorem fileOf_eq_some {p : ι} {fd : Int32} {i : Inode} :
    fileOf s p fd = some i ↔ ∃ file, (s.1 p).files.find fd = some file ∧ s.2.desc p file = some i := by
  unfold fileOf
  rw [Option.bind_eq_some_iff]

/-- What one more call does to the guest fds that count as locked. -/
theorem lockReturned_snoc {log : List (Entry ι LockImport Int64 (Runners ι Inode))}
    {e : Entry ι LockImport Int64 (Runners ι Inode)} {p : ι} {fd : Int32} :
    LockReturned (log ++ [e]) p fd ↔
      (e.who = p ∧ e.call = .lockExclusive fd ∧ e.result = .returned 0) ∨
        (LockReturned log p fd ∧ (e.who = p → ¬Renews fd e)) := by
  constructor
  · rintro ⟨pre, e', post, heq, hwho, hcall, hresult, hpost⟩
    rcases snoc_eq_split heq with ⟨rfl, rfl⟩ | ⟨post', hlog, rfl⟩
    · exact .inl ⟨hwho, hcall, hresult⟩
    · refine .inr ⟨⟨pre, e', post', hlog, hwho, hcall, hresult, ?_⟩, hpost e (by simp)⟩
      intro e'' he''
      exact hpost e'' (by simp [he''])
  · rintro (⟨hwho, hcall, hresult⟩ | ⟨⟨pre, e', post, rfl, hwho, hcall, hresult, hpost⟩, hlast⟩)
    · exact ⟨log, e, [], rfl, hwho, hcall, hresult, by simp⟩
    · refine ⟨pre, e', post ++ [e], by simp, hwho, hcall, hresult, ?_⟩
      intro e'' he''
      rcases List.mem_append.mp he'' with he'' | he''
      · exact hpost e'' he''
      · rw [List.mem_singleton.mp he'']
        exact hlast

/-- Whether a guest fd counts as locked after one more call. -/
def track [DecidableEq ι] (p : ι) (fd : Int32) (locked : Bool) (e : Entry ι LockImport Int64 (Runners ι Inode)) : Bool :=
  if e.who = p then
    match e.call with
    | .lockExclusive gd => if gd = fd ∧ e.result = .returned 0 then true else locked
    | .close gd => if gd = fd then false else locked
    | .openFile .. => if e.result = .returned fd.toInt64 then false else locked
  else locked

/-- The mark is set exactly while the last call that decides it has locked. -/
theorem track_foldl_iff [DecidableEq ι] {p : ι} {fd : Int32} (log : List (Entry ι LockImport Int64 (Runners ι Inode))) :
    log.foldl (track p fd) false = true ↔ LockReturned log p fd := by
  induction log using List.reverseRecOn with
  | nil =>
    refine ⟨nofun, ?_⟩
    rintro ⟨pre, e, post, heq, -⟩
    simp at heq
  | append_singleton log e ih =>
    rw [List.foldl_append, List.foldl_cons, List.foldl_nil, lockReturned_snoc, ← ih]
    generalize log.foldl (track p fd) false = locked
    unfold track Renews
    by_cases hwho : e.who = p
    · rw [if_pos hwho]
      cases hcall : e.call with
      | openFile pathPtr flags mode => by_cases hres : e.result = .returned fd.toInt64 <;> simp [hwho, hres]
      | lockExclusive gd => by_cases hlock : gd = fd ∧ e.result = .returned 0 <;> simp_all
      | close gd => by_cases hgd : gd = fd <;> simp [hwho, hgd]
    · simp [hwho]

instance [DecidableEq ι] (log : List (Entry ι LockImport Int64 (Runners ι Inode))) (p : ι) (fd : Int32) :
    Decidable (LockReturned log p fd) := decidable_of_iff _ (track_foldl_iff log)

/-! ### What keeps the invariant -/

section
variable [DecidableEq ι]

/-- The runners with the table of one process, and the kernel, changed. -/
def put (s : Runners ι Inode) (p : ι) (t : FdTable fileFdBase File) (k : RecordLocks ι File Inode) : Runners ι Inode :=
  (Function.update s.1 p { s.1 p with files := t }, k)

/-- What is put is there, ... -/
theorem put_self (p : ι) (t : FdTable fileFdBase File) (k : RecordLocks ι File Inode) : ((put s p t k).1 p).files = t := by
  simp [put]

/-- ... the other runners keep theirs, ... -/
theorem put_of_ne {p q : ι} (h : q ≠ p) (t : FdTable fileFdBase File) (k : RecordLocks ι File Inode) :
    (put s p t k).1 q = s.1 q := by
  simp [put, h]

/-- ... the last one counts, ... -/
theorem put_put (p : ι) (t t' : FdTable fileFdBase File) (k k' : RecordLocks ι File Inode) :
    put (put s p t k) p t' k' = put s p t' k' := by
  simp [put]

/-- ... and so does its kernel. -/
theorem put_kernel (p : ι) (t : FdTable fileFdBase File) (k : RecordLocks ι File Inode) : (put s p t k).2 = k := rfl

/-- The file of a new guest fd is open on a descriptor of its own, and nothing else has moved. -/
theorem Inv.opened (h : Inv marked s) {p : ι} {file : File} {i : Inode} (hfresh : s.2.desc p file = none) :
    Inv (fun q gd => marked q gd ∧ ¬(q = p ∧ gd = (s.1 p).files.next))
      (put s p ((s.1 p).files.insert file).2 (s.2.openDesc p file i)) := by
  -- a file that was in a table is not the new one
  have hother {gd : Int32} {file' : File} (hgd : (s.1 p).files.find gd = some file') : file' ≠ file := by
    rintro rfl
    exact h.live p gd file' hgd hfresh
  refine ⟨?_, ?_, ?_⟩
  · intro q gd file' hgd
    by_cases hq : q = p
    · subst hq
      rw [put_self, FdTable.find_insert] at hgd
      rw [put_kernel, RecordLocks.desc_openDesc]
      split at hgd
      · cases hgd
        simp
      · rw [if_neg (fun heq => hother hgd heq.2)]
        exact h.live q gd file' hgd
    · rw [put_of_ne hq] at hgd
      rw [put_kernel, RecordLocks.desc_openDesc, if_neg (fun heq => hq heq.1)]
      exact h.live q gd file' hgd
  · intro q gd hd file' hgd hhd
    by_cases hq : q = p
    · subst hq
      rw [put_self, FdTable.find_insert] at hgd hhd
      split at hgd <;> split at hhd
      · rename_i heq₁ heq₂
        rw [heq₁, heq₂]
      · cases hgd
        exact absurd rfl (hother hhd)
      · cases hhd
        exact absurd rfl (hother hgd)
      · exact h.inj q gd hd file' hgd hhd
    · rw [put_of_ne hq] at hgd hhd
      exact h.inj q gd hd file' hgd hhd
  · rintro q gd j ⟨hmark, hne⟩ hfile
    rw [put_kernel, RecordLocks.owner_openDesc]
    refine h.owned q gd j hmark ?_
    obtain ⟨file', hgd, hdesc⟩ := fileOf_eq_some.mp hfile
    refine fileOf_eq_some.mpr ⟨file', ?_⟩
    by_cases hq : q = p
    · subst hq
      rw [put_self, FdTable.find_insert, if_neg (fun heq => hne ⟨rfl, heq⟩)] at hgd
      rw [put_kernel, RecordLocks.desc_openDesc, if_neg (fun heq => hother hgd heq.2)] at hdesc
      exact ⟨hgd, hdesc⟩
    · rw [put_of_ne hq] at hgd
      rw [put_kernel, RecordLocks.desc_openDesc, if_neg (fun heq => hq heq.1)] at hdesc
      exact ⟨hgd, hdesc⟩

end

section
variable [DecidableEq Inode]

/-- A lock that is granted belongs to no other process. -/
theorem Inv.locked (h : Inv marked s) {p : ι} {fd : Int32} {file : File} {i : Inode} (hfd : (s.1 p).files.find fd = some file)
    (hdesc : s.2.desc p file = some i) (hmay : s.2.MayLock p i) :
    Inv (fun q gd => marked q gd ∨ (q = p ∧ gd = fd)) (s.1, s.2.lock p i) := by
  refine ⟨h.live, h.inj, ?_⟩
  intro q gd j hmark hfile
  rw [RecordLocks.owner_lock]
  split
  · rename_i hj
    subst hj
    rcases hmark with hmark | ⟨rfl, -⟩
    · -- the process that counts on the file owns it, so it is the one that may lock it
      have howner := h.owned q gd j hmark hfile
      rcases hmay with hnone | hp
      · rw [hnone] at howner
        cases howner
      · rw [← howner, hp]
    · rfl
  · rename_i hj
    rcases hmark with hmark | ⟨rfl, rfl⟩
    · exact h.owned q gd j hmark hfile
    · obtain ⟨file', hfd', hdesc'⟩ := fileOf_eq_some.mp hfile
      cases hfd.symm.trans hfd'
      cases hdesc.symm.trans hdesc'
      exact absurd rfl hj

end

variable [DecidableEq ι] [DecidableEq Inode]

/-! ### What one import does -/

/-- Everything an import can do to the table of its process and to the kernel. -/
inductive Effect (p : ι) (a : HostFilesInner Str) (k : RecordLocks ι File Inode) :
    LockImport → Outcome Int64 → HostFilesInner Str → RecordLocks ι File Inode → Prop where
  | failed {c : LockImport} {o : Outcome Int64} : (∀ v, o = .returned v → v < 0) → Effect p a k c o a k
  | opened {pathPtr flags mode : Int32} {file : File} {i : Inode} : k.desc p file = none →
      a.files.find a.files.next = none →
      Effect p a k (.openFile pathPtr flags mode) (.returned a.files.next.toInt64)
        { a with files := (a.files.insert file).2 } (k.openDesc p file i)
  | replaced {pathPtr flags mode : Int32} {file old : File} {i : Inode} : k.desc p file = none →
      a.files.find a.files.next = some old →
      Effect p a k (.openFile pathPtr flags mode) (.returned a.files.next.toInt64)
        { a with files := (a.files.insert file).2 } ((k.openDesc p file i).closeDesc p old)
  | locked {fd : Int32} {file : File} {i : Inode} : a.files.find fd = some file → k.desc p file = some i → k.MayLock p i →
      Effect p a k (.lockExclusive fd) (.returned 0) a (k.lock p i)
  | closed {fd : Int32} {file : File} : a.files.find fd = some file →
      Effect p a k (.close fd) (.returned 0) { a with files := a.files.remove fd } (k.closeDesc p file)

/-- A negated errno is negative. -/
theorem negErrno_toInt64_lt (e : Errno) : (negErrno e).toInt64 < 0 := by cases e <;> decide

variable {p : ι} {a : HostFilesInner Str} {k : RecordLocks ι File Inode}

/-- An import that returns an error has done nothing. -/
theorem Effect.of_negErrno {c : LockImport} (e : Errno) : Effect p a k c (.returned (negErrno e).toInt64) a k := by
  refine .failed ?_
  intro v hv
  cases hv
  exact negErrno_toInt64_lt e

/-- A panic has no effect. -/
theorem Effect.of_panicked {c : LockImport} : Effect p a k c .panicked a k := by
  refine .failed ?_
  intro v hv
  cases hv

/-- The postcondition: the import had one of these effects. -/
def Did (p : ι) (a : HostFilesInner Str) (k : RecordLocks ι File Inode) (c : LockImport) (o : Outcome Int64)
    (s' : Unit × (HostFilesInner Str × RecordLocks ι File Inode)) : Prop :=
  Effect p a k c o s'.2.1 s'.2.2

/-- What each import does to its runner and the locks. -/
theorem wp_effect (lc : Libc) (c : LockImport) :
    wp (fileMachine .any (lockKernel p)) (fileProg lc c.toImport) (fun _ o s' => Did p a k c o s') ((), a, k) := by
  cases c with
  | openFile pathPtr flags mode =>
    simp only [LockImport.toImport, fileProg, openFile, wp_map, wp_bind, wp_readCstr_any]
    rintro (errno | path) _ -
    · exact .of_negErrno errno
    · simp only [wpNext_returned, wp_bind]
      refine wp_openHost unixPaths (fun _ => .of_panicked) (fun _ errno => .of_negErrno errno) ?_ ?_
      · rintro tr path err k₁ rfl
        exact .of_negErrno _
      · rintro tr path file k₁ - ⟨hfresh, i, rfl⟩
        simp only [wpNext_returned]
        refine wp_insertFile ?_ ?_
        · intro tr' hnone
          exact .opened hfresh hnone
        · rintro tr' old r k₂ hold rfl
          exact .replaced hfresh hold
  | lockExclusive fd =>
    simp only [LockImport.toImport, fileProg, lockExclusive, wp_map, wp_bind, wp_filesGet, wpNext_returned]
    cases hfd : a.files.find fd with
    | none => exact .of_negErrno _
    | some file =>
      simp only [wp_bind, wp_own, wpNext_returned]
      rintro rc k₁ (⟨rfl, i, hdesc, hmay, rfl⟩ | ⟨hrc, rfl⟩)
      · exact .locked hfd hdesc hmay
      · rw [if_neg hrc]
        simp only [wp_bind, wp_own, wpNext_returned]
        rintro err k₂ rfl
        exact .of_negErrno _
  | close fd =>
    simp only [LockImport.toImport, fileProg, closeFile, wp_map, wp_bind, wp_filesRemove, wpNext_returned]
    cases hfd : a.files.find fd with
    | none =>
      rw [FdTable.remove_of_find_none hfd]
      exact .of_negErrno _
    | some file =>
      simp only [wp_bind, wp_fs, wpNext_returned]
      rintro r k₁ rfl
      exact .closed hfd

/-- A call of a session is the effect of an import on the process that makes it. -/
theorem effect_of_runs {lc : Libc} {c : LockImport} {s s' : Runners ι Inode} {tr : List (Event Files)} {o : Outcome Int64}
    (h : Runs (runner p) (fileProg lc c.toImport) s tr o s') :
    ∃ x, Effect p (s.1 p) s.2 c o x s'.2 ∧ s'.1 = Function.update s.1 p x := by
  obtain ⟨x, hrun, hs'⟩ := h.of_party
  exact ⟨x, hrun.of_wp (wp_effect lc c), hs'⟩

/-- A close takes the descriptor of one guest fd, and the lock on its file, which no other guest fd of the process counts on. -/
theorem Inv.closed (h : Inv marked s) {p : ι} {fd : Int32} {file : File} (hfd : (s.1 p).files.find fd = some file)
    (hkeep : ∀ gd i, gd ≠ fd → fileOf s p fd = some i → fileOf s p gd = some i → ¬marked p gd) :
    Inv (fun q gd => marked q gd ∧ ¬(q = p ∧ gd = fd))
      (put s p ((s.1 p).files.remove fd) (s.2.closeDesc p file)) := by
  -- what is left in the table was there, under another guest fd and with another descriptor
  have hleft {gd : Int32} {file' : File} (hgd : ((s.1 p).files.remove fd).find gd = some file') :
      gd ≠ fd ∧ (s.1 p).files.find gd = some file' ∧ file' ≠ file := by
    rw [FdTable.find_remove] at hgd
    split at hgd
    · cases hgd
    · rename_i hne
      refine ⟨hne, hgd, ?_⟩
      rintro rfl
      exact hne (h.inj p gd fd file' hgd hfd)
  refine ⟨?_, ?_, ?_⟩
  · intro q gd file' hgd
    by_cases hq : q = p
    · subst hq
      rw [put_self] at hgd
      obtain ⟨-, hgd, hfile⟩ := hleft hgd
      rw [put_kernel, RecordLocks.desc_closeDesc, if_neg (fun heq => hfile heq.2)]
      exact h.live q gd file' hgd
    · rw [put_of_ne hq] at hgd
      rw [put_kernel, RecordLocks.desc_closeDesc, if_neg (fun heq => hq heq.1)]
      exact h.live q gd file' hgd
  · intro q gd hd file' hgd hhd
    by_cases hq : q = p
    · subst hq
      rw [put_self] at hgd hhd
      exact h.inj q gd hd file' (hleft hgd).2.1 (hleft hhd).2.1
    · rw [put_of_ne hq] at hgd hhd
      exact h.inj q gd hd file' hgd hhd
  · rintro q gd j ⟨hmark, -⟩ hfile
    obtain ⟨file', hgd, hdesc⟩ := fileOf_eq_some.mp hfile
    by_cases hq : q = p
    · subst hq
      rw [put_self] at hgd
      obtain ⟨hne, hgd, hfile'⟩ := hleft hgd
      rw [put_kernel, RecordLocks.desc_closeDesc, if_neg (fun heq => hfile' heq.2)] at hdesc
      have hgdOf : fileOf s q gd = some j := fileOf_eq_some.mpr ⟨file', hgd, hdesc⟩
      rw [put_kernel]
      refine RecordLocks.owner_closeDesc_of (h.owned q gd j hmark hgdOf) ?_
      intro _ hsame
      exact hkeep gd j hne (fileOf_eq_some.mpr ⟨file, hfd, hsame⟩) hgdOf hmark
    · rw [put_of_ne hq] at hgd
      rw [put_kernel, RecordLocks.desc_closeDesc, if_neg (fun heq => hq heq.1)] at hdesc
      rw [put_kernel]
      refine RecordLocks.owner_closeDesc_of (h.owned q gd j hmark (fileOf_eq_some.mpr ⟨file', hgd, hdesc⟩)) ?_
      intro heq
      exact absurd heq hq

/-! ### Sessions -/

/-- A call that keeps the locks of its process keeps the invariant. -/
theorem Inv.step {log : List (Entry ι LockImport Int64 (Runners ι Inode))} {e : Entry ι LockImport Int64 (Runners ι Inode)}
    (h : Inv (LockReturned log) e.before) (hkeep : KeepsLocks log e) {lc : Libc} {tr : List (Event Files)}
    (hrun : Runs (runner e.who) (fileProg lc e.call.toImport) e.before tr e.result e.after) :
    Inv (LockReturned (log ++ [e])) e.after := by
  obtain ⟨p, c, s, o, s'⟩ := e
  obtain ⟨x, heffect, hs'⟩ := effect_of_runs hrun
  obtain ⟨procs', k'⟩ := s'
  dsimp only at h hkeep heffect hs' ⊢
  subst hs'
  cases heffect with
  | failed herr =>
    rw [Function.update_eq_self]
    refine h.mono ?_
    intro q gd hmark
    rcases lockReturned_snoc.mp hmark with ⟨-, -, hresult⟩ | ⟨hmark, -⟩
    · exact absurd (herr 0 hresult) (by decide)
    · exact hmark
  | @opened pathPtr flags mode file i hfresh hnone =>
    refine (h.opened hfresh).mono ?_
    intro q gd hmark
    rcases lockReturned_snoc.mp hmark with ⟨-, hcall, -⟩ | ⟨hmark, hrenews⟩
    · cases hcall
    · refine ⟨hmark, ?_⟩
      rintro ⟨rfl, rfl⟩
      exact hrenews rfl (.inr ⟨pathPtr, flags, mode, rfl, rfl⟩)
  | @replaced pathPtr flags mode file old i hfresh hold =>
    -- the replaced file is closed, and then the new one is opened
    have hne : file ≠ old := by
      rintro rfl
      exact h.live p _ file hold hfresh
    have hclosed := h.closed hold fun gd i hne hfile hgd => hkeep _ gd i rfl hne hfile hgd
    have hfresh' : (put s p ((s.1 p).files.remove (s.1 p).files.next) (s.2.closeDesc p old)).2.desc p file = none := by
      rw [put_kernel, RecordLocks.desc_closeDesc, if_neg (fun heq => hne heq.2)]
      exact hfresh
    have hopened := hclosed.opened (i := i) hfresh'
    rw [put_self, FdTable.insert_remove_next, FdTable.remove_next, put_kernel, put_put] at hopened
    rw [RecordLocks.closeDesc_openDesc hne]
    refine hopened.mono ?_
    intro q gd hmark
    rcases lockReturned_snoc.mp hmark with ⟨-, hcall, -⟩ | ⟨hmark, hrenews⟩
    · cases hcall
    · have hnot : ¬(q = p ∧ gd = (s.1 p).files.next) := by
        rintro ⟨rfl, rfl⟩
        exact hrenews rfl (.inr ⟨pathPtr, flags, mode, rfl, rfl⟩)
      exact ⟨⟨hmark, hnot⟩, hnot⟩
  | @locked fd file i hfd hdesc hmay =>
    rw [Function.update_eq_self]
    refine (h.locked hfd hdesc hmay).mono ?_
    intro q gd hmark
    rcases lockReturned_snoc.mp hmark with ⟨hwho, hcall, -⟩ | ⟨hmark, -⟩
    · cases hcall
      exact .inr ⟨hwho.symm, rfl⟩
    · exact .inl hmark
  | @closed fd file hfd =>
    refine (h.closed hfd ?_).mono ?_
    · intro gd i hne hfile hgd
      exact hkeep fd gd i rfl hne hfile hgd
    · intro q gd hmark
      rcases lockReturned_snoc.mp hmark with ⟨-, hcall, -⟩ | ⟨hmark, hrenews⟩
      · cases hcall
      · refine ⟨hmark, ?_⟩
        rintro ⟨rfl, rfl⟩
        exact hrenews rfl (.inl rfl)

end

/-! ### Two runners over one file -/

/-- A kernel with one data file, for two processes that never have more than two descriptors. -/
def oneFile (p : Bool) (k : RecordLocks Bool File Nat) : (c : ((Fs Str).sum FileHost).Cmd) →
    ((Fs Str).sum FileHost).Resp c × RecordLocks Bool File Nat
  | .inl (.openFile ..) =>
    if k.desc p ⟨3⟩ = none then (.ok ⟨3⟩, k.openDesc p ⟨3⟩ 0)
    else if k.desc p ⟨4⟩ = none then (.ok ⟨4⟩, k.openDesc p ⟨4⟩ 0)
    else (.error ⟨some 24⟩, k)
  | .inl (.drop file) => ((), k.closeDesc p file)
  | .inl (.readAt ..) => (.ok ⟨0, []⟩, k)
  | .inl (.writeAt ..) => (.ok 0, k)
  | .inl (.seek ..) => (.ok 0, k)
  | .inl (.setLen ..) => (.ok (), k)
  | .inl (.syncData _) => (.ok (), k)
  | .inl (.syncAll _) => (.ok (), k)
  | .inr (.setlk file) =>
    match k.desc p file with
    | some i => if k.owner i = none ∨ k.owner i = some p then (0, k.lock p i) else (-1, k)
    | none => (-1, k)
  | .inr .lastOsError => (⟨some 11⟩, k)

/-- The answers of one file are those of a kernel with locks, ... -/
theorem oneFile_allowed (p : Bool) (k : RecordLocks Bool File Nat) (c : ((Fs Str).sum FileHost).Cmd) :
    lockKernel p k c (oneFile p k c).1 (oneFile p k c).2 := by
  rcases c with c | c
  · cases c with
    | openFile path options =>
      unfold oneFile
      dsimp only
      split
      · rename_i hfree
        exact ⟨hfree, 0, rfl⟩
      · split
        · rename_i hfree
          exact ⟨hfree, 0, rfl⟩
        · rfl
    | _ => rfl
  · cases c with
    | setlk file =>
      unfold oneFile
      dsimp only
      split
      · rename_i i hdesc
        split
        · rename_i hmay
          exact .inl ⟨rfl, i, hdesc, hmay, rfl⟩
        · exact .inr ⟨(by decide : (-1 : Int32) ≠ 0), rfl⟩
      · exact .inr ⟨(by decide : (-1 : Int32) ≠ 0), rfl⟩
    | lastOsError => rfl

/-- A guest memory in which every string is `d`. -/
def memoryD : (c : GuestMem.Cmd) → c.Resp
  | .readGuest .. => .ok []
  | .writeGuest .. => .ok ()
  | .readCstr _ => .ok ['d']
  | .alloc _ => ()

/-- The two runners, played. -/
def twoRunners (p : Bool) (s : Runners Bool Nat) : (c : Files.Cmd) → Option (Files.Resp c × Runners Bool Nat)
  | .inl c => some (memoryD c, s)
  | .inr (.inl c) => some (((s.1 p).handle c).1, (Function.update s.1 p ((s.1 p).handle c).2, s.2))
  | .inr (.inr c) => some ((oneFile p s.2 c).1, (s.1, (oneFile p s.2 c).2))

/-- ... also for two runners. -/
theorem twoRunners_allowed (p : Bool) (s : Runners Bool Nat) (c : Files.Cmd) (r : Files.Resp c) (s' : Runners Bool Nat)
    (h : twoRunners p s c = some (r, s')) : runner p s c r s' := by
  rcases c with c | c | c
  · cases h
    exact ⟨s.1 p, ⟨trivial, rfl⟩, by simp⟩
  · cases h
    exact ⟨((s.1 p).handle c).2, ⟨⟨rfl, rfl⟩, rfl⟩, rfl⟩
  · cases h
    exact ⟨s.1 p, ⟨⟨oneFile_allowed p s.2 c, rfl⟩, rfl⟩, by simp⟩

/-- Both runners have one data directory. -/
def oneDir : Bool → List (PreopenMapping Str) := fun _ => [⟨['/'], "/data".toList⟩]

/-- What a list of calls of the two runners comes to. -/
def played (calls : List (Bool × LockImport)) : List (Entry Bool LockImport Int64 (Runners Bool Nat)) × Runners Bool Nat :=
  (play (fun c => fileProg linux c.toImport) twoRunners [] (runnersStart oneDir) calls).getD ([], runnersStart oneDir)

/-- What is played is a session. -/
theorem played_session (calls : List (Bool × LockImport)) : LockSession linux oneDir (played calls).1 (played calls).2 := by
  unfold played
  cases hplay : play (fun c => fileProg linux c.toImport) twoRunners [] (runnersStart oneDir) calls with
  | none => exact .nil
  | some r =>
    refine Session.nil.play (I := fun _ => True) ?_ trivial hplay
    intro p s c r s' _ h
    exact ⟨twoRunners_allowed p s c r s' h, trivial⟩

/-- A call that closes nothing, or a file of which its process has not asked for a lock by another guest fd. -/
def closesApart (log : List (Entry Bool LockImport Int64 (Runners Bool Nat))) (e : Entry Bool LockImport Int64 (Runners Bool Nat)) : Bool :=
  match e.call with
  | .openFile .. => fileOf e.before e.who (e.before.1 e.who).files.next == none
  | .lockExclusive _ => true
  | .close fd => log.all fun e' =>
    match e'.call with
    | .lockExclusive gd => e'.who != e.who || gd == fd
    | _ => true

/-- Where no other fd of the process has the file, a close keeps the locks. -/
theorem keepsLocks_of_closesApart {log : List (Entry Bool LockImport Int64 (Runners Bool Nat))}
    {e : Entry Bool LockImport Int64 (Runners Bool Nat)} (h : closesApart log e = true) : KeepsLocks log e := by
  rintro fd gd i hcloses hne hfile - ⟨pre, e', post, rfl, hwho, hcall, -⟩
  unfold closesApart at h
  cases hcloses' : e.call with
  | openFile pathPtr flags mode =>
    rw [hcloses'] at hcloses h
    cases hcloses
    cases hfile.symm.trans (beq_iff_eq.mp h)
  | lockExclusive gd' =>
    rw [hcloses'] at hcloses
    exact hcloses
  | close fd' =>
    rw [hcloses'] at hcloses h
    cases hcloses
    have hapart := List.all_eq_true.mp h e' (by simp)
    simp only [hcall, hwho, bne_self_eq_false, Bool.false_or, beq_iff_eq] at hapart
    exact hne hapart

end LockAux

section
variable {ι Inode : Type} [DecidableEq ι] [DecidableEq Inode]

/-- In every session of runner processes whose calls never close a file while another guest fd of the process has it open and locked,
no two processes have an open guest fd for one file on which `lock_exclusive` returned 0. -/
theorem lock_excludes_unix (lc : Libc) (preopens : ι → List (PreopenMapping Str))
    (log : List (Entry ι LockImport Int64 (Runners ι Inode))) (s : Runners ι Inode) (h : LockSession lc preopens log s)
    (hkeep : Meets KeepsLocks log) (p q : ι) (i : Inode) (hp : HasLocked log s p i) (hq : HasLocked log s q i) : p = q := by
  have hinv : LockAux.Inv (LockReturned log) s := by
    refine Session.invariant (G := KeepsLocks) (I := fun log s => LockAux.Inv (LockReturned log) s) ?_ ?_ h hkeep
    · refine ⟨?_, ?_, ?_⟩
      · intro p fd file hfd
        cases hfd
      · intro p fd gd file hfd
        cases hfd
      · rintro p fd i ⟨pre, e, post, heq, -⟩
        simp at heq
    · intro log e tr hI hG hrun
      exact hI.step hG hrun
  obtain ⟨fd, hfd, hfile⟩ := hp
  obtain ⟨gd, hgd, hfile'⟩ := hq
  have howner := hinv.owned p fd i hfd hfile
  rw [hinv.owned q gd i hgd hfile'] at howner
  exact (Option.some.inj howner).symm

end

/-- A runner opens the data file twice, closes one of its descriptors and locks the other. A second runner is refused, and closes its
descriptor. The first is the only one to have the file locked. -/
theorem lock_excludes_unix_two : ∃ (log : List (Entry Bool LockImport Int64 (Runners Bool Nat))) (s : Runners Bool Nat),
    LockSession linux LockAux.oneDir log s ∧ Meets KeepsLocks log ∧
      log.map (·.result) =
        [.returned 20000, .returned 20001, .returned 0, .returned 0, .returned 20000, .returned (-6), .returned 0] ∧
      HasLocked log s true 0 ∧ ∀ q, HasLocked log s q 0 → true = q := by
  let calls : List (Bool × LockImport) := [(true, .openFile 0 0 0), (true, .openFile 0 0 0), (true, .close 20001),
    (true, .lockExclusive 20000), (false, .openFile 0 0 0), (false, .lockExclusive 20000), (false, .close 20000)]
  have hsession := LockAux.played_session calls
  have hlocked : HasLocked (LockAux.played calls).1 (LockAux.played calls).2 true 0 :=
    ⟨20000, by decide +kernel, by decide +kernel⟩
  have hkeep : Meets KeepsLocks (LockAux.played calls).1 := by
    have hapart : ∀ n : Fin (LockAux.played calls).1.length,
        LockAux.closesApart ((LockAux.played calls).1.take n) ((LockAux.played calls).1[n]) = true := by decide +kernel
    exact meets_iff_getElem.mpr fun n hn => LockAux.keepsLocks_of_closesApart (hapart ⟨n, hn⟩)
  refine ⟨_, _, hsession, hkeep, by decide +kernel, hlocked, ?_⟩
  intro q hq
  exact lock_excludes_unix linux LockAux.oneDir _ _ hsession hkeep true q 0 hlocked hq

/-- A runner opens the data file twice, locks it, closes the other descriptor, and loses the lock: a second runner gets it, and both
have a descriptor that `lock_exclusive` returned 0 for. -/
theorem lock_lost_unix : ∃ (log : List (Entry Bool LockImport Int64 (Runners Bool Nat))) (s : Runners Bool Nat),
    LockSession linux LockAux.oneDir log s ∧ HasLocked log s true 0 ∧ HasLocked log s false 0 := by
  let calls : List (Bool × LockImport) := [(true, .openFile 0 0 0), (true, .openFile 0 0 0), (true, .lockExclusive 20000),
    (true, .close 20001), (false, .openFile 0 0 0), (false, .lockExclusive 20000)]
  refine ⟨_, _, LockAux.played_session calls, ?_, ?_⟩
  · exact ⟨20000, by decide +kernel, by decide +kernel⟩
  · exact ⟨20000, by decide +kernel, by decide +kernel⟩

end Unix

end WasmtimeMysql
