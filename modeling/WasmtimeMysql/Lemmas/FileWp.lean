import WasmtimeMysql.HostFiles
import WasmtimeMysql.Lemmas.Wp

/-!
# Preconditions of the file module's commands

The rules by which a file import is stepped through. Guest memory and the host are any machines here; the table is the one of
`HostFilesInner`.
-/

namespace WasmtimeMysql

open Effects Bytes

section
variable {P γ κ : Type} {Host : Sig}

/-- The machine of a file module over a machine for guest memory and one for its calls to the host. -/
abbrev fileMachine (G : Machine GuestMem γ) (K : Machine ((Fs P).sum Host) κ) :
    Machine (GuestMem.sum (FileSig P Host)) (γ × (HostFilesInner P × κ)) :=
  G.sum ((HostFilesInner.machine P).sum K)

variable {G : Machine GuestMem γ} {K : Machine ((Fs P).sum Host) κ} {g : γ} {a : HostFilesInner P} {k : κ}

/-- A command on the table. -/
theorem wp_inner {c : HostFilesInner.Cmd}
    {Q : List (Event (GuestMem.sum (FileSig P Host))) → Outcome (c.Resp P) → γ × (HostFilesInner P × κ) → Prop} :
    wp (fileMachine G K) (host (H := FileSig P Host) (.inl c)) Q (g, a, k) ↔
      Q [⟨.inr (.inl c), (a.handle c).1⟩] (.returned (a.handle c).1) (g, (a.handle c).2, k) := by
  refine wp_inr.trans ?_
  constructor
  · intro h
    exact h _ ((a.handle c).2, k) ⟨rfl, rfl⟩
  · rintro h r ⟨a', k'⟩ ⟨hm, hk⟩
    cases hk
    obtain ⟨hr, ha⟩ := Machine.eq_of_det (S := HostFilesInner.Sig P) hm
    subst hr ha
    exact h

@[simp] theorem wp_getPreopens
    {Q : List (Event (GuestMem.sum (FileSig P Host))) → Outcome (List (PreopenMapping P)) → γ × (HostFilesInner P × κ) → Prop} :
    wp (fileMachine G K) getPreopens Q (g, a, k) ↔
      Q [⟨.inr (.inl .preopens), a.preopens⟩] (.returned a.preopens) (g, a, k) := wp_inner

@[simp] theorem wp_filesGet {fd : Int32}
    {Q : List (Event (GuestMem.sum (FileSig P Host))) → Outcome (Option File) → γ × (HostFilesInner P × κ) → Prop} :
    wp (α := no_index _) (fileMachine G K) (files (.get fd)) Q (g, a, k) ↔
      Q [⟨.inr (.inl (.files (.get fd))), a.files.find fd⟩] (.returned (a.files.find fd)) (g, a, k) := wp_inner

@[simp] theorem wp_filesRemove {fd : Int32}
    {Q : List (Event (GuestMem.sum (FileSig P Host))) → Outcome (Option File) → γ × (HostFilesInner P × κ) → Prop} :
    wp (α := no_index _) (fileMachine G K) (files (.remove fd)) Q (g, a, k) ↔
      Q [⟨.inr (.inl (.files (.remove fd))), a.files.find fd⟩] (.returned (a.files.find fd))
        (g, { a with files := a.files.remove fd }, k) := wp_inner

@[simp] theorem wp_filesInsert {file : File}
    {Q : List (Event (GuestMem.sum (FileSig P Host))) → Outcome (Int32 × Option File) → γ × (HostFilesInner P × κ) → Prop} :
    wp (α := no_index _) (fileMachine G K) (files (.insert file)) Q (g, a, k) ↔
      Q [⟨.inr (.inl (.files (.insert file))), (a.files.next, a.files.find a.files.next)⟩]
        (.returned (a.files.next, a.files.find a.files.next)) (g, { a with files := (a.files.insert file).2 }, k) := wp_inner

/-- A call to std's files. -/
@[simp] theorem wp_fs {c : Fs.Cmd P}
    {Q : List (Event (GuestMem.sum (FileSig P Host))) → Outcome c.Resp → γ × (HostFilesInner P × κ) → Prop} :
    wp (α := no_index c.Resp) (fileMachine G K) (fs c) Q (g, a, k) ↔
      ∀ r k', K k (.inl c) r k' → Q [⟨.inr (.inr (.inl c)), r⟩] (.returned r) (g, a, k') := by
  refine wp_inr.trans ?_
  constructor
  · intro h r k' hm
    exact h r (a, k') ⟨hm, rfl⟩
  · rintro h r ⟨a', k'⟩ ⟨hm, ha⟩
    cases ha
    exact h r k' hm

/-- A command that only this host has. -/
@[simp] theorem wp_own {c : Host.Cmd}
    {Q : List (Event (GuestMem.sum (FileSig P Host))) → Outcome (Host.Resp c) → γ × (HostFilesInner P × κ) → Prop} :
    wp (α := no_index (Host.Resp c)) (fileMachine G K) (own c) Q (g, a, k) ↔
      ∀ r k', K k (.inr c) r k' → Q [⟨.inr (.inr (.inr c)), r⟩] (.returned r) (g, a, k') := by
  refine wp_inr.trans ?_
  constructor
  · intro h r k' hm
    exact h r (a, k') ⟨hm, rfl⟩
  · rintro h r ⟨a', k'⟩ ⟨hm, ha⟩
    cases ha
    exact h r k' hm

@[simp] theorem wp_ofOutcome {α : Type} {o : Outcome α} {M : Machine (GuestMem.sum (FileSig P Host)) (γ × (HostFilesInner P × κ))}
    {s : γ × (HostFilesInner P × κ)}
    {Q : List (Event (GuestMem.sum (FileSig P Host))) → Outcome α → γ × (HostFilesInner P × κ) → Prop} :
    wp M (ofOutcome o) Q s ↔ Q [] o s := by
  cases o <;> rfl

/-! ## Parts of the imports, without regard to the trace -/

/-- The new entry of `open`, and the file it replaces. -/
theorem wp_insertFile {file : File}
    {Q : List (Event (GuestMem.sum (FileSig P Host))) → Outcome Int32 → γ × (HostFilesInner P × κ) → Prop}
    (hnone : ∀ tr, a.files.find a.files.next = none →
      Q tr (.returned a.files.next) (g, { a with files := (a.files.insert file).2 }, k))
    (hsome : ∀ tr old r k', a.files.find a.files.next = some old → K k (.inl (.drop old)) r k' →
      Q tr (.returned a.files.next) (g, { a with files := (a.files.insert file).2 }, k')) :
    wp (fileMachine G K) (HostFiles.insertFile file) Q (g, a, k) := by
  simp only [HostFiles.insertFile, wp_bind, wp_filesInsert, wpNext_returned]
  cases hfind : a.files.find a.files.next with
  | none => exact hnone _ hfind
  | some old =>
    simp only [wp_bind, wp_fs, wpNext_returned]
    intro r k' hm
    exact hsome _ old r k' hfind hm

/-- `open` up to the host's file: it fails before the host is asked, or the host answers. -/
theorem wp_openHost (os : PathOs) {K : Machine ((Fs os.Path).sum Host) κ} {a : HostFilesInner os.Path} {ioErrno : IoError → Errno}
    {guestPath : Str} {flags : Int32}
    {Q : List (Event (GuestMem.sum (FileSig os.Path Host))) → Outcome (Except Errno (os.Path × File)) →
      γ × (HostFilesInner os.Path × κ) → Prop}
    (hpanic : ∀ tr, Q tr .panicked (g, a, k)) (hfail : ∀ tr errno, Q tr (.returned (.error errno)) (g, a, k))
    (herr : ∀ tr path err k', K k (.inl (.openFile path (openOptions flags))) (.error err) k' →
      Q tr (.returned (.error (ioErrno err))) (g, a, k'))
    (hopen : ∀ tr path file k', flags &&& wasiODirectory = 0 → K k (.inl (.openFile path (openOptions flags))) (.ok file) k' →
      Q tr (.returned (.ok (path, file))) (g, a, k')) :
    wp (fileMachine G K) (HostFiles.openHost os ioErrno guestPath flags) Q (g, a, k) := by
  simp only [HostFiles.openHost, HostFiles.resolve, wp_bind, wp_getPreopens, wpNext_returned, wp_ofOutcome]
  cases resolve os a.preopens guestPath with
  | panicked => exact hpanic _
  | returned r =>
    rcases r with errno | hostPath
    · exact hfail _ errno
    · simp only [wpNext_returned]
      split
      · exact hfail _ .eisdir
      · rename_i hdirectory
        simp only [wp_bind, wp_fs, wpNext_returned]
        rintro (err | file) k' hm
        · exact herr _ hostPath err k' hm
        · exact hopen _ hostPath file k' (Classical.not_not.mp hdirectory) hm

end

end WasmtimeMysql
