/-!
# Record locks of processes

POSIX record locks over whole files: each process has descriptors, each descriptor is open on a file, and a file's write lock belongs
to a process. Closing any descriptor of a file drops the process's lock on it, whichever descriptor the lock was taken through.
-/

namespace Effects

/-- The open descriptors of each process, and which process has each file locked. -/
structure RecordLocks (P D I : Type) where
  desc : P → D → Option I
  owner : I → Option P

namespace RecordLocks

variable {P D I : Type}

/-- No descriptor is open and no file is locked. -/
def empty (P D I : Type) : RecordLocks P D I := ⟨fun _ _ => none, fun _ => none⟩

/-- `F_SETLK` with a write lock on the whole file can succeed: no other process has the file locked. -/
def MayLock (k : RecordLocks P D I) (p : P) (i : I) : Prop := k.owner i = none ∨ k.owner i = some p

section
variable [DecidableEq I] (k : RecordLocks P D I) (p : P) (i j : I)

/-- A process locks a file. -/
def lock : RecordLocks P D I := { k with owner := fun j => if j = i then some p else k.owner j }

@[simp] theorem owner_lock : (k.lock p i).owner j = if j = i then some p else k.owner j := rfl

end

variable [DecidableEq P] [DecidableEq D]

section
variable (k : RecordLocks P D I) (p q : P) (d e : D) (i : I)

/-- A process opens a file. -/
def openDesc : RecordLocks P D I := { k with desc := fun q e => if q = p ∧ e = d then some i else k.desc q e }

@[simp] theorem desc_openDesc : (k.openDesc p d i).desc q e = if q = p ∧ e = d then some i else k.desc q e := rfl

@[simp] theorem owner_openDesc : (k.openDesc p d i).owner = k.owner := rfl

end

variable [DecidableEq I]

/-- A process closes a descriptor: if the file is locked by the process, the lock is dropped. -/
def closeDesc (k : RecordLocks P D I) (p : P) (d : D) : RecordLocks P D I where
  desc q e := if q = p ∧ e = d then none else k.desc q e
  owner i := if k.owner i = some p ∧ k.desc p d = some i then none else k.owner i

@[simp] theorem desc_closeDesc (k : RecordLocks P D I) (p q : P) (d e : D) :
    (k.closeDesc p d).desc q e = if q = p ∧ e = d then none else k.desc q e := rfl

/-- A lock that is not the process's, or not on the file of the descriptor, outlives the close. -/
theorem owner_closeDesc_of {k : RecordLocks P D I} {p q : P} {d : D} {i : I} (hq : k.owner i = some q)
    (h : q = p → k.desc p d ≠ some i) : (k.closeDesc p d).owner i = some q := by
  unfold closeDesc
  dsimp only
  rw [if_neg, hq]
  rintro ⟨hp, hd⟩
  rw [hq] at hp
  exact h (Option.some.inj hp) hd

/-- Opening one descriptor and closing another can be done in either order. -/
theorem closeDesc_openDesc {k : RecordLocks P D I} {p : P} {d e : D} {i : I} (h : d ≠ e) :
    (k.openDesc p d i).closeDesc p e = (k.closeDesc p e).openDesc p d i := by
  have hdesc : (k.openDesc p d i).desc p e = k.desc p e := by
    rw [desc_openDesc, if_neg]
    rintro ⟨-, heq⟩
    exact h heq.symm
  unfold closeDesc
  rw [hdesc]
  refine congrArg (fun desc => RecordLocks.mk desc _) ?_
  funext q x
  dsimp only
  by_cases hx : q = p ∧ x = e
  · rw [if_pos hx, if_neg, if_pos hx]
    rintro ⟨-, rfl⟩
    exact h hx.2
  · rw [if_neg hx, desc_openDesc, if_neg hx]

end RecordLocks

end Effects
