/-!
# Named kernel objects

Processes open handles on objects by name. An object exists as long as some process has a handle on it: opening a name creates the
object if there is none, and reports whether there was one.
-/

namespace Effects

/-- The open handles of each process, with the name of the object, and the last error of each process. -/
structure NamedObjects (P H N : Type) where
  handle : P → H → Option N
  lastError : P → Int32

namespace NamedObjects

variable {P H N : Type}

/-- No handle is open. -/
def empty (P H N : Type) : NamedObjects P H N := ⟨fun _ _ => none, fun _ => 0⟩

/-- The object of a name exists. -/
def Exists (k : NamedObjects P H N) (n : N) : Prop := ∃ p h, k.handle p h = some n

section
variable [DecidableEq P]

/-- A process's last error changes. -/
def setError (k : NamedObjects P H N) (p : P) (err : Int32) : NamedObjects P H N :=
  { k with lastError := fun q => if q = p then err else k.lastError q }

@[simp] theorem handle_setError (k : NamedObjects P H N) (p : P) (err : Int32) : (k.setError p err).handle = k.handle := rfl

variable [DecidableEq H]

/-- A process opens a handle on a name. -/
def openName (k : NamedObjects P H N) (p : P) (h : H) (n : N) : NamedObjects P H N :=
  { k with handle := fun q g => if q = p ∧ g = h then some n else k.handle q g }

/-- A process closes a handle. -/
def closeHandle (k : NamedObjects P H N) (p : P) (h : H) : NamedObjects P H N :=
  { k with handle := fun q g => if q = p ∧ g = h then none else k.handle q g }

@[simp] theorem handle_openName (k : NamedObjects P H N) (p q : P) (h g : H) (n : N) :
    (k.openName p h n).handle q g = if q = p ∧ g = h then some n else k.handle q g := rfl

@[simp] theorem handle_closeHandle (k : NamedObjects P H N) (p q : P) (h g : H) :
    (k.closeHandle p h).handle q g = if q = p ∧ g = h then none else k.handle q g := rfl

/-- Closing a handle that was just opened leaves the handles as they were. -/
theorem handle_closeHandle_of_fresh {k k' : NamedObjects P H N} {p : P} {h : H} {n : N} (hfresh : k.handle p h = none)
    (hopen : k'.handle = (k.openName p h n).handle) : (k'.closeHandle p h).handle = k.handle := by
  funext q g
  rw [handle_closeHandle, hopen, handle_openName]
  split
  · rename_i heq
    rw [heq.1, heq.2, hfresh]
  · rfl

end

end NamedObjects

end Effects
