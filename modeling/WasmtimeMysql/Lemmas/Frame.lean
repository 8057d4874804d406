import WasmtimeMysql.Lemmas.Memory
import WasmtimeMysql.HostFiles
import WasmtimeMysql.HostSocketsWindows
import WasmtimeMysql.Lib.Discipline

/-!
# The guest memory an import may write

`outputs` lists the regions of guest memory that the arguments of an import name for its results. `framing` is how an import deals with
them: it reads first, so that what it reads is the memory on entry, and then writes, each time from the start of a region on and no
further than its end. A run of a program that keeps to it changes no byte outside the regions (`agreeOutside_of_runs`).
-/

namespace WasmtimeMysql

open Effects Bytes

/-! ## The regions the arguments name -/

/-- The bytes from a guest address on. A negative address has none: every access to it is refused. -/
def regionAt (ptr : Int32) (len : Nat) : List Region :=
  match usizeTryFrom ptr with
  | some start => [⟨start, len⟩]
  | none => []

/-- The value of the length word at a guest address. Where there is none, an import that needs it stops before it writes. -/
def Export.lengthWord (e : Export) (lenPtr : Int32) : Nat :=
  match e.readU32 lenPtr with
  | .ok len => len.toNat
  | .error _ => 0

/-- A buffer that is as long as a length word says, and the word. -/
def writeBackRegions (e : Export) (ptr lenPtr : Int32) : List Region := regionAt ptr (e.lengthWord lenPtr) ++ regionAt lenPtr 4

/-- The `revents` halves of the entries of `poll`, two bytes each. -/
def reventsRegions (fdsPtr nfds : Int32) : List Region :=
  match usizeTryFrom fdsPtr with
  | some start => (List.range nfds.toNatClampNeg).map fun index => ⟨start + index * 8 + 6, 2⟩
  | none => []

/-- The output regions of a socket import, given the memory on entry. -/
def SocketImport.outputs (e : Export) : SocketImport → List Region
  | .accept _ addrPtr addrLenPtr => writeBackRegions e addrPtr addrLenPtr
  | .getsockname _ addrPtr addrLenPtr => writeBackRegions e addrPtr addrLenPtr
  | .getpeername _ addrPtr addrLenPtr => writeBackRegions e addrPtr addrLenPtr
  | .getsockopt _ _ _ optvalPtr optlenPtr => writeBackRegions e optvalPtr optlenPtr
  | .recv _ bufPtr len _ => regionAt bufPtr len.toNatClampNeg
  | .recvfrom _ bufPtr len _ addrPtr addrLenPtr => regionAt bufPtr len.toNatClampNeg ++ writeBackRegions e addrPtr addrLenPtr
  | .poll fdsPtr nfds _ => reventsRegions fdsPtr nfds
  | _ => []

/-- The output regions of a file import. -/
def FileImport.outputs : FileImport → List Region
  | .pread _ bufPtr len _ => regionAt bufPtr len.toNatClampNeg
  | _ => []

/-! ## The discipline -/

/-- The write starts where a region does and ends within it. -/
def Inside (out : List Region) (ptr : Int32) (len : Nat) : Prop :=
  ∀ start, usizeTryFrom ptr = some start → ∃ r ∈ out, r.start = start ∧ len ≤ r.len

/-- A write within a region of the outputs is inside of them. -/
theorem Inside.of_regionAt {ptr : Int32} {len n : Nat} {out : List Region} (hout : ∀ r ∈ regionAt ptr n, r ∈ out) (h : len ≤ n) :
    Inside out ptr len := by
  intro start hptr
  refine ⟨⟨start, n⟩, hout _ ?_, rfl, h⟩
  rw [regionAt, hptr]
  exact List.mem_singleton_self _

/-- Reads of the memory `e` first, then writes inside the regions. The phase is whether a write has been made. -/
def framing (H : Sig) (e : Export) (out : List Region) : Discipline (GuestMem.sum H) Bool where
  allows wrote
    | .inl (.readGuest ..) => wrote = false
    | .inl (.writeGuest ptr bytes) => Inside out ptr bytes.length
    | _ => True
  relies
    | .inl (.readGuest ptr len), answer => answer = e.readGuest ptr len
    | _, _ => True
  next wrote
    | .inl (.writeGuest ..), _ => true
    | _, _ => wrote

/-- How the memory on entry, the memory now and the phase go together. -/
structure Framed (out : List Region) (e : Export) (wrote : Bool) (now : Export) : Prop where
  agree : AgreeOutside out e.data now.data
  untouched : wrote = false → now = e

section
variable {H : Sig} {τ : Type} {N : Machine H τ} {e : Export} {out : List Region}

/-- A write inside the regions. -/
theorem Framed.afterWrite {wrote : Bool} {now : Export} (h : Framed out e wrote now) {ptr : Int32} {bytes : List UInt8}
    (hin : Inside out ptr bytes.length) : Framed out e true (now.afterWrite ptr bytes) := by
  refine ⟨?_, nofun⟩
  rcases now.write_cases ptr bytes with ⟨-, start, hptr, hle, hmem, hafter⟩ | ⟨-, hafter⟩
  · obtain ⟨r, hr, hstart, hlen⟩ := hin start hptr
    rw [hafter, Export.data_mapData hmem]
    exact h.agree.overwrite hle hr hstart hlen
  · rw [hafter]
    exact h.agree

/-- One allowed command. -/
theorem Framed.step {wrote : Bool} {s s' : Export × τ} {c : (GuestMem.sum H).Cmd} {answer : (GuestMem.sum H).Resp c}
    (h : Framed out e wrote s.1) (hallow : (framing H e out).allows wrote c) (hm : guestMachine.sum N s c answer s') :
    (framing H e out).relies c answer ∧ Framed out e ((framing H e out).next wrote c answer) s'.1 := by
  cases c with
  | inr c =>
    have hsame : s'.1 = s.1 := hm.2
    rw [hsame]
    exact ⟨trivial, h⟩
  | inl c =>
    obtain ⟨hanswer, hs⟩ := Machine.eq_of_det (S := GuestMem) hm.1
    cases c with
    | readGuest ptr len =>
      have hentry := h.untouched hallow
      have hread : answer = s.1.readGuest ptr len := hanswer
      have hsame : s'.1 = s.1 := hs
      rw [hsame]
      exact ⟨by rw [hread, hentry]; rfl, h⟩
    | writeGuest ptr bytes =>
      have hafter : s'.1 = s.1.afterWrite ptr bytes := hs
      rw [hafter]
      exact ⟨trivial, h.afterWrite hallow⟩
    | readCstr ptr =>
      have hsame : s'.1 = s.1 := hs
      rw [hsame]
      exact ⟨trivial, h⟩
    | alloc n =>
      have hsame : s'.1 = s.1 := hs
      rw [hsame]
      exact ⟨trivial, h⟩

/-- The program keeps to its regions, from its start on. -/
def Frames {α : Type} (e : Export) (out : List Region) (p : Prog (GuestMem.sum H) α) : Prop :=
  p.Obeys (framing H e out) (fun _ _ => True) false

/-- A run of a program that keeps to its regions changes nothing else, whatever the host does and however the run ends. -/
theorem Frames.agreeOutside_of_runs {α : Type} {p : Prog (GuestMem.sum H) α} (hp : Frames e out p) {e' : Export} {t t' : τ}
    {tr : List (Event (GuestMem.sum H))} {o : Outcome α} (hrun : Runs (guestMachine.sum N) p (e, t) tr o (e', t')) :
    AgreeOutside out e.data e'.data := by
  have hstart : Framed out e false (e, t).1 := ⟨.refl out e.data, fun _ => rfl⟩
  have hsim := hp.simulates (R := fun wrote s => Framed out e wrote s.1) (fun f s c answer s' h hallow hm => h.step hallow hm) hrun hstart
  exact hsim.1.agree

end

/-! ## The commands -/

/-- Any command but a write to guest memory. -/
def NoWrite {H : Sig} : (GuestMem.sum H).Cmd → Prop
  | .inl (.writeGuest ..) => False
  | _ => True

section
variable {H : Sig} {e : Export} {out : List Region} {wrote : Bool}

/-- Before any write, a read gives what was there at the start. -/
theorem frames_readGuest {ptr len : Int32} {Q : Except Errno (List UInt8) → Bool → Prop} (h : Q (e.readGuest ptr len) false) :
    (readGuest ptr len : Prog (GuestMem.sum H) _).Obeys (framing H e out) Q false := by
  refine ⟨rfl, ?_⟩
  intro answer hanswer
  have hread : answer = e.readGuest ptr len := hanswer
  subst hread
  exact h

/-- So does the read of a word. -/
theorem frames_readU32 {ptr : Int32} {Q : Except Errno UInt32 → Bool → Prop} (h : Q (e.readU32 ptr) false) :
    (readU32 ptr : Prog (GuestMem.sum H) _).Obeys (framing H e out) Q false := by
  refine Prog.obeys_bind.mpr (frames_readGuest ?_)
  unfold Export.readU32 at h
  cases hread : e.readGuest ptr 4 with
  | error errno =>
    rw [hread] at h
    exact h
  | ok bytes =>
    rw [hread] at h
    exact h

/-- A write stays inside the outputs. -/
theorem frames_writeGuest {ptr : Int32} {bytes : List UInt8} {Q : Except Errno Unit → Bool → Prop}
    (hin : Inside out ptr bytes.length) (h : ∀ answer, Q answer true) :
    (writeGuest ptr bytes : Prog (GuestMem.sum H) _).Obeys (framing H e out) Q wrote := ⟨hin, fun answer _ => h answer⟩

/-- So does the write of a word. -/
theorem frames_writeU32 {ptr : Int32} {value : UInt32} {Q : Except Errno Unit → Bool → Prop} (hin : Inside out ptr 4)
    (h : ∀ answer, Q answer true) : (writeU32 ptr value : Prog (GuestMem.sum H) _).Obeys (framing H e out) Q wrote := by
  refine frames_writeGuest ?_ h
  rw [length_leBytes]
  exact hin

/-- An allocation leaves guest memory alone. -/
theorem frames_alloc {n : Nat} {Q : Unit → Bool → Prop} (h : Q () wrote) :
    (alloc n : Prog (GuestMem.sum H) _).Obeys (framing H e out) Q wrote := ⟨trivial, fun _ _ => h⟩

/-- A slice is no longer than what it is of. -/
theorem frames_sliceTo {bytes : List UInt8} {n : Nat} {Q : List UInt8 → Bool → Prop}
    (h : ∀ slice : List UInt8, slice.length ≤ bytes.length → Q slice wrote) :
    (sliceTo bytes n : Prog (GuestMem.sum H) _).Obeys (framing H e out) Q wrote := by
  unfold sliceTo
  split
  · exact h _ (List.length_take_le' _ _)
  · trivial

/-- The host may answer anything. -/
theorem frames_host {c : H.Cmd} {Q : H.Resp c → Bool → Prop} (h : ∀ answer, Q answer wrote) :
    (host c).Obeys (framing H e out) Q wrote := ⟨trivial, fun answer _ => h answer⟩

/-- A part that writes nothing, before the first write. -/
theorem frames_noWrite {α : Type} {p : Prog (GuestMem.sum H) α} (hp : p.Only NoWrite) {Q : α → Bool → Prop} (h : ∀ a, Q a false) :
    p.Obeys (framing H e out) Q false := by
  induction p with
  | ret a => exact h a
  | panic => trivial
  | call c k ih =>
    -- every such command is allowed and leaves the phase as it is
    match c, k, ih, hp with
    | .inr _, _, ih, hp => exact ⟨trivial, fun answer _ => ih answer (hp.2 answer)⟩
    | .inl (.readGuest ..), _, ih, hp => exact ⟨rfl, fun answer _ => ih answer (hp.2 answer)⟩
    | .inl (.readCstr _), _, ih, hp => exact ⟨trivial, fun answer _ => ih answer (hp.2 answer)⟩
    | .inl (.alloc _), _, ih, hp => exact ⟨trivial, fun answer _ => ih answer (hp.2 answer)⟩

/-- An import without output regions. -/
theorem Frames.of_noWrite {α : Type} {p : Prog (GuestMem.sum H) α} (hp : p.Only NoWrite) : Frames e out p :=
  frames_noWrite hp fun _ => trivial

/-- A command of the host writes nothing to guest memory, ... -/
theorem noWrite_host (c : H.Cmd) : (host c).Only NoWrite := ⟨trivial, fun _ => trivial⟩

/-- ... nor does a read ... -/
theorem noWrite_readGuest (ptr len : Int32) : (readGuest ptr len : Prog (GuestMem.sum H) _).Only NoWrite :=
  ⟨trivial, fun _ => trivial⟩

/-- ... or that of a string, ... -/
theorem noWrite_readCstr (ptr : Int32) : (readCstr ptr : Prog (GuestMem.sum H) _).Only NoWrite := ⟨trivial, fun _ => trivial⟩

/-- ... also with a result that is mapped. -/
theorem noWrite_map {α β : Type} {p : Prog (GuestMem.sum H) α} {f : α → β} (hp : p.Only NoWrite) : (f <$> p).Only NoWrite := by
  rw [← bind_pure_comp]
  exact .bind hp fun _ => trivial

/-! ## Lengths and addresses -/

/-- What `usize::try_from` accepts. -/
theorem usizeTryFrom_eq_some {x : Int32} {n : Nat} : usizeTryFrom x = some n ↔ 0 ≤ x.toInt ∧ n = x.toNatClampNeg := by
  have hneg : x < 0 ↔ x.toInt < 0 := Int32.lt_iff_toInt_lt
  unfold usizeTryFrom
  split
  · rename_i hx
    have hlt := hneg.mp hx
    exact ⟨nofun, fun h => absurd h.1 (by omega)⟩
  · rename_i hx
    have hle : ¬x.toInt < 0 := fun h => hx (hneg.mpr h)
    constructor
    · intro h
      cases h
      exact ⟨by omega, rfl⟩
    · intro h
      rw [h.2]

/-- A length that is checked is the one that was asked for, ... -/
theorem eq_of_checkedLen {len : Int32} {n : Nat} (h : checkedLen len = .ok n) : n = len.toNatClampNeg := by
  unfold checkedLen at h
  split at h
  · cases h
  · rename_i len' hlen
    split at h
    · cases h
    · cases h
      exact (usizeTryFrom_eq_some.mp hlen).2

/-- ... and so is a count. -/
theorem eq_of_checkedPollCount {nfds : Int32} {n : Nat} (h : checkedPollCount nfds = .ok n) :
    n = nfds.toNatClampNeg ∧ n ≤ maxPollFds := by
  unfold checkedPollCount at h
  split at h
  · cases h
  · rename_i nfds' hnfds
    split at h
    · cases h
    · cases h
      exact ⟨(usizeTryFrom_eq_some.mp hnfds).2, by omega⟩

/-- The address of the `revents` of an entry, in `i32`. -/
theorem toInt_reventsPtr (fdsPtr : Int32) {index : Nat} (hindex : index < maxPollFds) :
    (fdsPtr + Int32.ofNat index * 8 + 6).toInt = (fdsPtr.toInt + index * 8 + 6).bmod (2 ^ 32) := by
  have hmax : maxPollFds = 16384 := rfl
  have htoInt : (Int32.ofNat index).toInt = index := Int32.toInt_ofNat_of_lt (by omega)
  have h8 : (8 : Int32).toInt = 8 := by decide
  have h6 : (6 : Int32).toInt = 6 := by decide
  rw [Int32.toInt_add, Int32.toInt_add, Int32.toInt_mul, htoInt, h8, h6, Int.add_bmod_bmod, Int.bmod_add_bmod]

/-- The sum may wrap, but then it is negative and no address. -/
theorem reventsPtr_eq {fdsPtr : Int32} {start index ptr : Nat} (hfds : usizeTryFrom fdsPtr = some start) (hindex : index < maxPollFds)
    (h : usizeTryFrom (fdsPtr + Int32.ofNat index * 8 + 6) = some ptr) : ptr = start + index * 8 + 6 := by
  have hmax : maxPollFds = 16384 := rfl
  have hlt := fdsPtr.toInt_lt
  have hsum := toInt_reventsPtr fdsPtr hindex
  obtain ⟨hpos, rfl⟩ := usizeTryFrom_eq_some.mp hfds
  obtain ⟨hptr, rfl⟩ := usizeTryFrom_eq_some.mp h
  rw [hsum] at hptr
  unfold Int32.toNatClampNeg
  rw [hsum]
  rw [Int.bmod_def] at hptr ⊢
  split at hptr <;> omega

/-- The word that says how long a buffer is. -/
theorem Export.lengthWord_of_readU32 {lenPtr : Int32} {len : UInt32} (h : e.readU32 lenPtr = .ok len) :
    e.lengthWord lenPtr = len.toNat := by rw [Export.lengthWord, h]

/-- A write into the buffer of a length word. -/
theorem Inside.buffer {ptr lenPtr : Int32} {n : Nat} (hout : ∀ r ∈ writeBackRegions e ptr lenPtr, r ∈ out)
    (h : n ≤ e.lengthWord lenPtr) : Inside out ptr n :=
  .of_regionAt (fun r hr => hout r (List.mem_append_left _ hr)) h

/-- ... and over the word itself. -/
theorem Inside.word {ptr lenPtr : Int32} (hout : ∀ r ∈ writeBackRegions e ptr lenPtr, r ∈ out) : Inside out lenPtr 4 :=
  .of_regionAt (fun r hr => hout r (List.mem_append_right _ hr)) (Nat.le_refl 4)

/-- The second loop of `poll` writes one `revents` half for each entry left. -/
theorem frames_writeRevents {fdsPtr nfds : Int32} {start : Nat} (hfds : usizeTryFrom fdsPtr = some start)
    (hmax : nfds.toNatClampNeg ≤ maxPollFds) (revents : List UInt16) {index : Nat} (hle : index + revents.length ≤ nfds.toNatClampNeg)
    {Q : Except Errno Unit → Bool → Prop} (h : ∀ answer wrote, Q answer wrote) :
    (writeRevents fdsPtr index revents : Prog (GuestMem.sum H) _).Obeys (framing H e (reventsRegions fdsPtr nfds)) Q wrote := by
  induction revents generalizing index wrote with
  | nil => exact h _ _
  | cons revent revents ih =>
    rw [List.length_cons] at hle
    have hin : Inside (reventsRegions fdsPtr nfds) (fdsPtr + Int32.ofNat index * 8 + 6) (leBytes 2 revent.toNat).length := by
      intro ptr hptr
      have heq := reventsPtr_eq hfds (by omega) hptr
      refine ⟨⟨start + index * 8 + 6, 2⟩, ?_, heq.symm, Nat.le_of_eq (length_leBytes 2 _)⟩
      rw [reventsRegions, hfds]
      exact List.mem_map.mpr ⟨index, List.mem_range.mpr (by omega), rfl⟩
    refine Prog.obeys_bind.mpr (frames_writeGuest hin ?_)
    intro answer
    cases answer with
    | error errno => exact h _ _
    | ok _ => exact ih (by omega)

/-! ## Steps that may fail -/

/-- A step that may fail, and what follows either way. -/
theorem noWrite_try {H : Sig} {α β : Type} {p : Prog (GuestMem.sum H) (Except Errno α)}
    {k : Except Errno α → Prog (GuestMem.sum H) β} (hp : p.Only NoWrite) (herr : ∀ errno, (k (.error errno)).Only NoWrite)
    (hok : ∀ a, (k (.ok a)).Only NoWrite) : (p >>= k).Only NoWrite := hp.attempt herr hok

/-- The same before the first write. -/
theorem frames_try {H : Sig} {e : Export} {out : List Region} {α β : Type} {p : Prog (GuestMem.sum H) (Except Errno α)}
    {k : Except Errno α → Prog (GuestMem.sum H) β} {Q : β → Bool → Prop} (hp : p.Only NoWrite)
    (herr : ∀ errno, (k (.error errno)).Obeys (framing H e out) Q false)
    (hok : ∀ a, (k (.ok a)).Obeys (framing H e out) Q false) : (p >>= k).Obeys (framing H e out) Q false := by
  refine Prog.obeys_bind.mpr (frames_noWrite hp ?_)
  intro answer
  cases answer with
  | error errno => exact herr errno
  | ok a => exact hok a

/-- The length word is read from the memory on entry. -/
theorem frames_lengthWord {H : Sig} {e : Export} {out : List Region} {β : Type} {lenPtr : Int32}
    {k : Except Errno UInt32 → Prog (GuestMem.sum H) β} {Q : β → Bool → Prop}
    (herr : ∀ errno, (k (.error errno)).Obeys (framing H e out) Q false)
    (hok : ∀ len : UInt32, e.lengthWord lenPtr = len.toNat → (k (.ok len)).Obeys (framing H e out) Q false) :
    (readU32 lenPtr >>= k).Obeys (framing H e out) Q false := by
  refine Prog.obeys_bind.mpr (frames_readU32 ?_)
  cases hread : e.readU32 lenPtr with
  | error errno => exact herr errno
  | ok len => exact hok len (Export.lengthWord_of_readU32 hread)

end

end WasmtimeMysql
