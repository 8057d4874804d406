import WasmtimeMysql.Lemmas.Frame
import WasmtimeMysql.Lemmas.Programs
import WasmtimeMysql.Lib.Records

/-!
# The two loops of `poll`

The first loop takes the guest's array apart and looks each entry up in the table; the second writes the `revents` field of each entry. The
array is an array of records of eight bytes (`Bytes.record`), and the loops are described by what they do to it.
-/

namespace WasmtimeMysql

open Effects Bytes

/-! ## The guest's array -/

/-- The chunks of the array are its records. -/
theorem chunksExact8_eq (n : Nat) (bytes : List UInt8) : chunksExact8 n bytes = records 8 0 n bytes := by
  induction n generalizing bytes with
  | zero => rfl
  | succ n ih => rw [chunksExact8, records_succ, ih, records_drop, record, Nat.mul_zero, List.drop_zero]

/-- The `revents` of one guest `pollfd`. -/
def guestRevents (chunk : List UInt8) : UInt16 := UInt16.ofNat (ofLeBytes (chunk.drop 6))

/-- What is written over the `revents` fields. -/
def reventsFields (revents : List UInt16) : List (List UInt8) := revents.map fun bits => leBytes 2 bits.toNat

theorem length_of_mem_reventsFields {revents : List UInt16} {field : List UInt8} (h : field ∈ reventsFields revents) :
    field.length = 2 := by
  obtain ⟨bits, -, rfl⟩ := List.mem_map.mp h
  exact length_leBytes 2 _

/-- An entry whose `revents` were written has them, and is otherwise as it was. -/
theorem overwrite_revents {chunk : List UInt8} (h : chunk.length = 8) (bits : UInt16) :
    guestRevents (overwrite chunk 6 (leBytes 2 bits.toNat)) = bits ∧ (overwrite chunk 6 (leBytes 2 bits.toNat)).take 6 = chunk.take 6 := by
  have hsix : (chunk.take 6).length = 6 := by rw [List.length_take]; omega
  have heq : overwrite chunk 6 (leBytes 2 bits.toNat) = chunk.take 6 ++ leBytes 2 bits.toNat := by
    rw [overwrite, length_leBytes, List.drop_of_length_le (by omega), List.append_nil]
  refine ⟨?_, ?_⟩
  · rw [guestRevents, heq, List.drop_left' hsix, ofLeBytes_leBytes, Nat.mod_eq_of_lt (by exact bits.toNat_lt)]
    exact UInt16.ofNat_toNat
  · rw [heq, List.take_left' hsix]

/-- An entry of the array in guest memory. -/
def Export.pollEntry (e : Export) (start i : Nat) : List UInt8 := record 8 start i e.data

/-- How many of the entries have `revents` other than 0. -/
def Export.readyCount (e : Export) (start n : Nat) : Nat := (records 8 start n e.data).countP fun chunk => guestRevents chunk ≠ 0

/-- The guest memory with the `revents` fields of the array written. -/
def Export.withRevents (e : Export) (start : Nat) (revents : List UInt16) : Export :=
  e.mapData (setFields 8 start 6 0 (reventsFields revents))

section
variable {e : Export} {start : Nat} {revents : List UInt16}

/-- Each entry gets its own `revents` and keeps its fd and its events. -/
theorem Export.pollEntry_withRevents (he : e.IsMemory) (hin : start + 8 * revents.length ≤ e.data.length) {i : Nat}
    (hi : i < revents.length) :
    revents[i]? = some (guestRevents ((e.withRevents start revents).pollEntry start i)) ∧
      ((e.withRevents start revents).pollEntry start i).take 6 = (e.pollEntry start i).take 6 := by
  have hlen : (record 8 start i e.data).length = 8 := length_record (by omega)
  have hfields : ∀ field ∈ reventsFields revents, 6 + field.length ≤ 8 := by
    intro field hfield
    rw [length_of_mem_reventsFields hfield]
  have hentry : (e.withRevents start revents).pollEntry start i = overwrite (record 8 start i e.data) 6 (leBytes 2 revents[i].toNat) := by
    rw [Export.pollEntry, Export.withRevents, Export.data_mapData he,
      record_setFields hfields (by rwa [Nat.zero_add, reventsFields, List.length_map]), if_pos (Nat.zero_le i), Nat.sub_zero,
      reventsFields, List.getElem?_map, List.getElem?_eq_getElem hi]
    rfl
  obtain ⟨hrevents, hrest⟩ := overwrite_revents hlen revents[i]
  rw [hentry, hrevents]
  exact ⟨List.getElem?_eq_getElem hi, hrest⟩

theorem Export.readyCount_withRevents (he : e.IsMemory) (hin : start + 8 * revents.length ≤ e.data.length) :
    (e.withRevents start revents).readyCount start revents.length = revents.countP (· ≠ 0) := by
  have hmap : (records 8 start revents.length (e.withRevents start revents).data).map guestRevents = revents := by
    refine List.ext_getElem? fun i => ?_
    rw [List.getElem?_map, records, List.getElem?_map]
    by_cases hi : i < revents.length
    · rw [List.getElem?_range hi, (Export.pollEntry_withRevents he hin hi).1]
      rfl
    · rw [List.getElem?_eq_none (by rw [List.length_range]; omega), List.getElem?_eq_none (by omega)]
      rfl
  rw [Export.readyCount]
  conv_rhs => rw [← hmap, List.countP_map]
  rfl

end

/-! ## The second loop -/

/-- The step writes a `revents` field, at its address, and succeeds. -/
def WritesBack {H : Sig} (start n : Nat) : Event (GuestMem.sum H) → Prop
  | ⟨.inl (.writeGuest ptr _), answer⟩ => answer = .ok () ∧ ∃ i < n, ptr.toInt = start + 8 * i + 6
  | _ => False

/-- The command writes to guest memory. -/
def IsWrite {H : Sig} : (GuestMem.sum H).Cmd → Prop
  | .inl (.writeGuest ..) => True
  | _ => False

section
variable {H : Sig} {τ : Type} {N : Machine H τ} {e : Export} {t : τ}

theorem only_writeRevents (fdsPtr : Int32) (index : Nat) (revents : List UInt16) :
    (writeRevents fdsPtr index revents : Prog (GuestMem.sum H) _).Only IsWrite := by
  induction revents generalizing index with
  | nil => trivial
  | cons bits revents ih => exact .attempt ⟨trivial, fun _ => trivial⟩ (fun _ => trivial) fun _ => ih (index + 1)

/-- In a memory that an `i32` can address, the address of a `revents` field does not wrap. -/
theorem reventsPtr_of_le {fdsPtr : Int32} {start index : Nat} (hfds : usizeTryFrom fdsPtr = some start) (hmax : index < maxPollFds)
    (hin : start + 8 * (index + 1) ≤ 2 ^ 31) :
    (fdsPtr + Int32.ofNat index * 8 + 6).toInt = start + 8 * index + 6 ∧
      usizeTryFrom (fdsPtr + Int32.ofNat index * 8 + 6) = some (start + 8 * index + 6) := by
  obtain ⟨hpos, hstart⟩ := usizeTryFrom_eq_some.mp hfds
  have hnat : (start : Int) = fdsPtr.toInt := by
    rw [hstart]
    exact Int.toNat_of_nonneg hpos
  have htoInt : (fdsPtr + Int32.ofNat index * 8 + 6).toInt = start + 8 * index + 6 := by
    rw [toInt_reventsPtr fdsPtr hmax, Int.bmod_eq_of_le (by omega) (by omega)]
    omega
  refine ⟨htoInt, usizeTryFrom_eq_some.mpr ⟨by omega, ?_⟩⟩
  unfold Int32.toNatClampNeg
  omega

/-- If the loop comes to its end, the fields are written. If the memory is no larger than an `i32` can address, it does. -/
theorem wp_writeRevents {fdsPtr : Int32} {start index : Nat} (revents : List UInt16) (he : e.IsMemory)
    (hfds : usizeTryFrom fdsPtr = some start) (hmax : index + revents.length ≤ maxPollFds)
    (hin : start + 8 * (index + revents.length) ≤ e.data.length) :
    wp (guestMachine.sum N) (writeRevents fdsPtr index revents)
      (fun tr o s' => (o = .returned (.ok ()) → s' = (e.mapData (setFields 8 start 6 index (reventsFields revents)), t)) ∧
        (e.data.length ≤ 2 ^ 31 → o = .returned (.ok ()) ∧ ∀ ev ∈ tr, WritesBack start (index + revents.length) ev)) (e, t) := by
  induction revents generalizing index e with
  | nil =>
    refine ⟨fun _ => ?_, fun _ => ⟨rfl, List.forall_mem_nil _⟩⟩
    exact congrArg (·, t) e.mapData_id.symm
  | cons bits revents ih =>
    rw [List.length_cons] at hmax hin ⊢
    simp only [writeRevents, wp_bind, wp_writeGuest, wpNext_returned]
    generalize hptr : fdsPtr + Int32.ofNat index * 8 + 6 = ptr
    generalize hbytes : leBytes 2 bits.toNat = bytes
    have hlen : bytes.length = 2 := by rw [← hbytes, length_leBytes]
    -- the address as an `i32`, in a memory that it can address
    have haddr (hsize : e.data.length ≤ 2 ^ 31) : ptr.toInt = start + 8 * index + 6 ∧ usizeTryFrom ptr = some (start + 8 * index + 6) := by
      rw [← hptr]
      exact reventsPtr_of_le hfds (by omega) (by omega)
    rcases e.write_cases ptr bytes with ⟨hok, pos, hat, -, -, hafter⟩ | ⟨⟨errno, herr⟩, hafter⟩
    · have hatEq : pos = start + 8 * index + 6 := by
        rw [← hptr] at hat
        have := reventsPtr_eq hfds (by omega) hat
        omega
      subst hatEq
      rw [hok, hafter]
      have hlength : (e.mapData (overwrite · (start + 8 * index + 6) bytes)).data.length = e.data.length := by
        rw [Export.data_mapData he, length_overwrite (by omega)]
      refine wp_mono (ih ((Export.isMemory_mapData _).mpr he) (by omega) (by rw [hlength]; omega)) ?_
      rintro tr o s' ⟨hdone, hall⟩
      rw [hlength] at hall
      refine ⟨fun ho => ?_, fun hsize => ⟨(hall hsize).1, ?_⟩⟩
      · rw [hdone ho, Export.mapData_mapData]
        subst hbytes
        rfl
      · rw [List.cons_append, List.nil_append, List.forall_mem_cons]
        refine ⟨⟨rfl, index, by omega, (haddr hsize).1⟩, ?_⟩
        rw [show index + (revents.length + 1) = index + 1 + revents.length by omega]
        exact (hall hsize).2
    · rw [herr]
      refine ⟨fun h => ?_, fun hsize => ?_⟩
      · cases h
      · have hok := Export.writeAnswer_of_le he (haddr hsize).2 (by rw [hlen]; decide) (by omega)
        rw [herr] at hok
        cases hok

end

/-! ## The first loop -/

/-- What the first loop makes of the entries: each is translated, or one of them is not in the table. -/
def Translated {F : Type} (target : List UInt8 → Option F) (chunks : List (List UInt8)) : Except Errno (List F) → Prop
  | .ok fds => List.Forall₂ (fun chunk fd => target chunk = some fd) chunks fds
  | .error errno => errno = .ebadf ∧ ∃ chunk ∈ chunks, target chunk = none

/-- The command looks a guest fd up. -/
def IsLookup {E U : Type} {Net : Sig} : (GuestMem.sum (SocketSig E U Net)).Cmd → Prop
  | .inr (.inl (.sockets (.get _))) => True
  | _ => False

section
variable {F : Type} {target : List UInt8 → Option F} {chunk : List UInt8} {chunks : List (List UInt8)}

/-- One more entry in front. -/
theorem Translated.cons {fd : F} {result : Except Errno (List F)} (hfd : target chunk = some fd) (h : Translated target chunks result) :
    Translated target (chunk :: chunks) (result.map (fd :: ·)) := by
  cases result with
  | error errno => exact ⟨h.1, h.2.imp fun _ hc => ⟨List.mem_cons_of_mem _ hc.1, hc.2⟩⟩
  | ok fds => exact List.Forall₂.cons hfd h

/-- Entry by entry. -/
theorem Translated.getElem? {fds : List F} (h : Translated target chunks (.ok fds)) (i : Nat) : fds[i]? = chunks[i]?.bind target := by
  replace h : List.Forall₂ (fun chunk fd => target chunk = some fd) chunks fds := h
  induction h generalizing i with
  | nil => rfl
  | cons hfd _ ih =>
    cases i with
    | zero => exact hfd.symm
    | succ i => exact ih i

theorem Translated.length {fds : List F} (h : Translated target chunks (.ok fds)) : fds.length = chunks.length :=
  (List.Forall₂.length_eq h).symm

end

section
variable {E U F σ : Type} {Net : Sig} {M : Machine (GuestMem.sum (SocketSig E U Net)) σ} {s : σ} {target : List UInt8 → Option F}
  {chunk : List UInt8} {chunks : List (List UInt8)}

/-- The first loop translates the entries, and does nothing but look them up. -/
def LooksUp (target : List UInt8 → Option F) (chunks : List (List UInt8)) (s : σ) (tr : List (Event (GuestMem.sum (SocketSig E U Net))))
    (o : Outcome (Except Errno (List F))) (s' : σ) : Prop :=
  s' = s ∧ (∃ result, o = .returned result ∧ Translated target chunks result) ∧ ∀ ev ∈ tr, IsLookup ev.1

/-- The entries after one that was found. -/
theorem wp_looksUp_cons {p : Prog (GuestMem.sum (SocketSig E U Net)) (Except Errno (List F))} (h : wp M p (LooksUp target chunks s) s)
    {fd : F} (hfd : target chunk = some fd) {f : Except Errno (List F) → Prog (GuestMem.sum (SocketSig E U Net)) (Except Errno (List F))}
    (hf : ∀ result, f result = .ret (result.map (fd :: ·))) {pre : List (Event (GuestMem.sum (SocketSig E U Net)))}
    (hpre : ∀ ev ∈ pre, IsLookup ev.1) : wp M (p >>= f) (fun tr => LooksUp target (chunk :: chunks) s (pre ++ tr)) s := by
  rw [wp_bind]
  refine wp_mono h ?_
  rintro tr o s' ⟨rfl, ⟨result, rfl, hresult⟩, htr⟩
  rw [wpNext_returned, hf]
  refine ⟨rfl, ⟨_, rfl, hresult.cons hfd⟩, ?_⟩
  rw [List.append_nil]
  exact List.forall_mem_append.mpr ⟨hpre, htr⟩

end

namespace Unix

variable {γ κ : Type} {G : Machine GuestMem γ} {K : Machine Net κ} {g : γ} {a : AppState HostSocket} {k : κ}

/-- The host entry of a guest entry: of its own socket, or of its negative fd. -/
def pollFdOf (t : FdTable socketFdBase HostSocket) (chunk : List UInt8) : Option PollFd :=
  if (guestPollFd chunk).1 < 0 then some ⟨(guestPollFd chunk).1, (guestPollFd chunk).2⟩
  else (t.find (guestPollFd chunk).1).map fun socket => ⟨socket.rawFd, (guestPollFd chunk).2⟩

theorem wp_hostPollFds (chunks : List (List UInt8)) :
    wp (machineOver G K) (hostPollFds chunks) (LooksUp (pollFdOf a.sockets) chunks (g, a, k)) (g, a, k) := by
  induction chunks with
  | nil => exact ⟨rfl, ⟨_, rfl, .nil⟩, nofun⟩
  | cons chunk chunks ih =>
    simp only [hostPollFds, Prog.pure_eq, Prog.ret_bind]
    by_cases hneg : (guestPollFd chunk).1 < 0
    · simp only [if_pos hneg]
      refine wp_looksUp_cons ih (if_pos hneg) ?_ (List.forall_mem_nil _)
      rintro (errno | rest) <;> rfl
    · simp only [if_neg hneg, wp_bind, wp_get, wpNext_returned]
      have hfd : pollFdOf a.sockets chunk =
          (a.sockets.find (guestPollFd chunk).1).map fun socket => ⟨socket.rawFd, (guestPollFd chunk).2⟩ :=
        if_neg hneg
      cases hfind : a.sockets.find (guestPollFd chunk).1 with
      | none =>
        rw [hfind] at hfd
        exact ⟨rfl, ⟨_, rfl, rfl, chunk, List.mem_cons_self, hfd⟩, by simp [IsLookup]⟩
      | some socket =>
        rw [hfind] at hfd
        refine wp_looksUp_cons ih hfd ?_ (by simp [IsLookup])
        rintro (errno | rest) <;> rfl

end Unix

namespace Windows

variable {γ κ : Type} {G : Machine GuestMem γ} {K : Machine Net κ} {g : γ} {a : AppState HostSocket} {k : κ}

/-- The host entry of a guest entry, and whether it is ignored: a negative fd is a socket that is none. -/
def pollFdOf (t : FdTable socketFdBase HostSocket) (chunk : List UInt8) : Option (Bool × WsaPollFd) :=
  if (guestPollFd chunk).1 < 0 then some (true, ⟨invalidSocket, 0⟩)
  else (t.find (guestPollFd chunk).1).map fun socket => (false, ⟨socket.rawSocket, guestPollEventsToWindows (guestPollFd chunk).2⟩)

theorem wp_hostPollFds (chunks : List (List UInt8)) :
    wp (machineOver G K) (hostPollFds chunks) (LooksUp (pollFdOf a.sockets) chunks (g, a, k)) (g, a, k) := by
  induction chunks with
  | nil => exact ⟨rfl, ⟨_, rfl, .nil⟩, nofun⟩
  | cons chunk chunks ih =>
    simp only [hostPollFds, Prog.pure_eq, Prog.ret_bind]
    by_cases hneg : (guestPollFd chunk).1 < 0
    · simp only [if_pos hneg]
      refine wp_looksUp_cons ih (if_pos hneg) ?_ (List.forall_mem_nil _)
      rintro (errno | rest) <;> rfl
    · simp only [if_neg hneg, wp_bind, wp_get, wpNext_returned]
      have hfd : pollFdOf a.sockets chunk = (a.sockets.find (guestPollFd chunk).1).map fun socket =>
        (false, ⟨socket.rawSocket, guestPollEventsToWindows (guestPollFd chunk).2⟩) := if_neg hneg
      cases hfind : a.sockets.find (guestPollFd chunk).1 with
      | none =>
        rw [hfind] at hfd
        exact ⟨rfl, ⟨_, rfl, rfl, chunk, List.mem_cons_self, hfd⟩, by simp [IsLookup]⟩
      | some socket =>
        rw [hfind] at hfd
        refine wp_looksUp_cons ih hfd ?_ (by simp [IsLookup])
        rintro (errno | rest) <;> rfl

end Windows

end WasmtimeMysql
