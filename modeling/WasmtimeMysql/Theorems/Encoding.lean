import WasmtimeMysql.GuestShim
import WasmtimeMysql.Lemmas.FileResults
import WasmtimeMysql.Lemmas.SocketResults

/-!
# Results across the boundary

The host encodes what an import came to in one number, and the guest decodes it again. `results_encode` puts the two sides together:
for every import of the Unix modules, whatever its arguments, the guest's memory and the answers of the host, the guest gets the result
of the operation when every step succeeded, and -1 and an errno when one did not.
-/

namespace WasmtimeMysql.Unix

open Effects

/-- What the guest makes of the result of a file import: the value its shim returns, and the errno it stores. `seek` returns an
`os_offset_t`, the others an `int` or a `ssize_t`. -/
def FileDecodes (c : FileImport) (v : Int64) (value : Int) (errno : Option Int32) : Prop :=
  match c with
  | .seek .. => osWasiFileSeek v = ⟨(Int64.ofInt value).toUInt64, errno⟩
  | c => ∃ rc : Int32, v = rc.toInt64 ∧ (c.decode rc).value.toInt = value ∧ (c.decode rc).errno = errno

namespace EncodingAux

/-- A number that is the negation of an errno's is the errno as the host encodes it. -/
theorem eq_negErrno {v : Int32} {errno : Errno} (h : v.toInt = -errno.code.toInt) : v = negErrno errno := by
  rw [← Int32.toInt_inj, h, toInt_negErrno]

theorem eq_negErrno_toInt64 {v : Int64} {errno : Errno} (h : v.toInt = -errno.code.toInt) : v = (negErrno errno).toInt64 := by
  rw [← Int64.toInt_inj, h, toInt_toInt64_negErrno]

/-- What a program whose value is changed at the end returns. -/
theorem exists_of_map {S : Sig} {σ α β : Type} {M : Machine S σ} {p : Prog S α} {f : α → β} {s s' : σ} {tr : List (Event S)} {v : β}
    (h : Runs M (f <$> p) s tr (.returned v) s') : ∃ a, v = f a := by
  have hwp : wp M (f <$> p) (fun _ o _ => ∀ v, o = .returned v → ∃ a, v = f a) s := by
    rw [wp_map, wp_iff_runs]
    intro tr o s' _ v hv
    cases o with
    | returned a => exact ⟨a, (Outcome.returned.inj hv).symm⟩
    | panicked => cases hv
  exact h.of_wp hwp v rfl

/-- A file import other than `seek` returns a number of 32 bits. -/
theorem narrow_of_runs {lc : Libc} {c : FileImport} {M : Machine Files (Export × (HostFilesInner Str × Unit))}
    {s s' : Export × (HostFilesInner Str × Unit)} {tr : List (Event Files)} {v : Int64}
    (hc : ∀ fd offset whence, c ≠ .seek fd offset whence) (h : Runs M (fileProg lc c) s tr (.returned v) s') :
    ∃ rc : Int32, v = rc.toInt64 := by
  cases c with
  | seek fd offset whence => exact absurd rfl (hc fd offset whence)
  | _ => exact exists_of_map h

/-- The guest gets the result of a file import back. -/
theorem fileDecodes_of_nonneg {c : FileImport} {v : Int64} (hv : 0 ≤ v)
    (hnarrow : (∀ fd offset whence, c ≠ .seek fd offset whence) → ∃ rc : Int32, v = rc.toInt64) :
    FileDecodes c v v.toInt none := by
  have hrc (hc : ∀ fd offset whence, c ≠ .seek fd offset whence) :
      ∃ rc : Int32, v = rc.toInt64 ∧ (c.decode rc).value.toInt = v.toInt ∧ (c.decode rc).errno = none := by
    obtain ⟨rc, rfl⟩ := hnarrow hc
    have hnonneg : 0 ≤ rc := by
      rw [Int32.le_iff_toInt_le]
      rw [Int64.le_iff_toInt_le, Int32.toInt_toInt64] at hv
      exact hv
    refine ⟨rc, rfl, ?_⟩
    rw [FileImport.decode_eq, decodeRc_of_nonneg hnonneg, Int32.toInt_toInt64]
    exact ⟨rfl, rfl⟩
  cases c with
  | seek fd offset whence =>
    rw [FileDecodes, osWasiFileSeek_of_nonneg hv, Int64.ofInt_toInt]
  | _ => exact hrc nofun

/-- The guest gets the errno of a file import back. -/
theorem fileDecodes_negErrno (c : FileImport) (errno : Errno) :
    FileDecodes c (negErrno errno).toInt64 (-1) (some errno.code) := by
  have hrc : ∃ rc : Int32, (negErrno errno).toInt64 = rc.toInt64 ∧ (c.decode rc).value.toInt = -1 ∧
      (c.decode rc).errno = some errno.code := by
    refine ⟨negErrno errno, rfl, ?_⟩
    rw [FileImport.decode_eq, decodeRc_negErrno]
    exact ⟨rfl, rfl⟩
  cases c with
  | seek fd offset whence =>
    rw [FileDecodes, osWasiFileSeek_negErrno]
    rfl
  | _ => exact hrc

end EncodingAux

/-- For every import, every memory, every state of the table and every answer of the host on which the import returns:
when its checks passed and every step succeeded, the number is the result of the operation, not negative, and the guest's shim returns
it; otherwise the number is the negation of one of the errno constants, and the shim returns -1 and stores that errno. No count that is
transferred is too large for an `i32`. -/
theorem results_encode (lc : Libc) :
    (∀ (c : SocketImport) (s s' : Export × (AppState HostSocket × Unit)) (tr : List (Event Sockets)) (v : Int32),
      Runs (machine anyNet) (prog lc c) s tr (.returned v) s' →
      ((report lc c).Succeeded tr → 0 ≤ v ∧ tr.findSome? (answerOf lc c) = some v.toInt ∧ c.decode v = ⟨v, none⟩) ∧
      (¬(report lc c).Succeeded tr → ∃ errno : Errno, v = negErrno errno ∧ 1 ≤ errno.code ∧ errno.code ≤ 76 ∧
        c.decode v = ⟨-1, some errno.code⟩) ∧
      tr.any overflows = false) ∧
    (∀ (c : FileImport) (s s' : Export × (HostFilesInner Str × Unit)) (tr : List (Event Files)) (v : Int64),
      Runs (fileMachine guestMachine anyFileHost) (fileProg lc c) s tr (.returned v) s' →
      ((fileReport c).Succeeded tr → 0 ≤ v ∧ tr.findSome? (fileAnswerOf c) = some v.toInt ∧ FileDecodes c v v.toInt none) ∧
      (¬(fileReport c).Succeeded tr → ∃ errno : Errno, v = (negErrno errno).toInt64 ∧ 1 ≤ errno.code ∧ errno.code ≤ 76 ∧
        FileDecodes c v (-1) (some errno.code)) ∧
      tr.any fileOverflows = false) := by
  constructor
  · intro c s s' tr v hrun
    have htells := tells_of_runs hrun
    refine ⟨?_, ?_, htells.noOverflow⟩
    · intro hok
      obtain ⟨hv, hanswer⟩ := htells.ok hok
      have hnonneg : 0 ≤ v := Int32.le_iff_toInt_le.mpr hv
      refine ⟨hnonneg, hanswer, ?_⟩
      rw [SocketImport.decode_eq, decodeRc_of_nonneg hnonneg]
    · intro hnot
      obtain ⟨errno, hv⟩ := htells.error hnot
      obtain rfl := EncodingAux.eq_negErrno hv
      refine ⟨errno, rfl, errno.one_le_code, errno.code_le, ?_⟩
      rw [SocketImport.decode_eq, decodeRc_negErrno]
  · intro c s s' tr v hrun
    have htells := fileTells_of_runs hrun
    refine ⟨?_, ?_, htells.noOverflow⟩
    · intro hok
      obtain ⟨hv, hanswer⟩ := htells.ok hok
      have hnonneg : 0 ≤ v := Int64.le_iff_toInt_le.mpr hv
      refine ⟨hnonneg, hanswer, EncodingAux.fileDecodes_of_nonneg hnonneg ?_⟩
      intro hc
      exact EncodingAux.narrow_of_runs hc hrun
    · intro hnot
      obtain ⟨errno, hv⟩ := htells.error hnot
      obtain rfl := EncodingAux.eq_negErrno_toInt64 hv
      exact ⟨errno, rfl, errno.one_le_code, errno.code_le, EncodingAux.fileDecodes_negErrno c errno⟩

/-- A `shutdown` of a live socket that the kernel grants, and one of a guest fd that is not live. -/
theorem results_encode_shutdown :
    (∃ tr s', Runs (machine anyNet) (prog linux (.shutdown 10000 2)) (.missing, oneSocket, ()) tr (.returned 0) s' ∧
      tr.findSome? (answerOf linux (.shutdown 10000 2)) = some 0 ∧ decodeI32 0 = ⟨0, none⟩) ∧
    (∃ tr s', Runs (machine anyNet) (prog linux (.shutdown 7 2)) (.missing, oneSocket, ()) tr (.returned (-8)) s' ∧
      ∃ errno : Errno, (-8 : Int32) = negErrno errno ∧ decodeI32 (-8) = ⟨-1, some errno.code⟩) := by
  constructor
  · have hrun : Runs (machine anyNet) (prog linux (.shutdown 10000 2)) (.missing, oneSocket, ())
        [⟨.inr (.inl (.sockets (.get 10000))), some ⟨3, 2, 2⟩⟩, ⟨.inr (.inr (.shutdown 3 2)), (0 : Int32)⟩] (.returned 0)
        (.missing, oneSocket, ()) := by
      have hget : machine anyNet (.missing, oneSocket, ()) (.inr (.inl (.sockets (.get 10000)))) (some ⟨3, 2, 2⟩)
          (.missing, oneSocket, ()) := ⟨⟨rfl, rfl⟩, rfl⟩
      have hcall : machine anyNet (.missing, oneSocket, ()) (.inr (.inr (.shutdown 3 2))) (0 : Int32)
          (.missing, oneSocket, ()) := ⟨⟨trivial, rfl⟩, rfl⟩
      exact .call hget (.call hcall (.ret 0 _))
    obtain ⟨-, hanswer, hdecode⟩ := ((results_encode linux).1 _ _ _ _ _ hrun).1 ⟨rfl, rfl⟩
    exact ⟨_, _, hrun, hanswer, hdecode⟩
  · have hrun : Runs (machine anyNet) (prog linux (.shutdown 7 2)) (.missing, oneSocket, ())
        [⟨.inr (.inl (.sockets (.get 7))), none⟩] (.returned (-8)) (.missing, oneSocket, ()) := by
      have hget : machine anyNet (.missing, oneSocket, ()) (.inr (.inl (.sockets (.get 7)))) none
          (.missing, oneSocket, ()) := ⟨⟨rfl, rfl⟩, rfl⟩
      exact .call hget (.ret _ _)
    obtain ⟨errno, hv, -, -, hdecode⟩ := ((results_encode linux).1 _ _ _ _ _ hrun).2.1 (fun h => nomatch h.2)
    exact ⟨_, _, hrun, errno, hv, hdecode⟩

end WasmtimeMysql.Unix
