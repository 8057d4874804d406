import WasmtimeMysql.Lemmas.Wp

/-!
# What the parts of a socket import issue

The parts of the imports that only call the host: they issue no command on guest memory and none on the table, whatever the host
answers.
-/

namespace WasmtimeMysql

open Effects

/-- A call to the host, and no other command. -/
def IsCall {E U : Type} {Net : Sig} : (GuestMem.sum (SocketSig E U Net)).Cmd → Prop
  | .inl _ => False
  | .inr (.inl _) => False
  | .inr (.inr _) => True

/-- A program that only calls the host leaves guest memory and the table alone. -/
theorem wp_of_only_call {E U : Type} {Net : Sig} {γ κ α : Type} {G : Machine GuestMem γ} {apply : U → E → E} {K : Machine Net κ}
    {g : γ} {a : AppState E} {k : κ} {p : Prog (GuestMem.sum (SocketSig E U Net)) α} (hp : p.Only IsCall) :
    wp (socketMachine G apply K) p (fun _ _ s' => s'.1 = g ∧ s'.2.1 = a) (g, a, k) := by
  refine wp_of_only hp ?_ ⟨rfl, rfl⟩
  rintro ⟨g, a, k⟩ (c | c | c) r ⟨g', a', k'⟩ hc hm hs
  · exact hc.elim
  · exact hc.elim
  · exact ⟨hm.2.trans hs.1, hm.1.2.trans hs.2⟩

namespace Unix

variable (lc : Libc)

/-- A call of libc is one. -/
theorem only_libc (c : Net.Cmd) : (libc c).Only IsCall := ⟨trivial, fun _ => trivial⟩

/-- So is the question for the errno, ... -/
theorem only_lastErrno : (lastErrno lc).Only IsCall := by
  refine .bind (only_libc _) ?_
  intro r
  cases r <;> trivial

/-- ... also where it is negated. -/
theorem only_negLastErrno : (negLastErrno lc).Only IsCall := .bind (only_lastErrno lc) fun _ => trivial

/-- A flag of a socket is added by calls of the host alone, ... -/
theorem only_addFlag (wanted : Bool) (rawFd : Int32) (getFlags : Fcntl) (setFlags : Int32 → Fcntl) (flag : Int32) :
    (addFlag lc wanted rawFd getFlags setFlags flag).Only IsCall := by
  unfold addFlag
  split
  · refine .bind (only_libc _) ?_
    intro flags
    split
    · exact .bind (only_lastErrno lc) fun _ => trivial
    · refine .bind (only_libc _) ?_
      intro rc
      split
      · exact .bind (only_lastErrno lc) fun _ => trivial
      · trivial
  · trivial

/-- ... and so are the flags of a new socket. -/
theorem only_configureSocketTypeFlags (rawFd : Int32) (socketType : NormalizedSocketType) :
    (configureSocketTypeFlags lc rawFd socketType).Only IsCall := by
  refine .bind (only_addFlag lc _ _ _ _ _) ?_
  rintro (errno | _)
  · trivial
  · exact only_addFlag lc _ _ _ _ _

end Unix

namespace Windows

/-- A call of WinSock is one. -/
theorem only_ws (c : Net.Cmd) : (ws c).Only IsCall := ⟨trivial, fun _ => trivial⟩

/-- So is the question for its error ... -/
theorem only_negLastSocketErrno : negLastSocketErrno.Only IsCall := .bind (only_ws _) fun _ => trivial

/-- ... and its start. -/
theorem only_ensureWinsock : ensureWinsock.Only IsCall := by
  refine .bind (only_ws _) ?_
  intro rc
  split <;> trivial

end Windows

end WasmtimeMysql
