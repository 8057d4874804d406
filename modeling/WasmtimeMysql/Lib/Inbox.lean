import Mathlib.Data.List.Basic

/-!
# Inboxes

What a socket has received and not yet handed out: a stream of bytes, messages with their senders, or the peers that wait for their
connection to be accepted. A receive takes bytes from the front of a stream, as many as it has room for or fewer, or the first message,
which is gone then whether there was room for it or not (`Inbox.Gives`). `Inbox.next` is what the next receive takes at most.
-/

/-- A message, no longer than a host lets one be. -/
structure Message (β A : Type) (limit : Nat) where
  payload : List β
  sender : A
  short : payload.length ≤ limit

/-- What a socket has received. A stream may have the address of its peer with it. -/
inductive Inbox (β A : Type) (limit : Nat) where
  | stream (peer : Option A) (bytes : List β)
  | messages (waiting : List (Message β A limit))
  | pending (peers : List A)

namespace Inbox

variable {β A : Type} {limit n : Nat}

/-- What a receive with room for `n` takes, whom it comes from, and what is left. -/
inductive Gives (n : Nat) : Inbox β A limit → List β → Option A → Inbox β A limit → Prop where
  | bytes {peer : Option A} {bytes : List β} {m : Nat} (hroom : m ≤ n) (hthere : m ≤ bytes.length) (hsome : m = 0 → n = 0 ∨ bytes = []) :
      Gives n (.stream peer bytes) (bytes.take m) peer (.stream peer (bytes.drop m))
  | message {msg : Message β A limit} {rest : List (Message β A limit)} :
      Gives n (.messages (msg :: rest)) msg.payload (some msg.sender) (.messages rest)

/-- The inbox is one of messages. -/
def isMessages : Inbox β A limit → Bool
  | .messages _ => true
  | _ => false

/-- The length of what the next receive takes at most, and whom it comes from; nothing, if it takes nothing. -/
def next (n : Nat) : Inbox β A limit → Option (Nat × Option A)
  | .stream peer bytes => if n = 0 ∨ bytes.length = 0 then none else some (min n bytes.length, peer)
  | .messages (msg :: _) => some (msg.payload.length, some msg.sender)
  | _ => none

/-- A receive leaves the inbox as it is, or takes what is next. Only of a stream it may take less, and then there was room for all. -/
theorem Gives.next {q q' : Inbox β A limit} {taken : List β} {sender : Option A} (h : Gives n q taken sender q') :
    q' = q ∨ ∃ size, q.next n = some (size, sender) ∧ taken.length ≤ size ∧ (size ≤ n ∨ taken.length = size) := by
  cases h with
  | @bytes peer bytes m hroom hthere hsome =>
    by_cases hm : m = 0
    · left
      rw [hm, List.drop_zero]
    · right
      have hnone : ¬(n = 0 ∨ bytes.length = 0) := by omega
      refine ⟨min n bytes.length, ?_, ?_, .inl (Nat.min_le_left _ _)⟩
      · rw [Inbox.next, if_neg hnone]
      · rw [List.length_take]
        omega
  | @message msg rest => exact .inr ⟨msg.payload.length, rfl, Nat.le_refl _, .inr rfl⟩

/-- What is next may be taken, all of it. -/
theorem exists_gives {q : Inbox β A limit} {size : Nat} {sender : Option A} (h : q.next n = some (size, sender)) :
    ∃ taken q', Gives n q taken sender q' ∧ taken.length = size ∧ q' ≠ q := by
  cases q with
  | stream peer bytes =>
    simp only [Inbox.next] at h
    split at h
    · cases h
    · rename_i hsome
      cases h
      refine ⟨_, _, .bytes (m := min n bytes.length) (Nat.min_le_left _ _) (Nat.min_le_right _ _) (by omega), ?_, ?_⟩
      · rw [List.length_take]
        omega
      · intro hsame
        have hlength := congrArg List.length (Inbox.stream.inj hsame).2
        rw [List.length_drop] at hlength
        omega
  | messages waiting =>
    cases waiting with
    | nil => cases h
    | cons msg rest =>
      cases h
      refine ⟨_, _, .message, rfl, ?_⟩
      intro hsame
      exact List.ne_cons_self (Inbox.messages.inj hsame)
  | pending peers => cases h

/-- What is taken is no longer than the room, or than a message may be. -/
theorem Gives.length_le {q q' : Inbox β A limit} {taken : List β} {sender : Option A} (h : Gives n q taken sender q') :
    taken.length ≤ max n limit := by
  cases h with
  | bytes hroom =>
    rw [List.length_take]
    omega
  | @message msg rest => exact Nat.le_trans msg.short (Nat.le_max_right _ _)

end Inbox
