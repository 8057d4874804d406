import WasmtimeMysql.Runner

/-!
# Which Ctrl+C ends the process

The handlers of `SIGINT` and `SIGTERM` and the import `request_shutdown` share one flag, which also stands for a Ctrl+C that was seen
before. So a Ctrl+C ends the process as soon as anything has asked for the shutdown, and only where no other request comes before the
first Ctrl+C is it the second one that does (`onlySecondInterrupt_iff`).
-/

namespace WasmtimeMysql

/-- The flag is set from the first event on, and the process is terminated exactly at a `SIGINT` that comes after another one. -/
def OnlySecondInterrupt (events : List ShutdownEvent) : Prop :=
  (∀ k ≤ events.length, (Shutdown.after (events.take k)).shutdownRequested = true ↔ 0 < k) ∧
  ∀ k < events.length, (Shutdown.after (events.take k)).exited = none →
    ((Shutdown.after (events.take (k + 1))).exited ≠ none ↔
      events[k]? = some (.signal .sigint) ∧ ShutdownEvent.signal .sigint ∈ events.take k)

namespace ShutdownAux

/-! ### One event -/

/-- Every event sets the flag, and only a `SIGINT` that finds it set ends the process. -/
theorem step_eq (requested : Bool) (e : ShutdownEvent) :
    Shutdown.step ⟨requested, none⟩ e =
      if e = .signal .sigint ∧ requested = true then ⟨true, some 1⟩ else ⟨true, none⟩ := by
  rcases e with (_ | _) | _ <;> cases requested <;> rfl

/-- Nothing happens to a process that has ended. -/
theorem step_of_exited {s : Shutdown} (h : s.exited ≠ none) (e : ShutdownEvent) : s.step e = s := by
  rcases e with signal | _
  · simp [Shutdown.step, Shutdown.deliver, installShutdownSignalHandlers, h]
  · exact if_neg h

/-! ### A sequence of events -/

theorem after_snoc (events : List ShutdownEvent) (e : ShutdownEvent) :
    Shutdown.after (events ++ [e]) = (Shutdown.after events).step e := by
  unfold Shutdown.after
  rw [List.foldl_append, List.foldl_cons, List.foldl_nil]

theorem after_take_succ {events : List ShutdownEvent} {k : Nat} {e : ShutdownEvent} (h : events[k]? = some e) :
    Shutdown.after (events.take (k + 1)) = (Shutdown.after (events.take k)).step e := by
  rw [List.take_add_one, h, Option.toList_some, after_snoc]

/-- The flag is set once there was an event, also in a process that has ended. -/
theorem shutdownRequested_after (events : List ShutdownEvent) :
    (Shutdown.after events).shutdownRequested = true ↔ events ≠ [] := by
  have hlist : (∃ e, e ∈ events) → (Shutdown.after events).shutdownRequested = true := by
    induction events using List.reverseRecOn with
    | nil => exact fun ⟨_, he⟩ => nomatch he
    | append_singleton events e ih =>
      intro _
      rw [after_snoc]
      cases hafter : Shutdown.after events with
      | mk requested exited =>
        cases exited with
        | none =>
          rw [step_eq]
          split <;> rfl
        | some status =>
          rw [step_of_exited (Option.some_ne_none status)]
          rw [hafter] at ih
          refine ih (List.exists_mem_of_ne_nil _ ?_)
          rintro rfl
          cases hafter
  constructor
  · rintro h rfl
    cases h
  · exact fun h => hlist (List.exists_mem_of_ne_nil _ h)

theorem shutdownRequested_after_take {events : List ShutdownEvent} {k : Nat} (hk : k ≤ events.length) :
    (Shutdown.after (events.take k)).shutdownRequested = true ↔ 0 < k := by
  rw [shutdownRequested_after, ← List.length_pos_iff, List.length_take]
  omega

/-- A process that is running is terminated at the next `SIGINT`, unless that is the first event. -/
theorem exits_iff {events : List ShutdownEvent} {k : Nat} (hk : k < events.length)
    (hrunning : (Shutdown.after (events.take k)).exited = none) :
    (Shutdown.after (events.take (k + 1))).exited ≠ none ↔ events[k]? = some (.signal .sigint) ∧ 0 < k := by
  have hget : events[k]? = some events[k] := List.getElem?_eq_getElem hk
  have hflag := shutdownRequested_after_take (Nat.le_of_lt hk)
  rw [after_take_succ hget, hget]
  cases hafter : Shutdown.after (events.take k) with
  | mk requested exited =>
    rw [hafter] at hrunning hflag
    cases hrunning
    rw [step_eq, ← hflag, Option.some.injEq]
    split
    · rename_i h
      exact ⟨fun _ => h, nofun⟩
    · rename_i h
      exact ⟨fun hne => absurd rfl hne, fun h' => absurd h' h⟩

/-- Up to the first `SIGINT` the process is running. -/
theorem exited_of_not_mem {events : List ShutdownEvent} (h : ShutdownEvent.signal .sigint ∉ events) :
    (Shutdown.after events).exited = none := by
  induction events using List.reverseRecOn with
  | nil => rfl
  | append_singleton events e ih =>
    rw [List.mem_append, List.mem_singleton, not_or] at h
    rw [after_snoc]
    cases hafter : Shutdown.after events with
    | mk requested exited =>
      have hrunning := ih h.1
      rw [hafter] at hrunning
      cases hrunning
      rw [step_eq, if_neg fun he => h.2 he.1.symm]

end ShutdownAux

open ShutdownAux in
/-- In a sequence of events it is the second `SIGINT` that terminates the process, and no event before it, exactly when there is no
`SIGINT` in it or nothing else comes before the first one. -/
theorem onlySecondInterrupt_iff (events : List ShutdownEvent) :
    OnlySecondInterrupt events ↔
      ShutdownEvent.signal .sigint ∉ events ∨ events.head? = some (.signal .sigint) := by
  constructor
  · rintro ⟨-, hexits⟩
    by_cases hmem : ShutdownEvent.signal .sigint ∈ events
    · right
      -- at the first `SIGINT` the process is running, and none came before
      have hk : events.idxOf (.signal .sigint) < events.length := List.idxOf_lt_length_of_mem hmem
      have hget : events[events.idxOf (.signal .sigint)]? = some (.signal .sigint) := by
        rw [List.getElem?_eq_getElem hk, List.getElem_idxOf hk]
      have hnot : ShutdownEvent.signal .sigint ∉ events.take (events.idxOf (.signal .sigint)) :=
        fun hbefore => Nat.lt_irrefl _ ((List.mem_take_iff_idxOf_lt hmem).mp hbefore)
      have hrunning := exited_of_not_mem hnot
      have hzero : ¬0 < events.idxOf (.signal .sigint) := by
        intro hpos
        have hends := (exits_iff hk hrunning).mpr ⟨hget, hpos⟩
        exact hnot ((hexits _ hk hrunning).mp hends).2
      rw [Nat.eq_zero_of_not_pos hzero] at hget
      rw [List.head?_eq_getElem?]
      exact hget
    · exact .inl hmem
  · intro hcond
    refine ⟨fun k hk => shutdownRequested_after_take hk, ?_⟩
    intro k hk hrunning
    rw [exits_iff hk hrunning]
    refine and_congr_right fun hget => ?_
    have hmem : ShutdownEvent.signal .sigint ∈ events := List.mem_of_getElem? hget
    have hhead : events[0]? = some (.signal .sigint) := by
      rw [← List.head?_eq_getElem?]
      exact hcond.resolve_left (not_not_intro hmem)
    constructor
    · intro hpos
      refine List.mem_of_getElem? (i := 0) ?_
      rw [List.getElem?_take, if_pos hpos]
      exact hhead
    · intro hbefore
      rcases Nat.eq_zero_or_pos k with rfl | hpos
      · cases hbefore
      · exact hpos

/-- A `SIGTERM` and then the first Ctrl+C: the process is terminated at the Ctrl+C. -/
theorem firstInterrupt_exits : ¬OnlySecondInterrupt [.signal .sigterm, .signal .sigint] := by
  intro h
  have hexit := (h.2 1 (by decide) rfl).mp (by decide)
  revert hexit
  decide

end WasmtimeMysql
