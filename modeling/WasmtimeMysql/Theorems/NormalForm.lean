import WasmtimeMysql.Lemmas.Paths

/-!
# The normal form of a guest path

`normalize_guest_path` is a loop with a stack. What it computes is said here without one: a path leads out when some first pieces of it
go up more often than down, and otherwise its normal form has the ordinary pieces that no later `..` takes away.
-/

namespace WasmtimeMysql

/-- The text has no piece that is empty, `.` or `..`, apart from the empty piece before a leading slash. `.` and `/` are the normal paths
without a component. -/
def Canonical (n : Str) : Prop :=
  n = ['.'] ∨ n = ['/'] ∨ ∀ c ∈ (if n.startsWithSlash then n.tail else n).splitOn '/', Ordinary c

namespace NormalFormAux

theorem canonical_spell {absolute : Bool} {parts : List Str} (h : ∀ c ∈ parts, Ordinary c) : Canonical (spell absolute parts) := by
  by_cases hnil : parts = []
  · subst hnil
    cases absolute with
    | true => exact .inr (.inl rfl)
    | false => exact .inl rfl
  · refine .inr (.inr ?_)
    have hsplit := List.splitOn_intercalate '/' (fun c hc => (h c hc).2.1) hnil
    rw [startsWithSlash_spell h]
    cases absolute with
    | true =>
      have htail : (spell true parts).tail = ['/'].intercalate parts := rfl
      rw [if_pos rfl, htail, hsplit]
      exact h
    | false =>
      have htext : spell false parts = ['/'].intercalate parts := by simp [spell, hnil]
      rw [if_neg Bool.false_ne_true, htext, hsplit]
      exact h

end NormalFormAux

open NormalFormAux

/-- The empty path is `ENOENT`. Any other path is `ENOTCAPABLE` exactly when it leads out, and otherwise becomes the text of its
surviving components, absolute when it is. What is returned is canonical, and its own normal form. -/
theorem normalizeGuestPath_canonical (path : Str) :
    (path = [] → normalizeGuestPath path = .error .enoent) ∧
    (path ≠ [] →
      (normalizeGuestPath path = .error .enotcapable ↔ LeadsOut (path.splitOn '/')) ∧
      (¬LeadsOut (path.splitOn '/') →
        normalizeGuestPath path = .ok (spell path.startsWithSlash (survivors (path.splitOn '/'))))) ∧
    ∀ n, normalizeGuestPath path = .ok n →
      n.startsWithSlash = path.startsWithSlash ∧ Canonical n ∧ normalizeGuestPath n = .ok n := by
  refine ⟨?_, ?_, ?_⟩
  · rintro rfl
    rfl
  · intro hpath
    rw [normalizeGuestPath_eq hpath, normalParts_eq, leadsOut_iff]
    by_cases hdebt : debt (path.splitOn '/') = 0
    · rw [if_pos hdebt]
      exact ⟨⟨nofun, fun h => absurd hdebt h⟩, fun _ => rfl⟩
    · rw [if_neg hdebt]
      exact ⟨⟨fun _ => hdebt, fun _ => rfl⟩, fun h => absurd hdebt h⟩
  · intro n hn
    obtain ⟨parts, -, hord, rfl⟩ := normalizeGuestPath_ok hn
    exact ⟨startsWithSlash_spell hord, canonical_spell hord, normalizeGuestPath_spell hord⟩

example : survivors ("/a/b/../c/./..//d".toList.splitOn '/') = ["a".toList, "d".toList] := by decide

example : normalizeGuestPath "/a/b/../c/./..//d".toList = .ok "/a/d".toList := by decide

end WasmtimeMysql
