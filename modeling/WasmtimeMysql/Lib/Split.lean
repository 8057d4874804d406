/-!
# Splitting a list at separators

What the pieces of `List.splitOnP` and `List.splitOn` look like: no separator occurs in a piece, and a piece is a part of the
list.
-/

namespace Split

variable {α : Type}

/-- No piece holds a separator. -/
theorem sep_of_mem_splitOnP {p : α → Bool} {xs piece : List α} (h : piece ∈ xs.splitOnP p) : ∀ x ∈ piece, p x = false := by
  induction xs generalizing piece with
  | nil =>
    rw [List.splitOnP_nil, List.mem_singleton] at h
    subst h
    simp
  | cons a xs ih =>
    rw [List.splitOnP_cons_eq_if_modifyHead] at h
    cases ha : p a with
    | true =>
      rw [ha, if_pos rfl] at h
      rcases List.mem_cons.mp h with rfl | h
      · simp
      · exact ih h
    | false =>
      rw [ha, if_neg (by simp)] at h
      obtain ⟨q, qs, hq⟩ := List.exists_cons_of_ne_nil (List.splitOnP_ne_nil p xs)
      rw [hq, List.modifyHead_cons] at h
      rcases List.mem_cons.mp h with rfl | h
      · intro x hx
        rcases List.mem_cons.mp hx with rfl | hx
        · exact ha
        · exact ih (by rw [hq]; exact List.mem_cons_self) x hx
      · exact ih (by rw [hq]; exact List.mem_cons_of_mem _ h)

/-- The first piece is how the list starts. -/
theorem prefix_of_splitOnP {p : α → Bool} {xs q : List α} {qs : List (List α)} (h : xs.splitOnP p = q :: qs) : q <+: xs := by
  induction xs generalizing q qs with
  | nil =>
    rw [List.splitOnP_nil] at h
    cases h
    exact List.nil_prefix
  | cons a xs ih =>
    rw [List.splitOnP_cons_eq_if_modifyHead] at h
    split at h
    · cases h
      exact List.nil_prefix
    · obtain ⟨q', qs', hq⟩ := List.exists_cons_of_ne_nil (List.splitOnP_ne_nil p xs)
      rw [hq, List.modifyHead_cons] at h
      cases h
      exact List.cons_prefix_cons.mpr ⟨rfl, ih hq⟩

/-- Every piece is a part of the list. -/
theorem infix_of_mem_splitOnP {p : α → Bool} {xs piece : List α} (h : piece ∈ xs.splitOnP p) : piece <:+: xs := by
  induction xs with
  | nil =>
    rw [List.splitOnP_nil, List.mem_singleton] at h
    exact h ▸ List.nil_infix
  | cons a xs ih =>
    obtain ⟨q, qs, hq⟩ := List.exists_cons_of_ne_nil (List.splitOnP_ne_nil p xs)
    rw [List.splitOnP_cons_eq_if_modifyHead] at h
    split at h
    · rcases List.mem_cons.mp h with rfl | h
      · exact List.nil_infix
      · exact List.infix_cons (ih h)
    · rw [hq, List.modifyHead_cons] at h
      rcases List.mem_cons.mp h with rfl | h
      · exact (List.cons_prefix_cons.mpr ⟨rfl, prefix_of_splitOnP hq⟩).isInfix
      · exact List.infix_cons (ih (by rw [hq]; exact List.mem_cons_of_mem _ h))

variable [BEq α] [LawfulBEq α]

/-- No piece holds the separator. -/
theorem notMem_of_mem_splitOn {a : α} {xs piece : List α} (h : piece ∈ xs.splitOn a) : a ∉ piece := by
  rw [List.splitOn_eq_splitOnP] at h
  intro ha
  have := sep_of_mem_splitOnP h a ha
  simp at this

theorem splitOn_cons_self {a : α} (xs : List α) : (a :: xs).splitOn a = [] :: xs.splitOn a := by
  rw [List.splitOn_cons_eq_if_modifyHead, if_pos (beq_self_eq_true a)]

end Split
