import Mathlib.Data.List.Basic

/-!
# Names that are defined once

A linker maps names to what is defined for them. A name is defined once: to define it again fails. `Linkers` are linkers as they are used, and
`Linkers.Lawful` says that they are such maps. `Linkers.defineAll` defines several names in their order. `Linkers.assoc` are linkers that are
lists.
-/

variable {K V : Type}

/-- Linkers: an empty one, what is defined for a name, and one more name. -/
structure Linkers (K V : Type) where
  Linker : Type
  new : Linker
  get : Linker → K → Option V
  define : Linker → K → V → Option Linker

namespace Linkers

variable {N : Linkers K V} {L L' : N.Linker} {name k : K} {value v : V}

/-- Defines the names of a list, as long as none is defined. -/
def defineAll (N : Linkers K V) (L : N.Linker) : List (K × V) → Option N.Linker
  | [] => some L
  | (name, value) :: rest => (N.define L name value).bind fun L => N.defineAll L rest

theorem defineAll_append (L : N.Linker) (xs ys : List (K × V)) :
    N.defineAll L (xs ++ ys) = (N.defineAll L xs).bind fun L => N.defineAll L ys := by
  induction xs generalizing L with
  | nil => rfl
  | cons x xs ih =>
    obtain ⟨name, value⟩ := x
    simp only [List.cons_append, defineAll]
    cases N.define L name value with
    | none => rfl
    | some L => exact ih L

variable [DecidableEq K]

/-- A name is defined once, and then has what it was defined as. -/
structure Lawful (N : Linkers K V) : Prop where
  get_new : ∀ k, N.get N.new k = none
  define_eq_none : ∀ {L name value}, N.define L name value = none ↔ N.get L name ≠ none
  get_define : ∀ {L L' name value}, N.define L name value = some L' → ∀ k, N.get L' k = if k = name then some value else N.get L k

namespace Lawful

variable (hN : N.Lawful)

include hN

/-- A name that is defined was not. -/
theorem get_of_define (h : N.define L name value = some L') : N.get L name = none := by
  by_contra hget
  rw [hN.define_eq_none.mpr hget] at h
  cases h

/-- A name that is not defined can be. -/
theorem exists_define (h : N.get L name = none) (value : V) : ∃ L', N.define L name value = some L' := by
  cases hdef : N.define L name value with
  | none => exact absurd h (hN.define_eq_none.mp hdef)
  | some L' => exact ⟨L', rfl⟩

/-- What is defined stays. -/
theorem get_define_of_some (h : N.define L name value = some L') (hk : N.get L k = some v) : N.get L' k = some v := by
  have hne : k ≠ name := by
    rintro rfl
    rw [hN.get_of_define h] at hk
    cases hk
  rw [hN.get_define h, if_neg hne, hk]

/-- What is defined stays when a list is defined. -/
theorem get_defineAll_of_some {xs : List (K × V)} (h : N.defineAll L xs = some L') (hk : N.get L k = some v) : N.get L' k = some v := by
  induction xs generalizing L with
  | nil =>
    cases h
    exact hk
  | cons x xs ih =>
    obtain ⟨L₁, h₁, hrest⟩ := Option.bind_eq_some_iff.mp h
    exact ih hrest (hN.get_define_of_some h₁ hk)

/-- Each name of the list has what it was defined as. -/
theorem get_defineAll_of_mem {xs : List (K × V)} (h : N.defineAll L xs = some L') (hmem : (k, v) ∈ xs) : N.get L' k = some v := by
  induction xs generalizing L with
  | nil => cases hmem
  | cons x xs ih =>
    obtain ⟨L₁, h₁, hrest⟩ := Option.bind_eq_some_iff.mp h
    rcases List.mem_cons.mp hmem with rfl | hmem
    · exact hN.get_defineAll_of_some hrest (by rw [hN.get_define h₁, if_pos rfl])
    · exact ih hrest hmem

/-- There is nothing else. -/
theorem of_get_defineAll {xs : List (K × V)} (h : N.defineAll L xs = some L') (hk : N.get L' k = some v) :
    N.get L k = some v ∨ (k, v) ∈ xs := by
  induction xs generalizing L with
  | nil =>
    cases h
    exact .inl hk
  | cons x xs ih =>
    obtain ⟨L₁, h₁, hrest⟩ := Option.bind_eq_some_iff.mp h
    rcases ih hrest with hk | hmem
    · rw [hN.get_define h₁] at hk
      split at hk
      · rename_i hname
        cases hk
        rw [hname]
        exact .inr List.mem_cons_self
      · exact .inl hk
    · exact .inr (List.mem_cons_of_mem x hmem)

end Lawful

/-! ## Lists -/

/-- Linkers that are lists, the latest name first. -/
@[reducible] def assoc (K V : Type) [DecidableEq K] : Linkers K V where
  Linker := List (K × V)
  new := []
  get L name := L.lookup name
  define L name value := if L.lookup name = none then some ((name, value) :: L) else none

theorem lookup_cons_eq (name k : K) (value : V) (L : List (K × V)) :
    List.lookup k ((name, value) :: L) = if k = name then some value else L.lookup k := by
  rw [List.lookup_cons]
  by_cases h : k = name
  · simp [h]
  · have hbeq : (k == name) = false := beq_eq_false_iff_ne.mpr h
    simp [h, hbeq]

theorem assoc_lawful : (assoc K V).Lawful where
  get_new _ := rfl
  define_eq_none := by simp
  get_define {L L' name value} h k := by
    simp only [Option.ite_none_right_eq_some, Option.some.injEq] at h
    rw [← h.2]
    exact lookup_cons_eq name k value L

end Linkers
