import Mathlib.Data.List.Basic

/-!
# The first match in a sorted list

A list sorted by a key, largest first and stably. The first element that satisfies a test is the earliest given one among those with the
largest key that do (`find?_sortDesc`), so the order in which a list was given matters only between elements of one key
(`exists_perm_find?`).
-/

namespace StableSort

variable {α : Type}

/-- The list with the largest keys first; elements of one key keep their order. -/
def sortDesc (key : α → Nat) (l : List α) : List α := l.mergeSort fun x y => decide (key y ≤ key x)

section
variable {key : α → Nat} {p : α → Bool} {l : List α}

theorem perm_sortDesc (key : α → Nat) (l : List α) : (sortDesc key l).Perm l := List.mergeSort_perm l _

theorem mem_sortDesc {x : α} : x ∈ sortDesc key l ↔ x ∈ l := (perm_sortDesc key l).mem_iff

theorem trans_key (key : α → Nat) (x y z : α) (hxy : decide (key y ≤ key x) = true) (hyz : decide (key z ≤ key y) = true) :
    decide (key z ≤ key x) = true := by
  rw [decide_eq_true_eq] at hxy hyz ⊢
  exact Nat.le_trans hyz hxy

theorem total_key (key : α → Nat) (x y : α) : (decide (key y ≤ key x) || decide (key x ≤ key y)) = true := by
  rw [Bool.or_eq_true, decide_eq_true_eq, decide_eq_true_eq]
  exact Nat.le_total _ _

theorem pairwise_sortDesc (key : α → Nat) (l : List α) : (sortDesc key l).Pairwise fun x y => key y ≤ key x := by
  have h := List.pairwise_mergeSort (trans_key key) (total_key key) l
  exact h.imp fun hle => of_decide_eq_true hle

/-- The elements of one key keep their order. -/
theorem filter_sortDesc {k : Nat} (hp : ∀ x ∈ l, p x = true → key x = k) : (sortDesc key l).filter p = l.filter p := by
  have hsame : (l.filter p).Pairwise fun x y => decide (key y ≤ key x) = true := by
    refine List.pairwise_of_forall_mem_list fun x hx y hy => ?_
    obtain ⟨hx, hpx⟩ := List.mem_filter.mp hx
    obtain ⟨hy, hpy⟩ := List.mem_filter.mp hy
    have hkey : key y = key x := (hp y hy hpy).trans (hp x hx hpx).symm
    exact decide_eq_true (Nat.le_of_eq hkey)
  have hsub : (l.filter p).Sublist (sortDesc key l) := List.sublist_mergeSort (trans_key key) (total_key key) hsame List.filter_sublist
  have hfilter : ((l.filter p).filter p).Sublist ((sortDesc key l).filter p) := hsub.filter p
  simp only [List.filter_filter, Bool.and_self] at hfilter
  have hlength : (l.filter p).length = ((sortDesc key l).filter p).length := ((perm_sortDesc key l).filter p).length_eq.symm
  exact (hfilter.eq_of_length hlength).symm

/-- The first match is the earliest given one with the largest key. -/
theorem find?_sortDesc {before after : List α} {x : α} (hx : p x) (hbefore : ∀ y ∈ before, p y → key y < key x)
    (hafter : ∀ y ∈ after, p y → key y ≤ key x) : (sortDesc key (before ++ x :: after)).find? p = some x := by
  have hmem : x ∈ sortDesc key (before ++ x :: after) := mem_sortDesc.mpr (List.mem_append_right _ List.mem_cons_self)
  have hmax (y : α) (hy : y ∈ before ++ x :: after) (hpy : p y) : key y ≤ key x := by
    rcases List.mem_append.mp hy with hy | hy
    · exact Nat.le_of_lt (hbefore y hy hpy)
    · rcases List.mem_cons.mp hy with rfl | hy
      · exact Nat.le_refl _
      · exact hafter y hy hpy
  -- among the elements with the key of `x` the sort changes nothing
  have htop : (sortDesc key (before ++ x :: after)).find? (fun y => p y && decide (key y = key x)) = some x := by
    rw [← List.head?_filter, filter_sortDesc (k := key x) (fun y _ hy => of_decide_eq_true (Bool.and_eq_true_iff.mp hy).2),
      List.head?_filter, List.find?_append, List.find?_cons_of_pos (by simp [hx])]
    have hnone : before.find? (fun y => p y && decide (key y = key x)) = none := by
      rw [List.find?_eq_none]
      intro y hy hkey
      obtain ⟨hpy, hkey⟩ := Bool.and_eq_true_iff.mp hkey
      exact absurd (of_decide_eq_true hkey) (Nat.ne_of_lt (hbefore y hy hpy))
    rw [hnone, Option.none_or]
  -- and the first match has that key
  cases hfind : (sortDesc key (before ++ x :: after)).find? p with
  | none => exact absurd hx (by simpa using List.find?_eq_none.mp hfind x hmem)
  | some y =>
    obtain ⟨hpy, as, bs, hsplit, has⟩ := List.find?_eq_some_iff_append.mp hfind
    have hy : y ∈ before ++ x :: after := mem_sortDesc.mp (by rw [hsplit]; exact List.mem_append_right _ List.mem_cons_self)
    have hkey : key x ≤ key y := by
      have hsorted := pairwise_sortDesc key (before ++ x :: after)
      rw [hsplit, List.pairwise_append, List.pairwise_cons] at hsorted
      rw [hsplit] at hmem
      rcases List.mem_append.mp hmem with hmem | hmem
      · exact absurd hx (by simpa using has x hmem)
      · rcases List.mem_cons.mp hmem with rfl | hmem
        · exact Nat.le_refl _
        · exact hsorted.2.1.1 x hmem
    have hboth : (sortDesc key (before ++ x :: after)).find? (fun y => p y && decide (key y = key x)) = some y := by
      rw [hsplit, List.find?_append, List.find?_cons_of_pos (by simp [hpy, Nat.le_antisymm (hmax y hy hpy) hkey])]
      have hnone : as.find? (fun y => p y && decide (key y = key x)) = none := by
        rw [List.find?_eq_none]
        intro z hz hkey
        have hpz := has z hz
        simp [(Bool.and_eq_true_iff.mp hkey).1] at hpz
      rw [hnone, Option.none_or]
    exact hboth.symm.trans htop

theorem find?_sortDesc_cons {x : α} (hx : p x) (h : ∀ y ∈ l, p y → key y ≤ key x) : (sortDesc key (x :: l)).find? p = some x := by
  have hbefore : ∀ y ∈ ([] : List α), p y → key y < key x := by simp
  exact find?_sortDesc hx hbefore h

/-- An element that satisfies a test and has the largest key among those that do, the earliest of these. -/
theorem exists_earliest_max (key : α → Nat) {x₀ : α} (hx₀ : x₀ ∈ l) (hp : p x₀) :
    ∃ before x after, l = before ++ x :: after ∧ p x ∧ (∀ y ∈ before, p y → key y < key x) ∧ ∀ y ∈ after, p y → key y ≤ key x := by
  induction l generalizing x₀ with
  | nil => cases hx₀
  | cons z l ih =>
    -- `z` comes first, unless a later one has a larger key
    by_cases hlater : ∃ y ∈ l, p y ∧ (p z → key z < key y)
    · obtain ⟨y, hy, hpy, hlt⟩ := hlater
      obtain ⟨before, x, after, rfl, hpx, hbefore, hafter⟩ := ih hy hpy
      refine ⟨z :: before, x, after, rfl, hpx, ?_, hafter⟩
      intro w hw hpw
      rcases List.mem_cons.mp hw with rfl | hw
      · have hkey := hlt hpw
        have hle : key y ≤ key x := by
          rcases List.mem_append.mp hy with hy | hy
          · exact Nat.le_of_lt (hbefore y hy hpy)
          · rcases List.mem_cons.mp hy with rfl | hy
            · exact Nat.le_refl _
            · exact hafter y hy hpy
        omega
      · exact hbefore w hw hpw
    · have hz : p z := by
        refine Decidable.byContradiction fun hz => ?_
        rcases List.mem_cons.mp hx₀ with rfl | hx₀
        · exact hz hp
        · exact hlater ⟨x₀, hx₀, hp, fun h => absurd h hz⟩
      refine ⟨[], z, l, rfl, hz, by simp, ?_⟩
      intro y hy hpy
      refine Nat.le_of_not_lt fun hlt => ?_
      exact hlater ⟨y, hy, hpy, fun _ => hlt⟩

/-- The first match has the largest key among the matches. -/
theorem find?_sortDesc_max {x : α} (h : (sortDesc key l).find? p = some x) :
    x ∈ l ∧ p x ∧ ∀ y ∈ l, p y → key y ≤ key x := by
  have hx : x ∈ l := mem_sortDesc.mp (List.mem_of_find?_eq_some h)
  obtain ⟨before, z, after, rfl, hz, hbefore, hafter⟩ := exists_earliest_max key hx (List.find?_some h)
  rw [find?_sortDesc hz hbefore hafter] at h
  obtain rfl := Option.some.inj h
  refine ⟨hx, hz, ?_⟩
  intro y hy hpy
  rcases List.mem_append.mp hy with hy | hy
  · exact Nat.le_of_lt (hbefore y hy hpy)
  · rcases List.mem_cons.mp hy with rfl | hy
    · exact Nat.le_refl _
    · exact hafter y hy hpy

/-- Where only one match has the largest key, the order in which the list was given does not matter. -/
theorem find?_sortDesc_perm {l' : List α} (hperm : l'.Perm l)
    (hunique : ∀ x ∈ l, ∀ y ∈ l, p x → p y → (∀ z ∈ l, p z → key z ≤ key x) → key x = key y → x = y) :
    (sortDesc key l').find? p = (sortDesc key l).find? p := by
  cases h' : (sortDesc key l').find? p with
  | none =>
    symm
    rw [List.find?_eq_none] at h' ⊢
    intro x hx
    exact h' x (mem_sortDesc.mpr (hperm.mem_iff.mpr (mem_sortDesc.mp hx)))
  | some x =>
    obtain ⟨hx, hpx, hmax⟩ := find?_sortDesc_max h'
    replace hx := hperm.mem_iff.mp hx
    replace hmax : ∀ y ∈ l, p y → key y ≤ key x := fun y hy => hmax y (hperm.mem_iff.mpr hy)
    cases h : (sortDesc key l).find? p with
    | none => exact absurd hpx (by simpa using List.find?_eq_none.mp h x (mem_sortDesc.mpr hx))
    | some y =>
      obtain ⟨hy, hpy, hmax'⟩ := find?_sortDesc_max h
      rw [hunique x hx y hy hpx hpy hmax (Nat.le_antisymm (hmax' x hx hpx) (hmax y hy hpy))]

/-- Given in another order, any match with the largest key comes first. -/
theorem exists_perm_find? {x : α} (hx : x ∈ l) (hp : p x) (hmax : ∀ y ∈ l, p y → key y ≤ key x) :
    ∃ l', l'.Perm l ∧ (sortDesc key l').find? p = some x := by
  obtain ⟨before, after, rfl⟩ := List.append_of_mem hx
  refine ⟨x :: (before ++ after), List.perm_middle.symm, ?_⟩
  refine find?_sortDesc_cons hp ?_
  intro y hy hpy
  refine hmax y ?_ hpy
  rcases List.mem_append.mp hy with hy | hy
  · exact List.mem_append_left _ hy
  · exact List.mem_append_right _ (List.mem_cons_of_mem _ hy)

end

end StableSort
