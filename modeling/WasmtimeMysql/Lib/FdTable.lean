import Mathlib.Data.Fintype.EquivFin
import WasmtimeMysql.Lib.Prog

/-!
# A table of descriptors with a saturating counter

A table hands out the counter's value as the descriptor of a new entry and then advances the counter, which stops at the largest
`Int32`. The table carries its invariant: every key is at least the base, and below the counter unless the counter has stopped. An
insert is therefore fresh unless the counter has stopped and the last descriptor is still in the table (`find_next_eq_none_iff`).

`FdTable.Sig` are the operations as commands, `FdTable.machine` what they do.
-/

namespace Effects

/-- A table of entries by descriptor, and the next descriptor. -/
@[ext] structure FdTable (base : Int32) (E : Type) where
  next : Int32
  find : Int32 → Option E
  base_le : base ≤ next
  key_range : ∀ fd, find fd ≠ none → base ≤ fd ∧ (fd < next ∨ next = Int32.maxValue)

/-- `saturating_add(1)` on an `i32`. -/
def satSucc (x : Int32) : Int32 := if x = Int32.maxValue then x else x + 1

theorem le_maxValue (x : Int32) : x ≤ Int32.maxValue := by
  rw [Int32.le_iff_toInt_le]
  exact Int32.toInt_le x

theorem lt_maxValue_of_ne {x : Int32} (h : x ≠ Int32.maxValue) : x < Int32.maxValue := by
  have hle := Int32.le_iff_toInt_le.mp (le_maxValue x)
  have hne : x.toInt ≠ Int32.maxValue.toInt := fun he => h (Int32.toInt_inj.mp he)
  rw [Int32.lt_iff_toInt_lt]
  omega

/-- The counter below its end moves by one. -/
theorem toInt_satSucc {x : Int32} (h : x ≠ Int32.maxValue) : (satSucc x).toInt = x.toInt + 1 := by
  have hlt := Int32.lt_iff_toInt_lt.mp (lt_maxValue_of_ne h)
  have hmax : Int32.maxValue.toInt = 2147483647 := by decide
  have hlow := x.le_toInt
  rw [satSucc, if_neg h, Int32.toInt_add]
  rw [show (1 : Int32).toInt = 1 from by decide, Int.bmod_eq_of_le] <;> omega

/-- The counter never moves back. -/
theorem le_satSucc (x : Int32) : x ≤ satSucc x := by
  by_cases h : x = Int32.maxValue
  · rw [satSucc, if_pos h]
    exact Int32.le_refl x
  · rw [Int32.le_iff_toInt_le, toInt_satSucc h]
    omega

namespace FdTable

variable {base : Int32} {E U : Type}

/-- The table at the start. -/
def empty (base : Int32) (E : Type) : FdTable base E where
  next := base
  find _ := none
  base_le := Int32.le_refl base
  key_range _ h := absurd rfl h

/-- The key of a table stays in range when the counter has moved past the new key. -/
theorem lt_satSucc_or {fd next : Int32} (h : fd < next ∨ fd = next ∨ next = Int32.maxValue) :
    fd < satSucc next ∨ satSucc next = Int32.maxValue := by
  by_cases hmax : next = Int32.maxValue
  · right
    rw [satSucc, if_pos hmax, hmax]
  · left
    have hsucc := toInt_satSucc hmax
    rw [Int32.lt_iff_toInt_lt, hsucc]
    rcases h with h | rfl | h
    · have := Int32.lt_iff_toInt_lt.mp h
      omega
    · omega
    · exact absurd h hmax

/-- A new entry under the counter's value, which is the descriptor returned. -/
def insert (t : FdTable base E) (e : E) : Int32 × FdTable base E :=
  (t.next,
    { next := satSucc t.next
      find := fun fd => if fd = t.next then some e else t.find fd
      base_le := Int32.le_trans t.base_le (le_satSucc t.next)
      key_range := by
        intro fd h
        by_cases hfd : fd = t.next
        · rw [hfd]
          exact ⟨t.base_le, lt_satSucc_or (.inr (.inl rfl))⟩
        · rw [if_neg hfd] at h
          obtain ⟨hbase, hlt⟩ := t.key_range fd h
          exact ⟨hbase, lt_satSucc_or (hlt.imp_right .inr)⟩ })

/-- The table without a descriptor. -/
def remove (t : FdTable base E) (fd : Int32) : FdTable base E where
  next := t.next
  find g := if g = fd then none else t.find g
  base_le := t.base_le
  key_range := by
    intro g h
    by_cases hg : g = fd
    · rw [if_pos hg] at h
      exact absurd rfl h
    · rw [if_neg hg] at h
      exact t.key_range g h

/-- The table with an entry changed in place. -/
def modify (t : FdTable base E) (fd : Int32) (f : E → E) : FdTable base E where
  next := t.next
  find g := if g = fd then (t.find g).map f else t.find g
  base_le := t.base_le
  key_range := by
    intro g h
    refine t.key_range g fun hnone => ?_
    rw [hnone] at h
    split at h <;> exact h rfl

section
variable (t : FdTable base E)

@[simp] theorem insert_next (e : E) : (t.insert e).2.next = satSucc t.next := rfl

@[simp] theorem find_insert (e : E) (fd : Int32) : (t.insert e).2.find fd = if fd = t.next then some e else t.find fd := rfl

@[simp] theorem remove_next (fd : Int32) : (t.remove fd).next = t.next := rfl

@[simp] theorem find_remove (fd g : Int32) : (t.remove fd).find g = if g = fd then none else t.find g := rfl

@[simp] theorem find_modify (fd g : Int32) (f : E → E) :
    (t.modify fd f).find g = if g = fd then (t.find g).map f else t.find g := rfl

variable {t} in
/-- Removing what is not there changes nothing. -/
theorem remove_of_find_none {fd : Int32} (h : t.find fd = none) : t.remove fd = t := by
  refine FdTable.ext rfl (funext fun g => ?_)
  rw [find_remove]
  split
  · rename_i hg
    rw [hg, h]
  · rfl

/-- An insert replaces an entry as if it had been removed before. -/
theorem insert_remove_next (e : E) : ((t.remove t.next).insert e).2 = (t.insert e).2 := by
  refine FdTable.ext rfl (funext fun g => ?_)
  rw [find_insert, find_insert, remove_next]
  split
  · rfl
  · rename_i hg
    rw [find_remove, if_neg hg]

/-- The next descriptor is not in the table, unless the counter has stopped and the last descriptor is. -/
theorem find_next_eq_none_iff : t.find t.next = none ↔ t.next < Int32.maxValue ∨ t.find Int32.maxValue = none := by
  constructor
  · intro h
    by_cases hmax : t.next = Int32.maxValue
    · right
      rw [← hmax]
      exact h
    · exact .inl (lt_maxValue_of_ne hmax)
  · intro h
    refine Decidable.byContradiction fun hne => ?_
    obtain ⟨-, hlt | hmax⟩ := t.key_range t.next hne
    · exact Int32.lt_irrefl hlt
    · rcases h with h | h
      · rw [hmax] at h
        exact Int32.lt_irrefl h
      · rw [hmax] at hne
        exact hne h

end

/-! ## Draining a table -/

/-- The entries of the table with their descriptors, each once, in any order. -/
def Drains (t : FdTable base E) (entries : List (Int32 × E)) : Prop :=
  (entries.map Prod.fst).Nodup ∧ ∀ fd e, (fd, e) ∈ entries ↔ t.find fd = some e

/-- A table has a list of its entries. -/
theorem exists_drains (t : FdTable base E) : ∃ entries, t.Drains entries := by
  have hinj : Function.Injective fun fd : Int32 => fd.toBitVec.toFin := by
    intro fd fd' h
    exact Int32.toBitVec_inj.mp (BitVec.toFin_inj.mp h)
  have := Finite.of_injective _ hinj
  have := Fintype.ofFinite Int32
  let entry (fd : Int32) : Option (Int32 × E) := (t.find fd).map (Prod.mk fd)
  have hentry (fd fd' : Int32) (e : E) : entry fd = some (fd', e) ↔ fd = fd' ∧ t.find fd' = some e := by
    rw [Option.map_eq_some_iff]
    constructor
    · rintro ⟨e', hfind, heq⟩
      cases heq
      exact ⟨rfl, hfind⟩
    · rintro ⟨rfl, hfind⟩
      exact ⟨e, hfind, rfl⟩
  refine ⟨Finset.univ.toList.filterMap entry, ?_, ?_⟩
  · refine List.Nodup.map_on ?_ (List.Nodup.filterMap ?_ (Finset.nodup_toList _))
    · rintro ⟨fd, e⟩ h ⟨fd', e'⟩ h' heq
      obtain ⟨x, -, hx⟩ := List.mem_filterMap.mp h
      obtain ⟨x', -, hx'⟩ := List.mem_filterMap.mp h'
      cases (show fd = fd' from heq)
      have hfind := ((hentry _ _ _).mp hx).2
      have hfind' := ((hentry _ _ _).mp hx').2
      rw [Option.some.inj (hfind.symm.trans hfind')]
    · rintro fd fd' ⟨x, e⟩ h h'
      exact ((hentry _ _ _).mp h).1.trans ((hentry _ _ _).mp h').1.symm
  · intro fd e
    rw [List.mem_filterMap]
    constructor
    · rintro ⟨x, -, hx⟩
      exact ((hentry _ _ _).mp hx).2
    · intro hfind
      exact ⟨fd, Finset.mem_toList.mpr (Finset.mem_univ fd), (hentry _ _ _).mpr ⟨rfl, hfind⟩⟩

/-! ## The operations as commands -/

/-- The operations on a table; `U` are the changes that an entry may get in place. An insert answers the descriptor and the entry it
replaced. -/
inductive Cmd (E U : Type) where
  | insert (e : E)
  | get (fd : Int32)
  | remove (fd : Int32)
  | modify (fd : Int32) (u : U)

/-- The answer to each operation. -/
@[reducible] def Cmd.Resp : Cmd E U → Type
  | .insert _ => Int32 × Option E
  | .get _ => Option E
  | .remove _ => Option E
  | .modify .. => Option Unit

/-- The signature of a table. -/
@[reducible] def Sig (E U : Type) : Effects.Sig := ⟨Cmd E U, Cmd.Resp⟩

/-- What an operation answers and leaves. -/
def handle (apply : U → E → E) (t : FdTable base E) : (c : Cmd E U) → c.Resp × FdTable base E
  | .insert e => ((t.next, t.find t.next), (t.insert e).2)
  | .get fd => (t.find fd, t)
  | .remove fd => (t.find fd, t.remove fd)
  | .modify fd u => ((t.find fd).map fun _ => (), t.modify fd (apply u))

/-- The machine of a table. -/
def machine (base : Int32) (apply : U → E → E) : Machine (Sig E U) (FdTable base E) :=
  .det (handle apply)

end FdTable

end Effects
