import Mathlib.Data.List.Infix
import Mathlib.Order.Basic

/-!
# A directory tree with symbolic links

A node stands at a location, which is the list of the names on the way to it from the root. The tree carries its invariant: the root is a
directory, and so is the location of the parent of every node.

A walk takes a path step by step. It follows every link it meets, the last step included, and ends at the location of a node or at one
where a directory has room for a node. What a walk does below a set of locations that links do not leave is `LinksStay.walks`.
-/

namespace Effects

/-- A step of a path. -/
inductive PathStep (Name : Type) where
  | root
  | stay
  | up
  | name (n : Name)
  deriving DecidableEq, Repr

/-- What stands at a location; a link has a path that is walked from the directory of the link. -/
inductive TreeNode (Name : Type) where
  | dir
  | file
  | link (target : List (PathStep Name))
  deriving DecidableEq, Repr

/-- A directory tree. -/
structure FileTree (Name : Type) where
  node : List Name → Option (TreeNode Name)
  root : node [] = some .dir
  parent : ∀ l n, node (l ++ [n]) ≠ none → node l = some .dir

namespace FileTree

variable {Name : Type} {t : FileTree Name} {cur l : List Name} {n : Name} {p q : List (PathStep Name)}

/-- A directory stands at the location. -/
def IsDir (t : FileTree Name) (l : List Name) : Prop := t.node l = some .dir

/-- Above a node there are only directories. -/
theorem isDir_of_append {below : List Name} (hbelow : below ≠ []) (h : t.node (l ++ below) ≠ none) : t.IsDir l := by
  induction below generalizing l with
  | nil => exact absurd rfl hbelow
  | cons n below ih =>
    by_cases hnil : below = []
    · rw [hnil] at h
      exact t.parent l n h
    · rw [← List.singleton_append, ← List.append_assoc] at h
      have hdir := ih hnil h
      refine t.parent l n ?_
      rw [hdir]
      exact nofun

theorem IsDir.of_prefix (h : t.IsDir l) (hcur : cur <+: l) : t.IsDir cur := by
  obtain ⟨below, rfl⟩ := hcur
  by_cases hnil : below = []
  · rwa [hnil, List.append_nil] at h
  · refine isDir_of_append hnil ?_
    rw [h]
    exact nofun

/-- A path walked from a directory, and where it ends. -/
inductive Walks (t : FileTree Name) : List Name → List (PathStep Name) → List Name → Prop where
  | here (cur : List Name) : Walks t cur [] cur
  | root {cur l : List Name} {p : List (PathStep Name)} : Walks t [] p l → Walks t cur (.root :: p) l
  | stay {cur l : List Name} {p : List (PathStep Name)} : Walks t cur p l → Walks t cur (.stay :: p) l
  | up {cur l : List Name} {p : List (PathStep Name)} : Walks t cur.dropLast p l → Walks t cur (.up :: p) l
  | into {cur l : List Name} {n : Name} {p : List (PathStep Name)} :
      t.node (cur ++ [n]) = some .dir → Walks t (cur ++ [n]) p l → Walks t cur (.name n :: p) l
  | file {cur : List Name} {n : Name} : t.node (cur ++ [n]) = some .file → Walks t cur [.name n] (cur ++ [n])
  | link {cur l : List Name} {n : Name} {p target : List (PathStep Name)} :
      t.node (cur ++ [n]) = some (.link target) → Walks t cur (target ++ p) l → Walks t cur (.name n :: p) l
  /-- There is room for a node. -/
  | missing {cur : List Name} {n : Name} : t.IsDir cur → t.node (cur ++ [n]) = none → Walks t cur [.name n] (cur ++ [n])

/-- A walk goes on from the directory where its first part ends. -/
theorem Walks.append {m : List Name} (h : t.Walks cur p m) (hm : t.IsDir m) (hq : t.Walks m q l) : t.Walks cur (p ++ q) l := by
  induction h with
  | here cur => exact hq
  | root _ ih => exact .root (ih hm hq)
  | stay _ ih => exact .stay (ih hm hq)
  | up _ ih => exact .up (ih hm hq)
  | into hdir _ ih => exact .into hdir (ih hm hq)
  | file hfile => exact nomatch hfile.symm.trans hm
  | link hlink _ ih =>
    have hrest := ih hm hq
    rw [List.append_assoc] at hrest
    exact .link hlink hrest
  | missing _ hnone => exact nomatch hnone.symm.trans hm

/-- The first part of a walk ends in a directory, from which the rest is walked. -/
theorem Walks.split (hcur : t.IsDir cur) (h : t.Walks cur (p ++ q) l) (hq : q ≠ []) :
    ∃ m, t.Walks cur p m ∧ t.IsDir m ∧ t.Walks m q l := by
  generalize hpq : p ++ q = steps at h
  have hstart {cur l : List Name} {steps : List (PathStep Name)} (hcur : t.IsDir cur) (hsteps : steps = q) (h : t.Walks cur steps l) :
      ∃ m, t.Walks cur [] m ∧ t.IsDir m ∧ t.Walks m q l := ⟨cur, .here cur, hcur, hsteps ▸ h⟩
  induction h generalizing p with
  | here cur => exact absurd (List.append_eq_nil_iff.mp hpq).2 hq
  | root hwalk ih =>
    rcases List.append_eq_cons_iff.mp hpq with ⟨rfl, hsteps⟩ | ⟨p', rfl, hp'⟩
    · exact hstart hcur hsteps.symm (.root hwalk)
    · obtain ⟨m, hfirst, hm, hrest⟩ := ih t.root hp'.symm
      exact ⟨m, .root hfirst, hm, hrest⟩
  | stay hwalk ih =>
    rcases List.append_eq_cons_iff.mp hpq with ⟨rfl, hsteps⟩ | ⟨p', rfl, hp'⟩
    · exact hstart hcur hsteps.symm (.stay hwalk)
    · obtain ⟨m, hfirst, hm, hrest⟩ := ih hcur hp'.symm
      exact ⟨m, .stay hfirst, hm, hrest⟩
  | up hwalk ih =>
    rcases List.append_eq_cons_iff.mp hpq with ⟨rfl, hsteps⟩ | ⟨p', rfl, hp'⟩
    · exact hstart hcur hsteps.symm (.up hwalk)
    · obtain ⟨m, hfirst, hm, hrest⟩ := ih (hcur.of_prefix (List.dropLast_prefix _)) hp'.symm
      exact ⟨m, .up hfirst, hm, hrest⟩
  | into hdir hwalk ih =>
    rcases List.append_eq_cons_iff.mp hpq with ⟨rfl, hsteps⟩ | ⟨p', rfl, hp'⟩
    · exact hstart hcur hsteps.symm (.into hdir hwalk)
    · obtain ⟨m, hfirst, hm, hrest⟩ := ih hdir hp'.symm
      exact ⟨m, .into hdir hfirst, hm, hrest⟩
  | file hfile =>
    rcases List.append_eq_cons_iff.mp hpq with ⟨rfl, hsteps⟩ | ⟨p', rfl, hp'⟩
    · exact hstart hcur hsteps.symm (.file hfile)
    · exact absurd (List.append_eq_nil_iff.mp hp'.symm).2 hq
  | link hlink hwalk ih =>
    rcases List.append_eq_cons_iff.mp hpq with ⟨rfl, hsteps⟩ | ⟨p', rfl, hp'⟩
    · exact hstart hcur hsteps.symm (.link hlink hwalk)
    · obtain ⟨m, hfirst, hm, hrest⟩ := ih hcur (by rw [List.append_assoc, hp'])
      exact ⟨m, .link hlink hfirst, hm, hrest⟩
  | missing hdir hnone =>
    rcases List.append_eq_cons_iff.mp hpq with ⟨rfl, hsteps⟩ | ⟨p', rfl, hp'⟩
    · exact hstart hcur hsteps.symm (.missing hdir hnone)
    · exact absurd (List.append_eq_nil_iff.mp hp'.symm).2 hq

/-- A path leads to one location. -/
theorem Walks.unique {l' : List Name} (h : t.Walks cur p l) (h' : t.Walks cur p l') : l = l' := by
  induction h with
  | here cur =>
    cases h'
    rfl
  | root _ ih =>
    cases h' with
    | root hwalk => exact ih hwalk
  | stay _ ih =>
    cases h' with
    | stay hwalk => exact ih hwalk
  | up _ ih =>
    cases h' with
    | up hwalk => exact ih hwalk
  | into hdir _ ih =>
    cases h' with
    | into _ hwalk => exact ih hwalk
    | file hnode => cases hdir.symm.trans hnode
    | link hnode _ => cases hdir.symm.trans hnode
    | missing _ hnode => cases hdir.symm.trans hnode
  | file hfile =>
    cases h' with
    | into hnode _ => cases hfile.symm.trans hnode
    | file _ => rfl
    | link hnode _ => cases hfile.symm.trans hnode
    | missing _ _ => rfl
  | link hlink _ ih =>
    cases h' with
    | into hnode _ => cases hlink.symm.trans hnode
    | file hnode => cases hlink.symm.trans hnode
    | link hnode hwalk =>
      cases hlink.symm.trans hnode
      exact ih hwalk
    | missing _ hnode => cases hlink.symm.trans hnode
  | missing _ hnone =>
    cases h' with
    | into hnode _ => cases hnone.symm.trans hnode
    | file _ => rfl
    | link hnode _ => cases hnone.symm.trans hnode
    | missing _ _ => rfl

/-- The names of directories are walked down. -/
theorem Walks.down {names : List Name} (hdir : t.IsDir (cur ++ names)) (h : t.Walks (cur ++ names) p l) :
    t.Walks cur (names.map .name ++ p) l := by
  induction names generalizing cur with
  | nil => rwa [List.append_nil] at h
  | cons n names ih =>
    rw [← List.singleton_append, ← List.append_assoc] at hdir h
    exact .into (hdir.of_prefix (List.prefix_append _ _)) (ih hdir h)

/-- Where a path leads at which a node is to be made anew: the last name is not followed. -/
def Places (t : FileTree Name) (cur : List Name) (p : List (PathStep Name)) (l : List Name) : Prop :=
  ∃ before n m, p = before ++ [.name n] ∧ t.Walks cur before m ∧ t.IsDir m ∧ t.node (m ++ [n]) = none ∧ l = m ++ [n]

/-- A walk ends there too. -/
theorem Places.walks (h : t.Places cur p l) : t.Walks cur p l := by
  obtain ⟨before, n, m, rfl, hwalk, hm, hnone, rfl⟩ := h
  exact hwalk.append hm (.missing hm hnone)

/-! ## Links that stay -/

/-- Every link in a directory of the set leads to a location of the set. -/
def LinksStay (t : FileTree Name) (S : List Name → Prop) : Prop :=
  ∀ cur n target l, S cur → t.node (cur ++ [n]) = some (.link target) → t.Walks cur target l → S l

/-- Then names lead from a directory of the set to a location of the set. -/
theorem LinksStay.walks {S : List Name → Prop} (h : t.LinksStay S) (hS : ∀ l n, S l → S (l ++ [n])) {names : List Name} (hcur : S cur)
    (hdir : t.IsDir cur) (hwalk : t.Walks cur (names.map .name) l) : S l := by
  induction names generalizing cur with
  | nil =>
    cases hwalk
    exact hcur
  | cons n names ih =>
    rw [List.map_cons] at hwalk
    generalize hrest : names.map PathStep.name = rest at hwalk ih
    cases hwalk with
    | into hnode hwalk => exact ih (hS cur n hcur) hnode hwalk
    | file _ => exact hS cur n hcur
    | missing _ _ => exact hS cur n hcur
    | @link _ _ _ _ target hnode hwalk =>
      by_cases hnil : rest = []
      · rw [hnil, List.append_nil] at hwalk
        exact h cur n target l hcur hnode hwalk
      · obtain ⟨m, hfirst, hm, hlast⟩ := hwalk.split hdir hnil
        exact ih (h cur n target m hcur hnode hfirst) hm hlast

/-! ## Trees by their entries -/

/-- What is found is one of the entries. -/
theorem mem_of_lookup_ne_none [DecidableEq Name] {entries : List (List Name × TreeNode Name)} (h : entries.lookup l ≠ none) :
    ∃ node, (l, node) ∈ entries := by
  obtain ⟨node, hnode⟩ := Option.ne_none_iff_exists'.mp h
  obtain ⟨before, after, rfl, -⟩ := List.lookup_eq_some_iff.mp hnode
  exact ⟨node, List.mem_append_right _ List.mem_cons_self⟩

/-- The tree with these nodes. -/
def ofEntries [DecidableEq Name] (entries : List (List Name × TreeNode Name)) (hroot : entries.lookup [] = some .dir)
    (hparent : ∀ x ∈ entries, x.1 = [] ∨ entries.lookup x.1.dropLast = some .dir) : FileTree Name where
  node l := entries.lookup l
  root := hroot
  parent l n hne := by
    obtain ⟨node, hmem⟩ := mem_of_lookup_ne_none hne
    rcases hparent _ hmem with hnil | hdir
    · exact absurd (List.append_eq_nil_iff.mp hnil).2 (List.cons_ne_nil n [])
    · rwa [List.dropLast_concat] at hdir

end FileTree

end Effects
