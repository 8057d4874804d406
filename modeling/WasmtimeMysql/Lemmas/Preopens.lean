import Mathlib.Data.List.Perm.Basic
import WasmtimeMysql.Lemmas.Paths
import WasmtimeMysql.Lib.StableSort

/-!
# Which preopen a path belongs to

The loop of `resolve` compares texts: it looks for the guest path at the start of the normalized path and for a slash after it, with two
special cases for `.` and `/`. On normal paths that is a comparison of components (`preopenSuffix_normal`): a preopen covers a path when its
components are the first ones of the path, and both are absolute or both relative, or the preopen is `/`. `resolve` then takes the first
preopen in the table that covers the path (`resolveIn_normal`).
-/

namespace WasmtimeMysql

open Effects Split StableSort

/-- The text is a normal form. -/
def Normal (n : Str) : Prop := normalizeGuestPath n = .ok n

/-- A normal path is spelled by ordinary pieces, ... -/
theorem Normal.spell {n : Str} (h : Normal n) : ∃ absolute parts, (∀ c ∈ parts, Ordinary c) ∧ n = spell absolute parts := by
  obtain ⟨parts, -, hord, hn⟩ := normalizeGuestPath_ok h
  exact ⟨n.startsWithSlash, parts, hord, hn⟩

/-- ... and what they spell is normal. -/
theorem normal_spell {absolute : Bool} {parts : List Str} (h : ∀ c ∈ parts, Ordinary c) : Normal (spell absolute parts) :=
  normalizeGuestPath_spell h

/-- What `normalize_guest_path` returns is normal. -/
theorem normal_of_normalize {path n : Str} (h : normalizeGuestPath path = .ok n) : Normal n := by
  obtain ⟨parts, -, hord, rfl⟩ := normalizeGuestPath_ok h
  exact normal_spell hord

/-- The pieces of a normal path are ordinary. -/
theorem Normal.ordinary {n : Str} (h : Normal n) : ∀ c ∈ suffixParts n, Ordinary c := by
  obtain ⟨absolute, parts, hord, rfl⟩ := h.spell
  rw [suffixParts_spell hord]
  exact hord

/-- A normal path is the spelling of its components. -/
theorem Normal.eq_spell {n : Str} (h : Normal n) : n = WasmtimeMysql.spell n.startsWithSlash (suffixParts n) := by
  obtain ⟨absolute, parts, hord, rfl⟩ := h.spell
  rw [startsWithSlash_spell hord, suffixParts_spell hord]

/-- The preopen at a guest path covers a normalized path. -/
def Covers (guest n : Str) : Prop :=
  suffixParts guest <+: suffixParts n ∧ (guest.startsWithSlash = n.startsWithSlash ∨ guest = ['/'])

instance (guest n : Str) : Decidable (Covers guest n) := inferInstanceAs (Decidable (_ ∧ _))

/-! ## The text of a path and its components -/

/-- Two lists with separators between them. -/
theorem intercalate_append {sep : Str} {xs ys : List Str} (hx : xs ≠ []) (hy : ys ≠ []) :
    sep.intercalate (xs ++ ys) = sep.intercalate xs ++ sep ++ sep.intercalate ys := by
  induction xs with
  | nil => exact absurd rfl hx
  | cons x xs ih =>
    cases xs with
    | nil => rw [List.singleton_append, List.intercalate_cons_of_ne_nil hy, List.intercalate_singleton]
    | cons x' xs =>
      have hne : x' :: xs ≠ [] := List.cons_ne_nil _ _
      have hne' : x' :: xs ++ ys ≠ [] := by simp
      rw [List.cons_append, List.intercalate_cons_of_ne_nil hne', List.intercalate_cons_of_ne_nil hne, ih hne]
      simp only [List.append_assoc]

/-- More components below a path that has some come after a slash. -/
theorem spell_append {absolute : Bool} {parts rest : List Str} (hparts : parts ≠ []) (hrest : rest ≠ []) :
    spell absolute (parts ++ rest) = spell absolute parts ++ '/' :: ['/'].intercalate rest := by
  have hne : parts ++ rest ≠ [] := fun h => hparts (List.append_eq_nil_iff.mp h).1
  unfold spell
  rw [if_neg hne, if_neg hparts, intercalate_append hparts hrest]
  cases absolute <;> simp

/-- The components of a text with a slash in it are those before and those after. -/
theorem suffixParts_append_slash (guest suffix : Str) :
    suffixParts (guest ++ '/' :: suffix) = suffixParts guest ++ suffixParts suffix := by
  unfold suffixParts
  rw [List.splitOn_append_cons_self, List.filter_append]

/-- Lengths add up. -/
theorem Str.len_append (s t : Str) : Str.len (s ++ t) = s.len + t.len := by
  simp [Str.len]

/-- What is not empty has a length. -/
theorem Str.len_pos {s : Str} (h : s ≠ []) : 0 < s.len := by
  obtain ⟨c, t, rfl⟩ := List.exists_cons_of_ne_nil h
  have hc := c.utf8Size_pos
  simp only [Str.len, List.map_cons, List.sum_cons]
  omega

/-- A path with more components is longer, unless it is relative and the shorter one is `.`. -/
theorem len_spell_lt {absolute : Bool} {parts rest : List Str} (hord : ∀ c ∈ parts ++ rest, Ordinary c) (hrest : rest ≠ [])
    (h : absolute = true ∨ parts ≠ []) : (spell absolute parts).len < (spell absolute (parts ++ rest)).len := by
  by_cases hparts : parts = []
  · subst hparts
    obtain rfl := h.resolve_right fun hne => hne rfl
    have hjoined : ['/'].intercalate rest ≠ [] := fun he => hrest (intercalate_ordinary_eq_nil hord he)
    have hpos := Str.len_pos hjoined
    have hone : Str.len ['/'] = 1 := by decide
    have hroot : spell true [] = ['/'] := rfl
    have htext : spell true ([] ++ rest) = ['/'] ++ ['/'].intercalate rest := rfl
    rw [hroot, htext, Str.len_append, hone]
    omega
  · have hpos := Str.len_pos (List.cons_ne_nil '/' (['/'].intercalate rest))
    rw [spell_append hparts hrest, Str.len_append]
    omega

/-! ## The loop of `resolve` -/

/-- On normal paths the body of the loop finds out whether the preopen covers the path, and if so leaves the other components. -/
theorem preopenSuffix_normal {guest n : Str} (hg : Normal guest) (hn : Normal n) :
    (Covers guest n ∧ ∃ suffix, preopenSuffix guest n = .returned (some suffix) ∧
      suffixParts suffix = (suffixParts n).drop (suffixParts guest).length) ∨
    (¬Covers guest n ∧ preopenSuffix guest n = .returned none) := by
  unfold preopenSuffix
  split
  · -- `.` and a relative path
    rename_i hdot
    obtain ⟨rfl, hrel⟩ := hdot
    have hslash : n.startsWithSlash = false := by simpa using hrel
    exact .inl ⟨⟨List.nil_prefix, .inl hslash.symm⟩, n, rfl, rfl⟩
  · rename_i hdot
    split
    · -- `/`
      rename_i hroot
      subst hroot
      exact .inl ⟨⟨List.nil_prefix, .inr rfl⟩, _, rfl, suffixParts_below_root n⟩
    · rename_i hroot
      split
      · -- the guest path itself
        rename_i heq
        subst heq
        refine .inl ⟨⟨List.prefix_refl _, .inl rfl⟩, [], rfl, ?_⟩
        rw [List.drop_length]
        rfl
      · rename_i hne
        split
        · -- the guest path and a slash
          rename_i hcond
          obtain ⟨suffix, htext, hslice⟩ := exists_suffix_of_byte hcond.1 hcond.2
          rw [hslice]
          have hparts : suffixParts n = suffixParts guest ++ suffixParts suffix := by
            rw [htext, suffixParts_append_slash]
          have hstart : guest.startsWithSlash = n.startsWithSlash := by
            obtain ⟨a, t, rfl⟩ := List.exists_cons_of_ne_nil (show guest ≠ [] by rintro rfl; cases hg)
            rw [htext]
            rfl
          refine .inl ⟨⟨?_, .inl hstart⟩, suffix, rfl, ?_⟩
          · rw [hparts]
            exact List.prefix_append _ _
          · rw [hparts, List.drop_left]
        · rename_i hcond
          refine .inr ⟨?_, rfl⟩
          rintro ⟨⟨rest, hrest⟩, habs⟩
          have habs := habs.resolve_right hroot
          have hguest := hg.eq_spell
          have htext := hn.eq_spell
          rw [← hrest, ← habs] at htext
          by_cases hnil : rest = []
          · subst hnil
            rw [List.append_nil, ← hguest] at htext
            exact hne htext
          · by_cases hparts : suffixParts guest = []
            · -- a guest path without components is `.` or `/`
              rw [hparts] at hguest
              cases hstart : guest.startsWithSlash with
              | true =>
                rw [hstart] at hguest
                exact hroot hguest
              | false =>
                rw [hstart] at hguest habs
                exact hdot ⟨hguest, by simp [← habs]⟩
            · rw [spell_append hparts hnil, ← hguest] at htext
              refine hcond ⟨?_, ?_⟩
              · rw [htext]
                exact List.prefix_append _ _
              · rw [htext]
                exact byte_of_append _ _

section
variable {os : PathOs}

/-- The host path of a normalized path below a preopen: the components that the preopen does not have are pushed one by one. -/
def below (os : PathOs) (pre : PreopenMapping os.Path) (n : Str) : os.Path :=
  ((suffixParts n).drop (suffixParts pre.guest).length).foldl os.push pre.host

/-- What `resolve` makes of the preopen it finds. -/
def resolved (os : PathOs) (n : Str) : Option (PreopenMapping os.Path) → Outcome (Except Errno os.Path)
  | none => .returned (.error .enotcapable)
  | some pre => .returned (.ok (below os pre n))

/-- The loop of `resolve` takes the first preopen that covers the path. -/
theorem resolveIn_normal {n : Str} (hn : Normal n) {preopens : List (PreopenMapping os.Path)}
    (hpre : ∀ pre ∈ preopens, Normal pre.guest) :
    resolveIn os n preopens = resolved os n (preopens.find? fun pre => decide (Covers pre.guest n)) := by
  induction preopens with
  | nil => rfl
  | cons pre rest ih =>
    rw [resolveIn]
    rcases preopenSuffix_normal (hpre pre List.mem_cons_self) hn with ⟨hcovers, suffix, hs, hparts⟩ | ⟨hnot, hs⟩
    · rw [hs, List.find?_cons_of_pos (by simpa using hcovers)]
      simp only [resolved, below]
      rw [joinSuffix_eq_foldl, hparts]
    · rw [hs, List.find?_cons_of_neg (by simpa using hnot)]
      exact ih fun q hq => hpre q (List.mem_cons_of_mem _ hq)

/-! ## `HostFiles::new` -/

/-- The preopen that `HostFiles::new` adds by itself. -/
def defaultPreopens (os : PathOs) (cli : Cli) (currentDir : Except IoError HostDir) : Except IoError (List (PreopenMapping os.Path)) :=
  if cli.noDefaultPreopen then pure []
  else do
    let host ← currentDir
    pure [{ guest := (normalizeGuestPath ['.']).toOption.getD ['.'], host := os.ofStr host.text }]

/-- The preopens of `HostFiles::new` before they are sorted. -/
def givenPreopens (os : PathOs) (cli : Cli) (currentDir : Except IoError HostDir) : Except IoError (List (PreopenMapping os.Path)) := do
  let default ← defaultPreopens os cli currentDir
  let preopens ← cli.preopens.mapM (mapPreopen os)
  return default ++ preopens

/-- The length by which they are sorted. -/
def guestLen (pre : PreopenMapping os.Path) : Nat := pre.guest.len

/-- The preopens are sorted once all are given. -/
theorem newPreopens_eq (os : PathOs) (cli : Cli) (currentDir : Except IoError HostDir) :
    newPreopens os cli currentDir = (givenPreopens os cli currentDir).map (sortDesc guestLen) := by
  unfold newPreopens givenPreopens defaultPreopens
  cases cli.noDefaultPreopen with
  | true => cases cli.preopens.mapM (mapPreopen os) <;> rfl
  | false =>
    cases currentDir with
    | error err => rfl
    | ok dir => cases cli.preopens.mapM (mapPreopen os) <;> rfl

/-- If there are preopens, they are the given ones in order. -/
theorem newPreopens_ok {cli : Cli} {currentDir : Except IoError HostDir} {preopens : List (PreopenMapping os.Path)}
    (h : newPreopens os cli currentDir = .ok preopens) :
    ∃ given, givenPreopens os cli currentDir = .ok given ∧ preopens = sortDesc guestLen given := by
  rw [newPreopens_eq] at h
  cases hgiven : givenPreopens os cli currentDir with
  | error err => rw [hgiven] at h; cases h
  | ok given =>
    rw [hgiven] at h
    exact ⟨given, rfl, (Except.ok.inj h).symm⟩

/-- The flags and their preopens, one by one. -/
theorem mapM_mapPreopen_iff {flags : List Preopen} {mapped : List (PreopenMapping os.Path)} :
    flags.mapM (mapPreopen os) = .ok mapped ↔ List.Forall₂ (fun p pre => mapPreopen os p = .ok pre) flags mapped := by
  induction flags generalizing mapped with
  | nil =>
    rw [List.mapM_nil, List.forall₂_nil_left_iff]
    exact ⟨fun h => (Except.ok.inj h).symm, fun h => h ▸ rfl⟩
  | cons p flags ih =>
    rw [List.mapM_cons, List.forall₂_cons_left_iff]
    constructor
    · intro h
      cases hp : mapPreopen os p with
      | error err => rw [hp] at h; cases h
      | ok pre =>
        cases hrest : flags.mapM (mapPreopen os) with
        | error err => rw [hp, hrest] at h; cases h
        | ok rest =>
          rw [hp, hrest] at h
          exact ⟨pre, rest, rfl, ih.mp hrest, (Except.ok.inj h).symm⟩
    · rintro ⟨pre, rest, hp, hrest, rfl⟩
      rw [hp, ih.mpr hrest]
      rfl

/-- What is given: the default preopen, then the flags. -/
theorem givenPreopens_ok_iff {cli : Cli} {currentDir : Except IoError HostDir} {given : List (PreopenMapping os.Path)} :
    givenPreopens os cli currentDir = .ok given ↔ ∃ default mapped, given = default ++ mapped ∧
      defaultPreopens os cli currentDir = .ok default ∧
      List.Forall₂ (fun p pre => mapPreopen os p = .ok pre) cli.preopens mapped := by
  unfold givenPreopens
  constructor
  · intro h
    cases hdefault : defaultPreopens os cli currentDir with
    | error err => rw [hdefault] at h; cases h
    | ok default =>
      cases hmapped : cli.preopens.mapM (mapPreopen os) with
      | error err => rw [hdefault, hmapped] at h; cases h
      | ok mapped =>
        rw [hdefault, hmapped] at h
        exact ⟨default, mapped, (Except.ok.inj h).symm, rfl, mapM_mapPreopen_iff.mp hmapped⟩
  · rintro ⟨default, mapped, rfl, hdefault, hmapped⟩
    rw [hdefault, mapM_mapPreopen_iff.mpr hmapped]
    rfl

/-- The default preopen is at `.`; without it there is none. -/
theorem defaultPreopens_cases {cli : Cli} {currentDir : Except IoError HostDir} {default : List (PreopenMapping os.Path)}
    (h : defaultPreopens os cli currentDir = .ok default) :
    (cli.noDefaultPreopen = true ∧ default = []) ∨ (cli.noDefaultPreopen = false ∧ ∃ pre, default = [pre] ∧ pre.guest = ['.']) := by
  unfold defaultPreopens at h
  cases hflag : cli.noDefaultPreopen with
  | true =>
    rw [hflag] at h
    exact .inl ⟨rfl, (Except.ok.inj h).symm⟩
  | false =>
    rw [hflag] at h
    cases hdir : currentDir with
    | error err => rw [hdir] at h; cases h
    | ok dir =>
      rw [hdir] at h
      exact .inr ⟨rfl, _, (Except.ok.inj h).symm, rfl⟩

/-- The guest path of a preopen is the normal form of the flag's. -/
theorem guest_of_mapPreopen {p : Preopen} {pre : PreopenMapping os.Path} (h : mapPreopen os p = .ok pre) :
    normalizeGuestPath p.guest = .ok pre.guest := by
  unfold mapPreopen at h
  split at h
  · rename_i guest hguest
    cases h
    exact hguest
  · cases h

/-- The guest paths of the preopens are the normal forms of those of the flags. -/
theorem guests_of_mapped {flags : List Preopen} {mapped : List (PreopenMapping os.Path)}
    (h : List.Forall₂ (fun p pre => mapPreopen os p = .ok pre) flags mapped) :
    flags.map (fun p => normalizeGuestPath p.guest) = (mapped.map fun pre => pre.guest).map .ok := by
  induction h with
  | nil => rfl
  | cons hp _ ih => rw [List.map_cons, List.map_cons, List.map_cons, guest_of_mapPreopen hp, ih]

/-- Every guest path of the table is a normal form. -/
theorem normal_of_mem_given {cli : Cli} {currentDir : Except IoError HostDir} {given : List (PreopenMapping os.Path)}
    (h : givenPreopens os cli currentDir = .ok given) : ∀ pre ∈ given, Normal pre.guest := by
  obtain ⟨default, mapped, rfl, hdefault, hmapped⟩ := givenPreopens_ok_iff.mp h
  intro pre hpre
  rcases List.mem_append.mp hpre with hpre | hpre
  · rcases defaultPreopens_cases hdefault with ⟨-, rfl⟩ | ⟨-, q, rfl, hguest⟩
    · cases hpre
    · rw [List.mem_singleton.mp hpre, hguest]
      rfl
  · have hguest : Except.ok pre.guest ∈ cli.preopens.map fun p => normalizeGuestPath p.guest := by
      rw [guests_of_mapped hmapped]
      exact List.mem_map_of_mem (List.mem_map_of_mem hpre)
    obtain ⟨p, -, hp⟩ := List.mem_map.mp hguest
    exact normal_of_normalize hp

/-- `resolve` over the sorted table takes the first preopen that covers the normalized path. -/
theorem resolve_sorted {given : List (PreopenMapping os.Path)} (hgiven : ∀ pre ∈ given, Normal pre.guest) {path n : Str}
    (hn : normalizeGuestPath path = .ok n) :
    resolve os (sortDesc guestLen given) path =
      resolved os n ((sortDesc guestLen given).find? fun pre => decide (Covers pre.guest n)) := by
  rw [resolve, hn]
  exact resolveIn_normal (normal_of_normalize hn) fun pre hpre => hgiven pre (mem_sortDesc.mp hpre)

end

end WasmtimeMysql
