import Mathlib.Data.List.Nodup
import WasmtimeMysql.Lemmas.Preopens
import WasmtimeMysql.Lemmas.UnixPaths

/-!
# Which preopen answers

`HostFiles::new` sorts the preopens by the bytes of their guest paths, and `resolve` takes the first one that fits. For an absolute path
that is the preopen with the most components (`resolve_longest_prefix`). A relative path may also be answered by `.` and by `/`, which are
as long as a guest path of one character, and then the order of the flags decides; `resolve_order_free_iff` says when it does not.
-/

namespace WasmtimeMysql

open Effects Split StableSort

section
variable {os : PathOs}

/-! ## Absolute paths -/

/-- The preopen is mounted above the path: its guest path is absolute, and its components are the first ones of the path. -/
def Mounts (pre : PreopenMapping os.Path) (n : Str) : Prop :=
  pre.guest.startsWithSlash = true ∧ suffixParts pre.guest <+: suffixParts n

/-- How deep a preopen is mounted. -/
def depth (pre : PreopenMapping os.Path) : Nat := (suffixParts pre.guest).length

/-- The preopen mounted deepest above the path, the earliest given one of these. -/
def MostSpecific (given : List (PreopenMapping os.Path)) (n : Str) (pre : PreopenMapping os.Path) : Prop :=
  ∃ before after, given = before ++ pre :: after ∧ Mounts pre n ∧
    (∀ q ∈ before, Mounts q n → depth q < depth pre) ∧ ∀ q ∈ after, Mounts q n → depth q ≤ depth pre

namespace SelectionAux

theorem covers_iff_mounts {pre : PreopenMapping os.Path} {n : Str} (hn : n.startsWithSlash = true) :
    Covers pre.guest n ↔ Mounts pre n := by
  constructor
  · rintro ⟨hparts, habs | hroot⟩
    · exact ⟨habs.trans hn, hparts⟩
    · refine ⟨?_, hparts⟩
      rw [hroot]
      rfl
  · rintro ⟨habs, hparts⟩
    exact ⟨hparts, .inl (habs.trans hn.symm)⟩

/-- Of two guest paths above one path that are both absolute, or both relative and not `.`, the one with fewer components is shorter. -/
theorem len_lt_of_parts {g h n : Str} (hg : Normal g) (hh : Normal h) (hgn : suffixParts g <+: suffixParts n)
    (hhn : suffixParts h <+: suffixParts n) (habs : g.startsWithSlash = h.startsWithSlash)
    (hdot : g.startsWithSlash = true ∨ suffixParts g ≠ []) (hlt : (suffixParts g).length < (suffixParts h).length) : g.len < h.len := by
  obtain ⟨rest, hrest⟩ := List.prefix_of_prefix_length_le hgn hhn (Nat.le_of_lt hlt)
  have hne : rest ≠ [] := by
    rintro rfl
    rw [List.append_nil] at hrest
    rw [hrest] at hlt
    exact Nat.lt_irrefl _ hlt
  have hord : ∀ c ∈ suffixParts g ++ rest, Ordinary c := by
    rw [hrest]
    exact hh.ordinary
  have hlen := len_spell_lt hord hne hdot
  rw [hrest, ← hg.eq_spell, habs, ← hh.eq_spell] at hlen
  exact hlen

/-- Guest paths with the same components, both absolute or both relative, are the same. -/
theorem eq_of_parts {g h n : Str} (hg : Normal g) (hh : Normal h) (hgn : suffixParts g <+: suffixParts n)
    (hhn : suffixParts h <+: suffixParts n) (habs : g.startsWithSlash = h.startsWithSlash)
    (hlen : (suffixParts g).length = (suffixParts h).length) : g = h := by
  have hparts : suffixParts g = suffixParts h := (List.prefix_of_prefix_length_le hgn hhn hlen.le).eq_of_length hlen
  rw [hg.eq_spell, hh.eq_spell, habs, hparts]

theorem len_lt_of_depth {p q : PreopenMapping os.Path} {n : Str} (hp : Normal p.guest) (hq : Normal q.guest) (hpn : Mounts p n)
    (hqn : Mounts q n) (hlt : depth p < depth q) : p.guest.len < q.guest.len :=
  len_lt_of_parts hp hq hpn.2 hqn.2 (hpn.1.trans hqn.1.symm) (.inl hpn.1) hlt

theorem len_le_of_depth {p q : PreopenMapping os.Path} {n : Str} (hp : Normal p.guest) (hq : Normal q.guest) (hpn : Mounts p n)
    (hqn : Mounts q n) (hle : depth p ≤ depth q) : p.guest.len ≤ q.guest.len := by
  rcases Nat.lt_or_eq_of_le hle with hlt | heq
  · exact Nat.le_of_lt (len_lt_of_depth hp hq hpn hqn hlt)
  · rw [eq_of_parts hp hq hpn.2 hqn.2 (hpn.1.trans hqn.1.symm) heq]

/-- The first preopen of the sorted table that covers an absolute path is the most specific one. -/
theorem find?_mostSpecific {given : List (PreopenMapping os.Path)} {n : Str} {pre : PreopenMapping os.Path}
    (hgiven : ∀ q ∈ given, Normal q.guest) (hn : n.startsWithSlash = true) (h : MostSpecific given n pre) :
    (sortDesc guestLen given).find? (fun q => decide (Covers q.guest n)) = some pre := by
  obtain ⟨before, after, rfl, hpre, hbefore, hafter⟩ := h
  have hnormal : Normal pre.guest := hgiven pre (List.mem_append_right _ List.mem_cons_self)
  refine find?_sortDesc (by simpa using (covers_iff_mounts hn).mpr hpre) ?_ ?_
  · intro q hq hcov
    have hmounts := (covers_iff_mounts hn).mp (of_decide_eq_true hcov)
    exact len_lt_of_depth (hgiven q (List.mem_append_left _ hq)) hnormal hmounts hpre (hbefore q hq hmounts)
  · intro q hq hcov
    have hmounts := (covers_iff_mounts hn).mp (of_decide_eq_true hcov)
    have hnormal' := hgiven q (List.mem_append_right _ (List.mem_cons_of_mem _ hq))
    exact len_le_of_depth hnormal' hnormal hmounts hpre (hafter q hq hmounts)

/-- Some preopen above the path is mounted deepest. -/
theorem exists_mostSpecific {given : List (PreopenMapping os.Path)} {n : Str} {pre : PreopenMapping os.Path} (hpre : pre ∈ given)
    (h : Mounts pre n) : ∃ q, MostSpecific given n q := by
  classical
  obtain ⟨before, q, after, hsplit, hq, hbefore, hafter⟩ :=
    exists_earliest_max depth (p := fun q => decide (Mounts q n)) hpre (by simpa using h)
  exact ⟨q, before, after, hsplit, of_decide_eq_true hq, fun r hr hm => hbefore r hr (by simpa using hm),
    fun r hr hm => hafter r hr (by simpa using hm)⟩

end SelectionAux

open SelectionAux

/-- Over the table of `HostFiles::new`, an absolute path is answered by the preopen mounted deepest above it: `resolve` pushes onto its
host path the components that the preopen does not have. There is such a preopen as soon as one is mounted above the path at all, and
`ENOTCAPABLE` means that none is. On Unix the pushed components are the last ones of the host path. No path makes the slices of `resolve`
panic. -/
theorem resolve_longest_prefix (os : PathOs) (cli : Cli) (currentDir : Except IoError HostDir)
    (preopens given : List (PreopenMapping os.Path)) (path n : Str) (hnew : newPreopens os cli currentDir = .ok preopens)
    (hgiven : givenPreopens os cli currentDir = .ok given) (hn : normalizeGuestPath path = .ok n) (habs : n.startsWithSlash = true) :
    (∀ pre, MostSpecific given n pre → resolve os preopens path = .returned (.ok (below os pre n))) ∧
    ((∃ pre ∈ given, Mounts pre n) → ∃ pre, MostSpecific given n pre) ∧
    (resolve os preopens path = .returned (.error .enotcapable) ↔ ∀ pre ∈ given, ¬Mounts pre n) ∧
    (∀ (dir : HostDir) (guest : Str), unixComponents (below unixPaths ⟨guest, dir.text⟩ n) =
      unixComponents dir.text ++ ((suffixParts n).drop (suffixParts guest).length).map .normal) ∧
    ∀ other, resolve os preopens other ≠ .panicked := by
  have hsort : preopens = sortDesc guestLen given := by
    rw [newPreopens_eq, hgiven] at hnew
    exact (Except.ok.inj hnew).symm
  have hnormal := normal_of_mem_given hgiven
  subst hsort
  refine ⟨?_, ?_, ?_, ?_, ?_⟩
  · intro pre hpre
    rw [resolve_sorted hnormal hn, find?_mostSpecific hnormal habs hpre]
    rfl
  · rintro ⟨pre, hpre, hmounts⟩
    exact exists_mostSpecific hpre hmounts
  · rw [resolve_sorted hnormal hn]
    constructor
    · intro hres pre hpre hmounts
      obtain ⟨q, hq⟩ := exists_mostSpecific hpre hmounts
      rw [find?_mostSpecific hnormal habs hq] at hres
      cases hres
    · intro hnone
      have hfind : (sortDesc guestLen given).find? (fun q => decide (Covers q.guest n)) = none := by
        rw [List.find?_eq_none]
        intro q hq hcov
        exact hnone q (mem_sortDesc.mp hq) ((covers_iff_mounts habs).mp (of_decide_eq_true hcov))
      rw [hfind]
      rfl
  · intro dir guest
    have hord : ∀ c ∈ (suffixParts n).drop (suffixParts guest).length, Ordinary c := fun c hc =>
      (normal_of_normalize hn).ordinary c (List.mem_of_mem_drop hc)
    exact unixComponents_foldl_push dir.text_ne hord
  · intro other
    cases hother : normalizeGuestPath other with
    | error errno =>
      rw [resolve, hother]
      intro h
      cases h
    | ok m =>
      rw [resolve_sorted hnormal hother]
      cases (sortDesc guestLen given).find? (fun q => decide (Covers q.guest m)) with
      | none =>
        intro h
        cases h
      | some p =>
        intro h
        cases h

end

/-- The preopen `--preopen /srv/root=/`. -/
def rootPreopen : Preopen := ⟨⟨"/srv/root".toList, by decide⟩, "/".toList, by decide⟩

/-- The preopen `--preopen /srv/db=/tmp/data`. -/
def tmpPreopen : Preopen := ⟨⟨"/srv/db".toList, srvDb_ne_nil⟩, "/tmp/data".toList, by decide⟩

/-- With preopens at `/` and `/tmp/data`, the path `/tmp/data2/x` is below `/`. -/
theorem resolve_longest_prefix_data2 : ∃ preopens : List (PreopenMapping Str),
    newPreopens unixPaths ⟨true, [tmpPreopen, rootPreopen]⟩ (.error ⟨none⟩) = .ok preopens ∧
    resolve unixPaths preopens "/tmp/data2/x".toList = .returned (.ok "/srv/root/tmp/data2/x".toList) := by
  have hgiven : givenPreopens unixPaths ⟨true, [tmpPreopen, rootPreopen]⟩ (.error ⟨none⟩) =
      .ok [⟨"/tmp/data".toList, "/srv/db".toList⟩, ⟨"/".toList, "/srv/root".toList⟩] := rfl
  have hnew := newPreopens_eq unixPaths ⟨true, [tmpPreopen, rootPreopen]⟩ (.error ⟨none⟩)
  rw [hgiven] at hnew
  refine ⟨_, hnew, ?_⟩
  have h := resolve_longest_prefix unixPaths _ _ _ _ "/tmp/data2/x".toList "/tmp/data2/x".toList hnew hgiven (by decide) (by decide)
  refine h.1 ⟨"/".toList, "/srv/root".toList⟩ ⟨[⟨"/tmp/data".toList, "/srv/db".toList⟩], [], rfl, ⟨by decide, by decide⟩, ?_, by simp⟩
  intro q hq hmounts
  obtain rfl := List.mem_singleton.mp hq
  exact absurd hmounts.2 (by decide)

/-! ## The order of the flags -/

section
variable {os : PathOs}

/-- An answer of `resolve` as the code compares paths, by their components. -/
def answer (os : PathOs) (o : Outcome (Except Errno os.Path)) : Outcome (Except Errno (List Component)) :=
  o.map fun r => r.map os.components

/-- In whichever order the flags are given, `resolve` answers the same for a guest path. -/
def OrderFree (os : PathOs) (cli : Cli) (currentDir : Except IoError HostDir) (path : Str) : Prop :=
  ∀ flags₁ flags₂ table₁ table₂, flags₁.Perm cli.preopens → flags₂.Perm cli.preopens →
    newPreopens os { cli with preopens := flags₁ } currentDir = .ok table₁ →
    newPreopens os { cli with preopens := flags₂ } currentDir = .ok table₂ →
    answer os (resolve os table₁ path) = answer os (resolve os table₂ path)

/-- No tie decides: the path is rejected before, or the default preopen comes first in every tie, or the path is absolute, or a preopen
with a guest path of two bytes or more covers it, or all preopens that cover it lead to the same place. -/
def NoTie (os : PathOs) (cli : Cli) (preopens : List (PreopenMapping os.Path)) (path : Str) : Prop :=
  ∀ n, normalizeGuestPath path = .ok n →
    cli.noDefaultPreopen = false ∨ n.startsWithSlash = true ∨ (∃ pre ∈ preopens, Covers pre.guest n ∧ 1 < pre.guest.len) ∨
    ∀ p ∈ preopens, ∀ q ∈ preopens, Covers p.guest n → Covers q.guest n →
      os.components (below os p n) = os.components (below os q n)

namespace SelectionAux

/-- Two guest paths of one length that cover a path are the same, if the path is absolute or they are longer than one byte. -/
theorem covers_unique {g h n : Str} (hg : Normal g) (hh : Normal h) (hgn : Covers g n) (hhn : Covers h n) (hlen : g.len = h.len)
    (hn : n.startsWithSlash = true ∨ 1 < g.len) : g = h := by
  have hroot : Str.len ['/'] = 1 := by decide
  have habs {g' : Str} (hcov : Covers g' n) (hn' : n.startsWithSlash = true ∨ 1 < g'.len) : g'.startsWithSlash = n.startsWithSlash := by
    rcases hcov.2 with habs | rfl
    · exact habs
    · rcases hn' with hn' | hn'
      · exact hn'.symm
      · omega
  have hdot {g' : Str} (hg' : Normal g') (hcov : Covers g' n) (hn' : n.startsWithSlash = true ∨ 1 < g'.len) :
      g'.startsWithSlash = true ∨ suffixParts g' ≠ [] := by
    rcases hn' with hn' | hn'
    · exact .inl ((habs hcov (.inl hn')).trans hn')
    · refine .inr fun hnil => ?_
      have hspell := hg'.eq_spell
      rw [hnil] at hspell
      cases hslash : g'.startsWithSlash with
      | true =>
        rw [hslash] at hspell
        rw [hspell] at hn'
        exact absurd hn' (by decide)
      | false =>
        rw [hslash] at hspell
        rw [hspell] at hn'
        exact absurd hn' (by decide)
  have hn' : n.startsWithSlash = true ∨ 1 < h.len := hlen ▸ hn
  have hsame : g.startsWithSlash = h.startsWithSlash := (habs hgn hn).trans (habs hhn hn').symm
  rcases Nat.lt_trichotomy (suffixParts g).length (suffixParts h).length with hlt | heq | hlt
  · exact absurd hlen (Nat.ne_of_lt (len_lt_of_parts hg hh hgn.1 hhn.1 hsame (hdot hg hgn hn) hlt))
  · exact eq_of_parts hg hh hgn.1 hhn.1 hsame heq
  · exact absurd hlen.symm (Nat.ne_of_lt (len_lt_of_parts hh hg hhn.1 hgn.1 hsame.symm (hdot hh hhn hn') hlt))

/-- `.` covers no absolute path. -/
theorem not_covers_dot {n : Str} (hn : n.startsWithSlash = true) : ¬Covers ['.'] n := by
  rintro ⟨-, habs | hroot⟩
  · rw [hn] at habs
    exact absurd habs (by decide)
  · exact absurd hroot (by decide)

section
variable {cli : Cli} {currentDir : Except IoError HostDir} {default mapped : List (PreopenMapping os.Path)}

/-- Flags in another order are mapped in that order. -/
theorem new_of_perm (hdefault : defaultPreopens os cli currentDir = .ok default)
    (hmapped : List.Forall₂ (fun p pre => mapPreopen os p = .ok pre) cli.preopens mapped) {flags : List Preopen}
    {table : List (PreopenMapping os.Path)} (hperm : flags.Perm cli.preopens)
    (hnew : newPreopens os { cli with preopens := flags } currentDir = .ok table) :
    ∃ mapped' : List (PreopenMapping os.Path), mapped'.Perm mapped ∧ table = sortDesc guestLen (default ++ mapped') := by
  obtain ⟨mapped', hflags, hmapped'⟩ := List.perm_comp_forall₂ hperm hmapped
  have hgiven : givenPreopens os { cli with preopens := flags } currentDir = .ok (default ++ mapped') :=
    givenPreopens_ok_iff.mpr ⟨default, mapped', rfl, hdefault, hflags⟩
  rw [newPreopens_eq, hgiven] at hnew
  exact ⟨mapped', hmapped', (Except.ok.inj hnew).symm⟩

/-- Every order of the preopens comes from an order of the flags. -/
theorem exists_flags (hdefault : defaultPreopens os cli currentDir = .ok default)
    (hmapped : List.Forall₂ (fun p pre => mapPreopen os p = .ok pre) cli.preopens mapped)
    {mapped' : List (PreopenMapping os.Path)} (hperm : mapped'.Perm mapped) :
    ∃ flags : List Preopen, flags.Perm cli.preopens ∧
      newPreopens os { cli with preopens := flags } currentDir = .ok (sortDesc guestLen (default ++ mapped')) := by
  have hcomp : Relation.Comp (List.Forall₂ fun p pre => mapPreopen os p = .ok pre) List.Perm cli.preopens mapped' :=
    ⟨mapped, hmapped, hperm.symm⟩
  rw [List.forall₂_comp_perm_eq_perm_comp_forall₂] at hcomp
  obtain ⟨flags, hflags, hmapped'⟩ := hcomp
  refine ⟨flags, hflags.symm, ?_⟩
  have hgiven : givenPreopens os { cli with preopens := flags } currentDir = .ok (default ++ mapped') :=
    givenPreopens_ok_iff.mpr ⟨default, mapped', rfl, hdefault, hmapped'⟩
  rw [newPreopens_eq, hgiven]
  rfl

/-- A path that is absolute, or covered by a guest path of two bytes or more, is answered by one preopen in every order. -/
theorem find?_of_perm {n : Str} (hnormal : ∀ pre ∈ default ++ mapped, Normal pre.guest)
    (hnodup : (mapped.map fun pre => pre.guest).Nodup) (hdot : ∀ pre ∈ default, pre.guest = ['.'])
    (hn : n.startsWithSlash = true ∨ ∃ pre ∈ default ++ mapped, Covers pre.guest n ∧ 1 < pre.guest.len)
    {mapped' : List (PreopenMapping os.Path)} (hperm : mapped'.Perm mapped) :
    (sortDesc guestLen (default ++ mapped')).find? (fun pre => decide (Covers pre.guest n)) =
      (sortDesc guestLen (default ++ mapped)).find? (fun pre => decide (Covers pre.guest n)) := by
  refine find?_sortDesc_perm (hperm.append_left default) ?_
  intro x hx y hy hcx hcy hmax hkey
  replace hcx := of_decide_eq_true hcx
  replace hcy := of_decide_eq_true hcy
  have hlen : n.startsWithSlash = true ∨ 1 < x.guest.len := by
    rcases hn with hn | ⟨pre, hpre, hcov, hlen⟩
    · exact .inl hn
    · exact .inr (Nat.lt_of_lt_of_le hlen (hmax pre hpre (by simpa using hcov)))
  have hguest : x.guest = y.guest := covers_unique (hnormal x hx) (hnormal y hy) hcx hcy hkey hlen
  have hflag {z : PreopenMapping os.Path} (hz : z ∈ default ++ mapped) (hguestz : z.guest = x.guest) : z ∈ mapped := by
    refine (List.mem_append.mp hz).resolve_left fun hz => ?_
    have hdotx : x.guest = ['.'] := hguestz.symm.trans (hdot z hz)
    rw [hdotx] at hcx hlen
    rcases hlen with hlen | hlen
    · exact not_covers_dot hlen hcx
    · exact absurd hlen (by decide)
  exact List.inj_on_of_nodup_map hnodup (hflag hx rfl) (hflag hy hguest.symm) hguest

/-- The default preopen comes first among guest paths of one byte. -/
theorem find?_default {n : Str} {d : PreopenMapping os.Path} (hd : d.guest = ['.']) (hn : n.startsWithSlash = false)
    (hshort : ∀ pre ∈ mapped, Covers pre.guest n → pre.guest.len ≤ 1) :
    (sortDesc guestLen ([d] ++ mapped)).find? (fun pre => decide (Covers pre.guest n)) = some d := by
  have hlen : guestLen d = 1 := by
    unfold guestLen
    rw [hd]
    decide
  refine find?_sortDesc_cons ?_ ?_
  · rw [decide_eq_true_eq, hd]
    exact ⟨List.nil_prefix, .inl hn.symm⟩
  · intro pre hpre hcov
    rw [hlen]
    exact hshort pre hpre (of_decide_eq_true hcov)

theorem resolve_of_perm {path n : Str} (hnormal : ∀ pre ∈ default ++ mapped, Normal pre.guest)
    {mapped' : List (PreopenMapping os.Path)} (hperm : mapped'.Perm mapped) (hn : normalizeGuestPath path = .ok n) :
    resolve os (sortDesc guestLen (default ++ mapped')) path =
      resolved os n ((sortDesc guestLen (default ++ mapped')).find? fun pre => decide (Covers pre.guest n)) :=
  resolve_sorted (fun pre hpre => hnormal pre ((hperm.append_left default).mem_iff.mp hpre)) hn

/-- Without a default preopen, each of the preopens that tie answers the path in some order. -/
theorem exists_order_answering {path n : Str} (hdefault : defaultPreopens os cli currentDir = .ok [])
    (hmapped : List.Forall₂ (fun p pre => mapPreopen os p = .ok pre) cli.preopens mapped)
    (hnormal : ∀ pre ∈ mapped, Normal pre.guest) (hn : normalizeGuestPath path = .ok n)
    (hshort : ∀ pre ∈ mapped, Covers pre.guest n → pre.guest.len ≤ 1) {pre : PreopenMapping os.Path} (hpre : pre ∈ mapped)
    (hcov : Covers pre.guest n) :
    ∃ flags table, flags.Perm cli.preopens ∧ newPreopens os { cli with preopens := flags } currentDir = .ok table ∧
      resolve os table path = .returned (.ok (below os pre n)) := by
  have hne : pre.guest ≠ [] := by
    intro hnil
    have hnorm := hnormal pre hpre
    rw [hnil] at hnorm
    cases hnorm
  have hmax (q : PreopenMapping os.Path) (hq : q ∈ mapped) (hcq : decide (Covers q.guest n) = true) : guestLen q ≤ guestLen pre :=
    Nat.le_trans (hshort q hq (of_decide_eq_true hcq)) (Str.len_pos hne)
  obtain ⟨mapped', hperm, hfind⟩ := exists_perm_find? hpre (by simpa using hcov) hmax
  obtain ⟨flags, hflags, hnew⟩ := exists_flags hdefault hmapped hperm
  refine ⟨flags, _, hflags, hnew, ?_⟩
  have hres : resolve os (sortDesc guestLen ([] ++ mapped')) path = _ := resolve_of_perm hnormal hperm hn
  rw [hres, List.nil_append, hfind]
  rfl

/-- Where all preopens that cover the path lead to the same place, the first one does not matter. -/
theorem answer_of_same_place {n : Str} {table₁ table₂ : List (PreopenMapping os.Path)} (hmem : ∀ pre, pre ∈ table₁ ↔ pre ∈ table₂)
    (hsame : ∀ p ∈ table₁, ∀ q ∈ table₁, Covers p.guest n → Covers q.guest n →
      os.components (below os p n) = os.components (below os q n)) :
    answer os (resolved os n (table₁.find? fun pre => decide (Covers pre.guest n))) =
      answer os (resolved os n (table₂.find? fun pre => decide (Covers pre.guest n))) := by
  cases h₁ : table₁.find? (fun pre => decide (Covers pre.guest n)) with
  | none =>
    have h₂ : table₂.find? (fun pre => decide (Covers pre.guest n)) = none := by
      rw [List.find?_eq_none] at h₁ ⊢
      exact fun pre hpre => h₁ pre ((hmem pre).mpr hpre)
    rw [h₂]
  | some p =>
    have hp := List.mem_of_find?_eq_some h₁
    have hcp : Covers p.guest n := by simpa using List.find?_some h₁
    cases h₂ : table₂.find? (fun pre => decide (Covers pre.guest n)) with
    | none => exact absurd hcp (by simpa using List.find?_eq_none.mp h₂ p ((hmem p).mp hp))
    | some q =>
      have hq := (hmem q).mpr (List.mem_of_find?_eq_some h₂)
      have hcq : Covers q.guest n := by simpa using List.find?_some h₂
      exact congrArg (fun comps => Outcome.returned (Except.ok comps)) (hsame p hp q hq hcp hcq)

end

end SelectionAux

open SelectionAux

/-- With flags whose guest paths have different normal forms, the order of the flags matters for a guest path exactly when a tie decides
it. -/
theorem resolve_order_free_iff (os : PathOs) (cli : Cli) (currentDir : Except IoError HostDir)
    (preopens : List (PreopenMapping os.Path)) (path : Str) (hnew : newPreopens os cli currentDir = .ok preopens)
    (hdistinct : (cli.preopens.map fun p => normalizeGuestPath p.guest).Nodup) :
    OrderFree os cli currentDir path ↔ NoTie os cli preopens path := by
  obtain ⟨given, hgiven, rfl⟩ := newPreopens_ok hnew
  have hnormal := normal_of_mem_given hgiven
  obtain ⟨default, mapped, rfl, hdefault, hmapped⟩ := givenPreopens_ok_iff.mp hgiven
  have hnodup : (mapped.map fun pre => pre.guest).Nodup := by
    rw [guests_of_mapped hmapped] at hdistinct
    exact hdistinct.of_map _
  have hdot : ∀ pre ∈ default, pre.guest = ['.'] := by
    rcases defaultPreopens_cases hdefault with ⟨-, rfl⟩ | ⟨-, d, rfl, hd⟩
    · simp
    · simpa using hd
  constructor
  · intro hfree n hn
    by_cases hlong : ∃ pre ∈ sortDesc guestLen (default ++ mapped), Covers pre.guest n ∧ 1 < pre.guest.len
    · exact .inr (.inr (.inl hlong))
    · rcases defaultPreopens_cases hdefault with ⟨-, rfl⟩ | ⟨hon, -⟩
      · refine .inr (.inr (.inr ?_))
        have hshort : ∀ pre ∈ mapped, Covers pre.guest n → pre.guest.len ≤ 1 := by
          intro pre hpre hcov
          exact Nat.le_of_not_lt fun hlt => hlong ⟨pre, mem_sortDesc.mpr hpre, hcov, hlt⟩
        intro p hp q hq hcp hcq
        -- each of the two answers in some order
        obtain ⟨flags₁, table₁, hflags₁, hnew₁, hres₁⟩ :=
          exists_order_answering hdefault hmapped hnormal hn hshort (mem_sortDesc.mp hp) hcp
        obtain ⟨flags₂, table₂, hflags₂, hnew₂, hres₂⟩ :=
          exists_order_answering hdefault hmapped hnormal hn hshort (mem_sortDesc.mp hq) hcq
        have hsame := hfree flags₁ flags₂ table₁ table₂ hflags₁ hflags₂ hnew₁ hnew₂
        rw [hres₁, hres₂] at hsame
        exact Except.ok.inj (Outcome.returned.inj hsame)
      · exact .inl hon
  · intro hsafe flags₁ flags₂ table₁ table₂ hflags₁ hflags₂ hnew₁ hnew₂
    obtain ⟨mapped₁, hperm₁, rfl⟩ := new_of_perm hdefault hmapped hflags₁ hnew₁
    obtain ⟨mapped₂, hperm₂, rfl⟩ := new_of_perm hdefault hmapped hflags₂ hnew₂
    cases hn : normalizeGuestPath path with
    | error errno =>
      unfold resolve
      rw [hn]
    | ok n =>
      rw [resolve_of_perm hnormal hperm₁ hn, resolve_of_perm hnormal hperm₂ hn]
      by_cases hone : n.startsWithSlash = true ∨ ∃ pre ∈ default ++ mapped, Covers pre.guest n ∧ 1 < pre.guest.len
      · rw [find?_of_perm hnormal hnodup hdot hone hperm₁, find?_of_perm hnormal hnodup hdot hone hperm₂]
      · obtain ⟨habs, hlong⟩ := not_or.mp hone
        rcases hsafe n hn with hon | habs' | ⟨pre, hpre, hcov, hlen⟩ | hsame
        · obtain ⟨hoff, -⟩ | ⟨-, d, rfl, hd⟩ := defaultPreopens_cases hdefault
          · rw [hon] at hoff
            cases hoff
          · have hshort {mapped' : List (PreopenMapping os.Path)} (hperm : mapped'.Perm mapped) :
                ∀ pre ∈ mapped', Covers pre.guest n → pre.guest.len ≤ 1 := by
              intro pre hpre hcov
              exact Nat.le_of_not_lt fun hlt => hlong ⟨pre, List.mem_append_right _ (hperm.mem_iff.mp hpre), hcov, hlt⟩
            have hrel : n.startsWithSlash = false := by simpa using habs
            rw [find?_default hd hrel (hshort hperm₁), find?_default hd hrel (hshort hperm₂)]
        · exact absurd habs' habs
        · exact absurd ⟨pre, mem_sortDesc.mp hpre, hcov, hlen⟩ hlong
        · have hmem {mapped' : List (PreopenMapping os.Path)} (hperm : mapped'.Perm mapped) (pre : PreopenMapping os.Path) :
              pre ∈ sortDesc guestLen (default ++ mapped') ↔ pre ∈ sortDesc guestLen (default ++ mapped) := by
            rw [mem_sortDesc, mem_sortDesc]
            exact (hperm.append_left default).mem_iff
          refine answer_of_same_place (fun pre => (hmem hperm₁ pre).trans (hmem hperm₂ pre).symm) ?_
          intro p hp q hq
          exact hsame p ((hmem hperm₁ p).mp hp) q ((hmem hperm₁ q).mp hq)

end

/-- The preopen `--preopen /srv/work=.`. -/
def workPreopen : Preopen := ⟨⟨"/srv/work".toList, by decide⟩, ".".toList, by decide⟩

namespace SelectionAux

/-- Preopens given longest first stay in their order. -/
theorem newPreopens_of_pairwise {os : PathOs} {cli : Cli} {currentDir : Except IoError HostDir} {given : List (PreopenMapping os.Path)}
    (hgiven : givenPreopens os cli currentDir = .ok given)
    (h : given.Pairwise fun p q => decide (guestLen q ≤ guestLen p) = true) : newPreopens os cli currentDir = .ok given := by
  rw [newPreopens_eq, hgiven]
  exact congrArg Except.ok (List.mergeSort_of_pairwise h)

/-- The preopens at `.` and `/`. -/
def workRoot : List (PreopenMapping Str) := [⟨".".toList, "/srv/work".toList⟩, ⟨"/".toList, "/srv/root".toList⟩]

theorem newPreopens_workRoot : newPreopens unixPaths ⟨true, [workPreopen, rootPreopen]⟩ (.error ⟨none⟩) = .ok workRoot :=
  newPreopens_of_pairwise rfl (by decide)

theorem newPreopens_rootWork :
    newPreopens unixPaths ⟨true, [rootPreopen, workPreopen]⟩ (.error ⟨none⟩) = .ok workRoot.reverse :=
  newPreopens_of_pairwise rfl (by decide)

end SelectionAux

open SelectionAux

/-- With preopens at `.` and `/`, the relative path `x` is found below the one that is given first. -/
theorem resolve_work_root_order : ¬OrderFree unixPaths ⟨true, [workPreopen, rootPreopen]⟩ (.error ⟨none⟩) "x".toList := by
  intro hfree
  have hsame := hfree _ _ _ _ (List.Perm.refl _) (List.Perm.swap _ _ _) newPreopens_workRoot newPreopens_rootWork
  have hwork : resolve unixPaths workRoot "x".toList = .returned (.ok "/srv/work/x".toList) := rfl
  have hroot : resolve unixPaths workRoot.reverse "x".toList = .returned (.ok "/srv/root/x".toList) := rfl
  rw [hwork, hroot] at hsame
  have hcomps := Except.ok.inj (Outcome.returned.inj hsame)
  exact absurd hcomps (by decide)

/-- With the same preopens the absolute path `/x` is found below `/` in either order. -/
theorem resolve_order_free_iff_absolute :
    OrderFree unixPaths ⟨true, [workPreopen, rootPreopen]⟩ (.error ⟨none⟩) "/x".toList := by
  refine (resolve_order_free_iff unixPaths _ _ _ _ newPreopens_workRoot (by decide)).mpr ?_
  intro n hn
  obtain rfl : "/x".toList = n := Except.ok.inj ((by decide : normalizeGuestPath "/x".toList = .ok "/x".toList).symm.trans hn)
  exact .inr (.inl (by decide))

end WasmtimeMysql
