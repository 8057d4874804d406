import WasmtimeMysql.Lemmas.Preopens
import WasmtimeMysql.Lemmas.UnixPaths

/-!
# The directory that `sync_parent` flushes

`resolve_parent` resolves a path and takes the parent on the host side. On a Unix host that is the directory the file was created in: the
host path without its last component, and also what the guest path without its last component resolves to, since the preopen that answers
the path is the first one to cover its parent too (`resolveParent_unix`).
-/

namespace WasmtimeMysql

open Effects Split StableSort

/-- `resolve` stops at a preopen, with some component of the path left below it. A suffix `.` has none. -/
def FoundBelow (preopens : List (PreopenMapping Str)) (n : Str) (pre : PreopenMapping Str) : Prop :=
  ∃ before after suffix, preopens = before ++ pre :: after ∧ (∀ q ∈ before, preopenSuffix q.guest n = .returned none) ∧
    preopenSuffix pre.guest n = .returned (some suffix) ∧ suffixParts suffix ≠ []

/-- A normalized guest path without its last component: `.` or `/` when nothing remains. -/
def guestParent (n : Str) : Str := spell n.startsWithSlash (suffixParts n).dropLast

namespace ParentDirectoryAux

theorem ordinary_dropLast {n : Str} (hn : Normal n) : ∀ c ∈ (suffixParts n).dropLast, Ordinary c := fun c hc =>
  hn.ordinary c (List.mem_of_mem_dropLast hc)

theorem normal_guestParent {n : Str} (hn : Normal n) : Normal (guestParent n) := normal_spell (ordinary_dropLast hn)

theorem suffixParts_guestParent {n : Str} (hn : Normal n) : suffixParts (guestParent n) = (suffixParts n).dropLast :=
  suffixParts_spell (ordinary_dropLast hn)

theorem startsWithSlash_guestParent {n : Str} (hn : Normal n) : (guestParent n).startsWithSlash = n.startsWithSlash :=
  startsWithSlash_spell (ordinary_dropLast hn)

/-- What covers the parent covers the path. -/
theorem covers_of_covers_parent {guest n : Str} (hn : Normal n) (h : Covers guest (guestParent n)) : Covers guest n := by
  obtain ⟨hparts, habs⟩ := h
  rw [suffixParts_guestParent hn] at hparts
  rw [startsWithSlash_guestParent hn] at habs
  exact ⟨hparts.trans (List.dropLast_prefix _), habs⟩

/-- What covers the path with a component left covers the parent. -/
theorem covers_parent {guest n : Str} (hn : Normal n) (h : Covers guest n) (hleft : (suffixParts n).drop (suffixParts guest).length ≠ []) :
    Covers guest (guestParent n) := by
  obtain ⟨⟨rest, hrest⟩, habs⟩ := h
  rw [← startsWithSlash_guestParent hn] at habs
  refine ⟨?_, habs⟩
  rw [suffixParts_guestParent hn]
  rw [← hrest, List.drop_left] at hleft
  rw [← hrest, List.dropLast_append_of_ne_nil hleft]
  exact List.prefix_append _ _

/-- The preopen where `resolve` stops is the first one that covers the path. -/
theorem find?_of_foundBelow {preopens : List (PreopenMapping Str)} {n : Str} {pre : PreopenMapping Str}
    (hpre : ∀ q ∈ preopens, Normal q.guest) (hn : Normal n) (h : FoundBelow preopens n pre) :
    pre ∈ preopens ∧ Covers pre.guest n ∧ (suffixParts n).drop (suffixParts pre.guest).length ≠ [] ∧
      preopens.find? (fun q => decide (Covers q.guest n)) = some pre ∧
      preopens.find? (fun q => decide (Covers q.guest (guestParent n))) = some pre := by
  obtain ⟨before, after, suffix, rfl, hbefore, hstop, hleft⟩ := h
  have hmem : pre ∈ before ++ pre :: after := List.mem_append_right _ List.mem_cons_self
  rcases preopenSuffix_normal (hpre pre hmem) hn with ⟨hcov, suffix', hstop', hparts⟩ | ⟨-, hnone⟩
  · rw [hstop] at hstop'
    obtain rfl := Option.some.inj (Outcome.returned.inj hstop')
    rw [hparts] at hleft
    have hnot : ∀ q ∈ before, ¬Covers q.guest n := by
      intro q hq hcq
      rcases preopenSuffix_normal (hpre q (List.mem_append_left _ hq)) hn with ⟨-, s, hs, -⟩ | ⟨hnot, -⟩
      · rw [hbefore q hq] at hs
        cases hs
      · exact hnot hcq
    refine ⟨hmem, hcov, hleft, ?_, ?_⟩
    · rw [List.find?_eq_some_iff_append]
      refine ⟨by simpa using hcov, before, after, rfl, ?_⟩
      intro q hq
      simpa using hnot q hq
    · rw [List.find?_eq_some_iff_append]
      refine ⟨by simpa using covers_parent hn hcov hleft, before, after, rfl, ?_⟩
      intro q hq
      simpa using fun hcq => hnot q hq (covers_of_covers_parent hn hcq)
  · rw [hstop] at hnone
    cases hnone

/-- The components of what `resolve` returns. -/
theorem unixComponents_below {pre : PreopenMapping Str} {n : Str} (hhost : pre.host ≠ []) (hn : Normal n) :
    unixComponents (below unixPaths pre n) =
      unixComponents pre.host ++ ((suffixParts n).drop (suffixParts pre.guest).length).map .normal :=
  unixComponents_foldl_push hhost fun c hc => hn.ordinary c (List.mem_of_mem_drop hc)

/-- The parent of what `resolve` returns. -/
theorem parent_below {pre : PreopenMapping Str} {n : Str} (hhost : pre.host ≠ []) (hn : Normal n)
    (hleft : (suffixParts n).drop (suffixParts pre.guest).length ≠ []) :
    ∃ q, unixParent (below unixPaths pre n) = some q ∧ unixComponents q = (unixComponents (below unixPaths pre n)).dropLast := by
  have hord : ∀ c ∈ (suffixParts n).drop (suffixParts pre.guest).length, Ordinary c := fun c hc =>
    hn.ordinary c (List.mem_of_mem_drop hc)
  have hne : below unixPaths pre n ≠ [] := foldl_push_ne_nil hhost hord
  rcases unixParent_components hne with hparent | ⟨-, hnone⟩
  · exact hparent
  · -- a path with an ordinary component is not the root
    obtain ⟨c, rest, hrest⟩ := List.exists_cons_of_ne_nil hleft
    have hmem : Component.normal c ∈ unixComponents (below unixPaths pre n) := by
      rw [unixComponents_below hhost hn, hrest]
      simp
    rcases hnone with hnone | hnone
    · rw [hnone] at hmem
      cases hmem
    · rw [hnone] at hmem
      cases List.mem_singleton.mp hmem

end ParentDirectoryAux

open ParentDirectoryAux

/-- Where `resolve` maps a path to a preopen with some component left, `resolve_parent` returns the same host path without its last
component, and the parent of the guest path resolves to it too. Whatever `resolve_parent` returns is below the host path of a preopen. -/
theorem resolveParent_unix (cli : Cli) (currentDir : Except IoError HostDir) (preopens : List (PreopenMapping Str)) (path : Str)
    (hnew : newPreopens unixPaths cli currentDir = .ok preopens) :
    (∀ n pre, normalizeGuestPath path = .ok n → FoundBelow preopens n pre →
      ∃ p q r, resolve unixPaths preopens path = .returned (.ok p) ∧ resolveParent unixPaths preopens path = .returned (.ok q) ∧
        unixComponents q = (unixComponents p).dropLast ∧
        resolve unixPaths preopens (guestParent n) = .returned (.ok r) ∧ unixComponents q = unixComponents r) ∧
    ∀ q, resolveParent unixPaths preopens path = .returned (.ok q) → ∃ pre ∈ preopens, unixComponents pre.host <+: unixComponents q := by
  constructor
  · intro n pre hnorm hfound
    obtain ⟨given, hgiven, rfl⟩ := newPreopens_ok hnew
    have hnormal : ∀ q ∈ sortDesc guestLen given, Normal q.guest := fun q hq => normal_of_mem_given hgiven q (mem_sortDesc.mp hq)
    have hn := normal_of_normalize hnorm
    obtain ⟨hmem, hcov, hleft, hfind, hfind'⟩ := find?_of_foundBelow hnormal hn hfound
    obtain ⟨dir, -, hdir⟩ := mem_newPreopens hnew pre hmem
    have hhost : pre.host ≠ [] := by
      rw [hdir]
      exact dir.text_ne
    have hres : resolve unixPaths (sortDesc guestLen given) path = .returned (.ok (below unixPaths pre n)) := by
      rw [resolve, hnorm]
      exact (resolveIn_normal hn hnormal).trans (by rw [hfind]; rfl)
    have hres' : resolve unixPaths (sortDesc guestLen given) (guestParent n) =
        .returned (.ok (below unixPaths pre (guestParent n))) := by
      rw [resolve, normal_guestParent hn]
      exact (resolveIn_normal (normal_guestParent hn) hnormal).trans (by rw [hfind']; rfl)
    obtain ⟨q, hparent, hcomps⟩ := parent_below hhost hn hleft
    have hbelow := unixComponents_below hhost hn
    have hlast : unixComponents q =
        unixComponents pre.host ++ ((suffixParts n).drop (suffixParts pre.guest).length).dropLast.map .normal := by
      rw [hcomps, hbelow, List.dropLast_append_of_ne_nil (by simpa using hleft), List.map_dropLast]
    refine ⟨_, q, _, hres, ?_, hcomps, hres', ?_⟩
    · have hany : ((sortDesc guestLen given).any fun pre' =>
          (unixComponents pre'.host).isPrefixOf (unixComponents q)) = true := by
        rw [List.any_eq_true]
        refine ⟨pre, hmem, ?_⟩
        rw [List.isPrefixOf_iff_prefix, hlast]
        exact List.prefix_append _ _
      unfold resolveParent
      rw [hres]
      simp only [hparent, hany, if_true]
    · obtain ⟨rest, hrest⟩ := hcov.1
      have hne : rest ≠ [] := by
        rw [← hrest, List.drop_left] at hleft
        exact hleft
      rw [hlast, unixComponents_below hhost (normal_guestParent hn), suffixParts_guestParent hn, ← hrest,
        List.dropLast_append_of_ne_nil hne, List.drop_left, List.drop_left]
  · intro q hq
    unfold resolveParent at hq
    split at hq
    · cases hq
    · cases hq
    · split at hq
      · cases hq
      · split at hq
        · rename_i hany
          cases hq
          obtain ⟨pre, hpre, hprefix⟩ := List.any_eq_true.mp hany
          exact ⟨pre, hpre, List.isPrefixOf_iff_prefix.mp hprefix⟩
        · cases hq

/-- The flag `--preopen /srv/db=/var/mysql`. -/
def varPreopen : Preopen := ⟨⟨"/srv/db".toList, srvDb_ne_nil⟩, "/var/mysql".toList, by decide⟩

/-- The parent of `/var/mysql/t/a.ibd` is `/srv/db/t`, which is where `/var/mysql/t` is. -/
theorem resolveParent_unix_var : ∃ preopens : List (PreopenMapping Str),
    newPreopens unixPaths ⟨true, [varPreopen]⟩ (.error ⟨none⟩) = .ok preopens ∧
    ∃ p q r, resolve unixPaths preopens "/var/mysql/t/a.ibd".toList = .returned (.ok p) ∧
      resolveParent unixPaths preopens "/var/mysql/t/a.ibd".toList = .returned (.ok q) ∧ unixComponents q = (unixComponents p).dropLast ∧
      resolve unixPaths preopens (guestParent "/var/mysql/t/a.ibd".toList) = .returned (.ok r) ∧ unixComponents q = unixComponents r := by
  have hnew := newPreopens_single unixPaths (p := varPreopen) rfl (.error ⟨none⟩)
  refine ⟨_, hnew, ?_⟩
  refine (resolveParent_unix _ _ _ "/var/mysql/t/a.ibd".toList hnew).1 "/var/mysql/t/a.ibd".toList
    ⟨"/var/mysql".toList, "/srv/db".toList⟩ (by decide) ?_
  exact ⟨[], [], "t/a.ibd".toList, rfl, by simp, rfl, by decide⟩

end WasmtimeMysql
