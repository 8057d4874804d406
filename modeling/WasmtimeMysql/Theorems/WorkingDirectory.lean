import WasmtimeMysql.GuestShim
import WasmtimeMysql.Lemmas.UnixPaths

/-!
# The working directory of the guest

WASI has no working directory. The guest keeps one, and joins a relative path to it as text (`os_wasi_resolve_path`); the host takes the
`.` and `..` out of the whole. The two steps fit: the host gets from the joined text what it gets from the normalized directory, with any
path joined to that (`normalizeGuestPath_join`).
-/

namespace WasmtimeMysql

open Effects

namespace WorkingDirectoryAux

variable {a n : Str} {absolute : Bool}

/-- The pieces after a slash go on from the parts before it. -/
theorem normalParts_join (a b : Str) :
    normalParts (a ++ '/' :: b) = normalParts a >>= fun parts => (b.splitOn '/').foldlM pushPart parts := by
  unfold normalParts
  rw [List.splitOn_append_cons_self, List.foldlM_append]

/-- The only error of the loop. -/
theorem normalParts_error {errno : Errno} (h : normalParts a = .error errno) : errno = .enotcapable := by
  rw [normalParts_eq] at h
  split at h
  · cases h
  · exact (Except.error.inj h).symm

/-- A path that normalizes has the parts of its normal form, and is absolute when that is. -/
theorem normalParts_of_normalize (h : normalizeGuestPath a = .ok n) :
    normalParts a = normalParts n ∧ n ≠ [] ∧ n.startsWithSlash = a.startsWithSlash := by
  obtain ⟨parts, hparts, hord, rfl⟩ := normalizeGuestPath_ok h
  exact ⟨hparts.trans (normalParts_spell hord).symm, spell_ne_nil hord, startsWithSlash_spell hord⟩

theorem append_slash_ne_nil (a b : Str) : a ++ '/' :: b ≠ [] := List.append_ne_nil_of_right_ne_nil a (List.cons_ne_nil '/' b)

/-- The host's path depends on the guest's path by its normal form alone. -/
theorem resolve_congr {path path' : Str} (h : normalizeGuestPath path = normalizeGuestPath path') (os : PathOs)
    (preopens : List (PreopenMapping os.Path)) :
    resolve os preopens path = resolve os preopens path' ∧ resolveParent os preopens path = resolveParent os preopens path' := by
  have hresolve : resolve os preopens path = resolve os preopens path' := by
    unfold resolve
    rw [h]
  refine ⟨hresolve, ?_⟩
  unfold resolveParent
  rw [hresolve]

/-- Joining to the normal form. -/
theorem normalize_join_ok (h : normalizeGuestPath a = .ok n) (b : Str) :
    normalizeGuestPath (a ++ '/' :: b) = normalizeGuestPath (n ++ '/' :: b) := by
  obtain ⟨hparts, hn, hstart⟩ := normalParts_of_normalize h
  have ha : a ≠ [] := by
    rintro rfl
    cases h
  rw [normalizeGuestPath_eq (append_slash_ne_nil a b), normalizeGuestPath_eq (append_slash_ne_nil n b), normalParts_join, normalParts_join,
    hparts, startsWithSlash_append ha, startsWithSlash_append hn, hstart]

/-- What has led out does not come back. -/
theorem normalize_join_error {errno : Errno} (ha : a ≠ []) (h : normalizeGuestPath a = .error errno) (b : Str) :
    normalizeGuestPath (a ++ '/' :: b) = .error .enotcapable := by
  rw [normalizeGuestPath_eq ha] at h
  cases hparts : normalParts a with
  | ok parts =>
    rw [hparts] at h
    cases h
  | error errno' =>
    rw [normalizeGuestPath_eq (append_slash_ne_nil a b), normalParts_join, hparts, normalParts_error hparts]
    rfl

end WorkingDirectoryAux

open WorkingDirectoryAux in
/-- Joining a path to a directory and normalizing is joining it to the normalized directory and normalizing. So a relative path that the
guest joins to its working directory leads the host to the file that it leads to from the normalized directory. -/
theorem normalizeGuestPath_join :
    (∀ a b : Str, a ≠ [] →
      (∀ n, normalizeGuestPath a = .ok n → normalizeGuestPath (a ++ '/' :: b) = normalizeGuestPath (n ++ '/' :: b)) ∧
      (normalizeGuestPath a = .error .enotcapable → normalizeGuestPath (a ++ '/' :: b) = .error .enotcapable)) ∧
    ∀ (cwd path : Str) (bufferLen : Nat), cwd.startsWithSlash = true → path.startsWithSlash = false →
      cwd.len + 1 + path.len < bufferLen →
      ∃ joined, osWasiResolvePath (some cwd) path bufferLen = .ok joined ∧
        ∀ (os : PathOs) (preopens : List (PreopenMapping os.Path)),
          (∀ n, normalizeGuestPath cwd = .ok n →
            resolve os preopens joined = resolve os preopens (n ++ '/' :: path) ∧
            resolveParent os preopens joined = resolveParent os preopens (n ++ '/' :: path)) ∧
          (normalizeGuestPath cwd = .error .enotcapable →
            resolve os preopens joined = .returned (.error .enotcapable) ∧
            resolveParent os preopens joined = .returned (.error .enotcapable)) := by
  constructor
  · intro a b ha
    exact ⟨fun n hn => normalize_join_ok hn b, fun herr => normalize_join_error ha herr b⟩
  · intro cwd path bufferLen hcwd hpath hfits
    have hne : cwd ≠ [] := by
      rintro rfl
      cases hcwd
    refine ⟨cwd ++ '/' :: path, ?_, fun os preopens => ⟨fun n hn => ?_, fun herr => ?_⟩⟩
    · unfold osWasiResolvePath
      rw [if_neg (by rw [hpath]; rintro (hslash | hzero); exacts [Bool.false_ne_true hslash, by omega])]
      simp only
      rw [if_neg (by omega)]
    · exact resolve_congr (normalize_join_ok hn path) os preopens
    · have hjoined := normalize_join_error hne herr path
      have hresolve : resolve os preopens (cwd ++ '/' :: path) = .returned (.error .enotcapable) := by
        unfold resolve
        rw [hjoined]
      refine ⟨hresolve, ?_⟩
      unfold resolveParent
      rw [hresolve]

/-- From `/srv/x/..`, the path `./../d` leads to `/d`. -/
theorem normalizeGuestPath_join_dots :
    normalizeGuestPath ("/srv/x/..".toList ++ '/' :: "./../d".toList) = normalizeGuestPath ("/srv".toList ++ '/' :: "./../d".toList) ∧
      ∃ joined, osWasiResolvePath (some "/srv/x/..".toList) "./../d".toList 512 = .ok joined :=
  ⟨(normalizeGuestPath_join.1 "/srv/x/..".toList "./../d".toList (by decide)).1 "/srv".toList (by decide),
    (normalizeGuestPath_join.2 "/srv/x/..".toList "./../d".toList 512 (by decide) (by decide) (by decide)).imp fun _ h => h.1⟩

end WasmtimeMysql
