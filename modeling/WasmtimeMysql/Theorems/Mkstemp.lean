import Mathlib.Data.List.Nodup
import Mathlib.Data.Set.Insert
import WasmtimeMysql.GuestLibc
import WasmtimeMysql.Lib.Numerals

/-!
# The names of `mkstemp`

`mkstemp` writes the number of its attempt over the six Xs of the pattern, in base 36 and from the last byte on, and opens the name
exclusively. The names it tries are pairwise different, it takes the first one that does not exist, and it gives up with `EEXIST` only when
all of them do (`mkstemp_spec`).
-/

namespace WasmtimeMysql

open Effects Effects.Prog Numerals

/-- `open` with `O_CREAT | O_EXCL`, over the names that exist: it fails with `EEXIST` exactly on those, and on another name it creates the
file or fails with another error. -/
def exclusive : Machine ExclusiveOpens (Set (List UInt8)) := fun existing name opened existing' =>
  (name ∈ existing ∧ opened.fd < 0 ∧ opened.errno = Errno.eexist.code ∧ existing' = existing) ∨
  (name ∉ existing ∧ 0 ≤ opened.fd ∧ existing' = insert name existing) ∨
  (name ∉ existing ∧ opened.fd < 0 ∧ opened.errno ≠ Errno.eexist.code ∧ existing' = existing)

/-- What stands before the last six bytes. -/
def stem (pattern : List UInt8) : List UInt8 := pattern.take (pattern.length - 6)

/-- The six letters of an attempt. -/
def attemptLetters (attempt : Nat) : List UInt8 := numeral 36 (fun d => alphabet.getD d 0) 6 attempt

/-- The name of an attempt. -/
def candidate (pattern : List UInt8) (attempt : Nat) : List UInt8 := stem pattern ++ attemptLetters attempt

/-- The attempts before `k` were made in their order, and then attempt `k`, which ended the search: its file was created and the descriptor
is returned, or it failed with an error other than `EEXIST`, which is returned. -/
def EndedAt (name : Nat → List UInt8) (existing : Set (List UInt8)) (k : Nat) (tr : List (Event ExclusiveOpens)) (r : Stemp)
    (existing' : Set (List UInt8)) : Prop :=
  r.pattern = name k ∧ ∃ before opened, tr = before ++ [⟨name k, opened⟩] ∧ before.map Sigma.fst = (List.range k).map name ∧
    r.errno = opened.errno ∧
    ((0 ≤ opened.fd ∧ r.fd = opened.fd ∧ existing' = insert (name k) existing) ∨
      (opened.fd < 0 ∧ opened.errno ≠ Errno.eexist.code ∧ r.fd = -1 ∧ existing' = existing))

namespace MkstempAux

/-! ### Names -/

/-- The letters are different, ... -/
theorem getD_alphabet_inj : ∀ d < 36, ∀ e < 36, alphabet.getD d 0 = alphabet.getD e 0 → d = e := by decide

/-- ... and of the alphabet. -/
theorem getD_alphabet_mem : ∀ d < 36, alphabet.getD d 0 ∈ alphabet := by decide

/-- A name has six of them ... -/
theorem length_attemptLetters (attempt : Nat) : (attemptLetters attempt).length = 6 := length_numeral 6 attempt

/-- ... and nothing else. -/
theorem mem_alphabet_of_mem_attemptLetters {attempt : Nat} {x : UInt8} (hx : x ∈ attemptLetters attempt) : x ∈ alphabet := by
  obtain ⟨d, hd, rfl⟩ := exists_digit_of_mem_numeral (by decide) hx
  exact getD_alphabet_mem d hd

/-- The attempts that are made have different names. -/
theorem candidate_inj {pattern : List UInt8} {i j : Nat} (hi : i < 36 ^ 3) (hj : j < 36 ^ 3)
    (h : candidate pattern i = candidate pattern j) : i = j := by
  have hpow : (36 : Nat) ^ 3 ≤ 36 ^ 6 := Nat.pow_le_pow_right (by decide) (by decide)
  exact numeral_inj (by decide) getD_alphabet_inj (hi.trans_le hpow) (hj.trans_le hpow) (List.append_cancel_left h)

/-- No name is tried twice. -/
theorem nodup_candidates (pattern : List UInt8) : ((List.range (36 ^ 3)).map (candidate pattern)).Nodup :=
  List.Nodup.map_on (fun _ hi _ hj => candidate_inj (List.mem_range.mp hi) (List.mem_range.mp hj)) List.nodup_range

/-- The number of the attempt goes over the last six bytes, whatever they are. -/
theorem writeAttempt_append {front back : List UInt8} (hback : back.length = 6) (attempt : Nat) :
    writeAttempt (front ++ back) attempt = front ++ attemptLetters attempt := by
  have hloop := @foldl_set_numeral UInt8 36 (fun d => alphabet.getD d 0) front back attempt 6 (Nat.le_of_eq hback.symm)
  unfold writeAttempt
  rw [hloop, hback, Nat.sub_self, List.take_zero, List.append_nil]
  rfl

/-! ### The search -/

/-- From attempt `first` on, with `n` attempts left: all their names exist and the search is given up, or it ends at one of them. -/
def Searched (front : List UInt8) (existing : Set (List UInt8)) (first n : Nat) (tr : List (Event ExclusiveOpens)) (o : Outcome Stemp)
    (existing' : Set (List UInt8)) : Prop :=
  ∃ r back, o = .returned r ∧ r.pattern = front ++ back ∧ back.length = 6 ∧
    (((∀ j < n, front ++ attemptLetters (first + j) ∈ existing) ∧ r.fd = -1 ∧ r.errno = Errno.eexist.code ∧ existing' = existing ∧
        tr.map Sigma.fst = (List.range n).map fun j => front ++ attemptLetters (first + j)) ∨
      ∃ k < n, (∀ j < k, front ++ attemptLetters (first + j) ∈ existing) ∧ front ++ attemptLetters (first + k) ∉ existing ∧
        EndedAt (fun j => front ++ attemptLetters (first + j)) existing k tr r existing')

section
variable {front : List UInt8} {existing existing' : Set (List UInt8)} {first n : Nat} {tr : List (Event ExclusiveOpens)}
  {o : Outcome Stemp} {opened : OpenResult}

/-- The first of a range and the others. -/
theorem range_succ_map {α : Type} (f : Nat → α) (n : Nat) : (List.range (n + 1)).map f = f 0 :: (List.range n).map fun j => f (j + 1) := by
  rw [List.range_succ_eq_map, List.map_cons, List.map_map]
  rfl

/-- An attempt whose name exists, and then the rest. -/
theorem Searched.next (hmem : front ++ attemptLetters first ∈ existing) (h : Searched front existing (first + 1) n tr o existing') :
    Searched front existing first (n + 1) (⟨front ++ attemptLetters first, opened⟩ :: tr) o existing' := by
  have hshift (j : Nat) : first + 1 + j = first + (j + 1) := by omega
  have hbefore {k : Nat} (hall : ∀ j < k, front ++ attemptLetters (first + 1 + j) ∈ existing) (j : Nat) (hj : j < k + 1) :
      front ++ attemptLetters (first + j) ∈ existing := by
    cases j with
    | zero => exact hmem
    | succ j =>
      rw [← hshift]
      exact hall j (Nat.lt_of_succ_lt_succ hj)
  obtain ⟨r, back, hr, hpattern, hback, ⟨hall, hfd, herrno, hexisting, htr⟩ |
    ⟨k, hk, hall, hnot, hname, before, last, htr, hnames, hend⟩⟩ := h
  · refine ⟨r, back, hr, hpattern, hback, .inl ⟨hbefore hall, hfd, herrno, hexisting, ?_⟩⟩
    rw [List.map_cons, htr, range_succ_map]
    simp only [hshift, Nat.add_zero]
  · simp only [hshift] at hnot hname htr hnames hend
    refine ⟨r, back, hr, hpattern, hback, .inr ⟨k + 1, Nat.succ_lt_succ hk, hbefore hall, hnot, hname, ?_⟩⟩
    refine ⟨⟨front ++ attemptLetters first, opened⟩ :: before, last, ?_, ?_, hend⟩
    · rw [htr, List.cons_append]
    · rw [List.map_cons, hnames, range_succ_map]
      rfl

/-- One attempt, and the others after it. -/
theorem tryNames_succ (n attempt : Nat) (pattern : List UInt8) : tryNames (n + 1) attempt pattern =
    .call (S := ExclusiveOpens) (writeAttempt pattern attempt) fun opened =>
      if opened.fd ≥ 0 then pure ⟨opened.fd, opened.errno, writeAttempt pattern attempt⟩
      else if opened.errno ≠ Errno.eexist.code then pure ⟨-1, opened.errno, writeAttempt pattern attempt⟩
      else tryNames n (attempt + 1) (writeAttempt pattern attempt) := rfl

/-- Every search ends in one of these ways, by induction on the attempts that are left. -/
theorem wp_tryNames {back : List UInt8} (hback : back.length = 6) :
    wp exclusive (tryNames n first (front ++ back)) (Searched front existing first n) existing := by
  induction n generalizing first back with
  | zero => exact ⟨_, back, rfl, rfl, hback, .inl ⟨nofun, rfl, rfl, rfl, rfl⟩⟩
  | succ n ih =>
    rw [tryNames_succ, writeAttempt_append hback]
    intro opened existing' hopen
    beta_reduce
    have hended (r : Stemp) (hpattern : r.pattern = front ++ attemptLetters first) (herrno : r.errno = opened.errno)
        (hnot : front ++ attemptLetters first ∉ existing)
        (hend : (0 ≤ opened.fd ∧ r.fd = opened.fd ∧ existing' = insert (front ++ attemptLetters first) existing) ∨
          (opened.fd < 0 ∧ opened.errno ≠ Errno.eexist.code ∧ r.fd = -1 ∧ existing' = existing)) :
        Searched front existing first (n + 1) [⟨front ++ attemptLetters first, opened⟩] (.returned r) existing' :=
      ⟨r, attemptLetters first, rfl, hpattern, length_attemptLetters first,
        .inr ⟨0, n.succ_pos, nofun, hnot, hpattern, [], opened, rfl, rfl, herrno, hend⟩⟩
    rcases hopen with ⟨hmem, hfd, herrno, rfl⟩ | ⟨hnot, hfd, rfl⟩ | ⟨hnot, hfd, herrno, rfl⟩
    · rw [if_neg (Int32.not_le.mpr hfd), if_neg (not_not_intro herrno)]
      exact wp_mono (ih (length_attemptLetters first)) fun tr o existing' h => h.next hmem
    · rw [if_pos hfd]
      exact hended _ rfl rfl hnot (.inl ⟨hfd, rfl, rfl⟩)
    · rw [if_neg (Int32.not_le.mpr hfd), if_pos herrno]
      exact hended _ rfl rfl hnot (.inr ⟨hfd, herrno, rfl, rfl⟩)

/-- An exclusive open has an answer. -/
theorem total_exclusive : exclusive.Total := by
  intro existing name
  by_cases hmem : name ∈ existing
  · exact ⟨⟨-1, Errno.eexist.code⟩, existing, .inl ⟨hmem, by decide, rfl, rfl⟩⟩
  · exact ⟨⟨0, 0⟩, insert name existing, .inr (.inl ⟨hmem, Int32.le_refl 0, rfl⟩)⟩

end

/-! ### A whole call -/

variable {pattern : List UInt8} {existing existing' : Set (List UInt8)} {tr : List (Event ExclusiveOpens)}

/-- A template that ends in its six letters has six letters. -/
theorem six_le_length (hxs : endsInXs pattern = true) : 6 ≤ pattern.length := by
  unfold endsInXs at hxs
  by_contra hlt
  rw [decide_eq_true (Nat.not_le.mp hlt), Bool.true_or] at hxs
  cases hxs

/-- The stem is all but those. -/
theorem length_stem (hlength : 6 ≤ pattern.length) : (stem pattern).length + 6 = pattern.length := by
  rw [stem, List.length_take]
  omega

/-- It does not depend on them. -/
theorem stem_append {back : List UInt8} (hback : back.length = 6) (front : List UInt8) : stem (front ++ back) = front := by
  rw [stem, List.length_append, hback, Nat.add_sub_cancel, List.take_left]

/-- The search of a call starts with the pattern itself. -/
theorem searched_of_runs {n : Nat} {o : Outcome Stemp} (hlength : 6 ≤ pattern.length)
    (hrun : Runs exclusive (tryNames n 0 pattern) existing tr o existing') : Searched (stem pattern) existing 0 n tr o existing' := by
  have hsplit : stem pattern ++ pattern.drop (pattern.length - 6) = pattern := List.take_append_drop _ _
  have hdrop : (pattern.drop (pattern.length - 6)).length = 6 := by
    rw [List.length_drop]
    omega
  have hwp : wp exclusive (tryNames n 0 (stem pattern ++ pattern.drop (pattern.length - 6))) (Searched (stem pattern) existing 0 n)
      existing := wp_tryNames hdrop
  rw [hsplit] at hwp
  exact hrun.of_wp hwp

/-- A name in place of the template is as long and has the same stem. -/
theorem length_of_stem {r : Stemp} {back : List UInt8} (hlength : 6 ≤ pattern.length) (hpattern : r.pattern = stem pattern ++ back)
    (hback : back.length = 6) : r.pattern.length = pattern.length ∧ stem r.pattern = stem pattern := by
  constructor
  · rw [hpattern, List.length_append, hback, length_stem hlength]
  · rw [hpattern, stem_append hback]

/-- A search that ended was not given up. -/
theorem not_eexist_of_endedAt {name : Nat → List UInt8} {k : Nat} {r : Stemp} (h : EndedAt name existing k tr r existing') :
    ¬(r.fd = -1 ∧ r.errno = Errno.eexist.code) := by
  obtain ⟨-, before, opened, -, -, herrno, ⟨hfd, hr, -⟩ | ⟨-, hother, -⟩⟩ := h
  · rintro ⟨hneg, -⟩
    rw [← hr, hneg] at hfd
    revert hfd
    decide
  · rintro ⟨-, heexist⟩
    exact hother (herrno.symm.trans heexist)

/-- How a search ends is decided by the first name that does not exist. -/
theorem search_spec {name : Nat → List UInt8} {n : Nat} {r : Stemp}
    (h : ((∀ j < n, name j ∈ existing) ∧ r.fd = -1 ∧ r.errno = Errno.eexist.code ∧ existing' = existing ∧
        tr.map Sigma.fst = (List.range n).map name) ∨
      ∃ k < n, (∀ j < k, name j ∈ existing) ∧ name k ∉ existing ∧ EndedAt name existing k tr r existing') :
    (r.fd = -1 ∧ r.errno = Errno.eexist.code ↔ ∀ j < n, name j ∈ existing) ∧
    ((∀ j < n, name j ∈ existing) → tr.map Sigma.fst = (List.range n).map name ∧ existing' = existing) ∧
    ∀ k < n, (∀ j < k, name j ∈ existing) → name k ∉ existing → EndedAt name existing k tr r existing' := by
  rcases h with ⟨hall, hfd, herrno, hexisting, htr⟩ | ⟨k, hk, hbefore, hnot, hended⟩
  · exact ⟨⟨fun _ => hall, fun _ => ⟨hfd, herrno⟩⟩, fun _ => ⟨htr, hexisting⟩, fun k hk _ hnot => absurd (hall k hk) hnot⟩
  · refine ⟨⟨fun h => absurd h (not_eexist_of_endedAt hended), fun hall => absurd (hall k hk) hnot⟩,
      fun hall => absurd (hall k hk) hnot, ?_⟩
    intro k' _ hbefore' hnot'
    rcases Nat.lt_trichotomy k k' with hlt | rfl | hlt
    · exact absurd (hbefore' k hlt) hnot
    · exact hended
    · exact absurd (hbefore k' hlt) hnot'

end MkstempAux

open MkstempAux in
/-- The names that `mkstemp` may try are pairwise different and differ from the pattern in the last six bytes only, which are letters of the
alphabet. A call always returns. Without the six Xs it fails with `EINVAL`, tries no name and leaves the buffer as it is; with them it
tries the names in their order up to the first one that does not exist, which is left in the buffer, and returns what `open` gave for it.
It fails with `EEXIST` exactly when all names exist. -/
theorem mkstemp_spec (pattern : List UInt8) (existing : Set (List UInt8)) :
    (((List.range (36 ^ 3)).map (candidate pattern)).Nodup ∧
      ∀ attempt, ∃ letters, candidate pattern attempt = stem pattern ++ letters ∧ letters.length = 6 ∧ ∀ x ∈ letters, x ∈ alphabet) ∧
    (∃ tr o existing', Runs exclusive (waasmtimeMysqlMkstemp pattern) existing tr o existing') ∧
    ∀ tr o existing', Runs exclusive (waasmtimeMysqlMkstemp pattern) existing tr o existing' → ∃ r, o = .returned r ∧
      r.pattern.length = pattern.length ∧ stem r.pattern = stem pattern ∧
      (endsInXs pattern = false → r = ⟨-1, Errno.einval.code, pattern⟩ ∧ tr = [] ∧ existing' = existing) ∧
      (endsInXs pattern = true →
        (r.fd = -1 ∧ r.errno = Errno.eexist.code ↔ ∀ attempt < 36 ^ 3, candidate pattern attempt ∈ existing) ∧
        ((∀ attempt < 36 ^ 3, candidate pattern attempt ∈ existing) →
          tr.map Sigma.fst = (List.range (36 ^ 3)).map (candidate pattern) ∧ existing' = existing) ∧
        ∀ k < 36 ^ 3, (∀ j < k, candidate pattern j ∈ existing) → candidate pattern k ∉ existing →
          EndedAt (candidate pattern) existing k tr r existing') := by
  refine ⟨⟨nodup_candidates pattern, ?_⟩, ?_, ?_⟩
  · intro attempt
    exact ⟨attemptLetters attempt, rfl, length_attemptLetters attempt, fun _ => mem_alphabet_of_mem_attemptLetters⟩
  · obtain ⟨tr, o, existing', hrun, -⟩ := total_exclusive.exists_runs (Q := fun _ _ _ => True) (wp_iff_runs.mpr fun _ _ _ _ => trivial)
    exact ⟨tr, o, existing', hrun⟩
  · intro tr o existing' hrun
    cases hxs : endsInXs pattern with
    | false =>
      rw [waasmtimeMysqlMkstemp, hxs] at hrun
      cases hrun
      exact ⟨_, rfl, rfl, rfl, fun _ => ⟨rfl, rfl, rfl⟩, nofun⟩
    | true =>
      rw [waasmtimeMysqlMkstemp, hxs] at hrun
      obtain ⟨r, back, rfl, hpattern, hback, hsearch⟩ := searched_of_runs (six_le_length hxs) hrun
      obtain ⟨hlength, hstem⟩ := length_of_stem (six_le_length hxs) hpattern hback
      refine ⟨r, rfl, hlength, hstem, nofun, fun _ => ?_⟩
      simp only [Nat.zero_add] at hsearch
      exact search_spec hsearch

end WasmtimeMysql
