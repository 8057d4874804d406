import WasmtimeMysql.Lemmas.Paths

/-!
# Unix paths by their components

A Unix path is kept as its text. What `PathBuf::push` and `Path::parent` do to the text is here said of its components: pushing an
ordinary component appends it, and the parent lacks the last component.
-/

namespace WasmtimeMysql

open Effects Split

/-! ## `PathBuf::push` -/

/-- A piece without a slash is its own split. -/
theorem splitOn_of_notMem {c : Str} (h : '/' ∉ c) : c.splitOn '/' = [c] := by
  have hs : (['/'].intercalate [c]).splitOn '/' = [c] := List.splitOn_intercalate '/' (by simpa using h) (by simp)
  simpa using hs

/-- Whether a path is absolute is seen at its start. -/
theorem startsWithSlash_append {p : Str} (hp : p ≠ []) (t : Str) : Str.startsWithSlash (p ++ t) = p.startsWithSlash := by
  cases p with
  | nil => exact absurd rfl hp
  | cons c p => rfl

/-- An ordinary piece is a normal component, ... -/
theorem pieceComponent_ordinary {c : Str} (h : Ordinary c) : pieceComponent c = some (.normal c) := by
  unfold pieceComponent
  rw [if_neg (by rintro (rfl | rfl); exacts [h.1 rfl, h.2.2.1 rfl]), if_neg h.2.2.2]

/-- ... and not absolute. -/
theorem startsWithSlash_ordinary {c : Str} (h : Ordinary c) : Str.startsWithSlash c = false := by
  cases c with
  | nil => rfl
  | cons a c =>
    have ha : a ≠ '/' := fun ha => h.2.1 (by rw [ha]; exact List.mem_cons_self)
    simp [Str.startsWithSlash, ha]

/-- The components of a path and one more ordinary piece after a slash. -/
theorem unixComponents_append_slash {q c : Str} (hc : Ordinary c) (hq : q ≠ []) :
    unixComponents (q ++ '/' :: c) = unixComponents q ++ [.normal c] := by
  have hsplit : (q ++ '/' :: c).splitOn '/' = q.splitOn '/' ++ [c] := by
    rw [List.splitOn_append_cons_self, splitOn_of_notMem hc.2.1]
  have hhead : (q.splitOn '/' ++ [c]).head? = (q.splitOn '/').head? := by
    rw [List.head?_append_of_ne_nil _ (List.splitOn_ne_nil _ _)]
  unfold unixComponents
  rw [hsplit, hhead, startsWithSlash_append hq, List.filterMap_append, List.append_assoc]
  simp [pieceComponent_ordinary hc]

/-- A trailing slash shows in no component. -/
theorem unixComponents_trailing_slash {q : Str} (hq : q ≠ []) : unixComponents (q ++ ['/']) = unixComponents q := by
  have hsplit : (q ++ ['/']).splitOn '/' = q.splitOn '/' ++ [[]] := by
    rw [List.splitOn_append_cons_self]
    rfl
  have hhead : (q.splitOn '/' ++ [[]]).head? = (q.splitOn '/').head? := by
    rw [List.head?_append_of_ne_nil _ (List.splitOn_ne_nil _ _)]
  unfold unixComponents
  rw [hsplit, hhead, startsWithSlash_append hq, List.filterMap_append]
  simp [pieceComponent]

/-- Pushing an ordinary component onto a path appends it. -/
theorem unixComponents_push {p c : Str} (hp : p ≠ []) (hc : Ordinary c) :
    unixComponents (unixPush p c) = unixComponents p ++ [.normal c] := by
  unfold unixPush
  rw [if_neg (by simp [startsWithSlash_ordinary hc])]
  by_cases hlast : p.getLast? = some '/'
  · rw [if_neg (by simp [hlast])]
    obtain ⟨q, rfl⟩ := List.getLast?_eq_some_iff.mp hlast
    rw [List.append_assoc, List.singleton_append]
    cases q with
    | nil =>
      -- the root itself: the pushed text starts with the slash of the root
      have hsplit : ('/' :: c).splitOn '/' = [[], c] := by rw [splitOn_cons_self, splitOn_of_notMem hc.2.1]
      have hcomp : [[], c].filterMap pieceComponent = [.normal c] := by
        rw [List.filterMap_cons_none rfl, List.filterMap_cons_some (pieceComponent_ordinary hc), List.filterMap_nil]
      rw [List.nil_append]
      unfold unixComponents
      rw [hsplit, hcomp]
      rfl
    | cons a q =>
      rw [unixComponents_append_slash hc (by simp), unixComponents_trailing_slash (by simp)]
  · rw [if_pos ⟨hp, hlast⟩, unixComponents_append_slash hc hp]

/-- Nothing becomes empty by a push, ... -/
theorem unixPush_ne_nil {p c : Str} (hp : p ≠ []) (hc : Ordinary c) : unixPush p c ≠ [] := by
  unfold unixPush
  rw [if_neg (by simp [startsWithSlash_ordinary hc])]
  split <;> simp [hp]

/-- ... nor by many. -/
theorem foldl_push_ne_nil {comps : List Str} : ∀ {p : Str}, p ≠ [] → (∀ c ∈ comps, Ordinary c) → comps.foldl unixPush p ≠ [] := by
  induction comps with
  | nil => exact fun hp _ => hp
  | cons c comps ih =>
    intro p hp hc
    exact ih (unixPush_ne_nil hp (hc c List.mem_cons_self)) fun d hd => hc d (List.mem_cons_of_mem _ hd)

/-- Pushing ordinary components one after another appends them all. -/
theorem unixComponents_foldl_push {comps : List Str} : ∀ {p : Str}, p ≠ [] → (∀ c ∈ comps, Ordinary c) →
    unixComponents (comps.foldl unixPush p) = unixComponents p ++ comps.map .normal := by
  induction comps with
  | nil => simp
  | cons c comps ih =>
    intro p hp hc
    have hord := hc c List.mem_cons_self
    rw [List.foldl_cons, ih (unixPush_ne_nil hp hord) (fun d hd => hc d (List.mem_cons_of_mem _ hd)),
      unixComponents_push hp hord, List.append_assoc, List.map_cons, List.singleton_append]

/-! ## `Path::parent` -/

/-- The components that the pieces of a path stand for; `root` says whether a slash came before them. -/
def pieceComponents (root : Bool) (pieces : List Str) : List Component :=
  (if root then [.rootDir] else if pieces.head? = some ['.'] then [.curDir] else []) ++ pieces.filterMap pieceComponent

/-- The pieces of a path, without the empty one before the root. -/
def unixPieces (path : Str) : List Str := if path.startsWithSlash then (path.splitOn '/').tail else path.splitOn '/'

/-- A piece that stands for no component. -/
def IsSkipped (piece : Str) : Bool := decide (piece = [] ∨ piece = ['.'])

/-- What is no component is skipped. -/
theorem pieceComponent_eq_none {piece : Str} : pieceComponent piece = none ↔ IsSkipped piece = true := by
  unfold pieceComponent IsSkipped
  split
  · rename_i h
    simp [h]
  · rename_i h
    split <;> simp [h]

/-- The components are those of the pieces, ... -/
theorem unixComponents_eq (path : Str) : unixComponents path = pieceComponents path.startsWithSlash (unixPieces path) := by
  unfold unixComponents pieceComponents unixPieces
  cases hroot : path.startsWithSlash with
  | false => simp
  | true =>
    cases path with
    | nil => cases hroot
    | cons a t =>
      obtain rfl : a = '/' := by simpa [Str.startsWithSlash] using hroot
      rw [splitOn_cons_self, List.filterMap_cons_none rfl]
      rfl

/-- Pieces that are skipped at the end show in no component. -/
theorem filterMap_rdropWhile (pieces : List Str) :
    (pieces.rdropWhile IsSkipped).filterMap pieceComponent = pieces.filterMap pieceComponent := by
  induction pieces using List.reverseRecOn with
  | nil => rfl
  | append_singleton pieces piece ih =>
    by_cases hskip : IsSkipped piece = true
    · rw [List.rdropWhile_concat_pos _ _ _ hskip, ih, List.filterMap_append,
        List.filterMap_cons_none (pieceComponent_eq_none.mpr hskip)]
      simp
    · rw [List.rdropWhile_concat_neg _ _ _ hskip]

/-- ... the first piece stays where one is left, ... -/
theorem head?_rdropWhile {pieces : List Str} (h : pieces.rdropWhile IsSkipped ≠ []) :
    (pieces.rdropWhile IsSkipped).head? = pieces.head? := by
  obtain ⟨rest, hrest⟩ := List.rdropWhile_prefix IsSkipped pieces
  have hhead : (pieces.rdropWhile IsSkipped ++ rest).head? = (pieces.rdropWhile IsSkipped).head? := List.head?_append_of_ne_nil _ h
  rw [hrest] at hhead
  exact hhead.symm

/-- Trimming takes pieces away at the end that stand for no component. -/
theorem trimPieces_cases (root : Bool) (pieces : List Str) :
    (root = false ∧ ∃ rest, pieces = ['.'] :: rest ∧ trimPieces root pieces = ['.'] :: rest.rdropWhile IsSkipped) ∨
    ((root = false → pieces.head? ≠ some ['.']) ∧ trimPieces root pieces = pieces.rdropWhile IsSkipped) := by
  cases pieces with
  | nil => exact .inr ⟨fun _ => nofun, rfl⟩
  | cons piece rest =>
    by_cases hdot : root = false ∧ piece = ['.']
    · obtain ⟨hroot, rfl⟩ := hdot
      refine .inl ⟨hroot, rest, rfl, ?_⟩
      rw [trimPieces, if_pos ⟨hroot, rfl⟩]
      rfl
    · refine .inr ⟨?_, ?_⟩
      · intro hroot hhead
        exact hdot ⟨hroot, Option.some.inj hhead⟩
      · rw [trimPieces, if_neg hdot]
        rfl

/-- ... and without the pieces at the end that are skipped they are the same. -/
theorem pieceComponents_trim (root : Bool) (pieces : List Str) :
    pieceComponents root (trimPieces root pieces) = pieceComponents root pieces := by
  rcases trimPieces_cases root pieces with ⟨-, rest, rfl, htrim⟩ | ⟨hhead, htrim⟩
  · rw [htrim]
    unfold pieceComponents
    rw [List.filterMap_cons, List.filterMap_cons, filterMap_rdropWhile]
    rfl
  · rw [htrim]
    unfold pieceComponents
    rw [filterMap_rdropWhile]
    cases root with
    | true => rfl
    | false =>
      have hdot := hhead rfl
      by_cases hnil : pieces.rdropWhile IsSkipped = []
      · simp [hnil, hdot]
      · rw [head?_rdropWhile hnil]

/-- The last piece after trimming stands for a component, unless only the leading `.` is left. -/
theorem trimPieces_last {root : Bool} {pieces init : List Str} {last : Str} (h : trimPieces root pieces = init ++ [last]) :
    IsSkipped last = false ∨ (root = false ∧ init = [] ∧ last = ['.']) := by
  have hlast {xs : List Str} (hxs : xs.rdropWhile IsSkipped = init ++ [last]) : IsSkipped last = false := by
    have hne : xs.rdropWhile IsSkipped ≠ [] := by simp [hxs]
    have hnot := List.rdropWhile_last_not IsSkipped xs hne
    simpa [hxs] using hnot
  rcases trimPieces_cases root pieces with ⟨hroot, rest, -, htrim⟩ | ⟨-, htrim⟩
  · rw [h] at htrim
    cases init with
    | nil =>
      obtain ⟨hdot, -⟩ := List.cons.inj htrim
      exact .inr ⟨hroot, rfl, hdot⟩
    | cons a init =>
      obtain ⟨-, htail⟩ := List.cons.inj htrim
      have hne : rest.rdropWhile IsSkipped ≠ [] := by simp [← htail]
      have hnot := List.rdropWhile_last_not IsSkipped rest hne
      exact .inl (by simpa [← htail] using hnot)
  · exact .inl (hlast (htrim.symm.trans h))

/-- Without its last piece, a trimmed path lacks its last component. -/
theorem pieceComponents_dropLast {root : Bool} {init : List Str} {last : Str}
    (h : IsSkipped last = false ∨ (root = false ∧ init = [] ∧ last = ['.'])) :
    pieceComponents root init = (pieceComponents root (init ++ [last])).dropLast := by
  rcases h with hlast | ⟨rfl, rfl, rfl⟩
  · obtain ⟨c, hc⟩ : ∃ c, pieceComponent last = some c := by
      cases hpiece : pieceComponent last with
      | none =>
        rw [pieceComponent_eq_none.mp hpiece] at hlast
        cases hlast
      | some c => exact ⟨c, rfl⟩
    have hfilter : (init ++ [last]).filterMap pieceComponent = init.filterMap pieceComponent ++ [c] := by
      rw [List.filterMap_append, List.filterMap_cons_some hc, List.filterMap_nil]
    unfold pieceComponents
    rw [hfilter, ← List.append_assoc, List.dropLast_concat]
    congr 1
    cases init with
    | nil =>
      have hdot : last ≠ ['.'] := by
        rintro rfl
        cases hlast
      simp [hdot]
    | cons a init => rfl
  · rfl

/-- The text of pieces shows their components. -/
theorem unixComponents_join {root : Bool} {pieces : List Str} (hslash : ∀ piece ∈ pieces, '/' ∉ piece)
    (hhead : root = false → pieces.head? ≠ some []) :
    unixComponents ((if root then ['/'] else []) ++ ['/'].intercalate pieces) = pieceComponents root pieces := by
  have hstart : Str.startsWithSlash ((if root then ['/'] else []) ++ ['/'].intercalate pieces) = root := by
    cases root with
    | true => rfl
    | false =>
      cases pieces with
      | nil => rfl
      | cons piece rest =>
        have hne : piece ≠ [] := fun hnil => hhead rfl (congrArg some hnil)
        obtain ⟨a, t, rfl⟩ := List.exists_cons_of_ne_nil hne
        have ha : a ≠ '/' := fun he => hslash _ List.mem_cons_self (he ▸ List.mem_cons_self)
        cases rest <;> simp [Str.startsWithSlash, List.intercalate, List.intersperse, ha]
  have hsplit : (['/'].intercalate pieces).splitOn '/' = if pieces = [] then [[]] else pieces := by
    split
    · rename_i hnil
      rw [hnil]
      rfl
    · rename_i hne
      exact List.splitOn_intercalate '/' hslash hne
  rw [unixComponents_eq, hstart]
  have hpieces : unixPieces ((if root then ['/'] else []) ++ ['/'].intercalate pieces) = if pieces = [] then [[]] else pieces := by
    unfold unixPieces
    rw [hstart]
    cases root with
    | true =>
      rw [if_pos rfl, if_pos rfl, List.singleton_append, splitOn_cons_self, hsplit]
      rfl
    | false => exact hsplit
  rw [hpieces]
  split
  · rename_i hnil
    rw [hnil]
    cases root <;> rfl
  · rfl

/-- Pieces have no slash, ... -/
theorem notMem_of_mem_trimPieces (root : Bool) {pieces : List Str} (h : ∀ piece ∈ pieces, '/' ∉ piece) :
    ∀ piece ∈ trimPieces root pieces, '/' ∉ piece := by
  intro piece hpiece
  rcases trimPieces_cases root pieces with ⟨-, rest, rfl, htrim⟩ | ⟨-, htrim⟩
  · rw [htrim] at hpiece
    rcases List.mem_cons.mp hpiece with rfl | hpiece
    · exact h _ List.mem_cons_self
    · exact h piece (List.mem_cons_of_mem _ ((List.rdropWhile_prefix IsSkipped rest).subset hpiece))
  · rw [htrim] at hpiece
    exact h piece ((List.rdropWhile_prefix IsSkipped pieces).subset hpiece)

/-- ... and do not begin with an empty one, ... -/
theorem head?_trimPieces {root : Bool} {pieces : List Str} (h : pieces.head? ≠ some []) : (trimPieces root pieces).head? ≠ some [] := by
  rcases trimPieces_cases root pieces with ⟨-, rest, rfl, htrim⟩ | ⟨-, htrim⟩
  · rw [htrim]
    exact fun he => absurd (Option.some.inj he) (by decide)
  · rw [htrim]
    by_cases hnil : pieces.rdropWhile IsSkipped = []
    · rw [hnil]
      exact nofun
    · rw [head?_rdropWhile hnil]
      exact h

/-- ... also without the last one. -/
theorem head?_dropLast {pieces : List Str} (h : pieces.head? ≠ some []) : pieces.dropLast.head? ≠ some [] := by
  cases pieces with
  | nil => exact h
  | cons a rest =>
    cases rest with
    | nil => exact nofun
    | cons b rest => exact h

/-- The pieces of a path. -/
theorem unixPieces_spec {path : Str} (hpath : path ≠ []) :
    (∀ piece ∈ unixPieces path, '/' ∉ piece) ∧ (path.startsWithSlash = false → (unixPieces path).head? ≠ some []) := by
  constructor
  · intro piece hpiece
    unfold unixPieces at hpiece
    split at hpiece
    · exact notMem_of_mem_splitOn (List.mem_of_mem_tail hpiece)
    · exact notMem_of_mem_splitOn hpiece
  · intro hstart
    obtain ⟨a, t, rfl⟩ := List.exists_cons_of_ne_nil hpath
    have ha : a ≠ '/' := by simpa [Str.startsWithSlash] using hstart
    unfold unixPieces
    rw [hstart, if_neg Bool.false_ne_true, List.splitOn_cons_eq_if_modifyHead, if_neg (by simpa using ha)]
    obtain ⟨piece, rest, hsplit⟩ := List.exists_cons_of_ne_nil (List.splitOn_ne_nil '/' t)
    rw [hsplit, List.modifyHead_cons]
    exact fun he => absurd (Option.some.inj he) (List.cons_ne_nil _ _)

/-- A path has a component, unless it is empty. -/
theorem unixComponents_ne_nil {path : Str} (hpath : path ≠ []) : unixComponents path ≠ [] := by
  obtain ⟨-, hhead⟩ := unixPieces_spec hpath
  rw [unixComponents_eq]
  unfold pieceComponents
  cases hroot : path.startsWithSlash with
  | true => exact List.cons_ne_nil _ _
  | false =>
    have hpieces : unixPieces path ≠ [] := by
      unfold unixPieces
      rw [hroot]
      exact List.splitOn_ne_nil '/' path
    obtain ⟨piece, rest, hsplit⟩ := List.exists_cons_of_ne_nil hpieces
    have hpiece : piece ≠ [] := fun hnil => hhead hroot (by rw [hsplit, hnil]; rfl)
    rw [hsplit]
    by_cases hdot : piece = ['.']
    · rw [hdot]
      exact List.cons_ne_nil _ _
    · have hsome : pieceComponent piece ≠ none := by
        intro hnone
        have hskip := pieceComponent_eq_none.mp hnone
        simp [IsSkipped, hpiece, hdot] at hskip
      obtain ⟨c, hc⟩ := Option.ne_none_iff_exists'.mp hsome
      rw [List.filterMap_cons_some hc]
      simp

/-- The parent of a path lacks its last component. Only a path without components, or the root, has none. -/
theorem unixParent_components {path : Str} (hpath : path ≠ []) :
    (∃ parent, unixParent path = some parent ∧ unixComponents parent = (unixComponents path).dropLast) ∨
    (unixParent path = none ∧ (unixComponents path = [] ∨ unixComponents path = [.rootDir])) := by
  obtain ⟨hslash, hhead⟩ := unixPieces_spec hpath
  have htrim := pieceComponents_trim path.startsWithSlash (unixPieces path)
  rw [← unixComponents_eq] at htrim
  have hparent : unixParent path =
      if trimPieces path.startsWithSlash (unixPieces path) = [] then none
      else some ((if path.startsWithSlash then ['/'] else []) ++
        ['/'].intercalate (trimPieces path.startsWithSlash (trimPieces path.startsWithSlash (unixPieces path)).dropLast)) := rfl
  rw [hparent]
  rcases List.eq_nil_or_concat' (trimPieces path.startsWithSlash (unixPieces path)) with hnil | ⟨init, last, hlast⟩
  · right
    rw [if_pos hnil]
    rw [hnil] at htrim
    refine ⟨rfl, ?_⟩
    rw [← htrim]
    cases path.startsWithSlash with
    | true => exact .inr rfl
    | false => exact .inl rfl
  · left
    refine ⟨_, if_neg (by simp [hlast]), ?_⟩
    have hinit : (trimPieces path.startsWithSlash (unixPieces path)).dropLast = init := by rw [hlast, List.dropLast_concat]
    have hslash' : ∀ piece ∈ init, '/' ∉ piece := by
      intro piece hpiece
      refine notMem_of_mem_trimPieces path.startsWithSlash hslash piece ?_
      rw [hlast]
      exact List.mem_append_left _ hpiece
    have hhead' : path.startsWithSlash = false → init.head? ≠ some [] := by
      intro hroot
      rw [← hinit]
      exact head?_dropLast (head?_trimPieces (hhead hroot))
    rw [hinit, unixComponents_join (notMem_of_mem_trimPieces _ hslash') fun hroot => head?_trimPieces (hhead' hroot),
      pieceComponents_trim, pieceComponents_dropLast (trimPieces_last hlast), ← hlast, htrim]

end WasmtimeMysql
