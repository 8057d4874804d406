import WasmtimeMysql.Lemmas.FileWp
import WasmtimeMysql.Lemmas.Preopens
import WasmtimeMysql.Lemmas.UnixPaths
import WasmtimeMysql.Lib.Discipline
import WasmtimeMysql.Lib.FileTree

/-!
# The paths that std is handed, and the host's directory tree

`open` and `sync_parent` hand std a path that `resolve` or `resolve_parent` returned (`handed_of_runs`). Such a path is the host path of a
preopen with names pushed onto it, or the parent of a host path that is below another one (`Handed.components`). What it leads to is the
host's matter: std opens it by walking the host's tree, and follows every symbolic link on the way.
-/

namespace WasmtimeMysql

open Effects

/-! ## The host's tree -/

/-- A step of a path on Unix, where there is no drive. -/
def Component.step : Component → PathStep Str
  | .drive _ => .stay
  | .rootDir => .root
  | .curDir => .stay
  | .parentDir => .up
  | .normal name => .name name

/-- The steps of a path on Unix. -/
def steps (path : Str) : List (PathStep Str) := (unixComponents path).map Component.step

/-- The host's directories, with the working directory of the runner. The names in a directory are ordinary. -/
structure HostTree extends FileTree Str where
  ordinary : ∀ l n, node (l ++ [n]) ≠ none → Ordinary n
  cwd : List Str
  cwd_dir : toFileTree.IsDir cwd

/-- std may open the path, and it is the file at this location, which is made if there is none. `create_new` makes a file where the last
name of the path is free, and does not follow it. -/
def HostTree.Opens (t : HostTree) (path : Str) (options : OpenOptions) (l : List Str) : Prop :=
  if options.createNew then t.Places t.cwd (steps path) l
  else t.Walks t.cwd (steps path) l ∧ (t.node l = none → options.create = true)

/-- The names on the way to a node are ordinary. -/
theorem HostTree.ordinary_of_node (t : HostTree) {l names : List Str} (h : t.node (l ++ names) ≠ none) : ∀ n ∈ names, Ordinary n := by
  induction names generalizing l with
  | nil => exact nofun
  | cons n names ih =>
    rw [← List.singleton_append, ← List.append_assoc] at h
    intro n' hn'
    rcases List.mem_cons.mp hn' with rfl | hn'
    · refine t.ordinary l n' ?_
      by_cases hnil : names = []
      · rwa [hnil, List.append_nil] at h
      · have hdir := FileTree.isDir_of_append hnil h
        rw [hdir]
        exact nofun
    · exact ih h n' hn'

/-- What std opens is where the path leads. -/
theorem HostTree.Opens.walks {t : HostTree} {path : Str} {options : OpenOptions} {l : List Str} (h : t.Opens path options l) :
    t.Walks t.cwd (steps path) l := by
  unfold HostTree.Opens at h
  split at h
  · exact h.walks
  · exact h.1

theorem map_step_normal (names : List Str) : (names.map Component.normal).map Component.step = names.map .name := by
  rw [List.map_map]
  rfl

/-! ## The paths -/

/-- A path that `resolve` returns for some guest path, or one that `resolve_parent` returns and `File::open` opens. -/
def Handed (preopens : List (PreopenMapping Str)) (path : Str) (options : OpenOptions) : Prop :=
  ∃ guestPath, resolve unixPaths preopens guestPath = .returned (.ok path) ∨
    (resolveParent unixPaths preopens guestPath = .returned (.ok path) ∧ options = { read := true })

/-- It is one of the host directories with ordinary names below it, or what one of them stands in, below another. -/
theorem Handed.components {cli : Cli} {currentDir : Except IoError HostDir} {preopens : List (PreopenMapping Str)} {path : Str}
    {options : OpenOptions} (hnew : newPreopens unixPaths cli currentDir = .ok preopens) (h : Handed preopens path options) :
    (∃ (dir : HostDir) (names : List Str), cli.Serves currentDir dir ∧ unixComponents path = unixComponents dir.text ++ names.map .normal) ∨
    (options = { read := true } ∧ ∃ dir dir', cli.Serves currentDir dir ∧ cli.Serves currentDir dir' ∧
      unixComponents path = (unixComponents dir.text).dropLast ∧ unixComponents dir'.text <+: (unixComponents dir.text).dropLast) := by
  have hresolve {guestPath p : Str} (hres : resolve unixPaths preopens guestPath = .returned (.ok p)) :
      p ≠ [] ∧ ∃ (dir : HostDir) (names : List Str), cli.Serves currentDir dir ∧
        unixComponents p = unixComponents dir.text ++ names.map .normal := by
    obtain ⟨parts, hparts, pre, hpre, names, hsuffix, rfl⟩ := resolve_ok hres
    obtain ⟨dir, hserves, hhost⟩ := mem_newPreopens hnew pre hpre
    have hord : ∀ c ∈ names, Ordinary c := fun c hc => normalParts_ordinary hparts c (hsuffix.subset hc)
    rw [hhost]
    exact ⟨foldl_push_ne_nil dir.text_ne hord, dir, names, hserves, unixComponents_foldl_push dir.text_ne hord⟩
  obtain ⟨guestPath, hres | ⟨hres, hoptions⟩⟩ := h
  · exact .inl (hresolve hres).2
  · unfold resolveParent at hres
    split at hres
    · cases hres
    · cases hres
    · rename_i p hp
      obtain ⟨hne, dir, names, hserves, hcomps⟩ := hresolve hp
      rcases unixParent_components hne with ⟨parent, hparent, hdropped⟩ | ⟨hnone, -⟩
      · simp only [hparent] at hres
        split at hres
        · rename_i hany
          cases hres
          rcases List.eq_nil_or_concat names with rfl | ⟨init, last, rfl⟩
          · obtain ⟨pre', hpre', hbelow⟩ := List.any_eq_true.mp hany
            obtain ⟨dir', hserves', hhost'⟩ := mem_newPreopens hnew pre' hpre'
            rw [List.map_nil, List.append_nil] at hcomps
            rw [List.isPrefixOf_iff_prefix, hdropped, hcomps, hhost'] at hbelow
            exact .inr ⟨hoptions, dir, dir', hserves, hserves', by rw [hdropped, hcomps], hbelow⟩
          · refine .inl ⟨dir, init, hserves, ?_⟩
            rw [hdropped, hcomps, List.concat_eq_append, List.map_append, ← List.append_assoc]
            exact List.dropLast_concat
        · cases hres
      · simp only [hnone] at hres
        cases hres

/-! ## What the imports hand to std -/

namespace HandedAux

/-- The preopens are these, and std is handed only what they resolve to. -/
def handing (preopens : List (PreopenMapping Str)) : Discipline Unix.Files Unit where
  allows _
    | .inr (.inr (.inl (.openFile path options))) => Handed preopens path options
    | _ => True
  relies
    | .inr (.inl .preopens), found => found = preopens
    | _, _ => True
  next f _ _ := f

variable {preopens : List (PreopenMapping Str)} (lc : Libc)

/-- A result that may be a panic. -/
theorem obeys_ofOutcome {α β : Type} {o : Outcome α} {k : α → FileProg Str Unix.FileHost β}
    (hk : ∀ a, o = .returned a → (k a).Obeys (handing preopens) (fun _ _ => True) ()) :
    (ofOutcome o >>= k).Obeys (handing preopens) (fun _ _ => True) () := by
  cases o with
  | returned a => exact hk a rfl
  | panicked => trivial

theorem handing_insertFile (file : File) : (HostFiles.insertFile file : FileProg Str Unix.FileHost _).Obeys (handing preopens)
    (fun _ _ => True) () := by
  refine Prog.obeys_bind.mpr ⟨trivial, ?_⟩
  rintro ⟨fd, _ | old⟩ _
  · trivial
  · exact ⟨trivial, fun _ _ => trivial⟩

theorem handing_openFile (pathPtr flags : Int32) : (Unix.openFile lc pathPtr flags).Obeys (handing preopens) (fun _ _ => True) () := by
  refine Prog.obeys_bind.mpr ⟨trivial, ?_⟩
  rintro (errno | path) _
  · trivial
  · unfold HostFiles.openHost HostFiles.resolve
    rw [Prog.Obeys]
    simp only [bind_assoc]
    refine Prog.obeys_bind.mpr ⟨trivial, ?_⟩
    rintro found rfl
    refine obeys_ofOutcome ?_
    rintro (errno | hostPath) hres
    · trivial
    · simp only
      split
      · trivial
      · simp only [bind_assoc]
        refine Prog.obeys_bind.mpr ⟨⟨path, .inl hres⟩, ?_⟩
        rintro (err | file) _
        · trivial
        · exact handing_insertFile file

theorem handing_syncParent (pathPtr : Int32) : (Unix.syncParent lc pathPtr).Obeys (handing preopens) (fun _ _ => True) () := by
  refine Prog.obeys_bind.mpr ⟨trivial, ?_⟩
  rintro (errno | path) _
  · trivial
  · unfold HostFiles.resolveParent
    rw [Prog.Obeys]
    simp only [bind_assoc]
    refine Prog.obeys_bind.mpr ⟨trivial, ?_⟩
    rintro found rfl
    refine obeys_ofOutcome ?_
    rintro (errno | parent) hres
    · trivial
    · refine Prog.obeys_bind.mpr (Prog.obeys_bind.mpr ⟨⟨path, .inr ⟨hres, rfl⟩⟩, ?_⟩)
      rintro (err | directory) _
      · trivial
      · refine Prog.obeys_bind.mpr ⟨trivial, fun result _ => ?_⟩
        exact Prog.obeys_bind.mpr ⟨trivial, fun _ _ => trivial⟩

/-- The table keeps its preopens. -/
theorem handing_step {γ κ : Type} {G : Machine GuestMem γ} {K : Machine ((Fs Str).sum Unix.FileHost) κ}
    {s s' : γ × (HostFilesInner Str × κ)} {c : Unix.Files.Cmd} {r : Unix.Files.Resp c} (hs : s.2.1.preopens = preopens)
    (hm : fileMachine G K s c r s') : (handing preopens).relies c r ∧ s'.2.1.preopens = preopens := by
  rcases c with c | (_ | c) | c
  · obtain ⟨-, hrest⟩ := hm
    exact ⟨trivial, by rw [hrest, hs]⟩
  · obtain ⟨hr, ha⟩ := Machine.eq_of_det (S := HostFilesInner.Sig Str) hm.1.1
    exact ⟨hr.trans hs, by rw [ha]; exact hs⟩
  · obtain ⟨-, ha⟩ := Machine.eq_of_det (S := HostFilesInner.Sig Str) hm.1.1
    exact ⟨trivial, by rw [ha]; exact hs⟩
  · have ha : s'.2.1 = s.2.1 := hm.1.2
    refine ⟨trivial, ?_⟩
    rw [ha, hs]

end HandedAux

open HandedAux in
/-- `open` and `sync_parent` hand std only what the preopens resolve to. -/
theorem handed_of_runs {γ κ : Type} {G : Machine GuestMem γ} {K : Machine ((Fs Str).sum Unix.FileHost) κ} {lc : Libc} {c : FileImport}
    (hc : (∃ pathPtr flags mode, c = .openFile pathPtr flags mode) ∨ ∃ pathPtr, c = .syncParent pathPtr)
    {s s' : γ × (HostFilesInner Str × κ)} {tr : List (Event Unix.Files)} {o : Outcome Int64}
    (hrun : Runs (fileMachine G K) (Unix.fileProg lc c) s tr o s') {path : Str} {options : OpenOptions} {r : Except IoError File}
    (hev : (⟨.inr (.inr (.inl (.openFile path options))), r⟩ : Event Unix.Files) ∈ tr) :
    Handed s.2.1.preopens path options := by
  have hobeys : (Unix.fileProg lc c).Obeys (handing s.2.1.preopens) (fun _ _ => True) () := by
    rcases hc with ⟨pathPtr, flags, mode, rfl⟩ | ⟨pathPtr, rfl⟩
    · exact Prog.obeys_map.mpr (handing_openFile lc pathPtr flags)
    · exact Prog.obeys_map.mpr (handing_syncParent lc pathPtr)
  obtain ⟨_, hallows⟩ := hobeys.allows_of_mem (I := fun s' => s'.2.1.preopens = s.2.1.preopens)
    (fun _ _ _ _ hs hm => handing_step hs hm) hrun rfl _ hev
  exact hallows

end WasmtimeMysql
