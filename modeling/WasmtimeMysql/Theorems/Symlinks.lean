import WasmtimeMysql.Lemmas.HostTree

/-!
# The sandbox and symbolic links

The runner checks paths as text and hands them to std, which follows every symbolic link on the way. Which locations the guest gets at is
then a matter of the tree: the sandbox holds for exactly the host directories whose links do not lead out of them, as long as no host path
leaves another one again by a `..` (`confined_iff`). A link that leads out takes the guest with it (`open_not_confined`); through WASI a
guest can make one, and the same link is refused there.
-/

namespace WasmtimeMysql

open Effects StableSort

/-- The location lies in one of these host directories. -/
def Within (t : HostTree) (hosts : List HostDir) (l : List Str) : Prop :=
  ∃ dir ∈ hosts, ∃ d, t.Walks t.cwd (steps dir.text) d ∧ d <+: l

/-- The sandbox: whatever the guest passes to `open` or `sync_parent`, what std opens for it lies in one of these host directories. -/
def Confined (lc : Libc) (t : HostTree) (hosts : List HostDir) (preopens : List (PreopenMapping Str)) : Prop :=
  ∀ c files tr o s', ((∃ pathPtr flags mode, c = .openFile pathPtr flags mode) ∨ ∃ pathPtr, c = .syncParent pathPtr) →
    Runs (fileMachine .any .any) (Unix.fileProg lc c) ((), ⟨preopens, files⟩, ()) tr o s' →
    ∀ path options file, (⟨.inr (.inr (.inl (.openFile path options))), .ok file⟩ : Event Unix.Files) ∈ tr →
      ∀ l, t.Opens path options l → Within t hosts l

/-- A directory in which one of the host directories stands, and which is another one or below it as text, lies in one of them. -/
def ParentsInside (t : HostTree) (hosts : List HostDir) : Prop :=
  ∀ dir ∈ hosts, ∀ dir' ∈ hosts, unixComponents dir'.text <+: (unixComponents dir.text).dropLast →
    ∀ l, t.Walks t.cwd ((unixComponents dir.text).dropLast.map Component.step) l → t.node l ≠ none → Within t hosts l

namespace SymlinksAux

variable {t : HostTree} {hosts : List HostDir}

/-! ### Links that stay -/

theorem within_name (l : List Str) (n : Str) (h : Within t hosts l) : Within t hosts (l ++ [n]) := by
  obtain ⟨dir, hdir, d, hwalk, hd⟩ := h
  exact ⟨dir, hdir, d, hwalk, hd.trans (List.prefix_append l [n])⟩

/-- The sandbox, from what the tree and the host paths are like. -/
theorem confined_of_linksStay {lc : Libc} (hlinks : t.LinksStay (Within t hosts)) (hparents : ParentsInside t hosts) {cli : Cli}
    {currentDir : Except IoError HostDir} {preopens : List (PreopenMapping Str)} (hhosts : ∀ dir, cli.Serves currentDir dir ↔ dir ∈ hosts)
    (hnew : newPreopens unixPaths cli currentDir = .ok preopens) : Confined lc t hosts preopens := by
  intro c files tr o s' hc hrun path options file hev l hopens
  have hwalk := hopens.walks
  have hhanded := handed_of_runs hc hrun hev
  rcases hhanded.components hnew with ⟨dir, names, hserves, hpath⟩ | ⟨hread, dir, dir', hserves, hserves', hpath, hbelow⟩
  · rw [steps, hpath, List.map_append, map_step_normal] at hwalk
    by_cases hnil : names = []
    · rw [hnil, List.map_nil, List.append_nil] at hwalk
      exact ⟨dir, (hhosts dir).mp hserves, l, hwalk, List.prefix_refl l⟩
    · obtain ⟨d, hfirst, hd, hlast⟩ := hwalk.split t.cwd_dir fun heq => hnil (List.map_eq_nil_iff.mp heq)
      have hinside : Within t hosts d := ⟨dir, (hhosts dir).mp hserves, d, hfirst, List.prefix_refl d⟩
      exact hlinks.walks within_name hinside hd hlast
  · rw [steps, hpath] at hwalk
    refine hparents dir ((hhosts dir).mp hserves) dir' ((hhosts dir').mp hserves') hbelow l hwalk fun hnone => ?_
    rw [hread] at hopens
    exact absurd (hopens.2 hnone) Bool.false_ne_true

/-! ### A flag for each host directory -/

/-- The flags that serve one of the directories at `/g` and the others at `/o`. -/
def flagsAt (hosts : List HostDir) (dir : HostDir) : List Preopen :=
  hosts.map fun h => ⟨h, if h.text = dir.text then ['/', 'g'] else ['/', 'o'], by split <;> exact List.cons_ne_nil _ _⟩

/-- Their preopens, before they are sorted. -/
def givenAt (hosts : List HostDir) (dir : HostDir) : List (PreopenMapping Str) :=
  hosts.map fun h => ⟨if h.text = dir.text then ['/', 'g'] else ['/', 'o'], h.text⟩

theorem serves_flagsAt (dir dir' : HostDir) (currentDir : Except IoError HostDir) :
    Cli.Serves ⟨true, flagsAt hosts dir⟩ currentDir dir' ↔ dir' ∈ hosts := by
  constructor
  · rintro (⟨hflag, -⟩ | ⟨p, hp, rfl⟩)
    · cases hflag
    · obtain ⟨h, hh, rfl⟩ := List.mem_map.mp hp
      exact hh
  · intro hdir
    exact .inr ⟨_, List.mem_map_of_mem hdir, rfl⟩

theorem newPreopens_flagsAt (dir : HostDir) (currentDir : Except IoError HostDir) :
    newPreopens unixPaths ⟨true, flagsAt hosts dir⟩ currentDir = .ok (sortDesc guestLen (givenAt hosts dir)) := by
  have hgiven : givenPreopens unixPaths ⟨true, flagsAt hosts dir⟩ currentDir = .ok (givenAt hosts dir) := by
    refine givenPreopens_ok_iff.mpr ⟨[], _, rfl, rfl, ?_⟩
    refine List.forall₂_map_left_iff.mpr (List.forall₂_map_right_iff.mpr (List.forall₂_same.mpr fun h _ => ?_))
    by_cases heq : h.text = dir.text
    · simp only [mapPreopen, if_pos heq]
      rfl
    · simp only [mapPreopen, if_neg heq]
      rfl
  rw [newPreopens_eq, hgiven]
  rfl

theorem normal_givenAt (dir : HostDir) : ∀ pre ∈ givenAt hosts dir, Normal pre.guest := by
  intro pre hpre
  obtain ⟨h, -, rfl⟩ := List.mem_map.mp hpre
  simp only
  split <;> rfl

/-- A path below `/g` resolves to a path below the directory that is served there. -/
theorem resolve_below {dir : HostDir} (hdir : dir ∈ hosts) {names : List Str} (hnames : ∀ n ∈ names, Ordinary n) :
    resolve unixPaths (sortDesc guestLen (givenAt hosts dir)) (spell true (['g'] :: names)) =
      .returned (.ok (names.foldl unixPush dir.text)) := by
  have hord : ∀ n ∈ ['g'] :: names, Ordinary n := by
    intro n hn
    rcases List.mem_cons.mp hn with rfl | hn
    · decide
    · exact hnames n hn
  have hparts : suffixParts (spell true (['g'] :: names)) = ['g'] :: names := suffixParts_spell hord
  have habs : (spell true (['g'] :: names)).startsWithSlash = true := startsWithSlash_spell hord
  have hg : suffixParts ['/', 'g'] = [['g']] := by decide
  have ho : suffixParts ['/', 'o'] = [['o']] := by decide
  have hcovers (h : HostDir) :
      Covers (if h.text = dir.text then ['/', 'g'] else ['/', 'o']) (spell true (['g'] :: names)) ↔ h.text = dir.text := by
    unfold Covers
    rw [hparts, habs]
    split
    · rename_i heq
      rw [hg]
      exact iff_of_true ⟨⟨names, rfl⟩, .inl rfl⟩ heq
    · rename_i hne
      rw [ho]
      refine iff_of_false ?_ hne
      rintro ⟨⟨rest, hrest⟩, -⟩
      exact absurd (List.cons.inj hrest).1 (by decide)
  rw [resolve_sorted (normal_givenAt dir) (normal_spell hord)]
  cases hfind : (sortDesc (@guestLen unixPaths) (givenAt hosts dir)).find?
      fun pre => decide (Covers pre.guest (spell true (['g'] :: names))) with
  | none =>
    have hmem : (⟨if dir.text = dir.text then ['/', 'g'] else ['/', 'o'], dir.text⟩ : PreopenMapping Str) ∈
        sortDesc (@guestLen unixPaths) (givenAt hosts dir) := mem_sortDesc.mpr (List.mem_map_of_mem hdir)
    exact absurd (decide_eq_true ((hcovers dir).mpr rfl)) (List.find?_eq_none.mp hfind _ hmem)
  | some pre =>
    have hfound : Covers pre.guest (spell true (['g'] :: names)) := by simpa using List.find?_some hfind
    obtain ⟨h, -, rfl⟩ := List.mem_map.mp (mem_sortDesc.mp (List.mem_of_find?_eq_some hfind))
    have hcov := (hcovers h).mp hfound
    simp only [resolved, below, hparts, if_true, hg, hcov]
    rfl

/-! ### What the guest can pass -/

section
variable {lc : Libc} {preopens : List (PreopenMapping Str)} {guestPath path : Str} {l : List Str}

/-- The guest can have `open` hand std any path that `resolve` returns. -/
theorem inside_of_open (h : Confined lc t hosts preopens) (hres : resolve unixPaths preopens guestPath = .returned (.ok path))
    {flags : Int32} (hflags : flags &&& wasiODirectory = 0) (hopens : t.Opens path (openOptions flags) l) : Within t hosts l := by
  have hwp := wp_iff_runs.mpr fun tr o s' hrun hev =>
    h (.openFile 0 flags 0) (.empty fileFdBase File) tr o s' (.inl ⟨_, _, _, rfl⟩) hrun path (openOptions flags) ⟨0⟩ hev l hopens
  simp only [Unix.fileProg, wp_map, Unix.openFile, wp_bind, wp_readCstr_any] at hwp
  have hread := hwp (.ok guestPath) () trivial
  simp only [wpNext_returned, wp_bind, HostFiles.openHost, HostFiles.resolve, wp_getPreopens, wp_ofOutcome, hres, hflags, ne_eq,
    not_true_eq_false, if_false, wp_fs] at hread
  have hopen := hread (.ok ⟨0⟩) () trivial
  simp only [Prog.pure_eq, wp_ret, wpNext_returned, HostFiles.insertFile, wp_bind, wp_filesInsert] at hopen
  exact hopen (by simp)

/-- And `sync_parent` any path that `resolve_parent` returns. -/
theorem inside_of_syncParent (h : Confined lc t hosts preopens)
    (hres : resolveParent unixPaths preopens guestPath = .returned (.ok path)) (hopens : t.Opens path { read := true } l) :
    Within t hosts l := by
  have hwp := wp_iff_runs.mpr fun tr o s' hrun hev =>
    h (.syncParent 0) (.empty fileFdBase File) tr o s' (.inr ⟨_, rfl⟩) hrun path { read := true } ⟨0⟩ hev l hopens
  simp only [Unix.fileProg, wp_map, Unix.syncParent, wp_bind, wp_readCstr_any] at hwp
  have hread := hwp (.ok guestPath) () trivial
  simp only [wpNext_returned, wp_bind, HostFiles.resolveParent, wp_getPreopens, wp_ofOutcome, hres, Unix.syncDirectory, wp_fs] at hread
  have hopen := hread (.ok ⟨0⟩) () trivial
  simp only [Prog.pure_eq, wp_ret, wpNext_returned, wp_bind, wp_fs] at hopen
  exact hopen (.ok ()) () trivial () () trivial (by simp)

end

/-- Any location that a path leads to is opened with some flags. -/
theorem exists_flags {path : Str} {l : List Str} (h : t.Walks t.cwd (steps path) l) :
    ∃ flags, flags &&& wasiODirectory = 0 ∧ t.Opens path (openOptions flags) l := by
  cases hnode : t.node l with
  | some node => exact ⟨0, by decide, h, fun hnone => nomatch hnode.symm.trans hnone⟩
  | none => exact ⟨wasiOCreat ||| wasiOWronly, by decide, h, fun _ => rfl⟩

/-- In the sandbox no link leads out: the guest could follow it. -/
theorem linksStay_of_confined {lc : Libc}
    (h : ∀ dir, Confined lc t hosts (sortDesc (@guestLen unixPaths) (givenAt hosts dir))) : t.LinksStay (Within t hosts) := by
  rintro cur n target l ⟨dir, hdir, d, hwalk, names, rfl⟩ hlink htarget
  have hne : t.node ((d ++ names) ++ [n]) ≠ none := by
    rw [hlink]
    exact nofun
  have hcur : t.IsDir (d ++ names) := t.parent _ _ hne
  have hord : ∀ x ∈ names ++ [n], Ordinary x := by
    rw [List.append_assoc] at hne
    exact t.ordinary_of_node hne
  have hlast : t.Walks (d ++ names) [.name n] l := by
    refine .link hlink ?_
    rwa [List.append_nil]
  have hpath : steps ((names ++ [n]).foldl unixPush dir.text) = steps dir.text ++ (names.map .name ++ [.name n]) := by
    rw [steps, unixComponents_foldl_push dir.text_ne hord, List.map_append, map_step_normal, List.map_append]
    rfl
  have hopened : t.Walks t.cwd (steps ((names ++ [n]).foldl unixPush dir.text)) l := by
    rw [hpath]
    exact hwalk.append (hcur.of_prefix (List.prefix_append _ _)) (hlast.down hcur)
  obtain ⟨flags, hflags, hopens⟩ := exists_flags hopened
  exact inside_of_open (h dir) (resolve_below hdir hord) hflags hopens

/-- And no host path stands in a directory that lies outside, if it is below another host path. -/
theorem parentsInside_of_confined {lc : Libc}
    (h : ∀ dir, Confined lc t hosts (sortDesc (@guestLen unixPaths) (givenAt hosts dir))) : ParentsInside t hosts := by
  intro dir hdir dir' hdir' hbelow l hwalk hnode
  have hresolve : resolve unixPaths (sortDesc guestLen (givenAt hosts dir)) (spell true [['g']]) = .returned (.ok dir.text) :=
    resolve_below hdir nofun
  rcases unixParent_components dir.text_ne with ⟨parent, hparent, hcomps⟩ | ⟨-, hroot⟩
  · have hany : (sortDesc (@guestLen unixPaths) (givenAt hosts dir)).any (fun pre =>
        (unixComponents pre.host).isPrefixOf (unixComponents parent)) = true := by
      refine List.any_eq_true.mpr ⟨_, mem_sortDesc.mpr (List.mem_map_of_mem hdir'), ?_⟩
      rw [hcomps]
      exact List.isPrefixOf_iff_prefix.mpr hbelow
    have hres : resolveParent unixPaths (sortDesc (@guestLen unixPaths) (givenAt hosts dir)) (spell true [['g']]) =
        .returned (.ok parent) := by
      unfold resolveParent
      rw [hresolve]
      simp only [hparent]
      exact if_pos hany
    refine inside_of_syncParent (h dir) hres ⟨?_, fun hnone => absurd hnone hnode⟩
    rwa [steps, hcomps]
  · have hnil : (unixComponents dir.text).dropLast = [] := by
      rcases hroot with hroot | hroot <;> rw [hroot] <;> rfl
    rw [hnil] at hbelow
    exact absurd (List.prefix_nil.mp hbelow) (unixComponents_ne_nil dir'.text_ne)

end SymlinksAux

open SymlinksAux in
/-- The sandbox holds for exactly the host directories that no symbolic link leads out of, and none of whose host paths leaves another by
its text: whatever they are served as, whatever the guest passes, and with any flags. -/
theorem confined_iff (lc : Libc) (t : HostTree) (hosts : List HostDir) :
    (∀ cli currentDir preopens, (∀ dir, cli.Serves currentDir dir ↔ dir ∈ hosts) →
      newPreopens unixPaths cli currentDir = .ok preopens → Confined lc t hosts preopens) ↔
    t.LinksStay (Within t hosts) ∧ ParentsInside t hosts := by
  constructor
  · intro h
    have hconfined (dir : HostDir) : Confined lc t hosts (sortDesc (@guestLen unixPaths) (givenAt hosts dir)) :=
      h _ (.error ⟨none⟩) _ (fun dir' => serves_flagsAt dir dir' _) (newPreopens_flagsAt dir _)
    exact ⟨linksStay_of_confined hconfined, parentsInside_of_confined hconfined⟩
  · rintro ⟨hlinks, hparents⟩ cli currentDir preopens hhosts hnew
    exact confined_of_linksStay hlinks hparents hhosts hnew

/-! ## A link that leads out -/

namespace SymlinksAux

/-- The host directory `/srv/db`. -/
def dbDir : HostDir := ⟨"/srv/db".toList, srvDb_ne_nil⟩

/-- The host: `/srv/db` holds a link `out` to `/etc`, where there is a file. -/
def outEntries : List (List Str × TreeNode Str) :=
  [([], .dir), ([['s', 'r', 'v']], .dir), ([['s', 'r', 'v'], ['d', 'b']], .dir),
    ([['s', 'r', 'v'], ['d', 'b'], ['o', 'u', 't']], .link [.root, .name ['e', 't', 'c']]),
    ([['e', 't', 'c']], .dir), ([['e', 't', 'c'], ['p', 'w', 'd']], .file)]

theorem ordinary_outEntries : ∀ x ∈ outEntries, ∀ n ∈ x.1, Ordinary n := by
  decide

def outTree : HostTree where
  toFileTree := FileTree.ofEntries outEntries rfl (by decide)
  ordinary l n hne := by
    obtain ⟨node, hmem⟩ := FileTree.mem_of_lookup_ne_none hne
    exact ordinary_outEntries _ hmem n (List.mem_append_right _ List.mem_cons_self)
  cwd := []
  cwd_dir := rfl

theorem walks_dbDir : outTree.Walks outTree.cwd (steps dbDir.text) [['s', 'r', 'v'], ['d', 'b']] :=
  .root (.into rfl (.into rfl (.here _)))

theorem walks_out : outTree.Walks outTree.cwd (steps "/srv/db/out/pwd".toList) [['e', 't', 'c'], ['p', 'w', 'd']] :=
  .root (.into rfl (.into rfl (.link rfl (.root (.into rfl (.file rfl))))))

end SymlinksAux

open SymlinksAux in
/-- With `--preopen /srv/db=/g`, a link `out` to `/etc` takes the guest out of the sandbox. -/
theorem open_not_confined :
    ¬∀ (lc : Libc) (t : HostTree) (hosts : List HostDir) (cli : Cli) (currentDir : Except IoError HostDir)
      (preopens : List (PreopenMapping Str)), (∀ dir, cli.Serves currentDir dir ↔ dir ∈ hosts) →
      newPreopens unixPaths cli currentDir = .ok preopens → Confined lc t hosts preopens := by
  intro h
  have hconfined := h linux outTree [dbDir] _ (.error ⟨none⟩) _ (fun dir' => serves_flagsAt dbDir dir' _)
    (newPreopens_flagsAt dbDir _)
  have hresolve : resolve unixPaths (sortDesc guestLen (givenAt [dbDir] dbDir)) "/g/out/pwd".toList =
      .returned (.ok "/srv/db/out/pwd".toList) :=
    resolve_below (List.mem_singleton_self dbDir) (show ∀ n ∈ [['o', 'u', 't'], ['p', 'w', 'd']], Ordinary n by decide)
  have hopens : outTree.Opens "/srv/db/out/pwd".toList (openOptions 0) [['e', 't', 'c'], ['p', 'w', 'd']] :=
    ⟨walks_out, nofun⟩
  obtain ⟨dir, hdir, d, hwalk, hd⟩ := inside_of_open hconfined hresolve (by decide) hopens
  rw [List.mem_singleton.mp hdir] at hwalk
  rw [hwalk.unique walks_dbDir] at hd
  exact absurd (List.cons_prefix_cons.mp hd).1 (by decide)

end WasmtimeMysql
