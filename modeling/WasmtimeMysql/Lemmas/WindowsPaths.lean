import WasmtimeMysql.Lemmas.Paths
import WasmtimeMysql.Lemmas.WindowsPrefix

/-!
# Pushing a piece onto a Windows path

A piece that `join_suffix` pushes has no slash, but Windows may still read a drive, a root or a `..` in it. Where it reads none
(`Inward`), and what is put after the path's prefix does not become part of the prefix (`Complete`), a push appends normal components
(`components_push_inward`).
-/

namespace WasmtimeMysql

open Split

/-- A piece of a guest path that Windows, too, reads as going down only: no drive, no root and no `..`. -/
def Inward (c : Str) : Prop :=
  (parseWinPath c).drive = none ∧ (parseWinPath c).root = false ∧ .parentDir ∉ (parseWinPath c).comps

instance : DecidablePred Inward := fun c => inferInstanceAs (Decidable
  ((parseWinPath c).drive = none ∧ (parseWinPath c).root = false ∧ .parentDir ∉ (parseWinPath c).comps))

/-- Two separators and at most a server: what is put after such a text makes a prefix of it. -/
def OpenUnc (text : Str) : Prop :=
  ∃ a b server tail, text = a :: b :: (server ++ tail) ∧ isSep a = true ∧ isSep b = true ∧ IsName isSep server ∧
    (tail = [] ∨ server ≠ [] ∧ ∃ s, isSep s = true ∧ tail = [s])

/-- A prefix with what follows it is complete: nothing that is put after them becomes part of the prefix, and a verbatim one has its root. -/
def WinPrefix.Complete : WinPrefix → Str → Prop
  | .disk _, _ | .unc .., _ => True
  | .deviceNs name, rest => name ≠ [] ∨ rest ≠ []
  | .verbatim _, rest | .verbatimDisk _, rest => rest ≠ []
  | .verbatimUnc _ share, rest => share ≠ [] ∧ rest ≠ []

/-- A text keeps its prefix, or keeps having none, whatever is put after it. -/
def Complete (text : Str) : Prop :=
  match parsePrefix text with
  | (none, _) => ¬OpenUnc text
  | (some d, rest) => d.Complete rest

theorem complete_none {text : Str} (h : parsePrefix text = (none, text)) : Complete text ↔ ¬OpenUnc text := by
  unfold Complete
  rw [h]

theorem complete_some {text rest : Str} {d : WinPrefix} (h : parsePrefix text = (some d, rest)) : Complete text ↔ d.Complete rest := by
  unfold Complete
  rw [h]

/-! ## The components of a text -/

/-- No separator leads an inward piece. -/
theorem head_inward {c : Str} (h : Inward c) : hasPhysicalRoot c = false ∧ parsePrefix c = (none, c) := by
  obtain ⟨hdrive, hroot, -⟩ := h
  unfold parseWinPath at hdrive hroot
  cases hp : parsePrefix c with
  | mk d rest =>
    rw [hp] at hdrive hroot
    cases d with
    | none =>
      obtain rfl := parsePrefix_none hp
      exact ⟨hroot, rfl⟩
    | some d =>
      by_cases hv : d.isVerbatim = true <;> simp [hv] at hdrive

/-- The components of an inward piece are normal, but for a `.` at the start. -/
theorem comps_inward {c : Str} (h : Inward c) :
    ∃ names : List Str, winComponents false c = names.map .normal ∧
      ((parseWinPath c).components = names.map .normal ∨ (parseWinPath c).components = .curDir :: names.map .normal) ∧
      ∀ name ∈ names, pieceComponent name = some (.normal name) ∧ IsName isSep name := by
  obtain ⟨hroot, hp⟩ := head_inward h
  have hup := h.2.2
  have hparse : parseWinPath c = ⟨none, false, winComponents true c⟩ := by
    unfold parseWinPath
    rw [hp]
    simp [hroot]
  rw [hparse] at hup ⊢
  have hpieces : ∀ x ∈ winComponents false c, ∃ name, x = .normal name ∧ pieceComponent name = some (.normal name) ∧ IsName isSep name := by
    intro x hx
    have hx' : x ∈ (c.splitOnP isSep).filterMap pieceComponent := by simpa [winComponents] using hx
    obtain ⟨piece, hmem, hpiece⟩ := List.mem_filterMap.mp hx'
    have hname : IsName isSep piece := sep_of_mem_splitOnP hmem
    have hne : x ≠ .parentDir := by
      rintro rfl
      exact hup (List.mem_append_right _ hx')
    unfold pieceComponent at hpiece
    split at hpiece
    · cases hpiece
    · split at hpiece
      · exact absurd (Option.some.inj hpiece).symm hne
      · rename_i h₁ h₂
        cases hpiece
        exact ⟨piece, rfl, by rw [pieceComponent, if_neg h₁, if_neg h₂], hname⟩
  obtain ⟨names, hnames⟩ : ∃ names : List Str, winComponents false c = names.map .normal := by
    have hmem : ∀ x ∈ winComponents false c, x ∈ Set.range Component.normal := by
      intro x hx
      obtain ⟨name, rfl, -⟩ := hpieces x hx
      exact ⟨name, rfl⟩
    have hrange : winComponents false c ∈ Set.range (List.map Component.normal) := by
      rw [Set.range_list_map]
      exact hmem
    obtain ⟨names, hn⟩ := hrange
    exact ⟨names, hn.symm⟩
  refine ⟨names, hnames, ?_, ?_⟩
  · have hcomps : winComponents true c = names.map .normal ∨ winComponents true c = .curDir :: names.map .normal := by
      rw [← hnames]
      simp only [winComponents, Bool.false_eq_true, false_and, if_false, List.nil_append, true_and]
      split
      · exact .inr rfl
      · exact .inl rfl
    simpa [WinParts.components] using hcomps
  · intro name hname
    obtain ⟨name', h₁, h₂⟩ := hpieces (.normal name) (by rw [hnames]; exact List.mem_map_of_mem hname)
    cases h₁
    exact h₂

/-- The pieces of two texts with a separator between them. -/
theorem winComponents_sep (first : Bool) (rest c : Str) {s : Char} (hs : isSep s = true) :
    winComponents first (rest ++ s :: c) = winComponents first rest ++ winComponents false c := by
  have hsplit : (rest ++ s :: c).splitOnP isSep = rest.splitOnP isSep ++ c.splitOnP isSep := List.splitOnP_append_cons rest c hs
  have hhead : (rest.splitOnP isSep ++ c.splitOnP isSep).head? = (rest.splitOnP isSep).head? := by
    rw [List.head?_append_of_ne_nil _ (List.splitOnP_ne_nil _ _)]
  simp only [winComponents, hsplit, hhead, List.filterMap_append, Bool.false_eq_true, false_and, if_false, List.nil_append,
    List.append_assoc]

/-- The texts that a push puts after the rest of a path: the piece after a separator, or the piece alone after one that is there. -/
inductive Joins (c : Str) : Str → Str → Prop
  | sep (rest : Str) : Joins c rest ('\\' :: c)
  | nil : Joins c [] c
  | last {s : Char} (rest : Str) : isSep s = true → Joins c (rest ++ [s]) c

/-- What is put after the rest of a path adds its components. -/
theorem winComponents_join {first : Bool} {rest c ext : Str} (hj : Joins c rest ext) (h : rest ≠ [] ∨ first = false) :
    winComponents first (rest ++ ext) = winComponents first rest ++ winComponents false c := by
  cases hj with
  | sep rest => exact winComponents_sep first rest c rfl
  | nil =>
    obtain rfl : first = false := by simpa using h
    simp [winComponents, pieceComponent]
  | @last s rest hs =>
    rw [List.append_assoc, List.singleton_append]
    rw [winComponents_sep first rest c hs, winComponents_sep first rest [] hs]
    simp [winComponents, pieceComponent]

/-! ## Pushing after a text -/

/-- What is put after a text of the UNC arm that has no prefix makes none, unless the text is open. -/
theorem parsePrefix_append_unc {a b s : Char} {server t : Str} (ext : Str) (ha : isSep a = true) (hb : isSep b = true) (hs : isSep s = true)
    (hserver : IsName isSep server) (ht : server = [] ∨ t ≠ [])
    (h : parsePrefix (a :: b :: (server ++ s :: t)) = (none, a :: b :: (server ++ s :: t))) :
    parsePrefix (a :: b :: (server ++ s :: (t ++ ext))) = (none, a :: b :: (server ++ s :: (t ++ ext))) := by
  -- neither text is verbatim or of a device, so the UNC arm reads both
  have hmark (v u : Str) (hu : server ++ s :: v = '?' :: '\\' :: u) : a = '/' ∨ b = '/' := by
    have hq : IsName isSep ['?'] := by simp [IsName, isSep]
    obtain ⟨rfl, htail⟩ := name_unique hserver (.inr ⟨s, v, hs, rfl⟩) hq (.inr ⟨_, u, rfl, rfl⟩)
      (hu : server ++ s :: v = ['?'] ++ '\\' :: u)
    obtain rfl := (List.cons.inj htail).1
    by_contra hno
    obtain ⟨ha', hb'⟩ := not_or.mp hno
    obtain rfl : a = '\\' := by simpa [isSep, ha'] using ha
    obtain rfl : b = '\\' := by simpa [isSep, hb'] using hb
    exact parseVerbatim_ne_none _ _ ((parsePrefix_verbatim t).symm.trans h)
  have hdot (v : Str) (c : Char) (u : Str) (hc : isSep c = true) : server ++ s :: v ≠ '.' :: c :: u := by
    intro hu
    have hq : IsName isSep ['.'] := by simp [IsName, isSep]
    obtain ⟨rfl, -⟩ := name_unique hserver (.inr ⟨s, v, hs, rfl⟩) hq (.inr ⟨c, u, hc, rfl⟩)
      (hu : server ++ s :: v = ['.'] ++ c :: u)
    have hdev := parsePrefix_device t ha hb hs
    rw [List.singleton_append, hdev] at h
    cases h
  rw [parsePrefix_unc ha hb (hmark t) (hdot t)] at h
  rw [parsePrefix_unc ha hb (hmark (t ++ ext)) (hdot (t ++ ext))]
  by_cases hnil : server = []
  · obtain ⟨share, rest, hrest, hshare, hstops⟩ := exists_name isSep (t ++ ext)
    rw [hrest, parseUnc_names hs hserver hshare hstops, if_neg (by simp [hnil])]
  · obtain ⟨share, rest, rfl, hshare, hstops⟩ := exists_name isSep t
    rw [parseUnc_names hs hserver hshare hstops] at h
    split at h
    · cases h
    · rename_i hno
      obtain rfl : share = [] := by simpa [hnil] using hno
      have hstops' : Stops isSep (rest ++ ext) := by
        rcases hstops with rfl | ⟨c, u, hc, rfl⟩
        · exact absurd rfl (ht.resolve_left hnil)
        · exact .inr ⟨c, u ++ ext, hc, rfl⟩
      rw [List.nil_append, ← List.nil_append (rest ++ ext), parseUnc_names hs hserver hshare hstops', if_neg (by simp)]

/-- What follows the separator after its server closes it. -/
theorem not_openUnc_append {a b s : Char} {server t : Str} (ext : Str) (hs : isSep s = true) (hserver : IsName isSep server)
    (ht : server = [] ∨ t ≠ []) : ¬OpenUnc (a :: b :: (server ++ s :: (t ++ ext))) := by
  rintro ⟨a', b', server', tail', heq, ha', hb', hserver', htail'⟩
  have heq' : a = a' ∧ b = b' ∧ server ++ s :: (t ++ ext) = server' ++ tail' := by simpa using heq
  have hstops : Stops isSep tail' := by
    rcases htail' with rfl | ⟨-, s', hs', rfl⟩
    · exact .inl rfl
    · exact .inr ⟨s', [], hs', rfl⟩
  obtain ⟨rfl, rfl⟩ := name_unique hserver (.inr ⟨s, _, hs, rfl⟩) hserver' hstops heq'.2.2
  rcases htail' with hcons | ⟨hne', s', -, hcons⟩
  · cases hcons
  · have hnil : t = [] := by
      have happ := (List.cons.inj hcons).2
      exact (List.append_eq_nil_iff.mp happ).1
    rcases ht with ht | ht
    · exact hne' ht
    · exact ht hnil

/-- What is put after a text without a prefix makes no prefix, unless the text is open or one character long. -/
theorem parsePrefix_append_none {text ext : Str} (h : parsePrefix text = (none, text)) (hne : text ≠ []) (hopen : ¬OpenUnc text)
    (hone : ∀ a b u, text = [a] → ext = b :: u → isSep b = !isSep a) :
    parsePrefix (text ++ ext) = (none, text ++ ext) ∧ ¬OpenUnc (text ++ ext) := by
  match text with
  | [] => exact absurd rfl hne
  | [a] =>
    match ext with
    | [] => exact ⟨by rw [List.append_nil]; exact h, by rw [List.append_nil]; exact hopen⟩
    | b :: u =>
      have hb := hone a b u rfl rfl
      have hsep : ¬(isSep a = true ∧ isSep b = true) := by
        rintro ⟨ha, hb'⟩
        rw [ha, hb'] at hb
        cases hb
      refine ⟨?_, ?_⟩
      · rw [List.singleton_append, parsePrefix_drive hsep, if_neg]
        rintro ⟨halpha, rfl⟩
        rw [isSep_of_isAlpha halpha] at hb
        cases hb
      · rintro ⟨a', b', server, tail, heq, ha, hb', -⟩
        cases heq
        exact hsep ⟨ha, hb'⟩
  | a :: b :: r =>
    by_cases hsep : isSep a = true ∧ isSep b = true
    · obtain ⟨ha, hb⟩ := hsep
      obtain ⟨server, tail, rfl, hserver, htail⟩ := exists_name isSep r
      rcases htail with rfl | ⟨s, t, hs, rfl⟩
      · exact absurd ⟨a, b, server, [], rfl, ha, hb, hserver, .inl rfl⟩ hopen
      · have ht : server = [] ∨ t ≠ [] := by
          by_contra hno
          obtain ⟨h₁, rfl⟩ : server ≠ [] ∧ t = [] := by simpa using hno
          exact hopen ⟨a, b, server, [s], rfl, ha, hb, hserver, .inr ⟨h₁, s, hs, rfl⟩⟩
        exact ⟨by simpa using parsePrefix_append_unc ext ha hb hs hserver ht h,
          by simpa using not_openUnc_append ext hs hserver ht⟩
    · rw [parsePrefix_drive hsep] at h
      split at h
      · cases h
      · rename_i hno
        refine ⟨?_, ?_⟩
        · exact (parsePrefix_drive (r := r ++ ext) hsep).trans (if_neg hno)
        · rintro ⟨a', b', server, tail, heq, ha, hb, -⟩
          obtain ⟨rfl, rfl, -⟩ : a = a' ∧ b = b' ∧ r ++ ext = server ++ tail := by simpa using heq
          exact hsep ⟨ha, hb⟩

/-- What an inward push puts after a path that is not verbatim. -/
def pushed (text c : Str) : Str := if needSep text then '\\' :: c else c

theorem winPush_pushed {p : WinPath} {c : Str} (hv : (parsePrefix p.text).1.any WinPrefix.isVerbatim = false) (h : Inward c) :
    winPush p c = ⟨p.text ++ pushed p.text c⟩ := by
  obtain ⟨hroot, hp⟩ := head_inward h
  unfold winPush pushed
  rw [hp, hv, hroot]
  by_cases hn : needSep p.text = true <;> simp [hn]

theorem joins_pushed {text rest c : Str} {d : Option WinPrefix} (h : parsePrefix text = (d, rest)) (hsuffix : rest <:+ text) :
    Joins c rest (pushed text c) := by
  unfold pushed
  split
  · exact .sep rest
  · rename_i hn
    cases hr : rest.reverse with
    | nil =>
      obtain rfl : rest = [] := by simpa using hr
      exact .nil
    | cons s init =>
      obtain rfl : rest = init.reverse ++ [s] := by simpa using congrArg List.reverse hr
      obtain ⟨raw, rfl⟩ := hsuffix
      have hs : isSep s = true := by
        by_contra hs
        refine hn ?_
        rw [needSep, h]
        simpa [← List.append_assoc] using hs
      exact .last _ hs

/-- A prefix that must be followed by a separator gets one. -/
theorem ends_pushed {d : WinPrefix} {raw rest : Str} (c : Str) (hp : parsePrefix (raw ++ rest) = (some d, rest)) (hv : d.isVerbatim = false)
    (hcomplete : Complete (raw ++ rest)) (hspelled : Spelled d raw) (hends : Ends d rest) : Ends d (rest ++ pushed (raw ++ rest) c) := by
  have hstops (hstops : Stops isSep rest) (hdrive : d.isDrive = false) (hlast : rest = [] → raw.getLast?.any (fun c => !isSep c) = true) :
      Stops isSep (rest ++ pushed (raw ++ rest) c) := by
    rcases hstops with rfl | ⟨s, u, hs, rfl⟩
    · have hn : needSep (raw ++ []) = true := by
        rw [needSep, hp]
        simpa [hdrive] using hlast rfl
      rw [pushed, if_pos hn]
      exact .inr ⟨_, c, rfl, rfl⟩
    · exact .inr ⟨s, _, hs, rfl⟩
  have hname {name : Str} (hname : IsName isSep name) (hne : name ≠ []) (init : Str) :
      (init ++ name).getLast?.any (fun c => !isSep c) = true := by
    rw [List.getLast?_append_of_ne_nil _ hne, List.getLast?_eq_some_getLast hne]
    simpa using hname _ (List.getLast_mem hne)
  cases hspelled with
  | disk _ => exact trivial
  | @unc a b s server share ha hb hs hserver hshare hne' hdot hmark =>
    refine hstops hends rfl fun _ => ?_
    have heq : a :: b :: (server ++ s :: share) = (a :: b :: (server ++ [s])) ++ share := by simp
    rw [heq]
    exact hname hshare hne'.2 _
  | @deviceNs a b c' name ha hb hc' hdev =>
    refine hstops hends rfl fun hnil => ?_
    exact hname hdev (((complete_some hp).mp hcomplete).resolve_right (not_not.mpr hnil)) [a, b, '.', c']
  | verbatim => cases hv
  | verbatimServer => cases hv
  | verbatimUnc => cases hv
  | verbatimDisk => cases hv

/-- The parts of a path after an inward push, which stays complete. -/
theorem parseWinPath_pushed {text c : Str} (hne : text ≠ []) (hv : (parsePrefix text).1.any WinPrefix.isVerbatim = false)
    (hcomplete : Complete text) (hc : c ≠ []) (h : Inward c) :
    parseWinPath (text ++ pushed text c) =
      { parseWinPath text with comps := (parseWinPath text).comps ++ winComponents false c } ∧ Complete (text ++ pushed text c) := by
  obtain ⟨hroot, hpc⟩ := head_inward h
  cases hp : parsePrefix text with
  | mk d rest =>
  cases d with
  | none =>
    obtain rfl := parsePrefix_none hp
    have hj := joins_pushed (c := c) hp (List.suffix_refl _)
    have hone : ∀ a b u, rest = [a] → pushed rest c = b :: u → isSep b = !isSep a := by
      rintro a b u rfl hb
      unfold pushed at hb
      cases ha : isSep a with
      | true =>
        rw [if_neg (by simp [needSep, ha])] at hb
        subst hb
        simpa [hasPhysicalRoot] using hroot
      | false =>
        rw [if_pos (by simp [needSep, hp, ha])] at hb
        cases hb
        rfl
    obtain ⟨hnone, hopen⟩ := parsePrefix_append_none hp hne ((complete_none hp).mp hcomplete) hone
    have hphys : hasPhysicalRoot (rest ++ pushed rest c) = hasPhysicalRoot rest := by
      unfold hasPhysicalRoot
      rw [List.head?_append_of_ne_nil _ hne]
    refine ⟨?_, (complete_none hnone).mpr hopen⟩
    unfold parseWinPath
    rw [hnone, hp]
    simp only [hphys, winComponents_join hj (.inl hne)]
  | some d =>
    obtain ⟨raw, rfl, hspelled, hends⟩ := spelled_of_parsePrefix hp
    have hj := joins_pushed (c := c) hp (List.suffix_append _ _)
    have hv' : d.isVerbatim = false := by simpa [hp] using hv
    have hends' := ends_pushed c hp hv' hcomplete hspelled hends
    have hnew : parsePrefix (raw ++ rest ++ pushed (raw ++ rest) c) = (some d, rest ++ pushed (raw ++ rest) c) := by
      rw [List.append_assoc]
      exact parsePrefix_spelled hspelled hends'
    have hroot' : (hasPhysicalRoot (rest ++ pushed (raw ++ rest) c) || !d.isDrive) = (hasPhysicalRoot rest || !d.isDrive) := by
      cases hd : d.isDrive with
      | false => simp
      | true =>
        cases rest with
        | nil =>
          have hpushed : pushed (raw ++ []) c = c := by
            rw [pushed, needSep, hp]
            simp [hd]
          rw [hpushed, List.nil_append, hroot]
          rfl
        | cons a u => simp [hasPhysicalRoot]
    refine ⟨?_, ?_⟩
    · unfold parseWinPath
      rw [hnew, hp]
      simp only [hv', hroot', winComponents_join hj (.inr rfl), Bool.false_eq_true, if_false]
    · refine (complete_some hnew).mpr ?_
      cases hspelled with
      | disk => exact trivial
      | unc => exact trivial
      | deviceNs =>
        refine .inr ?_
        unfold pushed
        split <;> simp [hc]
      | verbatim => cases hv'
      | verbatimServer => cases hv'
      | verbatimUnc => cases hv'
      | verbatimDisk => cases hv'

/-! ## Pushing onto a verbatim path -/

/-- A component that a piece of a verbatim path stands for, and only that piece. -/
def IsPiece (x : Component) : Prop := '\\' ∉ componentText x ∧ verbatimPieceComponent (componentText x) = some x

theorem text_of_pieceComponent {piece : Str} {x : Component} (h : pieceComponent piece = some x) : componentText x = piece := by
  unfold pieceComponent at h
  split at h
  · cases h
  · split at h
    · rename_i hup
      cases h
      exact hup.symm
    · cases h
      rfl

theorem text_of_verbatimPieceComponent {piece : Str} {x : Component} (h : verbatimPieceComponent piece = some x) : componentText x = piece := by
  unfold verbatimPieceComponent at h
  split at h
  · rename_i hdot
    cases h
    exact hdot.symm
  · exact text_of_pieceComponent h

/-- The components of a verbatim path are those of its pieces. -/
theorem isPiece_of_mem {rest : Str} {x : Component} (h : x ∈ (rest.splitOnP isVerbatimSep).filterMap verbatimPieceComponent) : IsPiece x := by
  obtain ⟨piece, hmem, hx⟩ := List.mem_filterMap.mp h
  have hback : '\\' ∉ piece := by
    intro hin
    have := sep_of_mem_splitOnP hmem _ hin
    cases this
  have htext := text_of_verbatimPieceComponent hx
  exact ⟨htext ▸ hback, htext ▸ hx⟩

/-- A normal component without a separator is that of its piece. -/
theorem isPiece_normal {name : Str} (hpiece : pieceComponent name = some (.normal name)) (hname : IsName isSep name) :
    IsPiece (.normal name) := by
  refine ⟨fun hin => ?_, ?_⟩
  · have := hname _ hin
    cases this
  · unfold verbatimPieceComponent
    rw [if_neg]
    · exact hpiece
    · intro hdot
      rw [componentText] at hdot
      rw [hdot] at hpiece
      cases hpiece

/-- The pieces of a text that is spelled from components. -/
theorem filterMap_spelled {comps : List Component} (h : ∀ x ∈ comps, IsPiece x) :
    ((['\\'].intercalate (comps.map componentText)).splitOnP isVerbatimSep).filterMap verbatimPieceComponent = comps := by
  cases comps with
  | nil => rfl
  | cons x xs =>
    have hsplit : (['\\'].intercalate ((x :: xs).map componentText)).splitOn '\\' = (x :: xs).map componentText := by
      refine List.splitOn_intercalate '\\' ?_ (by simp)
      intro piece hpiece
      obtain ⟨y, hy, rfl⟩ := List.mem_map.mp hpiece
      exact (h y hy).1
    have hsep : (['\\'].intercalate ((x :: xs).map componentText)).splitOnP isVerbatimSep = (x :: xs).map componentText := hsplit
    rw [hsep, List.filterMap_map]
    refine (List.filterMap_congr fun y hy => ?_).trans List.filterMap_some
    exact (h y hy).2

theorem foldl_verbatimPush (names : List Str) : ∀ p : WinParts,
    (names.map Component.normal).foldl verbatimPush p = { p with comps := p.comps ++ names.map .normal } := by
  induction names with
  | nil => simp
  | cons name names ih =>
    intro p
    rw [List.map_cons, List.foldl_cons, ih]
    simp [verbatimPush]

theorem rawPrefix_append {d : Option WinPrefix} (raw : Str) {rest : Str} (h : parsePrefix (raw ++ rest) = (d, rest)) :
    rawPrefix (raw ++ rest) = raw := by
  unfold rawPrefix
  rw [h, List.length_append, Nat.add_sub_cancel, List.take_left']
  rfl

/-- What follows a verbatim prefix that is complete starts with a separator. -/
theorem complete_verbatim {d : WinPrefix} {raw rest : Str} (hs : Spelled d raw) (hv : d.isVerbatim = true) (he : Ends d rest)
    (h : d.Complete rest) : hasPhysicalRoot rest = true ∧ ∀ u, Ends d ('\\' :: u) ∧ d.Complete ('\\' :: u) := by
  have hroot {sep : Char → Bool} (hsep : ∀ c, sep c = true → isSep c = true) (hstops : Stops sep rest) (hne : rest ≠ []) :
      hasPhysicalRoot rest = true := by
    rcases hstops with rfl | ⟨c, u, hc, rfl⟩
    · exact absurd rfl hne
    · simpa [hasPhysicalRoot] using hsep c hc
  cases hs with
  | disk => cases hv
  | unc => cases hv
  | deviceNs => cases hv
  | verbatim =>
    refine ⟨hroot (fun c => isSep_of_isVerbatimSep) he.1 h, fun u => ⟨⟨.inr ⟨_, u, rfl, rfl⟩, fun hname => ?_⟩, List.cons_ne_nil _ _⟩⟩
    exact absurd (he.2 hname) h
  | verbatimServer => exact absurd rfl h.1
  | verbatimUnc _ _ _ hne =>
    exact ⟨hroot (fun c => isSep_of_isVerbatimSep) he.1 h.2,
      fun u => ⟨⟨.inr ⟨_, u, rfl, rfl⟩, fun hnil => absurd hnil hne⟩, hne, List.cons_ne_nil _ _⟩⟩
  | verbatimDisk => exact ⟨hroot (fun c hc => hc) he h, fun u => ⟨.inr ⟨_, u, rfl, rfl⟩, List.cons_ne_nil _ _⟩⟩

/-- The parts of a verbatim path. -/
theorem parseWinPath_some {t rest : Str} {d : WinPrefix} (h : parsePrefix t = (some d, rest)) (hv : d.isVerbatim = true) :
    parseWinPath t = ⟨some d, hasPhysicalRoot rest,
      ((if hasPhysicalRoot rest then rest.tail else rest).splitOnP isVerbatimSep).filterMap verbatimPieceComponent⟩ := by
  unfold parseWinPath
  rw [h]
  simp only [hv, if_true]

/-- ... and of one that is spelled from components. -/
theorem parseWinPath_verbatim {d : WinPrefix} {raw u : Str} (hs : Spelled d raw) (hv : d.isVerbatim = true) (he : Ends d ('\\' :: u)) :
    parseWinPath (raw ++ '\\' :: u) = ⟨some d, true, (u.splitOnP isVerbatimSep).filterMap verbatimPieceComponent⟩ := by
  rw [parseWinPath_some (parsePrefix_spelled hs he) hv]
  rfl

/-! ## A row of pushes -/

/-- An inward push onto a complete path appends normal components, and the path stays complete. -/
theorem components_push_inward {p : WinPath} {c : Str} (hp : p.text ≠ []) (hcomplete : Complete p.text) (hc : c ≠ []) (h : Inward c) :
    ∃ names : List Str, (winPush p c).components = p.components ++ names.map .normal ∧ (winPush p c).text ≠ [] ∧
      Complete (winPush p c).text := by
  obtain ⟨names, hnames, hall, hpiece⟩ := comps_inward h
  refine ⟨names, ?_⟩
  cases hv : (parsePrefix p.text).1.any WinPrefix.isVerbatim with
  | false =>
    obtain ⟨hparse, hcomplete'⟩ := parseWinPath_pushed hp hv hcomplete hc h
    rw [winPush_pushed hv h]
    refine ⟨?_, by simp [hp], hcomplete'⟩
    simp [WinPath.components, WinParts.components, hparse, hnames]
  | true =>
    cases hlead : parsePrefix p.text with
    | mk d rest =>
    cases d with
    | none =>
      rw [hlead] at hv
      cases hv
    | some d =>
      have hverb : d.isVerbatim = true := by simpa [hlead] using hv
      have hcomplete' := (complete_some hlead).mp hcomplete
      obtain ⟨raw, htext, hspelled, hends⟩ := spelled_of_parsePrefix hlead
      obtain ⟨hroot, hkeep⟩ := complete_verbatim hspelled hverb hends hcomplete'
      have hparse : parseWinPath p.text = ⟨some d, true, (rest.tail.splitOnP isVerbatimSep).filterMap verbatimPieceComponent⟩ := by
        rw [parseWinPath_some hlead hverb, hroot]
        rfl
      -- the pushed components, and the text they are spelled to
      have hcomps : ∀ x ∈ (parseWinPath p.text).comps ++ names.map .normal, IsPiece x := by
        intro x hx
        rw [hparse] at hx
        rcases List.mem_append.mp hx with hx | hx
        · exact isPiece_of_mem hx
        · obtain ⟨name, hname, rfl⟩ := List.mem_map.mp hx
          exact isPiece_normal (hpiece name hname).1 (hpiece name hname).2
      have hfold : (parseWinPath c).components.foldl verbatimPush (parseWinPath p.text) =
          { parseWinPath p.text with comps := (parseWinPath p.text).comps ++ names.map .normal } := by
        rcases hall with hall | hall
        · rw [hall, foldl_verbatimPush]
        · rw [hall, List.foldl_cons]
          exact foldl_verbatimPush names _
      have hpush : winPush p c =
          ⟨raw ++ '\\' :: ['\\'].intercalate (((parseWinPath p.text).comps ++ names.map Component.normal).map componentText)⟩ := by
        have hraw : rawPrefix p.text = raw := by
          rw [htext]
          exact rawPrefix_append _ (htext ▸ hlead)
        unfold winPush
        rw [if_neg (by simp [(head_inward h).2]), if_pos (by simp [hv, hc]), hfold, hraw]
        simp [verbatimText, hparse]
      rw [hpush]
      refine ⟨?_, by simp, (complete_some (parsePrefix_spelled hspelled (hkeep _).1)).mpr (hkeep _).2⟩
      rw [WinPath.components, parseWinPath_verbatim hspelled hverb (hkeep _).1, filterMap_spelled hcomps, WinPath.components, hparse]
      simp [WinParts.components]

/-- ... and so does a row of them. -/
theorem components_foldl_inward {cs : List Str} : ∀ {p : WinPath}, p.text ≠ [] → Complete p.text → (∀ c ∈ cs, c ≠ [] ∧ Inward c) →
    ∃ names : List Str, (cs.foldl winPush p).components = p.components ++ names.map .normal := by
  induction cs with
  | nil => exact fun _ _ _ => ⟨[], by simp⟩
  | cons c cs ih =>
    intro p hp hcomplete h
    obtain ⟨hne, hin⟩ := h c List.mem_cons_self
    obtain ⟨names, hn, htext, hcomplete'⟩ := components_push_inward hp hcomplete hne hin
    obtain ⟨names', hn'⟩ := ih (p := winPush p c) htext hcomplete' (fun d hd => h d (List.mem_cons_of_mem _ hd))
    exact ⟨names ++ names', by rw [List.foldl_cons, hn', hn, List.map_append, List.append_assoc]⟩

end WasmtimeMysql
