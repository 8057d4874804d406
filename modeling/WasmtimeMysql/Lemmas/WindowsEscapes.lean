import WasmtimeMysql.Lemmas.WindowsPaths

/-!
# Leaving the directory on Windows

The ways out of the sandbox. A piece that is not inward takes the path out of a directory with a long name: either the name is gone from
the text (`NoRun`), or a `..` stands in it (`Up`), and no later push changes that (`lost_foldl`). And a directory whose text is not complete is
left by an ordinary piece, which becomes part of its prefix or brings the root (`escape_of_incomplete`).
-/

namespace WasmtimeMysql

open Split

/-! ## Texts without a long run -/

/-- No `n + 1` letters `r` follow one another. -/
def NoRun (n : Nat) (t : Str) : Prop := ¬List.replicate (n + 1) 'r' <:+: t

section
variable {n : Nat} {t u : Str}

/-- A part of such a text is one. -/
theorem NoRun.of_part (h : NoRun n t) (hu : u <:+: t) : NoRun n u := fun hr => h (hr.trans hu)

/-- A short text has no run that is longer than it. -/
theorem noRun_of_length (h : t.length ≤ n) : NoRun n t := by
  intro hr
  have hlen := hr.length_le
  rw [List.length_replicate] at hlen
  omega

/-- A character that is not the letter keeps the runs on both its sides apart. -/
theorem NoRun.append_cons {s : Char} (ht : NoRun n t) (hs : s ≠ 'r') (hu : NoRun n u) : NoRun n (t ++ s :: u) := by
  intro hr
  rcases List.infix_append_iff.mp hr with hr | hr | ⟨l₁, l₂, heq, h₁, h₂⟩
  · exact ht hr
  · rcases List.infix_cons_iff.mp hr with hr | hr
    · obtain ⟨v, hv⟩ := hr
      rw [List.replicate_succ, List.cons_append] at hv
      exact hs (List.cons.inj hv).1.symm
    · exact hu hr
  · cases l₂ with
    | nil =>
      rw [List.append_nil] at heq
      exact ht (heq ▸ h₁.isInfix)
    | cons a l₂ =>
      obtain ⟨v, hv⟩ := h₂
      have ha : a ∈ List.replicate (n + 1) 'r' := by
        rw [heq]
        simp
      rw [List.eq_of_mem_replicate ha] at hv
      exact hs (List.cons.inj hv).1.symm

/-- Pieces without a run, with separators between them. -/
theorem NoRun.intercalate {pieces : List Str} (h : ∀ piece ∈ pieces, NoRun n piece) : NoRun n (['\\'].intercalate pieces) := by
  induction pieces with
  | nil => exact noRun_of_length (by simp)
  | cons piece pieces ih =>
    have hpiece := h piece List.mem_cons_self
    cases pieces with
    | nil => simpa using hpiece
    | cons piece' pieces =>
      have hrest := ih fun p hp => h p (List.mem_cons_of_mem _ hp)
      have heq : ['\\'].intercalate (piece :: piece' :: pieces) = piece ++ '\\' :: ['\\'].intercalate (piece' :: pieces) := by
        simp [List.intercalate_cons_cons]
      rw [heq]
      exact hpiece.append_cons (by decide) hrest

end

/-! ## The text of a component -/

/-- The text of a component is part of the path. -/
theorem text_of_mem_winComponents {first : Bool} {rest : Str} {x : Component} (h : x ∈ winComponents first rest) :
    componentText x <:+: rest := by
  rcases List.mem_append.mp h with h | h
  · split at h
    · rename_i hdot
      rw [List.mem_singleton.mp h]
      exact infix_of_mem_splitOnP (List.mem_of_head? hdot.2)
    · cases h
  · obtain ⟨piece, hmem, hx⟩ := List.mem_filterMap.mp h
    rw [text_of_pieceComponent hx]
    exact infix_of_mem_splitOnP hmem

/-- The text of a component stands in the path. -/
theorem text_of_mem_comps {t : Str} {x : Component} (h : x ∈ (parseWinPath t).comps) : componentText x <:+: t := by
  unfold parseWinPath at h
  cases hp : parsePrefix t with
  | mk d rest =>
  rw [hp] at h
  cases d with
  | none =>
    obtain rfl := parsePrefix_none hp
    exact text_of_mem_winComponents h
  | some d =>
    obtain ⟨raw, rfl, -⟩ := spelled_of_parsePrefix hp
    have hrest : rest <:+: raw ++ rest := (List.suffix_append _ _).isInfix
    by_cases hv : d.isVerbatim = true
    · simp only [hv, if_true] at h
      obtain ⟨piece, hmem, hx⟩ := List.mem_filterMap.mp h
      rw [text_of_verbatimPieceComponent hx]
      refine (infix_of_mem_splitOnP hmem).trans (List.IsInfix.trans ?_ hrest)
      split
      · exact (List.tail_suffix rest).isInfix
      · exact List.infix_refl _
    · simp only [hv, Bool.false_eq_true, if_false] at h
      exact (text_of_mem_winComponents h).trans hrest

/-! ## Losing the name -/

section
variable {n : Nat} {p : WinPath} {c : Str}

/-- A letter is no separator. -/
theorem ne_letter_of_isSep {s : Char} (hs : isSep s = true) : s ≠ 'r' := by
  rintro rfl
  cases hs

/-- No component of a short piece has a long name, and neither has one of a text without a long run. -/
theorem noRun_of_mem_comps {t : Str} (h : NoRun n t) {x : Component} (hx : x ∈ (parseWinPath t).comps) : NoRun n (componentText x) :=
  h.of_part (text_of_mem_comps hx)

/-- A verbatim path keeps the pieces it is pushed, and their letters. -/
theorem noRun_foldl_verbatimPush {xs : List Component} : ∀ {q : WinParts}, (∀ x ∈ q.comps, NoRun n (componentText x)) →
    (∀ x ∈ xs, NoRun n (componentText x)) → ∀ x ∈ (xs.foldl verbatimPush q).comps, NoRun n (componentText x) := by
  induction xs with
  | nil => exact fun hq _ => hq
  | cons y xs ih =>
    intro q hq hxs
    refine ih ?_ fun x hx => hxs x (List.mem_cons_of_mem _ hx)
    intro x hx
    cases y with
    | drive => exact hq x hx
    | rootDir => cases hx
    | curDir => exact hq x hx
    | parentDir =>
      simp only [verbatimPush] at hx
      split at hx
      · exact hq x (List.dropLast_subset _ hx)
      · exact hq x hx
    | normal name =>
      rcases List.mem_append.mp hx with hx | hx
      · exact hq x hx
      · rw [List.mem_singleton.mp hx]
        exact hxs _ List.mem_cons_self

/-- What is written of a verbatim path. -/
theorem noRun_verbatimText {q : WinParts} {raw : Str} (hraw : NoRun n raw) (hq : ∀ x ∈ q.comps, NoRun n (componentText x)) :
    NoRun n (raw ++ verbatimText q) := by
  unfold verbatimText
  split
  · refine hraw.append_cons (by decide) (.intercalate fun piece hpiece => ?_)
    obtain ⟨x, hx, rfl⟩ := List.mem_map.mp hpiece
    exact hq x hx
  · rwa [List.append_nil]

/-- A push without a separator comes after one, or after a drive, or after nothing. -/
theorem needSep_eq_false {t : Str} (h : needSep t = false) : t = [] ∨ ∃ init s, t = init ++ [s] ∧ s ≠ 'r' := by
  cases hr : t.reverse with
  | nil => exact .inl (by simpa using hr)
  | cons s init =>
    obtain rfl : t = init.reverse ++ [s] := by simpa using congrArg List.reverse hr
    refine .inr ⟨init.reverse, s, rfl, ?_⟩
    rintro rfl
    cases hp : parsePrefix (init.reverse ++ ['r']) with
    | mk d rest =>
    rw [needSep, hp] at h
    obtain ⟨hrest, hdrive⟩ : rest = [] ∧ d.any WinPrefix.isDrive = true := by simpa [isSep] using h
    cases d with
    | none => cases hdrive
    | some d =>
      obtain ⟨raw, heq, hspelled, -⟩ := spelled_of_parsePrefix hp
      rw [hrest, List.append_nil] at heq
      cases hspelled with
      | @disk letter halpha =>
        have hlast := congrArg List.getLast? heq
        simp at hlast
      | unc => cases hdrive
      | deviceNs => cases hdrive
      | verbatim => cases hdrive
      | verbatimServer => cases hdrive
      | verbatimUnc => cases hdrive
      | verbatimDisk => cases hdrive

/-- Pushing a short piece makes no long run. -/
theorem noRun_push (hn : c.length ≤ n) (h : NoRun n p.text) : NoRun n (winPush p c).text := by
  have hc : NoRun n c := noRun_of_length hn
  have hraw : NoRun n (rawPrefix p.text) := h.of_part (List.take_prefix _ _).isInfix
  unfold winPush
  split
  · exact hc
  · split
    · refine noRun_verbatimText hraw (noRun_foldl_verbatimPush (fun x hx => noRun_of_mem_comps h hx) ?_)
      intro x hx
      rcases List.mem_append.mp hx with hx | hx
      · have htext : componentText x = [] := by
          rcases List.mem_append.mp hx with hx | hx
          · split at hx
            · rw [List.mem_singleton.mp hx]
              rfl
            · cases hx
          · split at hx
            · rw [List.mem_singleton.mp hx]
              rfl
            · cases hx
        rw [htext]
        exact noRun_of_length (Nat.zero_le _)
      · exact noRun_of_mem_comps hc hx
    · split
      · rename_i hroot
        cases c with
        | nil => cases hroot
        | cons s u => exact hraw.append_cons (ne_letter_of_isSep hroot) (hc.of_part (List.suffix_cons _ _).isInfix)
      · split
        · exact h.append_cons (by decide) hc
        · rename_i hsep
          rcases needSep_eq_false (Bool.eq_false_iff.mpr hsep) with hnil | ⟨init, s, hlast, hs⟩
          · rw [hnil]
            exact hc
          · rw [hlast, List.append_assoc, List.singleton_append]
            exact (h.of_part (hlast ▸ (List.prefix_append _ _).isInfix)).append_cons hs hc

/-- A path on the drive `Z:`. -/
def OnDrive (t : Str) : Prop := ∃ u, t = 'Z' :: ':' :: u ∧ u ≠ []

/-- A path on the drive `Z:` with a `..` in it. -/
def Up (t : Str) : Prop := ∃ u, t = 'Z' :: ':' :: u ∧ u ≠ [] ∧ ['.', '.'] ∈ u.splitOnP isSep

/-- A drive is read as a drive. -/
theorem parsePrefix_onDrive (u : Str) : parsePrefix ('Z' :: ':' :: u) = (some (.disk 'Z'), u) := by
  rw [parsePrefix_drive (by decide), if_pos (by decide)]
  rfl

/-- A short piece either takes the place of all but the drive, or is put after the path. -/
theorem winPush_onDrive {u : Str} (hp : p.text = 'Z' :: ':' :: u) (hn : c.length ≤ n) :
    NoRun n (winPush p c).text ∨ (parsePrefix c = (none, c) ∧ hasPhysicalRoot c = false ∧
      ∃ ext, (winPush p c).text = 'Z' :: ':' :: (u ++ ext) ∧ Joins c u ext) := by
  have hc : NoRun n c := noRun_of_length hn
  have hlead := parsePrefix_onDrive u
  rw [← hp] at hlead
  cases hd : parsePrefix c with
  | mk d rest =>
  cases d with
  | some d =>
    refine .inl ?_
    rw [winPush, hd, if_pos (by simp)]
    exact hc
  | none =>
    obtain rfl := parsePrefix_none hd
    cases hroot : hasPhysicalRoot rest with
    | true =>
      refine .inl ?_
      have hraw : rawPrefix p.text = ['Z', ':'] := by
        have h := rawPrefix_append ['Z', ':'] (parsePrefix_onDrive u)
        rw [hp]
        exact h
      rw [winPush, hd, hlead, if_neg (by simp), if_neg (by simp [WinPrefix.isVerbatim]), if_pos hroot, hraw]
      exact NoRun.append_cons (t := ['Z']) (u := rest) (fun hr => by
        have := hr.subset (List.mem_replicate.mpr ⟨Nat.succ_ne_zero n, rfl⟩)
        simp at this) (by decide) hc
    | false =>
      refine .inr ⟨rfl, rfl, pushed p.text rest, ?_, ?_⟩
      · rw [winPush, hd, hlead, hroot]
        simp only [Option.any_some, WinPrefix.isVerbatim, Bool.false_and, Option.isSome_none, Bool.false_eq_true, if_false, pushed]
        rw [hp]
        split <;> rfl
      · exact joins_pushed hlead ⟨['Z', ':'], hp.symm⟩

/-- The pieces of a text stay when something is put after it. -/
theorem mem_split_join {u ext piece : Str} (hj : Joins c u ext) (hpiece : piece ≠ []) (h : piece ∈ u.splitOnP isSep) :
    piece ∈ (u ++ ext).splitOnP isSep := by
  cases hj with
  | sep u =>
    rw [List.splitOnP_append_cons u c rfl]
    exact List.mem_append_left _ h
  | nil =>
    rw [List.splitOnP_nil, List.mem_singleton] at h
    exact absurd h hpiece
  | @last s u hs =>
    rw [List.splitOnP_append_cons u [] hs] at h
    rw [List.append_assoc, List.singleton_append, List.splitOnP_append_cons u c hs]
    rcases List.mem_append.mp h with h | h
    · exact List.mem_append_left _ h
    · rw [List.splitOnP_nil, List.mem_singleton] at h
      exact absurd h hpiece

/-- A piece of what is pushed is a piece of the whole. -/
theorem mem_split_pushed {u ext piece : Str} (hj : Joins c u ext) (hu : u ≠ []) (h : piece ∈ c.splitOnP isSep) :
    piece ∈ (u ++ ext).splitOnP isSep := by
  cases hj with
  | sep u =>
    rw [List.splitOnP_append_cons u c rfl]
    exact List.mem_append_right _ h
  | nil => exact absurd rfl hu
  | @last s u hs =>
    rw [List.append_assoc, List.singleton_append, List.splitOnP_append_cons u c hs]
    exact List.mem_append_right _ h

/-- The path has lost the long name or goes up. -/
def Lost (n : Nat) (t : Str) : Prop := NoRun n t ∨ Up t

/-- What is lost stays lost. -/
theorem lost_push (hn : c.length ≤ n) (h : Lost n p.text) : Lost n (winPush p c).text := by
  rcases h with h | ⟨u, hp, hu, hup⟩
  · exact .inl (noRun_push hn h)
  · rcases winPush_onDrive hp hn with h | ⟨-, -, ext, htext, hj⟩
    · exact .inl h
    · exact .inr ⟨u ++ ext, htext, by simp [hu], mem_split_join hj (List.cons_ne_nil _ _) hup⟩

/-- A piece that is not inward loses the name, or goes up. -/
theorem lost_of_not_inward (hn : c.length ≤ n) (hp : OnDrive p.text) (h : ¬Inward c) : Lost n (winPush p c).text := by
  obtain ⟨u, hp, hu⟩ := hp
  rcases winPush_onDrive hp hn with hrun | ⟨hlead, hroot, ext, htext, hj⟩
  · exact .inl hrun
  · have hparse : parseWinPath c = ⟨none, false, winComponents true c⟩ := by
      unfold parseWinPath
      rw [hlead]
      simp [hroot]
    have hup : .parentDir ∈ winComponents true c := by
      by_contra hup
      exact h ⟨by rw [hparse], by rw [hparse], by rw [hparse]; exact hup⟩
    have hpiece : ['.', '.'] ∈ c.splitOnP isSep := by
      rcases List.mem_append.mp hup with hup | hup
      · split at hup <;> simp at hup
      · obtain ⟨piece, hmem, hx⟩ := List.mem_filterMap.mp hup
        have hdots := text_of_pieceComponent hx
        rw [componentText] at hdots
        exact hdots ▸ hmem
    exact .inr ⟨u ++ ext, htext, by simp [hu], mem_split_pushed hj hu hpiece⟩

/-- A push on a drive stays on a drive, or leads to a short path. -/
theorem onDrive_push (hn : c.length ≤ n) (hp : OnDrive p.text) : OnDrive (winPush p c).text ∨ NoRun n (winPush p c).text := by
  obtain ⟨u, hp, hu⟩ := hp
  rcases winPush_onDrive hp hn with hrun | ⟨-, -, ext, htext, -⟩
  · exact .inr hrun
  · exact .inl ⟨u ++ ext, htext, by simp [hu]⟩

/-- What is lost stays lost. -/
theorem lost_foldl_of_lost {cs : List Str} : ∀ {p : WinPath}, (∀ c ∈ cs, c.length ≤ n) → Lost n p.text → Lost n (cs.foldl winPush p).text := by
  induction cs with
  | nil => exact fun _ h => h
  | cons c cs ih =>
    intro p hcs h
    exact ih (fun d hd => hcs d (List.mem_cons_of_mem _ hd)) (lost_push (hcs c List.mem_cons_self) h)

/-- A row of pieces of which one is not inward loses the name, or goes up. -/
theorem lost_foldl {cs : List Str} : ∀ {p : WinPath}, (∀ c ∈ cs, c.length ≤ n) → OnDrive p.text → (∃ c ∈ cs, ¬Inward c) →
    Lost n (cs.foldl winPush p).text := by
  induction cs with
  | nil => exact fun _ _ h => absurd h (by simp)
  | cons c cs ih =>
    intro p hcs hp h
    have hle := hcs c List.mem_cons_self
    have hcs' : ∀ d ∈ cs, d.length ≤ n := fun d hd => hcs d (List.mem_cons_of_mem _ hd)
    rw [List.foldl_cons]
    by_cases hin : Inward c
    · obtain ⟨d, hd, hout⟩ := h
      have hd' : d ∈ cs := (List.mem_cons.mp hd).resolve_left fun heq => hout (heq ▸ hin)
      rcases onDrive_push hle hp with hp' | hrun
      · exact ih hcs' hp' ⟨d, hd', hout⟩
      · exact lost_foldl_of_lost hcs' (.inl hrun)
    · exact lost_foldl_of_lost hcs' (lost_of_not_inward hle hp hin)

end

/-! ## Directories that are not complete -/

/-- The piece that leaves such a directory. -/
def pieceX : Str := ['x']

/-- The piece leads inward. -/
theorem inward_pieceX : Inward pieceX := by decide

/-- Two separators, a server, a separator and a piece: there is a prefix. -/
theorem parsePrefix_open {a b s : Char} {server : Str} (ha : isSep a = true) (hb : isSep b = true) (hs : isSep s = true)
    (hserver : IsName isSep server) (hne : server ≠ []) : ∃ d rest, parsePrefix (a :: b :: (server ++ s :: pieceX)) = (some d, rest) := by
  have hx : IsName isSep pieceX := by simp [IsName, pieceX, isSep]
  by_cases hdot : server = ['.']
  · subst hdot
    exact ⟨_, _, parsePrefix_device pieceX ha hb hs⟩
  · by_cases hmark : server = ['?'] → s = '\\' → a = '/' ∨ b = '/'
    · have hspelled := Spelled.unc ha hb hs hserver hx ⟨hne, List.cons_ne_nil _ _⟩ hdot hmark
      have hends : Ends (.unc server pieceX) [] := .inl rfl
      have hlead := parsePrefix_spelled hspelled hends
      rw [List.append_nil] at hlead
      exact ⟨_, _, hlead⟩
    · obtain ⟨rfl, rfl, ha', hb'⟩ : server = ['?'] ∧ s = '\\' ∧ a ≠ '/' ∧ b ≠ '/' := by
        by_contra hno
        refine hmark fun h₁ h₂ => ?_
        by_contra h₃
        exact hno ⟨h₁, h₂, fun h => h₃ (.inl h), fun h => h₃ (.inr h)⟩
      obtain rfl : a = '\\' := by simpa [isSep, ha'] using ha
      obtain rfl : b = '\\' := by simpa [isSep, hb'] using hb
      cases hp : parsePrefix ('\\' :: '\\' :: (['?'] ++ '\\' :: pieceX)) with
      | mk d rest =>
      cases d with
      | none => exact absurd ((parsePrefix_verbatim pieceX).symm.trans hp) (parseVerbatim_ne_none _ _)
      | some d => exact ⟨d, rest, rfl⟩

/-- A path without a prefix has a root as its first component, if a separator is its first character. -/
theorem components_unprefixed {t : Str} (h : parsePrefix t = (none, t)) (hroot : hasPhysicalRoot t = true) :
    ∃ comps, (parseWinPath t).components = .rootDir :: comps := by
  unfold parseWinPath
  rw [h]
  exact ⟨winComponents false t, by simp [WinParts.components, hroot]⟩

/-- A path with a prefix has it as its first component. -/
theorem components_prefixed {t rest : Str} {d : WinPrefix} (h : parsePrefix t = (some d, rest)) :
    ∃ comps, (parseWinPath t).components = .drive d :: comps := by
  unfold parseWinPath
  rw [h]
  by_cases hv : d.isVerbatim = true
  · simp only [hv, if_true]
    exact ⟨_, rfl⟩
  · simp only [hv, Bool.false_eq_true, if_false]
    exact ⟨_, rfl⟩

/-- The path is not the directory with normal components put after it. -/
def Outside (dir : Str) (p : WinPath) : Prop :=
  ∀ names : List Str, p.components ≠ (parseWinPath dir).components ++ names.map .normal

/-- A path with another prefix than the directory is outside. -/
theorem outside_of_prefixed {dir rest : Str} {p : WinPath} {d : WinPrefix} (h : parsePrefix p.text = (some d, rest))
    (hdir : ∃ x comps, (parseWinPath dir).components = x :: comps ∧ x ≠ .drive d) : Outside dir p := by
  obtain ⟨x, comps, hdir, hx⟩ := hdir
  obtain ⟨comps', hp⟩ := components_prefixed h
  intro names heq
  rw [WinPath.components, hp, hdir, List.cons_append] at heq
  exact hx (List.cons.inj heq).1.symm

/-- An ordinary piece, or two of them, after an open text. -/
theorem escape_of_open {text : Str} (hp : parsePrefix text = (none, text)) (hopen : OpenUnc text) :
    Outside text (winPush ⟨text⟩ pieceX) ∨ Outside text (winPush (winPush ⟨text⟩ pieceX) pieceX) := by
  obtain ⟨a, b, server, tail, rfl, ha, hb, hserver, htail⟩ := hopen
  obtain ⟨comps, hdir⟩ := components_unprefixed hp (by simpa [hasPhysicalRoot] using ha)
  have hlead {q : Str} {s : Char} {p : WinPath} (hq : IsName isSep q) (hne : q ≠ []) (hs : isSep s = true)
      (hpush : p.text = a :: b :: (q ++ s :: pieceX)) : Outside (a :: b :: (server ++ tail)) p := by
    obtain ⟨d, rest, h⟩ := parsePrefix_open ha hb hs hq hne
    exact outside_of_prefixed (hpush ▸ h) ⟨_, comps, hdir, by simp⟩
  have hpush {t : Str} (ht : parsePrefix t = (none, t)) : (winPush ⟨t⟩ pieceX).text = t ++ pushed t pieceX := by
    rw [winPush_pushed (by simp [ht]) inward_pieceX]
  have hsep {t : Str} {d : Char} (ht : parsePrefix (t ++ [d]) = (none, t ++ [d])) : needSep (t ++ [d]) = !isSep d := by
    rw [needSep, ht]
    simp
  have hlast {t : Str} {d : Char} (ht : parsePrefix (t ++ [d]) = (none, t ++ [d])) (hd : isSep d = true) :
      (winPush ⟨t ++ [d]⟩ pieceX).text = t ++ d :: pieceX := by
    rw [hpush ht, pushed, hsep ht, hd]
    simp
  have hname {t : Str} {d : Char} (ht : parsePrefix (t ++ [d]) = (none, t ++ [d])) (hd : isSep d = false) :
      (winPush ⟨t ++ [d]⟩ pieceX).text = t ++ d :: '\\' :: pieceX := by
    rw [hpush ht, pushed, hsep ht, hd]
    simp
  rcases htail with rfl | ⟨hne, s, hs, rfl⟩
  · cases hr : server.reverse with
    | nil =>
      -- nothing after the two separators: the first piece is the server, the second the share
      obtain rfl : server = [] := by simpa using hr
      have hfirst : winPush ⟨[a, b]⟩ pieceX = ⟨[a, b, 'x']⟩ := congrArg WinPath.mk (hlast (t := [a]) (d := b) hp hb)
      have hnone : parsePrefix [a, b, 'x'] = (none, [a, b, 'x']) := by
        rw [parsePrefix_unc ha hb (by simp) (by simp), parseUnc_name (by simp [IsName, isSep])]
      refine .inr (hlead (q := pieceX) (s := '\\') (by simp [IsName, pieceX, isSep]) (List.cons_ne_nil _ _) rfl ?_)
      rw [List.append_nil, hfirst]
      exact hname (t := [a, b]) (d := 'x') hnone rfl
    | cons d init =>
      obtain rfl : server = init.reverse ++ [d] := by simpa using congrArg List.reverse hr
      refine .inl (hlead hserver (by simp) (rfl : isSep '\\' = true) ?_)
      have heq : a :: b :: (init.reverse ++ [d] ++ []) = (a :: b :: init.reverse) ++ [d] := by simp
      rw [heq] at hp ⊢
      rw [hname hp (hserver d (by simp))]
      simp
  · refine .inl (hlead hserver hne hs ?_)
    have heq : a :: b :: (server ++ [s]) = (a :: b :: server) ++ [s] := rfl
    rw [heq] at hp ⊢
    rw [hlast hp hs]
    rfl

/-- What a push of the piece does to a verbatim path. -/
theorem winPush_verbatim {raw rest : Str} {d : WinPrefix} (h : parsePrefix (raw ++ rest) = (some d, rest)) (hv : d.isVerbatim = true) :
    winPush ⟨raw ++ rest⟩ pieceX =
      ⟨raw ++ '\\' :: ['\\'].intercalate (((parseWinPath (raw ++ rest)).comps ++ [Component.normal pieceX]).map componentText)⟩ := by
  have hraw := rawPrefix_append raw h
  have hparts : (parseWinPath pieceX).components = [.normal pieceX] := by decide
  have hnone : (parsePrefix pieceX).1.isSome = false := by decide
  have hne : pieceX.isEmpty = false := rfl
  unfold winPush
  rw [hnone, hparts, hraw, hne, if_neg (by simp), if_pos (by simp [h, hv])]
  simp [verbatimPush, verbatimText]

/-- The first of several pieces spelled with backslashes. -/
theorem intercalate_head (piece : Str) (pieces : List Str) :
    ∃ rest, ['\\'].intercalate (piece :: pieces) = piece ++ rest ∧ Stops isVerbatimSep rest := by
  cases pieces with
  | nil => exact ⟨[], by simp, .inl rfl⟩
  | cons piece' pieces => exact ⟨'\\' :: ['\\'].intercalate (piece' :: pieces), by simp [List.intercalate_cons_cons], .inr ⟨_, _, rfl, rfl⟩⟩

/-- A piece is not empty. -/
theorem IsPiece.ne_nil {x : Component} (h : IsPiece x) : componentText x ≠ [] := by
  intro hnil
  have h' := h.2
  rw [hnil] at h'
  cases h'

/-- A verbatim prefix without a root gets one from the push. -/
theorem escape_of_root {raw : Str} {d : WinPrefix} (hs : Spelled d raw) (hv : d.isVerbatim = true) (he : Ends d [])
    (he' : ∀ u, Ends d ('\\' :: u)) : Outside (raw ++ []) (winPush ⟨raw ++ []⟩ pieceX) := by
  intro names heq
  have hlead := parsePrefix_spelled hs he
  rw [winPush_verbatim hlead hv, WinPath.components, parseWinPath_verbatim hs hv (he' _), parseWinPath_some hlead hv] at heq
  have hnil : [[]].filterMap verbatimPieceComponent = [] := rfl
  cases names <;> simp [WinParts.components, hasPhysicalRoot, hnil] at heq

/-- A prefix that is not complete takes the piece in, or gets a root from it. -/
theorem escape_of_prefixed {text rest : Str} {d : WinPrefix} (h : parsePrefix text = (some d, rest)) (hinc : ¬d.Complete rest) :
    Outside text (winPush ⟨text⟩ pieceX) := by
  obtain ⟨raw, rfl, hspelled, hends⟩ := spelled_of_parsePrefix h
  obtain ⟨comps, hdir⟩ := components_prefixed h
  cases hspelled with
  | disk => exact absurd trivial hinc
  | unc => exact absurd trivial hinc
  | @deviceNs a b c name ha hb hc hname =>
    obtain ⟨rfl, rfl⟩ : name = [] ∧ rest = [] := by simpa [WinPrefix.Complete] using hinc
    have hdev : parsePrefix [a, b, '.', c] = (some (.deviceNs []), []) := h
    have hneed : needSep [a, b, '.', c] = false := by
      rw [needSep, hdev]
      simp [hc, WinPrefix.isDrive]
    have hpush : (winPush ⟨[a, b, '.', c]⟩ pieceX).text = a :: b :: '.' :: c :: pieceX := by
      rw [winPush_pushed (by rw [hdev]; rfl) inward_pieceX, pushed, hneed]
      rfl
    exact outside_of_prefixed (hpush ▸ parsePrefix_device _ ha hb hc) ⟨_, comps, hdir, by simp [parseNextComponent, pieceX, isSep]⟩
  | @verbatim name hname hdrive hunc =>
    obtain rfl : rest = [] := by simpa [WinPrefix.Complete] using hinc
    have hspelled : Spelled (.verbatim name) _ := .verbatim hname hdrive hunc
    by_cases hmark : name = ['U', 'N', 'C']
    · subst hmark
      have hcomps : (parseWinPath ('\\' :: '\\' :: '?' :: '\\' :: ['U', 'N', 'C'] ++ [])).comps = [] := by decide
      have hnewSpelled : Spelled (.verbatimUnc pieceX []) _ :=
        .verbatimServer (c := '\\') rfl (by simp [IsName, pieceX, isVerbatimSep])
      have hnewEnds : Ends (.verbatimUnc pieceX []) [] := ⟨.inl rfl, fun _ => .inl rfl⟩
      have hnew : parsePrefix (winPush ⟨'\\' :: '\\' :: '?' :: '\\' :: ['U', 'N', 'C'] ++ []⟩ pieceX).text =
          (some (.verbatimUnc pieceX []), []) := by
        rw [winPush_verbatim h rfl, hcomps]
        exact parsePrefix_spelled hnewSpelled hnewEnds
      exact outside_of_prefixed hnew ⟨_, comps, hdir, by simp⟩
    · exact escape_of_root hspelled rfl hends fun u => ⟨.inr ⟨_, u, rfl, rfl⟩, fun h => absurd h hmark⟩
  | @verbatimServer c server hc hserver =>
    have hparts := parseWinPath_some h rfl
    have hpieces : ∀ x ∈ (parseWinPath ('\\' :: '\\' :: '?' :: '\\' :: 'U' :: 'N' :: 'C' :: c :: server ++ rest)).comps ++
        [.normal pieceX], IsPiece x := by
      intro x hx
      rw [hparts] at hx
      rcases List.mem_append.mp hx with hx | hx
      · exact isPiece_of_mem hx
      · rw [List.mem_singleton.mp hx]
        exact isPiece_normal rfl (by simp [IsName, pieceX, isSep])
    -- the first of the pieces becomes the share
    obtain ⟨x, xs, hcons⟩ := List.exists_cons_of_ne_nil (List.append_ne_nil_of_right_ne_nil
      (parseWinPath ('\\' :: '\\' :: '?' :: '\\' :: 'U' :: 'N' :: 'C' :: c :: server ++ rest)).comps (List.cons_ne_nil (.normal pieceX) []))
    have hx : IsPiece x := hpieces x (by rw [hcons]; exact List.mem_cons_self)
    obtain ⟨rest', hjoin, hrest'⟩ := intercalate_head (componentText x) (xs.map componentText)
    have hshare : IsName isVerbatimSep (componentText x) := by
      intro e he
      simpa [isVerbatimSep] using fun heq : e = '\\' => hx.1 (heq ▸ he)
    have hnewEnds : Ends (.verbatimUnc server (componentText x)) rest' := ⟨hrest', fun hnil => absurd hnil hx.ne_nil⟩
    have hnew : parsePrefix (winPush ⟨'\\' :: '\\' :: '?' :: '\\' :: 'U' :: 'N' :: 'C' :: c :: server ++ rest⟩ pieceX).text =
        (some (.verbatimUnc server (componentText x)), rest') := by
      rw [winPush_verbatim h rfl, hcons, List.map_cons, hjoin]
      simpa using parsePrefix_spelled (.verbatimUnc hc hserver hshare hx.ne_nil) hnewEnds
    exact outside_of_prefixed hnew ⟨_, comps, hdir, by simp [hx.ne_nil.symm]⟩
  | @verbatimUnc c server share hc hserver hshare hne =>
    obtain rfl : rest = [] := by simpa [WinPrefix.Complete, hne] using hinc
    exact escape_of_root (.verbatimUnc hc hserver hshare hne) rfl hends fun u => ⟨.inr ⟨_, u, rfl, rfl⟩, fun h => absurd h hne⟩
  | verbatimDisk halpha =>
    obtain rfl : rest = [] := by simpa [WinPrefix.Complete] using hinc
    exact escape_of_root (.verbatimDisk halpha) rfl hends fun u => .inr ⟨_, u, rfl, rfl⟩

/-- An ordinary piece, or two of them, leave a directory that is not complete. -/
theorem escape_of_incomplete {text : Str} (h : ¬Complete text) :
    Outside text (winPush ⟨text⟩ pieceX) ∨ Outside text (winPush (winPush ⟨text⟩ pieceX) pieceX) := by
  cases hp : parsePrefix text with
  | mk d rest =>
  cases d with
  | none =>
    obtain rfl := parsePrefix_none hp
    exact escape_of_open hp (by simpa [complete_none hp] using h)
  | some d => exact .inl (escape_of_prefixed hp (by simpa [complete_some hp] using h))

end WasmtimeMysql
