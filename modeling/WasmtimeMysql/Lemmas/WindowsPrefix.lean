import WasmtimeMysql.HostPaths

/-!
# The prefix of a Windows path

`Spelled` are the texts that spell a prefix, and `Ends` is what may follow one. `parse_prefix` finds a prefix where a text of the one kind is
followed by one of the other, and only there (`parsePrefix_iff`). So what is put after a prefix leaves it alone, if it may follow it.
-/

namespace WasmtimeMysql

/-! ## A name and what follows it -/

/-- No character of a name separates. -/
def IsName (sep : Char → Bool) (name : Str) : Prop := ∀ c ∈ name, sep c = false

/-- A text ends, or a separator comes. -/
def Stops (sep : Char → Bool) (rest : Str) : Prop := rest = [] ∨ ∃ c u, sep c = true ∧ rest = c :: u

section
variable {sep : Char → Bool} {name rest : Str}

/-- A name ends where the rest begins, ... -/
theorem takeWhile_name (hname : IsName sep name) (hrest : Stops sep rest) : (name ++ rest).takeWhile (fun c => !sep c) = name := by
  rw [List.takeWhile_append_of_pos fun c hc => by simp [hname c hc]]
  rcases hrest with rfl | ⟨c, u, hc, rfl⟩
  · simp
  · simp [hc]

/-- ... the rest begins there, ... -/
theorem fromSep_name (hname : IsName sep name) (hrest : Stops sep rest) : fromSep sep (name ++ rest) = rest := by
  unfold fromSep
  rw [List.dropWhile_append_of_pos fun c hc => by simp [hname c hc]]
  rcases hrest with rfl | ⟨c, u, hc, rfl⟩
  · rfl
  · simp [hc]

/-- ... and behind the separator the next one. -/
theorem parseNextComponent_name (hname : IsName sep name) (hrest : Stops sep rest) :
    parseNextComponent sep (name ++ rest) = (name, rest.drop 1) := by
  unfold parseNextComponent
  rw [takeWhile_name hname hrest]
  exact congrArg (fun t : Str => (name, t.drop 1)) (fromSep_name hname hrest)

/-- Every text is a name and what follows it. -/
theorem exists_name (sep : Char → Bool) (t : Str) : ∃ name rest, t = name ++ rest ∧ IsName sep name ∧ Stops sep rest := by
  refine ⟨t.takeWhile (fun c => !sep c), t.dropWhile (fun c => !sep c), List.takeWhile_append_dropWhile.symm, ?_, ?_⟩
  · intro c hc
    simpa using List.mem_takeWhile_imp hc
  · cases h : t.dropWhile (fun c => !sep c) with
    | nil => exact .inl rfl
    | cons c u =>
      have hc := List.head_dropWhile_not (fun c => !sep c) (w := by rw [h]; exact List.cons_ne_nil _ _)
      simp only [h, List.head_cons, Bool.not_eq_false'] at hc
      exact .inr ⟨c, u, hc, rfl⟩

/-- The name is the only one. -/
theorem name_unique {name' rest' : Str} (hname : IsName sep name) (hrest : Stops sep rest) (hname' : IsName sep name') (hrest' : Stops sep rest')
    (h : name ++ rest = name' ++ rest') : name = name' ∧ rest = rest' := by
  have heq : name = name' := by rw [← takeWhile_name hname hrest, h, takeWhile_name hname' hrest']
  subst heq
  exact ⟨rfl, List.append_cancel_left h⟩

end

/-! ## Prefixes -/

/-- The texts that spell a prefix. -/
inductive Spelled : WinPrefix → Str → Prop
  | disk {letter : Char} (halpha : letter.isAlpha = true) : Spelled (.disk letter.toUpper) [letter, ':']
  | unc {a b s : Char} {server share : Str} (ha : isSep a = true) (hb : isSep b = true) (hs : isSep s = true)
      (hserver : IsName isSep server) (hshare : IsName isSep share) (hne : server ≠ [] ∧ share ≠ []) (hdot : server ≠ ['.'])
      (hmark : server = ['?'] → s = '\\' → a = '/' ∨ b = '/') : Spelled (.unc server share) (a :: b :: (server ++ s :: share))
  | deviceNs {a b c : Char} {name : Str} (ha : isSep a = true) (hb : isSep b = true) (hc : isSep c = true) (hname : IsName isSep name) :
      Spelled (.deviceNs name) (a :: b :: '.' :: c :: name)
  | verbatim {name : Str} (hname : IsName isVerbatimSep name) (hdrive : parseDriveExact name = none)
      (hunc : ∀ c u, isSep c = true → name ≠ 'U' :: 'N' :: 'C' :: c :: u) :
      Spelled (.verbatim name) ('\\' :: '\\' :: '?' :: '\\' :: name)
  | verbatimServer {c : Char} {server : Str} (hc : isSep c = true) (hserver : IsName isVerbatimSep server) :
      Spelled (.verbatimUnc server []) ('\\' :: '\\' :: '?' :: '\\' :: 'U' :: 'N' :: 'C' :: c :: server)
  | verbatimUnc {c : Char} {server share : Str} (hc : isSep c = true) (hserver : IsName isVerbatimSep server)
      (hshare : IsName isVerbatimSep share) (hne : share ≠ []) :
      Spelled (.verbatimUnc server share) ('\\' :: '\\' :: '?' :: '\\' :: 'U' :: 'N' :: 'C' :: c :: (server ++ '\\' :: share))
  | verbatimDisk {letter : Char} (halpha : letter.isAlpha = true) :
      Spelled (.verbatimDisk letter.toUpper) ('\\' :: '\\' :: '?' :: '\\' :: [letter, ':'])

/-- What may follow a prefix. -/
def Ends : WinPrefix → Str → Prop
  | .disk _, _ => True
  | .unc .., rest | .deviceNs _, rest | .verbatimDisk _, rest => Stops isSep rest
  | .verbatim name, rest => Stops isVerbatimSep rest ∧ (name = ['U', 'N', 'C'] → rest = [])
  | .verbatimUnc _ share, rest =>
    Stops isVerbatimSep rest ∧ (share = [] → rest = [] ∨ ∃ u, rest = '\\' :: u ∧ Stops isVerbatimSep u)

/-- A verbatim separator is a backslash, ... -/
theorem isVerbatimSep_iff {c : Char} : isVerbatimSep c = true ↔ c = '\\' := by
  simp [isVerbatimSep]

/-- ... which is a separator. -/
theorem isSep_of_isVerbatimSep {c : Char} (h : isVerbatimSep c = true) : isSep c = true := by
  rw [isVerbatimSep_iff.mp h]
  rfl

/-- What follows a verbatim name starts with a backslash. -/
theorem stops_verbatim {rest : Str} : Stops isVerbatimSep rest ↔ rest = [] ∨ ∃ u, rest = '\\' :: u := by
  refine or_congr Iff.rfl ⟨?_, ?_⟩
  · rintro ⟨c, u, hc, rfl⟩
    rw [isVerbatimSep_iff.mp hc]
    exact ⟨u, rfl⟩
  · rintro ⟨u, rfl⟩
    exact ⟨_, u, rfl, rfl⟩

/-- A letter does not separate. -/
theorem isSep_of_isAlpha {c : Char} (h : c.isAlpha = true) : isSep c = false := by
  by_contra hc
  rw [Bool.not_eq_false] at hc
  rcases (by simpa [isSep] using hc : c = '/' ∨ c = '\\') with rfl | rfl <;> exact absurd h (by decide)

/-! ### The arms -/

/-- The UNC arm on two names with a separator between them. -/
theorem parseUnc_names {server share rest path : Str} {s : Char} (hs : isSep s = true) (hserver : IsName isSep server)
    (hshare : IsName isSep share) (hrest : Stops isSep rest) :
    parsePrefix.parseUnc (server ++ s :: (share ++ rest)) path =
      if server ≠ [] ∧ share ≠ [] then (some (.unc server share), rest) else (none, path) := by
  unfold parsePrefix.parseUnc
  rw [parseNextComponent_name hserver (.inr ⟨s, _, hs, rfl⟩)]
  simp only [List.drop_one, List.tail_cons]
  rw [parseNextComponent_name hshare hrest, fromSep_name hshare hrest]

/-- ... and on one name. -/
theorem parseUnc_name {server path : Str} (hserver : IsName isSep server) : parsePrefix.parseUnc server path = (none, path) := by
  have h := parseNextComponent_name hserver (.inl rfl : Stops isSep [])
  rw [List.append_nil] at h
  unfold parsePrefix.parseUnc
  rw [h]
  simp [parseNextComponent]

/-- A prefix that the UNC arm finds. -/
theorem spelled_of_parseUnc {r path rest : Str} {d : WinPrefix} (h : parsePrefix.parseUnc r path = (some d, rest)) :
    ∃ server s share, r = server ++ s :: (share ++ rest) ∧ isSep s = true ∧ IsName isSep server ∧ IsName isSep share ∧
      Stops isSep rest ∧ server ≠ [] ∧ share ≠ [] ∧ d = .unc server share := by
  obtain ⟨server, r₁, rfl, hserver, rfl | ⟨s, r₂, hs, rfl⟩⟩ := exists_name isSep r
  · rw [List.append_nil, parseUnc_name hserver] at h
    cases h
  · obtain ⟨share, rest', rfl, hshare, hrest⟩ := exists_name isSep r₂
    rw [parseUnc_names hs hserver hshare hrest] at h
    split at h
    · rename_i hne
      cases h
      exact ⟨server, s, share, rfl, hs, hserver, hshare, hrest, hne.1, hne.2, rfl⟩
    · cases h

/-- The verbatim UNC arm on a server alone. -/
theorem parseVerbatimUnc_server {server rest : Str} (hserver : IsName isVerbatimSep server)
    (hrest : rest = [] ∨ ∃ u, rest = '\\' :: u ∧ Stops isVerbatimSep u) :
    parsePrefix.parseVerbatimUnc (server ++ rest) = (some (.verbatimUnc server []), rest) := by
  have hstops : Stops isVerbatimSep rest := by
    rcases hrest with rfl | ⟨u, rfl, -⟩
    · exact .inl rfl
    · exact .inr ⟨_, u, rfl, rfl⟩
  have hshare : (parseNextComponent isVerbatimSep (rest.drop 1)).1 = [] := by
    rcases hrest with rfl | ⟨u, rfl, rfl | ⟨c, v, hc, rfl⟩⟩
    · rfl
    · rfl
    · simp [parseNextComponent, hc]
  unfold parsePrefix.parseVerbatimUnc
  rw [parseNextComponent_name hserver hstops]
  simp only [hshare, fromSep_name hserver hstops, if_true]

/-- ... and on a server and a share. -/
theorem parseVerbatimUnc_names {server share rest : Str} (hserver : IsName isVerbatimSep server) (hshare : IsName isVerbatimSep share)
    (hne : share ≠ []) (hrest : Stops isVerbatimSep rest) :
    parsePrefix.parseVerbatimUnc (server ++ '\\' :: (share ++ rest)) = (some (.verbatimUnc server share), rest) := by
  unfold parsePrefix.parseVerbatimUnc
  rw [parseNextComponent_name hserver (.inr ⟨_, _, rfl, rfl⟩)]
  simp only [List.drop_one, List.tail_cons]
  rw [parseNextComponent_name hshare hrest, fromSep_name hshare hrest]
  simp only [if_neg hne]

/-- A drive is read off the first two characters. -/
theorem parseDrive_cons_cons (a b : Char) (t : Str) :
    parseDrive (a :: b :: t) = if a.isAlpha = true ∧ b = ':' then some a.toUpper else none := by
  unfold parseDrive
  split
  · rename_i heq
    injection heq with ha ht
    injection ht with hb ht
    subst ha hb
    simp
  · rename_i hno
    rw [if_neg]
    rintro ⟨-, rfl⟩
    exact hno a t rfl

/-- What follows a verbatim name does not make a drive of it. -/
theorem parseDriveExact_append {name rest : Str} (hrest : Stops isVerbatimSep rest) :
    parseDriveExact (name ++ rest) = parseDriveExact name := by
  rcases stops_verbatim.mp hrest with rfl | ⟨u, rfl⟩
  · rw [List.append_nil]
  · have hback : '\\'.isAlpha = false := by decide
    have hnil : parseDrive [] = none := rfl
    match name with
    | [] =>
      match u with
      | [] => rfl
      | [x] => simp [parseDriveExact, parseDrive_cons_cons, hback, hnil]
      | x :: y :: v => simp [parseDriveExact, parseDrive_cons_cons, hback, hnil]
    | [a] =>
      match u with
      | [] => simp [parseDriveExact, parseDrive]
      | x :: v => simp [parseDriveExact, parseDrive]
    | [a, b] => simp [parseDriveExact, isSep, parseDrive_cons_cons]
    | a :: b :: c :: t => simp [parseDriveExact, parseDrive_cons_cons]

/-- A drive that is found exactly. -/
theorem parseDriveExact_eq_some {tail : Str} {d : Char} (h : parseDriveExact tail = some d) :
    ∃ letter rest, tail = letter :: ':' :: rest ∧ letter.isAlpha = true ∧ d = letter.toUpper ∧ Stops isSep rest := by
  match tail with
  | [] | [_] => simp [parseDriveExact, parseDrive] at h
  | a :: b :: t =>
    simp only [parseDriveExact, parseDrive_cons_cons] at h
    cases t with
    | nil =>
      obtain ⟨⟨ha, rfl⟩, rfl⟩ : (a.isAlpha = true ∧ b = ':') ∧ a.toUpper = d := by simpa using h
      exact ⟨a, [], rfl, ha, rfl, .inl rfl⟩
    | cons c u =>
      obtain ⟨hc, ⟨ha, rfl⟩, rfl⟩ : isSep c = true ∧ (a.isAlpha = true ∧ b = ':') ∧ a.toUpper = d := by simpa using h
      exact ⟨a, c :: u, rfl, ha, rfl, .inr ⟨c, u, hc, rfl⟩⟩

/-- A drive is a letter and a colon. -/
theorem parseDriveExact_drive {letter : Char} {rest : Str} (halpha : letter.isAlpha = true) (hrest : Stops isSep rest) :
    parseDriveExact (letter :: ':' :: rest) = some letter.toUpper := by
  rcases hrest with rfl | ⟨c, u, hc, rfl⟩
  · simp [parseDriveExact, parseDrive_cons_cons, halpha]
  · simp [parseDriveExact, parseDrive_cons_cons, halpha, hc]

/-- The verbatim arm, when no UNC prefix follows. -/
theorem parseVerbatim_name {tail : Str} (h : ∀ c u, isSep c = true → tail ≠ 'U' :: 'N' :: 'C' :: c :: u) :
    parsePrefix.parseVerbatim tail = parsePrefix.parseVerbatimName tail := by
  unfold parsePrefix.parseVerbatim
  split
  · rename_i c names
    rw [if_neg fun hc => h c names hc rfl]
  · rfl

/-- `\\?\UNC\` is read as a verbatim share. -/
theorem parseVerbatim_unc {c : Char} {names : Str} (hc : isSep c = true) :
    parsePrefix.parseVerbatim ('U' :: 'N' :: 'C' :: c :: names) = parsePrefix.parseVerbatimUnc names := by
  simp only [parsePrefix.parseVerbatim, hc, if_true]

/-- A text with two separators first that is neither verbatim nor of a device is read by the UNC arm. -/
theorem parsePrefix_unc {a b : Char} {r : Str} (ha : isSep a = true) (hb : isSep b = true)
    (hmark : ∀ u, r = '?' :: '\\' :: u → a = '/' ∨ b = '/') (hdot : ∀ c u, isSep c = true → r ≠ '.' :: c :: u) :
    parsePrefix (a :: b :: r) = parsePrefix.parseUnc r (a :: b :: r) := by
  simp only [parsePrefix, ha, hb, Bool.and_self, if_true]
  split
  · rename_i u
    rw [if_pos (by simpa using hmark u rfl)]
  · rename_i c u
    rw [if_neg fun hc => hdot c u hc rfl]
  · rfl

/-- The verbatim arm always finds a prefix. -/
theorem parseVerbatim_ne_none (tail rest : Str) : parsePrefix.parseVerbatim tail ≠ (none, rest) := by
  intro h
  unfold parsePrefix.parseVerbatim parsePrefix.parseVerbatimName at h
  split at h
  · split at h
    · cases h
    · split at h <;> cases h
  · split at h <;> cases h

/-- `\\?\` is read as a verbatim prefix. -/
theorem parsePrefix_verbatim (tail : Str) : parsePrefix ('\\' :: '\\' :: '?' :: '\\' :: tail) = parsePrefix.parseVerbatim tail := by
  simp [parsePrefix, isSep]

/-- `\\.\` is read as a device. -/
theorem parsePrefix_device {a b c : Char} (tail : Str) (ha : isSep a = true) (hb : isSep b = true) (hc : isSep c = true) :
    parsePrefix (a :: b :: '.' :: c :: tail) =
      (some (.deviceNs (parseNextComponent isSep tail).1), fromSep isSep tail) := by
  simp only [parsePrefix, ha, hb, hc, Bool.and_self, if_true]

/-- A text whose first two characters are not both separators may start with a drive. -/
theorem parsePrefix_drive {a b : Char} {r : Str} (h : ¬(isSep a = true ∧ isSep b = true)) :
    parsePrefix (a :: b :: r) = if a.isAlpha = true ∧ b = ':' then (some (.disk a.toUpper), r) else (none, a :: b :: r) := by
  have hsep : (isSep a && isSep b) = false := by simpa using h
  simp only [parsePrefix, hsep, Bool.false_eq_true, if_false, parseDrive_cons_cons]
  split <;> simp_all

/-! ### The prefix of a text -/

/-- What the verbatim arm takes off spells a verbatim prefix. -/
theorem spelled_of_parseVerbatim {d : WinPrefix} {tail rest : Str} (h : parsePrefix.parseVerbatim tail = (some d, rest)) :
    ∃ raw, '\\' :: '\\' :: '?' :: '\\' :: tail = raw ++ rest ∧ Spelled d raw ∧ Ends d rest := by
  by_cases hc : ∃ c u, isSep c = true ∧ tail = 'U' :: 'N' :: 'C' :: c :: u
  · obtain ⟨c, names, hc, rfl⟩ := hc
    rw [parseVerbatim_unc hc] at h
    obtain ⟨server, r, rfl, hserver, hr⟩ := exists_name isVerbatimSep names
    by_cases hshare : r = [] ∨ ∃ u, r = '\\' :: u ∧ Stops isVerbatimSep u
    · rw [parseVerbatimUnc_server hserver hshare] at h
      cases h
      exact ⟨_, rfl, .verbatimServer hc hserver, hr, fun _ => hshare⟩
    · obtain rfl | ⟨u, rfl⟩ := stops_verbatim.mp hr
      · exact absurd (.inl rfl) hshare
      · obtain ⟨share, rest', rfl, hshare', hrest'⟩ := exists_name isVerbatimSep u
        have hne : share ≠ [] := by
          rintro rfl
          exact hshare (.inr ⟨_, rfl, hrest'⟩)
        rw [parseVerbatimUnc_names hserver hshare' hne hrest'] at h
        cases h
        exact ⟨_, by simp, .verbatimUnc hc hserver hshare' hne, hrest', fun h => absurd h hne⟩
  · have hno : ∀ c u, isSep c = true → tail ≠ 'U' :: 'N' :: 'C' :: c :: u := fun c u hs he => hc ⟨c, u, hs, he⟩
    rw [parseVerbatim_name hno] at h
    unfold parsePrefix.parseVerbatimName at h
    cases hdrive : parseDriveExact tail with
    | some letter =>
      obtain ⟨letter', rest', rfl, halpha, rfl, hstops⟩ := parseDriveExact_eq_some hdrive
      rw [hdrive] at h
      cases h
      exact ⟨_, rfl, .verbatimDisk halpha, hstops⟩
    | none =>
      obtain ⟨name, rest', rfl, hname, hrest'⟩ := exists_name isVerbatimSep tail
      rw [hdrive] at h
      simp only [parseNextComponent_name hname hrest', fromSep_name hname hrest'] at h
      cases h
      refine ⟨_, rfl, .verbatim hname ?_ ?_, hrest', ?_⟩
      · rw [← parseDriveExact_append hrest', hdrive]
      · rintro c u hs rfl
        exact hno c _ hs rfl
      · rintro rfl
        rcases stops_verbatim.mp hrest' with rfl | ⟨u, rfl⟩
        · rfl
        · exact absurd rfl (hno '\\' u (by decide))

/-- A text that spells a prefix, followed by what may follow it, has that prefix. -/
theorem parsePrefix_spelled {d : WinPrefix} {raw rest : Str} (hs : Spelled d raw) (he : Ends d rest) :
    parsePrefix (raw ++ rest) = (some d, rest) := by
  cases hs with
  | disk halpha =>
    rw [List.cons_append, List.cons_append, parsePrefix_drive (by simp [isSep_of_isAlpha halpha]), if_pos ⟨halpha, rfl⟩, List.nil_append]
  | @unc a b s server share ha hb hs hserver hshare hne hdot hmark =>
    have heq : a :: b :: (server ++ s :: share) ++ rest = a :: b :: (server ++ s :: (share ++ rest)) := by simp
    -- the server is not the mark of another prefix
    have hname {m : Char} (hm : isSep m = false) {c : Char} (hc : isSep c = true) {u : Str}
        (h : server ++ s :: (share ++ rest) = m :: c :: u) : server = [m] ∧ s = c := by
      have hmark : IsName isSep [m] := by simp [IsName, hm]
      have h' := name_unique hserver (.inr ⟨s, _, hs, rfl⟩) hmark (.inr ⟨c, u, hc, rfl⟩)
        (h : server ++ s :: (share ++ rest) = [m] ++ c :: u)
      exact ⟨h'.1, (List.cons.inj h'.2).1⟩
    rw [heq, parsePrefix_unc ha hb, parseUnc_names hs hserver hshare he, if_pos hne]
    · intro u hu
      obtain ⟨h₁, h₂⟩ := hname (by decide) (by decide) hu
      exact hmark h₁ h₂
    · intro c u hc hu
      exact hdot (hname (by decide) hc hu).1
  | @deviceNs a b c name ha hb hc hname =>
    have heq : a :: b :: '.' :: c :: name ++ rest = a :: b :: '.' :: c :: (name ++ rest) := rfl
    rw [heq, parsePrefix_device _ ha hb hc, parseNextComponent_name hname he, fromSep_name hname he]
  | @verbatim name hname hdrive hunc =>
    have heq : '\\' :: '\\' :: '?' :: '\\' :: name ++ rest = '\\' :: '\\' :: '?' :: '\\' :: (name ++ rest) := rfl
    have hno : ∀ c u, isSep c = true → name ++ rest ≠ 'U' :: 'N' :: 'C' :: c :: u := by
      intro c u hc h
      rcases stops_verbatim.mp he.1 with rfl | ⟨v, rfl⟩
      · exact hunc c u hc (by simpa using h)
      · match name with
        | [] | [_] | [_, _] => simp at h
        | [x, y, z] =>
          obtain ⟨rfl, rfl, rfl, -⟩ : x = 'U' ∧ y = 'N' ∧ z = 'C' ∧ _ := by simpa using h
          exact absurd (he.2 rfl) (List.cons_ne_nil _ _)
        | x :: y :: z :: c' :: t =>
          obtain ⟨rfl, rfl, rfl, rfl, -⟩ : x = 'U' ∧ y = 'N' ∧ z = 'C' ∧ c' = c ∧ _ := by simpa using h
          exact hunc c' t hc rfl
    rw [heq, parsePrefix_verbatim, parseVerbatim_name hno]
    unfold parsePrefix.parseVerbatimName
    rw [parseDriveExact_append he.1, hdrive]
    simp only [parseNextComponent_name hname he.1, fromSep_name hname he.1]
  | @verbatimServer c server hc hserver =>
    exact (parsePrefix_verbatim _).trans ((parseVerbatim_unc hc).trans (parseVerbatimUnc_server hserver (he.2 rfl)))
  | @verbatimUnc c server share hc hserver hshare hne =>
    have heq : '\\' :: '\\' :: '?' :: '\\' :: 'U' :: 'N' :: 'C' :: c :: (server ++ '\\' :: share) ++ rest =
        '\\' :: '\\' :: '?' :: '\\' :: 'U' :: 'N' :: 'C' :: c :: (server ++ '\\' :: (share ++ rest)) := by simp
    rw [heq, parsePrefix_verbatim, parseVerbatim_unc hc, parseVerbatimUnc_names hserver hshare hne he.1]
  | @verbatimDisk letter halpha =>
    have heq : '\\' :: '\\' :: '?' :: '\\' :: [letter, ':'] ++ rest = '\\' :: '\\' :: '?' :: '\\' :: letter :: ':' :: rest := rfl
    rw [heq, parsePrefix_verbatim, parseVerbatim_name]
    · unfold parsePrefix.parseVerbatimName
      rw [parseDriveExact_drive halpha he]
      rfl
    · intro c u _ h
      simp at h

/-- ... and no other text has one. -/
theorem spelled_of_parsePrefix {d : WinPrefix} {path rest : Str} (h : parsePrefix path = (some d, rest)) :
    ∃ raw, path = raw ++ rest ∧ Spelled d raw ∧ Ends d rest := by
  have hunc {a b : Char} {r : Str} (ha : isSep a = true) (hb : isSep b = true)
      (hmark : ∀ u, r = '?' :: '\\' :: u → a = '/' ∨ b = '/') (hdot : ∀ c u, isSep c = true → r ≠ '.' :: c :: u)
      (h : parsePrefix.parseUnc r (a :: b :: r) = (some d, rest)) : ∃ raw, a :: b :: r = raw ++ rest ∧ Spelled d raw ∧ Ends d rest := by
    obtain ⟨server, s, share, rfl, hs, hserver, hshare, hrest, hne, hne', rfl⟩ := spelled_of_parseUnc h
    refine ⟨a :: b :: (server ++ s :: share), by simp, .unc ha hb hs hserver hshare ⟨hne, hne'⟩ ?_ ?_, hrest⟩
    · rintro rfl
      exact hdot s _ hs rfl
    · rintro rfl rfl
      exact hmark _ rfl
  match path with
  | [] | [_] => simp [parsePrefix] at h
  | a :: b :: r =>
    by_cases hsep : isSep a = true ∧ isSep b = true
    · obtain ⟨ha, hb⟩ := hsep
      by_cases hmark : ∃ u, r = '?' :: '\\' :: u ∧ a ≠ '/' ∧ b ≠ '/'
      · obtain ⟨u, rfl, ha', hb'⟩ := hmark
        obtain rfl : a = '\\' := by simpa [isSep, ha'] using ha
        obtain rfl : b = '\\' := by simpa [isSep, hb'] using hb
        rw [parsePrefix_verbatim] at h
        exact spelled_of_parseVerbatim h
      · by_cases hdot : ∃ c u, isSep c = true ∧ r = '.' :: c :: u
        · obtain ⟨c, u, hc, rfl⟩ := hdot
          obtain ⟨name, rest', rfl, hname, hrest'⟩ := exists_name isSep u
          rw [parsePrefix_device _ ha hb hc, parseNextComponent_name hname hrest', fromSep_name hname hrest'] at h
          cases h
          exact ⟨_, rfl, .deviceNs ha hb hc hname, hrest'⟩
        · have hmark' : ∀ u, r = '?' :: '\\' :: u → a = '/' ∨ b = '/' := by
            intro u hu
            by_contra hno
            exact hmark ⟨u, hu, fun h => hno (.inl h), fun h => hno (.inr h)⟩
          have hdot' : ∀ c u, isSep c = true → r ≠ '.' :: c :: u := fun c u hc hu => hdot ⟨c, u, hc, hu⟩
          rw [parsePrefix_unc ha hb hmark' hdot'] at h
          exact hunc ha hb hmark' hdot' h
    · rw [parsePrefix_drive hsep] at h
      split at h
      · rename_i hdrive
        obtain ⟨halpha, rfl⟩ := hdrive
        cases h
        exact ⟨[a, ':'], rfl, .disk halpha, trivial⟩
      · cases h

/-- Nothing is taken off a path without a prefix. -/
theorem parsePrefix_none {path rest : Str} (h : parsePrefix path = (none, rest)) : rest = path := by
  have hunc {r : Str} (h : parsePrefix.parseUnc r path = (none, rest)) : rest = path := by
    simp only [parsePrefix.parseUnc] at h
    split at h
    · cases h
    · exact (Prod.mk.inj h).2.symm
  unfold parsePrefix at h
  split at h
  · split at h
    · split at h
      · split at h
        · exact hunc h
        · exact absurd h (parseVerbatim_ne_none _ _)
      · split at h
        · cases h
        · exact hunc h
      · exact hunc h
    · split at h
      · cases h
      · exact (Prod.mk.inj h).2.symm
  · exact (Prod.mk.inj h).2.symm

end WasmtimeMysql
