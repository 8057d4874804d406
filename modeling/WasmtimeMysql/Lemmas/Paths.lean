import Mathlib.Data.List.Infix
import WasmtimeMysql.HostPaths
import WasmtimeMysql.Lib.Split

/-!
# What `resolve` can return

Whatever the host's path type, a path that `resolve` returns is the host path of one preopen with ordinary components pushed onto it,
and these are the last of the components that `normalize_guest_path` leaves of the guest path (`resolve_ok`).
-/

namespace WasmtimeMysql

open Effects Split

/-- An ordinary component: what the sandbox wants below a preopen. -/
def Ordinary (c : Str) : Prop := c ≠ [] ∧ '/' ∉ c ∧ c ≠ ['.'] ∧ c ≠ ['.', '.']

instance : DecidablePred Ordinary := fun c => inferInstanceAs (Decidable (c ≠ [] ∧ '/' ∉ c ∧ c ≠ ['.'] ∧ c ≠ ['.', '.']))

/-- The components `join_suffix` pushes. -/
def suffixParts (suffix : Str) : List Str := (suffix.splitOn '/').filter (fun c => decide (c ≠ [] ∧ c ≠ ['.']))

/-! ## `normalize_guest_path` -/

/-- What a step of the loop does: it skips the part, or takes the last part away for a `..`, or adds an ordinary part. -/
theorem pushPart_cases (parts : List Str) {part : Str} (hp : '/' ∉ part) :
    (¬Ordinary part ∧ part ≠ ['.', '.'] ∧ pushPart parts part = .ok parts) ∨
    (part = ['.', '.'] ∧ parts = [] ∧ pushPart parts part = .error .enotcapable) ∨
    (part = ['.', '.'] ∧ (∃ init last, parts = init ++ [last] ∧ pushPart parts part = .ok init)) ∨
    (Ordinary part ∧ part ≠ ['.', '.'] ∧ pushPart parts part = .ok (parts ++ [part])) := by
  unfold pushPart
  by_cases hskip : part = [] ∨ part = ['.']
  · left
    rw [if_pos hskip]
    refine ⟨fun h => ?_, ?_, rfl⟩
    · exact hskip.elim h.1 h.2.2.1
    · rcases hskip with rfl | rfl <;> decide
  · rw [if_neg hskip]
    by_cases hup : part = ['.', '.']
    · rw [if_pos hup]
      rcases List.eq_nil_or_concat' parts with rfl | ⟨init, last, rfl⟩
      · exact .inr (.inl ⟨hup, rfl, rfl⟩)
      · refine .inr (.inr (.inl ⟨hup, init, last, rfl, ?_⟩))
        rw [if_neg (by simp), List.dropLast_concat]
    · rw [if_neg hup]
      exact .inr (.inr (.inr ⟨⟨fun h => hskip (.inl h), hp, fun h => hskip (.inr h), hup⟩, hup, rfl⟩))

/-- A step of the loop leaves only ordinary parts, whatever part comes next. -/
theorem pushPart_ordinary {parts parts' : List Str} {part : Str} (h : ∀ c ∈ parts, Ordinary c) (hp : '/' ∉ part)
    (he : pushPart parts part = .ok parts') : ∀ c ∈ parts', Ordinary c := by
  rcases pushPart_cases parts hp with ⟨-, -, hs⟩ | ⟨-, -, hs⟩ | ⟨-, init, last, rfl, hs⟩ | ⟨hord, -, hs⟩
  · cases hs.symm.trans he
    exact h
  · cases hs.symm.trans he
  · cases hs.symm.trans he
    exact fun c hc => h c (List.mem_append_left _ hc)
  · cases hs.symm.trans he
    intro c hc
    rcases List.mem_append.mp hc with hc | hc
    · exact h c hc
    · rw [List.mem_singleton.mp hc]
      exact hord

/-- The loop from ordinary parts, over parts without a slash. -/
theorem foldlM_pushPart_ordinary {pieces : List Str} : ∀ {parts parts' : List Str}, (∀ c ∈ parts, Ordinary c) →
    (∀ piece ∈ pieces, '/' ∉ piece) → pieces.foldlM pushPart parts = .ok parts' → ∀ c ∈ parts', Ordinary c := by
  induction pieces with
  | nil =>
    intro parts parts' h _ he
    cases he
    exact h
  | cons piece pieces ih =>
    intro parts parts' h hp he
    rw [List.foldlM_cons] at he
    cases hstep : pushPart parts piece with
    | error errno => rw [hstep] at he; cases he
    | ok parts₁ =>
      rw [hstep] at he
      exact ih (pushPart_ordinary h (hp piece List.mem_cons_self) hstep)
        (fun q hq => hp q (List.mem_cons_of_mem _ hq)) he

/-- What is left of a guest path is made of ordinary components. -/
theorem normalParts_ordinary {path : Str} {parts : List Str} (h : normalParts path = .ok parts) : ∀ c ∈ parts, Ordinary c :=
  foldlM_pushPart_ordinary (by simp) (fun _ hp => notMem_of_mem_splitOn hp) h

/-! ### Which components are left

Counted over the pieces of the guest path alone: a `..` takes away the nearest ordinary piece before it that is still there. -/

/-- How many pieces lead up. -/
def ups (pieces : List Str) : Nat := pieces.count ['.', '.']

/-- How many pieces lead down. -/
def downs (pieces : List Str) : Nat := pieces.countP (fun c => decide (Ordinary c))

/-- An ordinary piece that no later `..` takes away: the pieces after it never lead up more often than down. -/
def Survives (pieces : List Str) (c : Str) : Prop :=
  ∃ before after, pieces = before ++ c :: after ∧ Ordinary c ∧ ∀ q, q <+: after → ups q ≤ downs q

/-- Some first pieces of the path lead up more often than down. -/
def LeadsOut (pieces : List Str) : Prop := ∃ q, q <+: pieces ∧ downs q < ups q

/-- Of nothing nothing survives. -/
theorem not_survives_nil (c : Str) : ¬Survives [] c := by
  rintro ⟨before, after, h, -⟩
  exact absurd h (by simp)

/-- The first piece survives when the rest never takes it away, and later pieces survive as they do without it. -/
theorem survives_cons (piece : Str) (pieces : List Str) (c : Str) :
    Survives (piece :: pieces) c ↔
      (c = piece ∧ Ordinary piece ∧ ∀ q, q <+: pieces → ups q ≤ downs q) ∨ Survives pieces c := by
  constructor
  · rintro ⟨before, after, h, hord, hq⟩
    cases before with
    | nil =>
      cases h
      exact .inl ⟨rfl, hord, hq⟩
    | cons b before =>
      cases h
      exact .inr ⟨before, after, rfl, hord, hq⟩
  · rintro (⟨rfl, hord, hq⟩ | ⟨before, after, rfl, hord, hq⟩)
    · exact ⟨[], pieces, rfl, hord, hq⟩
    · exact ⟨piece :: before, after, rfl, hord, hq⟩

/-- A condition on every first part of a list, by its head. -/
theorem forall_prefix_cons {piece : Str} {pieces : List Str} {P : List Str → Prop} :
    (∀ q, q <+: piece :: pieces → P q) ↔ P [] ∧ ∀ q, q <+: pieces → P (piece :: q) := by
  refine ⟨fun h => ⟨h [] List.nil_prefix, fun q hq => h _ (List.cons_prefix_cons.mpr ⟨rfl, hq⟩)⟩, ?_⟩
  rintro ⟨hnil, hcons⟩ q hq
  rcases List.prefix_cons_iff.mp hq with rfl | ⟨t, rfl, ht⟩
  · exact hnil
  · exact hcons t ht

/-- One piece more leads up once more if it is `..`, ... -/
theorem ups_cons (piece : Str) (q : List Str) : ups (piece :: q) = ups q + if piece = ['.', '.'] then 1 else 0 := by
  simp [ups, List.count_cons]

/-- ... and down once more if it is ordinary. -/
theorem downs_cons (piece : Str) (q : List Str) : downs (piece :: q) = downs q + if Ordinary piece then 1 else 0 := by
  simp [downs, List.countP_cons]

/-- `..` is not ordinary. -/
theorem not_ordinary_dotdot : ¬Ordinary ['.', '.'] := fun h => h.2.2.2 rfl

/-- The ordinary pieces that no later `..` takes away, in order. -/
def survivors : List Str → List Str
  | [] => []
  | piece :: pieces =>
    if Ordinary piece ∧ ∀ q ∈ pieces.inits, ups q ≤ downs q then piece :: survivors pieces else survivors pieces

/-- How many of the parts before them the pieces take away. -/
def debt : List Str → Nat
  | [] => 0
  | piece :: pieces =>
    if piece = ['.', '.'] then debt pieces + 1 else if Ordinary piece then debt pieces - 1 else debt pieces

/-- The pieces take away no more than `k` parts when no first pieces lead up more often than that. -/
theorem debt_le_iff {pieces : List Str} {k : Nat} : debt pieces ≤ k ↔ ∀ q, q <+: pieces → ups q ≤ downs q + k := by
  induction pieces generalizing k with
  | nil => simp [debt, ups]
  | cons piece pieces ih =>
    simp only [forall_prefix_cons, ups_cons, downs_cons, debt]
    by_cases hup : piece = ['.', '.']
    · subst hup
      simp only [not_ordinary_dotdot, if_true, if_false, Nat.add_zero]
      cases k with
      | zero =>
        constructor
        · intro h
          omega
        · rintro ⟨-, h⟩
          have hnil := h [] List.nil_prefix
          simp [downs] at hnil
      | succ k =>
        rw [Nat.add_le_add_iff_right, ih]
        constructor
        · intro h
          refine ⟨by simp [ups], fun q hq => ?_⟩
          have := h q hq
          omega
        · rintro ⟨-, h⟩ q hq
          have := h q hq
          omega
    · by_cases hord : Ordinary piece
      · simp only [hup, hord, if_true, if_false, Nat.add_zero]
        have hk : debt pieces - 1 ≤ k ↔ debt pieces ≤ k + 1 := by omega
        rw [hk, ih]
        constructor
        · intro h
          refine ⟨by simp [ups], fun q hq => ?_⟩
          have := h q hq
          omega
        · rintro ⟨-, h⟩ q hq
          have := h q hq
          omega
      · simp only [hup, hord, if_false, Nat.add_zero]
        rw [ih]
        exact ⟨fun h => ⟨by simp [ups], h⟩, fun h => h.2⟩

/-- The pieces take away nothing when they never lead up more often than down. -/
theorem debt_eq_zero_iff {pieces : List Str} : debt pieces = 0 ↔ ∀ q, q <+: pieces → ups q ≤ downs q := by
  rw [← Nat.le_zero, debt_le_iff]
  rfl

/-- A piece survives if it is ordinary and nothing is owed behind it. -/
theorem survivors_cons (piece : Str) (pieces : List Str) :
    survivors (piece :: pieces) = if Ordinary piece ∧ debt pieces = 0 then piece :: survivors pieces else survivors pieces := by
  have hcond : (Ordinary piece ∧ ∀ q ∈ pieces.inits, ups q ≤ downs q) ↔ Ordinary piece ∧ debt pieces = 0 := by
    simp only [List.mem_inits, debt_eq_zero_iff]
  rw [survivors]
  exact if_congr hcond rfl rfl

/-- The survivors are the pieces that survive. -/
theorem mem_survivors {pieces : List Str} {c : Str} : c ∈ survivors pieces ↔ Survives pieces c := by
  induction pieces with
  | nil => simp [survivors, not_survives_nil]
  | cons piece pieces ih =>
    rw [survivors_cons, survives_cons, ← ih, ← debt_eq_zero_iff]
    split
    · rename_i hcond
      rw [List.mem_cons]
      simp [hcond.1, hcond.2]
    · rename_i hcond
      constructor
      · exact Or.inr
      · rintro (⟨-, hord, hdebt⟩ | h)
        · exact absurd ⟨hord, hdebt⟩ hcond
        · exact h

/-- What the loop makes of the parts it starts with: the pieces take away the last of them and leave their survivors, or there are not
enough of them. -/
theorem foldlM_pushPart {pieces : List Str} : ∀ {parts : List Str}, (∀ piece ∈ pieces, '/' ∉ piece) →
    pieces.foldlM pushPart parts =
      if debt pieces ≤ parts.length then .ok (parts.take (parts.length - debt pieces) ++ survivors pieces) else .error .enotcapable := by
  induction pieces with
  | nil =>
    intro parts _
    simp [debt, survivors, pure, Except.pure]
  | cons piece pieces ih =>
    intro parts hp
    have hp' : ∀ q ∈ pieces, '/' ∉ q := fun q hq => hp q (List.mem_cons_of_mem _ hq)
    rw [List.foldlM_cons, survivors_cons]
    rcases pushPart_cases parts (hp piece List.mem_cons_self) with
      ⟨hord, hup, hs⟩ | ⟨rfl, rfl, hs⟩ | ⟨rfl, init, last, rfl, hs⟩ | ⟨hord, hup, hs⟩
    · rw [hs]
      simp only [debt, hup, hord, if_false, false_and]
      exact ih hp'
    · rw [hs]
      simp [debt, bind, Except.bind]
    · rw [hs]
      simp only [debt, not_ordinary_dotdot, if_true, if_false, false_and, List.length_append, List.length_singleton,
        Nat.add_le_add_iff_right, Nat.add_sub_add_right]
      rw [List.take_append_of_le_length (Nat.sub_le _ _)]
      exact ih hp'
    · rw [hs]
      simp only [debt, hup, hord, if_true, if_false, true_and]
      refine (ih hp').trans ?_
      simp only [List.length_append, List.length_singleton]
      refine if_congr (by omega) ?_ rfl
      by_cases hdebt : debt pieces = 0
      · have hall : (parts ++ [piece]).take (parts.length + 1) = parts ++ [piece] := List.take_of_length_le (by simp)
        simp [hdebt, hall]
      · rw [if_neg hdebt, List.take_append_of_le_length (by omega)]
        congr 3
        omega

/-- The loop over a guest path leaves the survivors of its pieces, unless the path leads out. -/
theorem normalParts_eq (path : Str) :
    normalParts path = if debt (path.splitOn '/') = 0 then .ok (survivors (path.splitOn '/')) else .error .enotcapable := by
  rw [normalParts, foldlM_pushPart (fun _ hp => notMem_of_mem_splitOn hp)]
  simp

/-- Pieces lead out if something is still owed. -/
theorem leadsOut_iff {pieces : List Str} : LeadsOut pieces ↔ debt pieces ≠ 0 := by
  rw [Ne, debt_eq_zero_iff]
  simp only [LeadsOut, not_forall, not_le, exists_prop]

/-- The loop over a guest path fails exactly on a path that leads out. -/
theorem normalParts_error_iff (path : Str) : (∃ errno, normalParts path = .error errno) ↔ LeadsOut (path.splitOn '/') := by
  rw [normalParts_eq, leadsOut_iff]
  split
  · rename_i hdebt
    simp [hdebt]
  · rename_i hdebt
    simp [hdebt]

/-- ... and otherwise leaves the pieces that survive. -/
theorem mem_normalParts {path c : Str} {parts : List Str} (h : normalParts path = .ok parts) :
    c ∈ parts ↔ Survives (path.splitOn '/') c := by
  rw [normalParts_eq] at h
  split at h
  · cases h
    exact mem_survivors
  · cases h

/-! ### The normalized text -/

/-- Joining ordinary components gives the empty string only when there are none. -/
theorem intercalate_ordinary_eq_nil {parts : List Str} (h : ∀ c ∈ parts, Ordinary c)
    (he : ['/'].intercalate parts = []) : parts = [] := by
  cases parts with
  | nil => rfl
  | cons c rest =>
    have hs := List.splitOn_intercalate '/' (fun c hc => (h c hc).2.1) (List.cons_ne_nil c rest)
    rw [he, List.splitOn_nil] at hs
    exact absurd rfl (h [] (by rw [← hs]; exact List.mem_cons_self)).1

/-- `join_suffix` pushes every part of ordinary parts. -/
theorem filter_ordinary {parts : List Str} (h : ∀ c ∈ parts, Ordinary c) :
    parts.filter (fun c => decide (c ≠ [] ∧ c ≠ ['.'])) = parts := by
  rw [List.filter_eq_self]
  intro c hc
  exact decide_eq_true ⟨(h c hc).1, (h c hc).2.2.1⟩

/-- The text of a normal path. -/
def spell (absolute : Bool) (parts : List Str) : Str :=
  if absolute then '/' :: ['/'].intercalate parts else if parts = [] then ['.'] else ['/'].intercalate parts

section
variable {absolute : Bool} {parts : List Str}

/-- The pieces of a normal path. -/
theorem splitOn_spell (h : ∀ c ∈ parts, Ordinary c) :
    (spell absolute parts).splitOn '/' =
      (if absolute then [[]] else []) ++ (if parts = [] then (if absolute then [[]] else [['.']]) else parts) := by
  by_cases hnil : parts = []
  · subst hnil
    cases absolute <;> decide
  · have hsplit := List.splitOn_intercalate '/' (fun c hc => (h c hc).2.1) hnil
    cases absolute with
    | true =>
      simp only [spell, if_true, if_neg hnil]
      rw [splitOn_cons_self, hsplit]
      rfl
    | false =>
      simp only [spell, Bool.false_eq_true, if_false, if_neg hnil]
      rw [hsplit]
      rfl

/-- `join_suffix` sees the parts of a normal path. -/
theorem suffixParts_spell (h : ∀ c ∈ parts, Ordinary c) : suffixParts (spell absolute parts) = parts := by
  have hord := filter_ordinary h
  unfold suffixParts
  rw [splitOn_spell h, List.filter_append]
  by_cases hnil : parts = []
  · subst hnil
    cases absolute <;> decide
  · rw [if_neg hnil, hord]
    cases absolute <;> rfl

/-- A path is absolute if it is spelled so. -/
theorem startsWithSlash_spell (h : ∀ c ∈ parts, Ordinary c) : (spell absolute parts).startsWithSlash = absolute := by
  cases absolute with
  | true => rfl
  | false =>
    cases parts with
    | nil => rfl
    | cons c rest =>
      obtain ⟨hne, hslash, -⟩ := h c List.mem_cons_self
      obtain ⟨a, t, rfl⟩ := List.exists_cons_of_ne_nil hne
      have ha : a ≠ '/' := fun he => hslash (he ▸ List.mem_cons_self)
      -- the text starts with the first character of the first component
      have hhead : (spell false ((a :: t) :: rest)).head? = some a := by
        cases rest <;> simp [spell, List.intercalate, List.intersperse]
      simp [Str.startsWithSlash, hhead, ha]

/-- No spelled path is empty. -/
theorem spell_ne_nil (h : ∀ c ∈ parts, Ordinary c) : spell absolute parts ≠ [] := by
  intro hnil
  cases absolute with
  | true => cases hnil
  | false =>
    unfold spell at hnil
    rw [if_neg Bool.false_ne_true] at hnil
    split at hnil
    · cases hnil
    · rename_i hne
      exact hne (intercalate_ordinary_eq_nil h hnil)

/-- Ordinary pieces take nothing away and all survive. -/
theorem survivors_ordinary (h : ∀ c ∈ parts, Ordinary c) : debt parts = 0 ∧ survivors parts = parts := by
  induction parts with
  | nil => exact ⟨rfl, rfl⟩
  | cons c rest ih =>
    obtain ⟨hdebt, hsurv⟩ := ih fun d hd => h d (List.mem_cons_of_mem _ hd)
    have hord := h c List.mem_cons_self
    have hup : c ≠ ['.', '.'] := hord.2.2.2
    refine ⟨by simp [debt, hup, hord, hdebt], ?_⟩
    rw [survivors_cons, if_pos ⟨hord, hdebt⟩, hsurv]

/-- The loop over a normal path leaves its parts. -/
theorem normalParts_spell (h : ∀ c ∈ parts, Ordinary c) : normalParts (spell absolute parts) = .ok parts := by
  obtain ⟨hdebt, hsurv⟩ := survivors_ordinary h
  rw [normalParts_eq, splitOn_spell h]
  by_cases hnil : parts = []
  · subst hnil
    cases absolute <;> rfl
  · have hskip : ¬Ordinary [] := fun hord => hord.1 rfl
    cases absolute with
    | true => simp [hnil, debt, hskip, hdebt, survivors_cons, hsurv]
    | false => simp [hnil, hdebt, hsurv]

end

/-- `normalize_guest_path` spells what the loop leaves. -/
theorem normalizeGuestPath_eq {path : Str} (hpath : path ≠ []) :
    normalizeGuestPath path = (normalParts path).map (spell path.startsWithSlash) := by
  unfold normalizeGuestPath
  rw [if_neg (by simpa using hpath)]
  cases hparts : normalParts path with
  | error errno => rfl
  | ok parts =>
    have hord := normalParts_ordinary hparts
    by_cases hnil : parts = []
    · subst hnil
      cases path.startsWithSlash <;> rfl
    · have hjoined : ['/'].intercalate parts ≠ [] := fun he => hnil (intercalate_ordinary_eq_nil hord he)
      cases path.startsWithSlash <;> simp [hjoined, hnil, spell, Except.map]

/-- What a normal path is: one that `normalize_guest_path` returns. -/
theorem normalizeGuestPath_ok {path n : Str} (h : normalizeGuestPath path = .ok n) :
    ∃ parts, normalParts path = .ok parts ∧ (∀ c ∈ parts, Ordinary c) ∧ n = spell path.startsWithSlash parts := by
  have hpath : path ≠ [] := by
    rintro rfl
    cases h
  rw [normalizeGuestPath_eq hpath] at h
  cases hparts : normalParts path with
  | error errno =>
    rw [hparts] at h
    cases h
  | ok parts =>
    rw [hparts] at h
    cases h
    exact ⟨parts, rfl, normalParts_ordinary hparts, rfl⟩

/-- A normal path is its own normal form. -/
theorem normalizeGuestPath_spell {absolute : Bool} {parts : List Str} (h : ∀ c ∈ parts, Ordinary c) :
    normalizeGuestPath (spell absolute parts) = .ok (spell absolute parts) := by
  rw [normalizeGuestPath_eq (spell_ne_nil h), normalParts_spell h, startsWithSlash_spell h]
  rfl

/-- The components of a normalized path, as `join_suffix` sees them, are the parts the loop leaves. -/
theorem suffixParts_normalize {path n : Str} (h : normalizeGuestPath path = .ok n) :
    ∃ parts, normalParts path = .ok parts ∧ suffixParts n = parts := by
  obtain ⟨parts, hparts, hord, rfl⟩ := normalizeGuestPath_ok h
  exact ⟨parts, hparts, suffixParts_spell hord⟩

/-! ## The suffix below a preopen -/

/-- The length of a path is that of its bytes. -/
theorem Str.length_asBytes (s : Str) : s.asBytes.length = s.len := by
  simp [Str.asBytes, Str.len, List.length_flatMap]

/-- Slicing after a first part of the string gives what follows it. -/
theorem Str.sliceFrom_append (g t : Str) (k : Nat) : Str.sliceFrom (g ++ t) (Str.len g + k) = Str.sliceFrom t k := by
  induction g with
  | nil => simp [Str.len]
  | cons c g ih =>
    have hpos := c.utf8Size_pos
    obtain ⟨m, hm⟩ : ∃ m, Str.len (c :: g) + k = m + 1 := ⟨c.utf8Size + Str.len g + k - 1, by simp [Str.len]; omega⟩
    have hlen : m + 1 = c.utf8Size + (Str.len g + k) := by rw [← hm]; simp [Str.len]; omega
    rw [List.cons_append, hm, Str.sliceFrom, if_pos (by omega), hlen, Nat.add_sub_cancel_left, ih]

/-- A character of one byte is a slash when its byte is one. -/
theorem eq_slash_of_byte {c : Char} (hc : c.utf8Size = 1) (h : (String.utf8EncodeChar c)[0]? = some 0x2f) : c = '/' := by
  rw [String.utf8EncodeChar_eq_singleton hc] at h
  simp only [List.getElem?_cons_zero, Option.some.injEq] at h
  have hle : c.val ≤ 127 := by simpa [Char.utf8Size_eq_one_iff] using hc
  apply Char.ext
  apply UInt32.toNat_inj.mp
  have hv := congrArg UInt8.toNat h
  have hle' := UInt32.le_iff_toNat_le.mp hle
  simp only [UInt32.toNat_toUInt8, UInt8.reduceToNat, UInt32.reduceToNat] at hv hle'
  show c.val.toNat = 47
  omega

/-- A byte with the high bit is no slash. -/
theorem or_ne_slash {x k : UInt8} (hk : k.toNat.testBit 7 = true) : x ||| k ≠ 0x2f := by
  intro he
  have hbit := congrArg (fun b : UInt8 => b.toNat.testBit 7) he
  simp only [UInt8.toNat_or, Nat.testBit_or, hk, Bool.or_true] at hbit
  exact absurd hbit (by decide)

/-- A character is a slash when its first byte is one: the first byte of any longer character has its highest bit set. -/
theorem eq_slash_of_first_byte {c : Char} (h : (String.utf8EncodeChar c)[0]? = some 0x2f) : c = '/' := by
  rcases c.utf8Size_eq with hc | hc | hc | hc
  · exact eq_slash_of_byte hc h
  · rw [String.utf8EncodeChar_eq_cons_cons hc, List.getElem?_cons_zero] at h
    exact absurd (Option.some.inj h) (or_ne_slash (by decide))
  · rw [String.utf8EncodeChar_eq_cons_cons_cons hc, List.getElem?_cons_zero] at h
    exact absurd (Option.some.inj h) (or_ne_slash (by decide))
  · rw [String.utf8EncodeChar_eq_cons_cons_cons_cons hc, List.getElem?_cons_zero] at h
    exact absurd (Option.some.inj h) (or_ne_slash (by decide))

/-- The byte after a first part of a string is the first byte of what follows. -/
theorem Str.asBytes_append_getElem? (g t : Str) : (g ++ t).asBytes[g.len]? = t.asBytes[0]? := by
  have hlen := Str.length_asBytes g
  unfold Str.asBytes at hlen ⊢
  rw [List.flatMap_append, List.getElem?_append_right (by omega), hlen, Nat.sub_self]

/-- What follows a first part of a string starts with a slash when the byte there is one. -/
theorem exists_suffix_of_byte {guest n : Str} (hpre : guest <+: n) (hb : n.asBytes[guest.len]? = some 0x2f) :
    ∃ suffix, n = guest ++ '/' :: suffix ∧ n.sliceFrom (guest.len + 1) = some suffix := by
  obtain ⟨t, rfl⟩ := hpre
  rw [Str.asBytes_append_getElem?] at hb
  cases t with
  | nil => cases hb
  | cons c suffix =>
    have hpos := c.utf8Size_pos
    have hfirst : (String.utf8EncodeChar c)[0]? = some 0x2f := by
      rw [Str.asBytes, List.flatMap_cons, List.getElem?_append_left (by rw [String.length_utf8EncodeChar]; omega)] at hb
      exact hb
    obtain rfl := eq_slash_of_first_byte hfirst
    refine ⟨suffix, rfl, ?_⟩
    have hone : '/'.utf8Size = 1 := by decide
    rw [Str.sliceFrom_append, Str.sliceFrom, hone, if_pos (Nat.le_refl 1), Nat.sub_self, Str.sliceFrom]

/-- ... and conversely. -/
theorem byte_of_append (guest suffix : Str) : (guest ++ '/' :: suffix).asBytes[guest.len]? = some 0x2f := by
  rw [Str.asBytes_append_getElem?]
  rfl

/-- The last arm of the loop of `resolve` cuts the path after the guest path and a slash. -/
theorem eq_append_slash {guest n suffix : Str} (hpre : guest <+: n) (hb : n.asBytes[guest.len]? = some 0x2f)
    (hs : n.sliceFrom (guest.len + 1) = some suffix) : n = guest ++ '/' :: suffix := by
  obtain ⟨suffix', hn, hs'⟩ := exists_suffix_of_byte hpre hb
  cases hs.symm.trans hs'
  exact hn

/-- Below the preopen `/` the components are all of the path's. -/
theorem suffixParts_below_root (n : Str) : suffixParts (if n.startsWithSlash then n.tail else n) = suffixParts n := by
  cases n with
  | nil => rfl
  | cons c t =>
    split
    · rename_i hc
      have hc' : c = '/' := by simpa [Str.startsWithSlash] using hc
      subst hc'
      unfold suffixParts
      rw [splitOn_cons_self, List.filter_cons_of_neg (by simp)]
      rfl
    · rfl

/-- The components below the preopen are the last ones of the path. -/
theorem suffixParts_preopenSuffix {guest n suffix : Str} (h : preopenSuffix guest n = .returned (some suffix)) :
    suffixParts suffix <:+ suffixParts n := by
  unfold preopenSuffix at h
  split at h
  · cases h
    exact List.suffix_refl _
  · split at h
    · cases h
      exact (suffixParts_below_root n).symm ▸ List.suffix_refl _
    · split at h
      · cases h
        exact List.nil_suffix
      · split at h
        · rename_i hcond
          split at h
          · rename_i suffix' hs
            cases h
            rw [eq_append_slash hcond.1 hcond.2 hs]
            unfold suffixParts
            rw [List.splitOn_append_cons_self, List.filter_append]
            exact List.suffix_append _ _
          · cases h
        · cases h

/-! ## `join_suffix` and `resolve` -/

variable {os : PathOs}

/-- `join_suffix` pushes its components one after another. -/
theorem joinSuffix_eq_foldl (os : PathOs) (root : os.Path) (suffix : Str) :
    joinSuffix os root suffix = (suffixParts suffix).foldl os.push root := by
  unfold joinSuffix suffixParts
  rw [List.foldl_filter]
  simp only [decide_eq_true_eq]

/-- The loop of `resolve`: a path it returns is the host path of a preopen with the last components of the normalized path. -/
theorem resolveIn_ok {n : Str} {preopens : List (PreopenMapping os.Path)} {p : os.Path}
    (h : resolveIn os n preopens = .returned (.ok p)) :
    ∃ pre ∈ preopens, ∃ comps, comps <:+ suffixParts n ∧ p = comps.foldl os.push pre.host := by
  induction preopens with
  | nil => cases h
  | cons pre rest ih =>
    unfold resolveIn at h
    split at h
    · cases h
    · obtain ⟨q, hq, hp⟩ := ih h
      exact ⟨q, List.mem_cons_of_mem _ hq, hp⟩
    · rename_i suffix hs
      cases h
      exact ⟨pre, List.mem_cons_self, suffixParts suffix, suffixParts_preopenSuffix hs, joinSuffix_eq_foldl _ _ _⟩

/-- A path that `resolve` returns is the host path of a preopen with the last ordinary components of the guest path pushed onto it. -/
theorem resolve_ok {guestPath : Str} {preopens : List (PreopenMapping os.Path)} {p : os.Path}
    (h : resolve os preopens guestPath = .returned (.ok p)) :
    ∃ parts, normalParts guestPath = .ok parts ∧
      ∃ pre ∈ preopens, ∃ comps, comps <:+ parts ∧ p = comps.foldl os.push pre.host := by
  unfold resolve at h
  split at h
  · cases h
  · rename_i n hn
    obtain ⟨parts, hparts, hs⟩ := suffixParts_normalize hn
    refine ⟨parts, hparts, ?_⟩
    rw [← hs]
    exact resolveIn_ok h

/-! ## `HostFiles::new` -/

/-- The host directories that the runner may serve: the current one, unless the flag forbids it, and those of the flags. -/
def Cli.Serves (cli : Cli) (currentDir : Except IoError HostDir) (dir : HostDir) : Prop :=
  (cli.noDefaultPreopen = false ∧ currentDir = .ok dir) ∨ ∃ p ∈ cli.preopens, p.host = dir

/-- A flag keeps its host. -/
theorem mapPreopen_ok {p : Preopen} {pre : PreopenMapping os.Path} (h : mapPreopen os p = .ok pre) :
    pre.host = os.ofStr p.host.text := by
  unfold mapPreopen at h
  split at h
  · cases h
    rfl
  · cases h

/-- The loop over the flags keeps their hosts. -/
theorem mem_mapM_mapPreopen {preopens : List Preopen} {pres : List (PreopenMapping os.Path)}
    (h : preopens.mapM (mapPreopen os) = .ok pres) : ∀ pre ∈ pres, ∃ p ∈ preopens, pre.host = os.ofStr p.host.text := by
  induction preopens generalizing pres with
  | nil =>
    cases h
    simp
  | cons p rest ih =>
    rw [List.mapM_cons] at h
    cases hp : mapPreopen os p with
    | error err => rw [hp] at h; cases h
    | ok pre₁ =>
      cases hr : rest.mapM (mapPreopen os) with
      | error err => rw [hp, hr] at h; cases h
      | ok pres' =>
        rw [hp, hr] at h
        cases h
        intro pre hpre
        rcases List.mem_cons.mp hpre with rfl | hpre
        · exact ⟨p, List.mem_cons_self, mapPreopen_ok hp⟩
        · obtain ⟨q, hq, hqh⟩ := ih hr pre hpre
          exact ⟨q, List.mem_cons_of_mem _ hq, hqh⟩

/-- Every preopen of the table is one the runner serves. -/
theorem mem_newPreopens {cli : Cli} {currentDir : Except IoError HostDir} {pres : List (PreopenMapping os.Path)}
    (h : newPreopens os cli currentDir = .ok pres) :
    ∀ pre ∈ pres, ∃ dir, cli.Serves currentDir dir ∧ pre.host = os.ofStr dir.text := by
  unfold newPreopens at h
  cases hm : cli.preopens.mapM (mapPreopen os) with
  | error err =>
    cases hd : cli.noDefaultPreopen with
    | true => rw [hd, hm] at h; cases h
    | false =>
      rw [hd, hm] at h
      cases currentDir <;> cases h
  | ok mapped =>
    have hflag : ∀ pre ∈ mapped, ∃ dir, cli.Serves currentDir dir ∧ pre.host = os.ofStr dir.text := by
      intro pre hpre
      obtain ⟨p, hp, hh⟩ := mem_mapM_mapPreopen hm pre hpre
      exact ⟨p.host, .inr ⟨p, hp, rfl⟩, hh⟩
    cases hd : cli.noDefaultPreopen with
    | true =>
      rw [hd, hm] at h
      cases h
      intro pre hpre
      exact hflag pre (List.mem_mergeSort.mp hpre)
    | false =>
      rw [hd, hm] at h
      cases hc : currentDir with
      | error err => rw [hc] at h; cases h
      | ok dir =>
        rw [hc] at h
        cases h
        intro pre hpre
        rcases List.mem_append.mp (List.mem_mergeSort.mp hpre) with hpre | hpre
        · rw [List.mem_singleton] at hpre
          subst hpre
          exact ⟨dir, .inl ⟨hd, rfl⟩, rfl⟩
        · rw [← hc]
          exact hflag pre hpre

/-- With one flag and no default preopen the table holds that preopen. -/
theorem newPreopens_single (os : PathOs) {p : Preopen} {pre : PreopenMapping os.Path} (h : mapPreopen os p = .ok pre)
    (currentDir : Except IoError HostDir) : newPreopens os ⟨true, [p]⟩ currentDir = .ok [pre] := by
  unfold newPreopens
  rw [List.mapM_cons, h, List.mapM_nil]
  exact congrArg Except.ok (List.mergeSort_singleton pre)

/-- The directory is not the empty path. -/
theorem srvDb_ne_nil : "/srv/db".toList ≠ [] := by
  decide

end WasmtimeMysql
