import WasmtimeMysql.GuestNames

/-!
# Which services are ports

`parse_service_port` leaves the reading of numbers to `strtoul`: spaces and a sign are accepted before the digits, and a minus negates the
number in 32 bits. The services that it accepts are exactly those that `IsPort` describes, each with its port (`parseServicePort_iff`).
-/

namespace WasmtimeMysql

/-- The texts that are a port: spaces, a sign and digits. A negative number is a port if it is one in an `unsigned long`. -/
inductive IsPort : CStr → Nat → Prop where
  | plain {spaces sign digits : CStr} : (∀ c ∈ spaces, isSpace c = true) → sign = [] ∨ sign = cstr "+" → digits ≠ [] →
      (∀ c ∈ digits, isDigit c = true) → digitsValue digits ≤ 65535 → IsPort (spaces ++ sign ++ digits) (digitsValue digits)
  | zero {spaces digits : CStr} : (∀ c ∈ spaces, isSpace c = true) → digits ≠ [] → (∀ c ∈ digits, isDigit c = true) →
      digitsValue digits = 0 → IsPort (spaces ++ cstr "-" ++ digits) 0
  | negated {spaces digits : CStr} : (∀ c ∈ spaces, isSpace c = true) → digits ≠ [] → (∀ c ∈ digits, isDigit c = true) →
      2 ^ 32 ≤ digitsValue digits + 65535 → digitsValue digits < 2 ^ 32 →
      IsPort (spaces ++ cstr "-" ++ digits) (2 ^ 32 - digitsValue digits)

namespace ServicePortAux

/-- What `strtoul` makes of the digits that it has found. -/
def ulong (negative : Bool) (n : Nat) : UInt32 := if n ≥ 2 ^ 32 then 0xffffffff else if negative then -UInt32.ofNat n else UInt32.ofNat n

/-- A digit is no space and no sign. -/
theorem isDigit_cases {c : UInt8} (h : isDigit c = true) : isSpace c = false ∧ c ≠ 45 ∧ c ≠ 43 := by
  unfold isDigit at h
  unfold isSpace
  rw [Bool.and_eq_true, decide_eq_true_eq, decide_eq_true_eq, UInt8.le_iff_toNat_le, UInt8.le_iff_toNat_le] at h
  have h48 : (48 : UInt8).toNat = 48 := rfl
  have h57 : (57 : UInt8).toNat = 57 := rfl
  refine ⟨?_, ?_, ?_⟩
  · have hne : c ≠ 32 := by
      rintro rfl
      have h32 : (32 : UInt8).toNat = 32 := rfl
      omega
    have hgt : ¬c ≤ 13 := by
      rw [UInt8.le_iff_toNat_le]
      have h13 : (13 : UInt8).toNat = 13 := rfl
      omega
    simp [hne, hgt]
  · rintro rfl
    have h45 : (45 : UInt8).toNat = 45 := rfl
    omega
  · rintro rfl
    have h43 : (43 : UInt8).toNat = 43 := rfl
    omega

/-- Spaces end where something else begins. -/
theorem dropWhile_spaces {spaces rest : CStr} (hspaces : ∀ c ∈ spaces, isSpace c = true) (hrest : ∀ c ∈ rest.head?, isSpace c = false) :
    (spaces ++ rest).dropWhile isSpace = rest := by
  rw [List.dropWhile_append_of_pos hspaces]
  cases rest with
  | nil => rfl
  | cons c rest =>
    have hc := hrest c rfl
    rw [List.dropWhile_cons_of_neg (by simp [hc])]

theorem isSpace_sign : isSpace 43 = false ∧ isSpace 45 = false := by decide

/-- A sign and digits after spaces. -/
theorem strtoul_of_parts {spaces sign digits : CStr} {negative : Bool} (hspaces : ∀ c ∈ spaces, isSpace c = true) (hne : digits ≠ [])
    (hdigits : ∀ c ∈ digits, isDigit c = true)
    (hsign : (sign = [] ∧ negative = false) ∨ (sign = cstr "+" ∧ negative = false) ∨ (sign = cstr "-" ∧ negative = true)) :
    strtoul (spaces ++ sign ++ digits) = (ulong negative (digitsValue digits), []) := by
  obtain ⟨d, ds, rfl⟩ := List.exists_cons_of_ne_nil hne
  obtain ⟨hspace, hminus, hplus⟩ := isDigit_cases (hdigits d List.mem_cons_self)
  have hparts : takeSign ((spaces ++ sign ++ (d :: ds)).dropWhile isSpace) = (negative, d :: ds) := by
    rw [List.append_assoc]
    rcases hsign with ⟨rfl, rfl⟩ | ⟨rfl, rfl⟩ | ⟨rfl, rfl⟩
    · rw [List.nil_append, dropWhile_spaces hspaces (by simpa using hspace)]
      simp [takeSign, hminus, hplus]
    · rw [dropWhile_spaces hspaces fun c hc => by cases hc; exact isSpace_sign.1]
      rfl
    · rw [dropWhile_spaces hspaces fun c hc => by cases hc; exact isSpace_sign.2]
      rfl
  have htake : (d :: ds).takeWhile isDigit = d :: ds := List.takeWhile_eq_self_iff.mpr hdigits
  have hdrop : (d :: ds).dropWhile isDigit = [] := List.dropWhile_eq_nil_iff.mpr hdigits
  unfold strtoul
  rw [hparts]
  simp only [htake, hdrop, List.cons_ne_nil, if_false]
  rfl

/-- What is left after the sign. -/
theorem takeSign_cases (s : CStr) : ∃ sign, s = sign ++ (takeSign s).2 ∧
    ((sign = [] ∧ (takeSign s).1 = false) ∨ (sign = cstr "+" ∧ (takeSign s).1 = false) ∨ (sign = cstr "-" ∧ (takeSign s).1 = true)) := by
  cases s with
  | nil => exact ⟨[], rfl, .inl ⟨rfl, rfl⟩⟩
  | cons c rest =>
    by_cases hminus : c = 45
    · subst hminus
      exact ⟨cstr "-", rfl, .inr (.inr ⟨rfl, rfl⟩)⟩
    · by_cases hplus : c = 43
      · subst hplus
        exact ⟨cstr "+", rfl, .inr (.inl ⟨rfl, rfl⟩)⟩
      · have hnone : takeSign (c :: rest) = (false, c :: rest) := by simp only [takeSign, if_neg hminus, if_neg hplus]
        rw [hnone]
        exact ⟨[], rfl, .inl ⟨rfl, rfl⟩⟩

/-- A text that `strtoul` reads to its end is spaces, a sign and digits. -/
theorem parts_of_strtoul {s : CStr} (hs : s ≠ []) (hrest : (strtoul s).2 = []) : ∃ spaces sign digits negative,
    s = spaces ++ sign ++ digits ∧ (∀ c ∈ spaces, isSpace c = true) ∧ digits ≠ [] ∧ (∀ c ∈ digits, isDigit c = true) ∧
    ((sign = [] ∧ negative = false) ∨ (sign = cstr "+" ∧ negative = false) ∨ (sign = cstr "-" ∧ negative = true)) := by
  obtain ⟨sign, hsplit, hsign⟩ := takeSign_cases (s.dropWhile isSpace)
  unfold strtoul at hrest
  split at hrest
  rename_i negative rest hparts
  rw [hparts] at hsplit hsign
  simp only at hsplit hsign hrest
  split at hrest
  · exact absurd hrest hs
  · rename_i hne
    have hend : rest.dropWhile isDigit = [] := hrest
    have hdigits : rest.takeWhile isDigit = rest := by
      have happend := List.takeWhile_append_dropWhile (p := isDigit) (l := rest)
      rw [hend, List.append_nil] at happend
      exact happend
    refine ⟨s.takeWhile isSpace, sign, rest, negative, ?_, fun c hc => List.mem_takeWhile_imp hc, hdigits ▸ hne,
      List.takeWhile_eq_self_iff.mp hdigits, hsign⟩
    rw [List.append_assoc, ← hsplit, List.takeWhile_append_dropWhile]

theorem toNat_ulong_plain (n : Nat) : (ulong false n).toNat = if n ≥ 2 ^ 32 then 2 ^ 32 - 1 else n := by
  unfold ulong
  by_cases hlarge : n ≥ 2 ^ 32
  · rw [if_pos hlarge, if_pos hlarge]
    rfl
  · rw [if_neg hlarge, if_neg hlarge, if_neg Bool.false_ne_true, UInt32.toNat_ofNat']
    omega

theorem toNat_ulong_negated (n : Nat) : (ulong true n).toNat = if n ≥ 2 ^ 32 then 2 ^ 32 - 1 else (2 ^ 32 - n) % 2 ^ 32 := by
  have hsize : UInt32.size = 2 ^ 32 := rfl
  unfold ulong
  by_cases hlarge : n ≥ 2 ^ 32
  · rw [if_pos hlarge, if_pos hlarge]
    rfl
  · rw [if_neg hlarge, if_neg hlarge, if_pos rfl, UInt32.toNat_neg, UInt32.toNat_ofNat', hsize]
    omega

theorem le_maxPort_iff (x : UInt32) : ¬x > 65535 ↔ x.toNat ≤ 65535 := by
  rw [UInt32.not_lt, UInt32.le_iff_toNat_le]
  rfl

/-- A number that is not negative is a port when it is at most the greatest one. -/
theorem ulong_plain (n : Nat) : ¬ulong false n > 65535 ↔ n ≤ 65535 := by
  rw [le_maxPort_iff, toNat_ulong_plain]
  split_ifs <;> omega

/-- A number after a minus is a port when it is zero or near the greatest `unsigned long`. -/
theorem ulong_negated (n : Nat) : ¬ulong true n > 65535 ↔ n = 0 ∨ (2 ^ 32 ≤ n + 65535 ∧ n < 2 ^ 32) := by
  rw [le_maxPort_iff, toNat_ulong_negated]
  split_ifs <;> omega

theorem toUInt16_plain {n : Nat} (h : n ≤ 65535) : (ulong false n).toUInt16 = UInt16.ofNat n := by
  apply UInt16.toNat_inj.mp
  rw [UInt32.toNat_toUInt16, toNat_ulong_plain, if_neg (by omega), UInt16.toNat_ofNat']

theorem toUInt16_negated {n : Nat} (hlow : 2 ^ 32 ≤ n + 65535) (hhigh : n < 2 ^ 32) : (ulong true n).toUInt16 = UInt16.ofNat (2 ^ 32 - n) := by
  apply UInt16.toNat_inj.mp
  rw [UInt32.toNat_toUInt16, toNat_ulong_negated, if_neg (by omega), UInt16.toNat_ofNat']
  omega

/-- A service that is not empty. -/
theorem parseServicePort_some {s : CStr} (hs : s ≠ []) : parseServicePort (some s) =
    if (strtoul s).2 ≠ [] ∨ (strtoul s).1 > 65535 then .error Netdb.eaiNoname else .ok (htons (strtoul s).1.toUInt16) := by
  simp only [parseServicePort, if_neg hs]

/-- There is one error. -/
theorem parseServicePort_error {service : Option CStr} {rc : Int32} (h : parseServicePort service = .error rc) : rc = Netdb.eaiNoname := by
  cases service with
  | none => cases h
  | some s =>
    by_cases hs : s = []
    · subst hs
      cases h
    · rw [parseServicePort_some hs] at h
      split_ifs at h
      exact (Except.error.inj h).symm

theorem parts_ne_nil {spaces sign digits : CStr} (h : digits ≠ []) : spaces ++ sign ++ digits ≠ [] := by simp [h]

/-- Every port is accepted. -/
theorem parseServicePort_of_isPort {s : CStr} {n : Nat} (h : IsPort s n) : parseServicePort (some s) = .ok (htons (UInt16.ofNat n)) := by
  cases h with
  | @plain spaces sign digits hspaces hsign hne hdigits hvalue =>
    have hparsed : strtoul (spaces ++ sign ++ digits) = (ulong false (digitsValue digits), []) := by
      rcases hsign with hsign | hsign
      · exact strtoul_of_parts hspaces hne hdigits (.inl ⟨hsign, rfl⟩)
      · exact strtoul_of_parts hspaces hne hdigits (.inr (.inl ⟨hsign, rfl⟩))
    rw [parseServicePort_some (parts_ne_nil hne), hparsed, if_neg ?_, toUInt16_plain hvalue]
    simp only [ne_eq, not_true_eq_false, false_or]
    exact (ulong_plain _).mpr hvalue
  | zero hspaces hne hdigits hvalue =>
    have hparsed := strtoul_of_parts hspaces hne hdigits (.inr (.inr ⟨rfl, rfl⟩))
    rw [parseServicePort_some (parts_ne_nil hne), hparsed, if_neg ?_, hvalue]
    · rfl
    · simp only [ne_eq, not_true_eq_false, false_or]
      exact (ulong_negated _).mpr (.inl hvalue)
  | negated hspaces hne hdigits hlow hhigh =>
    have hparsed := strtoul_of_parts hspaces hne hdigits (.inr (.inr ⟨rfl, rfl⟩))
    rw [parseServicePort_some (parts_ne_nil hne), hparsed, if_neg ?_, toUInt16_negated hlow hhigh]
    simp only [ne_eq, not_true_eq_false, false_or]
    exact (ulong_negated _).mpr (.inr ⟨hlow, hhigh⟩)

/-- What is accepted is a port. -/
theorem isPort_of_parseServicePort {s : CStr} (hs : s ≠ []) {port : UInt16} (h : parseServicePort (some s) = .ok port) : ∃ n, IsPort s n := by
  rw [parseServicePort_some hs] at h
  split_ifs at h with hrefused
  rw [not_or, not_not] at hrefused
  obtain ⟨hrest, hle⟩ := hrefused
  obtain ⟨spaces, sign, digits, negative, rfl, hspaces, hne, hdigits, hsign⟩ := parts_of_strtoul hs hrest
  have hparsed := strtoul_of_parts hspaces hne hdigits hsign
  rw [hparsed] at hle
  rcases hsign with ⟨rfl, rfl⟩ | ⟨rfl, rfl⟩ | ⟨rfl, rfl⟩
  · exact ⟨_, .plain hspaces (.inl rfl) hne hdigits ((ulong_plain _).mp hle)⟩
  · exact ⟨_, .plain hspaces (.inr rfl) hne hdigits ((ulong_plain _).mp hle)⟩
  · rcases (ulong_negated _).mp hle with hzero | ⟨hlow, hhigh⟩
    · exact ⟨_, .zero hspaces hne hdigits hzero⟩
    · exact ⟨_, .negated hspaces hne hdigits hlow hhigh⟩

end ServicePortAux

open ServicePortAux in
/-- A service is accepted, with its port in network byte order, exactly if it is missing or empty, for the port 0, or if it is a port.
Anything else is `EAI_NONAME`. -/
theorem parseServicePort_iff (service : Option CStr) :
    (∀ port, parseServicePort service = .ok port ↔
      (service.getD [] = [] ∧ port = 0) ∨ ∃ n, IsPort (service.getD []) n ∧ port = htons (UInt16.ofNat n)) ∧
    (∀ rc, parseServicePort service = .error rc → rc = Netdb.eaiNoname) := by
  have hnil (n : Nat) : ¬IsPort [] n := by
    intro h
    generalize hs : ([] : CStr) = s at h
    cases h <;> simp_all
  have hempty : parseServicePort service = .ok 0 ∧ service.getD [] = [] ∨ ∃ s, service = some s ∧ s ≠ [] := by
    cases service with
    | none => exact .inl ⟨rfl, rfl⟩
    | some s =>
      by_cases hs : s = []
      · subst hs
        exact .inl ⟨rfl, rfl⟩
      · exact .inr ⟨s, rfl, hs⟩
  rcases hempty with ⟨hok, hgetD⟩ | ⟨s, rfl, hs⟩
  · rw [hok, hgetD]
    refine ⟨fun port => ?_, nofun⟩
    simp [hnil, eq_comm]
  · refine ⟨fun port => ⟨fun h => ?_, fun h => ?_⟩, fun rc => parseServicePort_error⟩
    · obtain ⟨n, hn⟩ := isPort_of_parseServicePort hs h
      rw [parseServicePort_of_isPort hn] at h
      exact .inr ⟨n, hn, (Except.ok.inj h).symm⟩
    · rcases h with ⟨hgetD, -⟩ | ⟨n, hn, rfl⟩
      · exact absurd hgetD hs
      · exact parseServicePort_of_isPort hn

/-- A negative number can be a port. -/
example : parseServicePort (some (cstr " -4294967295")) = .ok (htons 1) := by decide

end WasmtimeMysql
