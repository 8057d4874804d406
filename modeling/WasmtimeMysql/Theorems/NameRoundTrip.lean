import WasmtimeMysql.Lib.Numerals
import WasmtimeMysql.Theorems.ServicePort

/-!
# Names and back

`getnameinfo` writes an address and a port as texts, `getaddrinfo` reads such texts. What the one has written the other reads, into the same
address and the same port, whatever they are (`names_round_trip`): of an IPv6 address only the flow information and the scope are lost. Of libc
it is assumed that `inet_pton` reads what `inet_ntop` writes, with a dot in an IPv4 address and a colon in an IPv6 address, within
`INET_ADDRSTRLEN` and `INET6_ADDRSTRLEN`.
-/

namespace WasmtimeMysql

open Effects Effects.Prog Netdb

/-- What is documented of `inet_pton` and `inet_ntop`. -/
structure Inet.Lawful (inet : Inet) : Prop where
  pton4 : ∀ addr, inet.pton4 (inet.ntop4 addr) = some addr
  pton6 : ∀ addr, inet.pton6 (inet.ntop6 addr) = some addr
  dot : ∀ addr, 46 ∈ inet.ntop4 addr
  noColon : ∀ addr, 58 ∉ inet.ntop4 addr
  colon : ∀ addr, 58 ∈ inet.ntop6 addr
  length4 : ∀ addr, (inet.ntop4 addr).length < 16
  length6 : ∀ addr, (inet.ntop6 addr).length < 46

/-- The address as `getaddrinfo` writes it. -/
def Sockaddr.cleared : Sockaddr → Sockaddr
  | .inet port addr => .inet port addr
  | .inet6 port _ addr _ => .inet6 port 0 addr 0
  | .other family => .other family

namespace NameRoundTripAux

/-! ### Ports -/

/-- `htons` exchanges the two bytes, ... -/
theorem toNat_htons (x : UInt16) : (htons x).toNat = x.toNat % 256 * 256 + x.toNat / 256 := by
  have hlt : x.toNat < 65536 := x.toNat_lt
  have hhigh : x.toNat / 256 < 2 ^ 8 := by omega
  have hshl : (x <<< 8).toNat = (x.toNat % 256) <<< 8 := by
    rw [UInt16.toNat_shiftLeft]
    simp [Nat.shiftLeft_eq]
    omega
  have hshr : (x >>> 8).toNat = x.toNat / 256 := by
    rw [UInt16.toNat_shiftRight]
    simp [Nat.shiftRight_eq_div_pow]
  unfold htons
  rw [UInt16.toNat_or, hshl, hshr, ← Nat.shiftLeft_add_eq_or_of_lt hhigh, Nat.shiftLeft_eq]

/-- ... and twice it does nothing. -/
theorem htons_htons (x : UInt16) : htons (htons x) = x := by
  have hlt : x.toNat < 65536 := x.toNat_lt
  apply UInt16.toNat_inj.mp
  rw [toNat_htons, toNat_htons]
  omega

/-- The letter of a digit. -/
theorem digitChar_toUInt8 {d : Nat} (hd : d < 10) : isDigit (Nat.digitChar d).toUInt8 = true ∧ (Nat.digitChar d).toUInt8.toNat - 48 = d := by
  interval_cases d <;> decide

/-- One more digit. -/
theorem digitsValue_snoc (digits : List UInt8) (d : UInt8) : digitsValue (digits ++ [d]) = 10 * digitsValue digits + (d.toNat - 48) := by
  simp [digitsValue]

/-- A decimal numeral has digits only, and their value is the number. -/
theorem decimal_spec (n : Nat) : (∀ c ∈ decimal n, isDigit c = true) ∧ digitsValue (decimal n) = n := by
  induction n using Nat.strongRecOn with
  | ind n ih =>
    by_cases hn : n < 10
    · obtain ⟨hdigit, hvalue⟩ := digitChar_toUInt8 hn
      have hdecimal : decimal n = [(Nat.digitChar n).toUInt8] := by
        rw [decimal, Nat.toDigits_of_lt_base hn]
        rfl
      rw [hdecimal]
      exact ⟨by simpa using hdigit, by simpa [digitsValue] using hvalue⟩
    · have hlt : n / 10 < n := by omega
      have hmod : n % 10 < 10 := Nat.mod_lt n (by omega)
      obtain ⟨hdigits, hvalue⟩ := ih (n / 10) hlt
      obtain ⟨hdigit, hlast⟩ := digitChar_toUInt8 hmod
      have hdecimal : decimal n = decimal (n / 10) ++ [(Nat.digitChar (n % 10)).toUInt8] := by
        rw [decimal, Nat.toDigits_of_base_le (by omega) (by omega), List.map_append]
        rfl
      rw [hdecimal]
      constructor
      · intro c hc
        rcases List.mem_append.mp hc with hc | hc
        · exact hdigits c hc
        · rw [List.mem_singleton.mp hc]
          exact hdigit
      · rw [digitsValue_snoc, hvalue, hlast]
        omega

/-- A numeral is not empty, ... -/
theorem decimal_ne_nil (n : Nat) : decimal n ≠ [] := by
  simp [decimal, Nat.toDigits_ne_nil]

/-- ... and that of a port has at most five digits. -/
theorem length_decimal {n : Nat} (h : n < 65536) : (decimal n).length ≤ 5 := by
  rw [decimal, List.length_map, Nat.length_toDigits_le_iff (by omega) (by omega)]
  omega

/-- The port that was written is the port that is read. -/
theorem parseServicePort_decimal (port : UInt16) : parseServicePort (some (decimal (htons port).toNat)) = .ok port := by
  obtain ⟨hdigits, hvalue⟩ := decimal_spec (htons port).toNat
  have hlt : (htons port).toNat < 65536 := (htons port).toNat_lt
  have hport : IsPort (decimal (htons port).toNat) (htons port).toNat := by
    have hplain : IsPort ([] ++ [] ++ decimal (htons port).toNat) (digitsValue (decimal (htons port).toNat)) :=
      .plain nofun (.inl rfl) (decimal_ne_nil _) hdigits (by omega)
    rw [hvalue] at hplain
    exact hplain
  rw [ServicePortAux.parseServicePort_of_isPort hport, UInt16.ofNat_toNat, htons_htons]

/-! ### Texts -/

/-- Texts that fit their buffers. -/
theorem writeNames_of_fits {text : CStr} {hostlen servlen : UInt32} (port : UInt16) (htext : text.length < 46) (hhost : 46 ≤ hostlen.toNat)
    (hserv : 6 ≤ servlen.toNat) (hserv' : servlen.toNat < 2 ^ 31) :
    writeNames text (some hostlen) (some servlen) port = ⟨0, some text, some (decimal (htons port).toNat)⟩ := by
  have hhostlen : hostlen ≠ 0 := by
    rintro rfl
    exact absurd hhost (by decide)
  have hservlen : servlen ≠ 0 := by
    rintro rfl
    exact absurd hserv (by decide)
  have hint : servlen.toInt32.toInt = servlen.toNat := by
    have heq : servlen.toInt32 = Int32.ofNat servlen.toNat := by
      rw [← Int32.toInt32_toUInt32 (Int32.ofNat servlen.toNat), Int32.toUInt32_ofNat', UInt32.ofNat_toNat]
    rw [heq]
    exact Int32.toInt_ofNat_of_lt hserv'
  have hlen := length_decimal (htons port).toNat_lt
  have hfits : ¬((decimal (htons port).toNat).length : Int) ≥ servlen.toInt32.toInt := by
    rw [hint]
    omega
  have hroom : ¬text.length + 1 > hostlen.toNat := by omega
  simp only [writeNames, if_neg hhostlen, if_neg hroom, writeService, if_neg hservlen, if_neg hfits]

/-- A text with a dot or a colon is no special name. -/
theorem nodeAddress_of_mem {n : Nat} {pton : CStr → Option (Vector UInt8 n)} {any loopback addr : Vector UInt8 n} {passive : Bool} {text : CStr}
    {c : UInt8} (hc : c = 46 ∨ c = 58) (hmem : c ∈ text) (hpton : pton text = some addr) :
    nodeAddress pton any loopback passive (some text) = some addr := by
  have hspecial : ¬(text = [] ∨ text = cstr "*") := by
    rintro (rfl | rfl)
    · cases hmem
    · rcases hc with rfl | rfl <;> exact absurd hmem (by decide)
  have hlocalhost : text ≠ cstr "localhost" := by
    rintro rfl
    rcases hc with rfl | rfl <;> exact absurd hmem (by decide)
  simp only [nodeAddress, if_neg hspecial, if_neg hlocalhost, hpton]

/-- The family of a text whose colons tell it. -/
theorem nodeFamily_of_hints {hinted family : Int32} (node : CStr) (hfamily : hinted = afUnspec ∨ hinted = family)
    (hcolon : (if node.contains 58 then afInet6 else afInet) = family) : nodeFamily hinted (some node) = family := by
  unfold nodeFamily
  by_cases hopen : hinted = afUnspec
  · rw [if_pos hopen]
    exact hcolon
  · rw [if_neg hopen]
    exact hfamily.resolve_left hopen

/-! ### `getaddrinfo` -/

section
variable {Ptr σ : Type} {M : Machine (Heap.Sig Ptr) σ} {s : σ}

/-- A node with an address is resolved to it, unless an allocation is refused. -/
def Resolves (family : Int32) (addr : Sockaddr) (tr : List (Event (Heap.Sig Ptr))) (o : Outcome (Resolved Ptr)) : Prop :=
  ((∃ ev ∈ tr, Heap.Refused ev) ∧ o = .returned ⟨eaiMemory, []⟩) ∨
    ((∀ ev ∈ tr, ¬Heap.Refused ev) ∧ ∃ ai, o = .returned ⟨0, [ai]⟩ ∧ ai.family = family ∧ ai.addr = addr)

/-- A command of the heap, on any heap. -/
theorem wp_heap {c : Heap.Cmd Ptr} {Q : List (Event (Heap.Sig Ptr)) → Outcome c.Resp → σ → Prop}
    (h : ∀ r s', Q [⟨c, r⟩] (.returned r) s') : wp (α := no_index c.Resp) M (heap c) Q s := fun r s' _ => h r s'

/-- A list is given back, on any heap. -/
theorem wp_freeaddrinfo_any {l : List (AddrInfo Ptr)} {Q : List (Event (Heap.Sig Ptr)) → Outcome Unit → σ → Prop}
    (h : ∀ tr s', Q tr (.returned ()) s') : wp M (freeaddrinfo l) Q s := by
  induction l generalizing s Q with
  | nil => exact h _ _
  | cons ai next ih =>
    refine wp_bind.mpr (wp_heap fun _ s₁ => ?_)
    refine wp_bind.mpr (wp_heap fun _ s₂ => ?_)
    exact wp_bind.mpr (wp_heap fun _ s₃ => ih fun tr s' => h _ _)

/-- An address is resolved, unless an allocation is refused. -/
theorem wp_resolveNode_addr {n : Nat} {family socktype protocol : Int32} {addrlen : Nat} {pton : CStr → Option (Vector UInt8 n)}
    {any loopback addr : Vector UInt8 n} {sockaddr : Vector UInt8 n → Sockaddr} {passive canonname : Bool} {node : Option CStr}
    (haddr : nodeAddress pton any loopback passive node = some addr) :
    wp M (resolveNode family socktype protocol addrlen pton any loopback sockaddr passive canonname node)
      (fun tr o _ => Resolves family (sockaddr addr) tr o) s := by
  refine wp_bind.mpr (wp_bind.mpr (wp_heap ?_))
  rintro (_ | ai) s₁
  · exact .inl ⟨⟨_, List.mem_cons_self, rfl⟩, rfl⟩
  · refine wp_bind.mpr (wp_heap ?_)
    rintro (_ | addrPtr) s₂
    · exact wp_bind.mpr (wp_heap fun _ _ => .inl ⟨⟨_, List.mem_cons_of_mem _ List.mem_cons_self, rfl⟩, rfl⟩)
    · simp only [wpNext_returned, Prog.pure_eq, wp_ret, haddr]
      cases canonname with
      | false => exact .inr ⟨by simp [Heap.Refused], _, rfl, rfl, rfl⟩
      | true =>
        simp only [if_true, dupCstr]
        refine wp_bind.mpr (wp_bind.mpr (wp_heap ?_))
        rintro (_ | copy) s₃
        · refine wp_bind.mpr (wp_freeaddrinfo_any fun _ _ => .inl ⟨⟨⟨.malloc ((node.getD []).length + 1), none⟩, ?_, rfl⟩, rfl⟩)
          simp
        · exact .inr ⟨by simp [Heap.Refused], _, rfl, rfl, rfl⟩

end

end NameRoundTripAux

open NameRoundTripAux in
/-- The texts that `getnameinfo` writes for an address, into buffers that are large enough, are read back by `getaddrinfo` as the address, for
hints that leave the family open or name it, unless an allocation is refused. -/
theorem names_round_trip {inet : Inet} (hinet : inet.Lawful) (sa : Sockaddr) (hsa : ∀ family, sa ≠ .other family) (hostlen servlen : UInt32)
    (hhost : 46 ≤ hostlen.toNat) (hserv : 6 ≤ servlen.toNat) (hserv' : servlen.toNat < 2 ^ 31) (flags : Int32)
    (hflags : flags &&& niNamereqd = 0) (hints : Hints) (hfamily : hints.family = afUnspec ∨ hints.family = sa.family) :
    ∃ host serv, getnameinfo inet sa (some hostlen) (some servlen) flags = ⟨0, some host, some serv⟩ ∧
      ∀ {Ptr : Type} [DecidableEq Ptr] (s : Heap Ptr) tr o s',
        Runs Heap.machine (getaddrinfoFor inet true (some host) (some serv) (some hints)) s tr o s' →
        ((∃ ev ∈ tr, Heap.Refused ev) ∧ o = .returned ⟨eaiMemory, []⟩) ∨
          ((∀ ev ∈ tr, ¬Heap.Refused ev) ∧ ∃ ai, o = .returned ⟨0, [ai]⟩ ∧ ai.family = sa.family ∧ ai.addr = sa.cleared) := by
  cases sa with
  | inet port addr =>
    have hnames := writeNames_of_fits port (Nat.lt_trans (hinet.length4 addr) (by decide)) hhost hserv hserv'
    refine ⟨inet.ntop4 addr, decimal (htons port).toNat, ?_, ?_⟩
    · simp [getnameinfo, hflags, hnames]
    · intro Ptr _ s tr o s' hrun
      have hfam := nodeFamily_of_hints (inet.ntop4 addr) hfamily (by simp [Sockaddr.family, hinet.noColon addr])
      refine hrun.of_wp (Q := fun tr o _ => Resolves afInet (.inet port addr) tr o) ?_
      simp only [getaddrinfoFor, if_true, getaddrinfo, parseServicePort_decimal, Option.getD_some, hfam, Sockaddr.family]
      exact wp_resolveNode_addr (nodeAddress_of_mem (.inl rfl) (hinet.dot addr) (hinet.pton4 addr))
  | inet6 port flowinfo addr scopeId =>
    have hnames := writeNames_of_fits port (hinet.length6 addr) hhost hserv hserv'
    refine ⟨inet.ntop6 addr, decimal (htons port).toNat, ?_, ?_⟩
    · simp [getnameinfo, hflags, hnames]
    · intro Ptr _ s tr o s' hrun
      have hfam := nodeFamily_of_hints (inet.ntop6 addr) hfamily (by simp [Sockaddr.family, hinet.colon addr])
      have hother : afInet6 ≠ afInet := by decide
      refine hrun.of_wp (Q := fun tr o _ => Resolves afInet6 (.inet6 port 0 addr 0) tr o) ?_
      simp only [getaddrinfoFor, if_true, getaddrinfo, parseServicePort_decimal, Option.getD_some, hfam, Sockaddr.family, if_neg hother]
      exact wp_resolveNode_addr (nodeAddress_of_mem (.inr rfl) (hinet.colon addr) (hinet.pton6 addr))
  | other family => exact absurd rfl (hsa family)

namespace NameRoundTripAux

/-- The letter of a digit up to 15. -/
def letter (d : Nat) : UInt8 := (Nat.digitChar d).toUInt8

/-- Letters are different for different digits, ... -/
theorem letter_inj : ∀ d < 16, ∀ e < 16, letter d = letter e → d = e := by decide

/-- ... and none is the separator. -/
theorem letter_ne_colon : ∀ d < 16, letter d ≠ 58 := by decide

/-- A mark and the digits of a byte, of which there are enough. -/
def field (mark : CStr) (base width : Nat) (byte : UInt8) : CStr := mark ++ Numerals.numeral base letter width byte.toNat

/-- Fields are different for different bytes. -/
theorem field_inj {mark : CStr} {base width : Nat} (hbase : 0 < base) (hbase' : base ≤ 16) (hwidth : 256 ≤ base ^ width) {a b : UInt8}
    (h : field mark base width a = field mark base width b) : a = b := by
  have hletter : ∀ d < base, ∀ e < base, letter d = letter e → d = e := fun d hd e he =>
    letter_inj d (Nat.lt_of_lt_of_le hd hbase') e (Nat.lt_of_lt_of_le he hbase')
  have ha : a.toNat < base ^ width := Nat.lt_of_lt_of_le a.toNat_lt hwidth
  have hb : b.toNat < base ^ width := Nat.lt_of_lt_of_le b.toNat_lt hwidth
  exact UInt8.toNat_inj.mp (Numerals.numeral_inj hbase hletter ha hb (List.append_cancel_left h))

/-- Fields of one length can be told apart. -/
theorem fields_inj {mark : CStr} {base width : Nat} (hbase : 0 < base) (hbase' : base ≤ 16) (hwidth : 256 ≤ base ^ width) {l l' : List UInt8}
    (hlength : l.length = l'.length) (h : l.flatMap (field mark base width) = l'.flatMap (field mark base width)) : l = l' := by
  induction l generalizing l' with
  | nil => exact (List.length_eq_zero_iff.mp hlength.symm).symm
  | cons a l ih =>
    cases l' with
    | nil => cases hlength
    | cons b l' =>
      rw [List.flatMap_cons, List.flatMap_cons] at h
      obtain ⟨hhead, htail⟩ := List.append_inj h (by simp [field])
      rw [field_inj hbase hbase' hwidth hhead, ih (Nat.succ.inj hlength) htail]

/-- The text of an IPv4 address whose bytes have three digits each. -/
def ntop4 (addr : Vector UInt8 4) : CStr := (addr.toList.flatMap (field [46] 10 3)).tail

/-- A text for IPv6 addresses, which are not asked for here. -/
def ntop6 (addr : Vector UInt8 16) : CStr := 58 :: addr.toList.flatMap (field [] 16 2)

/-- The text of an IPv4 address begins with its first separator left out. -/
theorem ntop4_eq (addr : Vector UInt8 4) : addr.toList.flatMap (field [46] 10 3) = 46 :: ntop4 addr := by
  obtain ⟨⟨l⟩, hl⟩ := addr
  cases l with
  | nil => cases hl
  | cons a l => rfl

/-- No two IPv4 addresses have the same text, ... -/
theorem ntop4_injective : Function.Injective ntop4 := by
  intro a b h
  have hfields := congrArg (List.cons 46) h
  rw [← ntop4_eq, ← ntop4_eq] at hfields
  exact Vector.toList_inj.mp (fields_inj (by decide) (by decide) (by decide) (by simp) hfields)

/-- ... and no two IPv6 addresses. -/
theorem ntop6_injective : Function.Injective ntop6 := by
  intro a b h
  exact Vector.toList_inj.mp (fields_inj (by decide) (by decide) (by decide) (by simp) (List.cons.inj h).2)

/-- All fields have the same length. -/
theorem length_fields {mark : CStr} {base width : Nat} (l : List UInt8) :
    (l.flatMap (field mark base width)).length = l.length * (mark.length + width) := by
  induction l with
  | nil => simp
  | cons a l ih =>
    rw [List.flatMap_cons, List.length_append, ih, List.length_cons, Nat.succ_mul, field, List.length_append, Numerals.length_numeral]
    omega

/-- The length of the text of an IPv4 address. -/
theorem length_ntop4 (addr : Vector UInt8 4) : (ntop4 addr).length = 15 := by
  have hlength := congrArg List.length (ntop4_eq addr)
  rw [length_fields, List.length_cons] at hlength
  simp at hlength
  omega

/-- The digits are no colons. -/
theorem colon_notMem_ntop4 (addr : Vector UInt8 4) : 58 ∉ ntop4 addr := by
  intro hmem
  have hmem : (58 : UInt8) ∈ addr.toList.flatMap (field [46] 10 3) := by
    rw [ntop4_eq]
    exact List.mem_cons_of_mem 46 hmem
  obtain ⟨byte, -, hbyte⟩ := List.mem_flatMap.mp hmem
  rcases List.mem_append.mp hbyte with hmark | hdigit
  · exact absurd hmark (by decide)
  · obtain ⟨d, hd, heq⟩ := Numerals.exists_digit_of_mem_numeral (by decide) hdigit
    exact letter_ne_colon d (by omega) heq.symm

/-- An IPv4 text has a dot. -/
theorem dot_mem_ntop4 (addr : Vector UInt8 4) : 46 ∈ ntop4 addr := by
  obtain ⟨⟨l⟩, hl⟩ := addr
  cases l with
  | nil => cases hl
  | cons a l =>
    cases l with
    | nil => cases hl
    | cons b l => simp [ntop4, field]

/-- A libc whose `inet_pton` reads what its `inet_ntop` writes. -/
noncomputable def someInet : Inet := ⟨Function.partialInv ntop4, Function.partialInv ntop6, ntop4, ntop6⟩

/-- These texts are read back. -/
theorem someInet_lawful : someInet.Lawful where
  pton4 := Function.partialInv_left ntop4_injective
  pton6 := Function.partialInv_left ntop6_injective
  dot := dot_mem_ntop4
  noColon := colon_notMem_ntop4
  colon _ := List.mem_cons_self
  length4 addr := by
    show (ntop4 addr).length < 16
    rw [length_ntop4]
    decide
  length6 addr := by
    show (ntop6 addr).length < 46
    rw [ntop6, List.length_cons, length_fields]
    simp

end NameRoundTripAux

open NameRoundTripAux in
/-- The address 192.168.122.101 and the port 3306. -/
theorem names_round_trip_mysql :
    getnameinfo someInet (.inet (htons 3306) #v[192, 168, 122, 101]) (some 1025) (some 32) 3 =
      ⟨0, some (cstr "192.168.122.101"), some (cstr "3306")⟩ ∧
    ∀ (s : Heap Nat) tr o s',
      Runs Heap.machine (getaddrinfoFor someInet true (some (cstr "192.168.122.101")) (some (cstr "3306")) (some ⟨0, afInet, 0, 0⟩)) s tr o s' →
      ((∃ ev ∈ tr, Heap.Refused ev) ∧ o = .returned ⟨eaiMemory, []⟩) ∨
        ((∀ ev ∈ tr, ¬Heap.Refused ev) ∧
          ∃ ai, o = .returned ⟨0, [ai]⟩ ∧ ai.family = afInet ∧ ai.addr = .inet (htons 3306) #v[192, 168, 122, 101]) := by
  obtain ⟨host, serv, hnames, hresolves⟩ := names_round_trip someInet_lawful (.inet (htons 3306) #v[192, 168, 122, 101]) nofun 1025 32
    (by decide) (by decide) (by decide) 3 (by decide) ⟨0, afInet, 0, 0⟩ (.inr rfl)
  have htexts : getnameinfo someInet (.inet (htons 3306) #v[192, 168, 122, 101]) (some 1025) (some 32) 3 =
      ⟨0, some (cstr "192.168.122.101"), some (cstr "3306")⟩ := by decide
  rw [htexts] at hnames
  cases hnames
  exact ⟨htexts, hresolves⟩

end WasmtimeMysql
