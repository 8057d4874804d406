import WasmtimeMysql.HostSockets
import WasmtimeMysql.Lib.Heap

/-!
# The guest's name service

`getaddrinfo`, `freeaddrinfo` and `getnameinfo` of `mysql_wasi_socket_shim.c`, with the constants of its `netdb.h`. There is no resolver behind
them: a node is a numeric address, `localhost`, `*` or nothing. A C string is the list of its bytes before the NUL. The two functions of libc
that read and write numeric addresses are parameters (`Inet`); `strtoul` reads decimal numbers into an `unsigned long` of 32 bits.
-/

namespace WasmtimeMysql

open Effects Effects.Prog Bytes

/-- A C string. -/
abbrev CStr : Type := List UInt8

/-- The bytes of a literal. -/
def cstr (s : String) : CStr := s.toList.map Char.toUInt8

/-! ## Constants -/

namespace Netdb

def afUnspec : Int32 := 0

def afInet : Int32 := 1

def afInet6 : Int32 := 2

def sockStream : Int32 := 6

def aiPassive : Int32 := 0x0001

def aiCanonname : Int32 := 0x0002

def niNamereqd : Int32 := 0x0004

def eaiNoname : Int32 := -2

def eaiFail : Int32 := -4

def eaiFamily : Int32 := -6

def eaiMemory : Int32 := -10

def eaiOverflow : Int32 := -12

/-- `sizeof(struct addrinfo)`: eight words. -/
def sizeofAddrinfo : Nat := 32

/-- `sizeof(struct sockaddr_in)`: wasi-libc aligns it to 16 bytes. -/
def sizeofSockaddrIn : Nat := 16

/-- `sizeof(struct sockaddr_in6)` -/
def sizeofSockaddrIn6 : Nat := 32

end Netdb

open Netdb

/-! ## Addresses -/

/-- `htons` and `ntohs`: the bytes are swapped. -/
def htons (x : UInt16) : UInt16 := x <<< 8 ||| x >>> 8

/-- A `struct sockaddr`, by its family. A port is as it stands in memory, in network byte order; an address is its bytes. -/
inductive Sockaddr where
  | inet (port : UInt16) (addr : Vector UInt8 4)
  | inet6 (port : UInt16) (flowinfo : UInt32) (addr : Vector UInt8 16) (scopeId : UInt32)
  | other (family : Int32)
  deriving DecidableEq

/-- `sa_family` -/
def Sockaddr.family : Sockaddr → Int32
  | .inet .. => afInet
  | .inet6 .. => afInet6
  | .other family => family

/-- The bytes of a `struct sockaddr_in` or `sockaddr_in6` that `calloc` has cleared before its fields were set. -/
def Sockaddr.bytes : Sockaddr → List UInt8
  | .inet port addr => leBytes 2 1 ++ leBytes 2 port.toNat ++ addr.toList ++ List.replicate 8 0
  | .inet6 port flowinfo addr scopeId =>
    leBytes 2 2 ++ leBytes 2 port.toNat ++ leBytes 4 flowinfo.toNat ++ addr.toList ++ leBytes 4 scopeId.toNat ++ List.replicate 4 0
  | .other _ => []

/-- `inet_pton` and `inet_ntop` for the two families. -/
structure Inet where
  pton4 : CStr → Option (Vector UInt8 4)
  pton6 : CStr → Option (Vector UInt8 16)
  ntop4 : Vector UInt8 4 → CStr
  ntop6 : Vector UInt8 16 → CStr

/-- `htonl(INADDR_ANY)` -/
def inaddrAny : Vector UInt8 4 := #v[0, 0, 0, 0]

/-- `htonl(INADDR_LOOPBACK)` -/
def inaddrLoopback : Vector UInt8 4 := #v[127, 0, 0, 1]

def in6addrAny : Vector UInt8 16 := #v[0, 0, 0, 0, 0, 0, 0, 0, 0, 0, 0, 0, 0, 0, 0, 0]

def in6addrLoopback : Vector UInt8 16 := #v[0, 0, 0, 0, 0, 0, 0, 0, 0, 0, 0, 0, 0, 0, 0, 1]

/-! ## Ports -/

/-- `isspace` in the C locale. -/
def isSpace (c : UInt8) : Bool := c == 32 || (9 ≤ c && c ≤ 13)

def isDigit (c : UInt8) : Bool := 48 ≤ c && c ≤ 57

/-- The number that decimal digits stand for. -/
def digitsValue (digits : List UInt8) : Nat := digits.foldl (fun n d => 10 * n + (d.toNat - 48)) 0

/-- The optional sign of a number: whether it is a minus, and what follows. -/
def takeSign : CStr → Bool × CStr
  | c :: rest => if c = 45 then (true, rest) else if c = 43 then (false, rest) else (false, c :: rest)
  | [] => (false, [])

/-- `strtoul` with the base 10: the number, and where it ends. A number that is too great is `ULONG_MAX`, and a minus negates in the type. -/
def strtoul (s : CStr) : UInt32 × CStr :=
  let (negative, rest) := takeSign (s.dropWhile isSpace)
  let digits := rest.takeWhile isDigit
  if digits = [] then (0, s)
  else
    let n := digitsValue digits
    let value := if n ≥ 2 ^ 32 then 0xffffffff else if negative then -UInt32.ofNat n else UInt32.ofNat n
    (value, rest.dropWhile isDigit)

/-- `parse_service_port`: the port in network byte order, or `EAI_NONAME`. -/
def parseServicePort (service : Option CStr) : Except Int32 UInt16 :=
  match service with
  | none => .ok 0
  | some service =>
    if service = [] then .ok 0
    else
      let (parsed, rest) := strtoul service
      if rest ≠ [] ∨ parsed > 65535 then .error eaiNoname else .ok (htons parsed.toUInt16)

/-! ## `getaddrinfo` -/

section
variable {Ptr : Type}

/-- A `struct addrinfo` at its address, with what its pointers point to. `ai_next` is the rest of the list it is in. -/
structure AddrInfo (Ptr : Type) where
  ptr : Ptr
  flags : Int32
  family : Int32
  socktype : Int32
  protocol : Int32
  addrlen : Nat
  addrPtr : Ptr
  addr : Sockaddr
  canonname : Option (Ptr × CStr)
  deriving DecidableEq

/-- What the caller's `hints` say. -/
structure Hints where
  flags : Int32
  family : Int32
  socktype : Int32
  protocol : Int32
  deriving DecidableEq, Repr

/-- What `getaddrinfo` returns, and the list that `*res` points to after it. -/
structure Resolved (Ptr : Type) where
  rc : Int32
  res : List (AddrInfo Ptr)
  deriving DecidableEq

/-- A call to the heap. -/
def heap (c : Heap.Cmd Ptr) : Prog (Heap.Sig Ptr) c.Resp := cmd (S := Heap.Sig Ptr) c

/-- `dup_cstr` of a string: the block with the copy. -/
def dupCstr (value : CStr) : Prog (Heap.Sig Ptr) (Option (Ptr × CStr)) := do
  match ← heap (.malloc (value.length + 1)) with
  | none => pure none
  | some copy => pure (some (copy, value))

/-- `alloc_addrinfo`. The address is all zeros. -/
def allocAddrinfo (family socktype protocol : Int32) (addrlen : Nat) : Prog (Heap.Sig Ptr) (Except Int32 (AddrInfo Ptr)) := do
  match ← heap (.calloc sizeofAddrinfo) with
  | none => pure (.error eaiMemory)
  | some ai =>
    match ← heap (.calloc addrlen) with
    | none =>
      heap (.free (some ai))
      pure (.error eaiMemory)
    | some addrPtr => pure (.ok ⟨ai, 0, family, socktype, protocol, addrlen, addrPtr, .other 0, none⟩)

/-- `freeaddrinfo` -/
def freeaddrinfo : List (AddrInfo Ptr) → Prog (Heap.Sig Ptr) Unit
  | [] => pure ()
  | ai :: next => do
    heap (.free (some ai.addrPtr))
    heap (.free (ai.canonname.map Prod.fst))
    heap (.free (some ai.ptr))
    freeaddrinfo next

/-- The address of a node in one family, as both blocks of `getaddrinfo` look it up. -/
def nodeAddress {n : Nat} (pton : CStr → Option (Vector UInt8 n)) (any loopback : Vector UInt8 n) (passive : Bool) (node : Option CStr) :
    Option (Vector UInt8 n) :=
  match node with
  | none => some (if passive then any else loopback)
  | some node =>
    if node = [] ∨ node = cstr "*" then some (if passive then any else loopback)
    else if node = cstr "localhost" then some loopback
    else pton node

/-- The two blocks of `getaddrinfo`, which differ in the family and the type of the address. -/
def resolveNode {n : Nat} (family socktype protocol : Int32) (addrlen : Nat) (pton : CStr → Option (Vector UInt8 n)) (any loopback : Vector UInt8 n)
    (sockaddr : Vector UInt8 n → Sockaddr) (passive canonname : Bool) (node : Option CStr) : Prog (Heap.Sig Ptr) (Resolved Ptr) := do
  match ← allocAddrinfo family socktype protocol addrlen with
  | .error rc => pure ⟨rc, []⟩
  | .ok ai =>
    match nodeAddress pton any loopback passive node with
    | none =>
      freeaddrinfo [ai]
      pure ⟨eaiNoname, []⟩
    | some addr =>
      let ai := { ai with addr := sockaddr addr }
      if canonname then
        match ← dupCstr (node.getD []) with
        | none =>
          freeaddrinfo [ai]
          pure ⟨eaiMemory, []⟩
        | some copy => pure ⟨0, [{ ai with canonname := some copy }]⟩
      else pure ⟨0, [ai]⟩

/-- The family that `getaddrinfo` takes. -/
def nodeFamily (family : Int32) (node : Option CStr) : Int32 :=
  if family = afUnspec then if (node.getD []).contains 58 then afInet6 else afInet else family

/-- `getaddrinfo`, for a `res` that is not `NULL`. -/
def getaddrinfo (inet : Inet) (node service : Option CStr) (hints : Option Hints) : Prog (Heap.Sig Ptr) (Resolved Ptr) :=
  let hints := hints.getD ⟨0, afUnspec, sockStream, 0⟩
  let passive := hints.flags &&& aiPassive != 0
  let canonname := hints.flags &&& aiCanonname != 0
  match parseServicePort service with
  | .error rc => pure ⟨rc, []⟩
  | .ok port =>
    let socktype := if hints.socktype = 0 then sockStream else hints.socktype
    let family := nodeFamily hints.family node
    if family = afInet then
      resolveNode afInet socktype hints.protocol sizeofSockaddrIn inet.pton4 inaddrAny inaddrLoopback (.inet port) passive canonname node
    else if family = afInet6 then
      resolveNode afInet6 socktype hints.protocol sizeofSockaddrIn6 inet.pton6 in6addrAny in6addrLoopback (.inet6 port 0 · 0) passive canonname
        node
    else pure ⟨eaiFamily, []⟩

/-- `getaddrinfo`. With a `res` that is `NULL` there is nowhere to put a list. -/
def getaddrinfoFor (inet : Inet) (res : Bool) (node service : Option CStr) (hints : Option Hints) : Prog (Heap.Sig Ptr) (Resolved Ptr) :=
  if res then getaddrinfo inet node service hints else pure ⟨eaiFail, []⟩

end

/-! ## `getnameinfo` -/

/-- The digits of the format `%u`. -/
def decimal (n : Nat) : CStr := (Nat.toDigits 10 n).map Char.toUInt8

/-- What `getnameinfo` returns, and what it has put into its two buffers. -/
structure Named where
  rc : Int32
  host : Option CStr
  serv : Option CStr
  deriving DecidableEq

/-- The service of `getnameinfo`, after the host. `snprintf` puts what fits; its result is compared as an `int`. -/
def writeService (host : Option CStr) (serv : Option UInt32) (port : UInt16) : Named :=
  match serv with
  | none => ⟨0, host, none⟩
  | some servlen =>
    if servlen = 0 then ⟨0, host, none⟩
    else
      let text := decimal (htons port).toNat
      if (text.length : Int) ≥ servlen.toInt32.toInt then ⟨eaiOverflow, host, some (text.take (servlen.toNat - 1))⟩
      else ⟨0, host, some text⟩

/-- A block of `getnameinfo`: the host, then the service. `inet_ntop` fails when the text and its NUL do not fit. -/
def writeNames (text : CStr) (host serv : Option UInt32) (port : UInt16) : Named :=
  match host with
  | none => writeService none serv port
  | some hostlen =>
    if hostlen = 0 then writeService none serv port
    else if text.length + 1 > hostlen.toNat then ⟨eaiOverflow, none, none⟩
    else writeService (some text) serv port

/-- `getnameinfo`; a buffer is given by its length, and none is `NULL`. -/
def getnameinfo (inet : Inet) (sa : Sockaddr) (host serv : Option UInt32) (flags : Int32) : Named :=
  if flags &&& niNamereqd ≠ 0 then ⟨eaiNoname, none, none⟩
  else
    match sa with
    | .inet port addr => writeNames (inet.ntop4 addr) host serv port
    | .inet6 port _ addr _ => writeNames (inet.ntop6 addr) host serv port
    | .other _ => ⟨eaiFamily, none, none⟩

end WasmtimeMysql
