import WasmtimeMysql.Theorems.ServicePort

/-!
# Who frees what the name service allocates

Every allocation of `getaddrinfo` may fail. When it returns an error it has given everything back and there is no list; otherwise the blocks of
its list are new. `freeaddrinfo` gives back each block of a list. So in every run of the two, with other code at work on the same heap, the
blocks in use are those of the other code and those of the lists that have not been freed, and nothing is freed twice (`names_ledger`).
-/

namespace WasmtimeMysql

open Effects Effects.Prog Netdb

variable {Ptr : Type}

/-- What `freeaddrinfo` frees of one entry. -/
def AddrInfo.blocks (ai : AddrInfo Ptr) : List (Option Ptr) := [some ai.addrPtr, ai.canonname.map Prod.fst, some ai.ptr]

/-- The blocks of a list. -/
def listBlocks (l : List (AddrInfo Ptr)) : List Ptr := (l.flatMap AddrInfo.blocks).reduceOption

namespace NameLedgerAux

/-- `freeaddrinfo` frees the blocks of its list, one after another. -/
theorem freeaddrinfo_eq (l : List (AddrInfo Ptr)) : freeaddrinfo l = Heap.freeAll (l.flatMap AddrInfo.blocks) := by
  induction l with
  | nil => rfl
  | cons ai next ih =>
    rw [freeaddrinfo, ih]
    rfl

/-- An entry without a name has two blocks, ... -/
theorem listBlocks_none {ai : AddrInfo Ptr} (h : ai.canonname = none) : listBlocks [ai] = [ai.addrPtr, ai.ptr] := by
  simp [listBlocks, AddrInfo.blocks, List.reduceOption, h]

/-- ... and one with a name three. -/
theorem listBlocks_some {ai : AddrInfo Ptr} {copy : Ptr} {name : CStr} (h : ai.canonname = some (copy, name)) :
    listBlocks [ai] = [ai.addrPtr, copy, ai.ptr] := by
  simp [listBlocks, AddrInfo.blocks, List.reduceOption, h]

end NameLedgerAux

variable [DecidableEq Ptr]

/-- The runs of a guest that calls `getaddrinfo`, and `freeaddrinfo` once for each list it got, in any order. Other code allocates and frees
blocks of its own in between. A run has the lists that are not freed, the blocks of the other code, and the heap. -/
inductive NameRun (inet : Inet) (start : Heap Ptr) : List (List (AddrInfo Ptr)) → Finset Ptr → Heap Ptr → Prop where
  | start : NameRun inet start [] start.live start
  | getaddrinfo {lists others s tr r s'} (res : Bool) (node service : Option CStr) (hints : Option Hints) : NameRun inet start lists others s →
      Runs Heap.machine (getaddrinfoFor inet res node service hints) s tr (.returned r) s' →
      NameRun inet start (if r.rc = 0 then r.res :: lists else lists) others s'
  | freeaddrinfo {lists others s tr o s'} (l : List (AddrInfo Ptr)) : NameRun inet start lists others s → l ∈ lists →
      Runs Heap.machine (freeaddrinfo l) s tr o s' → NameRun inet start (lists.erase l) others s'
  | malloc {lists others s p s'} (size : Nat) : NameRun inet start lists others s → Heap.machine s (.malloc size) (some p) s' →
      NameRun inet start lists (insert p others) s'
  | free {lists others s p s'} : NameRun inet start lists others s → p ∈ others → Heap.machine s (.free (some p)) () s' →
      NameRun inet start lists (others.erase p) s'

namespace NameLedgerAux

variable {s : Heap Ptr}

/-- A list whose blocks are different and in use is given back. -/
theorem wp_freeaddrinfo {l : List (AddrInfo Ptr)} (hnodup : (listBlocks l).Nodup) (hlive : ∀ p ∈ listBlocks l, p ∈ s.live) :
    wp Heap.machine (freeaddrinfo l) (fun _ o s' => o = .returned () ∧ s' = s.without (listBlocks l)) s := by
  rw [freeaddrinfo_eq]
  exact Heap.wp_freeAll hnodup hlive

/-- The blocks of a list are new, and all that is new. -/
structure Fresh (s : Heap Ptr) (l : List (AddrInfo Ptr)) (s' : Heap Ptr) : Prop where
  nodup : (listBlocks l).Nodup
  fresh : ∀ p ∈ listBlocks l, p ∉ s.live
  plus : s' = s.plus (listBlocks l)

/-- A new list that is given back at once. -/
theorem Fresh.wp_freeaddrinfo {l : List (AddrInfo Ptr)} {s' : Heap Ptr} (h : Fresh s l s') :
    wp Heap.machine (freeaddrinfo l) (fun _ o s'' => o = .returned () ∧ s'' = s) s' := by
  have hlive : ∀ p ∈ listBlocks l, p ∈ s'.live := by
    intro p hp
    rw [h.plus]
    exact Finset.mem_union_right _ (List.mem_toFinset.mpr hp)
  refine wp_mono (NameLedgerAux.wp_freeaddrinfo h.nodup hlive) ?_
  rintro tr o s'' ⟨rfl, rfl⟩
  rw [h.plus, Heap.without_plus h.fresh]
  exact ⟨rfl, rfl⟩

/-- What `getaddrinfo` leaves: nothing and an error, or a list. -/
def Gives (s : Heap Ptr) (r : Resolved Ptr) (s' : Heap Ptr) : Prop :=
  (r.rc ≠ 0 ∧ r.res = [] ∧ s' = s) ∨ (r.rc = 0 ∧ Fresh s r.res s')

/-- `alloc_addrinfo` gives back what it got if it cannot get all. -/
theorem wp_allocAddrinfo {family socktype protocol : Int32} {addrlen : Nat} :
    wp Heap.machine (allocAddrinfo family socktype protocol addrlen)
      (fun _ o s' => (o = .returned (.error eaiMemory) ∧ s' = s) ∨
        ∃ ai, o = .returned (.ok ai) ∧ ai.canonname = none ∧ Fresh s [ai] s') s := by
  refine wp_bind.mpr (Heap.wp_calloc (fun tr => .inl ⟨rfl, rfl⟩) fun tr ai hai => ?_)
  refine wp_bind.mpr (Heap.wp_calloc (fun tr => ?_) fun tr addr haddr => ?_)
  · refine wp_bind.mpr (Heap.wp_free (Finset.mem_insert_self ai s.live) fun tr => .inl ⟨rfl, ?_⟩)
    simp only [Finset.erase_insert hai]
  · refine .inr ⟨_, rfl, rfl, ?_⟩
    obtain ⟨hne, hold⟩ : addr ≠ ai ∧ addr ∉ s.live := by simpa using haddr
    refine ⟨?_, ?_, ?_⟩ <;> rw [listBlocks_none rfl]
    · simpa using hne
    · simp [hold, hai]
    · simp only [Heap.plus]
      congr 1
      ext p
      simp only [Finset.mem_insert, Finset.mem_union, List.mem_toFinset, List.mem_cons, List.not_mem_nil, or_false]
      tauto

/-- A copy of the name is one block more. -/
theorem Fresh.canonname {ai : AddrInfo Ptr} {s' : Heap Ptr} (h : Fresh s [ai] s') (hai : ai.canonname = none) {copy : Ptr} {name : CStr}
    (hcopy : copy ∉ s'.live) : Fresh s [{ ai with canonname := some (copy, name) }] { s' with live := insert copy s'.live } := by
  obtain ⟨hnodup, hfresh, rfl⟩ := h
  rw [listBlocks_none hai] at hnodup hfresh hcopy ⊢
  simp only [Heap.plus, Finset.mem_union, List.mem_toFinset, not_or] at hcopy
  have hsome : listBlocks [{ ai with canonname := some (copy, name) }] = [ai.addrPtr, copy, ai.ptr] := listBlocks_some rfl
  refine ⟨?_, ?_, ?_⟩ <;> rw [hsome]
  · simp only [List.nodup_cons, List.mem_cons, List.not_mem_nil, or_false, not_or] at hnodup hcopy ⊢
    tauto
  · simp only [List.mem_cons, List.not_mem_nil, or_false] at hfresh ⊢
    rintro p (rfl | rfl | rfl)
    · exact hfresh _ (.inl rfl)
    · exact hcopy.1
    · exact hfresh _ (.inr rfl)
  · simp only [Heap.plus]
    congr 1
    ext p
    simp only [Finset.mem_insert, Finset.mem_union, List.mem_toFinset, List.mem_cons, List.not_mem_nil, or_false]
    tauto

/-- The address does not change the blocks. -/
theorem Fresh.addr {ai : AddrInfo Ptr} {s' : Heap Ptr} (h : Fresh s [ai] s') (addr : Sockaddr) : Fresh s [{ ai with addr }] s' :=
  ⟨h.nodup, h.fresh, h.plus⟩

/-- `resolve_node` gives a list or leaves the heap as it was. -/
theorem wp_resolveNode {n : Nat} {family socktype protocol : Int32} {addrlen : Nat} {pton : CStr → Option (Vector UInt8 n)}
    {any loopback : Vector UInt8 n} {sockaddr : Vector UInt8 n → Sockaddr} {passive canonname : Bool} {node : Option CStr} :
    wp Heap.machine (resolveNode family socktype protocol addrlen pton any loopback sockaddr passive canonname node)
      (fun _ o s' => ∃ r, o = .returned r ∧ Gives s r s') s := by
  have hmemory : eaiMemory ≠ 0 := by decide
  have hnoname : eaiNoname ≠ 0 := by decide
  refine wp_bind.mpr (wp_mono wp_allocAddrinfo ?_)
  rintro tr o s₁ (⟨rfl, rfl⟩ | ⟨ai, rfl, hai, hfresh⟩)
  · exact ⟨_, rfl, .inl ⟨hmemory, rfl, rfl⟩⟩
  · simp only [wpNext_returned]
    cases nodeAddress pton any loopback passive node with
    | none =>
      refine wp_bind.mpr (wp_mono hfresh.wp_freeaddrinfo ?_)
      rintro tr' o s₂ ⟨rfl, rfl⟩
      exact ⟨_, rfl, .inl ⟨hnoname, rfl, rfl⟩⟩
    | some addr =>
      have hfresh := hfresh.addr (sockaddr addr)
      cases canonname with
      | false => exact ⟨_, rfl, .inr ⟨rfl, hfresh⟩⟩
      | true =>
        simp only [if_true, dupCstr]
        refine wp_bind.mpr (wp_bind.mpr (Heap.wp_malloc (fun tr' => ?_) fun tr' copy hcopy => ?_))
        · refine wp_bind.mpr (wp_mono hfresh.wp_freeaddrinfo ?_)
          rintro tr'' o s₂ ⟨rfl, rfl⟩
          exact ⟨_, rfl, .inl ⟨hmemory, rfl, rfl⟩⟩
        · exact ⟨_, rfl, .inr ⟨rfl, hfresh.canonname hai hcopy⟩⟩

/-- So does `getaddrinfo`. -/
theorem wp_getaddrinfoFor {inet : Inet} {res : Bool} {node service : Option CStr} {hints : Option Hints} :
    wp Heap.machine (getaddrinfoFor inet res node service hints) (fun _ o s' => ∃ r, o = .returned r ∧ Gives s r s') s := by
  have hfail : eaiFail ≠ 0 := by decide
  have hfamily : eaiFamily ≠ 0 := by decide
  have hnoname : eaiNoname ≠ 0 := by decide
  unfold getaddrinfoFor
  cases res with
  | false => exact ⟨_, rfl, .inl ⟨hfail, rfl, rfl⟩⟩
  | true =>
    simp only [if_true, getaddrinfo]
    cases hport : parseServicePort service with
    | error rc =>
      have hrc := ServicePortAux.parseServicePort_error hport
      exact ⟨_, rfl, .inl ⟨hrc ▸ hnoname, rfl, rfl⟩⟩
    | ok port =>
      refine iteInduction (motive := fun p => wp Heap.machine p _ s) (fun _ => wp_resolveNode) fun _ => ?_
      refine iteInduction (motive := fun p => wp Heap.machine p _ s) (fun _ => wp_resolveNode) fun _ => ?_
      exact ⟨_, rfl, .inl ⟨hfamily, rfl, rfl⟩⟩

/-- A call that fails has changed nothing. -/
theorem failed {inet : Inet} {res : Bool} {node service : Option CStr} {hints : Option Hints} {tr : List (Event (Heap.Sig Ptr))}
    {r : Resolved Ptr} {s' : Heap Ptr} (hrun : Runs Heap.machine (getaddrinfoFor inet res node service hints) s tr (.returned r) s')
    (hrc : r.rc ≠ 0) : r.res = [] ∧ s' = s := by
  obtain ⟨r', hr', hgives⟩ := hrun.of_wp wp_getaddrinfoFor
  cases hr'
  rcases hgives with ⟨-, hres, hs⟩ | ⟨hzero, -⟩
  · exact ⟨hres, hs⟩
  · exact absurd hzero hrc

/-- The books are right: the lists and the other code share no block, no block stands twice, and those are the blocks in use. -/
structure Balanced (lists : List (List (AddrInfo Ptr))) (others : Finset Ptr) (s : Heap Ptr) : Prop where
  nodup : (lists.flatMap listBlocks).Nodup
  apart : ∀ p ∈ lists.flatMap listBlocks, p ∉ others
  live : s.live = others ∪ (lists.flatMap listBlocks).toFinset

variable {lists : List (List (AddrInfo Ptr))} {others : Finset Ptr} {s' : Heap Ptr}

/-- A new list keeps the balance, ... -/
theorem Balanced.getaddrinfo (h : Balanced lists others s) {l : List (AddrInfo Ptr)} (hfresh : Fresh s l s') :
    Balanced (l :: lists) others s' := by
  have hold : ∀ p ∈ listBlocks l, p ∉ others ∧ p ∉ lists.flatMap listBlocks := by
    intro p hp
    have hnot := hfresh.fresh p hp
    rw [h.live, Finset.mem_union, List.mem_toFinset, not_or] at hnot
    exact hnot
  refine ⟨?_, ?_, ?_⟩ <;> rw [List.flatMap_cons]
  · refine List.nodup_append.mpr ⟨hfresh.nodup, h.nodup, ?_⟩
    rintro p hp q hq rfl
    exact (hold p hp).2 hq
  · intro p hp
    rcases List.mem_append.mp hp with hp | hp
    · exact (hold p hp).1
    · exact h.apart p hp
  · rw [hfresh.plus, List.toFinset_append]
    simp only [Heap.plus, h.live, Finset.union_assoc, Finset.union_comm (listBlocks l).toFinset]

/-- ... a list that is freed does, ... -/
theorem Balanced.freeaddrinfo (h : Balanced lists others s) {l : List (AddrInfo Ptr)} (hl : l ∈ lists) :
    Balanced (lists.erase l) others (s.without (listBlocks l)) := by
  have hperm : (lists.flatMap listBlocks).Perm (listBlocks l ++ (lists.erase l).flatMap listBlocks) :=
    (List.perm_cons_erase hl).flatMap_right listBlocks
  obtain ⟨-, hnodup, hdisjoint⟩ := List.nodup_append.mp (hperm.nodup_iff.mp h.nodup)
  refine ⟨hnodup, ?_, ?_⟩
  · intro p hp
    exact h.apart p (hperm.mem_iff.mpr (List.mem_append_right _ hp))
  · ext p
    have hmem : p ∈ lists.flatMap listBlocks ↔ p ∈ listBlocks l ∨ p ∈ (lists.erase l).flatMap listBlocks := by
      rw [hperm.mem_iff, List.mem_append]
    simp only [Heap.without, h.live, Finset.mem_sdiff, Finset.mem_union, List.mem_toFinset, hmem]
    constructor
    · tauto
    · rintro (hp | hp)
      · exact ⟨.inl hp, fun hin => h.apart p (hmem.mpr (.inl hin)) hp⟩
      · exact ⟨.inr (.inr hp), fun hin => hdisjoint p hin p hp rfl⟩

/-- A list that is not freed is different blocks that are in use. -/
theorem Balanced.list (h : Balanced lists others s) {l : List (AddrInfo Ptr)} (hl : l ∈ lists) :
    (listBlocks l).Nodup ∧ ∀ p ∈ listBlocks l, p ∈ s.live := by
  constructor
  · exact (List.nodup_flatMap.mp h.nodup).1 l hl
  · intro p hp
    rw [h.live, Finset.mem_union, List.mem_toFinset]
    exact .inr (List.mem_flatMap.mpr ⟨l, hl, hp⟩)

/-- ... a block that other code gets, ... -/
theorem Balanced.malloc (h : Balanced lists others s) {p : Ptr} (hp : p ∉ s.live) :
    Balanced lists (insert p others) { s with live := insert p s.live } := by
  refine ⟨h.nodup, ?_, ?_⟩
  · intro q hq hin
    rcases Finset.mem_insert.mp hin with rfl | hin
    · rw [h.live, Finset.mem_union, List.mem_toFinset] at hp
      exact hp (.inr hq)
    · exact h.apart q hq hin
  · simp only [h.live, Finset.insert_union]

/-- ... and one that it gives back. -/
theorem Balanced.free (h : Balanced lists others s) {p : Ptr} (hp : p ∈ others) :
    p ∈ s.live ∧ Balanced lists (others.erase p) { s with live := s.live.erase p } := by
  refine ⟨?_, h.nodup, ?_, ?_⟩
  · rw [h.live]
    exact Finset.mem_union_left _ hp
  · intro q hq hin
    exact h.apart q hq (Finset.mem_of_mem_erase hin)
  · have hnot : p ∉ (lists.flatMap listBlocks).toFinset := fun hin => h.apart p (List.mem_toFinset.mp hin) hp
    simp only [h.live, Finset.erase_union_distrib, Finset.erase_eq_of_notMem hnot]

end NameLedgerAux

open NameLedgerAux

/-- In every run, from a heap on which there was no mistake, nothing is freed that is not in use, and the blocks in use are those of the other
code and those of the lists that are not freed, each once. A call that fails leaves no list, and the heap as it was. -/
theorem names_ledger (inet : Inet) (start : Heap Ptr) (hstart : start.misused = false) (lists : List (List (AddrInfo Ptr)))
    (others : Finset Ptr) (s : Heap Ptr) (hrun : NameRun inet start lists others s) :
    s.misused = false ∧ (lists.flatMap listBlocks).Nodup ∧ (∀ p ∈ lists.flatMap listBlocks, p ∉ others) ∧
      s.live = others ∪ (lists.flatMap listBlocks).toFinset ∧
      ∀ res node service hints tr r s', Runs Heap.machine (getaddrinfoFor inet res node service hints) s tr (.returned r) s' → r.rc ≠ 0 →
        r.res = [] ∧ s' = s := by
  suffices h : s.misused = false ∧ Balanced lists others s from ⟨h.1, h.2.nodup, h.2.apart, h.2.live, fun _ _ _ _ _ _ _ => failed⟩
  induction hrun with
  | start => exact ⟨hstart, List.nodup_nil, nofun, by simp⟩
  | getaddrinfo res node service hints _ hrun ih =>
    obtain ⟨hgood, hbalanced⟩ := ih
    obtain ⟨r', hr', hgives⟩ := hrun.of_wp wp_getaddrinfoFor
    cases hr'
    rcases hgives with ⟨hrc, -, rfl⟩ | ⟨hrc, hfresh⟩
    · rw [if_neg hrc]
      exact ⟨hgood, hbalanced⟩
    · rw [if_pos hrc]
      refine ⟨?_, hbalanced.getaddrinfo hfresh⟩
      rw [hfresh.plus]
      exact hgood
  | freeaddrinfo l _ hl hrun ih =>
    obtain ⟨hgood, hbalanced⟩ := ih
    obtain ⟨hnodup, hlive⟩ := hbalanced.list hl
    obtain ⟨-, rfl⟩ := hrun.of_wp (wp_freeaddrinfo hnodup hlive)
    exact ⟨hgood, hbalanced.freeaddrinfo hl⟩
  | malloc size _ hstep ih =>
    obtain ⟨hgood, hbalanced⟩ := ih
    rcases hstep with ⟨hnone, -⟩ | ⟨p', hsome, hfresh, rfl⟩
    · cases hnone
    · cases hsome
      exact ⟨hgood, hbalanced.malloc hfresh⟩
  | @free _ _ s p s' _ hp hstep ih =>
    obtain ⟨hgood, hbalanced⟩ := ih
    obtain ⟨hlive, hafter⟩ := hbalanced.free hp
    have hs' : s' = { s with live := s.live.erase p } := by
      rw [show s' = { live := s.live.erase p, misused := s.misused || !decide (p ∈ s.live) } from hstep]
      simp [hlive]
    rw [hs']
    exact ⟨hgood, hafter⟩

namespace NameLedgerAux

/-- A libc that knows no address. -/
def noInet : Inet := ⟨fun _ => none, fun _ => none, fun _ => [], fun _ => []⟩

/-- The loopback address of a node that is not given. -/
def loopback : AddrInfo Nat := ⟨1, 0, afInet, sockStream, 0, 16, 2, .inet 0 inaddrLoopback, none⟩

/-- A call for it, ... -/
theorem runs_loopback : ∃ tr, Runs Heap.machine (getaddrinfoFor noInet true none none none) (⟨∅, false⟩ : Heap Nat) tr
    (.returned ⟨0, [loopback]⟩) ⟨{2, 1}, false⟩ := by
  refine ⟨[⟨.calloc 32, some 1⟩, ⟨.calloc 16, some 2⟩], ?_⟩
  refine .via ⟨{1}, false⟩ (.inr ⟨1, rfl, by decide, rfl⟩) ?_
  refine .via ⟨{2, 1}, false⟩ (.inr ⟨2, rfl, by decide, rfl⟩) ?_
  exact .ret _ _

/-- ... another one, in which the block for the address is refused, ... -/
theorem runs_refused : ∃ tr, Runs Heap.machine (getaddrinfoFor noInet true none none none) (⟨{2, 1}, false⟩ : Heap Nat) tr
    (.returned ⟨eaiMemory, []⟩) ⟨{2, 1}, false⟩ := by
  refine ⟨[⟨.calloc 32, some 3⟩, ⟨.calloc 16, none⟩, ⟨.free (some 3), ()⟩], ?_⟩
  refine .via ⟨{3, 2, 1}, false⟩ (.inr ⟨3, rfl, by decide, rfl⟩) ?_
  refine .via ⟨{3, 2, 1}, false⟩ (.inl ⟨rfl, rfl⟩) ?_
  refine .via ⟨{2, 1}, false⟩ (by simp [Heap.machine]) ?_
  exact .ret _ _

/-- ... and the end of the first list. -/
theorem runs_freeaddrinfo : ∃ tr, Runs Heap.machine (freeaddrinfo [loopback]) (⟨{3, 2, 1}, false⟩ : Heap Nat) tr (.returned ()) ⟨{3}, false⟩ := by
  refine ⟨[⟨.free (some 2), ()⟩, ⟨.free none, ()⟩, ⟨.free (some 1), ()⟩], ?_⟩
  refine .via ⟨{3, 1}, false⟩ rfl ?_
  refine .via ⟨{3, 1}, false⟩ rfl ?_
  refine .via ⟨{3}, false⟩ rfl ?_
  exact .ret _ _

end NameLedgerAux

open NameLedgerAux in
/-- A call that gives a list, one in which an allocation fails, and a block of other code, before the list is freed and after that. -/
theorem names_ledger_null : ∃ s s' : Heap Nat, NameRun noInet ⟨∅, false⟩ [[loopback]] {3} s ∧ NameRun noInet ⟨∅, false⟩ [] {3} s' ∧
    s.live = {3} ∪ {2, 1} ∧ s'.live = {3} ∧ s'.misused = false := by
  obtain ⟨tr₁, h₁⟩ := runs_loopback
  obtain ⟨tr₂, h₂⟩ := runs_refused
  obtain ⟨tr₃, h₃⟩ := runs_freeaddrinfo
  have hlist := NameRun.getaddrinfo true none none none (.start : NameRun noInet ⟨∅, false⟩ [] ∅ ⟨∅, false⟩) h₁
  have hrefused := NameRun.getaddrinfo true none none none hlist h₂
  have hother := hrefused.malloc 8 (.inr ⟨3, rfl, by decide, rfl⟩)
  have hfreed := NameRun.freeaddrinfo [loopback] hother (by decide) h₃
  obtain ⟨-, -, -, hlive, -⟩ := names_ledger noInet ⟨∅, false⟩ rfl _ _ _ hother
  obtain ⟨hgood, -, -, hlive', -⟩ := names_ledger noInet ⟨∅, false⟩ rfl _ _ _ hfreed
  exact ⟨_, _, hother, hfreed, hlive, hlive', hgood⟩

end WasmtimeMysql
