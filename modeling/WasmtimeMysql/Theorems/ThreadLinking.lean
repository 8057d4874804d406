import Mathlib.Data.List.Forall2
import WasmtimeMysql.RunnerLinker

/-!
# Every thread is linked as the main instance is

`run_wasi_thread` builds a linker of its own, and leaves out the memories that are not shared. So a thread's instance has the very functions and
memories of the main instance, however far they have grown, if the module imports no memory of its own; otherwise no thread of it comes to run
(`threads_linked`). What the port declares of the import modules is never left to trap.
-/

namespace WasmtimeMysql

open Effects

/-- The module imports a memory that is not shared. -/
def ImportsOwnMemory (imports : List ImportType) : Prop := ∃ i ∈ imports, ∃ ty, i.ty = .memory ty ∧ ty.shared = false

namespace ThreadLinkingAux

variable {W : Wasmtime}

/-! ### The base linker -/

section
variable {wasi : List (ImportKey × FuncType)} {base : W.linkers.Linker}

/-- All that is in the base linker is a function of the host. -/
theorem base_host (hW : W.Lawful) (h : buildBaseLinker W wasi = some base) {k : ImportKey} {e : Extern W.Memory}
    (hk : W.linkers.get base k = some e) : ∃ f ty, e = .host f ty := by
  rcases hW.linkers.of_get_defineAll h hk with hk | hmem
  · rw [hW.linkers.get_new] at hk
    cases hk
  · rcases List.mem_append.mp hmem with hmem | hmem
    · obtain ⟨f, -, hf⟩ := List.mem_map.mp hmem
      cases hf
      exact ⟨_, _, rfl⟩
    · obtain ⟨d, -, hd⟩ := List.mem_map.mp hmem
      cases hd
      exact ⟨_, _, rfl⟩

/-- What the port declares has a closure of the import modules, with the declared type. -/
theorem exists_hostFunc : ∀ d ∈ declaredImports, ∃ f, (⟨d.1, f, d.2⟩ : HostDef) ∈ hostFuncs := by
  have hsub : ∀ d ∈ declaredImports, d ∈ hostFuncs.map fun h => (h.key, h.ty) := by decide
  intro d hd
  obtain ⟨h, hh, heq⟩ := List.mem_map.mp (hsub d hd)
  cases heq
  exact ⟨h.func, hh⟩

/-- No closure is there under two names, and no name has two. -/
theorem hostFunc_inj : ∀ h ∈ hostFuncs, ∀ h' ∈ hostFuncs, h.func = h'.func ↔ h.key = h'.key := by decide

/-- It is in the base linker. -/
theorem base_declared (hW : W.Lawful) (h : buildBaseLinker W wasi = some base) {d : HostDef} (hd : d ∈ hostFuncs) :
    W.linkers.get base d.key = some (.host d.func d.ty) :=
  hW.linkers.get_defineAll_of_mem h (List.mem_append_right _ (List.mem_map.mpr ⟨d, hd, rfl⟩))

end

/-! ### The linkers of the main instance and of a thread -/

/-- An import has this memory. -/
def HasMemory (L : W.linkers.Linker) (k : ImportKey) (m : W.Memory) : Prop :=
  W.linkers.get L k = some (.sharedMemory m) ∨ W.linkers.get L k = some (.memory m)

/-- The linker of the main instance, and that of a thread, while the memories are defined. -/
structure Linking (base : W.linkers.Linker) (imports : List ImportType) (s : W.Engine) (L : W.linkers.Linker)
    (memories : List (ImportedSharedMemory W.Memory)) (L' : W.linkers.Linker) : Prop where
  thread : defineSharedMemories W base memories = some L'
  same : ∀ k, W.linkers.get L' k = W.linkers.get L k ∨ (W.linkers.get L' k = none ∧ ∃ m, W.linkers.get L k = some (.memory m))
  own : ∀ k m, W.linkers.get L k = some (.memory m) → ImportsOwnMemory imports
  created : ∀ k m, HasMemory L k m → W.created s m
  apart : ∀ k k' m, HasMemory L k m → HasMemory L k' m → k = k'

section
variable {base L L' L₁ : W.linkers.Linker} {imports : List ImportType} {s s' : W.Engine} {memories : List (ImportedSharedMemory W.Memory)}
  {k : ImportKey} {m : W.Memory} {c : Memories.Cmd}

/-- What is defined in the one linker is defined in the other, unless it is a memory of the main instance. -/
theorem Linking.get_eq_none (h : Linking base imports s L memories L') (hk : W.linkers.get L k = none) : W.linkers.get L' k = none := by
  rcases h.same k with hsame | ⟨hnone, -⟩
  · rw [hsame, hk]
  · exact hnone

/-- A memory of the linker is the one that was just defined, or was there before. -/
theorem hasMemory_define (hW : W.Lawful) {e : Extern W.Memory} (he : e = .sharedMemory m ∨ e = .memory m)
    (hdef : W.linkers.define L k e = some L₁) {k' : ImportKey} {m' : W.Memory} (hm : HasMemory L₁ k' m') :
    (k' = k ∧ m' = m) ∨ (k' ≠ k ∧ HasMemory L k' m') := by
  unfold HasMemory at hm
  rw [hW.linkers.get_define hdef] at hm
  by_cases hk : k' = k
  · simp only [hk, if_true] at hm
    left
    refine ⟨hk, ?_⟩
    rcases he with rfl | rfl <;> rcases hm with hm | hm <;> cases hm <;> rfl
  · simp only [hk, if_false] at hm
    exact .inr ⟨hk, hm⟩

/-- A memory more, which is a new one. -/
theorem Linking.define (hW : W.Lawful) {e : Extern W.Memory} (h : Linking base imports s L memories L')
    (hm : W.machine s c (some m) s') (he : e = .sharedMemory m ∨ e = .memory m) (hdef : W.linkers.define L k e = some L₁) :
    (∀ k m, HasMemory L₁ k m → W.created s' m) ∧ ∀ k k' m, HasMemory L₁ k m → HasMemory L₁ k' m → k = k' := by
  obtain ⟨hnew, hcreated⟩ := hW.created_new hm
  constructor
  · intro k' m' hm'
    rcases hasMemory_define hW he hdef hm' with ⟨-, rfl⟩ | ⟨-, hm'⟩
    · exact hcreated
    · exact hW.created_mono hm (h.created k' m' hm')
  · intro k₁ k₂ m' h₁ h₂
    rcases hasMemory_define hW he hdef h₁ with ⟨rfl, rfl⟩ | ⟨-, h₁⟩ <;> rcases hasMemory_define hW he hdef h₂ with ⟨rfl, hm'⟩ | ⟨-, h₂⟩
    · rfl
    · exact absurd (h.created _ _ h₂) hnew
    · rw [hm'] at h₁
      exact absurd (h.created _ _ h₁) hnew
    · exact h.apart _ _ _ h₁ h₂

/-- A memory that is shared is defined in both. -/
theorem Linking.shared (hW : W.Lawful) {i : ImportType} (h : Linking base imports s L memories L') (hm : W.machine s c (some m) s')
    (hdef : W.linkers.define L i.key (.sharedMemory m) = some L₁) :
    ∃ L₁', Linking base imports s' L₁ (memories ++ [⟨i.module, i.name, m⟩]) L₁' := by
  obtain ⟨L₁', hdef'⟩ := hW.linkers.exists_define (h.get_eq_none (hW.linkers.get_of_define hdef)) (Extern.sharedMemory m)
  obtain ⟨hcreated, hapart⟩ := h.define hW hm (.inl rfl) hdef
  refine ⟨L₁', ?_, ?_, ?_, hcreated, hapart⟩
  · have hthread : W.linkers.defineAll base (memories.map ImportedSharedMemory.entry) = some L' := h.thread
    unfold defineSharedMemories
    rw [List.map_append, Linkers.defineAll_append, hthread]
    simp only [Option.bind_some, List.map_cons, List.map_nil, ImportedSharedMemory.entry, Linkers.defineAll]
    rw [show (i.module, i.name) = i.key from rfl, hdef']
    rfl
  · intro k
    rw [hW.linkers.get_define hdef, hW.linkers.get_define hdef']
    split
    · exact .inl rfl
    · exact h.same k
  · intro k m' hm'
    rw [hW.linkers.get_define hdef] at hm'
    split at hm'
    · cases hm'
    · exact h.own k m' hm'

/-- A memory that is not is defined for the main instance. -/
theorem Linking.private (hW : W.Lawful) (h : Linking base imports s L memories L') (hown : ImportsOwnMemory imports)
    (hm : W.machine s c (some m) s') (hdef : W.linkers.define L k (.memory m) = some L₁) : Linking base imports s' L₁ memories L' := by
  obtain ⟨hcreated, hapart⟩ := h.define hW hm (.inr rfl) hdef
  refine ⟨h.thread, ?_, fun _ _ _ => hown, hcreated, hapart⟩
  intro k'
  rw [hW.linkers.get_define hdef]
  split
  · rename_i hk
    rw [hk]
    exact .inr ⟨h.get_eq_none (hW.linkers.get_of_define hdef), _, rfl⟩
  · exact h.same k'

/-- The loop keeps the two linkers together. -/
theorem wp_memories (hW : W.Lawful) {seen : List ImportKey} {rest : List ImportType} (hrest : ∀ i ∈ rest, i ∈ imports)
    (h : Linking base imports s L memories L') :
    wp W.machine (defineImportedMemories W L seen memories rest)
      (fun _ o s' => ∀ linker memories', o = .returned (.ok (linker, memories')) → ∃ L', Linking base imports s' linker memories' L') s := by
  induction rest generalizing L seen memories L' s with
  | nil =>
    rintro linker memories' hok
    cases hok
    exact ⟨L', h⟩
  | cons i rest ih =>
    have hlater : ∀ i ∈ rest, i ∈ imports := fun i hi => hrest i (List.mem_cons_of_mem _ hi)
    unfold defineImportedMemories
    cases hty : i.ty with
    | func ty => exact ih hlater h
    | other => exact ih hlater h
    | memory ty =>
      simp only
      by_cases hseen : i.key ∈ seen
      · rw [if_pos hseen]
        exact ih hlater h
      · rw [if_neg hseen]
        by_cases hshared : ty.shared = true
        · rw [if_pos hshared, wp_bind]
          rintro (_ | m) s' hm <;> simp only [wp_ret, wpNext_returned]
          · intro linker memories' hok
            cases hok
          · cases hdef : W.linkers.define L i.key (.sharedMemory m) with
            | none =>
              intro linker memories' hok
              cases hok
            | some L₁ =>
              obtain ⟨L₁', h₁⟩ := h.shared hW hm hdef
              exact ih hlater h₁
        · rw [if_neg hshared, wp_bind]
          rintro (_ | m) s' hm <;> simp only [wp_ret, wpNext_returned]
          · intro linker memories' hok
            cases hok
          · cases hdef : W.linkers.define L i.key (.memory m) with
            | none =>
              intro linker memories' hok
              cases hok
            | some L₁ =>
              have hown : ImportsOwnMemory imports := ⟨i, hrest i List.mem_cons_self, ty, hty, Bool.eq_false_iff.mpr hshared⟩
              exact ih hlater (h.private hW hown hm hdef)

end

/-! ### The last steps of both -/

section
variable {base L L' L₁ linker : W.linkers.Linker} {imports : List ImportType} {s : W.Engine} {memories : List (ImportedSharedMemory W.Memory)}

/-- What a name has in the end: what it had, `thread-spawn`, or a trap. -/
theorem get_finished (hW : W.Lawful) (hdef : defineWasiThreadSpawn W L = some L₁)
    (hunknown : W.defineUnknownImportsAsTraps L₁ imports = some linker) (k : ImportKey) :
    W.linkers.get linker k =
      (if k = ("wasi", "thread-spawn") then some (.host .spawnWasiThread threadSpawnType) else W.linkers.get L k).or
        (imports.findSome? fun i => if i.key = k then i.func?.map .trap else none) := by
  obtain ⟨linker', hlinker', hget⟩ := hW.unknown L₁ imports
  cases hunknown.symm.trans hlinker'
  rw [hget, hW.linkers.get_define hdef]

/-- Only a function traps. -/
theorem trap_of_findSome {k : ImportKey} {e : Extern W.Memory}
    (h : (imports.findSome? fun i => if i.key = k then i.func?.map Extern.trap else none) = some e) : ∃ ty, e = .trap ty := by
  obtain ⟨i, hi, he⟩ := List.exists_of_findSome?_eq_some h
  split at he
  · obtain ⟨ty, -, rfl⟩ := Option.map_eq_some_iff.mp he
    exact ⟨ty, rfl⟩
  · cases he

/-- A memory is one of those that were defined. -/
theorem get_of_memory (hW : W.Lawful) (hdef : defineWasiThreadSpawn W L = some L₁)
    (hunknown : W.defineUnknownImportsAsTraps L₁ imports = some linker) {k : ImportKey} {e : Extern W.Memory}
    (he : (∃ m, e = .sharedMemory m) ∨ ∃ m, e = .memory m) (hk : W.linkers.get linker k = some e) : W.linkers.get L k = some e := by
  rw [get_finished hW hdef hunknown, Option.or_eq_some_iff] at hk
  rcases hk with hk | ⟨-, htrap⟩
  · split at hk
    · cases hk
      rcases he with ⟨m, he⟩ | ⟨m, he⟩ <;> cases he
    · exact hk
  · obtain ⟨ty, rfl⟩ := trap_of_findSome htrap
    rcases he with ⟨m, he⟩ | ⟨m, he⟩ <;> cases he

theorem wp_linkMain (hW : W.Lawful) {wasi : List (ImportKey × FuncType)} (hbase : buildBaseLinker W wasi = some base)
    (hstart : Linking base imports s base [] base) :
    wp W.machine (linkMain W wasi imports) (fun _ o s => o = .returned (.ok (linker, memories)) → ∃ L L' L₁,
      Linking base imports s L memories L' ∧ defineWasiThreadSpawn W L = some L₁ ∧ W.defineUnknownImportsAsTraps L₁ imports = some linker) s := by
  unfold linkMain
  rw [hbase]
  simp only
  rw [wp_bind]
  refine wp_mono (wp_memories hW (fun _ => id) hstart) ?_
  intro tr o s' hlinking
  cases o with
  | panicked =>
    intro hok
    cases hok
  | returned v =>
    rcases v with e | ⟨L, memories'⟩
    · intro hok
      cases hok
    · obtain ⟨L', h⟩ := hlinking L memories' rfl
      rw [wpNext_returned]
      simp only
      cases hspawn : defineWasiThreadSpawn W L with
      | none =>
        intro hok
        cases hok
      | some L₁ =>
        simp only
        cases hunknown : W.defineUnknownImportsAsTraps L₁ imports with
        | none =>
          intro hok
          cases hok
        | some linker' =>
          intro hok
          cases hok
          exact ⟨L, L', L₁, h, hspawn, hunknown⟩

/-- What the runner has when the main instance is linked. -/
theorem of_linkMain (hW : W.Lawful) {wasi : List (ImportKey × FuncType)} {s₀ s₁ : W.Engine} {tr : List (Event (Memories W.Memory))}
    (hrun : Runs W.machine (linkMain W wasi imports) s₀ tr (.returned (.ok (linker, memories))) s₁) :
    ∃ base L L' L₁, buildBaseLinker W wasi = some base ∧ Linking base imports s₁ L memories L' ∧ defineWasiThreadSpawn W L = some L₁ ∧
      W.defineUnknownImportsAsTraps L₁ imports = some linker := by
  cases hbase : buildBaseLinker W wasi with
  | none =>
    unfold linkMain at hrun
    rw [hbase] at hrun
    cases hrun
  | some base =>
    have hnone : ∀ k m, ¬HasMemory base k m := by
      rintro k m (hm | hm)
      · obtain ⟨f, ty, hty⟩ := base_host hW hbase hm
        cases hty
      · obtain ⟨f, ty, hty⟩ := base_host hW hbase hm
        cases hty
    have hstart : Linking base imports s₀ base [] base :=
      ⟨rfl, fun _ => .inl rfl, fun k m hm => absurd (.inr hm) (hnone k m), fun k m hm => absurd hm (hnone k m),
        fun k _ m hm => absurd hm (hnone k m)⟩
    obtain ⟨L, L', L₁, hlinked⟩ := hrun.of_wp (wp_linkMain hW hbase hstart) rfl
    exact ⟨base, L, L', L₁, rfl, hlinked⟩

/-- The module imports no memory of its own: a thread's linker has what the main one has. -/
theorem get_thread (h : Linking base imports s L memories L') (hown : ¬ImportsOwnMemory imports) (k : ImportKey) :
    W.linkers.get L' k = W.linkers.get L k := by
  rcases h.same k with hsame | ⟨-, m, hm⟩
  · exact hsame
  · exact absurd (h.own k m hm) hown

/-- A thread's linker has no memory that is not shared. -/
theorem get_ne_memory (hW : W.Lawful) {wasi : List (ImportKey × FuncType)} (hbase : buildBaseLinker W wasi = some base)
    (h : Linking base imports s L memories L') {k : ImportKey} {m : W.Memory} (hm : W.linkers.get L k = some (.memory m)) :
    W.linkers.get L' k = none := by
  rcases h.same k with hsame | ⟨hnone, -⟩
  · rw [hm] at hsame
    rcases hW.linkers.of_get_defineAll h.thread hsame with hbaseGet | hentry
    · obtain ⟨f, ty, hty⟩ := base_host hW hbase hbaseGet
      cases hty
    · obtain ⟨shared, -, hshared⟩ := List.mem_map.mp hentry
      cases hshared
  · exact hnone

end

/-! ### What imports are given -/

section
variable {imports : List ImportType} {s : W.Engine} {linker linker' : W.linkers.Linker} {externs : List (Extern W.Memory)}

/-- Imports that were given something are given the same by a linker that has the same for their names, if it is still accepted. -/
theorem instantiate_congr (hW : W.Lawful) {s' : W.Engine} (h : W.instantiate s linker imports = some externs) (hlater : W.later s s')
    (hL : ∀ k, W.linkers.get linker' k = W.linkers.get linker k) : W.instantiate s' linker' imports = some externs := by
  rw [hW.instantiate] at h ⊢
  refine h.imp fun i e hie => ?_
  rw [hL]
  exact ⟨hie.1, hW.accepts_later hlater hie.2⟩

/-- Every import was given something. -/
theorem exists_of_instantiate (hW : W.Lawful) (h : W.instantiate s linker imports = some externs) {i : ImportType} (hi : i ∈ imports) :
    ∃ e, W.linkers.get linker i.key = some e ∧ W.accepts s e i.ty := by
  rw [hW.instantiate] at h
  induction h with
  | nil => cases hi
  | cons hie _ ih =>
    rcases List.mem_cons.mp hi with rfl | hi
    · exact ⟨_, hie⟩
    · exact ih hi

/-- A linker that has nothing for an import gives nothing. -/
theorem instantiate_eq_none (hW : W.Lawful) {i : ImportType} (hi : i ∈ imports) (hget : W.linkers.get linker i.key = none) :
    W.instantiate s linker imports = none := by
  cases h : W.instantiate s linker imports with
  | none => rfl
  | some externs =>
    obtain ⟨e, he, -⟩ := exists_of_instantiate hW h hi
    cases hget.symm.trans he

end

/-! ### The main instance and a thread -/

section
variable {wasi : List (ImportKey × FuncType)} {base L L' L₁ linker : W.linkers.Linker} {imports : List ImportType} {s₁ s₂ : W.Engine}
  {memories : List (ImportedSharedMemory W.Memory)} {externs : List (Extern W.Memory)}

/-- The main instance is given the closure of the import module for a name that the port declares. -/
theorem host_of_declared (hW : W.Lawful) (hbase : buildBaseLinker W wasi = some base) (h : Linking base imports s₁ L memories L')
    (hspawn : defineWasiThreadSpawn W L = some L₁) (hunknown : W.defineUnknownImportsAsTraps L₁ imports = some linker)
    {d : ImportKey × FuncType} (hd : d ∈ declaredImports) {e : Extern W.Memory} (hget : W.linkers.get linker d.1 = some e) :
    ∃ f, ⟨d.1, f, d.2⟩ ∈ hostFuncs ∧ e = .host f d.2 ∧ ∀ h ∈ hostFuncs, h.func = f → h.key = d.1 := by
  obtain ⟨f, hf⟩ := exists_hostFunc d hd
  refine ⟨f, hf, ?_, fun g hg hgf => (hostFunc_inj g hg _ hf).mp hgf⟩
  have hthread := hW.linkers.get_defineAll_of_some h.thread (base_declared hW hbase hf)
  have hL : W.linkers.get L d.1 = some (.host f d.2) := by
    rcases h.same d.1 with hsame | ⟨hnone, -⟩
    · rw [← hsame, hthread]
    · cases hthread.symm.trans hnone
  have hne : d.1 ≠ ("wasi", "thread-spawn") := by
    intro hspawnKey
    rw [hspawnKey, hW.linkers.get_of_define hspawn] at hL
    cases hL
  rw [get_finished hW hspawn hunknown, if_neg hne, hL, Option.some_or] at hget
  exact (Option.some.inj hget).symm

/-- It is given a memory of its linker for an import of one. -/
theorem memory_of_accepts (hW : W.Lawful) (hspawn : defineWasiThreadSpawn W L = some L₁)
    (hunknown : W.defineUnknownImportsAsTraps L₁ imports = some linker) {k : ImportKey} {e : Extern W.Memory} {ty : MemoryType}
    (hget : W.linkers.get linker k = some e) (haccepts : W.accepts s₁ e (.memory ty)) :
    ∃ m, (e = .sharedMemory m ∨ e = .memory m) ∧ HasMemory L k m := by
  rcases hW.accepts_memory haccepts with ⟨-, m, rfl⟩ | ⟨-, m, rfl⟩
  · exact ⟨m, .inl rfl, .inl (get_of_memory hW hspawn hunknown (.inl ⟨m, rfl⟩) hget)⟩
  · exact ⟨m, .inr rfl, .inr (get_of_memory hW hspawn hunknown (.inr ⟨m, rfl⟩) hget)⟩

/-- A thread is given the same, if the module imports no memory of its own. -/
theorem runWasiThread_eq_some (hW : W.Lawful) (hbase : buildBaseLinker W wasi = some base) (h : Linking base imports s₁ L memories L')
    (hspawn : defineWasiThreadSpawn W L = some L₁) (hunknown : W.defineUnknownImportsAsTraps L₁ imports = some linker)
    (hmain : W.instantiate s₁ linker imports = some externs) (hlater : W.later s₁ s₂) (hown : ¬ImportsOwnMemory imports) :
    runWasiThread W wasi memories s₂ imports = some externs := by
  obtain ⟨L₁', hspawn'⟩ : ∃ L₁', defineWasiThreadSpawn W L' = some L₁' :=
    hW.linkers.exists_define ((get_thread h hown _).trans (hW.linkers.get_of_define hspawn)) _
  obtain ⟨linker', hunknown', -⟩ := hW.unknown L₁' imports
  unfold runWasiThread
  rw [hbase]
  simp only [Option.bind_eq_bind, Option.bind_some, h.thread, hspawn', hunknown']
  refine instantiate_congr hW hmain hlater fun k => ?_
  rw [get_finished hW hspawn' hunknown', get_finished hW hspawn hunknown, get_thread h hown]

/-- No function that the module imports has the name of a memory that the main instance was given. -/
theorem findSome?_trap_eq_none (hW : W.Lawful) (hmain : W.instantiate s₁ linker imports = some externs) {k : ImportKey} {m : W.Memory}
    (hget : W.linkers.get linker k = some (.memory m)) :
    (imports.findSome? fun i => if i.key = k then i.func?.map (fun ty => (Extern.trap ty : Extern W.Memory)) else none) = none := by
  rw [List.findSome?_eq_none_iff]
  intro j hj
  split
  · rename_i hkey
    obtain ⟨e, hjget, hjaccepts⟩ := exists_of_instantiate hW hmain hj
    rw [hkey, hget] at hjget
    cases hjget
    cases hjty : j.ty with
    | func ty =>
      rw [hjty] at hjaccepts
      rcases hW.accepts_func hjaccepts with ⟨f, hf⟩ | hf <;> cases hf
    | _ => simp only [ImportType.func?, hjty, Option.map_none]
  · rfl

/-- It cannot be instantiated otherwise. -/
theorem runWasiThread_eq_none (hW : W.Lawful) (hbase : buildBaseLinker W wasi = some base) (h : Linking base imports s₁ L memories L')
    (hspawn : defineWasiThreadSpawn W L = some L₁) (hunknown : W.defineUnknownImportsAsTraps L₁ imports = some linker)
    (hmain : W.instantiate s₁ linker imports = some externs) (hown : ImportsOwnMemory imports) :
    runWasiThread W wasi memories s₂ imports = none := by
  obtain ⟨i, hi, ty, hty, hshared⟩ := hown
  unfold runWasiThread
  rw [hbase]
  simp only [Option.bind_eq_bind, Option.bind_some, h.thread]
  cases hspawn' : defineWasiThreadSpawn W L' with
  | none => rfl
  | some L₁' =>
    obtain ⟨linker', hunknown', -⟩ := hW.unknown L₁' imports
    simp only [Option.bind_some, hunknown']
    refine instantiate_eq_none hW hi ?_
    obtain ⟨e, hget, haccepts⟩ := exists_of_instantiate hW hmain hi
    rw [hty] at haccepts
    obtain ⟨m, rfl⟩ : ∃ m, e = .memory m := by
      rcases hW.accepts_memory haccepts with ⟨hne, -⟩ | ⟨-, hmem⟩
      · cases hshared.symm.trans hne
      · exact hmem
    have hL := get_of_memory hW hspawn hunknown (.inr ⟨m, rfl⟩) hget
    have hne : i.key ≠ ("wasi", "thread-spawn") := by
      intro hkey
      rw [hkey, hW.linkers.get_of_define hspawn] at hL
      cases hL
    rw [get_finished hW hspawn' hunknown', if_neg hne, get_ne_memory hW hbase h hL, Option.none_or]
    exact findSome?_trap_eq_none hW hmain hget

end

end ThreadLinkingAux

open ThreadLinkingAux in
/-- When the main instance is linked: each import that the port declares is given the closure that its module defines under this name, with the
declared type, and no two names the same one; two imports of memories are the same memory exactly if they have the same name; and a thread that
starts later, with the memories grown, is given the very same if the module imports no memory of its own, and cannot be instantiated otherwise. -/
theorem threads_linked (W : Wasmtime) (hW : W.Lawful) (wasi : List (ImportKey × FuncType)) (imports : List ImportType) (s₀ s₁ s₂ : W.Engine)
    (tr : List (Event (Memories W.Memory))) (linker : W.linkers.Linker) (memories : List (ImportedSharedMemory W.Memory))
    (externs : List (Extern W.Memory)) (hrun : Runs W.machine (linkMain W wasi imports) s₀ tr (.returned (.ok (linker, memories))) s₁)
    (hmain : W.instantiate s₁ linker imports = some externs) (hlater : W.later s₁ s₂) :
    (∀ p ∈ imports.zip externs, ∀ d ∈ declaredImports, p.1.key = d.1 →
      ∃ f, ⟨d.1, f, d.2⟩ ∈ hostFuncs ∧ p.2 = .host f d.2 ∧ ∀ h ∈ hostFuncs, h.func = f → h.key = d.1) ∧
    (∀ p ∈ imports.zip externs, ∀ q ∈ imports.zip externs, (∃ ty, p.1.ty = .memory ty) → (∃ ty, q.1.ty = .memory ty) →
      (p.2 = q.2 ↔ p.1.key = q.1.key)) ∧
    (¬ImportsOwnMemory imports → runWasiThread W wasi memories s₂ imports = some externs) ∧
    (ImportsOwnMemory imports → runWasiThread W wasi memories s₂ imports = none) := by
  obtain ⟨base, L, L', L₁, hbase, h, hspawn, hunknown⟩ := of_linkMain hW hrun
  have hgiven : ∀ p ∈ imports.zip externs, W.linkers.get linker p.1.key = some p.2 ∧ W.accepts s₁ p.2 p.1.ty :=
    fun p hp => List.forall₂_zip (hW.instantiate.mp hmain) hp
  have hmemory : ∀ p ∈ imports.zip externs, (∃ ty, p.1.ty = .memory ty) →
      ∃ m, (p.2 = .sharedMemory m ∨ p.2 = .memory m) ∧ HasMemory L p.1.key m := by
    rintro p hp ⟨ty, hty⟩
    obtain ⟨hget, haccepts⟩ := hgiven p hp
    rw [hty] at haccepts
    exact memory_of_accepts hW hspawn hunknown hget haccepts
  refine ⟨?_, ?_, runWasiThread_eq_some hW hbase h hspawn hunknown hmain hlater, runWasiThread_eq_none hW hbase h hspawn hunknown hmain⟩
  · intro p hp d hd hkey
    have hget := (hgiven p hp).1
    rw [hkey] at hget
    exact host_of_declared hW hbase h hspawn hunknown hd hget
  · intro p hp q hq hpty hqty
    obtain ⟨m, hm, hpm⟩ := hmemory p hp hpty
    obtain ⟨m', hm', hqm⟩ := hmemory q hq hqty
    constructor
    · intro he
      have hmm : m = m' := by
        rcases hm with hm | hm <;> rcases hm' with hm' | hm' <;> cases (hm.symm.trans he).trans hm' <;> rfl
      subst hmm
      exact h.apart _ _ _ hpm hqm
    · intro hkey
      have hget := (hgiven p hp).1
      rw [hkey, (hgiven q hq).1] at hget
      exact (Option.some.inj hget).symm

namespace ThreadLinkingAux

/-! ### A small Wasmtime -/

/-- The memories that were created, each with its type and its pages. -/
abbrev MemoryTable : Type := List (MemoryType × Nat)

/-- A memory of this type and size is what an import of that type asks for. -/
def MemoryFits (actual : MemoryType) (pages : Nat) (expected : MemoryType) : Prop :=
  actual.memory64 = expected.memory64 ∧ expected.minimum ≤ pages ∧ ∀ most, expected.maximum = some most → ∃ n ≤ most, actual.maximum = some n

/-- What is given is what an import asks for. -/
def Accepts (t : MemoryTable) : Extern Nat → ExternType → Prop
  | .host _ ty, .func expected => ty = expected
  | .trap ty, .func expected => ty = expected
  | .sharedMemory n, .memory expected => expected.shared = true ∧ ∃ ty pages, t[n]? = some (ty, pages) ∧ MemoryFits ty pages expected
  | .memory n, .memory expected => expected.shared = false ∧ ∃ ty pages, t[n]? = some (ty, pages) ∧ MemoryFits ty pages expected
  | _, _ => False

/-- Memories grow, and others are created. -/
def GrowsTo (t t' : MemoryTable) : Prop :=
  ∀ (n : Nat) (ty : MemoryType) (pages : Nat), t[n]? = some (ty, pages) → ∃ pages', pages ≤ pages' ∧ t'[n]? = some (ty, pages')

/-- Linkers that are lists. -/
@[reducible] def listLinkers : Linkers ImportKey (Extern Nat) := .assoc ImportKey (Extern Nat)

/-- What a name has. -/
def lookupName (L : List (ImportKey × Extern Nat)) (k : ImportKey) : Option (Extern Nat) := listLinkers.get L k

theorem lookupName_cons (name k : ImportKey) (e : Extern Nat) (L : List (ImportKey × Extern Nat)) :
    lookupName ((name, e) :: L) k = if k = name then some e else lookupName L k := Linkers.lookup_cons_eq name k e L

/-- The imports of functions that are not defined get a trap. -/
def trapUnknown : List (ImportKey × Extern Nat) → List ImportType → List (ImportKey × Extern Nat)
  | L, [] => L
  | L, i :: rest =>
    match i.func?, lookupName L i.key with
    | some ty, none => trapUnknown ((i.key, .trap ty) :: L) rest
    | _, _ => trapUnknown L rest

theorem get_trapUnknown (L : List (ImportKey × Extern Nat)) (imports : List ImportType) (k : ImportKey) :
    lookupName (trapUnknown L imports) k =
      (lookupName L k).or (imports.findSome? fun i => if i.key = k then i.func?.map .trap else none) := by
  induction imports generalizing L with
  | nil => simp [trapUnknown]
  | cons i rest ih =>
    simp only [trapUnknown, List.findSome?_cons]
    cases hfunc : i.func? with
    | none =>
      simp only [Option.map_none, ite_self]
      exact ih L
    | some ty =>
      cases hget : lookupName L i.key with
      | some e =>
        simp only
        rw [ih]
        by_cases hk : i.key = k
        · rw [← hk, hget]
          rfl
        · simp [hk]
      | none =>
        simp only
        rw [ih, lookupName_cons]
        by_cases hk : i.key = k
        · subst hk
          simp [hget]
        · simp [hk, Ne.symm hk]

open Classical in
/-- Each import with what its name has, if it is accepted. -/
noncomputable def resolve (t : MemoryTable) (L : List (ImportKey × Extern Nat)) : List ImportType → Option (List (Extern Nat))
  | [] => some []
  | i :: rest =>
    match lookupName L i.key with
    | some e => if Accepts t e i.ty then (resolve t L rest).map (e :: ·) else none
    | none => none

theorem resolve_eq_some {t : MemoryTable} {L : List (ImportKey × Extern Nat)} {imports : List ImportType} {externs : List (Extern Nat)} :
    resolve t L imports = some externs ↔
      List.Forall₂ (fun i e => lookupName L i.key = some e ∧ Accepts t e i.ty) imports externs := by
  induction imports generalizing externs with
  | nil => simp [resolve, eq_comm, List.forall₂_nil_left_iff]
  | cons i rest ih =>
    rw [List.forall₂_cons_left_iff]
    simp only [resolve]
    cases hget : lookupName L i.key with
    | none => simp
    | some e =>
      by_cases he : Accepts t e i.ty
      · simp only [he, if_true, Option.map_eq_some_iff, ih]
        constructor
        · rintro ⟨rest', hrest, rfl⟩
          exact ⟨e, rest', ⟨rfl, he⟩, hrest, rfl⟩
        · rintro ⟨e', rest', ⟨heq, -⟩, hrest, rfl⟩
          cases heq
          exact ⟨rest', hrest, rfl⟩
      · simp only [he, if_false, reduceCtorEq, false_iff]
        rintro ⟨e', rest', ⟨heq, he'⟩, -⟩
        cases heq
        exact he he'

/-- Linkers are lists, and memories have numbers. -/
@[reducible] noncomputable def listWasmtime : Wasmtime where
  Memory := Nat
  Engine := MemoryTable
  linkers := listLinkers
  defineUnknownImportsAsTraps L imports := some (trapUnknown L imports)
  machine t c r t' :=
    (r = none ∧ t' = t) ∨ (r = some t.length ∧ ∃ ty, (c = .newShared ty ∨ c = .new ty) ∧ t' = t ++ [(ty, ty.minimum)])
  created t n := n < t.length
  later := GrowsTo
  accepts := Accepts
  instantiate := resolve

theorem listWasmtime_lawful : listWasmtime.Lawful where
  linkers := Linkers.assoc_lawful
  unknown L imports := ⟨_, rfl, get_trapUnknown L imports⟩
  created_new h := by
    rcases h with ⟨hnone, -⟩ | ⟨hsome, ty, -, rfl⟩
    · cases hnone
    · cases hsome
      simp
  created_mono h hm := by
    rcases h with ⟨-, rfl⟩ | ⟨-, ty, -, rfl⟩
    · exact hm
    · exact Nat.lt_of_lt_of_le hm (by simp)
  accepts_func {s e ty} h := by
    cases e with
    | host f ty' => exact .inl ⟨f, by rw [(h : ty' = ty)]⟩
    | trap ty' => exact .inr (by rw [(h : ty' = ty)])
    | sharedMemory n => exact absurd h id
    | memory n => exact absurd h id
  accepts_memory {s e ty} h := by
    cases e with
    | host f ty' => exact absurd h id
    | trap ty' => exact absurd h id
    | sharedMemory n => exact .inl ⟨h.1, n, rfl⟩
    | memory n => exact .inr ⟨h.1, n, rfl⟩
  accepts_later {s s' e ty} hlater h := by
    have hgrown (n : Nat) (expected : MemoryType) (hfits : ∃ ty pages, s[n]? = some (ty, pages) ∧ MemoryFits ty pages expected) :
        ∃ ty pages, s'[n]? = some (ty, pages) ∧ MemoryFits ty pages expected := by
      obtain ⟨ty, pages, hget, h64, hmin, hmax⟩ := hfits
      obtain ⟨pages', hle, hget'⟩ := hlater n ty pages hget
      exact ⟨ty, pages', hget', h64, Nat.le_trans hmin hle, hmax⟩
    cases e with
    | host f ty' => cases ty <;> exact h
    | trap ty' => cases ty <;> exact h
    | sharedMemory n =>
      cases ty with
      | memory expected => exact ⟨h.1, hgrown n expected h.2⟩
      | func ty => exact h
      | other => exact h
    | memory n =>
      cases ty with
      | memory expected => exact ⟨h.1, hgrown n expected h.2⟩
      | func ty => exact h
      | other => exact h
  instantiate := resolve_eq_some

/-- The memory of a guest with threads, ... -/
def guestMemory : MemoryType := ⟨true, false, 1, some 16⟩

/-- ... and some of its imports. -/
def guestImports : List ImportType :=
  [⟨"env", "memory", .memory guestMemory⟩, ⟨"waasmtime_mysql_files", "seek", .func ⟨[.i32, .i64, .i32], [.i64]⟩⟩,
    ⟨"wasi", "thread-spawn", .func threadSpawnType⟩, ⟨"env", "getservbyname", .func ⟨[.i32, .i32], [.i32]⟩⟩]

/-- What they are given. -/
def guestExterns : List (Extern Nat) :=
  [.sharedMemory 0, .host (.file .seek) ⟨[.i32, .i64, .i32], [.i64]⟩, .host .spawnWasiThread threadSpawnType, .trap ⟨[.i32, .i32], [.i32]⟩]

/-- The linker of the main instance. -/
def guestLinker : List (ImportKey × Extern Nat) :=
  [(("env", "getservbyname"), .trap ⟨[.i32, .i32], [.i32]⟩), (("wasi", "thread-spawn"), .host .spawnWasiThread threadSpawnType),
    (("env", "memory"), .sharedMemory 0)] ++ (hostFuncs.map fun d => (d.key, Extern.host d.func d.ty)).reverse

theorem runs_guest : Runs listWasmtime.machine (linkMain listWasmtime [] guestImports) [] [⟨.newShared guestMemory, some 0⟩]
    (.returned (.ok (guestLinker, [⟨"env", "memory", 0⟩]))) [(guestMemory, 1)] :=
  .via [(guestMemory, 1)] (.inr ⟨rfl, guestMemory, .inl rfl, rfl⟩) (.ret _ _)

theorem instantiate_guest : listWasmtime.instantiate [(guestMemory, 1)] guestLinker guestImports = some guestExterns := by
  refine resolve_eq_some.mpr (.cons ⟨by decide, rfl, guestMemory, 1, rfl, rfl, Nat.le_refl 1, fun most h => ⟨16, ?_, rfl⟩⟩
    (.cons ⟨by decide, rfl⟩ (.cons ⟨by decide, rfl⟩ (.cons ⟨by decide, rfl⟩ .nil))))
  cases h
  exact Nat.le_refl 16

end ThreadLinkingAux

open ThreadLinkingAux in
/-- A guest with a shared memory, which has grown to five pages when the thread starts. -/
theorem threads_linked_shared :
    runWasiThread listWasmtime [] [⟨"env", "memory", 0⟩] [(guestMemory, 5)] guestImports = some guestExterns := by
  have hgrown : GrowsTo [(guestMemory, 1)] [(guestMemory, 5)] := by
    intro n ty pages hget
    cases n with
    | zero =>
      cases hget
      exact ⟨5, by decide, rfl⟩
    | succ n => cases hget
  have hshared : ¬ImportsOwnMemory guestImports := by
    rintro ⟨i, hi, ty, hty, hshared⟩
    simp only [guestImports, List.mem_cons, List.not_mem_nil, or_false] at hi
    rcases hi with rfl | rfl | rfl | rfl <;> cases hty
    cases hshared
  exact (threads_linked listWasmtime listWasmtime_lawful [] guestImports [] _ _ _ _ _ guestExterns runs_guest instantiate_guest
    hgrown).2.2.1 hshared

end WasmtimeMysql
