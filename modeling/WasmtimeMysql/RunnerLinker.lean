import WasmtimeMysql.Lib.Linker
import WasmtimeMysql.Lib.Prog

/-!
# What the runner links the guest against

The part of `main.rs` that puts the imports of the guest module together: `run` does it for the main instance, and creates the memories that the
module imports; `run_wasi_thread` does it again for each thread, with the memories that are shared. Wasmtime is a parameter (`Wasmtime`), with what
it documents of its linkers, its memories and its check of imports as named laws (`Wasmtime.Lawful`), and so are the functions of WASI. Those of
the import modules are here with the closures they are and their types, and what the guest declares of them with the types of its headers.
-/

namespace WasmtimeMysql

open Effects

/-! ## Types -/

/-- The types of WebAssembly that occur in the imports. -/
inductive ValType where
  | i32
  | i64
  deriving DecidableEq, Repr

/-- The type of a function. -/
structure FuncType where
  params : List ValType
  results : List ValType
  deriving DecidableEq, Repr

/-- The type of a memory, with its limits in pages. -/
structure MemoryType where
  shared : Bool
  memory64 : Bool
  minimum : Nat
  maximum : Option Nat
  deriving DecidableEq, Repr

/-- The type of an import: a function, a memory, or a table, a global or a tag. -/
inductive ExternType where
  | func (ty : FuncType)
  | memory (ty : MemoryType)
  | other
  deriving DecidableEq, Repr

/-- The name of an import. -/
abbrev ImportKey : Type := String × String

/-- An import of the guest module. -/
structure ImportType where
  module : String
  name : String
  ty : ExternType
  deriving DecidableEq, Repr

/-- The name an import goes by. -/
def ImportType.key (i : ImportType) : ImportKey := (i.module, i.name)

/-! ## The functions of the import modules -/

/-- The closures of `host_files::add_to_linker`, by the method of `HostFiles` that each calls. -/
inductive FileFunc where
  | openFile
  | close
  | pread
  | pwrite
  | seek
  | truncate
  | sync
  | syncParent
  | lockExclusive
  deriving DecidableEq, Repr

/-- The closures of `host_sockets::add_to_linker`, by the function that each calls. -/
inductive SocketFunc where
  | socket
  | bind
  | listen
  | accept
  | connect
  | getsockname
  | getpeername
  | setsockopt
  | getsockopt
  | send
  | recv
  | sendto
  | recvfrom
  | shutdown
  | close
  | fcntl
  | poll
  deriving DecidableEq, Repr

/-- The functions of the host. -/
inductive HostFunc where
  | file (f : FileFunc)
  | socket (f : SocketFunc)
  /-- the closure that sets the flag -/
  | requestShutdown
  /-- the closure that reads it -/
  | shutdownRequested
  /-- the closure of `define_wasi_thread_spawn` -/
  | spawnWasiThread
  /-- a function of WASI, by its name -/
  | wasi (key : ImportKey)
  deriving DecidableEq, Repr

/-- A function of the host under the name it is defined by, with its type. -/
structure HostDef where
  key : ImportKey
  func : HostFunc
  ty : FuncType
  deriving DecidableEq, Repr

section
open ValType

/-- `host_files::add_to_linker` -/
def hostFileFuncs : List HostDef :=
  [("open", .openFile, [i32, i32, i32], [i32]), ("close", .close, [i32], [i32]), ("pread", .pread, [i32, i32, i32, i64], [i32]),
    ("pwrite", .pwrite, [i32, i32, i32, i64], [i32]), ("seek", .seek, [i32, i64, i32], [i64]), ("truncate", .truncate, [i32, i64], [i32]),
    ("sync", .sync, [i32, i32], [i32]), ("sync_parent", .syncParent, [i32], [i32]), ("lock_exclusive", .lockExclusive, [i32], [i32])].map
    fun (name, f, params, results) => ⟨("waasmtime_mysql_files", name), .file f, ⟨params, results⟩⟩

/-- `host_sockets::add_to_linker`, on Unix and on Windows -/
def hostSocketFuncs : List HostDef :=
  [("socket", .socket, [i32, i32, i32], [i32]), ("bind", .bind, [i32, i32, i32], [i32]), ("listen", .listen, [i32, i32], [i32]),
    ("accept", .accept, [i32, i32, i32], [i32]), ("connect", .connect, [i32, i32, i32], [i32]),
    ("getsockname", .getsockname, [i32, i32, i32], [i32]), ("getpeername", .getpeername, [i32, i32, i32], [i32]),
    ("setsockopt", .setsockopt, [i32, i32, i32, i32, i32], [i32]), ("getsockopt", .getsockopt, [i32, i32, i32, i32, i32], [i32]),
    ("send", .send, [i32, i32, i32, i32], [i32]), ("recv", .recv, [i32, i32, i32, i32], [i32]),
    ("sendto", .sendto, [i32, i32, i32, i32, i32, i32], [i32]), ("recvfrom", .recvfrom, [i32, i32, i32, i32, i32, i32], [i32]),
    ("shutdown", .shutdown, [i32, i32], [i32]), ("close", .close, [i32], [i32]), ("fcntl", .fcntl, [i32, i32, i32], [i32]),
    ("poll", .poll, [i32, i32, i32], [i32])].map
    fun (name, f, params, results) => ⟨("waasmtime_mysql_sockets", name), .socket f, ⟨params, results⟩⟩

/-- The functions that `build_base_linker` adds itself. -/
def runtimeFuncs : List HostDef :=
  [⟨("wasmtime_mysql_runtime", "request_shutdown"), .requestShutdown, ⟨[], []⟩⟩,
    ⟨("wasmtime_mysql_runtime", "shutdown_requested"), .shutdownRequested, ⟨[], [i32]⟩⟩]

/-- The functions of the import modules. -/
def hostFuncs : List HostDef := hostFileFuncs ++ hostSocketFuncs ++ runtimeFuncs

/-- The type of the closure of `define_wasi_thread_spawn`. -/
def threadSpawnType : FuncType := ⟨[i32], [i32]⟩

end

/-- The types of C in the declarations of the imports. -/
inductive CType where
  | int
  | int32
  | int64
  | pointer
  deriving DecidableEq, Repr

/-- What the compiler makes of them for `wasm32`. -/
def CType.lower : CType → ValType
  | .int => .i32
  | .int32 => .i32
  | .int64 => .i64
  | .pointer => .i32

/-- The type of an import that is declared with these parameters and this result. -/
def cdecl (params : List CType) (result : Option CType) : FuncType := ⟨params.map CType.lower, result.toList.map CType.lower⟩

section
open CType

/-- The declarations in `os0file.cc`. -/
def declaredFiles : List (ImportKey × FuncType) :=
  [("open", cdecl [pointer, int32, int32] int32), ("close", cdecl [int32] int32), ("pread", cdecl [int32, pointer, int32, int64] int32),
    ("pwrite", cdecl [int32, pointer, int32, int64] int32), ("seek", cdecl [int32, int64, int32] int64), ("truncate", cdecl [int32, int64] int32),
    ("sync", cdecl [int32, int32] int32), ("sync_parent", cdecl [pointer] int32), ("lock_exclusive", cdecl [int32] int32)].map
    fun (name, ty) => (("waasmtime_mysql_files", name), ty)

/-- The declarations in `mysql_wasi_socket_shim.c`. -/
def declaredSockets : List (ImportKey × FuncType) :=
  [("socket", cdecl [int32, int32, int32] int32), ("bind", cdecl [int32, pointer, int32] int32), ("listen", cdecl [int32, int32] int32),
    ("accept", cdecl [int32, pointer, pointer] int32), ("connect", cdecl [int32, pointer, int32] int32),
    ("getsockname", cdecl [int32, pointer, pointer] int32), ("getpeername", cdecl [int32, pointer, pointer] int32),
    ("setsockopt", cdecl [int32, int32, int32, pointer, int32] int32), ("getsockopt", cdecl [int32, int32, int32, pointer, pointer] int32),
    ("send", cdecl [int32, pointer, int32, int32] int32), ("recv", cdecl [int32, pointer, int32, int32] int32),
    ("sendto", cdecl [int32, pointer, int32, int32, pointer, int32] int32),
    ("recvfrom", cdecl [int32, pointer, int32, int32, pointer, pointer] int32), ("shutdown", cdecl [int32, int32] int32),
    ("close", cdecl [int32] int32), ("fcntl", cdecl [int32, int32, int32] int32), ("poll", cdecl [pointer, int32, int32] int32)].map
    fun (name, ty) => (("waasmtime_mysql_sockets", name), ty)

/-- The declarations in `mysql_wasi_runtime_shim.h`. -/
def declaredRuntime : List (ImportKey × FuncType) :=
  [(("wasmtime_mysql_runtime", "request_shutdown"), cdecl [] none), (("wasmtime_mysql_runtime", "shutdown_requested"), cdecl [] int)]

/-- What the port declares of the import modules. -/
def declaredImports : List (ImportKey × FuncType) := declaredFiles ++ declaredSockets ++ declaredRuntime

end

/-! ## Wasmtime -/

/-- What an import can be given; `M` are the memories. -/
inductive Extern (M : Type) where
  | host (f : HostFunc) (ty : FuncType)
  /-- a function that traps -/
  | trap (ty : FuncType)
  | sharedMemory (memory : M)
  | memory (memory : M)
  deriving DecidableEq, Repr

/-- The type of a function, if an import is one. -/
def ImportType.func? (i : ImportType) : Option FuncType :=
  match i.ty with
  | .func ty => some ty
  | _ => none

/-- What Wasmtime is asked to create. -/
inductive Memories.Cmd where
  /-- `SharedMemory::new` -/
  | newShared (ty : MemoryType)
  /-- `Memory::new`, in the store of the main instance -/
  | new (ty : MemoryType)
  deriving DecidableEq, Repr

/-- The memory, unless it cannot be created. -/
@[reducible] def Memories (M : Type) : Sig := ⟨Memories.Cmd, fun _ => Option M⟩

/-- What the runner uses of Wasmtime. -/
structure Wasmtime where
  Memory : Type
  /-- the state of the engine and its stores -/
  Engine : Type
  /-- `Linker::new`, `Linker::get` and `Linker::define`, of which `func_wrap` is a case -/
  linkers : Linkers ImportKey (Extern Memory)
  /-- `Linker::define_unknown_imports_as_traps` -/
  defineUnknownImportsAsTraps : linkers.Linker → List ImportType → Option linkers.Linker
  /-- `SharedMemory::new` and `Memory::new` -/
  machine : Machine (Memories Memory) Engine
  /-- the memory has been created -/
  created : Engine → Memory → Prop
  /-- the engine as it may be later, its memories grown and others created -/
  later : Engine → Engine → Prop
  /-- whether an import of this type takes what is given -/
  accepts : Engine → Extern Memory → ExternType → Prop
  /-- what `Linker::instantiate` gives the imports of a module, before anything of the module runs -/
  instantiate : Engine → linkers.Linker → List ImportType → Option (List (Extern Memory))

/-- What Wasmtime documents. -/
structure Wasmtime.Lawful (W : Wasmtime) : Prop where
  /-- A name is defined once: shadowing is not allowed. -/
  linkers : W.linkers.Lawful
  /-- An import of a function whose name is not defined gets one that traps. What is defined stays, and there is nothing else. -/
  unknown : ∀ L imports, ∃ L', W.defineUnknownImportsAsTraps L imports = some L' ∧
    ∀ k, W.linkers.get L' k = (W.linkers.get L k).or (imports.findSome? fun i => if i.key = k then i.func?.map .trap else none)
  /-- A memory that is created is a new one, ... -/
  created_new : ∀ {s c m s'}, W.machine s c (some m) s' → ¬W.created s m ∧ W.created s' m
  /-- ... and the others stay. -/
  created_mono : ∀ {s c r s' m}, W.machine s c r s' → W.created s m → W.created s' m
  /-- An import of a function takes a function of its type. -/
  accepts_func : ∀ {s e ty}, W.accepts s e (.func ty) → (∃ f, e = .host f ty) ∨ e = .trap ty
  /-- An import of a memory takes a shared memory if its type is shared, and a memory that is not shared otherwise. -/
  accepts_memory : ∀ {s e ty}, W.accepts s e (.memory ty) → (ty.shared = true ∧ ∃ m, e = .sharedMemory m) ∨ (ty.shared = false ∧ ∃ m, e = .memory m)
  /-- The types of functions do not change, and memories do not shrink. -/
  accepts_later : ∀ {s s' e ty}, W.later s s' → W.accepts s e ty → W.accepts s' e ty
  /-- Each import is looked up by its name, and checked. -/
  instantiate : ∀ {s L imports externs}, W.instantiate s L imports = some externs ↔
    List.Forall₂ (fun i e => W.linkers.get L i.key = some e ∧ W.accepts s e i.ty) imports externs

/-! ## Linkers -/

section
variable (W : Wasmtime)

/-- `build_base_linker`, with these functions of WASI -/
def buildBaseLinker (wasi : List (ImportKey × FuncType)) : Option W.linkers.Linker :=
  W.linkers.defineAll W.linkers.new ((wasi.map fun f => (f.1, .host (.wasi f.1) f.2)) ++ hostFuncs.map fun d => (d.key, .host d.func d.ty))

/-- `define_wasi_thread_spawn` -/
def defineWasiThreadSpawn (linker : W.linkers.Linker) : Option W.linkers.Linker :=
  W.linkers.define linker ("wasi", "thread-spawn") (.host .spawnWasiThread threadSpawnType)

/-! ## Memories -/

/-- `ImportedSharedMemory` -/
structure ImportedSharedMemory (M : Type) where
  module : String
  name : String
  memory : M
  deriving DecidableEq, Repr

/-- What it is in a linker. -/
def ImportedSharedMemory.entry {M : Type} (m : ImportedSharedMemory M) : ImportKey × Extern M := ((m.module, m.name), .sharedMemory m.memory)

/-- The errors of the runner before the guest is instantiated. -/
inductive LinkError where
  /-- `failed to create shared memory {}::{}` -/
  | createSharedMemory (key : ImportKey)
  /-- `failed to create memory {}::{}` -/
  | createMemory (key : ImportKey)
  /-- the name is defined -/
  | defined (key : ImportKey)
  /-- one of the names of `build_base_linker` is -/
  | baseLinker
  /-- `failed to define trap handlers for unsupported imports` -/
  | trapHandlers
  deriving DecidableEq, Repr

/-- The loop of `define_imported_memories`. -/
def defineImportedMemories (linker : W.linkers.Linker) (seen : List ImportKey) (memories : List (ImportedSharedMemory W.Memory)) :
    List ImportType → Prog (Memories W.Memory) (Except LinkError (W.linkers.Linker × List (ImportedSharedMemory W.Memory)))
  | [] => return .ok (linker, memories)
  | i :: rest =>
    match i.ty with
    | .memory ty =>
      if i.key ∈ seen then defineImportedMemories linker seen memories rest
      else if ty.shared then do
        match ← Prog.cmd (S := Memories W.Memory) (.newShared ty) with
        | none => return .error (.createSharedMemory i.key)
        | some memory =>
          match W.linkers.define linker i.key (.sharedMemory memory) with
          | none => return .error (.defined i.key)
          | some linker => defineImportedMemories linker (i.key :: seen) (memories ++ [⟨i.module, i.name, memory⟩]) rest
      else do
        match ← Prog.cmd (S := Memories W.Memory) (.new ty) with
        | none => return .error (.createMemory i.key)
        | some memory =>
          match W.linkers.define linker i.key (.memory memory) with
          | none => return .error (.defined i.key)
          | some linker => defineImportedMemories linker (i.key :: seen) memories rest
    | _ => defineImportedMemories linker seen memories rest

/-- `define_shared_memories` -/
def defineSharedMemories (linker : W.linkers.Linker) (memories : List (ImportedSharedMemory W.Memory)) : Option W.linkers.Linker :=
  W.linkers.defineAll linker (memories.map ImportedSharedMemory.entry)

/-! ## Instances -/

/-- What `run` does before it instantiates the module. -/
def linkMain (wasi : List (ImportKey × FuncType)) (imports : List ImportType) :
    Prog (Memories W.Memory) (Except LinkError (W.linkers.Linker × List (ImportedSharedMemory W.Memory))) :=
  match buildBaseLinker W wasi with
  | none => return .error .baseLinker
  | some base => do
    match ← defineImportedMemories W base [] [] imports with
    | .error e => return .error e
    | .ok (linker, memories) =>
      match defineWasiThreadSpawn W linker with
      | none => return .error (.defined ("wasi", "thread-spawn"))
      | some linker =>
        match W.defineUnknownImportsAsTraps linker imports with
        | none => return .error .trapHandlers
        | some linker => return .ok (linker, memories)

/-- What `run_wasi_thread` gives the imports of a thread's instance, if it comes to it. -/
def runWasiThread (wasi : List (ImportKey × FuncType)) (memories : List (ImportedSharedMemory W.Memory)) (s : W.Engine) (imports : List ImportType) :
    Option (List (Extern W.Memory)) := do
  let base ← buildBaseLinker W wasi
  let linker ← defineSharedMemories W base memories
  let linker ← defineWasiThreadSpawn W linker
  let linker ← W.defineUnknownImportsAsTraps linker imports
  W.instantiate s linker imports

end

end WasmtimeMysql
