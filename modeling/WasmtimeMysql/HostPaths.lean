import Mathlib
import WasmtimeMysql.GuestErrno
import WasmtimeMysql.Lib.Prog

/-!
# Guest paths and host paths

`host_files.rs`, the path side: `normalize_guest_path`, `join_suffix`, `HostFiles::new` (the preopens), `HostFiles::resolve` and
`resolve_parent`. The same code is compiled for Unix and for Windows, and only the host path type differs. `PathOs` is that type as
the code uses it: `PathBuf::from`, `PathBuf::push`, `Path::parent`, and the components that `Path::components` shows. `unixPaths` and
`windowsPaths` keep a path as its text, as std does: a push changes the text, and the components are read from it again.

A `str` is the list of its characters. Where the code counts bytes or slices at a byte offset, so does the model: a slice that does
not start at a character boundary panics.
-/

namespace WasmtimeMysql

open Effects

/-! ## Strings -/

/-- A Rust `str`, as its characters. -/
abbrev Str : Type := List Char

/-- `str::as_bytes`. -/
def Str.asBytes (s : Str) : List UInt8 := s.flatMap String.utf8EncodeChar

/-- `str::len`: the number of bytes. -/
def Str.len (s : Str) : Nat := (s.map Char.utf8Size).sum

/-- `&s[n..]` with a byte offset: it panics (`none`) past the end and inside a character. -/
def Str.sliceFrom : Str → Nat → Option Str
  | s, 0 => some s
  | [], _ + 1 => none
  | c :: cs, n + 1 => if c.utf8Size ≤ n + 1 then Str.sliceFrom cs (n + 1 - c.utf8Size) else none

/-- `str::starts_with('/')`. -/
def Str.startsWithSlash (s : Str) : Bool := s.head? == some '/'

/-! ## Normalizing a guest path -/

/-- One step of the loop of `normalize_guest_path`: the parts so far and the next part of the split. -/
def pushPart (parts : List Str) (part : Str) : Except Errno (List Str) :=
  if part = [] ∨ part = ['.'] then .ok parts
  else if part = ['.', '.'] then
    if parts = [] then .error .enotcapable else .ok parts.dropLast
  else .ok (parts ++ [part])

/-- The loop of `normalize_guest_path` over the whole path: what is left of its parts. -/
def normalParts (path : Str) : Except Errno (List Str) := (path.splitOn '/').foldlM pushPart []

/-- `normalize_guest_path`. -/
def normalizeGuestPath (path : Str) : Except Errno Str :=
  if path.isEmpty then .error .enoent
  else
    let absolute := path.startsWithSlash
    match normalParts path with
    | .error errno => .error errno
    | .ok parts =>
      let joined := ['/'].intercalate parts
      if absolute then
        if joined.isEmpty then .ok ['/'] else .ok ('/' :: joined)
      else if joined.isEmpty then .ok ['.']
      else .ok joined

/-! ## Host paths -/

/-- The prefix of a Windows path. -/
inductive WinPrefix where
  | disk (letter : Char)
  | unc (server share : Str)
  | deviceNs (name : Str)
  | verbatim (name : Str)
  | verbatimUnc (server share : Str)
  | verbatimDisk (letter : Char)
  deriving DecidableEq, Repr

/-- `Prefix::is_verbatim`. -/
def WinPrefix.isVerbatim : WinPrefix → Bool
  | .verbatim _ | .verbatimUnc .. | .verbatimDisk _ => true
  | _ => false

/-- `std::path::Component`. -/
inductive Component where
  | drive (p : WinPrefix)
  | rootDir
  | curDir
  | parentDir
  | normal (name : Str)
  deriving DecidableEq, Repr

/-- What the code uses of `PathBuf`. -/
structure PathOs where
  Path : Type
  /-- `PathBuf::from` -/
  ofStr : Str → Path
  /-- `PathBuf::push` -/
  push : Path → Str → Path
  /-- `Path::components` -/
  components : Path → List Component
  /-- `Path::parent` -/
  parent : Path → Option Path

/-- The component a piece between separators stands for, if it is not skipped. -/
def pieceComponent (piece : Str) : Option Component :=
  if piece = [] ∨ piece = ['.'] then none
  else if piece = ['.', '.'] then some .parentDir
  else some (.normal piece)

/-! ### Unix -/

/-- `Path::components` on Unix: a leading root or a leading `.`, then the pieces that are neither empty nor `.`. -/
def unixComponents (path : Str) : List Component :=
  (if path.startsWithSlash then [.rootDir] else if (path.splitOn '/').head? = some ['.'] then [.curDir] else []) ++
    (path.splitOn '/').filterMap pieceComponent

/-- `PathBuf::push` on Unix: an absolute path replaces, anything else is appended after a separator if one is needed. -/
def unixPush (path comp : Str) : Str :=
  if comp.startsWithSlash then comp
  else if path ≠ [] ∧ path.getLast? ≠ some '/' then path ++ '/' :: comp
  else path ++ comp

/-- The pieces of a path up to its last component. A leading `.` is a component when there is no root before it. -/
def trimPieces (root : Bool) (pieces : List Str) : List Str :=
  match pieces with
  | [] => []
  | piece :: rest =>
    if root = false ∧ piece = ['.'] then piece :: rest.rdropWhile (fun piece => piece = [] ∨ piece = ['.'])
    else pieces.rdropWhile fun piece => piece = [] ∨ piece = ['.']

/-- `Path::parent` on Unix: the text up to the last component but one, or the root. -/
def unixParent (path : Str) : Option Str :=
  let root := path.startsWithSlash
  let pieces := trimPieces root (if root then (path.splitOn '/').tail else path.splitOn '/')
  if pieces = [] then none
  else some ((if root then ['/'] else []) ++ ['/'].intercalate (trimPieces root pieces.dropLast))

/-- Paths on a Unix host. -/
@[reducible, simps] def unixPaths : PathOs where
  Path := Str
  ofStr := id
  push := unixPush
  components := unixComponents
  parent := unixParent

/-! ### Windows -/

/-- `is_sep_byte` on Windows. -/
def isSep (c : Char) : Bool := c == '/' || c == '\\'

/-- `is_verbatim_sep`: after a verbatim prefix only the backslash separates. -/
def isVerbatimSep (c : Char) : Bool := c == '\\'

/-- `parse_next_component`: the text up to a separator, and what follows it. -/
def parseNextComponent (sep : Char → Bool) (path : Str) : Str × Str :=
  (path.takeWhile (fun c => !sep c), (path.dropWhile (fun c => !sep c)).drop 1)

/-- `parse_drive`: a letter and a colon. -/
def parseDrive : Str → Option Char
  | letter :: ':' :: _ => if letter.isAlpha then some letter.toUpper else none
  | _ => none

/-- `parse_drive_exact`: a drive followed by a separator or by nothing. -/
def parseDriveExact (path : Str) : Option Char :=
  match path[2]? with
  | some c => if isSep c then parseDrive path else none
  | none => parseDrive path

/-- A path from its first separator on. -/
def fromSep (sep : Char → Bool) (path : Str) : Str := path.dropWhile (fun c => !sep c)

/-- `parse_prefix`, with what is left of the path after the prefix. -/
def parsePrefix (path : Str) : Option WinPrefix × Str :=
  match path with
  | a :: b :: rest =>
    if isSep a && isSep b then
      match rest with
      | '?' :: '\\' :: tail =>
        -- a verbatim prefix is not recognized when it is spelled with slashes
        if a == '/' || b == '/' then parseUnc rest path else parseVerbatim tail
      | '.' :: c :: tail =>
        if isSep c then (some (.deviceNs (parseNextComponent isSep tail).1), fromSep isSep tail) else parseUnc rest path
      | _ => parseUnc rest path
    else match parseDrive path with
      | some letter => (some (.disk letter), rest)
      | none => (none, path)
  | _ => (none, path)
where
  /-- The arm of `\\?\`. -/
  parseVerbatim (tail : Str) : Option WinPrefix × Str :=
    match tail with
    | 'U' :: 'N' :: 'C' :: c :: names => if isSep c then parseVerbatimUnc names else parseVerbatimName tail
    | _ => parseVerbatimName tail
  /-- The arm of `\\?\UNC\`: a server and a share, which may be empty. -/
  parseVerbatimUnc (names : Str) : Option WinPrefix × Str :=
    let (server, next) := parseNextComponent isVerbatimSep names
    let share := (parseNextComponent isVerbatimSep next).1
    (some (.verbatimUnc server share), if share = [] then fromSep isVerbatimSep names else fromSep isVerbatimSep next)
  /-- A drive, exactly, or any other name. -/
  parseVerbatimName (tail : Str) : Option WinPrefix × Str :=
    match parseDriveExact tail with
    | some letter => (some (.verbatimDisk letter), tail.drop 2)
    | none => (some (.verbatim (parseNextComponent isVerbatimSep tail).1), fromSep isVerbatimSep tail)
  /-- The UNC arm: a server and a share, both non-empty. -/
  parseUnc (rest path : Str) : Option WinPrefix × Str :=
    let (server, next) := parseNextComponent isSep rest
    let share := (parseNextComponent isSep next).1
    if server ≠ [] ∧ share ≠ [] then (some (.unc server share), fromSep isSep next) else (none, path)

/-- `Prefix::is_drive`. -/
def WinPrefix.isDrive : WinPrefix → Bool
  | .disk _ => true
  | _ => false

/-- The components of a Windows path: the prefix, the root, the rest. `PathBuf`s are compared by them. -/
structure WinParts where
  drive : Option WinPrefix
  root : Bool
  comps : List Component
  deriving DecidableEq, Repr

/-- As a list. -/
def WinParts.components (p : WinParts) : List Component :=
  (match p.drive with
    | some d => [.drive d]
    | none => []) ++ (if p.root then [.rootDir] else []) ++ p.comps

/-- The component a piece of a verbatim path stands for: a `.` is kept there. -/
def verbatimPieceComponent (piece : Str) : Option Component := if piece = ['.'] then some .curDir else pieceComponent piece

/-- The components of what follows a prefix that is not verbatim: a leading `.` is kept when there is neither a prefix nor a root before it. -/
def winComponents (first : Bool) (rest : Str) : List Component :=
  (if first ∧ (rest.splitOnP isSep).head? = some ['.'] then [.curDir] else []) ++ (rest.splitOnP isSep).filterMap pieceComponent

/-- `has_physical_root`: a separator follows the prefix. -/
def hasPhysicalRoot (rest : Str) : Bool := rest.head?.any isSep

/-- `Path::components` on Windows. A prefix that is neither a drive nor verbatim brings a root with it. -/
def parseWinPath (path : Str) : WinParts :=
  match parsePrefix path with
  | (none, rest) => ⟨none, hasPhysicalRoot rest, winComponents (!hasPhysicalRoot rest) rest⟩
  | (some d, rest) =>
    if d.isVerbatim then
      ⟨some d, hasPhysicalRoot rest,
        ((if hasPhysicalRoot rest then rest.tail else rest).splitOnP isVerbatimSep).filterMap verbatimPieceComponent⟩
    else ⟨some d, hasPhysicalRoot rest || !d.isDrive, winComponents false rest⟩

/-- A Windows path: its text. -/
structure WinPath where
  text : Str
  deriving DecidableEq, Repr

/-- Its components. -/
def WinPath.components (p : WinPath) : List Component := (parseWinPath p.text).components

/-- The text of a component that is neither a prefix nor the root. -/
def componentText : Component → Str
  | .curDir => ['.']
  | .parentDir => ['.', '.']
  | .normal name => name
  | _ => []

/-- One component of a path pushed onto a verbatim path: `..` takes a component away. -/
def verbatimPush (p : WinParts) : Component → WinParts
  | .rootDir => { p with root := true, comps := [] }
  | .parentDir =>
    match p.comps.getLast? with
    | some (.normal _) => { p with comps := p.comps.dropLast }
    | _ => p
  | .normal name => { p with comps := p.comps ++ [.normal name] }
  | _ => p

/-- The text of a verbatim path after its prefix. -/
def verbatimText (p : WinParts) : Str :=
  if p.root || p.comps ≠ [] then '\\' :: ['\\'].intercalate (p.comps.map componentText) else []

/-- The text of a path before what `parse_prefix` leaves of it. -/
def rawPrefix (path : Str) : Str := path.take (path.length - (parsePrefix path).2.length)

/-- Whether a push puts a separator after the path: it has none at its end and is not just a drive. -/
def needSep (path : Str) : Bool :=
  path.getLast?.any (fun c => !isSep c) && !((parsePrefix path).2.isEmpty && (parsePrefix path).1.any WinPrefix.isDrive)

/-- `PathBuf::push` on Windows: a path with a prefix replaces, onto a verbatim path one is pushed component by component, a path with only a root
replaces all but the prefix, and any other is appended. -/
def winPush (path : WinPath) (comp : Str) : WinPath :=
  if (parsePrefix comp).1.isSome then ⟨comp⟩
  else if (parsePrefix path.text).1.any WinPrefix.isVerbatim && !comp.isEmpty then
    ⟨rawPrefix path.text ++ verbatimText ((parseWinPath comp).components.foldl verbatimPush (parseWinPath path.text))⟩
  else if hasPhysicalRoot comp then ⟨rawPrefix path.text ++ comp⟩
  else if needSep path.text then ⟨path.text ++ '\\' :: comp⟩
  else ⟨path.text ++ comp⟩

/-- `Path::parent` on Windows: the text up to the last component but one, or the prefix and the root. -/
def WinPath.parent (path : WinPath) : Option WinPath :=
  let (drive, rest) := parsePrefix path.text
  let verbatim := drive.any WinPrefix.isVerbatim
  let physical := hasPhysicalRoot rest
  let pieces := (if physical then rest.tail else rest).splitOnP (if verbatim then isVerbatimSep else isSep)
  let trim : List Str → List Str :=
    if verbatim then fun pieces => pieces.rdropWhile (· = [])
    else trimPieces (physical || drive.any fun d => !d.isDrive)
  if (parseWinPath path.text).comps = [] then none
  else
    let kept := ['\\'].intercalate (trim (trim pieces).dropLast)
    some ⟨path.text.take ((path.text.length - rest.length) + (if physical then 1 else 0) + kept.length)⟩

/-- Paths on a Windows host. -/
@[reducible, simps] def windowsPaths : PathOs where
  Path := WinPath
  ofStr := WinPath.mk
  push := winPush
  components := WinPath.components
  parent := WinPath.parent

/-! ## Preopens and `HostFiles::resolve` -/

/-- `std::io::Error` as far as `io_errno` looks at it. -/
structure IoError where
  rawOsError : Option Int32
  deriving DecidableEq, Repr

/-- `io_error_from_errno`. -/
def ioErrorFromErrno (errno : Errno) : IoError := ⟨some errno.code⟩

/-- A host directory as text: the current directory, or the part of a `--preopen` flag before the `=`. -/
structure HostDir where
  text : Str
  /-- `Preopen::from_str` rejects an empty host path. -/
  text_ne : text ≠ []

/-- One `--preopen HOST=GUEST` flag. -/
structure Preopen where
  host : HostDir
  guest : Str
  /-- `Preopen::from_str` rejects an empty guest path. -/
  guest_ne : guest ≠ []

/-- The flags `HostFiles::new` reads. -/
structure Cli where
  noDefaultPreopen : Bool
  preopens : List Preopen

/-- A preopen in the file table. -/
structure PreopenMapping (P : Type) where
  guest : Str
  host : P

section
variable (os : PathOs)

/-- The body of the loop of `HostFiles::new` over the flags. -/
def mapPreopen (p : Preopen) : Except IoError (PreopenMapping os.Path) :=
  match normalizeGuestPath p.guest with
  | .ok guest => .ok { guest, host := os.ofStr p.host.text }
  | .error errno => .error (ioErrorFromErrno errno)

/-- `HostFiles::new`, the preopens: the current directory at `.` unless the flag forbids it, then the flags in their order, sorted by
the length of the guest path, longest first. The sort is stable. -/
def newPreopens (cli : Cli) (currentDir : Except IoError HostDir) : Except IoError (List (PreopenMapping os.Path)) := do
  let default ←
    if cli.noDefaultPreopen then pure []
    else do
      let host ← currentDir
      pure [{ guest := (normalizeGuestPath ['.']).toOption.getD ['.'], host := os.ofStr host.text }]
  let preopens ← cli.preopens.mapM (mapPreopen os)
  return (default ++ preopens).mergeSort fun left right => right.guest.len ≤ left.guest.len

/-- `join_suffix`. -/
def joinSuffix (root : os.Path) (suffix : Str) : os.Path :=
  (suffix.splitOn '/').foldl
    (fun path component => if component ≠ [] ∧ component ≠ ['.'] then os.push path component else path) root

/-- The body of the loop of `resolve`: what is left of the path below the preopen's guest path, or `none` to continue. -/
def preopenSuffix (guest normalized : Str) : Outcome (Option Str) :=
  if guest = ['.'] ∧ ¬normalized.startsWithSlash then .returned (some normalized)
  else if guest = ['/'] then
    .returned (some (if normalized.startsWithSlash then normalized.tail else normalized))
  else if normalized = guest then .returned (some [])
  else if guest <+: normalized ∧ normalized.asBytes[guest.len]? = some 0x2f then
    match normalized.sliceFrom (guest.len + 1) with
    | some suffix => .returned (some suffix)
    | none => .panicked
  else .returned none

/-- The loop of `resolve` over the preopens. -/
def resolveIn (normalized : Str) : List (PreopenMapping os.Path) → Outcome (Except Errno os.Path)
  | [] => .returned (.error .enotcapable)
  | preopen :: rest =>
    match preopenSuffix preopen.guest normalized with
    | .panicked => .panicked
    | .returned none => resolveIn normalized rest
    | .returned (some suffix) => .returned (.ok (joinSuffix os preopen.host suffix))

/-- `HostFiles::resolve`. -/
def resolve (preopens : List (PreopenMapping os.Path)) (guestPath : Str) : Outcome (Except Errno os.Path) :=
  match normalizeGuestPath guestPath with
  | .error errno => .returned (.error errno)
  | .ok normalized => resolveIn os normalized preopens

/-- `HostFiles::resolve_parent`. `Path::starts_with` compares components. -/
def resolveParent (preopens : List (PreopenMapping os.Path)) (guestPath : Str) : Outcome (Except Errno os.Path) :=
  match resolve os preopens guestPath with
  | .panicked => .panicked
  | .returned (.error errno) => .returned (.error errno)
  | .returned (.ok path) =>
    match os.parent path with
    | none => .returned (.error .einval)
    | some parent =>
      if preopens.any fun preopen => (os.components preopen.host).isPrefixOf (os.components parent) then
        .returned (.ok parent)
      else .returned (.error .enotcapable)

end

end WasmtimeMysql
