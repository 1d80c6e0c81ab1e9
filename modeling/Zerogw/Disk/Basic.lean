import Zerogw.Library.FileTree
import Zerogw.Basic

/-!
# Static files

How a disk thread finds the file for a request (`disk.c`): the path of the request is appended to
the document root, the result is resolved and checked, and the file there or a compressed one next
to it is read. Content types are left out.

The file system does not change during a request. Opening a file fails if nothing is there, if there
are too many links on the way, or if the file is not readable.
-/

namespace Zerogw

namespace Disk

def slash : UInt8 := 47

/-! ### The file system -/

/-- A name in a directory. -/
def IsName (n : Bytes) : Prop := n ≠ [] ∧ slash ∉ n ∧ n ≠ str "." ∧ n ≠ str ".."

instance (n : Bytes) : Decidable (IsName n) :=
  inferInstanceAs (Decidable (_ ∧ _ ∧ _ ∧ _))

abbrev FileName := { n : Bytes // IsName n }

/-- A path from the root without links. -/
abbrev FilePath := List FileName

/-- A regular file; `lastModified` is its time as `get_file` prints it. -/
structure FileData where
  data : Bytes
  lastModified : Bytes
  readable : Bool
  deriving DecidableEq

/-- The files, the working directory of the server, and how many links `realpath` and `open`
follow. -/
structure FileSystem where
  tree : FileTree FileName FileData
  cwd : FilePath
  cwd_dir : tree.node cwd = some .dir
  realpathLinks : Nat
  openLinks : Nat

/-- One part of a path, as it stands between slashes. -/
def component (s : Bytes) : Component FileName :=
  if s = str ".." then .up else if h : IsName s then .name ⟨s, h⟩ else .here

def components (s : Bytes) : List (Component FileName) := (s.splitOn slash).map component

/-- The string that `realpath` returns. -/
def pathString (p : FilePath) : Bytes :=
  if p = [] then [slash] else p.flatMap fun n => slash :: n.val

namespace FileSystem

/-- Where the resolution of a path starts. -/
def start (fs : FileSystem) (s : Bytes) : FilePath := if s.head? = some slash then [] else fs.cwd

/-- The path behind what `realpath` returns. -/
def realpath (fs : FileSystem) (s : Bytes) : Option FilePath :=
  fs.tree.resolve fs.realpathLinks (fs.start s) (components s)

/-- `open` for reading: what is opened. -/
def openPath (fs : FileSystem) (s : Bytes) : Option FilePath :=
  (fs.tree.resolve fs.openLinks (fs.start s) (components s)).filter fun p =>
    match fs.tree.node p with
    | some .dir => true
    | some (.file f) => f.readable
    | _ => false

end FileSystem

/-! ### Configuration and requests -/

/-- The part of `static` in a route's configuration that decides which file is read. -/
structure StaticConf where
  root : Bytes
  stripDirs : Nat
  indexFile : Option Bytes
  singleUri : Bytes
  restrictRoot : Bool
  restrictDirs : List Bytes
  denySuffixes : List Bytes
  denyPrefixes : List Bytes
  gzipEnabled : Bool

/-- `disk_request_t` without its route. -/
structure DiskRequest where
  path : Bytes
  gzipped : Bool
  ifModified : Bytes

/-- `isspace` -/
def isSpace (c : UInt8) : Bool := c == 32 || 9 ≤ c && c ≤ 13

/-- Take off spaces at both ends, but always leave one character. -/
def trim (token : Bytes) : Bytes :=
  let front (l : Bytes) : Bytes :=
    match l.dropWhile isSpace with
    | [] => l.drop (l.length - 1)
    | rest => rest
  (front (front token).reverse).reverse

/-- The test of one element of `Accept-Encoding`: a single character is skipped, and `strncmp`
compares as many characters as there are, so that an empty element is accepted. -/
def meansGzip (token : Bytes) : Bool :=
  match trim token with
  | [_] => false
  | word => word.isPrefixOf (str "gzip")

/-- The elements of `Accept-Encoding`; nothing follows a comma at the end. -/
def elements (header : Bytes) : List Bytes :=
  let parts := header.splitOn 44
  if parts.getLast? = some [] then parts.dropLast else parts

/-- `disk_request`; a header may be missing. -/
def diskRequest (conf : StaticConf) (path : Bytes) (ifModified acceptEncoding : Option Bytes) :
    DiskRequest where
  path := if conf.singleUri.length ≠ 0 then conf.singleUri else path
  gzipped := conf.gzipEnabled && acceptEncoding.any fun header => (elements header).any meansGzip
  ifModified := (ifModified.getD []).take 32

/-! ### Checks and paths -/

/-- The path without the query. -/
def withoutQuery (path : Bytes) : Bytes := path.takeWhile (· ≠ 63)

/-- The part of a path behind its last slash; the first character counts as one. -/
def baseName (path : Bytes) : Bytes := ((path.drop 1).reverse.takeWhile (· ≠ slash)).reverse

/-- `check_base`, as far as it says whether the path is denied. It needs a path that is not
empty. -/
def checkBase (conf : StaticConf) (path : Bytes) : Except Fault Bool :=
  let path := withoutQuery path
  if conf.denySuffixes.any fun suffix => suffix.isSuffixOf path then .ok false
  else if path = [] then .error .outOfBounds
  else .ok (!conf.denyPrefixes.any fun pre => pre.isPrefixOf (baseName path))

/-- The comparison in `check_path`: the string goes on with a slash behind the directory. -/
def isBelow (dir path : Bytes) : Bool :=
  path.length ≥ dir.length + 1 && path.take dir.length == dir && path[dir.length]? == some slash

/-- `check_path` -/
def checkPath (conf : StaticConf) (path : Bytes) : Bool :=
  if conf.restrictRoot && !isBelow conf.root path then false
  else if conf.restrictDirs.length = 0 then true
  else conf.restrictDirs.any fun dir => isBelow dir path

/-- The loop of `join_paths`: `n` more runs of slashes are passed, and the next character is the end
of such a run if `inRun` is set. Where the loop goes on, it first skips a character, which may be
the end of the string. -/
def strip : Nat → Bool → Bytes → Except Fault Bytes
  | n, true, [] => if n = 1 then .ok [] else .error .outOfBounds
  | _, false, [] => .ok []
  | n, inRun, c :: cs =>
    if c = slash then strip n true cs
    else if inRun then if n = 1 then .ok (c :: cs) else strip (n - 1) false cs
    else strip n false cs

/-- `join_paths` up to the call of `realpath`. The end of what is left of the path is the query,
which the loop may have passed. -/
def joinPaths (conf : StaticConf) (path : Bytes) : Except Fault Bytes := do
  let whole := withoutQuery path
  let rest ← strip (conf.stripDirs + 1) false path
  if rest.length + whole.length < path.length then throw .outOfBounds
  let kept := rest.take (rest.length + whole.length - path.length)
  let index := if rest = [] ∨ whole.getLast? = some slash then conf.indexFile.getD [] else []
  return conf.root ++ slash :: kept ++ index

/-! ### Reading -/

/-- The reply of a disk thread. `name` is the name under which the file was opened. -/
inductive DiskReply where
  | denied
  | notFound
  | notModified
  | failed
  | ok (name : Bytes) (gzip : Bool) (lastModified data : Bytes)
  deriving DecidableEq

/-- The part of `get_file` after the file is open. -/
def readFile (fs : FileSystem) (name : Bytes) (gzip : Bool) (ifModified : Bytes) (p : FilePath) :
    DiskReply :=
  match fs.tree.node p with
  | some (.file f) =>
    if ifModified = f.lastModified then .notModified else .ok name gzip f.lastModified f.data
  | _ => .failed

/-- `get_file` -/
def getFile (fs : FileSystem) (path ifModified : Bytes) (gzip : Bool) : DiskReply :=
  match if gzip then fs.openPath (path ++ str ".gz") else none with
  | some p => readFile fs (path ++ str ".gz") true ifModified p
  | none =>
    match fs.openPath path with
    | some p => readFile fs path false ifModified p
    | none => .failed

/-- What `disk_loop` does with one request. -/
def serve (fs : FileSystem) (conf : StaticConf) (req : DiskRequest) : Except Fault DiskReply := do
  if !(← checkBase conf req.path) then return .denied
  let full ← joinPaths conf req.path
  match fs.realpath full with
  | none => return .notFound
  | some p =>
    if !checkPath conf (pathString p) then return .denied
    return getFile fs (pathString p) req.ifModified req.gzipped

end Disk

end Zerogw
