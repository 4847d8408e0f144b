import YFtp.Wide

/-!
# Paths and the outside world

`common.cpp` and the answers the operating system gives while a command is handled.  Paths are the
strings held by `boost::filesystem::path` in a POSIX build, where the only separator is the slash.
-/

namespace YFtp

/-- `boost::filesystem::file_type`, as far as the code tells the types apart. -/
inductive FileType
  | regularFile
  | directoryFile
  | otherFile
deriving DecidableEq, Repr

/-- `boost::filesystem::file_status`. -/
structure FileStatus where
  fileType : FileType
  permissions : Nat
deriving DecidableEq, Repr

def isDirectory (st : FileStatus) : Bool := st.fileType = .directoryFile

def isRegularFile (st : FileStatus) : Bool := st.fileType = .regularFile

/-- What the operating system answers during one event.  `none` and `false` stand for an error
code. -/
structure Env where
  canonical : WString → Option WString
  canonical_absolute : ∀ {path resolved}, canonical path = some resolved →
    resolved.head? = some '/'
  getFileStatus : WString → Option FileStatus
  fileSize : WString → Option Nat
  lastWriteTime : WString → Option Int
  remove : WString → Bool
  rename : WString → WString → Bool
  createDirectory : WString → Bool
  /-- `initial_path()`, the directory the server was started in. -/
  initialPath : WString
  /-- `(int)((float)rand() * 99999 / RAND_MAX)`, by number of call. -/
  rand : Nat → Nat
  /-- How many file names STOU tries before its search counts as endless. -/
  tries : Nat
  openSocket : Bool
  /-- `bind` and `listen` on a port, by number of try. -/
  bindAndListen : Nat → Nat → Bool
  /-- The port the system picks when port 0 is bound. -/
  localPort : Nat
  accept : Bool
  connect : Bool
  handshake : Bool
  /-- `ctrl_socket_->i_handshake()`. -/
  ctrlHandshake : Bool
  /-- `joinable()` of a worker thread just created. -/
  joinable : Bool

/-- `boost::filesystem::path::operator/`: a separator is put in unless one side has it, and a right
side that starts with a slash is appended all the same. -/
def pathAppend (left right : WString) : WString :=
  if right = [] then left
  else if right.head? = some '/' then left ++ right
  else if left ≠ [] ∧ left.getLast? ≠ some '/' then left ++ '/' :: right
  else left ++ right

/-- `build_path`.  When `canonical` fails the path stays as it was put together. -/
def buildPath (canonical : WString → Option WString)
    (startPath currentPath askedPath : WString) (bcanonical : Bool := true) : WString :=
  if startPath ≠ [] ∧ currentPath ≠ [] then
    let repath :=
      if askedPath ≠ [] then
        if askedPath.head? = some '/' ∨ askedPath.head? = some '\\' then
          -- the argument is taken from the home directory on, whatever the current directory is
          pathAppend startPath askedPath
        else pathAppend (pathAppend startPath currentPath) askedPath
      else pathAppend startPath currentPath
    if bcanonical then
      -- `canonical` resolves `..` and links; nothing compares the result with `startPath`
      let repath := if repath = "//".toList then "/".toList else repath
      (canonical repath).getD repath
    else repath
  else []

/-- `simplify_path`: the path is left alone when `canonical` fails. -/
def simplifyPath (canonical : WString → Option WString) (path : WString) : WString :=
  if path = [] then path else (canonical path).getD path

end YFtp
