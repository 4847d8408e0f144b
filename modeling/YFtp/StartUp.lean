import YFtp.InitFtpServer
import YFtp.PassivePorts

/-!
# Start-up

`FtpServerApp::main` of `main.cpp`: the accounts and the ports for passive data connections are read
from the configuration.  A user entry that cannot be added is only logged, so that the server may
start without an account.
-/

namespace YFtp

open UserManager

/-- The bytes of a `std::string`. -/
abbrev NarrowString := List UInt8

def narrow (s : String) : NarrowString := s.toUTF8.toList

/-- What `main` finds: the configuration, and `s2ws`, whose result depends on the locale. -/
structure App where
  config : WString → Option NarrowString
  s2ws : NarrowString → WString
  env : Env
  /-- `boost_ssl_context()` is not null. -/
  boostSslContext : Bool

/-! ## Strings -/

/-- `boost::split` with `token_compress_off`. -/
def split (delimiters s : NarrowString) : List NarrowString := s.splitOnP (· ∈ delimiters)

/-- `FTP_USER_PRIV_WRITE`. -/
def ftpUserPrivWrite : UInt8 := UserPrivilege.writeFile.bit ||| UserPrivilege.createDir.bit

/-- `FTP_USER_PRIV_DEL`. -/
def ftpUserPrivDel : UInt8 := UserPrivilege.deleteFile.bit ||| UserPrivilege.deleteDir.bit

/-- What a letter stands for. -/
def letterPrivilege (c : UInt8) : UInt8 :=
  if c = 'r'.toUInt8 then ftpUserPrivRead
  else if c = 'w'.toUInt8 then ftpUserPrivWrite
  else if c = 'd'.toUInt8 then ftpUserPrivDel
  else 0

/-- The union of what the letters stand for. -/
def lettersPrivilege : NarrowString → UInt8
  | [] => 0
  | c :: letters => letterPrivilege c ||| lettersPrivilege letters

/-- `user_dir` -/
def userDir (rootDir dir : NarrowString) : NarrowString :=
  (if rootDir ≠ [] ∧ rootDir.getLast? ≠ some '\\'.toUInt8 ∧ rootDir.getLast? ≠ some '/'.toUInt8 then
    rootDir ++ ['/'.toUInt8]
  else rootDir) ++ dir

/-- `tmp_usr_info`: the number is cut to the nine characters that `tmp_str` has room for. -/
def userKey (userIndex : Nat) : WString := "ftp.server.user".toList ++ (decimal userIndex).take 9

/-- The fields of a user entry. -/
structure UserEntry where
  name : NarrowString
  password : NarrowString
  dir : NarrowString
  letters : NarrowString
deriving DecidableEq, Repr

def userEntry (ftpUser : NarrowString) : Option UserEntry :=
  match split (narrow ":;,") ftpUser with
  | [name, password, dir, letters] => some ⟨name, password, dir, letters⟩
  | _ => none

/-! ## `main` -/

namespace App

variable (app : App)

def getString (key : WString) (default : NarrowString) : NarrowString :=
  (app.config key).getD default

def rootDir : NarrowString := app.getString "ftp.server.root_dir" []

def allowAnonymous : NarrowString := app.getString "ftp.server.allow_anonymous" (narrow "1::rwd")

def ftpUser (userIndex : Nat) : NarrowString := app.getString (userKey userIndex) []

/-- The user entries from number `first + 1` on. -/
def entriesFrom (first : Nat) : Nat → List NarrowString
  | 0 => []
  | count + 1 => app.ftpUser (first + 1) :: entriesFrom (first + 1) count

/-- The account with these fields, if its directory is there. -/
def account (name password : WString) (dir letters : NarrowString) : Option UserNode :=
  match processHomeDirectory app.env (app.s2ws (userDir app.rootDir dir)) with
  | .ok home => some {
      userName := name, userPassword := password, homeDirectory := withSeparator home
      userPrivilege := lettersPrivilege letters }
  | .error _ => none

/-- The account that a user entry of four fields asks for, under a name that may be used. -/
def accountOf (ftpUser : NarrowString) : Option UserNode :=
  (userEntry ftpUser).bind fun entry ↦
    if app.s2ws entry.name = [] ∨ IsReserved (app.s2ws entry.name) then none
    else app.account (app.s2ws entry.name) (app.s2ws entry.password) entry.dir entry.letters

/-- The anonymous account, if it is asked for. -/
def anonymousAccount : Option UserNode :=
  match split (narrow ":;,") app.allowAnonymous with
  | [doAllow, dir, letters] =>
    if doAllow = narrow "1" then app.account "anonymous".toList [] dir letters else none
  | _ => none

end App

/-- An account is added unless its name is used. -/
def addNew (table : List UserNode) (user : UserNode) : List UserNode :=
  if user.userName ∈ table.map UserNode.userName then table else table ++ [user]

/-- The accounts that the configuration asks for. -/
def App.accounts (app : App) (count : Nat) : List UserNode :=
  ((app.entriesFrom 0 count).filterMap app.accountOf).foldl addNew app.anonymousAccount.toList

section Table

variable {app : App} {σ τ : FtpServer} {allow : Bool} {users : List UserNode} {count rounds : Nat}

end Table

/-! ## Logins -/

section Logins

variable {σ : FtpServer} {allow : Bool} {users : List UserNode} {u : UserRef}

-- the client's own fields play no part in it
theorem TableIs.asksAnonymous (h : TableIs σ allow users) (c : ClientRef) (n : ClientNode)
    (name : WString) : (σ.setNode c n).asksAnonymous name =
      (allow && (name = "anonymous".toList || name = "ftp".toList)) := by
  unfold FtpServer.asksAnonymous
  show (σ.isAllowAnonymous && _) = _
  rw [h.isAllowAnonymous]

end Logins

/-! ## Start-up -/

section StartUp

variable {app : App} {σ : FtpServer} {count : Nat}

variable {rounds : Nat} {ρ : FtpServer}

end StartUp

namespace Sample

/-- A configuration without anonymous logins, with one user whose directory is `bob`. -/
def app : App where
  config key :=
    if key = "ftp.server.root_dir".toList then some (narrow "/srv")
    else if key = "ftp.server.allow_anonymous".toList then some []
    else if key = "ftp.server.user1".toList then some (narrow "bob:pw:bob:rw")
    else none
  s2ws s := s.map fun b ↦ Char.ofNat b.toNat
  env := env
  boostSslContext := true

end Sample

end YFtp
