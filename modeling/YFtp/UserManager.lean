import Mathlib.Logic.Function.Basic
import YFtp.Session

/-!
# The user table

`user_manager.cpp` and `user_node.h`.  A `user_node` lives at an address that is never reused, since
client nodes keep shared pointers to it after it has been taken out of `ftp_user_list_`.
-/

namespace YFtp

/-- The codes of `error_code.h`. -/
inductive ErrorCode
  | userNotFound | userExist | pathInvalid | paramInvalid | usernameInvalid
deriving DecidableEq, Repr

/-- `user_manager`, with the memory its user nodes live in. -/
structure UserManager where
  users : UserRef → UserNode
  ftpUserList : List UserRef
  nextUser : UserRef

namespace UserManager

def modify (m : UserManager) (u : UserRef) (f : UserNode → UserNode) : UserManager :=
  { m with users := Function.update m.users u (f (m.users u)) }

@[simp] theorem modify_users_self (m : UserManager) (u : UserRef) (f : UserNode → UserNode) :
    (m.modify u f).users u = f (m.users u) := by
  simp [modify]

theorem modify_users_of_ne (m : UserManager) {u v : UserRef} (f : UserNode → UserNode)
    (h : v ≠ u) : (m.modify u f).users v = m.users v := by
  simp [modify, h]

/-- `find_user`. -/
def findUser (m : UserManager) (name : WString) : Option UserRef :=
  m.ftpUserList.find? fun u ↦ (m.users u).userName = name

/-- Whether `user_node::add_client` finds room for one more client. -/
def hasRoom (u : UserNode) : Bool :=
  u.maxClientNum = -1 || (u.clientList.length : Int) < u.maxClientNum

/-- `user_node::add_client`; `none` stands for its `false`. -/
def addClient (m : UserManager) (u : UserRef) (c : ClientRef) : Option UserManager :=
  if hasRoom (m.users u) then
    some (m.modify u fun user ↦ { user with clientList := user.clientList ++ [c] })
  else none

/-- `client_manager::delete_client`, which erases the first occurrence. -/
def deleteClient (m : UserManager) (u : UserRef) (c : ClientRef) : UserManager :=
  m.modify u fun user ↦ { user with clientList := user.clientList.erase c }

/-- `client_manager::delete_all_client`. -/
def deleteAllClient (m : UserManager) (u : UserRef) : UserManager :=
  m.modify u fun user ↦ { user with clientList := [] }

/-! ## Administration -/

/-- `user_node::set_home_directory`. -/
def withSeparator (dir : WString) : WString :=
  if dir.getLast? ≠ some '\\' ∧ dir.getLast? ≠ some '/' then dir ++ ['/'] else dir

/-- `proccess_home_directory`. -/
def processHomeDirectory (env : Env) (homeDir : WString) : Except ErrorCode WString :=
  let temp := if homeDir = [] ∨ homeDir = ['.'] then env.initialPath else homeDir
  let temp := simplifyPath env.canonical temp
  if temp = [] then .error .pathInvalid
  else if (env.getFileStatus temp).any isDirectory then .ok temp
  else .error .pathInvalid

/-- `add_user`. -/
def addUser (env : Env) (m : UserManager) (name password homeDir : WString) (priv : UInt8) :
    Except ErrorCode UserManager :=
  if name = [] then .error .paramInvalid
  else do
    let home ← processHomeDirectory env homeDir
    if m.findUser name ≠ none then .error .userExist
    else
      let user : UserNode :=
        { userName := name, userPassword := password, homeDirectory := withSeparator home
          userPrivilege := priv }
      -- the new node lives at an address that has not been used before
      .ok { users := Function.update m.users m.nextUser user
            ftpUserList := m.ftpUserList ++ [m.nextUser]
            nextUser := m.nextUser + 1 }

/-- `delete_user`. -/
def deleteUser (m : UserManager) (name : WString) : Except ErrorCode UserManager :=
  match m.findUser name with
  -- the clients of the user keep their pointer to it
  | some u => .ok { m.deleteAllClient u with ftpUserList := m.ftpUserList.erase u }
  | none => .error .userNotFound

/-- The loops of `set_user_password` and `set_user_privilege`: an empty name means every user. -/
def modifyNamed (m : UserManager) (name : WString) (f : UserNode → UserNode) :
    Except ErrorCode UserManager :=
  if name = [] then
    if m.ftpUserList = [] then .error .userNotFound
    else .ok (m.ftpUserList.foldl (fun m u ↦ m.modify u f) m)
  else match m.findUser name with
    | some u => .ok (m.modify u f)
    | none => .error .userNotFound

/-- The users that these loops reach. -/
def Addressed (m : UserManager) (name : WString) (u : UserRef) : Prop :=
  if name = [] then u ∈ m.ftpUserList else m.findUser name = some u

instance (m : UserManager) (name : WString) (u : UserRef) : Decidable (m.Addressed name u) :=
  inferInstanceAs (Decidable (ite ..))

/-- `set_user_password`. -/
def setUserPassword (m : UserManager) (name password : WString) : Except ErrorCode UserManager :=
  m.modifyNamed name fun user ↦ { user with userPassword := password }

/-- `set_user_privilege`. -/
def setUserPrivilege (m : UserManager) (name : WString) (priv : UInt8) :
    Except ErrorCode UserManager :=
  m.modifyNamed name fun user ↦ { user with userPrivilege := priv }

/-- `set_user_home_directory`. -/
def setUserHomeDirectory (env : Env) (m : UserManager) (name homeDir : WString) :
    Except ErrorCode UserManager := do
  let home ← processHomeDirectory env homeDir
  match m.findUser name with
  | some u => .ok (m.modify u fun user ↦ { user with homeDirectory := withSeparator home })
  | none => .error .userNotFound

/-- `set_user_max_client`. -/
def setUserMaxClient (m : UserManager) (name : WString) (maxClient : Int) :
    Except ErrorCode UserManager :=
  match m.findUser name with
  | some u => .ok (m.modify u fun user ↦ { user with maxClientNum := maxClient })
  | none => .error .userNotFound

end UserManager

end YFtp
