import YFtp.Session

/-!
# Handlers that start a transfer

The handlers of `client_node.cpp` for LIST, NLST, MLSD and STAT, for RETR, and for STOR, APPE and
STOU.  Each opens the data connection and creates a worker thread; `Effect.startList`,
`Effect.startRetrieve` and `Effect.startStore` stand for the worker created.
-/

namespace YFtp.Session

/-- `process_list_cmd`. -/
def processListCmd (env : Env) (sslContext : Bool) (user : Option UserNode) (cmd : Command)
    (s : Session) : Except Fault Outcome := do
  let user ← deref user
  if user.holds .listDir = false then .ok (s.answer 550 "Permission denied.")
  else if cmd.id ≠ .STAT ∧ s.curStatus ≠ .waiting then
    .ok (s.answer 425 "You're already connected.")
  else
    let (s, opened, effects) ←
      -- STAT lists over the control connection
      if cmd.id ≠ .STAT then s.openDataConnection env sslContext else .ok (s, true, [])
    if opened = false then .ok (s.answer 425 "Can't open data connection." effects)
    else if env.joinable then .ok { session := s, effects := effects ++ [.startList cmd] }
    else .ok (s.answer 425 "425 Can't open data connection." effects)

/-- `process_retr_cmd`. -/
def processRetrCmd (env : Env) (sslContext : Bool) (user : Option UserNode) (cmdArg : WString)
    (s : Session) : Except Fault Outcome := do
  let user ← deref user
  if user.holds .readFile = false then .ok (s.answer 550 "Permission denied.")
  else if cmdArg ≠ [] then
    if s.curStatus ≠ .waiting then .ok (s.answer 425 "You're already connected.")
    else
      let (s, opened, effects) ← s.openDataConnection env sslContext
      if opened = false then .ok (s.answer 425 "Can't open data connection." effects)
      else
        let path := buildPath env.canonical user.homeDirectory s.currentDirectory cmdArg
        if (statusOf env path).isSome then
          let effects := effects ++
            [.status path, .send (Reply.create 150 "Opening data connection.").content]
          if env.joinable = false then
            .ok ({ s with restartAt := 0, transferPath := [], curStatus := .waiting }.answer 425
              "Opening data connection failed." effects)
          else
            .ok { session := { s with curStatus := .downloading, transferPath := path }
                  reply := .create 0 []
                  effects := effects ++ [.startRetrieve path] }
        else .ok (s.answer 550 "File not found." (effects ++ statusEffects path))
  else .ok (s.answer 501 "501 Syntax error in arguments.")

/-- The loop of STOU: the first generated path, from the `tried`-th on, that names nothing. -/
def searchUniqueName (env : Env) (home currentDirectory : WString) :
    Nat → Nat → Except Fault (WString × List Effect)
  | 0, _ => .error .endlessSearch
  | left + 1, tried => do
    let path := buildPath env.canonical home currentDirectory
      ("file.".toList ++ decimal (env.rand tried))
    if (env.getFileStatus path).isSome then
      let (found, effects) ← searchUniqueName env home currentDirectory left (tried + 1)
      .ok (found, .status path :: effects)
    else .ok (path, [.status path])

/-- `process_stor_cmd`. -/
def processStorCmd (env : Env) (sslContext : Bool) (user : Option UserNode) (cmd : Command)
    (s : Session) : Except Fault Outcome := do
  let user ← deref user
  if user.holds .writeFile = false then .ok (s.answer 550 "Permission denied.")
  else if cmd.args ≠ [] ∨ cmd.id = .STOU then
    if s.curStatus ≠ .waiting then .ok (s.answer 425 "You're already connected.")
    else
      let (s, opened, effects) ← s.openDataConnection env sslContext
      if opened = false then .ok (s.answer 425 "Can't open data connection." effects)
      else
        let (unique, searched) ←
          if cmd.id = .STOU then
            searchUniqueName env user.homeDirectory s.currentDirectory env.tries 0
          else .ok ([], [])
        let path :=
          if unique ≠ [] then unique
          -- the file need not exist, so its path is not canonicalised
          else buildPath env.canonical user.homeDirectory s.currentDirectory cmd.args false
        let effects := effects ++ searched
        if path ≠ [] then
          let (restartAt, sized) : Int × List Effect :=
            if cmd.id = .APPE then
              if (env.getFileStatus path).isSome then
                -- APPE goes on at the end of the file
                (((env.fileSize path).getD 0 : Nat), [.status path, .fileSize path])
              else (0, [.status path])
            else (s.restartAt, [])
          let text := if cmd.id = .STOU then "FILE: ".toList ++ unique
            else "Opening data connection.".toList
          let effects := effects ++ sized ++ [.send (Reply.create 150 text).content]
          if env.joinable = false then
            .ok ({ s with restartAt := 0, transferPath := [], curStatus := .waiting }.answer 425
              "Opening data connection failed." effects)
          else
            .ok { session := { s with
                    curStatus := .uploading, restartAt := restartAt, transferPath := path }
                  reply := .create 0 []
                  effects := effects ++ [.startStore path] }
        else .ok { session := s, effects := effects }
  else .ok (s.answer 501 "501 Syntax error in arguments.")

end YFtp.Session
