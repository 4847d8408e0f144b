import YFtp.Session

/-!
# Handlers that work on files and directories

The handlers of `client_node.cpp` for MDTM, SIZE, DELE, RNFR, RNTO, MKD, RMD and SITE.
-/

namespace YFtp

/-- `%04d%02d%02d%02d%02d%02d`. -/
def mdtmText (t : Tm) : WString :=
  paddedDecimal 4 t.year ++ paddedDecimal 2 (t.mon + 1) ++ paddedDecimal 2 t.mday
    ++ paddedDecimal 2 t.hour ++ paddedDecimal 2 t.min ++ paddedDecimal 2 t.sec

namespace Session

/-- `process_mdtm_cmd`. -/
def processMdtmCmd (env : Env) (user : Option UserNode) (cmdArg : WString) (s : Session) :
    Except Fault Outcome :=
  if cmdArg ≠ [] then do
    let user ← deref user
    let path := buildPath env.canonical user.homeDirectory s.currentDirectory cmdArg
    if (statusOf env path).isSome then
      match env.lastWriteTime path with
      | some last =>
        .ok (s.answer 213 (mdtmText (gmtime last)) [.status path, .lastWriteTime path])
      | none => .ok (s.answer 550 "No such file or directory." [.status path, .lastWriteTime path])
    else .ok (s.answer 550 "No such file or directory." (statusEffects path))
  else .ok (s.answer 501 "Invalid number of arguments.")

/-- `process_size_cmd`. -/
def processSizeCmd (env : Env) (user : Option UserNode) (cmdArg : WString) (s : Session) :
    Except Fault Outcome :=
  if cmdArg ≠ [] then do
    let user ← deref user
    let path := buildPath env.canonical user.homeDirectory s.currentDirectory cmdArg
    if path ≠ [] then
      match env.fileSize path with
      | some size => .ok (s.answer 213 (decimal size ++ ['\r', '\n']) [.fileSize path])
      | none => .ok (s.answer 550 "No such file." [.fileSize path])
    else .ok (s.answer 550 "No such file.")
  else .ok (s.answer 501 "Syntax error in arguments.")

/-- `process_del_cmd`. -/
def processDelCmd (env : Env) (user : Option UserNode) (cmdArg : WString) (s : Session) :
    Except Fault Outcome := do
  let user ← deref user
  if user.holds .deleteFile = false then .ok (s.answer 550 "Permission denied.")
  else if cmdArg ≠ [] then
    let path := buildPath env.canonical user.homeDirectory s.currentDirectory cmdArg
    if (statusOf env path).any isRegularFile then
      if env.remove path then
        .ok (s.answer 250 "DELE command successful." [.status path, .removeFile path])
      else .ok (s.answer 550 "Can' t Remove or Access Error." [.status path, .removeFile path])
    else .ok (s.answer 550 "No such file." (statusEffects path))
  else .ok (s.answer 501 "Syntax error in arguments.")

/-- `process_rnfr_cmd`. -/
def processRnfrCmd (env : Env) (user : Option UserNode) (cmdArg : WString) (s : Session) :
    Except Fault Outcome := do
  let user ← deref user
  if user.holds .deleteFile = false then .ok (s.answer 550 "Permission denied.")
  else if cmdArg ≠ [] then
    let path := buildPath env.canonical user.homeDirectory s.currentDirectory cmdArg
    if (statusOf env path).isSome then
      .ok ({ s with renameFromPath := path }.answer 350
        "File or directory exists, ready for destination name." [.status path])
    else .ok (s.answer 550 "No such file or directory." (statusEffects path))
  else .ok (s.answer 501 "Syntax error in arguments.")

/-- `process_rnto_cmd`, which looks at no privilege. -/
def processRntoCmd (env : Env) (user : Option UserNode) (cmdArg : WString) (s : Session) :
    Except Fault Outcome :=
  if cmdArg ≠ [] then
    if s.renameFromPath ≠ [] then do
      let user ← deref user
      -- the target need not exist, so it is not canonicalised
      let path := buildPath env.canonical user.homeDirectory s.currentDirectory cmdArg false
      let cleared := { s with renameFromPath := [] }
      if path ≠ [] then
        if env.rename s.renameFromPath path then
          .ok (cleared.answer 250 "Rename successful." [.rename s.renameFromPath path])
        else .ok (cleared.answer 550 "Rename failure." [.rename s.renameFromPath path])
      else .ok (cleared.answer 550 "Rename failure.")
    else .ok (s.answer 503 "Bad sequence of commands.")
  else .ok (s.answer 501 "Syntax error in arguments.")

/-- `process_mkd_cmd`. -/
def processMkdCmd (env : Env) (user : Option UserNode) (cmdArg : WString) (s : Session) :
    Except Fault Outcome := do
  let user ← deref user
  if user.holds .createDir = false then .ok (s.answer 550 "Permission denied.")
  else if cmdArg ≠ [] then
    let path := buildPath env.canonical user.homeDirectory s.currentDirectory cmdArg false
    if path ≠ [] ∧ env.getFileStatus path = none then
      if env.createDirectory path = false then
        .ok (s.answer 550 "Internal error creating the directory."
          [.status path, .createDirectory path])
      else .ok (s.answer 250 "Directory created successful." [.status path, .createDirectory path])
    else .ok (s.answer 550 "Directory Already Exists." (statusEffects path))
  else .ok (s.answer 501 "Syntax error in arguments.")

/-- `process_rmd_cmd`. -/
def processRmdCmd (env : Env) (user : Option UserNode) (cmdArg : WString) (s : Session) :
    Except Fault Outcome := do
  let user ← deref user
  if user.holds .deleteDir = false then .ok (s.answer 550 "Permission denied.")
  else if cmdArg ≠ [] then
    let path := buildPath env.canonical user.homeDirectory s.currentDirectory cmdArg false
    if (statusOf env path).any isDirectory then
      if env.remove path = false then
        .ok (s.answer 450 "Internal error deleting the directory."
          [.status path, .removeDirectory path])
      else
        .ok (s.answer 250 "Directory deleted successfully." [.status path, .removeDirectory path])
    else .ok (s.answer 550 "Directory not found." (statusEffects path))
  else .ok (s.answer 501 "Syntax error in arguments.")

/-- `process_site_cmd`, which answers nothing to an argument other than EXEC. -/
def processSiteCmd (user : Option UserNode) (cmdArg : WString) (s : Session) :
    Except Fault Outcome :=
  if cmdArg ≠ [] then do
    let user ← deref user
    if cmdArg.take 5 = "EXEC ".toList then
      -- the right to EXEC is the only one asked for; SITE is valid before login
      if user.extraCmd &&& extracmdExec = extracmdExec then
        .ok (s.answer 200 "SITE EXEC Successful."
          (if 5 < cmdArg.length then [.system (cmdArg.drop 5)] else []))
      else .ok (s.answer 550 "Permission denied.")
    else .ok { session := s }
  else .ok (s.answer 501 "Syntax error in arguments.")

end Session

end YFtp
