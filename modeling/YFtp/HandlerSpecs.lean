import YFtp.Steps

/-!
# What the handlers do

One specification for each handler of a session: the fields of the session that matter to later
commands, and for each of its effects the account and the path it rests on.
-/

namespace YFtp

/-- The path is `build_path` of the home directory of `user`, the current directory and `asked`. -/
def Built (env : Env) (s : Session) (user : UserNode) (asked path : WString) : Prop :=
  ∃ bcanonical, path
    = buildPath env.canonical user.homeDirectory s.currentDirectory asked bcanonical

/-- What the command asks for: its argument, but STOU makes up a name. -/
def Command.Asks (cmd : Command) (asked : WString) : Prop :=
  if cmd.id = .STOU then ∃ n, asked = "file.".toList ++ decimal n else asked = cmd.args

/-- What a handler rests on when it has this effect.  RNTO asks for no privilege. -/
def Justified (env : Env) (s : Session) (user : Option UserNode) (arg : WString) : Effect → Prop
  | .switch _ => False
  | .send _ | .handshake => True
  | .status path | .fileSize path | .lastWriteTime path =>
    ∃ u, user = some u ∧ Built env s u arg path
  | .removeFile path => ∃ u, user = some u ∧ u.holds .deleteFile = true ∧ Built env s u arg path
  | .removeDirectory path => ∃ u, user = some u ∧ u.holds .deleteDir = true ∧ Built env s u arg path
  | .createDirectory path => ∃ u, user = some u ∧ u.holds .createDir = true ∧ Built env s u arg path
  | .rename source target =>
    source = s.renameFromPath ∧ source ≠ [] ∧ ∃ u, user = some u ∧ Built env s u arg target
  | .system _ => ∃ u, user = some u ∧ u.extraCmd &&& extracmdExec = extracmdExec
  | .openData tls => tls = s.dataUseSsl
  | .startList cmd => cmd.args = arg ∧ ∃ u, user = some u ∧ u.holds .listDir = true
  | .startRetrieve path => ∃ u, user = some u ∧ u.holds .readFile = true ∧ Built env s u arg path
  | .startStore path => ∃ u, user = some u ∧ u.holds .writeFile = true ∧ Built env s u arg path

/-- What a command rests on when it has this effect. -/
def JustifiedBy (env : Env) (s : Session) (user : Option UserNode) (cmd : Command) (f : Effect) :
    Prop :=
  ∃ asked, cmd.Asks asked ∧ Justified env s user asked f

theorem exists_asks (cmd : Command) : ∃ asked, cmd.Asks asked := by
  by_cases hid : cmd.id = .STOU
  · exact ⟨_, (if_pos hid).mpr ⟨0, rfl⟩⟩
  · exact ⟨cmd.args, (if_neg hid).mpr rfl⟩

namespace Session

/-- The fields that outlive a command and that transfers do not touch. -/
structure Same (s t : Session) : Prop where
  currentDirectory : t.currentDirectory = s.currentDirectory
  renameFromPath : t.renameFromPath = s.renameFromPath
  dataUseSsl : t.dataUseSsl = s.dataUseSsl

theorem Same.refl (s : Session) : Same s s := ⟨rfl, rfl, rfl⟩

theorem Same.trans {s t u : Session} (h₁ : Same s t) (h₂ : Same t u) : Same s u :=
  ⟨h₂.currentDirectory.trans h₁.currentDirectory, h₂.renameFromPath.trans h₁.renameFromPath,
    h₂.dataUseSsl.trans h₁.dataUseSsl⟩

variable {env : Env} {s t : Session} {user : Option UserNode} {arg : WString} {o : Outcome}

theorem deref_ok {u : UserNode} (h : deref user = .ok u) : user = some u := by
  cases user with
  | none => cases h
  | some v => rw [Except.ok.inj h]

theorem built_arg (env : Env) (s : Session) (u : UserNode) (arg : WString) (bcanonical : Bool) :
    Built env s u arg
      (buildPath env.canonical u.homeDirectory s.currentDirectory arg bcanonical) :=
  ⟨bcanonical, rfl⟩

/-- Asking for the status of a path that was built. -/
theorem statusEffects_justified {u : UserNode} {path : WString} (huser : user = some u)
    (hpath : Built env s u arg path) : ∀ f ∈ statusEffects path, Justified env s user arg f := by
  intro f hf
  unfold statusEffects at hf
  split at hf
  · cases hf
  · cases List.mem_singleton.mp hf
    exact ⟨u, huser, hpath⟩

/-- Asking for the status of a path that was built, and then doing what is justified too. -/
theorem pair_justified {u : UserNode} {path : WString} {g : Effect} (huser : user = some u)
    (hpath : Built env s u arg path) (hg : Justified env s user arg g) :
    ∀ f ∈ [.status path, g], Justified env s user arg f := by
  intro f hf
  rcases List.mem_cons.mp hf with rfl | hf
  · exact ⟨u, huser, hpath⟩
  · rw [List.mem_singleton.mp hf]
    exact hg

/-! ## The data connection -/

theorem closeDataSocket_same (h : s.closeDataSocket = .ok t) : Same s t := by
  unfold closeDataSocket at h
  split at h <;> split at h <;> first | cases h; exact ⟨rfl, rfl, rfl⟩ | cases h

theorem secureData_spec (env : Env) (sslContext : Bool) (s : Session) :
    Same s (s.secureData env sslContext).1 ∧
    ∀ f ∈ (s.secureData env sslContext).2.2, f = .openData s.dataUseSsl := by
  unfold secureData
  cases hssl : s.dataUseSsl with
  | false => exact ⟨.refl s, by simp⟩
  | true =>
    simp only [if_true]
    split
    · exact ⟨.refl s, by simp⟩
    · split <;> exact ⟨⟨rfl, rfl, hssl.symm⟩, by simp⟩

theorem openDataConnection_spec {sslContext : Bool} {r : Session × Bool × List Effect}
    (h : s.openDataConnection env sslContext = .ok r) :
    Same s r.1 ∧ ∀ f ∈ r.2.2, f = .openData s.dataUseSsl := by
  have hsecure : ∀ d a, Same s (secureData env sslContext { s with
        dataSocket := d, dataAcceptor := a }).1 ∧
      ∀ f ∈ (secureData env sslContext { s with dataSocket := d, dataAcceptor := a }).2.2,
        f = .openData s.dataUseSsl := by
    intro d a
    have hsockets : Same s { s with dataSocket := d, dataAcceptor := a } := ⟨rfl, rfl, rfl⟩
    rcases secureData_spec env sslContext { s with dataSocket := d, dataAcceptor := a }
      with ⟨hsame, heffects⟩
    exact ⟨hsockets.trans hsame, heffects⟩
  unfold openDataConnection at h
  split at h
  · cases h
    exact ⟨.refl s, by simp⟩
  · split at h
    · cases h
    · dsimp only at h
      split at h
      · cases h
        exact hsecure _ _
      · cases h
        exact ⟨⟨rfl, rfl, rfl⟩, by simp⟩
  · split at h
    · cases h
      exact ⟨⟨rfl, rfl, rfl⟩, by simp⟩
    · split at h
      · cases h
        exact ⟨⟨rfl, rfl, rfl⟩, by simp⟩
      · cases h
        exact hsecure _ _

theorem resetDataMode_same (h : s.resetDataMode = .ok t) : Same s t := by
  unfold resetDataMode at h
  split at h
  · dsimp only at h
    split at h
    · rcases eq_ok_of_bind h with ⟨s', hs', h⟩
      cases h
      have hsame := closeDataSocket_same hs'
      exact ⟨hsame.currentDirectory, hsame.renameFromPath, hsame.dataUseSsl⟩
    · cases h
      exact ⟨rfl, rfl, rfl⟩
  · cases h
    exact .refl s

/-! ## Setting up a session -/

theorem processPortCmd_spec (h : s.processPortCmd arg = .ok o) :
    Same s o.session ∧ o.effects = [] := by
  unfold processPortCmd at h
  split at h
  · cases h
    exact ⟨.refl s, rfl⟩
  · split at h
    · rcases eq_ok_of_bind h with ⟨s', hs', h⟩
      cases h
      have hsame := resetDataMode_same hs'
      exact ⟨⟨hsame.currentDirectory, hsame.renameFromPath, hsame.dataUseSsl⟩, rfl⟩
    · cases h
      exact ⟨.refl s, rfl⟩

theorem processPasvCmd_spec {serverIp : Nat} {ports ports' : DataPorts}
    (h : s.processPasvCmd env serverIp ports = .ok (o, ports')) :
    Same s o.session ∧ o.effects = [] := by
  unfold processPasvCmd at h
  split at h
  · cases h
    exact ⟨.refl s, rfl⟩
  · rcases eq_ok_of_bind h with ⟨s', hs', h⟩
    have hsame := resetDataMode_same hs'
    have hdone : ∀ {t : Session}, t.currentDirectory = s'.currentDirectory →
        t.renameFromPath = s'.renameFromPath → t.dataUseSsl = s'.dataUseSsl → Same s t :=
      fun h₁ h₂ h₃ ↦ hsame.trans ⟨h₁, h₂, h₃⟩
    dsimp only at h
    split at h
    · cases h
      exact ⟨hdone rfl rfl rfl, rfl⟩
    · split at h
      · split at h <;> cases h <;> exact ⟨hdone rfl rfl rfl, rfl⟩
      · split at h <;> cases h <;> exact ⟨hdone rfl rfl rfl, rfl⟩

theorem processTypeCmd_spec (arg : WString) (s : Session) :
    Same s (s.processTypeCmd arg).session ∧ (s.processTypeCmd arg).effects = [] := by
  unfold processTypeCmd
  split
  · split
    · exact ⟨⟨rfl, rfl, rfl⟩, rfl⟩
    · split <;> exact ⟨⟨rfl, rfl, rfl⟩, rfl⟩
  · exact ⟨.refl s, rfl⟩

theorem processRestCmd_spec (arg : WString) (s : Session) :
    Same s (s.processRestCmd arg).session ∧ (s.processRestCmd arg).effects = [] := by
  unfold processRestCmd
  split <;> exact ⟨⟨rfl, rfl, rfl⟩, rfl⟩

theorem processAborCmd_spec (h : s.processAborCmd = .ok o) :
    Same s o.session ∧ ∀ f ∈ o.effects, ∃ text, f = .send text := by
  unfold processAborCmd at h
  split at h
  · rcases eq_ok_of_bind h with ⟨s', hs', h⟩
    cases h
    have hsame := closeDataSocket_same hs'
    exact ⟨⟨hsame.currentDirectory, hsame.renameFromPath, hsame.dataUseSsl⟩, by simp [answer]⟩
  · cases h
    exact ⟨.refl s, by simp [answer]⟩

theorem processAuthCmd_spec (build : Build) (sslContext useSsl : Bool) (arg : WString)
    (s : Session) :
    (s.processAuthCmd build sslContext useSsl arg).session = s ∧
    ∀ f ∈ (s.processAuthCmd build sslContext useSsl arg).effects,
      f = .handshake ∨ ∃ text, f = .send text := by
  unfold processAuthCmd
  split
  · exact ⟨rfl, by simp [answer]⟩
  · split
    · split
      · exact ⟨rfl, by simp [answer]⟩
      · split
        · exact ⟨rfl, by simp⟩
        · exact ⟨rfl, by simp [answer]⟩
    · exact ⟨rfl, by simp [answer]⟩

/-- PROT changes only the protection of the data connection. -/
theorem processProtCmd_spec (build : Build) (useSsl : Bool) (arg : WString) (s : Session) :
    (s.processProtCmd build useSsl arg).session.currentDirectory = s.currentDirectory ∧
    (s.processProtCmd build useSsl arg).session.renameFromPath = s.renameFromPath ∧
    (s.processProtCmd build useSsl arg).effects = [] := by
  unfold processProtCmd
  dsimp only
  split
  · exact ⟨rfl, rfl, rfl⟩
  · split
    · split <;> exact ⟨rfl, rfl, rfl⟩
    · split
      · split
        · split
          · exact ⟨rfl, rfl, rfl⟩
          · split <;> exact ⟨rfl, rfl, rfl⟩
        · exact ⟨rfl, rfl, rfl⟩
      · exact ⟨rfl, rfl, rfl⟩

/-- CWD stays where it is, or goes to the directory it has built. -/
theorem processCwdCmd_spec (h : s.processCwdCmd env user arg = .ok o) :
    (Same s o.session ∨ ∃ u path, user = some u ∧ Built env s u arg path ∧
      (statusOf env path).any isDirectory = true ∧
      o.session = { s with currentDirectory := directoryBelow u.homeDirectory path }) ∧
    ∀ f ∈ o.effects, Justified env s user arg f := by
  unfold processCwdCmd at h
  split at h
  · rcases eq_ok_of_bind h with ⟨u, hu, h⟩
    have huser := deref_ok hu
    have hpath := built_arg env s u arg true
    have heffects := statusEffects_justified huser hpath
    dsimp only at h
    split at h
    · rename_i hdirectory
      cases h
      exact ⟨.inr ⟨u, _, huser, hpath, hdirectory, rfl⟩, heffects⟩
    · cases h
      exact ⟨.inl (.refl s), heffects⟩
  · cases h
    exact ⟨.inl (.refl s), by simp [answer]⟩

/-! ## Files and directories -/

theorem processMdtmCmd_spec (h : s.processMdtmCmd env user arg = .ok o) :
    Same s o.session ∧ ∀ f ∈ o.effects, Justified env s user arg f := by
  unfold processMdtmCmd at h
  split at h
  · rcases eq_ok_of_bind h with ⟨u, hu, h⟩
    have huser := deref_ok hu
    have hpath := built_arg env s u arg true
    dsimp only at h
    split at h
    · split at h
      all_goals
        cases h
        exact ⟨.refl s, pair_justified huser hpath ⟨u, huser, hpath⟩⟩
    · cases h
      exact ⟨.refl s, statusEffects_justified huser hpath⟩
  · cases h
    exact ⟨.refl s, by simp [answer]⟩

theorem processSizeCmd_spec (h : s.processSizeCmd env user arg = .ok o) :
    Same s o.session ∧ ∀ f ∈ o.effects, Justified env s user arg f := by
  unfold processSizeCmd at h
  split at h
  · rcases eq_ok_of_bind h with ⟨u, hu, h⟩
    have huser := deref_ok hu
    have hpath := built_arg env s u arg true
    dsimp only at h
    split at h
    · split at h
      all_goals
        cases h
        refine ⟨.refl s, fun f hf ↦ ?_⟩
        cases List.mem_singleton.mp hf
        exact ⟨u, huser, hpath⟩
    · cases h
      exact ⟨.refl s, by simp [answer]⟩
  · cases h
    exact ⟨.refl s, by simp [answer]⟩

/-- What DELE, MKD and RMD come to: an account with the privilege acts on the path that was built,
once its status has been asked for.  The reply has a final code and a text of one line. -/
inductive ActsOnPath (env : Env) (s : Session) (user : Option UserNode) (arg : WString)
    (privilege : UserPrivilege) (act : WString → Effect) : Outcome → Prop
  | answers {code : Nat} {text : WString} (hcode : 200 ≤ code ∧ code < 600)
      (htext : '\r' ∉ text ∧ '\n' ∉ text) :
    ActsOnPath env s user arg privilege act (s.answer code text)
  | looks {u : UserNode} {path : WString} {code : Nat} {text : WString} (huser : user = some u)
      (hpath : Built env s u arg path) (hcode : 200 ≤ code ∧ code < 600)
      (htext : '\r' ∉ text ∧ '\n' ∉ text) :
    ActsOnPath env s user arg privilege act (s.answer code text (statusEffects path))
  | acts {u : UserNode} {path : WString} {code : Nat} {text : WString} (huser : user = some u)
      (hholds : u.holds privilege = true) (hpath : Built env s u arg path)
      (hcode : 200 ≤ code ∧ code < 600) (htext : '\r' ∉ text ∧ '\n' ∉ text) :
    ActsOnPath env s user arg privilege act (s.answer code text [.status path, act path])

theorem ActsOnPath.spec {privilege : UserPrivilege} {act : WString → Effect}
    (h : ActsOnPath env s user arg privilege act o)
    (hact : ∀ u path, user = some u → u.holds privilege = true → Built env s u arg path →
      Justified env s user arg (act path)) :
    Same s o.session ∧ ∀ f ∈ o.effects, Justified env s user arg f := by
  cases h with
  | answers => exact ⟨.refl s, by simp [answer]⟩
  | looks huser hpath => exact ⟨.refl s, statusEffects_justified huser hpath⟩
  | acts huser hholds hpath =>
    exact ⟨.refl s, pair_justified huser hpath (hact _ _ huser hholds hpath)⟩

theorem processDelCmd_acts (h : s.processDelCmd env user arg = .ok o) :
    ActsOnPath env s user arg .deleteFile .removeFile o := by
  rcases eq_ok_of_bind h with ⟨u, hu, h⟩
  have huser := deref_ok hu
  have hpath := built_arg env s u arg true
  split at h
  · cases h
    exact .answers (by decide) (by decide)
  · rename_i hholds
    rw [Bool.not_eq_false] at hholds
    split at h
    · dsimp only at h
      split at h
      · split at h
        all_goals
          cases h
          exact .acts huser hholds hpath (by decide) (by decide)
      · cases h
        exact .looks huser hpath (by decide) (by decide)
    · cases h
      exact .answers (by decide) (by decide)

theorem processDelCmd_spec (h : s.processDelCmd env user arg = .ok o) :
    Same s o.session ∧ ∀ f ∈ o.effects, Justified env s user arg f :=
  (processDelCmd_acts h).spec fun u _ huser hholds hpath ↦ ⟨u, huser, hholds, hpath⟩

/-- RNFR stores the path it has built, for an account that may delete files. -/
theorem processRnfrCmd_spec (h : s.processRnfrCmd env user arg = .ok o) :
    (Same s o.session ∨ ∃ u path, user = some u ∧ u.holds .deleteFile = true ∧
      Built env s u arg path ∧ o.session = { s with renameFromPath := path }) ∧
    ∀ f ∈ o.effects, Justified env s user arg f := by
  rcases eq_ok_of_bind h with ⟨u, hu, h⟩
  have huser := deref_ok hu
  have hpath := built_arg env s u arg true
  split at h
  · cases h
    exact ⟨.inl (.refl s), by simp [answer]⟩
  · rename_i hholds
    rw [Bool.not_eq_false] at hholds
    split at h
    · dsimp only at h
      split at h
      · cases h
        refine ⟨.inr ⟨u, _, huser, hholds, hpath, rfl⟩, fun f hf ↦ ?_⟩
        cases List.mem_singleton.mp hf
        exact ⟨u, huser, hpath⟩
      · cases h
        exact ⟨.inl (.refl s), statusEffects_justified huser hpath⟩
    · cases h
      exact ⟨.inl (.refl s), by simp [answer]⟩

/-- RNTO forgets the path of RNFR when it uses it. -/
theorem processRntoCmd_spec (h : s.processRntoCmd env user arg = .ok o) :
    (Same s o.session ∨ o.session = { s with renameFromPath := [] }) ∧
    ∀ f ∈ o.effects, Justified env s user arg f := by
  unfold processRntoCmd at h
  split at h
  · split at h
    · rename_i hsource
      rcases eq_ok_of_bind h with ⟨u, hu, h⟩
      have huser := deref_ok hu
      have hpath := built_arg env s u arg false
      dsimp only at h
      split at h
      · split at h
        all_goals
          cases h
          refine ⟨.inr rfl, fun f hf ↦ ?_⟩
          cases List.mem_singleton.mp hf
          exact ⟨rfl, hsource, u, huser, hpath⟩
      · cases h
        exact ⟨.inr rfl, by simp [answer]⟩
    · cases h
      exact ⟨.inl (.refl s), by simp [answer]⟩
  · cases h
    exact ⟨.inl (.refl s), by simp [answer]⟩

theorem processMkdCmd_acts (h : s.processMkdCmd env user arg = .ok o) :
    ActsOnPath env s user arg .createDir .createDirectory o := by
  rcases eq_ok_of_bind h with ⟨u, hu, h⟩
  have huser := deref_ok hu
  have hpath := built_arg env s u arg false
  split at h
  · cases h
    exact .answers (by decide) (by decide)
  · rename_i hholds
    rw [Bool.not_eq_false] at hholds
    split at h
    · dsimp only at h
      split at h
      · split at h
        all_goals
          cases h
          exact .acts huser hholds hpath (by decide) (by decide)
      · cases h
        exact .looks huser hpath (by decide) (by decide)
    · cases h
      exact .answers (by decide) (by decide)

theorem processMkdCmd_spec (h : s.processMkdCmd env user arg = .ok o) :
    Same s o.session ∧ ∀ f ∈ o.effects, Justified env s user arg f :=
  (processMkdCmd_acts h).spec fun u _ huser hholds hpath ↦ ⟨u, huser, hholds, hpath⟩

theorem processRmdCmd_acts (h : s.processRmdCmd env user arg = .ok o) :
    ActsOnPath env s user arg .deleteDir .removeDirectory o := by
  rcases eq_ok_of_bind h with ⟨u, hu, h⟩
  have huser := deref_ok hu
  have hpath := built_arg env s u arg false
  split at h
  · cases h
    exact .answers (by decide) (by decide)
  · rename_i hholds
    rw [Bool.not_eq_false] at hholds
    split at h
    · dsimp only at h
      split at h
      · split at h
        all_goals
          cases h
          exact .acts huser hholds hpath (by decide) (by decide)
      · cases h
        exact .looks huser hpath (by decide) (by decide)
    · cases h
      exact .answers (by decide) (by decide)

theorem processRmdCmd_spec (h : s.processRmdCmd env user arg = .ok o) :
    Same s o.session ∧ ∀ f ∈ o.effects, Justified env s user arg f :=
  (processRmdCmd_acts h).spec fun u _ huser hholds hpath ↦ ⟨u, huser, hholds, hpath⟩

theorem processSiteCmd_spec (h : s.processSiteCmd user arg = .ok o) :
    o.session = s ∧ ∀ f ∈ o.effects, ∃ text u, f = .system text ∧ user = some u ∧
      u.extraCmd &&& extracmdExec = extracmdExec ∧ arg.take 5 = "EXEC ".toList := by
  unfold processSiteCmd at h
  split at h
  · rcases eq_ok_of_bind h with ⟨u, hu, h⟩
    have huser := deref_ok hu
    split at h
    · rename_i hprefix
      split at h
      · rename_i hexec
        cases h
        refine ⟨rfl, fun f hf ↦ ?_⟩
        change f ∈ (if 5 < arg.length then _ else _) at hf
        split at hf
        · cases List.mem_singleton.mp hf
          exact ⟨_, u, rfl, huser, hexec, hprefix⟩
        · cases hf
      · cases h
        exact ⟨rfl, by simp [answer]⟩
    · cases h
      exact ⟨rfl, by simp⟩
  · cases h
    exact ⟨rfl, by simp [answer]⟩

/-! ## Transfers -/

theorem processListCmd_spec {sslContext : Bool} {cmd : Command}
    (h : s.processListCmd env sslContext user cmd = .ok o) :
    Same s o.session ∧ ∀ f ∈ o.effects, f = .openData s.dataUseSsl ∨
      (f = .startList cmd ∧ ∃ u, user = some u ∧ u.holds .listDir = true) := by
  rcases eq_ok_of_bind h with ⟨u, hu, h⟩
  have huser := deref_ok hu
  split at h
  · cases h
    exact ⟨.refl s, by simp [answer]⟩
  · rename_i hholds
    rw [Bool.not_eq_false] at hholds
    split at h
    · cases h
      exact ⟨.refl s, by simp [answer]⟩
    · rcases eq_ok_of_ite_bind h with ⟨⟨t, opened, effects⟩, hopen, h⟩
      have hspec : Same s t ∧ ∀ f ∈ effects, f = .openData s.dataUseSsl := by
        split at hopen
        · exact openDataConnection_spec hopen
        · cases hopen
          exact ⟨.refl s, by simp⟩
      dsimp only at h
      split at h
      · cases h
        exact ⟨hspec.1, fun f hf ↦ .inl (hspec.2 f hf)⟩
      · split at h
        · cases h
          refine ⟨hspec.1, fun f hf ↦ ?_⟩
          rcases List.mem_append.mp hf with hf | hf
          · exact .inl (hspec.2 f hf)
          · cases List.mem_singleton.mp hf
            exact .inr ⟨rfl, u, huser, hholds⟩
        · cases h
          exact ⟨hspec.1, fun f hf ↦ .inl (hspec.2 f hf)⟩

theorem processRetrCmd_spec {sslContext : Bool}
    (h : s.processRetrCmd env sslContext user arg = .ok o) :
    Same s o.session ∧ ∀ f ∈ o.effects, Justified env s user arg f := by
  rcases eq_ok_of_bind h with ⟨u, hu, h⟩
  have huser := deref_ok hu
  split at h
  · cases h
    exact ⟨.refl s, by simp [answer]⟩
  · rename_i hholds
    rw [Bool.not_eq_false] at hholds
    split at h
    · split at h
      · cases h
        exact ⟨.refl s, by simp [answer]⟩
      · rcases eq_ok_of_bind h with ⟨⟨t, opened, effects⟩, hopen, h⟩
        rcases openDataConnection_spec hopen with ⟨hsame, heffects⟩
        have hopened : ∀ f ∈ effects, Justified env s user arg f := by
          intro f hf
          rw [heffects f hf]
          rfl
        have hpath : Built env s u arg
            (buildPath env.canonical u.homeDirectory t.currentDirectory arg) := by
          rw [hsame.currentDirectory]
          exact built_arg env s u arg true
        dsimp only at h
        split at h
        · cases h
          exact ⟨hsame, hopened⟩
        · split at h
          · split at h
            · cases h
              refine ⟨⟨hsame.currentDirectory, hsame.renameFromPath, hsame.dataUseSsl⟩, ?_⟩
              intro f hf
              rcases List.mem_append.mp hf with hf | hf
              · exact hopened f hf
              · simp only [List.mem_cons, List.not_mem_nil, or_false] at hf
                rcases hf with rfl | rfl
                · exact ⟨u, huser, hpath⟩
                · trivial
            · cases h
              refine ⟨⟨hsame.currentDirectory, hsame.renameFromPath, hsame.dataUseSsl⟩, ?_⟩
              intro f hf
              simp only [List.mem_append, List.mem_cons, List.not_mem_nil, or_false] at hf
              rcases hf with (hf | rfl | rfl) | rfl
              · exact hopened f hf
              · exact ⟨u, huser, hpath⟩
              · trivial
              · exact ⟨u, huser, hholds, hpath⟩
          · cases h
            refine ⟨hsame, fun f hf ↦ ?_⟩
            rcases List.mem_append.mp hf with hf | hf
            · exact hopened f hf
            · exact statusEffects_justified huser hpath f hf
    · cases h
      exact ⟨.refl s, by simp [answer]⟩

/-- The names that STOU tries are built like any other path, and so is the one it finds. -/
theorem searchUniqueName_spec {u : UserNode} (huser : user = some u) {left tried : Nat}
    {r : WString × List Effect}
    (h : searchUniqueName env u.homeDirectory s.currentDirectory left tried = .ok r) :
    (∃ n, Built env s u ("file.".toList ++ decimal n) r.1) ∧
    ∀ f ∈ r.2, ∃ n, Justified env s user ("file.".toList ++ decimal n) f := by
  induction left generalizing tried r with
  | zero => cases h
  | succ left ih =>
    have hpath := built_arg env s u ("file.".toList ++ decimal (env.rand tried)) true
    unfold searchUniqueName at h
    dsimp only at h
    split at h
    · rcases eq_ok_of_bind h with ⟨⟨found, effects⟩, hfound, h⟩
      cases h
      rcases ih hfound with ⟨hbuilt, heffects⟩
      refine ⟨hbuilt, fun f hf ↦ ?_⟩
      rcases List.mem_cons.mp hf with rfl | hf
      · exact ⟨_, u, huser, hpath⟩
      · exact heffects f hf
    · cases h
      refine ⟨⟨_, hpath⟩, fun f hf ↦ ?_⟩
      cases List.mem_singleton.mp hf
      exact ⟨_, u, huser, hpath⟩

theorem buildPath_eq_nil (env : Env) (start current asked : WString) (bcanonical : Bool) :
    buildPath env.canonical start current asked bcanonical = [] ↔ start = [] ∨ current = [] := by
  have happend : ∀ l r : WString, l ≠ [] → pathAppend l r ≠ [] := by
    intro l r hl
    unfold pathAppend
    split
    · exact hl
    · split
      · simp [hl]
      · split <;> simp [hl]
  unfold buildPath
  by_cases hempty : start = [] ∨ current = []
  · rw [if_neg (by tauto)]
    simp [hempty]
  · rw [not_or] at hempty
    rw [if_pos hempty]
    simp only [hempty.1, hempty.2, or_self, iff_false]
    generalize hraw : (if asked ≠ [] then
        if asked.head? = some '/' ∨ asked.head? = some '\\' then pathAppend start asked
        else pathAppend (pathAppend start current) asked
      else pathAppend start current) = raw
    have hne : raw ≠ [] := by
      rw [← hraw]
      split
      · split
        · exact happend _ _ hempty.1
        · exact happend _ _ (happend _ _ hempty.1)
      · exact happend _ _ hempty.1
    split
    · generalize hslash : (if raw = "//".toList then "/".toList else raw) = path
      have hpath : path ≠ [] := by
        rw [← hslash]
        split
        · decide
        · exact hne
      cases hcanonical : env.canonical path with
      | none => simpa using hpath
      | some q =>
        have habsolute := env.canonical_absolute hcanonical
        rintro rfl
        cases habsolute
    · exact hne

theorem processStorCmd_spec {sslContext : Bool} {cmd : Command}
    (h : s.processStorCmd env sslContext user cmd = .ok o) :
    Same s o.session ∧ ∀ f ∈ o.effects, JustifiedBy env s user cmd f := by
  rcases eq_ok_of_bind h with ⟨u, hu, h⟩
  have huser := deref_ok hu
  split at h
  · cases h
    exact ⟨.refl s, by simp [answer]⟩
  · rename_i hholds
    rw [Bool.not_eq_false] at hholds
    split at h
    · split at h
      · cases h
        exact ⟨.refl s, by simp [answer]⟩
      · rcases eq_ok_of_bind h with ⟨⟨t, opened, effects⟩, hopen, h⟩
        rcases openDataConnection_spec hopen with ⟨hsame, heffects⟩
        have hopened : ∀ f ∈ effects, JustifiedBy env s user cmd f := by
          intro f hf
          rcases exists_asks cmd with ⟨asked, hasks⟩
          rw [heffects f hf]
          exact ⟨asked, hasks, rfl⟩
        dsimp only at h
        split at h
        · cases h
          exact ⟨hsame, hopened⟩
        · rcases eq_ok_of_ite_bind h with ⟨⟨unique, searched⟩, hsearch, h⟩
          rw [hsame.currentDirectory] at hsearch
          have hunique : (cmd.id = .STOU → ∃ n, Built env s u ("file.".toList ++ decimal n) unique) ∧
              (cmd.id ≠ .STOU → unique = []) ∧ ∀ f ∈ searched, JustifiedBy env s user cmd f := by
            split at hsearch
            · rename_i hid
              rcases searchUniqueName_spec huser hsearch with ⟨hbuilt, hsearched⟩
              refine ⟨fun _ ↦ hbuilt, fun hne ↦ absurd hid hne, fun f hf ↦ ?_⟩
              rcases hsearched f hf with ⟨n, hf⟩
              exact ⟨_, (if_pos hid).mpr ⟨n, rfl⟩, hf⟩
            · rename_i hid
              cases hsearch
              exact ⟨fun heq ↦ absurd heq hid, fun _ ↦ rfl, by simp⟩
          dsimp only at h
          generalize hpath : (if unique ≠ [] then unique else buildPath env.canonical
            u.homeDirectory t.currentDirectory cmd.args false) = path at h
          have hbuilt : path ≠ [] → ∃ asked, cmd.Asks asked ∧ Built env s u asked path := by
            rw [← hpath, hsame.currentDirectory]
            intro hne
            by_cases hid : cmd.id = .STOU
            · rcases hunique.1 hid with ⟨n, hbuilt⟩
              refine ⟨_, (if_pos hid).mpr ⟨n, rfl⟩, ?_⟩
              split
              · exact hbuilt
              · -- STOU finds no name only where no path can be built at all
                rename_i hnone
                rw [if_neg hnone] at hne
                rw [not_not] at hnone
                rcases hbuilt with ⟨bcanonical, hbuilt⟩
                rw [hnone] at hbuilt
                exact absurd ((buildPath_eq_nil ..).mpr ((buildPath_eq_nil ..).mp hbuilt.symm)) hne
            · refine ⟨cmd.args, (if_neg hid).mpr rfl, ?_⟩
              rw [if_neg (not_not.mpr (hunique.2.1 hid))]
              exact built_arg env s u cmd.args false
          split at h
          · rename_i hne
            rcases hbuilt hne with ⟨asked, hasks, hbuilt⟩
            generalize hsized : (if cmd.id = .APPE then
                if (env.getFileStatus path).isSome then
                  ((((env.fileSize path).getD 0 : Nat) : Int),
                    [Effect.status path, Effect.fileSize path])
                else (0, [Effect.status path])
              else (t.restartAt, [])) = sized at h
            have hasked : ∀ f ∈ sized.2, JustifiedBy env s user cmd f := by
              rw [← hsized]
              intro f hf
              split at hf
              · split at hf
                · simp only [List.mem_cons, List.not_mem_nil, or_false] at hf
                  rcases hf with rfl | rfl <;> exact ⟨asked, hasks, u, huser, hbuilt⟩
                · cases List.mem_singleton.mp hf
                  exact ⟨asked, hasks, u, huser, hbuilt⟩
              · cases hf
            have hbefore : ∀ f ∈ effects ++ searched ++ sized.2,
                JustifiedBy env s user cmd f := by
              intro f hf
              simp only [List.mem_append] at hf
              rcases hf with (hf | hf) | hf
              · exact hopened f hf
              · exact hunique.2.2 f hf
              · exact hasked f hf
            split at h
            · cases h
              refine ⟨⟨hsame.currentDirectory, hsame.renameFromPath, hsame.dataUseSsl⟩, ?_⟩
              intro f hf
              rcases List.mem_append.mp hf with hf | hf
              · exact hbefore f hf
              · cases List.mem_singleton.mp hf
                exact ⟨asked, hasks, trivial⟩
            · cases h
              refine ⟨⟨hsame.currentDirectory, hsame.renameFromPath, hsame.dataUseSsl⟩, ?_⟩
              intro f hf
              rcases List.mem_append.mp hf with hf | hf
              · rcases List.mem_append.mp hf with hf | hf
                · exact hbefore f hf
                · cases List.mem_singleton.mp hf
                  exact ⟨asked, hasks, trivial⟩
              · cases List.mem_singleton.mp hf
                exact ⟨asked, hasks, u, huser, hholds, hbuilt⟩
          · cases h
            refine ⟨hsame, fun f hf ↦ ?_⟩
            rcases List.mem_append.mp hf with hf | hf
            · exact hopened f hf
            · exact hunique.2.2 f hf
    · cases h
      exact ⟨.refl s, by simp [answer]⟩

end Session

/-! ## All handlers -/

/-- What is common to the handlers of a session: which command changes what, and what the effects
rest on. -/
structure HandlerSpec (env : Env) (s : Session) (user : Option UserNode) (cmd : Command)
    (o : Outcome) : Prop where
  currentDirectory : o.session.currentDirectory = s.currentDirectory ∨
    (cmd.id = .CDUP ∧ o.session.currentDirectory = Session.parentDirectory s.currentDirectory) ∨
    (cmd.id = .CWD ∧ ∃ u path, user = some u ∧ Built env s u cmd.args path ∧
      (statusOf env path).any isDirectory = true ∧
      o.session.currentDirectory = Session.directoryBelow u.homeDirectory path)
  renameFromPath : o.session.renameFromPath = s.renameFromPath ∨ o.session.renameFromPath = [] ∨
    (cmd.id = .RNFR ∧ ∃ u, user = some u ∧ u.holds .deleteFile = true ∧
      Built env s u cmd.args o.session.renameFromPath)
  dataUseSsl : o.session.dataUseSsl = s.dataUseSsl ∨ cmd.id = .PROT
  effects : ∀ f ∈ o.effects, JustifiedBy env s user cmd f

namespace HandlerSpec

variable {env : Env} {s : Session} {user : Option UserNode} {cmd : Command} {o : Outcome}

theorem of_same (h : Session.Same s o.session ∧ ∀ f ∈ o.effects, JustifiedBy env s user cmd f) :
    HandlerSpec env s user cmd o :=
  ⟨.inl h.1.currentDirectory, .inl h.1.renameFromPath, .inl h.1.dataUseSsl, h.2⟩

theorem of_quiet (h : Session.Same s o.session ∧ o.effects = []) :
    HandlerSpec env s user cmd o :=
  of_same ⟨h.1, by simp [h.2]⟩

/-- Effects that rest on the argument of the command. -/
theorem asks_args (hid : cmd.id ≠ .STOU) (h : ∀ f ∈ o.effects, Justified env s user cmd.args f) :
    ∀ f ∈ o.effects, JustifiedBy env s user cmd f :=
  fun f hf ↦ ⟨cmd.args, (if_neg hid).mpr rfl, h f hf⟩

theorem of_args (hid : cmd.id ≠ .STOU)
    (h : Session.Same s o.session ∧ ∀ f ∈ o.effects, Justified env s user cmd.args f) :
    HandlerSpec env s user cmd o :=
  of_same ⟨h.1, asks_args hid h.2⟩

theorem of_list (hid : cmd.id ≠ .STOU)
    (h : Session.Same s o.session ∧ ∀ f ∈ o.effects, f = .openData s.dataUseSsl ∨
      (f = .startList cmd ∧ ∃ u, user = some u ∧ u.holds .listDir = true)) :
    HandlerSpec env s user cmd o := by
  refine of_args hid ⟨h.1, fun f hf ↦ ?_⟩
  rcases h.2 f hf with rfl | ⟨rfl, hholds⟩
  · rfl
  · exact ⟨rfl, hholds⟩

end HandlerSpec

open Session in
theorem FtpServer.SessionRun.spec {build : Build} {env : Env} {σ : FtpServer} {c : ClientRef}
    {cmd : Command} {o : Outcome} {ports : DataPorts}
    (h : FtpServer.SessionRun build env σ c cmd o ports) :
    HandlerSpec env (σ.nodes c).toSession ((σ.nodes c).user.map σ.userManager.users) cmd o := by
  cases h with
  | pasv _ h => exact .of_quiet (processPasvCmd_spec h)
  | plain => exact .of_quiet ⟨.refl _, rfl⟩
  | handler h =>
    unfold FtpServer.sessionHandler at h
    dsimp only at h
    cases hid : cmd.id <;> rw [hid] at h <;> dsimp only at h
    case SITE =>
      split at h
      · rcases processSiteCmd_spec (Option.some.inj h) with ⟨hsession, heffects⟩
        refine .of_args (by rw [hid]; decide) ⟨hsession ▸ .refl _, fun f hf ↦ ?_⟩
        rcases heffects f hf with ⟨text, u, rfl, huser, hexec, -⟩
        exact ⟨u, huser, hexec⟩
      · cases h
    case TYPE =>
      cases h
      exact .of_quiet (processTypeCmd_spec _ _)
    case PORT => exact .of_quiet (processPortCmd_spec (Option.some.inj h))
    case LIST | NLST | MLSD =>
      exact .of_list (by rw [hid]; decide) (processListCmd_spec (Option.some.inj h))
    case CWD =>
      have hstou : cmd.id ≠ .STOU := by rw [hid]; decide
      rcases processCwdCmd_spec (Option.some.inj h) with ⟨hsession, heffects⟩
      rcases hsession with hsame | ⟨u, path, huser, hpath, hdirectory, hsession⟩
      · exact .of_args hstou ⟨hsame, heffects⟩
      · refine ⟨.inr (.inr ⟨hid, u, path, huser, hpath, hdirectory, ?_⟩), .inl ?_, .inl ?_,
          HandlerSpec.asks_args hstou heffects⟩ <;> rw [hsession]
    case PROT =>
      cases h
      rcases processProtCmd_spec build (σ.usesSsl c) cmd.args (σ.nodes c).toSession
        with ⟨hdirectory, hrename, heffects⟩
      exact ⟨.inl hdirectory, .inl hrename, .inr hid, by simp [heffects]⟩
    case AUTH =>
      cases h
      rcases processAuthCmd_spec build σ.sslContext (σ.usesSsl c) cmd.args (σ.nodes c).toSession
        with ⟨hsession, heffects⟩
      refine .of_args (by rw [hid]; decide) ⟨by rw [hsession]; exact .refl _, fun f hf ↦ ?_⟩
      rcases heffects f hf with rfl | ⟨text, rfl⟩ <;> trivial
    case MDTM => exact .of_args (by rw [hid]; decide) (processMdtmCmd_spec (Option.some.inj h))
    case CDUP =>
      cases h
      exact ⟨.inr (.inl ⟨hid, rfl⟩), .inl rfl, .inl rfl, by simp [processCdupCmd, answer]⟩
    case STAT =>
      split at h
      · exact .of_list (by rw [hid]; decide) (processListCmd_spec (Option.some.inj h))
      · cases h
    case ABOR =>
      rcases processAborCmd_spec (Option.some.inj h) with ⟨hsame, heffects⟩
      refine .of_args (by rw [hid]; decide) ⟨hsame, fun f hf ↦ ?_⟩
      rcases heffects f hf with ⟨text, rfl⟩
      trivial
    case REST =>
      cases h
      exact .of_quiet (processRestCmd_spec _ _)
    case RETR => exact .of_args (by rw [hid]; decide) (processRetrCmd_spec (Option.some.inj h))
    case STOR | APPE | STOU => exact .of_same (processStorCmd_spec (Option.some.inj h))
    case SIZE => exact .of_args (by rw [hid]; decide) (processSizeCmd_spec (Option.some.inj h))
    case DELE => exact .of_args (by rw [hid]; decide) (processDelCmd_spec (Option.some.inj h))
    case RNFR =>
      have hstou : cmd.id ≠ .STOU := by rw [hid]; decide
      rcases processRnfrCmd_spec (Option.some.inj h) with ⟨hsession, heffects⟩
      rcases hsession with hsame | ⟨u, path, huser, hholds, hpath, hsession⟩
      · exact .of_args hstou ⟨hsame, heffects⟩
      · refine ⟨.inl ?_, .inr (.inr ⟨hid, u, huser, hholds, ?_⟩), .inl ?_,
          HandlerSpec.asks_args hstou heffects⟩ <;> rw [hsession]
        exact hpath
    case RNTO =>
      have hstou : cmd.id ≠ .STOU := by rw [hid]; decide
      rcases processRntoCmd_spec (Option.some.inj h) with ⟨hsession, heffects⟩
      rcases hsession with hsame | hsession
      · exact .of_args hstou ⟨hsame, heffects⟩
      · refine ⟨.inl ?_, .inr (.inl ?_), .inl ?_, HandlerSpec.asks_args hstou heffects⟩
          <;> rw [hsession]
    case MKD => exact .of_args (by rw [hid]; decide) (processMkdCmd_spec (Option.some.inj h))
    case RMD => exact .of_args (by rw [hid]; decide) (processRmdCmd_spec (Option.some.inj h))
    -- every other command has no handler of the session
    all_goals cases h

end YFtp
