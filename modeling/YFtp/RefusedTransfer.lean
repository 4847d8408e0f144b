import YFtp.DataChannel

/-!
# Refused transfers

What a transfer command leaves when it is answered with an error.  No exit of the three handlers
gives the data mode up or closes a socket, so the data channel is released afterwards exactly if
there was none before.
-/

namespace YFtp

open FtpServer (jobOf)

namespace Session

/-- The handler of a transfer command, as the switch chooses it. -/
def processTransferCmd (env : Env) (sslContext : Bool) (user : Option UserNode) (cmd : Command)
    (s : Session) : Except Fault Outcome :=
  match cmd.id with
  | .RETR => s.processRetrCmd env sslContext user cmd.args
  | .STOR | .APPE | .STOU => s.processStorCmd env sslContext user cmd
  | _ => s.processListCmd env sslContext user cmd

/-- A worker has been created. -/
def Starts (o : Outcome) : Prop := o.effects.filterMap jobOf ≠ []

/-- Network and threads are there for a transfer, and TLS where it is asked for. -/
structure Allows (env : Env) (sslContext : Bool) (s : Session) : Prop where
  openSocket : env.openSocket = true
  bindAndListen : ∀ tried port, env.bindAndListen tried port = true
  accept : env.accept = true
  connect : env.connect = true
  tls : s.dataUseSsl = true → sslContext = true ∧ env.handshake = true
  joinable : env.joinable = true

/-- The file system has what the command asks for, in the directory where the session stands. -/
structure Finds (env : Env) (user : UserNode) (cmd : Command) (s : Session) : Prop where
  path : Commands.transfersFile cmd.id = true → s.findsFile env user cmd = true
  name : cmd.id = .STOU → Theory.Returns
    (searchUniqueName env user.homeDirectory s.currentDirectory env.tries 0)

/-- Every transfer that the account may make starts. -/
def TransfersStart (user : UserNode) (env : Env) (sslContext : Bool) (s : Session) : Prop :=
  ∀ cmd, Commands.transfers cmd.id = true → entitled (some user) cmd = true →
    Finds env user cmd s →
      ∃ o, s.processTransferCmd env sslContext (some user) cmd = .ok o ∧ Starts o

/-- PASV and PORT are accepted, and every transfer that follows starts. -/
def Recovers (user : UserNode) (s : Session) : Prop :=
  ∀ env sslContext, Allows env sslContext s →
    (∀ ip ports, ∃ o ports', s.processPasvCmd env ip ports = .ok (o, ports') ∧
      o.reply.code = 227 ∧ TransfersStart user env sslContext o.session) ∧
    ∀ arg, portNumbers arg ≠ none → ∃ o, s.processPortCmd arg = .ok o ∧
      o.reply.code = 200 ∧ TransfersStart user env sslContext o.session

/-- No socket of the data channel is open. -/
structure NoSocket (s : Session) : Prop where
  socket : ∀ state ∈ s.dataSocket, state = .closed
  acceptor : ∀ state ∈ s.dataAcceptor, state = .closed

/-- The data channel is released. -/
structure Released (user : UserNode) (s : Session) : Prop where
  status : s.curStatus = .waiting
  mode : s.curDataMode = .none
  noSocket : s.NoSocket
  recovers : s.Recovers user

section Handlers

variable {env : Env} {sslContext : Bool} {user : Option UserNode} {u : UserNode} {cmd : Command}
  {arg : WString} {s t : Session} {o : Outcome} {opened : Bool} {fx : List Effect}

/-! ## Refusals -/

theorem openDataConnection_mode (h : s.openDataConnection env sslContext = .ok (t, opened, fx)) :
    t.curDataMode = s.curDataMode ∧ (s.curDataMode = .none → opened = false ∧ t = s) := by
  have hsecure : ∀ s' : Session, (s'.secureData env sslContext).1.curDataMode = s'.curDataMode := by
    intro s'
    unfold secureData
    dsimp only
    split
    · split
      · rfl
      · split <;> rfl
    · rfl
  unfold openDataConnection at h
  cases hmode : s.curDataMode with
  | none =>
    rw [hmode] at h
    cases h
    exact ⟨hmode, fun _ ↦ ⟨rfl, rfl⟩⟩
  | pasv =>
    rw [hmode] at h
    dsimp only at h
    split at h
    · cases h
    · refine ⟨?_, fun h ↦ by cases h⟩
      split at h
      · rw [Except.ok.injEq] at h
        have ht : t = (secureData env sslContext _).1 := (congrArg Prod.fst h).symm
        rw [ht, hsecure]
      · cases h
        rfl
  | port =>
    rw [hmode] at h
    dsimp only at h
    refine ⟨?_, fun h ↦ by cases h⟩
    split at h
    · cases h
      rfl
    · split at h
      · cases h
        rfl
      · rw [Except.ok.injEq] at h
        have ht : t = (secureData env sslContext _).1 := (congrArg Prod.fst h).symm
        rw [ht, hsecure]

/-- The data mode is kept, and without one nothing is changed at all. -/
structure Kept (s : Session) (o : Outcome) : Prop where
  mode : o.session.curDataMode = s.curDataMode
  same : s.curDataMode = .none → o.session = s

theorem Kept.refl {s : Session} (h : o.session = s) : Kept s o :=
  ⟨congrArg curDataMode h, fun _ ↦ h⟩

-- behind `open_data_connection`, which needs a data mode to succeed
theorem Kept.of_open (hopen : s.openDataConnection env sslContext = .ok (t, opened, fx))
    (hmode : o.session.curDataMode = t.curDataMode)
    (hclosed : opened = false → o.session = t) : Kept s o := by
  rcases openDataConnection_mode hopen with ⟨hsame, hnone⟩
  refine ⟨hmode.trans hsame, fun h ↦ ?_⟩
  rcases hnone h with ⟨hopened, ht⟩
  exact (hclosed hopened).trans ht

theorem processListCmd_kept (hid : cmd.id ≠ .STAT)
    (h : s.processListCmd env sslContext user cmd = .ok o) (herror : 400 ≤ o.reply.code) :
    Kept s o := by
  rcases eq_ok_of_bind h with ⟨u, -, h⟩
  split at h
  · cases h
    exact .refl rfl
  · split at h
    · cases h
      exact .refl rfl
    · rcases eq_ok_of_bind h with ⟨⟨t, opened, fx⟩, hopen, h⟩
      dsimp only at h
      split at h
      · cases h
        exact .of_open hopen rfl fun _ ↦ rfl
      · split at h
        · cases h
          cases herror
        · cases h
          exact .of_open hopen rfl fun _ ↦ rfl

theorem processRetrCmd_kept (h : s.processRetrCmd env sslContext user arg = .ok o)
    (herror : 400 ≤ o.reply.code) : Kept s o := by
  rcases eq_ok_of_bind h with ⟨u, -, h⟩
  split at h
  · cases h
    exact .refl rfl
  · split at h
    · split at h
      · cases h
        exact .refl rfl
      · rcases eq_ok_of_bind h with ⟨⟨t, opened, fx⟩, hopen, h⟩
        dsimp only at h
        split at h
        · cases h
          exact .of_open hopen rfl fun _ ↦ rfl
        · rename_i hopened
          split at h
          · split at h
            · cases h
              exact .of_open hopen rfl fun hclosed ↦ absurd hclosed hopened
            · cases h
              cases herror
          · cases h
            exact .of_open hopen rfl fun _ ↦ rfl
    · cases h
      exact .refl rfl

theorem processStorCmd_kept (h : s.processStorCmd env sslContext user cmd = .ok o)
    (herror : 400 ≤ o.reply.code) : Kept s o := by
  rcases eq_ok_of_bind h with ⟨u, -, h⟩
  split at h
  · cases h
    exact .refl rfl
  · split at h
    · split at h
      · cases h
        exact .refl rfl
      · rcases eq_ok_of_bind h with ⟨⟨t, opened, fx⟩, hopen, h⟩
        dsimp only at h
        split at h
        · cases h
          exact .of_open hopen rfl fun _ ↦ rfl
        · rename_i hopened
          rcases eq_ok_of_ite_bind h with ⟨⟨unique, searched⟩, -, h⟩
          dsimp only at h
          generalize (if unique ≠ [] then unique else buildPath env.canonical u.homeDirectory
            t.currentDirectory cmd.args false) = path at h
          split at h
          · split at h
            · cases h
              exact .of_open hopen rfl fun hclosed ↦ absurd hclosed hopened
            · cases h
              cases herror
          · cases h
            cases herror
    · cases h
      exact .refl rfl

theorem processTransferCmd_kept (hid : Commands.transfers cmd.id = true)
    (h : s.processTransferCmd env sslContext user cmd = .ok o) (herror : 400 ≤ o.reply.code) :
    Kept s o := by
  have hstat : cmd.id ≠ .STAT := by
    intro hstat
    rw [hstat] at hid
    cases hid
  unfold processTransferCmd at h
  split at h
  · exact processRetrCmd_kept h herror
  · exact processStorCmd_kept h herror
  · exact processStorCmd_kept h herror
  · exact processStorCmd_kept h herror
  · exact processListCmd_kept hstat h herror

/-! ## Transfers that start -/

theorem openDataConnection_opens (hopens : s.dataOpens env sslContext = true)
    (hsafe : s.OpensSafely) : ∃ t fx, s.openDataConnection env sslContext = .ok (t, true, fx) ∧
      t.currentDirectory = s.currentDirectory := by
  rcases (openDataConnection_returns_iff env s sslContext).mpr hsafe with ⟨⟨t, opened, fx⟩, hopen⟩
  have hopened := openDataConnection_opened hopen
  have htrue : opened = true := hopened.opened_iff.trans hopens
  rw [htrue] at hopen
  exact ⟨t, fx, hopen, hopened.currentDirectory⟩

theorem starts_append {t : Session} {r : Reply} {f : Effect} (h : jobOf f ≠ none) :
    Starts { session := t, reply := r, effects := fx ++ [f] } := by
  unfold Starts
  rw [List.filterMap_append]
  intro hnil
  have hlast := (List.append_eq_nil_iff.mp hnil).2
  cases hjob : jobOf f with
  | none => exact h hjob
  | some job =>
    rw [List.filterMap_cons_some hjob] at hlast
    cases hlast

theorem processListCmd_starts (hid : cmd.id ≠ .STAT) (hholds : u.holds .listDir = true)
    (hwaiting : s.curStatus = .waiting) (hopens : s.dataOpens env sslContext = true)
    (hsafe : s.OpensSafely) (hjoinable : env.joinable = true) :
    ∃ o, s.processListCmd env sslContext (some u) cmd = .ok o ∧ Starts o := by
  rcases openDataConnection_opens hopens hsafe with ⟨t, fx, hopen, -⟩
  refine ⟨{ session := t, effects := fx ++ [.startList cmd] }, ?_, starts_append nofun⟩
  unfold processListCmd
  show (if u.holds .listDir = false then _ else _) = _
  rw [if_neg (by rw [hholds]; decide), if_neg fun h ↦ h.2 hwaiting, if_pos hid, hopen]
  exact if_pos hjoinable

-- a file transfer that meets with no obstacle is not refused
theorem Acted.starts (h : Acted env sslContext user s cmd o)
    (hfile : Commands.transfersFile cmd.id = true)
    (hstarts : s.startsFile env sslContext user cmd = true) : Starts o := by
  have hopens : s.opensData user cmd = true := by
    unfold startsFile at hstarts
    rw [Bool.and_eq_true, Bool.and_eq_true, Bool.and_eq_true] at hstarts
    exact hstarts.1.1.1
  unfold Starts
  cases h with
  | keeps h hclosed => exact absurd hopens (by rw [hclosed]; decide)
  | stat hid => rw [hid] at hfile; cases hfile
  | prot hid => rw [hid] at hfile; cases hfile
  | abor hid => rw [hid] at hfile; cases hfile
  | rest hid => rw [hid] at hfile; cases hfile
  | address hid => rcases hid with hid | hid <;> rw [hid] at hfile <;> cases hfile
  | opens _ _ _ _ _ started =>
    cases started with
    | refused _ _ _ hnofile => exact absurd hstarts (by rw [hnofile]; decide)
    | list _ hid => exact absurd hfile (by rw [hid]; decide)
    | retrieve _ _ jobs => rw [jobs]; exact List.cons_ne_nil _ _
    | store _ _ jobs => rw [jobs]; exact List.cons_ne_nil _ _

theorem processTransferCmd_starts (hid : Commands.transfers cmd.id = true)
    (hentitled : entitled (some u) cmd = true) (hfinds : Finds env u cmd s)
    (hwaiting : s.curStatus = .waiting) (hopens : s.dataOpens env sslContext = true)
    (hsafe : s.OpensSafely) (hjoinable : env.joinable = true) :
    ∃ o, s.processTransferCmd env sslContext (some u) cmd = .ok o ∧ Starts o := by
  have hstarts : Commands.transfersFile cmd.id = true →
      s.startsFile env sslContext (some u) cmd = true := by
    intro hfile
    have hdata : s.opensData (some u) cmd = true := by
      simp [opensData, hid, hentitled, hwaiting]
    simp [startsFile, hdata, hopens, hjoinable, hfinds.path hfile]
  have hname : cmd.id = .STOU → s.FindsName env sslContext u.homeDirectory := by
    intro hstou r hopen _
    have hspec : OpenedData env sslContext s r.1 r.2.1 r.2.2 := openDataConnection_opened hopen
    rw [hspec.currentDirectory]
    have hreturns := (searchUniqueName_returns_iff ..).mp (hfinds.name hstou)
    simpa only [Nat.zero_add] using hreturns
  have hretr : cmd.id = .RETR → ∃ o,
      s.processRetrCmd env sslContext (some u) cmd.args = .ok o ∧ Starts o := by
    intro h
    rcases (processRetrCmd_returns_iff ..).mpr ⟨u, rfl, fun _ _ _ ↦ hsafe⟩ with ⟨o, ho⟩
    have hfile : Commands.transfersFile cmd.id = true := by rw [h]; rfl
    exact ⟨o, ho, (processRetrCmd_acted h ho).starts hfile (hstarts hfile)⟩
  have hstor : (cmd.id = .STOR ∨ cmd.id = .APPE ∨ cmd.id = .STOU) → ∃ o,
      s.processStorCmd env sslContext (some u) cmd = .ok o ∧ Starts o := by
    intro h
    rcases (processStorCmd_returns_iff ..).mpr ⟨u, rfl, fun _ _ _ ↦ ⟨hsafe, hname⟩⟩ with ⟨o, ho⟩
    have hfile : Commands.transfersFile cmd.id = true := by
      rcases h with h | h | h <;> rw [h] <;> rfl
    exact ⟨o, ho, (processStorCmd_acted h ho).starts hfile (hstarts hfile)⟩
  unfold processTransferCmd
  split
  · exact hretr ‹_›
  · exact hstor (.inl ‹_›)
  · exact hstor (.inr (.inl ‹_›))
  · exact hstor (.inr (.inr ‹_›))
  · have hlist : cmd.id ≠ .STAT ∧ u.holds .listDir = true := by
      unfold Commands.transfers at hid
      unfold entitled at hentitled
      split at hid <;> simp_all
    exact processListCmd_starts hlist.1 hlist.2 hwaiting hopens hsafe hjoinable

/-! ## Setting up the data connection again -/

variable {ip : Nat} {ports : DataPorts}

theorem resetDataMode_none (hmode : s.curDataMode = .none) : s.resetDataMode = .ok s := by
  unfold resetDataMode
  rw [if_neg (not_not.mpr hmode)]

theorem searchPort_found (henv : Allows env sslContext t) (start : UInt16) (num : Int)
    (left tried : Nat) (port cur : UInt16) :
    (searchPort env start num (left + 1) tried port cur).1 = true := by
  unfold searchPort
  dsimp only
  rw [if_pos (henv.bindAndListen ..)]

/-- The data connection waits for its peer, or for the command that connects to it. -/
structure Prepared (s t : Session) : Prop where
  status : t.curStatus = .waiting
  mode : (t.curDataMode = .pasv ∧ t.dataAcceptor = some .listening) ∨ t.curDataMode = .port
  dataUseSsl : t.dataUseSsl = s.dataUseSsl

theorem processPasvCmd_prepares (hwaiting : s.curStatus = .waiting) (hmode : s.curDataMode = .none)
    (henv : Allows env sslContext s) : ∃ o ports', s.processPasvCmd env ip ports = .ok (o, ports') ∧
      o.reply.code = 227 ∧ Prepared s o.session := by
  unfold processPasvCmd
  rw [if_neg (not_not.mpr hwaiting), resetDataMode_none hmode]
  show ∃ o ports', (if env.openSocket = false then _ else _) = _ ∧ _
  rw [if_neg (by rw [henv.openSocket]; decide)]
  by_cases hnum : ports.num = 0
  · -- any port that the system chooses
    rw [if_pos hnum, if_pos (henv.bindAndListen ..)]
    exact ⟨_, _, rfl, rfl, hwaiting, .inl ⟨rfl, rfl⟩, rfl⟩
  · rw [if_neg hnum]
    dsimp only
    rw [if_pos (searchPort_found henv ..)]
    exact ⟨_, _, rfl, rfl, hwaiting, .inl ⟨rfl, rfl⟩, rfl⟩

theorem processPortCmd_prepares (hwaiting : s.curStatus = .waiting) (hmode : s.curDataMode = .none)
    (harg : portNumbers arg ≠ none) : ∃ o, s.processPortCmd arg = .ok o ∧
      o.reply.code = 200 ∧ Prepared s o.session := by
  unfold processPortCmd
  rw [if_neg (not_not.mpr hwaiting), resetDataMode_none hmode]
  cases hnumbers : portNumbers arg with
  | none => exact absurd hnumbers harg
  | some numbers => exact ⟨_, rfl, rfl, hwaiting, .inr rfl, rfl⟩

theorem Prepared.dataOpens (h : Prepared s t) (henv : Allows env sslContext s) :
    t.dataOpens env sslContext = true := by
  have hconnects : t.connects env = true := by
    unfold connects
    rcases h.mode with ⟨hpasv, -⟩ | hport
    · rw [hpasv]
      exact henv.accept
    · rw [hport]
      show (env.openSocket && env.connect) = true
      rw [henv.openSocket, henv.connect]
      rfl
  unfold Session.dataOpens
  rw [hconnects, h.dataUseSsl]
  cases hssl : s.dataUseSsl with
  | false => rfl
  | true =>
    rcases henv.tls hssl with ⟨hcontext, hhandshake⟩
    rw [hcontext, hhandshake]
    simp

theorem Prepared.opensSafely (h : Prepared s t) : t.OpensSafely := by
  intro hpasv
  rcases h.mode with ⟨-, hlistening⟩ | hport
  · rw [hlistening]
    exact Option.some_ne_none _
  · rw [hport] at hpasv
    cases hpasv

theorem Prepared.transfersStart (h : Prepared s t) (henv : Allows env sslContext s) :
    t.TransfersStart u env sslContext :=
  fun _ hid hentitled hfinds ↦ processTransferCmd_starts hid hentitled hfinds h.status
    (h.dataOpens henv) h.opensSafely henv.joinable

theorem recovers_of_none (hwaiting : s.curStatus = .waiting) (hmode : s.curDataMode = .none) :
    s.Recovers u := by
  intro env sslContext henv
  refine ⟨fun ip ports ↦ ?_, fun arg harg ↦ ?_⟩
  · rcases processPasvCmd_prepares hwaiting hmode henv with ⟨o, ports', ho, hcode, hprepared⟩
    exact ⟨o, ports', ho, hcode, hprepared.transfersStart henv⟩
  · rcases processPortCmd_prepares hwaiting hmode harg with ⟨o, ho, hcode, hprepared⟩
    exact ⟨o, ho, hcode, hprepared.transfersStart henv⟩

/-! ## Releasing the data channel -/

-- without a data mode the handler changes nothing, and with one it keeps the mode
theorem processTransferCmd_releases (hwaiting : s.curStatus = .waiting)
    (hid : Commands.transfers cmd.id = true)
    (h : s.processTransferCmd env sslContext (some u) cmd = .ok o) (herror : 400 ≤ o.reply.code) :
    o.session.Released u ↔ s.curDataMode = .none ∧ s.NoSocket := by
  have hkept := processTransferCmd_kept hid h herror
  constructor
  · intro hreleased
    have hmode : s.curDataMode = .none := hkept.mode.symm.trans hreleased.mode
    have hsocket := hreleased.noSocket
    rw [hkept.same hmode] at hsocket
    exact ⟨hmode, hsocket⟩
  · rintro ⟨hmode, hsocket⟩
    rw [hkept.same hmode]
    exact ⟨hwaiting, hmode, hsocket, recovers_of_none hwaiting hmode⟩

end Handlers

-- RETR before any PASV or PORT
theorem processTransferCmd_releases_first : ∃ o : Outcome,
    processTransferCmd Sample.env false (some Sample.anonymous)
      ⟨.RETR, "notes", false, false⟩ {} = .ok o ∧
    400 ≤ o.reply.code ∧ o.session.Released Sample.anonymous := by
  have hrefused : processTransferCmd Sample.env false (some Sample.anonymous)
      ⟨.RETR, "notes", false, false⟩ {} = .ok (answer {} 425 "Can't open data connection.") := rfl
  refine ⟨_, hrefused, by decide, ?_⟩
  refine (processTransferCmd_releases rfl rfl hrefused (by decide)).mpr ⟨rfl, ?_, ?_⟩
  · exact nofun
  · exact nofun

/-- RETR of a missing file after PASV: 550, and the client's data connection stays open. -/
theorem processTransferCmd_releases_fails : ∃ (env : Env) (s : Session) (o : Outcome),
    s.curStatus = .waiting ∧
    processTransferCmd env false (some Sample.anonymous)
      ⟨.RETR, "notes", false, false⟩ s = .ok o ∧
    o.reply.code = 550 ∧ ¬Starts o ∧ o.session.curDataMode = .pasv ∧
    o.session.dataSocket = some .connected ∧ ¬o.session.Released Sample.anonymous := by
  refine ⟨{ Sample.env with getFileStatus := fun _ ↦ none },
    { dataAcceptor := some .listening, curDataMode := .pasv }, _, rfl, rfl, rfl, ?_, rfl, rfl, ?_⟩
  · exact fun hstarts ↦ hstarts rfl
  · exact fun hreleased ↦ nomatch hreleased.mode

end Session

-- the switch runs the handler on the session of the client node
theorem FtpServer.sessionHandler_transfer {build : Build} {env : Env} {σ : FtpServer}
    {c : ClientRef} {cmd : Command} (hid : Commands.transfers cmd.id = true) :
    σ.sessionHandler build env c cmd = some ((σ.nodes c).processTransferCmd env σ.sslContext
      ((σ.nodes c).user.map σ.userManager.users) cmd) := by
  unfold sessionHandler Session.processTransferCmd
  unfold Commands.transfers at hid
  dsimp only
  split at hid <;> simp_all

end YFtp
