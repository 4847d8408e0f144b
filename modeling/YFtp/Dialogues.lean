import YFtp.DataProtection
import YFtp.RefusedTransfer
import YFtp.ThreadRecords
import YFtp.Timestamps

/-!
# Dialogues

What the two ends of a control connection have settled there: where the next data connection goes
and how it is protected, and what the next RNTO renames.  Both can tell it from the commands and the
replies alone, whatever the threads of the session do in between.
-/

namespace YFtp

/-- Where a data connection goes: the client waits there after PORT, the server after PASV. -/
structure Peer where
  mode : DataMode
  ip : Nat
  port : Nat
deriving DecidableEq, Repr

/-- An address in six numbers. -/
def readPeer (mode : DataMode) (numbers : WString) : Option Peer :=
  match scanUnsignedList 6 numbers with
  | some [ip1, ip2, ip3, ip4, port1, port2] => some
    { mode, ip := ip1 * 2 ^ 24 + ip2 * 2 ^ 16 + ip3 * 2 ^ 8 + ip4, port := port1 * 256 + port2 }
  | _ => none

/-- What stands in the first pair of brackets. -/
def bracketed (text : WString) : WString :=
  ((text.dropWhile fun c ↦ decide (c ≠ '(')).drop 1).takeWhile fun c ↦ decide (c ≠ ')')

/-- What has been settled so far. -/
structure Dialogue where
  protectData : Bool := false
  peer : Option Peer := none
  renameFrom : Option WString := none
deriving DecidableEq, Repr

/-- One command and the reply to it; `path` is what the argument leads to. -/
def Dialogue.hears (d : Dialogue) (cmd : Command) (path : WString) (r : Reply) : Dialogue :=
  match cmd.id with
  | .PROT => if r.code = 200 then { d with protectData := cmd.args = "P".toList } else d
  | .PORT => if r.code = 200 then { d with peer := readPeer .port cmd.args } else d
  | .PASV => if r.code = 227 then { d with peer := readPeer .pasv (bracketed r.content) } else d
  | .RNFR => if r.code = 350 then { d with renameFrom := some path } else d
  | .RNTO => if r.code = 250 ∨ r.code = 550 then { d with renameFrom := none } else d
  | .REIN => { d with peer := none, renameFrom := none }
  | _ => d

/-- The address that `open_data_connection` works with. -/
def ClientNode.peer (n : ClientNode) : Option Peer :=
  match n.curDataMode with
  | .none => none
  | .pasv => some ⟨.pasv, n.serverIp % 2 ^ 32, n.dataPort⟩
  | .port => some ⟨.port, n.dataIp, n.dataPort⟩

/-- The client node goes by what has been settled. -/
structure Agrees (d : Dialogue) (n : ClientNode) : Prop where
  protectData : n.dataUseSsl = d.protectData
  peer : ∀ p ∈ n.peer, d.peer = some p
  renameFrom : n.renameFromPath = d.renameFrom.getD []

namespace Talk

/-- What the argument of a command leads to. -/
def asked (c : ClientRef) (w : Talk) (env : Env) (cmd : Command) : WString :=
  (w.account c).elim [] fun u ↦ (w.node c).pathOf env u cmd.args

/-- What has been settled in a conversation. -/
def dialogue (build : Build) (c : ClientRef) : List (Talk × Act) → Dialogue
  | [] => {}
  | (w, .command cmd env) :: older =>
    match w.server.runSwitch build env c cmd with
    | .ok a => (dialogue build c older).hears cmd (w.asked c env cmd) a.reply
    | .error _ => dialogue build c older
  | _ :: older => dialogue build c older

end Talk

/-! ## Numbers -/

theorem takeWhile_bracketed {text rest : WString} (htext : '(' ∉ text) {numbers : WString}
    (hnumbers : ')' ∉ numbers) : bracketed (text ++ '(' :: (numbers ++ ')' :: rest)) = numbers := by
  have hopen : ∀ c ∈ text, decide (c ≠ '(') = true := by
    intro c hc
    exact decide_eq_true fun heq ↦ htext (heq ▸ hc)
  have hclose : ∀ c ∈ numbers, decide (c ≠ ')') = true := by
    intro c hc
    exact decide_eq_true fun heq ↦ hnumbers (heq ▸ hc)
  unfold bracketed
  rw [List.dropWhile_append_of_pos hopen, List.dropWhile_cons_of_neg (by decide), List.drop_one,
    List.tail_cons, List.takeWhile_append_of_pos hclose, List.takeWhile_cons_of_neg (by decide),
    List.append_nil]

theorem bracket_notMem_pasvNumbers (ip port : Nat) : ')' ∉ pasvNumbers ip port := by
  have hdecimal (n : Nat) : ')' ∉ decimal n := fun h ↦ by cases isDigit_decimal ')' h
  simp [pasvNumbers, commaList, hdecimal]

theorem readPeer_pasvNumbers {ip port : Nat} (hport : port < 2 ^ 16) :
    readPeer .pasv (pasvNumbers ip port) = some ⟨.pasv, ip % 2 ^ 32, port⟩ := by
  have hsmall : ∀ n ∈ [ip / 2 ^ 24 % 256, ip / 2 ^ 16 % 256, ip / 2 ^ 8 % 256, ip % 256,
      port / 256, port % 256], n < 2 ^ 32 := by
    intro n hn
    simp only [List.mem_cons, List.not_mem_nil, or_false] at hn
    omega
  have hscan : scanUnsignedList 6 (pasvNumbers ip port) = some _ :=
    scanUnsignedList_commaList hsmall
  unfold readPeer
  rw [hscan]
  simp only [Option.some.injEq, Peer.mk.injEq, true_and]
  omega

/-! ## Handlers -/

namespace Session

variable {env : Env} {sslContext tls : Bool} {user : Option UserNode} {cmd : Command}
  {arg : WString} {s t : Session} {o : Outcome}

/-- The handler leaves the address alone, and makes a data connection only to an address. -/
structure KeepsAddress (s : Session) (o : Outcome) : Prop where
  mode : o.session.curDataMode = s.curDataMode
  dataIp : o.session.dataIp = s.dataIp
  dataPort : o.session.dataPort = s.dataPort
  opens : ∀ tls, .openData tls ∈ o.effects → s.curDataMode ≠ .none

theorem KeepsAddress.of_keeps (h : Keeps s o) (hopens : ∀ tls, .openData tls ∉ o.effects) :
    KeepsAddress s o :=
  ⟨h.same.curDataMode, h.same.dataIp, h.same.dataPort, fun tls hopen ↦ absurd hopen (hopens tls)⟩

theorem KeepsAddress.answer (s : Session) (code : Nat) (text : WString) :
    KeepsAddress s (s.answer code text) :=
  ⟨rfl, rfl, rfl, fun _ hopen ↦ by cases hopen⟩

theorem statusEffects_openData (path : WString) : .openData tls ∉ statusEffects path := by
  unfold statusEffects
  split <;> simp

theorem secureData_address (env : Env) (sslContext : Bool) (s : Session) :
    (s.secureData env sslContext).1.curDataMode = s.curDataMode ∧
    (s.secureData env sslContext).1.dataIp = s.dataIp ∧
    (s.secureData env sslContext).1.dataPort = s.dataPort := by
  unfold secureData
  dsimp only
  split
  · split
    · exact ⟨rfl, rfl, rfl⟩
    · split <;> exact ⟨rfl, rfl, rfl⟩
  · exact ⟨rfl, rfl, rfl⟩

theorem openDataConnection_address {opened : Bool} {fx : List Effect}
    (h : s.openDataConnection env sslContext = .ok (t, opened, fx)) :
    KeepsAddress s { session := t, effects := fx } := by
  have hsecure : ∀ socket acceptor,
      ({ s with dataSocket := socket, dataAcceptor := acceptor } : Session).secureData env
        sslContext = (t, opened, fx) → s.curDataMode ≠ .none →
      KeepsAddress s { session := t, effects := fx } := by
    intro socket acceptor hsecured hmode
    have haddress := secureData_address env sslContext
      { s with dataSocket := socket, dataAcceptor := acceptor }
    rw [hsecured] at haddress
    exact ⟨haddress.1, haddress.2.1, haddress.2.2, fun _ _ ↦ hmode⟩
  unfold openDataConnection at h
  split at h
  · cases h
    exact ⟨rfl, rfl, rfl, fun _ hopen ↦ by cases hopen⟩
  · rename_i hmode
    have hsome : s.curDataMode ≠ .none := by rw [hmode]; decide
    split at h
    · cases h
    · dsimp only at h
      split at h
      · exact hsecure _ _ (Except.ok.inj h) hsome
      · cases h
        exact ⟨rfl, rfl, rfl, fun _ hopen ↦ by cases hopen⟩
  · rename_i hmode
    have hsome : s.curDataMode ≠ .none := by rw [hmode]; decide
    split at h
    · cases h
      exact ⟨rfl, rfl, rfl, fun _ hopen ↦ by cases hopen⟩
    · split at h
      · cases h
        exact ⟨rfl, rfl, rfl, fun _ hopen ↦ by cases hopen⟩
      · exact hsecure _ _ (Except.ok.inj h) hsome

-- what a handler adds to the effects of `open_data_connection`
theorem KeepsAddress.extend {fx more : List Effect} {r : Reply} {t' : Session}
    (h : KeepsAddress s { session := t, effects := fx }) (hmode : t'.curDataMode = t.curDataMode)
    (hip : t'.dataIp = t.dataIp) (hport : t'.dataPort = t.dataPort)
    (hmore : ∀ tls, .openData tls ∉ more) :
    KeepsAddress s { session := t', reply := r, effects := fx ++ more } := by
  refine ⟨hmode.trans h.mode, hip.trans h.dataIp, hport.trans h.dataPort, ?_⟩
  intro tls hopen
  rcases List.mem_append.mp hopen with hopen | hopen
  · exact h.opens tls hopen
  · exact absurd hopen (hmore tls)

theorem KeepsAddress.withReply {fx : List Effect}
    (h : KeepsAddress s { session := t, effects := fx }) (code : Nat) (text : WString) :
    KeepsAddress s (t.answer code text fx) :=
  ⟨h.mode, h.dataIp, h.dataPort, h.opens⟩

theorem processListCmd_address (h : s.processListCmd env sslContext user cmd = .ok o) :
    KeepsAddress s o := by
  rcases eq_ok_of_bind h with ⟨u, -, h⟩
  split at h
  · cases h
    exact .answer s _ _
  · split at h
    · cases h
      exact .answer s _ _
    · rcases eq_ok_of_ite_bind h with ⟨⟨t, opened, fx⟩, hopen, h⟩
      have haddress : KeepsAddress s { session := t, effects := fx } := by
        split at hopen
        · exact openDataConnection_address hopen
        · cases hopen
          exact ⟨rfl, rfl, rfl, fun _ hopen ↦ by cases hopen⟩
      dsimp only at h
      split at h
      · cases h
        exact haddress.withReply _ _
      · split at h
        · cases h
          exact haddress.extend rfl rfl rfl (by simp)
        · cases h
          exact haddress.withReply _ _

theorem processRetrCmd_address (h : s.processRetrCmd env sslContext user arg = .ok o) :
    KeepsAddress s o := by
  rcases eq_ok_of_bind h with ⟨u, -, h⟩
  split at h
  · cases h
    exact .answer s _ _
  · split at h
    · split at h
      · cases h
        exact .answer s _ _
      · rcases eq_ok_of_bind h with ⟨⟨t, opened, fx⟩, hopen, h⟩
        have haddress := openDataConnection_address hopen
        dsimp only at h
        split at h
        · cases h
          exact haddress.withReply _ _
        · split at h
          · split at h
            · cases h
              exact haddress.extend rfl rfl rfl (by simp)
            · cases h
              rw [List.append_assoc]
              exact haddress.extend rfl rfl rfl (by simp)
          · cases h
            exact haddress.extend rfl rfl rfl fun _ ↦ statusEffects_openData _
    · cases h
      exact .answer s _ _

theorem searchUniqueName_openData {home current : WString} {left tried : Nat}
    {r : WString × List Effect} (h : searchUniqueName env home current left tried = .ok r) :
    .openData tls ∉ r.2 := by
  induction left generalizing tried r with
  | zero => cases h
  | succ left ih =>
    unfold searchUniqueName at h
    dsimp only at h
    split at h
    · rcases eq_ok_of_bind h with ⟨⟨found, effects⟩, hfound, h⟩
      have hrest := ih hfound
      cases h
      simpa using hrest
    · cases h
      simp

theorem processStorCmd_address (h : s.processStorCmd env sslContext user cmd = .ok o) :
    KeepsAddress s o := by
  rcases eq_ok_of_bind h with ⟨u, -, h⟩
  split at h
  · cases h
    exact .answer s _ _
  · split at h
    · split at h
      · cases h
        exact .answer s _ _
      · rcases eq_ok_of_bind h with ⟨⟨t, opened, fx⟩, hopen, h⟩
        have haddress := openDataConnection_address hopen
        dsimp only at h
        split at h
        · cases h
          exact haddress.withReply _ _
        · rcases eq_ok_of_ite_bind h with ⟨⟨unique, searched⟩, hsearch, h⟩
          have hsearched : ∀ tls, .openData tls ∉ searched := by
            intro tls
            split at hsearch
            · exact searchUniqueName_openData hsearch
            · cases hsearch
              exact List.not_mem_nil
          dsimp only at h
          generalize (if unique ≠ [] then unique else buildPath env.canonical u.homeDirectory
            t.currentDirectory cmd.args false) = path at h
          split at h
          · generalize hsized : (if cmd.id = .APPE then
                if (env.getFileStatus path).isSome then
                  ((((env.fileSize path).getD 0 : Nat) : Int),
                    [Effect.status path, Effect.fileSize path])
                else (0, [Effect.status path])
              else (t.restartAt, [])) = sized at h
            have hasked : ∀ tls, .openData tls ∉ sized.2 := by
              intro tls
              rw [← hsized]
              split
              · split <;> simp
              · simp
            have hsend (text : WString) (more : List Effect) (hmore : ∀ tls, .openData tls ∉ more) :
                ∀ tls, .openData tls ∉ searched ++ (sized.2 ++ .send text :: more) := by
              intro tls
              rw [List.mem_append, List.mem_append, List.mem_cons, not_or, not_or, not_or]
              exact ⟨hsearched tls, hasked tls, nofun, hmore tls⟩
            split at h
            · cases h
              rw [List.append_assoc, List.append_assoc]
              exact haddress.extend rfl rfl rfl (hsend _ _ fun _ ↦ List.not_mem_nil)
            · cases h
              rw [List.append_assoc, List.append_assoc, List.append_assoc]
              exact haddress.extend rfl rfl rfl (hsend _ _ fun _ ↦ by simp)
          · cases h
            exact haddress.extend rfl rfl rfl hsearched
    · cases h
      exact .answer s _ _

/-! ### The other handlers -/

theorem processCwdCmd_address (h : s.processCwdCmd env user arg = .ok o) : KeepsAddress s o := by
  apply KeepsAddress.of_keeps (processCwdCmd_keeps h)
  intro tls
  unfold processCwdCmd at h
  split at h
  · rcases eq_ok_of_bind h with ⟨u, -, h⟩
    dsimp only at h
    split at h
    · cases h
      exact statusEffects_openData _
    · cases h
      exact statusEffects_openData _
  · cases h
    exact List.not_mem_nil

theorem processMdtmCmd_address (h : s.processMdtmCmd env user arg = .ok o) : KeepsAddress s o := by
  apply KeepsAddress.of_keeps (processMdtmCmd_keeps h)
  intro tls
  unfold processMdtmCmd at h
  split at h
  · rcases eq_ok_of_bind h with ⟨u, -, h⟩
    dsimp only at h
    split at h
    · split at h
      · cases h
        simp [answer]
      · cases h
        simp [answer]
    · cases h
      exact statusEffects_openData _
  · cases h
    exact List.not_mem_nil

theorem processSizeCmd_address (h : s.processSizeCmd env user arg = .ok o) : KeepsAddress s o := by
  apply KeepsAddress.of_keeps (processSizeCmd_keeps h)
  intro tls
  unfold processSizeCmd at h
  split at h
  · rcases eq_ok_of_bind h with ⟨u, -, h⟩
    dsimp only at h
    split at h
    · split at h
      · cases h
        simp [answer]
      · cases h
        simp [answer]
    · cases h
      exact List.not_mem_nil
  · cases h
    exact List.not_mem_nil

theorem ActsOnPath.address {privilege : UserPrivilege} {act : WString → Effect}
    (h : ActsOnPath env s user arg privilege act o)
    (hact : ∀ tls path, act path ≠ .openData tls) : KeepsAddress s o := by
  cases h with
  | answers => exact .answer s _ _
  | looks => exact ⟨rfl, rfl, rfl, fun _ hopen ↦ absurd hopen (statusEffects_openData _)⟩
  | acts =>
    refine ⟨rfl, rfl, rfl, ?_⟩
    intro tls hopen
    rcases List.mem_cons.mp hopen with hopen | hopen
    · cases hopen
    · exact absurd (List.mem_singleton.mp hopen).symm (hact _ _)

/-- RNFR: the path is stored when the reply says so. -/
theorem processRnfrCmd_cases (h : s.processRnfrCmd env user arg = .ok o) :
    KeepsAddress s o ∧ o.session.dataUseSsl = s.dataUseSsl ∧
    (o.reply.code = 350 ∧ (∃ u, user = some u ∧ o.session.renameFromPath = s.pathOf env u arg) ∨
      o.reply.code ≠ 350 ∧ o.session.renameFromPath = s.renameFromPath) := by
  have hkeeps := processRnfrCmd_keeps h
  rcases eq_ok_of_bind h with ⟨u, hu, h⟩
  split at h
  · cases h
    exact ⟨.answer s _ _, rfl, .inr ⟨show (550 : Nat) ≠ 350 by decide, rfl⟩⟩
  · split at h
    · dsimp only at h
      split at h
      · cases h
        exact ⟨.of_keeps hkeeps (by simp [answer]), rfl, .inl ⟨rfl, u, deref_ok hu, rfl⟩⟩
      · cases h
        exact ⟨.of_keeps hkeeps fun _ ↦ statusEffects_openData _, rfl,
          .inr ⟨show (550 : Nat) ≠ 350 by decide, rfl⟩⟩
    · cases h
      exact ⟨.answer s _ _, rfl, .inr ⟨show (501 : Nat) ≠ 350 by decide, rfl⟩⟩

/-- RNTO: the path is forgotten when the reply says so. -/
theorem processRntoCmd_cases (h : s.processRntoCmd env user arg = .ok o) :
    KeepsAddress s o ∧ o.session.dataUseSsl = s.dataUseSsl ∧
    ((o.reply.code = 250 ∨ o.reply.code = 550) ∧ o.session.renameFromPath = [] ∨
      ¬ (o.reply.code = 250 ∨ o.reply.code = 550) ∧
        o.session.renameFromPath = s.renameFromPath) := by
  have hkeeps := processRntoCmd_keeps h
  unfold processRntoCmd at h
  split at h
  · split at h
    · rcases eq_ok_of_bind h with ⟨u, -, h⟩
      dsimp only at h
      split at h
      · split at h
        · cases h
          exact ⟨.of_keeps hkeeps (by simp [answer]), rfl, .inl ⟨.inl rfl, rfl⟩⟩
        · cases h
          exact ⟨.of_keeps hkeeps (by simp [answer]), rfl, .inl ⟨.inr rfl, rfl⟩⟩
      · cases h
        exact ⟨⟨rfl, rfl, rfl, fun _ hopen ↦ by cases hopen⟩, rfl, .inl ⟨.inr rfl, rfl⟩⟩
    · cases h
      exact ⟨.answer s _ _, rfl,
        .inr ⟨show ¬ ((503 : Nat) = 250 ∨ (503 : Nat) = 550) by decide, rfl⟩⟩
  · cases h
    exact ⟨.answer s _ _, rfl,
      .inr ⟨show ¬ ((501 : Nat) = 250 ∨ (501 : Nat) = 550) by decide, rfl⟩⟩

theorem resetDataMode_mode (h : s.resetDataMode = .ok t) : t.curDataMode = .none := by
  unfold resetDataMode at h
  split at h
  · rcases eq_ok_of_ite_bind h with ⟨r, -, h⟩
    cases h
    rfl
  · rename_i hmode
    cases h
    exact not_not.mp hmode

/-- PASV: the address is announced when it is chosen. -/
theorem processPasvCmd_cases {serverIp : Nat} {ports ports' : DataPorts}
    (h : s.processPasvCmd env serverIp ports = .ok (o, ports')) :
    o.reply.code = 227 ∧ o.session.curDataMode = .pasv ∧
        (o.session.dataPort = env.localPort ∨ o.session.dataPort < 2 ^ 16) ∨
      o.reply.code ≠ 227 ∧ (o.session = s ∨ o.session.curDataMode = .none) := by
  have hrefused : (451 : Nat) ≠ 227 := by decide
  unfold processPasvCmd at h
  split at h
  · cases h
    exact .inr ⟨show (425 : Nat) ≠ 227 by decide, .inl rfl⟩
  · rcases eq_ok_of_bind h with ⟨t, ht, h⟩
    have hmode := resetDataMode_mode ht
    dsimp only at h
    split at h
    · cases h
      exact .inr ⟨hrefused, .inr hmode⟩
    · split at h
      · split at h
        · cases h
          exact .inl ⟨rfl, rfl, .inl rfl⟩
        · cases h
          exact .inr ⟨hrefused, .inr hmode⟩
      · split at h
        · cases h
          exact .inl ⟨rfl, rfl, .inr (UInt16.toNat_lt _)⟩
        · cases h
          exact .inr ⟨hrefused, .inr hmode⟩

theorem processProtCmd_address (build : Build) (useSsl : Bool) (arg : WString) (s : Session) :
    KeepsAddress s (s.processProtCmd build useSsl arg) := by
  have hsettled (flag : Bool) (text : WString) :
      KeepsAddress s ({ s with dataUseSsl := flag }.answer 200 text) :=
    ⟨rfl, rfl, rfl, fun _ hopen ↦ by cases hopen⟩
  unfold processProtCmd
  dsimp only
  split
  · exact .answer s _ _
  · split
    · split
      · exact .answer s _ _
      · exact hsettled _ _
    · split
      · split
        · split
          · exact .answer s _ _
          · split
            · exact hsettled _ _
            · exact .answer s _ _
        · exact .answer s _ _
      · exact .answer s _ _

theorem processRestCmd_address (arg : WString) (s : Session) :
    KeepsAddress s (s.processRestCmd arg) := by
  unfold processRestCmd
  split
  · exact ⟨rfl, rfl, rfl, fun _ hopen ↦ by cases hopen⟩
  · exact .answer s _ _

theorem bracketed_pasv {ip port : Nat} :
    bracketed (Reply.create 227 ("Entering Passive Mode (".toList ++ pasvNumbers ip port ++
      ").".toList)).content = pasvNumbers ip port := by
  show bracketed (("227 Entering Passive Mode (".toList ++ pasvNumbers ip port ++ ").".toList) ++
    ['\r', '\n']) = _
  rw [show "227 Entering Passive Mode (".toList = "227 Entering Passive Mode ".toList ++ ['(']
    from rfl, List.append_assoc, List.append_assoc, List.append_assoc]
  exact takeWhile_bracketed (by decide) (bracket_notMem_pasvNumbers ip port)

end Session

/-! ## Commands -/

section Commands

open Session

variable {build : Build} {env : Env} {σ : FtpServer} {c : ClientRef} {cmd : Command} {a : Answer}
  {o : Outcome} {ports : DataPorts} {d : Dialogue} {n : ClientNode} {path : WString} {r : Reply}

/-- The commands that settle something. -/
def Commands.settles : Commands → Bool
  | .PROT | .PORT | .PASV | .RNFR | .RNTO | .REIN => true
  | _ => false

theorem hears_of_not (h : Commands.settles cmd.id = false) : d.hears cmd path r = d := by
  unfold Dialogue.hears
  split
  all_goals
    rename_i hid
    try (rw [hid] at h; cases h)
  rfl

theorem peer_of_keeps (h : KeepsAddress n.toSession o) :
    ({ n with toSession := o.session } : ClientNode).peer = n.peer := by
  simp only [ClientNode.peer, h.mode, h.dataIp, h.dataPort]

theorem Agrees.keep (hd : Agrees d n) (haddress : KeepsAddress n.toSession o)
    (hssl : o.session.dataUseSsl = n.dataUseSsl)
    (hrename : o.session.renameFromPath = n.renameFromPath) :
    Agrees d { n with toSession := o.session } := by
  refine ⟨hssl.trans hd.protectData, ?_, hrename.trans hd.renameFrom⟩
  rw [peer_of_keeps haddress]
  exact hd.peer

theorem Agrees.same (hd : Agrees d n) (haddress : KeepsAddress n.toSession o)
    (hsame : Same n.toSession o.session) : Agrees d { n with toSession := o.session } :=
  hd.keep haddress hsame.dataUseSsl hsame.renameFromPath

theorem peer_of_none (h : n.curDataMode = .none) : n.peer = none := by
  unfold ClientNode.peer
  rw [h]

theorem Agrees.port (hd : Agrees d n) (hid : cmd.id = .PORT)
    (h : n.processPortCmd cmd.args = .ok o) :
    Agrees (d.hears cmd path o.reply) { n with toSession := o.session } := by
  have hsame := (processPortCmd_spec h).1
  unfold Dialogue.hears
  rw [hid]
  dsimp only
  rcases processPortCmd_cases h with
    ⟨hcode, hsession⟩ | ⟨hcode, a, b, c, e, f, g, hnumbers, haddress⟩
  · rw [if_neg hcode, hsession]
    exact hd
  · rw [if_pos hcode]
    refine ⟨hsame.dataUseSsl.trans hd.protectData, ?_, hsame.renameFromPath.trans hd.renameFrom⟩
    intro p hp
    rcases portNumbers_eq_some.mp hnumbers with ⟨hscan, hrange⟩
    rcases haddress with ⟨hmode, hip, hport⟩
    unfold ClientNode.peer at hp
    rw [hmode] at hp
    cases hp
    show readPeer .port cmd.args = _
    unfold readPeer
    rw [hscan]
    dsimp only
    unfold PortRange at hrange
    rw [hip, hport, Nat.mod_eq_of_lt (by omega)]

theorem Agrees.pasv {ports' : DataPorts} (hd : Agrees d n) (hid : cmd.id = .PASV)
    (hlocal : env.localPort < 2 ^ 16)
    (h : n.processPasvCmd env n.serverIp ports = .ok (o, ports')) :
    Agrees (d.hears cmd path o.reply) { n with toSession := o.session } := by
  have hsame := (processPasvCmd_spec h).1
  have hssl := hsame.dataUseSsl.trans hd.protectData
  have hrename := hsame.renameFromPath.trans hd.renameFrom
  unfold Dialogue.hears
  rw [hid]
  dsimp only
  rcases processPasvCmd_cases h with ⟨hcode, hmode, hport⟩ | ⟨hcode, hsession | hmode⟩
  · rw [if_pos hcode, processPasvCmd_text h hcode, bracketed_pasv]
    refine ⟨hssl, ?_, hrename⟩
    intro p hp
    have hsmall : o.session.dataPort < 2 ^ 16 := by
      rcases hport with hport | hport
      · rw [hport]
        exact hlocal
      · exact hport
    unfold ClientNode.peer at hp
    rw [hmode] at hp
    cases hp
    exact readPeer_pasvNumbers hsmall
  · rw [if_neg hcode, hsession]
    exact hd
  · rw [if_neg hcode]
    refine ⟨hssl, ?_, hrename⟩
    rw [peer_of_none hmode]
    intro p hp
    cases hp

theorem Agrees.prot (hd : Agrees d n) (hid : cmd.id = .PROT) (useSsl : Bool) :
    Agrees (d.hears cmd path (n.processProtCmd build useSsl cmd.args).reply)
      { n with toSession := (n.processProtCmd build useSsl cmd.args).session } := by
  have haddress := processProtCmd_address build useSsl cmd.args n.toSession
  have hrename := (processProtCmd_spec build useSsl cmd.args n.toSession).2.1
  unfold Dialogue.hears
  rw [hid]
  dsimp only
  rcases FtpServer.processProtCmd_cases build useSsl cmd.args n.toSession with
    ⟨text, hreply, hlevel⟩ | ⟨code, hcode, text, hreply, hsession⟩
  · rw [hreply, if_pos (show (Reply.create 200 text).code = 200 from rfl)]
    refine ⟨?_, ?_, hrename.trans hd.renameFrom⟩
    · show (processProtCmd build useSsl cmd.args n.toSession).session.dataUseSsl =
        decide (cmd.args = "P".toList)
      rcases hlevel with ⟨hargs, hflag⟩ | ⟨hargs, hflag⟩
      · rw [hflag, hargs]
        rfl
      · rw [hflag, hargs]
        rfl
    · rw [peer_of_keeps haddress]
      exact hd.peer
  · have hother : ¬ (Reply.create code text).code = 200 := by
      rintro rfl
      exact absurd hcode (by decide)
    rw [hreply, if_neg hother, hsession]
    exact hd

theorem Agrees.rnfr (hd : Agrees d n) (hid : cmd.id = .RNFR) {user : Option UserNode}
    (h : n.processRnfrCmd env user cmd.args = .ok o) :
    Agrees (d.hears cmd (user.elim [] fun u ↦ n.pathOf env u cmd.args) o.reply)
      { n with toSession := o.session } := by
  rcases processRnfrCmd_cases h with ⟨haddress, hssl, hcases⟩
  unfold Dialogue.hears
  rw [hid]
  dsimp only
  rcases hcases with ⟨hcode, u, rfl, hpath⟩ | ⟨hcode, hpath⟩
  · rw [if_pos hcode]
    refine ⟨hssl.trans hd.protectData, ?_, hpath⟩
    rw [peer_of_keeps haddress]
    exact hd.peer
  · rw [if_neg hcode]
    exact hd.keep haddress hssl hpath

theorem Agrees.rnto (hd : Agrees d n) (hid : cmd.id = .RNTO) {user : Option UserNode}
    (h : n.processRntoCmd env user cmd.args = .ok o) :
    Agrees (d.hears cmd path o.reply) { n with toSession := o.session } := by
  rcases processRntoCmd_cases h with ⟨haddress, hssl, hcases⟩
  unfold Dialogue.hears
  rw [hid]
  dsimp only
  rcases hcases with ⟨hcode, hpath⟩ | ⟨hcode, hpath⟩
  · rw [if_pos hcode]
    refine ⟨hssl.trans hd.protectData, ?_, hpath⟩
    rw [peer_of_keeps haddress]
    exact hd.peer
  · rw [if_neg hcode]
    exact hd.keep haddress hssl hpath

/-- A command that settles nothing. -/
theorem SessionRun.quiet (h : FtpServer.SessionRun build env σ c cmd o ports)
    (hsettles : Commands.settles cmd.id = false) (habor : cmd.id ≠ .ABOR) :
    KeepsAddress (σ.nodes c).toSession o ∧ o.session.dataUseSsl = (σ.nodes c).dataUseSsl ∧
      o.session.renameFromPath = (σ.nodes c).renameFromPath := by
  have hsame (haddress : KeepsAddress (σ.nodes c).toSession o)
      (hsame : Same (σ.nodes c).toSession o.session) :
      KeepsAddress (σ.nodes c).toSession o ∧ o.session.dataUseSsl = (σ.nodes c).dataUseSsl ∧
        o.session.renameFromPath = (σ.nodes c).renameFromPath :=
    ⟨haddress, hsame.dataUseSsl, hsame.renameFromPath⟩
  cases h with
  | pasv hid _ =>
    rw [hid] at hsettles
    cases hsettles
  | plain => exact ⟨⟨rfl, rfl, rfl, fun _ hopen ↦ by cases hopen⟩, rfl, rfl⟩
  | handler h =>
    unfold FtpServer.sessionHandler at h
    dsimp only at h
    cases hid : cmd.id <;> rw [hid] at h <;> dsimp only at h
    case SITE =>
      split at h
      · have hsite := processSiteCmd_keeps (Option.some.inj h)
        rcases processSiteCmd_spec (Option.some.inj h) with ⟨hsession, heffects⟩
        refine hsame (.of_keeps hsite ?_) (hsession ▸ .refl _)
        intro tls hopen
        rcases heffects _ hopen with ⟨text, u, heq, -⟩
        cases heq
      · cases h
    case TYPE =>
      cases h
      have htype := processTypeCmd_spec cmd.args (σ.nodes c).toSession
      refine hsame (.of_keeps (processTypeCmd_keeps _ _) ?_) htype.1
      rw [htype.2]
      exact fun _ ↦ List.not_mem_nil
    case LIST | NLST | MLSD =>
      have h := Option.some.inj h
      exact hsame (processListCmd_address h) (processListCmd_spec h).1
    case CWD =>
      have h := Option.some.inj h
      refine ⟨processCwdCmd_address h, ?_⟩
      rcases (processCwdCmd_spec h).1 with hcwd | ⟨u, path, -, -, -, hsession⟩
      · exact ⟨hcwd.dataUseSsl, hcwd.renameFromPath⟩
      · rw [hsession]
        exact ⟨rfl, rfl⟩
    case AUTH =>
      cases h
      rcases processAuthCmd_spec build σ.sslContext (σ.usesSsl c) cmd.args (σ.nodes c).toSession
        with ⟨hsession, heffects⟩
      have hauth : Same (σ.nodes c).toSession (processAuthCmd build σ.sslContext (σ.usesSsl c)
          cmd.args (σ.nodes c).toSession).session := by rw [hsession]; exact .refl _
      refine hsame (.of_keeps (processAuthCmd_keeps ..) ?_) hauth
      intro tls hopen
      rcases heffects _ hopen with heq | ⟨text, heq⟩
      · cases heq
      · cases heq
    case MDTM =>
      have h := Option.some.inj h
      exact hsame (processMdtmCmd_address h) (processMdtmCmd_spec h).1
    case CDUP =>
      cases h
      exact ⟨⟨rfl, rfl, rfl, fun _ hopen ↦ by cases hopen⟩, rfl, rfl⟩
    case STAT =>
      split at h
      · have h := Option.some.inj h
        exact hsame (processListCmd_address h) (processListCmd_spec h).1
      · cases h
    case ABOR => exact absurd hid habor
    case REST =>
      cases h
      exact hsame (processRestCmd_address _ _) (processRestCmd_spec _ _).1
    case RETR =>
      have h := Option.some.inj h
      exact hsame (processRetrCmd_address h) (processRetrCmd_spec h).1
    case STOR | APPE | STOU =>
      have h := Option.some.inj h
      exact hsame (processStorCmd_address h) (processStorCmd_spec h).1
    case SIZE =>
      have h := Option.some.inj h
      exact hsame (processSizeCmd_address h) (processSizeCmd_spec h).1
    case DELE =>
      have h := Option.some.inj h
      exact hsame ((processDelCmd_acts h).address nofun) (processDelCmd_spec h).1
    case MKD =>
      have h := Option.some.inj h
      exact hsame ((processMkdCmd_acts h).address nofun) (processMkdCmd_spec h).1
    case RMD =>
      have h := Option.some.inj h
      exact hsame ((processRmdCmd_acts h).address nofun) (processRmdCmd_spec h).1
    case PROT | PORT | RNFR | RNTO =>
      rw [hid] at hsettles
      cases hsettles
    -- every other command has no handler of the session
    all_goals cases h

theorem Agrees.of_session {m : ClientNode} (hd : Agrees d n) (hsession : m.toSession = n.toSession)
    (hip : m.serverIp = n.serverIp) : Agrees d m := by
  have hpeer : m.peer = n.peer := by
    have hmode : m.curDataMode = n.curDataMode := congrArg Session.curDataMode hsession
    have haddress : m.dataIp = n.dataIp := congrArg Session.dataIp hsession
    have hport : m.dataPort = n.dataPort := congrArg Session.dataPort hsession
    simp only [ClientNode.peer, hmode, haddress, hport, hip]
  refine ⟨(congrArg Session.dataUseSsl hsession).trans hd.protectData, ?_,
    (congrArg Session.renameFromPath hsession).trans hd.renameFrom⟩
  rw [hpeer]
  exact hd.peer

-- an address may be given up at any time
theorem Agrees.withoutAddress {m : ClientNode} (hd : Agrees d n)
    (hssl : m.dataUseSsl = n.dataUseSsl) (hrename : m.renameFromPath = n.renameFromPath)
    (hmode : m.curDataMode = .none) : Agrees d m := by
  refine ⟨hssl.trans hd.protectData, ?_, hrename.trans hd.renameFrom⟩
  rw [peer_of_none hmode]
  intro p hp
  cases hp

theorem Agrees.abor (hd : Agrees d n) (h : n.processAborCmd = .ok o) :
    Agrees d { n with toSession := o.session } := by
  have hsame := (processAborCmd_spec h).1
  unfold processAborCmd at h
  split at h
  · rcases eq_ok_of_bind h with ⟨t, -, h⟩
    cases h
    exact hd.withoutAddress hsame.dataUseSsl hsame.renameFromPath rfl
  · cases h
    exact hd

theorem SessionRun.agrees (h : FtpServer.SessionRun build env σ c cmd o ports)
    (hlogin : FtpServer.Commands.isLogin cmd.id = false) (hd : Agrees d (σ.nodes c))
    (hlocal : env.localPort < 2 ^ 16) :
    Agrees (d.hears cmd (((σ.nodes c).user.map σ.userManager.users).elim []
      fun u ↦ (σ.nodes c).pathOf env u cmd.args) o.reply)
      { σ.nodes c with toSession := o.session } := by
  by_cases hsettles : Commands.settles cmd.id = false
  · rw [hears_of_not hsettles]
    by_cases habor : cmd.id = .ABOR
    · cases h with
      | pasv hid _ =>
        rw [hid] at habor
        cases habor
      | plain => exact hd
      | handler h =>
        unfold FtpServer.sessionHandler at h
        simp only [habor] at h
        exact hd.abor (Option.some.inj h)
    · rcases SessionRun.quiet h hsettles habor with ⟨haddress, hssl, hrename⟩
      exact hd.keep haddress hssl hrename
  · cases h with
    | pasv hid h => exact hd.pasv hid hlocal h
    | plain h =>
      unfold FtpServer.sessionHandler at h
      cases hid : cmd.id <;> rw [hid] at hsettles h hlogin <;> try contradiction
      -- PASV has no handler of the session
      have hcode : (FtpServer.plainReply (σ.nodes c).currentDirectory cmd).code ≠ 227 := by
        unfold FtpServer.plainReply
        rw [hid]
        exact show (500 : Nat) ≠ 227 by decide
      unfold Dialogue.hears
      rw [hid]
      dsimp only
      rw [if_neg hcode]
      exact hd
    | handler h =>
      unfold FtpServer.sessionHandler at h
      cases hid : cmd.id <;> rw [hid] at hsettles h hlogin <;> try contradiction
      case PROT =>
        cases h
        exact hd.prot hid _
      case PORT => exact hd.port hid (Option.some.inj h)
      case RNFR => exact hd.rnfr hid (Option.some.inj h)
      case RNTO => exact hd.rnto hid (Option.some.inj h)

/-- The switch: what it leaves agrees with what has been settled by then. -/
theorem runSwitch_agrees {w : Talk} (hd : Agrees d (w.node c)) (hlocal : env.localPort < 2 ^ 16)
    (h : w.server.runSwitch build env c cmd = .ok a) :
    Agrees (d.hears cmd (w.asked c env cmd) a.reply) (a.server.nodes c) := by
  have hip : (a.server.nodes c).serverIp = (w.node c).serverIp :=
    FtpServer.runSwitch_field ClientNode.serverIp (fun _ _ _ _ ↦ rfl) (fun _ _ ↦ rfl) h
  rcases FtpServer.runSwitch_cases h with
    ⟨hid, r, hr, rfl⟩ | ⟨hid, rfl⟩ | ⟨hid, rfl⟩ | ⟨hlogin, o, ports, hsession, rfl⟩
  · rw [hears_of_not (by rw [hid]; rfl)]
    exact hd.of_session (FtpServer.processUserCmd_session hr) hip
  · rw [hears_of_not (by rw [hid]; rfl)]
    exact hd.of_session (FtpServer.processPasswordCmd_session ..) hip
  · have hssl : ((w.server.unbind c).nodes c).dataUseSsl = (w.node c).dataUseSsl :=
      congrArg Session.dataUseSsl (FtpServer.unbind_session w.server c)
    unfold Dialogue.hears
    rw [hid]
    dsimp only
    rw [FtpServer.processReinCmd, FtpServer.setNode_self]
    refine ⟨hssl.trans hd.protectData, ?_, rfl⟩
    intro p hp
    cases hp
  · have hnode : (FtpServer.conclude env { w.server with dataPorts := ports } c o).server.nodes c =
        { w.node c with toSession := o.session } := by
      rw [FtpServer.conclude_nodes, FtpServer.setSession, FtpServer.setNode_self]
      rfl
    rw [hnode]
    exact SessionRun.agrees hsession hlogin hd hlocal

/-- A handler makes a data connection only to an address. -/
theorem runSwitch_opens {tls : Bool} (hswitch : σ.runSwitch build env c cmd = .ok a)
    (hopen : .openData tls ∈ a.effects) : (σ.nodes c).curDataMode ≠ .none := by
  rcases FtpServer.runSwitch_cases hswitch with
    ⟨-, r, -, rfl⟩ | ⟨-, rfl⟩ | ⟨-, rfl⟩ | ⟨hlogin, o, ports, hsession, rfl⟩
  · cases hopen
  · cases hopen
  · cases hopen
  · have hopen' : .openData tls ∈ o.effects := hopen
    by_cases hquiet : Commands.settles cmd.id = false ∧ cmd.id ≠ .ABOR
    · exact (SessionRun.quiet hsession hquiet.1 hquiet.2).1.opens tls hopen'
    · cases hsession with
      | pasv _ hpasv =>
        rw [(processPasvCmd_spec hpasv).2] at hopen'
        cases hopen'
      | plain => cases hopen'
      | handler h =>
        unfold FtpServer.sessionHandler at h
        cases hid : cmd.id <;> rw [hid] at hquiet h hlogin <;>
          try exact absurd ⟨rfl, by decide⟩ hquiet
        case PROT =>
          cases h
          exact (processProtCmd_address ..).opens tls hopen'
        case PORT =>
          rw [(processPortCmd_spec (Option.some.inj h)).2] at hopen'
          cases hopen'
        case ABOR =>
          rcases (processAborCmd_spec (Option.some.inj h)).2 _ hopen' with ⟨text, heq⟩
          cases heq
        case RNFR => exact (processRnfrCmd_cases (Option.some.inj h)).1.opens tls hopen'
        case RNTO => exact (processRntoCmd_cases (Option.some.inj h)).1.opens tls hopen'
        all_goals cases h

/-- A rename starts from the path that is pending. -/
theorem runSwitch_rename {source target : WString} (h : σ.runSwitch build env c cmd = .ok a)
    (hrename : .rename source target ∈ a.effects) :
    source = (σ.nodes c).renameFromPath ∧ source ≠ [] := by
  rcases FtpServer.runSwitch_cases h with
    ⟨-, r, -, rfl⟩ | ⟨-, rfl⟩ | ⟨-, rfl⟩ | ⟨hlogin, o, ports, hsession, rfl⟩
  · cases hrename
  · cases hrename
  · cases hrename
  · rcases hsession.spec.effects _ hrename with ⟨asked, -, hsource, hsome, -⟩
    exact ⟨hsource, hsome⟩

end Commands

/-! ## Conversations -/

section Conversations

variable {build : Build} {c : ClientRef} {start w w' : Talk} {trace : List (Talk × Act)}
  {d : Dialogue} {a : Answer} {env : Env} {cmd : Command}

theorem Agrees.thread {answers : Answers} {user : Option UserNode} {stage next : Stage}
    {s : Session} {fx : List ThreadEvent} (hd : Agrees d (w.node c))
    (h : stage.step answers (w.node c) user = .ok (s, next, fx)) :
    Agrees d { w.node c with toSession := s } := by
  cases stage_stepped h with
  | goesOn hsession => exact hd.of_session hsession rfl
  | begins _ hsession =>
    rw [hsession]
    exact ⟨hd.protectData, hd.peer, hd.renameFrom⟩
  | closes hclose =>
    rw [(Session.closeDataSocket_ok hclose).1]
    exact ⟨hd.protectData, hd.peer, hd.renameFrom⟩
  | @finishes job _ hsession =>
    rw [hsession]
    split
    · cases job <;> exact hd.withoutAddress rfl rfl rfl
    · exact hd

/-- The port that the system chooses meanwhile. -/
def Act.localPort : Act → Nat
  | .command _ env => env.localPort
  | .thread _ _ | .elsewhere _ => 0

/-- The ports that the system chooses are port numbers. -/
def ChoosesPorts (trace : List (Talk × Act)) : Prop :=
  ∀ p ∈ trace, p.2.localPort < 2 ^ 16

theorem dialogue_of_run (hbegins : start.Begins c) (run : TalkRun build c start trace w)
    (hports : ChoosesPorts trace) : Agrees (Talk.dialogue build c trace) (w.node c) := by
  induction run with
  | refl =>
    rcases hbegins.node with ⟨k, hnode⟩
    rw [hnode]
    refine ⟨rfl, ?_, rfl⟩
    intro p hp
    cases hp
  | @snoc trace w act w' before last ih =>
    have hd := ih fun p hp ↦ hports p (List.mem_cons_of_mem _ hp)
    cases act with
    | command cmd env =>
      rcases Talk.speaks_command last with ⟨a, ha, -, rfl⟩
      rw [Talk.dialogue, ha, Talk.afterCommand_node]
      exact runSwitch_agrees hd (hports _ List.mem_cons_self) ha
    | thread i answers =>
      rcases Talk.speaks_thread last with rfl | ⟨t, s, next, fx, -, hstep, rfl⟩
      · exact hd
      · rw [Talk.setSession_node]
        exact hd.thread hstep
    | elsewhere σ =>
      rw [Talk.speaks_elsewhere last, Talk.elsewhere_node]
      exact hd

/-- Whatever has come in between, a handler makes a data connection to the address of the last PORT
or PASV that was accepted, with the protection of the last PROT that was, and to no other. -/
theorem data_connection_as_settled (hbegins : start.Begins c)
    (run : TalkRun build c start trace w) (hports : ChoosesPorts trace)
    (h : w.server.runSwitch build env c cmd = .ok a) {tls : Bool}
    (hopen : .openData tls ∈ a.effects) :
    tls = (Talk.dialogue build c trace).protectData ∧
    ∃ p, (w.node c).peer = some p ∧ (Talk.dialogue build c trace).peer = some p := by
  have hd := dialogue_of_run hbegins run hports
  refine ⟨(FtpServer.runSwitch_openData h hopen).trans hd.protectData, ?_⟩
  have hmode := runSwitch_opens h hopen
  have hsome : (w.node c).peer ≠ none := by
    unfold ClientNode.peer
    split
    · rename_i hnone
      exact absurd hnone hmode
    · exact Option.some_ne_none _
    · exact Option.some_ne_none _
  rcases Option.ne_none_iff_exists'.mp hsome with ⟨p, hp⟩
  exact ⟨p, hp, hd.peer p hp⟩

/-- Whatever has come in between, a handler renames what the last RNFR that was accepted has led to,
unless an RNTO has used it up or REIN has come since. -/
theorem rename_as_settled (hbegins : start.Begins c) (run : TalkRun build c start trace w)
    (hports : ChoosesPorts trace) (h : w.server.runSwitch build env c cmd = .ok a)
    {source target : WString} (hrename : .rename source target ∈ a.effects) :
    (Talk.dialogue build c trace).renameFrom = some source := by
  have hd := dialogue_of_run hbegins run hports
  rcases runSwitch_rename h hrename with ⟨hsource, hsome⟩
  have hpending : source = _ := hsource.trans hd.renameFrom
  cases hfrom : (Talk.dialogue build c trace).renameFrom with
  | none =>
    rw [hfrom] at hpending
    exact absurd hpending hsome
  | some path =>
    rw [hfrom] at hpending
    rw [hpending]
    rfl

end Conversations

namespace Sample

/-- The client names an address and a file, and waits for another reply. -/
def settle : List Act :=
  login ++ [say .PORT "127,0,0,1,19,137", say .RNFR "notes", say .NOOP ""]

def has (effect : Effect) (a : Answer) : Bool :=
  decide (effect ∈ a.effects)

/-- The next command has this effect, in a run in which the ports are port numbers. -/
def settledThen (cmd : Command) (effect : Effect) (trace : List (Talk × Act)) (w : Talk) : Bool :=
  trace.all (fun p ↦ decide (p.2.localPort < 2 ^ 16)) &&
    (w.server.runSwitch {} env 0 cmd).toOption.any (has effect)

theorem of_settledThen (cmd : Command) (effect : Effect)
    (h : (talk.traceOf {} 0 [] settle).any (fun x ↦ settledThen cmd effect x.1 x.2) = true) :
    ∃ trace w a, TalkRun {} 0 talk trace w ∧ ChoosesPorts trace ∧
      w.server.runSwitch {} env 0 cmd = .ok a ∧ effect ∈ a.effects := by
  rcases Talk.exists_run_recorded settle (settledThen cmd effect) h with ⟨trace, w, run, hsettled⟩
  rw [settledThen, Bool.and_eq_true, List.all_eq_true, Option.any_eq_true] at hsettled
  rcases hsettled with ⟨hports, a, ha, heffect⟩
  refine ⟨trace, w, a, run, fun p hp ↦ of_decide_eq_true (hports p hp), ?_,
    of_decide_eq_true heffect⟩
  cases hswitch : w.server.runSwitch {} env 0 cmd with
  | error e =>
    rw [hswitch] at ha
    cases ha
  | ok a' =>
    rw [hswitch] at ha
    cases ha
    rfl

end Sample

/-- RETR connects to where PORT has said, without protection. -/
theorem data_connection_as_settled_port : ∃ trace w, TalkRun {} 0 Sample.talk trace w ∧
    (Talk.dialogue {} 0 trace).protectData = false ∧
    ∃ p, (w.node 0).peer = some p ∧ (Talk.dialogue {} 0 trace).peer = some p := by
  rcases Sample.of_settledThen { Command.none with id := .RETR, args := "notes".toList }
    (.openData false) (by decide +kernel) with ⟨trace, w, a, run, hports, ha, hopen⟩
  have hsettled := data_connection_as_settled Sample.talk_begins run hports ha hopen
  exact ⟨trace, w, run, hsettled.1.symm, hsettled.2⟩

/-- RNTO renames what RNFR has named. -/
theorem rename_as_settled_rnto : ∃ trace w, TalkRun {} 0 Sample.talk trace w ∧
    (Talk.dialogue {} 0 trace).renameFrom = some "/srv/bob//notes".toList := by
  rcases Sample.of_settledThen { Command.none with id := .RNTO, args := "tunes".toList }
    (.rename "/srv/bob//notes".toList "/srv/bob//tunes".toList) (by decide +kernel) with
    ⟨trace, w, a, run, hports, ha, hrename⟩
  exact ⟨trace, w, run, rename_as_settled Sample.talk_begins run hports ha hrename⟩

end YFtp
