import YFtp.Conversation

/-!
# What commands do to a transfer

One specification of the handlers for the fields of a session that its transfer threads share with
them: the sockets, the data mode, the status, the protection and the restart offset.
-/

namespace YFtp

open FtpServer (jobOf)

namespace Session

/-- The fields that handlers and threads share. -/
structure SameTransfer (s t : Session) : Prop where
  dataSocket : t.dataSocket = s.dataSocket
  dataAcceptor : t.dataAcceptor = s.dataAcceptor
  sslSocket : t.sslSocket = s.sslSocket
  dataUseSsl : t.dataUseSsl = s.dataUseSsl
  restartAt : t.restartAt = s.restartAt
  transferPath : t.transferPath = s.transferPath
  curDataMode : t.curDataMode = s.curDataMode
  curStatus : t.curStatus = s.curStatus
  dataIp : t.dataIp = s.dataIp
  dataPort : t.dataPort = s.dataPort

theorem SameTransfer.refl (s : Session) : SameTransfer s s :=
  ⟨rfl, rfl, rfl, rfl, rfl, rfl, rfl, rfl, rfl, rfl⟩

/-- The outcome has nothing to do with transfers. -/
structure Keeps (s : Session) (o : Outcome) : Prop where
  same : SameTransfer s o.session
  jobs : o.effects.filterMap jobOf = []

/-- A data connection was asked for: what the handler leaves besides the sockets. -/
inductive Started (env : Env) (sslContext : Bool) (user : Option UserNode) (s : Session)
    (cmd : Command) (opened : Bool) (o : Outcome) : Prop
  /-- No thread was created. -/
  | refused (jobs : o.effects.filterMap jobOf = []) (status : o.session.curStatus = .waiting)
      (restartAt : o.session.restartAt = s.restartAt ∨
        (Commands.transfersFile cmd.id = true ∧ o.session.restartAt = 0))
      (starts : s.startsFile env sslContext user cmd = false)
  | list (hopened : opened = true) (hid : Commands.transfersFile cmd.id = false)
      (jobs : o.effects.filterMap jobOf = [.list cmd false])
      (status : o.session.curStatus = .waiting) (restartAt : o.session.restartAt = s.restartAt)
  | retrieve (hopened : opened = true) (hid : cmd.id = .RETR)
      (jobs : o.effects.filterMap jobOf = [.retrieve])
      (status : o.session.curStatus = .downloading) (restartAt : o.session.restartAt = s.restartAt)
  | store (hopened : opened = true) (hid : cmd.id = .STOR ∨ cmd.id = .APPE ∨ cmd.id = .STOU)
      (jobs : o.effects.filterMap jobOf = [.store]) (status : o.session.curStatus = .uploading)
      (restartAt : o.session.restartAt
        = if cmd.id = .APPE then s.appendOffset env user cmd else s.restartAt)

/-- What a command does to the transfer of its session. -/
inductive Acted (env : Env) (sslContext : Bool) (user : Option UserNode) (s : Session)
    (cmd : Command) (o : Outcome) : Prop
  | keeps (h : Keeps s o) (opens : s.opensData user cmd = false)
  | stat (hid : cmd.id = .STAT) (session : o.session = s)
      (jobs : o.effects.filterMap jobOf = [.list cmd false])
  | prot (hid : cmd.id = .PROT)
      (level : cmd.args = if s.dataUseSsl then "C".toList else "P".toList)
      (session : o.session = { s with dataUseSsl := !s.dataUseSsl })
      (jobs : o.effects.filterMap jobOf = [])
  | abor (hid : cmd.id = .ABOR) (busy : s.curStatus ≠ .waiting) {t : Session}
      (close : s.closeDataSocket = .ok t)
      (session : o.session = { t with curStatus := .waiting, curDataMode := .none })
      (jobs : o.effects.filterMap jobOf = [])
  | rest (hid : cmd.id = .REST) (waiting : s.curStatus = .waiting) (value : Int)
      (session : o.session = { s with restartAt := value }) (code : o.reply.code = 350)
      (jobs : o.effects.filterMap jobOf = [])
  | address (hid : cmd.id = .PORT ∨ cmd.id = .PASV) (waiting : s.curStatus = .waiting) {t : Session}
      (reset : s.resetDataMode = .ok t)
      (dataSocket : o.session.dataSocket = t.dataSocket ∨
        (t.dataSocket = none ∧ o.session.dataSocket = some .closed))
      (sslSocket : o.session.sslSocket = t.sslSocket)
      (dataUseSsl : o.session.dataUseSsl = t.dataUseSsl)
      (restartAt : o.session.restartAt = t.restartAt) (status : o.session.curStatus = t.curStatus)
      (jobs : o.effects.filterMap jobOf = [])
  | opens (hopens : s.opensData user cmd = true) {t : Session} {opened : Bool} {fx : List Effect}
      (hopen : s.openDataConnection env sslContext = .ok (t, opened, fx))
      (dataSocket : o.session.dataSocket = t.dataSocket)
      (sslSocket : o.session.sslSocket = t.sslSocket)
      (dataUseSsl : o.session.dataUseSsl = t.dataUseSsl)
      (started : Started env sslContext user s cmd opened o)

variable {env : Env} {s t : Session} {user : Option UserNode} {arg : WString} {o : Outcome}

-- only a command that transfers data gets to `open_data_connection`
theorem opensData_eq_false {cmd : Command} (h : Commands.transfers cmd.id = false) :
    s.opensData user cmd = false := by
  unfold opensData
  rw [h]
  rfl

theorem opensData_of_busy {cmd : Command} (h : s.curStatus ≠ .waiting) :
    s.opensData user cmd = false := by
  unfold opensData
  rw [decide_eq_false h, Bool.and_false]

theorem transfers_of_opensData {cmd : Command} (h : s.opensData user cmd = true) :
    Commands.transfers cmd.id = true := by
  unfold opensData at h
  rw [Bool.and_eq_true, Bool.and_eq_true] at h
  exact h.1.1

theorem waiting_of_opensData {cmd : Command} (h : s.opensData user cmd = true) :
    s.curStatus = .waiting := by
  unfold opensData at h
  rw [Bool.and_eq_true, decide_eq_true_iff] at h
  exact h.2

theorem Keeps.answer (s : Session) (code : Nat) (text : WString) {effects : List Effect}
    (h : effects.filterMap jobOf = []) : Keeps s (s.answer code text effects) :=
  ⟨.refl s, h⟩

theorem statusEffects_jobs (path : WString) : (statusEffects path).filterMap jobOf = [] := by
  unfold statusEffects
  split
  · rfl
  · rfl

/-! ## Handlers that have nothing to do with transfers -/

theorem processTypeCmd_keeps (arg : WString) (s : Session) : Keeps s (s.processTypeCmd arg) := by
  unfold processTypeCmd
  split
  · split
    · exact ⟨⟨rfl, rfl, rfl, rfl, rfl, rfl, rfl, rfl, rfl, rfl⟩, rfl⟩
    · split
      · exact ⟨⟨rfl, rfl, rfl, rfl, rfl, rfl, rfl, rfl, rfl, rfl⟩, rfl⟩
      · exact .answer s _ _ rfl
  · exact .answer s _ _ rfl

theorem processCdupCmd_keeps (s : Session) : Keeps s s.processCdupCmd :=
  ⟨⟨rfl, rfl, rfl, rfl, rfl, rfl, rfl, rfl, rfl, rfl⟩, rfl⟩

theorem processAuthCmd_keeps (build : Build) (sslContext useSsl : Bool) (arg : WString)
    (s : Session) : Keeps s (s.processAuthCmd build sslContext useSsl arg) := by
  unfold processAuthCmd
  split
  · exact .answer s _ _ rfl
  · split
    · split
      · exact .answer s _ _ rfl
      · split
        · exact ⟨.refl s, rfl⟩
        · exact .answer s _ _ rfl
    · exact .answer s _ _ rfl

theorem processCwdCmd_keeps (h : s.processCwdCmd env user arg = .ok o) : Keeps s o := by
  unfold processCwdCmd at h
  split at h
  · rcases eq_ok_of_bind h with ⟨u, -, h⟩
    dsimp only at h
    split at h
    · cases h
      exact ⟨⟨rfl, rfl, rfl, rfl, rfl, rfl, rfl, rfl, rfl, rfl⟩, statusEffects_jobs _⟩
    · cases h
      exact .answer s _ _ (statusEffects_jobs _)
  · cases h
    exact .answer s _ _ rfl

theorem processMdtmCmd_keeps (h : s.processMdtmCmd env user arg = .ok o) : Keeps s o := by
  unfold processMdtmCmd at h
  split at h
  · rcases eq_ok_of_bind h with ⟨u, -, h⟩
    dsimp only at h
    split at h
    · split at h
      · cases h
        exact .answer s _ _ rfl
      · cases h
        exact .answer s _ _ rfl
    · cases h
      exact .answer s _ _ (statusEffects_jobs _)
  · cases h
    exact .answer s _ _ rfl

theorem processSizeCmd_keeps (h : s.processSizeCmd env user arg = .ok o) : Keeps s o := by
  unfold processSizeCmd at h
  split at h
  · rcases eq_ok_of_bind h with ⟨u, -, h⟩
    dsimp only at h
    split at h
    · split at h
      · cases h
        exact .answer s _ _ rfl
      · cases h
        exact .answer s _ _ rfl
    · cases h
      exact .answer s _ _ rfl
  · cases h
    exact .answer s _ _ rfl

theorem ActsOnPath.keeps {privilege : UserPrivilege} {act : WString → Effect}
    (h : ActsOnPath env s user arg privilege act o) (hact : ∀ path, jobOf (act path) = none) :
    Keeps s o := by
  cases h with
  | answers => exact .answer s _ _ rfl
  | looks => exact .answer s _ _ (statusEffects_jobs _)
  | acts =>
    apply Keeps.answer s
    rw [List.filterMap_cons_none rfl, List.filterMap_cons_none (hact _)]
    rfl

theorem processDelCmd_keeps (h : s.processDelCmd env user arg = .ok o) : Keeps s o :=
  (processDelCmd_acts h).keeps fun _ ↦ rfl

theorem processRnfrCmd_keeps (h : s.processRnfrCmd env user arg = .ok o) : Keeps s o := by
  rcases eq_ok_of_bind h with ⟨u, -, h⟩
  split at h
  · cases h
    exact .answer s _ _ rfl
  · split at h
    · dsimp only at h
      split at h
      · cases h
        exact ⟨⟨rfl, rfl, rfl, rfl, rfl, rfl, rfl, rfl, rfl, rfl⟩, rfl⟩
      · cases h
        exact .answer s _ _ (statusEffects_jobs _)
    · cases h
      exact .answer s _ _ rfl

theorem processRntoCmd_keeps (h : s.processRntoCmd env user arg = .ok o) : Keeps s o := by
  unfold processRntoCmd at h
  split at h
  · split at h
    · rcases eq_ok_of_bind h with ⟨u, -, h⟩
      dsimp only at h
      split at h
      · split at h
        · cases h
          exact ⟨⟨rfl, rfl, rfl, rfl, rfl, rfl, rfl, rfl, rfl, rfl⟩, rfl⟩
        · cases h
          exact ⟨⟨rfl, rfl, rfl, rfl, rfl, rfl, rfl, rfl, rfl, rfl⟩, rfl⟩
      · cases h
        exact ⟨⟨rfl, rfl, rfl, rfl, rfl, rfl, rfl, rfl, rfl, rfl⟩, rfl⟩
    · cases h
      exact .answer s _ _ rfl
  · cases h
    exact .answer s _ _ rfl

theorem processMkdCmd_keeps (h : s.processMkdCmd env user arg = .ok o) : Keeps s o :=
  (processMkdCmd_acts h).keeps fun _ ↦ rfl

theorem processRmdCmd_keeps (h : s.processRmdCmd env user arg = .ok o) : Keeps s o :=
  (processRmdCmd_acts h).keeps fun _ ↦ rfl

theorem processSiteCmd_keeps (h : s.processSiteCmd user arg = .ok o) : Keeps s o := by
  unfold processSiteCmd at h
  split at h
  · rcases eq_ok_of_bind h with ⟨u, -, h⟩
    split at h
    · split at h
      · cases h
        apply Keeps.answer s
        split
        · rfl
        · rfl
      · cases h
        exact .answer s _ _ rfl
    · cases h
      exact ⟨.refl s, rfl⟩
  · cases h
    exact .answer s _ _ rfl

/-! ## The data connection -/

/-- What `open_data_connection` does. -/
structure OpenedData (env : Env) (sslContext : Bool) (s t : Session) (opened : Bool)
    (fx : List Effect) : Prop where
  status : t.curStatus = s.curStatus
  restartAt : t.restartAt = s.restartAt
  dataUseSsl : t.dataUseSsl = s.dataUseSsl
  currentDirectory : t.currentDirectory = s.currentDirectory
  jobs : fx.filterMap jobOf = []
  dataSocket : s.dataSocket ≠ none → t.dataSocket ≠ none
  sslSocket : s.sslSocket ≠ none → t.sslSocket ≠ none
  connected : t.dataSocket = some .connected → s.connects env = true ∨ s.dataSocket = some .connected
  ready : opened = true → s.connects env = true ∧ t.dataSocket ≠ none ∧
    (s.dataUseSsl = true → t.sslSocket ≠ none)
  opened_iff : opened = s.dataOpens env sslContext

theorem openDataConnection_opened {sslContext opened : Bool} {fx : List Effect}
    (h : s.openDataConnection env sslContext = .ok (t, opened, fx)) :
    OpenedData env sslContext s t opened fx := by
  -- TLS is set up, if it is asked for, once the peer is there
  have hsecure : ∀ acceptor, s.connects env = true →
      ({ s with dataSocket := some .connected, dataAcceptor := acceptor } : Session).secureData env
        sslContext = (t, opened, fx) → OpenedData env sslContext s t opened fx := by
    intro acceptor hconnects hsecured
    unfold secureData at hsecured
    cases hssl : s.dataUseSsl with
    | false =>
      rw [if_neg (by rw [hssl]; decide)] at hsecured
      cases hsecured
      refine ⟨rfl, rfl, rfl, rfl, rfl, fun _ ↦ by simp, id, fun _ ↦ .inl hconnects,
        fun _ ↦ ⟨hconnects, by simp, fun h ↦ ?_⟩, ?_⟩
      · rw [hssl] at h
        cases h
      · simp [dataOpens, hconnects, hssl]
    | true =>
      rw [if_pos hssl] at hsecured
      dsimp only at hsecured
      split at hsecured
      · rename_i hnone
        cases hsecured
        refine ⟨rfl, rfl, rfl, rfl, rfl, fun _ ↦ by simp, id, fun _ ↦ .inl hconnects,
          fun h ↦ absurd h Bool.false_ne_true, ?_⟩
        simp [dataOpens, hssl, hnone.1, hnone.2]
      · rename_i hsome
        have hready : (s.sslSocket ≠ none ∨ sslContext = true) := by
          rw [not_and_or, Bool.not_eq_false] at hsome
          exact hsome
        split at hsecured
        · rename_i hshakes
          cases hsecured
          refine ⟨rfl, rfl, rfl, rfl, rfl, fun _ ↦ by simp, fun _ ↦ by simp, fun _ ↦ .inl hconnects,
            fun _ ↦ ⟨hconnects, by simp, fun _ ↦ by simp⟩, ?_⟩
          simp only [dataOpens, hconnects, hssl, hshakes]
          simpa using hready
        · rename_i hshakes
          cases hsecured
          refine ⟨rfl, rfl, rfl, rfl, rfl, fun _ ↦ by simp, fun _ ↦ by simp, fun _ ↦ .inl hconnects,
            fun h ↦ absurd h Bool.false_ne_true, ?_⟩
          simp [dataOpens, hssl, hshakes]
  unfold openDataConnection at h
  split at h
  · rename_i hmode
    cases h
    refine ⟨rfl, rfl, rfl, rfl, rfl, id, id, .inr, fun h ↦ absurd h Bool.false_ne_true, ?_⟩
    simp [dataOpens, connects, hmode]
  · rename_i hmode
    split at h
    · cases h
    · dsimp only at h
      cases haccept : env.accept with
      | true =>
        rw [haccept, if_pos rfl, if_pos rfl] at h
        exact hsecure _ (by simp [connects, hmode, haccept]) (Except.ok.inj h)
      | false =>
        rw [haccept, if_neg Bool.false_ne_true, if_neg Bool.false_ne_true] at h
        cases h
        refine ⟨rfl, rfl, rfl, rfl, rfl, fun _ ↦ by simp, id, fun hsocket ↦ .inr ?_,
          fun h ↦ absurd h Bool.false_ne_true, ?_⟩
        · cases hold : s.dataSocket with
          | none => simp [hold] at hsocket
          | some state => simpa [hold] using hsocket
        · simp [dataOpens, connects, hmode, haccept]
  · rename_i hmode
    split at h
    · rename_i hopen
      cases h
      refine ⟨rfl, rfl, rfl, rfl, rfl, fun _ ↦ by simp, id, fun hsocket ↦ .inr ?_,
        fun h ↦ absurd h Bool.false_ne_true, ?_⟩
      · cases hold : s.dataSocket with
        | none => simp [hold] at hsocket
        | some state => simpa [hold] using hsocket
      · simp [dataOpens, connects, hmode, hopen]
    · rename_i hopen
      split at h
      · rename_i hconnect
        cases h
        refine ⟨rfl, rfl, rfl, rfl, rfl, fun _ ↦ by simp, id, fun h ↦ absurd h (by simp),
          fun h ↦ absurd h Bool.false_ne_true, ?_⟩
        simp [dataOpens, connects, hmode, hconnect]
      · rename_i hconnect
        refine hsecure s.dataAcceptor ?_ (Except.ok.inj h)
        simp only [Bool.not_eq_false] at hopen hconnect
        simp [connects, hmode, hopen, hconnect]

/-! ## Handlers that work on the transfer -/

theorem closeDataSocket_ok (h : s.closeDataSocket = .ok t) :
    t = { s with dataSocket := some .closed } ∧ (s.dataUseSsl = true → s.sslSocket ≠ none) ∧
      (s.dataUseSsl = false → s.dataSocket ≠ none) := by
  unfold closeDataSocket at h
  split at h
  · rename_i hssl
    split at h
    · cases h
    · rename_i hsome
      cases h
      exact ⟨rfl, fun _ ↦ hsome, fun hclear ↦ absurd (hssl.symm.trans hclear) (by decide)⟩
  · rename_i hssl
    split at h
    · cases h
    · rename_i hsome
      cases h
      exact ⟨rfl, fun hset ↦ absurd hset hssl, fun _ ↦ hsome⟩

/-- What giving up the data mode leaves. -/
structure ResetData (s t : Session) : Prop where
  status : t.curStatus = s.curStatus
  restartAt : t.restartAt = s.restartAt
  dataUseSsl : t.dataUseSsl = s.dataUseSsl
  sslSocket : t.sslSocket = s.sslSocket
  dataSocket : (s.curDataMode = .none ∨ s.dataSocket = none) ∧ t.dataSocket = s.dataSocket ∨
    s.curDataMode ≠ .none ∧ s.dataSocket ≠ none ∧ t.dataSocket = some .closed

theorem resetDataMode_ok (h : s.resetDataMode = .ok t) : ResetData s t := by
  unfold resetDataMode at h
  split at h
  · rename_i hmode
    dsimp only at h
    split at h
    · rename_i hsocket
      rcases eq_ok_of_bind h with ⟨r, hclose, h⟩
      cases h
      cases (closeDataSocket_ok hclose).1
      exact ⟨rfl, rfl, rfl, rfl, .inr ⟨hmode, hsocket, rfl⟩⟩
    · rename_i hsocket
      cases h
      exact ⟨rfl, rfl, rfl, rfl, .inl ⟨.inr (not_not.mp hsocket), rfl⟩⟩
  · rename_i hmode
    cases h
    exact ⟨rfl, rfl, rfl, rfl, .inl ⟨.inl (not_not.mp hmode), rfl⟩⟩

theorem processProtCmd_acted (build : Build) (useSsl : Bool) {sslContext : Bool} {cmd : Command}
    (hid : cmd.id = .PROT) (s : Session) :
    Acted env sslContext user s cmd (s.processProtCmd build useSsl cmd.args) := by
  have hother : s.opensData user cmd = false := opensData_eq_false (by rw [hid]; rfl)
  unfold processProtCmd
  dsimp only
  split
  · exact .keeps (.answer s _ _ rfl) hother
  · split
    · split
      · exact .keeps (.answer s _ _ rfl) hother
      · rename_i hclear hssl
        rw [Bool.not_eq_false] at hssl
        refine .prot hid ?_ ?_ rfl
        · rw [hssl, hclear]
          rfl
        · rw [hssl]
          rfl
    · split
      · rename_i hprotect
        split
        · split
          · exact .keeps (.answer s _ _ rfl) hother
          · rename_i hssl
            rw [Bool.not_eq_true] at hssl
            split
            · refine .prot hid ?_ ?_ rfl
              · rw [hssl, hprotect]
                rfl
              · rw [hssl]
                rfl
            · exact .keeps (.answer s _ _ rfl) hother
        · exact .keeps (.answer s _ _ rfl) hother
      · exact .keeps (.answer s _ _ rfl) hother

theorem processAborCmd_acted {sslContext : Bool} {cmd : Command} (hid : cmd.id = .ABOR)
    (h : s.processAborCmd = .ok o) : Acted env sslContext user s cmd o := by
  have hother : s.opensData user cmd = false := opensData_eq_false (by rw [hid]; rfl)
  unfold processAborCmd at h
  split at h
  · rename_i hbusy
    rcases eq_ok_of_bind h with ⟨t, hclose, h⟩
    cases h
    exact .abor hid hbusy hclose rfl rfl
  · cases h
    exact .keeps (.answer s _ _ rfl) hother

theorem processRestCmd_acted {sslContext : Bool} {cmd : Command} (hid : cmd.id = .REST)
    (s : Session) : Acted env sslContext user s cmd (s.processRestCmd cmd.args) := by
  have hother : s.opensData user cmd = false := opensData_eq_false (by rw [hid]; rfl)
  unfold processRestCmd
  split
  · rename_i hrest
    exact .rest hid hrest.2 _ rfl rfl rfl
  · exact .keeps (.answer s _ _ rfl) hother

theorem processPortCmd_acted {sslContext : Bool} {cmd : Command} (hid : cmd.id = .PORT)
    (h : s.processPortCmd cmd.args = .ok o) : Acted env sslContext user s cmd o := by
  have hother : s.opensData user cmd = false := opensData_eq_false (by rw [hid]; rfl)
  unfold processPortCmd at h
  split at h
  · cases h
    exact .keeps (.answer s _ _ rfl) hother
  · rename_i hstatus
    rw [not_not] at hstatus
    split at h
    · rcases eq_ok_of_bind h with ⟨t, hreset, h⟩
      cases h
      refine .address (.inl hid) hstatus hreset ?_ rfl rfl rfl rfl rfl
      cases hsocket : t.dataSocket with
      | none => exact .inr ⟨rfl, by simp [answer]⟩
      | some state => exact .inl (by simp [answer])
    · cases h
      exact .keeps (.answer s _ _ rfl) hother

theorem processPasvCmd_acted {sslContext : Bool} {cmd : Command} {serverIp : Nat}
    {ports ports' : DataPorts} (hid : cmd.id = .PASV)
    (h : s.processPasvCmd env serverIp ports = .ok (o, ports')) :
    Acted env sslContext user s cmd o := by
  have hother : s.opensData user cmd = false := opensData_eq_false (by rw [hid]; rfl)
  unfold processPasvCmd at h
  split at h
  · cases h
    exact .keeps (.answer s _ _ rfl) hother
  · rename_i hstatus
    rw [not_not] at hstatus
    rcases eq_ok_of_bind h with ⟨t, hreset, h⟩
    dsimp only at h
    split at h
    · cases h
      exact .address (.inr hid) hstatus hreset (.inl rfl) rfl rfl rfl rfl rfl
    · split at h
      · split at h
        · cases h
          exact .address (.inr hid) hstatus hreset (.inl rfl) rfl rfl rfl rfl rfl
        · cases h
          exact .address (.inr hid) hstatus hreset (.inl rfl) rfl rfl rfl rfl rfl
      · split at h
        · cases h
          exact .address (.inr hid) hstatus hreset (.inl rfl) rfl rfl rfl rfl rfl
        · cases h
          exact .address (.inr hid) hstatus hreset (.inl rfl) rfl rfl rfl rfl rfl

theorem processListCmd_acted {sslContext : Bool} {cmd : Command}
    (hid : cmd.id = .LIST ∨ cmd.id = .NLST ∨ cmd.id = .MLSD ∨ cmd.id = .STAT)
    (h : s.processListCmd env sslContext user cmd = .ok o) : Acted env sslContext user s cmd o := by
  rcases eq_ok_of_bind h with ⟨u, hu, h⟩
  rw [deref_ok hu]
  split at h
  · rename_i hholds
    cases h
    refine .keeps (.answer s _ _ rfl) ?_
    rcases hid with hid | hid | hid | hid <;>
      simp [opensData, entitled, Commands.transfers, hid, hholds]
  · rename_i hholds
    rw [Bool.not_eq_false] at hholds
    split at h
    · cases h
      exact .keeps (.answer s _ _ rfl) (opensData_of_busy (And.right ‹_›))
    · rename_i hready
      rcases eq_ok_of_ite_bind h with ⟨⟨t, opened, fx⟩, hopen, h⟩
      dsimp only at h
      by_cases hstat : cmd.id = .STAT
      · rw [if_neg (not_not.mpr hstat)] at hopen
        cases hopen
        rw [if_neg (by decide)] at h
        split at h
        · cases h
          exact .stat hstat rfl rfl
        · cases h
          exact .keeps (.answer s _ _ rfl) (opensData_eq_false (by rw [hstat]; rfl))
      · rw [if_pos hstat] at hopen
        have hstatus : s.curStatus = .waiting := by
          by_contra hbusy
          exact hready ⟨hstat, hbusy⟩
        have hopens : s.opensData (some u) cmd = true := by
          rcases hid with hid | hid | hid | hid
          · simp [opensData, entitled, Commands.transfers, hid, hholds, hstatus]
          · simp [opensData, entitled, Commands.transfers, hid, hholds, hstatus]
          · simp [opensData, entitled, Commands.transfers, hid, hholds, hstatus]
          · exact absurd hid hstat
        have hspec := openDataConnection_opened hopen
        have hwaiting : t.curStatus = .waiting := hspec.status.trans hstatus
        have hfile : Commands.transfersFile cmd.id = false := by
          rcases hid with hid | hid | hid | hid
          · rw [hid]; rfl
          · rw [hid]; rfl
          · rw [hid]; rfl
          · rw [hid]; rfl
        have hnofile : s.startsFile env sslContext (some u) cmd = false := by
          have hfinds : s.findsFile env u cmd = false := by
            unfold findsFile
            rcases hid with hid | hid | hid | hid
            · rw [hid]
            · rw [hid]
            · rw [hid]
            · rw [hid]
          simp [startsFile, hfinds]
        split at h
        · cases h
          exact .opens hopens hopen rfl rfl rfl
            (.refused hspec.jobs hwaiting (.inl hspec.restartAt) hnofile)
        · rename_i hopened
          rw [Bool.not_eq_false] at hopened
          split at h
          · cases h
            refine .opens hopens hopen rfl rfl rfl (.list hopened hfile ?_ hwaiting hspec.restartAt)
            rw [List.filterMap_append, hspec.jobs]
            rfl
          · cases h
            exact .opens hopens hopen rfl rfl rfl
              (.refused hspec.jobs hwaiting (.inl hspec.restartAt) hnofile)

theorem processRetrCmd_acted {sslContext : Bool} {cmd : Command} (hid : cmd.id = .RETR)
    (h : s.processRetrCmd env sslContext user cmd.args = .ok o) :
    Acted env sslContext user s cmd o := by
  rcases eq_ok_of_bind h with ⟨u, hu, h⟩
  rw [deref_ok hu]
  split at h
  · rename_i hholds
    cases h
    refine .keeps (.answer s _ _ rfl) ?_
    simp [opensData, entitled, hid, hholds]
  · rename_i hholds
    rw [Bool.not_eq_false] at hholds
    split at h
    · rename_i hargs
      split at h
      · cases h
        exact .keeps (.answer s _ _ rfl) (opensData_of_busy ‹_›)
      · rename_i hstatus
        rw [not_not] at hstatus
        rcases eq_ok_of_bind h with ⟨⟨t, opened, fx⟩, hopen, h⟩
        have hopens : s.opensData (some u) cmd = true := by
          simp [opensData, entitled, Commands.transfers, hid, hholds, hstatus, hargs]
        have hspec := openDataConnection_opened hopen
        have hwaiting : t.curStatus = .waiting := hspec.status.trans hstatus
        dsimp only at h
        split at h
        · rename_i hclosed
          cases h
          have hnofile : s.startsFile env sslContext (some u) cmd = false := by
            simp [startsFile, ← hspec.opened_iff, hclosed]
          exact .opens hopens hopen rfl rfl rfl
            (.refused hspec.jobs hwaiting (.inl hspec.restartAt) hnofile)
        · rename_i hopened
          rw [Bool.not_eq_false] at hopened
          rw [hspec.currentDirectory] at h
          split at h
          · split at h
            · rename_i hjoinable
              cases h
              refine .opens hopens hopen rfl rfl rfl
                (.refused ?_ rfl (.inr ⟨by rw [hid]; rfl, rfl⟩) (by simp [startsFile, hjoinable]))
              show (fx ++ _).filterMap jobOf = []
              rw [List.filterMap_append, hspec.jobs]
              rfl
            · cases h
              refine .opens hopens hopen rfl rfl rfl
                (.retrieve hopened hid ?_ rfl hspec.restartAt)
              rw [List.filterMap_append, List.filterMap_append, hspec.jobs]
              rfl
          · rename_i hmissing
            cases h
            have hnofile : s.startsFile env sslContext (some u) cmd = false := by
              rw [Bool.not_eq_true] at hmissing
              simp [startsFile, findsFile, hid, hmissing]
            refine .opens hopens hopen rfl rfl rfl
              (.refused ?_ hwaiting (.inl hspec.restartAt) hnofile)
            show (fx ++ _).filterMap jobOf = []
            rw [List.filterMap_append, hspec.jobs, statusEffects_jobs]
            rfl
    · cases h
      rename_i hargs
      refine .keeps (.answer s _ _ rfl) ?_
      simp [opensData, entitled, hid, not_not.mp hargs]

-- STOU looks for its name and creates nothing
theorem searchUniqueName_jobs {home current : WString} {left tried : Nat}
    {r : WString × List Effect} (h : searchUniqueName env home current left tried = .ok r) :
    r.2.filterMap jobOf = [] := by
  induction left generalizing tried r with
  | zero => cases h
  | succ left ih =>
    unfold searchUniqueName at h
    dsimp only at h
    split at h
    · rcases eq_ok_of_bind h with ⟨found, hfound, h⟩
      cases h
      have hrest : found.2.filterMap jobOf = [] := ih hfound
      exact hrest
    · cases h
      rfl

theorem processStorCmd_acted {sslContext : Bool} {cmd : Command}
    (hid : cmd.id = .STOR ∨ cmd.id = .APPE ∨ cmd.id = .STOU)
    (h : s.processStorCmd env sslContext user cmd = .ok o) : Acted env sslContext user s cmd o := by
  rcases eq_ok_of_bind h with ⟨u, hu, h⟩
  rw [deref_ok hu]
  split at h
  · rename_i hholds
    cases h
    refine .keeps (.answer s _ _ rfl) ?_
    rcases hid with hid | hid | hid <;> simp [opensData, entitled, hid, hholds]
  · rename_i hholds
    rw [Bool.not_eq_false] at hholds
    split at h
    · rename_i hargs
      split at h
      · cases h
        exact .keeps (.answer s _ _ rfl) (opensData_of_busy ‹_›)
      · rename_i hstatus
        rw [not_not] at hstatus
        rcases eq_ok_of_bind h with ⟨⟨t, opened, fx⟩, hopen, h⟩
        have hopens : s.opensData (some u) cmd = true := by
          rcases hid with hid | hid | hid
          · have hname : cmd.args ≠ [] := hargs.resolve_right (by rw [hid]; decide)
            simp [opensData, entitled, Commands.transfers, hid, hholds, hstatus, hname]
          · have hname : cmd.args ≠ [] := hargs.resolve_right (by rw [hid]; decide)
            simp [opensData, entitled, Commands.transfers, hid, hholds, hstatus, hname]
          · simp [opensData, entitled, Commands.transfers, hid, hholds, hstatus]
        have hspec := openDataConnection_opened hopen
        have hwaiting : t.curStatus = .waiting := hspec.status.trans hstatus
        dsimp only at h
        split at h
        · rename_i hclosed
          cases h
          have hnofile : s.startsFile env sslContext (some u) cmd = false := by
            simp [startsFile, ← hspec.opened_iff, hclosed]
          exact .opens hopens hopen rfl rfl rfl
            (.refused hspec.jobs hwaiting (.inl hspec.restartAt) hnofile)
        · rename_i hopened
          rw [Bool.not_eq_false] at hopened
          rcases eq_ok_of_ite_bind h with ⟨⟨unique, searched⟩, hsearch, h⟩
          have hsearched : searched.filterMap jobOf = [] ∧ (cmd.id ≠ .STOU → unique = []) := by
            split at hsearch
            · rename_i hstou
              exact ⟨searchUniqueName_jobs hsearch, fun hne ↦ absurd hstou hne⟩
            · cases hsearch
              exact ⟨rfl, fun _ ↦ rfl⟩
          dsimp only at h
          generalize hpath : (if unique ≠ [] then unique else buildPath env.canonical
            u.homeDirectory t.currentDirectory cmd.args false) = path at h
          split at h
          · generalize hsized : (if cmd.id = .APPE then
                if (env.getFileStatus path).isSome then
                  ((((env.fileSize path).getD 0 : Nat) : Int),
                    [Effect.status path, Effect.fileSize path])
                else (0, [Effect.status path])
              else (t.restartAt, [])) = sized at h
            have hoffset : sized.2.filterMap jobOf = [] ∧ sized.1
                = if cmd.id = .APPE then s.appendOffset env (some u) cmd else s.restartAt := by
              rw [← hsized]
              by_cases happe : cmd.id = .APPE
              · -- APPE has no name made up for it
                rw [if_pos happe, if_pos happe]
                have hunique := hsearched.2 (by rw [happe]; decide)
                rw [if_neg (not_not.mpr hunique), hspec.currentDirectory] at hpath
                unfold appendOffset
                dsimp only
                rw [hpath]
                split
                · exact ⟨rfl, rfl⟩
                · exact ⟨rfl, rfl⟩
              · rw [if_neg happe, if_neg happe]
                exact ⟨rfl, hspec.restartAt⟩
            have hbefore : ∀ r : Reply,
                (fx ++ searched ++ sized.2 ++ [Effect.send r.content]).filterMap jobOf = [] := by
              intro r
              rw [List.filterMap_append, List.filterMap_append, List.filterMap_append, hspec.jobs,
                hsearched.1, hoffset.1]
              rfl
            split at h
            · rename_i hjoinable
              cases h
              have hfile : Commands.transfersFile cmd.id = true := by
                rcases hid with hid | hid | hid
                · rw [hid]; rfl
                · rw [hid]; rfl
                · rw [hid]; rfl
              exact .opens hopens hopen rfl rfl rfl
                (.refused (hbefore _) rfl (.inr ⟨hfile, rfl⟩) (by simp [startsFile, hjoinable]))
            · cases h
              refine .opens hopens hopen rfl rfl rfl (.store hopened hid ?_ rfl hoffset.2)
              rw [List.filterMap_append, hbefore]
              rfl
          · rename_i hempty
            cases h
            have hnofile : s.startsFile env sslContext (some u) cmd = false := by
              have hnowhere : u.homeDirectory = [] ∨ s.currentDirectory = [] := by
                rw [not_not] at hempty
                rw [hempty] at hpath
                have hunique : unique = [] := by
                  by_contra hname
                  rw [if_pos hname] at hpath
                  exact hname hpath
                rw [if_neg (not_not.mpr hunique), hspec.currentDirectory] at hpath
                exact (buildPath_eq_nil ..).mp hpath
              have hfinds : s.findsFile env u cmd = false := by
                unfold findsFile
                rcases hid with hid | hid | hid <;> rw [hid] <;> rcases hnowhere with hnil | hnil <;>
                  simp [hnil]
              simp [startsFile, hfinds]
            refine .opens hopens hopen rfl rfl rfl
              (.refused ?_ hwaiting (.inl hspec.restartAt) hnofile)
            rw [List.filterMap_append, hspec.jobs, hsearched.1]
            rfl
    · cases h
      rename_i hargs
      rw [not_or, not_not] at hargs
      refine .keeps (.answer s _ _ rfl) ?_
      rcases hid with hid | hid | hid
      · simp [opensData, entitled, hid, hargs.1]
      · simp [opensData, entitled, hid, hargs.1]
      · exact absurd hid hargs.2

end Session

/-! ## All commands -/

-- every command that transfers data has a handler
theorem transfers_of_plain {build : Build} {env : Env} {σ : FtpServer} {c : ClientRef}
    {cmd : Command} (h : σ.sessionHandler build env c cmd = none) :
    Commands.transfers cmd.id = false := by
  unfold FtpServer.sessionHandler at h
  cases hid : cmd.id <;> first | rfl | (rw [hid] at h; cases h)

open Session in
theorem FtpServer.SessionRun.acted {build : Build} {env : Env} {σ : FtpServer} {c : ClientRef}
    {cmd : Command} {o : Outcome} {ports : DataPorts}
    (h : FtpServer.SessionRun build env σ c cmd o ports) :
    Acted env σ.sslContext ((σ.nodes c).user.map σ.userManager.users) (σ.nodes c).toSession cmd
      o := by
  have hkeeps : ∀ {o : Outcome}, Keeps (σ.nodes c).toSession o →
      Commands.transfers cmd.id = false → Acted env σ.sslContext
        ((σ.nodes c).user.map σ.userManager.users) (σ.nodes c).toSession cmd o :=
    fun hkeeps hid ↦ .keeps hkeeps (opensData_eq_false hid)
  cases h with
  | pasv hid h => exact processPasvCmd_acted hid h
  | plain h => exact hkeeps ⟨.refl _, rfl⟩ (transfers_of_plain h)
  | handler h =>
    unfold FtpServer.sessionHandler at h
    dsimp only at h
    cases hid : cmd.id <;> rw [hid] at h <;> dsimp only at h
    case SITE =>
      split at h
      · exact hkeeps (processSiteCmd_keeps (Option.some.inj h)) (by rw [hid]; rfl)
      · cases h
    case TYPE =>
      cases h
      exact hkeeps (processTypeCmd_keeps _ _) (by rw [hid]; rfl)
    case PORT => exact processPortCmd_acted hid (Option.some.inj h)
    case LIST => exact processListCmd_acted (.inl hid) (Option.some.inj h)
    case NLST => exact processListCmd_acted (.inr (.inl hid)) (Option.some.inj h)
    case MLSD => exact processListCmd_acted (.inr (.inr (.inl hid))) (Option.some.inj h)
    case CWD => exact hkeeps (processCwdCmd_keeps (Option.some.inj h)) (by rw [hid]; rfl)
    case PROT =>
      cases h
      exact processProtCmd_acted _ _ hid _
    case AUTH =>
      cases h
      exact hkeeps (processAuthCmd_keeps _ _ _ _ _) (by rw [hid]; rfl)
    case MDTM => exact hkeeps (processMdtmCmd_keeps (Option.some.inj h)) (by rw [hid]; rfl)
    case CDUP =>
      cases h
      exact hkeeps (processCdupCmd_keeps _) (by rw [hid]; rfl)
    case STAT =>
      split at h
      · exact processListCmd_acted (.inr (.inr (.inr hid))) (Option.some.inj h)
      · cases h
    case ABOR => exact processAborCmd_acted hid (Option.some.inj h)
    case REST =>
      cases h
      exact processRestCmd_acted hid _
    case RETR => exact processRetrCmd_acted hid (Option.some.inj h)
    case STOR => exact processStorCmd_acted (.inl hid) (Option.some.inj h)
    case APPE => exact processStorCmd_acted (.inr (.inl hid)) (Option.some.inj h)
    case STOU => exact processStorCmd_acted (.inr (.inr hid)) (Option.some.inj h)
    case SIZE => exact hkeeps (processSizeCmd_keeps (Option.some.inj h)) (by rw [hid]; rfl)
    case DELE => exact hkeeps (processDelCmd_keeps (Option.some.inj h)) (by rw [hid]; rfl)
    case RNFR => exact hkeeps (processRnfrCmd_keeps (Option.some.inj h)) (by rw [hid]; rfl)
    case RNTO => exact hkeeps (processRntoCmd_keeps (Option.some.inj h)) (by rw [hid]; rfl)
    case MKD => exact hkeeps (processMkdCmd_keeps (Option.some.inj h)) (by rw [hid]; rfl)
    case RMD => exact hkeeps (processRmdCmd_keeps (Option.some.inj h)) (by rw [hid]; rfl)
    -- every other command has no handler of the session
    all_goals cases h

end YFtp
