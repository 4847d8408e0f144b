import YFtp.ReplyTexts
import YFtp.ThreadProgress

/-!
# Exchanges

A command line, and what comes back for it on the control connection until it is answered: from
`process_command`, and from the worker that the command starts.
-/

namespace YFtp

open Theory

/-! ## Final replies among texts -/

/-- The text is a final reply, of one line or of several. -/
def isFinal (text : WString) : Bool :=
  match text with
  | a :: b :: c :: separator :: rest =>
    '2' ≤ a && a ≤ '5' && b.isDigit && c.isDigit && (separator = ' ' ||
      separator = '-' && decide ('\r' :: '\n' :: a :: b :: c :: [' '] <:+: rest))
  | _ => false

def finals (texts : List WString) : Nat := texts.countP isFinal

/-- One final reply now, or none yet and a worker that goes on. -/
def OneAnswer (reply : Reply) (fx : List Effect) : Prop :=
  finals (textsOf reply fx) = if startedJobs fx = [] then 1 else 0

theorem finalCode_digits : ∀ code < 600, 200 ≤ code → (match decimal code with
    | [a, b, c] => '2' ≤ a && a ≤ '5' && b.isDigit && c.isDigit
    | _ => false) = true := by decide +kernel

theorem isFinal_create {code : Nat} (text : WString) (h : FinalCode code) :
    isFinal (Reply.create code text).content = true := by
  have hdigits := finalCode_digits code h.2 h.1
  unfold Reply.create
  dsimp only
  rw [if_pos h.pos]
  split at hdigits
  · rename_i a b c hcode
    rw [hcode]
    show ('2' ≤ a && a ≤ '5' && b.isDigit && c.isDigit && _) = true
    rw [hdigits]
    rfl
  · cases hdigits

section Answers

variable {announced : List WString} {arg : WString} {reply : Reply} {fx : List Effect} {job : Job}

theorem finals_append (l l' : List WString) : finals (l ++ l') = finals l + finals l' :=
  List.countP_append

theorem finals_properAfter (h : ProperAfter announced arg reply fx) :
    finals (textsOf reply fx) = finals announced + 1 := by
  rcases h.texts with ⟨code, text, hcode, -, htexts⟩
  rw [htexts, finals_append]
  unfold finals
  rw [List.countP_singleton, isFinal_create text hcode]
  rfl

theorem oneAnswer_properAfter_iff (h : ProperAfter announced arg reply fx) :
    OneAnswer reply fx ↔ finals announced = 0 := by
  unfold OneAnswer
  rw [finals_properAfter h, if_pos h.jobs]
  omega

theorem oneAnswer_proper (h : Proper arg reply fx) : OneAnswer reply fx :=
  (oneAnswer_properAfter_iff h).mpr rfl

theorem oneAnswer_starts (h : Starts announced job reply fx) (hfinals : finals announced = 0) :
    OneAnswer reply fx := by
  unfold OneAnswer
  rw [h.texts, h.jobs, hfinals]
  rfl

theorem oneAnswer_create {code : Nat} {text : WString} (hcode : FinalCode code) :
    OneAnswer (.create code text) [] := by
  unfold OneAnswer finals
  rw [textsOf_create hcode.pos]
  show List.countP isFinal [(Reply.create code text).content] = 1
  rw [List.countP_singleton, isFinal_create text hcode]
  rfl

theorem not_oneAnswer (h : Unanswered reply fx) : ¬ OneAnswer reply fx := by
  unfold OneAnswer
  rw [h.texts, h.jobs]
  decide

end Answers

/-! ## The switch -/

namespace FtpServer

variable {build : Build} {env : Env} {σ : FtpServer} {c : ClientRef} {cmd : Command} {a : Answer}

/-- The command is answered once, if the switch returns: USER for anonymous finds its account, SITE
asks for EXEC, ABOR has nothing to abort, and what STOR stores to has a path. -/
def Replies (build : Build) (env : Env) (σ : FtpServer) (c : ClientRef) (cmd : Command) : Prop :=
  let s := (σ.nodes c).toSession
  let user := (σ.nodes c).user.map σ.userManager.users
  match cmd.id with
  | .USER => σ.asksAnonymous cmd.args = true → σ.userManager.findUser "anonymous".toList ≠ none
  | .SITE => build.useExtraCmd = true → cmd.args = [] ∨ cmd.args.take 5 = "EXEC ".toList
  | .ABOR => s.curStatus = .waiting
  | .STOR | .APPE | .STOU => ∀ u, s.StoresTo env σ.sslContext user cmd u →
      u.homeDirectory ≠ [] ∧ s.currentDirectory ≠ []
  | _ => True

theorem texts_setParser {reply : Reply} {fx : List Effect} (p : RequestParser) :
    Texts build env (σ.setParser c p) c cmd reply fx ↔ Texts build env σ c cmd reply fx := by
  unfold Texts
  rw [setParser_nodes_self]
  exact Iff.rfl

/-- The switch answers a command once, if it leaves it with what it may. -/
theorem oneAnswer_iff_replies {reply : Reply} {fx : List Effect}
    (h : Texts build env σ c cmd reply fx) : OneAnswer reply fx ↔ Replies build env σ c cmd := by
  have hannounced : finals [Session.announcement] = 0 := rfl
  unfold Texts at h
  unfold Replies
  cases hid : cmd.id with
  | USER =>
    rw [hid] at h
    dsimp only at h ⊢
    split at h
    · rename_i hmissing
      exact iff_of_false (not_oneAnswer h) fun hfinds ↦ hfinds hmissing.1 hmissing.2
    · rename_i hfound
      exact iff_of_true (oneAnswer_proper h) fun hasks hnone ↦ hfound ⟨hasks, hnone⟩
  | SITE =>
    rw [hid] at h
    dsimp only at h ⊢
    split at h
    · rename_i hother
      exact iff_of_false (not_oneAnswer h) fun hexec ↦ hother.2 (hexec hother.1)
    · rename_i hexec
      exact iff_of_true (oneAnswer_proper h) fun hextra ↦ not_not.mp fun hother ↦
        hexec ⟨hextra, hother⟩
  | ABOR =>
    rw [hid] at h
    dsimp only at h ⊢
    split at h
    · rename_i hwaiting
      exact iff_of_true (oneAnswer_proper h) hwaiting
    · rename_i hbusy
      apply iff_of_false _ hbusy
      rw [oneAnswer_properAfter_iff h]
      exact (by decide : ¬ (1 = 0))
  | SIZE =>
    rw [hid] at h
    apply iff_of_true _ trivial
    rcases h with ⟨hproper, -⟩ | ⟨size, -, hjobs, htexts⟩
    · exact oneAnswer_proper hproper
    · unfold OneAnswer finals
      rw [htexts, hjobs, List.countP_singleton, isFinal_create _ (by decide)]
      rfl
  | LIST | NLST | MLSD =>
    rw [hid] at h
    apply iff_of_true _ trivial
    rcases h with hproper | hstarts
    · exact oneAnswer_proper hproper
    · exact oneAnswer_starts hstarts rfl
  | STAT =>
    rw [hid] at h
    apply iff_of_true _ trivial
    rcases h with hproper | ⟨-, hstarts⟩
    · exact oneAnswer_proper hproper
    · exact oneAnswer_starts hstarts rfl
  | RETR =>
    rw [hid] at h
    apply iff_of_true _ trivial
    rcases h with hproper | hproper | hstarts
    · exact oneAnswer_proper hproper
    · exact (oneAnswer_properAfter_iff hproper).mpr hannounced
    · exact oneAnswer_starts hstarts hannounced
  | STOR | APPE | STOU =>
    rw [hid] at h
    dsimp only at h ⊢
    rcases h with ⟨hproper, hnever⟩ | ⟨u, hstores, htexts⟩
    · exact iff_of_true (oneAnswer_proper hproper) fun u hstores ↦ absurd hstores (hnever u)
    · split at htexts
      · rename_i hempty
        apply iff_of_false (not_oneAnswer htexts)
        intro hpath
        rcases hempty with hhome | hcurrent
        · exact (hpath u hstores).1 hhome
        · exact (hpath u hstores).2 hcurrent
      · rename_i hpath
        apply iff_of_true
        · rcases htexts with ⟨unique, -, hproper | hstarts⟩
          · exact (oneAnswer_properAfter_iff hproper).mpr rfl
          · exact oneAnswer_starts hstarts rfl
        · intro u' hstores'
          rw [hstores.unique hstores']
          exact not_or.mp hpath
  | PWD =>
    rw [hid] at h
    apply iff_of_true _ trivial
    rcases h with ⟨rfl, rfl⟩
    unfold plainReply
    rw [hid]
    exact oneAnswer_create (by decide)
  | FEAT =>
    rw [hid] at h
    apply iff_of_true _ trivial
    rcases h with ⟨rfl, rfl⟩
    have hfinal : isFinal featText = true := by decide +kernel
    unfold OneAnswer finals
    rw [show textsOf (.create 0 featText) [] = [featText] from rfl, List.countP_singleton, hfinal]
    rfl
  | _ =>
    rw [hid] at h
    exact iff_of_true (oneAnswer_proper h) trivial

/-- The worker that is started and what has gone out for it: nothing for a listing, and status 150
for a file. -/
inductive Announced : Job → List WString → Prop
  | list (cmd : Command) : Announced (.list cmd false) []
  | file {job : Job} (text : WString) (hjob : job = .store ∨ job = .retrieve) :
    Announced job [(Reply.create 150 text).content]

theorem announced_of_texts {reply : Reply} {fx : List Effect} {job : Job} {jobs : List Job}
    (h : Texts build env σ c cmd reply fx) (hjob : startedJobs fx = job :: jobs) :
    Announced job (textsOf reply fx) := by
  have hnone (hnil : startedJobs fx = []) : Announced job (textsOf reply fx) := by
    rw [hnil] at hjob
    cases hjob
  have hstarted {announced : List WString} {job' : Job} (hstarts : Starts announced job' reply fx)
      (hannounced : Announced job' announced) : Announced job (textsOf reply fx) := by
    have hjobs := hstarts.jobs
    rw [hjob] at hjobs
    cases hjobs
    rw [hstarts.texts]
    exact hannounced
  unfold Texts at h
  cases hid : cmd.id with
  | USER =>
    rw [hid] at h
    dsimp only at h
    split at h
    · exact hnone h.jobs
    · exact hnone h.jobs
  | SITE =>
    rw [hid] at h
    dsimp only at h
    split at h
    · exact hnone h.jobs
    · exact hnone h.jobs
  | ABOR =>
    rw [hid] at h
    dsimp only at h
    split at h
    · exact hnone h.jobs
    · exact hnone h.jobs
  | SIZE =>
    rw [hid] at h
    rcases h with ⟨hproper, -⟩ | ⟨size, -, hjobs, -⟩
    · exact hnone hproper.jobs
    · exact hnone hjobs
  | LIST | NLST | MLSD =>
    rw [hid] at h
    rcases h with hproper | hstarts
    · exact hnone hproper.jobs
    · exact hstarted hstarts (.list _)
  | STAT =>
    rw [hid] at h
    rcases h with hproper | ⟨-, hstarts⟩
    · exact hnone hproper.jobs
    · exact hstarted hstarts (.list _)
  | RETR =>
    rw [hid] at h
    rcases h with hproper | hproper | hstarts
    · exact hnone hproper.jobs
    · exact hnone hproper.jobs
    · exact hstarted hstarts (.file _ (.inr rfl))
  | STOR | APPE | STOU =>
    rw [hid] at h
    dsimp only at h
    rcases h with ⟨hproper, -⟩ | ⟨u, -, htexts⟩
    · exact hnone hproper.jobs
    · split at htexts
      · exact hnone htexts.jobs
      · rcases htexts with ⟨unique, -, hproper | hstarts⟩
        · exact hnone hproper.jobs
        · exact hstarted hstarts (.file _ (.inl rfl))
  | PWD =>
    rw [hid] at h
    rcases h with ⟨-, rfl⟩
    exact hnone rfl
  | FEAT =>
    rw [hid] at h
    rcases h with ⟨-, rfl⟩
    exact hnone rfl
  | _ =>
    rw [hid] at h
    exact hnone h.jobs

/-- The line is answered once by `process_command`: it is UTF-8 and does not begin with a blank,
and if it is a command, then one that is harmless and left with what the switch answers. -/
def AnswersLine (build : Build) (σ : FtpServer) (k : Connection) (l : Line) : Prop :=
  ∃ first rest, utf82ws l.bytes = some (first :: rest) ∧ first ≠ ' ' ∧
    ∀ cmd reply, RequestParser.getCommand (σ.nodeFor k).isLogged l.bytes = .ok (cmd, reply) →
      cmd.id ≠ .invalid → Harmless build l.env (σ.clientFor k).1 (σ.clientFor k).2 cmd ∧
        Replies build l.env (σ.clientFor k).1 (σ.clientFor k).2 cmd

end FtpServer

/-! ## An exchange -/

/-- How far an exchange has come, with the texts that have gone out for its line; the end says
whether the control connection was open. -/
inductive Exchange
  | taken (σ : FtpServer) (k : Connection) (l : Line)
  | working (stage : Stage) (texts : List WString)
  | answered (texts : List WString) (isCtrlCanalOpen : Bool)
  | crashed (texts : List WString)

/-- `process_command` on the line, or a statement of the worker. -/
inductive Exchange.Turn
  | command
  | worker (view : View)

def ThreadEvent.repliedText : ThreadEvent → Option WString
  | .reply r => some r.content
  | _ => none

/-- The thread has statements left, and none of `list_thread` among them. -/
def Stage.beyondListing : Stage → Bool
  | .list _ _ | .ended => false
  | _ => true

def repliedTexts (fx : List ThreadEvent) : List WString := fx.filterMap ThreadEvent.repliedText

namespace Exchange

/-- The exchange after `process_command`. -/
def begun (reply : Reply) (fx : List Effect) : Exchange :=
  match startedJobs fx with
  | [] => .answered (textsOf reply fx) true
  | job :: _ => .working job.stage (textsOf reply fx)

/-- The exchange after a statement of the worker. -/
def continued (v : View) (stage : Stage) (texts : List WString) (r : StepResult) : Exchange :=
  let texts := texts ++ repliedTexts r.2.2
  match stage, r.2.1 with
  | .finish _ _, _ => .answered texts v.node.isCtrlCanalOpen
  | _, .ended => .answered texts true
  | _, next => .working next texts

def ofAnswer : Except Fault Answer → Exchange
  | .ok a => begun a.reply a.effects
  | .error _ => .crashed []

def ofStep (v : View) (stage : Stage) (texts : List WString) :
    Except ThreadFault StepResult → Exchange
  | .ok r => continued v stage texts r
  | .error _ => .crashed texts

def next (build : Build) : Exchange → Turn → Option Exchange
  | .taken σ k l, .command =>
    some (ofAnswer (σ.processLine build l.env k l.bytes l.parser))
  | .working stage texts, .worker v =>
    some (ofStep v stage texts (stage.step v.answers v.node v.user))
  | _, _ => none

def Proceeds (build : Build) (x : Exchange) (turn : Turn) (y : Exchange) : Prop :=
  x.next build turn = some y

/-- No final reply before the end; there at least one reply and, on a control connection that is
open, exactly one final reply. -/
def Orderly : Exchange → Prop
  | .taken _ _ _ => True
  | .working _ texts => finals texts = 0
  | .answered texts isCtrlCanalOpen => texts ≠ [] ∧ (isCtrlCanalOpen = true → finals texts = 1)
  | .crashed _ => False

/-- The line is one that is answered once, and the worker meets what it needs. -/
def Meets (build : Build) : Exchange → Turn → Prop
  | .taken σ k l, .command => σ.AnswersLine build k l
  | .working stage _, .worker v => stage.Proceeds v
  | _, _ => True

/-- How many statements the system calls for in a turn. -/
def supplied : Exchange → Turn → Nat
  | .working stage _, .worker v => stage.supplied v.answers
  | _, _ => 0

/-! ## What holds at each stage -/

/-- Nothing final has gone out, something has by the first statement that needs it, and a line of a
listing over the control connection is not final. -/
structure Underway (stage : Stage) (texts : List WString) : Prop where
  pending : finals texts = 0
  running : stage ≠ .ended
  announced : texts = [] → ∃ cmd, stage = .list cmd .begin ∨ stage = .list cmd .announce
  line : ∀ cmd text more, stage = .list cmd (.line text more) → cmd.id = .STAT →
    isFinal text = false

def Inv : Exchange → Prop
  | .working stage texts => Underway stage texts
  | x => x.Orderly

theorem orderly_of_inv {x : Exchange} (h : x.Inv) : x.Orderly := by
  cases x with
  | working stage texts => exact h.pending
  | _ => exact h

section Begun

variable {reply : Reply} {fx : List Effect}

theorem begun_orderly_iff : (begun reply fx).Orderly ↔ OneAnswer reply fx := by
  unfold begun OneAnswer
  split
  · rename_i hjobs
    rw [hjobs, if_pos rfl]
    constructor
    · exact fun h ↦ h.2 rfl
    · intro hone
      refine ⟨fun hnil ↦ ?_, fun _ ↦ hone⟩
      rw [hnil] at hone
      cases hone
  · rename_i job jobs hjobs
    rw [hjobs, if_neg (List.cons_ne_nil _ _)]
    exact Iff.rfl

theorem begun_inv (horderly : (begun reply fx).Orderly)
    (hannounced : ∀ job jobs, startedJobs fx = job :: jobs →
      FtpServer.Announced job (textsOf reply fx)) : (begun reply fx).Inv := by
  unfold begun at horderly ⊢
  split at horderly
  · exact horderly
  · rename_i job jobs hjobs
    have hstage := hannounced job jobs hjobs
    refine ⟨horderly, ?_, ?_, ?_⟩
    · cases job <;> exact fun h ↦ by cases h
    · intro hnil
      rw [hnil] at hstage
      cases hstage with
      | list cmd => exact ⟨cmd, .inl rfl⟩
    · intro cmd text more h
      cases job <;> cases h

end Begun

/-! ## Steps -/

section Command

variable {build : Build} {σ : FtpServer} {k : Connection} {l : Line}

theorem processLine_eq (build : Build) (env : Env) (σ : FtpServer) (k : Connection)
    (line : List UInt8) (parser : RequestParser) :
    σ.processLine build env k line parser
      = match RequestParser.getCommand (σ.nodeFor k).isLogged line with
        | .error fault => .error fault
        | .ok (cmd, ftpreply) =>
          if cmd.id = .invalid then
            .ok { server := σ.stored k (parser.setStatus (σ.nodeFor k).isLogged), reply := ftpreply }
          else (σ.stored k (parser.setStatus (σ.nodeFor k).isLogged)).dispatch build env
            (σ.clientFor k).2 cmd := rfl

/-- What `process_command` makes of a line. -/
inductive Processed (build : Build) (σ : FtpServer) (k : Connection) (l : Line) : Exchange → Prop
  | unread {fault : Fault}
      (hcommand : RequestParser.getCommand (σ.nodeFor k).isLogged l.bytes = .error fault) :
      Processed build σ k l (.crashed [])
  | declined {cmd : Command} {reply : Reply}
      (hcommand : RequestParser.getCommand (σ.nodeFor k).isLogged l.bytes = .ok (cmd, reply))
      (hid : cmd.id = .invalid) : Processed build σ k l (begun reply [])
  | crashed {cmd : Command} {reply : Reply}
      (hcommand : RequestParser.getCommand (σ.nodeFor k).isLogged l.bytes = .ok (cmd, reply))
      (hid : cmd.id ≠ .invalid)
      (hharmless : ¬ FtpServer.Harmless build l.env (σ.clientFor k).1 (σ.clientFor k).2 cmd) :
      Processed build σ k l (.crashed [])
  | handled {cmd : Command} {reply ftpreply : Reply} {fx : List Effect}
      (hcommand : RequestParser.getCommand (σ.nodeFor k).isLogged l.bytes = .ok (cmd, reply))
      (hid : cmd.id ≠ .invalid)
      (hharmless : FtpServer.Harmless build l.env (σ.clientFor k).1 (σ.clientFor k).2 cmd)
      (htexts : FtpServer.Texts build l.env (σ.clientFor k).1 (σ.clientFor k).2 cmd ftpreply fx) :
      Processed build σ k l (begun ftpreply fx)

theorem command_processed {y : Exchange} (h : Proceeds build (.taken σ k l) .command y) :
    Processed build σ k l y := by
  have hy : ofAnswer (σ.processLine build l.env k l.bytes l.parser) = y := Option.some.inj h
  rw [processLine_eq] at hy
  cases hcommand : RequestParser.getCommand (σ.nodeFor k).isLogged l.bytes with
  | error fault =>
    rw [hcommand] at hy
    rw [← hy]
    exact .unread hcommand
  | ok r =>
    rcases r with ⟨cmd, reply⟩
    rw [hcommand] at hy
    dsimp only at hy
    by_cases hid : cmd.id = .invalid
    · rw [if_pos hid] at hy
      rw [← hy]
      exact .declined hcommand hid
    · rw [if_neg hid] at hy
      generalize l.parser.setStatus (σ.nodeFor k).isLogged = p at hy
      have hharmless : Returns ((σ.stored k p).runSwitch build l.env (σ.clientFor k).2 cmd) ↔
          FtpServer.Harmless build l.env (σ.clientFor k).1 (σ.clientFor k).2 cmd :=
        (FtpServer.runSwitch_returns_iff ..).trans (FtpServer.harmless_setParser ..)
      rw [← hy, FtpServer.dispatch]
      cases hrun : (σ.stored k p).runSwitch build l.env (σ.clientFor k).2 cmd with
      | error fault =>
        rw [hrun] at hharmless
        exact .crashed hcommand hid (mt hharmless.mpr (not_returns_error _))
      | ok a =>
        rw [hrun] at hharmless
        have htexts : FtpServer.Texts build l.env ((σ.clientFor k).1.setParser (σ.clientFor k).2 p)
            (σ.clientFor k).2 cmd a.reply a.effects := FtpServer.runSwitch_texts hrun
        have hhandled : Processed build σ k l (begun a.reply a.effects) :=
          .handled hcommand hid (hharmless.mp (returns_ok a)) ((FtpServer.texts_setParser p).mp htexts)
        exact hhandled

/-- A line that is no command. -/
theorem invalid_orderly_iff {cmd : Command} {reply : Reply}
    (h : RequestParser.getCommand (σ.nodeFor k).isLogged l.bytes = .ok (cmd, reply))
    (hid : cmd.id = .invalid) :
    (begun reply []).Orderly ↔ σ.AnswersLine build k l := by
  rw [begun_orderly_iff]
  have hvalid : ∀ cmd' reply', RequestParser.getCommand (σ.nodeFor k).isLogged l.bytes =
      .ok (cmd', reply') → ¬ cmd'.id ≠ .invalid := by
    rintro cmd' reply' h'
    rw [h] at h'
    cases h'
    exact not_not.mpr hid
  cases htext : utf82ws l.bytes with
  | none =>
    have hreturns := (RequestParser.getCommand_returns_iff (σ.nodeFor k).isLogged l.bytes).mp ⟨_, h⟩
    exact absurd htext hreturns
  | some text =>
    cases text with
    | nil =>
      rw [RequestParser.getCommand, htext] at h
      cases h
      apply iff_of_false (not_oneAnswer ⟨rfl, rfl⟩)
      rintro ⟨first, rest, h, -⟩
      rw [htext] at h
      cases h
    | cons first rest =>
      have htexts := RequestParser.getCommand_texts htext (List.cons_ne_nil _ _) h hid
      split at htexts
      · rename_i hblank
        apply iff_of_false (not_oneAnswer htexts)
        rintro ⟨first', rest', h', hne, -⟩
        rw [htext] at h'
        cases h'
        exact hne (Option.some.inj hblank)
      · rename_i hword
        exact iff_of_true (oneAnswer_proper htexts)
          ⟨first, rest, htext, fun hblank ↦ hword (congrArg some hblank),
            fun cmd' reply' h' hid' ↦ absurd hid' (hvalid cmd' reply' h')⟩

theorem answersLine_iff {cmd : Command} {reply : Reply}
    (h : RequestParser.getCommand (σ.nodeFor k).isLogged l.bytes = .ok (cmd, reply))
    (hid : cmd.id ≠ .invalid) : σ.AnswersLine build k l ↔
      FtpServer.Harmless build l.env (σ.clientFor k).1 (σ.clientFor k).2 cmd ∧
        FtpServer.Replies build l.env (σ.clientFor k).1 (σ.clientFor k).2 cmd := by
  rcases RequestParser.getCommand_word h hid with ⟨first, rest, htext, hword⟩
  constructor
  · rintro ⟨-, -, -, -, hall⟩
    exact hall cmd reply h hid
  · intro hcmd
    refine ⟨first, rest, htext, hword, fun cmd' reply' h' _ ↦ ?_⟩
    rw [h] at h'
    cases h'
    exact hcmd

/-- `process_command` on a line. -/
theorem command_orderly_iff {y : Exchange} (h : Proceeds build (.taken σ k l) .command y) :
    (y.Orderly ↔ σ.AnswersLine build k l) ∧ (y.Orderly → y.Inv) := by
  cases command_processed h with
  | unread hcommand =>
    refine ⟨iff_of_false id ?_, False.elim⟩
    rintro ⟨first, rest, htext, -⟩
    have hreturns := (RequestParser.getCommand_returns_iff (σ.nodeFor k).isLogged l.bytes).mpr
      (by rw [htext]; exact Option.some_ne_none _)
    rw [hcommand] at hreturns
    exact not_returns_error _ hreturns
  | declined hcommand hid =>
    exact ⟨invalid_orderly_iff hcommand hid,
      fun horderly ↦ begun_inv horderly fun job jobs hjobs ↦ by cases hjobs⟩
  | crashed hcommand hid hharmless =>
    rw [answersLine_iff hcommand hid]
    exact ⟨iff_of_false id fun h ↦ hharmless h.1, False.elim⟩
  | handled hcommand hid hharmless htexts =>
    rw [answersLine_iff hcommand hid, and_iff_right hharmless, begun_orderly_iff]
    exact ⟨FtpServer.oneAnswer_iff_replies htexts, fun hone ↦
      begun_inv (begun_orderly_iff.mpr hone) fun _ _ ↦ FtpServer.announced_of_texts htexts⟩

end Command

section Worker

variable {build : Build} {stage : Stage} {texts : List WString} {v : View} {r : StepResult}

-- a thread that moves a file sends nothing on the way
theorem moved_silent {α : Type} {thread : α → Stage} {job : Job} {s : Session}
    (hthread : ∀ stage, (thread stage).beyondListing = true) (h : Moved thread job s r) :
    repliedTexts r.2.2 = [] ∧ r.2.1.beyondListing = true := by
  constructor
  · apply List.filterMap_eq_nil_iff.mpr
    intro event hevent
    cases event with
    | reply reply => exact absurd hevent (h.quiet reply)
    | _ => rfl
  · rcases h.next with ⟨next, hnext⟩ | ⟨complete, hnext⟩
    · rw [hnext]
      exact hthread next
    · rw [hnext]
      rfl

theorem continued_working (hstage : ∀ job complete, stage ≠ .finish job complete)
    (hnext : r.2.1 ≠ .ended) :
    continued v stage texts r = .working r.2.1 (texts ++ repliedTexts r.2.2) := by
  unfold continued
  dsimp only
  split
  · exact absurd rfl (hstage _ _)
  · rename_i hended
    exact absurd hended hnext
  · rfl

/-- A silent statement beyond the listing, after something has gone out. -/
theorem Underway.silent (hunderway : Underway stage texts) (hsent : texts ≠ [])
    (hstage : ∀ job complete, stage ≠ .finish job complete)
    (h : repliedTexts r.2.2 = [] ∧ r.2.1.beyondListing = true) :
    (continued v stage texts r).Inv := by
  have hnext : r.2.1 ≠ .ended := by
    intro hended
    rw [hended] at h
    cases h.2
  rw [continued_working hstage hnext, h.1, List.append_nil]
  refine ⟨hunderway.pending, hnext, fun hnil ↦ absurd hnil hsent, fun cmd text more hline ↦ ?_⟩
  rw [hline] at h
  cases h.2

/-- The final reply, when something has gone out before it. -/
theorem Underway.final (hunderway : Underway stage texts) (hsent : texts ≠ []) (text : WString)
    (isCtrlCanalOpen : Bool) (fx : List ThreadEvent)
    (hfx : isCtrlCanalOpen = true → repliedTexts fx = [text] ∧ isFinal text = true) :
    (answered (texts ++ repliedTexts fx) isCtrlCanalOpen).Inv := by
  refine ⟨fun hnil ↦ hsent (List.append_eq_nil_iff.mp hnil).1, fun hopen ↦ ?_⟩
  rw [finals_append, hunderway.pending, (hfx hopen).1]
  unfold finals
  rw [List.countP_singleton, (hfx hopen).2]
  rfl

/-- The final reply of a thread is one line that `create` makes. -/
theorem finalReply_create (job : Job) (complete : Bool) :
    ∃ code text, FinalCode code ∧ Plain text ∧ finalReply job complete = .create code text := by
  unfold finalReply
  split <;> exact ⟨_, _, by decide, by decide, rfl⟩

theorem isFinal_finalReply (job : Job) (complete : Bool) :
    isFinal (finalReply job complete).content = true := by
  rcases finalReply_create job complete with ⟨code, text, hcode, -, hreply⟩
  rw [hreply]
  exact isFinal_create text hcode

theorem isFinal_cons {a : Char} (h : ('2' ≤ a && a ≤ '5') = false) (rest : WString) :
    isFinal (a :: rest) = false := by
  unfold isFinal
  split
  · rename_i heq
    cases heq
    rw [h]
    rfl
  · rfl

-- a line of a listing begins with `d` or with a hyphen
theorem isFinal_listLine (st : FileStatus) (letters : WString) (size : Nat) (now last : Int)
    (name : WString) :
    isFinal (listLine (typeLetter st :: letters) size now last name) = false := by
  have hletter : ('2' ≤ typeLetter st && typeLetter st ≤ '5') = false := by
    unfold typeLetter
    split <;> rfl
  exact isFinal_cons hletter _

theorem afterListing_running (cmd : Command) : afterListing cmd ≠ .ended ∧
    ∀ cmd' text more, afterListing cmd ≠ .list cmd' (.line text more) := by
  unfold afterListing
  split
  · constructor
    · exact fun h ↦ by cases h
    · exact fun _ _ _ h ↦ by cases h
  · constructor
    · exact fun h ↦ by cases h
    · exact fun _ _ _ h ↦ by cases h

theorem listing_inv {cmd : Command} {stage : ListStage} (hunderway : Underway (.list cmd stage) texts)
    (h : Listed v.answers cmd stage r.2.1 r.2.2) :
    (continued v (.list cmd stage) texts r).Inv := by
  have hsent (hbegin : stage ≠ .begin) (hannounce : stage ≠ .announce) : texts ≠ [] := by
    intro hnil
    rcases hunderway.announced hnil with ⟨cmd', hlist | hlist⟩
    · cases hlist
      exact hbegin rfl
    · cases hlist
      exact hannounce rfl
  have hafter := afterListing_running cmd
  generalize hnext : r.2.1 = next, hfx : r.2.2 = fx at h
  have hgoes (hrunning : next ≠ .ended) (hpending : finals (repliedTexts fx) = 0)
      (hannounced : texts = [] → repliedTexts fx = [] → next = .list cmd .announce)
      (hline : ∀ cmd text more, next = .list cmd (.line text more) → cmd.id = .STAT →
        isFinal text = false) : (continued v (.list cmd stage) texts r).Inv := by
    rw [continued_working (fun _ _ h ↦ by cases h) (by rw [hnext]; exact hrunning), hnext, hfx]
    refine ⟨?_, hrunning, fun hnil ↦ ⟨cmd, .inr ?_⟩, hline⟩
    · rw [finals_append, hunderway.pending, hpending]
    · have hboth := List.append_eq_nil_iff.mp hnil
      exact hannounced hboth.1 hboth.2
  cases h with
  | announces => exact hgoes nofun rfl (fun _ _ ↦ rfl) fun _ _ _ h ↦ by cases h
  | begins hid => exact hgoes nofun rfl nofun fun _ _ _ h ↦ by cases h
  | announced => exact hgoes nofun rfl nofun fun _ _ _ h ↦ by cases h
  | shows =>
    exact hgoes nofun rfl (fun hnil _ ↦ absurd hnil (hsent nofun nofun)) fun _ _ _ h ↦ by cases h
  | enters =>
    exact hgoes nofun rfl (fun hnil _ ↦ absurd hnil (hsent nofun nofun)) fun _ _ _ h ↦ by cases h
  | @misses path =>
    have hnone : repliedTexts (if path = [] then [] else [.status path]) = [] := by
      split <;> rfl
    exact hgoes hafter.1 (by rw [hnone]; rfl) (fun hnil _ ↦ absurd hnil (hsent nofun nofun))
      fun _ _ _ h ↦ absurd h (hafter.2 _ _ _)
  | single =>
    apply hgoes nofun rfl (fun hnil _ ↦ absurd hnil (hsent nofun nofun))
    rintro _ _ _ ⟨⟩ -
    exact isFinal_listLine ..
  | exhausted =>
    exact hgoes hafter.1 rfl (fun hnil _ ↦ absurd hnil (hsent nofun nofun))
      fun _ _ _ h ↦ absurd h (hafter.2 _ _ _)
  | skips hentry =>
    exact hgoes nofun rfl (fun hnil _ ↦ absurd hnil (hsent nofun nofun)) fun _ _ _ h ↦ by cases h
  | entry hentry htext =>
    apply hgoes nofun rfl (fun hnil _ ↦ absurd hnil (hsent nofun nofun))
    rintro _ _ _ ⟨⟩ hid
    rcases htext (by rw [hid]; decide) with ⟨st, rfl⟩
    exact isFinal_listLine ..
  | @line text more next hnext =>
    have hrunning : next ≠ .ended ∧ ∀ cmd' text more, next ≠ .list cmd' (.line text more) := by
      rcases hnext with rfl | ⟨path, -, rfl⟩
      · exact hafter
      · exact ⟨nofun, fun _ _ _ h ↦ by cases h⟩
    apply hgoes hrunning.1 _ (fun hnil _ ↦ absurd hnil (hsent nofun nofun))
    · exact fun _ _ _ h ↦ absurd h (hrunning.2 _ _ _)
    · by_cases hid : cmd.id = .STAT
      · rw [if_pos hid]
        show finals [text] = 0
        unfold finals
        rw [List.countP_singleton, hunderway.line cmd text more rfl hid]
        rfl
      · rw [if_neg hid]
        rfl
  | ends =>
    have hended : continued v (.list cmd .endOfStatus) texts r =
        .answered (texts ++ repliedTexts [.reply (.create 213 "End of status.")]) true := by
      unfold continued
      rw [hnext, hfx]
    rw [hended]
    exact hunderway.final (hsent nofun nofun) _ true _ fun _ ↦ ⟨rfl, isFinal_create _ (by decide)⟩

/-- What a statement that returns does to an exchange. -/
theorem continued_inv (hunderway : Underway stage texts)
    (h : stage.step v.answers v.node v.user = .ok r) : (continued v stage texts r).Inv := by
  have hsent (hstage : ∀ cmd s, stage ≠ .list cmd s) : texts ≠ [] := by
    intro hnil
    rcases hunderway.announced hnil with ⟨cmd, hlist | hlist⟩
    · exact hstage _ _ hlist
    · exact hstage _ _ hlist
  cases stage with
  | list cmd stage => exact listing_inv hunderway (list_listed h).2
  | store stage =>
    exact hunderway.silent (hsent fun _ _ h ↦ by cases h) (fun _ _ h ↦ by cases h)
      (moved_silent (fun _ ↦ rfl) (store_moved h))
  | retrieve stage =>
    exact hunderway.silent (hsent fun _ _ h ↦ by cases h) (fun _ _ h ↦ by cases h)
      (moved_silent (fun _ ↦ rfl) (retrieve_moved h))
  | shutDown job complete =>
    rcases eq_ok_of_liftFault_bind h with ⟨t, -, h⟩
    cases h
    exact hunderway.silent (hsent fun _ _ h ↦ by cases h) (fun _ _ h ↦ by cases h) ⟨rfl, rfl⟩
  | closeSocket job complete =>
    rcases eq_ok_of_liftFault_bind h with ⟨t, -, h⟩
    cases h
    exact hunderway.silent (hsent fun _ _ h ↦ by cases h) (fun _ _ h ↦ by cases h) ⟨rfl, rfl⟩
  | finish job complete =>
    apply hunderway.final (hsent fun _ _ h ↦ by cases h) (finalReply job complete).content
      v.node.isCtrlCanalOpen r.2.2
    intro hopen
    rw [Stage.step, if_pos hopen] at h
    cases h
    exact ⟨rfl, isFinal_finalReply job complete⟩
  | ended => exact absurd rfl hunderway.running

/-- A statement of the worker. -/
theorem worker_orderly_iff {y : Exchange} (hunderway : Underway stage texts)
    (h : Proceeds build (.working stage texts) (.worker v) y) :
    (y.Orderly ↔ stage.Proceeds v) ∧ (y.Orderly → y.Inv) := by
  have hy : ofStep v stage texts (stage.step v.answers v.node v.user) = y := Option.some.inj h
  rw [← step_returns_iff, ← hy]
  cases hstep : stage.step v.answers v.node v.user with
  | error fault => exact ⟨iff_of_false id (not_returns_error _), False.elim⟩
  | ok r =>
    have hinv : (ofStep v stage texts (.ok r)).Inv := continued_inv hunderway hstep
    exact ⟨iff_of_true (orderly_of_inv hinv) (returns_ok r), fun _ ↦ hinv⟩

end Worker

/-! ## Runs -/

variable {build : Build}

theorem proceeds_orderly_iff {x y : Exchange} {turn : Turn} (hx : x.Inv)
    (h : Proceeds build x turn y) : (y.Orderly ↔ x.Meets build turn) ∧ (y.Orderly → y.Inv) := by
  cases x with
  | taken σ k l =>
    cases turn with
    | command => exact command_orderly_iff h
    | worker v => cases h
  | working stage texts =>
    cases turn with
    | command => cases h
    | worker v => exact worker_orderly_iff hx h
  | answered texts isCtrlCanalOpen => cases turn <;> cases h
  | crashed texts => cases turn <;> cases h

/-- How many statements the worker has left, and one more. -/
def budget : Exchange → Nat
  | .taken _ _ _ => 10
  | .working stage _ => stage.budget + 1
  | .answered _ _ | .crashed _ => 0

theorem begun_budget_lt (reply : Reply) (fx : List Effect) : (begun reply fx).budget < 10 := by
  unfold begun
  split
  · exact (by decide : 0 < 10)
  · rename_i job jobs hjobs
    cases job
    · exact (by decide : 9 < 10)
    · exact (by decide : 8 < 10)
    · exact (by decide : 9 < 10)

theorem ofAnswer_budget_lt (answer : Except Fault Answer) : (ofAnswer answer).budget < 10 := by
  cases answer with
  | error fault => exact (by decide : 0 < 10)
  | ok a => exact begun_budget_lt a.reply a.effects

theorem ofStep_budget_lt (stage : Stage) (texts : List WString) (v : View) :
    (ofStep v stage texts (stage.step v.answers v.node v.user)).budget
      < stage.budget + 1 + stage.supplied v.answers := by
  cases hstep : stage.step v.answers v.node v.user with
  | error fault =>
    show 0 < _
    omega
  | ok r =>
    show (continued v stage texts r).budget < _
    unfold continued
    dsimp only
    split
    · show 0 < _
      omega
    · show 0 < _
      omega
    · rename_i hnext
      show r.2.1.budget + 1 < _
      have hless := budget_lt hstep fun hended ↦ by
        rw [hended] at hstep
        cases hstep
        exact hnext rfl
      omega

theorem proceeds_budget_lt {x y : Exchange} {turn : Turn} (h : Proceeds build x turn y) :
    y.budget < x.budget + x.supplied turn := by
  cases x with
  | taken σ k l =>
    cases turn with
    | command =>
      cases h
      exact ofAnswer_budget_lt _
    | worker v => cases h
  | working stage texts =>
    cases turn with
    | command => cases h
    | worker v =>
      cases h
      exact ofStep_budget_lt stage texts v
  | answered texts isCtrlCanalOpen => cases turn <;> cases h
  | crashed texts => cases turn <;> cases h

/-- How many statements the system calls for along a run. -/
def suppliedAlong (trace : List (Exchange × Turn)) : Nat :=
  (trace.map fun p ↦ p.1.supplied p.2).sum

/-- An exchange does not go on for ever. -/
theorem length_le {trace : List (Exchange × Turn)} {x y : Exchange}
    (run : Run (Proceeds build) x trace y) :
    trace.length + y.budget ≤ x.budget + suppliedAlong trace := by
  induction run with
  | refl => exact Nat.le_of_eq (Nat.add_comm _ _)
  | @snoc trace s turn t before last ih =>
    have hless := proceeds_budget_lt last
    have hlength : ((s, turn) :: trace).length = trace.length + 1 := rfl
    have hsupplied : suppliedAlong ((s, turn) :: trace) = s.supplied turn + suppliedAlong trace :=
      List.sum_cons
    omega

/-- A line is answered, and once, exactly when it is one that `process_command` answers once and the
worker meets what it needs; and it is answered in no more turns than what the system gives the worker
calls for. -/
theorem orderly_iff {σ : FtpServer} {k : Connection} {l : Line} {trace : List (Exchange × Turn)}
    {t : Exchange} (run : Run (Proceeds build) (.taken σ k l) trace t) :
    ((t.Orderly ∧ ∀ p ∈ trace, p.1.Orderly) ↔ ∀ p ∈ trace, p.1.Meets build p.2) ∧
      trace.length ≤ 10 + suppliedAlong trace := by
  constructor
  · have hall := run.holds_along_iff_of_invariant (I := Inv) (P := Orderly)
      (Q := fun _ _ ↦ True) (C := Meets build) trivial orderly_of_inv
      (fun hx h ↦ (and_iff_left trivial).trans (proceeds_orderly_iff hx h).1)
      (fun hx hmeets h ↦ (proceeds_orderly_iff hx h).2 ((proceeds_orderly_iff hx h).1.mpr hmeets))
    simp only [and_true] at hall
    exact hall
  · have hlength := length_le run
    exact Nat.le_trans (Nat.le_add_right _ _) hlength

end Exchange

namespace Sample

/-- bob is logged in. -/
def serving : FtpServer :=
  { server with
    userManager := { server.userManager with
      users := fun u ↦ if u = 1 then { bob with clientList := [0] } else server.userManager.users u }
    nodes := fun _ ↦ transferring }

def statX : Command := { Command.none with id := .STAT, args := "x" }

def asks (text : String) : Exchange :=
  .taken serving connection { bytes := text.toUTF8.toList, env := env }

end Sample

namespace Exchange

theorem proceeds_command {σ : FtpServer} {k : Connection} {l : Line} (reply : Reply)
    (fx : List Effect)
    (h : (σ.processLine build l.env k l.bytes l.parser).map (fun a ↦ (a.reply, a.effects))
      = .ok (reply, fx)) : Proceeds build (.taken σ k l) .command (begun reply fx) := by
  rcases eq_ok_of_map h with ⟨a, ha, heq⟩
  cases heq
  show some (ofAnswer (σ.processLine build l.env k l.bytes l.parser)) = some _
  rw [ha]
  rfl

/-- bob asks for the status of a file that is not there. -/
theorem orderly_status : ∃ trace t,
    Run (Proceeds {}) (Sample.asks "STAT x") trace t ∧
    (∀ p ∈ trace, p.1.Meets {} p.2) ∧ trace.length ≤ 10 + suppliedAlong trace := by
  have hcommand : Proceeds {} (Sample.asks "STAT x") .command
      (.working (.list Sample.statX .begin) []) :=
    proceeds_command {} [.switch Sample.statX, .startList Sample.statX] (by decide +kernel)
  have hbegin : Proceeds {} (.working (.list Sample.statX .begin) [])
      (.worker (Sample.view { env := Sample.env }))
      (.working (.list Sample.statX .build) ["213-Status follows:"]) := rfl
  have hbuild : Proceeds {} (.working (.list Sample.statX .build) ["213-Status follows:"])
      (.worker (Sample.view { env := Sample.env }))
      (.working (.list Sample.statX (.next "/srv/bob//x")) ["213-Status follows:"]) := rfl
  have hnext : Proceeds {}
      (.working (.list Sample.statX (.next "/srv/bob//x")) ["213-Status follows:"])
      (.worker (Sample.view { env := Sample.env }))
      (.working (.list Sample.statX .endOfStatus) ["213-Status follows:"]) := rfl
  have hend : Proceeds {} (.working (.list Sample.statX .endOfStatus) ["213-Status follows:"])
      (.worker (Sample.view { env := Sample.env }))
      (.answered ["213-Status follows:", "213 End of status.\r\n"] true) := rfl
  have run := ((((Run.refl.snoc hcommand).snoc hbegin).snoc hbuild).snoc hnext).snoc hend
  have hiff := orderly_iff run
  refine ⟨_, _, run, hiff.1.mp ⟨⟨List.cons_ne_nil _ _, fun _ ↦ by decide +kernel⟩, ?_⟩, hiff.2⟩
  simp only [List.forall_mem_cons]
  exact ⟨rfl, rfl, rfl, rfl, trivial, List.forall_mem_nil _⟩

/-- A command after a blank is not answered. -/
theorem orderly_fails :
    Proceeds {} (Sample.asks " NOOP") .command (.answered [] true) ∧
    ¬ Orderly (.answered [] true) := by
  have hcommand : Proceeds {} (Sample.asks " NOOP") .command (begun {} []) := proceeds_command _ _ (by decide +kernel)
  refine ⟨hcommand, ?_⟩
  rintro ⟨hne, -⟩
  exact hne rfl

end Exchange

end YFtp
