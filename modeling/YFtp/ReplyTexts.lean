import YFtp.HandlerSpecs
import YFtp.ProcessCommand

/-!
# Reply texts

What each handler puts on the control connection: mostly one final reply, made by `create` from a
code and a text of one line.  The branches that do something else have a theorem of their own kind.
-/

namespace YFtp

/-! ## Texts and workers of a command -/

/-- Text without an end of line in it. -/
def Plain (text : WString) : Prop := '\r' ∉ text ∧ '\n' ∉ text

instance : DecidablePred Plain := fun _ ↦ inferInstanceAs (Decidable (_ ∧ _))

def Effect.sentText : Effect → Option WString
  | .send text => some text
  | _ => none

def Effect.startedJob : Effect → Option Job
  | .startList cmd => some (.list cmd false)
  | .startRetrieve _ => some .retrieve
  | .startStore _ => some .store
  | _ => none

def sentTexts (fx : List Effect) : List WString := fx.filterMap Effect.sentText

def startedJobs (fx : List Effect) : List Job := fx.filterMap Effect.startedJob

/-- The texts that go out: what the handler has sent itself, and the reply it leaves. -/
def textsOf (reply : Reply) (fx : List Effect) : List WString :=
  sentTexts fx ++ if reply.empty then [] else [reply.content]

/-- 2xx to 5xx -/
def FinalCode (code : Nat) : Prop := 200 ≤ code ∧ code < 600

instance : DecidablePred FinalCode := fun _ ↦ inferInstanceAs (Decidable (_ ∧ _))

theorem FinalCode.pos {code : Nat} (h : FinalCode code) : 0 < code :=
  Nat.lt_of_lt_of_le (by decide) h.1

theorem FinalCode.le {code : Nat} (h : FinalCode code) : 100 ≤ code :=
  Nat.le_trans (by decide) h.1

/-- After the announcements there is one final reply of one line, as far as the argument is one, and
no worker is started. -/
structure ProperAfter (announced : List WString) (arg : WString) (reply : Reply)
    (fx : List Effect) : Prop where
  texts : ∃ code text, FinalCode code ∧ (Plain arg → Plain text) ∧
    textsOf reply fx = announced ++ [(Reply.create code text).content]
  jobs : startedJobs fx = []

abbrev Proper := ProperAfter []

/-- A worker is started, and only announcements have gone out. -/
structure Starts (announced : List WString) (job : Job) (reply : Reply) (fx : List Effect) : Prop
    where
  texts : textsOf reply fx = announced
  jobs : startedJobs fx = [job]

/-- Nothing goes out and nothing is started. -/
structure Unanswered (reply : Reply) (fx : List Effect) : Prop where
  texts : textsOf reply fx = []
  jobs : startedJobs fx = []

/-- Effects that neither send nor start anything. -/
structure Inert (fx : List Effect) : Prop where
  texts : sentTexts fx = []
  jobs : startedJobs fx = []

section Inert

variable {fx fx' : List Effect} {arg text : WString} {code : Nat}

theorem Inert.nil : Inert [] := ⟨rfl, rfl⟩

theorem sentTexts_append (fx fx' : List Effect) :
    sentTexts (fx ++ fx') = sentTexts fx ++ sentTexts fx' := List.filterMap_append

theorem startedJobs_append (fx fx' : List Effect) :
    startedJobs (fx ++ fx') = startedJobs fx ++ startedJobs fx' := List.filterMap_append

theorem Inert.append (h : Inert fx) (h' : Inert fx') : Inert (fx ++ fx') := by
  constructor
  · rw [sentTexts_append, h.texts, h'.texts]
    rfl
  · rw [startedJobs_append, h.jobs, h'.jobs]
    rfl

theorem inert_statusEffects (path : WString) : Inert (statusEffects path) := by
  unfold statusEffects
  split
  · exact .nil
  · exact ⟨rfl, rfl⟩

theorem inert_openDataConnection {env : Env} {s : Session} {sslContext : Bool}
    {r : Session × Bool × List Effect} (h : s.openDataConnection env sslContext = .ok r) :
    Inert r.2.2 := by
  have hopen := (Session.openDataConnection_spec h).2
  constructor
  · apply List.filterMap_eq_nil_iff.mpr
    intro f hf
    rw [hopen f hf]
    rfl
  · apply List.filterMap_eq_nil_iff.mpr
    intro f hf
    rw [hopen f hf]
    rfl

/-- A reply that `create` makes from a code is not empty. -/
theorem textsOf_create (hcode : 0 < code) (fx : List Effect) :
    textsOf (.create code text) fx = sentTexts fx ++ [(Reply.create code text).content] := by
  unfold textsOf
  rw [Reply.create_not_empty text hcode]
  rfl

theorem properAfter_create {announced : List WString} (hcode : FinalCode code)
    (htext : Plain arg → Plain text) (hsent : sentTexts fx = announced)
    (hjobs : startedJobs fx = []) : ProperAfter announced arg (.create code text) fx := by
  refine ⟨⟨code, text, hcode, htext, ?_⟩, hjobs⟩
  rw [textsOf_create hcode.pos, hsent]

theorem proper_create (hcode : FinalCode code) (htext : Plain arg → Plain text) (hfx : Inert fx) :
    Proper arg (.create code text) fx :=
  properAfter_create hcode htext hfx.texts hfx.jobs

/-- A reply whose text the argument has no part in. -/
theorem proper_fixed (hcode : FinalCode code) (htext : Plain text) (hfx : Inert fx) :
    Proper arg (.create code text) fx := proper_create hcode (fun _ ↦ htext) hfx

end Inert

/-! ## Text of one line -/

theorem plain_append {a b : WString} : Plain (a ++ b) ↔ Plain a ∧ Plain b := by
  unfold Plain
  simp only [List.mem_append, not_or]
  tauto

-- characters that are digits
theorem plain_of_isDigit {text : WString} (h : ∀ c ∈ text, c.isDigit = true) : Plain text := by
  constructor
  · exact fun hmem ↦ absurd (h _ hmem) (by decide)
  · exact fun hmem ↦ absurd (h _ hmem) (by decide)

theorem plain_decimal (n : Nat) : Plain (decimal n) :=
  plain_of_isDigit fun _ hc ↦ Nat.isDigit_of_mem_toDigits (by decide) (by decide) hc

theorem plain_replicate {c : Char} (n : Nat) (h : Plain [c]) : Plain (List.replicate n c) := by
  constructor
  · exact fun hmem ↦ h.1 (List.eq_of_mem_replicate hmem ▸ List.mem_cons_self)
  · exact fun hmem ↦ h.2 (List.eq_of_mem_replicate hmem ▸ List.mem_cons_self)

theorem plain_paddedDecimal (w : Nat) (i : Int) : Plain (paddedDecimal w i) := by
  have hdigits : ∀ n, Plain (List.replicate n '0' ++ decimal i.natAbs) := fun n ↦
    plain_append.mpr ⟨plain_replicate n (by decide), plain_decimal _⟩
  unfold paddedDecimal
  dsimp only
  split
  · have hminus : Plain (['-'] ++ (List.replicate _ '0' ++ decimal i.natAbs)) :=
      plain_append.mpr ⟨by decide, hdigits (w - 1 - (decimal i.natAbs).length)⟩
    exact hminus
  · exact hdigits _

-- no letter becomes an end of line
theorem toUpper_eq {c d : Char} (hd : d.toNat < 'A'.toNat) (h : c.toUpper = d) : c = d := by
  unfold Char.toUpper at h
  split at h
  · rename_i hlower
    rw [← h] at hd
    have hval : (c.val + ('A'.val - 'a'.val)).toNat < 65 := hd
    rcases hlower with ⟨hlow, hhigh⟩
    rw [UInt32.le_iff_toNat_le] at hlow hhigh
    have ha : 'a'.val.toNat = 97 := rfl
    have hz : 'z'.val.toNat = 122 := rfl
    have hdiff : ('A'.val - 'a'.val).toNat = 2 ^ 32 - 32 := rfl
    rw [UInt32.toNat_add, hdiff] at hval
    omega
  · exact h

theorem plain_toUpper {text : WString} (h : Plain text) : Plain (text.map Char.toUpper) := by
  constructor
  · intro hmem
    rcases List.mem_map.mp hmem with ⟨c, hc, heq⟩
    rw [toUpper_eq (by decide) heq] at hc
    exact h.1 hc
  · intro hmem
    rcases List.mem_map.mp hmem with ⟨c, hc, heq⟩
    rw [toUpper_eq (by decide) heq] at hc
    exact h.2 hc

namespace Session

variable {env : Env} {s : Session} {user : Option UserNode} {arg : WString} {o : Outcome}

/-! ## Handlers that set up a session -/

theorem processTypeCmd_proper (arg : WString) (s : Session) :
    Proper arg (s.processTypeCmd arg).reply (s.processTypeCmd arg).effects := by
  unfold processTypeCmd
  split
  · split
    · exact proper_fixed (by decide) (by decide) .nil
    · split <;> exact proper_fixed (by decide) (by decide) .nil
  · exact proper_fixed (by decide) (by decide) .nil

theorem processPortCmd_proper (h : s.processPortCmd arg = .ok o) : Proper arg o.reply o.effects := by
  unfold processPortCmd at h
  split at h
  · cases h
    exact proper_fixed (by decide) (by decide) .nil
  · split at h
    · rcases eq_ok_of_bind h with ⟨s', hs', h⟩
      cases h
      exact proper_fixed (by decide) (by decide) .nil
    · cases h
      exact proper_fixed (by decide) (by decide) .nil

theorem processPasvCmd_proper {serverIp : Nat} {ports ports' : DataPorts}
    (h : s.processPasvCmd env serverIp ports = .ok (o, ports')) :
    Proper arg o.reply o.effects := by
  have hentering : ∀ n₁ n₂ n₃ n₄ n₅ n₆ : Nat,
      Plain ("Entering Passive Mode (".toList ++ decimal n₁ ++ [','] ++ decimal n₂ ++ [','] ++
        decimal n₃ ++ [','] ++ decimal n₄ ++ [','] ++ decimal n₅ ++ [','] ++ decimal n₆ ++
        ").".toList) := by
    intro n₁ n₂ n₃ n₄ n₅ n₆
    simp only [plain_append, plain_decimal, and_true]
    decide
  unfold processPasvCmd at h
  split at h
  · cases h
    exact proper_fixed (by decide) (by decide) .nil
  · rcases eq_ok_of_bind h with ⟨s', hs', h⟩
    dsimp only at h
    split at h
    · cases h
      exact proper_fixed (by decide) (by decide) .nil
    · split at h
      · split at h
        · cases h
          exact proper_create (by decide) (fun _ ↦ hentering ..) .nil
        · cases h
          exact proper_fixed (by decide) (by decide) .nil
      · split at h
        · cases h
          exact proper_create (by decide) (fun _ ↦ hentering ..) .nil
        · cases h
          exact proper_fixed (by decide) (by decide) .nil

theorem processCwdCmd_proper (h : s.processCwdCmd env user arg = .ok o) :
    Proper arg o.reply o.effects := by
  unfold processCwdCmd at h
  split at h
  · rcases eq_ok_of_bind h with ⟨u, -, h⟩
    dsimp only at h
    split at h
    · cases h
      exact proper_fixed (by decide) (by decide) (inert_statusEffects _)
    · cases h
      exact proper_fixed (by decide) (by decide) (inert_statusEffects _)
  · cases h
    exact proper_fixed (by decide) (by decide) .nil

theorem processCdupCmd_proper (s : Session) :
    Proper arg s.processCdupCmd.reply s.processCdupCmd.effects :=
  proper_fixed (by decide) (by decide) .nil

/-- ABOR sends 426 for the transfer that is running, and is answered itself. -/
theorem processAborCmd_texts (h : s.processAborCmd = .ok o) :
    if s.curStatus = .waiting then Proper arg o.reply o.effects
    else ProperAfter
      [(Reply.create 426 "Previous command has been finished abnormally.").content] arg o.reply
      o.effects := by
  unfold processAborCmd at h
  split at h
  · rename_i hbusy
    rcases eq_ok_of_bind h with ⟨s', hs', h⟩
    cases h
    rw [if_neg hbusy]
    exact properAfter_create (by decide) (fun _ ↦ by decide) rfl rfl
  · rename_i hwaiting
    cases h
    rw [if_pos (not_not.mp hwaiting)]
    exact proper_fixed (by decide) (by decide) .nil

theorem processRestCmd_proper (arg : WString) (s : Session) :
    Proper arg (s.processRestCmd arg).reply (s.processRestCmd arg).effects := by
  unfold processRestCmd
  split <;> exact proper_fixed (by decide) (by decide) .nil

theorem processProtCmd_proper (build : Build) (useSsl : Bool) (arg : WString) (s : Session) :
    Proper arg (s.processProtCmd build useSsl arg).reply
      (s.processProtCmd build useSsl arg).effects := by
  have hset (harg : Plain arg) : Plain ("DATA CHANNEL PROTECTION LEVEL set to ".toList ++ arg) :=
    plain_append.mpr ⟨by decide, harg⟩
  have hnot (harg : Plain arg) :
      Plain ("DATA CHANNEL PROTECTION LEVEL ".toList ++ arg ++ " is not support".toList) :=
    plain_append.mpr ⟨plain_append.mpr ⟨by decide, harg⟩, by decide⟩
  unfold processProtCmd
  dsimp only
  split
  · exact proper_fixed (by decide) (by decide) .nil
  · split
    · split
      · exact proper_fixed (by decide) (by decide) .nil
      · exact proper_create (by decide) hset .nil
    · split
      · split
        · split
          · exact proper_fixed (by decide) (by decide) .nil
          · split
            · exact proper_create (by decide) hset .nil
            · exact proper_create (by decide) hnot .nil
        · exact proper_create (by decide) hnot .nil
      · exact proper_create (by decide) hnot .nil

/-- AUTH sends its reply itself, before the handshake. -/
theorem processAuthCmd_proper (build : Build) (sslContext useSsl : Bool) (arg : WString)
    (s : Session) : Proper arg (s.processAuthCmd build sslContext useSsl arg).reply
      (s.processAuthCmd build sslContext useSsl arg).effects := by
  unfold processAuthCmd
  split
  · exact proper_fixed (by decide) (by decide) .nil
  · split
    · split
      · exact proper_fixed (by decide) (by decide) .nil
      · split
        · exact ⟨⟨234, "Using authentication type TLS".toList, by decide, fun _ ↦ by decide, rfl⟩,
            rfl⟩
        · exact proper_fixed (by decide) (by decide) .nil
    · exact proper_fixed (by decide) (by decide) .nil

/-! ## Handlers that work on files and directories -/

theorem processMdtmCmd_proper (h : s.processMdtmCmd env user arg = .ok o) :
    Proper arg o.reply o.effects := by
  unfold processMdtmCmd at h
  split at h
  · rcases eq_ok_of_bind h with ⟨u, -, h⟩
    dsimp only at h
    split at h
    · split at h
      · cases h
        refine proper_create (by decide) (fun _ ↦ ?_) ⟨rfl, rfl⟩
        unfold mdtmText
        simp only [plain_append, plain_paddedDecimal, and_self]
      · cases h
        exact proper_fixed (by decide) (by decide) ⟨rfl, rfl⟩
    · cases h
      exact proper_fixed (by decide) (by decide) (inert_statusEffects _)
  · cases h
    exact proper_fixed (by decide) (by decide) .nil

theorem ActsOnPath.proper {privilege : UserPrivilege} {act : WString → Effect}
    (h : ActsOnPath env s user arg privilege act o) (hact : ∀ path, Inert [act path]) :
    Proper arg o.reply o.effects := by
  cases h with
  | answers hcode htext => exact proper_fixed hcode htext .nil
  | looks _ _ hcode htext => exact proper_fixed hcode htext (inert_statusEffects _)
  | @acts u path code text _ _ _ hcode htext =>
    have hstatus : Inert [.status path] := ⟨rfl, rfl⟩
    exact proper_fixed hcode htext (hstatus.append (hact path))

theorem processDelCmd_proper (h : s.processDelCmd env user arg = .ok o) :
    Proper arg o.reply o.effects := (processDelCmd_acts h).proper fun _ ↦ ⟨rfl, rfl⟩

theorem processRnfrCmd_proper (h : s.processRnfrCmd env user arg = .ok o) :
    Proper arg o.reply o.effects := by
  rcases eq_ok_of_bind h with ⟨u, -, h⟩
  split at h
  · cases h
    exact proper_fixed (by decide) (by decide) .nil
  · split at h
    · dsimp only at h
      split at h
      · cases h
        exact proper_fixed (by decide) (by decide) ⟨rfl, rfl⟩
      · cases h
        exact proper_fixed (by decide) (by decide) (inert_statusEffects _)
    · cases h
      exact proper_fixed (by decide) (by decide) .nil

theorem processRntoCmd_proper (h : s.processRntoCmd env user arg = .ok o) :
    Proper arg o.reply o.effects := by
  unfold processRntoCmd at h
  split at h
  · split at h
    · rcases eq_ok_of_bind h with ⟨u, -, h⟩
      dsimp only at h
      split at h
      · split at h <;> cases h <;> exact proper_fixed (by decide) (by decide) ⟨rfl, rfl⟩
      · cases h
        exact proper_fixed (by decide) (by decide) .nil
    · cases h
      exact proper_fixed (by decide) (by decide) .nil
  · cases h
    exact proper_fixed (by decide) (by decide) .nil

theorem processMkdCmd_proper (h : s.processMkdCmd env user arg = .ok o) :
    Proper arg o.reply o.effects := (processMkdCmd_acts h).proper fun _ ↦ ⟨rfl, rfl⟩

theorem processRmdCmd_proper (h : s.processRmdCmd env user arg = .ok o) :
    Proper arg o.reply o.effects := (processRmdCmd_acts h).proper fun _ ↦ ⟨rfl, rfl⟩

/-- SITE answers nothing to an argument that does not begin with EXEC. -/
theorem processSiteCmd_texts (h : s.processSiteCmd user arg = .ok o) :
    if arg = [] ∨ arg.take 5 = "EXEC ".toList then Proper arg o.reply o.effects
    else Unanswered o.reply o.effects := by
  unfold processSiteCmd at h
  split at h
  · rename_i harg
    rcases eq_ok_of_bind h with ⟨u, -, h⟩
    split at h
    · rename_i hexec
      rw [if_pos (.inr hexec)]
      split at h
      · cases h
        refine proper_fixed (by decide) (by decide) ?_
        split
        · exact ⟨rfl, rfl⟩
        · exact .nil
      · cases h
        exact proper_fixed (by decide) (by decide) .nil
    · rename_i hexec
      cases h
      rw [if_neg (not_or.mpr ⟨harg, hexec⟩)]
      exact ⟨rfl, rfl⟩
  · rename_i harg
    cases h
    rw [if_pos (.inl (not_not.mp harg))]
    exact proper_fixed (by decide) (by decide) .nil

/-- The size that SIZE answers. -/
def Sizes (env : Env) (user : Option UserNode) (arg : WString) (s : Session) (size : Nat) : Prop :=
  ∃ u, user = some u ∧ arg ≠ [] ∧
    let path := buildPath env.canonical u.homeDirectory s.currentDirectory arg
    path ≠ [] ∧ env.fileSize path = some size

/-- SIZE ends the size with an end of line of its own. -/
theorem processSizeCmd_texts (h : s.processSizeCmd env user arg = .ok o) :
    Proper arg o.reply o.effects ∧ (∀ size, ¬ s.Sizes env user arg size) ∨
    ∃ size, s.Sizes env user arg size ∧ startedJobs o.effects = [] ∧
      textsOf o.reply o.effects = [(Reply.create 213 (decimal size ++ ['\r', '\n'])).content] := by
  unfold processSizeCmd at h
  split at h
  · rename_i harg
    rcases eq_ok_of_bind h with ⟨u, hu, h⟩
    have huser := deref_ok hu
    dsimp only at h
    split at h
    · rename_i hpath
      split at h
      · rename_i size hsize
        cases h
        exact .inr ⟨size, ⟨u, huser, harg, hpath, hsize⟩, rfl, rfl⟩
      · rename_i hnone
        cases h
        refine .inl ⟨proper_fixed (by decide) (by decide) ⟨rfl, rfl⟩, ?_⟩
        rintro size ⟨u', hu', -, -, hsize⟩
        cases huser.symm.trans hu'
        cases hnone.symm.trans hsize
    · rename_i hpath
      cases h
      refine .inl ⟨proper_fixed (by decide) (by decide) .nil, ?_⟩
      rintro size ⟨u', hu', -, hne, -⟩
      cases huser.symm.trans hu'
      exact hpath hne
  · rename_i harg
    cases h
    refine .inl ⟨proper_fixed (by decide) (by decide) .nil, ?_⟩
    rintro size ⟨-, -, hne, -⟩
    exact harg hne

/-! ## Handlers that start a transfer -/

theorem processListCmd_texts {sslContext : Bool} {cmd : Command}
    (h : s.processListCmd env sslContext user cmd = .ok o) :
    Proper arg o.reply o.effects ∨ Starts [] (.list cmd false) o.reply o.effects := by
  rcases eq_ok_of_bind h with ⟨u, -, h⟩
  split at h
  · cases h
    exact .inl (proper_fixed (by decide) (by decide) .nil)
  · split at h
    · cases h
      exact .inl (proper_fixed (by decide) (by decide) .nil)
    · rcases eq_ok_of_ite_bind h with ⟨⟨t, opened, effects⟩, hopen, h⟩
      have hfx : Inert effects := by
        split at hopen
        · exact inert_openDataConnection hopen
        · cases hopen
          exact .nil
      dsimp only at h
      split at h
      · cases h
        exact .inl (proper_fixed (by decide) (by decide) hfx)
      · split at h
        · cases h
          refine .inr ⟨?_, ?_⟩
          · unfold textsOf
            rw [sentTexts_append, hfx.texts]
            rfl
          · rw [startedJobs_append, hfx.jobs]
            rfl
        · cases h
          exact .inl (proper_fixed (by decide) (by decide) hfx)

/-- Status 150 of RETR, STOR and APPE. -/
def announcement : WString := (Reply.create 150 "Opening data connection.").content

-- what a handler does around the announcement that it sends
theorem announced_texts {fx fx' : List Effect} (text : WString) (hfx : Inert fx) (hfx' : Inert fx') :
    sentTexts (fx ++ fx' ++ [.send text]) = [text] ∧ startedJobs (fx ++ fx' ++ [.send text]) = [] := by
  constructor
  · rw [sentTexts_append, (hfx.append hfx').texts]
    rfl
  · rw [startedJobs_append, (hfx.append hfx').jobs]
    rfl

theorem processRetrCmd_texts {sslContext : Bool}
    (h : s.processRetrCmd env sslContext user arg = .ok o) :
    Proper arg o.reply o.effects ∨ ProperAfter [announcement] arg o.reply o.effects ∨
      Starts [announcement] .retrieve o.reply o.effects := by
  rcases eq_ok_of_bind h with ⟨u, -, h⟩
  split at h
  · cases h
    exact .inl (proper_fixed (by decide) (by decide) .nil)
  · split at h
    · split at h
      · cases h
        exact .inl (proper_fixed (by decide) (by decide) .nil)
      · rcases eq_ok_of_bind h with ⟨⟨t, opened, effects⟩, hopen, h⟩
        have hfx : Inert effects := inert_openDataConnection hopen
        dsimp only at h
        split at h
        · cases h
          exact .inl (proper_fixed (by decide) (by decide) hfx)
        · split at h
          · generalize buildPath env.canonical u.homeDirectory t.currentDirectory arg = path at h
            have hsent := announced_texts announcement hfx
              (show Inert [.status path] from ⟨rfl, rfl⟩)
            rw [List.append_assoc] at hsent
            split at h
            · cases h
              exact .inr (.inl (properAfter_create (by decide) (fun _ ↦ by decide) hsent.1 hsent.2))
            · cases h
              refine .inr (.inr ⟨?_, ?_⟩)
              · unfold textsOf
                rw [sentTexts_append]
                exact congrArg (· ++ [] ++ []) hsent.1
              · rw [startedJobs_append]
                exact congrArg (· ++ [Job.retrieve]) hsent.2
          · cases h
            exact .inl (proper_fixed (by decide) (by decide)
              (hfx.append (inert_statusEffects _)))
    · cases h
      exact .inl (proper_fixed (by decide) (by decide) .nil)

theorem inert_searchUniqueName {home current : WString} {left tried : Nat}
    {r : WString × List Effect} (h : searchUniqueName env home current left tried = .ok r) :
    Inert r.2 := by
  induction left generalizing tried r with
  | zero => cases h
  | succ left ih =>
    rw [searchUniqueName] at h
    dsimp only at h
    split at h
    · rcases eq_ok_of_bind h with ⟨r', hr', h⟩
      cases h
      have hinert := ih hr'
      exact ⟨hinert.texts, hinert.jobs⟩
    · cases h
      exact ⟨rfl, rfl⟩

/-- STOR, APPE or STOU gets as far as its path. -/
def StoresTo (env : Env) (sslContext : Bool) (user : Option UserNode) (cmd : Command) (s : Session)
    (u : UserNode) : Prop :=
  user = some u ∧ u.holds .writeFile = true ∧ (cmd.args ≠ [] ∨ cmd.id = .STOU) ∧
    s.curStatus = .waiting ∧ ∃ r, s.openDataConnection env sslContext = .ok r ∧ r.2.1 = true

theorem StoresTo.unique {sslContext : Bool} {cmd : Command} {u u' : UserNode}
    (h : s.StoresTo env sslContext user cmd u) (h' : s.StoresTo env sslContext user cmd u') :
    u' = u := Option.some_inj.mp (h'.1.symm.trans h.1)

/-- The name that STOU makes up, and none for the other commands. -/
def UniqueName (env : Env) (cmd : Command) (s : Session) (u : UserNode) (unique : WString) : Prop :=
  ∃ searched, (if cmd.id = .STOU then
      searchUniqueName env u.homeDirectory s.currentDirectory env.tries 0
    else .ok ([], [])) = .ok (unique, searched)

/-- Status 150 of STOR, APPE and STOU. -/
def storeAnnouncement (cmd : Command) (unique : WString) : WString :=
  (Reply.create 150 (if cmd.id = .STOU then "FILE: ".toList ++ unique
    else "Opening data connection.".toList)).content

/-- There is no path to store to where the home directory or the current one is empty. -/
theorem storePath_eq_nil {cmd : Command} {u : UserNode} {unique : WString} {searched : List Effect}
    (huser : user = some u)
    (hsearch : (if cmd.id = .STOU then
        searchUniqueName env u.homeDirectory s.currentDirectory env.tries 0
      else .ok ([], [])) = .ok (unique, searched)) :
    (if unique ≠ [] then unique
      else buildPath env.canonical u.homeDirectory s.currentDirectory cmd.args false) = [] ↔
      u.homeDirectory = [] ∨ s.currentDirectory = [] := by
  by_cases hunique : unique = []
  · rw [if_neg (not_not.mpr hunique)]
    exact buildPath_eq_nil ..
  · rw [if_pos hunique]
    split at hsearch
    · rcases (searchUniqueName_spec huser hsearch).1 with ⟨n, bcanonical, hbuilt⟩
      have hbuilt : unique = _ := hbuilt
      rw [hbuilt]
      exact buildPath_eq_nil ..
    · cases hsearch
      exact absurd rfl hunique

/-- Without a path nothing is answered. -/
theorem processStorCmd_texts {sslContext : Bool} {cmd : Command}
    (h : s.processStorCmd env sslContext user cmd = .ok o) :
    Proper cmd.args o.reply o.effects ∧ (∀ u, ¬ s.StoresTo env sslContext user cmd u) ∨
    ∃ u, s.StoresTo env sslContext user cmd u ∧
      if u.homeDirectory = [] ∨ s.currentDirectory = [] then Unanswered o.reply o.effects
      else ∃ unique, s.UniqueName env cmd u unique ∧
        (ProperAfter [storeAnnouncement cmd unique] cmd.args o.reply o.effects ∨
          Starts [storeAnnouncement cmd unique] .store o.reply o.effects) := by
  rcases eq_ok_of_bind h with ⟨u, hu, h⟩
  have huser := deref_ok hu
  have honly {u' : UserNode} (hstores : s.StoresTo env sslContext user cmd u') : u' = u := by
    have hu' := hstores.1
    rw [huser] at hu'
    exact (Option.some_inj.mp hu').symm
  split at h
  · rename_i hholds
    cases h
    refine .inl ⟨proper_fixed (by decide) (by decide) .nil, fun u' hstores ↦ ?_⟩
    have hu' := hstores.2.1
    rw [honly hstores, hholds] at hu'
    cases hu'
  · rename_i hholds
    rw [Bool.not_eq_false] at hholds
    split at h
    · rename_i hargs
      split at h
      · rename_i hbusy
        cases h
        exact .inl ⟨proper_fixed (by decide) (by decide) .nil,
          fun u' hstores ↦ hbusy hstores.2.2.2.1⟩
      · rename_i hwaiting
        rw [not_not] at hwaiting
        rcases eq_ok_of_bind h with ⟨⟨t, opened, effects⟩, hopen, h⟩
        have hfx : Inert effects := inert_openDataConnection hopen
        have hcurrent : t.currentDirectory = s.currentDirectory :=
          (openDataConnection_spec hopen).1.currentDirectory
        dsimp only at h
        split at h
        · rename_i hopened
          cases h
          refine .inl ⟨proper_fixed (by decide) (by decide) hfx, fun u' hstores ↦ ?_⟩
          rcases hstores.2.2.2.2 with ⟨r, hr, hr'⟩
          cases hopen.symm.trans hr
          exact absurd hr' (Bool.eq_false_iff.mp hopened)
        · rename_i hopened
          rw [Bool.not_eq_false] at hopened
          have hstores : s.StoresTo env sslContext user cmd u :=
            ⟨huser, hholds, hargs, hwaiting, _, hopen, hopened⟩
          refine .inr ⟨u, hstores, ?_⟩
          rcases eq_ok_of_ite_bind h with ⟨⟨unique, searched⟩, hsearch, h⟩
          rw [hcurrent] at hsearch
          have hsearched : Inert searched := by
            split at hsearch
            · exact inert_searchUniqueName hsearch
            · cases hsearch
              exact .nil
          have hpath := storePath_eq_nil huser hsearch
          dsimp only at h
          rw [hcurrent] at h
          generalize (if unique ≠ [] then unique else buildPath env.canonical u.homeDirectory
            s.currentDirectory cmd.args false) = path at h hpath
          split at h
          · rename_i hne
            rw [if_neg fun hempty ↦ hne (hpath.mpr hempty)]
            refine ⟨unique, ⟨searched, hsearch⟩, ?_⟩
            generalize hsized : (if cmd.id = .APPE then
                if (env.getFileStatus path).isSome then
                  ((((env.fileSize path).getD 0 : Nat) : Int),
                    [Effect.status path, Effect.fileSize path])
                else (0, [Effect.status path])
              else (t.restartAt, [])) = sized at h
            have hinert : Inert sized.2 := by
              rw [← hsized]
              split
              · split <;> exact ⟨rfl, rfl⟩
              · exact .nil
            have hsent := announced_texts (storeAnnouncement cmd unique)
              (hfx.append hsearched) hinert
            split at h
            · cases h
              exact .inl (properAfter_create (by decide) (fun _ ↦ by decide) hsent.1 hsent.2)
            · cases h
              refine .inr ⟨?_, ?_⟩
              · unfold textsOf
                rw [sentTexts_append]
                exact congrArg (· ++ [] ++ []) hsent.1
              · rw [startedJobs_append]
                exact congrArg (· ++ [Job.store]) hsent.2
          · rename_i hempty
            rw [not_not] at hempty
            rw [if_pos (hpath.mp hempty)]
            cases h
            have hall := hfx.append hsearched
            refine ⟨?_, hall.jobs⟩
            unfold textsOf
            rw [hall.texts]
            rfl
    · rename_i hargs
      cases h
      exact .inl ⟨proper_fixed (by decide) (by decide) .nil,
        fun u' hstores ↦ hargs hstores.2.2.1⟩

end Session

/-! ## The switch -/

namespace FtpServer

variable {build : Build} {env : Env} {σ : FtpServer} {c : ClientRef} {cmd : Command} {a : Answer}

/-- What goes out for a command, and the worker that it starts. -/
def Texts (build : Build) (env : Env) (σ : FtpServer) (c : ClientRef) (cmd : Command)
    (reply : Reply) (fx : List Effect) : Prop :=
  let s := (σ.nodes c).toSession
  let user := (σ.nodes c).user.map σ.userManager.users
  match cmd.id with
  | .USER =>
    if σ.asksAnonymous cmd.args = true ∧ σ.userManager.findUser "anonymous".toList = none then
      Unanswered reply fx
    else Proper cmd.args reply fx
  | .SITE =>
    if build.useExtraCmd = true ∧ ¬ (cmd.args = [] ∨ cmd.args.take 5 = "EXEC ".toList) then
      Unanswered reply fx
    else Proper cmd.args reply fx
  | .ABOR =>
    if s.curStatus = .waiting then Proper cmd.args reply fx
    else ProperAfter
      [(Reply.create 426 "Previous command has been finished abnormally.").content] cmd.args reply
      fx
  | .SIZE => Proper cmd.args reply fx ∧ (∀ size, ¬ s.Sizes env user cmd.args size) ∨
    ∃ size, s.Sizes env user cmd.args size ∧ startedJobs fx = [] ∧
      textsOf reply fx = [(Reply.create 213 (decimal size ++ ['\r', '\n'])).content]
  | .LIST | .NLST | .MLSD => Proper cmd.args reply fx ∨ Starts [] (.list cmd false) reply fx
  | .STAT =>
    Proper cmd.args reply fx ∨ cmd.args ≠ [] ∧ Starts [] (.list cmd false) reply fx
  | .RETR => Proper cmd.args reply fx ∨ ProperAfter [Session.announcement] cmd.args reply fx ∨
    Starts [Session.announcement] .retrieve reply fx
  | .STOR | .APPE | .STOU =>
    Proper cmd.args reply fx ∧ (∀ u, ¬ s.StoresTo env σ.sslContext user cmd u) ∨
    ∃ u, s.StoresTo env σ.sslContext user cmd u ∧
      if u.homeDirectory = [] ∨ s.currentDirectory = [] then Unanswered reply fx
      else ∃ unique, s.UniqueName env cmd u unique ∧
        (ProperAfter [Session.storeAnnouncement cmd unique] cmd.args reply fx ∨
          Starts [Session.storeAnnouncement cmd unique] .store reply fx)
  | .PWD => reply = plainReply s.currentDirectory cmd ∧ fx = []
  | .FEAT => reply = .create 0 featText ∧ fx = []
  | _ => Proper cmd.args reply fx

theorem processUserCmd_texts {name : WString} {r : FtpServer × Reply × Bool}
    (h : σ.processUserCmd c name = .ok r) :
    if σ.asksAnonymous name = true ∧ σ.userManager.findUser "anonymous".toList = none then
      Unanswered r.2.1 []
    else Proper name r.2.1 [] := by
  rcases eq_ok_of_bind h with ⟨τ, hτ, h⟩
  have hframe := logOut_frame hτ
  cases h
  rw [← hframe.asksAnonymous, ← hframe.findUser]
  unfold bindUser
  by_cases hname : name = []
  · have hask : ¬ (τ.asksAnonymous name = true ∧
        τ.userManager.findUser "anonymous".toList = none) := by
      rw [hname]
      unfold asksAnonymous
      simp
    rw [if_neg hask, if_pos hname]
    exact proper_fixed (by decide) (by decide) .nil
  · rw [if_neg hname]
    by_cases hask : τ.asksAnonymous name = true
    · rw [if_pos hask]
      cases τ.userManager.findUser "anonymous".toList with
      | none =>
        rw [if_pos ⟨hask, rfl⟩]
        exact ⟨rfl, rfl⟩
      | some u =>
        rw [if_neg fun h ↦ by cases h.2]
        dsimp only
        split <;> exact proper_fixed (by decide) (by decide) .nil
    · rw [if_neg hask, if_neg fun h ↦ hask h.1]
      dsimp only
      split
      · split <;> exact proper_fixed (by decide) (by decide) .nil
      · exact proper_fixed (by decide) (by decide) .nil

theorem processPasswordCmd_proper (σ : FtpServer) (c : ClientRef) (arg : WString) :
    Proper arg (σ.processPasswordCmd c arg).2 [] := by
  unfold processPasswordCmd
  split
  · exact proper_fixed (by decide) (by decide) .nil
  · split
    · split <;> exact proper_fixed (by decide) (by decide) .nil
    · exact proper_fixed (by decide) (by decide) .nil

theorem struReply_proper (arg : WString) : Proper arg (struReply arg) [] := by
  unfold struReply
  split
  · split <;> exact proper_fixed (by decide) (by decide) .nil
  · exact proper_fixed (by decide) (by decide) .nil

theorem modeReply_proper (arg : WString) : Proper arg (modeReply arg) [] := by
  unfold modeReply
  split
  · dsimp only
    split
    · exact proper_fixed (by decide) (by decide) .nil
    · split
      · exact proper_fixed (by decide) (by decide) .nil
      · refine proper_create (by decide) (fun harg ↦ ?_) .nil
        have hquoted : Plain (['"'] ++ arg.map Char.toUpper ++ "\": Unsupported transfer MODE.".toList) :=
          plain_append.mpr ⟨plain_append.mpr ⟨by decide, plain_toUpper harg⟩, by decide⟩
        exact hquoted
  · exact proper_fixed (by decide) (by decide) .nil

theorem optsReply_proper (arg : WString) : Proper arg (optsReply arg) [] := by
  unfold optsReply
  split
  · exact proper_fixed (by decide) (by decide) .nil
  · split <;> exact proper_fixed (by decide) (by decide) .nil

theorem runSwitch_texts (h : σ.runSwitch build env c cmd = .ok a) :
    Texts build env σ c cmd a.reply a.effects := by
  unfold runSwitch sessionHandler at h
  unfold Texts
  cases hid : cmd.id with
  | USER =>
    rw [hid] at h
    rcases eq_ok_of_map h with ⟨r, hr, rfl⟩
    exact processUserCmd_texts hr
  | PASS =>
    rw [hid] at h
    cases h
    exact processPasswordCmd_proper ..
  | PASV =>
    rw [hid] at h
    rcases eq_ok_of_map h with ⟨⟨o, ports⟩, ho, rfl⟩
    exact Session.processPasvCmd_proper ho
  | SITE =>
    rw [hid] at h
    dsimp only at h
    by_cases hextra : build.useExtraCmd = true
    · rw [if_pos hextra] at h
      rcases eq_ok_of_map h with ⟨o, ho, rfl⟩
      have htexts := Session.processSiteCmd_texts ho
      simp only [hextra, true_and, ite_not]
      exact htexts
    · rw [if_neg hextra] at h
      cases h
      dsimp only
      rw [if_neg fun h ↦ hextra h.1]
      unfold plainReply
      rw [hid]
      exact proper_fixed (by decide) (by decide) .nil
  | STAT =>
    rw [hid] at h
    dsimp only at h
    by_cases hargs : cmd.args = []
    · rw [if_neg (not_not.mpr hargs)] at h
      cases h
      unfold plainReply
      rw [hid]
      exact .inl (proper_fixed (by decide) (by decide) .nil)
    · rw [if_pos hargs] at h
      rcases eq_ok_of_map h with ⟨o, ho, rfl⟩
      rcases Session.processListCmd_texts ho with hproper | hstarts
      · exact .inl hproper
      · exact .inr ⟨hargs, hstarts⟩
  | LIST | NLST | MLSD =>
    rw [hid] at h
    rcases eq_ok_of_map h with ⟨o, ho, rfl⟩
    exact Session.processListCmd_texts ho
  | RETR =>
    rw [hid] at h
    rcases eq_ok_of_map h with ⟨o, ho, rfl⟩
    exact Session.processRetrCmd_texts ho
  | STOR | APPE | STOU =>
    rw [hid] at h
    rcases eq_ok_of_map h with ⟨o, ho, rfl⟩
    exact Session.processStorCmd_texts ho
  | ABOR =>
    rw [hid] at h
    rcases eq_ok_of_map h with ⟨o, ho, rfl⟩
    exact Session.processAborCmd_texts ho
  | SIZE =>
    rw [hid] at h
    rcases eq_ok_of_map h with ⟨o, ho, rfl⟩
    exact Session.processSizeCmd_texts ho
  | PORT =>
    rw [hid] at h
    rcases eq_ok_of_map h with ⟨o, ho, rfl⟩
    exact Session.processPortCmd_proper ho
  | CWD =>
    rw [hid] at h
    rcases eq_ok_of_map h with ⟨o, ho, rfl⟩
    exact Session.processCwdCmd_proper ho
  | MDTM =>
    rw [hid] at h
    rcases eq_ok_of_map h with ⟨o, ho, rfl⟩
    exact Session.processMdtmCmd_proper ho
  | DELE =>
    rw [hid] at h
    rcases eq_ok_of_map h with ⟨o, ho, rfl⟩
    exact Session.processDelCmd_proper ho
  | RNFR =>
    rw [hid] at h
    rcases eq_ok_of_map h with ⟨o, ho, rfl⟩
    exact Session.processRnfrCmd_proper ho
  | RNTO =>
    rw [hid] at h
    rcases eq_ok_of_map h with ⟨o, ho, rfl⟩
    exact Session.processRntoCmd_proper ho
  | MKD =>
    rw [hid] at h
    rcases eq_ok_of_map h with ⟨o, ho, rfl⟩
    exact Session.processMkdCmd_proper ho
  | RMD =>
    rw [hid] at h
    rcases eq_ok_of_map h with ⟨o, ho, rfl⟩
    exact Session.processRmdCmd_proper ho
  | TYPE =>
    rw [hid] at h
    cases h
    exact Session.processTypeCmd_proper ..
  | PROT =>
    rw [hid] at h
    cases h
    exact Session.processProtCmd_proper ..
  | AUTH =>
    rw [hid] at h
    cases h
    exact Session.processAuthCmd_proper ..
  | CDUP =>
    rw [hid] at h
    cases h
    exact Session.processCdupCmd_proper (σ.nodes c).toSession
  | REST =>
    rw [hid] at h
    cases h
    exact Session.processRestCmd_proper ..
  | PBSZ =>
    rw [hid] at h
    cases h
    unfold plainReply
    rw [hid]
    dsimp only
    split
    · exact proper_fixed (by decide) (by decide) .nil
    · exact proper_create (by decide) (fun harg ↦ plain_append.mpr ⟨by decide, harg⟩) .nil
  | STRU =>
    rw [hid] at h
    cases h
    unfold plainReply
    rw [hid]
    exact struReply_proper _
  | MODE =>
    rw [hid] at h
    cases h
    unfold plainReply
    rw [hid]
    exact modeReply_proper _
  | OPTS =>
    rw [hid] at h
    cases h
    unfold plainReply
    rw [hid]
    exact optsReply_proper _
  | PWD =>
    rw [hid] at h
    cases h
    exact ⟨rfl, rfl⟩
  | FEAT =>
    rw [hid] at h
    cases h
    unfold plainReply
    rw [hid]
    exact ⟨rfl, rfl⟩
  | _ =>
    rw [hid] at h
    cases h
    unfold plainReply
    rw [hid]
    exact proper_fixed (by decide) (by decide) .nil

end FtpServer

/-! ## The parser -/

namespace RequestParser

theorem mapCommand_proper {loggedon : Bool} {command arg : WString}
    (hid : (mapCommand loggedon command arg).1.id = .invalid) :
    Proper [] (mapCommand loggedon command arg).2 [] := by
  unfold mapCommand at hid ⊢
  split
  · rename_i entry hentry
    rw [hentry] at hid
    dsimp only at hid
    split
    · exact proper_fixed (by decide) (by decide) .nil
    · rename_i hargs
      split
      · exact proper_fixed (by decide) (by decide) .nil
      · rename_i hgate
        rw [if_neg hargs, if_neg hgate] at hid
        rcases List.lookup_eq_some_iff.mp hentry with ⟨l₁, l₂, hmap, -⟩
        have htable : ∀ e ∈ commandMap, e.2.id ≠ .invalid := by decide
        exact absurd hid (htable (command, entry) (by rw [hmap]; simp))
  · exact proper_fixed (by decide) (by decide) .nil

/-- A line that is no command is answered, unless it begins with a blank. -/
theorem getCommand_texts {loggedon : Bool} {line : List UInt8} {cmd : Command} {reply : Reply}
    {text : WString} (hline : utf82ws line = some text) (hne : text ≠ [])
    (h : getCommand loggedon line = .ok (cmd, reply)) (hid : cmd.id = .invalid) :
    if text.head? = some ' ' then Unanswered reply [] else Proper [] reply [] := by
  have hcommand : text.takeWhile (· != ' ') = [] ↔ text.head? = some ' ' := by
    cases text with
    | nil => exact absurd rfl hne
    | cons c text =>
      rw [List.takeWhile_cons, List.head?_cons, Option.some_inj]
      by_cases hc : c = ' ' <;> simp [hc]
  have hmap {arg : WString} (h : mapCommand loggedon
      ((text.takeWhile (· != ' ')).map Char.toUpper) arg = (cmd, reply)) :
      Proper [] reply [] := by
    have hproper : Proper [] (mapCommand loggedon _ arg).2 [] :=
      mapCommand_proper (by rw [h]; exact hid)
    rw [h] at hproper
    exact hproper
  unfold getCommand at h
  rw [hline] at h
  dsimp only at h
  split at h
  · split at h
    · rename_i hblank
      cases h
      rw [if_pos (hcommand.mp hblank)]
      exact ⟨rfl, rfl⟩
    · rename_i hword
      rw [if_neg fun hblank ↦ hword (hcommand.mpr hblank)]
      exact hmap (Except.ok.inj h)
  · split at h
    · rename_i hblank
      cases h
      rw [if_pos (hcommand.mp hblank)]
      exact ⟨rfl, rfl⟩
    · rename_i hword
      rw [if_neg fun hblank ↦ hword (hcommand.mpr hblank)]
      exact hmap (Except.ok.inj h)
  · rename_i hargs _
    split at h
    · rename_i hnil
      exact absurd hnil hargs
    · split at h
      · rename_i hblank
        cases h
        rw [if_pos (hcommand.mp hblank)]
        exact ⟨rfl, rfl⟩
      · rename_i hword
        rw [if_neg fun hblank ↦ hword (hcommand.mpr hblank)]
        exact hmap (Except.ok.inj h)

/-- A command begins with a word. -/
theorem getCommand_word {loggedon : Bool} {line : List UInt8} {cmd : Command} {reply : Reply}
    (h : getCommand loggedon line = .ok (cmd, reply)) (hid : cmd.id ≠ .invalid) :
    ∃ first rest, utf82ws line = some (first :: rest) ∧ first ≠ ' ' := by
  have hnone {r : Reply} (h : Except.ok (ε := Fault) (Command.none, r) = .ok (cmd, reply)) :
      False := by
    cases h
    exact hid rfl
  unfold getCommand at h
  cases htext : utf82ws line with
  | none =>
    rw [htext] at h
    cases h
  | some text =>
    have hword (hcommand : ¬ text.takeWhile (· != ' ') = []) :
        ∃ first rest, some text = some (first :: rest) ∧ first ≠ ' ' := by
      cases text with
      | nil => exact absurd rfl hcommand
      | cons first rest =>
        refine ⟨first, rest, rfl, fun hblank ↦ hcommand ?_⟩
        rw [hblank]
        rfl
    rw [htext] at h
    dsimp only at h
    split at h
    · split at h
      · exact (hnone h).elim
      · rename_i hcommand
        exact hword hcommand
    · split at h
      · exact (hnone h).elim
      · rename_i hcommand
        exact hword hcommand
    · split at h
      · exact (hnone h).elim
      · split at h
        · exact (hnone h).elim
        · rename_i hcommand
          exact hword hcommand

end RequestParser

end YFtp
