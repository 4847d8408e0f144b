import YFtp.Dispatch
import YFtp.Registry

/-!
# The state of the parser between chunks

The parser is part of the client node, and `process_command` finds the client node through the
client lists.  A connection whose client stands in no list gets a fresh node for every chunk, and
whatever the parser held of the chunk before is gone.
-/

namespace YFtp

namespace RequestParser

/-- What the parser holds of its input; `loggedon` is set anew by every call. -/
def held (p : RequestParser) : RequestParser := p.setStatus false

@[simp] theorem held_recvLineBuffer (p : RequestParser) :
    p.held.recvLineBuffer = p.recvLineBuffer := rfl

variable {charSigned : Bool}

theorem held_receive (p : RequestParser) (data : List UInt8) :
    (p.receive charSigned data).held = p.held.receive charSigned data := by
  unfold held
  rw [receive_setStatus]

/-- The parser after a line has been taken out of the queue, if there was one. -/
def popLine (p : RequestParser) : RequestParser :=
  { p with recvLineBuffer := p.recvLineBuffer.tail }

theorem held_popLine (p : RequestParser) : p.popLine.held = p.held.popLine := rfl

/-- `parse` takes at most one line. -/
theorem parse_takes {p q : RequestParser} {garbage cmd : Command} {data : List UInt8}
    {result : Tribool} {reply : Reply}
    (h : p.parse charSigned garbage data = .ok (q, result, cmd, reply)) :
    q = (p.receive charSigned data).popLine := by
  unfold parse at h
  dsimp only at h
  split at h
  · rename_i hnil
    cases h
    unfold popLine
    rw [hnil, List.tail_nil, ← hnil]
  · rename_i line lines hcons
    have htail : lines = (p.receive charSigned data).recvLineBuffer.tail := by
      rw [hcons, List.tail_cons]
    split at h
    · cases h
    · split at h
      all_goals
        cases h
        unfold popLine
        rw [htail]

end RequestParser

namespace FtpServer

section Calls

variable {build : Build} {σ τ υ ρ : FtpServer} {k : Connection} {s : Handle} {chunk : Chunk}
  {fs : List Effect} {trace between : List (FtpServer × Event Chunk)} {c : ClientRef}

theorem startParser_of_registered (h : σ.findClient k.handle = some c) :
    σ.startParser k = (σ.nodes c).requestParser := by
  unfold startParser
  rcases clientFor_cases σ k with ⟨d, hd, hfor⟩ | ⟨hnone, -⟩
  · rw [hfor]
    rw [h] at hd
    cases hd
    rfl
  · rw [h] at hnone
    cases hnone

theorem startParser_of_unregistered (h : σ.findClient k.handle = none) : σ.startParser k = {} := by
  unfold startParser
  rcases clientFor_cases σ k with ⟨d, hd, -⟩ | ⟨-, hfor⟩
  · rw [h] at hd
    cases hd
  · rw [hfor]
    simp [setNode, freshNode]

/-- A call leaves the received input, less one line, in the parser of the client node it was
processed for, and after it no other client node is registered for the connection. -/
theorem exec_chunk (hcons : Consistent σ) (hk : σ.connections.find? (·.handle = s) = some k)
    (h : exec (onChunk build) σ (.receive s chunk) = .ok (τ, fs)) :
    ((τ.nodes (σ.clientFor k).2).requestParser).held
      = ((σ.startParser k).receive build.charSigned chunk.data).popLine.held ∧
    ∀ d, τ.findClient s = some d → d = (σ.clientFor k).2 := by
  have hsocket : k.handle = s := by simpa using List.find?_some hk
  rcases exec_receive h with ⟨hnone, -, -⟩ | ⟨k', a, hk', -, ha, hreplied⟩
  · rw [hk] at hnone
    cases hnone
  · rw [hk] at hk'
    cases hk'
    rcases processCommand_handled ha with ⟨p, result, cmd, reply, hparse, hhandled⟩
    constructor
    · rcases hreplied.endFrame.nodes (σ.clientFor k).2 with ⟨isOpen, hnode⟩
      rw [hnode, hhandled.frame.requestParser, setParser_nodes_self]
      dsimp only
      rw [RequestParser.parse_takes hparse, RequestParser.receive_setStatus]
      rfl
    · intro d hd
      rcases findClient_eq_some hd with ⟨hreg, hdsocket⟩
      rcases hreplied.endFrame.nodes d with ⟨isOpen, hnode⟩
      rw [hnode] at hdsocket
      exact (hhandled.consistent hcons).2.alone d (hreplied.endFrame.registered d hreg)
        (hdsocket.trans hsocket.symm)

/-- Between two calls on a connection its parser stays, as long as the client node is registered. -/
theorem run_between (hcons : Consistent υ) (run : ChunkRun build υ between τ)
    (hbetween : ∀ p ∈ between, ∀ input, p.2 ≠ .receive s input)
    (hc : τ.findClient s = some c) :
    υ.findClient s = some c ∧ (τ.nodes c).requestParser = (υ.nodes c).requestParser := by
  have hkept : Consistent τ ∧ ∀ d, Registered τ d → (τ.nodes d).ctrlSocket = s →
      Registered υ d ∧ (υ.nodes d).ctrlSocket = s ∧
        (τ.nodes d).requestParser = (υ.nodes d).requestParser := by
    refine run.invariant_of_steps (P := fun t ↦ Consistent t ∧ ∀ d, Registered t d →
        (t.nodes d).ctrlSocket = s → Registered υ d ∧ (υ.nodes d).ctrlSocket = s ∧
          (t.nodes d).requestParser = (υ.nodes d).requestParser)
      (C := fun _ e ↦ ∀ input, e ≠ .receive s input)
      ⟨hcons, fun d hd hs ↦ ⟨hd, hs, rfl⟩⟩ ?_ hbetween
    rintro t e t' ⟨ht, hkept⟩ hother ⟨fs, hstep⟩
    refine ⟨exec_consistent (onChunk_serving build) ht hstep, fun d hd hs ↦ ?_⟩
    rcases exec_elsewhere (onChunk_serving build) ht hstep hother hd hs with
      ⟨hd', hs', hparser, -⟩
    rcases hkept d hd' hs' with ⟨hυ, hsocket, hsame⟩
    exact ⟨hυ, hsocket, hparser.trans hsame⟩
  rcases findClient_eq_some hc with ⟨hreg, hsocket⟩
  rcases hkept.2 c hreg hsocket with ⟨hreg, hsocket, hsame⟩
  refine ⟨?_, hsame⟩
  cases hfind : υ.findClient s with
  | none => exact absurd hsocket (findClient_eq_none.mp hfind c hreg)
  | some d =>
    rcases findClient_eq_some hfind with ⟨hdreg, hdsocket⟩
    rw [hcons.unique d c hdreg hreg (hdsocket.trans hsocket.symm)]

/-- A call starts with what the call before it on the same connection left in the parser exactly if
the client node of the connection is registered when the chunk arrives, or nothing was left. -/
theorem startParser_left_iff (hσ : Initial σ) (run : ChunkRun build σ trace ρ)
    (hk : ρ.connections.find? (·.handle = s) = some k)
    (hcall : exec (onChunk build) ρ (.receive s chunk) = .ok (υ, fs))
    (later : ChunkRun build υ between τ)
    (hbetween : ∀ p ∈ between, ∀ input, p.2 ≠ .receive s input) :
    (τ.startParser k).held = ((υ.nodes (ρ.clientFor k).2).requestParser).held ↔
      τ.findClient s ≠ none ∨ ((υ.nodes (ρ.clientFor k).2).requestParser).held = {} := by
  have hρ := chunkRun_consistent hσ run
  have hυ := exec_consistent (onChunk_serving build) hρ hcall
  have hsocket : k.handle = s := by simpa using List.find?_some hk
  cases hfind : τ.findClient s with
  | none =>
    rw [startParser_of_unregistered (by rw [hsocket, hfind])]
    refine ⟨fun heq ↦ .inr heq.symm, fun h ↦ ?_⟩
    rcases h with hreg | hnothing
    · exact absurd rfl hreg
    · exact hnothing.symm
  | some c =>
    rcases run_between hυ later hbetween hfind with ⟨hc, hsame⟩
    have hcall := (exec_chunk hρ hk hcall).2 c hc
    rw [startParser_of_registered (by rw [hsocket, hfind]), hsame, hcall]
    exact iff_of_true rfl (.inl nofun)

end Calls

/-- Half a line, sent by a client that has named its account, is there when the rest comes. -/
theorem startParser_left_login : ∃ trace ρ υ fs, ChunkRun {} Sample.server trace ρ ∧
    exec (onChunk {}) ρ (Sample.chunk "PASS") = .ok (υ, fs) ∧
    ((υ.nodes (ρ.clientFor Sample.connection).2).requestParser).recvBuffer
      = "PASS".toUTF8.toList ∧
    (υ.startParser Sample.connection).held
      = ((υ.nodes (ρ.clientFor Sample.connection).2).requestParser).held := by
  rcases exists_chunkRun_of {} Sample.server
      [.connect Sample.connection, Sample.chunk "USER bob\r\n"]
      (fun r ↦ r.2.connections.find? (·.handle = 7) = some Sample.connection &&
        (exec (onChunk {}) r.2 (Sample.chunk "PASS")).toOption.any fun x ↦
          (x.1.findClient 7).isSome &&
          ((x.1.nodes (r.2.clientFor Sample.connection).2).requestParser).recvBuffer
            = "PASS".toUTF8.toList)
      (by decide +kernel) with ⟨trace, ρ, run, -, h⟩
  simp only [Bool.and_eq_true, decide_eq_true_eq, Option.any_eq_true] at h
  rcases h with ⟨hk, ⟨υ, fs⟩, hexec, hfind, hbuffer⟩
  have hexec := eq_ok_of_toOption hexec
  exact ⟨trace, ρ, υ, fs, run, hexec, hbuffer,
    (startParser_left_iff Sample.initial run hk hexec .refl (by simp)).mpr
      (.inl (Option.ne_none_iff_isSome.mpr hfind))⟩

/-- Before login the first half of a line is lost. -/
theorem startParser_left_fails : Initial Sample.server ∧
    ∃ trace ρ υ fs, ChunkRun {} Sample.server trace ρ ∧
      ρ.connections.find? (·.handle = 7) = some Sample.connection ∧
      exec (onChunk {}) ρ (Sample.chunk "US") = .ok (υ, fs) ∧
      ((υ.nodes (ρ.clientFor Sample.connection).2).requestParser).recvBuffer
        = "US".toUTF8.toList ∧
      (υ.startParser Sample.connection).recvBuffer = [] := by
  refine ⟨Sample.initial, ?_⟩
  rcases exists_chunkRun_of {} Sample.server [.connect Sample.connection]
      (fun r ↦ r.2.connections.find? (·.handle = 7) = some Sample.connection &&
        (exec (onChunk {}) r.2 (Sample.chunk "US")).toOption.any fun x ↦
          ((x.1.nodes (r.2.clientFor Sample.connection).2).requestParser).recvBuffer
            = "US".toUTF8.toList &&
          (x.1.startParser Sample.connection).recvBuffer = [])
      (by decide +kernel) with ⟨trace, ρ, run, -, h⟩
  simp only [Bool.and_eq_true, decide_eq_true_eq, Option.any_eq_true] at h
  rcases h with ⟨hk, ⟨υ, fs⟩, hexec, hleft, hstart⟩
  exact ⟨trace, ρ, υ, fs, run, hk, eq_ok_of_toOption hexec, hleft, hstart⟩

end FtpServer

end YFtp
