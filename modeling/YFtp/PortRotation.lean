import YFtp.PassivePorts

/-!
# Port rotation

The sessions of a server take turns on one walk over the range of passive ports.  Which port a try
takes is decided by how many tries the whole server has made before it.
-/

namespace YFtp

/-! ## The walk -/

/-- How far a walk that begins anew after `period` steps has got after `i` steps. -/
theorem mod_succ {period : Nat} (hperiod : 2 ≤ period) (i : Nat) :
    (i + 1) % period = if i % period + 1 = period then 0 else i % period + 1 := by
  have hlt : i % period < period := Nat.mod_lt _ (by omega)
  rw [Nat.add_mod_eq_ite, Nat.mod_eq_of_lt (by omega : 1 < period)]
  split
  · rw [if_pos (by omega)]
    omega
  · rw [if_neg (by omega)]

/-- The port of the try with the number `i`.  The port after the range belongs to the walk; where
there is no port behind that one, the walk goes on through all ports. -/
def portInTurn (lo hi i : Nat) : Nat :=
  if hi < 65534 then lo + i % (hi - lo + 2) else (lo + i) % 65536

/-- When the walk comes back to a port. -/
def turnLength (lo hi : Nat) : Nat := if hi < 65534 then hi - lo + 2 else 65536

theorem after_iterate_inTurn {lo hi : UInt16} (hle : lo ≤ hi) (i : Nat) :
    ((DataPorts.after lo ((hi.toNat : Int) - lo.toNat + 1))^[i] lo).toNat
      = portInTurn lo.toNat hi.toNat i := by
  have hlo := lo.toNat_lt
  have hhi := hi.toNat_lt
  rw [UInt16.le_iff_toNat_le] at hle
  unfold portInTurn
  induction i with
  | zero =>
    show lo.toNat = _
    rw [Nat.zero_mod, Nat.add_zero, Nat.mod_eq_of_lt hlo, ite_self]
  | succ i ih =>
    rw [Function.iterate_succ_apply']
    generalize (DataPorts.after lo ((hi.toNat : Int) - lo.toNat + 1))^[i] lo = cur at ih ⊢
    have hnext : (cur + 1).toNat = (cur.toNat + 1) % 65536 := UInt16.toNat_add cur 1
    unfold DataPorts.after
    by_cases hlast : hi.toNat < 65534
    · rw [if_pos hlast] at ih ⊢
      have hmod : i % (hi.toNat - lo.toNat + 2) < hi.toNat - lo.toNat + 2 := Nat.mod_lt _ (by omega)
      rw [mod_succ (by omega)]
      by_cases hwrap : i % (hi.toNat - lo.toNat + 2) + 1 = hi.toNat - lo.toNat + 2
      · -- the port after the range was the last one
        rw [if_pos hwrap, if_pos (by omega), Nat.add_zero]
      · rw [if_neg hwrap, if_neg (by omega), hnext]
        omega
    · rw [if_neg hlast] at ih ⊢
      by_cases hwrap : ((cur + 1).toNat : Int) > lo.toNat + ((hi.toNat : Int) - lo.toNat + 1)
      · omega
      · rw [if_neg hwrap, hnext]
        omega

/-- A port comes back after a whole turn and not before. -/
theorem portInTurn_eq {lo hi i j : Nat} (hij : i < j)
    (h : portInTurn lo hi i = portInTurn lo hi j) : turnLength lo hi ≤ j - i := by
  unfold portInTurn turnLength at *
  split
  · rename_i hlast
    rw [if_pos hlast, if_pos hlast] at h
    have hmod : i % (hi - lo + 2) = j % (hi - lo + 2) := Nat.add_left_cancel h
    have hdvd : (hi - lo + 2) ∣ j - i := (Nat.modEq_iff_dvd' (Nat.le_of_lt hij)).mp hmod
    exact Nat.le_of_dvd (by omega) hdvd
  · rename_i hlast
    rw [if_neg hlast, if_neg hlast] at h
    omega

namespace FtpServer

/-- In every run, whichever sessions the commands belong to, each try takes the port whose turn it
is, and no port is tried again before all others of the turn have been. -/
theorem passivePorts_in_turn {build : Build} {σ τ : FtpServer}
    {trace : List (FtpServer × Event Line)} {lo hi : UInt16} (hle : lo ≤ hi)
    (hports : configurePorts lo hi = some σ.dataPorts) (run : LineRun build σ trace τ) :
    (∀ i port, (allTriedPorts trace)[i]? = some port →
      port.toNat = portInTurn lo.toNat hi.toNat i) ∧
    ∀ i j port, i < j → (allTriedPorts trace)[i]? = some port →
      (allTriedPorts trace)[j]? = some port → turnLength lo.toNat hi.toNat ≤ j - i := by
  have hturn : ∀ i port, (allTriedPorts trace)[i]? = some port →
      port.toNat = portInTurn lo.toNat hi.toNat i := by
    intro i port hport
    rw [configurePorts_eq] at hports
    split at hports
    · cases hports
    · have hwalk := (lineRun_triedPorts run).2
      have hlength := (List.getElem?_eq_some_iff.mp hport).1
      rw [← Option.some.inj hports] at hwalk
      rw [hwalk, List.getElem?_iterate _ _ _ _ hlength] at hport
      rw [← Option.some.inj hport]
      exact after_iterate_inTurn hle i
  refine ⟨hturn, ?_⟩
  intro i j port hij hi hj
  have hsame := (hturn i port hi).symm.trans (hturn j port hj)
  exact portInTurn_eq hij hsame

/-- Four tries of two PASV commands of two sessions go once around a range of two ports and the port
after it, and begin anew. -/
theorem passivePorts_in_turn_two : ∃ trace τ, LineRun {} (rangedServer 2000 2001) trace τ ∧
    allTriedPorts trace = [2000, 2001, 2002, 2000] ∧ turnLength 2000 2001 ≤ 3 - 0 := by
  rcases exists_lineRun {} (rangedServer 2000 2001) [.connect Sample.connection,
      .connect { Sample.connection with handle := 8 }, Sample.line "USER anonymous",
      .receive 8 { bytes := "USER anonymous".toUTF8.toList, env := Sample.env },
      .receive 7 { bytes := "PASV".toUTF8.toList, env :=
        { Sample.env with bindAndListen := fun tries _ ↦ tries = 2 } },
      .receive 8 { bytes := "PASV".toUTF8.toList, env := Sample.env }]
      (fun r ↦ allTriedPorts r.1 = [2000, 2001, 2002, 2000]) (by decide +kernel)
      with ⟨trace, τ, run, htried⟩
  have htried : allTriedPorts trace = [2000, 2001, 2002, 2000] := of_decide_eq_true htried
  refine ⟨trace, τ, run, htried, ?_⟩
  have hle : (2000 : UInt16) ≤ 2001 := by decide
  have hports : configurePorts 2000 2001 = some (rangedServer 2000 2001).dataPorts := rfl
  have hturn := (passivePorts_in_turn hle hports run).2 0 3 2000 (by decide)
  rw [htried] at hturn
  exact hturn rfl rfl

end FtpServer

end YFtp
