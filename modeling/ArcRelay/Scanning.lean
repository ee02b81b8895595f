import ArcRelay.Lib.Pool
import ArcRelay.Scan

/-!
# Scans beside each other

Several callers may ask for a scan or cancel one. What they share is the time of the
last start, behind a lock, and the flag that cancels. The clock, the interfaces and
what the probes find are decided from outside.
-/

namespace ArcRelay.Scan

/-- What scans share. -/
structure World where
  clock : Nat
  /-- `ScanState::last_started`. -/
  lastStarted : Option Nat
  /-- Someone holds the guard of `scan_state`. -/
  locked : Bool
  /-- `scan_cancelled`. -/
  cancelled : Bool
deriving DecidableEq, Repr

/-- A runtime that has just been bound. -/
def World.bound (clock : Nat) : World := ⟨clock, none, false, false⟩

/-- `last_started.elapsed`, in milliseconds. -/
def World.elapsed (world : World) : Option Nat :=
  world.lastStarted.map fun started => (world.clock - started) / 1000000

/-- How the calls of scans are answered. The guard of `scan_state` is dropped on the early return of
a scan that comes too soon, and otherwise when the start has been noted. -/
def handle : Program.Handler World Call.Reply := fun world call proposal =>
  match call, proposal with
  | .lastElapsed, _ =>
    if world.locked then none
    else some (world.elapsed, { world with locked := !world.elapsed.any (· < scanCooldown) })
  | .setStarted, _ =>
    some ((), { world with lastStarted := some world.clock, locked := false })
  | .storeCancelled value, _ => some ((), { world with cancelled := value })
  | .loadCancelled, _ => some (world.cancelled, world)
  | _, proposal => some (proposal, world)

/-- The calls of the runtime. -/
inductive Operation where
  /-- `scan_local_ipv4`. -/
  | scan
  /-- `cancel_lan_scan`. -/
  | cancel
deriving DecidableEq, Repr

/-- `NetworkRuntime::cancel_lan_scan`. -/
def cancelLanScan : Program Call.Reply Unit := Program.perform (Call.storeCancelled true)

/-- The program of a call. A cancellation has no result. -/
def program : Operation → Program Call.Reply (Option (Except NetworkError LanScanReport))
  | .scan => some <$> scanLocalIpv4.run
  | .cancel => (fun _ => none) <$> cancelLanScan

/-- Calls that run at the same time, while the clock goes on. -/
def system :
    System Call.Reply (Option (Except NetworkError LanScanReport)) World Operation Nat where
  program := program
  handle := handle
  disturb world nanoseconds := { world with clock := world.clock + nanoseconds }

/-- The calls after a list of inputs. -/
abbrev after (clock : Nat) (inputs : List (Pool.Input Call.Reply Operation Nat)) :
    Pool Call.Reply (Option (Except NetworkError LanScanReport)) World Operation :=
  Run.exec system.step (System.initial (.bound clock)) inputs

end ArcRelay.Scan
