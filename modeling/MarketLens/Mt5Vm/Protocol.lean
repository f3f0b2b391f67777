import MarketLens.Lib.Run
import MarketLens.Mt5Vm.EaSessions

/-!
# The control plane

The transactions of workers, operators, owners, EAs and the scheduler, in any order and at
any time. A transaction that is refused leaves the database as it was, so it is no step;
the one refusal that commits, of a snapshot of another identity, is.
-/

namespace MarketLens.Mt5Vm

open Store

inductive Action where
  | wait (elapsed : Millis)
  | hello (request : WorkerHelloRequest)
  | heartbeat (envelope : Envelope) (claims : List WorkerLeaseClaim)
  | poll (envelope : Envelope) (maxCommands : Option Nat) (chosen : List Nat)
  | bind (envelope : Envelope) (request : BindRequest)
  | ack (envelope : Envelope) (request : AckRequest)
  | adminCommand (adminToken : String) (request : AdminCommandRequest)
  | sweep
  | place (accountId : AccountId) (workerId : WorkerId)
  | reserve (adminToken : String) (request : ReserveRequest)
  | activate (adminToken : String) (request : ReserveRequest)
  | abort (adminToken : String) (request : AbortRequest)
  | reconnect (adminToken : String) (request : RevisionRequest)
  | disconnect (adminToken : String) (request : RevisionRequest)
  | prepareDelete (adminToken : String) (request : RevisionRequest)
  | finalizeDelete (adminToken : String) (request : FinalizeDeleteRequest)
  | snapshot (envelope : Envelope) (request : SnapshotSubmission)
  | pairEa (request : EaSessionRequest)
  | authenticateEa (token : Nat)
  | pollEa (token : Nat)
  | touchEa (ownerId : OwnerId) (accountId : AccountId) (tradeAllowed : Bool)
  | advanceEa (ownerId : OwnerId) (accountId : AccountId)
  | manage (ownerId : OwnerId) (accountId : AccountId) (remove : Bool)

/-- One transaction. -/
def step (settings : Settings) (s : World) : Action → Option World
  | .wait elapsed => some { s with now := s.now + elapsed }
  | .hello request => ((workerHello settings request s).map Prod.fst).toOption
  | .heartbeat envelope claims => (workerHeartbeat envelope claims s).toOption
  | .poll envelope maxCommands chosen => ((workerPoll envelope maxCommands chosen s).map Prod.fst).toOption
  | .bind envelope request => ((workerBindEaBootstrap settings envelope request s).map Prod.fst).toOption
  | .ack envelope request => ((workerAck envelope request s).map Prod.fst).toOption
  | .adminCommand adminToken request => ((queueAdminCommand settings adminToken request s).map Prod.fst).toOption
  | .sweep => (expireStaleState s).toOption
  | .place accountId workerId => (scheduleOne accountId workerId s).toOption
  | .reserve adminToken request => ((reserveAccount settings adminToken request s).map Prod.fst).toOption
  | .activate adminToken request => ((activateAccount settings adminToken request s).map Prod.fst).toOption
  | .abort adminToken request => (abortAccount settings adminToken request s).toOption
  | .reconnect adminToken request => ((reconnectAccount settings adminToken request s).map Prod.fst).toOption
  | .disconnect adminToken request => ((disconnectAccount settings adminToken request s).map Prod.fst).toOption
  | .prepareDelete adminToken request => ((prepareDeleteAccount settings adminToken request s).map Prod.fst).toOption
  | .finalizeDelete adminToken request => (finalizeDeleteAccount settings adminToken request s).toOption
  | .snapshot envelope request => ((ingestSnapshot settings envelope request s).map Prod.fst).toOption
  | .pairEa request => (createManagedSession settings request s).toOption
  | .authenticateEa token => (authenticateSession token s).toOption
  | .pollEa token => (recordEaPoll token s).toOption
  | .touchEa ownerId accountId tradeAllowed => (touchAccount ownerId accountId tradeAllowed s).toOption
  | .advanceEa ownerId accountId => (advanceAfterEvent ownerId accountId s).toOption
  | .manage ownerId accountId remove => (manageAccount ownerId accountId remove s).toOption

end MarketLens.Mt5Vm
