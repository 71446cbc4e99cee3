import Consentry.Verify.DbOps

/-!
# The connection status as a state machine

`PeerConnectionStatus.next` is the machine of `update_connection_state` on the status
alone. **`Arm.step_status`** and **`PeerDB.updateConnectionState_connectionStatus`** read
the status of an entry, and of a database, through it.
-/

namespace Consentry

open Lib

/-- The status of a peer after `update_connection_state`. -/
def PeerConnectionStatus.next (now : Instant) :
    NewConnectionState → PeerConnectionStatus → PeerConnectionStatus
  | .connected _ _ .incoming, .connected nIn nOut => .connected (nIn + 1) nOut
  | .connected _ _ .outgoing, .connected nIn nOut => .connected nIn (nOut + 1)
  | .connected _ _ .incoming, _ => .connected 1 0
  | .connected _ _ .outgoing, _ => .connected 0 1
  | .dialing _ _, .disconnected _ | .dialing _ _, .banned _ | .dialing _ _, .unknown =>
    .dialing now
  | .dialing _ _, status => status
  | .disconnected, .banned since => .banned since
  | .disconnected, .disconnected since => .disconnected since
  | .disconnected, .disconnecting true => .banned now
  | .disconnected, _ => .disconnected now
  | .disconnecting toBan, _ => .disconnecting toBan
  | .banned, .disconnected _ | .banned, .unknown => .banned now
  | .banned, .banned since => .banned since
  | .banned, _ => .disconnecting true
  | .unbanned, .banned since => .disconnected since
  | .unbanned, status => status

namespace PeerConnectionStatus

def isConnected : PeerConnectionStatus → Bool
  | connected _ _ => true
  | _ => false

end PeerConnectionStatus

variable {F : Type}

section

variable (info : PeerInfo F)

theorem PeerInfo.isConnected_eq : info.isConnected = info.connectionStatus.isConnected := by
  unfold isConnected
  cases info.connectionStatus <;> rfl

@[simp] theorem PeerInfo.insertSeenAddress_status (a : Option SocketAddr) :
    (info.insertSeenAddress a).connectionStatus = info.connectionStatus := by
  cases a <;> rfl

@[simp] theorem PeerInfo.setConnectionStatus_status (status : PeerConnectionStatus) :
    (info.setConnectionStatus status).connectionStatus = status := rfl

theorem PeerInfo.connectIngoing_status (now : Instant) (enr : Option Enr)
    (address : Multiaddr) (a : Option SocketAddr) :
    (info.connectIngoing a).connectionStatus =
      info.connectionStatus.next now (.connected enr address .incoming) := by
  unfold connectIngoing
  rw [insertSeenAddress_status]
  cases info.connectionStatus <;> rfl

theorem PeerInfo.connectOutgoing_status (now : Instant) (enr : Option Enr)
    (address : Multiaddr) (a : Option SocketAddr) :
    (info.connectOutgoing a).connectionStatus =
      info.connectionStatus.next now (.connected enr address .outgoing) := by
  unfold connectOutgoing
  rw [insertSeenAddress_status]
  cases info.connectionStatus <;> rfl

end

namespace Arm

variable (s : Arm F)

theorem setDialingPeer_status (now : Instant) (enr : Option Enr) (trusted : Bool) :
    (s.setDialingPeer now).info.connectionStatus =
      s.info.connectionStatus.next now (.dialing enr trusted) := by
  unfold setDialingPeer PeerInfo.setDialingPeer
  cases h : s.info.connectionStatus <;> simp [h, PeerConnectionStatus.next]

theorem toConnected_status (now : Instant) (enr : Option Enr) (address : Multiaddr)
    (direction : ConnectionDirection) :
    (s.toConnected enr address direction).info.connectionStatus =
      s.info.connectionStatus.next now (.connected enr address direction) := by
  unfold toConnected
  cases direction with
  | incoming =>
    simp only [updateEnr_status]
    rw [PeerInfo.connectIngoing_status _ now enr address]
    split <;> simp [decrementDisconnected, removeBannedPeer]
  | outgoing =>
    simp only [updateEnr_status]
    rw [PeerInfo.connectOutgoing_status _ now enr address]
    split <;> simp [decrementDisconnected, removeBannedPeer]

theorem toDialing_status (enr : Option Enr) (trusted : Bool) (now : Instant) :
    (s.toDialing enr trusted now).info.connectionStatus =
      s.info.connectionStatus.next now (.dialing enr trusted) := by
  have htrust : ∀ t : Arm F, (if trusted = true then
      { t with info := t.info.setTrusted } else t).info.connectionStatus =
      t.info.connectionStatus := by
    intro t
    split <;> rfl
  unfold toDialing
  simp only
  rw [setDialingPeer_status _ now enr trusted, htrust, updateEnr_status]
  split <;> simp [decrementDisconnected, removeBannedPeer]

theorem toDisconnected_status (now : Instant) :
    (s.toDisconnected now).info.connectionStatus =
      s.info.connectionStatus.next now .disconnected := by
  unfold toDisconnected
  simp only [PeerInfo.clearSubnets]
  cases h : s.info.connectionStatus with
  | disconnecting toBan => cases toBan <;> rfl
  | _ => rfl

theorem toDisconnecting_status (toBan : Bool) (now : Instant) :
    (s.toDisconnecting toBan).info.connectionStatus =
      s.info.connectionStatus.next now (.disconnecting toBan) := by
  unfold toDisconnecting
  split <;> rfl

theorem toBanned_status (now : Instant) :
    (s.toBanned now).info.connectionStatus = s.info.connectionStatus.next now .banned := by
  unfold toBanned
  cases h : s.info.connectionStatus with
  | banned since => exact h
  | _ => rfl

theorem toUnbanned_status (now : Instant) :
    s.toUnbanned.info.connectionStatus = s.info.connectionStatus.next now .unbanned := by
  unfold toUnbanned
  cases h : s.info.connectionStatus with
  | banned since => rfl
  | _ => exact h

/-- **The status in `update_connection_state`.** -/
theorem step_status [ScoreArith F] (st : NewConnectionState) (now : Instant) :
    (s.step st now).info.connectionStatus = s.info.connectionStatus.next now st := by
  rw [← banScore_status s st]
  cases st with
  | connected enr address direction => exact toConnected_status _ now enr address direction
  | dialing enr trusted => exact toDialing_status _ enr trusted now
  | disconnected => exact toDisconnected_status _ now
  | disconnecting toBan => exact toDisconnecting_status _ toBan now
  | banned => exact toBanned_status _ now
  | unbanned => exact toUnbanned_status _ now

end Arm

namespace PeerDB

variable [ScoreArith F]

/-- The status of a peer, `unknown` for one without an entry. -/
def status (db : PeerDB F) (p : PeerId) : PeerConnectionStatus :=
  (db.connectionStatus p).getD .unknown

theorem entryOrInsert_connectionStatus (db : PeerDB F) (p : PeerId) (st : NewConnectionState)
    (now : Instant) : (db.entryOrInsert p st now).connectionStatus = db.status p := by
  unfold status connectionStatus
  cases h : db.peerInfo p with
  | none => exact (entryOrInsert_of_none h st now).1
  | some info =>
    rw [entryOrInsert_of_some h]
    rfl

omit [ScoreArith F] in
theorem isConnected_eq (db : PeerDB F) (p : PeerId) :
    db.isConnected p = (db.status p).isConnected := by
  unfold isConnected status
  cases db.connectionStatus p with
  | none => rfl
  | some status => cases status <;> rfl

theorem updateConnectionState_connectionStatus (db : PeerDB F) (p q : PeerId)
    (st : NewConnectionState) (now : Instant) :
    (db.updateConnectionState p st now).1.connectionStatus q =
      if q = p then some ((db.status p).next now st) else db.connectionStatus q := by
  unfold connectionStatus
  rw [updateConnectionState_peerInfo]
  split
  · rw [Option.map_some, Arm.step_status, arm, entryOrInsert_connectionStatus]
  · rfl

theorem updateConnectionState_status (db : PeerDB F) (p : PeerId) (st : NewConnectionState)
    (now : Instant) :
    (db.updateConnectionState p st now).1.status p = (db.status p).next now st := by
  unfold status
  rw [updateConnectionState_connectionStatus, if_pos rfl]
  rfl

end PeerDB

end Consentry
