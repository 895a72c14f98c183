import Purser.ControlCalls
import Purser.KeyedStores
import Mathlib.Data.List.Palindrome

/-!
# The membership view behind the gossip protocol

A call of the gossip library leaves packets and notifications in vectors, which
the agent takes from their ends: a batch acts on the view backwards.
-/

namespace Purser.Gossip

open KeyedStores ControlPlane List

variable {Addr Timer : Type}

structure Peer where
  nodeID : Option String
  addr : String

namespace Peer

def seed (addr : String) : Peer := ⟨none, addr⟩

def key (peer : Peer) : String := peer.nodeID.getD peer.addr

end Peer

structure Member where
  peer : Peer
  lastSeen : ℕ
  state : NodeState

abbrev Membership := Store fun member : Member => member.peer.key

namespace Membership

def observe (members : Membership) (now : ℕ) (peer : Peer) : Membership :=
  let entry := (members.find peer.key).getD ⟨peer, now, .unspecified⟩
  members.put { entry with peer := peer, lastSeen := now }

def remove (members : Membership) (nodeID : String) : Membership := members.erase nodeID

def lists (members : Membership) (entry : String) : Bool := (members.find entry).isSome

end Membership

structure SwimIdentity (Addr : Type) where
  swimAddr : Addr
  grpcAddr : Addr
  bump : UInt64

inductive Notification (Addr : Type) where
  | memberUp (id : SwimIdentity Addr)
  | memberDown (id : SwimIdentity Addr)
  | active
  | idle
  | defunct
  | rejoin (id : SwimIdentity Addr)

structure AccumulatingRuntime (Addr Timer : Type) where
  toSend : List (SwimIdentity Addr × List UInt8) := []
  toSchedule : List (ℕ × Timer) := []
  notifications : List (Notification Addr) := []

/-- A call of the runtime by the library. -/
inductive Effect (Addr Timer : Type) where
  | notify (notification : Notification Addr)
  | sendTo (peer : SwimIdentity Addr) (data : List UInt8)
  | submitAfter (event : Timer) (after : ℕ)

namespace AccumulatingRuntime

def push (rt : AccumulatingRuntime Addr Timer) : Effect Addr Timer → AccumulatingRuntime Addr Timer
  | .notify notification => { rt with notifications := rt.notifications ++ [notification] }
  | .sendTo peer data => { rt with toSend := rt.toSend ++ [(peer, data)] }
  | .submitAfter event after => { rt with toSchedule := rt.toSchedule ++ [(after, event)] }

def accumulate (effects : List (Effect Addr Timer)) : AccumulatingRuntime Addr Timer :=
  effects.foldl push {}

def notified : Effect Addr Timer → Option (Notification Addr)
  | .notify notification => some notification
  | _ => none

def packet : Effect Addr Timer → Option (SwimIdentity Addr × List UInt8)
  | .sendTo peer data => some (peer, data)
  | _ => none

theorem accumulate_eq (effects : List (Effect Addr Timer)) :
    (accumulate effects).notifications = effects.filterMap notified ∧
      (accumulate effects).toSend = effects.filterMap packet := by
  induction effects using List.reverseRecOn with
  | nil => exact ⟨rfl, rfl⟩
  | append_singleton front effect induction =>
    rw [accumulate, foldl_append, ← accumulate, filterMap_append, filterMap_append]
    cases effect <;> simp [push, induction, notified, packet]

end AccumulatingRuntime

open AccumulatingRuntime

section Drain

variable (display : Addr → String)

/-- One notification acts on the view; all but two are only logged. -/
def handle (now : ℕ) (members : Membership) : Notification Addr → Membership
  | .memberUp id => members.observe now (.seed (display id.grpcAddr))
  | .memberDown id => members.remove (display id.grpcAddr)
  | .active | .idle | .defunct | .rejoin _ => members

/-- Notifications act one after the other, each at its own time. -/
def follow (clock : ℕ → ℕ) (members : Membership) : List (Notification Addr) → Membership
  | [] => members
  | notification :: rest =>
    follow (fun tick => clock (tick + 1)) (handle display (clock 0) members notification) rest

structure Drained (Addr Timer : Type) where
  sent : List (Addr × List UInt8)
  spawned : List (ℕ × Timer)
  members : Membership

/-- Each vector is popped until it is empty. -/
def drainRuntime (clock : ℕ → ℕ) (rt : AccumulatingRuntime Addr Timer) (members : Membership) :
    Drained Addr Timer where
  sent := rt.toSend.reverse.map fun packet => (packet.1.swimAddr, packet.2)
  spawned := rt.toSchedule.reverse
  members := follow display clock members rt.notifications.reverse

/-- The packets that a call produced for an address, in order. -/
def packetsTo [DecidableEq Addr] (peer : Addr) (effects : List (Effect Addr Timer)) :
    List (Addr × List UInt8) :=
  ((effects.filterMap packet).map fun sent => (sent.1.swimAddr, sent.2)).filter (·.1 = peer)

/-- Whether a notification says that an address is up, or that it is down. -/
def Notification.verdict (entry : String) : Notification Addr → Option Bool
  | .memberUp id => if display id.grpcAddr = entry then some true else none
  | .memberDown id => if display id.grpcAddr = entry then some false else none
  | _ => none

def verdicts (entry : String) (notifications : List (Notification Addr)) : List Bool :=
  notifications.filterMap (Notification.verdict display entry)

theorem lists_handle (now : ℕ) (members : Membership) (notification : Notification Addr)
    (entry : String) : (handle display now members notification).lists entry =
      (notification.verdict display entry).getD (members.lists entry) := by
  cases notification with
  | memberUp id =>
    simp only [handle, Membership.observe, Membership.lists, Store.find_put, Notification.verdict]
    split <;> simp_all [Peer.key, Peer.seed]
  | memberDown id =>
    simp only [handle, Membership.remove, Membership.lists, Store.find_erase, Notification.verdict]
    by_cases same : display id.grpcAddr = entry
    · simp [same]
    · simp [same, Ne.symm same]
  | _ => rfl

/-- The last notification about an address decides whether it is listed. -/
theorem lists_follow (clock : ℕ → ℕ) (members : Membership)
    (notifications : List (Notification Addr)) (entry : String) :
    (follow display clock members notifications).lists entry =
      (verdicts display entry notifications).getLast?.getD (members.lists entry) := by
  induction notifications generalizing clock members with
  | nil => rfl
  | cons notification rest induction =>
    rw [follow, induction, lists_handle, verdicts, verdicts, filterMap_cons]
    cases notification.verdict display entry with
    | none => rfl
    | some => simp [getLast?_cons]

/-- A batch has the effect of its notifications in order, and hands every peer its
packets in order, exactly when the first and the last notification about each
address agree and each peer's packets read the same backwards. -/
theorem drainRuntime_inOrder_iff [DecidableEq Addr] (clock : ℕ → ℕ) (members : Membership)
    (effects : List (Effect Addr Timer)) :
    ((∀ entry, (drainRuntime display clock (accumulate effects) members).members.lists entry =
        (follow display clock members (effects.filterMap notified)).lists entry) ∧
      ∀ peer, (drainRuntime display clock (accumulate effects) members).sent.filter (·.1 = peer) =
        packetsTo peer effects) ↔
    (∀ entry, (verdicts display entry (effects.filterMap notified)).head? =
        (verdicts display entry (effects.filterMap notified)).getLast?) ∧
      ∀ peer, (packetsTo peer effects).Palindrome := by
  obtain ⟨notifications, sends⟩ := accumulate_eq effects
  simp only [drainRuntime, notifications, sends, lists_follow]
  refine and_congr (forall_congr' fun entry => ?_) (forall_congr' fun peer => ?_)
  · rw [verdicts, filterMap_reverse, getLast?_reverse, ← verdicts]
    cases verdicts display entry (effects.filterMap notified) with
    | nil => simp
    | cons => simp [getLast?_cons]
  · rw [map_reverse, filter_reverse, List.Palindrome.iff_reverse_eq]
    rfl

end Drain

/-- A peer is reported down and, restarted, up again, and is sent two packets. -/
def restarted : List (Effect String Unit) :=
  [.notify (.memberDown ⟨"10.0.0.2:7946", "10.0.0.2:7000", 1⟩),
    .notify (.memberUp ⟨"10.0.0.2:7946", "10.0.0.2:7000", 2⟩),
    .sendTo ⟨"10.0.0.2:7946", "10.0.0.2:7000", 2⟩ [1],
    .sendTo ⟨"10.0.0.2:7946", "10.0.0.2:7000", 2⟩ [2]]

theorem drainRuntime_restarted :
    (follow id id .empty (restarted.filterMap notified)).lists "10.0.0.2:7000" = true ∧
      (drainRuntime id id (accumulate restarted) .empty).members.lists "10.0.0.2:7000" = false ∧
      packetsTo "10.0.0.2:7946" restarted = [("10.0.0.2:7946", [1]), ("10.0.0.2:7946", [2])] ∧
      (drainRuntime id id (accumulate restarted) .empty).sent =
        [("10.0.0.2:7946", [2]), ("10.0.0.2:7946", [1])] := by
  decide

end Purser.Gossip
