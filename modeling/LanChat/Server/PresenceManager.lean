import LanChat.Db.Records

/-!
# Presence
-/

namespace LanChat

/-- `PresenceManager`: the status of the users that are online. -/
structure PresenceManager where
  presence : Int32 → Option Bytes

namespace PresenceManager

def empty : PresenceManager := ⟨fun _ => none⟩

/-- `setOnline(userId)`, with the default status. -/
def setOnline (p : PresenceManager) (userId : Int32) : PresenceManager :=
  if 0 < userId then ⟨Function.update p.presence userId (some (lit "online"))⟩ else p

def setOffline (p : PresenceManager) (userId : Int32) : PresenceManager :=
  ⟨Function.update p.presence userId none⟩

def isOnline (p : PresenceManager) (userId : Int32) : Bool := (p.presence userId).isSome

def status (p : PresenceManager) (userId : Int32) : Bytes :=
  (p.presence userId).getD (lit "offline")

theorem isOnline_setOnline (p : PresenceManager) {userId : Int32} (h : 0 < userId) (u : Int32) :
    (p.setOnline userId).isOnline u = (decide (u = userId) || p.isOnline u) := by
  by_cases hu : u = userId <;> simp [setOnline, isOnline, h, hu]

theorem isOnline_setOffline (p : PresenceManager) (userId u : Int32) :
    (p.setOffline userId).isOnline u = (!decide (u = userId) && p.isOnline u) := by
  by_cases hu : u = userId <;> simp [setOffline, isOnline, hu]

end PresenceManager

end LanChat
