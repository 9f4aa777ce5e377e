import MatchTape.Packet.Fault
import MatchTape.Record.MatchSheet

/-!
# The setup of a match

What a world has to know before its first frame: who hosts, which map is played,
the random seed, and the taken seats in the order of their slots.
-/

namespace MatchTape.World

open Record

inductive Refusal where
  | noSetup
  | malformedState (fault : Packet.Fault)
  | inconsistentState (nextId highest : UInt32)
  | unsupportedState (version : UInt8)
  | otherMap (expected found : String)
  | slotOutOfRange (slot : UInt32)
  deriving DecidableEq, Repr

def Refusal.message : Refusal → String
  | noSetup => "no session context; begin_session must run before load_state"
  | malformedState fault => s!"malformed simulation state: {fault.message}"
  | inconsistentState nextId highest =>
      s!"inconsistent simulation state: next unit id {nextId} is not above live unit {highest}"
  | unsupportedState version => s!"unsupported simulation state version {version}"
  | otherMap expected found => s!"state was saved for {found}, active session is {expected}"
  | slotOutOfRange slot => s!"roster slot {slot} is out of range"

/-- A seat whose slot is the number of a player. -/
structure Place where
  slot : UInt8
  player : String
  team : Int32
  deriving DecidableEq, Repr, Inhabited

def Place.ofSeat (seat : Seat) : Except Refusal Place :=
  if seat.slot < 256 then .ok ⟨seat.slot.toUInt8, seat.player, seat.team⟩
  else .error (.slotOutOfRange seat.slot)

structure Setup where
  host : String := ""
  map : String := ""
  seed : UInt32 := 0
  roster : List Place := []
  deriving DecidableEq, Repr, Inhabited

namespace Setup

/-- The setup on a sheet.  Seats that share a slot keep their order. -/
def ofSheet (sheet : MatchSheet) : Except Refusal Setup := do
  let places ← sheet.roster.mapM Place.ofSeat
  return {
    host := sheet.host
    map := sheet.map
    seed := sheet.seed
    roster := places.mergeSort fun left right => left.slot ≤ right.slot }

def describe (setup : Setup) : String :=
  s!"{setup.map} hosted by {setup.host} ({setup.roster.length} players)"

/-- The slot of the host: the first place whose player bears the host's name, or zero. -/
def hostSlot (setup : Setup) : UInt8 :=
  match setup.roster.find? (·.player == setup.host) with
  | some place => place.slot
  | none => 0

end Setup

end MatchTape.World
