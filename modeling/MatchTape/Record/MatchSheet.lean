import MatchTape.Record.Entry

/-!
# The sheet of a recorded match

The record in front of a recording: where and by whom the match was hosted, its
random seed, how many frames it has, and who sat where.
-/

namespace MatchTape.Record

structure Seat where
  slot : UInt32 := 0
  player : String := ""
  team : Int32 := 0
  deriving DecidableEq, Repr, Inhabited

namespace Seat

/-- A signed number as the entry of 64 bits with the same value. -/
def signedNumber (value : Int32) : UInt64 :=
  value.toInt64.toUInt64

def entries (seat : Seat) : List Entry :=
  Entry.ofNumber 1 seat.slot.toUInt64 ++ Entry.ofText 2 seat.player ++
    Entry.ofNumber 3 (signedNumber seat.team)

def bytes (seat : Seat) : List UInt8 :=
  seat.entries.flatMap Entry.bytes

def absorb (seat : Seat) (entry : Entry) : Option Seat :=
  match entry.number with
  | 1 => do return { seat with slot := (← Entry.number? entry.payload).toUInt32 }
  | 2 => do return { seat with player := ← Entry.text? entry.payload }
  | 3 => do return { seat with team := (← Entry.number? entry.payload).toUInt32.toInt32 }
  | _ => some seat

def ofBytes? (input : List UInt8) : Option Seat := do
  (← Entry.list? Entry.innerDepth input).foldlM absorb {}

end Seat

structure MatchSheet where
  map : String := ""
  host : String := ""
  seed : UInt32 := 0
  frameCount : UInt32 := 0
  roster : List Seat := []
  build : String := ""
  deriving DecidableEq, Repr, Inhabited

namespace MatchSheet

def seatNumber : Nat := 5

/-- The entries of a sheet; every seat has one, even an empty seat. -/
def entries (sheet : MatchSheet) : List Entry :=
  Entry.ofText 1 sheet.map ++ Entry.ofText 2 sheet.host ++
    Entry.ofNumber 3 sheet.seed.toUInt64 ++ Entry.ofNumber 4 sheet.frameCount.toUInt64 ++
    sheet.roster.map (fun seat => ⟨seatNumber, .block seat.bytes⟩) ++ Entry.ofText 6 sheet.build

def bytes (sheet : MatchSheet) : List UInt8 :=
  sheet.entries.flatMap Entry.bytes

def seat? (entry : Entry) : Option Seat := do
  Seat.ofBytes? (← Entry.block? entry.payload)

/-- Take over what an entry says, unless it holds a seat.  An entry that repeats an
earlier one replaces it. -/
def absorb (sheet : MatchSheet) (entry : Entry) : Option MatchSheet :=
  match entry.number with
  | 1 => do return { sheet with map := ← Entry.text? entry.payload }
  | 2 => do return { sheet with host := ← Entry.text? entry.payload }
  | 3 => do return { sheet with seed := (← Entry.number? entry.payload).toUInt32 }
  | 4 => do return { sheet with frameCount := (← Entry.number? entry.payload).toUInt32 }
  | 6 => do return { sheet with build := ← Entry.text? entry.payload }
  | _ => some sheet

/-- The sheet in the bytes of a record.  Seats add up, in the order of their entries. -/
def ofBytes? (input : List UInt8) : Option MatchSheet := do
  let entries ← Entry.list? Entry.outerDepth input
  let roster ← (entries.filter (·.number == seatNumber)).mapM seat?
  let sheet ← entries.foldlM absorb {}
  return { sheet with roster }

end MatchSheet

end MatchTape.Record
