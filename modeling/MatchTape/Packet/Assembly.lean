import MatchTape.Packet.Command

/-!
# Splitting and assembling

A payload that is too long for one packet is split into fragments, and an
assembly puts the fragments of one payload together in whatever order they
arrive.  All fragments agree on the wrapped command, on their count and on the
total length; each number arrives once; and no two data ranges overlap.
-/

namespace MatchTape.Packet

namespace Fragment

/-- What the fragment must share with the others of its payload. -/
def set (fragment : Fragment) : FragmentSet :=
  ⟨fragment.wrapped, fragment.count, fragment.total⟩

def start (fragment : Fragment) : Nat :=
  fragment.offset.toNat

def stop (fragment : Fragment) : Nat :=
  fragment.offset.toNat + fragment.length.toNat

/-- Cut a list into pieces of `size` elements; the last piece may be shorter. -/
def pieces (size : Nat) : List UInt8 → List (List UInt8)
  | [] => []
  | byte :: rest =>
      (byte :: rest.take (size - 1)) :: pieces size (rest.drop (size - 1))
  termination_by bytes => bytes.length
  decreasing_by
    simp only [List.length_drop, List.length_cons]
    omega

def numbered (wrapped : UInt16) (count total size : Nat) :
    Nat → List (List UInt8) → List Fragment
  | _, [] => []
  | number, data :: rest =>
      { wrapped, number := UInt32.ofNat number, count := UInt32.ofNat count,
        total := UInt32.ofNat total, offset := UInt32.ofNat (number * size), data } ::
      numbered wrapped count total size (number + 1) rest

/-- Split a payload into fragments of at most `size` bytes, and at least one.
An empty payload makes one empty fragment. -/
def split (wrapped : UInt16) (payload : List UInt8) (size : Nat) : List Fragment :=
  let size := max size 1
  let cut := if payload.isEmpty then [[]] else pieces size payload
  numbered wrapped cut.length payload.length size 0 cut

end Fragment

structure Assembly where
  set : Option FragmentSet := none
  /-- Data that is not empty, by the place where it begins, in ascending order. -/
  parts : List (Nat × List UInt8) := []
  /-- Numbers that have arrived, each with the length of its data. -/
  arrived : List (UInt32 × Nat) := []
  complete : Bool := false
  deriving DecidableEq, Repr

namespace Assembly

def empty : Assembly := {}

def received (assembly : Assembly) : Nat :=
  assembly.arrived.length

/-- The last part that begins at or before a place. -/
def partUpTo (assembly : Assembly) (place : Nat) : Option (Nat × List UInt8) :=
  (assembly.parts.takeWhile fun part => part.1 ≤ place).getLast?

def partFrom (assembly : Assembly) (place : Nat) : Option (Nat × List UInt8) :=
  (assembly.parts.dropWhile fun part => part.1 < place).head?

/-- Whether the range shares a byte with the part before or after it.  An empty
range overlaps only a part that it falls into. -/
def overlaps (assembly : Assembly) (start stop : Nat) : Bool :=
  (assembly.partUpTo start).any (fun part => start < part.1 + part.2.length) ||
    (assembly.partFrom start).any (fun part => part.1 < stop && start != stop)

/-- Put a part in its place among the others; it replaces one at the same place. -/
def insertPart (place : Nat) (data : List UInt8) :
    List (Nat × List UInt8) → List (Nat × List UInt8)
  | [] => [(place, data)]
  | part :: rest =>
      if place < part.1 then (place, data) :: part :: rest
      else if place = part.1 then (place, data) :: rest
      else part :: insertPart place data rest

/-- Why a fragment cannot be accepted, judged before anything is stored. -/
def objection? (assembly : Assembly) (fragment : Fragment) : Option Mismatch :=
  let set := assembly.set.getD fragment.set
  if assembly.complete then some .alreadyComplete
  else if set ≠ fragment.set then some (.otherSet set)
  else if set.count ≤ fragment.number then some (.numberOutside fragment.number set.count)
  else if assembly.arrived.any (·.1 == fragment.number) then
    some (.repeatedNumber fragment.number)
  else if set.total.toNat < fragment.stop then
    some (.beyondTotal fragment.start fragment.stop set.total)
  else if assembly.overlaps fragment.start fragment.stop then
    some (.overlap fragment.start fragment.stop)
  else none

def store (assembly : Assembly) (fragment : Fragment) : Assembly where
  set := some fragment.set
  parts :=
    if fragment.data.isEmpty then assembly.parts
    else insertPart fragment.start fragment.data assembly.parts
  arrived := assembly.arrived ++ [(fragment.number, fragment.length.toNat)]
  complete := assembly.complete

def covered (assembly : Assembly) : Nat :=
  total (assembly.arrived.map Prod.snd)

def payload (assembly : Assembly) : List UInt8 :=
  assembly.parts.flatMap Prod.snd

/-- Add a fragment.  The payload comes out with the fragment that completes it.
When all numbers have arrived but do not cover the total, the last fragment is
refused and yet stays stored. -/
def add (fragment : Fragment) : EStateM Fault Assembly (Option (List UInt8)) :=
  fun assembly =>
    match assembly.objection? fragment with
    | some cause => .error (.fragment fragment.wrapped cause) assembly
    | none =>
        let stored := assembly.store fragment
        if stored.received < fragment.count.toNat then
          .ok none stored
        else if stored.covered ≠ fragment.total.toNat then
          .error (.fragment fragment.wrapped
            (.uncovered fragment.count stored.covered fragment.total)) stored
        else
          .ok (some stored.payload) { stored with parts := [], complete := true }

end Assembly

end MatchTape.Packet
