import Promptboot.Primitive.Frame

/-!
# The arena over whole runs

`arena.rs` with the bytes of its storage: `reset`, `region` and the writes that go through
`region_mut`, on the memory the storage lies in. A run is logged, newest call first, and the log says
which regions are handed out and which bytes are written since the last reset.

`ArenaLog` is what the theorems speak of: `handed` are the regions since the last reset, `written`
the bytes that were written through them, `everWritten` those of the whole run. A call that panics
in the source does not occur, for every difference in it is guarded.
-/

namespace Promptboot.Primitive
open Memory

/-- `ptr::write_bytes`, and what a caller leaves in a slice. -/
def fillBytes (m : Nat → UInt8) (start bytes : Nat) (content : Nat → UInt8) : Nat → UInt8 := fun a =>
  if start ≤ a ∧ a < start + bytes then content (a - start) else m a

namespace Arena

/-- `reset` -/
def reset (self : Arena) (m : Nat → UInt8) : Except ArenaError (Arena × (Nat → UInt8)) :=
  if !self.isSealed then .error ⟨.state, 0, 0⟩
  else .ok ({ self with requested := 0, committed := 0, current := 0, isSealed := false },
    fillBytes m self.storage self.committed fun _ => 0)

/-- `region`, the bytes of the slice. -/
def region (self : Arena) (m : Nat → UInt8) (region : Region) : Except ArenaError (List UInt8) :=
  if !self.isSealed then .error ⟨.state, 0, 0⟩
  else (self.regionBounds region).map fun bounds =>
    (List.range' (self.storage + bounds.1) (bounds.2 - bounds.1)).map m

end Arena

/-- A call of a method; what the caller of `region_mut` leaves in its slice is part of it. -/
inductive ArenaCall where
  | allocate (bytes alignment : Nat)
  | sealUp
  | reset
  | region (region : Region)
  | regionMut (region : Region) (content : Nat → UInt8)

inductive ArenaAnswer where
  | region (region : Region)
  | done
  | bytes (bytes : List UInt8)

/-- What a call returns, and the arena and the memory it leaves. -/
def Arena.call (self : Arena) (m : Nat → UInt8) :
    ArenaCall → Except ArenaError ArenaAnswer × Arena × (Nat → UInt8)
  | .allocate bytes alignment =>
    match self.allocate bytes alignment with
    | .ok (region, grown) => (.ok (.region region), grown, m)
    | .error error => (.error error, self, m)
  | .sealUp =>
    match self.sealUp with
    | .ok closed => (.ok .done, closed, m)
    | .error error => (.error error, self, m)
  | .reset =>
    match self.reset m with
    | .ok (emptied, cleared) => (.ok .done, emptied, cleared)
    | .error error => (.error error, self, m)
  | .region region =>
    match self.region m region with
    | .ok bytes => (.ok (.bytes bytes), self, m)
    | .error error => (.error error, self, m)
  | .regionMut region content =>
    match self.regionMut region with
    | .ok address => (.ok .done, self, fillBytes m address region.length content)
    | .error error => (.error error, self, m)

abbrev ArenaLog := List (ArenaCall × Except ArenaError ArenaAnswer)

/-- The arena and the memory that a run over a storage leaves, with its log. -/
inductive ArenaRun (storage length : Nat) (m₀ : Nat → UInt8) :
    ArenaLog → Arena → (Nat → UInt8) → Prop where
  | new {arena} :
    Arena.new storage length = .ok arena →
    ArenaRun storage length m₀ [] arena m₀
  | call {log arena m c answer arena' m'} :
    ArenaRun storage length m₀ log arena m →
    arena.call m c = (answer, arena', m') →
    ArenaRun storage length m₀ ((c, answer) :: log) arena' m'

/-- A region with the alignment it was asked for. -/
structure Handed where
  region : Region
  alignment : Nat

/-- The regions handed out since the last reset. -/
def handed : ArenaLog → List Handed
  | [] => []
  | (.allocate _ alignment, .ok (.region region)) :: log => ⟨region, alignment⟩ :: handed log
  | (.reset, .ok _) :: _ => []
  | _ :: log => handed log

/-- The bytes of a region. -/
def Region.area (storage : Nat) (region : Region) : Set Nat :=
  Primitive.area (storage + region.offset) region.length

/-- The bytes written since the last reset. -/
def written (storage : Nat) : ArenaLog → Set Nat
  | [] => ∅
  | (.regionMut region _, .ok _) :: log => region.area storage ∪ written storage log
  | (.reset, .ok _) :: _ => ∅
  | _ :: log => written storage log

/-- The bytes written at any time. -/
def everWritten (storage : Nat) : ArenaLog → Set Nat
  | [] => ∅
  | (.regionMut region _, .ok _) :: log => region.area storage ∪ everWritten storage log
  | _ :: log => everWritten storage log

end Promptboot.Primitive
