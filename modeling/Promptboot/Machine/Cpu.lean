import Mathlib.Tactic.Common
import Mathlib.Algebra.Group.Int.Defs
import Mathlib.Algebra.Group.Nat.Defs

/-!
# Processor features

The two AVX2 tests of the program: `inference_avx2_available` (`fp32_sse2.rs`), which the
bootstrap processor runs once while the engine is built, and `cpu_state_ready`/`avx2_capable`
(`mp_inference.rs`), which every application processor runs on entry to each dispatch. Both read
the processor's `cpuid` leaves and the state its operating environment has enabled.

`selectAvx2` is the decision on the masks alone, `resolveAvx2` and `avx2Capable` the two ways in
which the program comes to ask for it. They read different leaves in a different order, as the two
files do.
-/

namespace Promptboot

/-- The vector instructions a kernel is compiled for. -/
inductive InferenceBackend where
  | sse2
  | avx2
  deriving DecidableEq, Repr

/-- What one processor reports about itself. -/
structure Cpu where
  maxBasicLeaf : Nat
  leaf1Ecx : BitVec 32
  leaf7Ebx : BitVec 32
  xcr0 : BitVec 64
  cr0 : BitVec 64
  cr4 : BitVec 64
  x87 : BitVec 16
  mxcsr : BitVec 32
  deriving DecidableEq, Repr

def avxStateMask : BitVec 64 := 0x6

/-- The XSAVE, OSXSAVE and AVX bits of leaf 1. -/
def avxLeaf1Mask : BitVec 32 := (1#32 <<< 26) ||| (1#32 <<< 27) ||| (1#32 <<< 28)

def selectAvx2 (maxBasicLeaf : Nat) (leaf1Ecx : BitVec 32) (xcr0 : BitVec 64)
    (leaf7Ebx : BitVec 32) : Bool :=
  decide (7 ≤ maxBasicLeaf) && (leaf1Ecx &&& avxLeaf1Mask == avxLeaf1Mask) &&
    (xcr0 &&& avxStateMask == avxStateMask) && (leaf7Ebx &&& (1#32 <<< 5) != 0)

/-- `resolve_avx2`: neither XCR0 nor leaf 7 is read before leaf 1 allows it. -/
def resolveAvx2 (maxBasicLeaf : Nat) (leaf1Ecx : BitVec 32) (readXcr0 : Unit → BitVec 64)
    (readLeaf7Ebx : Unit → BitVec 32) : Bool :=
  if decide (maxBasicLeaf < 7) || leaf1Ecx &&& avxLeaf1Mask != avxLeaf1Mask then
    false
  else
    selectAvx2 maxBasicLeaf leaf1Ecx (readXcr0 ()) (readLeaf7Ebx ())

namespace Cpu

def inferenceAvx2Available (cpu : Cpu) : Bool :=
  let leaf1Ecx := if 1 ≤ cpu.maxBasicLeaf then cpu.leaf1Ecx else 0
  resolveAvx2 cpu.maxBasicLeaf leaf1Ecx (fun _ => cpu.xcr0) (fun _ => cpu.leaf7Ebx)

/-- `establish_ap_state`: the control registers, the x87 control word and MXCSR are set. -/
def establishApState (cpu : Cpu) : Cpu :=
  { cpu with
    cr0 := (cpu.cr0 ||| ((1#64 <<< 1) ||| (1#64 <<< 5))) &&& ~~~((1#64 <<< 2) ||| (1#64 <<< 3))
    cr4 := cpu.cr4 ||| ((1#64 <<< 9) ||| (1#64 <<< 10))
    x87 := 0x037f
    mxcsr := 0x1f80 }

def cpuStateReady (cpu : Cpu) : Bool :=
  (cpu.cr0 &&& ((1#64 <<< 1) ||| (1#64 <<< 5)) == ((1#64 <<< 1) ||| (1#64 <<< 5))) &&
    (cpu.cr0 &&& ((1#64 <<< 2) ||| (1#64 <<< 3)) == 0) &&
    (cpu.cr4 &&& ((1#64 <<< 9) ||| (1#64 <<< 10)) == ((1#64 <<< 9) ||| (1#64 <<< 10))) &&
    (cpu.x87 == 0x037f) && (cpu.mxcsr == 0x1f80)

def avx2Capable (cpu : Cpu) : Bool :=
  if cpu.maxBasicLeaf < 7 then
    false
  else
    let required := (1#32 <<< 26) ||| (1#32 <<< 27) ||| (1#32 <<< 28)
    (cpu.cr4 &&& (1#64 <<< 18) != 0) && (cpu.leaf1Ecx &&& required == required) &&
      (cpu.xcr0 &&& 0x6 == 0x6) && (cpu.leaf7Ebx &&& (1#32 <<< 5) != 0)

end Cpu

/-- `InferenceBackend::detect` -/
def InferenceBackend.detect (cpu : Cpu) : InferenceBackend :=
  if cpu.inferenceAvx2Available then .avx2 else .sse2

end Promptboot
